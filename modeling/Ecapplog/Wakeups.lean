import Ecapplog.Foundations.Monitor
import Ecapplog.Payload
import Ecapplog.Worker

/-! The queue as a monitor: the threads of the client, parked on the two condition
variables, and the notifications that each critical section owes. -/

namespace Ecapplog

open Monitor (Notice)

inductive Condvar where
  | work
  | drained
  deriving DecidableEq

inductive Thread where
  | worker
  | logger (call : Nat)
  | closer (call : Nat)
  | flusher (call : Nat)
  | clock
  deriving DecidableEq

def Thread.performs : Thread → Action → Bool
  | .worker, .worker _ => true
  | .logger _, .log _ => true
  | .logger _, .report _ => true
  | .closer call, .closeShutdown which => call = which
  | .closer call, .closeTake which => call = which
  | .closer call, .closeJoin which => call = which
  | .flusher call, .flushEnter which => call = which
  | .flusher call, .flushWake which => call = which
  | .clock, .tick _ => true
  | _, _ => false

def notifyOne (condvar : Condvar) : Notice Condvar := ⟨condvar, false⟩

def notifyAll (condvar : Condvar) : Notice Condvar := ⟨condvar, true⟩

namespace Queue

variable {ρ : Type}

/-- What each operation notifies once it has released the lock. A push past
shutdown and a refused `push_front` return without. -/
def pushNotifies (q : Queue ρ) : List (Notice Condvar) :=
  if q.state.shutdown then [] else [notifyOne .work]

def pushFrontNotifies (q : Queue ρ) : List (Notice Condvar) :=
  if q.capacity ≤ q.state.items.length then [] else [notifyOne .work]

def finishNotifies (q : Queue ρ) : List (Notice Condvar) :=
  if q.state.items.isEmpty then [notifyAll .drained] else []

def shutdownNotifies (_q : Queue ρ) : List (Notice Condvar) :=
  [notifyAll .work, notifyAll .drained]

end Queue

namespace Sys

def notifies (s : Sys) : Action → List (Notice Condvar)
  | .log _ => s.queue.pushNotifies
  | .closeShutdown _ => s.queue.shutdownNotifies
  | .worker _ =>
      match s.pc with
      | .requeue _ => s.queue.pushFrontNotifies
      | .finishing _ => s.queue.finishNotifies
      | .finishingFailed _ => s.queue.finishNotifies
      | _ => []
  | _ => []

/-- The worker waits in `pop` and in `sleep_or_shutdown`, a flusher in `flush`. -/
def place (s : Sys) : Thread → Option Condvar
  | .worker =>
      match s.pc with
      | .popping _ => some .work
      | .delay => some .work
      | _ => none
  | .flusher call => if s.flushes call = .waiting then some .drained else none
  | _ => none

def waits (s : Sys) : Thread → Bool
  | .worker =>
      match s.pc with
      | .popping _ => s.queue.popWaits
      | .delay => s.queue.sleepWaits
      | _ => false
  | .flusher _ => s.queue.flushWaits
  | _ => false

end Sys

def threads (config : Config) (serde : SerdeJson) : Monitor.Program Sys Thread Action Condvar where
  step := fun s thread action => if thread.performs action then s.step config serde action else none
  owes := fun s _ action => s.notifies action
  place := Sys.place
  waits := Sys.waits

namespace Queue

variable {ρ : Type}

theorem push_flushWaits (q : Queue ρ) (record : ρ) (waits : q.flushWaits = true) :
    (q.push record).1.flushWaits = true := by
  cases closed : q.state.shutdown with
  | true =>
      rw [(q.push_shutdown record closed).1]
      exact waits
  | false =>
      rcases Nat.lt_or_ge q.state.items.length q.capacity with room | full
      · rw [(q.push_room record closed room).1]
        simp [flushWaits]
      · rw [(q.push_full record closed full).1]
        simp [flushWaits]

theorem pushFront_flushWaits (q : Queue ρ) (record : ρ) (waits : q.flushWaits = true) :
    (q.pushFront record).1.flushWaits = true := by
  rcases Nat.lt_or_ge q.state.items.length q.capacity with room | full
  · rw [q.pushFront_room record room]
    simp [flushWaits]
  · rw [q.pushFront_full record full]
    exact waits

theorem pop_flushWaits (q : Queue ρ) (waits : q.flushWaits = true) :
    q.pop.1.flushWaits = true := by
  cases items : q.state.items with
  | cons entry rest => simp [pop, items, flushWaits]
  | nil =>
      have same : q.pop.1 = q := by
        cases closed : q.state.shutdown <;> simp [pop, items, closed]
      rw [same]
      exact waits

theorem finish_flushWaits (q : Queue ρ) (ended : q.finish.flushWaits = false) :
    q.finishNotifies = [notifyAll .drained] := by
  have empty : q.state.items.isEmpty = true := by simpa [finish, flushWaits] using ended
  simp [finishNotifies, empty]

theorem push_silent (q : Queue ρ) (record : ρ) (quiet : q.pushNotifies = []) :
    (q.push record).1.state = q.state := by
  have closed : q.state.shutdown = true := by
    by_contra running
    simp [pushNotifies, running] at quiet
  rw [(q.push_shutdown record closed).1]
  rfl

end Queue

namespace Sys

variable {config : Config} {serde : SerdeJson}

theorem atHead_queue (config : Config) (s : Sys) : (s.atHead config).queue = s.queue := by
  rw [atHead]
  split
  · split <;> rfl
  · rfl

theorem atEmptyCheck_queue (s : Sys) : s.atEmptyCheck.queue = s.queue := by
  rw [atEmptyCheck]
  split <;> rfl

theorem atDeadline_queue (config : Config) (s : Sys) (stream : Option Stream) :
    (s.atDeadline config stream).queue = s.queue := by
  rw [atDeadline]
  split
  · rfl
  · split <;> rfl

theorem atExpiry_queue (s : Sys) (deadline : Instant) (stream : Option Stream) :
    (s.atExpiry deadline stream).queue = s.queue := by
  unfold atExpiry
  split
  · rfl
  · split <;> rfl

theorem atConnecting_queue (config : Config) (net : Network) (s : Sys) :
    (s.atConnecting config net).queue = s.queue := by
  rw [atConnecting]
  split <;> rfl

theorem atBanner_queue (config : Config) (net : Network) (s : Sys) (stream : Stream) :
    (s.atBanner config net stream).queue = s.queue := by
  simp only [atBanner]
  split <;> rfl

theorem atDelay_queue (s : Sys) : s.atDelay.queue = s.queue := by
  rw [atDelay]
  split <;> rfl

theorem atInner_queue (config : Config) (s : Sys) (stream : Stream) :
    (s.atInner config stream).queue = s.queue := by
  rw [atInner]
  split
  · split <;> rfl
  · rfl

theorem atPopping_queue (s : Sys) (stream : Stream) :
    (s.atPopping stream).queue = s.queue.pop.1 := by
  rw [atPopping]
  split
  case h_1 queue entry popped => rw [popped]
  case h_2 queue popped =>
      rw [popped]
      rfl
  case h_3 queue popped => rw [popped]

theorem atWriting_queue (serde : SerdeJson) (net : Network) (s : Sys) (stream : Stream)
    (entry : Entry) : (s.atWriting serde net stream entry).queue = s.queue := by
  simp only [atWriting]
  split <;> rfl

theorem workerStep_queue {net : Network} {s t : Sys}
    (taken : s.workerStep config serde net = some t) :
    t.queue = s.queue ∨
      t.queue = s.queue.pop.1 ∨
      (∃ entry, t.queue = (s.queue.pushFront entry).1) ∨
      (t.queue = s.queue.finish ∧ s.notifies (.worker net) = s.queue.finishNotifies) := by
  rw [workerStep] at taken
  split at taken
  case h_1 here => cases taken; exact .inl (s.atHead_queue config)
  case h_2 here => cases taken; exact .inl s.atEmptyCheck_queue
  case h_3 here => cases taken; exact .inl (s.atDeadline_queue config _)
  case h_4 here => cases taken; exact .inl (s.atExpiry_queue _ _)
  case h_5 here => cases taken; exact .inl (s.atConnecting_queue config net)
  case h_6 here => cases taken; exact .inl (s.atBanner_queue config net _)
  case h_7 here => cases taken; exact .inl s.atDelay_queue
  case h_8 here => cases taken; exact .inl (s.atInner_queue config _)
  case h_9 here => cases taken; exact .inr (.inl (s.atPopping_queue _))
  case h_10 here => cases taken; exact .inl (s.atWriting_queue serde net _ _)
  case h_11 here =>
      cases taken
      exact .inr (.inr (.inr ⟨rfl, by simp only [notifies, here]⟩))
  case h_12 entry here =>
      cases taken
      exact .inr (.inr (.inl ⟨entry, rfl⟩))
  case h_13 requeued here =>
      cases taken
      refine .inr (.inr (.inr ⟨?_, by simp only [notifies, here]⟩))
      cases requeued <;> rfl
  all_goals cases taken

theorem step_queue {s t : Sys} {action : Action} (taken : s.step config serde action = some t)
    (caller : action.isWorker = false) :
    t.pc = s.pc ∧ (t.queue = s.queue ∨ (∃ entry, t.queue = (s.queue.push entry).1 ∧
      s.notifies action = s.queue.pushNotifies) ∨
      (t.queue = s.queue.shutdown ∧ s.notifies action = s.queue.shutdownNotifies)) := by
  cases action with
  | log record =>
      cases taken
      exact ⟨rfl, .inr (.inl ⟨_, rfl, rfl⟩)⟩
  | report index =>
      rcases step_report taken with ⟨total, _, rfl⟩
      exact ⟨rfl, .inl rfl⟩
  | closeShutdown call =>
      rcases step_closeShutdown taken with ⟨_, rfl⟩
      exact ⟨rfl, .inr (.inr ⟨rfl, rfl⟩)⟩
  | closeTake call =>
      rw [step_caller config serde taken (.inl ⟨call, .inl rfl⟩)]
      exact ⟨rfl, .inl rfl⟩
  | closeJoin call =>
      rw [step_caller config serde taken (.inl ⟨call, .inr rfl⟩)]
      exact ⟨rfl, .inl rfl⟩
  | flushEnter call =>
      rw [step_caller config serde taken (.inr ⟨call, .inl rfl⟩)]
      exact ⟨rfl, .inl rfl⟩
  | flushWake call =>
      rw [step_caller config serde taken (.inr ⟨call, .inr rfl⟩)]
      exact ⟨rfl, .inl rfl⟩
  | tick elapsed =>
      cases taken
      exact ⟨rfl, .inl rfl⟩
  | worker net => cases caller

theorem step_flushes {s t : Sys} {action : Action} (taken : s.step config serde action = some t)
    {call : Nat} (apart : (Thread.flusher call).performs action = false) :
    t.flushes call = s.flushes call := by
  cases action with
  | log record =>
      cases taken
      rfl
  | report index =>
      rcases step_report taken with ⟨total, _, rfl⟩
      rfl
  | closeShutdown which =>
      rcases step_closeShutdown taken with ⟨_, rfl⟩
      rfl
  | closeTake which =>
      rcases step_closeTake taken with ⟨_, ⟨_, rfl⟩ | ⟨_, rfl⟩⟩
      · rfl
      · rfl
  | closeJoin which =>
      rcases step_closeJoin taken with ⟨_, _, rfl⟩
      rfl
  | flushEnter which =>
      have other : call ≠ which := of_decide_eq_false apart
      rcases step_flushEnter taken with ⟨_, ⟨_, rfl⟩ | ⟨_, rfl⟩⟩
      · exact Function.update_of_ne other ..
      · exact Function.update_of_ne other ..
  | flushWake which =>
      have other : call ≠ which := of_decide_eq_false apart
      rcases step_flushWake taken with ⟨_, rfl⟩
      exact Function.update_of_ne other ..
  | tick elapsed =>
      cases taken
      rfl
  | worker net =>
      have move := workerStep_move config serde net taken
      exact congrFun move.callers.2.2 call

end Sys

variable {config : Config} {serde : SerdeJson}

theorem threads_step {s t : Sys} {thread : Thread} {action : Action}
    (taken : (threads config serde).step s thread action = some t) :
    thread.performs action = true ∧ s.step config serde action = some t := by
  simp only [threads] at taken
  split at taken
  · rename_i performs
    exact ⟨performs, taken⟩
  · cases taken

theorem performs_other {thread other : Thread} {action : Action}
    (performs : thread.performs action = true) (apart : other ≠ thread) :
    (other = .worker → action.isWorker = false) ∧
      ∀ call, other = .flusher call → other.performs action = false := by
  constructor
  · intro itself
    rw [itself] at apart
    cases action with
    | worker net => cases thread <;> first | exact absurd rfl apart | cases performs
    | _ => rfl
  · intro call itself
    rw [itself] at apart ⊢
    cases action with
    | flushEnter which =>
        cases thread with
        | flusher own =>
            have mine : own = which := of_decide_eq_true performs
            rw [← mine]
            exact decide_eq_false fun same => apart (by rw [same])
        | _ => cases performs
    | flushWake which =>
        cases thread with
        | flusher own =>
            have mine : own = which := of_decide_eq_true performs
            rw [← mine]
            exact decide_eq_false fun same => apart (by rw [same])
        | _ => cases performs
    | _ => rfl

theorem worker_owed {s t : Sys} {action : Action} (taken : s.step config serde action = some t)
    (caller : action.isWorker = false) (waits : s.waits .worker = true)
    (ended : t.waits .worker = false) : ∃ notice ∈ s.notifies action, notice.condvar = .work := by
  rcases Sys.step_queue taken caller with ⟨here, same | ⟨entry, pushed, owes⟩ | ⟨_, owes⟩⟩
  · -- the wait depends on nothing but the queue and the place of the worker
    have unchanged : t.waits .worker = s.waits .worker := by simp only [Sys.waits, here, same]
    rw [unchanged, waits] at ended
    cases ended
  · rw [owes]
    cases closed : s.queue.state.shutdown with
    | false => exact ⟨notifyOne .work, by simp [Queue.pushNotifies, closed], rfl⟩
    | true =>
        have unchanged : t.queue.state = s.queue.state := by
          rw [pushed]
          exact s.queue.push_silent entry (by simp [Queue.pushNotifies, closed])
        have same : t.waits .worker = s.waits .worker := by
          simp only [Sys.waits, here, Queue.popWaits, Queue.sleepWaits, unchanged]
        rw [same, waits] at ended
        cases ended
  · rw [owes]
    exact ⟨notifyAll .work, List.mem_cons_self, rfl⟩

theorem flushers_owed {s t : Sys} {action : Action} (taken : s.step config serde action = some t)
    (waits : s.queue.flushWaits = true) (ended : t.queue.flushWaits = false) :
    ∃ notice ∈ s.notifies action, notice.condvar = .drained := by
  have keeps {q : Queue Entry} (same : t.queue = q) (still : q.flushWaits = true) :
      ∃ notice ∈ s.notifies action, notice.condvar = .drained := by
    rw [same, still] at ended
    cases ended
  cases caller : action.isWorker with
  | false =>
      rcases (Sys.step_queue taken caller).2 with same | ⟨entry, pushed, _⟩ | ⟨closed, _⟩
      · exact keeps same waits
      · exact keeps pushed (s.queue.push_flushWaits entry waits)
      · exact keeps closed waits
  | true =>
      cases action with
      | worker net =>
          rcases Sys.workerStep_queue taken with same | popped | ⟨entry, back⟩ | ⟨finished, owes⟩
          · exact keeps same waits
          · exact keeps popped (s.queue.pop_flushWaits waits)
          · exact keeps back (s.queue.pushFront_flushWaits entry waits)
          · rw [finished] at ended
            rw [owes, s.queue.finish_flushWaits ended]
            exact ⟨notifyAll .drained, List.mem_singleton_self _, rfl⟩
      | _ => cases caller

theorem place_work {s : Sys} {thread : Thread} (here : s.place thread = some .work) :
    thread = .worker := by
  cases thread with
  | worker => rfl
  | flusher call =>
      simp only [Sys.place] at here
      split at here <;> cases here
  | _ => cases here

theorem place_drained {s : Sys} {thread : Thread} (here : s.place thread = some .drained) :
    ∃ call, thread = .flusher call := by
  cases thread with
  | flusher call => exact ⟨call, rfl⟩
  | worker =>
      simp only [Sys.place] at here
      split at here <;> cases here
  | _ => cases here

theorem notifies_one {s : Sys} {action : Action} {notice : Notice Condvar}
    (owed : notice ∈ s.notifies action) (one : notice.toAll = false) : notice.condvar = .work := by
  have pick {c : Prop} [Decidable c] {list : List (Notice Condvar)}
      (member : notice ∈ if c then list else []) : notice ∈ list := by
    split at member
    · exact member
    · cases member
  have broadcast {condvar : Condvar} (this : notice = notifyAll condvar) :
      notice.condvar = .work := by
    rw [this] at one
    cases one
  cases action with
  | log record =>
      simp only [Sys.notifies, Queue.pushNotifies] at owed
      split at owed
      · cases owed
      · rw [List.mem_singleton.mp owed]
        rfl
  | closeShutdown call =>
      rcases List.mem_cons.mp owed with this | owed
      · exact broadcast this
      · exact broadcast (List.mem_singleton.mp owed)
  | worker net =>
      simp only [Sys.notifies] at owed
      split at owed
      · simp only [Queue.pushFrontNotifies] at owed
        split at owed
        · cases owed
        · rw [List.mem_singleton.mp owed]
          rfl
      · exact broadcast (List.mem_singleton.mp (pick owed))
      · exact broadcast (List.mem_singleton.mp (pick owed))
      · cases owed
  | _ => cases owed

theorem not_sole_drained : ¬ (threads config serde).Sole .drained := by
  intro sole
  let crowd : Sys := { Sys.build 1 true 0 with flushes := fun _ => .waiting }
  have same := sole crowd (.flusher 0) (.flusher 1) rfl rfl
  cases same

theorem threads_dutiful : (threads config serde).Dutiful where
  others := by
    intro s t thread other action taken apart
    rcases threads_step taken with ⟨performs, stepped⟩
    have aside := performs_other performs apart
    change t.place other = s.place other
    cases other with
    | worker =>
        have here := (Sys.step_queue stepped (aside.1 rfl)).1
        simp only [Sys.place, here]
    | flusher call =>
        have same := Sys.step_flushes stepped (aside.2 call rfl)
        simp only [Sys.place, same]
    | _ => rfl
  owes := by
    intro s t thread other action condvar taken apart here waits ended
    rcases threads_step taken with ⟨performs, stepped⟩
    have aside := performs_other performs apart
    cases condvar with
    | work =>
        cases place_work here
        exact worker_owed stepped (aside.1 rfl) waits ended
    | drained =>
        rcases place_drained here with ⟨call, rfl⟩
        exact flushers_owed stepped waits ended
  single := by
    intro s thread action notice owed one core u v first second
    have onWork : notice.condvar = .work := notifies_one owed one
    rw [onWork] at first second
    rw [place_work first, place_work second]

def ReachableThreads (config : Config) (serde : SerdeJson) (bufferSize : Nat)
    (m : Monitor.State Sys Thread Condvar) : Prop :=
  ∃ spawned now, (threads config serde).Reaches (Sys.build bufferSize spawned now) m

theorem ReachableThreads.core {bufferSize : Nat} {m : Monitor.State Sys Thread Condvar}
    (reached : ReachableThreads config serde bufferSize m) :
    Reachable config serde bufferSize m.core := by
  rcases reached with ⟨spawned, now, ran⟩
  refine ⟨spawned, now, ?_⟩
  apply Relation.ReflTransGen.mono _ _ _ (Monitor.Program.core_reaches ran)
  rintro s t ⟨⟨thread, action⟩, _, taken⟩
  exact ⟨action, trivial, (threads_step taken).2⟩

/-- A thread parked although its wait is over has a notification coming: the worker
one on `work`, a flusher a `notify_all` on `drained`. -/
theorem no_wakeup_lost {bufferSize : Nat} {m : Monitor.State Sys Thread Condvar}
    (reached : ReachableThreads config serde bufferSize m) :
    (.worker ∈ m.parked →
      ((∃ stream, m.core.pc = .popping stream) ∧
          (m.core.queue.state.items ≠ [] ∨ m.core.queue.state.shutdown = true)) ∨
        (m.core.pc = .delay ∧ m.core.queue.state.shutdown = true) →
      ∃ thread, ∃ notice ∈ m.owed thread, notice.condvar = .work) ∧
    ∀ call, .flusher call ∈ m.parked → m.core.queue.state.items = [] →
      m.core.queue.state.busy = false → ∃ thread, notifyAll .drained ∈ m.owed thread := by
  rcases reached with ⟨spawned, now, ran⟩
  have heard := Monitor.Program.wakeup_pending threads_dutiful ran
  constructor
  · intro parked ended
    apply heard.pending .worker parked .work
    · change m.core.place .worker = some .work
      rcases ended with ⟨⟨stream, here⟩, _⟩ | ⟨here, _⟩
      · simp only [Sys.place, here]
      · simp only [Sys.place, here]
    · change m.core.waits .worker = false
      rcases ended with ⟨⟨stream, here⟩, filled | closed⟩ | ⟨here, closed⟩
      · simp only [Sys.waits, here, Queue.popWaits, Bool.and_eq_false_iff]
        exact .inl (List.isEmpty_eq_false_iff.mpr filled)
      · simp [Sys.waits, here, Queue.popWaits, closed]
      · simp [Sys.waits, here, Queue.sleepWaits, closed]
  · intro call parked empty free
    have placed := heard.placed (.flusher call) parked
    have here : m.core.place (.flusher call) = some .drained := by
      change (m.core.place (.flusher call)).isSome = true at placed
      simp only [Sys.place] at placed ⊢
      split at placed
      · rename_i waiting
        rw [if_pos waiting]
      · cases placed
    have ended : m.core.waits (.flusher call) = false := by
      simp [Sys.waits, Queue.flushWaits, empty, free]
    rcases heard.pending (.flusher call) parked .drained here ended with
      ⟨thread, notice, owed, onDrained⟩
    have toAll : notice.toAll = true := by
      by_contra one
      have sole := heard.single thread notice owed (Bool.eq_false_iff.mpr one)
      rw [onDrained] at sole
      exact not_sole_drained sole
    have same : notice = notifyAll .drained := by
      rw [notifyAll, ← onDrained, ← toAll]
    exact ⟨thread, by rw [← same]; exact owed⟩

def pushedRun : List (Monitor.Event Thread Action) :=
  [.act .worker (.worker .up), .act .worker (.worker .up), .act .worker (.worker .up),
    .act .worker (.worker .up), .park .worker,
    .act (.logger 0) (.log (.new 0 .information "app" "first"))]

def finishedRun : List (Monitor.Event Thread Action) :=
  pushedRun ++ [.notify (.logger 0) (some .worker), .act .worker (.worker .up),
    .act (.flusher 0) (.flushEnter 0), .park (.flusher 0), .act .worker (.worker .up),
    .act .worker (.worker .up)]

theorem no_wakeup_lost_parked :
    (∃ m, PartialRun.run (threads ClientBuilder.default.toConfig compactSerde).next
          (.start (Sys.build 1000 true 0)) pushedRun = some m ∧ .worker ∈ m.parked ∧
        ∃ thread, ∃ notice ∈ m.owed thread, notice.condvar = .work) ∧
      ∃ m, PartialRun.run (threads ClientBuilder.default.toConfig compactSerde).next
          (.start (Sys.build 1000 true 0)) finishedRun = some m ∧ .flusher 0 ∈ m.parked ∧
        ∃ thread, notifyAll .drained ∈ m.owed thread := by
  have reached {events : List (Monitor.Event Thread Action)}
      {m : Monitor.State Sys Thread Condvar}
      (ran : PartialRun.run (threads ClientBuilder.default.toConfig compactSerde).next
        (.start (Sys.build 1000 true 0)) events = some m) :
      ReachableThreads ClientBuilder.default.toConfig compactSerde 1000 m :=
    ⟨true, 0, PartialRun.reaches_of_run ran⟩
  constructor
  · obtain ⟨m, ran, parked, stream, popping, filled⟩ :
        ∃ m, PartialRun.run (threads ClientBuilder.default.toConfig compactSerde).next
            (.start (Sys.build 1000 true 0)) pushedRun = some m ∧ .worker ∈ m.parked ∧
          ∃ stream, m.core.pc = .popping stream ∧ m.core.queue.state.items ≠ [] :=
      ⟨_, rfl, by decide, _, rfl, by decide⟩
    exact ⟨m, ran, parked,
      (no_wakeup_lost (reached ran)).1 parked (.inl ⟨⟨stream, popping⟩, .inl filled⟩)⟩
  · obtain ⟨m, ran, parked, empty, free⟩ :
        ∃ m, PartialRun.run (threads ClientBuilder.default.toConfig compactSerde).next
            (.start (Sys.build 1000 true 0)) finishedRun = some m ∧ .flusher 0 ∈ m.parked ∧
          m.core.queue.state.items = [] ∧ m.core.queue.state.busy = false :=
      ⟨_, rfl, by decide, rfl, rfl⟩
    exact ⟨m, ran, parked, (no_wakeup_lost (reached ran)).2 0 parked empty free⟩

end Ecapplog
