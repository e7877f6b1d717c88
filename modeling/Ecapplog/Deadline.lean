import Ecapplog.Payload
import Ecapplog.Worker

/-! The client on a clock. Time passes in network calls, in each at most as long as
its timeouts let it, and in the waits of the worker, which end when shutdown is
requested; nothing else takes time. -/

namespace Ecapplog

variable (config : Config) (serde : SerdeJson)

/-- The timeout that `set_write_timeout` puts in force. It refuses zero, the worker
ignores the error, and a write may then take any time. -/
def writeTimeout : Option Duration :=
  if config.connectTimeout = 0 then none else some config.connectTimeout

namespace Sys

def atCall (s : Sys) : Bool :=
  match s.pc with
  | .connecting => true
  | .banner _ => true
  | .writing _ entry => Sendable serde entry.record
  | _ => false

/-- How long the network call that comes next can last, on these assumptions: a connection attempt
or a write takes at most its timeout, a frame is one write (a fresh timeout after a partial write
is not counted), and resolving the name takes no time. None if nothing limits it. -/
def callLimit (s : Sys) (net : Network) : Option Duration :=
  match s.pc with
  | .connecting => some ((connect config s.flushDeadline s.now net.dial).1.map Prod.snd).sum
  | _ => writeTimeout config

def waiting (s : Sys) : Bool :=
  match s.pc with
  | .popping _ => s.queue.popWaits
  | .delay => s.queue.sleepWaits
  | _ => false

end Sys

def Action.isCaller : Action → Bool
  | .worker _ => false
  | .tick _ => false
  | _ => true

structure Timed where
  sys : Sys
  requested : Option Instant
  /-- The network call in progress: how the network behaves, and how much longer the
  timeouts let it last. -/
  call : Option (Network × Option Duration)

inductive TimedAction where
  | caller (action : Action)
  | worker
  | call (network : Network)
  | answer
  | pass (elapsed : Duration)

namespace Timed

def build (bufferSize : Nat) (spawned : Bool) (now : Instant) : Timed :=
  ⟨Sys.build bufferSize spawned now, none, none⟩

def allows (s : Timed) (elapsed : Duration) : Bool :=
  match s.call with
  | some (_, some left) => elapsed ≤ left
  | some (_, none) => true
  | none => s.sys.waiting || !s.sys.pc.running

def afterRequest (s : Timed) : Action → Option Instant
  | .closeShutdown _ => some (s.requested.getD s.sys.now)
  | _ => s.requested

def step (s : Timed) : TimedAction → Option Timed
  | .caller action =>
      if action.isCaller then
        match s.sys.step config serde action with
        | some sys => some { s with sys := sys, requested := s.afterRequest action }
        | none => none
      else none
  | .worker =>
      if s.call.isSome ∨ s.sys.atCall serde then none
      else
        match s.sys.workerStep config serde .up with
        | some sys => some { s with sys := sys }
        | none => none
  | .call net =>
      if s.call.isNone ∧ s.sys.atCall serde then
        some { s with call := some (net, s.sys.callLimit config net) }
      else none
  | .answer =>
      match s.call with
      | some (net, _) =>
          match s.sys.workerStep config serde net with
          | some sys => some { s with sys := sys, call := none }
          | none => none
      | none => none
  | .pass elapsed =>
      if s.allows elapsed then
        some { s with
          sys := { s.sys with now := s.sys.now + elapsed }
          call := s.call.map fun (net, left) => (net, left.map (· - elapsed)) }
      else none

/-- The flush timeout is kept so far, give or take the least timeout that `connect` uses. -/
def Timely (s : Timed) : Prop :=
  ∀ start ∈ s.requested, s.sys.pc.running = true →
    s.sys.now ≤ start + config.flushTimeout + millisecond

/-- No network call can outlast the flush timeout: not the one that a first shutdown
request finds in progress, nor one that is entered after the request. -/
def CallsFit (s : Timed) : TimedAction → Prop
  | .caller (.closeShutdown _) =>
      s.requested = none → ∀ call ∈ s.call, ∃ left ∈ call.2,
        left ≤ config.flushTimeout + millisecond
  | .call net =>
      ∀ start ∈ s.requested, ∃ limit ∈ s.sys.callLimit config net,
        s.sys.now + limit ≤ start + config.flushTimeout + millisecond
  | _ => True

instance (s : Timed) (action : TimedAction) : Decidable (s.CallsFit config action) :=
  match action with
  | .caller (.closeShutdown _) =>
      inferInstanceAs (Decidable (s.requested = none → ∀ call ∈ s.call, ∃ left ∈ call.2,
        left ≤ config.flushTimeout + millisecond))
  | .call net =>
      inferInstanceAs (Decidable (∀ start ∈ s.requested, ∃ limit ∈ s.sys.callLimit config net,
        s.sys.now + limit ≤ start + config.flushTimeout + millisecond))
  | .caller (.log _) | .caller (.report _) | .caller (.closeTake _) | .caller (.closeJoin _)
  | .caller (.flushEnter _) | .caller (.flushWake _) | .caller (.tick _) | .caller (.worker _)
  | .worker | .answer | .pass _ => .isTrue trivial

variable {config serde}

end Timed

variable {config serde}

theorem Sys.workerStep_offline {s : Sys} (away : s.atCall serde = false) (net other : Network) :
    s.workerStep config serde net = s.workerStep config serde other := by
  cases here : s.pc with
  | connecting => simp [Sys.atCall, here] at away
  | banner stream => simp [Sys.atCall, here] at away
  | writing stream entry =>
      have unsendable : ¬ Sendable serde entry.record := by simpa [Sys.atCall, here] using away
      have same : writeRecord serde entry.record s.json s.frame net.failure =
          writeRecord serde entry.record s.json s.frame other.failure :=
        writeRecord_offline unsendable s.json s.frame net.failure other.failure
      simp only [Sys.workerStep, here, Sys.atWriting, same]
  | _ => simp only [Sys.workerStep, here]

theorem Sys.callLimit_connecting {s : Sys} (here : s.pc = .connecting) (net : Network) :
    s.callLimit config net =
      some ((connect config s.flushDeadline s.now net.dial).1.length *
        attemptTimeout config s.flushDeadline s.now) := by
  simp only [callLimit, here, connect_total]

theorem Sys.step_clock {s t : Sys} {action : Action} (taken : s.step config serde action = some t)
    (caller : action.isCaller = true) :
    t.now = s.now ∧ t.pc = s.pc ∧
      (s.queue.state.shutdown = true → t.queue.state.shutdown = true) := by
  have aside : t.pc = s.pc ∧ (s.queue.state.shutdown = true → t.queue.state.shutdown = true) := by
    rcases Sys.step_control taken with ⟨itself, _⟩ | ⟨_, bystander⟩
    · cases action with
      | worker net => cases caller
      | _ => cases itself
    · exact ⟨bystander.pc, bystander.shutdown⟩
  refine ⟨?_, aside⟩
  cases action with
  | log record =>
      cases taken
      rfl
  | report index =>
      rcases step_report taken with ⟨total, _, rfl⟩
      rfl
  | closeShutdown call =>
      rcases step_closeShutdown taken with ⟨_, rfl⟩
      rfl
  | closeTake call => rw [step_caller config serde taken (.inl ⟨call, .inl rfl⟩)]
  | closeJoin call => rw [step_caller config serde taken (.inl ⟨call, .inr rfl⟩)]
  | flushEnter call => rw [step_caller config serde taken (.inr ⟨call, .inl rfl⟩)]
  | flushWake call => rw [step_caller config serde taken (.inr ⟨call, .inr rfl⟩)]
  | tick elapsed => cases caller
  | worker net => cases caller

theorem Sys.workerStep_clock {net : Network} {s t : Sys}
    (taken : s.workerStep config serde net = some t) :
    t.now = s.now ∧ t.queue.state.shutdown = s.queue.state.shutdown ∧ s.pc.running = true := by
  have move := Sys.workerStep_move config serde net taken
  exact ⟨move.now, move.shutdown, move.running⟩

theorem Sys.atCall_running {s : Sys} (here : s.atCall serde = true) : s.pc.running = true := by
  cases place : s.pc with
  | exited => simp [Sys.atCall, place] at here
  | panicked => simp [Sys.atCall, place] at here
  | absent => simp [Sys.atCall, place] at here
  | _ => rfl

theorem Sys.waiting_closing {s : Sys} (closing : s.queue.state.shutdown = true) :
    s.waiting = false := by
  unfold Sys.waiting
  split
  · simp [Queue.popWaits, closing]
  · simp [Queue.sleepWaits, closing]
  · rfl

namespace Timed

section Steps

variable {s t : Timed}

theorem step_caller {action : Action} (taken : s.step config serde (.caller action) = some t) :
    action.isCaller = true ∧ s.sys.step config serde action = some t.sys ∧
      t.requested = s.afterRequest action ∧ t.call = s.call := by
  simp only [step] at taken
  split at taken
  case isFalse => cases taken
  case isTrue caller =>
      split at taken
      case h_2 => cases taken
      case h_1 sys stepped =>
          cases taken
          exact ⟨caller, stepped, rfl, rfl⟩

theorem step_worker (taken : s.step config serde .worker = some t) :
    s.sys.workerStep config serde .up = some t.sys ∧ t.requested = s.requested ∧
      t.call = none := by
  simp only [step] at taken
  split at taken
  case isTrue => cases taken
  case isFalse idle =>
      split at taken
      case h_2 => cases taken
      case h_1 sys stepped =>
          cases taken
          exact ⟨stepped, rfl, by simpa using fun call => idle (.inl call)⟩

theorem step_call {net : Network} (taken : s.step config serde (.call net) = some t) :
    s.sys.atCall serde = true ∧ t.sys = s.sys ∧ t.requested = s.requested ∧
      t.call = some (net, s.sys.callLimit config net) := by
  simp only [step] at taken
  split at taken
  case isFalse => cases taken
  case isTrue start =>
      cases taken
      exact ⟨start.2, rfl, rfl, rfl⟩

theorem step_answer (taken : s.step config serde .answer = some t) :
    ∃ net, s.sys.workerStep config serde net = some t.sys ∧ t.requested = s.requested ∧
      t.call = none := by
  simp only [step] at taken
  split at taken
  case h_2 => cases taken
  case h_1 net left call =>
      split at taken
      case h_2 => cases taken
      case h_1 sys stepped =>
          cases taken
          exact ⟨net, stepped, rfl, rfl⟩

theorem step_pass {elapsed : Duration} (taken : s.step config serde (.pass elapsed) = some t) :
    s.allows elapsed = true ∧ t.sys = { s.sys with now := s.sys.now + elapsed } ∧
      t.requested = s.requested ∧
      t.call = s.call.map fun (net, left) => (net, left.map (· - elapsed)) := by
  simp only [step] at taken
  split at taken
  case isFalse => cases taken
  case isTrue allowed =>
      cases taken
      exact ⟨allowed, rfl, rfl, rfl⟩

end Steps

structure Bounded (config : Config) (serde : SerdeJson) (s : Timed) : Prop where
  closing : s.requested.isSome = true → s.sys.queue.state.shutdown = true
  calling : s.call.isSome = true → s.sys.atCall serde = true
  timely : s.Timely config
  fits : ∀ start ∈ s.requested, ∀ call ∈ s.call, ∃ left ∈ call.2,
    s.sys.now + left ≤ start + config.flushTimeout + millisecond

theorem afterRequest_cases (s : Timed) (action : Action) :
    s.afterRequest action = s.requested ∨
      ∃ call, action = .closeShutdown call ∧ s.requested = none ∧
        s.afterRequest action = some s.sys.now := by
  cases action with
  | closeShutdown call =>
      cases before : s.requested with
      | some start => exact .inl (by rw [afterRequest, before]; rfl)
      | none => exact .inr ⟨call, rfl, rfl, by rw [afterRequest, before]; rfl⟩
  | _ => exact .inl rfl

theorem build_bounded (bufferSize : Nat) (spawned : Bool) (now : Instant) :
    (build bufferSize spawned now).Bounded config serde where
  closing := nofun
  calling := nofun
  timely := nofun
  fits := nofun

theorem Bounded.caller {s t : Timed} (inv : s.Bounded config serde) {action : Action}
    (admitted : s.CallsFit config (.caller action))
    (taken : s.step config serde (.caller action) = some t) : t.Bounded config serde := by
  rcases step_caller taken with ⟨caller, stepped, requests, sameCall⟩
  rcases Sys.step_clock stepped caller with ⟨now, pc, closed⟩
  have calling : t.call.isSome = true → t.sys.atCall serde = true := by
    intro inCall
    have same : t.sys.atCall serde = s.sys.atCall serde := by simp only [Sys.atCall, pc]
    rw [same]
    exact inv.calling (sameCall ▸ inCall)
  rcases s.afterRequest_cases action with same | ⟨call, rfl, first, request⟩
  · rw [same] at requests
    refine ⟨?_, calling, ?_, ?_⟩
    · intro requested
      exact closed (inv.closing (requests ▸ requested))
    · intro start requested running
      rw [now]
      exact inv.timely start (requests ▸ requested) (pc ▸ running)
    · intro start requested call inCall
      rw [now]
      exact inv.fits start (requests ▸ requested) call (sameCall ▸ inCall)
  · have starts (start : Instant) (requested : start ∈ t.requested) : start = s.sys.now := by
      rw [requests, request] at requested
      exact (Option.some.inj requested).symm
    refine ⟨?_, calling, ?_, ?_⟩
    · intro _
      rw [(Sys.step_closeShutdown stepped).2]
      rfl
    · intro start requested running
      rw [starts start requested, now]
      exact Nat.le_trans (Nat.le_add_right _ _) (Nat.le_add_right _ _)
    · intro start requested call inCall
      rcases admitted first call (sameCall ▸ inCall) with ⟨left, isLeft, small⟩
      rw [starts start requested, now, Nat.add_assoc]
      exact ⟨left, isLeft, Nat.add_le_add_left small _⟩

theorem Bounded.still {s t : Timed} (inv : s.Bounded config serde)
    (requested : t.requested = s.requested) (now : t.sys.now = s.sys.now)
    (closed : t.sys.queue.state.shutdown = s.sys.queue.state.shutdown)
    (running : s.sys.pc.running = true) (calling : t.call.isSome = true → t.sys.atCall serde = true)
    (fits : ∀ start ∈ s.requested, ∀ call ∈ t.call, ∃ left ∈ call.2,
      s.sys.now + left ≤ start + config.flushTimeout + millisecond) :
    t.Bounded config serde := by
  refine ⟨?_, calling, ?_, ?_⟩
  · intro this
    rw [closed]
    exact inv.closing (requested ▸ this)
  · intro start this _
    rw [now]
    exact inv.timely start (requested ▸ this) running
  · intro start this call inCall
    rw [now]
    exact fits start (requested ▸ this) call inCall

theorem Bounded.pass {s t : Timed} (inv : s.Bounded config serde) {elapsed : Duration}
    (taken : s.step config serde (.pass elapsed) = some t) : t.Bounded config serde := by
  rcases step_pass taken with ⟨allowed, sys, requests, laterCall⟩
  have inCall (start : Instant) (requested : start ∈ t.requested)
      (call : Network × Option Duration) (here : call ∈ s.call) :
      ∃ left ∈ call.2, elapsed ≤ left ∧
        s.sys.now + left ≤ start + config.flushTimeout + millisecond := by
    rcases inv.fits start (requests ▸ requested) call here with ⟨left, isLeft, small⟩
    refine ⟨left, isLeft, ?_, small⟩
    have runs : s.call = some (call.1, some left) := by
      rw [here, ← Option.mem_def.mp isLeft]
    simpa [allows, runs] using allowed
  refine ⟨?_, ?_, ?_, ?_⟩
  · intro requested
    rw [sys]
    exact inv.closing (requests ▸ requested)
  · intro call
    rw [sys]
    apply inv.calling
    rw [← call, laterCall]
    exact (Option.isSome_map ..).symm
  · intro start requested running
    rw [sys] at running ⊢
    change s.sys.now + elapsed ≤ _
    cases call : s.call with
    | some this =>
        rcases inCall start requested this call with ⟨left, _, within, small⟩
        exact Nat.le_trans (Nat.add_le_add_left within _) small
    | none =>
        -- outside a call only an unended wait lets time pass, and shutdown ends it
        have closing := inv.closing (Option.isSome_of_mem (requests ▸ requested))
        have finished := Sys.waiting_closing closing
        have here : s.sys.pc.running = true := running
        simp [allows, call, finished, here] at allowed
  · intro start requested call later
    rw [laterCall] at later
    rcases Option.map_eq_some_iff.mp later with ⟨before, this, rfl⟩
    rcases inCall start requested before this with ⟨left, isLeft, within, small⟩
    refine ⟨left - elapsed, Option.mem_map_of_mem _ isLeft, ?_⟩
    rw [sys]
    change s.sys.now + elapsed + (left - elapsed) ≤ _
    rw [Nat.add_assoc, Nat.add_sub_cancel' within]
    exact small

theorem Bounded.step {s t : Timed} (inv : s.Bounded config serde) {action : TimedAction}
    (admitted : s.CallsFit config action) (taken : s.step config serde action = some t) :
    t.Bounded config serde := by
  cases action with
  | caller action => exact inv.caller admitted taken
  | pass elapsed => exact inv.pass taken
  | worker =>
      rcases step_worker taken with ⟨stepped, requests, out⟩
      have clock := Sys.workerStep_clock stepped
      exact inv.still requests clock.1 clock.2.1 clock.2.2 (by simp [out]) (by simp [out])
  | call net =>
      rcases step_call taken with ⟨here, sys, requests, inCall⟩
      refine inv.still requests (by rw [sys]) (by rw [sys]) (Sys.atCall_running here)
        (fun _ => sys ▸ here) ?_
      intro start requested call calls
      rw [inCall] at calls
      cases calls
      exact admitted start requested
  | answer =>
      rcases step_answer taken with ⟨net, stepped, requests, out⟩
      have clock := Sys.workerStep_clock stepped
      exact inv.still requests clock.1 clock.2.1 clock.2.2 (by simp [out]) (by simp [out])

theorem bounded_of_run {bufferSize : Nat} {spawned : Bool} {now : Instant} {s : Timed}
    (ran : PartialRun.ReachesWhen (Timed.step config serde) (CallsFit config)
      (build bufferSize spawned now) s) : s.Bounded config serde :=
  PartialRun.invariant (Bounded config serde)
    (fun _ _ _ inv admitted taken => inv.step admitted taken)
    (build_bounded bufferSize spawned now) ran

theorem step_sys {s t : Timed} {action : TimedAction}
    (taken : s.step config serde action = some t) :
    t.sys = s.sys ∨ ∃ act, s.sys.step config serde act = some t.sys := by
  cases action with
  | caller action => exact .inr ⟨action, (step_caller taken).2.1⟩
  | worker => exact .inr ⟨.worker .up, (step_worker taken).1⟩
  | call net => exact .inl (step_call taken).2.1
  | answer =>
      rcases step_answer taken with ⟨net, stepped, _⟩
      exact .inr ⟨.worker net, stepped⟩
  | pass elapsed =>
      rw [(step_pass taken).2.1]
      exact .inr ⟨.tick elapsed, rfl⟩

theorem reaches_sys {start finish : Timed}
    (ran : PartialRun.Reaches (Timed.step config serde) start finish) :
    PartialRun.Reaches (Sys.step config serde) start.sys finish.sys := by
  induction ran with
  | refl => exact .refl
  | tail _ last before =>
      rcases last with ⟨action, _, taken⟩
      rcases step_sys taken with same | ⟨act, stepped⟩
      · rw [same]
        exact before
      · exact PartialRun.reaches_next before stepped

theorem exists_timed {s : Timed} (idle : s.call = none) {action : Action} {sys : Sys}
    (timeless : ∀ elapsed, action ≠ .tick elapsed)
    (taken : s.sys.step config serde action = some sys) :
    ∃ t, PartialRun.Reaches (Timed.step config serde) s t ∧ t.sys = sys ∧ t.call = none := by
  have outside (caller : action.isCaller = true) :
      ∃ t, PartialRun.Reaches (Timed.step config serde) s t ∧ t.sys = sys ∧ t.call = none := by
    have acted : s.step config serde (.caller action) =
        some { s with sys := sys, requested := s.afterRequest action } := by
      simp only [step, caller, if_true, taken]
    exact ⟨_, PartialRun.reaches_next .refl acted, rfl, idle⟩
  cases action with
  | tick elapsed => exact absurd rfl (timeless elapsed)
  | worker net =>
      have stepped : s.sys.workerStep config serde net = some sys := taken
      cases here : s.sys.atCall serde with
      | true =>
          have called : s.step config serde (.call net) =
              some { s with call := some (net, s.sys.callLimit config net) } := by
            simp [step, idle, here]
          have answered : Timed.step config serde
              { s with call := some (net, s.sys.callLimit config net) } .answer =
                some { s with sys := sys, call := none } := by
            simp only [step, stepped]
          exact ⟨_, PartialRun.reaches_next (PartialRun.reaches_next .refl called) answered,
            rfl, rfl⟩
      | false =>
          rw [Sys.workerStep_offline here net .up] at stepped
          have worked : s.step config serde .worker = some { s with sys := sys } := by
            simp [step, idle, here, stepped]
          exact ⟨_, PartialRun.reaches_next .refl worked, rfl, idle⟩
  | _ => exact outside rfl

theorem overrun {s : Timed} {start : Instant} (requested : start ∈ s.requested)
    (running : s.sys.pc.running = true) {call : Network × Option Duration} (inCall : call ∈ s.call)
    (timely : ∀ elapsed t, s.step config serde (.pass elapsed) = some t → t.Timely config) :
    ∃ left ∈ call.2, s.sys.now + left ≤ start + config.flushTimeout + millisecond := by
  rcases call with ⟨net, left⟩
  have passes (elapsed : Duration) (allowed : s.allows elapsed = true) :
      s.sys.now + elapsed ≤ start + config.flushTimeout + millisecond :=
    timely elapsed _ (if_pos allowed) start requested running
  cases left with
  | some left =>
      refine ⟨left, rfl, passes left ?_⟩
      simp [allows, Option.mem_def.mp inCall]
  | none =>
      have late := passes (start + config.flushTimeout + millisecond + 1)
        (by simp [allows, Option.mem_def.mp inCall])
      exact absurd late (Nat.not_le.mpr (Nat.lt_of_lt_of_le (Nat.lt_succ_self _)
        (Nat.le_add_left _ _)))

theorem Bounded.callsFit_iff {s t : Timed} (inv : s.Bounded config serde) {action : TimedAction}
    (taken : s.step config serde action = some t) :
    s.CallsFit config action ↔
      ∀ elapsed u, t.step config serde (.pass elapsed) = some u → u.Timely config := by
  constructor
  · intro admitted elapsed u passed
    exact ((inv.step admitted taken).pass passed).timely
  · intro timely
    cases action with
    | caller action =>
        cases action with
        | closeShutdown call =>
            intro first inCall here
            rcases step_caller taken with ⟨_, stepped, requested, same⟩
            rcases Sys.step_clock stepped rfl with ⟨now, pc, _⟩
            have start : s.sys.now ∈ t.requested := by simp [requested, afterRequest, first]
            have running : t.sys.pc.running = true := by
              rw [pc]
              exact Sys.atCall_running (inv.calling (Option.isSome_of_mem here))
            rcases overrun start running (same ▸ here) timely with ⟨left, isLeft, small⟩
            refine ⟨left, isLeft, ?_⟩
            rw [now, Nat.add_assoc] at small
            exact Nat.le_of_add_le_add_left small
        | _ => exact trivial
    | call net =>
        intro start requested
        rcases step_call taken with ⟨here, sys, same, inCall⟩
        have running : t.sys.pc.running = true := by
          rw [sys]
          exact Sys.atCall_running here
        rcases overrun (same ▸ requested) running inCall timely with ⟨limit, isLimit, small⟩
        exact ⟨limit, isLimit, sys ▸ small⟩
    | _ => exact trivial

end Timed

def Network.hole : Network :=
  ⟨.ok [(⟨"127.0.0.1", 13991⟩, .error ⟨.os 110, "Connection timed out"⟩)], none⟩

def closedInCall (timeout : Duration) : List TimedAction :=
  [.worker, .call .hole, .caller (.closeShutdown 0), .pass timeout, .answer]

/-- While no network call can outlast the flush timeout, closing keeps it; and the
first call that can outlast it lets the clock pass it. -/
theorem flush_timeout_is_ceiling (config : Config) (serde : SerdeJson) (bufferSize : Nat)
    (spawned : Bool) (now : Instant) (s : Timed)
    (ran : PartialRun.ReachesWhen (Timed.step config serde) (Timed.CallsFit config)
      (Timed.build bufferSize spawned now) s) :
    s.Timely config ∧
      ∀ action t, s.step config serde action = some t →
        (s.CallsFit config action ↔
          ∀ elapsed u, t.step config serde (.pass elapsed) = some u → u.Timely config) := by
  have inv := Timed.bounded_of_run ran
  constructor
  · exact inv.timely
  · intro action t taken
    exact inv.callsFit_iff taken

def quickConfig : Config := { ClientBuilder.default.toConfig with connectTimeout := 2 * second }

theorem flush_timeout_is_ceiling_quick :
    ∃ s, PartialRun.ReachesWhen (Timed.step quickConfig compactSerde) (Timed.CallsFit quickConfig)
        (Timed.build 1000 true 0) s ∧
      s.requested = some 0 ∧ s.sys.now = 2 * second ∧ s.sys.pc.running = true ∧
      s.Timely quickConfig := by
  obtain ⟨s, ran, requested, now, running⟩ :
      ∃ s, PartialRun.run (PartialRun.guarded (Timed.step quickConfig compactSerde)
            (Timed.CallsFit quickConfig)) (Timed.build 1000 true 0) (closedInCall (2 * second)) =
          some s ∧
        s.requested = some 0 ∧ s.sys.now = 2 * second ∧ s.sys.pc.running = true :=
    ⟨_, rfl, rfl, by decide, rfl⟩
  have reached := PartialRun.reachesWhen_of_run ran
  exact ⟨s, reached, requested, now, running,
    (flush_timeout_is_ceiling quickConfig compactSerde 1000 true 0 s reached).1⟩

theorem closing_outlasts_flush_timeout :
    ¬ ∀ (config : Config) (serde : SerdeJson) (bufferSize : Nat) (spawned : Bool) (now : Instant)
        (s : Timed), PartialRun.Reaches (Timed.step config serde)
          (Timed.build bufferSize spawned now) s → s.Timely config := by
  intro always
  let config := ClientBuilder.default.toConfig
  obtain ⟨s, ran, requested, now, running⟩ :
      ∃ s, PartialRun.run (Timed.step config compactSerde) (Timed.build 1000 true 0)
          (closedInCall (10 * second)) = some s ∧
        s.requested = some 0 ∧ s.sys.now = 10 * second ∧ s.sys.pc.running = true :=
    ⟨_, rfl, rfl, by decide, rfl⟩
  have timely := always config compactSerde 1000 true 0 s (PartialRun.reaches_of_run ran)
    0 requested running
  rw [now] at timely
  exact absurd timely (by decide)

end Ecapplog
