import Ecapplog.Exits
import Ecapplog.Losses

/-! What the worker gets done while the server is there and nobody closes the client. -/

namespace Ecapplog

variable {bufferSize : Nat} {config : Config} {serde : SerdeJson}

structure Network.Good (net : Network) : Prop where
  accepts : ∃ addresses address, net.dial = .ok addresses ∧ (address, .ok ()) ∈ addresses
  writes : net.failure = none

theorem Network.up_good : Network.up.Good :=
  ⟨⟨_, _, rfl, .head _⟩, rfl⟩

def Network.accepting (net : Network) : Bool :=
  match net.dial with
  | .ok addresses => addresses.any fun (_, reached) => reached.isOk
  | .error _ => false

theorem Network.good_iff {net : Network} :
    net.accepting = true ∧ net.failure = none ↔ net.Good := by
  unfold accepting
  constructor
  · rintro ⟨accepts, writes⟩
    split at accepts
    · rename_i addresses resolved
      obtain ⟨⟨address, error | _⟩, member, reached⟩ := List.any_eq_true.mp accepts
      · cases reached
      · exact ⟨⟨addresses, address, resolved, member⟩, writes⟩
    · cases accepts
  · rintro ⟨⟨addresses, address, resolved, member⟩, writes⟩
    rw [resolved]
    exact ⟨List.any_eq_true.mpr ⟨_, member, rfl⟩, writes⟩

instance (net : Network) : Decidable net.Good :=
  decidable_of_iff (net.accepting = true ∧ net.failure.isNone = true) <| by
    rw [Option.isNone_iff_eq_none]
    exact Network.good_iff

/-- A step that does not request shutdown and meets no failure of the network. -/
def Action.Calm : Action → Prop
  | .closeShutdown _ => False
  | .worker net => net.Good
  | _ => True

theorem tryAddresses_accepts (timeout : Duration)
    {addresses : List (SocketAddr × Except IoError Unit)} {address : SocketAddr}
    (accepts : (address, .ok ()) ∈ addresses) (lastError : Option IoError) :
    (tryAddresses timeout addresses lastError).2 = .ok () := by
  induction addresses generalizing lastError with
  | nil => cases accepts
  | cons this rest ih =>
      rcases this with ⟨other, error | _⟩
      · rcases List.mem_cons.mp accepts with same | later
        · cases same
        · exact ih later (some error)
      · rfl

theorem Network.Good.connects {net : Network} (good : net.Good) (deadline : Option Instant)
    (now : Instant) : (connect config deadline now net.dial).2 = .ok () := by
  obtain ⟨addresses, address, resolved, accepts⟩ := good.accepts
  have reached := tryAddresses_accepts (attemptTimeout config deadline now) accepts none
  unfold connect
  rw [resolved]
  simp only
  split
  · rfl
  · rename_i failed
    rw [failed] at reached
    cases reached

def Pc.distance (n : Nat) : Pc → Nat
  | .popping _ => 4 * n
  | .inner _ => 4 * n + 1
  | .banner _ => 4 * n + 2
  | .finishing _ => 4 * n + 2
  | .connecting => 4 * n + 3
  | .writing _ _ => 4 * n + 3
  | .head => 4 * n + 4
  | .delay => 4 * n + 5
  | .finishingFailed _ => 4 * n + 6
  | .requeue _ => 4 * n + 11
  | _ => 1

theorem Pc.distance_le (pc : Pc) {m n : Nat} (fewer : m ≤ n) : pc.distance m ≤ 4 * n + 11 := by
  cases pc <;> simp only [distance] <;> omega

/-- What a move of the worker does in a calm: one step nearer, one entry out of the queue,
or a wait at the empty queue. -/
inductive Service (c d : Control) : Prop where
  | onward (items : d.items = c.items) (hand : d.pc.hand = c.pc.hand ∨ d.pc.hand = none)
      (nearer : ∀ n, d.pc.distance n < c.pc.distance n)
  | take (entry : Entry) (rest : List Entry) (front : c.items = entry :: rest)
      (items : d.items = rest) (hand : d.pc.hand = some entry)
      (nearer : ∀ n, d.pc.distance n < c.pc.distance (n + 1))
  | putBack (entry : Entry) (out : c.pc.hand = some entry) (items : d.items = entry :: c.items)
      (hand : d.pc.hand = none) (nearer : ∀ n, d.pc.distance (n + 1) < c.pc.distance n)
  | wait (away : c.pc.handling = false) (empty : c.items = []) (items : d.items = [])
      (hand : d.pc.hand = none)

theorem writeRecord_good (serde : SerdeJson) (record : Record) (json frame : Bytes) :
    (writeRecord serde record json frame none).result = .ok () ∨
      ∃ error, (writeRecord serde record json frame none).result = .error (.discard error) := by
  simp only [writeRecord, writeAll]
  split
  · exact .inr ⟨_, rfl⟩
  · split
    · exact .inr ⟨_, rfl⟩
    · exact .inl rfl

namespace Sys

variable {s t : Sys} {net : Network}

theorem atConnecting_good (good : net.Good) : (s.atConnecting config net).pc = .banner .fresh := by
  simp only [atConnecting, good.connects]

theorem atBanner_good (good : net.Good) (stream : Stream) :
    ∃ announced, (s.atBanner config net stream).pc = .inner announced := by
  simp only [atBanner, good.writes, writeAll]
  exact ⟨_, rfl⟩

theorem atWriting_good (good : net.Good) (stream : Stream) (entry : Entry) :
    ∃ written, (s.atWriting serde net stream entry).pc = .finishing written := by
  rcases writeRecord_good serde entry.record s.json s.frame with sent | ⟨error, condemned⟩
  · simp only [atWriting, good.writes, sent]
    exact ⟨_, rfl⟩
  · simp only [atWriting, good.writes, condemned]
    exact ⟨_, rfl⟩

theorem workerStep_good (good : net.Good) (taken : s.workerStep config serde net = some t) :
    (s.control.pc = .connecting → t.control.pc = .banner .fresh) ∧
      (∀ stream, s.control.pc = .banner stream → ∃ announced, t.control.pc = .inner announced) ∧
      ∀ stream entry, s.control.pc = .writing stream entry →
        ∃ written, t.control.pc = .finishing written := by
  refine ⟨fun here => ?_, fun stream here => ?_, fun stream entry here => ?_⟩
  · simp only [workerStep, show s.pc = _ from here] at taken
    cases taken
    exact atConnecting_good good
  · simp only [workerStep, show s.pc = _ from here] at taken
    cases taken
    exact atBanner_good good stream
  · simp only [workerStep, show s.pc = _ from here] at taken
    cases taken
    exact atWriting_good good stream entry

theorem workerStep_service (informed : Informed config s.control)
    (running : s.queue.state.shutdown = false) (good : net.Good)
    (taken : s.workerStep config serde net = some t) : Service s.control t.control := by
  have open_ (closing : s.control.shutdown = true) : False := by
    rw [show s.control.shutdown = false from running] at closing
    cases closing
  have inside (here : s.control.pc.closing = true) : False := open_ (informed.closing here)
  obtain ⟨connects, announces, writes⟩ := workerStep_good good taken
  have move := workerStep_move config serde net taken
  generalize s.control = c, t.control = d at *
  have nearer {pc pc' : Pc} (here : c.pc = pc) (less : ∀ n, pc'.distance n < pc.distance n) :
      ∀ n, pc'.distance n < c.pc.distance n := by
    rw [here]
    exact less
  cases move with
  | proceed here _ => exact .onward rfl (.inr rfl) (nearer here fun n => Nat.lt_succ_self _)
  | connected here => exact .onward rfl (.inr rfl) (nearer here fun n => Nat.lt_succ_self _)
  | announced stream here => exact .onward rfl (.inr rfl) (nearer here fun n => Nat.lt_succ_self _)
  | retry here _ => exact .onward rfl (.inr rfl) (nearer here fun n => Nat.lt_succ_self _)
  | serve stream here _ => exact .onward rfl (.inr rfl) (nearer here fun n => Nat.lt_succ_self _)
  | finish stream here => exact .onward rfl (.inr rfl) (nearer here fun n => Nat.lt_succ_self _)
  | settle requeued here => exact .onward rfl (.inr rfl) (nearer here fun n => Nat.lt_succ_self _)
  | condemn stream entry here _ =>
      exact .onward rfl (.inr rfl) (nearer here fun n => Nat.lt_succ_self _)
  | send stream entry here _ =>
      exact .onward rfl (.inr rfl) (nearer here fun n => Nat.lt_succ_self _)
  | giveUp entry total here full =>
      refine .onward rfl (.inr rfl) (nearer here fun n => ?_)
      simp only [Pc.distance]
      omega
  | take stream entry rest here front =>
      refine .take entry rest front rfl rfl fun n => ?_
      rw [here]
      simp only [Pc.distance]
      omega
  | putBack entry here =>
      refine .putBack entry (by rw [here]; rfl) rfl rfl fun n => ?_
      rw [here]
      simp only [Pc.distance]
      omega
  | idle stream here empty _ => exact .wait (by rw [here]; rfl) empty empty rfl
  -- the network does not fail
  | unreachable here => cases connects here
  | unannounced stream part here _ _ =>
      obtain ⟨announced, there⟩ := announces stream here
      cases there
  | breakOff stream entry part here _ _ _ =>
      obtain ⟨written, there⟩ := writes stream entry here
      cases there
  -- and nobody has requested shutdown
  | wantsDrain here closing _ => exact (open_ closing).elim
  | leaveHead here closing _ => exact (open_ closing).elim
  | leaveDelay here closing => exact (open_ closing).elim
  | keepDraining stream here closing _ => exact (open_ closing).elim
  | leaveInner stream here closing _ => exact (open_ closing).elim
  | drained stream here _ closing => exact (open_ closing).elim
  | nothingQueued here _ => exact (inside (by rw [here]; rfl)).elim
  | backlog here _ => exact (inside (by rw [here]; rfl)).elim
  | remember stream deadline here _ => exact (inside (by rw [here]; rfl)).elim
  | initiate stream deadline here _ _ => exact (inside (by rw [here]; rfl)).elim
  | overflow stream here _ _ => exact (inside (by rw [here]; rfl)).elim
  | expired deadline stream here _ => exact (inside (by rw [here]; rfl)).elim
  | reconnect deadline here _ => exact (inside (by rw [here]; rfl)).elim
  | resume deadline stream here _ => exact (inside (by rw [here]; rfl)).elim

end Sys

theorem Pc.distance_mono (pc : Pc) {m n : Nat} (fewer : m ≤ n) : pc.distance m ≤ pc.distance n := by
  cases pc <;> simp only [distance] <;> omega

theorem Pc.distance_zero {pc : Pc} {n : Nat} (there : pc.distance n = 0) :
    n = 0 ∧ pc.hand = none := by
  cases pc with
  | popping stream =>
      simp only [distance] at there
      exact ⟨by omega, rfl⟩
  | _ => simp [distance] at there

def Control.pending (bound : Nat) (c : Control) : Nat :=
  c.items.countP fun entry => entry.seq < bound

def Control.Behind (bound : Nat) (c : Control) : Prop :=
  0 < c.pending bound ∨ ∃ entry ∈ c.pc.hand, entry.seq < bound

instance (bound : Nat) (c : Control) : Decidable (c.Behind bound) :=
  inferInstanceAs (Decidable (_ ∨ _))

def Control.rank (bound : Nat) (c : Control) : Nat :=
  if c.Behind bound then c.pc.distance (c.pending bound) else 0

theorem Service.behind {c d : Control} (service : Service c d)
    (sorted : c.items.Pairwise fun older newer => older.seq < newer.seq) {bound : Nat}
    (behind : d.Behind bound) :
    c.Behind bound ∧ d.pc.distance (d.pending bound) < c.pc.distance (c.pending bound) := by
  unfold Control.Behind at behind ⊢
  cases service with
  | onward items hand nearer =>
      have same : d.pending bound = c.pending bound := by rw [Control.pending, items]; rfl
      rw [same] at behind ⊢
      refine ⟨behind.imp id ?_, nearer _⟩
      rintro ⟨entry, held, first⟩
      rcases hand with kept | gone
      · exact ⟨entry, kept ▸ held, first⟩
      · rw [gone] at held
        cases held
  | take entry rest front items hand nearer =>
      have tail : d.pending bound = rest.countP fun entry => entry.seq < bound := by
        rw [Control.pending, items]
      by_cases first : entry.seq < bound
      · have more : c.pending bound = d.pending bound + 1 := by
          rw [Control.pending, front, List.countP_cons_of_pos (by simpa using first), tail]
        rw [more]
        exact ⟨.inl (Nat.succ_pos _), nearer _⟩
      · exfalso
        rw [front, List.pairwise_cons] at sorted
        rcases behind with queued | ⟨held, out, early⟩
        · rw [tail, List.countP_pos_iff] at queued
          obtain ⟨other, member, early⟩ := queued
          have order := sorted.1 other member
          have early := of_decide_eq_true early
          omega
        · rw [hand] at out
          cases out
          exact first early
  | putBack entry out items hand nearer =>
      by_cases first : entry.seq < bound
      · have more : d.pending bound = c.pending bound + 1 := by
          rw [Control.pending, items, List.countP_cons_of_pos (by simpa using first)]
          rfl
        rw [more]
        exact ⟨.inr ⟨entry, out, first⟩, nearer _⟩
      · have same : d.pending bound = c.pending bound := by
          rw [Control.pending, items, List.countP_cons_of_neg (by simpa using first)]
          rfl
        rw [same] at behind ⊢
        rcases behind with queued | ⟨held, there, _⟩
        · refine ⟨.inl queued, Nat.lt_of_le_of_lt ?_ (nearer _)⟩
          exact d.pc.distance_mono (Nat.le_succ _)
        · rw [hand] at there
          cases there
  | wait away empty items hand =>
      rcases behind with queued | ⟨held, there, _⟩
      · rw [Control.pending, items] at queued
        cases queued
      · rw [hand] at there
        cases there

theorem Service.rank {c d : Control} (service : Service c d)
    (sorted : c.items.Pairwise fun older newer => older.seq < newer.seq) (bound : Nat) :
    d.rank bound ≤ c.rank bound - 1 := by
  by_cases behind : d.Behind bound
  · obtain ⟨before, nearer⟩ := service.behind sorted behind
    rw [Control.rank, Control.rank, if_pos behind, if_pos before]
    omega
  · rw [Control.rank, if_neg behind]
    exact Nat.zero_le _

theorem Effect.pushes {c d : Core} (effect : Effect c d) (hand : d.hand = c.hand) :
    d.items = c.items ∨ ∃ kept entry, kept.Sublist c.items ∧ entry.seq = c.pushed.length ∧
      d.items = kept ++ [entry] := by
  cases effect with
  | enter entry next running room => exact .inr ⟨_, entry, .refl _, next, rfl⟩
  | evict entry oldest rest next running full front =>
      refine .inr ⟨rest, entry, ?_, next, rfl⟩
      rw [front]
      exact List.sublist_cons_self oldest rest
  | pop entry rest free front =>
      rw [free] at hand
      cases hand
  | putBack entry out room =>
      rw [out] at hand
      cases hand
  | _ => exact .inl rfl

structure Core.Extends (c d : Core) : Prop where
  pushed : c.pushed <+: d.pushed
  accepted : c.accepted <+: d.accepted
  written : c.written <+: d.written
  discarded : c.discarded <+: d.discarded
  dropped : c.dropped <+: d.dropped
  totals : c.totals <+: d.totals

theorem Effect.extends {c d : Core} (effect : Effect c d) : c.Extends d := by
  cases effect <;> constructor <;> simp

theorem Core.Extends.trans {c d e : Core} (first : c.Extends d) (second : d.Extends e) :
    c.Extends e where
  pushed := first.pushed.trans second.pushed
  accepted := first.accepted.trans second.accepted
  written := first.written.trans second.written
  discarded := first.discarded.trans second.discarded
  dropped := first.dropped.trans second.dropped
  totals := first.totals.trans second.totals

theorem reaches_extends {s t : Sys} (ran : PartialRun.Reaches (Sys.step config serde) s t) :
    s.core.Extends t.core := by
  refine PartialRun.invariant (fun t => s.core.Extends t.core) ?_ (Effect.extends .silent) ran
  intro t action next before _ taken
  exact before.trans (Sys.step_effect config serde taken).extends

namespace Sys

variable {s t : Sys} {action : Action}

theorem step_calm (calm : action.Calm) (running : s.queue.state.shutdown = false)
    (taken : s.step config serde action = some t) : t.queue.state.shutdown = false := by
  cases action with
  | log record =>
      cases taken
      exact (s.queue.push_frame _).2.1.trans running
  | report index =>
      obtain ⟨total, _, rfl⟩ := step_report taken
      exact running
  | closeShutdown call => exact calm.elim
  | closeTake call =>
      rw [step_caller config serde taken (.inl ⟨call, .inl rfl⟩)]
      exact running
  | closeJoin call =>
      rw [step_caller config serde taken (.inl ⟨call, .inr rfl⟩)]
      exact running
  | flushEnter call =>
      rw [step_caller config serde taken (.inr ⟨call, .inl rfl⟩)]
      exact running
  | flushWake call =>
      rw [step_caller config serde taken (.inr ⟨call, .inr rfl⟩)]
      exact running
  | tick elapsed =>
      cases taken
      exact running
  | worker net =>
      have move := workerStep_move config serde net taken
      exact move.shutdown.trans running

theorem caller_rank (caller : action.isWorker = false)
    (taken : s.step config serde action = some t) {bound : Nat}
    (early : bound ≤ s.history.pushed.length) :
    t.control.rank bound ≤ s.control.rank bound := by
  have pc : t.control.pc = s.control.pc := (step_queue taken caller).1
  have hand : t.core.hand = s.core.hand := congrArg Pc.hand pc
  have fewer : t.control.pending bound ≤ s.control.pending bound := by
    rcases (step_effect config serde taken).pushes hand with same | ⟨kept, entry, part, next, grown⟩
    · exact Nat.le_of_eq (congrArg (List.countP fun entry : Entry => entry.seq < bound) same)
    · have late : ¬ entry.seq < bound := by
        rw [next]
        exact Nat.not_lt.mpr early
      calc
        t.control.pending bound = (kept ++ [entry]).countP fun entry => entry.seq < bound :=
          congrArg (List.countP fun entry : Entry => entry.seq < bound) grown
        _ = kept.countP fun entry => entry.seq < bound := by simp [late]
        _ ≤ s.control.pending bound := part.countP_le
  have nearer := s.control.pc.distance_mono fewer
  by_cases behind : t.control.Behind bound
  · have before : s.control.Behind bound := by
      refine behind.imp (fun queued => Nat.lt_of_lt_of_le queued fewer) ?_
      rw [pc]
      exact id
    rw [Control.rank, Control.rank, if_pos behind, if_pos before, pc]
    exact nearer
  · rw [Control.rank, if_neg behind]
    exact Nat.zero_le _

end Sys

def enoughMoves (bufferSize : Nat) : Nat := 4 * max bufferSize 1 + 11

theorem reachable_rank {s : Sys} (reached : Reachable config serde bufferSize s) (bound : Nat) :
    s.control.rank bound ≤ enoughMoves bufferSize := by
  obtain ⟨w, _, rep⟩ := reachable_represented reached
  have room := (reachable_ordered reached).bound
  rw [show s.queue.capacity = max bufferSize 1 from rep.capacity] at room
  unfold Control.rank
  split
  · have fewer : s.control.pending bound ≤ max bufferSize 1 :=
      List.countP_le_length.trans room
    exact s.control.pc.distance_le fewer
  · exact Nat.zero_le _

/-- With a good network and no close, everything pushed so far is settled after so many
moves of the worker, whatever the other threads do, and however much they go on logging. -/
theorem backlog_settles {s t : Sys} {actions : List Action}
    (reached : Reachable config serde bufferSize s) (running : s.queue.isShutdown = false)
    (calm : ∀ action ∈ actions, action.Calm)
    (ran : PartialRun.run (Sys.step config serde) s actions = some t)
    (enough : enoughMoves bufferSize ≤ actions.countP Action.isWorker) :
    ∀ entry ∈ s.history.pushed, t.Settled entry := by
  let bound := s.history.pushed.length
  have used := PartialRun.rank_used_up
    (fun r => Reachable config serde bufferSize r ∧ r.queue.state.shutdown = false ∧
      bound ≤ r.history.pushed.length)
    Action.Calm Action.isWorker (fun r => r.control.rank bound) ?_ ?_ ?_
    ⟨reached, running, Nat.le_refl _⟩ calm ran
  · obtain ⟨⟨reachedEnd, _, _⟩, exhausted⟩ := used
    have start := reachable_rank reached bound
    have zero : t.control.rank bound = 0 := by omega
    have caughtUp : ¬ t.control.Behind bound := by
      intro behind
      rw [Control.rank, if_pos behind] at zero
      obtain ⟨queued, held⟩ := Pc.distance_zero zero
      rcases behind with more | ⟨entry, out, _⟩
      · omega
      · rw [held] at out
        cases out
    intro entry pushed
    have numbered : s.history.pushed.map Entry.seq = List.range s.history.pushed.length :=
      (reachable_accounted reached).numbered
    have early : entry.seq < bound := by
      apply List.mem_range.mp
      rw [← numbered]
      exact List.mem_map_of_mem pushed
    have still := (reaches_extends (PartialRun.reaches_of_run ran)).pushed.subset pushed
    obtain ⟨place, there, _⟩ := pushed_unique_place reachedEnd entry still
    cases place with
    | queue =>
        refine absurd (.inl (List.countP_pos_iff.mpr ⟨entry, there, decide_eq_true early⟩)) caughtUp
    | hand => exact absurd (.inr ⟨entry, Option.mem_toList.mp there, early⟩) caughtUp
    | written => exact .inl there
    | discarded => exact .inr (.inl there)
    | dropped => exact .inr (.inr there)
  · rintro r action next ⟨before, open_, early⟩ isCalm taken
    have longer := (Sys.step_effect config serde taken).extends.pushed.length_le
    exact ⟨before.step taken, Sys.step_calm isCalm open_ taken, Nat.le_trans early longer⟩
  · rintro r action next ⟨before, open_, early⟩ isCalm mine taken
    cases action with
    | worker net =>
        have service := Sys.workerStep_service (reachable_informed before) open_ isCalm taken
        exact service.rank (reachable_ordered before).sorted bound
    | _ => cases mine
  · rintro r action next ⟨before, open_, early⟩ _ other taken
    exact Sys.caller_rank other taken early

def loggedRun : List Action := [.log (.new 0 .information "app" "only")]

theorem backlog_settles_logged :
    ∃ s t, runDefault 1 loggedRun = some s ∧
      PartialRun.run (Sys.step ClientBuilder.default.toConfig compactSerde) s
        (List.replicate 15 (.worker .up)) = some t ∧
      s.history.pushed.length = 1 ∧ ∀ entry ∈ s.history.pushed, t.Settled entry := by
  obtain ⟨s, t, ran, later, one⟩ :
      ∃ s t, runDefault 1 loggedRun = some s ∧
        PartialRun.run (Sys.step ClientBuilder.default.toConfig compactSerde) s
          (List.replicate 15 (.worker .up)) = some t ∧ s.history.pushed.length = 1 :=
    ⟨_, _, rfl, rfl, rfl⟩
  have open_ : s.queue.isShutdown = false := by
    cases ran
    rfl
  refine ⟨s, t, ran, later, one, backlog_settles (runDefault_reaches ran) open_ ?_ later ?_⟩
  · intro action member
    rw [List.eq_of_mem_replicate member]
    exact Network.up_good
  · decide

def Action.isLog : Action → Bool
  | .log _ => true
  | _ => false

namespace Sys

variable {s t : Sys} {action : Action} {net : Network}

theorem workerStep_accounts (taken : s.workerStep config serde net = some t) :
    t.history.pushed = s.history.pushed ∧ t.owed = s.owed ∧
      ((∀ entry, s.pc ≠ .requeue entry) → t.history.dropped = s.history.dropped) := by
  unfold workerStep at taken
  split at taken
  case h_1 => cases taken; unfold atHead; split <;> [split; skip] <;> exact ⟨rfl, rfl, fun _ => rfl⟩
  case h_2 => cases taken; unfold atEmptyCheck; split <;> exact ⟨rfl, rfl, fun _ => rfl⟩
  case h_3 =>
      cases taken; unfold atDeadline
      split <;> [skip; split] <;> exact ⟨rfl, rfl, fun _ => rfl⟩
  case h_4 =>
      cases taken; unfold atExpiry
      split <;> [skip; split] <;> exact ⟨rfl, rfl, fun _ => rfl⟩
  case h_5 => cases taken; unfold atConnecting; split <;> exact ⟨rfl, rfl, fun _ => rfl⟩
  case h_6 => cases taken; simp only [atBanner]; split <;> exact ⟨rfl, rfl, fun _ => rfl⟩
  case h_7 => cases taken; unfold atDelay; split <;> exact ⟨rfl, rfl, fun _ => rfl⟩
  case h_8 =>
      cases taken; unfold atInner
      split <;> [split; skip] <;> exact ⟨rfl, rfl, fun _ => rfl⟩
  case h_9 => cases taken; unfold atPopping; split <;> exact ⟨rfl, rfl, fun _ => rfl⟩
  case h_10 => cases taken; simp only [atWriting]; split <;> exact ⟨rfl, rfl, fun _ => rfl⟩
  case h_11 => cases taken; exact ⟨rfl, rfl, fun _ => rfl⟩
  case h_12 entry here => cases taken; exact ⟨rfl, rfl, fun away => absurd here (away entry)⟩
  case h_13 requeued _ => cases taken; cases requeued <;> exact ⟨rfl, rfl, fun _ => rfl⟩
  all_goals cases taken

theorem step_silent (silent : action.isLog = false) (taken : s.step config serde action = some t) :
    t.history.pushed = s.history.pushed ∧
      ((∀ entry, s.pc ≠ .requeue entry) → t.history.dropped = s.history.dropped) := by
  cases action with
  | log record => cases silent
  | report index =>
      obtain ⟨total, _, rfl⟩ := step_report taken
      exact ⟨rfl, fun _ => rfl⟩
  | closeShutdown call =>
      obtain ⟨_, rfl⟩ := step_closeShutdown taken
      exact ⟨rfl, fun _ => rfl⟩
  | closeTake call =>
      rw [step_caller config serde taken (.inl ⟨call, .inl rfl⟩)]
      exact ⟨rfl, fun _ => rfl⟩
  | closeJoin call =>
      rw [step_caller config serde taken (.inl ⟨call, .inr rfl⟩)]
      exact ⟨rfl, fun _ => rfl⟩
  | flushEnter call =>
      rw [step_caller config serde taken (.inr ⟨call, .inl rfl⟩)]
      exact ⟨rfl, fun _ => rfl⟩
  | flushWake call =>
      rw [step_caller config serde taken (.inr ⟨call, .inr rfl⟩)]
      exact ⟨rfl, fun _ => rfl⟩
  | tick elapsed =>
      cases taken
      exact ⟨rfl, fun _ => rfl⟩
  | worker net => exact ⟨(workerStep_accounts taken).1, (workerStep_accounts taken).2.2⟩

theorem workerStep_unbroken (good : net.Good) (taken : s.workerStep config serde net = some t)
    (entry : Entry) : t.pc ≠ .requeue entry := by
  have move := workerStep_move config serde net taken
  have writes := (workerStep_good good taken).2.2
  change t.control.pc ≠ _
  generalize s.control = c, t.control = d at *
  cases move with
  | breakOff stream broken part here _ _ _ =>
      obtain ⟨written, there⟩ := writes stream broken here
      cases there
  | _ => exact nofun

theorem step_unbroken (calm : action.Calm) (silent : action.isLog = false)
    (taken : s.step config serde action = some t) (away : ∀ entry, s.pc ≠ .requeue entry) :
    (∀ entry, t.pc ≠ .requeue entry) ∧ t.history.dropped = s.history.dropped := by
  refine ⟨?_, (step_silent silent taken).2 away⟩
  cases mine : action.isWorker with
  | true =>
      cases action with
      | worker net => exact workerStep_unbroken calm taken
      | _ => cases mine
  | false =>
      rw [(step_queue taken mine).1]
      exact away

end Sys

theorem Effect.stays_drained {c d : Core} (effect : Effect c d) (books : Accounted c)
    (silent : d.pushed = c.pushed) (empty : c.items = []) (free : c.busy = false) :
    d.items = [] ∧ d.busy = false := by
  cases effect with
  | refuse entry next closed => simp at silent
  | enter entry next running room => simp at silent
  | evict entry oldest rest next running full front => simp at silent
  | pop entry rest none_ front =>
      rw [empty] at front
      cases front
  | putBack entry out room =>
      have busy := books.busy (by rw [out]; exact nofun)
      rw [free] at busy
      cases busy
  | finish none_ => exact ⟨empty, rfl⟩
  | _ => exact ⟨empty, free⟩

def Sys.drainRank (s : Sys) : Nat :=
  if s.queue.flush then 0 else s.pc.distance s.queue.state.items.length

theorem Sys.step_drained {s t : Sys} {action : Action}
    (reached : Reachable config serde bufferSize s) (silent : action.isLog = false)
    (taken : s.step config serde action = some t) (drained : s.queue.flush = true) :
    t.queue.flush = true := by
  obtain ⟨empty, free⟩ := s.queue.flush_true.mp drained
  exact t.queue.flush_true.mpr ((Sys.step_effect config serde taken).stays_drained
    (reachable_accounted reached) (Sys.step_silent silent taken).1 empty free)

theorem Service.drainRank {s t : Sys} (service : Service s.control t.control)
    (busy : s.queue.state.busy = true → s.pc.handling = true)
    (kept : s.queue.flush = true → t.queue.flush = true) : t.drainRank ≤ s.drainRank - 1 := by
  unfold Sys.drainRank
  by_cases after : t.queue.flush = true
  · rw [if_pos after]
    exact Nat.zero_le _
  · have before : ¬ s.queue.flush = true := fun drained => after (kept drained)
    rw [if_neg after, if_neg before]
    have less : t.control.pc.distance t.control.items.length <
        s.control.pc.distance s.control.items.length := by
      cases service with
      | onward items hand nearer =>
          rw [items]
          exact nearer _
      | take entry rest front items hand nearer =>
          rw [front, items]
          exact nearer _
      | putBack entry out items hand nearer =>
          rw [items]
          exact nearer _
      | wait away empty items hand =>
          have idle : s.queue.state.busy = false := by
            apply Bool.eq_false_iff.mpr
            intro claimed
            rw [show s.pc.handling = false from away] at busy
            cases busy claimed
          exact absurd (s.queue.flush_true.mpr ⟨empty, idle⟩) before
    change t.control.pc.distance t.control.items.length ≤
      s.control.pc.distance s.control.items.length - 1
    omega

theorem flush_returns {s t : Sys} {action : Action} {call : Nat} (drained : s.queue.flush = true)
    (flushing : action = .flushEnter call ∨ action = .flushWake call)
    (taken : s.step config serde action = some t) : t.flushes call = .returned true := by
  have free : s.queue.flushWaits = false := by
    have verdict := s.queue.waits_verdicts.2.2
    rw [drained] at verdict
    simpa using verdict.symm
  rcases flushing with rfl | rfl
  · obtain ⟨_, ⟨waits, _⟩ | ⟨_, rfl⟩⟩ := Sys.step_flushEnter taken
    · rw [free] at waits
      cases waits
    · simp [Sys.setFlush, drained]
  · obtain ⟨_, rfl⟩ := Sys.step_flushWake taken
    simp [Sys.setFlush, drained]

theorem reachable_drainRank {s : Sys} (reached : Reachable config serde bufferSize s) :
    s.drainRank ≤ enoughMoves bufferSize := by
  obtain ⟨w, _, rep⟩ := reachable_represented reached
  have room := (reachable_ordered reached).bound
  rw [show s.queue.capacity = max bufferSize 1 from rep.capacity] at room
  unfold Sys.drainRank
  split
  · exact Nat.zero_le _
  · exact s.pc.distance_le room

theorem drained_quiet {s : Sys} (reached : Reachable config serde bufferSize s)
    (drained : s.queue.flush = true) : s.Quiet := by
  obtain ⟨empty, free⟩ := s.queue.flush_true.mp drained
  refine ⟨empty, ?_⟩
  cases held : s.hand with
  | none => simp [Sys.contents, held]
  | some entry =>
      have busy := (reachable_accounted reached).busy (by simp [Sys.core, held])
      rw [show s.core.busy = false from free] at busy
      cases busy

theorem Sys.caller_drainRank {s t : Sys} {action : Action}
    (reached : Reachable config serde bufferSize s) (caller : action.isWorker = false)
    (silent : action.isLog = false) (taken : s.step config serde action = some t) :
    t.drainRank ≤ s.drainRank := by
  have pc := (Sys.step_queue taken caller).1
  have hand : t.core.hand = s.core.hand := congrArg Pc.hand pc
  have items : t.queue.state.items = s.queue.state.items := by
    have pushes := (Sys.step_effect config serde taken).pushes hand
    rcases pushes with same | ⟨kept, entry, _, next, grown⟩
    · exact same
    · have there : entry ∈ t.queue.state.items := by
        rw [show t.queue.state.items = _ from grown]
        exact List.mem_append_right _ (.head _)
      have older := (reachable_ordered (reached.step taken)).newer entry there
      rw [(Sys.step_silent silent taken).1, next] at older
      exact absurd older (Nat.lt_irrefl _)
  unfold Sys.drainRank
  by_cases before : s.queue.flush = true
  · rw [if_pos before, if_pos (Sys.step_drained reached silent taken before)]
  · rw [if_neg before, pc, items]
    split
    · exact Nat.zero_le _
    · exact Nat.le_refl _

def Sys.Spares (s t : Sys) : Prop :=
  ∀ entry ∈ s.history.pushed, entry ∈ t.contents .dropped → entry ∈ s.contents .dropped

theorem Sys.Spares.of_eq {s t : Sys} (same : t.history.dropped = s.history.dropped) :
    s.Spares t := by
  intro entry _ gone
  rw [show t.contents .dropped = s.contents .dropped from same] at gone
  exact gone

theorem Sys.Quiet.served {s t : Sys} (quiet : t.Quiet)
    (reached : Reachable config serde bufferSize s)
    (ran : PartialRun.Reaches (Sys.step config serde) s t) (spares : s.Spares t) (entry : Entry)
    (there : entry ∈ s.contents .queue ∨ entry ∈ s.contents .hand) :
    entry ∈ t.contents .written ∨ entry ∈ t.contents .discarded := by
  obtain ⟨place, elsewhere, inPlace⟩ : ∃ place, place ≠ .dropped ∧ entry ∈ s.contents place := by
    rcases there with queued | held
    · exact ⟨.queue, nofun, queued⟩
    · exact ⟨.hand, nofun, held⟩
  have pushed := (contents_sound reached place).2 entry inPlace
  have still := (reaches_extends ran).pushed.subset pushed
  rcases quiet.settled (reached.reaches ran) entry still with written | discarded | dropped
  · exact .inl written
  · exact .inr discarded
  · have earlier := spares entry pushed dropped
    exact absurd ((pushed_unique_place reached entry pushed).unique inPlace earlier) elsewhere

/-- With a good network, no close and nothing more logged, after so many moves of the worker every
flush returns true, and whatever was queued or in its hand has been written or discarded, unless
an entry was about to be put back. -/
theorem flush_succeeds {s t : Sys} {actions : List Action}
    (reached : Reachable config serde bufferSize s) (running : s.queue.isShutdown = false)
    (calm : ∀ action ∈ actions, action.Calm ∧ action.isLog = false)
    (ran : PartialRun.run (Sys.step config serde) s actions = some t)
    (enough : enoughMoves bufferSize ≤ actions.countP Action.isWorker) :
    (∀ call action u, action = .flushEnter call ∨ action = .flushWake call →
      t.step config serde action = some u → u.flushes call = .returned true) ∧
    ((∀ entry, s.pc ≠ .requeue entry) → ∀ entry,
      entry ∈ s.contents .queue ∨ entry ∈ s.contents .hand →
        entry ∈ t.contents .written ∨ entry ∈ t.contents .discarded) := by
  have used := PartialRun.rank_used_up
    (fun r => Reachable config serde bufferSize r ∧ r.queue.state.shutdown = false ∧
      ((∀ entry, s.pc ≠ .requeue entry) → (∀ entry, r.pc ≠ .requeue entry) ∧
        r.history.dropped = s.history.dropped))
    (fun action => action.Calm ∧ action.isLog = false) Action.isWorker Sys.drainRank ?_ ?_ ?_
    ⟨reached, running, fun away => ⟨away, rfl⟩⟩ calm ran
  · obtain ⟨⟨reachedEnd, _, unbroken⟩, exhausted⟩ := used
    have start := reachable_drainRank reached
    have drained : t.queue.flush = true := by
      by_contra waits
      have zero : t.drainRank = 0 := by omega
      rw [Sys.drainRank, if_neg waits] at zero
      have empty := List.eq_nil_of_length_eq_zero (Pc.distance_zero zero).1
      have busy : t.queue.state.busy = true := by
        by_contra free
        exact waits (t.queue.flush_true.mpr ⟨empty, Bool.eq_false_iff.mpr free⟩)
      have handling := reachable_handling reachedEnd busy
      cases here : t.pc <;> simp [here, Pc.handling, Pc.distance] at handling zero
    refine ⟨fun call action u flushing taken => flush_returns drained flushing taken, ?_⟩
    intro away
    have reaches := PartialRun.reaches_of_run ran
    exact (drained_quiet reachedEnd drained).served reached reaches (.of_eq (unbroken away).2)
  · rintro r action next ⟨before, open_, unbroken⟩ ⟨isCalm, silent⟩ taken
    refine ⟨before.step taken, Sys.step_calm isCalm open_ taken, fun away => ?_⟩
    obtain ⟨here, same⟩ := unbroken away
    obtain ⟨there, kept⟩ := Sys.step_unbroken isCalm silent taken here
    exact ⟨there, kept.trans same⟩
  · rintro r action next ⟨before, open_, _⟩ ⟨isCalm, silent⟩ mine taken
    cases action with
    | worker net =>
        have service := Sys.workerStep_service (reachable_informed before) open_ isCalm taken
        exact service.drainRank (reachable_handling before) (Sys.step_drained before silent taken)
    | _ => cases mine
  · rintro r action next ⟨before, _, _⟩ ⟨_, silent⟩ other taken
    exact Sys.caller_drainRank before other silent taken

theorem flush_succeeds_logged :
    ∃ s t, runDefault 1 loggedRun = some s ∧
      PartialRun.run (Sys.step ClientBuilder.default.toConfig compactSerde) s
        (List.replicate 15 (.worker .up)) = some t ∧ s.contents .queue ≠ [] ∧
      (∀ call action u, action = .flushEnter call ∨ action = .flushWake call →
        t.step ClientBuilder.default.toConfig compactSerde action = some u →
          u.flushes call = .returned true) ∧
      ((∀ entry, s.pc ≠ .requeue entry) → ∀ entry,
        entry ∈ s.contents .queue ∨ entry ∈ s.contents .hand →
          entry ∈ t.contents .written ∨ entry ∈ t.contents .discarded) := by
  obtain ⟨s, t, ran, later, queued⟩ :
      ∃ s t, runDefault 1 loggedRun = some s ∧
        PartialRun.run (Sys.step ClientBuilder.default.toConfig compactSerde) s
          (List.replicate 15 (.worker .up)) = some t ∧ s.contents .queue ≠ [] :=
    ⟨_, _, rfl, rfl, nofun⟩
  have open_ : s.queue.isShutdown = false := by
    cases ran
    rfl
  refine ⟨s, t, ran, later, queued, flush_succeeds (runDefault_reaches ran) open_ ?_ later ?_⟩
  · intro action member
    rw [List.eq_of_mem_replicate member]
    exact ⟨Network.up_good, rfl⟩
  · decide

end Ecapplog
