import Ecapplog.Drain
import Ecapplog.Wakeups

/-! How the worker ends: by a panic over the flush deadline, or by leaving its loop, and
what it then leaves the waits of the other threads to. -/

namespace Ecapplog

variable {bufferSize : Nat} {config : Config} {serde : SerdeJson}

theorem instantAdd_iff (now : Instant) (duration : Duration) :
    (∃ later, instantAdd now duration = some later) ↔ now + duration < 2 ^ 63 * second := by
  have seconds : (now + duration) / 1000000000 < 2 ^ 63 ↔ now + duration < 2 ^ 63 * second :=
    Nat.div_lt_iff_lt_mul (by decide)
  rw [← seconds, instantAdd]
  constructor
  · rintro ⟨later, sum⟩
    split at sum
    · assumption
    · cases sum
  · intro small
    exact ⟨_, if_pos small⟩

def Pc.draining : Pc → Bool
  | .emptyCheck => true
  | .deadline _ => true
  | .expiry _ _ => true
  | .panicked => true
  | _ => false

theorem Move.draining {c d : Control} (move : Move config serde c d)
    (inv : c.pc.draining = true → config.flushOnClose = true) (here : d.pc.draining = true) :
    config.flushOnClose = true := by
  cases move with
  | wantsDrain before requested drains => exact drains
  | keepDraining stream before requested drains => exact drains
  | backlog before queued =>
      apply inv
      rw [before]
      rfl
  | remember stream deadline before known =>
      apply inv
      rw [before]
      rfl
  | initiate stream deadline before unknown sum =>
      apply inv
      rw [before]
      rfl
  | overflow stream before unknown sum =>
      apply inv
      rw [before]
      rfl
  | _ => cases here

theorem reachable_draining {s : Sys} (reached : Reachable config serde bufferSize s)
    (here : s.pc.draining = true) : config.flushOnClose = true := by
  obtain ⟨spawned, now, ran⟩ := reached
  refine PartialRun.invariant
    (fun s => s.control.pc.draining = true → config.flushOnClose = true) ?_ ?_ ran here
  · intro s action t inv _ taken
    rcases Sys.step_control taken with ⟨_, move⟩ | ⟨_, aside⟩
    · exact move.draining inv
    · rw [aside.pc]
      exact inv
  · cases spawned <;> exact nofun

/-- Where the flush deadline may be set its sum is representable, and the worker has not
crashed over it. -/
structure Sys.DeadlineSafe (config : Config) (s : Sys) : Prop where
  representable : ∀ stream, s.pc = .deadline stream → s.flushDeadline = none →
    ∃ deadline, instantAdd s.now config.flushTimeout = some deadline
  alive : s.pc ≠ .panicked

theorem deadlineSafe_of_fits {latest : Instant}
    (fits : config.flushOnClose = false ∨ latest + config.flushTimeout < 2 ^ 63 * second)
    {s : Sys} (reached : Reachable config serde bufferSize s) (early : s.now ≤ latest) :
    s.DeadlineSafe config := by
  have sum (here : s.pc.draining = true) :
      ∃ deadline, instantAdd s.now config.flushTimeout = some deadline := by
    rcases fits with drops | small
    · rw [reachable_draining reached here] at drops
      cases drops
    · apply (instantAdd_iff _ _).mpr
      exact Nat.lt_of_le_of_lt (Nat.add_le_add_right early _) small
  constructor
  · intro stream here _
    apply sum
    rw [here]
    rfl
  · intro crashed
    rcases sum (by rw [crashed]; rfl) with ⟨deadline, added⟩
    have overflows : instantAdd s.now config.flushTimeout = none :=
      (reachable_informed reached).overflow crashed
    rw [added] at overflows
    cases overflows

def closedInLoop : List Action :=
  [.worker .up, .worker .up, .worker .up, .closeShutdown 0, .worker .up]

theorem deadline_reached (serde : SerdeJson) (bufferSize : Nat) (now : Instant)
    (drains : config.flushOnClose = true) :
    ∃ s stream, PartialRun.run (Sys.step config serde) (Sys.build bufferSize true now)
        closedInLoop = some s ∧
      s.pc = .deadline stream ∧ s.flushDeadline = none ∧ s.now = now := by
  rcases config with ⟨appName, address, flushOnClose, flushTimeout, connectTimeout, delay⟩
  cases drains
  exact ⟨_, _, rfl, rfl, rfl, rfl⟩

/-- The deadline arithmetic is safe up to a clock reading exactly if nothing is to be
drained or the flush timeout can be added to that reading. -/
theorem deadline_safe_iff (config : Config) (serde : SerdeJson) (bufferSize : Nat)
    (latest : Instant) :
    (∀ s, Reachable config serde bufferSize s → s.now ≤ latest → s.DeadlineSafe config) ↔
      config.flushOnClose = false ∨ latest + config.flushTimeout < 2 ^ 63 * second := by
  constructor
  · intro safe
    cases drains : config.flushOnClose with
    | false => exact .inl rfl
    | true =>
        right
        obtain ⟨s, stream, ran, here, unset, now⟩ := deadline_reached serde bufferSize latest drains
        have reached : Reachable config serde bufferSize s :=
          ⟨true, latest, PartialRun.reaches_of_run ran⟩
        have sum := (safe s reached (Nat.le_of_eq now)).representable stream here unset
        rw [now] at sum
        exact (instantAdd_iff _ _).mp sum
  · intro fits s reached early
    exact deadlineSafe_of_fits fits reached early

def Duration.max : Duration := (2 ^ 64 - 1) * second + 999999999

def patient : Config := { ClientBuilder.default.toConfig with flushTimeout := Duration.max }

theorem patient_client_panics :
    ∃ s, PartialRun.run (Sys.step patient compactSerde) (Sys.build 1000 true 0)
        [.log (.new 0 .information "app" "only"), .closeShutdown 0, .closeTake 0, .worker .up,
          .worker .up, .worker .up, .closeJoin 0] = some s ∧
      s.pc = .panicked ∧ s.contents .queue ≠ [] ∧ s.closes 0 = .returned :=
  ⟨_, rfl, rfl, nofun, rfl⟩

def Control.leaves (config : Config) (c : Control) : Bool :=
  match c.pc with
  | .head => c.shutdown && !config.flushOnClose
  | .emptyCheck => c.items.isEmpty
  | .deadline _ => c.flushDeadline.isNone && (instantAdd c.now config.flushTimeout).isNone
  | .expiry deadline _ => deadline ≤ c.now
  | .delay => c.shutdown
  | .inner _ => c.shutdown && !config.flushOnClose
  | .popping _ => c.items.isEmpty && c.shutdown
  | _ => false

theorem Move.leaves {c d : Control} (move : Move config serde c d) :
    (d.pc.ended = true ↔ c.leaves config = true) ∧
      (c.leaves config = true → d.items = c.items) := by
  cases move with
  | leaveHead here closing drops => simp [Pc.ended, Control.leaves, here, closing, drops]
  | nothingQueued here empty => simp [Pc.ended, Control.leaves, here, empty]
  | overflow stream here unknown sum => simp [Pc.ended, Control.leaves, here, unknown, sum]
  | expired deadline stream here late => simp [Pc.ended, Control.leaves, here, late]
  | leaveDelay here closing => simp [Pc.ended, Control.leaves, here, closing]
  | leaveInner stream here closing drops => simp [Pc.ended, Control.leaves, here, closing, drops]
  | drained stream here empty closing => simp [Pc.ended, Control.leaves, here, empty, closing]
  -- the others go on inside the loop
  | _ => simp_all [Pc.ended, Control.leaves]

def Pc.handling : Pc → Bool
  | .writing _ _ => true
  | .finishing _ => true
  | .requeue _ => true
  | .finishingFailed _ => true
  | _ => false

theorem Sys.workerStep_handling {net : Network} {s t : Sys}
    (taken : s.workerStep config serde net = some t)
    (inv : s.queue.state.busy = true → s.pc.handling = true)
    (busy : t.queue.state.busy = true) : t.pc.handling = true := by
  have idle (away : s.pc.handling = false) (same : t.queue = s.queue) : t.pc.handling = true := by
    rw [same] at busy
    rw [inv busy] at away
    cases away
  rw [workerStep] at taken
  split at taken
  case h_1 here => cases taken; exact idle (by rw [here]; rfl) (s.atHead_queue config)
  case h_2 here => cases taken; exact idle (by rw [here]; rfl) s.atEmptyCheck_queue
  case h_3 here => cases taken; exact idle (by rw [here]; rfl) (s.atDeadline_queue config _)
  case h_4 here => cases taken; exact idle (by rw [here]; rfl) (s.atExpiry_queue _ _)
  case h_5 here => cases taken; exact idle (by rw [here]; rfl) (s.atConnecting_queue config net)
  case h_6 here => cases taken; exact idle (by rw [here]; rfl) (s.atBanner_queue config net _)
  case h_7 here => cases taken; exact idle (by rw [here]; rfl) s.atDelay_queue
  case h_8 here => cases taken; exact idle (by rw [here]; rfl) (s.atInner_queue config _)
  case h_9 stream here =>
      cases taken
      cases items : s.queue.state.items with
      | cons entry rest => simp only [atPopping, Queue.pop, items, Pc.handling]
      | nil =>
          apply idle (by rw [here]; rfl)
          exact (s.atPopping_queue stream).trans (s.queue.pop_empty items)
  case h_10 stream entry here =>
      cases taken
      simp only [atWriting]
      split <;> rfl
  case h_11 here =>
      cases taken
      cases busy
  case h_12 here =>
      cases taken
      rfl
  case h_13 requeued here =>
      cases taken
      cases requeued <;> cases busy
  all_goals cases taken

theorem reachable_handling {s : Sys} (reached : Reachable config serde bufferSize s)
    (busy : s.queue.state.busy = true) : s.pc.handling = true := by
  obtain ⟨spawned, now, ran⟩ := reached
  refine PartialRun.invariant
    (fun s => s.queue.state.busy = true → s.pc.handling = true) ?_ (fun busy => by cases busy)
    ran busy
  intro s action t inv _ taken busy
  cases mine : action.isWorker with
  | true =>
      cases action with
      | worker net => exact Sys.workerStep_handling taken inv busy
      | _ => cases mine
  | false =>
      rcases Sys.step_queue taken mine with ⟨pc, same | ⟨entry, pushed, _⟩ | ⟨closed, _⟩⟩
      · rw [pc]
        exact inv (same ▸ busy)
      · rw [pushed, (s.queue.push_frame entry).1] at busy
        rw [pc]
        exact inv busy
      · rw [closed] at busy
        rw [pc]
        exact inv busy

structure Sys.Released (s : Sys) : Prop where
  pop : s.queue.popWaits = false
  sleep : s.queue.sleepWaits = false
  flush : s.queue.flushWaits = false

def Sys.NoWait (s : Sys) : Prop :=
  s.queue.isShutdown = true → s.pc.ended = true → s.Released

/-- When the worker leaves its loop, nothing is queued. -/
def Sys.LeavesEmpty (config : Config) (s : Sys) : Action → Prop
  | .worker _ => s.control.leaves config = true → s.queue.state.items = []
  | _ => True

instance (s : Sys) (action : Action) : Decidable (s.LeavesEmpty config action) :=
  match action with
  | .worker _ =>
      inferInstanceAs (Decidable (s.control.leaves config = true → s.queue.state.items = []))
  | .log _ | .report _ | .closeShutdown _ | .closeTake _ | .closeJoin _ | .flushEnter _
  | .flushWake _ | .tick _ => .isTrue trivial

theorem ended_closing {s : Sys} (reached : Reachable config serde bufferSize s)
    (ended : s.pc.ended = true) : s.queue.state.shutdown = true := by
  apply (reachable_informed reached).closing
  change s.pc.closing = true
  cases here : s.pc with
  | exited => rfl
  | panicked => rfl
  | _ => simp [here, Pc.ended] at ended

theorem ended_idle {s : Sys} (reached : Reachable config serde bufferSize s)
    (ended : s.pc.ended = true) : s.queue.state.busy = false := by
  apply Bool.eq_false_iff.mpr
  intro busy
  have handling := reachable_handling reached busy
  cases here : s.pc with
  | exited => simp [here, Pc.handling] at handling
  | panicked => simp [here, Pc.handling] at handling
  | _ => simp [here, Pc.ended] at ended

theorem noWait_iff {s : Sys} (reached : Reachable config serde bufferSize s) :
    s.NoWait ↔ (s.pc.ended = true → s.queue.state.items = []) := by
  constructor
  · intro free ended
    have waits := (free (ended_closing reached ended) ended).flush
    simp only [Queue.flushWaits, Bool.or_eq_false_iff, Bool.not_eq_false'] at waits
    exact List.isEmpty_iff.mp waits.1
  · intro empty requested ended
    constructor
    · simp [Queue.popWaits, ended_closing reached ended]
    · simp [Queue.sleepWaits, ended_closing reached ended]
    · simp [Queue.flushWaits, empty ended, ended_idle reached ended]

theorem step_noWait {s t : Sys} {action : Action} (reached : Reachable config serde bufferSize s)
    (free : s.NoWait) (taken : s.step config serde action = some t) :
    t.NoWait ↔ s.LeavesEmpty config action := by
  rw [noWait_iff (reached.step taken)]
  rcases Sys.step_control taken with ⟨mine, move⟩ | ⟨other, aside⟩
  · rcases move.leaves with ⟨ends, kept⟩
    have guarded : s.LeavesEmpty config action ↔
        (s.control.leaves config = true → s.queue.state.items = []) := by
      cases action with
      | worker net => rfl
      | _ => cases mine
    rw [guarded]
    constructor
    · intro empty leaving
      have same : t.queue.state.items = s.queue.state.items := kept leaving
      rw [← same]
      exact empty (ends.mpr leaving)
    · intro empty ended
      have leaving := ends.mp ended
      have same : t.queue.state.items = s.queue.state.items := kept leaving
      rw [same]
      exact empty leaving
  · have admitted : s.LeavesEmpty config action := by
      cases action with
      | worker net => cases other
      | _ => trivial
    apply iff_of_true _ admitted
    intro ended
    have stays : s.pc.ended = true := by
      rw [← show t.pc = s.pc from aside.pc]
      exact ended
    have same : t.queue.state.items = s.queue.state.items :=
      aside.items (ended_closing reached stays)
    rw [same]
    exact (noWait_iff reached).mp free stays

theorem Sys.Released.flush_returns {s t : Sys} (released : s.Released) {call : Nat}
    (taken : s.step config serde (.flushEnter call) = some t) :
    t.flushes call = .returned true := by
  rcases Sys.step_flushEnter taken with ⟨_, ⟨waits, _⟩ | ⟨_, rfl⟩⟩
  · rw [released.flush] at waits
    cases waits
  · have drained : s.queue.flush = true := by
      rw [s.queue.waits_verdicts.2.2, released.flush]
      rfl
    simp [Sys.setFlush, drained]

/-- In a run in which the worker leaves its loop only with an empty queue, no wait outlives
it and a later flush returns at once; and no other run has that property. -/
theorem no_wait_outlives_worker {spawned : Bool} {now : Instant} {s : Sys}
    (ran : PartialRun.ReachesWhen (Sys.step config serde) (Sys.LeavesEmpty config)
      (Sys.build bufferSize spawned now) s) :
    s.NoWait ∧
      (s.pc.ended = true → ∀ call t, s.step config serde (.flushEnter call) = some t →
        t.flushes call = .returned true) ∧
      ∀ action t, s.step config serde action = some t →
        (t.NoWait ↔ s.LeavesEmpty config action) := by
  have reached : Reachable config serde bufferSize s := ⟨spawned, now, ran.reaches⟩
  have free : Reachable config serde bufferSize s ∧ s.NoWait := by
    refine PartialRun.invariant (fun s => Reachable config serde bufferSize s ∧ s.NoWait)
      ?_ ?_ ran
    · rintro s action t ⟨reached, free⟩ admitted taken
      exact ⟨reached.step taken, (step_noWait reached free taken).mpr admitted⟩
    · refine ⟨⟨spawned, now, .refl⟩, ?_⟩
      intro requested
      cases requested
  refine ⟨free.2, ?_, ?_⟩
  · intro ended call t taken
    exact (free.2 (ended_closing reached ended) ended).flush_returns taken
  · intro action t taken
    exact step_noWait reached free.2 taken

theorem no_wait_outlives_worker_drained :
    ∃ s t, PartialRun.run (PartialRun.guarded
          (Sys.step ClientBuilder.default.toConfig compactSerde)
          (Sys.LeavesEmpty ClientBuilder.default.toConfig))
        (Sys.build 1000 true 0) (logAndCloseRun ++ [.worker .up]) = some s ∧
      s.pc = .exited ∧
      s.step ClientBuilder.default.toConfig compactSerde (.flushEnter 0) = some t ∧
      s.NoWait ∧ t.flushes 0 = .returned true := by
  obtain ⟨s, t, ran, exited, entered⟩ :
      ∃ s t, PartialRun.run (PartialRun.guarded
            (Sys.step ClientBuilder.default.toConfig compactSerde)
            (Sys.LeavesEmpty ClientBuilder.default.toConfig))
          (Sys.build 1000 true 0) (logAndCloseRun ++ [.worker .up]) = some s ∧
        s.pc = .exited ∧
        s.step ClientBuilder.default.toConfig compactSerde (.flushEnter 0) = some t :=
    ⟨_, _, rfl, rfl, rfl⟩
  have free := no_wait_outlives_worker (PartialRun.reachesWhen_of_run ran)
  exact ⟨s, t, ran, exited, entered, free.1, free.2.1 (by rw [exited]; rfl) 0 t entered⟩

theorem flush_outlives_worker :
    ∃ s, runDefault 1000 [.log (.new 0 .information "app" "only"), .flushEnter 0,
        .worker (.down 0), .worker (.down 0), .closeShutdown 0, .worker (.down 0)] = some s ∧
      s.pc = .exited ∧ s.flushes 0 = .waiting ∧ s.queue.flushWaits = true ∧ ¬ s.NoWait :=
  ⟨_, rfl, rfl, rfl, rfl, fun free => nomatch (free rfl rfl).flush⟩

end Ecapplog
