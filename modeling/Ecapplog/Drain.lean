import Ecapplog.Callers

/-! Closing with `flush_on_close`: how the worker can leave its loop, what it leaves
behind, and that it does leave. -/

namespace Ecapplog

variable {bufferSize : Nat} {config : Config} {serde : SerdeJson}

def Pc.closing : Pc → Bool
  | .emptyCheck => true
  | .deadline _ => true
  | .expiry _ _ => true
  | .exited => true
  | .panicked => true
  | _ => false

def Pc.failing : Pc → Bool
  | .delay => true
  | .requeue _ => true
  | .finishingFailed _ => true
  | _ => false

structure Informed (config : Config) (c : Control) : Prop where
  closing : c.pc.closing = true → c.shutdown = true
  failing : c.pc.failing = true → c.network = some false
  deadline : ∀ deadline stream, c.pc = .expiry deadline stream → c.flushDeadline = some deadline
  overflow : c.pc = .panicked → instantAdd c.now config.flushTimeout = none

theorem Move.informed {c d : Control} (move : Move config serde c d) (inv : Informed config c) :
    Informed config d := by
  have closing := inv.closing
  have failing := inv.failing
  have deadline := inv.deadline
  cases move with
  | proceed here running => exact ⟨nofun, nofun, nofun, nofun⟩
  | wantsDrain here requested drains => exact ⟨fun _ => requested, nofun, nofun, nofun⟩
  | leaveHead here requested drops => exact ⟨fun _ => requested, nofun, nofun, nofun⟩
  | nothingQueued here empty =>
      rw [here] at closing
      exact ⟨closing, nofun, nofun, nofun⟩
  | backlog here queued =>
      rw [here] at closing
      exact ⟨closing, nofun, nofun, nofun⟩
  | remember stream known here same =>
      rw [here] at closing
      refine ⟨closing, nofun, fun _ _ there => ?_, nofun⟩
      cases there
      exact same
  | initiate stream fresh here unknown sum =>
      rw [here] at closing
      refine ⟨closing, nofun, fun _ _ there => ?_, nofun⟩
      cases there
      rfl
  | overflow stream here unknown sum =>
      rw [here] at closing
      exact ⟨closing, nofun, nofun, fun _ => sum⟩
  | expired known stream here late =>
      rw [here] at closing
      exact ⟨closing, nofun, nofun, nofun⟩
  | leaveDelay here requested => exact ⟨fun _ => requested, nofun, nofun, nofun⟩
  | keepDraining stream here requested drains =>
      exact ⟨fun _ => requested, nofun, nofun, nofun⟩
  | leaveInner stream here requested drops =>
      exact ⟨fun _ => requested, nofun, nofun, nofun⟩
  | drained stream here empty requested => exact ⟨fun _ => requested, nofun, nofun, nofun⟩
  | unreachable here => exact ⟨nofun, fun _ => rfl, nofun, nofun⟩
  | unannounced stream part here partly short => exact ⟨nofun, fun _ => rfl, nofun, nofun⟩
  | breakOff stream entry part here sendable partly short =>
      exact ⟨nofun, fun _ => rfl, nofun, nofun⟩
  | putBack entry here =>
      rw [here] at failing
      exact ⟨nofun, failing, nofun, nofun⟩
  | giveUp entry total here full =>
      rw [here] at failing
      exact ⟨nofun, failing, nofun, nofun⟩
  | settle requeued here =>
      rw [here] at failing
      exact ⟨nofun, failing, nofun, nofun⟩
  | _ => exact ⟨nofun, nofun, nofun, nofun⟩

theorem Bystander.informed {c d : Control} (aside : Bystander c d) (inv : Informed config c) :
    Informed config d where
  closing := by
    intro here
    rw [aside.pc] at here
    exact aside.shutdown (inv.closing here)
  failing := by
    rw [aside.pc, aside.network]
    exact inv.failing
  deadline := by
    rw [aside.pc, aside.flushDeadline]
    exact inv.deadline
  overflow := by
    intro here
    rw [aside.pc] at here
    exact instantAdd_none_later aside.now (inv.overflow here)

theorem reachable_informed {s : Sys} (reached : Reachable config serde bufferSize s) :
    Informed config s.control := by
  obtain ⟨spawned, now, ran⟩ := reached
  refine PartialRun.invariant (fun s => Informed config s.control) ?_ ?_ ran
  · intro s action t inv _ taken
    rcases Sys.step_control taken with ⟨_, move⟩ | ⟨_, aside⟩
    · exact move.informed inv
    · exact aside.informed inv
  · cases spawned <;> exact ⟨nofun, nofun, nofun, nofun⟩

/-- The two excuses for leaving entries behind. -/
def Control.Excused (c : Control) : Prop :=
  (∃ deadline, c.flushDeadline = some deadline ∧ deadline ≤ c.now) ∨ c.network = some false

theorem Move.exit {c d : Control} (move : Move config serde c d) (inv : Informed config c)
    (drains : config.flushOnClose = true) (exits : d.pc = .exited) :
    d.shutdown = true ∧ (d.Excused ∨ d.items = []) := by
  have closing := inv.closing
  have failing := inv.failing
  have deadline := inv.deadline
  cases move with
  | leaveHead here requested drops =>
      rw [drains] at drops
      cases drops
  | nothingQueued here empty =>
      rw [here] at closing
      exact ⟨closing rfl, .inr empty⟩
  | expired known stream here late =>
      rw [here] at closing
      exact ⟨closing rfl, .inl (.inl ⟨known, deadline known stream here, late⟩)⟩
  | leaveDelay here requested =>
      rw [here] at failing
      exact ⟨requested, .inl (.inr (failing rfl))⟩
  | leaveInner stream here requested drops =>
      rw [drains] at drops
      cases drops
  | drained stream here empty requested => exact ⟨requested, .inr empty⟩
  | _ => cases exits

/-- A bound on the worker's remaining moves once shutdown was requested: a few for
each queued entry, and a few to get to a connection or away from a failed one. -/
def Control.toGo (c : Control) : Nat :=
  match c.pc with
  | .head => 6 * c.items.length + 14
  | .emptyCheck => 6 * c.items.length + 13
  | .deadline none => 6 * c.items.length + 12
  | .expiry _ none => 6 * c.items.length + 11
  | .connecting => 6 * c.items.length + 10
  | .writing _ _ => 6 * c.items.length + 10
  | .banner _ => 6 * c.items.length + 9
  | .finishing _ => 6 * c.items.length + 9
  | .inner _ => 6 * c.items.length + 8
  | .deadline (some _) => 6 * c.items.length + 7
  | .expiry _ (some _) => 6 * c.items.length + 6
  | .popping _ => 6 * c.items.length + 5
  | .requeue _ => 3
  | .finishingFailed _ => 2
  | .delay => 1
  | .exited => 0
  | .panicked => 0
  | .absent => 0

theorem Move.toGo {c d : Control} (move : Move config serde c d) (requested : c.shutdown = true) :
    d.toGo < c.toGo := by
  have impossible (running : c.shutdown = false) : d.toGo < c.toGo := by
    rw [requested] at running
    cases running
  cases move with
  | proceed here running => exact impossible running
  | retry here running => exact impossible running
  | serve stream here running => exact impossible running
  | idle stream here empty running => exact impossible running
  | take stream entry rest here front =>
      simp only [Control.toGo, here, front, List.length_cons]
      omega
  | remember stream deadline here known => cases stream <;> simp [Control.toGo, here]
  | initiate stream deadline here unknown sum => cases stream <;> simp [Control.toGo, here]
  | overflow stream here unknown sum => cases stream <;> simp [Control.toGo, here]
  | expired deadline stream here late => cases stream <;> simp [Control.toGo, here]
  | _ =>
      simp only [Control.toGo, *]
      omega

theorem Bystander.toGo {c d : Control} (aside : Bystander c d) (requested : c.shutdown = true) :
    d.toGo = c.toGo := by
  simp only [Control.toGo, aside.pc, aside.items requested]

theorem step_closing {s t : Sys} {action : Action}
    (requested : s.queue.isShutdown = true) (taken : s.step config serde action = some t) :
    t.queue.isShutdown = true ∧ t.control.toGo ≤ s.control.toGo ∧
      (action.isWorker = true → t.control.toGo < s.control.toGo) := by
  rcases Sys.step_control taken with ⟨_, move⟩ | ⟨other, aside⟩
  · have lower := move.toGo requested
    exact ⟨move.shutdown.trans requested, Nat.le_of_lt lower, fun _ => lower⟩
  · have same := aside.toGo requested
    refine ⟨aside.shutdown requested, Nat.le_of_eq same, fun mine => ?_⟩
    rw [other] at mine
    cases mine

theorem closing_bounded {s t : Sys} {actions : List Action}
    (requested : s.queue.isShutdown = true)
    (ran : PartialRun.run (Sys.step config serde) s actions = some t) :
    actions.countP Action.isWorker + t.control.toGo ≤ s.control.toGo :=
  PartialRun.own_steps_bounded (fun s => s.queue.isShutdown = true) Action.isWorker
    (fun s => s.control.toGo)
    (fun _ _ _ requested taken => (step_closing requested taken).1)
    (fun _ _ _ requested mine taken => (step_closing requested taken).2.2 mine)
    (fun _ _ _ requested _ taken => (step_closing requested taken).2.1)
    requested ran

structure Sys.Done (s : Sys) : Prop where
  exited : s.pc = .exited
  requested : s.queue.isShutdown = true
  quiet : s.Quiet

theorem Sys.Done.stays {s t : Sys} (finished : s.Done)
    (ran : PartialRun.Reaches (Sys.step config serde) s t) : t.Done := by
  refine PartialRun.invariant Sys.Done ?_ finished ran
  intro s action t finished _ taken
  rcases Sys.step_control taken with ⟨_, move⟩ | ⟨_, aside⟩
  · have running : s.pc.running = true := move.running
    rw [finished.exited] at running
    cases running
  · have exited : t.pc = .exited := aside.pc.trans finished.exited
    have empty : t.queue.state.items = s.queue.state.items := aside.items finished.requested
    refine ⟨exited, aside.shutdown finished.requested, empty.trans finished.quiet.queue, ?_⟩
    simp [Sys.contents, Sys.hand, exited]

structure LeavesDrained (config : Config) (serde : SerdeJson) (t : Sys) : Prop where
  requested : t.queue.isShutdown = true
  excused : t.contents .queue ≠ [] → t.control.Excused
  drained : ¬ t.control.Excused → ∀ u, PartialRun.Reaches (Sys.step config serde) t u →
    u.Quiet ∧ ∀ entry ∈ u.history.pushed, u.Settled entry

theorem exit_leaves_drained {s t : Sys} {action : Action} (drains : config.flushOnClose = true)
    (reached : Reachable config serde bufferSize s)
    (taken : s.step config serde action = some t) (inside : s.pc ≠ .exited)
    (exits : t.pc = .exited) : LeavesDrained config serde t := by
  rcases Sys.step_control taken with ⟨_, move⟩ | ⟨_, aside⟩
  · obtain ⟨requested, outcome⟩ := move.exit (reachable_informed reached) drains exits
    have empty_handed : t.contents .hand = [] := by simp [Sys.contents, Sys.hand, exits]
    constructor
    · exact requested
    · intro queued
      exact outcome.resolve_right queued
    · intro unexcused u ran
      have finished : t.Done :=
        ⟨exits, requested, outcome.resolve_left unexcused, empty_handed⟩
      have quiet := (finished.stays ran).quiet
      exact ⟨quiet, quiet.settled ((reached.step taken).reaches ran)⟩
  · exact absurd (aside.pc.symm.trans exits) inside

/-- Closing drains: the worker leaves its loop only on request, and leaves nothing
behind unless the deadline has passed or the network has just failed; and once
requested it does leave, within a number of its own steps that is known then. -/
theorem close_drains {s : Sys} (drains : config.flushOnClose = true)
    (reached : Reachable config serde bufferSize s) :
    (∀ action t, s.step config serde action = some t → s.pc ≠ .exited → t.pc = .exited →
      LeavesDrained config serde t) ∧
    (s.queue.isShutdown = true → ∀ actions t,
      PartialRun.run (Sys.step config serde) s actions = some t →
        actions.countP Action.isWorker + t.control.toGo ≤ s.control.toGo) ∧
    (s.pc.running = true → ∀ net, ∃ t, s.workerStep config serde net = some t) ∧
    (s.pc = .panicked → instantAdd s.now config.flushTimeout = none) := by
  refine ⟨?_, ?_, ?_, (reachable_informed reached).overflow⟩
  · intro action t taken inside exits
    exact exit_leaves_drained drains reached taken inside exits
  · intro requested actions t ran
    exact closing_bounded requested ran
  · intro running net
    exact s.workerStep_runs config serde net running

def logAndCloseRun : List Action :=
  [.log (.new 0 .information "app" "only"), .closeShutdown 0, .closeTake 0] ++
    List.replicate 15 (.worker .up)

theorem close_drains_logAndClose :
    ∃ s t, runDefault 1000 logAndCloseRun = some s ∧
      s.step ClientBuilder.default.toConfig compactSerde (.worker .up) = some t ∧
      t.pc = .exited ∧ t.written.length = 1 ∧
      LeavesDrained ClientBuilder.default.toConfig compactSerde t := by
  obtain ⟨s, t, ran, taken, inside, exits, one⟩ :
      ∃ s t, runDefault 1000 logAndCloseRun = some s ∧
        s.step ClientBuilder.default.toConfig compactSerde (.worker .up) = some t ∧
        s.pc.running = true ∧ t.pc = .exited ∧ t.written.length = 1 :=
    ⟨_, _, rfl, rfl, rfl, rfl, rfl⟩
  have reached := runDefault_reaches ran
  refine ⟨s, t, ran, taken, exits, one, (close_drains rfl reached).1 _ t taken ?_ exits⟩
  intro left
  rw [left] at inside
  cases inside

end Ecapplog
