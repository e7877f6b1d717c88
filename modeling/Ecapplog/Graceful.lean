import Ecapplog.Progress

/-! Closing with `flush_on_close` while the server is there: what was queued gets out. -/

namespace Ecapplog

variable {bufferSize : Nat} {config : Config} {serde : SerdeJson} {limit : Instant}

/-- The worker moves only before `limit`, and meets no failure of the network. -/
def InTime (limit : Instant) (s : Sys) : Action → Prop
  | .worker net => net.Good ∧ s.now < limit
  | _ => True

instance (s : Sys) (action : Action) : Decidable (InTime limit s action) :=
  match action with
  | .worker net => inferInstanceAs (Decidable (net.Good ∧ s.now < limit))
  | .log _ | .report _ | .closeShutdown _ | .closeTake _ | .closeJoin _ | .flushEnter _
  | .flushWake _ | .tick _ => .isTrue trivial

/-- No deadline for the drain, whether set or yet to be set, comes before `limit`, and setting
one until then does not overflow. -/
structure Ample (config : Config) (limit : Instant) (c : Control) : Prop where
  known : ∀ deadline, c.flushDeadline = some deadline → limit ≤ deadline
  later : limit ≤ c.now + config.flushTimeout
  sum : instantAdd limit config.flushTimeout ≠ none

theorem instantAdd_eq {now deadline : Instant} {duration : Duration}
    (sum : instantAdd now duration = some deadline) : deadline = now + duration := by
  unfold instantAdd at sum
  split at sum
  · exact (Option.some.inj sum).symm
  · cases sum

structure Steady (config : Config) (limit : Instant) (c : Control) : Prop where
  requested : c.shutdown = true
  unbroken : c.pc.failing = false
  ample : Ample config limit c
  ended : c.pc.running = false → c.pc = .exited ∧ c.items = []

theorem Steady.onward {c d : Control} (steady : Steady config limit c)
    (shutdown : d.shutdown = c.shutdown) (deadline : d.flushDeadline = c.flushDeadline)
    (now : d.now = c.now) (unbroken : d.pc.failing = false)
    (ended : d.pc.running = false → d.pc = .exited ∧ d.items = []) : Steady config limit d where
  requested := shutdown.trans steady.requested
  unbroken := unbroken
  ample := by
    refine ⟨?_, ?_, steady.ample.sum⟩
    · rw [deadline]
      exact steady.ample.known
    · rw [now]
      exact steady.ample.later
  ended := ended

theorem Bystander.steady {c d : Control} (aside : Bystander c d) (steady : Steady config limit c) :
    Steady config limit d where
  requested := aside.shutdown steady.requested
  unbroken := by
    rw [aside.pc]
    exact steady.unbroken
  ample := by
    refine ⟨?_, ?_, steady.ample.sum⟩
    · rw [aside.flushDeadline]
      exact steady.ample.known
    · exact steady.ample.later.trans (Nat.add_le_add_right aside.now _)
  ended := by
    rw [aside.pc, aside.items steady.requested]
    exact steady.ended

theorem Sys.workerStep_steady {s t : Sys} {net : Network} (drains : config.flushOnClose = true)
    (informed : Informed config s.control) (steady : Steady config limit s.control)
    (good : net.Good) (early : s.control.now < limit)
    (taken : s.workerStep config serde net = some t) : Steady config limit t.control := by
  obtain ⟨connects, announces, writes⟩ := workerStep_good good taken
  have move := workerStep_move config serde net taken
  generalize s.control = c, t.control = d at *
  have unrequested (running : c.shutdown = false) : False := by
    rw [steady.requested] at running
    cases running
  have undrained (drops : config.flushOnClose = false) : False := by
    rw [drains] at drops
    cases drops
  have broken (failing : c.pc.failing = true) : False := by
    rw [steady.unbroken] at failing
    cases failing
  cases move with
  | wantsDrain here closing _ => exact steady.onward rfl rfl rfl rfl nofun
  | nothingQueued here empty => exact steady.onward rfl rfl rfl rfl fun _ => ⟨rfl, empty⟩
  | backlog here queued => exact steady.onward rfl rfl rfl rfl nofun
  | remember stream deadline here known => exact steady.onward rfl rfl rfl rfl nofun
  | initiate stream deadline here unknown sum =>
      refine ⟨steady.requested, rfl, ⟨fun fresh set_ => ?_, steady.ample.later, steady.ample.sum⟩,
        nofun⟩
      rw [← Option.some.inj set_, instantAdd_eq sum]
      exact steady.ample.later
  | overflow stream here unknown sum =>
      exact absurd (instantAdd_none_later (Nat.le_of_lt early) sum) steady.ample.sum
  | expired deadline stream here late =>
      have known := steady.ample.known deadline (informed.deadline deadline stream here)
      exact absurd (late.trans_lt early) (Nat.not_lt.mpr known)
  | reconnect deadline here _ => exact steady.onward rfl rfl rfl rfl nofun
  | resume deadline stream here _ => exact steady.onward rfl rfl rfl rfl nofun
  | connected here => exact steady.onward rfl rfl rfl rfl nofun
  | announced stream here => exact steady.onward rfl rfl rfl rfl nofun
  | keepDraining stream here closing _ => exact steady.onward rfl rfl rfl rfl nofun
  | take stream entry rest here front => exact steady.onward rfl rfl rfl rfl nofun
  | drained stream here empty closing =>
      exact steady.onward rfl rfl rfl rfl fun _ => ⟨rfl, empty⟩
  | condemn stream entry here _ => exact steady.onward rfl rfl rfl rfl nofun
  | send stream entry here _ => exact steady.onward rfl rfl rfl rfl nofun
  | finish stream here => exact steady.onward rfl rfl rfl rfl nofun
  -- the network does not fail, and has not failed
  | unreachable here => cases connects here
  | unannounced stream part here _ _ =>
      obtain ⟨announced, there⟩ := announces stream here
      cases there
  | breakOff stream entry part here _ _ _ =>
      obtain ⟨written, there⟩ := writes stream entry here
      cases there
  | leaveDelay here _ => exact (broken (by rw [here]; rfl)).elim
  | retry here running => exact (unrequested running).elim
  | putBack entry here => exact (broken (by rw [here]; rfl)).elim
  | giveUp entry total here _ => exact (broken (by rw [here]; rfl)).elim
  | settle requeued here => exact (broken (by rw [here]; rfl)).elim
  -- and the drain is both requested and wanted
  | proceed here running => exact (unrequested running).elim
  | serve stream here running => exact (unrequested running).elim
  | idle stream here _ running => exact (unrequested running).elim
  | leaveHead here _ drops => exact (undrained drops).elim
  | leaveInner stream here _ drops => exact (undrained drops).elim

theorem Sys.log_spares {s r : Sys} (reached : Reachable config serde bufferSize r)
    (requested : r.queue.isShutdown = true) (older : s.history.pushed <+: r.history.pushed)
    (spares : s.Spares r) (record : Record) : s.Spares (r.log record) := by
  intro entry pushed dropped
  let refused : Entry := ⟨r.history.pushed.length, record⟩
  have lost := (r.queue.push_shutdown refused requested).2
  have dropped : entry ∈ r.history.dropped ++ r.queue.pushLoss refused := dropped
  rw [lost] at dropped
  rcases List.mem_append.mp dropped with before | now
  · exact spares entry pushed before
  · exfalso
    have taken : r.step config serde (.log record) = some (r.log record) := rfl
    have fresh := pushed_nodup (reached.step taken)
    have member := older.subset pushed
    rw [List.mem_singleton.mp now] at member
    exact (List.nodup_append.mp fresh).2.2 refused member refused (.head _) rfl

theorem Sys.step_spares {s r t : Sys} {action : Action}
    (reached : Reachable config serde bufferSize r) (steady : Steady config limit r.control)
    (older : s.history.pushed <+: r.history.pushed) (spares : s.Spares r)
    (taken : r.step config serde action = some t) : s.Spares t := by
  have away (entry : Entry) : r.pc ≠ .requeue entry := by
    intro here
    have unbroken : r.pc.failing = false := steady.unbroken
    rw [here] at unbroken
    cases unbroken
  cases logs : action.isLog with
  | true =>
      cases action with
      | log record =>
          cases taken
          exact log_spares reached steady.requested older spares record
      | _ => cases logs
  | false =>
      have same := (step_silent logs taken).2 away
      intro entry pushed dropped
      exact spares entry pushed (Spares.of_eq same entry (older.subset pushed) dropped)

structure DrainedSoFar (config : Config) (serde : SerdeJson) (bufferSize : Nat) (limit : Instant)
    (s t : Sys) : Prop where
  reached : Reachable config serde bufferSize t
  steady : Steady config limit t.control
  since : s.core.Extends t.core
  spares : s.Spares t

theorem DrainedSoFar.step {s r t : Sys} {action : Action} (drains : config.flushOnClose = true)
    (inv : DrainedSoFar config serde bufferSize limit s r) (inTime : InTime limit r action)
    (taken : r.step config serde action = some t) :
    DrainedSoFar config serde bufferSize limit s t where
  reached := inv.reached.step taken
  steady := by
    cases action with
    | worker net =>
        exact Sys.workerStep_steady drains (reachable_informed inv.reached) inv.steady inTime.1
          inTime.2 taken
    | _ =>
        rcases Sys.step_control taken with ⟨mine, _⟩ | ⟨_, aside⟩
        · cases mine
        · exact aside.steady inv.steady
  since := inv.since.trans (Sys.step_effect config serde taken).extends
  spares := Sys.step_spares inv.reached inv.steady inv.since.pushed inv.spares taken

theorem drained_so_far {s t : Sys} (drains : config.flushOnClose = true)
    (reached : Reachable config serde bufferSize s) (requested : s.queue.isShutdown = true)
    (running : s.pc.running = true) (unbroken : s.pc.failing = false)
    (ample : Ample config limit s.control)
    (ran : PartialRun.ReachesWhen (Sys.step config serde) (InTime limit) s t) :
    DrainedSoFar config serde bufferSize limit s t := by
  refine PartialRun.invariant (DrainedSoFar config serde bufferSize limit s)
    (fun _ _ _ inv inTime taken => inv.step drains inTime taken)
    ⟨reached, ⟨requested, unbroken, ample, ?_⟩, Effect.extends .silent, fun _ _ => id⟩ ran
  intro stopped
  rw [show s.control.pc.running = true from running] at stopped
  cases stopped

theorem Control.toGo_pos {c : Control} (running : c.pc.running = true) : 0 < c.toGo := by
  unfold Control.toGo
  split
  case h_16 here => rw [here] at running; cases running
  case h_17 here => rw [here] at running; cases running
  case h_18 here => rw [here] at running; cases running
  all_goals omega

structure Sys.Delivered (config : Config) (serde : SerdeJson) (s t : Sys) : Prop where
  exited : t.pc = .exited
  quiet : t.Quiet
  out : ∀ entry, entry ∈ s.contents .queue ∨ entry ∈ s.contents .hand →
    entry ∈ t.contents .written ∨ entry ∈ t.contents .discarded
  returns : ∀ call, t.closes call = .joining →
    ∃ u, t.step config serde (.closeJoin call) = some u ∧ u.closes call = .returned

/-- With a drain wanted and requested, no failed connection at hand, time enough and a server
that stays there, the worker can leave its loop only when all is delivered, and it has only so
many moves until then. -/
theorem close_delivers {s t : Sys} (drains : config.flushOnClose = true)
    (reached : Reachable config serde bufferSize s) (requested : s.queue.isShutdown = true)
    (running : s.pc.running = true) (unbroken : s.pc.failing = false)
    (ample : Ample config limit s.control)
    (ran : PartialRun.ReachesWhen (Sys.step config serde) (InTime limit) s t) :
    (t.pc.running = true ∨ s.Delivered config serde t) ∧
      ∀ actions u, PartialRun.run (Sys.step config serde) s actions = some u →
        u.pc.running = true → actions.countP Action.isWorker < s.control.toGo := by
  constructor
  · have inv := drained_so_far drains reached requested running unbroken ample ran
    cases ended : t.pc.running with
    | true => exact .inl rfl
    | false =>
        obtain ⟨exited, empty⟩ := inv.steady.ended ended
        have exited : t.pc = .exited := exited
        have quiet : t.Quiet := ⟨empty, by simp [Sys.contents, Sys.hand, exited]⟩
        refine .inr ⟨exited, quiet, quiet.served reached ran.reaches inv.spares, ?_⟩
        intro call joining
        have out : t.pc.ended = true := by
          rw [exited]
          rfl
        refine ⟨t.setClose call .returned, ?_, ?_⟩
        · simp [Sys.step, joining, out]
        · simp [Sys.setClose]
  · intro actions u later moving
    have bound := closing_bounded requested later
    have left : 0 < u.control.toGo := Control.toGo_pos moving
    omega

theorem ample_fresh {c : Control} (fresh : c.flushDeadline = none) (now : c.now = 0) :
    Ample ClientBuilder.default.toConfig second c := by
  constructor
  · rw [fresh]
    exact nofun
  · rw [now]
    decide
  · decide

def closingRun : List Action :=
  [.log (.new 0 .information "app" "only"), .closeShutdown 0, .closeTake 0]

theorem close_delivers_closing :
    ∃ s t, runDefault 1000 closingRun = some s ∧ s.contents .queue ≠ [] ∧
      PartialRun.run (PartialRun.guarded
          (Sys.step ClientBuilder.default.toConfig compactSerde) (InTime second)) s
        (List.replicate 16 (.worker .up)) = some t ∧ t.pc.running = false ∧
      (t.pc.running = true ∨ s.Delivered ClientBuilder.default.toConfig compactSerde t) ∧
      ∀ actions u,
        PartialRun.run (Sys.step ClientBuilder.default.toConfig compactSerde) s actions = some u →
          u.pc.running = true → actions.countP Action.isWorker < s.control.toGo := by
  obtain ⟨s, t, ran, queued, later, ended⟩ :
      ∃ s t, runDefault 1000 closingRun = some s ∧ s.contents .queue ≠ [] ∧
        PartialRun.run (PartialRun.guarded
            (Sys.step ClientBuilder.default.toConfig compactSerde) (InTime second)) s
          (List.replicate 16 (.worker .up)) = some t ∧ t.pc.running = false :=
    ⟨_, _, rfl, nofun, rfl, rfl⟩
  obtain ⟨requested, running, unbroken, fresh, now⟩ :
      s.queue.isShutdown = true ∧ s.pc.running = true ∧ s.pc.failing = false ∧
        s.flushDeadline = none ∧ s.now = 0 := by
    cases ran
    exact ⟨rfl, rfl, rfl, rfl, rfl⟩
  exact ⟨s, t, ran, queued, later, ended, close_delivers rfl (runDefault_reaches ran) requested
    running unbroken (ample_fresh fresh now) (PartialRun.reachesWhen_of_run later)⟩

end Ecapplog
