import Ecapplog.Delivery
import Ecapplog.Worker

/-! What a caller may conclude when a flush has returned true, and when a close has
returned. -/

namespace Ecapplog

variable {bufferSize : Nat} {config : Config} {serde : SerdeJson}

/-- Nothing is left to do for an entry. -/
def Sys.Settled (s : Sys) (entry : Entry) : Prop :=
  entry ∈ s.contents .written ∨ entry ∈ s.contents .discarded ∨ entry ∈ s.contents .dropped

structure Sys.Quiet (s : Sys) : Prop where
  queue : s.contents .queue = []
  hand : s.contents .hand = []

theorem Sys.Quiet.settled {s : Sys} (reached : Reachable config serde bufferSize s)
    (quiet : s.Quiet) : ∀ entry ∈ s.history.pushed, s.Settled entry := by
  intro entry pushed
  obtain ⟨place, there, _⟩ := pushed_unique_place reached entry pushed
  cases place with
  | queue =>
      rw [quiet.queue] at there
      cases there
  | hand =>
      rw [quiet.hand] at there
      cases there
  | written => exact .inl there
  | discarded => exact .inr (.inl there)
  | dropped => exact .inr (.inr there)

theorem flush_step_verdict {s t : Sys} {action : Action} {call : Nat} {drained : Bool}
    (flushing : action = .flushEnter call ∨ action = .flushWake call)
    (taken : s.step config serde action = some t) (returns : t.flushes call = .returned drained) :
    s.queue.flush = drained := by
  rcases flushing with rfl | rfl
  · rcases Sys.step_flushEnter taken with ⟨_, ⟨_, rfl⟩ | ⟨_, rfl⟩⟩
    · simp [Sys.setFlush] at returns
    · simpa [Sys.setFlush] using returns
  · rcases Sys.step_flushWake taken with ⟨_, rfl⟩
    simpa [Sys.setFlush] using returns

/-- At the step with which a flush returns true, everything pushed so far is settled. -/
theorem flush_sound {s t : Sys} {action : Action} {call : Nat}
    (reached : Reachable config serde bufferSize s)
    (flushing : action = .flushEnter call ∨ action = .flushWake call)
    (taken : s.step config serde action = some t) (returns : t.flushes call = .returned true) :
    s.Quiet ∧ ∀ entry ∈ s.history.pushed, s.Settled entry := by
  have verdict := flush_step_verdict flushing taken returns
  obtain ⟨empty, free⟩ := s.queue.flush_true.mp verdict
  have quiet : s.Quiet := by
    refine ⟨empty, ?_⟩
    cases held : s.hand with
    | none => simp [Sys.contents, held]
    | some entry =>
        have busy : s.queue.state.busy = true :=
          (reachable_accounted reached).busy (by simp [Sys.core, held])
        rw [free] at busy
        cases busy
  exact ⟨quiet, quiet.settled reached⟩

def flushRun : List Action :=
  [.log (.new 0 .information "app" "only"), .flushEnter 0] ++ List.replicate 7 (.worker .up)

theorem flush_sound_flushRun :
    ∃ s t, runDefault 1 flushRun = some s ∧
      s.step ClientBuilder.default.toConfig compactSerde (.flushWake 0) = some t ∧
      s.history.pushed.length = 1 ∧ s.Quiet ∧ ∀ entry ∈ s.history.pushed, s.Settled entry := by
  obtain ⟨s, t, ran, woken, returns, one⟩ :
      ∃ s t, runDefault 1 flushRun = some s ∧
        s.step ClientBuilder.default.toConfig compactSerde (.flushWake 0) = some t ∧
        t.flushes 0 = .returned true ∧ s.history.pushed.length = 1 :=
    ⟨_, _, rfl, rfl, rfl, rfl⟩
  exact ⟨s, t, ran, woken, one, flush_sound (runDefault_reaches ran) (.inr rfl) woken returns⟩

def Sys.Waited (s : Sys) : Prop := ∀ call, s.closes call = .returned → s.pc.running = false

def doubleCloseRun : List Action :=
  [.log (.new 0 .information "app" "only"), .closeShutdown 0, .closeTake 0, .closeShutdown 1,
    .closeTake 1]

theorem close_returns_before_worker :
    ∃ s, runDefault 1000 doubleCloseRun = some s ∧ s.contents .queue ≠ [] ∧ ¬ s.Waited :=
  ⟨_, rfl, nofun, fun waited => nomatch waited 1 rfl⟩

/-- A closer does not find the handle taken by another while the worker is running. -/
def HandleOrEnded (s : Sys) : Action → Prop
  | .closeTake _ => s.handle = true ∨ s.pc.running = false
  | _ => True

instance (s : Sys) (action : Action) : Decidable (HandleOrEnded s action) := by
  cases action <;> unfold HandleOrEnded <;> infer_instance

theorem stopped_stays {s t : Sys} {action : Action} (taken : s.step config serde action = some t)
    (stopped : s.pc.running = false) : t.pc.running = false := by
  rcases Sys.step_control taken with ⟨_, move⟩ | ⟨_, aside⟩
  · have running : s.pc.running = true := move.running
    rw [stopped] at running
    cases running
  · have same : t.pc = s.pc := aside.pc
    rw [same]
    exact stopped

theorem ended_stopped {pc : Pc} (ended : pc.ended = true) : pc.running = false := by
  cases pc with
  | exited => rfl
  | panicked => rfl
  | _ => cases ended

theorem step_closes {s t : Sys} {action : Action} (taken : s.step config serde action = some t)
    (call : Nat) (returns : t.closes call = .returned) :
    s.closes call = .returned ∨ (action = .closeTake call ∧ s.handle = false) ∨
      (action = .closeJoin call ∧ s.pc.ended = true) := by
  cases action with
  | log record =>
      cases taken
      exact .inl returns
  | report index =>
      rcases Sys.step_report taken with ⟨total, _, rfl⟩
      exact .inl returns
  | closeShutdown other =>
      rcases Sys.step_closeShutdown taken with ⟨_, rfl⟩
      by_cases this : call = other
      · simp [Sys.setClose, this] at returns
      · exact .inl (by simpa [Sys.setClose, this] using returns)
  | closeTake other =>
      rcases Sys.step_closeTake taken with ⟨_, ⟨_, rfl⟩ | ⟨gone, rfl⟩⟩
      · by_cases this : call = other
        · simp [Sys.setClose, this] at returns
        · exact .inl (by simpa [Sys.setClose, this] using returns)
      · by_cases this : call = other
        · exact .inr (.inl ⟨this ▸ rfl, gone⟩)
        · exact .inl (by simpa [Sys.setClose, this] using returns)
  | closeJoin other =>
      rcases Sys.step_closeJoin taken with ⟨_, ended, rfl⟩
      by_cases this : call = other
      · exact .inr (.inr ⟨this ▸ rfl, ended⟩)
      · exact .inl (by simpa [Sys.setClose, this] using returns)
  | flushEnter other =>
      rcases Sys.step_flushEnter taken with ⟨_, ⟨_, rfl⟩ | ⟨_, rfl⟩⟩
      · exact .inl returns
      · exact .inl returns
  | flushWake other =>
      rcases Sys.step_flushWake taken with ⟨_, rfl⟩
      exact .inl returns
  | tick elapsed =>
      cases taken
      exact .inl returns
  | worker net =>
      have move := Sys.workerStep_move config serde net taken
      have same : t.closes = s.closes := move.callers.2.1
      rw [same] at returns
      exact .inl returns

/-- In a run in which no closer finds the handle taken while the worker is running, a
returned close means a stopped worker; and no other run has that property. -/
theorem close_waits {spawned : Bool} {now : Instant} {s : Sys}
    (ran : PartialRun.ReachesWhen (Sys.step config serde) HandleOrEnded
      (Sys.build bufferSize spawned now) s) :
    s.Waited ∧ ∀ action t, s.step config serde action = some t →
      (t.Waited ↔ HandleOrEnded s action) := by
  have keeps (s : Sys) (action : Action) (t : Sys) (waited : s.Waited)
      (admitted : HandleOrEnded s action) (taken : s.step config serde action = some t) :
      t.Waited := by
    intro call returns
    rcases step_closes taken call returns with before | ⟨rfl, gone⟩ | ⟨_, ended⟩
    · exact stopped_stays taken (waited call before)
    · rcases admitted with there | stopped
      · rw [gone] at there
        cases there
      · exact stopped_stays taken stopped
    · exact stopped_stays taken (ended_stopped ended)
  have initially : (Sys.build bufferSize spawned now).Waited := by
    intro call returns
    cases returns
  have waited : s.Waited := PartialRun.invariant Sys.Waited keeps initially ran
  refine ⟨waited, ?_⟩
  intro action t taken
  constructor
  · intro after
    cases action with
    | closeTake call =>
        rcases Sys.step_closeTake taken with ⟨_, ⟨there, _⟩ | ⟨_, rfl⟩⟩
        · exact .inl there
        · exact .inr (after call (by simp [Sys.setClose]))
    | _ => trivial
  · intro admitted
    exact keeps s action t waited admitted taken

def closeInTurnRun : List Action :=
  [.closeShutdown 0, .closeTake 0, .worker .up, .worker .up, .closeJoin 0, .closeShutdown 1,
    .closeTake 1]

theorem close_waits_in_turn :
    ∃ s, PartialRun.run (PartialRun.guarded
          (Sys.step ClientBuilder.default.toConfig compactSerde) HandleOrEnded)
        (Sys.build 1000 true 0) closeInTurnRun = some s ∧ s.closes 1 = .returned ∧
      s.Waited ∧ ∀ action t, s.step ClientBuilder.default.toConfig compactSerde action = some t →
        (t.Waited ↔ HandleOrEnded s action) := by
  obtain ⟨s, ran, second⟩ :
      ∃ s, PartialRun.run (PartialRun.guarded
            (Sys.step ClientBuilder.default.toConfig compactSerde) HandleOrEnded)
          (Sys.build 1000 true 0) closeInTurnRun = some s ∧ s.closes 1 = .returned :=
    ⟨_, rfl, rfl⟩
  exact ⟨s, ran, second, close_waits (PartialRun.reachesWhen_of_run ran)⟩

end Ecapplog
