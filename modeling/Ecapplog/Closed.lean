import Ecapplog.Progress

/-! What can still happen once shutdown has been requested, and once the worker has stopped. -/

namespace Ecapplog

variable {bufferSize : Nat} {config : Config} {serde : SerdeJson}

def Pc.mayLose : Pc → Bool
  | .finishingFailed _ | .delay | .exited | .panicked | .absent => false
  | _ => true

theorem Move.mayLose {c d : Control} (move : Move config serde c d) (closing : c.shutdown = true) :
    d.pc.mayLose.toNat ≤ c.pc.mayLose.toNat := by
  cases move with
  | retry here open_ =>
      rw [closing] at open_
      cases open_
  | leaveDelay here | settle requeued here => simp [Pc.mayLose]
  | _ => simp [Pc.mayLose, *]

theorem Effect.refuses {c d : Core} (effect : Effect c d) (closing : c.shutdown = true) :
    d.shutdown = true ∧ d.accepted = c.accepted := by
  cases effect with
  | enter entry next open_ room =>
      rw [closing] at open_
      cases open_
  | evict entry oldest rest next open_ full front =>
      rw [closing] at open_
      cases open_
  | shutdown => exact ⟨rfl, rfl⟩
  | _ => exact ⟨closing, rfl⟩

structure Sys.Since (s t : Sys) : Prop where
  closing : t.queue.state.shutdown = true
  accepted : t.history.accepted = s.history.accepted
  losses : ∃ late lost, t.history.pushed = s.history.pushed ++ late ∧
    t.history.dropped = s.history.dropped ++ lost ∧ late.Sublist lost ∧
    lost.length + t.pc.mayLose.toNat ≤ late.length + s.pc.mayLose.toNat
  stopped : s.pc.running = false → t.pc = s.pc ∧ t.history.past = s.history.past ∧
    t.history.discarded = s.history.discarded ∧ t.queue.state.items = s.queue.state.items ∧
    ∃ more, t.history.reports = s.history.reports ++ more ∧
      ∀ error ∈ more, error.isQueueFull = true

namespace Sys

variable {s t u : Sys}

theorem Since.refl (closing : s.queue.state.shutdown = true) : s.Since s where
  closing := closing
  accepted := rfl
  losses := ⟨[], [], by simp⟩
  stopped := fun _ => ⟨rfl, rfl, rfl, rfl, [], by simp⟩

theorem Since.trans (first : s.Since t) (second : t.Since u) : s.Since u where
  closing := second.closing
  accepted := second.accepted.trans first.accepted
  losses := by
    obtain ⟨late, lost, pushed, dropped, part, count⟩ := first.losses
    obtain ⟨late', lost', pushed', dropped', part', count'⟩ := second.losses
    refine ⟨late ++ late', lost ++ lost', ?_, ?_, part.append part', ?_⟩
    · rw [pushed', pushed, List.append_assoc]
    · rw [dropped', dropped, List.append_assoc]
    · rw [List.length_append, List.length_append]
      omega
  stopped := by
    intro ended
    obtain ⟨pc, past, discarded, items, more, reports, full⟩ := first.stopped ended
    obtain ⟨pc', past', discarded', items', more', reports', full'⟩ :=
      second.stopped (pc ▸ ended)
    refine ⟨pc'.trans pc, past'.trans past, discarded'.trans discarded, items'.trans items,
      more ++ more', ?_, ?_⟩
    · rw [reports', reports, List.append_assoc]
    · intro error member
      exact (List.mem_append.mp member).elim (full error) (full' error)

theorem Since.aside (closing : t.queue.state.shutdown = true) (pc : t.pc = s.pc)
    (history : t.history = s.history) (items : t.queue.state.items = s.queue.state.items) :
    s.Since t where
  closing := closing
  accepted := by rw [history]
  losses := ⟨[], [], by rw [history, pc]; simp⟩
  stopped := fun _ => ⟨pc, by rw [history], by rw [history], items, [], by rw [history]; simp⟩

theorem log_since (closing : s.queue.state.shutdown = true) (record : Record) :
    s.Since (s.log record) := by
  let entry : Entry := ⟨s.history.pushed.length, record⟩
  obtain ⟨refused, loss⟩ := s.queue.push_shutdown entry closing
  have frame : (s.log record).queue = (s.queue.push entry).1 := rfl
  constructor
  · exact (s.queue.push_frame entry).2.1.trans closing
  · have shut : s.queue.isShutdown = true := closing
    change s.history.accepted ++ (if s.queue.isShutdown then [] else [entry]) = _
    rw [if_pos shut, List.append_nil]
  · have dropped : (s.log record).history.dropped = s.history.dropped ++ [entry] := by
      change s.history.dropped ++ s.queue.pushLoss entry = _
      rw [loss]
    exact ⟨[entry], [entry], rfl, dropped, .refl _, Nat.le_refl _⟩
  · intro _
    refine ⟨rfl, rfl, rfl, ?_, [], (List.append_nil _).symm, nofun⟩
    rw [frame, refused]
    rfl

theorem worker_since (closing : s.queue.state.shutdown = true) {net : Network}
    (taken : s.step config serde (.worker net) = some t) : s.Since t := by
  have move := workerStep_move config serde net taken
  obtain ⟨still, accepted⟩ := (step_effect config serde taken).refuses closing
  have accounts := workerStep_accounts taken
  refine ⟨still, accepted, ?_, ?_⟩
  · by_cases requeue : ∃ entry, s.pc = .requeue entry
    · obtain ⟨entry, here⟩ := requeue
      have at_ : t = s.atRequeue entry := by
        have stepped : s.workerStep config serde net = some t := taken
        simp only [workerStep, here] at stepped
        exact (Option.some.inj stepped).symm
      refine ⟨[], if (s.queue.pushFront entry).2.isSome then [entry] else [], ?_, ?_,
        List.nil_sublist _, ?_⟩
      · rw [accounts.1, List.append_nil]
      · rw [at_]
        rfl
      · rw [at_, here]
        have done : (s.atRequeue entry).pc = .finishingFailed (s.queue.pushFront entry).2 := rfl
        rw [done]
        split <;> simp [Pc.mayLose]
    · have kept := accounts.2.2 fun entry here => requeue ⟨entry, here⟩
      refine ⟨[], [], ?_, ?_, .refl _, ?_⟩
      · rw [accounts.1, List.append_nil]
      · rw [kept, List.append_nil]
      · exact Nat.add_le_add_left (move.mayLose closing) _
  · intro ended
    have running : s.pc.running = true := move.running
    rw [ended] at running
    cases running

theorem step_since (closing : s.queue.state.shutdown = true) {action : Action}
    (taken : s.step config serde action = some t) : s.Since t := by
  cases action with
  | worker net => exact worker_since closing taken
  | log record =>
      cases taken
      exact log_since closing record
  | report index =>
      obtain ⟨total, _, rfl⟩ := step_report taken
      refine ⟨closing, rfl, ⟨[], [], by simp [Sys.report]⟩, fun _ => ?_⟩
      refine ⟨rfl, rfl, rfl, rfl, [.queueFull s.queue.capacity total], rfl, ?_⟩
      intro error member
      rw [List.mem_singleton.mp member]
      rfl
  | closeShutdown call =>
      obtain ⟨_, rfl⟩ := step_closeShutdown taken
      exact .aside rfl rfl rfl rfl
  | closeTake call =>
      rw [step_caller config serde taken (.inl ⟨call, .inl rfl⟩)]
      exact .aside closing rfl rfl rfl
  | closeJoin call =>
      rw [step_caller config serde taken (.inl ⟨call, .inr rfl⟩)]
      exact .aside closing rfl rfl rfl
  | flushEnter call =>
      rw [step_caller config serde taken (.inr ⟨call, .inl rfl⟩)]
      exact .aside closing rfl rfl rfl
  | flushWake call =>
      rw [step_caller config serde taken (.inr ⟨call, .inr rfl⟩)]
      exact .aside closing rfl rfl rfl
  | tick elapsed =>
      cases taken
      exact .aside closing rfl rfl rfl

end Sys

/-- From the request for shutdown on, whatever the threads do, nothing more is accepted: what
is logged is lost, in that order, and of what was accepted at most one entry with it. And
once the worker has stopped, nothing more is written, discarded, taken from the queue or
lost, and nothing but a full queue reported. -/
theorem closed_for_good {s t : Sys} (requested : s.queue.isShutdown = true)
    (ran : PartialRun.Reaches (Sys.step config serde) s t) :
    t.history.accepted = s.history.accepted ∧
    (∃ late lost, t.history.pushed = s.history.pushed ++ late ∧
      t.history.dropped = s.history.dropped ++ lost ∧ late.Sublist lost ∧
      lost.length ≤ late.length + 1 ∧ (s.pc.running = false → lost = late)) ∧
    (s.pc.running = false → t.connections = s.connections ∧
      t.history.discarded = s.history.discarded ∧
      t.queue.state.items = s.queue.state.items ∧
      ∃ more, t.history.reports = s.history.reports ++ more ∧
        ∀ error ∈ more, error.isQueueFull = true) := by
  have since : s.Since t :=
    PartialRun.invariant s.Since
      (fun _ _ _ since _ taken => since.trans (Sys.step_since since.closing taken))
      (.refl requested) ran
  refine ⟨since.accepted, ?_, ?_⟩
  · obtain ⟨late, lost, pushed, dropped, part, count⟩ := since.losses
    refine ⟨late, lost, pushed, dropped, part, ?_, fun ended => ?_⟩
    · have one := Bool.toNat_le s.pc.mayLose
      omega
    · have none_ : s.pc.mayLose = false := by
        cases here : s.pc <;> simp [here, Pc.running, Pc.mayLose] at ended ⊢
      rw [none_] at count
      simp only [Bool.toNat_false, Nat.add_zero] at count
      exact (part.eq_of_length_le ((Nat.le_add_right _ _).trans count)).symm
  · intro ended
    obtain ⟨pc, past, discarded, items, reports⟩ := since.stopped ended
    refine ⟨?_, discarded, items, reports⟩
    rw [Sys.connections, Sys.connections, pc, past]

def closedRun : List Action :=
  let log (message : String) := Action.log (.new 0 .information "app" message)
  log "first" :: List.replicate 5 (.worker .up) ++ [log "second", .closeShutdown 0]

def lateRun : List Action :=
  [.log (.new 0 .information "app" "third"), .worker (.down 3), .worker .up]

theorem closed_for_good_late :
    ∃ s t, runDefault 1 closedRun = some s ∧
      PartialRun.run (Sys.step ClientBuilder.default.toConfig compactSerde) s lateRun = some t ∧
      s.history.dropped = [] ∧ t.history.dropped.map Entry.seq = [2, 0] ∧
      t.history.accepted = s.history.accepted ∧
      ∃ late lost, t.history.pushed = s.history.pushed ++ late ∧
        t.history.dropped = s.history.dropped ++ lost ∧ late.Sublist lost ∧
        lost.length ≤ late.length + 1 ∧ (s.pc.running = false → lost = late) := by
  obtain ⟨s, t, before, after, requested, nothing, lost⟩ :
      ∃ s t, runDefault 1 closedRun = some s ∧
        PartialRun.run (Sys.step ClientBuilder.default.toConfig compactSerde) s lateRun = some t ∧
        s.queue.isShutdown = true ∧ s.history.dropped = [] ∧
        t.history.dropped.map Entry.seq = [2, 0] :=
    ⟨_, _, rfl, rfl, rfl, rfl, rfl⟩
  have final := closed_for_good requested (PartialRun.reaches_of_run after)
  exact ⟨s, t, before, after, nothing, lost, final.1, final.2.1⟩

end Ecapplog
