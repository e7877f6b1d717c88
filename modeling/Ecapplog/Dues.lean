import Mathlib.Data.List.Perm.Basic
import Ecapplog.Effect

/-! The reports of a full queue that the logging threads and the worker have made or are
about to make, and what one step of the client does to them. -/

namespace Ecapplog

variable {config : Config} {serde : SerdeJson}

def Error.isQueueFull : Error → Bool
  | .queueFull _ _ => true
  | _ => false

def Pc.owed : Pc → List UInt64
  | .finishingFailed requeued => requeued.toList
  | _ => []

/-- The part of the state that accounts for reports of a full queue. -/
structure Dues where
  capacity : Nat
  reported : List Error
  owed : List UInt64
  own : List UInt64
  dropped : List Entry

def Sys.dues (s : Sys) : Dues where
  capacity := s.queue.capacity
  reported := s.history.reports.filter Error.isQueueFull
  owed := s.owed
  own := s.pc.owed
  dropped := s.history.dropped

def Dues.all (d : Dues) : List Error :=
  d.reported ++ (d.owed ++ d.own).map (Error.queueFull d.capacity)

def Queue.pushFrontLoss {ρ : Type} (q : Queue ρ) (record : ρ) : List ρ :=
  if q.capacity ≤ q.state.items.length then [record] else []

/-- An entry lost in an operation of the queue, with what the operation found in the
queue, what it left there and what it returned. -/
structure Loss where
  entry : Entry
  found : List Entry
  left : List Entry
  total : Option UInt64

def Loss.of (before : Queue Entry) (after : Queue Entry × Option UInt64) (entry : Entry) : Loss :=
  ⟨entry, before.state.items, after.1.state.items, after.2⟩

def Sys.loses (s : Sys) : Action → List Loss
  | .log record =>
      let entry : Entry := ⟨s.history.pushed.length, record⟩
      (s.queue.pushLoss entry).map (Loss.of s.queue (s.queue.push entry))
  | .worker _ =>
      match s.pc with
      | .requeue entry =>
          (s.queue.pushFrontLoss entry).map (Loss.of s.queue (s.queue.pushFront entry))
      | _ => []
  | _ => []

def Loss.due (capacity : Nat) (loss : Loss) : Option Error :=
  loss.total.map (Error.queueFull capacity)

inductive Dues.Step (d : Dues) : List Loss → Dues → Prop where
  | silent : Dues.Step d [] d
  | log (loss : Loss) (total : UInt64) (returned : loss.total = some total) :
      Dues.Step d [loss] { d with
        owed := d.owed ++ [total]
        dropped := d.dropped ++ [loss.entry] }
  | requeue (loss : Loss) (total : UInt64) (returned : loss.total = some total)
      (settled : d.own = []) :
      Dues.Step d [loss] { d with own := [total], dropped := d.dropped ++ [loss.entry] }
  | logReports (index : Nat) (total : UInt64) (owed : d.owed[index]? = some total) :
      Dues.Step d [] { d with
        reported := d.reported ++ [.queueFull d.capacity total]
        owed := d.owed.eraseIdx index }
  | workerReports (total : UInt64) (owed : d.own = [total]) :
      Dues.Step d [] { d with
        reported := d.reported ++ [.queueFull d.capacity total]
        own := [] }

theorem Dues.Step.of_eq {d d' : Dues} (same : d' = d) : Dues.Step d [] d' := by
  rw [same]
  exact .silent

theorem Dues.Step.capacity {d d' : Dues} {losses : List Loss} (step : Dues.Step d losses d') :
    d'.capacity = d.capacity := by
  cases step with
  | _ => rfl

theorem Dues.Step.dropped {d d' : Dues} {losses : List Loss} (step : Dues.Step d losses d') :
    d'.dropped = d.dropped ++ losses.map Loss.entry := by
  cases step with
  | log loss total returned => rfl
  | requeue loss total returned settled => rfl
  | _ => exact (List.append_nil _).symm

theorem Dues.Step.all {d d' : Dues} {losses : List Loss} (step : Dues.Step d losses d') :
    (d'.all.map some).Perm (d.all.map some ++ losses.map (Loss.due d.capacity)) := by
  have grow {owed : List UInt64} {total : UInt64} (more : owed.Perm (d.owed ++ d.own ++ [total])) :
      ((d.reported ++ owed.map (Error.queueFull d.capacity)).map some).Perm
        (d.all.map some ++ [some (.queueFull d.capacity total)]) := by
    simpa [Dues.all] using ((more.map _).append_left d.reported).map some
  have make {owed : List UInt64} {total : UInt64} (fewer : (total :: owed).Perm (d.owed ++ d.own)) :
      ((d.reported ++ [Error.queueFull d.capacity total] ++
        owed.map (Error.queueFull d.capacity)).map some).Perm (d.all.map some) := by
    simpa [Dues.all] using ((fewer.map _).append_left d.reported).map some
  cases step with
  | silent => rw [List.map_nil, List.append_nil]
  | log loss total returned =>
      rw [List.map_singleton, Loss.due, returned]
      apply grow
      rw [List.append_assoc, List.append_assoc]
      exact List.perm_append_comm.append_left _
  | requeue loss total returned settled =>
      rw [List.map_singleton, Loss.due, returned]
      apply grow
      rw [settled, List.append_nil]
  | logReports index total owed =>
      rw [List.map_nil, List.append_nil]
      apply make
      obtain ⟨inside, here⟩ := List.getElem?_eq_some_iff.mp owed
      rw [← here]
      exact (List.getElem_cons_eraseIdx_perm inside).append_right d.own
  | workerReports total owed =>
      rw [List.map_nil, List.append_nil]
      apply make
      rw [owed, List.append_nil]
      exact (List.perm_append_singleton total d.owed).symm

namespace Sys

variable (net : Network)

theorem move_dues (s : Sys) {old pc : Pc} (here : s.pc = old) (owes : pc.owed = old.owed) :
    { s with pc := pc }.dues = s.dues := by
  subst here
  simp only [dues, owes]

theorem leave_dues (s : Sys) {old pc : Pc} (stream : Option Stream) (here : s.pc = old)
    (owes : pc.owed = old.owed) : (s.leave stream pc).dues = s.dues := by
  subst here
  simp only [leave, dues, owes]

theorem report_dues (s : Sys) {error : Error} (other : error.isQueueFull = false) :
    (s.report error).dues = s.dues := by
  simp [report, dues, other]

theorem atHead_dues (s : Sys) (here : s.pc = .head) : (s.atHead config).dues = s.dues := by
  unfold atHead
  split
  · split
    · exact s.move_dues here rfl
    · exact s.move_dues here rfl
  · exact s.move_dues here rfl

theorem atEmptyCheck_dues (s : Sys) (here : s.pc = .emptyCheck) :
    s.atEmptyCheck.dues = s.dues := by
  unfold atEmptyCheck
  split
  · exact s.move_dues here rfl
  · exact s.move_dues here rfl

theorem atDeadline_dues (s : Sys) (stream : Option Stream) (here : s.pc = .deadline stream) :
    (s.atDeadline config stream).dues = s.dues := by
  unfold atDeadline
  split
  · exact s.move_dues here rfl
  · split
    · exact s.move_dues here rfl
    · exact s.leave_dues _ here rfl

theorem atExpiry_dues (s : Sys) (deadline : Instant) (stream : Option Stream)
    (here : s.pc = .expiry deadline stream) : (s.atExpiry deadline stream).dues = s.dues := by
  unfold atExpiry
  split
  · exact s.leave_dues _ here rfl
  · split
    · exact s.move_dues here rfl
    · exact s.move_dues here rfl

theorem atConnecting_dues (s : Sys) (here : s.pc = .connecting) :
    (s.atConnecting config net).dues = s.dues := by
  unfold atConnecting
  split
  · exact s.move_dues here rfl
  · rename_i error failed
    have other : error.isQueueFull = false := by
      obtain ⟨address, source, rfl | rfl⟩ := connect_error _ _ _ _ error failed
      · rfl
      · rfl
    calc
      { (s.report error).network false with pc := .delay }.dues = (s.report error).dues :=
        (s.report error).move_dues here rfl
      _ = s.dues := s.report_dues other

theorem atBanner_dues (s : Sys) (stream : Stream) (here : s.pc = .banner stream) :
    (s.atBanner config net stream).dues = s.dues := by
  unfold atBanner
  simp only
  split
  · exact s.move_dues here rfl
  · rename_i source _
    have reported : (s.report (.write source)).dues = s.dues := s.report_dues rfl
    rw [← reported]
    exact leave_dues _ _ here rfl

theorem atDelay_dues (s : Sys) (here : s.pc = .delay) : s.atDelay.dues = s.dues := by
  unfold atDelay
  split
  · exact s.move_dues here rfl
  · exact s.move_dues here rfl

theorem atInner_dues (s : Sys) (stream : Stream) (here : s.pc = .inner stream) :
    (s.atInner config stream).dues = s.dues := by
  unfold atInner
  split
  · split
    · exact s.move_dues here rfl
    · exact s.leave_dues _ here rfl
  · exact s.move_dues here rfl

theorem atPopping_dues (s : Sys) (stream : Stream) (here : s.pc = .popping stream) :
    (s.atPopping stream).dues = s.dues := by
  cases items : s.queue.state.items with
  | cons entry rest =>
      simp only [atPopping, Queue.pop, items]
      exact s.move_dues here rfl
  | nil =>
      cases closed : s.queue.state.shutdown with
      | true =>
          simp only [atPopping, Queue.pop, items, closed, if_true]
          exact s.leave_dues _ here rfl
      | false =>
          simp only [atPopping, Queue.pop, items, closed, Bool.false_eq_true, if_false]
          exact s.move_dues here rfl

theorem atWriting_dues (s : Sys) (stream : Stream) (entry : Entry)
    (here : s.pc = .writing stream entry) :
    (s.atWriting serde net stream entry).dues = s.dues := by
  rcases writeRecord_cases serde entry.record s.json s.frame net.failure with
    ⟨_, _, error, condemns, result⟩ | ⟨_, _, result⟩ | ⟨_, _, _, source, result⟩
  · have other : error.isQueueFull = false := by
      cases error with
      | queueFull capacity total => cases condemns
      | _ => rfl
    simp only [atWriting, result]
    rw [← s.report_dues other]
    exact (s.report error).move_dues here rfl
  · simp only [atWriting, result]
    exact s.move_dues here rfl
  · have reported : (s.report (.write source)).dues = s.dues := s.report_dues rfl
    simp only [atWriting, result]
    rw [← reported]
    exact leave_dues _ _ here rfl

theorem log_dues (s : Sys) (record : Record) :
    Dues.Step s.dues (s.loses (.log record)) (s.log record).dues := by
  let entry : Entry := ⟨s.history.pushed.length, record⟩
  cases closed : s.queue.state.shutdown with
  | true =>
      obtain ⟨pushed, loss⟩ := s.queue.push_shutdown entry closed
      have losses : s.loses (.log record) = [Loss.of s.queue s.queue.countDrop entry] := by
        simp [loses, entry, pushed, loss]
      have now : (s.log record).dues = { s.dues with
          owed := s.dues.owed ++ [s.queue.dropped + 1]
          dropped := s.dues.dropped ++ [entry] } := by
        simp [log, dues, entry, pushed, loss, Queue.countDrop]
      rw [losses, now]
      exact .log _ _ rfl
  | false =>
      rcases Nat.lt_or_ge s.queue.state.items.length s.queue.capacity with room | full
      · obtain ⟨pushed, loss⟩ := s.queue.push_room entry closed room
        have losses : s.loses (.log record) = [] := by simp [loses, entry, loss]
        rw [losses]
        apply Dues.Step.of_eq
        simp [log, dues, entry, pushed, loss]
      · obtain ⟨pushed, loss⟩ := s.queue.push_full entry closed full
        cases front : s.queue.state.items with
        | nil =>
            have positive := s.queue.capacity_pos
            rw [front, List.length_nil] at full
            omega
        | cons oldest rest =>
            have losses : s.loses (.log record) =
                [Loss.of s.queue (s.queue.push entry) oldest] := by
              simp [loses, entry, loss, front]
            have now : (s.log record).dues = { s.dues with
                owed := s.dues.owed ++ [s.queue.dropped + 1]
                dropped := s.dues.dropped ++ [oldest] } := by
              simp [log, dues, entry, pushed, loss, front]
            rw [losses, now]
            exact .log _ _ (by rw [Loss.of, pushed])

theorem atRequeue_dues (s : Sys) (entry : Entry) (here : s.pc = .requeue entry) :
    Dues.Step s.dues (s.loses (.worker net)) (s.atRequeue entry).dues := by
  rcases Nat.lt_or_ge s.queue.state.items.length s.queue.capacity with room | full
  · have losses : s.loses (.worker net) = [] := by
      simp [loses, here, Queue.pushFrontLoss, Nat.not_le.mpr room]
    rw [losses]
    apply Dues.Step.of_eq
    simp [atRequeue, s.queue.pushFront_room entry room, dues, here, Pc.owed]
  · have losses : s.loses (.worker net) = [Loss.of s.queue s.queue.countDrop entry] := by
      simp [loses, here, Queue.pushFrontLoss, s.queue.pushFront_full entry full, full]
    have now : (s.atRequeue entry).dues = { s.dues with
        own := [s.queue.dropped + 1]
        dropped := s.dues.dropped ++ [entry] } := by
      simp [atRequeue, s.queue.pushFront_full entry full, Queue.countDrop, dues, Pc.owed]
    rw [losses, now]
    exact .requeue _ _ rfl (by simp [dues, here, Pc.owed])

theorem atFinishingFailed_dues (s : Sys) (requeued : Option UInt64)
    (here : s.pc = .finishingFailed requeued) :
    Dues.Step s.dues [] (s.atFinishingFailed requeued).dues := by
  cases requeued with
  | none => exact .of_eq (s.move_dues here rfl)
  | some total =>
      have now : (s.atFinishingFailed (some total)).dues = { s.dues with
          reported := s.dues.reported ++ [.queueFull s.dues.capacity total]
          own := [] } := by
        simp [atFinishingFailed, report, dues, Queue.finish, Pc.owed, Error.isQueueFull]
      rw [now]
      exact .workerReports total (by simp [dues, here, Pc.owed])

theorem workerStep_dues {s t : Sys} (taken : s.workerStep config serde net = some t) :
    Dues.Step s.dues (s.loses (.worker net)) t.dues := by
  -- only the re-queue can lose an entry
  have spared (away : ∀ entry, s.pc ≠ .requeue entry) : s.loses (.worker net) = [] := by
    rw [loses]
    split
    · rename_i entry here
      exact absurd here (away entry)
    · rfl
  unfold workerStep at taken
  split at taken
  case h_12 here => cases taken; exact s.atRequeue_dues net _ here
  all_goals
    rename_i here
    rw [spared (fun entry elsewhere => by rw [here] at elsewhere; cases elsewhere)]
  case h_1 here => cases taken; exact .of_eq (s.atHead_dues here)
  case h_2 here => cases taken; exact .of_eq (s.atEmptyCheck_dues here)
  case h_3 here => cases taken; exact .of_eq (s.atDeadline_dues _ here)
  case h_4 here => cases taken; exact .of_eq (s.atExpiry_dues _ _ here)
  case h_5 here => cases taken; exact .of_eq (s.atConnecting_dues net here)
  case h_6 here => cases taken; exact .of_eq (s.atBanner_dues net _ here)
  case h_7 here => cases taken; exact .of_eq (s.atDelay_dues here)
  case h_8 here => cases taken; exact .of_eq (s.atInner_dues _ here)
  case h_9 here => cases taken; exact .of_eq (s.atPopping_dues _ here)
  case h_10 here => cases taken; exact .of_eq (s.atWriting_dues net _ _ here)
  case h_11 here => cases taken; exact .of_eq (s.move_dues here rfl)
  case h_13 here => cases taken; exact s.atFinishingFailed_dues _ here
  all_goals cases taken

theorem step_dues {s t : Sys} {action : Action} (taken : s.step config serde action = some t) :
    Dues.Step s.dues (s.loses action) t.dues := by
  cases action with
  | log record =>
      cases taken
      exact s.log_dues record
  | report index =>
      rcases step_report taken with ⟨total, owed, rfl⟩
      have now : { s.report (.queueFull s.queue.capacity total) with
            owed := s.owed.eraseIdx index }.dues =
          { s.dues with
            reported := s.dues.reported ++ [.queueFull s.dues.capacity total]
            owed := s.dues.owed.eraseIdx index } := by
        simp [report, dues, Error.isQueueFull]
      rw [now]
      exact .logReports index total owed
  | closeShutdown call =>
      rcases step_closeShutdown taken with ⟨_, rfl⟩
      exact .silent
  | closeTake call =>
      rw [step_caller config serde taken (.inl ⟨call, .inl rfl⟩)]
      exact .silent
  | closeJoin call =>
      rw [step_caller config serde taken (.inl ⟨call, .inr rfl⟩)]
      exact .silent
  | flushEnter call =>
      rw [step_caller config serde taken (.inr ⟨call, .inl rfl⟩)]
      exact .silent
  | flushWake call =>
      rw [step_caller config serde taken (.inr ⟨call, .inr rfl⟩)]
      exact .silent
  | tick elapsed =>
      cases taken
      exact .silent
  | worker net => exact workerStep_dues net taken

end Sys

structure Balanced (d : Dues) (losses : List Loss) : Prop where
  balance : (d.all.map some).Perm (losses.map (Loss.due d.capacity))
  dropped : losses.map Loss.entry = d.dropped

theorem Balanced.step {d d' : Dues} {losses more : List Loss} (books : Balanced d losses)
    (step : Dues.Step d more d') : Balanced d' (losses ++ more) where
  balance := by
    rw [step.capacity, List.map_append]
    exact step.all.trans (books.balance.append_right _)
  dropped := by rw [List.map_append, books.dropped, step.dropped]

theorem Balanced.returned {d : Dues} {losses : List Loss} (books : Balanced d losses) {loss : Loss}
    (lost : loss ∈ losses) : loss.total ≠ none := by
  intro unreported
  have unpaid : none ∈ d.all.map some := by
    apply books.balance.mem_iff.mpr
    apply List.mem_map.mpr
    exact ⟨loss, lost, by rw [Loss.due, unreported, Option.map_none]⟩
  simp at unpaid

end Ecapplog
