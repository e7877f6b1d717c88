import Ecapplog.Delivery

/-! `Client::log` with an `on_error` callback that may itself log on the same client:
the chain log, push, report, on_error, log. -/

namespace Ecapplog

variable {σ ρ : Type}

/-- A callback with memory `σ`: what it logs in answer to an error, if anything. -/
abbrev OnError (σ ρ : Type) := σ → Error → σ × Option ρ

/-- `Config::report`. -/
def reportTo (onError : Option (OnError σ ρ)) (memory : σ) (error : Error) : σ × Option ρ :=
  match onError with
  | some callback => callback memory error
  | none => (memory, none)

/-- `Client::log` together with the calls nested in it; none if they nest deeper
than `depth`. -/
def logNested (onError : Option (OnError σ ρ)) :
    Nat → σ → Queue ρ → ρ → Option (σ × Queue ρ)
  | 0, _, _, _ => none
  | depth + 1, memory, queue, record =>
      let capacity := queue.capacity
      match queue.push record with
      | (queue, none) => some (memory, queue)
      | (queue, some total) =>
          match reportTo onError memory (.queueFull capacity total) with
          | (memory, none) => some (memory, queue)
          | (memory, some next) => logNested onError depth memory queue next

def LogReturns (onError : Option (OnError σ ρ)) (memory : σ) (queue : Queue ρ) (record : ρ) :
    Prop :=
  ∃ depth, (logNested onError depth memory queue record).isSome = true

/-- The answer to the last of `n + 1` reports in a row, if all the others were answered. -/
def answerTo (onError : Option (OnError σ ρ)) (capacity : Nat) :
    Nat → σ → UInt64 → Option ρ
  | 0, memory, total => (reportTo onError memory (.queueFull capacity total)).2
  | n + 1, memory, total =>
      match reportTo onError memory (.queueFull capacity total) with
      | (memory, some _) => answerTo onError capacity n memory (total + 1)
      | (_, none) => none

def Queue.HasRoom (q : Queue ρ) : Prop :=
  q.isShutdown = false ∧ q.state.items.length < q.capacity

theorem Queue.HasRoom.push {q : Queue ρ} (room : q.HasRoom) (record : ρ) :
    (q.push record).2 = none := by
  rw [(q.push_room record room.1 room.2).1]

theorem Queue.push_jammed {q : Queue ρ} (jammed : ¬ q.HasRoom) (record : ρ) :
    ∃ q', q.push record = (q', some (q.dropped + 1)) ∧ ¬ q'.HasRoom ∧
      q'.dropped = q.dropped + 1 ∧ q'.capacity = q.capacity := by
  cases closed : q.state.shutdown with
  | true =>
      refine ⟨_, (q.push_shutdown record closed).1, fun room => ?_, rfl, rfl⟩
      have running : q.state.shutdown = false := room.1
      rw [closed] at running
      cases running
  | false =>
      have full : q.capacity ≤ q.state.items.length :=
        Nat.le_of_not_lt fun room => jammed ⟨closed, room⟩
      refine ⟨_, (q.push_full record closed full).1, fun room => ?_, rfl, rfl⟩
      have still : (q.state.items.tail ++ [record]).length < q.capacity := room.2
      have positive := q.capacity_pos
      rw [List.length_append, List.length_tail, List.length_singleton] at still
      omega

theorem log_returns_of_room (onError : Option (OnError σ ρ)) (memory : σ) {queue : Queue ρ}
    (room : queue.HasRoom) (depth : Nat) (record : ρ) :
    (logNested onError (depth + 1) memory queue record).isSome = true := by
  have quiet := room.push record
  rcases pushed : queue.push record with ⟨after, total⟩
  rw [pushed] at quiet
  cases quiet
  simp only [logNested, pushed]
  rfl

theorem logNested_jammed (onError : Option (OnError σ ρ)) (depth : Nat) (memory : σ)
    {queue : Queue ρ} (jammed : ¬ queue.HasRoom) (record : ρ) :
    ∃ after, ¬ after.HasRoom ∧ after.dropped = queue.dropped + 1 ∧
      after.capacity = queue.capacity ∧
      logNested onError (depth + 1) memory queue record =
        match reportTo onError memory (.queueFull queue.capacity (queue.dropped + 1)) with
        | (memory, none) => some (memory, after)
        | (memory, some next) => logNested onError depth memory after next := by
  obtain ⟨after, pushed, still, count, capacity⟩ := Queue.push_jammed jammed record
  exact ⟨after, still, count, capacity, by simp only [logNested, pushed]⟩

theorem log_returns_of_decline (onError : Option (OnError σ ρ)) (n : Nat) (memory : σ)
    (queue : Queue ρ) (record : ρ)
    (declines : answerTo onError queue.capacity n memory (queue.dropped + 1) = none) :
    (logNested onError (n + 1) memory queue record).isSome = true := by
  induction n generalizing memory queue record with
  | zero =>
      by_cases room : queue.HasRoom
      · exact log_returns_of_room onError memory room 0 record
      · obtain ⟨after, _, _, _, chain⟩ := logNested_jammed onError 0 memory room record
        rw [chain]
        rw [answerTo] at declines
        rcases reported : reportTo onError memory
          (.queueFull queue.capacity (queue.dropped + 1)) with ⟨memory', answer⟩
        rw [reported] at declines
        cases declines
        rfl
  | succ n ih =>
      by_cases room : queue.HasRoom
      · exact log_returns_of_room onError memory room _ record
      · obtain ⟨after, _, count, capacity, chain⟩ :=
          logNested_jammed onError (n + 1) memory room record
        rw [chain]
        rw [answerTo] at declines
        rcases reported : reportTo onError memory
          (.queueFull queue.capacity (queue.dropped + 1)) with ⟨memory', answer⟩
        rw [reported] at declines
        cases answer with
        | none => rfl
        | some next => exact ih memory' after next (by rw [capacity, count]; exact declines)

theorem log_runs_on (onError : Option (OnError σ ρ)) (depth : Nat) (memory : σ) (queue : Queue ρ)
    (record : ρ) (jammed : ¬ queue.HasRoom)
    (answers : ∀ n, answerTo onError queue.capacity n memory (queue.dropped + 1) ≠ none) :
    logNested onError depth memory queue record = none := by
  induction depth generalizing memory queue record with
  | zero => rfl
  | succ depth ih =>
      obtain ⟨after, still, count, capacity, chain⟩ :=
        logNested_jammed onError depth memory jammed record
      rw [chain]
      have first := answers 0
      have later := fun n => answers (n + 1)
      simp only [answerTo] at first later
      rcases reported : reportTo onError memory
        (.queueFull queue.capacity (queue.dropped + 1)) with ⟨memory', answer⟩
      rw [reported] at first later
      cases answer with
      | none => exact absurd rfl first
      | some next =>
          exact ih memory' after next still (by rw [capacity, count]; exact later)

/-- A log call returns exactly if its push finds room, or the callback at some point
of a row of drops logs nothing. -/
theorem log_returns_iff (onError : Option (OnError σ ρ)) (memory : σ) (queue : Queue ρ)
    (record : ρ) :
    LogReturns onError memory queue record ↔
      queue.HasRoom ∨ ∃ n, answerTo onError queue.capacity n memory (queue.dropped + 1) = none := by
  constructor
  · rintro ⟨depth, returns⟩
    by_contra neither
    obtain ⟨jammed, answers⟩ := not_or.mp neither
    rw [log_runs_on onError depth memory queue record jammed (not_exists.mp answers)] at returns
    cases returns
  · rintro (room | ⟨n, declines⟩)
    · exact ⟨1, log_returns_of_room onError memory room 0 record⟩
    · exact ⟨n + 1, log_returns_of_decline onError n memory queue record declines⟩

def logEveryError : OnError Unit Entry :=
  fun memory _ => (memory, some ⟨0, .new 0 .error "app" "the log queue is full"⟩)

theorem logEveryError_answers (capacity n : Nat) (total : UInt64) :
    answerTo (some logEveryError) capacity n () total ≠ none := by
  induction n generalizing total with
  | zero => exact nofun
  | succ n ih => exact ih (total + 1)

theorem log_from_callback_runs_on :
    (∃ s, runDefault 1 [.log (.new 0 .information "app" "first")] = some s ∧
      ¬ LogReturns (some logEveryError) () s.queue ⟨1, .new 0 .information "app" "second"⟩) ∧
    (∃ s, runDefault 1000 [.closeShutdown 0] = some s ∧
      ¬ LogReturns (some logEveryError) () s.queue ⟨0, .new 0 .information "app" "first"⟩) := by
  have endless (queue : Queue Entry) (entry : Entry) (jammed : ¬ queue.HasRoom) :
      ¬ LogReturns (some logEveryError) () queue entry := by
    rintro ⟨depth, returns⟩
    rw [log_runs_on _ depth () queue entry jammed fun n => logEveryError_answers _ n _] at returns
    cases returns
  exact ⟨⟨_, rfl, endless _ _ fun room => absurd room.2 (by decide)⟩,
    ⟨_, rfl, endless _ _ fun room => absurd room.1 (by decide)⟩⟩

end Ecapplog
