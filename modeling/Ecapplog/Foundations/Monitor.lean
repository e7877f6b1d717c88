import Mathlib.Logic.Function.Basic
import Ecapplog.Foundations.PartialRun

/-! Threads that share data under a lock and wait on condition variables. A
critical section is atomic, a wait gives the lock up as it parks the thread, and
notifications go out after the lock is released. -/

namespace Monitor

variable {σ τ α κ : Type*}

structure Notice (κ : Type*) where
  condvar : κ
  toAll : Bool
  deriving DecidableEq

/-- What the threads do: `step` is one critical section, or one move of a thread on
its own, and `owes` what that thread has to notify afterwards. Where `place` names
a condition variable the thread has come to a wait, which `waits` lets go on. -/
structure Program (σ τ α κ : Type*) where
  step : σ → τ → α → Option σ
  owes : σ → τ → α → List (Notice κ)
  place : σ → τ → Option κ
  waits : σ → τ → Bool

structure State (σ τ κ : Type*) where
  core : σ
  parked : List τ
  owed : τ → List (Notice κ)

def State.start (core : σ) : State σ τ κ := ⟨core, [], fun _ => []⟩

def State.Pending (s : State σ τ κ) (condvar : κ) : Prop :=
  ∃ thread, ∃ notice ∈ s.owed thread, notice.condvar = condvar

inductive Event (τ α : Type*) where
  | act (thread : τ) (action : α)
  | park (thread : τ)
  /-- The thread sends its next notification; `woken` is the one that a
  `notify_one` wakes, if any is parked there. -/
  | notify (thread : τ) (woken : Option τ)
  | wake (thread : τ)

section Owed

variable [DecidableEq τ]

def State.setOwed (s : State σ τ κ) (thread : τ) (notices : List (Notice κ)) : State σ τ κ :=
  { s with owed := Function.update s.owed thread notices }

@[simp] theorem State.setOwed_self (s : State σ τ κ) (thread : τ) (notices : List (Notice κ)) :
    (s.setOwed thread notices).owed thread = notices := Function.update_self ..

theorem State.setOwed_other (s : State σ τ κ) {thread other : τ} (notices : List (Notice κ))
    (apart : other ≠ thread) : (s.setOwed thread notices).owed other = s.owed other :=
  Function.update_of_ne apart ..

end Owed

namespace Program

variable (p : Program σ τ α κ)

section Next

variable [DecidableEq τ] [DecidableEq κ]

def waiters (s : State σ τ κ) (condvar : κ) : List τ :=
  s.parked.filter fun thread => p.place s.core thread = some condvar

def send (s : State σ τ κ) (notice : Notice κ) (woken : Option τ) : Option (List τ) :=
  if notice.toAll then
    some (s.parked.filter fun thread => p.place s.core thread ≠ some notice.condvar)
  else
    match woken with
    | some thread =>
        if thread ∈ p.waiters s notice.condvar then some (s.parked.filter (· ≠ thread)) else none
    | none => if p.waiters s notice.condvar = [] then some s.parked else none

def next (s : State σ τ κ) : Event τ α → Option (State σ τ κ)
  | .act thread action =>
      if thread ∈ s.parked ∨ s.owed thread ≠ [] then none
      else
        match p.step s.core thread action with
        | some core =>
            some ({ s with core := core }.setOwed thread (p.owes s.core thread action))
        | none => none
  | .park thread =>
      if thread ∈ s.parked ∨ s.owed thread ≠ [] then none
      else if (p.place s.core thread).isSome ∧ p.waits s.core thread then
        some { s with parked := thread :: s.parked }
      else none
  | .notify thread woken =>
      match s.owed thread with
      | [] => none
      | notice :: rest =>
          match p.send s notice woken with
          | some parked => some ({ s with parked := parked }.setOwed thread rest)
          | none => none
  | .wake thread => some { s with parked := s.parked.filter (· ≠ thread) }

abbrev Reaches (core : σ) : State σ τ κ → Prop :=
  PartialRun.Reaches p.next (State.start core)

end Next

def Sole (condvar : κ) : Prop :=
  ∀ core u v, p.place core u = some condvar → p.place core v = some condvar → u = v

/-- The duties of a critical section: it leaves the other threads where they are,
it owes a notification to every wait it ends, and it owes a `notify_one` only
where no two threads can wait. -/
structure Dutiful : Prop where
  others : ∀ {s t : σ} {thread other : τ} {action : α}, p.step s thread action = some t →
    other ≠ thread → p.place t other = p.place s other
  owes : ∀ {s t : σ} {thread other : τ} {action : α} {condvar : κ},
    p.step s thread action = some t → other ≠ thread → p.place s other = some condvar →
    p.waits s other = true → p.waits t other = false →
    ∃ notice ∈ p.owes s thread action, notice.condvar = condvar
  single : ∀ {s : σ} {thread : τ} {action : α}, ∀ notice ∈ p.owes s thread action,
    notice.toAll = false → p.Sole notice.condvar

/-- Every parked thread is at a wait, and its wait goes on or a notification that
reaches it is pending. -/
structure Heard (s : State σ τ κ) : Prop where
  placed : ∀ thread ∈ s.parked, (p.place s.core thread).isSome
  pending : ∀ thread ∈ s.parked, ∀ condvar, p.place s.core thread = some condvar →
    p.waits s.core thread = false → s.Pending condvar
  single : ∀ thread, ∀ notice ∈ s.owed thread, notice.toAll = false → p.Sole notice.condvar

variable {p}

theorem start_heard (core : σ) : p.Heard (State.start core) where
  placed := nofun
  pending := nofun
  single := nofun

theorem Heard.unpark {s : State σ τ κ} (heard : p.Heard s) {parked : List τ}
    (fewer : ∀ thread ∈ parked, thread ∈ s.parked) : p.Heard { s with parked := parked } where
  placed := fun thread still => heard.placed thread (fewer thread still)
  pending := fun thread still => heard.pending thread (fewer thread still)
  single := heard.single

theorem Heard.park {s : State σ τ κ} (heard : p.Heard s) {thread : τ}
    (here : (p.place s.core thread).isSome) (waits : p.waits s.core thread = true) :
    p.Heard { s with parked := thread :: s.parked } := by
  constructor
  · intro other parked
    rcases List.mem_cons.mp parked with rfl | before
    · exact here
    · exact heard.placed other before
  · intro other parked condvar place ended
    rcases List.mem_cons.mp parked with rfl | before
    · change p.waits s.core other = false at ended
      rw [waits] at ended
      cases ended
    · exact heard.pending other before condvar place ended
  · exact heard.single

variable [DecidableEq τ]

theorem Heard.act (dutiful : p.Dutiful) {s : State σ τ κ} (heard : p.Heard s) {thread : τ}
    {action : α} {core : σ} (running : thread ∉ s.parked) (free : s.owed thread = [])
    (taken : p.step s.core thread action = some core) :
    p.Heard ({ s with core := core }.setOwed thread (p.owes s.core thread action)) := by
  have apart : ∀ other ∈ s.parked, other ≠ thread := by
    intro other parked same
    rw [same] at parked
    exact running parked
  constructor
  · intro other parked
    change (p.place core other).isSome = true
    rw [dutiful.others taken (apart other parked)]
    exact heard.placed other parked
  · intro other parked condvar here ended
    change p.place core other = some condvar at here
    rw [dutiful.others taken (apart other parked)] at here
    cases before : p.waits s.core other with
    | true =>
        rcases dutiful.owes taken (apart other parked) here before ended with ⟨notice, owed, same⟩
        exact ⟨thread, notice, by rw [State.setOwed_self]; exact owed, same⟩
    | false =>
        -- the notification that was pending is another thread's: this one owes none
        rcases heard.pending other parked condvar here before with ⟨sender, notice, owed, same⟩
        have another : sender ≠ thread := by
          intro itself
          rw [itself, free] at owed
          cases owed
        exact ⟨sender, notice, by rw [State.setOwed_other _ _ another]; exact owed, same⟩
  · intro sender notice owed
    by_cases itself : sender = thread
    · rw [itself, State.setOwed_self] at owed
      exact dutiful.single notice owed
    · rw [State.setOwed_other _ _ itself] at owed
      exact heard.single sender notice owed

variable [DecidableEq κ]

theorem send_leaves {s : State σ τ κ} {notice : Notice κ} {woken : Option τ} {parked : List τ}
    (sent : p.send s notice woken = some parked) :
    (∀ thread ∈ parked, thread ∈ s.parked) ∧
      ∀ thread ∈ parked, p.place s.core thread = some notice.condvar →
        notice.toAll = false ∧
          ∃ other, other ≠ thread ∧ p.place s.core other = some notice.condvar := by
  unfold send at sent
  split at sent
  case isTrue all =>
      cases sent
      constructor
      · intro thread still
        exact (List.mem_filter.mp still).1
      · intro thread still here
        have elsewhere := (List.mem_filter.mp still).2
        rw [decide_eq_true_eq] at elsewhere
        exact absurd here elsewhere
  case isFalse one =>
      split at sent
      case h_1 target =>
          split at sent
          case isTrue waiting =>
              cases sent
              constructor
              · intro thread still
                exact (List.mem_filter.mp still).1
              · intro thread still here
                have apart := (List.mem_filter.mp still).2
                rw [decide_eq_true_eq] at apart
                have there := (List.mem_filter.mp waiting).2
                rw [decide_eq_true_eq] at there
                exact ⟨Bool.eq_false_iff.mpr one, target, fun same => apart same.symm, there⟩
          case isFalse elsewhere => cases sent
      case h_2 =>
          split at sent
          case isTrue nobody =>
              cases sent
              constructor
              · intro thread still
                exact still
              · intro thread still here
                have waiting : thread ∈ p.waiters s notice.condvar :=
                  List.mem_filter.mpr ⟨still, decide_eq_true here⟩
                rw [nobody] at waiting
                cases waiting
          case isFalse someone => cases sent

theorem send_clears {s : State σ τ κ} {notice : Notice κ} {woken : Option τ} {parked : List τ}
    (sent : p.send s notice woken = some parked)
    (sole : notice.toAll = false → p.Sole notice.condvar) :
    ∀ thread ∈ parked, p.place s.core thread ≠ some notice.condvar := by
  intro thread still here
  rcases (send_leaves sent).2 thread still here with ⟨one, target, apart, there⟩
  exact apart (sole one s.core target thread there here)

theorem Heard.notify {s : State σ τ κ} (heard : p.Heard s) {thread : τ} {notice : Notice κ}
    {rest : List (Notice κ)} {woken : Option τ} {parked : List τ}
    (first : s.owed thread = notice :: rest) (sent : p.send s notice woken = some parked) :
    p.Heard ({ s with parked := parked }.setOwed thread rest) := by
  have fewer := (send_leaves sent).1
  have cleared := send_clears sent
    (heard.single thread notice (by rw [first]; exact List.mem_cons_self))
  constructor
  · intro other still
    exact heard.placed other (fewer other still)
  · intro other still condvar here ended
    change p.place s.core other = some condvar at here
    rcases heard.pending other (fewer other still) condvar here ended with
      ⟨sender, pending, owed, same⟩
    by_cases itself : sender = thread
    · rw [itself, first] at owed
      rcases List.mem_cons.mp owed with this | later
      · -- the one just sent was on this condition variable, so nobody is parked there
        rw [this] at same
        rw [← same] at here
        exact absurd here (cleared other still)
      · exact ⟨thread, pending, by rw [State.setOwed_self]; exact later, same⟩
    · exact ⟨sender, pending, by rw [State.setOwed_other _ _ itself]; exact owed, same⟩
  · intro sender pending owed
    by_cases itself : sender = thread
    · rw [itself, State.setOwed_self] at owed
      exact heard.single thread pending (by rw [first]; exact List.mem_cons_of_mem _ owed)
    · rw [State.setOwed_other _ _ itself] at owed
      exact heard.single sender pending owed

theorem Heard.next (dutiful : p.Dutiful) {s t : State σ τ κ} {event : Event τ α}
    (heard : p.Heard s) (taken : p.next s event = some t) : p.Heard t := by
  cases event with
  | act thread action =>
      simp only [Program.next] at taken
      split at taken
      · cases taken
      · rename_i ready
        rw [not_or, not_not] at ready
        split at taken
        · rename_i core stepped
          cases taken
          exact heard.act dutiful ready.1 ready.2 stepped
        · cases taken
  | park thread =>
      simp only [Program.next] at taken
      split at taken
      · cases taken
      · split at taken
        · rename_i waiting
          cases taken
          exact heard.park waiting.1 waiting.2
        · cases taken
  | notify thread woken =>
      simp only [Program.next] at taken
      split at taken
      · cases taken
      · rename_i notice rest first
        split at taken
        · rename_i parked sent
          cases taken
          exact heard.notify first sent
        · cases taken
  | wake thread =>
      cases taken
      exact heard.unpark fun other still => (List.mem_filter.mp still).1

/-- If every critical section does its duties, no wake-up is ever lost. -/
theorem wakeup_pending (dutiful : p.Dutiful) {core : σ} {s : State σ τ κ}
    (reached : p.Reaches core s) : p.Heard s := by
  apply PartialRun.invariant p.Heard _ (start_heard core) reached
  intro s event t heard _ taken
  exact heard.next dutiful taken

theorem core_reaches {core : σ} {s : State σ τ κ} (reached : p.Reaches core s) :
    PartialRun.Reaches (fun core (turn : τ × α) => p.step core turn.1 turn.2) core s.core := by
  apply PartialRun.invariant (fun s : State σ τ κ =>
    PartialRun.Reaches (fun core (turn : τ × α) => p.step core turn.1 turn.2) core s.core) _
    .refl reached
  intro s event t before _ taken
  cases event with
  | act thread action =>
      simp only [Program.next] at taken
      split at taken
      · cases taken
      · split at taken
        · rename_i after stepped
          cases taken
          exact before.tail ⟨(thread, action), trivial, stepped⟩
        · cases taken
  | park thread =>
      simp only [Program.next] at taken
      split at taken
      · cases taken
      · split at taken
        · cases taken
          exact before
        · cases taken
  | notify thread woken =>
      simp only [Program.next] at taken
      split at taken
      · cases taken
      · split at taken
        · cases taken
          exact before
        · cases taken
  | wake thread =>
      cases taken
      exact before

end Program

end Monitor
