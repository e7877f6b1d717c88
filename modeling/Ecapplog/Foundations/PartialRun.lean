import Mathlib.Logic.Relation
import Mathlib.Data.List.Basic

/-! Runs of a partial step function under arbitrary schedules: reachability,
invariants, forward simulation, and ranked termination of one kind of step. -/

namespace PartialRun

variable {σ τ α : Type*}

/-- Execute a schedule; `none` as soon as an action is not enabled. -/
def run (step : σ → α → Option σ) : σ → List α → Option σ
  | start, [] => some start
  | start, action :: rest =>
      match step start action with
      | none => none
      | some next => run step next rest

def Next (step : σ → α → Option σ) (guard : σ → α → Prop) (start finish : σ) : Prop :=
  ∃ action, guard start action ∧ step start action = some finish

abbrev ReachesWhen (step : σ → α → Option σ) (guard : σ → α → Prop) : σ → σ → Prop :=
  Relation.ReflTransGen (Next step guard)

abbrev Reaches (step : σ → α → Option σ) : σ → σ → Prop :=
  ReachesWhen step (fun _ _ => True)

variable {step : σ → α → Option σ} {guard : σ → α → Prop}

theorem run_cons (start : σ) (action : α) (rest : List α) :
    run step start (action :: rest) =
      (step start action).bind (fun next => run step next rest) := by
  rw [run]
  cases step start action <;> rfl

theorem run_cons_some {start finish : σ} {action : α} {rest : List α} :
    run step start (action :: rest) = some finish ↔
      ∃ next, step start action = some next ∧ run step next rest = some finish := by
  rw [run_cons, Option.bind_eq_some_iff]

theorem run_append (start : σ) (actions more : List α) :
    run step start (actions ++ more) =
      (run step start actions).bind (fun middle => run step middle more) := by
  induction actions generalizing start with
  | nil => rfl
  | cons action rest ih =>
      rw [List.cons_append, run_cons, run_cons]
      cases step start action with
      | none => rfl
      | some next => exact ih next

theorem reaches_next {start middle finish : σ} {action : α}
    (before : Reaches step start middle) (last : step middle action = some finish) :
    Reaches step start finish :=
  before.tail ⟨action, trivial, last⟩

theorem reaches_of_run {start finish : σ} {actions : List α}
    (ran : run step start actions = some finish) : Reaches step start finish := by
  induction actions generalizing start with
  | nil =>
      cases ran
      exact .refl
  | cons action rest ih =>
      obtain ⟨next, first, later⟩ := run_cons_some.mp ran
      exact .head ⟨action, trivial, first⟩ (ih later)

theorem run_total {start : σ} {actions : List α}
    (enabled : ∀ action ∈ actions, ∀ s, ∃ t, step s action = some t) :
    ∃ finish, run step start actions = some finish := by
  induction actions generalizing start with
  | nil => exact ⟨start, rfl⟩
  | cons action rest ih =>
      obtain ⟨next, first⟩ := enabled action (.head _) start
      obtain ⟨finish, later⟩ := ih (fun other member => enabled other (.tail _ member))
      exact ⟨finish, run_cons_some.mpr ⟨next, first, later⟩⟩

theorem run_blocked {start : σ} {actions : List α} {action : α} (member : action ∈ actions)
    (blocked : ∀ s, step s action = none) : run step start actions = none := by
  induction actions generalizing start with
  | nil => cases member
  | cons first rest ih =>
      rw [run_cons]
      rcases List.mem_cons.mp member with rfl | later
      · rw [blocked]
        rfl
      · cases step start first with
        | none => rfl
        | some next => exact ih later

theorem run_lockstep (Alike : σ → τ → Prop) {stepB : τ → α → Option τ} {actions : List α}
    (kept : ∀ s t action s' t', Alike s t → step s action = some s' →
      stepB t action = some t' → Alike s' t')
    {start finish : σ} {startB finishB : τ} (initially : Alike start startB)
    (ran : run step start actions = some finish)
    (ranB : run stepB startB actions = some finishB) : Alike finish finishB := by
  induction actions generalizing start startB with
  | nil =>
      cases ran
      cases ranB
      exact initially
  | cons action rest ih =>
      obtain ⟨next, first, later⟩ := run_cons_some.mp ran
      obtain ⟨nextB, firstB, laterB⟩ := run_cons_some.mp ranB
      exact ih (kept _ _ action _ _ initially first firstB) later laterB

def guarded (step : σ → α → Option σ) (guard : σ → α → Prop)
    [∀ s action, Decidable (guard s action)] (start : σ) (action : α) : Option σ :=
  if guard start action then step start action else none

theorem run_guarded [∀ s action, Decidable (guard s action)] {start : σ} {actions : List α}
    (admitted : ∀ action ∈ actions, ∀ s, guard s action) :
    run (guarded step guard) start actions = run step start actions := by
  induction actions generalizing start with
  | nil => rfl
  | cons action rest ih =>
      obtain ⟨this, those⟩ := List.forall_mem_cons.mp admitted
      rw [run_cons, run_cons, guarded, if_pos (this start)]
      cases step start action with
      | none => rfl
      | some next => exact ih those

theorem reachesWhen_of_run [∀ s action, Decidable (guard s action)] {start finish : σ}
    {actions : List α} (ran : run (guarded step guard) start actions = some finish) :
    ReachesWhen step guard start finish := by
  refine Relation.ReflTransGen.mono ?_ _ _ (reaches_of_run ran)
  rintro s t ⟨action, _, taken⟩
  rw [guarded] at taken
  split at taken
  · rename_i admitted
    exact ⟨action, admitted, taken⟩
  · cases taken

theorem ReachesWhen.reaches {start finish : σ} (ran : ReachesWhen step guard start finish) :
    Reaches step start finish :=
  Relation.ReflTransGen.mono (fun _ _ ⟨action, _, taken⟩ => ⟨action, trivial, taken⟩) _ _ ran

/-- The invariant rule: what one admitted step keeps, a whole run keeps. -/
theorem invariant (Holds : σ → Prop) {start finish : σ}
    (keep : ∀ s action t, Holds s → guard s action → step s action = some t → Holds t)
    (initially : Holds start) (ran : ReachesWhen step guard start finish) : Holds finish := by
  induction ran with
  | refl => exact initially
  | tail _ last ih =>
      obtain ⟨action, admitted, taken⟩ := last
      exact keep _ action _ ih admitted taken

theorem simulation (Matches : σ → τ → Prop) {AbstractNext : τ → τ → Prop} {start finish : σ}
    {abstractStart : τ}
    (matched : ∀ s action t w, Matches s w → step s action = some t →
      ∃ v, Relation.ReflTransGen AbstractNext w v ∧ Matches t v)
    (initially : Matches start abstractStart) (ran : Reaches step start finish) :
    ∃ v, Relation.ReflTransGen AbstractNext abstractStart v ∧ Matches finish v := by
  induction ran with
  | refl => exact ⟨abstractStart, .refl, initially⟩
  | tail _ last ih =>
      obtain ⟨action, _, taken⟩ := last
      obtain ⟨w, abstractRun, related⟩ := ih
      obtain ⟨v, more, relatedNext⟩ := matched _ action _ w related taken
      exact ⟨v, abstractRun.trans more, relatedNext⟩

/-- If `own` actions lower a rank and no other action raises it, a run holds at
most as many of them as the rank it uses up. -/
theorem own_steps_bounded (Holds : σ → Prop) (own : α → Bool) (rank : σ → Nat)
    (keep : ∀ s action t, Holds s → step s action = some t → Holds t)
    (lowers : ∀ s action t, Holds s → own action = true → step s action = some t →
      rank t < rank s)
    (others : ∀ s action t, Holds s → own action = false → step s action = some t →
      rank t ≤ rank s)
    {start finish : σ} {actions : List α} (initially : Holds start)
    (ran : run step start actions = some finish) :
    actions.countP own + rank finish ≤ rank start := by
  induction actions generalizing start with
  | nil =>
      cases ran
      simp
  | cons action rest ih =>
      obtain ⟨next, first, later⟩ := run_cons_some.mp ran
      have bound := ih (keep _ _ _ initially first) later
      rw [List.countP_cons]
      cases mine : own action with
      | true =>
          have drop := lowers _ _ _ initially mine first
          simp only [if_true]
          omega
      | false =>
          have flat := others _ _ _ initially mine first
          simp only [Bool.false_eq_true, if_false]
          omega

theorem rank_used_up (Holds : σ → Prop) (Admitted : α → Prop) (own : α → Bool) (rank : σ → Nat)
    (keep : ∀ s action t, Holds s → Admitted action → step s action = some t → Holds t)
    (lowers : ∀ s action t, Holds s → Admitted action → own action = true →
      step s action = some t → rank t ≤ rank s - 1)
    (others : ∀ s action t, Holds s → Admitted action → own action = false →
      step s action = some t → rank t ≤ rank s)
    {start finish : σ} {actions : List α} (initially : Holds start)
    (admitted : ∀ action ∈ actions, Admitted action)
    (ran : run step start actions = some finish) :
    Holds finish ∧ rank finish ≤ rank start - actions.countP own := by
  induction actions generalizing start with
  | nil =>
      cases ran
      exact ⟨initially, Nat.le_refl _⟩
  | cons action rest ih =>
      obtain ⟨next, first, later⟩ := run_cons_some.mp ran
      obtain ⟨this, those⟩ := List.forall_mem_cons.mp admitted
      obtain ⟨kept, bound⟩ := ih (keep _ _ _ initially this first) those later
      refine ⟨kept, ?_⟩
      rw [List.countP_cons]
      cases mine : own action with
      | true =>
          have drop := lowers _ _ _ initially this mine first
          simp only [if_true]
          omega
      | false =>
          have flat := others _ _ _ initially this mine first
          simp only [Bool.false_eq_true, if_false]
          omega

section Observer

variable {ω : Type*} {notes : σ → α → List ω}

/-- The steps of a system with an observer that notes something down at each of them. -/
def observed (step : σ → α → Option σ) (notes : σ → α → List ω) (start : σ × List ω)
    (action : α) : Option (σ × List ω) :=
  (step start.1 action).map fun next => (next, start.2 ++ notes start.1 action)

theorem observed_some {start finish : σ × List ω} {action : α} :
    observed step notes start action = some finish ↔
      ∃ next, step start.1 action = some next ∧
        (next, start.2 ++ notes start.1 action) = finish := by
  rw [observed, Option.map_eq_some_iff]

theorem observed_of_run {start finish : σ} {actions : List α} (seen : List ω)
    (ran : run step start actions = some finish) :
    ∃ all, run (observed step notes) (start, seen) actions = some (finish, all) := by
  induction actions generalizing start seen with
  | nil =>
      cases ran
      exact ⟨seen, rfl⟩
  | cons action rest ih =>
      obtain ⟨next, first, later⟩ := run_cons_some.mp ran
      obtain ⟨all, observedLater⟩ := ih (seen ++ notes start action) later
      exact ⟨all, run_cons_some.mpr ⟨_, observed_some.mpr ⟨next, first, rfl⟩, observedLater⟩⟩

/-- Where a step goes to `Good` exactly from `Good` by an admitted action, a run does so
exactly if all its actions are admitted. -/
theorem observed_exactly (Inv Good : σ × List ω → Prop)
    [∀ s action, Decidable (guard s action)]
    (keep : ∀ s action t, Inv s → observed step notes s action = some t → Inv t)
    (sharp : ∀ s action t, Inv s → observed step notes s action = some t →
      (Good t ↔ Good s ∧ guard s.1 action))
    {start finish : σ × List ω} {actions : List α} (initially : Inv start)
    (ran : run (observed step notes) start actions = some finish) :
    Inv finish ∧
      (Good finish ↔ Good start ∧ run (guarded step guard) start.1 actions = some finish.1) := by
  induction actions generalizing start with
  | nil =>
      cases ran
      exact ⟨initially, iff_self_and.mpr fun _ => rfl⟩
  | cons action rest ih =>
      obtain ⟨middle, first, later⟩ := run_cons_some.mp ran
      obtain ⟨kept, rest_sharp⟩ := ih (keep _ _ _ initially first) later
      obtain ⟨next, taken, rfl⟩ := observed_some.mp first
      refine ⟨kept, rest_sharp.trans ?_⟩
      rw [sharp _ _ _ initially first, run_cons, guarded]
      by_cases admitted : guard start.1 action
      · simp only [admitted, if_true, taken, Option.bind_some, and_true]
      · simp only [admitted, if_false, Option.bind_none, and_false, false_and, reduceCtorEq]

end Observer

end PartialRun
