import Ecapplog.Foundations.PartialRun

/-! A finite buffer in a system that steps: what it loses is what has been outstanding at the
worst moment, less what it can hold. -/

namespace PartialRun

variable {σ α : Type*} {step : σ → α → Option σ}

/-- The most that a measure comes to along a schedule. -/
def peak (step : σ → α → Option σ) (measure : σ → Nat) : σ → List α → Nat
  | start, [] => measure start
  | start, action :: rest =>
      match step start action with
      | none => measure start
      | some next => max (measure start) (peak step measure next rest)

theorem peak_cons {measure : σ → Nat} {start next : σ} {action : α} (rest : List α)
    (taken : step start action = some next) :
    peak step measure start (action :: rest) =
      max (measure start) (peak step measure next rest) := by
  rw [peak, taken]

theorem start_le_peak (step : σ → α → Option σ) (measure : σ → Nat) (start : σ)
    (actions : List α) : measure start ≤ peak step measure start actions := by
  cases actions with
  | nil => exact Nat.le_refl _
  | cons action rest =>
      cases taken : step start action with
      | none =>
          have stuck : peak step measure start (action :: rest) = measure start := by
            rw [peak, taken]
          exact Nat.le_of_eq stuck.symm
      | some next =>
          rw [peak_cons rest taken]
          exact Nat.le_max_left _ _

theorem peak_congr {measure other : σ → Nat} (Holds : σ → Prop)
    (keep : ∀ s action t, Holds s → step s action = some t → Holds t)
    (same : ∀ s, Holds s → measure s = other s) {start : σ} (initially : Holds start)
    (actions : List α) : peak step measure start actions = peak step other start actions := by
  induction actions generalizing start with
  | nil => exact same start initially
  | cons action rest ih =>
      cases taken : step start action with
      | none => rw [peak, peak, taken, same start initially]
      | some next =>
          rw [peak_cons rest taken, peak_cons rest taken, same start initially,
            ih (keep start action next initially taken)]

/-- A buffer for `cap` and, now and then, `slack` more, that loses only what it has no room
for, as long as it is open. -/
structure Buffer (step : σ → α → Option σ) (Holds Open : σ → Prop) (lost held : σ → Nat)
    (cap slack : Nat) : Prop where
  keep : ∀ s action t, Holds s → step s action = some t → Holds t
  back : ∀ s action t, Holds s → step s action = some t → Open t → Open s
  fits : ∀ s, Holds s → held s ≤ cap + slack
  full : ∀ s action t, Holds s → step s action = some t → Open t →
    lost t = lost s ∨ lost s < lost t ∧ cap ≤ held t

variable {Holds Open : σ → Prop} {lost held : σ → Nat} {cap slack : Nat}

theorem Buffer.open_back (buffer : Buffer step Holds Open lost held cap slack) {start finish : σ}
    {actions : List α} (initially : Holds start) (ran : run step start actions = some finish)
    (final : Open finish) : Open start := by
  by_contra closed
  have still := invariant (fun s => Holds s ∧ ¬ Open s)
    (fun s action t ⟨holds, shut⟩ _ taken =>
      ⟨buffer.keep s action t holds taken, fun opened => shut (buffer.back s action t holds taken
        opened)⟩) ⟨initially, closed⟩ (reaches_of_run ran)
  exact still.2 final

theorem Buffer.lost_peak (buffer : Buffer step Holds Open lost held cap slack) {start finish : σ}
    {actions : List α} (initially : Holds start) (ran : run step start actions = some finish)
    (final : Open finish) :
    let most := peak step (fun s => lost s + held s) start actions
    (lost finish = lost start ∨ lost start < lost finish ∧ lost finish + cap ≤ most) ∧
      most ≤ lost finish + (cap + slack) := by
  induction actions generalizing start with
  | nil =>
      cases ran
      exact ⟨.inl rfl, Nat.add_le_add_left (buffer.fits _ initially) _⟩
  | cons action rest ih =>
      obtain ⟨next, first, later⟩ := run_cons_some.mp ran
      have kept := buffer.keep start action next initially first
      have opened := buffer.open_back kept later final
      have here := buffer.fits start initially
      have reached := start_le_peak step (fun s => lost s + held s) next rest
      obtain ⟨lower, upper⟩ := ih kept later
      have moved := buffer.full start action next initially first opened
      simp only [peak_cons rest first]
      omega

end PartialRun
