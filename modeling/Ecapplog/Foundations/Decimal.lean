import Mathlib.Algebra.Group.Nat.Defs
import Mathlib.Data.List.Basic
import Mathlib.Tactic.IntervalCases

/-! Decimal numbers of a fixed width: writing, reading back, and their order as
texts. -/

namespace Decimal

/-- The last `width` digits of a number. -/
def fixed : Nat → Nat → List Char
  | 0, _ => []
  | width + 1, n => fixed width (n / 10) ++ [Nat.digitChar (n % 10)]

def digitValue (c : Char) : Option Nat :=
  if '0' ≤ c ∧ c ≤ '9' then some (c.toNat - 48) else none

def read (text : List Char) : Option Nat :=
  text.foldlM (fun n c => (digitValue c).map (n * 10 + ·)) 0

theorem fixed_length (width n : Nat) : (fixed width n).length = width := by
  induction width generalizing n with
  | zero => rfl
  | succ width ih => rw [fixed, List.length_append, ih, List.length_singleton]

theorem fixed_ascii {width n : Nat} {c : Char} (member : c ∈ fixed width n) : c.utf8Size = 1 := by
  induction width generalizing n with
  | zero => cases member
  | succ width ih =>
      rcases List.mem_append.mp member with front | last
      · exact ih front
      · have small : n % 10 < 10 := Nat.mod_lt n (by decide)
        rw [List.mem_singleton.mp last]
        generalize n % 10 = digit at small
        interval_cases digit <;> decide

theorem digitValue_digitChar {digit : Nat} (small : digit < 10) :
    digitValue digit.digitChar = some digit := by
  interval_cases digit <;> decide

theorem digitChar_lt {a b : Nat} (first : a < 10) (second : b < 10) :
    a.digitChar < b.digitChar ↔ a < b := by
  interval_cases a <;> interval_cases b <;> decide

theorem read_fixed (width : Nat) {n : Nat} (small : n < 10 ^ width) :
    read (fixed width n) = some n := by
  induction width generalizing n with
  | zero =>
      have none_left : n = 0 := by omega
      rw [none_left]
      rfl
  | succ width ih =>
      have shorter : n / 10 < 10 ^ width := by
        rw [Nat.pow_succ] at small
        omega
      have head : List.foldlM (fun n c => (digitValue c).map (n * 10 + ·)) 0
          (fixed width (n / 10)) = some (n / 10) := ih shorter
      rw [read, fixed, List.foldlM_append, head]
      simp only [Option.bind_eq_bind, Option.bind_some, List.foldlM_cons, List.foldlM_nil,
        digitValue_digitChar (Nat.mod_lt n (by decide : 0 < 10)), Option.map_some]
      exact congrArg some (by omega)

theorem fixed_inj {width m n : Nat} (first : m < 10 ^ width) (second : n < 10 ^ width) :
    fixed width m = fixed width n ↔ m = n := by
  constructor
  · intro same
    have back := read_fixed width first
    rw [same, read_fixed width second] at back
    exact (Option.some.inj back).symm
  · intro same
    rw [same]

theorem fixed_zero (width : Nat) : fixed width 0 = List.replicate width '0' := by
  induction width with
  | zero => rfl
  | succ width ih =>
      rw [fixed, ih, List.replicate_succ']
      rfl

theorem toDigits_split {n : Nat} (more : 10 ≤ n) :
    Nat.toDigits 10 n = Nat.toDigits 10 (n / 10) ++ [Nat.digitChar (n % 10)] := by
  have joined := Nat.toDigits_append_toDigits (by decide : 1 < 10) (by omega : 0 < n / 10)
    (Nat.mod_lt n (by decide : 0 < 10))
  rw [Nat.div_add_mod, Nat.toDigits_of_lt_base (Nat.mod_lt n (by decide))] at joined
  exact joined.symm

theorem replicate_toDigits {width n : Nat} (positive : 0 < width) (small : n < 10 ^ width) :
    List.replicate (width - (Nat.toDigits 10 n).length) '0' ++ Nat.toDigits 10 n =
      fixed width n := by
  induction width generalizing n with
  | zero => cases positive
  | succ width ih =>
      rw [Nat.pow_succ] at small
      rcases Nat.lt_or_ge n 10 with digit | more
      · rw [Nat.toDigits_of_lt_base digit, fixed, Nat.div_eq_of_lt digit, Nat.mod_eq_of_lt digit,
          fixed_zero]
        rfl
      · have wide : 0 < width := by
          rcases Nat.eq_zero_or_pos width with none_left | some_left
          · rw [none_left] at small
            omega
          · exact some_left
        rw [fixed, ← ih wide (by omega), toDigits_split more, List.length_append,
          List.length_singleton, Nat.add_sub_add_right, List.append_assoc]

theorem append_lt_append {α : Type*} [LT α] {a b c d : List α} (same : a.length = b.length) :
    a ++ c < b ++ d ↔ a < b ∨ a = b ∧ c < d := by
  induction a generalizing b with
  | nil =>
      cases b with
      | nil => simp
      | cons y b => cases same
  | cons x a ih =>
      cases b with
      | nil => cases same
      | cons y b =>
          rw [List.cons_append, List.cons_append, List.cons_lt_cons_iff, List.cons_lt_cons_iff,
            ih (Nat.succ.inj same), List.cons.injEq]
          constructor
          · rintro (less | ⟨rfl, less | ⟨rfl, less⟩⟩)
            · exact .inl (.inl less)
            · exact .inl (.inr ⟨rfl, less⟩)
            · exact .inr ⟨⟨rfl, rfl⟩, less⟩
          · rintro ((less | ⟨rfl, less⟩) | ⟨⟨rfl, rfl⟩, less⟩)
            · exact .inl less
            · exact .inr ⟨rfl, .inl less⟩
            · exact .inr ⟨rfl, .inr ⟨rfl, less⟩⟩

theorem fixed_lt_fixed {width m n : Nat} (first : m < 10 ^ width) (second : n < 10 ^ width) :
    fixed width m < fixed width n ↔ m < n := by
  induction width generalizing m n with
  | zero =>
      constructor
      · intro less
        exact absurd less (List.not_lt_nil [])
      · omega
  | succ width ih =>
      rw [Nat.pow_succ] at first second
      have digits := digitChar_lt (Nat.mod_lt m (by decide : 0 < 10))
        (Nat.mod_lt n (by decide : 0 < 10))
      rw [fixed, fixed, append_lt_append (by rw [fixed_length, fixed_length]),
        ih (by omega) (by omega), List.cons_lt_cons_iff, digits]
      constructor
      · rintro (less | ⟨same, less | ⟨_, less⟩⟩)
        · omega
        · have equal := (fixed_inj (by omega) (by omega)).mp same
          omega
        · exact absurd less (List.not_lt_nil [])
      · intro less
        rcases Nat.lt_or_ge (m / 10) (n / 10) with smaller | larger
        · exact .inl smaller
        · have equal : m / 10 = n / 10 := by omega
          exact .inr ⟨by rw [equal], .inl (by omega)⟩

end Decimal
