import Mathlib.Algebra.Group.Int.Defs
import Mathlib.Algebra.Group.Nat.Defs
import Mathlib.Order.Monotone.Basic
import Mathlib.Tactic.IntervalCases

/-! The proleptic Gregorian calendar: dates, the number of a day, and the two
orders on dates. Days are counted from 1970-01-01. -/

namespace Gregorian

def IsLeap (year : Int) : Prop := year % 4 = 0 ∧ (year % 100 ≠ 0 ∨ year % 400 = 0)

instance (year : Int) : Decidable (IsLeap year) :=
  inferInstanceAs (Decidable (_ ∧ _))

def daysInMonth (year : Int) : Nat → Nat
  | 1 => 31
  | 2 => if IsLeap year then 29 else 28
  | 3 => 31
  | 4 => 30
  | 5 => 31
  | 6 => 30
  | 7 => 31
  | 8 => 31
  | 9 => 30
  | 10 => 31
  | 11 => 30
  | 12 => 31
  | _ => 0

/-- A date carries the proof that it exists. -/
@[ext] structure Date where
  year : Int
  month : Nat
  day : Nat
  month_valid : 1 ≤ month ∧ month ≤ 12
  day_valid : 1 ≤ day ∧ day ≤ daysInMonth year month

def daysBeforeYear (year : Int) : Int :=
  365 * (year - 1) + (year - 1) / 4 - (year - 1) / 100 + (year - 1) / 400

def daysBeforeMonth (year : Int) : Nat → Nat
  | 0 => 0
  | month + 1 => daysBeforeMonth year month + daysInMonth year month

/-- The number that a year, month and day spell, whether or not there is such a date. -/
def dayCount (year : Int) (month day : Nat) : Int :=
  daysBeforeYear year + daysBeforeMonth year month + day - 719163

def Date.dayNumber (date : Date) : Int := dayCount date.year date.month date.day

example : dayCount 1970 1 1 = 0 := by decide

theorem daysBeforeMonth_mono (year : Int) : Monotone (daysBeforeMonth year) :=
  monotone_nat_of_le_succ fun _ => Nat.le_add_right _ _

theorem daysInYear (year : Int) :
    daysBeforeYear (year + 1) = daysBeforeYear year + daysBeforeMonth year 13 := by
  by_cases leap : IsLeap year
  · simp only [daysBeforeYear, daysBeforeMonth, daysInMonth, if_pos leap]
    rw [IsLeap] at leap
    omega
  · simp only [daysBeforeYear, daysBeforeMonth, daysInMonth, if_neg leap]
    rw [IsLeap] at leap
    omega

theorem daysBeforeYear_lt {year later : Int} (order : year < later) :
    daysBeforeYear (year + 1) ≤ daysBeforeYear later := by
  simp only [daysBeforeYear]
  omega

namespace Date

theorem dayNumber_month (date : Date) :
    daysBeforeYear date.year + daysBeforeMonth date.year date.month - 719163 < date.dayNumber ∧
      date.dayNumber ≤
        daysBeforeYear date.year + daysBeforeMonth date.year (date.month + 1) - 719163 := by
  have day := date.day_valid
  simp only [dayNumber, dayCount, daysBeforeMonth]
  omega

theorem dayNumber_year (date : Date) :
    daysBeforeYear date.year - 719163 < date.dayNumber ∧
      date.dayNumber ≤ daysBeforeYear (date.year + 1) - 719163 := by
  have within := date.dayNumber_month
  have ends : daysBeforeMonth date.year (date.month + 1) ≤ daysBeforeMonth date.year 13 :=
    daysBeforeMonth_mono date.year (Nat.succ_le_succ date.month_valid.2)
  have whole := daysInYear date.year
  omega

def Before (a b : Date) : Prop :=
  a.year < b.year ∨
    (a.year = b.year ∧ (a.month < b.month ∨ (a.month = b.month ∧ a.day < b.day)))

theorem dayNumber_lt_of_before {a b : Date} (before : a.Before b) :
    a.dayNumber < b.dayNumber := by
  rcases before with earlier | ⟨sameYear, earlier | ⟨sameMonth, earlier⟩⟩
  · have order := daysBeforeYear_lt earlier
    have last := a.dayNumber_year
    have first := b.dayNumber_year
    omega
  · have order : daysBeforeMonth b.year (a.month + 1) ≤ daysBeforeMonth b.year b.month :=
      daysBeforeMonth_mono b.year earlier
    have last := a.dayNumber_month
    have first := b.dayNumber_month
    rw [sameYear] at last
    omega
  · simp only [dayNumber, dayCount, sameYear, sameMonth]
    omega

theorem before_trichotomy (a b : Date) : a.Before b ∨ a = b ∨ b.Before a := by
  rcases Int.lt_trichotomy a.year b.year with less | sameYear | more
  · exact .inl (.inl less)
  · rcases Nat.lt_trichotomy a.month b.month with less | sameMonth | more
    · exact .inl (.inr ⟨sameYear, .inl less⟩)
    · rcases Nat.lt_trichotomy a.day b.day with less | sameDay | more
      · exact .inl (.inr ⟨sameYear, .inr ⟨sameMonth, less⟩⟩)
      · exact .inr (.inl (Date.ext sameYear sameMonth sameDay))
      · exact .inr (.inr (.inr ⟨sameYear.symm, .inr ⟨sameMonth.symm, more⟩⟩))
    · exact .inr (.inr (.inr ⟨sameYear.symm, .inl more⟩))
  · exact .inr (.inr (.inl more))

theorem before_iff {a b : Date} : a.Before b ↔ a.dayNumber < b.dayNumber := by
  constructor
  · exact dayNumber_lt_of_before
  · intro order
    rcases a.before_trichotomy b with before | rfl | after
    · exact before
    · omega
    · have reversed := dayNumber_lt_of_before after
      omega

theorem dayNumber_injective {a b : Date} (same : a.dayNumber = b.dayNumber) : a = b := by
  rcases a.before_trichotomy b with before | equal | after
  · have order := dayNumber_lt_of_before before
    omega
  · exact equal
  · have order := dayNumber_lt_of_before after
    omega

theorem daysInMonth_pos (year : Int) (month : Nat) (valid : 1 ≤ month ∧ month ≤ 12) :
    1 ≤ daysInMonth year month := by
  rcases valid with ⟨first, last⟩
  by_cases leap : IsLeap year
  · interval_cases month <;> simp [daysInMonth, leap]
  · interval_cases month <;> simp [daysInMonth, leap]

theorem daysInMonth_le (year : Int) (month : Nat) : daysInMonth year month ≤ 31 := by
  unfold daysInMonth
  split
  case h_2 => split <;> decide
  all_goals decide

def next (date : Date) : Date :=
  if inMonth : date.day < daysInMonth date.year date.month then
    { date with day := date.day + 1, day_valid := ⟨by omega, inMonth⟩ }
  else if inYear : date.month < 12 then
    { year := date.year
      month := date.month + 1
      day := 1
      month_valid := ⟨by omega, inYear⟩
      day_valid := ⟨Nat.le_refl 1, daysInMonth_pos _ _ ⟨by omega, inYear⟩⟩ }
  else
    { year := date.year + 1
      month := 1
      day := 1
      month_valid := ⟨Nat.le_refl 1, by decide⟩
      day_valid := ⟨Nat.le_refl 1, daysInMonth_pos _ _ ⟨Nat.le_refl 1, by decide⟩⟩ }

theorem dayNumber_next (date : Date) : date.next.dayNumber = date.dayNumber + 1 := by
  have day := date.day_valid
  have month := date.month_valid
  unfold next
  split
  · simp only [dayNumber, dayCount]
    omega
  · rename_i lastDay
    split
    · simp only [dayNumber, dayCount, daysBeforeMonth]
      omega
    · have december : date.month = 12 := by omega
      have whole := daysInYear date.year
      have first : daysBeforeMonth (date.year + 1) 1 = 0 := rfl
      have last : daysBeforeMonth date.year 13 =
          daysBeforeMonth date.year 12 + daysInMonth date.year 12 := rfl
      rw [december] at day lastDay
      simp only [dayNumber, dayCount, december, first]
      omega

end Date

section March

/-! Years counted from the first of March, so that a leap day ends its year. Month 0
is March, and month `n` starts on day `(153 * n + 2) / 5` of the year. -/

def marchMonth (dayOfYear : Nat) : Nat := (5 * dayOfYear + 2) / 153

def marchDay (dayOfYear : Nat) : Nat := dayOfYear - (153 * marchMonth dayOfYear + 2) / 5 + 1

def civilYear (year : Int) (marchMonth : Nat) : Int :=
  if marchMonth < 10 then year else year + 1

def civilMonth (marchMonth : Nat) : Nat :=
  if marchMonth < 10 then marchMonth + 3 else marchMonth - 9

theorem marchMonth_le {dayOfYear : Nat} (within : dayOfYear ≤ 366) :
    marchMonth dayOfYear ≤ 11 ∧ (153 * marchMonth dayOfYear + 2) / 5 ≤ dayOfYear := by
  simp only [marchMonth]
  omega

theorem civilMonth_valid {month : Nat} (valid : month ≤ 11) :
    1 ≤ civilMonth month ∧ civilMonth month ≤ 12 := by
  rw [civilMonth]
  split <;> omega

theorem dayCount_march (year : Int) {month : Nat} (day : Nat) (valid : month ≤ 11) :
    dayCount (civilYear year month) (civilMonth month) day =
      365 * year + year / 4 - year / 100 + year / 400 + (153 * month + 2) / 5 + day - 719469 := by
  by_cases leap : IsLeap year
  · interval_cases month <;>
      simp [dayCount, daysBeforeYear, daysBeforeMonth, daysInMonth, civilYear, civilMonth, leap] <;>
      rw [IsLeap] at leap <;> omega
  · interval_cases month <;>
      simp [dayCount, daysBeforeYear, daysBeforeMonth, daysInMonth, civilYear, civilMonth, leap] <;>
      rw [IsLeap] at leap <;> omega

theorem marchDay_valid (year : Int) {dayOfYear : Nat} (within : dayOfYear ≤ 365)
    (leapDay : dayOfYear = 365 → IsLeap (year + 1)) :
    1 ≤ marchDay dayOfYear ∧
      marchDay dayOfYear ≤ daysInMonth (civilYear year (marchMonth dayOfYear))
        (civilMonth (marchMonth dayOfYear)) := by
  have last := (marchMonth_le (Nat.le_succ_of_le within)).1
  constructor
  · exact Nat.le_add_left 1 _
  · rw [marchDay]
    generalize month : marchMonth dayOfYear = n at last ⊢
    rw [marchMonth] at month
    by_cases leap : IsLeap (year + 1)
    · interval_cases n <;> simp [daysInMonth, civilYear, civilMonth, leap] <;> omega
    · have short : dayOfYear < 365 := by
        rcases Nat.lt_or_ge dayOfYear 365 with less | all
        · exact less
        · exact absurd (leapDay (Nat.le_antisymm within all)) leap
      interval_cases n <;> simp [daysInMonth, civilYear, civilMonth, leap] <;> omega

def Date.ofMarch (year : Int) (dayOfYear : Nat) (within : dayOfYear ≤ 365)
    (leapDay : dayOfYear = 365 → IsLeap (year + 1)) : Date where
  year := civilYear year (marchMonth dayOfYear)
  month := civilMonth (marchMonth dayOfYear)
  day := marchDay dayOfYear
  month_valid := civilMonth_valid (marchMonth_le (Nat.le_succ_of_le within)).1
  day_valid := marchDay_valid year within leapDay

/-- A day of a cycle of 400 years: its century, cycle of four years, year and day
of that year. -/
structure DayOfEra where
  century : Int
  olympiad : Int
  year : Int
  dayOfYear : Int
  century_range : 0 ≤ century ∧ century ≤ 3
  olympiad_range : 0 ≤ olympiad ∧ olympiad ≤ 24
  year_range : 0 ≤ year ∧ year ≤ 3
  dayOfYear_range : 0 ≤ dayOfYear ∧ dayOfYear ≤ 365
  leap_day : dayOfYear = 365 → year = 3 ∧ (olympiad < 24 ∨ century = 3)

namespace DayOfEra

def number (day : DayOfEra) : Int :=
  36524 * day.century + 1461 * day.olympiad + 365 * day.year + day.dayOfYear

def yearOfEra (day : DayOfEra) : Int := 100 * day.century + 4 * day.olympiad + day.year

theorem exists_number {n : Int} (first : 0 ≤ n) (last : n ≤ 146096) :
    ∃ day : DayOfEra, day.number = n := by
  let century := min (n / 36524) 3
  let rest := n - 36524 * century
  let olympiad := rest / 1461
  let year := min ((rest - 1461 * olympiad) / 365) 3
  have centuries : 0 ≤ century ∧ century ≤ 3 := by omega
  have inCentury : 0 ≤ rest ∧ rest ≤ 36524 ∧ (rest = 36524 → century = 3) := by omega
  have olympiads : 0 ≤ olympiad ∧ olympiad ≤ 24 := by omega
  have inOlympiad : 0 ≤ rest - 1461 * olympiad ∧ rest - 1461 * olympiad ≤ 1460 := by omega
  have years : 0 ≤ year ∧ year ≤ 3 := by omega
  refine ⟨⟨century, olympiad, year, rest - 1461 * olympiad - 365 * year, centuries, olympiads,
    years, by omega, by omega⟩, ?_⟩
  simp only [number]
  omega

theorem number_range (day : DayOfEra) : 0 ≤ day.number ∧ day.number ≤ 146096 := by
  have centuries := day.century_range
  have olympiads := day.olympiad_range
  have years := day.year_range
  have days := day.dayOfYear_range
  have leap := day.leap_day
  simp only [number]
  omega

theorem yearOfEra_range (day : DayOfEra) : 0 ≤ day.yearOfEra ∧ day.yearOfEra ≤ 399 := by
  have centuries := day.century_range
  have olympiads := day.olympiad_range
  have years := day.year_range
  simp only [yearOfEra]
  omega

theorem number_eq (day : DayOfEra) :
    day.number =
      365 * day.yearOfEra + day.yearOfEra / 4 - day.yearOfEra / 100 + day.dayOfYear := by
  have olympiads := day.olympiad_range
  have years := day.year_range
  simp only [number, yearOfEra]
  omega

theorem leap_year (day : DayOfEra) (era : Int) (leapDay : day.dayOfYear = 365) :
    IsLeap (day.yearOfEra + 400 * era + 1) := by
  have centuries := day.century_range
  have olympiads := day.olympiad_range
  have last := day.leap_day leapDay
  simp only [IsLeap, yearOfEra]
  omega

def date (day : DayOfEra) (era : Int) : Date :=
  Date.ofMarch (day.yearOfEra + 400 * era) day.dayOfYear.toNat
    (by have := day.dayOfYear_range; omega)
    (by
      intro last
      apply day.leap_year era
      omega)

theorem dayNumber_date (day : DayOfEra) (era : Int) :
    (day.date era).dayNumber = era * 146097 + day.number - 719468 := by
  have years := day.yearOfEra_range
  have days := day.dayOfYear_range
  have month := marchMonth_le (show day.dayOfYear.toNat ≤ 366 by omega)
  have quarter : (day.yearOfEra + 400 * era) / 4 = day.yearOfEra / 4 + 100 * era := by omega
  have century : (day.yearOfEra + 400 * era) / 100 = day.yearOfEra / 100 + 4 * era := by omega
  have cycle : (day.yearOfEra + 400 * era) / 400 = era := by omega
  change dayCount (civilYear _ _) (civilMonth _) (marchDay _) = _
  rw [dayCount_march _ _ month.1, quarter, century, cycle, day.number_eq]
  simp only [marchDay]
  omega

end DayOfEra

end March

end Gregorian
