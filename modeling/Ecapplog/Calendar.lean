import Ecapplog.Foundations.Gregorian
import Ecapplog.Timestamp

/-! `civil_from_days` against the proleptic Gregorian calendar. -/

namespace Ecapplog

open Gregorian (Date DayOfEra dayCount civilYear civilMonth marchMonth marchDay)

/-- `date` is the only date of the day, and the code names it. -/
def CivilOf (days : Int) (date : Date) : Prop :=
  civilFromDays days = (date.year, date.month, date.day) ∧ date.dayNumber = days ∧
    ∀ other : Date, other.dayNumber = days → other = date

def yearOfEra (doe : Int) : Int :=
  (doe - doe.tdiv 1460 + doe.tdiv 36524 - doe.tdiv 146096).tdiv 365

theorem yearOfEra_nonneg {doe : Int} (positive : 0 ≤ doe) :
    yearOfEra doe = (doe - doe / 1460 + doe / 36524 - doe / 146096) / 365 := by
  have enough : 0 ≤ doe - doe / 1460 + doe / 36524 - doe / 146096 := by omega
  rw [yearOfEra, Int.tdiv_eq_ediv_of_nonneg positive, Int.tdiv_eq_ediv_of_nonneg positive,
    Int.tdiv_eq_ediv_of_nonneg positive, Int.tdiv_eq_ediv_of_nonneg enough]

theorem yearOfEra_number (day : DayOfEra) : yearOfEra day.number = day.yearOfEra := by
  rcases day with ⟨c, q, a, d, centuries, olympiads, years, days, leap⟩
  have range := (DayOfEra.mk c q a d centuries olympiads years days leap).number_range
  rw [yearOfEra_nonneg range.1]
  simp only [DayOfEra.number, DayOfEra.yearOfEra] at range ⊢
  generalize number : 36524 * c + 1461 * q + 365 * a + d = n at range ⊢
  have quads : (n / 1460 = 25 * c + q ∧ 24 * c + q + 365 * a + d < 1460) ∨
      (n / 1460 = 25 * c + q + 1 ∧ 1460 ≤ 24 * c + q + 365 * a + d) := by omega
  have ends : (n / 36524 = c ∧ n / 146096 = 0 ∧ n < 146096) ∨
      (n / 36524 = 4 ∧ n / 146096 = 1 ∧ n = 146096) := by omega
  omega

theorem yearOfEra_late (day : DayOfEra) (early : day.number ≤ 146095) :
    yearOfEra (146097 + day.number) = 400 + day.yearOfEra := by
  rcases day with ⟨c, q, a, d, centuries, olympiads, years, days, leap⟩
  have range := (DayOfEra.mk c q a d centuries olympiads years days leap).number_range
  rw [yearOfEra_nonneg (by omega)]
  simp only [DayOfEra.number, DayOfEra.yearOfEra] at range early ⊢
  generalize number : 36524 * c + 1461 * q + 365 * a + d = n at range early ⊢
  have quads : ((146097 + n) / 1460 = 100 + 25 * c + q ∧ 97 + 24 * c + q + 365 * a + d < 1460) ∨
      ((146097 + n) / 1460 = 101 + 25 * c + q ∧ 1460 ≤ 97 + 24 * c + q + 365 * a + d) := by omega
  have centuryEnds : ((146097 + n) / 36524 = 4 + c ∧ 1461 * q + 365 * a + d < 36523) ∨
      ((146097 + n) / 36524 = 5 + c ∧ 36523 ≤ 1461 * q + 365 * a + d) := by omega
  have eras : ((146097 + n) / 146096 = 1 ∧ n < 146095) ∨
      ((146097 + n) / 146096 = 2 ∧ n = 146095) := by omega
  omega

def eraOf (z : Int) : Int := (if 0 ≤ z then z else z - 146096) / 146097

def civilOfEra (era doe : Int) : Int × Nat × Nat :=
  let yoe := yearOfEra doe
  let doy := doe - (365 * yoe + yoe.tdiv 4 - yoe.tdiv 100)
  let mp := (5 * doy + 2).tdiv 153
  let month := asU32 (mp + if mp < 10 then 3 else -9)
  (yoe + era * 400 + (if month ≤ 2 then 1 else 0), month,
    asU32 (doy - (153 * mp + 2).tdiv 5 + 1))

theorem civilFromDays_eq (days : Int) :
    civilFromDays days =
      civilOfEra (eraOf (days + 719468))
        (days + 719468 - eraOf (days + 719468) * 146097) := rfl

theorem civilOfEra_march {doe yoe : Int} {doy : Nat} (era : Int) (year : yearOfEra doe = yoe)
    (positive : 0 ≤ yoe) (bound : doy ≤ 366)
    (parts : doe = 365 * yoe + yoe / 4 - yoe / 100 + doy) :
    civilOfEra era doe =
      (civilYear (yoe + 400 * era) (marchMonth doy), civilMonth (marchMonth doy),
        marchDay doy) := by
  have within := Gregorian.marchMonth_le bound
  have quarter : yoe.tdiv 4 = yoe / 4 := Int.tdiv_eq_ediv_of_nonneg positive
  have century : yoe.tdiv 100 = yoe / 100 := Int.tdiv_eq_ediv_of_nonneg positive
  have dayOfYear : doe - (365 * yoe + yoe.tdiv 4 - yoe.tdiv 100) = doy := by omega
  have monthOfYear : (5 * (doy : Int) + 2).tdiv 153 = marchMonth doy := by
    rw [Int.tdiv_eq_ediv_of_nonneg (by omega)]
    simp only [marchMonth]
    omega
  have start : (153 * (marchMonth doy : Int) + 2).tdiv 5 =
      ((153 * marchMonth doy + 2) / 5 : Nat) := by
    rw [Int.tdiv_eq_ediv_of_nonneg (by omega)]
    omega
  have day : asU32 (doy - ((153 * marchMonth doy + 2) / 5 : Nat) + 1) = marchDay doy := by
    simp only [asU32, marchDay]
    omega
  simp only [civilOfEra, year, dayOfYear, monthOfYear, start, day, civilYear, civilMonth]
  by_cases spring : marchMonth doy < 10
  · have name : asU32 ((marchMonth doy : Int) + if (marchMonth doy : Int) < 10 then 3 else -9) =
        marchMonth doy + 3 := by
      rw [if_pos (by omega)]
      simp only [asU32]
      omega
    rw [name, if_neg (by omega), if_pos spring, if_pos spring, Int.add_zero, Int.mul_comm era]
  · have name : asU32 ((marchMonth doy : Int) + if (marchMonth doy : Int) < 10 then 3 else -9) =
        marchMonth doy - 9 := by
      rw [if_neg (by omega)]
      simp only [asU32]
      omega
    rw [name, if_pos (by omega), if_neg spring, if_neg spring, Int.mul_comm era]

/-- The day counts that the code gets right: from 0000-03-01 on, and before it the
leap days of the years divisible by 400. -/
def EraFits (days : Int) : Prop := -719468 ≤ days ∨ (days + 719468) % 146097 = 146096

instance (days : Int) : Decidable (EraFits days) :=
  inferInstanceAs (Decidable (_ ∨ _))

theorem eraOf_fits {days : Int} (fits : EraFits days) :
    days + 719468 - eraOf (days + 719468) * 146097 = (days + 719468) % 146097 := by
  rw [EraFits] at fits
  rw [eraOf]
  split <;> omega

theorem eraOf_misfits {days : Int} (misfits : ¬ EraFits days) :
    days + 719468 - eraOf (days + 719468) * 146097 = 146097 + (days + 719468) % 146097 ∧
      (days + 719468) % 146097 ≤ 146095 := by
  rw [EraFits] at misfits
  rw [eraOf]
  split <;> omega

theorem civilOfEra_number (day : DayOfEra) (era : Int) :
    civilOfEra era day.number =
      ((day.date era).year, (day.date era).month, (day.date era).day) := by
  have years := day.yearOfEra_range
  have days := day.dayOfYear_range
  have parts : day.number = 365 * day.yearOfEra + day.yearOfEra / 4 - day.yearOfEra / 100 +
      (day.dayOfYear.toNat : Int) := by
    rw [day.number_eq]
    omega
  exact civilOfEra_march era (yearOfEra_number day) years.1 (by omega) parts

theorem civilOfEra_late (day : DayOfEra) (era : Int) (early : day.number ≤ 146095) :
    dayCount (civilOfEra era (146097 + day.number)).1 (civilOfEra era (146097 + day.number)).2.1
        (civilOfEra era (146097 + day.number)).2.2 =
      era * 146097 + (146097 + day.number) + 1 - 719468 := by
  have years := day.yearOfEra_range
  have days := day.dayOfYear_range
  have parts := day.number_eq
  have quarter : (400 + day.yearOfEra) / 4 = 100 + day.yearOfEra / 4 := by omega
  have century : (400 + day.yearOfEra) / 100 = 4 + day.yearOfEra / 100 := by omega
  have lateParts : 146097 + day.number = 365 * (400 + day.yearOfEra) +
      (400 + day.yearOfEra) / 4 - (400 + day.yearOfEra) / 100 +
      (day.dayOfYear.toNat + 1 : Nat) := by
    rw [quarter, century, parts]
    omega
  have month := Gregorian.marchMonth_le (show day.dayOfYear.toNat + 1 ≤ 366 by omega)
  have named := civilOfEra_march era (yearOfEra_late day early) (by omega) (by omega) lateParts
  have inYear : (400 + day.yearOfEra + 400 * era) / 400 = 1 + era := by omega
  have inQuarter : (400 + day.yearOfEra + 400 * era) / 4 =
      100 + day.yearOfEra / 4 + 100 * era := by omega
  have inCentury : (400 + day.yearOfEra + 400 * era) / 100 =
      4 + day.yearOfEra / 100 + 4 * era := by omega
  rw [named]
  dsimp only
  rw [Gregorian.dayCount_march _ _ month.1, inQuarter, inCentury, inYear, parts]
  simp only [marchDay]
  omega

theorem civilOf_fits {days : Int} (fits : EraFits days) : ∃ date, CivilOf days date := by
  obtain ⟨day, number⟩ := DayOfEra.exists_number
    (show 0 ≤ (days + 719468) % 146097 by omega) (show (days + 719468) % 146097 ≤ 146096 by omega)
  have here := eraOf_fits fits
  rw [← number] at here
  have names := civilOfEra_number day (eraOf (days + 719468))
  rw [← here, ← civilFromDays_eq] at names
  have numbered : (day.date (eraOf (days + 719468))).dayNumber = days := by
    rw [day.dayNumber_date, ← here]
    omega
  refine ⟨_, names, numbered, ?_⟩
  intro other same
  exact Date.dayNumber_injective (same.trans numbered.symm)

theorem eraFits_of_civilOf {days : Int} {date : Date} (civil : CivilOf days date) :
    EraFits days := by
  obtain ⟨names, numbered, _⟩ := civil
  by_contra misfits
  rcases eraOf_misfits misfits with ⟨late, early⟩
  obtain ⟨day, number⟩ := DayOfEra.exists_number
    (show 0 ≤ (days + 719468) % 146097 by omega) (by omega)
  rw [← number] at late early
  have count := civilOfEra_late day (eraOf (days + 719468)) early
  rw [← late, ← civilFromDays_eq, names] at count
  change date.dayNumber = _ at count
  omega

theorem CivilOf.next {days : Int} {date : Date} (today : CivilOf days date)
    (fits : EraFits (days + 1)) : CivilOf (days + 1) date.next := by
  obtain ⟨after, tomorrow⟩ := civilOf_fits fits
  have same : date.next = after := by
    apply tomorrow.2.2
    rw [Date.dayNumber_next, today.2.1]
  rw [same]
  exact tomorrow

/-- The code names the date of a day, the only one there is, exactly where its era fits; and
where that of the day after fits too, it names the calendar successor there. -/
theorem civil_from_days_iff (days : Int) :
    ((∃ date, CivilOf days date) ↔ EraFits days) ∧
      ∀ date, CivilOf days date → EraFits (days + 1) → CivilOf (days + 1) date.next := by
  constructor
  · constructor
    · rintro ⟨date, civil⟩
      exact eraFits_of_civilOf civil
    · exact civilOf_fits
  · intro date today fits
    exact today.next fits

theorem year_zero_misdated :
    civilFromDays (-719470) = (0, 2, 29) ∧ dayCount 0 2 28 = -719470 ∧
      ¬ ∃ date, CivilOf (-719470) date := by
  have named : civilFromDays (-719470) = (0, 2, 29) := by decide
  refine ⟨named, by decide, ?_⟩
  rintro ⟨date, names, numbered, _⟩
  rw [named] at names
  rcases date with ⟨year, month, day, _, _⟩
  cases names
  change dayCount 0 2 29 = -719470 at numbered
  exact absurd numbered (by decide)

end Ecapplog
