import Ecapplog.Calendar
import Ecapplog.Foundations.Decimal
import Ecapplog.Proto

/-! The timestamp as the server reads it: the text of a moment, reading it back, and
the order of the texts. -/

namespace Ecapplog

open Gregorian (Date dayCount daysInMonth)

@[ext] structure Moment where
  date : Date
  hour : Nat
  minute : Nat
  second : Nat
  milli : Nat
  year_range : 1 ≤ date.year ∧ date.year ≤ 9999
  hour_range : hour < 24
  minute_range : minute < 60
  second_range : second < 60
  milli_range : milli < 1000

namespace Moment

def millis (m : Moment) : Int :=
  (((m.date.dayNumber * 24 + m.hour) * 60 + m.minute) * 60 + m.second) * 1000 + m.milli

open Decimal (fixed) in
def text (m : Moment) : List Char :=
  fixed 4 m.date.year.toNat ++ '-' :: (fixed 2 m.date.month ++ '-' :: (fixed 2 m.date.day ++
    'T' :: (fixed 2 m.hour ++ ':' :: (fixed 2 m.minute ++ ':' :: (fixed 2 m.second ++
      '.' :: fixed 3 m.milli)))))

end Moment

def nanosPerMilli : Int := 1000000

def nanosPerDay : Int := 86400000000000

/-- Read the server's format, as UTC: digits and marks in their places, every
component in its range. -/
def parseUtc (text : String) : Option SystemTime :=
  match text.toList with
  | [y₁, y₂, y₃, y₄, '-', o₁, o₂, '-', d₁, d₂, 'T', h₁, h₂, ':', m₁, m₂, ':', s₁, s₂, '.',
      z₁, z₂, z₃] => do
      let year ← Decimal.read [y₁, y₂, y₃, y₄]
      let month ← Decimal.read [o₁, o₂]
      let day ← Decimal.read [d₁, d₂]
      let hour ← Decimal.read [h₁, h₂]
      let minute ← Decimal.read [m₁, m₂]
      let second ← Decimal.read [s₁, s₂]
      let milli ← Decimal.read [z₁, z₂, z₃]
      if 1 ≤ month ∧ month ≤ 12 ∧ 1 ≤ day ∧ day ≤ daysInMonth year month ∧ hour < 24 ∧
          minute < 60 ∧ second < 60 then
        some (((((dayCount year month day * 24 + hour) * 60 + minute) * 60 + second) * 1000 +
          milli) * nanosPerMilli)
      else none
  | _ => none

/-- From 0001-01-01T00:00:00 to 10000-01-01T00:00:00, exclusive. -/
def FourDigitYear (time : Int) : Prop :=
  dayCount 1 1 1 * nanosPerDay ≤ time ∧ time < dayCount 10000 1 1 * nanosPerDay

instance (time : Int) : Decidable (FourDigitYear time) :=
  inferInstanceAs (Decidable (_ ∧ _))

theorem padded_fixed {width n : Nat} (positive : 0 < width) (small : n < 10 ^ width) :
    padded width (n : Int) = Decimal.fixed width n := by
  rw [padded, if_neg (by omega), Int.natAbs_natCast, Decimal.replicate_toDigits positive small]

namespace Moment

theorem text_length (m : Moment) : m.text.length = 23 := by
  simp [text, Decimal.fixed_length]

theorem month_day_range (m : Moment) : m.date.month ≤ 12 ∧ m.date.day ≤ 31 :=
  ⟨m.date.month_valid.2, m.date.day_valid.2.trans (Date.daysInMonth_le _ _)⟩

theorem parse_text (m : Moment) :
    parseUtc (String.ofList m.text) = some (m.millis * nanosPerMilli) := by
  have year := m.year_range
  have month := m.date.month_valid
  have day := m.date.day_valid
  have short := m.month_day_range
  have hour := m.hour_range
  have minute := m.minute_range
  have second := m.second_range
  have readYear := Decimal.read_fixed 4 (show m.date.year.toNat < 10 ^ 4 by omega)
  have readMonth := Decimal.read_fixed 2 (show m.date.month < 10 ^ 2 by omega)
  have readDay := Decimal.read_fixed 2 (show m.date.day < 10 ^ 2 by omega)
  have readHour := Decimal.read_fixed 2 (show m.hour < 10 ^ 2 by omega)
  have readMinute := Decimal.read_fixed 2 (show m.minute < 10 ^ 2 by omega)
  have readSecond := Decimal.read_fixed 2 (show m.second < 10 ^ 2 by omega)
  have readMilli := Decimal.read_fixed 3 m.milli_range
  have same : ((m.date.year.toNat : Nat) : Int) = m.date.year := by omega
  simp only [Decimal.fixed, List.nil_append, List.cons_append] at readYear readMonth readDay
  simp only [Decimal.fixed, List.nil_append, List.cons_append] at readHour readMinute readSecond
  simp only [Decimal.fixed, List.nil_append, List.cons_append] at readMilli
  simp only [parseUtc, String.toList_ofList, text, Decimal.fixed, List.nil_append,
    List.cons_append, readYear, readMonth, readDay, readHour, readMinute, readSecond, readMilli,
    Option.bind_eq_bind, Option.bind_some, same]
  rw [if_pos ⟨month.1, month.2, day.1, day.2, hour, minute, second⟩]
  rfl

def clock (m : Moment) : Nat :=
  ((m.hour * 60 + m.minute) * 60 + m.second) * 1000 + m.milli

theorem millis_eq (m : Moment) : m.millis = m.date.dayNumber * 86400000 + m.clock := by
  simp only [millis, clock]
  omega

theorem clock_lt (m : Moment) : m.clock < 86400000 := by
  have hour := m.hour_range
  have minute := m.minute_range
  have second := m.second_range
  have milli := m.milli_range
  simp only [clock]
  omega

theorem millis_injective {a b : Moment} (same : a.millis = b.millis) : a = b := by
  rw [millis_eq, millis_eq] at same
  have first := a.clock_lt
  have second := b.clock_lt
  have dates : a.date = b.date := Date.dayNumber_injective (by omega)
  have clocks : a.clock = b.clock := by omega
  have ranges := And.intro a.minute_range (And.intro a.second_range a.milli_range)
  have others := And.intro b.minute_range (And.intro b.second_range b.milli_range)
  simp only [clock] at clocks
  exact Moment.ext dates (by omega) (by omega) (by omega) (by omega)

theorem text_lt_fields (a b : Moment) :
    a.text < b.text ↔
      a.date.Before b.date ∨ (a.date.year = b.date.year ∧ a.date.month = b.date.month ∧
        a.date.day = b.date.day ∧ a.clock < b.clock) := by
  have same (c : Char) (x y : List Char) : c :: x < c :: y ↔ x < y := by
    rw [List.cons_lt_cons_iff]
    simp
  have widths (width m n : Nat) :
      (Decimal.fixed width m).length = (Decimal.fixed width n).length := by
    rw [Decimal.fixed_length, Decimal.fixed_length]
  have lt (width m n : Nat) (first : m < 10 ^ width) (second : n < 10 ^ width) :
      (Decimal.fixed width m < Decimal.fixed width n ↔ m < n) ∧
        (Decimal.fixed width m = Decimal.fixed width n ↔ m = n) :=
    ⟨Decimal.fixed_lt_fixed first second, Decimal.fixed_inj first second⟩
  have years := And.intro a.year_range b.year_range
  have dates := And.intro a.month_day_range b.month_day_range
  have hours := And.intro a.hour_range b.hour_range
  have minutes := And.intro a.minute_range b.minute_range
  have seconds := And.intro a.second_range b.second_range
  have millis := And.intro a.milli_range b.milli_range
  have year := lt 4 a.date.year.toNat b.date.year.toNat (by omega) (by omega)
  have month := lt 2 a.date.month b.date.month (by omega) (by omega)
  have day := lt 2 a.date.day b.date.day (by omega) (by omega)
  have hour := lt 2 a.hour b.hour (by omega) (by omega)
  have minute := lt 2 a.minute b.minute (by omega) (by omega)
  have second := lt 2 a.second b.second (by omega) (by omega)
  have milli := lt 3 a.milli b.milli (by omega) (by omega)
  simp only [text, Decimal.append_lt_append (widths _ _ _), same, year, month, day, hour, minute,
    second, milli, Date.Before, clock]
  omega

theorem text_lt_text (a b : Moment) : a.text < b.text ↔ a.millis < b.millis := by
  rw [text_lt_fields, Date.before_iff, millis_eq, millis_eq]
  have first := a.clock_lt
  have second := b.clock_lt
  constructor
  · rintro (before | ⟨year, month, day, earlier⟩)
    · omega
    · have same : a.date = b.date := Date.ext year month day
      rw [same]
      omega
  · intro less
    rcases Int.lt_trichotomy a.date.dayNumber b.date.dayNumber with before | same | after
    · exact .inl before
    · right
      rw [same] at less
      rw [Date.dayNumber_injective same]
      exact ⟨rfl, rfl, rfl, by omega⟩
    · omega

theorem text_eq_text (a b : Moment) : a.text = b.text ↔ a.millis = b.millis := by
  constructor
  · intro same
    have read := a.parse_text
    rw [same, b.parse_text] at read
    have scaled := Option.some.inj read
    unfold nanosPerMilli at scaled
    omega
  · intro same
    rw [millis_injective same]

theorem utf8_text_length (m : Moment) : (utf8 (String.ofList m.text)).length = 23 := by
  have ascii : ∀ c ∈ m.text, c.utf8Size = 1 := by
    intro c member
    simp only [text, List.mem_append, List.mem_cons] at member
    rcases member with year | rfl | month | rfl | day | rfl | hour | rfl | minute | rfl | second |
      rfl | milli
    case inr.inl | inr.inr.inr.inl => rfl
    all_goals first | rfl | exact Decimal.fixed_ascii (by assumption)
  calc
    (utf8 (String.ofList m.text)).length = (m.text.map Char.utf8Size).sum := utf8_ofList_length _
    _ = (m.text.map fun _ => 1).sum := by rw [List.map_congr_left ascii]
    _ = m.text.length := by simp
    _ = 23 := m.text_length

end Moment

theorem formatUtc_named {time : Int} {date : Date}
    (names : civilFromDays (time / 1000000 / 1000 / 86400) = (date.year, date.month, date.day)) :
    formatUtc time =
      String.ofList (padded 4 date.year ++ ['-'] ++ padded 2 date.month ++ ['-'] ++
        padded 2 date.day ++ ['T'] ++
        padded 2 (asU32 (time / 1000000 / 1000 % 86400) / 3600 : Nat) ++ [':'] ++
        padded 2 (asU32 (time / 1000000 / 1000 % 86400) % 3600 / 60 : Nat) ++ [':'] ++
        padded 2 (asU32 (time / 1000000 / 1000 % 86400) % 60 : Nat) ++ ['.'] ++
        padded 3 (asU32 (time / 1000000 % 1000))) := by
  unfold formatUtc durationSinceEpoch
  by_cases positive : 0 ≤ time
  · have nanos : (time.toNat : Int) = time := Int.toNat_of_nonneg positive
    simp only [if_pos positive, nanos, names]
  · have nanos : -((-time).toNat : Int) = time := by omega
    simp only [if_neg positive, nanos, names]

theorem formatUtc_moment {time : Int} (range : FourDigitYear time) :
    ∃ m : Moment, m.millis = time / nanosPerMilli ∧ formatUtc time = String.ofList m.text := by
  unfold FourDigitYear nanosPerDay at range
  have first : dayCount 1 1 1 = -719162 := by decide
  have last : dayCount 10000 1 1 = 2932897 := by decide
  rw [first, last] at range
  have fits : EraFits (time / 1000000 / 1000 / 86400) := .inl (by omega)
  obtain ⟨date, names, numbered, _⟩ := civilOf_fits fits
  have years : 1 ≤ date.year ∧ date.year ≤ 9999 := by
    have within := date.dayNumber_year
    rw [numbered] at within
    have start : Gregorian.daysBeforeYear 1 = 0 := by decide
    have finish : Gregorian.daysBeforeYear (9999 + 1) = 3652059 := by decide
    constructor
    · by_contra early
      have order := Gregorian.daysBeforeYear_lt (Int.not_le.mp early)
      omega
    · by_contra late
      have order := Gregorian.daysBeforeYear_lt (Int.not_le.mp late)
      omega
  let ofDay := asU32 (time / 1000000 / 1000 % 86400)
  let milli := asU32 (time / 1000000 % 1000)
  have ofDayRange : (ofDay : Int) = time / 1000000 / 1000 % 86400 ∧ ofDay < 86400 := by
    simp only [ofDay, asU32]
    omega
  have milliRange : (milli : Int) = time / 1000000 % 1000 ∧ milli < 1000 := by
    simp only [milli, asU32]
    omega
  refine ⟨⟨date, ofDay / 3600, ofDay % 3600 / 60, ofDay % 60, milli, years, by omega, by omega,
    by omega, milliRange.2⟩, ?_, ?_⟩
  · simp only [Moment.millis, numbered, nanosPerMilli]
    omega
  · have date_range := date.month_valid
    have day_range := date.day_valid.2.trans (Date.daysInMonth_le _ _)
    have year : padded 4 date.year = Decimal.fixed 4 date.year.toNat := by
      have same : date.year = (date.year.toNat : Int) := by omega
      rw [same, padded_fixed (by decide) (by omega), Int.toNat_natCast]
    rw [formatUtc_named names, year, padded_fixed (by decide) (by omega),
      padded_fixed (by decide) (by omega), padded_fixed (by decide) (by omega),
      padded_fixed (by decide) (by omega), padded_fixed (by decide) (by omega),
      padded_fixed (by decide) (by omega)]
    simp [Moment.text, ofDay, milli]

/-- In the years of four digits the timestamp has the server's format, reads back as the
instant rounded down to the millisecond, and sorts as the instants do. -/
theorem timestamp_round_trip {time later : Int} (range : FourDigitYear time)
    (laterRange : FourDigitYear later) :
    (utf8 (formatUtc time)).length = 23 ∧
      parseUtc (formatUtc time) = some (time / nanosPerMilli * nanosPerMilli) ∧
      (formatUtc time < formatUtc later ↔ time / nanosPerMilli < later / nanosPerMilli) ∧
      (formatUtc time = formatUtc later ↔ time / nanosPerMilli = later / nanosPerMilli) ∧
      (time ≤ later → formatUtc time ≤ formatUtc later) := by
  obtain ⟨m, millis, written⟩ := formatUtc_moment range
  obtain ⟨n, laterMillis, laterWritten⟩ := formatUtc_moment laterRange
  have order : formatUtc time < formatUtc later ↔ m.millis < n.millis := by
    rw [written, laterWritten, String.lt_iff, String.toList_ofList, String.toList_ofList]
    exact m.text_lt_text n
  have reversed : formatUtc later < formatUtc time ↔ n.millis < m.millis := by
    rw [written, laterWritten, String.lt_iff, String.toList_ofList, String.toList_ofList]
    exact n.text_lt_text m
  rw [← millis, ← laterMillis]
  refine ⟨?_, ?_, order, ?_, ?_⟩
  · rw [written]
    exact m.utf8_text_length
  · rw [written]
    exact m.parse_text
  · rw [written, laterWritten, String.ofList_inj]
    exact m.text_eq_text n
  · intro inOrder
    have floors : time / nanosPerMilli ≤ later / nanosPerMilli :=
      Int.ediv_le_ediv (by decide) inOrder
    apply String.not_lt.mp
    rw [reversed]
    omega

theorem timestamp_round_trip_epoch :
    (utf8 (formatUtc (-1))).length = 23 ∧
      parseUtc (formatUtc (-1)) = some (-1 / nanosPerMilli * nanosPerMilli) ∧
      (formatUtc (-1) < formatUtc 1581761840120000000 ↔
        -1 / nanosPerMilli < 1581761840120000000 / nanosPerMilli) ∧
      (formatUtc (-1) = formatUtc 1581761840120000000 ↔
        -1 / nanosPerMilli = 1581761840120000000 / nanosPerMilli) ∧
      ((-1 : Int) ≤ 1581761840120000000 → formatUtc (-1) ≤ formatUtc 1581761840120000000) :=
  timestamp_round_trip (by decide) (by decide)

example : formatUtc (-1) = "1969-12-31T23:59:59.999" := by decide

end Ecapplog
