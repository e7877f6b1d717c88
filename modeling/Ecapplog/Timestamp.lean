import Mathlib.Algebra.Group.Int.Defs
import Mathlib.Algebra.Group.Nat.Defs
import Ecapplog.Record

/-! Rendering a `SystemTime` in the server's literal format
`yyyy-MM-ddThh:mm:ss.zzz`. Signed quantities are the source's `i128`. -/

namespace Ecapplog

/-- `duration_since(UNIX_EPOCH)`: an earlier instant gives its distance as an error. -/
def durationSinceEpoch (time : SystemTime) : Except Duration Duration :=
  if 0 ≤ time then .ok time.toNat else .error (-time).toNat

/-- `as u32` on a signed integer keeps the low 32 bits. -/
def asU32 (n : Int) : Nat :=
  (n % 2 ^ 32).toNat

/-- Days since 1970-01-01 to year, month and day. `/` on `i128` truncates
(`Int.tdiv`); `div_euclid` by a positive number is `Int.ediv`. -/
def civilFromDays (days : Int) : Int × Nat × Nat :=
  let z := days + 719468
  let era := (if 0 ≤ z then z else z - 146096) / 146097
  let doe := z - era * 146097
  let yoe := (doe - doe.tdiv 1460 + doe.tdiv 36524 - doe.tdiv 146096).tdiv 365
  let doy := doe - (365 * yoe + yoe.tdiv 4 - yoe.tdiv 100)
  let mp := (5 * doy + 2).tdiv 153
  let day := asU32 (doy - (153 * mp + 2).tdiv 5 + 1)
  let month := asU32 (mp + if mp < 10 then 3 else -9)
  let year := yoe + era * 400 + (if month ≤ 2 then 1 else 0)
  (year, month, day)

/-- Format an integer as `{:0width}` does: the sign counts towards the width. -/
def padded (width : Nat) (n : Int) : List Char :=
  let digits := Nat.toDigits 10 n.natAbs
  if n < 0 then '-' :: (List.replicate (width - 1 - digits.length) '0' ++ digits)
  else List.replicate (width - digits.length) '0' ++ digits

def formatUtc (time : SystemTime) : String :=
  let nanos : Int :=
    match durationSinceEpoch time with
    | .ok d => d
    | .error d => -d
  let totalMillis := nanos / 1000000
  let millis := asU32 (totalMillis % 1000)
  let secs := totalMillis / 1000
  let days := secs / 86400
  let secsOfDay := asU32 (secs % 86400)
  let (year, month, day) := civilFromDays days
  let hour := secsOfDay / 3600
  let minute := secsOfDay % 3600 / 60
  let second := secsOfDay % 60
  String.ofList (padded 4 year ++ ['-'] ++ padded 2 month ++ ['-'] ++ padded 2 day ++ ['T'] ++
    padded 2 hour ++ [':'] ++ padded 2 minute ++ [':'] ++ padded 2 second ++ ['.'] ++
    padded 3 millis)

end Ecapplog
