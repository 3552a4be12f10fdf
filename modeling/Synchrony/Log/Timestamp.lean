import Synchrony.Failure
import Synchrony.Number.Binary64

/-!
# Timestamps

A log line says when it was made: a date and a time of day in universal time, and microseconds
unless there are none. The moment comes as a number of seconds since the beginning of 1970.

## The date

Years are counted from the first of March, so that the day a leap year adds comes last. Then 400
years always have 146097 days, the months of a year begin at `(153 * m + 2) / 5` days, and the day
count of any date is a sum of quotients (`civil`).
-/

set_option autoImplicit false

namespace Synchrony.Timestamp

/-- A day of the calendar. -/
structure Date where
  year : Int
  month : Nat
  day : Nat
  deriving DecidableEq, Repr

/-- The date that is `days` days after the first of January 1970. -/
def civil (days : Int) : Date :=
  -- days since the first of March of the year 0, in eras of 400 years
  let shifted := days + 719468
  let era := shifted.fdiv 146097
  let dayOfEra := (shifted.fmod 146097).toNat
  let yearOfEra :=
    (dayOfEra - dayOfEra / 1460 + dayOfEra / 36524 - dayOfEra / 146096) / 365
  let dayOfYear := dayOfEra - (365 * yearOfEra + yearOfEra / 4 - yearOfEra / 100)
  let monthFromMarch := (5 * dayOfYear + 2) / 153
  let month := if monthFromMarch < 10 then monthFromMarch + 3 else monthFromMarch - 9
  { year := yearOfEra + era * 400 + (if month ≤ 2 then 1 else 0)
    month := month
    day := dayOfYear - (153 * monthFromMarch + 2) / 5 + 1 }

/-- A number with at least `count` digits. -/
def padded (count n : Nat) : String :=
  let ds := Decimal.digits n
  String.ofList (List.replicate (count - ds.length) '0' ++ ds)

/-- Whole seconds and microseconds since the beginning of 1970. The fraction of a second is rounded
to microseconds, after it has been rounded to a floating point number of them. -/
def split (negative : Bool) (units : Nat) : Int × Nat :=
  let whole : Int := units / Binary64.unitsPerOne
  let micros : Int :=
    match Binary64.nearest negative (units % Binary64.unitsPerOne * 1000000) 1 with
    | .finite _ scaled => Binary64.divideToEven scaled Binary64.unitsPerOne
    | _ => 0
  let total := if negative then -(whole * 1000000 + micros) else whole * 1000000 + micros
  (total.fdiv 1000000, (total.fmod 1000000).toNat)

/-- A moment that is too far away for any calendar. -/
def outOfRange : Failure :=
  .fault .overflow "timestamp out of range for platform time_t"

/-- A year as a refusal tells it. Years are counted in machine words of 32 bits, and one that is
just too late for them comes out as one before the calendar. -/
def toldYear (year : Int) : Int :=
  if fitsWord 32 year then year else year - (twoTo 32 : Nat)

/-- The text of a moment in whole seconds. Only the years 1 to 9999 have one; moments beyond the
calendar altogether are refused in two more ways. -/
def text (seconds : Int) (separator : String) : Except Failure String :=
  if !fitsWord 64 seconds then .error outOfRange
  else
    let date := civil (seconds.fdiv 86400)
    let second := (seconds.fmod 86400).toNat
    if !fitsWord 32 (date.year - 1900) then
      .error (.fault .system "[Errno 75] Value too large for defined data type")
    else if date.year < 1 || date.year > 9999 then
      .error (.fault .value ("year " ++ Decimal.intText (toldYear date.year) ++ " is out of range"))
    else
      .ok (padded 4 date.year.toNat ++ "-" ++ padded 2 date.month ++ "-" ++ padded 2 date.day ++
        separator ++ padded 2 (second / 3600) ++ ":" ++ padded 2 (second / 60 % 60) ++ ":" ++
        padded 2 (second % 60))

/-- The whole seconds and microseconds of a moment. -/
def parts : Numeric → Except Failure (Int × Nat)
  | .int n => .ok (n, 0)
  | .float (.nan _) => .error (.fault .value "Invalid value NaN (not a number)")
  | .float (.infinite _) => .error outOfRange
  | .float (.finite negative units) => .ok (split negative units)

/-- The timestamp of a moment. -/
def stamp (moment : Numeric) : Except Failure String := do
  let (seconds, micros) ← parts moment
  let front ← text seconds "T"
  pure (front ++ (if micros = 0 then "" else "." ++ padded 6 micros) ++ "+00:00")

/-- The timestamp of a moment in plain text: milliseconds behind a comma. -/
def plain (moment : Numeric) : Except Failure String := do
  let (seconds, micros) ← parts moment
  let front ← text seconds " "
  pure (front ++ "," ++ padded 3 (micros / 1000))

end Synchrony.Timestamp
