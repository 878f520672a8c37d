import Hearth.Decimal.Whole

/-!
# Points in time

A point in time is a number of nanoseconds since the beginning of 1970, in universal time. Its
written form is a date, a time of day and an offset.
-/

namespace Hearth

/-- A point in time, in nanoseconds since 1970. -/
structure Timestamp where
  nanos : Int
  deriving Repr, DecidableEq, Inhabited

namespace Timestamp

/-- Microseconds since 1970, rounded down. -/
def micros (t : Timestamp) : Int := t.nanos.fdiv 1000

/-- The number of days from 1970 to a day of the Gregorian calendar. Years count from March, so
that the day that a leap year adds is the last one. -/
def daysOf (year : Int) (month day : Nat) : Int :=
  let y := if month ≤ 2 then year - 1 else year
  let era := y.fdiv 400
  let yearOfEra := y - era * 400
  let shifted : Int := if month ≤ 2 then month + 9 else month - 3
  let dayOfYear := (153 * shifted + 2) / 5 + day - 1
  era * 146097 + yearOfEra * 365 + yearOfEra / 4 - yearOfEra / 100 + dayOfYear - 719468

/-- The year, month and day that are the given number of days after the start of 1970. -/
def dateOf (days : Int) : Int × Nat × Nat :=
  let z := days + 719468
  let era := z.fdiv 146097
  let dayOfEra := z - era * 146097
  let yearOfEra := (dayOfEra - dayOfEra / 1460 + dayOfEra / 36524 - dayOfEra / 146096) / 365
  let dayOfYear := dayOfEra - (365 * yearOfEra + yearOfEra / 4 - yearOfEra / 100)
  let shifted := (5 * dayOfYear + 2) / 153
  let day := dayOfYear - (153 * shifted + 2) / 5 + 1
  let month := if shifted < 10 then shifted + 3 else shifted - 9
  let year := yearOfEra + era * 400 + (if month ≤ 2 then 1 else 0)
  (year, month.toNat, day.toNat)

/-- Is there a 29th of February in the year? -/
def isLeap (year : Int) : Bool := year % 4 == 0 && (year % 100 != 0 || year % 400 == 0)

/-- The number of days of a month. -/
def monthLength (year : Int) : Nat → Nat
  | 2 => if isLeap year then 29 else 28
  | 4 | 6 | 9 | 11 => 30
  | _ => 31

/-- A number with zeros in front, at least `width` digits. -/
def padded (width n : Nat) : String :=
  let ds := toString n
  String.ofList (List.replicate (width - ds.length) '0') ++ ds

/-- The date and time of day, with as many triples of decimals as needed. -/
def dateTime (t : Timestamp) : String :=
  let seconds := t.nanos.fdiv 1000000000
  let nanos := (t.nanos - seconds * 1000000000).toNat
  let days := seconds.fdiv 86400
  let ofDay := (seconds - days * 86400).toNat
  let (year, month, day) := dateOf days
  let yearText :=
    if 0 ≤ year && year ≤ 9999 then padded 4 year.toNat
    else (if year < 0 then "-" else "+") ++ padded 4 year.natAbs
  let fraction :=
    if nanos == 0 then ""
    else if nanos % 1000000 == 0 then "." ++ padded 3 (nanos / 1000000)
    else if nanos % 1000 == 0 then "." ++ padded 6 (nanos / 1000)
    else "." ++ padded 9 nanos
  yearText ++ "-" ++ padded 2 month ++ "-" ++ padded 2 day ++ "T" ++ padded 2 (ofDay / 3600) ++
    ":" ++ padded 2 (ofDay / 60 % 60) ++ ":" ++ padded 2 (ofDay % 60) ++ fraction

/-- The form shown to people, with a numeric offset. -/
def render (t : Timestamp) : String := t.dateTime ++ "+00:00"

/-- The form kept in files, with the letter for universal time. -/
def stored (t : Timestamp) : String := t.dateTime ++ "Z"

end Timestamp

end Hearth
