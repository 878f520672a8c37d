import Hearth.Text.Blank
import Hearth.Timestamp

/-!
# Reading points in time

A written point in time is a date, a letter T or a blank, a time of day and an offset. It is read
with some freedom: a number may have fewer digits than usual, blanks may stand before every part,
and the offset may be written in several ways.
-/

namespace Hearth.Timestamp

/-- The characters after the blanks at the start. -/
def skipBlanks (cs : List Char) : List Char := cs.dropWhile Text.isBlank

/-- At least one digit and at most `most`, after blanks, and the rest. -/
def takeNumber (most : Nat) (cs : List Char) : Option (Nat × List Char) :=
  let cs := skipBlanks cs
  let ds := (cs.take most).takeWhile Char.isDigit
  if ds.isEmpty then none else some (Decimal.ofDigits ds, cs.drop ds.length)

/-- The digits behind the sign of a year, and the rest. -/
def takeDigits (cs : List Char) : Option (Nat × List Char) :=
  let ds := cs.takeWhile Char.isDigit
  if ds.isEmpty then none else some (Decimal.ofDigits ds, cs.dropWhile Char.isDigit)

/-- A year after blanks, and the rest. A year with a sign may have more than four digits. -/
def takeYear (cs : List Char) : Option (Int × List Char) :=
  match skipBlanks cs with
  | '-' :: cs => (takeDigits cs).map fun (n, cs) => (-(n : Int), cs)
  | '+' :: cs => (takeDigits cs).map fun (n, cs) => ((n : Int), cs)
  | cs => (takeNumber 4 cs).map fun (n, cs) => ((n : Int), cs)

/-- The rest after blanks and an expected character. -/
def expect (c : Char) (cs : List Char) : Option (List Char) :=
  match skipBlanks cs with
  | d :: rest => if c == d then some rest else none
  | [] => none

/-- The rest after what stands between date and time. -/
def expectTime : List Char → Option (List Char)
  | c :: rest => if c == 'T' || c == 't' || c == ' ' then some rest else none
  | [] => none

/-- The decimals of a second in nanoseconds, digits after the ninth ignored, and the rest. -/
def takeFraction : List Char → Option (Nat × List Char)
  | '.' :: cs =>
    let ds := cs.takeWhile Char.isDigit
    if ds.isEmpty then none
    else
      let nine := (ds ++ List.replicate 9 '0').take 9
      some (Decimal.ofDigits nine, cs.dropWhile Char.isDigit)
  | cs => some (0, cs)

/-- Two digits and the rest. -/
def takePair : List Char → Option (Nat × List Char)
  | a :: b :: rest =>
    if a.isDigit && b.isDigit then some (Decimal.ofDigits [a, b], rest) else none
  | _ => none

/-- Hours and minutes of an offset in seconds, and the rest. Between them may stand blanks and
colons. -/
def takeHours (cs : List Char) : Option (Nat × List Char) := do
  let (hours, cs) ← takePair cs
  let (minutes, cs) ← takePair (cs.dropWhile fun c => c == ':' || Text.isBlank c)
  if 59 < minutes then none else some (hours * 3600 + minutes * 60, cs)

/-- An offset from universal time in seconds, and the rest: the letter Z, the letters UTC, or a sign
with hours and minutes. -/
def takeOffset : List Char → Option (Int × List Char)
  | '+' :: rest => (takeHours rest).map fun (n, rest) => ((n : Int), rest)
  | '-' :: rest => (takeHours rest).map fun (n, rest) => (-(n : Int), rest)
  | '−' :: rest => (takeHours rest).map fun (n, rest) => (-(n : Int), rest)
  | c :: rest =>
    if c == 'Z' || c == 'z' then some (0, rest)
    else if ((c :: rest).take 3).map Char.toLower == ['u', 't', 'c'] then some (0, rest.drop 2)
    else none
  | [] => none

/-- The years that a point in time may lie in. -/
def isYear (year : Int) : Bool := -262143 ≤ year && year ≤ 262142

/-- Reads a written point in time. The sixtieth second of a minute is a leap second, and an offset
is less than a day. -/
def ofText? (s : String) : Option Timestamp := do
  let (year, cs) ← takeYear s.toList
  let cs ← expect '-' cs
  let (month, cs) ← takeNumber 2 cs
  let cs ← expect '-' cs
  let (day, cs) ← takeNumber 2 cs
  let cs ← expectTime cs
  let (hour, cs) ← takeNumber 2 cs
  let cs ← expect ':' cs
  let (minute, cs) ← takeNumber 2 cs
  let cs ← expect ':' cs
  let (second, cs) ← takeNumber 2 cs
  let (nanos, cs) ← takeFraction cs
  let (offset, cs) ← takeOffset (skipBlanks cs)
  if !(skipBlanks cs).isEmpty then none
  else if !isYear year || month < 1 || 12 < month || day < 1 || monthLength year month < day then
    none
  else if 23 < hour || 59 < minute || 60 < second || 86400 ≤ offset.natAbs then none
  else
    let minutes := daysOf year month day * 1440 + (hour * 60 + minute : Nat)
    let seconds := minutes * 60 + second - offset
    let (universal, _, _) := dateOf ((minutes * 60 - offset).fdiv 86400)
    if isYear universal then some ⟨seconds * 1000000000 + nanos⟩ else none

end Hearth.Timestamp
