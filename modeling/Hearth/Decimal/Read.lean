import Hearth.Decimal.Whole

/-!
# Reading decimal fractions

A decimal is read exactly and rounded once, to the nearest double.
-/

namespace Hearth.Decimal

/-- Digits with at most one point among them, at least one digit in all, rounded to the nearest
double. -/
def readUnsigned (cs : List Char) : Option Float :=
  let whole := cs.takeWhile Char.isDigit
  let digits (fraction : List Char) : Option Float :=
    if whole.isEmpty && fraction.isEmpty then none
    else if fraction.any (!·.isDigit) then none
    else some (Float.ofScientific (ofDigits (whole ++ fraction)) true fraction.length)
  match cs.dropWhile Char.isDigit with
  | [] => digits []
  | '.' :: fraction => digits fraction
  | _ => none

/-- `digits · 10 ^ exponent` as the nearest double, if that is finite. Far outside the range of
doubles the power is not worked out. -/
def ofScientific? (digits : Nat) (exponent : Int) : Option Float :=
  let point := ((toString digits).length : Int) + exponent
  if digits == 0 || point < -400 then some 0.0
  else if 400 < point then none
  else
    let x := Float.ofScientific digits (exponent < 0) exponent.natAbs
    if x.isFinite then some x else none

/-- The exponent behind a decimal: nothing, or a mark, perhaps a sign, and digits. -/
def readExponent : List Char → Option Int
  | [] => some 0
  | c :: rest => if c == 'e' || c == 'E' then readInt (String.ofList rest) else none

/-- Digits with at most one point among them, at least one digit in all, and perhaps an exponent;
the nearest double, if it is finite. -/
def readScientific (cs : List Char) : Option Float := do
  let whole := cs.takeWhile Char.isDigit
  let rest := cs.dropWhile Char.isDigit
  let (fraction, rest) :=
    match rest with
    | '.' :: rest => (rest.takeWhile Char.isDigit, rest.dropWhile Char.isDigit)
    | rest => ([], rest)
  if whole.isEmpty && fraction.isEmpty then none
  let exponent ← readExponent rest
  ofScientific? (ofDigits (whole ++ fraction)) (exponent - fraction.length)

end Hearth.Decimal
