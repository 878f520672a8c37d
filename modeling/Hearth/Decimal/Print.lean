import Hearth.Decimal.Shortest

/-!
# Texts of doubles

Two styles are in use: data files write a double so that it stays recognizable as one (`1.0`,
`1e16`), messages write it in full without an exponent (`1`, `10000000000000000`).
-/

namespace Hearth.Decimal

/-- `n` zeros. -/
def zeros (n : Nat) : String := String.ofList (List.replicate n '0')

/-- `digits · 10 ^ exponent` written out, without an exponent. -/
def Digits.plain (d : Digits) : String :=
  let ds := toString d.digits
  if 0 ≤ d.exponent then ds ++ zeros d.exponent.toNat
  else
    let places := (-d.exponent).toNat
    if places < ds.length then
      String.ofList (ds.toList.take (ds.length - places)) ++ "." ++
        String.ofList (ds.toList.drop (ds.length - places))
    else "0." ++ zeros (places - ds.length) ++ ds

/-- One digit before the point and an exponent, `1.5e-7`. -/
def Digits.scientific (d : Digits) : String :=
  let ds := toString d.digits
  let exponent := d.exponent + (ds.length - 1 : Nat)
  let fraction := ds.toList.drop 1
  let head := String.ofList (ds.toList.take 1)
  let mantissa := if fraction.isEmpty then head else head ++ "." ++ String.ofList fraction
  mantissa ++ "e" ++ toString exponent

/-- The style of data files: positional from `0.00001` up to sixteen places before the point, with
a point in every positional text, and an exponent outside that range. -/
def Digits.data (d : Digits) : String :=
  let point := ((toString d.digits).length : Int) + d.exponent
  if 0 ≤ d.exponent && point ≤ 16 then d.plain ++ ".0"
  else if -5 < point && point ≤ 16 then d.plain
  else d.scientific

/-- A finite or infinite double in the given style. -/
def printWith (zero : String) (style : Digits → String) (infinite : String) (nan : String)
    (x : Float) : String :=
  let sign (negative : Bool) := if negative then "-" else ""
  match Parts.ofFloat x with
  | .finite negative ⟨0, _⟩ => sign negative ++ zero
  | .finite negative value => sign negative ++ style value.shortest
  | .infinite negative => sign negative ++ infinite
  | .nan => nan

/-- The text of a double in a data file. -/
def printData (x : Float) : String := printWith "0.0" Digits.data ".inf" ".nan" x

/-- The text of a double in a message. -/
def printMessage (x : Float) : String := printWith "0" Digits.plain "inf" "NaN" x

end Hearth.Decimal
