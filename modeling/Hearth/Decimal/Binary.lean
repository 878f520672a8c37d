/-!
# Binary fractions

A finite double is `m · 2 ^ q` with a whole `m`. Exact work on doubles (shortest texts, spans of
time) is done on `m` and `q` in natural numbers.
-/

namespace Hearth.Decimal

/-- The value `m · 2 ^ q`, without its sign. -/
structure Binary where
  m : Nat
  q : Int
  deriving Repr, DecidableEq

/-- A double taken apart. -/
inductive Parts where
  | finite (negative : Bool) (value : Binary)
  | infinite (negative : Bool)
  | nan
  deriving Repr, DecidableEq

/-- The parts of the double with the given bits: one of sign, eleven of exponent, 52 of fraction. -/
def Parts.ofBits (bits : UInt64) : Parts :=
  let n := bits.toNat
  let negative := n >>> 63 == 1
  let exponent : Nat := (n >>> 52) % 2048
  let fraction : Nat := n % (1 <<< 52)
  if exponent == 2047 then
    if fraction == 0 then .infinite negative else .nan
  else if exponent == 0 then .finite negative ⟨fraction, -1074⟩
  else .finite negative ⟨(1 <<< 52) + fraction, (exponent : Int) - 1075⟩

/-- The parts of a double. -/
def Parts.ofFloat (x : Float) : Parts := .ofBits x.toBits

/-- The quotient `num / den` rounded to the nearest whole number, a half to the even neighbour. -/
def roundDiv (num den : Nat) : Nat :=
  let whole := num / den
  let rest := 2 * (num % den)
  if rest < den then whole
  else if rest == den then whole + whole % 2
  else whole + 1

/-- `value · scale` rounded to the nearest whole number, a half to the even neighbour. -/
def Binary.scaled (b : Binary) (scale : Nat) : Nat :=
  if 0 ≤ b.q then (b.m * scale) <<< b.q.toNat
  else roundDiv (b.m * scale) (1 <<< (-b.q).toNat)

end Hearth.Decimal
