import Hearth.Decimal.Binary

/-!
# Shortest decimals

The text of a double has the fewest digits that read back as the same double, and of those the
digits nearest to its value. A decimal reads back if it lies between the midpoints to the two
neighbouring doubles; the midpoints themselves read back when `m` is even.
-/

namespace Hearth.Decimal

/-- The decimal `digits · 10 ^ exponent`. -/
structure Digits where
  digits : Nat
  exponent : Int
  deriving Repr, DecidableEq

/-- The `n`-th power of ten. -/
def tenTo (n : Nat) : Nat := Nat.pow 10 n

/-- A value and the midpoints around it, in quarters of the last binary place. -/
structure Interval where
  low : Nat
  value : Nat
  high : Nat
  /-- The power of two that one quarter stands for. -/
  place : Int
  closed : Bool

/-- The decimals that read back as `b`. Below the smallest `m` of a binary exponent the doubles
lie twice as close, so the lower midpoint is nearer. -/
def Interval.around (b : Binary) : Interval where
  low := if b.m == 1 <<< 52 && b.q != -1074 then 4 * b.m - 1 else 4 * b.m - 2
  value := 4 * b.m
  high := 4 * b.m + 2
  place := b.q - 2
  closed := b.m % 2 == 0

/-- The decimal with exponent `k` nearest to the value, if one of the two around it reads back. -/
def Interval.at (i : Interval) (k : Int) : Option Nat :=
  let up := tenTo (-k).toNat <<< i.place.toNat
  let unit := tenTo k.toNat <<< (-i.place).toNat
  let inside (d : Nat) : Bool :=
    let x := d * unit
    if i.closed then i.low * up ≤ x && x ≤ i.high * up
    else i.low * up < x && x < i.high * up
  let below := i.value * up / unit
  let rest := 2 * (i.value * up % unit)
  let nearBelow := rest < unit || (rest == unit && below % 2 == 0)
  let pick (d e : Nat) : Option Nat :=
    if inside d then some d else if inside e then some e else none
  if nearBelow then pick below (below + 1) else pick (below + 1) below

/-- Tries the exponents from `k` downwards. -/
def Interval.search (i : Interval) (k : Int) : Nat → Digits
  | 0 => ⟨0, 0⟩
  | tries + 1 =>
    match i.at k with
    | some d => if d == 0 then i.search (k - 1) tries else ⟨d, k⟩
    | none => i.search (k - 1) tries

/-- Drops zeros at the end of the digits. -/
def Digits.trim (d : Digits) : Nat → Digits
  | 0 => d
  | n + 1 =>
    if d.digits != 0 && d.digits % 10 == 0 then Digits.trim ⟨d.digits / 10, d.exponent + 1⟩ n else d

/-- The shortest decimal of a value that is not zero. The first exponent tried is above the
value; a double has at most seventeen significant digits, so twenty-four tries are enough. -/
def Binary.shortest (b : Binary) : Digits :=
  let bits := (b.m.log2 + 1 : Int) + b.q
  let start := bits * 30103 / 100000 + 2
  ((Interval.around b).search start 24).trim 24

end Hearth.Decimal
