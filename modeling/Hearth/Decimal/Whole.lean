/-!
# Whole numbers in decimal

Reading and range checks of whole numbers. A written number may have a sign in front; it has at
least one digit, any number of leading zeros, and has to lie in the range of its width.
-/

namespace Hearth.Decimal

/-- The value of a string of ASCII digits, most significant first. -/
def ofDigits (cs : List Char) : Nat := cs.foldl (fun n c => 10 * n + (c.toNat - '0'.toNat)) 0

/-- A non-empty list of ASCII digits as a number. -/
def readNat (cs : List Char) : Option Nat :=
  if cs.isEmpty || cs.any (!·.isDigit) then none else some (ofDigits cs)

/-- An optional sign and digits. -/
def readInt (s : String) : Option Int :=
  match s.toList with
  | '+' :: rest => (readNat rest).map Int.ofNat
  | '-' :: rest => (readNat rest).map fun n => -Int.ofNat n
  | cs => (readNat cs).map Int.ofNat

/-- The value as a signed word of 64 bits, if it fits. -/
def toInt64? (n : Int) : Option Int64 :=
  if Int64.minValue.toInt ≤ n && n ≤ Int64.maxValue.toInt then some (Int64.ofInt n) else none

/-- The value as a signed word of 32 bits, if it fits. -/
def toInt32? (n : Int) : Option Int32 :=
  if Int32.minValue.toInt ≤ n && n ≤ Int32.maxValue.toInt then some (Int32.ofInt n) else none

/-- A signed word of 64 bits written in decimal. -/
def readInt64 (s : String) : Option Int64 := readInt s >>= toInt64?

/-- The decimal text of a signed word: digits without leading zeros, after a minus if negative. -/
def ofInt64 (n : Int64) : String := toString n.toInt

end Hearth.Decimal
