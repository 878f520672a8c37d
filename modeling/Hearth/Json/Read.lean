import Hearth.Json.Basic
import Hearth.Decimal.Whole

/-!
# Reading JSON

The standard grammar, with two limits of its own: brackets nest at most 127 deep, and a number
that is not whole, or too large for 64 bits, becomes a double by one multiplication or division
of its leading digits with a power of ten.
-/

namespace Hearth.Json

/-- Brackets nest at most this deep. -/
def maxDepth : Nat := 127

/-- Blanks between the parts of a text. -/
def isBlank (c : Char) : Bool := c == ' ' || c == '\t' || c == '\n' || c == '\r'

/-- The text from its first character that is no blank. -/
def skipBlanks (cs : List Char) : List Char := cs.dropWhile isBlank

/-- Four hexadecimal digits and the rest. -/
def readHex4 : List Char → Option (Nat × List Char)
  | a :: b :: c :: d :: rest => do
    let digit (c : Char) : Option Nat :=
      if c.isDigit then some (c.toNat - '0'.toNat)
      else if 'a' ≤ c && c ≤ 'f' then some (c.toNat - 'a'.toNat + 10)
      else if 'A' ≤ c && c ≤ 'F' then some (c.toNat - 'A'.toNat + 10)
      else none
    let a ← digit a
    let b ← digit b
    let c ← digit c
    let d ← digit d
    some (((a * 16 + b) * 16 + c) * 16 + d, rest)
  | _ => none

/-- The character of a code written in hexadecimal, after its `u`. A code of the upper half of a
pair has to be followed by one of the lower half. -/
def readCode (cs : List Char) : Option (Char × List Char) := do
  let (n, rest) ← readHex4 cs
  if 0xdc00 ≤ n && n ≤ 0xdfff then none
  else if 0xd800 ≤ n && n ≤ 0xdbff then
    match rest with
    | '\\' :: 'u' :: rest => do
      let (low, rest) ← readHex4 rest
      if 0xdc00 ≤ low && low ≤ 0xdfff then
        some (Char.ofNat (0x10000 + (n - 0xd800) * 0x400 + (low - 0xdc00)), rest)
      else none
    | _ => none
  else some (Char.ofNat n, rest)

/-- The characters of a string up to its closing quote, in reverse, and the rest. Each round uses
up at least one character, so as many rounds as there are characters are enough. -/
def readString (acc : List Char) : Nat → List Char → Option (String × List Char)
  | 0, _ => none
  | _, [] => none
  | _ + 1, '"' :: rest => some (String.ofList acc.reverse, rest)
  | n + 1, '\\' :: c :: rest =>
    match c with
    | '"' => readString ('"' :: acc) n rest
    | '\\' => readString ('\\' :: acc) n rest
    | '/' => readString ('/' :: acc) n rest
    | 'b' => readString ('\x08' :: acc) n rest
    | 'f' => readString ('\x0c' :: acc) n rest
    | 'n' => readString ('\n' :: acc) n rest
    | 'r' => readString ('\r' :: acc) n rest
    | 't' => readString ('\t' :: acc) n rest
    | 'u' =>
      match readCode rest with
      | some (c, rest) => readString (c :: acc) n rest
      | none => none
    | _ => none
  | n + 1, c :: rest => if c.toNat < 0x20 || c == '\\' then none else readString (c :: acc) n rest

/-- A power of ten as a double, for exponents up to 308. -/
def powerOfTen (n : Nat) : Float := Float.ofScientific 1 false n

/-- `significand · 10 ^ exponent`, in steps of at most 308 decimal places; none if it is too large
for a double. -/
def scale (x : Float) (exponent : Int) : Nat → Option Float
  | 0 => none
  | steps + 1 =>
    let size := exponent.natAbs
    if size ≤ 308 then
      if 0 ≤ exponent then
        let y := x * powerOfTen size
        if y.isInf then none else some y
      else some (x / powerOfTen size)
    else if x == 0.0 then some x
    else if 0 ≤ exponent then none
    else scale (x / powerOfTen 308) (exponent + 308) steps

/-- The leading digits that fit 64 bits, and how many digits were left out. -/
def significand (acc : Nat) : List Char → Nat × List Char
  | [] => (acc, [])
  | c :: rest =>
    let next := 10 * acc + (c.toNat - '0'.toNat)
    if next < UInt64.size then significand next rest else (acc, c :: rest)

/-- A number whose text does not stand for a whole number of 64 bits. -/
def readFloat (negative : Bool) (whole fraction : List Char) (exponent : Int) : Option Json :=
  let (head, left) := significand 0 whole
  let (value, shift) :=
    if left.isEmpty then
      let (value, rest) := significand head fraction
      (value, -((fraction.length - rest.length : Nat) : Int))
    else (head, (left.length : Int))
  let exponent := max (-100000) (min 100000 (exponent + shift))
  match scale (Float.ofNat value) exponent 400 with
  | some x => some (.float (if negative then -x else x))
  | none => none

/-- The digits at the start of a text and the rest. -/
def takeDigits (cs : List Char) : List Char × List Char :=
  (cs.takeWhile Char.isDigit, cs.dropWhile Char.isDigit)

/-- The exponent of a number, if there is one: its sign, digits, and the rest. -/
def readExponent : List Char → Option (Option Int × List Char)
  | c :: rest =>
    if c == 'e' || c == 'E' then
      let (negative, rest) :=
        match rest with
        | '+' :: rest => (false, rest)
        | '-' :: rest => (true, rest)
        | rest => (false, rest)
      let (digits, rest) := takeDigits rest
      if digits.isEmpty then none
      else
        let n : Int := Decimal.ofDigits digits
        some (some (if negative then -n else n), rest)
    else some (none, c :: rest)
  | [] => some (none, [])

/-- A number after its minus sign, if it had one. -/
def readNumber (negative : Bool) (cs : List Char) : Option (Json × List Char) := do
  let (whole, rest) := takeDigits cs
  match whole with
  | [] => none
  | '0' :: _ :: _ => none
  | _ =>
    let (fraction?, rest) ←
      match rest with
      | '.' :: rest =>
        let (digits, rest) := takeDigits rest
        if digits.isEmpty then none else some (some digits, rest)
      | rest => some (none, rest)
    let (exponent?, rest) ← readExponent rest
    let n := Decimal.ofDigits whole
    match fraction?, exponent? with
    | none, none =>
      if !negative && n < UInt64.size then some (.int n, rest)
      else if negative && 0 < n && Int64.minValue.toInt ≤ -n then some (.int (-n), rest)
      else do some (← readFloat negative whole [] 0, rest)
    | _, _ => do some (← readFloat negative whole (fraction?.getD []) (exponent?.getD 0), rest)

mutual

/-- A value after blanks and the rest; `depth` more brackets may open. `fuel` bounds the steps. -/
def readValue (depth : Nat) : Nat → List Char → Option (Json × List Char)
  | 0, _ => none
  | fuel + 1, cs =>
    match skipBlanks cs with
    | 'n' :: 'u' :: 'l' :: 'l' :: rest => some (.null, rest)
    | 't' :: 'r' :: 'u' :: 'e' :: rest => some (.bool true, rest)
    | 'f' :: 'a' :: 'l' :: 's' :: 'e' :: rest => some (.bool false, rest)
    | '"' :: rest => (readString [] (rest.length + 1) rest).map fun (s, rest) => (.str s, rest)
    | '-' :: rest => readNumber true rest
    | '[' :: rest =>
      match depth with
      | 0 => none
      | depth + 1 =>
        match skipBlanks rest with
        | ']' :: rest => some (.arr [], rest)
        | rest => readItems depth [] fuel rest
    | '\x7b' :: rest =>
      match depth with
      | 0 => none
      | depth + 1 =>
        match skipBlanks rest with
        | '\x7d' :: rest => some (.obj [], rest)
        | rest => readFields depth [] fuel rest
    | rest => readNumber false rest

/-- The items of an array up to its bracket. -/
def readItems (depth : Nat) (acc : List Json) : Nat → List Char → Option (Json × List Char)
  | 0, _ => none
  | fuel + 1, cs => do
    let (x, rest) ← readValue depth fuel cs
    match skipBlanks rest with
    | ']' :: rest => some (.arr (x :: acc).reverse, rest)
    | ',' :: rest => readItems depth (x :: acc) fuel rest
    | _ => none

/-- The fields of an object up to its brace. -/
def readFields (depth : Nat) (acc : List (String × Json)) :
    Nat → List Char → Option (Json × List Char)
  | 0, _ => none
  | fuel + 1, cs => do
    match skipBlanks cs with
    | '"' :: rest =>
      let (key, rest) ← readString [] (rest.length + 1) rest
      match skipBlanks rest with
      | ':' :: rest =>
        let (value, rest) ← readValue depth fuel rest
        match skipBlanks rest with
        | '\x7d' :: rest => some (.obj ((key, value) :: acc).reverse, rest)
        | ',' :: rest => readFields depth ((key, value) :: acc) fuel rest
        | _ => none
      | _ => none
    | _ => none

end

/-- The value with the fields of every object in order, each key once. -/
def normalize : Json → Json
  | .arr items => .arr (items.map normalize)
  | .obj fields => ofFields (fields.attach.map fun ⟨(k, v), h⟩ =>
      have := List.sizeOf_lt_of_mem h
      (k, normalize v))
  | v => v
termination_by v => sizeOf v
decreasing_by
  · have := List.sizeOf_lt_of_mem ‹_›
    simp +arith at *
    omega
  · simp at *
    omega

/-- The value of a text, with the fields of objects as they are written. -/
def readRaw (s : String) : Option Json :=
  let cs := s.toList
  match readValue maxDepth (2 * cs.length + 2) cs with
  | some (v, rest) => if (skipBlanks rest).isEmpty then some v else none
  | none => none

/-- The value of a text. -/
def read (s : String) : Option Json := (readRaw s).map normalize

end Hearth.Json
