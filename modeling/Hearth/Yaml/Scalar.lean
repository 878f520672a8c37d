import Hearth.Decimal.Read
import Hearth.Yaml.Basic

/-!
# What a scalar means

A plain text without a tag can be nothing, a truth value, a number or itself. Any other text is
itself, unless its tag asks for one of these kinds; then it has to be of that kind.
-/

namespace Hearth.Yaml

/-- Words for nothing. -/
def isNull (s : String) : Bool := s == "null" || s == "Null" || s == "NULL" || s == "~"

/-- Words for truth values. -/
def bool? (s : String) : Option Bool :=
  if s == "true" || s == "True" || s == "TRUE" then some true
  else if s == "false" || s == "False" || s == "FALSE" then some false
  else none

/-- The value of a digit in any base. -/
def digit? (c : Char) : Option Nat :=
  if c.isDigit then some (c.toNat - '0'.toNat)
  else if 'a' ≤ c && c ≤ 'z' then some (c.toNat - 'a'.toNat + 10)
  else if 'A' ≤ c && c ≤ 'Z' then some (c.toNat - 'A'.toNat + 10)
  else none

/-- At least one digit in a base. -/
def readBase (base : Nat) (cs : List Char) : Option Nat :=
  if cs.isEmpty then none
  else cs.foldlM (fun n c => do
    let d ← digit? c
    if d < base then some (base * n + d) else none) 0

/-- A sign in front, if there is one, and the rest. -/
def takeSign : List Char → Option Char × List Char
  | '+' :: rest => (some '+', rest)
  | '-' :: rest => (some '-', rest)
  | cs => (none, cs)

/-- Digits that are no number because they start with a needless zero. -/
def hasNeedlessZero (cs : List Char) : Bool :=
  match (takeSign cs).2 with
  | '0' :: c :: rest => (c :: rest).all Char.isDigit
  | _ => false

/-- A whole number without its sign, in base ten or in one that its start tells. -/
def readWhole : List Char → Option Nat
  | '0' :: 'x' :: rest => readBase 16 rest
  | '0' :: 'o' :: rest => readBase 8 rest
  | '0' :: 'b' :: rest => readBase 2 rest
  | cs => readBase 10 cs

/-- A whole number. -/
def whole? (cs : List Char) : Option Int :=
  if hasNeedlessZero cs then none
  else
    match takeSign cs with
    | (some '-', rest) => (readWhole rest).map fun n => -(n : Int)
    | (_, rest) => (readWhole rest).map Int.ofNat

/-- A double: a decimal, or a word for an infinite one or for none. -/
def float? (cs : List Char) : Option Float :=
  let (sign, rest) := takeSign cs
  let word := String.ofList rest
  if word == ".inf" || word == ".Inf" || word == ".INF" then
    some (if sign == some '-' then -(1.0 / 0.0) else 1.0 / 0.0)
  else if sign.isNone && (word == ".nan" || word == ".NaN" || word == ".NAN") then
    some (0.0 / 0.0)
  else (Decimal.readScientific rest).map fun x => if sign == some '-' then -x else x

/-- What becomes of a whole number: one of 64 bits is kept, a larger one of 128 bits is refused, and
one that is larger still is no whole number but a double. -/
inductive Width where
  | fits
  | refused
  | huge
  deriving Repr, DecidableEq, Inhabited

/-- The width of a whole number. -/
def widthOf (n : Int) : Width :=
  if Int64.minValue.toInt ≤ n && n < UInt64.size then .fits
  else if -(1 <<< 127 : Nat) ≤ n && n < (1 <<< 128 : Nat) then .refused
  else .huge

namespace Value

/-- The whole number that a text stands for, if any; refused if it is too wide. -/
def ofWhole? (cs : List Char) : Option (Option Value) :=
  match whole? cs with
  | none => some none
  | some n =>
    match widthOf n with
    | .fits => some (some (.int n))
    | .refused => none
    | .huge => some none

/-- The value of a plain text. -/
def ofPlain? (s : String) : Option Value :=
  if s == "" || isNull s then some .null
  else
    match bool? s with
    | some b => some (.bool b)
    | none =>
      match ofWhole? s.toList with
      | none => none
      | some (some v) => some v
      | some none =>
        let float := if hasNeedlessZero s.toList then none else float? s.toList
        some (match float with
          | some x => .float x
          | none => .text s)

/-- A tag without the exclamation mark in front, unless it is nothing else. -/
def dropMark (tag : String) : String :=
  match tag.toList with
  | '!' :: c :: rest => String.ofList (c :: rest)
  | _ => tag

/-- The text of a document's own tag. -/
def tagText (tag : String) : String := "!" ++ dropMark (dropMark tag)

/-- The start of the tags that have a meaning in every document. -/
def commonTag (kind : String) : String := "tag:yaml.org,2002:" ++ kind

/-- Is it a tag of the document's own? -/
def isOwnTag (tag : String) : Bool := tag.toList.head? == some '!'

/-- The value of a text without a tag of its own. -/
def ofUntagged? (s : String) (plain : Bool) : Option Value :=
  if plain then ofPlain? s else some (.text s)

/-- The value of a scalar. -/
def ofScalar? (tag? : Option String) (s : String) (plain : Bool) : Option Value :=
  match tag? with
  | none => ofUntagged? s plain
  | some tag =>
    if isOwnTag tag then (ofUntagged? s plain).map (.tagged (tagText tag))
    else if tag == commonTag "bool" then (bool? s).map .bool
    else if tag == commonTag "int" then (ofWhole? s.toList).join
    else if tag == commonTag "float" then (float? s.toList).map .float
    else if tag == commonTag "null" then if isNull s then some .null else none
    else some (.text s)

end Value

end Hearth.Yaml
