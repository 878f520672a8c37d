import Hearth.Decimal.Print
import Hearth.Text.Quoted

/-!
# Values of YAML

What a document of YAML stands for. A mapping keeps the order of its entries and has each key once.
A value with a tag of the document's own keeps the tag.
-/

namespace Hearth.Yaml

/-- A value. The text of a tag begins with an exclamation mark. -/
inductive Value where
  | null
  | bool (value : Bool)
  | int (value : Int)
  | float (value : Float)
  | text (value : String)
  | list (items : List Value)
  | map (entries : List (Value × Value))
  | tagged (tag : String) (value : Value)
  deriving Repr, Inhabited

namespace Value

/-- Are two doubles the same? All that are no number are. -/
def sameFloat (x y : Float) : Bool := x == y || (x.isNaN && y.isNaN)

mutual

/-- Are two values the same? The order of the entries of a mapping does not matter; a whole number
and a double are never the same. -/
def same : Value → Value → Bool
  | .null, .null => true
  | .bool a, .bool b => a == b
  | .int a, .int b => a == b
  | .float a, .float b => sameFloat a b
  | .text a, .text b => a == b
  | .list a, .list b => sameItems a b
  | .map a, .map b => a.length == b.length && sameEntries a b
  | .tagged s a, .tagged t b => s == t && same a b
  | _, _ => false

/-- Are the items of two lists the same? -/
def sameItems : List Value → List Value → Bool
  | [], [] => true
  | a :: as, b :: bs => same a b && sameItems as bs
  | _, _ => false

/-- Is each of the entries found among others? -/
def sameEntries : List (Value × Value) → List (Value × Value) → Bool
  | [], _ => true
  | (k, v) :: rest, entries =>
    entries.any (fun (k', v') => same k k' && same v v') && sameEntries rest entries

end

/-- Puts an entry into a mapping: in place of the one of the same key, else at the end. -/
def insert (key value : Value) : List (Value × Value) → List (Value × Value)
  | [] => [(key, value)]
  | (k, v) :: rest => if same k key then (k, value) :: rest else (k, v) :: insert key value rest

/-- The value without its tag. -/
def untagged : Value → Value
  | .tagged _ value => value.untagged
  | value => value

/-- The text of a number. -/
def numberText? : Value → Option String
  | .int n => some (toString n)
  | .float x => some (Decimal.printData x)
  | _ => none

mutual

/-- The value spelled out with the kind of every part. -/
def describe : Value → String
  | .null => "Null"
  | .bool b => "Bool(" ++ toString b ++ ")"
  | .int n => "Number(" ++ toString n ++ ")"
  | .float x => "Number(" ++ Decimal.printData x ++ ")"
  | .text s => "String(" ++ Text.quoted s ++ ")"
  | .list items => "Sequence [" ++ String.intercalate ", " (describeItems items) ++ "]"
  | .map entries => "Mapping \x7b" ++ String.intercalate ", " (describeEntries entries) ++ "\x7d"
  | .tagged tag value =>
    "TaggedValue \x7b tag: " ++ tag ++ ", value: " ++ describe value ++ " \x7d"

/-- Every item spelled out. -/
def describeItems : List Value → List String
  | [] => []
  | v :: rest => describe v :: describeItems rest

/-- Every entry spelled out; the key without its kind if it is a truth value, a number or a
text. -/
def describeEntries : List (Value × Value) → List String
  | [] => []
  | (k, v) :: rest =>
    let key :=
      match k with
      | .bool b => toString b
      | .int n => toString n
      | .float x => Decimal.printData x
      | .text s => Text.quoted s
      | k => describe k
    (key ++ ": " ++ describe v) :: describeEntries rest

end

end Value

end Hearth.Yaml
