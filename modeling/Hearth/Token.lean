import Hearth.Decimal.Whole
import Hearth.Json.Print
import Hearth.Text.Blank

/-!
# Tokens and names

A token is a number, a text or a nested name; a name is a list of tokens. Names address everything
in the house: events, workers, statements, collections and links.

Tokens are ordered with numbers first, then texts (by code points), then nested names; names are
ordered word by word, a proper beginning first.
-/

namespace Hearth

/-- One element of a name. -/
inductive Token where
  | int (value : Int64)
  | text (value : String)
  | sub (words : List Token)
  deriving Inhabited, Repr

/-- A sequence of tokens. -/
abbrev Name := List Token

namespace Token

mutual

/-- Are two tokens equal? -/
def equal : Token → Token → Bool
  | .int a, .int b => a == b
  | .text a, .text b => a == b
  | .sub a, .sub b => equalList a b
  | _, _ => false

/-- Are two names equal, word by word? -/
def equalList : List Token → List Token → Bool
  | [], [] => true
  | a :: as, b :: bs => equal a b && equalList as bs
  | _, _ => false

end

mutual

theorem eq_of_equal : ∀ {a b : Token}, equal a b = true → a = b
  | .int a, .int b, h => by simp [equal] at h; rw [h]
  | .text a, .text b, h => by simp [equal] at h; rw [h]
  | .sub a, .sub b, h => by
    simp only [equal] at h
    rw [eq_of_equalList h]
  | .int _, .text _, h | .int _, .sub _, h | .text _, .int _, h | .text _, .sub _, h
  | .sub _, .int _, h | .sub _, .text _, h => by simp [equal] at h

theorem eq_of_equalList : ∀ {a b : List Token}, equalList a b = true → a = b
  | [], [], _ => rfl
  | a :: as, b :: bs, h => by
    simp only [equalList, Bool.and_eq_true] at h
    rw [eq_of_equal h.1, eq_of_equalList h.2]
  | [], _ :: _, h | _ :: _, [], h => by simp [equalList] at h

end

mutual

theorem equal_self : ∀ a : Token, equal a a = true
  | .int _ | .text _ => by simp [equal]
  | .sub a => by simp only [equal, equalList_self a]

theorem equalList_self : ∀ a : List Token, equalList a a = true
  | [] => rfl
  | a :: as => by simp only [equalList, equal_self a, equalList_self as, Bool.and_self]

end

instance : DecidableEq Token := fun a b =>
  if h : equal a b = true then isTrue (eq_of_equal h)
  else isFalse fun e => h (e ▸ equal_self a)

mutual

/-- The order of tokens. -/
def order : Token → Token → Ordering
  | .int a, .int b => compare a.toInt b.toInt
  | .int _, _ => .lt
  | .text _, .int _ => .gt
  | .text a, .text b => compare a b
  | .text _, .sub _ => .lt
  | .sub a, .sub b => orderList a b
  | .sub _, _ => .gt

/-- The order of names. -/
def orderList : List Token → List Token → Ordering
  | [], [] => .eq
  | [], _ :: _ => .lt
  | _ :: _, [] => .gt
  | a :: as, b :: bs => (order a b).then (orderList as bs)

end

mutual

/-- The printed form: numbers in decimal, a text that is empty or holds a blank in quotes, any
other text as it is, a nested name in parentheses. -/
def render : Token → String
  | .int n => Decimal.ofInt64 n
  | .text s => if s.isEmpty || s.toList.any Text.isBlank then Text.quoted s else s
  | .sub ws => "(" ++ renderList ws ++ ")"

/-- Tokens separated by single spaces. -/
def renderList : List Token → String
  | [] => ""
  | [t] => render t
  | t :: ts => render t ++ " " ++ renderList ts

end

instance : ToString Token := ⟨render⟩

/-- The text of a text token. -/
def text? : Token → Option String
  | .text s => some s
  | _ => none

/-- The number that a token stands for; a text is read as one. -/
def int? : Token → Option Int64
  | .int n => some n
  | .text s => Decimal.readInt64 s
  | .sub _ => none

/-- The text of a token without quotes: a text as it is, anything else as printed. -/
def plain (t : Token) : String := t.text?.getD t.render

/-- The name of the variable that `$name` stands for. -/
def varName? : Token → Option String
  | .text s =>
    match s.toList with
    | '$' :: c :: rest => some (String.ofList (c :: rest))
    | _ => none
  | _ => none

/-- What `*name` binds; a star alone binds by position and has the empty name. -/
def wildcard? : Token → Option String
  | .text s =>
    match s.toList with
    | '*' :: rest => some (String.ofList rest)
    | _ => none
  | _ => none

/-- The value a variable gets from a token; a nested name is stored as its text. -/
def toValue : Token → Json
  | .int n => .int n.toInt
  | .text s => .str s
  | .sub ws => .str (renderList ws)

/-- The token that a variable's value is read as: numbers of 64 bits and texts are kept, any other
value becomes its JSON text. -/
def ofValue : Json → Token
  | .str s => .text s
  | .int n =>
    match Decimal.toInt64? n with
    | some n => .int n
    | none => .text (toString n)
  | v => .text v.compact

mutual

/-- The JSON form: numbers and texts stand for themselves, a nested name is an array. -/
def toJson : Token → Json
  | .int n => .int n.toInt
  | .text s => .str s
  | .sub ws => .arr (listToJson ws)

/-- The JSON forms of the tokens of a name. -/
def listToJson : List Token → List Json
  | [] => []
  | t :: ts => toJson t :: listToJson ts

end

mutual

/-- Reads the JSON form; numbers outside 64 bits and all other values are refused. -/
def ofJson? : Json → Option Token
  | .int n => (Decimal.toInt64? n).map .int
  | .str s => some (.text s)
  | .arr items => (listOfJson? items).map .sub
  | _ => none

/-- Reads the JSON forms of the tokens of a name. -/
def listOfJson? : List Json → Option (List Token)
  | [] => some []
  | v :: vs => do
    let t ← ofJson? v
    let ts ← listOfJson? vs
    some (t :: ts)

end

end Token

namespace Name

/-- The printed form: tokens separated by single spaces. -/
def render (n : Name) : String := Token.renderList n

/-- The name made of the words of a text, each a text token. -/
def ofText (s : String) : Name := (Text.words s).map .text

/-- The order of names. -/
def order (a b : Name) : Ordering := Token.orderList a b

/-- Does `a` come strictly before `b`? -/
def before (a b : Name) : Bool := order a b == .lt

/-- The names in ascending order; equal names keep their places. -/
def sort (names : List Name) : List Name := names.mergeSort fun a b => order a b != .gt

/-- The JSON form of a name. -/
def toJson (n : Name) : Json := .arr (Token.listToJson n)

/-- Reads the JSON form of a name, an array of tokens. -/
def ofJson? : Json → Option Name
  | .arr items => Token.listOfJson? items
  | _ => none

end Name

end Hearth
