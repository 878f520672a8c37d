import Hearth.Decimal.Whole
import Hearth.Json.Basic

/-!
# Decoding JSON objects

A value of a type may have a form in JSON. Objects are decoded field by field; what goes wrong is
told by the name of the field that is missing or does not have the form asked for.
-/

namespace Hearth.Json

/-- Types whose values have a form in JSON. -/
class Decode (α : Type) where
  /-- The value that has the given form. -/
  decode? : Json → Option α

instance : Decode Json := ⟨some⟩

instance : Decode String where
  decode?
    | .str s => some s
    | _ => none

instance : Decode Bool where
  decode?
    | .bool b => some b
    | _ => none

instance : Decode Int where
  decode?
    | .int n => some n
    | _ => none

instance : Decode Nat where
  decode? v := do
    let n : Int ← Decode.decode? v
    if 0 ≤ n then some n.toNat else none

instance : Decode Int32 where
  decode? v := do
    let n : Int ← Decode.decode? v
    Decimal.toInt32? n

instance : Decode UInt32 where
  decode? v := do
    let n : Nat ← Decode.decode? v
    if n < UInt32.size then some (UInt32.ofNat n) else none

instance {α : Type} [Decode α] : Decode (List α) where
  decode?
    | .arr items => items.mapM Decode.decode?
    | _ => none

instance {α β : Type} [Decode α] [Decode β] : Decode (α × β) where
  decode?
    | .arr [a, b] => do return (← Decode.decode? a, ← Decode.decode? b)
    | _ => none

instance {α : Type} [Decode α] : Decode (Option α) where
  decode?
    | .null => some none
    | v => (Decode.decode? v).map some

variable {α : Type} [Decode α]

/-- A value that was found under a key. -/
def the (key : String) (v : Json) : Except String α := (Decode.decode? v).elim (.error key) .ok

/-- A field that has to be there. -/
def need (v : Json) (key : String) : Except String α := (v.field? key).elim (.error key) (the key)

/-- A field that may be missing, or null. -/
def opt (v : Json) (key : String) : Except String (Option α) := the key ((v.field? key).getD .null)

/-- A field that may be missing, or null, and what stands for it then. -/
def getD (v : Json) (key : String) (default : α) : Except String α :=
  return (← opt v key).getD default

/-- A truth value that is false if it is missing. -/
def flag (v : Json) (key : String) : Except String Bool := getD v key false

/-- Is there a field of the key? -/
def has (v : Json) (key : String) : Bool := (v.field? key).isSome

end Hearth.Json
