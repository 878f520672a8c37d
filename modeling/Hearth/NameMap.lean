import Hearth.Token

/-!
# Maps from names

A map from names to values is a list of pairs in ascending order of the names, each name once.
-/

namespace Hearth

/-- A map from names, in ascending order of the names. -/
abbrev NameMap (α : Type) := List (Name × α)

namespace NameMap

variable {α : Type}

/-- The value of a name. -/
def get? (m : NameMap α) (name : Name) : Option α := m.lookup name

/-- Has a name a value? -/
def has (m : NameMap α) (name : Name) : Bool := (get? m name).isSome

/-- Gives a name a value, in place of an older one. -/
def insert (name : Name) (x : α) : NameMap α → NameMap α
  | [] => [(name, x)]
  | (k, y) :: rest =>
    match Name.order name k with
    | .lt => (name, x) :: (k, y) :: rest
    | .eq => (name, x) :: rest
    | .gt => (k, y) :: insert name x rest

/-- Takes a name and its value away. -/
def erase (m : NameMap α) (name : Name) : NameMap α := m.filter (·.1 != name)

/-- The names that have a value, in ascending order. -/
def names (m : NameMap α) : List Name := m.map (·.1)

/-- The value of the longest beginning of `words`, at most `n` words long, that accepts the words
after it; and the length of that beginning. -/
def longestUpTo (accepts : α → Name → Bool) (m : NameMap α) (words : Name) :
    Nat → Option (Nat × α)
  | 0 => none
  | n + 1 =>
    match get? m (words.take (n + 1)) with
    | some x =>
      if accepts x (words.drop (n + 1)) then some (n + 1, x) else longestUpTo accepts m words n
    | none => longestUpTo accepts m words n

/-- The value of the longest beginning of `words` that accepts the words after it, and the length
of that beginning. -/
def longest? (accepts : α → Name → Bool) (m : NameMap α) (words : Name) : Option (Nat × α) :=
  longestUpTo accepts m words words.length

end NameMap

end Hearth
