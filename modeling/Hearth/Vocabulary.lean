import Hearth.NameMap

/-!
# Word tables

A word table maps names to entries and has a name of its own, its scope, that errors show. A list of
words finds the entry with the longest name that the list begins with, of those that accept the
words after it.

A vocabulary is a chain of tables. The first table of the chain that has any entry for the words
decides; tables further down are only asked if it has none.
-/

namespace Hearth

/-- A map from names to entries, with the name that errors show. -/
structure WordTable (α : Type) where
  scope : String
  entries : List (Name × α)
  deriving Inhabited

namespace WordTable

variable {α : Type}

/-- A table without entries. -/
def empty (scope : String) : WordTable α := ⟨scope, []⟩

/-- The entry of a name. -/
def get? (t : WordTable α) (name : Name) : Option α := NameMap.get? t.entries name

/-- Adds an entry unless the name is taken. -/
def register? (t : WordTable α) (name : Name) (x : α) : Option (WordTable α) :=
  match t.get? name with
  | some _ => none
  | none => some { t with entries := NameMap.insert name x t.entries }

/-- Takes an entry away, if there is one. -/
def unregister? (t : WordTable α) (name : Name) : Option (α × WordTable α) :=
  (t.get? name).map fun x => (x, { t with entries := NameMap.erase t.entries name })

/-- The entry of the longest beginning of `words` that accepts the words after it. -/
def lookup (accepts : α → Name → Bool) (t : WordTable α) (words : Name) : Option (Nat × α) :=
  NameMap.longest? accepts t.entries words

end WordTable

/-- A chain of tables; earlier ones hide later ones. -/
abbrev Vocabulary (α : Type) := List (WordTable α)

namespace Vocabulary

variable {α : Type}

/-- The entry of exactly this name. -/
def get? (v : Vocabulary α) (name : Name) : Option α := v.findSome? (·.get? name)

/-- The entry that a list of words finds. -/
def find? (accepts : α → Name → Bool) (v : Vocabulary α) (words : Name) : Option α :=
  v.findSome? fun t => (t.lookup accepts words).map (·.2)

/-- Every entry that is not hidden, in ascending order of the names. -/
def all (v : Vocabulary α) : NameMap α :=
  v.foldr (fun t below => t.entries.foldl (fun acc (k, x) => NameMap.insert k x acc) below) []

/-- The scope that errors show, that of the first table. -/
def scope (v : Vocabulary α) : String :=
  match v with
  | t :: _ => t.scope
  | [] => ""

end Vocabulary

end Hearth
