import Hearth.Json.Print

/-!
# Scopes

A scope holds variables and sees those of its parents. All scopes of a house live in one arena and
are referred to by their numbers; a scope's parents are older than the scope, so looking up always
ends. Writing changes one scope and never its parents. A deleted variable leaves a gap that hides
what the parents define.
-/

namespace Hearth

/-- The number of a scope in its arena. -/
structure ScopeId where
  index : Nat
  deriving Repr, DecidableEq, Inhabited

/-- The printed form of a scope: its number in twenty-six places. -/
def ScopeId.render (s : ScopeId) : String :=
  let ds := toString s.index
  "ctx@" ++ String.ofList (List.replicate (26 - ds.length) '0') ++ ds

instance : ToString ScopeId := ⟨ScopeId.render⟩

/-- What a scope knows of a variable: its value, or that it is gone. -/
inductive Slot where
  | value (value : Json)
  | gone
  deriving Repr, Inhabited

/-- Variables and parents of one scope. -/
structure Scope where
  parents : List ScopeId
  slots : List (String × Slot)
  deriving Repr, Inhabited

/-- All scopes, oldest first. -/
structure Scopes where
  all : Array Scope
  deriving Repr, Inhabited

namespace Scope

/-- Fills a slot, in place of what it held. -/
def put (s : Scope) (name : String) (slot : Slot) : Scope :=
  { s with slots := (name, slot) :: s.slots.filter (·.1 != name) }

/-- The slot of a variable, if the scope has one. -/
def slot? (s : Scope) (name : String) : Option Slot := s.slots.lookup name

/-- The variables that have a value, in the order of their names. -/
def locals (s : Scope) : List (String × Json) :=
  let known := s.slots.filterMap fun (k, slot) =>
    match slot with
    | .value v => some (k, v)
    | .gone => none
  known.mergeSort fun a b => !(b.1 < a.1)

end Scope

namespace Scopes

/-- No scope at all. -/
def empty : Scopes := ⟨#[]⟩

/-- The scope with the given number; an unknown number gives an empty scope. -/
def get (s : Scopes) (id : ScopeId) : Scope := s.all[id.index]?.getD ⟨[], []⟩

/-- The parents of a scope that are older than it; others cannot arise. -/
def parents (s : Scopes) (id : ScopeId) : List ScopeId :=
  (s.get id).parents.filter fun p => p.index < id.index

/-- Adds a scope with the given parents and variables. -/
def add (s : Scopes) (parents : List ScopeId) (slots : List (String × Slot)) :
    ScopeId × Scopes :=
  (⟨s.all.size⟩, ⟨s.all.push ⟨parents, slots⟩⟩)

/-- The scopes of one generation that were not seen before, and all that were seen by then. -/
def fresh (seen : List ScopeId) : List ScopeId → List ScopeId × List ScopeId
  | [] => ([], seen)
  | id :: rest =>
    if seen.contains id then fresh seen rest
    else
      let (ids, seen) := fresh (id :: seen) rest
      (id :: ids, seen)

/-- The scopes reached from `frontier`, nearest generation first. A generation is no longer than
the arena is old, so `age` rounds reach everything when `age` is the size of the arena. -/
def reach (s : Scopes) (seen : List ScopeId) : Nat → List ScopeId → List ScopeId
  | 0, _ => []
  | age + 1, frontier =>
    match fresh seen frontier with
    | ([], _) => []
    | (ids, seen) => ids ++ s.reach seen age (ids.flatMap s.parents)

/-- A scope and everything it sees, in the order in which it is asked: the scope itself, then its
parents in order, then their parents. -/
def ancestors (s : Scopes) (id : ScopeId) : List ScopeId :=
  s.reach [] (s.all.size + 1) [id]

/-- The first slot for a variable among a scope and what it sees. -/
def slot? (s : Scopes) (id : ScopeId) (name : String) : Option Slot :=
  (s.ancestors id).findSome? fun a => (s.get a).slot? name

/-- The value of a variable as seen from a scope; the first slot decides. -/
def lookup (s : Scopes) (id : ScopeId) (name : String) : Option Json :=
  match s.slot? id name with
  | some (.value v) => some v
  | _ => none

/-- Is `other` the scope itself or one that it sees? -/
def hasAncestor (s : Scopes) (id other : ScopeId) : Bool := (s.ancestors id).contains other

/-- Replaces a slot of one scope. -/
def put (s : Scopes) (id : ScopeId) (name : String) (slot : Slot) : Scopes :=
  ⟨s.all.modify id.index fun scope => scope.put name slot⟩

/-- Gives a variable of one scope a value. -/
def set (s : Scopes) (id : ScopeId) (name : String) (value : Json) : Scopes :=
  s.put id name (.value value)

/-- Hides a variable in one scope. -/
def delete (s : Scopes) (id : ScopeId) (name : String) : Scopes := s.put id name .gone

/-- The parents of a new scope below `id` that also sees `extra`: of two related scopes the one
that sees the other is enough. -/
def parentsFor (s : Scopes) (id : ScopeId) (extra : Option ScopeId) : List ScopeId :=
  match extra with
  | none => [id]
  | some extra =>
    if s.hasAncestor extra id then [extra]
    else if s.hasAncestor id extra then [id]
    else [id, extra]

/-- A new scope below `id`, with variables of its own; of two with one name the later counts. -/
def derive (s : Scopes) (id : ScopeId) (extra : Option ScopeId) (seed : List (String × Json)) :
    ScopeId × Scopes :=
  let scope := seed.foldl (fun scope (k, v) => scope.put k (.value v)) (⟨[], []⟩ : Scope)
  s.add (s.parentsFor id extra) scope.slots

/-- The description of a scope and, indented below it, of its parents. `age` bounds the depth. -/
def describe (s : Scopes) (depth : Nat) : Nat → ScopeId → List String
  | 0, _ => []
  | age + 1, id =>
    let indent := String.ofList (List.replicate (2 * depth) ' ')
    let own := (s.get id).locals.map fun (k, v) =>
      indent ++ "  " ++ k ++ ": " ++ v.compact
    (indent ++ toString id) :: own ++ (s.parents id).flatMap (s.describe (depth + 1) age)

/-- The description of a scope and its parents. -/
def report (s : Scopes) (id : ScopeId) : List String := s.describe 0 (s.all.size + 1) id

end Scopes

end Hearth
