import Hearth.Scope
import Hearth.Timestamp
import Hearth.Token

/-!
# Events

An event is a named occurrence with a number of its own and a scope that holds its variables. Its
name has at least one token.
-/

namespace Hearth

/-- An occurrence. -/
structure Event where
  id : Nat
  name : Name
  scope : ScopeId
  time : Timestamp
  deriving Repr, DecidableEq, Inhabited

/-- Why an event could not be made. -/
inductive EventError where
  /-- An event needs at least one token. -/
  | emptyName
  /-- No scope reachable from `scope` knows the variable. -/
  | unknownVariable (name : String) (scope : ScopeId)
  deriving Repr, DecidableEq, Inhabited

/-- The text shown for an error. -/
def EventError.message : EventError → String
  | .emptyName => "an event needs a name"
  | .unknownVariable name scope =>
    "variable '" ++ name ++ "' not found in context " ++ scope.render

namespace Event

/-- The printed form of an event. -/
def render (e : Event) : String := "<Event #" ++ toString e.id ++ ": " ++ e.name.render ++ ">"

/-- The first line of every description of an event. -/
def headline (e : Event) : String := "EVENT: " ++ e.name.render

/-- The description of an event; a verbose one adds the number, the time and the variables. -/
def report (scopes : Scopes) (verbose : Bool) (e : Event) : List String :=
  if verbose then
    e.headline :: ("     id: " ++ toString e.id) :: ("     at: " ++ e.time.render) ::
      (scopes.report e.scope).map ("     " ++ ·)
  else [e.headline]

end Event

/-- The words, each `$name` replaced by the value of the variable. -/
def substitute (scopes : Scopes) (scope : ScopeId) (words : Name) : Except EventError Name :=
  words.mapM fun t =>
    match t.varName? with
    | some v =>
      match scopes.lookup scope v with
      | some value => .ok (.ofValue value)
      | none => .error (.unknownVariable v scope)
    | none => .ok t

namespace Event

/-- Makes the event with number `id`. -/
def make (id : Nat) (name : Name) (scope : ScopeId) (time : Timestamp) : Except EventError Event :=
  if name.isEmpty then .error .emptyName else .ok ⟨id, name, scope, time⟩

/-- Makes the event with number `id` from the words of another one after its first `drop`, with
the variables of a scope filled in. -/
def rename (e : Event) (scopes : Scopes) (id drop : Nat) (scope : ScopeId) (time : Timestamp) :
    Except EventError Event := do
  make id (← substitute scopes scope (e.name.drop drop)) scope time

end Event

end Hearth
