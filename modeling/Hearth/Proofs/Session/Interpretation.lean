import Hearth.Proofs.Script.Forest
import Hearth.Proofs.Session.Calls

/-!
# Interpretation

A session keeps the statements whose blocks are open on a stack, and takes one action after the
other. What it does is told without a stack by recursion on the forest that its actions walk
through: a statement is begun, its block is filled with the statements inside, it ends, and is
handed to the one around it, or run outside all blocks.

## Main definitions

* `Script.Forest.fill`, `Script.Forest.interpret` : the calls for a forest, inside a block and
  outside all blocks.
* `Session.interpretAll` : the calls of a session for a list of actions.

## Main results

* `Session.interpretAll_fill`, `Session.interpretAll_actions` : the session makes the same calls.
-/

namespace Hearth

open Script

/-- Begins a statement without a block. -/
def simpleStatement (scope : ScopeId) (around : Option Statement) (words : Name) (line : Nat) :
    Calls Statement := do
  let statement ← beginStatement scope around words line
  Request.ask (.checkPlace around statement)
  pure statement

/-- Begins a statement and its block. -/
def openStatement (scope : ScopeId) (around : Option Statement) (words : Name) (line : Nat) :
    Calls Statement := do
  let statement ← beginStatement scope around words line
  Request.ask (.checkBlock statement)
  Request.ask (.checkPlace around statement)
  Request.ask (.startBlock statement)
  pure statement

namespace Script.Forest

/-- Fills the block of a statement: each statement inside is begun, its own block is filled and
ended, and it is handed to the statement around it. -/
def fill (scope : ScopeId) : Forest → Statement → Calls Statement
  | .nil, parent => pure parent
  | .simple words line rest, parent => do
    let child ← simpleStatement scope (some parent) words line
    let parent ← handTo parent child
    rest.fill scope parent
  | .block words line children _ rest, parent => do
    let child ← openStatement scope (some parent) words line
    let child ← children.fill scope child
    Request.ask (.endBlock child)
    let parent ← handTo parent child
    rest.fill scope parent

/-- Interprets the statements outside all blocks: each is begun, its block is filled and ended, and
it is run. -/
def interpret (scope : ScopeId) : Forest → Calls Unit
  | .nil => pure ()
  | .simple words line rest => do
    let statement ← simpleStatement scope none words line
    let _ ← Request.ask (.run statement)
    rest.interpret scope
  | .block words line children _ rest => do
    let statement ← openStatement scope none words line
    let statement ← children.fill scope statement
    Request.ask (.endBlock statement)
    let _ ← Request.ask (.run statement)
    rest.interpret scope

end Script.Forest

namespace Session

/-- The calls of a session for actions: those of each action, and the run of the statement that the
action completes outside all blocks. -/
def interpretAll : List Action → Session → Calls Session
  | [], s => pure s
  | action :: rest, s => do
    match ← s.calls action with
    | (s, some statement) =>
      let _ ← Request.ask (.run statement)
      interpretAll rest s
    | (s, none) => interpretAll rest s

/-- Inside a block a session makes the calls that fill it. -/
theorem interpretAll_fill (f : Forest) (s : Session) (parent : Statement) (below : List Statement)
    (more : List Action) :
    interpretAll (f.actions ++ more) { s with blocks := parent :: below } = (do
      let parent ← f.fill s.scope parent
      interpretAll more { s with blocks := parent :: below }) := by
  induction f generalizing parent below more with
  | nil => rfl
  | simple words line rest ih =>
    simp only [Forest.actions, List.cons_append, interpretAll, calls, Forest.fill, simpleStatement,
      completeCalls, List.head?_cons, bind_assoc, pure_bind, ih]
  | block words line children last rest ihChildren ihRest =>
    simp only [Forest.actions, List.cons_append, List.append_assoc, interpretAll, calls,
      Forest.fill, openStatement, completeCalls, List.head?_cons, bind_assoc, pure_bind,
      ihChildren, ihRest]

/-- Outside all blocks a session makes the calls that interpret a forest. -/
theorem interpretAll_actions (f : Forest) (s : Session) :
    interpretAll f.actions { s with blocks := [] } = (do
      f.interpret s.scope
      pure { s with blocks := [] }) := by
  induction f with
  | nil => rfl
  | simple words line rest ih =>
    simp only [Forest.actions, interpretAll, calls, Forest.interpret, simpleStatement,
      completeCalls, List.head?_nil, bind_assoc, pure_bind, ih]
  | block words line children last rest ihChildren ihRest =>
    simp only [Forest.actions, interpretAll, calls,
      Forest.interpret, openStatement, completeCalls, List.head?_nil, bind_assoc, pure_bind,
      interpretAll_fill, ihRest]

end Session

end Hearth
