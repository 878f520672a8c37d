import Hearth.House

/-!
# Conditions at work

`if` and its relatives test a condition by the longest name that the words begin with; `not` in
front of it asks for the opposite.
-/

namespace Hearth

namespace House

/-- The category of states in the store. -/
def stateCategory : String := "state"

/-- The value of a state. -/
def state? (h : House) (name : Name) : Option Token :=
  (h.store.get? stateCategory name).map (·.value)

/-- All states and their values, in ascending order of the names. -/
def states (h : House) : List (Name × Token) :=
  (h.store.keys stateCategory).filterMap fun name => (h.state? name).map fun v => (name, v)

/-- Is the change of a state being handled? -/
def isChanging (h : House) (name : Name) : Bool := h.changing.contains name

/-- The event handler that a name refers to: the first one of that name, or else, if the name is
one number, the one with that number. -/
def handler? (h : House) (name : Name) : Option (WorkerId × Handler) :=
  match h.handlers.find? fun x => x.2.name == name with
  | some x => some x
  | none =>
    match name with
    | [token] => token.int?.bind fun n => h.handlers.find? fun x => (x.2.id : Int) == n.toInt
    | _ => none

end House

/-- A value and the name of a state. -/
def valueAndName (usage : String) : Name → Except ScriptError (Token × Name)
  | value :: word :: name => .ok (value, word :: name)
  | _ => .error (.usage usage)

namespace Condition

/-- Does a condition hold for these words? -/
def test (h : House) (args : Name) (c : Condition) : Except ScriptError Bool :=
  match c, args with
  | .constant value, [] => .ok value
  | .constant _, _ :: _ => .error (.usage c.usage)
  | .stateIs, args => do
    let (value, name) ← valueAndName c.usage args
    .ok ((h.state? name).any fun v => Pattern.sameWord v value)
  | .probe p, _ =>
    match p.fault with
    | some text => .error (.external (.other text))
    | none => .ok p.value
  | _, [] => .error (.usage c.usage)
  | .stateExists, name => .ok (h.state? name).isSome
  | .stateLocked, name => .ok (h.isChanging name)
  | .handlerExists, name => .ok (h.handler? name).isSome
  | .waitExists, name => .ok (NameMap.has h.waits name)
  | .linkExists, name => .ok (h.link? name).isSome
  | .linkConnected, name => .ok ((h.link? name).any fun x => x.2.status.state == .connected)

/-- Tests a condition; one that stands in for a real one is noted. -/
def check (c : Condition) (args : Name) : Act Bool := do
  if let .probe p := c then Act.update fun h => h.note (.checked p.name args)
  Act.ofExcept (c.test (← get) args)

end Condition

namespace Act

/-- Tests the condition that words begin with, after `not` or without it. -/
def check (words : Name) : Act Bool := do
  let (want, words) :=
    match words with
    | .text "not" :: rest => (false, rest)
    | _ => (true, words)
  if words.isEmpty then throw (.usage "if [not] condition…")
  match (← get).conditions.lookup (fun _ _ => true) words with
  | some (n, c) => return (← c.check (words.drop n)) == want
  | none => throw (.unknownWord words "conditions")

end Act

end Hearth
