import Hearth.World

/-!
# Starting a world

A world starts with a house in which nothing is registered. Its house is furnished, and modules are
loaded one after the other; the first step that fails is the error of the start.
-/

namespace Hearth

/-- A step of the start of a world that failed. -/
inductive StartError where
  | loggers (error : ScriptError)
  | furnishing (error : ScriptError)
  | module (name : Name) (error : ScriptError)
  deriving Inhabited

namespace World

/-- Runs an action that can fail in a way of its own. -/
def attempt {α ε : Type} (w : World) (wrap : ScriptError → ε) (a : Act α) : Except ε (α × World) :=
  match w.doAct a with
  | (.ok x, w) => .ok (x, w)
  | (.error e, _) => .error (wrap e)

/-- Loads modules in order. -/
def loadAll (w : World) : List Name → Except StartError World
  | [] => .ok w
  | name :: rest =>
    match w.perform [] (.load name) with
    | (some (.error e), _) => .error (.module name e)
    | (_, w) => w.loadAll rest

/-- A world with a furnished house, in which the given modules are loaded. Events are logged at a
level, if one is given, from the start. -/
def furnished (h : House) (mode : Mode) (level : Option Level) (modules : List Name) :
    Except StartError World := do
  let w := ofHouse h mode
  let w ←
    match level with
    | some level => (·.2) <$> w.attempt .loggers (Act.installLoggers level)
    | none => .ok w
  let (_, w) ← w.attempt .furnishing Act.furnish
  w.loadAll modules

end World

end Hearth
