/-!
# States of a link

```text
closed → connecting → connected → closing → closed
             ↘ waiting ↗              ↘ waiting → connecting (again)
             ↘ closed (given up, or the queue was closed)
```
-/

namespace Hearth.Link

/-- The state of a queue's transport. -/
inductive State where
  /-- No transport and no attempt to open one. -/
  | closed
  /-- An attempt to connect is running. -/
  | connecting
  | connected
  /-- The transport is being torn down. -/
  | closing
  /-- Waiting before the next attempt. -/
  | waiting
  deriving Repr, DecidableEq, Inhabited

namespace State

/-- All states. -/
def all : List State := [.closed, .connecting, .connected, .closing, .waiting]

/-- The name of a state. -/
def name : State → String
  | .closed => "closed"
  | .connecting => "connecting"
  | .connected => "connected"
  | .closing => "closing"
  | .waiting => "waiting"

/-- The state with the given name. -/
def ofName? (s : String) : Option State := all.find? fun l => l.name == s

/-- The steps that a link can take. -/
def canGo : State → State → Bool
  | .closed, .connecting => true
  | .connecting, .connected => true
  | .connecting, .waiting => true
  | .connecting, .closed => true
  | .connected, .closing => true
  | .closing, .closed => true
  | .closing, .waiting => true
  | .waiting, .connecting => true
  | .waiting, .closed => true
  | _, _ => false

/-- The message for a step that a link cannot take. -/
def refusal (a b : State) : String :=
  "invalid link transition from " ++ a.name ++ " to " ++ b.name

end State

end Hearth.Link
