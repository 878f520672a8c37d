/-!
# Flow

How a worker dealt with an event, and how a statement ended.
-/

namespace Hearth

/-- The outcome of work that did not fail. -/
inductive Flow where
  /-- Processed; in a conditional sequence this claims the event. -/
  | done
  /-- Not applicable after all, as if the worker had not been asked. -/
  | decline
  /-- No further worker of the ordinary band gets the event. -/
  | halt
  deriving Repr, DecidableEq, Inhabited

namespace Flow

/-- The name of an outcome. -/
def name : Flow → String
  | .done => "done"
  | .decline => "decline"
  | .halt => "halt"

/-- The outcome with the given name. -/
def ofName? (s : String) : Option Flow := [done, decline, halt].find? fun f => f.name == s

end Flow

end Hearth
