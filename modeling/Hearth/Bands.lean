/-!
# Priority bands

Workers run in ascending order of priority. The priorities from `low` to `high` are the ordinary
band; all others belong to the system.
-/

namespace Hearth

/-- The ends of the ordinary band. -/
structure Bands where
  low : Int32
  high : Int32
  deriving Repr, DecidableEq, Inhabited

namespace Bands

/-- The band used when nothing else is configured. -/
def standard : Bands := ⟨0, 100⟩

/-- Is a priority reserved for the system? -/
def isSystem (b : Bands) (priority : Int32) : Bool := priority < b.low || b.high < priority

/-- Is a priority in the ordinary band? -/
def contains (b : Bands) (priority : Int32) : Bool := !b.isSystem priority

/-- The priority of handlers that ask for none. -/
def defaultPriority (b : Bands) : Int32 := (b.low + b.high) / 2 + 1

/-- The priority of the worker that logs events, just below the ordinary band. -/
def eventLog (b : Bands) : Int32 := b.low - 1

/-- The priority of the worker that logs the end of events, just above the ordinary band. -/
def doneLog (b : Bands) : Int32 := b.high + 1

/-- The priority of the worker that logs failures. -/
def failureLog (b : Bands) : Int32 := b.low - 2

/-- The priority of the worker that tears everything down on shutdown. -/
def teardown (b : Bands) : Int32 := b.high + 2

end Bands

end Hearth
