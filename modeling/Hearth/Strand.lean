import Hearth.House.Furnish
import Hearth.House.Link
import Hearth.House.Listing
import Hearth.Session

/-!
# Strands

A strand is a thread of work on a house: statements that run, events that are dispatched, modules
that are loaded. It makes calls, and what is to be done after a call is kept as a frame on its
stack, the innermost first. A strand changes the house only while it has its turn, and its turn only
ends where it pauses: to let time pass, or for room in a queue, an answer, or the end of a loop.

Every call ends with a flow or an error; the failure of a dispatched event is the error of nested
work.
-/

namespace Hearth

/-- How a call ended. -/
abbrev Outcome := Except ScriptError Flow

/-- A piece of text for a session. -/
inductive Input where
  | line (text : String)
  | finish
  deriving Repr, DecidableEq, Inhabited

/-- What becomes of a session and its errors. -/
inductive SessionUse where
  /-- An error ends it. -/
  | script
  /-- Errors are shown to the user, and it goes on. -/
  | shown
  /-- An error ends the input; the session is kept. -/
  | kept
  deriving Repr, DecidableEq, Inhabited

/-- A sequence that is running: which step runs, whether the steps of the ordinary band are skipped
from now on, whether the event is claimed, and the failure that is to be its result. -/
structure Run where
  sequence : Sequence
  index : Nat
  skipping : Bool
  claimed : Bool
  pending : Option Failure
  deriving Inhabited

/-- Something for a strand to do. -/
inductive Call where
  | dispatch (event : Event)
  /-- Makes an event and dispatches it. -/
  | announce (words : Name) (scope : ScopeId)
  /-- Runs a sequence by the bands of the house. -/
  | run (value : Run)
  /-- Runs the sequence of a composite worker by the bands of the sequence around it. -/
  | nested (bands : Bands) (value : Run)
  | statement (value : Statement) (scope : ScopeId)
  | body (statements : Body) (scope : ScopeId)
  | load (name : Name)
  | unload (name : Name)
  | unloadAll (names : List Name)
  /-- Undoes what loading a module did. -/
  | takeDown (module : Module)
  | close (queue : QueueId)
  | closeAll (queues : List QueueId)
  | session (value : Session) (inputs : List Input) (use : SessionUse)
  | send (queue : QueueId) (message : Link.Parcel)
  | post (queue : QueueId) (item : Link.Control)
  | awaitState (queue : QueueId) (state : Link.State)
  | sleep (nanos : Nat)
  /-- Announces shutdown, closes all links and unloads all modules, the last one first. -/
  | shutDown
  deriving Inhabited

/-- What a strand waits for. -/
inductive Pause where
  /-- A point in time. -/
  | sleep (due : Nat)
  /-- The end of a wait, or that its entry is gone. -/
  | wait (name : Name) (token due : Nat)
  /-- Room for a message. -/
  | send (queue : QueueId) (message : Link.Parcel)
  /-- Room for an item for the control of a link. -/
  | post (queue : QueueId) (item : Link.Control)
  | answer (ticket : Nat)
  /-- The end of a queue's loop. -/
  | stopped (queue : QueueId)
  | state (queue : QueueId) (state : Link.State)
  deriving Inhabited

/-- What is to be done after a call. -/
inductive Frame where
  /-- The other statements of a list, after the one of a line. -/
  | body (line : Nat) (rest : Body) (scope : ScopeId)
  /-- The other steps of a sequence that runs by some bands. -/
  | step (bands : Bands) (run : Run)
  /-- The rest of a probe's work, after the event that it raised. -/
  | raised (probe : ProbeWorker)
  /-- The change of a state is over. -/
  | unlock (name : Name)
  /-- A wait begins, after its start was announced. -/
  | waitStarted (name : Name) (token : Nat) (span : Span) (scope : ScopeId)
  /-- A wait ended, by itself or early. -/
  | waited (name : Name) (scope : ScopeId)
  /-- An announcement was made whose errors are dropped; the outcome is known. -/
  | result (outcome : Outcome)
  /-- An announcement was made whose errors are reported; the outcome is known. -/
  | announced (outcome : Outcome)
  /-- A module is loaded, after that was announced. -/
  | loadStarted (module : Module)
  /-- A load failed and was undone. -/
  | rolledBack (module : Module) (error : ScriptError)
  /-- A module is unloaded, after that was announced. -/
  | unloadStarted (module : Module)
  | takenDown (module : Module)
  /-- The other modules to be unloaded. -/
  | unloadAll (rest : List Name)
  /-- The links of a module are closed, and it can be taken down. -/
  | uninstall (module : Module)
  /-- The other queues to be closed. -/
  | closing (rest : List QueueId)
  /-- A queue was told to close. -/
  | closed (queue : QueueId)
  /-- Shutdown was announced, and the links are to be closed. -/
  | shutdownAnnounced
  /-- The links are closed, and the modules are to be unloaded. -/
  | linksClosed
  /-- A line is on its way, and its answer is due. -/
  | sent (ticket : Nat)
  /-- The rest of the input of a session, after the run of a statement. -/
  | session (value : Session) (statement : Statement) (rest : List Input) (use : SessionUse)
  /-- An error is reported, with a line if it has none. -/
  | report (line : Option Nat)
  /-- The end of a script is noted. -/
  | finished
  deriving Inhabited

/-- What a strand is doing. -/
inductive Doing where
  | call (value : Call)
  /-- A call ended. -/
  | give (outcome : Outcome)
  | pause (value : Pause)
  deriving Inhabited

/-- What comes next: frames for the stack, innermost first, and what the strand does then. -/
structure Move where
  frames : List Frame
  doing : Doing
  deriving Inhabited

namespace Move

/-- A call ends well. -/
def done : Move := ⟨[], .give (.ok .done)⟩

/-- A call ends. -/
def give (o : Outcome) : Move := ⟨[], .give o⟩

/-- A call becomes another one. -/
def call (c : Call) : Move := ⟨[], .call c⟩

/-- A call waits for another one. -/
def under (f : Frame) (c : Call) : Move := ⟨[f], .call c⟩

/-- A call pauses. -/
def pause (p : Pause) : Move := ⟨[], .pause p⟩

end Move

end Hearth
