import Hearth.Level
import Hearth.Pattern
import Hearth.Statement

/-!
# Workers

A worker is asked about every event, in ascending order of priority, and handles those it is for.
Most workers are event handlers written in scripts; the others log, or tear everything down on
shutdown.
-/

namespace Hearth

/-- An event handler written in a script. -/
structure Handler where
  id : Nat
  name : Name
  doc : Option String
  pattern : Name
  priority : Int32
  body : Body
  /-- The scope that the handler was defined in. -/
  scope : ScopeId
  deriving Inhabited

/-- Which events a probe is for. -/
inductive ProbeMatch where
  | always
  | never
  | pattern (words : Name)
  deriving Repr, DecidableEq, Inhabited

/-- Which failures a probe catches. -/
inductive ProbeCatch where
  | never
  | always
  /-- Those whose text contains a text. -/
  | containing (text : String)
  deriving Repr, DecidableEq, Inhabited

/-- A worker that stands in for a real one: it records what it is given, and does as told. -/
structure ProbeWorker where
  name : Name
  priority : Int32
  matching : ProbeMatch
  /-- An event that it dispatches first. -/
  raises : Option Name
  fault : Option String
  flow : Flow
  /-- The workers that run in its place, and whether the first of them to be done ends the run. -/
  steps : Option (List ProbeWorker × Bool)
  catching : ProbeCatch
  catchFault : Option String
  /-- More lines of its description, shown only in verbose ones if it is terse. -/
  notes : List String
  terse : Bool
  deriving Inhabited

/-- A registered worker. -/
inductive Worker where
  /-- Logs every event. -/
  | eventLog (priority : Int32) (level : Level)
  /-- Logs the end of every event. -/
  | doneLog (priority : Int32)
  /-- Logs every failure. -/
  | failureLog (priority : Int32)
  /-- Cancels all waits and closes all links on shutdown. -/
  | teardown (priority : Int32)
  | handler (value : Handler)
  /-- Records every event, with the variables of its scope. -/
  | recorder (priority : Int32)
  | probe (value : ProbeWorker)
  deriving Inhabited

namespace Worker

/-- The name of a worker. -/
def name : Worker → Name
  | .eventLog .. => [.text "log", .text "event"]
  | .doneLog _ => [.text "log", .text "done"]
  | .failureLog _ => [.text "log", .text "failure"]
  | .teardown _ => [.text "shutdown", .text "teardown"]
  | .handler h => h.name
  | .recorder _ => [.text "test", .text "recorder"]
  | .probe p => p.name

/-- The priority of a worker. -/
def priority : Worker → Int32
  | .eventLog p _ => p
  | .doneLog p => p
  | .failureLog p => p
  | .teardown p => p
  | .handler h => h.priority
  | .recorder p => p
  | .probe p => p.priority

/-- The event that announces the end. -/
def shutdown : Name := [.text "shutdown"]

/-- Is a worker for an event with these words? -/
def accepts (w : Worker) (words : Name) : Bool :=
  match w with
  | .eventLog .. => true
  | .doneLog _ => true
  | .failureLog _ => false
  | .teardown _ => words == shutdown
  | .handler h => Pattern.isMatch h.pattern words
  | .recorder _ => true
  | .probe p =>
    match p.matching with
    | .always => true
    | .never => false
    | .pattern want => Pattern.isMatch want words

/-- Does a worker take failures with this text? -/
def catches (w : Worker) (text : String) : Bool :=
  match w with
  | .failureLog _ => true
  | .probe p =>
    match p.catching with
    | .never => false
    | .always => true
    | .containing part => Text.occurs part.toList text.toList
  | _ => false

/-- The name and priority of a worker. -/
def headline (w : Worker) : String :=
  w.name.render ++ " [prio " ++ toString w.priority.toInt ++ "]"

/-- The description of a worker. -/
def report (verbose : Bool) (w : Worker) : List String :=
  match w with
  | .handler h =>
    (w.headline ++ " on " ++ h.pattern.render) ::
      (if verbose then (Statement.reportAll h.body).map ("  " ++ ·) else [])
  | .probe p => w.headline :: (if p.terse && !verbose then [] else p.notes)
  | _ => [w.headline]

end Worker

end Hearth
