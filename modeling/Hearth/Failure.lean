import Hearth.Event
import Hearth.Script.Fault
import Hearth.Span

/-!
# Errors and failures

Everything that can go wrong while a house runs, as causes; the texts are in `message`. A failure is
an error together with the description of the work it escaped from. Failures nest: a handler that
triggers an event fails with the failure of that event. The innermost one is the root; whether a
failure was handed to failure dispatch is kept there, so that the whole chain counts as one.
-/

namespace Hearth

/-- The number of a worker in its registry. -/
structure WorkerId where
  value : Nat
  deriving Repr, DecidableEq, Inhabited

/-- The printed form of a worker's number. -/
def WorkerId.render (id : WorkerId) : String := "#" ++ toString id.value

/-- Why a message or an operation of a queue did not complete. -/
inductive QueueError where
  | closed
  | abandoned
  | timeout
  | connectFailed (attempts : Nat) (reason : String)
  | transport (reason : String)
  | message (reason : String)
  | full
  | duplicate (name : Name)
  | unknown (name : Name)
  deriving Repr, DecidableEq, Inhabited

/-- The text shown for an error of a queue. -/
def QueueError.text : QueueError → String
  | .closed => "queue closed"
  | .abandoned => "request abandoned after reconnect"
  | .timeout => "timed out waiting for a reply"
  | .connectFailed attempts reason =>
    "could not connect after " ++ toString attempts ++ " attempts: " ++ reason
  | .transport reason => "transport error: " ++ reason
  | .message reason => "message error: " ++ reason
  | .full => "queue input is full"
  | .duplicate name => "queue '" ++ name.render ++ "' already exists"
  | .unknown name => "queue '" ++ name.render ++ "' not found"

/-- A refusal by the file system. -/
inductive FileError where
  | notFound
  | permissionDenied
  | alreadyExists
  | notADirectory
  | isADirectory
  | notEmpty
  | nameTooLong
  /-- The path has a zero character in it. -/
  | zeroInPath
  | invalidText
  deriving Repr, DecidableEq, Inhabited

/-- The text shown for a refusal by the file system. -/
def FileError.message : FileError → String
  | .notFound => "No such file or directory (os error 2)"
  | .permissionDenied => "Permission denied (os error 13)"
  | .alreadyExists => "File exists (os error 17)"
  | .notADirectory => "Not a directory (os error 20)"
  | .isADirectory => "Is a directory (os error 21)"
  | .notEmpty => "Directory not empty (os error 39)"
  | .nameTooLong => "File name too long (os error 36)"
  | .zeroInPath => "file name contained an unexpected NUL byte"
  | .invalidText => "stream did not contain valid UTF-8"

/-- Why a state file could not be used. -/
inductive StoreError where
  | file (path : String) (cause : FileError)
  | format (path : String)
  deriving Repr, DecidableEq, Inhabited

/-- The text shown for an error of a state file. -/
def StoreError.message : StoreError → String
  | .file path cause => "state file " ++ path ++ ": " ++ cause.message
  | .format path => "state file " ++ path ++ " is not valid"

/-- The text of an error of a state file, followed by those of the errors behind it. -/
def StoreError.chain (e : StoreError) : List String :=
  match e with
  | .file _ cause => [e.message, cause.message]
  | .format _ => [e.message]

/-- Errors that statements get from what they work on. -/
inductive Cause where
  /-- A state was to be set while its change was being handled. -/
  | stateLocked (name : Name) (value : Token)
  | badTime (words : Name)
  | badPriority (priority : Int64) (low high : Int32)
  | badPort (word : Token)
  | store (error : StoreError)
  | queue (error : QueueError)
  | other (text : String)
  deriving Repr, DecidableEq, Inhabited

/-- The text shown for a cause. -/
def Cause.message : Cause → String
  | .stateLocked name value =>
    "state '" ++ name.render ++ "' is being changed; cannot set it to '" ++ value.render ++ "'"
  | .badTime words => "cannot parse time '" ++ words.render ++ "'"
  | .badPriority priority low high =>
    "priority " ++ Decimal.ofInt64 priority ++ " is outside the ordinary band " ++
      toString low.toInt ++ "..=" ++ toString high.toInt
  | .badPort word => "'" ++ word.render ++ "' is not a valid port"
  | .store error => error.message
  | .queue error => error.text
  | .other text => text

/-- The texts of the errors behind a cause. -/
def Cause.sources : Cause → List String
  | .store error => error.chain.tail
  | _ => []

/-- Why a statement cannot stand where it was written. -/
inductive Misfit where
  | notAllowedHere (child : Name)
  | nothingToConfigure (child : Name)
  | notAnAttribute (child : Name)
  | takesNoBlock
  | elseTaken
  | notAfterIf
  | emptyBlock
  /-- The statement belongs inside the described one. -/
  | onlyInside (parent : String)
  deriving Repr, DecidableEq, Inhabited

/-- The text shown for a misplaced statement. -/
def Misfit.message : Misfit → String
  | .notAllowedHere child => "'" ++ child.render ++ "' cannot be used here"
  | .nothingToConfigure child => "'" ++ child.render ++ "' has nothing to configure here"
  | .notAnAttribute child => "'" ++ child.render ++ "' is not an attribute"
  | .takesNoBlock => "does not take a block"
  | .elseTaken => "this 'if' already has an 'else'"
  | .notAfterIf => "must directly follow an 'if' block"
  | .emptyBlock => "empty block"
  | .onlyInside parent => "only valid inside " ++ parent

mutual

/-- An error of a script. -/
inductive ScriptError where
  | malformed (line : Nat) (fault : Script.Fault)
  | unknownWord (words : Name) (scope : String)
  | duplicateWord (name : Name) (scope : String)
  | notRegistered (name : Name) (scope : String)
  | misfit (name : Name) (reason : Misfit)
  | usage (text : String)
  | topLevel (name : Name)
  | notFound (kind : String) (name : Name)
  | alreadyExists (kind : String) (name : Name)
  | cancelled (what : String)
  | moduleFailed (name : Name) (cause : ScriptError)
  | event (error : EventError)
  | work (error : WorkError)
  | external (cause : Cause)
  /-- An error and the line of the script it belongs to. -/
  | atLine (line : Nat) (source : ScriptError)

/-- An error of a worker or of the registry of workers. -/
inductive WorkError where
  /-- A priority of the system that already has a worker. -/
  | priorityTaken (priority : Int32) (existing : Name)
  | unknownWorker (id : WorkerId)
  | event (error : EventError)
  | nested (failure : Failure)
  /-- A handler's script failed. -/
  | script (error : ScriptError)
  /-- A worker failed in its own way. -/
  | other (text : String)

/-- An error, the description of the work it escaped from, and whether it was handed to failure
dispatch; the mark counts only at the root. -/
inductive Failure where
  | mk (error : WorkError) (within : List String) (handled : Bool)

end

instance : Inhabited ScriptError := ⟨.usage ""⟩
instance : Inhabited WorkError := ⟨.other ""⟩
instance : Inhabited Failure := ⟨.mk default [] false⟩

mutual

/-- The text shown for an error of a script. -/
def ScriptError.message : ScriptError → String
  | .malformed line fault => "line " ++ toString line ++ ": " ++ fault.message
  | .unknownWord words scope => "unknown word '" ++ words.render ++ "' in " ++ scope
  | .duplicateWord name scope => "'" ++ name.render ++ "' is already registered in " ++ scope
  | .notRegistered name scope => "'" ++ name.render ++ "' is not registered in " ++ scope
  | .misfit name reason => "'" ++ name.render ++ "': " ++ reason.message
  | .usage text => "usage: " ++ text
  | .topLevel name => "'" ++ name.render ++ "' cannot be used at top level"
  | .notFound kind name => kind ++ " '" ++ name.render ++ "' not found"
  | .alreadyExists kind name => kind ++ " '" ++ name.render ++ "' already exists"
  | .cancelled what => what ++ " was cancelled"
  | .moduleFailed name cause => "module '" ++ name.render ++ "' failed: " ++ cause.message
  | .event error => error.message
  | .work error => error.message
  | .external cause => cause.message
  | .atLine line source => "line " ++ toString line ++ ": " ++ source.message

/-- The text shown for an error of a worker. -/
def WorkError.message : WorkError → String
  | .priorityTaken priority existing =>
    "priority " ++ toString priority.toInt ++ " is reserved and already taken by " ++
      existing.render
  | .unknownWorker id => "no worker registered as " ++ id.render
  | .event error => error.message
  | .nested failure => failure.message
  | .script error => error.message
  | .other text => text

/-- The text shown for a failure, that of its root. -/
def Failure.message : Failure → String
  | .mk error _ _ => error.message

end

mutual

/-- The texts of the errors behind an error of a script, nearest first. -/
def ScriptError.sources : ScriptError → List String
  | .atLine _ source => source.message :: source.sources
  | .work error => error.sources
  | .external cause => cause.sources
  | _ => []

/-- The texts of the errors behind an error of a worker; a failure hides what is behind it. -/
def WorkError.sources : WorkError → List String
  | .script error => error.sources
  | _ => []

end

namespace ScriptError

/-- The text of an error, followed by those of the errors behind it. -/
def chain (e : ScriptError) : List String := e.message :: e.sources

/-- Adds a line unless the error already has one. -/
def atLineOnce (line : Nat) (e : ScriptError) : ScriptError :=
  match e with
  | .malformed .. => e
  | .atLine .. => e
  | e => .atLine line e

/-- The error without its line. -/
def inner : ScriptError → ScriptError
  | .atLine _ source => source.inner
  | e => e

/-- The error as that of a worker: an error of a worker that passed through a script is itself. -/
def toWork : ScriptError → WorkError
  | .work error => error
  | e => .script e

end ScriptError

namespace Failure

/-- A new failure. -/
def ofError (error : WorkError) : Failure := .mk error [] false

/-- The error of a failure. -/
def error : Failure → WorkError
  | .mk error _ _ => error

/-- Attaches the description of the work that the error escaped from. -/
def inside (report : List String) : Failure → Failure
  | .mk error _ handled => .mk error report handled

end Failure

mutual

/-- The innermost failure of a chain. -/
def Failure.root : Failure → Failure
  | .mk error within handled => (WorkError.root? error).getD (.mk error within handled)

/-- The innermost failure inside an error, if it holds one. -/
def WorkError.root? : WorkError → Option Failure
  | .nested failure => some failure.root
  | _ => none

end

mutual

/-- Was the chain handed to failure dispatch? -/
def Failure.isHandled : Failure → Bool
  | .mk error _ handled => (WorkError.isHandled? error).getD handled

/-- The mark of the innermost failure inside an error, if it holds one. -/
def WorkError.isHandled? : WorkError → Option Bool
  | .nested failure => some failure.isHandled
  | _ => none

end

mutual

/-- Marks the root of a chain. -/
def Failure.marked : Failure → Failure
  | .mk error within handled =>
    match WorkError.marked? error with
    | some error => .mk error within handled
    | none => .mk error within true

/-- Marks the innermost failure inside an error, if it holds one. -/
def WorkError.marked? : WorkError → Option WorkError
  | .nested failure => some (.nested failure.marked)
  | _ => none

end

mutual

/-- The descriptions of the work around a failure, outermost first. -/
def Failure.trail : Failure → List String
  | .mk error within _ => within.map ("  " ++ ·) ++ WorkError.trail error

/-- The descriptions of the work inside an error. -/
def WorkError.trail : WorkError → List String
  | .nested failure => failure.trail
  | _ => []

end

/-- The description of a failure: its text, then the work it escaped from, outermost first. -/
def Failure.report (f : Failure) : List String := ("FAILURE: " ++ f.message) :: f.trail

end Hearth
