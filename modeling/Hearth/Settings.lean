import Hearth.Bands
import Hearth.Decimal.Print
import Hearth.Failure
import Hearth.Level
import Hearth.Link.Loop
import Hearth.Text.Blank

/-!
# Settings of a house

What a house is set up with: levels, the ordinary band of priorities, the modules and scripts to
start with, the file for states and the defaults of queues. Settings are checked before they are
used, and the first thing found wrong is reported.
-/

namespace Hearth

/-- What a house is set up with. -/
structure Settings where
  /-- The level of the program's own messages. -/
  logLevel : Level
  /-- The level at which events are written to the log. -/
  eventLogLevel : Level
  bands : Bands
  /-- The modules that are loaded at the start, each a name in one text. -/
  modules : List String
  /-- The files with the scripts that are run at the start. -/
  scripts : List String
  /-- The file for states; they are not kept without one. -/
  stateFile : Option String
  /-- What queues are set up with. -/
  queue : Link.Config
  deriving Repr, Inhabited

namespace Settings

/-- The settings used when nothing is configured. -/
def standard : Settings where
  logLevel := .info
  eventLogLevel := .debug
  bands := .standard
  modules := []
  scripts := []
  stateFile := none
  queue := .standard

/-- A setting that does not make sense. -/
inductive Fault where
  | bands (low high : Int32)
  | initial (value : Float)
  | factor (value : Float)
  | max (value least : Float)
  | jitter (value : Float)
  | connectTimeout
  | capacity
  | moduleName
  deriving Repr, Inhabited

/-- The text shown for a setting that does not make sense. -/
def Fault.message : Fault → String
  | .bands low high =>
    "priorities.min (" ++ toString low.toInt ++ ") must be below priorities.max (" ++
      toString high.toInt ++ ")"
  | .initial x => "queue.backoff.initial must be positive, got " ++ Decimal.printMessage x
  | .factor x => "queue.backoff.factor must be at least 1, got " ++ Decimal.printMessage x
  | .max x least =>
    "queue.backoff.max (" ++ Decimal.printMessage x ++ ") is below queue.backoff.initial (" ++
      Decimal.printMessage least ++ ")"
  | .jitter x => "queue.backoff.jitter must be in [0, 1), got " ++ Decimal.printMessage x
  | .connectTimeout => "queue.connect_timeout must be positive"
  | .capacity => "queue.channel_capacity must be at least 1"
  | .moduleName => "module names must not be empty"

/-- The first setting that does not make sense. -/
def fault? (s : Settings) : Option Fault :=
  let b := s.queue.backoff
  if s.bands.high ≤ s.bands.low then some (.bands s.bands.low s.bands.high)
  else if b.initial ≤ 0.0 then some (.initial b.initial)
  else if b.factor < 1.0 then some (.factor b.factor)
  else if b.max < b.initial then some (.max b.max b.initial)
  else if !(0.0 ≤ b.jitter && b.jitter < 1.0) then some (.jitter b.jitter)
  else if s.queue.connectTimeout ≤ 0.0 then some .connectTimeout
  else if s.queue.capacity == 0 then some .capacity
  else if s.modules.any fun m => Text.trim m == "" then some .moduleName
  else none

/-- Why settings could not be loaded. -/
inductive Error where
  | read (path : String) (cause : FileError)
  /-- The file is not well-formed. -/
  | malformed (path : String)
  | noSecret (key : String)
  | badInclude (path reason : String)
  /-- A file includes itself; the files on the way, outermost first. -/
  | circular (chain : List String)
  | noVariable (name : String)
  | badValue (key reason : String)
  /-- A setting is unknown or has a value of the wrong kind. -/
  | misfit
  | invalid (fault : Fault)
  deriving Repr, Inhabited

/-- The text shown for an error. -/
def Error.message : Error → String
  | .read path cause => "failed to read " ++ path ++ ": " ++ cause.message
  | .malformed path => "failed to parse YAML in " ++ path ++ ": not well-formed"
  | .noSecret key => "secret '" ++ key ++ "' not found in secrets.yaml"
  | .badInclude path reason => "invalid include '" ++ path ++ "': " ++ reason
  | .circular chain => "circular include: " ++ String.intercalate " -> " chain
  | .noVariable name => "environment variable '" ++ name ++ "' not set"
  | .badValue key reason => "invalid value for '" ++ key ++ "': " ++ reason
  | .misfit => "invalid value for 'root': unknown setting or value of the wrong kind"
  | .invalid fault => "configuration validation failed: " ++ fault.message

end Settings

end Hearth
