import Hearth.House.Check
import Hearth.Settings
import Hearth.World.Start

/-!
# Servers

A server is a world that was started with settings. It runs the scripts of its settings and others,
interprets what a user types, and shuts down: shutdown is announced to the handlers, then all links
are closed and all modules unloaded, whatever the handlers did.
-/

namespace Hearth

/-- A world and the scripts that it is to run first. -/
structure Server where
  world : World
  scripts : List String
  deriving Inhabited

namespace Server

/-- Why a server could not start or a script could not be run. -/
inductive Error where
  | start (error : StartError)
  | opening (path : String) (error : StoreError)
  | reading (path : String) (cause : FileError)
  | script (path : String) (error : ScriptError)
  deriving Inhabited

/-- What was being done, followed by the texts of the errors. -/
def Error.chain : Error → List String
  | .start (.loggers e) => "installing log workers" :: e.chain
  | .start (.furnishing e) => "installing built-in modules" :: e.chain
  | .start (.module name e) => ("loading module '" ++ name.render ++ "'") :: e.chain
  | .opening path e => ("opening " ++ path) :: e.chain
  | .reading path e => ["reading " ++ path, e.message]
  | .script path e => ("script " ++ path) :: e.chain

/-- The text shown for an error. -/
def Error.message (e : Error) : String := String.intercalate ": " e.chain

/-- The store that settings ask for. -/
def openStore (files : Files) : Option String → Except Error Store
  | none => .ok .inMemory
  | some path =>
    match Store.openAt files path with
    | .ok store => .ok store
    | .error e => .error (.opening path e)

/-- Starts a server at a time of day: its events are logged from the start, and the modules are
loaded in order. -/
def build (files : Files) (clock : Timestamp) (s : Settings) : Except Error Server := do
  let h := { House.empty s.bands clock with files, linkConfig := s.queue }
  let w := World.ofHouse h .interactive
  let (_, w) ← w.attempt (.start ∘ .loggers) (Act.installLoggers s.eventLogLevel)
  let (_, w) := w.act (·.addSink .forward .trace)
  let store ← openStore files s.stateFile
  let w := { w with house := { w.house with store } }
  let (_, w) ← w.attempt (.start ∘ .furnishing) Act.furnish
  match w.loadAll (s.modules.map Name.ofText) with
  | .ok world => return ⟨world, s.scripts⟩
  | .error e => throw (.start e)

/-- Runs the script in a file. -/
def runScript (s : Server) (path : String) : Except Error Unit × Server :=
  match s.world.house.files.readText path with
  | .error cause => (.error (.reading path cause), s)
  | .ok text =>
    match s.world.runText text with
    | (some (.error e), world) => (.error (.script path e), { s with world })
    | (_, world) => (.ok (), { s with world })

/-- Runs scripts in order, up to the first that fails. -/
def runAll (s : Server) : List String → Except Error Unit × Server
  | [] => (.ok (), s)
  | path :: rest =>
    match s.runScript path with
    | (.ok (), s) => s.runAll rest
    | (e, s) => (e, s)

/-- Runs the scripts of the settings, then others. -/
def runScripts (s : Server) (more : List String) : Except Error Unit × Server :=
  s.runAll (s.scripts ++ more)

/-- Interprets lines in a session of their own. Errors are shown and do not end it. -/
def interact (s : Server) (text : String) : Server :=
  let h := s.world.house
  let (scope, h) := h.derive h.root none []
  let inputs := (Text.lines text).map .line ++ [.finish]
  let session := Session.start .interactive scope
  { s with world := ({ s.world with house := h }.perform [] (.session session inputs .shown)).2 }

/-- Announces shutdown, closes the links and unloads the modules, the last one first. -/
def shutdown (s : Server) : Server := { s with world := (s.world.perform [] .shutDown).2 }

end Server

end Hearth
