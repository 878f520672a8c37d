import Hearth.Command
import Hearth.Server
import Hearth.Settings.Load
import Hearth.World.Live
import Std.Time.DateTime.Timestamp

/-!
# The program

Loads the settings, starts a server, runs the scripts and, if it is asked to, interprets what is
typed until the input ends; then it shuts down. Without that it goes on until it is stopped.

This is the only part that reads and writes files and looks at the clock. Files are brought into the
tree that the server works on when they are needed, and the state file is written out when it has
changed. Links lead nowhere here: every attempt to connect comes to what the world plans for it.
-/

namespace Hearth.Program

/-- The time of day. -/
def timeOfDay : IO Timestamp := do
  return ⟨(← Std.Time.Timestamp.now).toNanosecondsSinceUnixEpoch.toInt⟩

/-- The variables of the environment, where the system shows them as a file. -/
def environment : IO (List (String × String)) := do
  let content ← (IO.FS.readBinFile "/proc/self/environ").toBaseIO
  let bytes := (content.toOption.getD .empty).toList
  let text := (Text.decode? bytes).getD ""
  return (text.splitOn "\x00").filterMap fun entry =>
    match entry.splitOn "=" with
    | name :: value :: more => some (name, String.intercalate "=" (value :: more))
    | _ => none

/-- Brings a file into the tree, if there is one; tells whether there is something. -/
def bring (f : Files) (path : String) : IO (Bool × Files) := do
  let above := (Path.parent? path).getD ""
  let f := if above == "" then f else (f.makeDirectories above).toOption.getD f
  match ← (IO.FS.readBinFile path).toBaseIO with
  | .ok content =>
    match f.write path content.toList with
    | .ok f => return (true, f)
    | .error _ => return (false, f)
  | .error (.inappropriateType ..) => return (true, (f.makeDirectories path).toOption.getD f)
  | .error _ => return (false, f)

/-- Loads the settings; files that they ask for are brought in on the way. -/
partial def loadSettings (f : Files) (env : List (String × String)) (dir file : String) :
    IO (Except Settings.Error Settings × Files) := do
  match Settings.load f env dir file with
  | .error (.read path .notFound) =>
    match ← bring f path with
    | (true, f) => loadSettings f env dir file
    | (false, f) => return (.error (.read path .notFound), f)
  | r => return (r, f)

/-- What stays the same while the program runs. -/
structure Setup where
  settings : Settings
  /-- Milliseconds on the clock of the system when the server was started. -/
  started : Nat

/-- Writes the state file out if it has changed. -/
def saveStates (s : Setup) (before after : Files) : IO Unit := do
  let some path := s.settings.stateFile | return
  let .ok content := after.read path | return
  if (before.read path).toOption == some content then return
  let above := (Path.parent? path).getD ""
  if above != "" then IO.FS.createDirAll above
  let beside := Path.withExtension path "json.tmp"
  IO.FS.writeBinFile beside ⟨content.toArray⟩
  IO.FS.rename beside path

/-- Shows what is in the journal. -/
def showJournal (s : Setup) (w : World) : IO World := do
  let (notes, w) := w.takeJournal
  for note in notes do
    match note with
    | .out line => IO.println line
    | .diagnostic level text =>
      let heavy := (Level.ofWord? level).any fun l => s.settings.logLevel.rank ≤ l.rank
      if heavy then IO.eprintln (level ++ " " ++ text)
    | _ => pure ()
  return w

/-- Runs as far as possible without waiting. -/
def advance (s : Setup) (w : World) : IO World := do
  let elapsed := (← IO.monoMsNow) - s.started
  let clock ← timeOfDay
  let w := w.passBy (elapsed * 1000000)
  let after := { w with house := { w.house with clock } }.runNow World.patience
  saveStates s w.house.files after.house.files
  showJournal s after

/-- Milliseconds between two looks at the clock. -/
def pulse : UInt32 := 10

/-- Runs until the call of the main strand has ended. -/
partial def finish (s : Setup) (w : World) : IO World := do
  let w ← advance s w
  if w.outcome.isSome then return w
  IO.sleep pulse
  finish s w

/-- Makes a call and waits for its end. -/
def perform (s : Setup) (w : World) (c : Call) : IO (Outcome × World) := do
  let w ← finish s (w.call [] c)
  return (w.outcome.getD (.ok .done), w)

/-- Runs scripts in order, up to the first that fails. -/
def runScripts (s : Setup) (w : World) : List String → IO (Except Server.Error Unit × World)
  | [] => return (.ok (), w)
  | path :: rest => do
    let (_, files) ← bring w.house.files path
    let w := { w with house := { w.house with files } }
    match files.readText path with
    | .error cause => return (.error (.reading path cause), w)
    | .ok text =>
      let (scope, house) := w.house.derive w.house.root none []
      let inputs := (Text.lines text).map .line ++ [.finish]
      let call : Call := .session (.start .script scope) inputs .script
      match ← perform s { w with house } call with
      | (.ok _, w) => runScripts s w rest
      | (.error e, w) => return (.error (.script path e), w)

/-- Lets the session of the user take a line, or the end of the text. -/
def feed (s : Setup) (w : World) (input : Input) : IO World := do
  let (outcome, w) ← perform s w (.session w.console [input] .kept)
  if let .error e := outcome then IO.println ("ERROR: " ++ e.message)
  return w

/-- Reads lines until the input ends, and runs on while it waits for them. -/
partial def interact (s : Setup) (w : World) (next : Task (Except IO.Error String)) : IO World := do
  if !(← IO.hasFinished next) then
    IO.sleep pulse
    interact s (← advance s w) next
  else
    match next.get with
    | .error _ => return w
    | .ok line =>
      if line.isEmpty then feed s w .finish
      else
        let w ← (Text.lines line).foldlM (fun w l => feed s w (.line l)) w
        interact s w (← IO.asTask (do (← IO.getStdin).getLine))

/-- Runs on until the program is stopped. -/
partial def serve (s : Setup) (w : World) : IO Unit := do
  IO.sleep pulse
  serve s (← advance s w)

/-- Reports an error and gives the exit code for it. -/
def refuse (code : UInt32) (text : String) : IO UInt32 := do
  IO.eprintln ("error: " ++ text)
  return code

/-- Starts a server, runs its scripts and those of the command, and does what the command asks for
then. -/
def runServer (c : Command) (files : Files) (settings : Settings) : IO UInt32 := do
  let (_, files) ← settings.stateFile.elim (pure (true, files)) (bring files)
  match Server.build files (← timeOfDay) settings with
  | .error e => refuse 1 e.message
  | .ok server =>
    let setup : Setup := ⟨settings, (← IO.monoMsNow)⟩
    match ← runScripts setup server.world (server.scripts ++ c.scripts) with
    | (.error e, _) => refuse 1 e.message
    | (.ok (), w) =>
      if !c.interactive then serve setup w
      let w ← interact setup w (← IO.asTask (do (← IO.getStdin).getLine))
      let _ ← perform setup w .shutDown
      return 0

/-- Does what the arguments ask for. -/
def run (args : List String) : IO UInt32 := do
  match (Command.standard (← IO.getEnv "HEARTH_CONFIG_DIR")).read args with
  | .error e => refuse 2 (e ++ "\n" ++ Command.usage)
  | .ok c =>
    let here := toString (← IO.currentDir)
    let tree := (Files.empty.makeDirectories here).toOption.getD .empty
    let tree := { tree with current := Path.parts here }
    let (_, tree) ← bring tree (Path.join c.dir "secrets.yaml")
    match ← bring tree (Path.join c.dir c.file) with
    | (false, tree) => runServer c tree .standard
    | (true, tree) =>
      match ← loadSettings tree (← environment) c.dir c.file with
      | (.error e, _) => refuse 1 ("loading " ++ c.file ++ ": " ++ e.message)
      | (.ok settings, tree) => runServer c tree settings

end Hearth.Program

/-- The program. -/
def main (args : List String) : IO UInt32 := Hearth.Program.run args
