import Hearth.Strand

/-!
# Loading modules

Each step of loading and unloading a module is announced by an event, outside all other scopes. The
handlers of that event can take their time, and their errors are reported, not returned. A load that
fails is undone before its failure is announced.
-/

namespace Hearth.Strand

/-- Announces a step of a module, and then does what the frame says. -/
def announceModule (step : String) (name : Name) (next : Frame) : Act Move := do
  let words : Name := .text "module" :: .text step :: name
  let e ← Act.makeEvent words (← get).root
  pure (.under next (.dispatch e))

/-- Reports an error of an announcement. -/
def reportOutcome (o : Outcome) : Act Unit :=
  match o with
  | .ok _ => pure ()
  | .error e => Act.update fun h => h.reportError e

/-- Loads a module: it must be known and not be loaded. -/
def load (name : Name) : Act Move := do
  let h ← get
  if h.isLoaded name then throw (.alreadyExists "module" name)
  match NameMap.get? h.catalog name with
  | none => throw (.notFound "module" name)
  | some m => announceModule "load-start" name (.loadStarted m)

/-- Loads a module after the start was announced. -/
def loadStarted (m : Module) (o : Outcome) : Act Move := do
  reportOutcome o
  let r ← tryCatch ((fun _ => none) <$> Act.install m) fun e => pure (some e)
  match r with
  | none =>
    Act.update (Act.markLoaded m)
    announceModule "load-done" m.name (.announced (.ok .done))
  | some e => pure (.under (.rolledBack m e) (.takeDown m))

/-- The error of a module that could not be loaded or unloaded. -/
def moduleError (m : Module) (e : ScriptError) : ScriptError := .moduleFailed m.name e

/-- Goes on after a failed load was undone. -/
def rolledBack (m : Module) (e : ScriptError) : Act Move :=
  announceModule "load-fail" m.name (.announced (.error (moduleError m e)))

/-- Unloads a module: it must be loaded. -/
def unload (name : Name) : Act Move := do
  let m ← Act.takeLoaded name
  announceModule "unload-start" name (.unloadStarted m)

/-- Unloads a module after the start was announced. -/
def unloadStarted (m : Module) (o : Outcome) : Act Move := do
  reportOutcome o
  pure (.under (.takenDown m) (.takeDown m))

/-- Announces the end of an unload. -/
def takenDown (m : Module) : Outcome → Act Move
  | .ok _ => announceModule "unload-done" m.name (.announced (.ok .done))
  | .error e => announceModule "unload-fail" m.name (.announced (.error (moduleError m e)))

/-- Undoes what loading a module did; links are closed before. -/
def takeDown (m : Module) : Act Move := do
  match m.feature with
  | .net => do
    let links ← Act.perform House.takeLinks
    pure (.under (.uninstall m) (.closeAll links))
  | _ =>
    Act.uninstall m
    pure .done

/-- Unloads modules one after the other, whether that succeeds or not. -/
def unloadAll : List Name → Move
  | [] => .done
  | name :: rest => .under (.unloadAll rest) (.unload name)

/-! ## Closing links -/

/-- Tells a queue to close, and waits until its loop has stopped. -/
def close (id : QueueId) (job : Link.JobId) : Act Move := do
  match ← Act.perform fun h => h.post id job .close with
  | .put => pure (.pause (.stopped id))
  | .full => pure ⟨[.closed id], .pause (.post id .close)⟩
  | .closed => pure .done

/-- Closes queues one after the other. -/
def closeAll : List QueueId → Move
  | [] => .done
  | id :: rest => .under (.closing rest) (.close id)

end Hearth.Strand
