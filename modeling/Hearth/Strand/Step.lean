import Hearth.Strand.Modules
import Hearth.Strand.Run
import Hearth.Strand.Work

/-!
# Steps of a strand

A step begins a call, or gives the outcome of a call to the innermost frame. An error that ends a
step is the outcome of the call that it belongs to.
-/

namespace Hearth.Strand

/-- Goes on with a session as far as it got. -/
def follow (h : House) (s : Session) (progress : Progress) (rest : List Input) (use : SessionUse) :
    House × Option Session × Move :=
  let kept := if use == .kept then some s else none
  match progress with
  | .ready => (h, kept, .call (.session s rest use))
  | .run statement =>
    (h, kept, .under (.session s statement rest use) (.statement statement s.scope))
  | .failed e =>
    match use with
    | .shown => (h.note (.out ("ERROR: " ++ e.message)), kept, .call (.session s rest use))
    | _ => (h, kept, .give (.error e))

/-- Feeds a session until a statement is to be run or all of its input is used up. -/
def feed (h : House) (s : Session) (inputs : List Input) (use : SessionUse) :
    House × Option Session × Move :=
  match inputs with
  | [] => (h, if use == .kept then some s else none, .done)
  | i :: rest =>
    let (h, s, progress) :=
      match i with
      | .line text => s.feed h text
      | .finish => s.finish h
    follow h s progress rest use

/-- Begins a call. -/
def begin (job : Link.JobId) : Call → Act Move
  | .dispatch e => dispatch e
  | .announce words scope => do dispatch (← Act.makeEvent words scope)
  | .run r => do goOn (← get).bands r
  | .nested bands r => goOn bands r
  | .statement s scope => run s scope
  | .body b scope => pure (runBody b scope)
  | .load name => load name
  | .unload name => unload name
  | .unloadAll names => pure (unloadAll names)
  | .takeDown m => takeDown m
  | .close id => close id job
  | .closeAll ids => pure (closeAll ids)
  | .session _ _ _ => pure .done
  | .send id m => pure (.pause (.send id m))
  | .post id c => pure (.pause (.post id c))
  | .awaitState id state => pure (.pause (.state id state))
  | .sleep nanos => return .pause (.sleep ((← get).now + nanos))
  | .shutDown => do
    return .under .shutdownAnnounced (.announce [.text "shutdown"] (← get).root)

/-- Gives the outcome of a call to the frame that waited for it. -/
def resume (o : Outcome) : Frame → Act Move
  | .body line rest scope => pure (afterStatement line rest scope o)
  | .step bands r => afterStep bands r o
  | .raised p =>
    match o with
    | .ok _ => pure (.give (probeEnd p))
    | .error e => throw e
  | .unlock name => do
    Act.update (Act.unlockState name)
    pure (.give o)
  | .waitStarted name token span scope => waitStarted name token span scope o
  | .waited name scope => waited name scope o
  | .result known => pure (.give known)
  | .announced known => do
    reportOutcome o
    pure (.give known)
  | .loadStarted m => loadStarted m o
  | .rolledBack m e => rolledBack m e
  | .unloadStarted m => unloadStarted m o
  | .takenDown m => takenDown m o
  | .unloadAll rest => pure (unloadAll rest)
  | .uninstall m => do
    Act.uninstall m
    pure .done
  | .closing rest => pure (closeAll rest)
  | .closed id =>
    match o with
    | .ok _ => pure (.pause (.stopped id))
    | .error _ => pure .done
  | .shutdownAnnounced => do
    return .under .linksClosed (.closeAll (← Act.perform House.takeLinks))
  | .linksClosed => do
    return .call (.unloadAll ((← get).loaded.map (·.name)).reverse)
  | .sent ticket => pure (sent ticket o)
  | .session _ _ _ _ => pure (.give o)
  | .report line => do
    match o with
    | .ok _ => pure ()
    | .error e =>
      let e := match line with
        | some n => e.atLineOnce n
        | none => e
      Act.update fun h => h.reportError e
    pure .done
  | .finished => do
    Act.update fun h => h.note (.finished o)
    pure .done

/-- The state of a strand: its stack of frames, the innermost first, and what it is doing. -/
structure State where
  frames : List Frame
  doing : Doing
  deriving Inhabited

/-- A strand that starts with a call. -/
def State.start (frames : List Frame) (c : Call) : State := ⟨frames, .call c⟩

/-- What a move makes of a stack. -/
def moveOn (frames : List Frame) : Except ScriptError Move × House → State × House
  | (.ok m, h) => (⟨m.frames ++ frames, m.doing⟩, h)
  | (.error e, h) => (⟨frames, .give (.error e)⟩, h)

/-- One step of a strand that does not pause, and the session that is kept now, if the step changed
one. A strand that gives an outcome to an empty stack has ended and stays as it is. -/
def step (job : Link.JobId) (h : House) (t : State) : State × House × Option Session :=
  match t.doing, t.frames with
  | .call (.session s inputs use), frames =>
    let (h, kept, m) := feed h s inputs use
    (⟨m.frames ++ frames, m.doing⟩, h, kept)
  | .call c, frames =>
    let (t, h) := moveOn frames ((begin job c).runOn h)
    (t, h, none)
  | .give o, .session s statement rest use :: frames =>
    let (h, s, progress) := s.afterRun h statement o
    let (h, kept, m) := follow h s progress rest use
    (⟨m.frames ++ frames, m.doing⟩, h, kept)
  | .give o, f :: frames =>
    let (t, h) := moveOn frames ((resume o f).runOn h)
    (t, h, none)
  | .give _, [] => (t, h, none)
  | .pause _, _ => (t, h, none)

/-! ## Pauses -/

/-- When a pause is over by itself. -/
def due? : Pause → Option Nat
  | .sleep due => some due
  | .wait _ _ due => some due
  | _ => none

/-- What became of an item that was to be put into a channel. -/
def posted : Link.Posting × House → Option Outcome × House
  | (.put, h) => (some (.ok .done), h)
  | (.full, h) => (none, h)
  | (.closed, h) => (some (.error (.external (.queue .closed))), h)

/-- Looks whether a pause is over, and how it ended. -/
def poll (job : Link.JobId) (h : House) (p : Pause) : Option Outcome × House :=
  match p with
  | .sleep due => (if due ≤ h.now then some (.ok .done) else none, h)
  | .wait name token due =>
    if due ≤ h.now then (some (.ok .done), h)
    else if Act.hasToken h token then (none, h)
    else (some (.error (.cancelled ("wait " ++ name.render))), h)
  | .send id m => posted (h.send id job m)
  | .post id c => posted (h.post id job c)
  | .answer ticket =>
    match h.answers.lookup ticket with
    | some r =>
      let h := { h with answers := h.answers.filter (·.1 != ticket) }
      match r with
      | .ok _ => (some (.ok .done), h)
      | .error e => (some (.error (.external (.queue e))), h)
    | none => (none, h)
  | .stopped id =>
    (if (h.queue? id).any (·.running) then none else some (.ok .done), h)
  | .state id state =>
    match h.queue? id with
    | none => (some (.error (.external (.queue .closed))), h)
    | some q =>
      if q.status.state == state then (some (.ok .done), h)
      else if q.running then (none, h)
      else (some (.error (.external (.queue .closed))), h)

end Hearth.Strand
