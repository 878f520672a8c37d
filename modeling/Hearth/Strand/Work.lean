import Hearth.Strand

/-!
# Dispatch

An event runs through the sequence of all workers that are for it. A step of the system's bands
always runs; the steps of the ordinary band are skipped from the step on that halts, fails or
claims the event, the last two only in a conditional sequence. The last step that fails gives the
sequence its error; a failure that it replaces is handed to the workers that catch failures.
-/

namespace Hearth.Strand

/-- A sequence before its first step. -/
def startRun (s : Sequence) : Run := ⟨s, 0, false, false, none⟩

/-- The next step to run: from a step on, the first that is not skipped, with its number. -/
def nextStep (bands : Bands) (skipping : Bool) : List Step → Nat → Option (Nat × Step)
  | [], _ => none
  | s :: rest, i =>
    if skipping && !bands.isSystem s.priority then nextStep bands skipping rest (i + 1)
    else some (i, s)

/-- How a probe's work ends. -/
def probeEnd (p : ProbeWorker) : Outcome :=
  match p.fault with
  | some text => .error (.work (.other text))
  | none => .ok p.flow

/-- Makes an event for a probe, in a scope of its own, and dispatches it. -/
def raise (p : ProbeWorker) (name : Name) (scope : ScopeId) : Act Move := do
  let scope ← Act.derive scope none []
  let h ← get
  match Event.make h.nextEvent name scope h.clock with
  | .ok e =>
    set { h with nextEvent := h.nextEvent + 1 }
    pure (.under (.raised p) (.dispatch e))
  | .error e => throw (.work (.event e))

/-- What a worker does with an event. -/
def process (e : Event) : Worker → Act Move
  | .eventLog _ level => do
    Act.update fun h => h.logLines level (e.report h.scopes (level == .trace))
    pure .done
  | .doneLog _ => do
    Act.update fun h => h.logAll .trace ["END: " ++ e.name.render]
    pure .done
  | .failureLog _ => pure (.give (.ok .decline))
  | .teardown _ => do
    Act.update Act.cancelWaits
    let links ← Act.perform House.takeLinks
    pure (.call (.closeAll links))
  | .handler x => do
    let bound := (Pattern.bind? x.pattern e.name).getD []
    let scope ← Act.derive e.scope (some x.scope) bound
    pure (.call (.body x.body scope))
  | .recorder _ => do
    Act.update fun h => h.note (.event e.name (h.scopes.get e.scope).locals)
    pure (.give (.ok .decline))
  | .probe p => do
    Act.update fun h => h.note (.worked p.name e.name)
    match p.raises with
    | some name => raise p name e.scope
    | none => pure (.give (probeEnd p))

/-- The call that runs a step. -/
def runStep (bands : Bands) (e : Event) : Step → Act Move
  | .worker w => process e w
  | .nested _ id conditional steps =>
    pure (.call (.nested bands (startRun ⟨id, e, conditional, steps⟩)))

/-- How a sequence ends. -/
def runEnd : Option Failure → Outcome
  | some failure => .error (.work (.nested failure))
  | none => .ok .done

/-- Goes on with a sequence: runs its next step, or ends. -/
def goOn (bands : Bands) (run : Run) : Act Move := do
  match nextStep bands run.skipping (run.sequence.steps.drop run.index) run.index with
  | none => pure (.give (runEnd run.pending))
  | some (i, s) =>
    let move ← tryCatch (runStep bands run.sequence.event s) fun e => pure (.give (.error e))
    pure { move with frames := move.frames ++ [.step bands { run with index := i }] }

/-- The failure that an error of a step is to its sequence. -/
def stepFailure (s : Sequence) (index : Nat) (e : ScriptError) : Failure :=
  (Failure.ofError e.toWork).inside (s.report false (some index))

/-- Takes the result of the step that ran: whether the steps of the ordinary band are skipped now,
which failure is to be the result, and the failure that it replaces. -/
def account (bands : Bands) (run : Run) : Outcome → Run × Option Failure
  | .ok .done =>
    let system := (run.sequence.steps[run.index]?).all fun s => bands.isSystem s.priority
    if run.sequence.conditional && !system && !run.claimed then
      ({ run with claimed := true, skipping := true }, none)
    else (run, none)
  | .ok .decline => (run, none)
  | .ok .halt => ({ run with skipping := true }, none)
  | .error e =>
    ({ run with
        pending := some (stepFailure run.sequence run.index e)
        skipping := run.skipping || run.sequence.conditional },
      run.pending)

/-- Goes on with a sequence after the step that ran; a failure that was replaced is handed to
failure dispatch. -/
def afterStep (bands : Bands) (run : Run) (o : Outcome) : Act Move := do
  let (run, older) := account bands run o
  Act.update fun h => older.elim h fun failure => (h.dispatchFailure failure).1
  goOn bands { run with index := run.index + 1 }

/-- Starts the sequence of the workers for an event. -/
def dispatch (e : Event) : Act Move := do
  let sequence ← Act.perform fun h => h.sequenceFor e
  pure (.call (.run (startRun sequence)))

end Hearth.Strand
