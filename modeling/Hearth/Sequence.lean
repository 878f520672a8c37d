import Hearth.Worker

/-!
# Work sequences

The workers that an event goes through, in order, are a sequence. A composite worker is replaced by
a sequence of its own, as one step. In a conditional sequence the first worker of the ordinary band
that is done claims the event, and the steps of that band after it are skipped; in a plain one all
steps run until one halts. Every sequence has a number, and a nested one a later number than the one
around it.
-/

namespace Hearth

/-- One step of a sequence. -/
inductive Step where
  | worker (value : Worker)
  /-- The steps of a composite worker, with the number of their sequence. -/
  | nested (owner : Worker) (id : Nat) (conditional : Bool) (steps : List Step)
  deriving Inhabited

/-- One run of workers for an event. -/
structure Sequence where
  id : Nat
  event : Event
  conditional : Bool
  steps : List Step
  deriving Inhabited

namespace Step

/-- The priority of a step, that of its worker. -/
def priority : Step → Int32
  | .worker w => w.priority
  | .nested owner _ _ _ => owner.priority

mutual

/-- The step that a probe becomes, and the next free number of a sequence. -/
def ofProbe (next : Nat) : ProbeWorker → Step × Nat
  | ⟨name, priority, matching, raises, fault, flow, none, catching, catchFault, notes, terse⟩ =>
    (.worker (.probe ⟨name, priority, matching, raises, fault, flow, none, catching, catchFault,
      notes, terse⟩), next)
  | ⟨name, priority, matching, raises, fault, flow, some (steps, conditional), catching, catchFault,
      notes, terse⟩ =>
    let (inner, after) := ofProbes (next + 1) steps
    (.nested (.probe ⟨name, priority, matching, raises, fault, flow, some (steps, conditional),
      catching, catchFault, notes, terse⟩) next conditional inner, after)

/-- The steps that probes become. -/
def ofProbes (next : Nat) : List ProbeWorker → List Step × Nat
  | [] => ([], next)
  | p :: rest =>
    let (s, next) := ofProbe next p
    let (steps, next) := ofProbes next rest
    (s :: steps, next)

end

/-- The step that a worker becomes. -/
def ofWorker (next : Nat) : Worker → Step × Nat
  | .probe p => ofProbe next p
  | w => (.worker w, next)

/-- The steps that workers become, in order. -/
def ofWorkers (next : Nat) : List Worker → List Step × Nat
  | [] => ([], next)
  | w :: rest =>
    let (s, next) := ofWorker next w
    let (steps, next) := ofWorkers next rest
    (s :: steps, next)

end Step

namespace Sequence

/-- The sequence of the given workers, and the next free number. -/
def ofWorkers (next : Nat) (event : Event) (conditional : Bool) (workers : List Worker) :
    Sequence × Nat :=
  let (steps, after) := Step.ofWorkers (next + 1) workers
  (⟨next, event, conditional, steps⟩, after)

/-- The first line of a description. -/
def headline (conditional : Bool) (id : Nat) (event : Event) : String :=
  (if conditional then "ConditionalWorkSequence #" else "WorkSequence #") ++ toString id ++ ": " ++
    event.headline

/-- The marks in front of a step and of its further lines. -/
def marks (isLast running : Bool) : String × String :=
  let branch :=
    match isLast, running with
    | false, false => "├── "
    | true, false => "└── "
    | false, true => "├>> "
    | true, true => "└>> "
  (branch, if isLast then "    " else "│   ")

/-- Lines with the marks of a step in front. -/
def marked (isLast running : Bool) : List String → List String
  | [] => [(marks isLast running).1]
  | first :: rest =>
    ((marks isLast running).1 ++ first) :: rest.map ((marks isLast running).2 ++ ·)

mutual

/-- The description of a step. -/
def stepReport (event : Event) (verbose : Bool) : Step → List String
  | .worker w => w.report verbose
  | .nested owner id conditional steps =>
    owner.name.render :: headline conditional id event :: stepReports event verbose none 0 steps

/-- The descriptions of the steps from number `i` on; step `current` is running. -/
def stepReports (event : Event) (verbose : Bool) (current : Option Nat) (i : Nat) :
    List Step → List String
  | [] => []
  | s :: rest =>
    marked rest.isEmpty (current == some i) (stepReport event verbose s) ++
      stepReports event verbose current (i + 1) rest

end

/-- The description of a sequence as a tree; step `current` is running. -/
def report (verbose : Bool) (current : Option Nat) (s : Sequence) : List String :=
  headline s.conditional s.id s.event :: stepReports s.event verbose current 0 s.steps

end Sequence

end Hearth
