import Hearth.Sequence

/-!
# The registry of workers

Workers are kept in the order in which they are asked: ascending priority, and within one priority
in the order of registration. A priority of the system has at most one worker. Numbers of workers
are never used twice.
-/

namespace Hearth

/-- A worker and its number. -/
structure Registered where
  id : WorkerId
  worker : Worker
  deriving Inhabited

/-- All workers, in the order in which they are asked. -/
structure Registry where
  bands : Bands
  workers : List Registered
  /-- The number of the next worker. -/
  next : Nat
  deriving Inhabited

namespace Registry

/-- A registry without workers. -/
def empty (bands : Bands) : Registry := ⟨bands, [], 1⟩

/-- Puts a worker behind those of its priority. -/
def place (r : Registered) : List Registered → List Registered
  | [] => [r]
  | x :: rest =>
    if r.worker.priority < x.worker.priority then r :: x :: rest else x :: place r rest

/-- The first worker of a priority. -/
def firstAt? (r : Registry) (priority : Int32) : Option Registered :=
  r.workers.find? fun x => x.worker.priority == priority

/-- Adds a worker; a priority of the system must be free. -/
def register (r : Registry) (w : Worker) : Except WorkError (WorkerId × Registry) :=
  let taken := if r.bands.isSystem w.priority then r.firstAt? w.priority else none
  match taken with
  | some x => .error (.priorityTaken w.priority x.worker.name)
  | none =>
    .ok (⟨r.next⟩, { r with workers := place ⟨⟨r.next⟩, w⟩ r.workers, next := r.next + 1 })

/-- The worker with a number. -/
def get? (r : Registry) (id : WorkerId) : Option Worker :=
  (r.workers.find? fun x => x.id == id).map (·.worker)

/-- Takes a worker away. -/
def unregister (r : Registry) (id : WorkerId) : Except WorkError (Worker × Registry) :=
  match r.get? id with
  | some w => .ok (w, { r with workers := r.workers.filter fun x => x.id != id })
  | none => .error (.unknownWorker id)

/-- Takes all workers of a name away, and counts them. -/
def unregisterNamed (r : Registry) (name : Name) : Nat × Registry :=
  let kept := r.workers.filter fun x => x.worker.name != name
  (r.workers.length - kept.length, { r with workers := kept })

/-- The priorities in use, each once, in ascending order. -/
def priorities (r : Registry) : List Int32 := (r.workers.map (·.worker.priority)).eraseReps

/-- The workers for an event, in order. -/
def matching (r : Registry) (words : Name) : List Worker :=
  (r.workers.map (·.worker)).filter fun w => w.accepts words

/-- The workers for a failure, in order. -/
def catching (r : Registry) (failure : Failure) : List Worker :=
  (r.workers.map (·.worker)).filter fun w => w.catches failure.message

/-- The descriptions of all workers, each with its number in front. -/
def report (r : Registry) (verbose : Bool) : List String :=
  r.workers.flatMap fun x =>
    match x.worker.report verbose with
    | [] => []
    | first :: rest => (x.id.render ++ " " ++ first) :: rest

end Registry

end Hearth
