import Hearth.Link.Channel
import Hearth.Link.Pump

/-!
# Message queues

A queue is a loop with the two channels that feed it. When the loop has its turn it handles
everything that is there: items for the control of the link before new messages, and the timer
only if neither channel holds anything. It stops when it is told to close, or when nobody is left
who could send.
-/

namespace Hearth.Link

/-- How an attempt to connect turns out. -/
inductive Plan where
  | succeed
  /-- The transport refuses, for a reason. -/
  | refuse (reason : String)
  /-- Nothing ever happens. -/
  | hang
  /-- After some milliseconds the attempt turns out as planned. -/
  | delay (millis : Nat) (refusal : Option String)
  deriving Repr, DecidableEq, Inhabited

/-- What happens to the notices of a queue. -/
inductive Hook where
  | ignored
  /-- They are noted. -/
  | noted
  /-- They become events. -/
  | announced
  deriving Repr, DecidableEq, Inhabited

/-- A running queue. -/
structure Queue (M : Type) where
  name : Name
  loop : Loop M
  control : Channel Control
  traffic : Channel M
  /-- May somebody still send? -/
  held : Bool
  running : Bool
  /-- Did the loop have its first turn? -/
  begun : Bool
  hook : Hook
  /-- When the state of the link last changed. -/
  since : Nat
  /-- How the coming attempts turn out, and all attempts after them. -/
  plans : List Plan
  fallback : Plan
  /-- The generations whose attempt succeeded, oldest first. -/
  opened : List Nat
  deriving Inhabited

/-- What a turn of a queue leaves for others to do. -/
inductive Effect (M : Type) where
  /-- A strand can go on. -/
  | wake (id : JobId)
  | output (value : Output M)
  deriving Repr, DecidableEq, Inhabited

namespace Queue

variable {M : Type}

/-- A queue whose loop has not run yet. -/
def start (name : Name) (config : Config) (hook : Hook) (plans : List Plan) (fallback : Plan) :
    Queue M where
  name
  loop := .start config
  control := .ofCapacity config.capacity
  traffic := .ofCapacity config.capacity
  held := true
  running := true
  begun := false
  hook
  since := 0
  plans
  fallback
  opened := []

/-- The state last published. -/
def status (q : Queue M) : Status := q.loop.status

/-- Does the queue still take messages? -/
def isOpen (q : Queue M) : Bool := !q.traffic.closed

/-! ## Sending -/

/-- Sends a message; a closed queue fails it. -/
def send (q : Queue M) (job : JobId) (m : M) : Posting × List (Effect M) × Queue M :=
  let (r, traffic) := q.traffic.offer job m
  (r, if r == .closed then [.output (.failed m .closed)] else [], { q with traffic })

/-- Sends a message if there is room for it at once; otherwise it fails. -/
def trySend (q : Queue M) (m : M) : Option QueueError × List (Effect M) × Queue M :=
  if q.traffic.closed then (some .closed, [.output (.failed m .closed)], q)
  else
    match q.traffic.put? m with
    | some traffic => (none, [], { q with traffic })
    | none => (some .full, [.output (.failed m .full)], q)

/-- Posts an item for the control of the link. -/
def post (q : Queue M) (job : JobId) (item : Control) : Posting × Queue M :=
  let (r, control) := q.control.offer job item
  (r, { q with control })

/-! ## The loop -/

/-- Takes the log of the loop as effects, oldest first, and notes the time if the state of the link
changed since the loop was as given. -/
def drain (now : Nat) (before : Loop M) (q : Queue M) : List (Effect M) × Queue M :=
  let changed := q.loop.state != before.state || q.loop.generation != before.generation
  (q.loop.log.reverse.map .output,
    { q with
      loop := { q.loop with log := [] }
      since := if changed then now else q.since })

section Steps

variable [Message M]

/-- Lets the loop begin. -/
def begin (now : Nat) (q : Queue M) : List (Effect M) × Queue M :=
  { q with begun := true, since := now, loop := q.loop.begin }.drain now q.loop

/-- Stops the loop, which fails all messages; everybody in line is told. -/
def stop (now : Nat) (q : Queue M) : List (Effect M) × Queue M :=
  let (backlog, woken, traffic) := q.traffic.takeAll
  let (effects, q) := { q with traffic, loop := (q.loop.shutdown backlog).publish }.drain now q.loop
  let (inLine, traffic) := q.traffic.close
  let (atControl, control) := q.control.close
  (woken.map .wake ++ effects ++
      (inLine ++ traffic.granted ++ atControl ++ control.granted).map .wake,
    { q with running := false, held := false, traffic, control := { control with items := [] } })

/-- Lets the loop handle an input, or stop at it. -/
def handle (now : Nat) (q : Queue M) (input : Loop.Input M) : List (Effect M) × Queue M :=
  if input.isFinal then q.stop now
  else { q with loop := q.loop.handle now input }.drain now q.loop

/-- Lets the loop take all messages that have arrived, and connect if it has to. -/
def gather (now : Nat) (q : Queue M) : List (Effect M) × Queue M :=
  let (backlog, woken, traffic) := q.traffic.takeAll
  let (effects, q) := { q with traffic, loop := q.loop.gather backlog }.drain now q.loop
  (woken.map .wake ++ effects, q)

/-- Lets the loop write one message, or publish its status if the link takes none. Tells whether it
wrote one. -/
def write (now : Nat) (q : Queue M) : Bool × List (Effect M) × Queue M :=
  match q.loop.round now with
  | (true, loop) => (true, { q with loop }.drain now q.loop)
  | (false, loop) => (false, { q with loop := loop.publish }.drain now q.loop)

/-- The next input of the loop, if there is one: from the control channel, from the traffic
channel, or from the timer. -/
def nextInput (now : Nat) (q : Queue M) : Option (Loop.Input M × List (Effect M) × Queue M) :=
  match q.control.take? with
  | some (item, woken, control) =>
    some (.control item, woken.toList.map .wake, { q with control })
  | none =>
    match q.traffic.take? with
    | some (m, woken, traffic) => some (.traffic m, woken.toList.map .wake, { q with traffic })
    | none =>
      if !q.held then some (.abandoned, [], q)
      else if q.loop.nextDeadline.any (· ≤ now) then some (.timer, [], q)
      else none

end Steps

section Turns

variable [BoundedMessage M]

theorem write_load {now : Nat} {q q' : Queue M} {es : List (Effect M)}
    (h : q.write now = (true, es, q')) : q'.loop.load < q.loop.load := by
  unfold write at h
  split at h
  · next l hl =>
    have hq : l.load = q'.loop.load := congrArg (·.2.2.loop.load) h
    exact hq ▸ Loop.round_load hl
  · simp at h

/-- Lets the loop write all that it can. -/
def settle (now : Nat) (q : Queue M) : List (Effect M) × Queue M :=
  match _h : q.write now with
  | (true, written, q') =>
    let (more, q) := q'.settle now
    (written ++ more, q)
  | (false, written, q') => (written, q')
termination_by q.loop.load
decreasing_by exact write_load _h

/-- Handles one input of the loop, with all messages that have arrived. -/
def feed (now : Nat) (q : Queue M) (input : Loop.Input M) : List (Effect M) × Queue M :=
  let (handled, q) := q.handle now input
  if q.running then
    let (gathered, q) := q.gather now
    let (settled, q) := q.settle now
    (handled ++ gathered ++ settled, q)
  else (handled, q)

/-- Handles inputs until there is none; `rounds` bounds their number. -/
def drive (now : Nat) : Nat → Queue M → List (Effect M) × Queue M
  | 0, q => ([], q)
  | rounds + 1, q =>
    if !q.running then ([], q)
    else
      match q.nextInput now with
      | none => ([], q)
      | some (input, woken, q) =>
        let (effects, q) := q.feed now input
        let (more, q) := drive now rounds q
        (woken ++ effects ++ more, q)

/-- The turn of a queue's loop. -/
def turn (now : Nat) (q : Queue M) : List (Effect M) × Queue M :=
  let (before, q) := if q.begun then ([], q) else q.begin now
  let rounds := q.control.items.length + q.traffic.items.length + q.loop.receivers.length + 1000
  let (after, q) := q.drive now rounds
  (before ++ after, q)

end Turns

/-- When the loop wants another turn by itself. -/
def wakeAt (q : Queue M) : Option Nat := if q.running then q.loop.nextDeadline else none

/-- How the next attempt to connect turns out. -/
def takePlan (q : Queue M) : Plan × Queue M :=
  match q.plans with
  | p :: plans => (p, { q with plans })
  | [] => (q.fallback, q)

end Queue

end Hearth.Link
