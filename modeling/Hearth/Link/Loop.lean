import Hearth.Link.Backoff
import Hearth.Link.Message
import Hearth.Link.State

/-!
# The loop of a message queue

A queue owns a transport, the messages that are still to be written (one list for every class of
traffic) and the messages that wait for a reply. It is driven by inputs: items for the control of
the link, new messages, and a timer. After each input it takes the messages that have arrived,
connects if it has to (`Loop.gather`), writes one message after the other as long as the link takes
more (`Loop.round`), and publishes its status.

Every attempt to connect has a number of its own, its generation, which tags all that a transport
reports; reports of an earlier generation are ignored. What the loop does to the outside, and
everything that it asks of a message, is written to its log, newest entry first. Times are in
nanoseconds.
-/

namespace Hearth.Link

/-- The settings of a queue. -/
structure Config where
  /-- Only connect while there is traffic. -/
  ondemand : Bool
  /-- The most messages that may wait for a reply. -/
  maxOpen : Option Nat
  /-- Reopen the transport after so many completed messages. -/
  maxSend : Option Nat
  /-- The room for items that the loop has not taken yet. -/
  capacity : Nat
  /-- Seconds allowed for an attempt to connect. -/
  connectTimeout : Float
  backoff : BackoffConfig
  deriving Repr, Inhabited

/-- The settings used when nothing else is configured. -/
def Config.standard : Config where
  ondemand := false
  maxOpen := none
  maxSend := none
  capacity := 64
  connectTimeout := 3.0
  backoff := .standard

/-- The longest span of time. -/
def longest : Span := ⟨UInt64.size * Span.nanosPerSecond - 1⟩

/-- The span allowed for an attempt to connect. -/
def Config.limit (c : Config) : Span :=
  let x := if 0.0 < c.connectTimeout then c.connectTimeout else 0.0
  (Span.ofSeconds? x).getD longest

/-- Something noteworthy happened on the link. -/
inductive Notice where
  | connect
  | disconnect (reason : String)
  /-- An attempt to connect failed. -/
  | error (reason : String)
  /-- A message got no reply in time. -/
  | timeout (message : String)
  /-- No waiting message took the data. -/
  | unrouted (data : Bytes)
  deriving Repr, DecidableEq, Inhabited

/-- The word for a notice. -/
def Notice.word : Notice → String
  | .connect => "connect"
  | .disconnect _ => "disconnect"
  | .error _ => "error"
  | .timeout _ => "timeout"
  | .unrouted _ => "unrouted"

/-- What is published about a queue. -/
structure Status where
  state : State
  /-- Failed attempts to connect since the last success. -/
  failures : Nat
  sent : Nat
  received : Nat
  processed : Nat
  /-- Messages that are still to be written. -/
  queued : Nat
  /-- Messages that wait for a reply. -/
  awaiting : Nat
  lastError : Option String
  deriving Repr, DecidableEq, Inhabited

/-- The status before anything happened. -/
def Status.initial : Status := ⟨.closed, 0, 0, 0, 0, 0, 0, none⟩

/-- An item for the control of the link. -/
inductive Control where
  | incoming (generation : Nat) (data : Bytes)
  | lost (generation : Nat) (reason : String)
  | connected (generation : Nat)
  | connectFailed (generation : Nat) (reason : String)
  | reopen
  | close
  deriving Repr, DecidableEq, Inhabited

/-- What a loop does to the outside. -/
inductive Output (M : Type) where
  /-- Starts an attempt to connect. -/
  | attempt (generation : Nat)
  /-- Ends the attempt that is running. -/
  | abort
  | wrote (generation : Nat) (frame : Bytes)
  | writeFailed (generation : Nat) (frame : Bytes)
  /-- Closes a transport. -/
  | closed (generation : Nat)
  | notice (value : Notice)
  | asked (message : M) (question : Question)
  | retried (message : M) (directive : RetryDirective)
  /-- A message was completed. -/
  | done (message : M)
  | failed (message : M) (error : QueueError)
  /-- A step that the link cannot take was asked for, and not taken. -/
  | refused (source target : State)
  | published (status : Status)
  deriving Repr, DecidableEq, Inhabited

/-- A message that waits for a reply, perhaps not for ever. -/
structure Pending (M : Type) where
  message : M
  deadline : Option Nat
  deriving Repr, DecidableEq, Inhabited

/-- The messages that are still to be written, a list for every class. -/
structure Buckets (M : Type) where
  control : List M
  urgent : List M
  standard : List M
  background : List M
  deriving Repr, DecidableEq, Inhabited

namespace Buckets

variable {M : Type}

/-- No message at all. -/
def empty : Buckets M := ⟨[], [], [], []⟩

/-- The messages of a class. -/
def get (b : Buckets M) : Traffic → List M
  | .control => b.control
  | .urgent => b.urgent
  | .standard => b.standard
  | .background => b.background

/-- Replaces the messages of a class. -/
def set (b : Buckets M) (c : Traffic) (ms : List M) : Buckets M :=
  match c with
  | .control => { b with control := ms }
  | .urgent => { b with urgent := ms }
  | .standard => { b with standard := ms }
  | .background => { b with background := ms }

/-- Puts a message behind those of a class. -/
def pushBack (b : Buckets M) (c : Traffic) (m : M) : Buckets M := b.set c (b.get c ++ [m])

/-- Puts a message before those of a class. -/
def pushFront (b : Buckets M) (c : Traffic) (m : M) : Buckets M := b.set c (m :: b.get c)

/-- All messages, highest class first. -/
def all (b : Buckets M) : List M := b.control ++ b.urgent ++ b.standard ++ b.background

/-- Takes the first message of the highest class that has one. -/
def pop (b : Buckets M) : Option (Traffic × M × Buckets M) :=
  match b.control, b.urgent, b.standard, b.background with
  | m :: control, _, _, _ => some (.control, m, { b with control })
  | [], m :: urgent, _, _ => some (.urgent, m, { b with urgent })
  | [], [], m :: standard, _ => some (.standard, m, { b with standard })
  | [], [], [], m :: background => some (.background, m, { b with background })
  | [], [], [], [] => none

end Buckets

/-- The state of a queue's loop. -/
structure Loop (M : Type) where
  config : Config
  state : State
  /-- The generation of the open transport. -/
  conn : Option Nat
  /-- The generation of the attempt that is running. -/
  connecting : Option Nat
  generation : Nat
  backoff : Backoff
  /-- When the next attempt is due. -/
  retryAt : Option Nat
  /-- Set after giving up: only new traffic starts another attempt. -/
  idle : Bool
  buckets : Buckets M
  /-- The messages that wait for a reply, oldest first. -/
  receivers : List (Pending M)
  sent : Nat
  received : Nat
  processed : Nat
  /-- Messages completed since the transport was opened. -/
  processedSinceOpen : Nat
  lastError : Option String
  /-- With which errors the coming frames fail, in order; those without one, and all after them, get
  through to the transport. -/
  wire : List (Option QueueError)
  status : Status
  /-- What was done to the outside, newest first. -/
  log : List (Output M)
  deriving Inhabited

namespace Loop

variable {M : Type} [Message M]

/-- A loop that has done nothing yet. -/
def start (config : Config) : Loop M where
  config
  state := .closed
  conn := none
  connecting := none
  generation := 0
  backoff := .start config.backoff
  retryAt := none
  idle := false
  buckets := .empty
  receivers := []
  sent := 0
  received := 0
  processed := 0
  processedSinceOpen := 0
  lastError := none
  wire := []
  status := .initial
  log := []

/-- Writes to the log. -/
def put (l : Loop M) (o : Output M) : Loop M := { l with log := o :: l.log }

/-- Asks a message something; the answer is that of the message. -/
def ask (l : Loop M) (m : M) (q : Question) : Loop M := l.put (.asked m q)

/-- Reports a notice. -/
def emit (l : Loop M) (n : Notice) : Loop M := l.put (.notice n)

/-- Takes a step of the link if it can be taken, and tells whether it was. -/
def transition (l : Loop M) (target : State) : Bool × Loop M :=
  if l.state.canGo target then (true, { l with state := target })
  else (false, l.put (.refused l.state target))

/-- The status of the moment. -/
def snapshot (l : Loop M) : Status where
  state := l.state
  failures := l.backoff.failures.toNat
  sent := l.sent
  received := l.received
  processed := l.processed
  queued := l.buckets.all.length
  awaiting := l.receivers.length
  lastError := l.lastError

/-- Publishes the status of the moment. -/
def publish (l : Loop M) : Loop M := { l with status := l.snapshot }.put (.published l.snapshot)

/-- Is any message waiting to be written or for a reply? -/
def hasTraffic (l : Loop M) : Bool := !l.receivers.isEmpty || !l.buckets.all.isEmpty

/-- Puts a message behind those of its class. -/
def pushBack (l : Loop M) (m : M) : Loop M :=
  { l.ask m .traffic with buckets := l.buckets.pushBack (Message.traffic m) m }

/-- Puts a message before those of its class. -/
def pushFront (l : Loop M) (m : M) : Loop M :=
  { l.ask m .traffic with buckets := l.buckets.pushFront (Message.traffic m) m }

/-- Takes a new message. -/
def accept (l : Loop M) (m : M) : Loop M := { (l.ask m .describe).pushBack m with idle := false }

/-- When a message that starts to wait now has waited too long. -/
def deadline (now : Nat) (m : M) : Option Nat := (Message.timeout m).map fun t => now + t.nanos

/-- Lets a message wait for a reply from now on. -/
def await (now : Nat) (l : Loop M) (m : M) : Loop M :=
  { l.ask m .timeout with receivers := l.receivers ++ [⟨m, deadline now m⟩] }

/-- The earlier of two times. -/
def earlier : Option Nat → Option Nat → Option Nat
  | some a, some b => some (min a b)
  | some a, none => some a
  | none, b => b

/-- When the timer is due: at the next attempt, or when the first message has waited too long. -/
def nextDeadline (l : Loop M) : Option Nat :=
  let retry := if l.state == .waiting then l.retryAt else none
  l.receivers.foldl (fun acc p => earlier acc p.deadline) retry

/-- Starts an attempt to connect. -/
def startConnect (l : Loop M) : Loop M :=
  match l.transition .connecting with
  | (false, l) => l
  | (true, l) =>
    let generation := l.generation + 1
    { l with generation, connecting := some generation }.put (.attempt generation)

/-- Starts an attempt to connect if there is no link and one is wanted. -/
def maybeConnect (l : Loop M) : Loop M :=
  if l.state != .closed then l
  else if l.config.ondemand || l.idle then if l.hasTraffic then l.startConnect else l
  else l.startConnect

/-- Fails every message. -/
def failAll (l : Loop M) (e : QueueError) : Loop M :=
  let ms := l.receivers.map (·.message) ++ l.buckets.all
  ms.foldl (fun l m => l.put (.failed m e)) { l with receivers := [], buckets := .empty }

/-- Puts the next attempt off. -/
def putOff (now : Nat) (l : Loop M) (delay : Span) : Loop M :=
  match l.transition .waiting with
  | (true, l) => { l with retryAt := some (now + delay.nanos) }
  | (false, l) => l

/-- Gives up connecting, until there is new traffic. -/
def giveUp (l : Loop M) (reason : String) : Loop M :=
  let l := l.failAll (.connectFailed (l.backoff.failures.toNat + 1) reason)
  ({ l with backoff := l.backoff.reset, idle := true }.transition .closed).2

/-- After a failure: puts the next attempt off, or gives up. -/
def scheduleRetry (now : Nat) (l : Loop M) (reason : String) : Loop M :=
  let l := { l with lastError := some reason }
  match l.backoff.fail with
  | (.after delay, backoff) => { l with backoff }.putOff now delay
  | (.around delay, backoff) => { l with backoff }.putOff now delay
  | (.tooLong, backoff) => { l with backoff }.putOff now longest
  | (.exhausted, _) => l.giveUp reason

/-- An attempt succeeded: the transport is open. -/
def opened (l : Loop M) (generation : Nat) : Loop M :=
  let l := ({ l with connecting := none, conn := some generation }.transition .connected).2
  { l with backoff := l.backoff.reset, processedSinceOpen := 0, lastError := none }.emit .connect

/-- Closes the transport. -/
def teardown (l : Loop M) : Loop M :=
  match l.transition .closing with
  | (false, l) => l
  | (true, l) =>
    match l.conn with
    | some generation => { l with conn := none }.put (.closed generation)
    | none => l

/-- The link broke. -/
def linkLost (now : Nat) (l : Loop M) (reason : String) : Loop M :=
  (l.teardown.emit (.disconnect reason)).scheduleRetry now reason

/-- Closes the transport and connects again at once. -/
def recycle (l : Loop M) (reason : String) : Loop M :=
  ((l.teardown.transition .closed).2.emit (.disconnect reason)).maybeConnect

/-- Asks a message that waited what to do on a new transport. Gives the messages to be written
again, oldest first, after those found before. -/
def retryOne (now : Nat) (r : Loop M × List M) (p : Pending M) : Loop M × List M :=
  let (l, resend) := r
  let (m, directive) := Message.retry p.message
  let l := (l.ask p.message .retry).put (.retried m directive)
  match directive with
  | .sendAgain => (l, resend ++ [m])
  | .recvAgain => (l.await now m, resend)
  | .abandon => (l.put (.failed m .abandoned), resend)

/-- Asks every message that waits what to do on a new transport. Those to be written again come
before all others of their class, in their order. -/
def retryPending (now : Nat) (l : Loop M) : Loop M :=
  let (l, resend) := l.receivers.foldl (retryOne now) ({ l with receivers := [] }, [])
  resend.foldr (fun m l => l.pushFront m) l

/-- Counts a completed message; a transport that has served enough is reopened. -/
def completed (l : Loop M) : Loop M :=
  let l := { l with processed := l.processed + 1, processedSinceOpen := l.processedSinceOpen + 1 }
  match l.config.maxSend with
  | some most =>
    if most ≤ l.processedSinceOpen && l.state == .connected then
      l.recycle "message limit reached"
    else l
  | none => l

/-- Offers data to messages that wait, oldest first, until one takes it or fails. Gives the
messages before it, which may have changed, the one that answered with its answer, and those
after it. -/
def offer (data : Bytes) : List (Pending M) → Loop M →
    Loop M × List (Pending M) ×
      Option (Pending M × Except QueueError RecvDirective × List (Pending M))
  | [], l => (l, [], none)
  | p :: rest, l =>
    let l := l.ask p.message (.recv data)
    match Message.recv p.message data with
    | (m, .ok .notMine) =>
      let (l, before, found) := offer data rest l
      (l, { p with message := m } :: before, found)
    | (m, answer) => (l, [], some ({ p with message := m }, answer, rest))

/-- Does what a waiting message answered to data that it took; it was taken off those that wait.
One that goes on waiting takes its place between those before it and those after it. -/
def follow (now : Nat) (l : Loop M) (m : M) (before after : List (Pending M)) :
    Except QueueError RecvDirective → Loop M
  | .ok .mine => (l.put (.done m)).completed
  | .ok .sendAgain =>
    let l := l.ask m .blocking
    if Message.blocking m then l.pushFront m else l.pushBack m
  | .ok _ => { l.ask m .timeout with receivers := before ++ ⟨m, deadline now m⟩ :: after }
  | .error e => ((l.ask m .describe).put (.failed m e)).recycle "receiver error"

/-- Routes data that came in. -/
def route (now : Nat) (l : Loop M) (data : Bytes) : Loop M :=
  let l := { l with received := l.received + 1 }
  match offer data l.receivers l with
  | (l, all, none) => { l with receivers := all }.emit (.unrouted data)
  | (l, before, some (p, answer, after)) =>
    { l with receivers := before ++ after }.follow now p.message before after answer

/-- Writes frames to the transport, up to the first that does not get through; gives the error of
that one. -/
def writeFrames (generation : Nat) : List Bytes → Loop M → Option QueueError × Loop M
  | [], l => (none, l)
  | frame :: frames, l =>
    match l.wire with
    | some e :: wire => (some e, { l with wire }.put (.writeFailed generation frame))
    | none :: wire => writeFrames generation frames ({ l with wire }.put (.wrote generation frame))
    | [] => writeFrames generation frames (l.put (.wrote generation frame))

/-- Writes frames to the transport that is open. -/
def write (l : Loop M) (frames : List Bytes) : Option QueueError × Loop M :=
  match l.conn with
  | some generation => writeFrames generation frames l
  | none => (some .closed, l)

/-- Asks messages whether they are blocking, up to the first that is. -/
def anyBlocking : List (Pending M) → Loop M → Bool × Loop M
  | [], l => (false, l)
  | p :: rest, l =>
    let l := l.ask p.message .blocking
    if Message.blocking p.message then (true, l) else anyBlocking rest l

/-- What becomes of a message of a class after it was written. -/
def afterSend (now : Nat) (l : Loop M) (c : Traffic) (m : M) : SendDirective → Loop M
  | .done => (l.put (.done m)).completed
  | .sendAgain => { l.ask m .describe with buckets := l.buckets.pushBack c m }
  | .recvAgain => l.await now m

/-- Writes a message of a class, and tells whether another one can follow: not after a frame that
did not get through. -/
def sendOne (now : Nat) (l : Loop M) (c : Traffic) (m : M) : Bool × Loop M :=
  let l := l.ask m .send
  match Message.send m with
  | (m, .error e) => (true, (l.ask m .describe).put (.failed m e))
  | (m, .ok (frames, directive)) =>
    match l.write frames with
    | (some e, l) => (false, { l with buckets := l.buckets.pushFront c m }.linkLost now e.text)
    | (none, l) => (true, { l with sent := l.sent + 1 }.afterSend now c m directive)

/-- Writes the first message of the highest class, as long as the link takes more: not while a
blocking message waits for its reply, nor while the most messages wait that may. Tells whether
another message can follow. -/
def round (now : Nat) (l : Loop M) : Bool × Loop M :=
  if l.state != .connected then (false, l)
  else
    match anyBlocking l.receivers l with
    | (true, l) => (false, l)
    | (false, l) =>
      if l.config.maxOpen.any (· ≤ l.receivers.length) then (false, l)
      else
        match l.buckets.pop with
        | none => (false, l)
        | some (c, m, buckets) => { l with buckets }.sendOne now c m

/-- Takes the messages that arrived meanwhile, so that classes count across all of them, and
connects if it has to. -/
def gather (backlog : List M) (l : Loop M) : Loop M := (backlog.foldl accept l).maybeConnect

/-- Ends the attempt that is running. -/
def abort (l : Loop M) : Loop M :=
  match l.connecting with
  | some _ => { l with connecting := none }.put .abort
  | none => l

/-- Closes the link for good. -/
def hangUp (l : Loop M) : Loop M :=
  let l := if l.state == .connected then l.teardown else l
  let l := if l.state != .closed then (l.transition .closed).2 else l
  { l with retryAt := none }

/-- Stops: fails all messages, those of the backlog too, and closes the link. -/
def shutdown (backlog : List M) (l : Loop M) : Loop M :=
  ((backlog.foldl accept l.abort).failAll .closed).hangUp

/-- Handles an item for the control of the link, other than a request to close the queue. -/
def onControl (now : Nat) (l : Loop M) : Control → Loop M
  | .incoming generation data =>
    if generation != l.generation || l.state != .connected then l else l.route now data
  | .lost generation reason =>
    if generation == l.generation && l.state == .connected then l.linkLost now reason else l
  | .connected generation =>
    if generation != l.generation || l.state != .connecting then l.put (.closed generation)
    else (l.opened generation).retryPending now
  | .connectFailed generation reason =>
    if generation == l.generation && l.state == .connecting then
      ({ l with connecting := none }.emit (.error reason)).scheduleRetry now reason
    else l
  | .reopen => if l.state == .connected then l.recycle "reopen requested" else l
  | .close => l

/-- Fails a message that has waited too long. -/
def failLate (l : Loop M) (p : Pending M) : Loop M :=
  ((l.ask p.message .describe).emit (.timeout (Message.describe p.message))).put
    (.failed p.message .timeout)

/-- Has a message waited too long? -/
def isLate (now : Nat) (p : Pending M) : Bool := p.deadline.any (· ≤ now)

/-- Fails the messages that have waited too long; the transport is then reopened once. -/
def expire (now : Nat) (l : Loop M) : Loop M :=
  let late := l.receivers.filter (isLate now)
  if late.isEmpty then l
  else
    let l := late.foldl failLate { l with receivers := l.receivers.filter fun p => !isLate now p }
    if l.state == .connected then l.recycle "reply timeout" else l

/-- The timer is due. -/
def onTimer (now : Nat) (l : Loop M) : Loop M :=
  let due := l.state == .waiting && l.retryAt.any (· ≤ now)
  let l := if due then { l with retryAt := none }.startConnect else l
  l.expire now

/-- An input of the loop. -/
inductive Input (M : Type) where
  | control (item : Control)
  | traffic (message : M)
  | timer
  /-- Nobody is left who could send a message. -/
  | abandoned
  deriving Repr, DecidableEq, Inhabited

/-- Does the loop stop at an input? -/
def Input.isFinal : Input M → Bool
  | .control .close => true
  | .abandoned => true
  | _ => false

/-- Handles an input that the loop does not stop at. -/
def handle (now : Nat) (l : Loop M) : Input M → Loop M
  | .control item => l.onControl now item
  | .traffic m => l.accept m
  | .timer => l.onTimer now
  | .abandoned => l

/-- What the loop does before its first input. -/
def begin (l : Loop M) : Loop M := l.maybeConnect.publish

end Loop

end Hearth.Link
