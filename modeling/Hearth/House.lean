import Hearth.Link.Queue
import Hearth.Log
import Hearth.Module
import Hearth.Registry
import Hearth.Store

/-!
# Houses

A house is everything that scripts work on: scopes, workers, vocabularies, modules, states, waits
and links. Work on a house that neither dispatches events nor waits is an action: it ends with a
value or an error, and what it did before an error stays done.

What a house shows to the outside goes to its journal. What it asks others to do, to go on with
something or to start something, goes to its signals. Both are kept newest first.
-/

namespace Hearth

/-- The number of a queue. -/
structure QueueId where
  index : Nat
  deriving Repr, DecidableEq, Inhabited

/-- An entry of the journal. -/
inductive Note where
  /-- A line for the user. -/
  | out (line : String)
  | log (level : Level) (text : String)
  /-- A line for the diagnostic output of the process. -/
  | diagnostic (level : String) (text : String)
  /-- An event, with the variables of its scope. -/
  | event (name : Name) (locals : List (String × Json))
  /-- A probe ran; one that collects shows its labels and its block. -/
  | ran (verb : Name) (args : Name) (line : Nat) (collected : Option (List String × Body))
  | checked (condition : Name) (args : Name)
  | loading (module : Name)
  | unloading (module : Name)
  | worked (worker : Name) (event : Name)
  | caught (worker : Name) (text : String)
  /-- A script in the background ended. -/
  | finished (result : Except ScriptError Flow)
  | link (queue : QueueId) (time : Nat) (what : Link.Output Link.Parcel)
  deriving Inhabited

/-- Something to be started. -/
inductive Errand where
  /-- Runs statements; an error is reported, with the line of the statement that started them. -/
  | background (body : Body) (scope : ScopeId) (line : Nat)
  /-- Dispatches an event of a link; an error is reported. -/
  | announce (words : Name) (scope : ScopeId)
  /-- Runs a script; its end is noted. -/
  | script (text : String)
  | loop (queue : QueueId)
  | attempt (queue : QueueId) (generation : Nat)
  deriving Inhabited

/-- Something that a house asks others to do. -/
inductive Signal where
  | wake (id : Link.JobId)
  /-- The entry of a wait is gone. -/
  | waitGone (token : Nat)
  /-- A line got its answer. -/
  | answered (ticket : Nat)
  | start (errand : Errand)
  /-- The loop of a queue has something to do. -/
  | wakeLoop (queue : QueueId)
  /-- The published status of a queue changed, or its loop stopped. -/
  | changed (queue : QueueId)
  /-- The attempt of a queue to connect is given up. -/
  | abort (queue : QueueId)
  deriving Inhabited

/-- An entry of the list of waits; its token tells it from every other one. -/
structure Waiting where
  token : Nat
  started : Timestamp
  ends : Timestamp
  deriving Repr, DecidableEq, Inhabited

/-- Something that a loaded module registered. -/
inductive Installed where
  | verb (name : Name)
  | condition (name : Name)
  | collection (name : Name)
  deriving Repr, DecidableEq, Inhabited

/-- The state of a house. -/
structure House where
  scopes : Scopes
  /-- The outermost scope. -/
  root : ScopeId
  nextEvent : Nat
  nextSequence : Nat
  /-- Nanoseconds since the house was started. -/
  now : Nat
  /-- The time of day; every look at the clock moves it on. -/
  clock : Timestamp
  registry : Registry
  log : Log
  /-- The verbs that can be used anywhere. -/
  common : WordTable Verb
  /-- The verbs that can only be used outside all blocks. -/
  top : WordTable Verb
  conditions : WordTable Condition
  collections : NameMap Collection
  catalog : NameMap Module
  /-- The loaded modules, in the order in which they were loaded. -/
  loaded : List Module
  /-- What each module registered, newest first. -/
  installed : NameMap (List Installed)
  /-- The event handlers that can be listed, oldest first. -/
  handlers : List (WorkerId × Handler)
  nextHandler : Nat
  /-- The states whose change is being handled. -/
  changing : List Name
  store : Store
  files : Files
  waits : NameMap Waiting
  /-- The number of the next wait statement. -/
  nextWait : Nat
  nextToken : Nat
  links : NameMap QueueId
  queues : List (Link.Queue Link.Parcel)
  /-- The settings of links that scripts open. -/
  linkConfig : Link.Config
  nextTicket : Nat
  /-- The answers that lines got and nobody has taken. -/
  answers : List (Nat × Except QueueError (Option String))
  journal : List Note
  signals : List Signal
  deriving Inhabited

/-- Work on a house; what is done before an error stays done. -/
abbrev Act := ExceptT ScriptError (StateM House)

namespace House

/-- A house in which nothing is registered. -/
def empty (bands : Bands) (clock : Timestamp) : House where
  scopes := (Scopes.empty.add [] []).2
  root := (Scopes.empty.add [] []).1
  nextEvent := 1
  nextSequence := 1
  now := 0
  clock
  registry := .empty bands
  log := .empty
  common := .empty "main"
  top := .empty "global"
  conditions := .empty "conditions"
  collections := [(Collection.modules.name, .modules)]
  catalog := []
  loaded := []
  installed := []
  handlers := []
  nextHandler := 1
  changing := []
  store := .inMemory
  files := .empty
  waits := []
  nextWait := 1
  nextToken := 1
  links := []
  queues := []
  linkConfig := .standard
  nextTicket := 1
  answers := []
  journal := []
  signals := []

/-- The priorities of a house. -/
def bands (h : House) : Bands := h.registry.bands

/-- Writes to the journal. -/
def note (h : House) (n : Note) : House := { h with journal := n :: h.journal }

/-- Asks for something to be done. -/
def signal (h : House) (s : Signal) : House := { h with signals := s :: h.signals }

/-- Writes lines to the sinks of the log, one sink after the other. -/
def logAll (h : House) (level : Level) (texts : List String) : House :=
  let (log, out) := h.log.writeAll level texts
  out.foldl
    (fun h l =>
      match l with
      | .journal level text => h.note (.log level text)
      | .forward level text => h.note (.diagnostic level text))
    { h with log }

/-- Writes lines to the sinks of the log, one line after the other. -/
def logLines (h : House) (level : Level) (texts : List String) : House :=
  texts.foldl (fun h t => h.logAll level [t]) h

/-- Looks at the clock. -/
def readClock (h : House) : Timestamp × House :=
  (h.clock, { h with clock := ⟨h.clock.nanos + 1000⟩ })

/-- A new scope below `scope`, that also sees `extra`, with variables of its own. -/
def derive (h : House) (scope : ScopeId) (extra : Option ScopeId) (seed : List (String × Json)) :
    ScopeId × House :=
  let (id, scopes) := h.scopes.derive scope extra seed
  (id, { h with scopes })

/-- Adds a sink to the log; gives the number of sinks in use. -/
def addSink (h : House) (kind : SinkKind) (level : Level) : Nat × House :=
  let log := h.log.add kind level
  (log.count, { h with log })

/-- Takes a sink out of use; tells whether it was in use, and how many still are. -/
def removeSink (h : House) (i : Nat) : (Bool × Nat) × House :=
  let (removed, log) := h.log.remove i
  ((removed, log.count), { h with log })

/-- Empties the sinks of the log. -/
def clearLog (h : House) : House := { h with log := h.log.clear }

/-- The sequence of some workers for an event, with a number of its own. -/
def sequenceOf (h : House) (e : Event) (conditional : Bool) (workers : List Worker) :
    Sequence × House :=
  let (sequence, next) := Sequence.ofWorkers h.nextSequence e conditional workers
  (sequence, { h with nextSequence := next })

/-- The sequence of the workers that are for an event. -/
def sequenceFor (h : House) (e : Event) : Sequence × House :=
  h.sequenceOf e true (h.registry.matching e.name)

/-- Takes all workers of a name away, and counts them. -/
def unregisterNamed (h : House) (name : Name) : Nat × House :=
  let (n, registry) := h.registry.unregisterNamed name
  (n, { h with registry })

/-- The chain of vocabularies outside all blocks. -/
def topWords (h : House) : Vocabulary Verb := [h.top, h.common]

/-- The chain of vocabularies inside the block of a verb. -/
def wordsInside (h : House) (v : Verb) : Vocabulary Verb :=
  match v.inner with
  | none => [h.common]
  | some (t, true) => [t, h.common]
  | some (t, false) => [t]

/-- Is a module loaded? -/
def isLoaded (h : House) (name : Name) : Bool := h.loaded.any (·.name == name)

/-- The queue with a number. -/
def queue? (h : House) (q : QueueId) : Option (Link.Queue Link.Parcel) := h.queues[q.index]?

/-- Changes a queue. -/
def updateQueue (h : House) (q : QueueId)
    (f : Link.Queue Link.Parcel → Link.Queue Link.Parcel) : House :=
  { h with queues := h.queues.modify q.index f }

/-- The link of a name. -/
def link? (h : House) (name : Name) : Option (QueueId × Link.Queue Link.Parcel) := do
  let q ← NameMap.get? h.links name
  some (q, ← h.queue? q)

/-! ## Failures -/

/-- What a worker does with a failure; an error of its own is dropped. -/
def processFailure (h : House) (failure : Failure) : Worker → House
  | .failureLog _ => h.logAll .error failure.report
  | .probe p => h.note (.caught p.name failure.message)
  | _ => h

/-- Hands a failure to every worker that catches it, unless its chain was handed over before. -/
def dispatchFailure (h : House) (failure : Failure) : House × Failure :=
  if failure.isHandled then (h, failure)
  else
    let workers := h.registry.catching failure
    (workers.foldl (fun h w => h.processFailure failure w) h, failure.marked)

/-- The failure that an error is reported as. -/
def failureOf : ScriptError → Failure
  | .work (.nested failure) => failure
  | e => .ofError e.toWork

/-- Hands an error to the workers that catch failures. -/
def reportError (h : House) (e : ScriptError) : House := (h.dispatchFailure (failureOf e)).1

end House

namespace Act

/-- Runs an action on a house. -/
def runOn {α : Type} (a : Act α) (h : House) : Except ScriptError α × House := (ExceptT.run a).run h

/-- Changes the house. -/
def update (f : House → House) : Act Unit := modify f

/-- Changes the house and gives a value. -/
def perform {α : Type} (f : House → α × House) : Act α := modifyGet f

/-- Ends with an error of an event. -/
def ofEvent {α : Type} : Except EventError α → Act α
  | .ok x => pure x
  | .error e => throw (.event e)

/-- Makes an event. -/
def makeEvent (name : Name) (scope : ScopeId) : Act Event := do
  let time ← perform House.readClock
  let e ← ofEvent (Event.make (← get).nextEvent name scope time)
  update fun h => { h with nextEvent := h.nextEvent + 1 }
  pure e

/-- Makes an event in a scope of its own, with the given parents and variables. -/
def makeEventBelow (parents : List ScopeId) (locals : List (String × Json)) (name : Name) :
    Act Event := do
  let scope ← perform fun h =>
    let (id, scopes) := h.scopes.add parents (locals.map fun (k, v) => (k, .value v))
    (id, { h with scopes })
  makeEvent name scope

/-- The words after a verb's name, with the variables of a scope filled in. -/
def params (p : Phrase) (scope : ScopeId) : Act Name := do
  if p.args.isEmpty then pure []
  else
    let time ← perform House.readClock
    let h ← get
    let e ← ofEvent (p.event.rename h.scopes h.nextEvent p.verb.name.length scope time)
    update fun h => { h with nextEvent := h.nextEvent + 1 }
    pure e.name

/-- Writes a line for the user. -/
def say (line : String) : Act Unit := update fun h => h.note (.out line)

/-- A new scope. -/
def derive (scope : ScopeId) (extra : Option ScopeId) (seed : List (String × Json)) : Act ScopeId :=
  perform fun h => h.derive scope extra seed

/-- A result as an action. -/
def ofExcept {α : Type} : Except ScriptError α → Act α
  | .ok x => pure x
  | .error e => throw e

/-- Ends with the error of a worker. -/
def ofWork {α : Type} : Except WorkError α → Act α
  | .ok x => pure x
  | .error e => throw (.work e)

/-- Registers a worker. -/
def register (w : Worker) : Act WorkerId := do
  let (id, registry) ← ofWork ((← get).registry.register w)
  update fun h => { h with registry }
  pure id

/-- Takes a worker away. -/
def unregister (id : WorkerId) : Act Worker := do
  let (w, registry) ← ofWork ((← get).registry.unregister id)
  update fun h => { h with registry }
  pure w

end Act

end Hearth
