import Hearth.Strand.Step

/-!
# Worlds

A world is a house with all the jobs that go on in it: strands, the loops of queues and their
attempts to connect. One job at a time has its turn, and a turn goes on until the job pauses or
ends. Jobs that can go on wait in line and get their turns in the order in which they were woken.

Time passes only while no job can go on, and then it goes straight on to the next timer; a timer is
due at a full millisecond. The main strand is the one that the outside waits for. It gets its turn
when no other job is in line, but comes first after time has passed.
-/

namespace Hearth

open Link (JobId)

/-- How far an attempt to connect is. -/
inductive AttemptStage where
  | fresh
  /-- Nothing happens before the time allowed is over. -/
  | hanging (limit : Nat)
  /-- The attempt turns out at some time, unless the time allowed is over before. -/
  | delayed (due limit : Nat) (refusal : Option String)
  /-- It turned out, and the queue is to be told. -/
  | posting (item : Link.Control)
  deriving Repr, DecidableEq, Inhabited

/-- A job. -/
inductive Job where
  | strand (state : Strand.State)
  | loop (queue : QueueId)
  | attempt (queue : QueueId) (generation : Nat) (stage : AttemptStage)
  deriving Inhabited

/-- A job to be woken at a time. -/
structure Timer where
  due : Nat
  job : JobId
  deriving Repr, DecidableEq, Inhabited

/-- A house and its jobs. -/
structure World where
  house : House
  /-- The session of the user. -/
  console : Session
  jobs : List (JobId × Job)
  /-- The jobs that can go on, apart from the main strand. -/
  ready : List JobId
  /-- The timers, in the order in which they were set. -/
  timers : List Timer
  /-- The number of the next job. -/
  next : Nat
  /-- The job that has its turn. -/
  current : Option JobId
  /-- Can the main strand go on? -/
  mainReady : Bool
  /-- Did time pass since the last turn? -/
  fresh : Bool
  /-- How the call of the main strand ended. -/
  outcome : Option Outcome
  deriving Inhabited

namespace World

/-- The main strand. -/
def mainJob : JobId := ⟨0⟩

/-- A world in which nothing goes on; the session of the user has a scope of its own. -/
def ofHouse (h : House) (mode : Mode) : World :=
  let (scope, h) := h.derive h.root none []
  { house := h
    console := .start mode scope
    jobs := []
    ready := []
    timers := []
    next := 1
    current := none
    mainReady := false
    fresh := false
    outcome := none }

/-! ## Jobs -/

/-- The job with a number. -/
def job? (w : World) (id : JobId) : Option Job := w.jobs.lookup id

/-- Replaces a job, or adds it. -/
def putJob (w : World) (id : JobId) (j : Job) : World :=
  if (w.job? id).isSome then
    { w with jobs := w.jobs.map fun x => if x.1 == id then (id, j) else x }
  else { w with jobs := w.jobs ++ [(id, j)] }

/-- Takes a job away, with its timers. -/
def dropJob (w : World) (id : JobId) : World :=
  { w with
    jobs := w.jobs.filter (·.1 != id)
    ready := w.ready.filter (· != id)
    timers := w.timers.filter (·.job != id) }

/-- Lets a job go on when it is its turn. -/
def wake (w : World) (id : JobId) : World :=
  if id == mainJob then { w with mainReady := true }
  else if (w.job? id).isNone || w.ready.contains id then w
  else { w with ready := w.ready ++ [id] }

/-- Lets all jobs of a kind go on. -/
def wakeIf (w : World) (p : Job → Bool) : World :=
  (w.jobs.filter fun x => p x.2).foldl (fun w x => w.wake x.1) w

/-- Adds a job that can go on. -/
def spawn (w : World) (j : Job) : World :=
  { w with next := w.next + 1, jobs := w.jobs ++ [(⟨w.next⟩, j)], ready := w.ready ++ [⟨w.next⟩] }

/-- Nanoseconds in a millisecond. -/
def nanosPerTick : Nat := 1000000

/-- The first full millisecond that is not before a time. -/
def tickOf (nanos : Nat) : Nat := (nanos + nanosPerTick - 1) / nanosPerTick * nanosPerTick

/-- Sets a timer. -/
def setTimer (w : World) (id : JobId) (due : Nat) : World :=
  { w with timers := w.timers ++ [⟨tickOf due, id⟩] }

/-- Takes the timers of a job back. -/
def clearTimers (w : World) (id : JobId) : World :=
  { w with timers := w.timers.filter (·.job != id) }

/-- Has a job a timer? -/
def hasTimer (w : World) (id : JobId) : Bool := w.timers.any (·.job == id)

/-- The strand that runs a script from its first line on. -/
def scriptJob (h : House) (text : String) (frames : List Frame) : Strand.State × House :=
  let (scope, h) := h.derive h.root none []
  let inputs := (Text.lines text).map .line ++ [.finish]
  (.start frames (.session (.start .script scope) inputs .script), h)

/-- Starts something. -/
def start (w : World) : Errand → World
  | .background body scope line =>
    w.spawn (.strand (.start [.report (some line)] (.body body scope)))
  | .announce words scope => w.spawn (.strand (.start [.report none] (.announce words scope)))
  | .script text =>
    let (state, house) := scriptJob w.house text [.finished]
    { w with house }.spawn (.strand state)
  | .loop queue => w.spawn (.loop queue)
  | .attempt queue generation => w.spawn (.attempt queue generation .fresh)

/-- Is a job a strand that pauses for a certain reason? -/
def pausesFor (p : Pause → Bool) : Job → Bool
  | .strand ⟨_, .pause x⟩ => p x
  | _ => false

/-- Does what a house asks for. -/
def obey (w : World) : Signal → World
  | .wake id => w.wake id
  | .waitGone token => w.wakeIf (pausesFor fun | .wait _ t _ => t == token | _ => false)
  | .answered ticket => w.wakeIf (pausesFor fun | .answer t => t == ticket | _ => false)
  | .start errand => w.start errand
  | .wakeLoop queue => w.wakeIf fun | .loop q => q == queue | _ => false
  | .changed queue =>
    w.wakeIf (pausesFor fun | .stopped q => q == queue | .state q _ => q == queue | _ => false)
  | .abort queue =>
    let given := w.jobs.filter fun x => x.2 matches .attempt ..
    let given := given.filter fun x =>
      match x.2 with
      | .attempt q _ _ => q == queue
      | _ => false
    given.foldl (fun w x => w.dropJob x.1) w

/-- Does everything that the house asks for, oldest first. -/
def obeyAll (w : World) : World :=
  w.house.signals.reverse.foldl obey { w with house := { w.house with signals := [] } }

/-- Ends the turn of a job. -/
def yield (w : World) : World := { w with current := none }.obeyAll

/-! ## Turns -/

/-- Goes on with a strand. -/
def turnStrand (w : World) (id : JobId) (t : Strand.State) : World :=
  match t.doing, t.frames with
  | .give o, [] =>
    let w := w.dropJob id
    (if id == mainJob then { w with outcome := some o } else w).yield
  | .pause p, frames =>
    match Strand.poll id w.house p with
    | (some o, house) => ({ w with house }.clearTimers id).putJob id (.strand ⟨frames, .give o⟩)
    | (none, house) =>
      let w := { w with house }.putJob id (.strand t)
      let w :=
        match Strand.due? p with
        | some due => if w.hasTimer id then w else w.setTimer id due
        | none => w
      w.yield
  | _, _ =>
    let (t, house, kept) := Strand.step id w.house t
    { w with house, console := kept.getD w.console }.putJob id (.strand t)

/-- The turn of a queue's loop; afterwards its timer is set anew. -/
def turnLoop (w : World) (id : JobId) (queue : QueueId) : World :=
  let w := { w with house := w.house.turn queue }.clearTimers id
  match w.house.queue? queue with
  | none => (w.dropJob id).yield
  | some q =>
    if !q.running then (w.dropJob id).yield
    else
      match q.wakeAt with
      | some due => (w.setTimer id due).yield
      | none => w.yield

/-- What an attempt that was refused, or not, tells its queue. -/
def verdict (generation : Nat) : Option String → Link.Control
  | some reason => .connectFailed generation reason
  | none => .connected generation

/-- Tells a queue how an attempt turned out. A transport that nobody wants any more is closed. -/
def report (w : World) (id : JobId) (queue : QueueId) (generation : Nat) (item : Link.Control) :
    World :=
  match w.house.post queue id item with
  | (.put, house) => ({ w with house }.dropJob id).yield
  | (.full, house) => ({ w with house }.putJob id (.attempt queue generation (.posting item))).yield
  | (.closed, house) =>
    let house :=
      match item with
      | .connected _ => house.note (.link queue house.now (.closed generation))
      | _ => house
    ({ w with house }.dropJob id).yield

/-- An attempt turned out. -/
def decide (w : World) (id : JobId) (queue : QueueId) (generation : Nat)
    (refusal : Option String) : World :=
  let opened (q : Link.Queue Link.Parcel) : Link.Queue Link.Parcel :=
    if refusal.isNone then { q with opened := q.opened ++ [generation] } else q
  { w with house := w.house.updateQueue queue opened }.report id queue generation
    (verdict generation refusal)

/-- The reason for an attempt that took too long. -/
def timedOut : Option String := some "connect timed out"

/-- Goes on with an attempt to connect. What turns out at the very end of the time allowed still
counts. -/
def turnAttempt (w : World) (id : JobId) (queue : QueueId) (generation : Nat)
    (stage : AttemptStage) : World :=
  let now := w.house.now
  let stay (w : World) (stage : AttemptStage) : World :=
    (w.putJob id (.attempt queue generation stage)).yield
  match stage with
  | .posting item => w.report id queue generation item
  | .hanging limit =>
    if limit ≤ now then (w.clearTimers id).report id queue generation (verdict generation timedOut)
    else stay w stage
  | .delayed due limit refusal =>
    if due ≤ now then (w.clearTimers id).decide id queue generation refusal
    else if limit ≤ now then
      (w.clearTimers id).report id queue generation (verdict generation timedOut)
    else stay w stage
  | .fresh =>
    match w.house.queue? queue with
    | none => (w.dropJob id).yield
    | some q =>
      let (plan, q) := q.takePlan
      let house := (w.house.updateQueue queue fun _ => q).note
        (.link queue now (.attempt generation))
      let w := { w with house }
      let limit := now + q.loop.config.limit.nanos
      match plan with
      | .succeed => w.decide id queue generation none
      | .refuse reason => w.decide id queue generation (some reason)
      | .hang =>
        if limit ≤ now then w.report id queue generation (verdict generation timedOut)
        else stay (w.setTimer id limit) (.hanging limit)
      | .delay millis refusal =>
        let due := now + millis * nanosPerTick
        if due ≤ now then w.decide id queue generation refusal
        else if limit ≤ now then w.report id queue generation (verdict generation timedOut)
        else stay ((w.setTimer id due).setTimer id limit) (.delayed due limit refusal)

/-- Goes on with a job. -/
def turn (w : World) (id : JobId) : World :=
  match w.job? id with
  | some (.strand t) => w.turnStrand id t
  | some (.loop q) => w.turnLoop id q
  | some (.attempt q generation stage) => w.turnAttempt id q generation stage
  | none => { w with current := none }

/-! ## Time -/

/-- The time of the next timer. -/
def nextTimer? (w : World) : Option Nat :=
  w.timers.foldl (fun acc t => some (match acc with | some d => min d t.due | none => t.due)) none

/-- Lets time pass up to a timer, and wakes the jobs whose timers are due, in the order in which
they were set. -/
def passTo (w : World) (due : Nat) : World :=
  let (fired, timers) := w.timers.partition (·.due ≤ due)
  let w := { w with house := { w.house with now := max w.house.now due }, timers, fresh := true }
  fired.foldl (fun w t => w.wake t.job) w

/-- One step of a world: the job that has its turn goes on, or another one gets its turn, or time
passes. There is none if no job can go on and the outside waits for nothing. -/
def step? (w : World) : Option World :=
  match w.current with
  | some id => some (w.turn id)
  | none =>
    if w.mainReady && (w.ready.isEmpty || w.fresh) then
      some { w with current := some mainJob, mainReady := false, fresh := false }
    else
      match w.ready with
      | id :: ready => some { w with current := some id, ready, fresh := false }
      | [] =>
        if w.outcome.isSome then none
        else w.nextTimer?.map w.passTo

/-- Takes steps until there is none; `fuel` bounds their number. -/
def run : Nat → World → World
  | 0, w => w
  | fuel + 1, w =>
    match w.step? with
    | some w => run fuel w
    | none => w

/-- A bound on the steps that are taken for one request of the outside. -/
def patience : Nat := 10000000

/-- Runs until nothing can go on without time passing. -/
def settle (w : World) : World := run patience { w with outcome := some (.ok .done) }.obeyAll

/-- Lets the main strand make a call; it has its turn now. -/
def call (w : World) (frames : List Frame) (c : Call) : World :=
  let w := w.putJob mainJob (.strand (.start frames c))
  { w with current := some mainJob, outcome := none }.obeyAll

/-- Lets the main strand make a call, waits for its end, and runs on until nothing can go on without
time passing. There is no outcome if the call can never end. -/
def perform (w : World) (frames : List Frame) (c : Call) : Option Outcome × World :=
  let w := run patience (w.call frames c)
  (w.outcome, w)

/-- Does something with the house at once, and runs on until nothing can go on without time
passing. -/
def act {α : Type} (w : World) (f : House → α × House) : α × World :=
  let (x, house) := f w.house
  (x, { w with house }.settle)

/-- Runs an action on the house. -/
def doAct {α : Type} (w : World) (a : Act α) : Except ScriptError α × World := w.act a.runOn

/-- Takes the journal, oldest note first. -/
def takeJournal (w : World) : List Note × World :=
  (w.house.journal.reverse, { w with house := { w.house with journal := [] } })

/-- Lets the session of the user take input. -/
def feedConsole (w : World) (inputs : List Input) : Option Outcome × World :=
  w.perform [] (.session w.console inputs .kept)

/-- Runs the text of a script to its end. -/
def runText (w : World) (text : String) : Option Outcome × World :=
  let (state, house) := scriptJob w.house text []
  match state.doing with
  | .call c => { w with house }.perform [] c
  | _ => (none, w)

end World

end Hearth
