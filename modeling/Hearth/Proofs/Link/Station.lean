import Hearth.Link.Queue

/-!
# Stations

A station is a queue with everything that goes on around it: those who send messages and close or
reopen the link, the attempts to connect, and the transports, which report what comes in and what
is lost. A run of a station is a list of actions in any order, each by one party. The loop takes its
turns between the others: its handling of an input, its taking of the backlog and each message that
it writes are turns of their own, because the others can act whenever it waits for its transport.

Every message gets a number when the queue takes it or refuses it, the next one after those of all
messages before. A sender for whom there is no room stays in line, and its message is not given yet.

The turns of a loop that is not interrupted are those that `Queue.feed` takes at once
(`Station.run_feed`).
-/

namespace Hearth.Link

/-- Where the loop of a queue is. -/
inductive Stage where
  /-- It has not begun. -/
  | fresh
  /-- It waits for an input. -/
  | waiting
  /-- It handled an input. -/
  | handled
  /-- It writes messages. -/
  | writing
  | stopped
  deriving Repr, DecidableEq, Inhabited

variable {M : Type}

/-- An attempt to connect that has not told its queue how it turned out. Once it has turned out, the
verdict is the reason of the refusal, or none. -/
structure Attempt where
  generation : Nat
  verdict : Option (Option String)
  deriving Repr, DecidableEq, Inhabited

/-- What an effect does to the outside. -/
def Effect.output? : Effect M → Option (Output M)
  | .wake _ => none
  | .output o => some o

namespace Loop

/-- The items for the control of the link that an input brings. -/
def Input.items : Input M → List Control
  | .control item => [item]
  | _ => []

/-- The messages that an input brings. -/
def Input.messages : Input M → List M
  | .traffic m => [m]
  | _ => []

end Loop

/-! ### What a turn of a queue does to the outside -/

namespace Queue

/-- The outputs of a turn, oldest first. -/
def outputs (es : List (Effect M)) : List (Output M) := es.filterMap Effect.output?

theorem outputs_wake (ids : List JobId) : outputs (M := M) (ids.map .wake) = [] := by
  rw [outputs, List.filterMap_map, List.filterMap_eq_nil_iff]
  exact fun _ _ => rfl

theorem outputs_append (es es' : List (Effect M)) :
    outputs (es ++ es') = outputs es ++ outputs es' :=
  List.filterMap_append

/-- What is drained are the outputs of the loop, in their order. -/
theorem outputs_drain (now : Nat) (before : Loop M) (q : Queue M) :
    outputs (q.drain now before).1 = q.loop.log.reverse := by
  rw [outputs, drain, List.filterMap_map]
  exact List.filterMap_some

/-- All that can be done at once with a message that is sent is to fail it. -/
theorem outputs_send (q : Queue M) (job : JobId) (m : M) :
    ∀ o ∈ outputs (q.send job m).2.1, ∃ e, o = .failed m e := by
  dsimp only [send]
  split
  · exact fun o ho => ⟨.closed, List.mem_singleton.mp ho⟩
  · exact fun o ho => absurd ho List.not_mem_nil

theorem outputs_trySend (q : Queue M) (m : M) :
    ∀ o ∈ outputs (q.trySend m).2.1, ∃ e, o = .failed m e := by
  unfold trySend
  split
  · exact fun o ho => ⟨.closed, List.mem_singleton.mp ho⟩
  · split
    · exact fun o ho => absurd ho List.not_mem_nil
    · exact fun o ho => ⟨.full, List.mem_singleton.mp ho⟩

/-- An input is taken from the channels; of the loop nothing changes. -/
theorem of_nextInput {now : Nat} {q q' : Queue M} {input : Loop.Input M} {woken : List (Effect M)}
    (h : q.nextInput now = some (input, woken, q')) :
    q'.loop = q.loop ∧ outputs woken = [] ∧ q'.control.closed = q.control.closed ∧
      q.control.items = input.items ++ q'.control.items ∧
      q.traffic.items = input.messages ++ q'.traffic.items := by
  unfold nextInput at h
  split at h
  · next ht =>
    obtain ⟨rfl, rfl, rfl⟩ : _ ∧ _ ∧ _ := by simpa using h
    obtain ⟨hc, hi⟩ := Channel.of_take? ht
    exact ⟨rfl, outputs_wake _, hc, hi, rfl⟩
  · split at h
    · next ht =>
      obtain ⟨rfl, rfl, rfl⟩ : _ ∧ _ ∧ _ := by simpa using h
      obtain ⟨-, hi⟩ := Channel.of_take? ht
      exact ⟨rfl, outputs_wake _, rfl, rfl, hi⟩
    · split at h
      · obtain ⟨rfl, rfl, rfl⟩ : _ ∧ _ ∧ _ := by simpa using h
        exact ⟨rfl, rfl, rfl, rfl, rfl⟩
      · split at h
        · obtain ⟨rfl, rfl, rfl⟩ : _ ∧ _ ∧ _ := by simpa using h
          exact ⟨rfl, rfl, rfl, rfl, rfl⟩
        · simp at h

end Queue

/-! ### Stations -/

/-- The attempt after it turned out; what turned out before stays. -/
def Attempt.decide (a : Attempt) (refusal : Option String) : Attempt :=
  { a with verdict := a.verdict.or (some refusal) }

/-- What an attempt tells its queue. -/
def Control.outcome (generation : Nat) : Option String → Control
  | some reason => .connectFailed generation reason
  | none => .connected generation

/-- A queue and what goes on around it. -/
structure Station (M : Type) where
  queue : Queue (Numbered M)
  stage : Stage
  now : Nat
  attempts : List Attempt
  /-- The generations whose attempt has told the queue how it turned out, newest first. -/
  told : List Nat
  /-- The number of the next message. -/
  next : Nat
  /-- What the loop did to the outside, newest first. -/
  past : List (Output (Numbered M))
  deriving Inhabited

/-- Something that one of the parties around a queue, or its loop, does. -/
inductive Action (M : Type) where
  /-- Time passes. -/
  | pass (nanos : Nat)
  | send (job : JobId) (message : M)
  /-- Sends a message, if there is room at once. -/
  | trySend (message : M)
  | reopen (job : JobId)
  | close (job : JobId)
  /-- Nobody is left who could send. -/
  | release
  /-- The transport of a generation passes on what came in. -/
  | deliver (job : JobId) (generation : Nat) (data : Bytes)
  /-- The transport of a generation reports that it broke. -/
  | lost (job : JobId) (generation : Nat) (reason : String)
  /-- An attempt turns out. -/
  | decide (generation : Nat) (refusal : Option String)
  /-- An attempt that turned out tells the queue. -/
  | report (job : JobId) (generation : Nat)
  /-- The coming frames fail with these errors, or get through. -/
  | wire (errors : List (Option QueueError))
  /-- The loop goes on. -/
  | turn
  deriving Repr, Inhabited

namespace Station

/-- A station at which nothing happened. -/
def start (name : Name) (config : Config) (hook : Hook) : Station M where
  queue := .start name config hook [] .hang
  stage := .fresh
  now := 0
  attempts := []
  told := []
  next := 0
  past := []

/-- Takes note of what the loop did to the outside: an attempt begins, or those that run are given
up. -/
def note (s : Station M) (o : Output (Numbered M)) : Station M :=
  match o with
  | .attempt generation =>
    { s with attempts := s.attempts ++ [⟨generation, none⟩], past := o :: s.past }
  | .abort => { s with attempts := [], past := o :: s.past }
  | _ => { s with past := o :: s.past }

/-- Takes note of all effects of a turn, oldest first. -/
def absorb (s : Station M) (es : List (Effect (Numbered M))) : Station M :=
  es.foldl
    (fun s e =>
      match e with
      | .wake _ => s
      | .output o => s.note o)
    s

/-- The loop goes on with its queue to a stage. -/
def become (s : Station M) (queue : Queue (Numbered M)) (stage : Stage) : Station M :=
  { s with queue, stage }

section Notes

variable (s : Station M) (o : Output (Numbered M)) (es : List (Effect (Numbered M)))

@[simp] theorem note_queue : (s.note o).queue = s.queue := by
  cases o <;> rfl

@[simp] theorem note_past : (s.note o).past = o :: s.past := by
  cases o <;> rfl

theorem absorb_eq : s.absorb es = (es.filterMap Effect.output?).foldl note s := by
  induction es generalizing s with
  | nil => rfl
  | cons e es ih => cases e <;> exact ih _

/-- What no note changes is not changed by a turn's effects. -/
theorem absorb_frame {α : Type} (f : Station M → α) (hf : ∀ s o, f (s.note o) = f s) :
    f (s.absorb es) = f s := by
  rw [absorb_eq]
  induction es.filterMap Effect.output? generalizing s with
  | nil => rfl
  | cons o os ih => exact (ih _).trans (hf s o)

@[simp] theorem absorb_queue : (s.absorb es).queue = s.queue :=
  s.absorb_frame es Station.queue note_queue

@[simp] theorem absorb_stage : (s.absorb es).stage = s.stage :=
  s.absorb_frame es Station.stage fun _ o => by cases o <;> rfl

@[simp] theorem absorb_now : (s.absorb es).now = s.now :=
  s.absorb_frame es Station.now fun _ o => by cases o <;> rfl

@[simp] theorem absorb_told : (s.absorb es).told = s.told :=
  s.absorb_frame es Station.told fun _ o => by cases o <;> rfl

@[simp] theorem absorb_next : (s.absorb es).next = s.next :=
  s.absorb_frame es Station.next fun _ o => by cases o <;> rfl

/-- A turn's effects are noted in their order. -/
@[simp] theorem absorb_past :
    (s.absorb es).past = (es.filterMap Effect.output?).reverse ++ s.past := by
  rw [absorb_eq]
  induction es.filterMap Effect.output? generalizing s with
  | nil => rfl
  | cons o os ih =>
    rw [List.foldl_cons, ih, note_past, List.reverse_cons, List.append_assoc, List.singleton_append]

theorem absorb_append (es' : List (Effect (Numbered M))) :
    s.absorb (es ++ es') = (s.absorb es).absorb es' :=
  List.foldl_append

theorem absorb_become (queue : Queue (Numbered M)) (stage : Stage) :
    (s.absorb es).become queue stage = (s.become queue stage).absorb es := by
  rw [absorb_eq, absorb_eq]
  induction es.filterMap Effect.output? generalizing s with
  | nil => rfl
  | cons o os ih =>
    have ho : (s.note o).become queue stage = (s.become queue stage).note o := by
      cases o <;> rfl
    rw [List.foldl_cons, List.foldl_cons, ih, ho]

end Notes

/-- A message is sent; it is given unless its sender has to wait for room. -/
def send (s : Station M) (job : JobId) (m : M) : Station M :=
  match s.queue.send job ⟨s.next, m⟩ with
  | (.full, _, queue) => { s with queue }
  | (_, es, queue) => { s with queue, next := s.next + 1 }.absorb es

/-- A message is sent if there is room at once. -/
def trySend (s : Station M) (m : M) : Station M :=
  let (_, es, queue) := s.queue.trySend ⟨s.next, m⟩
  { s with queue, next := s.next + 1 }.absorb es

/-- An item is posted for the control of the link. -/
def post (s : Station M) (job : JobId) (item : Control) : Station M :=
  { s with queue := (s.queue.post job item).2 }

/-- The attempt of a generation ends when it has told the queue how it turned out, or finds the
queue closed. -/
def conclude (s : Station M) (generation : Nat) : Posting → Station M
  | .put =>
    { s with
      attempts := s.attempts.filter (·.generation != generation)
      told := generation :: s.told }
  | .full => s
  | .closed => { s with attempts := s.attempts.filter (·.generation != generation) }

/-- The attempt of a generation tells the queue how it turned out, if it has. -/
def report (s : Station M) (job : JobId) (generation : Nat) : Station M :=
  match s.attempts.find? (·.generation == generation) with
  | some ⟨_, some refusal⟩ =>
    (s.post job (.outcome generation refusal)).conclude generation
      (s.queue.post job (.outcome generation refusal)).1
  | _ => s

variable [Message M]

/-- The loop goes on to where it next can be interrupted. -/
def turn (s : Station M) : Station M :=
  match s.stage with
  | .fresh =>
    let (es, queue) := s.queue.begin s.now
    (s.become queue .waiting).absorb es
  | .waiting =>
    match s.queue.nextInput s.now with
    | none => s
    | some (input, woken, queue) =>
      let (es, queue) := queue.handle s.now input
      (s.become queue (if input.isFinal then .stopped else .handled)).absorb (woken ++ es)
  | .handled =>
    let (es, queue) := s.queue.gather s.now
    (s.become queue .writing).absorb es
  | .writing =>
    let (goesOn, es, queue) := s.queue.write s.now
    (s.become queue (if goesOn then .writing else .waiting)).absorb es
  | .stopped => s

/-- Somebody acts. A transport reports only with the handle that its attempt was given. -/
def act (s : Station M) : Action M → Station M
  | .pass nanos => { s with now := s.now + nanos }
  | .send job m => s.send job m
  | .trySend m => s.trySend m
  | .reopen job => s.post job .reopen
  | .close job => s.post job .close
  | .release => { s with queue := { s.queue with held := false } }
  | .deliver job generation data =>
    if generation ≤ s.queue.loop.generation then s.post job (.incoming generation data) else s
  | .lost job generation reason =>
    if generation ≤ s.queue.loop.generation then s.post job (.lost generation reason) else s
  | .decide generation refusal =>
    { s with attempts := s.attempts.map fun a =>
        if a.generation == generation then a.decide refusal else a }
  | .report job generation => s.report job generation
  | .wire errors =>
    { s with queue := { s.queue with loop := { s.queue.loop with wire := errors } } }
  | .turn => s.turn

/-- A run: the actions happen one after the other. -/
def run (s : Station M) (as : List (Action M)) : Station M := as.foldl act s

/-! ### Turns without interruption -/

theorem run_turn (s : Station M) (k : Nat) :
    s.run (List.replicate (k + 1) .turn) = s.turn.run (List.replicate k .turn) := rfl

end Station

namespace Station

variable {M : Type} [BoundedMessage M]

theorem turn_handled {s : Station M} (hs : s.stage = .handled) :
    s.turn = (s.become (s.queue.gather s.now).2 .writing).absorb (s.queue.gather s.now).1 := by
  unfold turn
  rw [hs]

theorem turn_writing {s : Station M} (hs : s.stage = .writing) :
    s.turn = (s.become (s.queue.write s.now).2.2
      (if (s.queue.write s.now).1 then .writing else .waiting)).absorb
        (s.queue.write s.now).2.1 := by
  unfold turn
  rw [hs]

/-- A loop that writes and is not interrupted does what `Queue.settle` does. -/
theorem run_settle {s : Station M} (hs : s.stage = .writing) :
    ∃ k, s.run (List.replicate k .turn) =
      (s.become (s.queue.settle s.now).2 .waiting).absorb (s.queue.settle s.now).1 := by
  induction hn : s.queue.loop.load using Nat.strongRecOn generalizing s with
  | ind n ih =>
    have hturn := turn_writing hs
    rw [Queue.settle]
    split
    · next es queue hw =>
      rw [hw] at hturn
      have hq : s.turn.queue = queue := by rw [hturn, absorb_queue]; rfl
      have ht : s.turn.now = s.now := by rw [hturn, absorb_now]; rfl
      have hst : s.turn.stage = .writing := by rw [hturn, absorb_stage]; rfl
      obtain ⟨k, hk⟩ := ih _ (by rw [← hn, hq]; exact Queue.write_load hw) hst rfl
      refine ⟨k + 1, ?_⟩
      rw [run_turn, hk, hq, ht, hturn, absorb_become, ← absorb_append]
      rfl
    · next es queue hw =>
      refine ⟨1, ?_⟩
      rw [run_turn, hturn, hw]
      rfl

/-- A loop that takes an input and is not interrupted does what `Queue.feed` does. -/
theorem run_feed {s : Station M} {input : Loop.Input (Numbered M)}
    {woken : List (Effect (Numbered M))} {queue : Queue (Numbered M)} (hs : s.stage = .waiting)
    (hi : s.queue.nextInput s.now = some (input, woken, queue)) (hr : queue.running = true) :
    ∃ k, s.run (List.replicate k .turn) =
      (s.become (queue.feed s.now input).2 (if input.isFinal then .stopped else .waiting)).absorb
        (woken ++ (queue.feed s.now input).1) := by
  have hturn : s.turn = (s.become (queue.handle s.now input).2
      (if input.isFinal then .stopped else .handled)).absorb
        (woken ++ (queue.handle s.now input).1) := by
    unfold turn
    rw [hs]
    dsimp only
    rw [hi]
  have hrun : (queue.handle s.now input).2.running = !input.isFinal := by
    unfold Queue.handle
    split
    · next hf => rw [hf]; rfl
    · next hf => simpa [Queue.drain, hf] using hr
  dsimp only [Queue.feed]
  cases hf : input.isFinal with
  | true =>
    refine ⟨1, ?_⟩
    rw [hf] at hturn hrun
    rw [run_turn, hturn, hrun]
    rfl
  | false =>
    rw [hf] at hturn hrun
    have hq : s.turn.queue = (queue.handle s.now input).2 := by rw [hturn, absorb_queue]; rfl
    have ht : s.turn.now = s.now := by rw [hturn, absorb_now]; rfl
    have hst : s.turn.stage = .handled := by rw [hturn, absorb_stage]; rfl
    have hgather := turn_handled hst
    rw [hq, ht] at hgather
    have hq' : s.turn.turn.queue = ((queue.handle s.now input).2.gather s.now).2 := by
      rw [hgather, absorb_queue]
      rfl
    have ht' : s.turn.turn.now = s.now := by rw [hgather, absorb_now]; exact ht
    have hst' : s.turn.turn.stage = .writing := by rw [hgather, absorb_stage]; rfl
    obtain ⟨k, hk⟩ := run_settle hst'
    refine ⟨k + 2, ?_⟩
    rw [run_turn, run_turn, hk, hq', ht', hgather, absorb_become, hturn, absorb_become,
      absorb_become, ← absorb_append, ← absorb_append, hrun, List.append_assoc, List.append_assoc]
    rfl

/-- A loop that is not interrupted waits for an input again, or stops. -/
theorem run_waits (s : Station M) :
    ∃ k, (s.run (List.replicate k .turn)).stage = .waiting ∨
      (s.run (List.replicate k .turn)).stage = .stopped := by
  have hwriting {s : Station M} (hs : s.stage = .writing) :
      ∃ k, (s.run (List.replicate k .turn)).stage = .waiting := by
    obtain ⟨k, hk⟩ := run_settle hs
    exact ⟨k, by rw [hk, absorb_stage]; rfl⟩
  cases hs : s.stage with
  | waiting => exact ⟨0, .inl hs⟩
  | stopped => exact ⟨0, .inr hs⟩
  | writing =>
    obtain ⟨k, hk⟩ := hwriting hs
    exact ⟨k, .inl hk⟩
  | handled =>
    have hturn : s.turn.stage = .writing := by rw [turn_handled hs, absorb_stage]; rfl
    obtain ⟨k, hk⟩ := hwriting hturn
    exact ⟨k + 1, .inl hk⟩
  | fresh =>
    have hturn : s.turn.stage = .waiting := by
      unfold turn
      rw [hs]
      exact absorb_stage ..
    exact ⟨1, .inl hturn⟩

end Station

end Hearth.Link
