import Hearth.Proofs.Link.Turns

/-!
# The course of a link

Most of what a loop does is business with its messages, which leaves the link where it is
(`Loop.Trades`). The link itself moves in few ways, and at most once in a turn: an attempt begins or
turns out, the link breaks, or it is recycled. `Loop.Course` lists these steps with the business
before and after them, so that whatever a step does to the link has to be looked at once for each of
them.

## Main definitions

* `Loop.Trades` : business with messages alone.
* `Loop.Course` : at most one step of the link, amid such business.

## Main results

* `Loop.linkLost_eq`, `Loop.recycle_eq`, `Loop.hangUp_eq`, `Loop.scheduleRetry_outcome` : what the
  steps do.
* `Loop.Turn.course` : every turn, but the one in which the loop stops, is of this kind.
-/

namespace Hearth.Link

variable {M : Type}

namespace Backoff

/-- A failure is counted unless the attempts have ended. -/
theorem fail_cases (b : Backoff) :
    b.isExhausted = true ∧ b.fail = (.exhausted, b) ∨
      b.isExhausted = false ∧ ∃ delay, delay ≠ .exhausted ∧ b.fail = (delay, { b with
        failures := if b.failures == 0xffffffff then b.failures else b.failures + 1 }) := by
  unfold fail
  cases b.isExhausted with
  | true => exact .inl ⟨rfl, rfl⟩
  | false =>
    refine .inr ⟨rfl, _, ?_, rfl⟩
    split
    · nofun
    · split <;> nofun

end Backoff

/-- The error with which some message answers when it is to be written or is offered data. -/
def Answered (M : Type) [Message M] (e : QueueError) : Prop :=
  ∃ m : M, (Message.send m).2 = .error e ∨ ∃ data, (Message.recv m data).2 = .error e

/-- Can an output come from business with messages in a state of the link? The link does not move,
data that nobody takes came in on an open link, and that the link could not be opened is no
message's error unless it says so itself. -/
def Output.IsBusiness [Message M] (state : State) : Output M → Prop
  | .attempt _ => False
  | .closed _ => False
  | .notice .connect => False
  | .notice (.disconnect _) => False
  | .notice (.error _) => False
  | .notice (.unrouted _) => state = .connected
  | .failed _ (.connectFailed n reason) => Answered M (.connectFailed n reason)
  | _ => True

theorem Output.isBusiness_of_answered [Message M] {e : QueueError} (h : Answered M e) (m : M)
    (state : State) : (Output.failed m e).IsBusiness state := by
  cases e
  case connectFailed => exact h
  all_goals trivial

namespace Loop

/-! ### The steps of a link -/

/-- All messages are failed with the error, those that wait first. -/
theorem failAll_eq (l : Loop M) (e : QueueError) : l.failAll e = { l with
    receivers := [], buckets := .empty
    log := ((l.receivers.map (·.message) ++ l.buckets.all).map (.failed · e)).reverse ++ l.log } := by
  have hmany (ms : List M) (l : Loop M) : ms.foldl (fun l m => l.put (.failed m e)) l =
      { l with log := (ms.map (.failed · e)).reverse ++ l.log } := by
    induction ms generalizing l with
    | nil => rfl
    | cons m ms ih =>
      rw [List.foldl_cons, ih, List.map_cons, List.reverse_cons, List.append_assoc]
      rfl
  exact hmany ..

/-- After a failure that could be counted the next attempt is put off. After one too many all
messages are failed, and the failures are forgotten. -/
theorem scheduleRetry_outcome (now : Nat) (l : Loop M) (reason : String)
    (hw : l.state.canGo .waiting = true) (hc : l.state.canGo .closed = true) :
    l.backoff.isExhausted = false ∧ (∃ due, l.scheduleRetry now reason = { l with
      lastError := some reason, backoff := l.backoff.fail.2, state := .waiting
      retryAt := some due }) ∨
    l.backoff.isExhausted = true ∧ l.scheduleRetry now reason = { l with
      lastError := some reason, receivers := [], buckets := .empty, backoff := l.backoff.reset
      idle := true, state := .closed
      log := ((l.receivers.map (·.message) ++ l.buckets.all).map
        (.failed · (.connectFailed (l.backoff.failures.toNat + 1) reason))).reverse ++ l.log } := by
  have hput (b : Backoff) (delay : Span) :
      Loop.putOff now { l with lastError := some reason, backoff := b } delay = { l with
        lastError := some reason, backoff := b, state := .waiting
        retryAt := some (now + delay.nanos) } := by
    rw [putOff, transition_eq (l := { l with lastError := some reason, backoff := b }) hw]
  rcases l.backoff.fail_cases with ⟨hex, hf⟩ | ⟨hex, delay, hd, hf⟩
  · refine .inr ⟨hex, ?_⟩
    simp only [scheduleRetry, hf, giveUp, failAll_eq]
    rw [transition_eq (by exact hc)]
  · refine .inl ⟨hex, ?_⟩
    cases delay with
    | exhausted => exact absurd rfl hd
    | after delay => exact ⟨_, by simp only [scheduleRetry, hf, hput]; rfl⟩
    | around delay => exact ⟨_, by simp only [scheduleRetry, hf, hput]; rfl⟩
    | tooLong => exact ⟨_, by simp only [scheduleRetry, hf, hput]; rfl⟩

/-- Closing the link closes its transport, if there is one. -/
theorem teardown_eq {l : Loop M} (hs : l.state = .connected) : l.teardown = { l with
    state := .closing, conn := none, log := l.conn.toList.map .closed ++ l.log } := by
  unfold teardown
  rw [transition_eq (by rw [hs]; rfl)]
  cases hc : l.conn <;> simp [put]

/-- The loop after its transport was closed, with a reason that was told. -/
def disconnected (l : Loop M) (state : State) (reason : String) : Loop M :=
  { l with
    state, conn := none
    log := .notice (.disconnect reason) :: (l.conn.toList.map .closed ++ l.log) }

theorem linkLost_eq {l : Loop M} (hs : l.state = .connected) (now : Nat) (reason : String) :
    l.linkLost now reason = (l.disconnected .closing reason).scheduleRetry now reason := by
  rw [linkLost, teardown_eq hs]
  rfl

theorem recycle_eq {l : Loop M} (hs : l.state = .connected) (reason : String) :
    l.recycle reason = (l.disconnected .closed reason).maybeConnect := by
  rw [recycle, teardown_eq hs, transition_eq rfl]
  rfl

theorem opened_eq {l : Loop M} (hs : l.state = .connecting) (generation : Nat) :
    l.opened generation = { l with
      connecting := none, conn := some generation, state := .connected
      backoff := l.backoff.reset, processedSinceOpen := 0, lastError := none
      log := .notice .connect :: l.log } := by
  rw [opened, transition_eq (by change State.canGo l.state .connected = true; rw [hs]; rfl)]
  rfl

/-- A link that is closed for good has its transport closed, if it was open. -/
theorem hangUp_eq (l : Loop M) : l.hangUp = { l with
    state := .closed, retryAt := none
    conn := if l.state = .connected then none else l.conn
    log := (if l.state = .connected then l.conn.toList.map .closed else []) ++ l.log } := by
  unfold hangUp
  cases hs : l.state
  case connected => simp [teardown_eq hs, transition, State.canGo]
  all_goals simp [hs, transition, State.canGo]

/-- A link that is closed is opened only if it is wanted: on demand only for traffic. -/
theorem maybeConnect_cases (l : Loop M) : l.maybeConnect = l ∨
    l.state = .closed ∧ (l.config.ondemand = true → l.hasTraffic = true) ∧
      l.maybeConnect = l.startConnect := by
  unfold maybeConnect
  split
  · exact .inl rfl
  · next hc =>
    have hc : l.state = .closed := by simpa using hc
    split
    · split
      · next ht => exact .inr ⟨hc, fun _ => ht, rfl⟩
      · exact .inl rfl
    · next hd => exact .inr ⟨hc, fun hon => absurd hon (by simp_all), rfl⟩

/-! ### Business with messages -/

section Business

variable [Message M]

/-- `l'` comes from `l` by business with messages alone. -/
structure Trades (l l' : Loop M) : Prop where
  config : l'.config = l.config
  state : l'.state = l.state
  conn : l'.conn = l.conn
  generation : l'.generation = l.generation
  backoff : l'.backoff = l.backoff
  retryAt : l'.retryAt = l.retryAt
  log : ∃ es, l'.log = es ++ l.log ∧ ∀ e ∈ es, e.IsBusiness l.state

namespace Trades

variable {l l' l₁ l₂ l₃ : Loop M}

theorem of_eq (h : (l'.config, l'.state, l'.conn, l'.generation, l'.backoff, l'.retryAt, l'.log) =
    (l.config, l.state, l.conn, l.generation, l.backoff, l.retryAt, l.log)) : l.Trades l' := by
  simp only [Prod.mk.injEq] at h
  obtain ⟨hconfig, hstate, hconn, hgeneration, hbackoff, hretry, hlog⟩ := h
  exact ⟨hconfig, hstate, hconn, hgeneration, hbackoff, hretry, [], hlog, by simp⟩

theorem refl (l : Loop M) : l.Trades l := .of_eq rfl

theorem trans (h₁ : l₁.Trades l₂) (h₂ : l₂.Trades l₃) : l₁.Trades l₃ := by
  obtain ⟨es₁, he₁, hn₁⟩ := h₁.log
  obtain ⟨es₂, he₂, hn₂⟩ := h₂.log
  refine ⟨h₂.config.trans h₁.config, h₂.state.trans h₁.state, h₂.conn.trans h₁.conn,
    h₂.generation.trans h₁.generation, h₂.backoff.trans h₁.backoff, h₂.retryAt.trans h₁.retryAt,
    es₂ ++ es₁, ?_, ?_⟩
  · rw [he₂, he₁, List.append_assoc]
  · intro e he
    rcases List.mem_append.mp he with he | he
    · exact h₁.state ▸ hn₂ e he
    · exact hn₁ e he

theorem put (h : l.Trades l') {o : Output M} (ho : o.IsBusiness l.state) : l.Trades (l'.put o) :=
  h.trans ⟨rfl, rfl, rfl, rfl, rfl, rfl, [o], rfl, by simpa [h.state] using ho⟩

theorem ask (h : l.Trades l') (m : M) (q : Question) : l.Trades (l'.ask m q) := h.put (by trivial)

/-- What is business at each step is business in all. -/
theorem foldl {α : Type} {f : Loop M → α → Loop M} (hf : ∀ (l : Loop M) (x : α), l.Trades (f l x))
    (xs : List α) (l : Loop M) : l.Trades (xs.foldl f l) := by
  induction xs generalizing l with
  | nil => exact .refl l
  | cons x xs ih => exact (hf l x).trans (ih _)

theorem of_asks {ms : List M} (h : l.Asks ms l') : l.Trades l' := by
  obtain ⟨es, rfl, hes⟩ := h
  refine ⟨rfl, rfl, rfl, rfl, rfl, rfl, es, rfl, fun e he => ?_⟩
  obtain ⟨m, -, q, rfl⟩ := hes e he
  trivial

end Trades

theorem failAll_trades (l : Loop M) {e : QueueError}
    (he : ∀ m : M, (Output.failed m e).IsBusiness l.state) : l.Trades (l.failAll e) := by
  rw [failAll_eq]
  refine ⟨rfl, rfl, rfl, rfl, rfl, rfl, _, rfl, fun o ho => ?_⟩
  obtain ⟨m, -, rfl⟩ := List.mem_map.mp (List.mem_reverse.mp ho)
  exact he m

theorem abort_trades (l : Loop M) : l.Trades l.abort := by
  unfold abort
  split
  · exact .put (o := .abort) (.of_eq (by rfl)) trivial
  · exact .refl l

theorem writeFrames_trades (generation : Nat) (frames : List Bytes) (l : Loop M) :
    l.Trades (writeFrames generation frames l).2 := by
  induction frames generalizing l with
  | nil => exact .refl l
  | cons frame frames ih =>
    have hw (wire : List (Option QueueError)) : l.Trades { l with wire } := .of_eq rfl
    rw [writeFrames]
    split
    · exact (hw _).put (by trivial)
    · exact ((hw _).put (by trivial)).trans (ih _)
    · exact ((Trades.refl l).put (by trivial)).trans (ih _)

theorem write_trades (l : Loop M) (frames : List Bytes) : l.Trades (l.write frames).2 := by
  unfold write
  split
  · exact writeFrames_trades ..
  · exact .refl l

theorem pushBack_trades (l : Loop M) (m : M) : l.Trades (l.pushBack m) :=
  ((Trades.refl l).ask m .traffic).trans (.of_eq rfl)

theorem pushFront_trades (l : Loop M) (m : M) : l.Trades (l.pushFront m) :=
  ((Trades.refl l).ask m .traffic).trans (.of_eq rfl)

theorem await_trades (now : Nat) (l : Loop M) (m : M) : l.Trades (l.await now m) :=
  ((Trades.refl l).ask m .timeout).trans (.of_eq rfl)

theorem accept_trades (l : Loop M) (m : M) : l.Trades (l.accept m) :=
  (((Trades.refl l).ask m .describe).trans (pushBack_trades _ m)).trans (.of_eq rfl)

theorem failLate_trades (l : Loop M) (p : Pending M) : l.Trades (l.failLate p) :=
  (((Trades.refl l).ask p.message .describe).put (by trivial)).put (by trivial)

theorem retryOne_trades (now : Nat) (r : Loop M × List M) (p : Pending M) :
    r.1.Trades (retryOne now r p).1 := by
  have h : r.1.Trades ((r.1.ask p.message .retry).put
      (.retried (Message.retry p.message).1 (Message.retry p.message).2)) :=
    ((Trades.refl r.1).ask p.message .retry).put (by trivial)
  dsimp only [retryOne]
  split
  · exact h
  · exact h.trans (await_trades ..)
  · exact h.put (by trivial)

theorem retryPending_trades (now : Nat) (l : Loop M) : l.Trades (l.retryPending now) := by
  have hmany (ps : List (Pending M)) (r : Loop M × List M) :
      r.1.Trades (ps.foldl (retryOne now) r).1 := by
    induction ps generalizing r with
    | nil => exact .refl r.1
    | cons p ps ih => exact (retryOne_trades now r p).trans (ih _)
  have hfront (ms : List M) (l : Loop M) : l.Trades (ms.foldr (fun m l => l.pushFront m) l) := by
    induction ms with
    | nil => exact .refl l
    | cons m ms ih => exact ih.trans (pushFront_trades _ m)
  have hnone : l.Trades { l with receivers := [] } := .of_eq rfl
  exact (hnone.trans (hmany l.receivers ({ l with receivers := [] }, []))).trans (hfront _ _)

/-- A loop that stops fails its messages, and then closes its link. -/
theorem shutdown_trades (l : Loop M) (backlog : List M) :
    ∃ l₁, l.Trades l₁ ∧ l.shutdown backlog = l₁.hangUp :=
  ⟨_, (l.abort_trades.trans (.foldl accept_trades backlog _)).trans
    (failAll_trades _ fun _ => by trivial), rfl⟩

/-! ### At most one step -/

/-- `l'` comes from `l` by business with messages and at most one step of the link. Only the first
step takes account of a success: `heard` is the generation of the attempt that told of it. -/
inductive Course (now : Nat) (l : Loop M) : Option Nat → Loop M → Prop
  /-- An attempt succeeded. -/
  | opens {l₁ l' : Loop M} (before : l.Trades l₁) (connecting : l₁.state = .connecting)
      (after : (l₁.opened l₁.generation).Trades l') : Course now l (some l₁.generation) l'
  /-- The link is left where it is. -/
  | rests {l' : Loop M} (before : l.Trades l') : Course now l none l'
  /-- An attempt begins because one is wanted. -/
  | begins {l₁ : Loop M} (before : l.Trades l₁) (closed : l₁.state = .closed)
      (wanted : l₁.config.ondemand = true → l₁.hasTraffic = true) :
      Course now l none l₁.startConnect
  /-- An attempt begins that was put off. -/
  | resumes {l₁ l' : Loop M} (before : l.Trades l₁) (waiting : l₁.state = .waiting)
      (due : l₁.retryAt.any (· ≤ now) = true)
      (after : ({ l₁ with retryAt := none }.startConnect).Trades l') : Course now l none l'
  /-- An attempt failed. -/
  | fails {l₁ : Loop M} (before : l.Trades l₁) (connecting : l₁.state = .connecting)
      (reason : String) : Course now l none
        (({ l₁ with connecting := none }.emit (.error reason)).scheduleRetry now reason)
  /-- The link broke. -/
  | breaks {l₁ : Loop M} (before : l.Trades l₁) (connected : l₁.state = .connected)
      (reason : String) : Course now l none (l₁.linkLost now reason)
  /-- The transport is closed, and perhaps opened again. -/
  | recycles {l₁ : Loop M} (before : l.Trades l₁) (connected : l₁.state = .connected)
      (reason : String) : Course now l none (l₁.recycle reason)

section Steps

variable {now : Nat} {heard : Option Nat} {l l' l₁ : Loop M}

/-- Business before a course is a part of it. -/
theorem Course.after (h : l.Trades l₁) (hc : l₁.Course now heard l') : l.Course now heard l' := by
  cases hc with
  | opens before connecting after => exact .opens (h.trans before) connecting after
  | rests before => exact .rests (h.trans before)
  | begins before closed wanted => exact .begins (h.trans before) closed wanted
  | resumes before waiting due after => exact .resumes (h.trans before) waiting due after
  | fails before connecting reason => exact .fails (h.trans before) connecting reason
  | breaks before connected reason => exact .breaks (h.trans before) connected reason
  | recycles before connected reason => exact .recycles (h.trans before) connected reason

theorem maybeConnect_course (now : Nat) (l : Loop M) : l.Course now none l.maybeConnect := by
  rcases l.maybeConnect_cases with heq | ⟨hc, hwanted, heq⟩
  · rw [heq]
    exact .rests (.refl l)
  · rw [heq]
    exact .begins (.refl l) hc hwanted

theorem completed_course (now : Nat) {l : Loop M} (hs : l.state = .connected) :
    l.Course now none l.completed := by
  have hc : l.Trades { l with
      processed := l.processed + 1, processedSinceOpen := l.processedSinceOpen + 1 } := .of_eq rfl
  dsimp only [completed]
  split
  · split
    · exact .recycles hc hs _
    · exact .rests hc
  · exact .rests hc

theorem follow_course (now : Nat) (hs : l.state = .connected) {m : M}
    {before after : List (Pending M)} {answer : Except QueueError RecvDirective}
    (ha : ∀ e, answer = .error e → Answered M e) :
    l.Course now none (l.follow now m before after answer) := by
  dsimp only [follow]
  split
  · exact .after ((Trades.refl l).put (by trivial)) (completed_course now hs)
  · have hb := (Trades.refl l).ask m .blocking
    split
    · exact .rests (hb.trans (pushFront_trades ..))
    · exact .rests (hb.trans (pushBack_trades ..))
  · exact .rests (((Trades.refl l).ask m .timeout).trans (.of_eq rfl))
  · next e =>
    have hf := ((Trades.refl l).ask m .describe).put (Output.isBusiness_of_answered (ha e rfl) m _)
    exact .recycles hf hs _

/-- The answer with which a message ends an offer is its own. -/
theorem answered_of_offer {data : Bytes} {ps before after : List (Pending M)} {p : Pending M}
    {e : QueueError} (h : offer data ps l = (l', before, some (p, .error e, after))) :
    Answered M e := by
  induction ps generalizing l l' before with
  | nil => simp [offer] at h
  | cons q ps ih =>
    dsimp only [offer] at h
    split at h
    · simp only [Prod.mk.injEq] at h
      obtain ⟨-, -, hfound⟩ := h
      exact ih (Prod.ext rfl (Prod.ext rfl hfound))
    · next m answer _ hm =>
      simp only [Prod.mk.injEq, Option.some.injEq] at h
      obtain ⟨-, -, -, rfl, -⟩ := h
      exact ⟨q.message, .inr ⟨data, congrArg Prod.snd hm⟩⟩

theorem route_course (now : Nat) (hs : l.state = .connected) (data : Bytes) :
    l.Course now none (l.route now data) := by
  have hcount : l.Trades { l with received := l.received + 1 } := .of_eq rfl
  have ho := hcount.trans (.of_asks (offer_asks data l.receivers { l with
    received := l.received + 1 }))
  dsimp only [route]
  split
  · next l₁ all hoff =>
    rw [hoff] at ho
    have hall : l.Trades { l₁ with receivers := all } := ho.trans (.of_eq rfl)
    exact .rests (hall.put (o := .notice (.unrouted data)) hs)
  · next l₁ before p answer after hoff =>
    rw [hoff] at ho
    have hrest : l.Trades { l₁ with receivers := before ++ after } := ho.trans (.of_eq rfl)
    refine .after hrest (follow_course now (hrest.state.trans hs) fun e he => ?_)
    subst he
    exact answered_of_offer hoff

theorem afterSend_course (now : Nat) (hs : l.state = .connected) (c : Traffic) (m : M)
    (d : SendDirective) : l.Course now none (l.afterSend now c m d) := by
  cases d with
  | done => exact .after ((Trades.refl l).put (by trivial)) (completed_course now hs)
  | sendAgain => exact .rests (((Trades.refl l).ask m .describe).trans (.of_eq rfl))
  | recvAgain => exact .rests (await_trades now l m)

theorem sendOne_course (now : Nat) (hs : l.state = .connected) (c : Traffic) (m : M) :
    l.Course now none (l.sendOne now c m).2 := by
  have ha := (Trades.refl l).ask m .send
  dsimp only [sendOne]
  split
  · next m' e hsend =>
    have hanswer : Answered M e := ⟨m, .inl (congrArg Prod.snd hsend)⟩
    exact .rests ((ha.ask m' .describe).put (Output.isBusiness_of_answered hanswer m' _))
  · next m' frames d _ =>
    have hw := ha.trans (write_trades (l.ask m .send) frames)
    split
    · next e l₁ hwrite =>
      rw [hwrite] at hw
      have hb : l.Trades { l₁ with buckets := l₁.buckets.pushFront c m' } := hw.trans (.of_eq rfl)
      exact .breaks hb (hb.state.trans hs) _
    · next l₁ hwrite =>
      rw [hwrite] at hw
      have hb : l.Trades { l₁ with sent := l₁.sent + 1 } := hw.trans (.of_eq rfl)
      exact .after hb (afterSend_course now (hb.state.trans hs) c m' d)

theorem round_course (now : Nat) (l : Loop M) : l.Course now none (l.round now).2 := by
  have ha := Trades.of_asks (anyBlocking_asks l.receivers l)
  unfold round
  split
  · exact .rests (.refl l)
  · next hc =>
    have hs : l.state = .connected := by simpa using hc
    split
    · next l₁ hb => exact .rests (by simpa only [hb] using ha)
    · next l₁ hb =>
      rw [hb] at ha
      split
      · exact .rests ha
      · split
        · exact .rests ha
        · next c m b _ =>
          have hpop : l.Trades { l₁ with buckets := b } := ha.trans (.of_eq rfl)
          exact .after hpop (sendOne_course now (hpop.state.trans hs) c m)

theorem expire_course (now : Nat) (l : Loop M) : l.Course now none (l.expire now) ∧
    (l.state ≠ .connected → l.Trades (l.expire now)) := by
  have hlate : l.Trades { l with receivers := l.receivers.filter fun p => !isLate now p } :=
    .of_eq rfl
  have hf := hlate.trans (.foldl failLate_trades (l.receivers.filter (isLate now)) _)
  dsimp only [expire]
  split
  · exact ⟨.rests (.refl l), fun _ => .refl l⟩
  · split
    · next hs =>
      have hs := eq_of_beq hs
      exact ⟨.recycles hf hs _, fun hn => absurd (hf.state.symm.trans hs) hn⟩
    · exact ⟨.rests hf, fun _ => hf⟩

theorem onTimer_course (now : Nat) (l : Loop M) : l.Course now none (l.onTimer now) := by
  dsimp only [onTimer]
  split
  · next hdue =>
    obtain ⟨hs, hdue⟩ : l.state = .waiting ∧ l.retryAt.any (· ≤ now) = true := by simpa using hdue
    refine .resumes (.refl l) hs hdue ((expire_course now _).2 ?_)
    rw [Linked.startConnect_eq (l := { l with retryAt := none })
      (by change l.state.canGo .connecting = true; rw [hs]; rfl)]
    nofun
  · exact (expire_course now l).1

/-- The generation of the attempt that tells of its success. -/
def Input.success? : Input M → Option Nat
  | .control (.connected generation) => some generation
  | _ => none

theorem onControl_course (now : Nat) {item : Control}
    (hcur : ∀ g, item = .connected g → l.state = .connecting ∧ g = l.generation) :
    l.Course now (Input.success? (M := M) (.control item)) (l.onControl now item) := by
  cases item with
  | incoming generation data =>
    dsimp only [onControl]
    split
    · exact .rests (.refl l)
    · next hc => exact route_course now (by simp_all) data
  | lost generation reason =>
    dsimp only [onControl]
    split
    · next hc => exact .breaks (.refl l) (by simp_all) reason
    · exact .rests (.refl l)
  | connected generation =>
    obtain ⟨hs, rfl⟩ := hcur generation rfl
    dsimp only [onControl]
    rw [if_neg (by simp [hs])]
    exact .opens (.refl l) hs (retryPending_trades ..)
  | connectFailed generation reason =>
    dsimp only [onControl]
    split
    · next hc => exact .fails (.refl l) (by simp_all) reason
    · exact .rests (.refl l)
  | reopen =>
    dsimp only [onControl]
    split
    · next hc => exact .recycles (.refl l) (by simpa using hc) _
    · exact .rests (.refl l)
  | close => exact .rests (.refl l)

theorem handle_course (now : Nat) {input : Input M}
    (hcur : ∀ g, input = .control (.connected g) → l.state = .connecting ∧ g = l.generation) :
    l.Course now input.success? (l.handle now input) := by
  cases input with
  | control item => exact onControl_course now fun g hg => hcur g (hg ▸ rfl)
  | traffic m => exact .rests (accept_trades l m)
  | timer => exact onTimer_course now l
  | abandoned => exact .rests (.refl l)

theorem gather_course (now : Nat) (l : Loop M) (backlog : List M) :
    l.Course now none (l.gather backlog) :=
  .after (.foldl accept_trades backlog l) (maybeConnect_course now _)

/-- A turn takes at most one step of the link, unless the loop stops in it. Where the loop then
waits it has published its status. -/
theorem Turn.course {stage stage' : Stage} {taken : List M}
    (ht : Turn now stage l taken stage' l') (hs : stage' ≠ .stopped) :
    ∃ heard l₁, l.Course now heard l₁ ∧ (l' = l₁ ∨ l' = l₁.publish) ∧
      (stage' = .waiting → l' = l₁.publish) := by
  cases ht with
  | begin => exact ⟨_, _, maybeConnect_course now l, .inr rfl, fun _ => rfl⟩
  | handle input goesOn current => exact ⟨_, _, handle_course now current, .inl rfl, nofun⟩
  | stop backlog => exact absurd rfl hs
  | gather backlog => exact ⟨_, _, gather_course now l taken, .inl rfl, nofun⟩
  | write written =>
    have hr := round_course now l
    rw [written] at hr
    exact ⟨_, _, hr, .inl rfl, nofun⟩
  | rest done =>
    have hr := round_course now l
    rw [done] at hr
    exact ⟨_, _, hr, .inr rfl, fun _ => rfl⟩

end Steps

end Business

end Loop

end Hearth.Link
