import Hearth.Proofs.Link.Attempts

/-!
# The transport of a link

What a loop did to the outside tells which transport is open: an attempt that succeeds opens the
transport of its generation, until that is closed. A loop agrees with its history: it takes its
transport for open when that is the one of its last generation and the link is connected, asks for
no step that the link cannot take, and neither writes a frame nor offers data at any other time.

Most of what a loop does is not about its transport (`Loop.Calm`).

## Main definitions

* `openTransport`, `lastAttempt` : what a history says about the transport.
* `Proper` : no output of a history came at a wrong time.
* `Loop.Coherent` : a loop agrees with its history.

## Main results

* `Loop.Coherent.begin`, `Loop.Coherent.handle`, `Loop.Coherent.gather`, `Loop.Coherent.round`,
  `Loop.Coherent.shutdown` : the turns of a loop.
-/

namespace Hearth.Link

variable {M : Type}

/-! ### Histories -/

/-- The generation of the last attempt in a history, newest output first. -/
def lastAttempt (past : List (Output M)) : Option Nat := past.findSome? Output.attempt?

/-- The generation of the transport that is open after a history, newest output first: a success is
that of the last attempt. -/
def openTransport : List (Output M) → Option Nat
  | [] => none
  | .notice .connect :: past => lastAttempt past
  | .closed g :: past => if openTransport past = some g then none else openTransport past
  | _ :: past => openTransport past

/-- May an output follow on a history? A step of the link is not refused, and the transport is used
only while that of the last attempt is open. -/
def Output.Fits (past : List (Output M)) : Output M → Prop
  | .refused _ _ => False
  | .wrote g _ => openTransport past = some g ∧ lastAttempt past = some g
  | .writeFailed g _ => openTransport past = some g ∧ lastAttempt past = some g
  | .asked _ (.recv _) => ∃ g, openTransport past = some g ∧ lastAttempt past = some g
  | _ => True

/-- Every output of a history fits those before it. -/
def Proper (past : List (Output M)) : Prop := ∀ o earlier, o :: earlier <:+ past → o.Fits earlier

/-- Does an output neither move the link, nor use its transport, nor ask a message for what is to be
written? -/
def Output.isCalm : Output M → Bool
  | .asked _ .send => false
  | .asked _ (.recv _) => false
  | .asked .. => true
  | .retried .. => true
  | .done _ => true
  | .failed .. => true
  | .published _ => true
  | .abort => true
  | .notice .connect => false
  | .notice _ => true
  | _ => false

namespace Output

variable {o : Output M} {past : List (Output M)}

theorem attempt?_of_isCalm (h : o.isCalm = true) : o.attempt? = none := by
  cases o <;> simp_all [isCalm, attempt?]

theorem fits_of_isCalm (h : o.isCalm = true) : o.Fits past := by
  unfold isCalm at h
  split at h <;> simp_all [Fits]

theorem openTransport_cons_of_isCalm (h : o.isCalm = true) :
    openTransport (o :: past) = openTransport past := by
  unfold isCalm at h
  split at h <;> simp_all [openTransport]

end Output

theorem Proper.nil : Proper (M := M) [] := fun o earlier h => by simp at h

theorem Proper.cons {o : Output M} {past : List (Output M)} (h : Proper past) (ho : o.Fits past) :
    Proper (o :: past) := by
  intro o' earlier hs
  rcases List.suffix_cons_iff.mp hs with he | hs
  · obtain ⟨rfl, rfl⟩ := List.cons.inj he
    exact ho
  · exact h o' earlier hs

/-- An output that was refused stands in no proper history. -/
theorem Proper.not_refused {past : List (Output M)} (h : Proper past) (a b : State) :
    .refused a b ∉ past := by
  intro hm
  obtain ⟨later, earlier, rfl⟩ := List.append_of_mem hm
  exact h _ earlier (List.suffix_append ..)

theorem openTransport_append_of_isCalm {es past : List (Output M)}
    (h : ∀ e ∈ es, e.isCalm = true) : openTransport (es ++ past) = openTransport past := by
  induction es with
  | nil => rfl
  | cons e es ih =>
    have he := h e List.mem_cons_self
    rw [List.cons_append, Output.openTransport_cons_of_isCalm he,
      ih fun e he => h e (List.mem_cons_of_mem _ he)]

theorem proper_append_of_isCalm {es past : List (Output M)} (hp : Proper past)
    (h : ∀ e ∈ es, e.isCalm = true) : Proper (es ++ past) := by
  induction es with
  | nil => exact hp
  | cons e es ih =>
    exact (ih fun e he => h e (List.mem_cons_of_mem _ he)).cons
      (Output.fits_of_isCalm (h e List.mem_cons_self))

theorem attempts_append_of_isCalm {es past : List (Output M)} (h : ∀ e ∈ es, e.isCalm = true) :
    (es ++ past).filterMap Output.attempt? = past.filterMap Output.attempt? := by
  have hnone : es.filterMap Output.attempt? = [] :=
    List.filterMap_eq_nil_iff.mpr fun e he => Output.attempt?_of_isCalm (h e he)
  rw [List.filterMap_append, hnone, List.nil_append]

namespace Loop

/-! ### What is not about the transport -/

/-- `l'` comes from `l` without anything about the link or its transport; no message is written or
offered data. -/
structure Calm (l l' : Loop M) : Prop where
  config : l'.config = l.config
  state : l'.state = l.state
  conn : l'.conn = l.conn
  generation : l'.generation = l.generation
  log : ∃ es, l'.log = es ++ l.log ∧ ∀ e ∈ es, e.isCalm = true

namespace Calm

variable {l l' l₁ l₂ l₃ : Loop M}

theorem of_eq (h : (l'.config, l'.state, l'.conn, l'.generation, l'.log) =
    (l.config, l.state, l.conn, l.generation, l.log)) : l.Calm l' := by
  simp only [Prod.mk.injEq] at h
  obtain ⟨hconfig, hstate, hconn, hgeneration, hlog⟩ := h
  exact ⟨hconfig, hstate, hconn, hgeneration, [], hlog, by simp⟩

theorem refl (l : Loop M) : l.Calm l := .of_eq rfl

theorem trans (h₁ : l₁.Calm l₂) (h₂ : l₂.Calm l₃) : l₁.Calm l₃ := by
  obtain ⟨es₁, he₁, hn₁⟩ := h₁.log
  obtain ⟨es₂, he₂, hn₂⟩ := h₂.log
  refine ⟨h₂.config.trans h₁.config, h₂.state.trans h₁.state, h₂.conn.trans h₁.conn,
    h₂.generation.trans h₁.generation, es₂ ++ es₁, ?_, ?_⟩
  · rw [he₂, he₁, List.append_assoc]
  · intro e he
    rcases List.mem_append.mp he with he | he
    · exact hn₂ e he
    · exact hn₁ e he

theorem put (h : l.Calm l') {o : Output M} (ho : o.isCalm = true) : l.Calm (l'.put o) :=
  h.trans ⟨rfl, rfl, rfl, rfl, [o], rfl, by simpa using ho⟩

/-- What each step leaves alone, all steps leave alone. -/
theorem foldl {α : Type} {f : Loop M → α → Loop M} (hf : ∀ (l : Loop M) (x : α), l.Calm (f l x))
    (xs : List α) (l : Loop M) : l.Calm (xs.foldl f l) := by
  induction xs generalizing l with
  | nil => exact .refl l
  | cons x xs ih => exact (hf l x).trans (ih _)

end Calm

theorem publish_calm (l : Loop M) : l.Calm l.publish :=
  .put (o := .published l.snapshot) (.of_eq (by rfl)) rfl

theorem failAll_calm (l : Loop M) (e : QueueError) : l.Calm (l.failAll e) :=
  .trans (.of_eq (by rfl)) (.foldl (fun l m => .put (.refl l) (by rfl))
    (l.receivers.map (·.message) ++ l.buckets.all)
    { l with receivers := [], buckets := .empty })

theorem abort_calm (l : Loop M) : l.Calm l.abort := by
  unfold abort
  split
  · exact .put (.of_eq (by rfl)) (by rfl)
  · exact .refl l

section Messages

variable [Message M]

theorem pushBack_calm (l : Loop M) (m : M) : l.Calm (l.pushBack m) :=
  .trans (.put (o := .asked m .traffic) (.refl l) rfl) (.of_eq rfl)

theorem pushFront_calm (l : Loop M) (m : M) : l.Calm (l.pushFront m) :=
  .trans (.put (o := .asked m .traffic) (.refl l) rfl) (.of_eq rfl)

theorem await_calm (now : Nat) (l : Loop M) (m : M) : l.Calm (l.await now m) :=
  .trans (.put (o := .asked m .timeout) (.refl l) rfl) (.of_eq rfl)

theorem accept_calm (l : Loop M) (m : M) : l.Calm (l.accept m) :=
  .trans (.trans (.put (o := .asked m .describe) (.refl l) rfl) (pushBack_calm _ m)) (.of_eq rfl)

theorem failLate_calm (l : Loop M) (p : Pending M) : l.Calm (l.failLate p) :=
  .put (.put (.put (o := .asked p.message .describe) (.refl l) rfl) rfl) rfl

theorem retryOne_calm (now : Nat) (r : Loop M × List M) (p : Pending M) :
    r.1.Calm (retryOne now r p).1 := by
  have h : r.1.Calm ((r.1.ask p.message .retry).put
      (.retried (Message.retry p.message).1 (Message.retry p.message).2)) :=
    .put (.put (.refl r.1) rfl) rfl
  dsimp only [retryOne]
  split
  · exact h
  · exact h.trans (await_calm ..)
  · exact h.put rfl

theorem retryPending_calm (now : Nat) (l : Loop M) : l.Calm (l.retryPending now) := by
  have hmany (ps : List (Pending M)) (r : Loop M × List M) :
      r.1.Calm (ps.foldl (retryOne now) r).1 := by
    induction ps generalizing r with
    | nil => exact .refl r.1
    | cons p ps ih => exact (retryOne_calm now r p).trans (ih _)
  have hfront (ms : List M) (l : Loop M) : l.Calm (ms.foldr (fun m l => l.pushFront m) l) := by
    induction ms with
    | nil => exact .refl l
    | cons m ms ih => exact ih.trans (pushFront_calm _ m)
  have hnone : l.Calm { l with receivers := [] } := .of_eq rfl
  exact (hnone.trans (hmany l.receivers ({ l with receivers := [] }, []))).trans (hfront _ _)

theorem anyBlocking_calm (ps : List (Pending M)) (l : Loop M) : l.Calm (anyBlocking ps l).2 := by
  induction ps generalizing l with
  | nil => exact .refl l
  | cons p ps ih =>
    have hp : l.Calm (l.ask p.message .blocking) := .put (.refl l) rfl
    dsimp only [anyBlocking]
    split
    · exact hp
    · exact hp.trans (ih _)

end Messages

/-! ### A loop and its history -/

/-- A loop agrees with its history, which is its log and what was drained from it before. -/
structure Coherent (past : List (Output M)) (l : Loop M) : Prop where
  /-- The attempts were begun one for each generation, in their order. -/
  begun : (l.log ++ past).filterMap Output.attempt? = (List.range' 1 l.generation).reverse
  started : l.state ≠ .closed → l.generation ≠ 0
  conn : l.conn = if l.state = .connected then some l.generation else none
  transport : openTransport (l.log ++ past) = l.conn
  proper : Proper (l.log ++ past)

namespace Coherent

variable {past : List (Output M)} {l l' : Loop M}

theorem calm (h : l.Coherent past) (hc : l.Calm l') : l'.Coherent past := by
  obtain ⟨es, hl, hes⟩ := hc.log
  constructor
  · rw [hl, List.append_assoc, attempts_append_of_isCalm hes, hc.generation]
    exact h.begun
  · rw [hc.state, hc.generation]
    exact h.started
  · rw [hc.state, hc.generation, hc.conn]
    exact h.conn
  · rw [hl, List.append_assoc, openTransport_append_of_isCalm hes, hc.conn]
    exact h.transport
  · rw [hl, List.append_assoc]
    exact proper_append_of_isCalm h.proper hes

/-- The log of a loop becomes part of its history. -/
theorem drain (h : l.Coherent past) : Coherent (l.log ++ past) { l with log := [] } :=
  ⟨h.begun, h.started, h.conn, h.transport, h.proper⟩

/-- What is done while the loop has not its turn is not about its transport. -/
theorem idle (h : l.Coherent past) (hlog : l.log = []) {es : List (Output M)}
    (hes : ∀ e ∈ es, e.isCalm = true) (wire : List (Option QueueError)) :
    Coherent (es ++ past) { l with wire } := by
  have hc : l.Calm { l with wire, log := es } := by
    refine ⟨rfl, rfl, rfl, rfl, es, ?_, hes⟩
    rw [hlog, List.append_nil]
  have hd := (h.calm hc).drain
  rwa [← hlog] at hd

/-- The link moves while no transport is open, and none is opened. -/
theorem moved (h : l.Coherent past) (hm : Calm { l with state := l'.state } l')
    (hs : l.state ≠ .connected) (hs' : l'.state ≠ .connected)
    (hg : l'.state ≠ .closed → l.state ≠ .closed) : l'.Coherent past := by
  refine calm (l := { l with state := l'.state }) ⟨h.begun, fun hc => h.started (hg hc), ?_,
    h.transport, h.proper⟩ hm
  have hnone := h.conn
  rw [if_neg hs] at hnone
  rw [if_neg hs']
  exact hnone

theorem conn_none (h : l.Coherent past) (hs : l.state ≠ .connected) : l.conn = none := by
  rw [h.conn, if_neg hs]

theorem conn_some (h : l.Coherent past) (hs : l.state = .connected) :
    l.conn = some l.generation := by
  rw [h.conn, if_pos hs]

/-- The last generation is that of the last attempt. -/
theorem lastAttempt_eq (h : l.Coherent past) (hs : l.state ≠ .closed) :
    lastAttempt (l.log ++ past) = some l.generation := by
  obtain ⟨n, hn⟩ := Nat.exists_eq_succ_of_ne_zero (h.started hs)
  rw [lastAttempt, ← List.head?_filterMap, h.begun, hn, List.range'_concat, List.reverse_append,
    Nat.one_mul, Nat.add_comm]
  rfl

/-- The transport can be used while the link is connected. -/
theorem usable (h : l.Coherent past) (hs : l.state = .connected) :
    openTransport (l.log ++ past) = some l.generation ∧
      lastAttempt (l.log ++ past) = some l.generation :=
  ⟨h.transport.trans (h.conn_some hs), h.lastAttempt_eq (by simp [hs])⟩

/-- Something is done that fits, and changes nothing about the transport. -/
theorem use (h : l.Coherent past) {o : Output M} (ha : o.attempt? = none)
    (ho : o.Fits (l.log ++ past))
    (ht : openTransport (o :: (l.log ++ past)) = openTransport (l.log ++ past)) :
    (l.put o).Coherent past where
  begun := by
    change (o :: (l.log ++ past)).filterMap _ = _
    rw [List.filterMap_cons, ha]
    exact h.begun
  started := h.started
  conn := h.conn
  transport := ht.trans h.transport
  proper := h.proper.cons ho

/-! ### Steps of the link -/

theorem startConnect (h : l.Coherent past) (hgo : l.state.canGo .connecting = true) :
    l.startConnect.Coherent past := by
  have hs : l.state ≠ .connected := by
    intro hc
    simp [hc, State.canGo] at hgo
  rw [Linked.startConnect_eq hgo]
  refine ⟨?_, fun _ => Nat.succ_ne_zero _, h.conn_none hs, h.transport, h.proper.cons trivial⟩
  have hb : (l.generation + 1) :: (l.log ++ past).filterMap Output.attempt? =
      (List.range' 1 (l.generation + 1)).reverse := by
    rw [h.begun, List.range'_concat, List.reverse_append, Nat.one_mul, Nat.add_comm]
    rfl
  exact hb

theorem maybeConnect (h : l.Coherent past) : l.maybeConnect.Coherent past := by
  unfold Loop.maybeConnect
  split
  · exact h
  · next hc =>
    have hgo : l.state.canGo .connecting = true := by
      rw [show l.state = .closed by simpa using hc]
      rfl
    split
    · split
      · exact h.startConnect hgo
      · exact h
    · exact h.startConnect hgo

/-- The attempt that is under way succeeds. -/
theorem opened (h : l.Coherent past) (hs : l.state = .connecting) :
    (l.opened l.generation).Coherent past := by
  have hlast := h.lastAttempt_eq (by simp [hs])
  have hgo : State.canGo l.state .connected = true := by rw [hs]; rfl
  have heq : l.opened l.generation = { l with
      connecting := none, conn := some l.generation, state := .connected
      backoff := l.backoff.reset, processedSinceOpen := 0, lastError := none
      log := .notice .connect :: l.log } := by
    rw [Loop.opened, transition_eq (l := { l with
      connecting := none, conn := some l.generation }) hgo]
    rfl
  rw [heq]
  exact ⟨h.begun, fun _ => h.started (by simp [hs]), rfl, hlast, h.proper.cons trivial⟩

/-- The transport that is open is closed. -/
theorem teardown (h : l.Coherent past) (hs : l.state = .connected) :
    l.teardown.Coherent past := by
  have hconn := h.conn_some hs
  have hopen : openTransport (.closed l.generation :: (l.log ++ past)) = none := by
    rw [openTransport, if_pos (h.usable hs).1]
  have heq : l.teardown = { l with
      state := .closing, conn := none, log := .closed l.generation :: l.log } := by
    rw [Loop.teardown, transition_eq (by rw [hs]; rfl)]
    dsimp only
    rw [hconn]
    rfl
  rw [heq]
  exact ⟨h.begun, fun _ => h.started (by simp [hs]), rfl, hopen, h.proper.cons trivial⟩

/-- A step that the link can take, neither from an open transport nor to one. -/
theorem transition (h : l.Coherent past) {target : State} (hgo : l.state.canGo target = true)
    (hs : l.state ≠ .connected) (ht : target ≠ .connected)
    (hc : target ≠ .closed → l.state ≠ .closed) : (l.transition target).2.Coherent past := by
  rw [transition_eq hgo]
  exact h.moved (.refl _) hs ht hc

/-- The next attempt is put off, or there is none. -/
theorem scheduleRetry (h : l.Coherent past) (hgo : l.state.canGo .waiting = true) (now : Nat)
    (reason : String) : (l.scheduleRetry now reason).Coherent past := by
  have hs : l.state ≠ .connected ∧ l.state ≠ .closed ∧ l.state.canGo .closed = true := by
    cases hst : l.state <;> simp_all [State.canGo]
  have hput (b : Backoff) (delay : Span) :
      (Loop.putOff now { l with lastError := some reason, backoff := b } delay).Coherent past := by
    rw [putOff, transition_eq (l := { l with lastError := some reason, backoff := b }) hgo]
    exact h.moved (.of_eq rfl) hs.1 (by simp) fun _ => hs.2.1
  have hgive : (Loop.giveUp { l with lastError := some reason } reason).Coherent past := by
    have hf := failAll_calm { l with lastError := some reason }
      (.connectFailed (l.backoff.failures.toNat + 1) reason)
    have hc : l.Coherent past → Coherent past ({ l with lastError := some reason }.failAll
        (.connectFailed (l.backoff.failures.toNat + 1) reason)) :=
      fun h => (calm h (.of_eq (by rfl))).calm hf
    refine transition (calm (hc h) (.of_eq (by rfl))) ?_ ?_ (by simp) (by simp)
    · rw [show _ = l.state from hf.state]
      exact hs.2.2
    · rw [show _ = l.state from hf.state]
      exact hs.1
  dsimp only [Loop.scheduleRetry]
  split
  · exact hput _ _
  · exact hput _ _
  · exact hput _ _
  · exact hgive

theorem linkLost (h : l.Coherent past) (hs : l.state = .connected) (now : Nat) (reason : String) :
    (l.linkLost now reason).Coherent past := by
  refine scheduleRetry ((h.teardown hs).calm (.put (.refl _) rfl)) ?_ now reason
  change l.teardown.state.canGo .waiting = true
  rw [teardown_state hs]
  rfl

theorem recycle (h : l.Coherent past) (hs : l.state = .connected) (reason : String) :
    (l.recycle reason).Coherent past := by
  have ht := teardown_state hs
  have hc : (l.teardown.transition .closed).2.Coherent past :=
    transition (h.teardown hs) (by rw [ht]; rfl) (by simp [ht]) (by simp) (by simp)
  exact maybeConnect (hc.calm (.put (o := .notice (.disconnect reason)) (.refl _) rfl))

theorem completed (h : l.Coherent past) (hs : l.state = .connected) :
    l.completed.Coherent past := by
  have hc : Coherent past { l with
      processed := l.processed + 1, processedSinceOpen := l.processedSinceOpen + 1 } :=
    h.calm (.of_eq rfl)
  dsimp only [Loop.completed]
  split
  · split
    · exact hc.recycle hs _
    · exact hc
  · exact hc

/-- The link is closed for good. -/
theorem hangUp (h : l.Coherent past) : l.hangUp.Coherent past ∧ l.hangUp.state = .closed := by
  have hdown : (if l.state == .connected then l.teardown else l).Coherent past ∧
      (if l.state == .connected then l.teardown else l).state ≠ .connected := by
    split
    · next hs =>
      have hs : l.state = .connected := by simpa using hs
      exact ⟨h.teardown hs, by simp [teardown_state hs]⟩
    · next hs => exact ⟨h, by simpa using hs⟩
  have hclose {l : Loop M} (h : l.Coherent past) (hs : l.state ≠ .connected) :
      (if l.state != .closed then (l.transition .closed).2 else l).Coherent past ∧
        (if l.state != .closed then (l.transition .closed).2 else l).state = .closed := by
    split
    · next hc =>
      have hgo : l.state.canGo .closed = true := by
        cases hst : l.state <;> simp_all [State.canGo]
      exact ⟨h.transition hgo hs (by simp) (by simp), by rw [transition_eq hgo]⟩
    · next hc => exact ⟨h, by simpa using hc⟩
  obtain ⟨hc, hst⟩ := hclose hdown.1 hdown.2
  exact ⟨hc.calm (.of_eq rfl), hst⟩

/-! ### Traffic -/

/-- Frames are written to the transport that is open. -/
theorem writeFrames (h : l.Coherent past) (hs : l.state = .connected) (frames : List Bytes) :
    (writeFrames l.generation frames l).2.Coherent past := by
  induction frames generalizing l with
  | nil => exact h
  | cons frame frames ih =>
    have hw (wire : List (Option QueueError)) : Coherent past { l with wire } := h.calm (.of_eq rfl)
    rw [Loop.writeFrames]
    split
    · next e wire _ =>
      exact (hw wire).use (o := .writeFailed l.generation frame) rfl (h.usable hs) rfl
    · next wire _ =>
      exact ih ((hw wire).use (o := .wrote l.generation frame) rfl (h.usable hs) rfl) hs
    · exact ih (h.use (o := .wrote l.generation frame) rfl (h.usable hs) rfl) hs

theorem write (h : l.Coherent past) (hs : l.state = .connected) (frames : List Bytes) :
    (l.write frames).2.Coherent past := by
  rw [Loop.write, h.conn_some hs]
  exact h.writeFrames hs frames

section Messages

variable [Message M]

/-- Data is offered while the transport is open. -/
theorem offer (h : l.Coherent past) (hs : l.state = .connected) (data : Bytes)
    (ps : List (Pending M)) : (offer data ps l).1.Coherent past := by
  induction ps generalizing l with
  | nil => exact h
  | cons p ps ih =>
    have ha : (l.ask p.message (.recv data)).Coherent past :=
      h.use rfl ⟨l.generation, h.usable hs⟩ rfl
    dsimp only [Loop.offer]
    split
    · exact ih ha hs
    · exact ha

theorem follow (h : l.Coherent past) (hs : l.state = .connected) (now : Nat) (m : M)
    (before after : List (Pending M)) (answer : Except QueueError RecvDirective) :
    (l.follow now m before after answer).Coherent past := by
  have hask (q : Question) (hq : (Output.asked m q).isCalm = true) : l.Calm (l.ask m q) :=
    .put (.refl l) hq
  dsimp only [Loop.follow]
  split
  · exact (h.calm (.put (.refl l) rfl)).completed hs
  · split
    · exact h.calm ((hask .blocking rfl).trans (pushFront_calm ..))
    · exact h.calm ((hask .blocking rfl).trans (pushBack_calm ..))
  · exact h.calm ((hask .timeout rfl).trans (.of_eq rfl))
  · exact (h.calm (.put (hask .describe rfl) rfl)).recycle hs _

theorem route (h : l.Coherent past) (hs : l.state = .connected) (now : Nat) (data : Bytes) :
    (l.route now data).Coherent past := by
  have hcount : Coherent past { l with received := l.received + 1 } := h.calm (.of_eq rfl)
  have ho := hcount.offer hs data l.receivers
  have hst := (Rests.of_asks (offer_asks data l.receivers { l with
    received := l.received + 1 })).state.trans hs
  dsimp only [Loop.route]
  split
  · next l₁ all hoff =>
    rw [hoff] at ho
    have hall : Coherent past { l₁ with receivers := all } := ho.calm (.of_eq rfl)
    exact hall.calm (.put (.refl _) rfl)
  · next l₁ before p answer after hoff =>
    rw [hoff] at ho hst
    have hrest : Coherent past { l₁ with receivers := before ++ after } := ho.calm (.of_eq rfl)
    exact hrest.follow hst ..

theorem afterSend (h : l.Coherent past) (hs : l.state = .connected) (now : Nat) (c : Traffic)
    (m : M) (d : SendDirective) : (l.afterSend now c m d).Coherent past := by
  cases d with
  | done => exact (h.calm (.put (.refl l) rfl)).completed hs
  | sendAgain =>
    have hc : l.Calm (l.ask m .describe) := .put (.refl l) rfl
    exact h.calm (hc.trans (.of_eq rfl))
  | recvAgain => exact h.calm (await_calm ..)

theorem sendOne (h : l.Coherent past) (hs : l.state = .connected) (now : Nat) (c : Traffic)
    (m : M) : (l.sendOne now c m).2.Coherent past := by
  have ha : (l.ask m .send).Coherent past := h.use rfl trivial rfl
  dsimp only [Loop.sendOne]
  split
  · next m' e _ => exact ha.calm (.put (.put (o := .asked m' .describe) (.refl _) rfl) rfl)
  · next m' frames d _ =>
    have hw := ha.write hs frames
    have hst := (write_rests (l.ask m .send) frames).state.trans hs
    split
    · next e l₁ hwrite =>
      rw [hwrite] at hw hst
      have hb : Coherent past { l₁ with buckets := l₁.buckets.pushFront c m' } :=
        hw.calm (.of_eq rfl)
      exact hb.linkLost hst ..
    · next l₁ hwrite =>
      rw [hwrite] at hw hst
      have hb : Coherent past { l₁ with sent := l₁.sent + 1 } := hw.calm (.of_eq rfl)
      exact hb.afterSend hst ..

theorem round (h : l.Coherent past) (now : Nat) : (l.round now).2.Coherent past := by
  have ha := anyBlocking_calm l.receivers l
  unfold Loop.round
  split
  · exact h
  · next hc =>
    have hs : l.state = .connected := by simpa using hc
    split
    · next l₁ hb => exact h.calm (by simpa only [hb] using ha)
    · next l₁ hb =>
      rw [hb] at ha
      have h₁ := h.calm ha
      split
      · exact h₁
      · split
        · exact h₁
        · next c m b _ =>
          have hpop : Coherent past { l₁ with buckets := b } := h₁.calm (.of_eq rfl)
          exact hpop.sendOne (ha.state.trans hs) ..

/-! ### Turns -/

omit [Message M] in
theorem begin (h : l.Coherent past) : l.begin.Coherent past :=
  h.maybeConnect.calm (publish_calm _)

theorem gather (h : l.Coherent past) (backlog : List M) : (l.gather backlog).Coherent past :=
  (h.calm (.foldl accept_calm backlog l)).maybeConnect

/-- The loop stops with its link closed. -/
theorem shutdown (h : l.Coherent past) (backlog : List M) :
    (l.shutdown backlog).publish.Coherent past ∧ (l.shutdown backlog).publish.state = .closed := by
  have hf : l.Calm ((backlog.foldl accept l.abort).failAll .closed) :=
    (abort_calm l).trans ((Calm.foldl accept_calm backlog _).trans (failAll_calm ..))
  obtain ⟨hc, hst⟩ := (h.calm hf).hangUp
  exact ⟨hc.calm (publish_calm _), hst⟩

theorem onControl {item : Control} (h : l.Coherent past) (now : Nat)
    (hcur : ∀ g, item = .connected g → l.state = .connecting ∧ g = l.generation) :
    (l.onControl now item).Coherent past := by
  cases item with
  | incoming generation data =>
    dsimp only [Loop.onControl]
    split
    · exact h
    · next hc => exact h.route (by simp_all) now data
  | lost generation reason =>
    dsimp only [Loop.onControl]
    split
    · next hc => exact h.linkLost (by simp_all) now reason
    · exact h
  | connected generation =>
    obtain ⟨hs, rfl⟩ := hcur generation rfl
    dsimp only [Loop.onControl]
    rw [if_neg (by simp [hs])]
    exact (h.opened hs).calm (retryPending_calm ..)
  | connectFailed generation reason =>
    dsimp only [Loop.onControl]
    split
    · next hc =>
      have hs : l.state = .connecting := by simp_all
      have hl : l.Calm { l with connecting := none } := .of_eq rfl
      refine scheduleRetry (h.calm (hl.put (o := .notice (.error reason)) rfl)) ?_ now reason
      change l.state.canGo .waiting = true
      rw [hs]
      rfl
    · exact h
  | reopen =>
    dsimp only [Loop.onControl]
    split
    · next hc => exact h.recycle (by simpa using hc) _
    · exact h
  | close => exact h

theorem expire (h : l.Coherent past) (now : Nat) : (l.expire now).Coherent past := by
  have hlate : l.Calm { l with receivers := l.receivers.filter fun p => !isLate now p } :=
    .of_eq rfl
  have hc := hlate.trans (.foldl failLate_calm (l.receivers.filter (isLate now)) _)
  dsimp only [Loop.expire]
  split
  · exact h
  · split
    · next hs => exact (h.calm hc).recycle (by simpa using hs) _
    · exact h.calm hc

theorem handle {input : Input M} (h : l.Coherent past) (now : Nat)
    (hcur : ∀ g, input = .control (.connected g) → l.state = .connecting ∧ g = l.generation) :
    (l.handle now input).Coherent past := by
  cases input with
  | control item => exact h.onControl now fun g hg => hcur g (hg ▸ rfl)
  | traffic m => exact h.calm (accept_calm ..)
  | timer =>
    refine expire ?_ now
    split
    · next hdue =>
      have hs : l.state = .waiting := by simp_all
      refine startConnect (h.calm (.of_eq rfl)) ?_
      change l.state.canGo .connecting = true
      rw [hs]
      rfl
    · exact h
  | abandoned => exact h

end Messages

end Coherent

end Loop

end Hearth.Link
