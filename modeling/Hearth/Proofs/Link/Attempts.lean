import Hearth.Proofs.Link.Station

/-!
# Attempts to connect

A loop has an attempt to connect under way exactly while its link is connecting, and begins the
attempts in the order of their generations. Most of what it does leaves the link where it is
(`Loop.Rests`), or moves it without beginning an attempt (`Loop.Moves`).

## Main definitions

* `Loop.Linked` : the attempts that were begun, and the one that is under way.
* `Loop.Settled` : a link that is closed is closed because it is not needed.

## Main results

* `Loop.Linked.recycle`, `Loop.Linked.maybeConnect`, `Loop.scheduleRetry_deferred` : what becomes of
  a link that was closed.
* `Loop.Linked.handle`, `Loop.Linked.round` : the turns of a loop.
-/

namespace Hearth.Link

variable {M : Type}

/-- The generation of the attempt that an output begins. -/
def Output.attempt? : Output M → Option Nat
  | .attempt generation => some generation
  | _ => none

/-- The generation of the attempt that an item tells the outcome of. -/
def Control.verdict? : Control → Option Nat
  | .connected generation => some generation
  | .connectFailed generation _ => some generation
  | _ => none

/-- Does an output have nothing to do with attempts? -/
def Output.isPlain : Output M → Bool
  | .attempt _ => false
  | .abort => false
  | _ => true

theorem Output.attempt?_of_isPlain {o : Output M} (h : o.isPlain = true) : o.attempt? = none := by
  cases o <;> simp_all [isPlain, attempt?]

theorem Buckets.all_eq_nil_of_pop {b : Buckets M} (h : b.pop = none) : b.all = [] := by
  unfold pop at h
  split at h <;> simp_all [all]

namespace Loop

/-- The generations of the attempts whose outcome an input tells. -/
def Input.verdicts (input : Input M) : List Nat := input.items.filterMap Control.verdict?

/-- `l'` comes from `l` without an attempt that begins or ends. -/
structure Moves (l l' : Loop M) : Prop where
  generation : l'.generation = l.generation
  connecting : l'.connecting = l.connecting
  log : ∃ es, l'.log = es ++ l.log ∧ ∀ e ∈ es, e.isPlain = true

/-- `l'` comes from `l` by leaving the link where it is. -/
structure Rests (l l' : Loop M) : Prop extends Moves l l' where
  state : l'.state = l.state
  retryAt : l'.retryAt = l.retryAt

namespace Moves

variable {l l' l₁ l₂ l₃ : Loop M}

theorem of_eq (hg : l'.generation = l.generation) (hc : l'.connecting = l.connecting)
    (hl : l'.log = l.log) : l.Moves l' :=
  ⟨hg, hc, [], hl, by simp⟩

theorem refl (l : Loop M) : l.Moves l := .of_eq rfl rfl rfl

theorem trans (h₁ : l₁.Moves l₂) (h₂ : l₂.Moves l₃) : l₁.Moves l₃ := by
  obtain ⟨es₁, he₁, hn₁⟩ := h₁.log
  obtain ⟨es₂, he₂, hn₂⟩ := h₂.log
  refine ⟨h₂.generation.trans h₁.generation, h₂.connecting.trans h₁.connecting, es₂ ++ es₁, ?_, ?_⟩
  · rw [he₂, he₁, List.append_assoc]
  · intro e he
    rcases List.mem_append.mp he with he | he
    · exact hn₂ e he
    · exact hn₁ e he

theorem put (h : l.Moves l') {o : Output M} (ho : o.isPlain = true) :
    l.Moves (l'.put o) :=
  h.trans ⟨rfl, rfl, [o], rfl, by simpa using ho⟩

end Moves

namespace Rests

variable {l l' l₁ l₂ l₃ : Loop M}

theorem of_eq (hg : l'.generation = l.generation) (hc : l'.connecting = l.connecting)
    (hl : l'.log = l.log) (hs : l'.state = l.state) (hr : l'.retryAt = l.retryAt) : l.Rests l' :=
  ⟨.of_eq hg hc hl, hs, hr⟩

theorem refl (l : Loop M) : l.Rests l := ⟨.refl l, rfl, rfl⟩

theorem trans (h₁ : l₁.Rests l₂) (h₂ : l₂.Rests l₃) : l₁.Rests l₃ :=
  ⟨h₁.toMoves.trans h₂.toMoves, h₂.state.trans h₁.state, h₂.retryAt.trans h₁.retryAt⟩

theorem put (h : l.Rests l') {o : Output M} (ho : o.isPlain = true) :
    l.Rests (l'.put o) :=
  ⟨h.toMoves.put ho, h.state, h.retryAt⟩

theorem ask (h : l.Rests l') (m : M) (q : Question) : l.Rests (l'.ask m q) :=
  h.put rfl

/-- What each step leaves alone, all steps leave alone. -/
theorem foldl {α : Type} {f : Loop M → α → Loop M} (hf : ∀ (l : Loop M) (x : α), l.Rests (f l x))
    (xs : List α) (l : Loop M) : l.Rests (xs.foldl f l) := by
  induction xs generalizing l with
  | nil => exact .refl l
  | cons x xs ih => exact (hf l x).trans (ih _)

theorem of_asks {ms : List M} (h : l.Asks ms l') : l.Rests l' := by
  obtain ⟨es, rfl, hes⟩ := h
  refine ⟨⟨rfl, rfl, es, rfl, fun e he => ?_⟩, rfl, rfl⟩
  obtain ⟨m, -, q, rfl⟩ := hes e he
  rfl

end Rests

/-! ### Messages -/

theorem publish_rests (l : Loop M) : l.Rests l.publish := by
  have h : l.Rests { l with status := l.snapshot } := .of_eq rfl rfl rfl rfl rfl
  exact h.put rfl

theorem failAll_rests (l : Loop M) (e : QueueError) : l.Rests (l.failAll e) := by
  refine .trans ?_ (.foldl (fun l m => ?_) _ _)
  · exact .of_eq rfl rfl rfl rfl rfl
  · exact (Rests.refl l).put rfl

theorem writeFrames_rests (generation : Nat) (frames : List Bytes) (l : Loop M) :
    l.Rests (writeFrames generation frames l).2 := by
  induction frames generalizing l with
  | nil => exact .refl l
  | cons frame frames ih =>
    have hw (wire : List (Option QueueError)) : l.Rests { l with wire } :=
      .of_eq rfl rfl rfl rfl rfl
    rw [writeFrames]
    split
    · exact (hw _).put rfl
    · exact ((hw _).put rfl).trans (ih _)
    · exact ((Rests.refl l).put rfl).trans (ih _)

theorem write_rests (l : Loop M) (frames : List Bytes) : l.Rests (l.write frames).2 := by
  unfold write
  split
  · exact writeFrames_rests ..
  · exact .refl l

section Messages

variable [Message M]

theorem pushBack_rests (l : Loop M) (m : M) : l.Rests (l.pushBack m) :=
  ((Rests.refl l).ask m .traffic).trans (.of_eq rfl rfl rfl rfl rfl)

theorem pushFront_rests (l : Loop M) (m : M) : l.Rests (l.pushFront m) :=
  ((Rests.refl l).ask m .traffic).trans (.of_eq rfl rfl rfl rfl rfl)

theorem await_rests (now : Nat) (l : Loop M) (m : M) : l.Rests (l.await now m) :=
  ((Rests.refl l).ask m .timeout).trans (.of_eq rfl rfl rfl rfl rfl)

theorem accept_rests (l : Loop M) (m : M) : l.Rests (l.accept m) := by
  refine .trans (.trans ((Rests.refl l).ask m .describe) (pushBack_rests _ m)) ?_
  exact .of_eq rfl rfl rfl rfl rfl

theorem retryOne_rests (now : Nat) (r : Loop M × List M) (p : Pending M) :
    r.1.Rests (retryOne now r p).1 := by
  have h := ((Rests.refl r.1).ask p.message .retry).put rfl
    (o := .retried (Message.retry p.message).1 (Message.retry p.message).2)
  dsimp only [retryOne]
  split
  · exact h
  · exact h.trans (await_rests ..)
  · exact h.put rfl

theorem retryPending_rests (now : Nat) (l : Loop M) : l.Rests (l.retryPending now) := by
  have hmany (ps : List (Pending M)) (r : Loop M × List M) :
      r.1.Rests (ps.foldl (retryOne now) r).1 := by
    induction ps generalizing r with
    | nil => exact .refl r.1
    | cons p ps ih => exact (retryOne_rests now r p).trans (ih _)
  have hfront (ms : List M) (l : Loop M) : l.Rests (ms.foldr (fun m l => l.pushFront m) l) := by
    induction ms with
    | nil => exact .refl l
    | cons m ms ih => exact ih.trans (pushFront_rests _ m)
  refine .trans (.trans ?_ (hmany l.receivers ({ l with receivers := [] }, []))) (hfront _ _)
  exact .of_eq rfl rfl rfl rfl rfl

theorem failLate_rests (l : Loop M) (p : Pending M) : l.Rests (l.failLate p) :=
  (((Rests.refl l).ask p.message .describe).put rfl).put rfl

end Messages

/-! ### Steps of the link -/

theorem transition_eq {l : Loop M} {target : State} (h : l.state.canGo target = true) :
    l.transition target = (true, { l with state := target }) := by
  unfold transition
  rw [if_pos h]

theorem transition_moves (l : Loop M) (target : State) : l.Moves (l.transition target).2 := by
  unfold transition
  split
  · exact .of_eq rfl rfl rfl
  · exact (Moves.refl l).put rfl

theorem opened_moves (l : Loop M) (generation : Nat) :
    Moves { l with connecting := none } (l.opened generation) := by
  have hc : Moves { l with connecting := none }
      { l with connecting := none, conn := some generation } := .of_eq rfl rfl rfl
  have ho := (hc.trans (transition_moves _ .connected)).put (o := .notice .connect) rfl
  exact ho.trans (.of_eq rfl rfl rfl)

theorem opened_state {l : Loop M} (generation : Nat) (h : l.state = .connecting) :
    (l.opened generation).state = .connected := by
  have hgo : State.canGo l.state .connected = true := by rw [h]; rfl
  exact congrArg (·.2.state)
    (transition_eq (l := { l with connecting := none, conn := some generation }) hgo)

theorem teardown_moves (l : Loop M) : l.Moves l.teardown := by
  have h := l.transition_moves .closing
  unfold teardown
  split
  · next l₁ ht => simpa [ht] using h
  · next l₁ ht =>
    rw [ht] at h
    split
    · next generation _ =>
      have hc : l₁.Moves { l₁ with conn := none } := .of_eq rfl rfl rfl
      exact (h.trans hc).put rfl
    · exact h

/-- A transport that is open is closed. -/
theorem teardown_state {l : Loop M} (h : l.state = .connected) : l.teardown.state = .closing := by
  unfold teardown
  rw [transition_eq (by rw [h]; rfl)]
  dsimp only
  split <;> rfl

theorem putOff_moves (now : Nat) (l : Loop M) (delay : Span) : l.Moves (l.putOff now delay) := by
  have h := l.transition_moves .waiting
  unfold putOff
  split
  · next l₁ ht =>
    rw [ht] at h
    exact h.trans (.of_eq rfl rfl rfl)
  · next l₁ ht => simpa [ht] using h

theorem giveUp_moves (l : Loop M) (reason : String) : l.Moves (l.giveUp reason) := by
  have hf := (l.failAll_rests (.connectFailed (l.backoff.failures.toNat + 1) reason)).toMoves
  refine .trans (hf.trans ?_) (transition_moves _ .closed)
  exact .of_eq rfl rfl rfl

theorem scheduleRetry_moves (now : Nat) (l : Loop M) (reason : String) :
    l.Moves (l.scheduleRetry now reason) := by
  have hput (b : Backoff) (delay : Span) :
      l.Moves (Loop.putOff now { l with lastError := some reason, backoff := b } delay) := by
    refine .trans ?_ (putOff_moves ..)
    exact .of_eq rfl rfl rfl
  have hgive : l.Moves (Loop.giveUp { l with lastError := some reason } reason) := by
    refine .trans ?_ (giveUp_moves ..)
    exact .of_eq rfl rfl rfl
  dsimp only [scheduleRetry]
  split
  · exact hput _ _
  · exact hput _ _
  · exact hput _ _
  · exact hgive

/-- A link that is closed is closed because it is not needed. -/
structure Settled (l : Loop M) : Prop where
  state : l.state ≠ .closing
  closed : l.state = .closed →
    l.receivers = [] ∧ l.buckets.all = [] ∧ (l.config.ondemand = true ∨ l.idle = true)

/-- The link broke, or could not be opened: the next attempt is put off, or nothing is left to be
done. -/
structure Deferred (l : Loop M) : Prop where
  settled : l.Settled
  state : l.state = .waiting ∨ l.state = .closed
  due : l.state = .waiting → l.retryAt.isSome = true

theorem putOff_deferred (now : Nat) {l : Loop M} (delay : Span)
    (h : l.state.canGo .waiting = true) : (l.putOff now delay).Deferred := by
  unfold putOff
  rw [transition_eq h]
  exact ⟨⟨nofun, nofun⟩, .inl rfl, fun _ => rfl⟩

theorem failAll_receivers (l : Loop M) (e : QueueError) :
    (l.failAll e).receivers = [] ∧ (l.failAll e).buckets = .empty := by
  have hf (ms : List M) (l : Loop M) :
      (ms.foldl (fun l m => l.put (.failed m e)) l).receivers = l.receivers ∧
        (ms.foldl (fun l m => l.put (.failed m e)) l).buckets = l.buckets := by
    induction ms generalizing l with
    | nil => exact ⟨rfl, rfl⟩
    | cons m ms ih => exact ih _
  exact hf ..

theorem giveUp_deferred {l : Loop M} (reason : String) (h : l.state.canGo .closed = true) :
    (l.giveUp reason).Deferred := by
  have hs := (l.failAll_rests (.connectFailed (l.backoff.failures.toNat + 1) reason)).state
  obtain ⟨hr, hb⟩ := l.failAll_receivers (.connectFailed (l.backoff.failures.toNat + 1) reason)
  dsimp only [giveUp]
  rw [transition_eq (by rw [hs]; exact h)]
  refine ⟨⟨nofun, fun _ => ⟨hr, ?_, .inr rfl⟩⟩, .inr rfl, nofun⟩
  exact congrArg Buckets.all hb

theorem scheduleRetry_deferred (now : Nat) {l : Loop M} (reason : String)
    (hw : l.state.canGo .waiting = true) (hc : l.state.canGo .closed = true) :
    (l.scheduleRetry now reason).Deferred := by
  dsimp only [scheduleRetry]
  split
  · exact putOff_deferred now _ hw
  · exact putOff_deferred now _ hw
  · exact putOff_deferred now _ hw
  · exact giveUp_deferred _ hc

theorem linkLost_moves (now : Nat) (l : Loop M) (reason : String) :
    l.Moves (l.linkLost now reason) :=
  (l.teardown_moves.put rfl).trans (scheduleRetry_moves ..)

theorem linkLost_deferred (now : Nat) {l : Loop M} (reason : String) (h : l.state = .connected) :
    (l.linkLost now reason).Deferred := by
  have ht : (l.teardown.emit (.disconnect reason)).state = .closing := teardown_state h
  exact scheduleRetry_deferred now reason (by rw [ht]; rfl) (by rw [ht]; rfl)

/-! ### The attempt that is under way -/

/-- The attempts were begun one for each generation, in their order, and `waits`, with those that
began since the log was drained, are those that are under way: the last one while the link is
connecting, and none otherwise. -/
structure Linked (past : List (Output M)) (waits : List Nat) (l : Loop M) : Prop where
  begun : (l.log ++ past).filterMap Output.attempt? = (List.range' 1 l.generation).reverse
  waits : (waits ++ l.log.filterMap Output.attempt?).Perm
    (if l.state = .connecting then [l.generation] else [])
  connecting : l.connecting = if l.state = .connecting then some l.generation else none
  due : l.state = .waiting → l.retryAt.isSome = true
  aborts : .abort ∉ l.log

namespace Moves

variable {l l' : Loop M}

theorem attempts (h : l.Moves l') :
    l'.log.filterMap Output.attempt? = l.log.filterMap Output.attempt? := by
  obtain ⟨es, hl, hes⟩ := h.log
  have hnone : es.filterMap Output.attempt? = [] :=
    List.filterMap_eq_nil_iff.mpr fun e he => Output.attempt?_of_isPlain (hes e he)
  rw [hl, List.filterMap_append, hnone, List.nil_append]

theorem aborts (h : l.Moves l') (ha : .abort ∉ l.log) : .abort ∉ l'.log := by
  obtain ⟨es, hl, hes⟩ := h.log
  rw [hl, List.mem_append]
  rintro (he | he)
  · exact absurd (hes _ he) (by simp [Output.isPlain])
  · exact ha he

end Moves

namespace Linked

variable {past : List (Output M)} {waits : List Nat} {generation : Nat} {l l' : Loop M}

theorem rests (h : l.Linked past waits) (hr : l.Rests l') : l'.Linked past waits where
  begun := by
    rw [List.filterMap_append, hr.attempts, hr.generation, ← List.filterMap_append]
    exact h.begun
  waits := by
    rw [hr.attempts, hr.state, hr.generation]
    exact h.waits
  connecting := by
    rw [hr.connecting, hr.state, hr.generation]
    exact h.connecting
  due := by
    rw [hr.state, hr.retryAt]
    exact h.due
  aborts := hr.aborts h.aborts

/-- The link moves while no attempt is under way. -/
theorem moves (h : l.Linked past waits) (hm : l.Moves l') (hs : l.state ≠ .connecting)
    (hs' : l'.state ≠ .connecting) (hd : l'.state = .waiting → l'.retryAt.isSome = true) :
    l'.Linked past waits where
  begun := by
    rw [List.filterMap_append, hm.attempts, hm.generation, ← List.filterMap_append]
    exact h.begun
  waits := by
    have hw := h.waits
    rw [if_neg hs] at hw
    rw [hm.attempts, if_neg hs']
    exact hw
  connecting := by
    have hc := h.connecting
    rw [if_neg hs] at hc
    rw [hm.connecting, if_neg hs']
    exact hc
  due := hd
  aborts := hm.aborts h.aborts

theorem perm {waits' : List Nat} (h : l.Linked past waits) (hp : waits'.Perm waits) :
    l.Linked past waits' :=
  ⟨h.begun, (hp.append_right _).trans h.waits, h.connecting, h.due, h.aborts⟩

/-- An attempt that tells how it turned out is the one that is under way. -/
theorem under_way (h : l.Linked past (generation :: waits)) :
    l.state = .connecting ∧ generation = l.generation ∧ waits = [] ∧
      l.log.filterMap Output.attempt? = [] := by
  have hw := h.waits
  split at hw
  · next hs =>
    have he := List.perm_singleton.mp hw
    obtain ⟨hg, hrest⟩ := List.cons.inj he
    exact ⟨hs, hg, List.append_eq_nil_iff.mp hrest⟩
  · exact absurd hw.length_eq (by simp)

/-- The link moves when the attempt that was under way has told how it turned out. -/
theorem ended (h : l.Linked past (generation :: waits))
    (hm : Moves { l with connecting := none } l') (hs : l'.state ≠ .connecting)
    (hd : l'.state = .waiting → l'.retryAt.isSome = true) : l'.Linked past waits := by
  obtain ⟨-, -, rfl, hlog⟩ := h.under_way
  refine ⟨?_, ?_, ?_, hd, hm.aborts h.aborts⟩
  · rw [List.filterMap_append, hm.attempts, hm.generation, ← List.filterMap_append]
    exact h.begun
  · rw [hm.attempts, hlog, if_neg hs]
    exact .refl _
  · rw [hm.connecting, if_neg hs]

theorem startConnect_eq (hs : l.state.canGo .connecting = true) :
    l.startConnect = { l with
      state := .connecting
      generation := l.generation + 1
      connecting := some (l.generation + 1)
      log := .attempt (l.generation + 1) :: l.log } := by
  unfold Loop.startConnect
  rw [transition_eq hs]
  rfl

/-- The next attempt begins, whenever it was due. -/
theorem startConnect (h : l.Linked past waits) (hs : l.state.canGo .connecting = true)
    (retryAt : Option Nat) : ({ l with retryAt }.startConnect).Linked past waits ∧
      ({ l with retryAt }.startConnect).state = .connecting := by
  have hn : l.state ≠ .connecting := by
    rintro hc
    rw [hc] at hs
    exact absurd hs (by simp [State.canGo])
  have hw := h.waits
  rw [if_neg hn] at hw
  obtain ⟨rfl, hlog⟩ := List.append_eq_nil_iff.mp (List.perm_nil.mp hw)
  rw [startConnect_eq (l := { l with retryAt }) hs]
  refine ⟨⟨?_, ?_, rfl, nofun, by simpa using h.aborts⟩, rfl⟩
  · have hb : (l.generation + 1) :: (l.log ++ past).filterMap Output.attempt? =
        (List.range' 1 (l.generation + 1)).reverse := by
      rw [h.begun, List.range'_concat, List.reverse_append, Nat.one_mul, Nat.add_comm]
      rfl
    exact hb
  · have hb : ([] ++ (l.generation + 1) :: l.log.filterMap Output.attempt?).Perm
        [l.generation + 1] := by
      rw [hlog]
      exact .refl _
    exact hb

theorem maybeConnect (h : l.Linked past waits) (hs : l.state ≠ .closing) :
    l.maybeConnect.Linked past waits ∧ l.maybeConnect.Settled := by
  have hstart (hc : l.state = .closed) :
      l.startConnect.Linked past waits ∧ l.startConnect.Settled := by
    obtain ⟨hl, hst⟩ := h.startConnect (by rw [hc]; rfl) l.retryAt
    exact ⟨hl, by rw [hst]; nofun, fun hcl => absurd (hst.symm.trans hcl) nofun⟩
  unfold Loop.maybeConnect
  split
  · next hc => exact ⟨h, hs, fun hcl => absurd hcl (by simpa using hc)⟩
  · next hc =>
    have hc : l.state = .closed := by simpa using hc
    split
    · next hwanted =>
      split
      · exact hstart hc
      · next ht =>
        have ht : l.receivers = [] ∧ l.buckets.all = [] := by simpa [hasTraffic] using ht
        exact ⟨h, hs, fun _ => ⟨ht.1, ht.2, by simpa using hwanted⟩⟩
    · exact hstart hc

omit past waits in
theorem maybeConnect_state (h : l.state = .closed) : l.maybeConnect.state ≠ .connected := by
  have hstart : l.startConnect.state ≠ .connected := by
    rw [startConnect_eq (by rw [h]; rfl)]
    nofun
  unfold Loop.maybeConnect
  split
  · simp [h]
  · split
    · split
      · exact hstart
      · simp [h]
    · exact hstart

theorem recycle (h : l.Linked past waits) (hs : l.state = .connected) (reason : String) :
    (l.recycle reason).Linked past waits ∧ (l.recycle reason).Settled := by
  have hm : l.Moves ((l.teardown.transition .closed).2.emit (.disconnect reason)) :=
    (l.teardown_moves.trans (transition_moves ..)).put rfl
  have hst : ((l.teardown.transition .closed).2.emit (.disconnect reason)).state = .closed := by
    rw [transition_eq (by rw [teardown_state hs]; rfl)]
    rfl
  refine maybeConnect (h.moves hm ?_ ?_ ?_) ?_
  · simp [hs]
  · simp [hst]
  · simp [hst]
  · simp [hst]

theorem linkLost (h : l.Linked past waits) (hs : l.state = .connected) (now : Nat)
    (reason : String) : (l.linkLost now reason).Linked past waits := by
  have hd := linkLost_deferred now reason hs
  refine h.moves (linkLost_moves ..) (by simp [hs]) ?_ hd.due
  rcases hd.state with hw | hc
  · simp [hw]
  · simp [hc]

theorem completed (h : l.Linked past waits) (hs : l.state = .connected) :
    l.completed.Linked past waits ∧ l.completed.Settled := by
  have hc : Linked past waits { l with
      processed := l.processed + 1, processedSinceOpen := l.processedSinceOpen + 1 } :=
    h.rests (.of_eq rfl rfl rfl rfl rfl)
  have hsettled : Settled { l with
      processed := l.processed + 1, processedSinceOpen := l.processedSinceOpen + 1 } :=
    ⟨by simp [hs], by simp [hs]⟩
  dsimp only [Loop.completed]
  split
  · split
    · exact hc.recycle hs _
    · exact ⟨hc, hsettled⟩
  · exact ⟨hc, hsettled⟩

end Linked

/-! ### Turns -/

theorem Settled.of_connected {l : Loop M} (h : l.state = .connected) : l.Settled :=
  ⟨by simp [h], by simp [h]⟩

section Turns

variable [Message M]

/-- The link takes no more messages, or there are none. -/
def Served (l : Loop M) : Prop :=
  l.state = .connected → l.buckets.all = [] ∨
    (∃ p ∈ l.receivers, Message.blocking p.message = true) ∨
    ∃ most, l.config.maxOpen = some most ∧ most ≤ l.receivers.length

namespace Linked

variable {past : List (Output M)} {waits : List Nat} {l : Loop M}

theorem gather (h : l.Linked past waits) (hs : l.state ≠ .closing) (backlog : List M) :
    (l.gather backlog).Linked past waits ∧ (l.gather backlog).Settled := by
  have hr := Rests.foldl accept_rests backlog l
  exact (h.rests hr).maybeConnect (by rw [hr.state]; exact hs)

theorem follow (h : l.Linked past waits) (hs : l.state = .connected) (now : Nat) (m : M)
    (before after : List (Pending M)) (answer : Except QueueError RecvDirective) :
    (l.follow now m before after answer).Linked past waits ∧
      (l.follow now m before after answer).Settled := by
  have hrests {l' : Loop M} (hr : l.Rests l') : l'.Linked past waits ∧ l'.Settled :=
    ⟨h.rests hr, .of_connected (hr.state.trans hs)⟩
  dsimp only [Loop.follow]
  split
  · exact (h.rests (.put (.refl l) rfl)).completed hs
  · have hb := (Rests.refl l).ask m .blocking
    split
    · exact hrests (hb.trans (pushFront_rests ..))
    · exact hrests (hb.trans (pushBack_rests ..))
  · exact hrests (((Rests.refl l).ask m .timeout).trans (.of_eq rfl rfl rfl rfl rfl))
  · exact (h.rests (((Rests.refl l).ask m .describe).put rfl)).recycle hs _

theorem route (h : l.Linked past waits) (hs : l.state = .connected) (now : Nat) (data : Bytes) :
    (l.route now data).Linked past waits ∧ (l.route now data).Settled := by
  have hcount : l.Rests { l with received := l.received + 1 } := .of_eq rfl rfl rfl rfl rfl
  have ho := hcount.trans (.of_asks (offer_asks data l.receivers { l with
    received := l.received + 1 }))
  dsimp only [Loop.route]
  split
  · next l₁ all hoff =>
    rw [hoff] at ho
    have hall : l.Rests { l₁ with receivers := all } := ho.trans (.of_eq rfl rfl rfl rfl rfl)
    have hr : l.Rests ({ l₁ with receivers := all }.emit (.unrouted data)) := hall.put rfl
    exact ⟨h.rests hr, .of_connected (hr.state.trans hs)⟩
  · next l₁ before p answer after hoff =>
    rw [hoff] at ho
    have hr : l.Rests { l₁ with receivers := before ++ after } :=
      ho.trans (.of_eq rfl rfl rfl rfl rfl)
    exact (h.rests hr).follow (hr.state.trans hs) ..

theorem afterSend (h : l.Linked past waits) (hs : l.state = .connected) (now : Nat) (c : Traffic)
    (m : M) (d : SendDirective) :
    (l.afterSend now c m d).Linked past waits ∧ (l.afterSend now c m d).Settled := by
  cases d with
  | done => exact (h.rests (.put (.refl l) rfl)).completed hs
  | sendAgain =>
    have hr : l.Rests (l.afterSend now c m .sendAgain) :=
      ((Rests.refl l).ask m .describe).trans (.of_eq rfl rfl rfl rfl rfl)
    exact ⟨h.rests hr, .of_connected (hr.state.trans hs)⟩
  | recvAgain =>
    have hr := await_rests now l m
    exact ⟨h.rests hr, .of_connected (hr.state.trans hs)⟩

/-- A message is written; if no other one can follow the link is not open any more. -/
theorem sendOne (h : l.Linked past waits) (hs : l.state = .connected) (now : Nat) (c : Traffic)
    (m : M) : (l.sendOne now c m).2.Linked past waits ∧ (l.sendOne now c m).2.Settled ∧
      ((l.sendOne now c m).1 = false → (l.sendOne now c m).2.state ≠ .connected) := by
  have ha := (Rests.refl l).ask m .send
  dsimp only [Loop.sendOne]
  split
  · next m' e _ =>
    have hr : l.Rests (((l.ask m .send).ask m' .describe).put (.failed m' e)) :=
      (ha.ask m' .describe).put rfl
    exact ⟨h.rests hr, .of_connected (hr.state.trans hs), nofun⟩
  · next m' frames d _ =>
    have hw := ha.trans (write_rests (l.ask m .send) frames)
    split
    · next e l₁ hwrite =>
      rw [hwrite] at hw
      have hr : l.Rests { l₁ with buckets := l₁.buckets.pushFront c m' } :=
        hw.trans (.of_eq rfl rfl rfl rfl rfl)
      have hd := linkLost_deferred now e.text (hr.state.trans hs)
      refine ⟨(h.rests hr).linkLost (hr.state.trans hs) .., hd.settled, fun _ hc => ?_⟩
      rcases hd.state with hst | hst
      · exact absurd (hst.symm.trans hc) nofun
      · exact absurd (hst.symm.trans hc) nofun
    · next l₁ hwrite =>
      rw [hwrite] at hw
      have hr : l.Rests { l₁ with sent := l₁.sent + 1 } := hw.trans (.of_eq rfl rfl rfl rfl rfl)
      obtain ⟨hl, hst⟩ := (h.rests hr).afterSend (hr.state.trans hs) now c m' d
      exact ⟨hl, hst, nofun⟩

/-- A message is written, or the link takes none. -/
theorem round (h : l.Linked past waits) (hs : l.Settled) (now : Nat) :
    (l.round now).2.Linked past waits ∧ (l.round now).2.Settled ∧
      ((l.round now).1 = false → (l.round now).2.Served) := by
  have ha := anyBlocking_asks l.receivers l
  have hb := anyBlocking_fst l.receivers l
  unfold Loop.round
  split
  · next hc => exact ⟨h, hs, fun _ hst => absurd hst (by simpa using hc)⟩
  · next hc =>
    have hc : l.state = .connected := by simpa using hc
    generalize anyBlocking l.receivers l = r at ha hb
    obtain ⟨blocked, l₁⟩ := r
    obtain ⟨es, rfl, hes⟩ := ha
    have hr : l.Rests { l with log := es ++ l.log } := .of_asks ⟨es, rfl, hes⟩
    have hst : Settled { l with log := es ++ l.log } := .of_connected hc
    cases blocked with
    | true =>
      obtain ⟨p, hp, hblock⟩ := List.any_eq_true.mp hb.symm
      exact ⟨h.rests hr, hst, fun _ _ => .inr (.inl ⟨p, hp, hblock⟩)⟩
    | false =>
      dsimp only
      split
      · next hopen =>
        obtain ⟨most, hm, hle⟩ := (Option.any_eq_true _ _).mp hopen
        exact ⟨h.rests hr, hst, fun _ _ => .inr (.inr ⟨most, hm, by simpa using hle⟩)⟩
      · split
        · next hpop =>
          exact ⟨h.rests hr, hst, fun _ _ => .inl (Buckets.all_eq_nil_of_pop hpop)⟩
        · next c m b hpop =>
          have hrest : l.Rests { l with log := es ++ l.log, buckets := b } :=
            hr.trans (.of_eq rfl rfl rfl rfl rfl)
          obtain ⟨hl, hset, hgone⟩ := (h.rests hrest).sendOne hc now c m
          exact ⟨hl, hset, fun hf hst => absurd hst (hgone hf)⟩

theorem connected {generation : Nat} (h : l.Linked past (generation :: waits)) (now : Nat) :
    (l.onControl now (.connected generation)).Linked past waits ∧
      (l.onControl now (.connected generation)).Settled := by
  obtain ⟨hs, rfl, -, -⟩ := h.under_way
  have hopen := opened_state l.generation hs
  have hr := retryPending_rests now (l.opened l.generation)
  have hl := h.ended (opened_moves l l.generation) (by simp [hopen]) (by simp [hopen])
  dsimp only [Loop.onControl]
  rw [if_neg (by simp [hs])]
  exact ⟨hl.rests hr, .of_connected (hr.state.trans hopen)⟩

theorem connectFailed {generation : Nat} (h : l.Linked past (generation :: waits)) (now : Nat)
    (reason : String) : (l.onControl now (.connectFailed generation reason)).Linked past waits ∧
      (l.onControl now (.connectFailed generation reason)).Settled := by
  obtain ⟨hs, rfl, -, -⟩ := h.under_way
  have hput : Moves { l with connecting := none }
      ({ l with connecting := none }.emit (.error reason)) := (Moves.refl _).put rfl
  have hm := hput.trans (scheduleRetry_moves now _ reason)
  have hst :
      State.canGo ({ l with connecting := none }.emit (.error reason)).state .waiting = true ∧
      State.canGo ({ l with connecting := none }.emit (.error reason)).state .closed = true := by
    simp [Loop.emit, Loop.put, hs, State.canGo]
  have hd := scheduleRetry_deferred now reason hst.1 hst.2
  dsimp only [Loop.onControl]
  rw [if_pos (by simp [hs])]
  refine ⟨h.ended hm ?_ hd.due, hd.settled⟩
  rcases hd.state with hw | hc
  · simp [hw]
  · simp [hc]

/-- An item for the control of the link is handled. -/
theorem onControl {item : Control} (h : l.Linked past (item.verdict?.toList ++ waits))
    (hs : l.state ≠ .closing) (now : Nat) : (l.onControl now item).Linked past waits ∧
      (l.onControl now item).state ≠ .closing := by
  cases item with
  | incoming generation data =>
    dsimp only [Loop.onControl]
    split
    · exact ⟨h, hs⟩
    · next hc =>
      obtain ⟨hl, hst⟩ := route h (by simp_all) now data
      exact ⟨hl, hst.state⟩
  | lost generation reason =>
    dsimp only [Loop.onControl]
    split
    · next hc =>
      have hc : l.state = .connected := by simp_all
      exact ⟨linkLost h hc now reason, (linkLost_deferred now reason hc).settled.state⟩
    · exact ⟨h, hs⟩
  | connected generation =>
    obtain ⟨hl, hst⟩ := connected h now
    exact ⟨hl, hst.state⟩
  | connectFailed generation reason =>
    obtain ⟨hl, hst⟩ := connectFailed h now reason
    exact ⟨hl, hst.state⟩
  | reopen =>
    dsimp only [Loop.onControl]
    split
    · next hc =>
      obtain ⟨hl, hst⟩ := recycle h (by simpa using hc) "reopen requested"
      exact ⟨hl, hst.state⟩
    · exact ⟨h, hs⟩
  | close => exact ⟨h, hs⟩

theorem expire (h : l.Linked past waits) (hs : l.state ≠ .closing) (now : Nat) :
    (l.expire now).Linked past waits ∧ (l.expire now).state ≠ .closing := by
  have hlate : l.Rests { l with receivers := l.receivers.filter fun p => !isLate now p } :=
    .of_eq rfl rfl rfl rfl rfl
  have hr := hlate.trans (.foldl failLate_rests (l.receivers.filter (isLate now)) _)
  dsimp only [Loop.expire]
  split
  · exact ⟨h, hs⟩
  · split
    · next hc =>
      obtain ⟨hl, hst⟩ := (h.rests hr).recycle (by simpa using hc) "reply timeout"
      exact ⟨hl, hst.state⟩
    · exact ⟨h.rests hr, by rw [hr.state]; exact hs⟩

theorem onTimer (h : l.Linked past waits) (hs : l.state ≠ .closing) (now : Nat) :
    (l.onTimer now).Linked past waits ∧ (l.onTimer now).state ≠ .closing := by
  dsimp only [Loop.onTimer]
  split
  · next hdue =>
    have hw : l.state = .waiting := by simp_all
    obtain ⟨hl, hst⟩ := h.startConnect (by rw [hw]; rfl) none
    exact hl.expire (by simp [hst]) now
  · exact h.expire hs now

theorem handle {input : Input M} (h : l.Linked past (input.verdicts ++ waits))
    (hs : l.state ≠ .closing) (now : Nat) : (l.handle now input).Linked past waits ∧
      (l.handle now input).state ≠ .closing := by
  cases input with
  | control item => exact onControl h hs now
  | traffic m =>
    have hr := accept_rests l m
    exact ⟨rests h hr, by rw [Loop.handle, hr.state]; exact hs⟩
  | timer => exact onTimer h hs now
  | abandoned => exact ⟨h, hs⟩

end Linked

end Turns

end Loop

end Hearth.Link
