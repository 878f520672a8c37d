import Hearth.Proofs.Link.Course

/-!
# What is no step of a message

A loop moves its link, takes messages from the channel, and fails all messages at once, without that
a single message takes a step: none is written, none begins to wait, and none is done
(`Loop.Settles`). One way to move the link is to reopen the transport (`Loop.Reopens`): it is
closed, and the next attempt begins at once, or as soon as there are messages.

## Main definitions

* `Output.isQuiet`, `Loop.Settles` : what neither writes a message, nor lets one wait, nor ends the
  wait of a single one.
* `Loop.Reopens` : the transport is reopened.

## Main results

* `Loop.Settles.shutdown` : a loop that stops.
* `Loop.recycle_reopens` : the link is recycled.
-/

namespace Hearth.Link

variable {M : Type}

/-- Is an output no step of a message? It is not asked to write, to take data, to go on or how long
it waits, not completed, and not failed for being late; and nothing is written or published. -/
def Output.isQuiet : Output M → Bool
  | .asked _ .send => false
  | .asked _ (.recv _) => false
  | .asked _ .retry => false
  | .asked _ .timeout => false
  | .wrote .. => false
  | .writeFailed .. => false
  | .retried .. => false
  | .done _ => false
  | .failed _ e => e != .timeout
  | .published _ => false
  | _ => true

namespace Loop

/-! ### What is no step of a message -/

/-- `l'` comes from `l` by moving the link, and by taking messages of a list: no message is written,
and none begins to wait. All messages may be failed, but not for being late. No transport is
opened. -/
structure Settles (taken : List M) (l l' : Loop M) : Prop where
  config : l'.config = l.config
  receivers : l'.receivers ⊆ l.receivers
  buckets : ∀ m ∈ l'.buckets.all, m ∈ l.buckets.all ∨ m ∈ taken
  sent : l'.sent = l.sent
  processed : l'.processed = l.processed
  processedSinceOpen : l'.processedSinceOpen = l.processedSinceOpen
  generation : l.generation ≤ l'.generation
  connected : l'.state = .connected → l.state = .connected ∧ l'.generation = l.generation
  connecting : l'.state = .connecting → l'.generation = l.generation → l.state = .connecting
  log : ∃ es, l'.log = es ++ l.log ∧ ∀ e ∈ es, e.isQuiet = true

namespace Settles

variable {taken : List M} {l l' l₁ l₂ l₃ : Loop M}

theorem of_eq (h : (l'.config, l'.receivers, l'.buckets, l'.sent, l'.processed,
    l'.processedSinceOpen, l'.generation, l'.state, l'.log) = (l.config, l.receivers, l.buckets,
      l.sent, l.processed, l.processedSinceOpen, l.generation, l.state, l.log)) :
    l.Settles taken l' := by
  simp only [Prod.mk.injEq] at h
  obtain ⟨hconfig, hreceivers, hbuckets, hsent, hprocessed, hsince, hgeneration, hstate, hlog⟩ := h
  refine ⟨hconfig, ?_, fun m hm => .inl (hbuckets ▸ hm), hsent, hprocessed, hsince, ?_, ?_, ?_, [],
    hlog, by simp⟩
  · rw [hreceivers]
    exact List.Subset.refl _
  · exact Nat.le_of_eq hgeneration.symm
  · exact fun hs => ⟨hstate.symm.trans hs, hgeneration⟩
  · exact fun hs _ => hstate.symm.trans hs

theorem refl (taken : List M) (l : Loop M) : l.Settles taken l := .of_eq rfl

theorem trans (h₁ : l₁.Settles taken l₂) (h₂ : l₂.Settles taken l₃) : l₁.Settles taken l₃ := by
  obtain ⟨es₁, he₁, hn₁⟩ := h₁.log
  obtain ⟨es₂, he₂, hn₂⟩ := h₂.log
  have hg₁ := h₁.generation
  have hg₂ := h₂.generation
  refine ⟨h₂.config.trans h₁.config, fun p hp => h₁.receivers (h₂.receivers hp), fun m hm => ?_,
    h₂.sent.trans h₁.sent, h₂.processed.trans h₁.processed,
    h₂.processedSinceOpen.trans h₁.processedSinceOpen, Nat.le_trans hg₁ hg₂, fun hs => ?_,
    fun hs hg => ?_, es₂ ++ es₁, ?_, fun e he => ?_⟩
  · exact (h₂.buckets m hm).elim (h₁.buckets m) .inr
  · obtain ⟨hs₂, he⟩ := h₂.connected hs
    obtain ⟨hs₁, he'⟩ := h₁.connected hs₂
    exact ⟨hs₁, he.trans he'⟩
  · exact h₁.connecting (h₂.connecting hs (by omega)) (by omega)
  · rw [he₂, he₁, List.append_assoc]
  · rcases List.mem_append.mp he with he | he
    · exact hn₂ e he
    · exact hn₁ e he

theorem outputs (h : l.Settles taken l₁) (hl : ∃ es, l₂ = { l₁ with log := es ++ l₁.log } ∧
    ∀ e ∈ es, e.isQuiet = true) : l.Settles taken l₂ := by
  obtain ⟨es, rfl, hes⟩ := hl
  exact h.trans ⟨rfl, List.Subset.refl _, fun m hm => .inl hm, rfl, rfl, rfl, Nat.le_refl _,
    fun hs => ⟨hs, rfl⟩, fun hs _ => hs, es, rfl, hes⟩

theorem put (h : l.Settles taken l') {o : Output M} (ho : o.isQuiet = true) :
    l.Settles taken (l'.put o) :=
  h.outputs ⟨[o], rfl, by simpa using ho⟩

theorem startConnect (hs : l.state.canGo .connecting = true) :
    l.Settles taken l.startConnect := by
  rw [Linked.startConnect_eq hs]
  exact ⟨rfl, List.Subset.refl _, fun m hm => .inl hm, rfl, rfl, rfl, Nat.le_succ _, nofun,
    fun _ hg => absurd hg (Nat.succ_ne_self _), [.attempt _], rfl, by simp [Output.isQuiet]⟩

theorem maybeConnect (l : Loop M) : l.Settles taken l.maybeConnect := by
  rcases l.maybeConnect_cases with heq | ⟨hs, -, heq⟩
  · rw [heq]
    exact .refl taken l
  · rw [heq]
    exact startConnect (by rw [hs]; rfl)

/-- A link that was closed is not open, nor about to be. -/
theorem disconnected (l : Loop M) {state : State} (hs : state = .closing ∨ state = .closed)
    (reason : String) : l.Settles taken (l.disconnected state reason) := by
  have hcon : state ≠ .connected := by rcases hs with rfl | rfl <;> nofun
  have hcng : state ≠ .connecting := by rcases hs with rfl | rfl <;> nofun
  refine ⟨rfl, List.Subset.refl _, fun m hm => .inl hm, rfl, rfl, rfl, Nat.le_refl _,
    fun hs => absurd hs hcon, fun hs => absurd hs hcng,
    .notice (.disconnect reason) :: l.conn.toList.map .closed, rfl, fun e he => ?_⟩
  simp only [List.mem_cons, List.mem_map] at he
  rcases he with rfl | ⟨g, -, rfl⟩
  · rfl
  · rfl

theorem recycle (hs : l.state = .connected) (reason : String) :
    l.Settles taken (l.recycle reason) := by
  rw [recycle_eq hs]
  exact (disconnected l (.inr rfl) reason).trans (maybeConnect _)

theorem failAll (l : Loop M) {e : QueueError} (he : e ≠ .timeout) :
    l.Settles taken (l.failAll e) := by
  rw [failAll_eq]
  refine ⟨rfl, List.nil_subset _, fun m hm => absurd hm (by simp [Buckets.all, Buckets.empty]), rfl,
    rfl, rfl, Nat.le_refl _, fun hs => ⟨hs, rfl⟩, fun hs _ => hs, _, rfl, fun o ho => ?_⟩
  obtain ⟨m, -, rfl⟩ := List.mem_map.mp (List.mem_reverse.mp ho)
  simpa [Output.isQuiet] using he

theorem scheduleRetry (now : Nat) (reason : String) (hw : l.state.canGo .waiting = true)
    (hc : l.state.canGo .closed = true) : l.Settles taken (l.scheduleRetry now reason) := by
  rcases scheduleRetry_outcome now l reason hw hc with ⟨-, due, heq⟩ | ⟨-, heq⟩
  · rw [heq]
    exact ⟨rfl, List.Subset.refl _, fun m hm => .inl hm, rfl, rfl, rfl, Nat.le_refl _, nofun, nofun,
      [], rfl, by simp⟩
  · have hf : l.Settles taken (l.failAll (.connectFailed (l.backoff.failures.toNat + 1) reason)) :=
      failAll l nofun
    rw [failAll_eq] at hf
    rw [heq]
    exact ⟨rfl, hf.receivers, hf.buckets, rfl, rfl, rfl, Nat.le_refl _, nofun, nofun, hf.log⟩

theorem linkLost (hs : l.state = .connected) (now : Nat) (reason : String) :
    l.Settles taken (l.linkLost now reason) := by
  rw [linkLost_eq hs]
  exact (disconnected l (.inl rfl) reason).trans (scheduleRetry now reason rfl rfl)

theorem abort (l : Loop M) : l.Settles taken l.abort := by
  unfold Loop.abort
  split
  · exact .put (o := .abort) (.of_eq (by rfl)) rfl
  · exact .refl taken l

theorem hangUp (l : Loop M) : l.Settles taken l.hangUp := by
  rw [hangUp_eq]
  refine ⟨rfl, List.Subset.refl _, fun m hm => .inl hm, rfl, rfl, rfl, Nat.le_refl _, nofun, nofun,
    _, rfl, fun e he => ?_⟩
  split at he
  · obtain ⟨g, -, rfl⟩ := List.mem_map.mp he
    rfl
  · simp at he

variable [Message M]

theorem accept (l : Loop M) {m : M} (hm : m ∈ taken) : l.Settles taken (l.accept m) := by
  refine ⟨rfl, List.Subset.refl _, fun m' hm' => ?_, rfl, rfl, rfl, Nat.le_refl _,
    fun hs => ⟨hs, rfl⟩, fun hs _ => hs, [.asked m .traffic, .asked m .describe], rfl,
    by simp [Output.isQuiet]⟩
  rcases List.mem_cons.mp ((Buckets.all_pushBack ..).mem_iff.mp hm') with rfl | hm'
  · exact .inr hm
  · exact .inl hm'

theorem acceptMany (l : Loop M) {ms : List M} (hms : ms ⊆ taken) :
    l.Settles taken (ms.foldl Loop.accept l) := by
  induction ms generalizing l with
  | nil => exact .refl taken l
  | cons m ms ih =>
    obtain ⟨hm, hms⟩ := List.cons_subset.mp hms
    exact (accept l hm).trans (ih _ hms)

theorem gather (taken : List M) (l : Loop M) : l.Settles taken (l.gather taken) :=
  (acceptMany l (List.Subset.refl _)).trans (maybeConnect _)

/-- A loop that stops takes all messages, and fails them. -/
theorem shutdown (taken : List M) (l : Loop M) : l.Settles taken (l.shutdown taken) :=
  (((abort l).trans (acceptMany _ (List.Subset.refl _))).trans
    (failAll _ (e := .closed) nofun)).trans (hangUp _)

end Settles

/-! ### Reopening the transport -/

section Reopening

variable {l l' l₁ : Loop M}

/-- A link that is closed is opened, unless there are no messages. -/
theorem maybeConnect_or_idle (hs : l.state = .closed) :
    l.maybeConnect = l.startConnect ∨ l.maybeConnect = l ∧ l.hasTraffic = false := by
  unfold maybeConnect
  rw [if_neg (by simp [hs])]
  split
  · split
    · exact .inl rfl
    · next ht => exact .inr ⟨rfl, by simpa using ht⟩
  · exact .inl rfl

variable [Message M]

/-- New messages open a link that is closed. -/
theorem gather_connects (hs : l.state = .closed) {ms : List M} (hms : ms ≠ []) :
    (l.gather ms).state = .connecting := by
  have hclosed : (ms.foldl accept l).state = .closed :=
    (Rests.foldl accept_rests ms l).state.trans hs
  have htraffic : (ms.foldl accept l).hasTraffic = true := by
    obtain ⟨ms, m, rfl⟩ := (List.eq_nil_or_concat ms).resolve_left hms
    have hp := Buckets.all_pushBack (ms.foldl accept l).buckets (Message.traffic m) m
    have hne : ((ms.foldl accept l).buckets.pushBack (Message.traffic m) m).all ≠ [] :=
      fun hnil => by simp [hnil] at hp
    rw [List.concat_eq_append, List.foldl_append]
    simpa [hasTraffic, accept, pushBack, ask, put] using .inr hne
  have hstart : (ms.foldl accept l).maybeConnect = (ms.foldl accept l).startConnect := by
    refine (maybeConnect_or_idle hclosed).resolve_right fun h => ?_
    exact absurd (h.2.symm.trans htraffic) Bool.false_ne_true
  rw [gather, hstart, Linked.startConnect_eq (by rw [hclosed]; rfl)]

/-- The transport of a generation is reopened for a reason: how `l'` comes from `l`, and what is
done to the outside, newest first. No time is waited. -/
inductive Reopens (reason : String) (g : Nat) (l l' : Loop M) : List (Output M) → Prop
  /-- The transport is closed, and the next attempt begins. -/
  | atOnce (state : l'.state = .connecting) (backoff : l'.backoff = l.backoff) :
      Reopens reason g l l' [.attempt (g + 1), .notice (.disconnect reason), .closed g]
  /-- The transport is closed, and the next attempt begins as soon as there are messages. -/
  | onDemand (state : l'.state = .closed) (backoff : l'.backoff = l.backoff)
      (idle : l'.hasTraffic = false)
      (wanted : ∀ ms, ms ≠ [] → (l'.gather ms).state = .connecting) :
      Reopens reason g l l' [.notice (.disconnect reason), .closed g]

/-- What is neither about the link nor about the messages does not matter. -/
theorem Reopens.congr {reason : String} {g : Nat} {l₂ l₃ : Loop M} {es : List (Output M)}
    (h : l₁.Reopens reason g l₂ es) (hb : l₁.backoff = l.backoff)
    (heq : (l₃.state, l₃.backoff, l₃.hasTraffic) = (l₂.state, l₂.backoff, l₂.hasTraffic)) :
    l.Reopens reason g l₃ es := by
  simp only [Prod.mk.injEq] at heq
  obtain ⟨hstate, hbackoff, htraffic⟩ := heq
  cases h with
  | atOnce state backoff => exact .atOnce (hstate.trans state) ((hbackoff.trans backoff).trans hb)
  | onDemand state backoff idle wanted =>
    exact .onDemand (hstate.trans state) ((hbackoff.trans backoff).trans hb) (htraffic.trans idle)
      fun ms => gather_connects (hstate.trans state)

theorem recycle_reopens (hs : l.state = .connected) (hconn : l.conn = some l.generation)
    (reason : String) : ∃ es, (l.recycle reason).log = es ++ l.log ∧
      l.Reopens reason l.generation (l.recycle reason) es := by
  have hclosed : (l.disconnected .closed reason).log =
      [.notice (.disconnect reason), .closed l.generation] ++ l.log := by
    rw [disconnected, hconn]
    rfl
  rw [recycle_eq hs]
  rcases maybeConnect_or_idle (l := l.disconnected .closed reason) rfl with
    hstart | ⟨hstay, hidle⟩
  · rw [hstart, Linked.startConnect_eq rfl, hclosed]
    exact ⟨_, rfl, .atOnce rfl rfl⟩
  · rw [hstay]
    exact ⟨_, hclosed, .onDemand rfl rfl hidle fun ms => gather_connects rfl⟩

end Reopening

end Loop

end Hearth.Link
