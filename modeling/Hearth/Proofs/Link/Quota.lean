import Hearth.Proofs.Link.Coherence
import Hearth.Proofs.Link.Endings
import Hearth.Proofs.Link.Writings

/-!
# How many messages a transport serves

A queue can be told to reopen its transport after a number of completed messages. Then no transport
completes more than that number, or more than one if the number is zero: with the last message that
it may complete the transport is closed, before anything else is written or offered, and another one
is wanted at once. The numbers that a queue publishes are those of the messages that were completed
and written in all.

## Main definitions

* `completions` : how many messages a transport completed, read off a history.
* `Loop.Metered` : the counters of a loop agree with its history.
* `Loop.Completes` : a message is completed, and the transport is reopened if it was the last one.

## Main results

* `Loop.Deed.metered` : every deed keeps the counters right.
* `Station.quota_kept` : the counters and the limit, throughout a run.
-/

namespace Hearth.Link

variable {M : Type}

/-- Was a message completed? -/
def Output.isDone : Output M → Bool
  | .done _ => true
  | _ => false

/-- Is a message completed, or a status published? -/
def Output.isMark : Output M → Bool
  | .done _ => true
  | .published _ => true
  | _ => false

/-- How many messages were completed in a history, newest output first, while the transport of a
generation was open. -/
def completions (g : Nat) : List (Output M) → Nat
  | [] => 0
  | .done _ :: past => completions g past + if openTransport past = some g then 1 else 0
  | _ :: past => completions g past

theorem Output.not_isMark_of_isQuiet {o : Output M} (h : o.isQuiet = true) :
    o.isMark = false := by
  unfold isQuiet at h
  split at h <;> simp_all [isMark]

theorem not_isMark_of_mem_through {generation : Nat} {m : M} {frames : List Bytes} {o : Output M}
    (ho : o ∈ through generation m frames) : o.isMark = false := by
  rcases mem_through ho with ⟨frame, -, rfl⟩ | rfl
  · rfl
  · rfl

section Marks

variable {es : List (Output M)} (hes : ∀ e ∈ es, e.isMark = false) (past : List (Output M))

include hes

theorem countP_isDone_append : (es ++ past).countP Output.isDone = past.countP Output.isDone := by
  have hnone : es.countP Output.isDone = 0 := by
    rw [List.countP_eq_zero]
    intro e he hd
    have h := hes e he
    cases e <;> simp_all [Output.isMark, Output.isDone]
  rw [List.countP_append, hnone, Nat.zero_add]

theorem completions_append (g : Nat) : completions g (es ++ past) = completions g past := by
  induction es with
  | nil => rfl
  | cons e es ih =>
    obtain ⟨he, hes⟩ := List.forall_mem_cons.mp hes
    rw [← ih hes, List.cons_append]
    cases e <;> simp_all [Output.isMark, completions]

end Marks

namespace Loop

/-! ### What is counted -/

/-- The counters of a loop agree with its history, and no transport completed too many messages. -/
structure Metered [Message M] (most : Nat) (past : List (Output M)) (l : Loop M) : Prop where
  config : l.config.maxSend = some most
  processed : l.processed = (l.log ++ past).countP Output.isDone
  sent : l.sent = (writings (l.log ++ past)).length
  /-- The messages that the open transport completed are those counted since it was opened. -/
  since : l.state = .connected →
    completions l.generation (l.log ++ past) = l.processedSinceOpen
  /-- A transport that is not open yet completed nothing. -/
  opening : l.state = .connecting → completions l.generation (l.log ++ past) = 0
  unborn : ∀ g, l.generation < g → completions g (l.log ++ past) = 0
  limit : ∀ g, completions g (l.log ++ past) ≤ max 1 most
  published : ∀ st earlier, .published st :: earlier <:+ l.log ++ past →
    st.processed = earlier.countP Output.isDone ∧ st.sent = (writings earlier).length

/-- The open transport may complete another message. -/
def Roomy (most : Nat) (l : Loop M) : Prop :=
  l.state = .connected → l.processedSinceOpen < max 1 most

theorem Settles.roomy {most : Nat} {taken : List M} {l l' : Loop M} (h : l.Settles taken l')
    (hr : l.Roomy most) : l'.Roomy most := by
  intro hs
  rw [h.processedSinceOpen]
  exact hr (h.connected hs).1

section Meters

variable [Message M] {most : Nat} {past : List (Output M)} {l l' l₁ : Loop M}

/-- Nothing is completed, and the link moves on. -/
theorem Metered.pass (h : l.Metered most past) {es : List (Output M)} (hlog : l'.log = es ++ l.log)
    (hes : ∀ e ∈ es, e.isMark = false)
    (hsent : l'.sent = (writings (es ++ (l.log ++ past))).length)
    (hconfig : l'.config = l.config) (hprocessed : l'.processed = l.processed)
    (hg : l.generation ≤ l'.generation)
    (hsince : l'.state = .connected →
      completions l'.generation (l.log ++ past) = l'.processedSinceOpen)
    (hopening : l'.state = .connecting → completions l'.generation (l.log ++ past) = 0) :
    l'.Metered most past := by
  have hpast : l'.log ++ past = es ++ (l.log ++ past) := by rw [hlog, List.append_assoc]
  constructor
  case config => rw [hconfig, h.config]
  case processed => rw [hpast, countP_isDone_append hes, hprocessed, h.processed]
  case sent => rw [hpast, hsent]
  case since =>
    intro hs
    rw [hpast, completions_append hes]
    exact hsince hs
  case opening =>
    intro hs
    rw [hpast, completions_append hes]
    exact hopening hs
  case unborn =>
    intro g hlt
    rw [hpast, completions_append hes]
    exact h.unborn g (Nat.lt_of_le_of_lt hg hlt)
  case limit =>
    intro g
    rw [hpast, completions_append hes]
    exact h.limit g
  case published =>
    intro st earlier hs
    rw [hpast] at hs
    refine h.published st earlier (suffix_of_not_mem hs fun hm => ?_)
    exact absurd (hes _ hm) (by simp [Output.isMark])

theorem Metered.sent_append (h : l.Metered most past) {es : List (Output M)}
    (hes : ∀ e ∈ es, e.isWriting = false) :
    l.sent = (writings (es ++ (l.log ++ past))).length := by
  rw [writings_append hes, h.sent]

theorem Metered.settles {taken : List M} (h : l.Metered most past) (hs : l.Settles taken l') :
    l'.Metered most past := by
  obtain ⟨es, hlog, hes⟩ := hs.log
  refine h.pass hlog (fun e he => Output.not_isMark_of_isQuiet (hes e he)) ?_ hs.config
    hs.processed hs.generation (fun hst => ?_) (fun hst => ?_)
  · rw [hs.sent]
    exact h.sent_append fun e he => Output.not_isWriting_of_isQuiet (hes e he)
  · obtain ⟨hst, hg⟩ := hs.connected hst
    rw [hg, hs.processedSinceOpen, h.since hst]
  · rcases Nat.lt_or_eq_of_le hs.generation with hlt | hg
    · exact h.unborn _ hlt
    · rw [← hg]
      exact h.opening (hs.connecting hst hg.symm)

/-- The link stays where it is, and nothing is completed. -/
theorem Metered.of_eq (h : l.Metered most past) (es : List (Output M)) (hlog : l'.log = es ++ l.log)
    (hes : ∀ e ∈ es, e.isMark = false)
    (hsent : l'.sent = (writings (es ++ (l.log ++ past))).length)
    (heq : (l'.config, l'.processed, l'.processedSinceOpen, l'.generation, l'.state) =
      (l.config, l.processed, l.processedSinceOpen, l.generation, l.state)) :
    l'.Metered most past := by
  simp only [Prod.mk.injEq] at heq
  obtain ⟨hconfig, hprocessed, hsince, hgeneration, hstate⟩ := heq
  refine h.pass hlog hes hsent hconfig hprocessed (Nat.le_of_eq hgeneration.symm)
    (fun hs => ?_) (fun hs => ?_)
  · rw [hgeneration, hsince, h.since (hstate ▸ hs)]
  · rw [hgeneration]
    exact h.opening (hstate ▸ hs)

theorem Metered.drain (h : l.Metered most past) :
    Metered most (l.log ++ past) { l with log := [] } :=
  ⟨h.config, h.processed, h.sent, h.since, h.opening, h.unborn, h.limit, h.published⟩

theorem Metered.publish (h : l.Metered most past) : l.publish.Metered most past := by
  have hpast : l.publish.log ++ past = .published l.snapshot :: (l.log ++ past) := rfl
  constructor
  case config => exact h.config
  case processed => exact h.processed
  case sent => exact h.sent.trans (congrArg List.length (writings_cons rfl _)).symm
  case since => exact h.since
  case opening => exact h.opening
  case unborn => exact h.unborn
  case limit => exact h.limit
  case published =>
    intro st earlier hs
    rcases List.suffix_cons_iff.mp (hpast ▸ hs) with heq | hs
    · obtain ⟨hst, rfl⟩ := List.cons.inj heq
      obtain rfl : st = l.snapshot := Output.published.inj hst
      exact ⟨h.processed, h.sent⟩
    · exact h.published st earlier hs

/-- The message that is completed is counted for the transport that is open. -/
theorem Metered.counted (h : l.Metered most past) (hr : l.Roomy most) (hs : l.state = .connected)
    (ho : openTransport (l.log ++ past) = some l.generation) (m : M) :
    (l.put (.done m)).counted.Metered most past := by
  have hcount (g : Nat) : completions g ((l.put (.done m)).log ++ past) =
      completions g (l.log ++ past) + if l.generation = g then 1 else 0 := by
    simp [put, completions, ho]
  constructor
  case config => exact h.config
  case processed =>
    change l.processed + 1 = (.done m :: (l.log ++ past)).countP Output.isDone
    rw [List.countP_cons_of_pos rfl, h.processed]
  case sent => exact h.sent.trans (congrArg List.length (writings_cons rfl _)).symm
  case since =>
    intro _
    refine (hcount l.generation).trans ?_
    rw [h.since hs, if_pos rfl]
    rfl
  case opening => exact fun hc => by cases hs.symm.trans hc
  case unborn =>
    intro g hlt
    refine (hcount g).trans ?_
    rw [h.unborn g hlt, if_neg (by exact Nat.ne_of_lt hlt)]
  case limit =>
    intro g
    refine Nat.le_trans (Nat.le_of_eq (hcount g)) ?_
    split
    · next hg =>
      subst hg
      rw [h.since hs]
      exact hr hs
    · exact h.limit g
  case published =>
    intro st earlier hsuf
    refine h.published st earlier ?_
    rcases List.suffix_cons_iff.mp hsuf with heq | hsuf
    · cases (List.cons.inj heq).1
    · exact hsuf

/-- If no other message may be completed after it, the transport is closed, so that there is room
for one more wherever it stays open. -/
theorem Metered.completed (h : l.Metered most past) (hr : l.Roomy most) (hs : l.state = .connected)
    (ho : openTransport (l.log ++ past) = some l.generation) (m : M) :
    (l.put (.done m)).completed.Metered most past ∧ (l.put (.done m)).completed.Roomy most := by
  have hcounted := h.counted hr hs ho m
  rcases completed_cases (l.put (.done m)) with ⟨heq, hless⟩ | ⟨most', -, hs', -, heq⟩
  · rw [heq]
    refine ⟨hcounted, fun hs' => ?_⟩
    have hlt : l.processedSinceOpen + 1 < most := hless most h.config hs
    change l.processedSinceOpen + 1 < max 1 most
    omega
  · rw [heq]
    have hcon : (l.put (.done m)).counted.state = .connected := hs'
    have hset : Settles [] (l.put (.done m)).counted _ := .recycle hcon "message limit reached"
    refine ⟨hcounted.settles hset, fun hc => ?_⟩
    rw [recycle_eq hcon] at hc
    exact absurd hc (Linked.maybeConnect_state rfl)

theorem Metered.reconnects (h : l.Metered most past) (hs : l.state = .connecting) (now : Nat) :
    ((l.opened l.generation).retryPending now).Metered most past := by
  obtain ⟨es, hlog, hes⟩ := reconnects_log hs now
  have hplain (e : Output M) (he : e ∈ es) : e.isMark = false ∧ e.isWriting = false := by
    rcases hes e he with ⟨m, rfl⟩ | ⟨p, -, he⟩ | rfl
    · exact ⟨rfl, rfl⟩
    · rcases mem_recalled he with rfl | rfl | rfl | rfl <;> exact ⟨rfl, rfl⟩
    · exact ⟨rfl, rfl⟩
  rw [opened_eq hs, retryPending_eq] at hlog ⊢
  exact h.pass hlog (fun e he => (hplain e he).1) (h.sent_append fun e he => (hplain e he).2) rfl
    rfl (Nat.le_refl _) (fun _ => h.opening hs) nofun

/-- Nothing is written, and nothing is completed. -/
theorem Metered.plain (h : l.Metered most past) (es : List (Output M)) (hlog : l'.log = es ++ l.log)
    (hes : ∀ e ∈ es, e.isMark = false ∧ e.isWriting = false)
    (heq : (l'.config, l'.sent, l'.processed, l'.processedSinceOpen, l'.generation, l'.state) =
      (l.config, l.sent, l.processed, l.processedSinceOpen, l.generation, l.state)) :
    l'.Metered most past := by
  simp only [Prod.mk.injEq] at heq
  obtain ⟨hconfig, hsent, hprocessed, hsince, hgeneration, hstate⟩ := heq
  refine h.of_eq es hlog (fun e he => (hes e he).1) ?_ ?_
  · rw [hsent]
    exact h.sent_append fun e he => (hes e he).2
  · rw [hconfig, hprocessed, hsince, hgeneration, hstate]

theorem Metered.follow (h : l.Metered most past) (hr : l.Roomy most) (hs : l.state = .connected)
    (ho : openTransport (l.log ++ past) = some l.generation) (now : Nat) (m : M)
    (before after : List (Pending M)) (answer : Except QueueError RecvDirective) :
    (l.follow now m before after answer).Metered most past ∧
      (l.follow now m before after answer).Roomy most := by
  dsimp only [Loop.follow]
  split
  · exact h.completed hr hs ho m
  · split
    · exact ⟨h.plain [.asked m .traffic, .asked m .blocking] rfl
        (by simp [Output.isMark, Output.isWriting]) rfl, hr⟩
    · exact ⟨h.plain [.asked m .traffic, .asked m .blocking] rfl
        (by simp [Output.isMark, Output.isWriting]) rfl, hr⟩
  · exact ⟨h.plain [.asked m .timeout] rfl (by simp [Output.isMark, Output.isWriting]) rfl, hr⟩
  · next _ e =>
    have hfail : ((l.ask m .describe).put (.failed m e)).Metered most past :=
      h.plain [.failed m e, .asked m .describe] rfl (by simp [Output.isMark, Output.isWriting]) rfl
    have hcon : ((l.ask m .describe).put (.failed m e)).state = .connected := hs
    have hset : Settles [] ((l.ask m .describe).put (.failed m e)) _ :=
      .recycle hcon "receiver error"
    exact ⟨hfail.settles hset, hset.roomy hr⟩

theorem Metered.afterSend (h : l.Metered most past) (hr : l.Roomy most) (hs : l.state = .connected)
    (ho : openTransport (l.log ++ past) = some l.generation) (now : Nat) (c : Traffic) (m : M)
    (d : SendDirective) : (l.afterSend now c m d).Metered most past ∧
      (l.afterSend now c m d).Roomy most := by
  cases d with
  | done => exact h.completed hr hs ho m
  | sendAgain =>
    exact ⟨h.plain [.asked m .describe] rfl (by simp [Output.isMark, Output.isWriting]) rfl, hr⟩
  | recvAgain =>
    exact ⟨h.plain [.asked m .timeout] rfl (by simp [Output.isMark, Output.isWriting]) rfl, hr⟩

omit [Message M] in
/-- What is offered is neither counted, nor about a transport. -/
theorem not_counted_of_mem_offered {data : Bytes} {ps : List (Pending M)} {e : Output M}
    (he : e ∈ offered data ps) : e.isMark = false ∧ e.isWriting = false ∧ e.isMove = false := by
  obtain ⟨p, -, rfl⟩ := mem_offered he
  exact ⟨rfl, rfl, rfl⟩

omit [Message M] in
theorem Picks.not_counted {es : List (Output M)} {c : Traffic} {m : M} {b : Buckets M}
    (hp : l.Picks es c m b) {e : Output M} (he : e ∈ es) :
    e.isMark = false ∧ e.isWriting = false ∧ e.isMove = false := by
  obtain ⟨m, rfl⟩ := hp.asked e he
  exact ⟨rfl, rfl, rfl⟩

/-- Before a message is written, those that wait are asked whether they are blocking. -/
theorem Metered.picked (h : l.Metered most past) {es : List (Output M)} {c : Traffic} {m : M}
    {b : Buckets M} (hp : l.Picks es c m b) : Metered most past { l with log := es ++ l.log } :=
  h.plain es rfl (fun _ he => ⟨(hp.not_counted he).1, (hp.not_counted he).2.1⟩) rfl

/-- A message is written. -/
theorem Metered.writes (h : l.Metered most past) (hr : l.Roomy most)
    (ho : l.state = .connected → openTransport (l.log ++ past) = some l.generation) (now : Nat)
    {es : List (Output M)} {c : Traffic} {m : M} {b : Buckets M} (picked : l.Picks es c m b)
    {frames : List Bytes} {d : SendDirective} (encoded : (Message.send m).2 = .ok (frames, d))
    (wire : List (Option QueueError)) :
    let l' := Loop.afterSend now { l with
      buckets := b, wire, sent := l.sent + 1
      log := through l.generation m frames ++ (es ++ l.log) } c (Message.send m).1 d
    l'.Metered most past ∧ l'.Roomy most := by
  have hwritten : Metered most past { l with
      buckets := b, wire, sent := l.sent + 1
      log := through l.generation m frames ++ (es ++ l.log) } := by
    refine (h.picked picked).of_eq (through l.generation m frames) rfl
      (fun e he => not_isMark_of_mem_through he) ?_ rfl
    rw [writings_through _ encoded]
    exact congrArg (· + 1) (h.picked picked).sent
  refine hwritten.afterSend hr picked.connected ?_ ..
  rw [List.append_assoc, openTransport_append fun e he => not_isMove_of_mem_through he,
    List.append_assoc, openTransport_append fun e he => (picked.not_counted he).2.2]
  exact ho picked.connected

/-- Every deed keeps the counters right. -/
theorem Deed.metered {now : Nat} {taken : List M} {heard : Option Bytes} (h : l.Metered most past)
    (hr : l.Roomy most)
    (ho : l.state = .connected → openTransport (l.log ++ past) = some l.generation)
    (hd : l.Deed now taken heard l') : l'.Metered most past ∧ l'.Roomy most := by
  cases hd with
  | settles hs => exact ⟨h.settles hs, hs.roomy hr⟩
  | reconnects hs =>
    refine ⟨h.reconnects hs now, fun _ => ?_⟩
    rw [opened_eq hs, retryPending_eq]
    exact Nat.lt_of_lt_of_le Nat.one_pos (Nat.le_max_left 1 most)
  | declines data hs declined =>
    refine ⟨h.plain (.notice (.unrouted data) :: offered data l.receivers) rfl ?_ rfl, hr⟩
    refine List.forall_mem_cons.mpr ⟨⟨rfl, rfl⟩, fun e he => ?_⟩
    exact ⟨(not_counted_of_mem_offered he).1, (not_counted_of_mem_offered he).2.1⟩
  | @takes before after q data hs waits declined taken =>
    have hoffered : Metered most past { l with
        received := l.received + 1
        receivers := before.map (Pending.heard data) ++ after
        log := offered data (before ++ [q]) ++ l.log } :=
      h.plain (offered data (before ++ [q])) rfl (fun e he =>
        ⟨(not_counted_of_mem_offered he).1, (not_counted_of_mem_offered he).2.1⟩) rfl
    refine hoffered.follow hr hs ?_ ..
    rw [List.append_assoc, openTransport_append fun e he => (not_counted_of_mem_offered he).2.2]
    exact ho hs
  | @expires l₁ l₂ before after =>
    refine ⟨Metered.settles ?_ after, after.roomy (before.roomy hr)⟩
    refine (h.settles before).plain _ rfl (fun e he => ?_) rfl
    obtain ⟨p, -, he⟩ := List.mem_flatMap.mp he
    simp only [List.mem_cons, List.not_mem_nil, or_false] at he
    rcases he with rfl | rfl | rfl <;> exact ⟨rfl, rfl⟩
  | @refuses es c m b e picked refused =>
    refine ⟨(h.picked picked).of_eq [.failed (Message.send m).1 e,
      .asked (Message.send m).1 .describe, .asked m .send] rfl (by simp [Output.isMark]) ?_ rfl, hr⟩
    simpa [writings, written?, writtenWith, refused] using (h.picked picked).sent
  | @breaks es c m b _ before after frame d wire picked encoded broken =>
    refine ⟨Metered.settles ?_ broken, broken.roomy hr⟩
    refine (h.picked picked).of_eq
      (.writeFailed l.generation frame :: through l.generation m before) rfl ?_ ?_ rfl
    · exact List.forall_mem_cons.mpr ⟨rfl, fun e he => not_isMark_of_mem_through he⟩
    · rw [List.cons_append, writings_cons rfl, writings_partial _ encoded]
      exact (h.picked picked).sent
  | writes picked encoded => exact h.writes hr ho now picked encoded _

/-! ### Completing a message -/

theorem Reopens.isLink {reason : String} {g : Nat} {es : List (Output M)}
    (h : l.Reopens reason g l' es) : ∀ o ∈ es, o.isLink = true := by
  cases h <;> simp [Output.isLink]

/-- A turn that completes a message over the transport of a generation, after some that it has
completed: what the loop has done since, and how it is left. -/
inductive Completes (most g count : Nat) (l l' : Loop M) (after : List (Output M)) : Prop
  /-- The transport may complete another message. -/
  | stays (room : count + 1 < max 1 most) (state : l'.state = .connected)
      (generation : l'.generation = g)
  /-- The transport is reopened, before anything else is done. -/
  | reopens {es : List (Output M)} (full : count + 1 = max 1 most) (first : es <:+ after)
      (reopened : l.Reopens "message limit reached" g l' es)

/-- What is not about the link, nor about the messages, may follow. -/
theorem Completes.append {g count : Nat} {after pub : List (Output M)}
    (h : l.Completes most g count l₁ after)
    (heq : (l'.state, l'.generation, l'.backoff, l'.hasTraffic) =
      (l₁.state, l₁.generation, l₁.backoff, l₁.hasTraffic)) :
    l.Completes most g count l' (pub ++ after) := by
  simp only [Prod.mk.injEq] at heq
  obtain ⟨hstate, hgeneration, hbackoff, htraffic⟩ := heq
  cases h with
  | stays room state generation =>
    exact .stays room (hstate.trans state) (hgeneration.trans generation)
  | reopens full first reopened =>
    refine .reopens full (first.trans (List.suffix_append ..)) (reopened.congr rfl ?_)
    rw [hstate, hbackoff, htraffic]

/-- The transport that completes a message stays open if it may complete another one. -/
theorem Serves.completed (h : l.Serves l₁) (hs : l.state = .connected)
    (hconn : l.conn = some l.generation) (hm : l.config.maxSend = some most) (hr : l.Roomy most)
    (m : M) : ∃ after, (l₁.put (.done m)).completed.log = after ++ .done m :: l₁.log ∧
      (∀ o ∈ after, o.isLink = true) ∧ l.Completes most l.generation l.processedSinceOpen
        (l₁.put (.done m)).completed after := by
  have hs₁ : l₁.state = .connected := h.state.trans hs
  have hm₁ : l₁.config.maxSend = some most := by rw [h.config, hm]
  have hroom := hr hs
  rcases completed_cases (l₁.put (.done m)) with ⟨heq, hless⟩ | ⟨most', hm', -, hle, heq⟩
  · have hlt : l₁.processedSinceOpen + 1 < most := hless most hm₁ hs₁
    rw [h.processedSinceOpen] at hlt
    rw [heq]
    exact ⟨[], rfl, by simp, .stays (by omega) hs₁ h.generation⟩
  · obtain rfl : most' = most := Option.some.inj (hm'.symm.trans hm₁)
    have hle : most' ≤ l₁.processedSinceOpen + 1 := hle
    rw [h.processedSinceOpen] at hle
    have hfull : l.processedSinceOpen + 1 = max 1 most' := by omega
    have hcon : (l₁.put (.done m)).counted.state = .connected := hs₁
    have hconn₁ : (l₁.put (.done m)).counted.conn = some l.generation := h.conn.trans hconn
    have hg : (l₁.put (.done m)).counted.generation = l.generation := h.generation
    obtain ⟨es, hlog, hre⟩ := recycle_reopens hcon (hconn₁.trans (congrArg some hg.symm))
      "message limit reached"
    rw [heq]
    rw [hg] at hre
    exact ⟨es, hlog, hre.isLink, .reopens hfull (List.suffix_refl _) (hre.congr h.backoff rfl)⟩

end Meters

end Loop

namespace Station

/-- What is known of a loop where it stands: its counters, and its status wherever it waits. -/
structure Metered [Message M] (most : Nat) (stage : Stage) (past : List (Output (Numbered M)))
    (l : Loop (Numbered M)) : Prop where
  coherent : l.Coherent past
  metered : l.Metered most past
  roomy : l.Roomy most
  published : stage = .waiting ∨ stage = .stopped →
    l.status.processed = l.processed ∧ l.status.sent = l.sent

variable [Message M] {most : Nat} {stage : Stage} {past : List (Output (Numbered M))}
  {l : Loop (Numbered M)}

theorem Metered.idle (h : Metered most stage past l) (hlog : l.log = [])
    {es : List (Output (Numbered M))} (hes : ∀ o ∈ es, ∃ m e, o = .failed m e)
    (wire : List (Option QueueError)) : Metered most stage (es ++ past) { l with wire } := by
  have hplain (e : Output (Numbered M)) (he : e ∈ es) :
      e.isCalm = true ∧ e.isMark = false ∧ e.isWriting = false := by
    obtain ⟨m, err, rfl⟩ := hes e he
    exact ⟨rfl, rfl, rfl⟩
  refine ⟨h.coherent.idle hlog (fun e he => (hplain e he).1) wire, ?_, h.roomy, h.published⟩
  have hm : Loop.Metered most past { l with wire, log := es } :=
    h.metered.plain es (by simp [hlog]) (fun e he => (hplain e he).2) rfl
  have hd := hm.drain
  rwa [← hlog] at hd

theorem Metered.turn (h : Metered most stage past l) {now : Nat} {taken : List (Numbered M)}
    {stage' : Stage} {l' : Loop (Numbered M)} (ht : Loop.Turn now stage l taken stage' l') :
    Metered most stage' (l'.log ++ past) { l' with log := [] } := by
  obtain ⟨heard, l₁, hd, -, hpub, hwait⟩ := ht.deed h.coherent.conn_some
  obtain ⟨hm, hr⟩ := hd.metered h.metered h.roomy fun hs => (h.coherent.usable hs).1
  refine ⟨(h.coherent.turn ht).1.drain, ?_, ?_, fun hst => ?_⟩
  · rcases hpub with rfl | rfl
    · exact hm.drain
    · exact hm.publish.drain
  · rcases hpub with rfl | rfl
    · exact hr
    · exact hr
  · rw [hwait hst]
    exact ⟨rfl, rfl⟩

/-- Throughout a run the counters agree with the history. -/
theorem run_metered (name : Name) (config : Config) (hook : Hook) (most : Nat)
    (as : List (Action M)) :
    let s := (start name { config with maxSend := some most } hook).run as
    Metered most s.stage s.past s.queue.loop := by
  refine run_start (I := Metered most) (fun wire h hlog hes => h.idle hlog hes wire)
    (fun h _ ht => h.turn ht) name _ hook ?_ as
  refine ⟨⟨rfl, fun hc => absurd rfl hc, rfl, rfl, .nil⟩, ?_, nofun, nofun⟩
  exact ⟨rfl, rfl, rfl, nofun, nofun, fun _ _ => rfl, fun _ => Nat.zero_le _, by simp [Loop.start]⟩

/-- The turn that completes a message leaves the transport open if it may complete another one, and
otherwise closes it. -/
theorem Metered.completes {s : Station M} (h : Metered most s.stage s.past s.queue.loop)
    (hlog : s.queue.loop.log = []) {taken : List (Numbered M)} {l : Loop (Numbered M)}
    (hturn : Loop.Turn s.now s.stage s.queue.loop taken s.turn.stage l)
    (hl : s.turn.queue.loop = { l with log := [] }) {m : Numbered M} (hm : .done m ∈ l.log) :
    ∃ g before after, openTransport s.past = some g ∧ l.log = after ++ .done m :: before ∧
      (∀ o ∈ before, o.isService = true) ∧ (∀ o ∈ after, o.isLink = true) ∧
      s.queue.loop.Completes most g (completions g s.past) s.turn.queue.loop after := by
  obtain ⟨heard, l₁, hd, -, hpub, -⟩ := hturn.deed h.coherent.conn_some
  obtain ⟨pub, hlog', hlink, heq⟩ : ∃ pub, l.log = pub ++ l₁.log ∧
      (∀ o ∈ pub, o.isLink = true) ∧ (l.state, l.generation, l.backoff, l.hasTraffic) =
        (l₁.state, l₁.generation, l₁.backoff, l₁.hasTraffic) := by
    rcases hpub with rfl | rfl
    · exact ⟨[], rfl, by simp, rfl⟩
    · exact ⟨[.published l₁.snapshot], rfl, by simp [Output.isLink], rfl⟩
  have hm₁ : .done m ∈ l₁.log :=
    (List.mem_append.mp (hlog' ▸ hm)).resolve_left fun hm =>
      absurd (hlink _ hm) (by simp [Output.isLink])
  obtain ⟨hs, -, l₂, hserves, rfl⟩ := hd.completes hlog hm₁
  obtain ⟨after, hafter, hlink', hcompletes⟩ :=
    hserves.completed hs (h.coherent.conn_some hs) h.metered.config h.roomy m
  obtain ⟨before, hbefore, hservice⟩ := hserves.log
  have hsince := h.metered.since hs
  have hopen := (h.coherent.usable hs).1
  rw [hlog, List.nil_append] at hsince hopen
  rw [hlog, List.append_nil] at hbefore
  refine ⟨_, before, pub ++ after, hopen, ?_, hservice, ?_, ?_⟩
  · rw [hlog', hafter, hbefore, List.append_assoc]
  · exact fun o ho => (List.mem_append.mp ho).elim (hlink o) (hlink' o)
  · rw [hsince, hl]
    exact hcompletes.append heq

/-- Throughout every run of a queue that may complete only so many messages over a transport: no
transport completes more, or more than one if none is allowed. What is published as processed and
sent are the messages that were completed and written in the whole run. And when a message is
completed, the loop has done nothing in that turn but to ask and to write; the transport stays open
if it may complete another message. Otherwise it is closed next, no message is failed, and the link
is opened again without a delay, at once or as soon as there are messages. -/
theorem quota_kept (name : Name) (config : Config) (hook : Hook) (most : Nat)
    (as : List (Action M)) :
    let s := (start name { config with maxSend := some most } hook).run as
    (∀ g, completions g s.past ≤ max 1 most) ∧
      (∀ st earlier, .published st :: earlier <:+ s.past →
        st.processed = earlier.countP Output.isDone ∧ st.sent = (writings earlier).length) ∧
      (s.stage = .waiting ∨ s.stage = .stopped →
        s.queue.status.processed = s.past.countP Output.isDone ∧
          s.queue.status.sent = (writings s.past).length) ∧
      ∃ es, s.turn.past = es ++ s.past ∧ ∀ m, .done m ∈ es →
        ∃ g before after, openTransport s.past = some g ∧ es = after ++ .done m :: before ∧
          (∀ o ∈ before, o.isService = true) ∧ (∀ o ∈ after, o.isLink = true) ∧
          s.queue.loop.Completes most g (completions g s.past) s.turn.queue.loop after := by
  have hs : ((start name { config with maxSend := some most } hook).run as).Sound :=
    (Sound.start name _ hook).run as
  have hstart := Tended.start (M := M) name { config with maxSend := some most } hook
  have ht := run_tended (.inr hstart) as
  have h := run_metered (M := M) name config hook most as
  dsimp only at h ⊢
  generalize (start name { config with maxSend := some most } hook).run as = s at hs ht h
  have hlog := hs.keeps.log
  have hlimit := h.metered.limit
  have hpublished := h.metered.published
  have hprocessed := h.metered.processed
  have hsent := h.metered.sent
  rw [hlog, List.nil_append] at hlimit hpublished hprocessed hsent
  refine ⟨hlimit, hpublished, fun hst => ?_, ?_⟩
  · obtain ⟨hp, hse⟩ := h.published hst
    exact ⟨hp.trans hprocessed, hse.trans hsent⟩
  · rcases turn_cases hs ht with heq | hturn
    · exact ⟨[], by rw [heq]; rfl, by simp⟩
    · obtain ⟨taken, l, hturn, hl, hp, -⟩ := hturn
      exact ⟨l.log, hp, fun m hm => h.completes hlog hturn hl hm⟩

end Station

end Hearth.Link
