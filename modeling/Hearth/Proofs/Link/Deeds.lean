import Hearth.Proofs.Link.Settling
import Hearth.Proofs.Link.Steady

/-!
# What a turn does with the messages

A turn of a loop does at most one thing with its messages (`Loop.Deed`): it asks those that wait
what to do after a reconnect, offers them data that came in, fails those that are late, or writes
one message. Whatever else it does is no step of a message (`Loop.Settles`). So what becomes of
messages has to be looked at once for each deed, and not once for each function of the loop.

## Main definitions

* `offered`, `through`, `expired`, `recalled` : what is done to the outside with a message.
* `Loop.Deed` : the deeds, each with all that it changes.

## Main results

* `Loop.offer_cases`, `Loop.writeFrames_cases`, `Loop.retryPending_eq`, `Loop.expire_cases`,
  `Loop.completed_cases` : the functions behind them.
* `Loop.Turn.deed` : every turn is a deed.
-/

namespace Hearth.Link

variable {M : Type}

/-- A message that waits, after it was offered data. -/
def Pending.heard [Message M] (data : Bytes) (p : Pending M) : Pending M :=
  { p with message := (Message.recv p.message data).1 }

/-- A message that waits takes data for that of another one. -/
def Pending.Declines [Message M] (data : Bytes) (p : Pending M) : Prop :=
  (Message.recv p.message data).2 = .ok .notMine

section Outputs

variable [Message M]

/-- Messages that wait are offered data, one after the other. All these outputs are given newest
first. -/
def offered (data : Bytes) (ps : List (Pending M)) : List (Output M) :=
  (ps.map fun p => .asked p.message (.recv data)).reverse

/-- A message is asked what to write, and all of it gets through. -/
def through (generation : Nat) (m : M) (frames : List Bytes) : List (Output M) :=
  (frames.map (.wrote generation)).reverse ++ [.asked m .send]

/-- Messages have waited too long. -/
def expired (ps : List (Pending M)) : List (Output M) :=
  ps.reverse.flatMap fun p => [.failed p.message .timeout,
    .notice (.timeout (Message.describe p.message)), .asked p.message .describe]

/-- A message that waits is asked what to do on a new transport. -/
def recalled (p : Pending M) : List (Output M) :=
  match Message.retry p.message with
  | (m, .sendAgain) => [.retried m .sendAgain, .asked p.message .retry]
  | (m, .recvAgain) => [.asked m .timeout, .retried m .recvAgain, .asked p.message .retry]
  | (m, .abandon) => [.failed m .abandoned, .retried m .abandon, .asked p.message .retry]

end Outputs

theorem mem_offered {data : Bytes} {ps : List (Pending M)} {o : Output M}
    (ho : o ∈ offered data ps) : ∃ p ∈ ps, o = .asked p.message (.recv data) := by
  obtain ⟨p, hp, rfl⟩ := List.mem_map.mp (List.mem_reverse.mp ho)
  exact ⟨p, hp, rfl⟩

theorem mem_through {generation : Nat} {m : M} {frames : List Bytes} {o : Output M}
    (ho : o ∈ through generation m frames) :
    (∃ frame ∈ frames, o = .wrote generation frame) ∨ o = .asked m .send := by
  rcases List.mem_append.mp ho with ho | ho
  · obtain ⟨frame, hf, rfl⟩ := List.mem_map.mp (List.mem_reverse.mp ho)
    exact .inl ⟨frame, hf, rfl⟩
  · exact .inr (List.mem_singleton.mp ho)

theorem mem_recalled [Message M] {p : Pending M} {o : Output M} (ho : o ∈ recalled p) :
    o = .asked p.message .retry ∨
      o = .retried (Message.retry p.message).1 (Message.retry p.message).2 ∨
      o = .asked (Message.retry p.message).1 .timeout ∨
      o = .failed (Message.retry p.message).1 .abandoned := by
  unfold recalled at ho
  split at ho
  all_goals
    next m heq =>
    simp only [List.mem_cons, List.not_mem_nil, or_false] at ho
    rw [heq]
    tauto

namespace Loop

/-- The loop after a message was counted as completed. -/
def counted (l : Loop M) : Loop M :=
  { l with processed := l.processed + 1, processedSinceOpen := l.processedSinceOpen + 1 }

variable [Message M]

/-- Data is declined by all messages that wait, or taken by the first that does not decline it. -/
theorem offer_cases (data : Bytes) (ps : List (Pending M)) (l : Loop M) :
    (∀ p ∈ ps, p.Declines data) ∧ offer data ps l =
      ({ l with log := offered data ps ++ l.log }, ps.map (Pending.heard data), none) ∨
    ∃ before q after, ps = before ++ q :: after ∧ (∀ p ∈ before, p.Declines data) ∧
      ¬ q.Declines data ∧ offer data ps l =
        ({ l with log := offered data (before ++ [q]) ++ l.log }, before.map (Pending.heard data),
          some (q.heard data, (Message.recv q.message data).2, after)) := by
  induction ps generalizing l with
  | nil => exact .inl ⟨by simp, rfl⟩
  | cons p ps ih =>
    by_cases hp : p.Declines data
    · have hoff (l : Loop M) : offer data (p :: ps) l =
          ((offer data ps (l.ask p.message (.recv data))).1,
            p.heard data :: (offer data ps (l.ask p.message (.recv data))).2.1,
            (offer data ps (l.ask p.message (.recv data))).2.2) := by
        have hr : Message.recv p.message data = ((Message.recv p.message data).1, .ok .notMine) :=
          Prod.ext rfl hp
        rw [offer, hr]
        simp only [Pending.heard]
      rcases ih (l.ask p.message (.recv data)) with
        ⟨hall, heq⟩ | ⟨before, q, after, rfl, hb, hq, heq⟩
      · refine .inl ⟨List.forall_mem_cons.mpr ⟨hp, hall⟩, ?_⟩
        rw [hoff, heq]
        simp [offered, ask, put]
      · refine .inr ⟨p :: before, q, after, rfl, List.forall_mem_cons.mpr ⟨hp, hb⟩, hq, ?_⟩
        rw [hoff, heq]
        simp [offered, ask, put]
    · refine .inr ⟨[], p, ps, rfl, by simp, hp, ?_⟩
      rw [offer]
      split
      · next m hm => exact absurd (congrArg Prod.snd hm) hp
      · next m answer _ hm => simp [Pending.heard, hm, offered, ask, put]

omit [Message M] in
/-- All frames get through, or those before the first that does not. -/
theorem writeFrames_cases (generation : Nat) (frames : List Bytes) (l : Loop M) :
    (∃ wire, writeFrames generation frames l =
      (none, { l with wire, log := (frames.map (.wrote generation)).reverse ++ l.log })) ∨
    ∃ before frame after e wire, frames = before ++ frame :: after ∧
      writeFrames generation frames l = (some e, { l with
        wire, log := .writeFailed generation frame ::
          ((before.map (.wrote generation)).reverse ++ l.log) }) := by
  induction frames generalizing l with
  | nil => exact .inl ⟨l.wire, rfl⟩
  | cons frame frames ih =>
    have hstep : (∃ wire, writeFrames generation (frame :: frames) l =
          writeFrames generation frames ({ l with wire }.put (.wrote generation frame))) ∨
        ∃ e wire, writeFrames generation (frame :: frames) l =
          (some e, { l with wire }.put (.writeFailed generation frame)) := by
      rw [writeFrames]
      split
      · next e wire _ => exact .inr ⟨e, wire, rfl⟩
      · next wire _ => exact .inl ⟨wire, rfl⟩
      · exact .inl ⟨l.wire, rfl⟩
    rcases hstep with ⟨wire, hstep⟩ | ⟨e, wire, hstep⟩
    · rcases ih ({ l with wire }.put (.wrote generation frame)) with
        ⟨wire', heq⟩ | ⟨before, failing, after, e, wire', rfl, heq⟩
      · exact .inl ⟨wire', by rw [hstep, heq]; simp [put]⟩
      · exact .inr ⟨frame :: before, failing, after, e, wire', rfl, by rw [hstep, heq]; simp [put]⟩
    · exact .inr ⟨[], frame, frames, e, wire, rfl, hstep⟩

/-- Messages are asked nothing but whether they are blocking. -/
theorem anyBlocking_outputs (ps : List (Pending M)) (l : Loop M) :
    ∃ es, (anyBlocking ps l).2 = { l with log := es ++ l.log } ∧
      ∀ e ∈ es, ∃ m, e = .asked m .blocking := by
  induction ps generalizing l with
  | nil => exact ⟨[], rfl, by simp⟩
  | cons p ps ih =>
    obtain ⟨es, heq, hes⟩ := ih (l.ask p.message .blocking)
    dsimp only [anyBlocking]
    split
    · exact ⟨[.asked p.message .blocking], rfl, by simp⟩
    · refine ⟨es ++ [.asked p.message .blocking], by rw [heq]; simp [ask, put], fun e he => ?_⟩
      rcases List.mem_append.mp he with he | he
      · exact hes e he
      · exact ⟨p.message, List.mem_singleton.mp he⟩

/-- The messages that wait are asked one after the other; some go on waiting, and some are put
before all others that are still to be written. -/
theorem retryPending_eq (now : Nat) (l : Loop M) : l.retryPending now = { l with
    receivers := kept now l.receivers
    buckets := (resent l.receivers).foldr (fun m b => b.pushFront (Message.traffic m) m) l.buckets
    log := (resent l.receivers).map (.asked · .traffic) ++
      (l.receivers.reverse.flatMap recalled ++ l.log) } := by
  have hone (ps : List (Pending M)) (l : Loop M) (ms : List M) : ps.foldl (retryOne now) (l, ms) =
      ({ l with
        receivers := l.receivers ++ kept now ps
        log := ps.reverse.flatMap recalled ++ l.log }, ms ++ resent ps) := by
    induction ps generalizing l ms with
    | nil => simp [kept, resent]
    | cons p ps ih =>
      rw [List.foldl_cons, retryOne]
      cases hd : Message.retry p.message with
      | mk m directive =>
        cases directive <;>
          simp [ih, hd, kept, resent, recalled, put, ask, await]
  have hfront (ms : List M) (l : Loop M) : ms.foldr (fun m l => l.pushFront m) l = { l with
      buckets := ms.foldr (fun m b => b.pushFront (Message.traffic m) m) l.buckets
      log := ms.map (.asked · .traffic) ++ l.log } := by
    induction ms with
    | nil => rfl
    | cons m ms ih => rw [List.foldr_cons, ih]; rfl
  rw [retryPending, hone]
  dsimp only
  rw [hfront]
  rfl

/-- What is done to the outside when the link is open again. -/
theorem reconnects_log {l : Loop M} (hs : l.state = .connecting) (now : Nat) :
    ∃ es, ((l.opened l.generation).retryPending now).log = es ++ l.log ∧ ∀ o ∈ es,
      (∃ m, o = .asked m .traffic) ∨ (∃ p ∈ l.receivers, o ∈ recalled p) ∨
        o = .notice .connect := by
  rw [opened_eq hs, retryPending_eq]
  refine ⟨(resent l.receivers).map (.asked · .traffic) ++
    (l.receivers.reverse.flatMap recalled ++ [.notice .connect]), by simp, fun o ho => ?_⟩
  simp only [List.mem_append, List.mem_map, List.mem_flatMap, List.mem_reverse,
    List.mem_singleton] at ho
  rcases ho with ⟨m, -, rfl⟩ | hp | rfl
  · exact .inl ⟨m, rfl⟩
  · exact .inr (.inl hp)
  · exact .inr (.inr rfl)

/-- The messages that are late are failed, and their transport is closed. -/
theorem expire_cases (now : Nat) (l : Loop M) : ∃ l₁ : Loop M, l₁ = { l with
    receivers := l.receivers.filter fun p => !isLate now p
    log := expired (l.receivers.filter (isLate now)) ++ l.log } ∧
      l.expire now = if l.receivers.any (isLate now) ∧ l.state = .connected
        then l₁.recycle "reply timeout" else l₁ := by
  have hmany (ps : List (Pending M)) (l : Loop M) :
      ps.foldl failLate l = { l with log := expired ps ++ l.log } := by
    induction ps generalizing l with
    | nil => rfl
    | cons p ps ih => simp [ih, expired, failLate, ask, emit, put]
  refine ⟨_, rfl, ?_⟩
  dsimp only [expire]
  cases hl : l.receivers.any (isLate now) with
  | false =>
    have hnone : l.receivers.filter (isLate now) = [] := by
      simpa [List.filter_eq_nil_iff] using hl
    have hall : (l.receivers.filter fun p => !isLate now p) = l.receivers := by
      simpa [List.filter_eq_self] using hl
    simp [hnone, hall, expired]
  | true =>
    have hsome : (l.receivers.filter (isLate now)).isEmpty = false := by
      simpa [List.isEmpty_eq_false_iff, List.filter_eq_nil_iff] using hl
    simp [hsome, hmany]

omit [Message M] in
/-- A completed message is counted. The transport stays until it has served as many as it may. -/
theorem completed_cases (l : Loop M) :
    l.completed = l.counted ∧ (∀ most, l.config.maxSend = some most → l.state = .connected →
        l.processedSinceOpen + 1 < most) ∨
      ∃ most, l.config.maxSend = some most ∧ l.state = .connected ∧
        most ≤ l.processedSinceOpen + 1 ∧
        l.completed = l.counted.recycle "message limit reached" := by
  dsimp only [completed]
  cases hm : l.config.maxSend with
  | none => exact .inl ⟨rfl, by simp⟩
  | some most =>
    dsimp only
    split
    · next hc =>
      obtain ⟨hle, hs⟩ : most ≤ l.processedSinceOpen + 1 ∧ l.state = .connected := by simpa using hc
      exact .inr ⟨most, rfl, hs, hle, rfl⟩
    · next hc =>
      refine .inl ⟨rfl, fun most' hm' hs => ?_⟩
      obtain rfl := Option.some.inj hm'
      simpa [hs] using hc

/-! ### Deeds -/

/-- The loop picks the message that is written next, after those that wait were asked whether one of
them is blocking. -/
structure Picks (l : Loop M) (es : List (Output M)) (c : Traffic) (m : M) (b : Buckets M) :
    Prop where
  connected : l.state = .connected
  asked : ∀ e ∈ es, ∃ m, e = .asked m .blocking
  popped : l.buckets.pop = some (c, m, b)

omit [Message M] in
theorem Picks.mem_all {l : Loop M} {es : List (Output M)} {c : Traffic} {m m' : M} {b : Buckets M}
    (h : l.Picks es c m b) : m' ∈ l.buckets.all ↔ m' = m ∨ m' ∈ b.all := by
  rw [Buckets.pushFront_of_pop h.popped, (Buckets.all_pushFront b c m).mem_iff, List.mem_cons]

omit [Message M] in
/-- The message that is picked is none of those that wait, nor of those that are left. -/
theorem Picks.number_ne {l : Loop (Numbered M)} {es : List (Output (Numbered M))} {c : Traffic}
    {m : Numbered M} {b : Buckets (Numbered M)} (h : l.Picks es c m b) (hd : l.held.Nodup) :
    (∀ p ∈ l.receivers, m.number ≠ p.message.number) ∧ ∀ m' ∈ b.all, m'.number ≠ m.number := by
  obtain ⟨-, hlisted, happart⟩ := List.nodup_append.mp hd
  have hm := List.mem_map_of_mem (f := Numbered.number) (h.mem_all.mpr (.inl rfl))
  refine ⟨fun p hp => (happart _ (List.mem_map_of_mem hp) _ hm).symm, fun m' hm' heq => ?_⟩
  have hperm := (Buckets.all_pushFront b c m).map (·.number)
  rw [← Buckets.pushFront_of_pop h.popped] at hperm
  have hfresh := (List.nodup_cons.mp (hperm.nodup_iff.mp hlisted)).1
  exact hfresh (List.mem_map.mpr ⟨m', hm', heq⟩)

/-- What a turn does with the messages. Those of the list are taken from the channel; the data is
what came in and is offered. -/
inductive Deed (now : Nat) (l : Loop M) : List M → Option Bytes → Loop M → Prop
  /-- No message takes a step. -/
  | settles {taken : List M} {l' : Loop M} (settled : l.Settles taken l') :
      Deed now l taken none l'
  /-- The link is open again, and all messages that wait are asked what to do. -/
  | reconnects (connecting : l.state = .connecting) :
      Deed now l [] none ((l.opened l.generation).retryPending now)
  /-- No message that waits takes the data. -/
  | declines (data : Bytes) (connected : l.state = .connected)
      (declined : ∀ p ∈ l.receivers, p.Declines data) :
      Deed now l [] (some data) { l with
        received := l.received + 1
        receivers := l.receivers.map (Pending.heard data)
        log := .notice (.unrouted data) :: (offered data l.receivers ++ l.log) }
  /-- The first message that does not decline the data takes it. -/
  | takes {before after : List (Pending M)} {q : Pending M} (data : Bytes)
      (connected : l.state = .connected) (waits : l.receivers = before ++ q :: after)
      (declined : ∀ p ∈ before, p.Declines data) (taken : ¬ q.Declines data) :
      Deed now l [] (some data) ({ l with
        received := l.received + 1
        receivers := before.map (Pending.heard data) ++ after
        log := offered data (before ++ [q]) ++ l.log }.follow now (q.heard data).message
          (before.map (Pending.heard data)) after (Message.recv q.message data).2)
  /-- The messages that are late are failed. -/
  | expires {l₁ l' : Loop M} (before : l.Settles [] l₁) (after : Settles [] { l₁ with
        receivers := l₁.receivers.filter fun p => !isLate now p
        log := expired (l₁.receivers.filter (isLate now)) ++ l₁.log } l') : Deed now l [] none l'
  /-- The message that is picked cannot be written. -/
  | refuses {es : List (Output M)} {c : Traffic} {m : M} {b : Buckets M} {e : QueueError}
      (picked : l.Picks es c m b) (refused : (Message.send m).2 = .error e) :
      Deed now l [] none { l with
        buckets := b
        log := .failed (Message.send m).1 e :: .asked (Message.send m).1 .describe ::
          .asked m .send :: (es ++ l.log) }
  /-- A frame of the message that is picked does not get through, and the link breaks. -/
  | breaks {es : List (Output M)} {c : Traffic} {m : M} {b : Buckets M} {l' : Loop M}
      {before after : List Bytes} {frame : Bytes} {d : SendDirective}
      {wire : List (Option QueueError)} (picked : l.Picks es c m b)
      (encoded : (Message.send m).2 = .ok (before ++ frame :: after, d))
      (broken : Settles [] { l with
        buckets := b.pushFront c (Message.send m).1, wire
        log := .writeFailed l.generation frame ::
          (through l.generation m before ++ (es ++ l.log)) } l') : Deed now l [] none l'
  /-- The message that is picked is written. -/
  | writes {es : List (Output M)} {c : Traffic} {m : M} {b : Buckets M} {frames : List Bytes}
      {d : SendDirective} {wire : List (Option QueueError)} (picked : l.Picks es c m b)
      (encoded : (Message.send m).2 = .ok (frames, d)) :
      Deed now l [] none ({ l with
        buckets := b, wire, sent := l.sent + 1
        log := through l.generation m frames ++ (es ++ l.log) }.afterSend now c
          (Message.send m).1 d)

section Deeds

variable {now : Nat} {l : Loop M}

/-- The data that an input brings over the transport that is open. -/
def heard? (l : Loop M) : Input M → Option Bytes
  | .control (.incoming generation data) =>
    if generation = l.generation ∧ l.state = .connected then some data else none
  | _ => none

omit [Message M] in
theorem of_heard? {input : Input M} {data : Bytes} (h : l.heard? input = some data) :
    input = .control (.incoming l.generation data) := by
  unfold heard? at h
  split at h
  · split at h
    · next hc =>
      obtain rfl := Option.some.inj h
      rw [hc.1]
    · cases h
  · cases h

theorem route_deed (now : Nat) (hs : l.state = .connected) (data : Bytes) :
    Deed now l [] (some data) (l.route now data) := by
  rcases offer_cases data l.receivers { l with received := l.received + 1 } with
    ⟨hall, heq⟩ | ⟨before, q, after, hw, hb, hq, heq⟩
  · simp only [route, heq]
    exact .declines data hs hall
  · simp only [route, heq]
    exact .takes data hs hw hb hq

theorem expire_deed {l₁ : Loop M} (h : l.Settles [] l₁) : Deed now l [] none (l₁.expire now) := by
  obtain ⟨l₂, rfl, heq⟩ := expire_cases now l₁
  rw [heq]
  split
  · next hc =>
    refine .expires h (Settles.recycle ?_ _)
    exact hc.2
  · exact .expires h (.refl ..)

theorem onTimer_deed (now : Nat) (l : Loop M) : Deed now l [] none (l.onTimer now) := by
  dsimp only [onTimer]
  split
  · next hdue =>
    have hs : l.state = .waiting := by simp_all
    have hpre : l.Settles [] { l with retryAt := none } := .of_eq (by rfl)
    refine expire_deed (hpre.trans (.startConnect ?_))
    exact hs ▸ rfl
  · exact expire_deed (.refl ..)

theorem onControl_deed (now : Nat) {item : Control}
    (hcur : ∀ g, item = .connected g → l.state = .connecting ∧ g = l.generation) :
    Deed now l [] (l.heard? (.control item)) (l.onControl now item) := by
  cases item with
  | incoming generation data =>
    dsimp only [onControl, heard?]
    by_cases hc : generation = l.generation ∧ l.state = .connected
    · have hguard : (generation != l.generation || l.state != .connected) = false := by simp [hc]
      rw [hguard, if_pos hc]
      exact route_deed now hc.2 data
    · have hguard : (generation != l.generation || l.state != .connected) = true := by
        simpa using Decidable.not_and_iff_or_not.mp hc
      rw [hguard, if_neg hc]
      exact .settles (.refl ..)
  | lost generation reason =>
    dsimp only [onControl]
    split
    · next hc => exact .settles (.linkLost (by simp_all) ..)
    · exact .settles (.refl ..)
  | connected generation =>
    obtain ⟨hs, rfl⟩ := hcur generation rfl
    dsimp only [onControl]
    rw [if_neg (by simp [hs])]
    exact .reconnects hs
  | connectFailed generation reason =>
    dsimp only [onControl]
    split
    · next hc =>
      have hs : l.state = .connecting := by simp_all
      have hput : l.Settles [] ({ l with connecting := none }.emit (.error reason)) :=
        .put (.of_eq (by rfl)) rfl
      refine .settles (hput.trans (.scheduleRetry now reason ?_ ?_))
      · change l.state.canGo .waiting = true
        rw [hs]
        rfl
      · change l.state.canGo .closed = true
        rw [hs]
        rfl
    · exact .settles (.refl ..)
  | reopen =>
    dsimp only [onControl]
    split
    · next hc => exact .settles (.recycle (by simpa using hc) _)
    · exact .settles (.refl ..)
  | close => exact .settles (.refl ..)

theorem handle_deed (now : Nat) {input : Input M}
    (hcur : ∀ g, input = .control (.connected g) → l.state = .connecting ∧ g = l.generation) :
    Deed now l input.messages (l.heard? input) (l.handle now input) := by
  cases input with
  | control item => exact onControl_deed now fun g hg => hcur g (hg ▸ rfl)
  | traffic m => exact .settles (.accept l (List.mem_singleton_self m))
  | timer => exact onTimer_deed now l
  | abandoned => exact .settles (.refl ..)

theorem sendOne_deed (now : Nat) {es : List (Output M)} {c : Traffic} {m : M} {b : Buckets M}
    (h : l.Picks es c m b) (hconn : l.conn = some l.generation) : Deed now l [] none
      (({ l with log := es ++ l.log, buckets := b }.sendOne now c m).2) := by
  dsimp only [sendOne]
  split
  · next m' e hs =>
    obtain rfl : (Message.send m).1 = m' := by rw [hs]
    exact .refuses h (by rw [hs])
  · next m' frames d hs =>
    obtain rfl : (Message.send m).1 = m' := by rw [hs]
    have hwrite (l₁ : Loop M) (hl : l₁.conn = some l.generation) :
        l₁.write frames = writeFrames l.generation frames l₁ := by rw [write, hl]
    simp only [ask, put]
    rw [hwrite _ (by exact hconn)]
    have hlog (frames : List Bytes) : through l.generation m frames ++ (es ++ l.log) =
        (frames.map (.wrote l.generation)).reverse ++ .asked m .send :: (es ++ l.log) := by
      simp [through]
    rcases writeFrames_cases l.generation frames { l with
        log := .asked m .send :: (es ++ l.log), buckets := b } with
      ⟨wire, heq⟩ | ⟨before, frame, after, e, wire, rfl, heq⟩
    · rw [heq]
      have hd (wire : List (Option QueueError)) : Deed now l [] none (afterSend now { l with
          buckets := b, wire, sent := l.sent + 1
          log := through l.generation m frames ++ (es ++ l.log) } c (Message.send m).1 d) :=
        .writes h (congrArg Prod.snd hs)
      rw [hlog] at hd
      exact hd wire
    · rw [heq]
      have hbroken (wire : List (Option QueueError)) :
          Settles [] _ (linkLost now { l with
            buckets := b.pushFront c (Message.send m).1, wire
            log := .writeFailed l.generation frame ::
              (through l.generation m before ++ (es ++ l.log)) } e.text) :=
        .linkLost (by exact h.connected) ..
      have hd : Deed now l [] none _ := .breaks h (congrArg Prod.snd hs) (hbroken wire)
      rw [hlog] at hd
      exact hd

theorem round_deed (now : Nat) (hconn : l.state = .connected → l.conn = some l.generation) :
    Deed now l [] none (l.round now).2 := by
  obtain ⟨es, heq, hes⟩ := anyBlocking_outputs l.receivers l
  have hset : l.Settles [] { l with log := es ++ l.log } := by
    refine (Settles.refl [] l).outputs ⟨es, rfl, fun e he => ?_⟩
    obtain ⟨m, rfl⟩ := hes e he
    rfl
  unfold round
  split
  · exact .settles (.refl ..)
  · next hc =>
    have hc : l.state = .connected := by simpa using hc
    generalize anyBlocking l.receivers l = r at heq
    obtain ⟨blocked, l₁⟩ := r
    obtain rfl : l₁ = { l with log := es ++ l.log } := heq
    cases blocked with
    | true => exact .settles hset
    | false =>
      dsimp only
      split
      · exact .settles hset
      · split
        · exact .settles hset
        · next c m b hpop => exact sendOne_deed now ⟨hc, hes, hpop⟩ (hconn hc)

/-- Every turn is a deed. Data comes in only as an input, and where the loop then waits or stops it
has published its status. -/
theorem Turn.deed {stage stage' : Stage} {taken : List M} {l' : Loop M}
    (ht : Turn now stage l taken stage' l')
    (hconn : l.state = .connected → l.conn = some l.generation) :
    ∃ heard l₁, Deed now l taken heard l₁ ∧ (stage ≠ .waiting → heard = none) ∧
      (l' = l₁ ∨ l' = l₁.publish) ∧ (stage' = .waiting ∨ stage' = .stopped → l' = l₁.publish) := by
  cases ht with
  | begin =>
    exact ⟨none, _, .settles (.maybeConnect l), fun _ => rfl, .inr rfl, fun _ => rfl⟩
  | handle input goesOn current =>
    exact ⟨_, _, handle_deed now current, fun h => absurd rfl h, .inl rfl, by simp⟩
  | stop => exact ⟨none, _, .settles (.shutdown taken l), fun _ => rfl, .inr rfl, fun _ => rfl⟩
  | gather => exact ⟨none, _, .settles (.gather taken l), fun _ => rfl, .inl rfl, by simp⟩
  | write written =>
    have hr := round_deed now hconn
    rw [written] at hr
    exact ⟨none, _, hr, fun _ => rfl, .inl rfl, by simp⟩
  | rest done =>
    have hr := round_deed now hconn
    rw [done] at hr
    exact ⟨none, _, hr, fun _ => rfl, .inr rfl, fun _ => rfl⟩

end Deeds

end Loop

end Hearth.Link
