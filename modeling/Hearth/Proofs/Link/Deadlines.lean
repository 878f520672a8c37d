import Hearth.Proofs.Link.Writings

/-!
# When a message has waited too long

A message that waits is failed for being late only if the whole span that it named has passed since
it last began to wait: since it was written, took a part of its reply, or went on waiting on a new
transport. A history with the times tells when that was (`lastRenewal`), and the deadlines of a loop
agree with it (`Loop.Timed`).

## Main definitions

* `Chronicle`, `stamped` : a history with the times.
* `renewed?`, `lastRenewal`, `term?` : when a message last began to wait, and for how long.
* `TimedOut` : a message is failed for being late, and rightly.
* `Loop.Timed` : every deadline agrees with the chronicle.

## Main results

* `Loop.Deed.timed` : every deed keeps the deadlines right.
-/

namespace Hearth.Link

variable {M : Type}

/-- What was done to the outside, newest first, each with the time when it was done. -/
abbrev Chronicle (M : Type) := List (Nat × Output (Numbered M))

/-- Outputs at a time. -/
def stamped (t : Nat) (es : List (Output (Numbered M))) : Chronicle M := es.map (t, ·)

@[simp] theorem stamped_append (t : Nat) (es es' : List (Output (Numbered M))) :
    stamped t (es ++ es') = stamped t es ++ stamped t es' := List.map_append

@[simp] theorem stamped_cons (t : Nat) (o : Output (Numbered M))
    (es : List (Output (Numbered M))) : stamped t (o :: es) = (t, o) :: stamped t es := rfl

@[simp] theorem map_snd_stamped (t : Nat) (es : List (Output (Numbered M))) :
    (stamped t es).map Prod.snd = es := by
  simp [stamped, Function.comp_def]

variable [Message M]

/-- The message that begins to wait anew with the newest output of a history: it was written, it
took data and more is due, or it goes on waiting on a new transport. -/
def renewed? : List (Output (Numbered M)) → Option Nat
  | .asked m (.recv data) :: _ =>
    match (Message.recv m data).2 with
    | .ok .recvAgain => some m.number
    | _ => none
  | .retried m .recvAgain :: _ => some m.number
  | past => (written? past).map (·.number)

/-- When a message last began to wait. -/
def lastRenewal (n : Nat) : Chronicle M → Option Nat
  | [] => none
  | (t, o) :: c => if renewed? (o :: c.map Prod.snd) = some n then some t else lastRenewal n c

/-- How long a message waits, where it is asked. -/
def Output.span? (n : Nat) : Output (Numbered M) → Option (Option Span)
  | .asked m .timeout => if m.number = n then some (Message.timeout m) else none
  | _ => none

/-- When a message was last asked how long it waits, and what it answered. -/
def term? (n : Nat) (c : Chronicle M) : Option (Nat × Option Span) :=
  c.findSome? fun x => (x.2.span? n).map (x.1, ·)

/-- An output has nothing to do with how long a message waits. -/
def Output.LeavesAlone (n : Nat) : Output (Numbered M) → Prop
  | .asked m .send => m.number ≠ n
  | .asked m .timeout => m.number ≠ n
  | .asked m (.recv data) => m.number = n → (Message.recv m data).2 ≠ .ok .recvAgain
  | .retried m d => m.number = n → d ≠ .recvAgain
  | .wrote .. => False
  | _ => True

theorem renewed?_ne {n : Nat} {o : Output (Numbered M)} (ho : o.LeavesAlone n)
    (past : List (Output (Numbered M))) : renewed? (o :: past) ≠ some n := by
  intro hn
  cases o with
  | asked m q =>
    cases q with
    | recv data =>
      dsimp only [renewed?] at hn
      split at hn
      · next h => exact ho (Option.some.inj hn) h
      · cases hn
    | send =>
      simp only [renewed?, written?, writtenWith] at hn
      split at hn
      · split at hn
        · exact ho (by simpa using hn)
        · cases hn
      · cases hn
    | _ => simp [renewed?, written?, writtenWith] at hn
  | retried m d =>
    cases d with
    | recvAgain => exact ho (Option.some.inj hn) rfl
    | _ => simp [renewed?, written?, writtenWith] at hn
  | wrote g frame => exact ho
  | _ => simp [renewed?, written?, writtenWith] at hn

theorem span?_eq_none {n : Nat} {o : Output (Numbered M)} (ho : o.LeavesAlone n) :
    o.span? n = none := by
  unfold Output.span?
  split
  · exact if_neg ho
  · rfl

theorem lastRenewal_append {n : Nat} (es : List (Output (Numbered M)))
    (hes : ∀ e ∈ es, e.LeavesAlone n) (t : Nat) (c : Chronicle M) :
    lastRenewal n (stamped t es ++ c) = lastRenewal n c := by
  induction es with
  | nil => rfl
  | cons e es ih =>
    obtain ⟨he, hes⟩ := List.forall_mem_cons.mp hes
    rw [stamped_cons, List.cons_append, lastRenewal, if_neg (renewed?_ne he _), ih hes]

theorem term?_append {n : Nat} {es : List (Output (Numbered M))}
    (hes : ∀ e ∈ es, e.span? n = none) (t : Nat) (c : Chronicle M) :
    term? n (stamped t es ++ c) = term? n c := by
  have hnone : term? n (stamped t es) = none := by
    refine List.findSome?_eq_none_iff.mpr fun x hx => ?_
    obtain ⟨e, he, rfl⟩ := List.mem_map.mp hx
    rw [hes e he]
    rfl
  rw [term?] at hnone
  rw [term?, List.findSome?_append, hnone]
  rfl

/-- A message that is written, or is cut off, does not let another one wait. -/
theorem lastRenewal_through {n : Nat} {m : Numbered M} (hn : m.number ≠ n) (t g : Nat)
    (frames : List Bytes) (c : Chronicle M) :
    lastRenewal n (stamped t (through g m frames) ++ c) = lastRenewal n c := by
  have hask (c : Chronicle M) : lastRenewal n ((t, .asked m .send) :: c) = lastRenewal n c :=
    lastRenewal_append [.asked m .send] (by simpa [Output.LeavesAlone] using hn) t c
  induction frames using List.reverseRecOn with
  | nil => exact hask c
  | append_singleton frames frame ih =>
    rw [through_concat, stamped_cons, List.cons_append, lastRenewal, if_neg, ih]
    rw [List.map_append, map_snd_stamped]
    change (writtenWith [frame] (through g m frames ++ c.map Prod.snd)).map (·.number) ≠ some n
    rcases writtenWith_through_or g m frames [frame] (c.map Prod.snd) with h | h
    · simp [h]
    · simpa [h] using hn

theorem span?_of_mem_through {n g : Nat} {m : Numbered M} {frames : List Bytes}
    {o : Output (Numbered M)} (ho : o ∈ through g m frames) : o.span? n = none := by
  rcases mem_through ho with ⟨frame, -, rfl⟩ | rfl
  · rfl
  · rfl

/-! ### Messages that wait -/

/-- A message waits since a time, for a span or for ever, and its deadline says so. -/
structure WaitsSince (c : Chronicle M) (p : Pending (Numbered M)) (since : Nat)
    (span : Option Span) : Prop where
  renewed : lastRenewal p.message.number c = some since
  term : term? p.message.number c = some (since, span)
  deadline : p.deadline = span.map fun d => since + d.nanos
  steady : Steady (Message.timeout (M := M)) → Message.timeout p.message.body = span

/-- A message is failed for being late: it said so itself, or it waited for the span that it had
named since it last began to wait. -/
inductive TimedOut (now : Nat) (m : Numbered M) (c : Chronicle M) : Prop
  | answered (m₀ : Numbered M) (q : Question) (earlier : Chronicle M)
      (history : c = (now, .asked m .describe) :: (now, .asked m₀ q) :: earlier)
      (number : m₀.number = m.number)
      (answer : q = .send ∧ (Message.send m₀).2 = .error .timeout ∨
        ∃ data, q = .recv data ∧ (Message.recv m₀ data).2 = .error .timeout)
  | late (since : Nat) (span : Span) (renewed : lastRenewal m.number c = some since)
      (term : term? m.number c = some (since, some span)) (passed : since + span.nanos ≤ now)
      (steady : Steady (Message.timeout (M := M)) → Message.timeout m.body = some span)

namespace WaitsSince

variable {c : Chronicle M} {p : Pending (Numbered M)} {since : Nat} {span : Option Span}

theorem append (h : WaitsSince c p since span) (es : List (Output (Numbered M)))
    (hes : ∀ e ∈ es, e.LeavesAlone p.message.number) (t : Nat) :
    WaitsSince (stamped t es ++ c) p since span :=
  ⟨(lastRenewal_append es hes t c).trans h.renewed,
    (term?_append (fun e he => span?_eq_none (hes e he)) t c).trans h.term, h.deadline, h.steady⟩

/-- Another message is asked how long it waits. -/
theorem ask (h : WaitsSince c p since span) {m : Numbered M} (hm : m.number ≠ p.message.number)
    (t : Nat) : WaitsSince ((t, .asked m .timeout) :: c) p since span :=
  h.append [.asked m .timeout] (by simpa [Output.LeavesAlone] using hm) t

/-- Another message is written, or cut off. -/
theorem through (h : WaitsSince c p since span) {m : Numbered M} (hm : m.number ≠ p.message.number)
    (t g : Nat) (frames : List Bytes) :
    WaitsSince (stamped t (through g m frames) ++ c) p since span :=
  ⟨(lastRenewal_through hm t g frames c).trans h.renewed,
    (term?_append (fun _ he => span?_of_mem_through he) t c).trans h.term, h.deadline, h.steady⟩

/-- A message that is offered data goes on waiting as before if it declines it. -/
theorem heard (h : WaitsSince c p since span) (data : Bytes) :
    WaitsSince c (p.heard data) since span :=
  ⟨h.renewed, h.term, h.deadline, fun hs => (hs.recv p.message.body data).trans (h.steady hs)⟩

/-- A message that begins to wait is asked at once how long. -/
theorem begin (m : Numbered M) (t : Nat) (hc : lastRenewal m.number c = some t) :
    WaitsSince ((t, .asked m .timeout) :: c) ⟨m, Loop.deadline t m⟩ t (Message.timeout m) where
  renewed := by
    have hnone : renewed? (.asked m .timeout :: c.map Prod.snd) ≠ some m.number := nofun
    rw [lastRenewal, if_neg hnone, hc]
  term := by simp [term?, Output.span?]
  deadline := rfl
  steady _ := rfl

/-- A message whose deadline has passed is rightly failed. -/
theorem timedOut (h : WaitsSince c p since span) {now : Nat} (hlate : Loop.isLate now p = true)
    {es : List (Output (Numbered M))} (hes : ∀ e ∈ es, e.LeavesAlone p.message.number) :
    TimedOut now p.message (stamped now es ++ c) := by
  have hw := h.append es hes now
  rw [Loop.isLate, h.deadline] at hlate
  cases span with
  | none => cases hlate
  | some span => exact .late since span hw.renewed hw.term (by simpa using hlate) hw.steady

end WaitsSince

/-- A message that is written begins to wait. -/
theorem lastRenewal_written (t g : Nat) {m : Numbered M} {frames : List Bytes} {d : SendDirective}
    (hs : (Message.send m).2 = .ok (frames, d)) (c : Chronicle M) :
    lastRenewal m.number (stamped t (through g m frames) ++ c) = some t := by
  have hw := written?_through g hs (c.map Prod.snd)
  have hr : renewed? (through g m frames ++ c.map Prod.snd) = some m.number := by
    induction frames using List.reverseRecOn with
    | nil => exact congrArg (Option.map (·.number)) hw
    | append_singleton frames frame =>
      rw [through_concat] at hw ⊢
      exact congrArg (Option.map (·.number)) hw
  cases hes : through g m frames with
  | nil => simp [through] at hes
  | cons o es =>
    rw [hes] at hr
    rw [stamped_cons, List.cons_append, lastRenewal, if_pos]
    rwa [List.map_append, map_snd_stamped]

theorem Output.leavesAlone_of_isQuiet {o : Output (Numbered M)} (h : o.isQuiet = true) (n : Nat) :
    o.LeavesAlone n := by
  unfold isQuiet at h
  split at h <;> simp_all [LeavesAlone]

namespace Loop

/-! ### The deadlines of a loop -/

/-- Every message that waits does so with the right deadline, and those that were failed for being
late were so. What the loop has in its log happened now. -/
structure Timed (now : Nat) (c : Chronicle M) (l : Loop (Numbered M)) : Prop where
  waits : ∀ p ∈ l.receivers, ∃ since span, WaitsSince (stamped now l.log ++ c) p since span
  fair : ∀ m earlier, .failed m .timeout :: earlier <:+ l.log →
    TimedOut now m (stamped now earlier ++ c)

variable {now : Nat} {c : Chronicle M} {l l' : Loop (Numbered M)}

/-- What is new is looked at by itself. -/
theorem Timed.extend (h : l.Timed now c) (es : List (Output (Numbered M)))
    (hlog : l'.log = es ++ l.log)
    (hwaits : ∀ p ∈ l'.receivers, ∃ since span,
      WaitsSince (stamped now es ++ (stamped now l.log ++ c)) p since span)
    (hfair : ∀ m earlier, .failed m .timeout :: earlier <:+ es →
      TimedOut now m (stamped now earlier ++ (stamped now l.log ++ c))) : l'.Timed now c := by
  constructor
  case waits =>
    intro p hp
    rw [hlog, stamped_append, List.append_assoc]
    exact hwaits p hp
  case fair =>
    intro m earlier hs
    rw [hlog] at hs
    clear hlog hwaits
    induction es with
    | nil => exact h.fair m earlier hs
    | cons e es ih =>
      rcases List.suffix_cons_iff.mp hs with heq | hs
      · obtain ⟨rfl, rfl⟩ := List.cons.inj heq
        have ht := hfair m es (List.suffix_refl _)
        rwa [← List.append_assoc, ← stamped_append] at ht
      · exact ih (fun m earlier hs => hfair m earlier (hs.trans (List.suffix_cons ..))) hs

/-- Nothing is done that has to do with how long messages wait; some may be offered data. -/
theorem Timed.rest (h : l.Timed now c) (es : List (Output (Numbered M)))
    (hlog : l'.log = es ++ l.log)
    (hreceivers : ∀ p ∈ l'.receivers, p ∈ l.receivers ∨
      ∃ q ∈ l.receivers, ∃ data, p = q.heard data)
    (hes : ∀ e ∈ es, (∀ p ∈ l'.receivers, e.LeavesAlone p.message.number) ∧
      ∀ m, e ≠ .failed m .timeout) : l'.Timed now c := by
  refine h.extend _ hlog (fun p hp => ?_) fun m earlier hs => ?_
  · have hw : ∃ since span, WaitsSince (stamped now l.log ++ c) p since span := by
      rcases hreceivers p hp with hp | ⟨q, hq, data, rfl⟩
      · exact h.waits p hp
      · obtain ⟨since, span, hw⟩ := h.waits q hq
        exact ⟨since, span, hw.heard data⟩
    obtain ⟨since, span, hw⟩ := hw
    exact ⟨since, span, hw.append _ (fun e he => (hes e he).1 p hp) now⟩
  · exact absurd rfl ((hes _ (hs.subset List.mem_cons_self)).2 m)

theorem Timed.settles {taken : List (Numbered M)} (h : l.Timed now c) (hs : l.Settles taken l') :
    l'.Timed now c := by
  obtain ⟨es, hlog, hes⟩ := hs.log
  refine h.rest _ hlog (fun p hp => .inl (hs.receivers hp)) fun e he => ⟨fun p _ => ?_, ?_⟩
  · exact Output.leavesAlone_of_isQuiet (hes e he) _
  · rintro m rfl
    exact absurd (hes _ he) (by simp [Output.isQuiet])

theorem Timed.publish (h : l.Timed now c) : l.publish.Timed now c :=
  h.rest [.published l.snapshot] rfl (fun _ hp => .inl hp) (by simp [Output.LeavesAlone])

theorem Timed.completed (h : l.Timed now c) : l.completed.Timed now c := by
  have hcounted : l.counted.Timed now c :=
    h.rest [] rfl (fun _ hp => .inl hp) (by simp)
  rcases completed_cases l with ⟨heq, -⟩ | ⟨most, -, hs, -, heq⟩
  · rw [heq]
    exact hcounted
  · have hset : Settles [] l.counted (l.counted.recycle "message limit reached") :=
      .recycle (by exact hs) _
    rw [heq]
    exact hcounted.settles hset

/-- A message is failed with its own answer. -/
theorem Timed.fail (h : l.Timed now c) {m₀ m : Numbered M} {q : Question} {e : QueueError}
    {rest : List (Output (Numbered M))} (hlog : l.log = .asked m₀ q :: rest)
    (hnumber : m₀.number = m.number) (hanswer : q = .send ∧ (Message.send m₀).2 = .error e ∨
      ∃ data, q = .recv data ∧ (Message.recv m₀ data).2 = .error e) :
    ((l.ask m .describe).put (.failed m e)).Timed now c := by
  refine h.extend [.failed m e, .asked m .describe] rfl (fun p hp => ?_)
    fun m' earlier hs => ?_
  · obtain ⟨since, span, hw⟩ := h.waits p hp
    exact ⟨since, span, hw.append _ (by simp [Output.LeavesAlone]) now⟩
  · obtain ⟨⟨rfl, rfl⟩, rfl⟩ : (m' = m ∧ .timeout = e) ∧ earlier = [.asked m .describe] := by
      rcases List.suffix_cons_iff.mp hs with heq | hs
      · exact (List.cons.inj heq).imp_left Output.failed.inj
      · exact absurd (hs.subset List.mem_cons_self) (by simp)
    refine .answered m₀ q (stamped now rest ++ c) ?_ hnumber hanswer
    rw [hlog]
    rfl

/-- The message that took data does what it answered. -/
theorem Timed.follow (h : l.Timed now c) (hs : l.state = .connected) {m₀ : Numbered M}
    {data : Bytes} {rest : List (Output (Numbered M))}
    (hlog : l.log = .asked m₀ (.recv data) :: rest)
    {before after : List (Pending (Numbered M))} (hr : l.receivers = before ++ after)
    (hne : ∀ p ∈ l.receivers, m₀.number ≠ p.message.number)
    (htaken : (Message.recv m₀ data).2 ≠ .ok .notMine) :
    (l.follow now (Message.recv m₀ data).1 before after (Message.recv m₀ data).2).Timed now c := by
  generalize hans : (Message.recv m₀ data).2 = answer at htaken
  cases answer with
  | error e =>
    have hfail := h.fail (m := (Message.recv m₀ data).1) hlog rfl (.inr ⟨data, rfl, hans⟩)
    have hset : Settles [] ((l.ask (Message.recv m₀ data).1 .describe).put
      (.failed (Message.recv m₀ data).1 e)) _ := .recycle (by exact hs) "receiver error"
    exact hfail.settles hset
  | ok d =>
    cases d with
    | notMine => exact absurd rfl htaken
    | mine =>
      refine Timed.completed (h.rest [.done _] rfl (fun _ hp => .inl hp) ?_)
      simp [Output.LeavesAlone]
    | sendAgain =>
      dsimp only [Loop.follow]
      split
      · refine h.rest [.asked _ .traffic, .asked _ .blocking] rfl (fun _ hp => .inl hp) ?_
        simp [Output.LeavesAlone]
      · refine h.rest [.asked _ .traffic, .asked _ .blocking] rfl (fun _ hp => .inl hp) ?_
        simp [Output.LeavesAlone]
    | recvAgain =>
      refine h.extend [.asked (Message.recv m₀ data).1 .timeout] rfl (fun p hp => ?_)
        (by simp [List.suffix_cons_iff])
      have hp : p ∈ l.receivers ∨
          p = ⟨(Message.recv m₀ data).1, deadline now (Message.recv m₀ data).1⟩ := by
        rw [hr]
        simp only [Loop.follow, List.mem_append, List.mem_cons] at hp ⊢
        tauto
      rcases hp with hp | rfl
      · obtain ⟨since, span, hw⟩ := h.waits p hp
        exact ⟨since, span, hw.ask (m := (Message.recv m₀ data).1) (hne p hp) now⟩
      · refine ⟨_, _, .begin (c := stamped now l.log ++ c) _ now ?_⟩
        rw [hlog, stamped_cons, List.cons_append, lastRenewal, if_pos]
        simp only [renewed?, hans]
        rfl

/-- Another message is written, or cut off. -/
theorem Timed.writing (h : l.Timed now c) {m : Numbered M} {g : Nat} {frames : List Bytes}
    (hlog : l'.log = through g m frames ++ l.log) (hr : l'.receivers = l.receivers)
    (hne : ∀ p ∈ l.receivers, m.number ≠ p.message.number) : l'.Timed now c := by
  refine h.extend _ hlog (fun p hp => ?_) fun m' earlier hs => ?_
  · rw [hr] at hp
    obtain ⟨since, span, hw⟩ := h.waits p hp
    exact ⟨since, span, hw.through (hne p hp) now g frames⟩
  · rcases mem_through (hs.subset List.mem_cons_self) with ⟨frame, -, heq⟩ | heq
    · cases heq
    · cases heq

/-- The message that was written waits, or does not. -/
theorem Timed.afterSend (h : l.Timed now c) {m : Numbered M} {g : Nat} {frames : List Bytes}
    {d : SendDirective} {rest : List (Output (Numbered M))}
    (hlog : l.log = through g m frames ++ rest) (hs : (Message.send m).2 = .ok (frames, d))
    (hne : ∀ p ∈ l.receivers, m.number ≠ p.message.number) (k : Traffic) :
    (l.afterSend now k (Message.send m).1 d).Timed now c := by
  cases d with
  | done =>
    refine Timed.completed (h.rest [.done _] rfl (fun _ hp => .inl hp) ?_)
    simp [Output.LeavesAlone]
  | sendAgain =>
    refine h.rest [.asked _ .describe] rfl (fun _ hp => .inl hp) ?_
    simp [Output.LeavesAlone]
  | recvAgain =>
    refine h.extend [.asked (Message.send m).1 .timeout] rfl (fun p hp => ?_)
      (by simp [List.suffix_cons_iff])
    rcases List.mem_append.mp hp with hp | hp
    · obtain ⟨since, span, hw⟩ := h.waits p hp
      exact ⟨since, span, hw.ask (m := (Message.send m).1) (hne p hp) now⟩
    · obtain rfl := List.mem_singleton.mp hp
      refine ⟨_, _, .begin (c := stamped now l.log ++ c) _ now ?_⟩
      rw [hlog, stamped_append, List.append_assoc]
      exact lastRenewal_written now g hs _

omit [Message M] in
/-- A message that waits is none of the others. -/
theorem number_ne_of_split {before after : List (Pending (Numbered M))}
    {q : Pending (Numbered M)} (hd : (numbers (before ++ q :: after)).Nodup)
    (p : Pending (Numbered M)) (hp : p ∈ before ++ after) :
    q.message.number ≠ p.message.number := by
  have hperm : (numbers (before ++ q :: after)).Perm (numbers (q :: (before ++ after))) :=
    List.perm_middle.map _
  have hq := (List.nodup_cons.mp (hperm.nodup_iff.mp hd)).1
  exact fun heq => hq (List.mem_map.mpr ⟨p, hp, heq.symm⟩)

/-- What a message is asked on a new transport has to do with itself only. -/
theorem leavesAlone_of_mem_recalled {n : Nat} {p : Pending (Numbered M)}
    {o : Output (Numbered M)} (ho : o ∈ recalled p) :
    (p.message.number ≠ n → o.LeavesAlone n) ∧ ∀ m, o ≠ .failed m .timeout := by
  rcases mem_recalled ho with rfl | rfl | rfl | rfl
  · exact ⟨fun _ => trivial, nofun⟩
  · exact ⟨fun hn heq => absurd heq hn, nofun⟩
  · exact ⟨fun hn => hn, nofun⟩
  · exact ⟨fun _ => trivial, nofun⟩

/-- A message that goes on waiting after a reconnect does so anew. -/
theorem Timed.reconnects (h : l.Timed now c) (hd : (numbers l.receivers).Nodup)
    (hs : l.state = .connecting) : ((l.opened l.generation).retryPending now).Timed now c := by
  rw [opened_eq hs, retryPending_eq]
  refine h.extend ((resent l.receivers).map (.asked · .traffic) ++
    (l.receivers.reverse.flatMap recalled ++ [.notice .connect])) (by simp) (fun p hp => ?_) ?_
  · obtain ⟨q, hq, hp⟩ := List.mem_filterMap.mp hp
    split at hp
    · next m heq =>
      obtain rfl := Option.some.inj hp
      obtain ⟨before, after, hsplit⟩ := List.append_of_mem hq
      have hm : m.number = q.message.number := congrArg (·.1.number) heq.symm
      have hne (p' : Pending (Numbered M)) (hp' : p' ∈ after) : p'.message.number ≠ m.number := by
        rw [hm]
        exact (number_ne_of_split (hsplit ▸ hd) p' (List.mem_append_right _ hp')).symm
      have hw : WaitsSince _ ⟨m, deadline now m⟩ now (Message.timeout m) :=
        .begin m now (c := stamped now (.retried m .recvAgain :: .asked q.message .retry ::
          (before.reverse.flatMap recalled ++ [.notice .connect])) ++ (stamped now l.log ++ c))
          (if_pos rfl)
      refine ⟨now, Message.timeout m, ?_⟩
      have hw := hw.append ((resent l.receivers).map (.asked · .traffic) ++
        after.reverse.flatMap recalled) (fun e he => ?_) now
      · have hq : recalled q =
            [.asked m .timeout, .retried m .recvAgain, .asked q.message .retry] := by
          rw [recalled, heq]
        rw [hsplit] at hw ⊢
        simpa [hq] using hw
      · simp only [List.mem_append, List.mem_map, List.mem_flatMap, List.mem_reverse] at he
        rcases he with ⟨m', -, rfl⟩ | ⟨p', hp', he⟩
        · trivial
        · exact (leavesAlone_of_mem_recalled he).1 (hne p' hp')
    · cases hp
  · intro m earlier hs
    refine absurd (hs.subset List.mem_cons_self) ?_
    simp only [List.mem_append, List.mem_map, List.mem_flatMap, List.mem_singleton]
    rintro (⟨m', -, heq⟩ | ⟨p, -, hp⟩ | heq)
    · cases heq
    · exact (leavesAlone_of_mem_recalled (n := 0) hp).2 m rfl
    · cases heq

theorem mem_expired {ps : List (Pending (Numbered M))} {o : Output (Numbered M)}
    (ho : o ∈ expired ps) : (∀ n, o.LeavesAlone n) ∧
      ∀ m, o = .failed m .timeout → ∃ p ∈ ps, p.message = m := by
  obtain ⟨p, hp, ho⟩ := List.mem_flatMap.mp ho
  simp only [List.mem_cons, List.not_mem_nil, or_false] at ho
  rcases ho with rfl | rfl | rfl
  · exact ⟨fun _ => trivial, fun m heq => ⟨p, List.mem_reverse.mp hp, (Output.failed.inj heq).1⟩⟩
  · exact ⟨fun _ => trivial, nofun⟩
  · exact ⟨fun _ => trivial, nofun⟩

/-- The messages that are late are rightly failed. -/
theorem Timed.expires (h : l.Timed now c) : Timed now c { l with
    receivers := l.receivers.filter fun p => !isLate now p
    log := expired (l.receivers.filter (isLate now)) ++ l.log } := by
  refine h.extend _ rfl (fun p hp => ?_) fun m earlier hs => ?_
  · obtain ⟨since, span, hw⟩ := h.waits p (List.mem_of_mem_filter hp)
    exact ⟨since, span, hw.append _ (fun e he => (mem_expired he).1 _) now⟩
  · obtain ⟨p, hp, rfl⟩ := (mem_expired (hs.subset List.mem_cons_self)).2 m rfl
    obtain ⟨hp, hlate⟩ := List.mem_filter.mp hp
    obtain ⟨since, span, hw⟩ := h.waits p hp
    exact hw.timedOut hlate fun e he =>
      (mem_expired (hs.subset (List.mem_cons_of_mem _ he))).1 _

/-- Before a message is written, those that wait are asked whether they are blocking. -/
theorem Timed.picked (h : l.Timed now c) {es : List (Output (Numbered M))} {k : Traffic}
    {m : Numbered M} {b : Buckets (Numbered M)} (hp : l.Picks es k m b) :
    Timed now c { l with log := es ++ l.log } := by
  refine h.rest es rfl (fun _ hp => .inl hp) fun e he => ?_
  obtain ⟨m, rfl⟩ := hp.asked e he
  exact ⟨fun _ _ => trivial, by simp⟩

/-- Messages are offered data. Those that decline it go on waiting as before. -/
theorem Timed.offers (h : l.Timed now c) {data : Bytes} {ps : List (Pending (Numbered M))}
    {es : List (Output (Numbered M))} (hlog : l'.log = es ++ l.log)
    (hes : ∀ e ∈ es, e = .notice (.unrouted data) ∨ e ∈ offered data ps)
    (hr : ∀ p ∈ l'.receivers, p ∈ l.receivers ∨ ∃ q ∈ l.receivers, p = q.heard data)
    (hps : ∀ q ∈ ps, q.Declines data ∨ ∀ p ∈ l'.receivers, q.message.number ≠ p.message.number) :
    l'.Timed now c := by
  refine h.rest es hlog (fun p hp => ?_) fun e he => ?_
  · exact (hr p hp).imp_right fun ⟨q, hq, heq⟩ => ⟨q, hq, data, heq⟩
  · rcases hes e he with rfl | he
    · exact ⟨fun _ _ => trivial, by simp⟩
    · obtain ⟨q, hq, rfl⟩ := mem_offered he
      refine ⟨fun p hp heq hagain => ?_, by simp⟩
      rcases hps q hq with declined | hne
      · cases declined.symm.trans hagain
      · exact hne p hp heq

/-- Data is taken: the message that takes it may wait anew. -/
theorem Timed.takes (h : l.Timed now c) (hnodup : (numbers l.receivers).Nodup)
    (hs : l.state = .connected) {before after : List (Pending (Numbered M))}
    {q : Pending (Numbered M)} {data : Bytes} (waits : l.receivers = before ++ q :: after)
    (declined : ∀ p ∈ before, p.Declines data)
    (taken : (Message.recv q.message data).2 ≠ .ok .notMine) : (Loop.follow now { l with
      received := l.received + 1
      receivers := before.map (Pending.heard data) ++ after
      log := offered data (before ++ [q]) ++ l.log } (q.heard data).message
        (before.map (Pending.heard data)) after (Message.recv q.message data).2).Timed now c := by
  have hne (p : Pending (Numbered M)) (hp : p ∈ before.map (Pending.heard data) ++ after) :
      q.message.number ≠ p.message.number := by
    rw [waits] at hnodup
    rcases List.mem_append.mp hp with hp | hp
    · obtain ⟨p, hb, rfl⟩ := List.mem_map.mp hp
      exact number_ne_of_split hnodup p (List.mem_append_left _ hb)
    · exact number_ne_of_split hnodup p (List.mem_append_right _ hp)
  have hoffered : Timed now c { l with
      received := l.received + 1
      receivers := before.map (Pending.heard data) ++ after
      log := offered data (before ++ [q]) ++ l.log } := by
    refine h.offers rfl (fun _ he => .inr he) (fun p hp => ?_) fun p hp => ?_
    · rw [waits]
      rcases List.mem_append.mp hp with hp | hp
      · obtain ⟨p, hb, rfl⟩ := List.mem_map.mp hp
        exact .inr ⟨p, List.mem_append_left _ hb, rfl⟩
      · exact .inl (List.mem_append_right _ (List.mem_cons_of_mem _ hp))
    · rcases List.mem_append.mp hp with hp | hp
      · exact .inl (declined p hp)
      · obtain rfl := List.mem_singleton.mp hp
        exact .inr hne
  have hlast : offered data (before ++ [q]) ++ l.log =
      .asked q.message (.recv data) :: (offered data before ++ l.log) := by simp [offered]
  exact hoffered.follow hs hlast rfl hne taken

/-- Every deed lets messages wait with the right deadline, and fails only those that are late. -/
theorem Deed.timed {taken : List (Numbered M)} {heard : Option Bytes}
    (hd : Deed now l taken heard l') (h : l.Timed now c) (hnodup : l.held.Nodup) :
    l'.Timed now c := by
  have hreceivers : (numbers l.receivers).Nodup := (List.nodup_append.mp hnodup).1
  cases hd with
  | settles hs => exact h.settles hs
  | reconnects hs => exact h.reconnects hreceivers hs
  | declines data hs declined =>
    refine h.offers rfl (fun e he => List.mem_cons.mp he) (fun p hp => ?_)
      fun q hq => .inl (declined q hq)
    obtain ⟨q, hq, rfl⟩ := List.mem_map.mp hp
    exact .inr ⟨q, hq, rfl⟩
  | takes data hs waits declined taken => exact h.takes hreceivers hs waits declined taken
  | expires before after => exact (h.settles before).expires.settles after
  | @refuses es k m b e picked refused =>
    have hasked : Timed now c { l with buckets := b, log := .asked m .send :: (es ++ l.log) } := by
      refine (h.picked picked).rest [.asked m .send] rfl (fun _ hp => .inl hp) fun e he => ?_
      obtain rfl := List.mem_singleton.mp he
      exact ⟨(picked.number_ne hnodup).1, by simp⟩
    exact hasked.fail rfl rfl (.inl ⟨rfl, refused⟩)
  | @breaks es k m b _ before after frame d wire picked encoded broken =>
    have hcut : Timed now c { l with
        buckets := b.pushFront k (Message.send m).1, wire
        log := through l.generation m before ++ (es ++ l.log) } :=
      (h.picked picked).writing rfl rfl ((picked.number_ne hnodup).1)
    refine Timed.settles ?_ broken
    exact hcut.rest [.writeFailed l.generation frame] rfl (fun _ hp => .inl hp)
      (by simp [Output.LeavesAlone])
  | @writes es k m b frames d wire picked encoded =>
    have hwritten : Timed now c { l with
        buckets := b, wire, sent := l.sent + 1
        log := through l.generation m frames ++ (es ++ l.log) } :=
      (h.picked picked).writing rfl rfl ((picked.number_ne hnodup).1)
    exact hwritten.afterSend rfl encoded ((picked.number_ne hnodup).1) k

end Loop

end Hearth.Link
