import Hearth.Proofs.Link.Attempts
import Hearth.Proofs.Link.Custody
import Hearth.Proofs.Link.Steady

/-!
# Messages in line

The messages that are still to be written stand in line, a line for every class. Nothing but a
round of writing takes the first one out of its line. All else that a loop does puts messages before
or behind those that are there, so that these keep their order, or it fails all of them.

## Main definitions

* `Output.Serves` : a message is written or finished.
* `Precedes` : a message was served before another one was written.
* `Loop.Queues` : no message is written, and those in line stay there in their order.

## Main results

* `Loop.handle_queues` : what an input does.
* `Loop.sendOne_queues` : what becomes of a message after it was asked what to write.
-/

namespace Hearth.Link

variable {M : Type}

/-- An output that is neither about writing a message nor about its class. -/
def Output.isAside : Output M → Bool
  | .asked _ .send => false
  | .asked _ .traffic => false
  | _ => true

/-- A message is asked what to write. -/
def Output.Sends (n : Nat) (o : Output (Numbered M)) : Prop :=
  ∃ m, o = .asked m .send ∧ m.number = n

/-- A message is asked what to write, or finished. -/
def Output.Serves (n : Nat) (o : Output (Numbered M)) : Prop := o.Sends n ∨ o.finished? = some n

/-- Before a message was asked what to write for the first time in a history, newest output first,
something had happened. -/
def Precedes (p : Output (Numbered M) → Prop) (b : Nat) (past : List (Output (Numbered M))) :
    Prop :=
  ∀ o earlier, o :: earlier <:+ past → o.Sends b → ∃ e ∈ earlier, p e

/-- A message was accepted: it was asked for its class, as every message is first of all then. -/
def Accepted (past : List (Output (Numbered M))) (n : Nat) : Prop :=
  ∃ m, .asked m .traffic ∈ past ∧ m.number = n

/-- What happened has happened, whatever else does. -/
theorem happened_mono {p : Output (Numbered M) → Prop} {es past : List (Output (Numbered M))}
    (hs : es ⊆ past) (h : ∃ o ∈ es, p o) : ∃ o ∈ past, p o :=
  h.imp fun _ ho => ho.imp_left (hs ·)

theorem Accepted.mono {es past : List (Output (Numbered M))} (hs : es ⊆ past) {n : Nat}
    (h : Accepted es n) : Accepted past n :=
  h.imp fun _ hm => hm.imp_left (hs ·)

namespace Precedes

variable {p : Output (Numbered M) → Prop} {b : Nat} {es past : List (Output (Numbered M))}

theorem nil : Precedes p b [] := fun o earlier h => by simp at h

theorem cons (h : Precedes p b past) {o : Output (Numbered M)}
    (ho : o.Sends b → ∃ e ∈ past, p e) : Precedes p b (o :: past) := by
  intro o' earlier hs hb
  rcases List.suffix_cons_iff.mp hs with he | hs
  · obtain ⟨rfl, rfl⟩ := List.cons.inj he
    exact ho hb
  · exact h o' earlier hs hb

/-- Nothing else is written. -/
theorem append (h : Precedes p b past) (hes : ∀ m, .asked m .send ∉ es) :
    Precedes p b (es ++ past) := by
  induction es with
  | nil => exact h
  | cons o es ih =>
    refine (ih fun m hm => hes m (List.mem_cons_of_mem _ hm)).cons fun ⟨m, ho, _⟩ => ?_
    exact absurd (ho ▸ List.mem_cons_self) (hes m)

end Precedes

namespace Loop

variable [Message M]

/-- `l'` comes from `l` with new outputs, and no message was written. Those in line are still there,
in their order, or they were finished. Those that were asked for their class came from the hand or
were had before, and stand in the line of that class, if they were not finished. -/
structure Passes (es : List (Output (Numbered M))) (hand : List Nat) (l l' : Loop (Numbered M)) :
    Prop where
  log : l'.log = es ++ l.log
  unsent : ∀ m, .asked m .send ∉ es
  order : (∀ c, (l.buckets.get c).Sublist (l'.buckets.get c)) ∨
    ∀ c, ∀ m ∈ l.buckets.get c, ∃ o ∈ es, o.finished? = some m.number
  classed : ∀ c, ∀ m ∈ l'.buckets.get c, m ∈ l.buckets.get c ∨ Message.traffic m = c
  placed : ∀ m, .asked m .traffic ∈ es → m.number ∈ hand ++ l.held ∧
    (m ∈ l'.buckets.get (Message.traffic m) ∨ ∃ o ∈ es, o.finished? = some m.number)
  held : ∀ n ∈ l'.held, n ∈ hand ++ l.held

/-- `l'` comes from `l` without a message that is written; those in line keep their order. -/
def Queues (hand : List Nat) (l l' : Loop (Numbered M)) : Prop := ∃ es, l.Passes es hand l'

namespace Queues

variable {hand : List Nat} {l l' l₁ l₂ l₃ : Loop (Numbered M)}

/-- Messages are put in their places, and nothing is done to the outside. -/
theorem of_eq (hl : l'.log = l.log)
    (hs : ∀ c, (l.buckets.get c).Sublist (l'.buckets.get c))
    (hc : ∀ c, ∀ m ∈ l'.buckets.get c, m ∈ l.buckets.get c ∨ Message.traffic m = c)
    (hh : ∀ n ∈ l'.held, n ∈ hand ++ l.held) : l.Queues hand l' :=
  ⟨[], hl, fun _ => List.not_mem_nil, .inl hs, hc, fun _ h => absurd h List.not_mem_nil, hh⟩

/-- The messages that wait are others, of those that were there. -/
theorem of_receivers (hl : l'.log = l.log) (hb : l'.buckets = l.buckets)
    (hh : ∀ n ∈ numbers l'.receivers, n ∈ hand ++ l.held) : l.Queues hand l' := by
  refine of_eq hl (fun c => by rw [hb]) (fun c m hm => .inl (hb ▸ hm)) fun n hn => ?_
  rw [Loop.held, hb, List.mem_append] at hn
  rcases hn with hn | hn
  · exact hh n hn
  · exact List.mem_append_right _ (List.mem_append_right _ hn)

theorem refl (l : Loop (Numbered M)) : l.Queues hand l :=
  of_receivers rfl rfl fun _ hn => List.mem_append_right _ (List.mem_append_left _ hn)

theorem trans (h₁ : l₁.Queues hand l₂) (h₂ : l₂.Queues hand l₃) : l₁.Queues hand l₃ := by
  obtain ⟨es₁, h₁⟩ := h₁
  obtain ⟨es₂, h₂⟩ := h₂
  have hheld {n : Nat} (hn : n ∈ hand ++ l₂.held) : n ∈ hand ++ l₁.held := by
    rcases List.mem_append.mp hn with hn | hn
    · exact List.mem_append_left _ hn
    · exact h₁.held n hn
  have hs₁ : es₁ ⊆ es₂ ++ es₁ := List.subset_append_right ..
  have hs₂ : es₂ ⊆ es₂ ++ es₁ := List.subset_append_left ..
  refine ⟨es₂ ++ es₁, ?_, ?_, ?_, ?_, ?_, fun n hn => hheld (h₂.held n hn)⟩
  · rw [h₂.log, h₁.log, List.append_assoc]
  · intro m hm
    rcases List.mem_append.mp hm with hm | hm
    · exact h₂.unsent m hm
    · exact h₁.unsent m hm
  · rcases h₁.order with ho₁ | hf₁
    · rcases h₂.order with ho₂ | hf₂
      · exact .inl fun c => (ho₁ c).trans (ho₂ c)
      · exact .inr fun c m hm => happened_mono hs₂ (hf₂ c m ((ho₁ c).subset hm))
    · exact .inr fun c m hm => happened_mono hs₁ (hf₁ c m hm)
  · intro c m hm
    rcases h₂.classed c m hm with hm | hc
    · exact h₁.classed c m hm
    · exact .inr hc
  · intro m hm
    rcases List.mem_append.mp hm with hm | hm
    · obtain ⟨hn, hp⟩ := h₂.placed m hm
      exact ⟨hheld hn, hp.imp_right (happened_mono hs₂)⟩
    · obtain ⟨hn, hp | hf⟩ := h₁.placed m hm
      · rcases h₂.order with ho₂ | hf₂
        · exact ⟨hn, .inl ((ho₂ _).subset hp)⟩
        · exact ⟨hn, .inr (happened_mono hs₂ (hf₂ _ m hp))⟩
      · exact ⟨hn, .inr (happened_mono hs₁ hf)⟩

/-- Something is done that is neither about writing nor about the class of a message. -/
theorem put (h : l.Queues hand l') {o : Output (Numbered M)} (ho : o.isAside = true) :
    l.Queues hand (l'.put o) := by
  have hnone {m : Numbered M} {q : Question} (hm : .asked m q ∈ [o]) :
      q ≠ .send ∧ q ≠ .traffic := by
    obtain rfl := List.mem_singleton.mp hm
    constructor <;> rintro rfl <;> cases ho
  exact h.trans ⟨[o], rfl, fun m hm => absurd rfl (hnone hm).1, .inl fun c => .refl _,
    fun c m hm => .inl hm, fun m hm => absurd rfl (hnone hm).2,
    fun n hn => List.mem_append_right _ hn⟩

theorem spares (h : l.Spares l') : l.Queues hand l' := by
  obtain ⟨es, hl, hes⟩ := h.log
  refine ⟨es, hl, fun m hm => absurd (hes _ hm) nofun, .inl fun c => ?_, fun c m hm => ?_,
    fun m hm => absurd (hes _ hm) nofun, fun n hn => List.mem_append_right _ (h.held ▸ hn)⟩
  · rw [h.buckets]
  · exact .inl (h.buckets ▸ hm)

/-- A message in the hand is put behind or before those of its class. -/
theorem push {c : Traffic} {m : Numbered M} {b : Buckets (Numbered M)}
    (hb : b = l.buckets.pushBack c m ∨ b = l.buckets.pushFront c m)
    (hm : m.number ∈ hand ++ l.held) (hc : Message.traffic m = c) :
    l.Queues hand { l with buckets := b } := by
  have hall : b.all.Perm (m :: l.buckets.all) := by
    rcases hb with rfl | rfl
    · exact Buckets.all_pushBack ..
    · exact Buckets.all_pushFront ..
  refine of_eq rfl (fun c' => ?_) (fun c' m' hm' => ?_) fun n hn => ?_
  · rcases hb with rfl | rfl
    · rw [Buckets.get_pushBack]
      split
      · exact List.sublist_append_left ..
      · exact .refl _
    · rw [Buckets.get_pushFront]
      split
      · exact List.sublist_cons_self ..
      · exact .refl _
  · have hcases : m' ∈ l.buckets.get c' ∨ m' = m ∧ c' = c := by
      rcases hb with rfl | rfl
      · rw [Buckets.get_pushBack] at hm'
        split at hm' <;> simp_all
      · rw [Buckets.get_pushFront] at hm'
        split at hm' <;> simp_all [or_comm]
    rcases hcases with h | ⟨rfl, rfl⟩
    · exact .inl h
    · exact .inr hc
  · rw [Loop.held, List.mem_append, (hall.map (·.number)).mem_iff, List.map_cons,
      List.mem_cons] at hn
    rcases hn with hn | rfl | hn
    · exact List.mem_append_right _ (List.mem_append_left _ hn)
    · exact hm
    · exact List.mem_append_right _ (List.mem_append_right _ hn)

/-- A message that stands in its line is asked for its class. -/
theorem enlist (h : l.Queues hand l') {m : Numbered M}
    (hm : m ∈ l'.buckets.get (Message.traffic m)) : l.Queues hand (l'.ask m .traffic) := by
  refine h.trans ⟨[.asked m .traffic], rfl, by simp, .inl fun c => .refl _, fun c m hm => .inl hm,
    fun m' hm' => ?_, fun n hn => List.mem_append_right _ hn⟩
  obtain rfl : m' = m := by simpa using hm'
  have hall : m' ∈ l'.buckets.all := Buckets.mem_all.mpr ⟨_, hm⟩
  exact ⟨List.mem_append_right _ (List.mem_append_right _ (List.mem_map_of_mem hall)), .inl hm⟩

/-- A message in the hand is one that the loop has. -/
theorem absorb (h : l.Queues hand l') (hh : ∀ n ∈ hand, n ∈ l.held) : l.Queues [] l' := by
  have hheld {n : Nat} (hn : n ∈ hand ++ l.held) : n ∈ [] ++ l.held := by
    rcases List.mem_append.mp hn with hn | hn
    · exact hh n hn
    · exact hn
  obtain ⟨es, h⟩ := h
  exact ⟨es, h.log, h.unsent, h.order, h.classed,
    fun m hm => ⟨hheld (h.placed m hm).1, (h.placed m hm).2⟩, fun n hn => hheld (h.held n hn)⟩

theorem foldl {α : Type} {f : Loop (Numbered M) → α → Loop (Numbered M)}
    (hf : ∀ (l : Loop (Numbered M)) (x : α), l.Queues hand (f l x)) (xs : List α)
    (l : Loop (Numbered M)) : l.Queues hand (xs.foldl f l) := by
  induction xs generalizing l with
  | nil => exact .refl l
  | cons x xs ih => exact (hf l x).trans (ih _)

end Queues

/-! ### Operations -/

section Operations

variable {hand : List Nat}

theorem pushBack_queues (l : Loop (Numbered M)) {m : Numbered M}
    (hm : m.number ∈ hand ++ l.held) : l.Queues hand (l.pushBack m) := by
  refine (Queues.push (.inl rfl) hm rfl).enlist ?_
  rw [Buckets.get_pushBack, if_pos rfl]
  exact List.mem_append_right _ List.mem_cons_self

theorem pushFront_queues (l : Loop (Numbered M)) {m : Numbered M}
    (hm : m.number ∈ hand ++ l.held) : l.Queues hand (l.pushFront m) := by
  refine (Queues.push (.inr rfl) hm rfl).enlist ?_
  rw [Buckets.get_pushFront, if_pos rfl]
  exact List.mem_cons_self

theorem accept_queues (l : Loop (Numbered M)) {m : Numbered M} (hm : m.number ∈ hand) :
    l.Queues hand (l.accept m) := by
  have hd : l.Queues hand (l.ask m .describe) := .put (.refl l) rfl
  have hb := hd.trans (pushBack_queues _ (List.mem_append_left _ hm))
  exact hb.trans (.spares (.of_eq rfl rfl rfl))

theorem acceptMany_queues (ms : List (Numbered M)) (l : Loop (Numbered M))
    (hms : ∀ m ∈ ms, m.number ∈ hand) : l.Queues hand (ms.foldl accept l) := by
  induction ms generalizing l with
  | nil => exact .refl l
  | cons m ms ih =>
    refine (accept_queues l (hms m List.mem_cons_self)).trans (ih _ fun m' hm' => ?_)
    exact hms m' (List.mem_cons_of_mem _ hm')

theorem await_queues (now : Nat) (l : Loop (Numbered M)) {m : Numbered M}
    (hm : m.number ∈ hand ++ l.held) : l.Queues hand (l.await now m) := by
  have ha : l.Queues hand (l.ask m .timeout) := .put (.refl l) rfl
  refine ha.trans (.of_receivers rfl rfl fun n hn => ?_)
  rw [await, numbers, List.map_append, List.mem_append] at hn
  rcases hn with hn | hn
  · exact List.mem_append_right _ (List.mem_append_left _ hn)
  · obtain rfl : n = m.number := by simpa using hn
    exact hm

omit [Message M] in
theorem failMany_log (e : QueueError) (ms : List (Numbered M)) (l : Loop (Numbered M)) :
    (ms.foldl (fun l m => l.put (.failed m e)) l).log =
      (ms.map (.failed · e)).reverse ++ l.log := by
  induction ms generalizing l with
  | nil => rfl
  | cons m ms ih =>
    rw [List.foldl_cons, ih, List.map_cons, List.reverse_cons, List.append_assoc]
    rfl

/-- All messages in line are finished. -/
theorem failAll_queues (l : Loop (Numbered M)) (e : QueueError) :
    l.Queues hand (l.failAll e) := by
  obtain ⟨-, hb⟩ := l.failAll_receivers e
  refine ⟨_, failMany_log .., by simp, .inr fun c m hm => ?_, fun c m hm => ?_, by simp, ?_⟩
  · have hall : m ∈ l.buckets.all := Buckets.mem_all.mpr ⟨c, hm⟩
    refine ⟨.failed m e, ?_, rfl⟩
    simp only [List.mem_reverse, List.mem_map]
    exact ⟨m, List.mem_append_right _ hall, rfl⟩
  · rw [hb] at hm
    cases c <;> exact absurd hm List.not_mem_nil
  · rw [failAll_held]
    exact fun n hn => absurd hn List.not_mem_nil

theorem giveUp_queues (l : Loop (Numbered M)) (reason : String) :
    l.Queues hand (l.giveUp reason) := by
  have hf : l.Queues hand (l.failAll (.connectFailed (l.backoff.failures.toNat + 1) reason)) :=
    failAll_queues l _
  refine hf.trans (.spares (.trans ?_ (transition_spares ..)))
  exact .of_eq rfl rfl rfl

theorem scheduleRetry_queues (now : Nat) (l : Loop (Numbered M)) (reason : String) :
    l.Queues hand (l.scheduleRetry now reason) := by
  have hput (b : Backoff) (delay : Span) : l.Queues hand
      (Loop.putOff now { l with lastError := some reason, backoff := b } delay) := by
    refine .spares (.trans ?_ (putOff_spares ..))
    exact .of_eq rfl rfl rfl
  have hgive : l.Queues hand (Loop.giveUp { l with lastError := some reason } reason) := by
    have hl : l.Queues hand { l with lastError := some reason } := .spares (.of_eq rfl rfl rfl)
    exact hl.trans (giveUp_queues ..)
  dsimp only [scheduleRetry]
  split
  · exact hput _ _
  · exact hput _ _
  · exact hput _ _
  · exact hgive

theorem linkLost_queues (now : Nat) (l : Loop (Numbered M)) (reason : String) :
    l.Queues hand (l.linkLost now reason) :=
  .trans (.spares (.put l.teardown_spares rfl)) (scheduleRetry_queues ..)

theorem anyBlocking_queues (ps : List (Pending (Numbered M))) (l : Loop (Numbered M)) :
    l.Queues hand (anyBlocking ps l).2 := by
  induction ps generalizing l with
  | nil => exact .refl l
  | cons p ps ih =>
    have ha : l.Queues hand (l.ask p.message .blocking) := .put (.refl l) rfl
    dsimp only [anyBlocking]
    split
    · exact ha
    · exact ha.trans (ih _)

theorem offer_queues (data : Bytes) (ps : List (Pending (Numbered M))) (l : Loop (Numbered M)) :
    l.Queues hand (offer data ps l).1 := by
  induction ps generalizing l with
  | nil => exact .refl l
  | cons p ps ih =>
    have ha : l.Queues hand (l.ask p.message (.recv data)) := .put (.refl l) rfl
    dsimp only [offer]
    split
    · exact ha.trans (ih _)
    · exact ha

/-- A message in the hand that took data stays where it was, gets in line, or is finished. -/
theorem follow_queues (now : Nat) (l : Loop (Numbered M)) {m : Numbered M}
    {before after : List (Pending (Numbered M))} (answer : Except QueueError RecvDirective)
    (hr : l.receivers = before ++ after) :
    l.Queues [m.number] (l.follow now m before after answer) := by
  dsimp only [follow]
  split
  · have hd : l.Queues [m.number] (l.put (.done m)) := .put (.refl l) rfl
    exact hd.trans (.spares (completed_spares _))
  · have hb : l.Queues [m.number] (l.ask m .blocking) := .put (.refl l) rfl
    split
    · exact hb.trans (pushFront_queues _ (by simp))
    · exact hb.trans (pushBack_queues _ (by simp))
  · have ht : l.Queues [m.number] (l.ask m .timeout) := .put (.refl l) rfl
    refine ht.trans (.of_receivers rfl rfl fun n hn => ?_)
    have hw : numbers (l.ask m .timeout).receivers = numbers before ++ numbers after := by
      rw [numbers, numbers, numbers, ← List.map_append, ← hr]
      rfl
    rw [held, hw]
    simp only [numbers, List.map_append, List.map_cons, List.mem_append, List.mem_cons] at hn ⊢
    tauto
  · next e =>
    have hd : l.Queues [m.number] (l.ask m .describe) := .put (.refl l) rfl
    exact (hd.put (o := .failed m e) rfl).trans (.spares (recycle_spares ..))

theorem route_queues (now : Nat) (l : Loop (Numbered M)) (data : Bytes) :
    l.Queues [] (l.route now data) := by
  have hcount : l.Spares { l with received := l.received + 1 } := .of_eq rfl rfl rfl
  have hr := (offer_asks data l.receivers { l with received := l.received + 1 }).receivers
  have ho (hand : List Nat) :
      l.Queues hand (offer data l.receivers { l with received := l.received + 1 }).1 :=
    .trans (.spares hcount) (offer_queues ..)
  dsimp only [route]
  split
  · next l₁ all hoff =>
    rw [hoff] at hr ho
    have hall : l₁.Queues [] { l₁ with receivers := all } := by
      refine .of_receivers rfl rfl fun n (hn : n ∈ numbers all) => ?_
      rw [← numbers_of_offer_none hoff] at hn
      rw [List.nil_append, held, show _ = l.receivers from hr]
      exact List.mem_append_left _ hn
    exact ((ho []).trans hall).put rfl
  · next l₁ before p answer after hoff =>
    rw [hoff] at hr ho
    have hnums : numbers l.receivers = numbers before ++ p.message.number :: numbers after :=
      numbers_of_offer_some hoff
    have hall : l₁.Queues [p.message.number] { l₁ with receivers := before ++ after } := by
      refine .of_receivers rfl rfl fun n hn => ?_
      rw [held, show _ = l.receivers from hr, hnums]
      simp only [numbers, List.map_append, List.mem_append, List.mem_cons] at hn ⊢
      tauto
    refine (((ho _).trans hall).trans (follow_queues now _ answer rfl)).absorb fun n hn => ?_
    rw [List.mem_singleton.mp hn, held, hnums]
    simp

theorem retryMany_queues (now : Nat) (ps : List (Pending (Numbered M)))
    (r : Loop (Numbered M) × List (Numbered M)) (hps : ∀ p ∈ ps, p.message.number ∈ hand) :
    r.1.Queues hand (ps.foldl (retryOne now) r).1 := by
  induction ps generalizing r with
  | nil => exact .refl r.1
  | cons p ps ih =>
    refine .trans ?_ (ih _ fun q hq => hps q (List.mem_cons_of_mem _ hq))
    have hp : (Message.retry p.message).1.number ∈ hand := hps p List.mem_cons_self
    have ha : r.1.Queues hand ((r.1.ask p.message .retry).put
        (.retried (Message.retry p.message).1 (Message.retry p.message).2)) :=
      .put (.put (.refl r.1) rfl) rfl
    dsimp only [retryOne]
    split
    · exact ha
    · exact ha.trans (await_queues now _ (List.mem_append_left _ hp))
    · exact ha.put rfl

theorem pushFrontMany_queues (ms : List (Numbered M)) (l : Loop (Numbered M))
    (hms : ∀ m ∈ ms, m.number ∈ hand) :
    l.Queues hand (ms.foldr (fun m l => l.pushFront m) l) := by
  induction ms with
  | nil => exact .refl l
  | cons m ms ih =>
    refine (ih fun m' hm' => hms m' (List.mem_cons_of_mem _ hm')).trans ?_
    exact pushFront_queues _ (List.mem_append_left _ (hms m List.mem_cons_self))

/-- The messages that waited go on waiting, get in line before all others, or are finished. -/
theorem retryPending_queues (now : Nat) (l : Loop (Numbered M)) :
    l.Queues [] (l.retryPending now) := by
  have hnone : l.Queues (numbers l.receivers) { l with receivers := [] } :=
    .of_receivers rfl rfl fun n hn => absurd hn List.not_mem_nil
  have hmany := retryMany_queues now l.receivers ({ l with receivers := [] }, [])
    fun p hp => List.mem_map_of_mem (f := fun p : Pending (Numbered M) => p.message.number) hp
  obtain ⟨-, -, hresent⟩ := retryMany_eq now l.receivers ({ l with receivers := [] }, [])
  suffices h : l.Queues (numbers l.receivers) (l.retryPending now) from
    h.absorb fun n hn => List.mem_append_left _ hn
  refine (hnone.trans hmany).trans (pushFrontMany_queues _ _ fun m hm => ?_)
  rw [hresent, List.nil_append, resent, List.mem_filterMap] at hm
  obtain ⟨p, hp, hm⟩ := hm
  have hn : (Message.retry p.message).1.number ∈ numbers l.receivers :=
    List.mem_map_of_mem (f := fun p : Pending (Numbered M) => p.message.number) hp
  split at hm
  · next m' hr =>
    obtain rfl := Option.some.inj hm
    rwa [hr] at hn
  · simp at hm

theorem onControl_queues (now : Nat) (l : Loop (Numbered M)) (item : Control) :
    l.Queues [] (l.onControl now item) := by
  cases item with
  | incoming generation data =>
    dsimp only [onControl]
    split
    · exact .refl l
    · exact route_queues now l data
  | lost generation reason =>
    dsimp only [onControl]
    split
    · exact linkLost_queues ..
    · exact .refl l
  | connected generation =>
    dsimp only [onControl]
    split
    · exact .put (.refl l) rfl
    · exact .trans (.spares (opened_spares ..)) (retryPending_queues now _)
  | connectFailed generation reason =>
    dsimp only [onControl]
    split
    · have hl : l.Spares { l with connecting := none } := .of_eq rfl rfl rfl
      exact .trans (.spares (hl.put (o := .notice (.error reason)) rfl)) (scheduleRetry_queues ..)
    · exact .refl l
  | reopen =>
    dsimp only [onControl]
    split
    · exact .spares (recycle_spares ..)
    · exact .refl l
  | close => exact .refl l

theorem expire_queues (now : Nat) (l : Loop (Numbered M)) : l.Queues [] (l.expire now) := by
  have hfew : l.Queues [] { l with receivers := l.receivers.filter fun p => !isLate now p } := by
    refine .of_receivers rfl rfl fun n hn => List.mem_append_right _ (List.mem_append_left _ ?_)
    exact (List.filter_sublist.map _).subset hn
  have hlate (ps : List (Pending (Numbered M))) (l : Loop (Numbered M)) :
      l.Queues [] (ps.foldl failLate l) :=
    .foldl (fun l p => .put (.put (.put (.refl l) rfl) rfl) rfl) ps l
  dsimp only [expire]
  split
  · exact .refl l
  · split
    · exact (hfew.trans (hlate ..)).trans (.spares (recycle_spares ..))
    · exact hfew.trans (hlate ..)

theorem onTimer_queues (now : Nat) (l : Loop (Numbered M)) : l.Queues [] (l.onTimer now) := by
  refine .trans ?_ (expire_queues now _)
  split
  · refine .spares (.trans ?_ (startConnect_spares _))
    exact .of_eq rfl rfl rfl
  · exact .refl l

theorem handle_queues (now : Nat) (l : Loop (Numbered M)) (input : Input (Numbered M)) :
    l.Queues input.taken (l.handle now input) := by
  cases input with
  | control item => exact onControl_queues now l item
  | traffic m => exact accept_queues l (List.mem_singleton_self _)
  | timer => exact onTimer_queues now l
  | abandoned => exact .refl l

/-- What becomes of a message in the hand after it was written. -/
theorem afterSend_queues (now : Nat) (l : Loop (Numbered M)) {c : Traffic} {m : Numbered M}
    (hc : Message.traffic m = c) (d : SendDirective) :
    l.Queues [m.number] (l.afterSend now c m d) := by
  cases d with
  | done =>
    have hd : l.Queues [m.number] (l.put (.done m)) := .put (.refl l) rfl
    exact hd.trans (.spares (completed_spares _))
  | sendAgain =>
    have ha : l.Queues [m.number] (l.ask m .describe) := .put (.refl l) rfl
    exact ha.trans (.push (.inl rfl) (by simp) hc)
  | recvAgain => exact await_queues now l (by simp)

/-- What becomes of a message in the hand after it was asked what to write. -/
theorem sendOne_queues (hsteady : Steady (Message.traffic (M := Numbered M))) (now : Nat)
    (l : Loop (Numbered M)) {c : Traffic} {m : Numbered M} (hc : Message.traffic m = c) :
    (l.ask m .send).Queues [m.number] (l.sendOne now c m).2 := by
  have hsame : (Message.send m).1.number = m.number ∧
      Message.traffic (Message.send m).1 = c := ⟨rfl, (hsteady.send m).trans hc⟩
  dsimp only [sendOne]
  split
  · next m' e _ =>
    exact .put (o := .failed m' e) (.put (o := .asked m' .describe) (.refl _) rfl) rfl
  · next m' frames d hs =>
    rw [hs] at hsame
    obtain ⟨hn, hc'⟩ : m'.number = m.number ∧ Message.traffic m' = c := hsame
    have hw : (l.ask m .send).Queues [m.number] ((l.ask m .send).write frames).2 :=
      .spares (write_spares ..)
    split
    · next e l₁ hwrite =>
      rw [hwrite] at hw
      exact (hw.trans (.push (.inr rfl) (by simp [hn]) hc')).trans (linkLost_queues ..)
    · next l₁ hwrite =>
      rw [hwrite] at hw
      have hl : l₁.Queues [m.number] { l₁ with sent := l₁.sent + 1 } :=
        .spares (.of_eq rfl rfl rfl)
      have ha := afterSend_queues now { l₁ with sent := l₁.sent + 1 } hc' d
      rw [hn] at ha
      exact (hw.trans hl).trans ha

end Operations

end Loop

end Hearth.Link
