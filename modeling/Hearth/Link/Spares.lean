import Hearth.Link.Loop

/-!
# What leaves the messages alone

Opening, closing and losing a transport does nothing with the messages of a loop: they stay where
they are, and none of them is asked anything or finished. `Loop.Spares l l'` says that of the way
from `l` to `l'`; it holds of all that a loop does to its link alone, giving up apart. To ask
messages something, on the other hand, changes nothing but the log (`Loop.Asks`).
-/

namespace Hearth.Link

variable {M : Type}

/-- The message that an output is about. -/
def Output.message? : Output M → Option M
  | .asked m _ => some m
  | .retried m _ => some m
  | .done m => some m
  | .failed m _ => some m
  | _ => none

namespace Loop

/-- `l'` comes from `l` by doing nothing with any message. -/
structure Spares (l l' : Loop M) : Prop where
  receivers : l'.receivers = l.receivers
  buckets : l'.buckets = l.buckets
  log : ∃ es, l'.log = es ++ l.log ∧ ∀ e ∈ es, e.message? = none

namespace Spares

theorem of_eq {l l' : Loop M} (hr : l'.receivers = l.receivers) (hb : l'.buckets = l.buckets)
    (hl : l'.log = l.log) : l.Spares l' :=
  ⟨hr, hb, [], hl, by simp⟩

theorem refl (l : Loop M) : l.Spares l := .of_eq rfl rfl rfl

theorem trans {l₁ l₂ l₃ : Loop M} (h₁ : l₁.Spares l₂) (h₂ : l₂.Spares l₃) : l₁.Spares l₃ := by
  obtain ⟨es₁, he₁, hn₁⟩ := h₁.log
  obtain ⟨es₂, he₂, hn₂⟩ := h₂.log
  refine ⟨h₂.receivers.trans h₁.receivers, h₂.buckets.trans h₁.buckets, es₂ ++ es₁, ?_, ?_⟩
  · rw [he₂, he₁, List.append_assoc]
  · intro e he
    rcases List.mem_append.mp he with he | he
    · exact hn₂ e he
    · exact hn₁ e he

theorem put {l l' : Loop M} {o : Output M} (h : l.Spares l')
    (ho : o.message? = none) : l.Spares (l'.put o) :=
  h.trans ⟨rfl, rfl, [o], rfl, by simpa using ho⟩

end Spares

theorem transition_spares (l : Loop M) (target : State) :
    l.Spares (l.transition target).2 := by
  unfold transition
  split
  · exact .of_eq rfl rfl rfl
  · exact (Spares.refl l).put rfl

theorem startConnect_spares (l : Loop M) : l.Spares l.startConnect := by
  have h := l.transition_spares .connecting
  unfold startConnect
  split
  · next l₁ ht => simpa [ht] using h
  · next l₁ ht =>
    rw [ht] at h
    exact .put (h.trans (.of_eq rfl rfl rfl)) rfl

theorem maybeConnect_spares (l : Loop M) : l.Spares l.maybeConnect := by
  unfold maybeConnect
  split
  · exact .refl l
  · split
    · split
      · exact l.startConnect_spares
      · exact .refl l
    · exact l.startConnect_spares

theorem opened_spares (l : Loop M) (generation : Nat) : l.Spares (l.opened generation) := by
  have hc : l.Spares { l with connecting := none, conn := some generation } := .of_eq rfl rfl rfl
  exact .put (.trans (hc.trans (transition_spares ..)) (.of_eq rfl rfl rfl)) rfl

theorem teardown_spares (l : Loop M) : l.Spares l.teardown := by
  have h := l.transition_spares .closing
  unfold teardown
  split
  · next l₁ ht => simpa [ht] using h
  · next l₁ ht =>
    rw [ht] at h
    split
    · exact .put (h.trans (.of_eq rfl rfl rfl)) rfl
    · exact h

theorem recycle_spares (l : Loop M) (reason : String) : l.Spares (l.recycle reason) :=
  ((l.teardown_spares.trans (transition_spares ..)).put rfl).trans (maybeConnect_spares _)

theorem completed_spares (l : Loop M) : l.Spares l.completed := by
  have h : l.Spares { l with
      processed := l.processed + 1, processedSinceOpen := l.processedSinceOpen + 1 } :=
    .of_eq rfl rfl rfl
  dsimp only [completed]
  split
  · split
    · exact h.trans (recycle_spares ..)
    · exact h
  · exact h

theorem putOff_spares (now : Nat) (l : Loop M) (delay : Span) : l.Spares (l.putOff now delay) := by
  have h := l.transition_spares .waiting
  unfold putOff
  split
  · next l₁ ht =>
    rw [ht] at h
    exact h.trans (.of_eq rfl rfl rfl)
  · next l₁ ht => simpa [ht] using h

theorem abort_spares (l : Loop M) : l.Spares l.abort := by
  unfold abort
  split
  · exact .put (.of_eq rfl rfl rfl) rfl
  · exact .refl l

theorem hangUp_spares (l : Loop M) : l.Spares l.hangUp := by
  have ht : l.Spares (if l.state == .connected then l.teardown else l) := by
    split
    · exact l.teardown_spares
    · exact .refl l
  have hc (l : Loop M) :
      l.Spares (if l.state != .closed then (l.transition .closed).2 else l) := by
    split
    · exact l.transition_spares .closed
    · exact .refl l
  exact (ht.trans (hc _)).trans (.of_eq rfl rfl rfl)

theorem publish_spares (l : Loop M) : l.Spares l.publish :=
  .put (.of_eq rfl rfl rfl) rfl

theorem writeFrames_spares (generation : Nat) (frames : List Bytes) (l : Loop M) :
    l.Spares (writeFrames generation frames l).2 := by
  induction frames generalizing l with
  | nil => exact .refl l
  | cons frame frames ih =>
    rw [writeFrames]
    split
    · exact .put (.of_eq rfl rfl rfl) rfl
    · refine .trans ?_ (ih _)
      exact .put (.of_eq rfl rfl rfl) rfl
    · refine .trans ?_ (ih _)
      exact .put (.refl l) rfl

theorem write_spares (l : Loop M) (frames : List Bytes) : l.Spares (l.write frames).2 := by
  unfold write
  split
  · exact writeFrames_spares ..
  · exact .refl l

/-! ## Asking -/

/-- `l'` comes from `l` by asking messages of a list. -/
def Asks (ms : List M) (l l' : Loop M) : Prop :=
  ∃ es, l' = { l with log := es ++ l.log } ∧ ∀ e ∈ es, ∃ m ∈ ms, ∃ q, e = .asked m q

namespace Asks

theorem refl (ms : List M) (l : Loop M) : l.Asks ms l := ⟨[], rfl, by simp⟩

theorem ask {ms : List M} {m : M} (hm : m ∈ ms) (l : Loop M) (q : Question) :
    Asks ms l (l.ask m q) :=
  ⟨[.asked m q], rfl, by simpa using hm⟩

theorem trans {ms : List M} {l₁ l₂ l₃ : Loop M} (h₁ : Asks ms l₁ l₂) (h₂ : Asks ms l₂ l₃) :
    Asks ms l₁ l₃ := by
  obtain ⟨es₁, rfl, hn₁⟩ := h₁
  obtain ⟨es₂, rfl, hn₂⟩ := h₂
  refine ⟨es₂ ++ es₁, by simp, fun e he => ?_⟩
  rcases List.mem_append.mp he with he | he
  · exact hn₂ e he
  · exact hn₁ e he

theorem receivers {ms : List M} {l l' : Loop M} (h : Asks ms l l') :
    l'.receivers = l.receivers := by
  obtain ⟨es, rfl, -⟩ := h
  rfl

theorem buckets {ms : List M} {l l' : Loop M} (h : Asks ms l l') : l'.buckets = l.buckets := by
  obtain ⟨es, rfl, -⟩ := h
  rfl

theorem mono {ms ms' : List M} {l l' : Loop M} (h : Asks ms l l') (hm : ∀ m ∈ ms, m ∈ ms') :
    Asks ms' l l' := by
  obtain ⟨es, hl, hn⟩ := h
  refine ⟨es, hl, fun e he => ?_⟩
  obtain ⟨m, hm', hq⟩ := hn e he
  exact ⟨m, hm m hm', hq⟩

end Asks

section Messages

variable [Message M]

theorem anyBlocking_asks (ps : List (Pending M)) (l : Loop M) :
    l.Asks (ps.map (·.message)) (anyBlocking ps l).2 := by
  induction ps generalizing l with
  | nil => exact .refl _ l
  | cons p ps ih =>
    have hp : l.Asks ((p :: ps).map (·.message)) (l.ask p.message .blocking) := .ask (by simp) ..
    dsimp only [anyBlocking]
    split
    · exact hp
    · exact hp.trans ((ih _).mono fun m hm => List.mem_cons_of_mem _ hm)

theorem anyBlocking_fst (ps : List (Pending M)) (l : Loop M) :
    (anyBlocking ps l).1 = ps.any fun p => Message.blocking p.message := by
  induction ps generalizing l with
  | nil => rfl
  | cons p ps ih =>
    dsimp only [anyBlocking]
    split <;> simp_all

theorem offer_asks (data : Bytes) (ps : List (Pending M)) (l : Loop M) :
    l.Asks (ps.map (·.message)) (offer data ps l).1 := by
  induction ps generalizing l with
  | nil => exact .refl _ l
  | cons p ps ih =>
    have hp : l.Asks ((p :: ps).map (·.message)) (l.ask p.message (.recv data)) := .ask (by simp) ..
    dsimp only [offer]
    split
    · exact hp.trans ((ih _).mono fun m hm => List.mem_cons_of_mem _ hm)
    · exact hp

end Messages

end Loop

end Hearth.Link
