import Hearth.Proofs.Link.Attempts

/-!
# Steering the link

Whatever a loop does to its link alone leaves all else as it is: its settings, the messages that it
has and what it counts. `Loop.Steers l l'` says that of the way from `l` to `l'`. Giving up is no
steering, because it fails the messages.
-/

namespace Hearth.Link

variable {M : Type}

/-- Is an output about the link itself, and neither about a message nor about a frame? -/
def Output.isLink : Output M → Bool
  | .attempt _ => true
  | .abort => true
  | .closed _ => true
  | .notice _ => true
  | .refused _ _ => true
  | .published _ => true
  | _ => false

namespace Loop

/-- `l'` comes from `l` by doing something with the link alone. -/
structure Steers (l l' : Loop M) : Prop where
  config : l'.config = l.config
  buckets : l'.buckets = l.buckets
  receivers : l'.receivers = l.receivers
  sent : l'.sent = l.sent
  received : l'.received = l.received
  log : ∃ es, l'.log = es ++ l.log ∧ ∀ e ∈ es, e.isLink = true

namespace Steers

variable {l l' l₁ l₂ l₃ : Loop M}

theorem of_eq (h : (l'.config, l'.buckets, l'.receivers, l'.sent, l'.received, l'.log) =
    (l.config, l.buckets, l.receivers, l.sent, l.received, l.log)) : l.Steers l' := by
  simp only [Prod.mk.injEq] at h
  obtain ⟨hconfig, hbuckets, hreceivers, hsent, hreceived, hlog⟩ := h
  exact ⟨hconfig, hbuckets, hreceivers, hsent, hreceived, [], hlog, by simp⟩

theorem refl (l : Loop M) : l.Steers l := .of_eq rfl

theorem trans (h₁ : l₁.Steers l₂) (h₂ : l₂.Steers l₃) : l₁.Steers l₃ := by
  obtain ⟨es₁, he₁, hn₁⟩ := h₁.log
  obtain ⟨es₂, he₂, hn₂⟩ := h₂.log
  refine ⟨h₂.config.trans h₁.config, h₂.buckets.trans h₁.buckets,
    h₂.receivers.trans h₁.receivers, h₂.sent.trans h₁.sent, h₂.received.trans h₁.received,
    es₂ ++ es₁, ?_, ?_⟩
  · rw [he₂, he₁, List.append_assoc]
  · intro e he
    rcases List.mem_append.mp he with he | he
    · exact hn₂ e he
    · exact hn₁ e he

theorem put (h : l.Steers l') {o : Output M} (ho : o.isLink = true) :
    l.Steers (l'.put o) :=
  h.trans ⟨rfl, rfl, rfl, rfl, rfl, [o], rfl, by simpa using ho⟩

end Steers

theorem transition_steers (l : Loop M) (target : State) : l.Steers (l.transition target).2 := by
  unfold transition
  split
  · exact .of_eq rfl
  · exact .put (.refl l) rfl

theorem startConnect_steers (l : Loop M) : l.Steers l.startConnect := by
  have h := l.transition_steers .connecting
  unfold startConnect
  split
  · next l₁ ht => simpa [ht] using h
  · next l₁ ht =>
    rw [ht] at h
    exact .put (h.trans (.of_eq (by rfl))) (by rfl)

theorem maybeConnect_steers (l : Loop M) : l.Steers l.maybeConnect := by
  unfold maybeConnect
  split
  · exact .refl l
  · split
    · split
      · exact l.startConnect_steers
      · exact .refl l
    · exact l.startConnect_steers

theorem opened_steers (l : Loop M) (generation : Nat) : l.Steers (l.opened generation) := by
  have hc : l.Steers { l with connecting := none, conn := some generation } := .of_eq rfl
  exact .put (.trans (hc.trans (transition_steers ..)) (.of_eq (by rfl))) (by rfl)

theorem teardown_steers (l : Loop M) : l.Steers l.teardown := by
  have h := l.transition_steers .closing
  unfold teardown
  split
  · next l₁ ht => simpa [ht] using h
  · next l₁ ht =>
    rw [ht] at h
    split
    · exact .put (h.trans (.of_eq (by rfl))) (by rfl)
    · exact h

theorem recycle_steers (l : Loop M) (reason : String) : l.Steers (l.recycle reason) :=
  ((l.teardown_steers.trans (transition_steers ..)).put rfl).trans (maybeConnect_steers _)

theorem completed_steers (l : Loop M) : l.Steers l.completed := by
  have h : l.Steers { l with
      processed := l.processed + 1, processedSinceOpen := l.processedSinceOpen + 1 } := .of_eq rfl
  dsimp only [completed]
  split
  · split
    · exact h.trans (recycle_steers ..)
    · exact h
  · exact h

theorem putOff_steers (now : Nat) (l : Loop M) (delay : Span) : l.Steers (l.putOff now delay) := by
  have h := l.transition_steers .waiting
  unfold putOff
  split
  · next l₁ ht =>
    rw [ht] at h
    exact h.trans (.of_eq rfl)
  · next l₁ ht => simpa [ht] using h

theorem abort_steers (l : Loop M) : l.Steers l.abort := by
  unfold abort
  split
  · exact .put (.of_eq (by rfl)) (by rfl)
  · exact .refl l

theorem hangUp_steers (l : Loop M) : l.Steers l.hangUp := by
  have hdown : l.Steers (if l.state == .connected then l.teardown else l) := by
    split
    · exact l.teardown_steers
    · exact .refl l
  have hclose (l : Loop M) :
      l.Steers (if l.state != .closed then (l.transition .closed).2 else l) := by
    split
    · exact l.transition_steers .closed
    · exact .refl l
  exact (hdown.trans (hclose _)).trans (.of_eq rfl)

theorem publish_steers (l : Loop M) : l.Steers l.publish :=
  .put (o := .published l.snapshot) (.of_eq (by rfl)) rfl

end Loop

end Hearth.Link
