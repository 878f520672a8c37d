import Hearth.Link.Spares

/-!
# Writing comes to an end

A loop writes one message after the other until its link takes no more. This comes to an end
because nothing but writing touches the messages that are still to be written: a round either takes
one of them away, or puts it back with a smaller budget (`Loop.round_load`).
-/

namespace Hearth.Link

namespace Buckets

variable {M : Type}

/-- The sum of a measure over some messages. -/
def total (w : M → Nat) : List M → Nat
  | [] => 0
  | m :: rest => w m + total w rest

theorem total_append (w : M → Nat) (ms ms' : List M) :
    total w (ms ++ ms') = total w ms + total w ms' := by
  induction ms with
  | nil => simp [total]
  | cons m rest ih =>
    simp only [List.cons_append, total, ih]
    omega

/-- The sum of a measure over all messages. -/
def weight (w : M → Nat) (b : Buckets M) : Nat := total w b.all

theorem weight_pushBack (w : M → Nat) (b : Buckets M) (c : Traffic) (m : M) :
    (b.pushBack c m).weight w = b.weight w + w m := by
  cases c <;> simp [weight, pushBack, set, get, all, total_append, total] <;> omega

theorem weight_pushFront (w : M → Nat) (b : Buckets M) (c : Traffic) (m : M) :
    (b.pushFront c m).weight w = b.weight w + w m := by
  cases c <;> simp [weight, pushFront, set, get, all, total_append, total] <;> omega

/-- The message that is taken first is one of those that are still to be written. -/
theorem pushFront_of_pop {b b' : Buckets M} {c : Traffic} {m : M} (h : b.pop = some (c, m, b')) :
    b = b'.pushFront c m := by
  obtain ⟨control, urgent, standard, background⟩ := b
  unfold pop at h
  split at h
  all_goals simp only [Option.some.injEq, Prod.mk.injEq, reduceCtorEq] at h
  all_goals
    obtain ⟨rfl, rfl, rfl⟩ := h
    simp_all [pushFront, set, get]

end Buckets

namespace Loop

variable {M : Type}

variable [BoundedMessage M]

/-- A bound on the messages that can be written one after the other. -/
def load (l : Loop M) : Nat := l.buckets.weight fun m => BoundedMessage.budget m + 1

theorem afterSend_load (now : Nat) (l : Loop M) (c : Traffic) {m m' : M} {frames : List Bytes}
    {d : SendDirective} (h : Message.send m = (m', .ok (frames, d))) :
    (l.afterSend now c m' d).load < l.load + (BoundedMessage.budget m + 1) := by
  cases d with
  | done =>
    have hb : (l.put (.done m')).completed.buckets = l.buckets := (completed_spares _).buckets
    simp only [afterSend, load, hb]
    omega
  | recvAgain =>
    simp only [afterSend, load, await, ask, put]
    omega
  | sendAgain =>
    have hb := BoundedMessage.budget_send h
    simp only [afterSend, load, Buckets.weight_pushBack]
    omega

/-- A message that was written and can be followed by another one is gone, or back with a smaller
budget. -/
theorem sendOne_load {now : Nat} {l l' : Loop M} {c : Traffic} {m : M}
    (h : l.sendOne now c m = (true, l')) : l'.load < l.load + (BoundedMessage.budget m + 1) := by
  dsimp only [sendOne] at h
  split at h
  · obtain ⟨-, rfl⟩ := Prod.mk.inj h
    simp only [load, put, ask]
    omega
  · next m' frames d hs =>
    split at h
    · simp at h
    · next l₁ hw =>
      obtain ⟨-, rfl⟩ := Prod.mk.inj h
      have hl : ((l.ask m .send).write frames).2.buckets = l.buckets := (write_spares ..).buckets
      replace hl : l₁.buckets = l.buckets := by simpa only [hw] using hl
      have ha := afterSend_load now { l₁ with sent := l₁.sent + 1 } c hs
      simpa only [load, hl] using ha

theorem round_load {now : Nat} {l l' : Loop M} (h : l.round now = (true, l')) :
    l'.load < l.load := by
  unfold round at h
  split at h
  · simp at h
  · split at h
    · simp at h
    · next l₁ hb =>
      have hl : l₁.buckets = l.buckets := by
        simpa only [hb] using (anyBlocking_asks l.receivers l).buckets
      split at h
      · simp at h
      · split at h
        · simp at h
        · next c m b hp =>
          have hs := sendOne_load h
          have hpop := Buckets.pushFront_of_pop hp
          rw [hl] at hpop
          simpa only [load, hpop, Buckets.weight_pushFront] using hs

end Loop

end Hearth.Link
