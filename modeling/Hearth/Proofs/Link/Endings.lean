import Hearth.Proofs.Link.Deeds
import Hearth.Proofs.Link.Steering

/-!
# How a message is completed

A message is completed in one of two ways: it takes data for its reply that all messages declined
that wait longer, or it is written and nothing more is due. Before that the turn has only asked
messages and written frames, and after it only the link may move.

## Main definitions

* `Loop.Serves` : messages were asked and frames were written, and no more.
* `Loop.Completing` : what a message is completed for.

## Main results

* `Loop.Deed.completes` : the deeds that complete a message.
-/

namespace Hearth.Link

variable {M : Type}

/-- Does an output ask a message something, or write a frame? -/
def Output.isService : Output M → Bool
  | .asked .. => true
  | .wrote .. => true
  | _ => false

/-- An entry of a history that is none of the newest ones is older than these. -/
theorem suffix_of_not_mem {α : Type} {x : α} {earlier es past : List α}
    (hs : x :: earlier <:+ es ++ past) (hx : x ∉ es) : x :: earlier <:+ past := by
  induction es with
  | nil => exact hs
  | cons e es ih =>
    rcases List.suffix_cons_iff.mp hs with heq | hs
    · exact absurd ((List.cons.inj heq).1 ▸ List.mem_cons_self) hx
    · exact ih hs fun h => hx (List.mem_cons_of_mem _ h)

namespace Loop

theorem Settles.done_mem {taken : List M} {l l' : Loop M} (h : l.Settles taken l') {m : M}
    (hm : .done m ∈ l'.log) : .done m ∈ l.log := by
  obtain ⟨es, hes, hquiet⟩ := h.log
  rw [hes] at hm
  rcases List.mem_append.mp hm with hm | hm
  · exact absurd (hquiet _ hm) (by simp [Output.isQuiet])
  · exact hm

/-- `l₁` comes from `l` by asking messages and writing frames, and nothing of the link has
changed. -/
structure Serves (l l₁ : Loop M) : Prop where
  config : l₁.config = l.config
  state : l₁.state = l.state
  conn : l₁.conn = l.conn
  generation : l₁.generation = l.generation
  backoff : l₁.backoff = l.backoff
  processedSinceOpen : l₁.processedSinceOpen = l.processedSinceOpen
  log : ∃ es, l₁.log = es ++ l.log ∧ ∀ e ∈ es, e.isService = true

section Completions

variable [Message M] {l l' l₁ : Loop M}

omit [Message M] in
/-- After a message was completed the loop only moves its link. -/
theorem done_mem_completed (h : l.Serves l₁) (hlog : l.log = []) {m m' : M}
    (hm : .done m ∈ (l₁.put (.done m')).completed.log) : m = m' := by
  obtain ⟨after, hafter, hlink⟩ := (completed_steers (l₁.put (.done m'))).log
  obtain ⟨before, hbefore, hservice⟩ := h.log
  rw [hafter, put, hbefore, hlog, List.append_nil] at hm
  rcases List.mem_append.mp hm with hm | hm
  · exact absurd (hlink _ hm) (by simp [Output.isLink])
  · rcases List.mem_cons.mp hm with heq | hm
    · exact Output.done.inj heq
    · exact absurd (hservice _ hm) (by simp [Output.isService])

/-- Whatever a message does with data that it took, it is completed only if that was its reply. -/
theorem done_mem_follow (h : l.Serves l₁) (hlog : l.log = []) (hs : l₁.state = .connected)
    {now : Nat} {m m' : M} {before after : List (Pending M)}
    {answer : Except QueueError RecvDirective}
    (hm : .done m ∈ (l₁.follow now m' before after answer).log) : m = m' ∧ answer = .ok .mine := by
  have hnot : .done m ∉ l₁.log := by
    obtain ⟨es, hes, hservice⟩ := h.log
    rw [hes, hlog, List.append_nil]
    exact fun hm => absurd (hservice _ hm) (by simp [Output.isService])
  revert hm
  dsimp only [follow]
  split
  · exact fun hm => ⟨done_mem_completed h hlog hm, rfl⟩
  · split <;> exact fun hm => absurd hm (by simpa [pushFront, pushBack, ask, put] using hnot)
  · exact fun hm => absurd hm (by simpa [ask, put] using hnot)
  · next _ e =>
    intro hm
    have hset : Settles [] ((l₁.ask m' .describe).put (.failed m' e)) _ :=
      .recycle (by exact hs) "receiver error"
    exact absurd (hset.done_mem hm) (by simpa [ask, put] using hnot)

/-- A message that was written is completed only if nothing more is due. -/
theorem done_mem_afterSend (h : l.Serves l₁) (hlog : l.log = []) {now : Nat} {c : Traffic}
    {m m' : M} {d : SendDirective} (hm : .done m ∈ (l₁.afterSend now c m' d).log) :
    m = m' ∧ d = .done := by
  have hnot : .done m ∉ l₁.log := by
    obtain ⟨es, hes, hservice⟩ := h.log
    rw [hes, hlog, List.append_nil]
    exact fun hm => absurd (hservice _ hm) (by simp [Output.isService])
  cases d with
  | done => exact ⟨done_mem_completed h hlog hm, rfl⟩
  | sendAgain => exact absurd hm (by simpa [afterSend, ask, put] using hnot)
  | recvAgain => exact absurd hm (by simpa [afterSend, await, ask, put] using hnot)

/-- What a message is completed for; it is given as it is then. -/
inductive Completing (l : Loop M) : Option Bytes → M → Prop
  /-- It took data that all messages declined that wait longer. -/
  | heard {before after : List (Pending M)} {q : Pending M} {data : Bytes} {m : M}
      (waits : l.receivers = before ++ q :: after) (declined : ∀ p ∈ before, p.Declines data)
      (mine : Message.recv q.message data = (m, .ok .mine)) : Completing l (some data) m
  /-- It was written. -/
  | written {m₀ m : M} {frames : List Bytes} (listed : m₀ ∈ l.buckets.all)
      (sent : Message.send m₀ = (m, .ok (frames, .done))) : Completing l none m

omit [Message M] in
theorem Picks.isService {es : List (Output M)} {c : Traffic} {m : M} {b : Buckets M}
    (hp : l.Picks es c m b) {e : Output M} (he : e ∈ es) : e.isService = true := by
  obtain ⟨m, rfl⟩ := hp.asked e he
  rfl

omit [Message M] in
theorem isService_of_mem_through {g : Nat} {m : M} {frames : List Bytes} {e : Output M}
    (he : e ∈ through g m frames) : e.isService = true := by
  rcases mem_through he with ⟨frame, -, rfl⟩ | rfl
  · rfl
  · rfl

/-- A deed that completes a message does nothing before but to ask and to write. -/
theorem Deed.completes {now : Nat} {taken : List M} {heard : Option Bytes} {m : M}
    (hd : l.Deed now taken heard l') (hlog : l.log = []) (hm : .done m ∈ l'.log) :
    l.state = .connected ∧ l.Completing heard m ∧
      ∃ l₁, l.Serves l₁ ∧ l' = (l₁.put (.done m)).completed := by
  -- Only data that is taken, and a message that is written, can be the last thing a message needs.
  cases hd with
  | settles hs => exact absurd (hs.done_mem hm) (by simp [hlog])
  | reconnects hs =>
    obtain ⟨es, heq, hes⟩ := reconnects_log hs now
    rw [heq, hlog, List.append_nil] at hm
    rcases hes _ hm with ⟨m', h⟩ | ⟨p, -, h⟩ | h
    · cases h
    · rcases mem_recalled h with h | h | h | h <;> cases h
    · cases h
  | declines data hs declined =>
    rw [hlog, List.append_nil] at hm
    rcases List.mem_cons.mp hm with heq | hm
    · cases heq
    · obtain ⟨p, -, heq⟩ := mem_offered hm
      cases heq
  | @takes before after q data hs waits declined taken =>
    have hserves : l.Serves { l with
        received := l.received + 1
        receivers := before.map (Pending.heard data) ++ after
        log := offered data (before ++ [q]) ++ l.log } := by
      refine ⟨rfl, rfl, rfl, rfl, rfl, rfl, offered data (before ++ [q]), rfl, fun e he => ?_⟩
      obtain ⟨p, -, rfl⟩ := mem_offered he
      rfl
    obtain ⟨rfl, hanswer⟩ := done_mem_follow hserves hlog hs hm
    refine ⟨hs, .heard waits declined (Prod.ext rfl hanswer), _, hserves, ?_⟩
    rw [hanswer]
    rfl
  | expires before after =>
    have hm := after.done_mem hm
    rcases List.mem_append.mp hm with hm | hm
    · simp [expired] at hm
    · exact absurd (before.done_mem hm) (by simp [hlog])
  | @refuses es c m' b e picked refused =>
    rw [hlog, List.append_nil] at hm
    simp only [List.mem_cons, reduceCtorEq, false_or] at hm
    exact absurd (picked.isService hm) (by simp [Output.isService])
  | @breaks es c m' b _ before after frame d wire picked encoded broken =>
    have hm := broken.done_mem hm
    rw [hlog, List.append_nil] at hm
    simp only [List.mem_cons, reduceCtorEq, false_or] at hm
    rcases List.mem_append.mp hm with hm | hm
    · exact absurd (isService_of_mem_through hm) (by simp [Output.isService])
    · exact absurd (picked.isService hm) (by simp [Output.isService])
  | @writes es c m' b frames d wire picked encoded =>
    have hserves : l.Serves { l with
        buckets := b, wire, sent := l.sent + 1
        log := through l.generation m' frames ++ (es ++ l.log) } := by
      refine ⟨rfl, rfl, rfl, rfl, rfl, rfl, through l.generation m' frames ++ es, by simp,
        fun e he => ?_⟩
      exact (List.mem_append.mp he).elim isService_of_mem_through picked.isService
    obtain ⟨rfl, rfl⟩ := done_mem_afterSend hserves hlog hm
    exact ⟨picked.connected, .written (picked.mem_all.mpr (.inl rfl)) (Prod.ext rfl encoded), _,
      hserves, rfl⟩

end Completions

end Loop

end Hearth.Link
