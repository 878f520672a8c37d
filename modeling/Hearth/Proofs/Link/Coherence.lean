import Hearth.Proofs.Link.Transport
import Hearth.Proofs.Link.Turns

/-!
# The link is in step with its transport

In every run of a station the state of the link, its transport, its attempts to connect and its
timer agree with each other, whatever comes in whatever order; and when the loop has stopped nothing
of them is left.

## Main definitions

* `Station.Coherent` : the state of the link agrees with all that belongs to it.

## Main results

* `Station.link_coherent` : it does so throughout every run.
-/

namespace Hearth.Link

variable {M : Type}

namespace Loop

theorem hangUp_moves (l : Loop M) : l.Moves l.hangUp := by
  have hdown : l.Moves (if l.state == .connected then l.teardown else l) := by
    split
    · exact l.teardown_moves
    · exact .refl l
  have hclose (l : Loop M) :
      l.Moves (if l.state != .closed then (l.transition .closed).2 else l) := by
    split
    · exact l.transition_moves .closed
    · exact .refl l
  exact (hdown.trans (hclose _)).trans (.of_eq rfl rfl rfl)

/-- A loop that shuts down begins no attempt, and gives up the one that is under way. -/
theorem shutdown_outputs [Message M] (l : Loop M) (backlog : List M) (hlog : l.log = []) :
    (l.shutdown backlog).publish.log.filterMap Output.attempt? = [] ∧
      (l.connecting = none ∨ .abort ∈ (l.shutdown backlog).publish.log) := by
  have hm : l.abort.Moves (l.shutdown backlog).publish :=
    ((Rests.foldl accept_rests backlog l.abort).trans (failAll_rests ..)).toMoves.trans
      ((hangUp_moves _).trans (publish_rests _).toMoves)
  obtain ⟨es, hes, -⟩ := hm.log
  rw [hm.attempts, hes]
  unfold abort
  split
  · exact ⟨by simp [put, hlog, Output.attempt?], .inr (by simp [put])⟩
  · next hc => exact ⟨by simp [hlog], .inl hc⟩

/-- The turns of a loop keep it in agreement with its history; the last one closes the link. -/
theorem Coherent.turn [Message M] {now : Nat} {stage stage' : Stage} {past : List (Output M)}
    {taken : List M} {l l' : Loop M} (h : l.Coherent past)
    (ht : Turn now stage l taken stage' l') : l'.Coherent past ∧
      (stage' = .stopped → l'.state = .closed ∧ l'.retryAt = none) := by
  cases ht with
  | begin => exact ⟨h.begin, nofun⟩
  | handle input goesOn current => exact ⟨h.handle now current, nofun⟩
  | stop =>
    obtain ⟨hc, hst⟩ := h.shutdown taken
    exact ⟨hc, fun _ => ⟨hst, rfl⟩⟩
  | gather => exact ⟨h.gather taken, nofun⟩
  | write written => exact ⟨by simpa only [written] using h.round now, nofun⟩
  | @rest _ l' done =>
    have hr : l'.Coherent past := by simpa only [done] using h.round now
    exact ⟨hr.calm (publish_calm l'), nofun⟩

end Loop

namespace Station

/-- The state of the link agrees with its transport, its attempts and what was done so far. -/
structure Coherent (s : Station M) : Prop where
  /-- No step was asked for that the link could not take. -/
  unrefused : ∀ source target, .refused source target ∉ s.past
  /-- A transport is there if and only if the link is connected, and it is that of the last
  attempt. -/
  conn : s.queue.loop.conn =
    if s.queue.loop.state = .connected then some s.queue.loop.generation else none
  /-- The transport that is there is the one that was opened and not closed. -/
  transport : openTransport s.past = s.queue.loop.conn
  /-- No two attempts are under way. -/
  outstanding : s.outstanding.length ≤ 1
  /-- Every attempt has a higher generation than those before it. -/
  attempts : (s.past.filterMap Output.attempt?).Pairwise (· > ·)
  /-- Data was offered only while the transport of the last attempt was open. -/
  offered : ∀ m data earlier, .asked m (.recv data) :: earlier <:+ s.past →
    ∃ g, openTransport earlier = some g ∧ lastAttempt earlier = some g
  /-- Frames were written only to the transport of the last attempt, and while it was open. -/
  wrote : ∀ g frame earlier, .wrote g frame :: earlier <:+ s.past →
    openTransport earlier = some g ∧ lastAttempt earlier = some g
  writeFailed : ∀ g frame earlier, .writeFailed g frame :: earlier <:+ s.past →
    openTransport earlier = some g ∧ lastAttempt earlier = some g
  /-- A loop that has stopped has neither a transport, nor an attempt, nor a time for one. -/
  stopped : s.stage = .stopped → s.queue.loop.state = .closed ∧ s.queue.loop.conn = none ∧
    s.queue.loop.retryAt = none ∧ s.outstanding = []

/-- What a loop that has stopped leaves behind. -/
structure Halted (s : Station M) : Prop where
  stage : s.stage = .stopped
  attempts : s.attempts = []
  items : s.queue.control.items = []
  closed : s.queue.control.closed = true

theorem Halted.outstanding {s : Station M} (h : s.Halted) : s.outstanding = [] := by
  rw [Station.outstanding, h.attempts, h.items]
  rfl

section Halts

variable {s s' : Station M}

/-- What touches neither the stage of the loop, nor the attempts, nor the control of the link. -/
theorem Halted.frame (h : s.Halted) (hs : s'.stage = s.stage) (ha : s'.attempts = s.attempts)
    (hc : s'.queue.control = s.queue.control) : s'.Halted :=
  ⟨hs.trans h.stage, ha.trans h.attempts, hc ▸ h.items, hc ▸ h.closed⟩

theorem Halted.aside (h : s.Halted) (ha : s.Aside s') : s'.Halted :=
  h.frame ha.stage ha.attempts ha.control

theorem Halted.post (h : s.Halted) (job : JobId) (item : Control) : (s.post job item).Halted := by
  have hi : (s.queue.control.offer job item).2.items = [] := by
    rw [Channel.offer_items, (Channel.offer_eq_closed ..).mpr h.closed]
    exact h.items
  exact ⟨h.stage, h.attempts, hi, (s.queue.control.offer_closed job item).trans h.closed⟩

/-- No attempt is left when those that run are given up, or none runs, and none begins. -/
theorem absorb_attempts_nil {es : List (Effect (Numbered M))} {s : Station M}
    (h : s.attempts = [] ∨ .abort ∈ Queue.outputs es)
    (hes : (Queue.outputs es).filterMap Output.attempt? = []) : (s.absorb es).attempts = [] := by
  rw [absorb_eq]
  unfold Queue.outputs at h hes
  generalize es.filterMap Effect.output? = os at h hes ⊢
  induction os generalizing s with
  | nil => simpa using h
  | cons o os ih =>
    cases o with
    | attempt g => simp [Output.attempt?] at hes
    | abort => exact ih (.inl rfl) hes
    | _ => exact ih (by simpa [note] using h) hes

end Halts

section Runs

variable [Message M] {s : Station M}

/-- A loop that has stopped stays so, whatever is done around it. -/
theorem Halted.act (h : s.Halted) (a : Action M) : (s.act a).Halted := by
  cases a with
  | send job m => exact h.aside (s.send_aside job m)
  | trySend m => exact h.aside (s.trySend_aside m)
  | reopen job => exact h.post job _
  | close job => exact h.post job _
  | deliver job generation data =>
    dsimp only [Station.act]
    split
    · exact h.post job _
    · exact h
  | lost job generation reason =>
    dsimp only [Station.act]
    split
    · exact h.post job _
    · exact h
  | decide generation refusal =>
    refine h.frame rfl ?_ rfl
    dsimp only [Station.act]
    rw [h.attempts]
    rfl
  | report job generation =>
    change (s.report job generation).Halted
    rw [Station.report, h.attempts]
    exact h
  | turn =>
    change s.turn.Halted
    rw [Station.turn, h.stage]
    exact h
  | pass nanos => exact h.frame rfl rfl rfl
  | release => exact h.frame rfl rfl rfl
  | wire errors => exact h.frame rfl rfl rfl

/-- A loop that holds no attempt has none under way. -/
theorem Tended.attempts_eq_nil (h : s.Tended) (hc : s.queue.loop.connecting = none) :
    s.attempts = [] := by
  have hn : s.queue.loop.state ≠ .connecting := by
    intro hcon
    have hsome := h.linked.connecting
    rw [if_pos hcon, hc] at hsome
    simp at hsome
  have hout := h.linked.waits
  rw [if_neg hn] at hout
  have hnil := (List.append_eq_nil_iff.mp (List.perm_nil.mp hout)).1
  exact List.map_eq_nil_iff.mp (List.append_eq_nil_iff.mp hnil).1

/-- A loop that takes the last of its inputs gives up the attempt that is under way. -/
theorem Tended.halted_of_final {input : Loop.Input (Numbered M)}
    {woken : List (Effect (Numbered M))} {queue : Queue (Numbered M)} (h : s.Tended)
    (hw : s.stage = .waiting) (hi : s.queue.nextInput s.now = some (input, woken, queue))
    (hf : input.isFinal = true) : s.turn.Halted := by
  obtain ⟨hl, hwoken, -, -, -⟩ := Queue.of_nextInput hi
  obtain ⟨hplain, habort⟩ := Loop.shutdown_outputs queue.loop queue.traffic.items (hl ▸ h.log)
  have hout : Queue.outputs (woken ++ (queue.stop s.now).1) =
      (queue.loop.shutdown queue.traffic.items).publish.log.reverse := by
    rw [Queue.outputs_append, hwoken, List.nil_append, Queue.outputs_stop]
  rw [turn_final hw hi hf]
  refine ⟨absorb_stage .., absorb_attempts_nil ?_ ?_, ?_, ?_⟩
  · rw [hout, List.mem_reverse]
    exact habort.imp_left fun hc => h.attempts_eq_nil (hl ▸ hc)
  · rw [hout, List.filterMap_reverse, hplain]
    rfl
  · rw [absorb_queue]
    rfl
  · rw [absorb_queue]
    rfl

/-- A loop that stops leaves nothing behind. -/
theorem Tended.halts (h : s.Tended) (hs : s.stage ≠ .stopped) (hst : s.turn.stage = .stopped) :
    s.turn.Halted := by
  cases hw : s.stage with
  | waiting =>
    cases hi : s.queue.nextInput s.now with
    | none =>
      have hturn : s.turn = s := by simp only [Station.turn, hw, hi]
      exact absurd (hturn ▸ hst) hs
    | some next =>
      obtain ⟨input, woken, queue⟩ := next
      cases hf : input.isFinal with
      | true => exact h.halted_of_final hw hi hf
      | false =>
        rw [turn_waiting hw hi hf, absorb_stage] at hst
        cases hst
  | stopped => exact absurd hw hs
  | fresh => simp [Station.turn, hw, become] at hst
  | handled => simp [Station.turn, hw, become] at hst
  | writing =>
    simp only [Station.turn, hw, become, absorb_stage] at hst
    split at hst <;> simp at hst

/-- A loop goes on, or has left nothing behind. -/
theorem run_halted (h : s.Halted ∨ s.stage ≠ .stopped ∧ s.Tended) (as : List (Action M)) :
    (s.run as).Halted ∨ (s.run as).stage ≠ .stopped ∧ (s.run as).Tended := by
  induction as generalizing s with
  | nil => exact h
  | cons a as ih =>
    refine ih ?_
    rcases h with hh | ⟨hs, ht⟩
    · exact .inl (hh.act a)
    · by_cases ha : a = .turn
      · subst ha
        by_cases hst : s.turn.stage = .stopped
        · exact .inl (ht.halts hs hst)
        · exact .inr ⟨hst, ht.turn.resolve_left hst⟩
      · have hst : (s.act a).stage ≠ .stopped := by
          rw [(s.act_idles ha).stage]
          exact hs
        exact .inr ⟨hst, (ht.act a).resolve_left hst⟩

/-- A loop agrees with its history throughout a run, and stops with its link closed. -/
theorem run_coherent (name : Name) (config : Config) (hook : Hook) (as : List (Action M)) :
    let s := (Station.start name config hook).run as
    s.queue.loop.Coherent s.past ∧
      (s.stage = .stopped → s.queue.loop.state = .closed ∧ s.queue.loop.retryAt = none) := by
  refine run_start (I := fun stage past l => l.Coherent past ∧
    (stage = .stopped → l.state = .closed ∧ l.retryAt = none)) ?_ ?_ name config hook ?_ as
  · rintro stage past l es wire ⟨h, hst⟩ hlog hes
    refine ⟨h.idle hlog (fun e he => ?_) wire, hst⟩
    obtain ⟨m, err, rfl⟩ := hes e he
    rfl
  · rintro now stage past l taken stage' l' ⟨h, -⟩ - hturn
    obtain ⟨hc, hst⟩ := h.turn hturn
    exact ⟨hc.drain, hst⟩
  · exact ⟨⟨rfl, fun hc => absurd rfl hc, rfl, rfl, .nil⟩, nofun⟩

end Runs

/-- Whatever is done around a queue, in any order: no step of its link is refused; it has a
transport exactly while it is connected, that of its last attempt, and uses it only then; no two
attempts are under way, and each has a higher generation than those before; and when the loop has
stopped the link is closed and nothing is left that could open it. -/
theorem link_coherent [Message M] (name : Name) (config : Config) (hook : Hook)
    (as : List (Action M)) : ((start name config hook).run as).Coherent := by
  obtain ⟨h, hclosed⟩ := run_coherent name config hook as
  have hhalted := run_halted (M := M) (s := start name config hook)
    (.inr ⟨nofun, Tended.start name config hook⟩) as
  have hlog := ((Sound.start name config hook).run as).keeps.log
  generalize (start name config hook).run as = s at h hclosed hhalted hlog
  have hproper := h.proper
  have hopen := h.transport
  have hbegun := h.begun
  rw [hlog, List.nil_append] at hproper hopen hbegun
  constructor
  case unrefused => exact hproper.not_refused
  case conn => exact h.conn
  case transport => exact hopen
  case outstanding =>
    rcases hhalted with hh | ⟨-, ht⟩
    · simp [hh.outstanding]
    · have hw := ht.linked.waits.length_eq
      have hone : (if s.queue.loop.state = .connecting then [s.queue.loop.generation]
          else []).length ≤ 1 := by split <;> simp
      rw [List.length_append] at hw
      omega
  case attempts =>
    rw [hbegun, List.pairwise_reverse]
    exact List.pairwise_lt_range'
  case offered => exact fun m data earlier hs => hproper _ earlier hs
  case wrote => exact fun g frame earlier hs => hproper _ earlier hs
  case writeFailed => exact fun g frame earlier hs => hproper _ earlier hs
  case stopped =>
    intro hst
    obtain ⟨hstate, hretry⟩ := hclosed hst
    refine ⟨hstate, h.conn_none (by simp [hstate]), hretry, ?_⟩
    rcases hhalted with hh | ⟨hns, -⟩
    · exact hh.outstanding
    · exact absurd hst hns

end Station

end Hearth.Link
