import Hearth.Proofs.Link.Attempts
import Mathlib.Data.List.Perm.Basic

/-!
# Where a loop waits

A loop that waits for its next input has left nothing undone: whatever is in it waits for something
that will come, and the loop is told when it comes. This holds at every such moment of every run of
a station. And the loop always comes to such a moment, unless it stops.

## Main definitions

* `Station.outstanding` : the attempts to connect whose outcome the loop has not taken yet.
* `Station.Waits` : nothing is left undone.
* `Station.Aside` : what sending a message changes at once.
* `Station.Tended` : the invariant of a run.

## Main results

* `Station.run_settle`, `Station.run_feed` : a loop that is not interrupted does what `Queue.settle`
  and `Queue.feed` do at once.
* `Station.nothing_stranded` : wherever a loop waits, it has left nothing undone; and it always
  waits again, or stops.
-/

namespace Hearth.Link

variable {M : Type}

namespace Loop

/-! ### The timer -/

/-- The timer is set to a time or to an earlier one. -/
def DueBy (l : Loop M) (t : Nat) : Prop := ∃ d, l.nextDeadline = some d ∧ d ≤ t

theorem earlier_left {a b : Option Nat} {t : Nat} (h : ∃ d, a = some d ∧ d ≤ t) :
    ∃ d, earlier a b = some d ∧ d ≤ t := by
  obtain ⟨d, rfl, hd⟩ := h
  cases b with
  | none => exact ⟨d, rfl, hd⟩
  | some b => exact ⟨min d b, rfl, Nat.le_trans (Nat.min_le_left d b) hd⟩

theorem earlier_right {a b : Option Nat} {t : Nat} (h : ∃ d, b = some d ∧ d ≤ t) :
    ∃ d, earlier a b = some d ∧ d ≤ t := by
  obtain ⟨d, rfl, hd⟩ := h
  cases a with
  | none => exact ⟨d, rfl, hd⟩
  | some a => exact ⟨min a d, rfl, Nat.le_trans (Nat.min_le_right a d) hd⟩

theorem foldl_earlier {t : Nat} (ps : List (Pending M)) {acc : Option Nat}
    (h : ∃ d, acc = some d ∧ d ≤ t) :
    ∃ d, ps.foldl (fun acc p => earlier acc p.deadline) acc = some d ∧ d ≤ t := by
  induction ps generalizing acc with
  | nil => exact h
  | cons p ps ih => exact ih (earlier_left h)

/-- A message that waits is not forgotten. -/
theorem dueBy_deadline {l : Loop M} {p : Pending M} {t : Nat} (hp : p ∈ l.receivers)
    (ht : p.deadline = some t) : l.DueBy t := by
  obtain ⟨before, after, hl⟩ := List.append_of_mem hp
  unfold DueBy nextDeadline
  rw [hl, List.foldl_append, List.foldl_cons]
  exact foldl_earlier after (earlier_right ⟨t, ht, Nat.le_refl t⟩)

/-- The next attempt is not forgotten. -/
theorem dueBy_retryAt {l : Loop M} {t : Nat} (hs : l.state = .waiting)
    (ht : l.retryAt = some t) : l.DueBy t := by
  unfold DueBy nextDeadline
  rw [hs]
  exact foldl_earlier l.receivers ⟨t, ht, Nat.le_refl t⟩

/-- The log of a loop becomes part of the past, and the attempts that it began are under way. -/
theorem Linked.drain {past : List (Output M)} {waits waits' : List Nat} {l l' : Loop M}
    (h : l.Linked past waits) (hl : l' = { l with log := [] })
    (hw : waits'.Perm (waits ++ l.log.filterMap Output.attempt?)) :
    l'.Linked (l.log ++ past) waits' := by
  subst hl
  refine ⟨h.begun, ?_, h.connecting, h.due, List.not_mem_nil⟩
  rw [List.filterMap_nil, List.append_nil]
  exact hw.trans h.waits

end Loop

namespace Station

/-! ### What goes on around a loop that waits -/

/-- The attempts to connect whose outcome the loop has not taken yet: those that run, and those that
have told how they turned out. -/
def outstanding (s : Station M) : List Nat :=
  s.attempts.map (·.generation) ++ s.queue.control.items.filterMap Control.verdict?

/-- Nothing is left undone where the loop waits for its next input. -/
structure Waits [Message M] (s : Station M) : Prop where
  notClosing : s.queue.loop.state ≠ .closing
  /-- A link is closed only if there is no message, and none is wanted before there is one. -/
  closed : s.queue.loop.state = .closed → s.queue.loop.receivers = [] ∧
    s.queue.loop.buckets.all = [] ∧
    (s.queue.loop.config.ondemand = true ∨ s.queue.loop.idle = true)
  /-- The timer is set for the next attempt. -/
  waiting : s.queue.loop.state = .waiting →
    ∃ t, s.queue.loop.retryAt = some t ∧ s.queue.loop.DueBy t
  /-- One attempt is under way, the last one. -/
  connecting : s.queue.loop.state = .connecting →
    s.queue.loop.connecting = some s.queue.loop.generation ∧
    s.outstanding = [s.queue.loop.generation]
  /-- Every attempt runs, or has told the queue once how it turned out. -/
  told : (s.told ++ s.attempts.map (·.generation)).Perm
    (List.range' 1 s.queue.loop.generation)
  /-- An open link takes no more messages, or there are none. -/
  connected : s.queue.loop.state = .connected → s.queue.loop.buckets.all = [] ∨
    (∃ p ∈ s.queue.loop.receivers, Message.blocking p.message = true) ∨
    ∃ most, s.queue.loop.config.maxOpen = some most ∧ most ≤ s.queue.loop.receivers.length
  /-- The timer is set for every message that does not wait for ever. -/
  timer : ∀ p ∈ s.queue.loop.receivers, ∀ t, p.deadline = some t → s.queue.loop.DueBy t

/-- What holds throughout a run until the loop stops. -/
structure Tended [Message M] (s : Station M) : Prop where
  log : s.queue.loop.log = []
  isOpen : s.queue.control.closed = false
  linked : s.queue.loop.Linked s.past s.outstanding
  told : (s.told ++ s.attempts.map (·.generation)).Perm (s.past.filterMap Output.attempt?)
  notClosing : s.queue.loop.state ≠ .closing
  fresh : s.stage = .fresh → s.queue.loop.state = .closed
  settled : s.stage = .writing ∨ s.stage = .waiting → s.queue.loop.Settled
  served : s.stage = .waiting → s.queue.loop.Served

/-- The attempts that the outputs of a turn begin run from then on, and have not turned out. -/
theorem absorb_attempts (s : Station M) (es : List (Effect (Numbered M)))
    (h : .abort ∉ Queue.outputs es) : (s.absorb es).attempts =
      s.attempts ++ ((Queue.outputs es).filterMap Output.attempt?).map (⟨·, none⟩) := by
  rw [absorb_eq]
  unfold Queue.outputs at h ⊢
  generalize es.filterMap Effect.output? = os at h ⊢
  induction os generalizing s with
  | nil => simp
  | cons o os ih =>
    rw [List.foldl_cons, ih _ fun ha => h (List.mem_cons_of_mem o ha)]
    cases o with
    | attempt generation =>
      rw [note, List.append_assoc]
      rfl
    | abort => exact absurd List.mem_cons_self h
    | _ => rfl

/-! ### Sending -/

/-- What sending a message changes at once: it waits in its channel, or it is refused. -/
structure Aside (s s' : Station M) : Prop where
  stage : s'.stage = s.stage
  loop : s'.queue.loop = s.queue.loop
  control : s'.queue.control = s.queue.control
  attempts : s'.attempts = s.attempts
  told : s'.told = s.told
  past : ∃ es, s'.past = es ++ s.past ∧ ∀ o ∈ es, ∃ m e, o = .failed m e

section Aside

variable {s s' : Station M}

theorem Aside.put {queue : Queue (Numbered M)} (next : Nat) (hl : queue.loop = s.queue.loop)
    (hc : queue.control = s.queue.control) : s.Aside { s with queue, next } :=
  ⟨rfl, hl, hc, rfl, rfl, [], rfl, by simp⟩

theorem Aside.absorb (h : s.Aside s') {es : List (Effect (Numbered M))}
    (hes : ∀ o ∈ Queue.outputs es, ∃ m e, o = .failed m e) : s.Aside (s'.absorb es) where
  stage := (absorb_stage ..).trans h.stage
  loop := by rw [absorb_queue, h.loop]
  control := by rw [absorb_queue, h.control]
  attempts := by
    have hnone : (Queue.outputs es).filterMap Output.attempt? = [] := by
      refine List.filterMap_eq_nil_iff.mpr fun o ho => ?_
      obtain ⟨m, e, rfl⟩ := hes o ho
      rfl
    have habort : .abort ∉ Queue.outputs es := fun ha => by
      obtain ⟨m, e, he⟩ := hes _ ha
      cases he
    rw [s'.absorb_attempts es habort, hnone, List.map_nil, List.append_nil, h.attempts]
  told := (absorb_told ..).trans h.told
  past := by
    obtain ⟨earlier, hp, hearlier⟩ := h.past
    refine ⟨(Queue.outputs es).reverse ++ earlier, ?_, fun o ho => ?_⟩
    · rw [absorb_past, hp, List.append_assoc]
      rfl
    · rcases List.mem_append.mp ho with ho | ho
      · exact hes o (List.mem_reverse.mp ho)
      · exact hearlier o ho

theorem send_aside (s : Station M) (job : JobId) (m : M) : s.Aside (s.send job m) := by
  have ho := s.queue.outputs_send job ⟨s.next, m⟩
  have hput (next : Nat) : s.Aside { s with queue := (s.queue.send job ⟨s.next, m⟩).2.2, next } :=
    .put next rfl rfl
  unfold Station.send
  split
  · next heq =>
    rw [heq] at hput
    exact hput s.next
  · next heq =>
    rw [heq] at ho hput
    refine (hput (s.next + 1)).absorb fun o hmem => ?_
    obtain ⟨e, rfl⟩ := ho o hmem
    exact ⟨_, e, rfl⟩

theorem trySend_aside (s : Station M) (m : M) : s.Aside (s.trySend m) := by
  have hput : s.Aside { s with
      queue := (s.queue.trySend ⟨s.next, m⟩).2.2, next := s.next + 1 } := by
    unfold Queue.trySend
    split
    · exact .put _ rfl rfl
    · split <;> exact .put _ rfl rfl
  refine hput.absorb fun o ho => ?_
  obtain ⟨e, rfl⟩ := s.queue.outputs_trySend ⟨s.next, m⟩ o ho
  exact ⟨_, e, rfl⟩

/-- A message that is refused begins no attempt. -/
theorem Aside.begun (h : s.Aside s') :
    s'.past.filterMap Output.attempt? = s.past.filterMap Output.attempt? := by
  obtain ⟨es, hp, hes⟩ := h.past
  have hnone : es.filterMap Output.attempt? = [] := by
    refine List.filterMap_eq_nil_iff.mpr fun o ho => ?_
    obtain ⟨m, e, rfl⟩ := hes o ho
    rfl
  rw [hp, List.filterMap_append, hnone, List.nil_append]

end Aside

theorem Tended.waits [Message M] {s : Station M} (h : s.Tended) (hs : s.stage = .waiting) :
    s.Waits where
  notClosing := h.notClosing
  closed := (h.settled (.inr hs)).closed
  waiting hw := by
    obtain ⟨t, ht⟩ := Option.isSome_iff_exists.mp (h.linked.due hw)
    exact ⟨t, ht, Loop.dueBy_retryAt hw ht⟩
  connecting hc := by
    have hw := h.linked.waits
    rw [h.log, List.filterMap_nil, List.append_nil, if_pos hc] at hw
    refine ⟨?_, List.perm_singleton.mp hw⟩
    have hconn := h.linked.connecting
    rwa [if_pos hc] at hconn
  told := by
    have hb := h.linked.begun
    rw [h.log, List.nil_append] at hb
    exact h.told.trans (hb ▸ List.reverse_perm _)
  connected := h.served hs
  timer p hp t ht := Loop.dueBy_deadline hp ht

/-! ### Runs -/

namespace Tended

variable [Message M] {s s' : Station M}

/-- What concerns neither the link nor the attempts to connect. -/
theorem frame (h : s.Tended) (hl : s'.queue.loop = s.queue.loop)
    (hc : s'.queue.control.closed = s.queue.control.closed)
    (hi : s'.queue.control.items.filterMap Control.verdict? =
      s.queue.control.items.filterMap Control.verdict?)
    (ha : s'.attempts.map (·.generation) = s.attempts.map (·.generation)) (ht : s'.told = s.told)
    (hs : s'.stage = s.stage)
    (hp : s'.past.filterMap Output.attempt? = s.past.filterMap Output.attempt?) : s'.Tended where
  log := hl ▸ h.log
  isOpen := hc.trans h.isOpen
  linked := by
    have hb := h.linked.begun
    rw [List.filterMap_append, ← hp, ← List.filterMap_append] at hb
    rw [hl, outstanding, hi, ha]
    exact ⟨hb, h.linked.waits, h.linked.connecting, h.linked.due, h.linked.aborts⟩
  told := by
    rw [ht, ha, hp]
    exact h.told
  notClosing := hl ▸ h.notClosing
  fresh := by
    rw [hs, hl]
    exact h.fresh
  settled := by
    rw [hs, hl]
    exact h.settled
  served := by
    rw [hs, hl]
    exact h.served

/-- The loop had its turn, and its log was drained. -/
theorem absorb {l : Loop (Numbered M)} {es : List (Effect (Numbered M))}
    (hl : s.queue.loop = { l with log := [] }) (hes : Queue.outputs es = l.log.reverse)
    (hopen : s.queue.control.closed = false) (hlinked : l.Linked s.past s.outstanding)
    (ht : (s.told ++ s.attempts.map (·.generation)).Perm (s.past.filterMap Output.attempt?))
    (hn : l.state ≠ .closing) (hf : s.stage ≠ .fresh)
    (hset : s.stage = .writing ∨ s.stage = .waiting → l.Settled)
    (hserve : s.stage = .waiting → l.Served) : (s.absorb es).Tended := by
  have hpast : (s.absorb es).past = l.log ++ s.past := by
    rw [absorb_past]
    change (Queue.outputs es).reverse ++ s.past = _
    rw [hes, List.reverse_reverse]
  have hatt : (s.absorb es).attempts.map (·.generation) =
      s.attempts.map (·.generation) ++ (l.log.filterMap Output.attempt?).reverse := by
    rw [s.absorb_attempts es (by simpa [hes] using hlinked.aborts), hes, List.filterMap_reverse,
      List.map_append, List.map_map]
    exact congrArg _ (List.map_id _)
  have hloop : (s.absorb es).queue.loop = { l with log := [] } := by rw [absorb_queue, hl]
  have hrev := List.reverse_perm (l.log.filterMap Output.attempt?)
  refine ⟨?_, ?_, ?_, ?_, ?_, ?_, ?_, ?_⟩
  · rw [hloop]
  · rw [absorb_queue, hopen]
  · rw [hpast]
    refine hlinked.drain hloop ?_
    rw [outstanding, outstanding, hatt, absorb_queue, List.append_assoc, List.append_assoc]
    exact (List.perm_append_comm.trans (hrev.append_left _)).append_left _
  · rw [absorb_told, hatt, hpast, List.filterMap_append, ← List.append_assoc]
    exact (List.perm_append_comm.trans ((hrev.append_right _).trans (ht.append_left _)))
  · rw [hloop]
    exact hn
  · rw [absorb_stage]
    exact fun hs => absurd hs hf
  · rw [absorb_stage, hloop]
    exact fun hs => ⟨(hset hs).state, (hset hs).closed⟩
  · rw [absorb_stage, hloop]
    exact fun hs => hserve hs

/-- A message is sent. -/
theorem aside (h : s.Tended) (ha : s.Aside s') : s'.Tended :=
  h.frame ha.loop (congrArg Channel.closed ha.control)
    (congrArg (·.items.filterMap Control.verdict?) ha.control)
    (congrArg (List.map Attempt.generation) ha.attempts) ha.told ha.stage ha.begun

/-- An item that tells no outcome is posted. -/
theorem post (h : s.Tended) (job : JobId) {item : Control} (hi : item.verdict? = none) :
    (s.post job item).Tended := by
  have hitems := s.queue.control.offer_items job item
  refine h.frame rfl (s.queue.control.offer_closed job item) ?_ rfl rfl rfl rfl
  change (s.queue.control.offer job item).2.items.filterMap _ = _
  rw [hitems]
  split
  · simp [hi]
  · rfl

/-- An attempt that runs is the only one that is under way. -/
theorem only_attempt (h : s.Tended) {a : Attempt} (ha : a ∈ s.attempts) :
    s.attempts = [a] ∧ s.queue.control.items.filterMap Control.verdict? = [] := by
  obtain ⟨before, after, hs⟩ := List.append_of_mem ha
  have hp : (a.generation :: (before.map (·.generation) ++ (after.map (·.generation) ++
      s.queue.control.items.filterMap Control.verdict?))).Perm s.outstanding := by
    rw [outstanding, hs, List.map_append, List.map_cons, List.append_assoc, List.cons_append]
    exact List.perm_middle.symm
  obtain ⟨-, -, hnil, -⟩ := (h.linked.perm hp).under_way
  obtain ⟨hb, ha, hv⟩ : before = [] ∧ after = [] ∧ _ := by simpa using hnil
  exact ⟨by rw [hs, hb, ha, List.nil_append], by simpa using hv⟩

theorem verdict_outcome (generation : Nat) (refusal : Option String) :
    (Control.outcome generation refusal).verdict? = some generation := by
  cases refusal <;> rfl

theorem report (h : s.Tended) (job : JobId) (generation : Nat) :
    (s.report job generation).Tended := by
  unfold Station.report
  split
  · next generation' refusal hfind =>
    have hg : generation' = generation := by simpa using List.find?_some hfind
    subst hg
    obtain ⟨hatt, hverdict⟩ := h.only_attempt (List.mem_of_find?_eq_some hfind)
    have hc := s.queue.control.offer_closed job (.outcome generation' refusal)
    have hclosed := s.queue.control.offer_eq_closed job (.outcome generation' refusal)
    have hi := s.queue.control.offer_items job (.outcome generation' refusal)
    replace hi := congrArg (List.filterMap Control.verdict?) hi
    cases hr : (s.queue.post job (.outcome generation' refusal)).1 with
    | closed => exact absurd ((hclosed.mp hr).symm.trans h.isOpen) nofun
    | full =>
      replace hr : (s.queue.control.offer job (.outcome generation' refusal)).1 = .full := hr
      rw [hr] at hi
      exact h.frame rfl hc hi rfl rfl rfl rfl
    | put =>
      replace hr : (s.queue.control.offer job (.outcome generation' refusal)).1 = .put := hr
      have hone : [Control.outcome generation' refusal].filterMap Control.verdict? =
          [generation'] := by simp [verdict_outcome]
      rw [hr, if_pos rfl, List.filterMap_append, hverdict, hone] at hi
      have hgone : ((s.post job (.outcome generation' refusal)).conclude generation'
          .put).attempts = [] := by simp [conclude, Station.post, hatt]
      refine ⟨h.log, hc.trans h.isOpen, h.linked.perm ?_, ?_, h.notClosing, h.fresh, h.settled,
        h.served⟩
      · rw [outstanding, outstanding, hgone, hatt, hverdict]
        exact .of_eq hi
      · have ht := h.told
        rw [hatt] at ht
        rw [hgone, List.map_nil, List.append_nil]
        exact (List.perm_append_singleton generation' s.told).symm.trans ht
  · exact h

theorem turn (h : s.Tended) : s.turn.stage = .stopped ∨ s.turn.Tended := by
  dsimp only [Station.turn]
  split
  · next hs =>
    obtain ⟨hl, hset⟩ := h.linked.maybeConnect h.notClosing
    have hp := s.queue.loop.maybeConnect.publish_rests
    have hnot := Loop.Linked.maybeConnect_state (h.fresh hs)
    refine .inr (absorb (l := s.queue.loop.begin) rfl (Queue.outputs_drain ..) h.isOpen
      (hl.rests hp) h.told hset.state nofun (fun _ => ?_) fun _ hc => absurd hc hnot)
    exact ⟨hset.state, hset.closed⟩
  · next hs =>
    split
    · exact .inr h
    · next input woken queue hi =>
      obtain ⟨hl, hw, hc, hitems, -⟩ := Queue.of_nextInput hi
      unfold Queue.handle
      split
      · exact .inl (absorb_stage ..)
      · have hlinked : queue.loop.Linked s.past (input.verdicts ++
            (s.attempts.map (·.generation) ++ queue.control.items.filterMap Control.verdict?)) := by
          rw [hl]
          refine h.linked.perm ?_
          rw [outstanding, hitems, List.filterMap_append, ← List.append_assoc, ← List.append_assoc]
          exact List.perm_append_comm.append_right _
        obtain ⟨hh, hn⟩ := hlinked.handle (hl ▸ h.notClosing) s.now
        refine .inr (absorb (l := queue.loop.handle s.now input) rfl ?_ (hc.trans h.isOpen) hh
          h.told hn nofun nofun nofun)
        rw [Queue.outputs_append, hw, List.nil_append]
        exact Queue.outputs_drain ..
  · next hs =>
    have hg := h.linked.gather h.notClosing s.queue.traffic.items
    refine .inr (absorb (l := s.queue.loop.gather s.queue.traffic.items) rfl ?_ h.isOpen hg.1 h.told
      hg.2.state nofun (fun _ => hg.2) nofun)
    dsimp only [Queue.gather]
    rw [Queue.outputs_append, Queue.outputs_wake, List.nil_append]
    exact Queue.outputs_drain ..
  · next hs =>
    obtain ⟨hl, hset, hserve⟩ := h.linked.round (h.settled (.inl hs)) s.now
    unfold Queue.write
    split
    · next l hround =>
      rw [hround] at hl hset
      exact .inr (absorb (l := l) rfl (Queue.outputs_drain ..) h.isOpen hl h.told hset.state nofun
        (fun _ => hset) nofun)
    · next l hround =>
      rw [hround] at hl hset hserve
      exact .inr (absorb (l := l.publish) rfl (Queue.outputs_drain ..) h.isOpen
        (hl.rests l.publish_rests) h.told hset.state nofun (fun _ => ⟨hset.state, hset.closed⟩)
        fun _ => hserve rfl)
  · next hs => exact .inl hs

theorem act (h : s.Tended) (a : Action M) : (s.act a).stage = .stopped ∨ (s.act a).Tended := by
  cases a with
  | pass nanos => exact .inr (h.frame rfl rfl rfl rfl rfl rfl rfl)
  | send job m => exact .inr (h.aside (s.send_aside job m))
  | trySend m => exact .inr (h.aside (s.trySend_aside m))
  | reopen job => exact .inr (h.post job rfl)
  | close job => exact .inr (h.post job rfl)
  | release => exact .inr (h.frame rfl rfl rfl rfl rfl rfl rfl)
  | deliver job generation data =>
    dsimp only [Station.act]
    split
    · exact .inr (h.post job rfl)
    · exact .inr h
  | lost job generation reason =>
    dsimp only [Station.act]
    split
    · exact .inr (h.post job rfl)
    · exact .inr h
  | decide generation refusal =>
    refine .inr (h.frame rfl rfl rfl ?_ rfl rfl rfl)
    dsimp only [Station.act]
    rw [List.map_map]
    refine List.map_congr_left fun a _ => ?_
    dsimp only [Function.comp_def]
    split <;> rfl
  | report job generation => exact .inr (h.report job generation)
  | wire errors =>
    have hr : s.queue.loop.Rests { s.queue.loop with wire := errors } := .of_eq rfl rfl rfl rfl rfl
    have hl := h.linked.rests hr
    refine .inr ⟨h.log, h.isOpen, hl, h.told, h.notClosing, h.fresh, fun hs => ?_, h.served⟩
    exact ⟨(h.settled hs).state, (h.settled hs).closed⟩
  | turn => exact h.turn

theorem start (name : Name) (config : Config) (hook : Hook) :
    (Station.start (M := M) name config hook).Tended where
  log := rfl
  isOpen := rfl
  linked := ⟨rfl, .refl _, rfl, nofun, List.not_mem_nil⟩
  told := .refl _
  notClosing := nofun
  fresh _ := rfl
  settled hs := absurd hs (by simp [Station.start])
  served := nofun

end Tended

section Runs

variable [Message M] {s : Station M}

/-- A loop that has stopped does not go on. -/
theorem act_stopped (h : s.stage = .stopped) (a : Action M) : (s.act a).stage = .stopped := by
  cases a with
  | send job m => exact (s.send_aside job m).stage.trans h
  | trySend m => exact (s.trySend_aside m).stage.trans h
  | deliver job generation data =>
    dsimp only [Station.act]
    split <;> exact h
  | lost job generation reason =>
    dsimp only [Station.act]
    split <;> exact h
  | report job generation =>
    change (s.report job generation).stage = _
    unfold Station.report
    split
    · generalize (s.queue.post job _).1 = posting
      cases posting <;> exact h
    · exact h
  | turn =>
    change s.turn.stage = _
    unfold Station.turn
    rw [h]
    exact h
  | _ => exact h

theorem run_tended (h : s.stage = .stopped ∨ s.Tended) (as : List (Action M)) :
    (s.run as).stage = .stopped ∨ (s.run as).Tended := by
  induction as generalizing s with
  | nil => exact h
  | cons a as ih =>
    rcases h with hs | ht
    · exact ih (.inl (act_stopped hs a))
    · exact ih (ht.act a)

end Runs

/-- Whatever is done around a queue, in any order: wherever its loop waits for its next input, it
has left nothing undone. And from wherever it is the loop comes to wait again, or stops. -/
theorem nothing_stranded [BoundedMessage M] (name : Name) (config : Config) (hook : Hook)
    (as : List (Action M)) :
    let s := (start name config hook).run as
    (s.stage = .waiting → s.Waits) ∧
      ∃ k, (s.run (List.replicate k .turn)).stage = .waiting ∨
        (s.run (List.replicate k .turn)).stage = .stopped := by
  refine ⟨fun hs => ?_, run_waits _⟩
  rcases run_tended (.inr (Tended.start name config hook)) as with hst | ht
  · exact absurd (hst.symm.trans hs) nofun
  · exact ht.waits hs

/-- A loop that waits for one reply while another message is in line. -/
theorem nothing_stranded_full :
    let s := (start (M := Plain) default { Config.standard with maxOpen := some 1 } .ignored).run
      [.turn, .decide 1 none, .report ⟨0⟩ 1, .send ⟨1⟩ ⟨true⟩, .turn, .turn, .turn,
        .trySend ⟨true⟩, .turn, .turn, .turn, .turn]
    s.stage = .waiting ∧ s.Waits :=
  ⟨by decide, (nothing_stranded _ _ _ _).1 (by decide)⟩

end Station

end Hearth.Link
