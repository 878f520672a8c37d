import Hearth.Proofs.Link.Custody

/-!
# Every message is finished once

Whatever happens around a queue, in whatever order, a message that was given to it is either
finished, once, or it is at one place: in the channel, in one of the lists of messages that are
still to be written, or among those that wait for a reply. Nothing is asked of a message after it
was finished. A queue that has stopped has finished all its messages.

## Main definitions

* `Station.finishes`, `Station.places` : how often a message was finished, and at how many places it
  is.
* `Station.Sound` : the invariant of a run.

## Main results

* `Station.finished_once` : the message with a number is at one place, or finished once; none is
  touched after that; and all are finished when the loop has stopped.
-/

namespace Hearth.Link

variable {M : Type}

namespace Queue

/-- The numbers of the messages in the channel. -/
def backlog (q : Queue (Numbered M)) : List Nat := q.traffic.items.map (·.number)

/-- Every message of `given` is in the channel of a queue, or is had by its loop, or was finished,
and the log of the loop was drained. -/
structure Keeps (past : List (Output (Numbered M))) (given : List Nat) (q : Queue (Numbered M)) :
    Prop where
  log : q.loop.log = []
  loop : q.loop.Keeps past given q.backlog

variable {past : List (Output (Numbered M))} {given : List Nat} {q : Queue (Numbered M)}

theorem keeps_drain (now : Nat) (before : Loop (Numbered M))
    (h : q.loop.Keeps past given q.backlog) :
    (q.drain now before).2.Keeps ((outputs (q.drain now before).1).reverse ++ past) given where
  log := rfl
  loop := by
    rw [outputs_drain, List.reverse_reverse]
    exact h.drain rfl rfl

theorem Keeps.begin (h : q.Keeps past given) (now : Nat) :
    (q.begin now).2.Keeps ((outputs (q.begin now).1).reverse ++ past) given := by
  refine keeps_drain now q.loop (h.loop.spares (.trans ?_ (Loop.publish_spares _)))
  exact q.loop.maybeConnect_spares

section Turns

variable [Message M]

theorem Keeps.gather (h : q.Keeps past given) (now : Nat) :
    (q.gather now).2.Keeps ((outputs (q.gather now).1).reverse ++ past) given := by
  dsimp only [Queue.gather]
  rw [outputs_append, outputs_wake, List.nil_append]
  refine keeps_drain now q.loop (Loop.Keeps.gather q.traffic.items ?_)
  exact h.loop.of_perm rfl (by simp [backlog, Channel.takeAll])

theorem Keeps.write (h : q.Keeps past given) (now : Nat) :
    (q.write now).2.2.Keeps ((outputs (q.write now).2.1).reverse ++ past) given := by
  have hr := h.loop.round now
  dsimp only [Queue.write]
  split
  · next l hl =>
    rw [hl] at hr
    exact keeps_drain now q.loop hr
  · next l hl =>
    rw [hl] at hr
    exact keeps_drain now q.loop (hr.spares l.publish_spares)

/-- A queue whose loop stops has no message left. -/
theorem Keeps.stop (h : q.Keeps past given) (now : Nat) :
    (q.stop now).2.Keeps ((outputs (q.stop now).1).reverse ++ past) given ∧
      (q.stop now).2.loop.held = [] ∧ (q.stop now).2.backlog = [] ∧
      (q.stop now).2.traffic.closed = true := by
  have hl : q.loop.Keeps past given (q.traffic.items.map (·.number) ++ []) :=
    h.loop.of_perm rfl (by simp [backlog])
  have hs := Loop.Keeps.shutdown q.traffic.items hl
  have hp := hs.1.spares (Loop.publish_spares _)
  have hh := (Loop.publish_spares (q.loop.shutdown q.traffic.items)).held.trans hs.2
  dsimp only [Queue.stop]
  rw [outputs_append, outputs_append, outputs_wake, outputs_wake, List.nil_append, List.append_nil]
  refine ⟨⟨rfl, ?_⟩, hh, rfl, rfl⟩
  rw [outputs_drain, List.reverse_reverse]
  exact hp.drain rfl rfl

/-- The loop handles an input, or stops and has no message left. -/
theorem Keeps.handle (now : Nat) {input : Loop.Input (Numbered M)} (hlog : q.loop.log = [])
    (h : q.loop.Keeps past given (input.taken ++ q.backlog)) :
    (q.handle now input).2.Keeps ((outputs (q.handle now input).1).reverse ++ past) given ∧
      (input.isFinal = true → (q.handle now input).2.loop.held = [] ∧
        (q.handle now input).2.backlog = [] ∧ (q.handle now input).2.traffic.closed = true) := by
  unfold Queue.handle
  split
  · next hf =>
    have ht : input.taken = [] := by
      cases input with
      | traffic m => simp [Loop.Input.isFinal] at hf
      | _ => rfl
    have hs := Keeps.stop ⟨hlog, by simpa only [ht, List.nil_append] using h⟩ now
    exact ⟨hs.1, fun _ => hs.2⟩
  · next hf => exact ⟨keeps_drain now q.loop (Loop.Keeps.handle now input h), fun h => absurd h hf⟩

end Turns

/-- A message that finds no room at once, or a closed queue, is failed. -/
theorem Keeps.refuse (h : q.Keeps past given) {n : Nat} (hn : n ∉ given) (m : M)
    (e : QueueError) {q' : Queue (Numbered M)} (hl : q'.loop = q.loop)
    (hb : q'.backlog = q.backlog) : q'.Keeps (.failed ⟨n, m⟩ e :: past) (given ++ [n]) where
  log := hl ▸ h.log
  loop := by
    have hg : q.loop.Keeps past (given ++ [n]) ((⟨n, m⟩ : Numbered M).number :: q.backlog) :=
      h.loop.give hn
    have hf : q.loop.Keeps ((q.loop.put (.failed ⟨n, m⟩ e)).log ++ past) (given ++ [n]) q.backlog :=
      (hg.finish rfl).drain h.log rfl
    rw [hl, hb]
    simpa only [Loop.put, h.log, List.cons_append, List.nil_append] using hf

/-- A message is put into the channel. -/
theorem Keeps.put (h : q.Keeps past given) {n : Nat} (hn : n ∉ given) {q' : Queue (Numbered M)}
    (hl : q'.loop = q.loop) (hb : q'.backlog = q.backlog ++ [n]) :
    q'.Keeps past (given ++ [n]) where
  log := hl ▸ h.log
  loop := by
    rw [hl, hb]
    exact (h.loop.give hn).of_perm rfl ((List.perm_append_singleton n q.backlog).append_right _)

end Queue

/-! ### Runs -/

namespace Station

/-- How often a message was finished. -/
def finishes (s : Station M) (n : Nat) : Nat := s.past.countP fun o => o.finished? == some n

/-- At how many places a message is. -/
def places (s : Station M) (n : Nat) : Nat :=
  (s.queue.traffic.items.countP fun m => m.number == n) +
    (s.queue.loop.buckets.control.countP fun m => m.number == n) +
    (s.queue.loop.buckets.urgent.countP fun m => m.number == n) +
    (s.queue.loop.buckets.standard.countP fun m => m.number == n) +
    (s.queue.loop.buckets.background.countP fun m => m.number == n) +
    s.queue.loop.receivers.countP fun p => p.message.number == n

/-- The places are the channel and those of the loop. -/
theorem places_eq (s : Station M) (n : Nat) :
    s.places n = (s.queue.backlog ++ s.queue.loop.held).count n := by
  simp only [places, Queue.backlog, Loop.held, Loop.numbers, Buckets.all, List.map_append,
    List.count_eq_countP, List.countP_append, List.countP_map, Function.comp_def]
  omega

/-- The messages with the numbers given out so far are kept, and a loop that has stopped has none of
them. -/
structure Sound (s : Station M) : Prop where
  keeps : s.queue.Keeps s.past (List.range s.next)
  stopped : s.stage = .stopped →
    s.queue.loop.held = [] ∧ s.queue.backlog = [] ∧ s.queue.traffic.closed = true

namespace Sound

variable {s s' : Station M}

/-- What touches neither the messages nor the stage of the loop. -/
theorem frame (h : s.Sound) (hl : s.queue.loop.Spares s'.queue.loop)
    (hlog : s'.queue.loop.log = s.queue.loop.log)
    (ht : s'.queue.traffic.items = s.queue.traffic.items)
    (hc : s'.queue.traffic.closed = s.queue.traffic.closed) (hs : s'.stage = s.stage)
    (hn : s'.next = s.next) (hp : s'.past = s.past) : s'.Sound := by
  have hb : s'.queue.backlog = s.queue.backlog := congrArg (List.map _) ht
  refine ⟨⟨hlog.trans h.keeps.log, ?_⟩, fun hst => ?_⟩
  · rw [hn, hp, hb]
    exact h.keeps.loop.of_perm hlog (by rw [hl.held])
  · rw [hl.held, hb, hc]
    exact h.stopped (hs ▸ hst)

/-- The effects of a turn are noted. -/
theorem absorb {es : List (Effect (Numbered M))}
    (hk : s.queue.Keeps ((Queue.outputs es).reverse ++ s.past) (List.range s.next))
    (hs : s.stage = .stopped →
      s.queue.loop.held = [] ∧ s.queue.backlog = [] ∧ s.queue.traffic.closed = true) :
    (s.absorb es).Sound where
  keeps := by simpa [Queue.outputs] using hk
  stopped := by simpa using hs

theorem send (h : s.Sound) (job : JobId) (m : M) : (s.send job m).Sound := by
  have hi := s.queue.traffic.offer_items job ⟨s.next, m⟩
  have hc := s.queue.traffic.offer_closed job ⟨s.next, m⟩
  have hclosed := s.queue.traffic.offer_eq_closed job ⟨s.next, m⟩
  have hn : s.next ∉ List.range s.next := List.not_mem_range_self
  have hb := congrArg (List.map (·.number)) hi
  dsimp only [Station.send, Queue.send]
  cases hr : (s.queue.traffic.offer job ⟨s.next, m⟩).1 with
  | full =>
    rw [hr] at hi
    exact h.frame (.refl _) rfl hi hc rfl rfl rfl
  | closed =>
    rw [hr] at hb
    refine absorb ?_ fun hs => ?_
    · rw [List.range_succ]
      exact h.keeps.refuse hn m .closed rfl hb
    · obtain ⟨hh, hb', hc'⟩ := h.stopped hs
      exact ⟨hh, hb.trans hb', hc.trans hc'⟩
  | put =>
    rw [hr] at hb hclosed
    refine absorb ?_ fun hs => ?_
    · rw [List.range_succ]
      exact h.keeps.put hn rfl (by simpa [Queue.backlog] using hb)
    · exact absurd (hclosed.mpr (h.stopped hs).2.2) nofun

theorem trySend (h : s.Sound) (m : M) : (s.trySend m).Sound := by
  have hn : s.next ∉ List.range s.next := List.not_mem_range_self
  dsimp only [Station.trySend, Queue.trySend]
  split
  · refine absorb ?_ h.stopped
    rw [List.range_succ]
    exact h.keeps.refuse hn m .closed rfl rfl
  · next hopen =>
    split
    · next traffic ht =>
      refine absorb ?_ fun hs => absurd (h.stopped hs).2.2 hopen
      rw [List.range_succ]
      exact h.keeps.put hn rfl (by simp [Queue.backlog, Channel.eq_of_put? ht])
    · refine absorb ?_ h.stopped
      rw [List.range_succ]
      exact h.keeps.refuse hn m .full rfl rfl

theorem report (h : s.Sound) (job : JobId) (generation : Nat) :
    (s.report job generation).Sound := by
  unfold Station.report
  split
  · generalize (s.queue.post job _).1 = posting
    cases posting
    all_goals exact h.frame (.refl _) rfl rfl rfl rfl rfl rfl
  · exact h

theorem turn [Message M] (h : s.Sound) : s.turn.Sound := by
  dsimp only [Station.turn]
  split
  · exact absorb (h.keeps.begin s.now) nofun
  · split
    · exact h
    · next input woken queue hi =>
      obtain ⟨hl, hw, -, -, hm⟩ := Queue.of_nextInput hi
      have hb : s.queue.backlog = input.taken ++ queue.backlog := by
        rw [Queue.backlog, hm, List.map_append]
        rfl
      have hk := h.keeps.loop
      rw [← hl, hb] at hk
      obtain ⟨hh, hf⟩ := Queue.Keeps.handle s.now (hl ▸ h.keeps.log) hk
      refine absorb ?_ fun hs => hf ?_
      · rwa [Queue.outputs_append, hw, List.nil_append]
      · by_contra hfinal
        simp [become, hfinal] at hs
  · exact absorb (h.keeps.gather s.now) nofun
  · refine absorb (h.keeps.write s.now) fun hs => ?_
    split at hs <;> simp [become] at hs
  · exact h

theorem act [Message M] (h : s.Sound) (a : Action M) : (s.act a).Sound := by
  have hpost (job : JobId) (item : Control) : (s.post job item).Sound :=
    h.frame (.refl _) rfl rfl rfl rfl rfl rfl
  cases a with
  | pass nanos => exact h.frame (.refl _) rfl rfl rfl rfl rfl rfl
  | send job m => exact h.send job m
  | trySend m => exact h.trySend m
  | reopen job => exact hpost job _
  | close job => exact hpost job _
  | release => exact h.frame (.refl _) rfl rfl rfl rfl rfl rfl
  | deliver job generation data =>
    dsimp only [Station.act]
    split
    · exact hpost job _
    · exact h
  | lost job generation reason =>
    dsimp only [Station.act]
    split
    · exact hpost job _
    · exact h
  | decide generation refusal => exact h.frame (.refl _) rfl rfl rfl rfl rfl rfl
  | report job generation => exact h.report job generation
  | wire errors => exact h.frame (.of_eq rfl rfl rfl) rfl rfl rfl rfl rfl rfl
  | turn => exact h.turn

theorem start (name : Name) (config : Config) (hook : Hook) :
    (Station.start (M := M) name config hook).Sound where
  keeps := ⟨rfl, List.nodup_nil, .refl _, List.Pairwise.nil⟩
  stopped := nofun

theorem run [Message M] (h : s.Sound) (as : List (Action M)) : (s.run as).Sound := by
  induction as generalizing s with
  | nil => exact h
  | cons a as ih => exact ih (h.act a)

/-- How often a message was finished and at how many places it is, taken together. -/
theorem finishes_add_places (h : s.Sound) (n : Nat) :
    s.finishes n + s.places n = if n < s.next then 1 else 0 := by
  have hc := h.keeps.loop.perm.count_eq n
  rw [List.count_range, h.keeps.log, List.nil_append, List.count_append, List.count_filterMap] at hc
  rw [places_eq, ← hc, finishes]
  omega

end Sound

/-- Whatever is done around a queue, in any order: each message that was given to it was finished
once and is nowhere any more, or it was not finished and is at one place; after a message was
finished nothing is done with it; and when the loop has stopped, all messages were finished. -/
theorem finished_once [Message M] (name : Name) (config : Config) (hook : Hook)
    (as : List (Action M)) :
    let s := (start name config hook).run as
    (∀ n, s.finishes n + s.places n = if n < s.next then 1 else 0) ∧
      (s.past.Pairwise fun later earlier =>
        ∀ n, earlier.finished? = some n → later.number? ≠ some n) ∧
      (s.stage = .stopped → ∀ n, s.finishes n = if n < s.next then 1 else 0) := by
  have h := (Sound.start name config hook).run as
  refine ⟨h.finishes_add_places, ?_, fun hs n => ?_⟩
  · simpa only [h.keeps.log, List.nil_append] using h.keeps.loop.quiet
  · have hn := h.finishes_add_places n
    obtain ⟨hheld, hb, -⟩ := h.stopped hs
    rwa [places_eq, hheld, hb, List.append_nil, List.count_nil, Nat.add_zero] at hn

end Station

end Hearth.Link
