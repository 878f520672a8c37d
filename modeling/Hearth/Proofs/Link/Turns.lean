import Hearth.Proofs.Link.Completion
import Hearth.Proofs.Link.Waiting

/-!
# Turns of a loop

Of all that happens around a queue only a turn of its loop changes the loop, but for the frames that
are going to fail. `Loop.Turn` lists the turns, with what is known when the loop takes them: nothing
but the attempt under way tells of a success. What holds at first, and is kept by every turn and by
what happens between the turns, holds throughout a run (`Station.run_induction`).

## Main definitions

* `Loop.Turn` : the turns of a loop, each from the stage where it begins to the next one.
* `Station.Idles`, `Station.Turns`, `Station.Takes` : what an action does to the loop of a station.

## Main results

* `Station.act_cases` : every action leaves the loop alone, or is a turn.
* `Station.run_induction` : an invariant of the turns is an invariant of the runs.
-/

namespace Hearth.Link

variable {M : Type}

/-- A turn of a loop from one stage to the next; the messages in between are those that it takes
from the channel. -/
inductive Loop.Turn [Message M] (now : Nat) : Stage → Loop M → List M → Stage → Loop M → Prop
  | begin {l : Loop M} : Turn now .fresh l [] .waiting l.begin
  /-- An input is handled; an attempt that tells of its success is the one that is under way. -/
  | handle {l : Loop M} (input : Loop.Input M) (goesOn : input.isFinal = false)
      (current : ∀ g, input = .control (.connected g) → l.state = .connecting ∧ g = l.generation) :
      Turn now .waiting l input.messages .handled (l.handle now input)
  | stop {l : Loop M} (backlog : List M) :
      Turn now .waiting l backlog .stopped (l.shutdown backlog).publish
  | gather {l : Loop M} (backlog : List M) : Turn now .handled l backlog .writing (l.gather backlog)
  /-- A message is written, and another one can follow. -/
  | write {l l' : Loop M} (written : l.round now = (true, l')) : Turn now .writing l [] .writing l'
  /-- The link takes no more messages. -/
  | rest {l l' : Loop M} (done : l.round now = (false, l')) :
      Turn now .writing l [] .waiting l'.publish

namespace Queue

/-- A queue that stops puts out what its loop does when it shuts down. -/
theorem outputs_stop [Message M] (now : Nat) (q : Queue M) :
    outputs (q.stop now).1 = (q.loop.shutdown q.traffic.items).publish.log.reverse := by
  dsimp only [stop]
  rw [outputs_append, outputs_append, outputs_wake, outputs_wake, List.nil_append, List.append_nil]
  exact outputs_drain ..

/-- A queue that takes the backlog puts out what its loop does with it. -/
theorem outputs_gather [Message M] (now : Nat) (q : Queue M) :
    outputs (q.gather now).1 = (q.loop.gather q.traffic.items).log.reverse := by
  dsimp only [gather]
  rw [outputs_append, outputs_wake, List.nil_append]
  exact outputs_drain ..

end Queue

namespace Station

/-- What an action does that is no turn: messages may be refused, and the frames that are going to
fail may be others. -/
structure Idles (s s' : Station M) : Prop where
  stage : s'.stage = s.stage
  loop : ∃ wire, s'.queue.loop = { s.queue.loop with wire }
  past : ∃ es, s'.past = es ++ s.past ∧ ∀ o ∈ es, ∃ m e, o = .failed m e

/-- What an action does that is a turn. The messages that are taken are in nobody else's hand. -/
def Turns [Message M] (s s' : Station M) : Prop :=
  ∃ taken l, Loop.Turn s.now s.stage s.queue.loop taken s'.stage l ∧
    s'.queue.loop = { l with log := [] } ∧ s'.past = l.log ++ s.past ∧
    ∃ given hand, s.queue.loop.Keeps s.past given (taken.map (·.number) ++ hand)

/-- The turn of a loop that a station takes: the messages that are taken come from the channel. -/
structure Takes [Message M] (s s' : Station M) (taken : List (Numbered M))
    (l : Loop (Numbered M)) : Prop where
  turn : Loop.Turn s.now s.stage s.queue.loop taken s'.stage l
  loop : s'.queue.loop = { l with log := [] }
  past : s'.past = l.log ++ s.past
  items : s.queue.traffic.items = taken ++ s'.queue.traffic.items
  next : s'.next = s.next

variable {s : Station M}

theorem Idles.refl (s : Station M) : s.Idles s := ⟨rfl, ⟨_, rfl⟩, [], rfl, by simp⟩

theorem Aside.idles {s' : Station M} (h : s.Aside s') : s.Idles s' :=
  ⟨h.stage, ⟨s.queue.loop.wire, h.loop⟩, h.past⟩

theorem report_idles (s : Station M) (job : JobId) (generation : Nat) :
    s.Idles (s.report job generation) := by
  unfold Station.report
  split
  · generalize (s.queue.post job _).1 = posting
    cases posting <;> exact ⟨rfl, ⟨_, rfl⟩, [], rfl, by simp⟩
  · exact .refl s

/-- The outputs of a loop that was drained become part of the past. -/
theorem past_absorb {s : Station M} {es : List (Effect (Numbered M))} {l : Loop (Numbered M)}
    (hes : Queue.outputs es = l.log.reverse) : (s.absorb es).past = l.log ++ s.past := by
  rw [absorb_past]
  change (Queue.outputs es).reverse ++ s.past = _
  rw [hes, List.reverse_reverse]

section Turns

variable [Message M]

/-- A success that the loop takes from its channel is that of the attempt under way. -/
theorem Tended.current {g : Nat} {woken : List (Effect (Numbered M))} {queue : Queue (Numbered M)}
    (h : s.Tended) (hi : s.queue.nextInput s.now = some (.control (.connected g), woken, queue)) :
    s.queue.loop.state = .connecting ∧ g = s.queue.loop.generation := by
  obtain ⟨-, -, -, hitems, -⟩ := Queue.of_nextInput hi
  have hp : (g :: (s.attempts.map (·.generation) ++
      queue.control.items.filterMap Control.verdict?)).Perm s.outstanding := by
    rw [outstanding, hitems, List.filterMap_append]
    exact List.perm_middle.symm
  obtain ⟨hs, hg, -, -⟩ := (h.linked.perm hp).under_way
  exact ⟨hs, hg⟩

/-- The turn of a loop that takes the last of its inputs. -/
theorem turn_final {input : Loop.Input (Numbered M)} {woken : List (Effect (Numbered M))}
    {queue : Queue (Numbered M)} (hs : s.stage = .waiting)
    (hi : s.queue.nextInput s.now = some (input, woken, queue)) (hf : input.isFinal = true) :
    s.turn = (s.become (queue.stop s.now).2 .stopped).absorb
      (woken ++ (queue.stop s.now).1) := by
  have hhandle : queue.handle s.now input = queue.stop s.now := by
    rw [Queue.handle, if_pos hf]
  simp only [turn, hs, hi, hhandle, hf, ite_true]

/-- The turn of a loop that takes one of its inputs and goes on. -/
theorem turn_waiting {input : Loop.Input (Numbered M)} {woken : List (Effect (Numbered M))}
    {queue : Queue (Numbered M)} (hs : s.stage = .waiting)
    (hi : s.queue.nextInput s.now = some (input, woken, queue)) (hf : input.isFinal = false) :
    s.turn = (s.become ({ queue with loop := queue.loop.handle s.now input }.drain s.now
      queue.loop).2 .handled).absorb (woken ++ ({ queue with
        loop := queue.loop.handle s.now input }.drain s.now queue.loop).1) := by
  have hhandle : queue.handle s.now input =
      { queue with loop := queue.loop.handle s.now input }.drain s.now queue.loop := by
    rw [Queue.handle, hf]
    rfl
  simp only [turn, hs, hi, hhandle, hf, Bool.false_eq_true, ite_false]

/-- A turn of the loop that a station becomes is a turn of the station. -/
theorem Takes.of_become {taken : List (Numbered M)} {l : Loop (Numbered M)} {stage : Stage}
    {queue : Queue (Numbered M)} {es : List (Effect (Numbered M))}
    (hturn : s.turn = (s.become queue stage).absorb es)
    (ht : Loop.Turn s.now s.stage s.queue.loop taken stage l)
    (hl : queue.loop = { l with log := [] }) (hes : Queue.outputs es = l.log.reverse)
    (hi : s.queue.traffic.items = taken ++ queue.traffic.items) : s.Takes s.turn taken l := by
  rw [hturn]
  refine ⟨?_, ?_, past_absorb hes, ?_, absorb_next ..⟩
  · rw [absorb_stage]
    exact ht
  · rw [absorb_queue]
    exact hl
  · rw [absorb_queue]
    exact hi

/-- The messages that are taken are in nobody else's hand. -/
theorem Takes.turns {s' : Station M} {taken : List (Numbered M)} {l : Loop (Numbered M)}
    (h : s.Takes s' taken l) (hs : s.Sound) : s.Turns s' := by
  have hkeeps : s.queue.loop.Keeps s.past (List.range s.next) s.queue.backlog := hs.keeps.loop
  rw [Queue.backlog, h.items, List.map_append] at hkeeps
  exact ⟨taken, l, h.turn, h.loop, h.past, _, _, hkeeps⟩

/-- A loop that waits does nothing without an input. With one it stops, or handles it. -/
theorem Tended.takes (h : s.Tended) (hst : s.stage = .waiting) :
    s.queue.nextInput s.now = none ∧ s.turn = s ∨
      ∃ input woken queue, s.queue.nextInput s.now = some (input, woken, queue) ∧
        (input.isFinal = true ∧
          s.Takes s.turn queue.traffic.items (s.queue.loop.shutdown queue.traffic.items).publish ∨
        input.isFinal = false ∧
          s.Takes s.turn input.messages (s.queue.loop.handle s.now input)) := by
  cases hi : s.queue.nextInput s.now with
  | none => exact .inl ⟨rfl, by simp only [Station.turn, hst, hi]⟩
  | some next =>
    obtain ⟨input, woken, queue⟩ := next
    obtain ⟨hl, hw, -, -, hm⟩ := Queue.of_nextInput hi
    refine .inr ⟨input, woken, queue, rfl, ?_⟩
    cases hf : input.isFinal with
    | true =>
      have htaken : input.messages = [] := by
        cases input with
        | traffic m => simp [Loop.Input.isFinal] at hf
        | _ => rfl
      rw [htaken, List.nil_append] at hm
      refine .inl ⟨rfl, .of_become (turn_final hst hi hf) ?_ ?_ ?_ ?_⟩
      · rw [hst]
        exact .stop ..
      · rw [← hl]
        rfl
      · rw [Queue.outputs_append, hw, List.nil_append, ← hl]
        exact queue.outputs_stop s.now
      · rw [hm]
        exact (List.append_nil _).symm
    | false =>
      rw [← hl]
      refine .inr ⟨rfl, .of_become (turn_waiting hst hi hf) ?_ rfl ?_ hm⟩
      · rw [hst, hl]
        exact .handle _ hf fun g hg => h.current (hg ▸ hi)
      · rw [Queue.outputs_append, hw, List.nil_append]
        exact Queue.outputs_drain ..

/-- A loop that writes has a turn. -/
theorem writing_takes (hst : s.stage = .writing) : ∃ taken l, s.Takes s.turn taken l := by
  have hturn : s.turn = (s.become (s.queue.write s.now).2.2
      (if (s.queue.write s.now).1 then .writing else .waiting)).absorb
        (s.queue.write s.now).2.1 := by rw [Station.turn, hst]
  cases hr : s.queue.loop.round s.now with
  | mk goesOn l =>
    have hwrite : s.queue.write s.now = (goesOn, { s.queue with
        loop := if goesOn then l else l.publish }.drain s.now s.queue.loop) := by
      rw [Queue.write, hr]
      cases goesOn <;> rfl
    rw [hwrite] at hturn
    have ht : Loop.Turn s.now s.stage s.queue.loop [] (if goesOn then .writing else .waiting)
        (if goesOn then l else l.publish) := by
      rw [hst]
      cases goesOn with
      | true => exact .write hr
      | false => exact .rest hr
    exact ⟨_, _, .of_become hturn ht rfl (Queue.outputs_drain ..) rfl⟩

/-- A loop that goes on does nothing, or has a turn. -/
theorem turn_takes (ht : s.stage = .stopped ∨ s.Tended) :
    s.turn = s ∨ ∃ taken l, s.Takes s.turn taken l := by
  cases hst : s.stage with
  | stopped => exact .inl (by rw [turn, hst])
  | fresh =>
    have hturn : s.turn = (s.become (s.queue.begin s.now).2 .waiting).absorb
        (s.queue.begin s.now).1 := by rw [turn, hst]
    have ht : Loop.Turn s.now s.stage s.queue.loop [] .waiting s.queue.loop.begin := by
      rw [hst]
      exact .begin
    exact .inr ⟨_, _, .of_become hturn ht rfl (Queue.outputs_drain ..) rfl⟩
  | waiting =>
    rcases (ht.resolve_left (by simp [hst])).takes hst with ⟨-, heq⟩ | ⟨_, _, _, -, h⟩
    · exact .inl heq
    · exact .inr (h.elim (fun h => ⟨_, _, h.2⟩) fun h => ⟨_, _, h.2⟩)
  | handled =>
    have hturn : s.turn = (s.become (s.queue.gather s.now).2 .writing).absorb
        (s.queue.gather s.now).1 := by rw [turn, hst]
    have ht : Loop.Turn s.now s.stage s.queue.loop s.queue.traffic.items .writing
        (s.queue.loop.gather s.queue.traffic.items) := by
      rw [hst]
      exact .gather ..
    exact .inr ⟨_, _, .of_become hturn ht rfl (s.queue.outputs_gather s.now)
      (List.append_nil _).symm⟩
  | writing => exact .inr (writing_takes hst)

theorem turn_cases (hs : s.Sound) (ht : s.stage = .stopped ∨ s.Tended) :
    s.turn = s ∨ s.Turns s.turn :=
  (turn_takes ht).imp_right fun ⟨_, _, h⟩ => h.turns hs

/-- Nobody but the loop itself makes it go on. -/
theorem act_idles (s : Station M) {a : Action M} (ha : a ≠ .turn) : s.Idles (s.act a) := by
  have hpost (job : JobId) (item : Control) : s.Idles (s.post job item) :=
    ⟨rfl, ⟨_, rfl⟩, [], rfl, by simp⟩
  cases a with
  | pass nanos => exact ⟨rfl, ⟨_, rfl⟩, [], rfl, by simp⟩
  | send job m => exact (s.send_aside job m).idles
  | trySend m => exact (s.trySend_aside m).idles
  | reopen job => exact hpost job .reopen
  | close job => exact hpost job .close
  | release => exact ⟨rfl, ⟨_, rfl⟩, [], rfl, by simp⟩
  | deliver job generation data =>
    dsimp only [Station.act]
    split
    · exact hpost job _
    · exact .refl s
  | lost job generation reason =>
    dsimp only [Station.act]
    split
    · exact hpost job _
    · exact .refl s
  | decide generation refusal => exact ⟨rfl, ⟨_, rfl⟩, [], rfl, by simp⟩
  | report job generation => exact s.report_idles job generation
  | wire errors => exact ⟨rfl, ⟨errors, rfl⟩, [], rfl, by simp⟩
  | turn => exact absurd rfl ha

/-- What an action does to the loop: nothing, or it is a turn. -/
theorem act_cases (hs : s.Sound) (ht : s.stage = .stopped ∨ s.Tended) (a : Action M) :
    s.Idles (s.act a) ∨ s.Turns (s.act a) := by
  by_cases ha : a = .turn
  · subst ha
    rcases turn_cases hs ht with heq | hturn
    · exact .inl (by rw [act, heq]; exact .refl s)
    · exact .inr hturn
  · exact .inl (s.act_idles ha)

/-! ### Runs -/

/-- What is known of a loop that has its turn: its log was drained, and the messages that it takes
are in nobody else's hand. -/
structure Poised (past : List (Output (Numbered M))) (taken : List (Numbered M))
    (l : Loop (Numbered M)) : Prop where
  log : l.log = []
  keeps : ∃ given hand, l.Keeps past given (taken.map (·.number) ++ hand)

/-- What every turn keeps, and what happens between the turns, is kept by a run. -/
theorem run_induction {I : Stage → List (Output (Numbered M)) → Loop (Numbered M) → Prop}
    (idle : ∀ {stage past l es} wire, I stage past l → l.log = [] →
      (∀ o ∈ es, ∃ m e, o = .failed m e) → I stage (es ++ past) { l with wire })
    (turn : ∀ {now stage past l taken stage' l'}, I stage past l → Poised past taken l →
      Loop.Turn now stage l taken stage' l' → I stage' (l'.log ++ past) { l' with log := [] })
    (hs : s.Sound) (ht : s.stage = .stopped ∨ s.Tended) (h : I s.stage s.past s.queue.loop)
    (as : List (Action M)) : I (s.run as).stage (s.run as).past (s.run as).queue.loop := by
  induction as generalizing s with
  | nil => exact h
  | cons a as ih =>
    refine ih (hs.act a) (run_tended ht [a]) ?_
    rcases act_cases hs ht a with hi | ⟨taken, l, hturn, hl, hp, hk⟩
    · obtain ⟨wire, hl⟩ := hi.loop
      obtain ⟨es, hp, hes⟩ := hi.past
      rw [hi.stage, hl, hp]
      exact idle wire h hs.keeps.log hes
    · rw [hl, hp]
      exact turn h ⟨hs.keeps.log, hk⟩ hturn

/-- A run from the very first action on. -/
theorem run_start {I : Stage → List (Output (Numbered M)) → Loop (Numbered M) → Prop}
    (idle : ∀ {stage past l es} wire, I stage past l → l.log = [] →
      (∀ o ∈ es, ∃ m e, o = .failed m e) → I stage (es ++ past) { l with wire })
    (turn : ∀ {now stage past l taken stage' l'}, I stage past l → Poised past taken l →
      Loop.Turn now stage l taken stage' l' → I stage' (l'.log ++ past) { l' with log := [] })
    (name : Name) (config : Config) (hook : Hook) (h : I .fresh [] (.start config))
    (as : List (Action M)) : let s := (start name config hook).run as
    I s.stage s.past s.queue.loop :=
  run_induction idle turn (.start name config hook) (.inr (.start name config hook)) h as

end Turns

end Station

end Hearth.Link
