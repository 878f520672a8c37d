import Hearth.Proofs.Link.Turns

/-!
# How messages are given to a queue

A message that is given to a queue gets the next number, and is either put behind all others into
the channel, or failed at once because the queue is closed or full. Nothing else that happens
between the turns of a loop is about messages.

## Main definitions

* `Station.given` : the messages that were given in a run; the number of each is its place.
* `Station.Fate` : what becomes at once of a message that is given.

## Main results

* `Station.act_fate` : what an action does that is no turn.
-/

namespace Hearth.Link

variable {M : Type}

namespace Station

/-- What becomes at once of a message that is given to a queue, if one is. -/
inductive Fate (s s' : Station M) : Option M → Prop
  | nothing (next : s'.next = s.next) (items : s'.queue.traffic.items = s.queue.traffic.items)
      (past : s'.past = s.past) : Fate s s' none
  | put (m : M) (next : s'.next = s.next + 1)
      (items : s'.queue.traffic.items = s.queue.traffic.items ++ [⟨s.next, m⟩])
      (past : s'.past = s.past) : Fate s s' (some m)
  | refused (m : M) (e : QueueError) (refusal : e = .closed ∨ e = .full)
      (next : s'.next = s.next + 1) (items : s'.queue.traffic.items = s.queue.traffic.items)
      (past : s'.past = .failed ⟨s.next, m⟩ e :: s.past) : Fate s s' (some m)

/-- The message that a sender gives, unless it has to wait for room. -/
def gift? (s : Station M) : Action M → Option M
  | .send job m =>
    match (s.queue.send job ⟨s.next, m⟩).1 with
    | .full => none
    | _ => some m
  | .trySend m => some m
  | _ => none

variable {s : Station M}

theorem send_fate (s : Station M) (job : JobId) (m : M) :
    s.Fate (s.send job m) (s.gift? (.send job m)) := by
  have hi := s.queue.traffic.offer_items job ⟨s.next, m⟩
  dsimp only [Station.send, Queue.send, gift?]
  cases hr : (s.queue.traffic.offer job ⟨s.next, m⟩).1 with
  | full =>
    rw [hr] at hi
    exact .nothing rfl hi rfl
  | closed =>
    rw [hr] at hi
    exact .refused m .closed (.inl rfl) (absorb_next ..) hi (absorb_past ..)
  | put =>
    rw [hr] at hi
    exact .put m (absorb_next ..) hi (absorb_past ..)

theorem trySend_fate (s : Station M) (m : M) : s.Fate (s.trySend m) (some m) := by
  dsimp only [Station.trySend, Queue.trySend]
  split
  · exact .refused m .closed (.inl rfl) (absorb_next ..) rfl (absorb_past ..)
  · split
    · next traffic ht =>
      refine .put m (absorb_next ..) ?_ (absorb_past ..)
      rw [absorb_queue, Channel.eq_of_put? ht]
    · exact .refused m .full (.inr rfl) (absorb_next ..) rfl (absorb_past ..)

theorem report_fate (s : Station M) (job : JobId) (generation : Nat) :
    s.Fate (s.report job generation) none := by
  unfold Station.report
  split
  · generalize (s.queue.post job _).1 = posting
    cases posting <;> exact .nothing rfl rfl rfl
  · exact .nothing rfl rfl rfl

/-- No message is at two places. -/
theorem Sound.nodup (h : s.Sound) : (s.queue.backlog ++ s.queue.loop.held).Nodup := by
  have hall := h.keeps.loop.perm.nodup_iff.mpr h.keeps.loop.distinct
  exact hall.sublist (List.sublist_append_left ..)

variable [Message M]

/-- An action that is no turn does nothing with messages, but that one may be given. -/
theorem act_fate (s : Station M) {a : Action M} (ha : a ≠ .turn) :
    s.Fate (s.act a) (s.gift? a) := by
  have hpost (job : JobId) (item : Control) : s.Fate (s.post job item) none := .nothing rfl rfl rfl
  cases a with
  | send job m => exact s.send_fate job m
  | trySend m => exact s.trySend_fate m
  | report job generation => exact s.report_fate job generation
  | deliver job generation data =>
    dsimp only [Station.act, gift?]
    split
    · exact hpost job _
    · exact .nothing rfl rfl rfl
  | lost job generation reason =>
    dsimp only [Station.act, gift?]
    split
    · exact hpost job _
    · exact .nothing rfl rfl rfl
  | turn => exact absurd rfl ha
  | reopen job => exact hpost job _
  | close job => exact hpost job _
  | pass nanos => exact .nothing rfl rfl rfl
  | release => exact .nothing rfl rfl rfl
  | decide generation refusal => exact .nothing rfl rfl rfl
  | wire errors => exact .nothing rfl rfl rfl

/-- The messages that are given in a run, in their order. -/
def given (s : Station M) : List (Action M) → List M
  | [] => []
  | a :: as => (s.gift? a).toList ++ (s.act a).given as

theorem given_concat (s : Station M) (as : List (Action M)) (a : Action M) :
    s.given (as ++ [a]) = s.given as ++ ((s.run as).gift? a).toList := by
  induction as generalizing s with
  | nil => simp [given, run]
  | cons b as ih =>
    rw [List.cons_append, given, ih, given, List.append_assoc]
    rfl

theorem run_concat (s : Station M) (as : List (Action M)) (a : Action M) :
    s.run (as ++ [a]) = (s.run as).act a := List.foldl_append

theorem turn_next (s : Station M) : s.turn.next = s.next := by
  dsimp only [Station.turn]
  split
  · exact absorb_next ..
  · split
    · rfl
    · exact absorb_next ..
  · exact absorb_next ..
  · exact absorb_next ..
  · rfl

/-- The next number is that of the messages that were given. -/
theorem run_next (s : Station M) (as : List (Action M)) :
    (s.run as).next = s.next + (s.given as).length := by
  induction as generalizing s with
  | nil => rfl
  | cons a as ih =>
    have hact : (s.act a).next = s.next + (s.gift? a).toList.length := by
      by_cases ha : a = .turn
      · subst ha
        exact s.turn_next
      · have hfate := s.act_fate ha
        generalize s.gift? a = gift at hfate
        cases hfate with
        | nothing next => exact next
        | put m next => exact next
        | refused m e refusal next => exact next
    refine (ih (s.act a)).trans ?_
    rw [hact, given, List.length_append, Nat.add_assoc]

end Station

end Hearth.Link
