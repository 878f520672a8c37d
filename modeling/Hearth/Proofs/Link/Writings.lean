import Hearth.Proofs.Link.Deeds
import Hearth.Proofs.Link.Transport
import Mathlib.Data.List.Induction

/-!
# What was written

A message is written when it was asked what to write, and all frames that it gave got through. A
history tells so by itself (`written?`): the frames stand right after the question. A message of
which only the first frames got through was not written.

## Main definitions

* `written?` : the message that is written with the newest output of a history.
* `writings` : all messages that were written, each with the transport that took it.

## Main results

* `writings_through`, `writings_partial` : what a message adds that is written, or cut off.
* `writings_append` : what is not about writing adds nothing.
-/

namespace Hearth.Link

variable {M : Type}

/-- Is an output part of writing a message? -/
def Output.isWriting : Output M → Bool
  | .asked _ .send => true
  | .wrote .. => true
  | _ => false

/-- Does an output open a transport, or close one? -/
def Output.isMove : Output M → Bool
  | .notice .connect => true
  | .closed _ => true
  | _ => false

variable [Message M]

/-- The message that was asked last what to write in a history, newest output first, if it gave the
frames that were written since, and the given ones after them. -/
def writtenWith (frames : List Bytes) : List (Output M) → Option M
  | .wrote _ frame :: past => writtenWith (frame :: frames) past
  | .asked m .send :: _ =>
    match (Message.send m).2 with
    | .ok (given, _) => if given = frames then some m else none
    | .error _ => none
  | _ => none

/-- The message that is written with the newest output of a history. -/
def written? (past : List (Output M)) : Option M := writtenWith [] past

/-- The messages that were written in a history, the last one first, each with the generation of the
transport that was open. -/
def writings : List (Output M) → List (M × Option Nat)
  | [] => []
  | o :: past => ((written? (o :: past)).map (·, openTransport past)).toList ++ writings past

omit [Message M] in
theorem Output.not_isWriting_of_isQuiet {o : Output M} (h : o.isQuiet = true) :
    o.isWriting = false := by
  unfold isQuiet at h
  split at h <;> simp_all [isWriting]

theorem written?_cons {o : Output M} (ho : o.isWriting = false) (past : List (Output M)) :
    written? (o :: past) = none := by
  unfold Output.isWriting at ho
  split at ho <;> simp_all [written?, writtenWith]

theorem writings_cons {o : Output M} (ho : o.isWriting = false) (past : List (Output M)) :
    writings (o :: past) = writings past := by
  rw [writings, written?_cons ho]
  rfl

/-- What is not about writing adds nothing. -/
theorem writings_append {es : List (Output M)} (hes : ∀ e ∈ es, e.isWriting = false)
    (past : List (Output M)) : writings (es ++ past) = writings past := by
  induction es with
  | nil => rfl
  | cons e es ih =>
    obtain ⟨he, hes⟩ := List.forall_mem_cons.mp hes
    rw [List.cons_append, writings_cons he, ih hes]

omit [Message M] in
/-- What neither opens nor closes a transport leaves it as it is. -/
theorem openTransport_append {es : List (Output M)} (hes : ∀ e ∈ es, e.isMove = false)
    (past : List (Output M)) : openTransport (es ++ past) = openTransport past := by
  induction es with
  | nil => rfl
  | cons e es ih =>
    obtain ⟨he, hes⟩ := List.forall_mem_cons.mp hes
    rw [← ih hes, List.cons_append]
    unfold Output.isMove at he
    split at he <;> simp_all [openTransport]

omit [Message M] in
theorem not_isMove_of_mem_through {generation : Nat} {m : M} {frames : List Bytes} {o : Output M}
    (ho : o ∈ through generation m frames) : o.isMove = false := by
  rcases mem_through ho with ⟨frame, -, rfl⟩ | rfl
  · rfl
  · rfl

omit [Message M] in
theorem through_nil (generation : Nat) (m : M) : through generation m [] = [.asked m .send] := rfl

omit [Message M] in
theorem through_concat (generation : Nat) (m : M) (frames : List Bytes) (frame : Bytes) :
    through generation m (frames ++ [frame]) =
      .wrote generation frame :: through generation m frames := by
  simp [through]

/-- The frames that were written since a message was asked are compared with those it gave. -/
theorem writtenWith_through (generation : Nat) {m : M} {given : List Bytes} {d : SendDirective}
    (hs : (Message.send m).2 = .ok (given, d)) (before after : List Bytes)
    (past : List (Output M)) : writtenWith after (through generation m before ++ past) =
      if given = before ++ after then some m else none := by
  induction before using List.reverseRecOn generalizing after with
  | nil => simp [through_nil, writtenWith, hs]
  | append_singleton before frame ih =>
    rw [through_concat, List.cons_append, writtenWith, ih, List.append_assoc, List.singleton_append]

/-- Nothing but the message itself is written with its frames. -/
theorem writtenWith_through_or (generation : Nat) (m : M) (before after : List Bytes)
    (past : List (Output M)) : writtenWith after (through generation m before ++ past) = none ∨
      writtenWith after (through generation m before ++ past) = some m := by
  induction before using List.reverseRecOn generalizing after with
  | nil =>
    rw [through_nil, List.singleton_append, writtenWith]
    split
    · split
      · exact .inr rfl
      · exact .inl rfl
    · exact .inl rfl
  | append_singleton before frame ih =>
    rw [through_concat]
    exact ih _

theorem written?_through (generation : Nat) {m : M} {frames : List Bytes} {d : SendDirective}
    (hs : (Message.send m).2 = .ok (frames, d)) (past : List (Output M)) :
    written? (through generation m frames ++ past) = some m := by
  rw [written?, writtenWith_through generation hs, if_pos (List.append_nil _).symm]

/-- A message of which not all frames got through was not written. -/
theorem writings_partial (generation : Nat) {m : M} {before after : List Bytes} {frame : Bytes}
    {d : SendDirective} (hs : (Message.send m).2 = .ok (before ++ frame :: after, d))
    (past : List (Output M)) :
    writings (through generation m before ++ past) = writings past := by
  have hnone {before after : List Bytes} {frame : Bytes}
      (hs : (Message.send m).2 = .ok (before ++ frame :: after, d)) :
      written? (through generation m before ++ past) = none := by
    rw [written?, writtenWith_through generation hs, if_neg (by simp)]
  induction before using List.reverseRecOn generalizing frame after with
  | nil =>
    have h := hnone hs
    rw [through_nil, List.singleton_append] at h ⊢
    rw [writings, h]
    rfl
  | append_singleton before frame' ih =>
    have h := hnone hs
    rw [through_concat, List.cons_append] at h ⊢
    rw [writings, h, ih (by rw [hs, List.append_assoc]; rfl)]
    rfl

/-- A message that is written adds itself, with the transport that took it. -/
theorem writings_through (generation : Nat) {m : M} {frames : List Bytes} {d : SendDirective}
    (hs : (Message.send m).2 = .ok (frames, d)) (past : List (Output M)) :
    writings (through generation m frames ++ past) = (m, openTransport past) :: writings past := by
  have h := written?_through generation hs past
  induction frames using List.reverseRecOn with
  | nil =>
    rw [through_nil, List.singleton_append] at h ⊢
    rw [writings, h]
    rfl
  | append_singleton frames frame =>
    rw [through_concat, List.cons_append] at h ⊢
    rw [writings, h, writings_partial generation (by rw [hs]),
      openTransport_append fun o ho => not_isMove_of_mem_through ho]
    rfl

end Hearth.Link
