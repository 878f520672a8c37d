import Hearth.Strand.Step

/-!
# Walks of a strand

A walk is what one strand does from some state to the end of the call that it makes there, when
only the frames that were on its stack before are left. Whenever the strand pauses the others can
change the house in any way; the walk goes on when the pause is over. While a strand walks it
records which steps of sequences end, each with the number of frames below its sequence.

## Main definitions

* `Strand.Ended` : a step of a sequence that ended.
* `Strand.Walk` : the ways of a strand to the end of a call.
* `Strand.Terminates` : every way of a strand comes to the end of the call.

## Main results

* `Strand.Walk.split` : the walk of a call under a frame is the walk to the frame, followed by that
  of the frame.
* `Strand.Walk.depth_le` : a walk records nothing about the frames below it.
* `Strand.Terminates.under` : a call under a frame terminates if it does without the frame and what
  the frame does terminates.
* `Strand.Terminates.exists_walk` : a strand that terminates has a walk.
-/

namespace Hearth.Strand

/-- A step of a sequence that ended. -/
structure Ended where
  /-- The number of frames below that of the sequence. -/
  depth : Nat
  bands : Bands
  /-- The sequence while the step ran. -/
  run : Run
  outcome : Outcome
  deriving Inhabited

/-- The step of a sequence that ends now. -/
def State.ending (t : State) : List Ended :=
  match t.frames, t.doing with
  | .step bands run :: base, .give o => [⟨base.length, bands, run, o⟩]
  | _, _ => []

@[simp] theorem State.ending_call (frames : List Frame) (c : Call) :
    State.ending ⟨frames, .call c⟩ = [] := by
  unfold State.ending
  split
  · next hd => simp at hd
  · rfl

/-- Only the frames that were there before are left, and the call has ended. -/
def State.Arrived (base : List Frame) (t : State) : Prop :=
  t.frames = base ∧ ∃ o, t.doing = .give o

/-- The ways of a strand from a state and a house to the end of a call, with the steps of sequences
that end on the way, the outcome of the call, and the house at its end. -/
inductive Walk (job : Link.JobId) (base : List Frame) :
    State → House → List Ended → Outcome → House → Prop where
  | arrive (o : Outcome) (h : House) : Walk job base ⟨base, .give o⟩ h [] o h
  | step {t : State} {h h' : House} {tr : List Ended} {o : Outcome}
    (goesOn : ¬ t.Arrived base) (runs : ∀ p, t.doing ≠ .pause p)
    (rest : Walk job base (step job h t).1 (step job h t).2.1 tr o h') :
    Walk job base t h (t.ending ++ tr) o h'
  | pause {frames : List Frame} {p : Pause} {h h₁ h₂ h' : House} {o₁ o : Outcome}
    {tr : List Ended} (ends : poll job h₁ p = (some o₁, h₂))
    (rest : Walk job base ⟨frames, .give o₁⟩ h₂ tr o h') :
    Walk job base ⟨frames, .pause p⟩ h tr o h'

/-- Every way of a strand comes to the end of its call, whatever the others do while it pauses,
unless a pause is never over. -/
inductive Terminates (job : Link.JobId) (base : List Frame) : State → House → Prop where
  | arrived (o : Outcome) (h : House) : Terminates job base ⟨base, .give o⟩ h
  | step {t : State} {h : House} (goesOn : ¬ t.Arrived base) (runs : ∀ p, t.doing ≠ .pause p)
    (rest : Terminates job base (step job h t).1 (step job h t).2.1) : Terminates job base t h
  | pause {frames : List Frame} {p : Pause} {h : House}
    (rest : ∀ h₁ o h₂, poll job h₁ p = (some o, h₂) → Terminates job base ⟨frames, .give o⟩ h₂) :
    Terminates job base ⟨frames, .pause p⟩ h

/-! ### Frames below -/

theorem exists_moveOn (h : House) (a : Act Move) : ∃ (m : Move) (h₁ : House), ∀ frames,
    moveOn frames (a.runOn h) = (⟨m.frames ++ frames, m.doing⟩, h₁) := by
  rcases a.runOn h with ⟨e | m, h₁⟩
  · exact ⟨.give (.error e), h₁, fun _ => rfl⟩
  · exact ⟨m, h₁, fun _ => rfl⟩

/-- The beginning of a call puts frames on the stack and touches none below. -/
theorem exists_step_call (job : Link.JobId) (h : House) (c : Call) :
    ∃ (m : Move) (h₁ : House) (k : Option Session), ∀ frames,
      step job h ⟨frames, .call c⟩ = (⟨m.frames ++ frames, m.doing⟩, h₁, k) := by
  obtain ⟨m, h₁, hm⟩ := exists_moveOn h (begin job c)
  cases c with
  | session s inputs use => exact ⟨_, _, _, fun _ => rfl⟩
  | _ => exact ⟨m, h₁, none, fun frames => congrArg (fun x => (x.1, x.2, none)) (hm frames)⟩

/-- The end of a call takes the innermost frame off the stack and touches none below. -/
theorem exists_step_give (job : Link.JobId) (h : House) (f : Frame) (o : Outcome) :
    ∃ (m : Move) (h₁ : House) (k : Option Session), ∀ frames,
      step job h ⟨f :: frames, .give o⟩ = (⟨m.frames ++ frames, m.doing⟩, h₁, k) := by
  obtain ⟨m, h₁, hm⟩ := exists_moveOn h (resume o f)
  cases f with
  | session s statement rest use => exact ⟨_, _, _, fun _ => rfl⟩
  | _ => exact ⟨m, h₁, none, fun frames => congrArg (fun x => (x.1, x.2, none)) (hm frames)⟩

theorem not_arrived_above (base fs : List Frame) (f : Frame) (d : Doing) :
    ¬ State.Arrived base ⟨fs ++ f :: base, d⟩ := by
  rintro ⟨hbase, -⟩
  have hl := congrArg List.length hbase
  simp at hl
  omega

/-- A strand that has not arrived and does not pause stays above the frames that were there. -/
theorem exists_step {job : Link.JobId} {base fs : List Frame} {d : Doing} (h : House)
    (ha : ¬ State.Arrived base ⟨fs ++ base, d⟩) (hp : ∀ p, d ≠ .pause p) :
    ∃ fs' d', (step job h ⟨fs ++ base, d⟩).1 = ⟨fs' ++ base, d'⟩ := by
  cases d with
  | call c =>
    obtain ⟨m, h₁, k, hm⟩ := exists_step_call job h c
    exact ⟨m.frames ++ fs, m.doing, by rw [hm, List.append_assoc]⟩
  | give o =>
    cases fs with
    | nil => exact absurd ⟨rfl, o, rfl⟩ ha
    | cons f fs =>
      obtain ⟨m, h₁, k, hm⟩ := exists_step_give job h f o
      exact ⟨m.frames ++ fs, m.doing, by rw [List.cons_append, hm, List.append_assoc]⟩
  | pause p => exact absurd rfl (hp p)

namespace Walk

variable {job : Link.JobId} {base fs : List Frame} {f : Frame} {d : Doing} {t : State}
  {h h₁ h' : House} {tr tr₁ tr₂ : List Ended} {o o₁ : Outcome}

/-- A walk records nothing about the frames below it. -/
theorem depth_le (hw : Walk job base t h tr o h') (ht : ∃ fs, t.frames = fs ++ base) :
    ∀ e ∈ tr, base.length ≤ e.depth := by
  induction hw with
  | arrive o h => simp
  | @step t h h' tr o goesOn runs rest ih =>
    obtain ⟨frames, d⟩ := t
    obtain ⟨fs, rfl⟩ := ht
    obtain ⟨fs', d', hs⟩ := exists_step h goesOn runs
    intro e he
    rcases List.mem_append.mp he with he | he
    · unfold State.ending at he
      split at he
      · next bands run rest o hf hd =>
        dsimp only at hf hd
        obtain rfl := List.mem_singleton.mp he
        cases fs with
        | nil => exact absurd ⟨rfl, o, hd⟩ goesOn
        | cons f fs =>
          obtain ⟨-, rfl⟩ := List.cons.inj hf
          simp
      · simp at he
    · exact ih ⟨fs', by rw [hs]⟩ e he
  | pause ends rest ih => exact ih ht

/-- A call under a frame comes to its end before the frame does. -/
theorem split (hw : Walk job base t h tr o h') (ht : t = ⟨fs ++ f :: base, d⟩) :
    ∃ tr₁ o₁ h₁ tr₂, Walk job (f :: base) t h tr₁ o₁ h₁ ∧
      Walk job base ⟨f :: base, .give o₁⟩ h₁ tr₂ o h' ∧ tr = tr₁ ++ tr₂ := by
  induction hw generalizing fs d with
  | arrive o h => exact absurd (ht ▸ ⟨rfl, o, rfl⟩) (not_arrived_above base fs f d)
  | @step t h h' tr o goesOn runs rest ih =>
    subst ht
    by_cases ha : State.Arrived (f :: base) ⟨fs ++ f :: base, d⟩
    · obtain ⟨hf, o₁, hd⟩ := ha
      obtain rfl : fs = [] := by simpa using hf
      dsimp only at hd
      subst hd
      exact ⟨[], o₁, h, _, .arrive o₁ h, .step goesOn runs rest, (List.nil_append _).symm⟩
    · obtain ⟨fs', d', hs⟩ := exists_step h ha runs
      obtain ⟨tr₁, o₁, h₁, tr₂, hw₁, hw₂, rfl⟩ := ih hs
      exact ⟨_, o₁, h₁, tr₂, .step ha runs hw₁, hw₂, (List.append_assoc ..).symm⟩
  | @pause frames p h h₁ h₂ h' o₁ o tr ends rest ih =>
    obtain ⟨hf, -⟩ := State.mk.inj ht
    obtain ⟨tr₁, o₂, h₃, tr₂, hw₁, hw₂, rfl⟩ := ih (by rw [hf])
    exact ⟨tr₁, o₂, h₃, tr₂, .pause ends hw₁, hw₂, rfl⟩

end Walk

/-- A call under a frame terminates if it does without the frame and what the frame does
terminates. -/
theorem Terminates.under {job : Link.JobId} {base : List Frame} {f : Frame} {t : State} {h : House}
    (ht : Terminates job (f :: base) t h) (hf : ∃ fs, t.frames = fs ++ f :: base)
    (after : ∀ o h₁, Terminates job base ⟨f :: base, .give o⟩ h₁) : Terminates job base t h := by
  induction ht with
  | arrived o h => exact after o h
  | @step t h goesOn runs rest ih =>
    obtain ⟨frames, d⟩ := t
    obtain ⟨fs, rfl⟩ := hf
    obtain ⟨fs', d', hs⟩ := exists_step h goesOn runs
    exact .step (not_arrived_above base fs f d) runs (ih ⟨fs', by rw [hs]⟩)
  | pause rest ih => exact .pause fun h₁ o h₂ hp => ih h₁ o h₂ hp hf

/-- No pause is one that could never be over. -/
theorem exists_poll (job : Link.JobId) (h : House) (p : Pause) :
    ∃ h₁ o h₂, poll job h₁ p = (some o, h₂) := by
  cases p with
  | sleep due => exact ⟨{ h with now := due }, .ok .done, { h with now := due }, by simp [poll]⟩
  | wait name token due =>
    exact ⟨{ h with now := due }, .ok .done, { h with now := due }, by simp [poll]⟩
  | answer ticket =>
    exact ⟨{ h with answers := [(ticket, .ok none)] }, .ok .done, { h with answers := [] },
      by simp [poll]⟩
  | send id m => exact ⟨{ h with queues := [] }, _, _, rfl⟩
  | post id c => exact ⟨{ h with queues := [] }, _, _, rfl⟩
  | stopped id => exact ⟨{ h with queues := [] }, _, _, rfl⟩
  | state id st => exact ⟨{ h with queues := [] }, _, _, rfl⟩

/-- A strand that terminates has a walk to the end of its call. -/
theorem Terminates.exists_walk {job : Link.JobId} {base : List Frame} {t : State} {h : House}
    (ht : Terminates job base t h) : ∃ tr o h', Walk job base t h tr o h' := by
  induction ht with
  | arrived o h => exact ⟨[], o, h, .arrive o h⟩
  | step goesOn runs rest ih =>
    obtain ⟨tr, o, h', hw⟩ := ih
    exact ⟨_, o, h', .step goesOn runs hw⟩
  | @pause frames p h rest ih =>
    obtain ⟨h₁, o₁, h₂, hp⟩ := exists_poll job h p
    obtain ⟨tr, o, h', hw⟩ := ih h₁ o₁ h₂ hp
    exact ⟨tr, o, h', .pause hp hw⟩

end Hearth.Strand
