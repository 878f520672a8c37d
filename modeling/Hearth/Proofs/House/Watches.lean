import Hearth.Proofs.House.Crowds
import Hearth.Proofs.Strand.Walk
import Mathlib.Logic.Function.Iterate

/-!
# Watching one strand

One strand of a crowd is watched, from a state to its end, while the others do what they like. Each
call that it makes begins at some time, and each frame on its stack has its turn, when all above it
is done; what happens in between leaves the frames below alone.

## Main definitions

* `Watch`, `Watch.Goes` : a crowd in which one strand is watched, and what can happen next in it.
* `Watch.Reaches` : what happens one after the other.

## Main results

* `Watch.Reaches.begins` : a strand that ends began the call that it was about to make.
* `Watch.Reaches.returns` : a strand that ends came back to the frames on its stack.
-/

namespace Hearth

/-- A strand becomes something between two moments, so there is a moment at which it does. -/
theorem exists_crossing {α : Type*} {r : α → α → Prop} {P : α → Prop} {x z : α}
    (run : Relation.ReflTransGen r x z) (hx : ¬ P x) (hz : P z) :
    ∃ y y', Relation.ReflTransGen r x y ∧ r y y' ∧ Relation.ReflTransGen r y' z ∧
      ¬ P y ∧ P y' := by
  induction run using Relation.ReflTransGen.head_induction_on with
  | refl => exact absurd hz hx
  | @head x x' hstep hrest ih =>
    by_cases hx' : P x'
    · exact ⟨x, x', .refl, hstep, hrest, hx, hx'⟩
    · obtain ⟨y, y', hbefore, hrest⟩ := ih hx'
      exact ⟨y, y', hbefore.head hstep, hrest⟩

/-- A step takes place above a frame, unless it is the turn of the frame. -/
theorem Strand.step_above (job : Link.JobId) (h : House) (fs base : List Frame) (f : Frame)
    (d : Doing) : (∃ fs', (step job h ⟨fs ++ f :: base, d⟩).1.frames = fs' ++ f :: base) ∨
      fs = [] ∧ ∃ o, d = .give o := by
  by_cases hp : ∃ p, d = .pause p
  · obtain ⟨p, rfl⟩ := hp
    exact .inl ⟨fs, rfl⟩
  · by_cases ha : State.Arrived (f :: base) ⟨fs ++ f :: base, d⟩
    · exact .inr ⟨List.append_left_eq_self.mp ha.1, ha.2⟩
    · obtain ⟨fs', d', hstep⟩ := exists_step h ha fun p hd => hp ⟨p, hd⟩
      exact .inl ⟨fs', by rw [hstep]⟩

/-- A strand stays above a frame, or takes the step of that frame. -/
theorem Strand.Goes.above {job : Link.JobId} {h h' : House} {t t' : State} {f : Frame}
    {base : List Frame} (hgoes : Goes job h t h' t') (above : ∃ fs, t.frames = fs ++ f :: base) :
    (∃ fs, t'.frames = fs ++ f :: base) ∨ ∃ h₁ o₁, (step job h₁ ⟨f :: base, .give o₁⟩).2.1 = h' ∧
      (step job h₁ ⟨f :: base, .give o₁⟩).1 = t' := by
  obtain ⟨fs, hfs⟩ := above
  cases hgoes with
  | steps =>
    obtain ⟨frames, d⟩ := t
    obtain rfl : frames = fs ++ f :: base := hfs
    rcases step_above job h fs base f d with hlater | ⟨rfl, o, rfl⟩
    · exact .inl hlater
    · exact .inr ⟨h, o, rfl, rfl⟩
  | @wakes h' p o frames hended =>
    obtain rfl : frames = fs ++ f :: base := hfs
    rcases step_above job h' fs base f (.give o) with hlater | ⟨rfl, -⟩
    · exact .inl hlater
    · exact .inr ⟨h', o, rfl, rfl⟩

/-- A house and its strands, one of which is watched. -/
structure Watch where
  house : House
  strand : Strand.State
  others : List Strand.State

namespace Watch

open Strand (step)

/-- All strands together. -/
def crowd (w : Watch) : Crowd := ⟨w.house, w.strand :: w.others⟩

/-- What can happen next: the strand goes on, or something happens in the crowd of the others. -/
inductive Goes (job : Link.JobId) : Watch → Watch → Prop
  | own {h h' : House} {t t' : Strand.State} (others : List Strand.State)
    (goes : Strand.Goes job h t h' t') : Goes job ⟨h, t, others⟩ ⟨h', t', others⟩
  | others {h h' : House} {others others' : List Strand.State} (t : Strand.State)
    (stride : Crowd.Stride ⟨h, others⟩ ⟨h', others'⟩) : Goes job ⟨h, t, others⟩ ⟨h', t, others'⟩

/-- What happens one after the other. -/
abbrev Reaches (job : Link.JobId) : Watch → Watch → Prop := Relation.ReflTransGen (Goes job)

/-- The strand has come to its end. -/
def Ended (w : Watch) : Prop := ∃ o, w.strand = ⟨[], .give o⟩

instance (w : Watch) : Decidable w.Ended :=
  match hw : w.strand with
  | ⟨[], .give o⟩ => .isTrue ⟨o, hw⟩
  | ⟨[], .call _⟩ | ⟨[], .pause _⟩ | ⟨_ :: _, _⟩ =>
    .isFalse fun ⟨_, ho⟩ => by cases hw.symm.trans ho

variable {job : Link.JobId} {w w' e : Watch}

theorem Goes.stride (hgoes : Goes job w w') : Crowd.Stride w.crowd w'.crowd := by
  cases hgoes with
  | own others hgoes => exact .goes [] others hgoes
  | others t hstride =>
    cases hstride with
    | goes before after hgoes => exact .goes (t :: before) after hgoes
    | come _ before after hfresh hproper => exact .come _ (t :: before) after hfresh hproper
    | go _ before after o => exact .go _ (t :: before) after o
    | other _ hsame hlater => exact .other (t :: _) hsame hlater

theorem Reaches.strides (run : Reaches job w e) :
    Relation.ReflTransGen Crowd.Stride w.crowd e.crowd := by
  induction run with
  | refl => exact .refl
  | tail _ hgoes ih => exact ih.tail hgoes.stride

/-- A strand that is to end takes the step that is before it. -/
theorem Reaches.begins {h : House} {t : Strand.State} {others : List Strand.State}
    (run : Reaches job ⟨h, t, others⟩ e) (ended : e.Ended) (going : ∀ o, t ≠ ⟨[], .give o⟩)
    (runs : ∀ p, t.doing ≠ .pause p) :
    ∃ h₁ others₁, Reaches job ⟨h, t, others⟩ ⟨h₁, t, others₁⟩ ∧
      Reaches job ⟨(step job h₁ t).2.1, (step job h₁ t).1, others₁⟩ e := by
  generalize hw : (⟨h, t, others⟩ : Watch) = w at run
  induction run using Relation.ReflTransGen.head_induction_on generalizing h others with
  | refl =>
    obtain ⟨o, ho⟩ := ended
    subst hw
    exact absurd ho (going o)
  | head hgoes hrest ih =>
    cases hgoes with
    | own others hgoes =>
      cases hw
      cases hgoes with
      | steps => exact ⟨h, others, .refl, hrest⟩
      | wakes => exact absurd rfl (runs _)
    | others t hstride =>
      cases hw
      obtain ⟨h₁, others₁, hbefore, hafter⟩ := ih rfl
      exact ⟨h₁, others₁, hbefore.head (.others t hstride), hafter⟩

/-- A strand that is to end comes back to each of its frames. -/
theorem Reaches.returns {f : Frame} {base : List Frame} (run : Reaches job w e) (ended : e.Ended)
    (above : ∃ fs, w.strand.frames = fs ++ f :: base) :
    ∃ h₁ o₁ others₁,
      let r := step job h₁ ⟨f :: base, .give o₁⟩
      Reaches job w ⟨r.2.1, r.1, others₁⟩ ∧ Reaches job ⟨r.2.1, r.1, others₁⟩ e := by
  induction run using Relation.ReflTransGen.head_induction_on with
  | refl =>
    obtain ⟨o, ho⟩ := ended
    obtain ⟨fs, hfs⟩ := above
    rw [ho] at hfs
    simp at hfs
  | @head w w' hgoes hrest ih =>
    have hcases : (∃ fs, w'.strand.frames = fs ++ f :: base) ∨ ∃ h₁ o₁,
        (step job h₁ ⟨f :: base, .give o₁⟩).2.1 = w'.house ∧
          (step job h₁ ⟨f :: base, .give o₁⟩).1 = w'.strand := by
      cases hgoes with
      | others t hstride => exact .inl above
      | own others hgoes => exact hgoes.above above
    rcases hcases with hlater | ⟨h₁, o₁, hhouse, hstrand⟩
    · obtain ⟨h₁, o₁, others₁, hbefore, hafter⟩ := ih hlater
      exact ⟨h₁, o₁, others₁, hbefore.head hgoes, hafter⟩
    · refine ⟨h₁, o₁, w'.others, ?_⟩
      dsimp only
      rw [hhouse, hstrand]
      exact ⟨.single hgoes, hrest⟩

/-- The strand goes on, and nothing else happens. -/
def advance (job : Link.JobId) (w : Watch) : Watch :=
  ⟨(step job w.house w.strand).2.1, (step job w.house w.strand).1, w.others⟩

theorem reaches_advance (job : Link.JobId) (n : Nat) (w : Watch) :
    Reaches job w ((advance job)^[n] w) := by
  induction n generalizing w with
  | zero => exact .refl
  | succ n ih => exact (ih (w.advance job)).head (.own w.others (.steps w.strand))

end Watch

end Hearth
