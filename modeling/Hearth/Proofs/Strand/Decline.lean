import Mathlib.Data.List.Sort
import Hearth.Proofs.Strand.Performance

/-!
# Steps that decline

A step that declines leaves no trace in its sequence. Two sequences are compared here: one of them
has all steps of the other but one, and where both run a step, it comes to the same end in both, up
to the descriptions that a failure collects on its way. If the step that only one of them has
declines, then both run the same other steps, with the same root errors.

## Main definitions

* `Strand.face` : an outcome, with the root error in place of the failure.
* `Strand.beyond` : the number of a step in the sequence that has one step more.

## Main results

* `Strand.Executes.face_eq` : the result of a sequence is its last root error.
* `Strand.Executes.faces_of_decline`, `Strand.Executes.result_of_decline` : without a step that
  declines the others run as before, and the root errors are the same.
-/

namespace Hearth.Strand

/-- An outcome as far as others can tell: how the call ended, or the root of its error. -/
def face (o : Outcome) : Except WorkError Flow :=
  o.mapError fun e => (Failure.ofError e.toWork).root.error

/-- The error in the face of an outcome. -/
def rootError? : Except WorkError Flow → Option WorkError
  | .ok _ => none
  | .error e => some e

/-- The number of a step in the sequence that has one more step, at `k`. -/
def beyond (k i : Nat) : Nat := if i < k then i else i + 1

variable {b : Bands} {s s' : Sequence} {ran ran' : Ran} {handed handed' : List Failure}
  {o o' : Outcome} {k : Nat}

/-! ### Root errors -/

theorem root_error_inside (e : WorkError) (report : List String) :
    ((Failure.ofError e).inside report).root.error = (Failure.ofError e).root.error := by
  simp only [Failure.ofError, Failure.inside, Failure.root]
  cases e.root? <;> rfl

theorem root_error_failure? (s : Sequence) (x : Nat × Outcome) :
    (failure? s x).map (·.root.error) = rootError? (face x.2) := by
  obtain ⟨i, e | f⟩ := x
  · exact congrArg some (root_error_inside e.toWork _)
  · rfl

/-- The root errors of the steps that ran are in the faces of their outcomes. -/
theorem root_error_failures (s : Sequence) (ran : Ran) :
    (failures s ran).map (·.root.error) = (ran.map fun x => face x.2).filterMap rootError? := by
  induction ran with
  | nil => rfl
  | cons x rest ih =>
    rw [failures_cons, List.map_append, ih, List.map_cons, List.filterMap_cons,
      ← root_error_failure? s x]
    cases failure? s x <;> rfl

theorem face_runEnd (f : Option Failure) :
    face (runEnd f) = (f.map (·.root.error)).elim (.ok .done) .error := by
  cases f with
  | none => rfl
  | some f => rfl

/-- The result of a sequence is the last root error of its steps, if there is any. -/
theorem Executes.face_eq (hx : Executes b s ran handed o) :
    face o = (((ran.map fun x => face x.2).filterMap rootError?).getLast?).elim
      (.ok .done) .error := by
  rw [hx.result, ← runEnd_eq, face_runEnd, ← List.getLast?_map, root_error_failures]

/-- The root errors of the failures that were handed over. -/
theorem Executes.root_error_handed (hx : Executes b s ran handed o) :
    handed.map (·.root.error) = ((ran.map fun x => face x.2).filterMap rootError?).dropLast := by
  rw [hx.handed, List.map_dropLast, root_error_failures]

/-! ### One step less -/

/-- A sequence has the steps of another one, by their priorities, but for step `k`. If there is no
such step, it has all of them: what holds of a sequence that lacks a step then holds of one whose
steps only come to their ends in another way. -/
structure Lacks (k : Nat) (s s' : Sequence) : Prop where
  conditional_eq : s'.conditional = s.conditional
  priorities : s'.steps.map Step.priority = (s.steps.map Step.priority).eraseIdx k

theorem Lacks.getElem? (hl : Lacks k s s') (i : Nat) :
    (s'.steps[i]?).map Step.priority = (s.steps[beyond k i]?).map Step.priority := by
  rw [← List.getElem?_map, hl.priorities, List.getElem?_eraseIdx, ← List.getElem?_map]
  unfold beyond
  split <;> rfl

/-- Whether a step stops depends on its priority and on the face of its outcome alone. -/
theorem Lacks.stops_eq (hl : Lacks k s s') {i : Nat} (hf : face o' = face o) :
    stops b s' i o' = stops b s (beyond k i) o := by
  have hany : (s'.steps[i]?).any (fun st => !b.isSystem st.priority) =
      (s.steps[beyond k i]?).any fun st => !b.isSystem st.priority := by
    have hp := congrArg (Option.any fun p => !b.isSystem p) (hl.getElem? i)
    simpa only [Option.any_map, Function.comp_def] using hp
  rcases o with e | f <;> rcases o' with e' | f'
  · exact hl.conditional_eq
  · cases hf
  · cases hf
  · obtain rfl : f' = f := Except.ok.inj hf
    cases f' with
    | done => simp only [stops, hany, hl.conditional_eq]
    | decline => rfl
    | halt => rfl

theorem beyond_lt {i j : Nat} : beyond k i < beyond k j ↔ i < j := by
  unfold beyond
  split <;> split <;> omega

theorem beyond_ne (i : Nat) : beyond k i ≠ k := by
  unfold beyond
  split <;> omega

theorem exists_beyond {i : Nat} (hi : i ≠ k) : ∃ j, beyond k j = i := by
  by_cases hlt : i < k
  · exact ⟨i, if_pos hlt⟩
  · refine ⟨i - 1, ?_⟩
    unfold beyond
    split <;> omega

theorem map_eq_map_of_map_eq {α β γ δ : Type} {l : List α} {m : List β} {f : α → γ} {g : β → γ}
    {p : α → δ} {q : β → δ} (hm : l.map f = m.map g)
    (h : ∀ x ∈ l, ∀ y ∈ m, f x = g y → p x = q y) : l.map p = m.map q := by
  induction l generalizing m with
  | nil =>
    obtain rfl := List.map_eq_nil_iff.mp hm.symm
    rfl
  | cons x l ih =>
    obtain ⟨y, m, rfl, hy, hm⟩ := List.map_eq_cons_iff.mp hm.symm
    rw [List.map_cons, List.map_cons, h x (by simp) y (by simp) hy.symm]
    rw [ih hm.symm fun x hx y hy => h x (List.mem_cons_of_mem _ hx) y (List.mem_cons_of_mem _ hy)]

section Comparison

variable (hl : Lacks k s s') (hx : Executes b s ran handed o) (hx' : Executes b s' ran' handed' o')
  (hdecline : ∀ o, (k, o) ∈ ran → o = .ok .decline)
  (hface : ∀ i o o', (beyond k i, o) ∈ ran → (i, o') ∈ ran' → face o' = face o)

include hl hx hx' hdecline hface

/-- The other steps run in both sequences or in none. -/
theorem Executes.mem_of_decline (i : Nat) :
    i ∈ ran'.map Prod.fst ↔ beyond k i ∈ ran.map Prod.fst := by
  induction i using Nat.strongRecOn with
  | ind i ih =>
    have hstops : (∀ x ∈ ran', x.1 < i → stops b s' x.1 x.2 = false) ↔
        ∀ x ∈ ran, x.1 < beyond k i → stops b s x.1 x.2 = false := by
      constructor
      · intro hno x hx hlt
        by_cases hk : x.1 = k
        · obtain ⟨j, o⟩ := x
          obtain rfl : j = k := hk
          rw [hdecline o hx]
          rfl
        · obtain ⟨j, hj⟩ := exists_beyond hk
          rw [← hj, beyond_lt] at hlt
          obtain ⟨x', hx', rfl⟩ := List.mem_map.mp
            ((ih j hlt).mpr (hj ▸ List.mem_map_of_mem hx))
          rw [← hj, ← hl.stops_eq (hface x'.1 x.2 x'.2 (hj ▸ hx) hx')]
          exact hno x' hx' hlt
      · intro hno x' hx' hlt
        obtain ⟨x, hx, hj⟩ := List.mem_map.mp ((ih x'.1 hlt).mp (List.mem_map_of_mem hx'))
        rw [hl.stops_eq (hface x'.1 x.2 x'.2 (hj ▸ hx) hx'), ← hj]
        exact hno x hx (by rw [hj, beyond_lt]; exact hlt)
    rw [hx'.executed, hx.executed, hstops]
    have hp := hl.getElem? i
    constructor
    · rintro ⟨st', hst', hrun⟩
      rw [hst', Option.map_some] at hp
      obtain ⟨st, hst, hpri⟩ := Option.map_eq_some_iff.mp hp.symm
      exact ⟨st, hst, hpri ▸ hrun⟩
    · rintro ⟨st, hst, hrun⟩
      rw [hst, Option.map_some] at hp
      obtain ⟨st', hst', hpri⟩ := Option.map_eq_some_iff.mp hp
      exact ⟨st', hst', hpri ▸ hrun⟩

/-- The other steps that run, in order, and the faces of their outcomes, are the same in both. -/
theorem Executes.faces_of_decline : ran'.map (fun x => (beyond k x.1, face x.2)) =
    (ran.filter fun x => x.1 ≠ k).map fun x => (x.1, face x.2) := by
  have hmem := Executes.mem_of_decline hl hx hx' hdecline hface
  have hindex : ran'.map (fun x => beyond k x.1) = (ran.filter fun x => x.1 ≠ k).map Prod.fst := by
    refine List.Pairwise.eq_of_mem_iff (r := (· < ·)) ?_ ?_ fun i => ?_
    · rw [List.pairwise_map]
      exact (List.pairwise_map.mp hx'.ordered).imp fun hlt => beyond_lt.mpr hlt
    · rw [List.pairwise_map]
      exact (List.pairwise_map.mp hx.ordered).filter _
    · constructor
      · intro hi
        obtain ⟨x', hx', rfl⟩ := List.mem_map.mp hi
        obtain ⟨x, hx, hj⟩ := List.mem_map.mp ((hmem x'.1).mp (List.mem_map_of_mem hx'))
        rw [← hj]
        refine List.mem_map_of_mem (List.mem_filter.mpr ⟨hx, ?_⟩)
        simp [hj, beyond_ne]
      · intro hi
        obtain ⟨x, hx, rfl⟩ := List.mem_map.mp hi
        obtain ⟨hx, hk⟩ := List.mem_filter.mp hx
        obtain ⟨j, hj⟩ := exists_beyond (by simpa using hk)
        obtain ⟨x', hx', rfl⟩ := List.mem_map.mp ((hmem j).mpr (hj ▸ List.mem_map_of_mem hx))
        exact List.mem_map.mpr ⟨x', hx', hj⟩
  refine map_eq_map_of_map_eq hindex fun x' hx' x hx hi => ?_
  have hx := (List.mem_filter.mp hx).1
  exact Prod.ext hi (hface x'.1 x.2 x'.2 (hi ▸ hx) hx')

omit hl hx hx' hface in
/-- The step that declines has no root error. -/
theorem rootErrors_filter :
    ((ran.filter fun x => x.1 ≠ k).map fun x => face x.2).filterMap rootError? =
      (ran.map fun x => face x.2).filterMap rootError? := by
  induction ran with
  | nil => rfl
  | cons x rest ih =>
    have ih := ih fun o ho => hdecline o (List.mem_cons_of_mem _ ho)
    by_cases hk : x.1 = k
    · obtain ⟨j, o⟩ := x
      obtain rfl : j = k := hk
      rw [List.filter_cons_of_neg (by simp), ih, hdecline o (by simp)]
      rfl
    · rw [List.filter_cons_of_pos (by simpa using hk), List.map_cons, List.map_cons,
        List.filterMap_cons, List.filterMap_cons, ih]

theorem Executes.rootErrors_of_decline : (ran'.map fun x => face x.2).filterMap rootError? =
    (ran.map fun x => face x.2).filterMap rootError? := by
  have hfaces := congrArg (List.map Prod.snd)
    (Executes.faces_of_decline hl hx hx' hdecline hface)
  simp only [List.map_map, Function.comp_def] at hfaces
  rw [hfaces, rootErrors_filter hdecline]

/-- The root error of the result, and those that were handed over, are the same in both. -/
theorem Executes.result_of_decline : face o' = face o ∧
    handed'.map (·.root.error) = handed.map (·.root.error) := by
  have hroots := Executes.rootErrors_of_decline hl hx hx' hdecline hface
  rw [hx.face_eq, hx'.face_eq, hx.root_error_handed, hx'.root_error_handed, hroots]
  exact ⟨rfl, rfl⟩

end Comparison

end Hearth.Strand
