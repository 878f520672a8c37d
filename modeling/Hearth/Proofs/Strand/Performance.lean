import Hearth.Proofs.Strand.Course

/-!
# What a sequence does

A run of a sequence keeps two marks and a failure from step to step. Here the steps that run, the
failures that are handed to failure dispatch and the result are said without them, by the outcomes
of the steps alone: all steps of the system run, and those of the ordinary band up to the first
step that stops; the last failure is the result, and those before it were handed over in order.

## Main definitions

* `Strand.stops` : a step makes its sequence skip the ordinary steps after it.
* `Strand.failures` : the failures of the steps that ran.
* `Strand.Executes` : which steps of a sequence run, what is handed over, and what the result is.
* `Strand.Part`, `Strand.Performs` : the same of a sequence and of all sequences inside it, with
  the work of every step.

## Main results

* `Strand.Resumes.step` : what one step adds to a run.
* `Strand.Course.performs` : every course of a sequence is such a performance.
-/

namespace Hearth.Strand

/-- The steps of a sequence that ran: the number of each, and its outcome. -/
abbrev Ran := List (Nat × Outcome)

/-- Does a step with this outcome make its sequence skip the steps of the ordinary band after it? -/
def stops (b : Bands) (s : Sequence) (i : Nat) : Outcome → Bool
  | .ok .halt => true
  | .ok .done => s.conditional && (s.steps[i]?).any fun st => !b.isSystem st.priority
  | .ok .decline => false
  | .error _ => s.conditional

/-- The failure that the outcome of a step is to its sequence. -/
def failure? (s : Sequence) (x : Nat × Outcome) : Option Failure :=
  match x.2 with
  | .ok _ => none
  | .error e => some (stepFailure s x.1 e)

/-- The failures of the steps that ran, in the order in which they occurred. -/
def failures (s : Sequence) (ran : Ran) : List Failure := ran.filterMap (failure? s)

/-- The steps that a sequence runs, the failures that it hands over, and its result. -/
structure Executes (b : Bands) (s : Sequence) (ran : Ran) (handed : List Failure) (o : Outcome) :
    Prop where
  /-- The steps run in order, each once. -/
  ordered : (ran.map Prod.fst).Pairwise (· < ·)
  /-- These are the steps of the system, and those of the ordinary band that come no later than the
  first step that stops. -/
  executed (i : Nat) : i ∈ ran.map Prod.fst ↔ ∃ st, s.steps[i]? = some st ∧
    (b.isSystem st.priority = true ∨ ∀ x ∈ ran, x.1 < i → stops b s x.1 x.2 = false)
  /-- The result is the last failure, if there is any; otherwise the sequence is done. -/
  result : o = (failures s ran).getLast?.elim (.ok .done) fun f => .error (.work (.nested f))
  /-- All failures before the last are handed over. -/
  handed : handed = (failures s ran).dropLast

theorem runEnd_eq (f : Option Failure) :
    runEnd f = f.elim (.ok .done) fun f => .error (.work (.nested f)) := by
  cases f <;> rfl

theorem failures_cons (s : Sequence) (x : Nat × Outcome) (ran : Ran) :
    failures s (x :: ran) = (failure? s x).toList ++ failures s ran := by
  unfold failures
  rw [List.filterMap_cons]
  cases failure? s x <;> rfl

/-! ### Performances -/

/-- The failure that a sequence hands over when a step has ended: the one that it replaces. -/
def Ended.handed (e : Ended) : Option Failure := (account e.bands e.run e.outcome).2

/-- One step of a sequence that ran. -/
structure Part where
  /-- The house where it began. -/
  before : House
  /-- The steps that ended while it ran. -/
  inside : List Ended
  ended : Ended
  /-- The house where it ended. -/
  after : House

namespace Part

/-- The number of the step. -/
def index (p : Part) : Nat := p.ended.run.index

/-- The outcome of the step. -/
def outcome (p : Part) : Outcome := p.ended.outcome

/-- All steps that ended, in order. -/
def trace (parts : List Part) : List Ended := parts.flatMap fun p => p.inside ++ [p.ended]

/-- The steps of the sequence itself. -/
def ran (parts : List Part) : Ran := parts.map fun p => (p.index, p.outcome)

/-- The failures that were handed over. -/
def handed (parts : List Part) : List Failure := parts.filterMap (·.ended.handed)

theorem trace_cons (p : Part) (rest : List Part) :
    trace (p :: rest) = p.inside ++ p.ended :: trace rest := by
  simp [trace]

theorem handed_cons (p : Part) (rest : List Part) :
    handed (p :: rest) = p.ended.handed.toList ++ handed rest := by
  unfold handed
  rw [List.filterMap_cons]
  cases p.ended.handed <;> rfl

/-- A part is one of a sequence, and what happened in it is the work of the step. -/
structure Of (job : Link.JobId) (b : Bands) (depth : Nat) (s : Sequence) (p : Part) : Prop where
  depth_eq : p.ended.depth = depth
  bands_eq : p.ended.bands = b
  sequence_eq : p.ended.run.sequence = s
  deeper : ∀ e ∈ p.inside, depth < e.depth
  walk (st : Step) : s.steps[p.index]? = some st →
    StepWalk job b (depth + 1) s.event st p.before p.inside p.outcome p.after

end Part

/-- Every step begins in the house that the step before left, after the failure that was replaced
there, if any, was handed over. -/
inductive Linked : House → List Part → House → Prop where
  | nil (h : House) : Linked h [] h
  | cons {p : Part} {rest : List Part} {h' : House}
    (link : Linked (handOver p.ended.handed p.after) rest h') : Linked p.before (p :: rest) h'

/-- What a sequence does, and what the sequences inside it do, from the house where it begins to the
house where it ends. -/
inductive Performs (job : Link.JobId) (b : Bands) :
    Nat → Sequence → House → List Ended → Outcome → House → Prop where
  | intro {depth : Nat} {s : Sequence} {h h' : House} {o : Outcome} (parts : List Part)
    (linked : Linked h parts h') (ofParts : ∀ p ∈ parts, p.Of job b depth s)
    (nested : ∀ p ∈ parts, ∀ owner id conditional steps,
      s.steps[p.index]? = some (.nested owner id conditional steps) →
      Performs job b (depth + 1) (inner s id conditional steps) p.before p.inside p.outcome p.after)
    (executes : Executes b s (Part.ran parts) (Part.handed parts) o) :
    Performs job b depth s h (Part.trace parts) o h'

/-! ### Running from some point on -/

/-- What a sequence that has come to some point executes from there on. -/
structure Resumes (b : Bands) (run : Run) (ran : Ran) (handed : List Failure) (o : Outcome) :
    Prop where
  ordered : (ran.map Prod.fst).Pairwise (· < ·)
  later : ∀ i ∈ ran.map Prod.fst, run.index ≤ i
  executed (i : Nat) (hi : run.index ≤ i) : i ∈ ran.map Prod.fst ↔
    ∃ st, run.sequence.steps[i]? = some st ∧ (b.isSystem st.priority = true ∨
      run.skipping = false ∧ ∀ x ∈ ran, x.1 < i → stops b run.sequence x.1 x.2 = false)
  result : o = runEnd (run.pending.toList ++ failures run.sequence ran).getLast?
  handed : handed = (run.pending.toList ++ failures run.sequence ran).dropLast

/-- The ordinary steps are skipped once the event is claimed. -/
def Run.Sound (run : Run) : Prop := run.claimed = true → run.skipping = true

variable {job : Link.JobId} {b : Bands} {run : Run} {o o₁ : Outcome} {ran : Ran}
  {handed : List Failure}

theorem account_skipping (hs : Run.Sound run) : (account b run o).1.skipping =
    (run.skipping || stops b run.sequence run.index o) := by
  rcases o with e | (_ | _ | _)
  · rfl
  · cases hc : run.claimed with
    | true => simp [account, hc, hs hc]
    | false =>
      cases hst : run.sequence.steps[run.index]? with
      | none => simp [account, stops, hst]
      | some st =>
        simp only [account, stops, hc, hst, Option.all_some, Option.any_some, Bool.not_false,
          Bool.and_true]
        split
        · next hcond => simp [hcond]
        · next hcond => simp [Bool.not_eq_true _ ▸ hcond]
  · simp [account, stops]
  · simp [account, stops]

theorem account_sound (hs : Run.Sound run) : Run.Sound (account b run o).1 := by
  unfold Run.Sound account
  rcases o with e | (_ | _ | _)
  · intro hc
    simp [hs hc]
  · dsimp only
    split
    · simp
    · exact hs
  · exact hs
  · simp

theorem account_pending : (account b run o).1.pending =
    (failure? run.sequence (run.index, o)).or run.pending := by
  rcases o with e | (_ | _ | _)
  · rfl
  · simp only [account, failure?]
    split <;> rfl
  all_goals rfl

theorem account_older : (account b run o).2 =
    (failure? run.sequence (run.index, o)).bind fun _ => run.pending := by
  rcases o with e | (_ | _ | _)
  · rfl
  · simp only [account, failure?]
    split <;> rfl
  all_goals rfl

/-! ### One step more -/

theorem Resumes.finish
    (hn : nextStep b run.skipping (run.sequence.steps.drop run.index) run.index = none) :
    Resumes b run [] [] (runEnd run.pending) where
  ordered := .nil
  later := by simp
  executed i hi := by
    simp only [List.map_nil, List.not_mem_nil, false_iff]
    rintro ⟨st, hst, hrun⟩
    have hmem : st ∈ run.sequence.steps.drop run.index := by
      refine List.mem_of_getElem? (i := i - run.index) ?_
      rw [List.getElem?_drop, Nat.add_sub_cancel' hi, hst]
    obtain ⟨hskip, hord⟩ := nextStep_none hn st hmem
    rcases hrun with hsys | ⟨hskip', -⟩
    · simp [hord] at hsys
    · simp [hskip] at hskip'
  result := by cases run.pending <;> rfl
  handed := by cases run.pending <;> rfl

/-- The steps from some point on are the next one, and those from there on that run. -/
theorem Resumes.mem_step {i : Nat} {st : Step}
    (hn : nextStep b run.skipping (run.sequence.steps.drop run.index) run.index = some (i, st))
    (hs : Run.Sound run)
    (hr : Resumes b { (account b { run with index := i } o₁).1 with index := i + 1 } ran handed o)
    (j : Nat) (hj : run.index ≤ j) : j ∈ ((i, o₁) :: ran).map Prod.fst ↔
      ∃ st, run.sequence.steps[j]? = some st ∧ (b.isSystem st.priority = true ∨
        run.skipping = false ∧
          ∀ x ∈ (i, o₁) :: ran, x.1 < j → stops b run.sequence x.1 x.2 = false) := by
  obtain ⟨-, hst, hrun, hbefore⟩ := nextStep_drop hn
  have hskip : (account b { run with index := i } o₁).1.skipping =
      (run.skipping || stops b run.sequence i o₁) := account_skipping hs
  have hlater : ∀ j ∈ ran.map Prod.fst, i + 1 ≤ j := hr.later
  rcases Nat.lt_trichotomy j i with hlt | rfl | hgt
  · have hnot : j ∉ ((i, o₁) :: ran).map Prod.fst := by
      intro hm
      rcases List.mem_cons.mp hm with rfl | hm
      · omega
      · have := hlater j hm
        omega
    refine iff_of_false hnot ?_
    rintro ⟨st', hst', hrun'⟩
    obtain ⟨hskip', hord'⟩ := hbefore j st' hj hlt hst'
    simp [hskip', hord'] at hrun'
  · refine iff_of_true (by simp) ⟨st, hst, ?_⟩
    rcases hrun with hsys | hskip'
    · exact .inl hsys
    · refine .inr ⟨hskip', fun x hx hlt => ?_⟩
      rcases List.mem_cons.mp hx with rfl | hx
      · exact absurd hlt (Nat.lt_irrefl _)
      · have := hlater x.1 (List.mem_map_of_mem hx)
        omega
  · have hj' := hr.executed j hgt
    simp only [account_sequence, hskip, Bool.or_eq_false_iff, and_assoc] at hj'
    have hne : j ≠ i := by omega
    simp only [List.map_cons, List.mem_cons, forall_eq_or_imp, hj', hgt, hne, false_or,
      forall_const]

/-- A step that runs adds its outcome; what it replaces is handed over at once. -/
theorem Resumes.step {i : Nat} {st : Step}
    (hn : nextStep b run.skipping (run.sequence.steps.drop run.index) run.index = some (i, st))
    (hs : Run.Sound run)
    (hr : Resumes b { (account b { run with index := i } o₁).1 with index := i + 1 } ran handed o) :
    Resumes b run ((i, o₁) :: ran)
      ((account b { run with index := i } o₁).2.toList ++ handed) o := by
  have hpend : (account b { run with index := i } o₁).1.pending =
      (failure? run.sequence (i, o₁)).or run.pending := account_pending
  have holder : (account b { run with index := i } o₁).2 =
      (failure? run.sequence (i, o₁)).bind fun _ => run.pending := account_older
  have hle : run.index ≤ i := (nextStep_drop hn).1
  have hmem := Resumes.mem_step hn hs hr
  obtain ⟨hord, hlater, -, hres, hhand⟩ := hr
  simp only [account_sequence, hpend] at hlater hres hhand
  refine ⟨?_, ?_, hmem, ?_, ?_⟩
  · rw [List.map_cons, List.pairwise_cons]
    exact ⟨fun j hj => hlater j hj, hord⟩
  · intro j hj
    rcases List.mem_cons.mp hj with rfl | hj
    · exact hle
    · have := hlater j hj
      omega
  · rw [hres, failures_cons]
    cases failure? run.sequence (i, o₁) with
    | none => rfl
    | some f => simp [List.getLast?_append, List.getLast?_cons]
  · rw [hhand, holder, failures_cons]
    cases failure? run.sequence (i, o₁) with
    | none => rfl
    | some f => exact (List.dropLast_append_of_ne_nil (by simp)).symm

/-- From its beginning, a sequence executes what it resumes. -/
theorem Resumes.executes {s : Sequence} (hr : Resumes b (startRun s) ran handed o) :
    Executes b s ran handed o where
  ordered := hr.ordered
  executed i := by simpa [startRun] using hr.executed i (Nat.zero_le i)
  result := hr.result.trans (runEnd_eq _)
  handed := hr.handed

/-- A course is made of the parts of a sequence. -/
theorem Course.exists_parts {depth : Nat} {h h' : House} {tr : List Ended}
    (hc : Course job b depth run h tr o h') (hs : Run.Sound run) :
    ∃ parts, tr = Part.trace parts ∧ Linked h parts h' ∧
      (∀ p ∈ parts, p.Of job b depth run.sequence) ∧
      (∀ p ∈ parts, ∀ owner id conditional steps,
        run.sequence.steps[p.index]? = some (.nested owner id conditional steps) →
        Performs job b (depth + 1) (inner run.sequence id conditional steps)
          p.before p.inside p.outcome p.after) ∧
      Resumes b run (Part.ran parts) (Part.handed parts) o := by
  induction hc with
  | finish last => exact ⟨[], rfl, .nil _, by simp, by simp, .finish last⟩
  | @step depth i run st h h₁ h' sub tr o₁ o next walk deeper nested rest ihn ih =>
    have hs' : Run.Sound { run with index := i } := hs
    obtain ⟨parts, rfl, hl, hof, hn, hr⟩ := ih (account_sound hs')
    simp only [account_sequence] at hof hn
    have hst : run.sequence.steps[i]? = some st := (nextStep_drop next).2.1
    let part : Part := ⟨h, sub, ⟨depth, b, { run with index := i }, o₁⟩, h₁⟩
    refine ⟨part :: parts, ?_, Linked.cons (p := part) hl, ?_, ?_, ?_⟩
    · exact (Part.trace_cons part parts).symm
    · intro p hp
      rcases List.mem_cons.mp hp with rfl | hp
      · refine ⟨rfl, rfl, rfl, deeper, fun st' hst' => ?_⟩
        obtain rfl : st = st' := Option.some.inj (hst.symm.trans hst')
        exact walk
      · exact hof p hp
    · intro p hp owner id conditional steps hst'
      rcases List.mem_cons.mp hp with rfl | hp
      · obtain rfl : st = .nested owner id conditional steps :=
          Option.some.inj (hst.symm.trans hst')
        obtain ⟨inside, rfl, hl', hof', hn', hr'⟩ :=
          ihn owner id conditional steps rfl (fun hc => absurd hc (by simp [startRun]))
        exact .intro inside hl' hof' hn' hr'.executes
      · exact hn p hp owner id conditional steps hst'
    · rw [Part.handed_cons]
      exact hr.step next hs

/-- Every course of a sequence is a performance. -/
theorem Course.performs {depth : Nat} {s : Sequence} {h h' : House} {tr : List Ended}
    (hc : Course job b depth (startRun s) h tr o h') : Performs job b depth s h tr o h' := by
  obtain ⟨parts, rfl, hl, hof, hn, hr⟩ := hc.exists_parts fun hc => absurd hc (by simp [startRun])
  exact .intro parts hl hof hn hr.executes

end Hearth.Strand
