import Hearth.Proofs.Strand.Walk

/-!
# The course of a sequence

A strand that runs a sequence runs one step after the other, each to its end, and takes the outcome
of every step before it looks for the next one. `Strand.Course` says that of a sequence and of all
sequences inside it; it speaks of nothing but the steps that ended.

## Main definitions

* `Strand.StepWalk`, `Strand.handOver` : what happens in a step, and between two steps.
* `Strand.Course` : the steps that a sequence runs, with those of the sequences inside it.
* `Step.Runs` : a worker is that of a step, or of a step inside it.

## Main results

* `Strand.step_ended` : what a strand does when a step of a sequence has ended.
* `Strand.Walk.course` : every walk of a strand through a sequence follows such a course.
* `Strand.terminates_goOn` : a sequence terminates if the work of each of its workers does.
-/

namespace Hearth

/-- A worker is that of a step, or of a step inside it. -/
inductive Step.Runs (w : Worker) : Step → Prop where
  | worker : Step.Runs w (.worker w)
  | nested {s : Step} {steps : List Step} (owner : Worker) (id : Nat) (conditional : Bool)
    (mem : s ∈ steps) (inside : Step.Runs w s) : Step.Runs w (.nested owner id conditional steps)

namespace Strand

/-! ### The next step -/

theorem nextStep_none {b : Bands} {skipping : Bool} {steps : List Step} {k : Nat}
    (h : nextStep b skipping steps k = none) :
    ∀ s ∈ steps, skipping = true ∧ b.isSystem s.priority = false := by
  induction steps generalizing k with
  | nil => simp
  | cons s rest ih =>
    unfold nextStep at h
    split at h
    · next hs =>
      have hs : skipping = true ∧ b.isSystem s.priority = false := by simpa using hs
      intro x hx
      rcases List.mem_cons.mp hx with rfl | hx
      · exact hs
      · exact ih h x hx
    · simp at h

/-- The next step is the first that is not skipped. -/
theorem nextStep_some {b : Bands} {skipping : Bool} {steps : List Step} {k i : Nat} {st : Step}
    (h : nextStep b skipping steps k = some (i, st)) :
    ∃ j, i = k + j ∧ steps[j]? = some st ∧
      (b.isSystem st.priority = true ∨ skipping = false) ∧
      ∀ m s, m < j → steps[m]? = some s → skipping = true ∧ b.isSystem s.priority = false := by
  induction steps generalizing k with
  | nil => simp [nextStep] at h
  | cons s rest ih =>
    unfold nextStep at h
    split at h
    · next hs =>
      have hs : skipping = true ∧ b.isSystem s.priority = false := by simpa using hs
      obtain ⟨j, rfl, hj, hrun, hbefore⟩ := ih h
      refine ⟨j + 1, by omega, by simpa using hj, hrun, ?_⟩
      intro m x hm hx
      cases m with
      | zero =>
        obtain rfl : s = x := by simpa using hx
        exact hs
      | succ m => exact hbefore m x (by omega) (by simpa using hx)
    · next hs =>
      obtain ⟨rfl, rfl⟩ : k = i ∧ s = st := by simpa using h
      refine ⟨0, rfl, rfl, ?_, by omega⟩
      by_cases hb : b.isSystem s.priority = true
      · exact .inl hb
      · exact .inr (by simpa [hb] using hs)

/-- The next step of a sequence from step `k` on. -/
theorem nextStep_drop {b : Bands} {skipping : Bool} {steps : List Step} {k i : Nat} {st : Step}
    (h : nextStep b skipping (steps.drop k) k = some (i, st)) :
    k ≤ i ∧ steps[i]? = some st ∧ (b.isSystem st.priority = true ∨ skipping = false) ∧
      ∀ j s, k ≤ j → j < i → steps[j]? = some s →
        skipping = true ∧ b.isSystem s.priority = false := by
  obtain ⟨m, rfl, hst, hrun, hbefore⟩ := nextStep_some h
  rw [List.getElem?_drop] at hst
  refine ⟨Nat.le_add_right k m, hst, hrun, fun j s hk hj hs => ?_⟩
  refine hbefore (j - k) s (by omega) ?_
  rw [List.getElem?_drop, Nat.add_sub_cancel' hk, hs]

/-! ### One step after the other -/

/-- The sequence of a composite worker that is a step of a sequence. -/
def inner (s : Sequence) (id : Nat) (conditional : Bool) (steps : List Step) : Sequence :=
  ⟨id, s.event, conditional, steps⟩

/-- The work of a step, from the house where it begins to the house where it ends. -/
def StepWalk (job : Link.JobId) (b : Bands) (depth : Nat) (e : Event) (st : Step) (h : House)
    (tr : List Ended) (o : Outcome) (h' : House) : Prop :=
  ∃ frames, frames.length = depth ∧ Walk job frames (moveOn frames ((runStep b e st).runOn h)).1
    (moveOn frames ((runStep b e st).runOn h)).2 tr o h'

/-- A failure that is replaced is handed to failure dispatch. -/
def handOver (older : Option Failure) (h : House) : House :=
  older.elim h fun failure => (h.dispatchFailure failure).1

/-- The steps that a sequence runs from some point on, those of the sequences inside it before
theirs, and the outcome. Every step begins in the house that the step before left, after the failure
that it replaced, if any, was handed over. -/
inductive Course (job : Link.JobId) (b : Bands) :
    Nat → Run → House → List Ended → Outcome → House → Prop where
  | finish {depth : Nat} {run : Run} {h : House}
    (last : nextStep b run.skipping (run.sequence.steps.drop run.index) run.index = none) :
    Course job b depth run h [] (runEnd run.pending) h
  | step {depth i : Nat} {run : Run} {st : Step} {h h₁ h' : House} {sub tr : List Ended}
    {o₁ o : Outcome}
    (next : nextStep b run.skipping (run.sequence.steps.drop run.index) run.index = some (i, st))
    (walk : StepWalk job b (depth + 1) run.sequence.event st h sub o₁ h₁)
    (deeper : ∀ e ∈ sub, depth < e.depth)
    (nested : ∀ owner id conditional steps, st = .nested owner id conditional steps →
      Course job b (depth + 1) (startRun (inner run.sequence id conditional steps)) h sub o₁ h₁)
    (rest : Course job b depth { (account b { run with index := i } o₁).1 with index := i + 1 }
      (handOver (account b { run with index := i } o₁).2 h₁) tr o h') :
    Course job b depth run h (sub ++ ⟨depth, b, { run with index := i }, o₁⟩ :: tr) o h'

variable {job : Link.JobId} {b : Bands} {base : List Frame} {run : Run} {h h' : House}
  {tr : List Ended} {o : Outcome}

theorem goOn_none
    (hn : nextStep b run.skipping (run.sequence.steps.drop run.index) run.index = none) :
    (goOn b run).runOn h = (.ok (.give (runEnd run.pending)), h) := by
  unfold goOn
  rw [hn]
  rfl

/-- An error of an action is caught and becomes the outcome of a call. -/
private theorem runOn_caught (a : Act Move) (h : House) (g : Move → Move) :
    (do
      let m ← tryCatch a fun e => pure (.give (.error e))
      pure (g m) : Act Move).runOn h =
      match a.runOn h with
      | (.ok m, h₁) => (.ok (g m), h₁)
      | (.error e, h₁) => (.ok (g (.give (.error e))), h₁) := by
  have hr : (do
      let m ← tryCatch a fun e => pure (.give (.error e))
      pure (g m) : Act Move).runOn h =
      match a h with
      | (.ok m, h₁) => (.ok (g m), h₁)
      | (.error e, h₁) => (.ok (g (.give (.error e))), h₁) := by
    simp only [Act.runOn, ExceptT.run, StateT.run, bind, ExceptT.bind, ExceptT.mk,
      ExceptT.bindCont, StateT.bind, tryCatch, tryCatchThe, MonadExceptOf.tryCatch,
      ExceptT.tryCatch, pure, ExceptT.pure]
    generalize a h = r
    obtain ⟨_ | _, _⟩ := r <;> rfl
  exact hr

/-- The next step runs under the frame of its sequence. -/
theorem moveOn_goOn {i : Nat} {st : Step}
    (hn : nextStep b run.skipping (run.sequence.steps.drop run.index) run.index = some (i, st)) :
    moveOn base ((goOn b run).runOn h) =
      moveOn (.step b { run with index := i } :: base)
        ((runStep b run.sequence.event st).runOn h) := by
  unfold goOn
  rw [hn]
  dsimp only
  rw [runOn_caught _ _ fun m => { m with frames := m.frames ++ [.step b { run with index := i }] }]
  rcases (runStep b run.sequence.event st).runOn h with ⟨e | m, h₁⟩
  · rfl
  · simp [moveOn]

theorem moveOn_nested (b : Bands) (e : Event) (owner : Worker) (id : Nat) (conditional : Bool)
    (steps : List Step) : moveOn base ((runStep b e (.nested owner id conditional steps)).runOn h) =
      (⟨base, .call (.nested b (startRun ⟨id, e, conditional, steps⟩))⟩, h) :=
  rfl

@[simp] theorem account_index (b : Bands) (run : Run) (o : Outcome) :
    (account b run o).1.index = run.index := by
  unfold account
  split
  · dsimp only
    split <;> rfl
  all_goals rfl

@[simp] theorem account_sequence (b : Bands) (run : Run) (o : Outcome) :
    (account b run o).1.sequence = run.sequence := by
  unfold account
  split
  · dsimp only
    split <;> rfl
  all_goals rfl

/-- After a step, its outcome is accounted for, a failure that is replaced is handed over, and the
sequence goes on. -/
theorem step_ended (job : Link.JobId) (h : House) (b : Bands) (run : Run) (base : List Frame)
    (o : Outcome) :
    ((step job h ⟨.step b run :: base, .give o⟩).1,
        (step job h ⟨.step b run :: base, .give o⟩).2.1) =
      moveOn base ((goOn b { (account b run o).1 with index := run.index + 1 }).runOn
        (handOver (account b run o).2 h)) := by
  rw [← account_index b run o]
  rfl

/-! ### Walks through a sequence -/

private theorem sizeOf_drop_le (steps : List Step) (k : Nat) :
    sizeOf (steps.drop k) ≤ sizeOf steps := by
  induction steps generalizing k with
  | nil => simp
  | cons s rest ih =>
    cases k with
    | zero => exact Nat.le_refl _
    | succ k =>
      have := ih k
      simp only [List.drop_succ_cons, List.cons.sizeOf_spec]
      omega

/-- The next step and what is left after it are smaller than what was left. -/
private theorem sizeOf_next {steps : List Step} {k i : Nat} {st : Step} {skipping : Bool}
    (hn : nextStep b skipping (steps.drop k) k = some (i, st)) :
    sizeOf st < sizeOf (steps.drop k) ∧
      sizeOf (steps.drop (i + 1)) < sizeOf (steps.drop k) := by
  obtain ⟨j, rfl, hj, -, -⟩ := nextStep_some hn
  obtain ⟨hlt, rfl⟩ := List.getElem?_eq_some_iff.mp hj
  have hle := sizeOf_drop_le (steps.drop k) j
  rw [List.drop_eq_getElem_cons hlt, List.cons.sizeOf_spec, List.drop_drop, ← Nat.add_assoc] at hle
  constructor <;> omega

/-- A call that has come to its end goes nowhere. -/
theorem Walk.of_give {o₁ : Outcome} (hw : Walk job base ⟨base, .give o₁⟩ h tr o h') :
    tr = [] ∧ o = o₁ ∧ h' = h := by
  cases hw with
  | arrive => exact ⟨rfl, rfl, rfl⟩
  | step goesOn _ _ => exact absurd ⟨rfl, o₁, rfl⟩ goesOn

/-- After its step has ended, a sequence accounts for the outcome and goes on. -/
theorem Walk.of_ended {o₁ : Outcome}
    (hw : Walk job base ⟨.step b run :: base, .give o₁⟩ h tr o h') :
    ∃ rest, tr = ⟨base.length, b, run, o₁⟩ :: rest ∧
      Walk job base
        (moveOn base ((goOn b { (account b run o₁).1 with index := run.index + 1 }).runOn
          (handOver (account b run o₁).2 h))).1
        (moveOn base ((goOn b { (account b run o₁).1 with index := run.index + 1 }).runOn
          (handOver (account b run o₁).2 h))).2 rest o h' := by
  generalize ht : (⟨.step b run :: base, .give o₁⟩ : State) = t at hw
  cases hw with
  | arrive o =>
    exact absurd (ht ▸ ⟨rfl, o, rfl⟩) (not_arrived_above base [] (.step b run) (.give o₁))
  | @step _ _ _ rest _ _ _ hrest =>
    subst ht
    refine ⟨rest, rfl, ?_⟩
    rw [← step_ended job h b run base o₁]
    exact hrest
  | pause => simp at ht

/-- A call begins with its first step. -/
theorem Walk.of_call {c : Call} (hw : Walk job base ⟨base, .call c⟩ h tr o h') :
    Walk job base (Strand.step job h ⟨base, .call c⟩).1 (Strand.step job h ⟨base, .call c⟩).2.1
      tr o h' := by
  cases hw with
  | step _ _ rest =>
    rw [State.ending_call, List.nil_append]
    exact rest

/-- Every walk of a strand through a sequence follows a course. -/
theorem Walk.course (hw : Walk job base (moveOn base ((goOn b run).runOn h)).1
    (moveOn base ((goOn b run).runOn h)).2 tr o h') : Course job b base.length run h tr o h' := by
  generalize hsize : sizeOf (run.sequence.steps.drop run.index) = n
  induction n using Nat.strongRecOn generalizing base run h tr o h' with
  | ind n ih =>
    cases hn : nextStep b run.skipping (run.sequence.steps.drop run.index) run.index with
    | none =>
      rw [goOn_none hn] at hw
      obtain ⟨rfl, rfl, rfl⟩ := hw.of_give
      exact .finish hn
    | some next =>
      obtain ⟨i, st⟩ := next
      obtain ⟨hst, hrest⟩ := sizeOf_next hn
      rw [moveOn_goOn hn] at hw
      obtain ⟨m, h₁, hm⟩ := exists_moveOn h (runStep b run.sequence.event st)
      have hm := hm (.step b { run with index := i } :: base)
      obtain ⟨sub, o₁, h₂, tr', hsub, hend, rfl⟩ := hw.split (congrArg Prod.fst hm)
      obtain ⟨rest, rfl, hw'⟩ := hend.of_ended
      refine .step hn ⟨_, rfl, hsub⟩ ?_ ?_ (ih _ ?_ hw' rfl)
      · exact hsub.depth_le ⟨m.frames, by rw [hm]⟩
      · rintro owner id conditional steps rfl
        refine ih _ ?_ hsub.of_call rfl
        simp only [startRun, List.drop_zero]
        simp at hst
        omega
      · simpa [← hsize] using hrest

/-! ### The end of a sequence -/

/-- A call terminates if its first step leads to where the strand does. -/
theorem Terminates.of_call {c : Call}
    (ht : Terminates job base (Strand.step job h ⟨base, .call c⟩).1
      (Strand.step job h ⟨base, .call c⟩).2.1) : Terminates job base ⟨base, .call c⟩ h :=
  .step (by simp [State.Arrived]) (by simp) ht

/-- The work of a worker on an event terminates, in whatever house and under whatever frames. -/
def WorkEnds (job : Link.JobId) (e : Event) (w : Worker) : Prop :=
  ∀ frames h, Terminates job frames (moveOn frames ((process e w).runOn h)).1
    (moveOn frames ((process e w).runOn h)).2

/-- A probe that raises nothing ends at once. -/
theorem workEnds_probe (job : Link.JobId) (e : Event) {p : ProbeWorker} (hq : p.raises = none) :
    WorkEnds job e (.probe p) := by
  intro frames h
  have hm : moveOn frames ((process e (.probe p)).runOn h) =
      (⟨frames, .give (probeEnd p)⟩, h.note (.worked p.name e.name)) := by
    simp only [process, hq]
    rfl
  rw [hm]
  exact .arrived _ _

/-- A sequence terminates if the work of each of its workers does. -/
theorem terminates_goOn
    (hw : ∀ st ∈ run.sequence.steps, ∀ w, st.Runs w → WorkEnds job run.sequence.event w) :
    Terminates job base (moveOn base ((goOn b run).runOn h)).1
      (moveOn base ((goOn b run).runOn h)).2 := by
  generalize hsize : sizeOf (run.sequence.steps.drop run.index) = n
  induction n using Nat.strongRecOn generalizing base run h with
  | ind n ih =>
    cases hn : nextStep b run.skipping (run.sequence.steps.drop run.index) run.index with
    | none =>
      rw [goOn_none hn]
      exact .arrived _ h
    | some next =>
      obtain ⟨i, st⟩ := next
      obtain ⟨hst, hrest⟩ := sizeOf_next hn
      have hmem : st ∈ run.sequence.steps := List.mem_of_getElem? (nextStep_drop hn).2.1
      rw [moveOn_goOn hn]
      obtain ⟨m, h₁, hm⟩ := exists_moveOn h (runStep b run.sequence.event st)
      have hm := hm (.step b { run with index := i } :: base)
      refine Terminates.under (f := .step b { run with index := i }) ?_ ⟨m.frames, by rw [hm]⟩ ?_
      · cases st with
        | worker w => exact hw _ hmem w .worker _ h
        | nested owner id conditional steps =>
          rw [moveOn_nested]
          refine .of_call (ih _ ?_ ?_ rfl)
          · simp only [startRun, List.drop_zero]
            simp at hst
            omega
          · intro st hst w hr
            exact hw _ hmem w (.nested owner id conditional hst hr)
      · intro o h₂
        refine .step (not_arrived_above base [] _ _) (by simp) ?_
        obtain ⟨hs₁, hs₂⟩ := Prod.mk.inj (step_ended job h₂ b { run with index := i } base o)
        rw [hs₁, hs₂]
        refine ih _ ?_ ?_ rfl
        · simpa [← hsize] using hrest
        · simpa using hw

end Strand

end Hearth
