import Hearth.Proofs.Session.Alternatives
import Hearth.Proofs.Strand.Course

/-!
# Running an `if`

An `if` with its branches tests their conditions in order, up to the first one that holds or fails,
and runs the body that belongs to it, in its own scope; if no condition holds it runs the body of
`else`, if there is one. The strand does not pause between two conditions.

## Main definitions

* `Act.holds` : a condition without `not`.
* `Act.choose` : the first branch whose condition holds.
* `Choice.Ends` : how the run of a choice ends.

## Main results

* `Act.check_not`, `Act.check_of_ne` : what `not` does.
* `Strand.walk_choice` : the run of a choice.
* `Strand.choices` : which branches are taken, what they make together, and how that runs.
-/

namespace Hearth

namespace Act

/-- Tests the condition that words begin with; `not` is a word like any other here. -/
def holds (words : Name) : Act Bool := do
  if words.isEmpty then throw (.usage "if [not] condition…")
  match (← get).conditions.lookup (fun _ _ => true) words with
  | some (n, c) => c.check (words.drop n)
  | none => throw (.unknownWord words "conditions")

/-- Tests the conditions of branches in order, up to the first that holds or fails. -/
def choose (scope : ScopeId) : List Arm → Act (Option Arm)
  | [] => pure none
  | a :: rest => do
    if ← check (← params a.phrase scope) then pure (some a) else choose scope rest

/-- Tests the condition that words begin with, and compares. -/
def matching (want : Bool) (words : Name) : Act Bool := do
  if words.isEmpty then throw (.usage "if [not] condition…")
  match (← get).conditions.lookup (fun _ _ => true) words with
  | some (n, c) => return (← c.check (words.drop n)) == want
  | none => throw (.unknownWord words "conditions")

theorem matching_eq (want : Bool) (words : Name) :
    matching want words = do return (← holds words) == want := by
  funext h
  change (matching want words).runOn h = Act.runOn _ h
  rw [matching, holds]
  split
  · rfl
  · simp only [runOn_bind]
    have hget : (get : Act House).runOn h = (.ok h, h) := rfl
    rw [hget]
    dsimp only
    split
    · rw [runOn_bind]
    · rfl

/-- A condition behind `not` is the opposite of itself. -/
theorem check_not (words : Name) :
    check (.text "not" :: words) = do return !(← holds words) := by
  have hmatching : check (.text "not" :: words) = matching false words := rfl
  rw [hmatching, matching_eq]
  simp

/-- Without `not` it is itself. -/
theorem check_of_ne {words : Name} (h : words.head? ≠ some (.text "not")) :
    check words = holds words := by
  have hplain : ∀ rest, words = .text "not" :: rest → False := by
    rintro rest rfl
    exact h rfl
  have hmatching : check words = matching true words := check.eq_2 words hplain
  rw [hmatching, matching_eq]
  simp

end Act

namespace Strand

variable {job : Link.JobId} {base : List Frame} {scope : ScopeId} {h h' : House} {tr : List Ended}
  {o : Outcome}

/-! ### The first step of a call -/

theorem walk_give_iff {o₁ : Outcome} :
    Walk job base ⟨base, .give o₁⟩ h tr o h' ↔ tr = [] ∧ o = o₁ ∧ h' = h := by
  refine ⟨Walk.of_give, ?_⟩
  rintro ⟨rfl, rfl, rfl⟩
  exact .arrive o h'

theorem walk_call_iff {c : Call} : Walk job base ⟨base, .call c⟩ h tr o h' ↔
    Walk job base (step job h ⟨base, .call c⟩).1 (step job h ⟨base, .call c⟩).2.1 tr o h' := by
  refine ⟨Walk.of_call, fun hw => ?_⟩
  have hgoesOn : ¬ State.Arrived base ⟨base, .call c⟩ := by
    rintro ⟨-, o, ⟨⟩⟩
  have hstep := Walk.step hgoesOn (fun p => nofun) hw
  rwa [State.ending_call, List.nil_append] at hstep

theorem walk_statement_iff {s : Statement} :
    Walk job base ⟨base, .call (.statement s scope)⟩ h tr o h' ↔
      Walk job base (moveOn base ((run s scope).runOn h)).1
        (moveOn base ((run s scope).runOn h)).2 tr o h' := walk_call_iff

/-! ### Branches -/

/-- Tests the condition of a branch. -/
def testArm (scope : ScopeId) (a : Arm) : Act Bool := do
  Act.check (← Act.params a.phrase scope)

theorem choose_cons (a : Arm) (rest : List Arm) (h : House) :
    (Act.choose scope (a :: rest)).runOn h =
      match (testArm scope a).runOn h with
      | (.ok true, h) => (.ok (some a), h)
      | (.ok false, h) => (Act.choose scope rest).runOn h
      | (.error e, h) => (.error e, h) := by
  have hsplit : Act.choose scope (a :: rest) = testArm scope a >>= fun b =>
      if b then pure (some a) else Act.choose scope rest := by
    rw [Act.choose, testArm, bind_assoc]
  rw [hsplit, Act.runOn_bind]
  rcases (testArm scope a).runOn h with ⟨_ | _ | _, h₁⟩ <;> rfl

theorem run_branch (a : Arm) (orElse : Option Statement) (h : House) :
    (run (.branch a.phrase a.body orElse) scope).runOn h =
      match (testArm scope a).runOn h with
      | (.ok true, h) => (.ok (.call (.body a.body scope)), h)
      | (.ok false, h) =>
        match orElse with
        | some next => (.ok (.call (.statement next scope)), h)
        | none => (.ok .done, h)
      | (.error e, h) => (.error e, h) := by
  have hsplit : run (.branch a.phrase a.body orElse) scope = testArm scope a >>= fun b =>
      if b then pure (.call (.body a.body scope))
      else
        match orElse with
        | some next => pure (.call (.statement next scope))
        | none => pure .done := by
    rw [testArm, bind_assoc]
    rfl
  rw [hsplit, Act.runOn_bind]
  rcases (testArm scope a).runOn h with ⟨_ | _ | _, h₁⟩
  · rfl
  · cases orElse <;> rfl
  · rfl

/-- The run of one branch. -/
theorem walk_branch (a : Arm) (orElse : Option Statement) :
    Walk job base ⟨base, .call (.statement (.branch a.phrase a.body orElse) scope)⟩ h tr o h' ↔
      match (testArm scope a).runOn h, orElse with
      | (.error e, h₁), _ => tr = [] ∧ o = .error e ∧ h' = h₁
      | (.ok true, h₁), _ => Walk job base ⟨base, .call (.body a.body scope)⟩ h₁ tr o h'
      | (.ok false, h₁), some next =>
        Walk job base ⟨base, .call (.statement next scope)⟩ h₁ tr o h'
      | (.ok false, h₁), none => tr = [] ∧ o = .ok .done ∧ h' = h₁ := by
  rw [walk_statement_iff, run_branch]
  rcases (testArm scope a).runOn h with ⟨_ | _ | _, h₁⟩
  · exact walk_give_iff
  · cases orElse with
    | none => exact walk_give_iff
    | some next => exact Iff.rfl
  · exact Iff.rfl

/-- The body of `else` runs in the scope around it. -/
theorem walk_otherwise {e : Arm} (hdeed : e.phrase.verb.deed = .otherwise) :
    Walk job base ⟨base, .call (.statement (.group e.phrase e.body) scope)⟩ h tr o h' ↔
      Walk job base ⟨base, .call (.body e.body scope)⟩ h tr o h' := by
  have hrun : run (.group e.phrase e.body) scope = pure (.call (.body e.body scope)) := by
    rw [run.eq_def]
    dsimp only
    rw [hdeed]
  rw [walk_statement_iff, hrun]
  exact Iff.rfl

/-- How the run of a choice ends: with the error of a condition, as the body of the first branch
whose condition holds, as the body of `else`, or without doing anything. -/
def Ends (job : Link.JobId) (base : List Frame) (c : Choice) (scope : ScopeId) (h : House)
    (tr : List Ended) (o : Outcome) (h' : House) : Prop :=
  match (Act.choose scope c.arms).runOn h, c.orElse with
  | (.error e, h₁), _ => tr = [] ∧ o = .error e ∧ h' = h₁
  | (.ok (some a), h₁), _ => Walk job base ⟨base, .call (.body a.body scope)⟩ h₁ tr o h'
  | (.ok none, h₁), some e => Walk job base ⟨base, .call (.body e.body scope)⟩ h₁ tr o h'
  | (.ok none, h₁), none => tr = [] ∧ o = .ok .done ∧ h' = h₁

/-- The run of a choice. The induction is on the branches behind the first one. -/
theorem walk_choice (c : Choice) (horElse : ∀ e ∈ c.orElse, e.phrase.verb.deed = .otherwise) :
    Walk job base ⟨base, .call (.statement c.statement scope)⟩ h tr o h' ↔
      Ends job base c scope h tr o h' := by
  obtain ⟨first, more, orElse⟩ := c
  induction more generalizing first h with
  | nil =>
    rw [Choice.statement, walk_branch, Ends, Choice.arms, choose_cons]
    rcases (testArm scope first).runOn h with ⟨_ | _ | _, h₁⟩
    · exact Iff.rfl
    · cases orElse with
      | none => exact Iff.rfl
      | some e => exact walk_otherwise (horElse e rfl)
    · exact Iff.rfl
  | cons next more ih =>
    rw [Choice.statement, walk_branch, Ends, Choice.arms, choose_cons]
    rcases (testArm scope first).runOn h with ⟨_ | _ | _, h₁⟩
    · exact Iff.rfl
    · exact ih next horElse
    · exact Iff.rfl

/-- An `else if` or `else` with something to do that ends is attached to the last statement of the
block around it if that is an `if` whose branches have no `else` yet; otherwise it is refused, and
what the block has collected stays as it is. The branches that are attached one after another make
one choice, in their order. Its run tests their conditions in order, up to the first that holds or
fails, and ends as the one body that is chosen does. A `not` in front of a condition is the opposite
of that condition alone. -/
theorem choices (job : Link.JobId) :
    (∀ (s : Session) (parent : Statement) (rest : List Statement) (a : Alternative) (line : Nat)
      (h : House), s.blocks = a.statement :: parent :: rest →
        (∀ c : Choice, parent.last? = some c.statement → c.orElse = none →
          (s.act (.closed line)).runOn h =
            (.ok ({ s with blocks := parent.withLast (c.extend a).statement :: rest }, none), h)) ∧
        ((∀ c : Choice, parent.last? = some c.statement → c.orElse ≠ none) →
          (s.act (.closed line)).runOn h =
              (.error (a.arm.phrase.misfit (Statement.refusal parent.last?)), h) ∧
            (s.afterFailed (.closed line)).blocks = parent :: rest)) ∧
    (∀ (parent : Statement) (first : Arm) (more : List Alternative) (orElse : Option Alternative),
      parent.last? = some (.branch first.phrase first.body none) →
      (∀ a ∈ more, a.last = false) → (∀ a ∈ orElse, a.last = true) →
        ∃ parent', parent.attachAll (more ++ orElse.toList) = .ok parent' ∧ parent'.last? =
          some (Choice.statement ⟨first, more.map (·.arm), orElse.map (·.arm)⟩)) ∧
    (∀ (base : List Frame) (c : Choice) (scope : ScopeId) (h : House) (tr : List Ended)
      (o : Outcome) (h' : House), (∀ e ∈ c.orElse, e.phrase.verb.deed = .otherwise) →
        (Walk job base ⟨base, .call (.statement c.statement scope)⟩ h tr o h' ↔
          Ends job base c scope h tr o h')) ∧
    ∀ words : Name, (Act.check (.text "not" :: words) = do return !(← Act.holds words)) ∧
      (words.head? ≠ some (.text "not") → Act.check words = Act.holds words) := by
  refine ⟨?_, ?_, ?_, ?_⟩
  · intro s parent rest a line h hblocks
    rw [Session.act_closed_alternative a hblocks]
    constructor
    · intro c hlast hopen
      rw [Statement.attach_alternative hlast hopen]
    · intro hrefused
      rw [Statement.attach_refused hrefused, a.phrase_statement]
      refine ⟨rfl, ?_⟩
      rw [Session.afterFailed, hblocks]
      rfl
  · intro parent first more orElse hlast hmore horElse
    have hbare : parent.last? = some (Choice.statement ⟨first, [], none⟩) := hlast
    obtain ⟨parent', hall, hlast'⟩ := Statement.attachAll_eq hbare rfl hmore horElse
    exact ⟨parent', hall, hlast'⟩
  · intro base c scope h tr o h' horElse
    exact walk_choice c horElse
  · exact fun words => ⟨Act.check_not words, Act.check_of_ne⟩

end Strand

end Hearth
