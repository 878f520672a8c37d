import Hearth.Proofs.Session.Phrases
import Hearth.Proofs.Strand.Texts

/-!
# The statement that a run fails with

A statement that fails does so by itself, or because of a statement inside it: one of the block that
it runs, or the next branch of an `if`. The blocks that the strand is in the middle of then are
frames on its stack, and the innermost one gives the error the line of its statement. The branches
of an `if` are run one after the other without a frame, so they all get the line of the first one.

## Main definitions

* `Statement.branches` : an `if` with its later branches.
* `Strand.Alone` : a statement that runs fails by itself.
* `Strand.FailsAt` : a strand comes to a statement that fails by itself.
* `Strand.Culprit` : where in a statement that is.

## Main results

* `Strand.owed_statement`, `Strand.owed_body` : a statement fails, and a block, because of a
  statement that fails by itself.
* `Strand.FailsAt.walk`, `Strand.escaped_atLineOnce` : the error that comes of that, and its line.
-/

namespace Hearth

/-- An `if` with its later branches; any other statement alone. -/
def Statement.branches : Statement → List Statement
  | .branch p body (some next) => .branch p body (some next) :: branches next
  | s => [s]

theorem Statement.self_mem_branches (s : Statement) : s ∈ s.branches := by
  unfold branches
  split
  · exact List.mem_cons_self
  · exact List.mem_cons_self

/-- The later branches have no phrases of their own. -/
theorem Statement.phrases_subset_of_branches : (y : Statement) → {x : Statement} →
    x ∈ y.branches → x.phrases ⊆ y.phrases
  | .branch p body (some next), x, hx => by
    rw [branches] at hx
    rcases List.mem_cons.mp hx with rfl | hx
    · exact List.Subset.refl _
    · intro q hq
      exact List.mem_cons_of_mem _
        (List.mem_append_right _ (phrases_subset_of_branches next hx hq))
  | .branch _ _ none, _, hx | .plain _, _, hx | .group .., _, hx | .handler .., _, hx
  | .wait .., _, hx | .connect .., _, hx | .collect .., _, hx => by
    obtain rfl := List.mem_singleton.mp hx
    exact List.Subset.refl _

namespace Strand

/-- Does a statement work by calls of its own, other than of statements? -/
def callsOut : Statement → Bool
  | .plain _ | .wait .. => true
  | _ => false

/-- A statement that runs fails by itself: at once, unless it works by calls of its own. -/
def Alone (job : Link.JobId) (base : List Frame) (x : Statement) (scope : ScopeId) (h : House)
    (cause : ScriptError) (h' : House) : Prop :=
  if callsOut x then ∃ tr, Walk job base ⟨base, .call (.statement x scope)⟩ h tr (.error cause) h'
  else (run x scope).runOn h = (.error cause, h')

/-- A strand comes from a state to a statement that fails by itself, with some blocks on the stack
that it is in the middle of, the innermost first. -/
def FailsAt (job : Link.JobId) (base : List Frame) (t : State) (h : House) (blocks : List Block)
    (x : Statement) (cause : ScriptError) : Prop :=
  ∃ tr scope h₁ h₂,
    Leads job base t h tr ⟨blocks.map Block.frame ++ base, .call (.statement x scope)⟩ h₁ ∧
      Alone job (blocks.map Block.frame ++ base) x scope h₁ cause h₂

/-- What an error is when it has come down some blocks. -/
def escaped (blocks : List Block) (cause : ScriptError) : ScriptError :=
  (blocks.map Block.frame).foldl Frame.pass cause

/-- Where in a statement the one is that fails by itself: it is a branch of the statement that the
innermost block is at, or of the whole statement if no block runs. -/
structure Culprit (s : Statement) (blocks : List Block) (x y : Statement) : Prop where
  branch : x ∈ y.branches
  inside : y.phrases ⊆ s.phrases
  place : blocks = [] ∧ y = s ∨ blocks.head?.map Block.line = some y.phrase.line

section

variable (blocks : List Block) (b : Block) (cause : ScriptError) (line : Nat)

theorem escaped_concat :
    escaped (blocks ++ [b]) cause = (escaped blocks cause).atLineOnce b.line := by
  rw [escaped, List.map_append, List.foldl_append]
  rfl

/-- The innermost block gives an error its line. -/
theorem escaped_atLineOnce : (escaped blocks cause).atLineOnce line =
    cause.atLineOnce ((blocks.map Block.line).headD line) := by
  cases blocks with
  | nil => rfl
  | cons b blocks =>
    rw [escaped, List.map_cons, List.foldl_cons]
    exact (congrArg (·.atLineOnce line) (Level.foldl_around blocks cause b.line)).trans
      (cause.atLineOnce_twice ..)

end

namespace Culprit

variable {s s' x y : Statement} {blocks : List Block} {b : Block} {body : Body}

/-- A statement that fails by itself. -/
theorem self (s : Statement) : Culprit s [] s s :=
  ⟨s.self_mem_branches, List.Subset.refl _, .inl ⟨rfl, rfl⟩⟩

/-- One more block is at the statement. -/
theorem inside_block (hc : Culprit s blocks x y) (hb : b.line = s.phrase.line)
    (hs : s ∈ body) (hbody : Statement.phrasesAll body ⊆ s'.phrases) :
    Culprit s' (blocks ++ [b]) x y := by
  refine ⟨hc.branch, fun p hp => hbody ?_, .inr ?_⟩
  · exact Statement.mem_phrasesAll.mpr ⟨s, hs, hc.inside hp⟩
  · rcases hc.place with ⟨rfl, rfl⟩ | hline
    · exact congrArg some hb
    · rw [List.head?_append]
      cases blocks with
      | nil => cases hline
      | cons => exact hline

/-- The statement is the next branch of an `if`. -/
theorem next {p : Phrase} (hc : Culprit s blocks x y) :
    ∃ y', Culprit (.branch p body (some s)) blocks x y' := by
  have hinside : s.phrases ⊆ (Statement.branch p body (some s)).phrases := fun q hq =>
    List.mem_cons_of_mem _ (List.mem_append_right _ hq)
  rcases hc.place with ⟨hnone, rfl⟩ | hline
  · refine ⟨.branch p body (some y), ?_, List.Subset.refl _, .inl ⟨hnone, rfl⟩⟩
    exact List.mem_cons_of_mem _ hc.branch
  · exact ⟨y, hc.branch, fun q hq => hinside (hc.inside hq), .inr hline⟩

theorem headD_line (hc : Culprit s blocks x y) :
    (blocks.map Block.line).headD s.phrase.line = y.phrase.line := by
  rcases hc.place with ⟨rfl, rfl⟩ | hline
  · rfl
  · cases blocks with
    | nil => cases hline
    | cons b blocks => exact Option.some.inj hline

end Culprit

variable {job : Link.JobId} {base : List Frame} {x : Statement} {scope : ScopeId} {t t₁ : State}
  {h h₁ h' : House} {tr : List Ended} {e cause : ScriptError} {blocks : List Block}

theorem Alone.walk (ha : Alone job base x scope h cause h') :
    ∃ tr, Walk job base ⟨base, .call (.statement x scope)⟩ h tr (.error cause) h' := by
  unfold Alone at ha
  split at ha
  · exact ha
  · refine ⟨[], walk_statement_iff.mpr ?_⟩
    rw [ha]
    exact .arrive ..

namespace FailsAt

/-- It comes there from where it came from before. -/
theorem after (hl : Leads job base t h tr t₁ h₁) (hf : FailsAt job base t₁ h₁ blocks x cause) :
    FailsAt job base t h blocks x cause := by
  obtain ⟨tr', scope, h₂, h₃, hleads, halone⟩ := hf
  exact ⟨_, scope, h₂, h₃, hl.trans hleads, halone⟩

/-- A block that a strand is in the middle of is one more around the others. -/
theorem inside {b : Block} {c : Call}
    (hf : FailsAt job (b.frame :: base) ⟨b.frame :: base, .call c⟩ h blocks x cause) :
    FailsAt job base ⟨b.frame :: base, .call c⟩ h (blocks ++ [b]) x cause := by
  obtain ⟨tr, scope, h₁, h₂, hleads, halone⟩ := hf
  refine ⟨tr, scope, h₁, h₂, ?_, ?_⟩
  · rw [List.map_append, List.append_assoc]
    exact hleads.above ⟨[], rfl⟩
  · rw [List.map_append, List.append_assoc]
    exact halone

end FailsAt

/-! ### Errors come down -/

/-- An error comes down the blocks that a strand is in the middle of. -/
theorem walk_escaped (blocks : List Block) (base : List Frame) (cause : ScriptError) (h : House) :
    Walk job base ⟨blocks.map Block.frame ++ base, .give (.error cause)⟩ h []
      (.error (escaped blocks cause)) h := by
  induction blocks generalizing cause with
  | nil => exact .arrive ..
  | cons b blocks ih =>
    have hgoesOn : ¬ State.Arrived base
        ⟨b.frame :: (blocks.map Block.frame ++ base), .give (.error cause)⟩ := by
      rintro ⟨hframes, -⟩
      have hlength := congrArg List.length hframes
      simp only [List.length_cons, List.length_append] at hlength
      omega
    exact Walk.step hgoesOn (fun p => nofun) (ih (cause.atLineOnce b.line))

/-- A strand that comes to a statement that fails by itself comes to an error. -/
theorem FailsAt.walk (hf : FailsAt job base t h blocks x cause) :
    ∃ tr h', Walk job base t h tr (.error (escaped blocks cause)) h' := by
  obtain ⟨tr, scope, h₁, h₂, hleads, halone⟩ := hf
  obtain ⟨tr₁, hwalk⟩ := halone.walk
  have hends := hwalk.leads.above_all ⟨[], rfl⟩
  exact ⟨_, h₂, (hleads.trans hends).walk (walk_escaped blocks base cause h₂)⟩

/-! ### What an error comes from -/

/-- What a statement that does not fail by itself goes on with: nothing, its block, or the next
branch. -/
inductive GoesOn (scope : ScopeId) : Statement → Move → Prop
  | ended (s : Statement) (flow : Flow) : GoesOn scope s (.give (.ok flow))
  | group (p : Phrase) (body : Body) (inner : ScopeId) :
    GoesOn scope (.group p body) (.call (.body body inner))
  | branch (p : Phrase) (body : Body) (orElse : Option Statement) :
    GoesOn scope (.branch p body orElse) (.call (.body body scope))
  | next (p : Phrase) (body : Body) (next : Statement) :
    GoesOn scope (.branch p body (some next)) (.call (.statement next scope))
  | collect (p : Phrase) (labels : List String) (body : Body) :
    GoesOn scope (.collect p labels body) (.call (.body body scope))

theorem run_goesOn (s : Statement) (hs : callsOut s = false) :
    (run s scope).Gives (GoesOn scope s) := by
  have hdone : (pure Move.done : Act Move).Gives (GoesOn scope s) := .pure (.ended s .done)
  cases s with
  | plain | wait => cases hs
  | group p body =>
    rw [run.eq_def]
    dsimp only
    split
    · exact .bind fun inner => .pure (.group p body inner)
    · exact .bind fun inner => .bind fun _ => hdone
    · exact .pure (.group p body scope)
  | branch p body orElse =>
    rw [run.eq_def]
    dsimp only
    refine .bind fun words => .bind fun holds => ?_
    split
    · exact .pure (.branch p body orElse)
    · cases orElse with
      | none => exact hdone
      | some next => exact .pure (.next p body next)
  | handler => exact .bind fun _ => hdone
  | connect p host port ondemand =>
    refine .bind fun name => .bind fun h => ?_
    dsimp only
    split
    · exact .bind fun _ => .bind fun _ => hdone
    · exact .bind fun _ => hdone
  | collect p labels body =>
    rw [run.eq_def]
    dsimp only
    split
    · refine .bind fun words => .bind fun _ => ?_
      dsimp only
      split
      · exact .bind fun _ => .pure (.collect p labels body)
      · exact .bind fun _ => .pure (.collect p labels body)
      · exact .pure (.collect p labels body)
    · exact .pure (.collect p labels body)

/-- An error of a statement: who it comes from, and what it is. -/
def Owed (job : Link.JobId) (base : List Frame) (t : State) (h : House) (s : Statement)
    (e : ScriptError) : Prop :=
  ∃ blocks x y cause, FailsAt job base t h blocks x cause ∧ Culprit s blocks x y ∧
    e = escaped blocks cause

theorem owed_of_alone {s : Statement} (ha : Alone job base s scope h e h') :
    Owed job base ⟨base, .call (.statement s scope)⟩ h s e :=
  ⟨[], s, s, e, ⟨[], scope, h, h', .here .., ha⟩, .self s, rfl⟩

/-- A statement that runs fails by itself, or what it goes on with does. -/
theorem owed_of_walk {s : Statement}
    (hgoes : ∀ m h₁ tr, GoesOn scope s m →
      Walk job base ⟨m.frames ++ base, m.doing⟩ h₁ tr (.error e) h' →
        Owed job base ⟨m.frames ++ base, m.doing⟩ h₁ s e)
    (hw : Walk job base ⟨base, .call (.statement s scope)⟩ h tr (.error e) h') :
    Owed job base ⟨base, .call (.statement s scope)⟩ h s e := by
  cases hs : callsOut s with
  | true =>
    have halone : Alone job base s scope h e h' := by
      rw [Alone, if_pos hs]
      exact ⟨tr, hw⟩
    exact owed_of_alone halone
  | false =>
    have hw' := walk_statement_iff.mp hw
    rcases hrun : (run s scope).runOn h with ⟨cause | m, h₁⟩
    · rw [hrun] at hw'
      obtain ⟨-, he, rfl⟩ := Walk.of_give hw'
      obtain rfl := Except.error.inj he
      have halone : Alone job base s scope h e h' := by
        rw [Alone, hs]
        exact hrun
      exact owed_of_alone halone
    · rw [hrun] at hw'
      obtain ⟨blocks, x, y, cause, hfails, hculprit, he⟩ :=
        hgoes m h₁ tr (run_goesOn s hs h m h₁ hrun) hw'
      have hleads : Leads job base ⟨base, .call (.statement s scope)⟩ h []
          (moveOn base ((run s scope).runOn h)).1 (moveOn base ((run s scope).runOn h)).2 :=
        leads_call
      rw [hrun] at hleads
      exact ⟨blocks, x, y, cause, hfails.after hleads, hculprit, he⟩

/-- The same for a block: it comes from one of its statements. -/
def OwedBy (job : Link.JobId) (base : List Frame) (t : State) (h : House) (body : Body)
    (e : ScriptError) : Prop :=
  ∃ s ∈ body, ∃ blocks b x y cause, b.line = s.phrase.line ∧
    FailsAt job base t h (blocks ++ [b]) x cause ∧ Culprit s blocks x y ∧
      e = escaped (blocks ++ [b]) cause

/-- What a block owes the statement owes that runs it. -/
theorem OwedBy.statement {s : Statement} {body : Body} (ho : OwedBy job base t₁ h₁ body e)
    (hl : Leads job base t h tr t₁ h₁) (hbody : Statement.phrasesAll body ⊆ s.phrases) :
    Owed job base t h s e := by
  obtain ⟨s', hs', blocks, b, x, y, cause, hline, hfails, hculprit, he⟩ := ho
  exact ⟨blocks ++ [b], x, y, cause, hfails.after hl, hculprit.inside_block hline hs' hbody, he⟩

mutual

/-- A statement fails because of one in it that fails by itself. -/
theorem owed_statement : (s : Statement) → ∀ {base : List Frame} {scope : ScopeId} {h h' : House}
    {tr : List Ended} {e : ScriptError},
    Walk job base ⟨base, .call (.statement s scope)⟩ h tr (.error e) h' →
      Owed job base ⟨base, .call (.statement s scope)⟩ h s e
  | .group p body, base, scope, h, h', tr, e, hw => by
    refine owed_of_walk (fun m h₁ tr hgoes hw => ?_) hw
    cases hgoes with
    | ended => cases (Walk.of_give hw).2.1
    | group =>
      exact (owed_body body (walk_call_iff.mp hw)).statement leads_call (List.subset_cons_self ..)
  | .branch p body orElse, base, scope, h, h', tr, e, hw => by
    refine owed_of_walk (fun m h₁ tr hgoes hw => ?_) hw
    cases hgoes with
    | ended => cases (Walk.of_give hw).2.1
    | branch =>
      refine (owed_body body (walk_call_iff.mp hw)).statement leads_call fun q hq => ?_
      exact List.mem_cons_of_mem _ (List.mem_append_left _ hq)
    | next _ _ next =>
      obtain ⟨blocks, x, y, cause, hfails, hculprit, he⟩ := owed_statement next hw
      obtain ⟨y', hculprit⟩ := hculprit.next
      exact ⟨blocks, x, y', cause, hfails, hculprit, he⟩
  | .collect p labels body, base, scope, h, h', tr, e, hw => by
    refine owed_of_walk (fun m h₁ tr hgoes hw => ?_) hw
    cases hgoes with
    | ended => cases (Walk.of_give hw).2.1
    | collect =>
      exact (owed_body body (walk_call_iff.mp hw)).statement leads_call (List.subset_cons_self ..)
  | .plain _, base, scope, h, h', tr, e, hw | .handler .., base, scope, h, h', tr, e, hw
  | .wait .., base, scope, h, h', tr, e, hw | .connect .., base, scope, h, h', tr, e, hw => by
    refine owed_of_walk (fun m h₁ tr hgoes hw => ?_) hw
    cases hgoes with
    | ended => cases (Walk.of_give hw).2.1

/-- The statements of a block run one after the other, up to the first that fails. -/
theorem owed_body : (body : Body) → ∀ {base : List Frame} {scope : ScopeId} {h h' : House}
    {tr : List Ended} {e : ScriptError},
    Walk job base ⟨(runBody body scope).frames ++ base, (runBody body scope).doing⟩ h tr
        (.error e) h' →
      OwedBy job base ⟨(runBody body scope).frames ++ base, (runBody body scope).doing⟩ h body e
  | [], base, scope, h, h', tr, e, hw => by cases (Walk.of_give hw).2.1
  | s :: rest, base, scope, h, h', tr, e, hw => by
    let b : Block := ⟨s.phrase.line, rest, scope⟩
    obtain ⟨tr₁, o, h₁, tr₂, hinner, hrest, -⟩ := Walk.split_frame (f := b.frame) hw
    cases o with
    | error e₁ =>
      obtain ⟨-, he⟩ := hrest.of_block
      obtain rfl := Except.error.inj he
      obtain ⟨blocks, x, y, cause, hfails, hculprit, rfl⟩ := owed_statement s hinner
      exact ⟨s, List.mem_cons_self, blocks, b, x, y, cause, rfl, hfails.inside, hculprit,
        (escaped_concat blocks b cause).symm⟩
    | ok flow =>
      have hleads := (hinner.leads.above ⟨[], rfl⟩).trans (leads_frame (f := b.frame) rfl)
      have hrest := (walk_frame_iff (f := b.frame) rfl).mp hrest
      cases flow with
      | done =>
        obtain ⟨s', hs', blocks, b', x, y, cause, hline, hfails, hculprit⟩ := owed_body rest hrest
        exact ⟨s', List.mem_cons_of_mem _ hs', blocks, b', x, y, cause, hline,
          hfails.after hleads, hculprit⟩
      | _ => cases (Walk.of_give hrest).2.1

end

end Strand

end Hearth
