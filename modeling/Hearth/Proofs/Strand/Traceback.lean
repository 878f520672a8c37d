import Hearth.Proofs.Failure
import Hearth.Proofs.Strand.Performance
import Mathlib.Data.List.Induction

/-!
# What a failure tells of nested scripts

The statements of an event handler trigger an event, whose handler triggers the next one, and at
last one fails. The stack of the strand holds the whole nesting: for every handler the frame of its
sequence, and above it those of the blocks that it is in the middle of. The error comes down this
stack. A block gives it the line of the statement, unless it has one; a sequence makes it a failure
of its own. An error with a line is that of a script, and a failure with such an error is a root:
what the sequences further in had to report is not in its description, and only its text still names
the lines of all handlers.

## Main definitions

* `Strand.Leads` : the ways of a strand from one state to another, short of the end of a call.
* `Frame.pass` : what an error becomes under a frame.
* `Strand.Level`, `Strand.stack` : a handler that runs statements, and the stack of nested ones.

## Main results

* `Strand.Walk.unwind` : an error comes down a stack of blocks and sequences.
* `Strand.failure_of_scripts` : the failure of handlers that trigger each other.
-/

namespace Hearth

/-! ### Frames -/

/-- What an error becomes under a frame of a script or a sequence. -/
def Frame.pass (e : ScriptError) : Frame → ScriptError
  | .body line _ _ => e.atLineOnce line
  | .step _ run => .work (.nested (Strand.stepFailure run.sequence run.index e))
  | _ => e

/-- Is a frame that of a step of a sequence? -/
def Frame.isStep : Frame → Bool
  | .step .. => true
  | _ => false

/-- A frame is that of a block or of a sequence. -/
inductive Frame.Unwinds : Frame → Prop
  | body (line : Nat) (rest : Body) (scope : ScopeId) : Unwinds (.body line rest scope)
  | step (b : Bands) (run : Run) : Unwinds (.step b run)

namespace Strand

/-! ### Ways to a state -/

/-- The ways of a strand from a state and a house to others before it comes to the end of the call,
with the steps of sequences that end on the way. -/
inductive Leads (job : Link.JobId) (base : List Frame) :
    State → House → List Ended → State → House → Prop where
  | here (t : State) (h : House) : Leads job base t h [] t h
  | step {t t' : State} {h h' : House} {tr : List Ended}
    (goesOn : ¬ t.Arrived base) (runs : ∀ p, t.doing ≠ .pause p)
    (rest : Leads job base (step job h t).1 (step job h t).2.1 tr t' h') :
    Leads job base t h (t.ending ++ tr) t' h'
  | pause {frames : List Frame} {p : Pause} {h h₁ h₂ h' : House} {o₁ : Outcome} {t' : State}
    {tr : List Ended} (ends : poll job h₁ p = (some o₁, h₂))
    (rest : Leads job base ⟨frames, .give o₁⟩ h₂ tr t' h') :
    Leads job base ⟨frames, .pause p⟩ h tr t' h'

section

variable {job : Link.JobId} {base : List Frame} {t t' : State} {h h₁ h' : House}
  {tr tr' : List Ended} {o : Outcome}

/-- A walk from a state that a way leads to is the end of a walk. -/
theorem Leads.walk (hl : Leads job base t h tr t' h₁) (hw : Walk job base t' h₁ tr' o h') :
    Walk job base t h (tr ++ tr') o h' := by
  induction hl with
  | here => exact hw
  | step goesOn runs rest ih => exact List.append_assoc .. ▸ .step goesOn runs (ih hw)
  | pause ends rest ih => exact .pause ends (ih hw)

end

/-! ### An error comes down -/

/-- The failure that the step that ended is to its sequence. -/
def Ended.failure? (x : Ended) : Option Failure :=
  Strand.failure? x.run.sequence (x.run.index, x.outcome)

/-- The failures of steps that ended. -/
def failed (tr : List Ended) : List Failure := tr.filterMap Ended.failure?

@[simp]
theorem failed_append (tr tr' : List Ended) : failed (tr ++ tr') = failed tr ++ failed tr' :=
  List.filterMap_append ..

@[simp]
theorem failed_cons (x : Ended) (tr : List Ended) :
    failed (x :: tr) = x.failure?.toList ++ failed tr := by
  unfold failed
  rw [List.filterMap_cons]
  cases x.failure? <;> rfl

section

variable {job : Link.JobId} {b : Bands} {base : List Frame} {run : Run} {h h' : House}
  {tr : List Ended} {o : Outcome} {e cause : ScriptError}

/-- A sequence that has failed ends with that failure, unless another step fails. -/
theorem Course.of_pending {depth : Nat} (hc : Course job b depth run h tr o h') {f : Failure}
    (hp : run.pending = some f) :
    ∃ g, o = .error (.work (.nested g)) ∧ (failed tr = [] → g = f) := by
  induction hc generalizing f with
  | finish last => exact ⟨f, by rw [hp]; rfl, fun _ => rfl⟩
  | @step depth i run st h h₁ h' sub tr o₁ o next walk deeper nested rest ihn ih =>
    have hpending : (account b { run with index := i } o₁).1.pending =
      (failure? run.sequence (i, o₁)).or run.pending := account_pending
    cases hf : failure? run.sequence (i, o₁) with
    | none =>
      obtain ⟨g, ho, hg⟩ := ih (hpending.trans (by rw [hf, Option.none_or, hp]))
      refine ⟨g, ho, fun hnone => hg ?_⟩
      rw [failed_append, failed_cons] at hnone
      exact (List.append_eq_nil_iff.mp (List.append_eq_nil_iff.mp hnone).2).2
    | some f₁ =>
      obtain ⟨g, ho, -⟩ := ih (hpending.trans (by rw [hf, Option.some_or]))
      -- Another step failed, so there is nothing to be said of `f`.
      refine ⟨g, ho, fun hnone => ?_⟩
      have hx : Ended.failure? ⟨depth, b, { run with index := i }, o₁⟩ = some f₁ := hf
      rw [failed_append, failed_cons, hx] at hnone
      exact absurd (List.append_eq_nil_iff.mp hnone).2 (List.cons_ne_nil _ _)

/-- A block gives an error its line and ends. -/
theorem Walk.of_block {line : Nat} {rest : Body} {scope : ScopeId}
    (hw : Walk job base ⟨.body line rest scope :: base, .give (.error e)⟩ h tr o h') :
    tr = [] ∧ o = .error (e.atLineOnce line) := by
  generalize ht : (⟨.body line rest scope :: base, .give (.error e)⟩ : State) = t at hw
  cases hw with
  | arrive o =>
    exact absurd (ht ▸ ⟨rfl, o, rfl⟩)
      (not_arrived_above base [] (.body line rest scope) (.give (.error e)))
  | step goesOn runs hrest =>
    subst ht
    change Walk job base ⟨base, .give (.error (e.atLineOnce line))⟩ h _ o h' at hrest
    obtain ⟨rfl, rfl, -⟩ := hrest.of_give
    exact ⟨rfl, rfl⟩
  | pause => cases ht

/-- A sequence makes an error a failure of its own and ends with it, unless another step fails. -/
theorem Walk.of_sequence
    (hw : Walk job base ⟨.step b run :: base, .give (.error e)⟩ h tr o h') :
    ∃ g, o = .error (.work (.nested g)) ∧ failed tr ≠ [] ∧
      ((failed tr).length = 1 → g = stepFailure run.sequence run.index e) := by
  obtain ⟨rest, rfl, hrest⟩ := hw.of_ended
  obtain ⟨g, ho, hg⟩ := hrest.course.of_pending rfl
  have hx : Ended.failure? ⟨base.length, b, run, .error e⟩ =
    some (stepFailure run.sequence run.index e) := rfl
  rw [failed_cons, hx]
  refine ⟨g, ho, List.cons_ne_nil _ _, fun hone => hg ?_⟩
  exact List.eq_nil_of_length_eq_zero (Nat.succ.inj hone)

/-- An error comes down a stack of blocks and sequences. At least one step fails for each of the
sequences; if no others do, the error is what the frames make of it, one after the other. -/
theorem Walk.unwind {frames : List Frame} (hf : ∀ f ∈ frames, f.Unwinds)
    (hw : Walk job base ⟨frames ++ base, .give (.error cause)⟩ h tr o h') :
    frames.countP Frame.isStep ≤ (failed tr).length ∧ ∃ e, o = .error e ∧
      ((failed tr).length = frames.countP Frame.isStep → e = frames.foldl Frame.pass cause) := by
  -- The outermost frame is taken first, since a walk can be split at the frame above its base.
  induction frames using List.reverseRecOn generalizing base tr o h' with
  | nil =>
    obtain ⟨rfl, rfl, rfl⟩ := hw.of_give
    exact ⟨Nat.le_refl 0, cause, rfl, fun _ => rfl⟩
  | append_singleton frames f ih =>
    rw [List.append_assoc] at hw
    obtain ⟨tr₁, o₁, h₁, tr₂, hinner, houter, rfl⟩ := hw.split rfl
    obtain ⟨hcount, e, rfl, he⟩ := ih (fun f hmem => hf f (List.mem_append_left _ hmem)) hinner
    rw [failed_append, List.length_append, List.countP_append, List.foldl_append]
    cases hf f (List.mem_append_right _ (.head _)) with
    | body line rest scope =>
      obtain ⟨rfl, rfl⟩ := houter.of_block
      refine ⟨hcount, _, rfl, fun hsame => ?_⟩
      rw [he hsame]
      rfl
    | step b run =>
      obtain ⟨g, rfl, hsome, hg⟩ := houter.of_sequence
      have hpos := List.length_pos_iff.mpr hsome
      refine ⟨Nat.add_le_add hcount hpos, _, rfl, fun hsame => ?_⟩
      have hone : [Frame.step b run].countP Frame.isStep = 1 := rfl
      rw [hone] at hsame
      rw [hg (by omega), he (by omega)]
      rfl

end

/-! ### Nested scripts -/

/-- A block of statements that runs: the line of the statement, and what is left of the block. -/
structure Block where
  line : Nat
  rest : Body
  scope : ScopeId

/-- The frame of a block. -/
def Block.frame (b : Block) : Frame := .body b.line b.rest b.scope

/-- A step of a sequence that runs statements. -/
structure Level where
  bands : Bands
  run : Run
  /-- The block of the statement. -/
  block : Block
  /-- The blocks around it, the innermost first. -/
  around : List Block

namespace Level

variable (l : Level)

/-- The frames of a level. -/
def frames : List Frame := l.block.frame :: (l.around.map Block.frame ++ [.step l.bands l.run])

/-- What a failure says of a level: the description of its sequence. -/
def described : List String :=
  (l.run.sequence.report false (some l.run.index)).map ("  " ++ ·)

/-- The failure that an error of its statement is to a level. -/
def failure (e : ScriptError) : Failure :=
  stepFailure l.run.sequence l.run.index (e.atLineOnce l.block.line)

end Level

/-- The stack of nested levels, the outermost first. -/
def stack : List Level → List Frame
  | [] => []
  | l :: inside => stack inside ++ l.frames

/-- The error that comes out of nested levels. -/
def escaping : List Level → ScriptError → ScriptError
  | [], cause => cause
  | l :: inside, cause => .work (.nested (l.failure (escaping inside cause)))

/-- The text of that error: the lines of all levels, the outermost first, and the text of what the
innermost statement failed with. -/
def told : List Level → ScriptError → String
  | [], cause => cause.message
  | [l], cause => (cause.atLineOnce l.block.line).message
  | l :: inside, cause => "line " ++ toString l.block.line ++ ": " ++ told inside cause

namespace Level

variable (l : Level)

theorem foldl_around (blocks : List Block) (e : ScriptError) (line : Nat) :
    (blocks.map Block.frame).foldl Frame.pass (e.atLineOnce line) = e.atLineOnce line := by
  induction blocks with
  | nil => rfl
  | cons b blocks ih =>
    rw [List.map_cons, List.foldl_cons, Block.frame, Frame.pass, e.atLineOnce_twice, ih]

/-- An error becomes the failure of the level when it comes down its frames. -/
theorem foldl_frames (e : ScriptError) :
    l.frames.foldl Frame.pass e = .work (.nested (l.failure e)) := by
  rw [frames, List.foldl_cons, List.foldl_append, Block.frame, Frame.pass, foldl_around]
  rfl

/-- The failure of a level is a root, whatever the error of its statement came from. -/
theorem failure_eq (e : ScriptError) : l.failure e =
    .mk (.script (e.atLineOnce l.block.line)) (l.run.sequence.report false (some l.run.index))
      false := by
  rw [failure, stepFailure, e.toWork_atLineOnce]
  rfl

theorem message_failure (e : ScriptError) :
    (l.failure e).message = (e.atLineOnce l.block.line).message := by
  rw [failure_eq]
  rfl

theorem root_failure (e : ScriptError) : (l.failure e).root = l.failure e := by
  rw [failure_eq]
  rfl

theorem report_failure (e : ScriptError) :
    (l.failure e).report = ("FAILURE: " ++ (l.failure e).message) :: l.described := by
  rw [failure_eq]
  exact congrArg (_ :: ·) (List.append_nil _)

/-- The failure of a level is not the failure that it comes from. -/
theorem failure_nested_ne (f : Failure) : l.failure (.work (.nested f)) ≠ f := by
  intro heq
  -- The error of the new failure still holds the other one, though not as a nested failure.
  have hsize := congrArg sizeOf heq
  rw [failure_eq] at hsize
  simp only [ScriptError.atLineOnce, Failure.mk.sizeOf_spec, WorkError.script.sizeOf_spec,
    ScriptError.atLine.sizeOf_spec, ScriptError.work.sizeOf_spec,
    WorkError.nested.sizeOf_spec] at hsize
  omega

/-- The failure of a level does not describe another level. -/
theorem report_failure_ne (e : ScriptError) (text : String) (inner : Level) :
    (l.failure e).report ≠ text :: (l.described ++ inner.described) := by
  intro heq
  rw [report_failure] at heq
  have hnone : inner.described = [] := List.self_eq_append_right.mp (List.cons.inj heq).2
  exact absurd hnone (List.cons_ne_nil _ _)

end Level

theorem foldl_stack (levels : List Level) (cause : ScriptError) :
    (stack levels).foldl Frame.pass cause = escaping levels cause := by
  induction levels with
  | nil => rfl
  | cons l inside ih => rw [stack, List.foldl_append, ih, l.foldl_frames, escaping]

theorem message_escaping (l : Level) (inside : List Level) (cause : ScriptError) :
    (l.failure (escaping inside cause)).message = told (l :: inside) cause := by
  induction inside generalizing l with
  | nil => exact l.message_failure cause
  | cons l' inside ih =>
    rw [l.message_failure, told, ← ih l']
    · rfl
    · nofun

theorem countP_stack (levels : List Level) :
    (stack levels).countP Frame.isStep = levels.length := by
  have hblocks (blocks : List Block) : (blocks.map Block.frame).countP Frame.isStep = 0 := by
    rw [List.countP_map]
    exact List.countP_eq_zero.mpr fun b hb => Bool.false_ne_true
  induction levels with
  | nil => rfl
  | cons l inside ih =>
    have hlevel : l.frames.countP Frame.isStep = 1 := by
      rw [Level.frames, List.countP_cons_of_neg Bool.false_ne_true, List.countP_append, hblocks]
      rfl
    rw [stack, List.countP_append, ih, hlevel, List.length_cons]

theorem unwinds_of_mem_stack {levels : List Level} {f : Frame} (hf : f ∈ stack levels) :
    f.Unwinds := by
  induction levels with
  | nil => cases hf
  | cons l inside ih =>
    rcases List.mem_append.mp hf with hf | hf
    · exact ih hf
    · rcases List.mem_cons.mp hf with rfl | hf
      · exact .body ..
      · rcases List.mem_append.mp hf with hf | hf
        · obtain ⟨b, -, rfl⟩ := List.mem_map.mp hf
          exact .body ..
        · obtain rfl := List.mem_singleton.mp hf
          exact .step ..

section

variable {job : Link.JobId} {base : List Frame} {h h₁ h' : House} {e : Event}
  {before after : List Ended} {o : Outcome} {cause : ScriptError}

/-- The error that nested levels end with, if no other step fails. -/
theorem Walk.of_stack {levels : List Level}
    (hw : Walk job base ⟨stack levels ++ base, .give (.error cause)⟩ h after o h')
    (alone : (failed after).length = levels.length) : o = .error (escaping levels cause) := by
  obtain ⟨-, e, rfl, he⟩ := hw.unwind fun f hf => unwinds_of_mem_stack hf
  rw [he (alone.trans (countP_stack levels).symm), foldl_stack]

/-- An event is dispatched, and handlers run that trigger each other, until a statement fails. If no
other step fails, the dispatch ends with a failure that is its own root. Its text has the lines of
all handlers, the outermost first; its description has that text and the sequence of the outermost
handler, and nothing of those further in. -/
theorem failure_of_scripts (outer : Level) (inside : List Level)
    (comes : Leads job base ⟨base, .call (.dispatch e)⟩ h before
      ⟨stack (outer :: inside) ++ base, .give (.error cause)⟩ h₁)
    (walk : Walk job base ⟨stack (outer :: inside) ++ base, .give (.error cause)⟩ h₁ after o h')
    (alone : (failed after).length = inside.length + 1) :
    ∃ f, Walk job base ⟨base, .call (.dispatch e)⟩ h (before ++ after)
        (.error (.work (.nested f))) h' ∧
      f.root = f ∧ f.message = told (outer :: inside) cause ∧
      f.report = ("FAILURE: " ++ told (outer :: inside) cause) :: outer.described := by
  have hmessage := message_escaping outer inside cause
  refine ⟨outer.failure (escaping inside cause), ?_, outer.root_failure _, hmessage, ?_⟩
  · exact walk.of_stack alone ▸ comes.walk walk
  · rw [outer.report_failure, hmessage]

end

/-! ### Two handlers -/

/-- Some steps of a strand, up to a pause or the end of its last call. -/
def advance (job : Link.JobId) : Nat → State → House → List Ended × State × House
  | 0, t, h => ([], t, h)
  | n + 1, t, h =>
    match t.frames, t.doing with
    | [], .give _ => ([], t, h)
    | _, .pause _ => ([], t, h)
    | _, _ =>
      let (tr, r) := advance job n (step job h t).1 (step job h t).2.1
      (t.ending ++ tr, r)

/-- How the last call of a strand ended. -/
def State.result? : State → Option Outcome
  | ⟨[], .give o⟩ => some o
  | _ => none

theorem State.eq_of_result? {t : State} {o : Outcome} (h : t.result? = some o) :
    t = ⟨[], .give o⟩ := by
  unfold result? at h
  split at h
  · cases h
    rfl
  · cases h

theorem leads_advance (job : Link.JobId) (n : Nat) (t : State) (h : House) :
    Leads job [] t h (advance job n t h).1 (advance job n t h).2.1 (advance job n t h).2.2 := by
  induction n generalizing t h with
  | zero => exact .here t h
  | succ n ih =>
    rw [advance]
    split
    · exact .here t h
    · exact .here t h
    · next hpause hgive =>
      refine .step ?_ hpause (ih ..)
      rintro ⟨hnil, o, ho⟩
      exact hgive o hnil ho

/-- A statement of a verb and the words after it. -/
def statementOf (line : Nat) (verb : String) (deed : Hearth.Deed) (args : List String) :
    Statement :=
  .plain ⟨.ofWords [verb] "" deed, ⟨1, (verb :: args).map .text, ⟨0⟩, ⟨0⟩⟩, line⟩

/-- A handler with one statement. -/
def handlerOf (id : Nat) (name event : String) (s : Statement) : Registered :=
  ⟨⟨id⟩, .handler ⟨id, [.text name], none, [.text event], 51, [s], ⟨0⟩⟩⟩

/-- The handler of one event triggers another one, and the handler of that fails. -/
def relayHouse : House :=
  { House.empty .standard ⟨0⟩ with
    registry := ⟨.standard, [
      handlerOf 1 "one" "a" (statementOf 3 "trigger" .trigger ["b"]),
      handlerOf 2 "two" "b" (statementOf 6 "del" .delete ["wait", "nothere"])], 3⟩
    collections := [(Collection.waits.name, .waits)] }

/-- The event that the first of them is for. -/
def relayEvent : Event := ⟨1, [.text "a"], relayHouse.root, ⟨0⟩⟩

/-- The statement of the second handler fails while that of the first one runs. -/
theorem relay_fails : ∃ outer inner cause before h₁ after o h',
    Leads ⟨0⟩ [] ⟨[], .call (.dispatch relayEvent)⟩ relayHouse before
      ⟨stack [outer, inner] ++ [], .give (.error cause)⟩ h₁ ∧
    Walk ⟨0⟩ [] ⟨stack [outer, inner] ++ [], .give (.error cause)⟩ h₁ after o h' ∧
    (failed after).length = 2 := by
  obtain ⟨failing, hf⟩ : ∃ r, advance ⟨0⟩ 8 ⟨[], .call (.dispatch relayEvent)⟩ relayHouse = r :=
    ⟨_, rfl⟩
  obtain ⟨ended, he⟩ : ∃ r, advance ⟨0⟩ 4 failing.2.1 failing.2.2 = r := ⟨_, rfl⟩
  have comes := leads_advance ⟨0⟩ 8 ⟨[], .call (.dispatch relayEvent)⟩ relayHouse
  have goes := leads_advance ⟨0⟩ 4 failing.2.1 failing.2.2
  rw [hf] at comes
  rw [he] at goes
  obtain ⟨outer, inner, cause, hfailing⟩ : ∃ outer inner cause,
      failing.2.1 = ⟨stack [outer, inner] ++ [], .give (.error cause)⟩ :=
    hf ▸ ⟨⟨_, _, ⟨_, _, _⟩, []⟩, ⟨_, _, ⟨_, _, _⟩, []⟩, _, rfl⟩
  have hended : ended.2.1.result?.isSome = true := by
    subst hf he
    decide +kernel
  have alone : (failed ended.1).length = 2 := by
    subst hf he
    decide +kernel
  obtain ⟨o, ho⟩ := Option.isSome_iff_exists.mp hended
  rw [hfailing, State.eq_of_result? ho] at goes
  rw [hfailing] at comes
  refine ⟨outer, inner, cause, failing.1, failing.2.2, ended.1 ++ [], o, ended.2.2, comes,
    goes.walk (.arrive o _), ?_⟩
  rw [List.append_nil]
  exact alone

theorem failure_of_scripts_two : ∃ outer inner cause before h₁ after o h',
    Leads ⟨0⟩ [] ⟨[], .call (.dispatch relayEvent)⟩ relayHouse before
      ⟨stack [outer, inner] ++ [], .give (.error cause)⟩ h₁ ∧
    Walk ⟨0⟩ [] ⟨stack [outer, inner] ++ [], .give (.error cause)⟩ h₁ after o h' ∧
    (failed after).length = 2 ∧
    ∃ f, Walk ⟨0⟩ [] ⟨[], .call (.dispatch relayEvent)⟩ relayHouse (before ++ after)
        (.error (.work (.nested f))) h' ∧
      f.root = f ∧ f.message = told [outer, inner] cause ∧
      f.report = ("FAILURE: " ++ told [outer, inner] cause) :: outer.described := by
  obtain ⟨outer, inner, cause, before, h₁, after, o, h', comes, walk, alone⟩ := relay_fails
  exact ⟨outer, inner, cause, before, h₁, after, o, h', comes, walk, alone,
    failure_of_scripts outer [inner] comes walk alone⟩

/-- The failure of the first handler is not that of the second one, and its description does not
have the sequence of the second handler. -/
theorem inner_script_unreported : ∃ outer inner cause before h₁ after f h',
    Leads ⟨0⟩ [] ⟨[], .call (.dispatch relayEvent)⟩ relayHouse before
      ⟨stack [outer, inner] ++ [], .give (.error cause)⟩ h₁ ∧
    Walk ⟨0⟩ [] ⟨stack [outer, inner] ++ [], .give (.error cause)⟩ h₁ after
      (.error (.work (.nested f))) h' ∧
    (failed after).length = 2 ∧ f.root ≠ inner.failure cause ∧
    f.report ≠ ("FAILURE: " ++ (inner.failure cause).message) ::
      (outer.described ++ inner.described) := by
  obtain ⟨outer, inner, cause, before, h₁, after, o, h', comes, walk, alone⟩ := relay_fails
  obtain rfl := walk.of_stack alone
  refine ⟨outer, inner, cause, before, h₁, after, _, h', comes, walk, alone, ?_, ?_⟩
  · rw [outer.root_failure]
    exact outer.failure_nested_ne (inner.failure cause)
  · exact outer.report_failure_ne _ _ inner

end Strand

end Hearth
