import Hearth.Proofs.Session.Stacks
import Hearth.Strand
import Mathlib.Data.List.Forall2

/-!
# Sessions that count lines differently

A session does the same whatever it has counted so far. A conversation with a session is a list of
cues, each said in some house: the lines that it gets, the end of its text, and how the statements
that it handed out ended. If two sessions differ in the numbers of lines only, and hear the same up
to lines, in houses that look alike to them, then they say the same up to lines, and change the same
in their houses.

## Main definitions

* `Session.hear` : a session hears a cue.
* `Session.converse` : a session hears cue after cue.

## Main results

* `Session.advance_unlined` : interpreting without the numbers of lines.
* `Session.hear_same` : one cue.
* `Session.converse_same` : a conversation.
-/

namespace Hearth

/-! ### Marks without lines -/

namespace Script

/-- The outline takes a mark whatever its line is. -/
theorem Outline.feed_unlined (o : Outline) (mark : Mark) :
    o.feed mark.unlined =
      ((o.feed mark).1, (o.feed mark).2.map (List.map Action.unlined)) := by
  obtain ⟨place, depth⟩ := o
  obtain ⟨kind, line⟩ := mark
  cases place <;> cases kind <;> rfl

end Script

/-- Where a session is, without the numbers of lines. -/
def Progress.unlined : Progress → Progress
  | .ready => .ready
  | .run statement => .run statement.unlined
  | .failed e => .failed e.unlined

/-- How a run ended, without the numbers of lines. -/
def Outcome.unlined : Outcome → Outcome
  | .ok flow => .ok flow
  | .error e => .error e.unlined

namespace Session

/-- Failing without the numbers of lines. -/
theorem fail_unlined (s : Session) (e : ScriptError) :
    s.unlined.fail e.unlined = ((s.fail e).1.unlined, (s.fail e).2.unlined) := by
  have herror : e.unlined.atLineOnce 0 = (e.atLineOnce s.layout.line).unlined :=
    (ScriptError.unlined_atLineOnce _ e).symm
  obtain ⟨mode, scope, layout, outline, blocks, actions, marks⟩ := s
  cases mode with
  | script => exact congrArg (fun e => (_, Progress.failed e)) herror
  | interactive => exact congrArg (fun e => (_, Progress.failed e)) herror

/-- What is left after an action that failed, without the numbers of lines. -/
theorem afterFailed_unlined (s : Session) (action : Script.Action) :
    s.unlined.afterFailed action.unlined = (s.afterFailed action).unlined := by
  obtain ⟨mode, scope, layout, outline, blocks, actions, marks⟩ := s
  cases action <;> cases blocks <;> rfl

/-- The results of two sessions are the same up to lines, and their houses changed in the same
way. -/
structure SameResult (h : House) (x : House × Session × Progress) (k : House)
    (y : House × Session × Progress) : Prop where
  change : h.SameChange x.1 k y.1
  session : x.2.1.unlined = y.2.1.unlined
  progress : x.2.2.unlined = y.2.2.unlined

/-- Interpreting for some rounds does the same without the numbers of lines. -/
def AdvancesUnlined (n : Nat) : Prop :=
  ∀ {h k : House}, h.Alike k → ∀ s : Session,
    h.SameChange (s.advance h n).1 k (s.unlined.advance k n).1 ∧
      (s.unlined.advance k n).2 = ((s.advance h n).2.1.unlined, (s.advance h n).2.2.unlined)

/-- An action that finds what it closes. -/
theorem AdvancesUnlined.action {n : Nat} (ih : AdvancesUnlined n) {h k : House} (hlike : h.Alike k)
    {s : Session} {action : Script.Action} {actions : List Script.Action}
    (hs : s.actions = action :: actions) (hopen : ∀ line, action = .closed line → s.blocks ≠ []) :
    h.SameChange (s.advance h (n + 1)).1 k (s.unlined.advance k (n + 1)).1 ∧
      (s.unlined.advance k (n + 1)).2 =
        ((s.advance h (n + 1)).2.1.unlined, (s.advance h (n + 1)).2.2.unlined) := by
  obtain ⟨mode, scope, layout, outline, blocks, _, marks⟩ := s
  obtain rfl := hs
  have hecho := echoes_act ⟨mode, scope, layout, outline, blocks, actions, marks⟩ action
    hopen hlike
  simp only [advance, unlined, List.map_cons] at hecho ⊢
  generalize Act.runOn _ h = x at hecho ⊢
  generalize Act.runOn _ k = y at hecho ⊢
  obtain ⟨r, h₁⟩ := x
  obtain ⟨t, k₁⟩ := y
  obtain ⟨hchange, hecho⟩ := hecho
  dsimp only at hchange hecho
  cases hecho with
  | ok r =>
    obtain ⟨s', _ | statement⟩ := r
    · obtain ⟨hchange', hsame⟩ := ih (hchange.alike hlike) s'
      exact ⟨hchange.trans hchange', hsame⟩
    · exact ⟨hchange, rfl⟩
  | @error e he =>
    refine ⟨hchange, ?_⟩
    have hafter := afterFailed_unlined
      ⟨mode, scope, layout, outline, blocks, action :: actions, marks⟩ action
    have hfail := fail_unlined (afterFailed
      ⟨mode, scope, layout, outline, blocks, action :: actions, marks⟩ action) e
    rw [← hafter] at hfail
    exact hfail

/-- Interpreting without the numbers of lines. -/
theorem advance_unlined (n : Nat) : AdvancesUnlined n := by
  induction n with
  | zero => exact fun hlike s => ⟨.refl hlike, rfl⟩
  | succ n ih =>
    rintro h k hlike ⟨mode, scope, layout, outline, blocks, actions, marks⟩
    cases actions with
    | cons action actions =>
      by_cases hopen : ∀ line, action = .closed line → blocks ≠ []
      · exact ih.action hlike rfl hopen
      · -- Without a block to close both fail with the same fault, which is none of a statement.
        obtain ⟨line, hline⟩ := Classical.not_forall.mp hopen
        obtain ⟨rfl, hnil⟩ := Classical.not_imp.mp hline
        obtain rfl : blocks = [] := Classical.not_not.mp hnil
        have hfail := fail_unlined ⟨mode, scope, layout, outline, [], [], []⟩
          (.malformed line .closeWithoutBlock)
        exact ⟨.refl hlike, hfail⟩
    | nil =>
      cases marks with
      | nil => exact ⟨.refl hlike, rfl⟩
      | cons mark marks =>
        simp only [advance, unlined, List.map_cons, List.map_nil, Script.Outline.feed_unlined]
        rcases hfeed : outline.feed mark with ⟨outline', fault | actions⟩
        · dsimp only [Except.map]
          have hfail := fail_unlined ⟨mode, scope, layout, outline', blocks, [], []⟩
            (.malformed mark.line fault)
          exact ⟨.refl hlike, hfail⟩
        · exact ih hlike ⟨mode, scope, layout, outline', blocks, actions, marks⟩

/-! ### Calls to a session -/

section Calls

variable {h k : House} {s t : Session}

/-- Sessions that differ in the numbers of lines only go on in the same way. -/
theorem resume_same (hlike : h.Alike k) (hst : s.unlined = t.unlined) :
    SameResult h (s.resume h) k (t.resume k) := by
  have hrounds (s : Session) : s.unlined.rounds = s.rounds := by
    simp only [rounds, unlined, List.length_map]
  have hn : t.rounds = s.rounds := by rw [← hrounds, ← hst, hrounds]
  obtain ⟨hs, hs'⟩ := advance_unlined s.rounds hlike s
  -- Both do what their common form without lines does in the second house.
  obtain ⟨ht, ht'⟩ := advance_unlined s.rounds (.refl k) t
  rw [hst] at hs hs'
  obtain ⟨hsession, hprogress⟩ := Prod.mk.inj (hs'.symm.trans ht')
  rw [resume, resume, hn]
  exact ⟨hs.left_right ht, hsession, hprogress⟩

/-- Sessions that differ in the numbers of lines only fail in the same way. -/
theorem fail_same (hlike : h.Alike k) (hst : s.unlined = t.unlined) {e e' : ScriptError}
    (he : e.unlined = e'.unlined) : SameResult h (h, s.fail e) k (k, t.fail e') := by
  have hfail := fail_unlined s e
  rw [hst, he, fail_unlined] at hfail
  obtain ⟨hsession, hprogress⟩ := Prod.mk.inj hfail
  exact ⟨.refl hlike, hsession.symm, hprogress.symm⟩

/-- Sessions that differ in the numbers of lines only are given the same marks, each with a number
of its own. -/
theorem given_same (hst : s.unlined = t.unlined) (inner : List Nat)
    (kinds : List Script.MarkKind) (m n : Nat) :
    unlined { s with layout := ⟨inner, m⟩, marks := kinds.map fun kind => ⟨kind, m⟩ } =
      unlined { t with layout := ⟨inner, n⟩, marks := kinds.map fun kind => ⟨kind, n⟩ } := by
  simp only [unlined, List.map_map]
  exact congrArg (fun s : Session =>
    { s with layout := ⟨inner, 0⟩, marks := kinds.map fun kind => ⟨kind, 0⟩ }) hst

/-- A line does the same whatever its number is. -/
theorem feed_same (hlike : h.Alike k) (hst : s.unlined = t.unlined) (text : String) :
    SameResult h (s.feed h text) k (t.feed k text) := by
  have hinner : s.layout.inner = t.layout.inner := congrArg (·.layout.inner) hst
  rw [feed, feed, Script.Layout.feed_eq, Script.Layout.feed_eq, hinner]
  rcases Script.Layout.kinds t.layout.inner text with ⟨inner, fault | kinds⟩
  · have hlayout : unlined { s with layout := ⟨inner, s.layout.line + 1⟩ } =
        unlined { t with layout := ⟨inner, t.layout.line + 1⟩ } :=
      congrArg (fun s : Session => { s with layout := ⟨inner, 0⟩ }) hst
    exact fail_same hlike hlayout rfl
  · exact resume_same hlike (given_same hst inner kinds _ _)

/-- The end of the text does the same after any number of lines. -/
theorem finish_same (hlike : h.Alike k) (hst : s.unlined = t.unlined) :
    SameResult h (s.finish h) k (t.finish k) := by
  have hinner : s.layout.inner = t.layout.inner := congrArg (·.layout.inner) hst
  rw [finish, finish, Script.Layout.close, Script.Layout.close, hinner]
  exact resume_same hlike (given_same hst [] _ _ _)

/-- The end of a run does the same whatever the line of its statement is. -/
theorem afterRun_same (hlike : h.Alike k) (hst : s.unlined = t.unlined) (a b : Statement)
    {o o' : Outcome} (ho : o.unlined = o'.unlined) :
    SameResult h (s.afterRun h a o) k (t.afterRun k b o') := by
  cases o with
  | ok flow =>
    cases o' with
    | ok => exact resume_same hlike hst
    | error => cases ho
  | error e =>
    cases o' with
    | ok => cases ho
    | error e' =>
      have he : e.unlined = e'.unlined := Except.error.inj ho
      have hdropped : unlined { s with actions := [], marks := [] } =
          unlined { t with actions := [], marks := [] } :=
        congrArg (fun s : Session => { s with actions := [], marks := [] }) hst
      refine fail_same hlike hdropped ?_
      rw [ScriptError.unlined_atLineOnce, ScriptError.unlined_atLineOnce, he]

end Calls

/-! ### Conversations -/

/-- A session takes an input. -/
def take (h : House) (s : Session) : Input → House × Session × Progress
  | .line text => s.feed h text
  | .finish => s.finish h

end Session

/-- The statement that is to be run, if there is one. -/
def Progress.pending : Progress → Option Statement
  | .run statement => some statement
  | _ => none

/-- What is said to a session: an input, or how the run of the statement ended that it handed
out. -/
inductive Cue where
  | input (value : Input)
  | ran (outcome : Outcome)

/-- A cue without the numbers of lines. -/
def Cue.unlined : Cue → Cue
  | .input i => .input i
  | .ran o => .ran o.unlined

/-- What a session does with one cue. -/
structure Turn where
  before : House
  after : House
  progress : Progress

/-- In two turns the houses change in the same way, and the same is said up to lines. -/
structure Turn.Same (t u : Turn) : Prop where
  change : t.before.SameChange t.after u.before u.after
  progress : t.progress.unlined = u.progress.unlined

namespace Session

/-- A session hears a cue. It takes input when no statement is to be run, and else the end of the
run of that statement. -/
def hear (h : House) (s : Session) : Option Statement → Cue → Option (House × Session × Progress)
  | none, .input i => some (s.take h i)
  | some statement, .ran o => some (s.afterRun h statement o)
  | none, .ran _ => none
  | some _, .input _ => none

/-- A session hears cues, each in some house, up to the first that it does not expect. -/
def converse (s : Session) (pending : Option Statement) : List (House × Cue) → List Turn
  | [] => []
  | (h, cue) :: rest =>
    match s.hear h pending cue with
    | some (h', s', progress) => ⟨h, h', progress⟩ :: s'.converse progress.pending rest
    | none => []

/-- Sessions that differ in the numbers of lines only take an input in the same way. -/
theorem take_same {h k : House} {s t : Session} (hlike : h.Alike k) (hst : s.unlined = t.unlined)
    (i : Input) : SameResult h (s.take h i) k (t.take k i) := by
  cases i with
  | line text => exact feed_same hlike hst text
  | finish => exact finish_same hlike hst

/-- Sessions that differ in the numbers of lines only do the same with a cue. -/
theorem hear_same {h k : House} {s t : Session} {p q : Option Statement} {c d : Cue}
    (hlike : h.Alike k) (hst : s.unlined = t.unlined)
    (hpq : p.map Statement.unlined = q.map Statement.unlined) (hcd : c.unlined = d.unlined) :
    Option.Rel (SameResult h · k ·) (s.hear h p c) (t.hear k q d) := by
  cases p with
  | none =>
    obtain rfl : q = none := Option.map_eq_none_iff.mp hpq.symm
    cases c with
    | input i =>
      cases d with
      | input j =>
        obtain rfl : i = j := Cue.input.inj hcd
        exact .some (take_same hlike hst i)
      | ran => cases hcd
    | ran o =>
      cases d with
      | input => cases hcd
      | ran o' => exact .none
  | some a =>
    obtain ⟨b, rfl, -⟩ := Option.map_eq_some_iff.mp hpq.symm
    cases c with
    | input i =>
      cases d with
      | input j => exact .none
      | ran => cases hcd
    | ran o =>
      cases d with
      | input => cases hcd
      | ran o' => exact .some (afterRun_same hlike hst a b (Cue.ran.inj hcd))

/-- Sessions that differ in the numbers of lines only converse in the same way. -/
theorem converse_same {s t : Session} {p q : Option Statement} {cues cues' : List (House × Cue)}
    (hst : s.unlined = t.unlined) (hpq : p.map Statement.unlined = q.map Statement.unlined)
    (hcues : List.Forall₂ (fun c d => c.1.Alike d.1 ∧ c.2.unlined = d.2.unlined) cues cues') :
    List.Forall₂ Turn.Same (s.converse p cues) (t.converse q cues') := by
  induction hcues generalizing s t p q with
  | nil => exact .nil
  | @cons c d rest rest' hcd _ ih =>
    have hheard := hear_same hcd.1 hst hpq hcd.2
    simp only [converse]
    generalize s.hear c.1 p c.2 = x at hheard ⊢
    generalize t.hear d.1 q d.2 = y at hheard ⊢
    cases hheard with
    | none => exact .nil
    | @some a b hab =>
      refine .cons ⟨hab.change, hab.progress⟩ (ih hab.session ?_)
      have hpending (p : Progress) : p.pending.map Statement.unlined = p.unlined.pending := by
        cases p <;> rfl
      rw [hpending, hpending, hab.progress]

end Session

end Hearth
