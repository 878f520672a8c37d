import Hearth.Proofs.Session.Renumbering

/-!
# Sessions between two inputs

A session is given inputs: lines, and the end of the text. It goes through each mark by mark and
action by action, and hands out the statements that are to be run on the way; a run can end in any
way and do anything to the house. Between two inputs its stacks are in step, however the lines
before them were nested and wherever they failed, as long as it is used as it should be: an
interactive session after any input, one for a script after inputs without an error.

An error of an interactive session, and the end of the text, leave nothing behind but the number of
the last line. What follows is as it would be in a new session, up to the numbers of lines.

## Main definitions

* `Session.InStep` : the stacks of a session are in step.
* `Session.Settles` : how an input ends, with the runs of the statements on the way.
* `Session.Reached` : what a session is between two inputs.
* `Session.Renewed` : a session that is as a new one.

## Main result

* `Session.in_step_and_renewed` : a session between two inputs is in step; what is closed in the
  next input is open, and after an error or the end of the text the session is as a new one.
-/

namespace Hearth

namespace Session

open Script

/-- The stacks of a session are in step: one statement for each block of the outline, and one for
each level of indentation above the outermost one. Everything is interpreted, and a line can start
or a block is due. -/
structure InStep (s : Session) : Prop where
  blocks : s.depth = s.outline.depth
  levels : s.outline.depth + 1 = s.layout.widths.length
  widths : s.layout.widths.Pairwise (· < ·)
  outermost : s.layout.widths.head? = some 0
  place : s.outline.place = .betweenLines ∨ ∃ words, s.outline.place = .blockDue words
  marks : s.marks = []
  actions : s.actions = []

/-- A session that has an input before it, if the input is marks and not a fault. -/
def given (s : Session) : Input → Option Session
  | .line text =>
    match s.layout.feed text with
    | (layout, .ok marks) => some { s with layout, marks }
    | (_, .error _) => none
  | .finish => some { s with layout := s.layout.close.1, marks := s.layout.close.2 }

/-- The next step of a session closes only what is open: a mark that closes a level finds a block of
the outline, and an action that closes a block finds its statement. -/
structure ClosesOpen (s : Session) : Prop where
  outline : ∀ mark marks, s.marks = mark :: marks → mark.kind = .dedent → s.outline.depth ≠ 0
  blocks : ∀ line actions, s.actions = .closed line :: actions → s.blocks ≠ []

/-- How an input ends. Each statement that the session hands out is run, in whatever way, and the
session goes on in some house; the outcomes of the runs are listed in order. -/
inductive Settles : Session × Progress → List Outcome → Session → Except ScriptError Unit → Prop
  | ready (s : Session) : Settles (s, .ready) [] s (.ok ())
  | failed (s : Session) (e : ScriptError) : Settles (s, .failed e) [] s (.error e)
  | run {s s' : Session} {statement : Statement} {outcomes : List Outcome}
    {r : Except ScriptError Unit} (h : House) (o : Outcome)
    (hrest : Settles (s.afterRun h statement o).2 outcomes s' r) :
    Settles (s, .run statement) (o :: outcomes) s' r

/-- What a session is between two inputs. One for a script is used up to its first error. -/
inductive Reached (mode : Mode) (scope : ScopeId) : Session → Prop
  | start : Reached mode scope (.start mode scope)
  | input {s s' : Session} {outcomes : List Outcome} {r : Except ScriptError Unit} (h : House)
    (i : Input) (hs : Reached mode scope s) (hsettles : Settles (s.take h i).2 outcomes s' r)
    (hgo : mode = .interactive ∨ r = .ok ()) : Reached mode scope s'

/-- A session is as a new one but for the number of the last line, and says what a new one says, up
to the numbers of lines. -/
structure Renewed (mode : Mode) (scope : ScopeId) (s : Session) : Prop where
  same : s = { start mode scope with layout := ⟨[], s.layout.line⟩ }
  converse : ∀ cues cues' : List (House × Cue),
    List.Forall₂ (fun c d => c.1.Alike d.1 ∧ c.2.unlined = d.2.unlined) cues cues' →
      List.Forall₂ Turn.Same (s.converse none cues) ((start mode scope).converse none cues')

variable {mode : Mode} {scope : ScopeId} {s s' : Session}

/-- A session that was reset is as a new one. -/
theorem renewed_reset (s : Session) : s.reset.Renewed s.mode s.scope :=
  ⟨rfl, fun _ _ hcues => converse_same rfl rfl hcues⟩

theorem InStep.start (mode : Mode) (scope : ScopeId) : (start mode scope).InStep :=
  ⟨rfl, rfl, List.pairwise_singleton .., rfl, .inl rfl, rfl, rfl⟩

/-- A session that was reset is in step. -/
theorem InStep.reset (s : Session) : s.reset.InStep :=
  ⟨rfl, rfl, List.pairwise_singleton .., rfl, .inl rfl, rfl, rfl⟩

/-- The mark that an input ends with. -/
def finalMark : Input → MarkKind
  | .line _ => .newline
  | .finish => .finish

/-- A session in step that gets marks is in the middle of them. -/
theorem InStep.midway (hs : s.InStep) {l : Layout} {marks : List Mark} {final : MarkKind}
    (hfed : s.layout.Fed l marks final) (hends : final = .newline ∨ final = .finish)
    (hplace : marks = [] → final = .newline) (hclosed : final = .finish → l.inner = []) :
    Midway final { s with layout := l, marks } where
  levels := by
    have hlevels : s.outline.depth = s.layout.inner.length := by
      simpa [Layout.widths] using hs.levels
    rw [hlevels]
    exact hfed.levels
  oneWay := hfed.oneWay
  blocks := by
    have hinline : s.outline.place.inline = 0 := by
      obtain h | ⟨words, h⟩ := hs.place <;> rw [h] <;> rfl
    have hblocks : s.blocks.length = s.outline.depth := hs.blocks
    rw [hs.actions, hinline]
    exact hblocks
  paired := by rw [hs.actions]; exact .inl rfl
  widths := hfed.widths hs.widths
  ends := hends
  last := hfed.last
  place h := hs.place.imp id fun hdue => ⟨hplace h, hdue⟩
  closed := hclosed

/-- A session in the middle of an input with nothing left of it is in step again. -/
theorem Midway.inStep {final : MarkKind} (hs : s.Midway final) (hactions : s.actions = [])
    (hmarks : s.marks = []) : s.InStep := by
  have hlevels := hs.levels
  have hblocks := hs.blocks
  have hplace := hs.place hmarks
  have hinline : s.outline.place.inline = 0 := by
    obtain h | ⟨-, words, h⟩ := hplace <;> rw [h] <;> rfl
  rw [hmarks] at hlevels
  rw [hactions, hinline] at hblocks
  exact {
    blocks := hblocks
    levels := by simpa [Layout.widths] using hlevels
    widths := hs.widths
    outermost := rfl
    place := hplace.imp id And.right
    marks := hmarks
    actions := hactions }

/-- At the end of the text nothing is left of a session that is to be dropped. -/
theorem Midway.eq_reset (hs : s.Midway .finish) (hactions : s.actions = [])
    (hmarks : s.marks = []) : s = s.reset := by
  have hin := hs.inStep hactions hmarks
  have hinner : s.layout.inner = [] := hs.closed rfl
  have hplace : s.outline.place = .betweenLines :=
    (hs.place hmarks).resolve_right fun h => nomatch h.1
  have hlevels : s.outline.depth = 0 := by simpa [Layout.widths, hinner] using hin.levels
  have hblocks : s.blocks = [] := List.length_eq_zero_iff.mp (hin.blocks.trans hlevels)
  obtain ⟨mode, scope, ⟨inner, line⟩, ⟨place, depth⟩, blocks, actions, marks⟩ := s
  dsimp only at hactions hmarks hinner hplace hlevels hblocks
  subst hactions hmarks hinner hplace hlevels hblocks
  rfl

/-- What an input leaves of a session that is as `s` if it is reset. -/
structure Settled (final : MarkKind) (s : Session) (outcomes : List Outcome) (s' : Session)
    (r : Except ScriptError Unit) : Prop where
  ok : r = .ok () → s'.InStep ∧ s'.reset = s.reset ∧ (final = .finish → s' = s.reset)
  error : ∀ e, r = .error e → s.mode = .interactive → s' = s.reset
  fault : ∀ line, r = .error (.malformed line .closeWithoutBlock) →
    .error (.malformed line .closeWithoutBlock) ∈ outcomes

/-- An input that halts once settles in step. -/
theorem Settles.settled {final : MarkKind} {x : Session × Progress} {outcomes : List Outcome}
    {r : Except ScriptError Unit} (hsettles : Settles x outcomes s' r) (hx : s.Halts final x) :
    Settled final s outcomes s' r := by
  induction hsettles generalizing s with
  | ready v =>
    obtain ⟨hgo, hv, hactions, hmarks⟩ := hx
    have hreset := reset_eq_of_reflTransGen hgo
    refine ⟨fun _ => ⟨hv.inStep hactions hmarks, hreset, ?_⟩, nofun, nofun⟩
    rintro rfl
    exact (hv.eq_reset hactions hmarks).trans hreset
  | failed v e =>
    exact ⟨nofun, fun _ _ => hx.2, fun line h => absurd (Except.error.inj h) (hx.1 line)⟩
  | @run v s' statement outcomes r h o hrest ih =>
    obtain ⟨hgo, hv⟩ := hx
    have hreset := reset_eq_of_reflTransGen hgo
    cases o with
    | ok flow =>
      have hrounds : 3 * v.marks.length + v.actions.length < v.rounds := Nat.lt_succ_self _
      have hsettled := ih (advance_halts h hv hrounds)
      refine ⟨fun hr => ?_, fun e he hmode => ?_, fun line he => ?_⟩
      · obtain ⟨hin, hsame, hfinal⟩ := hsettled.ok hr
        exact ⟨hin, hsame.trans hreset, fun h => (hfinal h).trans hreset⟩
      · exact (hsettled.error e he ((mode_eq_of_reset hreset).trans hmode)).trans hreset
      · exact List.mem_cons_of_mem _ (hsettled.fault line he)
    | error e =>
      simp only [afterRun, fail_eq] at hrest
      cases hrest
      refine ⟨nofun, fun _ _ hmode => ?_, fun line he => ?_⟩
      · rw [if_pos ((mode_eq_of_reset hreset).trans hmode)]
        exact hreset
      · have he := ScriptError.eq_of_atLineOnce
          (ScriptError.eq_of_atLineOnce (Except.error.inj he))
        exact he ▸ List.mem_cons_self

/-- A session in step that is given an input is in the middle of it. -/
theorem InStep.given_midway (hs : s.InStep) {i : Input} {v : Session} (hi : s.given i = some v) :
    v.Midway (finalMark i) := by
  cases i with
  | line text =>
    simp only [given] at hi
    split at hi
    · next layout marks hfeed =>
      obtain rfl := Option.some.inj hi
      exact hs.midway (Layout.fed_of_feed hfeed) (.inl rfl) (fun _ => rfl) nofun
    · cases hi
  | finish =>
    obtain rfl := Option.some.inj hi
    refine hs.midway (Layout.fed_of_close _) (.inr rfl) (fun h => ?_) fun _ => rfl
    simp [Layout.close] at h

/-- An input to a session in step settles; the session keeps its mode and its scope. -/
theorem InStep.take_settled (hs : s.InStep) {h : House} {i : Input} {outcomes : List Outcome}
    {r : Except ScriptError Unit} (hsettles : Settles (s.take h i).2 outcomes s' r) :
    ∃ v : Session, v.mode = s.mode ∧ v.scope = s.scope ∧
      Settled (finalMark i) v outcomes s' r := by
  have hgiven {v : Session} (hv : s.given i = some v)
      (hsettles : Settles (v.resume h).2 outcomes s' r) : Settled (finalMark i) v outcomes s' r :=
    hsettles.settled (advance_halts h (hs.given_midway hv) (Nat.lt_succ_self _))
  cases i with
  | line text =>
    simp only [take, feed] at hsettles
    simp only [given] at hgiven
    split at hsettles
    · next layout marks hfeed =>
      rw [hfeed] at hgiven
      exact ⟨{ s with layout, marks }, rfl, rfl, hgiven rfl hsettles⟩
    · next layout fault hfeed =>
      refine ⟨{ s with layout }, rfl, rfl, hsettles.settled (halts_fail rfl fun line h => ?_)⟩
      exact Layout.feed_fault hfeed (ScriptError.malformed.inj h).2
  | finish =>
    exact ⟨{ s with layout := s.layout.close.1, marks := s.layout.close.2 }, rfl, rfl,
      hgiven rfl hsettles⟩

/-- A session between two inputs is in step. -/
theorem Reached.inStep (hs : Reached mode scope s) :
    s.InStep ∧ s.mode = mode ∧ s.scope = scope := by
  induction hs with
  | start => exact ⟨.start mode scope, rfl, rfl⟩
  | @input s s' outcomes r h i _ hsettles hgo ih =>
    obtain ⟨hin, hmode, hscope⟩ := ih
    obtain ⟨v, hv, hv', hsettled⟩ := hin.take_settled hsettles
    have hkept (hreset : s'.reset = v.reset) : s'.mode = mode ∧ s'.scope = scope :=
      ⟨(congrArg Session.mode hreset :).trans (hv.trans hmode),
        (congrArg Session.scope hreset :).trans (hv'.trans hscope)⟩
    cases r with
    | ok _ =>
      obtain ⟨hin', hreset, -⟩ := hsettled.ok rfl
      exact ⟨hin', hkept hreset⟩
    | error e =>
      have hinteractive : mode = .interactive := hgo.resolve_right nofun
      obtain rfl := hsettled.error e rfl ((hv.trans hmode).trans hinteractive)
      exact ⟨.reset v, hkept rfl⟩

/-- Between two inputs the stacks of a session are in step. In the course of the next input nothing
is closed that is not open, so the fault of that is none of an input unless it is that of a run. An
interactive session is as a new one after every input that ends with an error, and any session is
after the end of the text if that ends without one. -/
theorem in_step_and_renewed (hs : Reached mode scope s) :
    s.InStep ∧
      (∀ i v w, s.given i = some v → Relation.ReflTransGen Goes v w → w.ClosesOpen) ∧
      ∀ h i outcomes s' r, Settles (s.take h i).2 outcomes s' r →
        (∀ line, r = .error (.malformed line .closeWithoutBlock) →
          .error (.malformed line .closeWithoutBlock) ∈ outcomes) ∧
        ((∃ e, r = .error e) ∧ mode = .interactive ∨ r = .ok () ∧ i = .finish →
          s'.Renewed mode scope) := by
  obtain ⟨hin, rfl, rfl⟩ := hs.inStep
  refine ⟨hin, fun i v w hgiven hgo => ?_, fun h i outcomes s' r hsettles => ?_⟩
  · have hw : w.Midway (finalMark i) := by
      induction hgo with
      | refl => exact hin.given_midway hgiven
      | tail _ hgo ih => exact hgo.midway ih
    refine ⟨fun mark marks hmarks hkind => ?_, fun line actions => hw.blocks_ne_nil⟩
    exact hw.depth_ne_zero hmarks (beq_iff_eq.mpr hkind)
  · obtain ⟨v, hmode, hscope, hsettled⟩ := hin.take_settled hsettles
    refine ⟨hsettled.fault, fun hend => ?_⟩
    have hs' : s' = v.reset := by
      rcases hend with ⟨⟨e, he⟩, hinteractive⟩ | ⟨hr, rfl⟩
      · exact hsettled.error e he (hmode.trans hinteractive)
      · exact (hsettled.ok hr).2.2 rfl
    rw [hs', ← hmode, ← hscope]
    exact renewed_reset v

/-- A line with a colon alone ends with an error; after it an interactive session is as a new one,
and in step. -/
theorem in_step_and_renewed_colon :
    ∃ s' e, Settles ((start .interactive ⟨0⟩).take (.empty .standard ⟨0⟩) (.line ":")).2 [] s'
        (.error e) ∧
      s'.Renewed .interactive ⟨0⟩ ∧ s'.InStep := by
  have hmarks : Layout.start.feed ":" = (⟨[], 1⟩, .ok [⟨.colon, 1⟩, ⟨.newline, 1⟩]) := by
    decide +kernel
  have htake : ((start .interactive ⟨0⟩).take (.empty .standard ⟨0⟩) (.line ":")).2 =
      ({ start .interactive ⟨0⟩ with layout := ⟨[], 1⟩ },
        .failed (.malformed 1 .colonWithoutStatement)) := by
    simp only [take, feed, start, hmarks]
    rfl
  have hsettles := htake ▸ Settles.failed { start .interactive ⟨0⟩ with layout := ⟨[], 1⟩ }
    (.malformed 1 .colonWithoutStatement)
  refine ⟨_, _, hsettles, ?_, ?_⟩
  · exact ((in_step_and_renewed .start).2.2 _ _ _ _ _ hsettles).2 (.inl ⟨⟨_, rfl⟩, rfl⟩)
  · exact (in_step_and_renewed (.input _ _ .start hsettles (.inl rfl))).1

end Session

end Hearth
