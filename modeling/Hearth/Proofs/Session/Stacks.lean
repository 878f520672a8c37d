import Hearth.Proofs.Session.Lines
import Mathlib.Logic.Relation

/-!
# The stacks of a session

A session keeps three stacks: the levels of indentation, the blocks that the outline of the text
has opened, and the statements whose blocks are open. A line changes them one after the other: first
all its levels are opened and closed, then each of its marks moves the outline, then each action
that a mark completes opens or closes a block. What is still to be done of the line says how far the
stacks are apart on the way, and so they are in step again when it is done.

## Main definitions

* `Script.Layout.widths` : the levels of indentation.
* `Script.Outline.Moved` : what a mark does to the outline, and its actions to the blocks.
* `Session.Goes` : a session reads a mark or takes an action, and goes on.
* `Session.Midway` : how far the stacks are apart in the middle of a line.
* `Session.Halts` : how interpreting halts.

## Main results

* `Session.Goes.midway` : a session that goes on stays so.
* `Session.advance_halts` : interpreting halts, and never by closing what is not open.
-/

namespace Hearth

/-! ### Levels -/

namespace Script

/-- Does a mark open a level? -/
def Mark.isIndent (m : Mark) : Bool := m.kind == .indent

/-- Does a mark close a level? -/
def Mark.isDedent (m : Mark) : Bool := m.kind == .dedent

namespace Layout

/-- The widths of the levels of indentation, the outermost one first. -/
def widths (l : Layout) : List Nat := 0 :: l.inner.reverse

/-- Levels that are closed are the innermost ones. -/
theorem closeTo_eq (width : Nat) (ws : List Nat) :
    (closeTo width ws).2 <:+ ws ∧
      (closeTo width ws).1 + (closeTo width ws).2.length = ws.length := by
  induction ws with
  | nil => exact ⟨List.suffix_rfl, rfl⟩
  | cons w ws ih =>
    rw [closeTo]
    split
    · exact ⟨ih.1.trans (List.suffix_cons ..), by simp only [List.length_cons]; omega⟩
    · exact ⟨List.suffix_rfl, Nat.zero_add _⟩

/-- The levels are wider and wider, read from the innermost one. -/
theorem widths_increasing {l : Layout} :
    l.widths.Pairwise (· < ·) ↔ (l.inner ++ [0]).Pairwise (· > ·) := by
  have hrev : l.widths = (l.inner ++ [0]).reverse := by
    rw [List.reverse_append]
    rfl
  rw [hrev, List.pairwise_reverse]

/-- A level that is opened is wider than those around it. -/
theorem pairwise_push {w : Nat} {ws : List Nat} (h : (ws ++ [0]).Pairwise (· > ·))
    (hw : top ws < w) : (w :: ws ++ [0]).Pairwise (· > ·) := by
  refine List.pairwise_cons.mpr ⟨fun x hx => ?_, h⟩
  cases ws with
  | nil =>
    obtain rfl : x = 0 := by simpa using hx
    exact hw
  | cons v ws =>
    have hv : v < w := hw
    rcases List.mem_cons.mp hx with rfl | hx
    · exact hv
    · exact Nat.lt_trans ((List.pairwise_cons.mp h).1 x hx) hv

/-- What a line leaves of the levels, and what it says of them in its marks: it opens or closes
levels, but not both. A line that leaves marks ends with that of its end. -/
structure Fed (l l' : Layout) (marks : List Mark) (last : MarkKind) : Prop where
  levels : l.inner.length + marks.countP Mark.isIndent =
    l'.inner.length + marks.countP Mark.isDedent
  oneWay : marks.countP Mark.isIndent = 0 ∨ marks.countP Mark.isDedent = 0
  last : ∀ m ∈ marks.getLast?, m.kind = last
  widths : l.widths.Pairwise (· < ·) → l'.widths.Pairwise (· < ·)

/-- The marks of a line: those of its levels, those of its words and colons, and that of its end. -/
theorem Fed.of_levels {l l' : Layout} {levels : List MarkKind} {lexemes : List Lexeme} {line : Nat}
    (hlevels : l.inner.length + levels.countP (· == .indent) =
      l'.inner.length + levels.countP (· == .dedent))
    (hway : levels.countP (· == .indent) = 0 ∨ levels.countP (· == .dedent) = 0)
    (hwidths : l.widths.Pairwise (· < ·) → l'.widths.Pairwise (· < ·)) :
    l.Fed l' ((levels ++ lexemes.map markKind ++ [MarkKind.newline]).map fun kind => ⟨kind, line⟩)
      .newline := by
  have hnone (k : MarkKind) (hk : k = .indent ∨ k = .dedent) :
      (lexemes.map markKind).countP (· == k) = 0 := by
    rw [List.countP_eq_zero]
    intro x hx
    obtain ⟨lexeme, -, rfl⟩ := List.mem_map.mp hx
    rcases hk with rfl | rfl <;> cases lexeme <;> exact nofun
  have hcount (k : MarkKind) (hk : k = .indent ∨ k = .dedent) :
      (levels ++ lexemes.map markKind ++ [MarkKind.newline]).countP (· == k) =
        levels.countP (· == k) := by
    rw [List.countP_append, List.countP_append, hnone k hk]
    rcases hk with rfl | rfl <;> rfl
  have hindent := hcount .indent (.inl rfl)
  have hdedent := hcount .dedent (.inr rfl)
  refine ⟨?_, ?_, ?_, hwidths⟩
  · rw [List.countP_map, List.countP_map]
    change _ + List.countP (· == MarkKind.indent) _ = _ + List.countP (· == MarkKind.dedent) _
    rw [hindent, hdedent, hlevels]
  · rw [List.countP_map, List.countP_map]
    change List.countP (· == MarkKind.indent) _ = 0 ∨ List.countP (· == MarkKind.dedent) _ = 0
    rw [hindent, hdedent]
    exact hway
  · simp

/-- The levels that a line opens or closes, and those that are open after it. -/
def shift (width : Nat) (inner : List Nat) : List MarkKind × List Nat :=
  if top inner < width then ([.indent], width :: inner)
  else (List.replicate (closeTo width inner).1 .dedent, (closeTo width inner).2)

/-- What a line does, whatever its number is: the levels that are open after it, and the kinds of
its marks. -/
def kinds (inner : List Nat) (text : String) : List Nat × Except Fault (List MarkKind) :=
  let (width, body) :=
    indentation 0 (Text.dropEndWhile (fun c => c == '\n' || c == '\r') text).toList
  if body.isEmpty || body.head? == some '#' then (inner, .ok [])
  else if width != top (shift width inner).2 then ((shift width inner).2, .error .unmatchedIndent)
  else
    ((shift width inner).2, (Lexeme.ofChars 0 body).map fun lexemes =>
      (shift width inner).1 ++ lexemes.map markKind ++ [.newline])

/-- A line gets its number, and does what it does whatever its number is. -/
theorem feed_eq (l : Layout) (text : String) :
    l.feed text =
      (⟨(kinds l.inner text).1, l.line + 1⟩,
        (kinds l.inner text).2.map fun ks => ks.map fun kind => ⟨kind, l.line + 1⟩) := by
  dsimp only [feed, kinds]
  generalize indentation 0 _ = indented
  obtain ⟨width, body⟩ := indented
  have hshift : (if top l.inner < width then ([MarkKind.indent], width :: l.inner)
      else (List.replicate (closeTo width l.inner).1 MarkKind.dedent, (closeTo width l.inner).2)) =
        shift width l.inner := rfl
  dsimp only
  rw [hshift]
  split
  · rfl
  · split
    · rfl
    · cases Lexeme.ofChars 0 body <;> rfl

/-- The levels that a line opens or closes are those that are open after it and were not before, or
were and are not. -/
theorem shift_levels (width : Nat) (inner : List Nat) :
    inner.length + (shift width inner).1.countP (· == .indent) =
        (shift width inner).2.length + (shift width inner).1.countP (· == .dedent) ∧
      ((shift width inner).1.countP (· == .indent) = 0 ∨
        (shift width inner).1.countP (· == .dedent) = 0) := by
  rw [shift]
  split
  · exact ⟨rfl, .inr rfl⟩
  · have hlength := (closeTo_eq width inner).2
    refine ⟨?_, .inl ?_⟩
    · simp [List.countP_replicate]
      omega
    · simp [List.countP_replicate]

/-- The levels stay wider and wider. -/
theorem shift_increasing {width : Nat} {inner : List Nat}
    (h : (inner ++ [0]).Pairwise (· > ·)) : ((shift width inner).2 ++ [0]).Pairwise (· > ·) := by
  rw [shift]
  split
  · next hw => exact pairwise_push h hw
  · exact h.sublist ((closeTo_eq width inner).1.sublist.append (.refl _))

theorem fed_of_feed {l l' : Layout} {text : String} {marks : List Mark}
    (h : l.feed text = (l', .ok marks)) : l.Fed l' marks .newline := by
  rw [feed_eq, kinds] at h
  generalize indentation 0 _ = indented at h
  obtain ⟨width, body⟩ := indented
  dsimp only at h
  split at h
  · obtain ⟨rfl, rfl⟩ : _ ∧ _ := by simpa [Except.map] using h
    exact ⟨rfl, .inl rfl, by simp, id⟩
  · split at h
    · simp [Except.map] at h
    · cases hlexemes : Lexeme.ofChars 0 body with
      | error fault => simp [hlexemes, Except.map] at h
      | ok lexemes =>
        rw [hlexemes] at h
        obtain ⟨rfl, rfl⟩ : _ ∧ _ := by
          simpa only [Except.map, Prod.mk.injEq, Except.ok.injEq] using h
        obtain ⟨hlevels, hway⟩ := shift_levels width l.inner
        refine .of_levels hlevels hway fun hl => ?_
        rw [widths_increasing] at hl ⊢
        exact shift_increasing hl

theorem fed_of_close (l : Layout) : l.Fed l.close.1 l.close.2 .finish := by
  refine ⟨?_, .inl ?_, ?_, fun _ => ?_⟩
  · simp [close, Mark.isIndent, Mark.isDedent, List.countP_replicate]
  · simp [close, Mark.isIndent, List.countP_replicate]
  · simp [close]
  · exact List.pairwise_singleton ..

end Layout

/-- The only fault of lexemes is input that starts none. -/
theorem Lexeme.ofChars_fault {column : Nat} {cs : List Char} {fault : Fault}
    (h : ofChars column cs = .error fault) : fault ≠ .closeWithoutBlock := by
  fun_induction ofChars column cs with
  | case1 => simp at h
  | case2 column c cs hgap ih => exact ih h
  | case3 column c cs hgap piece hscan =>
    obtain rfl : _ = fault := by simpa using h
    exact nofun
  | case4 column c cs hgap piece rest hscan taken hlength inner hinner ih =>
    obtain rfl : inner = fault := by simpa using h
    exact ih hinner
  | case5 | case6 => simp at h

/-- No line by itself closes a block that is not open. -/
theorem Layout.feed_fault {l l' : Layout} {text : String} {fault : Fault}
    (h : l.feed text = (l', .error fault)) : fault ≠ .closeWithoutBlock := by
  rw [feed_eq, kinds] at h
  generalize indentation 0 _ = indented at h
  obtain ⟨width, body⟩ := indented
  dsimp only at h
  split at h
  · simp [Except.map] at h
  · split at h
    · obtain ⟨-, rfl⟩ : _ ∧ _ := by
        simpa only [Except.map, Prod.mk.injEq, Except.error.injEq] using h
      exact nofun
    · cases hlexemes : Lexeme.ofChars 0 body with
      | ok lexemes => simp [hlexemes, Except.map] at h
      | error inner =>
        rw [hlexemes] at h
        obtain ⟨-, rfl⟩ : _ ∧ _ := by
          simpa only [Except.map, Prod.mk.injEq, Except.error.injEq] using h
        exact Lexeme.ofChars_fault hlexemes

/-! ### Blocks -/

/-- Does an action open a block? -/
def Action.isOpened : Action → Bool
  | .opened .. => true
  | _ => false

/-- Does an action close a block? -/
def Action.isClosed : Action → Bool
  | .closed _ => true
  | _ => false

namespace Place

/-- The number of blocks open on the line of their statement. -/
def inline : Place → Nat
  | .inInline _ => 1
  | _ => 0

/-- A place between two lines. The text can only end where no block is due. -/
def IsRest (last : MarkKind) (p : Place) : Prop :=
  p = .betweenLines ∨ last = .newline ∧ ∃ words, p = .blockDue words

end Place

namespace Outline

/-- What a mark changes in the outline, and what its actions do to the blocks: the outline has one
block more for each that they open and one less for each that they close. They open blocks or close
them, but not both. -/
structure Moved (o o' : Outline) (mark : Mark) (actions : List Action) : Prop where
  levels : o.depth + [mark].countP Mark.isIndent = o'.depth + [mark].countP Mark.isDedent
  blocks : o.depth + o.place.inline + actions.countP Action.isOpened =
    o'.depth + o'.place.inline + actions.countP Action.isClosed
  oneWay : actions.countP Action.isOpened = 0 ∨ actions.countP Action.isClosed = 0
  length : actions.length ≤ 2
  place : mark.kind = .newline ∨ mark.kind = .finish → o'.place.IsRest mark.kind

theorem moved_of_feed {o o' : Outline} {mark : Mark} {actions : List Action}
    (h : o.feed mark = (o', .ok actions)) (hdepth : mark.isDedent → o.depth ≠ 0) :
    o.Moved o' mark actions := by
  obtain ⟨place, depth⟩ := o
  obtain ⟨kind, line⟩ := mark
  cases place <;> cases kind <;>
    simp only [feed, Prod.mk.injEq, reduceCtorEq, and_false, Except.ok.injEq] at h
  case betweenLines.dedent =>
    obtain ⟨rfl, rfl⟩ := h
    obtain ⟨below, rfl⟩ := Nat.exists_eq_succ_of_ne_zero (hdepth rfl)
    exact ⟨rfl, rfl, .inl rfl, by simp, by simp⟩
  all_goals
    obtain ⟨rfl, rfl⟩ := h
    refine ⟨rfl, rfl, ?_, by simp, by simp [Place.IsRest]⟩
    first | exact .inl rfl | exact .inr rfl

/-- The faults of an outline are those of misplaced marks. -/
theorem feed_fault {o o' : Outline} {mark : Mark} {fault : Fault}
    (h : o.feed mark = (o', .error fault)) : fault ≠ .closeWithoutBlock := by
  obtain ⟨place, depth⟩ := o
  obtain ⟨kind, line⟩ := mark
  cases place <;> cases kind <;>
    simp only [feed, Prod.mk.injEq, reduceCtorEq, and_false, Except.error.injEq] at h
  all_goals
    obtain ⟨-, rfl⟩ := h
    exact nofun

end Outline

end Script

/-! ### Work in parts -/

namespace Act

variable {α β : Type}

/-- Work in two parts ends well if both do. -/
theorem runOn_bind_ok {a : Act α} {b : α → Act β} {h h' : House} {y : β} :
    (a >>= b).runOn h = (.ok y, h') ↔
      ∃ x h₁, a.runOn h = (.ok x, h₁) ∧ (b x).runOn h₁ = (.ok y, h') := by
  rw [runOn_bind]
  rcases a.runOn h with ⟨_ | x, h₁⟩
  · exact ⟨nofun, fun ⟨_, _, h, _⟩ => nomatch h⟩
  · exact ⟨fun h => ⟨x, h₁, rfl, h⟩, fun ⟨_, _, h, h'⟩ => by cases h; exact h'⟩

end Act

/-! ### A session in the middle of a line -/

namespace Session

open Script

/-- A statement that is complete leaves as many blocks open as there were. -/
theorem complete_blocks {s s' : Session} {statement : Statement} {r : Option Statement}
    {h h' : House} (hrun : (s.complete statement).runOn h = (.ok (s', r), h')) :
    ∃ blocks, s' = { s with blocks } ∧ blocks.length = s.blocks.length := by
  rw [complete] at hrun
  split at hrun
  · next hblocks =>
    cases hrun
    exact ⟨s.blocks, rfl, rfl⟩
  · next parent rest hblocks =>
    rw [hblocks]
    split at hrun
    all_goals
      obtain ⟨parent', h₁, -, hrun⟩ := Act.runOn_bind_ok.mp hrun
      cases hrun
      exact ⟨parent' :: rest, rfl, rfl⟩

/-- An action opens a block, closes one, or leaves as many open as there were. -/
theorem act_blocks {s s' : Session} {action : Action} {r : Option Statement} {h h' : House}
    (hrun : (s.act action).runOn h = (.ok (s', r), h')) :
    ∃ blocks, s' = { s with blocks } ∧
      blocks.length + [action].countP Action.isClosed =
        s.blocks.length + [action].countP Action.isOpened := by
  cases action with
  | simple words line =>
    obtain ⟨statement, h₁, -, hrun⟩ := Act.runOn_bind_ok.mp hrun
    obtain ⟨-, h₂, -, hrun⟩ := Act.runOn_bind_ok.mp hrun
    exact complete_blocks hrun
  | opened words line =>
    obtain ⟨statement, h₁, -, hrun⟩ := Act.runOn_bind_ok.mp hrun
    split at hrun
    · cases hrun
    · obtain ⟨-, h₂, -, hrun⟩ := Act.runOn_bind_ok.mp hrun
      obtain ⟨-, h₃, -, hrun⟩ := Act.runOn_bind_ok.mp hrun
      cases hrun
      exact ⟨statement :: s.blocks, rfl, rfl⟩
  | closed line =>
    rw [act] at hrun
    split at hrun
    · cases hrun
    · next statement rest hblocks =>
      obtain ⟨-, h₁, -, hrun⟩ := Act.runOn_bind_ok.mp hrun
      obtain ⟨blocks, rfl, hlength⟩ := complete_blocks hrun
      refine ⟨blocks, rfl, ?_⟩
      rw [hblocks]
      exact congrArg (· + 1) hlength

/-- A session takes an action or reads a mark, and goes on. -/
inductive Goes : Session → Session → Prop
  | act {s s' : Session} {action : Action} {actions : List Action} {r : Option Statement}
    {h h' : House} (hactions : s.actions = action :: actions)
    (hrun : (Session.act { s with actions } action).runOn h = (.ok (s', r), h')) : Goes s s'
  | read {s : Session} {mark : Mark} {marks : List Mark} {outline : Outline}
    {actions : List Action} (hactions : s.actions = []) (hmarks : s.marks = mark :: marks)
    (hfeed : s.outline.feed mark = (outline, .ok actions)) :
    Goes s { s with outline, marks, actions }

/-- A session in the middle of an input. The levels are ahead of the blocks of the outline by what
the marks that are still to be read open and close, and the outline is ahead of the statements by
what the actions that are still to be taken open and close. -/
structure Midway (final : MarkKind) (s : Session) : Prop where
  levels : s.outline.depth + s.marks.countP Mark.isIndent =
    s.layout.inner.length + s.marks.countP Mark.isDedent
  oneWay : s.marks.countP Mark.isIndent = 0 ∨ s.marks.countP Mark.isDedent = 0
  blocks : s.blocks.length + s.actions.countP Action.isOpened =
    s.outline.depth + s.outline.place.inline + s.actions.countP Action.isClosed
  paired : s.actions.countP Action.isOpened = 0 ∨ s.actions.countP Action.isClosed = 0
  widths : s.layout.widths.Pairwise (· < ·)
  ends : final = .newline ∨ final = .finish
  last : ∀ mark ∈ s.marks.getLast?, mark.kind = final
  place : s.marks = [] → s.outline.place.IsRest final
  closed : final = .finish → s.layout.inner = []

namespace Midway

variable {final : MarkKind} {s s' : Session}

/-- A mark that closes a level finds a block of the outline. -/
theorem depth_ne_zero (hs : s.Midway final) {mark : Mark} {marks : List Mark}
    (hmarks : s.marks = mark :: marks) (hmark : mark.isDedent) : s.outline.depth ≠ 0 := by
  have hlevels := hs.levels
  have hway := hs.oneWay
  rw [hmarks, List.countP_cons_of_pos hmark] at hlevels hway
  -- A line that closes levels opens none, so no block is still to come for this mark.
  omega

/-- An action that closes a block finds a statement. -/
theorem blocks_ne_nil (hs : s.Midway final) {line : Nat} {actions : List Action}
    (hactions : s.actions = .closed line :: actions) : s.blocks ≠ [] := by
  have hblocks := hs.blocks
  have hpaired := hs.paired
  have hclosed : (Action.closed line).isClosed := rfl
  rw [hactions, List.countP_cons_of_pos hclosed] at hblocks hpaired
  intro hnil
  rw [hnil] at hblocks
  simp only [List.length_nil] at hblocks
  omega

/-- Taking an action keeps the statements as far from the outline as the other actions say. -/
theorem act {action : Action} {actions : List Action} {r : Option Statement} {h h' : House}
    (hs : s.Midway final) (hactions : s.actions = action :: actions)
    (hrun : (Session.act { s with actions } action).runOn h = (.ok (s', r), h')) :
    s'.Midway final := by
  obtain ⟨blocks, rfl, hlength⟩ := act_blocks hrun
  have hcount (p : Action → Bool) : s.actions.countP p = [action].countP p + actions.countP p := by
    rw [hactions, ← List.countP_append]
    rfl
  have hblocks := hs.blocks
  have hpaired := hs.paired
  rw [hcount, hcount] at hblocks hpaired
  dsimp only at hlength
  refine { hs with blocks := ?_, paired := ?_ }
  · dsimp only
    omega
  · exact hpaired.imp Nat.eq_zero_of_add_eq_zero_left Nat.eq_zero_of_add_eq_zero_left

/-- Reading a mark keeps the outline as far from the levels as the other marks say. -/
theorem read {mark : Mark} {marks : List Mark} {outline : Outline} {actions : List Action}
    (hs : s.Midway final) (hactions : s.actions = []) (hmarks : s.marks = mark :: marks)
    (hfeed : s.outline.feed mark = (outline, .ok actions)) :
    Midway final { s with outline, marks, actions } := by
  have hmoved := Outline.moved_of_feed hfeed (hs.depth_ne_zero hmarks)
  have hcount (p : Mark → Bool) : s.marks.countP p = [mark].countP p + marks.countP p := by
    rw [hmarks, ← List.countP_append]
    rfl
  have hlevels := hs.levels
  have hway := hs.oneWay
  have hblocks := hs.blocks
  rw [hcount, hcount] at hlevels hway
  rw [hactions] at hblocks
  simp only [List.countP_nil] at hblocks
  have hmovedLevels := hmoved.levels
  have hmovedBlocks := hmoved.blocks
  refine {
    levels := ?_
    oneWay := hway.imp Nat.eq_zero_of_add_eq_zero_left Nat.eq_zero_of_add_eq_zero_left
    blocks := ?_
    paired := hmoved.oneWay
    widths := hs.widths
    ends := hs.ends
    last := ?_
    place := ?_
    closed := hs.closed }
  · dsimp only
    omega
  · dsimp only
    omega
  · intro m hm
    refine hs.last m ?_
    rw [hmarks, List.getLast?_cons, Option.mem_def.mp hm]
    rfl
  · rintro rfl
    have hkind : mark.kind = final := hs.last mark (by rw [hmarks]; rfl)
    rw [← hkind]
    exact hmoved.place (hkind ▸ hs.ends)

end Midway

/-- A session that goes on stays in the middle of its input. -/
theorem Goes.midway {final : MarkKind} {s s' : Session} (hgo : s.Goes s') (hs : s.Midway final) :
    s'.Midway final := by
  cases hgo with
  | act hactions hrun => exact hs.act hactions hrun
  | read hactions hmarks hfeed => exact hs.read hactions hmarks hfeed

/-- A session that goes on drops the same things when it is reset. -/
theorem Goes.reset_eq {s s' : Session} (hgo : s.Goes s') : s'.reset = s.reset := by
  cases hgo with
  | act hactions hrun =>
    obtain ⟨blocks, rfl, -⟩ := act_blocks hrun
    rfl
  | read => rfl

/-- A session that went on for a while drops the same things when it is reset. -/
theorem reset_eq_of_reflTransGen {s s' : Session} (hgo : Relation.ReflTransGen Goes s s') :
    s'.reset = s.reset := by
  induction hgo with
  | refl => rfl
  | tail _ hgo ih => exact hgo.reset_eq.trans ih

/-- How a session that interprets its input halts. It is ready when nothing is left of the input,
or hands out a statement on the way; otherwise it fails, but not because it closed a block that was
not open, and an interactive session is reset then. -/
def Halts (final : MarkKind) (s : Session) : Session × Progress → Prop
  | (s', .ready) =>
    Relation.ReflTransGen Goes s s' ∧ s'.Midway final ∧ s'.actions = [] ∧ s'.marks = []
  | (s', .run _) => Relation.ReflTransGen Goes s s' ∧ s'.Midway final
  | (s', .failed e) =>
    (∀ line, e ≠ .malformed line .closeWithoutBlock) ∧ (s.mode = .interactive → s' = s.reset)

/-- A session fails with the error that it is given, which gets a line if it has none, and is reset
if it is interactive. -/
theorem fail_eq (s : Session) (e : ScriptError) :
    s.fail e =
      (if s.mode = .interactive then s.reset else s, .failed (e.atLineOnce s.layout.line)) := by
  cases hmode : s.mode with
  | script => simp only [fail, hmode, reduceCtorEq, ite_false]
  | interactive => simp only [fail, hmode, ite_true]

/-- Sessions that are the same when they are reset have the same mode. -/
theorem mode_eq_of_reset {s v : Session} (h : v.reset = s.reset) : v.mode = s.mode :=
  (congrArg mode h :)

/-- A session that fails halts. -/
theorem halts_fail {final : MarkKind} {s v : Session} {e : ScriptError}
    (hreset : v.reset = s.reset) (he : ∀ line, e ≠ .malformed line .closeWithoutBlock) :
    s.Halts final (v.fail e) := by
  rw [fail_eq]
  refine ⟨fun line h => he line (ScriptError.eq_of_atLineOnce h), fun hmode => ?_⟩
  rw [if_pos ((mode_eq_of_reset hreset).trans hmode), hreset]

/-- A session that goes on halts as it does from there. -/
theorem Goes.halts {final : MarkKind} {s v : Session} {r : Session × Progress} (hgo : s.Goes v)
    (hr : v.Halts final r) : s.Halts final r := by
  obtain ⟨s', progress⟩ := r
  cases progress with
  | ready | run => exact ⟨hr.1.head hgo, hr.2⟩
  | failed e =>
    have hmode : v.mode = s.mode := mode_eq_of_reset hgo.reset_eq
    exact ⟨hr.1, fun h => (hr.2 (hmode.trans h)).trans hgo.reset_eq⟩

/-- Interpreting halts, given as many rounds as there are marks and actions: a mark takes one round,
and has at most two actions. -/
theorem advance_halts {final : MarkKind} {s : Session} {n : Nat} (h : House)
    (hs : s.Midway final) (hn : 3 * s.marks.length + s.actions.length < n) :
    s.Halts final (s.advance h n).2 := by
  induction n generalizing h s with
  | zero => omega
  | succ n ih =>
    rw [advance]
    split
    · next action actions hactions =>
      split
      · next s' statement h' hrun => exact ⟨.single (.act hactions hrun), hs.act hactions hrun⟩
      · next s' h' hrun =>
        refine (Goes.act hactions hrun).halts (ih h' (hs.act hactions hrun) ?_)
        obtain ⟨blocks, rfl, -⟩ := act_blocks hrun
        simp only [hactions, List.length_cons] at hn
        dsimp only
        omega
      · next e h' hrun =>
        -- Nothing is closed that is not open, so the error is one of a statement.
        have hopen (line : Nat) (h : action = .closed line) : s.blocks ≠ [] :=
          hs.blocks_ne_nil (h ▸ hactions)
        have hecho := (echoes_act { s with actions } action hopen (.refl h)).2
        rw [hrun] at hecho
        exact halts_fail rfl fun line => hecho.of_error line _
    · next mark marks hactions hmarks =>
      split
      · next outline actions hfeed =>
        refine (Goes.read hactions hmarks hfeed).halts
          (ih h (hs.read hactions hmarks hfeed) ?_)
        have := (Outline.moved_of_feed hfeed (hs.depth_ne_zero hmarks)).length
        simp only [hactions, hmarks, List.length_cons, List.length_nil] at hn
        dsimp only
        omega
      · next outline fault hfeed =>
        refine halts_fail rfl fun line h => ?_
        exact Outline.feed_fault hfeed (ScriptError.malformed.inj h).2
    · next hactions hmarks => exact ⟨.refl, hs, hactions, hmarks⟩

end Session

end Hearth
