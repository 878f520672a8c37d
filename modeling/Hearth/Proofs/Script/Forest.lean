import Hearth.Proofs.Basic
import Hearth.Proofs.Session.Stacks

/-!
# Forests of statements

The actions that a text completes are the steps of a walk through a forest of statements: a simple
statement is one step, a statement with a block opens it, is followed by the statements of the
block, and closes it. Each text that is read to its end without a fault is such a walk, so its
blocks are well bracketed.

## Main definitions

* `Script.Forest` : a forest of statements, with the actions of the walk through it.
* `Script.Reader` : takes a text line by line, and its end.
* `Script.depthAfter` : how many blocks are open after some actions.

## Main results

* `Script.Forest.exists_of_depthAfter` : actions that close what they open, and nothing else, are
  those of a forest.
* `Script.Reader.forest_of_readText` : so are the actions of a text.
-/

namespace Hearth.Script

/-- A forest of statements in the order of the text: nothing, a simple statement, or a statement
with a block that ends at some line; and what follows it. -/
inductive Forest where
  | nil
  | simple (words : Name) (line : Nat) (rest : Forest)
  | block (words : Name) (line : Nat) (children : Forest) (last : Nat) (rest : Forest)
  deriving Repr, DecidableEq, Inhabited

/-- The actions of the walk through a forest. -/
def Forest.actions : Forest → List Action
  | .nil => []
  | .simple words line rest => .simple words line :: rest.actions
  | .block words line children last rest =>
    .opened words line :: (children.actions ++ .closed last :: rest.actions)

/-! ### Brackets -/

/-- How many blocks are open after some actions, if `n` were open before; none if a block is closed
that is not open. -/
def depthAfter : Nat → List Action → Option Nat
  | n, [] => some n
  | n, .simple .. :: rest => depthAfter n rest
  | n, .opened .. :: rest => depthAfter (n + 1) rest
  | n + 1, .closed _ :: rest => depthAfter n rest
  | 0, .closed _ :: _ => none

theorem depthAfter_append (n : Nat) (as bs : List Action) :
    depthAfter n (as ++ bs) = (depthAfter n as).bind fun m => depthAfter m bs := by
  induction as generalizing n with
  | nil => rfl
  | cons a as ih =>
    cases a with
    | simple | opened => exact ih _
    | closed =>
      cases n with
      | zero => rfl
      | succ n => exact ih n

/-- Actions that only open blocks, or only close blocks that are open. -/
theorem depthAfter_eq {n m : Nat} {as : List Action}
    (h : n + as.countP Action.isOpened = m + as.countP Action.isClosed)
    (hway : as.countP Action.isOpened = 0 ∨ as.countP Action.isClosed = 0) :
    depthAfter n as = some m := by
  induction as generalizing n with
  | nil => exact congrArg some h
  | cons a as ih =>
    cases a with
    | simple words line => exact ih h hway
    | opened words line =>
      have hopened : (Action.opened words line).isOpened := rfl
      have hclosed : ¬ (Action.opened words line).isClosed := Bool.false_ne_true
      rw [List.countP_cons_of_pos hopened, List.countP_cons_of_neg hclosed] at h hway
      exact ih (by omega) (by omega)
    | closed line =>
      have hopened : ¬ (Action.closed line).isOpened := Bool.false_ne_true
      have hclosed : (Action.closed line).isClosed := rfl
      rw [List.countP_cons_of_neg hopened, List.countP_cons_of_pos hclosed] at h hway
      cases n with
      | zero => omega
      | succ n => exact ih (by omega) (by omega)

/-- Actions that close the given number of blocks: a forest in each of them, and one around them. -/
inductive Closes : Nat → List Action → Prop
  | none (f : Forest) : Closes 0 f.actions
  | one {n : Nat} {rest : List Action} (f : Forest) (line : Nat) (h : Closes n rest) :
    Closes (n + 1) (f.actions ++ .closed line :: rest)

namespace Closes

variable {n : Nat} {as : List Action}

theorem simple (h : Closes n as) (words : Name) (line : Nat) :
    Closes n (.simple words line :: as) := by
  cases h with
  | none f => exact .none (.simple words line f)
  | one f last h => exact .one (.simple words line f) last h

/-- A block that is opened is the first that is closed. -/
theorem opened (h : Closes (n + 1) as) (words : Name) (line : Nat) :
    Closes n (.opened words line :: as) := by
  cases h with
  | one children last h =>
    cases h with
    | none f => exact .none (.block words line children last f)
    | @one n rest f last' h =>
      have hwalk : (Forest.block words line children last f).actions ++ .closed last' :: rest =
          .opened words line ::
            (children.actions ++ .closed last :: (f.actions ++ .closed last' :: rest)) := by
        simp [Forest.actions]
      exact hwalk ▸ .one (.block words line children last f) last' h

theorem of_depthAfter (h : depthAfter n as = some 0) : Closes n as := by
  induction as generalizing n with
  | nil =>
    obtain rfl : n = 0 := Option.some.inj h
    exact .none .nil
  | cons a as ih =>
    cases a with
    | simple words line => exact (ih h).simple words line
    | opened words line => exact (ih h).opened words line
    | closed line =>
      cases n with
      | zero => cases h
      | succ n => exact .one .nil line (ih h)

end Closes

/-- Actions that close what they open, and nothing else, are those of a forest. -/
theorem Forest.exists_of_depthAfter {as : List Action} (h : depthAfter 0 as = some 0) :
    ∃ f : Forest, f.actions = as := by
  cases Closes.of_depthAfter h with
  | none f => exact ⟨f, rfl⟩

/-! ### Reading a text -/

/-- The state of reading a text between two lines. -/
structure Reader where
  layout : Layout
  outline : Outline
  deriving Repr, DecidableEq, Inhabited

namespace Reader

/-- Before the first line. -/
def start : Reader := ⟨.start, .start⟩

/-- Takes the marks of a line, or of the end of the text. -/
def take (r : Reader) (marks : List Mark) : Except Fault (Reader × List Action) :=
  match r.outline.feedAll marks with
  | (outline, actions, none) => .ok ({ r with outline }, actions)
  | (_, _, some (_, fault)) => .error fault

/-- Takes a line. -/
def takeLine (r : Reader) (text : String) : Except Fault (Reader × List Action) :=
  match r.layout.feed text with
  | (layout, .ok marks) => take { r with layout } marks
  | (_, .error fault) => .error fault

/-- Takes lines. -/
def takeLines (r : Reader) : List String → Except Fault (Reader × List Action)
  | [] => .ok (r, [])
  | text :: rest => do
    let (r, actions) ← r.takeLine text
    let (r, more) ← r.takeLines rest
    .ok (r, actions ++ more)

/-- Takes the end of the text. -/
def finish (r : Reader) : Except Fault (Reader × List Action) :=
  take { r with layout := r.layout.close.1 } r.layout.close.2

/-- The actions of a text, given by its lines, up to its end; or its first fault. -/
def readText (lines : List String) : Except Fault (List Action) := do
  let (r, actions) ← start.takeLines lines
  let (_, more) ← r.finish
  .ok (actions ++ more)

/-- Between two lines all levels are blocks, and no block is open on the line of its statement. -/
structure Rests (r : Reader) : Prop where
  levels : r.outline.depth = r.layout.inner.length
  place : r.outline.place.inline = 0

end Reader

/-- What reading the marks of a line, or of the end of a text, does to an outline: there are as many
blocks as levels then, the actions open and close the blocks that come and go, and the place is one
between two lines. -/
structure Outline.Read (o : Outline) (marks : List Mark) (last : MarkKind) (levels : Nat)
    (o' : Outline) (actions : List Action) : Prop where
  levels : o'.depth = levels
  actions : depthAfter (o.depth + o.place.inline) actions = some (o'.depth + o'.place.inline)
  place : marks ≠ [] → o'.place.IsRest last

theorem Outline.read_of_feedAll {o o' : Outline} {marks : List Mark} {actions : List Action}
    {last : MarkKind} {n : Nat} (h : o.feedAll marks = (o', actions, none))
    (hlevels : o.depth + marks.countP Mark.isIndent = n + marks.countP Mark.isDedent)
    (hway : marks.countP Mark.isIndent = 0 ∨ marks.countP Mark.isDedent = 0)
    (hends : last = .newline ∨ last = .finish) (hlast : ∀ m ∈ marks.getLast?, m.kind = last) :
    o.Read marks last n o' actions := by
  induction marks generalizing o actions with
  | nil =>
    cases h
    exact ⟨hlevels, rfl, absurd rfl⟩
  | cons mark marks ih =>
    have hcount (p : Mark → Bool) :
        (mark :: marks).countP p = [mark].countP p + marks.countP p := by
      rw [← List.countP_append, List.singleton_append]
    rw [hcount, hcount] at hlevels hway
    rw [feedAll] at h
    split at h
    · next o₁ as hfeed =>
      obtain ⟨rfl, rfl, hfault⟩ := by simpa only [Prod.mk.injEq] using h
      have hdepth : mark.isDedent → o.depth ≠ 0 := by
        intro hmark
        have hone : [mark].countP Mark.isDedent = 1 := by simp [hmark]
        omega
      have hmoved := moved_of_feed hfeed hdepth
      have hmovedLevels := hmoved.levels
      have hrest := ih (o := o₁) (Prod.ext rfl (Prod.ext rfl hfault)) (by omega)
        (hway.imp Nat.eq_zero_of_add_eq_zero_left Nat.eq_zero_of_add_eq_zero_left)
        fun m hm => hlast m (by rw [List.getLast?_cons, Option.mem_def.mp hm]; rfl)
      refine ⟨hrest.levels, ?_, fun _ => ?_⟩
      · rw [depthAfter_append, depthAfter_eq hmoved.blocks hmoved.oneWay]
        exact hrest.actions
      · by_cases hne : marks = []
        · subst hne
          have hkind : mark.kind = last := hlast mark rfl
          rw [← hkind] at hends ⊢
          exact hmoved.place hends
        · exact hrest.place hne
    · cases h

namespace Reader

variable {r r' : Reader} {lines : List String} {actions : List Action}

/-- A place between two lines is none on the line of a block. -/
theorem inline_of_isRest {last : MarkKind} {p : Place} (h : p.IsRest last) : p.inline = 0 := by
  rcases h with rfl | ⟨-, words, rfl⟩ <;> rfl

/-- Reading goes on between two lines, and its actions open and close the blocks that come and
go. -/
theorem Rests.take {layout : Layout} {marks : List Mark} {last : MarkKind} (hr : r.Rests)
    (hfed : r.layout.Fed layout marks last) (hends : last = .newline ∨ last = .finish)
    (h : Reader.take { r with layout } marks = .ok (r', actions)) :
    r'.Rests ∧ r'.layout = layout ∧
      depthAfter r.outline.depth actions = some r'.outline.depth := by
  rw [Reader.take] at h
  split at h
  · next outline as hfeed =>
    obtain ⟨rfl, rfl⟩ := Prod.mk.inj (Except.ok.inj h)
    have hlevels := hfed.levels
    rw [← hr.levels] at hlevels
    have hread := Outline.read_of_feedAll hfeed hlevels hfed.oneWay hends hfed.last
    have hplace : outline.place.inline = 0 := by
      by_cases hne : marks = []
      · subst hne
        cases hfeed
        exact hr.place
      · exact inline_of_isRest (hread.place hne)
    refine ⟨⟨hread.levels, hplace⟩, rfl, ?_⟩
    have hactions := hread.actions
    rw [hr.place, hplace] at hactions
    exact hactions
  · cases h

theorem Rests.takeLine {text : String} (hr : r.Rests)
    (h : r.takeLine text = .ok (r', actions)) :
    r'.Rests ∧ depthAfter r.outline.depth actions = some r'.outline.depth := by
  rw [Reader.takeLine] at h
  split at h
  · next layout marks hfeed =>
    obtain ⟨hrests, -, hdepth⟩ := hr.take (Layout.fed_of_feed hfeed) (.inl rfl) h
    exact ⟨hrests, hdepth⟩
  · cases h

theorem takeLines_cons {text : String} (h : r.takeLines (text :: lines) = .ok (r', actions)) :
    ∃ r₁ as more, r.takeLine text = .ok (r₁, as) ∧ r₁.takeLines lines = .ok (r', more) ∧
      actions = as ++ more := by
  obtain ⟨⟨r₁, as⟩, hline, h⟩ := exists_of_bind_eq_ok h
  obtain ⟨⟨r₂, more⟩, hrest, h⟩ := exists_of_bind_eq_ok h
  cases h
  exact ⟨r₁, as, more, hline, hrest, rfl⟩

theorem Rests.takeLines (hr : r.Rests) (h : r.takeLines lines = .ok (r', actions)) :
    r'.Rests ∧ depthAfter r.outline.depth actions = some r'.outline.depth := by
  induction lines generalizing r actions with
  | nil =>
    cases h
    exact ⟨hr, rfl⟩
  | cons text lines ih =>
    obtain ⟨r₁, as, more, hline, hrest, rfl⟩ := takeLines_cons h
    obtain ⟨hr₁, hdepth⟩ := hr.takeLine hline
    obtain ⟨hr', hdepth'⟩ := ih hr₁ hrest
    exact ⟨hr', by rw [depthAfter_append, hdepth]; exact hdepth'⟩

/-- At the end of a text all blocks are closed. -/
theorem Rests.finish (hr : r.Rests) (h : r.finish = .ok (r', actions)) :
    depthAfter r.outline.depth actions = some 0 := by
  obtain ⟨hrests, hlayout, hdepth⟩ := hr.take (Layout.fed_of_close _) (.inr rfl) h
  rw [hdepth, hrests.levels, hlayout]
  rfl

/-- The actions of a text are those of a forest. -/
theorem forest_of_readText (h : readText lines = .ok actions) :
    ∃ f : Forest, f.actions = actions := by
  obtain ⟨⟨r₁, as⟩, hlines, h⟩ := exists_of_bind_eq_ok h
  obtain ⟨⟨r₂, more⟩, hfinish, h⟩ := exists_of_bind_eq_ok h
  cases h
  have hstart : start.Rests := ⟨rfl, rfl⟩
  obtain ⟨hr, hdepth⟩ := hstart.takeLines hlines
  refine Forest.exists_of_depthAfter ?_
  have hopen : depthAfter 0 as = some r₁.outline.depth := hdepth
  rw [depthAfter_append, hopen]
  exact hr.finish hfinish

end Reader

end Hearth.Script
