import Hearth.Proofs.Script.Blocks

/-!
# The line that a statement stands on

The words of a statement stand on one line of the text. The action that they complete has the number
of the line that is read then. That is the line of the words, unless the statement ends with its
colon and the block stands on the lines below: only the first deeper one tells that the block
begins.

## Main definitions

* `Script.lexemesOf`, `Script.LineHas` : the lexemes of a line of a text.
* `Script.Stands` : the line of the words of a statement, and the number that its action has.
* `Script.Reading` : a line that is being read, and what is left of it.
* `Script.Pends` : actions that are still to be taken, and whether their blocks stand on the line
  that is read.

## Main results

* `Script.reading_of_feed`, `Script.reading_of_close` : a line, and the end of the text, are read
  from their start.
* `Script.Reading.feed` : a mark that is read completes such actions.
-/

namespace Hearth.Script

/-! ### Lines of a text -/

/-- The lexemes of a line. A line of blanks, perhaps with a comment, has none. -/
def lexemesOf (text : String) : Except Fault (List Lexeme) :=
  let body := (Layout.indentation 0
    (Text.dropEndWhile (fun c => c == '\n' || c == '\r') text).toList).2
  if body.isEmpty || body.head? == some '#' then .ok [] else Lexeme.ofChars 0 body

/-- The line of a text with a number, counted from one, has lexemes. -/
def LineHas (lines : List String) (line : Nat) (ls : List Lexeme) : Prop :=
  ∃ n text, line = n + 1 ∧ lines[n]? = some text ∧ lexemesOf text = .ok ls

theorem LineHas.unique {lines : List String} {line : Nat} {ls ls' : List Lexeme}
    (h : LineHas lines line ls) (h' : LineHas lines line ls') : ls = ls' := by
  obtain ⟨n, text, rfl, htext, hls⟩ := h
  obtain ⟨n', text', hn, htext', hls'⟩ := h'
  obtain rfl := Nat.succ.inj hn
  obtain rfl := Option.some.inj (htext.symm.trans htext')
  exact Except.ok.inj (hls.symm.trans hls')

/-- The words of a statement are on a line: alone, before a block that begins on the line as well,
or as such a block. -/
inductive Here (lines : List String) (words : Name) (line : Nat) : Prop
  | alone (h : LineHas lines line (lexemes words))
  | before {block : List Lexeme} (hne : block ≠ [])
    (h : LineHas lines line (lexemes words ++ .colon :: block))
  | behind {parent : Name} (h : LineHas lines line (lexemes parent ++ .colon :: lexemes words))

/-- The words of a statement are on a line that ends with their colon, which is the last line above
another one that has lexemes. -/
structure Above (lines : List String) (words : Name) (written line : Nat) : Prop where
  header : LineHas lines written (lexemes words ++ [.colon])
  lt : written < line
  blank : ∀ n, written < n → n < line → LineHas lines n []

/-- The words of a statement stand on a line of the text, and its action has a number. -/
inductive Stands (lines : List String) (words : Name) : Nat → Nat → Prop
  | here {line : Nat} (h : Here lines words line) : Stands lines words line line
  | above {written line : Nat} (h : Above lines words written line) :
    Stands lines words written line

variable {lines : List String} {line : Nat} {words : Name}

/-- A line without lexemes leaves the words above it above the next one. -/
theorem Above.succ {written : Nat} (h : Above lines words written line)
    (hblank : LineHas lines line []) : Above lines words written (line + 1) := by
  refine ⟨h.header, Nat.lt_succ_of_lt h.lt, fun n hlt hle => ?_⟩
  rcases Nat.lt_succ_iff_lt_or_eq.mp hle with hlt' | rfl
  · exact h.blank n hlt hlt'
  · exact hblank

/-! ### Reading a line -/

/-- Marks of one line. -/
def marksOf (line : Nat) (kinds : List MarkKind) : List Mark := kinds.map fun kind => ⟨kind, line⟩

/-- The marks of lexemes, up to the end of the line. -/
def lexemeKinds (ls : List Lexeme) : List MarkKind := ls.map Layout.markKind ++ [.newline]

/-- What is left to be read of a line, or of the end of the text: the place in the outline, and the
marks. Words that were read are those of a statement on the line, or, while their block is due,
above it. -/
inductive Reading (lines : List String) (line : Nat) : Place → List Mark → Prop
  | starts {levels : List MarkKind} {ls : List Lexeme}
    (hlevels : ∀ kind ∈ levels, kind = .indent ∨ kind = .dedent) (h : LineHas lines line ls) :
    Reading lines line .betweenLines (marksOf line (levels ++ lexemeKinds ls))
  | due {words : Name} {written : Nat} {levels : List MarkKind} {ls : List Lexeme}
    (habove : Above lines words written line)
    (hlevels : ∀ kind ∈ levels, kind = .indent ∨ kind = .dedent) (h : LineHas lines line ls) :
    Reading lines line (.blockDue words) (marksOf line (levels ++ lexemeKinds ls))
  | words {words : Name} {ls : List Lexeme} (h : LineHas lines line (lexemes words ++ ls)) :
    Reading lines line (.inWords words) (marksOf line (lexemeKinds ls))
  | colon {words : Name} {ls : List Lexeme}
    (h : LineHas lines line (lexemes words ++ .colon :: ls)) :
    Reading lines line (.afterColon words) (marksOf line (lexemeKinds ls))
  | inline {parent words : Name} {ls : List Lexeme}
    (h : LineHas lines line (lexemes parent ++ .colon :: (lexemes words ++ ls))) :
    Reading lines line (.inInline words) (marksOf line (lexemeKinds ls))
  | passed : Reading lines line .betweenLines []
  | header {words : Name} {written : Nat} (h : Above lines words written (line + 1)) :
    Reading lines line (.blockDue words) []
  | ends {place : Place} (n : Nat)
    (hplace : place = .betweenLines ∨ ∃ words, place = .blockDue words) :
    Reading lines line place (marksOf line (List.replicate n .dedent ++ [.finish]))

theorem lexemes_concat (words : Name) (w : Token) (ls : List Lexeme) :
    lexemes (words ++ [w]) ++ ls = lexemes words ++ .word w :: ls := by
  rw [lexemes, List.map_append, List.append_assoc]
  rfl

/-- Between two lines nothing is begun, or a block is due. -/
theorem Reading.rest {place : Place} (h : Reading lines line place []) :
    place = .betweenLines ∨
      ∃ words written, place = .blockDue words ∧ Above lines words written (line + 1) := by
  generalize hms : ([] : List Mark) = marks at h
  cases h with
  | passed => exact .inl rfl
  | header h => exact .inr ⟨_, _, rfl, h⟩
  | starts | due | words | colon | inline | ends => simp [marksOf, lexemeKinds] at hms

/-- Between two lines no block is open on the line of its statement. -/
theorem Reading.inline_eq_zero {place : Place} (h : Reading lines line place []) :
    place.inline = 0 := by
  rcases h.rest with rfl | ⟨words, written, rfl, -⟩ <;> rfl

theorem line_of_feed {l l' : Layout} {text : String} {r : Except Fault (List Mark)}
    (hfeed : l.feed text = (l', r)) : l'.line = l.line + 1 :=
  (congrArg (·.1.line) hfeed).symm.trans (congrArg (·.1.line) (l.feed_eq text))

/-- A line is read from its start. -/
theorem reading_of_feed {l l' : Layout} {text : String} {marks : List Mark} {place : Place}
    (hrest : Reading lines l.line place []) (htext : lines[l.line]? = some text)
    (hfeed : l.feed text = (l', .ok marks)) : Reading lines l'.line place marks := by
  rw [Layout.feed_eq, Layout.kinds] at hfeed
  have hls {ls : List Lexeme} (h : lexemesOf text = .ok ls) : LineHas lines (l.line + 1) ls :=
    ⟨l.line, text, rfl, htext, h⟩
  rw [lexemesOf] at hls
  generalize Layout.indentation 0 _ = indented at hfeed hls
  obtain ⟨width, body⟩ := indented
  dsimp only at hfeed hls
  split at hfeed
  · next hidle =>
    rw [if_pos hidle] at hls
    obtain ⟨rfl, rfl⟩ : _ ∧ _ := by simpa [Except.map] using hfeed
    rcases hrest.rest with rfl | ⟨words, written, rfl, habove⟩
    · exact .passed
    · exact .header (habove.succ (hls rfl))
  · next hidle =>
    rw [if_neg hidle] at hls
    split at hfeed
    · simp [Except.map] at hfeed
    · cases hlexemes : Lexeme.ofChars 0 body with
      | error fault => simp [hlexemes, Except.map] at hfeed
      | ok ls =>
        rw [hlexemes] at hfeed
        obtain ⟨rfl, rfl⟩ : _ ∧ _ := by
          simpa only [Except.map, Prod.mk.injEq, Except.ok.injEq] using hfeed
        have hlevels : ∀ kind ∈ (Layout.shift width l.inner).1,
            kind = .indent ∨ kind = .dedent := by
          rw [Layout.shift]
          split
          · exact fun kind hkind => .inl (List.mem_singleton.mp hkind)
          · exact fun kind hkind => .inr (List.eq_of_mem_replicate hkind)
        rw [List.append_assoc]
        rcases hrest.rest with rfl | ⟨words, written, rfl, habove⟩
        · exact .starts hlevels (hls hlexemes)
        · exact .due habove hlevels (hls hlexemes)

/-- The end of the text is read from its start. -/
theorem reading_of_close {l : Layout} {place : Place} (hrest : Reading lines l.line place []) :
    Reading lines l.close.1.line place l.close.2 :=
  .ends _ (hrest.rest.imp_right fun ⟨words, _, hplace, _⟩ => ⟨words, hplace⟩)

/-! ### Actions -/

/-- Actions of a line that are still to be taken. Of the blocks that are open, the innermost ones
stand on the line: there are `m` of them now, and there will be `n`. -/
inductive Pends (lines : List String) (line : Nat) : Nat → Nat → List Action → Prop
  | nil (n : Nat) : Pends lines line n n []
  | simple {m n : Nat} {words : Name} {rest : List Action} (h : Here lines words line)
    (hrest : Pends lines line m n rest) : Pends lines line m n (.simple words line :: rest)
  | inline {m n : Nat} {words : Name} {rest : List Action} (h : Here lines words line)
    (hrest : Pends lines line (m + 1) n rest) : Pends lines line m n (.opened words line :: rest)
  | deeper {n written : Nat} {words : Name} {rest : List Action}
    (h : Above lines words written line) (hrest : Pends lines line 0 n rest) :
    Pends lines line 0 n (.opened words line :: rest)
  | endInline {m n : Nat} {rest : List Action} (hrest : Pends lines line m n rest) :
    Pends lines line (m + 1) n (.closed line :: rest)
  | endDeeper {n : Nat} {rest : List Action} (hrest : Pends lines line 0 n rest) :
    Pends lines line 0 n (.closed line :: rest)

namespace Pends

variable {l m n : Nat} {rest : List Action}

theorem of_nil (h : Pends lines line m n []) : m = n := by
  cases h with
  | nil => rfl

theorem of_simple (h : Pends lines line m n (.simple words l :: rest)) :
    l = line ∧ Here lines words line ∧ Pends lines line m n rest := by
  cases h with
  | simple h hrest => exact ⟨rfl, h, hrest⟩

/-- A block that begins stands on the line of its statement, or below it and all that stand on the
line are over. -/
theorem of_opened (h : Pends lines line m n (.opened words l :: rest)) :
    l = line ∧ (Here lines words line ∧ Pends lines line (m + 1) n rest ∨
      ∃ written, Above lines words written line ∧ m = 0 ∧ Pends lines line 0 n rest) := by
  cases h with
  | inline h hrest => exact ⟨rfl, .inl ⟨h, hrest⟩⟩
  | deeper h hrest => exact ⟨rfl, .inr ⟨_, h, rfl, hrest⟩⟩

/-- The innermost block ends. -/
theorem of_closed (h : Pends lines line m n (.closed l :: rest)) :
    l = line ∧ ((∃ k, m = k + 1 ∧ Pends lines line k n rest) ∨
      m = 0 ∧ Pends lines line 0 n rest) := by
  cases h with
  | endInline hrest => exact ⟨rfl, .inl ⟨_, rfl, hrest⟩⟩
  | endDeeper hrest => exact ⟨rfl, .inr ⟨rfl, hrest⟩⟩

end Pends

/-- A mark is read: what is left then, and the actions that it completes. -/
theorem Reading.feed {o o' : Outline} {mark : Mark} {marks : List Mark} {actions : List Action}
    (h : Reading lines line o.place (mark :: marks)) (hfeed : o.feed mark = (o', .ok actions)) :
    Reading lines line o'.place marks ∧
      Pends lines line o.place.inline o'.place.inline actions := by
  obtain ⟨place, depth⟩ := o
  dsimp only at h
  generalize hms : mark :: marks = ms at h
  cases h with
  | @starts levels ls hlevels h =>
    cases levels with
    | nil =>
      cases ls with
      | nil =>
        cases hms
        cases hfeed
        exact ⟨.passed, .nil 0⟩
      | cons first ls =>
        cases hms
        cases first with
        | word w =>
          cases hfeed
          have hwords : LineHas lines line (lexemes [w] ++ ls) := h
          exact ⟨.words hwords, .nil 0⟩
        | colon => cases hfeed
    | cons kind levels =>
      cases hms
      rcases hlevels kind List.mem_cons_self with rfl | rfl
      · cases hfeed
      · cases hfeed
        exact ⟨.starts (fun k hk => hlevels k (List.mem_cons_of_mem _ hk)) h,
          .endDeeper (.nil 0)⟩
  | @due words written levels ls habove hlevels h =>
    cases levels with
    | nil =>
      cases ls with
      | nil =>
        cases hms
        cases hfeed
        exact ⟨.header (habove.succ h), .nil 0⟩
      | cons first ls =>
        cases hms
        cases first <;> cases hfeed
    | cons kind levels =>
      cases hms
      rcases hlevels kind List.mem_cons_self with rfl | rfl
      · cases hfeed
        exact ⟨.starts (fun k hk => hlevels k (List.mem_cons_of_mem _ hk)) h,
          .deeper habove (.nil 0)⟩
      · cases hfeed
  | @words words ls h =>
    cases ls with
    | nil =>
      cases hms
      cases hfeed
      rw [List.append_nil] at h
      exact ⟨.passed, .simple (.alone h) (.nil 0)⟩
    | cons first ls =>
      cases hms
      cases first with
      | word w =>
        cases hfeed
        exact ⟨.words (lexemes_concat words w ls ▸ h), .nil 0⟩
      | colon =>
        cases hfeed
        exact ⟨.colon h, .nil 0⟩
  | @colon words ls h =>
    cases ls with
    | nil =>
      cases hms
      cases hfeed
      refine ⟨.header ⟨h, Nat.lt_succ_self line, fun n hlt hle => ?_⟩, .nil 0⟩
      omega
    | cons first ls =>
      cases hms
      cases first with
      | word w =>
        cases hfeed
        have hwords : LineHas lines line (lexemes words ++ .colon :: (lexemes [w] ++ ls)) := h
        exact ⟨.inline hwords, .inline (.before (List.cons_ne_nil _ _) h) (.nil 1)⟩
      | colon => cases hfeed
  | @inline parent words ls h =>
    cases ls with
    | nil =>
      cases hms
      cases hfeed
      rw [List.append_nil] at h
      exact ⟨.passed, .simple (.behind h) (.endInline (.nil 0))⟩
    | cons first ls =>
      cases hms
      cases first with
      | word w =>
        cases hfeed
        exact ⟨.inline (lexemes_concat words w ls ▸ h), .nil 1⟩
      | colon => cases hfeed
  | passed => cases hms
  | header => cases hms
  | ends n hplace =>
    cases n with
    | zero =>
      cases hms
      rcases hplace with rfl | ⟨words, rfl⟩
      · cases hfeed
        exact ⟨.passed, .nil 0⟩
      · cases hfeed
    | succ n =>
      cases hms
      rcases hplace with rfl | ⟨words, rfl⟩
      · cases hfeed
        exact ⟨.ends n (.inl rfl), .endDeeper (.nil 0)⟩
      · cases hfeed

end Hearth.Script
