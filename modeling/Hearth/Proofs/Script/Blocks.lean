import Hearth.Proofs.Script.Forest
import Hearth.Proofs.Script.Spelling

/-!
# Blocks of a text

A forest of statements can be laid out in many ways. The statements of a block are indented by one
width, which is larger than that of the statement they belong to, with any blanks that reach it; a
block of one simple statement can stand on the line of its statement; lines without a statement, and
comments, can stand anywhere. Whatever the layout is, the actions of the text are those of the walk
through the forest, because the marks of a line first close the blocks that ended before it.

## Main definitions

* `Script.IsLine`, `Script.IsIdle` : the lines with lexemes at a width, and those without any.
* `Script.Forest.Laid` : the layouts of a forest.
* `Script.Approaches` : how far reading is behind the text, before the next statement at a width.

## Main results

* `Script.Forest.Laid.reads` : reading the layout of a forest gives its actions.
* `Script.Forest.exists_laid` : each forest of numbers and texts has a layout.
* `Script.blocks_recovered` : the actions of a text are those of the forest that is laid out in it.
-/

namespace Hearth.Script

/-! ### Lines and their layout -/

/-- The width after one more blank: a tab goes on to the next multiple of eight. -/
def advance (width : Nat) (c : Char) : Nat := if c == '\t' then (width / 8 + 1) * 8 else width + 1

/-- Blanks that reach a width. -/
def Indents (blanks : List Char) (width : Nat) : Prop :=
  (∀ c ∈ blanks, isSpace c) ∧ blanks.foldl advance 0 = width

/-- A line with lexemes that is indented to a width. It may have its end, and a comment before
that. -/
def IsLine (width : Nat) (ls : List Lexeme) (text : String) : Prop :=
  ∃ blanks body ends, text.toList = blanks ++ body ++ ends ∧ Indents blanks width ∧
    SpellsLine ls body ∧ (∀ c ∈ body.head?, ¬ isSpace c) ∧ ∀ c ∈ ends, isLineEnd c

/-- A line of blanks, perhaps with a comment. -/
def IsIdle (text : String) : Prop :=
  ∃ blanks body ends, text.toList = blanks ++ body ++ ends ∧ (∀ c ∈ blanks, isSpace c) ∧
    (body = [] ∨ ∃ comment, body = '#' :: comment) ∧ ∀ c ∈ ends, isLineEnd c

/-- The lexemes of the words of a statement. -/
def lexemes (words : Name) : List Lexeme := words.map .word

namespace Forest

/-- Each statement has words, which are numbers and texts, and each block has statements. -/
def IsText : Forest → Prop
  | .nil => True
  | .simple words _ rest => words ≠ [] ∧ (∀ w ∈ words, IsWord w) ∧ rest.IsText
  | .block words _ children _ rest =>
    words ≠ [] ∧ (∀ w ∈ words, IsWord w) ∧ children ≠ .nil ∧ children.IsText ∧ rest.IsText

/-- The layouts of a forest whose statements stand at a width. -/
inductive Laid : Nat → Forest → List String → Prop
  | nil {width : Nat} : Laid width .nil []
  | idle {width : Nat} {f : Forest} {text : String} {lines : List String} (htext : IsIdle text)
    (h : Laid width f lines) : Laid width f (text :: lines)
  | simple {width : Nat} {words : Name} {line : Nat} {rest : Forest} {text : String}
    {lines : List String} (htext : IsLine width (lexemes words) text)
    (hrest : Laid width rest lines) : Laid width (.simple words line rest) (text :: lines)
  | inline {width : Nat} {words child : Name} {line childLine last : Nat} {rest : Forest}
    {text : String} {lines : List String}
    (htext : IsLine width (lexemes words ++ .colon :: lexemes child) text)
    (hrest : Laid width rest lines) :
    Laid width (.block words line (.simple child childLine .nil) last rest) (text :: lines)
  | block {width inner : Nat} {words : Name} {line last : Nat} {children rest : Forest}
    {text : String} {below lines : List String}
    (htext : IsLine width (lexemes words ++ [.colon]) text) (hinner : width < inner)
    (hchildren : Laid inner children below) (hrest : Laid width rest lines) :
    Laid width (.block words line children last rest) (text :: (below ++ lines))

end Forest

/-! ### The marks of a line -/

namespace Layout

/-- Blanks indent the text after them. -/
theorem indentation_append {blanks body : List Char} (hblanks : ∀ c ∈ blanks, isSpace c)
    (hbody : ∀ c ∈ body.head?, ¬ isSpace c ∧ c ≠ '\x0c') (width : Nat) :
    indentation width (blanks ++ body) = (blanks.foldl advance width, body) := by
  induction blanks generalizing width with
  | nil =>
    cases body with
    | nil => rfl
    | cons c body =>
      obtain ⟨hspace, hfeed⟩ := hbody c rfl
      rw [isSpace, Bool.or_eq_true, not_or, beq_iff_eq, beq_iff_eq] at hspace
      rw [List.nil_append, indentation]
      · rfl
      all_goals
        intro h
        simp_all
  | cons c blanks ih =>
    have hrest := fun w => ih (fun d hd => hblanks d (List.mem_cons_of_mem _ hd)) w
    rcases Bool.or_eq_true_iff.mp (hblanks c List.mem_cons_self) with h | h
    all_goals
      obtain rfl := beq_iff_eq.mp h
      exact hrest _

/-- A line that opens no level closes those that are wider than it. -/
theorem closeTo_append {width : Nat} {deeper levels : List Nat} (hdeeper : ∀ w ∈ deeper, width < w)
    (htop : top levels = width) : closeTo width (deeper ++ levels) = (deeper.length, levels) := by
  induction deeper with
  | nil =>
    cases levels with
    | nil => rfl
    | cons w levels =>
      obtain rfl : w = width := htop
      rw [List.nil_append, closeTo, if_neg (Nat.lt_irrefl w)]
      rfl
  | cons w deeper ih =>
    rw [List.cons_append, closeTo, if_pos (hdeeper w List.mem_cons_self),
      ih fun v hv => hdeeper v (List.mem_cons_of_mem _ hv)]
    rfl

end Layout

/-- A line without its end. -/
theorem dropEnd_eq {text : String} {kept ends : List Char} (htext : text.toList = kept ++ ends)
    (hends : ∀ c ∈ ends, isLineEnd c) :
    (Text.dropEndWhile (fun c => c == '\n' || c == '\r') text).toList =
      kept.rdropWhile isLineEnd := by
  have hdrop : (ends.reverse ++ kept.reverse).dropWhile isLineEnd =
      kept.reverse.dropWhile isLineEnd :=
    List.dropWhile_append_of_pos fun c hc => hends c (List.mem_reverse.mp hc)
  rw [Text.dropEndWhile, String.toList_ofList, htext, List.reverse_append]
  exact congrArg List.reverse hdrop

/-- The blanks before a text stay when its end is dropped. -/
theorem rdropWhile_blanks {blanks : List Char} (hblanks : ∀ c ∈ blanks, isSpace c)
    (body : List Char) :
    (blanks ++ body).rdropWhile isLineEnd = blanks ++ body.rdropWhile isLineEnd :=
  rdropWhile_append
    (fun c hc => not_isLineEnd (hblanks c (List.mem_of_getLast? hc)) (by decide)) body

/-- A line that starts with a word starts with no gap and no comment. -/
theorem SpellsLine.head {t : Token} {ls : List Lexeme} {cs : List Char}
    (h : SpellsLine (.word t :: ls) cs) (hspace : ∀ c ∈ cs.head?, ¬ isSpace c) :
    ∃ c more, cs = c :: more ∧ Lexeme.isGap c = false ∧ c ≠ '#' := by
  cases h with
  | space hc => exact absurd hc (hspace _ rfl)
  | word hw hcs h =>
    obtain ⟨c, w, rfl, hgap, hscan⟩ := hw.readAs
    refine ⟨c, _, rfl, hgap, ?_⟩
    rintro rfl
    have hcomment : Lexeme.scan '#' (w ++ []) = .ok (.comment, (w ++ []).dropWhile (· != '\n')) :=
      rfl
    cases (hscan [] nofun).symm.trans hcomment

variable {width : Nat} {text : String}

/-- The marks of a line that starts with a word are those of its levels and of its lexemes. -/
theorem IsLine.kinds {t : Token} {ls : List Lexeme} (h : IsLine width (.word t :: ls) text)
    {inner levels : List Nat} {levelKinds : List MarkKind}
    (hshift : Layout.shift width inner = (levelKinds, levels)) (htop : Layout.top levels = width) :
    Layout.kinds inner text =
      (levels, .ok (levelKinds ++ (Lexeme.word t :: ls).map Layout.markKind ++ [.newline])) := by
  obtain ⟨blanks, body, ends, htext, ⟨hblanks, hwidth⟩, hbody, hhead, hends⟩ := h
  have hspells := hbody.rdropWhile
  have hstart : ∀ c ∈ (body.rdropWhile isLineEnd).head?, ¬ isSpace c :=
    fun c hc => hhead c (mem_head?_rdropWhile hc)
  obtain ⟨c, more, hcons, hgap, hcomment⟩ := hspells.head hstart
  have hindent : Layout.indentation 0
      (Text.dropEndWhile (fun c => c == '\n' || c == '\r') text).toList = (width, c :: more) := by
    rw [dropEnd_eq htext hends, rdropWhile_blanks hblanks, ← hwidth, ← hcons]
    refine Layout.indentation_append hblanks (fun d hd => ⟨hstart d hd, ?_⟩) 0
    rintro rfl
    rw [hcons] at hd
    obtain rfl := Option.some.inj hd
    exact absurd hgap (by decide)
  have hof := hspells.ofChars 0
  rw [hcons] at hof
  have hhash : (some c == some '#') = false := beq_false_of_ne fun h => hcomment (Option.some.inj h)
  simp only [Layout.kinds, hindent, List.isEmpty_cons, List.head?_cons, hhash, Bool.or_self,
    Bool.false_eq_true, if_false, hshift, htop, bne_self_eq_false, hof, Except.map]

/-- A line without a statement leaves no marks. -/
theorem IsIdle.kinds (h : IsIdle text) (inner : List Nat) :
    Layout.kinds inner text = (inner, .ok []) := by
  obtain ⟨blanks, body, ends, htext, hblanks, hbody, hends⟩ := h
  have hstart : body.rdropWhile isLineEnd = [] ∨
      ∃ more, body.rdropWhile isLineEnd = '#' :: more := by
    rcases hbody with rfl | ⟨comment, rfl⟩
    · exact .inl rfl
    · exact .inr ⟨comment.rdropWhile isLineEnd,
        rdropWhile_append (a := ['#']) (fun c hc => Option.some.inj hc ▸ rfl) comment⟩
  have hindent : Layout.indentation 0
      (Text.dropEndWhile (fun c => c == '\n' || c == '\r') text).toList =
        (blanks.foldl advance 0, body.rdropWhile isLineEnd) := by
    rw [dropEnd_eq htext hends, rdropWhile_blanks hblanks]
    refine Layout.indentation_append hblanks (fun c hc => ?_) 0
    rcases hstart with h | ⟨more, h⟩
    · rw [h] at hc
      cases hc
    · rw [h] at hc
      obtain rfl := Option.some.inj hc
      decide
  rcases hstart with h | ⟨more, h⟩ <;> simp [Layout.kinds, hindent, h]

/-! ### The actions of marks -/

namespace Outline

/-- The outline takes marks of some kinds, which are all on one line: what becomes of it, and the
actions that are completed, without their lines. -/
def Takes (o : Outline) (kinds : List MarkKind) (o' : Outline) (actions : List Action) : Prop :=
  ∀ line, ∃ as, o.feedAll (kinds.map fun kind => ⟨kind, line⟩) = (o', as, none) ∧
    as.map Action.unlined = actions

namespace Takes

variable {o o₁ o₂ : Outline} {kinds more : List MarkKind} {as bs : List Action}

theorem nil (o : Outline) : o.Takes [] o [] := fun _ => ⟨[], rfl, rfl⟩

/-- The first mark, and the others. -/
theorem cons (as : List Action) {kind : MarkKind}
    (hfeed : ∀ line, ∃ as', o.feed ⟨kind, line⟩ = (o₁, .ok as') ∧ as'.map Action.unlined = as)
    (h : o₁.Takes more o₂ bs) : o.Takes (kind :: more) o₂ (as ++ bs) := by
  intro line
  obtain ⟨as', hfirst, rfl⟩ := hfeed line
  obtain ⟨bs', hmore, rfl⟩ := h line
  refine ⟨as' ++ bs', ?_, List.map_append⟩
  rw [List.map_cons, feedAll, hfirst]
  simp only [hmore]

theorem append (h : o.Takes kinds o₁ as) (hmore : o₁.Takes more o₂ bs) :
    o.Takes (kinds ++ more) o₂ (as ++ bs) := by
  intro line
  obtain ⟨as', hfeed, rfl⟩ := h line
  obtain ⟨bs', hfeedMore, rfl⟩ := hmore line
  refine ⟨as' ++ bs', ?_, List.map_append⟩
  clear h hmore
  rw [List.map_append]
  generalize kinds.map _ = marks at hfeed ⊢
  induction marks generalizing o as' with
  | nil =>
    cases hfeed
    exact hfeedMore
  | cons mark marks ih =>
    rw [feedAll] at hfeed
    split at hfeed
    · next o' first hfirst =>
      obtain ⟨rfl, rfl, hnone⟩ := by simpa only [Prod.mk.injEq] using hfeed
      have hrest := ih _ (Prod.ext rfl (Prod.ext rfl hnone))
      rw [List.cons_append, feedAll, hfirst]
      simp only [hrest, List.append_assoc]
    · cases hfeed

variable {depth : Nat} {words child : Name}

/-- More words of a statement, on a line of its own or on that of its block. -/
theorem moreWords {place : Name → Place} (hplace : place = .inWords ∨ place = .inInline)
    (words more : Name) :
    (Outline.mk (place words) depth).Takes ((lexemes more).map Layout.markKind)
      ⟨place (words ++ more), depth⟩ [] := by
  induction more generalizing words with
  | nil =>
    rw [List.append_nil]
    exact nil _
  | cons w more ih =>
    have hrest := ih (words ++ [w])
    rw [List.append_assoc] at hrest
    refine cons [] (fun line => ⟨[], ?_, rfl⟩) hrest
    rcases hplace with rfl | rfl <;> rfl

/-- The words of a statement at the start of a line. -/
theorem firstWords (hwords : words ≠ []) :
    (Outline.mk .betweenLines depth).Takes ((lexemes words).map Layout.markKind)
      ⟨.inWords words, depth⟩ [] := by
  obtain ⟨w, more, rfl⟩ := List.exists_cons_of_ne_nil hwords
  exact cons [] (fun _ => ⟨[], rfl, rfl⟩) (moreWords (.inl rfl) [w] more)

/-- The line of a simple statement. -/
theorem simple (hwords : words ≠ []) :
    (Outline.mk .betweenLines depth).Takes ((lexemes words).map Layout.markKind ++ [.newline])
      ⟨.betweenLines, depth⟩ [.simple words 0] :=
  (Takes.firstWords hwords).append (cons [_] (fun _ => ⟨_, rfl, rfl⟩) (nil _))

/-- The line of a statement whose block follows. -/
theorem header (hwords : words ≠ []) :
    (Outline.mk .betweenLines depth).Takes
      ((lexemes words ++ [Lexeme.colon]).map Layout.markKind ++ [.newline])
      ⟨.blockDue words, depth⟩ [] := by
  rw [List.map_append, List.append_assoc]
  exact (Takes.firstWords hwords).append
    (cons [] (fun _ => ⟨_, rfl, rfl⟩) (cons [] (fun _ => ⟨_, rfl, rfl⟩) (nil _)))

/-- The line of a statement with a block on it. -/
theorem inline (hwords : words ≠ []) (hchild : child ≠ []) :
    (Outline.mk .betweenLines depth).Takes
      ((lexemes words ++ Lexeme.colon :: lexemes child).map Layout.markKind ++ [.newline])
      ⟨.betweenLines, depth⟩ [.opened words 0, .simple child 0, .closed 0] := by
  obtain ⟨w, more, rfl⟩ := List.exists_cons_of_ne_nil hchild
  have hmore : (Outline.mk (.inInline [w]) depth).Takes ((lexemes more).map Layout.markKind)
      ⟨.inInline (w :: more), depth⟩ [] :=
    moreWords (.inr rfl) [w] more
  have hend : (Outline.mk (.inInline (w :: more)) depth).Takes [.newline] ⟨.betweenLines, depth⟩
      [.simple (w :: more) 0, .closed 0] :=
    cons [_, _] (fun _ => ⟨_, rfl, rfl⟩) (nil _)
  rw [List.map_append, List.append_assoc]
  refine (Takes.firstWords hwords).append (cons [] (fun _ => ⟨_, rfl, rfl⟩) ?_)
  exact cons [.opened words 0] (fun _ => ⟨_, rfl, rfl⟩) (hmore.append hend)

/-- The levels that a line closes. -/
theorem dedents (n depth : Nat) :
    (Outline.mk .betweenLines depth).Takes (List.replicate n .dedent) ⟨.betweenLines, depth - n⟩
      (List.replicate n (.closed 0)) := by
  induction n generalizing depth with
  | zero => exact nil _
  | succ n ih =>
    have hrest := ih (depth - 1)
    rw [Nat.sub_sub, Nat.add_comm] at hrest
    exact cons [.closed 0] (fun _ => ⟨_, rfl, rfl⟩) hrest

end Takes

end Outline

/-! ### Reading lines -/

namespace Reader

/-- Reading lines gives actions, without their lines. -/
def Reads (r : Reader) (lines : List String) (r' : Reader) (actions : List Action) : Prop :=
  ∃ as, r.takeLines lines = .ok (r', as) ∧ as.map Action.unlined = actions

namespace Reads

variable {r r₁ r₂ : Reader} {lines more : List String} {as bs : List Action}

theorem nil (r : Reader) : r.Reads [] r [] := ⟨[], rfl, rfl⟩

theorem append (h : r.Reads lines r₁ as) (hmore : r₁.Reads more r₂ bs) :
    r.Reads (lines ++ more) r₂ (as ++ bs) := by
  obtain ⟨as', htake, rfl⟩ := h
  obtain ⟨bs', htakeMore, rfl⟩ := hmore
  refine ⟨as' ++ bs', ?_, List.map_append⟩
  induction lines generalizing r as' with
  | nil =>
    cases htake
    exact htakeMore
  | cons text lines ih =>
    obtain ⟨r', first, rest, hline, hrest, rfl⟩ := takeLines_cons htake
    have hmoreLines := ih _ hrest
    rw [List.cons_append, takeLines, hline, List.append_assoc]
    exact congrArg (· >>= fun x => .ok (x.1, first ++ x.2)) hmoreLines

/-- One line, by its marks and what they complete. -/
theorem line {inner : List Nat} {kinds : List MarkKind} {o : Outline}
    (hkinds : Layout.kinds r.layout.inner text = (inner, .ok kinds))
    (htakes : r.outline.Takes kinds o as) :
    r.Reads [text] ⟨⟨inner, r.layout.line + 1⟩, o⟩ as := by
  obtain ⟨as', hfeed, rfl⟩ := htakes (r.layout.line + 1)
  refine ⟨as', ?_, rfl⟩
  have hlayout := Layout.feed_eq r.layout text
  rw [hkinds] at hlayout
  have hline : r.takeLine text = .ok (⟨⟨inner, r.layout.line + 1⟩, o⟩, as') := by
    rw [takeLine, hlayout]
    simp only [Except.map, take, hfeed]
  rw [takeLines, hline]
  exact congrArg (fun x => Except.ok (_, x)) (List.append_nil as')

end Reads

end Reader

/-! ### Layouts are read -/

/-- Before a statement at a width: the levels that will be open then, and the actions that come
first. Either blocks inside are still to be closed, or the block around it is still to be opened. -/
inductive Approaches (width : Nat) : List Nat → Reader → List Action → Prop
  | after (deeper : List Nat) {levels : List Nat} {r : Reader} (htop : Layout.top levels = width)
    (hinner : r.layout.inner = deeper ++ levels) (hdeeper : ∀ w ∈ deeper, width < w)
    (hplace : r.outline.place = .betweenLines) :
    Approaches width levels r (List.replicate deeper.length (.closed 0))
  | into {words : Name} {r : Reader} (hwidth : Layout.top r.layout.inner < width)
    (hplace : r.outline.place = .blockDue words) :
    Approaches width (width :: r.layout.inner) r [.opened words 0]

namespace Approaches

variable {levels : List Nat} {r : Reader} {pending : List Action}

/-- The levels that the next line opens or closes make the outline catch up. -/
theorem catchUp (h : Approaches width levels r pending) :
    Layout.top levels = width ∧ ∃ kinds depth, Layout.shift width r.layout.inner = (kinds, levels) ∧
      r.outline.Takes kinds ⟨.betweenLines, depth⟩ pending := by
  obtain ⟨layout, place, depth⟩ := r
  cases h with
  | after deeper htop hinner hdeeper hplace =>
    obtain rfl : place = .betweenLines := hplace
    refine ⟨htop, List.replicate deeper.length .dedent, depth - deeper.length, ?_, .dedents _ _⟩
    have hwidth : ¬ Layout.top (deeper ++ levels) < width := by
      cases deeper with
      | nil => exact htop ▸ Nat.lt_irrefl _
      | cons w deeper => exact Nat.not_lt_of_lt (hdeeper w List.mem_cons_self)
    rw [hinner, Layout.shift, if_neg hwidth, Layout.closeTo_append hdeeper htop]
  | @into words _ hwidth hplace =>
    obtain rfl : place = .blockDue words := hplace
    exact ⟨rfl, [.indent], depth + 1, if_pos hwidth,
      .cons [.opened words 0] (fun _ => ⟨_, rfl, rfl⟩) (.nil _)⟩

/-- A line at the width is read after all that comes first. -/
theorem line (h : Approaches width levels r pending) {words : Name} {ls : List Lexeme}
    (hwords : words ≠ []) (htext : IsLine width (lexemes words ++ ls) text) {place : Place}
    {as : List Action}
    (htakes : ∀ depth, (Outline.mk .betweenLines depth).Takes
      ((lexemes words ++ ls).map Layout.markKind ++ [.newline]) ⟨place, depth⟩ as) :
    ∃ r', r.Reads [text] r' (pending ++ as) ∧ r'.layout.inner = levels ∧
      r'.outline.place = place := by
  obtain ⟨htop, kinds, depth, hshift, hcatch⟩ := h.catchUp
  obtain ⟨w, more, rfl⟩ := List.exists_cons_of_ne_nil hwords
  have hkinds := IsLine.kinds htext hshift htop
  rw [List.append_assoc] at hkinds
  exact ⟨_, .line hkinds (hcatch.append (htakes depth)), rfl, rfl⟩

end Approaches

namespace Forest

variable {f : Forest} {lines : List String}

/-- Reading the layout of a forest gives its actions, but for the closing of blocks that end with
it. -/
theorem Laid.reads (h : f.Laid width lines) (hf : f.IsText) {levels : List Nat} {r : Reader}
    {pending : List Action} (hr : Approaches width levels r pending) :
    ∃ r' as left, r.Reads lines r' as ∧ Approaches width levels r' left ∧
      as ++ left = pending ++ f.actions.map Action.unlined ∧
      (r'.outline.place = .betweenLines ∨ f = .nil ∧ r'.outline = r.outline) := by
  induction h generalizing levels r pending with
  | nil => exact ⟨r, [], pending, .nil r, hr, (List.append_nil _).symm, .inr ⟨rfl, rfl⟩⟩
  | @idle width f text lines htext h ih =>
    have hline : r.Reads [text] ⟨⟨r.layout.inner, r.layout.line + 1⟩, r.outline⟩ [] :=
      .line (htext.kinds _) (.nil _)
    have hnext :
        Approaches width levels ⟨⟨r.layout.inner, r.layout.line + 1⟩, r.outline⟩ pending := by
      cases hr with
      | after deeper htop hinner hdeeper hplace => exact .after deeper htop hinner hdeeper hplace
      | into hwidth hplace =>
        exact .into (r := ⟨⟨r.layout.inner, r.layout.line + 1⟩, r.outline⟩) hwidth hplace
    obtain ⟨r', as, left, hreads, happroaches, hactions, hplace⟩ := ih hf hnext
    exact ⟨r', as, left, hline.append hreads, happroaches, hactions, hplace⟩
  | @simple width words line rest text lines htext hrest ih =>
    obtain ⟨hwords, -, hf⟩ := hf
    obtain ⟨htop, -⟩ := hr.catchUp
    have htext₀ : IsLine width (lexemes words ++ []) text := by rwa [List.append_nil]
    obtain ⟨r₁, hline, hinner, hplace⟩ := hr.line hwords htext₀
      fun depth => by rw [List.append_nil]; exact .simple hwords
    have hr₁ : Approaches width levels r₁ [] := .after [] htop hinner nofun hplace
    obtain ⟨r', as, left, hreads, happroaches, hactions, hplace'⟩ := ih hf hr₁
    refine ⟨r', _, left, hline.append hreads, happroaches, ?_, ?_⟩
    · simp [hactions, actions, Action.unlined]
    · rcases hplace' with h | ⟨-, h⟩
      · exact .inl h
      · exact .inl (h ▸ hplace)
  | @inline width words child line childLine last rest text lines htext hrest ih =>
    obtain ⟨hwords, -, -, ⟨hchild, -, -⟩, hf⟩ := hf
    obtain ⟨htop, -⟩ := hr.catchUp
    obtain ⟨r₁, hline, hinner, hplace⟩ := hr.line hwords htext fun depth => .inline hwords hchild
    have hr₁ : Approaches width levels r₁ [] := .after [] htop hinner nofun hplace
    obtain ⟨r', as, left, hreads, happroaches, hactions, hplace'⟩ := ih hf hr₁
    refine ⟨r', _, left, hline.append hreads, happroaches, ?_, ?_⟩
    · simp [hactions, actions, Action.unlined]
    · rcases hplace' with h | ⟨-, h⟩
      · exact .inl h
      · exact .inl (h ▸ hplace)
  | @block width inner words line last children rest text below lines htext hinner hchildren hrest
      ihChildren ihRest =>
    obtain ⟨hwords, -, hne, hfChildren, hf⟩ := hf
    obtain ⟨htop, -⟩ := hr.catchUp
    obtain ⟨r₁, hline, hlevels, hplace⟩ := hr.line hwords htext fun depth => .header hwords
    subst hlevels
    have hr₁ : Approaches inner (inner :: r₁.layout.inner) r₁ [.opened words 0] :=
      .into (htop ▸ hinner) hplace
    obtain ⟨r₂, as, left, hreads, happroaches, hactions, hplace₂⟩ := ihChildren hfChildren hr₁
    have hbetween : r₂.outline.place = .betweenLines := hplace₂.resolve_right fun h => hne h.1
    -- The block is one more that is still to be closed.
    have hr₂ : Approaches width r₁.layout.inner r₂ (left ++ [.closed 0]) := by
      generalize hlevels : inner :: r₁.layout.inner = levels at happroaches
      cases happroaches with
      | into hwidth hdue => cases hbetween.symm.trans hdue
      | after deeper htop₂ hinner₂ hdeeper =>
        have hlater := Approaches.after (r := r₂) (deeper ++ [inner]) htop
          (by rw [hinner₂, ← hlevels, List.append_assoc]; rfl) (fun w hw => ?_) hbetween
        · rwa [List.length_append, List.replicate_add] at hlater
        · rcases List.mem_append.mp hw with hw | hw
          · exact Nat.lt_trans hinner (hdeeper w hw)
          · exact List.mem_singleton.mp hw ▸ hinner
    obtain ⟨r', bs, left', hreads', happroaches', hactions', hplace'⟩ := ihRest hf hr₂
    refine ⟨r', _, left', hline.append (hreads.append hreads'), happroaches', ?_, ?_⟩
    · have hsplit : as ++ bs ++ left' =
          .opened words 0 :: children.actions.map Action.unlined ++
            (.closed 0 :: rest.actions.map Action.unlined) := by
        rw [List.append_assoc, hactions', List.append_assoc, ← List.append_assoc, hactions]
        rfl
      have hblock := congrArg (pending ++ ·) hsplit
      simpa [actions, Action.unlined] using hblock
    · rcases hplace' with h | ⟨-, h⟩
      · exact .inl h
      · exact .inl (h ▸ hbetween)

end Forest

/-- At the end of a text the blocks that are still open are closed. -/
theorem Approaches.finish {r : Reader} {left : List Action} (h : Approaches 0 [] r left)
    (hplace : r.outline.place = .betweenLines) :
    ∃ r' as, r.finish = .ok (r', as) ∧ as.map Action.unlined = left := by
  obtain ⟨⟨inner, line⟩, place, depth⟩ := r
  obtain rfl : place = .betweenLines := hplace
  cases h with
  | after deeper _ hinner =>
    obtain rfl : inner = deeper := hinner.trans (List.append_nil deeper)
    have htakes : (Outline.mk .betweenLines depth).Takes
        (List.replicate inner.length .dedent ++ [.finish]) ⟨.betweenLines, depth - inner.length⟩
        (List.replicate inner.length (.closed 0) ++ []) :=
      (Outline.Takes.dedents _ _).append
        (.cons [] (fun _ => ⟨_, rfl, rfl⟩) (.nil _))
    obtain ⟨as, hfeed, hactions⟩ := htakes line
    rw [List.append_nil] at hactions
    refine ⟨⟨⟨[], line⟩, ⟨.betweenLines, depth - inner.length⟩⟩, as, ?_, hactions⟩
    rw [Reader.finish, Reader.take, Layout.close]
    simp only [hfeed]

/-- The actions of a text are those of the forest that is laid out in it. -/
theorem Forest.Laid.readText {f : Forest} {lines : List String} (h : f.Laid 0 lines)
    (hf : f.IsText) :
    ∃ actions, Reader.readText lines = .ok actions ∧
      actions.map Action.unlined = f.actions.map Action.unlined := by
  have hstart : Approaches 0 [] Reader.start [] := .after [] rfl rfl nofun rfl
  obtain ⟨r, as, left, ⟨as', hlines, rfl⟩, hleft, hactions, hplace⟩ := h.reads hf hstart
  have hbetween : r.outline.place = .betweenLines := by
    rcases hplace with h | ⟨-, h⟩
    · exact h
    · exact congrArg Outline.place h
  obtain ⟨r', more, hfinish, rfl⟩ := hleft.finish hbetween
  refine ⟨as' ++ more, ?_, List.map_append.trans hactions⟩
  rw [Reader.readText, hlines]
  exact congrArg (· >>= fun x => .ok (as' ++ x.2)) hfinish

/-! ### Everything can be laid out -/

/-- Words in front of a line can be spelled, each with a blank after it. -/
theorem SpellsLine.exists_words {words : Name} (hwords : ∀ w ∈ words, IsWord w)
    {ls : List Lexeme} {cs : List Char} (h : SpellsLine ls cs) :
    ∃ body, SpellsLine (lexemes words ++ ls) body ∧
      (words ≠ [] → ∀ c ∈ body.head?, ¬ isSpace c) := by
  induction words with
  | nil => exact ⟨cs, h, absurd rfl⟩
  | cons t words ih =>
    obtain ⟨body, hbody, -⟩ := ih fun w hw => hwords w (List.mem_cons_of_mem _ hw)
    obtain ⟨w, hw⟩ := Spells.exists (hwords t List.mem_cons_self)
    obtain ⟨c, more, rfl, hgap, -⟩ := hw.readAs
    have hblank : EndsWord (' ' :: body) := fun d hd => .inl (Option.some.inj hd ▸ rfl)
    refine ⟨_, .word hw hblank (.space rfl hbody), fun _ d hd hspace => ?_⟩
    obtain rfl := Option.some.inj hd
    rw [isSpace, Bool.or_eq_true, beq_iff_eq, beq_iff_eq] at hspace
    rcases hspace with rfl | rfl <;> exact absurd hgap (by decide)

/-- Spaces reach any width. -/
theorem indents_replicate (width : Nat) : Indents (List.replicate width ' ') width := by
  refine ⟨fun c hc => ?_, ?_⟩
  · obtain rfl := List.eq_of_mem_replicate hc
    rfl
  · induction width with
    | zero => rfl
    | succ n ih => rw [List.replicate_succ', List.foldl_append, ih]; rfl

/-- A line that starts with words can be written at any width. -/
theorem IsLine.exists {words : Name} (hne : words ≠ []) (hwords : ∀ w ∈ words, IsWord w)
    {ls : List Lexeme} {cs : List Char} (h : SpellsLine ls cs) (width : Nat) :
    ∃ text, IsLine width (lexemes words ++ ls) text := by
  obtain ⟨body, hbody, hhead⟩ := SpellsLine.exists_words hwords h
  exact ⟨String.ofList (List.replicate width ' ' ++ body), _, body, [],
    by rw [String.toList_ofList, List.append_nil], indents_replicate width, hbody, hhead hne, nofun⟩

/-- Each forest of numbers and texts has a layout. -/
theorem Forest.exists_laid {f : Forest} (hf : f.IsText) (width : Nat) :
    ∃ lines, f.Laid width lines := by
  induction f generalizing width with
  | nil => exact ⟨[], .nil⟩
  | simple words line rest ih =>
    obtain ⟨hne, hwords, hrest⟩ := hf
    obtain ⟨text, htext⟩ := IsLine.exists hne hwords .nil width
    rw [List.append_nil] at htext
    obtain ⟨lines, hlines⟩ := ih hrest width
    exact ⟨text :: lines, .simple htext hlines⟩
  | block words line children last rest ihChildren ihRest =>
    obtain ⟨hne, hwords, -, hchildren, hrest⟩ := hf
    obtain ⟨text, htext⟩ := IsLine.exists hne hwords (.colon .nil) width
    obtain ⟨below, hbelow⟩ := ihChildren hchildren (width + 1)
    obtain ⟨lines, hlines⟩ := ihRest hrest width
    exact ⟨text :: (below ++ lines), .block htext (Nat.lt_succ_self width) hbelow hlines⟩

/-- Blocks are recovered exactly: each forest of statements can be laid out, each of its layouts is
read to the end and gives the actions of the walk through the forest, up to their lines, and each
text that is read to the end gives the actions of some forest. -/
theorem blocks_recovered :
    (∀ f : Forest, f.IsText → (∃ lines, f.Laid 0 lines) ∧
      ∀ lines, f.Laid 0 lines → ∃ actions, Reader.readText lines = .ok actions ∧
        actions.map Action.unlined = f.actions.map Action.unlined) ∧
    ∀ lines actions, Reader.readText lines = .ok actions → ∃ f : Forest, f.actions = actions :=
  ⟨fun _ hf => ⟨Forest.exists_laid hf 0, fun _ h => h.readText hf⟩,
    fun _ _ h => Reader.forest_of_readText h⟩

/-- A block at a tab after a comment and an empty line, and one on the line of its statement. -/
theorem blocks_recovered_at_tab :
    ∃ actions,
      Reader.readText ["on: # often", "", "\tlog 1", "if:  log 1\n"] = .ok actions ∧
      actions.map Action.unlined =
        [.opened [.text "on"] 0, .simple [.text "log", .int 1] 0, .closed 0,
          .opened [.text "if"] 0, .simple [.text "log", .int 1] 0, .closed 0] := by
  have hall {p : Char → Prop} [DecidablePred p] {cs : List Char} (h : cs.all fun c => p c) :
      ∀ c ∈ cs, p c := List.all_iff_forall_prop.mp h
  have hfirst (c : Char) (cs : List Char) (hc : ¬ isSpace c) :
      ∀ d ∈ (c :: cs).head?, ¬ isSpace d := fun d hd => Option.some.inj hd ▸ hc
  have hbare (c : Char) (cs : List Char) (hc : Text.isWordStart c)
      (hcs : ∀ d ∈ cs, Text.isWordPart d) :
      Spells (.text (String.ofList (c :: cs ++ []))) (c :: cs ++ []) := .bare hc hcs .nil
  have hone : Spells (.int 1) ([] ++ ['1']) :=
    .number (.inl rfl) ⟨by decide, hall (by decide)⟩ (by decide)
  have hblank (cs : List Char) : EndsWord (' ' :: cs) := fun c hc => .inl (Option.some.inj hc ▸ rfl)
  have hcolon (cs : List Char) : EndsWord (':' :: cs) :=
    fun c hc => .inr (.inl (Option.some.inj hc).symm)
  have hnumber : SpellsLine [.word (.int 1)] ([] ++ ['1'] ++ []) := .word hone nofun .nil
  have hchild : SpellsLine (lexemes [.text "log", .int 1]) "log 1".toList :=
    .word (hbare 'l' ['o', 'g'] (by decide) (hall (by decide))) (hblank ['1']) (.space rfl hnumber)
  let f : Forest := .block [.text "on"] 0 (.simple [.text "log", .int 1] 0 .nil) 0
    (.block [.text "if"] 0 (.simple [.text "log", .int 1] 0 .nil) 0 .nil)
  have hf : f.IsText := by simp [f, Forest.IsText, IsWord]
  have hlaid : f.Laid 0 ["on: # often", "", "\tlog 1", "if:  log 1\n"] := by
    have hbelow : Forest.Laid 8 (.simple [.text "log", .int 1] 0 .nil) ["", "\tlog 1"] :=
      .idle ⟨[], [], [], rfl, nofun, .inl rfl, nofun⟩
        (.simple ⟨['\t'], _, [], rfl, ⟨hall (by decide), rfl⟩, hchild,
            hfirst 'l' "og 1".toList (by decide), nofun⟩ .nil)
    refine .block ⟨[], "on: # often".toList, [], rfl, ⟨nofun, rfl⟩, ?_,
        hfirst 'o' "n: # often".toList (by decide), nofun⟩ (by decide) hbelow
      (.inline ⟨[], "if:  log 1".toList, ['\n'], rfl, ⟨nofun, rfl⟩, ?_,
        hfirst 'i' "f:  log 1".toList (by decide), hall (by decide)⟩ .nil)
    · exact .word (hbare 'o' ['n'] (by decide) (hall (by decide))) (hcolon " # often".toList)
        (.colon (.space rfl (.comment (by decide))))
    · exact .word (hbare 'i' ['f'] (by decide) (hall (by decide))) (hcolon "  log 1".toList)
        (.colon (.space rfl (.space rfl hchild)))
  exact (blocks_recovered.1 f hf).2 _ hlaid

end Hearth.Script
