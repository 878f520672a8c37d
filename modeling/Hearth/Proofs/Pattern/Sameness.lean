import Hearth.House.Check
import Hearth.Pattern
import Hearth.Proofs.Script.Spelling
import Hearth.Proofs.Text.Quoted
import Mathlib.Data.List.Forall2

/-!
# Which words are the same

A word of a pattern and a word of an event are taken for the same if they are printed alike. A
number is printed like its decimal text. Otherwise the printed form tells words apart, unless a
text is printed as it is and happens to look like something in quotes or in parentheses: the text
of two quotation marks is printed like the empty text, and a text that begins with a parenthesis
can be printed like a nested name. Texts without such characters at their ends are never mistaken.

## Main definitions

* `Token.Alike` : equal, or a number and its decimal text, also inside of nested names.
* `Token.Clear` : no text printed as it is begins or ends like something in quotes or parentheses.
* `Token.Imitates` : a text that is the printed form of an entirely different word.

## Main results

* `Token.Clear.alike_of_render` : clear words that are printed alike are alike.
* `Token.render_eq_iff` : which words are printed alike if they are not both nested names.
* `Pattern.literal_words` : what a pattern's literal words and the value of a condition match.
-/

namespace Hearth

namespace Token

open Script (IsWord)

/-! ### Words that are alike -/

mutual

/-- Equal, or a number and its decimal text, at every place of nested names. -/
def Alike : Token → Token → Prop
  | .int a, .int b => a = b
  | .text a, .text b => a = b
  | .int a, .text b => b = Decimal.ofInt64 a
  | .text a, .int b => a = Decimal.ofInt64 b
  | .sub as, .sub bs => AlikeAll as bs
  | .sub _, .int _ | .sub _, .text _ | .int _, .sub _ | .text _, .sub _ => False

/-- As many words on either side, and each like its counterpart. -/
def AlikeAll : List Token → List Token → Prop
  | [], [] => True
  | a :: as, b :: bs => Alike a b ∧ AlikeAll as bs
  | [], _ :: _ | _ :: _, [] => False

end

/-- A text that is printed in quotes. -/
def Quoted (s : String) : Prop := s = "" ∨ ∃ c ∈ s.toList, Text.isBlank c

mutual

/-- No text that is printed as it is begins with a quotation mark or a parenthesis, or ends with a
parenthesis. -/
def Clear : Token → Prop
  | .int _ => True
  | .text s => Quoted s ∨
    s.toList.head? ≠ some '"' ∧ s.toList.head? ≠ some '(' ∧ s.toList.getLast? ≠ some ')'
  | .sub ts => ClearAll ts

/-- Are all words of a name clear? -/
def ClearAll : List Token → Prop
  | [] => True
  | t :: ts => Clear t ∧ ClearAll ts

end

/-- A word that is printed with quotes or parentheses around it. -/
def Marked : Token → Prop
  | .int _ => False
  | .text s => Quoted s
  | .sub _ => True

/-- A text, printed as it is, that is the printed form of a word with marks around it. -/
def Imitates (a b : Token) : Prop := a = .text b.render ∧ ¬ a.Marked ∧ b.Marked

variable {a b t : Token} {as bs : List Token} {s : String} {v w q r : List Char}

theorem render_text_of_quoted (h : Quoted s) : render (.text s) = Text.quoted s := by
  rw [render, if_pos]
  rcases h with rfl | ⟨c, hc, hblank⟩
  · rfl
  · simpa using .inr ⟨c, hc, hblank⟩

theorem render_text_of_not_quoted (h : ¬ Quoted s) : render (.text s) = s := by
  rw [render, if_neg]
  simpa [Quoted] using h

/-- A number is never printed in quotes. -/
theorem not_quoted_ofInt64 (n : Int64) : ¬ Quoted (Decimal.ofInt64 n) := by
  rintro (h | ⟨c, hc, hblank⟩)
  · exact Decimal.toList_ofInt64_ne_nil n (String.toList_eq_nil_iff.mpr h)
  · rcases Decimal.of_mem_ofInt64 hc with rfl | hdigit
    · exact absurd hblank (by decide)
    · exact Bool.false_ne_true ((Decimal.isBlank_of_isDigit hdigit).symm.trans hblank)

/-- A word that is printed without marks is printed as its text. -/
theorem render_eq_plain (h : ¬ t.Marked) : t.render = t.plain := by
  cases t with
  | int n => rfl
  | text s => exact render_text_of_not_quoted h
  | sub ts => exact absurd trivial h

/-- Numbers and texts are alike if their texts are equal. -/
theorem alike_iff_plain (ha : IsWord a) (hb : IsWord b) : Alike a b ↔ a.plain = b.plain := by
  cases a with
  | sub as => exact ha.elim
  | int m =>
    cases b with
    | sub bs => exact hb.elim
    | int n => exact Decimal.ofInt64_injective.eq_iff.symm
    | text s => exact eq_comm
  | text s =>
    cases b with
    | sub bs => exact hb.elim
    | int n => exact Iff.rfl
    | text s' => exact Iff.rfl

mutual

theorem alike_self : ∀ t : Token, Alike t t
  | .int _ | .text _ => rfl
  | .sub ts => alikeAll_self ts

theorem alikeAll_self : ∀ ts : List Token, AlikeAll ts ts
  | [] => trivial
  | t :: ts => ⟨alike_self t, alikeAll_self ts⟩

end

/-! ### Where a printed word ends -/

/-- The words of a name behind a first one, each after a space. -/
def renderMore (ts : List Token) : List Char :=
  match ts with
  | [] => []
  | ts => ' ' :: (renderList ts).toList

theorem toList_renderList_cons (t : Token) (ts : List Token) :
    (renderList (t :: ts)).toList = t.render.toList ++ renderMore ts := by
  cases ts with
  | nil => simp [renderList, renderMore]
  | cons u us => simp [renderList, renderMore]

theorem toList_render_sub (ts : List Token) :
    (render (.sub ts)).toList = '(' :: (renderList ts).toList ++ [')'] := by
  simp [render]

/-- What can stand behind a printed word: parentheses that close, and a space or nothing. -/
inductive Ends : List Char → Prop
  | nil : Ends []
  | space (r : List Char) : Ends (' ' :: r)
  | close {r : List Char} (h : Ends r) : Ends (')' :: r)

theorem Ends.more (ts : List Token) (h : Ends r) : Ends (renderMore ts ++ ')' :: r) := by
  cases ts with
  | nil => exact h.close
  | cons t ts => exact .space _

/-- Up to the first space there are parentheses only. -/
theorem Ends.eq_of_mem_takeWhile (h : Ends r) : ∀ c ∈ r.takeWhile (· != ' '), c = ')' := by
  induction h with
  | nil => simp
  | space r => simp
  | close h ih => simpa using ih

/-- Characters of which none is a space and the last is no parenthesis that closes. -/
def Solid (v : List Char) : Prop := ' ' ∉ v ∧ v.getLast? ≠ some ')'

/-- Solid characters are found again before what can stand behind a word. -/
theorem Solid.recover (hv : Solid v) (hr : Ends r) :
    ((v ++ r).takeWhile (· != ' ')).rdropWhile (· == ')') = v := by
  have hother : ∀ c ∈ v, (c != ' ') = true := fun c hc =>
    bne_iff_ne.mpr fun he => hv.1 (he ▸ hc)
  have hclose : ∀ c ∈ (r.takeWhile (· != ' ')).reverse, (c == ')') = true := fun c hc =>
    beq_iff_eq.mpr (hr.eq_of_mem_takeWhile c (List.mem_reverse.mp hc))
  rw [List.takeWhile_append_of_pos hother, List.rdropWhile, List.reverse_append,
    List.dropWhile_append_of_pos hclose, ← List.rdropWhile, List.rdropWhile_eq_self_iff]
  intro hne hlast
  exact hv.2 (by rw [List.getLast?_eq_some_getLast hne, beq_iff_eq.mp hlast])

theorem Solid.append_inj (hv : Solid v) (hw : Solid w) (hq : Ends q) (hr : Ends r)
    (h : v ++ q = w ++ r) : v = w ∧ q = r := by
  obtain rfl : v = w := by rw [← hv.recover hq, h, hw.recover hr]
  exact ⟨rfl, List.append_cancel_left h⟩

/-! ### How a word begins -/

/-- A clear word that is printed without marks is solid, and begins neither like a quoted text nor
like a nested name. -/
theorem Clear.plain (ht : t.Clear) (hm : ¬ t.Marked) :
    Solid t.plain.toList ∧ ∃ c u, t.plain.toList = c :: u ∧ c ≠ '"' ∧ c ≠ '(' := by
  cases t with
  | sub ts => exact absurd trivial hm
  | int n =>
    have hother : ∀ c ∈ (Decimal.ofInt64 n).toList, ∀ d, d ≠ '-' → d.isDigit = false → c ≠ d := by
      rintro c hc d hminus hdigit rfl
      rcases Decimal.of_mem_ofInt64 hc with h | h
      · exact hminus h
      · exact Bool.false_ne_true (hdigit.symm.trans h)
    obtain ⟨c, u, hcu⟩ := List.exists_cons_of_ne_nil (Decimal.toList_ofInt64_ne_nil n)
    have hc := hother c (hcu ▸ List.mem_cons_self)
    refine ⟨⟨fun h => hother _ h ' ' (by decide) (by decide) rfl, fun h => ?_⟩, c, u, hcu,
      hc '"' (by decide) (by decide), hc '(' (by decide) (by decide)⟩
    exact hother _ (List.mem_of_getLast? h) ')' (by decide) (by decide) rfl
  | text s =>
    obtain ⟨hquote, hopen, hclose⟩ := ht.resolve_left hm
    obtain ⟨hne, hblank⟩ := not_or.mp hm
    obtain ⟨c, u, hcu⟩ := List.exists_cons_of_ne_nil (mt String.toList_eq_nil_iff.mp hne)
    refine ⟨⟨fun h => hblank ⟨' ', h, by decide⟩, hclose⟩, c, u, hcu, ?_, ?_⟩
    · rintro rfl
      exact hquote (by rw [hcu, List.head?_cons])
    · rintro rfl
      exact hopen (by rw [hcu, List.head?_cons])

/-- A number or a text that is printed with marks around it is a text in quotes. -/
theorem Marked.exists_quoted (hm : t.Marked) (ht : IsWord t) :
    ∃ s, t = .text s ∧ t.render = Text.quoted s := by
  cases t with
  | int n => exact hm.elim
  | text s => exact ⟨s, rfl, render_text_of_quoted hm⟩
  | sub ts => exact ht.elim

/-- A clear number or text does not begin like a nested name. -/
theorem Clear.append_ne_sub (ha : a.Clear) (hword : IsWord a) :
    a.render.toList ++ q ≠ (render (.sub bs)).toList ++ r := by
  rw [toList_render_sub]
  by_cases hm : a.Marked
  · obtain ⟨s, -, hs⟩ := hm.exists_quoted hword
    rw [hs, Text.toList_quoted]
    simp
  · obtain ⟨-, c, u, hcu, -, hopen⟩ := ha.plain hm
    rw [render_eq_plain hm, hcu]
    simp [hopen]

/-- A clear number or text that is printed without marks does not begin like one with marks. -/
theorem Clear.append_ne_quoted (ha : a.Clear) (hm : ¬ a.Marked) :
    a.render.toList ++ q ≠ (Text.quoted s).toList ++ r := by
  obtain ⟨-, c, u, hcu, hquote, -⟩ := ha.plain hm
  rw [render_eq_plain hm, hcu, Text.toList_quoted]
  simp [hquote]

/-- No clear word begins with a parenthesis that closes the name it stands in. -/
theorem Clear.append_ne_close (ha : a.Clear) (hq : Ends q) (hr : Ends r) :
    a.render.toList ++ q ≠ ')' :: r := by
  by_cases hm : a.Marked
  · cases a with
    | int n => exact hm.elim
    | text s =>
      rw [render_text_of_quoted hm, Text.toList_quoted]
      simp
    | sub ts =>
      rw [toList_render_sub]
      simp
  · intro h
    obtain ⟨hsolid, c, u, hcu, -⟩ := ha.plain hm
    rw [render_eq_plain hm] at h
    obtain ⟨hnil, -⟩ := hsolid.append_inj (w := []) ⟨List.not_mem_nil, by simp⟩ hq hr.close h
    exact List.cons_ne_nil c u (hcu ▸ hnil)

/-! ### Clear words that are printed alike -/

/-- Clear numbers and texts are alike if they are printed alike, whatever stands behind them. -/
theorem Clear.word_append_inj (ha : a.Clear) (hb : b.Clear) (hworda : IsWord a)
    (hwordb : IsWord b) (hq : Ends q) (hr : Ends r)
    (h : a.render.toList ++ q = b.render.toList ++ r) : Alike a b ∧ q = r := by
  by_cases hma : a.Marked
  · obtain ⟨s, rfl, hs⟩ := hma.exists_quoted hworda
    by_cases hmb : b.Marked
    · obtain ⟨t, rfl, ht⟩ := hmb.exists_quoted hwordb
      rw [hs, ht] at h
      exact Text.quoted_append_inj h
    · rw [hs] at h
      exact absurd h.symm (hb.append_ne_quoted hmb)
  · by_cases hmb : b.Marked
    · obtain ⟨t, rfl, ht⟩ := hmb.exists_quoted hwordb
      rw [ht] at h
      exact absurd h (ha.append_ne_quoted hma)
    · rw [render_eq_plain hma, render_eq_plain hmb] at h
      obtain ⟨hplain, hrest⟩ := (ha.plain hma).1.append_inj (hb.plain hmb).1 hq hr h
      exact ⟨(alike_iff_plain hworda hwordb).mpr (String.toList_inj.mp hplain), hrest⟩

mutual

/-- Clear words are alike if they are printed alike, whatever stands behind them. -/
theorem Clear.append_inj : ∀ {a b : Token}, a.Clear → b.Clear → ∀ {q r : List Char}, Ends q →
    Ends r → a.render.toList ++ q = b.render.toList ++ r → Alike a b ∧ q = r
  | .sub as, .sub bs, ha, hb, q, r, hq, hr, h => by
    simp only [toList_render_sub, List.cons_append, List.append_assoc, List.nil_append,
      List.cons.injEq, true_and] at h
    exact ClearAll.append_inj ha hb hq hr h
  | .sub as, .int n, _, hb, _, _, _, _, h => absurd h.symm (hb.append_ne_sub trivial)
  | .sub as, .text s, _, hb, _, _, _, _, h => absurd h.symm (hb.append_ne_sub trivial)
  | .int n, .sub bs, ha, _, _, _, _, _, h => absurd h (ha.append_ne_sub trivial)
  | .text s, .sub bs, ha, _, _, _, _, _, h => absurd h (ha.append_ne_sub trivial)
  | .int _, .int _, ha, hb, _, _, hq, hr, h | .int _, .text _, ha, hb, _, _, hq, hr, h
  | .text _, .int _, ha, hb, _, _, hq, hr, h | .text _, .text _, ha, hb, _, _, hq, hr, h =>
    ha.word_append_inj hb trivial trivial hq hr h

/-- So are the words of names in parentheses. -/
theorem ClearAll.append_inj : ∀ {as bs : List Token}, ClearAll as → ClearAll bs →
    ∀ {q r : List Char}, Ends q → Ends r →
    (renderList as).toList ++ ')' :: q = (renderList bs).toList ++ ')' :: r →
    AlikeAll as bs ∧ q = r
  | [], [], _, _, _, _, _, _, h => ⟨trivial, (List.cons.inj h).2⟩
  | [], b :: bs, _, hb, _, _, hq, hr, h => by
    rw [toList_renderList_cons, List.append_assoc] at h
    exact absurd h.symm (hb.1.append_ne_close (hr.more bs) hq)
  | a :: as, [], ha, _, _, _, hq, hr, h => by
    rw [toList_renderList_cons, List.append_assoc] at h
    exact absurd h (ha.1.append_ne_close (hq.more as) hr)
  | a :: as, b :: bs, ha, hb, q, r, hq, hr, h => by
    rw [toList_renderList_cons, toList_renderList_cons, List.append_assoc, List.append_assoc] at h
    obtain ⟨hfirst, hmore⟩ := ha.1.append_inj hb.1 (hq.more as) (hr.more bs) h
    match as, bs with
    | [], [] => exact ⟨⟨hfirst, trivial⟩, (List.cons.inj hmore).2⟩
    | [], b' :: bs | a' :: as, [] => simp [renderMore] at hmore
    | a' :: as, b' :: bs =>
      obtain ⟨hothers, hrest⟩ := ClearAll.append_inj ha.2 hb.2 hq hr (List.cons.inj hmore).2
      exact ⟨⟨hfirst, hothers⟩, hrest⟩

end

/-- Clear words are alike if they are printed alike. -/
theorem Clear.alike_of_render (ha : a.Clear) (hb : b.Clear) (h : a.render = b.render) :
    Alike a b :=
  (ha.append_inj hb .nil .nil (by rw [h])).1

mutual

/-- Words that are alike are printed alike. -/
theorem Alike.render_eq : ∀ {a b : Token}, Alike a b → a.render = b.render
  | .int _, .int _, h => congrArg Decimal.ofInt64 h
  | .text _, .text _, h => congrArg (fun s => render (.text s)) h
  | .int m, .text _, h => h ▸ (render_text_of_not_quoted (not_quoted_ofInt64 m)).symm
  | .text _, .int n, h => h ▸ render_text_of_not_quoted (not_quoted_ofInt64 n)
  | .sub as, .sub bs, h => by rw [render, render, AlikeAll.render_eq h]

theorem AlikeAll.render_eq : ∀ {as bs : List Token}, AlikeAll as bs →
    renderList as = renderList bs
  | [], [], _ => rfl
  | [a], [b], h => h.1.render_eq
  | a :: a' :: as, b :: b' :: bs, h => by
    change a.render ++ " " ++ renderList (a' :: as) = b.render ++ " " ++ renderList (b' :: bs)
    rw [h.1.render_eq, AlikeAll.render_eq h.2]

end

/-! ### Words of which at most one is a nested name -/

theorem isWord_of_not_marked (h : ¬ t.Marked) : IsWord t := by
  cases t with
  | sub ts => exact absurd trivial h
  | _ => trivial

/-- A text that imitates a word is printed like it. -/
theorem Imitates.render_eq (h : Imitates a b) : a.render = b.render := by
  obtain ⟨rfl, hplain, -⟩ := h
  exact render_eq_plain hplain

/-- A word that is printed with marks begins with one. -/
theorem Marked.exists_mark (h : t.Marked) :
    ∃ c u, t.render.toList = c :: u ∧ (c = '"' ∨ c = '(') := by
  cases t with
  | int n => exact h.elim
  | text s => exact ⟨_, _, by rw [render_text_of_quoted h, Text.toList_quoted]; rfl, .inl rfl⟩
  | sub ts => exact ⟨_, _, toList_render_sub ts, .inr rfl⟩

/-- What is printed without marks like something with marks is a text. -/
theorem imitates_of_render (ha : ¬ a.Marked) (hb : b.Marked) (h : a.render = b.render) :
    Imitates a b := by
  refine ⟨?_, ha, hb⟩
  cases a with
  | sub as => exact absurd trivial ha
  | text s => rw [← h, render_text_of_not_quoted ha]
  | int n =>
    obtain ⟨-, c, u, hcu, hquote, hopen⟩ := Clear.plain (t := .int n) trivial ha
    obtain ⟨d, w, hdw, hmark⟩ := hb.exists_mark
    rw [← h, render_eq_plain ha, hcu] at hdw
    obtain ⟨rfl, -⟩ := List.cons.inj hdw
    exact (hmark.elim hquote hopen).elim

/-- A text in quotes is printed like no other word with marks. -/
theorem eq_of_marked (ha : a.Marked) (hb : b.Marked) (hword : IsWord a)
    (h : a.render = b.render) : a = b := by
  obtain ⟨s, rfl, hs⟩ := ha.exists_quoted hword
  cases b with
  | int n => exact hb.elim
  | text t =>
    rw [hs, render_text_of_quoted hb] at h
    rw [Text.quoted_injective h]
  | sub bs =>
    have hlists := congrArg String.toList h
    rw [hs, Text.toList_quoted, toList_render_sub] at hlists
    exact absurd (List.cons.inj hlists).1 (by decide)

/-- Words of which at most one is a nested name are printed alike just if they are alike or one is
a text that imitates the other. -/
theorem render_eq_iff (h : IsWord a ∨ IsWord b) :
    a.render = b.render ↔ Alike a b ∨ Imitates a b ∨ Imitates b a := by
  constructor
  · intro hrender
    by_cases ha : a.Marked
    · by_cases hb : b.Marked
      · obtain rfl : a = b := by
          rcases h with h | h
          · exact eq_of_marked ha hb h hrender
          · exact (eq_of_marked hb ha h hrender.symm).symm
        exact .inl (alike_self a)
      · exact .inr (.inr (imitates_of_render hb ha hrender.symm))
    · by_cases hb : b.Marked
      · exact .inr (.inl (imitates_of_render ha hb hrender))
      · rw [render_eq_plain ha, render_eq_plain hb] at hrender
        exact .inl ((alike_iff_plain (isWord_of_not_marked ha) (isWord_of_not_marked hb)).mpr
          hrender)
  · rintro (h | h | h)
    · exact h.render_eq
    · exact h.render_eq
    · exact h.render_eq.symm

end Token

namespace Pattern

/-- Words are taken for the same if they are printed alike. -/
theorem sameWord_iff {a b : Token} : sameWord a b = true ↔ a.render = b.render := by
  rw [sameWord, Bool.or_eq_true, beq_iff_eq, beq_iff_eq]
  exact or_iff_right_of_imp (congrArg Token.render)

/-- A word of a pattern is a wildcard, or the same as the word of an event. -/
def Accepts (same : Token → Token → Prop) (want got : Token) : Prop :=
  want.wildcard?.isSome ∨ same want got

/-- A pattern matches word by word, as many words as it has. -/
theorem isSome_bindFrom (position : Nat) (pattern words : Name) :
    (bindFrom position pattern words).isSome ↔
      List.Forall₂ (Accepts fun want got => sameWord want got) pattern words := by
  induction pattern generalizing position words with
  | nil => cases words <;> simp [bindFrom]
  | cons want pattern ih =>
    cases words with
    | nil => simp [bindFrom]
    | cons got words =>
      rw [List.forall₂_cons, Accepts, bindFrom]
      cases hwild : want.wildcard? with
      | some name => by_cases hname : name.isEmpty <;> simp [hname, ih]
      | none => by_cases hsame : sameWord want got <;> simp [hsame, ih]

theorem isMatch_iff (pattern words : Name) : isMatch pattern words ↔
    List.Forall₂ (Accepts fun want got => sameWord want got) pattern words :=
  isSome_bindFrom 0 pattern words

/-- Clear words are the same if they are alike. -/
theorem sameWord_iff_alike {a b : Token} (ha : a.Clear) (hb : b.Clear) :
    sameWord a b ↔ a.Alike b :=
  sameWord_iff.trans ⟨ha.alike_of_render hb, Token.Alike.render_eq⟩

/-- For clear words a pattern matches if they are alike. -/
theorem isMatch_iff_alike {pattern words : Name} (hpattern : ∀ t ∈ pattern, t.Clear)
    (hwords : ∀ t ∈ words, t.Clear) :
    isMatch pattern words ↔ List.Forall₂ (Accepts Token.Alike) pattern words := by
  rw [isMatch_iff, List.forall₂_iff_zip, List.forall₂_iff_zip]
  refine and_congr_right fun _ => forall₂_congr fun want got => imp_congr_right fun hmem => ?_
  obtain ⟨hwant, hgot⟩ := List.of_mem_zip hmem
  exact or_congr_right (sameWord_iff_alike (hpattern want hwant) (hwords got hgot))

end Pattern

/-- A condition on a state holds if the state has a value and it is the same word. -/
theorem Condition.test_stateIs (h : House) (value word : Token) (name : Name) :
    stateIs.test h (value :: word :: name) = .ok true ↔
      ∃ v, h.state? (word :: name) = some v ∧ Pattern.sameWord v value := by
  change Except.ok ((h.state? (word :: name)).any fun v => Pattern.sameWord v value) = _ ↔ _
  rw [Except.ok.injEq, Option.any_eq_true]

namespace Pattern

/-- Literal words match only themselves. Of clear words just those are the same that are alike, and
words that are alike are always the same; whatever the words, if they are not both nested names,
they are the same just if they are alike or one is a text that imitates the other. A pattern
matches if there are as many words as it has and every word that is no wildcard is the same as its
counterpart; for clear words, if it is like its counterpart. A condition holds if the state has a
value and it is the same word. -/
theorem literal_words (a b word : Token) (pattern words name : Name) (h : House) :
    (a.Clear → b.Clear → (sameWord a b ↔ a.Alike b)) ∧
    (a.Alike b → sameWord a b) ∧
    (Script.IsWord a ∨ Script.IsWord b →
      (sameWord a b ↔ a.Alike b ∨ a.Imitates b ∨ b.Imitates a)) ∧
    (isMatch pattern words ↔
      List.Forall₂ (Accepts fun want got => sameWord want got) pattern words) ∧
    ((∀ t ∈ pattern, t.Clear) → (∀ t ∈ words, t.Clear) →
      (isMatch pattern words ↔ List.Forall₂ (Accepts Token.Alike) pattern words)) ∧
    (Condition.stateIs.test h (b :: word :: name) = .ok true ↔
      ∃ v, h.state? (word :: name) = some v ∧ sameWord v b) :=
  ⟨sameWord_iff_alike,
   fun halike => sameWord_iff.mpr halike.render_eq,
   fun hword => sameWord_iff.trans (Token.render_eq_iff hword),
   isMatch_iff pattern words,
   isMatch_iff_alike,
   Condition.test_stateIs h b word name⟩

/-- A number matches its decimal text, and no other text. -/
theorem literal_words_number :
    sameWord (.text "40") (.int 40) = true ∧
    ¬ isMatch [.text "dim", .text "040"] [.text "dim", .int 40] = true := by
  have hclear : ∀ s ∈ ["dim", "40", "040"], (Token.text s).Clear := fun s hs =>
    .inr (by revert s; decide)
  have hpattern : ∀ t ∈ [Token.text "dim", .text "040"], t.Clear := by
    simp [hclear]
  have hwords : ∀ t ∈ [Token.text "dim", .int 40], t.Clear := by
    simp [Token.Clear]
  obtain ⟨hsame, -, -, -, hmatch, -⟩ := literal_words (.text "40") (.int 40) (.text "lamp")
    [.text "dim", .text "040"] [.text "dim", .int 40] [] default
  have halike : "40" = Decimal.ofInt64 40 := by decide
  refine ⟨(hsame (hclear "40" (by decide)) trivial).mpr halike, fun h => ?_⟩
  obtain ⟨-, hlast⟩ := List.forall₂_cons.mp ((hmatch hpattern hwords).mp h)
  obtain ⟨hlast | hlast, -⟩ := List.forall₂_cons.mp hlast
  · exact absurd hlast (by decide)
  · exact absurd hlast (by decide : "040" ≠ Decimal.ofInt64 40)

/-- The text of two quotation marks is not the empty text, but the same word; so is the text of a
word in parentheses and the nested name of that word. -/
theorem imitations :
    (sameWord (.text "\"\"") (.text "") = true ∧ ¬ (Token.text "\"\"").Alike (.text "")) ∧
    (sameWord (.text "(on)") (.sub [.text "on"]) = true ∧
      ¬ (Token.text "(on)").Alike (.sub [.text "on"])) := by
  refine ⟨⟨by decide, by simp [Token.Alike]⟩, ⟨by decide, by simp [Token.Alike]⟩⟩

end Pattern

end Hearth
