import Hearth.Proofs.Script.Spelling

/-!
# Quoting

Every list of numbers and texts can be written on a line: numbers in decimal, texts in quotes of
either kind, with a backslash for the characters that would end the quotes or the line. Whatever the
texts are, and wherever blanks, a colon and a comment are put, the words are read as they were.

## Main definitions

* `Script.Quote.text` : a text in quotes.
* `Script.Row` : words that are written on a line, and how the line ends.

## Main results

* `Script.Row.read_back` : the words of a line are read as they were written.
-/

namespace Hearth.Script

/-! ### Texts in quotes -/

/-- The quotes around a text. -/
inductive Quote where
  | double
  | single
  deriving Repr, DecidableEq, Inhabited

namespace Quote

/-- The character of the quotes. -/
def mark : Quote → Char
  | double => '"'
  | single => '\''

/-- A character between quotes. -/
def escape (q : Quote) (c : Char) : List Char :=
  if c = '\n' then ['\\', 'n']
  else if c = '\t' then ['\\', 't']
  else if c = '\r' then ['\\', 'r']
  else if c = '\x00' then ['\\', '0']
  else if c = '\\' ∨ c = q.mark then ['\\', c]
  else [c]

/-- A text in quotes. -/
def text (q : Quote) (s : String) : List Char := q.mark :: s.toList.flatMap q.escape ++ [q.mark]

/-- The escape of a character stands for the character. -/
theorem quotes_escape (q : Quote) (c : Char) {s w : List Char} (h : Quotes q.mark s w) :
    Quotes q.mark (c :: s) (q.escape c ++ w) := by
  rw [escape]
  split_ifs with hfeed htab hreturn hnul hback
  · exact hfeed ▸ .escaped (c := 'n') (by decide) h
  · exact htab ▸ .escaped (c := 't') (by decide) h
  · exact hreturn ▸ .escaped (c := 'r') (by decide) h
  · exact hnul ▸ .escaped (c := '0') (by decide) h
  · have hself : Lexeme.unescape c = c := by
      rcases hback with rfl | rfl
      · rfl
      · cases q <;> rfl
    have hescaped := Quotes.escaped hfeed h
    rwa [hself] at hescaped
  · obtain ⟨hback, hmark⟩ := not_or.mp hback
    exact .plain hmark hback h

theorem quotes_flatMap (q : Quote) (s : List Char) : Quotes q.mark s (s.flatMap q.escape) := by
  induction s with
  | nil => exact .nil
  | cons c s ih => exact q.quotes_escape c ih

/-- A text in quotes is a spelling of the text. -/
theorem spells_text (q : Quote) (s : String) : Spells (.text s) (q.text s) := by
  have hmark : q.mark = '"' ∨ q.mark = '\'' := by cases q <;> simp [mark]
  have hspells := Spells.quoted hmark (q.quotes_flatMap s.toList)
  rwa [String.ofList_toList] at hspells

end Quote

/-! ### Lines -/

/-- Some blanks, or none. -/
structure Gap where
  chars : List Char
  blank : ∀ c ∈ chars, isSpace c

/-- A word that is written on a line: a number in decimal, or a text in quotes. -/
structure Inscription where
  /-- The blanks before the word. -/
  gap : Gap
  quote : Quote
  word : Token
  isWord : IsWord word

/-- The characters of a word, in quotes if it is a text. -/
def Inscription.chars (x : Inscription) : List Char :=
  match x.word with
  | .int n => (Decimal.ofInt64 n).toList
  | .text s => x.quote.text s
  | .sub _ => []

/-- How a line ends: with a colon or without one, and with a comment or without one. -/
structure Ending where
  /-- The blanks before the colon. -/
  colon : Option Gap
  /-- The blanks before the comment, or the end. -/
  gap : Gap
  comment : Option (List Char)
  oneLine : ∀ text ∈ comment, '\n' ∉ text

namespace Ending

/-- The characters of the colon, with the blanks before it. -/
def colonChars (e : Ending) : List Char := e.colon.elim [] fun gap => gap.chars ++ [':']

/-- The characters of the comment. -/
def commentChars (e : Ending) : List Char := e.comment.elim [] ('#' :: ·)

/-- The characters at the end of a line. -/
def chars (e : Ending) : List Char := e.colonChars ++ (e.gap.chars ++ e.commentChars)

/-- The lexemes at the end of a line. -/
def lexemes (e : Ending) : List Lexeme := if e.colon.isSome then [.colon] else []

end Ending

/-- Words on a line, with blanks between any two of them. -/
structure Row where
  words : List Inscription
  ending : Ending
  apart : ∀ x ∈ words.tail, x.gap.chars ≠ []

/-- The text of a line. -/
def Row.text (r : Row) : String :=
  String.ofList (r.words.flatMap (fun x => x.gap.chars ++ x.chars) ++ r.ending.chars)

/-! ### Reading -/

theorem SpellsLine.gap {ls : List Lexeme} {cs : List Char} (h : SpellsLine ls cs) (g : Gap) :
    SpellsLine ls (g.chars ++ cs) := by
  obtain ⟨chars, blank⟩ := g
  induction chars with
  | nil => exact h
  | cons c chars ih =>
    obtain ⟨hc, hchars⟩ := List.forall_mem_cons.mp blank
    exact .space hc (ih hchars)

/-- What ends a word also does so after blanks, and blanks do so before anything. -/
theorem EndsWord.gap (g : Gap) {cs : List Char} (h : g.chars = [] → EndsWord cs) :
    EndsWord (g.chars ++ cs) := by
  obtain ⟨_ | ⟨c, chars⟩, blank⟩ := g
  · exact h rfl
  · intro d hd
    obtain rfl := Option.mem_some_iff.mp hd
    exact .inl (blank c List.mem_cons_self)

namespace Ending

variable (e : Ending)

theorem endsWord_commentChars : EndsWord e.commentChars := by
  rw [commentChars]
  cases e.comment with
  | none => exact nofun
  | some text => exact fun c hc => .inr (.inr (Option.mem_some_iff.mp hc).symm)

/-- The end of a line ends its last word. -/
theorem endsWord : EndsWord e.chars := by
  have hrest : EndsWord (e.gap.chars ++ e.commentChars) := .gap _ fun _ => e.endsWord_commentChars
  rw [chars, colonChars]
  cases e.colon with
  | none => exact hrest
  | some gap =>
    rw [Option.elim_some, List.append_assoc]
    exact .gap _ fun _ c hc => .inr (.inl (Option.mem_some_iff.mp hc).symm)

/-- The end of a line spells the colon, if there is one. -/
theorem spells : SpellsLine e.lexemes e.chars := by
  have hcomment : SpellsLine [] e.commentChars := by
    rw [commentChars]
    cases h : e.comment with
    | none => exact .nil
    | some text => exact .comment (e.oneLine text h)
  have hrest := hcomment.gap e.gap
  rw [lexemes, chars, colonChars]
  cases e.colon with
  | none => exact hrest
  | some gap =>
    rw [Option.elim_some, List.append_assoc]
    exact (SpellsLine.colon hrest).gap gap

end Ending

theorem Inscription.spells (x : Inscription) : Spells x.word x.chars := by
  obtain ⟨gap, quote, word, isWord⟩ := x
  cases word with
  | int n => exact .ofInt64 n
  | text s => exact quote.spells_text s
  | sub ws => exact isWord.elim

/-- A line spells the words that are written on it, and the colon at its end. -/
theorem spells_words (words : List Inscription) (e : Ending)
    (apart : ∀ x ∈ words.tail, x.gap.chars ≠ []) :
    SpellsLine (words.map (.word ·.word) ++ e.lexemes)
      (words.flatMap (fun x => x.gap.chars ++ x.chars) ++ e.chars) := by
  induction words with
  | nil => exact e.spells
  | cons x words ih =>
    have hends : EndsWord (words.flatMap (fun x => x.gap.chars ++ x.chars) ++ e.chars) := by
      cases words with
      | nil => exact e.endsWord
      | cons y words =>
        have hy := apart y List.mem_cons_self
        simp only [List.flatMap_cons, List.append_assoc]
        exact .gap y.gap fun hnil => absurd hnil hy
    have hrest := ih fun y hy => apart y (List.mem_of_mem_tail hy)
    simp only [List.map_cons, List.cons_append, List.flatMap_cons, List.append_assoc]
    exact (SpellsLine.word x.spells hends hrest).gap x.gap

/-- Numbers and texts that are written on a line, the numbers in decimal and the texts in quotes,
are read as they were, in their order, and the colon after them if there is one: whatever characters
the texts have, whichever quotes are around each, and whatever blanks and comment are added. -/
theorem Row.read_back (r : Row) :
    Lexeme.ofLine r.text = .ok (r.words.map (.word ·.word) ++ r.ending.lexemes) := by
  rw [Lexeme.ofLine, Row.text, String.toList_ofList]
  exact (spells_words r.words r.ending r.apart).ofChars 0

end Hearth.Script
