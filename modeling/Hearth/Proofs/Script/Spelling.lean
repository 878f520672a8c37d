import Hearth.Proofs.Decimal
import Hearth.Script.Lexeme
import Mathlib.Data.Bool.AllAny
import Mathlib.Data.List.DropRight
import Mathlib.Data.List.TakeWhile
import Mathlib.Tactic.IntervalCases

/-!
# Spelling

A word of a script can be spelled in several ways: a number with or without zeros in front, a text
in quotes of either kind with any of its characters escaped, or as it is if it looks like a word, a
variable, a wildcard, a run of signs or a decimal fraction. A line spells lexemes with blanks
between them, as many as one likes, and perhaps a comment at the end.

However a line is spelled, its lexemes are those that it spells.

## Main definitions

* `Script.Spells` : the spellings of a word.
* `Script.SpellsLine` : the spellings of the lexemes of a line.

## Main results

* `Script.Spells.readAs` : a word is read as it is spelled.
* `Script.SpellsLine.ofChars` : the lexemes of a line are those that it spells.
* `Script.Spells.exists` : all numbers and texts can be spelled.
-/

namespace Hearth.Script

/-- A blank of a line. -/
def isSpace (c : Char) : Bool := c == ' ' || c == '\t'

/-- What can follow a word without being taken as a part of it: nothing, a blank, a colon or a
comment. -/
def EndsWord (rest : List Char) : Prop :=
  ∀ c ∈ rest.head?, isSpace c ∨ c = ':' ∨ c = '#'

/-- The texts in quotes `q` that stand for characters. -/
inductive Quotes (q : Char) : List Char → List Char → Prop
  | nil : Quotes q [] []
  | plain {c : Char} {s w : List Char} (hq : c ≠ q) (hc : c ≠ '\\') (h : Quotes q s w) :
    Quotes q (c :: s) (c :: w)
  | escaped {c : Char} {s w : List Char} (hc : c ≠ '\n') (h : Quotes q s w) :
    Quotes q (Lexeme.unescape c :: s) ('\\' :: c :: w)

/-- The parts that follow the first one of a bare word, each after a point or a minus. -/
inductive WordParts : List Char → Prop
  | nil : WordParts []
  | cons {sep c : Char} {part more : List Char} (hsep : sep = '.' ∨ sep = '-')
    (hc : Text.isWordPart c) (hpart : ∀ d ∈ part, Text.isWordPart d) (hmore : WordParts more) :
    WordParts (sep :: c :: part ++ more)

/-- A minus, or nothing. -/
def IsMinus (sign : List Char) : Prop := sign = [] ∨ sign = ['-']

/-- At least one digit, and nothing else. -/
def AreDigits (ds : List Char) : Prop := ds ≠ [] ∧ ∀ d ∈ ds, d.isDigit

/-- The spellings of a word. -/
inductive Spells : Token → List Char → Prop
  | number {sign ds : List Char} {n : Int64} (hsign : IsMinus sign) (hds : AreDigits ds)
    (hn : Decimal.readInt64 (String.ofList (sign ++ ds)) = some n) : Spells (.int n) (sign ++ ds)
  | quoted {q : Char} {s w : List Char} (hq : q = '"' ∨ q = '\'') (h : Quotes q s w) :
    Spells (.text (String.ofList s)) (q :: w ++ [q])
  | bare {c : Char} {first parts : List Char} (hc : Text.isWordStart c)
    (hfirst : ∀ d ∈ first, Text.isWordPart d) (hparts : WordParts parts) :
    Spells (.text (String.ofList (c :: first ++ parts))) (c :: first ++ parts)
  | dollar {c : Char} {name : List Char} (hname : ∀ d ∈ c :: name, Text.isWordPart d) :
    Spells (.text (String.ofList ('$' :: c :: name))) ('$' :: c :: name)
  | star : Spells (.text "*") ['*']
  | wildcard {c : Char} {name : List Char} (hc : Text.isWordStart c)
    (hname : ∀ d ∈ name, Text.isWordPart d) :
    Spells (.text (String.ofList ('*' :: c :: name))) ('*' :: c :: name)
  | signs {c : Char} {more : List Char} (h : ∀ d ∈ c :: more, Lexeme.isSign d) :
    Spells (.text (String.ofList (c :: more))) (c :: more)
  | decimal {sign ds more : List Char} (hsign : IsMinus sign) (hds : AreDigits ds)
    (hmore : AreDigits more) :
    Spells (.text (String.ofList (sign ++ ds ++ '.' :: more))) (sign ++ ds ++ '.' :: more)

/-- The spellings of the lexemes of a line from some place on: words that end before a blank, a
colon or the end, colons, blanks anywhere, and a comment at the end. -/
inductive SpellsLine : List Lexeme → List Char → Prop
  | nil : SpellsLine [] []
  | comment {text : List Char} (h : '\n' ∉ text) : SpellsLine [] ('#' :: text)
  | space {c : Char} {ls : List Lexeme} {cs : List Char} (hc : isSpace c) (h : SpellsLine ls cs) :
    SpellsLine ls (c :: cs)
  | word {t : Token} {w cs : List Char} {ls : List Lexeme} (hw : Spells t w) (hcs : EndsWord cs)
    (h : SpellsLine ls cs) : SpellsLine (.word t :: ls) (w ++ cs)
  | colon {ls : List Lexeme} {cs : List Char} (h : SpellsLine ls cs) :
    SpellsLine (.colon :: ls) (':' :: cs)

/-! ### Where a word ends -/

/-- Characters of a kind at the start are all of it, if what follows them is of another kind. -/
theorem takeWhile_append {p : Char → Bool} {w rest : List Char} (hw : ∀ c ∈ w, p c)
    (hrest : ∀ c ∈ rest.head?, p c = false) :
    (w ++ rest).takeWhile p = w ∧ (w ++ rest).dropWhile p = rest := by
  have htake : rest.takeWhile p = [] := by
    cases rest with
    | nil => rfl
    | cons c rest => simp [hrest c rfl]
  have hdrop : rest.dropWhile p = rest := by
    cases rest with
    | nil => rfl
    | cons c rest => simp [hrest c rfl]
  rw [List.takeWhile_append_of_pos hw, List.dropWhile_append_of_pos hw, htake, hdrop,
    List.append_nil]
  exact ⟨rfl, rfl⟩

namespace EndsWord

variable {rest : List Char}

/-- What ends a word is of no kind that blanks, colons and hash signs are not of. -/
theorem head (h : EndsWord rest) {p : Char → Bool}
    (hp : p ' ' = false ∧ p '\t' = false ∧ p ':' = false ∧ p '#' = false) :
    ∀ c ∈ rest.head?, p c = false := by
  intro c hc
  obtain ⟨hspace, htab, hcolon, hhash⟩ := hp
  rcases h c hc with h | rfl | rfl
  · rcases Bool.or_eq_true_iff.mp h with h | h
    · rw [beq_iff_eq.mp h, hspace]
    · rw [beq_iff_eq.mp h, htab]
  · exact hcolon
  · exact hhash

theorem isWordPart (h : EndsWord rest) : ∀ c ∈ rest.head?, Text.isWordPart c = false :=
  h.head (by decide)

theorem isDigit (h : EndsWord rest) : ∀ c ∈ rest.head?, Char.isDigit c = false :=
  h.head (by decide)

theorem isSign (h : EndsWord rest) : ∀ c ∈ rest.head?, Lexeme.isSign c = false :=
  h.head (by decide)

end EndsWord

/-! ### Words -/

/-- A character of a kind is none that is not of that kind. -/
theorem ne_of_kind {p : Char → Bool} {c d : Char} (hc : p c) (hd : p d = false) : c ≠ d := by
  rintro rfl
  exact Bool.false_ne_true (hd.symm.trans hc)

/-- A quoted text is read up to its end. -/
theorem Quotes.unquote {q : Char} {s w : List Char} (h : Quotes q s w) (hq : q ≠ '\\')
    (rest : List Char) : Lexeme.unquote q (w ++ q :: rest) = some (s, rest) := by
  induction h with
  | nil =>
    rw [List.nil_append, Lexeme.unquote]
    · simp
    · rintro c rest' rfl
      exact absurd rfl hq
  | @plain c s w hne hc h ih =>
    rw [List.cons_append, Lexeme.unquote]
    · simp [hne, ih]
    · rintro d rest' rfl
      exact absurd rfl hc
  | @escaped c s w hc h ih => simp [Lexeme.unquote, hc, ih]

/-- The first part of a bare word ends where the other parts start. -/
theorem WordParts.stop {parts rest : List Char} (h : WordParts parts) (hrest : EndsWord rest) :
    ∀ d ∈ (parts ++ rest).head?, Text.isWordPart d = false := by
  cases h with
  | nil => exact hrest.isWordPart
  | cons hsep =>
    intro d hd
    obtain rfl := Option.mem_some_iff.mp hd
    rcases hsep with rfl | rfl <;> decide

/-- The parts of a bare word are read up to its end. -/
theorem WordParts.takeParts {parts : List Char} (h : WordParts parts) {rest : List Char}
    (hrest : EndsWord rest) {n : Nat} (hn : parts.length ≤ n) :
    Lexeme.takeParts n (parts ++ rest) = (parts, rest) := by
  induction h generalizing n with
  | nil =>
    cases n with
    | zero => rfl
    | succ n =>
      have hsep := hrest.head (p := fun c => c == '.' || c == '-') (by decide)
      rcases rest with _ | ⟨sep, _ | ⟨c, rest⟩⟩
      · rfl
      · rfl
      · simp only [List.nil_append, Lexeme.takeParts, hsep sep rfl, Bool.false_and,
          Bool.false_eq_true, if_false]
  | @cons sep c part more hsep hc hpart hmore ih =>
    cases n with
    | zero => simp at hn
    | succ n =>
      obtain ⟨htake, hdrop⟩ := takeWhile_append hpart (hmore.stop hrest)
      have hmoreLength : more.length ≤ n := by
        simp only [List.cons_append, List.length_cons, List.length_append] at hn
        omega
      have hseparates : (sep == '.' || sep == '-') = true := by
        rcases hsep with rfl | rfl <;> rfl
      simp only [List.cons_append, List.append_assoc, Lexeme.takeParts, hseparates, hc,
        Bool.and_self, if_true, htake, hdrop, ih hmoreLength]

/-- Digits after a sign are read up to their end. -/
theorem scanNumber_digits {head ds rest : List Char} {n : Int64} (hds : ∀ d ∈ ds, d.isDigit)
    (hrest : EndsWord rest)
    (hn : Decimal.readInt64 (String.ofList (head ++ ds)) = some n) :
    Lexeme.scanNumber head (ds ++ rest) = .ok (.lexeme (.word (.int n)), rest) := by
  obtain ⟨htake, hdrop⟩ := takeWhile_append hds hrest.isDigit
  have hpoint := hrest.head (p := fun c => c == '.') (by decide)
  rw [Lexeme.scanNumber, htake, hdrop]
  split
  · exact absurd (hpoint '.' rfl) (by decide)
  · rw [Lexeme.wholeNumber, hn]

/-- A decimal fraction after a sign is read up to its end. -/
theorem scanNumber_decimal {head ds more rest : List Char} (hds : ∀ d ∈ ds, d.isDigit)
    (hmore : AreDigits more) (hrest : EndsWord rest) :
    Lexeme.scanNumber head (ds ++ '.' :: more ++ rest) =
      .ok (Lexeme.textWord (head ++ ds ++ '.' :: more), rest) := by
  obtain ⟨hne, hdigits⟩ := hmore
  obtain ⟨d, more, rfl⟩ := List.exists_cons_of_ne_nil hne
  have hstop : ∀ c ∈ ('.' :: d :: more ++ rest).head?, Char.isDigit c = false := by
    intro c hc
    obtain rfl := Option.mem_some_iff.mp hc
    decide
  obtain ⟨htake, hdrop⟩ := takeWhile_append hds hstop
  obtain ⟨htake', hdrop'⟩ :=
    takeWhile_append (fun c hc => hdigits c (List.mem_cons_of_mem _ hc)) hrest.isDigit
  rw [List.append_assoc, Lexeme.scanNumber, htake, hdrop]
  simp only [List.cons_append, hdigits d List.mem_cons_self, if_true, htake', hdrop']

/-- A text is read as a word, whatever ends it. -/
def ReadAs (t : Token) (w : List Char) : Prop :=
  ∃ c cs, w = c :: cs ∧ Lexeme.isGap c = false ∧
    ∀ rest, EndsWord rest → Lexeme.scan c (cs ++ rest) = .ok (.lexeme (.word t), rest)

/-- There are ten digits. -/
theorem mem_of_isDigit {c : Char} (hc : c.isDigit) : c ∈ "0123456789".toList := by
  have hrange : 48 ≤ c.toNat ∧ c.toNat ≤ 57 := by
    simp only [Char.isDigit, Bool.and_eq_true, decide_eq_true_eq] at hc
    exact hc
  obtain ⟨hlow, hhigh⟩ := hrange
  rw [← Char.ofNat_toNat c]
  generalize c.toNat = n at hlow hhigh
  interval_cases n <;> decide

/-- What starts with a digit is a number. -/
theorem scan_of_isDigit {c : Char} (hc : c.isDigit) (cs : List Char) :
    Lexeme.isGap c = false ∧ Lexeme.scan c cs = Lexeme.scanNumber [c] cs := by
  have hne {d : Char} (hd : d.isDigit = false) : c ≠ d := ne_of_kind hc hd
  have hkinds : ∀ d ∈ "0123456789".toList,
      Text.isWordStart d = false ∧ Lexeme.isGap d = false :=
    List.all_iff_forall_prop.mp (by decide)
  obtain ⟨hword, hgap⟩ := hkinds c (mem_of_isDigit hc)
  refine ⟨hgap, ?_⟩
  have hcolon : c ≠ ':' := hne rfl
  have hhash : c ≠ '#' := hne rfl
  have hquote : c ≠ '"' := hne rfl
  have happ : c ≠ '\'' := hne rfl
  simp [Lexeme.scan, hcolon, hhash, hquote, happ, hword, hc]

/-- What starts with a minus and a digit is a number. -/
theorem scan_minus {d : Char} (hd : d.isDigit) (cs : List Char) :
    Lexeme.scan '-' (d :: cs) = Lexeme.scanNumber ['-'] (d :: cs) := by
  have hminus : Text.isWordStart '-' = false := by decide
  have hdigit : Char.isDigit '-' = false := by decide
  simp [Lexeme.scan, hminus, hdigit, hd]

/-- What starts with a character that words start with is a bare word. -/
theorem scan_of_isWordStart {c : Char} (hc : Text.isWordStart c) (cs : List Char) :
    Lexeme.isGap c = false ∧
      Lexeme.scan c cs =
        .ok (Lexeme.textWord (c :: cs.takeWhile Text.isWordPart ++
          (Lexeme.takeParts cs.length (cs.dropWhile Text.isWordPart)).1),
          (Lexeme.takeParts cs.length (cs.dropWhile Text.isWordPart)).2) := by
  have hne {d : Char} (hd : Text.isWordStart d = false) : c ≠ d := ne_of_kind hc hd
  have hcolon : c ≠ ':' := hne (by decide)
  have hhash : c ≠ '#' := hne (by decide)
  have hquote : c ≠ '"' := hne (by decide)
  have happ : c ≠ '\'' := hne (by decide)
  have hspace : c ≠ ' ' := hne (by decide)
  have htab : c ≠ '\t' := hne (by decide)
  have hreturn : c ≠ '\r' := hne (by decide)
  have hfeed : c ≠ '\x0c' := hne (by decide)
  refine ⟨by simp [Lexeme.isGap, hspace, htab, hreturn, hfeed], ?_⟩
  simp [Lexeme.scan, hcolon, hhash, hquote, happ, hc]

/-- What starts with a dollar sign and a character of a word is a variable. -/
theorem scan_dollar {cs : List Char} (hne : cs.takeWhile Text.isWordPart ≠ []) :
    Lexeme.scan '$' cs =
      .ok (Lexeme.textWord ('$' :: cs.takeWhile Text.isWordPart),
        cs.dropWhile Text.isWordPart) := by
  have hword : Text.isWordStart '$' = false := by decide
  have hdigit : Char.isDigit '$' = false := by decide
  simp [Lexeme.scan, hword, hdigit, hne]

/-- What starts with a star is a wildcard. -/
theorem scan_star (cs : List Char) :
    Lexeme.scan '*' cs =
      if cs.head?.any Text.isWordStart then
        .ok (Lexeme.textWord ('*' :: cs.takeWhile Text.isWordPart), cs.dropWhile Text.isWordPart)
      else .ok (Lexeme.textWord ['*'], cs) := by
  have hword : Text.isWordStart '*' = false := by decide
  have hdigit : Char.isDigit '*' = false := by decide
  simp [Lexeme.scan, hword, hdigit]

/-- A sign is a character of no other kind. -/
theorem isSign_kinds {c : Char} (hc : Lexeme.isSign c) :
    c ≠ ':' ∧ c ≠ '#' ∧ c ≠ '"' ∧ c ≠ '\'' ∧ c ≠ '$' ∧ c ≠ '*' ∧ Text.isWordStart c = false ∧
      c.isDigit = false ∧ Lexeme.isGap c = false := by
  have hsigns : ∀ d ∈ "-+/=<>!%".toList, d ≠ ':' ∧ d ≠ '#' ∧ d ≠ '"' ∧ d ≠ '\'' ∧ d ≠ '$' ∧
      d ≠ '*' ∧ Text.isWordStart d = false ∧ d.isDigit = false ∧ Lexeme.isGap d = false :=
    List.all_iff_forall_prop.mp (by decide)
  exact hsigns c (by simpa [Lexeme.isSign, or_assoc] using hc)

/-- What starts with a sign, and is no number, is a run of signs. -/
theorem scan_of_isSign {c : Char} (hc : Lexeme.isSign c) {cs : List Char}
    (hcs : ∀ d ∈ cs.head?, d.isDigit = false) :
    Lexeme.isGap c = false ∧
      Lexeme.scan c cs =
        .ok (Lexeme.textWord (c :: cs.takeWhile Lexeme.isSign), cs.dropWhile Lexeme.isSign) := by
  obtain ⟨hcolon, hhash, hquote, happ, hdollar, hstar, hword, hdigit, hgap⟩ := isSign_kinds hc
  have hnumber : cs.head?.any Char.isDigit = false := by
    cases cs with
    | nil => rfl
    | cons d cs => exact hcs d rfl
  refine ⟨hgap, ?_⟩
  simp [Lexeme.scan, hcolon, hhash, hquote, happ, hdollar, hstar, hword, hdigit, hnumber, hc]

/-- A number is read from its sign or its first digit on, as what is read of it is after those. -/
theorem ReadAs.of_scanNumber {t : Token} {sign ds w : List Char} (hsign : IsMinus sign)
    (hds : AreDigits ds)
    (h : ∀ head more rest, head ++ more = sign ++ ds → (∀ d ∈ more, d.isDigit) → EndsWord rest →
      Lexeme.scanNumber head (more ++ (w ++ rest)) = .ok (.lexeme (.word t), rest)) :
    ReadAs t (sign ++ ds ++ w) := by
  obtain ⟨hne, hdigits⟩ := hds
  obtain ⟨d, ds, rfl⟩ := List.exists_cons_of_ne_nil hne
  have hd := hdigits d List.mem_cons_self
  rcases hsign with rfl | rfl
  · refine ⟨d, ds ++ w, rfl, (scan_of_isDigit hd []).1, fun rest hrest => ?_⟩
    rw [(scan_of_isDigit hd _).2, List.append_assoc]
    exact h [d] ds rest rfl (fun c hc => hdigits c (List.mem_cons_of_mem _ hc)) hrest
  · refine ⟨'-', d :: ds ++ w, rfl, by decide, fun rest hrest => ?_⟩
    have hscan := scan_minus hd (ds ++ (w ++ rest))
    rw [List.append_assoc]
    exact hscan.trans (h ['-'] (d :: ds) rest rfl hdigits hrest)

/-- A word is read as it is spelled. -/
theorem Spells.readAs {t : Token} {w : List Char} (h : Spells t w) : ReadAs t w := by
  cases h with
  | @number sign ds n hsign hds hn =>
    rw [← List.append_nil (sign ++ ds)]
    refine .of_scanNumber hsign hds fun head more rest hsplit hmore hrest => ?_
    exact scanNumber_digits hmore hrest (hsplit ▸ hn)
  | @decimal sign ds fraction hsign hds hfraction =>
    refine .of_scanNumber hsign hds fun head more rest hsplit hmore hrest => ?_
    rw [← List.append_assoc, scanNumber_decimal hmore hfraction hrest, hsplit]
    rfl
  | @quoted q s w hq h =>
    have hback : q ≠ '\\' := by rcases hq with rfl | rfl <;> decide
    refine ⟨q, w ++ [q], rfl, by rcases hq with rfl | rfl <;> decide, fun rest _ => ?_⟩
    have hread := h.unquote hback rest
    rw [List.append_assoc, List.singleton_append]
    rcases hq with rfl | rfl <;> simp [Lexeme.scan, hread, Lexeme.textWord]
  | @bare c first parts hc hfirst hparts =>
    refine ⟨c, first ++ parts, rfl, (scan_of_isWordStart hc []).1, fun rest hrest => ?_⟩
    have hstop : ∀ d ∈ (parts ++ rest).head?, Text.isWordPart d = false := hparts.stop hrest
    obtain ⟨htake, hdrop⟩ := takeWhile_append hfirst hstop
    have hlength : parts.length ≤ (first ++ (parts ++ rest)).length := by
      simp only [List.length_append]
      omega
    rw [List.append_assoc, (scan_of_isWordStart hc _).2, htake, hdrop,
      hparts.takeParts hrest hlength]
    rfl
  | @dollar c name hname =>
    refine ⟨'$', c :: name, rfl, by decide, fun rest hrest => ?_⟩
    obtain ⟨htake, hdrop⟩ := takeWhile_append hname hrest.isWordPart
    rw [scan_dollar (by rw [htake]; simp), htake, hdrop]
    rfl
  | star =>
    refine ⟨'*', [], rfl, by decide, fun rest hrest => ?_⟩
    have hstart := hrest.head (p := Text.isWordStart) (by decide)
    rw [List.nil_append, scan_star, if_neg]
    · rfl
    · cases rest with
      | nil => exact Bool.false_ne_true
      | cons c rest =>
        rw [List.head?_cons, Option.any_some, hstart c rfl]
        exact Bool.false_ne_true
  | @wildcard c name hc hname =>
    refine ⟨'*', c :: name, rfl, by decide, fun rest hrest => ?_⟩
    have hpart : ∀ d ∈ c :: name, Text.isWordPart d := by
      refine List.forall_mem_cons.mpr ⟨?_, hname⟩
      rw [Text.isWordPart]
      rcases Bool.or_eq_true_iff.mp hc with h | h <;> simp [h]
    obtain ⟨htake, hdrop⟩ := takeWhile_append hpart hrest.isWordPart
    rw [scan_star, if_pos (by simpa using hc), htake, hdrop]
    rfl
  | @signs c more h =>
    obtain ⟨hc, hmore⟩ := List.forall_mem_cons.mp h
    have hdigit (rest : List Char) (hrest : EndsWord rest) :
        ∀ d ∈ (more ++ rest).head?, d.isDigit = false := by
      cases more with
      | nil => exact hrest.isDigit
      | cons d more =>
        intro e he
        obtain rfl := Option.mem_some_iff.mp he
        exact (isSign_kinds (hmore d List.mem_cons_self)).2.2.2.2.2.2.2.1
    have hend : ∀ d ∈ ([] : List Char).head?, d.isDigit = false :=
      fun d hd => absurd hd (Option.not_mem_none d)
    refine ⟨c, more, rfl, (scan_of_isSign hc hend).1, fun rest hrest => ?_⟩
    obtain ⟨htake, hdrop⟩ := takeWhile_append hmore hrest.isSign
    rw [(scan_of_isSign hc (hdigit rest hrest)).2, htake, hdrop]
    rfl

/-! ### Lines -/

/-- A lexeme is followed by those of the rest of the line. -/
theorem ofChars_lexeme {c : Char} {cs rest : List Char} {l : Lexeme} {ls : List Lexeme}
    (hgap : Lexeme.isGap c = false) (hscan : Lexeme.scan c cs = .ok (.lexeme l, rest))
    (hrest : ∀ column, Lexeme.ofChars column rest = .ok ls) (column : Nat) :
    Lexeme.ofChars column (c :: cs) = .ok (l :: ls) := by
  rw [Lexeme.ofChars, if_neg (by rw [hgap]; exact Bool.false_ne_true)]
  split
  · next hfault => cases hscan.symm.trans hfault
  · next piece rest' hpiece =>
    obtain ⟨rfl, rfl⟩ := Prod.mk.inj (Except.ok.inj (hscan.symm.trans hpiece))
    simp only [hrest]

/-- The lexemes of a line are those that it spells. -/
theorem SpellsLine.ofChars {ls : List Lexeme} {cs : List Char} (h : SpellsLine ls cs)
    (column : Nat) : Lexeme.ofChars column cs = .ok ls := by
  induction h generalizing column with
  | nil => rw [Lexeme.ofChars]
  | @comment text h =>
    have hgap : Lexeme.isGap '#' = false := by decide
    have hall : text.dropWhile (· != '\n') = [] := by
      rw [List.dropWhile_eq_nil_iff]
      exact fun c hc => bne_iff_ne.mpr fun heq => h (heq ▸ hc)
    have hscan : Lexeme.scan '#' text = .ok (.comment, []) := by
      simp [Lexeme.scan, hall]
    rw [Lexeme.ofChars, if_neg (by rw [hgap]; exact Bool.false_ne_true)]
    split
    · next hfault => cases hscan.symm.trans hfault
    · next piece rest hpiece =>
      obtain ⟨rfl, rfl⟩ := Prod.mk.inj (Except.ok.inj (hscan.symm.trans hpiece))
      simp only [Lexeme.ofChars]
  | @space c ls cs hc h ih =>
    have hgap : Lexeme.isGap c = true := by
      rcases Bool.or_eq_true_iff.mp hc with h | h <;> simp [Lexeme.isGap, beq_iff_eq.mp h]
    rw [Lexeme.ofChars, if_pos hgap, ih]
  | @word t w cs ls hw hcs h ih =>
    obtain ⟨c, w, rfl, hgap, hscan⟩ := hw.readAs
    exact ofChars_lexeme hgap (hscan cs hcs) ih column
  | @colon ls cs h ih => exact ofChars_lexeme (by decide) rfl ih column

/-! ### The end of a line -/

/-- A character that ends a line. -/
def isLineEnd (c : Char) : Bool := c == '\n' || c == '\r'

/-- What is dropped at the end of a text is dropped at the end of its last part, if the part before
ends with something that is kept. -/
theorem rdropWhile_append {p : Char → Bool} {a : List Char} (ha : ∀ c ∈ a.getLast?, p c = false)
    (b : List Char) : (a ++ b).rdropWhile p = a ++ b.rdropWhile p := by
  have hkeep : a.rdropWhile p = a := by
    rw [List.rdropWhile_eq_self_iff]
    intro hne
    rw [ha _ (List.getLast?_eq_some_getLast hne)]
    exact Bool.false_ne_true
  rw [List.rdropWhile, List.reverse_append, List.dropWhile_append]
  split
  · next h =>
    have hb : b.rdropWhile p = [] := by
      rw [List.rdropWhile, List.isEmpty_iff.mp h, List.reverse_nil]
    rw [hb, List.append_nil]
    exact hkeep
  · rw [List.reverse_append, List.reverse_reverse, List.rdropWhile]

/-- What is left of a text begins as it does. -/
theorem mem_head?_rdropWhile {p : Char → Bool} {cs : List Char} {c : Char}
    (h : c ∈ (cs.rdropWhile p).head?) : c ∈ cs.head? := by
  obtain ⟨more, hmore⟩ := List.rdropWhile_prefix p cs
  rw [← hmore, List.head?_append, Option.mem_def.mp h]
  rfl

/-- A character of a kind that ends no line. -/
theorem not_isLineEnd {p : Char → Bool} {c : Char} (hc : p c)
    (hp : p '\n' = false ∧ p '\r' = false) : isLineEnd c = false := by
  rw [isLineEnd, beq_false_of_ne (ne_of_kind hc hp.1), beq_false_of_ne (ne_of_kind hc hp.2)]
  rfl

theorem WordParts.not_isLineEnd {parts : List Char} (h : WordParts parts) :
    ∀ c ∈ parts, isLineEnd c = false := by
  induction h with
  | nil => simp
  | @cons sep c part more hsep hc hpart hmore ih =>
    intro d hd
    simp only [List.cons_append, List.mem_cons, List.mem_append] at hd
    rcases hd with rfl | rfl | hd | hd
    · rcases hsep with rfl | rfl <;> rfl
    · exact Script.not_isLineEnd hc (by decide)
    · exact Script.not_isLineEnd (hpart d hd) (by decide)
    · exact ih d hd

theorem IsMinus.not_isLineEnd {sign : List Char} (h : IsMinus sign) :
    ∀ c ∈ sign, isLineEnd c = false := by
  rcases h with rfl | rfl <;> exact List.all_iff_forall_prop.mp (by decide)

theorem AreDigits.not_isLineEnd {ds : List Char} (h : AreDigits ds) :
    ∀ c ∈ ds, isLineEnd c = false :=
  fun c hc => Script.not_isLineEnd (h.2 c hc) (by decide)

/-- No word ends with the end of a line. -/
theorem Spells.getLast? {t : Token} {w : List Char} (h : Spells t w) :
    ∀ c ∈ w.getLast?, isLineEnd c = false := by
  intro c hc
  cases h with
  | @quoted q s w hq h =>
    obtain rfl : q = c := Option.some.inj ((List.getLast?_concat (l := q :: w)).symm.trans hc)
    rcases hq with rfl | rfl <;> rfl
  | @number sign ds n hsign hds hn =>
    rcases List.mem_append.mp (List.mem_of_getLast? hc) with h | h
    · exact hsign.not_isLineEnd c h
    · exact hds.not_isLineEnd c h
  | @decimal sign ds more hsign hds hmore =>
    have hmem := List.mem_of_getLast? hc
    simp only [List.mem_append, List.mem_cons] at hmem
    rcases hmem with (h | h) | rfl | h
    · exact hsign.not_isLineEnd c h
    · exact hds.not_isLineEnd c h
    · rfl
    · exact hmore.not_isLineEnd c h
  | @bare d first parts hd hfirst hparts =>
    have hmem := List.mem_of_getLast? hc
    simp only [List.cons_append, List.mem_cons, List.mem_append] at hmem
    rcases hmem with rfl | h | h
    · exact not_isLineEnd hd (by decide)
    · exact not_isLineEnd (hfirst c h) (by decide)
    · exact hparts.not_isLineEnd c h
  | @dollar d name hname =>
    rcases List.mem_cons.mp (List.mem_of_getLast? hc) with rfl | h
    · rfl
    · exact not_isLineEnd (hname c h) (by decide)
  | star =>
    obtain rfl : '*' = c := by simpa using hc
    rfl
  | @wildcard d name hd hname =>
    have hmem := List.mem_of_getLast? hc
    simp only [List.mem_cons] at hmem
    rcases hmem with rfl | rfl | h
    · rfl
    · exact not_isLineEnd hd (by decide)
    · exact not_isLineEnd (hname c h) (by decide)
  | @signs d more h => exact not_isLineEnd (h c (List.mem_of_getLast? hc)) (by decide)

/-- A line spells the same without the characters at its end that end lines. -/
theorem SpellsLine.rdropWhile {ls : List Lexeme} {cs : List Char} (h : SpellsLine ls cs) :
    SpellsLine ls (cs.rdropWhile isLineEnd) := by
  have hcons {c : Char} (hc : isLineEnd c = false) (cs : List Char) :
      (c :: cs).rdropWhile isLineEnd = c :: cs.rdropWhile isLineEnd := by
    refine rdropWhile_append (a := [c]) (fun d hd => ?_) cs
    obtain rfl : c = d := by simpa using hd
    exact hc
  induction h with
  | nil => exact .nil
  | @comment text h =>
    rw [hcons rfl]
    exact .comment fun hmem => h ((List.rdropWhile_prefix _ _).mem hmem)
  | @space c ls cs hc h ih =>
    rw [hcons (not_isLineEnd hc (by decide))]
    exact .space hc ih
  | @word t w cs ls hw hcs h ih =>
    rw [rdropWhile_append hw.getLast?]
    exact .word hw (fun c hc => hcs c (mem_head?_rdropWhile hc)) ih
  | @colon ls cs h ih =>
    rw [hcons rfl]
    exact .colon ih

/-! ### Everything can be spelled -/

/-- A number or a text, and not a nested name. -/
def IsWord : Token → Prop
  | .sub _ => False
  | _ => True

/-- Every text can be quoted. -/
theorem Quotes.exists (s : List Char) : ∃ w, Quotes '"' s w := by
  induction s with
  | nil => exact ⟨[], .nil⟩
  | cons c s ih =>
    obtain ⟨w, hw⟩ := ih
    by_cases hc : c = '"' ∨ c = '\\'
    · rcases hc with rfl | rfl
      · exact ⟨_, .escaped (c := '"') (by decide) hw⟩
      · exact ⟨_, .escaped (c := '\\') (by decide) hw⟩
    · obtain ⟨hquote, hback⟩ := not_or.mp hc
      exact ⟨_, .plain hquote hback hw⟩

/-- A number is spelled by its decimal text. -/
theorem Spells.ofInt64 (n : Int64) : Spells (.int n) (Decimal.ofInt64 n).toList := by
  have htext := Decimal.toList_toString n.toInt
  have hsign : IsMinus (if n.toInt < 0 then ['-'] else []) := by
    rw [IsMinus]
    split <;> simp
  have hdigits : AreDigits (Nat.toDigits 10 n.toInt.natAbs) :=
    ⟨Nat.toDigits_ne_nil, fun d hd => Decimal.isDigit_of_mem_toDigits hd⟩
  rw [Decimal.ofInt64, htext]
  refine .number hsign hdigits ?_
  rw [← htext, String.ofList_toList]
  exact Decimal.readInt64_ofInt64 n

/-- Every number and every text can be spelled. -/
theorem Spells.exists {t : Token} (ht : IsWord t) : ∃ w, Spells t w := by
  cases t with
  | int n => exact ⟨_, .ofInt64 n⟩
  | text s =>
    obtain ⟨w, hw⟩ := Quotes.exists s.toList
    rw [← String.ofList_toList (s := s)]
    exact ⟨_, .quoted (.inl rfl) hw⟩
  | sub ws => exact ht.elim

end Hearth.Script
