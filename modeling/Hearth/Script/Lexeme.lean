import Hearth.Script.Fault
import Hearth.Text.Letter

/-!
# Lexemes

The text of a line is cut into words and colons. At every place the longest possible piece is
taken: a bare word, a number, a quoted text, a variable, a wildcard or a run of operator signs.
Blanks between pieces and a comment at the end are skipped.

Every piece uses up at least one character (`scan_length`), which bounds the work by the length of
the text.
-/

namespace Hearth.Script

/-- A lexical element of a line. -/
inductive Lexeme where
  | word (token : Token)
  | colon
  deriving Repr, DecidableEq, Inhabited

namespace Lexeme

/-- Characters between pieces. -/
def isGap (c : Char) : Bool := c == ' ' || c == '\t' || c == '\r' || c == '\x0c'

/-- Signs that operators are made of. -/
def isSign (c : Char) : Bool :=
  c == '-' || c == '+' || c == '/' || c == '=' || c == '<' || c == '>' || c == '!' || c == '%'

/-- What a backslash and a character stand for inside quotes. -/
def unescape : Char → Char
  | 'n' => '\n'
  | 't' => '\t'
  | 'r' => '\r'
  | '0' => '\x00'
  | c => c

/-- The text up to the closing quote `q`, with its escapes read, and what follows the quote. A
backslash cannot hide the end of a line. -/
def unquote (q : Char) : List Char → Option (List Char × List Char)
  | [] => none
  | '\\' :: c :: rest =>
    if c == '\n' then none else (unquote q rest).map fun (s, r) => (unescape c :: s, r)
  | c :: rest => if c == q then some ([], rest) else (unquote q rest).map fun (s, r) => (c :: s, r)

/-- What is taken of a quoted text that never ends: everything before an escape that cannot be
completed. -/
def unclosed : List Char → List Char
  | [] => []
  | ['\\'] => []
  | '\\' :: c :: rest => if c == '\n' then [] else '\\' :: c :: unclosed rest
  | c :: rest => c :: unclosed rest

/-- What follows the first part of a bare word: any number of parts, each after a point or a
minus. Gives the characters taken and the rest. -/
def takeParts : Nat → List Char → List Char × List Char
  | 0, cs => ([], cs)
  | n + 1, cs =>
    match cs with
    | sep :: c :: rest =>
      if (sep == '.' || sep == '-') && Text.isWordPart c then
        let part := rest.takeWhile Text.isWordPart
        let (more, rest) := takeParts n (rest.dropWhile Text.isWordPart)
        (sep :: c :: part ++ more, rest)
      else ([], cs)
    | cs => ([], cs)

/-- A piece of a line: a lexeme, or a comment. -/
inductive Piece where
  | lexeme (value : Lexeme)
  | comment
  deriving Repr, DecidableEq

/-- The word made of characters. -/
def textWord (cs : List Char) : Piece := .lexeme (.word (.text (String.ofList cs)))

/-- A number without a point, if it fits 64 bits, in front of `rest`. -/
def wholeNumber (whole rest : List Char) : Except (List Char) (Piece × List Char) :=
  match Decimal.readInt64 (String.ofList whole) with
  | some n => .ok (.lexeme (.word (.int n)), rest)
  | none => .error whole

/-- A number: digits, perhaps a point and more digits, after the characters `head` (a minus, or
none). A number without a point has to fit 64 bits; one with a point stays a text. -/
def scanNumber (head cs : List Char) : Except (List Char) (Piece × List Char) :=
  let whole := head ++ cs.takeWhile Char.isDigit
  let rest := cs.dropWhile Char.isDigit
  match rest with
  | '.' :: d :: more =>
    if d.isDigit then
      .ok (textWord (whole ++ '.' :: d :: more.takeWhile Char.isDigit),
        more.dropWhile Char.isDigit)
    else wholeNumber whole rest
  | _ => wholeNumber whole rest

/-- The longest piece that starts with `c` and goes on in `cs`, and what follows it; or the
characters that no piece starts with. -/
def scan (c : Char) (cs : List Char) : Except (List Char) (Piece × List Char) :=
  if c == ':' then .ok (.lexeme .colon, cs)
  else if c == '#' then .ok (.comment, cs.dropWhile (· != '\n'))
  else if c == '"' || c == '\'' then
    match unquote c cs with
    | some (s, rest) => .ok (textWord s, rest)
    | none => .error (c :: unclosed cs)
  else if Text.isWordStart c then
    let first := cs.takeWhile Text.isWordPart
    let (parts, rest) := takeParts cs.length (cs.dropWhile Text.isWordPart)
    .ok (textWord (c :: first ++ parts), rest)
  else if c.isDigit then scanNumber [c] cs
  else if c == '-' && (cs.head?.any Char.isDigit) then scanNumber [c] cs
  else if c == '$' then
    let name := cs.takeWhile Text.isWordPart
    if name.isEmpty then .error [c]
    else .ok (textWord (c :: name), cs.dropWhile Text.isWordPart)
  else if c == '*' then
    if cs.head?.any Text.isWordStart then
      .ok (textWord (c :: cs.takeWhile Text.isWordPart), cs.dropWhile Text.isWordPart)
    else .ok (textWord [c], cs)
  else if isSign c then
    .ok (textWord (c :: cs.takeWhile isSign), cs.dropWhile isSign)
  else .error [c]

theorem unquote_length {q : Char} {cs s rest : List Char} (h : unquote q cs = some (s, rest)) :
    rest.length ≤ cs.length := by
  fun_induction unquote q cs generalizing s rest with
  | case1 => simp at h
  | case2 => simp at h
  | case3 c cs _ ih =>
    simp only [Option.map_eq_some_iff, Prod.mk.injEq, Prod.exists] at h
    obtain ⟨a, b, hab, -, rfl⟩ := h
    have := ih hab
    simp only [List.length_cons]
    omega
  | case4 =>
    simp only [Option.some.injEq, Prod.mk.injEq] at h
    simp [← h.2]
  | case5 c cs _ _ ih =>
    simp only [Option.map_eq_some_iff, Prod.mk.injEq, Prod.exists] at h
    obtain ⟨a, b, hab, -, rfl⟩ := h
    have := ih hab
    simp only [List.length_cons]
    omega

theorem dropWhile_length_le (p : Char → Bool) (cs : List Char) :
    (cs.dropWhile p).length ≤ cs.length := (List.dropWhile_suffix p).length_le

theorem takeParts_length (n : Nat) (cs : List Char) : (takeParts n cs).2.length ≤ cs.length := by
  fun_induction takeParts n cs with
  | case1 => simp
  | case2 n sep c rest _ part more left h ih =>
    have := dropWhile_length_le Text.isWordPart rest
    simp only [h] at ih
    simp only [List.length_cons]
    omega
  | case3 => simp
  | case4 => simp

theorem scanNumber_length {head cs rest : List Char} {p : Piece}
    (h : scanNumber head cs = .ok (p, rest)) : rest.length ≤ cs.length := by
  have hd := dropWhile_length_le Char.isDigit cs
  have whole : ∀ {w r : List Char}, wholeNumber w r = .ok (p, rest) → rest = r := by
    intro w r hw
    simp only [wholeNumber] at hw
    split at hw <;> simp_all
  simp only [scanNumber] at h
  split at h
  next d more hm =>
    split at h
    · simp only [Except.ok.injEq, Prod.mk.injEq] at h
      have := dropWhile_length_le Char.isDigit more
      simp only [hm, List.length_cons] at hd
      obtain ⟨rfl, rfl⟩ := h
      omega
    · rw [whole h]
      exact hd
  · rw [whole h]
    exact hd

/-- What follows a piece is no longer than what followed its first character. -/
theorem scan_length {c : Char} {cs rest : List Char} {p : Piece}
    (h : scan c cs = .ok (p, rest)) : rest.length ≤ cs.length := by
  simp only [scan] at h
  repeat' split at h
  all_goals first
    | (simp at h; done)
    | exact scanNumber_length h
    | (simp only [Except.ok.injEq, Prod.mk.injEq] at h
       obtain ⟨rfl, rfl⟩ := h
       first
         | exact Nat.le_refl _
         | exact dropWhile_length_le _ _
         | exact unquote_length (by assumption)
         | exact Nat.le_trans (takeParts_length _ _) (dropWhile_length_le _ _))

/-- The number of bytes of characters. -/
def byteCount (cs : List Char) : Nat := cs.foldl (fun n c => n + c.utf8Size) 0

/-- The lexemes of the rest of a line; `column` counts the bytes before it. -/
def ofChars (column : Nat) (cs : List Char) : Except Fault (List Lexeme) :=
  match cs with
  | [] => .ok []
  | c :: cs =>
    if isGap c then ofChars (column + 1) cs
    else
      match h : scan c cs with
      | .error piece => .error (.unexpectedInput (String.ofList piece) (column + 1))
      | .ok (piece, rest) =>
        let taken := (c :: cs).take (cs.length + 1 - rest.length)
        have := scan_length h
        match ofChars (column + byteCount taken) rest with
        | .error fault => .error fault
        | .ok more =>
          match piece with
          | .lexeme l => .ok (l :: more)
          | .comment => .ok more
termination_by cs.length
decreasing_by
  all_goals simp only [List.length_cons]; omega

/-- The lexemes of the text of one line, without its indentation and its end. -/
def ofLine (text : String) : Except Fault (List Lexeme) := ofChars 0 text.toList

end Lexeme

end Hearth.Script
