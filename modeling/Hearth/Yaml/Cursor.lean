/-!
# Places in a text of YAML

A cursor stands in front of the rest of a text and knows its line, its column and how many
characters it has passed. A blank is a space or a tab. Carriage return and line feed together make
one line break; each of them alone, next line, and the line and paragraph separators make one too.
The last two keep their character in texts, all others become a line feed.
-/

namespace Hearth.Yaml

/-- A space or a tab. -/
def isBlank (c : Char) : Bool := c == ' ' || c == '\t'

/-- A line break that texts keep as it is. -/
def isSeparator (c : Char) : Bool := c == '\u2028' || c == '\u2029'

/-- A character that breaks the line. -/
def isBreak (c : Char) : Bool := c == '\r' || c == '\n' || c == '\u0085' || isSeparator c

/-- A character that names are made of. -/
def isWord (c : Char) : Bool := c.isAlphanum || c == '_' || c == '-'

/-- May the character stand in a text of YAML at all? -/
def isAllowed (c : Char) : Bool :=
  let n := c.toNat
  c == '\t' || c == '\n' || c == '\r' || (0x20 ≤ n && n ≤ 0x7e) || n == 0x85 ||
    (0xa0 ≤ n && n ≤ 0xfffd) || 0x10000 ≤ n

/-- Nothing, a blank or a line break comes next. -/
def spaced : List Char → Bool
  | [] => true
  | c :: _ => isBlank c || isBreak c

/-- Nothing or a line break comes next. -/
def lineEnds : List Char → Bool
  | [] => true
  | c :: _ => isBreak c

/-- A place in a text. -/
structure Cursor where
  rest : List Char
  index : Nat
  line : Nat
  column : Nat
  deriving Repr, Inhabited

namespace Cursor

/-- The start of a text. A byte order mark there is passed over and takes a column. -/
def start : List Char → Cursor
  | '\ufeff' :: rest => ⟨rest, 1, 0, 1⟩
  | text => ⟨text, 0, 0, 0⟩

/-- Passes `n` characters of the line. -/
def advance (n : Nat) (c : Cursor) : Cursor :=
  { c with rest := c.rest.drop n, index := c.index + n, column := c.column + n }

/-- Passes characters of the line while a test holds of them; gives them too. -/
def takeWhile (test : Char → Bool) (c : Cursor) : List Char × Cursor :=
  let taken := c.rest.takeWhile test
  (taken, c.advance taken.length)

/-- Passes characters of the line while a test holds of them. -/
def skipWhile (test : Char → Bool) (c : Cursor) : Cursor := (c.takeWhile test).2

/-- Passes the rest of the line. -/
def skipLine (c : Cursor) : Cursor := c.skipWhile (!isBreak ·)

/-- Passes a line break, if there is one, and gives what it counts for in a text. -/
def takeBreak (c : Cursor) : List Char × Cursor :=
  match c.rest with
  | '\r' :: '\n' :: rest => (['\n'], ⟨rest, c.index + 2, c.line + 1, 0⟩)
  | ch :: rest =>
    if isBreak ch then
      ([if isSeparator ch then ch else '\n'], ⟨rest, c.index + 1, c.line + 1, 0⟩)
    else ([], c)
  | [] => ([], c)

/-- Passes a line break, if there is one. -/
def skipBreak (c : Cursor) : Cursor := c.takeBreak.2

/-- Three dashes, or three dots, that stand at the start of a line and alone. -/
def atMarker (mark : Char) (c : Cursor) : Bool :=
  c.column == 0 && c.rest.take 3 == [mark, mark, mark] && spaced (c.rest.drop 3)

/-- The start or the end of a document comes next. -/
def atDocumentMarker (c : Cursor) : Bool := c.atMarker '-' || c.atMarker '.'

end Cursor

end Hearth.Yaml
