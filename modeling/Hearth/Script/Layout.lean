import Hearth.Script.Lexeme

/-!
# Layout

Indentation carries the structure of a script. A line is turned into marks: its words and colons,
preceded by the levels that it opens or closes, and followed by the end of the line. Blank lines
and lines with only a comment leave no marks.

The levels that are open are kept innermost first; the outermost level is zero.
-/

namespace Hearth.Script

/-- One element of the marked text. -/
inductive MarkKind where
  | word (token : Token)
  | colon
  | newline
  | indent
  | dedent
  | finish
  deriving Repr, DecidableEq, Inhabited

/-- A mark and the line it belongs to. -/
structure Mark where
  kind : MarkKind
  line : Nat
  deriving Repr, DecidableEq, Inhabited

/-- The state between two lines: the widths of the open levels, innermost first and without the
outermost one, which is zero; and the number of the last line. -/
structure Layout where
  inner : List Nat
  line : Nat
  deriving Repr, DecidableEq, Inhabited

namespace Layout

/-- Before the first line. -/
def start : Layout := ⟨[], 0⟩

/-- A tab goes on to the next multiple of this width. -/
def tabWidth : Nat := 8

/-- The innermost width of a list of open levels. -/
def top : List Nat → Nat
  | [] => 0
  | w :: _ => w

/-- The width of the indentation of a line that is `width` wide so far, and the text after it. A
line of blanks alone has no text. -/
def indentation (width : Nat) : List Char → Nat × List Char
  | [] => (width, [])
  | ' ' :: rest => indentation (width + 1) rest
  | '\t' :: rest => indentation ((width / tabWidth + 1) * tabWidth) rest
  | '\x0c' :: rest => indentation 0 rest
  | c :: rest => (width, c :: rest)

/-- Closes the levels wider than `width`; gives how many were closed and those that stay open. -/
def closeTo (width : Nat) : List Nat → Nat × List Nat
  | [] => (0, [])
  | w :: ws =>
    if width < w then
      let (n, rest) := closeTo width ws
      (n + 1, rest)
    else (0, w :: ws)

/-- The mark of a lexeme. -/
def markKind : Lexeme → MarkKind
  | .word t => .word t
  | .colon => .colon

/-- Takes one line. The levels that the line opens or closes stay so even if the line has a
fault. -/
def feed (l : Layout) (text : String) : Layout × Except Fault (List Mark) :=
  let line := l.line + 1
  let text := (Text.dropEndWhile (fun c => c == '\n' || c == '\r') text).toList
  let (width, body) := indentation 0 text
  if body.isEmpty || body.head? == some '#' then ({ l with line }, .ok [])
  else
    let (levels, inner) :=
      if top l.inner < width then ([MarkKind.indent], width :: l.inner)
      else
        let (n, inner) := closeTo width l.inner
        (List.replicate n MarkKind.dedent, inner)
    if width != top inner then (⟨inner, line⟩, .error .unmatchedIndent)
    else
      match Lexeme.ofChars 0 body with
      | .error fault => (⟨inner, line⟩, .error fault)
      | .ok lexemes =>
        let kinds := levels ++ lexemes.map markKind ++ [.newline]
        (⟨inner, line⟩, .ok (kinds.map fun kind => ⟨kind, line⟩))

/-- Ends the text: closes every level that is still open. -/
def close (l : Layout) : Layout × List Mark :=
  ({ l with inner := [] },
    (List.replicate l.inner.length MarkKind.dedent ++ [MarkKind.finish]).map fun kind =>
      ⟨kind, l.line⟩)

/-- Forgets the open levels, not the number of lines. -/
def reset (l : Layout) : Layout := { l with inner := [] }

end Layout

end Hearth.Script
