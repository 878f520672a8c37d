/-!
# Blanks

A blank is a character with the property White_Space. Names are split at blanks, and a token that
holds one is quoted when it is printed.
-/

namespace Hearth.Text

/-- The characters with the property White_Space. -/
def isBlank (c : Char) : Bool :=
  let n := c.toNat
  n == 0x20 || (0x09 ≤ n && n ≤ 0x0d) || n == 0x85 || n == 0xa0 || n == 0x1680 ||
    (0x2000 ≤ n && n ≤ 0x200a) || n == 0x2028 || n == 0x2029 || n == 0x202f || n == 0x205f ||
    n == 0x3000

/-- Splits at runs of blanks; `word` holds the characters of the word being read, last first. -/
def splitBlanks (word : List Char) : List Char → List String
  | [] => if word.isEmpty then [] else [String.ofList word.reverse]
  | c :: rest =>
    if isBlank c then
      if word.isEmpty then splitBlanks [] rest
      else String.ofList word.reverse :: splitBlanks [] rest
    else splitBlanks (c :: word) rest

/-- The words of a text: the longest stretches without a blank. -/
def words (s : String) : List String := splitBlanks [] s.toList

/-- The text without the characters at its end that satisfy `p`. -/
def dropEndWhile (p : Char → Bool) (s : String) : String :=
  String.ofList (s.toList.reverse.dropWhile p).reverse

/-- The text without the characters at its start that satisfy `p`. -/
def dropStartWhile (p : Char → Bool) (s : String) : String :=
  String.ofList (s.toList.dropWhile p)

/-- The text without blanks at its end. -/
def trimEnd (s : String) : String := dropEndWhile isBlank s

/-- The text without blanks at either end. -/
def trim (s : String) : String := dropEndWhile isBlank (dropStartWhile isBlank s)

/-- The lines of a text: a line feed ends a line, a carriage return before it belongs to the end
of the line, and what follows the last line feed is a line unless it is empty. -/
def linesFrom (line : List Char) : List Char → List String
  | [] => if line.isEmpty then [] else [String.ofList line.reverse]
  | '\n' :: rest =>
    let line := match line with
      | '\r' :: shorter => shorter
      | whole => whole
    String.ofList line.reverse :: linesFrom [] rest
  | c :: rest => linesFrom (c :: line) rest

/-- The lines of a text, without their ends. -/
def lines (s : String) : List String := linesFrom [] s.toList

/-- Does `needle` occur in `s`? The empty text occurs everywhere. -/
def occurs (needle s : List Char) : Bool :=
  match s with
  | [] => needle.isEmpty
  | _ :: rest => needle.isPrefixOf s || occurs needle rest

end Hearth.Text
