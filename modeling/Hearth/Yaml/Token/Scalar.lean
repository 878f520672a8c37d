import Hearth.Yaml.Cursor

/-!
# Texts in a text of YAML

The three ways to write a text: plain, between quotes, and as a block of lines. Lines are folded:
a single line break inside a plain or quoted text becomes a space, of more than one the first is
dropped.

The readers take a number of rounds. A round passes at least one character, so one more than there
are characters is always enough.
-/

namespace Hearth.Yaml

/-- What stands between two words of a text: blanks, or line breaks with blanks around them. -/
inductive Gap where
  | blanks (text : List Char)
  /-- The first break and the further ones. The first is empty if it was escaped. -/
  | breaks (first more : List Char)
  deriving Repr, DecidableEq, Inhabited

namespace Gap

/-- Nothing. -/
def none : Gap := .blanks []

/-- Is there a line break? -/
def isBroken : Gap → Bool
  | .blanks _ => false
  | .breaks .. => true

/-- Is there anything? -/
def isEmpty : Gap → Bool
  | .blanks text => text.isEmpty
  | .breaks .. => false

/-- A blank more; next to a line break it counts for nothing. -/
def blank (c : Char) : Gap → Gap
  | .blanks text => .blanks (text ++ [c])
  | .breaks first more => .breaks first more

/-- A line break more. -/
def newline (text : List Char) : Gap → Gap
  | .blanks _ => .breaks text []
  | .breaks first more => .breaks first (more ++ text)

/-- What the gap counts for. -/
def fold : Gap → List Char
  | .blanks text => text
  | .breaks ['\n'] [] => [' ']
  | .breaks ['\n'] more => more
  | .breaks first more => first ++ more

end Gap

/-- A text that was read, in reverse. -/
abbrev Reversed := List Char

namespace Reversed

/-- Adds characters at the end. -/
def add (text : Reversed) (more : List Char) : Reversed := more.reverse ++ text

/-- The text in its order. -/
def text (text : Reversed) : String := String.ofList text.reverse

end Reversed

/-! ## Plain texts -/

/-- A character that ends a plain text, or starts another token, inside flow brackets. -/
def isFlowMark (c : Char) : Bool := c == ',' || c == '[' || c == ']' || c == '\x7b' || c == '\x7d'

/-- Does a plain text end in front of `c :: rest`? -/
def plainEnds (flow : Bool) (c : Char) (rest : List Char) : Bool :=
  (c == ':' && spaced rest) || (flow && isFlowMark c)

/-- A colon may not touch an indicator inside flow brackets. -/
def colonTouches (c : Char) (rest : List Char) : Bool :=
  c == ':' && match rest with
    | d :: _ => d == '?' || isFlowMark d
    | [] => false

/-- A plain text from `c` on: the text, whether a line break was passed after it, and the place
behind. It goes on over lines that are indented by at least `indent`. -/
def readPlain (flow : Bool) (indent : Int) (text : Reversed) (gap : Gap) :
    Nat → Cursor → Option (String × Bool × Cursor)
  | 0, _ => none
  | rounds + 1, c =>
    let finish := some (text.text, gap.isBroken, c)
    match c.rest with
    | [] => finish
    | ch :: rest =>
      if isBlank ch then
        if gap.isBroken && c.column < indent && ch == '\t' then none
        else readPlain flow indent text (gap.blank ch) rounds (c.advance 1)
      else if isBreak ch then
        let (line, c) := c.takeBreak
        readPlain flow indent text (gap.newline line) rounds c
      else if !gap.isEmpty &&
          ((!flow && c.column < indent) || c.atDocumentMarker || ch == '#') then finish
      else if flow && colonTouches ch rest then none
      else if plainEnds flow ch rest then finish
      else readPlain flow indent (ch :: text.add gap.fold) .none rounds (c.advance 1)

/-! ## Quoted texts -/

/-- The value of a hexadecimal digit. -/
def hexDigit? (c : Char) : Option Nat :=
  if c.isDigit then some (c.toNat - '0'.toNat)
  else if 'a' ≤ c && c ≤ 'f' then some (c.toNat - 'a'.toNat + 10)
  else if 'A' ≤ c && c ≤ 'F' then some (c.toNat - 'A'.toNat + 10)
  else none

/-- The value of hexadecimal digits, if they are some. -/
def hexValue? (cs : List Char) : Option Nat :=
  cs.foldl (fun n c => do return 16 * (← n) + (← hexDigit? c)) (some 0)

/-- The character of a code. -/
def charOfCode? (n : Nat) : Option Char := if n.isValidChar then some (Char.ofNat n) else none

/-- How many hexadecimal digits a code has that follows the letter. -/
def codeLength? (c : Char) : Option Nat :=
  match c with
  | 'x' => some 2
  | 'u' => some 4
  | 'U' => some 8
  | _ => none

/-- What a letter stands for behind a backslash. -/
def escaped? (c : Char) : Option Char :=
  match c with
  | '0' => some '\x00'
  | 'a' => some '\x07'
  | 'b' => some '\x08'
  | 't' | '\t' => some '\t'
  | 'n' => some '\n'
  | 'v' => some '\x0b'
  | 'f' => some '\x0c'
  | 'r' => some '\r'
  | 'e' => some '\x1b'
  | ' ' | '"' | '/' | '\\' => some c
  | 'N' => some '\u0085'
  | '_' => some '\u00a0'
  | 'L' => some '\u2028'
  | 'P' => some '\u2029'
  | _ => none

/-- What the characters behind a backslash stand for, and how many they are. -/
def readEscape? : List Char → Option (Char × Nat)
  | [] => none
  | c :: rest =>
    match codeLength? c with
    | some n =>
      if rest.length < n then none
      else do return (← charOfCode? (← hexValue? (rest.take n)), n + 1)
    | none => do return (← escaped? c, 1)

/-- A quoted text behind its first quote. Single quotes stand for themselves when written twice,
double quotes know escapes. A marker of documents may not stand in it. -/
def readQuoted (double : Bool) (text : Reversed) (gap : Gap) :
    Nat → Cursor → Option (String × Cursor)
  | 0, _ => none
  | rounds + 1, c =>
    match c.rest with
    | [] => none
    | ch :: rest =>
      if isBlank ch then readQuoted double text (gap.blank ch) rounds (c.advance 1)
      else if isBreak ch then
        let (line, c) := c.takeBreak
        readQuoted double text (gap.newline line) rounds c
      else if c.atDocumentMarker then none
      else
        let text := text.add gap.fold
        if !double && ch == '\'' && rest.head? == some '\'' then
          readQuoted double ('\'' :: text) .none rounds (c.advance 2)
        else if ch == (if double then '"' else '\'') then some (text.text, c.advance 1)
        else if double && ch == '\\' then
          if rest.head?.any isBreak then
            readQuoted double text (.breaks [] []) rounds (c.advance 1).skipBreak
          else
            match readEscape? rest with
            | some (e, n) => readQuoted double (e :: text) .none rounds (c.advance (n + 1))
            | none => none
        else readQuoted double (ch :: text) .none rounds (c.advance 1)

/-! ## Blocks of lines -/

/-- What becomes of the line breaks at the end of a block. -/
inductive Chomp where
  | strip
  | clip
  | keep
  deriving Repr, DecidableEq, Inhabited

/-- A chomping indicator. -/
def Chomp.ofChar? (c : Char) : Option Chomp :=
  match c with
  | '+' => some .keep
  | '-' => some .strip
  | _ => none

/-- The indicators behind the mark of a block, in any order: the indentation, if it is given, the
chomping, and the place behind. -/
def readBlockHeader (c : Cursor) : Option (Option Nat × Chomp × Cursor) :=
  let digit? (c : Cursor) : Option (Option Nat × Cursor) :=
    match c.rest with
    | d :: _ =>
      if d == '0' then none
      else if d.isDigit then some (some (d.toNat - '0'.toNat), c.advance 1)
      else some (none, c)
    | [] => some (none, c)
  let chomp (c : Cursor) : Option Chomp × Cursor :=
    match c.rest.head? >>= Chomp.ofChar? with
    | some k => (some k, c.advance 1)
    | none => (none, c)
  match chomp c with
  | (some k, c) => do
    let (indent, c) ← digit? c
    return (indent, k, c)
  | (none, c) => do
    let (indent, c) ← digit? c
    if indent.isNone then return (none, .clip, c)
    let (k, c) := chomp c
    return (indent, k.getD .clip, c)

/-- Passes the indentation and the empty lines in front of a line of a block: the line breaks, the
widest indentation seen, and the place behind. With no indentation set, all spaces belong to it. A
tab may not stand in it. -/
def readEmptyLines (indent : Option Nat) (breaks : List Char) (widest : Nat) :
    Nat → Cursor → Option (List Char × Nat × Cursor)
  | 0, _ => none
  | rounds + 1, c =>
    let spaces := (c.rest.takeWhile (· == ' ')).length
    let c := c.advance <|
      match indent with
      | some n => min spaces (n - c.column)
      | none => spaces
    let widest := max widest c.column
    let short :=
      match indent with
      | some n => c.column < n
      | none => true
    match c.rest with
    | ch :: _ =>
      if ch == '\t' && short then none
      else if isBreak ch then
        let (line, c) := c.takeBreak
        readEmptyLines indent (breaks ++ line) widest rounds c
      else some (breaks, widest, c)
    | [] => some (breaks, widest, c)

/-- The lines of a block. `last` is the break at the end of the last line, `more` are the empty
lines behind it, `blank` tells whether that line began with a blank. A break between two lines that
begin with no blank is folded unless the block is literal. -/
def readBlockLines (literal : Bool) (indent : Nat) (text : Reversed) (last more : List Char)
    (blank : Bool) : Nat → Cursor → Option (Reversed × List Char × List Char × Cursor)
  | 0, _ => none
  | rounds + 1, c =>
    match c.rest with
    | [] => some (text, last, more, c)
    | ch :: _ =>
      if c.column != indent then some (text, last, more, c)
      else
        let folded := !literal && last == ['\n'] && !blank && !isBlank ch
        let between := if !folded then last ++ more else if more.isEmpty then [' '] else more
        let (line, c) := c.takeWhile (!isBreak ·)
        let (last, c) := c.takeBreak
        match readEmptyLines (some indent) [] 0 rounds c with
        | some (more, _, c) =>
          readBlockLines literal indent ((text.add between).add line) last more (isBlank ch)
            rounds c
        | none => none

/-- A block text behind its mark, in a block whose own indentation is `parent`. -/
def readBlock (literal : Bool) (parent : Int) (c : Cursor) : Option (String × Cursor) := do
  let (increment, chomp, c) ← readBlockHeader c
  let c := c.skipWhile isBlank
  let c := if c.rest.head? == some '#' then c.skipLine else c
  if !lineEnds c.rest then none
  let c := c.skipBreak
  let rounds := c.rest.length + 1
  let given := increment.map fun n => n + parent.toNat
  let (more, widest, c) ← readEmptyLines given [] 0 rounds c
  let indent := given.getD (max widest (max (parent + 1).toNat 1))
  let (text, last, more, c) ← readBlockLines literal indent [] [] more false rounds c
  let text := if chomp == .strip then text else text.add last
  let text := if chomp == .keep then text.add more else text
  return (text.text, c)

end Hearth.Yaml
