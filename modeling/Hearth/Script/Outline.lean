import Hearth.Script.Layout

/-!
# Outline

The outline of a script says which statements stand where: simple statements, statements that open
a block, and where blocks end. It knows no statement; the words are looked up later.

```text
between lines --word--> words --newline--> between lines          (simple)
                        words --colon--> after the colon
after the colon --newline--> a deeper line is due --indent--> between lines   (open)
after the colon --word--> inline --newline--> between lines       (open, simple, close)
between lines --dedent--> between lines                            (close)
```
-/

namespace Hearth.Script

/-- A step of the outline, in the order of the text. -/
inductive Action where
  /-- A complete statement without a block. -/
  | simple (words : Name) (line : Nat)
  /-- A statement whose block starts. -/
  | opened (words : Name) (line : Nat)
  /-- The innermost open block ends. -/
  | closed (line : Nat)
  deriving Repr, DecidableEq, Inhabited

/-- Where in a statement the text is. -/
inductive Place where
  | betweenLines
  /-- Among the words of a statement. -/
  | inWords (words : Name)
  /-- After the words and the colon of a statement. -/
  | afterColon (words : Name)
  /-- After the line of a statement that ends with a colon. -/
  | blockDue (words : Name)
  /-- Among the words of a block that stands on the line of its statement. -/
  | inInline (words : Name)
  deriving Repr, DecidableEq, Inhabited

/-- The state of the outline: the place, and how many blocks on lines of their own are open. -/
structure Outline where
  place : Place
  depth : Nat
  deriving Repr, DecidableEq, Inhabited

mutual

/-- The description of a token for a message about a misplaced mark. -/
def describeToken : Token → String
  | .int n => "Int(" ++ Decimal.ofInt64 n ++ ")"
  | .text s => "Str(" ++ Text.quoted s ++ ")"
  | .sub ws => "Sub(Name([" ++ describeTokens ws ++ "]))"

/-- The descriptions of tokens, separated by commas. -/
def describeTokens : List Token → String
  | [] => ""
  | [t] => describeToken t
  | t :: ts => describeToken t ++ ", " ++ describeTokens ts

end

/-- The description of a mark for a message about a misplaced one. -/
def MarkKind.describe : MarkKind → String
  | .word t => "Word(" ++ describeToken t ++ ")"
  | .colon => "Colon"
  | .newline => "Newline"
  | .indent => "Indent"
  | .dedent => "Dedent"
  | .finish => "End"

namespace Outline

/-- Before the first mark. -/
def start : Outline := ⟨.betweenLines, 0⟩

/-- Drops a statement begun and all open blocks. -/
def reset (_ : Outline) : Outline := start

/-- Takes one mark and gives the actions that it completes. After a fault the next mark is taken
as the first of a line. -/
def feed (o : Outline) (mark : Mark) : Outline × Except Fault (List Action) :=
  let line := mark.line
  let go (place : Place) (actions : List Action) : Outline × Except Fault (List Action) :=
    ({ o with place }, .ok actions)
  let fail (fault : Fault) : Outline × Except Fault (List Action) :=
    ({ o with place := .betweenLines }, .error fault)
  match o.place, mark.kind with
  | .betweenLines, .word w => go (.inWords [w]) []
  | .betweenLines, .newline => go .betweenLines []
  | .betweenLines, .dedent => (⟨.betweenLines, o.depth - 1⟩, .ok [.closed line])
  | .betweenLines, .finish => go .betweenLines []
  | .betweenLines, .indent => fail .unexpectedIndent
  | .betweenLines, .colon => fail .colonWithoutStatement
  | .inWords words, .word w => go (.inWords (words ++ [w])) []
  | .inWords words, .colon => go (.afterColon words) []
  | .inWords words, .newline => go .betweenLines [.simple words line]
  | .afterColon words, .newline => go (.blockDue words) []
  | .afterColon words, .word w => go (.inInline [w]) [.opened words line]
  | .blockDue words, .indent => (⟨.betweenLines, o.depth + 1⟩, .ok [.opened words line])
  | .blockDue words, .newline => go (.blockDue words) []
  | .blockDue words, _ => fail (.missingBlock words)
  | .inInline words, .word w => go (.inInline (words ++ [w])) []
  | .inInline words, .newline => go .betweenLines [.simple words line, .closed line]
  | .inInline _, .colon => fail .nestedInline
  | _, kind => fail (.misplaced kind.describe)

/-- Takes marks up to the first fault: the actions that they complete, and the fault with its
line. -/
def feedAll (o : Outline) : List Mark → Outline × List Action × Option (Nat × Fault)
  | [] => (o, [], none)
  | mark :: rest =>
    match o.feed mark with
    | (o, .ok actions) =>
      let (o, more, fault) := o.feedAll rest
      (o, actions ++ more, fault)
    | (o, .error fault) => (o, [], some (mark.line, fault))

end Outline

end Hearth.Script
