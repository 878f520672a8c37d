import Hearth.Token

/-!
# Faults of script text

What can be wrong with the text of a script before any of its words is understood.
-/

namespace Hearth.Script

/-- A fault in the text of a line. -/
inductive Fault where
  /-- No lexeme starts with `text`, found at a column that counts bytes from one. -/
  | unexpectedInput (text : String) (column : Nat)
  /-- A line is indented less than the one before, but like no line that encloses it. -/
  | unmatchedIndent
  /-- A line is indented deeper than the one before, which opens no block. -/
  | unexpectedIndent
  | colonWithoutStatement
  /-- The statement ends with a colon, and no deeper line follows. -/
  | missingBlock (statement : Name)
  /-- A block written on the line of its statement opens a block of its own. -/
  | nestedInline
  /-- A part of a line stands where it cannot; `part` is its description. -/
  | misplaced (part : String)
  | closeWithoutBlock
  deriving Repr, DecidableEq, Inhabited

/-- The text shown for a fault. -/
def Fault.message : Fault → String
  | .unexpectedInput text column =>
    "unexpected input '" ++ text ++ "' at column " ++ toString column
  | .unmatchedIndent => "unindent does not match any outer indentation level"
  | .unexpectedIndent => "unexpected indent"
  | .colonWithoutStatement => "':' without a statement"
  | .missingBlock statement => "expected an indented block after '" ++ statement.render ++ ":'"
  | .nestedInline => "a nested block needs a line of its own"
  | .misplaced part => "unexpected " ++ part
  | .closeWithoutBlock => "dedent without a block"

end Hearth.Script
