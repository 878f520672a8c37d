import Hearth.Event
import Hearth.Script.Outline

/-!
# Marks and actions in JSON

A mark is a word for its kind, or an object if it carries a token; an action is an array that begins
with a word for its kind and the line.
-/

namespace Hearth.Script

/-- A lexeme in JSON. -/
def Lexeme.toJson : Lexeme → Json
  | .word t => .obj [("word", t.toJson)]
  | .colon => .str "colon"

/-- The kind of a mark in JSON. -/
def MarkKind.toJson : MarkKind → Json
  | .word t => .obj [("word", t.toJson)]
  | .colon => .str "colon"
  | .newline => .str "newline"
  | .indent => .str "indent"
  | .dedent => .str "dedent"
  | .finish => .str "end"

/-- A mark in JSON: its line and its kind. -/
def Mark.toJson (m : Mark) : Json := .arr [.ofNat m.line, m.kind.toJson]

/-- An action in JSON. -/
def Action.toJson : Action → Json
  | .simple words line => .arr [.str "simple", .ofNat line, Name.toJson words]
  | .opened words line => .arr [.str "open", .ofNat line, Name.toJson words]
  | .closed line => .arr [.str "close", .ofNat line]

end Hearth.Script
