import Hearth.Token

/-!
# Patterns

A handler names the events it is for by a pattern: `*name` stands for any one word and binds it, a
star alone binds by position, and any other word stands for itself. A number and its decimal text
are the same word.
-/

namespace Hearth.Pattern

/-- Are a word of a pattern and a word of an event the same? -/
def sameWord (a b : Token) : Bool := a == b || a.render == b.render

/-- Matches word by word. `position` counts the stars without a name so far. -/
def bindFrom (position : Nat) : Name → Name → Option (List (String × Json))
  | [], [] => some []
  | want :: pattern, got :: words =>
    match want.wildcard? with
    | some name =>
      if name.isEmpty then
        (bindFrom (position + 1) pattern words).map
          ((toString (position + 1), got.toValue) :: ·)
      else (bindFrom position pattern words).map ((name, got.toValue) :: ·)
    | none => if sameWord want got then bindFrom position pattern words else none
  | _, _ => none

/-- The variables that a pattern binds on an event's words, if it matches them. -/
def bind? (pattern words : Name) : Option (List (String × Json)) := bindFrom 0 pattern words

/-- Does a pattern match an event's words? -/
def isMatch (pattern words : Name) : Bool := (bind? pattern words).isSome

end Hearth.Pattern
