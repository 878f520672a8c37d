import Hearth.Decimal.Read
import Hearth.Span
import Hearth.Token

/-!
# Written spans of time

A span is written as terms: a number with an optional unit, attached or as the next word. A number
alone counts seconds; `+` and `-` between terms add and subtract. Sums are sums of doubles, taken
from left to right.
-/

namespace Hearth.Duration

/-- The seconds of a unit. -/
def unitSeconds? : String → Option Float
  | "s" | "sec" | "secs" | "second" | "seconds" => some 1.0
  | "m" | "min" | "mins" | "minute" | "minutes" => some 60.0
  | "h" | "hour" | "hours" => some 3600.0
  | "d" | "day" | "days" => some 86400.0
  | "w" | "week" | "weeks" => some 604800.0
  | _ => none

/-- The number at the start of a word and the unit after it. -/
def splitWord (word : String) : List Char × String :=
  let isPart (c : Char) : Bool := c.isDigit || c == '.'
  (word.toList.takeWhile isPart, String.ofList (word.toList.dropWhile isPart))

/-- Adds up the terms of `words`; `seen` says whether there was a term. -/
def sum (total sign : Float) (seen : Bool) : List String → Option (Float × Bool)
  | [] => some (total, seen)
  | word :: rest =>
    if word == "+" then sum total 1.0 seen rest
    else if word == "-" then sum total (-1.0) seen rest
    else
      let (number, unit) := splitWord word
      match Decimal.readUnsigned number with
      | none => none
      | some number =>
        if unit.isEmpty then
          match rest with
          | next :: more =>
            match unitSeconds? next with
            | some factor => sum (total + sign * number * factor) 1.0 true more
            | none => sum (total + sign * number * 1.0) 1.0 true (next :: more)
          | [] => some (total + sign * number * 1.0, true)
        else
          match unitSeconds? unit with
          | some factor => sum (total + sign * number * factor) 1.0 true rest
          | none => none

/-- What a written span stands for. -/
inductive Reading where
  | span (value : Span)
  /-- No span is written so. -/
  | malformed
  /-- The span is longer than any. -/
  | tooLong
  deriving Repr, DecidableEq, Inhabited

/-- The span that words stand for; it is not negative. -/
def read (words : Name) : Reading :=
  match sum 0.0 1.0 false (words.map Token.render) with
  | some (total, true) =>
    if total.isNaN || total.isInf || total < 0.0 then .malformed
    else
      match Span.ofSeconds? total with
      | some span => .span span
      | none => .tooLong
  | _ => .malformed

/-- The message for words that are no span. -/
def refusal (words : Name) : String := "cannot parse time '" ++ words.render ++ "'"

end Hearth.Duration
