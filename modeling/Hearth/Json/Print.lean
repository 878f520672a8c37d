import Hearth.Json.Basic
import Hearth.Decimal.Print
import Hearth.Text.Quoted

/-!
# Printing JSON

Two layouts: compact, without any blank, and indented by two spaces a level. Characters outside
ASCII stand for themselves; only quotes, backslashes and control characters are escaped.
-/

namespace Hearth.Json

/-- One character of a JSON text. -/
def escapeChar (c : Char) : String :=
  match c with
  | '"' => "\\\""
  | '\\' => "\\\\"
  | '\n' => "\\n"
  | '\r' => "\\r"
  | '\t' => "\\t"
  | '\x08' => "\\b"
  | '\x0c' => "\\f"
  | c =>
    if c.toNat < 0x20 then "\\u00" ++ (if c.toNat < 0x10 then "0" else "") ++ Text.hex c.toNat
    else c.toString

/-- A text as a JSON string. -/
def quote (s : String) : String := "\"" ++ String.join (s.toList.map escapeChar) ++ "\""

mutual

/-- The text of a value without any blank. -/
def compact : Json → String
  | .null => "null"
  | .bool true => "true"
  | .bool false => "false"
  | .int n => toString n
  | .float x => Decimal.printData x
  | .str s => quote s
  | .arr items => "[" ++ compactItems items ++ "]"
  | .obj fields => "\x7b" ++ compactFields fields ++ "\x7d"

/-- Items separated by commas. -/
def compactItems : List Json → String
  | [] => ""
  | [x] => compact x
  | x :: rest => compact x ++ "," ++ compactItems rest

/-- Fields separated by commas. -/
def compactFields : List (String × Json) → String
  | [] => ""
  | [(k, v)] => quote k ++ ":" ++ compact v
  | (k, v) :: rest => quote k ++ ":" ++ compact v ++ "," ++ compactFields rest

end

/-- A line feed and the blanks of a level. -/
def newline (level : Nat) : String := "\n" ++ String.ofList (List.replicate (2 * level) ' ')

mutual

/-- The text of a value over several lines; `level` counts the brackets around it. -/
def indented (level : Nat) : Json → String
  | .arr [] => "[]"
  | .arr items => "[" ++ indentedItems (level + 1) items ++ newline level ++ "]"
  | .obj [] => "\x7b\x7d"
  | .obj fields => "\x7b" ++ indentedFields (level + 1) fields ++ newline level ++ "\x7d"
  | .null => "null"
  | .bool true => "true"
  | .bool false => "false"
  | .int n => toString n
  | .float x => Decimal.printData x
  | .str s => quote s

/-- Each item on a line of its own. -/
def indentedItems (level : Nat) : List Json → String
  | [] => ""
  | [x] => newline level ++ indented level x
  | x :: rest => newline level ++ indented level x ++ "," ++ indentedItems level rest

/-- Each field on a line of its own. -/
def indentedFields (level : Nat) : List (String × Json) → String
  | [] => ""
  | [(k, v)] => newline level ++ quote k ++ ": " ++ indented level v
  | (k, v) :: rest =>
    newline level ++ quote k ++ ": " ++ indented level v ++ "," ++ indentedFields level rest

end

/-- The text of a value over several lines. -/
def pretty (v : Json) : String := indented 0 v

end Hearth.Json
