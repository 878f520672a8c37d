/-!
# Tokens of YAML

What a text of YAML is made of, once indentation is turned into brackets: a block list or mapping
has a start and an end like a flow one, and the key of a mapping is announced by `key` whether it
was marked in the text or found by the colon behind it.
-/

namespace Hearth.Yaml

/-- A token. -/
inductive Token where
  /-- The directive that tells the version. -/
  | version (major minor : Nat)
  /-- The directive that makes `handle` short for the start of a tag; none stands for bytes that are
  no text. -/
  | handle (handle : String) (start : Option String)
  | documentStart
  | documentEnd
  | blockList
  | blockMap
  | blockEnd
  | flowList
  | flowListEnd
  | flowMap
  | flowMapEnd
  /-- The dash in front of an item. -/
  | item
  /-- The comma between items. -/
  | comma
  | key
  | value
  | anchor (name : String)
  | alias (name : String)
  | tag (handle : String) (rest : Option String)
  /-- A text, and whether it stood without quotes and block style. -/
  | scalar (text : String) (plain : Bool)
  deriving Repr, DecidableEq, Inhabited

end Hearth.Yaml
