import Hearth.Json.Basic
import Hearth.Yaml.Basic

/-!
# YAML and JSON

Every value of JSON is one of YAML. The other way round, keys of any kind and tags need a form of
their own: a mapping is written as a list of its entries, a tag beside the value it belongs to.
-/

namespace Hearth

/-- A double; one that is infinite or no number is written as null. -/
def Json.ofFloat (x : Float) : Json := if x.isFinite then .float x else .null

namespace Yaml.Value

mutual

/-- A value of JSON as one of YAML. -/
def ofJson : Json → Value
  | .null => .null
  | .bool b => .bool b
  | .int n => .int n
  | .float x => .float x
  | .str s => .text s
  | .arr items => .list (ofItems items)
  | .obj fields => .map (ofFields fields)

/-- The items of an array. -/
def ofItems : List Json → List Value
  | [] => []
  | v :: rest => ofJson v :: ofItems rest

/-- The fields of an object. -/
def ofFields : List (String × Json) → List (Value × Value)
  | [] => []
  | (k, v) :: rest => (.text k, ofJson v) :: ofFields rest

end

mutual

/-- A value of YAML in JSON. -/
def toJson : Value → Json
  | .null => .null
  | .bool b => .bool b
  | .int n => .int n
  | .float x => .ofFloat x
  | .text s => .str s
  | .list items => .arr (toItems items)
  | .map entries => .obj [("map", .arr (toEntries entries))]
  | .tagged tag v => .obj [("tag", .str tag), ("value", toJson v)]

/-- The items of a list. -/
def toItems : List Value → List Json
  | [] => []
  | v :: rest => toJson v :: toItems rest

/-- The entries of a mapping, each a pair. -/
def toEntries : List (Value × Value) → List Json
  | [] => []
  | (k, v) :: rest => .arr [toJson k, toJson v] :: toEntries rest

end

end Yaml.Value

end Hearth
