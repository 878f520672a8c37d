import Hearth.Yaml.Node
import Hearth.Yaml.Scalar

/-!
# Reading YAML

The value of a text that holds one document. An alias stands for a copy of what it refers to. There
are two bounds, so that copies in copies stay harmless: lists and mappings nest at most 128 deep,
and for every start and end of a node in the text at most a hundred copies are made.
-/

namespace Hearth.Yaml

/-- Lists and mappings nest at most this deep. -/
def maxDepth : Nat := 128

/-- Work on the values of a document, with the number of copies made so far. -/
abbrev Expand := StateT Nat Option

namespace Expand

/-- Gives up. -/
def fail {α : Type} : Expand α := fun _ => none

/-- The node that a node stands for: itself, or what it refers to. -/
def follow (d : Document) : Node → Expand Node
  | .alias number => do
    let copies := (← get) + 1
    set copies
    if 100 * d.size < copies then fail
    match d.target? number with
    | some node => return node
    | none => fail
  | node => return node

/-- Gives what an optional computation gives. -/
def lift {α : Type} : Option α → Expand α
  | some a => return a
  | none => fail

/-- A list or mapping with its tag, if that is one of the document's own. -/
def withTag (tag? : Option String) (value : Value) : Value :=
  match tag? with
  | some tag => if Value.isOwnTag tag then .tagged (Value.tagText tag) value else value
  | none => value

/-- The value of a node with room for `depth` brackets. -/
def value (d : Document) : Nat → Node → Expand Value
  | depth, node => do
    match ← follow d node with
    | .scalar tag? text plain => lift (Value.ofScalar? tag? text plain)
    | .list tag? items =>
      match depth with
      | 0 => fail
      | depth + 1 => return withTag tag? (.list (← items.mapM (value d depth)))
    | .map tag? entries =>
      match depth with
      | 0 => fail
      | depth + 1 =>
        let entries ← entries.foldlM (fun done (k, v) => do
          let key ← value d depth k
          if done.any fun (k, _) => k.same key then fail
          return done ++ [(key, ← value d depth v)]) []
        return withTag tag? (.map entries)
    | .alias _ => fail

/-- The text of a key, whatever it would mean. -/
def keyText (d : Document) (node : Node) : Expand String := do
  match ← follow d node with
  | .scalar _ text _ => return text
  | _ => fail

/-- The entries of a mapping whose keys are texts; nothing at all counts as an empty mapping. -/
def entries (d : Document) (root : Node) : Expand (List (String × Value)) := do
  match root with
  | .map _ entries =>
    entries.mapM fun (k, v) => do return (← keyText d k, ← value d (maxDepth - 1) v)
  | .scalar _ "" true => return []
  | _ => fail

end Expand

/-- The value of a text. -/
def read? (text : String) : Option Value := do
  let (root, d) ← readDocument text
  (Expand.value d maxDepth root).run' 0

/-- The entries of a text that holds a mapping from texts; a key may occur again. -/
def readEntries? (text : String) : Option (List (String × Value)) := do
  let (root, d) ← readDocument text
  (Expand.entries d root).run' 0

end Hearth.Yaml
