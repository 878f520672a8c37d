import Hearth.Files
import Hearth.Settings
import Hearth.Yaml.Read

/-!
# Secrets

Values that settings refer to by key. They stand in a file of their own next to the settings, a
mapping from keys to single values, which all count as texts. Without the file there are none.
-/

namespace Hearth.Settings

/-- Texts by key, each key once, and the file they were read from. -/
structure Secrets where
  values : List (String × String)
  path : Option String
  deriving Repr, DecidableEq, Inhabited

namespace Secrets

/-- No secrets. -/
def none : Secrets := ⟨[], .none⟩

/-- Puts a value into a list; of two values with one key the later counts. -/
def put {α : Type} (entries : List (String × α)) (key : String) (value : α) : List (String × α) :=
  if entries.any (·.1 == key) then
    entries.map fun (k, old) => (k, if k == key then value else old)
  else entries ++ [(key, value)]

/-- A list with every key once. -/
def unique {α : Type} (entries : List (String × α)) : List (String × α) :=
  entries.foldl (fun done (k, v) => put done k v) []

/-- The given secrets. -/
def ofList (entries : List (String × String)) : Secrets := ⟨unique entries, .none⟩

/-- The text of a single value. -/
def text? : Yaml.Value → Option String
  | .null => some ""
  | .bool b => some (toString b)
  | .text s => some s
  | v => v.numberText?

/-- The secrets in a text that was read from `path`. -/
def ofText (path text : String) : Except Error Secrets := do
  match Yaml.readEntries? text with
  | .none => throw (.malformed path)
  | some entries =>
    let values ← (unique entries).mapM fun (k, v) =>
      match text? v with
      | some s => pure (k, s)
      | .none => throw (.badValue k "secrets must be scalars")
    return ⟨values, path⟩

/-- The secrets of a directory. -/
def load (files : Files) (dir : String) : Except Error Secrets :=
  let path := Path.join dir "secrets.yaml"
  if !files.exists? path then .ok none
  else
    match files.readText path with
    | .ok text => ofText path text
    | .error cause => .error (.read path cause)

/-- The secret of a key. -/
def get (s : Secrets) (key : String) : Except Error String :=
  match s.values.lookup key with
  | some value => .ok value
  | .none => .error (.noSecret key)

/-- Is there a secret of the key? -/
def contains (s : Secrets) (key : String) : Bool := s.values.any (·.1 == key)

end Secrets

end Hearth.Settings
