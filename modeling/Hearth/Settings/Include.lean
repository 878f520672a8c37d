import Hearth.Settings.Secrets

/-!
# Settings from several places

Three tags bring values from elsewhere into a document: `!include` another file, found next to the
including one, `!secret` a secret, and `!env_var` a variable of the environment, with a value to use
if it is not set. Other tags are kept.

A file that is being loaded may not be loaded again on the way. Files are told apart by their paths
as written, so this alone does not end every chain of includes; but all paths on a chain are
different, and a path that is too long is refused, so every chain ends.
-/

namespace Hearth.Settings

open Yaml (Value)

/-- Where the values come from. -/
structure Sources where
  files : Files
  /-- The variables of the environment. -/
  environment : List (String × String)
  /-- The directory where paths start. -/
  dir : String
  secrets : Secrets
  deriving Repr, Inhabited

namespace Sources

/-- The sources in a directory with its own secrets. -/
def ofDirectory (files : Files) (environment : List (String × String)) (dir : String) :
    Except Error Sources := do
  return ⟨files, environment, dir, ← Secrets.load files dir⟩

/-- The text of a value that has to be a text or a number. -/
def scalar (tag : String) : Value → Except Error String
  | .text s => .ok s
  | v =>
    match v.numberText? with
    | some s => .ok s
    | none => .error (.badValue tag "expected a scalar")

/-- A variable of the environment: its name, up to the first blank, and behind the blank what to use
if it is not set. -/
def fromEnvironment (s : Sources) (spec : String) : Except Error String :=
  let name := String.ofList (spec.toList.takeWhile (!Text.isBlank ·))
  match s.environment.lookup name, spec.toList.dropWhile (!Text.isBlank ·) with
  | some value, _ => .ok value
  | none, _ :: rest => .ok (Text.trim (String.ofList rest))
  | none, [] => .error (.noVariable name)

/-- The path of an included file as seen from the including file. -/
def target (s : Sources) (origin : String) : Value → Except Error String
  | .text path =>
    if Text.trim path == "" then .error (.badInclude path "empty path")
    else .ok (Path.join ((Path.parent? origin).getD s.dir) path)
  | v => .error (.badInclude v.describe "path must be a string")

mutual

/-- A value with all that its tags refer to; `load` gives the file that a value names. -/
def resolve (s : Sources) (load : Value → Except Error Value) : Value → Except Error Value
  | .tagged tag v =>
    match tag with
    | "!include" => load v
    | "!secret" => do return .text (← s.secrets.get (← scalar tag v))
    | "!env_var" => do return .text (← s.fromEnvironment (← scalar tag v))
    | tag => do return .tagged tag (← resolve s load v)
  | .list items => do return .list (← resolveItems s load items)
  | .map entries => do return .map (← resolveEntries s load [] entries)
  | v => .ok v

/-- The items of a list, each with all that its tags refer to. -/
def resolveItems (s : Sources) (load : Value → Except Error Value) :
    List Value → Except Error (List Value)
  | [] => .ok []
  | v :: rest => do return (← resolve s load v) :: (← resolveItems s load rest)

/-- The entries of a mapping, keys and values with all that their tags refer to. If two keys become
the same, the first keeps its place and gets the later value. -/
def resolveEntries (s : Sources) (load : Value → Except Error Value)
    (done : List (Value × Value)) : List (Value × Value) → Except Error (List (Value × Value))
  | [] => .ok done
  | (k, v) :: rest => do
    let key ← resolve s load k
    let value ← resolve s load v
    resolveEntries s load (Value.insert key value done) rest

end

/-- The value in a file, on a way through the files `chain`, outermost first. -/
def loadOn (s : Sources) (chain : List String) (path : String) : Nat → Except Error Value
  | 0 => .error (.read path .nameTooLong)
  | rounds + 1 => do
    let path := Path.join s.dir path
    if chain.any (Path.same path) then throw (.circular (chain ++ [path]))
    match s.files.readText path with
    | .error cause => throw (.read path cause)
    | .ok text =>
      match Yaml.read? text with
      | none => throw (.malformed path)
      | some value =>
        s.resolve (fun v => do s.loadOn (chain ++ [path]) (← s.target path v) rounds) value

/-- The value in a file, with all that its tags refer to. The paths on a chain are different texts
of fewer than `Files.maxPath` bytes, so a chain has at most as many files as there are such
texts. -/
def load (s : Sources) (path : String) : Except Error Value :=
  s.loadOn [] path (Nat.pow 256 Files.maxPath)

end Sources

end Hearth.Settings
