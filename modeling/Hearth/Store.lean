import Hearth.Event
import Hearth.Files
import Hearth.Json.Read
import Hearth.Timestamp.Read

/-!
# The store

The store keeps records, values with the time of their last change, by category and name. A store
with a path writes all of its records to that file after every change: first to a file beside it,
which then takes the place of the old one, so that the path always names a whole document.
-/

namespace Hearth

/-- A stored value and the time of its last change. -/
structure Record where
  value : Token
  changed : Timestamp
  deriving Repr, DecidableEq, Inhabited

/-- All records, in ascending order of category and name. -/
structure Store where
  path : Option String
  records : List ((String × Name) × Record)
  deriving Repr, DecidableEq, Inhabited

namespace Store

/-- A store without a file. -/
def inMemory : Store := ⟨none, []⟩

/-- The order of records. -/
def order (a b : String × Name) : Ordering := (compare a.1 b.1).then (Name.order a.2 b.2)

/-- Puts a record where its key belongs, in place of one of the same key. -/
def insertRecord (key : String × Name) (r : Record) :
    List ((String × Name) × Record) → List ((String × Name) × Record)
  | [] => [(key, r)]
  | (k, x) :: rest =>
    match order key k with
    | .lt => (key, r) :: (k, x) :: rest
    | .eq => (key, r) :: rest
    | .gt => (k, x) :: insertRecord key r rest

/-- The record of a name. -/
def get? (s : Store) (category : String) (name : Name) : Option Record :=
  s.records.lookup (category, name)

/-- The names in a category, in ascending order. -/
def keys (s : Store) (category : String) : List Name :=
  (s.records.filter (·.1.1 == category)).map (·.1.2)

/-- The document of one record. -/
def entryDocument : (String × Name) × Record → Json
  | ((category, name), r) =>
    .obj [("category", .str category), ("name", Name.toJson name), ("value", r.value.toJson),
      ("changed", .str r.changed.stored)]

/-- The text of a state file. -/
def document (s : Store) : String :=
  (Json.obj [("entries", .arr (s.records.map entryDocument))]).pretty

/-- The values of the given fields of a document: an object with each of them once, whatever else
it has, or a list of exactly their values. -/
def fields? (keys : List String) : Json → Option (List Json)
  | .arr items => if items.length == keys.length then some items else none
  | .obj fields =>
    keys.mapM fun key =>
      match fields.filter (·.1 == key) with
      | [(_, v)] => some v
      | _ => none
  | _ => none

/-- Reads the document of one record. -/
def entryOfDocument? (v : Json) : Option ((String × Name) × Record) := do
  match ← fields? ["category", "name", "value", "changed"] v with
  | [.str category, name, value, .str changed] =>
    some ((category, ← Name.ofJson? name),
      ⟨← Token.ofJson? value, ← Timestamp.ofText? changed⟩)
  | _ => none

/-- Reads the text of a state file. -/
def ofDocument? (text : String) : Option (List ((String × Name) × Record)) := do
  match ← fields? ["entries"] (← Json.readRaw text) with
  | [.arr entries] =>
    let records ← entries.mapM entryOfDocument?
    some (records.foldl (fun acc (k, r) => insertRecord k r acc) [])
  | _ => none

/-- Opens the store of a file; a missing file has no records. -/
def openAt (f : Files) (path : String) : Except StoreError Store :=
  match f.readText path with
  | .ok text =>
    match ofDocument? text with
    | some records => .ok ⟨some path, records⟩
    | none => .error (.format path)
  | .error .notFound => .ok ⟨some path, []⟩
  | .error e => .error (.file path e)

/-- The steps that bring the file up to date. -/
def flushSteps (path document : String) : List FileStep :=
  let beside := Path.withExtension path "json.tmp"
  let directories :=
    match Path.parent? path with
    | some "" => []
    | some dir => [FileStep.makeDirectories dir]
    | none => []
  directories ++ [.write beside (Text.bytes document), .rename beside path]

/-- Brings the file up to date, if the store has one. -/
def flush (f : Files) (s : Store) : Files × Except StoreError Unit :=
  match s.path with
  | none => (f, .ok ())
  | some path =>
    match FileStep.performAll f (flushSteps path s.document) with
    | (f, .ok ()) => (f, .ok ())
    | (f, .error e) => (f, .error (.file path e))

/-- Stores a value. If the file cannot be written, the store holds the value all the same. -/
def set (f : Files) (s : Store) (category : String) (name : Name) (r : Record) :
    Store × Files × Except StoreError (Option Record) :=
  let old := s.get? category name
  let s := { s with records := insertRecord (category, name) r s.records }
  match s.flush f with
  | (f, .ok ()) => (s, f, .ok old)
  | (f, .error e) => (s, f, .error e)

/-- Takes a record away; nothing is written if there was none. -/
def delete (f : Files) (s : Store) (category : String) (name : Name) :
    Store × Files × Except StoreError (Option Record) :=
  match s.get? category name with
  | none => (s, f, .ok none)
  | some old =>
    let s := { s with records := s.records.filter (·.1 != (category, name)) }
    match s.flush f with
    | (f, .ok ()) => (s, f, .ok (some old))
    | (f, .error e) => (s, f, .error e)

end Store

end Hearth
