import Hearth.Failure
import Hearth.Text.Utf8

/-!
# Files

A tree of directories and files. A path is a text; its components are separated by slashes, and
`.` and `..` are followed where they stand, as a file system does: `a/../b` needs a directory `a`.
Operations either succeed or are refused for a reason, and a refused one changes nothing; only of
several directories that are to be made some can be there then.
-/

namespace Hearth

/-- A place in the tree: the names from the root down. -/
abbrev Place := List String

/-- What is at a place. -/
inductive Node where
  | file (content : Bytes)
  | directory
  deriving Repr, DecidableEq, Inhabited

/-- All files and directories below the root, and the directory where relative paths start. -/
structure Files where
  nodes : List (Place × Node)
  current : Place
  deriving Repr, DecidableEq, Inhabited

namespace Path

/-- Does a path start at the root? -/
def isAbsolute (path : String) : Bool := path.toList.head? == some '/'

/-- The pieces between slashes; there is at least one. -/
def pieces (path : String) : List String := (path.toList.splitOn '/').map String.ofList

/-- The parts between slashes, without those that say nothing: empty ones, and `.` except at the
start of a relative path. -/
def parts (path : String) : List String :=
  let all := pieces path
  let here := if all.head? == some "." then ["."] else []
  here ++ all.filter fun c => c != "" && c != "."

/-- The path with the given parts. -/
def ofParts (absolute : Bool) (parts : List String) : String :=
  (if absolute then "/" else "") ++ String.intercalate "/" parts

/-- Does a path end in a slash? Such a path can only name a directory. -/
def endsInSlash (path : String) : Bool := path.toList.getLast? == some '/'

/-- A path without the slashes at its end; the root keeps its slash. -/
def withoutEndSlashes (path : String) : String :=
  match path.toList.reverse.dropWhile (· == '/') with
  | [] => path
  | rest => String.ofList rest.reverse

/-- A path as seen from a directory; an absolute one stands for itself. -/
def join (dir path : String) : String :=
  if isAbsolute path then path
  else if dir == "" || endsInSlash dir then dir ++ path
  else dir ++ "/" ++ path

/-- Do two paths have the same parts? -/
def same (a b : String) : Bool := isAbsolute a == isAbsolute b && parts a == parts b

/-- The pieces between slashes without the last part, and without what says nothing in front of
it. -/
def dropLast? (pieces : List String) : Option (List String) :=
  let idle (c : String) : Bool := c == "" || c == "."
  match pieces.reverse.dropWhile idle with
  | [] => none
  | _ :: rest => some (rest.dropWhile idle).reverse

/-- The directory of a path, if it has one: the path as it is written, without its last part. -/
def parent? (path : String) : Option String :=
  match Path.pieces path with
  | "" :: pieces => (dropLast? pieces).map fun rest => "/" ++ String.intercalate "/" rest
  | "." :: pieces =>
    match dropLast? pieces with
    | some rest => some (String.intercalate "/" ("." :: rest))
    | none => some ""
  | pieces => (dropLast? pieces).map (String.intercalate "/")

/-- The last part of a path, if it is a name. -/
def fileName? (path : String) : Option String :=
  match (parts path).getLast? with
  | some ".." => none
  | some "." => none
  | name => name

/-- A name without what follows its last dot; a dot at the start does not count. -/
def stem (name : String) : String :=
  match name.toList.reverse.dropWhile (· != '.') with
  | [] => name
  | _ :: before => if before.isEmpty then name else String.ofList before.reverse

/-- The path with another extension after the stem of its last part. -/
def withExtension (path extension : String) : String :=
  match fileName? path with
  | none => path
  | some name =>
    let file := stem name ++ "." ++ extension
    match parent? path with
    | some "" => file
    | some dir => join dir file
    | none => file

end Path

namespace Files

/-- No file at all. -/
def empty : Files := ⟨[], []⟩

/-- What is at a place; the root is a directory. -/
def node? (f : Files) (place : Place) : Option Node :=
  if place.isEmpty then some .directory else f.nodes.lookup place

/-- A path has fewer bytes than this. -/
def maxPath : Nat := 4096

/-- A name has at most so many bytes. -/
def maxName : Nat := 255

/-- Follows the components of a path. Only the place that the path ends at may be missing. -/
def walk (f : Files) (place : Place) : List String → Except FileError Place
  | [] => .ok place
  | part :: rest =>
    match f.node? place with
    | none => .error .notFound
    | some (.file _) => .error .notADirectory
    | some .directory =>
      if part == "" || part == "." then f.walk place rest
      else if part == ".." then f.walk place.dropLast rest
      else if maxName < part.utf8ByteSize then .error .nameTooLong
      else f.walk (place ++ [part]) rest

/-- The place that a path names. -/
def locate (f : Files) (path : String) : Except FileError Place :=
  if path.toList.contains '\x00' then .error .zeroInPath
  else if path == "" then .error .notFound
  else if maxPath ≤ path.utf8ByteSize then .error .nameTooLong
  else f.walk (if Path.isAbsolute path then [] else f.current) (Path.pieces path)

/-- What a path names. -/
def at? (f : Files) (path : String) : Option Node :=
  match f.locate path with
  | .ok place => f.node? place
  | .error _ => none

/-- Is there anything? -/
def exists? (f : Files) (path : String) : Bool := (f.at? path).isSome

/-- Is there a directory? -/
def isDirectory (f : Files) (path : String) : Bool := f.at? path == some .directory

/-- The content of a file. -/
def read (f : Files) (path : String) : Except FileError Bytes := do
  let place ← f.locate path
  match f.node? place with
  | none => .error .notFound
  | some .directory => .error .isADirectory
  | some (.file content) => .ok content

/-- The content of a file as a text. -/
def readText (f : Files) (path : String) : Except FileError String := do
  match Text.decode? (← f.read path) with
  | some text => .ok text
  | none => .error .invalidText

/-- Puts a node at a place, in place of what was there. -/
def put (f : Files) (place : Place) (node : Node) : Files :=
  { f with nodes := f.nodes.filter (·.1 != place) ++ [(place, node)] }

/-- Takes a node away. -/
def drop (f : Files) (place : Place) : Files :=
  { f with nodes := f.nodes.filter (·.1 != place) }

/-- Writes a file, in place of an older one. -/
def write (f : Files) (path : String) (content : Bytes) : Except FileError Files := do
  let place ← f.locate path
  match f.node? place with
  | some .directory => .error .isADirectory
  | _ => .ok (f.put place (.file content))

/-- Makes a directory. -/
def makeDirectory (f : Files) (path : String) : Except FileError Files := do
  let place ← f.locate (Path.withoutEndSlashes path)
  match f.node? place with
  | some _ => .error .alreadyExists
  | none => .ok (f.put place .directory)

/-- What became of a directory that was to be made: one that is there already is as good. -/
def settle (f : Files) (path : String) : Except FileError Files → Files × Except FileError Unit
  | .ok f => (f, .ok ())
  | .error e => (f, if f.isDirectory path then .ok () else .error e)

/-- Makes the directory whose parts, last one first, are given; those above it are made first if
they are missing, and stay if one below cannot be made. -/
def makeUp (f : Files) (absolute : Bool) : List String → Files × Except FileError Unit
  | [] => (f, .ok ())
  | part :: above =>
    let path := Path.ofParts absolute (part :: above).reverse
    match f.makeDirectory path with
    | .error .notFound =>
      match f.makeUp absolute above with
      | (f, .ok ()) => f.settle path (f.makeDirectory path)
      | (f, .error e) => (f, .error e)
    | r => f.settle path r

/-- Makes a directory and those above it, as far as they are missing and can be made. -/
def makeAll (f : Files) (path : String) : Files × Except FileError Unit :=
  f.makeUp (Path.isAbsolute path) (Path.parts path).reverse

/-- Makes a directory and those above it, as far as they are missing. -/
def makeDirectories (f : Files) (path : String) : Except FileError Files :=
  match f.makeAll path with
  | (f, .ok ()) => .ok f
  | (_, .error e) => .error e

/-- Takes an empty directory away. -/
def removeDirectory (f : Files) (path : String) : Except FileError Files := do
  let place ← f.locate path
  match f.node? place with
  | none => .error .notFound
  | some (.file _) => .error .notADirectory
  | some .directory =>
    if f.nodes.any fun (p, _) => p != place && place.isPrefixOf p then .error .notEmpty
    else .ok (f.drop place)

/-- Moves a file over another one, in one step. -/
def rename (f : Files) (source target : String) : Except FileError Files := do
  let a ← f.locate source
  let b ← f.locate (Path.withoutEndSlashes target)
  match f.node? a with
  | none => .error .notFound
  | some .directory => .error .isADirectory
  | some (.file content) =>
    if Path.endsInSlash target then .error .notADirectory
    else if f.node? b == some .directory then .error .isADirectory
    else .ok ((f.drop a).put b (.file content))

end Files

/-- One step of a change of the files. -/
inductive FileStep where
  | makeDirectories (path : String)
  | write (path : String) (content : Bytes)
  | rename (source target : String)
  deriving Repr, DecidableEq, Inhabited

/-- What became of the files in a step that is taken as a whole or not at all. -/
def FileStep.whole (f : Files) : Except FileError Files → Files × Except FileError Unit
  | .ok f => (f, .ok ())
  | .error e => (f, .error e)

/-- Takes a step. -/
def FileStep.perform (f : Files) : FileStep → Files × Except FileError Unit
  | .makeDirectories path => f.makeAll path
  | .write path content => whole f (f.write path content)
  | .rename source target => whole f (f.rename source target)

/-- Takes steps in order, up to the first that is refused. -/
def FileStep.performAll (f : Files) : List FileStep → Files × Except FileError Unit
  | [] => (f, .ok ())
  | s :: rest =>
    match s.perform f with
    | (f, .ok ()) => performAll f rest
    | (f, .error e) => (f, .error e)

end Hearth
