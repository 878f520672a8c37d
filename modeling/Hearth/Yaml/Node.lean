import Hearth.Yaml.Token.Layout

/-!
# Nodes of YAML

The tree that a text of one document describes, before scalars get a meaning and aliases are
replaced by what they refer to.

An anchor gets a number when its node begins: how many names are known by then. A name that is used
again gets a new number but adds no name, so the next new name gets the same number; what an alias
refers to is the last node that began under its number, even if the alias stands in front of it.
-/

namespace Hearth.Yaml

/-- A node; `tag?` is the tag in full. -/
inductive Node where
  | scalar (tag? : Option String) (text : String) (plain : Bool)
  | list (tag? : Option String) (items : List Node)
  | map (tag? : Option String) (entries : List (Node × Node))
  | alias (number : Nat)
  deriving Repr, Inhabited

namespace Node

/-- The node that is written by nothing at all. -/
def empty : Node := .scalar none "" true

end Node

/-- A node with an anchor: the number of the anchor, and how many anchored nodes began before. -/
structure Anchored where
  number : Nat
  place : Nat
  node : Node
  deriving Repr, Inhabited

/-- The tokens left and what is known of the document so far. -/
structure Document where
  tokens : List Token
  /-- What handles of tags are short for. -/
  handles : List (String × Option String)
  /-- The numbers of the anchors, each name once. -/
  names : List (String × Nat)
  /-- How many anchored nodes began. -/
  begun : Nat
  anchored : List Anchored
  /-- How many starts and ends of nodes there were; a scalar or an alias is one. -/
  size : Nat
  deriving Repr, Inhabited

/-- A reader of a part of a document. -/
abbrev Parse := StateT Document Option

namespace Parse

/-- Gives up: the text is not well-formed. -/
def fail {α : Type} : Parse α := fun _ => none

/-- The next token. -/
def peek : Parse (Option Token) := return (← get).tokens.head?

/-- Passes a token. -/
def skip : Parse Unit := modify fun d => { d with tokens := d.tokens.tail }

/-- Counts starts and ends. -/
def count (n : Nat) : Parse Unit := modify fun d => { d with size := d.size + n }

/-- Passes a token if it is the given one. -/
def accept (token : Token) : Parse Bool := do
  let found := (← peek) == some token
  if found then skip
  return found

/-- Passes the given token, which has to be next. -/
def expect (token : Token) : Parse Unit := do
  if !(← accept token) then fail

/-- Is one of the tokens next? -/
def isNext (tokens : List Token) : Parse Bool := return (← peek).any tokens.contains

/-- The number of a new anchor. -/
def begin (name : String) : Parse Anchored := do
  let d ← get
  let number := d.names.length
  let names :=
    if d.names.any (·.1 == name) then
      d.names.map fun (n, old) => (n, if n == name then number else old)
    else d.names ++ [(name, number)]
  set { d with names, begun := d.begun + 1 }
  return ⟨number, d.begun, .empty⟩

/-- A node whose text is empty. -/
def missing : Parse Node := do
  count 1
  return .empty

/-- The anchor that is next, if there is one. -/
def anchor? : Parse (Option String) := do
  match ← peek with
  | some (.anchor name) =>
    skip
    return some name
  | _ => return none

/-- The tag that is next, if there is one, in full: of no tag, and of one that is no text. -/
def tag? : Parse (Option (Option String)) := do
  match ← peek with
  | some (.tag handle rest) =>
    skip
    if handle == "" then return some rest
    match (← get).handles.lookup handle with
    | some start => return some do return (← start) ++ (← rest)
    | none => fail
  | _ => return none

/-- A node without content; an anchor or a tag has to describe it. -/
def nothing (described : Bool) (tag : Option String) : Parse Node := do
  if !described then fail
  count 1
  return .scalar tag "" true

mutual

/-- A node. `block` tells whether it may be a block list or mapping, `flush` whether the items of a
list may stand as far left as the key in front of it. -/
def node (block flush : Bool) : Nat → Parse Node
  | 0 => fail
  | rounds + 1 => do
    match ← peek with
    | some (.alias name) =>
      skip
      count 1
      match (← get).names.lookup name with
      | some number => return .alias number
      | none => fail
    | _ =>
      let first ← anchor?
      let tag ← tag?
      let name := first <|> (← if first.isSome then pure none else anchor?)
      let anchor ← name.mapM begin
      let described := name.isSome || tag.isSome
      let node ← content block flush described tag.join rounds
      if let some a := anchor then
        modify fun d => { d with anchored := { a with node } :: d.anchored }
      return node

/-- What follows the anchor and the tag of a node. If there is one of them, it may be nothing. -/
def content (block flush described : Bool) (tag : Option String) : Nat → Parse Node
  | 0 => fail
  | rounds + 1 => do
    match ← peek with
    | some .item =>
      if flush then
        count 2
        return .list tag (← flushItems rounds)
      else nothing described tag
    | some (.scalar text plain) =>
      skip
      count 1
      return .scalar (if tag == some "!" then none else tag) text plain
    | some .flowList =>
      skip
      count 2
      return .list tag (← flowItems true rounds)
    | some .flowMap =>
      skip
      count 2
      return .map tag (← flowEntries true rounds)
    | some .blockList =>
      if block then
        skip
        count 2
        return .list tag (← blockItems rounds)
      else nothing described tag
    | some .blockMap =>
      if block then
        skip
        count 2
        return .map tag (← blockEntries rounds)
      else nothing described tag
    | _ => nothing described tag

/-- A node, or nothing in front of one of the given tokens. -/
def optional (block flush : Bool) (ends : List Token) : Nat → Parse Node
  | 0 => fail
  | rounds + 1 => do
    if ← isNext ends then missing else node block flush rounds

/-- The items of a block list up to its end. -/
def blockItems : Nat → Parse (List Node)
  | 0 => fail
  | rounds + 1 => do
    if ← accept .blockEnd then return []
    expect .item
    let item ← optional true false [.item, .blockEnd] rounds
    return item :: (← blockItems rounds)

/-- The items of a list that stands as far left as its key. -/
def flushItems : Nat → Parse (List Node)
  | 0 => fail
  | rounds + 1 => do
    if !(← accept .item) then return []
    let item ← optional true false [.item, .key, .value, .blockEnd] rounds
    return item :: (← flushItems rounds)

/-- The entries of a block mapping up to its end. -/
def blockEntries : Nat → Parse (List (Node × Node))
  | 0 => fail
  | rounds + 1 => do
    if ← accept .blockEnd then return []
    expect .key
    let key ← optional true true [.key, .value, .blockEnd] rounds
    let value ←
      if ← accept .value then optional true true [.key, .value, .blockEnd] rounds else missing
    return (key, value) :: (← blockEntries rounds)

/-- The items of a flow list up to its end. A key makes a mapping of one entry. A key without text
takes the token behind it with it. -/
def flowItems (first : Bool) : Nat → Parse (List Node)
  | 0 => fail
  | rounds + 1 => do
    if ← accept .flowListEnd then return []
    if !first then expect .comma
    if ← accept .key then
      let ends := [Token.comma, .flowListEnd]
      count 2
      let key ←
        if ← isNext (.value :: ends) then do
          skip
          missing
        else node false false rounds
      let value ← if ← accept .value then optional false false ends rounds else missing
      return .map none [(key, value)] :: (← flowItems false rounds)
    else if ← accept .flowListEnd then return []
    else
      let item ← node false false rounds
      return item :: (← flowItems false rounds)

/-- The entries of a flow mapping up to its end. -/
def flowEntries (first : Bool) : Nat → Parse (List (Node × Node))
  | 0 => fail
  | rounds + 1 => do
    if ← accept .flowMapEnd then return []
    if !first then expect .comma
    let ends := [Token.comma, .flowMapEnd]
    if ← accept .key then
      let key ← optional false false (.value :: ends) rounds
      let value ← if ← accept .value then optional false false ends rounds else missing
      return (key, value) :: (← flowEntries false rounds)
    else if ← accept .flowMapEnd then return []
    else
      let key ← node false false rounds
      return (key, ← missing) :: (← flowEntries false rounds)

end

/-- The directives in front of a document; the version was given already if `versioned`. -/
def directives (versioned : Bool) : Nat → Parse Unit
  | 0 => fail
  | rounds + 1 => do
    match ← peek with
    | some (.version major minor) =>
      if versioned || major != 1 || (minor != 1 && minor != 2) then fail
      skip
      directives true rounds
    | some (.handle handle start) =>
      let d ← get
      if d.handles.any (·.1 == handle) then fail
      set { d with handles := d.handles ++ [(handle, start)] }
      skip
      directives versioned rounds
    | _ => return

/-- The handles that need no directive. -/
def standardHandles : List (String × Option String) :=
  [("!", some "!"), ("!!", some "tag:yaml.org,2002:")]

/-- The one document of a text. Of no text at all there is an empty node. -/
def document : Parse Node := do
  let tokens := (← get).tokens
  if tokens.isEmpty then missing
  else
    directives false (tokens.length + 1)
    modify fun d => { d with handles := d.handles ++ standardHandles }
    let isDirected := match tokens.head? with
      | some (.version ..) | some (.handle ..) => true
      | _ => false
    let explicit ← accept .documentStart
    if isDirected && !explicit then fail
    let rest := (← get).tokens
    let blank := match rest.head? with
      | none | some (.version ..) | some (.handle ..) | some .documentStart
      | some .documentEnd => true
      | _ => false
    let root ← if explicit && blank then missing else node true false (4 * rest.length + 4)
    if (← get).tokens.any (· != .documentEnd) then fail
    return root

end Parse

/-- The document of a text. -/
def readDocument (text : String) : Option (Node × Document) := do
  Parse.document.run ⟨← tokens? text, [], [], 0, [], 0⟩

namespace Document

/-- The node that an alias refers to. -/
def target? (d : Document) (number : Nat) : Option Node :=
  let same := d.anchored.filter (·.number == number)
  let last := same.foldl (fun n a => max n a.place) 0
  (same.find? (·.place == last)).map (·.node)

end Document

end Hearth.Yaml
