import Hearth.Yaml.Token.Property

/-!
# The tokens of a text of YAML

Outside flow brackets the structure of a text is in its indentation: a list or mapping starts where
an item or a key stands further right than the ones around it, and ends in front of the first token
that does not. A key is only known by the colon behind it. So the places where a key may have begun
are kept as candidates, one for each open bracket and one for the block around them; a colon turns
the innermost one into a key by putting tokens in front of it. A candidate is given up at the end of
its line or after 1024 characters. One that has to be a key, because the block's mapping goes on
there, may not be given up.
-/

namespace Hearth.Yaml

/-- A place where a key may have begun. -/
structure Candidate where
  /-- How many tokens there were in front of it. -/
  place : Nat
  /-- Does a mapping have to go on here? -/
  required : Bool
  index : Nat
  line : Nat
  column : Nat
  deriving Repr, DecidableEq, Inhabited

/-- A text that is read up to the cursor. -/
structure Layout where
  cursor : Cursor
  tokens : Array Token
  /-- The column of the innermost block list or mapping, -1 outside all of them. -/
  indent : Int
  /-- The columns around it, innermost first. -/
  outer : List Int
  /-- May a key begin here? -/
  keyAllowed : Bool
  /-- The candidate in every open flow bracket, innermost first, and the one in the block. -/
  candidates : List (Option Candidate)
  deriving Repr, Inhabited

namespace Layout

/-- A text of which nothing is read. -/
def start (text : List Char) : Layout := ⟨.start text, #[], -1, [], true, [none]⟩

/-- Is a flow bracket open? -/
def inFlow (l : Layout) : Bool := 1 < l.candidates.length

/-- Adds a token. -/
def add (token : Token) (l : Layout) : Layout := { l with tokens := l.tokens.push token }

/-- Puts a token in front of the one at `place`. -/
def insertAt (place : Nat) (token : Token) (l : Layout) : Layout :=
  { l with tokens := l.tokens.insertIdxIfInBounds place token }

/-- Passes `n` characters. -/
def pass (n : Nat) (l : Layout) : Layout := { l with cursor := l.cursor.advance n }

/-- Passes blanks, comments and line breaks up to the next token. A tab may only stand where no key
may begin. -/
def skipToToken : Nat → Layout → Layout
  | 0, l => l
  | rounds + 1, l =>
    let tabs := l.inFlow || !l.keyAllowed
    let c := l.cursor.skipWhile fun ch => ch == ' ' || (tabs && ch == '\t')
    let c := if c.rest.head? == some '#' then c.skipLine else c
    if c.rest.head?.any isBreak then
      skipToToken rounds { l with cursor := c.skipBreak, keyAllowed := l.keyAllowed || !l.inFlow }
    else { l with cursor := c }

/-- Ends the block lists and mappings that stand further right than `column`. -/
def unroll (column : Int) (l : Layout) : Layout :=
  if l.inFlow then l
  else
    let all := l.indent :: l.outer
    let ended := (all.takeWhile (column < ·)).length
    let left := all.drop ended
    { l with
      indent := left.headD (-1)
      outer := left.tail
      tokens := l.tokens ++ Array.replicate ended Token.blockEnd }

/-- Starts a block list or mapping, if `column` is further right than the one that is open. Its
token goes in front of the one at `place`. -/
def roll (column : Int) (place : Nat) (token : Token) (l : Layout) : Layout :=
  if l.inFlow || column ≤ l.indent then l
  else { l with indent := column, outer := l.indent :: l.outer }.insertAt place token

/-- Gives up the innermost candidate. -/
def dropCandidate (l : Layout) : Option Layout :=
  match l.candidates with
  | some k :: outer => if k.required then none else some { l with candidates := none :: outer }
  | _ => some l

/-- A key may begin here. -/
def addCandidate (l : Layout) : Option Layout :=
  if !l.keyAllowed then some l
  else do
    let l ← l.dropCandidate
    let c := l.cursor
    let required := !l.inFlow && l.indent == c.column
    let k : Candidate := ⟨l.tokens.size, required, c.index, c.line, c.column⟩
    return { l with candidates := some k :: l.candidates.tail }

/-- Gives up the candidates that are too far back. -/
def dropStale (l : Layout) : Option Layout := do
  let candidates ← l.candidates.mapM fun
    | none => some none
    | some k =>
      if k.line < l.cursor.line || k.index + 1024 < l.cursor.index then
        if k.required then none else some none
      else some (some k)
  return { l with candidates }

/-- Ends all blocks, for a token that stands outside them. -/
def leaveBlocks (l : Layout) : Option Layout := do
  let l ← (l.unroll (-1)).dropCandidate
  return { l with keyAllowed := false }

/-- Adds what a reader gives. -/
def scan (read : Cursor → Option (Token × Cursor)) (l : Layout) : Option Layout := do
  let (token, cursor) ← read l.cursor
  return { l with cursor }.add token

/-- Starts a token that can be a key. -/
def node (read : Cursor → Option (Token × Cursor)) (l : Layout) : Option Layout := do
  let l ← l.addCandidate
  { l with keyAllowed := false }.scan read

/-- Opens a flow bracket. -/
def openFlow (token : Token) (l : Layout) : Option Layout := do
  let l ← l.addCandidate
  return ({ l with keyAllowed := true, candidates := none :: l.candidates }.add token).pass 1

/-- Closes a flow bracket. -/
def closeFlow (token : Token) (l : Layout) : Option Layout := do
  let l ← l.dropCandidate
  let candidates := if l.inFlow then l.candidates.tail else l.candidates
  return ({ l with keyAllowed := false, candidates }.add token).pass 1

/-- A comma. -/
def comma (l : Layout) : Option Layout := do
  let l ← l.dropCandidate
  return ({ l with keyAllowed := true }.add .comma).pass 1

/-- Starts a block at the cursor, unless a bracket is open. -/
def blockHere (token : Token) (l : Layout) : Option Layout :=
  if l.inFlow then some l
  else if !l.keyAllowed then none
  else some (l.roll l.cursor.column l.tokens.size token)

/-- A dash in front of an item. -/
def item (l : Layout) : Option Layout := do
  let l ← (← l.blockHere .blockList).dropCandidate
  return ({ l with keyAllowed := true }.add .item).pass 1

/-- A question mark in front of a key. -/
def key (l : Layout) : Option Layout := do
  let l ← (← l.blockHere .blockMap).dropCandidate
  return ({ l with keyAllowed := !l.inFlow }.add .key).pass 1

/-- The colon in front of a value. -/
def value (l : Layout) : Option Layout := do
  let l ←
    match l.candidates with
    | some k :: outer =>
      let l := { l with candidates := none :: outer, keyAllowed := false }
      pure ((l.insertAt k.place .key).roll k.column k.place .blockMap)
    | _ => (l.blockHere .blockMap).map fun l => { l with keyAllowed := !l.inFlow }
  return (l.add .value).pass 1

/-- A block text. -/
def block (literal : Bool) (l : Layout) : Option Layout := do
  let l ← l.dropCandidate
  let (text, cursor) ← readBlock literal l.indent (l.cursor.advance 1)
  return { l with cursor, keyAllowed := true }.add (.scalar text false)

/-- A quoted text. -/
def quoted (double : Bool) (l : Layout) : Option Layout :=
  l.node fun c => do
    let (text, c) ← readQuoted double [] .none (c.rest.length + 1) (c.advance 1)
    return (.scalar text false, c)

/-- A plain text. A key may begin behind it if it is followed by a line break. -/
def plain (l : Layout) : Option Layout := do
  let l ← l.addCandidate
  let c := l.cursor
  let (text, broken, cursor) ← readPlain l.inFlow (l.indent + 1) [] .none (c.rest.length + 1) c
  return { l with cursor, keyAllowed := broken }.add (.scalar text true)

/-- A character that starts a token of its own kind and so no plain text. -/
def isIndicator (c : Char) : Bool := "-?:,[]\x7b\x7d#&*!|>'\"%@\x60".toList.contains c

/-- Reads the token that begins with `c`. -/
def next (l : Layout) (c : Char) (rest : List Char) : Option Layout :=
  let anchored (token : String → Token) (l : Layout) := l.node fun c => do
    let (name, c) ← readAnchor (c.advance 1)
    return (token name, c)
  let column := l.cursor.column
  if column == 0 && c == '%' then do (← l.leaveBlocks).scan readDirective
  else if l.cursor.atMarker '-' then do return ((← l.leaveBlocks).add .documentStart).pass 3
  else if l.cursor.atMarker '.' then do return ((← l.leaveBlocks).add .documentEnd).pass 3
  else if c == '[' then l.openFlow .flowList
  else if c == '\x7b' then l.openFlow .flowMap
  else if c == ']' then l.closeFlow .flowListEnd
  else if c == '\x7d' then l.closeFlow .flowMapEnd
  else if c == ',' then l.comma
  else if c == '-' && spaced rest then l.item
  else if c == '?' && (l.inFlow || spaced rest) then l.key
  else if c == ':' && (l.inFlow || spaced rest) then l.value
  else if c == '*' then anchored .alias l
  else if c == '&' then anchored .anchor l
  else if c == '!' then l.node fun c => readTag c l.inFlow
  else if c == '|' && !l.inFlow then l.block true
  else if c == '>' && !l.inFlow then l.block false
  else if c == '\'' then l.quoted false
  else if c == '"' then l.quoted true
  else if !(isBlank c || isIndicator c) || c == '-' || (!l.inFlow && (c == '?' || c == ':')) then
    l.plain
  else none

/-- Reads all tokens. Every round reads one, so as many rounds as there are characters, and one for
the end, are enough. -/
def readAll : Nat → Layout → Option Layout
  | 0, _ => none
  | rounds + 1, l => do
    let l := l.skipToToken (l.cursor.rest.length + 1)
    let l ← l.dropStale
    let l := l.unroll l.cursor.column
    match l.cursor.rest with
    | [] => l.leaveBlocks
    | c :: rest => readAll rounds (← l.next c rest)

end Layout

/-- The tokens of a text. -/
def tokens? (text : String) : Option (List Token) := do
  let cs := text.toList
  if cs.any (!isAllowed ·) then none
  let l ← (Layout.start cs).readAll (cs.length + 1)
  return l.tokens.toList

end Hearth.Yaml
