import Hearth.Text.Utf8
import Hearth.Yaml.Token
import Hearth.Yaml.Token.Scalar

/-!
# Anchors, tags and directives

What may stand in front of a node, and in front of a document. A tag is written as a URI in which
bytes may be given in hexadecimal.
-/

namespace Hearth.Yaml

/-- A character that stands for itself in every URI. -/
def isUri (c : Char) : Bool := isWord c || ";/?:@&=+$.!~*'()".toList.contains c

/-- A character that stands for itself in a URI that is bracketed or stands in a directive. -/
def isWideUri (c : Char) : Bool := isUri c || c == ',' || c == '[' || c == ']'

/-- How many bytes make up the character that starts with the byte. -/
def escapeLength? (b : Nat) : Option Nat :=
  if b < 0x80 then some 1
  else if 0xc0 ≤ b && b < 0xe0 then some 2
  else if 0xe0 ≤ b && b < 0xf0 then some 3
  else if 0xf0 ≤ b && b < 0xf8 then some 4
  else none

/-- A percent sign and two hexadecimal digits. -/
def readOctet : List Char → Option Nat
  | '%' :: a :: b :: _ => do return 16 * (← hexDigit? a) + (← hexDigit? b)
  | _ => none

/-- `n` octets that go on with a character. -/
def readOctets (bytes : Bytes) : Nat → List Char → Option Bytes
  | 0, _ => some bytes
  | n + 1, cs => do
    let b ← readOctet cs
    if b / 64 != 2 then none
    readOctets (bytes ++ [UInt8.ofNat b]) n (cs.drop 3)

/-- The octets of one character. -/
def readEscapedChar (cs : List Char) : Option Bytes := do
  let b ← readOctet cs
  let n ← escapeLength? b
  readOctets [UInt8.ofNat b] (n - 1) (cs.drop 3)

/-- The bytes of a URI. -/
def readUri (test : Char → Bool) (bytes : Bytes) : Nat → Cursor → Option (Bytes × Cursor)
  | 0, _ => none
  | rounds + 1, c =>
    match c.rest with
    | '%' :: _ =>
      match readEscapedChar c.rest with
      | some more => readUri test (bytes ++ more) rounds (c.advance (3 * more.length))
      | none => none
    | ch :: _ =>
      if test ch then
        readUri test (bytes ++ Text.bytes (String.singleton ch)) rounds (c.advance 1)
      else some (bytes, c)
    | [] => some (bytes, c)

/-- A URI as a text, up to a byte of zero. -/
def uriText? (bytes : Bytes) : Option String := Text.decode? (bytes.takeWhile (· != 0))

/-- An anchor or alias behind its mark. -/
def readAnchor (c : Cursor) : Option (String × Cursor) :=
  let (name, c) := c.takeWhile isWord
  let ends := spaced c.rest || c.rest.head?.any "?:,]\x7d%@\x60".toList.contains
  if name.isEmpty || !ends then none else some (String.ofList name, c)

/-- An exclamation mark, word characters, and the exclamation mark that may follow them. -/
def readHandle (c : Cursor) : Option (List Char × Cursor) :=
  match c.rest with
  | '!' :: _ =>
    let (name, c) := (c.advance 1).takeWhile isWord
    if c.rest.head? == some '!' then some ('!' :: name ++ ['!'], c.advance 1)
    else some ('!' :: name, c)
  | _ => none

/-- A tag: bracketed, or short for a longer one by its handle, or of the document's own. -/
def readTag (c : Cursor) (flow : Bool) : Option (Token × Cursor) := do
  let rounds := c.rest.length + 1
  let (token, c) ←
    if c.rest.take 2 == ['!', '<'] then do
      let (bytes, c) ← readUri isWideUri [] rounds (c.advance 2)
      if bytes.isEmpty || c.rest.head? != some '>' then none
      pure (Token.tag "" (uriText? bytes), c.advance 1)
    else do
      let (handle, c) ← readHandle c
      let named := 1 < handle.length && handle.getLast? == some '!'
      let head := if named then [] else Text.bytes (String.ofList (handle.drop 1))
      let (bytes, c) ← readUri isUri head rounds c
      if named then
        if bytes.isEmpty then none
        pure (Token.tag (String.ofList handle) (uriText? bytes), c)
      else
        let text? := uriText? bytes
        pure (if text? == some "" then Token.tag "" (some "!") else Token.tag "!" text?, c)
  if spaced c.rest || (flow && c.rest.head? == some ',') then return (token, c) else none

/-- The number of a version: one to nine digits. -/
def readVersionNumber (c : Cursor) : Option (Nat × Cursor) := do
  let (digits, c) := c.takeWhile Char.isDigit
  if digits.isEmpty || 9 < digits.length then none
  return (digits.foldl (fun n d => 10 * n + (d.toNat - '0'.toNat)) 0, c)

/-- What follows the name of a directive. -/
def readDirectiveValue (name : String) (c : Cursor) : Option (Token × Cursor) := do
  let c := c.skipWhile isBlank
  match name with
  | "YAML" =>
    let (major, c) ← readVersionNumber c
    if c.rest.head? != some '.' then none
    let (minor, c) ← readVersionNumber (c.advance 1)
    return (.version major minor, c)
  | "TAG" =>
    let (handle, c) ← readHandle c
    if handle.getLast? != some '!' then none
    if !c.rest.head?.any isBlank then none
    let c := c.skipWhile isBlank
    let (bytes, c) ← readUri isWideUri [] (c.rest.length + 1) c
    if bytes.isEmpty || !spaced c.rest then none
    return (.handle (String.ofList handle) (uriText? bytes), c)
  | _ => none

/-- A directive, from its percent sign to the end of its line. -/
def readDirective (c : Cursor) : Option (Token × Cursor) := do
  let (name, c) := (c.advance 1).takeWhile isWord
  if name.isEmpty || !spaced c.rest then none
  let (token, c) ← readDirectiveValue (String.ofList name) c
  let c := c.skipWhile isBlank
  let c := if c.rest.head? == some '#' then c.skipLine else c
  if !lineEnds c.rest then none
  return (token, c.skipBreak)

end Hearth.Yaml
