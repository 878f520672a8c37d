/-!
# Bytes and text

Links carry bytes. Text is sent as UTF-8; bytes that are no text are read with a replacement
character for every longest piece that could have started a character.
-/

namespace Hearth

/-- A run of bytes. -/
abbrev Bytes := List UInt8

namespace Text

/-- The bytes of a text. -/
def bytes (s : String) : Bytes := s.toUTF8.toList

/-- Is `b` in the inclusive range? -/
def within (low high : Nat) (b : UInt8) : Bool := low ≤ b.toNat && b.toNat ≤ high

/-- The six low bits of a byte. -/
def tailBits (b : UInt8) : Nat := b.toNat % 64

/-- The bytes that may follow the first byte of a character directly, and how many bytes follow it
in all. -/
def leading (b : UInt8) : Option (Nat × Nat × Nat) :=
  let n := b.toNat
  if 0xc2 ≤ n && n ≤ 0xdf then some (0x80, 0xbf, 1)
  else if n == 0xe0 then some (0xa0, 0xbf, 2)
  else if n == 0xed then some (0x80, 0x9f, 2)
  else if 0xe1 ≤ n && n ≤ 0xef then some (0x80, 0xbf, 2)
  else if n == 0xf0 then some (0x90, 0xbf, 3)
  else if 0xf1 ≤ n && n ≤ 0xf3 then some (0x80, 0xbf, 3)
  else if n == 0xf4 then some (0x80, 0x8f, 3)
  else none

/-- The character at the start of `b :: rest`, or none if there is none, and how many bytes of
`rest` belong to it. -/
def decodeOne (b : UInt8) (rest : Bytes) : Option Char × Nat :=
  if b.toNat < 0x80 then (some (Char.ofNat b.toNat), 0)
  else
    match leading b with
    | none => (none, 0)
    | some (low, high, count) =>
      match rest with
      | [] => (none, 0)
      | b₁ :: rest =>
        if !within low high b₁ then (none, 0)
        else if count == 1 then (some (Char.ofNat (b.toNat % 32 * 64 + tailBits b₁)), 1)
        else
          match rest with
          | [] => (none, 1)
          | b₂ :: rest =>
            if !within 0x80 0xbf b₂ then (none, 1)
            else if count == 2 then
              (some (Char.ofNat ((b.toNat % 16 * 64 + tailBits b₁) * 64 + tailBits b₂)), 2)
            else
              match rest with
              | [] => (none, 2)
              | b₃ :: _ =>
                if !within 0x80 0xbf b₃ then (none, 2)
                else
                  let high := (b.toNat % 8 * 64 + tailBits b₁) * 64 + tailBits b₂
                  (some (Char.ofNat (high * 64 + tailBits b₃)), 3)

/-- The characters of bytes; a piece that is no character gives none. -/
def decodeChars : Bytes → List (Option Char)
  | [] => []
  | b :: rest =>
    let (c, used) := decodeOne b rest
    c :: decodeChars (rest.drop used)
termination_by bs => bs.length
decreasing_by
  simp only [List.length_cons, List.length_drop]
  omega

/-- The text of bytes, if they are text. -/
def decode? (bs : Bytes) : Option String := ((decodeChars bs).mapM id).map String.ofList

/-- The text of bytes, with replacement characters where they are no text. -/
def decodeLossy (bs : Bytes) : String :=
  String.ofList ((decodeChars bs).map fun c => c.getD '\ufffd')

end Text

end Hearth
