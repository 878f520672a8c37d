import Hearth.Text.Utf8

/-!
# Bytes in hexadecimal

Two digits stand for a byte, the higher one first.
-/

namespace Hearth.Text

/-- The digits. -/
def hexDigits : List Char := "0123456789abcdef".toList

/-- The digit of a number below sixteen. -/
def hexDigit (n : Nat) : Char := hexDigits.getD n '0'

/-- Bytes written in hexadecimal. -/
def toHex (bytes : Bytes) : String :=
  String.ofList (bytes.flatMap fun b => [hexDigit (b.toNat / 16), hexDigit (b.toNat % 16)])

/-- The bytes that pairs of digits stand for. -/
def ofHexDigits? : List Char → Option Bytes
  | [] => some []
  | a :: b :: rest => do
    let high ← hexDigits.idxOf? a
    let low ← hexDigits.idxOf? b
    return UInt8.ofNat (16 * high + low) :: (← ofHexDigits? rest)
  | [_] => none

/-- The bytes that a text in hexadecimal stands for. -/
def ofHex? (s : String) : Option Bytes := ofHexDigits? s.toList

end Hearth.Text
