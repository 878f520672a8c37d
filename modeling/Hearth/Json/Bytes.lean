import Hearth.Json.Decode
import Hearth.Text.Hex

/-!
# Bytes in JSON

Bytes that are a text are written as that text, others in hexadecimal under the key `hex`.
-/

namespace Hearth.Json

/-- The form of bytes. -/
def ofBytes (b : Bytes) : Json :=
  match Text.decode? b with
  | some s => .str s
  | none => .obj [("hex", .str (Text.toHex b))]

instance : Decode Bytes where
  decode?
    | .str s => some (Text.bytes s)
    | v => do
      let .str s ← v.field? "hex" | none
      Text.ofHex? s

end Hearth.Json
