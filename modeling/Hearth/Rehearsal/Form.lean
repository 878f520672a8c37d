import Hearth.Event
import Hearth.Flow
import Hearth.Json.Decode
import Hearth.Level
import Hearth.Link.Message
import Hearth.Link.State

/-!
# Names and words in JSON

A name may be written as a text, which is split at blanks. What is known by a word is written as
that word.
-/

namespace Hearth.Json

/-- The decoding of what is known by a word. -/
@[reducible] def ofWord {α : Type} (find : String → Option α) : Decode α where
  decode?
    | .str s => find s
    | _ => none

instance : Decode Token := ⟨Token.ofJson?⟩

instance : Decode Name where
  decode?
    | .str s => some (Name.ofText s)
    | v => Name.ofJson? v

instance : Decode Level := ofWord Level.ofName?

instance : Decode Flow := ofWord Flow.ofName?

instance : Decode Link.State := ofWord Link.State.ofName?

instance : Decode Link.Traffic := ofWord Link.Traffic.ofName?

end Hearth.Json
