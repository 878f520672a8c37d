import Hearth.Json.Bytes
import Hearth.Link.Queue
import Hearth.Rehearsal.Form

/-!
# Traffic described in JSON

Messages for links, and plans for the attempts of a transport that stands in for a real one.
-/

namespace Hearth.Link

open Json

/-- What a word stands for. -/
def cue {α : Type} (cues : List (String × α)) (word : String) : Except String α :=
  (cues.lookup word).elim (.error "message") .ok

/-- The words for what a message does when it is written. -/
def sendCues : List (String × SendCue) :=
  [("done", .directive .done), ("again", .directive .sendAgain), ("recv", .directive .recvAgain),
    ("fail", .fail)]

/-- The words for what a message does when it is offered data. -/
def recvCues : List (String × RecvCue) :=
  [("mine", .directive .mine), ("recv", .directive .recvAgain), ("send", .directive .sendAgain),
    ("no", .directive .notMine), ("fail", .fail)]

/-- The words for what a message does after a lost link. -/
def retryCues : List (String × RetryDirective) :=
  [("send", .sendAgain), ("recv", .recvAgain), ("abandon", .abandon)]

/-- A message that is described; a line gets the given ticket. -/
def Parcel.ofJson (ticket : Nat) (j : Json) : Except String Parcel := do
  if j.has "bare" then return .plain ⟨← j.need "bare"⟩
  let traffic ← j.getD "class" .standard
  let blocking ← j.flag "blocking"
  let millis : Option Nat ← j.opt "timeout_ms"
  let timeout := millis.map Span.ofMillis
  if j.has "line" then
    return .line {
      ticket
      text := ← j.need "line"
      traffic
      expectsReply := ← j.flag "reply"
      blocking
      timeout
      retries := ← j.getD "retries" 0
      reply := none }
  let parts : List (List Bytes × String) ← j.getD "parts" []
  let replies : List String ← j.getD "replies" []
  let retries : List String ← j.getD "retry" []
  return .rehearsed {
    id := ← j.need "id"
    parts := ← parts.mapM fun (frames, word) => return (frames, ← cue sendCues word)
    replies := ← replies.mapM (cue recvCues)
    retries := ← retries.mapM (cue retryCues)
    traffic
    blocking
    timeout
    description := ← j.opt "describe"
    heard := []
    recalled := none }

/-- The text of a refusal by the transport. -/
def refusal : String := (QueueError.transport "refused").text

/-- What an attempt comes to. -/
def Plan.ofJson (j : Json) : Except String Plan :=
  match j with
  | .null | .str "ok" => return .succeed
  | .str "fail" => return .refuse refusal
  | .str "hang" => return .hang
  | j => return .delay (← j.need "delay") (if ← j.flag "fail" then some refusal else none)

/-- The plans for the first attempts, and for all later ones. -/
def plansOf (j : Json) : Except String (List Plan × Plan) := do
  let first : List Json ← j.getD "connect" []
  return (← first.mapM Plan.ofJson, ← Plan.ofJson ((j.field? "default").getD .null))

end Hearth.Link
