import Hearth.House
import Hearth.Json.Bytes

/-!
# The journal in JSON

Every note is an array that begins with a word for its kind. Times are in milliseconds.
-/

namespace Hearth

namespace Link

/-- The message that a note is about, and the data that it was offered. -/
def subject : Parcel → Option (Json × Json)
  | .line _ => none
  | .rehearsed m => some (.str m.id, .arr (m.heard.map .ofBytes))
  | .plain _ => some (.str "bare", .arr [])

/-- The word for what a message answered after a lost link. -/
def RetryDirective.name : RetryDirective → String
  | .sendAgain => "send"
  | .recvAgain => "recv"
  | .abandon => "abandon"

/-- What a notice tells. -/
def Notice.detail : Notice → Json
  | .connect => .null
  | .disconnect text | .error text | .timeout text => .str text
  | .unrouted data => .ofBytes data

/-- What a link did at a time; what only its own queue needs to know is left out. -/
def Output.toJson? (nanos : Nat) (o : Output Parcel) : Option Json :=
  let entry (word : String) (more : List Json) : Option Json :=
    some (.arr (.ofNat (nanos / 1000000) :: .str word :: more))
  match o with
  | .attempt g => entry "attempt" [.ofNat g]
  | .wrote g data => entry "write" [.ofNat g, .ofBytes data]
  | .writeFailed g data => entry "write_failed" [.ofNat g, .ofBytes data]
  | .closed g => entry "close" [.ofNat g]
  | .notice n => entry "event" [.str n.word, n.detail]
  | .retried (.rehearsed m) _ =>
    entry "retry" [.str m.id, .ofText? (m.recalled.map RetryDirective.name)]
  | .done m => subject m >>= fun (id, heard) => entry "done" [id, heard]
  | .failed m e => subject m >>= fun (id, _) => entry "error" [id, .str e.text]
  | _ => none

/-- The published status of a queue. -/
def Status.toJson (s : Status) : Json :=
  .ofFields [("state", .str s.state.name), ("failures", .ofNat s.failures), ("sent", .ofNat s.sent),
    ("received", .ofNat s.received), ("processed", .ofNat s.processed), ("queued", .ofNat s.queued),
    ("awaiting", .ofNat s.awaiting), ("last_error", .ofText? s.lastError)]

end Link

/-- What a probe that collects shows: its labels and its block. -/
def collectedJson (labels : List String) (body : Body) : Json :=
  let phrases := body.map (·.phrase.text)
  .ofFields [("labels", .arr (labels.map .str)), ("steps", .ofNat body.length),
    ("empty", .bool body.isEmpty), ("body", .str ("[" ++ String.intercalate ", " phrases ++ "]")),
    ("report", .arr ((Statement.reportAll body).map .str))]

/-- A note in JSON, with a form for how a script ended; notes of links and of the diagnostic output
are left out. -/
def Note.toJson? (ended : Except ScriptError Flow → Json) : Note → Option Json
  | .worked worker name => some (.arr [.str "run", .str worker.render, .str name.render])
  | .caught worker text => some (.arr [.str "catch", .str worker.render, .str text])
  | .out line => some (.arr [.str "out", .str line])
  | .log level text => some (.arr [.str "log", .str level.name, .str text])
  | .event name locals => some (.arr [.str "event", .str name.render, .ofFields locals])
  | .ran verb args line collected =>
    let extra := match collected with
      | some (labels, body) => collectedJson labels body
      | none => .null
    some (.arr [.str "run", .str verb.render, args.toJson, .ofNat line, extra])
  | .checked condition args => some (.arr [.str "check", .str condition.render, args.toJson])
  | .loading name => some (.arr [.str "load", .str name.render])
  | .unloading name => some (.arr [.str "unload", .str name.render])
  | .finished result => some (.arr [.str "finished", ended result])
  | _ => none

end Hearth
