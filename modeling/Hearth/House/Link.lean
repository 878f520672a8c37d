import Hearth.House

/-!
# Links of a house

The queues of a house, and what their turns leave to be done: frames and answers are noted, lines
get their answers, and notices become events.
-/

namespace Hearth

namespace House

/-- The words of the event for a notice about a link. -/
def noticeWords (name : Name) (n : Link.Notice) : Name :=
  match n with
  | .unrouted data =>
    .text "net" :: .text "line" :: name ++ Name.ofText (Text.trimEnd (Text.decodeLossy data))
  | n => .text "net" :: .text n.word :: name

/-- The reason that a notice gives. -/
def noticeReason? : Link.Notice → Option String
  | .disconnect reason => some reason
  | .error reason => some reason
  | .timeout message => some message
  | _ => none

/-- Makes an event of a notice about a link, to be dispatched by itself. -/
def announceNotice (h : House) (name : Name) (n : Link.Notice) : House :=
  let seed := (noticeReason? n).toList.map fun r => ("reason", Json.str r)
  let (scope, h) := h.derive h.root none seed
  h.signal (.start (.announce (noticeWords name n) scope))

/-- Keeps the answer of a line until it is taken. -/
def answer (h : House) (ticket : Nat) (r : Except QueueError (Option String)) : House :=
  { h with answers := h.answers ++ [(ticket, r)] }.signal (.answered ticket)

/-- The answer that a finished message brings, if it is a line. -/
def answerOf (h : House) (m : Link.Parcel) (e : Option QueueError) : House :=
  match m with
  | .line l =>
    h.answer l.ticket (match e with
      | some e => .error e
      | none => .ok l.reply)
  | _ => h

/-- Does what a queue did to the outside. -/
def output (h : House) (id : QueueId) (o : Link.Output Link.Parcel) : House :=
  let noted := h.note (.link id h.now o)
  match o with
  | .attempt generation => h.signal (.start (.attempt id generation))
  | .abort => h.signal (.abort id)
  | .notice n =>
    match h.queue? id with
    | some q =>
      match q.hook with
      | .ignored => h
      | .noted => noted
      | .announced => h.announceNotice q.name n
    | none => h
  | .done m => noted.answerOf m none
  | .failed m e => noted.answerOf m (some e)
  | .published _ => h.signal (.changed id)
  | .refused _ _ => h
  | .asked _ _ => h
  | _ => noted

/-- Does what a turn of a queue left to be done. -/
def effects (h : House) (id : QueueId) (es : List (Link.Effect Link.Parcel)) : House :=
  es.foldl
    (fun h e =>
      match e with
      | .wake job => h.signal (.wake job)
      | .output o => h.output id o)
    h

/-- The turn of a queue's loop. -/
def turn (h : House) (id : QueueId) : House :=
  match h.queue? id with
  | none => h
  | some q =>
    let (es, q) := q.turn h.now
    let h := (h.updateQueue id fun _ => q).effects id es
    if q.running then h else h.signal (.changed id)

/-- Starts a queue. -/
def startQueue (h : House) (name : Name) (config : Link.Config) (hook : Link.Hook)
    (plans : List Link.Plan) (fallback : Link.Plan) : QueueId × House :=
  let id : QueueId := ⟨h.queues.length⟩
  let q : Link.Queue Link.Parcel := .start name config hook plans fallback
  (id, { h with queues := h.queues ++ [q] }.signal (.start (.loop id)))

/-- The error of a frame that does not get through. -/
def writeError : QueueError := .transport "broken pipe"

/-- Makes the next frames that are written to a queue's transports fail. -/
def failWrites (h : House) (id : QueueId) (n : Nat) : House :=
  h.updateQueue id fun q =>
    { q with loop := { q.loop with wire := List.replicate n (some writeError) } }

/-- Gives a queue up: nobody can send to it any more. -/
def release (h : House) (id : QueueId) : House :=
  (h.updateQueue id fun q => { q with held := false }).signal (.wakeLoop id)

/-- Takes the answers that lines got, in the order in which the lines were made. -/
def takeAnswers (h : House) : List (Nat × Except QueueError (Option String)) × House :=
  (h.answers.mergeSort fun a b => a.1 ≤ b.1, { h with answers := [] })

/-- Sends a message to a queue. A closed queue fails it at once. -/
def send (h : House) (id : QueueId) (job : Link.JobId) (m : Link.Parcel) : Link.Posting × House :=
  match h.queue? id with
  | none => (.closed, h.output id (.failed m .closed))
  | some q =>
    let (r, es, q) := q.send job m
    let h := (h.updateQueue id fun _ => q).effects id es
    match r with
    | .put => (r, h.signal (.wakeLoop id))
    | r => (r, h)

/-- Sends a message to a queue that has room for it at once; otherwise it fails. -/
def trySend (h : House) (id : QueueId) (m : Link.Parcel) : Option QueueError × House :=
  match h.queue? id with
  | none => (some .closed, h.output id (.failed m .closed))
  | some q =>
    let (r, es, q) := q.trySend m
    let h := (h.updateQueue id fun _ => q).effects id es
    match r with
    | none => (r, h.signal (.wakeLoop id))
    | r => (r, h)

/-- Posts an item for the control of a link. -/
def post (h : House) (id : QueueId) (job : Link.JobId) (c : Link.Control) : Link.Posting × House :=
  match h.queue? id with
  | none => (.closed, h)
  | some q =>
    let (r, q) := q.post job c
    let h := h.updateQueue id fun _ => q
    match r with
    | .put => (r, h.signal (.wakeLoop id))
    | r => (r, h)

/-- The error for a link that is not there, or is there already. -/
def linkError (name : Name) (e : QueueError) : ScriptError :=
  match e with
  | .unknown _ => .notFound "net link" name
  | .duplicate _ => .alreadyExists "net link" name
  | e => .external (.queue e)

/-- Takes all links off the list. -/
def takeLinks (h : House) : List QueueId × House := (h.links.map (·.2), { h with links := [] })

end House

namespace Act

/-- Opens a link with the settings for links, or without waiting for traffic as told. -/
def openLink (name : Name) (ondemand : Option Bool) : Act Unit := do
  let h ← get
  let config := { h.linkConfig with ondemand := ondemand.getD h.linkConfig.ondemand }
  let refused := Link.Plan.refuse (QueueError.transport "Connection refused (os error 111)").text
  let id ← perform fun h => h.startQueue name config .announced [] refused
  update fun h => { h with links := NameMap.insert name id h.links }

/-- Takes a link off the list. -/
def takeLink (name : Name) : Act QueueId := do
  let h ← get
  match NameMap.get? h.links name with
  | some id =>
    set { h with links := NameMap.erase h.links name }
    pure id
  | none => throw (House.linkError name (.unknown name))

end Act

end Hearth
