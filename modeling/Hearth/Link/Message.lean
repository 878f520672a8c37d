import Hearth.Failure
import Hearth.Text.Utf8

/-!
# Messages

A message is a unit of traffic. The queue asks it what to write, offers it what comes in, and asks
it what to do after the link was lost; each answer is a directive. A message can change with every
call. In the end it is either completed or failed, once.
-/

namespace Hearth.Link

/-- The order in which messages are written: all of a higher class come first. -/
inductive Traffic where
  | control
  | urgent
  | standard
  | background
  deriving Repr, DecidableEq, Inhabited

namespace Traffic

/-- All classes, highest first. -/
def all : List Traffic := [.control, .urgent, .standard, .background]

/-- The name of a class. -/
def name : Traffic → String
  | .control => "control"
  | .urgent => "urgent"
  | .standard => "standard"
  | .background => "background"

/-- The class with the given name. -/
def ofName? (s : String) : Option Traffic := all.find? fun c => c.name == s

end Traffic

/-- What becomes of a message after it was written. -/
inductive SendDirective where
  /-- It is complete. -/
  | done
  /-- It is written again later. -/
  | sendAgain
  /-- It waits for a reply. -/
  | recvAgain
  deriving Repr, DecidableEq, Inhabited

/-- What becomes of a waiting message after it was offered data. -/
inductive RecvDirective where
  /-- The data is for another message. -/
  | notMine
  /-- The data was the reply; the message is complete. -/
  | mine
  /-- The data was taken, and more is due. -/
  | recvAgain
  /-- The data was taken, and the message is to be written again. -/
  | sendAgain
  deriving Repr, DecidableEq, Inhabited

/-- What becomes of a waiting message after the link was opened anew. -/
inductive RetryDirective where
  | sendAgain
  | recvAgain
  | abandon
  deriving Repr, DecidableEq, Inhabited

/-- The answers of a kind of message. -/
class Message (M : Type) where
  traffic : M → Traffic
  blocking : M → Bool
  timeout : M → Option Span
  describe : M → String
  send : M → M × Except QueueError (List Bytes × SendDirective)
  recv : M → Bytes → M × Except QueueError RecvDirective
  retry : M → M × RetryDirective

/-- Messages that ask only finitely often in a row to be written again: `budget` bounds how
often. -/
class BoundedMessage (M : Type) extends Message M where
  budget : M → Nat
  budget_send : ∀ {m m' : M} {frames : List Bytes},
    send m = (m', .ok (frames, .sendAgain)) → budget m' < budget m

/-- What a queue asks of a message. -/
inductive Question where
  | traffic
  | blocking
  | timeout
  | describe
  | send
  | recv (data : Bytes)
  | retry
  deriving Repr, DecidableEq, Inhabited

/-- A message with a number of its own, which tells it from all others and never changes. -/
structure Numbered (M : Type) where
  number : Nat
  body : M
  deriving Repr, DecidableEq, Inhabited

instance {M : Type} [Message M] : Message (Numbered M) where
  traffic m := Message.traffic m.body
  blocking m := Message.blocking m.body
  timeout m := Message.timeout m.body
  describe m := Message.describe m.body
  send m := (⟨m.number, (Message.send m.body).1⟩, (Message.send m.body).2)
  recv m data := (⟨m.number, (Message.recv m.body data).1⟩, (Message.recv m.body data).2)
  retry m := (⟨m.number, (Message.retry m.body).1⟩, (Message.retry m.body).2)

instance {M : Type} [BoundedMessage M] : BoundedMessage (Numbered M) where
  budget m := BoundedMessage.budget m.body
  budget_send {m _ _} h := by
    obtain ⟨rfl, hs⟩ := Prod.mk.inj h
    exact BoundedMessage.budget_send (m := m.body) (Prod.ext rfl hs)

/-- The description of a message that gives none of its own. -/
def describeTraffic (c : Traffic) : String := c.name ++ " message"

/-- One line of text, perhaps with a line expected as the reply. -/
structure Line where
  /-- Tells whoever sent the line which message was meant. -/
  ticket : Nat
  text : String
  traffic : Traffic
  expectsReply : Bool
  blocking : Bool
  timeout : Option Span
  /-- How often the line may be written again after a lost link. -/
  retries : Nat
  reply : Option String
  deriving Repr, DecidableEq, Inhabited

instance : Message Line where
  traffic m := m.traffic
  blocking m := m.blocking
  timeout m := m.timeout
  describe m := "line " ++ Text.quoted m.text
  send m :=
    if m.text.toList.contains '\n' then (m, .error (.message "line contains a newline"))
    else (m, .ok ([Text.bytes m.text ++ [10]], if m.expectsReply then .recvAgain else .done))
  recv m data := ({ m with reply := some (Text.decodeLossy data) }, .ok .mine)
  retry m :=
    if m.retries == 0 then (m, .abandon) else ({ m with retries := m.retries - 1 }, .sendAgain)

instance : BoundedMessage Line where
  budget _ := 0
  budget_send {m _ _} h := by
    simp only [Message.send] at h
    split at h
    · simp at h
    · cases hr : m.expectsReply <;> simp [hr] at h

/-- What a rehearsed message does when it is written. -/
inductive SendCue where
  | directive (value : SendDirective)
  | fail
  deriving Repr, DecidableEq, Inhabited

/-- What a rehearsed message does when it is offered data. -/
inductive RecvCue where
  | directive (value : RecvDirective)
  | fail
  deriving Repr, DecidableEq, Inhabited

/-- A message that answers by rote: the n-th call of a kind gets the n-th answer of a list. -/
structure Rehearsed where
  id : String
  parts : List (List Bytes × SendCue)
  replies : List RecvCue
  retries : List RetryDirective
  traffic : Traffic
  blocking : Bool
  timeout : Option Span
  description : Option String
  /-- The data that it was offered. -/
  heard : List Bytes
  /-- What its list answered when it was last asked after a lost link, if it held an answer. -/
  recalled : Option RetryDirective
  deriving Repr, DecidableEq, Inhabited

instance : Message Rehearsed where
  traffic m := m.traffic
  blocking m := m.blocking
  timeout m := m.timeout
  describe m := m.description.getD (describeTraffic m.traffic)
  send m :=
    match m.parts with
    | [] => (m, .error (.message "nothing left to send"))
    | (frames, cue) :: parts =>
      let m := { m with parts }
      match cue with
      | .directive d => (m, .ok (frames, d))
      | .fail => (m, .error (.message (m.id ++ " cannot be encoded")))
  recv m data :=
    let m := { m with heard := m.heard ++ [data] }
    match m.replies with
    | [] => (m, .ok .notMine)
    | cue :: replies =>
      let m := { m with replies }
      match cue with
      | .directive d => (m, .ok d)
      | .fail => (m, .error (.message (m.id ++ " got garbage")))
  retry m :=
    match m.retries with
    | [] => ({ m with recalled := none }, .sendAgain)
    | d :: retries => ({ m with retries, recalled := some d }, d)

instance : BoundedMessage Rehearsed where
  budget m := m.parts.length
  budget_send {m _ _} h := by
    simp only [Message.send] at h
    split at h
    · simp at h
    · rename_i frames cue parts hp
      cases cue with
      | fail => simp at h
      | directive d =>
        obtain ⟨rfl, -⟩ := Prod.mk.injEq .. ▸ h
        simp [hp]

/-- A message without any answer of its own, that expects a reply or not. -/
structure Plain where
  expectsReply : Bool
  deriving Repr, DecidableEq, Inhabited

instance : Message Plain where
  traffic _ := .standard
  blocking _ := false
  timeout _ := none
  describe _ := describeTraffic .standard
  send m := (m, .ok ([Text.bytes "bare"], if m.expectsReply then .recvAgain else .done))
  recv m _ := (m, .ok .notMine)
  retry m := (m, .sendAgain)

instance : BoundedMessage Plain where
  budget _ := 0
  budget_send {m _ _} h := by cases hr : m.expectsReply <;> simp [Message.send, hr] at h

/-- Any message. -/
inductive Parcel where
  | line (value : Line)
  | rehearsed (value : Rehearsed)
  | plain (value : Plain)
  deriving Repr, DecidableEq, Inhabited

namespace Parcel

/-- Carries a change of a message over to the parcel that holds it. -/
def lift {M α : Type} (wrap : M → Parcel) (r : M × α) : Parcel × α := (wrap r.1, r.2)

theorem lift_eq {M α : Type} {wrap : M → Parcel} {r : M × α} {p : Parcel} {x : α}
    (h : lift wrap r = (p, x)) : p = wrap r.1 ∧ r = (r.1, x) := by
  obtain ⟨rfl, rfl⟩ := Prod.mk.inj h
  exact ⟨rfl, rfl⟩

end Parcel

instance : Message Parcel where
  traffic
    | .line m => Message.traffic m
    | .rehearsed m => Message.traffic m
    | .plain m => Message.traffic m
  blocking
    | .line m => Message.blocking m
    | .rehearsed m => Message.blocking m
    | .plain m => Message.blocking m
  timeout
    | .line m => Message.timeout m
    | .rehearsed m => Message.timeout m
    | .plain m => Message.timeout m
  describe
    | .line m => Message.describe m
    | .rehearsed m => Message.describe m
    | .plain m => Message.describe m
  send
    | .line m => Parcel.lift .line (Message.send m)
    | .rehearsed m => Parcel.lift .rehearsed (Message.send m)
    | .plain m => Parcel.lift .plain (Message.send m)
  recv
    | .line m, data => Parcel.lift .line (Message.recv m data)
    | .rehearsed m, data => Parcel.lift .rehearsed (Message.recv m data)
    | .plain m, data => Parcel.lift .plain (Message.recv m data)
  retry
    | .line m => Parcel.lift .line (Message.retry m)
    | .rehearsed m => Parcel.lift .rehearsed (Message.retry m)
    | .plain m => Parcel.lift .plain (Message.retry m)

instance : BoundedMessage Parcel where
  budget
    | .line m => BoundedMessage.budget m
    | .rehearsed m => BoundedMessage.budget m
    | .plain m => BoundedMessage.budget m
  budget_send {m _ _} h := by
    cases m with
    | line m =>
      obtain ⟨rfl, hm⟩ := Parcel.lift_eq h
      exact BoundedMessage.budget_send hm
    | rehearsed m =>
      obtain ⟨rfl, hm⟩ := Parcel.lift_eq h
      exact BoundedMessage.budget_send hm
    | plain m =>
      obtain ⟨rfl, hm⟩ := Parcel.lift_eq h
      exact BoundedMessage.budget_send hm

end Hearth.Link
