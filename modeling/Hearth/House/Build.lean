import Hearth.Duration
import Hearth.House.Check

/-!
# Building statements

A phrase becomes a statement as soon as its words are read, and an immediate statement changes the
one around it as soon as it is complete.
-/

namespace Hearth.Act

/-- The host and the port of a link that names none. -/
def defaultEndpoint : String × UInt16 := ("localhost", 4304)

/-- The statement that a phrase starts. -/
def build (p : Phrase) : Act Statement := do
  match p.verb.deed with
  | .ifThen | .elseIf => if p.args.isEmpty then throw p.usage else pure (.branch p [] none)
  | .otherwise => if p.args.isEmpty then pure (.group p []) else throw p.usage
  | .group | .background => pure (.group p [])
  | .handle => pure (.handler p none none none [])
  | .wait =>
    let number ← perform fun h => (h.nextWait, { h with nextWait := h.nextWait + 1 })
    pure (.wait p number none)
  | .connect => pure (.connect p defaultEndpoint.1 defaultEndpoint.2 none)
  | .probe deed =>
    if let some text := deed.buildFault then throw (.usage text)
    if deed.role == .collect then pure (.collect p [] []) else pure (.plain p)
  | _ => pure (.plain p)

/-- Sets a field of an event handler. -/
def setHandlerField (p : Phrase) (args : Name) (field : HandlerField) (parent : Statement) :
    Act Statement := do
  match parent with
  | .handler q priority name doc body =>
    match field with
    | .priority =>
      match args with
      | [token] =>
        let some wanted := token.int? | throw p.usage
        let bands := (← get).bands
        match (Decimal.toInt32? wanted.toInt).filter bands.contains with
        | some n => pure (.handler q (some n) name doc body)
        | none => throw (.external (.badPriority wanted bands.low bands.high))
      | _ => throw p.usage
    | .name =>
      if args.isEmpty then throw p.usage else pure (.handler q priority (some args) doc body)
    | .doc =>
      let text := String.intercalate " " (args.map Token.plain)
      pure (.handler q priority name (some text) body)
  | _ => throw (p.misfit (.onlyInside "an 'on' block"))

/-- Does a word say yes or no? -/
def yesOrNo? (s : String) : Option Bool :=
  if ["yes", "true", "on", "1"].contains s then some true
  else if ["no", "false", "off", "0"].contains s then some false
  else none

/-- The port that a word names. -/
def port? (t : Token) : Option UInt16 :=
  t.int?.bind fun n =>
    if 0 < n.toInt && n.toInt < 65536 then some (UInt16.ofNat n.toInt.toNat) else none

/-- Sets a field of a link. -/
def setLinkField (p : Phrase) (args : Name) (field : LinkField) (parent : Statement) :
    Act Statement := do
  match parent with
  | .connect q host port ondemand =>
    match field, args with
    | .host, [token] => pure (.connect q token.render port ondemand)
    | .port, [token] =>
      match port? token with
      | some n => pure (.connect q host n ondemand)
      | none => throw (.external (.badPort token))
    | .ondemand, [] => pure (.connect q host port (some true))
    | .ondemand, [token] =>
      match yesOrNo? token.render with
      | some flag => pure (.connect q host port (some flag))
      | none => throw p.usage
    | _, _ => throw p.usage
  | _ => throw (p.misfit (.onlyInside "'net connect'"))

/-- Says how long a wait lasts. -/
def setSpan (p : Phrase) (args : Name) (parent : Statement) : Act Statement := do
  if args.isEmpty then throw p.usage
  match Duration.read args with
  | .span span =>
    match parent with
    | .wait q number _ => pure (.wait q number (some span))
    | _ => throw (p.misfit (.onlyInside "a 'wait' block"))
  | _ => throw (.external (.badTime args))

/-- Adds a label to a collecting probe. -/
def addLabel (p : Phrase) (parent : Statement) : Act Statement :=
  match parent with
  | .collect q labels body => pure (.collect q (labels ++ [p.args.render]) body)
  | _ => throw (.usage "label needs a block")

/-- Applies an immediate statement to the one around it. -/
def applyTo (parent child : Statement) : Act Statement := do
  let p := child.phrase
  match p.verb.deed with
  | .elseIf | .otherwise =>
    ofExcept (parent.attach child)
  | .attribute field => setHandlerField p (← params p p.event.scope) field parent
  | .setting field => setLinkField p (← params p p.event.scope) field parent
  | .span => setSpan p (← params p p.event.scope) parent
  | .probe ⟨.label, _, _, _, _, _⟩ => addLabel p parent
  | _ => throw (parent.phrase.misfit (.nothingToConfigure p.verb.name))

/-! ## Event handlers -/

/-- Registers an event handler for the pattern that its words give. -/
def defineHandler (p : Phrase) (priority : Option Int32) (name : Option Name)
    (doc : Option String) (body : Body) (scope : ScopeId) : Act Unit := do
  let pattern ← params p scope
  if pattern.isEmpty then throw p.usage
  let h ← get
  if let some name := name then
    if (h.handler? name).isSome then throw (.alreadyExists "handler" name)
  let id := h.nextHandler
  set { h with nextHandler := id + 1 }
  let handler : Handler := {
    id
    name := name.getD [.text "_on", .int (Int64.ofNat id)]
    doc
    pattern
    priority := priority.getD h.bands.defaultPriority
    body
    scope }
  let worker ← register (.handler handler)
  update fun h => { h with handlers := h.handlers ++ [(worker, handler)] }

/-- Removes the event handler that a name refers to. -/
def deleteHandler (name : Name) : Act Unit := do
  match (← get).handler? name with
  | none => throw (.notFound "handler" name)
  | some (worker, _) =>
    update fun h => { h with handlers := h.handlers.filter (·.1 != worker) }
    let _ ← unregister worker

/-! ## Waits -/

/-- Lists a wait and gives its token; the name must be free. -/
def startWait (name : Name) (span : Span) : Act Nat := do
  if NameMap.has (← get).waits name then throw (.alreadyExists "wait" name)
  let started ← perform House.readClock
  perform fun h =>
    let entry : Waiting := ⟨h.nextToken, started, ⟨started.nanos + span.nanos⟩⟩
    (h.nextToken, { h with
      nextToken := h.nextToken + 1
      waits := NameMap.insert name entry h.waits })

/-- Takes a wait off the list, whichever wait has the name now; tells whether there was one. -/
def endWait (name : Name) (h : House) : Bool × House :=
  match NameMap.get? h.waits name with
  | some w => (true, { h with waits := NameMap.erase h.waits name }.signal (.waitGone w.token))
  | none => (false, h)

/-- Is a wait with this token on the list? -/
def hasToken (h : House) (token : Nat) : Bool := h.waits.any fun w => w.2.token == token

/-! ## States -/

/-- What a state without a value had before, or has after. -/
def noValue : Token := .text "-"

/-- Marks a state as being changed, to the given value. -/
def lockState (name : Name) (value : Token) : Act Unit := do
  let h ← get
  if h.isChanging name then throw (.external (.stateLocked name value))
  else set { h with changing := name :: h.changing }

/-- Ends the change of a state. -/
def unlockState (name : Name) (h : House) : House :=
  { h with changing := h.changing.filter (· != name) }

/-- Runs a change of the store. -/
def changeStore (f : Files → Store → Store × Files × Except StoreError (Option Record)) :
    Act Unit := do
  let h ← get
  let (store, files, r) := f h.files h.store
  set { h with store, files }
  match r with
  | .ok _ => pure ()
  | .error e => throw (.external (.store e))

/-- The event that announces the change of a state, in a scope with the old and the new value. -/
def changeEvent (name : Name) (scope : ScopeId) (old new : Token) : Act Event := do
  let scope ← derive scope none [("old", old.toValue), ("new", new.toValue)]
  makeEvent (.text "state" :: .text "change" :: name) scope

/-- Locks a state and runs a change of the store; a state whose value could not be stored is
unlocked again. -/
def changeState (name : Name) (value : Token)
    (f : Files → Store → Store × Files × Except StoreError (Option Record)) : Act Unit := do
  lockState name value
  tryCatch (changeStore f) fun e => do
    update (unlockState name)
    throw e

/-- Gives a state a value; gives the event that announces it, unless the state has that value. -/
def setState (name : Name) (value : Token) (scope : ScopeId) : Act (Option Event) := do
  let old := (← get).state? name
  if old == some value then pure none
  else
    let changed ← perform House.readClock
    changeState name value fun f s => s.set f House.stateCategory name ⟨value, changed⟩
    some <$> changeEvent name scope (old.getD noValue) value

/-- Takes the value of a state away; gives the event that announces it. -/
def deleteState (name : Name) (scope : ScopeId) : Act Event := do
  match (← get).state? name with
  | none => throw (.notFound "state" name)
  | some old =>
    changeState name noValue fun f s => s.delete f House.stateCategory name
    changeEvent name scope old noValue

end Hearth.Act
