import Hearth.Strand

/-!
# Running statements

What each statement does when it runs. A statement that works by itself is done at once; one that
dispatches an event, loads a module or waits makes the call for that.
-/

namespace Hearth.Strand

/-- Runs the statements of a list in order; the first flow other than `done` ends the list. -/
def runBody (body : Body) (scope : ScopeId) : Move :=
  match body with
  | [] => .done
  | s :: rest => .under (.body s.phrase.line rest scope) (.statement s scope)

/-- Goes on with a list of statements; an error gets the line of the statement that failed. -/
def afterStatement (line : Nat) (rest : Body) (scope : ScopeId) : Outcome → Move
  | .ok .done => runBody rest scope
  | .ok flow => .give (.ok flow)
  | .error e => .give (.error (e.atLineOnce line))

/-- The arguments of a statement that needs some. -/
def someParams (p : Phrase) (scope : ScopeId) : Act Name := do
  let args ← Act.params p scope
  if args.isEmpty then throw p.usage else pure args

/-- Dispatches the event that a statement's words make, in a scope of its own. -/
def trigger (p : Phrase) (scope : ScopeId) : Act Move := do
  let words ← someParams p scope
  let inner ← Act.derive scope none []
  pure (.call (.dispatch (← Act.makeEvent words inner)))

/-- Removes an object from a collection. -/
def deleteFrom (c : Collection) (item : Name) (scope : ScopeId) : Act Move := do
  match c with
  | .modules => pure (.call (.unload item))
  | .handlers =>
    Act.deleteHandler item
    pure .done
  | .states => do
    let e ← Act.deleteState item scope
    pure (.under (.unlock item) (.dispatch e))
  | .waits =>
    if ← Act.perform (Act.endWait item) then pure .done else throw (.notFound "wait" item)
  | .links => do
    let id ← Act.takeLink item
    pure (.call (.close id))
  | .things name _ _ => throw (.usage ("cannot delete from '" ++ name.render ++ "'"))

/-- Removes the object that words name. -/
def delete (words : Name) (scope : ScopeId) : Act Move := do
  let (c, item) ← Act.resolve words
  if item.isEmpty then throw (.usage ("del " ++ c.name.render ++ " NAME…"))
  deleteFrom c item scope

/-- Writes to the log: a level, then the words. -/
def log (p : Phrase) (words : Name) : Act Move := do
  match words with
  | [] => throw p.usage
  | first :: rest =>
    match Level.ofWord? first.render with
    | none => throw p.usage
    | some level =>
      let line := String.intercalate " " (rest.map Token.render)
      Act.update fun h => h.logAll level [line]
      pure .done

/-- Gives a state a value and announces the change. -/
def setState (p : Phrase) (scope : ScopeId) : Act Move := do
  let args ← Act.params p scope
  let (value, name) ← Act.ofExcept (valueAndName p.verb.doc args)
  match ← Act.setState name value scope with
  | none => pure .done
  | some e => pure (.under (.unlock name) (.dispatch e))

/-- Copies the value of a state into a variable. -/
def readState (p : Phrase) (scope : ScopeId) : Act Move := do
  let args ← Act.params p scope
  let (var, name) ← Act.ofExcept (valueAndName p.verb.doc args)
  match (← get).state? name with
  | none => throw (.notFound "state" name)
  | some value =>
    Act.update fun h => { h with scopes := h.scopes.set scope var.render value.toValue }
    pure .done

/-- The name of a wait without one. -/
def waitName (number : Nat) : Name := [.text "_wait", .int (Int64.ofNat number)]

/-- Announces a step of a wait. -/
def announceWait (step : String) (name : Name) (scope : ScopeId) : Act Event :=
  Act.makeEvent (.text "wait" :: .text step :: name) scope

/-- Starts a wait and announces that. -/
def wait (p : Phrase) (number : Nat) (span : Option Span) (scope : ScopeId) : Act Move := do
  let some span := span | throw (.usage "wait [NAME…]: for TIME…")
  let args ← Act.params p scope
  let name := if args.isEmpty then waitName number else args
  if span.nanos == 0 then pure .done
  else
    let token ← Act.startWait name span
    let e ← announceWait "start" name scope
    pure (.under (.waitStarted name token span scope) (.dispatch e))

/-- Waits, after the start was announced; a start that fails takes the wait off the list. -/
def waitStarted (name : Name) (token : Nat) (span : Span) (scope : ScopeId) :
    Outcome → Act Move
  | .ok _ => do
    let due := (← get).now + span.nanos
    pure ⟨[.waited name scope], .pause (.wait name token due)⟩
  | .error e => do
    let _ ← Act.perform (Act.endWait name)
    throw e

/-- Ends a wait and announces that. -/
def waited (name : Name) (scope : ScopeId) : Outcome → Act Move
  | .ok _ => do
    let _ ← Act.perform (Act.endWait name)
    pure (.call (.dispatch (← announceWait "done" name scope)))
  | .error e => do
    pure (.under (.result (.error e)) (.dispatch (← announceWait "cancel" name scope)))

/-- Opens a link. -/
def connect (p : Phrase) (ondemand : Option Bool) (scope : ScopeId) : Act Move := do
  let name ← someParams p scope
  if ((← get).link? name).isSome then throw (House.linkError name (.duplicate name))
  Act.openLink name ondemand
  pure .done

/-- The message of a line that expects no reply. -/
def lineMessage (ticket : Nat) (text : String) : Link.Parcel :=
  .line ⟨ticket, text, .standard, false, false, none, 0, none⟩

/-- Sends a line, and waits until it is written. -/
def send (p : Phrase) (scope : ScopeId) : Act Move := do
  let args ← Act.params p scope
  match args.reverse with
  | text :: word :: name =>
    let name := (word :: name).reverse
    match (← get).link? name with
    | none => throw (House.linkError name (.unknown name))
    | some (id, _) =>
      let ticket ← Act.perform fun h => (h.nextTicket, { h with nextTicket := h.nextTicket + 1 })
      pure (.under (.sent ticket) (.send id (lineMessage ticket text.plain)))
  | _ => throw p.usage

/-- Waits for the answer of a line that was sent. -/
def sent (ticket : Nat) : Outcome → Move
  | .ok _ => .pause (.answer ticket)
  | .error e => .give (.error e)

/-- Runs a probe. -/
def probe (p : Phrase) (deed : ProbeDeed) (collected : Option (List String × Body))
    (scope : ScopeId) : Act Move := do
  let args ← Act.params p scope
  Act.update fun h => h.note (.ran p.verb.name args p.line collected)
  match deed.fault with
  | .usage => throw p.usage
  | .with text => throw (.external (.other text))
  | .never => pure ()
  match collected with
  | some (_, body) => pure (.call (.body body scope))
  | none => pure (.give (.ok deed.flow))

/-- Runs a statement that collected nothing. -/
def runPlain (p : Phrase) (scope : ScopeId) : Act Move := do
  match p.verb.deed with
  | .trigger => trigger p scope
  | .load => pure (.call (.load (← someParams p scope)))
  | .unload => pure (.call (.unload (← someParams p scope)))
  | .list =>
    Act.list (← Act.params p scope)
    pure .done
  | .delete => delete (← Act.params p scope) scope
  | .help =>
    let args ← Act.params p scope
    let lines ← Act.ofExcept (helpLines (← get).topWords args)
    lines.forM Act.say
    pure .done
  | .log => log p (← Act.params p scope)
  | .pass flow => pure (.give (.ok flow))
  | .setState => setState p scope
  | .readState => readState p scope
  | .send => send p scope
  | .probe deed => probe p deed none scope
  | _ => throw (.topLevel p.verb.name)

/-- Runs a statement. -/
def run (s : Statement) (scope : ScopeId) : Act Move := do
  match s with
  | .plain p => runPlain p scope
  | .group p body =>
    match p.verb.deed with
    | .group => pure (.call (.body body (← Act.derive scope none [])))
    | .background =>
      let inner ← Act.derive scope none []
      Act.update fun h => h.signal (.start (.background body inner p.line))
      pure .done
    | _ => pure (.call (.body body scope))
  | .branch p body orElse =>
    if ← Act.check (← Act.params p scope) then pure (.call (.body body scope))
    else
      match orElse with
      | some next => pure (.call (.statement next scope))
      | none => pure .done
  | .handler p priority name doc body =>
    Act.defineHandler p priority name doc body scope
    pure .done
  | .wait p number span => wait p number span scope
  | .connect p _ _ ondemand => connect p ondemand scope
  | .collect p labels body =>
    match p.verb.deed with
    | .probe deed => probe p deed (some (labels, body)) scope
    | _ => pure (.call (.body body scope))

end Hearth.Strand
