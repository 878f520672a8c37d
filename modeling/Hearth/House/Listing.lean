import Hearth.House.Check

/-!
# Listing what there is

Collections show their objects, one line each, and the details of a single one. A collection is
found by the longest name that the words begin with; the words after it name the object.
-/

namespace Hearth

/-- Tenths of a second as a text: the nearest tenth to a number of milliseconds, which is first
turned into a double of seconds; a half goes to the even neighbour. -/
def tenths (millis : Nat) : String :=
  match Decimal.Parts.ofFloat (Float.ofNat millis / 1000.0) with
  | .finite _ value =>
    let n := value.scaled 10
    toString (n / 10) ++ "." ++ toString (n % 10)
  | _ => "0.0"

/-- What is left of a wait at some time. -/
def Waiting.remaining (w : Waiting) (now : Timestamp) : String :=
  tenths ((w.ends.nanos - now.nanos).tdiv 1000000).toNat

namespace House

/-- The event handlers in the order in which they are listed. -/
def sortedHandlers (h : House) : List Handler :=
  (h.handlers.map (·.2)).mergeSort fun a b =>
    a.priority < b.priority || (a.priority == b.priority && Name.order a.name b.name != .gt)

/-- The time of the last change of a link's state. -/
def linkSince (h : House) (q : Link.Queue Link.Parcel) : Timestamp :=
  ⟨h.clock.nanos - (h.now - q.since : Nat)⟩

end House

namespace Collection

/-- The objects of a collection, with a line about each. -/
def items (h : House) : Collection → List (Name × String)
  | .modules => h.loaded.map fun m => (m.name, m.info)
  | .handlers => h.sortedHandlers.map fun x =>
      (x.name, toString x.priority.toInt ++ " " ++ x.pattern.render)
  | .states => h.states.map fun (name, v) => (name, v.render)
  | .waits => h.waits.map fun (name, w) => (name, w.remaining h.clock)
  | .links => h.links.filterMap fun (name, q) =>
      (h.queue? q).map fun q => (name, q.status.state.name)
  | .things _ _ items => items

/-- The details of an event handler. -/
def handlerDetail (x : Handler) : List (String × String) :=
  [("id", toString x.id), ("name", x.name.render), ("prio", toString x.priority.toInt),
    ("pattern", x.pattern.render)] ++
    (x.doc.toList.map fun d => ("doc", d)) ++
    (Statement.reportAll x.body).map fun l => ("code", l)

/-- The details of a link. -/
def linkDetail (h : House) (name : Name) (q : Link.Queue Link.Parcel) : List (String × String) :=
  let s := q.status
  [("name", name.render), ("state", s.state.name), ("since", (h.linkSince q).render),
    ("failures", toString s.failures), ("sent", toString s.sent),
    ("received", toString s.received), ("queued", toString s.queued),
    ("awaiting", toString s.awaiting)] ++
    (s.lastError.toList.map fun e => ("last error", e))

/-- The details of an object. -/
def detail? (h : House) (name : Name) : Collection → Option (List (String × String))
  | .modules => (NameMap.get? h.catalog name).map fun m =>
      [("name", name.render), ("info", m.info),
        ("loaded", if h.isLoaded name then "true" else "false")]
  | .handlers => (h.handler? name).map fun x => handlerDetail x.2
  | .states => (h.store.get? House.stateCategory name).map fun r =>
      [("value", r.value.render), ("changed", r.changed.render),
        ("lock", if h.isChanging name then "yes" else "no")]
  | .waits => (NameMap.get? h.waits name).map fun w =>
      [("name", name.render), ("started", w.started.render), ("ending", w.ends.render),
        ("remaining", w.remaining h.clock)]
  | .links => (h.link? name).map fun x => linkDetail h name x.2
  | .things _ _ items => (items.lookup name).map fun info =>
      [("name", name.render), ("info", info)]

end Collection

namespace Act

/-- The collection that words begin with, and the words after it. -/
def resolve (words : Name) : Act (Collection × Name) := do
  match NameMap.longest? (fun _ _ => true) (← get).collections words with
  | some (n, c) => pure (c, words.drop n)
  | none => throw (.notFound "collection" words)

/-- Says lines, and a dot after them. -/
def sayList (lines : List String) : Act Unit := do
  lines.forM say
  say "."

/-- Lists the collections, the objects of one, or the details of an object. -/
def list (words : Name) : Act Unit := do
  let _ ← perform House.readClock
  if words.isEmpty then
    sayList ((← get).collections.map fun (name, c) => name.render ++ " : " ++ c.doc)
  else
    let (c, item) ← resolve words
    if item.isEmpty then
      sayList ((c.items (← get)).map fun (name, info) => name.render ++ " : " ++ info)
    else
      match c.detail? (← get) item with
      | some details => sayList (details.map fun (key, value) => key ++ ": " ++ value)
      | none => throw (.notFound c.name.render item)

end Act

/-! ## Help -/

/-- The names of verbs, aligned, and what they do. -/
def verbTable (verbs : List Verb) : List String :=
  let width := verbs.foldl (fun n v => max n v.name.render.utf8ByteSize) 0
  verbs.map fun v =>
    let name := v.name.render
    name ++ String.ofList (List.replicate (width - name.length) ' ') ++ " : " ++ v.doc

/-- The documentation of the verb that words begin with, or of all verbs. -/
def helpLines (words : Vocabulary Verb) (args : Name) : Except ScriptError (List String) :=
  if args.isEmpty then .ok ("Known words:" :: verbTable (words.all.map (·.2)))
  else
    match Vocabulary.find? Verb.accepts words args with
    | none => .error (.unknownWord args (Vocabulary.scope words))
    | some v =>
      let rest : Name := args.drop v.name.length
      let stray := if rest.isEmpty then [] else ["Not a command: " ++ rest.render]
      let doc :=
        match v.longDoc with
        | some long => (v.name.render ++ ":") :: Text.lines long
        | none => [v.name.render ++ " : " ++ v.doc]
      let inner :=
        match v.inner with
        | some (t, _) => "Known words:" :: verbTable (t.entries.map (·.2))
        | none => []
      .ok (stray ++ doc ++ inner)

end Hearth
