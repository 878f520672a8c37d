import Hearth.Statement

/-!
# Modules

Modules can be loaded and unloaded while a house runs. What a module provides is a list of verbs,
conditions and collections; loading it registers them in order, and unloading takes exactly those
away again that were registered.
-/

namespace Hearth

/-- A condition that stands in for a real one. -/
structure ProbeCondition where
  name : Name
  doc : String
  value : Bool
  fault : Option String
  deriving Repr, DecidableEq, Inhabited

/-- A test for `if`. -/
inductive Condition where
  | constant (value : Bool)
  | stateIs
  | stateExists
  | stateLocked
  | handlerExists
  | waitExists
  | linkExists
  | linkConnected
  | probe (value : ProbeCondition)
  deriving Repr, DecidableEq, Inhabited

namespace Condition

/-- The name of a condition. -/
def name : Condition → Name
  | .constant true => [.text "true"]
  | .constant false => [.text "false"]
  | .stateIs => [.text "state"]
  | .stateExists => [.text "exists", .text "state"]
  | .stateLocked => [.text "locked", .text "state"]
  | .handlerExists => [.text "exists", .text "on"]
  | .waitExists => [.text "exists", .text "wait"]
  | .linkExists => [.text "exists", .text "net"]
  | .linkConnected => [.text "connected", .text "net"]
  | .probe p => p.name

/-- What a condition tests. -/
def doc : Condition → String
  | .constant true => "always true"
  | .constant false => "always false"
  | .stateIs => "check whether a state has a value"
  | .stateExists => "check whether a state exists"
  | .stateLocked => "check whether a state is being changed"
  | .handlerExists => "check whether a handler exists"
  | .waitExists => "check whether a wait is running"
  | .linkExists => "check whether a link exists"
  | .linkConnected => "check whether a link is up"
  | .probe p => p.doc

/-- How a condition is used. -/
def usage : Condition → String
  | .constant value => "if " ++ (Condition.constant value).name.render
  | .stateIs => "if state VALUE NAME…"
  | c => "if " ++ c.name.render ++ " NAME…"

end Condition

/-- Live objects that can be listed and removed. -/
inductive Collection where
  | modules
  | handlers
  | states
  | waits
  | links
  /-- Objects that stand in for real ones, each with a line of information. -/
  | things (name : Name) (doc : String) (items : List (Name × String))
  deriving Repr, DecidableEq, Inhabited

namespace Collection

/-- The name of a collection. -/
def name : Collection → Name
  | .modules => [.text "module"]
  | .handlers => [.text "on"]
  | .states => [.text "state"]
  | .waits => [.text "wait"]
  | .links => [.text "net"]
  | .things name _ _ => name

/-- What a collection holds. -/
def doc : Collection → String
  | .modules => "loaded modules"
  | .handlers => "event handlers"
  | .states => "named states"
  | .waits => "running waits"
  | .links => "network links"
  | .things _ doc _ => doc

end Collection

/-- A module that stands in for a real one. -/
structure ProbeModule where
  word : Option Verb
  loadFault : Option String
  unloadFault : Option String
  deriving Inhabited

/-- What a module is about. -/
inductive Feature where
  | bool
  | ifElse
  | block
  | events
  | handlers
  | state
  | wait
  | logging
  | help
  | net
  | probe (value : ProbeModule)
  deriving Inhabited

/-- A module of the catalog. -/
structure Module where
  name : Name
  info : String
  feature : Feature
  deriving Inhabited

/-- Something that a module registers. -/
inductive Provision where
  | verb (value : Verb)
  | condition (value : Condition)
  | collection (value : Collection)
  deriving Inhabited

namespace Verb

/-- A verb of some words. -/
def ofWords (words : List String) (doc : String) (deed : Deed) : Verb where
  name := words.map .text
  doc
  longDoc := none
  immediate := false
  block := .none
  arity := .any
  inner := none
  deed

/-- Gives a verb a longer documentation. -/
def explained (v : Verb) (lines : List String) : Verb :=
  { v with longDoc := some (String.intercalate "\n" lines) }

/-- Makes the block of a verb hold statements. -/
def withStatements (v : Verb) : Verb := { v with block := .statements }

/-- Makes the block of a verb hold attributes. -/
def withAttributes (v : Verb) : Verb := { v with block := .attributes }

/-- Makes a verb immediate. -/
def atOnce (v : Verb) : Verb := { v with immediate := true }

/-- Makes a verb accept no words after its name. -/
def alone (v : Verb) : Verb := { v with arity := .none }

/-- Gives a verb words for its block. -/
def withInner (v : Verb) (scope : String) (fallsBack : Bool) (verbs : List Verb) : Verb :=
  let entries := verbs.foldl (fun acc w => NameMap.insert w.name w acc) []
  { v with inner := some (⟨scope, entries⟩, fallsBack) }

/-- The verbs that are always there. -/
def core : List Verb := [
  (ofWords ["load"] "load NAME…: load a module" .load).explained [
    "load NAME…",
    "\tloads the named module, which makes its statements available",
    "\t'list module' shows what is loaded"],
  ofWords ["del", "load"] "del load NAME…: unload a module" .unload,
  (ofWords ["list"] "list [COLLECTION [NAME…]]: show live objects" .list).explained [
    "list",
    "\tshows the known collections",
    "list COLLECTION",
    "\tshows the items in that collection",
    "list COLLECTION NAME…",
    "\tshows details of one item"],
  ofWords ["del"] "del COLLECTION NAME…: remove a live object" .delete]

end Verb

namespace Feature

/-- The verbs of event handlers. -/
def handlerVerbs : List Verb := [
  ((Verb.ofWords ["on"] "on WORD…: run a block when an event arrives" .handle).explained [
    "on WORD…:",
    "\truns the block whenever an event with these words is triggered",
    "\t*NAME matches any word and makes it available as $NAME",
    "\t* matches any word, available as $1, $2, …"]).withStatements.withInner "on" true [
      (Verb.ofWords ["prio"] "prio N: run before handlers with a higher number"
        (.attribute .priority)).atOnce,
      (Verb.ofWords ["name"] "name WORD…: name the handler, for 'del on'"
        (.attribute .name)).atOnce,
      (Verb.ofWords ["doc"] "doc TEXT: describe the handler" (.attribute .doc)).atOnce],
  Verb.ofWords ["next", "handler"] "next handler: let the next handler take the event"
    (.pass .decline),
  Verb.ofWords ["skip", "next"] "skip next: no further handlers for this event" (.pass .halt)]

/-- The verb that opens links. -/
def connectVerb : Verb :=
  ((Verb.ofWords ["net", "connect"] "net connect NAME…: open a TCP link" .connect).explained [
    "net connect NAME…:",
    "\thost NAME",
    "\tport N",
    "\tondemand",
    "\tkeeps a connection open, reconnecting as needed"]).withAttributes.withInner
      "net connect" false [
        (Verb.ofWords ["host"] "host NAME: where to connect to" (.setting .host)).atOnce,
        (Verb.ofWords ["port"] "port N: the TCP port" (.setting .port)).atOnce,
        (Verb.ofWords ["ondemand"]
          "ondemand [yes|no]: only connect when there is something to send"
          (.setting .ondemand)).atOnce]

/-- The verb that waits. -/
def waitVerb : Verb :=
  ((Verb.ofWords ["wait"] "wait [NAME…]: delay processing" .wait).explained [
    "wait [NAME…]:",
    "\tfor TIME…",
    "\tdelays the enclosing statements; 'del wait NAME…' cancels it"]).withAttributes.withInner
      "wait" false [
        ((Verb.ofWords ["for"] "for TIME…: how long to wait" .span).explained [
          "for TIME…",
          "\tTIME is a sum of numbers with an optional unit (s, m, h, d, w)",
          "\te.g. 'for 90', 'for 1 m 30 s', 'for 2h - 10 min'"]).atOnce]

/-- What a module registers, in order. A module that stands in for a real one registers its word by
itself. -/
def provides : Feature → List Provision
  | .bool => [.condition (.constant true), .condition (.constant false)]
  | .ifElse => [
      .verb ((Verb.ofWords ["if"] "if [not] CONDITION…: run a block conditionally"
        .ifThen).explained [
          "if [not] CONDITION…:",
          "\truns the block if the condition holds",
          "\tfollow it with 'else if …:' or 'else:' in the same block"]).withStatements,
      .verb (Verb.ofWords ["else", "if"] "else if [not] CONDITION…: alternative branch"
        .elseIf).atOnce.withStatements,
      .verb (Verb.ofWords ["else"] "else: run if the preceding 'if' did not"
        .otherwise).atOnce.withStatements]
  | .block => [
      .verb (Verb.ofWords ["block"] "block: run statements in their own scope"
        .group).alone.withStatements,
      .verb ((Verb.ofWords ["async"] "async: run statements in the background"
        .background).explained [
          "async:",
          "\tstarts the block on its own task and continues at once",
          "\terrors in the block are logged, not returned"]).alone.withStatements]
  | .events => [
      .verb ((Verb.ofWords ["trigger"] "trigger WORD…: dispatch an event" .trigger).explained [
        "trigger WORD…",
        "\tdispatches the event WORD… and waits until all handlers are done",
        "\t$name words are replaced by the variable's value"])]
  | .handlers =>
    handlerVerbs.map .verb ++ [.condition .handlerExists, .collection .handlers]
  | .state => [
      .verb ((Verb.ofWords ["set", "state"] "set state VALUE NAME…" .setState).explained [
        "set state VALUE NAME…",
        "\tsets the named state to VALUE",
        "\ttriggers 'state change NAME…' with $old and $new if the value changed",
        "\tfails if a handler of that event tries to change the state again"]),
      .verb (Verb.ofWords ["var", "state"] "var state VAR NAME…" .readState),
      .condition .stateIs, .condition .stateExists, .condition .stateLocked,
      .collection .states]
  | .wait => [.verb waitVerb, .condition .waitExists, .collection .waits]
  | .logging => [
      .verb ((Verb.ofWords ["log"] "log LEVEL WORD…: write a log line" .log).explained [
        "log LEVEL WORD…",
        "\tLEVEL is one of trace, debug, info, warn, error, panic"])]
  | .help => [
      .verb ((Verb.ofWords ["help"] "help [WORD…]: show what a statement does" .help).explained [
        "help",
        "\tlists the statements known at top level",
        "help WORD…",
        "\tshows the documentation of that statement and the words its block understands"])]
  | .net => [
      .verb connectVerb,
      .verb (Verb.ofWords ["net", "send"] "net send NAME… TEXT: send a line" .send),
      .condition .linkExists, .condition .linkConnected, .collection .links]
  | .probe _ => []

end Feature

namespace Module

/-- A module with a name of one word. -/
def ofWord (word info : String) (feature : Feature) : Module := ⟨[.text word], info, feature⟩

/-- The modules that every house knows. -/
def builtIn : List Module := [
  ofWord "bool" "conditions that are constantly true or false" .bool,
  ofWord "ifelse" "conditional execution" .ifElse,
  ofWord "block" "groups of statements, run in place or in the background" .block,
  ofWord "events" "sends events" .events,
  ofWord "on_event" "event handlers" .handlers,
  ofWord "state" "named states, kept in the state store" .state,
  ofWord "wait" "delays" .wait,
  ofWord "logging" "writes to the log" .logging,
  ofWord "help" "documentation for statements" .help,
  ofWord "net" "line-oriented TCP links" .net]

end Module

end Hearth
