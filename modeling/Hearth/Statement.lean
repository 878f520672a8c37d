import Hearth.Bands
import Hearth.Event
import Hearth.Failure
import Hearth.Flow
import Hearth.Vocabulary

/-!
# Statements

A verb is an entry of a vocabulary: the name of a statement, its documentation, what its block
holds, and its deed, which says what the statement does. A phrase is one occurrence of a verb in a
script, with all words of its line. A statement is a phrase together with what its block collected.

Statements of a block are added to the statement around it, to be run later. Immediate statements
are applied to it instead: they configure it, or attach a branch to the `if` before them.
-/

namespace Hearth

/-- What the block of a statement holds. -/
inductive BlockKind where
  /-- There is no block. -/
  | none
  /-- Statements to be run later. -/
  | statements
  /-- Statements that configure the one around them. -/
  | attributes
  deriving Repr, DecidableEq, Inhabited

/-- The name of a kind of block. -/
def BlockKind.name : BlockKind → String
  | .none => "None"
  | .statements => "Statements"
  | .attributes => "Attributes"

/-- How many words may follow the name of a verb. -/
inductive Arity where
  | any
  | none
  | atLeast (n : Nat)
  deriving Repr, DecidableEq, Inhabited

/-- Can these words follow? -/
def Arity.admits : Arity → Name → Bool
  | .any, _ => true
  | .none, rest => rest.isEmpty
  | .atLeast n, rest => n ≤ rest.length

/-- What an attribute sets on an event handler. -/
inductive HandlerField where
  | priority
  | name
  | doc
  deriving Repr, DecidableEq, Inhabited

/-- What a setting sets on a network link. -/
inductive LinkField where
  | host
  | port
  | ondemand
  deriving Repr, DecidableEq, Inhabited

/-- What a probe is: a statement that only records that it ran, one that collects a block, or one
that labels the collecting statement around it. -/
inductive ProbeRole where
  | plain
  | collect
  | label
  deriving Repr, DecidableEq, Inhabited

/-- How a probe fails when it runs. -/
inductive ProbeFault where
  | never
  /-- With the usage error of its verb. -/
  | usage
  | with (text : String)
  deriving Repr, DecidableEq, Inhabited

/-- A deed that stands in for a real one: it records its runs and fails as told. The faults while
parsing are usage errors with the given texts. -/
structure ProbeDeed where
  role : ProbeRole
  buildFault : Option String
  startFault : Option String
  endFault : Option String
  fault : ProbeFault
  flow : Flow
  deriving Repr, DecidableEq, Inhabited

/-- What a statement does. -/
inductive Deed where
  /-- Runs the block in a scope of its own. -/
  | group
  /-- Runs the block in the background. -/
  | background
  | trigger
  | ifThen
  | elseIf
  | otherwise
  | load
  | unload
  | list
  | delete
  | help
  | log
  /-- Registers an event handler. -/
  | handle
  | attribute (field : HandlerField)
  /-- Ends a handler with the given flow. -/
  | pass (flow : Flow)
  | setState
  | readState
  | wait
  /-- Says how long the wait around it lasts. -/
  | span
  | connect
  | setting (field : LinkField)
  | send
  | probe (deed : ProbeDeed)
  deriving Repr, DecidableEq, Inhabited

/-- An entry of a vocabulary. -/
structure Verb where
  name : Name
  doc : String
  longDoc : Option String
  /-- Applied to the statement around it while parsing, instead of being run. -/
  immediate : Bool
  block : BlockKind
  arity : Arity
  /-- The words of its block, if they are not those of everybody; and whether the common words
  may be used there as well. -/
  inner : Option (WordTable Verb × Bool)
  deed : Deed
  deriving Inhabited

/-- Does a verb accept the words after its name? -/
def Verb.accepts (v : Verb) (rest : Name) : Bool := v.arity.admits rest

/-- One occurrence of a verb. -/
structure Phrase where
  verb : Verb
  /-- All words of the line, in the scope that the statement was written in. -/
  event : Event
  line : Nat
  deriving Inhabited

namespace Phrase

/-- The words after the verb's name, as they were written. -/
def args (p : Phrase) : Name := p.event.name.drop p.verb.name.length

/-- The error for wrong arguments. -/
def usage (p : Phrase) : ScriptError := .usage p.verb.doc

/-- The error for a statement that stands where it cannot. -/
def misfit (p : Phrase) (reason : Misfit) : ScriptError := .misfit p.verb.name reason

/-- The words and the line of a phrase. -/
def text (p : Phrase) : String :=
  p.event.name.render ++ " (line " ++ toString p.line ++ ")"

end Phrase

/-- One parsed statement. -/
inductive Statement where
  /-- A statement without anything to collect. -/
  | plain (phrase : Phrase)
  /-- A statement that runs its block: `block`, `async` and `else`. -/
  | group (phrase : Phrase) (body : List Statement)
  /-- An `if` or `else if`, with the branch for when its condition does not hold. -/
  | branch (phrase : Phrase) (body : List Statement) (orElse : Option Statement)
  /-- An event handler to be registered. -/
  | handler (phrase : Phrase) (priority : Option Int32) (name : Option Name) (doc : Option String)
    (body : List Statement)
  /-- A wait, with a number of its own. -/
  | wait (phrase : Phrase) (number : Nat) (span : Option Span)
  /-- A network link to be opened. -/
  | connect (phrase : Phrase) (host : String) (port : UInt16) (ondemand : Option Bool)
  /-- A probe that collects its block. -/
  | collect (phrase : Phrase) (labels : List String) (body : List Statement)
  deriving Inhabited

/-- A list of statements to be run in order. -/
abbrev Body := List Statement

namespace Statement

/-- The phrase of a statement. -/
def phrase : Statement → Phrase
  | .plain p => p
  | .group p _ => p
  | .branch p _ _ => p
  | .handler p _ _ _ _ => p
  | .wait p _ _ => p
  | .connect p _ _ _ => p
  | .collect p _ _ => p

/-- The verb of a statement. -/
def verb (s : Statement) : Verb := s.phrase.verb

/-- The lines of one statement among those of a list. -/
def stepLines : List String → List String
  | [] => []
  | first :: rest => ("step: " ++ first) :: rest.map ("      " ++ ·)

mutual

/-- The description of a statement. -/
def report : Statement → List String
  | .plain p => [p.event.name.render]
  | .group p body => p.verb.name.render :: (reportAll body).map ("  " ++ ·)
  | .branch p body orElse =>
    p.event.name.render :: (reportAll body).map ("  " ++ ·) ++ reportBranch orElse
  | .handler p _ _ _ _ => [p.event.name.render]
  | .wait p _ none => [p.event.name.render]
  | .wait p _ (some span) => [p.event.name.render ++ " for " ++ span.text]
  | .connect p _ _ _ => [p.event.name.render]
  | .collect p _ _ => [p.event.name.render]

/-- The description of a branch, if there is one. -/
def reportBranch : Option Statement → List String
  | none => []
  | some s => report s

/-- The description of a list of statements. -/
def reportAll : List Statement → List String
  | [] => []
  | s :: rest => stepLines (report s) ++ reportAll rest

end

/-- Puts a statement into the block of another one; not every block takes statements. -/
def add (parent child : Statement) : Except ScriptError Statement :=
  match parent with
  | .group p body => .ok (.group p (body ++ [child]))
  | .branch p body orElse => .ok (.branch p (body ++ [child]) orElse)
  | .handler p priority name doc body => .ok (.handler p priority name doc (body ++ [child]))
  | .collect p labels body => .ok (.collect p labels (body ++ [child]))
  | parent => .error (parent.phrase.misfit (.notAllowedHere child.verb.name))

/-- Hangs a branch onto the end of the chain of an `if`; a chain that ends with `else` takes no
more. -/
def chain (branch : Statement) : Statement → Except ScriptError Statement
  | .branch p body none => .ok (.branch p body (some branch))
  | .branch p body (some next) =>
    match next with
    | .branch .. => do .ok (.branch p body (some (← chain branch next)))
    | _ => .error (branch.phrase.misfit .elseTaken)
  | _ => .error (branch.phrase.misfit .notAfterIf)

/-- Hangs a branch onto the last statement of a list, which has to be an `if`. -/
def chainLast (branch : Statement) : List Statement → Except ScriptError (List Statement)
  | [] => .error (branch.phrase.misfit .notAfterIf)
  | [s] => do .ok [← chain branch s]
  | s :: rest => do .ok (s :: (← chainLast branch rest))

/-- Attaches a branch to the `if` just before it in the same block. -/
def attach (parent branch : Statement) : Except ScriptError Statement :=
  match parent with
  | .group p body => do .ok (.group p (← chainLast branch body))
  | .branch p body orElse => do .ok (.branch p (← chainLast branch body) orElse)
  | .handler p priority name doc body => do
    .ok (.handler p priority name doc (← chainLast branch body))
  | _ => .error (branch.phrase.misfit .notAfterIf)

/-- What happens when the block of a statement starts. -/
def startBlock (s : Statement) : Except ScriptError Unit :=
  match s with
  | .collect p _ _ =>
    match p.verb.deed with
    | .probe ⟨_, _, some text, _, _, _⟩ => .error (.usage text)
    | _ => .ok ()
  | _ => .ok ()

/-- What happens when the block of a statement ends; an `if` needs something to do. -/
def endBlock (s : Statement) : Except ScriptError Unit :=
  match s with
  | .branch p [] _ => .error (p.misfit .emptyBlock)
  | .collect p _ _ =>
    match p.verb.deed with
    | .probe ⟨_, _, _, some text, _, _⟩ => .error (.usage text)
    | _ => .ok ()
  | _ => .ok ()

end Statement

end Hearth
