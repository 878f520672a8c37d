import Hearth.House.Build
import Hearth.Script.Outline

/-!
# Sessions

A session interprets the text of a script line by line. A line becomes marks, marks become actions,
and actions build statements. Each open block is a statement on a stack, the innermost first; when a
block ends, its statement is applied to the one around it, added to it, or, outside all blocks, run.

Running a statement is not the business of the session: it hands the statement out and goes on when
it is told how the run ended.
-/

namespace Hearth

/-- What an error does to a session. -/
inductive Mode where
  /-- The first error ends the script. -/
  | script
  /-- An error drops the statement begun and all open blocks. -/
  | interactive
  deriving Repr, DecidableEq, Inhabited

/-- The state of a session. -/
structure Session where
  mode : Mode
  scope : ScopeId
  layout : Script.Layout
  outline : Script.Outline
  /-- The statements whose blocks are open, innermost first. -/
  blocks : List Statement
  /-- The actions that are still to be taken. -/
  actions : List Script.Action
  /-- The marks of the line that are still to be read. -/
  marks : List Script.Mark
  deriving Inhabited

/-- Where a session is. -/
inductive Progress where
  /-- Everything that was given to it is interpreted. -/
  | ready
  /-- A statement outside all blocks is to be run now. -/
  | run (statement : Statement)
  | failed (error : ScriptError)
  deriving Inhabited

namespace Session

/-- A session that was given nothing. -/
def start (mode : Mode) (scope : ScopeId) : Session :=
  ⟨mode, scope, .start, .start, [], [], []⟩

/-- The number of open blocks. -/
def depth (s : Session) : Nat := s.blocks.length

/-- Drops everything that was begun; the count of lines goes on. -/
def reset (s : Session) : Session :=
  { s with
    layout := s.layout.reset, outline := s.outline.reset, blocks := [], actions := [], marks := [] }

/-- The words that can be used now. -/
def words (h : House) (s : Session) : Vocabulary Verb :=
  match s.blocks with
  | [] => h.topWords
  | parent :: _ => h.wordsInside parent.verb

/-- The statement that words start. -/
def build (s : Session) (words : Name) (line : Nat) : Act Statement := do
  let known := s.words (← get)
  match Vocabulary.find? Verb.accepts known words with
  | none => throw (.unknownWord words (Vocabulary.scope known))
  | some verb =>
    let event ← Act.makeEvent words s.scope
    Act.build ⟨verb, event, line⟩

/-- Refuses verbs that cannot stand where they are: immediate ones outside all blocks, and others
where only attributes can stand. -/
def checkPlace (s : Session) (v : Verb) : Except ScriptError Unit :=
  match s.blocks with
  | [] => if v.immediate then .error (.topLevel v.name) else .ok ()
  | parent :: _ =>
    if parent.verb.block == .attributes && !v.immediate then
      .error (parent.phrase.misfit (.notAnAttribute v.name))
    else .ok ()

/-- A statement is complete: it is applied or added to the one around it, or is to be run. -/
def complete (s : Session) (statement : Statement) : Act (Session × Option Statement) := do
  match s.blocks with
  | [] => pure (s, some statement)
  | parent :: rest =>
    if statement.verb.immediate then
      let parent ← Act.applyTo parent statement
      pure ({ s with blocks := parent :: rest }, none)
    else
      let parent ← Act.ofExcept (parent.add statement)
      pure ({ s with blocks := parent :: rest }, none)

/-- Takes one action. Gives the statement to be run, if the action completes one outside all
blocks. -/
def act (s : Session) : Script.Action → Act (Session × Option Statement)
  | .simple words line => do
    let statement ← s.build words line
    Act.ofExcept (s.checkPlace statement.verb)
    s.complete statement
  | .opened words line => do
    let statement ← s.build words line
    if statement.verb.block == .none then throw (statement.phrase.misfit .takesNoBlock)
    Act.ofExcept (s.checkPlace statement.verb)
    Act.ofExcept statement.startBlock
    pure ({ s with blocks := statement :: s.blocks }, none)
  | .closed line =>
    match s.blocks with
    | [] => throw (.malformed line .closeWithoutBlock)
    | statement :: blocks => do
      Act.ofExcept statement.endBlock
      { s with blocks }.complete statement

/-- Ends with an error, which gets the number of the last line if it has none. An interactive
session is ready for the next line then. -/
def fail (s : Session) (e : ScriptError) : Session × Progress :=
  let e := e.atLineOnce s.layout.line
  match s.mode with
  | .script => (s, .failed e)
  | .interactive => (s.reset, .failed e)

/-- The session after an action that failed: the statement of a block that was to end is gone, and
so is the rest of the line. -/
def afterFailed (s : Session) (action : Script.Action) : Session :=
  let blocks :=
    match action with
    | .closed _ => s.blocks.tail
    | _ => s.blocks
  { s with blocks, actions := [], marks := [] }

/-- Interprets what was given to the session until a statement is to be run; `rounds` bounds the
number of marks and actions. -/
def advance (h : House) (s : Session) : Nat → House × Session × Progress
  | 0 => (h, s, .ready)
  | rounds + 1 =>
    match s.actions, s.marks with
    | action :: actions, _ =>
      match (act { s with actions } action).runOn h with
      | (.ok (s, some statement), h) => (h, s, .run statement)
      | (.ok (s, none), h) => advance h s rounds
      | (.error e, h) => (h, (s.afterFailed action).fail e)
    | [], mark :: marks =>
      match s.outline.feed mark with
      | (outline, .ok actions) => advance h { s with outline, marks, actions } rounds
      | (outline, .error fault) =>
        (h, { s with outline, marks := [] }.fail (.malformed mark.line fault))
    | [], [] => (h, s, .ready)

/-- A bound on the rounds that interpreting takes: a mark completes at most two actions. -/
def rounds (s : Session) : Nat := 3 * s.marks.length + s.actions.length + 1

/-- Goes on with what was given to the session. -/
def resume (h : House) (s : Session) : House × Session × Progress := s.advance h s.rounds

/-- Takes a line. -/
def feed (h : House) (s : Session) (text : String) : House × Session × Progress :=
  match s.layout.feed text with
  | (layout, .ok marks) => { s with layout, marks }.resume h
  | (layout, .error fault) => (h, { s with layout }.fail (.malformed layout.line fault))

/-- Ends the text: closes all open blocks. -/
def finish (h : House) (s : Session) : House × Session × Progress :=
  let (layout, marks) := s.layout.close
  { s with layout, marks }.resume h

/-- Goes on after the run of a statement. -/
def afterRun (h : House) (s : Session) (statement : Statement) :
    Except ScriptError Flow → House × Session × Progress
  | .ok _ => s.resume h
  | .error e => (h, { s with actions := [], marks := [] }.fail (e.atLineOnce statement.phrase.line))

end Session

end Hearth
