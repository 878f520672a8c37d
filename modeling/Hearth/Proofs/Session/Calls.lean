import Hearth.Proofs.Session.Stacks

/-!
# The calls of a session

To take an action a session makes calls: words are looked up, a statement is built and checked, a
block is started or ended, and a statement that is complete is applied or added to the one around
it. Each call is answered by the house, and the first one that fails is the last. Running a
statement is a call as well, which anything may come of.

## Main definitions

* `Request`, `Request.Answered` : what a call asks for, and its answers.
* `Calls`, `Calls.Performs` : calls that follow each other, and what comes of them.
* `Session.calls` : the calls of an action.

## Main results

* `Calls.performs_bind` : calls in two parts are made part by part.
* `Session.calls_does` : a session that takes an action makes its calls.
-/

namespace Hearth

/-- What interpreting asks for; `around` is the statement of the innermost open block. -/
inductive Request where
  /-- The verb that words start with, among those that can be used there. -/
  | find (around : Option Statement) (words : Name)
  | event (words : Name) (scope : ScopeId)
  | build (phrase : Phrase)
  /-- Does the statement take a block? -/
  | checkBlock (statement : Statement)
  /-- Can the statement stand there? -/
  | checkPlace (around : Option Statement) (statement : Statement)
  | startBlock (statement : Statement)
  | endBlock (statement : Statement)
  | apply (parent child : Statement)
  | add (parent child : Statement)
  | run (statement : Statement)
  deriving Inhabited

namespace Request

/-- What a call is answered with. -/
abbrev Answer : Request → Type
  | .find .. => Verb
  | .event .. => Event
  | .build _ | .apply .. | .add .. => Statement
  | .checkBlock _ | .checkPlace .. | .startBlock _ | .endBlock _ => Unit
  | .run _ => Flow

/-- The words that can be used: at the top those that are there for everybody at the top, and inside
a block the private ones of its verb, or else the common ones. -/
def wordsAround (h : House) : Option Statement → Vocabulary Verb
  | none => h.topWords
  | some parent => h.wordsInside parent.verb

/-- Refuses immediate statements at the top, and others where only attributes can stand. -/
def testPlace : Option Statement → Verb → Except ScriptError Unit
  | none, v => if v.immediate then .error (.topLevel v.name) else .ok ()
  | some parent, v =>
    if parent.verb.block == .attributes && !v.immediate then
      .error (parent.phrase.misfit (.notAnAttribute v.name))
    else .ok ()

/-- Looks words up. -/
def look (around : Option Statement) (words : Name) : Act Verb := do
  let known := wordsAround (← get) around
  match Vocabulary.find? Verb.accepts known words with
  | none => throw (.unknownWord words (Vocabulary.scope known))
  | some verb => pure verb

/-- Refuses a statement that takes no block. -/
def testBlock (statement : Statement) : Except ScriptError Unit :=
  if statement.verb.block == .none then .error (statement.phrase.misfit .takesNoBlock) else .ok ()

/-- What a house does for a call. Running a statement is not its business alone. -/
def deed? : (c : Request) → Option (Act c.Answer)
  | .find around words => some (look around words)
  | .event words scope => some (Act.makeEvent words scope)
  | .build phrase => some (Act.build phrase)
  | .checkBlock statement => some (Act.ofExcept (testBlock statement))
  | .checkPlace around statement => some (Act.ofExcept (testPlace around statement.verb))
  | .startBlock statement => some (Act.ofExcept statement.startBlock)
  | .endBlock statement => some (Act.ofExcept statement.endBlock)
  | .apply parent child => some (Act.applyTo parent child)
  | .add parent child => some (Act.ofExcept (parent.add child))
  | .run _ => none

/-- The answer to a call, and the house after it: what the house does for it, and anything if it is
the run of a statement. -/
def Answered (c : Request) (h : House) (answer : Except ScriptError c.Answer) (h' : House) : Prop :=
  ∀ deed ∈ c.deed?, deed.runOn h = (answer, h')

end Request

/-- A call that was made, with its answer. -/
structure Made where
  call : Request
  before : House
  answer : Except ScriptError call.Answer
  after : House

/-- Calls that follow each other: each call, and what follows it for each of its answers. -/
inductive Calls (α : Type) where
  | pure (a : α)
  | fail (e : ScriptError)
  | call (c : Request) (next : c.Answer → Calls α)

/-- One call. -/
def Request.ask (c : Request) : Calls c.Answer := .call c .pure

namespace Calls

variable {α β : Type}

/-- Calls in two parts. -/
def bind (p : Calls α) (k : α → Calls β) : Calls β :=
  match p with
  | .pure a => k a
  | .fail e => .fail e
  | .call c next => .call c fun x => (next x).bind k

instance : Monad Calls where
  pure := .pure
  bind := bind

theorem bind_pure (p : Calls α) : p.bind .pure = p := by
  induction p with
  | pure | fail => rfl
  | call c next ih => exact congrArg _ (funext ih)

theorem bind_assoc {γ : Type} (p : Calls α) (k : α → Calls β) (l : β → Calls γ) :
    (p.bind k).bind l = p.bind fun x => (k x).bind l := by
  induction p with
  | pure | fail => rfl
  | call c next ih => exact congrArg _ (funext ih)

instance : LawfulMonad Calls :=
  LawfulMonad.mk' Calls (fun p => bind_pure p) (fun _ _ => rfl) fun p k l => bind_assoc p k l

/-- What comes of calls: which ones are made and how they are answered, up to the first one that
fails, what they end with, and the house then. -/
inductive Performs : Calls α → House → List Made → Except ScriptError α → House → Prop
  | pure (a : α) (h : House) : Performs (.pure a) h [] (.ok a) h
  | fail (e : ScriptError) (h : House) : Performs (.fail e) h [] (.error e) h
  | answered {c : Request} {next : c.Answer → Calls α} {x : c.Answer} {h h₁ h' : House}
    {log : List Made} {r : Except ScriptError α} (hc : c.Answered h (.ok x) h₁)
    (hrest : Performs (next x) h₁ log r h') :
    Performs (.call c next) h (⟨c, h, .ok x, h₁⟩ :: log) r h'
  | failed {c : Request} {next : c.Answer → Calls α} {e : ScriptError} {h h₁ : House}
    (hc : c.Answered h (.error e) h₁) :
    Performs (.call c next) h [⟨c, h, .error e, h₁⟩] (.error e) h₁

/-- Calls in two parts are made part by part. -/
theorem performs_bind {p : Calls α} {k : α → Calls β} {h h' : House} {log : List Made}
    {r : Except ScriptError β} :
    (p >>= k).Performs h log r h' ↔
      (∃ x h₁ log₁ log₂, p.Performs h log₁ (.ok x) h₁ ∧ (k x).Performs h₁ log₂ r h' ∧
        log = log₁ ++ log₂) ∨
      ∃ e, p.Performs h log (.error e) h' ∧ r = .error e := by
  constructor
  · intro hp
    induction p generalizing h log with
    | pure a => exact .inl ⟨a, h, [], log, .pure a h, hp, rfl⟩
    | fail e =>
      cases hp
      exact .inr ⟨e, .fail e _, rfl⟩
    | call c next ih =>
      cases hp with
      | failed hc => exact .inr ⟨_, .failed hc, rfl⟩
      | answered hc hrest =>
        rcases ih _ hrest with ⟨x, h₁, log₁, log₂, hnext, hk, rfl⟩ | ⟨e, hnext, rfl⟩
        · exact .inl ⟨x, h₁, _, log₂, .answered hc hnext, hk, rfl⟩
        · exact .inr ⟨e, .answered hc hnext, rfl⟩
  · rintro (⟨x, h₁, log₁, log₂, hp, hk, rfl⟩ | ⟨e, hp, rfl⟩)
    · induction p generalizing h log₁ with
      | pure a =>
        cases hp
        exact hk
      | fail e => cases hp
      | call c next ih =>
        cases hp with
        | answered hc hrest => exact .answered hc (ih _ _ hrest)
    · induction p generalizing h log with
      | pure a => cases hp
      | fail e =>
        cases hp
        exact .fail e _
      | call c next ih =>
        cases hp with
        | failed hc => exact .failed hc
        | answered hc hrest => exact .answered hc (ih _ hrest)

/-- Calls in two parts end well if both do. -/
theorem performs_bind_ok {p : Calls α} {k : α → Calls β} {h h' : House} {log : List Made} {y : β} :
    (p >>= k).Performs h log (.ok y) h' ↔
      ∃ x h₁ log₁ log₂, p.Performs h log₁ (.ok x) h₁ ∧ (k x).Performs h₁ log₂ (.ok y) h' ∧
        log = log₁ ++ log₂ := by
  rw [performs_bind]
  exact or_iff_left fun ⟨_, _, h⟩ => nomatch h

/-- A call is made once. -/
theorem performs_ask {c : Request} {h h' : House} {log : List Made}
    {r : Except ScriptError c.Answer} :
    c.ask.Performs h log r h' ↔ c.Answered h r h' ∧ log = [⟨c, h, r, h'⟩] := by
  constructor
  · intro hp
    cases hp with
    | failed hc => exact ⟨hc, rfl⟩
    | answered hc hrest =>
      cases hrest
      exact ⟨hc, rfl⟩
  · rintro ⟨hc, rfl⟩
    cases r with
    | ok x => exact .answered hc (.pure x h')
    | error e => exact .failed hc

/-- All calls that can be made are of a kind. -/
def Only (kind : Request → Prop) : Calls α → Prop
  | .pure _ => True
  | .fail _ => True
  | .call c next => kind c ∧ ∀ x, (next x).Only kind

namespace Only

variable {kind : Request → Prop}

theorem ask {c : Request} (hc : kind c) : c.ask.Only kind := ⟨hc, fun _ => trivial⟩

theorem bind {p : Calls α} {k : α → Calls β} (hp : p.Only kind) (hk : ∀ x, (k x).Only kind) :
    (p >>= k).Only kind := by
  induction p with
  | pure a => exact hk a
  | fail e => trivial
  | call c next ih => exact ⟨hp.1, fun x => ih x (hp.2 x)⟩

theorem mono {kind' : Request → Prop} {p : Calls α} (hp : p.Only kind)
    (h : ∀ c, kind c → kind' c) : p.Only kind' := by
  induction p with
  | pure | fail => trivial
  | call c next ih => exact ⟨h c hp.1, fun x => ih x (hp.2 x)⟩

/-- So are those that are made. -/
theorem log {p : Calls α} (hp : p.Only kind) {h h' : House} {log : List Made}
    {r : Except ScriptError α} (hperf : p.Performs h log r h') : ∀ m ∈ log, kind m.call := by
  induction hperf with
  | pure | fail => simp
  | answered hc hrest ih => exact List.forall_mem_cons.mpr ⟨hp.1, ih (hp.2 _)⟩
  | failed hc => exact List.forall_mem_singleton.mpr hp.1

end Only

/-- Work on a house that makes calls, and ends as they do. -/
def Does (p : Calls α) (a : Act α) : Prop :=
  ∀ h r h', a.runOn h = (r, h') ↔ ∃ log, p.Performs h log r h'

namespace Does

theorem pure (x : α) : Does (.pure x) (Pure.pure x) := by
  intro h r h'
  constructor
  · rintro ⟨⟩
    exact ⟨[], .pure x h⟩
  · rintro ⟨log, ⟨⟩⟩
    rfl

theorem fail (e : ScriptError) : Does (Calls.fail e : Calls α) (throw e) := by
  intro h r h'
  constructor
  · rintro ⟨⟩
    exact ⟨[], .fail e h⟩
  · rintro ⟨log, ⟨⟩⟩
    rfl

/-- One call is answered by what the house does for it. -/
theorem ask {c : Request} {deed : Act c.Answer} (hdeed : c.deed? = some deed) :
    Does (c.ask) deed := by
  intro h r h'
  have hanswered : c.Answered h r h' ↔ deed.runOn h = (r, h') := by
    rw [Request.Answered, hdeed]
    exact ⟨fun hall => hall deed rfl, fun heq _ hmem => Option.some.inj hmem ▸ heq⟩
  simp only [performs_ask, hanswered, exists_eq_right]

theorem bind {p : Calls α} {a : Act α} {k : α → Calls β} {b : α → Act β} (h : p.Does a)
    (hk : ∀ x, (k x).Does (b x)) : (p >>= k).Does (a >>= b) := by
  intro h₀ r h'
  simp only [performs_bind, Act.runOn_bind]
  rcases hrun : a.runOn h₀ with ⟨e | x, h₁⟩
  · constructor
    · rintro ⟨⟩
      obtain ⟨log, hp⟩ := (h _ _ _).mp hrun
      exact ⟨log, .inr ⟨e, hp, rfl⟩⟩
    · rintro ⟨log, ⟨x, h₂, log₁, log₂, hp, -, -⟩ | ⟨e', hp, rfl⟩⟩
      · cases hrun.symm.trans ((h _ _ _).mpr ⟨_, hp⟩)
      · cases hrun.symm.trans ((h _ _ _).mpr ⟨_, hp⟩)
        rfl
  · constructor
    · intro hb
      obtain ⟨log₁, hp⟩ := (h _ _ _).mp hrun
      obtain ⟨log₂, hq⟩ := (hk x _ _ _).mp hb
      exact ⟨log₁ ++ log₂, .inl ⟨x, h₁, log₁, log₂, hp, hq, rfl⟩⟩
    · rintro ⟨log, ⟨y, h₂, log₁, log₂, hp, hq, -⟩ | ⟨e, hp, rfl⟩⟩
      · cases hrun.symm.trans ((h _ _ _).mpr ⟨_, hp⟩)
        exact (hk x _ _ _).mpr ⟨_, hq⟩
      · cases hrun.symm.trans ((h _ _ _).mpr ⟨_, hp⟩)

end Does

end Calls

/-! ### The calls of an action -/

/-- The statement that words start. -/
def beginStatement (scope : ScopeId) (around : Option Statement) (words : Name) (line : Nat) :
    Calls Statement := do
  let verb ← Request.ask (.find around words)
  let event ← Request.ask (.event words scope)
  Request.ask (.build ⟨verb, event, line⟩)

/-- Hands a statement that is complete to the one around it. -/
def handTo (parent child : Statement) : Calls Statement :=
  if child.verb.immediate then Request.ask (.apply parent child)
  else Request.ask (.add parent child)

namespace Session

/-- The calls for a statement that is complete. -/
def completeCalls (s : Session) (statement : Statement) : Calls (Session × Option Statement) :=
  match s.blocks with
  | [] => pure (s, some statement)
  | parent :: rest => do
    let parent ← handTo parent statement
    pure ({ s with blocks := parent :: rest }, none)

/-- The calls of an action. -/
def calls (s : Session) : Script.Action → Calls (Session × Option Statement)
  | .simple words line => do
    let statement ← beginStatement s.scope s.blocks.head? words line
    Request.ask (.checkPlace s.blocks.head? statement)
    s.completeCalls statement
  | .opened words line => do
    let statement ← beginStatement s.scope s.blocks.head? words line
    Request.ask (.checkBlock statement)
    Request.ask (.checkPlace s.blocks.head? statement)
    Request.ask (.startBlock statement)
    pure ({ s with blocks := statement :: s.blocks }, none)
  | .closed line =>
    match s.blocks with
    | [] => .fail (.malformed line .closeWithoutBlock)
    | statement :: blocks => do
      Request.ask (.endBlock statement)
      { s with blocks }.completeCalls statement

variable (s : Session)

theorem beginStatement_does (words : Name) (line : Nat) :
    (beginStatement s.scope s.blocks.head? words line).Does (s.build words line) := by
  have hwords (h : House) : s.words h = Request.wordsAround h s.blocks.head? := by
    rw [Session.words]
    cases s.blocks <;> rfl
  have hsplit : s.build words line = (do
      let verb ← Request.look s.blocks.head? words
      let event ← Act.makeEvent words s.scope
      Act.build ⟨verb, event, line⟩) := by
    funext h
    change Act.runOn (do
      let known := s.words (← get)
      match Vocabulary.find? Verb.accepts known words with
      | none => throw (.unknownWord words (Vocabulary.scope known))
      | some verb => do
        let event ← Act.makeEvent words s.scope
        Act.build ⟨verb, event, line⟩) h = Act.runOn _ h
    have hget : (get : Act House).runOn h = (.ok h, h) := rfl
    simp only [Request.look, Act.runOn_bind, hget, hwords]
    cases Vocabulary.find? Verb.accepts (Request.wordsAround h s.blocks.head?) words with
    | none => rfl
    | some verb => exact Act.runOn_bind ..
  rw [hsplit]
  exact .bind (.ask rfl) fun verb => .bind (.ask rfl) fun event => .ask rfl

theorem checkPlace_does (statement : Statement) :
    (Request.ask (.checkPlace s.blocks.head? statement)).Does
      (Act.ofExcept (s.checkPlace statement.verb)) := by
  have htest : s.checkPlace statement.verb = Request.testPlace s.blocks.head? statement.verb := by
    rw [checkPlace]
    cases s.blocks <;> rfl
  rw [htest]
  exact .ask rfl

theorem completeCalls_does (statement : Statement) :
    (s.completeCalls statement).Does (s.complete statement) := by
  rw [completeCalls, complete]
  cases s.blocks with
  | nil => exact .pure _
  | cons parent rest =>
    by_cases himmediate : statement.verb.immediate
    · simp only [handTo, himmediate, if_true]
      exact .bind (.ask rfl) fun parent => .pure _
    · simp only [handTo, himmediate, if_false, Bool.false_eq_true]
      exact .bind (.ask rfl) fun parent => .pure _

/-- A session that takes an action makes its calls. -/
theorem calls_does (action : Script.Action) : (s.calls action).Does (s.act action) := by
  cases action with
  | simple words line =>
    refine .bind (s.beginStatement_does words line) fun statement => ?_
    exact .bind (s.checkPlace_does statement) fun _ => s.completeCalls_does statement
  | opened words line =>
    refine .bind (s.beginStatement_does words line) fun statement => ?_
    have hcheck (rest : Act (Session × Option Statement)) :
        (if statement.verb.block == .none then do
          throw (statement.phrase.misfit .takesNoBlock)
          rest
        else rest) = Act.ofExcept (Request.testBlock statement) >>= fun _ => rest := by
      rw [Request.testBlock]
      split <;> rfl
    dsimp only
    rw [hcheck]
    exact .bind (.ask rfl) fun _ => .bind (s.checkPlace_does statement) fun _ =>
      .bind (.ask rfl) fun _ => .pure _
  | closed line =>
    rw [calls, act]
    cases s.blocks with
    | nil => exact .fail _
    | cons statement blocks =>
      exact .bind (.ask rfl) fun _ => completeCalls_does { s with blocks } statement

end Session

end Hearth
