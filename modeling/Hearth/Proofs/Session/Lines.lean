import Hearth.Session

/-!
# The numbers of lines

Statements and errors carry the number of the line that they come from, and a session counts the
lines that it gets. What it does with a line depends on no such number: without them, it does the
same. Nor does it depend on all of a house. A session looks at the words, the scopes, the bands and
the clock of a house, and changes nothing but the clock and the two counts that events and waits get
their numbers from.

So if the same is said to two sessions that differ in the numbers of lines only, in houses that look
alike to them, they do the same, and change the same in their houses. This is shown for each piece
of work by composition: `Act.Echoes` says it of a piece of work and of the same work on what it was
given without lines.

## Main definitions

* `ScriptError.unlined`, `Statement.unlined` : an error and a statement with all lines zero.
* `House.Alike` : two houses that a session cannot tell apart.
* `House.SameChange` : two houses change in the same way.
* `Act.Echoes` : work on two houses that are alike ends alike, up to lines, and changes the same.

## Main results

* `Act.Echoes.bind` : the composition of work.
* `Session.echoes_act` : an action is taken whatever its line is.
-/

namespace Hearth

/-! ### Errors and statements without lines -/

mutual

/-- An error of a script without the numbers of lines. -/
def ScriptError.unlined : ScriptError → ScriptError
  | .malformed _ fault => .malformed 0 fault
  | .moduleFailed name cause => .moduleFailed name cause.unlined
  | .work error => .work error.unlined
  | .atLine _ source => .atLine 0 source.unlined
  | e => e

/-- An error of a worker without the numbers of lines. -/
def WorkError.unlined : WorkError → WorkError
  | .nested failure => .nested failure.unlined
  | .script error => .script error.unlined
  | e => e

/-- A failure without the numbers of lines. -/
def Failure.unlined : Failure → Failure
  | .mk error within handled => .mk error.unlined within handled

end

/-- The line that an error gets is all that is different. -/
theorem ScriptError.unlined_atLineOnce (line : Nat) (e : ScriptError) :
    (e.atLineOnce line).unlined = e.unlined.atLineOnce 0 := by
  cases e <;> rfl

/-- A fault in the text has its line already. -/
theorem ScriptError.eq_of_atLineOnce {line n : Nat} {e : ScriptError} {fault : Script.Fault}
    (h : e.atLineOnce line = .malformed n fault) : e = .malformed n fault := by
  cases e with
  | malformed => exact h
  | _ => cases h

/-- A phrase without its line. -/
def Phrase.unlined (p : Phrase) : Phrase := { p with line := 0 }

namespace Statement

mutual

/-- A statement without the numbers of lines. -/
def unlined : Statement → Statement
  | .plain p => .plain p.unlined
  | .group p body => .group p.unlined (unlinedAll body)
  | .branch p body orElse => .branch p.unlined (unlinedAll body) (unlinedBranch orElse)
  | .handler p priority name doc body => .handler p.unlined priority name doc (unlinedAll body)
  | .wait p number span => .wait p.unlined number span
  | .connect p host port ondemand => .connect p.unlined host port ondemand
  | .collect p labels body => .collect p.unlined labels (unlinedAll body)

/-- A branch without the numbers of lines, if there is one. -/
def unlinedBranch : Option Statement → Option Statement
  | none => none
  | some s => some (unlined s)

/-- A list of statements without the numbers of lines. -/
def unlinedAll : List Statement → List Statement
  | [] => []
  | s :: rest => unlined s :: unlinedAll rest

end

@[simp] theorem unlinedAll_append (body more : List Statement) :
    unlinedAll (body ++ more) = unlinedAll body ++ unlinedAll more := by
  induction body with
  | nil => rfl
  | cons s rest ih => simp only [List.cons_append, unlinedAll, ih]

@[simp] theorem unlined_phrase (s : Statement) : s.unlined.phrase = s.phrase.unlined := by
  cases s <;> rfl

@[simp] theorem unlined_verb (s : Statement) : s.unlined.verb = s.verb := by
  rw [verb, unlined_phrase]
  rfl

end Statement

/-! ### Results without lines -/

/-- The second result is the image of the first one, or its error without lines. The error is that
of a statement, not a fault in the text of a script. -/
inductive Echo {α β : Type} (f : α → β) : Except ScriptError α → Except ScriptError β → Prop
  | ok (x : α) : Echo f (.ok x) (.ok (f x))
  | error {e : ScriptError} (he : ∀ line fault, e ≠ .malformed line fault) :
    Echo f (.error e) (.error e.unlined)

namespace Echo

variable {α β γ δ : Type} {f : α → β} {g : γ → δ}

theorem bind {x : Except ScriptError α} {y : Except ScriptError β} {a : α → Except ScriptError γ}
    {b : β → Except ScriptError δ} (h : Echo f x y) (hab : ∀ x, Echo g (a x) (b (f x))) :
    Echo g (x >>= a) (y >>= b) := by
  cases h with
  | ok x => exact hab x
  | error he => exact .error he

theorem of_error {e : ScriptError} {y : Except ScriptError β} (h : Echo f (.error e) y) :
    ∀ line fault, e ≠ .malformed line fault := by
  cases h with
  | error he => exact he

end Echo

namespace Statement

/-- A statement is added whatever its line is. -/
theorem echo_add (parent child : Statement) :
    Echo unlined (parent.add child) (parent.unlined.add child.unlined) := by
  have hbody (body : List Statement) :
      unlinedAll body ++ [child.unlined] = unlinedAll (body ++ [child]) :=
    (unlinedAll_append body [child]).symm
  cases parent with
  | group p body | branch p body orElse | handler p priority name doc body
  | collect p labels body =>
    simp only [unlined, add, hbody]
    exact .ok _
  | plain p | wait p number span | connect p host port ondemand =>
    simp only [unlined, add, unlined_verb]
    exact .error nofun

/-- A branch is hung onto a chain whatever the lines are. -/
theorem echo_chain (branch : Statement) (s : Statement) :
    Echo unlined (chain branch s) (chain branch.unlined s.unlined) := by
  fun_induction chain branch s with
  | case1 p body =>
    simp only [unlined, unlinedBranch, chain]
    exact .ok _
  | case2 p body q more orElse ih =>
    exact ih.bind fun _ => .ok _
  | case3 p body next hnext =>
    cases next with
    | branch => exact absurd rfl (hnext _ _ _)
    | _ =>
      simp only [unlined, unlinedBranch, chain, unlined_phrase]
      exact .error nofun
  | case4 s hnone hsome =>
    cases s with
    | branch p body orElse =>
      cases orElse with
      | none => exact absurd rfl (hnone _ _)
      | some next => exact absurd rfl (hsome _ _ _)
    | _ =>
      simp only [unlined, chain, unlined_phrase]
      exact .error nofun

/-- A branch is hung onto the last statement of a list whatever the lines are. -/
theorem echo_chainLast (branch : Statement) (body : List Statement) :
    Echo unlinedAll (chainLast branch body) (chainLast branch.unlined (unlinedAll body)) := by
  fun_induction chainLast branch body with
  | case1 =>
    simp only [unlinedAll, chainLast, unlined_phrase]
    exact .error nofun
  | case2 s => exact (echo_chain branch s).bind fun _ => .ok _
  | case3 s rest hrest ih =>
    cases rest with
    | nil => exact absurd rfl hrest
    | cons t rest => exact ih.bind fun _ => .ok _

/-- A branch is attached whatever the lines are. -/
theorem echo_attach (parent branch : Statement) :
    Echo unlined (parent.attach branch) (parent.unlined.attach branch.unlined) := by
  cases parent with
  | group p body =>
    exact (echo_chainLast branch body).bind fun _ => .ok _
  | branch p body orElse =>
    exact (echo_chainLast branch body).bind fun _ => .ok _
  | handler p priority name doc body =>
    exact (echo_chainLast branch body).bind fun _ => .ok _
  | _ =>
    simp only [unlined, attach, unlined_phrase]
    exact .error nofun

/-- The block of a statement starts whatever the lines are. -/
theorem echo_startBlock (s : Statement) : Echo id s.startBlock s.unlined.startBlock := by
  cases s with
  | collect p labels body =>
    change Echo id (startBlock (.collect p labels body)) (startBlock (.collect p labels body))
    rw [startBlock]
    split
    · exact .error nofun
    · exact .ok ()
  | _ => exact .ok ()

/-- The block of a statement ends whatever the lines are. -/
theorem echo_endBlock (s : Statement) : Echo id s.endBlock s.unlined.endBlock := by
  cases s with
  | branch p body orElse =>
    cases body with
    | nil => exact .error nofun
    | cons => exact .ok ()
  | collect p labels body =>
    change Echo id (endBlock (.collect p labels body)) (endBlock (.collect p labels body))
    rw [endBlock]
    split
    · exact .error nofun
    · exact .ok ()
  | _ => exact .ok ()

end Statement

/-! ### Houses that look alike -/

namespace House

/-- A house after the clock was read and numbers were given out. -/
def passed (h : House) (clock : Timestamp) (nextEvent nextWait : Nat) : House :=
  { h with clock, nextEvent, nextWait }

/-- Two houses in which all is the same that a session looks at. -/
structure Alike (h k : House) : Prop where
  scopes : h.scopes = k.scopes
  bands : h.bands = k.bands
  common : h.common = k.common
  top : h.top = k.top
  clock : h.clock = k.clock
  nextEvent : h.nextEvent = k.nextEvent
  nextWait : h.nextWait = k.nextWait

namespace Alike

variable {h k : House}

/-- Every house is like itself. -/
theorem refl (h : House) : h.Alike h := ⟨rfl, rfl, rfl, rfl, rfl, rfl, rfl⟩

/-- Houses that are alike stay so where the same is read and given out. -/
theorem passed (hk : h.Alike k) (clock : Timestamp) (nextEvent nextWait : Nat) :
    (h.passed clock nextEvent nextWait).Alike (k.passed clock nextEvent nextWait) :=
  ⟨hk.scopes, hk.bands, hk.common, hk.top, rfl, rfl, rfl⟩

end Alike

/-- Both houses changed in the same way, if at all: in what the clock shows and in the numbers that
are next. -/
def SameChange (h h' k k' : House) : Prop :=
  ∃ clock nextEvent nextWait,
    h' = h.passed clock nextEvent nextWait ∧ k' = k.passed clock nextEvent nextWait

namespace SameChange

variable {h h' h'' k k' k'' : House}

/-- The same is done to the clock and the counts of houses that are alike. -/
theorem of_alike (hlike : h.Alike k) (f : Timestamp → Timestamp) (m n : Nat → Nat) :
    h.SameChange (h.passed (f h.clock) (m h.nextEvent) (n h.nextWait)) k
      (k.passed (f k.clock) (m k.nextEvent) (n k.nextWait)) :=
  ⟨_, _, _, rfl, by rw [hlike.clock, hlike.nextEvent, hlike.nextWait]⟩

/-- Nothing is changed. -/
theorem refl (hlike : h.Alike k) : h.SameChange h k k := .of_alike hlike id id id

theorem trans (h₁ : h.SameChange h' k k') (h₂ : h'.SameChange h'' k' k'') :
    h.SameChange h'' k k'' := by
  obtain ⟨_, _, _, rfl, rfl⟩ := h₁
  obtain ⟨c, e, w, rfl, rfl⟩ := h₂
  exact ⟨c, e, w, rfl, rfl⟩

/-- Houses stay alike. -/
theorem alike (hchange : h.SameChange h' k k') (hlike : h.Alike k) : h'.Alike k' := by
  obtain ⟨c, e, w, rfl, rfl⟩ := hchange
  exact hlike.passed c e w

/-- Two houses that change as a third one does change in the same way. -/
theorem left_right {j j' : House} (h₁ : h.SameChange h' j j') (h₂ : k.SameChange k' j j') :
    h.SameChange h' k k' := by
  obtain ⟨c, e, w, rfl, rfl⟩ := h₁
  obtain ⟨c', e', w', rfl, hj⟩ := h₂
  obtain rfl : c = c' := congrArg House.clock hj
  obtain rfl : e = e' := congrArg House.nextEvent hj
  obtain rfl : w = w' := congrArg House.nextWait hj
  exact ⟨c, e, w, rfl, rfl⟩

end SameChange

end House

/-! ### Work on houses that look alike -/

namespace Act

variable {α β γ δ : Type} {f : α → β} {g : γ → δ}

theorem runOn_bind (a : Act α) (b : α → Act γ) (h : House) :
    (a >>= b).runOn h =
      match a.runOn h with
      | (.ok x, h) => (b x).runOn h
      | (.error e, h) => (.error e, h) := by
  have hbind : (a >>= b).runOn h = (ExceptT.bindCont b (a.runOn h).1) (a.runOn h).2 := rfl
  rw [hbind]
  rcases a.runOn h with ⟨_ | x, h'⟩ <;> rfl

/-- On houses that are alike, two pieces of work change the same, and what the second one ends with
is the image of what the first one ends with. -/
def Echoes (f : α → β) (a : Act α) (b : Act β) : Prop :=
  ∀ ⦃h k : House⦄, h.Alike k →
    h.SameChange (a.runOn h).2 k (b.runOn k).2 ∧ Echo f (a.runOn h).1 (b.runOn k).1

namespace Echoes

variable {a : Act α} {b : Act β}

/-- Work that leaves the house as it is. -/
theorem of_echo {x : Except ScriptError α} {y : Except ScriptError β} (h : Echo f x y)
    (ha : ∀ h, a.runOn h = (x, h)) (hb : ∀ h, b.runOn h = (y, h)) : Echoes f a b := by
  intro h₁ h₂ hlike
  rw [ha, hb]
  exact ⟨.refl hlike, h⟩

theorem pure (x : α) : Echoes f (Pure.pure x) (Pure.pure (f x)) :=
  .of_echo (.ok x) (fun _ => rfl) fun _ => rfl

theorem throw {e : ScriptError} (he : ∀ line fault, e ≠ .malformed line fault) :
    Echoes f (MonadExcept.throw e) (MonadExcept.throw e.unlined) :=
  .of_echo (.error he) (fun _ => rfl) fun _ => rfl

theorem ofExcept {x : Except ScriptError α} {y : Except ScriptError β} (h : Echo f x y) :
    Echoes f (Act.ofExcept x) (Act.ofExcept y) :=
  .of_echo h (fun _ => by cases x <;> rfl) fun _ => by cases y <;> rfl

/-- Work in two parts. -/
theorem bind {p : α → Act γ} {q : β → Act δ} (h : Echoes f a b)
    (hpq : ∀ x, Echoes g (p x) (q (f x))) : Echoes g (a >>= p) (b >>= q) := by
  intro h₁ h₂ hlike
  obtain ⟨hchange, hecho⟩ := h hlike
  rw [runOn_bind, runOn_bind]
  generalize a.runOn h₁ = r at hchange hecho ⊢
  generalize b.runOn h₂ = t at hchange hecho ⊢
  obtain ⟨x, h₁'⟩ := r
  obtain ⟨y, h₂'⟩ := t
  dsimp only at hchange hecho
  cases hecho with
  | ok x =>
    obtain ⟨hchange', hecho⟩ := hpq x (hchange.alike hlike)
    exact ⟨hchange.trans hchange', hecho⟩
  | error he => exact ⟨hchange, .error he⟩

/-- Work that begins with a look at the house. -/
theorem get {p : House → Act γ} {q : House → Act δ}
    (hpq : ∀ ⦃h k : House⦄, h.Alike k → Echoes g (p h) (q k)) :
    Echoes g (MonadState.get >>= p) (MonadState.get >>= q) := by
  intro h₁ h₂ hlike
  rw [runOn_bind, runOn_bind]
  exact hpq hlike hlike

/-- Work that reads or gives out a number or the time. -/
theorem perform {m n : House → α × House} (hval : ∀ ⦃h k : House⦄, h.Alike k → (m h).1 = (n k).1)
    (hchange : ∀ ⦃h k : House⦄, h.Alike k → h.SameChange (m h).2 k (n k).2) :
    Echoes id (Act.perform m) (Act.perform n) := by
  intro h₁ h₂ hlike
  refine ⟨hchange hlike, ?_⟩
  change Echo id (.ok (m h₁).1) (.ok (n h₂).1)
  rw [hval hlike]
  exact .ok _

/-- Work that gives out a number. -/
theorem update {m n : House → House}
    (hchange : ∀ ⦃h k : House⦄, h.Alike k → h.SameChange (m h) k (n k)) :
    Echoes id (Act.update m) (Act.update n) :=
  fun _ _ hlike => ⟨hchange hlike, .ok ()⟩

/-- Work that depends on a condition. -/
theorem ite {c : Prop} [Decidable c] {a' : Act α} {b' : Act β} (h : Echoes f a b)
    (h' : Echoes f a' b') : Echoes f (if c then a else a') (if c then b else b') := by
  split
  · exact h
  · exact h'

end Echoes

/-! ### Pieces of work -/

theorem echoes_ofEvent (x : Except EventError α) : Echoes id (ofEvent x) (ofEvent x) := by
  cases x with
  | ok x => exact .pure x
  | error e => exact .throw nofun

theorem echoes_readClock : Echoes id (perform House.readClock) (perform House.readClock) :=
  .perform (fun _ _ hlike => hlike.clock) fun _ _ hlike =>
    .of_alike hlike (fun clock => ⟨clock.nanos + 1000⟩) id id

/-- The number of an event is given out. -/
theorem echoes_nextEvent :
    Echoes id (update fun h => { h with nextEvent := h.nextEvent + 1 })
      (update fun h => { h with nextEvent := h.nextEvent + 1 }) :=
  .update fun _ _ hlike => .of_alike hlike id (· + 1) id

/-- An event is made. -/
theorem echoes_makeEvent (name : Name) (scope : ScopeId) :
    Echoes id (makeEvent name scope) (makeEvent name scope) := by
  refine .bind echoes_readClock fun time => .get fun h k hlike => ?_
  rw [hlike.nextEvent]
  exact .bind (echoes_ofEvent _) fun e => .bind echoes_nextEvent fun _ => .pure e

/-- The words of a phrase are read. -/
theorem echoes_params (p : Phrase) (scope : ScopeId) :
    Echoes id (params p scope) (params p.unlined scope) := by
  change Echoes id (params p scope) (params p scope)
  unfold params
  split
  · exact .pure _
  · refine .bind echoes_readClock fun time => .get fun h k hlike => ?_
    rw [hlike.nextEvent, hlike.scopes]
    exact .bind (echoes_ofEvent _) fun e => .bind echoes_nextEvent fun _ => .pure e.name

/-- A phrase becomes a statement. -/
theorem echoes_build (p : Phrase) : Echoes Statement.unlined (build p) (build p.unlined) := by
  obtain ⟨verb, event, line⟩ := p
  simp only [build, Phrase.unlined, Phrase.args, Phrase.usage]
  cases verb.deed with
  | ifThen | elseIf => exact .ite (.throw nofun) (.pure _)
  | otherwise => exact .ite (.pure _) (.throw nofun)
  | wait =>
    exact .bind (.perform (fun _ _ hlike => hlike.nextWait) fun _ _ hlike =>
      .of_alike hlike id id (· + 1)) fun number => .pure _
  | probe deed =>
    dsimp only
    cases deed.buildFault with
    | some text => exact .throw nofun
    | none => exact .ite (.pure _) (.pure _)
  | _ => exact .pure _

/-- A field of an event handler is set. -/
theorem echoes_setHandlerField (p : Phrase) (args : Name) (field : HandlerField)
    (parent : Statement) :
    Echoes Statement.unlined (setHandlerField p args field parent)
      (setHandlerField p.unlined args field parent.unlined) := by
  cases parent with
  | handler q priority name doc body =>
    cases field with
    | priority =>
      match args with
      | [] | _ :: _ :: _ => exact .throw nofun
      | [token] =>
        simp only [setHandlerField, Statement.unlined]
        cases token.int? with
        | none => exact .throw nofun
        | some wanted =>
          refine .get fun h k hlike => ?_
          rw [hlike.bands]
          cases (Decimal.toInt32? wanted.toInt).filter k.bands.contains with
          | none => exact .throw nofun
          | some n => exact .pure _
    | name => exact .ite (.throw nofun) (.pure _)
    | doc => exact .pure _
  | _ => exact .throw nofun

/-- A field of a link is set. -/
theorem echoes_setLinkField (p : Phrase) (args : Name) (field : LinkField) (parent : Statement) :
    Echoes Statement.unlined (setLinkField p args field parent)
      (setLinkField p.unlined args field parent.unlined) := by
  cases parent with
  | connect q host port ondemand =>
    match field, args with
    | .host, [token] | .ondemand, [] => exact .pure _
    | .port, [token] =>
      simp only [setLinkField, Statement.unlined]
      cases port? token with
      | some n => exact .pure _
      | none => exact .throw nofun
    | .ondemand, [token] =>
      simp only [setLinkField, Statement.unlined]
      cases yesOrNo? token.render with
      | some flag => exact .pure _
      | none => exact .throw nofun
    | .host, [] | .host, _ :: _ :: _ | .port, [] | .port, _ :: _ :: _ | .ondemand, _ :: _ :: _ =>
      exact .throw nofun
  | _ => exact .throw nofun

/-- The span of a wait is set. -/
theorem echoes_setSpan (p : Phrase) (args : Name) (parent : Statement) :
    Echoes Statement.unlined (setSpan p args parent) (setSpan p.unlined args parent.unlined) := by
  refine .ite (.throw nofun) ?_
  cases Duration.read args with
  | span span =>
    cases parent with
    | wait q number _ => exact .pure _
    | _ => exact .throw nofun
  | _ => exact .throw nofun

/-- A label is added. -/
theorem echoes_addLabel (p : Phrase) (parent : Statement) :
    Echoes Statement.unlined (addLabel p parent) (addLabel p.unlined parent.unlined) := by
  cases parent with
  | collect q labels body => exact .pure _
  | _ => exact .throw nofun

/-- An immediate statement is applied whatever its line is. -/
theorem echoes_applyTo (parent child : Statement) :
    Echoes Statement.unlined (applyTo parent child) (applyTo parent.unlined child.unlined) := by
  have hdeed : child.phrase.unlined.verb.deed = child.phrase.verb.deed := rfl
  simp only [applyTo, Statement.unlined_phrase, hdeed]
  generalize child.phrase.verb.deed = deed
  match deed with
  | .elseIf | .otherwise => exact .ofExcept (Statement.echo_attach parent child)
  | .attribute field =>
    exact .bind (echoes_params child.phrase _) fun args =>
      echoes_setHandlerField _ args field parent
  | .setting field =>
    exact .bind (echoes_params child.phrase _) fun args => echoes_setLinkField _ args field parent
  | .span => exact .bind (echoes_params child.phrase _) fun args => echoes_setSpan _ args parent
  | .probe ⟨.label, _, _, _, _, _⟩ => exact echoes_addLabel child.phrase parent
  | .probe ⟨.plain, _, _, _, _, _⟩ | .probe ⟨.collect, _, _, _, _, _⟩ => exact .throw nofun
  | .group | .background | .trigger | .ifThen | .load | .unload | .list | .delete | .help | .log
  | .handle | .pass _ | .setState | .readState | .wait | .connect | .send => exact .throw nofun

end Act

/-! ### Sessions without lines -/

namespace Script

/-- An action without its line. -/
def Action.unlined : Action → Action
  | .simple words _ => .simple words 0
  | .opened words _ => .opened words 0
  | .closed _ => .closed 0

/-- A mark without its line. -/
def Mark.unlined (m : Mark) : Mark := { m with line := 0 }

end Script

namespace Session

/-- A session without the numbers of lines, and without the count of them. -/
def unlined (s : Session) : Session :=
  { s with
    layout := { s.layout with line := 0 }
    blocks := Statement.unlinedAll s.blocks
    actions := s.actions.map Script.Action.unlined
    marks := s.marks.map Script.Mark.unlined }

/-- What an action ends with, without the numbers of lines. -/
def unlinedResult (r : Session × Option Statement) : Session × Option Statement :=
  (r.1.unlined, r.2.map Statement.unlined)

/-- The same words can be used in houses that are alike. -/
theorem words_unlined {h k : House} (hlike : h.Alike k) (s : Session) :
    s.unlined.words k = s.words h := by
  rcases hblocks : s.blocks with _ | ⟨parent, rest⟩
  · simp only [words, unlined, hblocks, Statement.unlinedAll, House.topWords, hlike.top,
      hlike.common]
  · simp only [words, unlined, hblocks, Statement.unlinedAll, Statement.unlined_verb,
      House.wordsInside, hlike.common]

/-- Words start the same statement on any line. -/
theorem echoes_build (s : Session) (words : Name) (line : Nat) :
    Act.Echoes Statement.unlined (s.build words line) (s.unlined.build words 0) := by
  refine .get fun h k hlike => ?_
  rw [words_unlined hlike]
  dsimp only
  cases Vocabulary.find? Verb.accepts (s.words h) words with
  | none => exact .throw nofun
  | some verb =>
    refine .bind (Act.echoes_makeEvent words s.scope) fun event => ?_
    exact Act.echoes_build ⟨verb, event, line⟩

/-- A verb can stand where it is on any line. -/
theorem echo_checkPlace (s : Session) (v : Verb) :
    Echo id (s.checkPlace v) (s.unlined.checkPlace v) := by
  rcases hblocks : s.blocks with _ | ⟨parent, rest⟩
  · simp only [checkPlace, unlined, hblocks, Statement.unlinedAll]
    split
    · exact .error nofun
    · exact .ok ()
  · simp only [checkPlace, unlined, hblocks, Statement.unlinedAll, Statement.unlined_verb,
      Statement.unlined_phrase]
    split
    · exact .error nofun
    · exact .ok ()

/-- A statement is completed whatever its line is. -/
theorem echoes_complete (s : Session) (statement : Statement) :
    Act.Echoes unlinedResult (s.complete statement) (s.unlined.complete statement.unlined) := by
  obtain ⟨mode, scope, layout, outline, blocks, actions, marks⟩ := s
  cases blocks with
  | nil => exact .pure _
  | cons parent rest =>
    simp only [complete, unlined, Statement.unlinedAll, Statement.unlined_verb]
    refine .ite ?_ ?_
    · exact .bind (Act.echoes_applyTo parent statement) fun parent => .pure _
    · exact .bind (.ofExcept (parent.echo_add statement)) fun parent => .pure _

/-- An action is taken whatever its line is, if it closes no block that is not open. -/
theorem echoes_act (s : Session) (action : Script.Action)
    (hopen : ∀ line, action = .closed line → s.blocks ≠ []) :
    Act.Echoes unlinedResult (s.act action) (s.unlined.act action.unlined) := by
  cases action with
  | simple words line =>
    refine .bind (s.echoes_build words line) fun statement => ?_
    rw [Statement.unlined_verb]
    exact .bind (.ofExcept (s.echo_checkPlace statement.verb)) fun _ => s.echoes_complete statement
  | opened words line =>
    refine .bind (s.echoes_build words line) fun statement => ?_
    rw [Statement.unlined_verb, Statement.unlined_phrase]
    refine .ite (.throw nofun) ?_
    refine .bind (.ofExcept (s.echo_checkPlace statement.verb)) fun _ => ?_
    exact .bind (.ofExcept statement.echo_startBlock) fun _ => .pure _
  | closed line =>
    obtain ⟨mode, scope, layout, outline, blocks, actions, marks⟩ := s
    cases blocks with
    | nil => exact absurd rfl (hopen line rfl)
    | cons statement rest =>
      refine .bind (.ofExcept statement.echo_endBlock) fun _ => ?_
      exact echoes_complete ⟨mode, scope, layout, outline, rest, actions, marks⟩ statement

end Session

end Hearth
