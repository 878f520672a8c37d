import Hearth.Proofs.House.Work
import Hearth.Strand.Run

/-!
# Errors without a line

Only a block and a session give an error a line. Whatever fails in a session, or in a statement that
is run, fails with an error that has none yet.

## Main definitions

* `ScriptError.isLineless` : an error that has no line.
* `Act.LinelessOr` : work that fails only with such errors.

## Main results

* `ScriptError.atLineOnce_of_isLineless` : such an error gets the line that it is given.
* `Session.lineless_act` : an action that fails.
* `Act.lineless_check`, `Act.lineless_install` and others : the work of statements.
-/

namespace Hearth

/-- Has an error no line yet? -/
def ScriptError.isLineless : ScriptError → Bool
  | .malformed .. | .atLine .. => false
  | _ => true

theorem ScriptError.atLineOnce_of_isLineless {e : ScriptError} (he : e.isLineless = true)
    (line : Nat) : e.atLineOnce line = .atLine line e := by
  cases e <;> first | rfl | cases he

/-- A result that is no error with a line. -/
def LinelessResult {α : Type} (x : Except ScriptError α) : Prop :=
  ∀ e, x = .error e → e.isLineless = true

namespace LinelessResult

variable {α β : Type}

theorem ok (x : α) : LinelessResult (.ok x) := nofun

theorem error {e : ScriptError} (he : e.isLineless = true) :
    LinelessResult (.error e : Except _ α) := by
  rintro _ ⟨⟩
  exact he

theorem bind {x : Except ScriptError α} {f : α → Except ScriptError β} (hx : LinelessResult x)
    (hf : ∀ y, LinelessResult (f y)) : LinelessResult (x >>= f) := by
  cases x with
  | ok y => exact hf y
  | error e => exact .error (hx e rfl)

end LinelessResult

namespace Act

variable {α β : Type}

/-- Work that ends with an error that has no line, or gives something of a kind. -/
def LinelessOr (q : α → Prop) (a : Act α) : Prop :=
  ∀ h, LinelessResult (a.runOn h).1 ∧ ∀ x, (a.runOn h).1 = .ok x → q x

/-- Work that fails only with errors that have no line. -/
abbrev Lineless (a : Act α) : Prop := a.LinelessOr fun _ => True

namespace LinelessOr

variable {p : β → Prop} {q : α → Prop} {a : Act α}

theorem pure {x : α} (hx : q x) : (Pure.pure x : Act α).LinelessOr q := by
  refine fun _ => ⟨.ok x, ?_⟩
  rintro _ ⟨⟩
  exact hx

theorem throw {e : ScriptError} (he : e.isLineless = true) :
    (MonadExcept.throw e : Act α).LinelessOr q :=
  fun _ => ⟨.error he, nofun⟩

theorem throw_bind {e : ScriptError} (he : e.isLineless = true) (b : α → Act β) :
    (MonadExcept.throw e >>= b).LinelessOr p :=
  fun _ => ⟨.error he, nofun⟩

theorem perform (f : House → α × House) : (Act.perform f).Lineless :=
  fun h => ⟨.ok (f h).1, fun _ _ => trivial⟩

theorem update (f : House → House) : (Act.update f).Lineless :=
  fun _ => ⟨.ok (), fun _ _ => trivial⟩

theorem set (h : House) : (MonadStateOf.set h : Act PUnit).Lineless :=
  fun _ => ⟨.ok PUnit.unit, fun _ _ => trivial⟩

theorem bind {b : α → Act β} (ha : a.LinelessOr q) (hb : ∀ x, q x → (b x).LinelessOr p) :
    (a >>= b).LinelessOr p := by
  intro h
  have hfirst := ha h
  rw [runOn_bind]
  generalize a.runOn h = r at hfirst ⊢
  obtain ⟨e | x, h'⟩ := r
  · exact ⟨.error (hfirst.1 e rfl), nofun⟩
  · exact hb x (hfirst.2 x rfl) h'

theorem weaken {q' : α → Prop} (ha : a.LinelessOr q) (hq : ∀ x, q x → q' x) : a.LinelessOr q' :=
  fun h => ⟨(ha h).1, fun x hx => hq x ((ha h).2 x hx)⟩

/-- Work that begins with a look at the house. -/
theorem get_bind {b : House → Act α} (hb : ∀ h, (b h).LinelessOr q) :
    (MonadState.get >>= b).LinelessOr q := by
  intro h
  rw [runOn_get_bind]
  exact hb h h

theorem ofExcept {x : Except ScriptError α} (hx : LinelessResult x) :
    (Act.ofExcept x).Lineless := by
  cases x with
  | ok y => exact .pure trivial
  | error e => exact .throw (hx e rfl)

theorem ofEvent (x : Except EventError α) : (Act.ofEvent x).Lineless := by
  cases x with
  | ok y => exact .pure trivial
  | error e => exact .throw rfl

theorem ofWork (x : Except WorkError α) : (Act.ofWork x).Lineless := by
  cases x with
  | ok y => exact .pure trivial
  | error e => exact .throw rfl

theorem tryCatch {b : ScriptError → Act α} (ha : a.LinelessOr q)
    (hb : ∀ e, e.isLineless = true → (b e).LinelessOr q) :
    (MonadExcept.tryCatch a b).LinelessOr q := by
  intro h
  have hfirst := ha h
  have hrun := runOn_tryCatch a b h
  rw [hrun]
  generalize a.runOn h = r at hfirst ⊢
  obtain ⟨e | x, h'⟩ := r
  · exact hb e (hfirst.1 e rfl) h'
  · exact hfirst

theorem forM (l : List β) {f : β → Act Unit} (hf : ∀ x, (f x).Lineless) :
    (l.forM f).Lineless := by
  induction l with
  | nil => exact .pure trivial
  | cons x l ih => exact .bind (hf x) fun _ _ => ih

end LinelessOr

/-! ### Events and workers -/

theorem lineless_makeEvent (name : Name) (scope : ScopeId) : (makeEvent name scope).Lineless :=
  .bind (.perform _) fun _ _ => .get_bind fun _ => .bind (.ofEvent _) fun _ _ =>
    .bind (.update _) fun _ _ => .pure trivial

theorem lineless_params (p : Phrase) (scope : ScopeId) : (params p scope).Lineless := by
  rw [params]
  split
  · exact .pure trivial
  · exact .bind (.perform _) fun _ _ => .get_bind fun _ => .bind (.ofEvent _) fun _ _ =>
      .bind (.update _) fun _ _ => .pure trivial

theorem lineless_register (w : Worker) : (register w).Lineless :=
  .get_bind fun _ => .bind (.ofWork _) fun _ _ => .bind (.update _) fun _ _ => .pure trivial

theorem lineless_unregister (id : WorkerId) : (unregister id).Lineless :=
  .get_bind fun _ => .bind (.ofWork _) fun _ _ => .bind (.update _) fun _ _ => .pure trivial

/-! ### Conditions -/

theorem lineless_valueAndName (usage : String) (words : Name) :
    LinelessResult (valueAndName usage words) := by
  unfold valueAndName
  split
  · exact .ok _
  · exact .error rfl

theorem lineless_test (h : House) (args : Name) (c : Condition) :
    LinelessResult (c.test h args) := by
  unfold Condition.test
  split
  case h_3 => exact .bind (lineless_valueAndName _ _) fun _ => .ok _
  case h_4 =>
    split
    · exact .error rfl
    · exact .ok _
  all_goals first | exact .ok _ | exact .error rfl

theorem lineless_condition (c : Condition) (args : Name) : (c.check args).Lineless := by
  have htest : Lineless (do ofExcept (c.test (← MonadState.get) args)) :=
    .get_bind fun h => .ofExcept (lineless_test h args c)
  unfold Condition.check
  split
  · exact .bind (.update _) fun _ _ => htest
  · exact htest

theorem lineless_checkWords (want : Bool) (words : Name) : Lineless (do
    if words.isEmpty then throw (.usage "if [not] condition…")
    match (← MonadState.get).conditions.lookup (fun _ _ => true) words with
    | some (n, c) => return (← c.check (words.drop n)) == want
    | none => throw (.unknownWord words "conditions")) := by
  dsimp only
  split
  · exact .throw_bind rfl _
  · refine .get_bind fun h => ?_
    split
    · exact .bind (lineless_condition _ _) fun _ _ => .pure trivial
    · exact .throw rfl

theorem lineless_check (words : Name) : (check words).Lineless := by
  unfold check
  exact lineless_checkWords _ _

/-! ### Statements that are built -/

theorem lineless_build (p : Phrase) : (build p).Lineless := by
  rw [build]
  split
  case h_1 | h_2 | h_3 =>
    split
    · first | exact .throw rfl | exact .pure trivial
    · first | exact .throw rfl | exact .pure trivial
  case h_7 => exact .bind (.perform _) fun _ _ => .pure trivial
  case h_9 =>
    dsimp only
    split
    · exact .throw_bind rfl _
    · split
      · exact .pure trivial
      · exact .pure trivial
  all_goals exact .pure trivial

theorem lineless_setHandlerField (p : Phrase) (args : Name) (field : HandlerField)
    (parent : Statement) : (setHandlerField p args field parent).Lineless := by
  unfold setHandlerField
  split
  · split
    · split
      · split
        · refine .get_bind fun h => ?_
          dsimp only
          split
          · exact .pure trivial
          · exact .throw rfl
        · exact .throw rfl
      · exact .throw rfl
    · split
      · exact .throw rfl
      · exact .pure trivial
    · exact .pure trivial
  · exact .throw rfl

theorem lineless_setLinkField (p : Phrase) (args : Name) (field : LinkField)
    (parent : Statement) : (setLinkField p args field parent).Lineless := by
  unfold setLinkField
  split
  · split
    · exact .pure trivial
    · split
      · exact .pure trivial
      · exact .throw rfl
    · exact .pure trivial
    · split
      · exact .pure trivial
      · exact .throw rfl
    · exact .throw rfl
  · exact .throw rfl

theorem lineless_setSpan (p : Phrase) (args : Name) (parent : Statement) :
    (setSpan p args parent).Lineless := by
  rw [setSpan]
  split
  · exact .throw_bind rfl _
  · split
    · split
      · exact .pure trivial
      · exact .throw rfl
    · exact .throw rfl

theorem lineless_addLabel (p : Phrase) (parent : Statement) :
    (addLabel p parent).Lineless := by
  unfold addLabel
  split
  · exact .pure trivial
  · exact .throw rfl

end Act

namespace Statement

theorem lineless_add (parent child : Statement) : LinelessResult (parent.add child) := by
  unfold add
  split
  case h_5 => exact .error rfl
  all_goals exact .ok _

theorem lineless_chain (branch : Statement) : (s : Statement) → LinelessResult (chain branch s)
  | .branch p body none => .ok _
  | .branch p body (some (.branch q body' orElse)) => by
    rw [chain]
    exact .bind (lineless_chain branch _) fun _ => .ok _
  | .branch _ _ (some (.plain _)) | .branch _ _ (some (.group ..))
  | .branch _ _ (some (.handler ..)) | .branch _ _ (some (.wait ..))
  | .branch _ _ (some (.connect ..)) | .branch _ _ (some (.collect ..))
  | .plain _ | .group .. | .handler .. | .wait .. | .connect .. | .collect .. => .error rfl

theorem lineless_chainLast (branch : Statement) :
    (body : Body) → LinelessResult (chainLast branch body)
  | [] => .error rfl
  | [s] => .bind (lineless_chain branch s) fun _ => .ok _
  | _ :: next :: rest => .bind (lineless_chainLast branch (next :: rest)) fun _ => .ok _

theorem lineless_attach (parent branch : Statement) : LinelessResult (parent.attach branch) := by
  unfold attach
  split
  case h_4 => exact .error rfl
  all_goals exact .bind (lineless_chainLast branch _) fun _ => .ok _

theorem lineless_startBlock (s : Statement) : LinelessResult s.startBlock := by
  unfold startBlock
  split
  · split
    · exact .error rfl
    · exact .ok _
  · exact .ok _

theorem lineless_endBlock (s : Statement) : LinelessResult s.endBlock := by
  unfold endBlock
  split
  · exact .error rfl
  · split
    · exact .error rfl
    · exact .ok _
  · exact .ok _

end Statement

theorem Act.lineless_applyTo (parent child : Statement) : (applyTo parent child).Lineless := by
  rw [applyTo]
  split
  · exact .ofExcept (parent.lineless_attach child)
  · exact .ofExcept (parent.lineless_attach child)
  · exact .bind (lineless_params _ _) fun _ _ => lineless_setHandlerField _ _ _ _
  · exact .bind (lineless_params _ _) fun _ _ => lineless_setLinkField _ _ _ _
  · exact .bind (lineless_params _ _) fun _ _ => lineless_setSpan _ _ _
  · exact lineless_addLabel _ _
  · exact .throw rfl

/-! ### Actions of a session -/

namespace Session

variable (s : Session)

theorem lineless_build (words : Name) (line : Nat) : (s.build words line).Lineless := by
  rw [build]
  refine .get_bind fun h => ?_
  dsimp only
  split
  · exact .throw rfl
  · exact .bind (Act.lineless_makeEvent _ _) fun _ _ => Act.lineless_build _

theorem lineless_checkPlace (v : Verb) : LinelessResult (s.checkPlace v) := by
  unfold checkPlace
  split
  · split
    · exact .error rfl
    · exact .ok _
  · split
    · exact .error rfl
    · exact .ok _

theorem lineless_complete (statement : Statement) : (s.complete statement).Lineless := by
  rw [complete]
  split
  · exact .pure trivial
  · split
    · exact .bind (Act.lineless_applyTo _ _) fun _ _ => .pure trivial
    · exact .bind (.ofExcept (Statement.lineless_add _ _)) fun _ _ => .pure trivial

/-- An action fails with an error without a line, if it only ends a block that is open. -/
theorem lineless_act {action : Script.Action}
    (hopen : ∀ line, action = .closed line → s.blocks ≠ []) : (s.act action).Lineless := by
  cases action with
  | simple words line =>
    exact .bind (s.lineless_build words line) fun _ _ =>
      .bind (.ofExcept (s.lineless_checkPlace _)) fun _ _ => s.lineless_complete _
  | opened words line =>
    refine .bind (s.lineless_build words line) fun statement _ => ?_
    split
    · exact .throw_bind rfl _
    · exact .bind (.ofExcept (s.lineless_checkPlace _)) fun _ _ =>
        .bind (.ofExcept statement.lineless_startBlock) fun _ _ => .pure trivial
  | closed line =>
    rw [act]
    split
    · next hnone => exact absurd hnone (hopen line rfl)
    · next statement blocks hblocks =>
      exact .bind (.ofExcept statement.lineless_endBlock) fun _ _ =>
        lineless_complete { s with blocks } statement

end Session

/-! ### The work of statements -/

namespace Act

theorem lineless_defineHandler (p : Phrase) (priority : Option Int32) (name : Option Name)
    (doc : Option String) (body : Body) (scope : ScopeId) :
    (defineHandler p priority name doc body scope).Lineless := by
  have hadd (h : House) (x : Handler) : Lineless (do
      let worker ← MonadStateOf.set h >>= fun _ => register (.handler x)
      update fun h => { h with handlers := h.handlers ++ [(worker, x)] }) :=
    .bind (.bind (.set _) fun _ _ => lineless_register _) fun _ _ => .update _
  rw [defineHandler]
  refine .bind (lineless_params _ _) fun pattern _ => ?_
  by_cases hpattern : pattern.isEmpty
  · simp only [hpattern]
    exact .throw_bind rfl _
  · simp only [hpattern]
    refine .get_bind fun h => ?_
    cases name with
    | none => exact hadd _ _
    | some n =>
      dsimp only
      split
      · exact .throw_bind rfl _
      · exact hadd _ _

theorem lineless_deleteHandler (name : Name) : (deleteHandler name).Lineless := by
  rw [deleteHandler]
  refine .get_bind fun h => ?_
  split
  · exact .throw rfl
  · exact .bind (.update _) fun _ _ => .bind (lineless_unregister _) fun _ _ => .pure trivial

theorem lineless_startWait (name : Name) (span : Span) : (startWait name span).Lineless := by
  rw [startWait]
  refine .get_bind fun h => ?_
  split
  · exact .throw_bind rfl _
  · exact .bind (.perform _) fun _ _ => .perform _

theorem lineless_changeStore
    (f : Files → Store → Store × Files × Except StoreError (Option Record)) :
    (changeStore f).Lineless := by
  rw [changeStore]
  refine .get_bind fun h => ?_
  obtain ⟨store, files, r⟩ := f h.files h.store
  refine .bind (.set _) fun _ _ => ?_
  cases r with
  | ok x => exact .pure trivial
  | error e => exact .throw rfl

theorem lineless_changeState (name : Name) (value : Token)
    (f : Files → Store → Store × Files × Except StoreError (Option Record)) :
    (changeState name value f).Lineless := by
  have hlock : (lockState name value).Lineless := by
    rw [lockState]
    refine .get_bind fun h => ?_
    split
    · exact .throw rfl
    · exact .set _
  exact .bind hlock fun _ _ => .tryCatch (lineless_changeStore f) fun _ he =>
    .bind (.update _) fun _ _ => .throw he

theorem lineless_changeEvent (name : Name) (scope : ScopeId) (old new : Token) :
    (changeEvent name scope old new).Lineless :=
  .bind (.perform _) fun _ _ => lineless_makeEvent _ _

theorem lineless_setState (name : Name) (value : Token) (scope : ScopeId) :
    (setState name value scope).Lineless := by
  rw [setState]
  refine .get_bind fun h => ?_
  dsimp only
  split
  · exact .pure trivial
  · refine .bind (.perform _) fun _ _ => .bind (lineless_changeState _ _ _) fun _ _ => ?_
    rw [map_eq_pure_bind]
    exact .bind (lineless_changeEvent _ _ _ _) fun _ _ => .pure trivial

theorem lineless_deleteState (name : Name) (scope : ScopeId) :
    (deleteState name scope).Lineless := by
  rw [deleteState]
  refine .get_bind fun h => ?_
  split
  · exact .throw rfl
  · exact .bind (lineless_changeState _ _ _) fun _ _ => lineless_changeEvent _ _ _ _

theorem lineless_openLink (name : Name) (ondemand : Option Bool) :
    (openLink name ondemand).Lineless :=
  .get_bind fun _ => .bind (.perform _) fun _ _ => .update _

theorem lineless_takeLink (name : Name) : (takeLink name).Lineless := by
  rw [takeLink]
  refine .get_bind fun h => ?_
  split
  · exact .bind (.set _) fun _ _ => .pure trivial
  · exact .throw rfl

theorem lineless_resolve (words : Name) : (resolve words).Lineless := by
  rw [resolve]
  refine .get_bind fun h => ?_
  split
  · exact .pure trivial
  · exact .throw rfl

theorem lineless_sayList (lines : List String) : (sayList lines).Lineless :=
  .bind (.forM _ fun _ => .update _) fun _ _ => .update _

theorem lineless_list (words : Name) : (list words).Lineless := by
  rw [list]
  refine .bind (.perform _) fun _ _ => ?_
  split
  · exact .get_bind fun _ => lineless_sayList _
  · refine .bind (lineless_resolve words) fun x _ => ?_
    obtain ⟨c, item⟩ := x
    dsimp only
    split
    · exact .get_bind fun _ => lineless_sayList _
    · refine .get_bind fun _ => ?_
      split
      · exact lineless_sayList _
      · exact .throw rfl

theorem lineless_helpLines (words : Vocabulary Verb) (args : Name) :
    LinelessResult (helpLines words args) := by
  rw [helpLines]
  split
  · exact .ok _
  · split
    · exact .error rfl
    · exact .ok _

/-! ### Modules -/

theorem lineless_addVerb (v : Verb) : (addVerb v).Lineless := by
  rw [addVerb]
  refine .get_bind fun h => ?_
  split
  · exact .set _
  · exact .throw rfl

theorem lineless_addCondition (c : Condition) : (addCondition c).Lineless := by
  rw [addCondition]
  refine .get_bind fun h => ?_
  split
  · exact .set _
  · exact .throw rfl

theorem lineless_addCollection (c : Collection) : (addCollection c).Lineless := by
  rw [addCollection]
  refine .get_bind fun h => ?_
  split
  · exact .throw rfl
  · exact .set _

theorem lineless_provide (module : Name) (x : Provision) : (provide module x).Lineless := by
  have hwrite (x : Installed) : (writeDown module x).Lineless := .update _
  cases x with
  | verb v => exact .bind (lineless_addVerb v) fun _ _ => hwrite _
  | condition c => exact .bind (lineless_addCondition c) fun _ _ => hwrite _
  | collection c => exact .bind (lineless_addCollection c) fun _ _ => hwrite _

/-- What a probe does last when it is loaded or unloaded. -/
theorem lineless_fault (fault : Option String) : Lineless (do
    if let some text := fault then throw (.usage text) : Act Unit) := by
  cases fault with
  | none => exact .pure trivial
  | some text => exact .throw rfl

theorem lineless_install (m : Module) : (install m).Lineless := by
  rw [install]
  split
  · refine .bind (.update _) fun _ _ => ?_
    dsimp only
    split
    · exact .bind (lineless_addVerb _) fun _ _ => lineless_fault _
    · exact lineless_fault _
  · exact .forM _ fun x => lineless_provide _ x

theorem lineless_uninstall (m : Module) : (uninstall m).Lineless := by
  unfold uninstall
  split
  · refine .bind (.update _) fun _ _ => ?_
    dsimp only
    split
    · exact .bind (.update _) fun _ _ => lineless_fault _
    · exact lineless_fault _
  · exact .update _
  · exact .update _
  · exact .update _

theorem lineless_takeLoaded (name : Name) : (takeLoaded name).Lineless := by
  rw [takeLoaded]
  refine .get_bind fun h => ?_
  split
  · exact .bind (.set _) fun _ _ => .pure trivial
  · exact .throw rfl

end Act

end Hearth
