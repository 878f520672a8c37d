import Hearth.Proofs.House.Roster
import Hearth.Proofs.States.Announcements

/-!
# What the work of a strand does to states

Most work of a strand leaves all states alone and begins no change of one. Only a statement that
sets or deletes a state begins a change; the event that announces it is then dispatched above the
frame that ends the change.

## Main definitions

* `Strand.Calm` : work that leaves all states alone.
* `Strand.Effect` : all that the beginning of a call can do to states.

## Main results

* `Strand.begin_orderly`, `Strand.resume_calm` : the effects of calls and frames.
-/

namespace Hearth

/-! ### Calm work -/

namespace Strand

variable {α : Type} {h₀ : House}

/-- Work of a strand that leaves all states alone and begins no change of one. -/
def Calm (h₀ : House) (a : Act Move) : Prop :=
  ∀ h, h₀.SameStates h → h₀.SameStates (a.runOn h).2 ∧
    ∀ m, (a.runOn h).1 = .ok m → Frame.changes m.frames = []

namespace Calm

theorem of_even {a : Act Move} (ha : a.Ensures h₀.SameStates Move.Even) : Calm h₀ a := ha

theorem of_plain {a : Act Move} (ha : a.Ensures h₀.SameStates Move.Plain) : Calm h₀ a :=
  ha.weaken fun _ => Move.Plain.even

theorem pure {m : Move} (hm : m.Even) : Calm h₀ (Pure.pure m) := Act.Ensures.pure hm

theorem throw (e : ScriptError) : Calm h₀ (MonadExcept.throw e) := Act.Ensures.throw e

theorem throw_bind (e : ScriptError) (b : α → Act Move) : Calm h₀ (MonadExcept.throw e >>= b) :=
  Act.Ensures.throw_bind e b

theorem bind {a : Act α} {b : α → Act Move} (ha : a.Upholds h₀.SameStates)
    (hb : ∀ x, Calm h₀ (b x)) : Calm h₀ (a >>= b) := Act.Ensures.bind ha fun x _ => hb x

end Calm

/-! ### Workers and links have no states -/

theorem states_takeLinks : (Act.perform House.takeLinks).Upholds h₀.SameStates :=
  .perform_bare fun _ => rfl

theorem states_clearHandlers (m : Module) :
    m.feature = .handlers → ∀ h, h₀.SameStates h → h₀.SameStates (Act.clearHandlers h) := by
  intro _ h hh
  rw [Act.clearHandlers_eq]
  exact hh.trans ⟨rfl, rfl⟩

theorem states_defineHandler (p : Phrase) (priority : Option Int32) (name : Option Name)
    (doc : Option String) (body : Body) (scope : ScopeId) :
    (Act.defineHandler p priority name doc body scope).Upholds h₀.SameStates := by
  refine Act.ensures_defineHandler _ _ _ _ _ _ fun h x hh _ _ k _ => ⟨?_, fun _ _ => trivial⟩
  rw [Act.runOn_addHandler]
  cases h.registry.register (.handler x) <;> exact hh.trans ⟨rfl, rfl⟩

theorem states_deleteHandler (name : Name) :
    (Act.deleteHandler name).Upholds h₀.SameStates :=
  Act.ensures_deleteHandler name fun _ _ hh _ => hh.trans ⟨rfl, rfl⟩

/-! ### All calls -/

/-- What the beginning of a call can do to states: nothing, a change that is announced, or a change
whose value could not be stored. -/
inductive Effect (h : House) : Except ScriptError Move × House → Prop
  | calm {r : Except ScriptError Move} {h' : House} (states : h.SameStates h')
    (changes : ∀ m, r = .ok m → Frame.changes m.frames = []) : Effect h (r, h')
  | announces {name : Name} {e : Event} {h' : House} (announces : h.Announces name e h') :
    Effect h (.ok (.under (.unlock name) (.dispatch e)), h')
  | unstored (e : StoreError) (h' : House) : Effect h (.error (.external (.store e)), h')

/-- Work that changes states in no other way. -/
def Orderly (a : Act Move) : Prop := ∀ h₀ h, h₀.SameStates h → Effect h₀ (a.runOn h)

theorem Calm.orderly {a : Act Move} (ha : ∀ h₀, Calm h₀ a) : Orderly a :=
  fun h₀ h hh => .calm (ha h₀ h hh).1 (ha h₀ h hh).2

theorem Orderly.of_plain {a : Act Move} (ha : ∀ h₀ : House, a.Ensures h₀.SameStates Move.Plain) :
    Orderly a := Calm.orderly fun h₀ => .of_plain (ha h₀)

theorem Orderly.bind {a : Act α} {b : α → Act Move} (ha : ∀ h₀ : House, a.Upholds h₀.SameStates)
    (hb : ∀ x, Orderly (b x)) : Orderly (a >>= b) := by
  intro h₀ h hh
  have hfirst := (ha h₀ h hh).1
  rw [Act.runOn_bind]
  generalize a.runOn h = r at hfirst ⊢
  obtain ⟨_ | x, h₁⟩ := r
  · exact .calm hfirst nofun
  · exact hb x h₀ h₁ hfirst

/-- A change that was begun ends with its event. -/
theorem effect_changing {h₀ h : House} {name : Name} {value : Token}
    {r : Except ScriptError Event × House} (hh : h₀.SameStates h)
    (hr : Act.Changing h name value r) :
    Effect h₀ (r.1.map fun e => .under (.unlock name) (.dispatch e), r.2) := by
  cases hr with
  | locked hlocked hstates => exact .calm (hh.trans hstates) nofun
  | unstored _ e h' => exact .unstored e h'
  | changed hannounces => exact .announces (hannounces.of_same hh)

theorem orderly_setState (p : Phrase) (scope : ScopeId) : Orderly (setState p scope) := by
  rw [setState]
  refine .bind (fun _ => Act.ensures_params p scope) fun args => ?_
  refine .bind (fun _ => .ofExcept _) fun x => ?_
  obtain ⟨value, name⟩ := x
  intro h₀ h hh
  rw [Act.runOn_bind]
  by_cases hsame : h.state? name = some value
  · rw [Act.setState_same hsame]
    exact .calm hh fun m hm => by cases hm; rfl
  · obtain ⟨⟨e | e, h'⟩, hrun, hr⟩ := Act.changing_setState scope hsame
    · rw [hrun]
      exact effect_changing hh hr
    · rw [hrun]
      exact effect_changing hh hr

theorem orderly_deleteState (item : Name) (scope : ScopeId) : Orderly (do
    let e ← Act.deleteState item scope
    pure (.under (.unlock item) (.dispatch e))) := by
  intro h₀ h hh
  rw [Act.runOn_bind]
  cases hstate : h.state? item with
  | none =>
    rw [Act.deleteState_none hstate]
    exact .calm hh nofun
  | some old =>
    have hr := Act.changing_deleteState scope hstate
    generalize (Act.deleteState item scope).runOn h = r at hr ⊢
    obtain ⟨e | e, h'⟩ := r
    · exact effect_changing hh hr
    · exact effect_changing hh hr

theorem orderly_deleteFrom (c : Collection) (item : Name) (scope : ScopeId) :
    Orderly (deleteFrom c item scope) := by
  unfold deleteFrom
  split
  · exact Calm.orderly fun _ => .pure rfl
  · exact Calm.orderly fun _ => .bind (states_deleteHandler item) fun _ => .pure rfl
  · exact orderly_deleteState item scope
  · refine Calm.orderly fun _ => .bind (Act.ensures_endWait item) fun found => ?_
    split
    · exact .pure rfl
    · exact .throw _
  · exact Orderly.of_plain fun _ => .bind (Act.ensures_takeLink item) fun _ _ => .pure ⟨rfl, rfl⟩
  · exact Calm.orderly fun _ => .throw _

theorem orderly_delete (words : Name) (scope : ScopeId) : Orderly (delete words scope) := by
  rw [delete]
  refine .bind (fun _ => Act.ensures_resolve words) fun x => ?_
  obtain ⟨c, item⟩ := x
  dsimp only
  split
  · exact Calm.orderly fun _ => .throw_bind _ _
  · exact orderly_deleteFrom c item scope

theorem orderly_runPlain (p : Phrase) (scope : ScopeId) : Orderly (runPlain p scope) := by
  rw [runPlain]
  split
  · exact .of_plain fun _ => ensures_trigger p scope
  · exact .of_plain fun _ => .bind (ensures_someParams p scope) fun _ _ => .pure ⟨rfl, rfl⟩
  · exact .of_plain fun _ => .bind (ensures_someParams p scope) fun _ _ => .pure ⟨rfl, rfl⟩
  · exact .of_plain fun _ => .bind (Act.ensures_params p scope) fun _ _ =>
      .bind (Act.ensures_list _) fun _ _ => .pure (.give _)
  · exact .bind (fun _ => Act.ensures_params p scope) fun args => orderly_delete args scope
  · exact .of_plain fun _ => .bind (Act.ensures_params p scope) fun _ _ => .get_bind fun _ _ =>
      .bind (.ofExcept _) fun _ _ => .bind (.forM _ Act.ensures_say) fun _ _ => .pure (.give _)
  · exact .of_plain fun _ => .bind (Act.ensures_params p scope) fun _ _ => ensures_log p _
  · exact Calm.orderly fun _ => .pure rfl
  · exact orderly_setState p scope
  · exact .of_plain fun _ => ensures_readState p scope
  · exact .of_plain fun _ => ensures_send p scope
  · exact .of_plain fun _ => ensures_probe p _ none scope
  · exact Calm.orderly fun _ => .throw _

theorem orderly_run (s : Statement) (scope : ScopeId) : Orderly (run s scope) := by
  unfold run
  split
  · exact orderly_runPlain _ scope
  · refine .of_plain fun _ => ?_
    split
    · exact .bind (Act.ensures_derive _ _ _) fun _ _ => .pure ⟨rfl, rfl⟩
    · exact .bind (Act.ensures_derive _ _ _) fun _ _ =>
        .bind (.update_bare fun _ => rfl) fun _ _ => .pure (.give _)
    · exact .pure ⟨rfl, rfl⟩
  · refine .of_plain fun _ => .bind (Act.ensures_params _ scope) fun _ _ => ?_
    refine .bind (Act.ensures_check _) fun holds _ => ?_
    split
    · exact .pure ⟨rfl, rfl⟩
    · split <;> exact .pure ⟨rfl, rfl⟩
  · exact Calm.orderly fun _ => .bind (states_defineHandler _ _ _ _ _ scope) fun _ => .pure rfl
  · exact Calm.orderly fun _ => .of_even (even_wait _ _ _ scope)
  · exact .of_plain fun _ => ensures_connect _ _ scope
  · refine .of_plain fun _ => ?_
    split
    · exact ensures_probe _ _ _ scope
    · exact .pure ⟨rfl, rfl⟩

/-- Every call begins in an orderly way. -/
theorem begin_orderly (job : Link.JobId) (c : Call) : Orderly (begin job c) := by
  unfold begin
  split
  · exact .of_plain fun _ => ensures_dispatch _
  · exact .of_plain fun _ => .bind (Act.ensures_makeEvent _ _) fun e _ => ensures_dispatch e
  · exact Calm.orderly fun _ => .bind .get fun _ => .of_even (even_goOn states_takeLinks _ _)
  · exact Calm.orderly fun _ => .of_even (even_goOn states_takeLinks _ _)
  · exact orderly_run _ _
  · exact .of_plain fun _ => .pure (plain_runBody _ _)
  · exact Calm.orderly fun _ => .of_even (even_load _)
  · exact Calm.orderly fun _ => .of_even (even_unload _)
  · exact .of_plain fun _ => .pure (plain_unloadAll _)
  · exact Calm.orderly fun _ => .of_even (even_takeDown states_takeLinks (states_clearHandlers _))
  · exact .of_plain fun _ => ensures_close _ job
  · exact .of_plain fun _ => .pure (plain_closeAll _)
  · exact Calm.orderly fun _ => .pure rfl
  · exact Calm.orderly fun _ => .pure rfl
  · exact Calm.orderly fun _ => .pure rfl
  · exact Calm.orderly fun _ => .pure rfl
  · exact Calm.orderly fun _ => .bind .get fun _ => .pure rfl
  · exact Calm.orderly fun _ => .bind .get fun _ => .pure rfl

/-- What is done after a call leaves states alone, unless a change of one ends with it. -/
theorem resume_calm (o : Outcome) {f : Frame} (hf : f.change? = none) : Calm h₀ (resume o f) := by
  cases f with
  | unlock name => cases hf
  | body line rest scope => exact .pure (plain_afterStatement line rest scope o).even
  | step bands r => exact .of_even (even_afterStep states_takeLinks bands r o)
  | raised p =>
    cases o with
    | ok flow => exact .pure rfl
    | error e => exact .throw e
  | waitStarted name token span scope => exact .of_even (even_waitStarted name token span scope o)
  | waited name scope => exact .of_even (even_waited name scope o)
  | result known => exact .pure rfl
  | announced known => exact .bind (ensures_reportOutcome o) fun _ => .pure rfl
  | loadStarted m => exact .of_even (even_loadStarted m o)
  | rolledBack m e => exact .of_even (even_announceModule _ _ rfl)
  | unloadStarted m => exact .bind (ensures_reportOutcome o) fun _ => .pure rfl
  | takenDown m => exact .of_plain (ensures_takenDown m o)
  | unloadAll rest => exact .pure (plain_unloadAll rest).even
  | uninstall m => exact .of_even (even_uninstall (states_clearHandlers m))
  | closing rest => exact .pure (plain_closeAll rest).even
  | closed id => cases o <;> exact .pure rfl
  | shutdownAnnounced =>
    exact .of_plain (.bind states_takeLinks fun _ _ => .pure ⟨rfl, rfl⟩)
  | linksClosed => exact .bind .get fun _ => .pure rfl
  | sent ticket => exact .pure (plain_sent ticket o).even
  | session => exact .pure rfl
  | report line =>
    have hreport (e : ScriptError) : Calm h₀ (do
        Act.update fun h => h.reportError e
        pure .done) :=
      .of_plain (.bind (.update_stays fun h => h.stays_reportError e) fun _ _ => .pure (.give _))
    cases o with
    | ok flow => exact .pure rfl
    | error e => exact hreport _
  | finished => exact .of_plain (.bind (.update_bare fun _ => rfl) fun _ _ => .pure (.give _))

end Strand

end Hearth
