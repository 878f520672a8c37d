import Hearth.Proofs.House.Calls

/-!
# The outfit of a house

The outfit of a house are its workers, its event handlers and its links. It changes in a few ways
only, and so do the states: what modules put on the shelf, which modules are loaded and which waits
there are has nothing to do with them. Here are the parts of work, beside those that leave alone all
that lasts, that leave the outfit and the states alone.

## Main definitions

* `House.outfit` : the outfit of a house.
* `House.SameStates` : two houses with the same states and locks.
* `House.Untouched`, `House.Steady` : outfit and states are the same, and properties of these alone.
* `House.Stateless` : properties for which states do not matter.

## Main results

* `Act.ensures_install`, `Act.ensures_takeLoaded`, … : work on modules and waits.
* `Act.ensures_setState`, `Act.ensures_deleteState` : work on states.
-/

namespace Hearth

/-- The workers of a house, its event handlers, and its links. -/
structure Outfit where
  registry : Registry
  handlers : List (WorkerId × Handler)
  /-- The number of the next event handler. -/
  nextHandler : Nat
  links : NameMap QueueId
  /-- How many queues were started. -/
  queues : Nat

/-- Two houses have the same states and the same locks. -/
structure House.SameStates (h h' : House) : Prop where
  store : h'.store = h.store
  changing : h'.changing = h.changing

namespace House

/-- The outfit of a house. -/
def outfit (h : House) : Outfit where
  registry := h.registry
  handlers := h.handlers
  nextHandler := h.nextHandler
  links := h.links
  queues := h.queues.length

namespace SameStates

variable {h h₁ h₂ : House}

theorem refl (h : House) : h.SameStates h := ⟨rfl, rfl⟩

theorem trans (h₁₂ : h.SameStates h₁) (h₂₃ : h₁.SameStates h₂) : h.SameStates h₂ :=
  ⟨h₂₃.store.trans h₁₂.store, h₂₃.changing.trans h₁₂.changing⟩

theorem state? (hsame : h.SameStates h₁) (name : Name) : h₁.state? name = h.state? name := by
  rw [House.state?, House.state?, hsame.store]

/-- All that lasts of a house includes its states. -/
theorem of_bare (hb : h₁.bare = h.bare) : h.SameStates h₁ :=
  ⟨show h₁.bare.store = h.bare.store from congrArg House.store hb,
    show h₁.bare.changing = h.bare.changing from congrArg House.changing hb⟩

end SameStates

/-- Two houses have the same outfit and the same states. -/
structure Untouched (h h' : House) : Prop where
  outfit : h'.outfit = h.outfit
  states : h.SameStates h'

namespace Untouched

variable {h h₁ h₂ : House}

theorem refl (h : House) : h.Untouched h := ⟨rfl, .refl h⟩

theorem trans (h₁₂ : h.Untouched h₁) (h₂₃ : h₁.Untouched h₂) : h.Untouched h₂ :=
  ⟨h₂₃.outfit.trans h₁₂.outfit, h₁₂.states.trans h₂₃.states⟩

theorem foldl {α : Type} {f : House → α → House}
    (hf : ∀ (h : House) (x : α), h.Untouched (f h x)) (l : List α) (h : House) :
    h.Untouched (l.foldl f h) := by
  induction l generalizing h with
  | nil => exact .refl h
  | cons x l ih => exact (hf h x).trans (ih _)

theorem of_stays (hs : h.Stays h₁) : h.Untouched h₁ := by
  refine ⟨?_, .of_bare hs.bare⟩
  have hregistry := congrArg registry hs.bare
  have hhandlers := congrArg handlers hs.bare
  have hnext := congrArg nextHandler hs.bare
  dsimp only [bare] at hregistry hhandlers hnext
  rw [House.outfit, House.outfit, hregistry, hhandlers, hnext, hs.links, hs.queues]

end Untouched

/-- A property of a house that only depends on its outfit and its states. -/
class Steady (p : House → Prop) : Prop where
  of_untouched : ∀ {h h' : House}, h.Untouched h' → p h → p h'

/-- A property of a house for which its states do not matter. -/
class Stateless (p : House → Prop) : Prop where
  of_states : ∀ {h : House} (store : Store) (files : Files) (changing : List Name),
    p h → p { h with store, files, changing }

instance (p : House → Prop) [Steady p] : Staying p where
  of_stays hs := Steady.of_untouched (.of_stays hs)

instance (h₀ : House) : Steady h₀.SameStates where
  of_untouched hu hh := hh.trans hu.states

instance (h₀ : House) : Lasting h₀.SameStates where
  of_bare hb hh := hh.trans (.of_bare hb)

instance (F : Outfit) : Steady (·.outfit = F) where
  of_untouched hu hF := hu.outfit.trans hF

instance (F : Outfit) : Stateless (·.outfit = F) where
  of_states _ _ _ hF := hF

end House

open House (Staying Steady Stateless)

namespace Act

variable {p : House → Prop}

/-! ### Modules -/

section

variable [Steady p]

namespace Ensures

theorem set_untouched {h h' : House} (hh : p h) (hu : h.Untouched h') :
    (MonadStateOf.set h' : Act PUnit).Upholds p := .set (Steady.of_untouched hu hh)

theorem update_untouched {f : House → House} (hf : ∀ h : House, h.Untouched (f h)) :
    (Act.update f).Upholds p := .update fun h => Steady.of_untouched (hf h)

end Ensures

theorem ensures_addVerb (v : Verb) : (addVerb v).Upholds p := by
  rw [addVerb]
  refine .get_bind fun h hh => ?_
  split
  · exact .set_untouched hh ⟨rfl, rfl, rfl⟩
  · exact .throw _

theorem ensures_addCondition (c : Condition) : (addCondition c).Upholds p := by
  rw [addCondition]
  refine .get_bind fun h hh => ?_
  split
  · exact .set_untouched hh ⟨rfl, rfl, rfl⟩
  · exact .throw _

theorem ensures_addCollection (c : Collection) : (addCollection c).Upholds p := by
  rw [addCollection]
  refine .get_bind fun h hh => ?_
  split
  · exact .throw _
  · exact .set_untouched hh ⟨rfl, rfl, rfl⟩

theorem ensures_provide (module : Name) (x : Provision) : (provide module x).Upholds p := by
  have hwrite (x : Installed) : (writeDown module x).Upholds p :=
    .update_untouched fun _ => ⟨rfl, rfl, rfl⟩
  cases x with
  | verb v => exact .bind (ensures_addVerb v) fun _ _ => hwrite _
  | condition c => exact .bind (ensures_addCondition c) fun _ _ => hwrite _
  | collection c => exact .bind (ensures_addCollection c) fun _ _ => hwrite _

omit [Steady p] in
/-- What a probe does last when it is loaded or unloaded. -/
theorem ensures_fault (fault : Option String) : Upholds p (do
    if let some text := fault then throw (.usage text) : Act Unit) := by
  cases fault with
  | none => exact .pure trivial
  | some text => exact .throw _

theorem ensures_install (m : Module) : (install m).Upholds p := by
  rw [install]
  split
  · refine .bind (.update_untouched fun _ => ⟨rfl, rfl, rfl⟩) fun _ _ => ?_
    dsimp only
    split
    · exact .bind (ensures_addVerb _) fun _ _ => ensures_fault _
    · exact ensures_fault _
  · exact .forM _ fun x => ensures_provide _ x

theorem untouched_dropVerb (name : Name) (h : House) : h.Untouched (dropVerb name h) := by
  rw [dropVerb]
  split
  · exact ⟨rfl, rfl, rfl⟩
  · exact .refl h

theorem untouched_dropCondition (name : Name) (h : House) :
    h.Untouched (dropCondition name h) := by
  rw [dropCondition]
  split
  · exact ⟨rfl, rfl, rfl⟩
  · exact .refl h

theorem untouched_takeAllAway (module : Name) (h : House) :
    h.Untouched (takeAllAway module h) := by
  have hstart : h.Untouched { h with installed := NameMap.erase h.installed module } :=
    ⟨rfl, rfl, rfl⟩
  refine hstart.trans (.foldl (fun h x => ?_) _ _)
  cases x with
  | verb name => exact untouched_dropVerb name h
  | condition name => exact untouched_dropCondition name h
  | collection name => exact ⟨rfl, rfl, rfl⟩

theorem untouched_cancelWaits (h : House) : h.Untouched (cancelWaits h) := by
  have hstart : h.Untouched { h with waits := [] } := ⟨rfl, rfl, rfl⟩
  exact hstart.trans (.of_stays h.stays_cancelWaits)

/-- Undoing what a module did takes all event handlers away if it is that of the handlers. -/
theorem ensures_uninstall {m : Module}
    (hclear : m.feature = .handlers → ∀ h, p h → p (clearHandlers h)) :
    (uninstall m).Upholds p := by
  unfold uninstall
  split
  · refine .bind (.update_untouched fun _ => ⟨rfl, rfl, rfl⟩) fun _ _ => ?_
    dsimp only
    split
    · exact .bind (.update_untouched (untouched_dropVerb _)) fun _ _ => ensures_fault _
    · exact ensures_fault _
  · next hm =>
    exact .update fun h hh => Steady.of_untouched (untouched_takeAllAway _ _) (hclear hm h hh)
  · exact .update_untouched fun h => (untouched_cancelWaits h).trans (untouched_takeAllAway _ _)
  · exact .update_untouched (untouched_takeAllAway _)

theorem untouched_markLoaded (m : Module) (h : House) : h.Untouched (markLoaded m h) := by
  rw [markLoaded]
  split
  · exact .refl h
  · exact ⟨rfl, rfl, rfl⟩

theorem ensures_takeLoaded (name : Name) : (takeLoaded name).Upholds p := by
  rw [takeLoaded]
  refine .get_bind fun h hh => ?_
  split
  · exact .bind (.set_untouched hh ⟨rfl, rfl, rfl⟩) fun _ _ => .pure trivial
  · exact .throw _

/-! ### Waits -/

theorem ensures_startWait (name : Name) (span : Span) : (startWait name span).Upholds p := by
  rw [startWait]
  refine .get_bind fun h hh => ?_
  split
  · exact .throw_bind _ _
  · exact .bind ensures_readClock fun _ _ =>
      .perform fun h hh => Steady.of_untouched (h := h) ⟨rfl, rfl, rfl⟩ hh

theorem ensures_endWait (name : Name) : (perform (endWait name)).Upholds p := by
  refine .perform fun h hh => Steady.of_untouched (h := h) ?_ hh
  rw [endWait]
  split
  · exact ⟨rfl, rfl, rfl⟩
  · exact .refl h

end

/-! ### States -/

section

variable [Stateless p]

theorem ensures_lockState (name : Name) (value : Token) : (lockState name value).Upholds p := by
  rw [lockState]
  refine .get_bind fun h hh => ?_
  split
  · exact .throw _
  · exact .set (Stateless.of_states h.store h.files _ hh)

theorem ensures_unlockState (name : Name) : (update (unlockState name)).Upholds p :=
  .update fun h hh => Stateless.of_states h.store h.files _ hh

theorem ensures_changeStore
    (f : Files → Store → Store × Files × Except StoreError (Option Record)) :
    (changeStore f).Upholds p := by
  rw [changeStore]
  refine .get_bind fun h hh => ?_
  obtain ⟨store, files, r⟩ := f h.files h.store
  refine .bind (.set (Stateless.of_states store files h.changing hh)) fun _ _ => ?_
  cases r with
  | ok x => exact .pure trivial
  | error e => exact .throw _

theorem ensures_changeState (name : Name) (value : Token)
    (f : Files → Store → Store × Files × Except StoreError (Option Record)) :
    (changeState name value f).Upholds p :=
  .bind (ensures_lockState name value) fun _ _ => .tryCatch (ensures_changeStore f) fun _ =>
    .bind (ensures_unlockState name) fun _ _ => .throw _

variable [Staying p]

omit [Stateless p] in
theorem ensures_changeEvent (name : Name) (scope : ScopeId) (old new : Token) :
    (changeEvent name scope old new).Upholds p :=
  .bind (ensures_derive _ _ _) fun _ _ => ensures_makeEvent _ _

theorem ensures_setState (name : Name) (value : Token) (scope : ScopeId) :
    (setState name value scope).Upholds p := by
  rw [setState]
  refine .get_bind fun h hh => ?_
  dsimp only
  split
  · exact .pure trivial
  · refine .bind ensures_readClock fun _ _ => .bind (ensures_changeState _ _ _) fun _ _ => ?_
    rw [map_eq_pure_bind]
    exact .bind (ensures_changeEvent _ _ _ _) fun _ _ => .pure trivial

theorem ensures_deleteState (name : Name) (scope : ScopeId) :
    (deleteState name scope).Upholds p := by
  rw [deleteState]
  refine .get_bind fun h hh => ?_
  split
  · exact .throw _
  · exact .bind (ensures_changeState _ _ _) fun _ _ => ensures_changeEvent _ _ _ _

end

end Act

end Hearth
