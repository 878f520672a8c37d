import Hearth.Proofs.House.Outfit
import Hearth.Proofs.Scopes.Isolation
import Hearth.Proofs.Store.Records

/-!
# Changing one state

When a state is given another value, or its value is taken away, the state is locked, the value is
stored, and an event is made that announces the change, with the old and the new value in its scope.
A state that is locked already is refused, and one whose value could not be stored is unlocked
again.

## Main definitions

* `changeWords` : the words of the event that announces a change.
* `House.Announces` : one state is changed and locked, and an event says so.
* `Act.Changing` : all that the beginning of a change can come to.

## Main results

* `Act.runOn_changeState` : locking and storing.
* `Act.changing_setState`, `Act.changing_deleteState` : what a change does.
-/

namespace Hearth

/-- The value of a state, or what stands for none. -/
def House.value (h : House) (name : Name) : Token := (h.state? name).getD Act.noValue

/-- The words of the event that announces the change of a state. -/
def changeWords (name : Name) : Name := .text "state" :: .text "change" :: name

/-! ### Scopes of new events -/

namespace Scopes

/-- A new scope has the two variables that it is made with. -/
theorem lookup_derive (s : Scopes) (scope : ScopeId) (extra : Option ScopeId) (a b : Json) :
    let r := s.derive scope extra [("old", a), ("new", b)]
    r.2.lookup r.1 "old" = some a ∧ r.2.lookup r.1 "new" = some b := by
  refine ⟨lookup_own ?_, lookup_own ?_⟩
  · rw [derive, get_add]
    rfl
  · rw [derive, get_add]
    rfl

end Scopes

/-! ### Changing a state -/

/-- One state was changed and is locked, and an event says so, with the old and the new value. -/
structure House.Announces (h : House) (name : Name) (e : Event) (h' : House) : Prop where
  free : name ∉ h.changing
  locked : h'.changing = name :: h.changing
  changed : h'.state? name ≠ h.state? name
  others : ∀ other, other ≠ name → h'.state? other = h.state? other
  words : e.name = changeWords name
  old : h'.scopes.lookup e.scope "old" = some (h.value name).toValue
  new : h'.scopes.lookup e.scope "new" = some (h'.value name).toValue

theorem House.SameStates.value {h h₁ : House} (hsame : h.SameStates h₁) (name : Name) :
    h₁.value name = h.value name := by
  rw [House.value, House.value, hsame.state?]

theorem House.Announces.of_same {h₀ h h' : House} {name : Name} {e : Event}
    (hsame : h₀.SameStates h) (ha : h.Announces name e h') : h₀.Announces name e h' where
  free := hsame.changing ▸ ha.free
  locked := hsame.changing ▸ ha.locked
  changed := hsame.state? name ▸ ha.changed
  others := fun other hother => (ha.others other hother).trans (hsame.state? other)
  words := ha.words
  old := hsame.value name ▸ ha.old
  new := ha.new

namespace Act

/-- The event that announces a change knows both values. -/
theorem exists_changeEvent (name : Name) (scope : ScopeId) (old new : Token) (h : House) :
    ∃ e h', (changeEvent name scope old new).runOn h = (.ok e, h') ∧ h.SameStates h' ∧
      e.name = changeWords name ∧
      h'.scopes.lookup e.scope "old" = some old.toValue ∧
      h'.scopes.lookup e.scope "new" = some new.toValue :=
  ⟨_, _, rfl, ⟨rfl, rfl⟩, rfl,
    Scopes.lookup_derive h.scopes scope none old.toValue new.toValue⟩

variable {name : Name} {value : Token} {scope : ScopeId} {h : House}

/-- What a change of the store does when the state is not locked. -/
def stored (name : Name)
    (f : Files → Store → Store × Files × Except StoreError (Option Record)) (h : House) : House :=
  { h with
    changing := name :: h.changing
    store := (f h.files h.store).1
    files := (f h.files h.store).2.1 }

theorem runOn_lockState : (lockState name value).runOn h =
    if h.isChanging name then (.error (.external (.stateLocked name value)), h)
    else (.ok (), { h with changing := name :: h.changing }) := by
  have hlock : (lockState name value).runOn h =
      (if h.isChanging name then throw (.external (.stateLocked name value))
        else set { h with changing := name :: h.changing } : Act Unit).runOn h := rfl
  rw [hlock]
  split <;> rfl

theorem runOn_changeStore
    (f : Files → Store → Store × Files × Except StoreError (Option Record)) :
    (changeStore f).runOn h =
      (match (f h.files h.store).2.2 with
        | .ok _ => .ok ()
        | .error e => .error (.external (.store e)),
        { h with store := (f h.files h.store).1, files := (f h.files h.store).2.1 }) := by
  have hstore : (changeStore f).runOn h =
      (match (f h.files h.store).2.2 with
        | .ok _ => pure ()
        | .error e => throw (.external (.store e)) : Act Unit).runOn
        { h with store := (f h.files h.store).1, files := (f h.files h.store).2.1 } := rfl
  rw [hstore]
  rcases (f h.files h.store).2.2 with e | r <;> rfl

/-- A state that is locked is not changed. Otherwise it is locked and the store is changed; the
lock is taken back if that fails. -/
theorem runOn_changeState
    (f : Files → Store → Store × Files × Except StoreError (Option Record)) :
    (changeState name value f).runOn h =
      if h.isChanging name then (.error (.external (.stateLocked name value)), h)
      else
        match (f h.files h.store).2.2 with
        | .ok _ => (.ok (), stored name f h)
        | .error e => (.error (.external (.store e)), unlockState name (stored name f h)) := by
  rw [changeState, runOn_bind, runOn_lockState]
  by_cases hlocked : h.isChanging name = true
  · rw [if_pos hlocked, if_pos hlocked]
  · rw [if_neg hlocked, if_neg hlocked]
    dsimp only
    rw [runOn_tryCatch, runOn_changeStore]
    dsimp only
    rcases (f h.files h.store).2.2 with e | r <;> rfl

/-- Reading the clock. -/
theorem runOn_readClock_bind {α : Type} (b : Timestamp → Act α) :
    (perform House.readClock >>= b).runOn h = (b h.clock).runOn h.readClock.2 := by
  rw [runOn_bind]
  rfl

/-! ### Setting and deleting -/

theorem isChanging_iff : h.isChanging name = true ↔ name ∈ h.changing := List.contains_iff_mem

/-- A state that was given a value has it, and the others are as before. -/
theorem state?_insertRecord (h h' : House) {r : Record}
    (hrecords : h'.store.records =
      Store.insertRecord (House.stateCategory, name) r h.store.records) (other : Name) :
    h'.state? other = if other = name then some r.value else h.state? other := by
  rw [House.state?, Store.get?, hrecords, Store.lookup_insertRecord]
  by_cases hother : other = name
  · rw [if_pos hother, if_pos (hother ▸ rfl)]
    rfl
  · rw [if_neg hother, if_neg fun hkey => hother (Prod.mk.inj hkey).2]
    rfl

/-- A state whose value was taken away has none, and the others are as before. -/
theorem state?_filter (h h' : House)
    (hrecords : h'.store.records =
      h.store.records.filter (·.1 != (House.stateCategory, name))) (other : Name) :
    h'.state? other = if other = name then none else h.state? other := by
  rw [House.state?, Store.get?, hrecords, lookup_filter]
  by_cases hother : other = name
  · rw [if_pos hother, if_pos (hother ▸ rfl)]
    rfl
  · rw [if_neg hother, if_neg fun hkey => hother (Prod.mk.inj hkey).2]
    rfl

/-- When a state is locked and another value is stored, the change is announced. -/
theorem exists_announces (scope : ScopeId) {new : Option Token} (h₁ : House)
    (hfree : h.isChanging name = false) (hlocked : h₁.changing = name :: h.changing)
    (hstored : ∀ other, h₁.state? other = if other = name then new else h.state? other)
    (hne : h.state? name ≠ new) :
    ∃ e h', (changeEvent name scope (h.value name) (new.getD noValue)).runOn h₁ = (.ok e, h') ∧
      h.Announces name e h' := by
  obtain ⟨e, h', hrun, hsame, hwords, hold, hnew⟩ :=
    exists_changeEvent name scope (h.value name) (new.getD noValue) h₁
  have hstates (other : Name) : h'.state? other = if other = name then new else h.state? other :=
    (hsame.state? other).trans (hstored other)
  have hself : h'.state? name = new := (hstates name).trans (if_pos rfl)
  refine ⟨e, h', hrun, ?_⟩
  exact {
    free := fun hmem => by simp [isChanging_iff.mpr hmem] at hfree
    locked := hsame.changing.trans hlocked
    changed := hself ▸ hne.symm
    others := fun other hother => (hstates other).trans (if_neg hother)
    words := hwords
    old := hold
    new := by rw [hnew, House.value, hself] }

/-- What the beginning of a change of a state comes to, up to the event that announces it. -/
inductive Changing (h : House) (name : Name) (value : Token) :
    Except ScriptError Event × House → Prop
  | locked {h' : House} (hlocked : h.isChanging name = true) (hstates : h.SameStates h') :
    Changing h name value (.error (.external (.stateLocked name value)), h')
  | unstored (hfree : h.isChanging name = false) (e : StoreError) (h' : House) :
    Changing h name value (.error (.external (.store e)), h')
  | changed {e : Event} {h' : House} (hannounces : h.Announces name e h') :
    Changing h name value (.ok e, h')

theorem changing (value : Token) (scope : ScopeId) (new : Option Token)
    (f : Files → Store → Store × Files × Except StoreError (Option Record))
    (hstored : ∀ other,
      (stored name f h).state? other = if other = name then new else h.state? other)
    (hne : h.state? name ≠ new) :
    Changing h name value ((do
      changeState name value f
      changeEvent name scope (h.value name) (new.getD noValue)).runOn h) := by
  rw [runOn_bind, runOn_changeState]
  by_cases hlocked : h.isChanging name = true
  · rw [if_pos hlocked]
    exact .locked hlocked (.refl h)
  · rw [if_neg hlocked]
    rcases (f h.files h.store).2.2 with e | r
    · exact .unstored (Bool.not_eq_true _ ▸ hlocked) e _
    · obtain ⟨e, h', hrun, hannounces⟩ := exists_announces scope (stored name f h)
        (Bool.not_eq_true _ ▸ hlocked) rfl hstored hne
      dsimp only
      rw [hrun]
      exact .changed hannounces

theorem Changing.of_same {h₀ : House} (hsame : h₀.SameStates h)
    {r : Except ScriptError Event × House} (hr : Changing h name value r) :
    Changing h₀ name value r := by
  have hchanging : h₀.isChanging name = h.isChanging name :=
    congrArg (·.contains name) hsame.changing.symm
  cases hr with
  | locked hlocked hstates => exact .locked (hchanging.trans hlocked) (hsame.trans hstates)
  | unstored hfree e h' => exact .unstored (hchanging.trans hfree) e h'
  | changed hannounces => exact .changed (hannounces.of_same hsame)

theorem runOn_map {α β : Type} (g : α → β) (a : Act α) :
    (g <$> a).runOn h = ((a.runOn h).1.map g, (a.runOn h).2) := by
  rw [map_eq_pure_bind, runOn_bind]
  rcases a.runOn h with ⟨_ | x, h'⟩ <;> rfl

theorem runOn_setState : (setState name value scope).runOn h =
    (if h.state? name == some value then pure none
    else do
      let changed ← perform House.readClock
      changeState name value fun f s => s.set f House.stateCategory name ⟨value, changed⟩
      some <$> changeEvent name scope (h.value name) value).runOn h := rfl

theorem runOn_deleteState : (deleteState name scope).runOn h =
    (match h.state? name with
      | none => throw (.notFound "state" name)
      | some old => do
        changeState name noValue fun f s => s.delete f House.stateCategory name
        changeEvent name scope old noValue : Act Event).runOn h := rfl

theorem setState_same (hsame : h.state? name = some value) :
    (setState name value scope).runOn h = (.ok none, h) := by
  rw [runOn_setState, if_pos (beq_iff_eq.mpr hsame)]
  rfl

/-- A state that has another value, or none, is given a value. -/
theorem changing_setState (scope : ScopeId) (hne : h.state? name ≠ some value) :
    ∃ r, (setState name value scope).runOn h = (r.1.map some, r.2) ∧ Changing h name value r := by
  have hclock : h.SameStates h.readClock.2 := ⟨rfl, rfl⟩
  rw [runOn_setState, if_neg (by simpa using hne), runOn_readClock_bind, ← map_bind, runOn_map,
    ← hclock.value name]
  have hstored (other : Name) := state?_insertRecord h.readClock.2
    (stored name (fun f s => s.set f House.stateCategory name ⟨value, h.clock⟩) h.readClock.2)
    (Store.records_set _ _ _ _ _) other
  exact ⟨_, rfl, .of_same hclock
    (changing value scope (some value) _ hstored (hclock.state? name ▸ hne))⟩

/-- The value of a state is taken away. -/
theorem changing_deleteState (scope : ScopeId) {old : Token} (hold : h.state? name = some old) :
    Changing h name noValue ((deleteState name scope).runOn h) := by
  have hvalue : h.value name = old := by rw [House.value, hold, Option.getD_some]
  rw [runOn_deleteState, hold]
  dsimp only
  rw [← hvalue]
  have hstored (other : Name) := state?_filter h
    (stored name (fun f s => s.delete f House.stateCategory name) h)
    (Store.records_delete _ _ _ _) other
  exact changing noValue scope none _ hstored (hold ▸ Option.some_ne_none old)

theorem deleteState_none (hnone : h.state? name = none) :
    (deleteState name scope).runOn h = (.error (.notFound "state" name), h) := by
  rw [runOn_deleteState, hnone]
  rfl

end Act

/-- A state cannot be changed: to give it another value, or to take its value away, fails and leaves
all values as they are. -/
structure House.Refuses (h : House) (name : Name) : Prop where
  set : ∀ value scope, h.state? name ≠ some value →
    ∃ h', (Act.setState name value scope).runOn h =
      (.error (.external (.stateLocked name value)), h') ∧ h.SameStates h'
  delete : ∀ scope, h.state? name ≠ none →
    ∃ h', (Act.deleteState name scope).runOn h =
      (.error (.external (.stateLocked name Act.noValue)), h') ∧ h.SameStates h'

/-- A state that is locked cannot be changed. -/
theorem House.refuses {h : House} {name : Name} (hlocked : h.isChanging name = true) :
    h.Refuses name where
  set value scope hne := by
    obtain ⟨r, hrun, hr⟩ := Act.changing_setState scope hne
    cases hr with
    | locked _ hstates => exact ⟨_, hrun, hstates⟩
    | unstored hfree => exact absurd (hlocked.symm.trans hfree) nofun
    | changed hannounces => exact absurd (Act.isChanging_iff.mp hlocked) hannounces.free
  delete scope hsome := by
    obtain ⟨old, hold⟩ := Option.ne_none_iff_exists'.mp hsome
    have hr := Act.changing_deleteState scope hold
    generalize (Act.deleteState name scope).runOn h = r at hr
    cases hr with
    | locked _ hstates => exact ⟨_, rfl, hstates⟩
    | unstored hfree => exact absurd (hlocked.symm.trans hfree) nofun
    | changed hannounces => exact absurd (Act.isChanging_iff.mp hlocked) hannounces.free

end Hearth
