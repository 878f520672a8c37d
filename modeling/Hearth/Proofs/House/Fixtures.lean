import Hearth.Proofs.House.Work
import Hearth.Proofs.NameMap
import Hearth.Proofs.Registry

/-!
# What stands in a house

What modules provide stands on one shelf: the verbs that can be used anywhere, the conditions and the
collections, each under its own name. A module writes down what it put there, and takes away just
that. Beside the shelf there are the workers, those of the event handlers among them, and the waits.
All other work leaves these fixtures alone, whatever it does to states and links.

## Main definitions

* `House.shelf` : all that modules can provide, each under its name.
* `House.fixtures` : the fixtures of a house.
* `Fixtures.Gains` : a module put some of its provisions on the shelf.

## Main results

* `Act.runOn_install` : a module puts up what it provides, up to the first name that is taken.
* `Act.fixtures_takeAllAway`, `Act.fixtures_clearHandlers` : what is taken away.
-/

namespace Hearth

/-! ### Registries -/

namespace Registry

/-- A registry without the workers of some numbers. -/
def without (r : Registry) (ids : List WorkerId) : Registry :=
  { r with workers := r.workers.filter fun x => x.id ∉ ids }

variable (r : Registry)

theorem without_nil : r.without [] = r := by
  rw [without, List.filter_eq_self.mpr (by simp)]

theorem without_cons (id : WorkerId) (ids : List WorkerId) :
    r.without (id :: ids) = (r.without [id]).without ids := by
  simp only [without, List.filter_filter]
  congr 1
  refine List.filter_congr fun x _ => ?_
  by_cases hx : x.id = id <;> simp [hx]

/-- After a worker was taken away it is gone, whether it was there or not. -/
theorem unregister_without (id : WorkerId) :
    (match r.unregister id with
      | .ok (_, r') => r'
      | .error _ => r) = r.without [id] := by
  cases hr : r.unregister id with
  | ok x =>
    obtain ⟨w, r'⟩ := x
    have hkeep (x : Registered) : (x.id != id) = decide (x.id ∉ [id]) := by
      by_cases hx : x.id = id <;> simp [hx]
    simp only [of_unregister hr, without, hkeep]
  | error e =>
    have hnone : r.workers.find? (fun x => x.id == id) = none := by
      rw [unregister, get?] at hr
      cases hf : r.workers.find? (fun x => x.id == id) with
      | none => rfl
      | some x => simp [hf] at hr
    rw [without, List.filter_eq_self.mpr]
    intro x hx
    have hne := List.find?_eq_none.mp hnone x hx
    simpa using hne

end Registry

/-! ### The shelf -/

/-- The name that a provision is registered under. -/
def Provision.key : Provision → Installed
  | .verb v => .verb v.name
  | .condition c => .condition c.name
  | .collection c => .collection c.name

/-- A provision under its name. -/
def Provision.entry (x : Provision) : Installed × Provision := (x.key, x)

/-- What a module provides, each under its name, in the order in which it is registered. -/
def Module.stock (m : Module) : List (Installed × Provision) :=
  m.feature.provides.map Provision.entry

namespace House

/-- All that modules can provide: the verbs, the conditions and the collections, each under its
name. -/
def shelf (h : House) : List (Installed × Provision) :=
  h.common.entries.map (fun x => (.verb x.1, .verb x.2)) ++
    h.conditions.entries.map (fun x => (.condition x.1, .condition x.2)) ++
    h.collections.map (fun x => (.collection x.1, .collection x.2))

/-- What a module has written down that it registered, newest first. -/
def record (h : House) (name : Name) : List Installed := (NameMap.get? h.installed name).getD []

end House

/-- The fixtures of a house: what is registered and by whom, the workers, and the waits. -/
structure Fixtures where
  shelf : List (Installed × Provision)
  /-- The verbs that can only be used outside all blocks. -/
  top : WordTable Verb
  catalog : NameMap Module
  loaded : List Module
  record : Name → List Installed
  registry : Registry
  handlers : List (WorkerId × Handler)
  waits : NameMap Waiting
  nextToken : Nat
  now : Nat

/-- The fixtures of a house. -/
def House.fixtures (h : House) : Fixtures where
  shelf := h.shelf
  top := h.top
  catalog := h.catalog
  loaded := h.loaded
  record := h.record
  registry := h.registry
  handlers := h.handlers
  waits := h.waits
  nextToken := h.nextToken
  now := h.now

/-- The fixtures last. -/
theorem House.fixtures_of_bare {h h' : House} (hb : h'.bare = h.bare) : h'.fixtures = h.fixtures :=
  show h'.bare.fixtures = h.bare.fixtures from congrArg House.fixtures hb

instance (F : Fixtures) : House.Lasting (·.fixtures = F) where
  of_bare hb hF := (House.fixtures_of_bare hb).trans hF

namespace Fixtures

/-- The names that are taken. -/
def keys (F : Fixtures) : List Installed := F.shelf.map (·.1)

/-- Some provisions were put on the shelf whose names were free, and the module wrote down their
names. -/
structure Gains (F : Fixtures) (name : Name) (xs : List Provision) (F' : Fixtures) : Prop where
  shelf : F'.shelf.Perm (xs.map Provision.entry ++ F.shelf)
  record : F'.record =
    Function.update F.record name ((xs.map Provision.key).reverse ++ F.record name)
  free : ∀ x ∈ xs, x.key ∉ F.keys
  rest : F' = { F with shelf := F'.shelf, record := F'.record }

namespace Gains

variable {F F₁ F₂ : Fixtures} {name : Name} {xs ys : List Provision}

theorem nil (F : Fixtures) (name : Name) : F.Gains name [] F :=
  ⟨.refl _, (Function.update_eq_self name F.record).symm, by simp, rfl⟩

theorem keys_subset (h : F.Gains name xs F₁) : F.keys ⊆ F₁.keys := by
  intro k hk
  rw [keys, (h.shelf.map _).mem_iff, List.map_append]
  exact List.mem_append_right _ hk

theorem append (h₁ : F.Gains name xs F₁) (h₂ : F₁.Gains name ys F₂) :
    F.Gains name (xs ++ ys) F₂ := by
  refine ⟨?_, ?_, fun x hx => ?_, ?_⟩
  · refine h₂.shelf.trans ((h₁.shelf.append_left _).trans ?_)
    rw [List.map_append, ← List.append_assoc]
    exact List.perm_append_comm.append_right _
  · rw [h₂.record, h₁.record, Function.update_self, Function.update_idem, List.map_append,
      List.reverse_append, List.append_assoc]
  · rcases List.mem_append.mp hx with hx | hx
    · exact h₁.free x hx
    · exact fun hk => h₂.free x hx (h₁.keys_subset hk)
  · rw [h₂.rest, h₁.rest]

end Gains

/-- What a module registered is taken away. -/
def takeAway (F : Fixtures) (name : Name) : Fixtures :=
  { F with
    shelf := F.shelf.filter fun x => x.1 ∉ F.record name
    record := Function.update F.record name [] }

/-- All event handlers are taken away. -/
def clearHandlers (F : Fixtures) : Fixtures :=
  { F with
    handlers := []
    registry := F.registry.without (F.handlers.map (·.1)) }

end Fixtures

/-! ### Registering -/

namespace WordTable

variable {α : Type}

/-- A name that is free is taken, and no other one. -/
theorem register?_cases (t : WordTable α) (name : Name) (x : α) :
    name ∈ t.entries.map (·.1) ∧ t.register? name x = none ∨
      name ∉ t.entries.map (·.1) ∧
        t.register? name x = some { t with entries := NameMap.insert name x t.entries } := by
  unfold register? get?
  cases hx : NameMap.get? t.entries name with
  | none => exact .inr ⟨NameMap.get?_eq_none_iff.mp hx, rfl⟩
  | some y => exact .inl ⟨NameMap.has_iff.mp (by rw [NameMap.has, hx]; rfl), rfl⟩

end WordTable

namespace Act

variable {h : House}

theorem runOn_addVerb (v : Verb) : (addVerb v).runOn h =
    match h.common.register? v.name v with
    | some common => (.ok (), { h with common })
    | none => (.error (.duplicateWord v.name h.common.scope), h) := by
  have hadd : (addVerb v).runOn h = (match h.common.register? v.name v with
    | some common => set { h with common }
    | none => throw (.duplicateWord v.name h.common.scope) : Act Unit).runOn h := rfl
  rw [hadd]
  split <;> rfl

theorem runOn_addCondition (c : Condition) : (addCondition c).runOn h =
    match h.conditions.register? c.name c with
    | some conditions => (.ok (), { h with conditions })
    | none => (.error (.duplicateWord c.name h.conditions.scope), h) := by
  have hadd : (addCondition c).runOn h = (match h.conditions.register? c.name c with
    | some conditions => set { h with conditions }
    | none => throw (.duplicateWord c.name h.conditions.scope) : Act Unit).runOn h := rfl
  rw [hadd]
  split <;> rfl

theorem runOn_addCollection (c : Collection) : (addCollection c).runOn h =
    if NameMap.has h.collections c.name then (.error (.alreadyExists "collection" c.name), h)
    else (.ok (), { h with collections := NameMap.insert c.name c h.collections }) := by
  have hadd : (addCollection c).runOn h = (if NameMap.has h.collections c.name then
      throw (.alreadyExists "collection" c.name)
    else set { h with collections := NameMap.insert c.name c h.collections } : Act Unit).runOn h :=
    rfl
  rw [hadd]
  split <;> rfl

theorem verb_mem_keys {name : Name} :
    .verb name ∈ h.fixtures.keys ↔ name ∈ h.common.entries.map (·.1) := by
  simp [Fixtures.keys, House.fixtures, House.shelf, List.map_append, List.map_map]

theorem condition_mem_keys {name : Name} :
    .condition name ∈ h.fixtures.keys ↔ name ∈ h.conditions.entries.map (·.1) := by
  simp [Fixtures.keys, House.fixtures, House.shelf, List.map_append, List.map_map]

theorem collection_mem_keys {name : Name} :
    .collection name ∈ h.fixtures.keys ↔ name ∈ h.collections.map (·.1) := by
  simp [Fixtures.keys, House.fixtures, House.shelf, List.map_append, List.map_map]

/-- What was put on the shelf is written down. -/
theorem gains_writeDown {x : Provision} {name : Name} {h₁ : House}
    (hshelf : h₁.shelf.Perm (x.entry :: h.shelf)) (hfree : x.key ∉ h.fixtures.keys)
    (hrest : { h₁.fixtures with shelf := h.shelf } = h.fixtures) :
    ∃ h₂, (writeDown name x.key).runOn h₁ = (.ok (), h₂) ∧
      h.fixtures.Gains name [x] h₂.fixtures := by
  have hrecord : h₁.record = h.record := congrArg Fixtures.record hrest
  refine ⟨_, rfl, hshelf, ?_, by simpa using hfree, ?_⟩
  · funext n
    change (NameMap.get? (NameMap.insert name (x.key :: h₁.record name) h₁.installed) n).getD [] = _
    rw [NameMap.get?_insert, Function.update_apply]
    split
    · rw [hrecord]
      rfl
    · exact congrFun hrecord n
  · rw [← hrest]
    rfl

/-- A provision is registered and written down, unless its name is taken. -/
theorem runOn_provide (name : Name) (x : Provision) (h : House) :
    (x.key ∈ h.fixtures.keys ∧ ∃ e, (provide name x).runOn h = (.error e, h)) ∨
      ∃ h', (provide name x).runOn h = (.ok (), h') ∧
        h.fixtures.Gains name [x] h'.fixtures := by
  cases x with
  | verb v =>
    rw [provide, runOn_bind, runOn_addVerb]
    rcases h.common.register?_cases v.name v with ⟨htaken, heq⟩ | ⟨hfree, heq⟩
    · exact .inl ⟨verb_mem_keys.mpr htaken, _, by rw [heq]⟩
    · rw [heq]
      refine .inr (gains_writeDown (x := .verb v) ?_ (fun hk => hfree (verb_mem_keys.mp hk)) rfl)
      exact (((NameMap.insert_perm v hfree).map _).append_right _).append_right _
  | condition c =>
    rw [provide, runOn_bind, runOn_addCondition]
    rcases h.conditions.register?_cases c.name c with ⟨htaken, heq⟩ | ⟨hfree, heq⟩
    · exact .inl ⟨condition_mem_keys.mpr htaken, _, by rw [heq]⟩
    · rw [heq]
      refine .inr (gains_writeDown (x := .condition c) ?_
        (fun hk => hfree (condition_mem_keys.mp hk)) rfl)
      exact ((((NameMap.insert_perm c hfree).map _).append_left _).append_right _).trans
        (List.perm_middle.append_right _)
  | collection c =>
    rw [provide, runOn_bind, runOn_addCollection]
    by_cases htaken : NameMap.has h.collections c.name = true
    · rw [if_pos htaken]
      exact .inl ⟨collection_mem_keys.mpr (NameMap.has_iff.mp htaken), _, rfl⟩
    · rw [if_neg htaken]
      have hfree : c.name ∉ h.collections.map (·.1) := fun hk => htaken (NameMap.has_iff.mpr hk)
      refine .inr (gains_writeDown (x := .collection c) ?_
        (fun hk => hfree (collection_mem_keys.mp hk)) rfl)
      exact (((NameMap.insert_perm c hfree).map _).append_left _).trans List.perm_middle

/-- Provisions are registered in order, up to the first whose name is taken. -/
theorem runOn_provideAll (name : Name) (xs : List Provision) (h : House) :
    ∃ done h', h.fixtures.Gains name done h'.fixtures ∧
      ((done = xs ∧ (xs.forM (provide name)).runOn h = (.ok (), h')) ∨
        ∃ x rest e, xs = done ++ x :: rest ∧ x.key ∈ h'.fixtures.keys ∧
          (xs.forM (provide name)).runOn h = (.error e, h')) := by
  induction xs generalizing h with
  | nil => exact ⟨[], h, .nil _ _, .inl ⟨rfl, rfl⟩⟩
  | cons x xs ih =>
    have hcons : (x :: xs).forM (provide name) =
        provide name x >>= fun _ => xs.forM (provide name) := rfl
    rw [hcons, runOn_bind]
    rcases runOn_provide name x h with ⟨htaken, e, hrun⟩ | ⟨h₁, hrun, hgains⟩
    · rw [hrun]
      exact ⟨[], h, .nil _ _, .inr ⟨x, xs, e, rfl, htaken, rfl⟩⟩
    · rw [hrun]
      obtain ⟨done, h', hmore, ⟨rfl, hok⟩ | ⟨y, rest, e, rfl, htaken, herror⟩⟩ := ih h₁
      · exact ⟨_, h', hgains.append hmore, .inl ⟨rfl, hok⟩⟩
      · exact ⟨_, h', hgains.append hmore, .inr ⟨y, rest, e, rfl, htaken, herror⟩⟩

/-- A module that is no rehearsal's registers what it provides, up to the first whose name is
taken. -/
theorem runOn_install {m : Module} (hm : ∀ x, m.feature ≠ .probe x) (h : House) :
    ∃ done h', h.fixtures.Gains m.name done h'.fixtures ∧
      ((done = m.feature.provides ∧ (install m).runOn h = (.ok (), h')) ∨
        ∃ x rest e, m.feature.provides = done ++ x :: rest ∧ x.key ∈ h'.fixtures.keys ∧
          (install m).runOn h = (.error e, h')) := by
  have hinstall : install m = m.feature.provides.forM (provide m.name) := by
    obtain ⟨name, info, feature⟩ := m
    cases feature with
    | probe x => exact absurd rfl (hm x)
    | _ => rfl
  rw [hinstall]
  exact runOn_provideAll m.name m.feature.provides h

/-! ### Taking away -/

theorem dropVerb_eq (name : Name) (h : House) : dropVerb name h =
    { h with common := { h.common with entries := NameMap.erase h.common.entries name } } := by
  rw [dropVerb, WordTable.unregister?, WordTable.get?]
  cases hx : NameMap.get? h.common.entries name with
  | none => rw [NameMap.erase_eq_self hx]; rfl
  | some v => rfl

theorem dropCondition_eq (name : Name) (h : House) : dropCondition name h =
    { h with
      conditions := { h.conditions with entries := NameMap.erase h.conditions.entries name } } := by
  rw [dropCondition, WordTable.unregister?, WordTable.get?]
  cases hx : NameMap.get? h.conditions.entries name with
  | none => rw [NameMap.erase_eq_self hx]; rfl
  | some v => rfl

/-- One name is taken off the shelf. -/
theorem fixtures_takeAway (h : House) (k : Installed) :
    (takeAway h k).fixtures = { h.fixtures with shelf := h.shelf.filter fun x => x.1 ≠ k } := by
  have hbne (a b : Name) : (a != b) = decide (a ≠ b) := by
    by_cases hab : a = b <;> simp [hab]
  cases k with
  | verb name =>
    rw [takeAway, dropVerb_eq]
    simp [House.fixtures, House.shelf, NameMap.erase, List.filter_map, Function.comp_def, hbne]
    rfl
  | condition name =>
    rw [takeAway, dropCondition_eq]
    simp [House.fixtures, House.shelf, NameMap.erase, List.filter_map, Function.comp_def, hbne]
    rfl
  | collection name =>
    rw [takeAway, dropCollection]
    simp [House.fixtures, House.shelf, NameMap.erase, List.filter_map, Function.comp_def, hbne]
    rfl

theorem fixtures_takeAllAway (name : Name) (h : House) :
    (takeAllAway name h).fixtures = h.fixtures.takeAway name := by
  have hmany (ks : List Installed) (h : House) : (ks.foldl takeAway h).fixtures =
      { h.fixtures with shelf := h.shelf.filter fun x => x.1 ∉ ks } := by
    induction ks generalizing h with
    | nil => simp [House.fixtures]
    | cons k ks ih =>
      have hk := fixtures_takeAway h k
      have hshelf : (takeAway h k).shelf = h.shelf.filter fun x => x.1 ≠ k :=
        congrArg Fixtures.shelf hk
      have hfilter : (h.shelf.filter fun x => x.1 ≠ k).filter (fun x => x.1 ∉ ks) =
          h.shelf.filter fun x => x.1 ∉ k :: ks := by
        rw [List.filter_filter]
        refine List.filter_congr fun x _ => ?_
        by_cases hx : x.1 = k <;> simp [hx]
      rw [List.foldl_cons, ih, hk, hshelf, hfilter]
  have hrecord : House.record { h with installed := NameMap.erase h.installed name } =
      Function.update h.record name [] := by
    funext n
    rw [House.record, NameMap.get?, NameMap.erase, lookup_filter, Function.update_apply]
    split <;> rfl
  rw [takeAllAway, hmany]
  simp only [House.fixtures, hrecord, Fixtures.takeAway]
  rfl

theorem clearHandlers_eq (h : House) : clearHandlers h =
    { h with handlers := [], registry := h.registry.without (h.handlers.map (·.1)) } := by
  have hmany {f : House → WorkerId × Handler → House}
      (hf : ∀ h x, f h x = { h with registry := h.registry.without [x.1] })
      (xs : List (WorkerId × Handler)) (h : House) : xs.foldl f h =
        { h with registry := h.registry.without (xs.map (·.1)) } := by
    induction xs generalizing h with
    | nil => rw [List.map_nil, Registry.without_nil, List.foldl_nil]
    | cons x xs ih =>
      rw [List.foldl_cons, hf, ih]
      exact congrArg (fun registry => { h with registry })
        (Registry.without_cons h.registry x.1 (xs.map (·.1))).symm
  refine hmany (fun h x => ?_) h.handlers { h with handlers := [] }
  rw [← Registry.unregister_without]
  dsimp only
  cases h.registry.unregister x.1 <;> rfl

theorem fixtures_clearHandlers (h : House) :
    (clearHandlers h).fixtures = h.fixtures.clearHandlers := by
  rw [clearHandlers_eq]
  rfl

theorem fixtures_cancelWaits (h : House) :
    (cancelWaits h).fixtures = { h.fixtures with waits := [] } :=
  House.fixtures_of_bare h.stays_cancelWaits.bare

end Act

end Hearth
