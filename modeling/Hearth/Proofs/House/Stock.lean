import Hearth.Proofs.House.Incidents
import Mathlib.Data.List.Nodup

/-!
# What modules have registered

The modules that every house knows provide different things, so what each of them has registered can
be told from its record, whatever the others do: it is the first part of what it provides. The shelf
holds what was there before any of them was loaded, and beside that just what they have registered.
No incident changes this.

## Main definitions

* `Fixtures.own` : what a module has registered.
* `Fixtures.Furnished` : the shelf holds what was there before, and what modules have registered.
* `Turnover` : what can become of what a module has registered.

## Main results

* `Shift.furnished` : this is so after every incident.
* `Shift.turnover` : what becomes of what a module has registered.
-/

namespace Hearth

/-! ### The modules that every house knows -/

namespace Module

/-- All other modules that every house knows. -/
def others (m : Module) : List Module := builtIn.filter (·.name != m.name)

theorem names_nodup : (builtIn.map (·.name)).Nodup := by decide

/-- No two modules provide the same, and no module provides something twice. -/
theorem stock_nodup : ((builtIn.flatMap stock).map (·.1)).Nodup := by decide +kernel

theorem stock_ne_nil : ∀ m ∈ builtIn, m.stock ≠ [] := by
  have hsome : ∀ m ∈ builtIn, m.stock.isEmpty = false := by decide
  intro m hm heq
  have hfalse := hsome m hm
  rw [heq] at hfalse
  cases hfalse

variable {m m' : Module}

/-- A module is known by its name. -/
theorem eq_of_name_eq (hm : m ∈ builtIn) (hm' : m' ∈ builtIn) (h : m.name = m'.name) : m = m' :=
  List.inj_on_of_nodup_map names_nodup hm hm' h

theorem mem_others : m' ∈ m.others ↔ m' ∈ builtIn ∧ m'.name ≠ m.name := by
  rw [others, List.mem_filter, bne_iff_ne]

theorem builtIn_perm (hm : m ∈ builtIn) : builtIn.Perm (m :: m.others) := by
  obtain ⟨as, bs, hsplit⟩ := List.append_of_mem hm
  have hnodup := names_nodup
  rw [hsplit, List.map_append, List.map_cons, List.nodup_middle, List.nodup_cons,
    ← List.map_append] at hnodup
  have hothers : m.others = as ++ bs := by
    rw [others, hsplit, List.filter_append, List.filter_cons_of_neg (by simp), ← List.filter_append]
    refine List.filter_eq_self.mpr fun x hx => bne_iff_ne.mpr fun heq => hnodup.1 ?_
    exact List.mem_map.mpr ⟨x, hx, heq⟩
  rw [hothers, hsplit]
  exact List.perm_middle

/-- Two modules provide nothing of the same name. -/
theorem stock_disjoint (hm : m ∈ builtIn) (hm' : m' ∈ m.others) {x y : Installed × Provision}
    (hx : x ∈ m.stock) (hy : y ∈ m'.stock) : y.1 ≠ x.1 := by
  have hnodup := ((builtIn_perm hm).flatMap_right stock).map (·.1) |>.nodup_iff.mp stock_nodup
  rw [List.flatMap_cons, List.map_append] at hnodup
  have hdisjoint := List.disjoint_of_nodup_append hnodup
  intro heq
  refine hdisjoint (List.mem_map_of_mem hx) ?_
  exact heq ▸ List.mem_map_of_mem (List.mem_flatMap_of_mem hm' hy)

end Module

namespace Fixtures

/-! ### What a module has registered -/

/-- What a module has registered: as much as it wrote down, in the order of what it provides. -/
def own (F : Fixtures) (m : Module) : List (Installed × Provision) :=
  m.stock.take (F.record m.name).length

/-- The shelf holds what was there before, and beside that just what modules have registered; each
of them has written that down, and none of it has the name of something that was there before. -/
structure Furnished (base : List (Installed × Provision)) (F : Fixtures) : Prop where
  shelf : F.shelf.Perm (base ++ Module.builtIn.flatMap F.own)
  record : ∀ m ∈ Module.builtIn, F.record m.name = ((F.own m).map (·.1)).reverse
  apart : ∀ m ∈ Module.builtIn, ∀ x ∈ F.own m, x.1 ∉ base.map (·.1)

variable {base : List (Installed × Provision)} {F F' : Fixtures} {m : Module}
  {done rest : List Provision}

theorem own_eq_of_record (h : F'.record m.name = F.record m.name) : F'.own m = F.own m := by
  rw [own, own, h]

theorem own_subset : F.own m ⊆ m.stock := List.take_subset _ _

namespace Furnished

theorem of_eq (hF : Furnished base F) (hshelf : F'.shelf = F.shelf)
    (hrecord : F'.record = F.record) : Furnished base F' := by
  have hown : F'.own = F.own := funext fun m => own_eq_of_record (congrFun hrecord _)
  constructor
  · rw [hshelf, hown]
    exact hF.shelf
  · rw [hrecord, hown]
    exact hF.record
  · rw [hown]
    exact hF.apart

/-- Only what one module has registered is looked at. -/
theorem of_others (hm : m ∈ Module.builtIn) (hothers : ∀ m' ∈ m.others, F'.own m' = F.own m')
    (hF : Furnished base F) (hrecord : ∀ m' ∈ m.others, F'.record m'.name = F.record m'.name)
    (hshelf : F'.shelf.Perm (base ++ (F'.own m ++ m.others.flatMap F.own)))
    (hown : F'.record m.name = ((F'.own m).map (·.1)).reverse)
    (hapart : ∀ x ∈ F'.own m, x.1 ∉ base.map (·.1)) : Furnished base F' := by
  have hcases {m' : Module} (hm' : m' ∈ Module.builtIn) : m' = m ∨ m' ∈ m.others :=
    List.mem_cons.mp ((Module.builtIn_perm hm).mem_iff.mp hm')
  refine ⟨hshelf.trans (.append_left _ ?_), fun m' hm' => ?_, fun m' hm' => ?_⟩
  · refine .trans (.of_eq ?_) ((Module.builtIn_perm hm).flatMap_right F'.own).symm
    rw [List.flatMap_cons, List.flatMap_congr hothers]
  · rcases hcases hm' with rfl | hother
    · exact hown
    · rw [hrecord m' hother, hothers m' hother]
      exact hF.record m' hm'
  · rcases hcases hm' with rfl | hother
    · exact hapart
    · rw [hothers m' hother]
      exact hF.apart m' hm'

theorem own_eq_nil (hF : Furnished base F) (hm : m ∈ Module.builtIn)
    (hrecord : F.record m.name = []) : F.own m = [] := by
  have hown := hF.record m hm
  rw [hrecord] at hown
  exact List.map_eq_nil_iff.mp (List.reverse_eq_nil_iff.mp hown.symm)

end Furnished

/-! ### Registering -/

/-- A module that has something registered already cannot register anything more: it begins with
what it registered first. -/
theorem Gains.own (hF : Furnished base F) (hm : m ∈ Module.builtIn)
    (hgains : F.Gains m.name done F') (hparts : m.feature.provides = done ++ rest) :
    (F.own m = [] ∨ done = []) ∧ F'.own m = F.own m ++ done.map Provision.entry := by
  have hlength : (F'.record m.name).length = done.length + (F.record m.name).length := by
    rw [hgains.record, Function.update_self]
    simp
  have hstock : m.stock = done.map Provision.entry ++ rest.map Provision.entry := by
    rw [Module.stock, hparts, List.map_append]
  cases hrecord : F.record m.name with
  | nil =>
    refine ⟨.inl (hF.own_eq_nil hm hrecord), ?_⟩
    rw [hF.own_eq_nil hm hrecord, List.nil_append, Fixtures.own, hlength, hrecord, hstock]
    exact List.take_left' (by simp)
  | cons k ks =>
    suffices hdone : done = [] by
      refine ⟨.inr hdone, ?_⟩
      rw [hdone, List.map_nil, List.append_nil, Fixtures.own, Fixtures.own, hlength, hdone]
      simp
    cases done with
    | nil => rfl
    | cons x xs =>
      have hfirst : x.entry ∈ F.own m := by
        rw [Fixtures.own, hstock, hrecord]
        exact .head _
      have hshelf : x.entry ∈ F.shelf := hF.shelf.mem_iff.mpr
        (List.mem_append_right _ (List.mem_flatMap_of_mem hm hfirst))
      exact absurd (List.mem_map_of_mem hshelf) (hgains.free x (.head _))

theorem Gains.furnished (hF : Furnished base F) (hm : m ∈ Module.builtIn)
    (hgains : F.Gains m.name done F') (hparts : m.feature.provides = done ++ rest) :
    Furnished base F' := by
  have hown := (Gains.own hF hm hgains hparts).2
  have hrecord : ∀ m' ∈ m.others, F'.record m'.name = F.record m'.name := fun m' hm' => by
    rw [hgains.record, Function.update_of_ne (Module.mem_others.mp hm').2]
  refine .of_others hm (fun m' hm' => own_eq_of_record (hrecord m' hm')) hF hrecord ?_ ?_ ?_
  · have hbefore : F.shelf.Perm (base ++ (F.own m ++ m.others.flatMap F.own)) :=
      hF.shelf.trans (.append_left _ ((Module.builtIn_perm hm).flatMap_right F.own))
    refine (hgains.shelf.trans (hbefore.append_left _)).trans ?_
    rw [hown, List.append_assoc]
    refine (List.perm_append_comm_assoc _ _ _).trans (.append_left _ ?_)
    exact List.perm_append_comm_assoc _ _ _
  · rw [hgains.record, Function.update_self, hF.record m hm, hown, List.map_append,
      List.reverse_append, List.map_map]
    rfl
  · intro x hx
    rcases List.mem_append.mp (hown ▸ hx) with hx | hx
    · exact hF.apart m hm x hx
    · obtain ⟨y, hy, rfl⟩ := List.mem_map.mp hx
      intro hbase
      refine hgains.free y hy ?_
      rw [keys, (hF.shelf.map _).mem_iff, List.map_append]
      exact List.mem_append_left _ hbase

/-! ### Taking away -/

theorem clear_own (F : Fixtures) (m : Module) : (F.clear m).own m = [] := by
  have hrecord : (F.clear m).record m.name = [] := by
    rw [clear_rest]
    exact Function.update_self ..
  rw [own, hrecord]
  exact List.take_zero

theorem clear_record (F : Fixtures) {m' : Module} (h : m'.name ≠ m.name) :
    (F.clear m).record m'.name = F.record m'.name := by
  rw [clear_rest]
  exact Function.update_of_ne h _ _

/-- What a module has registered is taken away, and nothing else. -/
theorem Furnished.clear (hF : Furnished base F) (hm : m ∈ Module.builtIn) :
    Furnished base (F.clear m) := by
  have hrecord : ∀ m' ∈ m.others, (F.clear m).record m'.name = F.record m'.name :=
    fun m' hm' => clear_record F (Module.mem_others.mp hm').2
  refine .of_others hm (fun m' hm' => own_eq_of_record (hrecord m' hm')) hF hrecord ?_ ?_ ?_
  · have hmem {x : Installed × Provision} :
        x.1 ∈ F.record m.name ↔ x.1 ∈ (F.own m).map (·.1) := by
      rw [hF.record m hm, List.mem_reverse]
    have hshelf : (F.clear m).shelf = F.shelf.filter fun x => x.1 ∉ (F.own m).map (·.1) := by
      rw [clear_rest]
      exact List.filter_congr fun x _ => decide_eq_decide.mpr (not_congr hmem)
    have hbase : (base.filter fun x => x.1 ∉ (F.own m).map (·.1)) = base := by
      refine List.filter_eq_self.mpr fun x hx => decide_eq_true fun hk => ?_
      obtain ⟨y, hy, heq⟩ := List.mem_map.mp hk
      exact hF.apart m hm y hy (heq ▸ List.mem_map_of_mem hx)
    have hgone : ((F.own m).filter fun x => x.1 ∉ (F.own m).map (·.1)) = [] :=
      List.filter_eq_nil_iff.mpr fun x hx => by simpa using ⟨x.2, hx⟩
    have hothers : ((m.others.flatMap F.own).filter fun x => x.1 ∉ (F.own m).map (·.1)) =
        m.others.flatMap F.own := by
      refine List.filter_eq_self.mpr fun x hx => decide_eq_true fun hk => ?_
      obtain ⟨m', hm', hx⟩ := List.mem_flatMap.mp hx
      obtain ⟨y, hy, heq⟩ := List.mem_map.mp hk
      exact Module.stock_disjoint hm hm' (own_subset hy) (own_subset hx) heq.symm
    rw [hshelf, clear_own, List.nil_append]
    refine ((hF.shelf.trans (.append_left _ ((Module.builtIn_perm hm).flatMap_right F.own))).filter
      _).trans (.of_eq ?_)
    rw [List.flatMap_cons, List.filter_append, List.filter_append, hbase, hgone, hothers,
      List.nil_append]
  · rw [clear_own, clear_rest]
    exact Function.update_self ..
  · rw [clear_own]
    exact List.forall_mem_nil _

end Fixtures

/-! ### Incidents -/

section

open Fixtures (Furnished)

variable {base : List (Installed × Provision)} {d : Incident} {F F' : Fixtures}
  {used made : List Mark}

/-- After every incident the shelf holds what was there before any module was loaded, and what
modules have registered. -/
theorem Shift.furnished (hs : Shift d F used F' made)
    (hused : ∀ x ∈ used, ∀ m, x.module? = some m → m ∈ Module.builtIn) (hF : Furnished base F) :
    Furnished base F' := by
  cases hs with
  | loads hgains =>
    have hgained := hgains.furnished hF (hused _ (.head _) _ rfl) (List.append_nil _).symm
    rw [Fixtures.markLoaded_rest]
    exact hgained.of_eq rfl rfl
  | fails hgains hstops => exact hgains.furnished hF (hused _ (.head _) _ rfl) hstops
  | clears m => exact hF.clear (hused _ (.head _) _ rfl)
  | _ => exact hF.of_eq rfl rfl

/-- Is all that a module provides registered by an incident, or none of it any more? -/
def Incident.stocks? (name : Name) : Incident → Option Bool
  | .loads m => if m.name = name then some true else none
  | .clears m => if m.name = name then some false else none
  | _ => none

/-- What becomes of what a module has registered: what it had before and what it has after. -/
inductive Turnover (m : Module) : Incident → List Mark → List (Installed × Provision) →
    List (Installed × Provision) → Prop
  | loads : Turnover m (.loads m) [] [] m.stock
  /-- A load that fails leaves alone what was registered before. -/
  | fails {xs ys : List (Installed × Provision)} (blocked : xs = [] ∨ ys = []) :
    Turnover m (.fails m) [.clearing m] xs (xs ++ ys)
  | clears (xs : List (Installed × Provision)) : Turnover m (.clears m) [] xs []
  | same {d : Incident} (stocks : d.stocks? m.name = none) (made : List Mark)
    (xs : List (Installed × Provision)) : Turnover m d made xs xs

theorem Shift.turnover {m : Module} (hs : Shift d F used F' made)
    (hused : ∀ x ∈ used, ∀ m, x.module? = some m → m ∈ Module.builtIn) (hF : Furnished base F)
    (hm : m ∈ Module.builtIn) : Turnover m d made (F.own m) (F'.own m) := by
  have hsame {d : Incident} {made : List Mark} {F₁ : Fixtures} (hown : F₁.own m = F.own m)
      (hstocks : d.stocks? m.name = none) : Turnover m d made (F.own m) (F₁.own m) :=
    hown ▸ .same hstocks made _
  have hname {m' : Module} (hm' : m' ∈ Module.builtIn) (hne : m ≠ m') : m.name ≠ m'.name :=
    fun heq => hne (Module.eq_of_name_eq hm hm' heq)
  have hother {m' : Module} {F₁ : Fixtures} {xs : List Provision} (hne : m.name ≠ m'.name)
      (hgains : F.Gains m'.name xs F₁) : F₁.own m = F.own m :=
    Fixtures.own_eq_of_record (by rw [hgains.record, Function.update_of_ne hne])
  cases hs with
  | @loads _ F₁ m' hgains =>
    have hm' : m' ∈ Module.builtIn := hused _ (.head _) _ rfl
    have hmarked : (F₁.markLoaded m').own m = F₁.own m := by
      rw [Fixtures.markLoaded_rest]
      rfl
    by_cases hne : m = m'
    · subst hne
      obtain ⟨hfree, hown⟩ := hgains.own hF hm (List.append_nil _).symm
      have hprovides : m.feature.provides ≠ [] := fun heq => Module.stock_ne_nil m hm (by
        rw [Module.stock, heq]
        rfl)
      have hnone := hfree.resolve_right hprovides
      rw [hmarked, hown, hnone, List.nil_append]
      exact .loads
    · exact hsame (hmarked.trans (hother (hname hm' hne) hgains)) (if_neg (hname hm' hne).symm)
  | @fails _ F₁ m' done rest x hgains hstops =>
    have hm' : m' ∈ Module.builtIn := hused _ (.head _) _ rfl
    by_cases hne : m = m'
    · subst hne
      obtain ⟨hfree, hown⟩ := hgains.own hF hm hstops
      rw [hown]
      exact .fails (hfree.imp_right fun hdone => by rw [hdone]; rfl)
    · exact hsame (hother (hname hm' hne) hgains) rfl
  | clears _ m' =>
    have hm' : m' ∈ Module.builtIn := hused _ (.head _) _ rfl
    by_cases hne : m = m'
    · subst hne
      rw [Fixtures.clear_own]
      exact .clears _
    · exact hsame (Fixtures.own_eq_of_record (Fixtures.clear_record F (hname hm' hne)))
        (if_neg (hname hm' hne).symm)
  | _ => exact hsame rfl rfl

end

end Hearth
