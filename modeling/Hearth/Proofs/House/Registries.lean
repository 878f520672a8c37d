import Hearth.Proofs.House.Loads

/-!
# Registries and what is loaded

As long as no two requests to load or unload a module overlap, the registries are a function of what
is loaded: they hold what was there before, what the modules provide that are listed as loaded, and
the workers of the event handlers that exist. A load that fails leaves no trace, whatever it is that
takes a name that it needs.

## Main definitions

* `Crowd.Separate` : at most one request is in progress.
* `Fixtures.Staffed` : the workers are those from before and those of the event handlers.

## Main results

* `Shift.staffed` : event handlers and their workers come and go together.
* `Crowd.registries_follow_loads` : what the registries hold after each request.
-/

namespace Hearth

/-! ### Event handlers and their workers -/

namespace Fixtures

/-- The worker of an event handler. -/
def handlerWorker (x : WorkerId × Handler) : Registered := ⟨x.1, .handler x.2⟩

/-- The workers are those that were there before and those of the event handlers, and no two of them
have the same number. -/
structure Staffed (base : List Registered) (F : Fixtures) : Prop where
  workers : F.registry.workers.Perm (base ++ F.handlers.map handlerWorker)
  distinct : (F.registry.workers.map (·.id)).Nodup
  used : ∀ x ∈ F.registry.workers, x.id.value < F.registry.next

variable {base : List Registered} {F F' : Fixtures}

namespace Staffed

/-- Before there are event handlers. -/
theorem of_built {bands : Bands} (built : Registry.Built bands F.registry)
    (hnone : F.handlers = []) : Staffed F.registry.workers F := by
  refine ⟨.of_eq ?_, built.distinct, built.ordered.used⟩
  rw [hnone, List.map_nil, List.append_nil]

theorem of_eq (hF : Staffed base F) (hregistry : F'.registry = F.registry)
    (hhandlers : F'.handlers = F.handlers) : Staffed base F' :=
  ⟨hregistry ▸ hhandlers ▸ hF.workers, hregistry ▸ hF.distinct, hregistry ▸ hF.used⟩

/-- An event handler and its worker come. -/
theorem defines (hF : Staffed base F) {x : Handler} {id : WorkerId} {registry : Registry}
    (added : F.registry.register (.handler x) = .ok (id, registry)) :
    Staffed base { F with registry, handlers := F.handlers ++ [(id, x)] } := by
  obtain ⟨rfl, rfl⟩ := Registry.of_register added
  have hplace := Registry.place_perm ⟨⟨F.registry.next⟩, .handler x⟩ F.registry.workers
  refine ⟨?_, ?_, fun y hy => ?_⟩
  · rw [List.map_append, ← List.append_assoc]
    exact (hplace.trans (hF.workers.cons _)).trans (List.perm_append_singleton _ _).symm
  · refine (hplace.map _).nodup_iff.mpr (List.nodup_cons.mpr ⟨fun hmem => ?_, hF.distinct⟩)
    obtain ⟨y, hy, hid⟩ := List.mem_map.mp hmem
    have hused := hF.used y hy
    rw [hid] at hused
    exact Nat.lt_irrefl _ hused
  · rcases Registry.mem_place.mp hy with rfl | hy
    · exact Nat.lt_succ_self _
    · exact Nat.lt_succ_of_lt (hF.used y hy)

/-- Some event handlers go, and their workers with them. -/
theorem without (hF : Staffed base F) {ids : List WorkerId} (hids : ids ⊆ F.handlers.map (·.1)) :
    Staffed base { F with
      registry := F.registry.without ids
      handlers := F.handlers.filter fun x => x.1 ∉ ids } := by
  have hdisjoint := (hF.workers.map (·.id)).nodup_iff.mp hF.distinct
  rw [List.map_append, List.map_map] at hdisjoint
  have hbase : (base.filter fun x => x.id ∉ ids) = base := by
    refine List.filter_eq_self.mpr fun x hx => decide_eq_true fun hid => ?_
    exact List.disjoint_of_nodup_append hdisjoint (List.mem_map_of_mem hx) (hids hid)
  refine ⟨?_, hF.distinct.sublist (List.filter_sublist.map _), fun x hx =>
    hF.used x (List.mem_filter.mp hx).1⟩
  refine (hF.workers.filter _).trans (.of_eq ?_)
  rw [List.filter_append, hbase, List.filter_map]
  rfl

/-- No two event handlers have the same worker. -/
theorem ids_nodup (hF : Staffed base F) : (F.handlers.map (·.1)).Nodup := by
  have hids := (hF.workers.map (·.id)).nodup_iff.mp hF.distinct
  rw [List.map_append, List.map_map] at hids
  exact hids.of_append_right

theorem mem_workers (hF : Staffed base F) {x : WorkerId × Handler} (hx : x ∈ F.handlers) :
    handlerWorker x ∈ F.registry.workers :=
  hF.workers.mem_iff.mpr (List.mem_append_right _ (List.mem_map_of_mem hx))

/-- The worker of an event handler can be taken away. -/
theorem unregister (hF : Staffed base F) {x : WorkerId × Handler} (hx : x ∈ F.handlers) :
    ∃ r, F.registry.unregister x.1 = .ok r := by
  have hfound : (F.registry.workers.find? fun w => w.id == x.1).isSome = true :=
    List.find?_isSome.mpr ⟨_, hF.mem_workers hx, beq_self_eq_true _⟩
  rw [Registry.unregister, Registry.get?]
  cases hfind : F.registry.workers.find? fun w => w.id == x.1 with
  | none => rw [hfind] at hfound; cases hfound
  | some w => exact ⟨_, rfl⟩

end Staffed

/-- Clearing a module away leaves the event handlers alone, or takes all of them away. -/
theorem clear_handlers (F : Fixtures) (m : Module) :
    ((F.clear m).registry = F.registry ∧ (F.clear m).handlers = F.handlers) ∨
      (F.clear m).registry = F.registry.without (F.handlers.map (·.1)) ∧
        (F.clear m).handlers = [] := by
  rw [clear]
  split
  · exact .inr ⟨rfl, rfl⟩
  · exact .inl ⟨rfl, rfl⟩
  · exact .inl ⟨rfl, rfl⟩

end Fixtures

section

open Fixtures (Staffed)

variable {d : Incident} {F F' : Fixtures} {used made : List Mark}

/-- Event handlers and their workers come and go together. -/
theorem Shift.staffed {base : List Registered} (hs : Shift d F used F' made)
    (hF : Staffed base F) : Staffed base F' := by
  cases hs with
  | loads hgains =>
    rw [Fixtures.markLoaded_rest, hgains.rest]
    exact hF.of_eq rfl rfl
  | fails hgains =>
    rw [hgains.rest]
    exact hF.of_eq rfl rfl
  | clears _ m =>
    rcases Fixtures.clear_handlers F m with ⟨hregistry, hhandlers⟩ | ⟨hregistry, hhandlers⟩
    · exact hF.of_eq hregistry hhandlers
    · have hnone : (F.handlers.filter fun x => x.1 ∉ F.handlers.map (·.1)) = [] :=
        List.filter_eq_nil_iff.mpr fun x hx => by simpa using ⟨x.2, hx⟩
      exact (hF.without (List.Subset.refl _)).of_eq hregistry (hhandlers.trans hnone.symm)
  | defines hadded => exact hF.defines hadded
  | @removes _ y hlisted =>
    have hids := List.forall_mem_singleton.mpr (List.mem_map_of_mem (f := (·.1)) hlisted)
    refine (hF.without hids).of_eq rfl (List.filter_congr fun x _ => ?_)
    by_cases hx : x.1 = y.1 <;> simp [hx]
  | _ => exact hF.of_eq rfl rfl

/-- No module is loaded twice. -/
theorem Shift.loaded_nodup (hs : Shift d F used F' made) (hF : (F.loaded.map (·.name)).Nodup) :
    (F'.loaded.map (·.name)).Nodup := by
  cases hs with
  | @loads _ F₁ m hgains =>
    have hsame : F₁.loaded = F.loaded := by rw [hgains.rest]
    rw [Fixtures.markLoaded]
    split
    · rwa [hsame]
    · next hnew =>
      rw [List.map_append, hsame]
      refine List.nodup_append.mpr ⟨hF, List.nodup_singleton _, fun n hn n' hn' heq => ?_⟩
      obtain ⟨x, hx, rfl⟩ := List.mem_map.mp hn
      refine hnew (List.any_eq_true.mpr ⟨x, hsame ▸ hx, ?_⟩)
      exact beq_iff_eq.mpr (heq.trans (List.mem_singleton.mp hn'))
  | fails hgains =>
    rw [hgains.rest]
    exact hF
  | unloads => exact hF.sublist (List.filter_sublist.map _)
  | clears =>
    rw [Fixtures.clear_rest]
    exact hF
  | _ => exact hF

/-- What puts a module on the list ends a request to load it. -/
theorem Shift.of_lists {name : Name} (hs : Shift d F used F' made)
    (hd : d.lists? name = some true) :
    ∃ m, m.name = name ∧ used = [.loading m] ∧ made = [] := by
  cases hs with
  | loads =>
    rw [Incident.lists?] at hd
    split at hd
    · next hname => exact ⟨_, hname, rfl, rfl⟩
    · cases hd
  | unloads =>
    rw [Incident.lists?] at hd
    split at hd <;> cases hd
  | _ => cases hd

/-- What takes away all that a module has registered ends a request. -/
theorem Shift.of_unstocks {name : Name} (hs : Shift d F used F' made)
    (hd : d.stocks? name = some false) : ∃ m, m.name = name ∧ .clearing m ∈ used := by
  cases hs with
  | loads =>
    rw [Incident.stocks?] at hd
    split at hd <;> cases hd
  | clears _ m =>
    rw [Incident.stocks?] at hd
    split at hd
    · next hname => exact ⟨m, hname, .head _⟩
    · cases hd
  | _ => cases hd

/-- What a strand is in the middle of doing to a module comes from what it was in the middle of
before, from the catalog, or from the list of loaded modules. -/
theorem Shift.module_cases (hs : Shift d F used F' made) {x : Mark} {m : Module} (hx : x ∈ made)
    (hm : x.module? = some m) : (∃ y ∈ used, y.module? = some m) ∨
      (∃ name, NameMap.get? F.catalog name = some m ∧ F.isLoaded name = false) ∨
      d.lists? m.name = some false := by
  have hone {y : Mark} (hy : x ∈ [y]) : y.module? = some m := by
    rwa [← List.mem_singleton.mp hy]
  cases hs with
  | quiet => exact .inl ⟨x, hx, hm⟩
  | requests hknown hunloaded =>
    cases hone hx
    exact .inr (.inl ⟨_, hknown, hunloaded⟩)
  | fails | undoes =>
    have hsame := hone hx
    exact .inl ⟨_, .head _, hsame⟩
  | unloads =>
    cases hone hx
    exact .inr (.inr (if_pos rfl))
  | starts | waits => cases hone hx
  | _ => cases hx

end

namespace Crowd

open Fixtures (Staffed handlerWorker)

/-- At most one request to load or unload a module is in progress. -/
def Separate (c : Crowd) : Prop := (c.marks.filter (·.module?.isSome)).length ≤ 1

instance (c : Crowd) : Decidable c.Separate := inferInstanceAs (Decidable (_ ≤ 1))

/-- What holds as long as requests do not overlap: a module that is loaded has all that it provides
registered, and nothing is being done to it. -/
structure Settled (base : List Registered) (ds : List Incident) (c : Crowd) : Prop where
  stocked : ∀ m ∈ Module.builtIn, c.house.fixtures.isLoaded m.name = true →
    Incident.verdict (·.stocks? m.name) ds = true ∧ c.Spares m
  loaded : (c.house.fixtures.loaded.map (·.name)).Nodup
  staffed : Staffed base c.house.fixtures

variable {c c' : Crowd} {d : Incident} {ds : List Incident}

/-- Beside the request that is in progress there is no other one. -/
theorem Separate.alone (hc : c.Separate) {x : Mark} {rest : List Mark}
    (hmarks : c.marks.Perm (x :: rest)) (hx : x.module?.isSome = true) :
    ∀ y ∈ rest, y.module? = none := by
  rw [Separate, (hmarks.filter _).length_eq, List.filter_cons, if_pos hx, List.length_cons] at hc
  have hnone : (rest.filter (·.module?.isSome)) = [] := List.length_eq_zero_iff.mp (by omega)
  intro y hy
  simpa using List.filter_eq_nil_iff.mp hnone y hy

theorem Passage.settled {shelf : List (Installed × Provision)} {base : List Registered}
    (hp : Passage c d c') (hk : Kept shelf ds c) (hsep : c.Separate) (hc : Settled base ds c) :
    Settled base (ds ++ [d]) c' := by
  obtain ⟨used, made, rest, hbefore, hafter, hshift⟩ := hp
  refine ⟨fun m hm hloaded => ?_, hshift.loaded_nodup hc.loaded, hshift.staffed hc.staffed⟩
  rw [Incident.verdict_snoc]
  rw [hshift.isLoaded] at hloaded
  have hmodule {x : Mark} {m' : Module} (hx : x ∈ used) (hm' : x.module? = some m')
      (hname : m'.name = m.name) : m' = m :=
    Module.eq_of_name_eq (hk.sound.marks x (hbefore.mem_iff.mpr (List.mem_append_left _ hx)) m' hm')
      hm hname
  cases hlists : d.lists? m.name with
  | some b =>
    rw [hlists] at hloaded
    obtain rfl : b = true := hloaded
    obtain ⟨m', hname, rfl, rfl⟩ := hshift.of_lists hlists
    obtain rfl := hmodule (.head _) rfl hname
    refine ⟨by rw [Incident.lists_iff_stocks.mp hlists]; rfl, fun x hx => ?_⟩
    rw [hsep.alone hbefore rfl x (hafter.mem_iff.mp hx)]
    exact nofun
  | none =>
    rw [hlists] at hloaded
    obtain ⟨hstocked, hspares⟩ := hc.stocked m hm hloaded
    refine ⟨?_, fun x hx hx' => ?_⟩
    · cases hstocks : d.stocks? m.name with
      | none => exact hstocked
      | some b =>
        cases b with
        | true => rfl
        | false =>
          obtain ⟨m', hname, hused⟩ := hshift.of_unstocks hstocks
          obtain rfl := hmodule hused rfl hname
          exact absurd rfl (hspares _ (hbefore.mem_iff.mpr (List.mem_append_left _ hused)))
    · rcases List.mem_append.mp (hafter.mem_iff.mp hx) with hmade | hrest
      · rcases hshift.module_cases hmade hx' with ⟨y, hy, hy'⟩ | ⟨name, hknown, hunloaded⟩ | hlisted
        · exact hspares y (hbefore.mem_iff.mpr (List.mem_append_left _ hy)) hy'
        · obtain rfl := (hk.sound.catalog name m hknown).2
          rw [hunloaded] at hloaded
          cases hloaded
        · rw [hlists] at hlisted
          cases hlisted
      · exact hspares x (hbefore.mem_iff.mpr (List.mem_append_right _ hrest)) hx'

/-- What modules have registered is what those provide that are loaded. -/
theorem own_perm_loaded {F : Fixtures} (hknown : ∀ m ∈ F.loaded, m ∈ Module.builtIn)
    (hnodup : (F.loaded.map (·.name)).Nodup)
    (hown : ∀ m ∈ Module.builtIn, F.own m = if F.isLoaded m.name then m.stock else []) :
    (Module.builtIn.flatMap F.own).Perm (F.loaded.flatMap Module.stock) := by
  have hfilter : ∀ l : List Module, (∀ m ∈ l, m ∈ Module.builtIn) →
      l.flatMap F.own = (l.filter fun m => F.isLoaded m.name).flatMap Module.stock := by
    intro l hl
    induction l with
    | nil => rfl
    | cons m l ih =>
      obtain ⟨hm, hl⟩ := List.forall_mem_cons.mp hl
      rw [List.flatMap_cons, hown m hm, ih hl, List.filter_cons]
      split <;> rfl
  have hloaded : F.loaded.Perm (Module.builtIn.filter fun m => F.isLoaded m.name) := by
    refine (List.perm_ext_iff_of_nodup hnodup.of_map (Module.names_nodup.of_map.filter _)).mpr ?_
    intro m
    rw [List.mem_filter]
    constructor
    · exact fun hm => ⟨hknown m hm, List.any_eq_true.mpr ⟨m, hm, beq_self_eq_true _⟩⟩
    · rintro ⟨hm, hlisted⟩
      obtain ⟨m', hm', hname⟩ := List.any_eq_true.mp hlisted
      exact Module.eq_of_name_eq (hknown m' hm') hm (beq_iff_eq.mp hname) ▸ hm'
  rw [hfilter _ fun m hm => hm]
  exact (hloaded.flatMap_right _).symm

/-- Whatever was registered before modules were loaded and unloaded, one request after the other, and
whatever event handlers came and went: after each request the shelf holds what was there before and
what the modules provide that are listed as loaded, the verbs outside all blocks are the same, and the
workers are those from before and those of the event handlers. A module is listed if it was loaded
since it was last unloaded; a load that fails is none. -/
theorem registries_follow_loads {bands : Bands} {c c' : Crowd} (start : c.Blank)
    (handlers : c.house.handlers = []) (built : Registry.Built bands c.house.registry)
    (run : Relation.ReflTransGen (fun c c' => Turn c c' ∧ c'.Separate) c c')
    (done : ∀ m, c'.Spares m) :
    c'.house.shelf.Perm (c.house.shelf ++ c'.house.loaded.flatMap Module.stock) ∧
      c'.house.top = c.house.top ∧
      c'.house.registry.workers.Perm
        (c.house.registry.workers ++ c'.house.handlers.map handlerWorker) ∧
      ∃ ds, Story c ds c' ∧ ∀ m ∈ Module.builtIn,
        c'.house.isLoaded m.name = Incident.verdict (·.lists? m.name) ds := by
  have hstart : Settled c.house.registry.workers [] c := by
    refine ⟨fun m _ hloaded => ?_, ?_, .of_built (F := c.house.fixtures) built handlers⟩
    · rw [start.kept.loaded m ‹_›] at hloaded
      cases hloaded
    · rw [show c.house.fixtures.loaded = [] from start.loaded]
      exact .nil
  obtain ⟨ds, hstory, hk, hsettled, -, htop⟩ : ∃ ds, Story c ds c' ∧ Kept c.house.shelf ds c' ∧
      Settled c.house.registry.workers ds c' ∧ c'.Separate ∧ c'.house.top = c.house.top := by
    clear done
    induction run with
    | refl => exact ⟨[], .nil c, start.kept, hstart, by rw [Separate, start.idle]; decide, rfl⟩
    | tail _ turn ih =>
      obtain ⟨ds, hstory, hk, hsettled, hsep, htop⟩ := ih
      obtain ⟨⟨d, hpassage⟩, hsound⟩ := turn.1.passage hk.sound
      refine ⟨ds ++ [d], hstory.snoc turn.1 hpassage, hpassage.kept hsound hk,
        hpassage.settled hk hsep hsettled, turn.2, ?_⟩
      obtain ⟨used, made, rest, -, -, hshift⟩ := hpassage
      exact hshift.lasting.2.trans htop
  have hown : ∀ m ∈ Module.builtIn, c'.house.fixtures.own m =
      if c'.house.fixtures.isLoaded m.name then m.stock else [] := by
    intro m hm
    rw [(hk.own m hm).resolve_right fun h => done m _ h.1 rfl]
    have hiff : c'.house.fixtures.isLoaded m.name = true ↔
        Incident.verdict (·.stocks? m.name) ds = true := by
      refine ⟨fun hloaded => (hsettled.stocked m hm hloaded).1, fun hstocked => ?_⟩
      rcases hk.listed m hm hstocked with hloaded | hmark | hmark
      · exact hloaded
      · exact absurd rfl (done m _ hmark)
      · exact absurd rfl (done m _ hmark)
    simp only [hiff]
  refine ⟨?_, htop, hsettled.staffed.workers, ds, hstory, hk.loaded⟩
  exact hk.furnished.shelf.trans
    (.append_left _ (own_perm_loaded hk.sound.loaded hsettled.loaded hown))

/-- An event handler is defined, and then the module `bool` is loaded, although there is a condition
with a name that it needs. -/
def clashingLoads : Crowd :=
  let taken : Condition := .probe ⟨[.text "false"], "taken", true, none⟩
  let conditions := ⟨"conditions", [(taken.name, taken)]⟩
  ⟨{ knowingHouse with conditions }, [.start [] (.body [
    .plain (phraseOf ["load"] .load ["on_event"]),
    .handler (phraseOf ["on"] .handle ["door", "opens"]) none none none [],
    .plain (phraseOf ["load"] .load ["bool"])] knowingHouse.root)]⟩

theorem blank_clashingLoads : clashingLoads.Blank where
  sound := .of_catalog rfl (List.forall_mem_singleton.mpr (.other rfl nofun)) rfl rfl
  idle := rfl
  loaded := rfl
  installed := rfl

/-- The condition is still there after the load failed, and so is the event handler. -/
theorem registries_follow_loads_clashing :
    let c' := clashingLoads.play (List.replicate 23 0)
    (clashingLoads.Blank ∧ clashingLoads.house.handlers = [] ∧
      Registry.Built .standard clashingLoads.house.registry ∧
      Relation.ReflTransGen (fun c c' => Turn c c' ∧ c'.Separate) clashingLoads c' ∧
      ∀ m, c'.Spares m) ∧
    c'.house.loaded.map (·.name) = [[.text "on_event"]] ∧ c'.house.handlers.length = 1 ∧
    c'.house.shelf.Perm (clashingLoads.house.shelf ++ c'.house.loaded.flatMap Module.stock) ∧
      c'.house.top = clashingLoads.house.top ∧
      c'.house.registry.workers.Perm
        (clashingLoads.house.registry.workers ++ c'.house.handlers.map handlerWorker) ∧
      ∃ ds, Story clashingLoads ds c' ∧ ∀ m ∈ Module.builtIn,
        c'.house.isLoaded m.name = Incident.verdict (·.lists? m.name) ds := by
  intro c'
  have hrun : Relation.ReflTransGen (fun c c' => Turn c c' ∧ c'.Separate) clashingLoads c' :=
    reach_play clashingLoads _ (by decide +kernel)
  have hmarks : c'.marks = [] := List.isEmpty_iff.mp (by decide +kernel)
  have hdone : ∀ m, c'.Spares m := fun m x hx => by
    rw [hmarks] at hx
    cases hx
  exact ⟨⟨blank_clashingLoads, rfl, .empty, hrun, hdone⟩, by decide +kernel, by decide +kernel,
    registries_follow_loads blank_clashingLoads rfl .empty hrun hdone⟩

end Crowd

end Hearth
