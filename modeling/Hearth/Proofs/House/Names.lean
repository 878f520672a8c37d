import Hearth.Proofs.House.Registries
import Hearth.Proofs.House.Roster
import Hearth.Server
import Mathlib.Algebra.Order.Ring.Int

/-!
# The names of event handlers

An event handler can be given a name, if no other one has it. Otherwise it gets a name made of its
number, and nobody asks whether that is free. So the only event handlers with a name in common are
those that were given none after others had been given the name that they get. The name refers to
the one that was defined first, and that is the one that it deletes.

## Main definitions

* `Outfit.Numbered` : event handlers are listed in the order in which they were defined.

## Main results

* `Outfit.Change.numbered` : they stay in this order, whatever happens.
* `Crowd.handlers_by_name` : which event handlers have a name in common, and which one is deleted.
-/

namespace Hearth

/-! ### Numbers and names -/

/-- Numbers that make the same name are a multiple of `2 ^ 64` apart. -/
theorem Handler.add_le_of_ownName_eq {m n : Nat} (hlt : m < n)
    (hname : Handler.ownName m = Handler.ownName n) : m + 2 ^ 64 ≤ n := by
  have hint : Int64.ofNat m = Int64.ofNat n := by
    simpa only [ownName, List.cons.injEq, and_true, true_and, Token.int.injEq] using hname
  have hbmod : (m : Int).bmod Int64.size = (n : Int).bmod Int64.size := by
    rw [← Int64.toInt_ofNat', ← Int64.toInt_ofNat', hint]
  have hmod : (m : Int) % Int64.size = (n : Int) % Int64.size := by
    rw [← Int.bmod_emod, hbmod, Int.bmod_emod]
  have hsize : (Int64.size : Int) = 2 ^ 64 := rfl
  rw [hsize] at hmod
  omega

namespace Outfit

/-- An event handler was defined before another one, and has not got its name, unless the other one
was given none. -/
structure Before (x y : Handler) : Prop where
  number : x.id < y.id
  name : x.name = y.name → y.name = Handler.ownName y.id

/-- Event handlers are listed in the order in which they were defined. -/
structure Numbered (F : Outfit) : Prop where
  below : ∀ x ∈ F.handlers, x.2.id < F.nextHandler
  ordered : F.handlers.Pairwise fun x y => Before x.2 y.2

variable {F F' : Outfit}

theorem Numbered.of_sublist (hF : F.Numbered) (hsub : F'.handlers.Sublist F.handlers)
    (hnext : F'.nextHandler = F.nextHandler) : F'.Numbered :=
  ⟨fun x hx => hnext ▸ hF.below x (hsub.subset hx), hF.ordered.sublist hsub⟩

/-- Event handlers stay in order. -/
theorem Change.numbered (hchange : Change F F') (hF : F.Numbered) : F'.Numbered := by
  cases hchange with
  | spends => exact ⟨fun x hx => Nat.lt_succ_of_lt (hF.below x hx), hF.ordered⟩
  | @defines y id registry number named added =>
    constructor
    · intro x hx
      rcases List.mem_append.mp hx with hx | hx
      · exact Nat.lt_succ_of_lt (hF.below x hx)
      · rw [List.mem_singleton.mp hx]
        exact number ▸ Nat.lt_succ_self _
    · refine List.pairwise_append.mpr ⟨hF.ordered, List.pairwise_singleton .., ?_⟩
      intro x hx z hz
      rw [List.mem_singleton.mp hz]
      exact ⟨number ▸ hF.below x hx, fun heq => named.resolve_right fun hfree => hfree x hx heq⟩
  | removes => exact hF.of_sublist List.filter_sublist rfl
  | clears => exact hF.of_sublist (List.nil_sublist _) rfl
  | opens | takes | takesAll => exact hF.of_sublist (.refl _) rfl

end Outfit

/-! ### Deleting by name -/

open Fixtures (Staffed handlerWorker)

/-- The name of an event handler refers to the first one that has it. -/
theorem House.handler?_name {h : House} {x : WorkerId × Handler} (hx : x ∈ h.handlers) :
    ∃ before y after, h.handlers = before ++ y :: after ∧ y.2.name = x.2.name ∧
      (∀ z ∈ before, z.2.name ≠ x.2.name) ∧ h.handler? x.2.name = some y := by
  have hfound : (h.handlers.find? fun z => z.2.name == x.2.name).isSome = true :=
    List.find?_isSome.mpr ⟨x, hx, beq_self_eq_true _⟩
  obtain ⟨y, hy⟩ := Option.isSome_iff_exists.mp hfound
  obtain ⟨hname, before, after, hsplit, hbefore⟩ := List.find?_eq_some_iff_append.mp hy
  refine ⟨before, y, after, hsplit, beq_iff_eq.mp hname, fun z hz heq => ?_, ?_⟩
  · have hother := hbefore z hz
    rw [heq, beq_self_eq_true] at hother
    cases hother
  · unfold handler?
    rw [hy]

/-- An event handler is deleted, and its worker with it. -/
theorem Act.runOn_deleteHandler_listed {base : List Registered} {h : House}
    (hstaffed : Staffed base h.fixtures) {before after : List (WorkerId × Handler)}
    {y : WorkerId × Handler} (hsplit : h.handlers = before ++ y :: after) {name : Name}
    (hy : h.handler? name = some y) :
    ∃ registry, (deleteHandler name).runOn h =
        (.ok (), { h with handlers := before ++ after, registry }) ∧
      registry.workers.Perm (base ++ (before ++ after).map handlerWorker) := by
  have hlisted : y ∈ h.handlers := hsplit ▸ List.mem_append_right _ List.mem_cons_self
  have hids := hstaffed.ids_nodup
  change (h.handlers.map (·.1)).Nodup at hids
  rw [hsplit, List.map_append, List.map_cons, List.nodup_middle, List.nodup_cons,
    ← List.map_append] at hids
  have hothers : ∀ z ∈ before ++ after, z.1 ≠ y.1 := fun z hz heq =>
    hids.1 (heq ▸ List.mem_map_of_mem hz)
  have hrest : (before ++ after).filter (·.1 != y.1) = before ++ after :=
    List.filter_eq_self.mpr fun z hz => bne_iff_ne.mpr (hothers z hz)
  have hfilter : h.handlers.filter (·.1 != y.1) = before ++ after := by
    rw [hsplit, List.filter_append, List.filter_cons_of_neg (by simp), ← List.filter_append, hrest]
  obtain ⟨r, hr⟩ := hstaffed.unregister hlisted
  have hone : [y.1] ⊆ h.fixtures.handlers.map (·.1) :=
    List.forall_mem_singleton.mpr (List.mem_map_of_mem hlisted)
  have hwithout := hstaffed.without hone
  refine ⟨h.registry.without [y.1], ?_, hwithout.workers.trans (.of_eq ?_)⟩
  · rw [runOn_deleteHandler hy, hfilter]
    change h.registry.unregister y.1 = _ at hr
    rw [hr]
  · rw [← hfilter]
    refine congrArg (fun l => base ++ l.map handlerWorker) (List.filter_congr fun z _ => ?_)
    by_cases hz : z.1 = y.1 <;> simp [hz]

namespace Crowd

/-! ### Runs -/

theorem Stride.sound {c c' : Crowd} (hs : Stride c c') (hc : c.Sound) : c'.Sound :=
  (hs.turn.passage hc).2

theorem sound_of_strides {c c' : Crowd} (hc : c.Sound) (run : Relation.ReflTransGen Stride c c') :
    c'.Sound := by
  induction run with
  | refl => exact hc
  | tail _ stride ih => exact stride.sound ih

/-- Event handlers and their workers come and go together, throughout a run. -/
theorem staffed_of_strides {base : List Registered} {c c' : Crowd} (hc : c.Sound)
    (hstaffed : Staffed base c.house.fixtures) (run : Relation.ReflTransGen Stride c c') :
    c'.Sound ∧ Staffed base c'.house.fixtures := by
  induction run with
  | refl => exact ⟨hc, hstaffed⟩
  | tail _ stride ih =>
    obtain ⟨⟨d, used, made, rest, -, -, hshift⟩, hsound⟩ := stride.turn.passage ih.1
    exact ⟨hsound, hshift.staffed ih.2⟩

/-- Whatever strands do, starting without event handlers: these are listed in the order in which
they were defined, and two of them have one name only if the later one was given none, and the
earlier one was given the name that it gets, or was itself given none and is `2 ^ 64` definitions
older. To delete by the name of an event handler takes away the first one that has the name, and its
worker, and nothing else. -/
theorem handlers_by_name {bands : Bands} {c c' : Crowd} (sound : c.Sound)
    (built : Registry.Built bands c.house.registry) (handlers : c.house.handlers = [])
    (run : Relation.ReflTransGen Stride c c') :
    (c'.house.handlers.Pairwise fun x y => x.2.id < y.2.id ∧ (x.2.name = y.2.name →
      y.2.name = Handler.ownName y.2.id ∧
        (x.2.name = Handler.ownName x.2.id → x.2.id + 2 ^ 64 ≤ y.2.id))) ∧
    ∀ x ∈ c'.house.handlers, ∃ before y after, c'.house.handlers = before ++ y :: after ∧
      y.2.name = x.2.name ∧ (∀ z ∈ before, z.2.name ≠ x.2.name) ∧
      ∃ registry, (Act.deleteHandler x.2.name).runOn c'.house =
          (.ok (), { c'.house with handlers := before ++ after, registry }) ∧
        registry.workers.Perm
          (c.house.registry.workers ++ (before ++ after).map handlerWorker) := by
  have hnumbered : c'.house.outfit.Numbered := by
    refine Outfit.of_changes Outfit.Change.numbered (changes_of_strides run) ⟨?_, ?_⟩
    · rw [show c.house.outfit.handlers = [] from handlers]
      exact List.forall_mem_nil _
    · rw [show c.house.outfit.handlers = [] from handlers]
      exact .nil
  have hstart : Staffed c.house.registry.workers c.house.fixtures :=
    .of_built (F := c.house.fixtures) built handlers
  obtain ⟨-, hstaffed⟩ := staffed_of_strides sound hstart run
  refine ⟨hnumbered.ordered.imp ?_, fun x hx => ?_⟩
  · intro x y hxy
    exact ⟨hxy.number, fun heq => ⟨hxy.name heq, fun hown =>
      Handler.add_le_of_ownName_eq hxy.number (hown.symm.trans (heq.trans (hxy.name heq)))⟩⟩
  · obtain ⟨before, y, after, hsplit, hname, hfirst, hy⟩ := House.handler?_name hx
    obtain ⟨registry, hrun, hworkers⟩ := Act.runOn_deleteHandler_listed hstaffed hsplit hy
    exact ⟨before, y, after, hsplit, hname, hfirst, registry, hrun, hworkers⟩

/-- One event handler that is given a name is defined, and one that is given none. -/
def definingHandlers : Crowd := ⟨knowingHouse, [.start [] (.body [
  .plain (phraseOf ["load"] .load ["on_event"]),
  .handler (phraseOf ["on"] .handle ["a"]) none (some [.text "door"]) none [],
  .handler (phraseOf ["on"] .handle ["b"]) none none none []] knowingHouse.root)]⟩

/-- Both get the name that they should, and each can be deleted. -/
theorem handlers_by_name_defining :
    let c' := definingHandlers.play (List.replicate 20 0)
    (definingHandlers.Sound ∧ Registry.Built .standard definingHandlers.house.registry ∧
      definingHandlers.house.handlers = [] ∧
      Relation.ReflTransGen Stride definingHandlers c') ∧
    c'.house.handlers.map (·.2.name) = [[.text "door"], Handler.ownName 2] ∧
    ∀ x ∈ c'.house.handlers, ∃ before y after, c'.house.handlers = before ++ y :: after ∧
      y.2.name = x.2.name ∧ (∀ z ∈ before, z.2.name ≠ x.2.name) ∧
      ∃ registry, (Act.deleteHandler x.2.name).runOn c'.house =
          (.ok (), { c'.house with handlers := before ++ after, registry }) ∧
        registry.workers.Perm ((before ++ after).map handlerWorker) := by
  intro c'
  have hsound : definingHandlers.Sound :=
    .of_catalog rfl (List.forall_mem_singleton.mpr (.other rfl nofun)) rfl rfl
  have hrun : Relation.ReflTransGen Stride definingHandlers c' := strides_play _ _
  exact ⟨⟨hsound, .empty, rfl, hrun⟩, by decide +kernel,
    (handlers_by_name hsound .empty rfl hrun).2⟩

/-- Two event handlers with one name: the first was given the name that the second one gets. One of
them is there after that name is deleted. -/
theorem handlers_of_one_name :
    (Server.build .empty default { Settings.standard with modules := ["on_event"] }).toOption.map
      (fun server =>
        let world := (server.world.runText "on a:\n\tname _on 2\non b:\n\tprio 7\n").2
        (world.house.handlers.map (·.2.name),
          (world.runText "del on _on 2\n").2.house.handlers.map fun x => (x.2.id, x.2.name))) =
      some ([Handler.ownName 2, Handler.ownName 2], [(2, Handler.ownName 2)]) := by
  decide +kernel

end Crowd

end Hearth
