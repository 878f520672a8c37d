import Hearth.Proofs.House.Crowds
import Hearth.Proofs.House.Stock

/-!
# Loads that overlap

Loading a module takes several steps, and so does unloading it, and between them other strands can
load and unload the same module. What comes of that is told by the story of all turns: the list of
loaded modules follows the loads that succeed and the unloads that are requested, and what a module
has registered follows the loads that succeed and the clearings, whichever load or unload it is that
a clearing belongs to. The two need not agree.

## Main definitions

* `Crowd.Blank` : a crowd in whose house no module was ever loaded.
* `Incident.lists?`, `Incident.stocks?` : what an incident makes of a module.

## Main results

* `Crowd.overlapping_loads` : what a house holds after any loads and unloads of modules.
* `Crowd.loaded_without_stock` : a module that is loaded and has nothing registered.
-/

namespace Hearth

/-- Is a module put on the list of loaded modules by an incident, or taken off it? -/
def Incident.lists? (name : Name) : Incident → Option Bool
  | .loads m => if m.name = name then some true else none
  | .unloads m => if m.name = name then some false else none
  | _ => none

/-- What is true at the end of a story, if each incident can decide it. -/
def Incident.verdict (decides : Incident → Option Bool) (ds : List Incident) : Bool :=
  ds.foldl (fun b d => (decides d).getD b) false

theorem Incident.verdict_snoc (decides : Incident → Option Bool) (ds : List Incident)
    (d : Incident) :
    verdict decides (ds ++ [d]) = (decides d).getD (verdict decides ds) := by
  rw [verdict, List.foldl_append]
  rfl

section

variable {d : Incident} {F F' : Fixtures} {used made : List Mark} {m : Module}

/-- The list of loaded modules follows the loads and the unloads. -/
theorem Shift.isLoaded (hs : Shift d F used F' made) (name : Name) :
    F'.isLoaded name = (d.lists? name).getD (F.isLoaded name) := by
  cases hs with
  | @loads _ F₁ m hgains =>
    have hsame : F₁.isLoaded name = F.isLoaded name := by
      rw [Fixtures.isLoaded, hgains.rest]
      rfl
    rw [Incident.lists?, ← hsame, Fixtures.markLoaded]
    by_cases hname : m.name = name
    · subst hname
      rw [if_pos rfl]
      split
      · next hloaded => exact hloaded
      · simp [Fixtures.isLoaded]
    · rw [if_neg hname]
      split
      · rfl
      · simp [Fixtures.isLoaded, hname]
  | fails hgains =>
    rw [Fixtures.isLoaded, hgains.rest]
    rfl
  | @unloads _ m =>
    rw [Incident.lists?, Fixtures.isLoaded, List.any_filter]
    by_cases hname : m.name = name
    · subst hname
      rw [if_pos rfl]
      exact List.any_eq_false.mpr fun x _ => by simp
    · rw [if_neg hname]
      refine congrArg (F.loaded.any ·) (funext fun x => ?_)
      by_cases hx : x.name = name
      · simp [hx, Ne.symm hname]
      · simp [hx]
  | clears =>
    rw [Fixtures.clear_rest]
    rfl
  | _ => rfl

/-- A module that is taken off the list is then unloaded. -/
theorem Shift.unlists {name : Name} (hs : Shift d F used F' made)
    (hd : d.lists? name = some false) :
    ∃ m ∈ F.loaded, m.name = name ∧ .unloading m ∈ made := by
  cases hs with
  | loads =>
    rw [Incident.lists?] at hd
    split at hd <;> cases hd
  | unloads hm =>
    rw [Incident.lists?] at hd
    split at hd
    · next hname => exact ⟨_, hm, hname, .head _⟩
    · cases hd
  | _ => cases hd

/-- What registers all that a module provides puts it on the list, and nothing else does. -/
theorem Incident.lists_iff_stocks {name : Name} :
    d.lists? name = some true ↔ d.stocks? name = some true := by
  cases d with
  | loads m => exact Iff.rfl
  | unloads m =>
    rw [Incident.lists?]
    split <;> exact ⟨nofun, nofun⟩
  | clears m =>
    rw [Incident.stocks?]
    split <;> exact ⟨nofun, nofun⟩
  | _ => exact ⟨nofun, nofun⟩

/-- That a module is to be cleared away is forgotten only when that is done. -/
theorem Shift.clearing (hs : Shift d F used F' made) (hm : .clearing m ∈ used) :
    .clearing m ∈ made ∨ d = .clears m := by
  cases hs with
  | quiet => exact .inl hm
  | clears =>
    cases List.mem_singleton.mp hm
    exact .inr rfl
  | _ => simp at hm

/-- A module that is unloaded is then cleared away. -/
theorem Shift.unloading (hs : Shift d F used F' made) (hm : .unloading m ∈ used) :
    .unloading m ∈ made ∨ .clearing m ∈ made := by
  cases hs with
  | quiet => exact .inl hm
  | undoes =>
    cases List.mem_singleton.mp hm
    exact .inr (.head _)
  | _ => simp at hm

end

namespace Crowd

open Fixtures (Furnished)

/-- A crowd in whose house no module was ever loaded, and that is in the middle of nothing. -/
structure Blank (c : Crowd) : Prop where
  sound : c.Sound
  idle : c.marks = []
  loaded : c.house.loaded = []
  installed : c.house.installed = []

/-- Is no strand in the middle of loading or unloading a module? -/
def Spares (c : Crowd) (m : Module) : Prop := ∀ x ∈ c.marks, x.module? ≠ some m

/-- What a story says about the modules that are loaded, and what they have registered. -/
structure Kept (base : List (Installed × Provision)) (ds : List Incident) (c : Crowd) : Prop where
  sound : c.Sound
  furnished : Furnished base c.house.fixtures
  own : ∀ m ∈ Module.builtIn,
    c.house.fixtures.own m = (if Incident.verdict (·.stocks? m.name) ds then m.stock else []) ∨
      .clearing m ∈ c.marks ∧ Incident.verdict (·.stocks? m.name) ds = false
  loaded : ∀ m ∈ Module.builtIn,
    c.house.fixtures.isLoaded m.name = Incident.verdict (·.lists? m.name) ds
  listed : ∀ m ∈ Module.builtIn, Incident.verdict (·.stocks? m.name) ds = true →
    c.house.fixtures.isLoaded m.name = true ∨ .unloading m ∈ c.marks ∨ .clearing m ∈ c.marks

theorem Blank.kept {c : Crowd} (hc : c.Blank) : Kept c.house.shelf [] c := by
  have hrecord (name : Name) : c.house.fixtures.record name = [] := by
    change c.house.record name = []
    rw [House.record, hc.installed]
    rfl
  have hown (m : Module) : c.house.fixtures.own m = [] := by
    rw [Fixtures.own, hrecord]
    exact List.take_zero
  have hloaded (name : Name) : c.house.fixtures.isLoaded name = false := by
    change c.house.loaded.any _ = false
    rw [hc.loaded]
    rfl
  refine ⟨hc.sound, ⟨.of_eq ?_, fun m _ => ?_, fun m _ => ?_⟩, fun m _ => .inl (hown m),
    fun m _ => hloaded _, fun m _ hstocked => absurd hstocked Bool.false_ne_true⟩
  · rw [List.flatMap_eq_nil_iff.mpr fun m _ => hown m, List.append_nil]
    rfl
  · rw [hown, hrecord]
    rfl
  · rw [hown]
    exact List.forall_mem_nil _

/-- Some strand is in the middle of taking a module down. -/
def Sheds (c : Crowd) (m : Module) : Prop := .unloading m ∈ c.marks ∨ .clearing m ∈ c.marks

/-- A module that is being taken down is so until all that it registered is cleared away. -/
theorem Passage.sheds {c c' : Crowd} {d : Incident} (hp : Passage c d c') {m : Module}
    (hm : c.Sheds m) : c'.Sheds m ∨ d = .clears m := by
  obtain ⟨used, made, rest, hbefore, hafter, hshift⟩ := hp
  have hcases {x : Mark} (hx : x ∈ c.marks) : x ∈ used ∨ x ∈ c'.marks :=
    (List.mem_append.mp (hbefore.mem_iff.mp hx)).imp_right fun hx =>
      hafter.mem_iff.mpr (List.mem_append_right _ hx)
  have hmade {x : Mark} (hx : x ∈ made) : x ∈ c'.marks :=
    hafter.mem_iff.mpr (List.mem_append_left _ hx)
  rcases hm with hm | hm
  · rcases hcases hm with hused | hstays
    · exact .inl ((hshift.unloading hused).imp hmade hmade)
    · exact .inl (.inl hstays)
  · rcases hcases hm with hused | hstays
    · exact (hshift.clearing hused).imp_left fun hx => .inr (hmade hx)
    · exact .inl (.inr hstays)

/-- A module that is loaded stays so until it is being taken down. -/
theorem Passage.holds {c c' : Crowd} {d : Incident} (hp : Passage c d c') (hc : c.Sound)
    {m : Module} (hm : m ∈ Module.builtIn)
    (hheld : c.house.fixtures.isLoaded m.name = true ∨ c.Sheds m) :
    (c'.house.fixtures.isLoaded m.name = true ∨ c'.Sheds m) ∨ d = .clears m := by
  rcases hheld with hloaded | hsheds
  · obtain ⟨used, made, rest, -, hafter, hshift⟩ := hp
    rw [hshift.isLoaded]
    refine .inl ?_
    cases hlists : d.lists? m.name with
    | none => exact .inl hloaded
    | some b =>
      cases b with
      | true => exact .inl rfl
      | false =>
        obtain ⟨m', hm', hname, hmark⟩ := hshift.unlists hlists
        obtain rfl := Module.eq_of_name_eq (hc.loaded m' hm') hm hname
        exact .inr (.inl (hafter.mem_iff.mpr (List.mem_append_left _ hmark)))
  · exact (hp.sheds hsheds).imp_left .inr

/-- What one incident makes of that. -/
theorem Passage.kept {c c' : Crowd} {d : Incident} {base : List (Installed × Provision)}
    {ds : List Incident} (hp : Passage c d c') (hsound : c'.Sound) (hk : Kept base ds c) :
    Kept base (ds ++ [d]) c' := by
  have hholds {m : Module} (hm : m ∈ Module.builtIn) := hp.holds hk.sound hm
  obtain ⟨used, made, rest, hbefore, hafter, hshift⟩ := hp
  have hused : ∀ x ∈ used, ∀ m, x.module? = some m → m ∈ Module.builtIn := fun x hx =>
    hk.sound.marks x (hbefore.mem_iff.mpr (List.mem_append_left _ hx))
  have hmade {x : Mark} (hx : x ∈ made) : x ∈ c'.marks :=
    hafter.mem_iff.mpr (List.mem_append_left _ hx)
  -- What is to be cleared away stays so until it is, and an incident that clears says so.
  have hclearing {m : Module} (hm : .clearing m ∈ c.marks) :
      .clearing m ∈ c'.marks ∨ d = .clears m := by
    rcases List.mem_append.mp (hbefore.mem_iff.mp hm) with hx | hx
    · exact (hshift.clearing hx).imp_left hmade
    · exact .inl (hafter.mem_iff.mpr (List.mem_append_right _ hx))
  refine ⟨hsound, hshift.furnished hused hk.furnished, fun m hm => ?_, fun m hm => ?_,
    fun m hm hstocked => ?_⟩
  · rw [Incident.verdict_snoc]
    have hturn := hshift.turnover hused hk.furnished hm
    have hown := hk.own m hm
    generalize c.house.fixtures.own m = xs at hturn hown
    generalize c'.house.fixtures.own m = ys at hturn ⊢
    generalize Incident.verdict (·.stocks? m.name) ds = stocked at hown ⊢
    cases hturn with
    | loads =>
      rw [Incident.stocks?, if_pos rfl]
      exact .inl rfl
    | clears =>
      rw [Incident.stocks?, if_pos rfl]
      exact .inl rfl
    | fails hblocked =>
      cases stocked with
      | false => exact .inr ⟨hmade (.head _), rfl⟩
      | true =>
        have hfull := hown.resolve_right nofun
        have hnone := hblocked.resolve_left (hfull ▸ Module.stock_ne_nil m hm)
        exact .inl (by rw [hnone, List.append_nil, hfull]; rfl)
    | same hstocks =>
      rw [hstocks]
      refine hown.imp_right fun ⟨hmark, hnot⟩ => ⟨(hclearing hmark).resolve_right ?_, hnot⟩
      rintro rfl
      rw [Incident.stocks?, if_pos rfl] at hstocks
      cases hstocks
  · rw [hshift.isLoaded, hk.loaded m hm, Incident.verdict_snoc]
  · rw [Incident.verdict_snoc] at hstocked
    cases hstocks : d.stocks? m.name with
    | some b =>
      rw [hstocks] at hstocked
      obtain rfl : b = true := hstocked
      rw [hshift.isLoaded, Incident.lists_iff_stocks.mpr hstocks]
      exact .inl rfl
    | none =>
      rw [hstocks] at hstocked
      refine (hholds hm (hk.listed m hm hstocked)).resolve_right ?_
      rintro rfl
      rw [Incident.stocks?, if_pos rfl] at hstocks
      cases hstocks

/-- However loads and unloads of modules overlap, the shelf holds what was there before and what
modules have registered. When no request for a module is in progress, it is loaded if it was loaded
since it was last unloaded, and all that it provides is registered if it was loaded since it was last
cleared away, otherwise nothing of it; what is registered belongs to a module that is loaded. -/
theorem overlapping_loads {c c' : Crowd} (start : c.Blank)
    (run : Relation.ReflTransGen Turn c c') :
    ∃ ds, Story c ds c' ∧ Furnished c.house.shelf c'.house.fixtures ∧
      ∀ m ∈ Module.builtIn, c'.Spares m →
        c'.house.isLoaded m.name = Incident.verdict (·.lists? m.name) ds ∧
        c'.house.fixtures.own m =
          (if Incident.verdict (·.stocks? m.name) ds then m.stock else []) ∧
        (c'.house.fixtures.own m = m.stock → c'.house.isLoaded m.name = true) := by
  obtain ⟨ds, hstory, hk⟩ : ∃ ds, Story c ds c' ∧ Kept c.house.shelf ds c' := by
    induction run with
    | refl => exact ⟨[], .nil c, start.kept⟩
    | tail _ turn ih =>
      obtain ⟨ds, hstory, hk⟩ := ih
      obtain ⟨⟨d, hpassage⟩, hsound⟩ := turn.passage hk.sound
      exact ⟨ds ++ [d], hstory.snoc turn hpassage, hpassage.kept hsound hk⟩
  refine ⟨ds, hstory, hk.furnished, fun m hm hspares => ?_⟩
  have hown := (hk.own m hm).resolve_right fun h => hspares _ h.1 rfl
  refine ⟨hk.loaded m hm, hown, fun hfull => ?_⟩
  have hstocked : Incident.verdict (·.stocks? m.name) ds = true := by
    rw [hfull] at hown
    by_contra hnot
    rw [if_neg hnot] at hown
    exact Module.stock_ne_nil m hm hown
  rcases hk.listed m hm hstocked with hloaded | hmark | hmark
  · exact hloaded
  · exact absurd rfl (hspares _ hmark)
  · exact absurd rfl (hspares _ hmark)

/-! ### A load within a load -/

/-- A phrase of a verb and the words after it. -/
def phraseOf (verb : List String) (deed : Deed) (args : List String) : Phrase :=
  ⟨.ofWords verb "" deed, ⟨1, (verb ++ args).map .text, ⟨0⟩, ⟨0⟩⟩, 1⟩

/-- A house that knows all modules. -/
def knowingHouse : House :=
  { House.empty .standard ⟨0⟩ with catalog := Module.builtIn.map fun m => (m.name, m) }

theorem Sound.of_catalog {c : Crowd}
    (hcatalog : c.house.catalog = Module.builtIn.map fun m => (m.name, m))
    (hproper : ∀ t ∈ c.strands, Proper t.frames t.doing) (hidle : c.marks = [])
    (hloaded : c.house.loaded = []) : c.Sound := by
  refine ⟨hproper, fun name m hm => ?_, by simp [hloaded], by simp [hidle]⟩
  rw [hcatalog] at hm
  obtain ⟨before, after, hsplit, -⟩ := List.lookup_eq_some_iff.mp hm
  have hmem : (name, m) ∈ Module.builtIn.map fun m => (m.name, m) :=
    hsplit ▸ List.mem_append_right before (.head after)
  obtain ⟨m', hm', heq⟩ := List.mem_map.mp hmem
  cases heq
  exact ⟨hm', rfl⟩

/-- The module `bool` is loaded, and while that is announced, an event handler loads it. -/
def nestedLoads : Crowd := ⟨knowingHouse, [.start [] (.body [
  .plain (phraseOf ["load"] .load ["on_event"]),
  .handler (phraseOf ["on"] .handle ["module", "load-start", "bool"]) none (some [.text "x"]) none [
    .plain (phraseOf ["del"] .delete ["on", "x"]),
    .plain (phraseOf ["load"] .load ["bool"])],
  .plain (phraseOf ["load"] .load ["bool"])] knowingHouse.root)]⟩

theorem blank_nestedLoads : nestedLoads.Blank where
  sound := .of_catalog rfl (List.forall_mem_singleton.mpr (.other rfl nofun)) rfl rfl
  idle := rfl
  loaded := rfl
  installed := rfl

theorem overlapping_loads_nested :
    let c' := nestedLoads.play (List.replicate 36 0)
    nestedLoads.Blank ∧ Relation.ReflTransGen Turn nestedLoads c' ∧
    ∃ ds, Story nestedLoads ds c' ∧ Furnished nestedLoads.house.shelf c'.house.fixtures ∧
      ∀ m ∈ Module.builtIn, c'.Spares m →
        c'.house.isLoaded m.name = Incident.verdict (·.lists? m.name) ds ∧
        c'.house.fixtures.own m =
          (if Incident.verdict (·.stocks? m.name) ds then m.stock else []) ∧
        (c'.house.fixtures.own m = m.stock → c'.house.isLoaded m.name = true) :=
  ⟨blank_nestedLoads, reaches_play _ _, overlapping_loads blank_nestedLoads (reaches_play _ _)⟩

/-- The load that fails takes away what the other one has registered: the module stays loaded, and
nothing that it provides is there. -/
theorem loaded_without_stock :
    let c' := nestedLoads.play (List.replicate 36 0)
    nestedLoads.Blank ∧ Relation.ReflTransGen Turn nestedLoads c' ∧ c'.marks = [] ∧
      ∃ m ∈ Module.builtIn, c'.house.isLoaded m.name = true ∧
        ∀ x ∈ m.stock, x.1 ∉ c'.house.fixtures.keys := by
  refine ⟨blank_nestedLoads, reaches_play _ _, List.isEmpty_iff.mp (by decide +kernel),
    _, .head _, by decide +kernel, ?_⟩
  have hgone : ∀ k ∈ [Installed.condition [.text "true"], .condition [.text "false"]],
      k ∉ (nestedLoads.play (List.replicate 36 0)).house.fixtures.keys := by
    decide +kernel
  exact fun x hx => hgone x.1 (List.mem_map_of_mem (f := (·.1)) hx)

end Crowd

end Hearth
