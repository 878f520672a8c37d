import Hearth.Proofs.House.Names
import Hearth.Proofs.House.Watches

/-!
# What is left after shutdown

To shut down, a strand announces that, closes the links that are open then, and unloads the modules
that are loaded then, one after the other. Most of this is announced to event handlers, which can
open links and load modules, and other strands go on as well. So what is left in the end came in the
meantime: a link was opened after the others were taken off the list, a module was loaded after
those were listed that are to be unloaded, and an event handler was defined after all others were
gone. Event handlers can be left as well if the module for them was not even loaded when the modules
were listed, or if another strand is still about to take it down.

## Main definitions

* `Watch.Left` : what is left after shutdown.

## Main results

* `Watch.Reaches.unloads` : every module on the list is unloaded.
* `Watch.left_after_shutDown` : a shutdown leaves only that.
* `Server.loaded_after_shutdown` : a module is left after a shutdown.
-/

namespace Hearth

/-! ### What comes later -/

namespace Outfit

/-- All links belong to queues that were started from some number on. -/
structure LinkedSince (n : Nat) (F : Outfit) : Prop where
  started : n ≤ F.queues
  links : ∀ x ∈ F.links, n ≤ x.2.index

/-- All event handlers were defined from some number on. -/
structure HandledSince (n : Nat) (F : Outfit) : Prop where
  defined : n ≤ F.nextHandler
  handlers : ∀ x ∈ F.handlers, n ≤ x.2.id

variable {n : Nat} {F F' : Outfit}

theorem Change.linkedSince (hchange : Change F F') (hF : F.LinkedSince n) : F'.LinkedSince n := by
  cases hchange with
  | opens name =>
    refine ⟨Nat.le_succ_of_le hF.started, fun x hx => ?_⟩
    rcases NameMap.mem_insert hx with rfl | hx
    · exact hF.started
    · exact hF.links x hx
  | takes name => exact ⟨hF.started, fun x hx => hF.links x (List.mem_filter.mp hx).1⟩
  | takesAll => exact ⟨hF.started, List.forall_mem_nil _⟩
  | spends | defines | removes | clears => exact ⟨hF.started, hF.links⟩

theorem Change.handledSince (hchange : Change F F') (hF : F.HandledSince n) :
    F'.HandledSince n := by
  cases hchange with
  | spends => exact ⟨Nat.le_succ_of_le hF.defined, hF.handlers⟩
  | @defines y id registry number named added =>
    refine ⟨Nat.le_succ_of_le hF.defined, fun x hx => ?_⟩
    rcases List.mem_append.mp hx with hx | hx
    · exact hF.handlers x hx
    · rw [List.mem_singleton.mp hx]
      exact number ▸ hF.defined
  | removes => exact ⟨hF.defined, fun x hx => hF.handlers x (List.mem_filter.mp hx).1⟩
  | clears => exact ⟨hF.defined, List.forall_mem_nil _⟩
  | opens | takes | takesAll => exact ⟨hF.defined, hF.handlers⟩

end Outfit

/-! ### Taking event handlers away -/

namespace Crowd

variable {c c' : Crowd} {m : Module}

/-- When the module of the event handlers is cleared away there are none. -/
theorem Passage.cleared (hp : Passage c (.clears m) c') (hm : m.feature = .handlers) :
    c'.house.handlers = [] := by
  obtain ⟨used, made, rest, -, -, hshift⟩ := hp
  generalize hF : c'.house.fixtures = F' at hshift
  cases hshift with
  | clears =>
    have hnone : (c.house.fixtures.clear m).handlers = [] := by
      rw [Fixtures.clear, hm]
      rfl
    exact (congrArg Fixtures.handlers hF).trans hnone

/-- A module that is being taken down is so until there are no event handlers. -/
theorem Stride.sheds (hs : Stride c c') (hm : m.feature = .handlers) (hc : c.Sound ∧ c.Sheds m) :
    (c'.Sound ∧ c'.Sheds m) ∨ c'.house.handlers = [] := by
  obtain ⟨⟨d, hp⟩, hsound⟩ := hs.turn.passage hc.1
  rcases hp.sheds hc.2 with hsheds | rfl
  · exact .inl ⟨hsound, hsheds⟩
  · exact .inr (hp.cleared hm)

/-- A module that is loaded stays so until it is being taken down. -/
theorem Stride.holds (hs : Stride c c') (hm : m.feature = .handlers)
    (hc : c.Sound ∧ m ∈ Module.builtIn ∧ (c.house.isLoaded m.name = true ∨ c.Sheds m)) :
    (c'.Sound ∧ m ∈ Module.builtIn ∧ (c'.house.isLoaded m.name = true ∨ c'.Sheds m)) ∨
      c'.house.handlers = [] := by
  obtain ⟨hsound, hbuiltIn, hheld⟩ := hc
  obtain ⟨⟨d, hp⟩, hsound'⟩ := hs.turn.passage hsound
  rcases hp.holds hsound hbuiltIn hheld with hheld | rfl
  · exact .inl ⟨hsound', hbuiltIn, hheld⟩
  · exact .inr (hp.cleared hm)

end Crowd

/-! ### Unloading -/

namespace Strand

instance (name : Name) : House.Lasting (·.isLoaded name = false) where
  of_bare {_ h'} hb hh := by
    change h'.fixtures.isLoaded name = false
    rwa [House.fixtures_of_bare hb]

theorem isLoaded_takeLoaded (name : Name) (h : House) :
    ((Act.takeLoaded name).runOn h).2.isLoaded name = false := by
  rw [Act.takeLoaded, Act.runOn_get_bind]
  cases hfind : h.loaded.find? (·.name == name) with
  | none =>
    exact List.any_eq_false.mpr fun m hm => List.find?_eq_none.mp hfind m hm
  | some m =>
    change (h.loaded.filter (·.name != name)).any (·.name == name) = false
    refine List.any_eq_false.mpr fun m hm heq => ?_
    exact bne_iff_ne.mp (List.mem_filter.mp hm).2 (beq_iff_eq.mp heq)

/-- A module that is to be unloaded is not loaded then. -/
theorem isLoaded_unload (job : Link.JobId) (h : House) (frames : List Frame) (name : Name) :
    (step job h ⟨frames, .call (.unload name)⟩).2.1.isLoaded name = false := by
  change (moveOn frames ((unload name).runOn h)).2.isLoaded name = false
  rw [moveOn_house, unload, Act.runOn_bind]
  have htaken := isLoaded_takeLoaded name h
  generalize (Act.takeLoaded name).runOn h = r at htaken ⊢
  obtain ⟨e | m, h₁⟩ := r
  · exact htaken
  · have hkept : (announceModule "unload-start" name (.unloadStarted m)).Upholds
        (·.isLoaded name = false) :=
      .get_bind fun _ _ => .bind (Act.ensures_makeEvent _ _) fun _ _ => .pure trivial
    exact (hkept h₁ htaken).1

end Strand

namespace Watch

variable {job : Link.JobId} {w e : Watch}

/-- The state of a strand that unloads modules one after the other. -/
def unloading (names : List Name) : Strand.State :=
  ⟨(Strand.unloadAll names).frames, (Strand.unloadAll names).doing⟩

/-- What holds at a moment holds until something has happened. -/
theorem Reaches.keeps_until {Q : Crowd → Prop} {R : House → Prop}
    (keeps : ∀ {c c'}, Crowd.Stride c c' → Q c → Q c' ∨ R c'.house) (run : Reaches job w e)
    (hw : Q w.crowd) : Q e.crowd ∨ ∃ y, Reaches job w y ∧ Reaches job y e ∧ R y.house := by
  induction run with
  | refl => exact .inl hw
  | @tail b c hbefore hgoes ih =>
    rcases ih with hb | ⟨y, hy, hlater, hR⟩
    · exact (keeps hgoes.stride hb).imp_right fun hR => ⟨c, hbefore.tail hgoes, .refl, hR⟩
    · exact .inr ⟨y, hy, hlater.tail hgoes, hR⟩

/-- A strand that unloads modules has each of them unloaded at some moment. -/
theorem Reaches.unloads {names : List Name} (run : Reaches job w e) (ended : e.Ended)
    (hw : w.strand = unloading names) :
    ∀ n ∈ names, ∃ x, Reaches job w x ∧ Reaches job x e ∧ x.house.isLoaded n = false := by
  induction names generalizing w with
  | nil => exact List.forall_mem_nil _
  | cons name rest ih =>
    obtain ⟨h, t, others⟩ := w
    obtain rfl : t = ⟨[.unloadAll rest], .call (.unload name)⟩ := hw
    obtain ⟨h₁, others₁, hbefore, hafter⟩ := run.begins ended nofun nofun
    have hbegun := hbefore.tail (.own others₁ (.steps _))
    refine List.forall_mem_cons.mpr ⟨⟨_, hbegun, hafter, Strand.isLoaded_unload ..⟩, fun n hn => ?_⟩
    -- The frame with the rest of the list stays below until the first module is done with.
    have habove := (Strand.step_above job h₁ [] [] (.unloadAll rest) (.call (.unload name)))
      |>.resolve_right nofun
    obtain ⟨h₂, o₂, others₂, hreturn, hrest⟩ := hafter.returns ended habove
    obtain ⟨x, hx, hend, hunloaded⟩ :=
      ih hrest (congrArg₂ Strand.State.mk (List.append_nil _) rfl) n hn
    exact ⟨x, (hbegun.trans hreturn).trans hx, hend, hunloaded⟩

/-! ### What is left -/

/-- A shutdown takes all links off the list, and lists the modules that are to be unloaded when all
links that it took are closed. -/
theorem Reaches.shutDown_moments (run : Reaches job w e) (ended : e.Ended)
    (start : w.strand = .start [] .shutDown) :
    ∃ taken listed, Reaches job w taken ∧ Reaches job taken listed ∧ Reaches job listed e ∧
      taken.house.links = [] ∧
      listed.strand = .start [] (.unloadAll (listed.house.loaded.map (·.name)).reverse) := by
  obtain ⟨h, t, others⟩ := w
  obtain rfl : t = ⟨[], .call .shutDown⟩ := start
  obtain ⟨h₁, others₁, hbefore, hafter⟩ := run.begins ended nofun nofun
  obtain ⟨h₂, o₂, others₂, htakes, hafter⟩ := hafter.returns ended ⟨[], rfl⟩
  obtain ⟨h₃, o₃, others₃, hlists, hafter⟩ := hafter.returns ended ⟨[], rfl⟩
  exact ⟨_, _, (hbefore.tail (.own others₁ (.steps _))).trans htakes, hlists, hafter, rfl, rfl⟩

/-- Each module that is loaded when all are listed is unloaded at some moment. -/
theorem Reaches.unloads_listed (run : Reaches job w e) (ended : e.Ended)
    (start : w.strand = .start [] (.unloadAll (w.house.loaded.map (·.name)).reverse))
    (name : Name) :
    ∃ x, Reaches job w x ∧ Reaches job x e ∧ x.house.isLoaded name = false := by
  cases hname : w.house.isLoaded name with
  | false => exact ⟨w, .refl, run, hname⟩
  | true =>
    obtain ⟨m, hm, hmname⟩ := List.any_eq_true.mp hname
    have hlisted : name ∈ (w.house.loaded.map (·.name)).reverse :=
      List.mem_reverse.mpr (List.mem_map.mpr ⟨m, hm, beq_iff_eq.mp hmname⟩)
    generalize (w.house.loaded.map (·.name)).reverse = names at start hlisted
    obtain ⟨h, t, others⟩ := w
    obtain rfl : t = ⟨[], .call (.unloadAll names)⟩ := start
    obtain ⟨h₁, others₁, hbefore, hafter⟩ := run.begins ended nofun nofun
    have hbegun := hbefore.tail (.own others₁ (.steps _))
    have hstrand : (Strand.step job h₁ ⟨[], .call (.unloadAll names)⟩).1 = unloading names :=
      congrArg₂ Strand.State.mk (List.append_nil _) rfl
    obtain ⟨x, hx, hend, hunloaded⟩ := hafter.unloads ended hstrand name hlisted
    exact ⟨x, hbegun.trans hx, hend, hunloaded⟩

/-- What is left at the end of a shutdown that took the links off the list at one moment, and listed
the modules that are to be unloaded at another. -/
structure Left (job : Link.JobId) (taken listed e : Watch) : Prop where
  /-- A link that is left was opened after the others were taken. -/
  links : ∀ x ∈ e.house.links, taken.house.queues.length ≤ x.2.index
  /-- A module that is left was loaded after the others were listed. -/
  modules : ∀ name, e.house.isLoaded name = true → ∃ y z, Reaches job listed y ∧ Goes job y z ∧
    Reaches job z e ∧ y.house.isLoaded name = false ∧ z.house.isLoaded name = true
  /-- If the module of the event handlers was loaded, or was being taken down, then an event handler
  that is left was defined when there were no others any more, unless another strand is still about
  to take that module down. -/
  handlers : ∀ m ∈ Module.builtIn, m.feature = .handlers →
    listed.house.isLoaded m.name = true ∨ listed.crowd.Sheds m →
    (∃ y, Reaches job listed y ∧ Reaches job y e ∧ y.house.handlers = [] ∧
      ∀ x ∈ e.house.handlers, y.house.nextHandler ≤ x.2.id) ∨
    ∃ t ∈ e.others, .unloading m ∈ t.marks ∨ .clearing m ∈ t.marks

theorem Reaches.links_left (run : Reaches job w e) (taken : w.house.links = []) :
    ∀ x ∈ e.house.links, w.house.queues.length ≤ x.2.index := by
  have hstart : w.house.outfit.LinkedSince w.house.queues.length :=
    ⟨le_refl _, fun x hx => absurd (taken ▸ hx) (List.not_mem_nil (a := x))⟩
  exact (Outfit.of_changes Outfit.Change.linkedSince (Crowd.changes_of_strides run.strides)
    hstart).links

theorem Reaches.handlers_left (run : Reaches job w e) (gone : w.house.handlers = []) :
    ∀ x ∈ e.house.handlers, w.house.nextHandler ≤ x.2.id := by
  have hstart : w.house.outfit.HandledSince w.house.nextHandler :=
    ⟨le_refl _, fun x hx => absurd (gone ▸ hx) (List.not_mem_nil (a := x))⟩
  exact (Outfit.of_changes Outfit.Change.handledSince (Crowd.changes_of_strides run.strides)
    hstart).handlers

/-- What is being taken down when a strand has ended is being taken down by another one. -/
theorem Ended.sheds {m : Module} (ended : e.Ended) (hm : e.crowd.Sheds m) :
    ∃ t ∈ e.others, .unloading m ∈ t.marks ∨ .clearing m ∈ t.marks := by
  obtain ⟨o, ho⟩ := ended
  have hmarks : e.crowd.marks = e.others.flatMap Strand.State.marks := by
    rw [crowd, Crowd.marks, List.flatMap_cons, ho]
    rfl
  rw [Crowd.Sheds, hmarks, List.mem_flatMap, List.mem_flatMap] at hm
  rcases hm with ⟨t, ht, hunloading⟩ | ⟨t, ht, hclearing⟩
  · exact ⟨t, ht, .inl hunloading⟩
  · exact ⟨t, ht, .inr hclearing⟩

/-- The event handlers go with their module. The module is not loaded at some moment, so somebody is
taking it down then, and until the event handlers are gone. -/
theorem clears_handlers {m : Module} (ended : e.Ended) (sound : w.crowd.Sound)
    (hm : m ∈ Module.builtIn) (hfeature : m.feature = .handlers)
    (unloads : ∃ x, Reaches job w x ∧ Reaches job x e ∧ x.house.isLoaded m.name = false)
    (hheld : w.house.isLoaded m.name = true ∨ w.crowd.Sheds m) :
    (∃ y, Reaches job w y ∧ Reaches job y e ∧ y.house.handlers = []) ∨
      ∃ t ∈ e.others, .unloading m ∈ t.marks ∨ .clearing m ∈ t.marks := by
  obtain ⟨x, hx, hend, hunloaded⟩ := unloads
  rcases hx.keeps_until (R := (·.handlers = [])) (fun hs => hs.holds hfeature)
    ⟨sound, hm, hheld⟩ with ⟨hsound, -, hheld⟩ | ⟨y, hy, hlater, hgone⟩
  · have hsheds : x.crowd.Sheds m := hheld.resolve_left (ne_true_of_eq_false hunloaded)
    rcases hend.keeps_until (R := (·.handlers = [])) (fun hs => hs.sheds hfeature)
      ⟨hsound, hsheds⟩ with ⟨-, hsheds⟩ | ⟨y, hy, hlater, hgone⟩
    · exact .inr (ended.sheds hsheds)
    · exact .inl ⟨y, hx.trans hy, hlater, hgone⟩
  · exact .inl ⟨y, hy, hlater.trans hend, hgone⟩

/-- What is left after shutdown, whatever else goes on: links that were opened after the others were
taken off the list, modules that were loaded after the others were listed, and event handlers that
were defined after all others were gone, unless another strand still takes their module down. -/
theorem left_after_shutDown (sound : w.crowd.Sound) (start : w.strand = .start [] .shutDown)
    (run : Reaches job w e) (ended : e.Ended) :
    ∃ taken listed, Reaches job w taken ∧ Reaches job taken listed ∧ Reaches job listed e ∧
      taken.house.links = [] ∧
      listed.strand = .start [] (.unloadAll (listed.house.loaded.map (·.name)).reverse) ∧
      Left job taken listed e := by
  obtain ⟨taken, listed, htaken, hlisted, hend, hnone, hstrand⟩ := run.shutDown_moments ended start
  have hunloads := hend.unloads_listed ended hstrand
  have hlater : Reaches job taken e := hlisted.trans hend
  have hbefore : Reaches job w listed := htaken.trans hlisted
  refine ⟨taken, listed, htaken, hlisted, hend, hnone, hstrand, hlater.links_left hnone,
    fun name hname => ?_, fun m hm hfeature hheld => ?_⟩
  · obtain ⟨x, hx, hlater, hunloaded⟩ := hunloads name
    obtain ⟨y, z, hy, hgoes, hz, hbefore, hafter⟩ := exists_crossing
      (P := (·.house.isLoaded name = true)) hlater (ne_true_of_eq_false hunloaded) hname
    exact ⟨y, z, hx.trans hy, hgoes, hz, eq_false_of_ne_true hbefore, hafter⟩
  · refine (clears_handlers ended (Crowd.sound_of_strides sound hbefore.strides) hm hfeature
      (hunloads m.name) hheld).imp_left ?_
    rintro ⟨y, hy, hlater, hgone⟩
    exact ⟨y, hy, hlater, hgone, hlater.handlers_left hgone⟩

open Crowd (knowingHouse phraseOf)

/-- The strand of a house in which an event handler loads a module when it was unloaded. -/
def remindingStrand : Strand.State := .start [] (.body [
  .plain (phraseOf ["load"] .load ["on_event"]), .plain (phraseOf ["load"] .load ["bool"]),
  .handler (phraseOf ["on"] .handle ["module", "unload-done", "bool"]) none (some [.text "again"])
    none [.plain (phraseOf ["load"] .load ["bool"])]] knowingHouse.root)

/-- That house is to be shut down. -/
def reminding : Watch where
  house := (Crowd.play ⟨knowingHouse, [remindingStrand]⟩ (List.replicate 40 0)).house
  strand := .start [] .shutDown
  others := []

theorem sound_reminding : reminding.crowd.Sound := by
  have hstart : Crowd.Sound ⟨knowingHouse, [remindingStrand]⟩ :=
    .of_catalog rfl (List.forall_mem_singleton.mpr (.of_call rfl)) rfl rfl
  have hplayed := Crowd.sound_of_strides hstart (Crowd.strides_play _ (List.replicate 40 0))
  rw [crowd, reminding]
  generalize Crowd.play _ _ = c at hplayed ⊢
  exact ⟨List.forall_mem_singleton.mpr (.of_call rfl), hplayed.catalog, hplayed.loaded,
    List.forall_mem_nil _⟩

/-- The event handler is gone in the end, and the module is left: it was loaded in the meantime. -/
theorem left_after_shutDown_reminding :
    let e := (advance ⟨0⟩)^[38] reminding
    (reminding.crowd.Sound ∧ reminding.strand = .start [] .shutDown ∧ Reaches ⟨0⟩ reminding e ∧
      e.Ended) ∧
    e.house.loaded.map (·.name) = [[.text "bool"]] ∧ e.house.handlers.map (·.2.name) = [] ∧
    ∃ taken listed, Reaches ⟨0⟩ reminding taken ∧ Reaches ⟨0⟩ taken listed ∧
      Reaches ⟨0⟩ listed e ∧ taken.house.links = [] ∧
      listed.strand = .start [] (.unloadAll (listed.house.loaded.map (·.name)).reverse) ∧
      Left ⟨0⟩ taken listed e := by
  intro e
  have hrun : Reaches ⟨0⟩ reminding e := reaches_advance _ _ _
  have hended : e.Ended := by decide +kernel
  exact ⟨⟨sound_reminding, rfl, hrun, hended⟩, by decide +kernel, by decide +kernel,
    left_after_shutDown sound_reminding rfl hrun hended⟩

end Watch

/-- A module is left after a shutdown: an event handler loads it when it was unloaded. -/
theorem Server.loaded_after_shutdown :
    (Server.build .empty default
      { Settings.standard with modules := ["on_event", "bool"] }).toOption.map (fun server =>
        let text := "on module unload-done bool:\n\tname again\n\tload bool\n"
        let server := { server with world := (server.world.runText text).2 }
        server.shutdown.world.house.loaded.map (·.name)) = some [[.text "bool"]] := by
  decide +kernel

end Hearth
