import Hearth.Proofs.House.Roster
import Hearth.Proofs.House.Stock
import Hearth.Proofs.Registry.Bands
import Hearth.Proofs.Registry.Ledger
import Hearth.Server

/-!
# Starting with any bands

A server that starts registers the workers of the program itself, each with a priority computed from
the ordinary band. A band that leaves room for them is always good enough for that: a start can only
fail when the file for states cannot be opened or a module cannot be loaded. An event handler that
asks for no priority is registered as an ordinary worker, unless the band is cramped: then it would
get the priority of the worker that logs the end of events, and is refused.

## Main definitions

* `World.Idle` : nothing goes on in a world.
* `World.Logging` : a world that has just the workers that write the log.
* `Settings.Apportions` : what becomes of priorities under settings.

## Main results

* `Act.runOn_installLoggers`, `Act.runOn_furnish` : the program registers its own workers.
* `Server.of_build_error` : why a server cannot start.
* `Act.runOn_defineHandler_ordinary`, `Act.runOn_defineHandler_taken` : event handlers that ask for
  no priority.
* `Settings.priorities_of_accepted` : priorities under all settings that are accepted.
-/

namespace Hearth

/-! ### Registering -/

namespace Registry

variable {r : Registry} {w : Worker}

/-- A worker can be registered whose priority is an ordinary one or free. -/
theorem register_of_free (hfree : r.bands.isSystem w.priority = true →
    ∀ x ∈ r.workers, x.worker.priority ≠ w.priority) : ∃ r',
    r.register w = .ok (⟨r.next⟩, r') ∧ r'.bands = r.bands ∧
      r'.workers.Perm (⟨⟨r.next⟩, w⟩ :: r.workers) := by
  cases hr : r.register w with
  | error e =>
    obtain ⟨hsystem, x, hx, hpriority⟩ := (register_error_iff w).mp ⟨e, hr⟩
    exact absurd hpriority (hfree hsystem x hx)
  | ok added =>
    obtain ⟨id, r'⟩ := added
    obtain ⟨rfl, rfl⟩ := of_register hr
    exact ⟨_, rfl, rfl, place_perm _ _⟩

/-- A worker is refused whose priority is one of the system that is taken. -/
theorem register_of_taken (hsystem : r.bands.isSystem w.priority = true) {y : Registered}
    (hy : y ∈ r.workers) (hpriority : y.worker.priority = w.priority) :
    ∃ owner, r.register w = .error (.priorityTaken w.priority owner) := by
  obtain ⟨x, hx⟩ := firstAt?_eq_some_iff.mpr ⟨y, hy, hpriority⟩
  refine ⟨x.worker.name, ?_⟩
  rw [register, if_pos hsystem, hx]

end Registry

namespace Act

/-- A worker is registered that has a priority of its own. -/
theorem runOn_register_new {h : House} {w : Worker} {used : List Int32}
    (hused : ∀ x ∈ h.registry.workers, x.worker.priority ∈ used) (hnew : w.priority ∉ used) :
    ∃ registry, (register w).runOn h = (.ok ⟨h.registry.next⟩, { h with registry }) ∧
      registry.bands = h.registry.bands ∧
      ∀ x ∈ registry.workers, x.worker.priority ∈ w.priority :: used := by
  obtain ⟨registry, hadded, hbands, hperm⟩ := Registry.register_of_free (r := h.registry) (w := w)
    fun _ x hx heq => hnew (heq ▸ hused x hx)
  refine ⟨registry, by rw [runOn_register, hadded], hbands, fun x hx => ?_⟩
  rcases List.mem_cons.mp (hperm.mem_iff.mp hx) with rfl | hx
  · exact .head _
  · exact .tail _ (hused x hx)

/-- The workers that write the log are registered in a house without workers. -/
theorem runOn_installLoggers {h : House} (level : Level) (hnone : h.registry.workers = [])
    (hown : [h.bands.failureLog, h.bands.doneLog, h.bands.eventLog].Nodup) :
    ∃ registry, (installLoggers level).runOn h = (.ok (), { h with registry }) ∧
      registry.bands = h.bands ∧ ∀ x ∈ registry.workers,
        x.worker.priority ∈ [h.bands.failureLog, h.bands.doneLog, h.bands.eventLog] := by
  simp only [List.nodup_cons, List.not_mem_nil, not_false_eq_true, List.nodup_nil, and_true] at hown
  obtain ⟨hfailure, hdone⟩ := hown
  have hunused : ∀ x ∈ h.registry.workers, x.worker.priority ∈ ([] : List Int32) := by
    rw [hnone]
    exact List.forall_mem_nil _
  obtain ⟨r₁, h₁, hb₁, hu₁⟩ := runOn_register_new (w := .eventLog h.bands.eventLog level) hunused
    List.not_mem_nil
  obtain ⟨r₂, h₂, hb₂, hu₂⟩ := runOn_register_new (h := { h with registry := r₁ })
    (w := .doneLog h.bands.doneLog) hu₁ hdone
  obtain ⟨r₃, h₃, hb₃, hu₃⟩ := runOn_register_new (h := { h with registry := r₂ })
    (w := .failureLog h.bands.failureLog) hu₂ hfailure
  refine ⟨r₃, ?_, hb₃.trans (hb₂.trans hb₁), hu₃⟩
  rw [installLoggers, runOn_get_bind]
  refine runOn_bind_ok.mpr ⟨_, _, h₁, ?_⟩
  exact runOn_bind_ok.mpr ⟨_, _, h₂, runOn_bind_ok.mpr ⟨_, _, h₃, rfl⟩⟩

/-- Things are added under names that are free. -/
theorem runOn_addAll {α : Type} (name : α → Name) (names : House → NameMap α) {f : α → Act Unit}
    {P : House → Prop}
    (hadd : ∀ x h, P h → name x ∉ (names h).map (·.1) → ∃ h', (f x).runOn h = (.ok (), h') ∧
      P h' ∧ names h' = NameMap.insert (name x) x (names h))
    (l : List α) (h : House) (hh : P h) (hnew : (l.map name ++ (names h).map (·.1)).Nodup) :
    ∃ h', (l.forM f).runOn h = (.ok (), h') ∧ P h' := by
  induction l generalizing h with
  | nil => exact ⟨h, rfl, hh⟩
  | cons x l ih =>
    rw [List.map_cons, List.cons_append, List.nodup_cons] at hnew
    have hfree : name x ∉ (names h).map (·.1) := fun hx => hnew.1 (List.mem_append_right _ hx)
    obtain ⟨h₁, hx, hh₁, hnames⟩ := hadd x h hh hfree
    have hperm := ((NameMap.insert_perm x hfree).map (·.1)).append_left (l.map name)
    have hrest : (l.map name ++ (names h₁).map (·.1)).Nodup := by
      rw [hnames, hperm.nodup_iff]
      exact List.nodup_middle.mpr (List.nodup_cons.mpr hnew)
    obtain ⟨h', hrun, hend⟩ := ih h₁ hh₁ hrest
    exact ⟨h', runOn_bind_ok.mpr ⟨_, _, hx, hrun⟩, hend⟩

/-- Verbs with names of their own are added. -/
theorem runOn_addVerbs (vs : List Verb) {h : House}
    (hnew : (vs.map (·.name) ++ h.common.entries.map (·.1)).Nodup) :
    ∃ common, (vs.forM addVerb).runOn h = (.ok (), { h with common }) := by
  let P (h' : House) : Prop := ∃ common, h' = { h with common }
  have hadd : ∀ v h', P h' → v.name ∉ h'.common.entries.map (·.1) → ∃ h'',
      (addVerb v).runOn h' = (.ok (), h'') ∧ P h'' ∧
        h''.common.entries = NameMap.insert v.name v h'.common.entries := by
    rintro v h' ⟨common, rfl⟩ hfree
    rcases common.register?_cases v.name v with ⟨htaken, -⟩ | ⟨-, hadded⟩
    · exact absurd htaken hfree
    · rw [runOn_addVerb]
      dsimp only
      rw [hadded]
      exact ⟨_, rfl, ⟨_, rfl⟩, rfl⟩
  obtain ⟨h', hrun, common, rfl⟩ :=
    runOn_addAll (·.name) (·.common.entries) hadd vs h ⟨_, rfl⟩ hnew
  exact ⟨common, hrun⟩

/-- Modules with names of their own are added. -/
theorem runOn_addModules (ms : List Module) {h : House}
    (hnew : (ms.map (·.name) ++ h.catalog.map (·.1)).Nodup) :
    ∃ catalog, (ms.forM addModule).runOn h = (.ok (), { h with catalog }) := by
  let P (h' : House) : Prop := ∃ catalog, h' = { h with catalog }
  have hadd : ∀ m h', P h' → m.name ∉ h'.catalog.map (·.1) → ∃ h'',
      (addModule m).runOn h' = (.ok (), h'') ∧ P h'' ∧
        h''.catalog = NameMap.insert m.name m h'.catalog := by
    rintro m h' ⟨catalog, rfl⟩ hfree
    refine ⟨{ h with catalog := NameMap.insert m.name m catalog }, ?_, ⟨_, rfl⟩, rfl⟩
    rw [addModule, runOn_get_bind]
    exact congrArg (runOn · _) (if_neg fun hhas => hfree (NameMap.has_iff.mp hhas))
  obtain ⟨h', hrun, catalog, rfl⟩ := runOn_addAll (·.name) (·.catalog) hadd ms h ⟨_, rfl⟩ hnew
  exact ⟨catalog, hrun⟩

/-- A house in which nothing is known can be furnished if the priority of the worker that takes
everything down is free. -/
theorem runOn_furnish {h : House} {used : List Int32} (hcommon : h.common.entries = [])
    (hcatalog : h.catalog = []) (hused : ∀ x ∈ h.registry.workers, x.worker.priority ∈ used)
    (hnew : h.bands.teardown ∉ used) :
    ∃ common registry catalog,
      furnish.runOn h = (.ok (), { h with common, registry, catalog }) := by
  obtain ⟨common, hverbs⟩ := runOn_addVerbs Verb.core (h := h) (by rw [hcommon]; decide +kernel)
  obtain ⟨registry, hregister, -⟩ := runOn_register_new (h := { h with common })
    (w := .teardown h.bands.teardown) hused hnew
  obtain ⟨catalog, hmodules⟩ := runOn_addModules Module.builtIn (h := { h with common, registry })
    (by rw [hcatalog, List.map_nil, List.append_nil]; exact Module.names_nodup)
  refine ⟨common, registry, catalog, ?_⟩
  refine runOn_bind_ok.mpr ⟨_, _, hverbs, ?_⟩
  rw [runOn_get_bind]
  exact runOn_bind_ok.mpr ⟨_, _, hregister, hmodules⟩

end Act

/-! ### Worlds at rest -/
namespace World

/-- A world in which nothing goes on and nothing is asked for. -/
structure Idle (w : World) : Prop where
  current : w.current = none
  main : w.mainReady = false
  ready : w.ready = []
  signals : w.house.signals = []

namespace Idle

variable {w : World}

theorem settle (hw : w.Idle) : w.settle = { w with outcome := some (.ok .done) } := by
  have hheard : { w.house with signals := [] } = w.house := by rw [← hw.signals]
  have hobey : obeyAll { w with outcome := some (.ok .done) } =
      { w with outcome := some (.ok .done) } := by
    rw [obeyAll]
    dsimp only
    rw [hw.signals, hheard]
    rfl
  have hstep : step? { w with outcome := some (.ok .done) } = none := by
    simp [step?, hw.current, hw.main, hw.ready]
  rw [World.settle, hobey, patience, run, hstep]

/-- Something that is done at once and asks for nothing. -/
theorem act {α : Type} (hw : w.Idle) {f : House → α × House}
    (hsignals : (f w.house).2.signals = []) :
    w.act f = ((f w.house).1, { w with house := (f w.house).2, outcome := some (.ok .done) }) := by
  have hnext : Idle { w with house := (f w.house).2 } := ⟨hw.current, hw.main, hw.ready, hsignals⟩
  rw [World.act]
  dsimp only
  rw [hnext.settle]

/-- An action that succeeds and asks for nothing. -/
theorem attempt {α ε : Type} (hw : w.Idle) (wrap : ScriptError → ε) {a : Act α} {x : α} {h : House}
    (hrun : a.runOn w.house = (.ok x, h)) (hsignals : h.signals = []) :
    w.attempt wrap a = .ok (x, { w with house := h, outcome := some (.ok .done) }) := by
  have hact : w.doAct a = (.ok x, { w with house := h, outcome := some (.ok .done) }) := by
    rw [doAct, hw.act (by rw [hrun]; exact hsignals), hrun]
  rw [World.attempt, hact]

end Idle

/-- What is said when modules cannot be loaded. -/
theorem of_loadAll_error {e : StartError} (names : List Name) {w : World}
    (he : w.loadAll names = .error e) : ∃ name cause, e = .module name cause := by
  induction names generalizing w with
  | nil => cases he
  | cons name names ih =>
    unfold loadAll at he
    split at he
    · cases he
      exact ⟨_, _, rfl⟩
    · exact ih he

end World

/-! ### Starts -/

/-- A world with no workers but those that write the log, in which nothing else is known. -/
structure World.Logging (b : Bands) (w : World) : Prop where
  idle : w.Idle
  common : w.house.common.entries = []
  catalog : w.house.catalog = []
  bands : w.house.bands = b
  workers : ∀ x ∈ w.house.registry.workers,
    x.worker.priority ∈ [b.failureLog, b.doneLog, b.eventLog]

namespace World.Logging

variable {b : Bands} {w : World} (hw : w.Logging b)
include hw

theorem addSink {kind : SinkKind} {level : Level} : (w.act (·.addSink kind level)).2.Logging b := by
  rw [hw.idle.act hw.idle.signals]
  exact ⟨⟨hw.idle.current, hw.idle.main, hw.idle.ready, hw.idle.signals⟩, hw.common, hw.catalog,
    hw.bands, hw.workers⟩

theorem store (store : Store) : Logging b { w with house := { w.house with store } } :=
  ⟨⟨hw.idle.current, hw.idle.main, hw.idle.ready, hw.idle.signals⟩, hw.common, hw.catalog,
    hw.bands, hw.workers⟩

end World.Logging

namespace Bands.Exact

variable {b : Bands} (hb : b.Exact) (hlt : b.low.toInt < b.high.toInt)
include hb hlt

/-- The workers that write the log are registered in a world without workers. -/
theorem attempt_installLoggers {ε : Type} (wrap : ScriptError → ε) (level : Level) {w : World}
    (hw : w.Idle) (hcommon : w.house.common.entries = []) (hcatalog : w.house.catalog = [])
    (hbands : w.house.bands = b) (hnone : w.house.registry.workers = []) :
    ∃ w', w.attempt wrap (Act.installLoggers level) = .ok ((), w') ∧ w'.Logging b := by
  subst hbands
  have hown : [w.house.bands.failureLog, w.house.bands.doneLog, w.house.bands.eventLog].Nodup :=
    (hb.nodup hlt).sublist (List.sublist_append_left _ [w.house.bands.teardown])
  obtain ⟨registry, hloggers, hbands, hworkers⟩ := Act.runOn_installLoggers level hnone hown
  exact ⟨_, hw.attempt wrap hloggers hw.signals,
    ⟨hw.current, hw.main, hw.ready, hw.signals⟩, hcommon, hcatalog, hbands, hworkers⟩

/-- Then everything else can be made known. -/
theorem attempt_furnish {ε : Type} (wrap : ScriptError → ε) {w : World} (hw : w.Logging b) :
    ∃ w', w.attempt wrap Act.furnish = .ok ((), w') := by
  have hnew : w.house.bands.teardown ∉ [b.failureLog, b.doneLog, b.eventLog] := by
    rw [hw.bands]
    have hown : ([b.failureLog, b.doneLog, b.eventLog] ++ [b.teardown]).Nodup := hb.nodup hlt
    exact fun hmem => List.disjoint_of_nodup_append hown hmem List.mem_cons_self
  obtain ⟨common, registry, catalog, hfurnish⟩ :=
    Act.runOn_furnish hw.common hw.catalog hw.workers hnew
  exact ⟨_, hw.idle.attempt wrap hfurnish hw.idle.signals⟩

end Bands.Exact

namespace Server

/-- What is said when the file for states cannot be opened. -/
theorem of_openStore_error {files : Files} {path : Option String} {e : Error}
    (he : openStore files path = .error e) : ∃ path cause, e = .opening path cause := by
  unfold openStore at he
  split at he
  · cases he
  · split at he
    · cases he
    · cases he
      exact ⟨_, _, rfl⟩

/-- With room for the priorities of the program's own workers, a server cannot start only if a file
cannot be opened or a module cannot be loaded. -/
theorem of_build_error {files : Files} {clock : Timestamp} {s : Settings} {e : Error}
    (hb : s.bands.Exact) (hlt : s.bands.low.toInt < s.bands.high.toInt)
    (he : build files clock s = .error e) :
    (∃ path cause, e = .opening path cause) ∨ ∃ name cause, e = .start (.module name cause) := by
  obtain ⟨w₁, hloggers, hw₁⟩ := hb.attempt_installLoggers hlt (Error.start ∘ .loggers)
    s.eventLogLevel
    (w := .ofHouse { House.empty s.bands clock with files, linkConfig := s.queue } .interactive)
    ⟨rfl, rfl, rfl, rfl⟩ rfl rfl rfl rfl
  rcases bind_eq_error he with he | ⟨_, h₁, he⟩
  · cases hloggers.symm.trans he
  cases hloggers.symm.trans h₁
  rcases bind_eq_error he with he | ⟨store, -, he⟩
  · exact .inl (of_openStore_error he)
  obtain ⟨w₂, hfurnish⟩ := hb.attempt_furnish hlt (Error.start ∘ .furnishing)
    (hw₁.addSink.store store)
  rcases bind_eq_error he with he | ⟨_, h₂, he⟩
  · cases hfurnish.symm.trans he
  cases hfurnish.symm.trans h₂
  dsimp only at he
  split at he
  · cases he
  · next hload =>
    obtain ⟨name, cause, rfl⟩ := World.of_loadAll_error _ hload
    exact .inr ⟨name, cause, (Except.error.inj he).symm⟩

end Server

/-! ### Event handlers -/

namespace Act

section

variable (q : Phrase) (name : Option Name) (doc : Option String) (body : Body) (scope : ScopeId)
  {h h₁ : House} {pattern : Name} (hparams : (params q scope).runOn h = (.ok pattern, h₁))
  (hpattern : pattern ≠ []) (hfree : ∀ n, name = some n → h₁.handler? n = none)
include hparams hpattern hfree

/-- An event handler is made with the outfit of the house. -/
theorem runOn_defineHandler_none : ∃ h₂ : House, h₂.outfit = h.outfit ∧
    (defineHandler q none name doc body scope).runOn h =
      (addHandler h₂ (h.handlerFor pattern none name doc body scope)).runOn h₂ := by
  have houtfit : ((params q scope).runOn h).2.outfit = h.outfit :=
    (ensures_params (p := (·.outfit = h.outfit)) q scope h rfl).1
  rw [hparams] at houtfit
  have hnext : h₁.nextHandler = h.nextHandler := congrArg Outfit.nextHandler houtfit
  have hbands : h₁.bands = h.bands := congrArg (·.registry.bands) houtfit
  refine ⟨h₁, houtfit, ?_⟩
  rw [runOn_defineHandler q none name doc body scope hparams hpattern hfree, House.handlerFor,
    House.handlerFor, hnext, hbands]

/-- An event handler that asks for no priority is registered as an ordinary worker. -/
theorem runOn_defineHandler_ordinary (hordinary : h.bands.contains h.bands.defaultPriority = true) :
    ∃ registry h', (defineHandler q none name doc body scope).runOn h = (.ok (), h') ∧
      registry.workers.Perm (⟨⟨h.registry.next⟩,
        .handler (h.handlerFor pattern none name doc body scope)⟩ :: h.registry.workers) ∧
      h'.outfit = { h.outfit with
        registry
        handlers := h.handlers ++
          [(⟨h.registry.next⟩, h.handlerFor pattern none name doc body scope)]
        nextHandler := h.nextHandler + 1 } := by
  obtain ⟨h₂, houtfit, hrun⟩ :=
    runOn_defineHandler_none q name doc body scope hparams hpattern hfree
  have hregistry : h₂.registry = h.registry := congrArg Outfit.registry houtfit
  rw [Bands.contains, Bool.not_eq_true'] at hordinary
  obtain ⟨registry, hadded, -, hworkers⟩ := Registry.register_of_free (r := h₂.registry)
    (w := .handler (h.handlerFor pattern none name doc body scope))
    fun hsystem => absurd (hregistry ▸ hsystem) (hordinary ▸ Bool.false_ne_true)
  rw [runOn_addHandler, hadded] at hrun
  rw [hregistry] at hworkers
  exact ⟨registry, _, hrun, hworkers, congrArg (fun F => ({ F with
    registry
    handlers := F.handlers ++ [(⟨F.registry.next⟩, h.handlerFor pattern none name doc body scope)]
    nextHandler := F.nextHandler + 1 } : Outfit)) houtfit⟩

/-- It is refused if the priority is one of the system that is taken. -/
theorem runOn_defineHandler_taken (hsystem : h.bands.contains h.bands.defaultPriority = false)
    {y : Registered} (hy : y ∈ h.registry.workers)
    (hpriority : y.worker.priority = h.bands.defaultPriority) :
    ∃ owner h', (defineHandler q none name doc body scope).runOn h =
        (.error (.work (.priorityTaken h.bands.defaultPriority owner)), h') ∧
      h'.outfit = { h.outfit with nextHandler := h.nextHandler + 1 } := by
  obtain ⟨h₂, houtfit, hrun⟩ :=
    runOn_defineHandler_none q name doc body scope hparams hpattern hfree
  have hregistry : h₂.registry = h.registry := congrArg Outfit.registry houtfit
  rw [Bands.contains, Bool.not_eq_false'] at hsystem
  obtain ⟨owner, hrefused⟩ := Registry.register_of_taken (r := h₂.registry)
    (w := .handler (h.handlerFor pattern none name doc body scope)) (hregistry ▸ hsystem)
    (hregistry ▸ hy) hpriority
  rw [runOn_addHandler, hrefused] at hrun
  exact ⟨owner, _, hrun,
    congrArg (fun F : Outfit => { F with nextHandler := F.nextHandler + 1 }) houtfit⟩

end

end Act

/-! ### Settings -/

/-- Settings that are accepted have a band. -/
theorem Settings.low_lt_high {s : Settings} (hs : s.fault? = none) :
    s.bands.low.toInt < s.bands.high.toInt := by
  by_contra hge
  have hle : s.bands.high ≤ s.bands.low := Int32.le_iff_toInt_le.mpr (Int.not_lt.mp hge)
  rw [fault?, if_pos hle] at hs
  cases hs

open Act in
/-- Priorities are given out as they should be, except to event handlers in a cramped band. -/
structure Settings.Apportions (s : Settings) : Prop where
  /-- The program's own workers have priorities of the system. -/
  system : ∀ p ∈ s.bands.own, s.bands.isSystem p = true
  /-- No two of them have the same. -/
  apart : s.bands.own.Nodup
  /-- A start never fails for a priority. -/
  starts : ∀ files clock e, Server.build files clock s = .error e →
    (∃ path cause, e = .opening path cause) ∨ ∃ name cause, e = .start (.module name cause)
  /-- The priority of event handlers that ask for none comes after the middle of the band. -/
  middle : s.bands.defaultPriority.toInt = (s.bands.low.toInt + s.bands.high.toInt).tdiv 2 + 1
  ordinary : s.bands.contains s.bands.defaultPriority = true ↔ ¬ s.bands.Cramped
  /-- In other bands they are registered with that priority, an ordinary one. -/
  defines : ¬ s.bands.Cramped → ∀ (q : Phrase) (name : Option Name) (doc : Option String)
    (body : Body) (scope : ScopeId) (h h₁ : House) (pattern : Name), h.bands = s.bands →
    (params q scope).runOn h = (.ok pattern, h₁) → pattern ≠ [] →
    (∀ n, name = some n → h₁.handler? n = none) →
    ∃ registry h', (defineHandler q none name doc body scope).runOn h = (.ok (), h') ∧
      registry.workers.Perm (⟨⟨h.registry.next⟩,
        .handler (h.handlerFor pattern none name doc body scope)⟩ :: h.registry.workers) ∧
      s.bands.contains (h.handlerFor pattern none name doc body scope).priority = true ∧
      h'.outfit = { h.outfit with
        registry
        handlers := h.handlers ++
          [(⟨h.registry.next⟩, h.handlerFor pattern none name doc body scope)]
        nextHandler := h.nextHandler + 1 }
  /-- In a cramped band they are refused while the worker is there that logs the end of events. -/
  refuses : s.bands.Cramped → ∀ (q : Phrase) (name : Option Name) (doc : Option String)
    (body : Body) (scope : ScopeId) (h h₁ : House) (pattern : Name), h.bands = s.bands →
    (params q scope).runOn h = (.ok pattern, h₁) → pattern ≠ [] →
    (∀ n, name = some n → h₁.handler? n = none) →
    (∃ y ∈ h.registry.workers, y.worker.priority = s.bands.doneLog) →
    ∃ owner h', (defineHandler q none name doc body scope).runOn h =
        (.error (.work (.priorityTaken s.bands.doneLog owner)), h') ∧
      h'.outfit = { h.outfit with nextHandler := h.nextHandler + 1 }

/-- Settings are accepted whatever the ends of the band are, if the one is below the other. Nothing
that is computed from it overflows exactly if it keeps a distance of two from the smallest and the
greatest number and the sum of its ends is a number of 32 bits, and then priorities are given out as
they should be, except to event handlers in a cramped band. -/
theorem Settings.priorities_of_accepted {s : Settings} (hs : s.fault? = none) :
    (s.bands.Exact ↔ -2 ^ 31 + 2 ≤ s.bands.low.toInt ∧ s.bands.high.toInt < 2 ^ 31 - 2 ∧
      -2 ^ 31 ≤ s.bands.low.toInt + s.bands.high.toInt ∧
      s.bands.low.toInt + s.bands.high.toInt < 2 ^ 31) ∧
    (s.bands.Exact → s.Apportions) := by
  have hlt := low_lt_high hs
  refine ⟨Bands.exact_iff, fun hb => ?_⟩
  have hordinary := hb.contains_defaultPriority hlt
  refine ⟨hb.isSystem, hb.nodup hlt, fun _ _ _ => Server.of_build_error hb hlt, ?_, hordinary,
    ?_, ?_⟩
  · rw [Bands.toInt_defaultPriority, hb.sum]
  · intro hroomy q name doc body scope h h₁ pattern hbands hparams hpattern hfree
    rw [← hbands] at hordinary hroomy ⊢
    obtain ⟨registry, h', hrun, hworkers, houtfit⟩ := Act.runOn_defineHandler_ordinary q name doc
      body scope hparams hpattern hfree (hordinary.mpr hroomy)
    exact ⟨registry, h', hrun, hworkers, hordinary.mpr hroomy, houtfit⟩
  · rintro hcramped q name doc body scope h h₁ pattern hbands hparams hpattern hfree
      ⟨y, hy, hpriority⟩
    have hsystem := mt hordinary.mp (not_not_intro hcramped)
    rw [← hb.defaultPriority_of_cramped hcramped, ← hbands] at hpriority ⊢
    rw [← hbands, Bool.not_eq_true] at hsystem
    exact Act.runOn_defineHandler_taken q name doc body scope hparams hpattern hfree hsystem hy
      hpriority

/-- In a band of negative and positive numbers `on a` is registered just after the middle. -/
theorem Settings.priorities_of_accepted_negative : ∃ (s : Settings) (q : Phrase),
    s.bands = ⟨-7, 2⟩ ∧ s.fault? = none ∧ s.Apportions ∧
    ∃ h', (Act.defineHandler q none none none default (House.empty s.bands default).root).runOn
        (House.empty s.bands default) = (.ok (), h') ∧
      h'.handlers.map (·.2.priority) = [-1] := by
  let s : Settings := { Settings.standard with bands := ⟨-7, 2⟩ }
  let h := House.empty s.bands default
  let verb : Verb := { (default : Verb) with name := [.text "on"] }
  let q : Phrase := ⟨verb, ⟨0, [.text "on", .text "a"], h.root, default⟩, 1⟩
  have hs : s.fault? = none := by
    rw [← Option.isNone_iff_eq_none]
    decide +kernel
  have hexact : s.bands.Exact := (priorities_of_accepted hs).1.mpr (by decide)
  have happortions := (priorities_of_accepted hs).2 hexact
  have hmiddle : s.bands.defaultPriority = -1 := by decide
  have hroomy : ¬ s.bands.Cramped := happortions.ordinary.mp (by decide)
  have hparams : (Act.params q h.root).runOn h =
      (.ok [.text "a"], ((Act.params q h.root).runOn h).2) := Prod.ext (by rfl) rfl
  obtain ⟨registry, h', hrun, -, -, houtfit⟩ := happortions.defines hroomy q none none default
    h.root h _ _ rfl hparams (List.cons_ne_nil _ _) nofun
  exact ⟨s, q, rfl, hs, happortions, h', hrun,
    (congrArg (fun F : Outfit => F.handlers.map (·.2.priority)) houtfit).trans
      (congrArg ([·]) hmiddle)⟩

/-- Settings with a cramped band. -/
def Settings.cramped : Settings :=
  { Settings.standard with bands := ⟨-1, 0⟩, modules := ["on_event"] }

/-- They are accepted and a server starts with them, but `on a` is refused. -/
theorem Settings.cramped_refused : cramped.fault?.isNone = true ∧
    cramped.bands.contains cramped.bands.defaultPriority = false ∧
    ((Server.build .empty default cramped).toOption.bind fun server =>
      (server.world.runText "on a:\n\tname x\n").1).map
        (fun | .ok _ => none | .error e => some e.chain) =
      some (some ["line 2: priority 1 is reserved and already taken by log done",
        "priority 1 is reserved and already taken by log done"]) := by
  decide +kernel

end Hearth
