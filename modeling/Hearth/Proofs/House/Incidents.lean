import Hearth.Proofs.House.Calls
import Hearth.Proofs.House.Fixtures

/-!
# What can happen to fixtures

One step of a strand does at most one thing to the fixtures of the house. What it may do depends on
what the strand is in the middle of: the modules that it loads, unloads or clears away, and its
waits. `Shift` lists all that can happen, each with what the strand was in the middle of before and
what it is in the middle of after; whatever is to be kept by the steps of strands has to be looked at
once for each of them.

## Main definitions

* `Mark` : what a strand can be in the middle of.
* `Incident`, `Shift` : all that one step can do to fixtures.
* `Act.Spares`, `Act.Shifts` : work that leaves the fixtures alone, or does one thing to them.

## Main results

* `Act.runOn_uninstall`, `Act.runOn_startWait` : what a module did is undone, and a wait is listed.
* `Act.runOn_addHandler`, `Act.runOn_deleteHandler` : an event handler is listed, and taken away.
* `Act.shifts_defineHandler`, `Act.shifts_deleteHandler` : event handlers come and go.
-/

namespace Hearth

/-! ### What a strand is in the middle of -/

/-- Something that a strand is in the middle of. -/
inductive Mark where
  /-- It announced that a module is to be loaded. -/
  | loading (m : Module)
  /-- It took a module off those that are loaded, and announced that. -/
  | unloading (m : Module)
  /-- What a module registered is to be taken away. -/
  | clearing (m : Module)
  /-- It listed a wait and announced its start. -/
  | starting (name : Name) (token : Nat) (span : Span)
  | waiting (name : Name) (token due : Nat)

/-- The module that a mark is about. -/
def Mark.module? : Mark → Option Module
  | .loading m | .unloading m | .clearing m => some m
  | .starting .. | .waiting .. => none

/-- What a frame says that its strand is in the middle of. -/
def Frame.mark? : Frame → Option Mark
  | .loadStarted m => some (.loading m)
  | .unloadStarted m => some (.unloading m)
  | .uninstall m => some (.clearing m)
  | .waitStarted name token span _ => some (.starting name token span)
  | _ => none

/-- What a strand is in the middle of by what it is doing. -/
def Doing.mark? : Doing → Option Mark
  | .call (.takeDown m) => some (.clearing m)
  | .pause (.wait name token due) => some (.waiting name token due)
  | _ => none

/-- Does a frame belong to a wait that is paused? -/
def Frame.isWaited : Frame → Bool
  | .waited _ _ => true
  | _ => false

/-- The marks of some frames under what is done. -/
def marksOf (frames : List Frame) (d : Doing) : List Mark :=
  d.mark?.toList ++ frames.filterMap Frame.mark?

/-- What a move begins. -/
def Move.marks (m : Move) : List Mark := marksOf m.frames m.doing

/-- Everything that a strand is in the middle of, the innermost first. -/
def Strand.State.marks (t : State) : List Mark := marksOf t.frames t.doing

/-- Frames of which none belongs to a wait that is paused. -/
def Unwaited (frames : List Frame) : Prop := frames.all (fun f => !f.isWaited) = true

/-- The frame of a wait that is paused is the innermost one, under its pause. -/
inductive Proper : List Frame → Doing → Prop
  | waiting (name : Name) (token due : Nat) (scope : ScopeId) {frames : List Frame}
    (unwaited : Unwaited frames) :
    Proper (.waited name scope :: frames) (.pause (.wait name token due))
  | other {frames : List Frame} {d : Doing} (unwaited : Unwaited frames)
    (elsewhere : ∀ name token due, d ≠ .pause (.wait name token due)) : Proper frames d

theorem Proper.of_call {frames : List Frame} {c : Call} (unwaited : Unwaited frames) :
    Proper frames (.call c) := .other unwaited nofun

theorem Unwaited.append {frames base : List Frame} (h : Unwaited frames) (hb : Unwaited base) :
    Unwaited (frames ++ base) := by
  rw [Unwaited, List.all_append, h, hb]
  rfl

theorem Proper.append {frames base : List Frame} {d : Doing} (h : Proper frames d)
    (hb : Unwaited base) : Proper (frames ++ base) d := by
  cases h with
  | waiting name token due scope unwaited =>
    exact .waiting name token due scope (unwaited.append hb)
  | other unwaited elsewhere => exact .other (unwaited.append hb) elsewhere

theorem marksOf_append (frames base : List Frame) (d : Doing) :
    marksOf (frames ++ base) d = marksOf frames d ++ base.filterMap Frame.mark? := by
  rw [marksOf, marksOf, List.filterMap_append, List.append_assoc]

/-- A move of which nothing is in the middle, and under which no wait is paused. -/
structure Move.Idle (m : Move) : Prop where
  marks : m.marks = []
  unwaited : Unwaited m.frames

theorem Move.Idle.proper {m : Move} (h : m.Idle) : Proper m.frames m.doing := by
  refine .other h.unwaited fun name token due hd => ?_
  have hmarks := h.marks
  rw [Move.marks, marksOf, hd] at hmarks
  exact absurd hmarks (List.cons_ne_nil _ _)

theorem Move.Plain.idle {m : Move} (h : m.Plain) : m.Idle := by
  have hframe {f : Frame} (hf : f ∈ m.frames) : f.mark? = none ∧ f.isWaited = false := by
    have hplain := List.all_eq_true.mp h.frames f hf
    cases f <;> first | exact ⟨rfl, rfl⟩ | cases hplain
  have hdoing : m.doing.mark? = none := by
    have hplain := h.doing
    generalize m.doing = d at hplain ⊢
    cases d with
    | call c => cases c <;> first | rfl | cases hplain
    | give o => rfl
    | pause p => cases p <;> first | rfl | cases hplain
  constructor
  · rw [Move.marks, marksOf, hdoing, List.filterMap_eq_nil_iff.mpr fun f hf => (hframe hf).1]
    rfl
  · exact List.all_eq_true.mpr fun f hf => by rw [(hframe hf).2]; rfl

/-! ### Incidents -/

/-- What a step did to the fixtures of a house. -/
inductive Incident where
  | quiet
  /-- A module is to be loaded. -/
  | requests (m : Module)
  | loads (m : Module)
  /-- A module cannot be loaded. -/
  | fails (m : Module)
  | unloads (m : Module)
  /-- What a module registered is taken away. -/
  | clears (m : Module)
  /-- An event handler comes or goes. -/
  | arranges
  | starts (name : Name) (token : Nat)
  /-- The start of a wait failed when it was announced. -/
  | withdraws (name : Name) (token : Nat)
  /-- The time of a wait is over. -/
  | ends (name : Name) (token : Nat)
  /-- A wait ends early. -/
  | breaksOff (name : Name) (token : Nat)
  | cancels (name : Name)
  | cancelsAll
  /-- Time passes. -/
  | passes

namespace Fixtures

/-- Is a module loaded? -/
def isLoaded (F : Fixtures) (name : Name) : Bool := F.loaded.any (·.name == name)

/-- A module is put among those that are loaded; one that is there already keeps its place. -/
def markLoaded (m : Module) (F : Fixtures) : Fixtures :=
  if F.isLoaded m.name then F else { F with loaded := F.loaded ++ [m] }

/-- What a module did is undone. -/
def clear (m : Module) (F : Fixtures) : Fixtures :=
  match m.feature with
  | .handlers => F.clearHandlers.takeAway m.name
  | .wait => { F with waits := [] }.takeAway m.name
  | _ => F.takeAway m.name

/-- The wait that has a name is taken off the list. -/
def dropWait (name : Name) (F : Fixtures) : Fixtures :=
  { F with waits := NameMap.erase F.waits name }

section

variable (m : Module) (F : Fixtures)

/-- Only the list of loaded modules changes when a module is put on it. -/
theorem markLoaded_rest : F.markLoaded m = { F with loaded := (F.markLoaded m).loaded } := by
  rw [markLoaded]
  split <;> rfl

theorem mem_markLoaded {m' : Module} (hm' : m' ∈ (F.markLoaded m).loaded) :
    m' ∈ F.loaded ∨ m' = m := by
  rw [markLoaded] at hm'
  split at hm'
  · exact .inl hm'
  · exact (List.mem_append.mp hm').imp_right List.mem_singleton.mp

/-- What is undone: the shelf, the handlers and the waits. -/
theorem clear_rest : F.clear m =
    { F.takeAway m.name with
      registry := (F.clear m).registry
      handlers := (F.clear m).handlers
      waits := (F.clear m).waits } := by
  rw [clear]
  split <;> rfl

end

end Fixtures

/-- All that one step can do to fixtures, from being in the middle of something to being in the
middle of something else. -/
inductive Shift : Incident → Fixtures → List Mark → Fixtures → List Mark → Prop
  | quiet (F : Fixtures) (marks : List Mark) : Shift .quiet F marks F marks
  | requests {F : Fixtures} {name : Name} {m : Module}
    (known : NameMap.get? F.catalog name = some m) (unloaded : F.isLoaded name = false) :
    Shift (.requests m) F [] F [.loading m]
  /-- All that a module provides is registered. -/
  | loads {F F' : Fixtures} {m : Module} (gains : F.Gains m.name m.feature.provides F') :
    Shift (.loads m) F [.loading m] (F'.markLoaded m) []
  /-- Something that a module provides cannot be registered, because the name is taken. -/
  | fails {F F' : Fixtures} {m : Module} {done rest : List Provision} {x : Provision}
    (gains : F.Gains m.name done F') (stops : m.feature.provides = done ++ x :: rest)
    (taken : x.key ∈ F'.keys) : Shift (.fails m) F [.loading m] F' [.clearing m]
  | unloads {F : Fixtures} {m : Module} (listed : m ∈ F.loaded) :
    Shift (.unloads m) F [] { F with loaded := F.loaded.filter (·.name != m.name) } [.unloading m]
  /-- That a module is to be unloaded was announced. -/
  | undoes (F : Fixtures) (m : Module) : Shift .quiet F [.unloading m] F [.clearing m]
  | clears (F : Fixtures) (m : Module) : Shift (.clears m) F [.clearing m] (F.clear m) []
  | defines {F : Fixtures} {x : Handler} {id : WorkerId} {registry : Registry}
    (added : F.registry.register (.handler x) = .ok (id, registry)) :
    Shift .arranges F [] { F with registry, handlers := F.handlers ++ [(id, x)] } []
  | removes {F : Fixtures} {x : WorkerId × Handler} (listed : x ∈ F.handlers) :
    Shift .arranges F [] { F with
      registry := F.registry.without [x.1], handlers := F.handlers.filter (·.1 != x.1) } []
  | starts {F : Fixtures} {name : Name} {w : Waiting} (span : Span)
    (free : name ∉ F.waits.map (·.1)) (token : w.token = F.nextToken) :
    Shift (.starts name w.token) F [] { F with
      waits := NameMap.insert name w F.waits, nextToken := F.nextToken + 1 }
      [.starting name w.token span]
  /-- That a wait starts was announced. -/
  | waits (F : Fixtures) (name : Name) (token : Nat) (span : Span) :
    Shift .quiet F [.starting name token span] F [.waiting name token (F.now + span.nanos)]
  | withdraws (F : Fixtures) (name : Name) (token : Nat) (span : Span) :
    Shift (.withdraws name token) F [.starting name token span] (F.dropWait name) []
  | ends {F : Fixtures} {due : Nat} (name : Name) (token : Nat) (passed : due ≤ F.now) :
    Shift (.ends name token) F [.waiting name token due] (F.dropWait name) []
  | breaksOff {F : Fixtures} {token : Nat} (name : Name) (due : Nat)
    (gone : ∀ w ∈ F.waits, w.2.token ≠ token) :
    Shift (.breaksOff name token) F [.waiting name token due] F []
  | cancels {F : Fixtures} {name : Name} (listed : name ∈ F.waits.map (·.1)) :
    Shift (.cancels name) F [] (F.dropWait name) []
  | cancelsAll (F : Fixtures) : Shift .cancelsAll F [] { F with waits := [] } []
  | passes {F : Fixtures} {now : Nat} (later : F.now ≤ now) :
    Shift .passes F [] { F with now } []

section

variable {d : Incident} {F F' : Fixtures} {used made : List Mark}

/-- The catalog and the verbs outside all blocks never change. -/
theorem Shift.lasting (hs : Shift d F used F' made) : F'.catalog = F.catalog ∧ F'.top = F.top := by
  cases hs with
  | loads hgains =>
    rw [Fixtures.markLoaded_rest, hgains.rest]
    exact ⟨rfl, rfl⟩
  | fails hgains =>
    rw [hgains.rest]
    exact ⟨rfl, rfl⟩
  | clears =>
    rw [Fixtures.clear_rest]
    exact ⟨rfl, rfl⟩
  | _ => exact ⟨rfl, rfl⟩

/-- The modules that come into play come from the catalog. -/
theorem Shift.known {known : Module → Prop} (hs : Shift d F used F' made)
    (hcatalog : ∀ name m, NameMap.get? F.catalog name = some m → known m)
    (hloaded : ∀ m ∈ F.loaded, known m) (hused : ∀ x ∈ used, ∀ m, x.module? = some m → known m) :
    (∀ m ∈ F'.loaded, known m) ∧ ∀ x ∈ made, ∀ m, x.module? = some m → known m := by
  have hnone {P : Mark → Prop} : ∀ x ∈ ([] : List Mark), P x := List.forall_mem_nil _
  have hone {x : Mark} {m : Module} (hx : x.module? = some m) (hm : known m) :
      ∀ y ∈ [x], ∀ m, y.module? = some m → known m := by
    refine List.forall_mem_singleton.mpr fun m' hm' => ?_
    rw [hx] at hm'
    exact Option.some.inj hm' ▸ hm
  cases hs with
  | quiet => exact ⟨hloaded, hused⟩
  | requests hm => exact ⟨hloaded, hone rfl (hcatalog _ _ hm)⟩
  | loads hgains =>
    refine ⟨fun m' hm' => ?_, hnone⟩
    rcases Fixtures.mem_markLoaded _ _ hm' with hm' | rfl
    · rw [hgains.rest] at hm'
      exact hloaded m' hm'
    · exact hused _ (.head _) _ rfl
  | fails hgains =>
    refine ⟨fun m' hm' => ?_, hone rfl (hused _ (.head _) _ rfl)⟩
    rw [hgains.rest] at hm'
    exact hloaded m' hm'
  | unloads hm =>
    exact ⟨fun m' hm' => hloaded m' (List.mem_filter.mp hm').1, hone rfl (hloaded _ hm)⟩
  | undoes m => exact ⟨hloaded, hone rfl (hused _ (.head _) _ rfl)⟩
  | clears m =>
    rw [Fixtures.clear_rest]
    exact ⟨hloaded, hnone⟩
  | starts | waits => exact ⟨hloaded, List.forall_mem_singleton.mpr nofun⟩
  | _ => exact ⟨hloaded, hnone⟩

end

/-! ### Work on fixtures -/

namespace Act

variable {h : House}

theorem fixtures_endWait (name : Name) (h : House) :
    (endWait name h).2.fixtures = h.fixtures.dropWait name := by
  rw [endWait]
  split
  · rfl
  · next hnone =>
    have herase : NameMap.erase h.waits name = h.waits := NameMap.erase_eq_self hnone
    rw [Fixtures.dropWait]
    change h.fixtures = { h.fixtures with waits := NameMap.erase h.waits name }
    rw [herase]
    rfl

theorem fixtures_markLoaded (m : Module) (h : House) :
    (markLoaded m h).fixtures = h.fixtures.markLoaded m := by
  rw [markLoaded, Fixtures.markLoaded]
  change _ = if h.isLoaded m.name then h.fixtures else _
  split <;> rfl

/-- What a module did is undone. -/
theorem runOn_uninstall {m : Module} (hm : ∀ x, m.feature ≠ .probe x) (h : House) :
    ∃ h', (uninstall m).runOn h = (.ok (), h') ∧ h'.fixtures = h.fixtures.clear m := by
  obtain ⟨name, info, feature⟩ := m
  cases feature with
  | probe x => exact absurd rfl (hm x)
  | handlers =>
    refine ⟨_, rfl, ?_⟩
    exact (fixtures_takeAllAway name _).trans (by rw [fixtures_clearHandlers]; rfl)
  | wait =>
    refine ⟨_, rfl, ?_⟩
    exact (fixtures_takeAllAway name _).trans (by rw [fixtures_cancelWaits]; rfl)
  | _ => exact ⟨_, rfl, fixtures_takeAllAway name h⟩

/-- A wait is listed under a name that is free, with the next token. -/
theorem runOn_startWait (name : Name) (span : Span) (h : House) :
    (∃ e, (startWait name span).runOn h = (.error e, h)) ∨
      name ∉ h.waits.map (·.1) ∧ ∃ (w : Waiting) (h' : House),
        (startWait name span).runOn h = (.ok w.token, h') ∧ w.token = h.nextToken ∧
          h'.fixtures = { h.fixtures with
            waits := NameMap.insert name w h.waits, nextToken := h.nextToken + 1 } := by
  rw [startWait, runOn_get_bind]
  split
  · exact .inl ⟨_, rfl⟩
  · next hfree =>
    let w : Waiting := ⟨h.nextToken, h.clock, ⟨h.clock.nanos + span.nanos⟩⟩
    exact .inr ⟨fun hk => hfree (NameMap.has_iff.mpr hk), w, _, rfl, rfl, rfl⟩

/-! ### Work that does at most one thing -/

variable {α β : Type}

/-- Work that does at most one thing to the fixtures, and of which nothing is left to be done. -/
def Shifts (a : Act α) : Prop :=
  ∀ h, ∃ d, Shift d h.fixtures [] (a.runOn h).2.fixtures []

/-- Work that leaves the fixtures alone. -/
abbrev Spares (a : Act α) : Prop := ∀ F, a.Upholds (·.fixtures = F)

theorem Spares.fixtures_eq {a : Act α} (ha : a.Spares) (h : House) :
    (a.runOn h).2.fixtures = h.fixtures := (ha h.fixtures h rfl).1

namespace Shifts

theorem of_spares {a : Act α} (ha : a.Spares) : a.Shifts := by
  intro h
  rw [ha.fixtures_eq h]
  exact ⟨_, .quiet _ _⟩

theorem throw (e : ScriptError) : (MonadExcept.throw e : Act α).Shifts :=
  .of_spares fun _ => .throw e

theorem throw_bind (e : ScriptError) (b : α → Act β) : (MonadExcept.throw e >>= b).Shifts :=
  .of_spares fun _ => .throw_bind e b

theorem update {f : House → House} (hf : ∀ h, ∃ d, Shift d h.fixtures [] (f h).fixtures []) :
    (Act.update f).Shifts := hf

theorem perform {f : House → α × House}
    (hf : ∀ h, ∃ d, Shift d h.fixtures [] (f h).2.fixtures []) : (Act.perform f).Shifts := hf

/-- The one thing is done in the second part. -/
theorem bind {a : Act β} {b : β → Act α} (ha : a.Spares) (hb : ∀ x, (b x).Shifts) :
    (a >>= b).Shifts := by
  intro h
  have hfirst := ha.fixtures_eq h
  rw [runOn_bind]
  generalize a.runOn h = s at hfirst ⊢
  obtain ⟨_ | x, h₁⟩ := s
  · dsimp only at hfirst ⊢
    rw [hfirst]
    exact ⟨_, .quiet _ _⟩
  · rw [← hfirst]
    exact hb x h₁

end Shifts

/-! ### Event handlers -/

theorem runOn_register (w : Worker) (h : House) : (register w).runOn h =
    match h.registry.register w with
    | .ok (id, registry) => (.ok id, { h with registry })
    | .error e => (.error (.work e), h) := by
  rw [register, runOn_get_bind, runOn_bind]
  rcases h.registry.register w with e | ⟨id, registry⟩ <;> rfl

/-- An event handler gets its number, is registered, and is listed. -/
def addHandler (h : House) (x : Handler) : Act Unit := do
  MonadStateOf.set { h with nextHandler := h.nextHandler + 1 }
  let worker ← register (.handler x)
  update fun h => { h with handlers := h.handlers ++ [(worker, x)] }

theorem runOn_addHandler (h k : House) (x : Handler) : (addHandler h x).runOn k =
    match h.registry.register (.handler x) with
    | .ok (id, registry) =>
      (.ok (), { h with
        registry, handlers := h.handlers ++ [(id, x)], nextHandler := h.nextHandler + 1 })
    | .error e => (.error (.work e), { h with nextHandler := h.nextHandler + 1 }) := by
  rw [addHandler, runOn_set_bind, runOn_bind, runOn_register]
  rcases h.registry.register (.handler x) with e | ⟨id, registry⟩ <;> rfl

theorem shifts_addHandler (x : Handler) (h : House) :
    ∃ d, Shift d h.fixtures [] ((addHandler h x).runOn h).2.fixtures [] := by
  rw [runOn_addHandler]
  cases hr : h.registry.register (.handler x) with
  | error e => exact ⟨_, .quiet _ _⟩
  | ok r => exact ⟨_, .defines hr⟩

theorem shifts_defineHandler (p : Phrase) (priority : Option Int32) (name : Option Name)
    (doc : Option String) (body : Body) (scope : ScopeId) :
    (defineHandler p priority name doc body scope).Shifts := by
  rw [defineHandler]
  refine .bind (fun _ => ensures_params p scope) fun pattern h => ?_
  by_cases hpattern : pattern.isEmpty = true
  · rw [if_pos hpattern]
    exact Shifts.throw_bind _ _ h
  · rw [if_neg hpattern]
    dsimp only
    rw [runOn_get_bind]
    cases name with
    | none => exact shifts_addHandler _ h
    | some name =>
      dsimp only
      split
      · exact Shifts.throw_bind _ _ h
      · exact shifts_addHandler _ h

theorem mem_handlers {name : Name} {x : WorkerId × Handler} (hx : h.handler? name = some x) :
    x ∈ h.handlers := by
  unfold House.handler? at hx
  cases hfind : h.handlers.find? fun x => x.2.name == name with
  | some y =>
    rw [hfind] at hx
    obtain rfl := Option.some.inj hx
    exact List.mem_of_find?_eq_some hfind
  | none =>
    rw [hfind] at hx
    dsimp only at hx
    split at hx
    · obtain ⟨n, -, hn⟩ := Option.bind_eq_some_iff.mp hx
      exact List.mem_of_find?_eq_some hn
    · cases hx

/-- The event handler that a name refers to is taken off the list, and its worker away. -/
theorem runOn_deleteHandler {name : Name} {x : WorkerId × Handler} (hx : h.handler? name = some x) :
    (deleteHandler name).runOn h =
      ((match h.registry.unregister x.1 with
        | .ok _ => .ok ()
        | .error e => .error (.work e)),
      { h with
        handlers := h.handlers.filter (·.1 != x.1), registry := h.registry.without [x.1] }) := by
  rw [deleteHandler, runOn_get_bind, hx]
  dsimp only
  rw [runOn_update_bind, runOn_bind, unregister, runOn_get_bind, runOn_bind,
    ← Registry.unregister_without]
  dsimp only
  rcases h.registry.unregister x.1 with e | ⟨w, registry⟩ <;> rfl

theorem shifts_deleteHandler (name : Name) : (deleteHandler name).Shifts := by
  intro h
  cases hx : h.handler? name with
  | none =>
    rw [deleteHandler, runOn_get_bind, hx]
    exact Shifts.throw _ h
  | some x =>
    rw [runOn_deleteHandler hx]
    exact ⟨_, .removes (F := h.fixtures) (mem_handlers hx)⟩

end Act

end Hearth
