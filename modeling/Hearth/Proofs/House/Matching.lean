import Hearth.Proofs.House.Names

/-!
# Which event handlers match

The workers of event handlers come and go with them, so an event is dispatched to just the event
handlers that are listed then and whose pattern matches. An event handler stays on the list until a
statement deletes it by a name that refers to it, or all of them are taken away; once it is off the
list it never comes back.

## Main definitions

* `House.Names` : the words of a statement name an event handler.
* `Strand.State.Removes` : a strand is about to take an event handler away.

## Main results

* `Strand.Goes.removes` : nothing else takes an event handler away.
* `Crowd.handlers_matched` : which event handlers match, now and later.
-/

namespace Hearth

/-! ### Steps of a sequence -/

/-- Among the workers of an event just those of event handlers become steps of event handlers. -/
theorem Step.mem_ofWorkers {y : Handler} (next : Nat) (workers : List Worker) :
    Step.worker (.handler y) ∈ (ofWorkers next workers).1 ↔ .handler y ∈ workers := by
  induction workers generalizing next with
  | nil => simp [ofWorkers]
  | cons w workers ih =>
    have hfirst : Step.worker (.handler y) = (ofWorker next w).1 ↔ .handler y = w := by
      cases w with
      | probe p =>
        obtain ⟨name, priority, pattern, raises, fault, flow, steps, catching, catchFault, notes,
          terse⟩ := p
        cases steps <;> simp [ofWorker, ofProbe]
      | _ => simp [ofWorker]
    rw [ofWorkers, List.mem_cons, List.mem_cons, ← hfirst, ← ih (ofWorker next w).2]

/-- The sequence of an event runs the event handlers that are registered and match. -/
theorem House.mem_sequenceFor {h : House} {e : Event} {y : Handler} :
    .worker (.handler y) ∈ (h.sequenceFor e).1.steps ↔
      .handler y ∈ h.registry.workers.map (·.worker) ∧ Pattern.isMatch y.pattern e.name = true :=
  (Step.mem_ofWorkers _ _).trans List.mem_filter

/-! ### Taking away -/

/-- The words of a statement name an event handler. -/
def House.Refers (h : House) (q : Phrase) (scope : ScopeId) (x : WorkerId × Handler) : Prop :=
  ∃ words h₁ item, (Act.params q scope).runOn h = (.ok words, h₁) ∧
    (Act.resolve words).runOn h₁ = (.ok (.handlers, item), h₁) ∧ h.handler? item = some x

/-- A strand is about to take an event handler away: it runs a statement that deletes it by a name
that refers to it, or it takes all of them away. -/
inductive Strand.State.Removes (h : House) (x : WorkerId × Handler) : State → Prop
  | deletes {q : Phrase} {scope : ScopeId} (frames : List Frame) (deed : q.verb.deed = .delete)
    (refers : h.Refers q scope x) : Removes h x ⟨frames, .call (.statement (.plain q) scope)⟩
  | clears {t : State} {m : Module} (clearing : .clearing m ∈ t.marks)
    (feature : m.feature = .handlers) : Removes h x t

section

variable {x : WorkerId × Handler}

instance : House.Steady (x ∈ ·.handlers) where
  of_untouched {_ h'} hu hx := by
    have hsame : h'.handlers = _ := congrArg Outfit.handlers hu.outfit
    rwa [hsame]

instance : House.Stateless (x ∈ ·.handlers) where
  of_states _ _ _ hx := hx

theorem Act.keeps_defineHandler (q : Phrase) (priority : Option Int32) (name : Option Name)
    (doc : Option String) (body : Body) (scope : ScopeId) :
    (defineHandler q priority name doc body scope).Upholds (x ∈ ·.handlers) := by
  refine ensures_defineHandler _ _ _ _ _ _ fun h y hx _ _ k _ => ⟨?_, fun _ _ => trivial⟩
  rw [runOn_addHandler]
  cases h.registry.register (.handler y) with
  | error e => exact hx
  | ok r => exact List.mem_append_left _ hx

theorem Act.keeps_openLink (name : Name) (ondemand : Option Bool) :
    (openLink name ondemand).Upholds (x ∈ ·.handlers) :=
  fun _ hx => ⟨hx, fun _ _ => trivial⟩

theorem Act.keeps_takeLink (name : Name) : (takeLink name).Upholds (x ∈ ·.handlers) := by
  rw [takeLink]
  refine .get_bind fun h hx => ?_
  split
  · exact .bind (.set hx) fun _ _ => .pure trivial
  · exact .throw _

/-- An event handler stays unless the name refers to it. -/
theorem Act.keeps_deleteHandler {h : House} (hids : (h.handlers.map (·.1)).Nodup)
    (hx : x ∈ h.handlers) {name : Name} (hother : h.handler? name ≠ some x) :
    x ∈ ((deleteHandler name).runOn h).2.handlers := by
  cases hy : h.handler? name with
  | none =>
    rw [deleteHandler, runOn_get_bind, hy]
    exact hx
  | some y =>
    rw [runOn_deleteHandler hy]
    refine List.mem_filter.mpr ⟨hx, bne_iff_ne.mpr fun heq => ?_⟩
    have hsame : x = y := List.inj_on_of_nodup_map hids hx (mem_handlers hy) heq
    exact hother (hsame ▸ hy)

theorem Strand.keeps_takeLinks : (Act.perform House.takeLinks).Upholds (x ∈ ·.handlers) :=
  .perform fun _ hx => hx

theorem Act.runOn_resolve (words : Name) (h : House) :
    ∃ r, (resolve words).runOn h = (r, h) := by
  rw [resolve, runOn_get_bind]
  split <;> exact ⟨_, rfl⟩

/-- Something is deleted that is not an event handler to which the name refers. -/
theorem Strand.keeps_deleteFrom {h : House} (hids : (h.handlers.map (·.1)).Nodup)
    (hx : x ∈ h.handlers) {c : Collection} {item : Name} (scope : ScopeId)
    (hother : c = .handlers → h.handler? item ≠ some x) :
    x ∈ ((deleteFrom c item scope).runOn h).2.handlers := by
  by_cases hc : c = .handlers
  · have hkept := Act.keeps_deleteHandler hids hx (hother hc)
    subst hc
    change x ∈ ((Act.deleteHandler item >>= fun _ => pure Move.done).runOn h).2.handlers
    rw [Act.runOn_bind]
    generalize (Act.deleteHandler item).runOn h = r at hkept ⊢
    rcases r with ⟨e | u, h'⟩ <;> exact hkept
  · exact (deleteFrom_upholds (p := (x ∈ ·.handlers)) (fun heq => absurd heq hc)
      Act.keeps_takeLink scope h hx).1

/-- A statement that deletes takes an event handler away only by a name that refers to it. -/
theorem Strand.refers_of_delete {h : House} (hids : (h.handlers.map (·.1)).Nodup)
    (hx : x ∈ h.handlers) {q : Phrase} {scope : ScopeId} (hdeed : q.verb.deed = .delete)
    (hgone : x ∉ ((runPlain q scope).runOn h).2.handlers) : h.Refers q scope x := by
  rw [runPlain, hdeed] at hgone
  dsimp only at hgone
  rw [Act.runOn_bind] at hgone
  have houtfit : ((Act.params q scope).runOn h).2.outfit = h.outfit :=
    (Act.ensures_params (p := (·.outfit = h.outfit)) q scope h rfl).1
  obtain ⟨r, h₁, hparams⟩ : ∃ r h₁, (Act.params q scope).runOn h = (r, h₁) := ⟨_, _, rfl⟩
  rw [hparams] at hgone houtfit
  have hhandlers : h₁.handlers = h.handlers := congrArg Outfit.handlers houtfit
  rw [← hhandlers] at hx hids
  cases r with
  | error e => exact absurd hx hgone
  | ok words =>
    dsimp only at hgone
    obtain ⟨r, hresolve⟩ := Act.runOn_resolve words h₁
    rw [delete, Act.runOn_bind, hresolve] at hgone
    rcases r with e | ⟨c, item⟩
    · exact absurd hx hgone
    · dsimp only at hgone
      split at hgone
      · exact absurd hx hgone
      · by_contra hrefers
        refine hgone (keeps_deleteFrom hids hx scope fun hc hy => hrefers ?_)
        subst hc
        refine ⟨words, h₁, item, hparams, hresolve, ?_⟩
        unfold House.handler? at hy ⊢
        rwa [← hhandlers]

/-- Nothing else takes an event handler away. -/
theorem Strand.removes_of_step {job : Link.JobId} {h : House} {t : State}
    (hids : (h.handlers.map (·.1)).Nodup) (hx : x ∈ h.handlers)
    (hgone : x ∉ (step job h t).2.1.handlers) : t.Removes h x := by
  rcases step_house job h t with hstays | ⟨c, hc, hstep⟩ | ⟨f, frames, o, rfl, hstep⟩
  · exact absurd (House.Staying.of_stays (p := (x ∈ ·.handlers)) hstays hx) hgone
  · rw [hstep] at hgone
    obtain ⟨frames, d⟩ := t
    obtain rfl : d = .call c := hc
    by_cases hdelete : ∃ q scope, c = .statement (.plain q) scope ∧ q.verb.deed = .delete
    · obtain ⟨q, scope, rfl, hdeed⟩ := hdelete
      exact .deletes frames hdeed (refers_of_delete hids hx hdeed hgone)
    · by_contra hremoves
      refine hgone ((begin_upholds (p := (x ∈ ·.handlers)) job c Act.keeps_defineHandler
        Act.keeps_openLink keeps_takeLinks ?_ ?_ h hx).1)
      · exact fun q scope hq hdeed => absurd ⟨q, scope, hq, hdeed⟩ hdelete
      · rintro m rfl hfeature
        exact absurd (.clears (List.mem_append_left _ (.head _)) hfeature) hremoves
  · rw [hstep] at hgone
    by_contra hremoves
    refine hgone ((resume_upholds (p := (x ∈ ·.handlers)) o f keeps_takeLinks ?_ h hx).1)
    rintro m rfl hfeature
    exact absurd (.clears (List.mem_append_right _ (.head _)) hfeature) hremoves

theorem Strand.Goes.removes {job : Link.JobId} {h h' : House} {t t' : State}
    (hgoes : Goes job h t h' t') (hids : (h.handlers.map (·.1)).Nodup) (hx : x ∈ h.handlers)
    (hgone : x ∉ h'.handlers) : t.Removes h x := by
  cases hgoes with
  | steps => exact removes_of_step hids hx hgone
  | @wakes h' p o frames hended =>
    have hsame : h'.handlers = h.handlers :=
      congrArg Outfit.handlers (House.Untouched.of_stays hended.stays).outfit
    rw [← hsame] at hids hx
    cases removes_of_step hids hx hgone with
    | clears hclearing hfeature =>
      exact .clears (List.mem_append_right _ hclearing) hfeature

end

/-! ### Gone for good -/

/-- An event handler was defined, and is not listed any more. -/
structure Outfit.Gone (y : Handler) (F : Outfit) : Prop where
  defined : y.id < F.nextHandler
  unlisted : ∀ x ∈ F.handlers, x.2 ≠ y

namespace Outfit

variable {F F' : Outfit} {y : Handler}

/-- An event handler that is off the list never comes back. -/
theorem Change.gone (hchange : Change F F') (hy : F.Gone y) : F'.Gone y := by
  cases hchange with
  | spends => exact ⟨Nat.lt_succ_of_lt hy.defined, hy.unlisted⟩
  | @defines x id registry number named added =>
    refine ⟨Nat.lt_succ_of_lt hy.defined, fun z hz heq => ?_⟩
    rcases List.mem_append.mp hz with hz | hz
    · exact hy.unlisted z hz heq
    · rw [List.mem_singleton.mp hz] at heq
      exact absurd hy.defined (by rw [← heq, number]; exact Nat.lt_irrefl _)
  | removes => exact ⟨hy.defined, fun z hz => hy.unlisted z (List.mem_filter.mp hz).1⟩
  | clears => exact ⟨hy.defined, List.forall_mem_nil _⟩
  | opens | takes | takesAll => exact ⟨hy.defined, hy.unlisted⟩

end Outfit

/-! ### Runs -/

namespace Crowd

open Fixtures (Staffed handlerWorker)

variable {c c' : Crowd}

/-- An event handler leaves the list when a strand takes it away. -/
theorem Stride.removes (hs : Stride c c') (hids : (c.house.handlers.map (·.1)).Nodup)
    {x : WorkerId × Handler} (hx : x ∈ c.house.handlers) (hgone : x ∉ c'.house.handlers) :
    ∃ t ∈ c.strands, t.Removes c.house x := by
  cases hs with
  | goes before after hgoes =>
    exact ⟨_, List.mem_append_right _ (.head _), hgoes.removes hids hx hgone⟩
  | come | go => exact absurd hx hgone
  | @other h h' strands hsame hlater =>
    have hhandlers : h'.handlers = h.handlers :=
      congrArg Outfit.handlers (House.Untouched.of_stays hsame).outfit
    exact absurd (hhandlers ▸ hx) hgone

/-- The event handlers that are dispatched are those that are listed, if no others had workers. -/
theorem mem_sequenceFor_iff {base : List Registered} {h : House}
    (hstaffed : Staffed base h.fixtures) (unmanned : ∀ x ∈ base, ∀ y, x.worker ≠ .handler y)
    {e : Event} {y : Handler} :
    .worker (.handler y) ∈ (h.sequenceFor e).1.steps ↔
      (∃ id, (id, y) ∈ h.handlers) ∧ Pattern.isMatch y.pattern e.name = true := by
  rw [House.mem_sequenceFor]
  refine and_congr_left fun _ => ?_
  constructor
  · intro hy
    obtain ⟨w, hw, hworker⟩ := List.mem_map.mp hy
    rcases List.mem_append.mp (hstaffed.workers.mem_iff.mp hw) with hw | hw
    · exact absurd hworker (unmanned w hw y)
    · obtain ⟨⟨id, z⟩, hz, rfl⟩ := List.mem_map.mp hw
      cases hworker
      exact ⟨id, hz⟩
  · rintro ⟨id, hy⟩
    exact List.mem_map.mpr ⟨_, hstaffed.mem_workers hy, rfl⟩

/-- Whatever strands do, starting without event handlers: the workers are those that were there and
one for each event handler that is listed, all with different numbers. An event is dispatched to the
event handlers that are listed and match. One that is off the list is not dispatched to ever again,
and one that is on the list stays there until a strand takes it away. -/
theorem handlers_matched {bands : Bands} (sound : c.Sound)
    (built : Registry.Built bands c.house.registry) (handlers : c.house.handlers = [])
    (unmanned : ∀ x ∈ c.house.registry.workers, ∀ y, x.worker ≠ .handler y)
    (run : Relation.ReflTransGen Stride c c') :
    c'.house.registry.workers.Perm
        (c.house.registry.workers ++ c'.house.handlers.map handlerWorker) ∧
      (c'.house.registry.workers.map (·.id)).Nodup ∧
      (∀ (e : Event) (y : Handler), .worker (.handler y) ∈ (c'.house.sequenceFor e).1.steps ↔
        (∃ id, (id, y) ∈ c'.house.handlers) ∧ Pattern.isMatch y.pattern e.name = true) ∧
      (∀ y : Handler, y.id < c'.house.nextHandler → (∀ x ∈ c'.house.handlers, x.2 ≠ y) →
        ∀ c'', Relation.ReflTransGen Stride c' c'' → ∀ e : Event,
          .worker (.handler y) ∉ (c''.house.sequenceFor e).1.steps) ∧
      ∀ c'', Stride c' c'' → ∀ x ∈ c'.house.handlers, x ∉ c''.house.handlers →
        ∃ t ∈ c'.strands, t.Removes c'.house x := by
  obtain ⟨hsound, hstaffed⟩ :=
    staffed_of_strides sound (.of_built (F := c.house.fixtures) built handlers) run
  refine ⟨hstaffed.workers, hstaffed.distinct, fun _ _ => mem_sequenceFor_iff hstaffed unmanned,
    ?_, fun _ hs _ => hs.removes hstaffed.ids_nodup⟩
  intro y hdefined hunlisted c'' later e hy
  obtain ⟨-, hstaffed'⟩ := staffed_of_strides hsound hstaffed later
  have hgone : c''.house.outfit.Gone y :=
    Outfit.of_changes Outfit.Change.gone (changes_of_strides later) ⟨hdefined, hunlisted⟩
  obtain ⟨⟨id, hlisted⟩, -⟩ := (mem_sequenceFor_iff hstaffed' unmanned).mp hy
  exact hgone.unlisted _ hlisted rfl

/-- Two event handlers are defined, and the first one is deleted. -/
def deletingHandler : Crowd := ⟨knowingHouse, [.start [] (.body [
  .plain (phraseOf ["load"] .load ["on_event"]),
  .handler (phraseOf ["on"] .handle ["a"]) none (some [.text "door"]) none [],
  .handler (phraseOf ["on"] .handle ["a"]) none none none [],
  .plain (phraseOf ["del"] .delete ["on", "door"])] knowingHouse.root)]⟩

/-- The other one is left, and the one that was deleted is not dispatched to whatever follows. -/
theorem handlers_matched_deleting :
    let c' := deletingHandler.play (List.replicate 24 0)
    (deletingHandler.Sound ∧ Registry.Built .standard deletingHandler.house.registry ∧
      deletingHandler.house.handlers = [] ∧
      (∀ x ∈ deletingHandler.house.registry.workers, ∀ y, x.worker ≠ .handler y) ∧
      Relation.ReflTransGen Stride deletingHandler c') ∧
    c'.house.handlers.map (·.2.id) = [2] ∧
    c'.house.registry.workers.Perm (c'.house.handlers.map handlerWorker) ∧
    ∀ c'', Relation.ReflTransGen Stride c' c'' → ∀ (e : Event) (y : Handler),
      .worker (.handler y) ∈ (c''.house.sequenceFor e).1.steps → y.id ≠ 1 := by
  intro c'
  have hsound : deletingHandler.Sound :=
    .of_catalog rfl (List.forall_mem_singleton.mpr (.other rfl nofun)) rfl rfl
  have hrun : Relation.ReflTransGen Stride deletingHandler c' := strides_play _ _
  have hunmanned : ∀ x ∈ deletingHandler.house.registry.workers, ∀ y, x.worker ≠ .handler y :=
    List.forall_mem_nil _
  have hlisted : c'.house.handlers.map (·.2.id) = [2] := by decide +kernel
  have hnext : c'.house.nextHandler = 3 := by decide +kernel
  clear_value c'
  obtain ⟨hworkers, -, -, hgone, -⟩ := handlers_matched hsound .empty rfl hunmanned hrun
  refine ⟨⟨hsound, .empty, rfl, hunmanned, hrun⟩, hlisted, hworkers, ?_⟩
  intro c'' later e y hy hone
  refine hgone y (by omega) (fun x hx heq => ?_) c'' later e hy
  have htwo : x.2.id ∈ [2] := hlisted ▸ List.mem_map_of_mem hx
  rw [heq, hone] at htwo
  exact absurd htwo (by decide)

end Crowd

end Hearth
