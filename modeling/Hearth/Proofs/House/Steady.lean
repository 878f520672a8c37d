import Hearth.Proofs.House.Outfit

/-!
# Calls that leave the outfit alone

A strand changes the outfit of a house in a few ways only: it defines or deletes an event handler, it
clears all of them away with their module, it opens a link, it takes one off the list, or all of
them. A property of outfits that survives these survives whatever calls and frames do.

## Main definitions

* `Frame.changes` : the states whose changes end with the frames of a stack.
* `Move.Even` : a move that begins no change of a state.

## Main results

* `Strand.even_goOn`, `Strand.even_load`, … : parts of calls.
* `Strand.begin_upholds`, `Strand.resume_upholds` : what survives the beginning of a call, and what
  is done after one.
* `Strand.step_house` : the house after a step.
-/

namespace Hearth

/-- The state whose change ends with a frame. -/
def Frame.change? : Frame → Option Name
  | .unlock name => some name
  | _ => none

/-- The states whose changes end with the frames of a stack. -/
def Frame.changes (frames : List Frame) : List Name := frames.filterMap Frame.change?

/-- A move that begins no change of a state. -/
def Move.Even (m : Move) : Prop := Frame.changes m.frames = []

/-- A plain move begins no change of a state. -/
theorem Move.Plain.even {m : Move} (hm : m.Plain) : m.Even := by
  refine List.filterMap_eq_nil_iff.mpr fun f hf => ?_
  have hplain := List.all_eq_true.mp hm.frames f hf
  cases f <;> first | rfl | cases hplain

namespace Strand

open House (Staying Steady Stateless)
open Act (Upholds)

variable {p : House → Prop}

/-! ### Dispatch -/

section

variable [Steady p]

/-- A worker that takes everything down takes all links off the list. -/
theorem even_process (hlinks : (Act.perform House.takeLinks).Upholds p) (e : Event) (w : Worker) :
    (process e w).Ensures p Move.Even :=
  (ensures_process e fun _ _ => ⟨.update_untouched Act.untouched_cancelWaits, hlinks⟩).weaken
    fun _ => Move.Plain.even

theorem even_runStep (hlinks : (Act.perform House.takeLinks).Upholds p) (bands : Bands) (e : Event)
    (s : Step) : (runStep bands e s).Ensures p Move.Even := by
  cases s with
  | worker w => exact even_process hlinks e w
  | nested => exact .pure rfl

theorem even_goOn (hlinks : (Act.perform House.takeLinks).Upholds p) (bands : Bands) (run : Run) :
    (goOn bands run).Ensures p Move.Even := by
  rw [goOn]
  split
  · exact .pure rfl
  · refine .bind (.tryCatch (even_runStep hlinks _ _ _) fun e => .pure rfl) fun m hm => .pure ?_
    rw [Move.Even, Frame.changes, List.filterMap_append, ← Frame.changes, hm]
    rfl

theorem even_afterStep (hlinks : (Act.perform House.takeLinks).Upholds p) (bands : Bands)
    (run : Run) (o : Outcome) : (afterStep bands run o).Ensures p Move.Even :=
  .bind (ensures_replaced _) fun _ _ => even_goOn hlinks _ _

/-! ### Modules -/

theorem even_announceModule (step : String) (name : Name) {next : Frame}
    (hnext : next.change? = none) : (announceModule step name next).Ensures p Move.Even :=
  .get_bind fun _ _ => .bind (Act.ensures_makeEvent _ _) fun _ _ =>
    .pure (List.filterMap_cons_none hnext)

theorem even_load (name : Name) : (load name).Ensures p Move.Even := by
  rw [load]
  refine .get_bind fun h hh => ?_
  dsimp only
  split
  · exact .throw_bind _ _
  · split
    · exact .throw _
    · exact even_announceModule _ _ rfl

theorem even_loadStarted (m : Module) (o : Outcome) : (loadStarted m o).Ensures p Move.Even := by
  rw [loadStarted]
  refine .bind (ensures_reportOutcome o) fun _ _ =>
    .bind (.tryCatch (q := fun _ => True) ?_ fun _ => .pure trivial) fun r _ => ?_
  · rw [map_eq_pure_bind]
    exact .bind (Act.ensures_install m) fun _ _ => .pure trivial
  · split
    · exact .bind (.update_untouched (Act.untouched_markLoaded m)) fun _ _ =>
        even_announceModule _ _ rfl
    · exact .pure rfl

theorem even_unload (name : Name) : (unload name).Ensures p Move.Even :=
  .bind (Act.ensures_takeLoaded name) fun _ _ => even_announceModule _ _ rfl

theorem even_uninstall {m : Module}
    (hclear : m.feature = .handlers → ∀ h, p h → p (Act.clearHandlers h)) :
    Act.Ensures p (do
      Act.uninstall m
      pure .done) Move.Even :=
  .bind (Act.ensures_uninstall hclear) fun _ _ => .pure rfl

theorem even_takeDown (hlinks : (Act.perform House.takeLinks).Upholds p) {m : Module}
    (hclear : m.feature = .handlers → ∀ h, p h → p (Act.clearHandlers h)) :
    (takeDown m).Ensures p Move.Even := by
  rw [takeDown]
  split
  · exact .bind hlinks fun _ _ => .pure rfl
  · exact even_uninstall hclear

/-! ### Waits -/

theorem ensures_announceWait (step : String) (name : Name) (scope : ScopeId) :
    (announceWait step name scope).Upholds p := Act.ensures_makeEvent _ _

theorem even_wait (x : Phrase) (number : Nat) (span : Option Span) (scope : ScopeId) :
    (wait x number span scope).Ensures p Move.Even := by
  unfold wait
  split
  · refine .bind (Act.ensures_params x scope) fun args _ => ?_
    dsimp only
    split
    · exact .pure rfl
    · exact .bind (Act.ensures_startWait _ _) fun _ _ =>
        .bind (ensures_announceWait _ _ _) fun _ _ => .pure rfl
  · exact .throw _

theorem even_waitStarted (name : Name) (token : Nat) (span : Span) (scope : ScopeId)
    (o : Outcome) : (waitStarted name token span scope o).Ensures p Move.Even := by
  cases o with
  | ok flow => exact .get_bind fun _ _ => .pure rfl
  | error e => exact .bind (Act.ensures_endWait name) fun _ _ => .throw e

theorem even_waited (name : Name) (scope : ScopeId) (o : Outcome) :
    (waited name scope o).Ensures p Move.Even := by
  cases o with
  | ok flow =>
    exact .bind (Act.ensures_endWait name) fun _ _ =>
      .bind (ensures_announceWait _ _ _) fun _ _ => .pure rfl
  | error e => exact .bind (ensures_announceWait _ _ _) fun _ _ => .pure rfl

end

/-! ### Statements -/

section

variable [Steady p] [Stateless p]

theorem setState_upholds (x : Phrase) (scope : ScopeId) : (setState x scope).Upholds p := by
  rw [setState]
  refine .bind (Act.ensures_params x scope) fun args _ => .bind (.ofExcept _) fun y _ => ?_
  refine .bind (Act.ensures_setState _ _ _) fun e _ => ?_
  split <;> exact .pure trivial

theorem deleteFrom_upholds {c : Collection} {item : Name}
    (hhandler : c = .handlers → (Act.deleteHandler item).Upholds p)
    (hlink : ∀ name, (Act.takeLink name).Upholds p) (scope : ScopeId) :
    (deleteFrom c item scope).Upholds p := by
  unfold deleteFrom
  split
  · exact .pure trivial
  · exact .bind (hhandler rfl) fun _ _ => .pure trivial
  · exact .bind (Act.ensures_deleteState item scope) fun _ _ => .pure trivial
  · refine .bind (Act.ensures_endWait item) fun found _ => ?_
    split
    · exact .pure trivial
    · exact .throw _
  · exact .bind (hlink item) fun _ _ => .pure trivial
  · exact .throw _

omit [Stateless p] [Steady p] in
theorem connect_upholds [Staying p] (hopen : ∀ name ondemand, (Act.openLink name ondemand).Upholds p)
    (x : Phrase) (ondemand : Option Bool) (scope : ScopeId) :
    (connect x ondemand scope).Upholds p := by
  rw [connect]
  refine .bind (ensures_someParams x scope) fun name _ => .get_bind fun h hh => ?_
  dsimp only
  split
  · exact .throw_bind _ _
  · exact .bind (hopen _ _) fun _ _ => .pure trivial

theorem delete_upholds (hhandler : ∀ name, (Act.deleteHandler name).Upholds p)
    (hlink : ∀ name, (Act.takeLink name).Upholds p) (words : Name) (scope : ScopeId) :
    (delete words scope).Upholds p := by
  rw [delete]
  refine .bind (Act.ensures_resolve words) fun x _ => ?_
  obtain ⟨c, item⟩ := x
  dsimp only
  split
  · exact .throw_bind _ _
  · exact deleteFrom_upholds (fun _ => hhandler item) hlink scope

theorem runPlain_upholds (x : Phrase) (scope : ScopeId)
    (hdelete : x.verb.deed = .delete → ∀ words, (delete words scope).Upholds p) :
    (runPlain x scope).Upholds p := by
  have hplain {a : Act Move} (ha : a.Ensures p Move.Plain) : a.Upholds p :=
    ha.weaken fun _ _ => trivial
  rw [runPlain]
  split
  · exact hplain (ensures_trigger x scope)
  · exact .bind (ensures_someParams x scope) fun _ _ => .pure trivial
  · exact .bind (ensures_someParams x scope) fun _ _ => .pure trivial
  · exact .bind (Act.ensures_params x scope) fun _ _ => .bind (Act.ensures_list _) fun _ _ =>
      .pure trivial
  · next hdeed => exact .bind (Act.ensures_params x scope) fun args _ => hdelete hdeed args
  · exact .bind (Act.ensures_params x scope) fun _ _ => .get_bind fun _ _ =>
      .bind (.ofExcept _) fun _ _ => .bind (.forM _ Act.ensures_say) fun _ _ => .pure trivial
  · exact .bind (Act.ensures_params x scope) fun _ _ => hplain (ensures_log x _)
  · exact .pure trivial
  · exact setState_upholds x scope
  · exact hplain (ensures_readState x scope)
  · exact hplain (ensures_send x scope)
  · exact hplain (ensures_probe x _ none scope)
  · exact .throw _

/-- A statement changes the outfit if it defines or deletes something, or opens a link. -/
theorem run_upholds
    (hdefine : ∀ q priority name doc body scope,
      (Act.defineHandler q priority name doc body scope).Upholds p)
    (hopen : ∀ name ondemand, (Act.openLink name ondemand).Upholds p) (s : Statement)
    (scope : ScopeId)
    (hdelete : ∀ x, s = .plain x → x.verb.deed = .delete →
      ∀ words, (delete words scope).Upholds p) : (run s scope).Upholds p := by
  have hprobe (x : Phrase) (deed : ProbeDeed) (collected : Option (List String × Body)) :
      (probe x deed collected scope).Upholds p :=
    (ensures_probe x deed collected scope).weaken fun _ _ => trivial
  unfold run
  split
  · exact runPlain_upholds _ scope (hdelete _ rfl)
  · split
    · exact .bind (Act.ensures_derive _ _ _) fun _ _ => .pure trivial
    · exact .bind (Act.ensures_derive _ _ _) fun _ _ =>
        .bind (.update_stays fun _ => ⟨rfl, rfl, rfl⟩) fun _ _ => .pure trivial
    · exact .pure trivial
  · refine .bind (Act.ensures_params _ scope) fun _ _ =>
      .bind (Act.ensures_check _) fun found _ => ?_
    split
    · exact .pure trivial
    · split <;> exact .pure trivial
  · exact .bind (hdefine _ _ _ _ _ scope) fun _ _ => .pure trivial
  · exact (even_wait _ _ _ scope).weaken fun _ _ => trivial
  · exact connect_upholds hopen _ _ scope
  · split
    · exact hprobe _ _ _
    · exact .pure trivial

/-! ### All calls and frames -/

/-- What survives the beginning of a call. Event handlers go only by a statement that deletes, or
when their module is taken down. -/
theorem begin_upholds (job : Link.JobId) (c : Call)
    (hdefine : ∀ q priority name doc body scope,
      (Act.defineHandler q priority name doc body scope).Upholds p)
    (hopen : ∀ name ondemand, (Act.openLink name ondemand).Upholds p)
    (hlinks : (Act.perform House.takeLinks).Upholds p)
    (hdelete : ∀ x scope, c = .statement (.plain x) scope → x.verb.deed = .delete →
      ∀ words, (delete words scope).Upholds p)
    (hclear : ∀ m, c = .takeDown m → m.feature = .handlers → ∀ h, p h → p (Act.clearHandlers h)) :
    (begin job c).Upholds p := by
  have heven {a : Act Move} (ha : a.Ensures p Move.Even) : a.Upholds p :=
    ha.weaken fun _ _ => trivial
  have hplain {a : Act Move} (ha : a.Ensures p Move.Plain) : a.Upholds p :=
    ha.weaken fun _ _ => trivial
  cases c with
  | dispatch e => exact hplain (ensures_dispatch e)
  | announce words scope =>
    exact .bind (Act.ensures_makeEvent _ _) fun e _ => hplain (ensures_dispatch e)
  | run r => exact .get_bind fun h _ => heven (even_goOn hlinks _ r)
  | nested bands r => exact heven (even_goOn hlinks bands r)
  | statement s scope =>
    exact run_upholds hdefine hopen s scope fun x hx => hdelete x scope (by rw [hx])
  | load name => exact heven (even_load name)
  | unload name => exact heven (even_unload name)
  | takeDown m => exact heven (even_takeDown hlinks (hclear m rfl))
  | close id => exact hplain (ensures_close id job)
  | sleep nanos => exact .get_bind fun _ _ => .pure trivial
  | shutDown => exact .get_bind fun _ _ => .pure trivial
  | body | unloadAll | closeAll | session | send | post | awaitState => exact .pure trivial

/-- What survives what is done after a call. -/
theorem resume_upholds (o : Outcome) (f : Frame)
    (hlinks : (Act.perform House.takeLinks).Upholds p)
    (hclear : ∀ m, f = .uninstall m → m.feature = .handlers → ∀ h, p h → p (Act.clearHandlers h)) :
    (resume o f).Upholds p := by
  have heven {a : Act Move} (ha : a.Ensures p Move.Even) : a.Upholds p :=
    ha.weaken fun _ _ => trivial
  cases f with
  | step bands r => exact heven (even_afterStep hlinks bands r o)
  | raised q =>
    cases o with
    | ok flow => exact .pure trivial
    | error e => exact .throw e
  | unlock name => exact .bind (Act.ensures_unlockState name) fun _ _ => .pure trivial
  | waitStarted name token span scope => exact heven (even_waitStarted name token span scope o)
  | waited name scope => exact heven (even_waited name scope o)
  | announced known => exact .bind (ensures_reportOutcome o) fun _ _ => .pure trivial
  | loadStarted m => exact heven (even_loadStarted m o)
  | rolledBack m e => exact heven (even_announceModule _ _ rfl)
  | unloadStarted m => exact .bind (ensures_reportOutcome o) fun _ _ => .pure trivial
  | takenDown m => exact (ensures_takenDown m o).weaken fun _ _ => trivial
  | uninstall m => exact heven (even_uninstall (hclear m rfl))
  | closed id => cases o <;> exact .pure trivial
  | shutdownAnnounced => exact .bind hlinks fun _ _ => .pure trivial
  | linksClosed => exact .get_bind fun _ _ => .pure trivial
  | report line =>
    have hreport (e : ScriptError) : Upholds p (do
        Act.update fun h => h.reportError e
        pure Move.done) :=
      .bind (.update_stays fun h => h.stays_reportError e) fun _ _ => .pure trivial
    cases o with
    | ok flow => exact .pure trivial
    | error e => exact hreport _
  | finished => exact .bind (.update_stays fun _ => ⟨rfl, rfl, rfl⟩) fun _ _ => .pure trivial
  | body | result | unloadAll | closing | sent | session => exact .pure trivial

end

/-! ### Steps -/

theorem moveOn_house (frames : List Frame) (r : Except ScriptError Move × House) :
    (moveOn frames r).2 = r.2 := by
  obtain ⟨_ | m, h⟩ := r <;> rfl

/-- The house after a step: little changed in it, or a call began, or a frame went on. -/
theorem step_house (job : Link.JobId) (h : House) (t : State) :
    h.Stays (step job h t).2.1 ∨
      (∃ c, t.doing = .call c ∧ (step job h t).2.1 = ((begin job c).runOn h).2) ∨
      ∃ f frames o, t = ⟨f :: frames, .give o⟩ ∧ (step job h t).2.1 = ((resume o f).runOn h).2 := by
  obtain ⟨frames, doing⟩ := t
  cases doing with
  | pause => exact .inl (.refl h)
  | call c =>
    by_cases hc : ∃ s inputs use, c = .session s inputs use
    · obtain ⟨s, inputs, use, rfl⟩ := hc
      exact .inl (stays_feed h s inputs use)
    · rw [step_call job h frames fun s inputs use heq => hc ⟨s, inputs, use, heq⟩]
      exact .inr (.inl ⟨c, rfl, moveOn_house _ _⟩)
  | give o =>
    cases frames with
    | nil => exact .inl (.refl h)
    | cons f frames =>
      by_cases hf : ∃ s statement rest use, f = .session s statement rest use
      · obtain ⟨s, statement, rest, use, rfl⟩ := hf
        have hrun := (Session.afterRun_same (.refl h) (Eq.refl s.unlined) statement statement
          (Eq.refl (Outcome.unlined o))).change.stays
        exact .inl (hrun.trans (stays_follow _ _ _ rest use))
      · rw [step_resume job h frames o fun s statement rest use heq =>
          hf ⟨s, statement, rest, use, heq⟩]
        exact .inr (.inr ⟨f, frames, o, rfl, moveOn_house _ _⟩)

end Strand

end Hearth
