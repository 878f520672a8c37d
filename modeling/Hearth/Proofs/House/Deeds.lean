import Hearth.Proofs.House.Incidents
import Hearth.Proofs.House.Outfit

/-!
# What strands do to fixtures

Each call begins, and each frame goes on, with at most one incident: what is not plain work is one
of a few parts, each of which is looked at here. From these parts follows what one step of a strand
does, and what it does when its pause is over. A wait that is over takes itself off the list in the
same breath in which its strand goes on, so the end of a pause and the step after it are one.

## Main definitions

* `Strand.Does` : work of a strand that is in the middle of something.

## Main results

* `Strand.begin_does`, `Strand.resume_does`, `Strand.waited_does` : what calls and frames do.
* `Strand.step_shift`, `Strand.wake_shift` : what a step does, and the end of a pause.
-/

namespace Hearth

/-- States are no fixtures. -/
instance (F : Fixtures) : House.Stateless (·.fixtures = F) where
  of_states _ _ _ hF := hF

namespace Act

/-! ### Work that cannot fail -/

variable {h : House}

/-- An event with a name can be made. -/
theorem runOn_makeEvent (t : Token) (words : Name) (scope : ScopeId) (h : House) :
    ∃ e h', (makeEvent (t :: words) scope).runOn h = (.ok e, h') ∧ h'.bare = h.bare :=
  ⟨_, _, rfl, rfl⟩

end Act

namespace Strand

open Act (Spares Shifts)

variable {α : Type} {h : House}

theorem runOn_announceModule (step : String) (name : Name) (next : Frame) (h : House) :
    ∃ e h', (announceModule step name next).runOn h = (.ok (.under next (.dispatch e)), h') ∧
      h'.fixtures = h.fixtures := by
  obtain ⟨e, h', hmake, hbare⟩ := Act.runOn_makeEvent (.text "module") (.text step :: name) h.root h
  refine ⟨e, h', ?_, House.fixtures_of_bare hbare⟩
  rw [announceModule, Act.runOn_get_bind, Act.runOn_bind, hmake]
  rfl

theorem runOn_reportOutcome (o : Outcome) (h : House) :
    ∃ h', (reportOutcome o).runOn h = (.ok (), h') ∧ h'.fixtures = h.fixtures := by
  cases o with
  | ok flow => exact ⟨h, rfl, rfl⟩
  | error e => exact ⟨_, rfl, House.fixtures_of_bare (h.stays_reportError e).bare⟩

theorem runOn_announceWait (step : String) (name : Name) (scope : ScopeId) (h : House) :
    ∃ e h', (announceWait step name scope).runOn h = (.ok e, h') ∧ h'.fixtures = h.fixtures := by
  obtain ⟨e, h', hmake, hbare⟩ := Act.runOn_makeEvent (.text "wait") (.text step :: name) scope h
  exact ⟨e, h', hmake, House.fixtures_of_bare hbare⟩

/-! ### Deeds -/

/-- What a strand is in the middle of when work has ended with a move or an error. -/
def marksAfter : Except ScriptError Move → List Mark
  | .ok m => m.marks
  | .error _ => []

/-- Work ended well after at most one incident. -/
structure Deed (used : List Mark) (F : Fixtures) (r : Except ScriptError Move × House) : Prop where
  shift : ∃ d, Shift d F used r.2.fixtures (marksAfter r.1)
  proper : ∀ m, r.1 = .ok m → Proper m.frames m.doing

/-- Work of a strand that is in the middle of something does at most one thing. -/
def Does (used : List Mark) (a : Act Move) : Prop := ∀ h, Deed used h.fixtures (a.runOn h)

namespace Deed

variable {d : Incident} {used made : List Mark} {F F' : Fixtures} {m : Move}

theorem of_shift (hshift : Shift d F used F' made) (hsame : h.fixtures = F')
    (hmarks : m.marks = made)
    (hproper : Proper m.frames m.doing) : Deed used F (.ok m, h) := by
  subst hsame hmarks
  refine ⟨⟨d, hshift⟩, ?_⟩
  rintro m ⟨⟩
  exact hproper

theorem idle (hshift : Shift d F used F' []) (hsame : h.fixtures = F') (hm : m.Idle) :
    Deed used F (.ok m, h) := of_shift hshift hsame hm.marks hm.proper

theorem error {e : ScriptError} (hshift : Shift d F used F' []) (hsame : h.fixtures = F') :
    Deed used F (.error e, h) := by
  subst hsame
  exact ⟨⟨d, hshift⟩, nofun⟩

end Deed

namespace Does

variable {a : Act Move}

/-- Work that leaves the fixtures alone and begins nothing. -/
theorem of_idle (ha : ∀ F, a.Ensures (·.fixtures = F) Move.Idle) : Does [] a := by
  intro h
  obtain ⟨hsame, hidle⟩ := ha h.fixtures h rfl
  generalize a.runOn h = r at hsame hidle ⊢
  obtain ⟨e | m, h'⟩ := r
  · exact .error (.quiet _ _) hsame
  · exact .idle (.quiet _ _) hsame (hidle m rfl)

theorem of_plain (ha : ∀ F, a.Ensures (·.fixtures = F) Move.Plain) : Does [] a :=
  of_idle fun F => (ha F).weaken fun _ => Move.Plain.idle

theorem pure {m : Move} (hm : m.Plain) : Does [] (Pure.pure m) := .of_plain fun _ => .pure hm

theorem throw (e : ScriptError) : Does [] (MonadExcept.throw e) := .of_plain fun _ => .throw e

theorem throw_bind (e : ScriptError) (b : α → Act Move) : Does [] (MonadExcept.throw e >>= b) :=
  .of_plain fun _ => .throw_bind e b

/-- The one thing is done in the second part. -/
theorem bind {a : Act α} {b : α → Act Move} (ha : a.Spares) (hb : ∀ x, Does [] (b x)) :
    Does [] (a >>= b) := by
  intro h
  have hfirst := ha.fixtures_eq h
  rw [Act.runOn_bind]
  generalize a.runOn h = s at hfirst ⊢
  obtain ⟨_ | x, h₁⟩ := s
  · exact .error (.quiet _ _) hfirst
  · exact hfirst ▸ hb x h₁

/-- The one thing is done in the first part. -/
theorem of_shifts {a : Act α} {b : α → Act Move} (ha : a.Shifts)
    (hb : ∀ x F, (b x).Ensures (·.fixtures = F) Move.Plain) : Does [] (a >>= b) := by
  intro h
  obtain ⟨d, hfirst⟩ := ha h
  rw [Act.runOn_bind]
  generalize a.runOn h = s at hfirst ⊢
  obtain ⟨_ | x, h₁⟩ := s
  · exact .error hfirst rfl
  · dsimp only at hfirst ⊢
    obtain ⟨hsame, hplain⟩ := hb x h₁.fixtures h₁ rfl
    generalize (b x).runOn h₁ = r at hsame hplain ⊢
    obtain ⟨e | m, h'⟩ := r
    · exact .error hfirst hsame
    · exact .idle hfirst hsame (hplain m rfl).idle

end Does

/-! ### Dispatch -/

theorem shifts_cancelWaits : (Act.update Act.cancelWaits).Shifts :=
  .update fun h => ⟨.cancelsAll, Act.fixtures_cancelWaits h ▸ .cancelsAll _⟩

/-- A worker changes no fixtures, except that the one that takes everything down cancels all
waits. -/
theorem process_does (e : Event) (w : Worker) : Does [] (process e w) := by
  cases w with
  | teardown n =>
    exact .of_shifts shifts_cancelWaits fun _ _ => .bind (.perform_bare fun _ => rfl) fun _ _ =>
      .pure ⟨rfl, rfl⟩
  | _ => exact .of_plain fun _ => ensures_process e nofun

theorem runStep_does (bands : Bands) (e : Event) (s : Step) : Does [] (runStep bands e s) := by
  cases s with
  | worker w => exact process_does e w
  | nested => exact .pure ⟨rfl, rfl⟩

/-- What is done above the frame of a sequence. -/
theorem Does.caught {a : Act Move} (ha : Does [] a) {f : Frame} (hf : f.isPlain = true) :
    Does [] (tryCatch a (fun e => Pure.pure (.give (.error e))) >>= fun m =>
      Pure.pure { m with frames := m.frames ++ [f] }) := by
  intro h
  have hbase : Unwaited [f] ∧ [f].filterMap Frame.mark? = [] := by
    cases f <;> first | exact ⟨rfl, rfl⟩ | cases hf
  have hfirst := ha h
  rw [Act.runOn_bind, Act.runOn_tryCatch]
  generalize a.runOn h = r at hfirst ⊢
  obtain ⟨e | m, h'⟩ := r
  · obtain ⟨d, hd⟩ := hfirst.shift
    exact .idle hd rfl ((Move.Plain.give (.error e)).append hf).idle
  · refine ⟨?_, ?_⟩
    · obtain ⟨d, hd⟩ := hfirst.shift
      refine ⟨d, ?_⟩
      change Shift d h.fixtures [] h'.fixtures (marksOf (m.frames ++ [f]) m.doing)
      rw [marksOf_append, hbase.2, List.append_nil]
      exact hd
    · rintro m' ⟨⟩
      exact (hfirst.proper m rfl).append hbase.1

theorem goOn_does (bands : Bands) (run : Run) : Does [] (goOn bands run) := by
  rw [goOn]
  split
  · exact .pure (.give _)
  · exact (runStep_does _ _ _).caught rfl

theorem afterStep_does (bands : Bands) (run : Run) (o : Outcome) :
    Does [] (afterStep bands run o) := by
  unfold afterStep
  obtain ⟨next, older⟩ := account bands run o
  exact .bind (fun _ => ensures_replaced older) fun _ => goOn_does _ _

/-! ### Modules -/

theorem load_does (name : Name) : Does [] (load name) := by
  intro h
  rw [load, Act.runOn_get_bind]
  dsimp only
  by_cases hloaded : h.isLoaded name = true
  · rw [if_pos hloaded]
    exact Does.throw_bind _ _ h
  · rw [if_neg hloaded]
    split
    · exact Does.throw _ h
    · next m hm =>
      obtain ⟨e, h', hrun, hsame⟩ := runOn_announceModule "load-start" name (.loadStarted m) h
      rw [hrun]
      exact .of_shift (.requests hm (Bool.eq_false_iff.mpr hloaded)) hsame rfl (.of_call rfl)

theorem loadStarted_does {m : Module} (hm : ∀ x, m.feature ≠ .probe x) (o : Outcome) :
    Does [.loading m] (loadStarted m o) := by
  intro h
  obtain ⟨h₁, hreport, hsame⟩ := runOn_reportOutcome o h
  obtain ⟨done, h₂, hgains, ⟨rfl, hinstall⟩ | ⟨x, rest, e, hstops, htaken, hinstall⟩⟩ :=
    Act.runOn_install hm h₁
  all_goals
    rw [hsame] at hgains
    rw [loadStarted, Act.runOn_bind, hreport]
    dsimp only
    rw [Act.runOn_bind, Act.runOn_tryCatch, map_eq_pure_bind, Act.runOn_bind, hinstall]
  · obtain ⟨e, h₃, hrun, hdone⟩ := runOn_announceModule "load-done" m.name (.announced (.ok .done))
      (Act.markLoaded m h₂)
    change Deed _ _ ((announceModule "load-done" m.name (.announced (.ok .done))).runOn
      (Act.markLoaded m h₂))
    rw [hrun]
    exact .idle (.loads hgains) (hdone.trans (Act.fixtures_markLoaded m h₂)) ⟨rfl, rfl⟩
  · exact .of_shift (.fails hgains hstops htaken) rfl rfl (.of_call rfl)

theorem unload_does (name : Name) : Does [] (unload name) := by
  intro h
  rw [unload, Act.runOn_bind, Act.takeLoaded, Act.runOn_get_bind]
  cases hm : h.loaded.find? (·.name == name) with
  | none => exact .error (.quiet _ _) rfl
  | some m =>
    obtain ⟨e, h', hrun, hsame⟩ := runOn_announceModule "unload-start" name (.unloadStarted m)
      { h with loaded := h.loaded.filter (·.name != name) }
    have hname : m.name = name := by simpa using List.find?_some hm
    change Deed [] h.fixtures ((announceModule "unload-start" name (.unloadStarted m)).runOn _)
    rw [hrun]
    subst hname
    exact .of_shift (.unloads (F := h.fixtures) (List.mem_of_find?_eq_some hm)) hsame rfl
      (.of_call rfl)

theorem unloadStarted_does (m : Module) (o : Outcome) :
    Does [.unloading m] (unloadStarted m o) := by
  intro h
  obtain ⟨h₁, hreport, hsame⟩ := runOn_reportOutcome o h
  rw [unloadStarted, Act.runOn_bind, hreport]
  exact .of_shift (.undoes _ m) hsame rfl (.of_call rfl)

theorem uninstall_does {m : Module} (hm : ∀ x, m.feature ≠ .probe x) :
    Does [.clearing m] (do
      Act.uninstall m
      pure .done) := by
  intro h
  obtain ⟨h', hrun, hclear⟩ := Act.runOn_uninstall hm h
  rw [Act.runOn_bind, hrun]
  exact .idle (.clears _ m) hclear (Move.Plain.give _).idle

theorem takeDown_does {m : Module} (hm : ∀ x, m.feature ≠ .probe x) :
    Does [.clearing m] (takeDown m) := by
  rw [takeDown]
  split
  · exact fun h => .of_shift (.quiet _ _) rfl rfl (.of_call rfl)
  · exact uninstall_does hm

/-! ### Waits -/

/-- A wait is started, and that is announced. -/
theorem wait_does (x : Phrase) (number : Nat) (span : Option Span) (scope : ScopeId) :
    Does [] (wait x number span scope) := by
  unfold wait
  split
  · next span =>
    refine .bind (fun _ => Act.ensures_params x scope) fun args => ?_
    dsimp only
    generalize (if args.isEmpty then waitName number else args) = name
    split
    · exact .pure (.give _)
    · intro h
      rw [Act.runOn_bind]
      obtain ⟨e, hfail⟩ | ⟨hfree, w, h₁, hrun, htoken, hfixtures⟩ := Act.runOn_startWait name span h
      · rw [hfail]
        exact .error (.quiet _ _) rfl
      · obtain ⟨e, h₂, hsay, hsame⟩ := runOn_announceWait "start" name scope h₁
        rw [hrun]
        dsimp only
        rw [Act.runOn_bind, hsay]
        exact .of_shift (.starts span hfree htoken) (hsame.trans hfixtures) rfl (.other rfl nofun)
  · exact .throw _

theorem waitStarted_does (name : Name) (token : Nat) (span : Span) (scope : ScopeId)
    (o : Outcome) :
    Does [.starting name token span] (waitStarted name token span scope o) := by
  intro h
  cases o with
  | ok flow => exact .of_shift (.waits _ name token span) rfl rfl (.waiting name token _ scope rfl)
  | error e => exact .error (.withdraws _ name token span) (Act.fixtures_endWait name h)

/-- A wait whose time is over. -/
theorem waited_ends (name : Name) (scope : ScopeId) (token : Nat) {due : Nat} (hover : due ≤ h.now)
    (flow : Flow) :
    Deed [.waiting name token due] h.fixtures ((waited name scope (.ok flow)).runOn h) := by
  obtain ⟨e, h', hrun, hsame⟩ := runOn_announceWait "done" name scope (Act.endWait name h).2
  rw [waited, Act.runOn_perform_bind, Act.runOn_bind, hrun]
  exact .idle (.ends name token hover) (hsame.trans (Act.fixtures_endWait name h)) ⟨rfl, rfl⟩

/-- A wait whose entry is gone. -/
theorem waited_breaksOff (name : Name) (scope : ScopeId) {token : Nat} (due : Nat)
    (hgone : Act.hasToken h token = false) (e : ScriptError) :
    Deed [.waiting name token due] h.fixtures ((waited name scope (.error e)).runOn h) := by
  obtain ⟨x, h', hrun, hsame⟩ := runOn_announceWait "cancel" name scope h
  have hentry : ∀ w ∈ h.waits, w.2.token ≠ token := by
    simpa [Act.hasToken] using hgone
  rw [waited, Act.runOn_bind, hrun]
  exact .idle (.breaksOff name due hentry) hsame ⟨rfl, rfl⟩

/-! ### Statements -/

theorem setState_does (x : Phrase) (scope : ScopeId) : Does [] (setState x scope) := by
  rw [setState]
  refine .bind (fun _ => Act.ensures_params x scope) fun args => ?_
  refine .bind (fun _ => .ofExcept _) fun y => ?_
  refine .bind (fun _ => Act.ensures_setState _ _ _) fun e => ?_
  split
  · exact .pure (.give _)
  · exact .of_idle fun _ => .pure ⟨rfl, rfl⟩

theorem deleteFrom_does (c : Collection) (item : Name) (scope : ScopeId) :
    Does [] (deleteFrom c item scope) := by
  unfold deleteFrom
  split
  · exact .pure ⟨rfl, rfl⟩
  · exact .of_shifts (Act.shifts_deleteHandler item) fun _ _ => .pure (.give _)
  · exact .bind (fun _ => Act.ensures_deleteState item scope) fun _ =>
      .of_idle fun _ => .pure ⟨rfl, rfl⟩
  · refine .of_shifts (.perform fun h => ?_) fun found _ => ?_
    · rw [Act.fixtures_endWait]
      by_cases hlisted : item ∈ h.waits.map (·.1)
      · exact ⟨_, .cancels hlisted⟩
      · have herase : h.fixtures.dropWait item = h.fixtures := by
          rw [Fixtures.dropWait]
          change { h.fixtures with waits := NameMap.erase h.waits item } = h.fixtures
          rw [NameMap.erase_eq_self (NameMap.get?_eq_none_iff.mpr hlisted)]
          rfl
        rw [herase]
        exact ⟨_, .quiet _ _⟩
    · split
      · exact .pure (.give _)
      · exact .throw _
  · exact .of_plain fun _ => .bind (Act.ensures_takeLink item) fun _ _ => .pure ⟨rfl, rfl⟩
  · exact .throw _

theorem delete_does (words : Name) (scope : ScopeId) : Does [] (delete words scope) := by
  rw [delete]
  refine .bind (fun _ => Act.ensures_resolve words) fun x => ?_
  obtain ⟨c, item⟩ := x
  dsimp only
  split
  · exact .throw_bind _ _
  · exact deleteFrom_does c item scope

theorem runPlain_does (x : Phrase) (scope : ScopeId) : Does [] (runPlain x scope) := by
  have hparams : (Act.params x scope).Spares := fun _ => Act.ensures_params x scope
  have hsome : (someParams x scope).Spares := fun _ => ensures_someParams x scope
  rw [runPlain]
  split
  · exact .of_plain fun _ => ensures_trigger x scope
  · exact .bind hsome fun _ => .pure ⟨rfl, rfl⟩
  · exact .bind hsome fun _ => .pure ⟨rfl, rfl⟩
  · exact .bind hparams fun _ => .bind (fun _ => Act.ensures_list _) fun _ => .pure (.give _)
  · exact .bind hparams fun args => delete_does args scope
  · exact .bind hparams fun _ => .of_plain fun _ => .get_bind fun _ _ =>
      .bind (.ofExcept _) fun _ _ => .bind (.forM _ Act.ensures_say) fun _ _ => .pure (.give _)
  · exact .bind hparams fun _ => .of_plain fun _ => ensures_log x _
  · exact .pure (.give _)
  · exact setState_does x scope
  · exact .of_plain fun _ => ensures_readState x scope
  · exact .of_plain fun _ => ensures_send x scope
  · exact .of_plain fun _ => ensures_probe x _ _ scope
  · exact .throw _

theorem run_does (s : Statement) (scope : ScopeId) : Does [] (run s scope) := by
  unfold run
  split
  · exact runPlain_does _ scope
  · split
    · exact .bind (fun _ => Act.ensures_derive _ _ _) fun _ => .pure ⟨rfl, rfl⟩
    · exact .bind (fun _ => Act.ensures_derive _ _ _) fun _ =>
        .bind (fun _ => .update_bare fun _ => rfl) fun _ => .pure (.give _)
    · exact .pure ⟨rfl, rfl⟩
  · refine .bind (fun _ => Act.ensures_params _ scope) fun args =>
      .bind (fun _ => Act.ensures_check args) fun found => ?_
    split
    · exact .pure ⟨rfl, rfl⟩
    · split
      · exact .pure ⟨rfl, rfl⟩
      · exact .pure (.give _)
  · exact .of_shifts (Act.shifts_defineHandler _ _ _ _ _ scope) fun _ _ => .pure (.give _)
  · exact wait_does _ _ _ scope
  · exact .of_plain fun _ => ensures_connect _ _ scope
  · split
    · exact .of_plain fun _ => ensures_probe _ _ _ scope
    · exact .pure ⟨rfl, rfl⟩

/-! ### All calls and frames -/

/-- The beginning of a call does at most one thing. -/
theorem begin_does (job : Link.JobId) (c : Call)
    (hreal : ∀ m, c = .takeDown m → ∀ x, m.feature ≠ .probe x) :
    Does (Doing.call c).mark?.toList (begin job c) := by
  cases c with
  | takeDown m => exact takeDown_does (hreal m rfl)
  | dispatch e => exact .of_plain fun _ => ensures_dispatch e
  | announce words scope =>
    exact .of_plain fun _ => .bind (Act.ensures_makeEvent _ _) fun e _ => ensures_dispatch e
  | run r => exact .bind (fun _ => .get) fun h => goOn_does h.bands r
  | nested bands r => exact goOn_does bands r
  | statement s scope => exact run_does s scope
  | body b scope => exact .pure (plain_runBody b scope)
  | load name => exact load_does name
  | unload name => exact unload_does name
  | unloadAll names => exact .pure (plain_unloadAll names)
  | close id => exact .of_plain fun _ => ensures_close id job
  | closeAll ids => exact .pure (plain_closeAll ids)
  | sleep nanos => exact .bind (fun _ => .get) fun h => .pure ⟨rfl, rfl⟩
  | shutDown => exact .bind (fun _ => .get) fun h => .pure ⟨rfl, rfl⟩
  | session s inputs use => exact .pure ⟨rfl, rfl⟩
  | send id m => exact .pure ⟨rfl, rfl⟩
  | post id c => exact .pure ⟨rfl, rfl⟩
  | awaitState id state => exact .pure ⟨rfl, rfl⟩

/-- A frame that is not that of a wait that is paused goes on with at most one thing. -/
theorem resume_does (o : Outcome) (f : Frame) (hf : f.isWaited = false)
    (hreal : ∀ m, f = .loadStarted m ∨ f = .uninstall m → ∀ x, m.feature ≠ .probe x) :
    Does f.mark?.toList (resume o f) := by
  cases f with
  | waited name scope => cases hf
  | loadStarted m => exact loadStarted_does (hreal m (.inl rfl)) o
  | uninstall m => exact uninstall_does (hreal m (.inr rfl))
  | unloadStarted m => exact unloadStarted_does m o
  | waitStarted name token span scope => exact waitStarted_does name token span scope o
  | step bands r => exact afterStep_does bands r o
  | body line rest scope => exact .pure (plain_afterStatement line rest scope o)
  | raised w =>
    cases o with
    | ok flow => exact .pure (.give _)
    | error e => exact .throw e
  | unlock name =>
    exact .bind (b := fun _ => pure (.give o)) (fun _ => .update fun _ hh => hh) fun _ =>
      .pure (.give o)
  | announced known => exact .bind (fun _ => ensures_reportOutcome o) fun _ => .pure (.give known)
  | rolledBack m e => exact .of_plain fun _ => ensures_announceModule _ _ rfl
  | takenDown m => exact .of_plain fun _ => ensures_takenDown m o
  | unloadAll rest => exact .pure (plain_unloadAll rest)
  | closing rest => exact .pure (plain_closeAll rest)
  | closed id => cases o <;> exact .pure ⟨rfl, rfl⟩
  | shutdownAnnounced =>
    exact .bind (fun _ => .perform_bare fun _ => rfl) fun _ => .pure ⟨rfl, rfl⟩
  | linksClosed => exact .bind (fun _ => .get) fun _ => .pure ⟨rfl, rfl⟩
  | sent ticket => exact .pure (plain_sent ticket o)
  | report line =>
    have hdone (e : ScriptError) : Does [] (do
        Act.update fun h => h.reportError e
        pure .done) :=
      .bind (fun _ => .update_stays fun h => h.stays_reportError _) fun _ => .pure (.give _)
    cases o with
    | ok flow => exact .pure (.give _)
    | error e => exact hdone _
  | finished => exact .bind (fun _ => .update_bare fun _ => rfl) fun _ => .pure (.give _)
  | result known => exact .pure (.give known)
  | session s statement rest use => exact .pure (.give o)

/-! ### Steps -/

/-- No module that stands in for a real one is what a strand is in the middle of. -/
def Real (marks : List Mark) : Prop :=
  ∀ m, .loading m ∈ marks ∨ .clearing m ∈ marks → ∀ x, m.feature ≠ .probe x

/-- At most one incident: what a strand was in the middle of innermost is so no longer, or it is in
the middle of something else; the rest stays. -/
structure Changed (F : Fixtures) (t : State) (F' : Fixtures) (t' : State) (d : Incident)
    (used made rest : List Mark) : Prop where
  before : t.marks = used ++ rest
  after : t'.marks = made ++ rest
  shift : Shift d F used F' made
  proper : Proper t'.frames t'.doing

/-- Work is made into the next state of a strand. -/
theorem Deed.changed {used : List Mark} {F : Fixtures} {t : State} (frames : List Frame)
    {r : Except ScriptError Move × House} (hd : Deed used F r)
    (hbefore : t.marks = used ++ frames.filterMap Frame.mark?) (hframes : Unwaited frames) :
    ∃ d made, Changed F t (moveOn frames r).2.fixtures (moveOn frames r).1 d used made
      (frames.filterMap Frame.mark?) := by
  obtain ⟨⟨d, hshift⟩, hproper⟩ := hd
  obtain ⟨e | m, h'⟩ := r
  · exact ⟨d, [], hbefore, rfl, hshift, .other hframes nofun⟩
  · exact ⟨d, m.marks, hbefore, marksOf_append _ _ _, hshift, (hproper m rfl).append hframes⟩

/-- What a plain move makes of a stack. -/
theorem changed_of_plain {F : Fixtures} {t : State} (frames : List Frame) {m : Move}
    {h' : House} (hm : m.Plain) (hsame : h'.fixtures = F)
    (hbefore : t.marks = frames.filterMap Frame.mark?) (hframes : Unwaited frames) :
    ∃ d made, Changed F t h'.fixtures ⟨m.frames ++ frames, m.doing⟩ d [] made
      (frames.filterMap Frame.mark?) :=
  Deed.changed frames (r := (.ok m, h')) (.idle (.quiet _ _) hsame hm.idle) hbefore hframes

/-- Only the pause of a wait is under the frame of that wait. -/
theorem unwaited_of_proper {frames : List Frame} {doing : Doing} (h : Proper frames doing)
    (hd : ∀ name token due, doing ≠ .pause (.wait name token due)) : Unwaited frames := by
  cases h with
  | waiting name token due => exact absurd rfl (hd name token due)
  | other unwaited _ => exact unwaited

/-- One step of a strand does at most one thing. -/
theorem step_shift (job : Link.JobId) (h : House) {t : State} (hproper : Proper t.frames t.doing)
    (hreal : Real t.marks) :
    ∃ d used made rest, Changed h.fixtures t (step job h t).2.1.fixtures (step job h t).1 d used
      made rest := by
  obtain ⟨frames, doing⟩ := t
  cases doing with
  | pause p => exact ⟨.quiet, [], [], _, rfl, rfl, .quiet _ _, hproper⟩
  | call c =>
    have hframes := unwaited_of_proper hproper nofun
    by_cases hc : ∃ s inputs use, c = .session s inputs use
    · obtain ⟨s, inputs, use, rfl⟩ := hc
      obtain ⟨d, made, hd⟩ := changed_of_plain frames
        (t := ⟨frames, .call (.session s inputs use)⟩) (plain_feed h s inputs use)
        (House.fixtures_of_bare (stays_feed h s inputs use).bare) rfl hframes
      exact ⟨d, _, made, _, hd⟩
    · have hdeed := begin_does job c (fun m hm => hreal m (.inr (by subst hm; exact .head _))) h
      obtain ⟨d, made, hd⟩ := hdeed.changed frames (t := ⟨frames, .call c⟩) rfl hframes
      rw [step_call job h frames fun s inputs use heq => hc ⟨s, inputs, use, heq⟩]
      exact ⟨d, _, made, _, hd⟩
  | give o =>
    have hall := unwaited_of_proper hproper nofun
    cases frames with
    | nil => exact ⟨.quiet, [], [], _, rfl, rfl, .quiet _ _, hproper⟩
    | cons f frames =>
      obtain ⟨hfirst, hframes⟩ : f.isWaited = false ∧ Unwaited frames := by
        simpa [Unwaited] using hall
      by_cases hf : ∃ s statement rest use, f = .session s statement rest use
      · obtain ⟨s, statement, rest, use, rfl⟩ := hf
        have hrun := (Session.afterRun_same (.refl h) (Eq.refl s.unlined) statement statement
          (Eq.refl (Outcome.unlined o))).change.stays
        obtain ⟨d, made, hd⟩ := changed_of_plain frames
          (t := ⟨.session s statement rest use :: frames, .give o⟩) (plain_follow _ _ _ rest use)
          (House.fixtures_of_bare (hrun.trans (stays_follow _ _ _ rest use)).bare) rfl hframes
        exact ⟨d, _, made, _, hd⟩
      · have hmarks : marksOf (f :: frames) (.give o) =
            f.mark?.toList ++ frames.filterMap Frame.mark? := by
          rw [marksOf, List.filterMap_cons]
          cases f.mark? <;> rfl
        have hdeed := resume_does o f hfirst (fun m hm => hreal m ?_) h
        · obtain ⟨d, made, hd⟩ := hdeed.changed frames (t := ⟨f :: frames, .give o⟩) hmarks hframes
          rw [step_resume job h frames o fun s statement rest use heq =>
            hf ⟨s, statement, rest, use, heq⟩]
          exact ⟨d, _, made, _, hd⟩
        · rcases hm with rfl | rfl
          · exact .inl (.head _)
          · exact .inr (.head _)

/-- A pause is over: what it waited for has happened. If the time of a wait is over and its entry is
gone, either of them may be what ends it. -/
inductive Over (job : Link.JobId) (h : House) : Pause → Outcome → House → Prop
  | polled {p : Pause} {o : Outcome} {h' : House} (ended : poll job h p = (some o, h')) :
    Over job h p o h'
  | gone {name : Name} {token due : Nat} (gone : Act.hasToken h token = false) :
    Over job h (.wait name token due) (.error (.cancelled ("wait " ++ name.render))) h

theorem Over.fixtures_eq {job : Link.JobId} {h h' : House} {p : Pause} {o : Outcome}
    (hover : Over job h p o h') : h'.fixtures = h.fixtures := by
  cases hover with
  | gone => rfl
  | polled ended =>
    have hpoll := stays_poll h job p
    rw [ended] at hpoll
    exact House.fixtures_of_bare hpoll.bare

/-- A wait is over by its time or because its entry is gone. -/
theorem Over.waited {job : Link.JobId} {h h' : House} {name : Name} {token due : Nat} {o : Outcome}
    (hover : Over job h (.wait name token due) o h') (scope : ScopeId) :
    Deed [.waiting name token due] h.fixtures ((waited name scope o).runOn h') := by
  cases hover with
  | gone hgone => exact waited_breaksOff name scope due hgone _
  | polled ended =>
    rw [poll] at ended
    split at ended
    · next hover =>
      obtain ⟨rfl, rfl⟩ : .ok .done = o ∧ h = h' := by simpa using ended
      exact waited_ends name scope token hover .done
    · split at ended
      · cases ended
      · next hgone =>
        obtain ⟨rfl, rfl⟩ : .error _ = o ∧ h = h' := by simpa using ended
        exact waited_breaksOff name scope due (Bool.eq_false_iff.mpr hgone) _

/-- When the pause of a strand is over, it does at most one thing before anything else happens. -/
theorem wake_shift {job : Link.JobId} {h h' : House} {frames : List Frame} {p : Pause}
    {o : Outcome} (hover : Over job h p o h') (hproper : Proper frames (.pause p))
    (hreal : Real (State.marks ⟨frames, .pause p⟩)) :
    ∃ d used made rest, Changed h.fixtures ⟨frames, .pause p⟩
      (step job h' ⟨frames, .give o⟩).2.1.fixtures (step job h' ⟨frames, .give o⟩).1 d used made
      rest := by
  cases hproper with
  | @waiting name token due scope frames hframes =>
    have hdeed := hover.waited scope
    obtain ⟨d, made, hd⟩ := hdeed.changed frames
      (t := ⟨.waited name scope :: frames, .pause (.wait name token due)⟩) rfl hframes
    exact ⟨d, _, made, _, hd⟩
  | other hframes helse =>
    have hmarks : State.marks ⟨frames, .give o⟩ = State.marks ⟨frames, .pause p⟩ := by
      cases p <;> first | rfl | exact absurd rfl (helse _ _ _)
    obtain ⟨d, used, made, rest, hd⟩ := step_shift job h' (t := ⟨frames, .give o⟩)
      (.other hframes nofun) (hmarks ▸ hreal)
    exact ⟨d, used, made, rest, hmarks ▸ hd.before, hd.after, hover.fixtures_eq ▸ hd.shift,
      hd.proper⟩

end Strand

end Hearth
