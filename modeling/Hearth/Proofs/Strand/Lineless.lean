import Hearth.Proofs.House.Calls
import Hearth.Proofs.House.Lineless
import Hearth.Proofs.Strand.Culprits

/-!
# Statements that fail by themselves

A statement that fails by itself fails with an error that has no line. That is so at once, and also
when the error comes out of the calls that the statement makes: events turn the errors of handlers
into failures, and the steps of modules, waits and links have errors of their own.

## Main definitions

* `Strand.EndsLineless` : what a strand does ends with no error that has a line.

## Main results

* `Strand.endsLineless_dispatch` : events.
* `Strand.endsLineless_load`, `Strand.endsLineless_unload` : modules.
* `Strand.lineless_run` : statements that work by calls of their own.
* `Strand.Alone.isLineless` : statements that fail by themselves.
-/

namespace Hearth.Strand

variable {job : Link.JobId}

/-- What a strand does comes to an end without an error that has a line, whatever is below it on the
stack. -/
def EndsLineless (job : Link.JobId) (m : Move) : Prop :=
  ∀ base h tr o h', Walk job base ⟨m.frames ++ base, m.doing⟩ h tr o h' → LinelessResult o

namespace EndsLineless

theorem give {o : Outcome} (ho : LinelessResult o) : EndsLineless job (.give o) := by
  intro base h tr o' h' hw
  obtain ⟨-, rfl, -⟩ := Walk.of_give hw
  exact ho

theorem done : EndsLineless job .done := .give (.ok Flow.done)

/-- A move that begins ends as its first step goes on. -/
theorem of_moveOn {a : Act Move} (ha : a.LinelessOr (EndsLineless job)) {base : List Frame}
    {h h' : House} {tr : List Ended} {o : Outcome}
    (hw : Walk job base (moveOn base (a.runOn h)).1 (moveOn base (a.runOn h)).2 tr o h') :
    LinelessResult o := by
  have hfirst := ha h
  generalize a.runOn h = r at hfirst hw
  obtain ⟨e | m, h₁⟩ := r
  · obtain ⟨-, rfl, -⟩ := Walk.of_give hw
    exact .error (hfirst.1 e rfl)
  · exact hfirst.2 m rfl base h₁ tr o h' hw

/-- A call other than that of a session. -/
theorem call {c : Call} (hc : ∀ s inputs use, c ≠ .session s inputs use)
    (hbegin : (begin job c).LinelessOr (EndsLineless job)) : EndsLineless job (.call c) := by
  intro base h tr o h' hw
  have hw := walk_call_iff.mp hw
  rw [step_call job h base hc] at hw
  exact of_moveOn hbegin hw

/-- Pauses end without such an error. -/
theorem poll {p : Pause} {h h' : House} {o : Outcome} (hp : Strand.poll job h p = (some o, h')) :
    LinelessResult o := by
  have hposted {r : Link.Posting × House} (hp : posted r = (some o, h')) : LinelessResult o := by
    obtain ⟨_ | _ | _, h₁⟩ := r
    · cases hp
      exact .ok Flow.done
    · cases hp
    · cases hp
      exact .error rfl
  cases p with
  | sleep due =>
    obtain ⟨hp, -⟩ := Prod.mk.inj hp
    split at hp
    · cases hp
      exact .ok Flow.done
    · cases hp
  | wait name token due =>
    rw [Strand.poll] at hp
    split at hp
    · cases hp
      exact .ok Flow.done
    · split at hp
      · cases hp
      · cases hp
        exact .error rfl
  | send id m => exact hposted hp
  | post id c => exact hposted hp
  | answer ticket =>
    rw [Strand.poll] at hp
    split at hp
    · next r _ =>
      cases r with
      | ok x =>
        cases hp
        exact .ok Flow.done
      | error e =>
        cases hp
        exact .error rfl
    · cases hp
  | stopped id =>
    obtain ⟨hp, -⟩ := Prod.mk.inj hp
    split at hp
    · cases hp
    · cases hp
      exact .ok Flow.done
  | state id state =>
    rw [Strand.poll] at hp
    split at hp
    · cases hp
      exact .error rfl
    · split at hp
      · cases hp
        exact .ok Flow.done
      · split at hp
        · cases hp
        · cases hp
          exact .error rfl

theorem pause (p : Pause) : EndsLineless job (.pause p) := by
  intro base h tr o h' hw
  generalize ht : (⟨(Move.pause p).frames ++ base, (Move.pause p).doing⟩ : State) = t at hw
  cases hw with
  | arrive => cases ht
  | step _ runs => exact absurd (congrArg State.doing ht).symm (runs p)
  | pause ends rest =>
    obtain ⟨rfl, hp⟩ := State.mk.inj ht
    obtain rfl := Doing.pause.inj hp
    obtain ⟨-, rfl, -⟩ := Walk.of_give rest
    exact poll ends

/-- What is done under a frame, and then what the frame does. -/
theorem under {f : Frame} {d : Doing} (hstep : f.isStep = false)
    (hf : ∀ s statement rest use, f ≠ .session s statement rest use)
    (hd : EndsLineless job ⟨[], d⟩)
    (hresume : ∀ o, LinelessResult o → (resume o f).LinelessOr (EndsLineless job)) :
    EndsLineless job ⟨[f], d⟩ := by
  intro base h tr o h' hw
  obtain ⟨tr₁, o₁, h₁, tr₂, hinner, hrest, -⟩ := Walk.split_frame hw
  have hrest := (walk_frame_iff hstep).mp hrest
  rw [step_resume job h₁ base o₁ hf] at hrest
  exact of_moveOn (hresume o₁ (hd _ _ _ _ _ hinner)) hrest

end EndsLineless

open Act (LinelessOr)

/-! ### Events -/

/-- A sequence ends with its failure, which has no line. -/
theorem Course.lineless {b : Bands} {depth : Nat} {run : Run} {h h' : House} {tr : List Ended}
    {o : Outcome} (hc : Course job b depth run h tr o h') : LinelessResult o := by
  induction hc with
  | @finish depth run h last =>
    cases run.pending with
    | none => exact .ok Flow.done
    | some f => exact .error rfl
  | step next walk deeper nested rest _ ih => exact ih

theorem endsLineless_run (r : Run) : EndsLineless job (.call (.run r)) :=
  fun _ _ _ _ _ hw => (Walk.course (walk_call_iff.mp hw)).lineless

theorem lineless_dispatch (e : Event) : (dispatch e).LinelessOr (EndsLineless job) :=
  .bind (.perform _) fun _ _ => .pure (endsLineless_run _)

theorem endsLineless_dispatch (e : Event) : EndsLineless job (.call (.dispatch e)) :=
  .call nofun (lineless_dispatch e)

/-- What is announced and then done. -/
theorem lineless_announce {f : Frame} (e : Event) (hstep : f.isStep = false)
    (hf : ∀ s statement rest use, f ≠ .session s statement rest use)
    (hresume : ∀ o, LinelessResult o → (resume o f).LinelessOr (EndsLineless job)) :
    EndsLineless job (.under f (.dispatch e)) :=
  .under hstep hf (endsLineless_dispatch e) hresume

theorem lineless_announceModule {f : Frame} (what : String) (name : Name)
    (hstep : f.isStep = false) (hf : ∀ s statement rest use, f ≠ .session s statement rest use)
    (hresume : ∀ o, LinelessResult o → (resume o f).LinelessOr (EndsLineless job)) :
    (announceModule what name f).LinelessOr (EndsLineless job) :=
  .get_bind fun _ => .bind (Act.lineless_makeEvent _ _) fun e _ =>
    .pure (lineless_announce e hstep hf hresume)

/-! ### Links -/

theorem endsLineless_close (id : QueueId) : EndsLineless job (.call (.close id)) := by
  refine .call nofun (.bind (.perform _) fun posting _ => ?_)
  cases posting with
  | put => exact .pure (.pause _)
  | full =>
    refine .pure (.under rfl nofun (.pause _) fun o _ => ?_)
    cases o with
    | ok flow => exact .pure (.pause _)
    | error e => exact .pure .done
  | closed => exact .pure .done

theorem endsLineless_closeAll (ids : List QueueId) : EndsLineless job (closeAll ids) := by
  induction ids with
  | nil => exact .done
  | cons id rest ih => exact .under rfl nofun (endsLineless_close id) fun _ _ => .pure ih

/-! ### Modules -/

theorem lineless_reportOutcome (o : Outcome) : (reportOutcome o).Lineless := by
  cases o with
  | ok flow => exact .pure trivial
  | error e => exact .update _

theorem endsLineless_takeDown (m : Module) : EndsLineless job (.call (.takeDown m)) := by
  refine .call nofun ?_
  have huninstall : LinelessOr (EndsLineless job) (do
      Act.uninstall m
      pure .done) := .bind (Act.lineless_uninstall m) fun _ _ => .pure .done
  change (takeDown m).LinelessOr (EndsLineless job)
  rw [takeDown]
  split
  · exact .bind (.perform _) fun links _ => .pure (.under rfl nofun
      (.call nofun (.pure (endsLineless_closeAll links))) fun _ _ => huninstall)
  · exact huninstall

/-- A step of a module is announced, whose outcome is known. -/
theorem lineless_announced (what : String) (name : Name) {known : Outcome}
    (hknown : LinelessResult known) :
    (announceModule what name (.announced known)).LinelessOr (EndsLineless job) :=
  lineless_announceModule what name rfl nofun fun o _ =>
    .bind (lineless_reportOutcome o) fun _ _ => .pure (.give hknown)

theorem lineless_loadStarted (m : Module) (o : Outcome) :
    (loadStarted m o).LinelessOr (EndsLineless job) := by
  rw [loadStarted]
  refine .bind (lineless_reportOutcome o) fun _ _ =>
    .bind (.tryCatch (q := fun _ => True) ?_ fun _ _ => .pure trivial) fun r _ => ?_
  · rw [map_eq_pure_bind]
    exact .bind (Act.lineless_install m) fun _ _ => .pure trivial
  · split
    · exact .bind (.update _) fun _ _ => lineless_announced _ _ (.ok Flow.done)
    · exact .pure (.under rfl nofun (endsLineless_takeDown m) fun _ _ =>
        lineless_announced _ _ (.error rfl))

theorem lineless_load (name : Name) : (load name).LinelessOr (EndsLineless job) := by
  rw [load]
  refine .get_bind fun h => ?_
  dsimp only
  split
  · exact .throw_bind rfl _
  · split
    · exact .throw rfl
    · exact lineless_announceModule _ _ rfl nofun fun o _ => lineless_loadStarted _ o

theorem lineless_takenDown (m : Module) (o : Outcome) :
    (takenDown m o).LinelessOr (EndsLineless job) := by
  cases o with
  | ok flow => exact lineless_announced _ _ (.ok Flow.done)
  | error e => exact lineless_announced _ _ (.error rfl)

theorem lineless_unload (name : Name) : (unload name).LinelessOr (EndsLineless job) :=
  .bind (Act.lineless_takeLoaded name) fun m _ =>
    lineless_announceModule _ _ rfl nofun fun o _ =>
      .bind (lineless_reportOutcome o) fun _ _ => .pure <|
        .under rfl nofun (endsLineless_takeDown m) fun o _ => lineless_takenDown m o

/-! ### Waits -/

theorem lineless_wait (p : Phrase) (number : Nat) (span : Option Span) (scope : ScopeId) :
    (wait p number span scope).LinelessOr (EndsLineless job) := by
  have hwaited (name : Name) (o : Outcome) (ho : LinelessResult o) :
      (waited name scope o).LinelessOr (EndsLineless job) := by
    cases o with
    | ok flow =>
      exact .bind (.perform _) fun _ _ => .bind (Act.lineless_makeEvent _ _) fun e _ =>
        .pure (endsLineless_dispatch e)
    | error e =>
      exact .bind (Act.lineless_makeEvent _ _) fun event _ =>
        .pure (lineless_announce event rfl nofun fun _ _ => .pure (.give ho))
  have hstarted (name : Name) (token : Nat) (span : Span) (o : Outcome) (ho : LinelessResult o) :
      (waitStarted name token span scope o).LinelessOr (EndsLineless job) := by
    cases o with
    | ok flow =>
      exact .get_bind fun _ => .pure (.under rfl nofun (.pause _) fun o ho => hwaited name o ho)
    | error e => exact .bind (.perform _) fun _ _ => .throw (ho e rfl)
  unfold wait
  split
  · refine .bind (Act.lineless_params p scope) fun args _ => ?_
    dsimp only
    split
    · exact .pure .done
    · exact .bind (Act.lineless_startWait _ _) fun token _ =>
        .bind (Act.lineless_makeEvent _ _) fun e _ =>
          .pure (lineless_announce e rfl nofun fun o ho => hstarted _ token _ o ho)
  · exact .throw rfl

/-! ### Statements -/

theorem lineless_someParams (p : Phrase) (scope : ScopeId) : (someParams p scope).Lineless := by
  rw [someParams]
  refine .bind (Act.lineless_params p scope) fun args _ => ?_
  split
  · exact .throw rfl
  · exact .pure trivial

theorem lineless_trigger (p : Phrase) (scope : ScopeId) :
    (trigger p scope).LinelessOr (EndsLineless job) :=
  .bind (lineless_someParams p scope) fun _ _ => .bind (.perform _) fun _ _ =>
    .bind (Act.lineless_makeEvent _ _) fun e _ => .pure (endsLineless_dispatch e)

/-- The change of a state is announced, and over then. -/
theorem endsLineless_change (name : Name) (e : Event) :
    EndsLineless job (.under (.unlock name) (.dispatch e)) :=
  lineless_announce e rfl nofun fun _ ho => .bind (.update _) fun _ _ => .pure (.give ho)

theorem lineless_delete (words : Name) (scope : ScopeId) :
    (delete words scope).LinelessOr (EndsLineless job) := by
  rw [delete]
  refine .bind (Act.lineless_resolve words) fun x _ => ?_
  obtain ⟨c, item⟩ := x
  dsimp only
  split
  · exact .throw_bind rfl _
  · unfold deleteFrom
    split
    · exact .pure (.call nofun (lineless_unload item))
    · exact .bind (Act.lineless_deleteHandler item) fun _ _ => .pure .done
    · exact .bind (Act.lineless_deleteState item scope) fun e _ =>
        .pure (endsLineless_change item e)
    · refine .bind (.perform _) fun found _ => ?_
      split
      · exact .pure .done
      · exact .throw rfl
    · exact .bind (Act.lineless_takeLink item) fun id _ => .pure (endsLineless_close id)
    · exact .throw rfl

theorem lineless_log (p : Phrase) (words : Name) :
    (log p words).LinelessOr (EndsLineless job) := by
  unfold log
  split
  · exact .throw rfl
  · split
    · exact .throw rfl
    · exact .bind (.update _) fun _ _ => .pure .done

theorem lineless_setState (p : Phrase) (scope : ScopeId) :
    (setState p scope).LinelessOr (EndsLineless job) := by
  rw [setState]
  refine .bind (Act.lineless_params p scope) fun args _ =>
    .bind (.ofExcept (Act.lineless_valueAndName _ _)) fun y _ => ?_
  refine .bind (Act.lineless_setState _ _ _) fun e _ => ?_
  split
  · exact .pure .done
  · exact .pure (endsLineless_change _ _)

theorem lineless_readState (p : Phrase) (scope : ScopeId) :
    (readState p scope).LinelessOr (EndsLineless job) := by
  rw [readState]
  refine .bind (Act.lineless_params p scope) fun args _ =>
    .bind (.ofExcept (Act.lineless_valueAndName _ _)) fun y _ => ?_
  obtain ⟨var, name⟩ := y
  refine .get_bind fun h => ?_
  split
  · exact .throw rfl
  · exact .bind (.update _) fun _ _ => .pure .done

theorem lineless_send (p : Phrase) (scope : ScopeId) :
    (send p scope).LinelessOr (EndsLineless job) := by
  have hsent (ticket : Nat) (o : Outcome) (ho : LinelessResult o) :
      EndsLineless job (sent ticket o) := by
    cases o with
    | ok flow => exact .pause _
    | error e => exact .give ho
  rw [send]
  refine .bind (Act.lineless_params p scope) fun args _ => ?_
  split
  · refine .get_bind fun h => ?_
    split
    · exact .throw rfl
    · exact .bind (.perform _) fun ticket _ => .pure <|
        .under rfl (by simp) (.call (by simp) (.pure (.pause _))) fun o ho =>
          .pure (hsent ticket o ho)
  · exact .throw rfl

theorem lineless_probe (p : Phrase) (deed : ProbeDeed) (collected : Option (List String × Body))
    (scope : ScopeId) : (probe p deed collected scope).LinelessOr fun m =>
      collected = none → EndsLineless job m := by
  unfold probe
  refine .bind (Act.lineless_params p scope) fun args _ => .bind (.update _) fun _ _ => ?_
  dsimp only
  split
  · exact .throw_bind rfl _
  · exact .throw_bind rfl _
  · cases collected with
    | none => exact .pure fun _ => .give (.ok _)
    | some x => exact .pure nofun

theorem lineless_runPlain (p : Phrase) (scope : ScopeId) :
    (runPlain p scope).LinelessOr (EndsLineless job) := by
  rw [runPlain]
  split
  · exact lineless_trigger p scope
  · exact .bind (lineless_someParams p scope) fun name _ => .pure (.call nofun (lineless_load name))
  · exact .bind (lineless_someParams p scope) fun name _ =>
      .pure (.call nofun (lineless_unload name))
  · exact .bind (Act.lineless_params p scope) fun _ _ => .bind (Act.lineless_list _) fun _ _ =>
      .pure .done
  · exact .bind (Act.lineless_params p scope) fun args _ => lineless_delete args scope
  · exact .bind (Act.lineless_params p scope) fun _ _ => .get_bind fun _ =>
      .bind (.ofExcept (Act.lineless_helpLines _ _)) fun _ _ =>
        .bind (.forM _ fun _ => .update _) fun _ _ => .pure .done
  · exact .bind (Act.lineless_params p scope) fun args _ => lineless_log p args
  · exact .pure (.give (.ok _))
  · exact lineless_setState p scope
  · exact lineless_readState p scope
  · exact lineless_send p scope
  · exact (lineless_probe p _ none scope).weaken fun m hm => hm rfl
  · exact .throw rfl

theorem lineless_connect (p : Phrase) (ondemand : Option Bool) (scope : ScopeId) :
    (connect p ondemand scope).Lineless := by
  rw [connect]
  refine .bind (lineless_someParams p scope) fun name _ => .get_bind fun h => ?_
  dsimp only
  split
  · exact .throw_bind rfl _
  · exact .bind (Act.lineless_openLink _ _) fun _ _ => .pure trivial

/-- A statement that fails at once fails with an error that has no line. So does one that works by
calls of its own. -/
theorem lineless_run (s : Statement) (scope : ScopeId) :
    (run s scope).LinelessOr fun m => callsOut s = true → EndsLineless job m := by
  unfold run
  split
  · exact (lineless_runPlain _ scope).weaken fun _ hm _ => hm
  · split
    · exact .bind (.perform _) fun _ _ => .pure nofun
    · exact .bind (.perform _) fun _ _ => .bind (.update _) fun _ _ => .pure nofun
    · exact .pure nofun
  · refine .bind (Act.lineless_params _ scope) fun _ _ =>
      .bind (Act.lineless_check _) fun found _ => ?_
    split
    · exact .pure nofun
    · split
      · exact .pure nofun
      · exact .pure nofun
  · exact .bind (Act.lineless_defineHandler _ _ _ _ _ scope) fun _ _ => .pure nofun
  · exact (lineless_wait _ _ _ scope).weaken fun _ hm _ => hm
  · exact (lineless_connect _ _ scope).weaken fun _ _ => nofun
  · split
    · have hprobe (p : Phrase) (deed : ProbeDeed) (x : List String × Body) :
          (probe p deed (some x) scope).LinelessOr fun m => some x = none → EndsLineless job m :=
        lineless_probe p deed (some x) scope
      exact (hprobe _ _ _).weaken fun _ _ => nofun
    · exact .pure nofun

/-- A statement that fails by itself fails with an error that has no line. -/
theorem Alone.isLineless {base : List Frame} {x : Statement} {scope : ScopeId} {h h' : House}
    {cause : ScriptError} (ha : Alone job base x scope h cause h') : cause.isLineless = true := by
  unfold Alone at ha
  split at ha
  · next hcalls =>
    obtain ⟨tr, hw⟩ := ha
    refine EndsLineless.of_moveOn ?_ (walk_statement_iff.mp hw) cause rfl
    exact (lineless_run x scope).weaken fun m hm => hm hcalls
  · have hrun : (run x scope).LinelessOr fun m => callsOut x = true → EndsLineless job m :=
      lineless_run x scope
    exact (hrun h).1 cause (congrArg Prod.fst ha)

end Hearth.Strand
