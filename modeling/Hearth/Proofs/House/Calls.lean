import Hearth.Proofs.House.Work

/-!
# Calls that leave alone what lasts

Most of what a strand does leaves alone all that lasts of a house, and begins nothing that has to
be brought to an end: no change of a state, no load or unload of a module and no wait. Here are the
parts of calls of which this is true; the few others change one thing, and are looked at where that
thing is.

## Main definitions

* `Move.Plain` : a move that begins nothing that has to be brought to an end.

## Main results

* `Strand.ensures_process`, `Strand.ensures_announceModule`, … : plain parts of calls.
* `Strand.step_call`, `Strand.step_resume` : steps of strands that are not in a session.
-/

namespace Hearth

/-! ### Plain moves -/

/-- Is nothing under way by a frame that has to be brought to an end? -/
def Frame.isPlain : Frame → Bool
  | .unlock _ | .waitStarted .. | .waited .. | .loadStarted _ | .unloadStarted _
  | .uninstall _ => false
  | _ => true

/-- Does something to be done leave nothing to be brought to an end? -/
def Doing.isPlain : Doing → Bool
  | .call (.takeDown _) | .pause (.wait ..) => false
  | _ => true

/-- A move that begins nothing that has to be brought to an end. -/
structure Move.Plain (m : Move) : Prop where
  frames : m.frames.all Frame.isPlain = true
  doing : m.doing.isPlain = true

namespace Move.Plain

theorem give (o : Outcome) : (Move.give o).Plain := ⟨rfl, rfl⟩

/-- A plain move is made under one more frame. -/
theorem append {m : Move} (hm : m.Plain) {f : Frame} (hf : f.isPlain = true) :
    Plain { m with frames := m.frames ++ [f] } := by
  refine ⟨?_, hm.doing⟩
  rw [List.all_append, hm.frames, List.all_cons, hf]
  rfl

end Move.Plain

namespace Strand

open House (Lasting Staying)
open Act (Upholds)

variable {p : House → Prop}

/-! ### Lists -/

theorem plain_runBody (body : Body) (scope : ScopeId) : (runBody body scope).Plain := by
  cases body <;> exact ⟨rfl, rfl⟩

theorem plain_afterStatement (line : Nat) (rest : Body) (scope : ScopeId) (o : Outcome) :
    (afterStatement line rest scope o).Plain := by
  unfold afterStatement
  split
  · exact plain_runBody _ _
  · exact .give _
  · exact .give _

theorem plain_unloadAll (names : List Name) : (unloadAll names).Plain := by
  cases names <;> exact ⟨rfl, rfl⟩

theorem plain_closeAll (queues : List QueueId) : (closeAll queues).Plain := by
  cases queues <;> exact ⟨rfl, rfl⟩

theorem plain_sent (ticket : Nat) (o : Outcome) : (sent ticket o).Plain := by
  cases o <;> exact ⟨rfl, rfl⟩

theorem plain_follow (h : House) (s : Session) (progress : Progress) (rest : List Input)
    (use : SessionUse) : (follow h s progress rest use).2.2.Plain := by
  cases progress with
  | failed e => cases use <;> exact ⟨rfl, rfl⟩
  | _ => exact ⟨rfl, rfl⟩

theorem plain_feed (h : House) (s : Session) (inputs : List Input) (use : SessionUse) :
    (feed h s inputs use).2.2.Plain := by
  cases inputs with
  | nil => exact ⟨rfl, rfl⟩
  | cons i rest =>
    rw [feed_cons]
    exact plain_follow _ _ _ _ _

/-! ### Dispatch -/

section

variable [Staying p]

theorem ensures_raise (w : ProbeWorker) (name : Name) (scope : ScopeId) :
    (raise w name scope).Ensures p Move.Plain := by
  rw [raise]
  refine .bind (Act.ensures_derive _ _ _) fun scope _ => .get_bind fun h hh => ?_
  split
  · exact .bind (.set (Staying.of_stays (h := h) ⟨rfl, rfl, rfl⟩ hh)) fun _ _ => .pure ⟨rfl, rfl⟩
  · exact .throw _

/-- The worker that takes everything down on shutdown does more than the others. -/
theorem ensures_process (e : Event) {w : Worker}
    (hw : ∀ n, w = .teardown n →
      (Act.update Act.cancelWaits).Upholds p ∧ (Act.perform House.takeLinks).Upholds p) :
    (process e w).Ensures p Move.Plain := by
  unfold process
  split
  · exact .bind (.update_stays fun h => h.stays_logLines _ _) fun _ _ => .pure ⟨rfl, rfl⟩
  · exact .bind (.update_stays fun h => h.stays_logAll _ _) fun _ _ => .pure ⟨rfl, rfl⟩
  · exact .pure ⟨rfl, rfl⟩
  · exact .bind (hw _ rfl).1 fun _ _ => .bind (hw _ rfl).2 fun _ _ => .pure ⟨rfl, rfl⟩
  · exact .bind (Act.ensures_derive _ _ _) fun _ _ => .pure ⟨rfl, rfl⟩
  · exact .bind (.update_stays fun _ => ⟨rfl, rfl, rfl⟩) fun _ _ => .pure ⟨rfl, rfl⟩
  · refine .bind (.update_stays fun _ => ⟨rfl, rfl, rfl⟩) fun _ _ => ?_
    split
    · exact ensures_raise _ _ _
    · exact .pure ⟨rfl, rfl⟩

theorem ensures_dispatch (e : Event) : (dispatch e).Ensures p Move.Plain :=
  .bind (.perform_stays fun _ => ⟨rfl, rfl, rfl⟩) fun _ _ => .pure ⟨rfl, rfl⟩

/-- What replaces a failure is handed to those that catch failures. -/
theorem ensures_replaced (older : Option Failure) :
    (Act.update fun h => older.elim h fun failure => (h.dispatchFailure failure).1).Upholds p :=
  .update_stays fun h => by
    cases older with
    | none => exact .refl h
    | some failure => exact h.stays_dispatchFailure failure

/-! ### Modules and links -/

theorem ensures_announceModule (step : String) (name : Name) {next : Frame}
    (hnext : next.isPlain = true) : (announceModule step name next).Ensures p Move.Plain := by
  refine .get_bind fun _ _ => .bind (Act.ensures_makeEvent _ _) fun _ _ => .pure ⟨?_, rfl⟩
  rw [Move.under, List.all_cons, hnext]
  rfl

theorem ensures_reportOutcome (o : Outcome) : (reportOutcome o).Upholds p := by
  cases o with
  | ok flow => exact .pure trivial
  | error e => exact .update_stays fun h => h.stays_reportError e

theorem ensures_takenDown (m : Module) (o : Outcome) : (takenDown m o).Ensures p Move.Plain := by
  cases o <;> exact ensures_announceModule _ _ rfl

theorem ensures_close (id : QueueId) (job : Link.JobId) :
    (close id job).Ensures p Move.Plain := by
  rw [close]
  refine .bind (.perform_stays fun h => h.stays_post _ _ _) fun r _ => ?_
  cases r <;> exact .pure ⟨rfl, rfl⟩

/-! ### Statements -/

theorem ensures_someParams (x : Phrase) (scope : ScopeId) : (someParams x scope).Upholds p := by
  rw [someParams]
  refine .bind (Act.ensures_params x scope) fun args _ => ?_
  split
  · exact .throw _
  · exact .pure trivial

theorem ensures_trigger (x : Phrase) (scope : ScopeId) :
    (trigger x scope).Ensures p Move.Plain :=
  .bind (ensures_someParams x scope) fun _ _ => .bind (Act.ensures_derive _ _ _) fun _ _ =>
    .bind (Act.ensures_makeEvent _ _) fun _ _ => .pure ⟨rfl, rfl⟩

theorem ensures_log (x : Phrase) (words : Name) : (log x words).Ensures p Move.Plain := by
  unfold log
  split
  · exact .throw _
  · split
    · exact .throw _
    · exact .bind (.update_stays fun h => h.stays_logAll _ _) fun _ _ => .pure ⟨rfl, rfl⟩

theorem ensures_readState (x : Phrase) (scope : ScopeId) :
    (readState x scope).Ensures p Move.Plain := by
  rw [readState]
  refine .bind (Act.ensures_params x scope) fun args _ => .bind (.ofExcept _) fun y _ => ?_
  refine .get_bind fun h hh => ?_
  split
  · exact .throw _
  · exact .bind (.update_stays fun _ => ⟨rfl, rfl, rfl⟩) fun _ _ => .pure ⟨rfl, rfl⟩

omit [Staying p] in
theorem ensures_connect [Lasting p] (x : Phrase) (ondemand : Option Bool) (scope : ScopeId) :
    (connect x ondemand scope).Ensures p Move.Plain := by
  rw [connect]
  refine .bind (ensures_someParams x scope) fun name _ => .get_bind fun h hh => ?_
  dsimp only
  split
  · exact .throw_bind _ _
  · exact .bind (Act.ensures_openLink _ _) fun _ _ => .pure ⟨rfl, rfl⟩

theorem ensures_send (x : Phrase) (scope : ScopeId) : (send x scope).Ensures p Move.Plain := by
  rw [send]
  refine .bind (Act.ensures_params x scope) fun args _ => ?_
  split
  · refine .get_bind fun h hh => ?_
    split
    · exact .throw _
    · exact .bind (.perform_stays fun _ => ⟨rfl, rfl, rfl⟩) fun _ _ => .pure ⟨rfl, rfl⟩
  · exact .throw _

theorem ensures_probe (x : Phrase) (deed : ProbeDeed) (collected : Option (List String × Body))
    (scope : ScopeId) : (probe x deed collected scope).Ensures p Move.Plain := by
  unfold probe
  refine .bind (Act.ensures_params x scope) fun args _ => ?_
  refine .bind (.update_stays fun _ => ⟨rfl, rfl, rfl⟩) fun _ _ => ?_
  dsimp only
  split
  · exact .throw_bind _ _
  · exact .throw_bind _ _
  · cases collected <;> exact .pure ⟨rfl, rfl⟩

end

/-! ### Steps -/

theorem step_call (job : Link.JobId) (h : House) (frames : List Frame) {c : Call}
    (hc : ∀ s inputs use, c ≠ .session s inputs use) :
    step job h ⟨frames, .call c⟩ =
      ((moveOn frames ((begin job c).runOn h)).1, (moveOn frames ((begin job c).runOn h)).2,
        none) := by
  cases c with
  | session => exact absurd rfl (hc _ _ _)
  | _ => rfl

theorem step_resume (job : Link.JobId) (h : House) (frames : List Frame) (o : Outcome) {f : Frame}
    (hf : ∀ s statement rest use, f ≠ .session s statement rest use) :
    step job h ⟨f :: frames, .give o⟩ =
      ((moveOn frames ((resume o f).runOn h)).1, (moveOn frames ((resume o f).runOn h)).2,
        none) := by
  cases f with
  | session => exact absurd rfl (hf _ _ _ _)
  | _ => rfl

end Strand

end Hearth
