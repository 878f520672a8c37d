import Hearth.Proofs.Registry
import Hearth.Proofs.Strand.Decline

/-!
# Dispatch

The sequence of an event has one step for each worker that is for the event, in the order of the
registry. However a sequence starts, as that of an event, by itself or inside another one, what it
does is the performance of its steps.

## Main definitions

* `Step.Expands` : the step that a worker becomes.
* `Strand.Starts` : the calls that start a sequence.

## Main results

* `House.sequenceFor_expands` : the steps of the sequence for an event.
* `Strand.sequences_perform` : which steps of a sequence run, and what becomes of their errors.
-/

namespace Hearth

/-! ### The steps of workers -/

/-- A step is that of a worker; a composite worker becomes the sequence of the workers that run in
its place. -/
inductive Step.Expands : Worker → Step → Prop where
  | worker {w : Worker} (plain : ∀ p, w = .probe p → p.steps = none) : Step.Expands w (.worker w)
  | nested {p : ProbeWorker} {workers : List ProbeWorker} {conditional : Bool} {steps : List Step}
    (id : Nat) (composite : p.steps = some (workers, conditional))
    (inside : List.Forall₂ Step.Expands (workers.map .probe) steps) :
    Step.Expands (.probe p) (.nested (.probe p) id conditional steps)

mutual

theorem Step.ofProbe_expands (next : Nat) :
    ∀ p : ProbeWorker, Step.Expands (.probe p) (Step.ofProbe next p).1
  | ⟨name, priority, matching, raises, fault, flow, none, catching, catchFault, notes, terse⟩ => by
    refine .worker fun p hp => ?_
    cases hp
    rfl
  | ⟨name, priority, matching, raises, fault, flow, some (steps, conditional), catching, catchFault,
      notes, terse⟩ => .nested next rfl (Step.ofProbes_expands (next + 1) steps)

theorem Step.ofProbes_expands (next : Nat) : ∀ ps : List ProbeWorker,
    List.Forall₂ Step.Expands (ps.map .probe) (Step.ofProbes next ps).1
  | [] => .nil
  | p :: rest => .cons (Step.ofProbe_expands next p) (Step.ofProbes_expands _ rest)

end

theorem Step.ofWorker_expands (next : Nat) (w : Worker) :
    Step.Expands w (Step.ofWorker next w).1 := by
  cases w with
  | probe p => exact Step.ofProbe_expands next p
  | _ => exact .worker (by simp)

theorem Step.ofWorkers_expands (next : Nat) (ws : List Worker) :
    List.Forall₂ Step.Expands ws (Step.ofWorkers next ws).1 := by
  induction ws generalizing next with
  | nil => exact .nil
  | cons w rest ih => exact .cons (Step.ofWorker_expands next w) (ih _)

/-- The steps of the sequence for an event are those of the workers that are for it, in order. -/
theorem House.sequenceFor_expands (h : House) (e : Event) :
    List.Forall₂ Step.Expands (h.registry.matching e.name) (h.sequenceFor e).1.steps :=
  Step.ofWorkers_expands (h.nextSequence + 1) (h.registry.matching e.name)

namespace Strand

/-! ### Calls that start a sequence -/

/-- A call starts a sequence by some bands, in the house that it leaves to the first step. -/
inductive Starts (h : House) : Call → Bands → Sequence → House → Prop where
  | nested (b : Bands) (s : Sequence) : Starts h (.nested b (startRun s)) b s h
  | run (s : Sequence) : Starts h (.run (startRun s)) h.bands s h
  | dispatch (e : Event) : Starts h (.dispatch e) h.bands (h.sequenceFor e).1 (h.sequenceFor e).2

variable {job : Link.JobId} {base : List Frame} {h h₀ h' : House} {c : Call} {b : Bands}
  {s : Sequence} {tr : List Ended} {o : Outcome}

/-- A walk that starts a sequence is the performance of the sequence. -/
theorem Starts.performs (hs : Starts h c b s h₀) (hw : Walk job base ⟨base, .call c⟩ h tr o h') :
    Performs job b base.length s h₀ tr o h' := by
  cases hs with
  | nested b s => exact hw.of_call.course.performs
  | run s => exact hw.of_call.course.performs
  | dispatch e => exact hw.of_call.of_call.course.performs

/-- A sequence terminates if the work of each of its workers does. -/
theorem Starts.terminates (hs : Starts h c b s h₀)
    (hw : ∀ st ∈ s.steps, ∀ w, st.Runs w → WorkEnds job s.event w) :
    Terminates job base ⟨base, .call c⟩ h := by
  cases hs with
  | nested b s => exact .of_call (terminates_goOn hw)
  | run s => exact .of_call (terminates_goOn hw)
  | dispatch e => exact .of_call (.of_call (terminates_goOn hw))

/-- A sequence runs, in order and each once, all of its steps of the system, and those of the
ordinary band that come no later than the first step that stops; so does every sequence inside it.
Its result is the failure of the last step that failed, if any, and the failures before that were
handed over in order. It comes to its end if the work of each of its workers does. Without a step
that declines, the other steps run as before, with the same root errors. The sequence for an event
is a conditional one, with one step for each registered worker that accepts the event, by ascending
priority and then in the order of registration. -/
theorem sequences_perform (job : Link.JobId) :
    (∀ base h c b s h₀, Starts h c b s h₀ →
      (∀ tr o h', Walk job base ⟨base, .call c⟩ h tr o h' →
        Performs job b base.length s h₀ tr o h') ∧
      ((∀ st ∈ s.steps, ∀ w, st.Runs w → WorkEnds job s.event w) →
        Terminates job base ⟨base, .call c⟩ h ∧
        ∃ tr o h', Walk job base ⟨base, .call c⟩ h tr o h')) ∧
    (∀ k b s s' ran ran' handed handed' o o', Lacks k s s' →
      Executes b s ran handed o → Executes b s' ran' handed' o' →
      (∀ o, (k, o) ∈ ran → o = .ok .decline) →
      (∀ i o o', (beyond k i, o) ∈ ran → (i, o') ∈ ran' → face o' = face o) →
      ran'.map (fun x => (beyond k x.1, face x.2)) =
        (ran.filter fun x => x.1 ≠ k).map (fun x => (x.1, face x.2)) ∧
      face o' = face o ∧ handed'.map (·.root.error) = handed.map (·.root.error)) ∧
    (∀ (h : House) (e : Event), (h.sequenceFor e).1.event = e ∧
      (h.sequenceFor e).1.conditional = true ∧
      List.Forall₂ Step.Expands
        ((h.registry.workers.map (·.worker)).filter fun w => w.accepts e.name)
        (h.sequenceFor e).1.steps) ∧
    (∀ bands r, Registry.Built bands r → r.workers.Pairwise Registered.Precedes) := by
  refine ⟨?_, ?_, ?_, ?_⟩
  · intro base h c b s h₀ hs
    refine ⟨fun tr o h' hw => hs.performs hw, fun hw => ?_⟩
    exact ⟨hs.terminates hw, (hs.terminates hw).exists_walk⟩
  · intro k b s s' ran ran' handed handed' o o' hl hx hx' hdecline hface
    exact ⟨Executes.faces_of_decline hl hx hx' hdecline hface,
      Executes.result_of_decline hl hx hx' hdecline hface⟩
  · exact fun h e => ⟨rfl, rfl, h.sequenceFor_expands e⟩
  · exact fun bands r hr => hr.ordered.sorted

/-- A conditional sequence of a worker that fails and a composite worker that fails after it comes
to its end, and does what it should. -/
theorem sequences_perform_failing :
    let p : ProbeWorker := { (default : ProbeWorker) with fault := some "nope" }
    let s : Sequence := ⟨0, default, true,
      [.worker (.probe p), .nested (.probe default) 1 false [.worker (.probe p)]]⟩
    ∃ tr o h', Walk ⟨0⟩ [] ⟨[], .call (.run (startRun s))⟩ default tr o h' ∧
      Performs ⟨0⟩ (House.bands default) 0 s default tr o h' := by
  intro p s
  obtain ⟨hperform, hend⟩ := (sequences_perform ⟨0⟩).1 [] default _ _ _ _ (.run s)
  have hworkers : ∀ st ∈ s.steps, ∀ w, st.Runs w → WorkEnds ⟨0⟩ s.event w := by
    intro st hst w hr
    simp only [s, List.mem_cons, List.not_mem_nil, or_false] at hst
    rcases hst with rfl | rfl
    · cases hr
      exact workEnds_probe _ _ rfl
    · cases hr with
      | nested _ _ _ mem inside =>
        obtain rfl := List.mem_singleton.mp mem
        cases inside
        exact workEnds_probe _ _ rfl
  obtain ⟨-, tr, o, h', hw⟩ := hend hworkers
  exact ⟨tr, o, h', hw, hperform tr o h' hw⟩

end Strand

end Hearth
