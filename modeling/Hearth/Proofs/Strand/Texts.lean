import Hearth.Proofs.Session.Recovery
import Hearth.Proofs.Strand.Choices
import Hearth.Proofs.Strand.Traceback

/-!
# The course of a text

A strand feeds a text to a session, input by input. The session reads marks and takes actions, and
whenever it hands out a statement the strand runs it and goes on with the session when that is over.
The text fails at the first moment where something of it cannot go on: a line or a mark that is a
fault, an action that fails, or the run of a statement.

## Main definitions

* `Strand.Gets` : how far a text gets.
* `Strand.Misread`, `Strand.Stops` : the moments at which a text fails, and the error that it fails
  with.

## Main result

* `Strand.text_fails_iff` : a text fails exactly with the errors of such moments.
-/

namespace Hearth.Strand

open Script

/-! ### Ways of a strand -/

namespace Leads

variable {job : Link.JobId} {base : List Frame} {t t₁ t' : State} {h h₁ h' : House}
  {tr tr' : List Ended}

theorem trans (hl : Leads job base t h tr t₁ h₁) (hl' : Leads job base t₁ h₁ tr' t' h') :
    Leads job base t h (tr ++ tr') t' h' := by
  induction hl with
  | here => exact hl'
  | step goesOn runs rest ih => exact List.append_assoc .. ▸ .step goesOn runs (ih hl')
  | pause ends rest ih => exact .pause ends (ih hl')

/-- A way above a frame is one above the frames below it as well. -/
theorem above {f : Frame} (hl : Leads job (f :: base) t h tr t' h')
    (ht : ∃ fs, t.frames = fs ++ f :: base) : Leads job base t h tr t' h' := by
  induction hl with
  | here => exact .here ..
  | @step t t' h h' tr goesOn runs rest ih =>
    obtain ⟨frames, d⟩ := t
    obtain ⟨fs, rfl⟩ := ht
    obtain ⟨fs', d', hs⟩ := exists_step h goesOn runs
    exact .step (not_arrived_above base fs f d) runs (ih ⟨fs', by rw [hs]⟩)
  | pause ends rest ih => exact .pause ends (ih ht)

/-- The same above several frames. -/
theorem above_all {fs : List Frame} (hl : Leads job (fs ++ base) t h tr t' h')
    (ht : ∃ above, t.frames = above ++ (fs ++ base)) : Leads job base t h tr t' h' := by
  induction fs with
  | nil => exact hl
  | cons f fs ih =>
    obtain ⟨above, habove⟩ := ht
    refine ih (hl.above ⟨above, habove⟩) ⟨above ++ [f], ?_⟩
    rw [habove, List.append_assoc]
    rfl

end Leads

/-- A call right under a frame comes to its end before the frame does. -/
theorem Walk.split_frame {job : Link.JobId} {base : List Frame} {f : Frame} {d : Doing}
    {h h' : House} {tr : List Ended} {o : Outcome} (hw : Walk job base ⟨f :: base, d⟩ h tr o h') :
    ∃ tr₁ o₁ h₁ tr₂, Walk job (f :: base) ⟨f :: base, d⟩ h tr₁ o₁ h₁ ∧
      Walk job base ⟨f :: base, .give o₁⟩ h₁ tr₂ o h' ∧ tr = tr₁ ++ tr₂ := by
  have hframes : (⟨f :: base, d⟩ : State) = ⟨[] ++ f :: base, d⟩ := rfl
  exact hw.split hframes

/-- A call is begun. -/
theorem leads_call {job : Link.JobId} {base : List Frame} {c : Call} {h : House} :
    Leads job base ⟨base, .call c⟩ h [] (step job h ⟨base, .call c⟩).1
      (step job h ⟨base, .call c⟩).2.1 := by
  have hgoesOn : ¬ State.Arrived base ⟨base, .call c⟩ := by
    rintro ⟨-, o, ⟨⟩⟩
  have hstep : Leads job base ⟨base, .call c⟩ h _ _ _ :=
    .step hgoesOn (fun p => nofun) (.here (step job h ⟨base, .call c⟩).1 _)
  rwa [State.ending_call, List.nil_append] at hstep

/-- A walk is a way to the end of the call. -/
theorem Walk.leads {job : Link.JobId} {base : List Frame} {t : State} {h h' : House}
    {tr : List Ended} {o : Outcome} (hw : Walk job base t h tr o h') :
    Leads job base t h tr ⟨base, .give o⟩ h' := by
  induction hw with
  | arrive o h => exact .here ..
  | step goesOn runs rest ih => exact .step goesOn runs ih
  | pause ends rest ih => exact .pause ends ih

theorem ending_frame {f : Frame} (hf : f.isStep = false) (base : List Frame) (o : Outcome) :
    State.ending ⟨f :: base, .give o⟩ = [] := by
  cases f with
  | step => cases hf
  | _ => rfl

/-- A frame that is no step of a sequence takes the end of a call. -/
theorem leads_frame {job : Link.JobId} {base : List Frame} {f : Frame} {h : House} {o : Outcome}
    (hf : f.isStep = false) :
    Leads job base ⟨f :: base, .give o⟩ h [] (step job h ⟨f :: base, .give o⟩).1
      (step job h ⟨f :: base, .give o⟩).2.1 := by
  have hstep : Leads job base ⟨f :: base, .give o⟩ h _ _ _ :=
    .step (not_arrived_above base [] f _) (fun p => nofun)
      (.here (step job h ⟨f :: base, .give o⟩).1 _)
  rwa [ending_frame hf, List.nil_append] at hstep

theorem walk_frame_iff {job : Link.JobId} {base : List Frame} {f : Frame} {h h' : House}
    {tr : List Ended} {o₁ o : Outcome} (hf : f.isStep = false) :
    Walk job base ⟨f :: base, .give o₁⟩ h tr o h' ↔
      Walk job base (step job h ⟨f :: base, .give o₁⟩).1 (step job h ⟨f :: base, .give o₁⟩).2.1
        tr o h' := by
  refine ⟨fun hw => ?_, (leads_frame hf).walk⟩
  generalize ht : (⟨f :: base, .give o₁⟩ : State) = t at hw
  cases hw with
  | arrive o => exact absurd (ht ▸ ⟨rfl, o, rfl⟩) (not_arrived_above base [] f (.give o₁))
  | step _ _ rest =>
    subst ht
    rwa [ending_frame hf, List.nil_append]
  | pause => cases ht

/-! ### Moments of a text -/

/-- How far a text gets: the house, the session and the inputs that are left. Between two inputs the
session is given the next one; otherwise it reads a mark or takes an action, and a statement that it
hands out is run to its end. -/
inductive Gets (job : Link.JobId) (base : List Frame) (mode : Mode) (scope : ScopeId)
    (inputs : List Input) (h₀ : House) : House → Session → List Input → Prop
  | start : Gets job base mode scope inputs h₀ h₀ (.start mode scope) inputs
  | take {h : House} {s v : Session} {i : Input} {rest : List Input}
    (hs : Gets job base mode scope inputs h₀ h s (i :: rest)) (hactions : s.actions = [])
    (hmarks : s.marks = []) (hgiven : s.given i = some v) :
    Gets job base mode scope inputs h₀ h v rest
  | read {h : House} {s : Session} {rest : List Input} {mark : Script.Mark}
    {marks : List Script.Mark} {outline : Outline} {actions : List Action}
    (hs : Gets job base mode scope inputs h₀ h s rest) (hactions : s.actions = [])
    (hmarks : s.marks = mark :: marks) (hfeed : s.outline.feed mark = (outline, .ok actions)) :
    Gets job base mode scope inputs h₀ h { s with outline, marks, actions } rest
  | act {h h' : House} {s s' : Session} {rest : List Input} {action : Action}
    {actions : List Action} (hs : Gets job base mode scope inputs h₀ h s rest)
    (hactions : s.actions = action :: actions)
    (hrun : (Session.act { s with actions } action).runOn h = (.ok (s', none), h')) :
    Gets job base mode scope inputs h₀ h' s' rest
  | ran {h h₁ h₂ : House} {s s' : Session} {rest : List Input} {action : Action}
    {actions : List Action} {statement : Statement} {tr : List Ended} {flow : Flow}
    (hs : Gets job base mode scope inputs h₀ h s rest)
    (hactions : s.actions = action :: actions)
    (hrun : (Session.act { s with actions } action).runOn h = (.ok (s', some statement), h₁))
    (hwalk : Walk job (.session s' statement rest .script :: base)
      ⟨.session s' statement rest .script :: base, .call (.statement statement s'.scope)⟩ h₁ tr
      (.ok flow) h₂) :
    Gets job base mode scope inputs h₀ h₂ s' rest

/-- A line of the text, or a mark of it, is a fault. -/
inductive Misread (job : Link.JobId) (base : List Frame) (mode : Mode) (scope : ScopeId)
    (inputs : List Input) (h₀ : House) : Nat → Fault → Prop
  | line {h : House} {s : Session} {rest : List Input} {text : String} {layout : Layout}
    {fault : Fault} (hs : Gets job base mode scope inputs h₀ h s (.line text :: rest))
    (hactions : s.actions = []) (hmarks : s.marks = [])
    (hfeed : s.layout.feed text = (layout, .error fault)) :
    Misread job base mode scope inputs h₀ layout.line fault
  | mark {h : House} {s : Session} {rest : List Input} {mark : Script.Mark}
    {marks : List Script.Mark} {outline : Outline} {fault : Fault} (hs : Gets job base mode scope inputs h₀ h s rest)
    (hactions : s.actions = []) (hmarks : s.marks = mark :: marks)
    (hfeed : s.outline.feed mark = (outline, .error fault)) :
    Misread job base mode scope inputs h₀ mark.line fault

/-- The moments at which a text fails, and the error that it fails with. -/
inductive Stops (job : Link.JobId) (base : List Frame) (mode : Mode) (scope : ScopeId)
    (inputs : List Input) (h₀ : House) : ScriptError → Prop
  | fault {line : Nat} {fault : Fault} (h : Misread job base mode scope inputs h₀ line fault) :
    Stops job base mode scope inputs h₀ (.malformed line fault)
  | act {h h' : House} {s : Session} {rest : List Input} {action : Action}
    {actions : List Action} {cause : ScriptError}
    (hs : Gets job base mode scope inputs h₀ h s rest)
    (hactions : s.actions = action :: actions)
    (hrun : (Session.act { s with actions } action).runOn h = (.error cause, h')) :
    Stops job base mode scope inputs h₀ (cause.atLineOnce s.layout.line)
  | run {h h₁ h₂ : House} {s s' : Session} {rest : List Input} {action : Action}
    {actions : List Action} {statement : Statement} {tr : List Ended} {cause : ScriptError}
    (hs : Gets job base mode scope inputs h₀ h s rest)
    (hactions : s.actions = action :: actions)
    (hrun : (Session.act { s with actions } action).runOn h = (.ok (s', some statement), h₁))
    (hwalk : Walk job (.session s' statement rest .script :: base)
      ⟨.session s' statement rest .script :: base, .call (.statement statement s'.scope)⟩ h₁ tr
      (.error cause) h₂) :
    Stops job base mode scope inputs h₀ (cause.atLineOnce statement.phrase.line)

variable {job : Link.JobId} {base : List Frame} {mode : Mode} {scope : ScopeId}
  {inputs rest : List Input} {h₀ h h' : House} {s : Session} {e : ScriptError}

/-- A session is in the middle of an input, or between two. -/
theorem Gets.midway (hs : Gets job base mode scope inputs h₀ h s rest) :
    ∃ final, s.Midway final := by
  induction hs with
  | start =>
    have hfed : Layout.start.Fed .start [] .newline := ⟨rfl, .inl rfl, nofun, id⟩
    exact ⟨.newline, (Session.InStep.start mode scope).midway hfed (.inl rfl) (fun _ => rfl) nofun⟩
  | take hs hactions hmarks hgiven ih =>
    obtain ⟨final, hmid⟩ := ih
    exact ⟨_, (hmid.inStep hactions hmarks).given_midway hgiven⟩
  | read hs hactions hmarks hfeed ih =>
    exact ih.imp fun _ hmid => hmid.read hactions hmarks hfeed
  | act hs hactions hrun ih | ran hs hactions hrun hwalk ih =>
    exact ih.imp fun _ hmid => hmid.act hactions hrun

/-! ### A session and its strand -/

/-- What a strand does next for a script when the session of its text got somewhere. -/
def followed (base : List Frame) (rest : List Input) (x : House × Session × Progress) :
    State × House :=
  let (h, _, m) := follow x.1 x.2.1 x.2.2 rest .script
  (⟨m.frames ++ base, m.doing⟩, h)

/-- A strand that follows a session comes to the end of the text with an error. -/
def FailsWith (job : Link.JobId) (base : List Frame) (rest : List Input)
    (x : House × Session × Progress) (e : ScriptError) : Prop :=
  ∃ tr h', Walk job base (followed base rest x).1 (followed base rest x).2 tr (.error e) h'

theorem failsWith_failed {e' : ScriptError} :
    FailsWith job base rest (h, s, .failed e') e ↔ e = e' := by
  constructor
  · rintro ⟨tr, h', hwalk⟩
    obtain ⟨-, he, -⟩ := Walk.of_give hwalk
    exact Except.error.inj he
  · rintro rfl
    exact ⟨[], h, .arrive ..⟩

theorem failsWith_fail {e' : ScriptError} :
    FailsWith job base rest (h, s.fail e') e ↔ e = e'.atLineOnce s.layout.line := by
  rw [Session.fail_eq]
  exact failsWith_failed

/-- A session that needs no more is given the next input. -/
theorem failsWith_ready {i : Input} :
    FailsWith job base (i :: rest) (h, s, .ready) e ↔ FailsWith job base rest (s.take h i) e := by
  have hstep : step job h ⟨base, .call (.session s (i :: rest) .script)⟩ =
      ((followed base rest (s.take h i)).1, (followed base rest (s.take h i)).2, none) := by
    cases i with
    | line text =>
      dsimp only [step, feed, followed, Session.take]
      obtain ⟨h₁, s₁, progress⟩ := s.feed h text
      cases progress <;> rfl
    | finish =>
      dsimp only [step, feed, followed, Session.take]
      obtain ⟨h₁, s₁, progress⟩ := s.finish h
      cases progress <;> rfl
  refine exists_congr fun tr => exists_congr fun h' => ?_
  change Walk job base ⟨base, .call (.session s (i :: rest) .script)⟩ h tr (.error e) h' ↔ _
  rw [walk_call_iff, hstep]

/-- A text that is over did not fail. -/
theorem not_failsWith_ready : ¬ FailsWith job base [] (h, s, .ready) e := by
  rintro ⟨tr, h', hwalk⟩
  change Walk job base ⟨base, .call (.session s [] .script)⟩ h tr (.error e) h' at hwalk
  obtain ⟨-, ho, -⟩ := Walk.of_give (walk_call_iff.mp hwalk)
  cases ho

/-- A statement that a session hands out is run, and the session goes on then. -/
theorem failsWith_run {statement : Statement} :
    FailsWith job base rest (h, s, .run statement) e ↔ ∃ tr o h₁,
      Walk job (.session s statement rest .script :: base)
        ⟨.session s statement rest .script :: base, .call (.statement statement s.scope)⟩ h tr o
        h₁ ∧ FailsWith job base rest (s.afterRun h₁ statement o) e := by
  constructor
  · rintro ⟨tr, h', hwalk⟩
    obtain ⟨tr₁, o, h₁, tr₂, hrun, hrest, -⟩ := Walk.split_frame hwalk
    exact ⟨tr₁, o, h₁, hrun, tr₂, h', (walk_frame_iff rfl).mp hrest⟩
  · rintro ⟨tr, o, h₁, hrun, tr', h', hrest⟩
    have hleads := hrun.leads.above ⟨[], rfl⟩
    exact ⟨_, h', hleads.walk ((walk_frame_iff rfl).mpr hrest)⟩

/-! ### From moment to moment -/

/-- A session that takes an action goes on as it does from there. -/
theorem advance_act {action : Action} {actions : List Action} (n : Nat)
    (hactions : s.actions = action :: actions) :
    s.advance h (n + 1) =
      match (Session.act { s with actions } action).runOn h with
      | (.ok (s', some statement), h') => (h', s', .run statement)
      | (.ok (s', none), h') => s'.advance h' n
      | (.error e, h') => (h', (s.afterFailed action).fail e) := by
  rw [Session.advance]
  split
  · next heq =>
    obtain ⟨rfl, rfl⟩ := List.cons.inj (hactions.symm.trans heq)
    rfl
  · next heq _ => cases hactions.symm.trans heq
  · next heq _ => cases hactions.symm.trans heq

/-- A session that reads a mark goes on as it does from there. -/
theorem advance_read {mark : Script.Mark} {marks : List Script.Mark} (n : Nat)
    (hactions : s.actions = []) (hmarks : s.marks = mark :: marks) :
    s.advance h (n + 1) =
      match s.outline.feed mark with
      | (outline, .ok actions) => Session.advance h { s with outline, marks, actions } n
      | (outline, .error fault) =>
        (h, { s with outline, marks := [] }.fail (.malformed mark.line fault)) := by
  rw [Session.advance]
  split
  · next heq => cases hactions.symm.trans heq
  · next heq =>
    obtain ⟨rfl, rfl⟩ := List.cons.inj (hmarks.symm.trans heq)
    rfl
  · next heq => cases hmarks.symm.trans heq

theorem advance_ready (n : Nat) (hactions : s.actions = []) (hmarks : s.marks = []) :
    s.advance h n = (h, s, .ready) := by
  cases n with
  | zero => rfl
  | succ n => rw [Session.advance, hactions, hmarks]

/-- The inputs of a session are marks, or a line with a fault. -/
theorem take_eq (s : Session) (h : House) (i : Input) :
    (∃ v, s.given i = some v ∧ s.take h i = v.resume h) ∨
      ∃ text layout fault, i = .line text ∧ s.layout.feed text = (layout, .error fault) ∧
        s.take h i = (h, { s with layout }.fail (.malformed layout.line fault)) := by
  cases i with
  | finish =>
    refine .inl ⟨_, rfl, ?_⟩
    rw [Session.take, Session.finish]
  | line text =>
    rcases hfeed : s.layout.feed text with ⟨layout, fault | marks⟩
    · refine .inr ⟨text, layout, fault, rfl, hfeed, ?_⟩
      rw [Session.take, Session.feed, hfeed]
    · refine .inl ⟨{ s with layout, marks }, ?_, ?_⟩
      · rw [Session.given, hfeed]
      · rw [Session.take, Session.feed, hfeed]

/-- The work that is left of an input. -/
def leftOf (s : Session) : Nat := 3 * s.marks.length + s.actions.length

theorem rounds_eq (s : Session) : s.rounds = leftOf s + 1 := rfl

theorem leftOf_lt_rounds (s : Session) : leftOf s < s.rounds := Nat.lt_succ_self _

theorem leftOf_act {s' : Session} {action : Action} {actions : List Action}
    {r : Option Statement} (hactions : s.actions = action :: actions)
    (hrun : (Session.act { s with actions } action).runOn h = (.ok (s', r), h')) :
    leftOf s' + 1 = leftOf s := by
  obtain ⟨blocks, rfl, -⟩ := Session.act_blocks hrun
  simp only [leftOf, hactions, List.length_cons]
  omega

theorem leftOf_read {final : MarkKind} {mark : Script.Mark} {marks : List Script.Mark}
    {outline : Outline} {actions : List Action} (hmid : s.Midway final) (hactions : s.actions = [])
    (hmarks : s.marks = mark :: marks) (hfeed : s.outline.feed mark = (outline, .ok actions)) :
    leftOf { s with outline, marks, actions } < leftOf s := by
  have := (Outline.moved_of_feed hfeed (hmid.depth_ne_zero hmarks)).length
  simp only [leftOf, hactions, hmarks, List.length_cons, List.length_nil]
  omega

/-! ### Failing -/

/-- A text that fails from a moment on fails in the same input, or after it. The induction is on
what is left of the input. -/
theorem Gets.stops_or_ready (hs : Gets job base mode scope inputs h₀ h s rest) {n : Nat}
    (hn : leftOf s < n) (hfails : FailsWith job base rest (s.advance h n) e) :
    Stops job base mode scope inputs h₀ e ∨ ∃ h₁ s₁,
      Gets job base mode scope inputs h₀ h₁ s₁ rest ∧ s₁.actions = [] ∧ s₁.marks = [] ∧
        FailsWith job base rest (h₁, s₁, .ready) e := by
  induction n using Nat.strongRecOn generalizing h s with
  | ind n ih =>
    obtain ⟨n, rfl⟩ := Nat.exists_eq_add_one_of_ne_zero (Nat.ne_zero_of_lt hn)
    obtain ⟨final, hmid⟩ := hs.midway
    cases hactions : s.actions with
    | cons action actions =>
      rw [advance_act n hactions] at hfails
      rcases hrun : (Session.act { s with actions } action).runOn h with
        ⟨cause | ⟨s', _ | statement⟩, h₁⟩
      · rw [hrun] at hfails
        have he := failsWith_fail.mp hfails
        obtain rfl : e = cause.atLineOnce s.layout.line := he
        exact .inl (.act hs hactions hrun)
      · have hleft := leftOf_act hactions hrun
        rw [hrun] at hfails
        exact ih n (Nat.lt_succ_self n) (hs.act hactions hrun) (by omega) hfails
      · have hleft := leftOf_act hactions hrun
        rw [hrun] at hfails
        obtain ⟨tr, o, h₂, hwalk, hfails⟩ := failsWith_run.mp hfails
        cases o with
        | ok flow =>
          have hrounds : s'.rounds < n + 1 := by
            have := rounds_eq s'
            omega
          exact ih _ hrounds (hs.ran hactions hrun hwalk) (leftOf_lt_rounds s') hfails
        | error cause =>
          rw [Session.afterRun] at hfails
          obtain rfl := failsWith_fail.mp hfails
          rw [ScriptError.atLineOnce_twice]
          exact .inl (.run hs hactions hrun hwalk)
    | nil =>
      cases hmarks : s.marks with
      | cons mark marks =>
        rw [advance_read n hactions hmarks] at hfails
        rcases hfeed : s.outline.feed mark with ⟨outline, fault | actions⟩
        · rw [hfeed] at hfails
          obtain rfl := failsWith_fail.mp hfails
          exact .inl (.fault (.mark hs hactions hmarks hfeed))
        · rw [hfeed] at hfails
          have hleft := leftOf_read hmid hactions hmarks hfeed
          exact ih n (Nat.lt_succ_self n) (hs.read hactions hmarks hfeed) (by omega) hfails
      | nil =>
        rw [advance_ready _ hactions hmarks] at hfails
        exact .inr ⟨h, s, hs, hactions, hmarks, hfails⟩

/-- A text that fails from a moment on fails at a later one. -/
theorem Gets.stops (hs : Gets job base mode scope inputs h₀ h s rest) {n : Nat}
    (hn : leftOf s < n) (hfails : FailsWith job base rest (s.advance h n) e) :
    Stops job base mode scope inputs h₀ e := by
  induction rest generalizing h s n with
  | nil =>
    obtain hstops | ⟨h₁, s₁, -, -, -, hfails⟩ := hs.stops_or_ready hn hfails
    · exact hstops
    · exact absurd hfails not_failsWith_ready
  | cons i rest ih =>
    obtain hstops | ⟨h₁, s₁, hs₁, hactions, hmarks, hfails⟩ := hs.stops_or_ready hn hfails
    · exact hstops
    · obtain ⟨v, hgiven, htake⟩ | ⟨text, layout, fault, rfl, hfeed, htake⟩ := take_eq s₁ h₁ i
      · rw [failsWith_ready, htake] at hfails
        exact ih (hs₁.take hactions hmarks hgiven) (leftOf_lt_rounds v) hfails
      · rw [failsWith_ready, htake] at hfails
        obtain rfl := failsWith_fail.mp hfails
        exact .fault (.line hs₁ hactions hmarks hfeed)

/-- A text fails if it fails from a moment on that it gets to. -/
theorem Gets.fails (hs : Gets job base mode scope inputs h₀ h s rest)
    (hfails : ∀ n, leftOf s < n → FailsWith job base rest (s.advance h n) e) :
    FailsWith job base inputs (h₀, .start mode scope, .ready) e := by
  induction hs with
  | start => exact hfails 1 Nat.one_pos
  | @take h s v i rest hs hactions hmarks hgiven ih =>
    refine ih fun n _ => ?_
    rw [advance_ready n hactions hmarks, failsWith_ready]
    obtain ⟨v', hgiven', htake⟩ | ⟨text, layout, fault, rfl, hfeed, -⟩ := take_eq s h i
    · obtain rfl := Option.some.inj (hgiven.symm.trans hgiven')
      rw [htake]
      exact hfails _ (leftOf_lt_rounds v)
    · rw [Session.given, hfeed] at hgiven
      cases hgiven
  | @read h s rest mark marks outline actions hs hactions hmarks hfeed ih =>
    refine ih fun n hn => ?_
    obtain ⟨n, rfl⟩ := Nat.exists_eq_add_one_of_ne_zero (Nat.ne_zero_of_lt hn)
    obtain ⟨final, hmid⟩ := hs.midway
    have hleft := leftOf_read hmid hactions hmarks hfeed
    rw [advance_read n hactions hmarks, hfeed]
    exact hfails n (by omega)
  | @act h h' s s' rest action actions hs hactions hrun ih =>
    refine ih fun n hn => ?_
    obtain ⟨n, rfl⟩ := Nat.exists_eq_add_one_of_ne_zero (Nat.ne_zero_of_lt hn)
    have hleft := leftOf_act hactions hrun
    rw [advance_act n hactions, hrun]
    exact hfails n (by omega)
  | @ran h h₁ h₂ s s' rest action actions statement tr flow hs hactions hrun hwalk ih =>
    refine ih fun n hn => ?_
    obtain ⟨n, rfl⟩ := Nat.exists_eq_add_one_of_ne_zero (Nat.ne_zero_of_lt hn)
    rw [advance_act n hactions, hrun]
    exact failsWith_run.mpr ⟨tr, _, h₂, hwalk, hfails _ (leftOf_lt_rounds s')⟩

/-- What a text stops with it fails with. -/
theorem Stops.fails (hstops : Stops job base mode scope inputs h₀ e) :
    FailsWith job base inputs (h₀, .start mode scope, .ready) e := by
  cases hstops with
  | fault hfault =>
    cases hfault with
    | line hs hactions hmarks hfeed =>
      refine hs.fails fun n _ => ?_
      rw [advance_ready n hactions hmarks, failsWith_ready, Session.take, Session.feed, hfeed]
      exact failsWith_fail.mpr rfl
    | mark hs hactions hmarks hfeed =>
      refine hs.fails fun n hn => ?_
      obtain ⟨n, rfl⟩ := Nat.exists_eq_add_one_of_ne_zero (Nat.ne_zero_of_lt hn)
      rw [advance_read n hactions hmarks, hfeed]
      exact failsWith_fail.mpr rfl
  | act hs hactions hrun =>
    refine hs.fails fun n hn => ?_
    obtain ⟨n, rfl⟩ := Nat.exists_eq_add_one_of_ne_zero (Nat.ne_zero_of_lt hn)
    rw [advance_act n hactions, hrun]
    exact failsWith_fail.mpr rfl
  | @run h h₁ h₂ s s' rest action actions statement tr cause hs hactions hrun hwalk =>
    refine hs.fails fun n hn => ?_
    obtain ⟨n, rfl⟩ := Nat.exists_eq_add_one_of_ne_zero (Nat.ne_zero_of_lt hn)
    rw [advance_act n hactions, hrun]
    refine failsWith_run.mpr ⟨tr, _, h₂, hwalk, ?_⟩
    rw [Session.afterRun]
    exact failsWith_fail.mpr (cause.atLineOnce_twice ..).symm

/-- The text of a script fails exactly with the errors of the moments at which it cannot go on. -/
theorem text_fails_iff (job : Link.JobId) (base : List Frame) (mode : Mode) (scope : ScopeId)
    (inputs : List Input) (h : House) (e : ScriptError) :
    (∃ tr h', Walk job base ⟨base, .call (.session (.start mode scope) inputs .script)⟩ h tr
      (.error e) h') ↔ Stops job base mode scope inputs h e :=
  ⟨Gets.start.stops (n := 1) Nat.one_pos, Stops.fails⟩

end Hearth.Strand
