import Hearth.Proofs.States.Effects

/-!
# Changes of states, among many strands

A crowd is a house with strands that work on it. One strand at a time takes a step, in any order;
between the steps anything else may happen to the house that leaves states and their locks alone. A
change is in flight from its announcement on until the frame that ends it is taken off its stack.

## Main definitions

* `Strand.upshot` : what a step did, as far as it has to do with states.
* `Crowd.Step`, `Crowd.Run` : what the strands of a crowd do, one step after the other.
* `Crowd.inFlight` : the states whose changes are being handled.
* `Crowd.Exclusive` : a state is locked exactly as long as a change of it is in flight.
* `Chained` : each old value is the new value of the announcement before.

## Main results

* `Strand.step_effect` : all that one step of a strand can do to states.
* `Crowd.changes_chained` : what is announced in a run.
-/

namespace Hearth

namespace Strand

/-- What is announced when a state changes: the event, and the values that its scope shows. -/
structure Announcement where
  name : Name
  event : Event
  old : Option Json
  new : Option Json

/-- The change that a step of a strand announced: a frame that ends a change was put on the stack,
and an event is to be dispatched above it. -/
def announced? (t t' : State) (h' : House) : Option Announcement :=
  match t'.frames, t'.doing with
  | .unlock name :: rest, .call (.dispatch e) =>
    if rest.length = t.frames.length then
      some ⟨name, e, h'.scopes.lookup e.scope "old", h'.scopes.lookup e.scope "new"⟩
    else none
  | _, _ => none

/-- What a step did, as far as it has to do with states. -/
inductive Upshot where
  | announces (a : Announcement)
  /-- The store failed. -/
  | unstored (e : StoreError)
  | quiet

/-- What the step of a strand did. -/
def upshot (t t' : State) (h' : House) : Upshot :=
  match announced? t t' h' with
  | some a => .announces a
  | none =>
    match t.doing, t'.doing with
    | .call _, .give (.error (.external (.store e))) => .unstored e
    | _, _ => .quiet

/-- All that one step of a strand can do to states. -/
inductive StepEffect (h : House) (t : State) : State × House → Prop
  | calm {t' : State} {h' : House} (states : h.SameStates h')
    (changes : Frame.changes t'.frames = Frame.changes t.frames)
    (quiet : announced? t t' h' = none) : StepEffect h t (t', h')
  | announces {name : Name} {e : Event} {h' : House} (announces : h.Announces name e h') :
    StepEffect h t (⟨.unlock name :: t.frames, .call (.dispatch e)⟩, h')
  | ends {name : Name} {frames : List Frame} {o : Outcome}
    (ending : t.frames = .unlock name :: frames) (h' : House) (store : h'.store = h.store)
    (changing : h'.changing = h.changing.filter (· != name)) :
    StepEffect h t (⟨frames, .give o⟩, h')
  | unstored {t' : State} {h' : House} {e : StoreError} (upshot : upshot t t' h' = .unstored e) :
    StepEffect h t (t', h')

/-- Frames that end no change, put on others that were there, announce nothing. -/
theorem announced?_eq_none {t : State} (new : List Frame) {base : List Frame} (d : Doing)
    (h' : House) (hnew : Frame.changes new = []) (hlength : base.length ≤ t.frames.length) :
    announced? t ⟨new ++ base, d⟩ h' = none := by
  unfold announced?
  split
  · next name rest e hframes hdoing =>
    refine if_neg fun heq => ?_
    cases new with
    | nil =>
      obtain rfl : base = .unlock name :: rest := hframes
      rw [List.length_cons] at hlength
      omega
    | cons f new =>
      obtain ⟨rfl, -⟩ := List.cons.inj hframes
      cases hnew
  · rfl

theorem announced?_give (t : State) (frames : List Frame) (o : Outcome) (h' : House) :
    announced? t ⟨frames, .give o⟩ h' = none := by
  unfold announced?
  split
  · next hdoing => cases hdoing
  · rfl

theorem quiet_ne_announces (a : Announcement) : Upshot.quiet ≠ .announces a := nofun

theorem upshot_ne {t t' : State} {h' : House} (hquiet : announced? t t' h' = none)
    (a : Announcement) : upshot t t' h' ≠ .announces a := by
  unfold upshot
  rw [hquiet]
  dsimp only
  split <;> exact nofun

theorem upshot_announces {t : State} {h h' : House} {name : Name} {e : Event}
    (ha : h.Announces name e h') :
    upshot t ⟨.unlock name :: t.frames, .call (.dispatch e)⟩ h' =
      .announces ⟨name, e, some (h.value name).toValue, some (h'.value name).toValue⟩ := by
  simp only [upshot, announced?, ha.old, ha.new, if_true]

/-- A calm move leaves it at that. -/
theorem StepEffect.of_calm {h : House} {t : State} (new : List Frame) {base : List Frame}
    {d : Doing} {h' : House} (hstates : h.SameStates h') (hnew : Frame.changes new = [])
    (hbase : Frame.changes base = Frame.changes t.frames)
    (hlength : base.length ≤ t.frames.length) : StepEffect h t (⟨new ++ base, d⟩, h') := by
  refine .calm hstates ?_ (announced?_eq_none new d h' hnew hlength)
  rw [Frame.changes, List.filterMap_append, ← Frame.changes, hnew, List.nil_append, ← Frame.changes,
    hbase]

/-- What is left of the stack when the innermost frame gets an outcome. -/
theorem StepEffect.of_resume {h : House} {f : Frame} {frames : List Frame} {o : Outcome}
    (hf : f.change? = none) :
    StepEffect h ⟨f :: frames, .give o⟩ (moveOn frames ((resume o f).runOn h)) := by
  have hresume : Calm h (resume o f) := resume_calm o hf
  have hcalm := hresume h (.refl h)
  have hbase : Frame.changes frames = Frame.changes (f :: frames) :=
    (List.filterMap_cons_none hf).symm
  have hlength : frames.length ≤ (f :: frames).length := by
    rw [List.length_cons]
    omega
  generalize (resume o f).runOn h = r at hcalm ⊢
  obtain ⟨e | m, h'⟩ := r
  · exact .of_calm [] hcalm.1 rfl hbase hlength
  · exact .of_calm _ hcalm.1 (hcalm.2 m rfl) hbase hlength

theorem StepEffect.of_begin {h : House} {c : Call} {frames : List Frame}
    {r : Except ScriptError Move × House} (hr : Effect h r) :
    StepEffect h ⟨frames, .call c⟩ (moveOn frames r) := by
  cases hr with
  | @calm r h' hstates hchanges =>
    cases r with
    | error e => exact .of_calm [] hstates rfl rfl (Nat.le_refl _)
    | ok m => exact .of_calm _ hstates (hchanges m rfl) rfl (Nat.le_refl _)
  | announces hannounces => exact .announces hannounces
  | unstored e h' =>
    have hnone : announced? ⟨frames, .call c⟩ ⟨frames, .give (.error (.external (.store e)))⟩ h' =
        none := announced?_eq_none [] _ h' rfl (Nat.le_refl _)
    refine .unstored (e := e) ?_
    simp only [upshot, hnone]

theorem step_effect (job : Link.JobId) (h : House) (t : State) :
    StepEffect h t ((step job h t).1, (step job h t).2.1) := by
  obtain ⟨frames, d⟩ := t
  cases d with
  | pause p => exact .of_calm [] (.refl h) rfl rfl (Nat.le_refl _)
  | call c =>
    by_cases hc : ∃ s inputs use, c = .session s inputs use
    · obtain ⟨s, inputs, use, rfl⟩ := hc
      exact .of_calm _ (.of_bare (stays_feed h s inputs use).bare)
        (plain_feed h s inputs use).even rfl (Nat.le_refl _)
    · rw [step_call job h frames fun s inputs use heq => hc ⟨s, inputs, use, heq⟩]
      exact .of_begin (begin_orderly job c h h (.refl h))
  | give o =>
    cases frames with
    | nil => exact .of_calm [] (.refl h) rfl rfl (Nat.le_refl _)
    | cons f frames =>
      by_cases hf : ∃ s statement rest use, f = .session s statement rest use
      · obtain ⟨s, statement, rest, use, rfl⟩ := hf
        have hrun := (Session.afterRun_same (.refl h) (Eq.refl s.unlined) statement statement
          (Eq.refl (Outcome.unlined o))).change.stays
        exact .of_calm _ (.of_bare (hrun.trans (stays_follow _ _ _ rest use)).bare)
          (plain_follow _ _ _ rest use).even rfl (Nat.le_succ _)
      · rw [step_resume job h frames o fun s statement rest use heq =>
          hf ⟨s, statement, rest, use, heq⟩]
        cases hchange : f.change? with
        | none => exact .of_resume hchange
        | some name =>
          cases f <;> cases hchange
          exact .ends rfl _ rfl rfl

end Strand

open Strand (Announcement Upshot)

/-- A house with strands that work on it. -/
structure Crowd where
  house : House
  strands : List Strand.State

namespace Crowd

/-- The states whose changes are being handled: those with a frame that ends the change. -/
def inFlight (c : Crowd) : List Name := c.strands.flatMap fun t => Frame.changes t.frames

/-- One step of a crowd: a strand takes a step, a pause of a strand is over, a strand comes or goes,
or something else happens that leaves states and locks alone. -/
inductive Step : Crowd → Upshot → Crowd → Prop
  | run (job : Link.JobId) (h : House) (before after : List Strand.State) (t : Strand.State) :
    Step ⟨h, before ++ t :: after⟩
      (Strand.upshot t (Strand.step job h t).1 (Strand.step job h t).2.1)
      ⟨(Strand.step job h t).2.1, before ++ (Strand.step job h t).1 :: after⟩
  | wake {job : Link.JobId} {h h' : House} {p : Pause} {o : Outcome} (frames : List Frame)
    (before after : List Strand.State) (ended : Strand.poll job h p = (some o, h')) :
    Step ⟨h, before ++ ⟨frames, .pause p⟩ :: after⟩ .quiet
      ⟨h', before ++ ⟨frames, .give o⟩ :: after⟩
  | come (h : House) (before after : List Strand.State) {t : Strand.State}
    (fresh : Frame.changes t.frames = []) :
    Step ⟨h, before ++ after⟩ .quiet ⟨h, before ++ t :: after⟩
  | go (h : House) (before after : List Strand.State) (o : Outcome) :
    Step ⟨h, before ++ ⟨[], .give o⟩ :: after⟩ .quiet ⟨h, before ++ after⟩
  | other {h h' : House} (strands : List Strand.State) (same : h.SameStates h') :
    Step ⟨h, strands⟩ .quiet ⟨h', strands⟩

/-- What happened in one step. -/
structure Moment where
  before : Crowd
  upshot : Upshot
  after : Crowd

/-- Steps of a crowd, one after the other. -/
inductive Run : Crowd → List Moment → Crowd → Prop
  | nil (c : Crowd) : Run c [] c
  | cons {c c₁ c' : Crowd} {d : Upshot} {ms : List Moment} (step : Step c d c₁)
    (rest : Run c₁ ms c') : Run c (⟨c, d, c₁⟩ :: ms) c'

/-- A state is locked exactly as long as a change of it is in flight, and of each state there is at
most one change in flight. A state that is locked cannot be changed. -/
structure Exclusive (c : Crowd) : Prop where
  once : c.inFlight.Nodup
  locked : ∀ name, c.house.isChanging name = true ↔ name ∈ c.inFlight
  refused : ∀ name ∈ c.inFlight, c.house.Refuses name

/-- A state has another value after a step exactly if the step announced a change of that state,
with the value before as the old one and the value after as the new one. -/
structure Moment.Truthful (m : Moment) : Prop where
  announced : ∀ name, m.after.house.state? name ≠ m.before.house.state? name ↔
    ∃ a, m.upshot = .announces a ∧ a.name = name
  words : ∀ a, m.upshot = .announces a → a.event.name = changeWords a.name
  old : ∀ a, m.upshot = .announces a → a.old = some (m.before.house.value a.name).toValue
  new : ∀ a, m.upshot = .announces a → a.new = some (m.after.house.value a.name).toValue

/-- The locks are those of the changes in flight. -/
structure Coherent (c : Crowd) : Prop where
  once : c.inFlight.Nodup
  locks : c.house.changing.Perm c.inFlight

theorem Coherent.exclusive {c : Crowd} (hc : c.Coherent) : c.Exclusive where
  once := hc.once
  locked _ := Act.isChanging_iff.trans hc.locks.mem_iff
  refused _ hname := House.refuses (Act.isChanging_iff.mpr (hc.locks.mem_iff.mpr hname))

/-! ### One step -/

section

variable {c c' : Crowd} {d : Upshot}

theorem inFlight_append (h : House) (before after : List Strand.State) (t : Strand.State) :
    inFlight ⟨h, before ++ t :: after⟩ =
      inFlight ⟨h, before⟩ ++ (Frame.changes t.frames ++ inFlight ⟨h, after⟩) := by
  simp only [inFlight, List.flatMap_append, List.flatMap_cons]

/-- A step that leaves locks and changes in flight alone. -/
theorem Coherent.same (hc : c.Coherent) (hlocks : c'.house.changing = c.house.changing)
    (hflight : c'.inFlight = c.inFlight) : c'.Coherent :=
  ⟨hflight ▸ hc.once, hlocks ▸ hflight ▸ hc.locks⟩

/-- A step that locks a state and puts its change in flight. -/
theorem Coherent.lock (hc : c.Coherent) {name : Name} {as bs : List Name}
    (hfree : name ∉ c.house.changing) (hlocks : c'.house.changing = name :: c.house.changing)
    (hflight : c.inFlight = as ++ bs) (hflight' : c'.inFlight = as ++ name :: bs) :
    c'.Coherent := by
  have hperm : (name :: c.house.changing).Perm (as ++ name :: bs) :=
    ((hflight ▸ hc.locks).cons name).trans List.perm_middle.symm
  refine ⟨?_, hlocks ▸ hflight' ▸ hperm⟩
  rw [hflight', ← hperm.nodup_iff, List.nodup_cons, hc.locks.nodup_iff]
  exact ⟨hfree, hc.once⟩

/-- A step that unlocks a state and takes its change out of flight. -/
theorem Coherent.unlock (hc : c.Coherent) {name : Name} {as bs : List Name}
    (hlocks : c'.house.changing = c.house.changing.filter (· != name))
    (hflight : c.inFlight = as ++ name :: bs) (hflight' : c'.inFlight = as ++ bs) :
    c'.Coherent := by
  have hperm : c.house.changing.Perm (name :: (as ++ bs)) :=
    (hflight ▸ hc.locks).trans List.perm_middle
  obtain ⟨hname, honce⟩ := List.nodup_cons.mp (hperm.nodup_iff.mp (hc.locks.nodup_iff.mpr hc.once))
  have hothers : (name :: (as ++ bs)).filter (· != name) = as ++ bs := by
    rw [List.filter_cons_of_neg (by simp), List.filter_eq_self]
    exact fun other hother => bne_iff_ne.mpr fun heq => hname (heq ▸ hother)
  refine ⟨hflight' ▸ honce, ?_⟩
  rw [hlocks, hflight', ← hothers]
  exact hperm.filter _

theorem Step.coherent (hs : Step c d c') (hstored : ∀ e, d ≠ .unstored e) (hc : c.Coherent) :
    c'.Coherent := by
  cases hs with
  | run job h before after t =>
    have heffect := Strand.step_effect job h t
    generalize Strand.step job h t = r at heffect hstored ⊢
    obtain ⟨t', h', kept⟩ := r
    dsimp only at heffect hstored ⊢
    cases heffect with
    | calm hstates hchanges hquiet =>
      refine hc.same hstates.changing ?_
      rw [inFlight_append, inFlight_append, hchanges]
      rfl
    | announces hannounces =>
      exact hc.lock hannounces.free hannounces.locked (inFlight_append h before after t)
        (inFlight_append h' before after _)
    | ends hending _ hstore hchanging =>
      refine hc.unlock hchanging ?_ (inFlight_append h' before after _)
      rw [inFlight_append, hending]
      rfl
    | unstored hupshot => exact absurd hupshot (hstored _)
  | @wake job h h' p o frames before after hover =>
    have hstates : h.SameStates h' := by
      have hpoll := Strand.stays_poll h job p
      rw [hover] at hpoll
      exact .of_bare hpoll.bare
    refine hc.same hstates.changing ?_
    rw [inFlight_append, inFlight_append]
    rfl
  | come h before after hfresh =>
    refine hc.same rfl ?_
    rw [inFlight_append, hfresh]
    simp only [inFlight, List.flatMap_append, List.nil_append]
  | go h before after o =>
    refine hc.same rfl ?_
    rw [inFlight_append]
    simp only [inFlight, List.flatMap_append]
    rfl
  | other strands hsame => exact hc.same hsame.changing rfl

/-- A step that changes no value and announces nothing. -/
theorem Moment.Truthful.quiet {u : Upshot} (hquiet : ∀ a, u ≠ .announces a)
    (hstates : ∀ name, c'.house.state? name = c.house.state? name) :
    Moment.Truthful ⟨c, u, c'⟩ where
  announced name := by
    refine ⟨fun hne => absurd (hstates name) hne, ?_⟩
    rintro ⟨a, ha, -⟩
    exact absurd ha (hquiet a)
  words a ha := absurd ha (hquiet a)
  old a ha := absurd ha (hquiet a)
  new a ha := absurd ha (hquiet a)

/-- A step that announces a change. -/
theorem Moment.Truthful.announces (c c' : Crowd) {name : Name} {e : Event}
    (hannounces : c.house.Announces name e c'.house) :
    Moment.Truthful ⟨c, .announces ⟨name, e, some (c.house.value name).toValue,
      some (c'.house.value name).toValue⟩, c'⟩ where
  announced other := by
    constructor
    · intro hne
      by_cases hother : other = name
      · exact ⟨_, rfl, hother.symm⟩
      · exact absurd (hannounces.others other hother) hne
    · rintro ⟨a, ⟨⟩, rfl⟩
      exact hannounces.changed
  words := by
    rintro a ⟨⟩
    exact hannounces.words
  old := by
    rintro a ⟨⟩
    rfl
  new := by
    rintro a ⟨⟩
    rfl

theorem Step.truthful (hs : Step c d c') (hstored : ∀ e, d ≠ .unstored e) :
    Moment.Truthful ⟨c, d, c'⟩ := by
  cases hs with
  | run job h before after t =>
    have heffect := Strand.step_effect job h t
    generalize Strand.step job h t = r at heffect hstored ⊢
    obtain ⟨t', h', kept⟩ := r
    dsimp only at heffect hstored ⊢
    cases heffect with
    | calm hstates hchanges hquiet => exact .quiet (Strand.upshot_ne hquiet) hstates.state?
    | announces hannounces =>
      rw [Strand.upshot_announces hannounces]
      exact .announces ⟨h, _⟩ ⟨h', _⟩ hannounces
    | ends hending _ hstore hchanging =>
      refine .quiet (Strand.upshot_ne (Strand.announced?_give _ _ _ _)) fun name => ?_
      rw [House.state?, hstore, ← House.state?]
    | unstored hupshot => exact absurd hupshot (hstored _)
  | @wake job h h' p o frames before after hover =>
    have hstates : h.SameStates h' := by
      have hpoll := Strand.stays_poll h job p
      rw [hover] at hpoll
      exact .of_bare hpoll.bare
    exact .quiet Strand.quiet_ne_announces hstates.state?
  | come | go => exact .quiet Strand.quiet_ne_announces fun _ => rfl
  | other strands hsame => exact .quiet Strand.quiet_ne_announces hsame.state?

end

/-! ### A run -/

/-- The announcements of changes of one state, in order. -/
def announcements (name : Name) (ms : List Moment) : List Announcement :=
  ms.filterMap fun m =>
    match m.upshot with
    | .announces a => if a.name = name then some a else none
    | _ => none

/-- The first old value is `v`, each other one is the new value of the announcement before, and the
last new value is `w`. -/
def Chained (v : Json) : List Announcement → Json → Prop
  | [], w => v = w
  | a :: rest, w => a.old = some v ∧ ∃ new, a.new = some new ∧ Chained new rest w

theorem Run.coherent {c c' : Crowd} {ms : List Moment} (hrun : Run c ms c')
    (hstored : ∀ m ∈ ms, ∀ e, m.upshot ≠ .unstored e) (hc : c.Coherent) :
    ∀ m ∈ ms, m.after.Coherent := by
  induction hrun with
  | nil => exact List.forall_mem_nil _
  | cons step rest ih =>
    obtain ⟨hfirst, hrest⟩ := List.forall_mem_cons.mp hstored
    have hc₁ := step.coherent hfirst hc
    exact List.forall_mem_cons.mpr ⟨hc₁, ih hrest hc₁⟩

theorem Run.truthful {c c' : Crowd} {ms : List Moment} (hrun : Run c ms c')
    (hstored : ∀ m ∈ ms, ∀ e, m.upshot ≠ .unstored e) : ∀ m ∈ ms, m.Truthful := by
  induction hrun with
  | nil => exact List.forall_mem_nil _
  | cons step rest ih =>
    obtain ⟨hfirst, hrest⟩ := List.forall_mem_cons.mp hstored
    exact List.forall_mem_cons.mpr ⟨step.truthful hfirst, ih hrest⟩

/-- The announcements of a state lead from its value before to its value after. -/
theorem Run.chained {c c' : Crowd} {ms : List Moment} (hrun : Run c ms c')
    (htruthful : ∀ m ∈ ms, m.Truthful) (name : Name) :
    Chained (c.house.value name).toValue (announcements name ms) (c'.house.value name).toValue := by
  induction hrun with
  | nil => exact rfl
  | @cons c c₁ c' u ms step rest ih =>
    obtain ⟨hfirst, hrest⟩ := List.forall_mem_cons.mp htruthful
    specialize ih hrest
    by_cases hannounced : ∃ a, u = .announces a ∧ a.name = name
    · obtain ⟨a, rfl, rfl⟩ := hannounced
      have hcons : announcements a.name (⟨c, .announces a, c₁⟩ :: ms) =
          a :: announcements a.name ms := List.filterMap_cons_some (if_pos rfl)
      rw [hcons]
      exact ⟨hfirst.old a rfl, _, hfirst.new a rfl, ih⟩
    · have hsame : c₁.house.state? name = c.house.state? name :=
        Classical.byContradiction fun hne => hannounced ((hfirst.announced name).mp hne)
      have hcons : announcements name (⟨c, u, c₁⟩ :: ms) = announcements name ms := by
        refine List.filterMap_cons_none ?_
        cases u with
        | announces a => exact if_neg fun hname => hannounced ⟨a, rfl, hname⟩
        | unstored e => rfl
        | quiet => rfl
      rw [hcons, House.value, ← hsame, ← House.value]
      exact ih

/-- From a start without a change in flight, changes form a chain and are never nested. -/
theorem changes_chained {c c' : Crowd} {ms : List Moment} (hflight : c.inFlight = [])
    (hlocks : c.house.changing = []) (hrun : Run c ms c')
    (hstored : ∀ m ∈ ms, ∀ e, m.upshot ≠ .unstored e) :
    (∀ name, Chained (c.house.value name).toValue (announcements name ms)
      (c'.house.value name).toValue) ∧
    ∀ m ∈ ms, m.Truthful ∧ m.after.Exclusive := by
  have hstart : c.Coherent := ⟨hflight ▸ List.nodup_nil, by rw [hflight, hlocks]⟩
  have htruthful := hrun.truthful hstored
  exact ⟨hrun.chained htruthful, fun m hm =>
    ⟨htruthful m hm, (hrun.coherent hstored hstart m hm).exclusive⟩⟩

/-- A strand that gives the state `lamp` a value. -/
def lampSetter (value : String) : Strand.State :=
  ⟨[], .call (.statement (.plain ⟨.ofWords ["set", "state"] "set state VALUE NAME…" .setState,
    ⟨1, [.text "set", .text "state", .text value, .text "lamp"], ⟨0⟩, ⟨0⟩⟩, 1⟩) ⟨0⟩)⟩

/-- The lamp is switched on, and while that is announced another strand wants it off. -/
theorem changes_chained_lamp :
    let c : Crowd := ⟨.empty .standard ⟨0⟩, [lampSetter "on", lampSetter "off"]⟩
    ∃ ms c', c.inFlight = [] ∧ c.house.changing = [] ∧ Run c ms c' ∧
      (∀ m ∈ ms, ∀ e, m.upshot ≠ .unstored e) ∧
      c'.inFlight = [[.text "lamp"]] ∧ c'.house.state? [.text "lamp"] = some (.text "on") ∧
      (∀ name, Chained (c.house.value name).toValue (announcements name ms)
        (c'.house.value name).toValue) ∧
      ∀ m ∈ ms, m.Truthful ∧ m.after.Exclusive := by
  intro c
  let first := Strand.step ⟨1⟩ c.house (lampSetter "on")
  let second := Strand.step ⟨2⟩ first.2.1 (lampSetter "off")
  have hon : Strand.upshot (lampSetter "on") first.1 first.2.1 = .announces _ := rfl
  have hoff : Strand.upshot (lampSetter "off") second.1 second.2.1 = .quiet := rfl
  have hrun := Run.cons (.run ⟨1⟩ c.house [] [lampSetter "off"] (lampSetter "on"))
    (.cons (.run ⟨2⟩ first.2.1 [first.1] [] (lampSetter "off")) (.nil _))
  suffices hstored : ∀ m : Moment, m ∈ (_ : List Moment) → ∀ e, m.upshot ≠ .unstored e from
    ⟨_, _, rfl, rfl, hrun, hstored, rfl, rfl, changes_chained rfl rfl hrun hstored⟩
  refine List.forall_mem_cons.mpr ⟨fun e => hon ▸ nofun, ?_⟩
  exact List.forall_mem_singleton.mpr fun e => hoff ▸ nofun
end Crowd

end Hearth
