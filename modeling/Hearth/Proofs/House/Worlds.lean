import Hearth.Proofs.House.Crowds
import Hearth.World
import Mathlib.Data.List.Nodup

/-!
# Worlds and crowds

A world gives its jobs turns, one after the other, and decides which of them is next. The strands
among them are a crowd in the house of the world. Whatever the world does, its crowd takes some turns:
so what holds after all turns of crowds holds in worlds.

## Main definitions

* `World.crowd` : the strands of a world.
* `World.Numbered` : no two jobs have the same number.
* `World.Shows` : what a crowd is like in a world.

## Main results

* `World.Shown.step`, `World.Shown.run` : what a world does is some turns of its crowd.
* `World.shown_perform` : so is a call from the outside, with whatever goes on until it ends.
-/

namespace Hearth

open Link (JobId)
open Strand (step)

/-- The strand that a job is, if it is one. -/
def Job.strand? : Job → Option Strand.State
  | .strand t => some t
  | _ => none

namespace World

/-- The strands of a world share its house. -/
def crowd (w : World) : Crowd := ⟨w.house, w.jobs.filterMap (·.2.strand?)⟩

/-- No two jobs have the same number, and the next one gets a new number. -/
structure Numbered (w : World) : Prop where
  distinct : (w.jobs.map (·.1)).Nodup
  used : ∀ x ∈ w.jobs, x.1.value < w.next

/-- The crowd of a world came about by some turns. -/
structure Reached (c : Crowd) (w : World) : Prop where
  numbered : w.Numbered
  turns : Relation.ReflTransGen Crowd.Stride c w.crowd

/-! ### The place of a job -/

section

variable {w : World} {id : JobId} {j j' : Job} {before after : List (JobId × Job)}

theorem exists_split (hj : w.job? id = some j) :
    ∃ before after, w.jobs = before ++ (id, j) :: after := by
  obtain ⟨before, after, hjobs, -⟩ := List.lookup_eq_some_iff.mp hj
  exact ⟨before, after, hjobs⟩

theorem ne_of_job?_eq_none (hj : w.job? id = none) : ∀ x ∈ w.jobs, x.1 ≠ id := by
  intro x hx heq
  have hnone := List.lookup_eq_none_iff.mp hj x hx
  simp [heq] at hnone

/-- A job has its number for itself. -/
theorem Numbered.apart (hw : w.Numbered) (hjobs : w.jobs = before ++ (id, j) :: after) :
    (∀ x ∈ before, x.1 ≠ id) ∧ ∀ x ∈ after, x.1 ≠ id := by
  have hnodup := hw.distinct
  rw [hjobs, List.map_append, List.map_cons, List.nodup_middle, List.nodup_cons,
    ← List.map_append] at hnodup
  have hne : ∀ x ∈ before ++ after, x.1 ≠ id := fun x hx heq =>
    hnodup.1 (heq ▸ List.mem_map_of_mem (f := (·.1)) hx)
  exact ⟨fun x hx => hne x (List.mem_append_left _ hx),
    fun x hx => hne x (List.mem_append_right _ hx)⟩

theorem Numbered.job?_eq (hw : w.Numbered) (hjobs : w.jobs = before ++ (id, j) :: after) :
    w.job? id = some j := by
  have hnone : before.lookup id = none := List.lookup_eq_none_iff.mpr fun x hx =>
    bne_iff_ne.mpr ((hw.apart hjobs).1 x hx).symm
  rw [job?, hjobs, List.lookup_append, hnone, List.lookup_cons_self]
  rfl

/-- A job is replaced in its place. -/
theorem Numbered.jobs_putJob (hw : w.Numbered) (hjobs : w.jobs = before ++ (id, j) :: after) :
    (w.putJob id j').jobs = before ++ (id, j') :: after := by
  obtain ⟨hbefore, hafter⟩ := hw.apart hjobs
  have hsome : (w.job? id).isSome = true := by rw [hw.job?_eq hjobs]; rfl
  have hkeep {l : List (JobId × Job)} (hl : ∀ x ∈ l, x.1 ≠ id) :
      (l.map fun x => if x.1 == id then (id, j') else x) = l :=
    (List.map_congr_left fun x hx => if_neg (by simpa using hl x hx)).trans (List.map_id' l)
  rw [putJob, if_pos hsome]
  change (w.jobs.map _) = _
  rw [hjobs, List.map_append, List.map_cons, hkeep hbefore, hkeep hafter,
    if_pos (beq_self_eq_true id)]

theorem Numbered.jobs_dropJob (hw : w.Numbered) (hjobs : w.jobs = before ++ (id, j) :: after) :
    (w.dropJob id).jobs = before ++ after := by
  obtain ⟨hbefore, hafter⟩ := hw.apart hjobs
  have hkeep {l : List (JobId × Job)} (hl : ∀ x ∈ l, x.1 ≠ id) : l.filter (·.1 != id) = l :=
    List.filter_eq_self.mpr fun x hx => bne_iff_ne.mpr (hl x hx)
  change w.jobs.filter (·.1 != id) = _
  rw [hjobs, List.filter_append, List.filter_cons_of_neg (by simp), hkeep hbefore, hkeep hafter]

theorem putJob_rest (w : World) (id : JobId) (j : Job) :
    w.putJob id j = { w with jobs := (w.putJob id j).jobs } := by
  rw [putJob]
  split <;> rfl

theorem crowd_eq (hjobs : w.jobs = before ++ (id, j) :: after) : w.crowd = ⟨w.house,
    before.filterMap (·.2.strand?) ++ (j.strand?.toList ++ after.filterMap (·.2.strand?))⟩ := by
  rw [crowd, hjobs, List.filterMap_append, List.filterMap_cons]
  cases j.strand? <;> rfl

theorem Numbered.putJob (hw : w.Numbered) (hjobs : w.jobs = before ++ (id, j) :: after) :
    (w.putJob id j').Numbered := by
  have hids : (w.putJob id j').jobs.map (·.1) = w.jobs.map (·.1) := by
    rw [hw.jobs_putJob hjobs, hjobs, List.map_append, List.map_append]
    rfl
  refine ⟨hids ▸ hw.distinct, fun x hx => ?_⟩
  have hmem : x.1 ∈ w.jobs.map (·.1) := hids ▸ List.mem_map_of_mem hx
  obtain ⟨y, hy, heq⟩ := List.mem_map.mp hmem
  rw [putJob_rest, ← heq]
  exact hw.used y hy

/-- The crowd of a world in which a job is replaced. -/
theorem Numbered.crowd_putJob (hw : w.Numbered) (hjobs : w.jobs = before ++ (id, j) :: after) :
    (w.putJob id j').crowd = ⟨w.house, before.filterMap (·.2.strand?) ++
      (j'.strand?.toList ++ after.filterMap (·.2.strand?))⟩ := by
  rw [crowd_eq (hw.jobs_putJob hjobs), putJob_rest]

/-- A strand goes on in a house that may have changed. -/
theorem Numbered.exchange (hw : w.Numbered) (hjobs : w.jobs = before ++ (id, j) :: after)
    (house : House) (console : Session) (t : Strand.State) :
    ({ w with house, console }.putJob id (.strand t)).Numbered ∧
      ({ w with house, console }.putJob id (.strand t)).crowd =
        ⟨house, before.filterMap (·.2.strand?) ++ t :: after.filterMap (·.2.strand?)⟩ := by
  have hnext : Numbered { w with house, console } := ⟨hw.distinct, hw.used⟩
  exact ⟨hnext.putJob hjobs, hnext.crowd_putJob hjobs⟩

end

/-! ### Turns of jobs -/

namespace Reached

variable {c : Crowd} {w w' : World} {id : JobId} {α : Type}

theorem start (hw : w.Numbered) : Reached w.crowd w := ⟨hw, .refl⟩

/-- Who is next does not matter. -/
theorem of_same (h : Reached c w) (hjobs : w'.jobs = w.jobs) (hnext : w'.next = w.next)
    (hhouse : w'.house = w.house) : Reached c w' := by
  refine ⟨⟨hjobs ▸ h.numbered.distinct, hjobs ▸ hnext ▸ h.numbered.used⟩, ?_⟩
  have hsame : w'.crowd = w.crowd := by rw [crowd, crowd, hjobs, hhouse]
  exact hsame ▸ h.turns

/-- What happens to the house leaves alone what lasts, and the links, but it may become later. -/
theorem of_house (h : Reached c w) {house : House}
    (hsame : House.Stays { w.house with now := house.now } house)
    (hlater : w.house.now ≤ house.now) : Reached c { w with house } :=
  ⟨⟨h.numbered.distinct, h.numbered.used⟩, h.turns.tail (.other _ hsame hlater)⟩

theorem of_stays (h : Reached c w) {house : House} (hs : w.house.Stays house) :
    Reached c { w with house } := by
  have hnow : house.bare.now = w.house.bare.now := congrArg House.now hs.bare
  change house.now = w.house.now at hnow
  exact h.of_house (hnow ▸ hs) (Nat.le_of_eq hnow.symm)

theorem foldl {f : World → α → World} (h : Reached c w) (l : List α)
    (hf : ∀ w, Reached c w → ∀ x, Reached c (f w x)) : Reached c (l.foldl f w) := by
  induction l generalizing w with
  | nil => exact h
  | cons x l ih => exact ih (hf w h x)

theorem wake (h : Reached c w) (id : JobId) : Reached c (w.wake id) := by
  rw [World.wake]
  split
  · exact h.of_same rfl rfl rfl
  · split
    · exact h
    · exact h.of_same rfl rfl rfl

theorem wakeIf (h : Reached c w) (p : Job → Bool) : Reached c (w.wakeIf p) :=
  h.foldl _ fun _ h x => h.wake x.1

theorem setTimer (h : Reached c w) (id : JobId) (due : Nat) : Reached c (w.setTimer id due) :=
  h.of_same rfl rfl rfl

theorem clearTimers (h : Reached c w) (id : JobId) : Reached c (w.clearTimers id) :=
  h.of_same rfl rfl rfl

/-- A new job comes last. A strand is in the middle of nothing then. -/
theorem add (h : Reached c w) {j : Job} (hjobs : w'.jobs = w.jobs ++ [(id, j)])
    (hhouse : w'.house = w.house) (habsent : id ∉ w.jobs.map (·.1)) (hnext : w.next ≤ w'.next)
    (hid : id.value < w'.next)
    (hj : ∀ t, j.strand? = some t → t.marks = [] ∧ Proper t.frames t.doing) : Reached c w' := by
  refine ⟨⟨?_, fun x hx => ?_⟩, ?_⟩
  · rw [hjobs, List.map_append]
    refine List.nodup_append.mpr ⟨h.numbered.distinct, List.nodup_singleton _, ?_⟩
    rintro n hn n' hn' rfl
    have hsame : n = id := List.mem_singleton.mp hn'
    exact habsent (hsame ▸ hn)
  · rcases List.mem_append.mp (hjobs ▸ hx) with hx | hx
    · exact Nat.lt_of_lt_of_le (h.numbered.used x hx) hnext
    · rw [List.mem_singleton.mp hx]
      exact hid
  · have hcrowd : w'.crowd = ⟨w.house, w.crowd.strands ++ (j.strand?.toList ++ [])⟩ := by
      rw [crowd_eq hjobs, hhouse]
      rfl
    rw [hcrowd]
    cases hs : j.strand? with
    | none =>
      rw [Option.toList_none, List.append_nil, List.append_nil]
      exact h.turns
    | some t =>
      obtain ⟨hfresh, hproper⟩ := hj t hs
      have hcome := Crowd.Stride.come w.house w.crowd.strands [] hfresh hproper
      rw [List.append_nil] at hcome
      exact h.turns.tail hcome

theorem spawn (h : Reached c w) {j : Job}
    (hj : ∀ t, j.strand? = some t → t.marks = [] ∧ Proper t.frames t.doing) :
    Reached c (w.spawn j) := by
  have hadd : (w.spawn j).jobs = w.jobs ++ [(⟨w.next⟩, j)] := rfl
  refine h.add hadd rfl (fun hmem => ?_) (Nat.le_succ _) (Nat.lt_succ_self _) hj
  obtain ⟨x, hx, heq⟩ := List.mem_map.mp hmem
  have hused := h.numbered.used x hx
  rw [heq] at hused
  exact Nat.lt_irrefl _ hused

/-- A job that is no strand, or a strand that has ended, goes. -/
theorem dropJob (h : Reached c w) {j : Job} (hj : w.job? id = some j)
    (hends : ∀ t, j.strand? = some t → ∃ o, t = ⟨[], .give o⟩) : Reached c (w.dropJob id) := by
  obtain ⟨before, after, hjobs⟩ := exists_split hj
  have hdrop := h.numbered.jobs_dropJob hjobs
  have hsublist : (w.dropJob id).jobs.Sublist w.jobs := List.filter_sublist
  refine ⟨⟨h.numbered.distinct.sublist (hsublist.map _), fun x hx =>
    h.numbered.used x (hsublist.subset hx)⟩, ?_⟩
  have hafter : (w.dropJob id).crowd =
      ⟨w.house, before.filterMap (·.2.strand?) ++ after.filterMap (·.2.strand?)⟩ := by
    rw [crowd, hdrop, List.filterMap_append]
    rfl
  have hturns := h.turns
  rw [crowd_eq hjobs] at hturns
  rw [hafter]
  cases hs : j.strand? with
  | none => rwa [hs] at hturns
  | some t =>
    obtain ⟨o, rfl⟩ := hends t hs
    rw [hs] at hturns
    exact hturns.tail (.go _ _ _ o)

/-- A job goes on, but its strand does not, if it is one. -/
theorem putJob (h : Reached c w) {j : Job} (hj : w.job? id = some j) (j' : Job)
    (hsame : j'.strand? = j.strand?) : Reached c (w.putJob id j') := by
  obtain ⟨before, after, hjobs⟩ := exists_split hj
  refine ⟨h.numbered.putJob hjobs, ?_⟩
  rw [h.numbered.crowd_putJob hjobs, hsame, ← crowd_eq hjobs]
  exact h.turns

/-- A strand takes a step. -/
theorem takeStep (h : Reached c w) {t : Strand.State} (hj : w.job? id = some (.strand t))
    (console : Session) : Reached c ({ w with house := (step id w.house t).2.1, console }.putJob id
      (.strand (step id w.house t).1)) := by
  obtain ⟨before, after, hjobs⟩ := exists_split hj
  obtain ⟨hnumbered, hcrowd⟩ := h.numbered.exchange hjobs (step id w.house t).2.1 console
    (step id w.house t).1
  have hturns := h.turns
  rw [crowd_eq hjobs] at hturns
  exact ⟨hnumbered, hcrowd ▸ hturns.tail (.goes _ _ (.steps t))⟩

/-! ### What the house asks for -/

/-- What is started is in the middle of nothing. -/
theorem errand (h : Reached c w) (e : Errand) : Reached c (w.start e) := by
  cases e with
  | background body scope line =>
    exact h.spawn fun t ht => by cases ht; exact ⟨rfl, .other rfl nofun⟩
  | announce words scope =>
    exact h.spawn fun t ht => by cases ht; exact ⟨rfl, .other rfl nofun⟩
  | script text =>
    have hhouse : Reached c { w with house := (scriptJob w.house text [.finished]).2 } :=
      h.of_stays ⟨rfl, rfl, rfl⟩
    exact hhouse.spawn fun t ht => by cases ht; exact ⟨rfl, .other rfl nofun⟩
  | loop queue => exact h.spawn fun t ht => by cases ht
  | attempt queue generation => exact h.spawn fun t ht => by cases ht

/-- Jobs that are no strands are given up. -/
theorem dropAll (h : Reached c w) {given : List (JobId × Job)}
    (hgiven : ∀ x ∈ given, ∀ j, (x.1, j) ∈ w.jobs → j.strand? = none) :
    Reached c (given.foldl (fun w x => w.dropJob x.1) w) := by
  induction given generalizing w with
  | nil => exact h
  | cons x given ih =>
    obtain ⟨hx, hgiven⟩ := List.forall_mem_cons.mp hgiven
    have hless : (w.dropJob x.1).jobs ⊆ w.jobs := List.filter_subset_self _
    refine ih ?_ fun y hy j hj => hgiven y hy j (hless hj)
    cases hj : w.job? x.1 with
    | none =>
      refine h.of_same (List.filter_eq_self.mpr fun y hy => ?_) rfl rfl
      exact bne_iff_ne.mpr (ne_of_job?_eq_none hj y hy)
    | some j =>
      obtain ⟨before, after, hjobs⟩ := exists_split hj
      have hmem : (x.1, j) ∈ w.jobs := hjobs ▸ List.mem_append_right _ (.head _)
      exact h.dropJob hj fun t ht => absurd (hx j hmem) (by rw [ht]; exact nofun)

theorem obey (h : Reached c w) (s : Signal) : Reached c (w.obey s) := by
  cases s with
  | wake id => exact h.wake id
  | waitGone token => exact h.wakeIf _
  | answered ticket => exact h.wakeIf _
  | start e => exact h.errand e
  | wakeLoop queue =>
    rw [World.obey]
    exact h.wakeIf _
  | changed queue => exact h.wakeIf _
  | abort queue =>
    refine h.dropAll fun ⟨id, j'⟩ hx j hj => ?_
    obtain ⟨hx, -⟩ := List.mem_filter.mp hx
    obtain ⟨hx, hattempt⟩ := List.mem_filter.mp hx
    have hsame := List.inj_on_of_nodup_map h.numbered.distinct hj hx rfl
    obtain rfl : j = j' := congrArg Prod.snd hsame
    cases j <;> first | rfl | cases hattempt

theorem obeyAll (h : Reached c w) : Reached c w.obeyAll := by
  have hheard : Reached c { w with house := { w.house with signals := [] } } := h.of_stays ⟨rfl, rfl, rfl⟩
  exact hheard.foldl _ fun _ h s => h.obey s

theorem yield (h : Reached c w) : Reached c w.yield :=
  Reached.obeyAll (w := { w with current := none }) (h.of_same rfl rfl rfl)

/-! ### Loops and attempts -/

theorem turnLoop (h : Reached c w) {queue : QueueId} (hj : w.job? id = some (.loop queue)) :
    Reached c (w.turnLoop id queue) := by
  have hturn : Reached c ({ w with house := w.house.turn queue }.clearTimers id) :=
    (h.of_stays (w.house.stays_turn queue)).clearTimers id
  have hdrop := (hturn.dropJob hj fun t ht => by cases ht).yield
  rw [World.turnLoop]
  split
  · exact hdrop
  · split
    · exact hdrop
    · split
      · exact (hturn.setTimer id _).yield
      · exact hturn.yield

variable {queue : QueueId} {generation : Nat} {stage : AttemptStage}

theorem report (h : Reached c w) (hj : w.job? id = some (.attempt queue generation stage))
    (item : Link.Control) : Reached c (w.report id queue generation item) := by
  have hpost := w.house.stays_post queue id item
  rw [World.report]
  split
  · next house hput =>
    rw [hput] at hpost
    exact ((h.of_stays hpost).dropJob hj fun t ht => by cases ht).yield
  · next house hput =>
    rw [hput] at hpost
    have hhouse : Reached c { w with house } := h.of_stays hpost
    exact Reached.yield (hhouse.putJob hj _ rfl)
  · next house hput =>
    rw [hput] at hpost
    refine Reached.yield (Reached.dropJob (h.of_stays ?_) hj fun t ht => by cases ht)
    split
    · exact hpost.trans ⟨rfl, rfl, rfl⟩
    · exact hpost

theorem decide (h : Reached c w) (hj : w.job? id = some (.attempt queue generation stage))
    (refusal : Option String) : Reached c (w.decide id queue generation refusal) := by
  have hopened (f : Link.Queue Link.Parcel → Link.Queue Link.Parcel) :
      Reached c { w with house := w.house.updateQueue queue f } :=
    h.of_stays (w.house.stays_updateQueue queue f)
  exact (hopened _).report hj _

theorem turnAttempt (h : Reached c w) (hj : w.job? id = some (.attempt queue generation stage)) :
    Reached c (w.turnAttempt id queue generation stage) := by
  have hstay {w : World} (h : Reached c w)
      (hj : w.job? id = some (.attempt queue generation stage)) (stage' : AttemptStage) :
      Reached c (w.putJob id (.attempt queue generation stage')).yield :=
    Reached.yield (h.putJob hj _ rfl)
  have hlate : Reached c (w.clearTimers id) := h.clearTimers id
  unfold World.turnAttempt
  cases stage with
  | posting item => exact h.report hj item
  | hanging limit =>
    dsimp only
    split
    · exact hlate.report hj _
    · exact hstay h hj _
  | delayed due limit refusal =>
    dsimp only
    split
    · exact hlate.decide hj _
    · split
      · exact hlate.report hj _
      · exact hstay h hj _
  | fresh =>
    dsimp only
    split
    · exact (h.dropJob hj fun t ht => by cases ht).yield
    · next q hq =>
      have hnoted : Reached c { w with
          house := (w.house.updateQueue queue fun _ => q.takePlan.2).note
            (.link queue w.house.now (.attempt generation)) } :=
        h.of_stays ((w.house.stays_updateQueue queue _).trans ⟨rfl, rfl, rfl⟩)
      split
      · exact hnoted.decide hj _
      · exact hnoted.decide hj _
      · split
        · exact hnoted.report hj _
        · exact hstay (hnoted.setTimer id _) hj _
      · split
        · exact hnoted.decide hj _
        · split
          · exact hnoted.report hj _
          · exact hstay ((hnoted.setTimer id _).setTimer id _) hj _

end Reached

/-! ### Steps -/

/-- What a crowd is like in a world. The strand that has its turn may know already that its pause is
over. -/
inductive Shows (w : World) : Crowd → Prop
  | plain : Shows w w.crowd
  | woken {id : JobId} {before after : List (JobId × Job)} {frames : List Frame} {p : Pause}
    {o : Outcome} {h : House} (current : w.current = some id)
    (jobs : w.jobs = before ++ (id, .strand ⟨frames, .give o⟩) :: after)
    (ended : Strand.Over id h p o w.house) :
    Shows w ⟨h, before.filterMap (·.2.strand?) ++
      ⟨frames, .pause p⟩ :: after.filterMap (·.2.strand?)⟩

/-- After some turns a crowd is what it is like in a world. -/
structure Shown (c : Crowd) (w : World) : Prop where
  numbered : w.Numbered
  shows : ∃ c', w.Shows c' ∧ Relation.ReflTransGen Crowd.Stride c c'

variable {c : Crowd} {w w' : World} {id : JobId}

theorem Reached.shown (h : Reached c w) : Shown c w := ⟨h.numbered, _, .plain, h.turns⟩

/-- The turn of a strand. -/
theorem Reached.turnStrand (h : Reached c w) {t : Strand.State}
    (hj : w.job? id = some (.strand t)) (hcurrent : w.current = some id) :
    Shown c (w.turnStrand id t) := by
  obtain ⟨frames, doing⟩ := t
  unfold World.turnStrand
  split
  · next o hdoing hframes =>
    obtain ⟨rfl, rfl⟩ : doing = .give o ∧ frames = [] := ⟨hdoing, hframes⟩
    have hdrop : Reached c (w.dropJob id) := h.dropJob hj fun t ht => by cases ht; exact ⟨o, rfl⟩
    dsimp only
    split
    · have htold : Reached c { w.dropJob id with outcome := some o } := hdrop.of_same rfl rfl rfl
      exact htold.yield.shown
    · exact hdrop.yield.shown
  · next p hdoing =>
    obtain rfl : doing = .pause p := hdoing
    have hpoll := Strand.stays_poll w.house id p
    split
    · next o house hover =>
      -- The strand keeps its turn, and goes on at once.
      obtain ⟨before, after, hjobs⟩ := exists_split hj
      have hw : Numbered ({ w with house }.clearTimers id) :=
        ⟨h.numbered.distinct, h.numbered.used⟩
      have hturns := h.turns
      rw [crowd_eq hjobs] at hturns
      refine ⟨hw.putJob hjobs, _, .woken ?_ (hw.jobs_putJob hjobs) ?_, hturns⟩
      · rw [putJob_rest]
        exact hcurrent
      · rw [putJob_rest]
        exact .polled hover
    · next house hnone =>
      rw [hnone] at hpoll
      have hhouse : Reached c { w with house } := h.of_stays hpoll
      have hput := hhouse.putJob hj (.strand ⟨frames, .pause p⟩) rfl
      dsimp only
      refine (Reached.yield ?_).shown
      split
      · split
        · exact hput
        · exact hput.setTimer id _
      · exact hput
  · exact (h.takeStep hj _).shown

theorem Reached.turn (h : Reached c w) (hcurrent : w.current = some id) : Shown c (w.turn id) := by
  rw [World.turn]
  split
  · next t hj => exact h.turnStrand hj hcurrent
  · next hj => exact (h.turnLoop hj).shown
  · next hj => exact (h.turnAttempt hj).shown
  · exact Reached.shown (h.of_same rfl rfl rfl)

/-- Time passes. -/
theorem Reached.passTo (h : Reached c w) (due : Nat) : Reached c (w.passTo due) := by
  have hlater : Reached c { w with house := { w.house with now := max w.house.now due } } :=
    h.of_house (.refl _) (Nat.le_max_left _ _)
  rw [World.passTo]
  refine Reached.foldl (w := { w with house := _, timers := _, fresh := true }) ?_ _
    fun _ h t => h.wake t.job
  exact hlater.of_same rfl rfl rfl

theorem Reached.step (h : Reached c w) (hstep : w.step? = some w') : Shown c w' := by
  unfold step? at hstep
  split at hstep
  · next id hcurrent =>
    cases hstep
    exact h.turn hcurrent
  · split at hstep
    · cases hstep
      exact Reached.shown (h.of_same rfl rfl rfl)
    · split at hstep
      · cases hstep
        exact Reached.shown (h.of_same rfl rfl rfl)
      · split at hstep
        · cases hstep
        · obtain ⟨due, -, rfl⟩ := Option.map_eq_some_iff.mp hstep
          exact (h.passTo due).shown

theorem turnStrand_resume (w : World) (id : JobId) (f : Frame) (frames : List Frame) (o : Outcome) :
    w.turnStrand id ⟨f :: frames, .give o⟩ =
      { w with
        house := (Strand.step id w.house ⟨f :: frames, .give o⟩).2.1
        console := (Strand.step id w.house ⟨f :: frames, .give o⟩).2.2.getD w.console }.putJob id
        (.strand (Strand.step id w.house ⟨f :: frames, .give o⟩).1) := rfl

/-- What a world does next is some turns of its crowd. -/
theorem Shown.step (h : Shown c w) (hstep : w.step? = some w') : Shown c w' := by
  obtain ⟨hw, c', hshows, hturns⟩ := h
  cases hshows with
  | plain => exact Reached.step ⟨hw, hturns⟩ hstep
  | @woken id before after frames p o h hcurrent hjobs hended =>
    have hwake := hturns.tail (.goes _ _ (.wakes frames hended))
    cases frames with
    | nil =>
      refine Reached.step ⟨hw, ?_⟩ hstep
      rw [crowd_eq hjobs]
      exact hwake
    | cons f frames =>
      have hturn : w.step? = some (w.turnStrand id ⟨f :: frames, .give o⟩) := by
        unfold step? World.turn
        rw [hcurrent]
        dsimp only
        rw [hw.job?_eq hjobs]
      rw [turnStrand_resume] at hturn
      cases hturn.symm.trans hstep
      obtain ⟨hnumbered, hcrowd⟩ := hw.exchange hjobs _ _ _
      exact Reached.shown ⟨hnumbered, hcrowd ▸ hwake⟩

/-- What a world does is some turns of its crowd. -/
theorem Shown.run (h : Shown c w) (fuel : Nat) : Shown c (run fuel w) := by
  induction fuel generalizing w with
  | zero => exact h
  | succ fuel ih =>
    rw [World.run]
    split
    · next w' hstep => exact ih (h.step hstep)
    · exact h

/-! ### Calls from the outside -/

/-- In a new world nothing goes on. -/
theorem numbered_ofHouse (h : House) (mode : Mode) : (ofHouse h mode).Numbered :=
  ⟨.nil, List.forall_mem_nil _⟩

/-- The main strand comes, in the middle of nothing. -/
theorem Reached.call (h : Reached c w) (hmain : w.job? mainJob = none) (hnext : 0 < w.next)
    {frames : List Frame} {x : Call} (hfresh : marksOf frames (.call x) = [])
    (hframes : Unwaited frames) : Reached c (w.call frames x) := by
  have hput : w.putJob mainJob (.strand (.start frames x)) =
      { w with jobs := w.jobs ++ [(mainJob, .strand (.start frames x))] } := by
    rw [World.putJob, hmain]
    rfl
  have habsent : mainJob ∉ w.jobs.map (·.1) := by
    intro hmem
    obtain ⟨y, hy, heq⟩ := List.mem_map.mp hmem
    exact ne_of_job?_eq_none hmain y hy heq
  have hcome : Reached c (w.putJob mainJob (.strand (.start frames x))) := by
    rw [hput]
    exact h.add rfl rfl habsent (Nat.le_refl _) hnext fun t ht => by
      cases ht
      exact ⟨hfresh, .other hframes nofun⟩
  exact Reached.obeyAll (hcome.of_same rfl rfl rfl)

/-- A call from the outside, and whatever goes on until it ends, is some turns of the crowd. -/
theorem shown_perform (hw : w.Numbered) (hmain : w.job? mainJob = none) (hnext : 0 < w.next)
    {frames : List Frame} {x : Call} (hfresh : marksOf frames (.call x) = [])
    (hframes : Unwaited frames) : Shown w.crowd (w.perform frames x).2 :=
  ((Reached.start hw).call hmain hnext hfresh hframes).shown.run patience

theorem shown_perform_ofHouse (h : House) (mode : Mode) {frames : List Frame} {x : Call}
    (hfresh : marksOf frames (.call x) = []) (hframes : Unwaited frames) :
    Shown ⟨(ofHouse h mode).house, []⟩ ((ofHouse h mode).perform frames x).2 :=
  shown_perform (numbered_ofHouse h mode) rfl Nat.one_pos hfresh hframes

end World

end Hearth
