import Hearth.Proofs.House.Deeds
import Hearth.Proofs.States.Changes
import Mathlib.Data.List.Induction
import Mathlib.Logic.Relation

/-!
# Strands that share a house

Any number of strands work on one house, and their steps may come in any order. Of each turn one
has to know only what it did to the fixtures and to the marks of all strands together: the incident
says so. The turns of a run tell a story, and what is true of a house at the end can be told from
the start and the story.

## Main definitions

* `Crowd.marks` : all that the strands of a crowd are in the middle of.
* `Crowd.Turn` : what can happen next, whichever strand it is that goes on.
* `Crowd.Stride` : a turn in which only strands change what lasts, and which links there are.
* `Crowd.Passage`, `Crowd.Story` : what a turn does, and what many turns do.
* `Crowd.Sound` : all modules of a crowd are among those that every house knows.

## Main results

* `Crowd.Turn.passage` : each turn is one incident.
* `Crowd.changes_of_strides` : what becomes of the outfit.
-/

namespace Hearth

open Strand (step)

theorem Module.not_probe : ∀ m ∈ builtIn, ∀ x, m.feature ≠ .probe x := by
  simp [builtIn, ofWord]

/-- A strand goes on: it takes a step, or its pause is over and it takes the next step at once. -/
inductive Strand.Goes (job : Link.JobId) (h : House) :
    Strand.State → House → Strand.State → Prop
  | steps (t : Strand.State) : Goes job h t (step job h t).2.1 (step job h t).1
  | wakes {h' : House} {p : Pause} {o : Outcome} (frames : List Frame)
    (ended : Strand.Over job h p o h') :
    Goes job h ⟨frames, .pause p⟩ (step job h' ⟨frames, .give o⟩).2.1
      (step job h' ⟨frames, .give o⟩).1

theorem Strand.Over.stays {job : Link.JobId} {h h' : House} {p : Pause} {o : Outcome}
    (hover : Strand.Over job h p o h') : h.Stays h' := by
  cases hover with
  | gone => exact .refl h
  | polled ended =>
    have hpoll := Strand.stays_poll h job p
    rwa [ended] at hpoll

/-- What a strand does to the outfit. -/
theorem Strand.Goes.changes {job : Link.JobId} {h h' : House} {t t' : Strand.State}
    (hgoes : Strand.Goes job h t h' t') :
    Relation.ReflTransGen Outfit.Change h.outfit h'.outfit := by
  cases hgoes with
  | steps => exact Strand.step_changes job h _
  | @wakes h' p o frames hended =>
    rw [← (House.Untouched.of_stays hended.stays).outfit]
    exact Strand.step_changes job h' ⟨frames, .give o⟩

namespace Crowd

/-- All that the strands of a crowd are in the middle of. -/
def marks (c : Crowd) : List Mark := c.strands.flatMap Strand.State.marks

/-- What can happen next in a crowd: a strand takes a step, or it goes on because its pause is over;
a strand comes or goes; or something happens that leaves all fixtures alone, and time may pass. -/
inductive Turn : Crowd → Crowd → Prop
  | run (job : Link.JobId) (h : House) (before after : List Strand.State) (t : Strand.State) :
    Turn ⟨h, before ++ t :: after⟩
      ⟨(step job h t).2.1, before ++ (step job h t).1 :: after⟩
  | wake {job : Link.JobId} {h h' : House} {p : Pause} {o : Outcome} (frames : List Frame)
    (before after : List Strand.State) (ended : Strand.Over job h p o h') :
    Turn ⟨h, before ++ ⟨frames, .pause p⟩ :: after⟩
      ⟨(step job h' ⟨frames, .give o⟩).2.1, before ++ (step job h' ⟨frames, .give o⟩).1 :: after⟩
  | come (h : House) (before after : List Strand.State) {t : Strand.State} (fresh : t.marks = [])
    (proper : Proper t.frames t.doing) : Turn ⟨h, before ++ after⟩ ⟨h, before ++ t :: after⟩
  | go (h : House) (before after : List Strand.State) (o : Outcome) :
    Turn ⟨h, before ++ ⟨[], .give o⟩ :: after⟩ ⟨h, before ++ after⟩
  | other {h h' : House} (strands : List Strand.State)
    (same : h'.fixtures = { h.fixtures with now := h'.now }) (later : h.now ≤ h'.now) :
    Turn ⟨h, strands⟩ ⟨h', strands⟩

/-- A turn in which nothing but strands changes what lasts of the house, or which links there are:
a strand goes on, it comes or goes, or something else happens, for which time may pass. -/
inductive Stride : Crowd → Crowd → Prop
  | goes {job : Link.JobId} {h h' : House} {t t' : Strand.State} (before after : List Strand.State)
    (goes : Strand.Goes job h t h' t') : Stride ⟨h, before ++ t :: after⟩ ⟨h', before ++ t' :: after⟩
  | come (h : House) (before after : List Strand.State) {t : Strand.State} (fresh : t.marks = [])
    (proper : Proper t.frames t.doing) : Stride ⟨h, before ++ after⟩ ⟨h, before ++ t :: after⟩
  | go (h : House) (before after : List Strand.State) (o : Outcome) :
    Stride ⟨h, before ++ ⟨[], .give o⟩ :: after⟩ ⟨h, before ++ after⟩
  | other {h h' : House} (strands : List Strand.State)
    (same : House.Stays { h with now := h'.now } h') (later : h.now ≤ h'.now) :
    Stride ⟨h, strands⟩ ⟨h', strands⟩

/-- An incident takes a crowd to another one: it changes the fixtures, and what one of the strands
is in the middle of. -/
def Passage (c : Crowd) (d : Incident) (c' : Crowd) : Prop :=
  ∃ used made rest, c.marks.Perm (used ++ rest) ∧ c'.marks.Perm (made ++ rest) ∧
    Shift d c.house.fixtures used c'.house.fixtures made

/-- The incidents of some turns, in order. -/
inductive Story : Crowd → List Incident → Crowd → Prop
  | nil (c : Crowd) : Story c [] c
  | snoc {c c₁ c₂ : Crowd} {ds : List Incident} {d : Incident} (story : Story c ds c₁)
    (turn : Turn c₁ c₂) (passage : Passage c₁ d c₂) : Story c (ds ++ [d]) c₂

/-- The modules of a house and of its strands are known to every house, by their names, and no
strand goes on in a wait that is not over. -/
structure Sound (c : Crowd) : Prop where
  proper : ∀ t ∈ c.strands, Proper t.frames t.doing
  catalog : ∀ name m, NameMap.get? c.house.catalog name = some m →
    m ∈ Module.builtIn ∧ m.name = name
  loaded : ∀ m ∈ c.house.loaded, m ∈ Module.builtIn
  marks : ∀ x ∈ c.marks, ∀ m, x.module? = some m → m ∈ Module.builtIn

/-! ### One turn -/

section

variable {c c' : Crowd}

theorem marks_perm (h : House) (before after : List Strand.State) (t : Strand.State) :
    (marks ⟨h, before ++ t :: after⟩).Perm (t.marks ++ marks ⟨h, before ++ after⟩) := by
  simp only [marks, List.flatMap_append, List.flatMap_cons]
  exact List.perm_append_comm_assoc _ _ _

/-- The marks of one strand change. -/
theorem Passage.of_changed {h h' : House} {before after : List Strand.State}
    {t t' : Strand.State} {d : Incident} {used made rest : List Mark}
    (hd : Strand.Changed h.fixtures t h'.fixtures t' d used made rest) :
    Passage ⟨h, before ++ t :: after⟩ d ⟨h', before ++ t' :: after⟩ := by
  refine ⟨used, made, rest ++ marks ⟨h, before ++ after⟩, ?_, ?_, hd.shift⟩
  · rw [← List.append_assoc, ← hd.before]
    exact marks_perm h before after t
  · rw [← List.append_assoc, ← hd.after]
    exact marks_perm h' before after t'

theorem Passage.of_quiet (hmarks : c'.marks.Perm c.marks)
    (hsame : c'.house.fixtures = c.house.fixtures) : Passage c .quiet c' :=
  ⟨[], [], c.marks, .refl _, hmarks, hsame ▸ .quiet _ _⟩

/-- Strands are in the middle of loading modules that every house knows. -/
theorem Sound.real (hc : c.Sound) {t : Strand.State} (ht : t ∈ c.strands) :
    Strand.Real t.marks := by
  intro m hm
  refine Module.not_probe m ?_
  rcases hm with hm | hm
  · exact hc.marks _ (List.mem_flatMap_of_mem ht hm) m rfl
  · exact hc.marks _ (List.mem_flatMap_of_mem ht hm) m rfl

/-- Modules stay known. -/
theorem Passage.sound {d : Incident} (hp : Passage c d c') (hc : c.Sound)
    (hproper : ∀ t ∈ c'.strands, Proper t.frames t.doing) : c'.Sound := by
  obtain ⟨used, made, rest, hbefore, hafter, hshift⟩ := hp
  have hknown : ∀ x ∈ used ++ rest, ∀ m, x.module? = some m → m ∈ Module.builtIn :=
    fun x hx => hc.marks x (hbefore.mem_iff.mpr hx)
  obtain ⟨hloaded, hmade⟩ := hshift.known (fun name m hm => (hc.catalog name m hm).1) hc.loaded
    fun x hx => hknown x (List.mem_append_left _ hx)
  have hcatalog : c'.house.catalog = c.house.catalog := hshift.lasting.1
  refine ⟨hproper, fun name m hm => hc.catalog name m (hcatalog ▸ hm), hloaded, fun x hx m hm => ?_⟩
  rcases List.mem_append.mp (hafter.mem_iff.mp hx) with hx | hx
  · exact hmade x hx m hm
  · exact hknown x (List.mem_append_right _ hx) m hm

/-- Each turn is one incident, and modules stay known. -/
theorem Turn.passage (ht : Turn c c') (hc : c.Sound) : (∃ d, Passage c d c') ∧ c'.Sound := by
  have hsound {d : Incident} (hp : Passage c d c')
      (hproper : ∀ t ∈ c'.strands, Proper t.frames t.doing) :
      (∃ d, Passage c d c') ∧ c'.Sound := ⟨⟨d, hp⟩, hp.sound hc hproper⟩
  have hreplace {before after : List Strand.State} {t t' : Strand.State}
      (hstrands : ∀ x ∈ before ++ t :: after, Proper x.frames x.doing)
      (ht' : Proper t'.frames t'.doing) : ∀ x ∈ before ++ t' :: after, Proper x.frames x.doing := by
    simp only [List.mem_append, List.mem_cons] at hstrands ⊢
    rintro x (hx | rfl | hx)
    · exact hstrands x (.inl hx)
    · exact ht'
    · exact hstrands x (.inr (.inr hx))
  cases ht with
  | run job h before after t =>
    have hmem : t ∈ before ++ t :: after := List.mem_append_right _ (.head _)
    obtain ⟨d, used, made, rest, hd⟩ := Strand.step_shift job h (hc.proper t hmem) (hc.real hmem)
    exact hsound (.of_changed hd) (hreplace hc.proper hd.proper)
  | @wake job h h' p o frames before after hover =>
    have hmem : ⟨frames, .pause p⟩ ∈ before ++ ⟨frames, .pause p⟩ :: after :=
      List.mem_append_right _ (.head _)
    obtain ⟨d, used, made, rest, hd⟩ := Strand.wake_shift hover (hc.proper _ hmem) (hc.real hmem)
    exact hsound (.of_changed hd) (hreplace hc.proper hd.proper)
  | @come h before after t hfresh hproper =>
    have hmarks := marks_perm h before after t
    rw [hfresh, List.nil_append] at hmarks
    refine hsound (.of_quiet hmarks rfl) fun x hx => ?_
    simp only [List.mem_append, List.mem_cons] at hx
    rcases hx with hx | rfl | hx
    · exact hc.proper x (List.mem_append_left _ hx)
    · exact hproper
    · exact hc.proper x (List.mem_append_right _ hx)
  | go h before after o =>
    refine hsound (.of_quiet (marks_perm h before after ⟨[], .give o⟩).symm rfl) fun x hx => ?_
    refine hc.proper x ?_
    rcases List.mem_append.mp hx with hx | hx
    · exact List.mem_append_left _ hx
    · exact List.mem_append_right _ (List.mem_cons_of_mem _ hx)
  | @other h h' strands hsame hlater =>
    have hpasses : Shift .passes h.fixtures [] h'.fixtures [] := by
      rw [hsame]
      exact .passes hlater
    exact hsound ⟨[], [], _, .refl _, .refl _, hpasses⟩ hc.proper

end

/-! ### Strides -/

section

variable {c c' : Crowd}

theorem Stride.turn (hs : Stride c c') : Turn c c' := by
  cases hs with
  | goes before after hgoes =>
    cases hgoes with
    | steps => exact .run _ _ before after _
    | wakes frames hended => exact .wake frames before after hended
  | come h before after hfresh hproper => exact .come h before after hfresh hproper
  | go h before after o => exact .go h before after o
  | other strands hsame hlater => exact .other strands (House.fixtures_of_bare hsame.bare) hlater

/-- What a stride does to the outfit. -/
theorem Stride.changes (hs : Stride c c') :
    Relation.ReflTransGen Outfit.Change c.house.outfit c'.house.outfit := by
  cases hs with
  | goes before after hgoes => exact hgoes.changes
  | come | go => exact .refl
  | @other h h' strands hsame hlater =>
    have hsame : h'.outfit = h.outfit := (House.Untouched.of_stays hsame).outfit
    exact hsame ▸ .refl

theorem changes_of_strides (run : Relation.ReflTransGen Stride c c') :
    Relation.ReflTransGen Outfit.Change c.house.outfit c'.house.outfit := by
  induction run with
  | refl => exact .refl
  | tail _ stride ih => exact ih.trans stride.changes

end

/-! ### Runs on given houses -/

/-- The strand of a number goes on, if there is one and it does not pause. -/
def advance (c : Crowd) (i : Nat) : Crowd :=
  match c.strands[i]? with
  | none => c
  | some ⟨frames, .pause p⟩ =>
    match Strand.poll ⟨i⟩ c.house p with
    | (none, _) => c
    | (some o, h) =>
      let r := step ⟨i⟩ h ⟨frames, .give o⟩
      ⟨r.2.1, c.strands.set i r.1⟩
  | some t =>
    let r := step ⟨i⟩ c.house t
    ⟨r.2.1, c.strands.set i r.1⟩

/-- Strands go on in a given order. -/
def play (c : Crowd) (order : List Nat) : Crowd := order.foldl advance c

theorem stride_advance (c : Crowd) (i : Nat) : c.advance i = c ∨ Stride c (c.advance i) := by
  have hsplit {t : Strand.State} (ht : c.strands[i]? = some t) (t' : Strand.State) :
      ∃ before after, c.strands = before ++ t :: after ∧
        c.strands.set i t' = before ++ t' :: after := by
    obtain ⟨hi, rfl⟩ := List.getElem?_eq_some_iff.mp ht
    refine ⟨c.strands.take i, c.strands.drop (i + 1), ?_, ?_⟩
    · rw [List.getElem_cons_drop, List.take_append_drop]
    · rw [List.set_eq_take_append_cons_drop, if_pos hi]
  obtain ⟨h, strands⟩ := c
  rw [advance]
  split
  · exact .inl rfl
  · next frames p hp =>
    split
    · exact .inl rfl
    · next o h' hpoll =>
      obtain ⟨before, after, hbefore, hafter⟩ := hsplit hp (step ⟨i⟩ h' ⟨frames, .give o⟩).1
      dsimp only at hbefore hafter ⊢
      rw [hafter, hbefore]
      exact .inr (.goes before after (.wakes frames (.polled hpoll)))
  · next t hp ht =>
    obtain ⟨before, after, hbefore, hafter⟩ := hsplit ht (step ⟨i⟩ h t).1
    dsimp only at hbefore hafter ⊢
    rw [hafter, hbefore]
    exact .inr (.goes before after (.steps t))

theorem turn_advance (c : Crowd) (i : Nat) : c.advance i = c ∨ Turn c (c.advance i) :=
  (stride_advance c i).imp_right Stride.turn

/-- What is reached when strands go on in a given order, if all crowds on the way are of a kind. -/
theorem stride_play {P : Crowd → Prop} (c : Crowd) (order : List Nat)
    (along : ∀ n ≤ order.length, P (c.play (order.take n))) :
    Relation.ReflTransGen (fun c c' => Stride c c' ∧ P c') c (c.play order) := by
  induction order using List.reverseRecOn with
  | nil => exact .refl
  | append_singleton order i ih =>
    have hbefore : ∀ n ≤ order.length, P (c.play (order.take n)) := fun n hn => by
      have hlonger := along n (by simp; omega)
      rwa [List.take_append_of_le_length hn] at hlonger
    have hlast := along (order ++ [i]).length (Nat.le_refl _)
    rw [List.take_length] at hlast
    have hplay : c.play (order ++ [i]) = (c.play order).advance i := List.foldl_append
    rw [hplay] at hlast ⊢
    rcases stride_advance (c.play order) i with hsame | hstride
    · rw [hsame]
      exact ih hbefore
    · exact (ih hbefore).tail ⟨hstride, hlast⟩

theorem strides_play (c : Crowd) (order : List Nat) :
    Relation.ReflTransGen Stride c (c.play order) :=
  Relation.ReflTransGen.mono (fun _ _ h => h.1) _ _
    (stride_play (P := fun _ => True) c order fun _ _ => trivial)

theorem reach_play {P : Crowd → Prop} (c : Crowd) (order : List Nat)
    (along : ∀ n ≤ order.length, P (c.play (order.take n))) :
    Relation.ReflTransGen (fun c c' => Turn c c' ∧ P c') c (c.play order) :=
  Relation.ReflTransGen.mono (fun _ _ h => ⟨h.1.turn, h.2⟩) _ _ (stride_play c order along)

theorem reaches_play (c : Crowd) (order : List Nat) : Relation.ReflTransGen Turn c (c.play order) :=
  Relation.ReflTransGen.mono (fun _ _ h => h.turn) _ _ (strides_play c order)

end Crowd

end Hearth
