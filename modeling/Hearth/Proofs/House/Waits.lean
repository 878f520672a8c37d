import Hearth.Proofs.House.Loads

/-!
# Waits and their entries

A wait is listed under its name when it starts, and the token of its entry tells it from every other
wait. Whatever takes entries off the list goes by their names: a wait that is deleted, all waits
that are cancelled, and a wait that ends. So a wait that ends takes off the list whichever wait has
its name then, and that one ends early.

## Main definitions

* `Fixtures.listed`, `Crowd.waits` : the waits that are listed, and those that are in progress.
* `Incident.listsWait?` : what an incident makes of the entry of a wait.
* `Crowd.Tended` : whatever is listed is in progress.

## Main results

* `Crowd.waits_by_name` : when a wait is listed, and how it ends.
* `Crowd.unlisted_by_another` : a wait that ends early although nobody cancelled it.
-/

namespace Hearth

/-! ### Waits that are listed and waits in progress -/

/-- The name and the token of the wait that a mark is about. -/
def Mark.wait? : Mark → Option (Name × Nat)
  | .starting name token _ | .waiting name token _ => some (name, token)
  | .loading _ | .unloading _ | .clearing _ => none

/-- The names and the tokens of the waits that are listed. -/
def Fixtures.listed (F : Fixtures) : List (Name × Nat) := F.waits.map fun x => (x.1, x.2.token)

/-- Is a wait put on the list by an incident, or taken off it? -/
def Incident.listsWait? (x : Name × Nat) : Incident → Option Bool
  | .starts name token => if x = (name, token) then some true else none
  | .cancels name | .withdraws name _ | .ends name _ => if x.1 = name then some false else none
  | .cancelsAll => some false
  | .clears m =>
    match m.feature with
    | .wait => some false
    | _ => none
  | _ => none

section

variable {d : Incident} {F F' : Fixtures} {used made : List Mark}

theorem Fixtures.mem_dropWait {name : Name} {x : Name × Nat} :
    x ∈ (F.dropWait name).listed ↔ x.1 ≠ name ∧ x ∈ F.listed := by
  simp only [listed, dropWait, NameMap.erase, List.mem_map, List.mem_filter, bne_iff_ne]
  constructor
  · rintro ⟨y, ⟨hy, hne⟩, rfl⟩
    exact ⟨hne, y, hy, rfl⟩
  · rintro ⟨hne, y, hy, rfl⟩
    exact ⟨y, ⟨hy, hne⟩, rfl⟩

/-- Clearing a module away leaves the waits alone, or takes all of them away. -/
theorem Fixtures.clear_waits (F : Fixtures) (m : Module) (x : Name × Nat) :
    x ∈ (F.clear m).listed ↔
      ((Incident.clears m).listsWait? x).getD (decide (x ∈ F.listed)) = true := by
  rw [clear, Incident.listsWait?]
  cases m.feature with
  | wait =>
    exact ⟨fun hx => absurd hx List.not_mem_nil, fun hx => absurd hx Bool.false_ne_true⟩
  | _ => exact decide_eq_true_iff.symm

/-- Which waits are listed follows the incidents; all but the start of a wait go by its name. -/
theorem Shift.listed_iff (hs : Shift d F used F' made) (x : Name × Nat) :
    x ∈ F'.listed ↔ (d.listsWait? x).getD (decide (x ∈ F.listed)) = true := by
  have hdrop (name : Name) : x ∈ (F.dropWait name).listed ↔
      (if x.1 = name then some false else none).getD (decide (x ∈ F.listed)) = true := by
    rw [Fixtures.mem_dropWait]
    split
    · next hname => exact ⟨fun h => absurd hname h.1, nofun⟩
    · next hname => exact ⟨fun h => decide_eq_true h.2, fun h => ⟨hname, of_decide_eq_true h⟩⟩
  cases hs with
  | loads hgains =>
    rw [Fixtures.markLoaded_rest, hgains.rest]
    exact decide_eq_true_iff.symm
  | fails hgains =>
    rw [hgains.rest]
    exact decide_eq_true_iff.symm
  | clears _ m => exact Fixtures.clear_waits F m x
  | @starts _ name w span hfree htoken =>
    have hinsert := (NameMap.insert_perm w hfree).map fun x => (x.1, x.2.token)
    rw [Fixtures.listed, hinsert.mem_iff, List.map_cons, List.mem_cons, Incident.listsWait?]
    split
    · next heq => exact ⟨fun _ => rfl, fun _ => .inl heq⟩
    · next hne =>
      exact ⟨fun h => decide_eq_true (h.resolve_left hne), fun h => .inr (of_decide_eq_true h)⟩
  | withdraws _ name => exact hdrop name
  | ends name => exact hdrop name
  | cancels => exact hdrop _
  | cancelsAll => exact ⟨nofun, nofun⟩
  | _ => exact decide_eq_true_iff.symm

/-- The waits among some marks. -/
def waitsOf (marks : List Mark) : List (Name × Nat) := marks.filterMap Mark.wait?

/-- What can happen to the waits in progress: none of them ends and none begins, one begins, or one
ends. -/
inductive Handover (F : Fixtures) : Incident → List (Name × Nat) → List (Name × Nat) → Prop
  | same {d : Incident} (waits : List (Name × Nat)) (starts : ∀ name token, d ≠ .starts name token) :
    Handover F d waits waits
  | begins (name : Name) :
    Handover F (.starts name F.nextToken) [] [(name, F.nextToken)]
  | ends {d : Incident} {name : Name} {token : Nat}
    (unlisted : d.listsWait? (name, token) = some false ∨ (name, token) ∉ F.listed)
    (starts : ∀ name token, d ≠ .starts name token) : Handover F d [(name, token)] []

theorem Shift.handover (hs : Shift d F used F' made) :
    Handover F d (waitsOf used) (waitsOf made) := by
  cases hs with
  | quiet marks => exact .same _ nofun
  | @starts _ name w span hfree htoken =>
    rw [htoken]
    exact .begins name
  | withdraws => exact .ends (.inl (if_pos rfl)) nofun
  | ends => exact .ends (.inl (if_pos rfl)) nofun
  | breaksOff name due hgone =>
    refine .ends (.inr fun hlisted => ?_) nofun
    obtain ⟨w, hw, heq⟩ := List.mem_map.mp hlisted
    exact hgone w hw (congrArg Prod.snd heq)
  | _ => exact .same _ nofun

/-- How many tokens are used up by an incident. -/
def Incident.tokens : Incident → Nat
  | .starts .. => 1
  | _ => 0

theorem Shift.nextToken (hs : Shift d F used F' made) :
    F'.nextToken = F.nextToken + d.tokens := by
  cases hs with
  | loads hgains =>
    rw [Fixtures.markLoaded_rest, hgains.rest]
    rfl
  | fails hgains =>
    rw [hgains.rest]
    rfl
  | clears =>
    rw [Fixtures.clear_rest]
    rfl
  | _ => rfl

theorem Incident.starts_of_lists {x : Name × Nat} (h : d.listsWait? x = some true) :
    d = .starts x.1 x.2 := by
  cases d with
  | starts name token =>
    rw [listsWait?] at h
    split at h
    · next heq => rw [heq]
    · cases h
  | cancels | withdraws | ends =>
    rw [listsWait?] at h
    split at h <;> cases h
  | clears m =>
    rw [listsWait?] at h
    split at h <;> cases h
  | _ => cases h

end

namespace Crowd

/-- The waits that are in progress. -/
def waits (c : Crowd) : List (Name × Nat) := waitsOf c.marks

/-- Whatever is listed is in progress, and no two waits that are in progress have the same token. -/
structure Tended (ds : List Incident) (c : Crowd) : Prop where
  sound : c.Sound
  told : ∀ x, x ∈ c.house.fixtures.listed ↔ Incident.verdict (·.listsWait? x) ds = true
  attended : c.house.fixtures.listed ⊆ c.waits
  distinct : (c.waits.map (·.2)).Nodup
  used : ∀ x ∈ c.waits, x.2 < c.house.fixtures.nextToken

theorem Passage.tended {c c' : Crowd} {d : Incident} {ds : List Incident} (hp : Passage c d c')
    (hsound : c'.Sound) (hc : Tended ds c) : Tended (ds ++ [d]) c' := by
  obtain ⟨used, made, rest, hbefore, hafter, hshift⟩ := hp
  have hwaits : c.waits.Perm (waitsOf used ++ waitsOf rest) := by
    rw [waitsOf, waitsOf, ← List.filterMap_append]
    exact hbefore.filterMap _
  have hwaits' : c'.waits.Perm (waitsOf made ++ waitsOf rest) := by
    rw [waitsOf, waitsOf, ← List.filterMap_append]
    exact hafter.filterMap _
  have hhandover := hshift.handover
  have hnext := hshift.nextToken
  have htold (x : Name × Nat) : x ∈ c'.house.fixtures.listed ↔
      Incident.verdict (·.listsWait? x) (ds ++ [d]) = true := by
    have hbool : decide (x ∈ c.house.fixtures.listed) = Incident.verdict (·.listsWait? x) ds :=
      Bool.eq_iff_iff.mpr (decide_eq_true_iff.trans (hc.told x))
    rw [hshift.listed_iff, Incident.verdict_snoc, hbool]
  -- Whatever is listed was so before, or it was listed just now.
  have hlisted {x : Name × Nat} (hx : x ∈ c'.house.fixtures.listed) :
      d = .starts x.1 x.2 ∨ d.listsWait? x = none ∧ x ∈ c.house.fixtures.listed := by
    rw [hshift.listed_iff] at hx
    cases hd : d.listsWait? x with
    | none =>
      rw [hd] at hx
      exact .inr ⟨rfl, of_decide_eq_true hx⟩
    | some b =>
      rw [hd] at hx
      obtain rfl : b = true := hx
      exact .inl (Incident.starts_of_lists hd)
  have hdistinct := (hwaits.map (·.2)).nodup_iff.mp hc.distinct
  generalize waitsOf used = us at hwaits hhandover hdistinct
  generalize waitsOf made = ms at hwaits' hhandover
  cases hhandover with
  | same _ hstarts =>
    have hsame := hwaits'.trans hwaits.symm
    refine ⟨hsound, htold, fun x hx => ?_, (hsame.map _).nodup_iff.mpr hc.distinct, fun x hx => ?_⟩
    · obtain ⟨-, hx⟩ := (hlisted hx).resolve_left (hstarts _ _)
      exact hsame.mem_iff.mpr (hc.attended hx)
    · exact hnext ▸ Nat.lt_add_right _ (hc.used x (hsame.mem_iff.mp hx))
  | begins name =>
    have hrest : ∀ x ∈ waitsOf rest, x.2 < c.house.fixtures.nextToken := fun x hx =>
      hc.used x (hwaits.mem_iff.mpr hx)
    refine ⟨hsound, htold, fun x hx => hwaits'.mem_iff.mpr ?_, (hwaits'.map _).nodup_iff.mpr ?_,
      fun x hx => ?_⟩
    · rcases hlisted hx with heq | ⟨-, hx⟩
      · obtain ⟨hname, htoken⟩ := Incident.starts.inj heq
        exact List.mem_cons.mpr (.inl (Prod.ext hname.symm htoken.symm))
      · exact .tail _ (hwaits.mem_iff.mp (hc.attended hx))
    · refine List.nodup_cons.mpr ⟨fun hmem => ?_, hdistinct⟩
      obtain ⟨x, hx, heq⟩ := List.mem_map.mp hmem
      exact absurd (hrest x hx) (heq ▸ Nat.lt_irrefl _)
    · rw [hnext]
      rcases List.mem_cons.mp (hwaits'.mem_iff.mp hx) with rfl | hx
      · exact Nat.lt_succ_self _
      · exact Nat.lt_succ_of_lt (hrest x hx)
  | @ends _ name token hunlisted hstarts =>
    refine ⟨hsound, htold, fun x hx => hwaits'.mem_iff.mpr ?_,
      (hwaits'.map _).nodup_iff.mpr (List.nodup_cons.mp hdistinct).2, fun x hx => ?_⟩
    · obtain ⟨hkept, hx⟩ := (hlisted hx).resolve_left (hstarts _ _)
      rcases List.mem_cons.mp (hwaits.mem_iff.mp (hc.attended hx)) with rfl | hx
      · rcases hunlisted with hoff | hnot
        · rw [hkept] at hoff
          cases hoff
        · exact absurd hx hnot
      · exact hx
    · have hbefore := hc.used x (hwaits.mem_iff.mpr (.tail _ (hwaits'.mem_iff.mp hx)))
      exact hnext ▸ Nat.lt_add_right _ hbefore

/-- The wait of a strand that pauses in it is listed exactly if its token is. -/
theorem Tended.hasToken {c : Crowd} {ds : List Incident} (hc : Tended ds c) {name : Name}
    {token : Nat} (hwait : (name, token) ∈ c.waits) :
    Act.hasToken c.house token = Incident.verdict (·.listsWait? (name, token)) ds := by
  refine Bool.eq_iff_iff.mpr (Iff.trans ?_ (hc.told (name, token)))
  rw [Act.hasToken, List.any_eq_true]
  constructor
  · rintro ⟨w, hw, htoken⟩
    have hlisted : (w.1, w.2.token) ∈ c.house.fixtures.listed := List.mem_map_of_mem hw
    have heq := List.inj_on_of_nodup_map hc.distinct (hc.attended hlisted) hwait
      (beq_iff_eq.mp htoken)
    exact heq ▸ hlisted
  · intro hlisted
    obtain ⟨w, hw, heq⟩ := List.mem_map.mp hlisted
    exact ⟨w, hw, beq_iff_eq.mpr (congrArg Prod.snd heq)⟩

end Crowd

/-! ### The end of a wait -/

namespace Strand

/-- The words of the event that a strand is about to dispatch. -/
def State.announcement? (t : State) : Option Name :=
  match t.doing with
  | .call (.dispatch e) => some e.name
  | _ => none

/-- The pause of a wait is over when its time is over or when its entry is gone, and the outcome
tells which. -/
theorem over_wait_iff {job : Link.JobId} {h h' : House} {name : Name} {token due : Nat}
    {o : Outcome} : Over job h (.wait name token due) o h' ↔ h' = h ∧
      (o = .ok .done ∧ due ≤ h.now ∨
        o = .error (.cancelled ("wait " ++ name.render)) ∧ Act.hasToken h token = false) := by
  constructor
  · intro hover
    cases hover with
    | gone hgone => exact ⟨rfl, .inr ⟨rfl, hgone⟩⟩
    | polled ended =>
      rw [poll] at ended
      split at ended
      · next hdue =>
        obtain ⟨rfl, rfl⟩ : .ok .done = o ∧ h = h' := by simpa using ended
        exact ⟨rfl, .inl ⟨rfl, hdue⟩⟩
      · split at ended
        · cases ended
        · next hgone =>
          obtain ⟨rfl, rfl⟩ : .error _ = o ∧ h = h' := by simpa using ended
          exact ⟨rfl, .inr ⟨rfl, Bool.eq_false_iff.mpr hgone⟩⟩
  · rintro ⟨rfl, ⟨rfl, hdue⟩ | ⟨rfl, hgone⟩⟩
    · exact .polled (by rw [poll, if_pos hdue])
    · exact .gone hgone

/-- A wait that ends says so before anything else happens. -/
theorem announces_waited (job : Link.JobId) (h : House) (name : Name) (scope : ScopeId)
    (frames : List Frame) :
    (step job h ⟨.waited name scope :: frames, .give (.ok .done)⟩).1.announcement? =
        some (.text "wait" :: .text "done" :: name) ∧
      ∀ e, (step job h ⟨.waited name scope :: frames, .give (.error e)⟩).1.announcement? =
        some (.text "wait" :: .text "cancel" :: name) :=
  ⟨rfl, fun _ => rfl⟩

end Strand

namespace Crowd

open Strand (step)

/-- However waits are started, deleted, cancelled and ended: a wait is listed if it was started, and
since then neither a wait of its name was cancelled or ended, nor were all waits cancelled. Whatever is
listed is in progress. When the time of a wait is over, it says that it is done, and it ends early
exactly if it is no longer listed. -/
theorem waits_by_name {c c' : Crowd} (sound : c.Sound) (idle : c.marks = [])
    (unlisted : c.house.waits = []) (run : Relation.ReflTransGen Turn c c') :
    ∃ ds, Story c ds c' ∧
      (∀ x, x ∈ c'.house.fixtures.listed ↔ Incident.verdict (·.listsWait? x) ds = true) ∧
      c'.house.fixtures.listed ⊆ c'.waits ∧ (c'.waits.map (·.2)).Nodup ∧
      ∀ t ∈ c'.strands, ∀ name token due, t.doing = .pause (.wait name token due) → ∀ job,
        (∀ o h', Strand.Over job c'.house (.wait name token due) o h' ↔ h' = c'.house ∧
          (o = .ok .done ∧ due ≤ c'.house.now ∨ o = .error (.cancelled ("wait " ++ name.render)) ∧
            Incident.verdict (·.listsWait? (name, token)) ds = false)) ∧
        (step job c'.house ⟨t.frames, .give (.ok .done)⟩).1.announcement? =
          some (.text "wait" :: .text "done" :: name) ∧
        ∀ e, (step job c'.house ⟨t.frames, .give (.error e)⟩).1.announcement? =
          some (.text "wait" :: .text "cancel" :: name) := by
  have hstart : Tended [] c := by
    have hwaits : c.waits = [] := by
      rw [waits, idle]
      rfl
    have hlisted : c.house.fixtures.listed = [] := by
      change c.house.waits.map _ = []
      rw [unlisted]
      rfl
    refine ⟨sound, fun x => ?_, ?_, ?_, ?_⟩
    · rw [hlisted]
      exact ⟨nofun, nofun⟩
    · rw [hlisted]
      exact List.nil_subset _
    · rw [hwaits]
      exact .nil
    · rw [hwaits]
      exact List.forall_mem_nil _
  obtain ⟨ds, hstory, hc⟩ : ∃ ds, Story c ds c' ∧ Tended ds c' := by
    induction run with
    | refl => exact ⟨[], .nil c, hstart⟩
    | tail _ turn ih =>
      obtain ⟨ds, hstory, hc⟩ := ih
      obtain ⟨⟨d, hpassage⟩, hsound⟩ := turn.passage hc.sound
      exact ⟨ds ++ [d], hstory.snoc turn hpassage, hpassage.tended hsound hc⟩
  refine ⟨ds, hstory, hc.told, hc.attended, hc.distinct, ?_⟩
  rintro ⟨frames, doing⟩ ht name token due rfl job
  have hmark : .waiting name token due ∈ c'.marks := List.mem_flatMap_of_mem ht (.head _)
  have hwait : (name, token) ∈ c'.waits := List.mem_filterMap.mpr ⟨_, hmark, rfl⟩
  refine ⟨fun o h' => ?_, ?_⟩
  · rw [Strand.over_wait_iff, hc.hasToken hwait]
  · cases hc.sound.proper _ ht with
    | waiting _ _ _ scope _ => exact Strand.announces_waited job c'.house name scope _
    | other _ helse => exact absurd rfl (helse name token due)

/-! ### Two waits of one name -/

/-- The start of a wait is announced, and the handler of that waits. Meanwhile both waits are
cancelled, and a wait of the same name is started. -/
def crossedWaits : Crowd :=
  let wait (name : String) : Statement :=
    .wait (phraseOf ["wait"] .wait [name]) 1 (some ⟨10000000000⟩)
  let script (body : Body) : Strand.State := .start [] (.body body knowingHouse.root)
  ⟨knowingHouse, [
    script [
      .plain (phraseOf ["load"] .load ["on_event"]),
      .plain (phraseOf ["load"] .load ["wait"]),
      .handler (phraseOf ["on"] .handle ["wait", "start", "n"]) none (some [.text "x"]) none
        [wait "hold"],
      wait "n"],
    script [
      .plain (phraseOf ["del"] .delete ["on", "x"]),
      .plain (phraseOf ["del"] .delete ["wait", "n"]),
      .plain (phraseOf ["del"] .delete ["wait", "hold"]),
      wait "n"]]⟩

theorem sound_crossedWaits : crossedWaits.Sound :=
  .of_catalog rfl (List.forall_mem_cons.mpr ⟨.other rfl nofun,
    List.forall_mem_singleton.mpr (.other rfl nofun)⟩) rfl rfl

/-- The handler fails, because its own wait is cancelled, and so does the start of the first wait. -/
theorem waits_by_name_crossed :
    let c' := crossedWaits.play (List.replicate 29 0 ++ List.replicate 11 1 ++ List.replicate 7 0)
    (crossedWaits.Sound ∧ crossedWaits.marks = [] ∧ crossedWaits.house.waits = [] ∧
      Relation.ReflTransGen Turn crossedWaits c') ∧
    ∃ ds, Story crossedWaits ds c' ∧
      (∀ x, x ∈ c'.house.fixtures.listed ↔ Incident.verdict (·.listsWait? x) ds = true) ∧
      c'.house.fixtures.listed ⊆ c'.waits ∧ (c'.waits.map (·.2)).Nodup ∧
      ∀ t ∈ c'.strands, ∀ name token due, t.doing = .pause (.wait name token due) → ∀ job,
        (∀ o h', Strand.Over job c'.house (.wait name token due) o h' ↔ h' = c'.house ∧
          (o = .ok .done ∧ due ≤ c'.house.now ∨ o = .error (.cancelled ("wait " ++ name.render)) ∧
            Incident.verdict (·.listsWait? (name, token)) ds = false)) ∧
        (step job c'.house ⟨t.frames, .give (.ok .done)⟩).1.announcement? =
          some (.text "wait" :: .text "done" :: name) ∧
        ∀ e, (step job c'.house ⟨t.frames, .give (.error e)⟩).1.announcement? =
          some (.text "wait" :: .text "cancel" :: name) :=
  ⟨⟨sound_crossedWaits, rfl, rfl, reaches_play _ _⟩,
    waits_by_name sound_crossedWaits rfl rfl (reaches_play _ _)⟩

/-- When the start of the first wait fails, it is no longer listed, and the second wait is. In that
one turn the second wait is taken off the list, and then it ends early, although its time is not over
and nobody cancelled it. -/
theorem unlisted_by_another :
    let c₁ := crossedWaits.play (List.replicate 29 0 ++ List.replicate 11 1 ++ List.replicate 6 0)
    let c₂ := c₁.advance 0
    (crossedWaits.Sound ∧ crossedWaits.marks = [] ∧ crossedWaits.house.waits = []) ∧
      Relation.ReflTransGen Turn crossedWaits c₁ ∧ Turn c₁ c₂ ∧
      c₁.waits = [([.text "n"], 1), ([.text "n"], 3)] ∧ c₂.waits = [([.text "n"], 3)] ∧
      c₁.house.fixtures.listed = [([.text "n"], 3)] ∧ c₂.house.fixtures.listed = [] ∧
      c₂.house.now = 0 ∧
      ((c₂.advance 1).strands[1]?).bind (·.announcement?) =
        some [.text "wait", .text "cancel", .text "n"] := by
  intro c₁ c₂
  have hbefore : c₁.waits = [([.text "n"], 1), ([.text "n"], 3)] := by decide +kernel
  have hafter : c₂.waits = [([.text "n"], 3)] := by decide +kernel
  have hturn : Turn c₁ c₂ := (turn_advance c₁ 0).resolve_left fun hsame => by
    have hwaits : c₂.waits = c₁.waits := congrArg waits hsame
    rw [hbefore, hafter] at hwaits
    cases hwaits
  exact ⟨⟨sound_crossedWaits, rfl, rfl⟩, reaches_play _ _, hturn, hbefore, hafter,
    by decide +kernel, by decide +kernel, by decide +kernel, by decide +kernel⟩

end Crowd

end Hearth
