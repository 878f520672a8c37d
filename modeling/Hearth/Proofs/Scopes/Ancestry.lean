import Mathlib.Data.List.Basic
import Mathlib.Logic.Relation
import Mathlib.Tactic.Tauto
import Hearth.Scope

/-!
# The order in which scopes are asked

A scope sees its parents, their parents, and so on; with shared ancestors there are many ways up to
one of them. The ways are told apart by their length, and those of one length stand in the order of
the parents. A scope and what it sees are asked in this order, each at its first place, however
often ways meet. So the search ends, it misses nothing that is seen, and the first slot on these
ways decides.

## Main definitions

* `Scopes.Sees` : a scope is another one, or reaches it through parents.
* `Scopes.up` : where all ways of one length lead to.
* `Scopes.Older` : parents are older than their children.
* `Scopes.Decides` : the first scope on the ways up that has a slot for a variable.

## Main results

* `Scopes.Older.ancestors_eq` : the scopes that are asked, in order.
* `Scopes.Older.mem_ancestors` : these are the scopes that are seen.
* `Scopes.Older.slot?_eq_some_iff` : the first slot decides.
* `Scopes.Older.slot?_congr` : what is found depends on nothing but the scopes that are seen.
-/

namespace Hearth

/-! ### Each at its first place -/

section FirstPlaces

variable {α β : Type} {p : α → Bool}

theorem findSome?_filter_of_none {f : α → Option β} {l : List α}
    (h : ∀ x ∈ l, p x = false → f x = none) : (l.filter p).findSome? f = l.findSome? f := by
  induction l with
  | nil => rfl
  | cons x l ih =>
    have ih := ih fun y hy => h y (List.mem_cons_of_mem _ hy)
    cases hp : p x with
    | true => rw [List.filter_cons_of_pos hp, List.findSome?_cons, List.findSome?_cons, ih]
    | false =>
      rw [List.filter_cons_of_neg (by simp [hp]), List.findSome?_cons,
        h x List.mem_cons_self hp, ih]

theorem flatMap_filter_of_nil {f : α → List β} {l : List α}
    (h : ∀ x ∈ l, p x = false → f x = []) : (l.filter p).flatMap f = l.flatMap f := by
  induction l with
  | nil => rfl
  | cons x l ih =>
    have ih := ih fun y hy => h y (List.mem_cons_of_mem _ hy)
    cases hp : p x with
    | true => rw [List.filter_cons_of_pos hp, List.flatMap_cons, List.flatMap_cons, ih]
    | false =>
      rw [List.filter_cons_of_neg (by simp [hp]), List.flatMap_cons, h x List.mem_cons_self hp, ih,
        List.nil_append]

variable [BEq α] [LawfulBEq α]

/-- What is found first does not depend on repetitions. -/
theorem findSome?_eraseDups (f : α → Option β) (l : List α) :
    l.eraseDups.findSome? f = l.findSome? f := by
  induction hn : l.length using Nat.strongRecOn generalizing l with
  | ind n ih =>
    cases l with
    | nil => rfl
    | cons x l =>
      rw [List.eraseDups_cons, List.findSome?_cons, List.findSome?_cons]
      cases hx : f x with
      | some y => rfl
      | none =>
        have hlt : (l.filter fun b => !b == x).length < n :=
          hn ▸ Nat.lt_succ_of_le (List.length_filter_le ..)
        dsimp only
        rw [ih _ hlt _ rfl]
        refine findSome?_filter_of_none fun y _ hy => ?_
        obtain rfl : y = x := by simpa using hy
        exact hx

variable [BEq β] [LawfulBEq β]

/-- What the first places of a list lead to are, at their first places, all that the list leads
to. -/
theorem eraseDups_flatMap_eraseDups (f : α → List β) (l : List α) :
    (l.eraseDups.flatMap f).eraseDups = (l.flatMap f).eraseDups := by
  induction hn : l.length using Nat.strongRecOn generalizing l f with
  | ind n ih =>
    cases l with
    | nil => rfl
    | cons x l =>
      have hlt : (l.filter fun b => !b == x).length < n :=
        hn ▸ Nat.lt_succ_of_le (List.length_filter_le ..)
      rw [List.eraseDups_cons, List.flatMap_cons, List.flatMap_cons, List.eraseDups_append,
        List.eraseDups_append]
      simp only [List.removeAll, List.filter_flatMap]
      rw [ih _ hlt _ _ rfl, flatMap_filter_of_nil]
      intro y _ hy
      obtain rfl : y = x := by simpa using hy
      simp

end FirstPlaces

namespace Scopes

/-! ### Ways up -/

/-- A scope is another one, or reaches it through parents. -/
def Sees (s : Scopes) : ScopeId → ScopeId → Prop :=
  Relation.ReflTransGen fun a p => p ∈ (s.get a).parents

/-- Where all ways of `n` steps up from some scopes lead to, in the order of the scopes and of
their parents. -/
def up (s : Scopes) (ids : List ScopeId) : Nat → List ScopeId
  | 0 => ids
  | n + 1 => (s.up ids n).flatMap fun a => (s.get a).parents

/-- Parents are older than their children. -/
def Older (s : Scopes) : Prop := ∀ a, ∀ p ∈ (s.get a).parents, p.index < a.index

variable {s s' : Scopes} {a b c : ScopeId} {ids seen : List ScopeId} {name : String} {n : Nat}

theorem get_of_size_le (h : s.all.size ≤ a.index) : s.get a = ⟨[], []⟩ := by
  rw [get, Array.getElem?_eq_none h]
  rfl

theorem up_succ (ids : List ScopeId) (n : Nat) :
    s.up ids (n + 1) = s.up (ids.flatMap fun a => (s.get a).parents) n := by
  induction n with
  | zero => rfl
  | succ n ih => rw [up, ih, up]

theorem up_nil (s : Scopes) (n : Nat) : s.up [] n = [] := by
  induction n with
  | zero => rfl
  | succ n ih => rw [up, ih, List.flatMap_nil]

theorem sees_iff : s.Sees c a ↔ ∃ n, a ∈ s.up [c] n := by
  constructor
  · intro h
    induction h with
    | refl => exact ⟨0, List.mem_singleton_self c⟩
    | tail _ hp ih =>
      obtain ⟨n, hn⟩ := ih
      exact ⟨n + 1, List.mem_flatMap.mpr ⟨_, hn, hp⟩⟩
  · rintro ⟨n, hn⟩
    induction n generalizing a with
    | zero =>
      obtain rfl := List.mem_singleton.mp hn
      exact .refl
    | succ n ih =>
      obtain ⟨b, hb, hp⟩ := List.mem_flatMap.mp hn
      exact (ih hb).tail hp

namespace Older

theorem parents_eq (hs : s.Older) : s.parents = fun a => (s.get a).parents := by
  funext a
  exact List.filter_eq_self.mpr fun p hp => decide_eq_true (hs a p hp)

/-- Each step up leads to an older scope. -/
theorem index_le (hs : s.Older) (ha : a ∈ s.up [c] n) : a.index + n ≤ c.index := by
  induction n generalizing a with
  | zero =>
    obtain rfl := List.mem_singleton.mp ha
    exact Nat.le_refl _
  | succ n ih =>
    obtain ⟨b, hb, hp⟩ := List.mem_flatMap.mp ha
    have := ih hb
    have := hs b a hp
    omega

theorem index_le_of_sees (hs : s.Older) (h : s.Sees c a) : a.index ≤ c.index := by
  obtain ⟨n, hn⟩ := sees_iff.mp h
  have := hs.index_le hn
  omega

/-- Two scopes that see each other are the same. -/
theorem sees_antisymm (hs : s.Older) (h : s.Sees a b) (h' : s.Sees b a) : a = b := by
  have := hs.index_le_of_sees h
  have := hs.index_le_of_sees h'
  cases a
  cases b
  congr 1
  dsimp only at *
  omega

/-- No way up is longer than there are scopes. -/
theorem le_size (hs : s.Older) (ha : a ∈ s.up [c] n) : n ≤ s.all.size := by
  refine Nat.le_of_not_lt fun hn => ?_
  have hle := hs.index_le ha
  obtain ⟨m, rfl⟩ : ∃ m, n = m + 1 := ⟨n - 1, by omega⟩
  rw [up_succ, List.flatMap_singleton, get_of_size_le (by omega), up_nil] at ha
  exact List.not_mem_nil ha

end Older

/-! ### Asking -/

/-- The ways of less than `n` steps, the shorter ones first. -/
def ways (s : Scopes) (ids : List ScopeId) (n : Nat) : List ScopeId :=
  (List.range n).flatMap (s.up ids)

theorem ways_succ (ids : List ScopeId) (n : Nat) :
    s.ways ids (n + 1) = ids ++ s.ways (ids.flatMap fun a => (s.get a).parents) n := by
  rw [ways, List.range_succ_eq_map, List.flatMap_cons, List.flatMap_map, ways]
  exact congrArg₂ _ rfl (congrArg (List.flatMap · _) (funext (up_succ ids)))

theorem fresh_eq (seen ids : List ScopeId) :
    fresh seen ids = ((ids.filter fun a => !seen.contains a).eraseDups,
      (ids.filter fun a => !seen.contains a).eraseDups.reverse ++ seen) := by
  induction ids generalizing seen with
  | nil => rfl
  | cons a rest ih =>
    rw [fresh]
    by_cases ha : seen.contains a = true
    · rw [if_pos ha, ih, List.filter_cons_of_neg (by simpa using ha)]
    · have hrest : rest.filter (fun b => !(a :: seen).contains b) =
          (rest.filter fun b => !seen.contains b).filter fun b => !b == a := by
        rw [List.filter_filter]
        exact List.filter_congr fun b _ => by rw [List.contains_cons, Bool.not_or]
      rw [if_neg ha, ih, hrest, List.filter_cons_of_pos (by simpa using ha), List.eraseDups_cons]
      simp

/-- Of the next steps, the search only takes those from scopes that are new. -/
theorem fresh_flatMap (f : ScopeId → List ScopeId) {next : List ScopeId}
    (hseen : ∀ a ∈ ids, a ∈ seen → ∀ p ∈ f a, p ∈ next) :
    (((ids.filter fun a => !seen.contains a).eraseDups.flatMap f).filter
        fun a => !next.contains a).eraseDups =
      ((ids.flatMap f).filter fun a => !next.contains a).eraseDups := by
  rw [List.filter_flatMap, List.filter_flatMap, eraseDups_flatMap_eraseDups, flatMap_filter_of_nil]
  intro a ha hold
  have hold : a ∈ seen := by simpa using hold
  exact List.filter_eq_nil_iff.mpr fun p hp => by simp [hseen a ha hold p hp]

/-- What the search leads to depends on the scopes of a generation that are new. -/
theorem reach_congr {frontier frontier' : List ScopeId}
    (h : (frontier.filter fun a => !seen.contains a).eraseDups =
      (frontier'.filter fun a => !seen.contains a).eraseDups) (n : Nat) :
    s.reach seen n frontier = s.reach seen n frontier' := by
  cases n with
  | zero => rfl
  | succ n => rw [reach, reach, fresh_eq, fresh_eq, h]

/-- A search among scopes whose parents all were seen finds nothing new. -/
theorem mem_of_mem_ways (hclosed : ∀ a ∈ seen, ∀ p ∈ (s.get a).parents, p ∈ seen)
    (hids : ∀ a ∈ ids, a ∈ seen) : ∀ a ∈ s.ways ids n, a ∈ seen := by
  induction n generalizing ids with
  | zero => exact nofun
  | succ n ih =>
    intro a ha
    rw [ways_succ] at ha
    rcases List.mem_append.mp ha with ha | ha
    · exact hids a ha
    · refine ih (fun b hb => ?_) a ha
      obtain ⟨x, hx, hp⟩ := List.mem_flatMap.mp hb
      exact hclosed x (hids x hx) b hp

/-- The search follows all ways up from a generation, and keeps each scope at its first place,
unless it was seen before. -/
theorem Older.reach_eq (hs : s.Older) {frontier : List ScopeId}
    (hclosed : ∀ a ∈ seen, ∀ p ∈ (s.get a).parents, p ∈ seen ∨ p ∈ frontier) (n : Nat) :
    s.reach seen n frontier =
      ((s.ways frontier n).filter fun a => !seen.contains a).eraseDups := by
  induction n generalizing seen frontier with
  | zero => rfl
  | succ n ih =>
    rw [reach, fresh_eq, ways_succ, List.filter_append, List.eraseDups_append]
    generalize hnew : (frontier.filter fun a => !seen.contains a).eraseDups = new
    have hmem (a : ScopeId) : a ∈ new.reverse ++ seen ↔ a ∈ frontier ∨ a ∈ seen := by
      rw [← hnew]
      simp only [List.mem_append, List.mem_reverse, List.mem_eraseDups, List.mem_filter,
        Bool.not_eq_true', List.contains_eq_mem, decide_eq_false_iff_not]
      tauto
    -- Both the new scopes and the whole generation lead to what is asked next.
    have hnext : ∀ a ∈ new.reverse ++ seen, ∀ p ∈ (s.get a).parents,
        p ∈ new.reverse ++ seen ∨ p ∈ frontier.flatMap fun a => (s.get a).parents := by
      intro a ha p hp
      rcases (hmem a).mp ha with ha | ha
      · exact .inr (List.mem_flatMap.mpr ⟨a, ha, hp⟩)
      · exact .inl ((hmem p).mpr (hclosed a ha p hp).symm)
    have hrest : ((s.ways (frontier.flatMap fun a => (s.get a).parents) n).filter
          fun a => !seen.contains a).removeAll (frontier.filter fun a => !seen.contains a) =
        (s.ways (frontier.flatMap fun a => (s.get a).parents) n).filter
          fun a => !(new.reverse ++ seen).contains a := by
      rw [List.removeAll, List.filter_filter]
      refine List.filter_congr fun a _ => ?_
      rw [Bool.eq_iff_iff]
      simp only [Bool.and_eq_true, Bool.not_eq_true', List.contains_eq_mem,
        decide_eq_false_iff_not, hmem, List.mem_filter]
      tauto
    rw [hrest, ← ih hnext]
    cases new with
    | nil =>
      -- Nothing is new, so the search ends; all that follows was seen.
      have hfrontier : ∀ a ∈ frontier, a ∈ seen := fun a ha => by
        simpa using (hmem a).mpr (.inl ha)
      have hclosed' : ∀ a ∈ seen, ∀ p ∈ (s.get a).parents, p ∈ seen :=
        fun a ha p hp => (hclosed a ha p hp).elim id (hfrontier p)
      have hall : ∀ a ∈ s.ways (frontier.flatMap fun a => (s.get a).parents) n, a ∈ seen := by
        refine mem_of_mem_ways hclosed' fun b hb => ?_
        obtain ⟨a, ha, hp⟩ := List.mem_flatMap.mp hb
        exact hclosed' a (hfrontier a ha) b hp
      rw [ih hnext, List.filter_eq_nil_iff.mpr fun a ha => by simp [hall a ha]]
      rfl
    | cons x new =>
      dsimp only
      congr 1
      refine reach_congr ?_ n
      rw [hs.parents_eq, ← hnew]
      refine fresh_flatMap _ fun a ha hold p hp => ?_
      rw [hnew, hmem]
      exact (hclosed a hold p hp).symm

/-- A scope and what it sees are asked in the order of the ways up, each at its first place. -/
theorem Older.ancestors_eq (hs : s.Older) (c : ScopeId) :
    s.ancestors c = (s.ways [c] (s.all.size + 1)).eraseDups := by
  rw [ancestors, hs.reach_eq fun _ ha => absurd ha List.not_mem_nil]
  exact congrArg List.eraseDups (List.filter_eq_self.mpr fun _ _ => rfl)

/-- The scopes that are asked are those that are seen. -/
theorem Older.mem_ancestors (hs : s.Older) : a ∈ s.ancestors c ↔ s.Sees c a := by
  rw [hs.ancestors_eq, List.mem_eraseDups, ways, List.mem_flatMap, sees_iff]
  exact ⟨fun ⟨n, _, ha⟩ => ⟨n, ha⟩,
    fun ⟨n, ha⟩ => ⟨n, List.mem_range.mpr (Nat.lt_succ_of_le (hs.le_size ha)), ha⟩⟩

/-! ### The first slot -/

/-- A scope is the first on the ways up from `c` that has a slot for a variable: no shorter way
leads to one, and no way of the same length that comes before it. -/
def Decides (s : Scopes) (c : ScopeId) (name : String) (a : ScopeId) (slot : Slot) : Prop :=
  ∃ n before after, s.up [c] n = before ++ a :: after ∧ (s.get a).slot? name = some slot ∧
    (∀ b ∈ before, (s.get b).slot? name = none) ∧
    ∀ m < n, ∀ b ∈ s.up [c] m, (s.get b).slot? name = none

theorem findSome?_range_flatMap {α β : Type} {f : Nat → List α} {g : α → Option β} {y : β} :
    ((List.range n).flatMap f).findSome? g = some y ↔
      ∃ m < n, (f m).findSome? g = some y ∧ ∀ k < m, (f k).findSome? g = none := by
  induction n with
  | zero => simp
  | succ n ih =>
    have hnone : ((List.range n).flatMap f).findSome? g = none ↔
        ∀ k < n, (f k).findSome? g = none := by
      simp only [List.findSome?_eq_none_iff, List.mem_flatMap, List.mem_range]
      exact ⟨fun h k hk x hx => h x ⟨k, hk, hx⟩, fun h x ⟨k, hk, hx⟩ => h k hk x hx⟩
    rw [List.range_succ, List.flatMap_append, List.flatMap_singleton, List.findSome?_append,
      Option.or_eq_some_iff, ih, hnone]
    constructor
    · rintro (⟨m, hm, h⟩ | ⟨h, hn⟩)
      · exact ⟨m, Nat.lt_succ_of_lt hm, h⟩
      · exact ⟨n, Nat.lt_succ_self n, hn, h⟩
    · rintro ⟨m, hm, hy, h⟩
      rcases Nat.lt_succ_iff_lt_or_eq.mp hm with hm | rfl
      · exact .inl ⟨m, hm, hy, h⟩
      · exact .inr ⟨h, hy⟩

/-- The first slot on the ways up is found. -/
theorem Older.slot?_eq_some_iff (hs : s.Older) {slot : Slot} :
    s.slot? c name = some slot ↔ ∃ a, s.Decides c name a slot := by
  rw [slot?, hs.ancestors_eq, findSome?_eraseDups, ways, findSome?_range_flatMap]
  constructor
  · rintro ⟨n, _, hslot, hshorter⟩
    obtain ⟨before, a, after, hup, ha, hbefore⟩ := List.findSome?_eq_some_iff.mp hslot
    exact ⟨a, n, before, after, hup, ha, hbefore,
      fun m hm => List.findSome?_eq_none_iff.mp (hshorter m hm)⟩
  · rintro ⟨a, n, before, after, hup, ha, hbefore, hshorter⟩
    have hmem : a ∈ s.up [c] n := hup ▸ List.mem_append_right before List.mem_cons_self
    exact ⟨n, Nat.lt_succ_of_le (hs.le_size hmem),
      List.findSome?_eq_some_iff.mpr ⟨before, a, after, hup, ha, hbefore⟩,
      fun m hm => List.findSome?_eq_none_iff.mpr (hshorter m hm)⟩

/-- Nothing is found if no scope that is seen has a slot. -/
theorem Older.slot?_eq_none_iff (hs : s.Older) :
    s.slot? c name = none ↔ ∀ a, s.Sees c a → (s.get a).slot? name = none := by
  rw [slot?, List.findSome?_eq_none_iff]
  exact forall_congr' fun a => imp_congr_left hs.mem_ancestors

theorem lookup_eq_some_iff {v : Json} :
    s.lookup c name = some v ↔ s.slot? c name = some (.value v) := by
  rw [lookup]
  split <;> simp_all

theorem lookup_eq_none_iff :
    s.lookup c name = none ↔ s.slot? c name = some .gone ∨ s.slot? c name = none := by
  rw [lookup]
  split
  · next h => simp [h]
  · next h =>
    refine iff_of_true rfl ?_
    cases hslot : s.slot? c name with
    | none => exact .inr rfl
    | some slot =>
      cases slot with
      | value v => exact absurd hslot (h v)
      | gone => exact .inl rfl

theorem lookup_congr (h : s'.slot? b name = s.slot? c name) :
    s'.lookup b name = s.lookup c name := by
  rw [lookup, lookup, h]

/-- What is found from a scope only depends on the scopes that it sees. -/
theorem Older.slot?_congr (hs : s.Older) (hs' : s'.Older)
    (h : ∀ a, s.Sees c a → (s'.get a).parents = (s.get a).parents ∧
      (s'.get a).slot? name = (s.get a).slot? name) : s'.slot? c name = s.slot? c name := by
  have hup (n : Nat) : s'.up [c] n = s.up [c] n := by
    induction n with
    | zero => rfl
    | succ n ih =>
      rw [up, ih, up]
      exact List.flatMap_congr fun a ha => (h a (sees_iff.mpr ⟨n, ha⟩)).1
  have hslot {a : ScopeId} {n : Nat} (ha : a ∈ s.up [c] n) :
      (s'.get a).slot? name = (s.get a).slot? name :=
    (h a (sees_iff.mpr ⟨n, ha⟩)).2
  refine Option.ext fun slot => ?_
  rw [hs'.slot?_eq_some_iff, hs.slot?_eq_some_iff]
  refine exists_congr fun a => exists_congr fun n => exists_congr fun before =>
    exists_congr fun after => ?_
  rw [hup]
  refine and_congr_right fun hn => ?_
  have hmem {b : ScopeId} (hb : b ∈ before ++ a :: after) : b ∈ s.up [c] n := hn ▸ hb
  refine and_congr (by rw [hslot (hmem (by simp))]) (and_congr ?_ ?_)
  · exact forall₂_congr fun b hb => by rw [hslot (hmem (List.mem_append_left _ hb))]
  · exact forall₂_congr fun m _ => by
      rw [hup]
      exact forall₂_congr fun b hb => by rw [hslot hb]

end Scopes

end Hearth
