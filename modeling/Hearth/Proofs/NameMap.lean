import Hearth.NameMap
import Hearth.Proofs.Store.Records

/-!
# Maps from names

A map whose names are in strictly ascending order keeps them so when a name gets a value or loses
it, and what is listed in it is what is found in it. Of the beginnings of a list of words that have
a value which accepts the words after them, the longest is found.

## Main definitions

* `NameMap.Ascending` : names in strictly ascending order.
* `NameMap.Fits` : a beginning of some words that has a value which accepts the other words.

## Main results

* `NameMap.get?_insert`, `NameMap.erase_insert` : what is found after a change.
* `NameMap.Ascending.mem_iff` : what is listed is what is found.
* `NameMap.longest?_eq_some_iff` : the longest beginning is found.
-/

namespace Hearth.NameMap

variable {α : Type} {m : NameMap α} {name : Name}

theorem order_eq_iff {a b : Name} : Name.order a b = .eq ↔ a = b := Token.orderList_eq_iff

theorem order_gt_iff {a b : Name} : Name.order a b = .gt ↔ Name.order b a = .lt := by
  rw [Name.order, Name.order, ← Token.orderList_swap b a]
  cases Token.orderList b a <;> simp

theorem get?_eq_none_iff : get? m name = none ↔ name ∉ m.map (·.1) := by
  rw [get?, List.lookup_eq_none_iff]
  simp only [List.mem_map, not_exists, not_and, bne_iff_ne]
  exact ⟨fun h x hx he => h x hx he.symm, fun h x hx he => h x hx he.symm⟩

theorem has_iff : has m name = true ↔ name ∈ m.map (·.1) := by
  rw [has, Option.isSome_iff_ne_none, ne_eq, get?_eq_none_iff, not_not]

theorem get?_cons (k : Name) (y : α) :
    get? ((k, y) :: m) name = if name = k then some y else get? m name :=
  lookup_cons_eq m k name y

/-! ### Setting and taking away -/

theorem erase_eq_self (h : get? m name = none) : erase m name = m :=
  List.filter_eq_self.mpr fun _ hx => bne_iff_ne.mpr fun he =>
    get?_eq_none_iff.mp h (he ▸ List.mem_map_of_mem hx)

/-- What is there after a name got a value is that, or was there before. -/
theorem mem_insert {x : α} {y : Name × α} (hy : y ∈ insert name x m) : y = (name, x) ∨ y ∈ m := by
  induction m with
  | nil => exact .inl (List.mem_singleton.mp hy)
  | cons entry rest ih =>
    unfold insert at hy
    split at hy
    · exact List.mem_cons.mp hy
    · exact (List.mem_cons.mp hy).imp_right (List.mem_cons_of_mem _)
    · rcases List.mem_cons.mp hy with rfl | hy
      · exact .inr (.head _)
      · exact (ih hy).imp_right (List.mem_cons_of_mem _)

/-- A name that has no value yet gets one, in its place. -/
theorem insert_perm (x : α) (h : name ∉ m.map (·.1)) : (insert name x m).Perm ((name, x) :: m) := by
  induction m with
  | nil => exact .refl _
  | cons entry rest ih =>
    obtain ⟨k, y⟩ := entry
    rw [List.map_cons, List.mem_cons, not_or] at h
    unfold insert
    split
    · exact .refl _
    · next heq => exact absurd (order_eq_iff.mp heq) h.1
    · exact ((ih h.2).cons _).trans (.swap ..)

theorem get?_insert (x : α) (k : Name) :
    get? (insert name x m) k = if k = name then some x else get? m k := by
  induction m with
  | nil => exact lookup_cons_eq [] name k x
  | cons entry rest ih =>
    obtain ⟨k', y⟩ := entry
    unfold insert
    split
    · exact get?_cons name x
    · next heq =>
      obtain rfl := order_eq_iff.mp heq
      rw [get?_cons, get?_cons]
      split <;> rfl
    · next hgt =>
      have hne : k' ≠ name := by
        rintro rfl
        rw [order_eq_iff.mpr rfl] at hgt
        cases hgt
      rw [get?_cons, get?_cons, ih]
      split
      · next hk => rw [if_neg (hk ▸ hne)]
      · rfl

/-- Taking a name away undoes that it got a value. -/
theorem erase_insert (x : α) : erase (insert name x m) name = erase m name := by
  have hself : (name != name) = false := bne_self_eq_false name
  induction m with
  | nil => simp [insert, erase]
  | cons entry rest ih =>
    unfold insert
    split
    · rw [erase, List.filter_cons_of_neg (by simp), erase]
    · next heq =>
      obtain rfl := order_eq_iff.mp heq
      simp [erase]
    · rw [erase, erase, List.filter_cons, List.filter_cons]
      rw [erase, erase] at ih
      rw [ih]

/-! ### Ascending names -/

/-- The names are in strictly ascending order. -/
def Ascending (m : NameMap α) : Prop := m.Pairwise fun x y => Name.order x.1 y.1 = .lt

namespace Ascending

theorem insert (h : m.Ascending) (x : α) : (insert name x m).Ascending := by
  induction m with
  | nil => exact List.pairwise_singleton _ _
  | cons entry rest ih =>
    obtain ⟨hbelow, hrest⟩ := List.pairwise_cons.mp h
    unfold NameMap.insert
    split
    · next hlt =>
      refine List.pairwise_cons.mpr ⟨List.forall_mem_cons.mpr ⟨hlt, fun z hz => ?_⟩, h⟩
      exact Token.orderList_trans hlt (hbelow z hz)
    · next heq =>
      obtain rfl := order_eq_iff.mp heq
      exact List.pairwise_cons.mpr ⟨hbelow, hrest⟩
    · next hgt =>
      refine List.pairwise_cons.mpr ⟨fun z hz => ?_, ih hrest⟩
      rcases mem_insert hz with rfl | hz
      · exact order_gt_iff.mp hgt
      · exact hbelow z hz

theorem erase (h : m.Ascending) (name : Name) : (erase m name).Ascending := List.Pairwise.filter _ h

/-- A name that comes before all others is none of them. -/
theorem get?_head {entry : Name × α} (h : Ascending (entry :: m)) : get? m entry.1 = none := by
  rw [get?_eq_none_iff]
  intro hmem
  obtain ⟨x, hx, heq⟩ := List.mem_map.mp hmem
  have hlt := (List.pairwise_cons.mp h).1 x hx
  rw [order_eq_iff.mpr heq.symm] at hlt
  cases hlt

/-- What is listed is what is found. -/
theorem mem_iff (h : m.Ascending) {x : α} : (name, x) ∈ m ↔ get? m name = some x := by
  induction m with
  | nil => simp [get?]
  | cons entry rest ih =>
    obtain ⟨k, y⟩ := entry
    have hfresh := h.get?_head
    rw [List.mem_cons, get?_cons, ih (List.pairwise_cons.mp h).2]
    split
    · next hk =>
      subst hk
      simp [hfresh, eq_comm]
    · next hk => simp [hk]

end Ascending

/-! ### The longest beginning -/

/-- Some words begin with a name whose value accepts the words after it. -/
structure Fits (accepts : α → Name → Bool) (m : NameMap α) (words name rest : Name) (x : α) :
    Prop where
  split : words = name ++ rest
  ne_nil : name ≠ []
  found : get? m name = some x
  accepted : accepts x rest = true

/-- Some words begin with a name whose value accepts the words after it, and with no longer one. -/
def FitsBest (accepts : α → Name → Bool) (m : NameMap α) (words name rest : Name) (x : α) : Prop :=
  Fits accepts m words name rest x ∧
    ∀ name' rest' y, Fits accepts m words name' rest' y → name'.length ≤ name.length

variable {accepts : α → Name → Bool} {words rest : Name} {x : α}

theorem Fits.take_drop (h : Fits accepts m words name rest x) :
    words.take name.length = name ∧ words.drop name.length = rest := by
  rw [h.split]
  exact ⟨List.take_left, List.drop_left⟩

theorem Fits.length_le (h : Fits accepts m words name rest x) : name.length ≤ words.length := by
  rw [h.split, List.length_append]
  omega

/-- Two beginnings of one length are the same. -/
theorem FitsBest.unique {name' rest' : Name} {y : α} (h : FitsBest accepts m words name rest x)
    (h' : FitsBest accepts m words name' rest' y) : name' = name ∧ y = x := by
  have hlength := Nat.le_antisymm (h.2 _ _ _ h'.1) (h'.2 _ _ _ h.1)
  have hname : name' = name := by rw [← h'.1.take_drop.1, ← h.1.take_drop.1, hlength]
  subst hname
  exact ⟨rfl, Option.some.inj (h'.1.found.symm.trans h.1.found)⟩

/-- The beginning of some length names a value that accepts the words after it. -/
def Hits (accepts : α → Name → Bool) (m : NameMap α) (words : Name) (n : Nat) (x : α) : Prop :=
  get? m (words.take n) = some x ∧ accepts x (words.drop n) = true

theorem Fits.hits (h : Fits accepts m words name rest x) : Hits accepts m words name.length x := by
  rw [Hits, h.take_drop.1, h.take_drop.2]
  exact ⟨h.found, h.accepted⟩

theorem Hits.fits {n : Nat} (h : Hits accepts m words (n + 1) x) (hn : n < words.length) :
    Fits accepts m words (words.take (n + 1)) (words.drop (n + 1)) x := by
  refine ⟨(List.take_append_drop _ _).symm, ?_, h.1, h.2⟩
  exact List.ne_nil_of_length_pos (by rw [List.length_take]; omega)

theorem longestUpTo_of_hits {n : Nat} (h : Hits accepts m words (n + 1) x) :
    longestUpTo accepts m words (n + 1) = some (n + 1, x) := by
  simp only [longestUpTo, h.1, h.2, if_true]

theorem longestUpTo_of_misses {n : Nat} (h : ∀ x, ¬ Hits accepts m words (n + 1) x) :
    longestUpTo accepts m words (n + 1) = longestUpTo accepts m words n := by
  rw [longestUpTo]
  split
  · next y hy => rw [if_neg fun haccepts => h y ⟨hy, haccepts⟩]
  · rfl

/-- Of the beginnings up to some length the longest is found, if there is one. -/
theorem longestUpTo_eq {n : Nat} (hn : n ≤ words.length) :
    (∀ k x, longestUpTo accepts m words n = some (k, x) →
      (∃ name rest, Fits accepts m words name rest x ∧ name.length = k) ∧
        ∀ name rest y, Fits accepts m words name rest y → name.length ≤ n → name.length ≤ k) ∧
      (longestUpTo accepts m words n = none →
        ∀ name rest y, Fits accepts m words name rest y → n < name.length) := by
  induction n with
  | zero => exact ⟨nofun, fun _ _ _ _ h => List.length_pos_iff.mpr h.ne_nil⟩
  | succ n ih =>
    by_cases hhits : ∃ x, Hits accepts m words (n + 1) x
    · obtain ⟨x, hx⟩ := hhits
      rw [longestUpTo_of_hits hx]
      refine ⟨fun k y h => ?_, nofun⟩
      obtain ⟨rfl, rfl⟩ := Prod.mk.inj (Option.some.inj h)
      exact ⟨⟨_, _, hx.fits hn, List.length_take_of_le hn⟩, fun _ _ _ _ h => h⟩
    · have hmisses : ∀ x, ¬ Hits accepts m words (n + 1) x := not_exists.mp hhits
      have hshorter {name rest y} (hfits : Fits accepts m words name rest y) :
          name.length ≠ n + 1 := fun heq => hmisses y (heq ▸ hfits.hits)
      rw [longestUpTo_of_misses hmisses]
      obtain ⟨ihsome, ihnone⟩ := ih (by omega)
      refine ⟨fun k x h => ?_, fun h name rest y hfits => ?_⟩
      · obtain ⟨hfits, hbest⟩ := ihsome k x h
        refine ⟨hfits, fun name rest y hfits hle => hbest name rest y hfits ?_⟩
        have := hshorter hfits
        omega
      · have := ihnone h name rest y hfits
        have := hshorter hfits
        omega

/-- Nothing is found if there is no such beginning. -/
theorem longest?_eq_none_iff : longest? accepts m words = none ↔
    ∀ name rest x, ¬ Fits accepts m words name rest x := by
  constructor
  · intro h name rest x hfits
    have hlt := (longestUpTo_eq (Nat.le_refl _)).2 h name rest x hfits
    exact Nat.not_le_of_lt hlt hfits.length_le
  · intro h
    cases hfound : longest? accepts m words with
    | none => rfl
    | some r =>
      obtain ⟨⟨name, rest, hfits, -⟩, -⟩ := (longestUpTo_eq (Nat.le_refl _)).1 r.1 r.2 hfound
      exact absurd hfits (h name rest r.2)

/-- What is found is the longest beginning of its kind. -/
theorem fitsBest_of_longest? {k : Nat} (h : longest? accepts m words = some (k, x)) :
    ∃ name rest, FitsBest accepts m words name rest x ∧ name.length = k := by
  obtain ⟨⟨name, rest, hfits, hlength⟩, hbest⟩ := (longestUpTo_eq (Nat.le_refl _)).1 k x h
  exact ⟨name, rest, ⟨hfits, fun _ _ _ hf => hlength ▸ hbest _ _ _ hf hf.length_le⟩, hlength⟩

/-- The longest beginning that has a value which accepts the words after it is found. -/
theorem longest?_eq_some_iff {k : Nat} : longest? accepts m words = some (k, x) ↔
    ∃ name rest, FitsBest accepts m words name rest x ∧ name.length = k := by
  refine ⟨fitsBest_of_longest?, ?_⟩
  rintro ⟨name, rest, hbest, rfl⟩
  cases h : longest? accepts m words with
  | none => exact absurd hbest.1 (longest?_eq_none_iff.mp h name rest x)
  | some r =>
    obtain ⟨name', rest', hbest', hlength⟩ := fitsBest_of_longest? (k := r.1) (x := r.2) h
    obtain ⟨rfl, hx⟩ := hbest.unique hbest'
    rw [hlength, ← hx]

end Hearth.NameMap
