import Mathlib.Data.List.Basic

/-!
# Results and entries

Facts that the theories of the parts share: work that can fail and is done in two parts, and what is
found in a list of entries after an entry was put in front, or all entries of a key were taken away.

## Main results

* `exists_of_bind_eq_ok`, `bind_eq_error` : work in two parts that ends well, or fails.
* `lookup_cons_eq`, `lookup_filter` : what is found after a change.
-/

namespace Hearth

/-- Work in two parts that ends well has a first part that does. -/
theorem exists_of_bind_eq_ok {ε α β : Type} {x : Except ε α} {f : α → Except ε β} {b : β}
    (h : x >>= f = .ok b) : ∃ a, x = .ok a ∧ f a = .ok b := by
  cases x with
  | error e => cases h
  | ok a => exact ⟨a, rfl, h⟩

/-- Work in two parts that fails does so in one of them. -/
theorem bind_eq_error {ε α β : Type} {x : Except ε α} {f : α → Except ε β} {e : ε}
    (h : x >>= f = .error e) : x = .error e ∨ ∃ a, x = .ok a ∧ f a = .error e := by
  cases x with
  | error e' =>
    cases h
    exact .inl rfl
  | ok a => exact .inr ⟨a, rfl, h⟩

variable {κ α : Type*} [BEq κ] [LawfulBEq κ] [DecidableEq κ] (l : List (κ × α))

theorem lookup_cons_eq (key k : κ) (v : α) :
    ((key, v) :: l).lookup k = if k = key then some v else l.lookup k := by
  rw [List.lookup_cons]
  by_cases hk : k = key
  · rw [if_pos hk, hk, beq_self_eq_true]
  · rw [if_neg hk, beq_eq_false_iff_ne.mpr hk]

/-- An entry that was taken away is not found any more, and the others are found as before. -/
theorem lookup_filter (key k : κ) :
    (l.filter (·.1 != key)).lookup k = if k = key then none else l.lookup k := by
  induction l with
  | nil => split <;> rfl
  | cons entry rest ih =>
    obtain ⟨k', v⟩ := entry
    rw [List.filter_cons]
    split
    · next hne =>
      rw [lookup_cons_eq, lookup_cons_eq, ih]
      have hne : k' ≠ key := bne_iff_ne.mp hne
      split
      · next hk => rw [if_neg (hk ▸ hne)]
      · rfl
    · next heq =>
      obtain rfl : k' = key := by simpa using heq
      rw [lookup_cons_eq, ih]
      split <;> rfl

end Hearth
