import Hearth.Decimal.Whole
import Hearth.Text.Blank

/-!
# Numbers are read as they are written

A whole number is written with a minus if it is negative, and the digits of its size. What is read
of that is the number again.

## Main results

* `Decimal.readInt_toString` : a whole number.
* `Decimal.readInt64_ofInt64` : a word of 64 bits.
-/

namespace Hearth.Decimal

/-- Digits that are written are read as the number. -/
theorem ofDigits_toDigits (n : Nat) : ofDigits (Nat.toDigits 10 n) = n :=
  Nat.ofDigitChars_ten_toDigits

/-- Different natural numbers are written differently. -/
theorem toString_injective : Function.Injective (toString : Nat → String) := fun m n h => by
  have hdigits : Nat.toDigits 10 m = Nat.toDigits 10 n := by
    rw [← Nat.toList_repr, ← Nat.toList_repr]
    exact congrArg String.toList h
  rw [← ofDigits_toDigits m, hdigits, ofDigits_toDigits]

/-- What is written of a natural number is digits. -/
theorem isDigit_of_mem_toDigits {n : Nat} {c : Char} (hc : c ∈ Nat.toDigits 10 n) : c.isDigit :=
  Nat.isDigit_of_mem_toDigits (by decide) (by decide) hc

/-- No digit is a blank. -/
theorem isBlank_of_isDigit {c : Char} (hc : c.isDigit) : Text.isBlank c = false := by
  have hrange : 0x30 ≤ c.toNat ∧ c.toNat ≤ 0x39 := Char.isDigit_iff_toNat.mp hc
  simp only [Text.isBlank, Bool.or_eq_false_iff, beq_eq_false_iff_ne, Bool.and_eq_false_iff,
    decide_eq_false_iff_not]
  omega

/-- A whole number is written with a minus if it is negative, and digits. -/
theorem toList_toString (n : Int) :
    (toString n).toList = (if n < 0 then ['-'] else []) ++ Nat.toDigits 10 n.natAbs := by
  rw [Int.toString_eq_repr, Int.repr_eq_if]
  split
  · next h =>
    rw [if_neg (by omega), Nat.toList_repr, List.nil_append]
    congr 1
    omega
  · next h =>
    rw [if_pos (by omega), String.toList_append, Nat.toList_repr]
    congr 2
    omega

theorem readNat_toDigits (n : Nat) : readNat (Nat.toDigits 10 n) = some n := by
  have hdigits : ((Nat.toDigits 10 n).any fun c => !c.isDigit) = false := by
    rw [List.any_eq_false]
    intro c hc
    simp [isDigit_of_mem_toDigits hc]
  rw [readNat, List.isEmpty_eq_false_iff.mpr Nat.toDigits_ne_nil, hdigits, Bool.or_self,
    if_neg Bool.false_ne_true, ofDigits_toDigits]

/-- A whole number is read as it is written. -/
theorem readInt_toString (n : Int) : readInt (toString n) = some n := by
  rw [readInt, toList_toString]
  by_cases hn : n < 0
  · rw [if_pos hn, List.singleton_append]
    simp only [readNat_toDigits, Option.map_some, Int.ofNat_eq_natCast]
    congr 1
    omega
  · rw [if_neg hn, List.nil_append]
    split
    · next rest h =>
      have hplus := isDigit_of_mem_toDigits (h ▸ List.mem_cons_self)
      exact absurd hplus (by decide)
    · next rest h =>
      have hminus := isDigit_of_mem_toDigits (h ▸ List.mem_cons_self)
      exact absurd hminus (by decide)
    · rw [readNat_toDigits, Option.map_some, Int.ofNat_eq_natCast]
      congr 1
      omega

/-- The value of a word of 64 bits fits. -/
theorem toInt64?_toInt (n : Int64) : toInt64? n.toInt = some n := by
  rw [toInt64?, if_pos, Int64.ofInt_toInt]
  exact Bool.and_eq_true_iff.mpr ⟨decide_eq_true n.minValue_le_toInt, decide_eq_true n.toInt_le⟩

/-- A word of 64 bits is read as it is written. -/
theorem readInt64_ofInt64 (n : Int64) : readInt64 (ofInt64 n) = some n := by
  rw [readInt64, ofInt64, readInt_toString, Option.bind_eq_bind, Option.bind_some, toInt64?_toInt]

/-- Different words of 64 bits are written differently. -/
theorem ofInt64_injective : Function.Injective ofInt64 := fun m n h =>
  Option.some.inj (by rw [← readInt64_ofInt64 m, h, readInt64_ofInt64])

/-- What is written of a word of 64 bits is digits, perhaps after a minus. -/
theorem of_mem_ofInt64 {n : Int64} {c : Char} (hc : c ∈ (ofInt64 n).toList) :
    c = '-' ∨ c.isDigit := by
  rw [ofInt64, toList_toString, List.mem_append] at hc
  rcases hc with hc | hc
  · split at hc
    · exact .inl (List.mem_singleton.mp hc)
    · exact absurd hc List.not_mem_nil
  · exact .inr (isDigit_of_mem_toDigits hc)

theorem toList_ofInt64_ne_nil (n : Int64) : (ofInt64 n).toList ≠ [] := by
  rw [ofInt64, toList_toString]
  exact List.append_ne_nil_of_right_ne_nil _ Nat.toDigits_ne_nil

end Hearth.Decimal
