import Hearth.Proofs.Text.Utf8
import Mathlib.Data.List.Nodup
import Mathlib.Data.List.Perm.Subperm
import Mathlib.Data.Nat.Digits.Defs

/-!
# How many short texts there are

A text is its bytes, and bytes are the digits of a number; so there are only so many texts of fewer
than a given number of bytes.

## Main definitions

* `Text.code` : a text as a number.

## Main results

* `Text.length_lt_of_short` : how many different short texts there can be.
-/

namespace Hearth.Text

/-- The bytes of a text as digits; one digit more marks the end. -/
def digits (text : String) : List Nat := (bytes text).map UInt8.toNat ++ [1]

/-- A text as a number. -/
def code (text : String) : Nat := Nat.ofDigits 256 (digits text)

theorem digit_lt {text : String} {d : Nat} (h : d ∈ digits text) : d < 256 := by
  obtain h | h := List.mem_append.mp h
  · obtain ⟨byte, -, rfl⟩ := List.mem_map.mp h
    exact byte.toNat_lt
  · obtain rfl := List.mem_singleton.mp h
    decide

theorem digits_code (text : String) : Nat.digits 256 (code text) = digits text :=
  Nat.digits_ofDigits 256 (by decide) _ (fun _ => digit_lt) (by simp [digits])

theorem code_injective : Function.Injective code := by
  intro a b h
  have hdigits : digits a = digits b := by rw [← digits_code a, h, digits_code b]
  have hbytes : bytes a = bytes b :=
    List.map_injective_iff.mpr (fun _ _ => UInt8.toNat_inj.mp) (List.append_cancel_right hdigits)
  exact Option.some.inj ((decode?_bytes a).symm.trans (hbytes ▸ decode?_bytes b))

theorem length_bytes (text : String) : (bytes text).length = text.utf8ByteSize := by
  rw [bytes, ByteArray.toList, loop_toList]
  rfl

theorem code_pos (text : String) : 0 < code text := by
  rw [code, digits, Nat.ofDigits_append, Nat.ofDigits_singleton, mul_one]
  exact Nat.add_pos_right _ (Nat.pow_pos (by decide))

theorem code_lt {text : String} {n : Nat} (h : text.utf8ByteSize < n) : code text < 256 ^ n := by
  refine lt_of_lt_of_le (Nat.ofDigits_lt_base_pow_length (by decide) fun _ => digit_lt)
    (Nat.pow_le_pow_right (by decide) ?_)
  rw [digits, List.length_append, List.length_map, length_bytes]
  exact h

/-- There are fewer than `256 ^ n` texts of fewer than `n` bytes. -/
theorem length_lt_of_short {texts : List String} {n : Nat} (hnodup : texts.Nodup)
    (hshort : ∀ t ∈ texts, t.utf8ByteSize < n) : texts.length < Nat.pow 256 n := by
  have hcodes : (0 :: texts.map code).Nodup := by
    refine List.nodup_cons.mpr ⟨?_, hnodup.map code_injective⟩
    intro hmem
    obtain ⟨t, -, ht⟩ := List.mem_map.mp hmem
    exact absurd ht (code_pos t).ne'
  have hsub : 0 :: texts.map code ⊆ List.range (256 ^ n) := by
    rintro c (_ | ⟨_, hc⟩)
    · exact List.mem_range.mpr (Nat.pow_pos (by decide))
    · obtain ⟨t, ht, rfl⟩ := List.mem_map.mp hc
      exact List.mem_range.mpr (code_lt (hshort t ht))
  have hlength := (List.subperm_of_subset hcodes hsub).length_le
  rwa [List.length_cons, List.length_map, List.length_range, ← Nat.pow_eq] at hlength

end Hearth.Text
