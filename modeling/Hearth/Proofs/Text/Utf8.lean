import Hearth.Text.Utf8
import Mathlib.Tactic.SplitIfs

/-!
# Bytes of a text

A text is written as bytes character by character, in one to four bytes each. What is read of these
bytes is the text.

## Main results

* `Text.decodeChars_encode` : the bytes of one character, whatever follows.
* `Text.decode?_bytes` : the bytes of a text.
-/

namespace Hearth.Text

/-! ### One character -/

/-- A byte below the first of the longer forms is a character of its own. -/
theorem decodeOne_one {b : UInt8} {rest : Bytes} (hb : b.toNat < 0x80) :
    decodeOne b rest = (some (Char.ofNat b.toNat), 0) := if_pos hb

section Longer

variable {b b₁ b₂ b₃ : UInt8} (rest : Bytes) {low high : Nat}

/-- No byte that leads a longer form is a character of its own. -/
theorem not_lt_of_leading {count : Nat} (hb : leading b = some (low, high, count)) :
    ¬ b.toNat < 0x80 := by
  intro hlt
  have hnone : leading b = none := by
    unfold leading
    simp only [Bool.and_eq_true, decide_eq_true_eq, beq_iff_eq]
    split_ifs <;> first | rfl | omega
  simp [hnone] at hb

theorem decodeOne_two (hb : leading b = some (low, high, 1)) (h₁ : within low high b₁) :
    decodeOne b (b₁ :: rest) = (some (Char.ofNat (b.toNat % 32 * 64 + tailBits b₁)), 1) := by
  rw [decodeOne, if_neg (not_lt_of_leading hb), hb]
  simp [h₁]

theorem decodeOne_three (hb : leading b = some (low, high, 2)) (h₁ : within low high b₁)
    (h₂ : within 0x80 0xbf b₂) : decodeOne b (b₁ :: b₂ :: rest) =
      (some (Char.ofNat ((b.toNat % 16 * 64 + tailBits b₁) * 64 + tailBits b₂)), 2) := by
  rw [decodeOne, if_neg (not_lt_of_leading hb), hb]
  simp [h₁, h₂]

theorem decodeOne_four (hb : leading b = some (low, high, 3)) (h₁ : within low high b₁)
    (h₂ : within 0x80 0xbf b₂) (h₃ : within 0x80 0xbf b₃) :
    decodeOne b (b₁ :: b₂ :: b₃ :: rest) = (some (Char.ofNat
      (((b.toNat % 8 * 64 + tailBits b₁) * 64 + tailBits b₂) * 64 + tailBits b₃)), 3) := by
  rw [decodeOne, if_neg (not_lt_of_leading hb), hb]
  simp [h₁, h₂, h₃]

end Longer

/-- A byte that leads a form of two bytes. -/
theorem leading_two {b : UInt8} (hlow : 0xc2 ≤ b.toNat) (hhigh : b.toNat ≤ 0xdf) :
    leading b = some (0x80, 0xbf, 1) := by
  simp [leading, hlow, hhigh]

/-- A byte that leads a form of three bytes, and what may follow it. The forms that a shorter one
or half of a pair would have are left out. -/
theorem leading_three {b c : UInt8} (hlow : 0xe0 ≤ b.toNat) (hhigh : b.toNat ≤ 0xef)
    (h₁ : 0x80 ≤ c.toNat ∧ c.toNat ≤ 0xbf) (hshort : b.toNat = 0xe0 → 0xa0 ≤ c.toNat)
    (hpair : b.toNat = 0xed → c.toNat ≤ 0x9f) :
    ∃ low high, leading b = some (low, high, 2) ∧ within low high c := by
  unfold leading within
  simp only [Bool.and_eq_true, decide_eq_true_eq, beq_iff_eq]
  split_ifs <;> first | omega | exact ⟨_, _, rfl, by omega⟩

/-- A byte that leads a form of four bytes, and what may follow it. -/
theorem leading_four {b c : UInt8} (hlow : 0xf0 ≤ b.toNat) (hhigh : b.toNat ≤ 0xf4)
    (h₁ : 0x80 ≤ c.toNat ∧ c.toNat ≤ 0xbf) (hshort : b.toNat = 0xf0 → 0x90 ≤ c.toNat)
    (hlast : b.toNat = 0xf4 → c.toNat ≤ 0x8f) :
    ∃ low high, leading b = some (low, high, 3) ∧ within low high c := by
  unfold leading within
  simp only [Bool.and_eq_true, decide_eq_true_eq, beq_iff_eq]
  split_ifs <;> first | omega | exact ⟨_, _, rfl, by omega⟩

/-- A byte after the first of a form. -/
theorem within_tail {b : UInt8} {n : Nat} (hb : b.toNat = n % 64 + 128) : within 0x80 0xbf b := by
  simp only [within, Bool.and_eq_true, decide_eq_true_eq]
  omega

theorem tailBits_tail {b : UInt8} {n : Nat} (hb : b.toNat = n % 64 + 128) :
    tailBits b = n % 64 := by
  simp only [tailBits]
  omega

theorem decodeChars_cons (b : UInt8) (rest : Bytes) : decodeChars (b :: rest) =
    (decodeOne b rest).1 :: decodeChars (rest.drop (decodeOne b rest).2) := by
  rw [decodeChars]

/-- The bytes of a character are read as the character. -/
theorem decodeChars_encode (c : Char) (rest : Bytes) :
    decodeChars (String.utf8EncodeChar c ++ rest) = some c :: decodeChars rest := by
  have hvalid : c.val.toNat < 0xd800 ∨ 0xdfff < c.val.toNat ∧ c.val.toNat < 0x110000 := c.valid
  have hc : Char.ofNat c.val.toNat = c := Char.ofNat_toNat c
  have hbyte {n : Nat} (hn : n < 256) : (UInt8.ofNat n).toNat = n := UInt8.toNat_ofNat_of_lt hn
  have htail (n : Nat) : (UInt8.ofNat (n % 64 + 128)).toNat = n % 64 + 128 := hbyte (by omega)
  dsimp only [String.utf8EncodeChar]
  generalize c.val.toNat = v at hc hvalid ⊢
  split
  · next hone =>
    have hb := hbyte (n := v) (by omega)
    rw [List.singleton_append, decodeChars_cons, decodeOne_one (by omega), hb, hc, List.drop_zero]
  split
  · next htwo =>
    have hb := hbyte (n := v / 64 % 32 + 192) (by omega)
    have h := decodeOne_two (b := UInt8.ofNat (v / 64 % 32 + 192)) rest
      (leading_two (by omega) (by omega)) (within_tail (htail v))
    rw [hb, tailBits_tail (htail v),
      show (v / 64 % 32 + 192) % 32 * 64 + v % 64 = v by omega, hc] at h
    rw [List.cons_append, List.singleton_append, decodeChars_cons, h]
    rfl
  split
  · next hthree =>
    have hb := hbyte (n := v / 4096 % 16 + 224) (by omega)
    have h₁ := htail (v / 64)
    obtain ⟨low, high, hlead, hwithin⟩ := leading_three (b := UInt8.ofNat (v / 4096 % 16 + 224))
      (c := UInt8.ofNat (v / 64 % 64 + 128)) (by omega) (by omega) (by omega) (by omega)
      (by omega)
    have h := decodeOne_three rest hlead hwithin (within_tail (htail v))
    rw [hb, tailBits_tail h₁, tailBits_tail (htail v),
      show ((v / 4096 % 16 + 224) % 16 * 64 + v / 64 % 64) * 64 + v % 64 = v by omega, hc] at h
    rw [List.cons_append, List.cons_append, List.singleton_append, decodeChars_cons, h]
    rfl
  · next hfour =>
    have hb := hbyte (n := v / 262144 % 8 + 240) (by omega)
    have h₁ := htail (v / 4096)
    have h₂ := htail (v / 64)
    obtain ⟨low, high, hlead, hwithin⟩ := leading_four (b := UInt8.ofNat (v / 262144 % 8 + 240))
      (c := UInt8.ofNat (v / 4096 % 64 + 128)) (by omega) (by omega) (by omega) (by omega)
      (by omega)
    have h := decodeOne_four rest hlead hwithin (within_tail h₂) (within_tail (htail v))
    rw [hb, tailBits_tail h₁, tailBits_tail h₂, tailBits_tail (htail v),
      show (((v / 262144 % 8 + 240) % 8 * 64 + v / 4096 % 64) * 64 + v / 64 % 64) * 64 + v % 64 = v
        by omega, hc] at h
    rw [List.cons_append, List.cons_append, List.cons_append, List.singleton_append,
      decodeChars_cons, h]
    rfl

/-! ### Texts -/

theorem loop_toList (bs : ByteArray) (i : Nat) (before : List UInt8) :
    ByteArray.toList.loop bs i before = before.reverse ++ bs.data.toList.drop i := by
  have hsize : bs.data.toList.length = bs.size := Array.length_toList
  induction hn : bs.size - i generalizing i before with
  | zero =>
    rw [ByteArray.toList.loop, if_neg (by omega), List.drop_eq_nil_of_le (by omega),
      List.append_nil]
  | succ n ih =>
    have hi : i < bs.data.toList.length := by omega
    have hget : bs.get! i = bs.data.toList[i] := by
      rw [Array.getElem_toList]
      exact getElem!_pos bs.data i (by omega)
    rw [ByteArray.toList.loop, if_pos (by omega), ih (i + 1) _ (by omega), List.reverse_cons,
      List.append_assoc, List.drop_eq_getElem_cons hi, List.singleton_append, hget]

/-- The bytes of a text are those of its characters. -/
theorem bytes_eq (s : String) : bytes s = s.toList.flatMap String.utf8EncodeChar := by
  have hs : s.toUTF8 = s.toList.utf8Encode := by
    rw [← String.toByteArray_ofList, String.ofList_toList]
    rfl
  rw [bytes, ByteArray.toList, loop_toList, hs, List.utf8Encode, List.data_toByteArray]
  rfl

theorem decodeChars_flatMap (cs : List Char) :
    decodeChars (cs.flatMap String.utf8EncodeChar) = cs.map some := by
  induction cs with
  | nil => rw [List.flatMap_nil, decodeChars, List.map_nil]
  | cons c cs ih => rw [List.flatMap_cons, decodeChars_encode, ih, List.map_cons]

/-- The bytes of a text are read as the text. -/
theorem decode?_bytes (s : String) : decode? (bytes s) = some s := by
  have hall : (s.toList.map some).mapM id = some s.toList := by
    rw [List.mapM_map]
    have hpure := List.mapM_pure (m := Option) (l := s.toList) (f := id)
    rwa [List.map_id] at hpure
  rw [decode?, bytes_eq, decodeChars_flatMap, hall, Option.map_some, String.ofList_toList]

end Hearth.Text
