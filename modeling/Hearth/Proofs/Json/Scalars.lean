import Hearth.Json.Print
import Hearth.Json.Read
import Hearth.Proofs.Decimal

/-!
# Strings and numbers in a document

A string is written in quotes, its quotes, backslashes and control characters escaped; a whole
number is written in decimal. Both are read as they were written, whatever stands after a string,
and as long as nothing that would belong to the number stands after a number.

## Main definitions

* `Json.EndsNumber` : the texts that may follow a number.

## Main results

* `Json.readString_quote` : a string.
* `Json.readNumber_natural`, `Json.readNumber_negative` : the whole numbers of 64 bits.
-/

namespace Hearth.Json

/-! ### Strings -/

theorem readHex4_append {cs rest : List Char} {n : Nat} (h : readHex4 cs = some (n, [])) :
    readHex4 (cs ++ rest) = some (n, rest) := by
  match cs, h with
  | [a, b, c, d], h =>
    simp only [readHex4, Option.bind_eq_bind, Option.bind_eq_some_iff, Option.some.injEq,
      Prod.mk.injEq, and_true] at h
    obtain ⟨x, hx, y, hy, z, hz, w, hw, rfl⟩ := h
    simp only [List.cons_append, List.nil_append, readHex4, hx, hy, hz, hw, Option.bind_eq_bind,
      Option.bind_some]
  | a :: b :: c :: d :: e :: es, h =>
    simp [readHex4, Option.bind_eq_some_iff] at h

/-- What stands for a control character after its backslash and `u`. -/
def controlCode (n : Nat) : List Char :=
  ("00" ++ (if n < 0x10 then "0" else "") ++ Text.hex n).toList

theorem readHex4_controlCode : ∀ n < 0x20, readHex4 (controlCode n) = some (n, []) := by
  decide

/-- A control character is read from its code. -/
theorem readCode_control {c : Char} (hc : c.toNat < 0x20) (rest : List Char) :
    readCode (controlCode c.toNat ++ rest) = some (c, rest) := by
  have hlow : ¬ (decide (0xdc00 ≤ c.toNat) && decide (c.toNat ≤ 0xdfff)) = true := by
    simp only [Bool.and_eq_true, decide_eq_true_eq]
    omega
  have hhigh : ¬ (decide (0xd800 ≤ c.toNat) && decide (c.toNat ≤ 0xdbff)) = true := by
    simp only [Bool.and_eq_true, decide_eq_true_eq]
    omega
  rw [readCode, readHex4_append (readHex4_controlCode _ hc), Option.bind_eq_bind, Option.bind_some]
  dsimp only
  rw [if_neg hlow, if_neg hhigh, Char.ofNat_toNat]

theorem readString_code {c : Char} {code rest : List Char}
    (h : readCode (code ++ rest) = some (c, rest)) (before : List Char) (n : Nat) :
    readString before (n + 1) ('\\' :: 'u' :: (code ++ rest)) =
      readString (c :: before) n rest := by
  rw [readString, h]

/-- A character that needs no escape stands for itself. -/
theorem readString_plain {c : Char} (hquote : c ≠ '"') (hbackslash : c ≠ '\\')
    (hcontrol : ¬ c.toNat < 0x20) (before : List Char) (n : Nat) (rest : List Char) :
    readString before (n + 1) (c :: rest) = readString (c :: before) n rest := by
  rw [readString]
  · simp [hcontrol, hbackslash]
  · exact hquote
  · intro d ds hd
    exact absurd hd hbackslash

/-- One character of a string is read in one round. -/
theorem readString_escapeChar (c : Char) (before : List Char) (n : Nat) (rest : List Char) :
    readString before (n + 1) ((escapeChar c).toList ++ rest) =
      readString (c :: before) n rest := by
  unfold escapeChar
  split
  any_goals rfl
  next hquote hbackslash _ _ _ _ _ =>
    split
    · next hcontrol =>
      have hcode : ("\\u00" ++ (if c.toNat < 0x10 then "0" else "") ++ Text.hex c.toNat).toList =
          '\\' :: 'u' :: controlCode c.toNat := by
        simp [controlCode, String.toList_append]
      rw [hcode]
      exact readString_code (readCode_control hcontrol rest) before n
    · next hplain =>
      rw [Char.toString_eq_singleton, String.toList_singleton]
      exact readString_plain hquote hbackslash hplain before n rest

/-- The characters of a string are read up to the closing quote. -/
theorem readString_escaped (cs before : List Char) {n : Nat} (hn : cs.length < n)
    (rest : List Char) :
    readString before n (cs.flatMap (fun c => (escapeChar c).toList) ++ '"' :: rest) =
      some (String.ofList (before.reverse ++ cs), rest) := by
  induction cs generalizing before n with
  | nil =>
    obtain ⟨n, rfl⟩ : ∃ m, n = m + 1 := ⟨n - 1, by simp at hn; omega⟩
    rw [List.flatMap_nil, List.nil_append, List.append_nil, readString]
  | cons c cs ih =>
    obtain ⟨n, rfl⟩ : ∃ m, n = m + 1 := ⟨n - 1, by simp at hn; omega⟩
    rw [List.flatMap_cons, List.append_assoc, readString_escapeChar, ih _ (by simpa using hn),
      List.reverse_cons, List.append_assoc, List.singleton_append]

theorem toList_quote (s : String) : (quote s).toList =
    '"' :: (s.toList.flatMap (fun c => (escapeChar c).toList) ++ ['"']) := by
  rw [quote, String.toList_append, String.toList_append, String.toList_join, List.flatMap_map]
  rfl

theorem length_toList_escapeChar_pos (c : Char) : 0 < (escapeChar c).toList.length := by
  unfold escapeChar
  split
  any_goals decide
  split
  · rw [String.append_assoc, String.toList_append, List.length_append]
    exact Nat.add_pos_left (by decide) _
  · rw [Char.toString_eq_singleton, String.toList_singleton]
    exact Nat.one_pos

theorem length_le_length_escaped (cs : List Char) :
    cs.length ≤ (cs.flatMap fun c => (escapeChar c).toList).length := by
  induction cs with
  | nil => exact Nat.zero_le _
  | cons c cs ih =>
    have hc := length_toList_escapeChar_pos c
    rw [List.flatMap_cons, List.length_append, List.length_cons]
    omega

/-- A string is read as it is written. -/
theorem readString_quote (s : String) (rest : List Char) : ∃ inner,
    (quote s).toList ++ rest = '"' :: inner ∧
      readString [] (inner.length + 1) inner = some (s, rest) := by
  refine ⟨_, by rw [toList_quote, List.cons_append], ?_⟩
  have hlen := length_le_length_escaped s.toList
  rw [List.append_assoc, List.singleton_append, readString_escaped, List.reverse_nil,
    List.nil_append, String.ofList_toList]
  rw [List.length_append]
  omega

/-! ### Numbers -/

/-- What may follow a number: nothing that would belong to it. -/
def EndsNumber (rest : List Char) : Prop :=
  ∀ c ∈ rest.head?, c.isDigit = false ∧ c ≠ '.' ∧ c ≠ 'e' ∧ c ≠ 'E'

theorem EndsNumber.nil : EndsNumber [] := by
  intro c hc
  simp at hc

theorem EndsNumber.cons {c : Char} {rest : List Char} (hdigit : c.isDigit = false) (hdot : c ≠ '.')
    (hsmall : c ≠ 'e') (hlarge : c ≠ 'E') : EndsNumber (c :: rest) := by
  rintro d ⟨⟩
  exact ⟨hdigit, hdot, hsmall, hlarge⟩

/-- The digits at the start of a text end where no digit follows. -/
theorem takeDigits_append {ds rest : List Char} (hds : ∀ c ∈ ds, c.isDigit)
    (hrest : EndsNumber rest) : takeDigits (ds ++ rest) = (ds, rest) := by
  have htake : rest.takeWhile Char.isDigit = [] := by
    cases rest with
    | nil => rfl
    | cons c rest => rw [List.takeWhile_cons_of_neg (by simp [(hrest c rfl).1])]
  have hdrop : rest.dropWhile Char.isDigit = rest := by
    cases rest with
    | nil => rfl
    | cons c rest => rw [List.dropWhile_cons_of_neg (by simp [(hrest c rfl).1])]
  rw [takeDigits, List.takeWhile_append_of_pos hds, List.dropWhile_append_of_pos hds, htake, hdrop,
    List.append_nil]

theorem readExponent_none {rest : List Char} (hrest : EndsNumber rest) :
    readExponent rest = some (none, rest) := by
  cases rest with
  | nil => rfl
  | cons c rest =>
    obtain ⟨-, -, hsmall, hlarge⟩ := hrest c rfl
    simp [readExponent, hsmall, hlarge]

/-- No number is written with a zero in front of other digits. -/
theorem toDigits_ne_zero_cons (n : Nat) (d : Char) (ds : List Char) :
    Nat.toDigits 10 n ≠ '0' :: d :: ds := by
  induction n using Nat.strongRecOn generalizing d ds with
  | ind n ih =>
    rw [Nat.toDigits_eq_if (by decide)]
    split
    · simp
    · next hn =>
      intro h
      match hm : Nat.toDigits 10 (n / 10) with
      | [] => exact Nat.toDigits_ne_nil hm
      | [e] =>
        rw [hm] at h
        simp only [List.cons_append, List.cons.injEq] at h
        have hzero := Decimal.ofDigits_toDigits (n / 10)
        rw [hm, h.1] at hzero
        exact absurd hzero (by simp [Decimal.ofDigits]; omega)
      | e :: f :: es =>
        rw [hm] at h
        simp only [List.cons_append, List.cons.injEq] at h
        exact ih (n / 10) (by omega) f es (h.1 ▸ hm)

/-- A number without decimals and exponent that fits 64 bits is read as a whole number. -/
theorem readNumber_toDigits (negative : Bool) (n : Nat) {rest : List Char}
    (hrest : EndsNumber rest) : readNumber negative (Nat.toDigits 10 n ++ rest) =
      if !negative && n < UInt64.size then some (.int n, rest)
      else if negative && 0 < n && Int64.minValue.toInt ≤ -n then some (.int (-n), rest)
      else (readFloat negative (Nat.toDigits 10 n) [] 0).map fun x => (x, rest) := by
  have hdigits : takeDigits (Nat.toDigits 10 n ++ rest) = (Nat.toDigits 10 n, rest) :=
    takeDigits_append (fun c hc => Decimal.isDigit_of_mem_toDigits hc) hrest
  simp only [readNumber, hdigits]
  split
  · next h => exact absurd h Nat.toDigits_ne_nil
  · next d ds h => exact absurd h (toDigits_ne_zero_cons n d ds)
  split
  · next rest => exact absurd rfl (hrest '.' rfl).2.1
  · simp only [Option.bind_eq_bind, Option.bind_some, readExponent_none hrest,
      Decimal.ofDigits_toDigits]
    split
    · rfl
    split
    · rfl
    · exact Option.map_eq_bind.symm

/-- The digits of a natural number of 64 bits are read as the number. -/
theorem readNumber_natural {n : Nat} (hn : n < UInt64.size) {rest : List Char}
    (hrest : EndsNumber rest) :
    readNumber false (Nat.toDigits 10 n ++ rest) = some (.int n, rest) := by
  rw [readNumber_toDigits false n hrest, if_pos (by simpa using hn)]

/-- The digits behind a minus are read as the negative number, if it fits 64 bits. -/
theorem readNumber_negative {n : Nat} (hpos : 0 < n) (hn : Int64.minValue.toInt ≤ -n)
    {rest : List Char} (hrest : EndsNumber rest) :
    readNumber true (Nat.toDigits 10 n ++ rest) = some (.int (-n), rest) := by
  have hfits : (true && decide (0 < n) && decide (Int64.minValue.toInt ≤ -n)) = true := by
    rw [Bool.true_and, decide_eq_true hpos, Bool.true_and, decide_eq_true hn]
  rw [readNumber_toDigits true n hrest, if_neg (by simp), if_pos hfits]

end Hearth.Json
