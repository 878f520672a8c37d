import Hearth.Text.Quoted

/-!
# Quoted texts can be told apart

A character that does not show by itself is written after a backslash, by one letter or by its
number in braces, and a quotation mark always has a backslash in front of it. So what is written of
a text between quotation marks ends at the first mark without a backslash, and different texts are
written differently whatever stands behind them.

## Main definitions

* `Text.letters` : the characters that are written as a letter behind a backslash.

## Main results

* `Text.toDigits_inj` : numbers in base sixteen.
* `Text.escape_append_inj` : one character and what follows it.
* `Text.quoted_append_inj` : a quoted text and what follows it.
-/

namespace Hearth.Text

/-! ### Numbers in base sixteen -/

/-- Below the base there is one digit for each number. -/
theorem digitChar_inj {m n : Nat} (hm : m < 16) (hn : n < 16) (h : m.digitChar = n.digitChar) :
    m = n := by
  have hall : ∀ i : Fin 16, ∀ j : Fin 16, i.val.digitChar = j.val.digitChar → i = j := by decide
  exact congrArg Fin.val (hall ⟨m, hm⟩ ⟨n, hn⟩ h)

/-- From the base on there is a digit more than there is without the last one. -/
theorem one_lt_length_toDigits {n : Nat} (h : 16 ≤ n) : 1 < (Nat.toDigits 16 n).length := by
  have := Nat.length_toDigits_pos (b := 16) (n := n / 16)
  rw [Nat.toDigits_of_base_le (by decide) h, List.length_append, List.length_singleton]
  omega

/-- Different numbers have different digits. -/
theorem toDigits_inj (m n : Nat) (h : Nat.toDigits 16 m = Nat.toDigits 16 n) : m = n := by
  induction m using Nat.strongRecOn generalizing n with
  | ind m ih =>
    by_cases hm : m < 16
    · by_cases hn : n < 16
      · rw [Nat.toDigits_of_lt_base hm, Nat.toDigits_of_lt_base hn] at h
        exact digitChar_inj hm hn (List.singleton_inj.mp h)
      · have := one_lt_length_toDigits (Nat.le_of_not_lt hn)
        rw [← h, Nat.toDigits_of_lt_base hm, List.length_singleton] at this
        omega
    · by_cases hn : n < 16
      · have := one_lt_length_toDigits (Nat.le_of_not_lt hm)
        rw [h, Nat.toDigits_of_lt_base hn, List.length_singleton] at this
        omega
      · rw [Nat.toDigits_of_base_le (by decide) (Nat.le_of_not_lt hm),
          Nat.toDigits_of_base_le (n := n) (by decide) (Nat.le_of_not_lt hn)] at h
        obtain ⟨hinit, hlast⟩ := List.append_inj' h rfl
        have hdiv := ih (m / 16) (by omega) (n / 16) hinit
        have hmod := digitChar_inj (Nat.mod_lt m (by decide)) (Nat.mod_lt n (by decide))
          (List.singleton_inj.mp hlast)
        omega

/-- A brace is no digit. -/
theorem brace_notMem_toDigits (n : Nat) : '\x7d' ∉ Nat.toDigits 16 n := by
  induction n using Nat.strongRecOn with
  | ind n ih =>
    have hdigit : ∀ k < 16, k.digitChar ≠ '\x7d' := by decide
    by_cases hn : n < 16
    · rw [Nat.toDigits_of_lt_base hn, List.mem_singleton]
      exact (hdigit n hn).symm
    · rw [Nat.toDigits_of_base_le (by decide) (by omega), List.mem_append, List.mem_singleton]
      rintro (h | h)
      · exact ih (n / 16) (by omega) h
      · exact hdigit (n % 16) (Nat.mod_lt n (by decide)) h.symm

/-! ### One character -/

/-- What ends before a character that it does not hold is found again before it. -/
theorem append_cons_inj {x : Char} {v w r s : List Char} (hv : x ∉ v) (hw : x ∉ w)
    (h : v ++ x :: r = w ++ x :: s) : v = w ∧ r = s := by
  have hfound : ∀ {u t : List Char}, x ∉ u → (u ++ x :: t).takeWhile (· != x) = u := by
    intro u t hu
    have hother : ∀ c ∈ u, (c != x) = true := by
      rintro c hc
      exact bne_iff_ne.mpr fun he => hu (he ▸ hc)
    rw [List.takeWhile_append_of_pos hother]
    simp
  obtain rfl : v = w := by rw [← hfound hv (t := r), h, hfound hw]
  exact ⟨rfl, List.cons_inj_right x |>.mp (List.append_cancel_left h)⟩

/-- The characters that have a letter, each with the letter that stands for it behind a
backslash. -/
def letters : List (Char × Char) :=
  [('\x00', '0'), ('\t', 't'), ('\r', 'r'), ('\n', 'n'), ('\\', '\\'), ('"', '"')]

/-- Each letter stands for one character, and none is the one that stands before a number. -/
theorem letters_inj : ∀ p ∈ letters, p.2 ≠ 'u' ∧ ∀ q ∈ letters, p.2 = q.2 → p = q := by
  decide

/-- A character is written as a letter behind a backslash, as itself, or as its number. -/
theorem escape_cases (c : Char) :
    (∃ l, (c, l) ∈ letters ∧ (escape c).toList = ['\\', l]) ∨
    (c ≠ '\\' ∧ c ≠ '"' ∧ (escape c).toList = [c]) ∨
    (escape c).toList = '\\' :: 'u' :: '\x7b' :: (Nat.toDigits 16 c.toNat ++ ['\x7d']) := by
  unfold escape
  split
  · exact .inl ⟨'0', by decide, rfl⟩
  · exact .inl ⟨'t', by decide, rfl⟩
  · exact .inl ⟨'r', by decide, rfl⟩
  · exact .inl ⟨'n', by decide, rfl⟩
  · exact .inl ⟨'\\', by decide, rfl⟩
  · exact .inl ⟨'"', by decide, rfl⟩
  next hbackslash hquote =>
    split
    · exact .inr (.inl ⟨hbackslash, hquote, String.toList_singleton c⟩)
    · exact .inr (.inr (by simp [hex]))

/-- What is written of a character does not begin with a quotation mark. -/
theorem escape_append_ne (c : Char) (r s : List Char) : (escape c).toList ++ r ≠ '"' :: s := by
  rcases escape_cases c with ⟨l, -, hc⟩ | ⟨-, hquote, hc⟩ | hc <;> simp [*]

/-- A letter behind a backslash is not taken for a number. -/
theorem letter_ne_u {c : Char} (h : (c, 'u') ∈ letters) : False :=
  (letters_inj _ h).1 rfl

/-- Different characters are written differently, whatever stands behind them. -/
theorem escape_append_inj {c d : Char} {r s : List Char}
    (h : (escape c).toList ++ r = (escape d).toList ++ s) : c = d ∧ r = s := by
  rcases escape_cases c with ⟨l, hl, hc⟩ | ⟨hslash, -, hc⟩ | hc <;>
    rcases escape_cases d with ⟨m, hm, hd⟩ | ⟨hslash', -, hd⟩ | hd <;>
    simp only [hc, hd, List.cons_append, List.nil_append, List.cons.injEq, true_and] at h
  · obtain ⟨rfl, hrest⟩ := h
    exact ⟨congrArg Prod.fst ((letters_inj _ hl).2 _ hm rfl), hrest⟩
  · exact absurd h.1.symm hslash'
  · exact (letter_ne_u (h.1 ▸ hl)).elim
  · exact absurd h.1 hslash
  · exact h
  · exact absurd h.1 hslash
  · exact (letter_ne_u (h.1 ▸ hm)).elim
  · exact absurd h.1.symm hslash'
  · rw [List.append_assoc, List.append_assoc] at h
    obtain ⟨hdigits, hrest⟩ := append_cons_inj (brace_notMem_toDigits _)
      (brace_notMem_toDigits _) h
    exact ⟨Char.toNat_inj.mp (toDigits_inj _ _ hdigits), hrest⟩

/-! ### Whole texts -/

/-- The characters of a quoted text. -/
theorem toList_quoted (s : String) :
    (quoted s).toList = '"' :: (s.toList.flatMap fun c => (escape c).toList) ++ ['"'] := by
  simp [quoted, String.toList_join, List.flatMap_map]

/-- Different texts are written differently between quotation marks. -/
theorem flatMap_escape_inj : ∀ {v w : List Char} {r s : List Char},
    (v.flatMap fun c => (escape c).toList) ++ '"' :: r =
      (w.flatMap fun c => (escape c).toList) ++ '"' :: s → v = w ∧ r = s
  | [], [], _, _, h => ⟨rfl, (List.cons.inj h).2⟩
  | [], d :: w, _, _, h => by
    rw [List.flatMap_cons, List.append_assoc] at h
    exact absurd h.symm (escape_append_ne d _ _)
  | c :: v, [], _, _, h => by
    rw [List.flatMap_cons, List.append_assoc] at h
    exact absurd h (escape_append_ne c _ _)
  | c :: v, d :: w, _, _, h => by
    simp only [List.flatMap_cons, List.append_assoc] at h
    obtain ⟨rfl, hmore⟩ := escape_append_inj h
    obtain ⟨rfl, hrest⟩ := flatMap_escape_inj hmore
    exact ⟨rfl, hrest⟩

/-- A quoted text is told from any other, whatever stands behind them. -/
theorem quoted_append_inj {s t : String} {q r : List Char}
    (h : (quoted s).toList ++ q = (quoted t).toList ++ r) : s = t ∧ q = r := by
  simp only [toList_quoted, List.cons_append, List.append_assoc, List.nil_append] at h
  obtain ⟨htexts, hrest⟩ := flatMap_escape_inj (List.cons.inj h).2
  exact ⟨String.toList_inj.mp htexts, hrest⟩

/-- A text is quoted in one way. -/
theorem quoted_injective : Function.Injective quoted := fun s t h =>
  (quoted_append_inj (q := []) (r := []) (by rw [h])).1

end Hearth.Text
