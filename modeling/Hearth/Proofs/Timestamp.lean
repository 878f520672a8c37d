import Hearth.Proofs.Decimal
import Hearth.Timestamp.Read
import Mathlib.Data.List.TakeWhile
import Mathlib.Tactic.IntervalCases

/-!
# Points in time are read as they are written

A point in time is written as a day of the calendar and a time of day. Days are counted in eras of
400 years, and the years of an era from March on, so that the day that a leap year adds is the last
one. The date of a number of days is a day of the calendar, and the number of days of that date is
the number again.

## Main definitions

* `Timestamp.InRange` : the points in time whose year can be read.

## Main results

* `Timestamp.daysOf_dateOf` : the day of a date.
* `Timestamp.isDate_dateOf` : a date is one of the calendar.
* `Timestamp.ofText?_stored` : a stored point in time.
-/

namespace Hearth.Timestamp

/-! ### The calendar -/

/-- The days before a year of an era, for years that begin in March. -/
def daysBefore (year : Int) : Int := 365 * year + year / 4 - year / 100 + year / 400

/-- The year of an era that a day lies in. -/
theorem daysBefore_le_lt {n y : Int} (hn : 0 ≤ n) (hlt : n < 146097)
    (hy : y = (n - n / 1460 + n / 36524 - n / 146096) / 365) :
    0 ≤ y ∧ y < 400 ∧ daysBefore y ≤ n ∧ n < daysBefore (y + 1) := by
  have hrange : 0 ≤ y ∧ y < 400 := by omega
  refine ⟨hrange.1, hrange.2, ?_⟩
  unfold daysBefore
  obtain rfl | hlast : n = 146096 ∨ n < 146096 := by omega
  · omega
  have hzero : n / 146096 = 0 := by omega
  rw [hzero] at hy
  have hera : y / 400 = 0 := by omega
  have hcentury : y / 100 = n / 36524 := by omega
  have hcenturies : n / 36524 = 0 ∨ n / 36524 = 1 ∨ n / 36524 = 2 ∨ n / 36524 = 3 := by omega
  have hleap : y % 4 = 0 ∨ y % 4 = 1 ∨ y % 4 = 2 ∨ y % 4 = 3 := by omega
  constructor
  · obtain h | h | h | h := hcenturies <;> obtain j | j | j | j := hleap <;> omega
  by_cases hend : y % 100 = 99
  · obtain h | h | h | h := hcenturies <;> omega
  · have hnext : (y + 1) / 100 = y / 100 := by omega
    have hnone : (y + 1) / 400 = 0 := by omega
    rw [hnext, hnone]
    obtain h | h | h | h := hcenturies <;> obtain j | j | j | j := hleap <;> omega

/-- The date of a day of a year, for years that begin in March. -/
def dateAt (year dayOfYear : Int) : Int × Nat × Nat :=
  let shifted := (5 * dayOfYear + 2) / 153
  let day := dayOfYear - (153 * shifted + 2) / 5 + 1
  let month := if shifted < 10 then shifted + 3 else shifted - 9
  (year + (if month ≤ 2 then 1 else 0), month.toNat, day.toNat)

/-- A number of days is a number of eras, of years of an era and of days of a year. -/
theorem exists_dateOf_eq (days : Int) : ∃ era year day : Int, 0 ≤ year ∧ year < 400 ∧ 0 ≤ day ∧
    day < daysBefore (year + 1) - daysBefore year ∧
    days = era * 146097 + daysBefore year + day - 719468 ∧
    dateOf days = dateAt (year + era * 400) day := by
  obtain ⟨era, hera⟩ : ∃ era, era = (days + 719468).fdiv 146097 := ⟨_, rfl⟩
  obtain ⟨n, hn⟩ : ∃ n, n = days + 719468 - era * 146097 := ⟨_, rfl⟩
  obtain ⟨y, hy⟩ : ∃ y, y = (n - n / 1460 + n / 36524 - n / 146096) / 365 := ⟨_, rfl⟩
  have hdate : dateOf days = dateAt (y + era * 400) (n - (365 * y + y / 4 - y / 100)) := by
    rw [dateOf, dateAt, ← hera, ← hn, ← hy]
  rw [Int.fdiv_eq_ediv_of_nonneg _ (by decide)] at hera
  obtain ⟨hyear, hlast, hbefore, hday⟩ := daysBefore_le_lt (by omega) (by omega) hy
  have hstart : daysBefore y = 365 * y + y / 4 - y / 100 := by
    unfold daysBefore
    omega
  rw [← hstart] at hdate
  exact ⟨era, y, n - daysBefore y, hyear, hlast, by omega, by omega, by omega, hdate⟩

/-- A day of a year is a day of a month of that year or, from January on, of the next. -/
theorem dateAt_cases (year : Int) {day : Int} (hday : 0 ≤ day) (hlast : day ≤ 365) :
    ∃ shifted dayOfMonth : Nat, (shifted : Int) = (5 * day + 2) / 153 ∧
      (dayOfMonth : Int) = day - (153 * shifted + 2) / 5 + 1 ∧
      (shifted < 10 ∧ dateAt year day = (year, shifted + 3, dayOfMonth) ∨
        10 ≤ shifted ∧ dateAt year day = (year + 1, shifted - 9, dayOfMonth)) := by
  obtain ⟨shifted, hshifted⟩ := Int.eq_ofNat_of_zero_le (a := (5 * day + 2) / 153) (by omega)
  obtain ⟨n, hn⟩ := Int.eq_ofNat_of_zero_le (a := day - (153 * shifted + 2) / 5 + 1) (by omega)
  refine ⟨shifted, n, hshifted.symm, hn.symm, ?_⟩
  rw [dateAt, hshifted, hn]
  by_cases hspring : shifted < 10
  · rw [if_pos (show (shifted : Int) < 10 by omega),
      if_neg (show ¬ (shifted : Int) + 3 ≤ 2 by omega), Int.add_zero]
    exact .inl ⟨hspring, rfl⟩
  · rw [if_neg (show ¬ (shifted : Int) < 10 by omega),
      if_pos (show (shifted : Int) - 9 ≤ 2 by omega)]
    refine .inr ⟨by omega, ?_⟩
    rw [show ((shifted : Int) - 9).toNat = shifted - 9 by omega]
    rfl

/-- A day of the calendar. -/
structure IsDate (year : Int) (month day : Nat) : Prop where
  month_pos : 1 ≤ month
  month_le : month ≤ 12
  day_pos : 1 ≤ day
  day_le : day ≤ monthLength year month

section Dates

variable {era year day : Int}

/-- The day of the date of a day. -/
theorem daysOf_dateAt (hyear : 0 ≤ year ∧ year < 400) (hday : 0 ≤ day)
    (hlast : day < daysBefore (year + 1) - daysBefore year) :
    daysOf (dateAt (year + era * 400) day).1 (dateAt (year + era * 400) day).2.1
      (dateAt (year + era * 400) day).2.2 = era * 146097 + daysBefore year + day - 719468 := by
  unfold daysBefore at hlast ⊢
  have hera : (year + era * 400).fdiv 400 = era := by
    rw [Int.fdiv_eq_ediv_of_nonneg _ (by decide)]
    omega
  obtain ⟨shifted, n, hshifted, hn, ⟨hspring, hdate⟩ | ⟨hwinter, hdate⟩⟩ :=
    dateAt_cases (year + era * 400) hday (by omega)
  · rw [hdate, daysOf, if_neg (show ¬ shifted + 3 ≤ 2 by omega),
      if_neg (show ¬ shifted + 3 ≤ 2 by omega), hera]
    dsimp only
    omega
  · rw [hdate, daysOf, if_pos (show shifted - 9 ≤ 2 by omega),
      if_pos (show shifted - 9 ≤ 2 by omega), Int.add_sub_cancel, hera]
    dsimp only
    omega

/-- A leap year has a day more before the next year begins. -/
theorem isLeap_of_daysBefore (hyear : 0 ≤ year ∧ year < 400)
    (hlong : daysBefore (year + 1) - daysBefore year = 366) :
    isLeap (year + era * 400 + 1) = true := by
  unfold daysBefore at hlong
  have hyears : (year + 1) % 4 = 0 ∧ ((year + 1) % 100 ≠ 0 ∨ (year + 1) % 400 = 0) := by omega
  simp only [isLeap, Bool.and_eq_true, Bool.or_eq_true, beq_iff_eq, bne_iff_ne]
  omega

/-- The date of a day is a date of the calendar. -/
theorem isDate_dateAt (hyear : 0 ≤ year ∧ year < 400) (hday : 0 ≤ day)
    (hlast : day < daysBefore (year + 1) - daysBefore year) :
    IsDate (dateAt (year + era * 400) day).1 (dateAt (year + era * 400) day).2.1
      (dateAt (year + era * 400) day).2.2 := by
  have hlength : daysBefore (year + 1) - daysBefore year = 365 ∨
      daysBefore (year + 1) - daysBefore year = 366 := by
    unfold daysBefore
    omega
  obtain ⟨shifted, n, hshifted, hn, ⟨hspring, hdate⟩ | ⟨hwinter, hdate⟩⟩ :=
    dateAt_cases (year + era * 400) hday (by omega)
  · rw [hdate]
    refine ⟨by dsimp only; omega, by dsimp only; omega, by dsimp only; omega, ?_⟩
    dsimp only
    interval_cases shifted <;> simp only [monthLength] <;> omega
  · rw [hdate]
    refine ⟨by dsimp only; omega, by dsimp only; omega, by dsimp only; omega, ?_⟩
    obtain rfl | rfl : shifted = 10 ∨ shifted = 11 := by omega
    · change n ≤ 31
      omega
    · change n ≤ if isLeap (year + era * 400 + 1) then 29 else 28
      obtain hshort | hlong := hlength
      · split <;> omega
      · rw [if_pos (isLeap_of_daysBefore hyear hlong)]
        omega

end Dates

/-- The days of the date of a number of days are that number. -/
theorem daysOf_dateOf (days : Int) :
    daysOf (dateOf days).1 (dateOf days).2.1 (dateOf days).2.2 = days := by
  obtain ⟨era, year, day, hyear, hend, hday, hlast, hdays, hdate⟩ := exists_dateOf_eq days
  rw [hdate, daysOf_dateAt ⟨hyear, hend⟩ hday hlast, hdays]

/-- The date of a number of days is a day of the calendar. -/
theorem isDate_dateOf (days : Int) :
    IsDate (dateOf days).1 (dateOf days).2.1 (dateOf days).2.2 := by
  obtain ⟨era, year, day, hyear, hend, hday, hlast, hdays, hdate⟩ := exists_dateOf_eq days
  rw [hdate]
  exact isDate_dateAt ⟨hyear, hend⟩ hday hlast

/-! ### Numbers with zeros in front -/

theorem toList_padded (width n : Nat) : (padded width n).toList =
    List.replicate (width - (Nat.toDigits 10 n).length) '0' ++ Nat.toDigits 10 n := by
  have htext : (toString n).toList = Nat.toDigits 10 n := Nat.toList_repr
  rw [padded, String.toList_append, String.toList_ofList, htext, ← String.length_toList, htext]

theorem length_padded {width n : Nat} (hwidth : 0 < width) (hn : n < 10 ^ width) :
    (padded width n).toList.length = width := by
  have hlen := (Nat.length_toDigits_le_iff (by decide) hwidth).mpr hn
  rw [toList_padded, List.length_append, List.length_replicate]
  omega

theorem isDigit_of_mem_padded {width n : Nat} {c : Char} (hc : c ∈ (padded width n).toList) :
    c.isDigit := by
  rw [toList_padded, List.mem_append] at hc
  obtain hzero | hdigit := hc
  · rw [List.eq_of_mem_replicate hzero]
    rfl
  · exact Decimal.isDigit_of_mem_toDigits hdigit

theorem padded_ne_nil (width n : Nat) : (padded width n).toList ≠ [] := by
  rw [toList_padded]
  exact List.append_ne_nil_of_right_ne_nil _ Nat.toDigits_ne_nil

theorem ofDigits_padded (width n : Nat) : Decimal.ofDigits (padded width n).toList = n := by
  rw [toList_padded]
  induction width - (Nat.toDigits 10 n).length with
  | zero => exact Decimal.ofDigits_toDigits n
  | succ k ih => rwa [List.replicate_succ, List.cons_append]

theorem skipBlanks_cons {c : Char} (hc : Text.isBlank c = false) (cs : List Char) :
    skipBlanks (c :: cs) = c :: cs :=
  List.dropWhile_cons_of_neg (Bool.eq_false_iff.mp hc)

theorem skipBlanks_padded (width n : Nat) (rest : List Char) :
    skipBlanks ((padded width n).toList ++ rest) = (padded width n).toList ++ rest := by
  obtain ⟨c, cs, hcs⟩ := List.exists_cons_of_ne_nil (padded_ne_nil width n)
  rw [hcs, List.cons_append]
  exact skipBlanks_cons
    (Decimal.isBlank_of_isDigit (isDigit_of_mem_padded (hcs ▸ List.mem_cons_self))) _

theorem takeWhile_padded (width n : Nat) :
    (padded width n).toList.takeWhile Char.isDigit = (padded width n).toList :=
  List.takeWhile_eq_self_iff.mpr fun _ hc => isDigit_of_mem_padded hc

/-- A number of a given width is read as it is written. -/
theorem takeNumber_padded {width n : Nat} (hwidth : 0 < width) (hn : n < 10 ^ width)
    (rest : List Char) :
    takeNumber width ((padded width n).toList ++ rest) = some (n, rest) := by
  have hlen := length_padded hwidth hn
  have htake : ((padded width n).toList ++ rest).take width = (padded width n).toList :=
    List.take_left' hlen
  rw [takeNumber, skipBlanks_padded, htake]
  rw [takeWhile_padded, if_neg (by simpa using padded_ne_nil width n), ofDigits_padded,
    List.drop_left]

/-- The digits behind a sign are read up to the first character that is none. -/
theorem takeDigits_padded (width n : Nat) {c : Char} (hc : c.isDigit = false) (rest : List Char) :
    takeDigits ((padded width n).toList ++ c :: rest) = some (n, c :: rest) := by
  have hdigits (d : Char) (hd : d ∈ (padded width n).toList) := isDigit_of_mem_padded hd
  have hstop : ¬ c.isDigit = true := Bool.eq_false_iff.mp hc
  rw [takeDigits, List.takeWhile_append_of_pos hdigits, List.dropWhile_append_of_pos hdigits,
    List.takeWhile_cons_of_neg hstop, List.dropWhile_cons_of_neg hstop, List.append_nil]
  rw [if_neg (by simpa using padded_ne_nil width n), ofDigits_padded]

/-! ### The parts of a point in time -/

/-- A year as it is written: one of more than four digits has a sign. -/
def yearText (year : Int) : String :=
  if 0 ≤ year && year ≤ 9999 then padded 4 year.toNat
  else (if year < 0 then "-" else "+") ++ padded 4 year.natAbs

/-- The decimals of a second. -/
def fractionText (nanos : Nat) : String :=
  if nanos == 0 then ""
  else if nanos % 1000000 == 0 then "." ++ padded 3 (nanos / 1000000)
  else if nanos % 1000 == 0 then "." ++ padded 6 (nanos / 1000)
  else "." ++ padded 9 nanos

/-- A year is read as it is written. -/
theorem takeYear_yearText (year : Int) (rest : List Char) :
    takeYear ((yearText year).toList ++ '-' :: rest) = some (year, '-' :: rest) := by
  unfold yearText
  split
  · next hfour =>
    simp only [Bool.and_eq_true, decide_eq_true_eq] at hfour
    have hread : takeNumber 4 ((padded 4 year.toNat).toList ++ '-' :: rest) =
        some (year.toNat, '-' :: rest) := takeNumber_padded (by decide) (by omega) _
    rw [takeYear, skipBlanks_padded]
    obtain ⟨c, cs, hcs⟩ := List.exists_cons_of_ne_nil (padded_ne_nil 4 year.toNat)
    have hc : c.isDigit := isDigit_of_mem_padded (hcs ▸ List.mem_cons_self)
    rw [hcs, List.cons_append] at hread ⊢
    split
    · next heq =>
      obtain ⟨rfl, -⟩ := List.cons.inj heq
      exact absurd hc (by decide)
    · next heq =>
      obtain ⟨rfl, -⟩ := List.cons.inj heq
      exact absurd hc (by decide)
    · rw [hread, Option.map_some]
      exact congrArg (fun n => some (n, '-' :: rest)) (Int.toNat_of_nonneg hfour.1)
  · have hread := takeDigits_padded 4 year.natAbs (c := '-') rfl rest
    rw [String.toList_append]
    split
    · next hnegative =>
      rw [show "-".toList = ['-'] from rfl, List.singleton_append, List.cons_append, takeYear,
        skipBlanks_cons rfl]
      simp only [hread, Option.map_some]
      exact congrArg (fun n => some (n, '-' :: rest)) (by omega)
    · next hpositive =>
      rw [show "+".toList = ['+'] from rfl, List.singleton_append, List.cons_append, takeYear,
        skipBlanks_cons rfl]
      simp only [hread, Option.map_some]
      exact congrArg (fun n => some (n, '-' :: rest)) (by omega)

theorem ofDigits_append_zeros (ds : List Char) (n : Nat) :
    Decimal.ofDigits (ds ++ List.replicate n '0') = Decimal.ofDigits ds * 10 ^ n := by
  induction n with
  | zero => simp
  | succ n ih =>
    rw [List.replicate_succ', ← List.append_assoc, Decimal.ofDigits, List.foldl_append]
    change 10 * Decimal.ofDigits (ds ++ List.replicate n '0') + 0 = _
    rw [ih, Nat.add_zero, Nat.pow_succ, Nat.mul_comm 10, Nat.mul_assoc]

/-- Decimals are read as a part of a second, whatever their number. -/
theorem takeFraction_padded {width n : Nat} (hwidth : 0 < width) (hle : width ≤ 9)
    (hn : n < 10 ^ width) {c : Char} (hc : c.isDigit = false) (rest : List Char) :
    takeFraction ('.' :: ((padded width n).toList ++ c :: rest)) =
      some (n * 10 ^ (9 - width), c :: rest) := by
  have hdigits (d : Char) (hd : d ∈ (padded width n).toList) := isDigit_of_mem_padded hd
  have hstop : ¬ c.isDigit = true := Bool.eq_false_iff.mp hc
  have hnine : ((padded width n).toList ++ List.replicate 9 '0').take 9 =
      (padded width n).toList ++ List.replicate (9 - width) '0' := by
    rw [List.take_append, List.take_of_length_le (by rw [length_padded hwidth hn]; exact hle),
      length_padded hwidth hn, List.take_replicate]
    congr 2
    omega
  rw [takeFraction, List.takeWhile_append_of_pos hdigits, List.dropWhile_append_of_pos hdigits,
    List.takeWhile_cons_of_neg hstop, List.dropWhile_cons_of_neg hstop, List.append_nil,
    if_neg (by simpa using padded_ne_nil width n), hnine]
  dsimp only
  rw [ofDigits_append_zeros, ofDigits_padded]

/-- The decimals of a second are read as they are written. -/
theorem takeFraction_fractionText {n : Nat} (hn : n < 1000000000) {c : Char}
    (hdot : c ≠ '.') (hdigit : c.isDigit = false) (rest : List Char) :
    takeFraction ((fractionText n).toList ++ c :: rest) = some (n, c :: rest) := by
  have hpadded {width m : Nat} (hwidth : 0 < width) (hle : width ≤ 9) (hm : m < 10 ^ width)
      (hsize : m * 10 ^ (9 - width) = n) :
      takeFraction (("." ++ padded width m).toList ++ c :: rest) = some (n, c :: rest) := by
    rw [String.toList_append, show ".".toList = ['.'] from rfl, List.singleton_append,
      List.cons_append, takeFraction_padded hwidth hle hm hdigit, hsize]
  unfold fractionText
  simp only [beq_iff_eq]
  split
  · next hzero =>
    rw [hzero, show "".toList = [] from rfl, List.nil_append, takeFraction]
    exact fun cs hcs => hdot (List.cons.inj hcs).1
  split
  · exact hpadded (by decide) (by decide) (by omega) (by omega)
  split
  · exact hpadded (by decide) (by decide) (by omega) (by omega)
  · exact hpadded (by decide) (by decide) (by omega) (by omega)

/-! ### Whole points in time -/

/-- The points in time whose year can be read. -/
def InRange (t : Timestamp) : Prop :=
  isYear (dateOf ((t.nanos.fdiv 1000000000).fdiv 86400)).1

instance (t : Timestamp) : Decidable t.InRange :=
  inferInstanceAs (Decidable (isYear (dateOf ((t.nanos.fdiv 1000000000).fdiv 86400)).1 = true))

/-- The characters of a stored point in time. -/
theorem toList_stored {t : Timestamp} {seconds days year : Int} {month day ofDay nanos : Nat}
    (hseconds : seconds = t.nanos.fdiv 1000000000) (hdays : days = seconds.fdiv 86400)
    (hnanos : nanos = (t.nanos - seconds * 1000000000).toNat)
    (hofDay : ofDay = (seconds - days * 86400).toNat) (hdate : dateOf days = (year, month, day)) :
    t.stored.toList = (yearText year).toList ++ '-' :: ((padded 2 month).toList ++
      '-' :: ((padded 2 day).toList ++ 'T' :: ((padded 2 (ofDay / 3600)).toList ++
      ':' :: ((padded 2 (ofDay / 60 % 60)).toList ++ ':' :: ((padded 2 (ofDay % 60)).toList ++
      ((fractionText nanos).toList ++ ['Z'])))))) := by
  have hdash : "-".toList = ['-'] := rfl
  have htime : "T".toList = ['T'] := rfl
  have hcolon : ":".toList = [':'] := rfl
  have hzone : "Z".toList = ['Z'] := rfl
  have htext : t.stored = yearText year ++ "-" ++ padded 2 month ++ "-" ++ padded 2 day ++ "T" ++
      padded 2 (ofDay / 3600) ++ ":" ++ padded 2 (ofDay / 60 % 60) ++ ":" ++
      padded 2 (ofDay % 60) ++ fractionText nanos ++ "Z" := by
    subst hnanos hofDay
    simp only [stored, dateTime, yearText, fractionText, ← hseconds, ← hdays, hdate]
  simp only [htext, String.toList_append, hdash, htime, hcolon, hzone, List.append_assoc,
    List.cons_append, List.nil_append]

/-- A point in time that is stored is read as it was. -/
theorem ofText?_stored {t : Timestamp} (ht : t.InRange) : ofText? t.stored = some t := by
  obtain ⟨seconds, hseconds⟩ : ∃ s, s = t.nanos.fdiv 1000000000 := ⟨_, rfl⟩
  obtain ⟨days, hdays⟩ : ∃ d, d = seconds.fdiv 86400 := ⟨_, rfl⟩
  obtain ⟨nanos, hnanos⟩ : ∃ n, n = (t.nanos - seconds * 1000000000).toNat := ⟨_, rfl⟩
  obtain ⟨ofDay, hofDay⟩ : ∃ n, n = (seconds - days * 86400).toNat := ⟨_, rfl⟩
  obtain ⟨year, month, day, hdate⟩ : ∃ year month day, dateOf days = (year, month, day) :=
    ⟨_, _, _, rfl⟩
  have hyear : isYear year = true := by
    rw [InRange, ← hseconds, ← hdays, hdate] at ht
    exact ht
  have hdaysOf : daysOf year month day = days := by
    have h := daysOf_dateOf days
    rwa [hdate] at h
  have hvalid : IsDate year month day := by
    have h := isDate_dateOf days
    rwa [hdate] at h
  rw [ofText?, toList_stored hseconds hdays hnanos hofDay hdate]
  rw [Int.fdiv_eq_ediv_of_nonneg _ (by decide)] at hseconds hdays
  have hlength : monthLength year month ≤ 31 := by
    unfold monthLength
    split <;> (try split) <;> omega
  obtain ⟨hmonth, hmonths, hday, hlast⟩ := hvalid
  have hnumber {n : Nat} (hn : n < 100) (rest : List Char) :
      takeNumber 2 ((padded 2 n).toList ++ rest) = some (n, rest) :=
    takeNumber_padded (by decide) hn rest
  have hexpect {c : Char} (hc : Text.isBlank c = false) (rest : List Char) :
      expect c (c :: rest) = some rest := by
    simp [expect, skipBlanks_cons hc]
  have hexpectTime (rest : List Char) : expectTime ('T' :: rest) = some rest := rfl
  have hfraction := takeFraction_fractionText (n := nanos) (by omega) (c := 'Z') (by decide) rfl []
  rw [takeYear_yearText, Option.bind_eq_bind, Option.bind_some]
  dsimp only
  rw [hexpect rfl, Option.bind_eq_bind, Option.bind_some, hnumber (by omega), Option.bind_eq_bind,
    Option.bind_some]
  dsimp only
  rw [hexpect rfl, Option.bind_some, hnumber (by omega), Option.bind_some]
  dsimp only
  rw [hexpectTime, Option.bind_some, hnumber (by omega), Option.bind_some]
  dsimp only
  rw [hexpect rfl, Option.bind_some, hnumber (by omega), Option.bind_some]
  dsimp only
  rw [hexpect rfl, Option.bind_some, hnumber (by omega), Option.bind_some]
  dsimp only
  rw [hfraction, Option.bind_some, skipBlanks_cons rfl,
    show takeOffset ['Z'] = some (0, []) from rfl, Option.bind_some]
  dsimp only
  have hminutes : ((daysOf year month day * 1440 + (ofDay / 3600 * 60 + ofDay / 60 % 60 : Nat)) * 60
      - 0).fdiv 86400 = days := by
    rw [hdaysOf, Int.fdiv_eq_ediv_of_nonneg _ (by decide)]
    omega
  have hdateTime : ¬ (!isYear year || decide (month < 1) || decide (12 < month) ||
      decide (day < 1) || decide (monthLength year month < day)) = true := by
    simp only [hyear, Bool.not_true, Bool.false_or, Bool.or_eq_true, decide_eq_true_eq]
    omega
  have htimeOfDay : ¬ (decide (23 < ofDay / 3600) || decide (59 < ofDay / 60 % 60) ||
      decide (60 < ofDay % 60) || decide (86400 ≤ (0 : Int).natAbs)) = true := by
    simp only [Bool.or_eq_true, decide_eq_true_eq]
    omega
  rw [if_neg (by decide), if_neg hdateTime, if_neg htimeOfDay, hminutes, hdate, if_pos hyear,
    hdaysOf]
  refine congrArg (fun n => some (Timestamp.mk n)) ?_
  omega

end Hearth.Timestamp
