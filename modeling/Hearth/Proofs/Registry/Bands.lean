import Hearth.Bands
import Mathlib.Algebra.Order.Ring.Int
import Mathlib.Data.List.Nodup

/-!
# Where the bands leave room

The program has four workers of its own, with priorities just outside the ordinary band, and gives
event handlers that ask for no priority one in the middle of the band. All of these are computed with
numbers of 32 bits, so a band near the smallest or the greatest number leaves no room for them. With
room for all, the four priorities belong to the system and differ. The one in the middle is ordinary,
except in a band of two negative numbers: there the half of the sum is rounded towards zero, and the
one after it lies just above the band.

## Main definitions

* `Bands.own` : the priorities of the program's own workers.
* `Bands.Exact` : nothing that is computed from the band overflows.
* `Bands.Cramped` : a band of two neighbours with a negative sum.

## Main results

* `Bands.exact_iff` : the bands from which nothing overflows.
* `Bands.Exact.isSystem`, `Bands.Exact.nodup` : the priorities of the program's own workers.
* `Bands.Exact.contains_defaultPriority` : when the priority of event handlers is an ordinary one.
-/

namespace Hearth

/-! ### Numbers of 32 bits -/

theorem bmod_eq_self_iff {x : Int} : x.bmod (2 ^ 32) = x ↔ -2 ^ 31 ≤ x ∧ x < 2 ^ 31 := by
  constructor
  · intro hx
    have hle := Int.le_bmod (x := x) (m := 2 ^ 32) (by decide)
    have hlt := Int.bmod_lt (x := x) (m := 2 ^ 32) (by decide)
    rw [hx] at hle hlt
    omega
  · rintro ⟨hle, hlt⟩
    exact Int.bmod_eq_of_le (by omega) (by omega)

/-- Half of a number, rounded towards zero. -/
theorem tdiv_two (x : Int) : x.tdiv 2 = if 0 ≤ x then x / 2 else -(-x / 2) := by
  split
  · next hx => exact Int.tdiv_eq_ediv_of_nonneg hx
  · next hx => rw [← Int.tdiv_eq_ediv_of_nonneg (by omega), Int.neg_tdiv, Int.neg_neg]

namespace Bands

variable {b : Bands}

theorem isSystem_iff {p : Int32} :
    b.isSystem p = true ↔ p.toInt < b.low.toInt ∨ b.high.toInt < p.toInt := by
  rw [isSystem, Bool.or_eq_true, decide_eq_true_iff, decide_eq_true_iff, Int32.lt_iff_toInt_lt,
    Int32.lt_iff_toInt_lt]

theorem contains_iff {p : Int32} :
    b.contains p = true ↔ b.low.toInt ≤ p.toInt ∧ p.toInt ≤ b.high.toInt := by
  rw [contains, Bool.not_eq_true', ← Bool.not_eq_true, isSystem_iff]
  omega

/-! ### Room -/

/-- The priorities of the program's own workers. -/
def own (b : Bands) : List Int32 := [b.failureLog, b.doneLog, b.eventLog, b.teardown]

/-- Nothing that is computed from the band overflows. -/
structure Exact (b : Bands) : Prop where
  sum : (b.low + b.high).toInt = b.low.toInt + b.high.toInt
  eventLog : b.eventLog.toInt = b.low.toInt - 1
  failureLog : b.failureLog.toInt = b.low.toInt - 2
  doneLog : b.doneLog.toInt = b.high.toInt + 1
  teardown : b.teardown.toInt = b.high.toInt + 2

/-- A band of two neighbours with a negative sum. -/
structure Cramped (b : Bands) : Prop where
  two : b.high.toInt = b.low.toInt + 1
  negative : b.low.toInt < 0

theorem toInt_eventLog : b.eventLog.toInt = (b.low.toInt - 1).bmod (2 ^ 32) :=
  Int32.toInt_sub _ _

theorem toInt_failureLog : b.failureLog.toInt = (b.low.toInt - 2).bmod (2 ^ 32) :=
  Int32.toInt_sub _ _

theorem toInt_doneLog : b.doneLog.toInt = (b.high.toInt + 1).bmod (2 ^ 32) := Int32.toInt_add _ _

theorem toInt_teardown : b.teardown.toInt = (b.high.toInt + 2).bmod (2 ^ 32) := Int32.toInt_add _ _

/-- The bands from which nothing overflows. -/
theorem exact_iff : b.Exact ↔ -2 ^ 31 + 2 ≤ b.low.toInt ∧ b.high.toInt < 2 ^ 31 - 2 ∧
    -2 ^ 31 ≤ b.low.toInt + b.high.toInt ∧ b.low.toInt + b.high.toInt < 2 ^ 31 := by
  have hlow := b.low.toInt_lt
  have hhigh := b.high.le_toInt
  have hfields : b.Exact ↔
      (b.low.toInt + b.high.toInt).bmod (2 ^ 32) = b.low.toInt + b.high.toInt ∧
      (b.low.toInt - 1).bmod (2 ^ 32) = b.low.toInt - 1 ∧
      (b.low.toInt - 2).bmod (2 ^ 32) = b.low.toInt - 2 ∧
      (b.high.toInt + 1).bmod (2 ^ 32) = b.high.toInt + 1 ∧
      (b.high.toInt + 2).bmod (2 ^ 32) = b.high.toInt + 2 := by
    rw [← Int32.toInt_add, ← toInt_eventLog, ← toInt_failureLog, ← toInt_doneLog, ← toInt_teardown]
    exact ⟨fun h => ⟨h.sum, h.eventLog, h.failureLog, h.doneLog, h.teardown⟩,
      fun ⟨hsum, hevent, hfailure, hdone, hteardown⟩ =>
        ⟨hsum, hevent, hfailure, hdone, hteardown⟩⟩
  simp only [hfields, bmod_eq_self_iff]
  omega

theorem toInt_defaultPriority :
    b.defaultPriority.toInt = (b.low + b.high).toInt.tdiv 2 + 1 := by
  have hlt := (b.low + b.high).toInt_lt
  have hle := (b.low + b.high).le_toInt
  have hhalf : ((b.low + b.high) / 2).toInt = (b.low + b.high).toInt.tdiv 2 := by
    rw [Int32.toInt_div]
    refine bmod_eq_self_iff.mpr ?_
    change _ ≤ (b.low + b.high).toInt.tdiv 2 ∧ (b.low + b.high).toInt.tdiv 2 < _
    rw [tdiv_two]
    omega
  rw [defaultPriority, Int32.toInt_add, hhalf]
  refine bmod_eq_self_iff.mpr ?_
  change _ ≤ (b.low + b.high).toInt.tdiv 2 + 1 ∧ (b.low + b.high).toInt.tdiv 2 + 1 < _
  rw [tdiv_two]
  omega

namespace Exact

variable (hb : b.Exact)
include hb

/-- The priorities of the program's own workers belong to the system. -/
theorem isSystem : ∀ p ∈ b.own, b.isSystem p = true := by
  simp only [own, List.forall_mem_cons, List.not_mem_nil, false_imp_iff, implies_true, and_true,
    isSystem_iff, hb.eventLog, hb.failureLog, hb.doneLog, hb.teardown]
  omega

variable (hlt : b.low.toInt < b.high.toInt)
include hlt

/-- No two of the program's own workers have the same priority. -/
theorem nodup : b.own.Nodup := by
  refine List.Nodup.of_map Int32.toInt ?_
  simp only [own, List.map_cons, List.map_nil, hb.eventLog, hb.failureLog, hb.doneLog, hb.teardown,
    List.nodup_cons, List.mem_cons, List.not_mem_nil, or_false, not_or, not_false_eq_true,
    List.nodup_nil, and_true]
  omega

/-- Event handlers that ask for no priority get an ordinary one, unless the band is cramped. -/
theorem contains_defaultPriority : b.contains b.defaultPriority = true ↔ ¬ b.Cramped := by
  have hcramped : b.Cramped ↔ b.high.toInt = b.low.toInt + 1 ∧ b.low.toInt < 0 :=
    ⟨fun h => ⟨h.two, h.negative⟩, fun ⟨htwo, hnegative⟩ => ⟨htwo, hnegative⟩⟩
  rw [contains_iff, hcramped, toInt_defaultPriority, hb.sum, tdiv_two]
  split <;> omega

omit hlt in
/-- In a cramped band they would get the priority of the worker that logs the end of events. -/
theorem defaultPriority_of_cramped (hc : b.Cramped) : b.defaultPriority = b.doneLog := by
  have htwo := hc.two
  have hnegative := hc.negative
  refine Int32.toInt_inj.mp ?_
  rw [toInt_defaultPriority, hb.sum, hb.doneLog, tdiv_two, if_neg (by omega)]
  omega

end Exact

end Bands

end Hearth
