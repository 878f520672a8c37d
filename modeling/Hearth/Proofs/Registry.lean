import Hearth.Registry

/-!
# The order of a registry

However workers are added and taken away, they stand in the order in which they are asked: ascending
priority, and within one priority in the order in which they were registered. Numbers are given in
that order, and never twice.

## Main definitions

* `Registered.Precedes` : a worker is asked before another one.
* `Registry.Built` : the registries that come about by adding workers and taking them away.

## Main results

* `Registry.Built.ordered` : every such registry keeps its workers in order.
* `Registry.Built.distinct` : no two of its workers have the same number.
-/

namespace Hearth

/-- A worker is asked before another one: its priority is lower, or it was registered earlier with
the same priority. -/
def Registered.Precedes (x y : Registered) : Prop :=
  x.worker.priority < y.worker.priority ∨
    x.worker.priority = y.worker.priority ∧ x.id.value < y.id.value

namespace Registry

/-- The registries that come about by adding workers and taking them away. -/
inductive Built (bands : Bands) : Registry → Prop where
  | empty : Built bands (.empty bands)
  | register {r r' : Registry} {w : Worker} {id : WorkerId} (hr : Built bands r)
    (added : r.register w = .ok (id, r')) : Built bands r'
  | unregister {r r' : Registry} {w : Worker} {id : WorkerId} (hr : Built bands r)
    (removed : r.unregister id = .ok (w, r')) : Built bands r'
  | unregisterNamed {r : Registry} (name : Name) (hr : Built bands r) :
    Built bands (r.unregisterNamed name).2

/-- The workers stand in order, and their numbers are used up. -/
structure Ordered (r : Registry) : Prop where
  sorted : r.workers.Pairwise Registered.Precedes
  used : ∀ x ∈ r.workers, x.id.value < r.next

theorem place_perm (x : Registered) (workers : List Registered) :
    (place x workers).Perm (x :: workers) := by
  induction workers with
  | nil => exact .refl _
  | cons y rest ih =>
    unfold place
    split
    · exact .refl _
    · exact (ih.cons y).trans (.swap x y rest)

theorem mem_place {x y : Registered} {workers : List Registered} :
    y ∈ place x workers ↔ y = x ∨ y ∈ workers :=
  (place_perm x workers).mem_iff.trans List.mem_cons

/-- A new worker is put behind those of its priority, and all stay in order. -/
theorem place_sorted {x : Registered} {workers : List Registered}
    (hs : workers.Pairwise Registered.Precedes) (hx : ∀ y ∈ workers, y.id.value < x.id.value) :
    (place x workers).Pairwise Registered.Precedes := by
  induction workers with
  | nil => exact List.pairwise_singleton ..
  | cons y rest ih =>
    obtain ⟨hy, hs⟩ := List.pairwise_cons.mp hs
    unfold place
    split
    · next hlt =>
      refine .cons (fun z hz => .inl ?_) (.cons hy hs)
      rcases List.mem_cons.mp hz with rfl | hz
      · exact hlt
      · rcases hy z hz with hyz | ⟨hyz, -⟩
        · exact Int32.lt_trans hlt hyz
        · exact hyz ▸ hlt
    · next hge =>
      refine .cons (fun z hz => ?_) (ih hs fun z hz => hx z (List.mem_cons_of_mem _ hz))
      rcases mem_place.mp hz with rfl | hz
      · rcases Int32.lt_or_eq_of_le (Int32.not_lt.mp hge) with hlt | heq
        · exact .inl hlt
        · exact .inr ⟨heq, hx y List.mem_cons_self⟩
      · exact hy z hz

/-- What a registration that succeeds does. -/
theorem of_register {r r' : Registry} {w : Worker} {id : WorkerId}
    (h : r.register w = .ok (id, r')) : id = ⟨r.next⟩ ∧
      r' = { r with workers := place ⟨⟨r.next⟩, w⟩ r.workers, next := r.next + 1 } := by
  unfold register at h
  generalize (if r.bands.isSystem w.priority then r.firstAt? w.priority else none) = taken at h
  cases taken with
  | some x => cases h
  | none =>
    cases h
    exact ⟨rfl, rfl⟩

/-- What it does to a registry that a worker is taken away. -/
theorem of_unregister {r r' : Registry} {w : Worker} {id : WorkerId}
    (h : r.unregister id = .ok (w, r')) :
    r' = { r with workers := r.workers.filter fun x => x.id != id } := by
  unfold unregister at h
  split at h
  · cases h
    rfl
  · cases h

/-- A registry with fewer workers stays in order. -/
theorem Ordered.filter {r : Registry} (hr : Ordered r) (p : Registered → Bool) :
    Ordered { r with workers := r.workers.filter p } :=
  ⟨hr.sorted.filter p, fun x hx => hr.used x (List.mem_filter.mp hx).1⟩

/-- Every registry keeps its workers in order. -/
theorem Built.ordered {bands : Bands} {r : Registry} (hr : Built bands r) : Ordered r := by
  induction hr with
  | empty => exact ⟨.nil, by simp [Registry.empty]⟩
  | @register r r' w id hr added ih =>
    obtain ⟨rfl, rfl⟩ := of_register added
    refine ⟨place_sorted ih.sorted ih.used, fun x hx => ?_⟩
    rcases mem_place.mp hx with rfl | hx
    · exact Nat.lt_succ_self _
    · exact Nat.lt_succ_of_lt (ih.used x hx)
  | unregister hr removed ih =>
    rw [of_unregister removed]
    exact ih.filter _
  | unregisterNamed name hr ih => exact ih.filter _

/-- No two workers have the same number. -/
theorem Built.distinct {bands : Bands} {r : Registry} (hr : Built bands r) :
    (r.workers.map (·.id)).Nodup := by
  induction hr with
  | empty => exact .nil
  | @register r r' w id hr added ih =>
    obtain ⟨rfl, rfl⟩ := of_register added
    refine ((place_perm _ r.workers).map _).nodup_iff.mpr (List.nodup_cons.mpr ⟨?_, ih⟩)
    intro hmem
    obtain ⟨x, hx, hid⟩ := List.mem_map.mp hmem
    have hused := hr.ordered.used x hx
    rw [hid] at hused
    exact Nat.lt_irrefl _ hused
  | unregister hr removed ih =>
    rw [of_unregister removed]
    exact ih.sublist (List.filter_sublist.map _)
  | unregisterNamed name hr ih => exact ih.sublist (List.filter_sublist.map _)

end Registry

end Hearth
