import Hearth.Proofs.Basic
import Hearth.Proofs.Scopes.Ancestry

/-!
# Scopes that are made and written

However scopes are made and written, parents are older than their children, and no scope has two
parents of which one sees the other. So what a scope finds is decided by the first slot on the ways
up from it, and a write is noticed only by the scopes that see the one that was written.

## Main definitions

* `Scopes.Writes` : what writing one variable makes of scopes.
* `Scopes.Built` : the scopes that come about by making and writing them.
* `Scopes.Sighted` : what is found, what is seen, and whom a write concerns.

## Main results

* `Scopes.Built.orderly` : what holds of the parents of all scopes.
* `Scopes.Built.sighted` : all scopes that come about are sighted.
-/

namespace Hearth

/-- A scope has a slot that was put there, and the others as before. -/
theorem Scope.slot?_put (scope : Scope) (name k : String) (slot : Slot) :
    (scope.put name slot).slot? k = if k = name then some slot else scope.slot? k := by
  rw [slot?, put, lookup_cons_eq]
  by_cases hk : k = name
  · rw [if_pos hk, if_pos hk]
  · rw [if_neg hk, if_neg hk, lookup_filter, if_neg hk]
    rfl

namespace Scopes

/-- A scope is one of the arena. -/
def Known (s : Scopes) (a : ScopeId) : Prop := a.index < s.all.size

/-- A variable of one scope gets a value, or is hidden there. -/
inductive Writes (s : Scopes) (d : ScopeId) (name : String) : Scopes → Prop where
  | set (v : Json) : Writes s d name (s.set d name v)
  | delete : Writes s d name (s.delete d name)

/-- The scopes that come about: they are made below nothing or below scopes that are there, with
variables of their own or none, and written. -/
inductive Built : Scopes → Prop where
  | empty : Built .empty
  | new {s : Scopes} (hs : Built s) : Built (s.add [] []).2
  | derive {s : Scopes} {id : ScopeId} {extra : Option ScopeId} (seed : List (String × Json))
    (hs : Built s) (known : s.Known id) (knownExtra : ∀ e ∈ extra, s.Known e) :
    Built (s.derive id extra seed).2
  | write {s s' : Scopes} {d : ScopeId} {name : String} (hs : Built s)
    (written : s.Writes d name s') : Built s'

variable {s s' : Scopes} {a b c d e p : ScopeId} {name k : String} {extra : Option ScopeId}
  {parents : List ScopeId} {slots : List (String × Slot)}

/-! ### New scopes and written ones -/

/-- A new scope is the last one. -/
theorem get_add (s : Scopes) (parents : List ScopeId) (slots : List (String × Slot)) :
    (s.add parents slots).2.get (s.add parents slots).1 = ⟨parents, slots⟩ := by
  simp only [add, get, Array.getElem?_push_size, Option.getD_some]

/-- The other scopes are what they were. -/
theorem get_add_of_ne (h : a ≠ (s.add parents slots).1) :
    (s.add parents slots).2.get a = s.get a := by
  have hne : a.index ≠ s.all.size := fun heq => h (congrArg ScopeId.mk heq)
  rw [get, get, add, Array.getElem?_push, if_neg hne]

theorem Known.ne_add (h : s.Known a) : a ≠ (s.add parents slots).1 :=
  fun heq => Nat.lt_irrefl _ (heq ▸ h)

/-- What a scope knows of a variable itself decides. -/
theorem lookup_own {s : Scopes} {id : ScopeId} {name : String} {v : Json}
    (hown : (s.get id).slot? name = some (.value v)) : s.lookup id name = some v := by
  have hancestors : ∃ rest, s.ancestors id = id :: rest := ⟨_, rfl⟩
  obtain ⟨rest, hrest⟩ := hancestors
  rw [lookup, slot?, hrest, List.findSome?_cons, hown]

theorem get_put (s : Scopes) (d : ScopeId) (name : String) (slot : Slot) (a : ScopeId) :
    (s.put d name slot).get a =
      if d = a ∧ a.index < s.all.size then (s.get a).put name slot else s.get a := by
  rw [get, get, put, Array.getElem?_modify]
  by_cases hd : d = a
  · subst hd
    by_cases hknown : d.index < s.all.size
    · rw [if_pos rfl, if_pos ⟨rfl, hknown⟩, Array.getElem?_eq_getElem hknown]
      rfl
    · rw [if_pos rfl, if_neg fun h => hknown h.2, Array.getElem?_eq_none (Nat.le_of_not_lt hknown)]
      rfl
  · rw [if_neg fun h => hd (congrArg ScopeId.mk h), if_neg fun h => hd h.1]

theorem parents_put (slot : Slot) :
    ((s.put d name slot).get a).parents = (s.get a).parents := by
  rw [get_put]
  split <;> rfl

theorem slot?_put_of_ne (slot : Slot) (h : a = d → k ≠ name) :
    ((s.put d name slot).get a).slot? k = (s.get a).slot? k := by
  rw [get_put]
  split
  · next hd => rw [Scope.slot?_put, if_neg (h hd.1.symm)]
  · rfl

/-- Writing puts a slot into a scope. -/
theorem Writes.eq_put (hw : s.Writes d name s') : ∃ slot, s' = s.put d name slot := by
  cases hw with
  | set v => exact ⟨.value v, rfl⟩
  | delete => exact ⟨.gone, rfl⟩

/-- What a scope sees only depends on the parents of the scopes that it sees. -/
theorem sees_congr (h : ∀ x, s.Sees a x → (s'.get x).parents = (s.get x).parents) :
    s'.Sees a b ↔ s.Sees a b := by
  constructor
  · intro hsees
    induction hsees with
    | refl => exact .refl
    | tail _ hp ih => exact ih.tail (h _ ih ▸ hp)
  · intro hsees
    induction hsees with
    | refl => exact .refl
    | tail hb hp ih => exact ih.tail ((h _ hb).symm ▸ hp)

/-! ### The parents of a scope -/

/-- Two scopes neither of which sees the other. -/
def Unrelated (s : Scopes) (a b : ScopeId) : Prop := ¬ s.Sees a b ∧ ¬ s.Sees b a

/-- Parents are older than their children, and no two of them are related. -/
structure Orderly (s : Scopes) : Prop where
  older : s.Older
  unrelated (a : ScopeId) : (s.get a).parents.Pairwise s.Unrelated

theorem Older.known_of_sees (hs : s.Older) (ha : s.Known a) (h : s.Sees a b) : s.Known b :=
  Nat.lt_of_le_of_lt (hs.index_le_of_sees h) ha

/-- A new scope changes nothing for those that were there. -/
theorem Older.sees_add (hs : s.Older) (ha : s.Known a) :
    (s.add parents slots).2.Sees a b ↔ s.Sees a b :=
  sees_congr fun _ hx => by rw [get_add_of_ne (hs.known_of_sees ha hx).ne_add]

theorem Older.add (hs : s.Older) (hknown : ∀ p ∈ parents, s.Known p) :
    (s.add parents slots).2.Older := by
  intro a p hp
  by_cases ha : a = (s.add parents slots).1
  · subst ha
    rw [get_add] at hp
    exact hknown p hp
  · rw [get_add_of_ne ha] at hp
    exact hs a p hp

theorem Older.put (hs : s.Older) (slot : Slot) : (s.put d name slot).Older := fun a p hp =>
  hs a p (parents_put slot ▸ hp)

theorem Orderly.add (hs : s.Orderly) (hknown : ∀ p ∈ parents, s.Known p)
    (hunrelated : parents.Pairwise s.Unrelated) : (s.add parents slots).2.Orderly := by
  refine ⟨hs.older.add hknown, fun a => ?_⟩
  have hkept {ps : List ScopeId} (hps : ∀ p ∈ ps, s.Known p) (h : ps.Pairwise s.Unrelated) :
      ps.Pairwise (s.add parents slots).2.Unrelated :=
    List.Pairwise.imp_of_mem (fun hp hq hpq => by
      rwa [Unrelated, hs.older.sees_add (hps _ hp), hs.older.sees_add (hps _ hq)]) h
  by_cases ha : a = (s.add parents slots).1
  · subst ha
    rw [get_add]
    exact hkept hknown hunrelated
  · rw [get_add_of_ne ha]
    refine hkept (fun p hp => ?_) (hs.unrelated a)
    by_cases hold : s.Known a
    · exact Nat.lt_trans (hs.older a p hp) hold
    · rw [get_of_size_le (Nat.le_of_not_lt hold)] at hp
      exact absurd hp List.not_mem_nil

theorem sees_put (slot : Slot) : (s.put d name slot).Sees a b ↔ s.Sees a b :=
  sees_congr fun _ _ => parents_put slot

theorem Orderly.put (hs : s.Orderly) (slot : Slot) : (s.put d name slot).Orderly := by
  refine ⟨hs.older.put slot, fun a => ?_⟩
  rw [parents_put]
  exact (hs.unrelated a).imp fun h => by rwa [Unrelated, sees_put, sees_put]

/-- The parents of a new scope are among those it is made for, and are not related. -/
theorem Older.parentsFor (hs : s.Older) (id : ScopeId) (extra : Option ScopeId) :
    (∀ p ∈ s.parentsFor id extra, p = id ∨ p ∈ extra) ∧
      (s.parentsFor id extra).Pairwise s.Unrelated := by
  unfold Scopes.parentsFor
  split
  · simp
  · next e =>
    split
    · simp
    · split
      · simp
      · next hdown hup =>
        rw [hasAncestor, List.contains_iff_mem, hs.mem_ancestors] at hdown hup
        exact ⟨by simp, List.pairwise_pair.mpr ⟨hup, hdown⟩⟩

theorem Built.orderly (hs : Built s) : s.Orderly := by
  induction hs with
  | empty => exact ⟨nofun, fun _ => .nil⟩
  | new hs ih => exact ih.add nofun .nil
  | derive seed hs known knownExtra ih =>
    obtain ⟨hmem, hunrelated⟩ := ih.older.parentsFor _ _
    refine ih.add (fun p hp => ?_) hunrelated
    rcases hmem p hp with rfl | hp
    · exact known
    · exact knownExtra p hp
  | write hs written ih =>
    obtain ⟨slot, rfl⟩ := written.eq_put
    exact ih.put slot

/-! ### What a write changes -/

/-- Only the scopes that see the one that was written can notice it, and only in that variable. -/
theorem Older.lookup_put (hs : s.Older) (slot : Slot) (h : s.Sees c d → k ≠ name) :
    (s.put d name slot).lookup c k = s.lookup c k :=
  lookup_congr <| hs.slot?_congr (hs.put slot) fun _ ha =>
    ⟨parents_put slot, slot?_put_of_ne slot fun hd => h (hd ▸ ha)⟩

/-- The scope that was written shows it. -/
theorem lookup_put_self (hd : s.Known d) (slot : Slot) :
    (s.put d name slot).slot? d name = some slot := by
  have hancestors : ∃ rest, (s.put d name slot).ancestors d = d :: rest := ⟨_, rfl⟩
  obtain ⟨rest, hrest⟩ := hancestors
  rw [slot?, hrest, List.findSome?_cons, get_put, if_pos ⟨rfl, hd⟩, Scope.slot?_put, if_pos rfl]

/-! ### What a new scope sees -/

/-- Scopes that were there find what they found. -/
theorem Older.slot?_add (hs : s.Older) (hknown : ∀ p ∈ parents, s.Known p) (hc : s.Known c) :
    (s.add parents slots).2.slot? c name = s.slot? c name :=
  hs.slot?_congr (hs.add hknown) fun _ ha => by
    rw [get_add_of_ne (hs.known_of_sees hc ha).ne_add]
    exact ⟨rfl, rfl⟩

/-- A scope without variables, and with one parent, finds what the parent finds. -/
theorem Older.slot?_only_parent (hs : s.Older) (hc : s.get c = ⟨[p], []⟩) :
    s.slot? c name = s.slot? p name := by
  have hup (n : Nat) : s.up [c] (n + 1) = s.up [p] n := by
    rw [up_succ, List.flatMap_singleton, hc]
  have hnone : (s.get c).slot? name = none := by
    rw [hc]
    rfl
  refine Option.ext fun slot => ?_
  rw [hs.slot?_eq_some_iff, hs.slot?_eq_some_iff]
  refine exists_congr fun a => ⟨?_, ?_⟩
  · rintro ⟨n, before, after, hn, ha, hbefore, hshorter⟩
    cases n with
    | zero =>
      obtain ⟨rfl, rfl, rfl⟩ : before = [] ∧ a = c ∧ after = [] := by
        simpa [up, List.singleton_eq_append_iff] using hn
      rw [hnone] at ha
      cases ha
    | succ n =>
      refine ⟨n, before, after, hup n ▸ hn, ha, hbefore, fun m hm => ?_⟩
      rw [← hup]
      exact hshorter (m + 1) (Nat.succ_lt_succ hm)
  · rintro ⟨n, before, after, hn, ha, hbefore, hshorter⟩
    refine ⟨n + 1, before, after, (hup n).trans hn, ha, hbefore, fun m hm => ?_⟩
    cases m with
    | zero =>
      intro b hb
      obtain rfl := List.mem_singleton.mp hb
      exact hnone
    | succ m =>
      rw [hup]
      exact hshorter m (Nat.lt_of_succ_lt_succ hm)

/-- A fresh scope that has one parent finds what the parent finds. -/
theorem Older.lookup_derive_of_parentsFor (hs : s.Older) (hp : s.Known p)
    (h : s.parentsFor c extra = [p]) (name : String) :
    (s.derive c extra []).2.lookup (s.derive c extra []).1 name = s.lookup p name := by
  have hknown : ∀ q ∈ [p], s.Known q := List.forall_mem_singleton.mpr hp
  rw [derive, h]
  have hsame : (s.add [p] []).2.slot? p name = s.slot? p name := hs.slot?_add hknown hp
  refine lookup_congr (.trans ?_ hsame)
  exact (hs.add hknown).slot?_only_parent (get_add s [p] [])

/-! ### Lookup and isolation -/

/-- What is found from a scope, what it sees, and whom a write concerns. -/
structure Sighted (s : Scopes) : Prop where
  /-- A value is found if it is in the first slot on the ways up. -/
  found (c : ScopeId) (name : String) (v : Json) :
    s.lookup c name = some v ↔ ∃ a, s.Decides c name a (.value v)
  /-- Nothing is found if the variable is gone there, or no scope that is seen has a slot. -/
  missed (c : ScopeId) (name : String) : s.lookup c name = none ↔
    (∃ a, s.Decides c name a .gone) ∨ ∀ a, s.Sees c a → (s.get a).slot? name = none
  ancestor (c d : ScopeId) : s.hasAncestor c d = true ↔ s.Sees c d
  /-- A write shows in the scope that is written. -/
  shown (d : ScopeId) (name : String) (v : Json) : s.Known d →
    (s.set d name v).lookup d name = some v ∧ (s.delete d name).lookup d name = none
  /-- It changes one variable, for the scopes that see the one that is written. -/
  isolated {d : ScopeId} {name : String} {s' : Scopes} : s.Writes d name s' →
    ∀ c k, s'.lookup c k ≠ s.lookup c k → k = name ∧ s.Sees c d
  /-- It changes nothing for the scopes above. -/
  above {d : ScopeId} {name : String} {s' : Scopes} : s.Writes d name s' →
    ∀ p, s.Sees d p → p ≠ d → ∀ k, s'.lookup p k = s.lookup p k
  /-- No scope has two parents of which one sees the other. -/
  unrelated (a : ScopeId) : (s.get a).parents.Pairwise s.Unrelated
  /-- A fresh child finds what its parent finds. -/
  child (c : ScopeId) (k : String) : s.Known c →
    (s.derive c none []).2.lookup (s.derive c none []).1 k = s.lookup c k
  /-- With a related scope besides, it finds what that of the two finds that sees the other. -/
  related (c e : ScopeId) (k : String) : s.Known c → s.Known e →
    (s.Sees e c →
      (s.derive c (some e) []).2.lookup (s.derive c (some e) []).1 k = s.lookup e k) ∧
    (s.Sees c e →
      (s.derive c (some e) []).2.lookup (s.derive c (some e) []).1 k = s.lookup c k)

/-- However scopes were made and written: what is found is decided by the first slot on the ways up,
a write concerns one variable of the scopes that see the one written, and never those above; and a
scope has no parent that another one makes superfluous. -/
theorem Built.sighted {s : Scopes} (hs : Built s) : Sighted s := by
  have ho := hs.orderly
  have hancestor (c d : ScopeId) : s.hasAncestor c d = true ↔ s.Sees c d := by
    rw [hasAncestor, List.contains_iff_mem, ho.older.mem_ancestors]
  refine ⟨fun c name v => ?_, fun c name => ?_, hancestor, fun d name v hd => ?_,
    fun hw c k hne => ?_, fun hw p hp hne k => ?_, ho.unrelated, fun c k hc => ?_,
    fun c e k hc he => ?_⟩
  · rw [lookup_eq_some_iff, ho.older.slot?_eq_some_iff]
  · rw [lookup_eq_none_iff, ho.older.slot?_eq_some_iff, ho.older.slot?_eq_none_iff]
  · exact ⟨lookup_eq_some_iff.mpr (lookup_put_self hd _),
      lookup_eq_none_iff.mpr (.inl (lookup_put_self hd _))⟩
  · obtain ⟨slot, rfl⟩ := hw.eq_put
    by_contra hnot
    exact hne (ho.older.lookup_put slot fun hsees hk => hnot ⟨hk, hsees⟩)
  · obtain ⟨slot, rfl⟩ := hw.eq_put
    exact ho.older.lookup_put slot fun hback => absurd (ho.older.sees_antisymm hback hp) hne
  · exact ho.older.lookup_derive_of_parentsFor hc rfl k
  · have hdown (h : s.Sees e c) : s.parentsFor c (some e) = [e] := if_pos ((hancestor e c).mpr h)
    refine ⟨fun h => ho.older.lookup_derive_of_parentsFor he (hdown h) k, fun h => ?_⟩
    by_cases hback : s.Sees e c
    · obtain rfl := ho.older.sees_antisymm h hback
      exact ho.older.lookup_derive_of_parentsFor hc (hdown hback) k
    · refine ho.older.lookup_derive_of_parentsFor hc ?_ k
      rw [Scopes.parentsFor, if_neg fun hyes => hback ((hancestor e c).mp hyes),
        if_pos ((hancestor c e).mpr h)]

/-- Four scopes: the last one has two parents with a parent in common. A variable of that one is
hidden by the first of the two, and has a value in the other. -/
def diamond : Scopes :=
  let s := (empty.add [] []).2
  let s := (s.derive ⟨0⟩ none []).2
  let s := (s.derive ⟨0⟩ none [("x", .str "right")]).2
  let s := (s.derive ⟨1⟩ (some ⟨2⟩) []).2
  (s.set ⟨0⟩ "x" (.str "top")).delete ⟨1⟩ "x"

theorem built_diamond : Built diamond := by
  refine .write (.write ?_ (.set _)) .delete
  refine .derive _ (.derive _ (.derive _ (.new .empty) ?_ ?_) ?_ ?_) ?_ ?_
  all_goals simp [Known, empty, add, derive]

theorem sighted_diamond : Built diamond ∧ Sighted diamond ∧
    (diamond.get ⟨3⟩).parents = [⟨1⟩, ⟨2⟩] ∧ diamond.lookup ⟨3⟩ "x" = none :=
  ⟨built_diamond, Built.sighted built_diamond, by decide +kernel, by rfl⟩

end Scopes

end Hearth
