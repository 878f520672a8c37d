import Hearth.Store
import Hearth.Proofs.Basic

/-!
# Records by category and name

The records of a store are in strictly ascending order of their keys, so a record that is put where
its key belongs is found under that key, and all others are found as before. Read back in their own
order, they end up in the same order again.

## Main definitions

* `Store.Ascending` : records in strictly ascending order.

## Main results

* `Token.order_eq_iff`, `Token.order_swap`, `Token.order_trans` : tokens are linearly ordered.
* `Store.lookup_insertRecord` : what is found after a value was set.
* `Store.Ascending.insertRecord` : the order is kept.
* `Store.Ascending.foldl_insertRecord` : records put in one after the other.
-/

namespace Hearth

namespace Token

/-! ### The order of tokens -/

mutual

theorem order_swap : ∀ a b : Token, (order a b).swap = order b a
  | .int _, .int _ => Std.OrientedOrd.eq_swap.symm
  | .text _, .text _ => Std.OrientedOrd.eq_swap.symm
  | .sub a, .sub b => orderList_swap a b
  | .int _, .text _ | .int _, .sub _ | .text _, .int _ | .text _, .sub _ | .sub _, .int _
  | .sub _, .text _ => rfl

theorem orderList_swap : ∀ as bs : List Token, (orderList as bs).swap = orderList bs as
  | [], [] | [], _ :: _ | _ :: _, [] => rfl
  | a :: as, b :: bs => by
    rw [orderList, orderList, Ordering.swap_then, order_swap a b, orderList_swap as bs]

end

mutual

theorem order_self : ∀ a : Token, order a a = .eq
  | .int _ => Std.ReflOrd.compare_self
  | .text _ => Std.ReflOrd.compare_self
  | .sub a => orderList_self a

theorem orderList_self : ∀ as : List Token, orderList as as = .eq
  | [] => rfl
  | a :: as => by rw [orderList, order_self a, orderList_self as]; rfl

end

mutual

theorem eq_of_order : ∀ {a b : Token}, order a b = .eq → a = b
  | .int a, .int b, h => by
    rw [Int64.toInt_inj.mp (Std.LawfulEqOrd.eq_of_compare (a := a.toInt) (b := b.toInt) h)]
  | .text a, .text b, h => by rw [Std.LawfulEqOrd.eq_of_compare (a := a) (b := b) h]
  | .sub _, .sub _, h => by rw [eq_of_orderList h]
  | .int _, .text _, h | .int _, .sub _, h | .text _, .int _, h | .text _, .sub _, h
  | .sub _, .int _, h | .sub _, .text _, h => nomatch h

theorem eq_of_orderList : ∀ {as bs : List Token}, orderList as bs = .eq → as = bs
  | [], [], _ => rfl
  | [], _ :: _, h | _ :: _, [], h => nomatch h
  | a :: as, b :: bs, h => by
    obtain ⟨hhead, htail⟩ := Ordering.then_eq_eq.mp h
    rw [eq_of_order hhead, eq_of_orderList htail]

end

mutual

theorem order_trans : ∀ {a b c : Token}, order a b = .lt → order b c = .lt → order a c = .lt
  | .int a, .int b, .int c, h, h' =>
    have hab : compare a.toInt b.toInt = .lt := h
    have hbc : compare b.toInt c.toInt = .lt := h'
    have hac : compare a.toInt c.toInt = .lt := Std.TransCmp.lt_trans hab hbc
    hac
  | .text a, .text b, .text c, h, h' =>
    have hab : compare a b = .lt := h
    have hbc : compare b c = .lt := h'
    have hac : compare a c = .lt := Std.TransCmp.lt_trans hab hbc
    hac
  | .sub _, .sub _, .sub _, h, h' => orderList_trans h h'
  | .int _, _, .text _, _, _ | .int _, _, .sub _, _, _ | .text _, _, .sub _, _, _ => rfl
  | .text _, .int _, .int _, h, _ | .text _, .int _, .text _, h, _
  | .sub _, .int _, _, h, _ | .sub _, .text _, _, h, _ => nomatch h
  | .int _, .text _, .int _, _, h | .int _, .sub _, .int _, _, h | .text _, .text _, .int _, _, h
  | .text _, .sub _, .int _, _, h | .text _, .sub _, .text _, _, h | .sub _, .sub _, .int _, _, h
  | .sub _, .sub _, .text _, _, h => nomatch h

theorem orderList_trans : ∀ {as bs cs : List Token},
    orderList as bs = .lt → orderList bs cs = .lt → orderList as cs = .lt
  | [], _, _ :: _, _, _ => rfl
  | [], [], [], h, _ | _ :: _, [], _, h, _ => nomatch h
  | [], _ :: _, [], _, h | _ :: _, _ :: _, [], _, h => nomatch h
  | a :: as, b :: bs, c :: cs, h, h' => by
    rw [orderList, Ordering.then_eq_lt] at h h' ⊢
    rcases h with hab | ⟨hab, has⟩
    · rcases h' with hbc | ⟨hbc, -⟩
      · exact .inl (order_trans hab hbc)
      · exact .inl (eq_of_order hbc ▸ hab)
    · obtain rfl := eq_of_order hab
      rcases h' with hbc | ⟨hbc, hbs⟩
      · exact .inl hbc
      · exact .inr ⟨hbc, orderList_trans has hbs⟩

end

theorem order_eq_iff {a b : Token} : order a b = .eq ↔ a = b :=
  ⟨eq_of_order, fun h => h ▸ order_self a⟩

theorem orderList_eq_iff {as bs : List Token} : orderList as bs = .eq ↔ as = bs :=
  ⟨eq_of_orderList, fun h => h ▸ orderList_self as⟩

end Token

namespace Store

/-! ### The order of keys -/

variable {a b c key : String × Name} {r : Record}

theorem order_eq_iff : order a b = .eq ↔ a = b := by
  rw [order, Ordering.then_eq_eq, Std.LawfulEqOrd.compare_eq_iff_eq, Name.order,
    Token.orderList_eq_iff]
  exact Prod.ext_iff.symm

theorem order_swap : (order a b).swap = order b a := by
  rw [order, order, Ordering.swap_then, Name.order, Name.order, Token.orderList_swap,
    ← Std.OrientedOrd.eq_swap]

theorem order_trans (hab : order a b = .lt) (hbc : order b c = .lt) : order a c = .lt := by
  rw [order, Ordering.then_eq_lt] at hab hbc ⊢
  rcases hab with hab | ⟨hab, hname⟩
  · rcases hbc with hbc | ⟨hbc, -⟩
    · exact .inl (Std.TransCmp.lt_trans hab hbc)
    · exact .inl (Std.LawfulEqOrd.eq_of_compare hbc ▸ hab)
  · rw [Std.LawfulEqOrd.eq_of_compare hab]
    rcases hbc with hbc | ⟨hbc, hname'⟩
    · exact .inl hbc
    · exact .inr ⟨hbc, Token.orderList_trans hname hname'⟩

/-! ### Looking up -/

variable (l : List ((String × Name) × Record))

/-- A record that was put where it belongs is found, and the others are found as before. -/
theorem lookup_insertRecord (key k : String × Name) (r : Record) :
    (insertRecord key r l).lookup k = if k = key then some r else l.lookup k := by
  induction l with
  | nil => exact lookup_cons_eq [] _ _ _
  | cons x rest ih =>
    obtain ⟨k', r'⟩ := x
    rw [insertRecord]
    split
    · exact lookup_cons_eq _ _ _ _
    · next heq =>
      obtain rfl := order_eq_iff.mp heq
      rw [lookup_cons_eq, lookup_cons_eq]
      split <;> rfl
    · next hgt =>
      have hne : key ≠ k' := fun h => by rw [order_eq_iff.mpr h] at hgt; cases hgt
      rw [lookup_cons_eq, lookup_cons_eq, ih]
      split
      · next hk => rw [if_neg (hk ▸ hne.symm)]
      · rfl

/-! ### Setting and deleting -/

section

variable (f : Files) (s : Store) (category : String) (name : Name)

/-- The records after a value was set, whether they could be written to the file or not. -/
theorem records_set (r : Record) :
    (s.set f category name r).1.records = Store.insertRecord (category, name) r s.records := by
  rw [set]
  split <;> rfl

/-- The records after one was deleted, whether the others could be written to the file or not. -/
theorem records_delete :
    (s.delete f category name).1.records =
      s.records.filter (·.1 != (category, name)) := by
  rw [delete]
  split
  · next hnone =>
    refine (List.filter_eq_self.mpr fun x hx => ?_).symm
    rw [bne_comm]
    exact List.lookup_eq_none_iff.mp hnone x hx
  · dsimp only
    split <;> rfl

end

/-! ### Records in their order -/

/-- Records in strictly ascending order of their keys. -/
def Ascending (l : List ((String × Name) × Record)) : Prop :=
  l.Pairwise fun x y => order x.1 y.1 = .lt

theorem mem_insertRecord {x : (String × Name) × Record} (hx : x ∈ insertRecord key r l) :
    x = (key, r) ∨ x ∈ l := by
  fun_induction insertRecord key r l with
  | case1 => exact .inl (List.mem_singleton.mp hx)
  | case2 k r' rest hlt => exact List.mem_cons.mp hx
  | case3 k r' rest heq => exact (List.mem_cons.mp hx).imp_right (List.mem_cons_of_mem _)
  | case4 k r' rest hgt ih =>
    rcases List.mem_cons.mp hx with rfl | hx
    · exact .inr List.mem_cons_self
    · exact (ih hx).imp_right (List.mem_cons_of_mem _)

namespace Ascending

variable {l}

/-- A record is put where it belongs. -/
theorem insertRecord (hl : Ascending l) (key : String × Name) (r : Record) :
    Ascending (Store.insertRecord key r l) := by
  fun_induction Store.insertRecord key r l with
  | case1 => exact List.pairwise_singleton _ _
  | case2 k r' rest hlt =>
    refine .cons (fun x hx => ?_) hl
    rcases List.mem_cons.mp hx with rfl | hx
    · exact hlt
    · exact order_trans hlt (List.rel_of_pairwise_cons hl hx)
  | case3 k r' rest heq =>
    obtain rfl := order_eq_iff.mp heq
    exact .cons (fun x hx => List.rel_of_pairwise_cons hl hx) hl.of_cons
  | case4 k r' rest hgt ih =>
    refine .cons (fun x hx => ?_) (ih hl.of_cons)
    rcases mem_insertRecord rest hx with rfl | hx
    · rw [← order_swap, hgt]
      rfl
    · exact List.rel_of_pairwise_cons hl hx

theorem filter (hl : Ascending l) (p : (String × Name) × Record → Bool) : Ascending (l.filter p) :=
  List.Pairwise.filter p hl

/-- To put a record where it is already changes nothing. -/
theorem insertRecord_of_lookup (hl : Ascending l) (hlookup : l.lookup key = some r) :
    Store.insertRecord key r l = l := by
  fun_induction Store.insertRecord key r l with
  | case1 => cases hlookup
  | case2 k x rest hlt =>
    -- A key that comes before the first one is not found.
    have hbefore (y) (hy : y ∈ (k, x) :: rest) : order key y.1 = .lt := by
      rcases List.mem_cons.mp hy with rfl | hy
      · exact hlt
      · exact order_trans hlt (List.rel_of_pairwise_cons hl hy)
    have hnone : ((k, x) :: rest).lookup key = none := by
      refine List.lookup_eq_none_iff.mpr fun y hy => bne_iff_ne.mpr fun heq => ?_
      have hlt := hbefore y hy
      rw [order_eq_iff.mpr heq] at hlt
      cases hlt
    rw [hnone] at hlookup
    cases hlookup
  | case3 k x rest heq =>
    obtain rfl := order_eq_iff.mp heq
    rw [lookup_cons_eq, if_pos rfl] at hlookup
    rw [Option.some.inj hlookup]
  | case4 k x rest hgt ih =>
    have hne : key ≠ k := fun heq => by
      rw [order_eq_iff.mpr heq] at hgt
      cases hgt
    rw [lookup_cons_eq, if_neg hne] at hlookup
    rw [ih hl.of_cons hlookup]

/-- A record that comes after all others is put at the end. -/
theorem insertRecord_last (hlast : ∀ x ∈ l, order x.1 key = .lt) :
    Store.insertRecord key r l = l ++ [(key, r)] := by
  induction l with
  | nil => rfl
  | cons x rest ih =>
    have hgt : order key x.1 = .gt := by
      rw [← order_swap, hlast x List.mem_cons_self]
      rfl
    simp only [Store.insertRecord, hgt, List.cons_append]
    rw [ih fun y hy => hlast y (List.mem_cons_of_mem x hy)]

/-- Records that are put in one after the other, in their own order, stay in this order. -/
theorem foldl_insertRecord (hl : Ascending l) :
    l.foldl (fun acc x => Store.insertRecord x.1 x.2 acc) [] = l := by
  have hfrom (acc rest) (h : Ascending (acc ++ rest)) :
      rest.foldl (fun acc x => Store.insertRecord x.1 x.2 acc) acc = acc ++ rest := by
    induction rest generalizing acc with
    | nil => exact (List.append_nil acc).symm
    | cons x rest ih =>
      have hlast : Store.insertRecord x.1 x.2 acc = acc ++ [x] :=
        insertRecord_last fun y hy =>
          (List.pairwise_append.mp h).2.2 y hy x List.mem_cons_self
      rw [List.foldl_cons, hlast, ih, List.append_assoc]
      · rfl
      · rw [List.append_assoc]
        exact h
  exact hfrom [] l hl

end Ascending

end Store

end Hearth
