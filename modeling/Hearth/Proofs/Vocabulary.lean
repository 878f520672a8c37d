import Hearth.Proofs.House.Fixtures
import Hearth.Session

/-!
# Vocabularies

However words are registered in the tables of a chain and taken away again, each table keeps its
entries in ascending order, every one under its own name. So the two views of a chain agree: what is
listed are the entries that are found under their own names. A list of words finds the entry of the
longest name that it begins with, among those that accept the words after it, in the first table
that has any; and taking away what was just registered leaves no trace.

## Main definitions

* `Vocabulary.lookup` : the entry that a list of words finds, or the error that says it finds none.
* `Vocabulary.Call`, `Vocabulary.after` : registering and taking away in one table of a chain.
* `WordTable.Kept` : a table with its entries in order, each under its own name.

## Main results

* `Session.runOn_build` : a statement is made with the verb that its words look up.
* `House.topWords_runOn` : how the words of a house change.
* `Vocabulary.words_found` : what is found in a chain, and what is listed.
-/

namespace Hearth

/-! ### Tables -/

namespace WordTable

variable {α : Type} {name : α → Name} {t t' : WordTable α} {n : Name} {x : α}

/-- What was registered is taken away without a trace. -/
theorem unregister?_of_register? (h : t.register? n x = some t') :
    t'.unregister? n = some (x, t) := by
  rcases t.register?_cases n x with ⟨-, hnone⟩ | ⟨hfree, hsome⟩
  · rw [hnone] at h
    cases h
  · obtain rfl := Option.some.inj (hsome.symm.trans h)
    have herase := NameMap.erase_eq_self (NameMap.get?_eq_none_iff.mpr hfree)
    simp only [unregister?, get?, NameMap.get?_insert, if_true, NameMap.erase_insert, herase,
      Option.map_some]

/-- The entries of a table are in ascending order, each under its own name. -/
structure Kept (name : α → Name) (t : WordTable α) : Prop where
  ascending : NameMap.Ascending t.entries
  named : ∀ e ∈ t.entries, e.1 = name e.2

theorem Kept.empty (scope : String) : Kept name (.empty scope) :=
  ⟨List.Pairwise.nil, List.forall_mem_nil _⟩

theorem Kept.register? (ht : Kept name t) (h : t.register? (name x) x = some t') :
    Kept name t' := by
  rcases t.register?_cases (name x) x with ⟨-, hnone⟩ | ⟨-, hsome⟩
  · rw [hnone] at h
    cases h
  · obtain rfl := Option.some.inj (hsome.symm.trans h)
    refine ⟨ht.ascending.insert x, fun e he => ?_⟩
    rcases NameMap.mem_insert he with rfl | he
    · rfl
    · exact ht.named e he

theorem Kept.unregister? (ht : Kept name t) (h : t.unregister? n = some (x, t')) :
    Kept name t' := by
  obtain ⟨y, -, hy⟩ := Option.map_eq_some_iff.mp h
  obtain ⟨-, rfl⟩ := Prod.mk.inj hy
  exact ⟨ht.ascending.erase n, fun e he => ht.named e (List.mem_filter.mp he).1⟩

end WordTable

namespace Vocabulary

variable {α : Type}

/-- The entry that a list of words finds, or the error that says it finds none. -/
def lookup (accepts : α → Name → Bool) (v : Vocabulary α) (words : Name) : Except ScriptError α :=
  match v.find? accepts words with
  | some x => .ok x
  | none => .error (.unknownWord words v.scope)

/-! ### Looking up -/

section

variable {accepts : α → Name → Bool} {v : Vocabulary α} {words : Name}

theorem find?_eq_some_iff {x : α} : v.find? accepts words = some x ↔
    ∃ above t below first rest, v = above ++ t :: below ∧
      NameMap.FitsBest accepts t.entries words first rest x ∧
      ∀ u ∈ above, ∀ first rest y, ¬ NameMap.Fits accepts u.entries words first rest y := by
  simp only [find?, List.findSome?_eq_some_iff, WordTable.lookup, Option.map_eq_some_iff,
    Option.map_eq_none_iff, NameMap.longest?_eq_none_iff, Prod.exists, NameMap.longest?_eq_some_iff]
  constructor
  · rintro ⟨above, t, below, rfl, ⟨k, y, ⟨first, rest, hbest, -⟩, rfl⟩, habove⟩
    exact ⟨above, t, below, first, rest, rfl, hbest, habove⟩
  · rintro ⟨above, t, below, first, rest, rfl, hbest, habove⟩
    exact ⟨above, t, below, rfl, ⟨_, x, ⟨first, rest, hbest, rfl⟩, rfl⟩, habove⟩

theorem find?_eq_none_iff : v.find? accepts words = none ↔
    ∀ t ∈ v, ∀ first rest x, ¬ NameMap.Fits accepts t.entries words first rest x := by
  simp only [find?, List.findSome?_eq_none_iff, WordTable.lookup, Option.map_eq_none_iff,
    NameMap.longest?_eq_none_iff]

theorem lookup_eq_ok_iff {x : α} :
    v.lookup accepts words = .ok x ↔ v.find? accepts words = some x := by
  rw [lookup]
  cases v.find? accepts words <;> simp

theorem lookup_eq_error_iff {e : ScriptError} : v.lookup accepts words = .error e ↔
    e = .unknownWord words v.scope ∧ v.find? accepts words = none := by
  rw [lookup]
  cases v.find? accepts words <;> simp [eq_comm]

end

/-! ### Listing -/

section

variable {name : α → Name}

/-- The entries of a table, put over those of a map one by one. -/
def laid (m below : NameMap α) : NameMap α :=
  m.foldl (fun acc (k, x) => NameMap.insert k x acc) below

theorem ascending_laid (m : NameMap α) {below : NameMap α} (hbelow : below.Ascending) :
    (laid m below).Ascending := by
  induction m generalizing below with
  | nil => exact hbelow
  | cons e m ih => exact ih (hbelow.insert e.2)

/-- The entries of a table hide those that they are put over. -/
theorem get?_laid {m : NameMap α} (hm : m.Ascending) (below : NameMap α) (n : Name) :
    NameMap.get? (laid m below) n = (NameMap.get? m n).or (NameMap.get? below n) := by
  induction m generalizing below with
  | nil => rfl
  | cons e m ih =>
    obtain ⟨k, x⟩ := e
    have hstep : laid ((k, x) :: m) below = laid m (NameMap.insert k x below) := rfl
    have hfresh := hm.get?_head
    rw [hstep, ih (List.pairwise_cons.mp hm).2, NameMap.get?_insert, NameMap.get?_cons]
    by_cases hn : n = k
    · subst hn
      simp [hfresh]
    · simp [hn]

theorem ascending_all (v : Vocabulary α) : NameMap.Ascending v.all := by
  induction v with
  | nil => exact List.Pairwise.nil
  | cons t v ih => exact ascending_laid t.entries ih

/-- What is listed is found, as what is looked up by its name is. -/
theorem get?_all {v : Vocabulary α} (hv : ∀ t ∈ v, WordTable.Kept name t) (n : Name) :
    NameMap.get? v.all n = v.get? n := by
  induction v with
  | nil => rfl
  | cons t v ih =>
    obtain ⟨ht, hv⟩ := List.forall_mem_cons.mp hv
    have hall : all (t :: v) = laid t.entries (all v) := rfl
    rw [hall, get?_laid ht.ascending, ih hv, get?, get?, List.findSome?_cons, WordTable.get?]
    cases NameMap.get? t.entries n <;> rfl

/-- The entry of a name is that of the first table that has the name. -/
theorem get?_eq_some_iff {v : Vocabulary α} (hv : ∀ t ∈ v, WordTable.Kept name t) {n : Name}
    {x : α} : v.get? n = some x ↔
      ∃ above t below, v = above ++ t :: below ∧ (n, x) ∈ t.entries ∧
        ∀ u ∈ above, n ∉ u.entries.map (·.1) := by
  rw [get?, List.findSome?_eq_some_iff]
  refine exists_congr fun above => exists_congr fun t => exists_congr fun below => ?_
  refine and_congr_right fun hsplit => ?_
  have ht : t ∈ v := hsplit ▸ List.mem_append_right _ (.head _)
  simp only [WordTable.get?, NameMap.get?_eq_none_iff, (hv t ht).ascending.mem_iff]

/-- An entry that is found is found under its own name. -/
theorem name_of_get? {v : Vocabulary α} (hv : ∀ t ∈ v, WordTable.Kept name t) {n : Name} {x : α}
    (h : v.get? n = some x) : n = name x := by
  obtain ⟨above, t, below, rfl, hmem, -⟩ := (get?_eq_some_iff hv).mp h
  exact (hv t (List.mem_append_right _ (.head _))).named (n, x) hmem

/-- What is listed are the entries that are found under their own names. -/
theorem mem_all_iff {v : Vocabulary α} (hv : ∀ t ∈ v, WordTable.Kept name t) {x : α} :
    x ∈ v.all.map (·.2) ↔ v.get? (name x) = some x := by
  rw [List.mem_map]
  constructor
  · rintro ⟨⟨n, x⟩, hmem, rfl⟩
    have hget : v.get? n = some x := by rw [← get?_all hv, ← (ascending_all v).mem_iff]; exact hmem
    rwa [name_of_get? hv hget] at hget
  · intro h
    rw [← get?_all hv, ← (ascending_all v).mem_iff] at h
    exact ⟨_, h, rfl⟩

/-- The list is in ascending order of the names. -/
theorem pairwise_all {v : Vocabulary α} (hv : ∀ t ∈ v, WordTable.Kept name t) :
    (v.all.map (·.2)).Pairwise fun x y => Name.before (name x) (name y) := by
  have hnamed : ∀ e ∈ v.all, name e.2 = e.1 := fun e he =>
    (name_of_get? hv (by rw [← get?_all hv, ← (ascending_all v).mem_iff]; exact he)).symm
  rw [List.pairwise_map]
  refine (ascending_all v).imp_of_mem fun ha hb hlt => ?_
  rw [hnamed _ ha, hnamed _ hb]
  exact beq_iff_eq.mpr hlt

end

/-! ### Registering and taking away -/

/-- Registers an entry under its name in the table at some place of a chain. -/
def register? (name : α → Name) (v : Vocabulary α) (place : Nat) (x : α) :
    Option (Vocabulary α) :=
  (v[place]?.bind (·.register? (name x) x)).map (v.set place)

/-- Takes an entry away from the table at some place of a chain. -/
def unregister? (v : Vocabulary α) (place : Nat) (n : Name) : Option (α × Vocabulary α) :=
  (v[place]?.bind (·.unregister? n)).map fun (x, t) => (x, v.set place t)

/-- A call on the table at some place of a chain. -/
inductive Call (α : Type) where
  | register (place : Nat) (x : α)
  | unregister (place : Nat) (n : Name)

/-- The chain after a call; one that is refused changes nothing. -/
def after (name : α → Name) (v : Vocabulary α) : Call α → Vocabulary α
  | .register place x => (v.register? name place x).getD v
  | .unregister place n => ((v.unregister? place n).map (·.2)).getD v

variable {name : α → Name}

theorem register?_eq_some_iff {v v' : Vocabulary α} {place : Nat} {x : α} :
    v.register? name place x = some v' ↔
      ∃ t t', v[place]? = some t ∧ t.register? (name x) x = some t' ∧ v.set place t' = v' := by
  simp only [register?, Option.map_eq_some_iff, Option.bind_eq_some_iff]
  exact ⟨fun ⟨t', ⟨t, ht, ht'⟩, hv'⟩ => ⟨t, t', ht, ht', hv'⟩,
    fun ⟨t, t', ht, ht', hv'⟩ => ⟨t', ⟨t, ht, ht'⟩, hv'⟩⟩

theorem unregister?_eq_some_iff {v v' : Vocabulary α} {place : Nat} {n : Name} {x : α} :
    v.unregister? place n = some (x, v') ↔
      ∃ t t', v[place]? = some t ∧ t.unregister? n = some (x, t') ∧ v.set place t' = v' := by
  simp only [unregister?, Option.map_eq_some_iff, Option.bind_eq_some_iff, Prod.exists,
    Prod.mk.injEq]
  constructor
  · rintro ⟨y, t', ⟨t, ht, ht'⟩, rfl, hv'⟩
    exact ⟨t, t', ht, ht', hv'⟩
  · rintro ⟨t, t', ht, ht', hv'⟩
    exact ⟨x, t', ⟨t, ht, ht'⟩, rfl, hv'⟩

/-- An entry is refused if its name is in the table already. -/
theorem register?_eq_none_iff {v : Vocabulary α} {place : Nat} {t : WordTable α}
    (ht : v[place]? = some t) {x : α} :
    v.register? name place x = none ↔ name x ∈ t.entries.map (·.1) := by
  rw [register?, ht, Option.bind_some, Option.map_eq_none_iff]
  rcases t.register?_cases (name x) x with ⟨hmem, hnone⟩ | ⟨hfree, hsome⟩
  · exact iff_of_true hnone hmem
  · exact iff_of_false (by rw [hsome]; exact Option.some_ne_none _) hfree

/-- Taking away what was just registered leaves the chain as it was. -/
theorem unregister?_of_register? {v v' : Vocabulary α} {place : Nat} {x : α}
    (h : v.register? name place x = some v') : v'.unregister? place (name x) = some (x, v) := by
  obtain ⟨t, t', ht, ht', rfl⟩ := register?_eq_some_iff.mp h
  obtain ⟨hplace, hget⟩ := List.getElem?_eq_some_iff.mp ht
  refine unregister?_eq_some_iff.mpr ⟨t', t, List.getElem?_set_self hplace,
    WordTable.unregister?_of_register? ht', ?_⟩
  rw [List.set_set, ← hget, List.set_getElem_self]

/-- All tables of a chain stay kept when one of them is changed. -/
theorem kept_set {v : Vocabulary α} (hv : ∀ t ∈ v, WordTable.Kept name t) (place : Nat)
    {t : WordTable α} (ht : t.Kept name) : ∀ u ∈ v.set place t, WordTable.Kept name u := by
  intro u hu
  rcases List.mem_or_eq_of_mem_set hu with hu | rfl
  · exact hv u hu
  · exact ht

/-- A call keeps the tables of a chain. -/
theorem kept_after {v : Vocabulary α} (hv : ∀ t ∈ v, WordTable.Kept name t) (c : Call α) :
    ∀ t ∈ v.after name c, WordTable.Kept name t := by
  cases c with
  | register place x =>
    rw [after]
    cases h : v.register? name place x with
    | none => exact hv
    | some v' =>
      obtain ⟨t, t', ht, ht', rfl⟩ := register?_eq_some_iff.mp h
      exact kept_set hv place ((hv t (List.mem_of_getElem? ht)).register? ht')
  | unregister place n =>
    rw [after]
    cases h : v.unregister? place n with
    | none => exact hv
    | some r =>
      obtain ⟨x, v'⟩ := r
      obtain ⟨t, t', ht, ht', rfl⟩ := unregister?_eq_some_iff.mp h
      exact kept_set hv place ((hv t (List.mem_of_getElem? ht)).unregister? ht')

/-- The tables are kept, whatever is called. -/
theorem kept_foldl (scopes : List String) (calls : List (Call α)) :
    ∀ t ∈ calls.foldl (after name) (scopes.map .empty), WordTable.Kept name t := by
  have hempty : ∀ t ∈ scopes.map (WordTable.empty (α := α)), WordTable.Kept name t :=
    List.forall_mem_map.mpr fun scope _ => .empty scope
  generalize scopes.map WordTable.empty = v at hempty ⊢
  induction calls generalizing v with
  | nil => exact hempty
  | cons c calls ih => exact ih _ (kept_after hempty c)

/-- In a chain of tables that are changed in any way: a list of words finds the entry of the longest
name that it begins with, among those that accept the words after it, in the first table that has
any, and is unknown if none has. A name finds the entry of the first table that has it. What is
listed is in strictly ascending order, and are the entries that are found under their own names. An
entry is refused if its name is in the same table already, and taking away one that was just
registered leaves everything as it was. -/
theorem words_found (name : α → Name) (accepts : α → Name → Bool) (scopes : List String)
    (calls : List (Call α)) :
    let v := calls.foldl (after name) (scopes.map .empty)
    (∀ words x, v.lookup accepts words = .ok x ↔
      ∃ above t below first rest, v = above ++ t :: below ∧
        NameMap.FitsBest accepts t.entries words first rest x ∧
        ∀ u ∈ above, ∀ first rest y, ¬ NameMap.Fits accepts u.entries words first rest y) ∧
    (∀ words e, v.lookup accepts words = .error e ↔
      e = .unknownWord words v.scope ∧
        ∀ t ∈ v, ∀ first rest x, ¬ NameMap.Fits accepts t.entries words first rest x) ∧
    (∀ n x, v.get? n = some x ↔
      ∃ above t below, v = above ++ t :: below ∧ (n, x) ∈ t.entries ∧
        ∀ u ∈ above, n ∉ u.entries.map (·.1)) ∧
    ((v.all.map (·.2)).Pairwise fun x y => Name.before (name x) (name y)) ∧
    (∀ x, x ∈ v.all.map (·.2) ↔ v.get? (name x) = some x) ∧
    ∀ place t x, v[place]? = some t →
      (v.register? name place x = none ↔ name x ∈ t.entries.map (·.1)) ∧
        ∀ v', v.register? name place x = some v' →
          v'.unregister? place (name x) = some (x, v) := by
  intro v
  have hkept : ∀ t ∈ v, WordTable.Kept name t := kept_foldl scopes calls
  refine ⟨fun words x => lookup_eq_ok_iff.trans find?_eq_some_iff,
    fun words e => lookup_eq_error_iff.trans (and_congr_right fun _ => find?_eq_none_iff),
    fun n x => get?_eq_some_iff hkept, pairwise_all hkept, fun x => mem_all_iff hkept, ?_⟩
  intro place t x ht
  exact ⟨register?_eq_none_iff ht, fun v' => unregister?_of_register?⟩

end Vocabulary

/-! ### The words of a house -/

/-- A statement is made with the verb that its words look up; words that are unknown change
nothing. -/
theorem Session.runOn_build (s : Session) (words : Name) (line : Nat) (h : House) :
    (s.build words line).runOn h = (do
      let verb ← Act.ofExcept (Vocabulary.lookup Verb.accepts (s.words h) words)
      let event ← Act.makeEvent words s.scope
      Act.build ⟨verb, event, line⟩).runOn h := by
  rw [Session.build, Act.runOn_get_bind, Vocabulary.lookup]
  dsimp only
  cases Vocabulary.find? Verb.accepts (s.words h) words <;> rfl

namespace House

variable (h : House) (v : Verb) (n : Name)

/-- Registering verbs in a house and taking them away are calls on its tables. -/
theorem topWords_runOn :
    ((Act.addTopVerb v).runOn h).2.topWords = h.topWords.after Verb.name (.register 0 v) ∧
    ((Act.addVerb v).runOn h).2.topWords = h.topWords.after Verb.name (.register 1 v) ∧
    ((Act.removeTopVerb n).runOn h).2.topWords = h.topWords.after Verb.name (.unregister 0 n) ∧
    ((Act.removeVerb n).runOn h).2.topWords = h.topWords.after Verb.name (.unregister 1 n) := by
  simp only [Vocabulary.after, Vocabulary.register?, Vocabulary.unregister?, topWords,
    List.getElem?_cons_zero, List.getElem?_cons_succ, Option.bind_some, List.set_cons_zero,
    List.set_cons_succ]
  refine ⟨?_, ?_, ?_, ?_⟩
  · rw [Act.addTopVerb, Act.runOn_get_bind]
    cases h.top.register? v.name v <;> rfl
  · rw [Act.addVerb, Act.runOn_get_bind]
    cases h.common.register? v.name v <;> rfl
  · rw [Act.removeTopVerb, Act.runOn_get_bind]
    cases h.top.unregister? n <;> rfl
  · rw [Act.removeVerb, Act.runOn_get_bind]
    cases h.common.unregister? n <;> rfl

end House

end Hearth
