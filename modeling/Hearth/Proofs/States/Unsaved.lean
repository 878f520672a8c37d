import Hearth.Proofs.States.Announcements
import Hearth.Proofs.Store.Durable

/-!
# Changes that could not be saved

A call that changes a store changes the records in memory first and brings the file up to date then.
If a step of that is refused, the call fails, but it is not taken back: the store goes on to answer
as if the call had succeeded, while its file has the records from before. To change a state in the
same way once more is no change then: it is neither written nor announced.

## Main definitions

* `Store.SameAnswers` : stores that cannot be told apart by asking them.
* `Store.Change.HalfDone` : what a call that failed leaves behind.
* `House.Taken` : one state is changed, and nothing is locked any more.

## Main results

* `Store.Change.halfDone` : every call that fails is half done.
* `Act.taken_of_setState_unstored`, `Act.taken_of_deleteState_unstored` : a state whose change
  failed.
* `failed_half_done` : both, for all calls and all changes of a state.
-/

namespace Hearth

namespace Store

/-! ### Calls that fail -/

/-- Two stores that answer alike: they have the same record for every name, and list the same
names. -/
structure SameAnswers (s s' : Store) : Prop where
  get : ∀ category name, s'.get? category name = s.get? category name
  keys : ∀ category, s'.keys category = s.keys category

theorem SameAnswers.of_records {s s' : Store} (h : s'.records = s.records) : s.SameAnswers s' where
  get category name := by rw [get?, get?, h]
  keys category := by rw [Store.keys, Store.keys, h]

namespace Change

variable {f : Files} {s : Store} {change : Change} {e : StoreError}

/-- A call that stores the record that is there already. -/
def Repeats (s : Store) : Change → Prop
  | .set category name record => s.get? category name = some record
  | .delete _ _ => False

/-- Only a store with a file fails, and a delete only if there is something to delete. -/
theorem steps_ne_nil (hfailed : (change.run f s).2.2 = .error e) : change.steps s ≠ [] := by
  intro hsteps
  obtain ⟨-, -, hresult⟩ := change.run_eq f s
  rw [hsteps] at hresult
  obtain ⟨old, hold⟩ := hresult.mpr rfl
  rw [hold] at hfailed
  cases hfailed

theorem sameAnswers_after_iff (hs : Ascending s.records)
    (hfailed : (change.run f s).2.2 = .error e) :
    s.SameAnswers (change.after s) ↔ change.Repeats s := by
  have hsteps := steps_ne_nil hfailed
  cases change with
  | set category name record =>
    have hget : ((Change.set category name record).after s).get? category name = some record := by
      rw [get?, after, lookup_insertRecord, if_pos rfl]
    constructor
    · intro hsame
      exact (hsame.get category name).symm.trans hget
    · intro hrepeats
      exact .of_records (hs.insertRecord_of_lookup hrepeats)
  | delete category name =>
    have hget : ((Change.delete category name).after s).get? category name = none := by
      rw [get?, after, lookup_filter]
      simp
    refine iff_of_false (fun hsame => hsteps ?_) id
    rw [steps, if_pos ((hsame.get category name).symm.trans hget)]

/-- What a call that failed leaves behind: the store answers as after the call, which is as before
it only if the call stored what was there already, and the file has the records from before. -/
structure HalfDone (change : Change) (f : Files) (s : Store) : Prop where
  memory : (change.run f s).1 = change.after s
  answers : s.SameAnswers (change.run f s).1 ↔ change.Repeats s
  file : ∀ path, Saved f path s → Saved (change.run f s).2.1 path s

/-- Every call that fails is half done. -/
theorem halfDone (hs : Ascending s.records) (hfailed : (change.run f s).2.2 = .error e) :
    change.HalfDone f s where
  memory := (change.run_eq f s).1
  answers := by rw [(change.run_eq f s).1, sameAnswers_after_iff hs hfailed]
  file _ hsaved := hsaved.failed hfailed

end Change

end Store

/-! ### Changes of a state that fail -/

/-- One state has a value, or none, that it did not have before, the others are as before, and no
lock is left. -/
structure House.Taken (h : House) (name : Name) (new : Option Token) (h' : House) : Prop where
  changed : h.state? name ≠ new
  states : ∀ other, h'.state? other = if other = name then new else h.state? other
  changing : h'.changing = h.changing

namespace Act

variable {name : Name} {value : Token} {scope : ScopeId} {h h' : House} {e : StoreError}

theorem exists_runOn_changeEvent (name : Name) (scope : ScopeId) (old new : Token) (h : House) :
    ∃ e h', (changeEvent name scope old new).runOn h = (.ok e, h') := by
  obtain ⟨e, h', hrun, -⟩ := exists_changeEvent name scope old new h
  exact ⟨e, h', hrun⟩

/-- When a change cannot be stored, the state was not locked; it is locked no longer, and the store
is left as the change made it. -/
theorem eq_of_changeState_unstored {α : Type} {k : Unit → Act α}
    {f : Files → Store → Store × Files × Except StoreError (Option Record)}
    (hk : ∀ h, ∃ x h', (k ()).runOn h = (.ok x, h'))
    (hrun : (changeState name value f >>= k).runOn h = (.error (.external (.store e)), h')) :
    h.isChanging name = false ∧ (f h.files h.store).2.2 = .error e ∧
      h' = unlockState name (stored name f h) := by
  rw [runOn_bind, runOn_changeState] at hrun
  by_cases hlocked : h.isChanging name = true
  · rw [if_pos hlocked] at hrun
    cases hrun
  · rw [if_neg hlocked] at hrun
    refine ⟨Bool.not_eq_true _ ▸ hlocked, ?_⟩
    rcases hf : (f h.files h.store).2.2 with e' | old
    · rw [hf] at hrun
      cases hrun
      exact ⟨rfl, rfl⟩
    · rw [hf] at hrun
      obtain ⟨x, h₁, hx⟩ := hk (stored name f h)
      dsimp only at hrun
      rw [hx] at hrun
      cases hrun

/-- A lock that was taken and given back leaves those that were there. -/
theorem changing_unlockState
    {f : Files → Store → Store × Files × Except StoreError (Option Record)}
    (hfree : h.isChanging name = false) :
    (unlockState name (stored name f h)).changing = h.changing := by
  have hnot : name ∉ h.changing := fun hmem => by simp [isChanging_iff.mpr hmem] at hfree
  change (name :: h.changing).filter (· != name) = h.changing
  rw [List.filter_cons_of_neg (by simp)]
  exact List.filter_eq_self.mpr fun x hx => bne_iff_ne.mpr fun heq => hnot (heq ▸ hx)

/-- A state whose value could not be saved has it all the same. -/
theorem taken_of_setState_unstored
    (hrun : (setState name value scope).runOn h = (.error (.external (.store e)), h')) :
    h.Taken name (some value) h' := by
  have hne : h.state? name ≠ some value := fun hsame => by
    rw [setState_same hsame] at hrun
    cases hrun
  rw [runOn_setState, if_neg (by simpa using hne), runOn_readClock_bind] at hrun
  have hk (h₁ : House) : ∃ x h₂,
      (some <$> changeEvent name scope (h.value name) value).runOn h₁ = (.ok x, h₂) := by
    obtain ⟨x, h₂, hx⟩ := exists_runOn_changeEvent name scope (h.value name) value h₁
    exact ⟨some x, h₂, by rw [runOn_map, hx]; rfl⟩
  obtain ⟨hfree, -, hh'⟩ := eq_of_changeState_unstored hk hrun
  have hrecords : h'.store.records = Store.insertRecord (House.stateCategory, name)
      ⟨value, h.clock⟩ h.store.records := by
    rw [hh']
    exact Store.records_set _ _ _ _ _
  exact {
    changed := hne
    states := state?_insertRecord h h' hrecords
    changing := by
      rw [hh']
      exact changing_unlockState hfree }

/-- A state whose deletion could not be saved is gone all the same. -/
theorem taken_of_deleteState_unstored
    (hrun : (deleteState name scope).runOn h = (.error (.external (.store e)), h')) :
    h.Taken name none h' := by
  have hne : h.state? name ≠ none := fun hnone => by
    rw [deleteState_none hnone] at hrun
    cases hrun
  obtain ⟨old, hold⟩ := Option.ne_none_iff_exists'.mp hne
  rw [runOn_deleteState, hold] at hrun
  obtain ⟨hfree, -, rfl⟩ := eq_of_changeState_unstored
    (exists_runOn_changeEvent name scope old noValue) hrun
  exact {
    changed := hne
    states := state?_filter h _ (Store.records_delete _ _ _ _)
    changing := changing_unlockState hfree }

end Act

/-- What the states are is up to the store. -/
theorem House.state?_of_store {h h' : House} (hstore : h'.store = h.store) (name : Name) :
    h'.state? name = h.state? name := by
  rw [House.state?, House.state?, hstore]

/-- A call that fails is not taken back in memory: the store answers as after the call, which is as
before it only if the call stored what was there already, though its file has the records from
before. So a state whose change failed is changed and nothing is locked; and as long as the store
stays like this, to make the same change again does nothing at all. -/
theorem failed_half_done {f : Files} {s : Store} {change : Store.Change} {e : StoreError}
    (hs : Store.Ascending s.records) (hfailed : (change.run f s).2.2 = .error e) :
    change.HalfDone f s ∧
      ∀ (name : Name) (scope : ScopeId) (h h' : House) (reason : StoreError),
        (∀ value, (Act.setState name value scope).runOn h =
            (.error (.external (.store reason)), h') →
          h.Taken name (some value) h' ∧
            ∀ (later : House) (scope' : ScopeId), later.store = h'.store →
              (Act.setState name value scope').runOn later = (.ok none, later)) ∧
        ((Act.deleteState name scope).runOn h = (.error (.external (.store reason)), h') →
          h.Taken name none h' ∧
            ∀ (later : House) (scope' : ScopeId), later.store = h'.store →
              (Act.deleteState name scope').runOn later =
                (.error (.notFound "state" name), later)) := by
  refine ⟨Store.Change.halfDone hs hfailed,
    fun name scope h h' reason => ⟨fun value hrun => ?_, fun hrun => ?_⟩⟩
  · have htaken := Act.taken_of_setState_unstored hrun
    refine ⟨htaken, fun later scope' hstore => Act.setState_same ?_⟩
    rw [House.state?_of_store hstore, htaken.states, if_pos rfl]
  · have htaken := Act.taken_of_deleteState_unstored hrun
    refine ⟨htaken, fun later scope' hstore => Act.deleteState_none ?_⟩
    rw [House.state?_of_store hstore, htaken.states, if_pos rfl]

/-- A lamp is on and is switched on once more at the same time. That fails, because a directory
stands where the file beside `s.json` is written, and changes nothing. -/
theorem failed_half_done_again :
    let on : Record := ⟨.text "on", ⟨0⟩⟩
    let s : Store := ⟨some "s.json", [(("state", [.text "lamp"]), on)]⟩
    let f : Files := ⟨[(["s.json.tmp"], .directory)], []⟩
    let again := Store.Change.set "state" [.text "lamp"] on
    Store.Ascending s.records ∧
      (again.run f s).2.2 = .error (.file "s.json" .isADirectory) ∧
      s.SameAnswers (again.run f s).1 := by
  intro on s f again
  have hs : Store.Ascending s.records := List.pairwise_singleton _ _
  have hfailed : (again.run f s).2.2 = .error (.file "s.json" .isADirectory) := rfl
  exact ⟨hs, hfailed, (failed_half_done hs hfailed).1.answers.mpr rfl⟩

/-- A directory stands where the file beside `s.json` is written. A lamp is switched on and that
fails, but the lamp is on; when the directory is out of the way, the lamp cannot be switched on any
more, and the file is not written. -/
theorem half_done_lamp :
    let s : Store := ⟨some "s.json", []⟩
    let f : Files := ⟨[(["s.json.tmp"], .directory),
      (["s.json.tmp", "x"], .file (Text.bytes "x"))], []⟩
    let lamp : Name := [.text "lamp"]
    let on := Store.Change.set "state" lamp ⟨.text "on", ⟨0⟩⟩
    let h : House := { (default : House) with store := s, files := f }
    let switch := Act.setState lamp (.text "on") h.root
    Store.openAt f "s.json" = .ok s ∧
      (on.run f s).2.2 = .error (.file "s.json" .isADirectory) ∧ ¬ s.SameAnswers (on.run f s).1 ∧
      ∃ h', switch.runOn h = (.error (.external (.store (.file "s.json" .isADirectory))), h') ∧
        switch.runOn { h' with files := .empty } = (.ok none, { h' with files := .empty }) := by
  intro s f lamp on h switch
  have hs : Store.Ascending s.records := .nil
  have hfailed : (on.run f s).2.2 = .error (.file "s.json" .isADirectory) := rfl
  refine ⟨rfl, hfailed, fun hsame => ?_, _, rfl, Act.setState_same rfl⟩
  cases (Store.Change.halfDone hs hfailed).answers.mp hsame

end Hearth
