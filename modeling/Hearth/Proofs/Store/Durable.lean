import Hearth.Proofs.Files.Replacement
import Hearth.Proofs.Store.Document
import Hearth.Proofs.Text.Utf8

/-!
# A store survives its calls being cut off

Every change of a store is written to its file at once. Opened again, the store has the records it
had; and if a call is cut off, wherever that is, it has the records from before the call or those
from after it.

## Main definitions

* `Store.Change` : the calls that change a store.
* `Store.Calls` : calls that all succeed.
* `Store.Saved` : a store whose file has its records.

## Main results

* `Store.Change.run_eq` : a call takes the steps that replace the file.
* `Store.Saved.cutOff`, `Store.Saved.run`, `Store.Saved.failed` : what one call leaves in the file.
* `Store.reopen_cutOff` : what a store is opened with after calls, the last of them cut off.
-/

namespace Hearth.Store

open Files

/-! ### Calls -/

/-- The steps that bring the file of a store up to date. -/
def toFlush (s : Store) : List FileStep :=
  match s.path with
  | none => []
  | some path => flushSteps path s.document

/-- A call that changes a store. -/
inductive Change where
  | set (category : String) (name : Name) (record : Record)
  | delete (category : String) (name : Name)
  deriving Repr, DecidableEq

namespace Change

/-- The call itself. -/
def run (f : Files) (s : Store) : Change → Store × Files × Except StoreError (Option Record)
  | .set category name record => s.set f category name record
  | .delete category name => s.delete f category name

/-- The records after a call. -/
def after (s : Store) : Change → Store
  | .set category name record =>
    { s with records := insertRecord (category, name) record s.records }
  | .delete category name => { s with records := s.records.filter (·.1 != (category, name)) }

/-- The steps that a call takes: none if there is nothing to delete. -/
def steps (s : Store) (change : Change) : List FileStep :=
  match change with
  | .set _ _ _ => (change.after s).toFlush
  | .delete category name =>
    if s.get? category name = none then [] else (change.after s).toFlush

/-- A call whose record, if it has one, can be read back. -/
def Storable : Change → Prop
  | .set category name record => Store.Storable ((category, name), record)
  | .delete _ _ => True

end Change

theorem flush_eq (f : Files) (s : Store) :
    (s.flush f).1 = (FileStep.performAll f s.toFlush).1 ∧
      ((s.flush f).2 = .ok () ↔ (FileStep.performAll f s.toFlush).2 = .ok ()) := by
  rw [flush, toFlush]
  cases s.path with
  | none => simp [FileStep.performAll]
  | some path =>
    dsimp only
    split <;> simp [*]

theorem after_delete_of_get?_eq_none {s : Store} {category : String} {name : Name}
    (h : s.get? category name = none) : (Change.delete category name).after s = s := by
  have hrecords := records_delete .empty s category name
  rw [delete, h] at hrecords
  rw [Change.after, ← hrecords]

/-- A call changes the records, takes its steps, and succeeds if all of them can be taken. -/
theorem Change.run_eq (f : Files) (s : Store) (change : Change) :
    (change.run f s).1 = change.after s ∧
      (change.run f s).2.1 = (FileStep.performAll f (change.steps s)).1 ∧
      ((∃ old, (change.run f s).2.2 = .ok old) ↔
        (FileStep.performAll f (change.steps s)).2 = .ok ()) := by
  cases change with
  | set category name record =>
    obtain ⟨hfiles, hresult⟩ := flush_eq f ((Change.set category name record).after s)
    rw [run, steps, ← hfiles, ← hresult, Store.set, after]
    split <;> simp [*]
  | delete category name =>
    obtain ⟨hfiles, hresult⟩ := flush_eq f ((Change.delete category name).after s)
    rw [run, steps, Store.delete]
    split
    · next hnone =>
      rw [if_pos hnone, after_delete_of_get?_eq_none hnone]
      simp [FileStep.performAll]
    · next old hsome =>
      rw [if_neg (by simp [hsome]), ← hfiles, ← hresult, after]
      dsimp only
      split <;> simp [*]

/-- Calls that all succeed, one after the other. -/
inductive Calls : Files → Store → List Change → Files → Store → Prop
  | nil (f : Files) (s : Store) : Calls f s [] f s
  | cons {f f₁ f' : Files} {s s₁ s' : Store} {change : Change} {changes : List Change}
    {old : Option Record} (h : change.run f s = (s₁, f₁, .ok old))
    (hrest : Calls f₁ s₁ changes f' s') : Calls f s (change :: changes) f' s'

/-! ### Opening -/

variable {f f' : Files} {path : String} {s : Store}

/-- What a store is opened with depends on what its path reads as. -/
theorem openAt_congr (h : f'.read path = f.read path) : openAt f' path = openAt f path := by
  rw [openAt, openAt, readText, readText, h]

/-- A store that is opened is kept in its file, and its records are in order. -/
theorem of_openAt (h : openAt f path = .ok s) : s.path = some path ∧ Ascending s.records := by
  rw [openAt] at h
  split at h
  · split at h
    · next hrecords =>
      cases h
      exact ⟨rfl, ascending_of_ofDocument? hrecords⟩
    · cases h
  · cases h
    exact ⟨rfl, .nil⟩
  · cases h

/-- A store can be opened if its path could be read or was not found. -/
theorem read_of_openAt (h : openAt f path = .ok s) :
    (∃ c, f.read path = .ok c) ∨ f.read path = .error .notFound := by
  cases hread : f.read path with
  | ok c => exact .inl ⟨c, rfl⟩
  | error e =>
    rw [openAt, readText, hread] at h
    simp only [bind, Except.bind] at h
    split at h
    · next heq => cases heq
    · next heq =>
      cases heq
      exact .inr rfl
    · cases h

/-- A store is opened with the records that were written. -/
theorem openAt_of_read (hpath : s.path = some path) (hs : Ascending s.records)
    (hstorable : ∀ entry ∈ s.records, Storable entry)
    (h : f.read path = .ok (Text.bytes s.document)) : openAt f path = .ok s := by
  have htext : f.readText path = .ok s.document := by
    simp only [readText, h, bind, Except.bind, Text.decode?_bytes]
  rw [openAt, htext]
  dsimp only
  rw [ofDocument?_document hs hstorable, ← hpath]

/-! ### Calls that are cut off -/

/-- A store whose file has its records, at a path that stays as it is. -/
structure Saved (f : Files) (path : String) (s : Store) : Prop where
  place : s.path = some path
  ascending : Ascending s.records
  storable : ∀ entry ∈ s.records, Storable entry
  opened : openAt f path = .ok s
  settled : ∃ r, f.Settled path r

theorem Saved.of_openAt (hf : f.WellFormed) (hopen : openAt f path = .ok s)
    (hclear : path ≠ "" → f.locate path = .error .notFound → f.Clear path)
    (hrecords : ∀ entry ∈ s.records, Storable entry) : Saved f path s := by
  obtain ⟨hpath, hs⟩ := Store.of_openAt hopen
  refine ⟨hpath, hs, hrecords, hopen, ?_⟩
  obtain ⟨c, hread⟩ | hread := read_of_openAt hopen
  · exact ⟨_, .of_read hf hread⟩
  · exact ⟨_, .of_notFound hf hclear hread⟩

namespace Change

theorem path_after (s : Store) (change : Change) : (change.after s).path = s.path := by
  cases change <;> rfl

theorem ascending_after (hs : Ascending s.records) (change : Change) :
    Ascending (change.after s).records := by
  cases change with
  | set category name record => exact hs.insertRecord (category, name) record
  | delete category name => exact hs.filter _

theorem storable_after {change : Change} (hs : ∀ entry ∈ s.records, Store.Storable entry)
    (hchange : change.Storable) : ∀ entry ∈ (change.after s).records, Store.Storable entry := by
  intro entry hentry
  cases change with
  | set category name record =>
    obtain rfl | hold := mem_insertRecord s.records hentry
    · exact hchange
    · exact hs entry hold
  | delete category name => exact hs entry (List.mem_of_mem_filter hentry)

/-- The steps of a call on a store with a file: either nothing is to be done, or the file is
replaced. -/
theorem steps_cases (hpath : s.path = some path) (change : Change) :
    change.steps s = [] ∧ change.after s = s ∨
      change.steps s = flushSteps path (change.after s).document := by
  have hflush : (change.after s).toFlush = flushSteps path (change.after s).document := by
    rw [toFlush, path_after, hpath]
  cases change with
  | set category name record => exact .inr hflush
  | delete category name =>
    rw [steps]
    split
    · next hnone => exact .inl ⟨rfl, after_delete_of_get?_eq_none hnone⟩
    · exact .inr hflush

end Change

namespace Saved

variable {change : Change}

/-- A file that stays as it is keeps the records. -/
theorem keep (h : Saved f path s) {r : Except FileError Bytes} (hr : f.Settled path r)
    (hr' : f'.Settled path r) : Saved f' path s :=
  ⟨h.place, h.ascending, h.storable, by rw [openAt_congr (hr'.read.trans hr.read.symm), h.opened],
    r, hr'⟩

/-- A file that was replaced has the new records. -/
theorem replace (h : Saved f path s) (hchange : change.Storable)
    (hr : f'.Settled path (.ok (Text.bytes (change.after s).document))) :
    Saved f' path (change.after s) := by
  have hplace : (change.after s).path = some path := by rw [change.path_after, h.place]
  have hascending := Change.ascending_after h.ascending change
  have hstorable := Change.storable_after h.storable hchange
  exact ⟨hplace, hascending, hstorable, openAt_of_read hplace hascending hstorable hr.read, _, hr⟩

/-- A call that is cut off leaves the records from before it or those from after it. -/
theorem cutOff (h : Saved f path s) (hchange : change.Storable)
    (hcut : FileStep.CutOff f (change.steps s) f') :
    Saved f' path s ∨ Saved f' path (change.after s) := by
  obtain ⟨r, hr⟩ := h.settled
  obtain ⟨hsteps, -⟩ | hsteps := change.steps_cases h.place
  · rw [hsteps] at hcut
    cases hcut
    exact .inl h
  · rw [hsteps] at hcut
    obtain hr' | hr' := hr.cutOff hcut
    · exact .inl (h.keep hr hr')
    · exact .inr (h.replace hchange hr')

/-- A call that succeeds leaves the records that the store has then. -/
theorem run (h : Saved f path s) (hchange : change.Storable) {old : Option Record} {s' : Store}
    (hrun : change.run f s = (s', f', .ok old)) : Saved f' path s' := by
  obtain ⟨hafter, hfiles, hresult⟩ := change.run_eq f s
  rw [hrun] at hafter hfiles hresult
  dsimp only at hafter hfiles hresult
  have hall : FileStep.performAll f (change.steps s) = (f', .ok ()) :=
    Prod.ext hfiles.symm (hresult.mp ⟨old, rfl⟩)
  obtain ⟨r, hr⟩ := h.settled
  rw [hafter]
  obtain ⟨hsteps, hsame⟩ | hsteps := change.steps_cases h.place
  · rw [hsteps] at hall
    cases hall
    rwa [hsame]
  · rw [hsteps] at hall
    exact h.replace hchange (hr.performAll hall)

/-- A call that fails leaves the records from before it in the file. -/
theorem failed (h : Saved f path s) {e : StoreError} (hfailed : (change.run f s).2.2 = .error e) :
    Saved (change.run f s).2.1 path s := by
  obtain ⟨-, hfiles, hresult⟩ := change.run_eq f s
  cases hall : FileStep.performAll f (change.steps s) with
  | mk f₁ result =>
    rw [hall] at hfiles hresult
    rw [hfiles]
    cases result with
    | ok => exact absurd (hresult.mpr rfl) (by simp [hfailed])
    | error e₁ =>
      obtain ⟨r, hr⟩ := h.settled
      obtain ⟨hsteps, -⟩ | hsteps := change.steps_cases h.place
      · rw [hsteps] at hall
        cases hall
      · rw [hsteps] at hall
        exact h.keep hr (hr.performAll_error hall)

/-- Calls that succeed leave the records that the store has at the end. -/
theorem calls {changes : List Change} {s' : Store} (h : Saved f path s)
    (hchanges : ∀ change ∈ changes, change.Storable) (hcalls : Calls f s changes f' s') :
    Saved f' path s' := by
  induction hcalls with
  | nil => exact h
  | cons hrun _ ih =>
    exact ih (h.run (hchanges _ List.mem_cons_self) hrun)
      fun change hchange => hchanges change (List.mem_cons_of_mem _ hchange)

end Saved

/-! ### Opened again -/

/-- The names in a category are in order. -/
theorem pairwise_keys (hs : Ascending s.records) (category : String) :
    (s.keys category).Pairwise fun a b => Name.order a b = .lt := by
  rw [keys, List.pairwise_map]
  refine (hs.filter _).imp_of_mem fun {x y} hx hy hlt => ?_
  have hx' : x.1.1 = category := by simpa using (List.mem_filter.mp hx).2
  have hy' : y.1.1 = category := by simpa using (List.mem_filter.mp hy).2
  rw [order, hx', hy', Std.ReflOrd.compare_self] at hlt
  exact hlt

/-- A store is opened, changed by calls that succeed, and changed once more by a call that is cut
off somewhere. Opened again before that call, it has the records that it had in memory; opened again
afterwards, it has these or those from after the call. In both cases names are in order. -/
theorem reopen_cutOff {f₀ f : Files} {path : String} {s₀ s : Store} {changes : List Change}
    (hf : f₀.WellFormed) (hopen : openAt f₀ path = .ok s₀)
    (hclear : path ≠ "" → f₀.locate path = .error .notFound → f₀.Clear path)
    (hrecords : ∀ entry ∈ s₀.records, Storable entry)
    (hchanges : ∀ change ∈ changes, change.Storable) (hcalls : Calls f₀ s₀ changes f s) :
    openAt f path = .ok s ∧
      ∀ (last : Change) (f' : Files), last.Storable → FileStep.CutOff f (last.steps s) f' →
        ∃ s', openAt f' path = .ok s' ∧ (s' = s ∨ s' = (last.run f s).1) ∧
          ∀ category, (s'.keys category).Pairwise fun a b => Name.order a b = .lt := by
  have hsaved := (Saved.of_openAt hf hopen hclear hrecords).calls hchanges hcalls
  refine ⟨hsaved.opened, fun last f' hlast hcut => ?_⟩
  obtain hbefore | hafter := hsaved.cutOff hlast hcut
  · exact ⟨s, hbefore.opened, .inl rfl, pairwise_keys hbefore.ascending⟩
  · exact ⟨last.after s, hafter.opened, .inr (last.run_eq f s).1.symm,
      pairwise_keys hafter.ascending⟩

/-- A lamp is kept in a directory that is not there at first, and taken away in a call that is cut
off after seven bytes. -/
theorem reopen_cutOff_lamp :
    let on := Change.set "state" [.text "lamp"] ⟨.text "on", ⟨0⟩⟩
    let off := Change.delete "state" [.text "lamp"]
    let s : Store := ⟨some "var/state.json", [(("state", [.text "lamp"]), ⟨.text "on", ⟨0⟩⟩)]⟩
    let f : Files := ⟨[(["var"], .directory),
      (["var", "state.json"], .file (Text.bytes s.document))], []⟩
    let f' := f.put ["var", "state.json.tmp"]
      (.file ((Text.bytes (off.after s).document).take 7))
    Calls .empty ⟨some "var/state.json", []⟩ [on] f s ∧ FileStep.CutOff f (off.steps s) f' ∧
      openAt f "var/state.json" = .ok s ∧ ∃ s', openAt f' "var/state.json" = .ok s' ∧
        (s' = s ∨ s' = (off.run f s).1) := by
  intro on off s f f'
  have hclear : Files.empty.Clear "var/state.json" := by
    have hway (a : Place) (ha : a <+: ["var"]) : a = [] ∨ a = ["var"] := by
      obtain rfl | ⟨b, rfl, hb⟩ := List.prefix_cons_iff.mp ha
      · exact .inl rfl
      · exact .inr (by rw [List.prefix_nil.mp hb])
    refine ⟨nofun, by decide, fun a ha c => ?_, fun a ha => ?_, rfl⟩
    · obtain rfl | rfl := hway a ha <;> nofun
    · obtain rfl | rfl := hway a ha <;> decide
  have hlamp : on.Storable := ⟨by decide, by decide, by decide⟩
  have hcalls : Calls .empty ⟨some "var/state.json", []⟩ [on] f s :=
    by
    exact .cons (show on.run .empty _ = (s, f, .ok none) from rfl) (.nil f s)
  have hcutOff : FileStep.CutOff f (off.steps s) f' := .next rfl (.writing _ 7 rfl)
  obtain ⟨hopened, hcut⟩ := reopen_cutOff wellFormed_empty rfl (fun _ _ => hclear) nofun
    (fun _ h => List.mem_singleton.mp h ▸ hlamp) hcalls
  obtain ⟨s', hs', heither, -⟩ := hcut off f' trivial hcutOff
  exact ⟨hcalls, hcutOff, hopened, s', hs', heither⟩

/-- A path that is not clear: it leads through a directory that is not there and names nothing, and
when the directory was made it names a file that was there before. -/
theorem openAt_of_directory_made :
    let lamp : Store := ⟨some "a/../b.json", [(("state", [.text "lamp"]), ⟨.text "on", ⟨0⟩⟩)]⟩
    let door := Change.set "state" [.text "door"] ⟨.text "shut", ⟨0⟩⟩
    let s : Store := ⟨some "a/../b.json", []⟩
    let f : Files := ⟨[(["b.json"], .file (Text.bytes lamp.document))], []⟩
    let f' := f.put ["a"] .directory
    f.WellFormed ∧ openAt f "a/../b.json" = .ok s ∧ door.Storable ∧
      FileStep.CutOff f (door.steps s) f' ∧
      ¬ ∃ s', openAt f' "a/../b.json" = .ok s' ∧ (s' = s ∨ s' = (door.run f s).1) := by
  intro lamp door s f f'
  have hf : f.WellFormed := by
    refine ⟨fun {place node} h => ?_, rfl⟩
    by_cases hplace : place = []
    · rw [hplace]
      rfl
    · rw [node?_of_ne_nil f hplace, lookup_cons_eq] at h
      split at h
      · next heq =>
        subst heq
        rfl
      · cases h
  have hlamp : ∀ entry ∈ lamp.records, Storable entry := fun entry h => by
    obtain rfl := List.mem_singleton.mp h
    exact ⟨by decide, by decide, by decide⟩
  have hopen : openAt f' "a/../b.json" = .ok lamp :=
    openAt_of_read rfl (List.pairwise_singleton _ _) hlamp rfl
  refine ⟨hf, rfl, ⟨by decide, by decide, by decide⟩, .next rfl (.here f' _), ?_⟩
  rintro ⟨s', hs', hbefore | hafter⟩
  · rw [hopen, hbefore] at hs'
    exact absurd (Except.ok.inj hs') (by decide)
  · rw [hopen, hafter, (door.run_eq f s).1] at hs'
    exact absurd (Except.ok.inj hs') (by decide)

end Hearth.Store
