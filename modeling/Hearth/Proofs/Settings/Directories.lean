import Hearth.Proofs.Settings.Includes

/-!
# Where included files lie

An included file is looked for from the directory of the including file. The path that comes out is
then seen from the directory of the house once more. That changes nothing for an absolute path, nor
if the directory of the house is the current one; otherwise the directory is followed twice.

## Main results

* `Sources.included_place` : where the path of an include leads.
* `Sources.included_twice` : a file next to the including one that is not found.
-/

namespace Hearth.Settings.Sources

open Yaml (Value)

variable {s : Sources} {chain : List String} {path relative : String} {node : Value}

/-- An include names a path; it is seen from the directory of the including file. -/
theorem target_eq_ok (h : s.target path node = .ok relative) : ∃ text, node = .text text ∧
    relative = Path.join ((Path.parent? path).getD s.dir) text := by
  cases node with
  | text text =>
    rw [target] at h
    split at h
    · cases h
    · exact ⟨text, rfl, (Except.ok.inj h).symm⟩
  | _ => cases h

/-- A file that includes another one lies in the directory of its path. -/
theorem Leads.seenFrom_parent (hf : s.files.WellFormed) (h : s.Leads chain path node relative) :
    ∃ place content base, s.files.locate path = .ok place ∧
      s.files.node? place = some (.file content) ∧ Path.parent? path = some base ∧
      s.files.seenFrom s.files.current base = .ok place.dropLast := by
  obtain ⟨value, ⟨text, htext, -⟩, -⟩ := h.comes
  obtain ⟨content, hread, -⟩ := exists_of_bind_eq_ok htext
  obtain ⟨place, hlocate, hfile⟩ := Files.read_eq_ok.mp hread
  obtain ⟨base, hbase, hseen⟩ := Files.seenFrom_parent hf hlocate hfile
  exact ⟨place, content, base, hlocate, hfile, hbase, hseen⟩

section Base

variable {text base : String} (hbase : Path.parent? path = some base)
  (htext : Path.isAbsolute text = false)

include hbase htext

/-- The path of a relative include starts where the path of the including file does. -/
theorem isAbsolute_join_parent :
    Path.isAbsolute (Path.join base text) = Path.isAbsolute path := by
  by_cases hempty : base = ""
  · subst hempty
    rw [Path.join_empty, htext, Path.isAbsolute_of_parent_empty hbase]
  · rw [Path.isAbsolute_join hempty, htext, Bool.false_or, Path.isAbsolute_parent hbase hempty]

/-- A relative include leads where it leads from the directory of the including file, if the
directory of the house does not come in between. -/
theorem seenFrom_join_parent {place : Place}
    (hseen : s.files.seenFrom s.files.current base = .ok place.dropLast)
    (h : Path.isAbsolute path = true ∨ s.dir = "" ∨
      s.files.seenFrom s.files.current s.dir = .ok s.files.current) :
    s.files.seenFrom s.files.current (Path.join s.dir (Path.join base text)) =
      s.files.seenFrom place.dropLast text := by
  have hjoin : s.files.seenFrom s.files.current (Path.join base text) =
      s.files.seenFrom place.dropLast text := by
    rw [Files.seenFrom_join _ base htext, hseen]
    rfl
  cases hpath : Path.isAbsolute path with
  | true =>
    rw [Path.join_of_isAbsolute ((isAbsolute_join_parent hbase htext).trans hpath), hjoin]
  | false =>
    obtain habsolute | hdir | hhere := h
    · rw [hpath] at habsolute
      cases habsolute
    · rw [hdir, Path.join_empty, hjoin]
    · rw [Files.seenFrom_join _ s.dir ((isAbsolute_join_parent hbase htext).trans hpath), hhere]
      exact hjoin

/-- Otherwise the directory of the house is followed first. -/
theorem seenFrom_join_join (hpath : Path.isAbsolute path = false) :
    s.files.seenFrom s.files.current (Path.join s.dir (Path.join base text)) = (do
      let house ← s.files.seenFrom s.files.current s.dir
      let origin ← s.files.seenFrom house base
      s.files.seenFrom origin text) := by
  rw [Files.seenFrom_join _ s.dir ((isAbsolute_join_parent hbase htext).trans hpath)]
  simp only [Files.seenFrom_join _ base htext]

end Base

/-- Where an included file is looked for. The including file lies at `place`, and the directory of
its path leads to the directory it lies in. If the include, the path of the including file or the
directory of the house is absolute, or that directory is the current one, the include is followed
from there (a path that is too long is refused). If none of them is, it is followed from where the
directory of the path leads from the directory of the house. -/
theorem included_place (hf : s.files.WellFormed) {file : String} (hvisit : s.Visits file chain path)
    (hleads : s.Leads chain path node relative) :
    ∃ text place content base, node = .text text ∧ s.files.locate path = .ok place ∧
      s.files.node? place = some (.file content) ∧ Path.parent? path = some base ∧
      s.files.seenFrom s.files.current base = .ok place.dropLast ∧
      (Path.isAbsolute s.dir = true → Path.isAbsolute path = true) ∧
      (Path.isAbsolute text = true ∨ Path.isAbsolute path = true ∨ s.dir = "" ∨
          s.files.seenFrom s.files.current s.dir = .ok s.files.current →
        ∀ target, s.files.locate (Path.join s.dir relative) = .ok target ↔
          Files.IsPath (Path.join s.dir relative) ∧
            s.files.seenFrom place.dropLast text = .ok target) ∧
      (Path.isAbsolute text = false → Path.isAbsolute path = false →
        ∀ target, s.files.locate (Path.join s.dir relative) = .ok target ↔
          Files.IsPath (Path.join s.dir relative) ∧
            (do
              let house ← s.files.seenFrom s.files.current s.dir
              let origin ← s.files.seenFrom house base
              s.files.seenFrom origin text) = .ok target) := by
  obtain ⟨text, rfl, hrelative⟩ := target_eq_ok hleads.target
  obtain ⟨place, content, base, hlocate, hfile, hbase, hseen⟩ := hleads.seenFrom_parent hf
  rw [hbase, Option.getD_some] at hrelative
  subst hrelative
  refine ⟨text, place, content, base, rfl, hlocate, hfile, hbase, hseen, hvisit.isAbsolute, ?_, ?_⟩
  · intro h target
    rw [Files.locate_eq_ok_iff]
    cases htext : Path.isAbsolute text with
    | true =>
      rw [Path.join_of_isAbsolute htext, Path.join_of_isAbsolute htext,
        Files.seenFrom_of_isAbsolute htext s.files.current place.dropLast]
    | false =>
      obtain habsolute | h := h
      · rw [htext] at habsolute
        cases habsolute
      · rw [seenFrom_join_parent hbase htext hseen h]
  · intro htext hpath target
    rw [Files.locate_eq_ok_iff, seenFrom_join_join hbase htext hpath]

/-! ### A directory that is followed twice -/

/-- A relative directory with a file that includes the one next to it. -/
def neighbours : Sources where
  files := ⟨[(["conf"], .directory), (["conf", "main"], .file (Text.bytes "!include queue")),
    (["conf", "queue"], .file (Text.bytes "x"))], []⟩
  environment := []
  dir := "conf"
  secrets := .none

theorem neighbours_leads :
    neighbours.Leads [] "conf/main" (.text "queue") "conf/queue" where
  fresh := rfl
  comes := ⟨_, holds_of_wholeInclude?
    (Files.read_eq_ok.mpr ⟨["conf", "main"], by decide +kernel, rfl⟩) (by decide +kernel),
    .here (by decide)⟩
  target := by rfl

theorem neighbours_wellFormed : neighbours.files.WellFormed :=
  Files.wellFormed_of_nodes (by decide +kernel) rfl

/-- The include is followed from a directory in the directory of the house, which is not there. -/
theorem included_place_neighbours : neighbours.files.WellFormed ∧
    neighbours.Visits "main" [] "conf/main" ∧
    neighbours.Leads [] "conf/main" (.text "queue") "conf/queue" ∧
    ∀ target, neighbours.files.locate (Path.join neighbours.dir "conf/queue") ≠ .ok target := by
  have hvisit : neighbours.Visits "main" [] "conf/main" := .start
  refine ⟨neighbours_wellFormed, hvisit, neighbours_leads, fun target htarget => ?_⟩
  obtain ⟨text, place, content, base, htext, -, -, hbase, -, -, -, htwice⟩ :=
    included_place neighbours_wellFormed hvisit neighbours_leads
  obtain rfl : "queue" = text := Value.text.inj htext
  obtain rfl : "conf" = base := Option.some.inj ((by decide +kernel : _ = _).symm.trans hbase)
  obtain ⟨-, hseen⟩ := (htwice rfl rfl target).mp htarget
  have hmissing : (do
      let house ← neighbours.files.seenFrom neighbours.files.current neighbours.dir
      let origin ← neighbours.files.seenFrom house "conf"
      neighbours.files.seenFrom origin "queue") = .error .notFound := by decide +kernel
  cases hmissing.symm.trans hseen

/-- An included file is not found, although it lies next to the including one. -/
theorem included_twice : neighbours.Visits "main" [] "conf/main" ∧
    neighbours.Leads [] "conf/main" (.text "queue") "conf/queue" ∧
    neighbours.files.locate "conf/main" = .ok ["conf", "main"] ∧
    (∃ content, neighbours.files.node? ["conf", "queue"] = some (.file content)) ∧
    neighbours.files.seenFrom ["conf"] "queue" = .ok ["conf", "queue"] ∧
    neighbours.files.read (Path.join neighbours.dir "conf/queue") = .error .notFound :=
  ⟨.start, neighbours_leads, by decide +kernel, ⟨_, rfl⟩, by decide +kernel, by decide +kernel⟩

end Hearth.Settings.Sources
