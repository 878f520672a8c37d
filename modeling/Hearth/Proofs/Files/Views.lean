import Hearth.Proofs.Files.Places

/-!
# Paths seen from a directory

A path can be followed from any directory. Two paths joined are followed one after the other, and
the directory of a path to a file is where the file lies. Paths with the same parts lead to the same
place; the converse holds only of absolute paths that never lead upwards.

## Main definitions

* `Files.seenFrom` : where a path leads from a directory.

## Main results

* `Files.seenFrom_join` : where a path leads that is joined to another one.
* `Files.seenFrom_parent` : the directory of a path to a file.
* `Path.same_names`, `Path.same_of_place` : paths with the same parts.
-/

namespace Hearth

namespace Path

/-! ### The same parts -/

theorem same_self (path : String) : same path path = true := by
  rw [same, beq_self_eq_true, beq_self_eq_true]
  rfl

theorem followed_parts (path : String) : followed (parts path) = names path := by
  obtain ⟨here, hparts, hhere⟩ := parts_eq path
  have hnames : followed (names path) = names path := by
    rw [names, followed, followed, List.filter_filter]
    simp only [Bool.and_self]
  rw [hparts, followed_append, hnames]
  obtain rfl | ⟨rfl, -⟩ := hhere <;> rfl

theorem same_names {a b : String} (h : same a b = true) :
    isAbsolute a = isAbsolute b ∧ names a = names b := by
  obtain ⟨habsolute, hparts⟩ := Bool.and_eq_true_iff.mp h
  refine ⟨beq_iff_eq.mp habsolute, ?_⟩
  rw [← followed_parts a, ← followed_parts b, beq_iff_eq.mp hparts]

theorem parts_of_isAbsolute {path : String} (h : isAbsolute path = true) :
    parts path = names path := by
  obtain ⟨here, hparts, rfl | ⟨-, hhead⟩⟩ := parts_eq path
  · exact hparts
  · obtain ⟨piece, l, hpieces⟩ := List.exists_cons_of_ne_nil (pieces_ne_nil path)
    obtain rfl : piece = "." := by simpa [hpieces] using hhead
    rw [isAbsolute_of_pieces_cons hpieces (by decide)] at h
    cases h

theorem same_of_names {a b : String} (ha : isAbsolute a = true) (hb : isAbsolute b = true)
    (h : names a = names b) : same a b = true := by
  rw [same, ha, hb, parts_of_isAbsolute ha, parts_of_isAbsolute hb, h, beq_self_eq_true,
    beq_self_eq_true]
  rfl

end Path

open Path

namespace Files

variable {f : Files}

/-- Where a path leads from a directory; an absolute path does not need one. -/
def seenFrom (f : Files) (place : Place) (path : String) : Except FileError Place :=
  f.walk (if isAbsolute path then [] else place) (pieces path)

theorem seenFrom_of_relative {path : String} (h : isAbsolute path = false) (place : Place) :
    f.seenFrom place path = f.walk place (pieces path) := by
  rw [seenFrom, h, if_neg Bool.false_ne_true]

theorem seenFrom_of_isAbsolute {path : String} (h : isAbsolute path = true) (a b : Place) :
    f.seenFrom a path = f.seenFrom b path := by
  rw [seenFrom, seenFrom, if_pos h, if_pos h]

theorem locate_eq_ok_iff {path : String} {place : Place} :
    f.locate path = .ok place ↔ IsPath path ∧ f.seenFrom f.current path = .ok place := by
  constructor
  · intro h
    have hpath := isPath_of_locate h
    rw [locate_eq_walk hpath] at h
    exact ⟨hpath, h⟩
  · rintro ⟨hpath, h⟩
    rw [locate_eq_walk hpath]
    exact h

/-! ### Following a path in two parts -/

theorem walk_append (place : Place) (a b : List String) :
    f.walk place (a ++ b) = f.walk place a >>= (f.walk · b) := by
  induction a generalizing place with
  | nil => rfl
  | cons part rest ih =>
    rw [List.cons_append, walk_cons, walk_cons]
    cases f.node? place with
    | none => rfl
    | some node =>
      cases node with
      | file content => rfl
      | directory =>
        dsimp only
        split
        · exact ih place
        split
        · rfl
        · exact ih (enter place part)

/-- A part that says nothing needs a directory where it stands, as the next part does anyway. -/
theorem walk_idle (place : Place) {parts : List String} (hparts : parts ≠ []) :
    f.walk place ("" :: parts) = f.walk place parts := by
  obtain ⟨part, rest, rfl⟩ := List.exists_cons_of_ne_nil hparts
  rw [walk_cons, if_pos (.inl rfl)]
  cases hnode : f.node? place with
  | none => rw [walk_cons, hnode]
  | some node =>
    cases node with
    | file content => rw [walk_cons, hnode]
    | directory => rfl

/-- A relative path that is joined to another one is followed from where that one leads. -/
theorem walk_join (place : Place) (dir : String) {path : String} (h : isAbsolute path = false) :
    f.walk place (pieces (join dir path)) = f.walk place (pieces dir) >>= (f.seenFrom · path) := by
  have hidle (q : Place) : f.walk q (pieces path) = f.walk q [""] >>= (f.walk · (pieces path)) := by
    rw [← walk_append, List.singleton_append, walk_idle q (pieces_ne_nil path)]
  simp only [seenFrom_of_relative h]
  rw [join, h, if_neg Bool.false_ne_true]
  split
  · next hdir =>
    obtain rfl | hslash : dir = "" ∨ endsInSlash dir = true := by simpa using hdir
    · rw [String.empty_append]
      exact hidle place
    · obtain ⟨front, rfl⟩ := exists_of_endsInSlash hslash
      have hfront : pieces (front ++ "/") = pieces front ++ [""] := by
        have h := pieces_append_slash front ""
        rwa [String.append_empty] at h
      rw [pieces_append_slash, hfront, walk_append, walk_append]
      cases f.walk place (pieces front) with
      | error e => rfl
      | ok q => exact hidle q
  · rw [pieces_append_slash, walk_append]

/-- A path that is joined to another one leads where it leads from there. -/
theorem seenFrom_join (place : Place) (dir : String) {path : String} (h : isAbsolute path = false) :
    f.seenFrom place (join dir path) = f.seenFrom place dir >>= (f.seenFrom · path) := by
  by_cases hdir : dir = ""
  · subst hdir
    have hjoin := walk_join (f := f) place "" h
    rw [join_empty] at hjoin ⊢
    rw [seenFrom_of_relative h, hjoin]
    rfl
  · rw [seenFrom, seenFrom, isAbsolute_join hdir, h, Bool.false_or, walk_join _ dir h]

/-! ### The directory of a file -/

/-- A path can be followed if all places on it are directories. -/
theorem walk_of_directories {place : Place} {parts : List String}
    (hshort : ∀ part ∈ followed parts, part.utf8ByteSize ≤ maxName)
    (hdirs : ∀ a, a <+: followed parts → f.node? (ends place a) = some .directory) :
    f.walk place parts = .ok (ends place (followed parts)) := by
  induction parts generalizing place with
  | nil => rfl
  | cons part rest ih =>
    rw [walk_cons, show f.node? place = _ from hdirs [] List.nil_prefix]
    dsimp only
    split
    · next hidle =>
      rw [followed_cons_idle hidle] at hshort hdirs ⊢
      exact ih hshort hdirs
    next hpart =>
    rw [followed_cons hpart] at hshort hdirs ⊢
    rw [if_neg (Nat.not_lt.mpr (hshort part List.mem_cons_self))]
    exact ih (fun p hp => hshort p (List.mem_cons_of_mem part hp)) fun a ha =>
      hdirs (part :: a) (List.cons_prefix_cons.mpr ⟨rfl, ha⟩)

/-- The directory of a path to a file leads to where the file lies. -/
theorem seenFrom_parent (hf : f.WellFormed) {path : String} {place : Place} {content : Bytes}
    (hlocate : f.locate path = .ok place) (hfile : f.node? place = some (.file content)) :
    ∃ dir, parent? path = some dir ∧ f.seenFrom f.current dir = .ok place.dropLast := by
  obtain ⟨hplace, hshort, hdirs⟩ := locate_eq_ok hlocate
  obtain hnone | ⟨dir, hdir⟩ := Option.eq_none_or_eq_some (parent? path)
  · rw [hplace, names_of_parent_none hnone, show ends (f.start path) [] = f.start path from rfl,
      node?_start hf] at hfile
    cases hfile
  refine ⟨dir, hdir, ?_⟩
  -- The last part is a name, for a path that ends in anything else leads to a directory.
  obtain hunnamed | ⟨name, hname⟩ := Option.eq_none_or_eq_some (fileName? path)
  · rw [node?_of_fileName?_none hf hlocate hunnamed] at hfile
    cases hfile
  obtain ⟨hlast, -, -, hup⟩ := names_of_fileName? hname
  rw [← names_parent hdir] at hlast
  have hprefixes (a : List String) (ha : a <+: names dir) :
      f.node? (ends (f.start path) a) = some .directory := by
    refine hdirs a (ha.trans (hlast ▸ List.prefix_append (names dir) [name])) ?_
    rintro rfl
    have hlength := ha.length_le
    rw [hlast, List.length_append, List.length_singleton] at hlength
    omega
  have hdropLast : place.dropLast = ends (f.start path) (names dir) := by
    rw [hplace, hlast, ends_concat _ _ hup, List.dropLast_concat]
  have hstarts : (if isAbsolute dir then [] else f.current) = f.start path := by
    by_cases hempty : dir = ""
    · subst hempty
      rw [start, isAbsolute_of_parent_empty hdir]
      rfl
    · rw [start, isAbsolute_parent hdir hempty]
  rw [seenFrom, hstarts, hdropLast]
  exact walk_of_directories
    (fun part hpart => hshort part (hlast ▸ List.mem_append_left [name] hpart)) hprefixes

/-! ### Paths to one place -/

/-- Paths with the same parts lead to the same place, if both can be followed. -/
theorem place_of_same {a b : String} {p q : Place} (h : same a b = true)
    (ha : f.locate a = .ok p) (hb : f.locate b = .ok q) : p = q := by
  obtain ⟨habsolute, hnames⟩ := same_names h
  rw [(locate_eq_ok ha).1, (locate_eq_ok hb).1, start, start, habsolute, hnames]

theorem ends_of_not_up {place : Place} {parts : List String} (h : ".." ∉ parts) :
    ends place parts = place ++ parts := by
  induction parts generalizing place with
  | nil => rw [List.append_nil]; rfl
  | cons part rest ih =>
    rw [List.mem_cons, not_or] at h
    obtain ⟨hpart, hrest⟩ := h
    have henter : enter place part = place ++ [part] := if_neg (by simpa using Ne.symm hpart)
    rw [ends, List.foldl_cons, ← ends, henter, ih hrest, List.append_assoc,
      List.singleton_append]

/-- Absolute paths that never lead upwards have the same parts if they lead to the same place. -/
theorem same_of_place {a b : String} {p : Place} (ha : isAbsolute a = true)
    (hb : isAbsolute b = true) (hup : ".." ∉ names a) (hup' : ".." ∉ names b)
    (hp : f.locate a = .ok p) (hp' : f.locate b = .ok p) : same a b = true := by
  have hplaces := (locate_eq_ok hp).1.symm.trans (locate_eq_ok hp').1
  rw [start, start, ha, hb, ends_of_not_up hup, ends_of_not_up hup'] at hplaces
  exact same_of_names ha hb (List.append_cancel_left hplaces)

end Files

end Hearth
