import Hearth.Proofs.Files.Paths
import Hearth.Proofs.Basic

/-!
# Places that paths name

A path is followed part by part. Every place on the way but the last one has to be a directory; what
is there decides whether the path can be followed, and no other place does.

## Main definitions

* `Files.WellFormed` : every file and directory lies in a directory.
* `Files.enter`, `Files.ends` : where parts lead, if nothing is in the way.

## Main results

* `Files.walk_eq_ok` : what a path that can be followed says about the tree.
* `Files.walk_mono` : a path that can be followed can be followed as long as directories stay.
* `Files.walk_of_no_file` : a path that no file is in the way of.
-/

namespace Hearth.Files

open Hearth.Path

/-- Every file and directory lies in a directory, and the current place is one. -/
structure WellFormed (f : Files) : Prop where
  parent {place : Place} {node : Node} (h : f.node? place = some node) :
    f.node? place.dropLast = some .directory
  current : f.node? f.current = some .directory

/-! ### Nodes -/

theorem node?_nil (f : Files) : f.node? [] = some .directory := rfl

theorem node?_of_ne_nil (f : Files) {place : Place} (h : place ≠ []) :
    f.node? place = f.nodes.lookup place := by
  rw [node?, if_neg (by simpa using h)]

section Nodes

variable (f : Files) {place : Place} (hplace : place ≠ []) (node : Node)

include hplace

/-- What is at a place after a node was put somewhere. -/
theorem node?_put (q : Place) :
    (f.put place node).node? q = if q = place then some node else f.node? q := by
  by_cases hq : q = []
  · rw [hq, if_neg (Ne.symm hplace)]
    rfl
  rw [node?_of_ne_nil _ hq, node?_of_ne_nil _ hq, put, List.lookup_append, lookup_filter,
    lookup_cons_eq]
  split
  · rfl
  · rw [List.lookup_nil, Option.or_none]

/-- What is at a place after a node was taken away somewhere. -/
theorem node?_drop (q : Place) :
    (f.drop place).node? q = if q = place then none else f.node? q := by
  by_cases hq : q = []
  · rw [hq, if_neg (Ne.symm hplace)]
    rfl
  rw [node?_of_ne_nil _ hq, node?_of_ne_nil _ hq, drop, lookup_filter]

end Nodes

theorem ne_nil_of_node? {f : Files} {place : Place} (h : f.node? place ≠ some .directory) :
    place ≠ [] := by
  rintro rfl
  exact h (node?_nil f)

theorem wellFormed_empty : Files.empty.WellFormed where
  parent {place _} h := by
    cases place with
    | nil => rfl
    | cons part place => cases h
  current := rfl

/-- Whether everything lies in a directory can be checked entry by entry. -/
theorem wellFormed_of_nodes {f : Files}
    (hnodes : ∀ entry ∈ f.nodes, f.node? entry.1.dropLast = some .directory)
    (hcurrent : f.node? f.current = some .directory) : f.WellFormed where
  parent {place node} h := by
    by_cases hplace : place = []
    · rw [hplace]
      rfl
    · rw [node?_of_ne_nil f hplace] at h
      obtain ⟨before, after, hsplit, -⟩ := List.lookup_eq_some_iff.mp h
      exact hnodes (place, node) (hsplit ▸ List.mem_append_right before List.mem_cons_self)
  current := hcurrent

/-! ### Where parts lead -/

/-- The place that a part leads to. -/
def enter (place : Place) (part : String) : Place :=
  if part == ".." then place.dropLast else place ++ [part]

/-- The place that parts lead to, if nothing is in the way. -/
def ends (place : Place) (parts : List String) : Place := parts.foldl enter place

/-- Where a path starts. -/
def start (f : Files) (path : String) : Place := if isAbsolute path then [] else f.current

theorem ends_append (place : Place) (a b : List String) :
    ends place (a ++ b) = ends (ends place a) b := List.foldl_append

theorem ends_concat (place : Place) (parts : List String) {name : String} (hname : name ≠ "..") :
    ends place (parts ++ [name]) = ends place parts ++ [name] := by
  rw [ends_append]
  exact if_neg (by simpa using hname)

/-- What becomes of a path at its next part. -/
theorem walk_cons (f : Files) (place : Place) (part : String) (rest : List String) :
    f.walk place (part :: rest) =
      match f.node? place with
      | none => .error .notFound
      | some (.file _) => .error .notADirectory
      | some .directory =>
        if part = "" ∨ part = "." then f.walk place rest
        else if maxName < part.utf8ByteSize then .error .nameTooLong
        else f.walk (enter place part) rest := by
  have hup : ¬ maxName < "..".utf8ByteSize := by decide
  rw [walk]
  cases f.node? place with
  | none => rfl
  | some node =>
    cases node with
    | file content => rfl
    | directory =>
      simp only [Bool.or_eq_true, beq_iff_eq, enter]
      split
      · rfl
      split
      · next h => rw [h, if_neg hup]
      · rfl

theorem followed_cons_idle {part : String} (h : part = "" ∨ part = ".") (rest : List String) :
    followed (part :: rest) = followed rest := by
  rw [followed, List.filter_cons_of_neg]
  · rfl
  · simpa [or_iff_not_imp_left] using h

theorem followed_cons {part : String} (h : ¬ (part = "" ∨ part = ".")) (rest : List String) :
    followed (part :: rest) = part :: followed rest := by
  rw [followed, List.filter_cons_of_pos]
  · rfl
  · simpa [not_or] using h

/-- A path that can be followed leads through directories to the place where its parts lead. -/
theorem walk_eq_ok {f : Files} {place q : Place} {parts : List String}
    (h : f.walk place parts = .ok q) : q = ends place (followed parts) ∧
      (∀ part ∈ followed parts, part.utf8ByteSize ≤ maxName) ∧
      ∀ a, a <+: followed parts → a ≠ followed parts →
        f.node? (ends place a) = some .directory := by
  induction parts generalizing place with
  | nil =>
    cases h
    refine ⟨rfl, nofun, fun a ha hne => absurd (List.prefix_nil.mp ha) hne⟩
  | cons part rest ih =>
    rw [walk_cons] at h
    split at h
    · cases h
    · cases h
    next hdir =>
    split at h
    · next hidle =>
      rw [followed_cons_idle hidle]
      exact ih h
    next hpart =>
    split at h
    · cases h
    next hshort =>
    rw [followed_cons hpart]
    obtain ⟨hq, hshorts, hdirs⟩ := ih h
    refine ⟨hq, ?_, ?_⟩
    · rintro p (_ | ⟨_, hp⟩)
      · exact Nat.le_of_not_lt hshort
      · exact hshorts p hp
    · intro a ha hne
      cases a with
      | nil => exact hdir
      | cons c a =>
        obtain ⟨rfl, hrest⟩ := List.cons_prefix_cons.mp ha
        exact hdirs a hrest fun heq => hne (heq ▸ rfl)

/-- A path that can be followed can be followed as long as directories stay. -/
theorem walk_mono {f f' : Files}
    (hdirs : ∀ p, f.node? p = some .directory → f'.node? p = some .directory)
    {place q : Place} {parts : List String} (h : f.walk place parts = .ok q) :
    f'.walk place parts = .ok q := by
  induction parts generalizing place with
  | nil => exact h
  | cons part rest ih =>
    rw [walk_cons] at h ⊢
    split at h
    · cases h
    · cases h
    next hdir =>
    rw [hdirs place hdir]
    dsimp only
    split at h
    · next hidle => rw [if_pos hidle, ih h]
    next hpart =>
    rw [if_neg hpart]
    split at h
    · cases h
    next hshort => rw [if_neg hshort, ih h]

/-- A path that no file is in the way of can be followed, or some directory is missing. -/
theorem walk_of_no_file {f : Files} {place : Place} {parts : List String}
    (hshort : ∀ part ∈ followed parts, part.utf8ByteSize ≤ maxName)
    (hway : ∀ a, a <+: followed parts → ∀ c, f.node? (ends place a) ≠ some (.file c)) :
    f.walk place parts = .ok (ends place (followed parts)) ∨
      f.walk place parts = .error .notFound := by
  induction parts generalizing place with
  | nil => exact .inl rfl
  | cons part rest ih =>
    rw [walk_cons]
    split
    · exact .inr rfl
    · next c hfile => exact absurd hfile (hway [] (List.nil_prefix) c)
    split
    · next hidle =>
      rw [followed_cons_idle hidle] at hshort hway ⊢
      exact ih hshort hway
    next hpart =>
    rw [followed_cons hpart] at hshort hway ⊢
    rw [if_neg (Nat.not_lt.mpr (hshort part List.mem_cons_self))]
    exact ih (fun p hp => hshort p (List.mem_cons_of_mem part hp)) fun a ha =>
      hway (part :: a) (List.cons_prefix_cons.mpr ⟨rfl, ha⟩)

/-! ### Whole paths -/

/-- A text that can be a path at all. -/
structure IsPath (path : String) : Prop where
  no_zero : path.toList.contains '\x00' = false
  ne_empty : path ≠ ""
  short : path.utf8ByteSize < maxPath

theorem locate_eq_walk {path : String} (h : IsPath path) (f : Files) :
    f.locate path = f.walk (f.start path) (pieces path) := by
  rw [locate, h.no_zero, if_neg Bool.false_ne_true, if_neg (by simpa using h.ne_empty),
    if_neg (Nat.not_le.mpr h.short)]
  rfl

theorem isPath_of_locate {f : Files} {path : String} {p : Place} (h : f.locate path = .ok p) :
    IsPath path := by
  rw [locate] at h
  split at h
  · cases h
  next hzero =>
  split at h
  · cases h
  next hempty =>
  split at h
  · cases h
  next hshort => exact ⟨by simpa using hzero, by simpa using hempty, Nat.lt_of_not_le hshort⟩

theorem isPath_of_notFound {f : Files} {path : String} (hne : path ≠ "")
    (h : f.locate path = .error .notFound) : IsPath path := by
  rw [locate] at h
  split at h
  · cases h
  next hzero =>
  rw [if_neg (by simpa using hne)] at h
  split at h
  · cases h
  next hshort => exact ⟨by simpa using hzero, hne, Nat.lt_of_not_le hshort⟩

/-- A path that names a place leads there through directories. -/
theorem locate_eq_ok {f : Files} {path : String} {p : Place} (h : f.locate path = .ok p) :
    p = ends (f.start path) (names path) ∧ (∀ c ∈ names path, c.utf8ByteSize ≤ maxName) ∧
      ∀ a, a <+: names path → a ≠ names path →
        f.node? (ends (f.start path) a) = some .directory := by
  rw [locate_eq_walk (isPath_of_locate h)] at h
  exact walk_eq_ok h

theorem node?_start {f : Files} (hf : f.WellFormed) (path : String) :
    f.node? (f.start path) = some .directory := by
  rw [start]
  split
  · rfl
  · exact hf.current

/-- A path whose directories are all there and that does not end in a name leads to a directory. -/
theorem node?_of_fileName?_none {f : Files} (hf : f.WellFormed) {path : String} {p : Place}
    (hlocate : f.locate path = .ok p) (hname : fileName? path = none) :
    f.node? p = some .directory := by
  obtain ⟨rfl, -, hdirs⟩ := locate_eq_ok hlocate
  obtain hnil | ⟨front, hup⟩ := names_of_fileName?_none hname
  · rw [hnil]
    exact node?_start hf path
  · have hdir := hdirs front (hup ▸ List.prefix_append _ _) (by simp [hup])
    rw [hup, ends_append]
    exact hf.parent hdir

/-- A path names the same place as long as directories stay. -/
theorem locate_mono {f f' : Files} (hcurrent : f'.current = f.current)
    (hdirs : ∀ p, f.node? p = some .directory → f'.node? p = some .directory)
    {path : String} {p : Place} (h : f.locate path = .ok p) : f'.locate path = .ok p := by
  have hpath := isPath_of_locate h
  rw [locate_eq_walk hpath] at h ⊢
  rw [start, hcurrent]
  exact walk_mono hdirs h

/-- What a file holds. -/
theorem read_eq_ok {f : Files} {path : String} {c : Bytes} :
    f.read path = .ok c ↔ ∃ p, f.locate path = .ok p ∧ f.node? p = some (.file c) := by
  constructor
  · intro h
    obtain ⟨p, hlocate, h⟩ := exists_of_bind_eq_ok h
    split at h
    · cases h
    · cases h
    · next hnode =>
      cases h
      exact ⟨p, hlocate, hnode⟩
  · rintro ⟨p, hlocate, hnode⟩
    simp only [read, hlocate, bind, Except.bind, hnode]

/-- A path that ends where nothing is is not found. -/
theorem read_eq_notFound {f : Files} {path : String} {p : Place} (h : f.locate path = .ok p)
    (hnode : f.node? p = none) : f.read path = .error .notFound := by
  simp only [read, h, bind, Except.bind, hnode]

/-- A file that is written is put where its path leads, unless a directory is there. -/
theorem write_eq_ok {f f' : Files} {path : String} {c : Bytes} (h : f.write path c = .ok f') :
    ∃ p, f.locate path = .ok p ∧ f.node? p ≠ some .directory ∧ f'.current = f.current ∧
      ∀ q, f'.node? q = if q = p then some (.file c) else f.node? q := by
  obtain ⟨p, hlocate, h⟩ := exists_of_bind_eq_ok h
  split at h
  · cases h
  · next hnode =>
    cases h
    exact ⟨p, hlocate, hnode, rfl, node?_put f (ne_nil_of_node? hnode) _⟩

/-- A directory that is made is put where its path leads, if nothing is there. -/
theorem makeDirectory_eq_ok {f f' : Files} {path : String} (h : f.makeDirectory path = .ok f') :
    ∃ p, f.locate (withoutEndSlashes path) = .ok p ∧ f.node? p = none ∧ f'.current = f.current ∧
      ∀ q, f'.node? q = if q = p then some .directory else f.node? q := by
  obtain ⟨p, hlocate, h⟩ := exists_of_bind_eq_ok h
  split at h
  · cases h
  · next hnode =>
    cases h
    exact ⟨p, hlocate, hnode, rfl, node?_put f (ne_nil_of_node? (f := f) (by simp [hnode])) _⟩

/-- A file that is moved is taken from its place and put where the other path leads. -/
theorem rename_eq_ok {f f' : Files} {source target : String} (h : f.rename source target = .ok f') :
    ∃ a b c, f.locate source = .ok a ∧ f.locate target = .ok b ∧ f.node? a = some (.file c) ∧
      f.node? b ≠ some .directory ∧ f'.current = f.current ∧
      ∀ q, f'.node? q = if q = b then some (.file c) else if q = a then none else f.node? q := by
  obtain ⟨a, hsource, h⟩ := exists_of_bind_eq_ok h
  obtain ⟨b, htarget, h⟩ := exists_of_bind_eq_ok h
  split at h
  · cases h
  · cases h
  next c hnode =>
  split at h
  · cases h
  next hslash =>
  split at h
  · cases h
  next hdir =>
  cases h
  rw [withoutEndSlashes_eq_self (Bool.eq_false_iff.mpr hslash)] at htarget
  rw [beq_iff_eq] at hdir
  refine ⟨a, b, c, hsource, htarget, hnode, hdir, rfl, fun q => ?_⟩
  rw [node?_put _ (ne_nil_of_node? hdir), node?_drop f (ne_nil_of_node? (f := f) (by simp [hnode]))]

end Hearth.Files
