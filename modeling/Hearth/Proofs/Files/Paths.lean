import Hearth.Files
import Mathlib.Data.List.DropRight
import Mathlib.Data.List.TakeWhile

/-!
# Paths and their parts

A path is the text of its pieces with slashes between them. The directory of a path has the same
parts but the last, and the path with another extension has another last part.

## Main definitions

* `Path.names` : the pieces of a path that are followed.

## Main results

* `Path.pieces_intercalate`, `Path.intercalate_pieces` : a path and its pieces.
* `Path.names_parent` : the parts of the directory of a path.
* `Path.names_withExtension` : the parts of a path with another extension.
-/

namespace Hearth.Path

/-- The pieces that say something. -/
def followed (l : List String) : List String := l.filter fun c => c != "" && c != "."

/-- The pieces of a path that say something. -/
def names (path : String) : List String := followed (pieces path)

theorem followed_append (a b : List String) : followed (a ++ b) = followed a ++ followed b :=
  List.filter_append a b

theorem mem_followed {c : String} {l : List String} :
    c ∈ followed l ↔ c ∈ l ∧ c ≠ "" ∧ c ≠ "." := by
  simp [followed]

theorem followed_eq_nil {l : List String} (h : ∀ c ∈ l, (c == "" || c == ".") = true) :
    followed l = [] := by
  rw [followed, List.filter_eq_nil_iff]
  intro c hc
  simpa [← or_iff_not_imp_left] using h c hc

theorem followed_singleton {c : String} (h : ¬ (c == "" || c == ".") = true) :
    followed [c] = [c] := by
  simp only [Bool.or_eq_true, beq_iff_eq, not_or] at h
  simp [followed, h.1, h.2]

/-! ### Pieces -/

theorem pieces_ne_nil (path : String) : pieces path ≠ [] := by
  simp [pieces, List.splitOn_ne_nil]

theorem not_mem_splitOn {cs : List Char} {piece : List Char} (h : piece ∈ cs.splitOn '/') :
    '/' ∉ piece := by
  induction cs generalizing piece with
  | nil =>
    obtain rfl : piece = [] := by simpa using h
    exact List.not_mem_nil
  | cons c cs ih =>
    rw [List.splitOn_cons_eq_if_modifyHead] at h
    split at h
    · obtain rfl | h := List.mem_cons.mp h
      · exact List.not_mem_nil
      · exact ih h
    · next hc =>
      obtain ⟨first, rest, hsplit⟩ := List.exists_cons_of_ne_nil (List.splitOn_ne_nil '/' cs)
      rw [hsplit, List.modifyHead_cons] at h
      obtain rfl | h := List.mem_cons.mp h
      · rintro (_ | ⟨_, hmem⟩)
        · exact hc (beq_self_eq_true '/')
        · exact ih (hsplit ▸ List.mem_cons_self) hmem
      · exact ih (hsplit ▸ List.mem_cons_of_mem first h)

theorem slash_not_mem_of_mem_pieces {path piece : String} (h : piece ∈ pieces path) :
    '/' ∉ piece.toList := by
  obtain ⟨cs, hcs, rfl⟩ := List.mem_map.mp h
  rw [String.toList_ofList]
  exact not_mem_splitOn hcs

/-- A path is the text of its pieces with slashes between them. -/
theorem intercalate_pieces (path : String) : String.intercalate "/" (pieces path) = path := by
  apply String.toList_injective
  have hmap : (pieces path).map String.toList = path.toList.splitOn '/' := by
    simp [pieces, Function.comp_def]
  rw [String.toList_intercalate, hmap]
  exact List.intercalate_splitOn '/'

/-- The pieces of a text made of pieces. -/
theorem pieces_intercalate {l : List String} (hne : l ≠ []) (hl : ∀ c ∈ l, '/' ∉ c.toList) :
    pieces (String.intercalate "/" l) = l := by
  have hsplit : (String.intercalate "/" l).toList.splitOn '/' = l.map String.toList := by
    rw [String.toList_intercalate]
    refine List.splitOn_intercalate '/' ?_ (by simpa using hne)
    rintro cs hcs
    obtain ⟨c, hc, rfl⟩ := List.mem_map.mp hcs
    exact hl c hc
  rw [pieces, hsplit, List.map_map]
  exact List.map_id'' (fun c => String.ofList_toList) l

/-- The pieces of two texts with a slash between them. -/
theorem pieces_append_slash (a b : String) : pieces (a ++ "/" ++ b) = pieces a ++ pieces b := by
  have hslash : "/".toList = ['/'] := rfl
  rw [pieces, String.toList_append, String.toList_append, hslash, List.append_assoc,
    List.singleton_append, List.splitOn_append_cons_self, List.map_append]
  rfl

theorem pieces_of_no_slash {s : String} (hs : '/' ∉ s.toList) : pieces s = [s] := by
  rw [pieces, List.splitOn_eq_singleton hs, List.map_singleton, String.ofList_toList]

/-- A path that starts at the root has a first piece that is empty, and another one. -/
theorem pieces_slash_append (s : String) : pieces ("/" ++ s) = "" :: pieces s := by
  have h := pieces_append_slash "" s
  rw [String.empty_append] at h
  exact h

/-! ### Relative and absolute paths -/

theorem isAbsolute_slash_append (s : String) : isAbsolute ("/" ++ s) = true := by
  rw [isAbsolute, String.toList_append]
  rfl

theorem isAbsolute_of_not_mem {s : String} (hs : '/' ∉ s.toList) : isAbsolute s = false := by
  rw [isAbsolute, beq_eq_false_iff_ne]
  exact fun h => hs (List.mem_of_head? h)

/-- A text made of pieces, the first one not empty, does not start at the root. -/
theorem isAbsolute_intercalate {c : String} {l : List String} (hne : c ≠ "")
    (hc : '/' ∉ c.toList) : isAbsolute (String.intercalate "/" (c :: l)) = false := by
  have hhead : c.toList.head? ≠ some '/' := fun h => hc (List.mem_of_head? h)
  have hchars : c.toList ≠ [] := by simpa using hne
  rw [isAbsolute, beq_eq_false_iff_ne, String.toList_intercalate, List.map_cons]
  cases l with
  | nil => simpa using hhead
  | cons d l =>
    rw [List.map_cons, List.intercalate_cons_cons, List.head?_append_of_ne_nil _ (by simp)]
    simpa [List.head?_append_of_ne_nil _ hchars] using hhead

/-- A path whose first piece is empty starts at the root, unless there is no other piece. -/
theorem isAbsolute_of_pieces {path piece : String} {l : List String}
    (h : pieces path = "" :: piece :: l) : isAbsolute path = true := by
  have hpath : path = "/" ++ String.intercalate "/" (piece :: l) := by
    rw [← intercalate_pieces path, h]
    apply String.toList_injective
    rw [String.toList_append, String.toList_intercalate, String.toList_intercalate]
    rfl
  rw [hpath, isAbsolute_slash_append]

theorem isAbsolute_of_pieces_cons {path piece : String} {l : List String}
    (h : pieces path = piece :: l) (hne : piece ≠ "") : isAbsolute path = false := by
  rw [← intercalate_pieces path, h]
  exact isAbsolute_intercalate hne (slash_not_mem_of_mem_pieces (h ▸ List.mem_cons_self))

/-! ### Without the last part -/

/-- What is left without the last part that is followed. -/
theorem followed_of_dropLast? {l rest : List String} (h : dropLast? l = some rest) :
    rest <+: l ∧ ∃ last, followed l = followed rest ++ [last] := by
  rw [dropLast?] at h
  split at h
  · cases h
  · next last before hdrop =>
    obtain rfl := Option.some.inj h
    have hlast : ¬ (last == "" || last == ".") = true := by
      have hhead := List.head_dropWhile_not (l := l.reverse) (fun c => c == "" || c == ".")
        (by simp [hdrop])
      rw [Bool.not_eq_true]
      simpa only [hdrop, List.head_cons] using hhead
    have hidle (cs : List String) :
        followed (cs.takeWhile fun c => c == "" || c == ".").reverse = [] :=
      followed_eq_nil fun c hc => List.mem_takeWhile_imp (p := fun c => c == "" || c == ".")
        (List.mem_reverse.mp hc)
    have hl : l = (before.dropWhile fun c => c == "" || c == ".").reverse ++
        ((before.takeWhile fun c => c == "" || c == ".").reverse ++ ([last] ++
          (l.reverse.takeWhile fun c => c == "" || c == ".").reverse)) := by
      have hrev : l.reverse = (l.reverse.takeWhile fun c => c == "" || c == ".") ++
          last :: ((before.takeWhile fun c => c == "" || c == ".") ++
            before.dropWhile fun c => c == "" || c == ".") := by
        rw [List.takeWhile_append_dropWhile, ← hdrop, List.takeWhile_append_dropWhile]
      simpa only [List.reverse_reverse, List.reverse_append, List.reverse_cons, List.append_assoc]
        using congrArg List.reverse hrev
    refine ⟨⟨_, hl.symm⟩, last, ?_⟩
    conv_lhs => rw [hl]
    rw [followed_append, followed_append, followed_append, hidle, hidle, List.nil_append,
      List.append_nil, followed_singleton hlast]

theorem followed_eq_dropLast {l rest : List String} (h : dropLast? l = some rest) :
    followed rest = (followed l).dropLast := by
  obtain ⟨-, last, hlast⟩ := followed_of_dropLast? h
  rw [hlast, List.dropLast_concat]

theorem followed_of_dropLast?_none {l : List String} (h : dropLast? l = none) :
    followed l = [] := by
  rw [dropLast?] at h
  split at h
  · next hdrop =>
    refine followed_eq_nil fun c hc => ?_
    exact List.dropWhile_eq_nil_iff.mp hdrop c (List.mem_reverse.mpr hc)
  · cases h

/-! ### The directory of a path -/

theorem names_intercalate {l : List String} (hl : ∀ c ∈ l, '/' ∉ c.toList) :
    names (String.intercalate "/" l) = followed l := by
  cases l with
  | nil => rfl
  | cons c l => rw [names, pieces_intercalate (List.cons_ne_nil c l) hl]

theorem names_slash_append (s : String) : names ("/" ++ s) = names s := by
  rw [names, pieces_slash_append]
  rfl

/-- The ways in which a path can have a directory. -/
theorem parent?_cases {path dir : String} (h : parent? path = some dir) :
    (∃ l rest, pieces path = "" :: l ∧ dropLast? l = some rest ∧
      dir = "/" ++ String.intercalate "/" rest) ∨
    (∃ l rest, pieces path = "." :: l ∧ dropLast? l = some rest ∧
      dir = String.intercalate "/" ("." :: rest)) ∨
    (∃ l, pieces path = "." :: l ∧ dropLast? l = none ∧ dir = "") ∨
    ∃ c l rest, pieces path = c :: l ∧ c ≠ "" ∧ c ≠ "." ∧ dropLast? (c :: l) = some rest ∧
      dir = String.intercalate "/" rest := by
  rw [parent?] at h
  split at h
  · next l hpieces =>
    obtain ⟨rest, hrest, hdir⟩ := Option.map_eq_some_iff.mp h
    exact .inl ⟨l, rest, hpieces, hrest, hdir.symm⟩
  · next l hpieces =>
    split at h
    · next rest hrest =>
      exact .inr (.inl ⟨l, rest, hpieces, hrest, (Option.some.inj h).symm⟩)
    · next hnone => exact .inr (.inr (.inl ⟨l, hpieces, hnone, (Option.some.inj h).symm⟩))
  · next hroot hhere =>
    obtain ⟨rest, hrest, hdir⟩ := Option.map_eq_some_iff.mp h
    obtain ⟨c, l, hpieces⟩ := List.exists_cons_of_ne_nil (pieces_ne_nil path)
    refine .inr (.inr (.inr ⟨c, l, rest, hpieces, ?_, ?_, hpieces ▸ hrest, hdir.symm⟩))
    · rintro rfl
      exact hroot l hpieces
    · rintro rfl
      exact hhere l hpieces

/-- The directory of a path is named by its parts without the last one. -/
theorem names_parent {path dir : String} (h : parent? path = some dir) :
    names dir = (names path).dropLast := by
  have hslash (c) (hc : c ∈ pieces path) : '/' ∉ c.toList := slash_not_mem_of_mem_pieces hc
  rw [names.eq_def path]
  obtain ⟨l, rest, hpieces, hrest, rfl⟩ | ⟨l, rest, hpieces, hrest, rfl⟩ |
    ⟨l, hpieces, hnone, rfl⟩ | ⟨c, l, rest, hpieces, -, -, hrest, rfl⟩ := parent?_cases h
  all_goals rw [hpieces] at hslash ⊢
  · obtain ⟨hrests, -⟩ := followed_of_dropLast? hrest
    rw [names_slash_append, names_intercalate, followed_eq_dropLast hrest]
    · rfl
    · exact fun d hd => hslash d (List.mem_cons_of_mem _ (hrests.subset hd))
  · obtain ⟨hrests, -⟩ := followed_of_dropLast? hrest
    rw [names_intercalate]
    · change followed rest = (followed l).dropLast
      exact followed_eq_dropLast hrest
    · rintro d (_ | ⟨_, hd⟩)
      · exact hslash "." List.mem_cons_self
      · exact hslash d (List.mem_cons_of_mem _ (hrests.subset hd))
  · change names "" = (followed l).dropLast
    rw [followed_of_dropLast?_none hnone]
    rfl
  · obtain ⟨hrests, -⟩ := followed_of_dropLast? hrest
    rw [names_intercalate, followed_eq_dropLast hrest]
    exact fun d hd => hslash d (hrests.subset hd)

/-- The directory of a path starts where the path does. -/
theorem isAbsolute_parent {path dir : String} (h : parent? path = some dir) (hdir : dir ≠ "") :
    isAbsolute dir = isAbsolute path := by
  obtain ⟨l, rest, hpieces, hrest, rfl⟩ | ⟨l, rest, hpieces, hrest, rfl⟩ |
    ⟨l, hpieces, hnone, rfl⟩ | ⟨c, l, rest, hpieces, hc, hdot, hrest, rfl⟩ := parent?_cases h
  · cases l with
    | nil => cases hrest
    | cons d l => rw [isAbsolute_slash_append, isAbsolute_of_pieces hpieces]
  · rw [isAbsolute_of_pieces_cons hpieces (by decide), isAbsolute_intercalate (by decide)]
    exact slash_not_mem_of_mem_pieces (hpieces ▸ List.mem_cons_self)
  · exact absurd rfl hdir
  · obtain ⟨hrests, -⟩ := followed_of_dropLast? hrest
    cases rest with
    | nil => exact absurd rfl hdir
    | cons d rest =>
      obtain rfl : d = c := (List.cons_prefix_cons.mp hrests).1
      rw [isAbsolute_of_pieces_cons hpieces hc, isAbsolute_intercalate hc]
      exact slash_not_mem_of_mem_pieces (hpieces ▸ List.mem_cons_self)

/-- A path of a single part starts at the current directory. -/
theorem isAbsolute_of_parent_empty {path : String} (h : parent? path = some "") :
    isAbsolute path = false := by
  obtain ⟨l, rest, hpieces, hrest, hdir⟩ | ⟨l, rest, hpieces, hrest, hdir⟩ |
    ⟨l, hpieces, hnone, -⟩ | ⟨c, l, rest, hpieces, hc, hdot, hrest, -⟩ := parent?_cases h
  · simpa using congrArg String.toList hdir
  · exact isAbsolute_of_pieces_cons hpieces (by decide)
  · exact isAbsolute_of_pieces_cons hpieces (by decide)
  · exact isAbsolute_of_pieces_cons hpieces hc

theorem names_of_parent_none {path : String} (h : parent? path = none) : names path = [] := by
  rw [parent?] at h
  rw [names]
  split at h
  · next l hpieces =>
    rw [hpieces]
    exact followed_of_dropLast?_none (l := l) (Option.map_eq_none_iff.mp h)
  · split at h <;> cases h
  · exact followed_of_dropLast?_none (Option.map_eq_none_iff.mp h)

/-! ### The last part of a path -/

theorem parts_eq (path : String) : ∃ here, parts path = here ++ names path ∧
    (here = [] ∨ here = ["."] ∧ (pieces path).head? = some ".") := by
  refine ⟨if (pieces path).head? == some "." then ["."] else [], rfl, ?_⟩
  split
  · next h => exact .inr ⟨rfl, by simpa using h⟩
  · exact .inl rfl

/-- The last part of a path, if it is a name, is the last one that is followed. -/
theorem names_of_fileName? {path name : String} (h : fileName? path = some name) :
    names path = (names path).dropLast ++ [name] ∧ name ≠ "" ∧ name ≠ "." ∧ name ≠ ".." := by
  obtain ⟨here, hparts, hhere⟩ := parts_eq path
  rw [fileName?, hparts] at h
  rcases List.eq_nil_or_concat (names path) with hnil | ⟨front, last, hlast⟩
  · rw [hnil, List.append_nil] at h
    obtain rfl | ⟨rfl, -⟩ := hhere <;> cases h
  · rw [hlast, List.concat_eq_append, ← List.append_assoc, List.getLast?_concat] at h
    have hmem : last ∈ names path := by simp [hlast]
    have hfollowed := mem_followed.mp hmem
    split at h
    · cases h
    · cases h
    · next hup hdot =>
      obtain rfl := Option.some.inj h
      refine ⟨by simp [hlast], hfollowed.2.1, hfollowed.2.2, ?_⟩
      rintro rfl
      exact hup rfl

/-- A path that does not end in a name has no parts, or leads upwards at its end. -/
theorem names_of_fileName?_none {path : String} (h : fileName? path = none) :
    names path = [] ∨ ∃ front, names path = front ++ [".."] := by
  obtain ⟨here, hparts, -⟩ := parts_eq path
  rcases List.eq_nil_or_concat (names path) with hnil | ⟨front, last, hlast⟩
  · exact .inl hnil
  · rw [fileName?, hparts, hlast, List.concat_eq_append, ← List.append_assoc,
      List.getLast?_concat] at h
    have hmem : last ∈ names path := by simp [hlast]
    split at h
    · next hup =>
      obtain rfl := Option.some.inj hup
      exact .inr ⟨front, by simp [hlast]⟩
    · next hdot =>
      obtain rfl := Option.some.inj hdot
      exact absurd rfl (mem_followed.mp hmem).2.2
    · cases h

theorem slash_not_mem_of_mem_names {path name : String} (h : name ∈ names path) :
    '/' ∉ name.toList := slash_not_mem_of_mem_pieces (mem_followed.mp h).1

/-- A name is its stem and what follows it, which has a dot at most at its start. -/
theorem exists_stem_append (name : String) : ∃ rest : List Char,
    name.toList = (stem name).toList ++ rest ∧ '.' ∉ rest.tail := by
  rw [stem]
  split
  · exact ⟨[], by simp, by simp⟩
  · next d before hdrop =>
    split
    · exact ⟨[], by simp, by simp⟩
    · refine ⟨d :: (name.toList.reverse.takeWhile (· != '.')).reverse, ?_, ?_⟩
      · have hrev := List.takeWhile_append_dropWhile (p := (· != '.')) (l := name.toList.reverse)
        rw [hdrop] at hrev
        simpa using (congrArg List.reverse hrev).symm
      · intro hmem
        have hdot := List.mem_takeWhile_imp (p := (· != '.')) (List.mem_reverse.mp hmem)
        exact absurd hdot (by decide)

/-- A file beside another one, with another extension that holds a dot. -/
theorem stem_append_ne (name : String) : stem name ++ "." ++ "json.tmp" ≠ name := by
  intro h
  obtain ⟨rest, hrest, hdot⟩ := exists_stem_append name
  have hchars := congrArg String.toList h
  rw [hrest, String.toList_append, String.toList_append, List.append_assoc] at hchars
  obtain rfl := List.append_cancel_left hchars
  exact hdot (by decide)

/-- The characters of a stem are those of the name. -/
theorem mem_of_mem_stem {name : String} {c : Char} (h : c ∈ (stem name).toList) :
    c ∈ name.toList := by
  obtain ⟨rest, hrest, -⟩ := exists_stem_append name
  rw [hrest]
  exact List.mem_append_left rest h

/-! ### Joined paths -/

theorem names_append_slash (a b : String) : names (a ++ "/" ++ b) = names a ++ names b := by
  rw [names, pieces_append_slash, followed_append]
  rfl

theorem exists_of_endsInSlash {path : String} (h : endsInSlash path = true) :
    ∃ front, path = front ++ "/" := by
  rw [endsInSlash, beq_iff_eq, List.getLast?_eq_some_iff] at h
  obtain ⟨cs, hcs⟩ := h
  refine ⟨String.ofList cs, String.toList_injective ?_⟩
  rw [hcs, String.toList_append, String.toList_ofList]
  rfl

theorem isAbsolute_append {a : String} (ha : a ≠ "") (b : String) :
    isAbsolute (a ++ b) = isAbsolute a := by
  rw [isAbsolute, isAbsolute, String.toList_append,
    List.head?_append_of_ne_nil _ (by simpa using ha)]

theorem join_of_isAbsolute {dir path : String} (h : isAbsolute path = true) :
    join dir path = path := if_pos h

theorem join_empty (path : String) : join "" path = path := by
  rw [join]
  split
  · rfl
  · exact String.empty_append

/-- A path joined to another one starts where that one does, unless it starts at the root. -/
theorem isAbsolute_join {dir path : String} (hdir : dir ≠ "") :
    isAbsolute (join dir path) = (isAbsolute path || isAbsolute dir) := by
  rw [join]
  split
  · next h => rw [h, Bool.true_or]
  next h =>
  rw [Bool.not_eq_true] at h
  rw [h, Bool.false_or]
  split
  · rw [isAbsolute_append hdir]
  · rw [String.append_assoc, isAbsolute_append hdir]

theorem isAbsolute_join_of_left {dir path : String} (h : isAbsolute dir = true) :
    isAbsolute (join dir path) = true := by
  have hne : dir ≠ "" := by
    rintro rfl
    cases h
  rw [isAbsolute_join hne, h, Bool.or_true]

/-- The parts of a relative path that is joined to another one follow the parts of that one. -/
theorem names_join {path : String} (dir : String) (h : isAbsolute path = false) :
    names (join dir path) = names dir ++ names path := by
  rw [join, h, if_neg Bool.false_ne_true]
  split
  · next hdir =>
    obtain rfl | hslash : dir = "" ∨ endsInSlash dir = true := by simpa using hdir
    · rw [String.empty_append]
      rfl
    · obtain ⟨front, rfl⟩ := exists_of_endsInSlash hslash
      have hfront := names_append_slash front ""
      rw [String.append_empty] at hfront
      rw [names_append_slash, hfront, show names "" = [] from rfl, List.append_nil]
  · exact names_append_slash dir path

/-! ### Another extension -/

section Extension

variable {path name extension : String}

theorem names_of_no_slash (hslash : '/' ∉ name.toList) (hne : name ≠ "") (hdot : name ≠ ".") :
    names name = [name] := by
  rw [names, pieces_of_no_slash hslash]
  simp [followed, hne, hdot]

/-- The file name with another extension. -/
theorem slash_not_mem_extended (hname : '/' ∉ name.toList) (hextension : '/' ∉ extension.toList) :
    '/' ∉ (stem name ++ "." ++ extension).toList := by
  rw [String.toList_append, String.toList_append, List.mem_append, List.mem_append]
  rintro ((h | h) | h)
  · exact hname (mem_of_mem_stem h)
  · exact absurd h (by decide)
  · exact hextension h

/-- A path with another extension is named by the same parts but the last, from the same place. -/
theorem names_withExtension (hname : fileName? path = some name)
    (hextension : '/' ∉ extension.toList) (hne : extension ≠ "") :
    names (withExtension path extension) =
        (names path).dropLast ++ [stem name ++ "." ++ extension] ∧
      isAbsolute (withExtension path extension) = isAbsolute path := by
  obtain ⟨hlast, -, -, -⟩ := names_of_fileName? hname
  have hmem : name ∈ names path := by
    rw [hlast]
    exact List.mem_concat_self
  have hslash := slash_not_mem_extended (slash_not_mem_of_mem_names hmem) hextension
  have hempty : stem name ++ "." ++ extension ≠ "" := by simp [hne]
  have hdot : stem name ++ "." ++ extension ≠ "." := by
    intro h
    have hlength := congrArg String.length h
    have hpos : extension.length ≠ 0 := by simpa using hne
    rw [String.length_append, String.length_append] at hlength
    have hone : ".".length = 1 := rfl
    omega
  rw [withExtension, hname]
  dsimp only
  split
  · next hdir =>
    rw [names_of_no_slash hslash hempty hdot, ← names_parent hdir, isAbsolute_of_not_mem hslash,
      isAbsolute_of_parent_empty hdir]
    exact ⟨rfl, rfl⟩
  · next dir hdirne hdir =>
    have hrelative := isAbsolute_of_not_mem hslash
    rw [names_join dir hrelative, names_of_no_slash hslash hempty hdot, names_parent hdir,
      isAbsolute_join hdirne, hrelative, Bool.false_or, isAbsolute_parent hdir hdirne]
    exact ⟨rfl, rfl⟩
  · next hnone =>
    rw [names_of_parent_none hnone] at hmem
    cases hmem

end Extension

/-! ### Paths made of parts -/

theorem ne_and_slash_of_mem_parts {path part : String} (h : part ∈ parts path) :
    part ≠ "" ∧ '/' ∉ part.toList := by
  obtain ⟨here, hparts, hhere⟩ := parts_eq path
  rw [hparts, List.mem_append] at h
  obtain h | h := h
  · obtain rfl | ⟨rfl, -⟩ := hhere
    · cases h
    · obtain rfl := List.mem_singleton.mp h
      decide
  · exact ⟨(mem_followed.mp h).2.1, slash_not_mem_of_mem_names h⟩

/-- The first parts of a path, as far as they are followed. -/
theorem followed_prefix {path : String} {l : List String} (h : l <+: parts path) :
    followed l <+: names path := by
  obtain ⟨here, hparts, hhere⟩ := parts_eq path
  have hfollowed : followed (parts path) = names path := by
    have hidle : followed here = [] := by obtain rfl | ⟨rfl, -⟩ := hhere <;> rfl
    rw [hparts, followed_append, hidle, List.nil_append]
    exact List.filter_eq_self.mpr fun c hc => (List.mem_filter.mp hc).2
  rw [← hfollowed]
  exact h.filter _

theorem withoutEndSlashes_eq_self {path : String} (h : endsInSlash path = false) :
    withoutEndSlashes path = path := by
  have hlast : path.toList.reverse.head? ≠ some '/' := by
    rw [List.head?_reverse]
    simpa [endsInSlash] using h
  have hdrop : path.toList.reverse.dropWhile (· == '/') = path.toList.reverse :=
    List.dropWhile_beq_eq_self_of_head?_ne hlast
  rw [withoutEndSlashes, hdrop]
  split
  · rfl
  · rw [List.reverse_reverse, String.ofList_toList]

section OfParts

variable {absolute : Bool} {l : List String} (hne : l ≠ [])
  (hl : ∀ c ∈ l, c ≠ "" ∧ '/' ∉ c.toList)

include hl

theorem names_ofParts : names (ofParts absolute l) = followed l := by
  have hnames := names_intercalate fun c hc => (hl c hc).2
  cases absolute with
  | true => rw [ofParts, if_pos rfl, names_slash_append, hnames]
  | false => rw [ofParts, if_neg (by decide), String.empty_append, hnames]

include hne

theorem pieces_ofParts :
    pieces (ofParts absolute l) = (if absolute then [""] else []) ++ l := by
  have hpieces := pieces_intercalate hne fun c hc => (hl c hc).2
  cases absolute with
  | true => rw [ofParts, if_pos rfl, pieces_slash_append, hpieces]; rfl
  | false => rw [ofParts, if_neg (by decide), String.empty_append, hpieces]; rfl

theorem isAbsolute_ofParts : isAbsolute (ofParts absolute l) = absolute := by
  cases absolute with
  | true => rw [ofParts, if_pos rfl, isAbsolute_slash_append]
  | false =>
    obtain ⟨c, l, rfl⟩ := List.exists_cons_of_ne_nil hne
    have hc := hl c List.mem_cons_self
    rw [ofParts, if_neg (by decide), String.empty_append, isAbsolute_intercalate hc.1 hc.2]

theorem endsInSlash_ofParts : endsInSlash (ofParts absolute l) = false := by
  rw [Bool.eq_false_iff]
  intro hend
  obtain ⟨front, hfront⟩ := exists_of_endsInSlash hend
  have hempty := pieces_append_slash front ""
  rw [String.append_empty, ← hfront, pieces_ofParts hne hl] at hempty
  have hlast := congrArg List.getLast? hempty
  rw [List.getLast?_append_of_ne_nil _ hne, show pieces "" = [""] from rfl,
    List.getLast?_concat] at hlast
  exact (hl "" (List.mem_of_getLast? hlast)).1 rfl

end OfParts

end Hearth.Path
