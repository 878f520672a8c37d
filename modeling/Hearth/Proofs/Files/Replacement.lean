import Hearth.Proofs.Files.Growth
import Hearth.Store

/-!
# Replacing a file

A file is replaced in steps: its directory is made, the new content is written to a file beside it,
and that file takes its place. Whenever the steps are cut off, the path reads as before or gives the
new content as a whole. A directory of the path that has to be made could be in the way of the path
itself, which has to be clear therefore.

## Main definitions

* `Files.Clear` : a path that goes on naming nothing when its directories are made.
* `FileStep.CutOff` : the states that steps go through.
* `Files.Settled` : what a path reads as, before the file is replaced.

## Main results

* `FileStep.cutOff_performAll` : steps that are not cut off.
* `Files.Settled.cutOff` : steps that replace a file, cut off.
* `Files.Settled.performAll` : steps that replaced a file.
* `Files.Settled.performAll_error` : steps that replace a file, one of them refused.
-/

namespace Hearth

/-- The states that steps go through: none was begun, a directory or those above it were made, a
part of the content was written, or a step was taken and those after it go on. A file is moved in
one step. -/
inductive FileStep.CutOff : Files → List FileStep → Files → Prop
  | here (f : Files) (steps : List FileStep) : CutOff f steps f
  | making {f f' : Files} {dir : String} (rest : List FileStep)
    (h : f.Making (Path.isAbsolute dir) (Path.parts dir).reverse f') :
    CutOff f (.makeDirectories dir :: rest) f'
  | writing {f f' : Files} {path : String} {content : Bytes} (rest : List FileStep) (n : Nat)
    (h : f.write path (content.take n) = .ok f') : CutOff f (.write path content :: rest) f'
  | next {f f₁ f' : Files} {step : FileStep} {rest : List FileStep}
    (h : step.perform f = (f₁, .ok ())) (hrest : CutOff f₁ rest f') : CutOff f (step :: rest) f'

namespace FileStep

theorem whole_eq_ok {f f' : Files} {r : Except FileError Files} (h : whole f r = (f', .ok ())) :
    r = .ok f' := by
  cases r with
  | ok g =>
    cases h
    rfl
  | error e => cases h

theorem whole_eq_error {f f' : Files} {r : Except FileError Files} {e : FileError}
    (h : whole f r = (f', .error e)) : f' = f := by
  cases r with
  | ok g => cases h
  | error e =>
    cases h
    rfl

/-- When all steps are taken, the first one is, and then the others. -/
theorem performAll_cons_eq_ok {f f' : Files} {step : FileStep} {rest : List FileStep}
    (h : performAll f (step :: rest) = (f', .ok ())) :
    ∃ f₁, step.perform f = (f₁, .ok ()) ∧ performAll f₁ rest = (f', .ok ()) := by
  rw [performAll] at h
  split at h
  · next f₁ hstep => exact ⟨f₁, hstep, h⟩
  · cases h

/-- When a step is refused, it is the first one, or that one is taken and one of the others is. -/
theorem performAll_cons_eq_error {f f' : Files} {step : FileStep} {rest : List FileStep}
    {e : FileError} (h : performAll f (step :: rest) = (f', .error e)) :
    step.perform f = (f', .error e) ∨
      ∃ f₁, step.perform f = (f₁, .ok ()) ∧ performAll f₁ rest = (f', .error e) := by
  rw [performAll] at h
  split at h
  · next f₁ hstep => exact .inr ⟨f₁, hstep, h⟩
  · next f₁ e₁ hstep =>
    cases h
    exact .inl hstep

/-- Steps that are not cut off end in a state that they go through. -/
theorem cutOff_performAll (f : Files) (steps : List FileStep) :
    CutOff f steps (performAll f steps).1 := by
  induction steps generalizing f with
  | nil => exact .here f []
  | cons step rest ih =>
    rw [performAll]
    split
    · next f₁ hstep => exact .next hstep (ih f₁)
    · next f₁ e hstep =>
      cases step with
      | makeDirectories dir =>
        have hmade : f₁ = (f.makeUp (Path.isAbsolute dir) (Path.parts dir).reverse).1 :=
          (congrArg Prod.fst hstep).symm
        rw [hmade]
        exact .making rest (.done _)
      | write path content =>
        rw [whole_eq_error hstep]
        exact .here f _
      | rename source target =>
        rw [whole_eq_error hstep]
        exact .here f _

end FileStep

namespace Files

open Hearth.Path

/-- A path that goes on naming nothing when its directories are made: it ends in a name, no part of
it is too long, no file stands where one of its directories should be, and it leads to a place where
nothing is and that is none of its directories. -/
structure Clear (f : Files) (path : String) : Prop where
  named : fileName? path ≠ none
  short : ∀ c ∈ names path, c.utf8ByteSize ≤ maxName
  way : ∀ a, a <+: (names path).dropLast → ∀ c, f.node? (ends (f.start path) a) ≠ some (.file c)
  apart : ∀ a, a <+: (names path).dropLast →
    ends (f.start path) a ≠ ends (f.start path) (names path)
  free : f.node? (ends (f.start path) (names path)) = none

/-- What a path reads as, before its file is replaced: the content of a file, or nothing if it is
clear. The empty path names nothing, whatever is done. -/
inductive Settled (f : Files) (path : String) : Except FileError Bytes → Prop
  | holds {c : Bytes} (hname : fileName? path ≠ none) (h : f.read path = .ok c) :
    Settled f path (.ok c)
  | clear (hpath : IsPath path) (h : f.Clear path) : Settled f path (.error .notFound)
  | empty (h : path = "") : Settled f path (.error .notFound)

variable {f f' : Files} {path name : String} {r : Except FileError Bytes}

/-- The file beside a path that takes the new content. -/
def beside (path : String) : String := withExtension path "json.tmp"

theorem Clear.read (hpath : IsPath path) (h : f.Clear path) : f.read path = .error .notFound := by
  have hway (a) (ha : a <+: names path) (c) : f.node? (ends (f.start path) a) ≠ some (.file c) := by
    obtain ⟨name, hname⟩ := Option.ne_none_iff_exists'.mp h.named
    rw [(names_of_fileName? hname).1, List.prefix_concat_iff,
      ← (names_of_fileName? hname).1] at ha
    obtain rfl | ha := ha
    · rw [h.free]
      exact nofun
    · exact h.way a ha c
  obtain hwalk | hwalk := walk_of_no_file h.short hway
  · rw [← names, ← locate_eq_walk hpath] at hwalk
    exact read_eq_notFound hwalk h.free
  · rw [← locate_eq_walk hpath] at hwalk
    simp only [Files.read, hwalk, bind, Except.bind]

theorem Settled.named (h : Settled f path r) (hne : path ≠ "") : fileName? path ≠ none := by
  cases h with
  | holds hname _ => exact hname
  | clear _ h => exact h.named
  | empty h => exact absurd h hne

theorem Settled.read (h : Settled f path r) : f.read path = r := by
  cases h with
  | holds _ h => exact h
  | clear hpath h => exact h.read hpath
  | empty h =>
    subst h
    rfl

/-- A path reads the same when directories are made on its way. -/
theorem Settled.grown (h : Settled f path r)
    (hgrown : Grown f f' fun q => ∃ a, a <+: (names path).dropLast ∧ q = ends (f.start path) a) :
    Settled f' path r := by
  cases h with
  | holds hname h => exact .holds hname (hgrown.read h)
  | clear hpath h =>
    have hstart : f'.start path = f.start path := by rw [start, hgrown.current, start]
    refine .clear hpath ⟨h.named, h.short, ?_, ?_, ?_⟩
    · intro a ha c hfile
      rw [hstart] at hfile
      obtain hsame | ⟨-, -, hdir⟩ := hgrown.node (ends (f.start path) a)
      · exact h.way a ha c (hsame ▸ hfile)
      · rw [hdir] at hfile
        cases hfile
    · rw [hstart]
      exact h.apart
    · rw [hstart]
      obtain hsame | ⟨⟨a, ha, hends⟩, -, -⟩ := hgrown.node (ends (f.start path) (names path))
      · rw [hsame, h.free]
      · exact absurd hends.symm (h.apart a ha)
  | empty h => exact .empty h

/-- The file beside a path lies in the directory of the path. -/
theorem locate_beside {p : Place} (hname : fileName? path = some name)
    (h : f.locate (beside path) = .ok p) :
    p = ends (f.start path) (names path).dropLast ++ [stem name ++ "." ++ "json.tmp"] ∧
      ∀ a, a <+: (names path).dropLast →
        f.node? (ends (f.start path) a) = some .directory := by
  obtain ⟨hnames, habsolute⟩ := names_withExtension hname
    (show '/' ∉ "json.tmp".toList by decide) (by decide)
  obtain ⟨hends, -, hdirs⟩ := locate_eq_ok h
  rw [beside, start, habsolute, hnames, ← start] at hends hdirs
  refine ⟨hends.trans (ends_concat _ _ fun hup => ?_), fun a ha => ?_⟩
  · have hlength := congrArg String.length hup
    rw [String.length_append, String.length_append, show "json.tmp".length = 8 from rfl,
      show "..".length = 2 from rfl] at hlength
    omega
  · refine hdirs a (ha.trans (List.prefix_append _ _)) fun heq => ?_
    have hlength := ha.length_le
    rw [heq, List.length_append, List.length_singleton] at hlength
    omega

theorem ends_names (hname : fileName? path = some name) (place : Place) :
    ends place (names path) = ends place (names path).dropLast ++ [name] := by
  obtain ⟨hnames, -, -, hup⟩ := names_of_fileName? hname
  conv_lhs => rw [hnames]
  exact ends_concat place _ hup

/-- A path ends in a name when the file beside it could be written. -/
theorem Settled.named_of_write {c : Bytes} (h : Settled f path r)
    (hwrite : f.write (beside path) c = .ok f') : fileName? path ≠ none := by
  refine h.named ?_
  rintro rfl
  obtain ⟨p, hlocate, -⟩ := write_eq_ok hwrite
  exact (isPath_of_locate hlocate).ne_empty rfl

/-- A path reads the same when the file beside it is written. -/
theorem Settled.write {c : Bytes} (h : Settled f path r)
    (hwrite : f.write (beside path) c = .ok f') : Settled f' path r := by
  obtain ⟨p, hlocate, hdir, hcurrent, hnodes⟩ := write_eq_ok hwrite
  have hkeep (q) (hq : f.node? q = some .directory) : f'.node? q = some .directory := by
    rw [hnodes, if_neg (by rintro rfl; exact hdir hq), hq]
  have hstart : f'.start path = f.start path := by rw [start, hcurrent, start]
  have hnamed := h.named_of_write hwrite
  obtain ⟨name, hname⟩ := Option.ne_none_iff_exists'.mp hnamed
  obtain ⟨hends, hdirs⟩ := locate_beside hname hlocate
  -- The two files lie in one directory and have different names.
  have hother : ends (f.start path) (names path) ≠ p := by
    rw [ends_names hname, hends]
    intro heq
    exact stem_append_ne name (List.cons.inj (List.append_cancel_left heq)).1.symm
  cases h with
  | holds _ h =>
    obtain ⟨q, hq, hfile⟩ := read_eq_ok.mp h
    refine .holds hnamed (read_eq_ok.mpr ⟨q, locate_mono hcurrent hkeep hq, ?_⟩)
    rw [hnodes, if_neg ((locate_eq_ok hq).1 ▸ hother), hfile]
  | clear hpath h =>
    refine .clear hpath ⟨h.named, h.short, ?_, hstart ▸ h.apart, ?_⟩
    · intro a ha c' hfile
      rw [hstart, hkeep _ (hdirs a ha)] at hfile
      cases hfile
    · rw [hstart, hnodes, if_neg hother, h.free]
  | empty h => exact .empty h

/-- The path names the new content when the file beside it has taken its place. -/
theorem Settled.rename {c : Bytes} {f₁ : Files} (h : Settled f path r)
    (hwrite : f.write (beside path) c = .ok f₁)
    (hrename : f₁.rename (beside path) path = .ok f') : Settled f' path (.ok c) := by
  have hnamed := h.named_of_write hwrite
  obtain ⟨p, hlocate, hdir, hcurrent, hnodes⟩ := write_eq_ok hwrite
  have hkeep (q) (hq : f.node? q = some .directory) : f₁.node? q = some .directory := by
    rw [hnodes, if_neg (by rintro rfl; exact hdir hq), hq]
  obtain ⟨a, b, c', hsource, htarget, hfile, hdir', hcurrent', hnodes'⟩ := rename_eq_ok hrename
  obtain rfl : p = a :=
    Except.ok.inj ((locate_mono hcurrent hkeep hlocate).symm.trans hsource)
  obtain rfl : c = c' := by
    rw [hnodes, if_pos rfl] at hfile
    cases hfile
    rfl
  have hkeep' (q) (hq : f₁.node? q = some .directory) : f'.node? q = some .directory := by
    rw [hnodes', if_neg (by rintro rfl; exact hdir' hq), if_neg, hq]
    rintro rfl
    rw [hfile] at hq
    cases hq
  exact .holds hnamed
    (read_eq_ok.mpr ⟨b, locate_mono hcurrent' hkeep' htarget, by rw [hnodes', if_pos rfl]⟩)

/-! ### All steps -/

/-- The steps that replace a file: at first those that make its directory, if it has one. -/
theorem flushSteps_cases (path document : String) :
    Store.flushSteps path document =
        [.write (beside path) (Text.bytes document), .rename (beside path) path] ∨
      ∃ dir, parent? path = some dir ∧ dir ≠ "" ∧
        Store.flushSteps path document = [.makeDirectories dir,
          .write (beside path) (Text.bytes document), .rename (beside path) path] := by
  rw [Store.flushSteps]
  split
  · exact .inl rfl
  · next dir hne hdir => exact .inr ⟨dir, hdir, hne, rfl⟩
  · exact .inl rfl

/-- A path reads the same while its directory is being made. -/
theorem Settled.making {dir : String} (h : Settled f path r) (hdir : parent? path = some dir)
    (hne : dir ≠ "") (hmaking : f.Making (isAbsolute dir) (parts dir).reverse f') :
    Settled f' path r := by
  have hparts (c) (hc : c ∈ (parts dir).reverse) : c ≠ "" ∧ '/' ∉ c.toList :=
    ne_and_slash_of_mem_parts (List.mem_reverse.mp hc)
  have hgrown := hmaking.grown hparts
  rw [List.reverse_reverse] at hgrown
  exact h.grown (hgrown.mono fun q hq => hq.of_parent hdir hne)

/-- A path reads the same when its directory was made. -/
theorem Settled.makeDirectories {dir : String} {result : Except FileError Unit}
    (h : Settled f path r) (hdir : parent? path = some dir) (hne : dir ≠ "")
    (hmake : (FileStep.makeDirectories dir).perform f = (f', result)) : Settled f' path r := by
  refine h.making hdir hne ?_
  rw [show f' = (f.makeAll dir).1 from (congrArg Prod.fst hmake).symm]
  exact .done _

/-- When writing and moving are cut off, the path reads as before or names the new content. -/
theorem Settled.cutOff_replace {c : Bytes} (h : Settled f path r)
    (hcut : FileStep.CutOff f [.write (beside path) c, .rename (beside path) path] f') :
    Settled f' path r ∨ Settled f' path (.ok c) := by
  cases hcut with
  | here => exact .inl h
  | writing _ n hwrite => exact .inl (h.write hwrite)
  | next hstep hrest =>
    have hwrite := FileStep.whole_eq_ok hstep
    cases hrest with
    | here => exact .inl (h.write hwrite)
    | next hstep hrest =>
      cases hrest
      exact .inr (h.rename hwrite (FileStep.whole_eq_ok hstep))

/-- When the steps that replace a file are cut off, its path reads as before or names the new
content as a whole. -/
theorem Settled.cutOff {document : String} (h : Settled f path r)
    (hcut : FileStep.CutOff f (Store.flushSteps path document) f') :
    Settled f' path r ∨ Settled f' path (.ok (Text.bytes document)) := by
  obtain hsteps | ⟨dir, hdir, hne, hsteps⟩ := flushSteps_cases path document
  · rw [hsteps] at hcut
    exact h.cutOff_replace hcut
  · rw [hsteps] at hcut
    cases hcut with
    | here => exact .inl h
    | making _ hmaking => exact .inl (h.making hdir hne hmaking)
    | next hstep hrest => exact (h.makeDirectories hdir hne hstep).cutOff_replace hrest

theorem Settled.performAll_replace {c : Bytes} (h : Settled f path r)
    (hall : FileStep.performAll f [.write (beside path) c, .rename (beside path) path] =
      (f', .ok ())) : Settled f' path (.ok c) := by
  obtain ⟨f₁, hwrite, hall⟩ := FileStep.performAll_cons_eq_ok hall
  obtain ⟨f₂, hrename, hall⟩ := FileStep.performAll_cons_eq_ok hall
  cases hall
  exact h.rename (FileStep.whole_eq_ok hwrite) (FileStep.whole_eq_ok hrename)

/-- When the steps that replace a file were all taken, its path names the new content. -/
theorem Settled.performAll {document : String} (h : Settled f path r)
    (hall : FileStep.performAll f (Store.flushSteps path document) = (f', .ok ())) :
    Settled f' path (.ok (Text.bytes document)) := by
  obtain hsteps | ⟨dir, hdir, hne, hsteps⟩ := flushSteps_cases path document
  · rw [hsteps] at hall
    exact h.performAll_replace hall
  · rw [hsteps] at hall
    obtain ⟨f₁, hmake, hall⟩ := FileStep.performAll_cons_eq_ok hall
    exact (h.makeDirectories hdir hne hmake).performAll_replace hall

theorem Settled.performAll_replace_error {c : Bytes} {e : FileError} (h : Settled f path r)
    (hall : FileStep.performAll f [.write (beside path) c, .rename (beside path) path] =
      (f', .error e)) : Settled f' path r := by
  obtain hwrite | ⟨f₁, hwrite, hall⟩ := FileStep.performAll_cons_eq_error hall
  · rwa [FileStep.whole_eq_error hwrite]
  obtain hrename | ⟨f₂, hrename, hall⟩ := FileStep.performAll_cons_eq_error hall
  · rw [FileStep.whole_eq_error hrename]
    exact h.write (FileStep.whole_eq_ok hwrite)
  · cases hall

/-- When one of the steps that replace a file is refused, its path reads as before. -/
theorem Settled.performAll_error {document : String} {e : FileError} (h : Settled f path r)
    (hall : FileStep.performAll f (Store.flushSteps path document) = (f', .error e)) :
    Settled f' path r := by
  obtain hsteps | ⟨dir, hdir, hne, hsteps⟩ := flushSteps_cases path document
  · rw [hsteps] at hall
    exact h.performAll_replace_error hall
  · rw [hsteps] at hall
    obtain hmake | ⟨f₁, hmake, hall⟩ := FileStep.performAll_cons_eq_error hall
    · exact h.makeDirectories hdir hne hmake
    · exact (h.makeDirectories hdir hne hmake).performAll_replace_error hall

/-! ### Paths that read as before -/

/-- A path whose directories are all there and that names nothing is clear. -/
theorem Clear.of_locate {p : Place} (hlocate : f.locate path = .ok p)
    (hnone : f.node? p = none) (hname : fileName? path = some name) : f.Clear path := by
  obtain ⟨rfl, hshort, hdirs⟩ := locate_eq_ok hlocate
  obtain ⟨hnames, -⟩ := names_of_fileName? hname
  have hdir (a) (ha : a <+: (names path).dropLast) :
      f.node? (ends (f.start path) a) = some .directory := by
    refine hdirs a (ha.trans (List.dropLast_prefix _)) ?_
    rintro rfl
    have hlength := ha.length_le
    have hcount := congrArg List.length hnames
    rw [List.length_append, List.length_singleton] at hcount
    omega
  refine ⟨by simp [hname], hshort, fun a ha c hfile => ?_, fun a ha heq => ?_, hnone⟩
  · rw [hdir a ha] at hfile
    cases hfile
  · rw [← heq, hdir a ha] at hnone
    cases hnone

/-- A path that names a file is settled. -/
theorem Settled.of_read (hf : f.WellFormed) {c : Bytes} (h : f.read path = .ok c) :
    Settled f path (.ok c) := by
  refine .holds (fun hname => ?_) h
  obtain ⟨p, hlocate, hnode⟩ := read_eq_ok.mp h
  rw [node?_of_fileName?_none hf hlocate hname] at hnode
  cases hnode

/-- A path that names nothing is settled, if it is clear or its directories are all there. -/
theorem Settled.of_notFound (hf : f.WellFormed)
    (hclear : path ≠ "" → f.locate path = .error .notFound → f.Clear path)
    (h : f.read path = .error .notFound) : Settled f path (.error .notFound) := by
  by_cases hempty : path = ""
  · exact .empty hempty
  cases hlocate : f.locate path with
  | error e =>
    simp only [Files.read, hlocate, bind, Except.bind, Except.error.injEq] at h
    exact .clear (isPath_of_notFound hempty (h ▸ hlocate)) (hclear hempty (h ▸ hlocate))
  | ok p =>
    refine .clear (isPath_of_locate hlocate) ?_
    simp only [Files.read, hlocate, bind, Except.bind] at h
    split at h
    · next hnone =>
      have hnamed : fileName? path ≠ none := fun hname => by
        rw [node?_of_fileName?_none hf hlocate hname] at hnone
        cases hnone
      obtain ⟨name, hname⟩ := Option.ne_none_iff_exists'.mp hnamed
      exact .of_locate hlocate hnone hname
    · cases h
    · cases h

end Files

end Hearth
