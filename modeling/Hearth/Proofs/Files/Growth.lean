import Hearth.Proofs.Files.Places

/-!
# Making directories

Directories that are made stand at places where nothing was, on the way of the path that asks for
them. Whatever was there stays: a path that names a file goes on naming it.

## Main definitions

* `Files.Grown` : what some directories that were made change.
* `Files.Making` : the states that making directories goes through.

## Main results

* `Files.Grown.read` : files keep their content.
* `Files.Making.grown` : directories are made on the way of the path only.
-/

namespace Hearth.Files

open Hearth.Path

/-- Directories were made at some places where nothing was. -/
structure Grown (f f' : Files) (made : Place → Prop) : Prop where
  current : f'.current = f.current
  node (q : Place) : f'.node? q = f.node? q ∨
    made q ∧ f.node? q = none ∧ f'.node? q = some .directory

namespace Grown

variable {f f' f'' : Files} {made : Place → Prop}

theorem refl (f : Files) (made : Place → Prop) : Grown f f made := ⟨rfl, fun _ => .inl rfl⟩

theorem trans (h : Grown f f' made) (h' : Grown f' f'' made) : Grown f f'' made := by
  refine ⟨h'.current.trans h.current, fun q => ?_⟩
  obtain hq | ⟨hmade, hnone, hdir⟩ := h.node q
  · rw [← hq]
    exact h'.node q
  · obtain hq | ⟨-, hnone', -⟩ := h'.node q
    · exact .inr ⟨hmade, hnone, hq.trans hdir⟩
    · rw [hdir] at hnone'
      cases hnone'

theorem mono {wider : Place → Prop} (h : Grown f f' made) (hwider : ∀ q, made q → wider q) :
    Grown f f' wider :=
  ⟨h.current, fun q => (h.node q).imp_right fun ⟨hmade, hq⟩ => ⟨hwider q hmade, hq⟩⟩

/-- A node that is there stays. -/
theorem node_of_some (h : Grown f f' made) {q : Place} {node : Node}
    (hq : f.node? q = some node) : f'.node? q = some node := by
  obtain heq | ⟨-, hnone, -⟩ := h.node q
  · rw [heq, hq]
  · rw [hnone] at hq
    cases hq

/-- A path goes on naming the place that it named. -/
theorem locate (h : Grown f f' made) {path : String} {p : Place} (hp : f.locate path = .ok p) :
    f'.locate path = .ok p :=
  locate_mono h.current (fun _ => h.node_of_some) hp

/-- A file keeps its content. -/
theorem read (h : Grown f f' made) {path : String} {c : Bytes} (hread : f.read path = .ok c) :
    f'.read path = .ok c := by
  obtain ⟨p, hp, hnode⟩ := read_eq_ok.mp hread
  exact read_eq_ok.mpr ⟨p, h.locate hp, h.node_of_some hnode⟩

/-- A directory that is made stands where its path leads. -/
theorem makeDirectory {path : String} (hend : endsInSlash path = false)
    (h : f.makeDirectory path = .ok f') : Grown f f' (· = ends (f.start path) (names path)) := by
  obtain ⟨p, hlocate, hnone, hcurrent, hnodes⟩ := makeDirectory_eq_ok h
  rw [withoutEndSlashes_eq_self hend] at hlocate
  obtain ⟨hends, -⟩ := locate_eq_ok hlocate
  refine ⟨hcurrent, fun q => ?_⟩
  rw [hnodes]
  split
  · next hq => exact .inr ⟨hq.trans hends, hq ▸ hnone, rfl⟩
  · exact .inl rfl

end Grown

/-! ### Making a directory and those above it -/

/-- The places that the first of some parts lead to. -/
def OnWay (f : Files) (absolute : Bool) (parts : List String) (q : Place) : Prop :=
  ∃ l, l <+: parts ∧ q = ends (if absolute then [] else f.current) (followed l)

/-- The states that making a directory and those above it goes through: nothing was made yet, those
above it are being made since one is missing, or all is done. -/
inductive Making (absolute : Bool) (f : Files) : List String → Files → Prop
  | before (parts : List String) : Making absolute f parts f
  | above {part : String} {parts : List String} {f' : Files}
    (hmissing : f.makeDirectory (ofParts absolute (part :: parts).reverse) = .error .notFound)
    (h : Making absolute f parts f') : Making absolute f (part :: parts) f'
  | done (parts : List String) : Making absolute f parts (f.makeUp absolute parts).1

section MakeUp

variable {absolute : Bool} {f f' : Files}

theorem OnWay.of_prefix {l parts : List String} {q : Place} (h : OnWay f absolute l q)
    (hl : l <+: parts) : OnWay f absolute parts q := by
  obtain ⟨m, hm, hq⟩ := h
  exact ⟨m, hm.trans hl, hq⟩

theorem OnWay.of_current {parts : List String} {q : Place} (h : OnWay f' absolute parts q)
    (hcurrent : f'.current = f.current) : OnWay f absolute parts q := by
  rwa [OnWay, ← hcurrent]

/-- Trying to make one directory makes it or nothing. -/
theorem grown_settle (absolute : Bool) (f : Files) {parts : List String} (hne : parts ≠ [])
    (hparts : ∀ c ∈ parts, c ≠ "" ∧ '/' ∉ c.toList) :
    Grown f (f.settle (ofParts absolute parts) (f.makeDirectory (ofParts absolute parts))).1
      (OnWay f absolute parts) := by
  cases h : f.makeDirectory (ofParts absolute parts) with
  | error e => exact .refl f _
  | ok f' =>
    refine (Grown.makeDirectory (endsInSlash_ofParts hne hparts) h).mono fun q hq => ?_
    refine ⟨parts, List.prefix_refl parts, ?_⟩
    rw [hq, start, isAbsolute_ofParts hne hparts, names_ofParts hparts]

/-- Directories are made on the way of their path only. -/
theorem grown_makeUp (f : Files) {above : List String}
    (habove : ∀ c ∈ above, c ≠ "" ∧ '/' ∉ c.toList) :
    Grown f (f.makeUp absolute above).1 (OnWay f absolute above.reverse) := by
  induction above with
  | nil => exact .refl f _
  | cons part above ih =>
    have hparts : ∀ c ∈ (part :: above).reverse, c ≠ "" ∧ '/' ∉ c.toList := fun c hc =>
      habove c (List.mem_reverse.mp hc)
    have hprefix : above.reverse <+: (part :: above).reverse := by simp
    have hone (f) := grown_settle absolute f (by simp) hparts
    have hup := (ih fun c hc => habove c (List.mem_cons_of_mem part hc)).mono
      fun q hq => hq.of_prefix hprefix
    rw [makeUp]
    split
    · split
      · next f₁ hf₁ =>
        rw [hf₁] at hup
        exact hup.trans ((hone f₁).mono fun q hq => hq.of_current hup.current)
      · next f₁ e hf₁ =>
        rw [hf₁] at hup
        exact hup
    · exact hone f

/-- Directories that are being made stand on the way of their path only. -/
theorem Making.grown {above : List String} (h : Making absolute f above f')
    (habove : ∀ c ∈ above, c ≠ "" ∧ '/' ∉ c.toList) :
    Grown f f' (OnWay f absolute above.reverse) := by
  induction h with
  | before parts => exact .refl f _
  | @above part parts f' hmissing h ih =>
    exact (ih fun c hc => habove c (List.mem_cons_of_mem part hc)).mono
      fun q hq => hq.of_prefix (by simp)
  | done parts => exact grown_makeUp f habove

end MakeUp

/-- The directories made for the directory of a path are places on the way of the path. -/
theorem OnWay.of_parent {f : Files} {path dir : String} {q : Place}
    (hdir : parent? path = some dir) (hne : dir ≠ "")
    (h : OnWay f (isAbsolute dir) (parts dir) q) :
    ∃ a, a <+: (names path).dropLast ∧ q = ends (f.start path) a := by
  obtain ⟨l, hl, hq⟩ := h
  refine ⟨followed l, names_parent hdir ▸ followed_prefix hl, ?_⟩
  rw [hq, isAbsolute_parent hdir hne]
  rfl

end Hearth.Files
