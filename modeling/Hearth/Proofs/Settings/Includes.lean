import Hearth.Proofs.Files.Views
import Hearth.Proofs.Settings.Tags
import Hearth.Proofs.Text.Codes

/-!
# Chains of includes

While a file is loaded, the files that it includes are loaded on the way, so there is always a chain
of files that are being loaded. A path may not stand in it twice, and all paths in it are short.
There are only so many short paths, so every chain ends. But one file has many paths, and the paths
are told apart by their parts alone: a file that includes itself over `..` is read again and again,
until the path is too long.

## Main definitions

* `Sources.valueAt` : the value at a path, on the way through a chain of files.
* `Sources.Leads` : an include that is followed.
* `Sources.Visits` : the chains and paths that loading a file comes to.
* `Sources.Fails` : how loading fails at a path itself.

## Main results

* `Sources.loadOn_eq_valueAt` : no load runs out of rounds.
* `Sources.load_eq_error` : loading a file fails exactly where it comes to a path that fails itself.
* `Sources.load_traversal` : what loading a file goes through, when it reports a circle, and what is
  left in the value that it gives.
-/

namespace Hearth.Settings.Sources

open Yaml (Value)

/-- How many rounds a load is given. -/
@[irreducible]
def rounds : Nat := Nat.pow 256 Files.maxPath

/-- What a node of the file at `origin` includes, on the way through the files `chain`. -/
def included (s : Sources) (chain : List String) (origin : String) (node : Value) :
    Except Error Value := do
  s.loadOn chain (← s.target origin node) rounds

/-- The value at a path, if `load` gives what its nodes include. -/
def valueBy (s : Sources) (load : Value → Except Error Value) (chain : List String)
    (path : String) : Except Error Value :=
  if chain.any (Path.same path) then .error (.circular (chain ++ [path]))
  else
    match s.files.readText path with
    | .error cause => .error (.read path cause)
    | .ok text =>
      match Yaml.read? text with
      | none => .error (.malformed path)
      | some value => s.resolve load value

/-- The value at a path, on the way through the files `chain`. -/
def valueAt (s : Sources) (chain : List String) (path : String) : Except Error Value :=
  s.valueBy (s.included (chain ++ [path]) path) chain path

/-- A path leads to a file with a document. -/
def Holds (s : Sources) (path : String) (value : Value) : Prop :=
  ∃ text, s.files.readText path = .ok text ∧ Yaml.read? text = some value

variable {s : Sources} {chain : List String} {path : String}

/-! ### Chains -/

/-- The paths on a chain are short and have different parts. -/
structure Sound (chain : List String) : Prop where
  short : ∀ path ∈ chain, path.utf8ByteSize < Files.maxPath
  fresh : chain.Pairwise fun earlier later => Path.same later earlier = false

theorem sound_nil : Sound [] := ⟨nofun, .nil⟩

theorem Sound.concat (h : Sound chain) (hfresh : chain.any (Path.same path) = false)
    (hshort : path.utf8ByteSize < Files.maxPath) : Sound (chain ++ [path]) where
  short q hq := by
    obtain hq | hq := List.mem_append.mp hq
    · exact h.short q hq
    · exact List.mem_singleton.mp hq ▸ hshort
  fresh := by
    refine List.pairwise_append.mpr ⟨h.fresh, List.pairwise_singleton _ _, ?_⟩
    intro earlier hearlier later hlater
    rw [List.mem_singleton.mp hlater]
    exact Bool.eq_false_iff.mpr (List.any_eq_false.mp hfresh earlier hearlier)

/-- A chain has fewer paths than a load has rounds. -/
theorem Sound.length_lt (h : Sound chain) : chain.length < rounds := by
  delta rounds
  refine Text.length_lt_of_short (h.fresh.imp ?_) h.short
  rintro a b hab rfl
  rw [Path.same_self] at hab
  cases hab

theorem short_of_readText {f : Files} {text : String} (h : f.readText path = .ok text) :
    path.utf8ByteSize < Files.maxPath := by
  obtain ⟨content, hread, -⟩ := exists_of_bind_eq_ok h
  obtain ⟨place, hlocate, -⟩ := Files.read_eq_ok.mp hread
  exact (Files.isPath_of_locate hlocate).short

/-! ### Rounds -/

theorem loadOn_succ (n : Nat) :
    s.loadOn chain path (n + 1) = s.valueBy (fun node => do
      s.loadOn (chain ++ [Path.join s.dir path]) (← s.target (Path.join s.dir path) node) n)
      chain (Path.join s.dir path) := by
  rw [loadOn, valueBy]
  split
  · rfl
  · rfl

/-- What nodes include matters only for a path that is new and can be read. -/
theorem valueBy_congr {load load' : Value → Except Error Value}
    (h : chain.any (Path.same path) = false → path.utf8ByteSize < Files.maxPath → load = load') :
    s.valueBy load chain path = s.valueBy load' chain path := by
  rw [valueBy, valueBy]
  split
  · rfl
  next hfresh =>
  split
  · rfl
  · next htext => rw [h (Bool.eq_false_iff.mpr hfresh) (short_of_readText htext)]

/-- More rounds than there are short paths left do not matter. -/
theorem loadOn_congr {n m : Nat} (h : Sound chain) (hn : rounds ≤ n + chain.length)
    (hm : rounds ≤ m + chain.length) : s.loadOn chain path n = s.loadOn chain path m := by
  have hlength := h.length_lt
  induction n generalizing m chain path with
  | zero => omega
  | succ n ih =>
    obtain ⟨m, rfl⟩ : ∃ k, m = k + 1 := ⟨m - 1, by omega⟩
    rw [loadOn_succ, loadOn_succ]
    refine valueBy_congr fun hfresh hshort => funext fun node => ?_
    have hnext := h.concat hfresh hshort
    cases s.target (Path.join s.dir path) node with
    | error e => rfl
    | ok relative =>
      refine ih hnext ?_ ?_ hnext.length_lt
      all_goals
        rw [List.length_append, List.length_singleton]
        omega

/-- A load that has enough rounds gives the value at its path. -/
theorem loadOn_eq_valueAt {n : Nat} (h : Sound chain) (hn : rounds ≤ n + chain.length) :
    s.loadOn chain path n = s.valueAt chain (Path.join s.dir path) := by
  have hlength := h.length_lt
  obtain ⟨n, rfl⟩ : ∃ k, n = k + 1 := ⟨n - 1, by omega⟩
  rw [loadOn_succ, valueAt]
  refine valueBy_congr fun hfresh hshort => funext fun node => ?_
  rw [included]
  cases s.target (Path.join s.dir path) node with
  | error e => rfl
  | ok relative =>
    refine loadOn_congr (h.concat hfresh hshort) ?_ (Nat.le_add_right _ _)
    rw [List.length_append, List.length_singleton]
    omega

theorem load_eq_loadOn (file : String) : s.load file = s.loadOn [] file rounds := by
  delta load rounds
  rfl

theorem load_eq_valueAt (file : String) : s.load file = s.valueAt [] (Path.join s.dir file) := by
  rw [load_eq_loadOn, loadOn_eq_valueAt sound_nil (Nat.le_add_right _ _)]

/-! ### The traversal -/

/-- A node of the file at `path` includes the path `relative`: the file can be loaded, and all that
stands before the node has been resolved. -/
structure Leads (s : Sources) (chain : List String) (path : String) (node : Value)
    (relative : String) : Prop where
  fresh : chain.any (Path.same path) = false
  comes : ∃ value, s.Holds path value ∧
    s.Comes (s.included (chain ++ [path]) path) value "!include" node
  target : s.target path node = .ok relative

/-- Loading a file comes to a path while the files `chain` are being loaded, outermost first;
nothing has failed before. -/
inductive Visits (s : Sources) (file : String) : List String → String → Prop
  | start : Visits s file [] (Path.join s.dir file)
  | nested {chain : List String} {path relative : String} {node : Value}
      (h : Visits s file chain path) (hleads : s.Leads chain path node relative) :
      Visits s file (chain ++ [path]) (Path.join s.dir relative)

/-- Loading fails at a path itself: it is being loaded already, there is no file with a document, or
nothing can stand for a node of the document. -/
inductive Fails (s : Sources) (chain : List String) (path : String) : Error → Prop
  | circular (h : chain.any (Path.same path) = true) :
      Fails s chain path (.circular (chain ++ [path]))
  | unread {cause : FileError} (hfresh : chain.any (Path.same path) = false)
      (h : s.files.readText path = .error cause) : Fails s chain path (.read path cause)
  | malformed {text : String} (hfresh : chain.any (Path.same path) = false)
      (htext : s.files.readText path = .ok text) (h : Yaml.read? text = none) :
      Fails s chain path (.malformed path)
  | target {value node : Value} {e : Error} (hfresh : chain.any (Path.same path) = false)
      (hholds : s.Holds path value)
      (hcomes : s.Comes (s.included (chain ++ [path]) path) value "!include" node)
      (h : s.target path node = .error e) : Fails s chain path e
  | given {value node : Value} {tag : String} {e : Error}
      (hfresh : chain.any (Path.same path) = false) (hholds : s.Holds path value)
      (hcomes : s.Comes (s.included (chain ++ [path]) path) value tag node)
      (htag : tag ≠ "!include")
      (h : s.given (s.included (chain ++ [path]) path) tag node = .error e) : Fails s chain path e

theorem valueAt_of_holds {value : Value} (hfresh : chain.any (Path.same path) = false)
    (h : s.Holds path value) :
    s.valueAt chain path = s.resolve (s.included (chain ++ [path]) path) value := by
  obtain ⟨text, htext, hvalue⟩ := h
  rw [valueAt, valueBy, hfresh, if_neg Bool.false_ne_true, htext]
  dsimp only
  rw [hvalue]

theorem given_include (load : Value → Except Error Value) (node : Value) :
    s.given load "!include" node = load node := if_pos rfl

theorem Visits.sound {file : String} (h : s.Visits file chain path) : Sound chain := by
  induction h with
  | start => exact sound_nil
  | nested _ hleads ih =>
    obtain ⟨value, ⟨text, htext, -⟩, -⟩ := hleads.comes
    exact ih.concat hleads.fresh (short_of_readText htext)

/-- What is included gives the value at its path. -/
theorem Leads.included_eq {node : Value} {relative : String}
    (h : s.Leads chain path node relative) :
    s.included (chain ++ [path]) path node =
      s.loadOn (chain ++ [path]) relative rounds := by
  rw [included, h.target]
  rfl

/-- Loading fails if it fails at a path that it comes to. -/
theorem Visits.fails {file : String} {e : Error} (h : s.Visits file chain path)
    (he : s.valueAt chain path = .error e) : s.load file = .error e := by
  induction h with
  | start => rw [load_eq_valueAt, he]
  | @nested chain path relative node h hleads ih =>
    obtain ⟨value, hholds, hcomes⟩ := hleads.comes
    have hsound := (h.nested hleads).sound
    refine ih ?_
    rw [valueAt_of_holds hleads.fresh hholds]
    refine hcomes.fails ?_
    rw [given_include, hleads.included_eq, loadOn_eq_valueAt hsound (Nat.le_add_right _ _), he]

theorem Fails.valueAt_eq {e : Error} (h : s.Fails chain path e) :
    s.valueAt chain path = .error e := by
  cases h with
  | circular h => exact if_pos h
  | unread hfresh h =>
    rw [valueAt, valueBy, hfresh, if_neg Bool.false_ne_true, h]
  | malformed hfresh htext h =>
    rw [valueAt, valueBy, hfresh, if_neg Bool.false_ne_true, htext]
    dsimp only
    rw [h]
  | target hfresh hholds hcomes h =>
    rw [valueAt_of_holds hfresh hholds]
    refine hcomes.fails ?_
    rw [given_include, included, h]
    rfl
  | given hfresh hholds hcomes htag h =>
    rw [valueAt_of_holds hfresh hholds]
    exact hcomes.fails h

/-- Loading fails at a path itself or at one that the path leads to. -/
theorem fails_or_leads {e : Error} (h : s.valueAt chain path = .error e) :
    s.Fails chain path e ∨ ∃ node relative, s.Leads chain path node relative ∧
      s.loadOn (chain ++ [path]) relative rounds = .error e := by
  by_cases hfresh : chain.any (Path.same path) = true
  · rw [valueAt, valueBy, if_pos hfresh] at h
    cases h
    exact .inl (.circular hfresh)
  rw [Bool.not_eq_true] at hfresh
  cases htext : s.files.readText path with
  | error cause =>
    rw [valueAt, valueBy, hfresh, if_neg Bool.false_ne_true, htext] at h
    cases h
    exact .inl (.unread hfresh htext)
  | ok text =>
  cases hvalue : Yaml.read? text with
  | none =>
    rw [valueAt, valueBy, hfresh, if_neg Bool.false_ne_true, htext] at h
    dsimp only at h
    rw [hvalue] at h
    cases h
    exact .inl (.malformed hfresh htext hvalue)
  | some value =>
  have hholds : s.Holds path value := ⟨text, htext, hvalue⟩
  rw [valueAt_of_holds hfresh hholds] at h
  obtain ⟨tag, node, hcomes, hgiven⟩ := resolve_eq_error.mp h
  by_cases htag : tag = "!include"
  · subst htag
    rw [given_include] at hgiven
    cases htarget : s.target path node with
    | error e' =>
      rw [included, htarget] at hgiven
      cases hgiven
      exact .inl (.target hfresh hholds hcomes htarget)
    | ok relative =>
      have hleads : s.Leads chain path node relative :=
        ⟨hfresh, ⟨value, hholds, hcomes⟩, htarget⟩
      exact .inr ⟨node, relative, hleads, hleads.included_eq ▸ hgiven⟩
  · exact .inl (.given hfresh hholds hcomes htag hgiven)

/-- A load that fails comes to a path that fails itself. The rounds that are left bound how often
another path can be led to. -/
theorem exists_fails {file : String} {e : Error} (n : Nat) (hn : rounds ≤ n + chain.length)
    (hvisit : s.Visits file chain path) (h : s.valueAt chain path = .error e) :
    ∃ chain path, s.Visits file chain path ∧ s.Fails chain path e := by
  induction n generalizing chain path with
  | zero =>
    have hlength := hvisit.sound.length_lt
    omega
  | succ n ih =>
    obtain hfails | ⟨node, relative, hleads, h⟩ := fails_or_leads h
    · exact ⟨chain, path, hvisit, hfails⟩
    have hnext := hvisit.nested hleads
    rw [loadOn_eq_valueAt hnext.sound (Nat.le_add_right _ _)] at h
    refine ih ?_ hnext h
    rw [List.length_append, List.length_singleton]
    omega

/-- Loading a file fails exactly where it comes to a path that fails itself. -/
theorem load_eq_error {file : String} {e : Error} : s.load file = .error e ↔
    ∃ chain path, s.Visits file chain path ∧ s.Fails chain path e := by
  constructor
  · intro h
    rw [load_eq_valueAt] at h
    exact exists_fails rounds (Nat.le_add_right _ _) .start h
  · rintro ⟨chain, path, hvisit, hfails⟩
    exact hvisit.fails hfails.valueAt_eq

/-! ### Circles -/

theorem target_ne_circular {origin : String} {node : Value} {c : List String} :
    s.target origin node ≠ .error (.circular c) := by
  intro h
  cases node with
  | text path =>
    rw [target] at h
    split at h <;> cases h
  | _ => cases h

theorem given_ne_circular {load : Value → Except Error Value} {tag : String} {node : Value}
    {c : List String} (htag : tag ≠ "!include") :
    s.given load tag node ≠ .error (.circular c) := by
  have hscalar : scalar tag node ≠ .error (.circular c) := by
    intro h
    cases node with
    | text t => cases h
    | _ => cases h
  intro h
  rw [given, if_neg htag] at h
  split at h
  · obtain h | ⟨key, -, h⟩ := bind_eq_error h
    · exact hscalar h
    obtain h | ⟨value, -, h⟩ := bind_eq_error h
    · rw [Secrets.get] at h
      split at h <;> cases h
    · cases h
  · obtain h | ⟨spec, -, h⟩ := bind_eq_error h
    · exact hscalar h
    obtain h | ⟨value, -, h⟩ := bind_eq_error h
    · rw [fromEnvironment] at h
      split at h <;> cases h
    · cases h

/-- A circle is reported only at a path that is being loaded already. -/
theorem Fails.of_circular {c : List String} (h : s.Fails chain path (.circular c)) :
    c = chain ++ [path] ∧ chain.any (Path.same path) = true := by
  cases h with
  | circular h => exact ⟨rfl, h⟩
  | target _ _ _ h => exact absurd h target_ne_circular
  | given _ _ _ htag h => exact absurd h (given_ne_circular htag)

/-- A circle is reported exactly when a path comes up that has the same parts as one that is being
loaded. -/
theorem load_eq_circular {file : String} {c : List String} :
    s.load file = .error (.circular c) ↔ ∃ chain path, s.Visits file chain path ∧
      c = chain ++ [path] ∧ ∃ earlier ∈ chain, Path.same path earlier = true := by
  rw [load_eq_error]
  constructor
  · rintro ⟨chain, path, hvisit, hfails⟩
    obtain ⟨hc, hsame⟩ := hfails.of_circular
    exact ⟨chain, path, hvisit, hc, List.any_eq_true.mp hsame⟩
  · rintro ⟨chain, path, hvisit, rfl, hsame⟩
    exact ⟨chain, path, hvisit, .circular (List.any_eq_true.mpr hsame)⟩

/-! ### What is left -/

theorem loadOn_settled {n : Nat} {r : Value} (h : s.loadOn chain path n = .ok r) : Settled r := by
  induction n generalizing chain path r with
  | zero => cases h
  | succ n ih =>
    rw [loadOn_succ, valueBy] at h
    split at h
    · cases h
    split at h
    · cases h
    split at h
    · cases h
    refine resolve_settled (fun node r hnode => ?_) h
    obtain ⟨relative, -, hload⟩ := exists_of_bind_eq_ok hnode
    exact ih hload

/-! ### Places -/

theorem Visits.isAbsolute {file : String} (h : s.Visits file chain path)
    (hdir : Path.isAbsolute s.dir = true) : Path.isAbsolute path = true := by
  cases h with
  | start => exact Path.isAbsolute_join_of_left hdir
  | nested => exact Path.isAbsolute_join_of_left hdir

theorem Visits.isAbsolute_of_mem {file earlier : String} (h : s.Visits file chain path)
    (hdir : Path.isAbsolute s.dir = true) (hearlier : earlier ∈ chain) :
    Path.isAbsolute earlier = true := by
  induction h with
  | start => cases hearlier
  | nested h _ ih =>
    obtain hearlier | hearlier := List.mem_append.mp hearlier
    · exact ih hearlier
    · exact List.mem_singleton.mp hearlier ▸ h.isAbsolute hdir

/-- Of two paths to one file, one leads upwards, for without that they have the same parts. -/
theorem up_of_place {earlier later : String} {place : Place}
    (habsolute : Path.isAbsolute earlier = true) (habsolute' : Path.isAbsolute later = true)
    (hfresh : Path.same later earlier = false) (hearlier : s.files.locate earlier = .ok place)
    (hlater : s.files.locate later = .ok place) :
    ".." ∈ Path.names earlier ∨ ".." ∈ Path.names later := by
  by_contra hup
  obtain ⟨hup, hup'⟩ := not_or.mp hup
  rw [Files.same_of_place habsolute' habsolute hup' hup hlater hearlier] at hfresh
  cases hfresh

/-- Loading a file ends: no number of rounds more makes a difference, every chain of files that are
being loaded is shorter than that number, and no path stands in a chain twice. With an absolute
directory, a file stands in a chain twice only under a path that leads upwards. A circle is reported
exactly when a path has the same parts as one that is being loaded; such a path leads to the same
file or cannot be followed, and of two paths to one file that do not lead upwards the second one is
reported. In the value that is given, no tag brings a value from elsewhere. -/
theorem load_traversal (s : Sources) (file : String) :
    (∀ n, rounds ≤ n → s.loadOn [] file n = s.load file) ∧
    (∀ chain path, s.Visits file chain path → chain.length < rounds ∧
      (chain.Pairwise fun earlier later => Path.same later earlier = false) ∧
      (Path.isAbsolute s.dir = true → chain.Pairwise fun earlier later => ∀ place,
        s.files.locate earlier = .ok place → s.files.locate later = .ok place →
          ".." ∈ Path.names earlier ∨ ".." ∈ Path.names later)) ∧
    (∀ c, s.load file = .error (.circular c) ↔ ∃ chain path, s.Visits file chain path ∧
      c = chain ++ [path] ∧ ∃ earlier ∈ chain, Path.same path earlier = true) ∧
    (∀ chain path, s.Visits file chain path → ∀ earlier ∈ chain, ∀ place,
      s.files.locate earlier = .ok place →
        (Path.same path earlier = true → ∀ other, s.files.locate path = .ok other →
          other = place) ∧
        (Path.isAbsolute s.dir = true → ".." ∉ Path.names earlier → ".." ∉ Path.names path →
          s.files.locate path = .ok place →
            s.load file = .error (.circular (chain ++ [path])))) ∧
    ∀ r, s.load file = .ok r → ∀ tag ∈ r.tags, tag ∉ sourceTags := by
  refine ⟨?_, ?_, fun c => load_eq_circular, ?_, ?_⟩
  · intro n hn
    rw [load_eq_loadOn]
    exact loadOn_congr sound_nil hn (Nat.le_add_right _ _)
  · intro chain path hvisit
    have hsound := hvisit.sound
    refine ⟨hsound.length_lt, hsound.fresh, fun hdir => ?_⟩
    refine hsound.fresh.imp_of_mem fun {earlier later} hearlier hlater hfresh place => ?_
    exact up_of_place (hvisit.isAbsolute_of_mem hdir hearlier)
      (hvisit.isAbsolute_of_mem hdir hlater) hfresh
  · intro chain path hvisit earlier hearlier place hplace
    refine ⟨fun hsame other hother => Files.place_of_same hsame hother hplace, ?_⟩
    intro hdir hup hup' hplace'
    have hsame := Files.same_of_place (hvisit.isAbsolute hdir)
      (hvisit.isAbsolute_of_mem hdir hearlier) hup' hup hplace' hplace
    exact load_eq_circular.mpr ⟨chain, path, hvisit, rfl, earlier, hearlier, hsame⟩
  · intro r hr
    rw [load_eq_loadOn] at hr
    exact loadOn_settled hr

/-! ### A circle that is not reported -/

/-- A file that includes itself, once round its directory. -/
def roundabout : Sources where
  files := ⟨[(["x"], .directory), (["x", "a"], .file (Text.bytes "!include ../x/a"))], []⟩
  environment := []
  dir := "/x"
  secrets := .none

/-- The path that a document includes as a whole. -/
def wholeInclude? : Value → Option String
  | .tagged "!include" (.text path) => some path
  | _ => none

theorem eq_of_wholeInclude? {value : Value} {path : String} (h : wholeInclude? value = some path) :
    value = .tagged "!include" (.text path) := by
  rw [wholeInclude?.eq_def] at h
  split at h
  · cases h
    rfl
  · cases h

/-- A file whose document is an include as a whole. -/
theorem holds_of_wholeInclude? {text relative : String}
    (hread : s.files.read path = .ok (Text.bytes text))
    (h : (Yaml.read? text).bind wholeInclude? = some relative) :
    s.Holds path (.tagged "!include" (.text relative)) := by
  refine ⟨text, ?_, ?_⟩
  · rw [Files.readText, hread]
    dsimp only [Bind.bind, Except.bind]
    rw [Text.decode?_bytes]
  · obtain ⟨value, hvalue, hwhole⟩ := Option.bind_eq_some_iff.mp h
    rw [hvalue, eq_of_wholeInclude? hwhole]

theorem roundabout_holds (hpath : roundabout.files.locate path = .ok ["x", "a"]) :
    roundabout.Holds path (.tagged "!include" (.text "../x/a")) :=
  holds_of_wholeInclude? (Files.read_eq_ok.mpr ⟨["x", "a"], hpath, rfl⟩) (by decide +kernel)

theorem roundabout_leads {relative : String} (hfresh : chain.any (Path.same path) = false)
    (hpath : roundabout.files.locate path = .ok ["x", "a"])
    (htarget : roundabout.target path (.text "../x/a") = .ok relative) :
    roundabout.Leads chain path (.text "../x/a") relative :=
  ⟨hfresh, ⟨_, roundabout_holds hpath, .here (by decide)⟩, htarget⟩

theorem roundabout_holds_only {value : Value} (h : roundabout.Holds path value) :
    value = .tagged "!include" (.text "../x/a") := by
  obtain ⟨text, htext, hvalue⟩ := h
  obtain ⟨content, hread, hdecode⟩ := exists_of_bind_eq_ok htext
  obtain ⟨place, hlocate, hnode⟩ := Files.read_eq_ok.mp hread
  have hplace : place = ["x", "a"] := by
    have hne : place ≠ [] := Files.ne_nil_of_node? (f := roundabout.files) (by simp [hnode])
    rw [Files.node?_of_ne_nil _ hne] at hnode
    change [(["x"], Node.directory), (["x", "a"], .file (Text.bytes "!include ../x/a"))].lookup
      place = _ at hnode
    rw [lookup_cons_eq, lookup_cons_eq] at hnode
    split at hnode
    · cases hnode
    split at hnode
    · assumption
    · cases hnode
  obtain ⟨text', htext', hvalue'⟩ := roundabout_holds (hplace ▸ hlocate)
  obtain rfl := Except.ok.inj (htext.symm.trans htext')
  exact Option.some.inj (hvalue.symm.trans hvalue')

/-- The next path on the chain has more parts than the last one. -/
theorem roundabout_grows {node : Value} {relative : String}
    (h : roundabout.Leads chain path node relative) (habsolute : Path.isAbsolute path = true) :
    (Path.names path).length < (Path.names (Path.join roundabout.dir relative)).length := by
  obtain ⟨value, hholds, hcomes⟩ := h.comes
  obtain rfl := roundabout_holds_only hholds
  obtain rfl : node = .text "../x/a" := by
    cases hcomes with
    | here => rfl
    | tagged hown => exact absurd (by decide) hown
  have htarget := h.target
  rw [target, if_neg (by decide)] at htarget
  obtain rfl := Except.ok.inj htarget
  have hbase : Path.isAbsolute ((Path.parent? path).getD roundabout.dir) = true ∧
      (Path.names path).length ≤
        (Path.names ((Path.parent? path).getD roundabout.dir)).length + 1 := by
    cases hparent : Path.parent? path with
    | none =>
      rw [Path.names_of_parent_none hparent]
      exact ⟨rfl, Nat.zero_le _⟩
    | some base =>
      have hne : base ≠ "" := by
        rintro rfl
        rw [Path.isAbsolute_of_parent_empty hparent] at habsolute
        cases habsolute
      rw [Option.getD_some, Path.isAbsolute_parent hparent hne, Path.names_parent hparent,
        List.length_dropLast]
      exact ⟨habsolute, by omega⟩
  rw [Path.join_of_isAbsolute (Path.isAbsolute_join_of_left hbase.1),
    Path.names_join _ rfl, List.length_append,
    show (Path.names "../x/a").length = 3 by decide +kernel]
  omega

theorem roundabout_fresh (h : roundabout.Visits "a" chain path) :
    ∀ earlier ∈ chain, (Path.names earlier).length < (Path.names path).length := by
  induction h with
  | start => exact nofun
  | nested h hleads ih =>
    have hgrows := roundabout_grows hleads (h.isAbsolute rfl)
    intro earlier hearlier
    obtain hearlier | hearlier := List.mem_append.mp hearlier
    · exact (ih earlier hearlier).trans hgrows
    · exact List.mem_singleton.mp hearlier ▸ hgrows

/-- A file that includes itself is read a second time while it is being loaded, and no circle is
reported. -/
theorem roundabout_unreported : (∃ earlier later relative,
    roundabout.Visits "a" [earlier, later] relative ∧
      roundabout.files.locate earlier = .ok ["x", "a"] ∧
      roundabout.files.locate later = .ok ["x", "a"]) ∧
    ∀ c, roundabout.load "a" ≠ .error (.circular c) := by
  constructor
  · refine ⟨"/x/a", "/x/../x/a", "/x/../x/../x/a", ?_, by decide +kernel, by decide +kernel⟩
    have hfirst : roundabout.Leads [] "/x/a" (.text "../x/a") "/x/../x/a" :=
      roundabout_leads rfl (by decide +kernel) (by rfl)
    have hsecond : roundabout.Leads ["/x/a"] "/x/../x/a" (.text "../x/a") "/x/../x/../x/a" :=
      roundabout_leads (by decide +kernel) (by decide +kernel) (by rfl)
    have hstart : roundabout.Visits "a" [] "/x/a" := .start
    exact (hstart.nested hfirst).nested hsecond
  · intro c h
    obtain ⟨chain, path, hvisit, -, earlier, hearlier, hsame⟩ := load_eq_circular.mp h
    have hlength := roundabout_fresh hvisit earlier hearlier
    rw [(Path.same_names hsame).2] at hlength
    exact absurd hlength (Nat.lt_irrefl _)

end Hearth.Settings.Sources
