import Hearth.Failure

/-!
# Chains of failures

A failure that holds another one is a chain: whoever has the outermost failure can get at each of
them. All failures of a chain have the same root, and with it the same text and the same mark,
wherever in the chain one looks and however often the chain is wrapped. An error that a script gave
a line is no failure, even if it holds one: with it a chain ends.

## Main definitions

* `Failure.wrap`, `Failure.unwrap` : a failure as the error of a new one, and back.
* `Failure.member`, `Failure.replace` : a failure of a chain, and the chain with another one there.

## Main results

* `ScriptError.toWork_atLineOnce` : an error with a line ends a chain.
* `Failure.chain_induction` : what holds of a root and is kept by wrapping holds of every failure.
* `Failure.message_member`, `Failure.isHandled_member` : the failures of a chain have one text and
  one mark.
* `Failure.replace_marked` : marking any failure of a chain marks the chain.
-/

namespace Hearth

/-! ### Errors with a line -/

namespace ScriptError

variable (e : ScriptError) (line : Nat)

/-- The first line that an error gets is its line. -/
theorem atLineOnce_twice (line' : Nat) :
    (e.atLineOnce line).atLineOnce line' = e.atLineOnce line := by
  cases e <;> rfl

/-- An error with a line is that of a script, whatever it came from. -/
theorem toWork_atLineOnce : (e.atLineOnce line).toWork = .script (e.atLineOnce line) := by
  cases e <;> rfl

end ScriptError

/-! ### Roots -/

section

variable {error : WorkError}

theorem WorkError.marked?_eq_none (own : error.root? = none) : error.marked? = none := by
  cases error <;> first | rfl | cases own

theorem WorkError.isHandled?_eq_none (own : error.root? = none) : error.isHandled? = none := by
  cases error <;> first | rfl | cases own

end

namespace Failure

/-- What holds of a root, and is kept by wrapping, holds of every failure. -/
@[elab_as_elim]
theorem chain_induction {motive : Failure → Prop}
    (root : ∀ error within handled, error.root? = none → motive (.mk error within handled))
    (nested : ∀ inner within handled, motive inner → motive (.mk (.nested inner) within handled)) :
    ∀ f, motive f
  | .mk (.nested inner) within handled =>
    nested inner within handled (chain_induction root nested inner)
  | .mk (.priorityTaken ..) _ _ | .mk (.unknownWorker _) _ _ | .mk (.event _) _ _
  | .mk (.script _) _ _ | .mk (.other _) _ _ => root _ _ _ rfl

section

variable {error : WorkError} (own : error.root? = none) (within : List String) (handled : Bool)

include own

theorem root_of_own : (mk error within handled).root = .mk error within handled := by
  rw [root, own]
  rfl

theorem isHandled_of_own : (mk error within handled).isHandled = handled := by
  rw [isHandled, WorkError.isHandled?_eq_none own]
  rfl

theorem marked_of_own : (mk error within handled).marked = .mk error within true := by
  rw [marked, WorkError.marked?_eq_none own]

end

section

variable (inner : Failure) (within : List String) (handled : Bool)

@[simp]
theorem root_nested : (mk (.nested inner) within handled).root = inner.root := rfl

@[simp]
theorem isHandled_nested : (mk (.nested inner) within handled).isHandled = inner.isHandled := rfl

@[simp]
theorem marked_nested :
    (mk (.nested inner) within handled).marked = .mk (.nested inner.marked) within handled := rfl

end

/-- A marked chain is marked, whichever way one looks at it. -/
@[simp]
theorem isHandled_marked (f : Failure) : f.marked.isHandled = true := by
  induction f using chain_induction with
  | root error within handled own =>
    rw [marked_of_own own]
    exact isHandled_of_own own within true
  | nested inner within handled ih => exact ih

/-- A chain is marked once. -/
theorem marked_of_isHandled {f : Failure} (hf : f.isHandled = true) : f.marked = f := by
  induction f using chain_induction with
  | root error within handled own =>
    rw [isHandled_of_own own] at hf
    rw [marked_of_own own, hf]
  | nested inner within handled ih =>
    exact congrArg (fun f => mk (.nested f) within handled) (ih hf)

/-- The mark changes nothing about the error at the root. -/
@[simp]
theorem error_root_marked (f : Failure) : f.marked.root.error = f.root.error := by
  induction f using chain_induction with
  | root error within handled own =>
    rw [marked_of_own own, root_of_own own, root_of_own own]
    rfl
  | nested inner within handled ih => exact ih

/-! ### Wrapping -/

/-- A failure as the error of a new one, with the description of the work around it. -/
def wrap (report : List String) (f : Failure) : Failure := (ofError (.nested f)).inside report

/-- The failure inside a failure; a root stays as it is. -/
def unwrap : Failure → Failure
  | .mk (.nested inner) _ _ => inner
  | f => f

/-- The mark and the error at the root of a failure. -/
def core (f : Failure) : Bool × WorkError := (f.isHandled, f.root.error)

@[simp]
theorem core_marked (f : Failure) : f.marked.core = (true, f.root.error) :=
  Prod.ext f.isHandled_marked f.error_root_marked

@[simp]
theorem core_wrap (report : List String) (f : Failure) : (f.wrap report).core = f.core := rfl

@[simp]
theorem core_unwrap (f : Failure) : f.unwrap.core = f.core := by
  obtain ⟨error, within, handled⟩ := f
  cases error <;> rfl

@[simp]
theorem core_inside (report : List String) (f : Failure) : (f.inside report).core = f.core := by
  obtain ⟨error, within, handled⟩ := f
  cases error <;> rfl

/-! ### Members -/

/-- The failure of a chain that is so many steps from the outermost one, at most the root. -/
def member : Nat → Failure → Failure
  | depth + 1, .mk (.nested inner) _ _ => inner.member depth
  | _, f => f

/-- A chain with another failure in the place of one of its own. -/
def replace (new : Failure) : Nat → Failure → Failure
  | depth + 1, .mk (.nested inner) within handled =>
    .mk (.nested (replace new depth inner)) within handled
  | _, _ => new

section

variable (depth : Nat) (f : Failure)

/-- The root of a chain is its last member. -/
theorem member_of_own {error : WorkError} (own : error.root? = none) (within : List String)
    (handled : Bool) : (mk error within handled).member depth = .mk error within handled := by
  cases depth with
  | zero => rfl
  | succ depth => cases error <;> first | rfl | cases own

theorem replace_of_own (new : Failure) {error : WorkError} (own : error.root? = none)
    (within : List String) (handled : Bool) :
    replace new depth (mk error within handled) = new := by
  cases depth with
  | zero => rfl
  | succ depth => cases error <;> first | rfl | cases own

/-- What a wrapped failure has in common with the failure inside, all failures of a chain have. -/
theorem member_eq {α : Type} {g : Failure → α}
    (hg : ∀ inner within handled, g (.mk (.nested inner) within handled) = g inner) :
    g (f.member depth) = g f := by
  induction f using chain_induction generalizing depth with
  | root error within handled own => rw [member_of_own depth own]
  | nested inner within handled ih =>
    cases depth with
    | zero => rfl
    | succ depth => exact (ih depth).trans (hg inner within handled).symm

@[simp]
theorem message_member : (f.member depth).message = f.message :=
  member_eq depth f fun _ _ _ => rfl

@[simp]
theorem isHandled_member : (f.member depth).isHandled = f.isHandled :=
  member_eq depth f fun _ _ _ => rfl

/-- What is done to a wrapped failure by doing it inside can be done at any failure of a chain. -/
theorem replace_eq {g : Failure → Failure} (hg : ∀ inner within handled,
      g (.mk (.nested inner) within handled) = .mk (.nested (g inner)) within handled) :
    replace (g (f.member depth)) depth f = g f := by
  induction f using chain_induction generalizing depth with
  | root error within handled own => rw [member_of_own depth own, replace_of_own depth _ own]
  | nested inner within handled ih =>
    cases depth with
    | zero => rfl
    | succ depth =>
      rw [hg]
      exact congrArg (fun f => mk (.nested f) within handled) (ih depth)

@[simp]
theorem replace_member : replace (f.member depth) depth f = f :=
  replace_eq (g := id) depth f fun _ _ _ => rfl

/-- A chain is marked by marking any of its failures. -/
@[simp]
theorem replace_marked : replace (f.member depth).marked depth f = f.marked :=
  replace_eq depth f marked_nested

end

end Failure

end Hearth
