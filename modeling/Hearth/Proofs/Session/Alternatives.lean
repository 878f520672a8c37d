import Hearth.Proofs.Session.Lines

/-!
# Branches of an `if`

While a block is read, an `else if` or `else` hangs itself onto the last statement of the block
around it, which has to be an `if` without an `else`. The branches make a chain in which each one
holds the next; what it stands for is a list of bodies with conditions and, at most, one without.

## Main definitions

* `Choice` : an `if` with the branches attached to it.
* `Alternative` : an `else if` or `else` with something to do.
* `Statement.last?` : the last statement that a block shows to a branch.

## Main results

* `Statement.attach_alternative`, `Statement.attach_refused` : which branches are taken.
* `Session.closed_alternative`, `Session.closed_refused` : what becomes of the session.
* `Statement.attach_all` : all branches of an `if`, one after another.
-/

namespace Hearth

/-- A body with the phrase in front of it. -/
structure Arm where
  phrase : Phrase
  body : Body
  deriving Inhabited

/-- An `if` with the branches that were attached to it: the ones with conditions in order, and
`else`. -/
structure Choice where
  first : Arm
  more : List Arm
  orElse : Option Arm

/-- An `else if` or `else` with something to do. -/
structure Alternative where
  arm : Arm
  /-- Is it an `else`? -/
  last : Bool
  deed : arm.phrase.verb.deed = if last then .otherwise else .elseIf
  immediate : arm.phrase.verb.immediate = true
  full : arm.body ≠ []

namespace Choice

/-- The chain of branches behind an `if`. -/
def chainOf (orElse : Option Arm) : List Arm → Option Statement
  | [] => orElse.map fun a => .group a.phrase a.body
  | a :: rest => some (.branch a.phrase a.body (chainOf orElse rest))

/-- The statement of an `if` with its branches. -/
def statement (c : Choice) : Statement :=
  .branch c.first.phrase c.first.body (chainOf c.orElse c.more)

/-- The branches with conditions. -/
def arms (c : Choice) : List Arm := c.first :: c.more

/-- A choice with one alternative more, at its end. -/
def extend (c : Choice) (a : Alternative) : Choice :=
  if a.last then { c with orElse := some a.arm } else { c with more := c.more ++ [a.arm] }

end Choice

/-- The statement of an alternative before it is attached. -/
def Alternative.statement (a : Alternative) : Statement :=
  if a.last then .group a.arm.phrase a.arm.body else .branch a.arm.phrase a.arm.body none

theorem Alternative.phrase_statement (a : Alternative) : a.statement.phrase = a.arm.phrase := by
  rw [statement]
  split <;> rfl

theorem Alternative.endBlock_statement (a : Alternative) : a.statement.endBlock = .ok () := by
  rw [statement]
  split
  · rfl
  · obtain ⟨first, rest, hbody⟩ := List.exists_cons_of_ne_nil a.full
    rw [hbody]
    rfl

namespace Statement

/-! ### The last statement of a block -/

/-- The statements that a block has collected, if it shows them to a branch. -/
def body? : Statement → Option Body
  | .group _ body => some body
  | .branch _ body _ => some body
  | .handler _ _ _ _ body => some body
  | _ => none

/-- A statement with another body. -/
def withBody (s : Statement) (body : Body) : Statement :=
  match s with
  | .group p _ => .group p body
  | .branch p _ orElse => .branch p body orElse
  | .handler p priority name doc _ => .handler p priority name doc body
  | s => s

/-- The last statement of a block. -/
def last? (s : Statement) : Option Statement := s.body?.bind List.getLast?

/-- A statement whose block has another last statement. -/
def withLast (s last : Statement) : Statement :=
  s.withBody ((s.body?.getD []).dropLast ++ [last])

theorem body?_withBody {s : Statement} {body : Body} (h : s.body? = some body) (body' : Body) :
    (s.withBody body').body? = some body' := by
  cases s <;> first | rfl | cases h

theorem exists_body_of_last? {s last : Statement} (h : s.last? = some last) :
    ∃ before, s.body? = some (before ++ [last]) := by
  obtain ⟨body, hbody, hlast⟩ := Option.bind_eq_some_iff.mp h
  obtain ⟨before, rfl⟩ := List.getLast?_eq_some_iff.mp hlast
  exact ⟨before, hbody⟩

theorem last?_withLast {s last : Statement} (h : s.last? = some last) (last' : Statement) :
    (s.withLast last').last? = some last' := by
  obtain ⟨before, hbody⟩ := exists_body_of_last? h
  rw [last?, withLast, body?_withBody hbody]
  exact List.getLast?_concat

/-! ### Chains -/

variable {branch : Statement}

theorem chainLast_concat (before : Body) (s : Statement) :
    chainLast branch (before ++ [s]) = (chain branch s).map fun s => before ++ [s] := by
  induction before with
  | nil =>
    rw [List.nil_append, chainLast]
    rfl
  | cons first rest ih =>
    obtain ⟨next, more, hmore⟩ := List.exists_cons_of_ne_nil
      (List.append_ne_nil_of_right_ne_nil rest (List.cons_ne_nil s []))
    rw [List.cons_append, hmore, chainLast, ← hmore, ih]
    · cases chain branch s <;> rfl
    · rintro ⟨⟩

theorem attach_eq (parent : Statement) : parent.attach branch =
    match parent.body? with
    | some body => (chainLast branch body).map parent.withBody
    | none => .error (branch.phrase.misfit .notAfterIf) := by
  cases parent with
  | group p body | branch p body orElse | handler p priority name doc body =>
    change _ = (chainLast branch body).map _
    rw [attach]
    cases chainLast branch body <;> rfl
  | _ => rfl

theorem chain_branch (p q : Phrase) (body body' : Body) (orElse : Option Statement) :
    chain branch (.branch p body (some (.branch q body' orElse))) =
      (chain branch (.branch q body' orElse)).map fun next => .branch p body (some next) := by
  rw [chain]
  cases chain branch (.branch q body' orElse) <;> rfl

/-- A choice without `else` takes an alternative at its end; one that ends with `else` does not. -/
theorem chain_choice (a : Alternative) (c : Choice) : chain a.statement c.statement =
    if c.orElse.isSome then .error (a.statement.phrase.misfit .elseTaken)
    else .ok (c.extend a).statement := by
  obtain ⟨first, more, orElse⟩ := c
  induction more generalizing first with
  | nil =>
    cases orElse with
    | some e => rfl
    | none =>
      rw [Choice.extend, Alternative.statement]
      split <;> rfl
  | cons next more ih =>
    have hnext : chain a.statement (Choice.statement ⟨first, next :: more, orElse⟩) =
        (chain a.statement (Choice.statement ⟨next, more, orElse⟩)).map fun s =>
          .branch first.phrase first.body (some s) := chain_branch ..
    rw [hnext, ih]
    cases orElse with
    | some e => rfl
    | none =>
      change Except.ok (Statement.branch first.phrase first.body
        (some (Choice.extend ⟨next, more, none⟩ a).statement)) = .ok _
      rw [Choice.extend, Choice.extend]
      split <;> rfl

/-- Only a choice without `else` takes a branch. -/
theorem exists_choice_of_chain : (s : Statement) → {s' : Statement} → chain branch s = .ok s' →
    ∃ c : Choice, s = c.statement ∧ c.orElse = none
  | .branch p body none, _, _ => ⟨⟨⟨p, body⟩, [], none⟩, rfl, rfl⟩
  | .branch p body (some (.branch q body' orElse)), _, h => by
    rw [chain_branch] at h
    cases hnext : chain branch (.branch q body' orElse) with
    | error e =>
      rw [hnext] at h
      cases h
    | ok next =>
      obtain ⟨⟨first, more, last⟩, hc, rfl⟩ := exists_choice_of_chain _ hnext
      refine ⟨⟨⟨p, body⟩, first :: more, none⟩, ?_, rfl⟩
      rw [hc]
      rfl
  | .branch _ _ (some (.plain _)), _, h | .branch _ _ (some (.group _ _)), _, h
  | .branch _ _ (some (.handler ..)), _, h | .branch _ _ (some (.wait ..)), _, h
  | .branch _ _ (some (.connect ..)), _, h | .branch _ _ (some (.collect ..)), _, h
  | .plain _, _, h | .group _ _, _, h | .handler .., _, h | .wait .., _, h | .connect .., _, h
  | .collect .., _, h => by cases h

/-- Why a branch is refused. -/
def refusal : Option Statement → Misfit
  | some (.branch ..) => .elseTaken
  | _ => .notAfterIf

theorem chain_eq_error {e : ScriptError} : (s : Statement) → chain branch s = .error e →
    e = branch.phrase.misfit (refusal (some s))
  | .branch p body (some (.branch q body' orElse)), h => by
    rw [chain_branch] at h
    cases hnext : chain branch (.branch q body' orElse) with
    | error e' =>
      rw [hnext] at h
      cases h
      exact chain_eq_error (.branch q body' orElse) hnext
    | ok next =>
      rw [hnext] at h
      cases h
  | .branch _ _ none, h => by cases h
  | .branch _ _ (some (.plain _)), h | .branch _ _ (some (.group _ _)), h
  | .branch _ _ (some (.handler ..)), h | .branch _ _ (some (.wait ..)), h
  | .branch _ _ (some (.connect ..)), h | .branch _ _ (some (.collect ..)), h
  | .plain _, h | .group _ _, h | .handler .., h | .wait .., h | .connect .., h
  | .collect .., h => by
    cases h
    rfl

/-! ### Attaching a branch -/

/-- A branch is hung onto the last statement of a block. -/
theorem attach_eq_last (parent : Statement) : parent.attach branch =
    match parent.last? with
    | some s => (chain branch s).map parent.withLast
    | none => .error (branch.phrase.misfit .notAfterIf) := by
  rw [attach_eq, last?]
  cases hbody : parent.body? with
  | none => rfl
  | some body =>
    rw [Option.bind_some]
    obtain rfl | ⟨before, s, rfl⟩ := List.eq_nil_or_concat body
    · rfl
    · have hlast : parent.withLast = fun s => parent.withBody (before ++ [s]) := by
        funext s'
        rw [withLast, hbody, Option.getD_some, List.concat_eq_append, List.dropLast_concat]
      rw [List.concat_eq_append, List.getLast?_concat, hlast]
      dsimp only
      rw [chainLast_concat]
      cases chain branch s <;> rfl

/-- An alternative is taken if the last statement of the block is a choice without `else`. -/
theorem attach_alternative {parent : Statement} {c : Choice} (h : parent.last? = some c.statement)
    (hopen : c.orElse = none) (a : Alternative) :
    parent.attach a.statement = .ok (parent.withLast (c.extend a).statement) := by
  rw [attach_eq_last, h]
  dsimp only
  rw [chain_choice, hopen]
  rfl

/-- Otherwise it is refused. -/
theorem attach_refused {parent : Statement}
    (h : ∀ c : Choice, parent.last? = some c.statement → c.orElse ≠ none) :
    parent.attach branch = .error (branch.phrase.misfit (refusal parent.last?)) := by
  rw [attach_eq_last]
  cases hlast : parent.last? with
  | none => rfl
  | some s =>
    cases hchain : chain branch s with
    | error e =>
      dsimp only
      rw [hchain, chain_eq_error s hchain]
      rfl
    | ok s' =>
      obtain ⟨c, rfl, hopen⟩ := exists_choice_of_chain s hchain
      exact absurd hopen (h c hlast)

/-- Attaches alternatives in order. -/
def attachAll (parent : Statement) (alternatives : List Alternative) :
    Except ScriptError Statement :=
  alternatives.foldlM (fun parent a => parent.attach a.statement) parent

/-- All branches of an `if`, in the order in which they are attached. -/
theorem attachAll_eq {parent : Statement} {c : Choice} (h : parent.last? = some c.statement)
    (hopen : c.orElse = none) {more : List Alternative} (hmore : ∀ a ∈ more, a.last = false)
    {orElse : Option Alternative} (horElse : ∀ a ∈ orElse, a.last = true) :
    ∃ parent', parent.attachAll (more ++ orElse.toList) = .ok parent' ∧ parent'.last? =
      some (Choice.statement ⟨c.first, c.more ++ more.map (·.arm), orElse.map (·.arm)⟩) := by
  induction more generalizing parent c with
  | nil =>
    obtain ⟨first, rest, last⟩ := c
    obtain rfl : last = none := hopen
    cases orElse with
    | none =>
      refine ⟨parent, rfl, ?_⟩
      rw [h, List.map_nil, List.append_nil]
      rfl
    | some a =>
      have hattach := attach_alternative h rfl a
      refine ⟨_, by rw [attachAll]; exact congrArg (· >>= pure) hattach, ?_⟩
      rw [last?_withLast h, Choice.extend, if_pos (horElse a rfl), List.map_nil, List.append_nil]
      rfl
  | cons a more ih =>
    have hattach := attach_alternative h hopen a
    have hextend : c.extend a = { c with more := c.more ++ [a.arm] } := by
      rw [Choice.extend, hmore a List.mem_cons_self, if_neg Bool.false_ne_true]
    rw [hextend] at hattach
    have hnext := last?_withLast h (Choice.statement { c with more := c.more ++ [a.arm] })
    obtain ⟨parent', hall, hlast⟩ := ih hnext hopen
      fun b hb => hmore b (List.mem_cons_of_mem a hb)
    refine ⟨parent', ?_, ?_⟩
    · rw [attachAll, List.cons_append, List.foldlM_cons, hattach]
      exact hall
    · rw [hlast, List.map_cons, List.append_assoc]
      rfl

end Statement

/-! ### The session -/

namespace Session

/-- The end of a branch attaches it to the statement around it, or fails. -/
theorem act_closed_alternative {s : Session} {parent : Statement} {rest : List Statement}
    (a : Alternative) (hblocks : s.blocks = a.statement :: parent :: rest) (line : Nat)
    (h : House) :
    (s.act (.closed line)).runOn h =
      match parent.attach a.statement with
      | .ok parent => (.ok ({ s with blocks := parent :: rest }, none), h)
      | .error e => (.error e, h) := by
  have hverb : a.statement.verb = a.arm.phrase.verb := by
    rw [Statement.verb, a.phrase_statement]
  have happly : Act.applyTo parent a.statement = Act.ofExcept (parent.attach a.statement) := by
    rw [Act.applyTo, a.phrase_statement, a.deed]
    cases a.last <;> rfl
  rw [act, hblocks]
  dsimp only
  rw [a.endBlock_statement, complete]
  dsimp only
  rw [hverb, a.immediate, if_pos rfl, happly]
  cases parent.attach a.statement <;> rfl

end Session

end Hearth
