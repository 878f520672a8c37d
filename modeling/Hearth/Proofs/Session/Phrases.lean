import Hearth.Proofs.Script.Forest

/-!
# Phrases

A statement keeps the phrase that it was built from, whatever configures it and whatever is added to
its block. The event of a phrase has the words of the line. The phrases inside a statement are those
of the statements that were added to it or applied to it.

## Main definitions

* `Act.Gives` : what work gives, if it ends well.
* `Statement.phrases` : the phrases of a statement and of all statements in it.

## Main results

* `Act.build_gives`, `Act.makeEvent_gives` : what a statement is built from.
* `Act.applyTo_gives`, `Statement.phrase_add` : what stays of it.
* `Act.applyTo_phrases`, `Statement.mem_phrases_add` : what comes to it.
-/

namespace Hearth

namespace Statement

mutual

/-- The phrases of a statement and of all statements in it, its own first. -/
def phrases : Statement → List Phrase
  | .plain p => [p]
  | .group p body => p :: phrasesAll body
  | .branch p body orElse => p :: (phrasesAll body ++ phrasesBranch orElse)
  | .handler p _ _ _ body => p :: phrasesAll body
  | .wait p _ _ => [p]
  | .connect p _ _ _ => [p]
  | .collect p _ body => p :: phrasesAll body

/-- The phrases of a branch, if there is one. -/
def phrasesBranch : Option Statement → List Phrase
  | none => []
  | some s => phrases s

/-- The phrases of the statements of a list. -/
def phrasesAll : List Statement → List Phrase
  | [] => []
  | s :: rest => phrases s ++ phrasesAll rest

end

theorem head?_phrases (s : Statement) : s.phrases.head? = some s.phrase := by
  cases s <;> rfl

theorem phrase_mem_phrases (s : Statement) : s.phrase ∈ s.phrases :=
  List.mem_of_head? s.head?_phrases

theorem phrasesAll_append (body more : Body) :
    phrasesAll (body ++ more) = phrasesAll body ++ phrasesAll more := by
  induction body with
  | nil => rfl
  | cons s body ih => rw [List.cons_append, phrasesAll, phrasesAll, ih, List.append_assoc]

theorem mem_phrasesAll {p : Phrase} {body : Body} :
    p ∈ phrasesAll body ↔ ∃ s ∈ body, p ∈ s.phrases := by
  induction body with
  | nil => exact ⟨nofun, fun ⟨_, h, _⟩ => nomatch h⟩
  | cons s body ih => rw [phrasesAll, List.mem_append, ih, List.exists_mem_cons_iff]

end Statement

namespace Act

variable {α β : Type}

/-- What work gives, if it ends well, is of a kind. -/
def Gives (a : Act α) (p : α → Prop) : Prop := ∀ h x h', a.runOn h = (.ok x, h') → p x

namespace Gives

variable {p q : α → Prop} {a : Act α}

theorem mono (ha : a.Gives p) (h : ∀ x, p x → q x) : a.Gives q :=
  fun h₀ x h' hrun => h x (ha h₀ x h' hrun)

theorem pure {x : α} (hx : p x) : Gives (Pure.pure x) p := by
  rintro h y h' ⟨⟩
  exact hx

theorem throw (e : ScriptError) : Gives (MonadExcept.throw e : Act α) p := by
  rintro h y h' ⟨⟩

theorem bind {a : Act β} {b : β → Act α} (hb : ∀ x, (b x).Gives p) : (a >>= b).Gives p := by
  intro h y h' hrun
  obtain ⟨x, h₁, -, hrun⟩ := runOn_bind_ok.mp hrun
  exact hb x h₁ y h' hrun

theorem ofExcept {x : Except ScriptError α} (hx : ∀ y, x = .ok y → p y) :
    (Act.ofExcept x).Gives p := by
  cases x with
  | ok y => exact .pure (hx y rfl)
  | error e => exact .throw e

end Gives

/-- A statement is built from its phrase, and there is no other in it. -/
theorem build_phrases (p : Phrase) : (build p).Gives fun statement => statement.phrases = [p] := by
  rw [build]
  split
  case h_1 | h_2 | h_3 =>
    split
    · first | exact .throw _ | exact .pure rfl
    · first | exact .throw _ | exact .pure rfl
  case h_7 => exact .bind fun _ => .pure rfl
  case h_9 =>
    dsimp only
    split
    · split
      all_goals
        refine .bind fun _ => ?_
        exact .pure rfl
    · split
      · exact .pure rfl
      · exact .pure rfl
  all_goals exact .pure rfl

/-- A statement is built from its phrase. -/
theorem build_gives (p : Phrase) : (build p).Gives fun statement => statement.phrase = p :=
  (build_phrases p).mono fun statement h =>
    Option.some.inj (statement.head?_phrases.symm.trans (congrArg List.head? h))

theorem setHandlerField_gives (p : Phrase) (args : Name) (field : HandlerField)
    (parent : Statement) :
    (setHandlerField p args field parent).Gives fun s => s.phrases = parent.phrases := by
  unfold setHandlerField
  split
  · split
    · split
      · split
        · refine .bind fun h => ?_
          dsimp only
          split
          · exact .pure rfl
          · exact .throw _
        · exact .throw _
      · exact .throw _
    · split
      · exact .throw _
      · exact .pure rfl
    · exact .pure rfl
  · exact .throw _

theorem setLinkField_gives (p : Phrase) (args : Name) (field : LinkField) (parent : Statement) :
    (setLinkField p args field parent).Gives fun s => s.phrases = parent.phrases := by
  unfold setLinkField
  split
  · split
    · exact .pure rfl
    · split
      · exact .pure rfl
      · exact .throw _
    · exact .pure rfl
    · split
      · exact .pure rfl
      · exact .throw _
    · exact .throw _
  · exact .throw _

theorem setSpan_gives (p : Phrase) (args : Name) (parent : Statement) :
    (setSpan p args parent).Gives fun s => s.phrases = parent.phrases := by
  rw [setSpan]
  split
  · exact .throw _
  · split
    · split
      · exact .pure rfl
      · exact .throw _
    · exact .throw _

theorem addLabel_gives (p : Phrase) (parent : Statement) :
    (addLabel p parent).Gives fun s => s.phrases = parent.phrases := by
  unfold addLabel
  split
  · exact .pure rfl
  · exact .throw _

end Act

namespace Statement

variable {parent child branch s s' : Statement} {p : Phrase}

theorem phrase_eq_of_phrases (h : s.phrases = s'.phrases) : s.phrase = s'.phrase :=
  Option.some.inj (s.head?_phrases.symm.trans ((congrArg List.head? h).trans s'.head?_phrases))

/-- A statement keeps its phrase when one is added to its block. -/
theorem phrase_add (h : parent.add child = .ok s) : s.phrase = parent.phrase := by
  unfold add at h
  split at h
  case h_5 => cases h
  all_goals
    cases h
    rfl

theorem phrase_attach (h : parent.attach branch = .ok s) : s.phrase = parent.phrase := by
  unfold attach at h
  split at h
  case h_4 => cases h
  all_goals
    obtain ⟨body, -, h⟩ := exists_of_bind_eq_ok h
    cases h
    rfl

/-- What is added to the block of a statement comes to its phrases. -/
theorem mem_phrases_add (h : parent.add child = .ok s) (hp : p ∈ s.phrases) :
    p ∈ parent.phrases ∨ p ∈ child.phrases := by
  unfold add at h
  split at h
  case h_5 => cases h
  all_goals
    cases h
    simp only [phrases, phrasesAll_append, phrasesAll, List.append_nil, List.mem_cons,
      List.mem_append] at hp ⊢
    tauto

theorem mem_phrases_chain : (s : Statement) → {s' : Statement} → chain branch s = .ok s' →
    p ∈ s'.phrases → p ∈ s.phrases ∨ p ∈ branch.phrases
  | .branch q body none, _, h, hp => by
    cases h
    simp only [phrases, phrasesBranch, List.append_nil, List.mem_cons, List.mem_append] at hp ⊢
    tauto
  | .branch q body (some (.branch q' body' orElse)), _, h, hp => by
    rw [chain] at h
    obtain ⟨next, hnext, h⟩ := exists_of_bind_eq_ok h
    cases h
    have hinside := mem_phrases_chain (.branch q' body' orElse) hnext
    simp only [phrases, phrasesBranch, List.mem_cons, List.mem_append] at hp hinside ⊢
    tauto
  | .branch _ _ (some (.plain _)), _, h, _ | .branch _ _ (some (.group _ _)), _, h, _
  | .branch _ _ (some (.handler ..)), _, h, _ | .branch _ _ (some (.wait ..)), _, h, _
  | .branch _ _ (some (.connect ..)), _, h, _ | .branch _ _ (some (.collect ..)), _, h, _
  | .plain _, _, h, _ | .group _ _, _, h, _ | .handler .., _, h, _ | .wait .., _, h, _
  | .connect .., _, h, _ | .collect .., _, h, _ => by cases h

theorem mem_phrases_chainLast : (body : Body) → {body' : Body} →
    chainLast branch body = .ok body' → p ∈ phrasesAll body' →
      p ∈ phrasesAll body ∨ p ∈ branch.phrases
  | [], _, h, _ => by cases h
  | [s], _, h, hp => by
    obtain ⟨s', hs', h⟩ := exists_of_bind_eq_ok h
    cases h
    rw [phrasesAll, phrasesAll, List.append_nil] at hp ⊢
    exact mem_phrases_chain s hs' hp
  | s :: next :: rest, _, h, hp => by
    obtain ⟨more, hmore, h⟩ := exists_of_bind_eq_ok h
    cases h
    rw [phrasesAll, List.mem_append] at hp ⊢
    rcases hp with hp | hp
    · exact .inl (.inl hp)
    · exact (mem_phrases_chainLast (next :: rest) hmore hp).imp_left .inr

/-- A branch that is attached comes to the phrases. -/
theorem mem_phrases_attach (h : parent.attach branch = .ok s) (hp : p ∈ s.phrases) :
    p ∈ parent.phrases ∨ p ∈ branch.phrases := by
  unfold attach at h
  split at h
  case h_4 => cases h
  all_goals
    obtain ⟨body, hbody, h⟩ := exists_of_bind_eq_ok h
    cases h
    have hinside := mem_phrases_chainLast (p := p) _ hbody
    simp only [phrases, List.mem_cons, List.mem_append] at hp ⊢
    tauto

end Statement

namespace Act

/-- A statement that is applied to another one is attached to it, or configures it. -/
theorem applyTo_cases (parent child : Statement) :
    (applyTo parent child).Gives fun s =>
      parent.attach child = .ok s ∨ s.phrases = parent.phrases := by
  have hsame {a : Act Statement} (ha : a.Gives fun s => s.phrases = parent.phrases) :
      a.Gives fun s => parent.attach child = .ok s ∨ s.phrases = parent.phrases :=
    ha.mono fun _ => .inr
  rw [applyTo]
  split
  · exact .ofExcept fun _ => .inl
  · exact .ofExcept fun _ => .inl
  · exact .bind fun args => hsame (setHandlerField_gives _ args _ parent)
  · exact .bind fun args => hsame (setLinkField_gives _ args _ parent)
  · exact .bind fun args => hsame (setSpan_gives _ args parent)
  · exact hsame (addLabel_gives _ parent)
  · exact .throw _

/-- A statement keeps its phrase when one is applied to it. -/
theorem applyTo_gives (parent child : Statement) :
    (applyTo parent child).Gives fun statement => statement.phrase = parent.phrase :=
  (applyTo_cases parent child).mono fun _ h =>
    h.elim Statement.phrase_attach Statement.phrase_eq_of_phrases

/-- What is applied to a statement can only come to its phrases. -/
theorem applyTo_phrases (parent child : Statement) :
    (applyTo parent child).Gives fun s =>
      ∀ p ∈ s.phrases, p ∈ parent.phrases ∨ p ∈ child.phrases :=
  (applyTo_cases parent child).mono fun _ h _ hp =>
    h.elim (Statement.mem_phrases_attach · hp) fun heq => .inl (heq ▸ hp)

end Act

/-- An event has the name that it was made with. -/
theorem Act.makeEvent_gives (name : Name) (scope : ScopeId) :
    (makeEvent name scope).Gives fun e => e.name = name := by
  rw [makeEvent]
  refine .bind fun time => .bind fun h => ?_
  intro h₁ e h₂ hrun
  obtain ⟨e', h₃, hof, hrun⟩ := Act.runOn_bind_ok.mp hrun
  obtain ⟨-, h₄, -, hrun⟩ := Act.runOn_bind_ok.mp hrun
  cases hrun
  rw [Event.make] at hof
  split at hof
  · cases hof
  · cases hof
    rfl

end Hearth
