import Hearth.Proofs.House.Incidents
import Hearth.Proofs.House.Steady

/-!
# How the outfit changes

An event handler is defined under the next number, with the name that it is given, if that is free,
or else with a name made of the number. Deleting takes away the event handler that a name refers to.
`Outfit.Change` lists these changes and the few others; what every step of every strand does to the
outfit is a number of them.

## Main definitions

* `Handler.ownName` : the name of an event handler that is given none.
* `House.handlerFor` : the event handler that a definition makes.
* `Outfit.Change` : all that can change in an outfit.

## Main results

* `Act.runOn_defineHandler` : what a definition does.
* `Strand.step_changes` : what a step does to the outfit.
-/

namespace Hearth

/-- The name of an event handler that is given none. -/
def Handler.ownName (id : Nat) : Name := [.text "_on", .int (Int64.ofNat id)]

/-- The event handler that a definition makes. -/
def House.handlerFor (h : House) (pattern : Name) (priority : Option Int32) (name : Option Name)
    (doc : Option String) (body : Body) (scope : ScopeId) : Handler where
  id := h.nextHandler
  name := name.getD (Handler.ownName h.nextHandler)
  doc
  pattern
  priority := priority.getD h.bands.defaultPriority
  body
  scope

open House (Staying)

/-! ### Defining -/

namespace Act

variable {h : House} {p : House → Prop}

section

variable (q : Phrase) (priority : Option Int32) (name : Option Name) (doc : Option String)
  (body : Body) (scope : ScopeId)

/-- A pattern that is not empty and a name that is free, if one is given, make an event handler. -/
theorem runOn_defineHandler {pattern : Name} {h₁ : House}
    (hparams : (params q scope).runOn h = (.ok pattern, h₁)) (hpattern : pattern ≠ [])
    (hfree : ∀ n, name = some n → h₁.handler? n = none) :
    (defineHandler q priority name doc body scope).runOn h =
      (addHandler h₁ (h₁.handlerFor pattern priority name doc body scope)).runOn h₁ := by
  have hnonempty : ¬ pattern.isEmpty = true := fun h => hpattern (List.isEmpty_iff.mp h)
  rw [defineHandler, runOn_bind, hparams]
  dsimp only
  rw [if_neg hnonempty, runOn_get_bind]
  cases name with
  | none => rfl
  | some n =>
    have hnone : ¬ (h₁.handler? n).isSome = true := by
      rw [hfree n rfl]
      exact Bool.false_ne_true
    dsimp only
    rw [if_neg hnone]
    rfl

/-- A property that survives that an event handler is added survives a definition. -/
theorem ensures_defineHandler [Staying p]
    (hadd : ∀ h x, p h → x.id = h.nextHandler →
      (x.name = Handler.ownName x.id ∨ h.handler? x.name = none) → (addHandler h x).Upholds p) :
    (defineHandler q priority name doc body scope).Upholds p := by
  rw [defineHandler]
  refine .bind (ensures_params q scope) fun pattern _ => ?_
  by_cases hpattern : pattern.isEmpty
  · simp only [hpattern]
    exact .throw_bind _ _
  · simp only [hpattern]
    refine .get_bind fun h hh => ?_
    cases name with
    | none => exact hadd h (h.handlerFor pattern priority none doc body scope) hh rfl (.inl rfl)
    | some n =>
      dsimp only
      split
      · exact .throw_bind _ _
      · next hfree =>
        exact hadd h (h.handlerFor pattern priority (some n) doc body scope) hh rfl
          (.inr (Option.not_isSome_iff_eq_none.mp hfree))

end

/-! ### Deleting -/

theorem ensures_deleteHandler (name : Name)
    (hremove : ∀ h x, p h → x ∈ h.handlers → p { h with
      handlers := h.handlers.filter (·.1 != x.1), registry := h.registry.without [x.1] }) :
    (deleteHandler name).Upholds p := by
  intro h hh
  refine ⟨?_, fun _ _ => trivial⟩
  cases hx : h.handler? name with
  | none =>
    rw [deleteHandler, runOn_get_bind, hx]
    exact hh
  | some x =>
    rw [runOn_deleteHandler hx]
    exact hremove h x hh (mem_handlers hx)

end Act

/-! ### Changes -/

/-- All that can change in an outfit. -/
inductive Outfit.Change : Outfit → Outfit → Prop
  /-- An event handler got its number, and could not be registered. -/
  | spends (F : Outfit) : Change F { F with nextHandler := F.nextHandler + 1 }
  | defines {F : Outfit} {x : Handler} {id : WorkerId} {registry : Registry}
    (number : x.id = F.nextHandler)
    (named : x.name = Handler.ownName x.id ∨ ∀ y ∈ F.handlers, y.2.name ≠ x.name)
    (added : F.registry.register (.handler x) = .ok (id, registry)) :
    Change F { F with
      registry, handlers := F.handlers ++ [(id, x)], nextHandler := F.nextHandler + 1 }
  | removes {F : Outfit} {x : WorkerId × Handler} (listed : x ∈ F.handlers) : Change F { F with
      handlers := F.handlers.filter (·.1 != x.1), registry := F.registry.without [x.1] }
  /-- The module of the event handlers is taken down. -/
  | clears (F : Outfit) : Change F { F with
      handlers := [], registry := F.registry.without (F.handlers.map (·.1)) }
  | opens (F : Outfit) (name : Name) : Change F { F with
      links := NameMap.insert name ⟨F.queues⟩ F.links, queues := F.queues + 1 }
  | takes (F : Outfit) (name : Name) : Change F { F with links := NameMap.erase F.links name }
  | takesAll (F : Outfit) : Change F { F with links := [] }

/-- What survives every change survives many. -/
theorem Outfit.of_changes {P : Outfit → Prop} (keeps : ∀ {F F'}, Change F F' → P F → P F')
    {F F' : Outfit} (hchanges : Relation.ReflTransGen Change F F') (hF : P F) : P F' := by
  induction hchanges with
  | refl => exact hF
  | tail _ hchange ih => exact keeps hchange ih

/-- What a name refers to is known by the names on the list. -/
theorem House.ne_of_handler?_eq_none {h : House} {name : Name} (hnone : h.handler? name = none) :
    ∀ y ∈ h.handlers, y.2.name ≠ name := by
  intro y hy hname
  unfold House.handler? at hnone
  cases hfind : h.handlers.find? fun x => x.2.name == name with
  | none => exact absurd (beq_iff_eq.mpr hname) (List.find?_eq_none.mp hfind y hy)
  | some x =>
    rw [hfind] at hnone
    cases hnone

/-- Some changes lead from an outfit to that of a house. -/
def House.ChangedFrom (F : Outfit) (h : House) : Prop :=
  Relation.ReflTransGen Outfit.Change F h.outfit

namespace House.ChangedFrom

open Act (Upholds)

variable {F : Outfit} {h : House}

instance (F : Outfit) : House.Steady (ChangedFrom F) where
  of_untouched hu hh := by rwa [ChangedFrom, hu.outfit]

instance (F : Outfit) : House.Stateless (ChangedFrom F) where
  of_states _ _ _ hh := hh

theorem addHandler {x : Handler} (hh : h.ChangedFrom F) (number : x.id = h.nextHandler)
    (named : x.name = Handler.ownName x.id ∨ h.handler? x.name = none) :
    (Act.addHandler h x).Upholds (ChangedFrom F) := by
  intro k _
  refine ⟨?_, fun _ _ => trivial⟩
  rw [Act.runOn_addHandler]
  cases hadded : h.registry.register (.handler x) with
  | error e => exact hh.tail (.spends _)
  | ok r => exact hh.tail (.defines number (named.imp_right ne_of_handler?_eq_none) hadded)

theorem defines (q : Phrase) (priority : Option Int32) (name : Option Name) (doc : Option String)
    (body : Body) (scope : ScopeId) :
    (Act.defineHandler q priority name doc body scope).Upholds (ChangedFrom F) :=
  Act.ensures_defineHandler _ _ _ _ _ _ fun _ _ => addHandler

theorem deletes (name : Name) : (Act.deleteHandler name).Upholds (ChangedFrom F) :=
  Act.ensures_deleteHandler name fun _ _ hh hx => hh.tail (.removes hx)

theorem clears (hh : h.ChangedFrom F) : (Act.clearHandlers h).ChangedFrom F := by
  rw [Act.clearHandlers_eq]
  exact hh.tail (.clears _)

theorem opens (name : Name) (ondemand : Option Bool) :
    (Act.openLink name ondemand).Upholds (ChangedFrom F) := by
  intro h hh
  refine ⟨?_, fun _ _ => trivial⟩
  have hopened : ((Act.openLink name ondemand).runOn h).2.outfit = { h.outfit with
      links := NameMap.insert name ⟨h.queues.length⟩ h.links
      queues := h.queues.length + 1 } :=
    congrArg (fun queues => { h.outfit with
      links := NameMap.insert name ⟨h.queues.length⟩ h.links, queues }) List.length_append
  rw [ChangedFrom, hopened]
  exact hh.tail (.opens _ name)

theorem takes (name : Name) : (Act.takeLink name).Upholds (ChangedFrom F) := by
  rw [Act.takeLink]
  refine .get_bind fun h hh => ?_
  split
  · exact .bind (.set (hh.tail (.takes _ name))) fun _ _ => .pure trivial
  · exact .throw _

theorem takesAll : (Act.perform House.takeLinks).Upholds (ChangedFrom F) :=
  .perform fun _ hh => hh.tail (.takesAll _)

end House.ChangedFrom

/-! ### Steps -/

open House (ChangedFrom) in
/-- What a step does to the outfit. -/
theorem Strand.step_changes (job : Link.JobId) (h : House) (t : Strand.State) :
    Relation.ReflTransGen Outfit.Change h.outfit (Strand.step job h t).2.1.outfit := by
  have hstart : h.ChangedFrom h.outfit := .refl
  rcases Strand.step_house job h t with hstays | ⟨c, -, hstep⟩ | ⟨f, frames, o, -, hstep⟩
  · exact Staying.of_stays (p := ChangedFrom h.outfit) hstays hstart
  · rw [hstep]
    have hbegin : (Strand.begin job c).Upholds (ChangedFrom h.outfit) :=
      Strand.begin_upholds job c ChangedFrom.defines ChangedFrom.opens ChangedFrom.takesAll
        (fun _ scope _ _ words =>
          Strand.delete_upholds ChangedFrom.deletes ChangedFrom.takes words scope)
        fun m _ _ h => ChangedFrom.clears
    exact (hbegin h hstart).1
  · rw [hstep]
    have hresume : (Strand.resume o f).Upholds (ChangedFrom h.outfit) :=
      Strand.resume_upholds o f ChangedFrom.takesAll fun m _ _ h => ChangedFrom.clears
    exact (hresume h hstart).1

end Hearth
