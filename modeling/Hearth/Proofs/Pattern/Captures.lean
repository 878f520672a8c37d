import Hearth.Proofs.Decimal
import Hearth.Proofs.House.Work
import Hearth.Proofs.Scopes.Isolation
import Hearth.Proofs.Script.Spelling
import Hearth.Strand.Work

/-!
# What a wildcard captures is what its variable stands for

A handler's body runs in a new scope that holds a variable for each wildcard of the pattern: under
its name, or under the number of a star without a name. If no two wildcards have one name and no
name is a number, these variables are all different, so each of them still has the word of the
event that its wildcard stood for, and hides whatever the scopes above know by its name. Written
into the pattern in place of their wildcards, the variables give the words of the event again,
numbers as numbers and texts as texts.

## Main definitions

* `Pattern.Binds` : how a pattern binds variables, word by word.
* `Pattern.template` : a pattern with a variable in place of each wildcard.
* `Pattern.filled` : a pattern with the words of an event in place of its wildcards.

## Main results

* `Pattern.Binds.nodup` : the variables of a pattern are all different.
* `Scope.slot?_foldl_of_mem` : what a new scope holds.
* `Pattern.captures_restored` : a template's words in the scope that a handler's body runs in.
-/

namespace Hearth

namespace Pattern

open Script (IsWord)

/-- How a pattern binds variables on the words of an event. `position` counts the stars without a
name so far. -/
inductive Binds : Nat → Name → Name → List (String × Json) → Prop
  | nil (position : Nat) : Binds position [] [] []
  | star {position : Nat} {want got : Token} {pattern words : Name} {bound : List (String × Json)}
    (hwild : want.wildcard? = some "") (hmore : Binds (position + 1) pattern words bound) :
    Binds position (want :: pattern) (got :: words)
      ((toString (position + 1), got.toValue) :: bound)
  | named {position : Nat} {want got : Token} {pattern words : Name} {bound : List (String × Json)}
    {name : String} (hwild : want.wildcard? = some name) (hname : name ≠ "")
    (hmore : Binds position pattern words bound) :
    Binds position (want :: pattern) (got :: words) ((name, got.toValue) :: bound)
  | literal {position : Nat} {want got : Token} {pattern words : Name}
    {bound : List (String × Json)} (hwild : want.wildcard? = none) (hsame : sameWord want got)
    (hmore : Binds position pattern words bound) :
    Binds position (want :: pattern) (got :: words) bound

/-- The words of a pattern, a variable in place of each wildcard. -/
def templateFrom (position : Nat) : Name → Name
  | [] => []
  | want :: pattern =>
    match want.wildcard? with
    | some name =>
      if name.isEmpty then
        .text ("$" ++ toString (position + 1)) :: templateFrom (position + 1) pattern
      else .text ("$" ++ name) :: templateFrom position pattern
    | none => want :: templateFrom position pattern

/-- The words of a pattern, `$name` in place of each `*name` and `$i` in place of the `i`-th star
alone. -/
def template (pattern : Name) : Name := templateFrom 0 pattern

/-- The words of a pattern, those of an event in place of its wildcards. -/
def filled (pattern words : Name) : Name :=
  List.zipWith (fun want got => if want.wildcard?.isSome then got else want) pattern words

/-- The names of a pattern's wildcards that have one. -/
def names (pattern : Name) : List String := (pattern.filterMap Token.wildcard?).filter (· ≠ "")

variable {position : Nat} {pattern words : Name} {bound : List (String × Json)}

/-- What a pattern binds is bound word by word. -/
theorem Binds.of_bindFrom (h : bindFrom position pattern words = some bound) :
    Binds position pattern words bound := by
  induction pattern generalizing position words bound with
  | nil =>
    cases words with
    | nil =>
      obtain rfl : [] = bound := Option.some.inj h
      exact .nil position
    | cons got words => cases h
  | cons want pattern ih =>
    cases words with
    | nil => cases h
    | cons got words =>
      rw [bindFrom] at h
      cases hwild : want.wildcard? with
      | none =>
        simp only [hwild] at h
        split at h
        · next hsame => exact .literal hwild hsame (ih h)
        · cases h
      | some name =>
        simp only [hwild] at h
        split at h
        · next hname =>
          obtain ⟨more, hmore, rfl⟩ := Option.map_eq_some_iff.mp h
          exact .star (hwild.trans (congrArg some (String.isEmpty_iff.mp hname))) (ih hmore)
        · next hname =>
          obtain ⟨more, hmore, rfl⟩ := Option.map_eq_some_iff.mp h
          exact .named hwild (fun he => hname (String.isEmpty_iff.mpr he)) (ih hmore)

/-! ### The variables of a pattern -/

theorem names_of_star {want : Token} (h : want.wildcard? = some "") :
    names (want :: pattern) = names pattern := by
  simp [names, h]

theorem names_of_named {want : Token} {name : String} (h : want.wildcard? = some name)
    (hname : name ≠ "") : names (want :: pattern) = name :: names pattern := by
  simp [names, h, hname]

theorem names_of_literal {want : Token} (h : want.wildcard? = none) :
    names (want :: pattern) = names pattern := by
  simp [names, h]

/-- A variable of a pattern is named by a wildcard, or numbered after the stars before it. -/
theorem Binds.named_or_numbered (h : Binds position pattern words bound) :
    ∀ k ∈ bound.map Prod.fst, k ∈ names pattern ∨ ∃ i, position < i ∧ k = toString i := by
  induction h with
  | nil position => simp
  | star hwild hmore ih =>
    rw [names_of_star hwild, List.map_cons, List.forall_mem_cons]
    refine ⟨.inr ⟨_, Nat.lt_succ_self _, rfl⟩, fun k hk => (ih k hk).imp_right ?_⟩
    rintro ⟨i, hi, hk⟩
    exact ⟨i, Nat.lt_of_succ_lt hi, hk⟩
  | named hwild hname hmore ih =>
    rw [names_of_named hwild hname, List.map_cons, List.forall_mem_cons]
    exact ⟨.inl List.mem_cons_self, fun k hk => (ih k hk).imp_left (List.mem_cons_of_mem _)⟩
  | literal hwild hsame hmore ih =>
    rw [names_of_literal hwild]
    exact ih

/-- The variables of a pattern are all different if the names of its wildcards are, and none of
them is a number. -/
theorem Binds.nodup (h : Binds position pattern words bound) (hdistinct : (names pattern).Nodup)
    (hnumber : ∀ n : Nat, toString n ∉ names pattern) : (bound.map Prod.fst).Nodup := by
  induction h with
  | nil position => exact List.nodup_nil
  | star hwild hmore ih =>
    rw [names_of_star hwild] at hdistinct hnumber
    refine List.nodup_cons.mpr ⟨fun hmem => ?_, ih hdistinct hnumber⟩
    rcases hmore.named_or_numbered _ hmem with hname | ⟨i, hi, hnumbered⟩
    · exact hnumber _ hname
    · have := Decimal.toString_injective hnumbered
      omega
  | named hwild hname hmore ih =>
    rw [names_of_named hwild hname] at hdistinct hnumber
    obtain ⟨hfirst, hothers⟩ := List.nodup_cons.mp hdistinct
    refine List.nodup_cons.mpr ⟨fun hmem => ?_,
      ih hothers fun n hn => hnumber n (List.mem_cons_of_mem _ hn)⟩
    rcases hmore.named_or_numbered _ hmem with hmem | ⟨i, -, hnumbered⟩
    · exact hfirst hmem
    · exact hnumber i (hnumbered ▸ List.mem_cons_self)
  | literal hwild hsame hmore ih =>
    rw [names_of_literal hwild] at hdistinct hnumber
    exact ih hdistinct hnumber

end Pattern

/-! ### What a new scope holds -/

namespace Scope

variable {scope : Scope} {seed : List (String × Json)} {k : String} {v : Json}

/-- A variable that no value is given to has the slot that it had. -/
theorem slot?_foldl_of_notMem (hk : k ∉ seed.map Prod.fst) :
    (seed.foldl (fun scope (k, v) => scope.put k (.value v)) scope).slot? k = scope.slot? k := by
  induction seed generalizing scope with
  | nil => rfl
  | cons p seed ih =>
    obtain ⟨hfirst, hothers⟩ := List.ne_and_not_mem_of_not_mem_cons hk
    rw [List.foldl_cons, ih hothers, slot?_put, if_neg hfirst]

/-- Values that are given to different variables are all there. -/
theorem slot?_foldl_of_mem (hseed : (seed.map Prod.fst).Nodup) (hmem : (k, v) ∈ seed) :
    (seed.foldl (fun scope (k, v) => scope.put k (.value v)) scope).slot? k =
      some (.value v) := by
  induction seed generalizing scope with
  | nil => exact absurd hmem List.not_mem_nil
  | cons p seed ih =>
    obtain ⟨hfirst, hothers⟩ := List.nodup_cons.mp hseed
    rcases List.mem_cons.mp hmem with rfl | hmem
    · rw [List.foldl_cons, slot?_foldl_of_notMem hfirst, slot?_put, if_pos rfl]
    · exact ih hothers hmem

end Scope

/-- A new scope finds the values that its variables are given, whatever the scopes above know. -/
theorem Scopes.lookup_derive_of_mem {s : Scopes} {id : ScopeId} {extra : Option ScopeId}
    {seed : List (String × Json)} {k : String} {v : Json} (hseed : (seed.map Prod.fst).Nodup)
    (hmem : (k, v) ∈ seed) :
    (s.derive id extra seed).2.lookup (s.derive id extra seed).1 k = some v := by
  apply lookup_own
  rw [derive, get_add]
  exact Scope.slot?_foldl_of_mem hseed hmem

namespace Pattern

open Script (IsWord)

variable {position : Nat} {pattern words : Name} {bound : List (String × Json)}

/-! ### A pattern filled in -/

/-- A number or a text is read from the value that a variable gets from it. -/
theorem ofValue_toValue {t : Token} (h : IsWord t) : Token.ofValue t.toValue = t := by
  cases t with
  | int n => rw [Token.toValue, Token.ofValue, Decimal.toInt64?_toInt]
  | text s => rfl
  | sub ts => exact h.elim

/-- `$name` stands for a variable. -/
theorem varName?_reference {name : String} (h : name ≠ "") :
    (Token.text ("$" ++ name)).varName? = some name := by
  obtain ⟨c, cs, hcs⟩ := List.exists_cons_of_ne_nil (mt String.toList_eq_nil_iff.mp h)
  have hlist : ("$" ++ name).toList = '$' :: c :: cs := by
    rw [String.toList_append, hcs]
    rfl
  simp only [Token.varName?, hlist]
  rw [← hcs, String.ofList_toList]

theorem toString_ne_empty (n : Nat) : toString n ≠ "" := by
  intro h
  have hlist : (Nat.repr n).toList = [] := congrArg String.toList h
  rw [Nat.toList_repr] at hlist
  exact Nat.toDigits_ne_nil hlist

variable {scopes : Scopes} {scope : ScopeId}

/-- A word that is no variable stands for itself. -/
theorem substitute_literal {t : Token} {ts us : Name} (ht : t.varName? = none)
    (hts : substitute scopes scope ts = .ok us) :
    substitute scopes scope (t :: ts) = .ok (t :: us) := by
  rw [substitute] at hts ⊢
  rw [List.mapM_cons, hts, ht]
  rfl

/-- A variable stands for the word that is read from its value. -/
theorem substitute_reference {name : String} {v : Json} {ts us : Name} (hname : name ≠ "")
    (hv : scopes.lookup scope name = some v) (hts : substitute scopes scope ts = .ok us) :
    substitute scopes scope (.text ("$" ++ name) :: ts) = .ok (Token.ofValue v :: us) := by
  rw [substitute] at hts ⊢
  rw [List.mapM_cons, hts, varName?_reference hname]
  simp only [hv]
  rfl

/-- Where each variable has the value that it was bound to, a pattern with variables in place of
its wildcards stands for the words of the event there. -/
theorem Binds.substitute_templateFrom (h : Binds position pattern words bound)
    (hwords : ∀ t ∈ words, IsWord t)
    (hliterals : ∀ t ∈ pattern, t.wildcard? = none → t.varName? = none)
    (hfound : ∀ p ∈ bound, scopes.lookup scope p.1 = some p.2) :
    substitute scopes scope (templateFrom position pattern) = .ok (filled pattern words) := by
  induction h with
  | nil position => rfl
  | star hwild hmore ih =>
    obtain ⟨hgot, hwords⟩ := List.forall_mem_cons.mp hwords
    obtain ⟨hfirst, hothers⟩ := List.forall_mem_cons.mp hfound
    have hrest := ih hwords (List.forall_mem_cons.mp hliterals).2 hothers
    simpa [templateFrom, filled, hwild, ofValue_toValue hgot] using
      substitute_reference (toString_ne_empty _) hfirst hrest
  | named hwild hname hmore ih =>
    obtain ⟨hgot, hwords⟩ := List.forall_mem_cons.mp hwords
    obtain ⟨hfirst, hothers⟩ := List.forall_mem_cons.mp hfound
    have hrest := ih hwords (List.forall_mem_cons.mp hliterals).2 hothers
    simpa [templateFrom, filled, hwild, hname, ofValue_toValue hgot] using
      substitute_reference hname hfirst hrest
  | literal hwild hsame hmore ih =>
    obtain ⟨hwant, hliterals⟩ := List.forall_mem_cons.mp hliterals
    have hrest := ih (List.forall_mem_cons.mp hwords).2 hliterals hfound
    simpa [templateFrom, filled, hwild] using substitute_literal (hwant hwild) hrest

/-- A pattern that matches any words at all has some itself. -/
theorem Binds.filled_ne_nil (h : Binds position pattern words bound) (hwords : words ≠ []) :
    filled pattern words ≠ [] := by
  cases h with
  | nil => exact absurd rfl hwords
  | _ => exact List.cons_ne_nil _ _

/-- An event has at least one word. -/
theorem name_ne_nil_of_make {e : Event} {number : Nat} {name : Name} {origin : ScopeId}
    {fired : Timestamp} (made : Event.make number name origin fired = .ok e) : e.name ≠ [] := by
  rw [Event.make] at made
  split at made
  · cases made
  · next hname =>
    obtain rfl := Except.ok.inj made
    exact fun h => hname (List.isEmpty_iff.mpr h)

/-- What a wildcard captures is what its variable stands for. An event handler that matches an
event runs its body in a new scope; there a template made from its pattern, with `$name` in place
of each `*name` and `$i` in place of the `i`-th star alone, becomes the words of the event where the
pattern has wildcards and those of the pattern elsewhere. The scopes that were there before, those
of the event and of the handler among them, are what they were. -/
theorem captures_restored {h : House} {x : Handler} {e : Event} {number : Nat} {name : Name}
    {origin : ScopeId} {fired : Timestamp} (made : Event.make number name origin fired = .ok e)
    (hwords : ∀ t ∈ e.name, IsWord t) (hmatch : isMatch x.pattern e.name)
    (hdistinct : (names x.pattern).Nodup) (hnumber : ∀ n : Nat, toString n ∉ names x.pattern)
    (hliterals : ∀ t ∈ x.pattern, t.wildcard? = none → t.varName? = none) :
    ∃ scope h', (Strand.process e (.handler x)).runOn h =
        (.ok (.call (.body x.body scope)), h') ∧
      (∀ (t : Event) (id : Nat) (time : Timestamp), t.name = template x.pattern →
        t.rename h'.scopes id 0 scope time =
          .ok ⟨id, filled x.pattern e.name, scope, time⟩) ∧
      ∀ s, h.scopes.Known s → h'.scopes.get s = h.scopes.get s := by
  obtain ⟨bound, hbound⟩ := Option.isSome_iff_exists.mp hmatch
  have hbinds := Binds.of_bindFrom hbound
  have hfound : ∀ p ∈ bound, (h.scopes.derive e.scope (some x.scope) bound).2.lookup
      (h.scopes.derive e.scope (some x.scope) bound).1 p.1 = some p.2 := fun p hp =>
    Scopes.lookup_derive_of_mem (hbinds.nodup hdistinct hnumber) hp
  refine ⟨(h.scopes.derive e.scope (some x.scope) bound).1,
    { h with scopes := (h.scopes.derive e.scope (some x.scope) bound).2 }, ?_, ?_, ?_⟩
  · rw [Strand.process, hbound]
    rfl
  · intro t id time ht
    have hfilled := hbinds.substitute_templateFrom hwords hliterals hfound
    rw [Event.rename, ht, List.drop_zero, template, hfilled]
    have hne := hbinds.filled_ne_nil (name_ne_nil_of_make made)
    change Event.make id (filled x.pattern e.name) _ time = _
    rw [Event.make, if_neg (mt List.isEmpty_iff.mp hne)]
  · exact fun s hs => Scopes.get_add_of_ne hs.ne_add

/-- The words of an event whose scope has `x` deleted, where the scope of the handler gives it
another value: the wildcards stand for the words of the event. -/
theorem captures_restored_hidden :
    let h : House := { (default : House) with scopes := Scopes.diamond }
    let x : Handler := { (default : Handler) with
      pattern := [.text "dim", .text "*x", .text "*"], scope := ⟨2⟩ }
    let e : Event := ⟨4, [.text "dim", .text "lamp", .int 40], ⟨3⟩, default⟩
    ∃ scope h', (Strand.process e (.handler x)).runOn h =
        (.ok (.call (.body x.body scope)), h') ∧
      Event.rename ⟨5, [.text "dim", .text "$x", .text "$1"], ⟨0⟩, default⟩ h'.scopes 6 0 scope
        default = .ok ⟨6, [.text "dim", .text "lamp", .int 40], scope, default⟩ := by
  intro h x e
  have hnames : names x.pattern = ["x"] := by decide
  have hnumber : ∀ n : Nat, toString n ∉ names x.pattern := by
    intro n hn
    rw [hnames, List.mem_singleton] at hn
    have hdigits : Nat.toDigits 10 n = ['x'] := by
      rw [← Nat.toList_repr]
      exact congrArg String.toList hn
    exact absurd (Decimal.isDigit_of_mem_toDigits (hdigits ▸ List.mem_singleton_self 'x'))
      (by decide)
  have hmade : Event.make 4 e.name ⟨3⟩ default = .ok e := rfl
  obtain ⟨scope, h', hrun, htemplate, -⟩ := captures_restored (h := h) (x := x) hmade
    (by simp [e, Script.IsWord]) (by decide) (by rw [hnames]; decide) hnumber (by decide)
  exact ⟨scope, h', hrun, htemplate _ 6 default (by decide)⟩

end Pattern

end Hearth
