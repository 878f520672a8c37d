import Hearth.Settings.Include
import Hearth.Proofs.Basic

/-!
# Tags that bring values from elsewhere

A value is resolved part by part, in the order in which it is written, up to the first part that
fails. What fails is always a node whose tag brings a value from elsewhere, and when all went well
there is no such tag left.

## Main definitions

* `Yaml.Value.tags` : the tags at any depth of a value.
* `Settings.Sources.given` : what stands for a node whose tag brings a value from elsewhere.
* `Settings.Sources.Comes` : the nodes with such tags that resolving a value comes to.

## Main results

* `Settings.Sources.resolve_eq_error` : resolving fails at a node that it comes to.
* `Settings.Sources.tags_of_resolve` : the tags in a value that was resolved.
-/

namespace Hearth

namespace Yaml.Value

mutual

/-- The tags in a value: its own, and those in its keys, items and values. -/
def tags : Value → List String
  | .tagged tag v => tag :: tags v
  | .list items => tagsOfItems items
  | .map entries => tagsOfEntries entries
  | _ => []

/-- The tags in items. -/
def tagsOfItems : List Value → List String
  | [] => []
  | v :: rest => tags v ++ tagsOfItems rest

/-- The tags in entries. -/
def tagsOfEntries : List (Value × Value) → List String
  | [] => []
  | (k, v) :: rest => tags k ++ tags v ++ tagsOfEntries rest

end

/-- A value without parts. -/
structure IsLeaf (v : Value) : Prop where
  not_tagged : ∀ tag w, v ≠ .tagged tag w
  not_list : ∀ items, v ≠ .list items
  not_map : ∀ entries, v ≠ .map entries

/-- Induction on a value: what holds of all its parts holds of it. -/
@[elab_as_elim]
theorem induction_parts {P : Value → Prop} (leaf : ∀ v, IsLeaf v → P v)
    (tagged : ∀ tag v, P v → P (.tagged tag v))
    (list : ∀ items, (∀ v ∈ items, P v) → P (.list items))
    (map : ∀ entries, (∀ entry ∈ entries, P entry.1 ∧ P entry.2) → P (.map entries)) :
    (v : Value) → P v
  | .tagged tag v => tagged tag v (induction_parts leaf tagged list map v)
  | .list items => list items fun v hv =>
    have _ := List.sizeOf_lt_of_mem hv
    induction_parts leaf tagged list map v
  | .map entries => map entries fun entry hentry =>
    have _ := List.sizeOf_lt_of_mem hentry
    have _ : sizeOf entry = 1 + sizeOf entry.1 + sizeOf entry.2 := rfl
    ⟨induction_parts leaf tagged list map entry.1, induction_parts leaf tagged list map entry.2⟩
  | .null => leaf _ ⟨nofun, nofun, nofun⟩
  | .bool _ => leaf _ ⟨nofun, nofun, nofun⟩
  | .int _ => leaf _ ⟨nofun, nofun, nofun⟩
  | .float _ => leaf _ ⟨nofun, nofun, nofun⟩
  | .text _ => leaf _ ⟨nofun, nofun, nofun⟩
  termination_by v => sizeOf v

theorem tags_of_isLeaf {v : Value} (h : IsLeaf v) : v.tags = [] := by
  rw [tags]
  · exact h.not_tagged
  · exact h.not_list
  · exact h.not_map

theorem mem_tagsOfItems {t : String} {items : List Value} :
    t ∈ tagsOfItems items ↔ ∃ v ∈ items, t ∈ v.tags := by
  induction items with
  | nil => simp [tagsOfItems]
  | cons v rest ih => simp [tagsOfItems, ih]

theorem mem_tagsOfEntries_insert {t : String} {key value : Value} {entries : List (Value × Value)}
    (h : t ∈ tagsOfEntries (insert key value entries)) :
    t ∈ key.tags ∨ t ∈ value.tags ∨ t ∈ tagsOfEntries entries := by
  induction entries with
  | nil => simpa [insert, tagsOfEntries] using h
  | cons entry rest ih =>
    obtain ⟨k, v⟩ := entry
    rw [insert] at h
    split at h
    · simp only [tagsOfEntries, List.mem_append] at h ⊢
      tauto
    · simp only [tagsOfEntries, List.mem_append] at h ⊢
      tauto

end Yaml.Value

namespace Settings.Sources

open Yaml (Value)

/-- The tags that bring a value from elsewhere. -/
def sourceTags : List String := ["!include", "!secret", "!env_var"]

/-- What stands for a node with such a tag. -/
def given (s : Sources) (load : Value → Except Error Value) (tag : String) (v : Value) :
    Except Error Value :=
  if tag = "!include" then load v
  else if tag = "!secret" then do return .text (← s.secrets.get (← scalar tag v))
  else do return .text (← s.fromEnvironment (← scalar tag v))

variable {s : Sources} {load : Value → Except Error Value}

theorem resolve_tagged (tag : String) (v : Value) :
    s.resolve load (.tagged tag v) =
      if tag ∈ sourceTags then s.given load tag v
      else do return .tagged tag (← s.resolve load v) := by
  by_cases htag : tag ∈ sourceTags
  · rw [if_pos htag]
    obtain rfl | rfl | rfl : tag = "!include" ∨ tag = "!secret" ∨ tag = "!env_var" := by
      simpa [sourceTags] using htag
    all_goals
      rw [resolve]
      rfl
  · rw [if_neg htag, resolve] <;> rintro rfl <;> exact htag (by decide)

theorem resolve_leaf {v : Value} (h : v.IsLeaf) : s.resolve load v = .ok v := by
  rw [resolve]
  · exact h.not_tagged
  · exact h.not_list
  · exact h.not_map

theorem resolve_list (items : List Value) :
    s.resolve load (.list items) = do return .list (← s.resolveItems load items) := by
  rw [resolve]

theorem resolve_map (entries : List (Value × Value)) :
    s.resolve load (.map entries) = do return .map (← s.resolveEntries load [] entries) := by
  rw [resolve]

/-! ### What fails -/

theorem resolveItems_append (a b : List Value) :
    s.resolveItems load (a ++ b) =
      do return (← s.resolveItems load a) ++ (← s.resolveItems load b) := by
  induction a with
  | nil => cases h : s.resolveItems load b <;> rw [List.nil_append, h] <;> rfl
  | cons v rest ih => simp [resolveItems, ih]

theorem resolveEntries_append (done a b : List (Value × Value)) :
    s.resolveEntries load done (a ++ b) =
      s.resolveEntries load done a >>= (s.resolveEntries load · b) := by
  induction a generalizing done with
  | nil => rfl
  | cons entry rest ih => simp [resolveEntries, ih]

/-- Items fail at the first one that does. -/
theorem resolveItems_eq_error {items : List Value} {e : Error} :
    s.resolveItems load items = .error e ↔ ∃ before v after done, items = before ++ v :: after ∧
      s.resolveItems load before = .ok done ∧ s.resolve load v = .error e := by
  constructor
  · intro h
    induction items with
    | nil => cases h
    | cons v rest ih =>
      rw [resolveItems] at h
      obtain hv | ⟨r, hv, h⟩ := bind_eq_error h
      · exact ⟨[], v, rest, [], rfl, rfl, hv⟩
      obtain h | ⟨_, -, h⟩ := bind_eq_error h
      · obtain ⟨before, w, after, done, rfl, hbefore, hw⟩ := ih h
        refine ⟨v :: before, w, after, r :: done, rfl, ?_, hw⟩
        rw [resolveItems, hv, hbefore]
        rfl
      · cases h
  · rintro ⟨before, v, after, done, rfl, hbefore, hv⟩
    rw [resolveItems_append, hbefore, resolveItems, hv]
    rfl

/-- Entries fail at the first key or value that does. -/
theorem resolveEntries_eq_error {done entries : List (Value × Value)} {e : Error} :
    s.resolveEntries load done entries = .error e ↔ ∃ before k v after done',
      entries = before ++ (k, v) :: after ∧ s.resolveEntries load done before = .ok done' ∧
        (s.resolve load k = .error e ∨
          ∃ key, s.resolve load k = .ok key ∧ s.resolve load v = .error e) := by
  constructor
  · intro h
    induction entries generalizing done with
    | nil => cases h
    | cons entry rest ih =>
      obtain ⟨k, v⟩ := entry
      rw [resolveEntries] at h
      obtain hk | ⟨key, hk, h⟩ := bind_eq_error h
      · exact ⟨[], k, v, rest, done, rfl, rfl, .inl hk⟩
      obtain hv | ⟨value, hv, h⟩ := bind_eq_error h
      · exact ⟨[], k, v, rest, done, rfl, rfl, .inr ⟨key, hk, hv⟩⟩
      obtain ⟨before, k', v', after, done', rfl, hbefore, hfails⟩ := ih h
      refine ⟨(k, v) :: before, k', v', after, done', rfl, ?_, hfails⟩
      rw [resolveEntries, hk, hv]
      exact hbefore
  · rintro ⟨before, k, v, after, done', rfl, hbefore, hfails⟩
    rw [resolveEntries_append, hbefore]
    change s.resolveEntries load done' ((k, v) :: after) = .error e
    rw [resolveEntries]
    obtain hk | ⟨key, hk, hv⟩ := hfails
    · rw [hk]
      rfl
    · rw [hk, hv]
      rfl

/-- Resolving a value comes to a node whose tag brings a value from elsewhere, and all that stands
before that node has been resolved. -/
inductive Comes (s : Sources) (load : Value → Except Error Value) :
    Value → String → Value → Prop
  | here {tag : String} {w : Value} (htag : tag ∈ sourceTags) : Comes s load (.tagged tag w) tag w
  | tagged {own tag : String} {v w : Value} (hown : own ∉ sourceTags) (h : Comes s load v tag w) :
      Comes s load (.tagged own v) tag w
  | item {before after done : List Value} {tag : String} {v w : Value}
      (hbefore : s.resolveItems load before = .ok done) (h : Comes s load v tag w) :
      Comes s load (.list (before ++ v :: after)) tag w
  | key {before after done : List (Value × Value)} {tag : String} {k v w : Value}
      (hbefore : s.resolveEntries load [] before = .ok done) (h : Comes s load k tag w) :
      Comes s load (.map (before ++ (k, v) :: after)) tag w
  | value {before after done : List (Value × Value)} {tag : String} {k key v w : Value}
      (hbefore : s.resolveEntries load [] before = .ok done) (hkey : s.resolve load k = .ok key)
      (h : Comes s load v tag w) :
      Comes s load (.map (before ++ (k, v) :: after)) tag w

/-- A node that resolving comes to makes it fail if nothing can stand for the node. -/
theorem Comes.fails {v w : Value} {tag : String} {e : Error} (h : Comes s load v tag w)
    (hgiven : s.given load tag w = .error e) : s.resolve load v = .error e := by
  induction h with
  | here htag => rw [resolve_tagged, if_pos htag, hgiven]
  | tagged hown _ ih =>
    rw [resolve_tagged, if_neg hown, ih hgiven]
    rfl
  | item hbefore _ ih =>
    rw [resolve_list, resolveItems_eq_error.mpr ⟨_, _, _, _, rfl, hbefore, ih hgiven⟩]
    rfl
  | key hbefore _ ih =>
    rw [resolve_map, resolveEntries_eq_error.mpr ⟨_, _, _, _, _, rfl, hbefore, .inl (ih hgiven)⟩]
    rfl
  | value hbefore hkey _ ih =>
    rw [resolve_map, resolveEntries_eq_error.mpr
      ⟨_, _, _, _, _, rfl, hbefore, .inr ⟨_, hkey, ih hgiven⟩⟩]
    rfl

/-- Resolving a value fails only at a node that it comes to, for which nothing can stand. -/
theorem exists_comes_of_error {v : Value} {e : Error} (h : s.resolve load v = .error e) :
    ∃ tag w, s.Comes load v tag w ∧ s.given load tag w = .error e := by
  induction v using Yaml.Value.induction_parts with
  | leaf v hv =>
    rw [resolve_leaf hv] at h
    cases h
  | tagged tag v ih =>
    rw [resolve_tagged] at h
    split at h
    · next htag => exact ⟨tag, v, .here htag, h⟩
    next hown =>
    obtain h | ⟨_, -, h⟩ := bind_eq_error h
    · obtain ⟨tag, w, hw, hgiven⟩ := ih h
      exact ⟨tag, w, .tagged hown hw, hgiven⟩
    · cases h
  | list items ih =>
    rw [resolve_list] at h
    obtain h | ⟨_, -, h⟩ := bind_eq_error h
    · obtain ⟨before, v, after, done, rfl, hbefore, hv⟩ := resolveItems_eq_error.mp h
      obtain ⟨tag, w, hw, hgiven⟩ := ih v (List.mem_append_right before List.mem_cons_self) hv
      exact ⟨tag, w, .item hbefore hw, hgiven⟩
    · cases h
  | map entries ih =>
    rw [resolve_map] at h
    obtain h | ⟨_, -, h⟩ := bind_eq_error h
    · obtain ⟨before, k, v, after, done, rfl, hbefore, hfails⟩ := resolveEntries_eq_error.mp h
      have ih := ih (k, v) (List.mem_append_right before List.mem_cons_self)
      obtain hk | ⟨key, hkey, hv⟩ := hfails
      · obtain ⟨tag, w, hw, hgiven⟩ := ih.1 hk
        exact ⟨tag, w, .key hbefore hw, hgiven⟩
      · obtain ⟨tag, w, hw, hgiven⟩ := ih.2 hv
        exact ⟨tag, w, .value hbefore hkey hw, hgiven⟩
    · cases h

theorem resolve_eq_error {v : Value} {e : Error} : s.resolve load v = .error e ↔
    ∃ tag w, s.Comes load v tag w ∧ s.given load tag w = .error e :=
  ⟨exists_comes_of_error, fun ⟨_, _, hw, hgiven⟩ => hw.fails hgiven⟩

/-! ### What is left -/

/-- No tag in a value brings one from elsewhere. -/
def Settled (v : Value) : Prop := ∀ tag ∈ v.tags, tag ∉ sourceTags

theorem given_settled (hload : ∀ w r, load w = .ok r → Settled r) {tag : String} {w r : Value}
    (h : s.given load tag w = .ok r) : Settled r := by
  rw [given] at h
  split at h
  · exact hload w r h
  split at h
  all_goals
    obtain ⟨_, -, h⟩ := exists_of_bind_eq_ok h
    obtain ⟨_, -, h⟩ := exists_of_bind_eq_ok h
    cases h
    rintro tag ⟨⟩

theorem resolveItems_settled {items done : List Value}
    (hparts : ∀ v ∈ items, ∀ r, s.resolve load v = .ok r → Settled r)
    (h : s.resolveItems load items = .ok done) : ∀ r ∈ done, Settled r := by
  induction items generalizing done with
  | nil =>
    cases h
    exact nofun
  | cons v rest ih =>
    rw [resolveItems] at h
    obtain ⟨r, hr, h⟩ := exists_of_bind_eq_ok h
    obtain ⟨rs, hrs, h⟩ := exists_of_bind_eq_ok h
    cases h
    rintro r' (_ | ⟨_, hr'⟩)
    · exact hparts v List.mem_cons_self r hr
    · exact ih (fun w hw => hparts w (List.mem_cons_of_mem v hw)) hrs r' hr'

theorem resolveEntries_settled {done entries all : List (Value × Value)}
    (hdone : ∀ tag ∈ Yaml.Value.tagsOfEntries done, tag ∉ sourceTags)
    (hparts : ∀ entry ∈ entries, (∀ r, s.resolve load entry.1 = .ok r → Settled r) ∧
      ∀ r, s.resolve load entry.2 = .ok r → Settled r)
    (h : s.resolveEntries load done entries = .ok all) :
    ∀ tag ∈ Yaml.Value.tagsOfEntries all, tag ∉ sourceTags := by
  induction entries generalizing done with
  | nil =>
    cases h
    exact hdone
  | cons entry rest ih =>
    obtain ⟨k, v⟩ := entry
    rw [resolveEntries] at h
    obtain ⟨key, hkey, h⟩ := exists_of_bind_eq_ok h
    obtain ⟨value, hvalue, h⟩ := exists_of_bind_eq_ok h
    obtain ⟨hk, hv⟩ := hparts (k, v) List.mem_cons_self
    refine ih ?_ (fun entry hentry => hparts entry (List.mem_cons_of_mem _ hentry)) h
    intro tag htag
    obtain htag | htag | htag := Yaml.Value.mem_tagsOfEntries_insert htag
    · exact hk key hkey tag htag
    · exact hv value hvalue tag htag
    · exact hdone tag htag

/-- In a value that was resolved, no tag brings a value from elsewhere, if that holds of what was
loaded. -/
theorem resolve_settled (hload : ∀ w r, load w = .ok r → Settled r) {v r : Value}
    (h : s.resolve load v = .ok r) : Settled r := by
  induction v using Yaml.Value.induction_parts generalizing r with
  | leaf v hv =>
    rw [resolve_leaf hv] at h
    cases h
    intro tag htag
    rw [Yaml.Value.tags_of_isLeaf hv] at htag
    cases htag
  | tagged tag v ih =>
    rw [resolve_tagged] at h
    split at h
    · exact given_settled hload h
    next hown =>
    obtain ⟨w, hw, h⟩ := exists_of_bind_eq_ok h
    cases h
    rintro t (_ | ⟨_, ht⟩)
    · exact hown
    · exact ih hw t ht
  | list items ih =>
    rw [resolve_list] at h
    obtain ⟨done, hdone, h⟩ := exists_of_bind_eq_ok h
    cases h
    intro tag htag
    obtain ⟨w, hw, htag⟩ := Yaml.Value.mem_tagsOfItems.mp htag
    exact resolveItems_settled (fun v hv r hr => ih v hv hr) hdone w hw tag htag
  | map entries ih =>
    rw [resolve_map] at h
    obtain ⟨done, hdone, h⟩ := exists_of_bind_eq_ok h
    cases h
    exact resolveEntries_settled (by simp [Yaml.Value.tagsOfEntries])
      (fun entry hentry => ⟨fun _ hr => (ih entry hentry).1 hr, fun _ hr => (ih entry hentry).2 hr⟩)
      hdone

end Settings.Sources

end Hearth
