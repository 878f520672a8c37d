import Hearth.Proofs.Json.Layout
import Hearth.Proofs.Store.Records
import Hearth.Proofs.Timestamp

/-!
# The document of a store

A store writes all of its records to one document. A token is a number, a string or an array there,
so that a number, a text of digits and a name of one word stay apart. What is read of the document
is the records again, as long as tokens are not nested deeper than the reader of documents allows
and times lie in the years that can be read.

## Main definitions

* `Token.depth` : how deep names are nested in a token.
* `Store.Storable` : the records that can be read back.

## Main results

* `Token.ofJson?_toJson` : the form of a token in a document.
* `Store.ofDocument?_document` : the document of a store.
-/

namespace Hearth

/-! ### Tokens -/

namespace Token

mutual

/-- How deep names are nested in a token. -/
def depth : Token → Nat
  | .int _ | .text _ => 0
  | .sub words => depthList words + 1

/-- How deep names are nested in the tokens of a name. -/
def depthList : List Token → Nat
  | [] => 0
  | t :: ts => max t.depth (depthList ts)

end

mutual

/-- A token is read as it is written. -/
theorem ofJson?_toJson : ∀ t : Token, ofJson? t.toJson = some t
  | .int n => by rw [toJson, ofJson?, Decimal.toInt64?_toInt, Option.map_some]
  | .text s => by rw [toJson, ofJson?]
  | .sub words => by rw [toJson, ofJson?, listOfJson?_listToJson words, Option.map_some]

/-- A name is read as it is written. -/
theorem listOfJson?_listToJson : ∀ ts : List Token, listOfJson? (listToJson ts) = some ts
  | [] => rfl
  | t :: ts => by
    rw [listToJson, listOfJson?, ofJson?_toJson t, listOfJson?_listToJson ts]
    rfl

end

mutual

/-- The form of a token nests as many brackets as the token does. -/
theorem fits_toJson : ∀ {t : Token} {depth : Nat}, t.depth ≤ depth → Json.Fits depth t.toJson
  | .int n, d, _ => by
    rw [toJson]
    exact .int d n.minValue_le_toInt (Int.lt_trans n.toInt_lt (by decide))
  | .text s, d, _ => by
    rw [toJson]
    exact .str d s
  | .sub words, 0, h => absurd h (by simp [depth])
  | .sub words, d + 1, h => by
    rw [toJson]
    exact .arr (fits_listToJson (by rw [depth] at h; omega))

theorem fits_listToJson : ∀ {ts : List Token} {depth : Nat}, depthList ts ≤ depth →
    ∀ v ∈ listToJson ts, Json.Fits depth v
  | [], _, _ => by simp [listToJson]
  | t :: ts, d, h => by
    rw [depthList, Nat.max_le] at h
    rw [listToJson]
    rintro v (_ | ⟨_, hv⟩)
    · exact fits_toJson h.1
    · exact fits_listToJson h.2 v hv

end

end Token

/-! ### Records -/

namespace Store

/-- The brackets that are left for the tokens of a record inside of the document. -/
def maxNesting : Nat := Json.maxDepth - 3

/-- A record that can be read back. -/
structure Storable (entry : (String × Name) × Record) : Prop where
  name : (Token.sub entry.1.2).depth ≤ maxNesting
  value : entry.2.value.depth ≤ maxNesting
  changed : entry.2.changed.InRange

variable {entry : (String × Name) × Record}

/-- A record is read as it is written. -/
theorem entryOfDocument?_entryDocument (h : entry.2.changed.InRange) :
    entryOfDocument? (entryDocument entry) = some entry := by
  obtain ⟨⟨category, name⟩, value, changed⟩ := entry
  have hfields : fields? ["category", "name", "value", "changed"]
      (entryDocument ((category, name), ⟨value, changed⟩)) =
      some [.str category, name.toJson, value.toJson, .str changed.stored] := rfl
  rw [entryOfDocument?, hfields]
  simp [Name.toJson, Name.ofJson?, Token.listOfJson?_listToJson, Token.ofJson?_toJson,
    Timestamp.ofText?_stored h]

theorem Storable.fits (h : Storable entry) : Json.Fits (maxNesting + 1) (entryDocument entry) := by
  obtain ⟨⟨category, name⟩, value, changed⟩ := entry
  refine .obj ?_
  rintro field (_ | ⟨_, _ | ⟨_, _ | ⟨_, _ | ⟨_, ⟨⟩⟩⟩⟩⟩)
  · exact .str _ category
  · exact Token.fits_toJson (t := .sub name) h.name
  · exact Token.fits_toJson h.value
  · exact .str _ changed.stored

theorem mapM_entryOfDocument? {entries : List ((String × Name) × Record)}
    (h : ∀ entry ∈ entries, entry.2.changed.InRange) :
    (entries.map entryDocument).mapM entryOfDocument? = some entries := by
  induction entries with
  | nil => rfl
  | cons entry entries ih =>
    rw [List.map_cons, List.mapM_cons, entryOfDocument?_entryDocument (h entry List.mem_cons_self),
      ih fun e he => h e (List.mem_cons_of_mem entry he)]
    rfl

/-- The records of a document that is written are those of the store. -/
theorem ofDocument?_document {s : Store} (hs : Ascending s.records)
    (hstorable : ∀ entry ∈ s.records, Storable entry) :
    ofDocument? s.document = some s.records := by
  have hfits :
      Json.Fits Json.maxDepth (.obj [("entries", .arr (s.records.map entryDocument))]) := by
    refine .obj ?_
    rintro field (_ | ⟨_, ⟨⟩⟩)
    refine .arr fun v hv => ?_
    obtain ⟨entry, hentry, rfl⟩ := List.mem_map.mp hv
    exact (hstorable entry hentry).fits
  have hentries : (s.records.map entryDocument).mapM entryOfDocument? = some s.records :=
    mapM_entryOfDocument? fun entry hentry => (hstorable entry hentry).changed
  have hfields : fields? ["entries"] (.obj [("entries", .arr (s.records.map entryDocument))]) =
      some [.arr (s.records.map entryDocument)] := rfl
  rw [ofDocument?, document, Json.readRaw_pretty hfits, Option.bind_eq_bind, Option.bind_some,
    hfields, Option.bind_eq_bind, Option.bind_some]
  dsimp only
  rw [hentries, Option.bind_eq_bind, Option.bind_some]
  exact congrArg some hs.foldl_insertRecord

theorem ascending_foldl (entries : List ((String × Name) × Record))
    {records : List ((String × Name) × Record)} (h : Ascending records) :
    Ascending (entries.foldl (fun acc x => insertRecord x.1 x.2 acc) records) := by
  induction entries generalizing records with
  | nil => exact h
  | cons entry entries ih => exact ih (h.insertRecord entry.1 entry.2)

/-- The records of a document are in order, whatever their order there. -/
theorem ascending_of_ofDocument? {text : String} {records : List ((String × Name) × Record)}
    (h : ofDocument? text = some records) : Ascending records := by
  simp only [ofDocument?, Option.bind_eq_bind, Option.bind_eq_some_iff] at h
  obtain ⟨v, -, fields, -, h⟩ := h
  split at h
  · obtain ⟨entries, -, h⟩ := Option.bind_eq_some_iff.mp h
    obtain rfl := Option.some.inj h
    exact ascending_foldl entries .nil
  · cases h

end Store

end Hearth
