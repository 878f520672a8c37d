import Hearth.Proofs.Json.Scalars
import Mathlib.Data.List.DropRight

/-!
# Documents over several lines

A value that is written over several lines is read as it was written, if its brackets do not nest
deeper than the reader allows and its numbers are whole and of 64 bits.

## Main definitions

* `Json.Fits` : the values within the limits of the reader.

## Main results

* `Json.Fits.readValue_indented` : a value inside of a document.
* `Json.readRaw_pretty` : a whole document.
-/

namespace Hearth.Json

/-- Brackets nest at most so deep, and every number is whole and of 64 bits. -/
inductive Fits : Nat → Json → Prop
  | null (depth : Nat) : Fits depth .null
  | bool (depth : Nat) (b : Bool) : Fits depth (.bool b)
  | int (depth : Nat) {n : Int} (hlow : Int64.minValue.toInt ≤ n) (hhigh : n < UInt64.size) :
    Fits depth (.int n)
  | str (depth : Nat) (s : String) : Fits depth (.str s)
  | arr {depth : Nat} {items : List Json} (h : ∀ x ∈ items, Fits depth x) :
    Fits (depth + 1) (.arr items)
  | obj {depth : Nat} {fields : List (String × Json)} (h : ∀ f ∈ fields, Fits depth f.2) :
    Fits (depth + 1) (.obj fields)

/-! ### The equations of printing and reading -/

alias readValue_succ := readValue.eq_2

alias indented_arr_nil := indented.eq_1

alias indented_arr := indented.eq_2

alias indented_obj_nil := indented.eq_3

alias indented_obj := indented.eq_4

alias indented_null := indented.eq_5

alias indented_true := indented.eq_6

alias indented_false := indented.eq_7

/-! ### Blanks -/

theorem skipBlanks_append {blanks : List Char} (hblanks : ∀ c ∈ blanks, isBlank c)
    (cs : List Char) : skipBlanks (blanks ++ cs) = skipBlanks cs :=
  List.dropWhile_append_of_pos hblanks

theorem skipBlanks_cons {c : Char} (hc : isBlank c = false) (cs : List Char) :
    skipBlanks (c :: cs) = c :: cs :=
  List.dropWhile_cons_of_neg (Bool.eq_false_iff.mp hc)

theorem skipBlanks_skipBlanks (cs : List Char) : skipBlanks (skipBlanks cs) = skipBlanks cs :=
  List.dropWhile_idempotent _ cs

theorem isBlank_of_mem_newline {level : Nat} {c : Char} (hc : c ∈ (newline level).toList) :
    isBlank c := by
  have hfeed : "\n".toList = ['\n'] := rfl
  simp only [newline, String.toList_append, hfeed, String.toList_ofList, List.mem_append,
    List.mem_singleton, List.mem_replicate] at hc
  obtain rfl | ⟨-, rfl⟩ := hc <;> rfl

theorem skipBlanks_newline_append (level : Nat) (cs : List Char) :
    skipBlanks ((newline level).toList ++ cs) = skipBlanks cs :=
  skipBlanks_append (fun _ hc => isBlank_of_mem_newline hc) cs

theorem length_newline_pos (level : Nat) : 0 < (newline level).toList.length := by
  rw [newline, String.toList_append, List.length_append]
  exact Nat.add_pos_left (by decide) _

theorem EndsNumber.newline_append (level : Nat) (cs : List Char) :
    EndsNumber ((newline level).toList ++ cs) := by
  rw [newline, String.toList_append, List.append_assoc]
  exact .cons (by decide) (by decide) (by decide) (by decide)

/-- Blanks in front of a value do not count. -/
theorem readValue_congr {cs ds : List Char} (h : skipBlanks cs = skipBlanks ds)
    (depth fuel : Nat) : readValue depth fuel cs = readValue depth fuel ds := by
  cases fuel with
  | zero => rw [readValue, readValue]
  | succ fuel => rw [readValue_succ, readValue_succ, h]

/-! ### The kinds of values -/

section Values

variable {depth fuel level : Nat} {rest : List Char}

theorem isBlank_of_isDigit {c : Char} (hc : c.isDigit) : isBlank c = false := by
  simp only [isBlank, Bool.or_eq_false_iff, beq_eq_false_iff_ne, ne_eq]
  refine ⟨⟨⟨?_, ?_⟩, ?_⟩, ?_⟩ <;> rintro rfl <;> exact absurd hc (by decide)

theorem readValue_digits {n : Nat} (hn : n < UInt64.size) (hrest : EndsNumber rest) :
    readValue depth (fuel + 1) (Nat.toDigits 10 n ++ rest) = some (.int n, rest) := by
  obtain ⟨d, ds, hds⟩ := List.exists_cons_of_ne_nil (Nat.toDigits_ne_nil (b := 10) (n := n))
  have hd : d.isDigit := Decimal.isDigit_of_mem_toDigits (hds ▸ List.mem_cons_self)
  have hread := readNumber_natural hn hrest
  rw [hds, List.cons_append] at hread ⊢
  rw [readValue_succ, skipBlanks_cons (isBlank_of_isDigit hd)]
  -- No other kind of value starts with a digit.
  split
  case h_8 => exact hread
  all_goals
    rename_i heq
    obtain ⟨rfl, -⟩ := List.cons.inj heq
    exact absurd hd (by decide)

theorem readValue_int {n : Int} (hlow : Int64.minValue.toInt ≤ n) (hhigh : n < UInt64.size)
    (hrest : EndsNumber rest) :
    readValue depth (fuel + 1) ((toString n).toList ++ rest) = some (.int n, rest) := by
  rw [Decimal.toList_toString]
  by_cases hn : n < 0
  · have hsize : -(n.natAbs : Int) = n := by omega
    have hread := readNumber_negative (n := n.natAbs) (by omega) (by rwa [hsize]) hrest
    rw [if_pos hn, List.append_assoc, List.singleton_append, readValue_succ,
      skipBlanks_cons (by decide)]
    rw [hsize] at hread
    exact hread
  · have hsize : (n.natAbs : Int) = n := by omega
    rw [if_neg hn, List.nil_append, readValue_digits (by omega) hrest, hsize]

theorem readValue_str (s : String) :
    readValue depth (fuel + 1) ((quote s).toList ++ rest) = some (.str s, rest) := by
  obtain ⟨inner, hinner, hread⟩ := readString_quote s rest
  rw [hinner, readValue_succ, skipBlanks_cons (by decide)]
  change Option.map _ (readString [] (inner.length + 1) inner) = _
  rw [hread]
  rfl

end Values

/-! ### Lists of values -/

/-- The characters of a value inside of a document. -/
def chars (level : Nat) (v : Json) : List Char := (indented level v).toList

/-- A value is read as it is written, at every level. -/
def ReadBack (depth : Nat) (v : Json) : Prop :=
  ∀ level fuel rest, EndsNumber rest → (chars level v).length ≤ fuel →
    readValue depth fuel (chars level v ++ rest) = some (v, rest)

/-- A value after blanks is read before whatever may follow a number. -/
theorem ReadBack.append {depth : Nat} {v : Json} (hv : ReadBack depth v) {blanks : List Char}
    (hblanks : ∀ c ∈ blanks, isBlank c) {level fuel : Nat} {rest : List Char}
    (hrest : EndsNumber rest) (hfuel : (chars level v).length ≤ fuel) :
    readValue depth fuel (blanks ++ (chars level v ++ rest)) = some (v, rest) := by
  rw [readValue_congr (skipBlanks_append hblanks _), hv level fuel rest hrest hfuel]

section Lists

variable {depth level below : Nat}

theorem toList_indentedItems_singleton (level : Nat) (x : Json) :
    (indentedItems level [x]).toList = (newline level).toList ++ chars level x := by
  rw [indentedItems, String.toList_append, chars]

theorem toList_indentedItems_cons (level : Nat) (x y : Json) (items : List Json) :
    (indentedItems level (x :: y :: items)).toList = (newline level).toList ++
      (chars level x ++ ',' :: (indentedItems level (y :: items)).toList) := by
  rw [indentedItems]
  · simp [String.toList_append, chars]
  · simp

/-- The items of an array are read up to its bracket. -/
theorem readItems_indented {items : List Json} (hne : items ≠ [])
    (hitems : ∀ x ∈ items, ReadBack depth x) (before : List Json) (fuel : Nat)
    (hfuel : (indentedItems level items).toList.length ≤ fuel) (rest : List Char) :
    readItems depth before fuel ((indentedItems level items).toList ++
      ((newline below).toList ++ ']' :: rest)) = some (.arr (before.reverse ++ items), rest) := by
  have hline := length_newline_pos level
  have hblank (c : Char) (hc : c ∈ (newline level).toList) := isBlank_of_mem_newline hc
  induction items generalizing before fuel with
  | nil => exact absurd rfl hne
  | cons x items ih =>
    have hx := hitems x List.mem_cons_self
    cases items with
    | nil =>
      rw [toList_indentedItems_singleton, List.length_append] at hfuel
      obtain ⟨fuel, rfl⟩ := Nat.exists_eq_succ_of_ne_zero (n := fuel) (by omega)
      rw [toList_indentedItems_singleton, List.append_assoc, readItems,
        hx.append hblank (.newline_append below _) (by omega), Option.bind_eq_bind,
        Option.bind_some]
      simp only [skipBlanks_newline_append, skipBlanks_cons (c := ']') rfl, List.reverse_cons]
    | cons y items =>
      rw [toList_indentedItems_cons, List.length_append, List.length_append,
        List.length_cons] at hfuel
      obtain ⟨fuel, rfl⟩ := Nat.exists_eq_succ_of_ne_zero (n := fuel) (by omega)
      have hy := ih (List.cons_ne_nil y items)
        (fun z hz => hitems z (List.mem_cons_of_mem x hz)) (x :: before) fuel (by omega)
      rw [toList_indentedItems_cons, List.append_assoc, List.append_assoc, List.cons_append,
        readItems, hx.append hblank (.cons rfl (by decide) (by decide) (by decide)) (by omega),
        Option.bind_eq_bind, Option.bind_some]
      simp only [skipBlanks_cons (c := ',') rfl, hy, List.reverse_cons, List.append_assoc,
        List.singleton_append]

theorem toList_indentedFields_singleton (level : Nat) (key : String) (v : Json) :
    (indentedFields level [(key, v)]).toList =
      (newline level).toList ++ ((quote key).toList ++ ':' :: ' ' :: chars level v) := by
  rw [indentedFields]
  simp [String.toList_append, chars]

theorem toList_indentedFields_cons (level : Nat) (key : String) (v : Json)
    (next : String × Json) (fields : List (String × Json)) :
    (indentedFields level ((key, v) :: next :: fields)).toList =
      (newline level).toList ++ ((quote key).toList ++ ':' :: ' ' :: (chars level v ++
        ',' :: (indentedFields level (next :: fields)).toList)) := by
  rw [indentedFields]
  · simp [String.toList_append, chars]
  · simp

/-- A field is read up to what stands after its value. -/
theorem readFields_field {v : Json} (hv : ReadBack depth v) (key : String)
    (before : List (String × Json)) {fuel : Nat} (hfuel : (chars level v).length ≤ fuel)
    {rest : List Char} (hrest : EndsNumber rest) :
    readFields depth before (fuel + 1) ((newline level).toList ++ ((quote key).toList ++
      ':' :: ' ' :: (chars level v ++ rest))) =
      match skipBlanks rest with
      | '\x7d' :: rest => some (.obj ((key, v) :: before).reverse, rest)
      | ',' :: rest => readFields depth ((key, v) :: before) fuel rest
      | _ => none := by
  obtain ⟨inner, hinner, hread⟩ := readString_quote key
    (':' :: ' ' :: (chars level v ++ rest))
  have hvalue : readValue depth fuel (' ' :: (chars level v ++ rest)) = some (v, rest) := by
    rw [← hv level fuel rest hrest hfuel]
    exact readValue_congr (List.dropWhile_cons_of_pos rfl) depth fuel
  rw [readFields, skipBlanks_newline_append, hinner, skipBlanks_cons rfl]
  simp only [hread, Option.bind_eq_bind, Option.bind_some, skipBlanks_cons (c := ':') rfl, hvalue]
    <;> rfl

/-- The fields of an object are read up to its brace. -/
theorem readFields_indented {fields : List (String × Json)} (hne : fields ≠ [])
    (hfields : ∀ f ∈ fields, ReadBack depth f.2) (before : List (String × Json)) (fuel : Nat)
    (hfuel : (indentedFields level fields).toList.length ≤ fuel) (rest : List Char) :
    readFields depth before fuel ((indentedFields level fields).toList ++
      ((newline below).toList ++ '\x7d' :: rest)) =
      some (.obj (before.reverse ++ fields), rest) := by
  have hline := length_newline_pos level
  induction fields generalizing before fuel with
  | nil => exact absurd rfl hne
  | cons field fields ih =>
    obtain ⟨key, v⟩ := field
    have hv : ReadBack depth v := hfields (key, v) List.mem_cons_self
    cases fields with
    | nil =>
      rw [toList_indentedFields_singleton] at hfuel ⊢
      simp only [List.length_append, List.length_cons] at hfuel
      obtain ⟨fuel, rfl⟩ := Nat.exists_eq_succ_of_ne_zero (n := fuel) (by omega)
      simp only [List.append_assoc, List.cons_append]
      rw [readFields_field hv key before (by omega) (.newline_append below _)]
      simp only [skipBlanks_newline_append, skipBlanks_cons (c := '\x7d') rfl, List.reverse_cons]
    | cons next fields =>
      rw [toList_indentedFields_cons] at hfuel ⊢
      simp only [List.length_append, List.length_cons] at hfuel
      obtain ⟨fuel, rfl⟩ := Nat.exists_eq_succ_of_ne_zero (n := fuel) (by omega)
      have hnext := ih (List.cons_ne_nil next fields)
        (fun z hz => hfields z (List.mem_cons_of_mem _ hz)) ((key, v) :: before) fuel
        (by omega)
      simp only [List.append_assoc, List.cons_append]
      rw [readFields_field hv key before (by omega) (.cons rfl (by decide) (by decide) (by decide))]
      simp only [skipBlanks_cons (c := ',') rfl, hnext, List.reverse_cons, List.append_assoc,
        List.singleton_append]

end Lists

/-! ### Whole documents -/

theorem chars_null (level : Nat) : chars level .null = ['n', 'u', 'l', 'l'] := by
  rw [chars, indented_null]
  rfl

theorem chars_true (level : Nat) : chars level (.bool true) = ['t', 'r', 'u', 'e'] := by
  rw [chars, indented_true]
  rfl

theorem chars_false (level : Nat) : chars level (.bool false) = ['f', 'a', 'l', 's', 'e'] := by
  rw [chars, indented_false]
  rfl

theorem chars_arr_nil (level : Nat) : chars level (.arr []) = ['[', ']'] := by
  rw [chars, indented_arr_nil]
  rfl

theorem chars_obj_nil (level : Nat) : chars level (.obj []) = ['\x7b', '\x7d'] := by
  rw [chars, indented_obj_nil]
  rfl

theorem chars_arr {items : List Json} (hne : items ≠ []) (level : Nat) :
    chars level (.arr items) =
      '[' :: ((indentedItems (level + 1) items).toList ++ ((newline level).toList ++ [']'])) := by
  rw [chars, indented_arr _ _ hne]
  simp [String.toList_append]

theorem chars_obj {fields : List (String × Json)} (hne : fields ≠ []) (level : Nat) :
    chars level (.obj fields) = '\x7b' ::
      ((indentedFields (level + 1) fields).toList ++ ((newline level).toList ++ ['\x7d'])) := by
  rw [chars, indented_obj _ _ hne]
  simp [String.toList_append]

/-- The text of a value starts with a character that is neither a blank nor a closing bracket. -/
theorem exists_chars_eq_cons {depth : Nat} {v : Json} (hv : Fits depth v) (level : Nat) :
    ∃ c cs, chars level v = c :: cs ∧ isBlank c = false ∧ c ≠ ']' := by
  cases hv with
  | null => exact ⟨'n', _, chars_null level, rfl, by decide⟩
  | bool depth b =>
    cases b with
    | true => exact ⟨'t', _, chars_true level, rfl, by decide⟩
    | false => exact ⟨'f', _, chars_false level, rfl, by decide⟩
  | @int depth n hlow hhigh =>
    rw [chars, indented, Decimal.toList_toString]
    split
    · exact ⟨'-', _, rfl, rfl, by decide⟩
    · obtain ⟨d, ds, hds⟩ := List.exists_cons_of_ne_nil
        (Nat.toDigits_ne_nil (b := 10) (n := n.natAbs))
      have hd : d.isDigit := Decimal.isDigit_of_mem_toDigits (hds ▸ List.mem_cons_self)
      refine ⟨d, ds, hds, isBlank_of_isDigit hd, ?_⟩
      rintro rfl
      exact absurd hd (by decide)
  | str depth s =>
    rw [chars, indented, toList_quote]
    exact ⟨'"', _, rfl, rfl, by decide⟩
  | @arr depth items h =>
    by_cases hne : items = []
    · subst hne
      exact ⟨'[', _, chars_arr_nil level, rfl, by decide⟩
    · exact ⟨'[', _, chars_arr hne level, rfl, by decide⟩
  | @obj depth fields h =>
    by_cases hne : fields = []
    · subst hne
      exact ⟨'\x7b', _, chars_obj_nil level, rfl, by decide⟩
    · exact ⟨'\x7b', _, chars_obj hne level, rfl, by decide⟩

theorem readValue_bracket (depth fuel : Nat) (inner : List Char) :
    readValue (depth + 1) (fuel + 1) ('[' :: inner) =
      match skipBlanks inner with
      | ']' :: rest => some (.arr [], rest)
      | rest => readItems depth [] fuel rest := by
  rw [readValue_succ, skipBlanks_cons rfl]
  rfl

theorem readValue_brace (depth fuel : Nat) (inner : List Char) :
    readValue (depth + 1) (fuel + 1) ('\x7b' :: inner) =
      match skipBlanks inner with
      | '\x7d' :: rest => some (.obj [], rest)
      | rest => readFields depth [] fuel rest := by
  rw [readValue_succ, skipBlanks_cons rfl]
  rfl

/-- After its bracket an array that is not empty is read item by item. -/
theorem readValue_arr {depth fuel : Nat} {inner : List Char} {c : Char} {cs : List Char}
    (hinner : skipBlanks inner = c :: cs) (hc : c ≠ ']') :
    readValue (depth + 1) (fuel + 1) ('[' :: inner) = readItems depth [] fuel inner := by
  have hskip : skipBlanks (c :: cs) = skipBlanks inner := by
    rw [← hinner, skipBlanks_skipBlanks]
  have hcongr : readItems depth [] fuel (c :: cs) = readItems depth [] fuel inner := by
    cases fuel with
    | zero => rw [readItems, readItems]
    | succ fuel => rw [readItems, readItems, readValue_congr hskip]
  rw [← hcongr, readValue_bracket, hinner]
  split
  · next heq => exact absurd (List.cons.inj heq).1 hc
  · rfl

/-- After its brace an object that is not empty is read field by field. -/
theorem readValue_obj {depth fuel : Nat} {inner : List Char} {cs : List Char}
    (hinner : skipBlanks inner = '"' :: cs) :
    readValue (depth + 1) (fuel + 1) ('\x7b' :: inner) = readFields depth [] fuel inner := by
  have hcongr : readFields depth [] fuel ('"' :: cs) = readFields depth [] fuel inner := by
    cases fuel with
    | zero => rw [readFields, readFields]
    | succ fuel => rw [readFields, readFields, ← hinner, skipBlanks_skipBlanks]
  rw [← hcongr, readValue_brace, hinner]
  rfl

/-- The first item of an array stands behind blanks, and does not look like the end. -/
theorem skipBlanks_indentedItems {depth : Nat} {x : Json} (hx : Fits depth x) (items : List Json)
    (level : Nat) (rest : List Char) : ∃ c cs,
      skipBlanks ((indentedItems level (x :: items)).toList ++ rest) = c :: cs ∧ c ≠ ']' := by
  obtain ⟨c, cs, hcs, hblank, hc⟩ := exists_chars_eq_cons hx level
  obtain ⟨more, hmore⟩ : ∃ more, (indentedItems level (x :: items)).toList =
      (newline level).toList ++ c :: more := by
    cases items with
    | nil => exact ⟨cs, by rw [toList_indentedItems_singleton, hcs]⟩
    | cons y items => exact ⟨_, by rw [toList_indentedItems_cons, hcs, List.cons_append]⟩
  refine ⟨c, more ++ rest, ?_, hc⟩
  rw [hmore, List.append_assoc, skipBlanks_newline_append, List.cons_append, skipBlanks_cons hblank]

/-- The first key of an object stands behind blanks. -/
theorem skipBlanks_indentedFields (field : String × Json) (fields : List (String × Json))
    (level : Nat) (rest : List Char) : ∃ cs,
      skipBlanks ((indentedFields level (field :: fields)).toList ++ rest) = '"' :: cs := by
  obtain ⟨key, v⟩ := field
  obtain ⟨more, hmore⟩ : ∃ more, (indentedFields level ((key, v) :: fields)).toList =
      (newline level).toList ++ '"' :: more := by
    cases fields with
    | nil => exact ⟨_, by rw [toList_indentedFields_singleton, toList_quote, List.cons_append]⟩
    | cons _ _ => exact ⟨_, by rw [toList_indentedFields_cons, toList_quote, List.cons_append]⟩
  refine ⟨more ++ rest, ?_⟩
  rw [hmore, List.append_assoc, skipBlanks_newline_append, List.cons_append, skipBlanks_cons rfl]

theorem Fits.readBack_of_succ {depth : Nat} {v : Json} (hv : Fits depth v)
    (h : ∀ level fuel rest, EndsNumber rest → (chars level v).length ≤ fuel + 1 →
      readValue depth (fuel + 1) (chars level v ++ rest) = some (v, rest)) : ReadBack depth v := by
  intro level fuel rest hrest hfuel
  obtain ⟨c, cs, hcs, -, -⟩ := exists_chars_eq_cons hv level
  obtain ⟨fuel, rfl⟩ := Nat.exists_eq_succ_of_ne_zero (n := fuel) (by
    rw [hcs, List.length_cons] at hfuel
    omega)
  exact h level fuel rest hrest hfuel

/-- A value within the limits is read as it is written. -/
theorem Fits.readBack {depth : Nat} {v : Json} (hv : Fits depth v) : ReadBack depth v := by
  induction hv with
  | null depth =>
    refine (Fits.null depth).readBack_of_succ fun level fuel rest hrest hfuel => ?_
    rw [chars_null, readValue_succ]
    rfl
  | bool depth b =>
    refine (Fits.bool depth b).readBack_of_succ fun level fuel rest hrest hfuel => ?_
    cases b with
    | true =>
      rw [chars_true, readValue_succ]
      rfl
    | false =>
      rw [chars_false, readValue_succ]
      rfl
  | int depth hlow hhigh =>
    refine (Fits.int depth hlow hhigh).readBack_of_succ fun level fuel rest hrest hfuel => ?_
    rw [chars, indented, readValue_int hlow hhigh hrest]
  | str depth s =>
    refine (Fits.str depth s).readBack_of_succ fun level fuel rest hrest hfuel => ?_
    rw [chars, indented, readValue_str]
  | @arr depth items h ih =>
    refine (Fits.arr h).readBack_of_succ fun level fuel rest hrest hfuel => ?_
    cases items with
    | nil =>
      rw [chars_arr_nil, readValue_succ]
      rfl
    | cons x items =>
      have hne : x :: items ≠ [] := List.cons_ne_nil x items
      rw [chars_arr hne, List.length_cons, List.length_append] at hfuel
      rw [chars_arr hne, List.cons_append, List.append_assoc, List.append_assoc,
        List.singleton_append]
      obtain ⟨c, cs, hcs, hc⟩ := skipBlanks_indentedItems (h x List.mem_cons_self) items (level + 1)
        ((newline level).toList ++ ']' :: rest)
      rw [readValue_arr hcs hc, readItems_indented hne ih [] fuel (by omega)]
      rfl
  | @obj depth fields h ih =>
    refine (Fits.obj h).readBack_of_succ fun level fuel rest hrest hfuel => ?_
    cases fields with
    | nil =>
      rw [chars_obj_nil, readValue_succ]
      rfl
    | cons field fields =>
      have hne : field :: fields ≠ [] := List.cons_ne_nil field fields
      rw [chars_obj hne, List.length_cons, List.length_append] at hfuel
      rw [chars_obj hne, List.cons_append, List.append_assoc, List.append_assoc,
        List.singleton_append]
      obtain ⟨cs, hcs⟩ := skipBlanks_indentedFields field fields (level + 1)
        ((newline level).toList ++ '\x7d' :: rest)
      rw [readValue_obj hcs, readFields_indented hne ih [] fuel (by omega)]
      rfl

/-- A document within the limits is read as it is written. -/
theorem readRaw_pretty {v : Json} (hv : Fits maxDepth v) : readRaw v.pretty = some v := by
  have hread := hv.readBack 0 (2 * v.pretty.toList.length + 2) [] .nil (by
    rw [chars, pretty]
    omega)
  have hchars : v.pretty.toList = chars 0 v := rfl
  rw [List.append_nil, ← hchars] at hread
  simp only [readRaw, hread]
  rfl

end Hearth.Json
