import GraphBag.Proofs.Bag.Canonical
import GraphBag.Proofs.Json.Soundness

/-
  What a JSON text means as a value.  A text is read as the
  value that its tree stands for, which is finite and has its
  maps in order; and the text that is written for such a value
  is read as that value again.

  Main declarations:
    * `Value.Means`
    * `Value.means_ofJson`
    * `Value.parse_eq_ok_iff`
    * `Value.render_canonical`
-/

namespace GraphBag

namespace Value

------------------------------------------------------------
-- Nesting
------------------------------------------------------------

mutual

/- The number of lists and maps around the deepest part. -/
def nesting : Value → Nat
  | .list items => nestingItems items + 1
  | .map entries => nestingEntries entries + 1
  | _ => 0

/- The nesting of the deepest item. -/
def nestingItems : List Value → Nat
  | [] => 0
  | item :: rest => max item.nesting (nestingItems rest)

/- The nesting of the deepest value. -/
def nestingEntries : List (String × Value) → Nat
  | [] => 0
  | (_, value) :: rest => max value.nesting (nestingEntries rest)

end

mutual

/- A value and its JSON form are equally high. -/
theorem height_toJson : ∀ (v : Value), v.toJson.height = v.nesting
  | .null | .bool _ | .int _ | .float _ | .string _ => rfl
  | .list items => by
      rw [toJson, Json.height, nesting, itemsHeight_itemsToJson items]
  | .map entries => by
      rw [toJson, Json.height, nesting,
        fieldsHeight_entriesToJson entries]

theorem itemsHeight_itemsToJson :
    ∀ (items : List Value),
      Json.height.itemsHeight (itemsToJson items) = nestingItems items
  | [] => rfl
  | item :: rest => by
      rw [itemsToJson, Json.height.itemsHeight, nestingItems,
        height_toJson item, itemsHeight_itemsToJson rest]

theorem fieldsHeight_entriesToJson :
    ∀ (entries : List (String × Value)),
      Json.height.fieldsHeight (entriesToJson entries) =
        nestingEntries entries
  | [] => rfl
  | (_, value) :: rest => by
      rw [entriesToJson, Json.height.fieldsHeight, nestingEntries,
        height_toJson value, fieldsHeight_entriesToJson rest]

end

------------------------------------------------------------
-- Meaning of a Tree
------------------------------------------------------------

/-
  The value that a JSON tree stands for.  An integer outside the
  64 bits with a sign stands for the nearest floating-point
  number.  An object stands for the map of its keys, each with
  what its last field stands for.
-/
inductive Means : Json → Value → Prop where
  | null : Means (.scalar .null) .null
  | bool (b : Bool) : Means (.scalar (.bool b)) (.bool b)
  | int (n : Int64) : Means (.scalar (.int n.toInt)) (.int n)
  | wide
      {n : Int}
      {x : Binary64}
      (hWide : n < -2 ^ 63 ∨ 2 ^ 63 ≤ n)
      (hNearest : Binary64.ofDecimal? (n < 0) ⟨n.natAbs, 0⟩ = some x) :
      Means (.scalar (.int n)) (.float x)
  | float (x : Binary64) : Means (.scalar (.float x)) (.float x)
  | string (s : String) : Means (.scalar (.string s)) (.string s)
  | array
      {items : List Json}
      {values : List Value}
      (hLength : values.length = items.length)
      (hItems : ∀ pair ∈ items.zip values, Means pair.1 pair.2) :
      Means (.array items) (.list values)
  | object
      {fields : List (String × Json)}
      {entries : List (String × Value)}
      (hOrder : Entries.Increasing entries)
      (hKeys :
        ∀ key, key ∈ entries.map Prod.fst ↔ key ∈ fields.map Prod.fst)
      (hValues :
        ∀ key value j, (key, value) ∈ entries →
          fields.reverse.lookup key = some j → Means j value) :
      Means (.object fields) (.map entries)

/- A scalar that can be written stands for its value. -/
theorem means_ofScalar
    {s : Scalar}
    (h : s.Writable) :
    Means (.scalar s) (ofScalar s) := by
  cases s with
  | null => exact .null
  | bool b => exact .bool b
  | float x => exact .float x
  | string s => exact .string s
  | int n =>
      have hLow : Int64.minValue.toInt = -2 ^ 63 := by
        decide
      have hHigh : Int64.maxValue.toInt = 2 ^ 63 - 1 := by
        decide
      rw [Scalar.Writable, hLow] at h
      rw [ofScalar, hLow, hHigh]
      by_cases hFits : -2 ^ 63 ≤ n ∧ n ≤ 2 ^ 63 - 1
      · have hInt : (Int64.ofInt n).toInt = n :=
          Int64.toInt_ofInt_of_le hFits.1 (by omega)
        have hMeans := Means.int (Int64.ofInt n)
        rw [hInt] at hMeans
        rwa [if_pos hFits]
      · have hSmall : n.natAbs < UInt64.size := by
          simp only [UInt64.size] at h ⊢
          omega
        rcases Decimal.exists_nearest_whole hSmall with ⟨m, hm⟩
        have hNearest :
            Binary64.ofDecimal? (n < 0) ⟨n.natAbs, 0⟩ =
              some (.finite (n < 0) m) := by
          rw [Binary64.ofDecimal?, hm]
          rfl
        rw [if_neg hFits, floatOfInt, hNearest]
        exact .wide (by omega) hNearest

/- The entries of fields, one for each under its key. -/
theorem entriesOfJson_eq_map
    (fields : List (String × Json)) :
    entriesOfJson fields =
      fields.map fun field => (field.1, ofJson field.2) := by
  induction fields with
  | nil => rfl
  | cons field rest ih =>
      rcases field with ⟨key, j⟩
      simp [entriesOfJson, ih]

/- The entry of a key holds the value of its last field. -/
theorem eq_ofJson_of_mem_sorted
    {fields : List (String × Json)}
    {key : String}
    {value : Value}
    {j : Json}
    (hMem : (key, value) ∈ Entries.sorted (entriesOfJson fields))
    (hLast : fields.reverse.lookup key = some j) :
    value = ofJson j := by
  have hDistinct :=
    (Entries.increasing_sorted (entriesOfJson fields)).nodup
  rw [← Entries.lookup_eq_some_iff_mem hDistinct,
    Entries.lookup_sorted, entriesOfJson_eq_map,
    ← List.map_reverse] at hMem
  rcases List.lookup_eq_some_iff.mp hLast with
    ⟨after, before, hFields, hAfter⟩
  rw [hFields, List.map_append, List.map_cons, List.lookup_append]
    at hMem
  have hNone :
      (after.map fun field => (field.1, ofJson field.2)).lookup key =
        none := by
    rw [List.lookup_eq_none_iff, List.forall_mem_map]
    exact hAfter
  rw [hNone] at hMem
  simpa using hMem.symm

mutual

/- A tree that can be written stands for its value. -/
theorem means_ofJson : ∀ {j : Json}, j.Writable → Means j (ofJson j)
  | .scalar _, h => means_ofScalar h
  | .array items, h => by
      rcases means_itemsOfJson h with ⟨hLength, hItems⟩
      exact .array hLength hItems
  | .object fields, h => by
      refine .object (Entries.increasing_sorted _) ?_ ?_
      · intro key
        rw [Entries.mem_keys_sorted_iff, entriesOfJson_eq_map,
          List.map_map]
        rfl
      · intro key value j hMem hLast
        rw [eq_ofJson_of_mem_sorted hMem hLast]
        rcases List.lookup_eq_some_iff.mp hLast with
          ⟨after, before, hFields, _⟩
        have hField : (key, j) ∈ fields := by
          rw [← List.mem_reverse, hFields]
          simp
        exact means_of_mem_fields h (key, j) hField

theorem means_itemsOfJson :
    ∀ {items : List Json}, Json.WritableItems items →
      (itemsOfJson items).length = items.length ∧
        ∀ pair ∈ items.zip (itemsOfJson items), Means pair.1 pair.2
  | [], _ => by
      simp [itemsOfJson]
  | item :: rest, h => by
      have hFirst := means_ofJson h.1
      rcases means_itemsOfJson h.2 with ⟨hLength, hRest⟩
      rw [itemsOfJson, List.zip_cons_cons, List.forall_mem_cons]
      exact ⟨congrArg Nat.succ hLength, hFirst, hRest⟩

theorem means_of_mem_fields :
    ∀ {fields : List (String × Json)}, Json.WritableFields fields →
      ∀ field ∈ fields, Means field.2 (ofJson field.2)
  | [], _ => by
      simp
  | (_, _) :: _, h => by
      rw [List.forall_mem_cons]
      exact ⟨means_ofJson h.1, means_of_mem_fields h.2⟩

end

end Value

------------------------------------------------------------
-- Texts
------------------------------------------------------------

/- A tree that some text spells can be written. -/
theorem Json.writable_of_spelledBy
    {j : Json}
    {text : String}
    (h : j.SpelledBy text) :
    j.Writable := by
  have hParse := j.parse_tokens []
  rw [List.append_nil] at hParse
  have hWithin := Node.within_parse text
  rw [lex_of_spelledBy h, hParse] at hWithin
  exact (Node.within_strict? hWithin (strict?_toNode (Nat.le_refl _))).1

namespace Value

/- A text is read as the value of the tree it spells. -/
theorem parse_eq_ok_iff
    {text : String}
    {v : Value} :
    parse text = .ok v ↔
      ∃ j : Json, j.SpelledBy text ∧ j.height ≤ 127 ∧ v = ofJson j := by
  have hRun : parse text = (Reader.run Reader.json text).map ofJson := by
    unfold parse Reader.run read
    rcases Node.parse (Token.lex text.toList) with ⟨node, rest⟩
    dsimp only
    cases Reader.json 127 node with
    | error e => rfl
    | ok j =>
        cases rest with
        | nil => rfl
        | cons => rfl
  rw [hRun, map_eq_ok_iff]
  simp only [Reader.run_json_eq_ok_iff, and_assoc]

/- A value is read from its own text exactly when it fits. -/
theorem parse_render_iff_nesting
    {v : Value}
    (hOrdered : v.Ordered)
    (hFinite : v.Finite) :
    parse v.render = .ok v ↔ v.nesting ≤ 127 := by
  rw [parse, render, Reader.run_render read (writable_toJson hFinite),
    ← height_toJson]
  constructor
  · intro hRead
    exact needs_read v hRead
  · intro hRoom
    exact readsBack hOrdered 127 hRoom

/-
  The text written for a value is read as that value, of the
  same kind in every place, exactly when the value is nested at
  most 127 deep.  Every text that is read is read as what the
  one tree it spells stands for, a value that is finite and
  ordered and whose own text is read as the value again.
-/
theorem render_canonical :
    (∀ v : Value, v.Ordered → v.Finite →
      (parse v.render = .ok v ↔ v.nesting ≤ 127)) ∧
    ∀ (text : String) (v : Value), parse text = .ok v →
      v.Finite ∧ v.Ordered ∧
        (∃ j : Json, j.SpelledBy text ∧ Means j v) ∧
          parse v.render = .ok v := by
  refine ⟨fun v => parse_render_iff_nesting, ?_⟩
  intro text v hParse
  rcases parse_eq_ok_iff.mp hParse with ⟨j, hText, hHeight, rfl⟩
  have hWritable := Json.writable_of_spelledBy hText
  rcases finite_ofJson hWritable with ⟨hFinite, hNesting⟩
  have hOrdered := ordered_ofJson j
  refine ⟨hFinite, hOrdered, ⟨j, hText, means_ofJson hWritable⟩, ?_⟩
  rw [parse_render_iff_nesting hOrdered hFinite, ← height_toJson]
  exact Nat.le_trans hNesting hHeight

/- Both ends of the integers, a negative zero and escaped text. -/
def edgeValue : Value :=
  .map
    [("", .list [.int Int64.minValue, .int Int64.maxValue,
        .float (.finite true .zero)]),
     ("\"\\", .string "\x01\n\u00e9")]

/- A key that comes twice, and numbers that are not integers. -/
def repeatedText : String :=
  "\x7b\"k\":1,\"k\":[9223372036854775808,-0,1e2],\"a\":null\x7d"

/- What that text is read as. -/
def repeatedValue : Value :=
  .map
    [("a", .null),
     ("k", .list
        [.float (.finite false ⟨4503599627370496, 1085, by decide⟩),
         .float (.finite true .zero),
         .float (.finite false ⟨7036874417766400, 1028, by decide⟩)])]

theorem render_canonical_edges :
    (edgeValue.Ordered ∧ edgeValue.Finite ∧ edgeValue.nesting = 2 ∧
        parse edgeValue.render = .ok edgeValue) ∧
      (parse repeatedText = .ok repeatedValue ∧ repeatedValue.Finite ∧
        parse repeatedValue.render = .ok repeatedValue) := by
  rcases render_canonical with ⟨hWrite, hRead⟩
  constructor
  · have hKeys : ["", "\"\\"].Pairwise (· < ·) := by
      decide +kernel
    have hOrdered : edgeValue.Ordered := by
      refine ⟨hKeys, ?_⟩
      simp [Ordered, OrderedItems, OrderedEntries]
    have hFinite : edgeValue.Finite := by
      decide
    have hNesting : edgeValue.nesting ≤ 127 := by
      decide
    exact ⟨hOrdered, hFinite, rfl,
      (hWrite edgeValue hOrdered hFinite).mpr hNesting⟩
  · have hParse : parse repeatedText = .ok repeatedValue := by
      decide +kernel
    rcases hRead repeatedText repeatedValue hParse with
      ⟨hFinite, _, _, hBack⟩
    exact ⟨hParse, hFinite, hBack⟩

end Value

end GraphBag
