import GraphBag.Proofs.Response.Replies

/-
  The order of a row.  Whatever order the keys of an object are
  sent in, those of its row are in increasing order, so that the
  properties of a record and the scalar of a reply follow the
  names of the fields and not the order of the engine.

  Main declarations:
    * `Json.sentRows`
    * `Json.sentKeys`
    * `Sorts`
    * `Response.IsLeastProperty`
    * `Response.parse_sorts_rows`
-/

namespace GraphBag

------------------------------------------------------------
-- Order of Sending
------------------------------------------------------------

namespace Json

/- The fields of an object. -/
def fields? : Json → Option (List (String × Json))
  | .object fields => some fields
  | _ => none

/- The fields of each object of a reply, as they were sent. -/
def sentRows : Json → List (List (String × Json))
  | .object fields => [fields]
  | .array items => items.filterMap fields?
  | .scalar _ => []

/- The keys of fields in the order in which they first come. -/
def sentKeys (fields : List (String × Json)) : List String :=
  (fields.map Prod.fst).eraseDups

/- They come once each. -/
theorem nodup_sentKeys (fields : List (String × Json)) :
    (sentKeys fields).Nodup := by
  rw [sentKeys, ← OrderedMap.keys_ofList]
  exact (OrderedMap.ofList fields).distinct

end Json

/-
  The names are those that were sent, in increasing order, which
  is the order they were sent in only if that was increasing.
-/
def Sorts (sent kept : List String) : Prop :=
  kept.Perm sent ∧ kept.Pairwise (· < ·) ∧
    (kept = sent ↔ sent.Pairwise (· < ·))

theorem sorts_of_perm
    {sent kept : List String}
    (hPerm : kept.Perm sent)
    (hKept : kept.Pairwise (· < ·)) :
    Sorts sent kept := by
  refine ⟨hPerm, hKept, ?_⟩
  constructor
  · intro hSame
    rw [← hSame]
    exact hKept
  · intro hSent
    have hNever : ∀ a b, a ∈ kept → b ∈ sent → a < b → b < a → a = b := by
      intro a b _ _ hBefore hAfter
      exact absurd hAfter (lt_asymm hBefore)
    exact List.Perm.eq_of_pairwise hNever hKept hSent hPerm

/- Some of the names are sorted like all of them. -/
theorem Sorts.filter
    {sent kept : List String}
    (h : Sorts sent kept)
    (p : String → Bool) :
    Sorts (sent.filter p) (kept.filter p) :=
  sorts_of_perm (h.1.filter p) (h.2.1.filter p)

namespace Response

------------------------------------------------------------
-- Rows and Records
------------------------------------------------------------

/- The keys of a row are those of its object, sorted. -/
theorem sorts_of_rowOf
    {fields : List (String × Json)}
    {row : Row}
    (h : rowOf (.object fields) = .ok row) :
    Sorts (Json.sentKeys fields) (row.entries.map Prod.fst) := by
  rcases rowOf_eq_ok_iff.mp h with ⟨others, hFields, hEntries⟩
  rw [Json.object.injEq] at hFields
  subst hFields
  have hIncreasing :
      (row.entries.map Prod.fst).Pairwise (· < ·) := by
    rw [hEntries]
    exact Entries.increasing_sorted _
  refine sorts_of_perm ?_ hIncreasing
  rw [List.perm_ext_iff_of_nodup row.distinct
    (Json.nodup_sentKeys fields)]
  intro key
  rw [hEntries, Entries.mem_keys_sorted_iff,
    Value.entriesOfJson_eq_map, List.map_map, Json.sentKeys,
    List.mem_eraseDups]
  rfl

/- Each row of a tree has the keys of its object, sorted. -/
theorem sorts_of_rowsOf
    {j : Json}
    {rows : List Row}
    (h : rowsOf j = .ok rows) :
    List.Forall₂
      (fun fields row =>
        Sorts (Json.sentKeys fields) (row.entries.map Prod.fst))
      j.sentRows rows := by
  rcases rowsOf_eq_ok_iff.mp h with
    ⟨rfl, rfl⟩ | ⟨row, hRow, rfl⟩ | ⟨items, rfl, hRows⟩
  · exact .nil
  · rcases rowOf_eq_ok_iff.mp hRow with ⟨fields, rfl, _⟩
    exact .cons (sorts_of_rowOf hRow) .nil
  · rw [Json.sentRows]
    clear h
    induction hRows with
    | nil => exact .nil
    | cons hRow _ ih =>
        rcases rowOf_eq_ok_iff.mp hRow with ⟨fields, rfl, _⟩
        exact .cons (sorts_of_rowOf hRow) ih

/- The names of a record's properties are keys of its row. -/
theorem map_fst_properties (shape : RecordShape) (row : Row) :
    (Record.ofRow shape row).properties.map Prod.fst =
      (row.entries.map Prod.fst).filter fun key => !shape.isMeta key := by
  rw [List.filter_map]
  rfl

------------------------------------------------------------
-- Scalars
------------------------------------------------------------

/-
  The value under the least key that is not metadata, or null in
  a row without such a key.
-/
def IsLeastProperty
    (shape : RecordShape)
    (row : Row)
    (v : Value) : Prop :=
  (∃ key, (key, v) ∈ row.entries ∧ shape.isMeta key = false ∧
      ∀ other ∈ row.entries.map Prod.fst,
        shape.isMeta other = false → key ≤ other) ∨
    ((∀ key ∈ row.entries.map Prod.fst, shape.isMeta key = true) ∧
      v = .null)

/- The first property of a row in order is the least one. -/
theorem isLeastProperty_find?
    (shape : RecordShape)
    {row : Row}
    (h : (row.entries.map Prod.fst).Pairwise (· < ·)) :
    IsLeastProperty shape row
      (((row.entries.find? fun entry => !shape.isMeta entry.1).map
        Prod.snd).getD .null) := by
  cases hFind : row.entries.find? fun entry => !shape.isMeta entry.1 with
  | none =>
      right
      rw [List.find?_eq_none] at hFind
      refine ⟨?_, rfl⟩
      rw [List.forall_mem_map]
      intro entry hEntry
      simpa using hFind entry hEntry
  | some entry =>
      left
      rcases List.find?_eq_some_iff_append.mp hFind with
        ⟨hEntry, before, after, hEntries, hBefore⟩
      rw [hEntries, List.map_append, List.map_cons,
        List.pairwise_append, List.pairwise_cons] at h
      refine ⟨entry.1, by simp [hEntries], by simpa using hEntry, ?_⟩
      rw [List.forall_mem_map]
      intro other hOther hProperty
      rw [hEntries, List.mem_append, List.mem_cons] at hOther
      rcases hOther with hOther | hOther | hOther
      · have hMeta : shape.isMeta other.1 = true := by
          simpa using hBefore other hOther
        rw [hMeta] at hProperty
        exact absurd hProperty (by simp)
      · rw [hOther]
      · exact le_of_lt (h.2.1.1 other.1 (List.mem_map_of_mem hOther))

/- The scalar of rows in order is found in the first of them. -/
theorem exists_scalar
    {r : Response}
    (h : ∀ row ∈ r.rows, (row.entries.map Prod.fst).Pairwise (· < ·)) :
    ∃ v, (r.withFormat .scalar).scalar = .ok v ∧
      (r.rows = [] → v = .null) ∧
        ∀ row ∈ r.rows.head?, IsLeastProperty r.shape row v := by
  rcases r with ⟨rows, shape, format⟩
  cases rows with
  | nil => exact ⟨.null, rfl, fun _ => rfl, by simp⟩
  | cons first rest =>
      refine ⟨_, rfl, by simp, ?_⟩
      intro row hRow
      have hFirst : first = row := by
        simpa using hRow
      subst hFirst
      exact isLeastProperty_find? shape (h first (by simp))

/-
  The rows of a reply have the keys that were sent, sorted, and
  so do its records have the names of their properties; the
  scalar of the reply is the least property of the first row.
-/
theorem parse_sorts_rows
    {text : String}
    {shape : RecordShape}
    {r : Response}
    (hParse : parse text shape = .ok r) :
    (∃ j : Json, j.SpelledBy text ∧
      List.Forall₂
        (fun fields row =>
          Sorts (Json.sentKeys fields) (row.entries.map Prod.fst))
        j.sentRows r.rows ∧
      List.Forall₂
        (fun fields (record : Record) =>
          Sorts
            ((Json.sentKeys fields).filter fun key => !shape.isMeta key)
            (record.properties.map Prod.fst))
        j.sentRows r.records) ∧
    ∃ v, (r.withFormat .scalar).scalar = .ok v ∧
      (r.rows = [] → v = .null) ∧
        ∀ row ∈ r.rows.head?, IsLeastProperty shape row v := by
  rcases parse_eq_ok_iff.mp hParse with ⟨j, hText, _, rows, hRows, rfl⟩
  have hSorts := sorts_of_rowsOf hRows
  refine ⟨⟨j, hText, hSorts, ?_⟩, exists_scalar ?_⟩
  · rw [records, List.forall₂_map_right_iff]
    refine hSorts.imp ?_
    intro fields row hRow
    rw [map_fst_properties]
    exact hRow.filter _
  · intro row hRow
    rcases exists_mem_of_forall₂ hSorts hRow with ⟨fields, _, hKeys⟩
    exact hKeys.2.1

/- A row that is not sent in the order of its keys. -/
def petRow : Json :=
  .object
    [("@rid", .string "#12:0"), ("name", .string "oreo"),
     ("age", .int 2)]

/- What is read of `{"@rid":"#12:0","name":"oreo","age":2}`. -/
def petResponse : Response where
  rows :=
    [.ofList
      [("@rid", .string "#12:0"), ("age", .int 2),
       ("name", .string "oreo")]]
  shape := .orient

theorem spelledBy_petRow : petRow.SpelledBy petRow.render := by
  have hWritable : petRow.Writable := by
    simp [petRow, Json.Writable, Json.WritableFields, Json.int,
      Json.string, Scalar.Writable, UInt64.size]
  exact Json.spelledBy_render hWritable (by decide)

theorem parse_petRow :
    parse petRow.render .orient = .ok petResponse := by
  decide +kernel

theorem parse_sorts_rows_petRow :
    parse petRow.render .orient = .ok petResponse ∧
      Sorts ["@rid", "name", "age"] ["@rid", "age", "name"] ∧
        (petResponse.withFormat .scalar).scalar = .ok (.int 2) ∧
          ∀ row ∈ petResponse.rows.head?,
            IsLeastProperty .orient row (.int 2) := by
  rcases parse_sorts_rows parse_petRow with
    ⟨⟨j, hText, hRows, _⟩, v, hScalar, _, hLeast⟩
  rw [← Json.eq_of_spelledBy spelledBy_petRow hText] at hRows
  have hValue : (petResponse.withFormat .scalar).scalar = .ok (.int 2) := by
    decide +kernel
  have hSame : v = .int 2 := by
    simpa [hScalar] using hValue
  rw [hSame] at hLeast
  cases hRows with | cons hRow _
  have hSent :
      Json.sentKeys
          [("@rid", .string "#12:0"), ("name", .string "oreo"),
           ("age", .int 2)] =
        ["@rid", "name", "age"] := by
    decide +kernel
  rw [hSent] at hRow
  exact ⟨parse_petRow, hRow, hValue, hLeast⟩

/- The keys of a row and its scalar are not as they were sent. -/
theorem rows_not_as_sent_petRow :
    ∃ r, parse petRow.render .orient = .ok r ∧
      ¬ List.Forall₂
          (fun fields (row : Row) =>
            row.entries.map Prod.fst = Json.sentKeys fields)
          petRow.sentRows r.rows ∧
        (r.withFormat .scalar).scalar ≠ .ok (.string "oreo") := by
  refine ⟨petResponse, parse_petRow, ?_, by decide +kernel⟩
  intro hRows
  cases hRows with | cons hRow _
  revert hRow
  decide +kernel

end Response

end GraphBag
