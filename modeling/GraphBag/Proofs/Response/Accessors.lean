import GraphBag.Response.Basic
import Mathlib.Data.List.Forall2

/-
  The accessors of a response.  They read the same rows in five
  ways, each in its own format: the records of the set are those
  of the path and the roots of the trees, and the scalar is the
  first property of the first one.  A record takes from its row
  what is not metadata.

  Main declarations:
    * `RecordShape.Marks`
    * `Record.Parts`
    * `Tree.IsRootFor`
    * `Response.ReadsOnly`
    * `Response.accessors_agree`
-/

namespace GraphBag

------------------------------------------------------------
-- Metadata and Properties
------------------------------------------------------------

namespace RecordShape

/-
  The key is that of the identity or of the label, or it starts
  as the keys of metadata do.
-/
def Marks (shape : RecordShape) (key : String) : Prop :=
  key = shape.idKey ∨ key = shape.labelKey ∨
    ∃ start, shape.metaStart = some start ∧
      start.toList <+: key.toList

theorem isMeta_iff (shape : RecordShape) (key : String) :
    shape.isMeta key = true ↔ shape.Marks key := by
  rcases shape with ⟨idKey, labelKey, metaStart⟩
  cases metaStart with
  | none => simp [isMeta, Marks]
  | some start => simp [isMeta, Marks, or_assoc]

instance (shape : RecordShape) (key : String) :
    Decidable (shape.Marks key) :=
  decidable_of_iff _ (isMeta_iff shape key)

end RecordShape

/- The entries of a row under the keys that a shape marks. -/
def Row.metadata
    (row : Row)
    (shape : RecordShape) : List (String × Value) :=
  row.entries.filter fun entry => shape.Marks entry.1

namespace Record

/-
  The record parts its row.  The metadata of the row and the
  properties of the record are the entries of the row, each of
  them in the one or in the other, and both in row order.
-/
structure Parts
    (shape : RecordShape)
    (row : Row)
    (record : Record) : Prop where
  whole : (row.metadata shape ++ record.properties).Perm row.entries
  metadata : (row.metadata shape).Sublist row.entries
  properties : record.properties.Sublist row.entries

theorem parts_ofRow (shape : RecordShape) (row : Row) :
    Parts shape row (ofRow shape row) := by
  have hMetadata :
      row.metadata shape =
        row.entries.filter fun entry => shape.isMeta entry.1 := by
    apply List.filter_congr
    intro entry _
    rw [Bool.eq_iff_iff, decide_eq_true_iff, shape.isMeta_iff]
  refine ⟨?_, ?_, ?_⟩
  · rw [hMetadata]
    exact List.filter_append_perm _ row.entries
  · exact List.filter_sublist
  · exact List.filter_sublist

end Record

namespace Tree

/-
  The tree has the record at its root, but for properties that
  are not kept there.
-/
structure IsRootFor (record : Record) (tree : Tree) : Prop where
  id : tree.record.id = record.id
  label : tree.record.label = record.label
  properties : tree.record.properties.Sublist record.properties

theorem isRootFor_ofRow (shape : RecordShape) (row : Row) :
    IsRootFor (Record.ofRow shape row) (ofRow shape row) where
  id := rfl
  label := rfl
  properties := List.filter_sublist

end Tree

namespace Response

------------------------------------------------------------
-- Scalars
------------------------------------------------------------

/- The value of the first property of the first record. -/
def firstValue : List Record → Value
  | [] => .null
  | record :: _ =>
      match record.properties with
      | [] => .null
      | (_, value) :: _ => value

/- The entry that is found first is the record's first property. -/
theorem scalar_eq (r : Response) :
    (r.withFormat .scalar).scalar = .ok (firstValue r.records) := by
  rcases r with ⟨rows, shape, format⟩
  cases rows with
  | nil => rfl
  | cons row rest =>
      have hProperties :
          (Record.ofRow shape row).properties =
            row.entries.filter fun entry => !shape.isMeta entry.1 :=
        rfl
      have hScalar :
          scalar ⟨row :: rest, shape, .scalar⟩ =
            .ok
              (((Record.ofRow shape row).properties.head?.map
                Prod.snd).getD .null) := by
        rw [hProperties, List.head?_filter]
        rfl
      rw [withFormat, hScalar, records, List.map_cons, firstValue]
      cases (Record.ofRow shape row).properties with
      | nil => rfl
      | cons property others => rfl

------------------------------------------------------------
-- Formats
------------------------------------------------------------

/-
  The accessor reads responses of one format.  It refuses all
  others, and names the two formats.
-/
def ReadsOnly
    {α : Type}
    (access : Response → Except ResponseError α)
    (requested : Format) : Prop :=
  ∀ r cause,
    access r = .error cause ↔
      r.format ≠ requested ∧
        cause = .formatMismatch requested.name r.format.name

/- What is read behind the check of a format is read only in it. -/
theorem readsOnly_require
    {α : Type}
    (requested : Format)
    (read : Response → α) :
    ReadsOnly
      (fun r => do
        r.require requested
        .ok (read r))
      requested := by
  intro r cause
  by_cases hFormat : r.format = requested
  · simp [require, hFormat, bind, Except.bind]
  · simp [require, hFormat, bind, Except.bind, eq_comm]

/-
  In every response the accessors agree on one list of records.
  The set is that list, the record is its first, the path is the
  list again, the scalar is the first value in it, and each tree
  has one of them at its root.  The records part the rows, which
  no change of format touches, and each accessor refuses exactly
  the formats that are not its own.
-/
theorem accessors_agree (r : Response) :
    (∃ records trees,
      (r.withFormat .set).set = .ok records ∧
        (r.withFormat .set).record = .ok records.head? ∧
        (r.withFormat .path).path = .ok records ∧
        (r.withFormat .scalar).scalar = .ok (firstValue records) ∧
        (r.withFormat .tree).tree = .ok trees ∧
        List.Forall₂ Tree.IsRootFor records trees ∧
        List.Forall₂ (Record.Parts r.shape) r.rows records) ∧
      (∀ format,
        (r.withFormat format).rows = r.rows ∧
          (r.withFormat format).shape = r.shape ∧
            (r.withFormat format).format = format) ∧
      ReadsOnly set .set ∧ ReadsOnly record .set ∧
        ReadsOnly path .path ∧ ReadsOnly tree .tree ∧
          ReadsOnly scalar .scalar := by
  refine ⟨?_, ?_, ?_⟩
  · refine ⟨r.records, r.rows.map (Tree.ofRow r.shape), rfl, ?_, rfl,
      scalar_eq r, rfl, ?_, ?_⟩
    · rw [records, List.head?_map]
      rfl
    · rw [records, List.forall₂_map_left_iff,
        List.forall₂_map_right_iff, List.forall₂_same]
      intro row _
      exact Tree.isRootFor_ofRow r.shape row
    · rw [records, List.forall₂_map_right_iff, List.forall₂_same]
      intro row _
      exact Record.parts_ofRow r.shape row
  · intro format
    exact ⟨rfl, rfl, rfl⟩
  · refine ⟨?_, ?_, ?_, ?_, ?_⟩
    · exact readsOnly_require .set records
    · exact readsOnly_require .set _
    · exact readsOnly_require .path records
    · exact readsOnly_require .tree _
    · exact readsOnly_require .scalar _

end Response

end GraphBag
