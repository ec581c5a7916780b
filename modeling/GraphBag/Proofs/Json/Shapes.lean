import GraphBag.Proofs.Json.Reading
import GraphBag.Proofs.Result

/-
  The trees that readers take.  A reader accepts a shape when it
  succeeds on exactly the trees of that shape, as long as they
  fit in its room; readers built from others accept the shapes
  built from theirs.

  Main declarations:
    * `Reader.Accepts`
    * `Json.IsChoice`
    * `Schema.FieldsFit`
    * `Schema.ItemsFit`
    * `Schema.accepts_record`
-/

namespace GraphBag

------------------------------------------------------------
-- Shapes of Trees
------------------------------------------------------------

namespace Json

/- The tree is a string. -/
def IsString (j : Json) : Prop :=
  ∃ s, j = .string s

/- The tree is an array of items of a shape. -/
def IsArrayOf (shape : Json → Prop) (j : Json) : Prop :=
  ∃ items, j = .array items ∧ ∀ item ∈ items, shape item

/- The tree is an object with values of a shape. -/
def IsObjectOf (shape : Json → Prop) (j : Json) : Prop :=
  ∃ fields, j = .object fields ∧ ∀ field ∈ fields, shape field.2

/- The tree is the name of a choice, alone or as a key of null. -/
def IsChoice {α : Type} (nameOf : α → String) (j : Json) : Prop :=
  ∃ x, j = .string (nameOf x) ∨ j = .object [(nameOf x, .null)]

end Json

------------------------------------------------------------
-- Readers
------------------------------------------------------------

namespace Reader

variable {α β : Type}

/-
  In the given room, a reader takes exactly the trees of a
  shape.
-/
def Accepts
    (read : Reader α)
    (room : Nat)
    (shape : Json → Prop) : Prop :=
  ∀ j : Json, j.height ≤ room →
    ((∃ x, read room j.toNode = .ok x) ↔ shape j)

/- The trees taken are not changed by what is made of them. -/
theorem Accepts.bind
    {read : Reader α}
    {room : Nat}
    {shape : Json → Prop}
    (h : Accepts read room shape)
    (f : α → β) :
    Accepts (fun room node => read room node >>= fun x => .ok (f x))
      room shape := by
  intro j hj
  rw [← h j hj]
  simp only [bind_eq_ok_iff, Except.ok.injEq]
  constructor
  · rintro ⟨_, x, hx, _⟩
    exact ⟨x, hx⟩
  · rintro ⟨x, hx⟩
    exact ⟨_, x, hx, rfl⟩

/- The same, with the result mapped. -/
theorem Accepts.map
    {read : Reader α}
    {room : Nat}
    {shape : Json → Prop}
    (h : Accepts read room shape)
    (f : α → β) :
    Accepts (fun room node => (read room node).map f) room shape := by
  intro j hj
  rw [← h j hj]
  simp only [map_eq_ok_iff]
  constructor
  · rintro ⟨_, x, hx, _⟩
    exact ⟨x, hx⟩
  · rintro ⟨x, hx⟩
    exact ⟨_, x, hx, rfl⟩

/- What does not fit is refused. -/
theorem mismatch_ne_ok
    {expected : String}
    {node : Node}
    {x : α} :
    mismatch expected node ≠ .ok x := by
  unfold mismatch
  split
  · simp
  · simp

/- Strings are read. -/
theorem accepts_string (room : Nat) :
    Accepts string room Json.IsString := by
  intro j _
  unfold Json.IsString
  cases j with
  | scalar s =>
      cases s with
      | string s => simp [Json.toNode, Json.string, string]
      | null | bool | int | float =>
          simp [Json.toNode, Json.string, string, mismatch_ne_ok]
  | array items => simp [Json.toNode, Json.string, string, mismatch_ne_ok]
  | object fields => simp [Json.toNode, Json.string, string, mismatch_ne_ok]

/- Any tree is read as one. -/
theorem accepts_json (room : Nat) :
    Accepts json room fun _ => True := by
  intro j hj
  simp [json_toNode hj]

/- Integers in range are read. -/
theorem accepts_natural
    (bound : Nat)
    (expected : String)
    (room : Nat) :
    Accepts (natural bound expected) room fun j =>
      ∃ n : Int, j = .int n ∧ 0 ≤ n ∧ n < bound := by
  intro j _
  cases j with
  | scalar s =>
      cases s with
      | int n =>
          by_cases hRange : 0 ≤ n ∧ n < bound
          · simp [Json.toNode, Json.int, natural, hRange]
          · simp [Json.toNode, Json.int, natural, hRange]
      | null | bool | string | float =>
          simp [Json.toNode, Json.int, natural, mismatch_ne_ok]
  | array items => simp [Json.toNode, Json.int, natural, mismatch_ne_ok]
  | object fields => simp [Json.toNode, Json.int, natural, mismatch_ne_ok]

/- Null is read besides. -/
theorem Accepts.optional
    {read : Reader α}
    {room : Nat}
    {shape : Json → Prop}
    (h : Accepts read room shape) :
    Accepts (Reader.optional read) room fun j =>
      j = .null ∨ shape j := by
  intro j hj
  by_cases hNull : j = .null
  · subst hNull
    simp [Json.toNode, Reader.optional]
  · have hRead :
        Reader.optional read room j.toNode =
          (read room j.toNode).map some := by
      cases j with
      | scalar s =>
          cases s with
          | null => exact absurd rfl hNull
          | bool | int | float | string => rfl
      | array items => rfl
      | object fields => rfl
    rw [hRead, (h.map some) j hj]
    simp [hNull]

/- Arrays are read whose items are. -/
theorem accepts_sequence
    {read : Reader α}
    {shape : Json → Prop}
    (h : ∀ room, Accepts read room shape)
    (room : Nat) :
    Accepts (sequence read) room (Json.IsArrayOf shape) := by
  intro j hj
  unfold Json.IsArrayOf
  cases j with
  | scalar s =>
      cases room <;> simp [Json.toNode, sequence, mismatch_ne_ok]
  | object fields =>
      cases room <;> simp [Json.toNode, sequence, mismatch_ne_ok]
  | array items =>
      cases room with
      | zero => simp [Json.height] at hj
      | succ room =>
          simp only [Json.height, Nat.add_le_add_iff_right] at hj
          have hItems :
              (∃ xs, (items.map Json.toNode).mapM (read room) =
                .ok xs) ↔ ∀ item ∈ items, shape item := by
            rw [exists_mapM_iff, List.forall_mem_map]
            refine forall₂_congr ?_
            intro item hItem
            exact h room item
              (Nat.le_trans (Json.height_le_itemsHeight hItem) hj)
          simp only [Json.toNode, Json.toNodeItems_eq_map, sequence,
            if_true, bind_eq_ok_iff, Except.ok.injEq,
            exists_eq_right, Json.array.injEq, exists_eq_left']
          exact hItems

/- Objects are read whose values are. -/
theorem accepts_entries
    {read : Reader α}
    {shape : Json → Prop}
    (h : ∀ room, Accepts read room shape)
    (room : Nat) :
    Accepts (entries read) room (Json.IsObjectOf shape) := by
  intro j hj
  unfold Json.IsObjectOf
  cases j with
  | scalar s =>
      cases room <;> simp [Json.toNode, entries, mismatch_ne_ok]
  | array items =>
      cases room <;> simp [Json.toNode, entries, mismatch_ne_ok]
  | object fields =>
      cases room with
      | zero => simp [Json.height] at hj
      | succ room =>
          simp only [Json.height, Nat.add_le_add_iff_right] at hj
          simp only [Json.toNode, Json.toNodeFields_eq_map, entries,
            if_true, bind_eq_ok_iff, Except.ok.injEq,
            exists_eq_right, Json.object.injEq, exists_eq_left']
          rw [exists_mapM_iff, List.forall_mem_map]
          refine forall₂_congr ?_
          intro field hField
          have hValue :=
            h room field.2
              (Nat.le_trans (Json.height_le_fieldsHeight hField) hj)
          rw [← hValue]
          simp only [map_eq_ok_iff]
          constructor
          · rintro ⟨_, x, hx, _⟩
            exact ⟨x, hx⟩
          · rintro ⟨x, hx⟩
            exact ⟨_, x, hx, rfl⟩

/- A value is picked by its name when one has it. -/
theorem exists_pick_iff
    {nameOf : α → String}
    {all : List α}
    (hAll : ∀ x, x ∈ all)
    {name : String} :
    (∃ x, pick nameOf all name = .ok x) ↔ ∃ x, name = nameOf x := by
  unfold pick
  cases hFind : all.find? (nameOf · = name) with
  | none =>
      rw [List.find?_eq_none] at hFind
      simp only [reduceCtorEq, exists_false, false_iff, not_exists]
      intro x hName
      exact hFind x (hAll x) (by simp [hName])
  | some x =>
      have hName := List.find?_some hFind
      rw [decide_eq_true_eq] at hName
      simp only [Except.ok.injEq, exists_eq', true_iff]
      exact ⟨x, hName.symm⟩

/- A choice is read from an object of one field that is null. -/
theorem exists_choiceEntry_iff
    {nameOf : α → String}
    {all : List α}
    (hAll : ∀ x, x ∈ all)
    {room : Nat}
    {name : String}
    {value : Json}
    {rest : List (Key × Node)} :
    (∃ x, choice nameOf all (room + 1)
        (.object ((.text name, value.toNode) :: rest) true) =
      .ok x) ↔
      (∃ x, name = nameOf x) ∧ value = .null ∧ rest = [] := by
  rw [← exists_pick_iff hAll]
  simp only [choice, bind_eq_ok_iff]
  constructor
  · rintro ⟨_, x, hPick, hValue⟩
    refine ⟨⟨x, hPick⟩, ?_⟩
    cases value with
    | scalar s =>
        cases s with
        | null =>
            cases rest with
            | nil => exact ⟨rfl, rfl⟩
            | cons field rest =>
                simp [Json.toNode] at hValue
        | bool | int | float | string =>
            simp [Json.toNode, mismatch_ne_ok] at hValue
    | array items => simp [Json.toNode, mismatch_ne_ok] at hValue
    | object fields => simp [Json.toNode, mismatch_ne_ok] at hValue
  · rintro ⟨⟨x, hPick⟩, rfl, rfl⟩
    exact ⟨x, x, hPick, rfl⟩

/- Choices are read. -/
theorem accepts_choice
    {nameOf : α → String}
    {all : List α}
    (hAll : ∀ x, x ∈ all)
    (room : Nat) :
    Accepts (choice nameOf all) room (Json.IsChoice nameOf) := by
  intro j hj
  unfold Json.IsChoice
  cases j with
  | scalar s =>
      cases s with
      | string name =>
          have hPick := @exists_pick_iff α nameOf all hAll name
          simpa [Json.toNode, Json.string, choice] using hPick
      | null | bool | int | float =>
          cases room <;> simp [Json.toNode, Json.string, choice]
  | array items =>
      cases room <;> simp [Json.toNode, Json.string, choice]
  | object fields =>
      cases room with
      | zero => simp [Json.height] at hj
      | succ room =>
          cases fields with
          | nil =>
              simp [Json.toNode, Json.toNodeFields, Json.string,
                choice]
          | cons field rest =>
              rcases field with ⟨name, value⟩
              simp only [Json.toNode, Json.toNodeFields,
                exists_choiceEntry_iff hAll, Json.string,
                reduceCtorEq, Json.object.injEq, List.cons.injEq,
                Prod.mk.injEq, false_or, Json.toNodeFields_eq_map,
                List.map_eq_nil_iff]
              constructor
              · rintro ⟨⟨x, hName⟩, hValue, hRest⟩
                exact ⟨x, ⟨hName, hValue⟩, hRest⟩
              · rintro ⟨x, ⟨hName, hValue⟩, hRest⟩
                exact ⟨⟨x, hName⟩, hValue, hRest⟩

end Reader

------------------------------------------------------------
-- Skipped Trees
------------------------------------------------------------

namespace Json

mutual

/- A whole tree can be skipped. -/
theorem passable_toNode : ∀ j : Json, j.toNode.passable = true
  | .scalar s => rfl
  | .array items => by
      simp [toNode, Node.passable, passable_toNodeItems items]
  | .object fields => by
      simp [toNode, Node.passable, passable_toNodeFields fields]

theorem passable_toNodeItems :
    ∀ items : List Json,
      Node.passableItems (toNodeItems items) = true
  | [] => rfl
  | item :: rest => by
      simp [toNodeItems, Node.passableItems, passable_toNode item,
        passable_toNodeItems rest]

theorem passable_toNodeFields :
    ∀ fields : List (String × Json),
      Node.passableFields (toNodeFields fields) = true
  | [] => rfl
  | (key, value) :: rest => by
      simp [toNodeFields, Node.passableFields, passable_toNode value,
        passable_toNodeFields rest]

end

end Json

------------------------------------------------------------
-- Records
------------------------------------------------------------

namespace Schema

variable {α : Type}

/-
  Each field is set from exactly the trees of its shape, on any
  record.
-/
def Takes
    (schema : Schema α)
    (room : Nat)
    (member : String → Json → Prop) : Prop :=
  ∀ name ∈ schema.names, ∀ x,
    Reader.Accepts (fun room node => schema.set name room node x)
      room (member name)

/-
  The fields of an object make a record, some of its fields
  being set already: no known key is there twice, others only
  where they are skipped, and no required one is missing.
-/
structure FieldsFit
    (schema : Schema α)
    (member : String → Json → Prop)
    (seen : List String)
    (fields : List (String × Json)) : Prop where
  distinct : ((fields.map Prod.fst).filter (· ∈ schema.names)).Nodup
  fresh : ∀ name ∈ schema.names, name ∈ fields.map Prod.fst → name ∉ seen
  known :
    schema.openEnded = false →
      ∀ name ∈ fields.map Prod.fst, name ∈ schema.names
  present : ∀ name ∈ schema.required, name ∈ seen ∨ name ∈ fields.map Prod.fst
  members : ∀ name ∈ schema.names, ∀ j, (name, j) ∈ fields → member name j

/- At the end only the required fields matter. -/
theorem fieldsFit_nil
    {schema : Schema α}
    {member : String → Json → Prop}
    {seen : List String} :
    schema.FieldsFit member seen [] ↔
      ∀ name ∈ schema.required, name ∈ seen := by
  constructor
  · intro h name hName
    simpa using h.present name hName
  · intro h
    refine ⟨by simp, by simp, by simp, ?_, by simp⟩
    intro name hName
    exact Or.inl (h name hName)

/- A known field is new and of its shape. -/
theorem fieldsFit_known
    {schema : Schema α}
    {member : String → Json → Prop}
    {seen : List String}
    {name : String}
    (hName : name ∈ schema.names)
    {value : Json}
    {rest : List (String × Json)} :
    schema.FieldsFit member seen ((name, value) :: rest) ↔
      name ∉ seen ∧ member name value ∧
        schema.FieldsFit member (name :: seen) rest := by
  have hFilter :
      (((name, value) :: rest).map Prod.fst).filter
          (· ∈ schema.names) =
        name :: (rest.map Prod.fst).filter (· ∈ schema.names) :=
    List.filter_cons_of_pos (by simpa using hName)
  constructor
  · intro h
    have hDistinct := h.distinct
    rw [hFilter, List.nodup_cons] at hDistinct
    refine ⟨h.fresh name hName (by simp),
      h.members name hName value (by simp), hDistinct.2, ?_, ?_, ?_, ?_⟩
    · intro other hOther hKey hSeen
      rcases List.mem_cons.mp hSeen with rfl | hSeen
      · exact hDistinct.1 (List.mem_filter.mpr ⟨hKey, by simpa⟩)
      · exact h.fresh other hOther (List.mem_cons_of_mem _ hKey) hSeen
    · intro hClosed other hKey
      exact h.known hClosed other (List.mem_cons_of_mem _ hKey)
    · intro other hOther
      rcases h.present other hOther with hSeen | hKey
      · exact Or.inl (List.mem_cons_of_mem _ hSeen)
      · rcases List.mem_cons.mp hKey with rfl | hKey
        · exact Or.inl List.mem_cons_self
        · exact Or.inr hKey
    · intro other hOther j hField
      exact h.members other hOther j (List.mem_cons_of_mem _ hField)
  · rintro ⟨hNew, hValue, h⟩
    refine ⟨?_, ?_, ?_, ?_, ?_⟩
    · rw [hFilter, List.nodup_cons]
      refine ⟨?_, h.distinct⟩
      intro hMem
      exact h.fresh name hName (List.mem_filter.mp hMem).1
        List.mem_cons_self
    · intro other hOther hKey hSeen
      rcases List.mem_cons.mp hKey with rfl | hKey
      · exact hNew hSeen
      · exact h.fresh other hOther hKey (List.mem_cons_of_mem _ hSeen)
    · intro hClosed other hKey
      rcases List.mem_cons.mp hKey with rfl | hKey
      · exact hName
      · exact h.known hClosed other hKey
    · intro other hOther
      rcases h.present other hOther with hSeen | hKey
      · rcases List.mem_cons.mp hSeen with rfl | hSeen
        · exact Or.inr List.mem_cons_self
        · exact Or.inl hSeen
      · exact Or.inr (List.mem_cons_of_mem _ hKey)
    · intro other hOther j hField
      rcases List.mem_cons.mp hField with hHere | hField
      · cases hHere
        exact hValue
      · exact h.members other hOther j hField

/- Any other field is skipped where that is allowed. -/
theorem fieldsFit_unknown
    {schema : Schema α}
    (hRequired : ∀ name ∈ schema.required, name ∈ schema.names)
    {member : String → Json → Prop}
    {seen : List String}
    {name : String}
    (hName : name ∉ schema.names)
    {value : Json}
    {rest : List (String × Json)} :
    schema.FieldsFit member seen ((name, value) :: rest) ↔
      schema.openEnded = true ∧ schema.FieldsFit member seen rest := by
  have hFilter :
      (((name, value) :: rest).map Prod.fst).filter
          (· ∈ schema.names) =
        (rest.map Prod.fst).filter (· ∈ schema.names) :=
    List.filter_cons_of_neg (by simpa using hName)
  have hOther {other : String} (hOther : other ∈ schema.names) :
      other ≠ name := by
    intro hEq
    exact hName (hEq ▸ hOther)
  constructor
  · intro h
    have hOpen : schema.openEnded = true := by
      by_contra hClosed
      exact hName
        (h.known (by simpa using hClosed) name List.mem_cons_self)
    refine ⟨hOpen, hFilter ▸ h.distinct, ?_, ?_, ?_, ?_⟩
    · intro other hKnown hKey
      exact h.fresh other hKnown (List.mem_cons_of_mem _ hKey)
    · intro hClosed
      rw [hOpen] at hClosed
      cases hClosed
    · intro other hNeeded
      rcases h.present other hNeeded with hSeen | hKey
      · exact Or.inl hSeen
      · rcases List.mem_cons.mp hKey with hEq | hKey
        · exact absurd hEq (hOther (hRequired other hNeeded))
        · exact Or.inr hKey
    · intro other hKnown j hField
      exact h.members other hKnown j (List.mem_cons_of_mem _ hField)
  · rintro ⟨hOpen, h⟩
    refine ⟨hFilter ▸ h.distinct, ?_, ?_, ?_, ?_⟩
    · intro other hKnown hKey
      rcases List.mem_cons.mp hKey with hEq | hKey
      · exact absurd hEq (hOther hKnown)
      · exact h.fresh other hKnown hKey
    · intro hClosed
      rw [hOpen] at hClosed
      cases hClosed
    · intro other hNeeded
      rcases h.present other hNeeded with hSeen | hKey
      · exact Or.inl hSeen
      · exact Or.inr (List.mem_cons_of_mem _ hKey)
    · intro other hKnown j hField
      rcases List.mem_cons.mp hField with hHere | hField
      · cases hHere
        exact absurd rfl (hOther hKnown)
      · exact h.members other hKnown j hField

/- The record is finished when nothing required is missing. -/
theorem exists_finish_iff
    {schema : Schema α}
    {seen : List String}
    {x : α} :
    (∃ y, schema.finish seen x = .ok y) ↔
      ∀ name ∈ schema.required, name ∈ seen := by
  unfold finish
  cases hFind : schema.required.find? (· ∉ seen) with
  | none =>
      rw [List.find?_eq_none] at hFind
      simpa using hFind
  | some name =>
      have hMissing := List.find?_some hFind
      rw [decide_eq_true_eq] at hMissing
      simp only [reduceCtorEq, exists_false, false_iff]
      intro hAll
      exact hMissing (hAll name (List.mem_of_find?_eq_some hFind))

/- Fields are read exactly when they make a record. -/
theorem exists_readFields_iff
    {schema : Schema α}
    (hRequired : ∀ name ∈ schema.required, name ∈ schema.names)
    {room : Nat}
    {member : String → Json → Prop}
    (hTakes : schema.Takes room member)
    {fields : List (String × Json)}
    (hFields : ∀ field ∈ fields, field.2.height ≤ room)
    (seen : List String)
    (x : α) :
    (∃ y, schema.readFields room true seen x
        (Json.toNodeFields fields) = .ok y) ↔
      schema.FieldsFit member seen fields := by
  induction fields generalizing seen x with
  | nil =>
      rw [fieldsFit_nil, ← exists_finish_iff (x := x)]
      simp [Json.toNodeFields, readFields]
  | cons field rest ih =>
      rcases field with ⟨name, value⟩
      have hRest : ∀ field ∈ rest, field.2.height ≤ room := by
        intro field hField
        exact hFields field (List.mem_cons_of_mem _ hField)
      by_cases hName : name ∈ schema.names
      · have hSet :=
          hTakes name hName x value (hFields _ List.mem_cons_self)
        rw [fieldsFit_known hName, ← hSet]
        by_cases hSeen : name ∈ seen
        · simp [Json.toNodeFields, readFields, hName, hSeen]
        · simp only [Json.toNodeFields, readFields, hName, hSeen,
            if_true, if_false, bind_eq_ok_iff, not_false_eq_true,
            true_and]
          constructor
          · rintro ⟨y, mid, hMid, hEnd⟩
            exact ⟨⟨mid, hMid⟩, (ih hRest _ _).mp ⟨y, hEnd⟩⟩
          · rintro ⟨⟨mid, hMid⟩, hFit⟩
            rcases (ih hRest (name :: seen) mid).mpr hFit with ⟨y, hEnd⟩
            exact ⟨y, mid, hMid, hEnd⟩
      · rw [fieldsFit_unknown hRequired hName]
        cases hOpen : schema.openEnded with
        | false =>
            simp [Json.toNodeFields, readFields, hName, hOpen]
        | true =>
            simp [Json.toNodeFields, readFields, hName, hOpen,
              Json.passable_toNode, ih hRest]

/- Records are read from objects. -/
theorem accepts_object
    {schema : Schema α}
    (hRequired : ∀ name ∈ schema.required, name ∈ schema.names)
    {room : Nat}
    {member : String → Json → Prop}
    (hTakes : ∀ inner, room = inner + 1 → schema.Takes inner member)
    {shape : Json → Prop}
    (hObject :
      ∀ fields, schema.FieldsFit member [] fields ↔
        shape (.object fields))
    (hArray : ∀ items, ¬ shape (.array items))
    (hScalar : ∀ s, ¬ shape (.scalar s)) :
    Reader.Accepts schema.object room shape := by
  intro j hj
  cases j with
  | scalar s =>
      cases room <;>
        simp [Json.toNode, object, Reader.mismatch_ne_ok, hScalar]
  | array items =>
      cases room <;>
        simp [Json.toNode, object, Reader.mismatch_ne_ok, hArray]
  | object fields =>
      cases room with
      | zero => simp [Json.height] at hj
      | succ room =>
          simp only [Json.height, Nat.add_le_add_iff_right] at hj
          have hFields : ∀ field ∈ fields, field.2.height ≤ room := by
            intro field hField
            exact Nat.le_trans (Json.height_le_fieldsHeight hField) hj
          rw [← hObject fields]
          exact exists_readFields_iff hRequired (hTakes room rfl)
            hFields [] schema.initial

/-
  The items of an array make a record: one for each field in
  turn, only fields at the end being left out that are not
  required.
-/
def ItemsFit
    (schema : Schema α)
    (member : String → Json → Prop) :
    List String → List Json → Prop
  | name :: names, item :: items =>
      member name item ∧ schema.ItemsFit member names items
  | names, [] => ∀ name ∈ names, name ∉ schema.required
  | [], _ :: _ => False

/- At the end only required fields can be missing. -/
theorem itemsFit_nil
    {schema : Schema α}
    {member : String → Json → Prop}
    {names : List String} :
    schema.ItemsFit member names [] ↔
      ∀ name ∈ names, name ∉ schema.required := by
  cases names with
  | nil => exact Iff.rfl
  | cons name names => exact Iff.rfl

/- Items are read exactly when they make a record. -/
theorem exists_readItems_iff
    {schema : Schema α}
    {room : Nat}
    {member : String → Json → Prop}
    (hTakes : schema.Takes room member)
    {items : List Json}
    (hItems : ∀ item ∈ items, item.height ≤ room)
    {names : List String}
    (hNames : ∀ name ∈ names, name ∈ schema.names)
    (count : Nat)
    (x : α) :
    (∃ y, schema.readItems room true count names x
        (Json.toNodeItems items) = .ok y) ↔
      schema.ItemsFit member names items := by
  induction items generalizing names count x with
  | nil =>
      have hEnd :
          schema.readItems room true count names x [] =
            if names.any (· ∈ schema.required) then
              .error (.shape (.invalidLength count
                (schema.title ++ " with " ++
                  toString schema.names.length ++ " elements")))
            else .ok x := by
        cases names <;> rfl
      rw [Json.toNodeItems, hEnd, itemsFit_nil]
      by_cases hMissing : names.any (· ∈ schema.required) = true
      · rw [if_pos hMissing]
        simpa using hMissing
      · rw [if_neg hMissing]
        simpa using hMissing
  | cons item rest ih =>
      have hRest : ∀ item ∈ rest, item.height ≤ room := by
        intro other hOther
        exact hItems other (List.mem_cons_of_mem _ hOther)
      cases names with
      | nil => simp [Json.toNodeItems, readItems, ItemsFit]
      | cons name names =>
          have hSet :=
            hTakes name (hNames name List.mem_cons_self) x item
              (hItems item List.mem_cons_self)
          have hMore : ∀ name ∈ names, name ∈ schema.names := by
            intro other hOther
            exact hNames other (List.mem_cons_of_mem _ hOther)
          simp only [Json.toNodeItems, readItems, ItemsFit,
            bind_eq_ok_iff]
          rw [← hSet]
          constructor
          · rintro ⟨y, mid, hMid, hEnd⟩
            exact ⟨⟨mid, hMid⟩, (ih hRest hMore _ _).mp ⟨y, hEnd⟩⟩
          · rintro ⟨⟨mid, hMid⟩, hFit⟩
            rcases (ih hRest hMore (count + 1) mid).mpr hFit with
              ⟨y, hEnd⟩
            exact ⟨y, mid, hMid, hEnd⟩

/- Records are read from objects and from arrays. -/
theorem accepts_record
    {schema : Schema α}
    (hRequired : ∀ name ∈ schema.required, name ∈ schema.names)
    {member : String → Json → Prop}
    (hTakes : ∀ room, schema.Takes room member)
    {shape : Json → Prop}
    (hObject :
      ∀ fields, schema.FieldsFit member [] fields ↔
        shape (.object fields))
    (hArray :
      ∀ items, schema.ItemsFit member schema.names items ↔
        shape (.array items))
    (hScalar : ∀ s, ¬ shape (.scalar s))
    (room : Nat) :
    Reader.Accepts schema.record room shape := by
  intro j hj
  cases j with
  | scalar s =>
      cases room <;>
        simp [Json.toNode, record, object, Reader.mismatch_ne_ok,
          hScalar]
  | array items =>
      cases room with
      | zero => simp [Json.height] at hj
      | succ room =>
          simp only [Json.height, Nat.add_le_add_iff_right] at hj
          have hItems : ∀ item ∈ items, item.height ≤ room := by
            intro item hItem
            exact Nat.le_trans (Json.height_le_itemsHeight hItem) hj
          rw [← hArray items]
          exact exists_readItems_iff (hTakes room) hItems
            (fun _ hName => hName) 0 schema.initial
  | object fields =>
      cases room with
      | zero => simp [Json.height] at hj
      | succ room =>
          simp only [Json.height, Nat.add_le_add_iff_right] at hj
          have hFields : ∀ field ∈ fields, field.2.height ≤ room := by
            intro field hField
            exact Nat.le_trans (Json.height_le_fieldsHeight hField) hj
          rw [← hObject fields]
          exact exists_readFields_iff hRequired (hTakes room) hFields []
            schema.initial

end Schema

end GraphBag
