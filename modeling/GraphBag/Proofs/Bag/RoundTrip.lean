import GraphBag.Bag.Reader
import GraphBag.Bag.Writer
import GraphBag.Proofs.Json.Reading
import GraphBag.Proofs.OrderedMap
import GraphBag.Proofs.Value.RoundTrip

/-
  Bags read back from their JSON text.

  Main declarations:
    * `Field.Unreserved`
    * `Bag.fields`, `Bag.values`
    * `Bag.read_toJson`
    * `Bag.parse_render`
-/

namespace GraphBag

------------------------------------------------------------
-- Fields and Names
------------------------------------------------------------

/- A data field is not spelled like a meta-field. -/
def Field.Unreserved (f : Field) : Prop :=
  ∀ name, f = .data name → ∀ m : MetaField, name ≠ m.reservedName

/- A meta-field is found by its reserved name. -/
theorem MetaField.ofReservedName?_reservedName (m : MetaField) :
    MetaField.ofReservedName? m.reservedName = some m := by
  cases m <;> decide

/- A field is found by its name unless it takes a reserved one. -/
theorem Field.ofName_name
    {f : Field}
    (hf : f.Unreserved) :
    Field.ofName f.name = f := by
  cases f with
  | ofMeta m =>
      simp [Field.ofName, Field.name, MetaField.ofReservedName?_reservedName]
  | data name =>
      have hNone : MetaField.ofReservedName? name = none := by
        rw [MetaField.ofReservedName?, List.find?_eq_none]
        intro m _
        simpa using (hf name rfl m).symm
      simp [Field.ofName, Field.name, hNone]

/- Only a data field under a reserved name is not found. -/
theorem Field.unreserved_iff (f : Field) :
    f.Unreserved ↔ Field.ofName f.name = f := by
  constructor
  · exact Field.ofName_name
  · intro hName name hf m hReserved
    subst hf hReserved
    simp [Field.ofName, Field.name,
      MetaField.ofReservedName?_reservedName] at hName

instance (f : Field) : Decidable f.Unreserved :=
  decidable_of_iff _ (Field.unreserved_iff f).symm

/- A field is read back from its name. -/
theorem Field.readsBack
    {f : Field}
    (hf : f.Unreserved) :
    Reader.ReadsBack Field.read Field.toJson f := by
  intro room _
  have hName := Field.ofName_name hf
  simp [Field.read, Field.toJson, Json.toNode, Reader.string,
    Except.map, hName]

/- A value with ordered maps is read back. -/
theorem Value.readsBack
    {v : Value}
    (hv : v.Ordered) :
    Reader.ReadsBack Value.read Value.toJson v := by
  intro room hRoom
  simp [Value.read, Reader.json_toNode hRoom, Except.map,
    Value.ofJson_toJson hv]

theorem CommandKind.read_name (c : CommandKind) (room : Nat) :
    CommandKind.read room (Json.string c.name).toNode = .ok c := by
  apply Reader.choice_name
  cases c <;> decide

theorem Format.read_name (f : Format) (room : Nat) :
    Format.read room (Json.string f.name).toNode = .ok f := by
  apply Reader.choice_name
  cases f <;> decide

theorem Operator.read_name (o : Operator) (room : Nat) :
    Operator.read room (Json.string o.name).toNode = .ok o := by
  apply Reader.choice_name
  cases o <;> decide

theorem Conjunction.read_name (c : Conjunction) (room : Nat) :
    Conjunction.read room (Json.string c.name).toNode = .ok c := by
  apply Reader.choice_name
  cases c <;> decide

theorem Direction.read_name (d : Direction) (room : Nat) :
    Direction.read room (Json.string d.name).toNode = .ok d := by
  apply Reader.choice_name
  cases d <;> decide

------------------------------------------------------------
-- Constraints and Sort Keys
------------------------------------------------------------

/- A constraint is read back from its object. -/
theorem Constraint.readsBack
    {c : Constraint}
    (hField : c.field.Unreserved)
    (hValue : c.value.Ordered) :
    Reader.ReadsBack Constraint.read Constraint.toJson c := by
  intro room hRoom
  cases room with
  | zero => simp [Constraint.toJson, Json.height] at hRoom
  | succ room =>
      have hHeight : c.value.toJson.height ≤ room := by
        simp only [Constraint.toJson, Json.height,
          Json.height.fieldsHeight] at hRoom
        omega
      have hFieldRead :
          Field.read room c.field.toJson.toNode = .ok c.field :=
        Field.readsBack hField room (Nat.zero_le room)
      have hValueRead := Value.readsBack hValue room hHeight
      have hOperatorRead := c.operator.read_name room
      have hConjunctionRead := c.conjunction.read_name room
      have hSetField :
          Constraint.schema.set "field" room c.field.toJson.toNode
              Constraint.schema.initial =
            .ok (.equals c.field .null) := by
        simp [Constraint.schema, Constraint.set, hFieldRead,
          Constraint.equals, bind, Except.bind]
      have hSetOperator :
          Constraint.schema.set "operator" room
              (Json.string c.operator.name).toNode
              (.equals c.field .null) =
            .ok ⟨c.field, c.operator, .null, .and⟩ := by
        simp [Constraint.schema, Constraint.set, hOperatorRead,
          Constraint.equals, bind, Except.bind]
      have hSetValue :
          Constraint.schema.set "value" room c.value.toJson.toNode
              ⟨c.field, c.operator, .null, .and⟩ =
            .ok ⟨c.field, c.operator, c.value, .and⟩ := by
        simp [Constraint.schema, Constraint.set, hValueRead, bind,
          Except.bind]
      have hSetConjunction :
          Constraint.schema.set "conjunction" room
              (Json.string c.conjunction.name).toNode
              ⟨c.field, c.operator, c.value, .and⟩ = .ok c := by
        simp [Constraint.schema, Constraint.set, hConjunctionRead,
          bind, Except.bind]
      change Constraint.schema.readFields room true []
        Constraint.schema.initial
        [(.text "field", c.field.toJson.toNode),
         (.text "operator", (Json.string c.operator.name).toNode),
         (.text "value", c.value.toJson.toNode),
         (.text "conjunction",
           (Json.string c.conjunction.name).toNode)] = .ok c
      rw [Schema.readFields_cons (by decide) (by decide) hSetField,
        Schema.readFields_cons (by decide) (by decide) hSetOperator,
        Schema.readFields_cons (by decide) (by decide) hSetValue,
        Schema.readFields_cons (by decide) (by decide) hSetConjunction]
      rfl

/- A sort key is read back from its object. -/
theorem SortKey.readsBack
    {k : SortKey}
    (hField : k.field.Unreserved) :
    Reader.ReadsBack SortKey.read SortKey.toJson k := by
  intro room hRoom
  cases room with
  | zero => simp [SortKey.toJson, Json.height] at hRoom
  | succ room =>
      have hFieldRead :
          Field.read room k.field.toJson.toNode = .ok k.field :=
        Field.readsBack hField room (Nat.zero_le room)
      have hDirectionRead := k.direction.read_name room
      have hSetField :
          SortKey.schema.set "field" room k.field.toJson.toNode
              SortKey.schema.initial =
            .ok ⟨k.field, .asc⟩ := by
        simp [SortKey.schema, SortKey.set, hFieldRead, bind,
          Except.bind]
      have hSetDirection :
          SortKey.schema.set "direction" room
              (Json.string k.direction.name).toNode
              ⟨k.field, .asc⟩ = .ok k := by
        simp [SortKey.schema, SortKey.set, hDirectionRead, bind,
          Except.bind]
      change SortKey.schema.readFields room true []
        SortKey.schema.initial
        [(.text "field", k.field.toJson.toNode),
         (.text "direction",
           (Json.string k.direction.name).toNode)] = .ok k
      rw [Schema.readFields_cons (by decide) (by decide) hSetField,
        Schema.readFields_cons (by decide) (by decide) hSetDirection]
      rfl

------------------------------------------------------------
-- Data
------------------------------------------------------------

namespace Bag

/- Fields are found again from their names, entry by entry. -/
theorem map_ofName_name
    {entries : List (Field × Value)}
    (h : ∀ entry ∈ entries, entry.1.Unreserved) :
    (entries.map fun x => (x.1.name, x.2)).map
        (fun (key, value) => (Field.ofName key, value)) =
      entries := by
  rw [List.map_map]
  conv_rhs => rw [← List.map_id entries]
  apply List.map_congr_left
  intro entry hEntry
  simp [Field.ofName_name (h entry hEntry)]

/- The data of a bag is read back, in order. -/
theorem readData_toJson
    {data : OrderedMap Field Value}
    (h :
      ∀ entry ∈ data.entries,
        entry.1.Unreserved ∧ entry.2.Ordered)
    {room : Nat}
    (hRoom : (dataToJson data).height ≤ room) :
    readData room (dataToJson data).toNode = .ok data := by
  have hValues :
      ∀ entry ∈ data.entries,
        Reader.ReadsBack Value.read Value.toJson entry.2 := by
    intro entry hEntry
    exact Value.readsBack (h entry hEntry).2
  have hEntries := Reader.entries_map Field.name hValues hRoom
  have hNames :=
    map_ofName_name fun entry hEntry => (h entry hEntry).1
  unfold readData dataToJson
  rw [hEntries, Except.map, hNames, OrderedMap.ofList_entries]

------------------------------------------------------------
-- Limits
------------------------------------------------------------

/- A limit is read back over its whole range. -/
theorem readLimit_toJson
    (limit : Option UInt64)
    (room : Nat) :
    Reader.optional (Reader.natural UInt64.size "u64") room
        (limitToJson limit).toNode =
      .ok (limit.map UInt64.toNat) := by
  cases limit with
  | none => rfl
  | some n =>
      have hRead :=
        Reader.natural_int n.toNat_lt_size "u64" room
      have hOptional :
          Reader.optional (Reader.natural UInt64.size "u64") room
              (Json.int n.toNat).toNode =
            (Reader.natural UInt64.size "u64" room
              (Json.int n.toNat).toNode).map some :=
        rfl
      rw [limitToJson, hOptional, hRead]
      rfl

------------------------------------------------------------
-- Bags from Their Parts
------------------------------------------------------------

/- A bag is read back when each of its eight parts is. -/
theorem readFields_parts
    {readBag : Reader Bag}
    {room : Nat}
    {b : Bag}
    (hConstraints :
      Reader.sequence Constraint.read room
          (Json.array (b.constraints.map Constraint.toJson)).toNode =
        .ok b.constraints)
    (hData : readData room (dataToJson b.data).toNode = .ok b.data)
    (hProjections :
      Reader.sequence Field.read room
          (Json.array (b.projections.map Field.toJson)).toNode =
        .ok b.projections)
    (hTarget :
      Reader.optional (Target.read readBag) room
          (targetToJson b.target).toNode =
        .ok b.target)
    (hOrder :
      Reader.sequence SortKey.read room
          (Json.array (b.orderBy.map SortKey.toJson)).toNode =
        .ok b.orderBy) :
    (schema readBag).object (room + 1) b.toJson.toNode = .ok b := by
  have hSetCommand :
      ∀ x, (schema readBag).set "command" room
          (Json.string b.command.name).toNode x =
        .ok { x with command := b.command } := by
    intro x
    simp [schema, Bag.set, b.command.read_name room, bind, Except.bind]
  have hSetConstraints :
      ∀ x, (schema readBag).set "where" room
          (Json.array (b.constraints.map Constraint.toJson)).toNode x =
        .ok { x with constraints := b.constraints } := by
    intro x
    simp [schema, Bag.set, hConstraints, bind, Except.bind]
  have hSetData :
      ∀ x, (schema readBag).set "data" room
          (dataToJson b.data).toNode x =
        .ok { x with data := b.data } := by
    intro x
    simp [schema, Bag.set, hData, bind, Except.bind]
  have hSetProjections :
      ∀ x, (schema readBag).set "projections" room
          (Json.array (b.projections.map Field.toJson)).toNode x =
        .ok { x with projections := b.projections } := by
    intro x
    simp [schema, Bag.set, hProjections, bind, Except.bind]
  have hSetTarget :
      ∀ x, (schema readBag).set "target" room
          (targetToJson b.target).toNode x =
        .ok { x with target := b.target } := by
    intro x
    simp [schema, Bag.set, hTarget, bind, Except.bind]
  have hSetLimit :
      ∀ x, (schema readBag).set "limit" room
          (limitToJson b.limit).toNode x =
        .ok { x with limit := b.limit } := by
    intro x
    have hLimit :
        (b.limit.map UInt64.toNat).map UInt64.ofNat = b.limit := by
      cases b.limit with
      | none => rfl
      | some n => simp
    simp only [schema, Bag.set, readLimit_toJson, bind, Except.bind,
      hLimit]
    rfl
  have hSetOrder :
      ∀ x, (schema readBag).set "order_by" room
          (Json.array (b.orderBy.map SortKey.toJson)).toNode x =
        .ok { x with orderBy := b.orderBy } := by
    intro x
    simp [schema, Bag.set, hOrder, bind, Except.bind]
  have hSetFormat :
      ∀ x, (schema readBag).set "format" room
          (Json.string b.format.name).toNode x =
        .ok { x with format := b.format } := by
    intro x
    simp [schema, Bag.set, b.format.read_name room, bind, Except.bind]
  have hNode :
      (schema readBag).object (room + 1) b.toJson.toNode =
        (schema readBag).readFields room true [] {}
          [(.text "command", (Json.string b.command.name).toNode),
           (.text "where",
             (Json.array
               (b.constraints.map Constraint.toJson)).toNode),
           (.text "data", (dataToJson b.data).toNode),
           (.text "projections",
             (Json.array (b.projections.map Field.toJson)).toNode),
           (.text "target", (targetToJson b.target).toNode),
           (.text "limit", (limitToJson b.limit).toNode),
           (.text "order_by",
             (Json.array (b.orderBy.map SortKey.toJson)).toNode),
           (.text "format", (Json.string b.format.name).toNode)] := by
    rcases b with ⟨_, _, _, _, _, _, _, _⟩
    rfl
  rw [hNode,
    Schema.readFields_cons (by simp [schema]) (by decide) (hSetCommand _),
    Schema.readFields_cons (by simp [schema]) (by decide)
      (hSetConstraints _),
    Schema.readFields_cons (by simp [schema]) (by decide) (hSetData _),
    Schema.readFields_cons (by simp [schema]) (by decide)
      (hSetProjections _),
    Schema.readFields_cons (by simp [schema]) (by decide) (hSetTarget _),
    Schema.readFields_cons (by simp [schema]) (by decide) (hSetLimit _),
    Schema.readFields_cons (by simp [schema]) (by decide) (hSetOrder _),
    Schema.readFields_cons (by simp [schema]) (by decide) (hSetFormat _)]
  rcases b with ⟨_, _, _, _, _, _, _, _⟩
  rfl

------------------------------------------------------------
-- All Fields and Values of a Bag
------------------------------------------------------------

mutual

/- The fields a bag and the bags inside it speak of. -/
def fields : Bag → List Field
  | ⟨_, constraints, data, projections, target, _, orderBy, _⟩ =>
      constraints.map (·.field) ++ data.entries.map (·.1) ++
        projections ++ orderBy.map (·.field) ++ targetFields target

/- The fields of a target. -/
def targetFields : Option Target → List Field
  | some (.embedded bag) => bag.fields
  | _ => []

end

mutual

/- The values in a bag and in the bags inside it. -/
def values : Bag → List Value
  | ⟨_, constraints, data, _, target, _, _, _⟩ =>
      constraints.map (·.value) ++ data.entries.map (·.2) ++
        targetValues target

/- The values of a target. -/
def targetValues : Option Target → List Value
  | some (.embedded bag) => bag.values
  | _ => []

end

mutual

/- A bag that fits in the room is read back from its tree. -/
theorem read_toJson :
    ∀ {b : Bag} {room : Nat},
      (∀ f ∈ b.fields, f.Unreserved) →
      (∀ v ∈ b.values, v.Ordered) →
      b.toJson.height ≤ room →
        Bag.read room b.toJson.toNode = .ok b
  | ⟨command, constraints, data, projections, target, limit, orderBy,
      format⟩, room, hFields, hValues, hRoom => by
      cases room with
      | zero => simp [toJson, Json.height] at hRoom
      | succ room =>
          simp only [fields, List.forall_mem_append,
            List.forall_mem_map] at hFields
          simp only [values, List.forall_mem_append,
            List.forall_mem_map] at hValues
          simp only [toJson, Json.height, Json.height.fieldsHeight,
            Nat.add_le_add_iff_right, Nat.max_le] at hRoom
          obtain ⟨⟨⟨⟨hWhereFields, hDataFields⟩, hProjectionFields⟩,
            hOrderFields⟩, hTargetFields⟩ := hFields
          obtain ⟨⟨hWhereValues, hDataValues⟩, hTargetValues⟩ := hValues
          obtain ⟨-, hWhere, hData, hProjections, hTarget, -, hOrder, -⟩ :=
            hRoom
          apply readFields_parts
          · apply Reader.sequence_map _ hWhere
            intro c hc
            exact Constraint.readsBack (hWhereFields c hc)
              (hWhereValues c hc)
          · apply readData_toJson _ hData
            intro entry hEntry
            exact ⟨hDataFields entry hEntry, hDataValues entry hEntry⟩
          · apply Reader.sequence_map _ hProjections
            intro f hf
            exact Field.readsBack (hProjectionFields f hf)
          · exact readTarget_toJson hTargetFields hTargetValues hTarget
          · apply Reader.sequence_map _ hOrder
            intro k hk
            exact SortKey.readsBack (hOrderFields k hk)

/- So is the target of a bag. -/
theorem readTarget_toJson :
    ∀ {target : Option Target} {room : Nat},
      (∀ f ∈ targetFields target, f.Unreserved) →
      (∀ v ∈ targetValues target, v.Ordered) →
      (targetToJson target).height ≤ room →
        Reader.optional (Target.read fun _ => Bag.read room) room
          (targetToJson target).toNode = .ok target
  | none, _, _, _, _ => rfl
  | some (.named name), room, _, _, hRoom => by
      have hJson := Reader.json_toNode hRoom
      simp only [targetToJson, Json.toNode] at hJson ⊢
      simp [Reader.optional, Target.read, hJson, bind, Except.bind,
        Except.map]
  | some (.embedded bag), room, hFields, hValues, hRoom => by
      have hJson := Reader.json_toNode hRoom
      have hBag : Bag.read room bag.toJson.toNode = .ok bag :=
        read_toJson hFields hValues hRoom
      rcases bag with ⟨_, _, _, _, _, _, _, _⟩
      simp only [targetToJson, toJson, Json.toNode] at hJson hBag ⊢
      simp [Reader.optional, Target.read, hJson, hBag, bind,
        Except.bind, Except.map]

end

------------------------------------------------------------
-- Bag Texts
------------------------------------------------------------

/- An array of written parts can be written when each part can. -/
theorem writable_array
    {α : Type}
    {write : α → Json}
    {xs : List α}
    (h : ∀ x ∈ xs, (write x).Writable) :
    (Json.array (xs.map write)).Writable := by
  rw [Json.Writable, Json.writableItems_iff, List.forall_mem_map]
  exact h

/- The JSON form of data with finite numbers can be written. -/
theorem writable_dataToJson
    {data : OrderedMap Field Value}
    (h : ∀ entry ∈ data.entries, entry.2.Finite) :
    (dataToJson data).Writable := by
  rw [dataToJson, Json.Writable, Json.writableFields_iff,
    List.forall_mem_map]
  intro entry hEntry
  exact Value.writable_toJson (h entry hEntry)

/- Every limit can be written. -/
theorem writable_limitToJson (limit : Option UInt64) :
    (limitToJson limit).Writable := by
  cases limit with
  | none => trivial
  | some n =>
      have hHigh := n.toNat_lt_size
      refine ⟨?_, ?_⟩
      · exact Int.le_trans (by decide) (Int.natCast_nonneg n.toNat)
      · exact_mod_cast hHigh

mutual

/- The JSON form of a bag with finite numbers can be written. -/
theorem writable_toJson :
    ∀ {b : Bag}, (∀ v ∈ b.values, v.Finite) → b.toJson.Writable
  | ⟨command, constraints, data, projections, target, limit, orderBy,
      format⟩, h => by
      simp only [values, List.forall_mem_append,
        List.forall_mem_map] at h
      obtain ⟨⟨hWhere, hData⟩, hTarget⟩ := h
      have hConstraints :
          ∀ c ∈ constraints, c.toJson.Writable := by
        intro c hc
        exact ⟨trivial, trivial,
          Value.writable_toJson (hWhere c hc), trivial, trivial⟩
      have hProjections :
          ∀ f ∈ projections, (Field.toJson f).Writable := by
        intro f _
        exact trivial
      have hOrder : ∀ k ∈ orderBy, k.toJson.Writable := by
        intro k _
        exact ⟨trivial, trivial, trivial⟩
      exact ⟨trivial, writable_array hConstraints,
        writable_dataToJson hData, writable_array hProjections,
        writable_targetToJson hTarget, writable_limitToJson limit,
        writable_array hOrder, trivial, trivial⟩

theorem writable_targetToJson :
    ∀ {target : Option Target},
      (∀ v ∈ targetValues target, v.Finite) →
        (targetToJson target).Writable
  | none, _ => trivial
  | some (.named _), _ => trivial
  | some (.embedded _), h => writable_toJson h

end

/-
  A bag is read back from its text: the data fields are not
  spelled like meta-fields, the numbers are finite, the maps are
  in order as all maps the library builds are, and less than 128
  arrays and objects stand inside each other.
-/
theorem parse_render
    {b : Bag}
    (hFields : ∀ f ∈ b.fields, f.Unreserved)
    (hFinite : ∀ v ∈ b.values, v.Finite)
    (hOrdered : ∀ v ∈ b.values, v.Ordered)
    (hNesting : b.toJson.height < 128) :
    Bag.parse b.render = .ok b := by
  unfold Bag.parse render
  rw [Reader.run_render Bag.read (writable_toJson hFinite)]
  exact read_toJson hFields hOrdered (Nat.le_of_lt_succ hNesting)

/- An update of what a retrieve finds, with values of every kind. -/
def nestedUpdate : Bag where
  command := .update
  constraints :=
    [⟨.data "tags", .within,
      .list [.string "a\"b", .null, .map [("k", .bool true)]], .or⟩]
  data := .ofList
    [(.data "weight", .float (.finite true ⟨6755399441055744, 1022,
        by decide⟩)),
     (.ofMeta .id, .int Int64.minValue)]
  projections := [.ofMeta .label, .data "name"]
  target := some (.embedded { target := some (.named "V") })
  limit := some 18446744073709551615
  orderBy := [⟨.data "name", .desc⟩]
  format := .tree

theorem parse_render_nestedUpdate :
    nestedUpdate.toJson.height < 128 ∧
      Bag.parse nestedUpdate.render = .ok nestedUpdate := by
  have hFields : ∀ f ∈ nestedUpdate.fields, f.Unreserved := by
    decide
  have hFinite : ∀ v ∈ nestedUpdate.values, v.Finite := by
    decide
  have hOrdered : ∀ v ∈ nestedUpdate.values, v.Ordered := by
    have hValues :
        nestedUpdate.values =
          [.list [.string "a\"b", .null, .map [("k", .bool true)]],
           .float (.finite true ⟨6755399441055744, 1022, by decide⟩),
           .int Int64.minValue] := by
      decide
    rw [hValues]
    simp [Value.Ordered, Value.OrderedItems, Value.OrderedEntries]
  have hNesting : nestedUpdate.toJson.height < 128 := by
    decide
  exact ⟨hNesting, parse_render hFields hFinite hOrdered hNesting⟩

end Bag

end GraphBag
