import GraphBag.Proofs.Bag.RoundTrip
import GraphBag.Proofs.Decimal.Nearest
import GraphBag.Proofs.Json.Nesting
import GraphBag.Proofs.Json.Shapes
import GraphBag.Proofs.OrderedMap

/-
  What is read is well formed.  However a text spells a bag, the
  bag that is read from it has no data field under a reserved
  name, only finite numbers and only maps in order, and its JSON
  form is at most one level higher than the text is nested.

  Main declarations:
    * `Value.finite_ofJson`
    * `Reader.Gives`
    * `Schema.Keeps`
    * `Bag.Settled`
    * `Bag.settled_of_parse`
-/

namespace GraphBag

------------------------------------------------------------
-- Values
------------------------------------------------------------

namespace Value

/- An integer of at most 64 bits is near a finite number. -/
theorem isFinite_floatOfInt
    {n : Int}
    (h : n.natAbs < UInt64.size) :
    (floatOfInt n).isFinite = true := by
  rcases Decimal.exists_nearest_whole h with ⟨x, hx⟩
  rw [floatOfInt, Binary64.ofDecimal?, hx]
  rfl

/- A scalar that can be written has a finite value. -/
theorem finite_ofScalar
    {s : Scalar}
    (hs : s.Writable) :
    (ofScalar s).Finite := by
  cases s with
  | int n =>
      rw [ofScalar]
      split
      · trivial
      · apply isFinite_floatOfInt
        have hLow : Int64.minValue.toInt = -2 ^ 63 := by
          decide
        have hRange := hs
        rw [Scalar.Writable, hLow] at hRange
        simp only [UInt64.size] at hRange ⊢
        omega
  | float x => exact hs
  | null | bool | string => trivial

/- It has no parts. -/
theorem height_ofScalar (s : Scalar) :
    (ofScalar s).toJson.height = 0 := by
  cases s with
  | int n =>
      rw [ofScalar]
      split
      · rfl
      · rfl
  | null | bool | float | string => rfl

/- Entries are finite exactly when each of their values is. -/
theorem finiteEntries_iff
    (entries : List (String × Value)) :
    FiniteEntries entries ↔ ∀ entry ∈ entries, entry.2.Finite := by
  induction entries with
  | nil => simp [FiniteEntries]
  | cons entry rest ih =>
      rcases entry with ⟨key, value⟩
      simp [FiniteEntries, ih]

/- The JSON forms of entries under their keys. -/
theorem entriesToJson_eq_map
    (entries : List (String × Value)) :
    entriesToJson entries =
      entries.map fun (key, value) => (key, value.toJson) := by
  induction entries with
  | nil => rfl
  | cons entry rest ih =>
      rcases entry with ⟨key, value⟩
      simp [entriesToJson, ih]

/-
  All numbers are finite, all maps are in order, and at most
  `height` lists and maps stand inside each other.
-/
structure Settled (height : Nat) (v : Value) : Prop where
  finite : v.Finite
  ordered : v.Ordered
  nesting : v.toJson.height ≤ height

mutual

/-
  The value of a tree that can be written is finite and no
  higher than the tree.
-/
theorem finite_ofJson :
    ∀ {j : Json}, j.Writable →
      (ofJson j).Finite ∧ (ofJson j).toJson.height ≤ j.height
  | .scalar s, h =>
      ⟨finite_ofScalar h, Nat.le_of_eq (height_ofScalar s)⟩
  | .array items, h => by
      rcases finite_itemsOfJson h with ⟨hFinite, hHeight⟩
      exact ⟨hFinite, Nat.succ_le_succ hHeight⟩
  | .object fields, h => by
      have hEntries := finite_entriesOfJson h
      constructor
      · rw [ofJson, mapOf, Finite, finiteEntries_iff]
        intro entry hEntry
        exact (hEntries entry (Entries.mem_of_mem_sorted hEntry)).1
      · rw [ofJson, mapOf, toJson, Json.height, Json.height,
          entriesToJson_eq_map]
        apply Nat.succ_le_succ
        apply Json.fieldsHeight_le
        rw [List.forall_mem_map]
        intro entry hEntry
        exact (hEntries entry (Entries.mem_of_mem_sorted hEntry)).2

theorem finite_itemsOfJson :
    ∀ {items : List Json}, Json.WritableItems items →
      FiniteItems (itemsOfJson items) ∧
        Json.height.itemsHeight (itemsToJson (itemsOfJson items)) ≤
          Json.height.itemsHeight items
  | [], _ => ⟨trivial, Nat.le_refl 0⟩
  | item :: rest, h => by
      rcases finite_ofJson h.1 with ⟨hFirst, hHeight⟩
      rcases finite_itemsOfJson h.2 with ⟨hRest, hHeights⟩
      refine ⟨⟨hFirst, hRest⟩, ?_⟩
      simp only [itemsOfJson, itemsToJson, Json.height.itemsHeight]
      omega

theorem finite_entriesOfJson :
    ∀ {fields : List (String × Json)}, Json.WritableFields fields →
      ∀ entry ∈ entriesOfJson fields,
        entry.2.Finite ∧
          entry.2.toJson.height ≤ Json.height.fieldsHeight fields
  | [], _ => by
      simp [entriesOfJson]
  | (key, value) :: rest, h => by
      rcases finite_ofJson h.1 with ⟨hFirst, hHeight⟩
      have hRest := finite_entriesOfJson h.2
      simp only [entriesOfJson, Json.height.fieldsHeight,
        List.forall_mem_cons]
      refine ⟨⟨hFirst, by omega⟩, ?_⟩
      intro entry hEntry
      have hEntry := hRest entry hEntry
      exact ⟨hEntry.1, by omega⟩

end

end Value

------------------------------------------------------------
-- Readers
------------------------------------------------------------

namespace Reader

variable {α : Type}

/-
  What a reader gives has a property, which may depend on the
  height of the node it is read from.
-/
def Gives (read : Reader α) (P : Nat → α → Prop) : Prop :=
  ∀ ⦃height room : Nat⦄ ⦃node : Node⦄ ⦃x : α⦄,
    node.Within height → read room node = .ok x → P height x

/- A tree that is read can be written and is no higher. -/
theorem gives_json :
    Gives json fun height j => j.Writable ∧ j.height ≤ height := by
  intro height room node j hNode hRead
  unfold json at hRead
  cases hStrict : node.strict? room with
  | none =>
      rw [hStrict] at hRead
      cases hRead
  | some tree =>
      rw [hStrict] at hRead
      cases hRead
      exact Node.within_strict? hNode hStrict

/- The items of a sequence are read one level further in. -/
theorem Gives.sequence
    {read : Reader α}
    {P : Nat → α → Prop}
    (h : Gives read P) :
    Gives (Reader.sequence read) fun height xs =>
      ∀ x ∈ xs, ∃ inner < height, P inner x := by
  intro height room node xs hNode hRead x hx
  unfold Reader.sequence at hRead
  split at hRead
  · rename_i room items closed
    cases hNode with
    | array hItems =>
        rw [bind_eq_ok_iff] at hRead
        rcases hRead with ⟨ys, hRead, hClosed⟩
        rcases closed with _ | _
        · cases hClosed
        · cases hClosed
          rcases exists_mem_of_forall₂ (mapM_eq_ok_iff.mp hRead) hx with
            ⟨item, hItem, hValue⟩
          exact ⟨_, Nat.lt_succ_self _, h (hItems item hItem) hValue⟩
  · cases hRead
  · exact absurd hRead mismatch_ne_ok

/- So are the values of an object. -/
theorem Gives.entries
    {read : Reader α}
    {P : Nat → α → Prop}
    (h : Gives read P) :
    Gives (Reader.entries read) fun height xs =>
      ∀ x ∈ xs, ∃ inner < height, P inner x.2 := by
  intro height room node xs hNode hRead x hx
  unfold Reader.entries at hRead
  split at hRead
  · rename_i room fields closed
    cases hNode with
    | object hFields =>
        rw [bind_eq_ok_iff] at hRead
        rcases hRead with ⟨ys, hRead, hClosed⟩
        rcases closed with _ | _
        · cases hClosed
        · cases hClosed
          rcases exists_mem_of_forall₂ (mapM_eq_ok_iff.mp hRead) hx with
            ⟨field, hField, hValue⟩
          split at hValue
          · rcases map_eq_ok_iff.mp hValue with ⟨y, hy, rfl⟩
            exact ⟨_, Nat.lt_succ_self _, h (hFields _ hField) hy⟩
          · cases hValue
  · cases hRead
  · exact absurd hRead mismatch_ne_ok

end Reader

------------------------------------------------------------
-- Records
------------------------------------------------------------

namespace Schema

variable {α : Type}

/-
  A property holds of the record at the start and is kept
  whenever a field is set.
-/
structure Keeps (schema : Schema α) (P : Nat → α → Prop) : Prop where
  initial : ∀ height, P height schema.initial
  set :
    ∀ {height room : Nat} {name : String} {node : Node} {x y : α},
      node.Within height → P height x →
        schema.set name room node x = .ok y → P height y

namespace Keeps

variable {schema : Schema α} {P : Nat → α → Prop}

/- It then holds of what is read from the fields of an object. -/
theorem readFields
    (h : schema.Keeps P)
    {height room : Nat}
    {closed : Bool}
    {seen : List String}
    {fields : List (Key × Node)}
    {x y : α}
    (hFields : ∀ field ∈ fields, field.2.Within height)
    (hx : P height x)
    (hRead : schema.readFields room closed seen x fields = .ok y) :
    P height y := by
  induction fields generalizing seen x with
  | nil =>
      rw [Schema.readFields, finish] at hRead
      split at hRead
      · split at hRead
        · cases hRead
          exact hx
        · cases hRead
      · cases hRead
  | cons field rest ih =>
      rcases field with ⟨key, node⟩
      rw [List.forall_mem_cons] at hFields
      cases key with
      | flawed => cases hRead
      | text name =>
          rw [Schema.readFields] at hRead
          split at hRead
          · split at hRead
            · cases hRead
            · rw [bind_eq_ok_iff] at hRead
              rcases hRead with ⟨next, hSet, hRead⟩
              exact ih hFields.2 (h.set hFields.1 hx hSet) hRead
          · split at hRead
            · split at hRead
              -- A key that is not known is passed over, and so is
              -- what it holds, faults and all.
              · exact ih hFields.2 hx hRead
              · cases hRead
            · cases hRead

/- And of what is read from the items of an array. -/
theorem readItems
    (h : schema.Keeps P)
    {height room count : Nat}
    {closed : Bool}
    {names : List String}
    {items : List Node}
    {x y : α}
    (hItems : ∀ item ∈ items, item.Within height)
    (hx : P height x)
    (hRead : schema.readItems room closed count names x items = .ok y) :
    P height y := by
  induction items generalizing count names x with
  | nil =>
      rw [Schema.readItems] at hRead
      split at hRead
      · cases hRead
      · split at hRead
        · cases hRead
        · cases hRead
          exact hx
  | cons item rest ih =>
      rw [List.forall_mem_cons] at hItems
      cases names with
      | nil => cases hRead
      | cons name names =>
          rw [Schema.readItems, bind_eq_ok_iff] at hRead
          rcases hRead with ⟨next, hSet, hRead⟩
          exact ih hItems.2 (h.set hItems.1 hx hSet) hRead

/- So it holds of a record that is read from an object. -/
theorem object (h : schema.Keeps P) :
    Reader.Gives schema.object fun height x =>
      ∃ inner < height, P inner x := by
  intro height room node x hNode hRead
  unfold Schema.object at hRead
  split at hRead
  · cases hNode with
    | object hFields =>
        exact ⟨_, Nat.lt_succ_self _,
          h.readFields hFields (h.initial _) hRead⟩
  · cases hRead
  · exact absurd hRead Reader.mismatch_ne_ok

/- And of one that may also be written as an array. -/
theorem record (h : schema.Keeps P) :
    Reader.Gives schema.record fun height x =>
      ∃ inner < height, P inner x := by
  intro height room node x hNode hRead
  unfold Schema.record at hRead
  split at hRead
  · cases hNode with
    | array hItems =>
        exact ⟨_, Nat.lt_succ_self _,
          h.readItems hItems (h.initial _) hRead⟩
  · cases hRead
  · exact h.object hNode hRead

end Keeps

end Schema

------------------------------------------------------------
-- Parts of a Bag
------------------------------------------------------------

/- No name is read as a data field that is reserved. -/
theorem Field.unreserved_ofName (name : String) :
    (Field.ofName name).Unreserved := by
  rw [Field.unreserved_iff]
  cases hName : MetaField.ofReservedName? name with
  | none => simp [Field.ofName, Field.name, hName]
  | some m =>
      simp [Field.ofName, Field.name, hName,
        MetaField.ofReservedName?_reservedName]

theorem Field.gives_read :
    Reader.Gives Field.read fun _ f => f.Unreserved := by
  intro height room node f _ hRead
  rcases map_eq_ok_iff.mp hRead with ⟨name, _, rfl⟩
  exact Field.unreserved_ofName name

theorem Value.gives_read :
    Reader.Gives Value.read Value.Settled := by
  intro height room node v hNode hRead
  rcases map_eq_ok_iff.mp hRead with ⟨j, hJson, rfl⟩
  rcases Reader.gives_json hNode hJson with ⟨hWritable, hHeight⟩
  rcases Value.finite_ofJson hWritable with ⟨hFinite, hLess⟩
  exact ⟨hFinite, Value.ordered_ofJson j, Nat.le_trans hLess hHeight⟩

/- The field is not misnamed and the value is well formed. -/
structure Constraint.Settled
    (height : Nat)
    (c : Constraint) : Prop where
  field : c.field.Unreserved
  value : c.value.Settled height

/- A constraint is well formed whenever a field of it is set. -/
theorem Constraint.keeps_schema :
    Constraint.schema.Keeps Constraint.Settled where
  initial := by
    intro height
    exact ⟨by decide, trivial, trivial, Nat.zero_le height⟩
  set := by
    intro height room name node x y hNode hx hSet
    simp only [Constraint.schema, Constraint.set] at hSet
    split_ifs at hSet
    · rcases bind_eq_ok_iff.mp hSet with ⟨f, hField, hy⟩
      cases hy
      exact ⟨Field.gives_read hNode hField, hx.value⟩
    · rcases bind_eq_ok_iff.mp hSet with ⟨_, _, hy⟩
      cases hy
      exact ⟨hx.field, hx.value⟩
    · rcases bind_eq_ok_iff.mp hSet with ⟨v, hValue, hy⟩
      cases hy
      exact ⟨hx.field, Value.gives_read hNode hValue⟩
    · rcases bind_eq_ok_iff.mp hSet with ⟨_, _, hy⟩
      cases hy
      exact ⟨hx.field, hx.value⟩

theorem SortKey.keeps_schema :
    SortKey.schema.Keeps fun _ k => k.field.Unreserved where
  initial := by
    intro height
    show (Field.data "").Unreserved
    decide
  set := by
    intro height room name node x y hNode hx hSet
    simp only [SortKey.schema, SortKey.set] at hSet
    split at hSet
    · rcases bind_eq_ok_iff.mp hSet with ⟨f, hField, hy⟩
      cases hy
      exact Field.gives_read hNode hField
    · rcases bind_eq_ok_iff.mp hSet with ⟨_, _, hy⟩
      cases hy
      exact hx

namespace Bag

/- Data is read under names that are not reserved. -/
theorem gives_readData :
    Reader.Gives readData fun height data =>
      ∀ entry ∈ data.entries,
        entry.1.Unreserved ∧
          ∃ inner < height, entry.2.Settled inner := by
  intro height room node data hNode hRead entry hEntry
  rcases map_eq_ok_iff.mp hRead with ⟨fields, hFields, rfl⟩
  have hMem := OrderedMap.mem_of_mem_ofList hEntry
  rcases List.mem_map.mp hMem with ⟨⟨name, value⟩, hField, rfl⟩
  exact ⟨Field.unreserved_ofName name,
    Value.gives_read.entries hNode hFields (name, value) hField⟩

------------------------------------------------------------
-- Bags
------------------------------------------------------------

/-
  No data field has a reserved name, in the bag or in the bags
  inside; the values are well formed; and the JSON form, which
  has every list, is at most one level higher than `height`.
-/
structure Settled (height : Nat) (b : Bag) : Prop where
  fields : ∀ f ∈ b.fields, f.Unreserved
  values : ∀ v ∈ b.values, v.Finite ∧ v.Ordered
  nesting : b.toJson.height ≤ height + 1

/- The same of each part, read from nodes of at most `height`. -/
structure PartsSettled (height : Nat) (b : Bag) : Prop where
  constraints :
    ∀ c ∈ b.constraints,
      ∃ outer < height, ∃ inner < outer, c.Settled inner
  data :
    ∀ entry ∈ b.data.entries,
      entry.1.Unreserved ∧ ∃ inner < height, entry.2.Settled inner
  projections : ∀ f ∈ b.projections, f.Unreserved
  target :
    ∀ inside, b.target = some (.embedded inside) →
      inside.Settled height
  orderBy :
    ∀ k ∈ b.orderBy,
      ∃ outer < height, ∃ inner < outer, k.field.Unreserved

namespace PartsSettled

variable {height : Nat} {b : Bag}

/- The fields of a bag are those of its parts. -/
theorem fields (h : b.PartsSettled height) :
    ∀ f ∈ b.fields, f.Unreserved := by
  rcases b with
    ⟨_, constraints, data, projections, target, _, orderBy, _⟩
  simp only [Bag.fields, List.forall_mem_append, List.forall_mem_map]
  refine ⟨⟨⟨⟨?_, ?_⟩, h.projections⟩, ?_⟩, ?_⟩
  · intro c hc
    rcases h.constraints c hc with ⟨_, _, _, _, hSettled⟩
    exact hSettled.field
  · intro entry hEntry
    exact (h.data entry hEntry).1
  · intro k hk
    rcases h.orderBy k hk with ⟨_, _, _, _, hField⟩
    exact hField
  · rcases target with _ | name | inside
    · simp [targetFields]
    · simp [targetFields]
    · exact (h.target inside rfl).fields

/- So are its values. -/
theorem values (h : b.PartsSettled height) :
    ∀ v ∈ b.values, v.Finite ∧ v.Ordered := by
  rcases b with
    ⟨_, constraints, data, projections, target, _, orderBy, _⟩
  simp only [Bag.values, List.forall_mem_append, List.forall_mem_map]
  refine ⟨⟨?_, ?_⟩, ?_⟩
  · intro c hc
    rcases h.constraints c hc with ⟨_, _, _, _, hSettled⟩
    exact ⟨hSettled.value.finite, hSettled.value.ordered⟩
  · intro entry hEntry
    rcases (h.data entry hEntry).2 with ⟨_, _, hSettled⟩
    exact ⟨hSettled.finite, hSettled.ordered⟩
  · rcases target with _ | name | inside
    · simp [targetValues]
    · simp [targetValues]
    · exact (h.target inside rfl).values

/-
  The JSON form is one level higher than its highest part.  A
  list that is absent is written as an empty one, which takes a
  level that the text need not have.
-/
theorem nesting (h : b.PartsSettled height) :
    b.toJson.height ≤ height + 2 := by
  rcases b with
    ⟨_, constraints, data, projections, target, limit, orderBy, _⟩
  simp only [toJson, Json.height, Json.height.fieldsHeight,
    Nat.add_le_add_iff_right, Nat.max_le]
  refine ⟨Nat.zero_le _, ?_, ?_, ?_, ?_, ?_, ?_, Nat.zero_le _,
    Nat.zero_le _⟩
  · apply Json.itemsHeight_le
    rw [List.forall_mem_map]
    intro c hc
    rcases h.constraints c hc with
      ⟨outer, hOuter, inner, hInner, hSettled⟩
    have hValue := hSettled.value.nesting
    simp only [Constraint.toJson, Field.toJson, Json.height,
      Json.height.fieldsHeight]
    omega
  · apply Nat.succ_le_succ
    apply Json.fieldsHeight_le
    rw [List.forall_mem_map]
    intro entry hEntry
    rcases (h.data entry hEntry).2 with ⟨inner, hInner, hSettled⟩
    exact Nat.le_trans hSettled.nesting (Nat.le_of_lt hInner)
  · apply Json.itemsHeight_le
    rw [List.forall_mem_map]
    intro f _
    exact Nat.zero_le height
  · rcases target with _ | name | inside
    · exact Nat.zero_le _
    · exact Nat.zero_le _
    · exact (h.target inside rfl).nesting
  · cases limit with
    | none => exact Nat.zero_le _
    | some n => exact Nat.zero_le _
  · apply Json.itemsHeight_le
    rw [List.forall_mem_map]
    intro k hk
    rcases h.orderBy k hk with ⟨outer, hOuter, _, _, _⟩
    exact Nat.succ_le_of_lt (Nat.lt_of_le_of_lt (Nat.zero_le _) hOuter)

end PartsSettled

/- A target is read with the bag inside it. -/
theorem gives_target
    {readBag : Reader Bag}
    (h : Reader.Gives readBag Settled) :
    Reader.Gives (Reader.optional (Target.read readBag))
      fun height target =>
        ∀ inside, target = some (.embedded inside) →
          inside.Settled height := by
  intro height room node target hNode hRead inside hInside
  subst hInside
  unfold Reader.optional at hRead
  split at hRead
  · cases hRead
  · rcases map_eq_ok_iff.mp hRead with ⟨target, hRead, hTarget⟩
    cases hTarget
    rcases bind_eq_ok_iff.mp hRead with ⟨_, _, hRead⟩
    split at hRead
    · cases hRead
    · rename_i hBag
      cases hRead
      exact h hNode hBag
    · cases hRead

/- A bag is well formed whenever a part of it is set. -/
theorem keeps_schema
    {readBag : Reader Bag}
    (h : Reader.Gives readBag Settled) :
    (schema readBag).Keeps PartsSettled where
  initial := by
    intro height
    refine ⟨?_, ?_, ?_, ?_, ?_⟩
    all_goals simp [schema, OrderedMap.empty]
  set := by
    intro height room name node x y hNode hx hSet
    simp only [schema, Bag.set] at hSet
    split_ifs at hSet
    · rcases bind_eq_ok_iff.mp hSet with ⟨_, _, hy⟩
      cases hy
      exact { hx with }
    · rcases bind_eq_ok_iff.mp hSet with ⟨cs, hRead, hy⟩
      cases hy
      have hList := Constraint.keeps_schema.record.sequence hNode hRead
      exact { hx with constraints := hList }
    · rcases bind_eq_ok_iff.mp hSet with ⟨data, hRead, hy⟩
      cases hy
      exact { hx with data := gives_readData hNode hRead }
    · rcases bind_eq_ok_iff.mp hSet with ⟨fs, hRead, hy⟩
      cases hy
      refine { hx with projections := ?_ }
      intro f hf
      rcases Field.gives_read.sequence hNode hRead f hf with ⟨_, _, hf⟩
      exact hf
    · rcases bind_eq_ok_iff.mp hSet with ⟨target, hRead, hy⟩
      cases hy
      exact { hx with target := gives_target h hNode hRead }
    · rcases bind_eq_ok_iff.mp hSet with ⟨_, _, hy⟩
      cases hy
      exact { hx with }
    · rcases bind_eq_ok_iff.mp hSet with ⟨ks, hRead, hy⟩
      cases hy
      have hList := SortKey.keeps_schema.record.sequence hNode hRead
      exact { hx with orderBy := hList }
    · rcases bind_eq_ok_iff.mp hSet with ⟨_, _, hy⟩
      cases hy
      exact { hx with }

/- A bag is read from an object whose parts may be missing. -/
theorem gives_object
    {readBag : Reader Bag}
    (h : Reader.Gives readBag Settled) :
    Reader.Gives (schema readBag).object Settled := by
  intro height room node b hNode hRead
  rcases (keeps_schema h).object hNode hRead with
    ⟨inner, hInner, hParts⟩
  refine ⟨hParts.fields, hParts.values, ?_⟩
  exact Nat.le_trans hParts.nesting (Nat.succ_le_succ hInner)

/- Every bag that is read is well formed. -/
theorem gives_read : Reader.Gives Bag.read Settled := by
  intro height room node b hNode hRead
  -- The bags inside are read in less room, down to none.
  induction room generalizing height node b with
  | zero =>
      have hNone :
          Reader.Gives (fun _ _ => .error .malformed) Settled := by
        intro _ _ _ _ _ h
        cases h
      exact gives_object hNone hNode hRead
  | succ room ih =>
      have hInside : Reader.Gives (fun _ => Bag.read room) Settled := by
        intro _ _ _ _ hNode hRead
        exact ih hNode hRead
      exact gives_object hInside hNode hRead

/- So is every bag of a text. -/
theorem settled_of_parse
    {text : String}
    {b : Bag}
    (h : Bag.parse text = .ok b) :
    b.Settled (Text.nesting text) := by
  unfold Bag.parse Reader.run at h
  have hNode := Node.within_parse text
  generalize Node.parse (Token.lex text.toList) = parsed at h hNode
  rcases parsed with ⟨node, rest⟩
  rcases bind_eq_ok_iff.mp h with ⟨x, hRead, hEnd⟩
  split at hEnd
  · cases hEnd
    exact gives_read hNode hRead
  · cases hEnd

end Bag

end GraphBag
