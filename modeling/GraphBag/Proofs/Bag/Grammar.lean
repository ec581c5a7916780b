import GraphBag.Bag.Reader
import GraphBag.Proofs.Json.Grammar
import GraphBag.Proofs.Json.Shapes

/-
  The JSON texts that are bags.  A bag is read from exactly the
  objects whose keys are known and distinct and whose values
  have the shape of their key; an embedded bag is held to the
  same grammar as one that stands alone.

  Main declarations:
    * `Constraint.Shape`
    * `SortKey.Shape`
    * `Bag.Shape`
    * `Bag.accepts_read`
    * `Bag.exists_parse_iff_shape`
-/

namespace GraphBag

open Reader (Accepts)

------------------------------------------------------------
-- Shapes
------------------------------------------------------------

/-
  The trees of constraints: an object of its fields, the
  conjunction being optional, or an array of them in order.
  The value is any tree.
-/
inductive Constraint.Shape : Json → Prop where
  | object
      {fields : List (String × Json)}
      (distinct : (fields.map Prod.fst).Nodup)
      (known :
        ∀ name ∈ fields.map Prod.fst,
          name ∈ ["field", "operator", "value", "conjunction"])
      (present :
        ∀ name ∈ ["field", "operator", "value"],
          name ∈ fields.map Prod.fst)
      (field : ∀ j, ("field", j) ∈ fields → j.IsString)
      (operator :
        ∀ j, ("operator", j) ∈ fields → j.IsChoice Operator.name)
      (conjunction :
        ∀ j, ("conjunction", j) ∈ fields →
          j.IsChoice Conjunction.name) :
      Shape (.object fields)
  | three
      {field operator value : Json}
      (hField : field.IsString)
      (hOperator : operator.IsChoice Operator.name) :
      Shape (.array [field, operator, value])
  | four
      {field operator value conjunction : Json}
      (hField : field.IsString)
      (hOperator : operator.IsChoice Operator.name)
      (hConjunction : conjunction.IsChoice Conjunction.name) :
      Shape (.array [field, operator, value, conjunction])

/-
  The trees of sort keys: an object, in which other keys are
  skipped, or an array.  The direction is optional.
-/
inductive SortKey.Shape : Json → Prop where
  | object
      {fields : List (String × Json)}
      (distinct :
        ((fields.map Prod.fst).filter
          (· ∈ ["field", "direction"])).Nodup)
      (present : "field" ∈ fields.map Prod.fst)
      (field : ∀ j, ("field", j) ∈ fields → j.IsString)
      (direction :
        ∀ j, ("direction", j) ∈ fields → j.IsChoice Direction.name) :
      Shape (.object fields)
  | one
      {field : Json}
      (hField : field.IsString) :
      Shape (.array [field])
  | two
      {field direction : Json}
      (hField : field.IsString)
      (hDirection : direction.IsChoice Direction.name) :
      Shape (.array [field, direction])

/-
  The trees of bags: an object in which each key may be left
  out.  A target that is neither null nor a string is a bag.
-/
inductive Bag.Shape : Json → Prop where
  | object
      {fields : List (String × Json)}
      (distinct : (fields.map Prod.fst).Nodup)
      (known :
        ∀ name ∈ fields.map Prod.fst,
          name ∈ ["command", "where", "data", "projections", "target",
            "limit", "order_by", "format"])
      (command :
        ∀ j, ("command", j) ∈ fields → j.IsChoice CommandKind.name)
      (constraints :
        ∀ j, ("where", j) ∈ fields → j.IsArrayOf Constraint.Shape)
      (data : ∀ j, ("data", j) ∈ fields → ∃ members, j = .object members)
      (projections :
        ∀ j, ("projections", j) ∈ fields → j.IsArrayOf Json.IsString)
      (target :
        ∀ j, ("target", j) ∈ fields →
          j ≠ .null → ¬ j.IsString → Shape j)
      (limit :
        ∀ j, ("limit", j) ∈ fields →
          j = .null ∨ ∃ n : Int, j = .int n ∧ 0 ≤ n ∧ n < 2 ^ 64)
      (orderBy :
        ∀ j, ("order_by", j) ∈ fields → j.IsArrayOf SortKey.Shape)
      (format :
        ∀ j, ("format", j) ∈ fields → j.IsChoice Format.name) :
      Shape (.object fields)

------------------------------------------------------------
-- Single Values
------------------------------------------------------------

theorem Field.accepts_read (room : Nat) :
    Accepts Field.read room Json.IsString :=
  (Reader.accepts_string room).map Field.ofName

theorem Value.accepts_read (room : Nat) :
    Accepts Value.read room fun _ => True :=
  (Reader.accepts_json room).map Value.ofJson

theorem CommandKind.accepts_read (room : Nat) :
    Accepts CommandKind.read room (Json.IsChoice CommandKind.name) := by
  apply Reader.accepts_choice
  intro c
  cases c <;> decide

theorem Format.accepts_read (room : Nat) :
    Accepts Format.read room (Json.IsChoice Format.name) := by
  apply Reader.accepts_choice
  intro f
  cases f <;> decide

theorem Operator.accepts_read (room : Nat) :
    Accepts Operator.read room (Json.IsChoice Operator.name) := by
  apply Reader.accepts_choice
  intro o
  cases o <;> decide

theorem Conjunction.accepts_read (room : Nat) :
    Accepts Conjunction.read room (Json.IsChoice Conjunction.name) := by
  apply Reader.accepts_choice
  intro c
  cases c <;> decide

theorem Direction.accepts_read (room : Nat) :
    Accepts Direction.read room (Json.IsChoice Direction.name) := by
  apply Reader.accepts_choice
  intro d
  cases d <;> decide

/- Without other keys, no key at all is there twice. -/
theorem Schema.fieldsFit_closed_iff
    {α : Type}
    {schema : Schema α}
    (hClosed : schema.openEnded = false)
    {member : String → Json → Prop}
    {fields : List (String × Json)} :
    schema.FieldsFit member [] fields ↔
      (fields.map Prod.fst).Nodup ∧
        (∀ name ∈ fields.map Prod.fst, name ∈ schema.names) ∧
          (∀ name ∈ schema.required, name ∈ fields.map Prod.fst) ∧
            ∀ name ∈ schema.names, ∀ j, (name, j) ∈ fields →
              member name j := by
  have hFilter
      (hKnown : ∀ name ∈ fields.map Prod.fst, name ∈ schema.names) :
      (fields.map Prod.fst).filter (· ∈ schema.names) =
        fields.map Prod.fst := by
    rw [List.filter_eq_self]
    simpa using hKnown
  constructor
  · intro h
    have hKnown := h.known hClosed
    refine ⟨hFilter hKnown ▸ h.distinct, hKnown, ?_, h.members⟩
    intro name hName
    simpa using h.present name hName
  · rintro ⟨hDistinct, hKnown, hPresent, hMembers⟩
    refine ⟨(hFilter hKnown).symm ▸ hDistinct, by simp,
      fun _ => hKnown, ?_, hMembers⟩
    intro name hName
    exact Or.inr (hPresent name hName)

------------------------------------------------------------
-- Constraints
------------------------------------------------------------

namespace Constraint

/- The shape of the value under a key of a constraint. -/
def member (name : String) (j : Json) : Prop :=
  if name = "field" then j.IsString
  else if name = "operator" then j.IsChoice Operator.name
  else if name = "value" then True
  else j.IsChoice Conjunction.name

/- Each field of a constraint is set from its shape. -/
theorem takes (room : Nat) : schema.Takes room member := by
  unfold Schema.Takes
  simp only [schema, List.forall_mem_cons]
  refine ⟨?_, ?_, ?_, ?_, by simp⟩
  · intro c
    exact (Field.accepts_read room).bind _
  · intro c
    exact (Operator.accepts_read room).bind _
  · intro c
    exact (Value.accepts_read room).bind _
  · intro c
    exact (Conjunction.accepts_read room).bind _

/- The fields of a constraint in an object. -/
theorem isObject_iff (fields : List (String × Json)) :
    schema.FieldsFit member [] fields ↔ Shape (.object fields) := by
  rw [Schema.fieldsFit_closed_iff rfl]
  constructor
  · rintro ⟨hDistinct, hKnown, hPresent, hMembers⟩
    simp only [schema, List.forall_mem_cons] at hMembers
    rcases hMembers with ⟨hField, hOperator, _, hConjunction, _⟩
    exact .object hDistinct hKnown hPresent hField hOperator
      hConjunction
  · intro h
    cases h with
    | object hDistinct hKnown hPresent hField hOperator hConjunction =>
        refine ⟨hDistinct, hKnown, hPresent, ?_⟩
        simp only [schema, List.forall_mem_cons]
        exact ⟨hField, hOperator, fun _ _ => trivial, hConjunction,
          by simp⟩

/- The items of a constraint in an array. -/
theorem isArray_iff (items : List Json) :
    schema.ItemsFit member schema.names items ↔
      Shape (.array items) := by
  constructor
  · intro h
    match items, h with
    | [], h => exact absurd (h "field" (by decide)) (by decide)
    | [_], h => exact absurd (h.2 "operator" (by decide)) (by decide)
    | [_, _], h => exact absurd (h.2.2 "value" (by decide)) (by decide)
    | [_, _, _], h => exact .three h.1 h.2.1
    | [_, _, _, _], h => exact .four h.1 h.2.1 h.2.2.2.1
    | _ :: _ :: _ :: _ :: _ :: _, h => exact h.2.2.2.2.elim
  · intro h
    cases h with
    | three hField hOperator =>
        exact ⟨hField, hOperator, trivial,
          Schema.itemsFit_nil.mpr (by decide)⟩
    | four hField hOperator hConjunction =>
        exact ⟨hField, hOperator, trivial, hConjunction,
          Schema.itemsFit_nil.mpr (by decide)⟩

/- Constraints are read. -/
theorem accepts_read (room : Nat) :
    Accepts Constraint.read room Shape := by
  apply Schema.accepts_record (by decide) takes isObject_iff isArray_iff
  intro s h
  cases h

end Constraint

------------------------------------------------------------
-- Sort Keys
------------------------------------------------------------

namespace SortKey

/- The shape of the value under a key of a sort key. -/
def member (name : String) (j : Json) : Prop :=
  if name = "field" then j.IsString
  else j.IsChoice Direction.name

/- Each field of a sort key is set from its shape. -/
theorem takes (room : Nat) : schema.Takes room member := by
  unfold Schema.Takes
  simp only [schema, List.forall_mem_cons]
  refine ⟨?_, ?_, by simp⟩
  · intro k
    exact (Field.accepts_read room).bind _
  · intro k
    exact (Direction.accepts_read room).bind _

/- The fields of a sort key in an object. -/
theorem isObject_iff (fields : List (String × Json)) :
    schema.FieldsFit member [] fields ↔ Shape (.object fields) := by
  constructor
  · intro h
    have hMembers := h.members
    simp only [schema, List.forall_mem_cons] at hMembers
    have hPresent : "field" ∈ fields.map Prod.fst := by
      simpa using h.present "field" (by decide)
    exact .object h.distinct hPresent hMembers.1 hMembers.2.1
  · intro h
    cases h with
    | object hDistinct hPresent hField hDirection =>
        refine ⟨hDistinct, by simp, ?_, ?_, ?_⟩
        · intro hClosed
          cases hClosed
        · intro name hName
          simp only [schema, List.mem_singleton] at hName
          subst hName
          exact Or.inr hPresent
        · simp only [schema, List.forall_mem_cons]
          exact ⟨hField, hDirection, by simp⟩

/- The items of a sort key in an array. -/
theorem isArray_iff (items : List Json) :
    schema.ItemsFit member schema.names items ↔
      Shape (.array items) := by
  constructor
  · intro h
    match items, h with
    | [], h => exact absurd (h "field" (by decide)) (by decide)
    | [_], h => exact .one h.1
    | [_, _], h => exact .two h.1 h.2.1
    | _ :: _ :: _ :: _, h => exact h.2.2.elim
  · intro h
    cases h with
    | one hField =>
        exact ⟨hField, Schema.itemsFit_nil.mpr (by decide)⟩
    | two hField hDirection =>
        exact ⟨hField, hDirection,
          Schema.itemsFit_nil.mpr (by decide)⟩

/- Sort keys are read. -/
theorem accepts_read (room : Nat) :
    Accepts SortKey.read room Shape := by
  apply Schema.accepts_record (by decide) takes isObject_iff isArray_iff
  intro s h
  cases h

end SortKey

------------------------------------------------------------
-- Bags
------------------------------------------------------------

/- A target is read from a string or a bag. -/
theorem Target.accepts_read
    {readBag : Reader Bag}
    {room : Nat}
    {shape : Json → Prop}
    (h : Accepts readBag room shape) :
    Accepts (Target.read readBag) room fun j =>
      j.IsString ∨ shape j := by
  intro j hj
  change _ ↔ j.IsString ∨ shape j
  rw [← h j hj]
  by_cases hString : j.IsString
  · have hRead : ∃ s, Target.read readBag room j.toNode = .ok (.named s) := by
      rcases hString with ⟨s, rfl⟩
      refine ⟨s, ?_⟩
      unfold Target.read
      rw [Reader.json_toNode hj]
      rfl
    rcases hRead with ⟨s, hRead⟩
    simp [hRead, hString]
  · have hRead :
        (∃ x, Target.read readBag room j.toNode = .ok x) ↔
          ∃ b, readBag room j.toNode = .ok b := by
      unfold Target.read
      rw [Reader.json_toNode hj]
      cases j with
      | scalar s =>
          cases s with
          | string s => exact absurd ⟨s, rfl⟩ hString
          | null | bool | int | float =>
              cases readBag room _ <;>
                simp [Json.toNode, bind, Except.bind]
      | array items =>
          cases readBag room _ <;>
            simp [Json.toNode, bind, Except.bind]
      | object fields =>
          cases readBag room _ <;>
            simp [Json.toNode, bind, Except.bind]
    simp [hRead, hString]

namespace Bag

/-
  The shape of the value under a key of a bag, given the shape
  of the bags inside.
-/
def member
    (embedded : Json → Prop)
    (name : String)
    (j : Json) : Prop :=
  if name = "command" then j.IsChoice CommandKind.name
  else if name = "where" then j.IsArrayOf Constraint.Shape
  else if name = "data" then j.IsObjectOf fun _ => True
  else if name = "projections" then j.IsArrayOf Json.IsString
  else if name = "target" then
    j = .null ∨ j.IsString ∨ embedded j
  else if name = "limit" then
    j = .null ∨ ∃ n : Int, j = .int n ∧ 0 ≤ n ∧ n < UInt64.size
  else if name = "order_by" then j.IsArrayOf SortKey.Shape
  else j.IsChoice Format.name

/- Each field of a bag is set from its shape. -/
theorem takes
    {readBag : Reader Bag}
    {room : Nat}
    {embedded : Json → Prop}
    (h : Accepts readBag room embedded) :
    (schema readBag).Takes room (member embedded) := by
  unfold Schema.Takes
  simp only [schema, List.forall_mem_cons]
  refine ⟨?_, ?_, ?_, ?_, ?_, ?_, ?_, ?_, by simp⟩
  · intro b
    exact (CommandKind.accepts_read room).bind _
  · intro b
    exact (Reader.accepts_sequence Constraint.accepts_read room).bind _
  · intro b
    have hEntries := Reader.accepts_entries Value.accepts_read room
    exact (hEntries.map _).bind _
  · intro b
    exact (Reader.accepts_sequence Field.accepts_read room).bind _
  · intro b
    exact (Target.accepts_read h).optional.bind _
  · intro b
    exact (Reader.accepts_natural UInt64.size "u64" room).optional.bind _
  · intro b
    exact (Reader.accepts_sequence SortKey.accepts_read room).bind _
  · intro b
    exact (Format.accepts_read room).bind _

/- The fields of a bag in an object. -/
theorem isObject_iff
    (readBag : Reader Bag)
    (fields : List (String × Json)) :
    (schema readBag).FieldsFit (member Shape) [] fields ↔
      Shape (.object fields) := by
  have hSize : ((UInt64.size : Nat) : Int) = 2 ^ 64 := by
    decide
  rw [Schema.fieldsFit_closed_iff rfl]
  constructor
  · rintro ⟨hDistinct, hKnown, _, hMembers⟩
    simp only [schema, List.forall_mem_cons] at hMembers
    rcases hMembers with ⟨hCommand, hWhere, hData, hProjections,
      hTarget, hLimit, hOrder, hFormat, _⟩
    refine .object hDistinct hKnown hCommand hWhere ?_ hProjections ?_
      ?_ hOrder hFormat
    · intro j hj
      rcases hData j hj with ⟨members, rfl, _⟩
      exact ⟨members, rfl⟩
    · intro j hj hNull hString
      rcases hTarget j hj with hEq | hEq | hShape
      · exact absurd hEq hNull
      · exact absurd hEq hString
      · exact hShape
    · intro j hj
      rw [← hSize]
      exact hLimit j hj
  · intro h
    cases h with
    | object hDistinct hKnown hCommand hWhere hData hProjections
        hTarget hLimit hOrder hFormat =>
        refine ⟨hDistinct, hKnown, by simp [schema], ?_⟩
        simp only [schema, List.forall_mem_cons]
        refine ⟨hCommand, hWhere, ?_, hProjections, ?_, ?_, hOrder,
          hFormat, by simp⟩
        · intro j hj
          rcases hData j hj with ⟨members, rfl⟩
          exact ⟨members, rfl, fun _ _ => trivial⟩
        · intro j hj
          by_cases hNull : j = .null
          · exact Or.inl hNull
          · by_cases hString : j.IsString
            · exact Or.inr (Or.inl hString)
            · exact Or.inr (Or.inr (hTarget j hj hNull hString))
        · intro j hj
          have hRange := hLimit j hj
          rw [← hSize] at hRange
          exact hRange

/-
  Bags are read, in any room.  The bags inside have one less,
  so this goes by induction on the room.
-/
theorem accepts_read (room : Nat) : Accepts Bag.read room Shape := by
  induction room with
  | zero =>
      apply Schema.accepts_object (by simp [schema]) ?_
        (isObject_iff _)
      · intro items h
        cases h
      · intro s h
        cases h
      · intro inner hRoom
        cases hRoom
  | succ room ih =>
      apply Schema.accepts_object (by simp [schema]) ?_
        (isObject_iff _)
      · intro items h
        cases h
      · intro s h
        cases h
      · intro inner hRoom
        cases hRoom
        exact takes ih

end Bag

/-
  A bag is read from a JSON text with fewer than 128 arrays and
  objects inside each other exactly when the tree that the text
  spells has the shape of a bag.
-/
theorem Bag.exists_parse_iff_shape
    {text : String}
    {j : Json}
    (hText : j.SpelledBy text)
    (hHeight : j.height < 128) :
    (∃ b, Bag.parse text = .ok b) ↔ Bag.Shape j := by
  rw [Bag.parse, Reader.run_of_spelled Bag.read hText]
  exact Bag.accepts_read 127 j (Nat.le_of_lt_succ hHeight)

/- An embedded bag with the highest limit. -/
def highLimit : Json :=
  .object [("target", .object [("limit", .int (2 ^ 64 - 1))])]

/- A text of it, with an escape in the inner key. -/
def highLimitText : String :=
  "\x7b \"target\": \x7b\"l\\u0069mit\": 18446744073709551615 \x7d\x7d\n"

theorem spelledBy_highLimit : highLimit.SpelledBy highLimitText := by
  have hOuter : Token.SpellsChars "target".toList "target".toList :=
    Token.spellsChars_self (by decide)
  have hInner :
      Token.SpellsChars "limit".toList "l\\u0069mit".toList := by
    have hCode : Token.IsHexQuad ['0', '0', '6', '9'] 'i'.toNat :=
      .digits (k := 0) (l := 0) (m := 6) (n := 9) (by decide)
        (by decide) (by decide) (by decide)
    exact .plain (by decide)
      (.code hCode (Token.spellsChars_self (s := "mit".toList) (by decide)))
  have hLimit :
      Scalar.SpelledBy (.int (2 ^ 64 - 1))
        "18446744073709551615".toList := by
    have hWhole : WholeDigits "18446744073709551615".toList := by
      refine ⟨?_, by decide, ?_⟩
      · exact List.all_eq_true.mp (by decide)
      · intro rest hRest
        have hHead : "18446744073709551615".toList.head? ≠ some '0' := by
          decide
        rw [hRest] at hHead
        exact absurd rfl hHead
    exact .int
      (n := ⟨false, "18446744073709551615".toList, none, none⟩)
      ⟨hWhole, [], [], .absent, .absent, rfl⟩ ⟨rfl, rfl, by decide⟩
  have hNone : Token.IsGap [] := by
    decide
  have hBlank : Token.IsGap [' '] := by
    decide
  have hFeed : Token.IsGap ['\n'] := by
    decide
  exact .cons hNone .openBrace
    (.cons hBlank (.scalar (.string hOuter))
      (.cons hNone .colon
        (.cons hBlank .openBrace
          (.cons hNone (.scalar (.string hInner))
            (.cons hNone .colon
              (.cons hBlank (.scalar hLimit)
                (.cons hBlank .closeBrace
                  (.cons hNone .closeBrace (.nil hFeed)))))))))

theorem Bag.exists_parse_iff_shape_highLimit :
    highLimit.SpelledBy highLimitText ∧ highLimit.height < 128 ∧
      ∃ b, Bag.parse highLimitText = .ok b := by
  have hHeight : highLimit.height < 128 := by
    decide
  have hInner : Bag.Shape (.object [("limit", .int (2 ^ 64 - 1))]) := by
    refine .object (by simp) (by simp) (by simp) (by simp) (by simp)
      (by simp) (by simp) ?_ (by simp) (by simp)
    intro j hj
    simp only [List.mem_singleton, Prod.mk.injEq, true_and] at hj
    exact Or.inr ⟨2 ^ 64 - 1, hj, by decide, by decide⟩
  have hShape : Bag.Shape highLimit := by
    refine .object (by simp) (by simp) (by simp) (by simp) (by simp)
      (by simp) ?_ (by simp) (by simp) (by simp)
    intro j hj _ _
    simp only [List.mem_singleton, Prod.mk.injEq, true_and] at hj
    rw [hj]
    exact hInner
  exact ⟨spelledBy_highLimit, hHeight,
    (exists_parse_iff_shape spelledBy_highLimit hHeight).mpr hShape⟩

end GraphBag
