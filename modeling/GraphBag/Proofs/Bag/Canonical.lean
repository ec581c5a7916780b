import GraphBag.Proofs.Bag.Settled

/-
  The canonical text of a bag.  Whatever text a bag was read
  from, the text that is written for it is at most one level
  deeper and gives the bag back, as long as it is nested at most
  127 deep, which is all that a reader has room for.

  Main declarations:
    * `Reader.Needs`
    * `Schema.needs_object`
    * `Bag.needs_read`
    * `Bag.parse_render_of_parse`
-/

namespace GraphBag

------------------------------------------------------------
-- Room for a Tree
------------------------------------------------------------

namespace Reader

variable {α β : Type}

/- A reader takes a tree only in a room that the tree fits in. -/
def Needs (read : Reader α) (j : Json) : Prop :=
  ∀ ⦃room : Nat⦄ ⦃x : α⦄,
    read room j.toNode = .ok x → j.height ≤ room

/- A scalar needs no room. -/
theorem needs_scalar (read : Reader α) (s : Scalar) :
    Needs read (.scalar s) := by
  intro room _ _
  exact Nat.zero_le room

/- A tree that is read as a whole needs room for all of it. -/
theorem needs_json (j : Json) : Needs json j := by
  intro room x hRead
  have hStrict : ∃ t, j.toNode.strict? room = some t := by
    unfold json at hRead
    split at hRead
    · rename_i t hStrict
      exact ⟨t, hStrict⟩
    · cases hRead
  clear hRead
  induction room generalizing j with
  | zero =>
      cases j with
      | scalar s => exact Nat.le_refl 0
      | array items =>
          rcases hStrict with ⟨_, h⟩
          cases h
      | object fields =>
          rcases hStrict with ⟨_, h⟩
          cases h
  | succ room ih =>
      cases j with
      | scalar s => exact Nat.zero_le _
      | array items =>
          rcases hStrict with ⟨t, h⟩
          rcases Option.map_eq_some_iff.mp h with ⟨ts, hItems, _⟩
          apply Nat.succ_le_succ
          apply Json.itemsHeight_le
          intro item hItem
          rw [Json.toNodeItems_eq_map, mapM_eq_some_iff] at hItems
          rcases exists_mem_of_forall₂ hItems.flip
            (List.mem_map_of_mem hItem) with ⟨tree, _, hTree⟩
          exact ih item ⟨tree, hTree⟩
      | object fields =>
          rcases hStrict with ⟨t, h⟩
          rcases Option.map_eq_some_iff.mp h with ⟨ts, hFields, _⟩
          apply Nat.succ_le_succ
          apply Json.fieldsHeight_le
          intro field hField
          rw [Json.toNodeFields_eq_map, mapM_eq_some_iff] at hFields
          rcases exists_mem_of_forall₂ hFields.flip
            (List.mem_map_of_mem hField) with ⟨entry, _, hEntry⟩
          simp only [Node.keyText?, Option.bind_eq_bind,
            Option.bind_eq_some_iff] at hEntry
          rcases hEntry with ⟨_, _, value, hValue, _⟩
          exact ih field.2 ⟨value, hValue⟩

/- What is made of a result takes no room. -/
theorem Needs.bind
    {read : Reader α}
    {j : Json}
    (h : Needs read j)
    (f : α → β) :
    Needs (fun room node => read room node >>= fun x => .ok (f x)) j := by
  intro room y hRead
  rcases bind_eq_ok_iff.mp hRead with ⟨x, hx, _⟩
  exact h hx

theorem Needs.map
    {read : Reader α}
    {j : Json}
    (h : Needs read j)
    (f : α → β) :
    Needs (fun room node => (read room node).map f) j := by
  intro room y hRead
  rcases map_eq_ok_iff.mp hRead with ⟨x, hx, _⟩
  exact h hx

/- A sequence needs one level more than its items. -/
theorem needs_sequence
    {read : Reader α}
    {items : List Json}
    (h : ∀ item ∈ items, Needs read item) :
    Needs (sequence read) (.array items) := by
  intro room xs hRead
  cases room with
  | zero => cases hRead
  | succ room =>
      rw [Json.toNode, sequence, Json.toNodeItems_eq_map] at hRead
      rcases bind_eq_ok_iff.mp hRead with ⟨ys, hItems, _⟩
      have hEach := exists_mapM_iff.mp ⟨ys, hItems⟩
      rw [List.forall_mem_map] at hEach
      apply Nat.succ_le_succ
      apply Json.itemsHeight_le
      intro item hItem
      rcases hEach item hItem with ⟨x, hx⟩
      exact h item hItem hx

/- An object needs one level more than its values. -/
theorem needs_entries
    {read : Reader α}
    {fields : List (String × Json)}
    (h : ∀ field ∈ fields, Needs read field.2) :
    Needs (entries read) (.object fields) := by
  intro room xs hRead
  cases room with
  | zero => cases hRead
  | succ room =>
      rw [Json.toNode, entries, Json.toNodeFields_eq_map] at hRead
      rcases bind_eq_ok_iff.mp hRead with ⟨ys, hFields, _⟩
      have hEach := exists_mapM_iff.mp ⟨ys, hFields⟩
      rw [List.forall_mem_map] at hEach
      apply Nat.succ_le_succ
      apply Json.fieldsHeight_le
      intro field hField
      rcases hEach field hField with ⟨x, hx⟩
      rcases map_eq_ok_iff.mp hx with ⟨y, hy, _⟩
      exact h field hField hy

end Reader

/- So does a record of known fields. -/
theorem Schema.needs_object
    {α : Type}
    {schema : Schema α}
    {fields : List (String × Json)}
    (hKnown : ∀ field ∈ fields, field.1 ∈ schema.names)
    (hSet :
      ∀ field ∈ fields, ∀ x,
        Reader.Needs
          (fun room node => schema.set field.1 room node x) field.2) :
    Reader.Needs schema.object (.object fields) := by
  intro room y hRead
  cases room with
  | zero => cases hRead
  | succ room =>
      apply Nat.succ_le_succ
      apply Json.fieldsHeight_le
      rw [Json.toNode, Schema.object, Json.toNodeFields_eq_map] at hRead
      -- Each field is set in the room of the whole object, on a
      -- record that holds the fields before it.
      generalize schema.initial = x at hRead
      generalize ([] : List String) = seen at hRead
      induction fields generalizing seen x with
      | nil => simp
      | cons field rest ih =>
          rcases field with ⟨name, value⟩
          rw [List.forall_mem_cons] at hKnown hSet ⊢
          rw [List.map_cons, Schema.readFields, if_pos hKnown.1] at hRead
          split at hRead
          · cases hRead
          · rcases bind_eq_ok_iff.mp hRead with ⟨next, hFirst, hRest⟩
            exact ⟨hSet.1 x hFirst,
              ih hKnown.2 hSet.2 next _ hRest⟩

------------------------------------------------------------
-- Room for a Bag
------------------------------------------------------------

theorem Value.needs_read (v : Value) :
    Reader.Needs Value.read v.toJson :=
  (Reader.needs_json v.toJson).map Value.ofJson

theorem Constraint.needs_read (c : Constraint) :
    Reader.Needs Constraint.read c.toJson := by
  intro room x hRead
  have hObject :
      Constraint.schema.object room c.toJson.toNode = .ok x := by
    cases room <;> exact hRead
  refine Schema.needs_object ?_ ?_ hObject
  · simp [Constraint.schema]
  · simp only [List.forall_mem_cons]
    refine ⟨?_, ?_, ?_, ?_, by simp⟩
    · intro _
      exact Reader.needs_scalar _ _
    · intro _
      exact Reader.needs_scalar _ _
    · intro _
      exact c.value.needs_read.bind _
    · intro _
      exact Reader.needs_scalar _ _

theorem SortKey.needs_read (k : SortKey) :
    Reader.Needs SortKey.read k.toJson := by
  intro room x hRead
  cases room with
  | zero => cases hRead
  | succ room => exact Nat.succ_le_succ (Nat.zero_le room)

namespace Bag

/- A target is read as a whole before it is looked at. -/
theorem needs_target
    (readBag : Reader Bag)
    (j : Json) :
    Reader.Needs (Reader.optional (Target.read readBag)) j := by
  intro room x hRead
  unfold Reader.optional at hRead
  split at hRead
  · rename_i hNull
    cases j with
    | scalar s => exact Nat.zero_le _
    | array items => cases hNull
    | object fields => cases hNull
  · rcases map_eq_ok_iff.mp hRead with ⟨target, hTarget, _⟩
    rcases bind_eq_ok_iff.mp hTarget with ⟨tree, hTree, _⟩
    exact Reader.needs_json j hTree

/- A bag needs room for all of its JSON form. -/
theorem needs_object
    (readBag : Reader Bag)
    (b : Bag) :
    Reader.Needs (schema readBag).object b.toJson := by
  rcases b with
    ⟨command, constraints, data, projections, target, limit, orderBy,
      format⟩
  have hConstraints :
      Reader.Needs (Reader.sequence Constraint.read)
        (.array (constraints.map Constraint.toJson)) := by
    apply Reader.needs_sequence
    rw [List.forall_mem_map]
    exact fun c _ => c.needs_read
  have hData : Reader.Needs readData (dataToJson data) := by
    have hEntries :
        Reader.Needs (Reader.entries Value.read) (dataToJson data) := by
      apply Reader.needs_entries
      rw [List.forall_mem_map]
      exact fun entry _ => entry.2.needs_read
    exact hEntries.map _
  have hProjections :
      Reader.Needs (Reader.sequence Field.read)
        (.array (projections.map Field.toJson)) := by
    apply Reader.needs_sequence
    rw [List.forall_mem_map]
    exact fun f _ => Reader.needs_scalar _ _
  have hLimit :
      Reader.Needs
        (Reader.optional (Reader.natural UInt64.size "u64"))
        (limitToJson limit) := by
    cases limit with
    | none => exact Reader.needs_scalar _ _
    | some n => exact Reader.needs_scalar _ _
  have hOrder :
      Reader.Needs (Reader.sequence SortKey.read)
        (.array (orderBy.map SortKey.toJson)) := by
    apply Reader.needs_sequence
    rw [List.forall_mem_map]
    exact fun k _ => k.needs_read
  apply Schema.needs_object
  · simp [schema]
  · simp only [List.forall_mem_cons]
    refine ⟨?_, ?_, ?_, ?_, ?_, ?_, ?_, ?_, by simp⟩
    · exact fun _ => Reader.needs_scalar _ _
    · exact fun _ => hConstraints.bind _
    · exact fun _ => hData.bind _
    · exact fun _ => hProjections.bind _
    · exact fun _ => (needs_target readBag _).bind _
    · exact fun _ => hLimit.bind _
    · exact fun _ => hOrder.bind _
    · exact fun _ => Reader.needs_scalar _ _

theorem needs_read (b : Bag) : Reader.Needs Bag.read b.toJson := by
  intro room x hRead
  cases room with
  | zero => exact needs_object _ b hRead
  | succ room => exact needs_object _ b hRead

------------------------------------------------------------
-- Bags with Nothing but Targets
------------------------------------------------------------

/- Bags inside each other with nothing else in them. -/
def nestedTargets : Nat → Bag
  | 0 => {}
  | n + 1 => { target := some (.embedded (nestedTargets n)) }

/- The shortest tree of such bags, which has no lists. -/
def nestedTree : Nat → Json
  | 0 => .object []
  | n + 1 => .object [("target", nestedTree n)]

theorem height_nestedTree (n : Nat) :
    (nestedTree n).height = n + 1 := by
  induction n with
  | zero => rfl
  | succ n ih =>
      simp only [nestedTree, Json.height, Json.height.fieldsHeight, ih]
      omega

theorem writable_nestedTree (n : Nat) : (nestedTree n).Writable := by
  induction n with
  | zero => trivial
  | succ n ih => exact ⟨ih, trivial⟩

/- It is read in any room it fits in. -/
theorem read_nestedTree
    {n room : Nat}
    (h : n < room) :
    Bag.read room (nestedTree n).toNode = .ok (nestedTargets n) := by
  induction n generalizing room with
  | zero =>
      cases room with
      | zero => cases h
      | succ room => rfl
  | succ n ih =>
      cases room with
      | zero => cases h
      | succ room =>
          have hBag := ih (Nat.lt_of_succ_lt_succ h)
          have hTree : Reader.json room (nestedTree n).toNode =
              .ok (nestedTree n) := by
            apply Reader.json_toNode
            rw [height_nestedTree]
            exact Nat.lt_of_succ_lt_succ h
          have hObject :
              ∃ fields, (nestedTree n).toNode = .object fields true := by
            cases n with
            | zero => exact ⟨_, rfl⟩
            | succ n => exact ⟨_, rfl⟩
          have hTarget :
              Reader.optional (Target.read fun _ => Bag.read room) room
                  (nestedTree n).toNode =
                .ok (some (.embedded (nestedTargets n))) := by
            rcases hObject with ⟨fields, hNode⟩
            rw [hNode] at hTree hBag ⊢
            simp [Reader.optional, Target.read, hTree, hBag, bind,
              Except.bind, Except.map]
          have hSet :
              (schema fun _ => Bag.read room).set "target" room
                  (nestedTree n).toNode {} =
                .ok (nestedTargets (n + 1)) := by
            simp only [schema, Bag.set, hTarget, bind, Except.bind]
            rfl
          exact Schema.readFields_cons (by simp [schema])
            List.not_mem_nil hSet []

/- The JSON form of such bags has one level of lists besides. -/
theorem height_toJson_nestedTargets (n : Nat) :
    (nestedTargets n).toJson.height = n + 2 := by
  induction n with
  | zero => rfl
  | succ n ih =>
      simp only [nestedTargets, toJson, targetToJson, dataToJson,
        limitToJson, OrderedMap.empty, List.map_nil, Json.height,
        Json.height.itemsHeight, Json.height.fieldsHeight, ih]
      omega

------------------------------------------------------------
-- Canonical Texts
------------------------------------------------------------

namespace Settled

variable {height : Nat} {b : Bag}

/- The JSON form of a well-formed bag can be written. -/
theorem writable (h : b.Settled height) : b.toJson.Writable :=
  writable_toJson fun v hv => (h.values v hv).1

/- Its text is nested as deep as that form is high. -/
theorem nesting_render (h : b.Settled height) :
    Text.nesting b.render = b.toJson.height :=
  Json.nesting_render h.writable

/- It is read back exactly when the text leaves the reader room. -/
theorem parse_render_iff (h : b.Settled height) :
    Bag.parse b.render = .ok b ↔ Text.nesting b.render ≤ 127 := by
  rw [h.nesting_render, Bag.parse, render,
    Reader.run_render Bag.read h.writable]
  constructor
  · intro hRead
    exact b.needs_read hRead
  · intro hRoom
    exact read_toJson h.fields (fun v hv => (h.values v hv).2) hRoom

end Settled

/-
  The text that is written for a bag is its canonical form.  For
  a bag that was read, however its text spelled it, that form is
  nested at most one level deeper than the text; if the text was
  nested at most 126 deep it can be read, and gives the same bag.
  It gives it only if it is itself nested at most 127 deep.
-/
theorem parse_render_of_parse
    {text : String}
    {b : Bag}
    (hParse : Bag.parse text = .ok b) :
    Text.nesting b.render ≤ Text.nesting text + 1 ∧
      (Text.nesting text ≤ 126 → Bag.parse b.render = .ok b) ∧
      (Bag.parse b.render = .ok b → Text.nesting b.render ≤ 127) := by
  have hSettled := settled_of_parse hParse
  have hNesting : Text.nesting b.render ≤ Text.nesting text + 1 := by
    rw [hSettled.nesting_render]
    exact hSettled.nesting
  refine ⟨hNesting, ?_, hSettled.parse_render_iff.mp⟩
  intro hText
  exact hSettled.parse_render_iff.mpr
    (Nat.le_trans hNesting (Nat.succ_le_succ hText))

/- A text with arrays for records and keys that come twice. -/
def spelledOtherwise : String :=
  "\x7b\"where\":[[\"n\",\x7b\"gt\":null\x7d,9223372036854775808]]," ++
    "\"data\":\x7b\"n\":1,\"n\":\x7b\"b\":1,\"a\":[]\x7d\x7d," ++
    "\"target\":\x7b\"target\":\x7b\"target\":\x7b\x7d\x7d\x7d\x7d"

/- What is read of that text. -/
def spelledBag : Bag where
  constraints :=
    [⟨.data "n", .gt, .float (.finite false ⟨2 ^ 52, 1085, by decide⟩),
      .and⟩]
  data := .ofList
    [(.data "n", .map [("a", .list []), ("b", .int 1)])]
  target := some (.embedded (nestedTargets 2))

/-
  The bag of a text nested 4 deep is read back from one that is
  nested 5 deep; the bags of a text nested 127 deep are not read
  back, as theirs would be nested 128 deep.
-/
theorem parse_render_of_parse_spelledOtherwise :
    (Text.nesting spelledOtherwise = 4 ∧
        Bag.parse spelledOtherwise = .ok spelledBag ∧
        Text.nesting spelledBag.render ≤ 5 ∧
        Bag.parse spelledBag.render = .ok spelledBag) ∧
      (Text.nesting (nestedTree 126).render = 127 ∧
        Bag.parse (nestedTree 126).render = .ok (nestedTargets 126) ∧
        Bag.parse (nestedTargets 126).render ≠
          .ok (nestedTargets 126)) := by
  constructor
  · have hText :
        Text.nesting spelledOtherwise = 4 ∧
          Bag.parse spelledOtherwise = .ok spelledBag := by
      decide +kernel
    rcases parse_render_of_parse hText.2 with ⟨hNesting, hRead, _⟩
    rw [hText.1] at hNesting hRead
    exact ⟨hText.1, hText.2, hNesting, hRead (by decide)⟩
  · have hWritable := writable_nestedTree 126
    have hText : Text.nesting (nestedTree 126).render = 127 := by
      rw [Json.nesting_render hWritable, height_nestedTree]
    have hParse :
        Bag.parse (nestedTree 126).render = .ok (nestedTargets 126) := by
      rw [Bag.parse, Reader.run_render Bag.read hWritable]
      exact read_nestedTree (by decide)
    refine ⟨hText, hParse, ?_⟩
    intro hBack
    have hDeep := (parse_render_of_parse hParse).2.2 hBack
    rw [(settled_of_parse hParse).nesting_render,
      height_toJson_nestedTargets] at hDeep
    exact absurd hDeep (by decide)

end Bag

end GraphBag
