import GraphBag.Proofs.Script
import GraphBag.Proofs.Sql.Literal
import GraphBag.Sql.Clause

/-
  What each clause adds to a script, and when it can be added.

  Main declarations:
    * `Sql.PredicateOk`
    * `Sql.adds_predicates`
    * `Sql.adds_content`
    * `Sql.adds_order`
    * `Sql.adds_limit`
    * `Sql.adds_projections`
-/

namespace GraphBag

namespace Sql

open Buffer (Adds)

------------------------------------------------------------
-- Words and Literals
------------------------------------------------------------

/- A value passes when every number inside is finite. -/
theorem ensureFinite_eq_ok_iff
    {step : Step}
    {v : Value}
    {u : Unit} :
    ensureFinite step v = .ok u ↔ v.Finite := by
  rw [← Value.notFinite?_eq_none_iff, ensureFinite]
  cases hNumber : v.notFinite? with
  | none => simp
  | some x => simp

/- Only a string stands for a word. -/
theorem wordOf_eq_ok_iff
    {step : Step}
    {v : Value}
    {s : String} :
    wordOf step v = .ok s ↔ v = .string s := by
  cases v <;> simp [wordOf, Value.string?]

/- The literal of the value of a constraint. -/
def literal (c : Constraint) : String :=
  String.ofList (literalChars (hasNativeName c.field) c.value)

/- A literal is written for every finite value. -/
theorem cast_eq_ok_iff
    {c : Constraint}
    {s : String} :
    cast c.field c.value = .ok s ↔
      c.value.Finite ∧ s = literal c := by
  rw [cast, bind_eq_ok_iff]
  simp only [ensureFinite_eq_ok_iff, Except.ok.injEq]
  constructor
  · rintro ⟨_, hFinite, rfl⟩
    exact ⟨hFinite, rfl⟩
  · rintro ⟨hFinite, rfl⟩
    exact ⟨(), hFinite, rfl⟩

/-
  A literal is blank only for a blank string that is written
  without quotes.
-/
theorem isBlank_literal_iff
    {c : Constraint}
    (hFinite : c.value.Finite) :
    Text.isBlank (literal c) = false ↔
      (hasNativeName c.field = true →
        ∀ s, c.value = .string s → Text.isBlank s = false) := by
  by_cases hBare :
      hasNativeName c.field = true ∧ c.value.string? ≠ none
  · rcases hBare with ⟨hNative, hString⟩
    cases hValue : c.value with
    | string s =>
        simp [literal, hNative, hValue, literalChars]
    | null | bool | int | float | list | map =>
        simp [hValue, Value.string?] at hString
  · have hQuoted :
        hasNativeName c.field = true → c.value.string? = none := by
      intro hNative
      by_contra hString
      exact hBare ⟨hNative, hString⟩
    rcases head_literalChars hFinite hQuoted with
      ⟨first, rest, hEq, hShape⟩
    constructor
    · intro _ hNative s hValue
      have hNone := hQuoted hNative
      simp [hValue, Value.string?] at hNone
    · intro _
      apply Text.isBlank_eq_false_of_mem (c := first)
      · rw [literal, hEq]
        simp
      · rw [← Bool.not_eq_true]
        intro hSpace
        rw [shapeOf?_of_isSpace hSpace] at hShape
        cases hShape

------------------------------------------------------------
-- Predicates
------------------------------------------------------------

/- A constraint that can be written as a predicate. -/
structure PredicateOk (c : Constraint) : Prop where
  name : Text.isBlank (fieldName c.field) = false
  finite : c.value.Finite
  native :
    hasNativeName c.field = true →
      ∀ s, c.value = .string s → Text.isBlank s = false

/- The words of a predicate. -/
def predicateTokens (c : Constraint) : List String :=
  [fieldName c.field, operator c.operator, literal c]

/- The words of a predicate after another one. -/
def linkTokens (c : Constraint) : List String :=
  conjunction c.conjunction :: predicateTokens c

/- The words of the clause that filters. -/
def whereTokens : List Constraint → List String
  | [] => []
  | c :: rest =>
      "WHERE" :: predicateTokens c ++ rest.flatMap linkTokens

theorem isBlank_operator (o : Operator) :
    Text.isBlank (operator o) = false := by
  cases o <;> decide

theorem isBlank_conjunction (j : Conjunction) :
    Text.isBlank (conjunction j) = false := by
  cases j <;> decide

/- A predicate adds its words. -/
theorem adds_predicateTokens (c : Constraint) :
    Adds
      (fun b => do
        let b ← b.push .predicates (fieldName c.field)
        let b ← b.push .predicates (operator c.operator)
        let literal ← cast c.field c.value
        b.push .predicates literal)
      (PredicateOk c) (predicateTokens c) := by
  have hLiteral :
      Adds
        (fun b => do
          let literal ← cast c.field c.value
          b.push .predicates literal)
        (c.value.Finite ∧ Text.isBlank (literal c) = false)
        [literal c] := by
    intro b b'
    rw [bind_eq_ok_iff]
    simp only [cast_eq_ok_iff, Buffer.push_eq_ok_iff]
    constructor
    · rintro ⟨_, ⟨hFinite, rfl⟩, hBlank, hEnd⟩
      exact ⟨⟨hFinite, hBlank⟩, hEnd⟩
    · rintro ⟨⟨hFinite, hBlank⟩, hEnd⟩
      exact ⟨_, ⟨hFinite, rfl⟩, hBlank, hEnd⟩
  refine Adds.congr
    ((Buffer.adds_push _ _).bind
      ((Buffer.adds_push _ _).bind hLiteral)) ?_
  constructor
  · rintro ⟨hName, _, hFinite, hBlank⟩
    exact ⟨hName, hFinite, (isBlank_literal_iff hFinite).mp hBlank⟩
  · intro hOk
    exact ⟨hOk.name, isBlank_operator c.operator, hOk.finite,
      (isBlank_literal_iff hOk.finite).mpr hOk.native⟩

/- The first predicate adds its words alone. -/
theorem addPredicate_empty
    {b' : Buffer}
    {c : Constraint} :
    addPredicate .empty c = .ok b' ↔
      PredicateOk c ∧ b' = Buffer.empty.extend (predicateTokens c) :=
  adds_predicateTokens c .empty b'

/- A later predicate adds its conjunction first. -/
theorem addPredicate_text
    {b b' : Buffer}
    (hb : b.isEmpty = false)
    {c : Constraint} :
    addPredicate b c = .ok b' ↔
      PredicateOk c ∧ b' = b.extend (linkTokens c) := by
  have hAdds :=
    (Buffer.adds_push .predicates (conjunction c.conjunction)).bind
      (adds_predicateTokens c)
  have hStep :
      addPredicate b c =
        (do
          let b ← b.push .predicates (conjunction c.conjunction)
          let b ← b.push .predicates (fieldName c.field)
          let b ← b.push .predicates (operator c.operator)
          let literal ← cast c.field c.value
          b.push .predicates literal) := by
    simp [addPredicate, hb]
  rw [hStep, hAdds b b']
  simp [isBlank_conjunction, linkTokens]

/- Predicates after the first add their words in order. -/
theorem foldlM_addPredicate
    {b b' : Buffer}
    (hb : b.isEmpty = false)
    (constraints : List Constraint) :
    constraints.foldlM addPredicate b = .ok b' ↔
      (∀ c ∈ constraints, PredicateOk c) ∧
        b' = b.extend (constraints.flatMap linkTokens) := by
  induction constraints generalizing b with
  | nil => simp [pure, Except.pure, eq_comm]
  | cons c rest ih =>
      have hNext := Buffer.isEmpty_extend hb (linkTokens c)
      rw [List.foldlM_cons, bind_eq_ok_iff, List.flatMap_cons,
        Buffer.extend_append, List.forall_mem_cons]
      simp only [addPredicate_text hb]
      constructor
      · rintro ⟨mid, ⟨hc, rfl⟩, hRest⟩
        rcases (ih hNext).mp hRest with ⟨hAll, hEnd⟩
        exact ⟨⟨hc, hAll⟩, hEnd⟩
      · rintro ⟨⟨hc, hAll⟩, hEnd⟩
        exact ⟨_, ⟨hc, rfl⟩, (ih hNext).mpr ⟨hAll, hEnd⟩⟩

/- The first predicate fills the empty buffer. -/
theorem foldlM_addPredicate_empty
    {b' : Buffer}
    (c : Constraint)
    (rest : List Constraint) :
    (c :: rest).foldlM addPredicate .empty = .ok b' ↔
      (∀ d ∈ c :: rest, PredicateOk d) ∧
        b' =
          Buffer.extend ⟨fieldName c.field⟩
            ([operator c.operator, literal c] ++
              rest.flatMap linkTokens) := by
  have hFilled :
      PredicateOk c →
        (Buffer.empty.extend (predicateTokens c)).isEmpty = false := by
    intro hc
    exact Buffer.isEmpty_extend
      (Text.isEmpty_eq_false_of_isBlank hc.name) _
  rw [List.foldlM_cons, bind_eq_ok_iff, List.forall_mem_cons,
    Buffer.extend_append]
  simp only [addPredicate_empty]
  constructor
  · rintro ⟨mid, ⟨hc, rfl⟩, hRest⟩
    rcases (foldlM_addPredicate (hFilled hc) rest).mp hRest with
      ⟨hAll, hEnd⟩
    exact ⟨⟨hc, hAll⟩, hEnd⟩
  · rintro ⟨⟨hc, hAll⟩, hEnd⟩
    exact ⟨_, ⟨hc, rfl⟩,
      (foldlM_addPredicate (hFilled hc) rest).mpr ⟨hAll, hEnd⟩⟩

/- Words built up in a buffer of their own come after WHERE. -/
theorem pushWhere_eq_ok_iff
    {b b' : Buffer}
    {name : String}
    (hName : Text.isBlank name = false)
    (tokens : List String) :
    (if (Buffer.extend ⟨name⟩ tokens).isEmpty = true then
        Except.ok b
      else do
        let b ← b.push .predicates "WHERE"
        b.push .predicates (Buffer.extend ⟨name⟩ tokens).text) =
        .ok b' ↔
      b' = b.extend ("WHERE" :: name :: tokens) := by
  have hInner : (Buffer.mk name).isEmpty = false :=
    Text.isEmpty_eq_false_of_isBlank hName
  have hWhere : (b.append "WHERE").isEmpty = false :=
    b.isEmpty_append_of_token (by decide)
  rw [if_neg (by simp [Buffer.isEmpty_extend hInner]),
    bind_eq_ok_iff]
  simp only [Buffer.push_eq_ok_iff]
  constructor
  · rintro ⟨_, ⟨_, rfl⟩, _, rfl⟩
    exact Buffer.append_text hWhere hInner tokens
  · rintro rfl
    refine ⟨_, ⟨by decide, rfl⟩, ?_, ?_⟩
    · exact Buffer.isBlank_text_extend hName tokens
    · exact (Buffer.append_text hWhere hInner tokens).symm

/- Predicates add the clause that filters. -/
theorem adds_predicates (constraints : List Constraint) :
    Adds (addPredicates · constraints)
      (∀ c ∈ constraints.filter (IsPredicate ·), PredicateOk c)
      (whereTokens (constraints.filter (IsPredicate ·))) := by
  intro b b'
  simp only [addPredicates]
  cases constraints.filter (IsPredicate ·) with
  | nil =>
      have hEmpty : Buffer.empty.isEmpty = true := by
        decide
      simp only [List.foldlM_nil, pure_bind, hEmpty, if_true]
      simpa [whereTokens] using Buffer.adds_ok b b'
  | cons c rest =>
      rw [bind_eq_ok_iff]
      simp only [foldlM_addPredicate_empty]
      constructor
      · rintro ⟨_, ⟨hAll, rfl⟩, hEnd⟩
        have hName := (hAll c List.mem_cons_self).name
        exact ⟨hAll, (pushWhere_eq_ok_iff hName _).mp hEnd⟩
      · rintro ⟨hAll, hEnd⟩
        have hName := (hAll c List.mem_cons_self).name
        exact ⟨_, ⟨hAll, rfl⟩,
          (pushWhere_eq_ok_iff hName _).mpr hEnd⟩

------------------------------------------------------------
-- Content
------------------------------------------------------------

/- The content of a bag under the names of the statement. -/
def contentMap (bag : Bag) : OrderedMap String Value :=
  bag.content.foldl
    (fun fields (field, value) => fields.put (fieldName field) value)
    .empty

/- The content is built when its numbers are finite. -/
theorem contentFields_eq_ok_iff
    {bag : Bag}
    {fields : OrderedMap String Value} :
    contentFields bag = .ok fields ↔
      (∀ entry ∈ bag.content, entry.2.Finite) ∧
        fields = contentMap bag := by
  rw [contentFields, contentMap]
  generalize (OrderedMap.empty : OrderedMap String Value) = start
  induction bag.content generalizing start with
  | nil => simp [pure, Except.pure, eq_comm]
  | cons entry rest ih =>
      rcases entry with ⟨field, value⟩
      rw [List.foldlM_cons, bind_eq_ok_iff, List.forall_mem_cons]
      simp only [bind_eq_ok_iff, ensureFinite_eq_ok_iff,
        Except.ok.injEq]
      constructor
      · rintro ⟨_, ⟨_, hFinite, rfl⟩, hRest⟩
        rcases (ih _).mp hRest with ⟨hAll, hEnd⟩
        exact ⟨⟨hFinite, hAll⟩, hEnd⟩
      · rintro ⟨⟨hFinite, hAll⟩, hEnd⟩
        exact ⟨_, ⟨(), hFinite, rfl⟩, (ih _).mpr ⟨hAll, hEnd⟩⟩

/- The words of the clause that carries the content. -/
def contentTokens (keyword : String) (bag : Bag) : List String :=
  if (contentMap bag).isEmpty then []
  else [keyword, (contentJson (contentMap bag)).render]

/- The text of a JSON object is not blank. -/
theorem isBlank_render_contentJson
    (fields : OrderedMap String Value) :
    Text.isBlank (contentJson fields).render = false := by
  apply Text.isBlank_eq_false_of_mem (c := '\x7b')
  · simp [contentJson, Json.render, Json.chars, Json.tokens,
      Token.chars]
  · decide

/- The content adds its clause. -/
theorem adds_content
    (keyword : String)
    (hKeyword : Text.isBlank keyword = false)
    (bag : Bag) :
    Adds (addContent · keyword bag)
      (∀ entry ∈ bag.content, entry.2.Finite)
      (contentTokens keyword bag) := by
  intro b b'
  simp only [addContent, bind_eq_ok_iff, contentFields_eq_ok_iff,
    contentTokens]
  cases hEmpty : (contentMap bag).isEmpty with
  | true =>
      constructor
      · rintro ⟨_, ⟨hFinite, rfl⟩, hEnd⟩
        simp [hEmpty] at hEnd
        exact ⟨hFinite, hEnd.symm⟩
      · rintro ⟨hFinite, rfl⟩
        exact ⟨_, ⟨hFinite, rfl⟩, by simp [hEmpty]⟩
  | false =>
      have hAdds :=
        (Buffer.adds_push .content keyword).bind
          (Buffer.adds_push .content
            (contentJson (contentMap bag)).render) b b'
      constructor
      · rintro ⟨_, ⟨hFinite, rfl⟩, hEnd⟩
        rw [hEmpty, if_neg Bool.false_ne_true, hAdds] at hEnd
        exact ⟨hFinite, hEnd.2⟩
      · rintro ⟨hFinite, hEnd⟩
        refine ⟨_, ⟨hFinite, rfl⟩, ?_⟩
        rw [hEmpty, if_neg Bool.false_ne_true, hAdds]
        exact ⟨⟨hKeyword, isBlank_render_contentJson _⟩, hEnd⟩

------------------------------------------------------------
-- Order, Limit, Projections
------------------------------------------------------------

/- The words of the clause that sorts. -/
def orderTokens (keys : List SortKey) : List String :=
  if keys.isEmpty then []
  else ["ORDER BY", String.intercalate ", " (keys.map sortKeyText)]

theorem isBlank_direction (d : Direction) :
    Text.isBlank (direction d) = false := by
  cases d <;> decide

/- Sort keys add the clause that sorts. -/
theorem adds_order (keys : List SortKey) :
    Adds (addOrder · keys) True (orderTokens keys) := by
  cases keys with
  | nil => exact Buffer.adds_ok
  | cons key rest =>
      have hKey : Text.isBlank (sortKeyText key) = false := by
        rw [sortKeyText, Text.isBlank_append,
          isBlank_direction, Bool.and_false]
      refine Adds.congr
        ((Buffer.adds_push _ _).bind (Buffer.adds_push _ _)) ?_
      rw [List.map_cons, Text.isBlank_intercalate_cons, hKey]
      simp
      decide

/- The number of rows a statement is held to, zero for none. -/
def rowLimit (limit : Option UInt64) : Nat :=
  (limit.map UInt64.toNat).getD 0

/- The words of the clause that bounds the rows. -/
def limitTokens (rows : Nat) : List String :=
  if rows = 0 then [] else ["LIMIT " ++ toString rows]

/- A limit above zero adds its clause. -/
theorem adds_limit (limit : Option UInt64) :
    Adds (addLimit · limit) True (limitTokens (rowLimit limit)) := by
  cases limit with
  | none => exact Buffer.adds_ok
  | some n =>
      have hBlank :
          Text.isBlank ("LIMIT " ++ toString n.toNat) = false := by
        rw [Text.isBlank_append]
        rfl
      by_cases hZero : n.toNat = 0
      · have hTokens : limitTokens (rowLimit (some n)) = [] :=
          if_pos hZero
        simp only [addLimit, if_pos hZero, hTokens]
        exact Buffer.adds_ok
      · have hTokens :
            limitTokens (rowLimit (some n)) =
              ["LIMIT " ++ toString n.toNat] :=
          if_neg hZero
        simp only [addLimit, if_neg hZero, hTokens]
        exact (Buffer.adds_push _ _).congr (iff_true_intro hBlank)

/- The projected fields as they are written. -/
def projectionTokens (fields : List Field) : List String :=
  if fields.isEmpty then []
  else [String.intercalate ", " (fields.map fieldName)]

/- Projections can be written unless one blank name stands alone. -/
def ProjectionsOk (fields : List Field) : Prop :=
  ∀ f, fields = [f] → Text.isBlank (fieldName f) = false

/- Projections add their names. -/
theorem adds_projections (fields : List Field) :
    Adds (addProjections · fields) (ProjectionsOk fields)
      (projectionTokens fields) := by
  cases fields with
  | nil =>
      refine Buffer.adds_ok.congr ?_
      simp [ProjectionsOk]
  | cons field rest =>
      refine (Buffer.adds_push _ _).congr ?_
      rw [List.map_cons, Text.isBlank_intercalate_cons]
      cases rest with
      | nil => simp [ProjectionsOk]
      | cons next rest => simp [ProjectionsOk]

end Sql

end GraphBag
