import GraphBag.Processor
import GraphBag.Proofs.Sql.Query
import GraphBag.Proofs.Sql.Statements

/-
  Retrieves told apart by their scripts, whatever the values
  that they compare with.

  Main declarations:
    * `Sql.query`
    * `Sql.Plain`
    * `Sql.query_of_statement`
    * `Processor.query_eq_of_script_eq`
-/

namespace GraphBag

namespace Sql

------------------------------------------------------------
-- The Query of a Retrieve
------------------------------------------------------------

/- Constraints as predicates, the first without conjunction. -/
def predicatesOf : List Constraint → List Predicate
  | [] => []
  | c :: rest =>
      ⟨none, c.field, c.operator, c.value⟩ ::
        rest.map fun d =>
          ⟨some d.conjunction, d.field, d.operator, d.value⟩

/- The query of a retrieve with a given explicit target. -/
def queryOn (bag : Bag) (explicit : Source) : Query where
  projections := bag.projections.map fieldName
  source :=
    match naming? bag with
    | some v => .word (v.string?.getD "")
    | none => explicit
  predicates := predicatesOf (filters bag)
  order := bag.orderBy.map fun key => (fieldName key.field, key.direction)
  limit := rowLimit bag.limit

mutual

/- What a retrieve asks for. -/
def query : Bag → Query
  | bag@⟨_, _, _, _, target, _, _, _⟩ =>
      queryOn bag (sourceOf target)

/- What an explicit target stands for. -/
def sourceOf : Option Target → Source
  | none => .word defaultClass
  | some (.named name) => .word name
  | some (.embedded inner) => .query (query inner)

end

theorem query_eq (bag : Bag) :
    query bag = queryOn bag (sourceOf bag.target) := by
  rcases bag with ⟨_, _, _, _, _, _, _, _⟩
  rw [query]

------------------------------------------------------------
-- Plain Retrieves
------------------------------------------------------------

/- A word of letters, digits and underscores, and no keyword. -/
def PlainName (s : String) : Prop :=
  s ≠ "" ∧ (∀ c ∈ s.toList, c.isAlphanum = true ∨ c = '_') ∧
    s ∉ ["FROM", "WHERE", "ORDER", "LIMIT"]

instance (s : String) : Decidable (PlainName s) :=
  @instDecidableAnd _ _ _
    (@instDecidableAnd _ _ (List.decidableBAll _ s.toList) _)

/- A data field under a plain name, or a meta-field. -/
def PlainField (f : Field) : Prop :=
  ∀ name, f = .data name → PlainName name

/- A name to work on, without white space and brackets. -/
def PlainWord (s : String) : Prop :=
  s ≠ "" ∧
    ∀ c ∈ s.toList, Text.isSpace c = false ∧ c ≠ '(' ∧ c ≠ ')'

instance (s : String) : Decidable (PlainWord s) :=
  @instDecidableAnd _ _ _ (List.decidableBAll _ s.toList)

/-
  A retrieve whose names are plain words and which filters by
  data fields only, given whether its explicit target is plain.
  Its values are arbitrary.
-/
structure PlainOn (bag : Bag) (explicit : Prop) : Prop where
  command : bag.command = .retrieve
  projections : ∀ f ∈ bag.projections, PlainField f
  filters :
    ∀ c ∈ bag.constraints, ¬ c.IsOn .label → ¬ c.IsOn .id →
      ¬ c.IsOn .kind → ∃ name, c.field = .data name ∧ PlainName name
  order : ∀ key ∈ bag.orderBy, PlainField key.field
  target :
    match naming? bag with
    | some v => ∃ s, v = .string s ∧ PlainWord s
    | none => explicit

mutual

/- A plain retrieve on a plain target. -/
def Plain : Bag → Prop
  | bag@⟨_, _, _, _, target, _, _, _⟩ =>
      PlainOn bag (PlainTarget target)

/- A plain class, or a plain retrieve. -/
def PlainTarget : Option Target → Prop
  | none => True
  | some (.named name) => PlainWord name
  | some (.embedded inner) => Plain inner

end

theorem plain_iff (bag : Bag) :
    Plain bag ↔ PlainOn bag (PlainTarget bag.target) := by
  rcases bag with ⟨_, _, _, _, _, _, _, _⟩
  rw [Plain]

/- A plain name is separable. -/
theorem PlainName.separable
    {s : String}
    (hs : PlainName s) :
    Separable s := by
  intro c hc hMem
  have hChar := hs.2.1 c hc
  simp only [List.mem_cons, List.not_mem_nil, or_false] at hMem
  rcases hMem with rfl | rfl | rfl | rfl
  all_goals exact absurd hChar (by decide)

/- The written name of a plain field is separable. -/
theorem PlainField.separable
    {f : Field}
    (hf : PlainField f) :
    Separable (fieldName f) ∧ fieldName f ≠ "FROM" := by
  cases f with
  | data name =>
      have hName := hf name rfl
      refine ⟨hName.separable, ?_⟩
      intro hFrom
      exact hName.2.2 (by simp [← hFrom, fieldName])
  | ofMeta m => cases m <;> decide

/- A plain word is a name to work on. -/
theorem PlainWord.unbracketed
    {s : String}
    (hs : PlainWord s) :
    Unbracketed s := by
  refine ⟨hs.1, ?_⟩
  intro c hc
  rcases hs.2 c hc with ⟨hSpace, hBrackets⟩
  refine ⟨?_, hBrackets⟩
  rintro rfl
  exact absurd hSpace (by decide)

------------------------------------------------------------
-- The Text of a Retrieve
------------------------------------------------------------

/- Tokens, each after a blank. -/
def spaced (tokens : List String) : List Char :=
  tokens.flatMap fun t => ' ' :: t.toList

theorem spaced_append (tokens others : List String) :
    spaced (tokens ++ others) = spaced tokens ++ spaced others :=
  List.flatMap_append

theorem spaced_projectionTokens (fields : List Field) :
    spaced (projectionTokens fields) =
      projectionChars (fields.map fieldName) := by
  cases fields with
  | nil => rfl
  | cons field rest =>
      have hJoined :=
        Text.toList_intercalate_cons ", " (fieldName field)
          (rest.map fieldName)
      simpa [spaced, projectionTokens, projectionChars, commaChars]
        using hJoined

theorem spaced_predicateTokens
    (j : Option Conjunction)
    (c : Constraint) :
    spaced (leadWord j :: predicateTokens c) =
      predicateChars ⟨j, c.field, c.operator, c.value⟩ := by
  simp [spaced, predicateTokens, predicateChars, literal]

theorem spaced_links (constraints : List Constraint) :
    spaced (constraints.flatMap linkTokens) =
      (constraints.map fun c =>
        (⟨some c.conjunction, c.field, c.operator, c.value⟩ :
          Predicate)).flatMap predicateChars := by
  induction constraints with
  | nil => rfl
  | cons c rest ih =>
      rw [List.flatMap_cons, spaced_append, ih, List.map_cons,
        List.flatMap_cons, ← spaced_predicateTokens]
      rfl

theorem spaced_whereTokens (constraints : List Constraint) :
    spaced (whereTokens constraints) =
      (predicatesOf constraints).flatMap predicateChars := by
  cases constraints with
  | nil => rfl
  | cons c rest =>
      rw [whereTokens, spaced_append, spaced_links, predicatesOf,
        List.flatMap_cons, ← spaced_predicateTokens]
      rfl

theorem toList_sortKeyText (key : SortKey) :
    (sortKeyText key).toList =
      keyChars (fieldName key.field, key.direction) := by
  simp [sortKeyText, keyChars]

theorem spaced_orderTokens (keys : List SortKey) :
    spaced (orderTokens keys) =
      orderChars
        (keys.map fun key => (fieldName key.field, key.direction)) := by
  cases keys with
  | nil => rfl
  | cons key rest =>
      have hJoined :=
        Text.toList_intercalate_cons ", " (sortKeyText key)
          (rest.map sortKeyText)
      have hKeys :
          (rest.map sortKeyText).flatMap
              (fun s => ", ".toList ++ s.toList) =
            commaChars keyChars
              (rest.map fun key =>
                (fieldName key.field, key.direction)) := by
        simp [commaChars, List.flatMap_map, toList_sortKeyText]
      rw [hKeys, toList_sortKeyText] at hJoined
      simp [spaced, orderTokens, orderChars, hJoined]

theorem spaced_limitTokens (rows : Nat) :
    spaced (limitTokens rows) = limitChars rows := by
  rw [limitTokens, limitChars]
  split
  · rfl
  · simp [spaced, Nat.toList_repr]

/- The text of a retrieve is that of its query. -/
theorem toList_bufferOn
    {bag : Bag}
    (hCommand : bag.command = .retrieve)
    {explicit : Source}
    {word : String}
    (hSource : (queryOn bag explicit).source.chars = word.toList) :
    (bufferOn bag word).text.toList = (queryOn bag explicit).chars := by
  have hSelect :
      (Buffer.mk (verb .retrieve (elementKind bag))).isEmpty =
        false := rfl
  rw [bufferOn, hCommand, Buffer.toList_text_extend hSelect,
    Query.chars_eq, hSource]
  change _ ++ spaced (tokens bag word) = _
  simp only [tokens, hCommand, spaced_append,
    spaced_projectionTokens, spaced_whereTokens, spaced_orderTokens,
    spaced_limitTokens, queryOn]
  simp [spaced, verb]

------------------------------------------------------------
-- Plain Retrieves Ask for Plain Queries
------------------------------------------------------------

/- A predicate comes from a constraint. -/
theorem exists_of_mem_predicatesOf
    {constraints : List Constraint}
    {p : Predicate}
    (hp : p ∈ predicatesOf constraints) :
    ∃ c ∈ constraints, p.field = c.field ∧ p.value = c.value := by
  cases constraints with
  | nil => cases hp
  | cons c rest =>
      rcases List.mem_cons.mp hp with rfl | hRest
      · exact ⟨c, List.mem_cons_self, rfl, rfl⟩
      · rcases List.mem_map.mp hRest with ⟨d, hd, rfl⟩
        exact ⟨d, List.mem_cons_of_mem c hd, rfl, rfl⟩

/- The predicates of a plain retrieve are plain. -/
theorem plain_predicatesOf
    {bag : Bag}
    {explicit : Prop}
    (hPlain : PlainOn bag explicit)
    (hParts : PartsOk bag) :
    ∀ p ∈ predicatesOf (filters bag), p.Plain := by
  intro p hp
  rcases exists_of_mem_predicatesOf hp with ⟨c, hc, hField, hValue⟩
  simp only [PartsOk, hPlain.command] at hParts
  have hMem := hc
  simp only [filters, hPlain.command, List.mem_filter,
    decide_eq_true_eq] at hMem
  rcases hMem with ⟨hc', hLabel, hId, hKind⟩
  rcases hPlain.filters c hc' hLabel hId hKind with
    ⟨name, hData, hName⟩
  refine ⟨⟨name, hField.trans hData, hName.separable⟩, ?_⟩
  rw [hValue]
  exact (hParts.2 c hc).finite

/- A plain explicit target stands for a plain source. -/
theorem plain_sourceOf
    {target : Option Target}
    (hInner :
      ∀ inner, target = some (.embedded inner) →
        ∀ {ctx : Context} {s : String}, Plain inner →
          statement inner ctx = .ok s →
            (query inner).Plain ∧ s.toList = (query inner).chars)
    (hPlain : PlainTarget target)
    {ctx : Context}
    {o : Option String}
    (hExplicit : explicitTarget target ctx = .ok o) :
    (sourceOf target).Plain ∧
      (sourceOf target).chars = (o.getD defaultClass).toList := by
  cases target with
  | none =>
      cases hExplicit
      have hDefault : PlainWord defaultClass := by
        decide
      rw [sourceOf, Source.Plain, Source.chars]
      exact ⟨hDefault.unbracketed, rfl⟩
  | some target =>
      cases target with
      | named name =>
          cases hExplicit
          rw [PlainTarget] at hPlain
          rw [sourceOf, Source.Plain, Source.chars]
          exact ⟨hPlain.unbracketed, rfl⟩
      | embedded inner =>
          rcases explicitTarget_embedded.mp hExplicit with
            ⟨script, _, hScript, rfl⟩
          rw [PlainTarget] at hPlain
          rcases hInner inner rfl hPlain hScript with
            ⟨hQuery, hChars⟩
          rw [sourceOf, Source.Plain, Source.chars, ← hChars]
          refine ⟨hQuery, ?_⟩
          simp

/-
  A plain retrieve that has a statement asks for a plain query,
  whose text the statement is.
-/
theorem query_of_statement (bag : Bag) :
    ∀ {ctx : Context} {s : String}, Plain bag →
      statement bag ctx = .ok s →
        (query bag).Plain ∧ s.toList = (query bag).chars := by
  induction bag using Bag.embedded_induction with
  | hStep bag ih =>
      intro ctx s hPlain h
      rw [plain_iff] at hPlain
      rcases statement_eq_ok_iff.mp h with
        ⟨word, hWord, ⟨_, hParts⟩, rfl⟩
      rw [query_eq]
      have hSource :
          (queryOn bag (sourceOf bag.target)).source.Plain ∧
            (queryOn bag (sourceOf bag.target)).source.chars =
              word.toList := by
        have hTarget := hPlain.target
        rw [ResolvesOn] at hWord
        simp only [queryOn]
        cases hNaming : naming? bag with
        | some v =>
            rw [hNaming] at hWord hTarget
            rcases hTarget with ⟨name, hValue, hName⟩
            rw [hWord] at hValue
            cases hValue
            rw [hWord, Source.Plain, Source.chars]
            exact ⟨hName.unbracketed, rfl⟩
        | none =>
            rw [hNaming] at hWord hTarget
            rcases hWord with ⟨o, hExplicit, rfl, _⟩
            exact plain_sourceOf ih hTarget hExplicit
      refine ⟨?_, toList_bufferOn hPlain.command hSource.2⟩
      rw [Query.plain_iff]
      refine ⟨?_, hSource.1, plain_predicatesOf hPlain hParts, ?_⟩
      · intro name hName
        rcases List.mem_map.mp hName with ⟨f, hf, rfl⟩
        exact (hPlain.projections f hf).separable
      · intro key hKey
        rcases List.mem_map.mp hKey with ⟨k, hk, rfl⟩
        exact (hPlain.order k hk).separable.1

end Sql

/-
  Two plain retrieves with one script ask for the same: the
  same projections, the same target, the same predicates with
  the same values, the same order and the same limit.
-/
theorem Processor.query_eq_of_script_eq
    {bag other : Bag}
    (hBag : Sql.Plain bag)
    (hOther : Sql.Plain other)
    {m n : Nat}
    {command next : Command}
    (hCommand : (Processor.mk m).compile bag = .ok command)
    (hNext : (Processor.mk n).compile other = .ok next)
    (hScript : command.script = next.script) :
    Sql.query bag = Sql.query other := by
  rcases map_eq_ok_iff.mp hCommand with ⟨s, hs, rfl⟩
  rcases map_eq_ok_iff.mp hNext with ⟨t, ht, rfl⟩
  have hEq : s = t := hScript
  subst hEq
  rcases Sql.query_of_statement bag hBag hs with ⟨hPlain, hText⟩
  rcases Sql.query_of_statement other hOther ht with
    ⟨hOtherPlain, hOtherText⟩
  have hCloses : Sql.Closes [] := by
    simp [Sql.Closes]
  have hChars :
      (Sql.query bag).chars ++ [] = (Sql.query other).chars ++ [] := by
    rw [← hText, ← hOtherText]
  exact (Sql.Query.chars_append_inj hPlain hOtherPlain hCloses
    hCloses hChars).1

/-
  A retrieve whose values look like the rest of a statement.
  The conjunction of its first constraint is not written.
-/
def hostileRetrieve
    (first : Conjunction)
    (limit : Option UInt64) : Bag where
  projections := [.data "name", .ofMeta .kind]
  constraints :=
    [⟨.data "note", .eq, .string "' OR 1 = 1) LIMIT 5", first⟩,
     ⟨.data "tags", .within,
       .list [.string "]", .map [("k", .string "'\\")], .null], .or⟩]
  target :=
    some (.embedded
      { constraints := [.equals (.ofMeta .label) (.string "Person")]
        limit := some 3 })
  orderBy := [⟨.data "name", .desc⟩]
  limit := limit

theorem plain_hostileRetrieve
    (first : Conjunction)
    (limit : Option UInt64) :
    Sql.Plain (hostileRetrieve first limit) := by
  rw [Sql.plain_iff]
  refine ⟨rfl, ?_, ?_, ?_, ?_⟩
  · intro f hf name hName
    simp only [hostileRetrieve, List.mem_cons, List.not_mem_nil,
      or_false] at hf
    rcases hf with rfl | rfl
    · cases hName
      decide
    · cases hName
  · intro c hc _ _ _
    simp only [hostileRetrieve, List.mem_cons, List.not_mem_nil,
      or_false] at hc
    rcases hc with rfl | rfl
    · exact ⟨"note", rfl, by decide⟩
    · exact ⟨"tags", rfl, by decide⟩
  · intro key hKey name hName
    simp only [hostileRetrieve, List.mem_cons, List.not_mem_nil,
      or_false] at hKey
    subst hKey
    cases hName
    decide
  · change Sql.Plain _
    rw [Sql.plain_iff]
    refine ⟨rfl, ?_, ?_, ?_, "Person", rfl, by decide⟩
    · simp
    · intro c hc hLabel
      rw [List.mem_singleton.mp hc] at hLabel
      exact absurd rfl hLabel
    · simp

set_option maxRecDepth 2000 in
theorem Processor.query_eq_of_script_eq_hostileRetrieve :
    ∃ command next,
      (Processor.mk 1).compile (hostileRetrieve .and (some 0)) =
          .ok command ∧
        (Processor.mk 8).compile (hostileRetrieve .or none) =
          .ok next ∧
          command.script = next.script ∧
            Sql.query (hostileRetrieve .and (some 0)) =
              Sql.query (hostileRetrieve .or none) := by
  have hCommand :
      (Processor.mk 1).compile (hostileRetrieve .and (some 0)) =
        .ok _ := rfl
  have hNext :
      (Processor.mk 8).compile (hostileRetrieve .or none) =
        .ok _ := rfl
  exact ⟨_, _, hCommand, hNext, rfl,
    query_eq_of_script_eq (plain_hostileRetrieve _ _)
      (plain_hostileRetrieve _ _) hCommand hNext rfl⟩

end GraphBag
