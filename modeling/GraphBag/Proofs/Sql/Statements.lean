import GraphBag.Proofs.Sql.Clauses
import GraphBag.Sql.Statement

/-
  What a statement says, and when there is one.  A statement is
  a verb and the words of its clauses; the only one of them
  that can take another statement is the word for what it works
  on.

  Main declarations:
    * `Sql.naming?`
    * `Sql.ResolvesOn`
    * `Sql.PartsOk`
    * `Sql.tokens`
    * `Sql.statement_eq_ok_iff`
-/

namespace GraphBag

namespace Sql

open Buffer (Adds)

------------------------------------------------------------
-- Parts of a Statement
------------------------------------------------------------

/- The constraints that are written as predicates. -/
def filters (bag : Bag) : List Constraint :=
  match bag.command with
  | .retrieve | .delete =>
      bag.constraints.filter fun c =>
        ¬ c.IsOn .label ∧ ¬ c.IsOn .id ∧ ¬ c.IsOn .kind
  | .update =>
      bag.constraints.filter fun c =>
        ¬ c.IsOn .label ∧ ¬ c.IsOn .kind
  | .create => []

/- The kind of element that a command names. -/
def elementKind (bag : Bag) : ElementKind :=
  match bag.command with
  | .create => ElementKind.ofValue? (bag.metaData? .kind)
  | .delete => ElementKind.ofValue? (bag.constrained? .kind)
  | .retrieve | .update => .vertex

/- The value in a bag that names what its statement works on. -/
def naming? (bag : Bag) : Option Value :=
  match bag.command with
  | .retrieve | .delete => (resolveTarget bag.constraints).1
  | .create | .update =>
      (bag.metaData? .label).or (bag.constrained? .label)

/- The statement works on the result of an embedded bag. -/
def worksOnEmbedded (bag : Bag) : Bool :=
  match naming? bag, bag.target with
  | none, some (.embedded _) => true
  | _, _ => false

/- The data of a meta-field as a word. -/
def endpointWord (bag : Bag) (m : MetaField) : String :=
  ((bag.metaData? m).bind Value.string?).getD ""

/- The words of both endpoints of an edge. -/
def endpointTokens (bag : Bag) : List String :=
  match elementKind bag with
  | .vertex => []
  | .edge =>
      ["FROM", endpointWord bag .outVertex,
       "TO", endpointWord bag .inVertex]

/- The words after the verb, given what the statement works on. -/
def tokens (bag : Bag) (word : String) : List String :=
  match bag.command with
  | .retrieve =>
      projectionTokens bag.projections ++ (["FROM", word] ++
        (whereTokens (filters bag) ++ (orderTokens bag.orderBy ++
          limitTokens (rowLimit bag.limit))))
  | .create =>
      [word] ++ (endpointTokens bag ++ contentTokens "CONTENT" bag)
  | .update =>
      [word] ++ (contentTokens "MERGE" bag ++
        (["RETURN AFTER $current"] ++ (whereTokens (filters bag) ++
          limitTokens (rowLimit bag.limit))))
  | .delete =>
      (if worksOnEmbedded bag then ["FROM", word] else [word]) ++
        (whereTokens (filters bag) ++
          limitTokens (rowLimit bag.limit))

/- The buffer of a statement, given what it works on. -/
def bufferOn (bag : Bag) (word : String) : Buffer :=
  Buffer.extend ⟨verb bag.command (elementKind bag)⟩
    (tokens bag word)

/- An endpoint is a string that is not blank. -/
def EndpointOk (bag : Bag) (m : MetaField) : Prop :=
  ∃ s, bag.metaData? m = some (.string s) ∧ Text.isBlank s = false

/- All numbers in the content are finite. -/
def ContentOk (bag : Bag) : Prop :=
  ∀ entry ∈ bag.content, entry.2.Finite

/- The parts besides the target can be written. -/
def PartsOk (bag : Bag) : Prop :=
  match bag.command with
  | .retrieve =>
      ProjectionsOk bag.projections ∧
        ∀ c ∈ filters bag, PredicateOk c
  | .create =>
      (elementKind bag = .edge →
        EndpointOk bag .outVertex ∧ EndpointOk bag .inVertex) ∧
        ContentOk bag
  | .update => ContentOk bag ∧ ∀ c ∈ filters bag, PredicateOk c
  | .delete => ∀ c ∈ filters bag, PredicateOk c

/-
  What a statement works on: what the bag names, else its
  explicit target.  A create needs a class for that.
-/
def ResolvesOn
    (bag : Bag)
    (explicit : Except CompileError (Option String))
    (word : String) : Prop :=
  match naming? bag with
  | some v => v = .string word
  | none =>
      ∃ o, explicit = .ok o ∧ word = o.getD defaultClass ∧
        (bag.command = .create →
          o ≠ none ∧ ∀ inner, bag.target ≠ some (.embedded inner))

------------------------------------------------------------
-- Targets and Classes
------------------------------------------------------------

/- A constraint names what a retrieve or a delete works on. -/
theorem naming?_eq_target
    {bag : Bag}
    (hCommand : bag.command = .retrieve ∨ bag.command = .delete) :
    naming? bag = (resolveTarget bag.constraints).1 := by
  unfold naming?
  rcases hCommand with h | h
  · rw [h]
  · rw [h]

/- A label names what a create or an update works on. -/
theorem naming?_eq_label
    {bag : Bag}
    (hCommand : bag.command = .create ∨ bag.command = .update) :
    naming? bag =
      (bag.metaData? .label).or (bag.constrained? .label) := by
  unfold naming?
  rcases hCommand with h | h
  · rw [h]
  · rw [h]

/- The constraints that the target leaves to be predicates. -/
theorem filter_resolveTarget
    {bag : Bag}
    (hCommand : bag.command = .retrieve ∨ bag.command = .delete) :
    (resolveTarget bag.constraints).2.filter (IsPredicate ·) =
      filters bag := by
  have hFilters :
      filters bag =
        bag.constraints.filter fun c =>
          ¬ c.IsOn .label ∧ ¬ c.IsOn .id ∧ ¬ c.IsOn .kind := by
    unfold filters
    rcases hCommand with h | h
    · rw [h]
    · rw [h]
  rw [hFilters, resolveTarget, List.filter_filter]
  congr 1
  funext c
  rw [Bool.eq_iff_iff]
  simp only [Bool.and_eq_true, decide_eq_true_eq]
  unfold IsPredicate NamesTarget
  tauto

/- The constraints of an update that are predicates. -/
theorem filter_isPredicate
    {bag : Bag}
    (hCommand : bag.command = .update) :
    bag.constraints.filter (IsPredicate ·) = filters bag := by
  rw [filters, hCommand]
  rfl

/- Where nothing else is named, the explicit target counts. -/
theorem isEmbedded_eq
    (target : Option Target) :
    (match target with
      | some (.embedded _) => true
      | _ => false) =
      match (none : Option Value), target with
      | none, some (.embedded _) => true
      | _, _ => false := by
  cases target with
  | none => rfl
  | some target => cases target <;> rfl

/- The target of a retrieve or a delete. -/
theorem targetOf_eq_ok_iff
    {bag : Bag}
    (hCommand : bag.command = .retrieve ∨ bag.command = .delete)
    {explicit : Except CompileError (Option String)}
    {word : String}
    {embedded : Bool} :
    targetOf bag explicit = .ok (word, embedded) ↔
      ResolvesOn bag explicit word ∧
        embedded = worksOnEmbedded bag := by
  have hNotCreate : bag.command ≠ .create := by
    rcases hCommand with h | h
    · simp [h]
    · simp [h]
  rw [targetOf, ResolvesOn, worksOnEmbedded,
    naming?_eq_target hCommand]
  cases (resolveTarget bag.constraints).1 with
  | some v =>
      rw [map_eq_ok_iff]
      simp only [wordOf_eq_ok_iff, Prod.mk.injEq]
      constructor
      · rintro ⟨_, hWord, rfl, rfl⟩
        exact ⟨hWord, rfl⟩
      · rintro ⟨hWord, rfl⟩
        exact ⟨word, hWord, rfl, rfl⟩
  | none =>
      rw [bind_eq_ok_iff]
      simp only [Except.ok.injEq, Prod.mk.injEq, hNotCreate,
        false_implies, and_true]
      have hEmbedded := isEmbedded_eq bag.target
      constructor
      · rintro ⟨o, hExplicit, rfl, rfl⟩
        exact ⟨⟨o, hExplicit, rfl⟩, hEmbedded⟩
      · rintro ⟨⟨o, hExplicit, rfl⟩, rfl⟩
        exact ⟨o, hExplicit, rfl, hEmbedded⟩

/- The class that a create or an update names. -/
theorem className?_eq_ok_iff
    {bag : Bag}
    (hCommand : bag.command = .create ∨ bag.command = .update)
    {other : Except CompileError (Option String)}
    {name : Option String} :
    className? bag other = .ok name ↔
      match naming? bag with
      | some v => ∃ word, v = .string word ∧ name = some word
      | none => other = .ok name := by
  rw [className?, naming?_eq_label hCommand]
  cases bag.metaData? .label with
  | some v =>
      simp [map_eq_ok_iff, wordOf_eq_ok_iff]
  | none =>
      cases bag.constrained? .label with
      | some v =>
          simp [map_eq_ok_iff, wordOf_eq_ok_iff]
      | none => simp

/- The class of an update. -/
theorem updatedClass_iff
    {bag : Bag}
    (hCommand : bag.command = .update)
    {explicit : Except CompileError (Option String)}
    {word : String} :
    (∃ name, className? bag explicit = .ok name ∧
        word = name.getD defaultClass) ↔
      ResolvesOn bag explicit word := by
  simp only [className?_eq_ok_iff (Or.inr hCommand), ResolvesOn]
  cases naming? bag with
  | some v =>
      constructor
      · rintro ⟨_, ⟨w, hValue, rfl⟩, rfl⟩
        exact hValue
      · intro hValue
        exact ⟨_, ⟨word, hValue, rfl⟩, rfl⟩
  | none => simp [hCommand]

/- The class of a create. -/
theorem createdClass_eq_ok_iff
    {bag : Bag}
    (hCommand : bag.command = .create)
    {explicit : Except CompileError (Option String)}
    {word : String} :
    createdClass bag explicit = .ok word ↔
      ResolvesOn bag explicit word := by
  rw [createdClass, bind_eq_ok_iff]
  simp only [className?_eq_ok_iff (Or.inl hCommand), ResolvesOn]
  cases naming? bag with
  | some v =>
      constructor
      · rintro ⟨_, ⟨w, hValue, rfl⟩, hWord⟩
        cases hWord
        exact hValue
      · intro hValue
        exact ⟨_, ⟨word, hValue, rfl⟩, rfl⟩
  | none =>
      constructor
      · rintro ⟨name, hOther, hWord⟩
        cases name with
        | none => cases hWord
        | some name =>
            cases hWord
            cases hTarget : bag.target with
            | none =>
                rw [hTarget] at hOther
                exact ⟨_, hOther, rfl, by simp⟩
            | some target =>
                rw [hTarget] at hOther
                cases target with
                | named => exact ⟨_, hOther, rfl, by simp⟩
                | embedded => cases hOther
      · rintro ⟨o, hExplicit, rfl, hClass⟩
        rcases hClass hCommand with ⟨hSome, hNamed⟩
        rcases Option.ne_none_iff_exists'.mp hSome with ⟨name, rfl⟩
        refine ⟨some name, ?_, rfl⟩
        cases hTarget : bag.target with
        | none => exact hExplicit
        | some target =>
            cases target with
            | named => exact hExplicit
            | embedded inner => exact absurd hTarget (hNamed inner)

------------------------------------------------------------
-- Statements with a Given Explicit Target
------------------------------------------------------------

/- No verb is blank. -/
theorem isBlank_verb (command : CommandKind) (kind : ElementKind) :
    Text.isBlank (verb command kind) = false := by
  cases command with
  | retrieve | create | update | delete => cases kind <;> rfl

/- A statement has its verb and then what its clauses add. -/
theorem adds_verb
    (command : CommandKind)
    (kind : ElementKind)
    {add : Buffer → Except CompileError Buffer}
    {p : Prop}
    {words : List String}
    (hAdds : Adds add p words)
    {b : Buffer} :
    Buffer.empty.push .start (verb command kind) >>= add = .ok b ↔
      p ∧ b = Buffer.extend ⟨verb command kind⟩ words := by
  have hBegin :=
    (Buffer.adds_push .start (verb command kind)).bind hAdds
  refine (hBegin .empty b).trans (and_congr ?_ ?_)
  · rw [and_iff_right (isBlank_verb command kind)]
  · rw [List.singleton_append, Buffer.extend_empty_cons]

/- A target adds its word, with FROM before it or not. -/
theorem adds_target
    {bag : Bag}
    {explicit : Except CompileError (Option String)}
    {word : String}
    {embedded : Bool}
    (always : Bool)
    (hTarget : targetOf bag explicit = .ok (word, embedded)) :
    Adds (addTarget · always bag explicit)
      (Text.isBlank word = false)
      (if always || embedded then ["FROM", word] else [word]) := by
  intro b b'
  have hStep :
      addTarget b always bag explicit =
        if (always || embedded) = true then do
          let b ← b.push .target "FROM"
          b.push .target word
        else b.push .target word := by
    rw [addTarget, hTarget]
    rfl
  simp only [hStep]
  cases always || embedded with
  | true =>
      have hAdds :=
        (Buffer.adds_push .target "FROM").bind
          (Buffer.adds_push .target word) b b'
      exact hAdds.trans (and_congr_left' (and_iff_right rfl))
  | false => exact Buffer.adds_push .target word b b'

/- A target that is added has been found. -/
theorem targetOf_of_addTarget
    {bag : Bag}
    {explicit : Except CompileError (Option String)}
    {always : Bool}
    {b b' : Buffer}
    (h : addTarget b always bag explicit = .ok b') :
    ∃ word embedded, targetOf bag explicit = .ok (word, embedded) := by
  rw [addTarget, bind_eq_ok_iff] at h
  rcases h with ⟨⟨word, embedded⟩, hTarget, _⟩
  exact ⟨word, embedded, hTarget⟩

/- The statement of a retrieve whose target is found. -/
theorem retrieve_of_resolves
    {bag : Bag}
    (hCommand : bag.command = .retrieve)
    {explicit : Except CompileError (Option String)}
    {word : String}
    (hWord : ResolvesOn bag explicit word)
    {b : Buffer} :
    retrieve bag explicit = .ok b ↔
      (Text.isBlank word = false ∧ PartsOk bag) ∧
        b = bufferOn bag word := by
  have hTarget :
      targetOf bag explicit = .ok (word, worksOnEmbedded bag) :=
    (targetOf_eq_ok_iff (Or.inl hCommand)).mpr ⟨hWord, rfl⟩
  have hAdds :=
    (adds_projections bag.projections).bind
      ((adds_target true hTarget).bind
        ((adds_predicates (resolveTarget bag.constraints).2).bind
          ((adds_order bag.orderBy).bind (adds_limit bag.limit))))
  rw [filter_resolveTarget (Or.inl hCommand)] at hAdds
  refine (adds_verb .retrieve .vertex hAdds).trans (and_congr ?_ ?_)
  · simp only [PartsOk, hCommand]
    tauto
  · simp only [bufferOn, tokens, hCommand, elementKind]
    rfl

/- The statement of a delete whose target is found. -/
theorem delete_of_resolves
    {bag : Bag}
    (hCommand : bag.command = .delete)
    {explicit : Except CompileError (Option String)}
    {word : String}
    (hWord : ResolvesOn bag explicit word)
    {b : Buffer} :
    delete bag explicit = .ok b ↔
      (Text.isBlank word = false ∧ PartsOk bag) ∧
        b = bufferOn bag word := by
  have hTarget :
      targetOf bag explicit = .ok (word, worksOnEmbedded bag) :=
    (targetOf_eq_ok_iff (Or.inr hCommand)).mpr ⟨hWord, rfl⟩
  have hAdds :=
    (adds_target false hTarget).bind
      ((adds_predicates (resolveTarget bag.constraints).2).bind
        (adds_limit bag.limit))
  rw [filter_resolveTarget (Or.inr hCommand)] at hAdds
  refine (adds_verb .delete _ hAdds).trans (and_congr ?_ ?_)
  · simp only [PartsOk, hCommand]
    tauto
  · simp only [bufferOn, tokens, hCommand, elementKind]
    rfl

/- An endpoint is the string in the data of its meta-field. -/
theorem endpoint_eq_ok_iff
    {bag : Bag}
    {m : MetaField}
    {side word : String} :
    endpoint bag m side = .ok word ↔
      bag.metaData? m = some (.string word) := by
  rw [endpoint]
  cases bag.metaData? m with
  | none => simp
  | some v => simp [wordOf_eq_ok_iff]

/- The word of an endpoint that is there. -/
theorem endpointWord_eq
    {bag : Bag}
    {m : MetaField}
    {word : String}
    (hData : bag.metaData? m = some (.string word)) :
    endpointWord bag m = word := by
  simp [endpointWord, hData, Value.string?]

/- Endpoints add both their words. -/
theorem adds_endpoints (bag : Bag) :
    Adds (addEndpoints · bag)
      (EndpointOk bag .outVertex ∧ EndpointOk bag .inVertex)
      ["FROM", endpointWord bag .outVertex,
       "TO", endpointWord bag .inVertex] := by
  have hPush (source sink : String) :=
    (Buffer.adds_push .endpoints "FROM").bind
      ((Buffer.adds_push .endpoints source).bind
        ((Buffer.adds_push .endpoints "TO").bind
          (Buffer.adds_push .endpoints sink)))
  intro b b'
  simp only [addEndpoints]
  constructor
  · intro h
    rcases bind_eq_ok_iff.mp h with ⟨source, hSource, h⟩
    rcases bind_eq_ok_iff.mp h with ⟨sink, hSink, h⟩
    rcases (hPush source sink b b').mp h with
      ⟨⟨_, hFrom, _, hTo⟩, hEnd⟩
    rw [endpoint_eq_ok_iff] at hSource hSink
    rw [endpointWord_eq hSource, endpointWord_eq hSink]
    exact ⟨⟨⟨source, hSource, hFrom⟩, ⟨sink, hSink, hTo⟩⟩, hEnd⟩
  · rintro ⟨⟨⟨source, hSource, hFrom⟩, ⟨sink, hSink, hTo⟩⟩, hEnd⟩
    rw [endpointWord_eq hSource, endpointWord_eq hSink] at hEnd
    refine bind_eq_ok_iff.mpr
      ⟨source, endpoint_eq_ok_iff.mpr hSource, ?_⟩
    refine bind_eq_ok_iff.mpr
      ⟨sink, endpoint_eq_ok_iff.mpr hSink, ?_⟩
    exact (hPush source sink b b').mpr
      ⟨⟨rfl, hFrom, rfl, hTo⟩, hEnd⟩

/- The statement of a create whose class is found. -/
theorem create_of_resolves
    {bag : Bag}
    (hCommand : bag.command = .create)
    {explicit : Except CompileError (Option String)}
    {word : String}
    (hWord : ResolvesOn bag explicit word)
    {b : Buffer} :
    create bag explicit = .ok b ↔
      (Text.isBlank word = false ∧ PartsOk bag) ∧
        b = bufferOn bag word := by
  have hKind :
      elementKind bag =
        ElementKind.ofValue? (bag.metaData? .kind) := by
    rw [elementKind, hCommand]
  have hContent := adds_content "CONTENT" rfl bag
  rw [create, ← hKind, (createdClass_eq_ok_iff hCommand).mpr hWord]
  simp only [PartsOk, bufferOn, tokens, endpointTokens, hCommand]
  cases elementKind bag with
  | vertex =>
      have hAdds := (Buffer.adds_push .className word).bind hContent
      refine (adds_verb .create .vertex hAdds).trans (and_congr ?_ ?_)
      · simp only [ContentOk, reduceCtorEq, false_implies, true_and]
      · rfl
  | edge =>
      have hAdds :=
        (Buffer.adds_push .className word).bind
          ((adds_endpoints bag).bind hContent)
      refine (adds_verb .create .edge hAdds).trans (and_congr ?_ ?_)
      · simp only [ContentOk, true_implies]
      · rfl

/- The statement of an update whose class is found. -/
theorem update_of_resolves
    {bag : Bag}
    (hCommand : bag.command = .update)
    {explicit : Except CompileError (Option String)}
    {word : String}
    (hWord : ResolvesOn bag explicit word)
    {b : Buffer} :
    update bag explicit = .ok b ↔
      (Text.isBlank word = false ∧ PartsOk bag) ∧
        b = bufferOn bag word := by
  rcases (updatedClass_iff hCommand).mpr hWord with
    ⟨name, hClass, rfl⟩
  have hAdds :=
    (Buffer.adds_push .className (name.getD defaultClass)).bind
      ((adds_content "MERGE" rfl bag).bind
        ((Buffer.adds_push .result "RETURN AFTER $current").bind
          ((adds_predicates bag.constraints).bind
            (adds_limit bag.limit))))
  rw [filter_isPredicate hCommand] at hAdds
  rw [update, hClass]
  refine (adds_verb .update .vertex hAdds).trans (and_congr ?_ ?_)
  · have hResult :
        Text.isBlank "RETURN AFTER $current" = false := rfl
    simp only [PartsOk, ContentOk, hCommand]
    tauto
  · simp only [bufferOn, tokens, hCommand, elementKind]

/- A statement that is written works on something. -/
theorem resolves_of_statementOn
    {bag : Bag}
    {explicit : Except CompileError (Option String)}
    {s : String}
    (h : statementOn bag explicit = .ok s) :
    ∃ word, ResolvesOn bag explicit word := by
  rw [statementOn] at h
  cases hCommand : bag.command with
  | retrieve =>
      rw [hCommand] at h
      rcases bind_eq_ok_iff.mp h with ⟨_, hBuffer, _⟩
      rcases bind_eq_ok_iff.mp hBuffer with ⟨_, _, hBuffer⟩
      rcases bind_eq_ok_iff.mp hBuffer with ⟨_, _, hBuffer⟩
      rcases bind_eq_ok_iff.mp hBuffer with ⟨_, hTarget, _⟩
      rcases targetOf_of_addTarget hTarget with ⟨word, _, hWord⟩
      exact ⟨word,
        ((targetOf_eq_ok_iff (Or.inl hCommand)).mp hWord).1⟩
  | create =>
      rw [hCommand] at h
      rcases bind_eq_ok_iff.mp h with ⟨_, hBuffer, _⟩
      rcases bind_eq_ok_iff.mp hBuffer with ⟨word, hWord, _⟩
      exact ⟨word, (createdClass_eq_ok_iff hCommand).mp hWord⟩
  | update =>
      rw [hCommand] at h
      rcases bind_eq_ok_iff.mp h with ⟨_, hBuffer, _⟩
      rcases bind_eq_ok_iff.mp hBuffer with ⟨name, hName, _⟩
      exact ⟨_, (updatedClass_iff hCommand).mp ⟨name, hName, rfl⟩⟩
  | delete =>
      rw [hCommand] at h
      rcases bind_eq_ok_iff.mp h with ⟨_, hBuffer, _⟩
      rcases bind_eq_ok_iff.mp hBuffer with ⟨_, _, hBuffer⟩
      rcases bind_eq_ok_iff.mp hBuffer with ⟨_, hTarget, _⟩
      rcases targetOf_of_addTarget hTarget with ⟨word, _, hWord⟩
      exact ⟨word,
        ((targetOf_eq_ok_iff (Or.inr hCommand)).mp hWord).1⟩

/- The statement of a bag whose target is found. -/
theorem statementOn_of_resolves
    {bag : Bag}
    {explicit : Except CompileError (Option String)}
    {word : String}
    (hWord : ResolvesOn bag explicit word)
    {s : String} :
    statementOn bag explicit = .ok s ↔
      (Text.isBlank word = false ∧ PartsOk bag) ∧
        s = (bufferOn bag word).text := by
  have hText {x : Except CompileError Buffer}
      (hBuffer :
        ∀ {b}, x = .ok b ↔
          (Text.isBlank word = false ∧ PartsOk bag) ∧
            b = bufferOn bag word) :
      (do
        let b ← x
        .ok b.text) = .ok s ↔
        (Text.isBlank word = false ∧ PartsOk bag) ∧
          s = (bufferOn bag word).text := by
    rw [bind_eq_ok_iff]
    simp only [hBuffer, Except.ok.injEq]
    constructor
    · rintro ⟨_, ⟨hOk, rfl⟩, rfl⟩
      exact ⟨hOk, rfl⟩
    · rintro ⟨hOk, rfl⟩
      exact ⟨_, ⟨hOk, rfl⟩, rfl⟩
  rw [statementOn]
  cases hCommand : bag.command with
  | retrieve => exact hText (retrieve_of_resolves hCommand hWord)
  | create => exact hText (create_of_resolves hCommand hWord)
  | update => exact hText (update_of_resolves hCommand hWord)
  | delete => exact hText (delete_of_resolves hCommand hWord)

------------------------------------------------------------
-- Statements
------------------------------------------------------------

/- The statement of a bag is the one on its explicit target. -/
theorem statement_eq (bag : Bag) (ctx : Context) :
    statement bag ctx =
      statementOn bag (explicitTarget bag.target ctx) := by
  rcases bag with ⟨_, _, _, _, _, _, _, _⟩
  rw [statement]

/-
  A statement is written exactly when what it works on is found
  and not blank and its other parts can be written.
-/
theorem statement_eq_ok_iff
    {bag : Bag}
    {ctx : Context}
    {s : String} :
    statement bag ctx = .ok s ↔
      ∃ word,
        ResolvesOn bag (explicitTarget bag.target ctx) word ∧
          (Text.isBlank word = false ∧ PartsOk bag) ∧
            s = (bufferOn bag word).text := by
  rw [statement_eq]
  constructor
  · intro h
    rcases resolves_of_statementOn h with ⟨word, hWord⟩
    exact ⟨word, hWord, (statementOn_of_resolves hWord).mp h⟩
  · rintro ⟨word, hWord, hText⟩
    exact (statementOn_of_resolves hWord).mpr hText

/- An embedded bag is written in brackets, one level deeper. -/
theorem explicitTarget_embedded
    {inner : Bag}
    {ctx : Context}
    {o : Option String} :
    explicitTarget (some (.embedded inner)) ctx = .ok o ↔
      ∃ script,
        0 < ctx.room ∧
          statement inner { ctx with depth := ctx.depth + 1 } =
              .ok script ∧
            o = some ("(" ++ script ++ ")") := by
  simp only [explicitTarget, bind_eq_ok_iff,
    Context.nested_eq_ok_iff, Except.ok.injEq]
  constructor
  · rintro ⟨_, ⟨hRoom, rfl⟩, script, hScript, rfl⟩
    exact ⟨script, hRoom, hScript, rfl⟩
  · rintro ⟨script, hRoom, hScript, rfl⟩
    exact ⟨_, ⟨hRoom, rfl⟩, script, hScript, rfl⟩

end Sql

------------------------------------------------------------
-- Embedded Bags
------------------------------------------------------------

namespace Bag

variable {P : Bag → Prop}

mutual

/- What follows from the embedded bag holds of every bag. -/
theorem embedded_induction
    (hStep :
      ∀ b : Bag,
        (∀ inner, b.target = some (.embedded inner) → P inner) →
          P b) :
    ∀ b : Bag, P b
  | ⟨_, _, _, _, target, _, _, _⟩ =>
      hStep _ (target_induction hStep target)

theorem target_induction
    (hStep :
      ∀ b : Bag,
        (∀ inner, b.target = some (.embedded inner) → P inner) →
          P b) :
    ∀ (target : Option Target) (inner : Bag),
      target = some (.embedded inner) → P inner
  | some (.embedded bag), inner, h => by
      cases h
      exact embedded_induction hStep bag
  | none, _, h | some (.named _), _, h => by
      cases h

end

end Bag

end GraphBag
