import GraphBag.Proofs.Sql.Nesting

/-
  Names in statements.  A name that is a word of its own is never
  blank: a bag that holds a blank one is refused.  Sort keys, and
  projections where there are several, are written into one word
  each, and so a blank name among them leaves a hole.

  Main declarations:
    * `Sql.checkedNames`
    * `Sql.joinedNames`
    * `Sql.Complete`
    * `Sql.names_of_statement`
    * `Sql.failsOnly_statement`
    * `Processor.names_of_compile`
-/

namespace GraphBag

namespace Sql

------------------------------------------------------------
-- Names
------------------------------------------------------------

/- The name of what a statement works on, if it is no command. -/
def workedOn? (bag : Bag) : Option String :=
  match naming? bag, bag.target with
  | some v, _ => v.string?
  | none, some (.named name) => some name
  | none, some (.embedded _) => none
  | none, none => some defaultClass

/- The names of the endpoints of a created edge. -/
def endpointNames (bag : Bag) : List String :=
  match elementKind bag with
  | .vertex => []
  | .edge =>
      [MetaField.outVertex, MetaField.inVertex].filterMap fun m =>
        (bag.metaData? m).bind Value.string?

/- The names besides the target that are words of their own. -/
def ownNames (bag : Bag) : List String :=
  match bag.command with
  | .retrieve =>
      (if bag.projections.length = 1 then
        bag.projections.map fieldName
      else []) ++
        (filters bag).map fun c => fieldName c.field
  | .create => endpointNames bag
  | .update | .delete => (filters bag).map fun c => fieldName c.field

/- All names that are words of their own. -/
def checkedNames (bag : Bag) : List String :=
  (workedOn? bag).toList ++ ownNames bag

/- The names that are written into a word together with others. -/
def joinedNames (bag : Bag) : List String :=
  match bag.command with
  | .retrieve =>
      (if bag.projections.length = 1 then []
      else bag.projections.map fieldName) ++
        bag.orderBy.map fun key => fieldName key.field
  | .create | .update | .delete => []

/- Nothing is missing: no class, and no endpoint of an edge. -/
def Complete (bag : Bag) : Prop :=
  bag.command = .create →
    (naming? bag = none → bag.target ≠ none) ∧
      (elementKind bag = .edge →
        bag.metaData? .outVertex ≠ none ∧
          bag.metaData? .inVertex ≠ none)

instance (bag : Bag) : Decidable (Complete bag) := by
  unfold Complete
  infer_instance

------------------------------------------------------------
-- One Statement
------------------------------------------------------------

section OneStatement

variable {bag : Bag}
variable {name : String}

/- The name of what a statement works on is its word for it. -/
theorem eq_of_workedOn?
    {ctx : Context}
    {word : String}
    (hWord : ResolvesOn bag (explicitTarget bag.target ctx) word)
    (h : workedOn? bag = some name) :
    name = word := by
  unfold workedOn? at h
  unfold ResolvesOn at hWord
  cases hNaming : naming? bag with
  | some v =>
      rw [hNaming] at h hWord
      subst hWord
      exact (Option.some.inj h).symm
  | none =>
      rw [hNaming] at h hWord
      rcases hWord with ⟨o, hExplicit, rfl, _⟩
      cases hTarget : bag.target with
      | none =>
          rw [hTarget] at h hExplicit
          cases h
          cases hExplicit
          rfl
      | some target =>
          rw [hTarget] at h hExplicit
          cases target with
          | named other =>
              cases h
              cases hExplicit
              rfl
          | embedded inner => cases h

/- An endpoint has a name where its data is a string. -/
theorem mem_endpointNames
    (h : name ∈ endpointNames bag) :
    elementKind bag = .edge ∧
      (bag.metaData? .outVertex = some (.string name) ∨
        bag.metaData? .inVertex = some (.string name)) := by
  have hString
      {m : MetaField}
      (hm : (bag.metaData? m).bind Value.string? = some name) :
      bag.metaData? m = some (.string name) := by
    rcases Option.bind_eq_some_iff.mp hm with ⟨v, hData, hv⟩
    cases v with
    | string s =>
        cases hv
        exact hData
    | null | bool | int | float | list | map => cases hv
  unfold endpointNames at h
  cases hKind : elementKind bag with
  | vertex =>
      rw [hKind] at h
      cases h
  | edge =>
      rw [hKind] at h
      rcases List.mem_filterMap.mp h with ⟨m, hm, hData⟩
      simp only [List.mem_cons, List.not_mem_nil, or_false] at hm
      rcases hm with rfl | rfl
      · exact ⟨rfl, Or.inl (hString hData)⟩
      · exact ⟨rfl, Or.inr (hString hData)⟩

/- A predicate is written by the name of its field. -/
theorem mem_whereTokens
    {constraints : List Constraint}
    (h : name ∈ constraints.map fun c => fieldName c.field) :
    name ∈ whereTokens constraints := by
  rcases List.mem_map.mp h with ⟨c, hc, rfl⟩
  cases constraints with
  | nil => cases hc
  | cons first rest =>
      rw [whereTokens]
      rcases List.mem_cons.mp hc with rfl | hRest
      · simp [predicateTokens]
      · have hLink : fieldName c.field ∈ rest.flatMap linkTokens := by
          apply List.mem_flatMap_of_mem hRest
          simp [linkTokens, predicateTokens]
        simp [hLink]

/- A text stands in what it is joined into. -/
theorem infix_intercalate
    {sep : String}
    {texts : List String}
    (h : name ∈ texts) :
    name.toList <:+: (String.intercalate sep texts).toList := by
  cases texts with
  | nil => cases h
  | cons first rest =>
      rw [Text.toList_intercalate_cons]
      rcases List.mem_cons.mp h with rfl | hRest
      · exact (List.prefix_append _ _).isInfix
      · rcases List.append_of_mem hRest with ⟨before, after, rfl⟩
        refine ⟨first.toList ++
            (before.flatMap fun s => sep.toList ++ s.toList) ++
              sep.toList,
          after.flatMap fun s => sep.toList ++ s.toList, ?_⟩
        simp

/- A projected name stands in the one word for all of them. -/
theorem exists_projectionToken
    {fields : List Field}
    (h : name ∈ fields.map fieldName) :
    ∃ token ∈ projectionTokens fields,
      name.toList <:+: token.toList := by
  cases fields with
  | nil => cases h
  | cons f rest =>
      exact ⟨_, List.mem_singleton_self _, infix_intercalate h⟩

/- The name of a sort key stands in the one word for all. -/
theorem exists_orderToken
    {keys : List SortKey}
    (h : name ∈ keys.map fun key => fieldName key.field) :
    ∃ token ∈ orderTokens keys, name.toList <:+: token.toList := by
  rcases List.mem_map.mp h with ⟨key, hKey, rfl⟩
  cases keys with
  | nil => cases hKey
  | cons first rest =>
      have hText :
          (fieldName key.field).toList <:+:
            (sortKeyText key).toList := by
        refine ⟨[], ' ' :: (direction key.direction).toList, ?_⟩
        simp [sortKeyText]
      refine
        ⟨_, List.mem_cons_of_mem _ (List.mem_singleton_self _), ?_⟩
      exact hText.trans
        (infix_intercalate (List.mem_map_of_mem hKey))

/- The names in a retrieve, wherever they stand. -/
theorem mem_retrieveNames
    (hCommand : bag.command = .retrieve)
    (h : name ∈ ownNames bag ++ joinedNames bag) :
    name ∈ bag.projections.map fieldName ∨
      name ∈ ((filters bag).map fun c => fieldName c.field) ∨
        name ∈ bag.orderBy.map fun key => fieldName key.field := by
  simp only [ownNames, joinedNames, hCommand, List.mem_append] at h
  by_cases hOne : bag.projections.length = 1
  · rw [if_pos hOne, if_pos hOne] at h
    rcases h with (h | h) | h | h
    · exact Or.inl h
    · exact Or.inr (Or.inl h)
    · cases h
    · exact Or.inr (Or.inr h)
  · rw [if_neg hOne, if_neg hOne] at h
    rcases h with (h | h) | h | h
    · cases h
    · exact Or.inr (Or.inl h)
    · exact Or.inl h
    · exact Or.inr (Or.inr h)

/- Where the parts are written, names of their own are not blank. -/
theorem isBlank_of_mem_ownNames
    (hParts : PartsOk bag)
    (h : name ∈ ownNames bag) :
    Text.isBlank name = false := by
  have hFilter
      (hPredicates : ∀ c ∈ filters bag, PredicateOk c)
      (hName : name ∈ (filters bag).map fun c => fieldName c.field) :
      Text.isBlank name = false := by
    rcases List.mem_map.mp hName with ⟨c, hc, rfl⟩
    exact (hPredicates c hc).name
  unfold ownNames at h
  unfold PartsOk at hParts
  cases hCommand : bag.command with
  | retrieve =>
      rw [hCommand] at h hParts
      rcases List.mem_append.mp h with hProjection | hName
      · by_cases hOne : bag.projections.length = 1
        · rw [if_pos hOne] at hProjection
          rcases List.length_eq_one_iff.mp hOne with ⟨f, hFields⟩
          rw [hFields, List.map_singleton,
            List.mem_singleton] at hProjection
          rw [hProjection]
          exact hParts.1 f hFields
        · rw [if_neg hOne] at hProjection
          cases hProjection
      · exact hFilter hParts.2 hName
  | create =>
      rw [hCommand] at h hParts
      rcases mem_endpointNames h with ⟨hEdge, hData⟩
      rcases hParts.1 hEdge with
        ⟨⟨source, hSource, hFrom⟩, ⟨sink, hSink, hTo⟩⟩
      rcases hData with hData | hData
      · rw [hSource] at hData
        cases hData
        exact hFrom
      · rw [hSink] at hData
        cases hData
        exact hTo
  | update =>
      rw [hCommand] at h hParts
      exact hFilter hParts.2 h
  | delete =>
      rw [hCommand] at h hParts
      exact hFilter hParts h

/- Each name stands in a word of the statement. -/
theorem exists_token_of_mem
    (h : name ∈ ownNames bag ++ joinedNames bag)
    (word : String) :
    ∃ token ∈ tokens bag word, name.toList <:+: token.toList := by
  cases hCommand : bag.command with
  | retrieve =>
      simp only [tokens, hCommand]
      rcases mem_retrieveNames hCommand h with h | h | h
      · rcases exists_projectionToken h with ⟨token, hToken, hName⟩
        exact ⟨token, by simp [hToken], hName⟩
      · exact ⟨name, by simp [mem_whereTokens h], List.infix_refl _⟩
      · rcases exists_orderToken h with ⟨token, hToken, hName⟩
        exact ⟨token, by simp [hToken], hName⟩
  | create =>
      simp only [ownNames, joinedNames, hCommand,
        List.append_nil] at h
      rcases mem_endpointNames h with ⟨hEdge, hData⟩
      refine ⟨name, ?_, List.infix_refl _⟩
      rcases hData with hData | hData
      · simp [tokens, hCommand, endpointTokens, hEdge,
          endpointWord_eq hData]
      · simp [tokens, hCommand, endpointTokens, hEdge,
          endpointWord_eq hData]
  | update =>
      simp only [ownNames, joinedNames, hCommand,
        List.append_nil] at h
      refine ⟨name, ?_, List.infix_refl _⟩
      simp [tokens, hCommand, mem_whereTokens h]
  | delete =>
      simp only [ownNames, joinedNames, hCommand,
        List.append_nil] at h
      refine ⟨name, ?_, List.infix_refl _⟩
      simp [tokens, hCommand, mem_whereTokens h]

/-
  In a statement that is written all its names stand, and those
  that are words of their own are not blank.
-/
theorem names_of_statement
    {ctx : Context}
    {s : String}
    (h : statement bag ctx = .ok s) :
    (∀ name ∈ checkedNames bag, Text.isBlank name = false) ∧
      ∀ name ∈ checkedNames bag ++ joinedNames bag,
        name.toList <:+: s.toList := by
  rcases statement_eq_ok_iff.mp h with
    ⟨word, hWord, ⟨hBlank, hParts⟩, rfl⟩
  have hVerb :
      Buffer.isEmpty ⟨verb bag.command (elementKind bag)⟩ = false :=
    Text.isEmpty_eq_false_of_isBlank (isBlank_verb _ _)
  constructor
  · intro name hName
    rcases List.mem_append.mp hName with hTarget | hOwn
    · rw [eq_of_workedOn? hWord (Option.mem_toList.mp hTarget)]
      exact hBlank
    · exact isBlank_of_mem_ownNames hParts hOwn
  · intro name hName
    rw [checkedNames, List.append_assoc, List.mem_append] at hName
    rcases hName with hTarget | hOther
    · rw [eq_of_workedOn? hWord (Option.mem_toList.mp hTarget)]
      exact infix_text_extend hVerb (word_mem_tokens bag word)
    · rcases exists_token_of_mem hOther word with
        ⟨token, hToken, hInfix⟩
      exact hInfix.trans (infix_text_extend hVerb hToken)

end OneStatement

------------------------------------------------------------
-- Whole Chains
------------------------------------------------------------

/- So it is for every bag whose statement is part of another's. -/
theorem names_of_followed
    {bag b : Bag}
    {ctx : Context}
    {s : String}
    (h : statement bag ctx = .ok s)
    (hb : b ∈ bag :: followed bag) :
    (∀ name ∈ checkedNames b, Text.isBlank name = false) ∧
      ∀ name ∈ checkedNames b ++ joinedNames b,
        name.toList <:+: s.toList := by
  rcases List.mem_cons.mp hb with rfl | hb
  · exact names_of_statement h
  · rcases exists_infix_of_mem_followed bag h hb with
      ⟨inner, t, hInner, hInfix⟩
    rcases names_of_statement hInner with ⟨hBlank, hNames⟩
    refine ⟨hBlank, ?_⟩
    intro name hName
    have hBrackets : t.toList <:+: ("(" ++ t ++ ")").toList :=
      ⟨['('], [')'], by simp⟩
    exact (hNames name hName).trans (hBrackets.trans hInfix)

variable {P : CompileError → Prop}

/- A complete create fails only with an invalid token. -/
theorem failsOnly_create_of_complete
    (hP : ∀ step shown, P (.invalidToken step shown))
    {bag : Bag}
    (hComplete : Complete bag)
    (hCommand : bag.command = .create)
    {explicit : Except CompileError (Option String)}
    (hExplicit : FailsOnly P explicit)
    (hNone : explicit = .ok none → bag.target = none) :
    FailsOnly P (create bag explicit) := by
  rcases hComplete hCommand with ⟨hClass, hEnds⟩
  have hKind :
      elementKind bag =
        ElementKind.ofValue? (bag.metaData? .kind) := by
    rw [elementKind, hCommand]
  apply failsOnly_create hP hExplicit
  · intro hName
    rcases className?_eq_none hName with ⟨hOk, hData, hConstraint⟩
    have hNaming : naming? bag = none := by
      rw [naming?_eq_label (Or.inl hCommand), hData, hConstraint]
      rfl
    exact absurd (hNone hOk) (hClass hNaming)
  · intro hEdge
    rcases hEnds (hKind.trans hEdge) with ⟨hOut, hIn⟩
    exact ⟨fun h => absurd h hOut, fun h => absurd h hIn⟩

/-
  Where nothing is missing and there is room for all bags, a
  statement fails only with an invalid token.
-/
theorem failsOnly_statement
    (hP : ∀ step shown, P (.invalidToken step shown))
    (bag : Bag)
    {ctx : Context}
    (hRoom : (followed bag).length ≤ ctx.room)
    (hComplete : ∀ b ∈ bag :: followed bag, Complete b) :
    FailsOnly P (statement bag ctx) := by
  induction bag using Bag.embedded_induction generalizing ctx with
  | hStep bag ih =>
      rw [List.forall_mem_cons] at hComplete
      have hOn
          {explicit : Except CompileError (Option String)}
          (hExplicit : FailsOnly P explicit)
          (hNone : explicit = .ok none → bag.target = none) :
          FailsOnly P (statementOn bag explicit) :=
        failsOnly_statementOn hP hExplicit fun hCommand =>
          failsOnly_create_of_complete hP hComplete.1 hCommand
            hExplicit hNone
      rw [statement_eq]
      cases hTarget : bag.target with
      | none =>
          apply hOn
          · exact failsOnly_ok none
          · intro _
            exact hTarget
      | some target =>
          cases target with
          | named name =>
              apply hOn
              · exact failsOnly_ok (some name)
              · intro hNone
                cases hNone
          | embedded inner =>
              by_cases hFollows : Follows bag
              · have hFollowed :
                    followed bag = inner :: followed inner := by
                  rw [followed_eq, if_pos hFollows, hTarget,
                    followedTarget]
                rw [hFollowed] at hRoom hComplete
                have hNested :
                    ctx.nested =
                      .ok { ctx with depth := ctx.depth + 1 } := by
                  apply Context.nested_eq_ok_iff.mpr
                  exact ⟨Nat.zero_lt_of_lt hRoom, rfl⟩
                have hInner :
                    (followed inner).length ≤
                      Context.room
                        { ctx with depth := ctx.depth + 1 } := by
                  simp only [Context.room, List.length_cons] at hRoom ⊢
                  omega
                apply hOn
                · rw [explicitTarget, hNested]
                  exact (ih inner hTarget hInner hComplete.2).bind
                    fun _ => failsOnly_ok _
                · intro hNone
                  rcases explicitTarget_embedded.mp hNone with
                    ⟨_, _, _, hSome⟩
                  cases hSome
              · -- Nothing that the embedded bag does counts here.
                rw [statementOn_eq_of_not_follows hFollows hTarget _
                  (.error (.invalidToken .className ""))]
                apply hOn
                · exact failsOnly_error (hP _ _)
                · intro hNone
                  cases hNone

end Sql

------------------------------------------------------------
-- Compiled Bags
------------------------------------------------------------

namespace Processor

open Sql (followed checkedNames joinedNames Complete)

section Names

variable {p : Processor}
variable {bag : Bag}

theorem names_of_script
    {command : Command}
    (h : p.compile bag = .ok command)
    {b : Bag}
    (hb : b ∈ bag :: followed bag) :
    (∀ name ∈ checkedNames b, Text.isBlank name = false) ∧
      ∀ name ∈ checkedNames b ++ joinedNames b,
        name.toList <:+: command.script.toList := by
  rw [compile, map_eq_ok_iff] at h
  rcases h with ⟨script, hScript, rfl⟩
  exact Sql.names_of_followed hScript hb

/- Nothing else can go wrong than an invalid token. -/
theorem failsOnly_compile
    (hRoom : (followed bag).length ≤ p.maxDepth)
    (hComplete : ∀ b ∈ bag :: followed bag, Complete b) :
    FailsOnly (fun e => ∃ step shown, e = .invalidToken step shown)
      (p.compile bag) := by
  refine FailsOnly.map ?_ _
  exact Sql.failsOnly_statement
    (fun step shown => ⟨step, shown, rfl⟩) bag hRoom hComplete

end Names

/-
  In a compiled script stand all names of the bag and of the bags
  in it, and of those that are words of their own none is blank.
  A bag with such a blank name is refused as an invalid token,
  unless something is missing or it is nested too deep.
-/
theorem names_of_compile
    (p : Processor)
    (bag : Bag) :
    (∀ command, p.compile bag = .ok command →
      ∀ b ∈ bag :: followed bag,
        (∀ name ∈ checkedNames b, Text.isBlank name = false) ∧
          ∀ name ∈ checkedNames b ++ joinedNames b,
            name.toList <:+: command.script.toList) ∧
    ((followed bag).length ≤ p.maxDepth →
      (∀ b ∈ bag :: followed bag, Complete b) →
        (∃ b ∈ bag :: followed bag,
          ∃ name ∈ checkedNames b, Text.isBlank name = true) →
          ∃ step shown,
            p.compile bag = .error (.invalidToken step shown)) := by
  constructor
  · intro command hCompile b hb
    exact names_of_script hCompile hb
  · rintro hRoom hComplete ⟨b, hb, name, hName, hBlank⟩
    cases hCompile : p.compile bag with
    | ok command =>
        have hNot := (names_of_script hCompile hb).1 name hName
        rw [hBlank] at hNot
        cases hNot
    | error e =>
        rcases failsOnly_compile hRoom hComplete e hCompile with
          ⟨step, shown, rfl⟩
        exact ⟨step, shown, rfl⟩

/- A retrieve with a blank projection and blank sort keys. -/
def gappedRetrieve : Bag where
  projections := [.data "name", .data ""]
  orderBy := [⟨.data " ", .desc⟩]
  target :=
    some (.embedded
      { target := some (.named "Cat")
        orderBy := [⟨.data "", .asc⟩] })

/- A retrieve of an edge that is created without a sink. -/
def sinklessEdge : Bag where
  target :=
    some (.embedded
      { command := .create
        data :=
          .ofList
            [(.ofMeta .label, .string "Knows"),
             (.ofMeta .kind, .string "Edge"),
             (.ofMeta .outVertex, .string "#1:0"),
             (.ofMeta .inVertex, .string "\t")] })

/- Holes are written among joined names, and nowhere else. -/
theorem names_of_compile_gappedRetrieve :
    (∃ command,
      Processor.compile ⟨1⟩ gappedRetrieve = .ok command ∧
        ∀ name ∈ ["name", "", " "],
          name.toList <:+: command.script.toList) ∧
      ∃ step shown,
        Processor.compile ⟨1⟩ sinklessEdge =
          .error (.invalidToken step shown) := by
  have hCompile :
      Processor.compile ⟨1⟩ gappedRetrieve =
        .ok
          ⟨"SELECT name,  FROM (SELECT FROM Cat ORDER BY  ASC) " ++
            "ORDER BY   DESC", "orientSQL"⟩ := by
    decide
  have hJoined :
      joinedNames gappedRetrieve = ["name", "", " "] := by
    decide
  have hNames :=
    (names_of_compile ⟨1⟩ gappedRetrieve).1 _ hCompile
      gappedRetrieve List.mem_cons_self
  have hRefused :=
    (names_of_compile ⟨1⟩ sinklessEdge).2 (by decide) (by decide)
      (by decide)
  refine ⟨⟨_, hCompile, ?_⟩, hRefused⟩
  intro name hName
  rw [← hJoined] at hName
  exact hNames.2 name (List.mem_append_right _ hName)

/- A script that is compiled can hold a blank name. -/
theorem exists_blank_name_gappedRetrieve :
    ¬ ∀ (p : Processor) (bag : Bag) (command : Command),
      p.compile bag = .ok command →
        ∀ b ∈ bag :: followed bag,
          ∀ name ∈ checkedNames b ++ joinedNames b,
            Text.isBlank name = false := by
  intro hAll
  have hBlank : Text.isBlank "" = false :=
    hAll ⟨1⟩ gappedRetrieve _ rfl gappedRetrieve List.mem_cons_self
      "" (by decide)
  cases hBlank

end Processor

end GraphBag
