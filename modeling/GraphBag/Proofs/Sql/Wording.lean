import GraphBag.Proofs.OrderedMap
import GraphBag.Proofs.Sql.Statements
import Mathlib.Data.List.ReduceOption

/-
  The wording of a bag: its statement said clause by clause,
  with no buffer and no step that can fail.  Every statement
  that is written, at any depth, is the wording of its bag.

  Main declarations:
    * `Sql.clauses`
    * `Sql.wording`
    * `Sql.Spells`
    * `Sql.statement_eq_wording`
-/

namespace GraphBag

namespace Sql

------------------------------------------------------------
-- Clauses
------------------------------------------------------------

/- The string in a value. -/
def stringIn (v : Value) : String :=
  v.string?.getD ""

/- The last constraint that names an element. -/
def lastNaming? (bag : Bag) : Option Constraint :=
  bag.constraints.reverse.find? fun c => c.IsOn .label ∨ c.IsOn .id

/-
  The target: the string of the last constraint that names one,
  else the explicit one, else the default class.
-/
def targetText (bag : Bag) (explicit : Option String) : String :=
  match lastNaming? bag with
  | some c => stringIn c.value
  | none => explicit.getD "V"

/-
  The class: the label in the data, else that of the first label
  constraint, else the explicit target, else the default class.
-/
def classText (bag : Bag) (explicit : Option String) : String :=
  match bag.data.get? (.ofMeta .label) with
  | some v => stringIn v
  | none =>
      match bag.constraints.find? (·.IsOn .label) with
      | some c => stringIn c.value
      | none => explicit.getD "V"

/- The word before a target that is an embedded bag. -/
def embeddedClause (bag : Bag) : Option String :=
  match lastNaming? bag, bag.target with
  | none, some (.embedded _) => some "FROM"
  | _, _ => none

/- A predicate as it is written. -/
def predicateText (c : Constraint) : String :=
  fieldName c.field ++ " " ++ operator c.operator ++ " " ++ literal c

/- The predicates, each later one after its conjunction. -/
def whereClause : List Constraint → Option String
  | [] => none
  | first :: rest =>
      some ("WHERE " ++
        String.intercalate " "
          (predicateText first ::
            rest.map fun c =>
              conjunction c.conjunction ++ " " ++ predicateText c))

/- The projected fields. -/
def projectionClause (fields : List Field) : Option String :=
  if fields = [] then none
  else some (String.intercalate ", " (fields.map fieldName))

/- The sort keys. -/
def orderClause (keys : List SortKey) : Option String :=
  if keys = [] then none
  else
    some ("ORDER BY " ++
      String.intercalate ", "
        (keys.map fun key =>
          fieldName key.field ++ " " ++ direction key.direction))

/- A bound on the rows above zero. -/
def limitClause (limit : Option UInt64) : Option String :=
  limit.bind fun n =>
    if 0 < n.toNat then some ("LIMIT " ++ toString n.toNat) else none

/-
  The content under the names of the statement: each name where
  it first comes, with the value that comes last.
-/
def namedContent (bag : Bag) : List (String × Value) :=
  let named :=
    bag.content.map fun (field, value) => (fieldName field, value)
  (named.map Prod.fst).eraseDups.filterMap fun name =>
    (named.reverse.lookup name).map (name, ·)

/- The content after its keyword. -/
def contentClause (keyword : String) (bag : Bag) : Option String :=
  if bag.content = [] then none
  else
    some (keyword ++ " " ++
      (Json.object ((namedContent bag).map fun (name, value) =>
        (name, value.toJson))).render)

/- The clauses of a statement, given its explicit target. -/
def clauses
    (bag : Bag)
    (explicit : Option String) :
    List (Option String) :=
  match bag.command with
  | .retrieve =>
      [some "SELECT", projectionClause bag.projections,
       some ("FROM " ++ targetText bag explicit),
       whereClause (filters bag), orderClause bag.orderBy,
       limitClause bag.limit]
  | .create =>
      [some
        (match ElementKind.ofValue? (bag.metaData? .kind) with
          | .vertex => "INSERT INTO " ++ classText bag explicit
          | .edge =>
              "CREATE EDGE " ++ classText bag explicit ++
                " FROM " ++ endpointWord bag .outVertex ++
                " TO " ++ endpointWord bag .inVertex),
       contentClause "CONTENT" bag]
  | .update =>
      [some ("UPDATE " ++ classText bag explicit),
       contentClause "MERGE" bag, some "RETURN AFTER $current",
       whereClause (filters bag), limitClause bag.limit]
  | .delete =>
      [some
        (match ElementKind.ofValue? (bag.constrained? .kind) with
          | .vertex => "DELETE VERTEX"
          | .edge => "DELETE EDGE"),
       embeddedClause bag,
       some (targetText bag explicit),
       whereClause (filters bag), limitClause bag.limit]

/- The clauses that are there, with single blanks between. -/
def wordingOn (bag : Bag) (explicit : Option String) : String :=
  String.intercalate " " (clauses bag explicit).reduceOption

mutual

/- The wording of a bag. -/
def wording : Bag → String
  | bag@⟨_, _, _, _, target, _, _, _⟩ =>
      wordingOn bag (explicitWording target)

/- An explicit target: a class, or a wording in brackets. -/
def explicitWording : Option Target → Option String
  | none => none
  | some (.named name) => some name
  | some (.embedded inner) => some ("(" ++ wording inner ++ ")")

end

------------------------------------------------------------
-- Clauses and Their Words
------------------------------------------------------------

/- A clause is the join of words; one without words is absent. -/
def Spells (clause : Option String) (words : List String) : Prop :=
  match clause with
  | none => words = []
  | some text => words ≠ [] ∧ text = String.intercalate " " words

/-
  The clauses that are there join as their words do, and none is
  there only when there is no word.
-/
theorem intercalate_reduceOption
    {clauses : List (Option String)}
    {groups : List (List String)}
    (h : List.Forall₂ Spells clauses groups) :
    (clauses.reduceOption = [] ↔ groups.flatten = []) ∧
      String.intercalate " " clauses.reduceOption =
        String.intercalate " " groups.flatten := by
  induction h with
  | nil => exact ⟨Iff.rfl, rfl⟩
  | @cons clause words clauses groups hFirst hRest ih =>
      rcases ih with ⟨hNone, hJoin⟩
      cases clause with
      | none =>
          have hWords : words = [] := hFirst
          rw [hWords, List.reduceOption_cons_of_none]
          exact ⟨hNone, hJoin⟩
      | some text =>
          rcases hFirst with ⟨hWords, rfl⟩
          rw [List.reduceOption_cons_of_some, List.flatten_cons]
          refine ⟨by simp [hWords], ?_⟩
          -- A blank follows this clause only if a later one is there.
          by_cases hEmpty : groups.flatten = []
          · rw [hEmpty, hNone.mpr hEmpty, List.append_nil,
              String.intercalate_singleton]
          · rw [String.intercalate_cons_of_ne_nil
                (mt hNone.mp hEmpty),
              String.intercalate_append_of_ne_nil hWords hEmpty,
              hJoin]

/- One word is a clause. -/
theorem spells_word (word : String) :
    Spells (some word) [word] :=
  ⟨by simp, by simp⟩

/- A lead and a word are a clause. -/
theorem spells_lead
    (first : String)
    {lead : String}
    (hLead : lead = first ++ " ")
    (word : String) :
    Spells (some (lead ++ word)) [first, word] := by
  refine ⟨by simp, ?_⟩
  rw [hLead, String.intercalate_cons_cons,
    String.intercalate_singleton]

theorem spells_projections (fields : List Field) :
    Spells (projectionClause fields) (projectionTokens fields) := by
  cases fields with
  | nil => rfl
  | cons field rest => exact spells_word _

theorem spells_order (keys : List SortKey) :
    Spells (orderClause keys) (orderTokens keys) := by
  cases keys with
  | nil => rfl
  | cons key rest => exact spells_lead "ORDER BY" rfl _

theorem spells_limit (limit : Option UInt64) :
    Spells (limitClause limit) (limitTokens (rowLimit limit)) := by
  cases limit with
  | none => rfl
  | some n =>
      have hRows : rowLimit (some n) = n.toNat := rfl
      rw [hRows, limitTokens, limitClause, Option.bind_some]
      by_cases hZero : n.toNat = 0
      · rw [if_pos hZero, if_neg (by omega)]
        rfl
      · rw [if_neg hZero, if_pos (by omega)]
        exact spells_word _

/- The words of a predicate join to its text. -/
theorem intercalate_predicateTokens (c : Constraint) :
    String.intercalate " " (predicateTokens c) = predicateText c := by
  simp [predicateTokens, predicateText, String.append_assoc]

/- The words of a later predicate begin with its conjunction. -/
theorem intercalate_linkTokens (c : Constraint) :
    String.intercalate " " (linkTokens c) =
      conjunction c.conjunction ++ " " ++ predicateText c := by
  rw [linkTokens,
    String.intercalate_cons_of_ne_nil (by simp [predicateTokens]),
    intercalate_predicateTokens]

/- Predicates join by their texts as by their words. -/
theorem intercalate_links
    {words : List String}
    (hWords : words ≠ [])
    (rest : List Constraint) :
    String.intercalate " " (words ++ rest.flatMap linkTokens) =
      String.intercalate " "
        (String.intercalate " " words ::
          rest.map fun c =>
            conjunction c.conjunction ++ " " ++ predicateText c) := by
  induction rest generalizing words with
  | nil => simp
  | cons c rest ih =>
      have hLink : linkTokens c ≠ [] := by
        simp [linkTokens]
      rw [List.flatMap_cons, List.map_cons,
        String.intercalate_append_of_ne_nil hWords (by simp [hLink]),
        ih hLink, intercalate_linkTokens,
        String.intercalate_cons_cons]

theorem spells_where (constraints : List Constraint) :
    Spells (whereClause constraints) (whereTokens constraints) := by
  cases constraints with
  | nil => rfl
  | cons first rest =>
      have hWords : predicateTokens first ≠ [] := by
        simp [predicateTokens]
      have hRest :
          predicateTokens first ++ rest.flatMap linkTokens ≠ [] := by
        simp [hWords]
      have hJoin := intercalate_links hWords rest
      rw [intercalate_predicateTokens] at hJoin
      refine ⟨by simp [whereTokens], ?_⟩
      rw [← hJoin, whereTokens, List.cons_append,
        String.intercalate_cons_of_ne_nil hRest]
      rfl

/- The content of a bag is that of a map built from its names. -/
theorem contentMap_eq (bag : Bag) :
    contentMap bag =
      OrderedMap.ofList
        (bag.content.map fun (field, value) =>
          (fieldName field, value)) := by
  rw [contentMap, OrderedMap.ofList, List.foldl_map]

theorem entries_contentMap (bag : Bag) :
    (contentMap bag).entries = namedContent bag := by
  rw [contentMap_eq, OrderedMap.entries_ofList]
  rfl

/- There is a name where there is content. -/
theorem isEmpty_contentMap (bag : Bag) :
    (contentMap bag).isEmpty = true ↔ bag.content = [] := by
  rw [OrderedMap.isEmpty, List.isEmpty_iff,
    ← List.map_eq_nil_iff (f := Prod.fst), contentMap_eq,
    OrderedMap.keys_ofList]
  cases bag.content with
  | nil => simp
  | cons entry rest => simp [List.eraseDups_cons]

theorem spells_content
    (keyword : String)
    (bag : Bag) :
    Spells (contentClause keyword bag) (contentTokens keyword bag) := by
  rw [contentClause, contentTokens]
  by_cases hContent : bag.content = []
  · rw [if_pos hContent, if_pos ((isEmpty_contentMap bag).mpr hContent)]
    rfl
  · rw [if_neg hContent,
      if_neg (mt (isEmpty_contentMap bag).mp hContent), contentJson,
      entries_contentMap]
    exact spells_lead keyword rfl _

------------------------------------------------------------
-- What a Statement Works On
------------------------------------------------------------

/- The last constraint that names an element gives the target. -/
theorem resolveTarget_eq_lastNaming? (bag : Bag) :
    (resolveTarget bag.constraints).1 =
      (lastNaming? bag).map (·.value) := by
  rw [resolveTarget, List.getLast?_filter]
  rfl

/- What a retrieve or a delete works on is its target. -/
theorem targetText_of_resolves
    {bag : Bag}
    (hCommand : bag.command = .retrieve ∨ bag.command = .delete)
    {explicit : Except CompileError (Option String)}
    {text : Option String}
    (hExplicit : ∀ o, explicit = .ok o → o = text)
    {word : String}
    (hWord : ResolvesOn bag explicit word) :
    word = targetText bag text := by
  rw [ResolvesOn, naming?_eq_target hCommand,
    resolveTarget_eq_lastNaming?] at hWord
  rw [targetText]
  cases hLast : lastNaming? bag with
  | some c =>
      rw [hLast] at hWord
      have hValue : c.value = .string word := hWord
      simp [stringIn, hValue, Value.string?]
  | none =>
      rw [hLast] at hWord
      rcases hWord with ⟨o, ho, hWord, _⟩
      rw [hWord, hExplicit o ho]
      rfl

/- What a create or an update works on is its class. -/
theorem classText_of_resolves
    {bag : Bag}
    (hCommand : bag.command = .create ∨ bag.command = .update)
    {explicit : Except CompileError (Option String)}
    {text : Option String}
    (hExplicit : ∀ o, explicit = .ok o → o = text)
    {word : String}
    (hWord : ResolvesOn bag explicit word) :
    word = classText bag text := by
  rw [ResolvesOn, naming?_eq_label hCommand, Bag.metaData?,
    Bag.constrained?] at hWord
  rw [classText]
  cases hData : bag.data.get? (.ofMeta .label) with
  | some v =>
      rw [hData] at hWord
      have hValue : v = .string word := hWord
      simp [stringIn, hValue, Value.string?]
  | none =>
      rw [hData] at hWord
      cases hFirst : bag.constraints.find? (·.IsOn .label) with
      | some c =>
          rw [hFirst] at hWord
          have hValue : c.value = .string word := hWord
          simp [stringIn, hValue, Value.string?]
      | none =>
          rw [hFirst] at hWord
          rcases hWord with ⟨o, ho, hWord, _⟩
          rw [hWord, hExplicit o ho]
          rfl

/- A delete says FROM before an embedded bag. -/
theorem spells_embedded
    {bag : Bag}
    (hCommand : bag.command = .delete) :
    Spells (embeddedClause bag)
      (if worksOnEmbedded bag then ["FROM"] else []) := by
  rw [embeddedClause, worksOnEmbedded,
    naming?_eq_target (Or.inr hCommand),
    resolveTarget_eq_lastNaming?]
  cases lastNaming? bag with
  | some c => rfl
  | none =>
      cases bag.target with
      | none => rfl
      | some target =>
          cases target with
          | named name => rfl
          | embedded inner => exact spells_word "FROM"

------------------------------------------------------------
-- Statements
------------------------------------------------------------

/- The clauses of a bag have the words of its statement. -/
theorem exists_spells_clauses
    {bag : Bag}
    {explicit : Except CompileError (Option String)}
    {text : Option String}
    (hExplicit : ∀ o, explicit = .ok o → o = text)
    {word : String}
    (hWord : ResolvesOn bag explicit word) :
    ∃ groups,
      List.Forall₂ Spells (clauses bag text) groups ∧
        groups.flatten =
          verb bag.command (elementKind bag) :: tokens bag word := by
  cases hCommand : bag.command with
  | retrieve =>
      have hTarget :=
        targetText_of_resolves (Or.inl hCommand) hExplicit hWord
      simp only [clauses, tokens, hCommand, ← hTarget]
      refine ⟨_,
        .cons (spells_word _)
          (.cons (spells_projections _)
            (.cons (spells_lead "FROM" rfl word)
              (.cons (spells_where _)
                (.cons (spells_order _)
                  (.cons (spells_limit _) .nil))))), ?_⟩
      simp [verb]
  | create =>
      have hClass :=
        classText_of_resolves (Or.inl hCommand) hExplicit hWord
      have hContent := spells_content "CONTENT" bag
      simp only [clauses, tokens, endpointTokens, elementKind,
        hCommand, ← hClass]
      cases ElementKind.ofValue? (bag.metaData? .kind) with
      | vertex =>
          refine ⟨_,
            .cons (spells_lead "INSERT INTO" rfl word)
              (.cons hContent .nil), ?_⟩
          simp [verb]
      | edge =>
          have hEdge :
              Spells
                (some ("CREATE EDGE " ++ word ++
                  " FROM " ++ endpointWord bag .outVertex ++
                  " TO " ++ endpointWord bag .inVertex))
                ["CREATE EDGE", word,
                 "FROM", endpointWord bag .outVertex,
                 "TO", endpointWord bag .inVertex] := by
            refine ⟨by simp, ?_⟩
            apply String.toList_injective
            simp
          refine ⟨_, .cons hEdge (.cons hContent .nil), ?_⟩
          simp [verb]
  | update =>
      have hClass :=
        classText_of_resolves (Or.inr hCommand) hExplicit hWord
      simp only [clauses, tokens, hCommand, ← hClass]
      refine ⟨_,
        .cons (spells_lead "UPDATE" rfl word)
          (.cons (spells_content "MERGE" bag)
            (.cons (spells_word _)
              (.cons (spells_where _)
                (.cons (spells_limit _) .nil)))), ?_⟩
      simp [verb]
  | delete =>
      have hTarget :=
        targetText_of_resolves (Or.inr hCommand) hExplicit hWord
      simp only [clauses, tokens, elementKind, hCommand, ← hTarget]
      refine ⟨_,
        .cons (spells_word _)
          (.cons (spells_embedded hCommand)
            (.cons (spells_word _)
              (.cons (spells_where _)
                (.cons (spells_limit _) .nil)))), ?_⟩
      cases ElementKind.ofValue? (bag.constrained? .kind) with
      | vertex => cases worksOnEmbedded bag <;> simp [verb]
      | edge => cases worksOnEmbedded bag <;> simp [verb]

/- A statement on a target is the wording on it. -/
theorem text_bufferOn_eq_wordingOn
    {bag : Bag}
    {explicit : Except CompileError (Option String)}
    {text : Option String}
    (hExplicit : ∀ o, explicit = .ok o → o = text)
    {word : String}
    (hWord : ResolvesOn bag explicit word) :
    (bufferOn bag word).text = wordingOn bag text := by
  rcases exists_spells_clauses hExplicit hWord with
    ⟨groups, hSpells, hFlatten⟩
  have hVerb :=
    Text.isEmpty_eq_false_of_isBlank
      (isBlank_verb bag.command (elementKind bag))
  rw [bufferOn, Buffer.text_extend_eq_intercalate hVerb, wordingOn,
    (intercalate_reduceOption hSpells).2, hFlatten]

/- The wording of a bag is the one on its explicit target. -/
theorem wording_eq (bag : Bag) :
    wording bag = wordingOn bag (explicitWording bag.target) := by
  rcases bag with ⟨_, _, _, _, _, _, _, _⟩
  rw [wording]

/-
  Every statement that is written, in whatever context, is the
  wording of its bag.
-/
theorem statement_eq_wording
    {bag : Bag}
    {ctx : Context}
    {script : String}
    (hStatement : statement bag ctx = .ok script) :
    script = wording bag := by
  induction bag using Bag.embedded_induction
      generalizing ctx script with
  | hStep bag ih =>
      have hExplicit :
          ∀ o, explicitTarget bag.target ctx = .ok o →
            o = explicitWording bag.target := by
        intro o ho
        cases hTarget : bag.target with
        | none =>
            rw [hTarget, explicitTarget] at ho
            cases ho
            rw [explicitWording]
        | some target =>
            rw [hTarget] at ho
            cases target with
            | named name =>
                rw [explicitTarget] at ho
                cases ho
                rw [explicitWording]
            | embedded inner =>
                rcases explicitTarget_embedded.mp ho with
                  ⟨text, _, hInner, rfl⟩
                rw [explicitWording, ih inner hTarget hInner]
      rcases statement_eq_ok_iff.mp hStatement with
        ⟨word, hWord, _, rfl⟩
      rw [wording_eq, text_bufferOn_eq_wordingOn hExplicit hWord]

/-
  A delete of edges whose type is no predicate, on a retrieve
  with every clause, whose target is its last naming constraint.
-/
def clausedDelete : Bag :=
  { command := .delete
    constraints :=
      [.equals (.ofMeta .kind) (.string "EDGE"),
       ⟨.data "weight", .gt, .int 3, .or⟩,
       ⟨.ofMeta .outVertex, .within,
        .list [.string "#9:1", .string "#9:2"], .or⟩]
    limit := some 0
    target :=
      some (.embedded
        { constraints :=
            [.equals (.ofMeta .label) (.string "Knows"),
             .equals (.data "note") (.string "it's"),
             .equals (.ofMeta .id) (.string "#12:0")]
          projections := [.data "since", .ofMeta .id]
          target := some (.named "E")
          orderBy := [⟨.data "since", .desc⟩, ⟨.ofMeta .label, .asc⟩]
          limit := some 5 }) }

theorem statement_eq_wording_clausedDelete :
    statement clausedDelete (.root 1) =
        .ok ("DELETE EDGE FROM (SELECT since, @rid FROM #12:0 " ++
          "WHERE note = 'it\\'s' ORDER BY since DESC, @class ASC " ++
          "LIMIT 5) WHERE weight > 3 OR out IN [#9:1,#9:2]") ∧
      "DELETE EDGE FROM (SELECT since, @rid FROM #12:0 " ++
          "WHERE note = 'it\\'s' ORDER BY since DESC, @class ASC " ++
          "LIMIT 5) WHERE weight > 3 OR out IN [#9:1,#9:2]" =
        wording clausedDelete := by
  have hStatement : statement clausedDelete (.root 1) = .ok _ := rfl
  exact ⟨hStatement, statement_eq_wording hStatement⟩

end Sql

end GraphBag
