import GraphBag.Processor
import GraphBag.Proofs.Json.OneLine
import GraphBag.Proofs.Sql.Statements

/-
  Line breaks in scripts.  Only the strings that are written as
  they are can bring line breaks into a statement, so a batch
  has one statement a line unless one of those does.

  Main declarations:
    * `Sql.verbatim`
    * `Sql.lineBreaks_statement`
    * `Sql.lines_batchScript_iff`
    * `Processor.compileBatch_lines`
-/

namespace GraphBag

------------------------------------------------------------
-- Counting Line Breaks
------------------------------------------------------------

namespace Text

/- The number of line breaks in a text. -/
def lineBreaks (s : String) : Nat :=
  s.toList.count '\n'

/- The number of line breaks in several texts. -/
def lineBreaksIn (texts : List String) : Nat :=
  (texts.map lineBreaks).sum

@[simp] theorem lineBreaks_append (s t : String) :
    lineBreaks (s ++ t) = lineBreaks s + lineBreaks t := by
  simp [lineBreaks]

@[simp] theorem lineBreaksIn_nil : lineBreaksIn [] = 0 :=
  rfl

@[simp] theorem lineBreaksIn_cons (s : String) (texts : List String) :
    lineBreaksIn (s :: texts) = lineBreaks s + lineBreaksIn texts := by
  simp [lineBreaksIn]

@[simp] theorem lineBreaksIn_append (texts others : List String) :
    lineBreaksIn (texts ++ others) =
      lineBreaksIn texts + lineBreaksIn others := by
  simp [lineBreaksIn]

/- There are no line breaks where there is no line feed. -/
theorem lineBreaks_eq_zero_iff {s : String} :
    lineBreaks s = 0 ↔ '\n' ∉ s.toList :=
  List.count_eq_zero

/- Several texts have no line breaks when none of them has. -/
theorem lineBreaksIn_eq_zero_iff {texts : List String} :
    lineBreaksIn texts = 0 ↔ ∀ s ∈ texts, '\n' ∉ s.toList := by
  induction texts with
  | nil => simp
  | cons s texts ih =>
      rw [lineBreaksIn_cons, Nat.add_eq_zero_iff, ih,
        lineBreaks_eq_zero_iff, List.forall_mem_cons]

/- A number has no line breaks. -/
theorem lineBreaks_toString (n : Nat) :
    lineBreaks (toString n) = 0 := by
  rw [lineBreaks_eq_zero_iff, Nat.toString_eq_ofList_toDigits,
    String.toList_ofList]
  exact (allDigits_toDigits n).newline_notMem

/- Joined texts have their own line breaks and the separators'. -/
theorem lineBreaks_intercalate_cons
    (sep first : String)
    (rest : List String) :
    lineBreaks (String.intercalate sep (first :: rest)) =
      lineBreaksIn (first :: rest) + rest.length * lineBreaks sep := by
  induction rest generalizing first with
  | nil => simp
  | cons next rest ih =>
      rw [String.intercalate_cons_cons, lineBreaks_append,
        lineBreaks_append, ih, List.length_cons, Nat.succ_mul,
        lineBreaksIn_cons first]
      omega

/- A separator without line breaks adds none. -/
theorem lineBreaks_intercalate
    {sep : String}
    (hSep : lineBreaks sep = 0)
    (texts : List String) :
    lineBreaks (String.intercalate sep texts) = lineBreaksIn texts := by
  cases texts with
  | nil => rfl
  | cons first rest =>
      rw [lineBreaks_intercalate_cons, hSep, Nat.mul_zero,
        Nat.add_zero]

/- The parts between the line breaks of a text. -/
def lines (s : String) : List String :=
  (s.toList.splitOn '\n').map String.ofList

/- There is one line more than there are line breaks. -/
theorem length_lines (s : String) :
    (lines s).length = lineBreaks s + 1 := by
  rw [lines, lineBreaks, List.length_map]
  induction s.toList with
  | nil => rfl
  | cons c cs ih =>
      rw [List.splitOn_cons_eq_if_modifyHead]
      by_cases hFeed : c = '\n'
      · simp [hFeed, ih]
      · simp [hFeed, ih]

/-
  Joined texts are the lines of the whole exactly when none of
  them has a line break.
-/
theorem lines_intercalate_iff
    (first : String)
    (rest : List String) :
    lines (String.intercalate "\n" (first :: rest)) = first :: rest ↔
      lineBreaksIn (first :: rest) = 0 := by
  constructor
  · intro hLines
    have hLength := congrArg List.length hLines
    have hFeed : lineBreaks "\n" = 1 := rfl
    rw [length_lines, lineBreaks_intercalate_cons, hFeed,
      List.length_cons] at hLength
    omega
  · intro hNone
    rw [lineBreaksIn_eq_zero_iff] at hNone
    have hSplit :=
      List.splitOn_intercalate '\n'
        (List.forall_mem_map.mpr hNone) (by simp)
    rw [lines, String.toList_intercalate]
    simpa using congrArg (List.map String.ofList) hSplit

end Text

open Text

/- The tokens of a buffer bring all of its line breaks. -/
theorem Buffer.lineBreaks_text_extend
    {b : Buffer}
    (hb : b.isEmpty = false)
    (tokens : List String) :
    lineBreaks (b.extend tokens).text =
      lineBreaks b.text + lineBreaksIn tokens := by
  rw [lineBreaks, toList_text_extend hb, List.count_append,
    List.count_flatMap]
  congr 1

------------------------------------------------------------
-- Literals
------------------------------------------------------------

mutual

/- The strings reached through lists and not through maps. -/
def Value.listedStrings : Value → List String
  | .string s => [s]
  | .list items => Value.itemStrings items
  | _ => []

/- The strings reached in the items of a list. -/
def Value.itemStrings : List Value → List String
  | [] => []
  | item :: rest => item.listedStrings ++ Value.itemStrings rest

end

namespace Sql

/- The strings of a value that are written as they are. -/
def bareStrings (native : Bool) (v : Value) : List String :=
  if native then v.listedStrings else []

/- A comma between items brings no line break. -/
theorem count_literalTail (native : Bool) (items : List Value) :
    (literalTail native items).count '\n' =
      (literalItems native items).count '\n' := by
  cases items with
  | nil => simp [literalTail, literalItems]
  | cons item items => simp [literalTail]

mutual

/- The bare strings of a literal bring all of its line breaks. -/
theorem count_literalChars (native : Bool) :
    ∀ v : Value,
      (literalChars native v).count '\n' =
        lineBreaksIn (bareStrings native v)
  | .null => by
      cases native <;> rfl
  | .bool b => by
      cases native <;> cases b <;> rfl
  | .int n => by
      rw [literalChars, List.count_eq_zero.mpr
        (Token.newline_notMem_intChars n.toInt)]
      cases native <;> rfl
  | .float x => by
      rw [literalChars, List.count_eq_zero.mpr
        (Binary64.newline_notMem_chars readable_sql x)]
      cases native <;> rfl
  | .string s => by
      cases native with
      | true => simp [literalChars, bareStrings, Value.listedStrings,
          lineBreaks]
      | false =>
          rw [literalChars, if_neg Bool.false_ne_true,
            List.count_eq_zero.mpr
              (Text.newline_notMem_quoteChars s.toList)]
          rfl
  | .list items => by
      have hItems := count_literalItems native items
      cases native with
      | true =>
          simpa [literalChars, bareStrings, Value.listedStrings]
            using hItems
      | false => simpa [literalChars, bareStrings] using hItems
  | .map entries => by
      rw [literalChars, List.count_eq_zero.mpr
        (Json.newline_notMem_chars _)]
      cases native <;> rfl

theorem count_literalItems (native : Bool) :
    ∀ items : List Value,
      (literalItems native items).count '\n' =
        if native = true then lineBreaksIn (Value.itemStrings items)
        else 0
  | [] => by
      cases native <;> rfl
  | item :: items => by
      rw [literalItems_cons, List.count_append, count_literalTail,
        count_literalItems native items,
        count_literalChars native item]
      cases native with
      | true => simp [bareStrings, Value.itemStrings]
      | false => simp [bareStrings]

end

------------------------------------------------------------
-- Clauses
------------------------------------------------------------

/- The strings of a predicate that are written as they are. -/
def predicateStrings (c : Constraint) : List String :=
  fieldName c.field :: bareStrings (hasNativeName c.field) c.value

theorem lineBreaks_operator (o : Operator) :
    lineBreaks (operator o) = 0 := by
  cases o <;> rfl

theorem lineBreaks_conjunction (j : Conjunction) :
    lineBreaks (conjunction j) = 0 := by
  cases j <;> rfl

theorem lineBreaks_direction (d : Direction) :
    lineBreaks (direction d) = 0 := by
  cases d <;> rfl

theorem lineBreaks_verb (c : CommandKind) (kind : ElementKind) :
    lineBreaks (verb c kind) = 0 := by
  cases c <;> cases kind <;> rfl

theorem lineBreaksIn_predicateTokens (c : Constraint) :
    lineBreaksIn (predicateTokens c) =
      lineBreaksIn (predicateStrings c) := by
  have hLiteral :
      lineBreaks (literal c) =
        lineBreaksIn (bareStrings (hasNativeName c.field) c.value) := by
    rw [lineBreaks, literal, String.toList_ofList,
      count_literalChars]
  simp [predicateTokens, predicateStrings, lineBreaks_operator,
    hLiteral]

theorem lineBreaksIn_links (constraints : List Constraint) :
    lineBreaksIn (constraints.flatMap linkTokens) =
      lineBreaksIn (constraints.flatMap predicateStrings) := by
  induction constraints with
  | nil => rfl
  | cons c rest ih =>
      simp [linkTokens, lineBreaks_conjunction,
        lineBreaksIn_predicateTokens, ih]

theorem lineBreaksIn_whereTokens (constraints : List Constraint) :
    lineBreaksIn (whereTokens constraints) =
      lineBreaksIn (constraints.flatMap predicateStrings) := by
  cases constraints with
  | nil => rfl
  | cons c rest =>
      have hWhere : lineBreaks "WHERE" = 0 := rfl
      simp [whereTokens, hWhere, lineBreaksIn_predicateTokens,
        lineBreaksIn_links]

theorem lineBreaksIn_projectionTokens (fields : List Field) :
    lineBreaksIn (projectionTokens fields) =
      lineBreaksIn (fields.map fieldName) := by
  cases fields with
  | nil => rfl
  | cons field rest =>
      have hComma : lineBreaks ", " = 0 := rfl
      simp [projectionTokens, lineBreaks_intercalate hComma]

theorem lineBreaksIn_orderTokens (keys : List SortKey) :
    lineBreaksIn (orderTokens keys) =
      lineBreaksIn (keys.map fun key => fieldName key.field) := by
  have hKeys :
      lineBreaksIn (keys.map sortKeyText) =
        lineBreaksIn (keys.map fun key => fieldName key.field) := by
    have hBlank : lineBreaks " " = 0 := rfl
    induction keys with
    | nil => rfl
    | cons key rest ih =>
        simp [sortKeyText, lineBreaks_direction, hBlank, ih]
  cases keys with
  | nil => rfl
  | cons key rest =>
      have hOrder : lineBreaks "ORDER BY" = 0 := rfl
      have hComma : lineBreaks ", " = 0 := rfl
      rw [← hKeys]
      simp [orderTokens, hOrder, lineBreaks_intercalate hComma]

theorem lineBreaksIn_limitTokens (rows : Nat) :
    lineBreaksIn (limitTokens rows) = 0 := by
  have hLimit : lineBreaks "LIMIT " = 0 := rfl
  rw [limitTokens]
  split
  · rfl
  · rw [lineBreaksIn_cons, lineBreaks_append, hLimit,
      lineBreaks_toString]
    rfl

theorem lineBreaksIn_contentTokens
    (keyword : String)
    (hKeyword : lineBreaks keyword = 0)
    (bag : Bag) :
    lineBreaksIn (contentTokens keyword bag) = 0 := by
  have hJson (j : Json) : lineBreaks j.render = 0 := by
    rw [lineBreaks_eq_zero_iff, Json.render, String.toList_ofList]
    exact Json.newline_notMem_chars j
  rw [contentTokens]
  split
  · rfl
  · simp [hKeyword, hJson]

------------------------------------------------------------
-- Statements
------------------------------------------------------------

/-
  The strings besides the target that a statement writes as
  they are.
-/
def partStrings (bag : Bag) : List String :=
  match bag.command with
  | .retrieve =>
      bag.projections.map fieldName ++
        (filters bag).flatMap predicateStrings ++
          bag.orderBy.map fun key => fieldName key.field
  | .create =>
      match elementKind bag with
      | .vertex => []
      | .edge =>
          [endpointWord bag .outVertex, endpointWord bag .inVertex]
  | .update | .delete => (filters bag).flatMap predicateStrings

/-
  The strings that a statement writes as they are, given those
  of its explicit target.
-/
def verbatimOn (bag : Bag) (explicit : List String) : List String :=
  match naming? bag with
  | some v => v.string?.toList ++ partStrings bag
  | none => explicit ++ partStrings bag

mutual

/-
  The strings that the statement of a bag writes as they are,
  in it and in the embedded bags that it is compiled with.
-/
def verbatim : Bag → List String
  | bag@⟨_, _, _, _, target, _, _, _⟩ =>
      verbatimOn bag (verbatimTarget target)

/- The strings that an explicit target writes as they are. -/
def verbatimTarget : Option Target → List String
  | none => [defaultClass]
  | some (.named name) => [name]
  | some (.embedded inner) => verbatim inner

end

theorem verbatim_eq (bag : Bag) :
    verbatim bag = verbatimOn bag (verbatimTarget bag.target) := by
  rcases bag with ⟨_, _, _, _, _, _, _, _⟩
  rw [verbatim]

/- The target and the other parts bring all line breaks. -/
theorem lineBreaks_bufferOn (bag : Bag) (word : String) :
    lineBreaks (bufferOn bag word).text =
      lineBreaks word + lineBreaksIn (partStrings bag) := by
  have hVerb :
      (Buffer.mk (verb bag.command (elementKind bag))).isEmpty =
        false :=
    isEmpty_eq_false_of_isBlank (isBlank_verb _ _)
  have hFrom : lineBreaks "FROM" = 0 := rfl
  rw [bufferOn, Buffer.lineBreaks_text_extend hVerb, lineBreaks_verb,
    Nat.zero_add]
  cases hCommand : bag.command with
  | retrieve =>
      simp only [tokens, partStrings, hCommand, lineBreaksIn_append,
        lineBreaksIn_cons, lineBreaksIn_nil, hFrom,
        lineBreaksIn_projectionTokens, lineBreaksIn_whereTokens,
        lineBreaksIn_orderTokens, lineBreaksIn_limitTokens]
      omega
  | create =>
      have hTo : lineBreaks "TO" = 0 := rfl
      simp only [tokens, partStrings, hCommand, endpointTokens]
      cases elementKind bag with
      | vertex =>
          simp [lineBreaksIn_contentTokens "CONTENT" rfl]
      | edge =>
          simp [hFrom, hTo,
            lineBreaksIn_contentTokens "CONTENT" rfl]
  | update =>
      have hResult : lineBreaks "RETURN AFTER $current" = 0 := rfl
      simp [tokens, partStrings, hCommand, hResult,
        lineBreaksIn_contentTokens "MERGE" rfl,
        lineBreaksIn_whereTokens, lineBreaksIn_limitTokens]
  | delete =>
      simp only [tokens, partStrings, hCommand]
      split
      · simp [hFrom, lineBreaksIn_whereTokens,
          lineBreaksIn_limitTokens]
      · simp [lineBreaksIn_whereTokens, lineBreaksIn_limitTokens]

/- An explicit target brings the line breaks of its strings. -/
theorem lineBreaks_explicitTarget
    {target : Option Target}
    (hInner :
      ∀ inner, target = some (.embedded inner) →
        ∀ {ctx : Context} {s : String},
          statement inner ctx = .ok s →
            lineBreaks s = lineBreaksIn (verbatim inner))
    {ctx : Context}
    {o : Option String}
    (hExplicit : explicitTarget target ctx = .ok o) :
    lineBreaks (o.getD defaultClass) =
      lineBreaksIn (verbatimTarget target) := by
  cases target with
  | none =>
      cases hExplicit
      rfl
  | some target =>
      cases target with
      | named name =>
          cases hExplicit
          simp [verbatimTarget]
      | embedded inner =>
          rcases explicitTarget_embedded.mp hExplicit with
            ⟨script, _, hScript, rfl⟩
          have hOpen : lineBreaks "(" = 0 := rfl
          have hClose : lineBreaks ")" = 0 := rfl
          rw [verbatimTarget, ← hInner inner rfl hScript,
            Option.getD_some, lineBreaks_append, lineBreaks_append,
            hOpen, hClose]
          simp

/-
  The strings that a statement writes as they are bring all of
  its line breaks.
-/
theorem lineBreaks_statement (bag : Bag) :
    ∀ {ctx : Context} {s : String},
      statement bag ctx = .ok s →
        lineBreaks s = lineBreaksIn (verbatim bag) := by
  induction bag using Bag.embedded_induction with
  | hStep bag ih =>
      intro ctx s h
      rcases statement_eq_ok_iff.mp h with ⟨word, hWord, _, rfl⟩
      rw [lineBreaks_bufferOn, verbatim_eq, verbatimOn]
      rw [ResolvesOn] at hWord
      cases hNaming : naming? bag with
      | some v =>
          rw [hNaming] at hWord
          subst hWord
          simp [Value.string?]
      | none =>
          rw [hNaming] at hWord
          rcases hWord with ⟨o, hExplicit, rfl, _⟩
          have hTarget :
              lineBreaks (o.getD defaultClass) =
                lineBreaksIn (verbatimTarget bag.target) :=
            lineBreaks_explicitTarget ih hExplicit
          simp [hTarget]

------------------------------------------------------------
-- Batches
------------------------------------------------------------

/- The lines of a batch script. -/
def batchLines (statements : List String) : List String :=
  "BEGIN" ::
    (statements.mapIdx fun i s =>
        "LET t" ++ toString i ++ " = " ++ s) ++
      ["COMMIT",
       "RETURN [" ++
          String.intercalate ","
            (statements.mapIdx fun i _ => "$t" ++ toString i) ++
        "]"]

/- A batch script is its lines with line feeds between. -/
theorem batchScript_eq (statements : List String) :
    batchScript statements =
      String.intercalate "\n" (batchLines statements) :=
  rfl

/- Texts that depend on their place as well. -/
theorem lineBreaksIn_mapIdx
    {f : Nat → String → String}
    {g : String → Nat}
    (hf : ∀ i s, lineBreaks (f i s) = g s)
    (texts : List String) :
    lineBreaksIn (texts.mapIdx f) = (texts.map g).sum := by
  induction texts generalizing f with
  | nil => rfl
  | cons s texts ih =>
      rw [List.mapIdx_cons, lineBreaksIn_cons, hf, List.map_cons,
        List.sum_cons, ih fun i s => hf (i + 1) s]

/- The statements of a batch bring all its lines' breaks. -/
theorem lineBreaksIn_batchLines (statements : List String) :
    lineBreaksIn (batchLines statements) = lineBreaksIn statements := by
  have hLet (i : Nat) (s : String) :
      lineBreaks ("LET t" ++ toString i ++ " = " ++ s) =
        lineBreaks s := by
    have hStart : lineBreaks "LET t" = 0 := rfl
    have hEqual : lineBreaks " = " = 0 := rfl
    rw [lineBreaks_append, lineBreaks_append, lineBreaks_append,
      lineBreaks_toString, hStart, hEqual, Nat.zero_add]
  have hName (i : Nat) (_ : String) :
      lineBreaks ("$t" ++ toString i) = 0 := by
    rw [lineBreaks_append, lineBreaks_toString]
    rfl
  have hComma : lineBreaks "," = 0 := rfl
  have hReturn : lineBreaks "RETURN [" = 0 := rfl
  have hClose : lineBreaks "]" = 0 := rfl
  have hBegin : lineBreaks "BEGIN" = 0 := rfl
  have hCommit : lineBreaks "COMMIT" = 0 := rfl
  rw [batchLines, List.cons_append, lineBreaksIn_cons,
    lineBreaksIn_append, lineBreaksIn_mapIdx hLet,
    lineBreaksIn_cons, lineBreaksIn_cons, lineBreaks_append,
    lineBreaks_append, lineBreaks_intercalate hComma,
    lineBreaksIn_mapIdx hName, hReturn, hClose, hBegin, hCommit]
  simp [lineBreaksIn]

/- The lines of a batch hold its statements unless they break. -/
theorem lines_batchScript_iff (statements : List String) :
    lines (batchScript statements) = batchLines statements ↔
      lineBreaksIn statements = 0 := by
  rw [← lineBreaksIn_batchLines, batchScript_eq]
  exact lines_intercalate_iff _ _

/- A batch has a line break between any two of its lines. -/
theorem lineBreaks_batchScript (statements : List String) :
    lineBreaks (batchScript statements) =
      statements.length + 2 + lineBreaksIn statements := by
  have hFeed : lineBreaks "\n" = 1 := rfl
  rw [← lineBreaksIn_batchLines, batchScript_eq, batchLines,
    List.cons_append, lineBreaks_intercalate_cons, hFeed]
  simp only [List.length_append, List.length_mapIdx,
    List.length_cons, List.length_nil]
  omega

/- Statements bring the line breaks of their bags' strings. -/
theorem lineBreaksIn_statements
    {ctx : Context}
    {bags : List Bag}
    {statements : List String}
    (hStatements :
      List.Forall₂ (fun b s => embeddedStatement b ctx = .ok s)
        bags statements) :
    lineBreaksIn statements = lineBreaksIn (bags.flatMap verbatim) := by
  induction hStatements with
  | nil => rfl
  | cons hStatement _ ih =>
      rcases bind_eq_ok_iff.mp hStatement with ⟨_, _, hText⟩
      rw [List.flatMap_cons, lineBreaksIn_cons, lineBreaksIn_append,
        lineBreaks_statement _ hText, ih]

end Sql

/-
  The line breaks of a batch script are those between its lines
  and those of the strings that are written as they are.  Its
  lines are the opening, one assignment a statement, the commit
  and the result exactly when none of these strings breaks.
  Quoted text and JSON text never do.
-/
theorem Processor.compileBatch_lines
    {maxDepth : Nat}
    {bags : List Bag}
    {command : Command}
    (hBatch :
      (Processor.mk maxDepth).compileBatch bags = .ok command) :
    lineBreaks command.script =
        bags.length + 2 + lineBreaksIn (bags.flatMap Sql.verbatim) ∧
      (∃ statements,
        List.Forall₂
            (fun b s =>
              Sql.embeddedStatement b (.root maxDepth) = .ok s)
            bags statements ∧
          (lines command.script = Sql.batchLines statements ↔
            ∀ s ∈ bags.flatMap Sql.verbatim, '\n' ∉ s.toList)) ∧
        (∀ s : String, '\n' ∉ (Text.quote s).toList) ∧
          ∀ j : Json, '\n' ∉ j.render.toList := by
  rcases map_eq_ok_iff.mp hBatch with ⟨script, hScript, rfl⟩
  rw [Sql.batch] at hScript
  split at hScript
  · cases hScript
  · rcases bind_eq_ok_iff.mp hScript with ⟨statements, hMap, hText⟩
    cases hText
    rw [mapM_eq_ok_iff] at hMap
    have hBreaks := Sql.lineBreaksIn_statements hMap
    refine ⟨?_, ⟨statements, hMap, ?_⟩, ?_, ?_⟩
    · rw [Sql.lineBreaks_batchScript, hBreaks, hMap.length_eq]
    · rw [Sql.lines_batchScript_iff, hBreaks,
        lineBreaksIn_eq_zero_iff]
    · intro s
      rw [quote, String.toList_ofList]
      exact newline_notMem_quoteChars s.toList
    · intro j
      rw [Json.render, String.toList_ofList]
      exact Json.newline_notMem_chars j

/-
  A batch with line breaks in quoted strings, in content, and in
  an id inside an embedded bag, where alone they stay.
-/
def brokenBatch : List Bag :=
  [{ constraints := [.equals (.data "note") (.string "a\nb")]
     target :=
       some (.embedded
         { constraints :=
             [.equals (.ofMeta .outVertex)
               (.list [.string "#1\n2", .map [("k\n", .null)]])] }) },
   { command := .create
     data := .ofList
       [(.ofMeta .label, .string "V"), (.data "x\n", .string "\n")] }]

theorem Processor.compileBatch_lines_brokenBatch :
    ∃ command,
      (Processor.mk 2).compileBatch brokenBatch = .ok command ∧
        lineBreaks command.script = 5 := by
  have hBatch :
      (Processor.mk 2).compileBatch brokenBatch = .ok _ := rfl
  exact ⟨_, hBatch, (compileBatch_lines hBatch).1⟩

end GraphBag
