import GraphBag.Proofs.Session.Runs
import GraphBag.Proofs.Sql.Lines
import GraphBag.Proofs.Sql.Nesting
import Mathlib.Data.List.TakeWhile

/-
  The routes of commands.  A client knows the route of a bag by
  its command and that of a given script by its first word; for
  the scripts that are compiled both give the same, so that a
  compiled command can be run by either way.

  Both look at the outermost statement only: the ones in
  brackets inside a script go where the script goes.

  Main declarations:
    * `Text.firstWord?_append`
    * `isReadScript_statement`
    * `Client.routes_agree`
    * `Client.route_of_sent`
-/

namespace GraphBag

------------------------------------------------------------
-- First Words
------------------------------------------------------------

/- What comes after white space does not change the first word. -/
theorem Text.firstWord?_append
    {s t : String}
    (hs : isBlank s = false)
    (ht : ∀ c ∈ t.toList.head?, isSpace c = true) :
    firstWord? (s ++ t) = firstWord? s := by
  have hDrop :
      (s.toList ++ t.toList).dropWhile isSpace =
        s.toList.dropWhile isSpace ++ t.toList := by
    have hSome : (s.toList.dropWhile isSpace).isEmpty = false := by
      rw [isBlank, List.all_eq_false] at hs
      rcases hs with ⟨c, hc, hSpace⟩
      rw [List.isEmpty_eq_false_iff, Ne, List.dropWhile_eq_nil_iff]
      intro hAll
      exact hSpace (hAll c hc)
    rw [List.dropWhile_append, hSome]
    rfl
  have hTake (cs : List Char) :
      (cs ++ t.toList).takeWhile (!isSpace ·) =
        cs.takeWhile (!isSpace ·) := by
    have hNone : t.toList.takeWhile (!isSpace ·) = [] := by
      cases hText : t.toList with
      | nil => rfl
      | cons c rest =>
          rw [hText] at ht
          have hc : isSpace c = true := ht c rfl
          simp [hc]
    rw [List.takeWhile_append, hNone, List.append_nil]
    split
    · rename_i hLength
      exact (List.takeWhile_prefix _).eq_of_length hLength |>.symm
    · rfl
  rw [firstWord?, firstWord?, String.toList_append, hDrop, hTake]

/- So the route of a script is that of its first piece. -/
theorem isReadScript_of_pieces
    {script first : String}
    {pieces : List String}
    {gap : Char}
    (hFirst : Text.isBlank first = false)
    (hGap : Text.isSpace gap = true)
    (hScript :
      script.toList =
        first.toList ++ pieces.flatMap fun p => gap :: p.toList) :
    isReadScript script = isReadScript first := by
  have hText :
      script =
        first ++
          String.ofList (pieces.flatMap fun p => gap :: p.toList) := by
    rw [← String.toList_inj, String.toList_append, hScript]
    simp
  rw [isReadScript, isReadScript, hText,
    Text.firstWord?_append hFirst]
  intro c hc
  cases pieces with
  | nil => simp at hc
  | cons p rest =>
      have hHead : gap = c := by
        simpa using hc
      rw [← hHead]
      exact hGap

/- Only a retrieve leaves the graph as it is. -/
theorem CommandKind.isRead_iff (command : CommandKind) :
    command.isRead = true ↔ command = .retrieve := by
  cases command with
  | retrieve | create | update | delete => decide

/- The verb of a statement tells whether it reads. -/
theorem isReadScript_verb
    (command : CommandKind)
    (kind : Sql.ElementKind) :
    isReadScript (Sql.verb command kind) = command.isRead := by
  cases command with
  | retrieve | create | update | delete => cases kind <;> decide

/- A compiled statement reads exactly when it is a retrieve's. -/
theorem isReadScript_statement
    {bag : Bag}
    {ctx : Context}
    {script : String}
    (h : Sql.statement bag ctx = .ok script) :
    isReadScript script = bag.command.isRead := by
  rcases Sql.statement_eq_ok_iff.mp h with ⟨word, _, _, rfl⟩
  have hVerb := Sql.isBlank_verb bag.command (Sql.elementKind bag)
  have hText :=
    Buffer.toList_text_extend
      (b := ⟨Sql.verb bag.command (Sql.elementKind bag)⟩)
      (Text.isEmpty_eq_false_of_isBlank hVerb) (Sql.tokens bag word)
  rw [Sql.bufferOn, isReadScript_of_pieces hVerb (by decide) hText,
    isReadScript_verb]

/- A batch opens a transaction, which is no read. -/
theorem isReadScript_batchScript (statements : List String) :
    isReadScript (Sql.batchScript statements) = false := by
  have hText :=
    Text.toList_intercalate_cons "\n" "BEGIN"
      (Sql.batchLines statements).tail
  calc
    isReadScript (Sql.batchScript statements) =
        isReadScript "BEGIN" :=
      isReadScript_of_pieces (by decide) (by decide) hText
    _ = false := by
      decide

------------------------------------------------------------
-- Two Ways to the Driver
------------------------------------------------------------

namespace Processor

/- The script of a bag is a read exactly when the bag is. -/
theorem isReadScript_compile
    {p : Processor}
    {bag : Bag}
    {command : Command}
    (h : p.compile bag = .ok command) :
    isReadScript command.script = bag.command.isRead := by
  rw [compile, map_eq_ok_iff] at h
  rcases h with ⟨script, hScript, rfl⟩
  exact isReadScript_statement hScript

/- The script of a batch never is. -/
theorem isReadScript_compileBatch
    {p : Processor}
    {bags : List Bag}
    {command : Command}
    (h : p.compileBatch bags = .ok command) :
    isReadScript command.script = false := by
  rw [compileBatch, map_eq_ok_iff] at h
  rcases h with ⟨script, hScript, rfl⟩
  rw [Sql.batch] at hScript
  split at hScript
  · cases hScript
  · rw [bind_eq_ok_iff] at hScript
    rcases hScript with ⟨statements, _, hScript⟩
    cases hScript
    exact isReadScript_batchScript statements

end Processor

namespace Client

/- What a bag is compiled to runs on the route of the bag. -/
theorem execute_eq_dispatch
    {c : Client}
    {bag : Bag}
    {command : Command}
    (h : c.compile bag = .ok command) :
    c.execute bag =
      ((c.dispatch command).1.map (·.withFormat bag.format),
        (c.dispatch command).2) := by
  have hRead :=
    Processor.isReadScript_compile (mapError_eq_ok_iff.mp h)
  rw [execute, h, dispatch, hRead]

/- So does what a batch is compiled to. -/
theorem executeBatch_eq_dispatch
    {c : Client}
    {bags : List Bag}
    {command : Command}
    (h : c.compileBatch bags = .ok command) :
    c.executeBatch bags = c.dispatch command := by
  have hRead :=
    Processor.isReadScript_compileBatch (mapError_eq_ok_iff.mp h)
  have hSet := run_withFormat_set c command false
  rw [executeBatch, h, dispatch, hRead]
  simp only [hSet]

/-
  Both ways of routing agree.  A compiled script starts with a
  verb that reads exactly when the bag is a retrieve, and never
  for a batch; so running what was compiled leaves the client as
  running the bag does, with the same answer but for the format.
-/
theorem routes_agree :
    (∀ (maxDepth : Nat) (bag : Bag) (command : Command),
      (Processor.mk maxDepth).compile bag = .ok command →
        (isReadScript command.script = true ↔
          bag.command = .retrieve)) ∧
    (∀ (maxDepth : Nat) (bags : List Bag) (command : Command),
      (Processor.mk maxDepth).compileBatch bags = .ok command →
        isReadScript command.script = false) ∧
    (∀ (c : Client) (bag : Bag) (command : Command),
      c.compile bag = .ok command →
        (c.dispatch command).2 = (c.execute bag).2 ∧
          (c.execute bag).1 =
            (c.dispatch command).1.map (·.withFormat bag.format)) ∧
    (∀ (c : Client) (bags : List Bag) (command : Command),
      c.compileBatch bags = .ok command →
        (c.dispatch command).2 = (c.executeBatch bags).2 ∧
          (c.executeBatch bags).1 = (c.dispatch command).1) := by
  refine ⟨?_, ?_, ?_, ?_⟩
  · intro maxDepth bag command h
    rw [Processor.isReadScript_compile h, CommandKind.isRead_iff]
  · intro maxDepth bags command h
    exact Processor.isReadScript_compileBatch h
  · intro c bag command h
    rw [execute_eq_dispatch h]
    exact ⟨rfl, rfl⟩
  · intro c bags command h
    rw [executeBatch_eq_dispatch h]
    exact ⟨rfl, rfl⟩

/- An open client with a failure and a row in its queue. -/
def queuedClient : Client where
  driver :=
    { Driver.orient with
      credentials := some {}
      replies := [.fail (.engine "busy"), .rows [.empty]] }
  processor := {}
  config := {}

/- A retrieve of a field and from a class named like writes. -/
def writeNamed : Bag where
  projections := [.data "DELETE"]
  target := some (.named "UPDATE")
  format := .scalar

theorem routes_agree_writeNamed :
    isReadScript "SELECT DELETE FROM UPDATE" = true ∧
      (queuedClient.execute writeNamed).1 =
        .error (.driver (.engine "busy")) ∧
      (queuedClient.dispatch
          ⟨"SELECT DELETE FROM UPDATE", "orientSQL"⟩).2.driver.log =
        [(.read, ⟨"SELECT DELETE FROM UPDATE", "orientSQL"⟩)] ∧
      (queuedClient.dispatch
          ⟨"BEGIN\nLET t0 = SELECT FROM V\nCOMMIT\nRETURN [$t0]",
            "orientSQL"⟩).2 =
        (queuedClient.executeBatch [{}]).2 := by
  rcases routes_agree with ⟨hScript, _, hBag, hBatch⟩
  have hCompile :
      queuedClient.compile writeNamed =
        .ok ⟨"SELECT DELETE FROM UPDATE", "orientSQL"⟩ := by
    decide
  have hMembers :
      queuedClient.compileBatch [{}] =
        .ok
          ⟨"BEGIN\nLET t0 = SELECT FROM V\nCOMMIT\nRETURN [$t0]",
            "orientSQL"⟩ := by
    decide
  refine ⟨?_, ?_, ?_, ?_⟩
  · exact (hScript 8 writeNamed _ (mapError_eq_ok_iff.mp hCompile)).mpr
      rfl
  · rw [(hBag _ _ _ hCompile).2]
    decide
  · rw [(hBag _ _ _ hCompile).1]
    decide
  · exact (hBatch _ _ _ hMembers).1

end Client

------------------------------------------------------------
-- What a Route Carries
------------------------------------------------------------

namespace Client

/- A command is logged on its route, or nothing is. -/
theorem log_run (c : Client) (command : Command) (isRead : Bool) :
    (c.run command isRead).2.driver.log = c.driver.log ∨
      (c.run command isRead).2.driver.log =
        c.driver.log ++ [(.ofRead isRead, command)] := by
  unfold run Driver.execute
  by_cases hDialect : command.dialect = c.driver.dialect
  · rw [if_pos hDialect]
    cases c.driver.isOpen with
    | true => exact Or.inr rfl
    | false => exact Or.inl rfl
  · rw [if_neg hDialect]
    exact Or.inl rfl

/- What a bag puts on the log is what it is compiled to. -/
theorem compile_of_sent
    {c : Client}
    {bag : Bag}
    {route : Route}
    {command : Command}
    (h :
      (c.execute bag).2.driver.log =
        c.driver.log ++ [(route, command)]) :
    c.compile bag = .ok command ∧
      route = .ofRead bag.command.isRead := by
  have hUnsent : c.driver.log ≠ c.driver.log ++ [(route, command)] := by
    simp
  rw [execute] at h
  cases hCompile : c.compile bag with
  | error cause =>
      rw [hCompile] at h
      exact absurd h hUnsent
  | ok compiled =>
      simp only [hCompile] at h
      rcases c.log_run compiled bag.command.isRead with hLog | hLog
      · rw [hLog] at h
        exact absurd h hUnsent
      · rw [hLog, List.append_cancel_left_eq] at h
        cases h
        exact ⟨rfl, rfl⟩

/-
  What reaches the driver for a bag.  It goes on the route for
  reads exactly when the bag itself is a retrieve; the statement
  of each bag that is followed goes with it in brackets, and may
  be a write.  So that route carries only reads exactly when a
  retrieve follows retrieves only.
-/
theorem route_of_sent
    {c : Client}
    {bag : Bag}
    {route : Route}
    {command : Command}
    (hSent :
      (c.execute bag).2.driver.log =
        c.driver.log ++ [(route, command)]) :
    c.compile bag = .ok command ∧
      (route = .read ↔ bag.command = .retrieve) ∧
      (∀ b ∈ Sql.followed bag, ∃ ctx s,
        Sql.statement b ctx = .ok s ∧
          ("(" ++ s ++ ")").toList <:+: command.script.toList ∧
            (isReadScript s = true ↔ b.command = .retrieve)) ∧
      ((route = .read →
          ∀ b ∈ bag :: Sql.followed bag, b.command = .retrieve) ↔
        (bag.command = .retrieve →
          ∀ b ∈ Sql.followed bag, b.command = .retrieve)) := by
  rcases compile_of_sent hSent with ⟨hCompile, hRoute⟩
  have hOuter : route = .read ↔ bag.command = .retrieve := by
    rw [hRoute, ← CommandKind.isRead_iff]
    cases bag.command.isRead with
    | true | false => decide
  refine ⟨hCompile, hOuter, ?_, ?_⟩
  · intro b hb
    rw [compile, mapError_eq_ok_iff, Processor.compile,
      map_eq_ok_iff] at hCompile
    rcases hCompile with ⟨script, hScript, rfl⟩
    rcases Sql.exists_infix_of_mem_followed bag hScript hb with
      ⟨ctx, s, hInner, hInfix⟩
    refine ⟨ctx, s, hInner, hInfix, ?_⟩
    rw [isReadScript_statement hInner, CommandKind.isRead_iff]
  · rw [hOuter, List.forall_mem_cons]
    constructor
    · intro hReads hRetrieve
      exact (hReads hRetrieve).2
    · intro hFollowed hRetrieve
      exact ⟨hRetrieve, hFollowed hRetrieve⟩

/- A retrieve from what a delete gives. -/
def retrievedDelete : Bag where
  target :=
    some (.embedded
      { command := .delete
        target := some (.named "Cat") })

/- The delete is in brackets on the route for reads. -/
theorem route_of_sent_retrievedDelete :
    (queuedClient.execute retrievedDelete).2.driver.log =
        [(.read, ⟨"SELECT FROM (DELETE VERTEX Cat)", "orientSQL"⟩)] ∧
      ∃ ctx s,
        Sql.statement
            { command := .delete
              target := some (.named "Cat") } ctx =
            .ok s ∧
          ("(" ++ s ++ ")").toList <:+:
              "SELECT FROM (DELETE VERTEX Cat)".toList ∧
            isReadScript s = false := by
  have hLog :
      (queuedClient.execute retrievedDelete).2.driver.log =
        queuedClient.driver.log ++
          [(.read, ⟨"SELECT FROM (DELETE VERTEX Cat)",
            "orientSQL"⟩)] := by
    decide
  have hMem :
      ({ command := .delete, target := some (.named "Cat") } : Bag) ∈
        Sql.followed retrievedDelete := by
    decide
  refine ⟨hLog, ?_⟩
  rcases (route_of_sent hLog).2.2.1 _ hMem with
    ⟨ctx, s, hInner, hInfix, hRead⟩
  refine ⟨ctx, s, hInner, hInfix, ?_⟩
  rw [Bool.eq_false_iff, Ne, hRead]
  decide

/-
  So it is not true that whatever is sent on the route for reads
  is made of retrieves only.
-/
theorem not_only_reads_retrievedDelete :
    ¬ ((queuedClient.execute retrievedDelete).2.driver.log =
          queuedClient.driver.log ++
            [(.read, ⟨"SELECT FROM (DELETE VERTEX Cat)",
              "orientSQL"⟩)] →
        ∀ b ∈ retrievedDelete :: Sql.followed retrievedDelete,
          b.command = .retrieve) := by
  decide

end Client

end GraphBag
