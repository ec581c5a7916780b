import GraphBag.Processor
import GraphBag.Proofs.Sql.Failures
import GraphBag.Proofs.Sql.Statements

/-
  Batches and single commands.  A member of a batch stands one
  level deep, so with one more level allowed it is compiled as
  it would be alone, and fails as it would alone; only an error
  that tells the depth tells it one deeper.

  Main declarations:
    * `CompileError.deepened`
    * `Sql.Deepens`
    * `Sql.statement_deeper`
    * `Processor.compileBatch_eq_compile`
-/

namespace GraphBag

/- The error of a command that stands one level deeper. -/
def CompileError.deepened : CompileError → CompileError
  | .nestingTooDeep depth limit =>
      .nestingTooDeep (depth + 1) (limit + 1)
  | e => e

/- The context one level deeper, with one more level allowed. -/
def Context.deeper (ctx : Context) : Context where
  depth := ctx.depth + 1
  maxDepth := ctx.maxDepth + 1

namespace Sql

open CompileError (deepened)

------------------------------------------------------------
-- Errors That Do Not Tell the Depth
------------------------------------------------------------

/- A result whose error, if it is one, does not tell the depth. -/
abbrev Steady {α : Type} (x : Except CompileError α) : Prop :=
  FailsOnly (fun e => e.deepened = e) x

/- A token is refused in the same words at any depth. -/
theorem deepened_invalidToken {step : Step} (shown : String) :
    (CompileError.invalidToken step shown).deepened =
      .invalidToken step shown :=
  rfl

------------------------------------------------------------
-- Statements on an Explicit Target
------------------------------------------------------------

/-
  A result that tells the depth only where the explicit target
  it is given does.
-/
def Deepens
    {α : Type}
    (f : Except CompileError (Option String) →
      Except CompileError α) : Prop :=
  ∀ explicit,
    f (explicit.mapError deepened) =
      (f explicit).mapError deepened

section Deepens

variable {α β : Type}

theorem Steady.deepens
    {x : Except CompileError α}
    (hx : Steady x) :
    Deepens fun _ => x := by
  intro explicit
  cases x with
  | error e => rw [Except.mapError, hx e rfl]
  | ok a => rfl

theorem deepens_id : Deepens fun explicit => explicit := by
  intro explicit
  rfl

theorem Deepens.bind
    {f : Except CompileError (Option String) →
      Except CompileError α}
    {g : α → Except CompileError (Option String) →
      Except CompileError β}
    (hf : Deepens f)
    (hg : ∀ a, Deepens (g a)) :
    Deepens fun explicit =>
      f explicit >>= fun a => g a explicit := by
  intro explicit
  simp only [hf explicit]
  cases f explicit with
  | error e => rfl
  | ok a => exact hg a explicit

end Deepens

theorem deepens_targetOf (bag : Bag) : Deepens (targetOf bag) := by
  unfold targetOf
  split
  · apply Steady.deepens
    exact FailsOnly.map (failsOnly_wordOf deepened_invalidToken _) _
  · apply deepens_id.bind
    intro target
    exact Steady.deepens (failsOnly_ok _)

theorem deepens_addTarget (b : Buffer) (always : Bool) (bag : Bag) :
    Deepens (addTarget b always bag) := by
  have hPush (b : Buffer) (token : String) :
      Steady (b.push .target token) :=
    failsOnly_push deepened_invalidToken b token
  unfold addTarget
  apply (deepens_targetOf bag).bind
  rintro ⟨target, embedded⟩
  apply Steady.deepens
  dsimp only
  split
  · exact (hPush b _).bind fun b => hPush b _
  · exact hPush b _

theorem deepens_className?
    (bag : Bag)
    {other : Except CompileError (Option String) →
      Except CompileError (Option String)}
    (hOther : Deepens other) :
    Deepens fun explicit => className? bag (other explicit) := by
  have hWord (v : Value) : Steady ((wordOf .className v).map some) :=
    FailsOnly.map (failsOnly_wordOf deepened_invalidToken v) some
  unfold className?
  split
  · exact (hWord _).deepens
  · exact (hWord _).deepens
  · exact hOther

theorem deepens_createdClass (bag : Bag) :
    Deepens (createdClass bag) := by
  unfold createdClass
  apply Deepens.bind
  · apply deepens_className?
    split
    · exact Steady.deepens (failsOnly_error rfl)
    · exact deepens_id
  · intro name
    apply Steady.deepens
    split
    · exact failsOnly_ok _
    · exact failsOnly_error rfl

theorem deepens_retrieve (bag : Bag) : Deepens (retrieve bag) := by
  unfold retrieve
  apply Deepens.bind
  · exact Steady.deepens (failsOnly_push deepened_invalidToken _ _)
  intro b
  apply Deepens.bind
  · exact
      Steady.deepens (failsOnly_addProjections deepened_invalidToken b _)
  intro b
  apply (deepens_addTarget b true bag).bind
  intro b
  apply Steady.deepens
  apply FailsOnly.bind
  · exact failsOnly_addPredicates deepened_invalidToken b _
  intro b
  apply FailsOnly.bind
  · exact failsOnly_addOrder deepened_invalidToken b _
  intro b
  exact failsOnly_addLimit deepened_invalidToken b _

theorem deepens_create (bag : Bag) : Deepens (create bag) := by
  unfold create
  apply (deepens_createdClass bag).bind
  intro name
  apply Steady.deepens
  apply FailsOnly.bind
  · exact failsOnly_push deepened_invalidToken _ _
  intro b
  apply FailsOnly.bind
  · exact failsOnly_push deepened_invalidToken b _
  intro b
  dsimp only
  split
  · exact failsOnly_addContent deepened_invalidToken b _ bag
  · apply FailsOnly.bind
    · refine failsOnly_addEndpoints deepened_invalidToken ?_ ?_ b
      · intro _
        rfl
      · intro _
        rfl
    intro b
    exact failsOnly_addContent deepened_invalidToken b _ bag

theorem deepens_update (bag : Bag) : Deepens (update bag) := by
  unfold update
  apply (deepens_className? bag deepens_id).bind
  intro name
  apply Steady.deepens
  apply FailsOnly.bind
  · exact failsOnly_push deepened_invalidToken _ _
  intro b
  apply FailsOnly.bind
  · exact failsOnly_push deepened_invalidToken b _
  intro b
  apply FailsOnly.bind
  · exact failsOnly_addContent deepened_invalidToken b _ bag
  intro b
  apply FailsOnly.bind
  · exact failsOnly_push deepened_invalidToken b _
  intro b
  apply FailsOnly.bind
  · exact failsOnly_addPredicates deepened_invalidToken b _
  intro b
  exact failsOnly_addLimit deepened_invalidToken b _

theorem deepens_delete (bag : Bag) : Deepens (delete bag) := by
  unfold delete
  apply Deepens.bind
  · exact Steady.deepens (failsOnly_push deepened_invalidToken _ _)
  intro b
  apply (deepens_addTarget b false bag).bind
  intro b
  apply Steady.deepens
  apply FailsOnly.bind
  · exact failsOnly_addPredicates deepened_invalidToken b _
  intro b
  exact failsOnly_addLimit deepened_invalidToken b _

theorem deepens_statementOn (bag : Bag) :
    Deepens (statementOn bag) := by
  have hText (b : Buffer) :
      Deepens fun _ => (.ok b.text : Except CompileError String) :=
    Steady.deepens (failsOnly_ok b.text)
  unfold statementOn
  cases bag.command with
  | retrieve => exact (deepens_retrieve bag).bind hText
  | create => exact (deepens_create bag).bind hText
  | update => exact (deepens_update bag).bind hText
  | delete => exact (deepens_delete bag).bind hText

------------------------------------------------------------
-- Statements One Level Deeper
------------------------------------------------------------

/- The bound is met one level deeper by what met it before. -/
theorem nested_deeper (ctx : Context) :
    ctx.deeper.nested =
      (ctx.nested.map Context.deeper).mapError deepened := by
  unfold Context.nested Context.deeper
  by_cases hDeep : ctx.maxDepth < ctx.depth + 1
  · rw [if_pos hDeep, if_pos (by simpa using hDeep)]
    rfl
  · rw [if_neg hDeep, if_neg (by simpa using hDeep)]
    rfl

/-
  A bag gives the same statement one level deeper, when one more
  level is allowed, or the same error, told one deeper.
-/
theorem statement_deeper (bag : Bag) (ctx : Context) :
    statement bag ctx.deeper =
      (statement bag ctx).mapError deepened := by
  induction bag using Bag.embedded_induction generalizing ctx with
  | hStep bag ih =>
      -- Of all parts, only the explicit target looks at the depth.
      have hExplicit :
          explicitTarget bag.target ctx.deeper =
            (explicitTarget bag.target ctx).mapError deepened := by
        cases hTarget : bag.target with
        | none => simp only [explicitTarget, Except.mapError]
        | some target =>
            cases target with
            | named name =>
                simp only [explicitTarget, Except.mapError]
            | embedded inner =>
                simp only [explicitTarget, nested_deeper]
                cases ctx.nested with
                | error e => rfl
                | ok ctx' =>
                    have hInner := ih inner hTarget ctx'
                    simp only [Except.map, Except.mapError, bind,
                      Except.bind, hInner]
                    cases statement inner ctx' with
                    | error e => rfl
                    | ok script => rfl
      rw [statement_eq, statement_eq, hExplicit,
        deepens_statementOn bag]

end Sql

------------------------------------------------------------
-- Batches
------------------------------------------------------------

namespace Processor

open Sql (embeddedStatement batchScript)

/- A member of a batch is compiled as it would be alone. -/
theorem embeddedStatement_eq_compile (maxDepth : Nat) (bag : Bag) :
    embeddedStatement bag (.root (maxDepth + 1)) =
      (((Processor.mk maxDepth).compile bag).map (·.script)).mapError
        CompileError.deepened := by
  have hMember :
      embeddedStatement bag (.root (maxDepth + 1)) =
        (Sql.statement bag (.root maxDepth)).mapError
          CompileError.deepened :=
    Sql.statement_deeper bag (.root maxDepth)
  rw [hMember, compile]
  cases Sql.statement bag (.root maxDepth) with
  | error e => rfl
  | ok script => rfl

/- A member of a batch has the script it would have alone. -/
theorem embeddedStatement_eq_ok_iff
    {maxDepth : Nat}
    {bag : Bag}
    {script : String} :
    embeddedStatement bag (.root (maxDepth + 1)) = .ok script ↔
      ∃ command,
        (Processor.mk maxDepth).compile bag = .ok command ∧
          script = command.script := by
  rw [embeddedStatement_eq_compile]
  cases (Processor.mk maxDepth).compile bag with
  | error e => simp [Except.map, Except.mapError]
  | ok command => simp [Except.map, Except.mapError, eq_comm]

/- A member of a batch has a script when it has one alone. -/
theorem exists_embeddedStatement_iff
    {maxDepth : Nat}
    {bag : Bag} :
    (∃ script,
        embeddedStatement bag (.root (maxDepth + 1)) =
          .ok script) ↔
      ∃ command,
        (Processor.mk maxDepth).compile bag = .ok command := by
  simp only [embeddedStatement_eq_ok_iff]
  constructor
  · rintro ⟨_, command, hCommand, _⟩
    exact ⟨command, hCommand⟩
  · rintro ⟨command, hCommand⟩
    exact ⟨command.script, command, hCommand, rfl⟩

/- A batch that is not empty is the script of its members. -/
theorem compileBatch_eq
    {bags : List Bag}
    (hBags : bags ≠ [])
    (p : Processor) :
    p.compileBatch bags =
      (bags.mapM (embeddedStatement · (.root p.maxDepth))).map
        fun scripts => ⟨batchScript scripts, Sql.dialect⟩ := by
  have hFull : bags.isEmpty = false := by
    simpa using hBags
  rw [compileBatch, Sql.batch, hFull]
  cases bags.mapM (embeddedStatement · (.root p.maxDepth)) with
  | error e => rfl
  | ok scripts => rfl

/- A batch compiles when each of its members does. -/
theorem exists_compileBatch_iff
    {bags : List Bag}
    (hBags : bags ≠ [])
    (p : Processor) :
    (∃ command, p.compileBatch bags = .ok command) ↔
      ∀ bag ∈ bags, ∃ script,
        embeddedStatement bag (.root p.maxDepth) = .ok script := by
  simp only [compileBatch_eq hBags, map_eq_ok_iff,
    ← exists_mapM_iff]
  constructor
  · rintro ⟨_, scripts, hScripts, _⟩
    exact ⟨scripts, hScripts⟩
  · rintro ⟨scripts, hScripts⟩
    exact ⟨_, scripts, hScripts, rfl⟩

/- A batch fails as its first member that fails. -/
theorem compileBatch_eq_error
    {p : Processor}
    {before after : List Bag}
    {bag : Bag}
    {e : CompileError}
    (hBefore :
      ∀ b ∈ before, ∃ script,
        embeddedStatement b (.root p.maxDepth) = .ok script)
    (hBag : embeddedStatement bag (.root p.maxDepth) = .error e) :
    p.compileBatch (before ++ bag :: after) = .error e := by
  rw [compileBatch_eq (by simp), mapM_eq_error hBefore hBag]
  rfl

/- The script of a batch, by the commands of its members. -/
theorem batchScript_map_script (commands : List Command) :
    batchScript (commands.map (·.script)) =
      String.intercalate "\n"
        (["BEGIN"] ++
          commands.mapIdx (fun i command =>
            "LET t" ++ toString i ++ " = " ++ command.script) ++
          ["COMMIT",
           "RETURN [" ++
             String.intercalate ","
               ((List.range commands.length).map fun i =>
                 "$t" ++ toString i) ++
             "]"]) := by
  have hLets :
      (commands.map (·.script)).mapIdx (fun i script =>
          "LET t" ++ toString i ++ " = " ++ script) =
        commands.mapIdx fun i command =>
          "LET t" ++ toString i ++ " = " ++ command.script := by
    apply List.ext_getElem
    · simp
    · simp
  have hNames :
      (commands.map (·.script)).mapIdx (fun i _ =>
          "$t" ++ toString i) =
        (List.range commands.length).map fun i =>
          "$t" ++ toString i := by
    apply List.ext_getElem
    · simp
    · simp
  rw [batchScript, hLets, hNames]
  rfl

/-
  Batches agree with single commands.  With one more level
  allowed, a batch compiles exactly when each member does alone,
  to one script of the members' own; otherwise it fails as the
  first member that fails alone, with the depth and the bound
  told one larger.  With no level allowed, nothing fits.
-/
theorem compileBatch_eq_compile
    (maxDepth : Nat)
    {bags : List Bag}
    (hBags : bags ≠ []) :
    ((∃ command,
        (Processor.mk (maxDepth + 1)).compileBatch bags =
          .ok command) ↔
      ∀ bag ∈ bags, ∃ command,
        (Processor.mk maxDepth).compile bag = .ok command) ∧
    (∀ commands,
      List.Forall₂
          (fun bag command =>
            (Processor.mk maxDepth).compile bag = .ok command)
          bags commands →
        (Processor.mk (maxDepth + 1)).compileBatch bags =
          .ok
            { script :=
                String.intercalate "\n"
                  (["BEGIN"] ++
                    commands.mapIdx (fun i command =>
                      "LET t" ++ toString i ++ " = " ++
                        command.script) ++
                    ["COMMIT",
                     "RETURN [" ++
                       String.intercalate ","
                         ((List.range bags.length).map fun i =>
                           "$t" ++ toString i) ++
                       "]"])
              dialect := "orientSQL" }) ∧
    (∀ before bag after e,
      bags = before ++ bag :: after →
      (∀ b ∈ before, ∃ command,
        (Processor.mk maxDepth).compile b = .ok command) →
      (Processor.mk maxDepth).compile bag = .error e →
        (Processor.mk (maxDepth + 1)).compileBatch bags =
          .error
            (match e with
              | .nestingTooDeep depth limit =>
                  .nestingTooDeep (depth + 1) (limit + 1)
              | e => e)) ∧
    (Processor.mk 0).compileBatch bags =
      .error (.nestingTooDeep 1 0) := by
  refine ⟨?_, ?_, ?_, ?_⟩
  · rw [exists_compileBatch_iff hBags]
    simp only [exists_embeddedStatement_iff]
  · intro commands hCommands
    have hScripts :
        bags.mapM (embeddedStatement · (.root (maxDepth + 1))) =
          .ok (commands.map (·.script)) := by
      rw [mapM_eq_ok_iff, List.forall₂_map_right_iff]
      apply hCommands.imp
      intro bag command hCommand
      exact embeddedStatement_eq_ok_iff.mpr
        ⟨command, hCommand, rfl⟩
    rw [compileBatch_eq hBags, hScripts, hCommands.length_eq,
      ← batchScript_map_script]
    rfl
  · intro before bag after e hSplit hBefore hBag
    rw [hSplit]
    apply compileBatch_eq_error
    · intro b hb
      exact exists_embeddedStatement_iff.mpr (hBefore b hb)
    · rw [embeddedStatement_eq_compile, hBag]
      rfl
  · rcases List.exists_cons_of_ne_nil hBags with
      ⟨bag, rest, rfl⟩
    exact compileBatch_eq_error (List.forall_mem_nil _) rfl

/- A plain delete, and a retrieve with another two levels deep. -/
def deepBatch : List Bag :=
  [{ command := .delete
     target := some (.named "Person") },
   { projections := [.data "name"]
     target :=
       some (.embedded
         { limit := some 3
           target := some (.embedded {}) }) }]

/- The bound is met by both members, and missed by the second. -/
theorem compileBatch_eq_compile_deepBatch :
    deepBatch ≠ [] ∧
      (Processor.mk 3).compileBatch deepBatch =
        .ok
          { script :=
              "BEGIN\nLET t0 = DELETE VERTEX Person\n" ++
                "LET t1 = SELECT name FROM (SELECT FROM " ++
                "(SELECT FROM V) LIMIT 3)\n" ++
                "COMMIT\nRETURN [$t0,$t1]"
            dialect := "orientSQL" } ∧
        (Processor.mk 2).compileBatch deepBatch =
          .error (.nestingTooDeep 3 2) := by
  have hBags : deepBatch ≠ [] := by
    simp [deepBatch]
  refine ⟨hBags, ?_, ?_⟩
  · exact (compileBatch_eq_compile 2 hBags).2.1
      [⟨"DELETE VERTEX Person", "orientSQL"⟩,
       ⟨"SELECT name FROM (SELECT FROM (SELECT FROM V) LIMIT 3)",
        "orientSQL"⟩]
      (.cons rfl (.cons rfl .nil))
  · have hFirst :
        (Processor.mk 1).compile
            { command := .delete
              target := some (.named "Person") } =
          .ok ⟨"DELETE VERTEX Person", "orientSQL"⟩ :=
      rfl
    exact (compileBatch_eq_compile 1 hBags).2.2.1 _ _ []
      (.nestingTooDeep 2 1) (List.singleton_append).symm
      (by simpa using ⟨_, hFirst⟩) rfl

end Processor

end GraphBag
