import GraphBag.Processor
import GraphBag.Proofs.OrderedMap
import GraphBag.Proofs.Sql.Statements

/-
  The bags that can be compiled.

  Main declarations:
    * `Sql.Accepted`
    * `Sql.exists_statement_iff`
    * `Processor.exists_compile_iff_accepted`
-/

namespace GraphBag

------------------------------------------------------------
-- Constraints and Data
------------------------------------------------------------

namespace Sql

/- The value is a string that is not blank. -/
def IsWord (v : Value) : Prop :=
  ∃ s, v = .string s ∧ Text.isBlank s = false

/- The value of the last constraint on the label or the id. -/
def IsLastNaming (constraints : List Constraint) (v : Value) : Prop :=
  ∃ before c after,
    constraints = before ++ c :: after ∧ c.value = v ∧
      (c.IsOn .label ∨ c.IsOn .id) ∧
        ∀ d ∈ after, ¬ (d.IsOn .label ∨ d.IsOn .id)

/- The value of the first constraint on a meta-field. -/
def IsFirstOn
    (m : MetaField)
    (constraints : List Constraint)
    (v : Value) : Prop :=
  ∃ before c after,
    constraints = before ++ c :: after ∧ c.value = v ∧
      c.IsOn m ∧ ∀ d ∈ before, ¬ d.IsOn m

------------------------------------------------------------
-- Acceptance
------------------------------------------------------------

/-
  The target of a retrieve or a delete: the last constraint on
  the label or the id names it, else the explicit one is taken.
-/
def TargetOk (bag : Bag) (explicit : Prop) : Prop :=
  (∀ v, IsLastNaming bag.constraints v → IsWord v) ∧
    ((∀ c ∈ bag.constraints, ¬ (c.IsOn .label ∨ c.IsOn .id)) →
      explicit)

/- The data of a bag holds a label. -/
def HasLabel (bag : Bag) : Prop :=
  ∃ v, (Field.ofMeta .label, v) ∈ bag.data.entries

/-
  The class of a create or an update: the label in the data
  names it, else the first constraint on the label, else the
  explicit target is taken.
-/
def ClassOk (bag : Bag) (explicit : Prop) : Prop :=
  (∀ v, (Field.ofMeta .label, v) ∈ bag.data.entries → IsWord v) ∧
    (¬ HasLabel bag →
      ∀ v, IsFirstOn .label bag.constraints v → IsWord v) ∧
      (¬ HasLabel bag →
        (∀ c ∈ bag.constraints, ¬ c.IsOn .label) → explicit)

/- The data makes the element an edge. -/
def IsEdge (bag : Bag) : Prop :=
  ∃ s, (Field.ofMeta .kind, .string s) ∈ bag.data.entries ∧
    Text.sameIgnoringCase s "edge" = true

/- The data holds a word for a meta-field. -/
def HasWord (bag : Bag) (m : MetaField) : Prop :=
  ∃ v, (Field.ofMeta m, v) ∈ bag.data.entries ∧ IsWord v

/- All numbers in the data besides structural fields are finite. -/
def FiniteData (bag : Bag) : Prop :=
  ∀ field v, (field, v) ∈ bag.data.entries →
    field.isStructural = false → v.Finite

/-
  The bag can be compiled, given whether its explicit target
  can be written.
-/
def AcceptedOn (bag : Bag) (explicit : Prop) : Prop :=
  match bag.command with
  | .retrieve =>
      (∀ f, bag.projections = [f] →
        Text.isBlank (fieldName f) = false) ∧
        TargetOk bag explicit ∧
          ∀ c ∈ bag.constraints, ¬ c.IsOn .label → ¬ c.IsOn .id →
            ¬ c.IsOn .kind → PredicateOk c
  | .create =>
      ClassOk bag
        (∃ name, bag.target = some (.named name) ∧
          Text.isBlank name = false) ∧
        (IsEdge bag →
          HasWord bag .outVertex ∧ HasWord bag .inVertex) ∧
          FiniteData bag
  | .update =>
      ClassOk bag explicit ∧ FiniteData bag ∧
        ∀ c ∈ bag.constraints, ¬ c.IsOn .label →
          ¬ c.IsOn .kind → PredicateOk c
  | .delete =>
      TargetOk bag explicit ∧
        ∀ c ∈ bag.constraints, ¬ c.IsOn .label → ¬ c.IsOn .id →
          ¬ c.IsOn .kind → PredicateOk c

mutual

/- The bag can be compiled with so many commands embedded. -/
def Accepted : Bag → Nat → Prop
  | bag@⟨_, _, _, _, target, _, _, _⟩, depth =>
      AcceptedOn bag (AcceptedTarget target depth)

/- The explicit target can be written. -/
def AcceptedTarget : Option Target → Nat → Prop
  | none, _ => True
  | some (.named name), _ => Text.isBlank name = false
  | some (.embedded _), 0 => False
  | some (.embedded inner), depth + 1 => Accepted inner depth

end

theorem accepted_iff (bag : Bag) (depth : Nat) :
    Accepted bag depth ↔
      AcceptedOn bag (AcceptedTarget bag.target depth) := by
  rcases bag with ⟨_, _, _, _, _, _, _, _⟩
  rw [Accepted]

------------------------------------------------------------
-- Naming Values
------------------------------------------------------------

/- The first constraint that holds is found. -/
theorem constrained?_eq_some_iff
    {bag : Bag}
    {m : MetaField}
    {v : Value} :
    bag.constrained? m = some v ↔ IsFirstOn m bag.constraints v := by
  rw [Bag.constrained?, Option.map_eq_some_iff]
  simp only [List.find?_eq_some_iff_append, decide_eq_true_eq]
  constructor
  · rintro ⟨c, ⟨hOn, before, after, hSplit, hBefore⟩, hValue⟩
    refine ⟨before, c, after, hSplit, hValue, hOn, ?_⟩
    intro d hd
    simpa using hBefore d hd
  · rintro ⟨before, c, after, hSplit, hValue, hOn, hBefore⟩
    refine ⟨c, ⟨hOn, before, after, hSplit, ?_⟩, hValue⟩
    intro d hd
    simpa using hBefore d hd

/- The target is named by the last constraint that can. -/
theorem resolveTarget_eq_some_iff
    {constraints : List Constraint}
    {v : Value} :
    (resolveTarget constraints).1 = some v ↔
      IsLastNaming constraints v := by
  rw [resolveTarget, List.getLast?_eq_head?_reverse,
    ← List.filter_reverse, List.head?_filter, Option.map_eq_some_iff]
  simp only [List.find?_eq_some_iff_append, decide_eq_true_eq]
  constructor
  · rintro ⟨c, ⟨hNames, after, before, hSplit, hAfter⟩, hValue⟩
    refine ⟨before.reverse, c, after.reverse, ?_, hValue, hNames, ?_⟩
    · rw [← List.reverse_inj, hSplit]
      simp
    · intro d hd
      have hNot := hAfter d (List.mem_reverse.mp hd)
      rw [Bool.not_eq_true', decide_eq_false_iff_not] at hNot
      exact hNot
  · rintro ⟨before, c, after, rfl, hValue, hNames, hAfter⟩
    refine ⟨c, ⟨hNames, after.reverse, before.reverse, ?_, ?_⟩, hValue⟩
    · simp
    · intro d hd
      rw [Bool.not_eq_true', decide_eq_false_iff_not]
      exact hAfter d (List.mem_reverse.mp hd)

/- No constraint names the target. -/
theorem resolveTarget_eq_none_iff
    {constraints : List Constraint} :
    (resolveTarget constraints).1 = none ↔
      ∀ c ∈ constraints, ¬ (c.IsOn .label ∨ c.IsOn .id) := by
  rw [resolveTarget, Option.map_eq_none_iff,
    List.getLast?_eq_none_iff, List.filter_eq_nil_iff]
  simp only [decide_eq_true_eq]
  exact Iff.rfl

/- No constraint is on a meta-field. -/
theorem constrained?_eq_none_iff
    {bag : Bag}
    {m : MetaField} :
    bag.constrained? m = none ↔
      ∀ c ∈ bag.constraints, ¬ c.IsOn m := by
  rw [Bag.constrained?, Option.map_eq_none_iff, List.find?_eq_none]
  simp only [decide_eq_true_eq]

------------------------------------------------------------
-- What a Statement Works On
------------------------------------------------------------

variable {bag : Bag}
variable {explicit : Except CompileError (Option String)}

/- The target of a retrieve or a delete is found. -/
theorem exists_target_iff
    (hCommand : bag.command = .retrieve ∨ bag.command = .delete)
    {p : Prop}
    (hExplicit :
      (∃ o, explicit = .ok o ∧
        Text.isBlank (o.getD defaultClass) = false) ↔ p) :
    (∃ word, ResolvesOn bag explicit word ∧
        Text.isBlank word = false) ↔
      TargetOk bag p := by
  have hNotCreate : bag.command ≠ .create := by
    rcases hCommand with h | h
    · simp [h]
    · simp [h]
  rw [TargetOk, ← resolveTarget_eq_none_iff, ← hExplicit]
  simp only [← resolveTarget_eq_some_iff, ResolvesOn,
    naming?_eq_target hCommand]
  cases (resolveTarget bag.constraints).1 with
  | some v => simp [IsWord]
  | none => simp [hNotCreate]

/- The class of a create or an update is found. -/
theorem exists_class_iff
    (hCommand : bag.command = .create ∨ bag.command = .update)
    {p : Prop}
    (hExplicit :
      (∃ o, explicit = .ok o ∧
        (bag.command = .create →
          o ≠ none ∧ ∀ inner, bag.target ≠ some (.embedded inner)) ∧
        Text.isBlank (o.getD defaultClass) = false) ↔ p) :
    (∃ word, ResolvesOn bag explicit word ∧
        Text.isBlank word = false) ↔
      ClassOk bag p := by
  rw [ClassOk, HasLabel, ← constrained?_eq_none_iff, ← hExplicit]
  simp only [← OrderedMap.get?_eq_some_iff,
    ← constrained?_eq_some_iff, ResolvesOn,
    naming?_eq_label hCommand]
  change _ ↔
    (∀ v, bag.metaData? .label = some v → IsWord v) ∧
      ((¬ ∃ v, bag.metaData? .label = some v) → _) ∧
        ((¬ ∃ v, bag.metaData? .label = some v) → _)
  cases bag.metaData? .label with
  | some v => simp [IsWord]
  | none =>
      cases bag.constrained? .label with
      | some v => simp [IsWord]
      | none =>
          simp only [Option.or_none, reduceCtorEq, false_implies,
            implies_true, true_and, exists_false, not_false_eq_true,
            true_implies]
          constructor
          · rintro ⟨_, ⟨o, hOk, rfl, hClass⟩, hBlank⟩
            exact ⟨o, hOk, hClass, hBlank⟩
          · rintro ⟨o, hOk, hClass, hBlank⟩
            exact ⟨_, ⟨o, hOk, rfl, hClass⟩, hBlank⟩

------------------------------------------------------------
-- Other Parts
------------------------------------------------------------

/- The content is finite when the data is. -/
theorem contentOk_iff : ContentOk bag ↔ FiniteData bag := by
  simp only [ContentOk, FiniteData, Bag.content, List.mem_filter,
    Prod.forall, Bool.not_eq_true', and_imp]

/- The predicates of a retrieve or a delete can be written. -/
theorem forall_filters_iff
    (hCommand : bag.command = .retrieve ∨ bag.command = .delete) :
    (∀ c ∈ filters bag, PredicateOk c) ↔
      ∀ c ∈ bag.constraints, ¬ c.IsOn .label → ¬ c.IsOn .id →
        ¬ c.IsOn .kind → PredicateOk c := by
  rcases hCommand with h | h
  · simp only [filters, h, List.mem_filter, decide_eq_true_eq,
      and_imp]
  · simp only [filters, h, List.mem_filter, decide_eq_true_eq,
      and_imp]

/- The predicates of an update can be written. -/
theorem forall_filters_update_iff
    (hCommand : bag.command = .update) :
    (∀ c ∈ filters bag, PredicateOk c) ↔
      ∀ c ∈ bag.constraints, ¬ c.IsOn .label →
        ¬ c.IsOn .kind → PredicateOk c := by
  simp only [filters, hCommand, List.mem_filter, decide_eq_true_eq,
    and_imp]

/- An endpoint is held by the data. -/
theorem endpointOk_iff
    {m : MetaField} :
    EndpointOk bag m ↔ HasWord bag m := by
  simp only [EndpointOk, HasWord, IsWord, Bag.metaData?,
    OrderedMap.get?_eq_some_iff]
  constructor
  · rintro ⟨s, hData, hBlank⟩
    exact ⟨_, hData, s, rfl, hBlank⟩
  · rintro ⟨_, hData, s, rfl, hBlank⟩
    exact ⟨s, hData, hBlank⟩

/- A create is of an edge when its data says so. -/
theorem elementKind_eq_edge_iff
    (hCommand : bag.command = .create) :
    elementKind bag = .edge ↔ IsEdge bag := by
  simp only [elementKind, hCommand, ElementKind.ofValue?, IsEdge,
    ← OrderedMap.get?_eq_some_iff]
  change _ ↔ ∃ s, bag.metaData? .kind = some (.string s) ∧ _
  cases hKind : bag.metaData? .kind with
  | none => simp
  | some v =>
      cases v with
      | string s => simp [Value.string?]
      | null | bool | int | float | list | map =>
          simp [Value.string?]

------------------------------------------------------------
-- Exactly the Accepted Bags
------------------------------------------------------------

/- An explicit target is found when it is accepted. -/
theorem explicit_accepted_iff
    {target : Option Target}
    (ctx : Context)
    (hInner :
      ∀ inner, target = some (.embedded inner) →
        ∀ ctx : Context,
          (∃ s, statement inner ctx = .ok s) ↔
            Accepted inner ctx.room) :
    (∃ o, explicitTarget target ctx = .ok o ∧
        Text.isBlank (o.getD defaultClass) = false) ↔
      AcceptedTarget target ctx.room := by
  cases target with
  | none =>
      rw [AcceptedTarget, iff_true]
      exact ⟨none, rfl, rfl⟩
  | some target =>
      cases target with
      | named name =>
          rw [AcceptedTarget]
          simp [explicitTarget]
      | embedded inner =>
          simp only [explicitTarget_embedded]
          cases hRoom : ctx.room with
          | zero => simp [AcceptedTarget]
          | succ room =>
              have hNext :
                  Context.room { ctx with depth := ctx.depth + 1 } =
                    room := by
                simp only [Context.room] at hRoom ⊢
                omega
              rw [AcceptedTarget, ← hNext, ← hInner inner rfl]
              constructor
              · rintro ⟨_, ⟨script, _, hScript, rfl⟩, _⟩
                exact ⟨script, hScript⟩
              · rintro ⟨script, hScript⟩
                refine ⟨_, ⟨script, Nat.succ_pos _, hScript, rfl⟩, ?_⟩
                rw [Option.getD_some, Text.isBlank_append,
                  Text.isBlank_append]
                rfl

/- A create takes only a class for its explicit target. -/
theorem explicit_class_iff
    (hCommand : bag.command = .create)
    {ctx : Context} :
    (∃ o, explicitTarget bag.target ctx = .ok o ∧
        (bag.command = .create →
          o ≠ none ∧ ∀ inner, bag.target ≠ some (.embedded inner)) ∧
        Text.isBlank (o.getD defaultClass) = false) ↔
      ∃ name, bag.target = some (.named name) ∧
        Text.isBlank name = false := by
  cases bag.target with
  | none => simp [hCommand, explicitTarget]
  | some target =>
      cases target with
      | named name => simp [explicitTarget]
      | embedded inner => simp [hCommand]

/-
  A bag has a statement exactly when it is accepted with the
  room that its context leaves.
-/
theorem exists_statement_iff (bag : Bag) :
    ∀ ctx : Context,
      (∃ s, statement bag ctx = .ok s) ↔
        Accepted bag ctx.room := by
  induction bag using Bag.embedded_induction with
  | hStep bag ih =>
      intro ctx
      have hParts :
          (∃ s, statement bag ctx = .ok s) ↔
            (∃ word,
              ResolvesOn bag (explicitTarget bag.target ctx) word ∧
                Text.isBlank word = false) ∧
              PartsOk bag := by
        simp only [statement_eq_ok_iff]
        constructor
        · rintro ⟨_, word, hWord, ⟨hBlank, hOk⟩, _⟩
          exact ⟨⟨word, hWord, hBlank⟩, hOk⟩
        · rintro ⟨⟨word, hWord, hBlank⟩, hOk⟩
          exact ⟨_, word, hWord, ⟨hBlank, hOk⟩, rfl⟩
      have hExplicit := explicit_accepted_iff ctx ih
      rw [hParts, accepted_iff]
      simp only [AcceptedOn, PartsOk]
      cases hCommand : bag.command with
      | retrieve =>
          rw [exists_target_iff (Or.inl hCommand) hExplicit,
            forall_filters_iff (Or.inl hCommand), and_left_comm]
          exact Iff.rfl
      | create =>
          rw [exists_class_iff (Or.inl hCommand)
              (explicit_class_iff hCommand),
            elementKind_eq_edge_iff hCommand, endpointOk_iff,
            endpointOk_iff, contentOk_iff]
      | update =>
          have hClass :
              (∃ o, explicitTarget bag.target ctx = .ok o ∧
                (bag.command = .create →
                  o ≠ none ∧
                    ∀ inner, bag.target ≠ some (.embedded inner)) ∧
                Text.isBlank (o.getD defaultClass) = false) ↔
                AcceptedTarget bag.target ctx.room := by
            simp only [hCommand, reduceCtorEq, false_implies,
              true_and]
            exact hExplicit
          rw [exists_class_iff (Or.inr hCommand) hClass,
            contentOk_iff, forall_filters_update_iff hCommand]
      | delete =>
          rw [exists_target_iff (Or.inr hCommand) hExplicit,
            forall_filters_iff (Or.inr hCommand)]

end Sql

/-
  A processor compiles exactly the accepted bags.
-/
theorem Processor.exists_compile_iff_accepted
    (maxDepth : Nat)
    (bag : Bag) :
    (∃ command, (Processor.mk maxDepth).compile bag = .ok command) ↔
      Sql.Accepted bag maxDepth := by
  have hStatement := Sql.exists_statement_iff bag (.root maxDepth)
  rw [Context.room, Context.root, Nat.sub_zero] at hStatement
  rw [← hStatement]
  simp only [compile, map_eq_ok_iff]
  constructor
  · rintro ⟨_, s, hText, _⟩
    exact ⟨s, hText⟩
  · rintro ⟨s, hText⟩
    exact ⟨_, s, hText, rfl⟩

end GraphBag
