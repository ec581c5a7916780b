import GraphBag.Proofs.Sql.Nesting
import GraphBag.Proofs.Sql.Retrieves

/-
  What a statement depends on.  Each command reads its own parts
  of a bag; bags that agree on these have the same statement, or
  are refused for the same reason, whatever else is in them.

  Main declarations:
    * `Sql.SameParts`
    * `Sql.Agree`
    * `Sql.statementOn_congr`
    * `Sql.statement_eq_of_agree`
    * `Processor.compile_eq_of_agree`
-/

namespace GraphBag

namespace Sql

------------------------------------------------------------
-- Agreement
------------------------------------------------------------

/- The value, if there is one, is the word for an edge. -/
def SaysEdge (v : Option Value) : Prop :=
  ∃ s, v = some (.string s) ∧ Text.sameIgnoringCase s "edge" = true

/-
  The bags have the same parts, of those that the command of the
  first one reads, besides what its statement works on.
-/
def SameParts (b c : Bag) : Prop :=
  match b.command with
  | .retrieve =>
      b.projections = c.projections ∧
        predicatesOf (filters b) = predicatesOf (filters c) ∧
          b.orderBy = c.orderBy ∧ rowLimit b.limit = rowLimit c.limit
  | .create =>
      (SaysEdge (b.metaData? .kind) ↔ SaysEdge (c.metaData? .kind)) ∧
        (SaysEdge (b.metaData? .kind) →
          b.metaData? .outVertex = c.metaData? .outVertex ∧
            b.metaData? .inVertex = c.metaData? .inVertex) ∧
          b.content = c.content
  | .update =>
      b.content = c.content ∧
        predicatesOf (filters b) = predicatesOf (filters c) ∧
          rowLimit b.limit = rowLimit c.limit
  | .delete =>
      (SaysEdge (b.constrained? .kind) ↔
          SaysEdge (c.constrained? .kind)) ∧
        predicatesOf (filters b) = predicatesOf (filters c) ∧
          rowLimit b.limit = rowLimit c.limit

mutual

/-
  The bags agree on all that the statements of their command
  read: the same parts, the same value that names what they work
  on, and where there is none, targets that agree.
-/
inductive Agree : Bag → Bag → Prop where
  | intro
      {b c : Bag}
      (command : b.command = c.command)
      (parts : SameParts b c)
      (naming : naming? b = naming? c)
      (target : naming? b = none → AgreeTargets b.target c.target) :
      Agree b c

/- The targets are equal, or embedded bags that agree. -/
inductive AgreeTargets : Option Target → Option Target → Prop where
  | same (target : Option Target) : AgreeTargets target target
  | embedded
      {b c : Bag}
      (bags : Agree b c) :
      AgreeTargets (some (.embedded b)) (some (.embedded c))

end

------------------------------------------------------------
-- Clauses
------------------------------------------------------------

/- Only the word for an edge names one. -/
theorem ofValue?_eq_edge_iff (v : Option Value) :
    ElementKind.ofValue? v = .edge ↔ SaysEdge v := by
  cases v with
  | none => simp [ElementKind.ofValue?, SaysEdge]
  | some v =>
      cases v with
      | string s => simp [ElementKind.ofValue?, SaysEdge, Value.string?]
      | null | bool | int | float | list | map =>
          simp [ElementKind.ofValue?, SaysEdge, Value.string?]

/- So the kind of an element is known from that word alone. -/
theorem ofValue?_congr
    {v w : Option Value}
    (h : SaysEdge v ↔ SaysEdge w) :
    ElementKind.ofValue? v = ElementKind.ofValue? w := by
  rw [← ofValue?_eq_edge_iff, ← ofValue?_eq_edge_iff] at h
  cases hv : ElementKind.ofValue? v with
  | edge => exact (h.mp hv).symm
  | vertex =>
      cases hw : ElementKind.ofValue? w with
      | edge =>
          rw [h.mpr hw] at hv
          cases hv
      | vertex => rfl

/-
  Constraints that are the same predicates differ at most in the
  first conjunction.
-/
theorem predicatesOf_cons_inj
    {c d : Constraint}
    {rest others : List Constraint}
    (h : predicatesOf (c :: rest) = predicatesOf (d :: others)) :
    c.field = d.field ∧ c.operator = d.operator ∧
      c.value = d.value ∧ rest = others := by
  simp only [predicatesOf, List.cons.injEq, Predicate.mk.injEq,
    true_and] at h
  rcases h with ⟨⟨hField, hOperator, hValue⟩, hRest⟩
  have hInjective :
      Function.Injective fun e : Constraint =>
        (⟨some e.conjunction, e.field, e.operator, e.value⟩ :
          Predicate) := by
    rintro ⟨_, _, _, _⟩ ⟨_, _, _, _⟩ hEq
    simp only [Predicate.mk.injEq, Option.some.injEq] at hEq
    rcases hEq with ⟨rfl, rfl, rfl, rfl⟩
    rfl
  exact ⟨hField, hOperator, hValue,
    List.map_injective_iff.mpr hInjective hRest⟩

/- The first predicate is written without its conjunction. -/
theorem addPredicate_empty_congr
    {c d : Constraint}
    (hField : c.field = d.field)
    (hOperator : c.operator = d.operator)
    (hValue : c.value = d.value) :
    addPredicate .empty c = addPredicate .empty d := by
  have hEmpty : Buffer.empty.isEmpty = true := rfl
  simp only [addPredicate, hEmpty, if_true, hField, hOperator, hValue]

/- Constraints that are the same predicates are written alike. -/
theorem addPredicates_congr
    {constraints others : List Constraint}
    (h :
      predicatesOf (constraints.filter (IsPredicate ·)) =
        predicatesOf (others.filter (IsPredicate ·)))
    (b : Buffer) :
    addPredicates b constraints = addPredicates b others := by
  rw [addPredicates, addPredicates]
  cases hLeft : constraints.filter (IsPredicate ·) with
  | nil =>
      cases hRight : others.filter (IsPredicate ·) with
      | nil => rfl
      | cons d more => simp [hLeft, hRight, predicatesOf] at h
  | cons c rest =>
      cases hRight : others.filter (IsPredicate ·) with
      | nil => simp [hLeft, hRight, predicatesOf] at h
      | cons d more =>
          rw [hLeft, hRight] at h
          rcases predicatesOf_cons_inj h with
            ⟨hField, hOperator, hValue, rfl⟩
          rw [List.foldlM_cons, List.foldlM_cons,
            addPredicate_empty_congr hField hOperator hValue]

/- A limit that is absent and one of zero rows are the same. -/
theorem addLimit_eq (b : Buffer) (limit : Option UInt64) :
    addLimit b limit =
      if rowLimit limit = 0 then .ok b
      else
        b.push .limit ("LIMIT " ++ toString (rowLimit limit)) := by
  cases limit with
  | none => rfl
  | some n => rfl

/- Data with the same content is written alike. -/
theorem addContent_congr
    {bag other : Bag}
    (h : bag.content = other.content)
    (b : Buffer)
    (keyword : String) :
    addContent b keyword bag = addContent b keyword other := by
  rw [addContent, addContent, contentFields, contentFields, h]

/- Endpoints are written alike. -/
theorem addEndpoints_congr
    {bag other : Bag}
    (hOut : bag.metaData? .outVertex = other.metaData? .outVertex)
    (hIn : bag.metaData? .inVertex = other.metaData? .inVertex)
    (b : Buffer) :
    addEndpoints b bag = addEndpoints b other := by
  simp only [addEndpoints, endpoint, hOut, hIn]

------------------------------------------------------------
-- Targets and Classes
------------------------------------------------------------

/- Targets that agree are the same, or embed bags that agree. -/
theorem AgreeTargets.same_or_embedded
    {target other : Option Target}
    (h : AgreeTargets target other) :
    target = other ∨
      ∃ b c, target = some (.embedded b) ∧
        other = some (.embedded c) ∧ Agree b c := by
  cases h with
  | same => exact Or.inl rfl
  | embedded bags => exact Or.inr ⟨_, _, rfl, rfl, bags⟩

variable {b c : Bag}
variable {explicit other : Except CompileError (Option String)}

/- What a retrieve or a delete works on. -/
theorem targetOf_congr
    (hNaming :
      (resolveTarget b.constraints).1 = (resolveTarget c.constraints).1)
    (hTarget :
      (resolveTarget b.constraints).1 = none →
        AgreeTargets b.target c.target ∧ explicit = other) :
    targetOf b explicit = targetOf c other := by
  cases hNone : (resolveTarget b.constraints).1 with
  | some v =>
      rw [targetOf_of_named hNone,
        targetOf_of_named (hNaming ▸ hNone)]
  | none =>
      rcases hTarget hNone with ⟨hAgree, rfl⟩
      rw [targetOf, targetOf, ← hNaming, hNone]
      rcases hAgree.same_or_embedded with
        hSame | ⟨_, _, hb, hc, _⟩
      · rw [hSame]
      · rw [hb, hc]

/- The class that a create or an update names. -/
theorem className?_congr
    (hNaming :
      (b.metaData? .label).or (b.constrained? .label) =
        (c.metaData? .label).or (c.constrained? .label))
    (hOther :
      (b.metaData? .label).or (b.constrained? .label) = none →
        explicit = other) :
    className? b explicit = className? c other := by
  cases hNone : (b.metaData? .label).or (b.constrained? .label) with
  | some v =>
      rw [className?_of_named hNone,
        className?_of_named (hNaming ▸ hNone)]
  | none =>
      rw [← hOther hNone]
      rw [hNone] at hNaming
      rcases Option.or_eq_none_iff.mp hNone with ⟨hData, hFirst⟩
      rcases Option.or_eq_none_iff.mp hNaming.symm with
        ⟨hData', hFirst'⟩
      rw [className?, className?, hData, hFirst, hData', hFirst']

/- The class of a create. -/
theorem createdClass_congr
    (hNaming :
      (b.metaData? .label).or (b.constrained? .label) =
        (c.metaData? .label).or (c.constrained? .label))
    (hTarget :
      (b.metaData? .label).or (b.constrained? .label) = none →
        AgreeTargets b.target c.target ∧ explicit = other) :
    createdClass b explicit = createdClass c other := by
  rw [createdClass, createdClass]
  rw [className?_congr hNaming]
  intro hNone
  rcases hTarget hNone with ⟨hAgree, rfl⟩
  rcases hAgree.same_or_embedded with
    hSame | ⟨_, _, hb, hc, ⟨hCommand, _, _, _⟩⟩
  · rw [hSame]
  · rw [hb, hc]
    simp only [hCommand]

------------------------------------------------------------
-- Statements
------------------------------------------------------------

/- Retrieves and deletes filter by what their target leaves. -/
theorem addPredicates_resolveTarget_congr
    (hb : b.command = .retrieve ∨ b.command = .delete)
    (hc : c.command = .retrieve ∨ c.command = .delete)
    (h : predicatesOf (filters b) = predicatesOf (filters c))
    (buf : Buffer) :
    addPredicates buf (resolveTarget b.constraints).2 =
      addPredicates buf (resolveTarget c.constraints).2 := by
  apply addPredicates_congr
  rw [filter_resolveTarget hb, filter_resolveTarget hc]
  exact h

section Commands

variable (hParts : SameParts b c)
variable (hNaming : naming? b = naming? c)
variable
  (hTarget :
    naming? b = none →
      AgreeTargets b.target c.target ∧ explicit = other)

include hParts hNaming hTarget

theorem retrieve_congr
    (hb : b.command = .retrieve)
    (hc : c.command = .retrieve) :
    retrieve b explicit = retrieve c other := by
  rw [SameParts, hb] at hParts
  rcases hParts with ⟨hProjections, hPredicates, hOrder, hLimit⟩
  rw [naming?_eq_target (Or.inl hb)] at hNaming hTarget
  rw [naming?_eq_target (Or.inl hc)] at hNaming
  have hFilters :=
    addPredicates_resolveTarget_congr (Or.inl hb) (Or.inl hc)
      hPredicates
  simp only [retrieve, addTarget, targetOf_congr hNaming hTarget,
    hProjections, hFilters, hOrder, addLimit_eq, hLimit]

theorem create_congr
    (hb : b.command = .create)
    (hc : c.command = .create) :
    create b explicit = create c other := by
  rw [SameParts, hb] at hParts
  rcases hParts with ⟨hEdge, hEndpoints, hContent⟩
  rw [naming?_eq_label (Or.inl hb)] at hNaming hTarget
  rw [naming?_eq_label (Or.inl hc)] at hNaming
  simp only [create, createdClass_congr hNaming hTarget,
    ← ofValue?_congr hEdge, addContent_congr hContent]
  -- The endpoints count only where the element is an edge.
  cases hKind : ElementKind.ofValue? (b.metaData? .kind) with
  | vertex => rfl
  | edge =>
      rcases hEndpoints ((ofValue?_eq_edge_iff _).mp hKind) with
        ⟨hOut, hIn⟩
      simp only [addEndpoints_congr hOut hIn]

theorem update_congr
    (hb : b.command = .update)
    (hc : c.command = .update) :
    update b explicit = update c other := by
  rw [SameParts, hb] at hParts
  rcases hParts with ⟨hContent, hPredicates, hLimit⟩
  rw [naming?_eq_label (Or.inr hb)] at hNaming hTarget
  rw [naming?_eq_label (Or.inr hc)] at hNaming
  rw [← filter_isPredicate hb, ← filter_isPredicate hc]
    at hPredicates
  have hClass :=
    className?_congr hNaming fun hNone => (hTarget hNone).2
  simp only [update, hClass, addContent_congr hContent,
    addPredicates_congr hPredicates, addLimit_eq, hLimit]

theorem delete_congr
    (hb : b.command = .delete)
    (hc : c.command = .delete) :
    delete b explicit = delete c other := by
  rw [SameParts, hb] at hParts
  rcases hParts with ⟨hEdge, hPredicates, hLimit⟩
  rw [naming?_eq_target (Or.inr hb)] at hNaming hTarget
  rw [naming?_eq_target (Or.inr hc)] at hNaming
  have hFilters :=
    addPredicates_resolveTarget_congr (Or.inr hb) (Or.inr hc)
      hPredicates
  simp only [delete, addTarget, targetOf_congr hNaming hTarget,
    ofValue?_congr hEdge, hFilters, addLimit_eq, hLimit]

end Commands

/- A statement on a target reads only what bags agree on. -/
theorem statementOn_congr
    (h : Agree b c)
    (hExplicit : naming? b = none → explicit = other) :
    statementOn b explicit = statementOn c other := by
  rcases h with ⟨hCommand, hParts, hNaming, hTarget⟩
  have hWorksOn :
      naming? b = none →
        AgreeTargets b.target c.target ∧ explicit = other := by
    intro hNone
    exact ⟨hTarget hNone, hExplicit hNone⟩
  rw [statementOn, statementOn, ← hCommand]
  cases hKind : b.command with
  | retrieve =>
      simp only [retrieve_congr hParts hNaming hWorksOn hKind
        (hCommand ▸ hKind)]
  | create =>
      simp only [create_congr hParts hNaming hWorksOn hKind
        (hCommand ▸ hKind)]
  | update =>
      simp only [update_congr hParts hNaming hWorksOn hKind
        (hCommand ▸ hKind)]
  | delete =>
      simp only [delete_congr hParts hNaming hWorksOn hKind
        (hCommand ▸ hKind)]

/-
  Bags that agree have the same statement in every context, or
  fail there in the same way.
-/
theorem statement_eq_of_agree
    (h : Agree b c)
    (ctx : Context) :
    statement b ctx = statement c ctx := by
  induction b using Bag.embedded_induction generalizing c ctx with
  | hStep b ih =>
      rw [statement_eq, statement_eq]
      apply statementOn_congr h
      intro hNone
      rcases h with ⟨_, _, _, hTarget⟩
      rcases (hTarget hNone).same_or_embedded with
        hSame | ⟨inner, deep, hb, hc, hAgree⟩
      · rw [hSame]
      · rw [hb, hc, explicitTarget, explicitTarget]
        cases ctx.nested with
        | error e => rfl
        | ok next =>
            have hInner := ih inner hb hAgree next
            simp only [bind, Except.bind, hInner]

end Sql

namespace Processor

/-
  A compiled command depends only on the parts of a bag that the
  bag's command reads.  Bags that agree on these compile, within
  any bound on nested commands, to the same command or to the
  same error.
-/
theorem compile_eq_of_agree
    {b c : Bag}
    (h : Sql.Agree b c)
    (maxDepth : Nat) :
    (Processor.mk maxDepth).compile b =
      (Processor.mk maxDepth).compile c := by
  rw [compile, compile, Sql.statement_eq_of_agree h]

/- A retrieve from an update whose class is constrained. -/
def sparseRetrieve : Bag where
  constraints :=
    [⟨.data "age", .gt, .int 3, .and⟩,
     ⟨.data "name", .ne, .string "Tom", .or⟩]
  target :=
    some (.embedded
      { command := .update
        constraints :=
          [⟨.ofMeta .label, .eq, .string "Cat", .and⟩,
           ⟨.ofMeta .id, .eq, .string "#1:2", .or⟩]
        data := .ofList [(.data "seen", .bool true)] })

/-
  The same with parts that no statement reads: a limit of zero
  rows, constraints on the type, another first conjunction, and
  in the update a class in the data before the constrained one,
  endpoints, a target, projections and sort keys.
-/
def crowdedRetrieve : Bag where
  constraints :=
    [⟨.ofMeta .kind, .ne, .null, .or⟩,
     ⟨.data "age", .gt, .int 3, .or⟩,
     ⟨.ofMeta .kind, .eq, .string "edge", .and⟩,
     ⟨.data "name", .ne, .string "Tom", .or⟩]
  data := .ofList [(.data "note", .float .nan)]
  limit := some 0
  format := .tree
  target :=
    some (.embedded
      { command := .update
        constraints :=
          [⟨.ofMeta .id, .eq, .string "#1:2", .and⟩,
           ⟨.ofMeta .label, .eq, .string "Dog", .and⟩]
        data := .ofList
          [(.ofMeta .label, .string "Cat"),
           (.ofMeta .outVertex, .null),
           (.data "seen", .bool true)]
        projections := [.data ""]
        orderBy := [⟨.data "", .desc⟩]
        target := some (.named "Bird") })

/- Both are the same update inside the same retrieve. -/
theorem agree_crowdedRetrieve :
    Sql.Agree sparseRetrieve crowdedRetrieve := by
  refine .intro rfl ⟨rfl, rfl, rfl, rfl⟩ rfl ?_
  intro _
  refine .embedded (.intro rfl ⟨rfl, rfl, rfl⟩ rfl ?_)
  intro hNone
  cases hNone

/- They give one script, or meet the bound alike. -/
theorem compile_eq_of_agree_crowdedRetrieve :
    Sql.Agree sparseRetrieve crowdedRetrieve ∧
      (Processor.mk 1).compile crowdedRetrieve =
        .ok
          { script :=
              "SELECT FROM (UPDATE Cat MERGE \x7b\"seen\":true\x7d " ++
                "RETURN AFTER $current WHERE @rid = #1:2) " ++
                "WHERE age > 3 OR name <> 'Tom'"
            dialect := "orientSQL" } ∧
      (Processor.mk 0).compile crowdedRetrieve =
        .error (.nestingTooDeep 1 0) := by
  refine ⟨agree_crowdedRetrieve, ?_, ?_⟩
  · rw [← compile_eq_of_agree agree_crowdedRetrieve 1]
    rfl
  · rw [← compile_eq_of_agree agree_crowdedRetrieve 0]
    rfl

end Processor

end GraphBag
