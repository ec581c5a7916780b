import GraphBag.Proofs.Script
import GraphBag.Sql.Statement

/-
  How a statement can fail.  Each clause fails only with an
  invalid token, at the step of the clause.  A create can also
  lack its class or an endpoint, and a statement fails where its
  explicit target does.

  Main declarations:
    * `FailsOnly`
    * `Sql.failsOnly_contentFields`
    * `Sql.failsOnly_createdClass`
    * `Sql.failsOnly_statementOn`
-/

namespace GraphBag

------------------------------------------------------------
-- Errors of One Kind
------------------------------------------------------------

/- A result whose error, if it is one, has a property. -/
def FailsOnly
    {α : Type}
    (P : CompileError → Prop)
    (x : Except CompileError α) : Prop :=
  ∀ e, x = .error e → P e

section FailsOnly

variable {P : CompileError → Prop}
variable {α β : Type}

theorem failsOnly_ok (a : α) : FailsOnly P (.ok a) := by
  intro e h
  cases h

theorem failsOnly_error
    {e : CompileError}
    (he : P e) :
    FailsOnly P (.error e : Except CompileError α) := by
  intro e' h
  cases h
  exact he

theorem FailsOnly.bind
    {x : Except CompileError α}
    {f : α → Except CompileError β}
    (hx : FailsOnly P x)
    (hf : ∀ a, FailsOnly P (f a)) :
    FailsOnly P (x >>= f) := by
  cases x with
  | error e => exact failsOnly_error (hx e rfl)
  | ok a => exact hf a

theorem FailsOnly.map
    {x : Except CompileError α}
    (hx : FailsOnly P x)
    (f : α → β) :
    FailsOnly P (x.map f) := by
  cases x with
  | error e => exact failsOnly_error (hx e rfl)
  | ok a => exact failsOnly_ok (f a)

theorem failsOnly_foldlM
    {f : β → α → Except CompileError β}
    (hf : ∀ b a, FailsOnly P (f b a))
    (xs : List α)
    (b : β) :
    FailsOnly P (xs.foldlM f b) := by
  induction xs generalizing b with
  | nil => exact failsOnly_ok b
  | cons x xs ih =>
      rw [List.foldlM_cons]
      exact (hf b x).bind ih

end FailsOnly

namespace Sql

variable {P : CompileError → Prop}

------------------------------------------------------------
-- Words and Values
------------------------------------------------------------

section Words

variable {step : Step}

theorem failsOnly_push
    (hP : ∀ shown, P (.invalidToken step shown))
    (b : Buffer)
    (token : String) :
    FailsOnly P (b.push step token) := by
  unfold Buffer.push
  split
  · exact failsOnly_error (hP _)
  · split
    · exact failsOnly_ok _
    · exact failsOnly_ok _

theorem failsOnly_wordOf
    (hP : ∀ shown, P (.invalidToken step shown))
    (v : Value) :
    FailsOnly P (wordOf step v) := by
  unfold wordOf
  split
  · exact failsOnly_ok _
  · exact failsOnly_error (hP _)

theorem failsOnly_ensureFinite
    (hP : ∀ shown, P (.invalidToken step shown))
    (v : Value) :
    FailsOnly P (ensureFinite step v) := by
  unfold ensureFinite
  split
  · exact failsOnly_ok _
  · exact failsOnly_error (hP _)

end Words

------------------------------------------------------------
-- Clauses
------------------------------------------------------------

theorem failsOnly_cast
    (hP : ∀ shown, P (.invalidToken .predicates shown))
    (field : Field)
    (v : Value) :
    FailsOnly P (cast field v) := by
  unfold cast
  exact (failsOnly_ensureFinite hP v).bind fun _ => failsOnly_ok _

theorem failsOnly_addPredicate
    (hP : ∀ shown, P (.invalidToken .predicates shown))
    (b : Buffer)
    (c : Constraint) :
    FailsOnly P (addPredicate b c) := by
  have hRest (b : Buffer) :
      FailsOnly P (do
        let b ← b.push .predicates (fieldName c.field)
        let b ← b.push .predicates (operator c.operator)
        let literal ← cast c.field c.value
        b.push .predicates literal) := by
    apply (failsOnly_push hP b _).bind
    intro b
    apply (failsOnly_push hP b _).bind
    intro b
    exact (failsOnly_cast hP _ _).bind (failsOnly_push hP b)
  unfold addPredicate
  dsimp only
  split
  · exact hRest b
  · exact (failsOnly_push hP b _).bind hRest

theorem failsOnly_addPredicates
    (hP : ∀ shown, P (.invalidToken .predicates shown))
    (b : Buffer)
    (constraints : List Constraint) :
    FailsOnly P (addPredicates b constraints) := by
  unfold addPredicates
  apply (failsOnly_foldlM (failsOnly_addPredicate hP) _ _).bind
  intro predicates
  split
  · exact failsOnly_ok b
  · exact (failsOnly_push hP b _).bind fun b => failsOnly_push hP b _

/- The content fails only for a number that is not finite. -/
theorem failsOnly_contentFields
    (hP : ∀ shown, P (.invalidToken .content shown))
    (bag : Bag) :
    FailsOnly P (contentFields bag) := by
  unfold contentFields
  apply failsOnly_foldlM
  intro fields entry
  exact (failsOnly_ensureFinite hP _).bind fun _ => failsOnly_ok _

theorem failsOnly_addContent
    (hP : ∀ shown, P (.invalidToken .content shown))
    (b : Buffer)
    (keyword : String)
    (bag : Bag) :
    FailsOnly P (addContent b keyword bag) := by
  unfold addContent
  apply (failsOnly_contentFields hP bag).bind
  intro fields
  split
  · exact failsOnly_ok b
  · exact (failsOnly_push hP b _).bind fun b => failsOnly_push hP b _

theorem failsOnly_addOrder
    (hP : ∀ shown, P (.invalidToken .order shown))
    (b : Buffer)
    (keys : List SortKey) :
    FailsOnly P (addOrder b keys) := by
  unfold addOrder
  split
  · exact failsOnly_ok b
  · exact (failsOnly_push hP b _).bind fun b => failsOnly_push hP b _

theorem failsOnly_addLimit
    (hP : ∀ shown, P (.invalidToken .limit shown))
    (b : Buffer)
    (limit : Option UInt64) :
    FailsOnly P (addLimit b limit) := by
  unfold addLimit
  split
  · exact failsOnly_ok b
  · split
    · exact failsOnly_ok b
    · exact failsOnly_push hP b _

theorem failsOnly_addProjections
    (hP : ∀ shown, P (.invalidToken .start shown))
    (b : Buffer)
    (fields : List Field) :
    FailsOnly P (addProjections b fields) := by
  unfold addProjections
  split
  · exact failsOnly_ok b
  · exact failsOnly_push hP b _

/- Only data that is not there makes an endpoint missing. -/
theorem failsOnly_endpoint
    (hP : ∀ shown, P (.invalidToken .endpoints shown))
    {bag : Bag}
    {m : MetaField}
    {side : String}
    (hMissing : bag.metaData? m = none → P (.missingEndpoint side)) :
    FailsOnly P (endpoint bag m side) := by
  unfold endpoint
  split
  next => exact failsOnly_wordOf hP _
  next hData => exact failsOnly_error (hMissing hData)

theorem failsOnly_addEndpoints
    (hP : ∀ shown, P (.invalidToken .endpoints shown))
    {bag : Bag}
    (hOut :
      bag.metaData? .outVertex = none → P (.missingEndpoint "out"))
    (hIn :
      bag.metaData? .inVertex = none → P (.missingEndpoint "in"))
    (b : Buffer) :
    FailsOnly P (addEndpoints b bag) := by
  unfold addEndpoints
  apply (failsOnly_endpoint hP hOut).bind
  intro source
  apply (failsOnly_endpoint hP hIn).bind
  intro sink
  apply (failsOnly_push hP b _).bind
  intro b
  apply (failsOnly_push hP b _).bind
  intro b
  apply (failsOnly_push hP b _).bind
  intro b
  exact failsOnly_push hP b _

------------------------------------------------------------
-- Targets and Classes
------------------------------------------------------------

variable {bag : Bag}
variable {explicit : Except CompileError (Option String)}

theorem failsOnly_addTarget
    (hP : ∀ shown, P (.invalidToken .target shown))
    (hExplicit : FailsOnly P explicit)
    (b : Buffer)
    (always : Bool) :
    FailsOnly P (addTarget b always bag explicit) := by
  have hTarget : FailsOnly P (targetOf bag explicit) := by
    unfold targetOf
    split
    · exact (failsOnly_wordOf hP _).map _
    · exact hExplicit.bind fun _ => failsOnly_ok _
  unfold addTarget
  apply hTarget.bind
  rintro ⟨target, embedded⟩
  dsimp only
  split
  · exact (failsOnly_push hP b _).bind fun b => failsOnly_push hP b _
  · exact failsOnly_push hP b _

theorem failsOnly_className?
    (hP : ∀ shown, P (.invalidToken .className shown))
    (hExplicit : FailsOnly P explicit) :
    FailsOnly P (className? bag explicit) := by
  unfold className?
  split
  · exact (failsOnly_wordOf hP _).map _
  · exact (failsOnly_wordOf hP _).map _
  · exact hExplicit

/- No class is found where there is no label and no other name. -/
theorem className?_eq_none
    {other : Except CompileError (Option String)}
    (h : className? bag other = .ok none) :
    other = .ok none ∧ bag.metaData? .label = none ∧
      bag.constrained? .label = none := by
  unfold className? at h
  split at h
  next =>
    rcases map_eq_ok_iff.mp h with ⟨_, _, hName⟩
    cases hName
  next =>
    rcases map_eq_ok_iff.mp h with ⟨_, _, hName⟩
    cases hName
  next hData hConstraint => exact ⟨h, hData, hConstraint⟩

/- A create fails for want of a class where nothing names one. -/
theorem failsOnly_createdClass
    (hP : ∀ shown, P (.invalidToken .className shown))
    (hExplicit : FailsOnly P explicit)
    (hNone :
      className? bag explicit = .ok none →
        P (.unresolvedTarget CommandKind.create.name)) :
    FailsOnly P (createdClass bag explicit) := by
  -- What stands for the explicit target where a bag is embedded.
  have hOther
      {other : Except CompileError (Option String)}
      {next : Option String → Except CompileError String}
      (hFails : FailsOnly P other)
      (hSome : ∀ name, FailsOnly P (next (some name)))
      (hNone :
        className? bag other = .ok none → FailsOnly P (next none)) :
      FailsOnly P (className? bag other >>= next) := by
    cases hClass : className? bag other with
    | error e =>
        exact failsOnly_error (failsOnly_className? hP hFails e hClass)
    | ok name =>
        cases name with
        | some name => exact hSome name
        | none => exact hNone hClass
  unfold createdClass
  dsimp only
  split
  · apply hOther (failsOnly_error (hP _)) failsOnly_ok
    intro hClass
    cases (className?_eq_none hClass).1
  · apply hOther hExplicit failsOnly_ok
    intro hClass
    exact failsOnly_error (hNone hClass)

------------------------------------------------------------
-- Statements with a Given Explicit Target
------------------------------------------------------------

theorem failsOnly_retrieve
    (hP : ∀ step shown, P (.invalidToken step shown))
    (hExplicit : FailsOnly P explicit) :
    FailsOnly P (retrieve bag explicit) := by
  unfold retrieve
  apply (failsOnly_push (hP _) _ _).bind
  intro b
  apply (failsOnly_addProjections (hP _) b _).bind
  intro b
  apply (failsOnly_addTarget (hP _) hExplicit b true).bind
  intro b
  apply (failsOnly_addPredicates (hP _) b _).bind
  intro b
  apply (failsOnly_addOrder (hP _) b _).bind
  intro b
  exact failsOnly_addLimit (hP _) b _

/- Both the class and, for an edge, the endpoints can be missing. -/
theorem failsOnly_create
    (hP : ∀ step shown, P (.invalidToken step shown))
    (hExplicit : FailsOnly P explicit)
    (hNone :
      className? bag explicit = .ok none →
        P (.unresolvedTarget CommandKind.create.name))
    (hEnds :
      ElementKind.ofValue? (bag.metaData? .kind) = .edge →
        (bag.metaData? .outVertex = none →
          P (.missingEndpoint "out")) ∧
          (bag.metaData? .inVertex = none →
            P (.missingEndpoint "in"))) :
    FailsOnly P (create bag explicit) := by
  have hContent (b : Buffer) :=
    failsOnly_addContent (hP .content) b "CONTENT" bag
  unfold create
  apply (failsOnly_createdClass (hP _) hExplicit hNone).bind
  intro name
  apply (failsOnly_push (hP _) _ _).bind
  intro b
  apply (failsOnly_push (hP _) b _).bind
  intro b
  cases hKind : ElementKind.ofValue? (bag.metaData? .kind) with
  | vertex => exact hContent b
  | edge =>
      rcases hEnds hKind with ⟨hOut, hIn⟩
      exact (failsOnly_addEndpoints (hP _) hOut hIn b).bind hContent

theorem failsOnly_update
    (hP : ∀ step shown, P (.invalidToken step shown))
    (hExplicit : FailsOnly P explicit) :
    FailsOnly P (update bag explicit) := by
  unfold update
  apply (failsOnly_className? (hP _) hExplicit).bind
  intro name
  apply (failsOnly_push (hP _) _ _).bind
  intro b
  apply (failsOnly_push (hP _) b _).bind
  intro b
  apply (failsOnly_addContent (hP _) b _ _).bind
  intro b
  apply (failsOnly_push (hP _) b _).bind
  intro b
  apply (failsOnly_addPredicates (hP _) b _).bind
  intro b
  exact failsOnly_addLimit (hP _) b _

theorem failsOnly_delete
    (hP : ∀ step shown, P (.invalidToken step shown))
    (hExplicit : FailsOnly P explicit) :
    FailsOnly P (delete bag explicit) := by
  unfold delete
  apply (failsOnly_push (hP _) _ _).bind
  intro b
  apply (failsOnly_addTarget (hP _) hExplicit b false).bind
  intro b
  apply (failsOnly_addPredicates (hP _) b _).bind
  intro b
  exact failsOnly_addLimit (hP _) b _

/-
  A statement fails with an invalid token, as its explicit
  target does, or as a create that lacks something.
-/
theorem failsOnly_statementOn
    (hP : ∀ step shown, P (.invalidToken step shown))
    (hExplicit : FailsOnly P explicit)
    (hCreate :
      bag.command = .create → FailsOnly P (create bag explicit)) :
    FailsOnly P (statementOn bag explicit) := by
  unfold statementOn
  dsimp only
  split
  next =>
    exact (failsOnly_retrieve hP hExplicit).bind fun _ => failsOnly_ok _
  next hCommand =>
    exact (hCreate hCommand).bind fun _ => failsOnly_ok _
  next =>
    exact (failsOnly_update hP hExplicit).bind fun _ => failsOnly_ok _
  next =>
    exact (failsOnly_delete hP hExplicit).bind fun _ => failsOnly_ok _

end Sql

end GraphBag
