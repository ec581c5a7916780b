import GraphBag.Sql.Literal

/-
  The clauses of statements, each added to a script buffer.

  Key definitions include:
    * `Sql.resolveTarget`
    * `Sql.className?`
    * `Sql.addPredicates`
    * `Sql.addContent`
    * `Sql.addOrder`
    * `Sql.addLimit`
    * `Sql.addProjections`
-/

namespace GraphBag

namespace Sql

------------------------------------------------------------
-- Target and Class
------------------------------------------------------------

/- A constraint that names the target instead of filtering. -/
def NamesTarget (c : Constraint) : Prop :=
  c.IsOn .label ∨ c.IsOn .id

instance (c : Constraint) : Decidable (NamesTarget c) := by
  unfold NamesTarget
  infer_instance

/-
  The value of the last constraint that names the target, and
  the constraints that do not name it.
-/
def resolveTarget
    (constraints : List Constraint) :
    Option Value × List Constraint :=
  (((constraints.filter (NamesTarget ·)).getLast?).map (·.value),
    constraints.filter (¬ NamesTarget ·))

/-
  The class of a command: the label in its data, else that of
  its first label constraint, else the given one.
-/
def className?
    (bag : Bag)
    (other : Except CompileError (Option String)) :
    Except CompileError (Option String) :=
  match bag.metaData? .label, bag.constrained? .label with
  | some v, _ => (wordOf .className v).map some
  | none, some v => (wordOf .className v).map some
  | none, none => other

------------------------------------------------------------
-- Predicates
------------------------------------------------------------

/- A constraint that is written as a predicate. -/
def IsPredicate (c : Constraint) : Prop :=
  ¬ c.IsOn .label ∧ ¬ c.IsOn .kind

instance (c : Constraint) : Decidable (IsPredicate c) := by
  unfold IsPredicate
  infer_instance

/- Adds a predicate, with its conjunction unless it is first. -/
def addPredicate
    (buf : Buffer)
    (c : Constraint) :
    Except CompileError Buffer := do
  let buf ←
    if buf.isEmpty then .ok buf
    else buf.push .predicates (conjunction c.conjunction)
  let buf ← buf.push .predicates (fieldName c.field)
  let buf ← buf.push .predicates (operator c.operator)
  let literal ← cast c.field c.value
  buf.push .predicates literal

/- Adds the predicates of constraints, if there are any. -/
def addPredicates
    (buf : Buffer)
    (constraints : List Constraint) :
    Except CompileError Buffer := do
  let predicates ←
    (constraints.filter (IsPredicate ·)).foldlM addPredicate .empty
  if predicates.isEmpty then
    .ok buf
  else
    let buf ← buf.push .predicates "WHERE"
    buf.push .predicates predicates.text

------------------------------------------------------------
-- Content
------------------------------------------------------------

/-
  The content of a bag under the names of the statement; where
  two fields have one name the later value wins.
-/
def contentFields
    (bag : Bag) :
    Except CompileError (OrderedMap String Value) :=
  bag.content.foldlM
    (fun fields (field, value) => do
      ensureFinite .content value
      .ok (fields.put (fieldName field) value))
    .empty

/- The JSON object of named values. -/
def contentJson (fields : OrderedMap String Value) : Json :=
  .object (fields.entries.map fun (name, value) =>
    (name, value.toJson))

/- Adds the content of a bag, if there is any. -/
def addContent
    (buf : Buffer)
    (keyword : String)
    (bag : Bag) :
    Except CompileError Buffer := do
  let fields ← contentFields bag
  if fields.isEmpty then
    .ok buf
  else
    let buf ← buf.push .content keyword
    buf.push .content (contentJson fields).render

------------------------------------------------------------
-- Order, Limit, Projections
------------------------------------------------------------

/- A sort key as it is written. -/
def sortKeyText (key : SortKey) : String :=
  fieldName key.field ++ " " ++ direction key.direction

/- Adds the sort keys, if there are any. -/
def addOrder
    (buf : Buffer)
    (keys : List SortKey) :
    Except CompileError Buffer :=
  if keys.isEmpty then
    .ok buf
  else do
    let buf ← buf.push .order "ORDER BY"
    buf.push .order (String.intercalate ", " (keys.map sortKeyText))

/- Adds a limit above zero. -/
def addLimit
    (buf : Buffer)
    (limit : Option UInt64) :
    Except CompileError Buffer :=
  match limit with
  | none => .ok buf
  | some n =>
      if n.toNat = 0 then .ok buf
      else buf.push .limit ("LIMIT " ++ toString n.toNat)

/- Adds the projected fields, if there are any. -/
def addProjections
    (buf : Buffer)
    (fields : List Field) :
    Except CompileError Buffer :=
  if fields.isEmpty then
    .ok buf
  else
    buf.push .start (String.intercalate ", " (fields.map fieldName))

end Sql

end GraphBag
