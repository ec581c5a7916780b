import GraphBag.Sql.Clause

/-
  Bags as statements:

    retrieve  SELECT [fields] FROM target [WHERE ...]
              [ORDER BY ...] [LIMIT n]
    create    INSERT INTO class [CONTENT json]
              CREATE EDGE class FROM out TO in [CONTENT json]
    update    UPDATE class [MERGE json] RETURN AFTER $current
              [WHERE ...] [LIMIT n]
    delete    DELETE VERTEX|EDGE [FROM] target [WHERE ...]
              [LIMIT n]

  A retrieve, an update and a delete can work on the result of
  an embedded bag, which is compiled one level deeper.

  Key definitions include:
    * `Sql.retrieve`
    * `Sql.create`
    * `Sql.update`
    * `Sql.delete`
    * `Sql.statement`
    * `Sql.embeddedStatement`
-/

namespace GraphBag

namespace Sql

------------------------------------------------------------
-- Targets
------------------------------------------------------------

/- What a statement works on, and whether it is embedded. -/
def targetOf
    (bag : Bag)
    (explicit : Except CompileError (Option String)) :
    Except CompileError (String × Bool) :=
  match (resolveTarget bag.constraints).1 with
  | some v => (wordOf .target v).map (·, false)
  | none => do
      let target ← explicit
      let embedded :=
        match bag.target with
        | some (.embedded _) => true
        | _ => false
      .ok (target.getD defaultClass, embedded)

/-
  Adds the target.  A retrieve always writes FROM before it, a
  delete only before an embedded one.
-/
def addTarget
    (buf : Buffer)
    (always : Bool)
    (bag : Bag)
    (explicit : Except CompileError (Option String)) :
    Except CompileError Buffer := do
  let (target, embedded) ← targetOf bag explicit
  let buf ←
    if always || embedded then buf.push .target "FROM"
    else .ok buf
  buf.push .target target

/- An endpoint of an edge, by the data of its meta-field. -/
def endpoint
    (bag : Bag)
    (m : MetaField)
    (side : String) :
    Except CompileError String :=
  match bag.metaData? m with
  | some v => wordOf .endpoints v
  | none => .error (.missingEndpoint side)

/- Adds both endpoints of an edge. -/
def addEndpoints
    (buf : Buffer)
    (bag : Bag) :
    Except CompileError Buffer := do
  let source ← endpoint bag .outVertex "out"
  let sink ← endpoint bag .inVertex "in"
  let buf ← buf.push .endpoints "FROM"
  let buf ← buf.push .endpoints source
  let buf ← buf.push .endpoints "TO"
  buf.push .endpoints sink

------------------------------------------------------------
-- Statements with a Given Explicit Target
------------------------------------------------------------

/- The statement of a retrieve. -/
def retrieve
    (bag : Bag)
    (explicit : Except CompileError (Option String)) :
    Except CompileError Buffer := do
  let buf ← Buffer.empty.push .start (verb .retrieve .vertex)
  let buf ← addProjections buf bag.projections
  let buf ← addTarget buf true bag explicit
  let buf ← addPredicates buf (resolveTarget bag.constraints).2
  let buf ← addOrder buf bag.orderBy
  addLimit buf bag.limit

/- The class of a create, which no embedded bag can name. -/
def createdClass
    (bag : Bag)
    (explicit : Except CompileError (Option String)) :
    Except CompileError String := do
  let other :=
    match bag.target with
    | some (.embedded inner) =>
        .error (.invalidToken .className
          ("embedded " ++ inner.command.name ++ " command"))
    | _ => explicit
  match ← className? bag other with
  | some name => .ok name
  | none => .error (.unresolvedTarget CommandKind.create.name)

/- The statement of a create. -/
def create
    (bag : Bag)
    (explicit : Except CompileError (Option String)) :
    Except CompileError Buffer := do
  let kind := ElementKind.ofValue? (bag.metaData? .kind)
  let name ← createdClass bag explicit
  let buf ← Buffer.empty.push .start (verb .create kind)
  let buf ← buf.push .className name
  let buf ←
    match kind with
    | .vertex => .ok buf
    | .edge => addEndpoints buf bag
  addContent buf "CONTENT" bag

/- The statement of an update. -/
def update
    (bag : Bag)
    (explicit : Except CompileError (Option String)) :
    Except CompileError Buffer := do
  let name ← className? bag explicit
  let buf ← Buffer.empty.push .start (verb .update .vertex)
  let buf ← buf.push .className (name.getD defaultClass)
  let buf ← addContent buf "MERGE" bag
  let buf ← buf.push .result "RETURN AFTER $current"
  let buf ← addPredicates buf bag.constraints
  addLimit buf bag.limit

/- The statement of a delete. -/
def delete
    (bag : Bag)
    (explicit : Except CompileError (Option String)) :
    Except CompileError Buffer := do
  let kind := ElementKind.ofValue? (bag.constrained? .kind)
  let buf ← Buffer.empty.push .start (verb .delete kind)
  let buf ← addTarget buf false bag explicit
  let buf ← addPredicates buf (resolveTarget bag.constraints).2
  addLimit buf bag.limit

/- The statement of a bag whose explicit target is given. -/
def statementOn
    (bag : Bag)
    (explicit : Except CompileError (Option String)) :
    Except CompileError String := do
  let buf ←
    match bag.command with
    | .retrieve => retrieve bag explicit
    | .create => create bag explicit
    | .update => update bag explicit
    | .delete => delete bag explicit
  .ok buf.text

------------------------------------------------------------
-- Statements
------------------------------------------------------------

mutual

/- The statement of a bag in a context. -/
def statement : Bag → Context → Except CompileError String
  | bag@⟨_, _, _, _, target, _, _, _⟩, ctx =>
      statementOn bag (explicitTarget target ctx)

/- The explicit target: a class, or a statement in brackets. -/
def explicitTarget :
    Option Target → Context → Except CompileError (Option String)
  | none, _ => .ok none
  | some (.named name), _ => .ok (some name)
  | some (.embedded inner), ctx => do
      let ctx ← ctx.nested
      let script ← statement inner ctx
      .ok (some ("(" ++ script ++ ")"))

end

/- The statement of a bag embedded in a context. -/
def embeddedStatement
    (bag : Bag)
    (ctx : Context) :
    Except CompileError String := do
  let ctx ← ctx.nested
  statement bag ctx

------------------------------------------------------------
-- Batches
------------------------------------------------------------

/- The script of statements run as one transaction. -/
def batchScript (statements : List String) : String :=
  let lets :=
    statements.mapIdx fun i s => "LET t" ++ toString i ++ " = " ++ s
  let names := statements.mapIdx fun i _ => "$t" ++ toString i
  String.intercalate "\n"
    ("BEGIN" :: lets ++
      ["COMMIT", "RETURN [" ++ String.intercalate "," names ++ "]"])

/- The script of a batch of bags, each one level deep. -/
def batch
    (bags : List Bag)
    (maxDepth : Nat) :
    Except CompileError String :=
  if bags.isEmpty then
    .error .emptyBatch
  else do
    let statements ←
      bags.mapM (embeddedStatement · (.root maxDepth))
    .ok (batchScript statements)

end Sql

end GraphBag
