import GraphBag.Bag.Basic

/-
  Reading bags from JSON.

  A constraint and a sort key are read from an object or from an
  array of their fields; a bag only from an object.  Every field
  of a bag has a default.

  Key definitions include:
    * `Constraint.schema`
    * `SortKey.schema`
    * `Bag.schema`
    * `Bag.read`
    * `Bag.parse`
-/

namespace GraphBag

------------------------------------------------------------
-- Named Choices
------------------------------------------------------------

/- Reads a command kind. -/
def CommandKind.read : Reader CommandKind :=
  Reader.choice CommandKind.name CommandKind.all

/- Reads a format. -/
def Format.read : Reader Format :=
  Reader.choice Format.name Format.all

/- Reads an operator. -/
def Operator.read : Reader Operator :=
  Reader.choice Operator.name Operator.all

/- Reads a conjunction. -/
def Conjunction.read : Reader Conjunction :=
  Reader.choice Conjunction.name Conjunction.all

/- Reads a direction. -/
def Direction.read : Reader Direction :=
  Reader.choice Direction.name Direction.all

------------------------------------------------------------
-- Constraints and Sort Keys
------------------------------------------------------------

/- Sets a field of a constraint. -/
def Constraint.set
    (name : String)
    (room : Nat)
    (node : Node)
    (c : Constraint) :
    Except ReadError Constraint :=
  if name = "field" then do
    .ok { c with field := ← Field.read room node }
  else if name = "operator" then do
    .ok { c with operator := ← Operator.read room node }
  else if name = "value" then do
    .ok { c with value := ← Value.read room node }
  else do
    .ok { c with conjunction := ← Conjunction.read room node }

/- How a constraint is read. -/
def Constraint.schema : Schema Constraint where
  title := "struct Constraint"
  names := ["field", "operator", "value", "conjunction"]
  required := ["field", "operator", "value"]
  openEnded := false
  initial := .equals (.data "") .null
  set := Constraint.set

/- Reads a constraint. -/
def Constraint.read : Reader Constraint :=
  Constraint.schema.record

/- Sets a field of a sort key. -/
def SortKey.set
    (name : String)
    (room : Nat)
    (node : Node)
    (k : SortKey) :
    Except ReadError SortKey :=
  if name = "field" then do
    .ok { k with field := ← Field.read room node }
  else do
    .ok { k with direction := ← Direction.read room node }

/- How a sort key is read. -/
def SortKey.schema : Schema SortKey where
  title := "struct OrderBy"
  names := ["field", "direction"]
  required := ["field"]
  openEnded := true
  initial := ⟨.data "", .asc⟩
  set := SortKey.set

/- Reads a sort key. -/
def SortKey.read : Reader SortKey :=
  SortKey.schema.record

------------------------------------------------------------
-- Bags
------------------------------------------------------------

/- Reads the data of a bag. -/
def Bag.readData : Reader (OrderedMap Field Value) :=
  fun room node =>
    (Reader.entries Value.read room node).map fun entries =>
      .ofList (entries.map fun (key, value) =>
        (Field.ofName key, value))

/-
  Reads a target, given a reader of the bags inside.  The value
  is read as a whole first; after that any fault in it only says
  that it is no target.
-/
def Target.read (readBag : Reader Bag) : Reader Target :=
  fun room node => do
    let _ ← Reader.json room node
    match node, readBag room node with
    | .scalar (.string name), _ => .ok (.named name)
    | _, .ok bag => .ok (.embedded bag)
    | _, .error _ => .error (.shape (.noVariant "Target"))

/- Sets a field of a bag, given a reader of the bags inside. -/
def Bag.set
    (readBag : Reader Bag)
    (name : String)
    (room : Nat)
    (node : Node)
    (b : Bag) :
    Except ReadError Bag :=
  if name = "command" then do
    .ok { b with command := ← CommandKind.read room node }
  else if name = "where" then do
    let constraints ← Reader.sequence Constraint.read room node
    .ok { b with constraints := constraints }
  else if name = "data" then do
    .ok { b with data := ← Bag.readData room node }
  else if name = "projections" then do
    .ok { b with
      projections := ← Reader.sequence Field.read room node }
  else if name = "target" then do
    let target ← Reader.optional (Target.read readBag) room node
    .ok { b with target := target }
  else if name = "limit" then do
    let limit ←
      Reader.optional (Reader.natural UInt64.size "u64") room node
    .ok { b with limit := limit.map UInt64.ofNat }
  else if name = "order_by" then do
    .ok { b with
      orderBy := ← Reader.sequence SortKey.read room node }
  else do
    .ok { b with format := ← Format.read room node }

/- How a bag is read, given a reader of the bags inside. -/
def Bag.schema (readBag : Reader Bag) : Schema Bag where
  title := "a bag object"
  names :=
    ["command", "where", "data", "projections", "target", "limit",
      "order_by", "format"]
  required := []
  openEnded := false
  initial := {}
  set := Bag.set readBag

/-
  Reads a bag.  The bags inside have less room, which ends the
  recursion; without room there are none.
-/
def Bag.read : Reader Bag
  | 0 => (Bag.schema fun _ _ => .error .malformed).object 0
  | room + 1 =>
      (Bag.schema fun _ => Bag.read room).object (room + 1)

/- Reads a bag from a JSON text. -/
def Bag.parse (text : String) : Except ReadError Bag :=
  Reader.run Bag.read text

/- Reads an array of bags from a JSON text. -/
def Bag.parseList (text : String) : Except ReadError (List Bag) :=
  Reader.run (Reader.sequence Bag.read) text

/- Reads a constraint from a JSON text. -/
def Constraint.parse (text : String) : Except ReadError Constraint :=
  Reader.run Constraint.read text

/- Reads an array of constraints from a JSON text. -/
def Constraint.parseList
    (text : String) : Except ReadError (List Constraint) :=
  Reader.run (Reader.sequence Constraint.read) text

end GraphBag
