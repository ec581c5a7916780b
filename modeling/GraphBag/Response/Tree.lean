import GraphBag.Response.Record

/-
  Trees of records.  A property whose value is a row of its own,
  or a list of such rows, is a branch: its rows become children
  and it is no property any more.

  Key definitions include:
    * `Tree`
    * `Tree.isNested`
    * `Tree.ofEntries`
    * `Tree.size`
-/

namespace GraphBag

/- A record and the records nested in it. -/
inductive Tree where
  | node (record : Record) (children : List Tree)
deriving Repr

namespace Tree

------------------------------------------------------------
-- Nested Rows
------------------------------------------------------------

/- The value is a map with an identity. -/
def isRow (shape : RecordShape) : Value → Bool
  | .map entries => (entries.lookup shape.idKey).isSome
  | _ => false

/- The value is a row, or a list of one or more rows. -/
def isNested (shape : RecordShape) : Value → Bool
  | .list items => !items.isEmpty && items.all (isRow shape)
  | value => isRow shape value

/- The record of a row without the properties that are nested. -/
def ownRecord
    (shape : RecordShape)
    (entries : List (String × Value)) : Record :=
  let record := Record.ofEntries shape entries
  { record with
    properties :=
      record.properties.filter fun (_, value) =>
        !isNested shape value }

------------------------------------------------------------
-- Building
------------------------------------------------------------

mutual

/- The trees of the rows nested in the entries of a row. -/
def branches (shape : RecordShape) : List (String × Value) → List Tree
  | [] => []
  | (key, value) :: rest =>
      if shape.isMeta key then branches shape rest
      else valueBranches shape value ++ branches shape rest

/- The trees of the rows that a value is. -/
def valueBranches (shape : RecordShape) : Value → List Tree
  | .map entries =>
      if isRow shape (.map entries) then
        [.node (ownRecord shape entries) (branches shape entries)]
      else []
  | .list items =>
      if items.all (isRow shape) then itemBranches shape items
      else []
  | _ => []

/- The trees of the rows in a list. -/
def itemBranches (shape : RecordShape) : List Value → List Tree
  | [] => []
  | .map entries :: rest =>
      .node (ownRecord shape entries) (branches shape entries) ::
        itemBranches shape rest
  | _ :: rest => itemBranches shape rest

end

/- The tree of the entries of a row. -/
def ofEntries
    (shape : RecordShape)
    (entries : List (String × Value)) : Tree :=
  .node (ownRecord shape entries) (branches shape entries)

/- The tree of a row. -/
def ofRow (shape : RecordShape) (row : Row) : Tree :=
  ofEntries shape row.entries

------------------------------------------------------------
-- Looking
------------------------------------------------------------

/- The record at the root. -/
def record : Tree → Record
  | .node record _ => record

/- The trees below the root. -/
def children : Tree → List Tree
  | .node _ children => children

mutual

/- The number of records in a tree. -/
def size : Tree → Nat
  | .node _ children => 1 + sizes children

/- The number of records in a list of trees. -/
def sizes : List Tree → Nat
  | [] => 0
  | tree :: rest => tree.size + sizes rest

end

end Tree

end GraphBag
