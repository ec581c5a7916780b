import GraphBag.OrderedMap
import GraphBag.Value

/-
  Rows of a reply and the records in them.  A shape says which
  keys of a row carry the identity of the record and which are
  metadata of the engine; all others are properties.

  Key definitions include:
    * `Row`
    * `RecordShape`
    * `Record`
    * `Record.ofEntries`
-/

namespace GraphBag

------------------------------------------------------------
-- Rows
------------------------------------------------------------

/- A row of a reply: values under their keys, in order. -/
abbrev Row :=
  OrderedMap String Value

/- Reads a row from an object, its keys in the order they come. -/
def Row.read : Reader Row :=
  fun room node => (Reader.entries Value.read room node).map .ofList

/- Reads an array of rows from a JSON text. -/
def Row.parseList (text : String) : Except ReadError (List Row) :=
  Reader.run (Reader.sequence Row.read) text

------------------------------------------------------------
-- Shapes
------------------------------------------------------------

/- Which keys of a row are not properties. -/
structure RecordShape where
  idKey : String
  labelKey : String
  metaStart : Option String := none
deriving DecidableEq, Repr

namespace RecordShape

/- The shape of the rows OrientDB sends. -/
def orient : RecordShape where
  idKey := "@rid"
  labelKey := "@class"
  metaStart := some "@"

/- The key is the identity, the label or other metadata. -/
def isMeta (shape : RecordShape) (key : String) : Bool :=
  key = shape.idKey || key = shape.labelKey ||
    shape.metaStart.any fun start =>
      start.toList.isPrefixOf key.toList

end RecordShape

------------------------------------------------------------
-- Records
------------------------------------------------------------

/- A graph element of a reply. -/
structure Record where
  id : Option String := none
  label : Option String := none
  properties : List (String × Value) := []
deriving DecidableEq, Repr

namespace Record

/- The text of a value that can be an identity. -/
def identity? : Value → Option String
  | .string s => some s
  | .int n => some (String.ofList (Token.intChars n.toInt))
  | _ => none

/- The record of the entries of a row. -/
def ofEntries
    (shape : RecordShape)
    (entries : List (String × Value)) : Record where
  id := (entries.lookup shape.idKey).bind identity?
  label := (entries.lookup shape.labelKey).bind identity?
  properties := entries.filter fun (key, _) => !shape.isMeta key

/- The record of a row. -/
def ofRow (shape : RecordShape) (row : Row) : Record :=
  ofEntries shape row.entries

/- A property by its name. -/
def get? (r : Record) (name : String) : Option Value :=
  r.properties.lookup name

end Record

end GraphBag
