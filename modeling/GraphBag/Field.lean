import GraphBag.Json.Reader

/-
  Fields of graph elements: the five that every element or edge
  has by nature, under reserved names, and the named properties
  of the user's data.

  Key definitions include:
    * `MetaField`
    * `Field`
    * `Field.ofName`
-/

namespace GraphBag

------------------------------------------------------------
-- Meta-Fields
------------------------------------------------------------

/- A field that describes the element itself. -/
inductive MetaField where
  | id
  | label
  | kind
  | outVertex
  | inVertex
deriving DecidableEq, Repr

namespace MetaField

/- All meta-fields in their order. -/
def all : List MetaField :=
  [.id, .label, .kind, .outVertex, .inVertex]

/- The name under which a meta-field is written in a bag. -/
def reservedName : MetaField → String
  | .id => "spider:id"
  | .label => "spider:label"
  | .kind => "spider:type"
  | .outVertex => "spider:outV"
  | .inVertex => "spider:inV"

/-
  A structural meta-field shapes the statement and is never
  part of the content written to an element.
-/
def isStructural : MetaField → Bool
  | .id => false
  | _ => true

/- The meta-field of a reserved name. -/
def ofReservedName? (name : String) : Option MetaField :=
  all.find? (·.reservedName = name)

end MetaField

------------------------------------------------------------
-- Fields
------------------------------------------------------------

/- A field of a graph element. -/
inductive Field where
  | ofMeta (m : MetaField)
  | data (name : String)
deriving DecidableEq, Repr

namespace Field

/- The meta-field, if it is one. -/
def meta? : Field → Option MetaField
  | .ofMeta m => some m
  | .data _ => none

/- The field is the given meta-field. -/
def IsOn (m : MetaField) (f : Field) : Prop :=
  f.meta? = some m

instance (m : MetaField) (f : Field) : Decidable (f.IsOn m) := by
  unfold IsOn
  infer_instance

/- The field is a structural meta-field. -/
def isStructural (f : Field) : Bool :=
  f.meta?.any MetaField.isStructural

/- The name of a field in a bag. -/
def name : Field → String
  | .ofMeta m => m.reservedName
  | .data name => name

/- The field of a name, reserved names being the meta-fields'. -/
def ofName (name : String) : Field :=
  match MetaField.ofReservedName? name with
  | some m => .ofMeta m
  | none => .data name

/- The JSON form of a field is its name. -/
def toJson (f : Field) : Json :=
  .string f.name

/- Reads a field by its name. -/
def read : Reader Field :=
  fun room node => (Reader.string room node).map ofName

/- Meta-fields in their order come before data fields by name. -/
def compare : Field → Field → Ordering
  | .ofMeta a, .ofMeta b =>
      Ord.compare (MetaField.all.idxOf a) (MetaField.all.idxOf b)
  | .ofMeta _, .data _ => .lt
  | .data _, .ofMeta _ => .gt
  | .data a, .data b => Ord.compare a b

end Field

end GraphBag
