import GraphBag.Bag.Basic
import GraphBag.Text.Blank

/-
  The words of OrientDB SQL for the parts of a bag.

  Key definitions include:
    * `Sql.dialect`
    * `Sql.ElementKind`
    * `Sql.nativeField?`
    * `Sql.fieldName`
    * `Sql.verb`
-/

namespace GraphBag

namespace Sql

/- The tag of the dialect. -/
def dialect : String :=
  "orientSQL"

/- The class that stands in when none is given. -/
def defaultClass : String :=
  "V"

/- Graph elements are vertices or edges. -/
inductive ElementKind where
  | vertex
  | edge
deriving DecidableEq, Repr

/- An edge is named so in any case; all else is a vertex. -/
def ElementKind.ofValue? (v : Option Value) : ElementKind :=
  match v.bind Value.string? with
  | some s =>
      if Text.sameIgnoringCase s "edge" then .edge else .vertex
  | none => .vertex

/- The sign of an operator. -/
def operator : Operator → String
  | .eq => "="
  | .gt => ">"
  | .lt => "<"
  | .le => "<="
  | .ge => ">="
  | .ne => "<>"
  | .without => "WITHOUT"
  | .within => "IN"

/- The word of a conjunction. -/
def conjunction : Conjunction → String
  | .and => "AND"
  | .or => "OR"

/- The word of a direction. -/
def direction : Direction → String
  | .asc => "ASC"
  | .desc => "DESC"

/- The engine's own name of a meta-field, if it has one. -/
def nativeField? : MetaField → Option String
  | .id => some "@rid"
  | .label => some "@class"
  | .kind => none
  | .outVertex => some "out"
  | .inVertex => some "in"

/- The name of a field in a statement. -/
def fieldName : Field → String
  | .ofMeta m => (nativeField? m).getD m.reservedName
  | .data name => name

/- The engine has its own name for the field. -/
def hasNativeName (f : Field) : Bool :=
  (f.meta?.bind nativeField?).isSome

/- The verb of a command on an element. -/
def verb : CommandKind → ElementKind → String
  | .retrieve, _ => "SELECT"
  | .create, .vertex => "INSERT INTO"
  | .create, .edge => "CREATE EDGE"
  | .update, _ => "UPDATE"
  | .delete, .vertex => "DELETE VERTEX"
  | .delete, .edge => "DELETE EDGE"

end Sql

end GraphBag
