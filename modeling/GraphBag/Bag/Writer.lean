import GraphBag.Bag.Basic

/-
  The JSON form of bags.

  Key definitions include:
    * `Constraint.toJson`
    * `SortKey.toJson`
    * `Bag.toJson`
    * `Bag.render`
-/

namespace GraphBag

/- The JSON form of a constraint. -/
def Constraint.toJson (c : Constraint) : Json :=
  .object
    [("field", c.field.toJson),
     ("operator", .string c.operator.name),
     ("value", c.value.toJson),
     ("conjunction", .string c.conjunction.name)]

/- The JSON form of a sort key. -/
def SortKey.toJson (k : SortKey) : Json :=
  .object
    [("field", k.field.toJson),
     ("direction", .string k.direction.name)]

namespace Bag

/- The JSON form of the data of a bag. -/
def dataToJson (data : OrderedMap Field Value) : Json :=
  .object (data.entries.map fun (field, value) =>
    (field.name, value.toJson))

/- The JSON form of a limit. -/
def limitToJson : Option UInt64 → Json
  | none => .null
  | some n => .int n.toNat

mutual

/- The JSON form of a bag, every field written. -/
def toJson : Bag → Json
  | ⟨command, constraints, data, projections, target, limit,
      orderBy, format⟩ =>
      .object
        [("command", .string command.name),
         ("where", .array (constraints.map Constraint.toJson)),
         ("data", dataToJson data),
         ("projections", .array (projections.map Field.toJson)),
         ("target", targetToJson target),
         ("limit", limitToJson limit),
         ("order_by", .array (orderBy.map SortKey.toJson)),
         ("format", .string format.name)]

/- The JSON form of a target. -/
def targetToJson : Option Target → Json
  | none => .null
  | some (.named name) => .string name
  | some (.embedded bag) => bag.toJson

end

/- The JSON text of a bag. -/
def render (b : Bag) : String :=
  b.toJson.render

end Bag

end GraphBag
