import GraphBag.Decimal.Layout

/-
  JSON trees.  Numbers are integers or floating-point numbers,
  and an object keeps its fields as a list, so that their order
  and repeated keys are part of the tree.

  Key definitions include:
    * `Scalar`
    * `Json`
    * `Json.height`
-/

namespace GraphBag

/- A JSON value without parts. -/
inductive Scalar where
  | null
  | bool (b : Bool)
  | int (n : Int)
  | float (x : Binary64)
  | string (s : String)
deriving DecidableEq, Repr

/- A JSON value. -/
inductive Json where
  | scalar (s : Scalar)
  | array (items : List Json)
  | object (fields : List (String × Json))
deriving Repr

namespace Json

/- The null value. -/
@[match_pattern]
def null : Json :=
  .scalar .null

/- A string value. -/
@[match_pattern]
def string (s : String) : Json :=
  .scalar (.string s)

/- An integer value. -/
@[match_pattern]
def int (n : Int) : Json :=
  .scalar (.int n)

/- The number of arrays and objects around the deepest part. -/
def height : Json → Nat
  | .scalar _ => 0
  | .array items => itemsHeight items + 1
  | .object fields => fieldsHeight fields + 1
where
  /- The height of the highest item. -/
  itemsHeight : List Json → Nat
  | [] => 0
  | item :: rest => max item.height (itemsHeight rest)
  /- The height of the highest field value. -/
  fieldsHeight : List (String × Json) → Nat
  | [] => 0
  | (_, value) :: rest => max value.height (fieldsHeight rest)

end Json

end GraphBag
