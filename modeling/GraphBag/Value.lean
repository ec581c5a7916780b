import GraphBag.Entries
import GraphBag.Json.Reader

/-
  Property values: what stands on the right of a predicate, in
  the data of a command and in the rows of a reply.

  A map is a list of entries.  The maps this library builds have
  their keys in increasing order and no key twice, which is
  `Value.Ordered`.

  Key definitions include:
    * `Value`
    * `Value.Ordered`
    * `Value.toJson`
    * `Value.ofJson`
    * `Value.display`
-/

namespace GraphBag

/- A property value. -/
inductive Value where
  | null
  | bool (b : Bool)
  | int (n : Int64)
  | float (x : Binary64)
  | string (s : String)
  | list (items : List Value)
  | map (entries : List (String × Value))
deriving Repr, Inhabited

namespace Value

------------------------------------------------------------
-- Equality
------------------------------------------------------------

mutual

/- Decides whether two values are equal. -/
def decEq : (a b : Value) → Decidable (a = b)
  | .null, .null => isTrue rfl
  | .bool a, .bool b => decidable_of_iff (a = b) (by simp)
  | .int a, .int b => decidable_of_iff (a = b) (by simp)
  | .float a, .float b => decidable_of_iff (a = b) (by simp)
  | .string a, .string b => decidable_of_iff (a = b) (by simp)
  | .list a, .list b =>
      have := decEqItems a b
      decidable_of_iff (a = b) (by simp)
  | .map a, .map b =>
      have := decEqEntries a b
      decidable_of_iff (a = b) (by simp)
  | .null, .bool _ | .null, .int _ | .null, .float _
  | .null, .string _ | .null, .list _ | .null, .map _
  | .bool _, .null | .bool _, .int _ | .bool _, .float _
  | .bool _, .string _ | .bool _, .list _ | .bool _, .map _
  | .int _, .null | .int _, .bool _ | .int _, .float _
  | .int _, .string _ | .int _, .list _ | .int _, .map _
  | .float _, .null | .float _, .bool _ | .float _, .int _
  | .float _, .string _ | .float _, .list _ | .float _, .map _
  | .string _, .null | .string _, .bool _ | .string _, .int _
  | .string _, .float _ | .string _, .list _ | .string _, .map _
  | .list _, .null | .list _, .bool _ | .list _, .int _
  | .list _, .float _ | .list _, .string _ | .list _, .map _
  | .map _, .null | .map _, .bool _ | .map _, .int _
  | .map _, .float _ | .map _, .string _ | .map _, .list _ =>
      isFalse (by simp)

/- Decides whether two lists of values are equal. -/
def decEqItems : (a b : List Value) → Decidable (a = b)
  | [], [] => isTrue rfl
  | [], _ :: _ | _ :: _, [] => isFalse (by simp)
  | x :: a, y :: b =>
      have := decEq x y
      have := decEqItems a b
      decidable_of_iff (x = y ∧ a = b) (by simp)

/- Decides whether two lists of entries are equal. -/
def decEqEntries :
    (a b : List (String × Value)) → Decidable (a = b)
  | [], [] => isTrue rfl
  | [], _ :: _ | _ :: _, [] => isFalse (by simp)
  | (k, x) :: a, (l, y) :: b =>
      have := decEq x y
      have := decEqEntries a b
      decidable_of_iff ((k = l ∧ x = y) ∧ a = b) (by simp)

end

instance : DecidableEq Value :=
  decEq

------------------------------------------------------------
-- Parts
------------------------------------------------------------

/- The kind of a value, as messages name it. -/
def typeName : Value → String
  | .null => "null"
  | .bool _ => "bool"
  | .int _ => "int64"
  | .float _ => "float64"
  | .string _ => "string"
  | .list _ => "list"
  | .map _ => "map"

/- The value is null. -/
def isNull : Value → Bool
  | .null => true
  | _ => false

/- The boolean, if it is one. -/
def bool? : Value → Option Bool
  | .bool b => some b
  | _ => none

/- The integer, if it is one. -/
def int? : Value → Option Int64
  | .int n => some n
  | _ => none

/- The floating-point number, if it is one. -/
def float? : Value → Option Binary64
  | .float x => some x
  | _ => none

/- The string, if it is one. -/
def string? : Value → Option String
  | .string s => some s
  | _ => none

/- The items, if it is a list. -/
def list? : Value → Option (List Value)
  | .list items => some items
  | _ => none

/- The entries, if it is a map. -/
def map? : Value → Option (List (String × Value))
  | .map entries => some entries
  | _ => none

/- The map of a list of entries, the last of equal keys winning. -/
def mapOf (entries : List (String × Value)) : Value :=
  .map (Entries.sorted entries)

mutual

/- Every map inside has its keys in strictly increasing order. -/
def Ordered : Value → Prop
  | .list items => OrderedItems items
  | .map entries =>
      (entries.map Prod.fst).Pairwise (· < ·) ∧
        OrderedEntries entries
  | _ => True

/- All items of a list are ordered. -/
def OrderedItems : List Value → Prop
  | [] => True
  | item :: rest => item.Ordered ∧ OrderedItems rest

/- All values of a list of entries are ordered. -/
def OrderedEntries : List (String × Value) → Prop
  | [] => True
  | (_, value) :: rest => value.Ordered ∧ OrderedEntries rest

end

------------------------------------------------------------
-- JSON Form
------------------------------------------------------------

mutual

/- The JSON tree of a value. -/
def toJson : Value → Json
  | .null => .scalar .null
  | .bool b => .scalar (.bool b)
  | .int n => .scalar (.int n.toInt)
  | .float x => .scalar (.float x)
  | .string s => .scalar (.string s)
  | .list items => .array (itemsToJson items)
  | .map entries => .object (entriesToJson entries)

/- The JSON trees of a list of values. -/
def itemsToJson : List Value → List Json
  | [] => []
  | item :: rest => item.toJson :: itemsToJson rest

/- The JSON fields of a list of entries. -/
def entriesToJson : List (String × Value) → List (String × Json)
  | [] => []
  | (key, value) :: rest => (key, value.toJson) :: entriesToJson rest

end

/- The floating-point number nearest to an integer. -/
def floatOfInt (n : Int) : Binary64 :=
  (Binary64.ofDecimal? (n < 0) ⟨n.natAbs, 0⟩).getD
    (.infinite (n < 0))

/-
  The value of a JSON scalar.  An integer that does not fit in
  64 bits with a sign becomes a floating-point number.
-/
def ofScalar : Scalar → Value
  | .null => .null
  | .bool b => .bool b
  | .int n =>
      if Int64.minValue.toInt ≤ n ∧ n ≤ Int64.maxValue.toInt then
        .int (Int64.ofInt n)
      else .float (floatOfInt n)
  | .float x => .float x
  | .string s => .string s

mutual

/- The value of a JSON tree, the last of equal keys winning. -/
def ofJson : Json → Value
  | .scalar s => ofScalar s
  | .array items => .list (itemsOfJson items)
  | .object fields => mapOf (entriesOfJson fields)

/- The values of a list of JSON trees. -/
def itemsOfJson : List Json → List Value
  | [] => []
  | item :: rest => ofJson item :: itemsOfJson rest

/- The entries of a list of JSON fields. -/
def entriesOfJson : List (String × Json) → List (String × Value)
  | [] => []
  | (key, value) :: rest => (key, ofJson value) :: entriesOfJson rest

end

/- The JSON text of a value. -/
def render (v : Value) : String :=
  v.toJson.render

/- Reads a value from a node. -/
def read : Reader Value :=
  fun room node => (Reader.json room node).map ofJson

/- Reads a value from a JSON text. -/
def parse (text : String) : Except ReadError Value :=
  Reader.run read text

------------------------------------------------------------
-- Display
------------------------------------------------------------

mutual

/- A value as messages show it, strings without quotes. -/
def displayChars : Value → List Char
  | .null => ['n', 'u', 'l', 'l']
  | .bool b => Token.scalarChars (.bool b)
  | .int n => Token.intChars n.toInt
  | .float x => x.chars .plain
  | .string s => s.toList
  | .list items => '[' :: displayItems items ++ [']']
  | .map entries => '\x7b' :: displayEntries entries ++ ['\x7d']

/- The items of a list with a comma and a blank between. -/
def displayItems : List Value → List Char
  | [] => []
  | [item] => item.displayChars
  | item :: rest => item.displayChars ++ [',', ' '] ++ displayItems rest

/- The entries of a map with a comma and a blank between. -/
def displayEntries : List (String × Value) → List Char
  | [] => []
  | [(key, value)] => key.toList ++ [':', ' '] ++ value.displayChars
  | (key, value) :: rest =>
      key.toList ++ [':', ' '] ++ value.displayChars ++
        [',', ' '] ++ displayEntries rest

end

/- A value as messages show it. -/
def display (v : Value) : String :=
  String.ofList v.displayChars

------------------------------------------------------------
-- Finite Numbers
------------------------------------------------------------

mutual

/- The first number inside that is not finite, if there is one. -/
def notFinite? : Value → Option Value
  | .float x => if x.isFinite then none else some (.float x)
  | .list items => notFiniteItem? items
  | .map entries => notFiniteField? entries
  | _ => none

/- The first number in a list that is not finite. -/
def notFiniteItem? : List Value → Option Value
  | [] => none
  | item :: rest => item.notFinite?.or (notFiniteItem? rest)

/- The first number in a list of entries that is not finite. -/
def notFiniteField? : List (String × Value) → Option Value
  | [] => none
  | (_, value) :: rest => value.notFinite?.or (notFiniteField? rest)

end

end Value

end GraphBag
