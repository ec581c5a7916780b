import GraphBag.Json.Writer

/-
  JSON text read as far as it goes.  A `Node` is a tree that
  may be cut off where the text stops being JSON: a value that
  is missing is `Node.broken`, and an array or object that does
  not end properly is not closed.  A reader that walks a node
  from left to right therefore meets a fault exactly where it
  stands in the text, after all that comes before it.

  Key definitions include:
    * `Node`
    * `Node.parse`
    * `Node.strict?`
    * `Node.passable`
    * `Json.toNode`
-/

namespace GraphBag

/- What a reader can find in place of what it expects. -/
inductive Found where
  | scalar (s : Scalar)
  | sequence
  | map
deriving DecidableEq, Repr

/-
  The key of an object field.  An object in which something else
  than a string stands where a key should ends there, not closed.
-/
inductive Key where
  | text (s : String)
  | flawed
deriving DecidableEq, Repr

/- A JSON tree, possibly cut off. -/
inductive Node where
  | scalar (s : Scalar)
  | flawed
  | array (items : List Node) (closed : Bool)
  | object (fields : List (Key × Node)) (closed : Bool)
  | broken
deriving Repr

namespace Node

------------------------------------------------------------
-- Parsing
------------------------------------------------------------

mutual

/- The value at the front of a token list, and the rest. -/
def parseValue : Nat → List Token → Node × List Token
  | 0, ts => (.broken, ts)
  | _ + 1, .scalar s :: ts => (.scalar s, ts)
  | _ + 1, .flawedNumber :: ts => (.flawed, ts)
  | _ + 1, .flawedText :: ts => (.flawed, ts)
  | _ + 1, .openBracket :: .closeBracket :: ts => (.array [] true, ts)
  | steps + 1, .openBracket :: ts =>
      let (items, closed, rest) := parseItems steps ts
      (.array items closed, rest)
  | _ + 1, .openBrace :: .closeBrace :: ts => (.object [] true, ts)
  | steps + 1, .openBrace :: ts =>
      let (fields, closed, rest) := parseFields steps ts
      (.object fields closed, rest)
  | _ + 1, ts => (.broken, ts)

/- One or more array items up to the closing bracket. -/
def parseItems :
    Nat → List Token → List Node × Bool × List Token
  | 0, ts => ([], false, ts)
  | steps + 1, ts =>
      match parseValue steps ts with
      | (item, .comma :: rest) =>
          let (items, closed, rest) := parseItems steps rest
          (item :: items, closed, rest)
      | (item, .closeBracket :: rest) => ([item], true, rest)
      | (item, rest) => ([item], false, rest)

/- One or more object fields up to the closing brace. -/
def parseFields :
    Nat → List Token → List (Key × Node) × Bool × List Token
  | 0, ts => ([], false, ts)
  | steps + 1, .scalar (.string key) :: .colon :: ts =>
      parseField steps (.text key) ts
  | steps + 1, .flawedText :: .colon :: ts =>
      parseField steps .flawed ts
  | _ + 1, .scalar (.string key) :: ts =>
      ([(.text key, .broken)], false, ts)
  | _ + 1, ts => ([], false, ts)

/- The value of a field and the fields after it. -/
def parseField :
    Nat → Key → List Token → List (Key × Node) × Bool × List Token
  | 0, key, ts => ([(key, .broken)], false, ts)
  | steps + 1, key, ts =>
      match parseValue steps ts with
      | (value, .comma :: rest) =>
          let (fields, closed, rest) := parseFields steps rest
          ((key, value) :: fields, closed, rest)
      | (value, .closeBrace :: rest) =>
          ([(key, value)], true, rest)
      | (value, rest) => ([(key, value)], false, rest)

end

/-
  The value at the front of a token list, and the rest.  A
  level of recursion takes a token at least every third step,
  so the steps never run out before the tokens.
-/
def parse (ts : List Token) : Node × List Token :=
  parseValue (3 * ts.length + 1) ts

------------------------------------------------------------
-- Whole Trees
------------------------------------------------------------

/- The text of a key that is one. -/
def keyText? : Key → Option String
  | .text s => some s
  | _ => none

/-
  The tree of a node without any fault and with at most `room`
  arrays and objects inside each other.
-/
def strict? : Nat → Node → Option Json
  | _, .scalar s => some (.scalar s)
  | room + 1, .array items true =>
      (items.mapM (strict? room)).map .array
  | room + 1, .object fields true =>
      (fields.mapM fun (key, value) => do
        let key ← keyText? key
        let value ← strict? room value
        some (key, value)).map .object
  | _, _ => none

mutual

/-
  A node that can be skipped: it is not cut off.  Flawed
  scalars and keys are no obstacle, nor is any depth.
-/
def passable : Node → Bool
  | .scalar _ => true
  | .flawed => true
  | .array items closed => passableItems items && closed
  | .object fields closed => passableFields fields && closed
  | .broken => false

/- All items can be skipped. -/
def passableItems : List Node → Bool
  | [] => true
  | item :: rest => item.passable && passableItems rest

/- All field values can be skipped. -/
def passableFields : List (Key × Node) → Bool
  | [] => true
  | (_, value) :: rest => value.passable && passableFields rest

end

/- What a node shows to a reader that expects something else. -/
def found? : Node → Option Found
  | .scalar s => some (.scalar s)
  | .array _ _ => some .sequence
  | .object _ _ => some .map
  | .flawed => none
  | .broken => none

end Node

mutual

/- A tree as a node without a fault. -/
def Json.toNode : Json → Node
  | .scalar s => .scalar s
  | .array items => .array (Json.toNodeItems items) true
  | .object fields => .object (Json.toNodeFields fields) true

/- The items of an array as nodes. -/
def Json.toNodeItems : List Json → List Node
  | [] => []
  | item :: rest => item.toNode :: Json.toNodeItems rest

/- The fields of an object as nodes. -/
def Json.toNodeFields : List (String × Json) → List (Key × Node)
  | [] => []
  | (key, value) :: rest =>
      (.text key, value.toNode) :: Json.toNodeFields rest

end

end GraphBag
