import GraphBag.Script
import GraphBag.Sql.Names
import GraphBag.Text.Quoted

/-
  Values as SQL literals.

  Key definitions include:
    * `Sql.literalChars`
    * `Sql.cast`
    * `Sql.wordOf`
-/

namespace GraphBag

/-
  Numbers in a statement keep a point or an exponent, and have
  an exponent below `1e-4` and from `1e16` on.
-/
def Layout.sql : Layout where
  positional := fun e => -4 ≤ e && e < 16
  whole := ['.', '0']
  positive := []
  tie := .up

namespace Sql

------------------------------------------------------------
-- Refused Values
------------------------------------------------------------

/- A value that cannot be written at a step. -/
def invalidValue (step : Step) (v : Value) : CompileError :=
  .invalidToken step (v.display ++ " (" ++ v.typeName ++ ")")

/- Refuses a value with a number inside that is not finite. -/
def ensureFinite (step : Step) (v : Value) : Except CompileError Unit :=
  match v.notFinite? with
  | none => .ok ()
  | some x => .error (invalidValue step x)

/- The string that a value stands for in a statement. -/
def wordOf (step : Step) (v : Value) : Except CompileError String :=
  match v.string? with
  | some s => .ok s
  | none => .error (invalidValue step v)

------------------------------------------------------------
-- Literals
------------------------------------------------------------

mutual

/-
  The literal of a value.  Strings are quoted unless the field
  is one of the engine's own; maps are written as JSON.
-/
def literalChars (native : Bool) : Value → List Char
  | .null => ['N', 'U', 'L', 'L']
  | .bool b => Token.scalarChars (.bool b)
  | .int n => Token.intChars n.toInt
  | .float x => x.chars .sql
  | .string s =>
      if native then s.toList else Text.quoteChars s.toList
  | .list items => '[' :: literalItems native items ++ [']']
  | .map entries => (Value.map entries).toJson.chars

/- The literals of list items with a comma between. -/
def literalItems (native : Bool) : List Value → List Char
  | [] => []
  | [item] => literalChars native item
  | item :: rest =>
      literalChars native item ++ ',' :: literalItems native rest

end

/- The literal of a value compared with a field. -/
def cast (field : Field) (v : Value) : Except CompileError String := do
  ensureFinite .predicates v
  .ok (String.ofList (literalChars (hasNativeName field) v))

end Sql

end GraphBag
