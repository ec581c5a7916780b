import GraphBag.Json.Node
import GraphBag.Text.Shown

/-
  Readers of JSON text: what can go wrong, and the readers from
  which all others are built.

  A reader is given a node and the room left for arrays and
  objects inside each other; opening one takes one from the
  room.  It works from left to right, so the first fault of the
  text is the one it reports.

  Key definitions include:
    * `ReadError`
    * `Reader`
    * `Reader.sequence`
    * `Reader.choice`
    * `Schema`
    * `Schema.record`
    * `Reader.run`
-/

namespace GraphBag

------------------------------------------------------------
-- Faults
------------------------------------------------------------

/- A value that is well-formed JSON of a wrong shape. -/
inductive ShapeError where
  | invalidType (found : Found) (expected : String)
  | invalidValue (found : Int) (expected : String)
  | invalidLength (length : Nat) (expected : String)
  | unknownField (name : String) (known : List String)
  | unknownVariant (name : String) (known : List String)
  | missingField (name : String)
  | duplicateField (name : String)
  | noVariant (choice : String)
deriving DecidableEq, Repr

/- Why a text could not be read. -/
inductive ReadError where
  | malformed
  | shape (cause : ShapeError)
deriving DecidableEq, Repr

/- What was found, as a message names it. -/
def Found.describe : Found → String
  | .scalar .null => "null"
  | .scalar (.bool true) => "boolean `true`"
  | .scalar (.bool false) => "boolean `false`"
  | .scalar (.int n) =>
      "integer `" ++ String.ofList (Token.intChars n) ++ "`"
  | .scalar (.float x) => "floating point `" ++ x.text .json ++ "`"
  | .scalar (.string s) => "string " ++ Text.shown s
  | .sequence => "sequence"
  | .map => "map"

/- A name in backticks. -/
def ticked (name : String) : String :=
  "`" ++ name ++ "`"

/- The alternatives to a name that is not known. -/
def ShapeError.expectedNames : List String → String
  | [] => "there are no fields"
  | [a] => "expected " ++ ticked a
  | [a, b] => "expected " ++ ticked a ++ " or " ++ ticked b
  | names =>
      "expected one of " ++ String.intercalate ", " (names.map ticked)

/- The wording of a wrong shape. -/
def ShapeError.message : ShapeError → String
  | .invalidType found expected =>
      "invalid type: " ++ found.describe ++ ", expected " ++ expected
  | .invalidValue found expected =>
      "invalid value: " ++ (Found.scalar (.int found)).describe ++
        ", expected " ++ expected
  | .invalidLength length expected =>
      "invalid length " ++ toString length ++
        ", expected " ++ expected
  | .unknownField name known =>
      "unknown field " ++ ticked name ++ ", " ++ expectedNames known
  | .unknownVariant name known =>
      "unknown variant " ++ ticked name ++ ", " ++
        expectedNames known
  | .missingField name => "missing field " ++ ticked name
  | .duplicateField name => "duplicate field " ++ ticked name
  | .noVariant choice =>
      "data did not match any variant of untagged enum " ++ choice

------------------------------------------------------------
-- Readers
------------------------------------------------------------

/- Reads a node in a given room. -/
abbrev Reader (α : Type) :=
  Nat → Node → Except ReadError α

namespace Reader

variable {α : Type}

/- Refuses a node that is not of the expected type. -/
def mismatch (expected : String) (node : Node) : Except ReadError α :=
  match node.found? with
  | some found => .error (.shape (.invalidType found expected))
  | none => .error .malformed

/- Reads any value as a tree. -/
def json : Reader Json :=
  fun room node =>
    match node.strict? room with
    | some j => .ok j
    | none => .error .malformed

/- Reads a string. -/
def string : Reader String
  | _, .scalar (.string s) => .ok s
  | _, node => mismatch "a string" node

/- Reads an integer from zero up to a bound. -/
def natural (bound : Nat) (expected : String) : Reader Nat
  | _, .scalar (.int n) =>
      if 0 ≤ n ∧ n < bound then .ok n.toNat
      else .error (.shape (.invalidValue n expected))
  | _, node => mismatch expected node

/- Reads null as nothing. -/
def optional (read : Reader α) : Reader (Option α)
  | _, .scalar .null => .ok none
  | room, node => (read room node).map some

/- Reads an array item by item. -/
def sequence (read : Reader α) : Reader (List α)
  | room + 1, .array items closed => do
      let xs ← items.mapM (read room)
      if closed then .ok xs else .error .malformed
  | 0, .array _ _ => .error .malformed
  | _, node => mismatch "a sequence" node

/- Reads an object with any keys, field by field. -/
def entries (read : Reader α) : Reader (List (String × α))
  | room + 1, .object fields closed => do
      let xs ← fields.mapM fun
        | (.text key, value) => (read room value).map (key, ·)
        | _ => .error .malformed
      if closed then .ok xs else .error .malformed
  | 0, .object _ _ => .error .malformed
  | _, node => mismatch "a map" node

/- Finds a value by its name. -/
def pick
    (nameOf : α → String)
    (all : List α)
    (name : String) : Except ReadError α :=
  match all.find? (nameOf · = name) with
  | some x => .ok x
  | none => .error (.shape (.unknownVariant name (all.map nameOf)))

/-
  Reads one of finitely many named values: its name, or an
  object whose only field has that name and is null.
-/
def choice (nameOf : α → String) (all : List α) : Reader α
  | _, .scalar (.string name) => pick nameOf all name
  | _ + 1, .object ((.text name, value) :: rest) closed => do
      let x ← pick nameOf all name
      match value with
      | .scalar .null =>
          if rest.isEmpty && closed then .ok x
          else .error .malformed
      | _ => mismatch "unit" value
  | _, _ => .error .malformed

/-
  Reads a whole text: a value, with nothing but white space
  after it.  At most 127 arrays and objects stand inside each
  other.
-/
def run (read : Reader α) (text : String) : Except ReadError α :=
  let (node, rest) := Node.parse (Token.lex text.toList)
  do
    let x ← read 127 node
    if rest.isEmpty then .ok x else .error .malformed

end Reader

------------------------------------------------------------
-- Records
------------------------------------------------------------

/-
  How a record with fixed fields is read.  Fields that are not
  required keep their initial value; keys that are not known are
  skipped when the record is open-ended and refused otherwise.
-/
structure Schema (α : Type) where
  title : String
  names : List String
  required : List String
  openEnded : Bool
  initial : α
  set : String → Nat → Node → α → Except ReadError α

namespace Schema

variable {α : Type}

/- The record, once no required field is missing. -/
def finish
    (schema : Schema α)
    (seen : List String)
    (x : α) : Except ReadError α :=
  match schema.required.find? (· ∉ seen) with
  | none => .ok x
  | some name => .error (.shape (.missingField name))

/- Reads the fields of an object in the order they come. -/
def readFields
    (schema : Schema α)
    (room : Nat)
    (closed : Bool) :
    List String → α → List (Key × Node) → Except ReadError α
  | seen, x, [] =>
      if closed then schema.finish seen x else .error .malformed
  | seen, x, (.text name, node) :: rest =>
      if name ∈ schema.names then
        if name ∈ seen then
          .error (.shape (.duplicateField name))
        else do
          let x ← schema.set name room node x
          schema.readFields room closed (name :: seen) x rest
      else if schema.openEnded then
        if node.passable then
          schema.readFields room closed seen x rest
        else
          .error .malformed
      else
        .error (.shape (.unknownField name schema.names))
  | _, _, _ => .error .malformed

/-
  Reads the items of an array as the fields in the order of
  their names.  Fields at the end may be left out when none of
  them is required.
-/
def readItems
    (schema : Schema α)
    (room : Nat)
    (closed : Bool) :
    Nat → List String → α → List Node → Except ReadError α
  | count, name :: names, x, node :: nodes => do
      let x ← schema.set name room node x
      schema.readItems room closed (count + 1) names x nodes
  | count, names, x, [] =>
      if ¬ closed then
        .error .malformed
      else if names.any (· ∈ schema.required) then
        .error (.shape (.invalidLength count
          (schema.title ++ " with " ++
            toString schema.names.length ++ " elements")))
      else
        .ok x
  | _, [], _, _ :: _ => .error .malformed

/- Reads a record from an object. -/
def object (schema : Schema α) : Reader α
  | room + 1, .object fields closed =>
      schema.readFields room closed [] schema.initial fields
  | 0, .object _ _ => .error .malformed
  | _, node => Reader.mismatch schema.title node

/- Reads a record from an object or from an array. -/
def record (schema : Schema α) : Reader α
  | room + 1, .array items closed =>
      schema.readItems room closed 0 schema.names schema.initial items
  | 0, .array _ _ => .error .malformed
  | room, node => schema.object room node

end Schema

end GraphBag
