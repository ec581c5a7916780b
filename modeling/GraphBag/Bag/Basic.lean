import GraphBag.Field
import GraphBag.OrderedMap
import GraphBag.Value

/-
  Bags.  A bag describes one graph command without the words of
  any database: what to do, on which elements, with which data.

  Key definitions include:
    * `CommandKind`
    * `Format`
    * `Constraint`
    * `SortKey`
    * `Bag`
    * `Target`
    * `Bag.content`
-/

namespace GraphBag

------------------------------------------------------------
-- Named Choices
------------------------------------------------------------

/- What a command does. -/
inductive CommandKind where
  | retrieve
  | create
  | update
  | delete
deriving DecidableEq, Repr

namespace CommandKind

/- All kinds in their order. -/
def all : List CommandKind :=
  [.retrieve, .create, .update, .delete]

/- The name of a kind. -/
def name : CommandKind → String
  | .retrieve => "retrieve"
  | .create => "create"
  | .update => "update"
  | .delete => "delete"

/- The command leaves the graph as it is. -/
def isRead : CommandKind → Bool
  | .retrieve => true
  | _ => false

end CommandKind

/- How the reply to a command is to be read. -/
inductive Format where
  | path
  | tree
  | scalar
  | set
deriving DecidableEq, Repr

namespace Format

/- All formats in their order. -/
def all : List Format :=
  [.path, .tree, .scalar, .set]

/- The name of a format. -/
def name : Format → String
  | .path => "path"
  | .tree => "tree"
  | .scalar => "scalar"
  | .set => "set"

end Format

/- How a predicate compares a field with a value. -/
inductive Operator where
  | eq
  | gt
  | lt
  | le
  | ge
  | ne
  | without
  | within
deriving DecidableEq, Repr

namespace Operator

/- All operators in their order. -/
def all : List Operator :=
  [.eq, .gt, .lt, .le, .ge, .ne, .without, .within]

/- The name of an operator. -/
def name : Operator → String
  | .eq => "eq"
  | .gt => "gt"
  | .lt => "lt"
  | .le => "le"
  | .ge => "ge"
  | .ne => "ne"
  | .without => "without"
  | .within => "in"

end Operator

/- How a predicate is joined to the ones before it. -/
inductive Conjunction where
  | and
  | or
deriving DecidableEq, Repr

namespace Conjunction

/- Both conjunctions in their order. -/
def all : List Conjunction :=
  [.and, .or]

/- The name of a conjunction. -/
def name : Conjunction → String
  | .and => "and"
  | .or => "or"

end Conjunction

/- The direction of a sort key. -/
inductive Direction where
  | asc
  | desc
deriving DecidableEq, Repr

namespace Direction

/- Both directions in their order. -/
def all : List Direction :=
  [.asc, .desc]

/- The name of a direction. -/
def name : Direction → String
  | .asc => "asc"
  | .desc => "desc"

end Direction

------------------------------------------------------------
-- Parts of a Bag
------------------------------------------------------------

/- A predicate on a field. -/
structure Constraint where
  field : Field
  operator : Operator
  value : Value
  conjunction : Conjunction := .and
deriving DecidableEq, Repr

namespace Constraint

/- The predicate that a field equals a value. -/
def equals (field : Field) (value : Value) : Constraint where
  field := field
  operator := .eq
  value := value

/- The constraint is on the given meta-field. -/
def IsOn (m : MetaField) (c : Constraint) : Prop :=
  c.field.IsOn m

instance (m : MetaField) (c : Constraint) :
    Decidable (c.IsOn m) := by
  unfold IsOn
  infer_instance

end Constraint

/- A field to sort by. -/
structure SortKey where
  field : Field
  direction : Direction := .asc
deriving DecidableEq, Repr

mutual

/- What a command works on: a class, or another command's result. -/
inductive Target where
  | named (name : String)
  | embedded (bag : Bag)

/- The description of one graph command. -/
structure Bag where
  command : CommandKind := .retrieve
  constraints : List Constraint := []
  data : OrderedMap Field Value := .empty
  projections : List Field := []
  target : Option Target := none
  limit : Option UInt64 := none
  orderBy : List SortKey := []
  format : Format := .set

end

namespace Bag

------------------------------------------------------------
-- Equality
------------------------------------------------------------

mutual

/- Decides whether two bags are equal. -/
def decEq : (a b : Bag) → Decidable (a = b)
  | ⟨c₁, w₁, d₁, p₁, t₁, l₁, o₁, f₁⟩,
    ⟨c₂, w₂, d₂, p₂, t₂, l₂, o₂, f₂⟩ =>
      have := decEqTarget t₁ t₂
      decidable_of_iff
        (c₁ = c₂ ∧ w₁ = w₂ ∧ d₁ = d₂ ∧ p₁ = p₂ ∧
          t₁ = t₂ ∧ l₁ = l₂ ∧ o₁ = o₂ ∧ f₁ = f₂)
        (by simp)

/- Decides whether two targets are equal. -/
def decEqTarget : (a b : Option Target) → Decidable (a = b)
  | none, none => isTrue rfl
  | some (.named a), some (.named b) =>
      decidable_of_iff (a = b) (by simp)
  | some (.embedded a), some (.embedded b) =>
      have := decEq a b
      decidable_of_iff (a = b) (by simp)
  | none, some _ | some _, none => isFalse (by simp)
  | some (.named _), some (.embedded _)
  | some (.embedded _), some (.named _) => isFalse (by simp)

end

instance : DecidableEq Bag :=
  decEq

------------------------------------------------------------
-- Building
------------------------------------------------------------

/- A bag with one more constraint. -/
def withConstraint (b : Bag) (c : Constraint) : Bag :=
  { b with constraints := b.constraints ++ [c] }

/- A bag with a data field set. -/
def withData (b : Bag) (field : Field) (value : Value) : Bag :=
  { b with data := b.data.put field value }

/- A bag with one more projected field. -/
def withProjection (b : Bag) (field : Field) : Bag :=
  { b with projections := b.projections ++ [field] }

/- A bag with a target. -/
def withTarget (b : Bag) (target : Target) : Bag :=
  { b with target := some target }

/- A bag with a limit. -/
def withLimit (b : Bag) (limit : UInt64) : Bag :=
  { b with limit := some limit }

/- A bag with one more sort key. -/
def withOrder (b : Bag) (field : Field) (direction : Direction) : Bag :=
  { b with orderBy := b.orderBy ++ [⟨field, direction⟩] }

/- A bag with a format. -/
def withFormat (b : Bag) (format : Format) : Bag :=
  { b with format := format }

------------------------------------------------------------
-- Looking
------------------------------------------------------------

/- The data that is written to the element, in order. -/
def content (b : Bag) : List (Field × Value) :=
  b.data.entries.filter fun (field, _) => !field.isStructural

/- The data of a meta-field. -/
def metaData? (b : Bag) (m : MetaField) : Option Value :=
  b.data.get? (.ofMeta m)

/- The value of the first constraint on a meta-field. -/
def constrained? (b : Bag) (m : MetaField) : Option Value :=
  (b.constraints.find? (·.IsOn m)).map (·.value)

end Bag

end GraphBag
