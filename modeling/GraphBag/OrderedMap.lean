import GraphBag.Entries

/-
  Maps that remember the order in which their keys first came.

  Key definitions include:
    * `OrderedMap`
    * `OrderedMap.put`
    * `OrderedMap.ofList`
    * `OrderedMap.get?`
-/

namespace GraphBag

/- Entries with no key twice. -/
structure OrderedMap (κ α : Type) where
  entries : List (κ × α)
  distinct : (entries.map Prod.fst).Nodup
deriving DecidableEq, Repr

namespace OrderedMap

variable {κ α : Type}

/- The map without entries. -/
def empty : OrderedMap κ α where
  entries := []
  distinct := .nil

instance : Inhabited (OrderedMap κ α) :=
  ⟨empty⟩

variable [DecidableEq κ]

/- Replaces the value of a key in place, or adds it at the end. -/
def put (m : OrderedMap κ α) (key : κ) (value : α) : OrderedMap κ α where
  entries := Entries.put key value m.entries
  distinct := Entries.nodup_keys_put key value m.distinct

/- Entries put one after the other. -/
def ofList (entries : List (κ × α)) : OrderedMap κ α :=
  entries.foldl (fun m (k, v) => m.put k v) empty

/- The value of a key. -/
def get? (m : OrderedMap κ α) (key : κ) : Option α :=
  m.entries.lookup key

/- The map holds no entry. -/
def isEmpty (m : OrderedMap κ α) : Bool :=
  m.entries.isEmpty

end OrderedMap

end GraphBag
