import GraphBag.Json.Reader
import GraphBag.Proofs.Json.Parsing

/-
  Readers on written trees.  A value is read back when its
  reader takes the tree that was written for it, in any room
  that the tree fits in; this is kept by sequences, objects,
  named choices and records.

  Main declarations:
    * `Reader.ReadsBack`
    * `Reader.run_render`
    * `Reader.sequence_map`
    * `Reader.entries_map`
    * `Schema.readFields_cons`
-/

namespace GraphBag

namespace Reader

variable {α : Type}

/- A value is read back from its tree in any room it fits in. -/
def ReadsBack
    (read : Reader α)
    (write : α → Json)
    (x : α) : Prop :=
  ∀ room, (write x).height ≤ room →
    read room (write x).toNode = .ok x

/- A written text is read like the tree it was written for. -/
theorem run_render
    (read : Reader α)
    {j : Json}
    (hj : j.Writable) :
    run read j.render = read 127 j.toNode := by
  have hParse := j.parse_tokens []
  rw [List.append_nil] at hParse
  simp only [run, Json.render, String.toList_ofList,
    Json.lex_chars hj, hParse]
  cases read 127 j.toNode with
  | error e => rfl
  | ok x => rfl

/- Any tree that fits is read as itself. -/
theorem json_toNode
    {room : Nat}
    {j : Json}
    (hj : j.height ≤ room) :
    json room j.toNode = .ok j := by
  simp [json, Json.strict?_toNode hj]

/- A natural number below the bound is read back. -/
theorem natural_int
    {bound n : Nat}
    (hn : n < bound)
    (expected : String)
    (room : Nat) :
    natural bound expected room (Json.int n).toNode = .ok n := by
  simp [natural, Json.toNode, hn]

/- A sequence is read back when its items are. -/
theorem sequence_map
    {read : Reader α}
    {write : α → Json}
    {xs : List α}
    (h : ∀ x ∈ xs, ReadsBack read write x)
    {room : Nat}
    (hRoom : (Json.array (xs.map write)).height ≤ room) :
    sequence read room (Json.array (xs.map write)).toNode = .ok xs := by
  cases room with
  | zero => simp [Json.height] at hRoom
  | succ room =>
      simp only [Json.height, Nat.add_le_add_iff_right] at hRoom
      have hItems :
          (Json.toNodeItems (xs.map write)).mapM (read room) =
            .ok (xs.map id) := by
        rw [Json.toNodeItems_eq_map, List.map_map]
        apply mapM_map_eq_pure
        intro x hx
        apply h x hx
        exact Nat.le_trans
          (Json.height_le_itemsHeight (List.mem_map_of_mem hx)) hRoom
      rw [Json.toNode, sequence, hItems, List.map_id]
      rfl

/- An object is read back field by field when its values are. -/
theorem entries_map
    {κ : Type}
    {read : Reader α}
    {write : α → Json}
    (name : κ → String)
    {xs : List (κ × α)}
    (h : ∀ x ∈ xs, ReadsBack read write x.2)
    {room : Nat}
    (hRoom :
      (Json.object (xs.map fun x => (name x.1, write x.2))).height ≤
        room) :
    entries read room
        (Json.object (xs.map fun x => (name x.1, write x.2))).toNode =
      .ok (xs.map fun x => (name x.1, x.2)) := by
  cases room with
  | zero => simp [Json.height] at hRoom
  | succ room =>
      simp only [Json.height, Nat.add_le_add_iff_right] at hRoom
      rw [Json.toNode, entries, Json.toNodeFields_eq_map, List.map_map,
        mapM_map_eq_pure (k := fun x => (name x.1, x.2))]
      · rfl
      · intro x hx
        have hMember : (name x.1, write x.2) ∈
            xs.map fun x => (name x.1, write x.2) :=
          List.mem_map_of_mem hx
        have hValue :=
          h x hx room
            (Nat.le_trans (Json.height_le_fieldsHeight hMember) hRoom)
        simp only [Function.comp, hValue]
        rfl

/- A named value is read back from its name. -/
theorem choice_name
    {nameOf : α → String}
    {all : List α}
    {x : α}
    (h : all.find? (nameOf · = nameOf x) = some x)
    (room : Nat) :
    choice nameOf all room (Json.string (nameOf x)).toNode = .ok x := by
  simp [Json.toNode, choice, pick, h]

end Reader

namespace Schema

variable {α : Type}

/- A known field that is new is set, and reading goes on. -/
theorem readFields_cons
    {schema : Schema α}
    {room : Nat}
    {seen : List String}
    {name : String}
    {node : Node}
    {x y : α}
    (hName : name ∈ schema.names)
    (hNew : name ∉ seen)
    (hSet : schema.set name room node x = .ok y)
    (rest : List (Key × Node)) :
    schema.readFields room true seen x ((.text name, node) :: rest) =
      schema.readFields room true (name :: seen) y rest := by
  simp only [readFields, hName, hNew, hSet, if_true, if_false]
  rfl

end Schema

end GraphBag
