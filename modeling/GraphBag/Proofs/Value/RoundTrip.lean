import GraphBag.Proofs.Entries
import GraphBag.Proofs.Json.Parsing
import GraphBag.Value

/-
  Values and their JSON form.  Reading gives ordered maps, and
  reading what was written gives the value back.

  Main declarations:
    * `Value.Finite`
    * `Value.notFinite?_eq_none_iff`
    * `Value.ordered_ofJson`
    * `Value.writable_toJson`
    * `Value.ofJson_toJson`
-/

namespace GraphBag

namespace Value

------------------------------------------------------------
-- Finite Numbers
------------------------------------------------------------

mutual

/- Every floating-point number inside is finite. -/
def Finite : Value → Prop
  | .float x => x.isFinite = true
  | .list items => FiniteItems items
  | .map entries => FiniteEntries entries
  | _ => True

/- All items of a list are finite. -/
def FiniteItems : List Value → Prop
  | [] => True
  | item :: rest => item.Finite ∧ FiniteItems rest

/- All values of a list of entries are finite. -/
def FiniteEntries : List (String × Value) → Prop
  | [] => True
  | (_, value) :: rest => value.Finite ∧ FiniteEntries rest

end

mutual

/- No number is found exactly when all are finite. -/
theorem notFinite?_eq_none_iff :
    ∀ (v : Value), v.notFinite? = none ↔ v.Finite
  | .null | .bool _ | .int _ | .string _ => by
      simp [notFinite?, Finite]
  | .float x => by
      by_cases hx : x.isFinite = true
      · simp [notFinite?, Finite, hx]
      · simp [notFinite?, Finite, hx]
  | .list items => by
      rw [notFinite?, Finite]
      exact notFiniteItem?_eq_none_iff items
  | .map entries => by
      rw [notFinite?, Finite]
      exact notFiniteField?_eq_none_iff entries

theorem notFiniteItem?_eq_none_iff :
    ∀ (items : List Value),
      notFiniteItem? items = none ↔ FiniteItems items
  | [] => by
      simp [notFiniteItem?, FiniteItems]
  | item :: rest => by
      rw [notFiniteItem?, FiniteItems, Option.or_eq_none_iff,
        notFinite?_eq_none_iff item, notFiniteItem?_eq_none_iff rest]

theorem notFiniteField?_eq_none_iff :
    ∀ (entries : List (String × Value)),
      notFiniteField? entries = none ↔ FiniteEntries entries
  | [] => by
      simp [notFiniteField?, FiniteEntries]
  | (key, value) :: rest => by
      rw [notFiniteField?, FiniteEntries, Option.or_eq_none_iff,
        notFinite?_eq_none_iff value, notFiniteField?_eq_none_iff rest]

end

instance (v : Value) : Decidable v.Finite :=
  decidable_of_iff _ (notFinite?_eq_none_iff v)

------------------------------------------------------------
-- Writing
------------------------------------------------------------

mutual

/- The JSON form of a finite value can be written. -/
theorem writable_toJson :
    ∀ {v : Value}, v.Finite → v.toJson.Writable
  | .null, _ | .bool _, _ | .string _, _ => trivial
  | .int n, _ => by
      have hHigh := n.toInt_lt
      refine ⟨n.minValue_le_toInt, ?_⟩
      simp only [UInt64.size]
      omega
  | .float _, h => h
  | .list items, h => by
      rw [toJson, Json.Writable]
      exact writable_itemsToJson h
  | .map entries, h => by
      rw [toJson, Json.Writable]
      exact writable_entriesToJson h

theorem writable_itemsToJson :
    ∀ {items : List Value},
      FiniteItems items → Json.WritableItems (itemsToJson items)
  | [], _ => trivial
  | _ :: _, h => ⟨writable_toJson h.1, writable_itemsToJson h.2⟩

theorem writable_entriesToJson :
    ∀ {entries : List (String × Value)},
      FiniteEntries entries →
        Json.WritableFields (entriesToJson entries)
  | [], _ => trivial
  | (_, _) :: _, h =>
      ⟨writable_toJson h.1, writable_entriesToJson h.2⟩

end

mutual

/- Values are told apart by their JSON forms. -/
theorem toJson_inj :
    ∀ {v w : Value}, v.toJson = w.toJson → v = w
  | .null, w, h => by
      cases w with
      | null => rfl
      | bool | int | float | string | list | map =>
          simp [toJson] at h
  | .bool b, w, h => by
      cases w with
      | bool c => simpa [toJson] using h
      | null | int | float | string | list | map =>
          simp [toJson] at h
  | .float x, w, h => by
      cases w with
      | float y => simpa [toJson] using h
      | null | bool | int | string | list | map =>
          simp [toJson] at h
  | .string s, w, h => by
      cases w with
      | string t => simpa [toJson] using h
      | null | bool | int | float | list | map =>
          simp [toJson] at h
  | .int n, w, h => by
      cases w with
      | int m =>
          have hInt : n.toInt = m.toInt := by
            simpa [toJson] using h
          rw [Int64.toInt_inj.mp hInt]
      | null | bool | float | string | list | map =>
          simp [toJson] at h
  | .list items, w, h => by
      cases w with
      | list others =>
          have hItems : itemsToJson items = itemsToJson others := by
            simpa [toJson] using h
          rw [itemsToJson_inj hItems]
      | null | bool | int | float | string | map =>
          simp [toJson] at h
  | .map entries, w, h => by
      cases w with
      | map others =>
          have hEntries :
              entriesToJson entries = entriesToJson others := by
            simpa [toJson] using h
          rw [entriesToJson_inj hEntries]
      | null | bool | int | float | string | list =>
          simp [toJson] at h

theorem itemsToJson_inj :
    ∀ {items others : List Value},
      itemsToJson items = itemsToJson others → items = others
  | [], [], _ => rfl
  | [], _ :: _, h | _ :: _, [], h => by
      simp [itemsToJson] at h
  | item :: rest, other :: others, h => by
      simp only [itemsToJson, List.cons.injEq] at h
      rw [toJson_inj h.1, itemsToJson_inj h.2]

theorem entriesToJson_inj :
    ∀ {entries others : List (String × Value)},
      entriesToJson entries = entriesToJson others →
        entries = others
  | [], [], _ => rfl
  | [], _ :: _, h | _ :: _, [], h => by
      simp [entriesToJson] at h
  | (key, value) :: rest, (other, next) :: others, h => by
      simp only [entriesToJson, List.cons.injEq, Prod.mk.injEq] at h
      rcases h with ⟨⟨rfl, hValue⟩, hRest⟩
      rw [toJson_inj hValue, entriesToJson_inj hRest]

end

------------------------------------------------------------
-- Ordered Maps
------------------------------------------------------------

/- Entries are ordered exactly when each of their values is. -/
theorem orderedEntries_iff
    (entries : List (String × Value)) :
    OrderedEntries entries ↔ ∀ entry ∈ entries, entry.2.Ordered := by
  induction entries with
  | nil => simp [OrderedEntries]
  | cons entry rest ih =>
      rcases entry with ⟨key, value⟩
      simp [OrderedEntries, ih]

/- A map of ordered values is ordered. -/
theorem ordered_mapOf
    {entries : List (String × Value)}
    (h : OrderedEntries entries) :
    (mapOf entries).Ordered := by
  refine ⟨Entries.increasing_sorted entries, ?_⟩
  rw [orderedEntries_iff] at h ⊢
  intro entry hEntry
  exact h entry (Entries.mem_of_mem_sorted hEntry)

mutual

/- Every value that is read has its maps in order. -/
theorem ordered_ofJson : ∀ (j : Json), (ofJson j).Ordered
  | .scalar s => by
      cases s with
      | int n =>
          rw [ofJson, ofScalar]
          split
          · trivial
          · trivial
      | null => trivial
      | bool b => trivial
      | float x => trivial
      | string s => trivial
  | .array items => by
      rw [ofJson, Ordered]
      exact orderedItems_itemsOfJson items
  | .object fields => by
      rw [ofJson]
      exact ordered_mapOf (orderedEntries_entriesOfJson fields)

theorem orderedItems_itemsOfJson :
    ∀ (items : List Json), OrderedItems (itemsOfJson items)
  | [] => trivial
  | item :: rest =>
      ⟨ordered_ofJson item, orderedItems_itemsOfJson rest⟩

theorem orderedEntries_entriesOfJson :
    ∀ (fields : List (String × Json)),
      OrderedEntries (entriesOfJson fields)
  | [] => trivial
  | (_, value) :: rest =>
      ⟨ordered_ofJson value, orderedEntries_entriesOfJson rest⟩

end

------------------------------------------------------------
-- Reading Back
------------------------------------------------------------

mutual

/- An ordered value is read back from its JSON form. -/
theorem ofJson_toJson :
    ∀ {v : Value}, v.Ordered → ofJson v.toJson = v
  | .null, _ | .bool _, _ | .string _, _ | .float _, _ => rfl
  | .int n, _ => by
      rw [toJson, ofJson, ofScalar,
        if_pos ⟨n.minValue_le_toInt, n.toInt_le⟩, Int64.ofInt_toInt]
  | .list items, h => by
      rw [toJson, ofJson, itemsOfJson_itemsToJson h]
  | .map entries, h => by
      rw [toJson, ofJson, entriesOfJson_entriesToJson h.2, mapOf,
        Entries.sorted_of_increasing h.1]

theorem itemsOfJson_itemsToJson :
    ∀ {items : List Value},
      OrderedItems items → itemsOfJson (itemsToJson items) = items
  | [], _ => rfl
  | item :: rest, h => by
      rw [itemsToJson, itemsOfJson, ofJson_toJson h.1,
        itemsOfJson_itemsToJson h.2]

theorem entriesOfJson_entriesToJson :
    ∀ {entries : List (String × Value)},
      OrderedEntries entries →
        entriesOfJson (entriesToJson entries) = entries
  | [], _ => rfl
  | (key, value) :: rest, h => by
      rw [entriesToJson, entriesOfJson, ofJson_toJson h.1,
        entriesOfJson_entriesToJson h.2]

end

end Value

end GraphBag
