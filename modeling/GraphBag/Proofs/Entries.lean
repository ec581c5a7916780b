import GraphBag.Entries
import Mathlib.Data.List.Basic
import Mathlib.Data.List.Induction
import Mathlib.Data.String.Basic

/-
  Lists of keyed values.  Putting keeps the place of a key and
  sorting the order of the keys; in both, what is found under a
  key is what came last.

  Main declarations:
    * `Entries.lookup_eq_some_iff_mem`
    * `Entries.lookup_put`
    * `Entries.Increasing`
    * `Entries.increasing_sorted`
    * `Entries.lookup_sorted`
-/

namespace GraphBag

namespace Entries

------------------------------------------------------------
-- Look-ups
------------------------------------------------------------

section Lookup

variable {κ α : Type} [DecidableEq κ]

/- The first entry answers for its own key. -/
theorem lookup_cons_eq
    (key : κ)
    (value : α)
    (rest : List (κ × α))
    (k : κ) :
    ((key, value) :: rest).lookup k =
      if k = key then some value else rest.lookup k := by
  by_cases hk : k = key
  · simp [hk]
  · simp [List.lookup_cons, hk, beq_false_of_ne hk]

/- From the end, the entry that came last answers first. -/
theorem lookup_reverse_concat
    (entries : List (κ × α))
    (key : κ)
    (value : α)
    (k : κ) :
    (entries ++ [(key, value)]).reverse.lookup k =
      if k = key then some value else entries.reverse.lookup k := by
  rw [List.reverse_append, List.reverse_singleton,
    List.singleton_append, lookup_cons_eq]

/- Something is found under the keys that there are. -/
theorem isSome_lookup_iff
    {entries : List (κ × α)}
    {key : κ} :
    (entries.lookup key).isSome = true ↔
      key ∈ entries.map Prod.fst := by
  rw [List.lookup_isSome_iff, List.mem_map]
  apply exists_congr
  intro entry
  rw [beq_iff_eq, eq_comm]

/- Entries with distinct keys are found from keys and look-ups. -/
theorem eq_filterMap_lookup
    {entries : List (κ × α)}
    (h : (entries.map Prod.fst).Nodup) :
    entries =
      (entries.map Prod.fst).filterMap fun k =>
        (entries.lookup k).map (k, ·) := by
  induction entries with
  | nil => rfl
  | cons entry rest ih =>
      rcases entry with ⟨key, value⟩
      rw [List.map_cons, List.nodup_cons] at h
      have hRest :
          (rest.map Prod.fst).filterMap (fun k =>
              (((key, value) :: rest).lookup k).map (k, ·)) =
            (rest.map Prod.fst).filterMap fun k =>
              (rest.lookup k).map (k, ·) := by
        apply List.filterMap_congr
        intro k hk
        have hNot : k ≠ key := by
          intro hSame
          exact h.1 (hSame ▸ hk)
        rw [lookup_cons_eq, if_neg hNot]
      rw [List.map_cons, List.filterMap_cons, hRest, ← ih h.2]
      simp

/- Under distinct keys the entries are what is found. -/
theorem lookup_eq_some_iff_mem
    {entries : List (κ × α)}
    (h : (entries.map Prod.fst).Nodup)
    {key : κ}
    {value : α} :
    entries.lookup key = some value ↔ (key, value) ∈ entries := by
  rw [List.lookup_eq_some_iff]
  constructor
  · intro hFound
    rcases hFound with ⟨before, after, hEntries, _⟩
    simp [hEntries]
  · intro hMem
    rcases List.append_of_mem hMem with ⟨before, after, hEntries⟩
    refine ⟨before, after, hEntries, ?_⟩
    intro entry hEntry
    rw [hEntries, List.map_append, List.nodup_append] at h
    have hNe := h.2.2 entry.1 (List.mem_map_of_mem hEntry) key (by simp)
    simpa using hNe.symm

end Lookup

------------------------------------------------------------
-- Order of Insertion
------------------------------------------------------------

section Put

variable {κ α : Type} [DecidableEq κ]

/- A new key is put at the end. -/
theorem put_of_notMem
    {key : κ}
    {entries : List (κ × α)}
    (h : key ∉ entries.map Prod.fst)
    (value : α) :
    put key value entries = entries ++ [(key, value)] := by
  induction entries with
  | nil => rfl
  | cons entry rest ih =>
      rcases entry with ⟨k, v⟩
      have hFirst : ¬ k = key := by
        intro hEq
        exact h (by simp [hEq])
      have hRest := ih fun hMem => h (List.mem_cons_of_mem _ hMem)
      simp [put, hFirst, hRest]

/- The value put last is found under its key. -/
theorem lookup_put
    (key : κ)
    (value : α)
    (entries : List (κ × α))
    (k : κ) :
    (put key value entries).lookup k =
      if k = key then some value else entries.lookup k := by
  induction entries with
  | nil => rw [put, lookup_cons_eq]
  | cons entry rest ih =>
      rcases entry with ⟨first, v⟩
      by_cases hFirst : first = key
      · subst hFirst
        rw [put, if_pos rfl, lookup_cons_eq, lookup_cons_eq]
        by_cases hk : k = first
        · simp [hk]
        · simp [hk]
      · rw [put, if_neg hFirst, lookup_cons_eq, ih, lookup_cons_eq]
        by_cases hk : k = first
        · simp [hk, hFirst]
        · simp [hk]

end Put

------------------------------------------------------------
-- Order of Keys
------------------------------------------------------------

section Sorted

variable {α : Type}

/- The keys of entries in increasing order, none twice. -/
def Increasing (entries : List (String × α)) : Prop :=
  (entries.map Prod.fst).Pairwise (· < ·)

/- Keys in increasing order are distinct. -/
theorem Increasing.nodup
    {entries : List (String × α)}
    (h : Increasing entries) :
    (entries.map Prod.fst).Nodup :=
  List.Pairwise.imp ne_of_lt h

/- A key behind all others is placed at the end. -/
theorem place_append
    {key : String}
    {value : α}
    {entries : List (String × α)}
    (h : ∀ k ∈ entries.map Prod.fst, k < key) :
    place key value entries = entries ++ [(key, value)] := by
  induction entries with
  | nil => rfl
  | cons entry rest ih =>
      rcases entry with ⟨k, v⟩
      have hk : k < key := h k (by simp)
      have hRest := ih fun l hl => h l (List.mem_cons_of_mem _ hl)
      simp [place, not_lt_of_gt hk, ne_of_gt hk, hRest]

/- Entries behind all others are placed at the end in turn. -/
theorem foldl_place_append
    {front entries : List (String × α)}
    (h : Increasing (front ++ entries)) :
    entries.foldl (fun acc (k, v) => place k v acc) front =
      front ++ entries := by
  induction entries generalizing front with
  | nil => simp
  | cons entry rest ih =>
      rcases entry with ⟨key, value⟩
      have hBehind : ∀ k ∈ front.map Prod.fst, k < key := by
        intro k hk
        simp only [Increasing, List.map_append, List.map_cons] at h
        exact (List.pairwise_append.mp h).2.2 k hk key (by simp)
      have hNext : Increasing (front ++ [(key, value)] ++ rest) := by
        simpa [List.append_assoc] using h
      have hStep := ih hNext
      rw [← place_append hBehind] at hStep
      rw [List.foldl_cons, hStep, place_append hBehind,
        List.append_assoc, List.singleton_append]

/- Entries in increasing order stay as they are. -/
theorem sorted_of_increasing
    {entries : List (String × α)}
    (h : Increasing entries) :
    sorted entries = entries := by
  have hEmpty : Increasing ([] ++ entries) := h
  exact foldl_place_append hEmpty

/- What is placed is among the entries, with the old ones. -/
theorem mem_of_mem_place
    {key : String}
    {value : α}
    {entries : List (String × α)}
    {entry : String × α}
    (h : entry ∈ place key value entries) :
    entry = (key, value) ∨ entry ∈ entries := by
  induction entries with
  | nil =>
      exact Or.inl (List.mem_singleton.mp h)
  | cons first rest ih =>
      rcases first with ⟨k, v⟩
      rw [place] at h
      by_cases hBefore : key < k
      · rw [if_pos hBefore] at h
        exact List.mem_cons.mp h
      · rw [if_neg hBefore] at h
        by_cases hSame : key = k
        · rw [if_pos hSame] at h
          rcases List.mem_cons.mp h with hNew | hOld
          · exact Or.inl hNew
          · exact Or.inr (List.mem_cons_of_mem _ hOld)
        · rw [if_neg hSame] at h
          rcases List.mem_cons.mp h with hFirst | hRest
          · exact Or.inr (by simp [hFirst])
          · rcases ih hRest with hNew | hOld
            · exact Or.inl hNew
            · exact Or.inr (List.mem_cons_of_mem _ hOld)

/- Placing keeps the keys in increasing order. -/
theorem increasing_place
    (key : String)
    (value : α)
    {entries : List (String × α)}
    (h : Increasing entries) :
    Increasing (place key value entries) := by
  induction entries with
  | nil =>
      simp [Increasing, place]
  | cons first rest ih =>
      rcases first with ⟨k, v⟩
      have hParts :
          (∀ l ∈ rest.map Prod.fst, k < l) ∧ Increasing rest :=
        List.pairwise_cons.mp h
      rw [place]
      by_cases hBefore : key < k
      · rw [if_pos hBefore]
        refine List.pairwise_cons.mpr ⟨?_, h⟩
        intro l hl
        rcases List.mem_cons.mp hl with rfl | hRest
        · exact hBefore
        · exact lt_trans hBefore (hParts.1 l hRest)
      · rw [if_neg hBefore]
        by_cases hSame : key = k
        · rw [if_pos hSame]
          subst hSame
          exact h
        · rw [if_neg hSame]
          refine List.pairwise_cons.mpr ⟨?_, ih hParts.2⟩
          intro l hl
          rcases List.mem_map.mp hl with ⟨entry, hEntry, rfl⟩
          rcases mem_of_mem_place hEntry with hNew | hOld
          · rw [hNew]
            exact lt_of_le_of_ne (not_lt.mp hBefore) (Ne.symm hSame)
          · exact hParts.1 _ (List.mem_map_of_mem hOld)

/-
  A property of the entries that placing one of them keeps holds
  of them sorted.
-/
theorem sorted_induction
    {P : List (String × α) → Prop}
    {entries : List (String × α)}
    (hEmpty : P [])
    (hPlace :
      ∀ acc entry, entry ∈ entries → P acc →
        P (place entry.1 entry.2 acc)) :
    P (sorted entries) := by
  unfold sorted
  generalize ([] : List (String × α)) = acc at hEmpty ⊢
  induction entries generalizing acc with
  | nil => exact hEmpty
  | cons entry rest ih =>
      have hNext := hPlace acc entry (by simp) hEmpty
      apply ih
      · intro acc entry hEntry hAcc
        exact hPlace acc entry (List.mem_cons_of_mem _ hEntry) hAcc
      · exact hNext

/- Sorted entries have their keys in increasing order. -/
theorem increasing_sorted (entries : List (String × α)) :
    Increasing (sorted entries) := by
  apply sorted_induction
  · exact List.Pairwise.nil
  · intro acc entry _ hAcc
    exact increasing_place entry.1 entry.2 hAcc

/- Sorting adds no entries. -/
theorem mem_of_mem_sorted
    {entries : List (String × α)}
    {entry : String × α}
    (h : entry ∈ sorted entries) :
    entry ∈ entries := by
  revert entry
  apply sorted_induction (P := fun acc => ∀ {entry}, entry ∈ acc → entry ∈ entries)
  · intro entry hEntry
    cases hEntry
  · intro acc new hNew hAcc entry hEntry
    rcases mem_of_mem_place hEntry with hSame | hOld
    · rw [hSame]
      exact hNew
    · exact hAcc hOld

/- The value placed last is found under its key. -/
theorem lookup_place
    (key : String)
    (value : α)
    {entries : List (String × α)}
    (h : Increasing entries)
    (k : String) :
    (place key value entries).lookup k =
      if k = key then some value else entries.lookup k := by
  induction entries with
  | nil => rw [place, lookup_cons_eq]
  | cons first rest ih =>
      rcases first with ⟨l, v⟩
      have hRest : Increasing rest := (List.pairwise_cons.mp h).2
      rw [place]
      by_cases hBefore : key < l
      · rw [if_pos hBefore, lookup_cons_eq]
      · rw [if_neg hBefore]
        by_cases hSame : key = l
        · subst hSame
          rw [if_pos rfl, lookup_cons_eq, lookup_cons_eq]
          by_cases hk : k = key
          · simp [hk]
          · simp [hk]
        · rw [if_neg hSame, lookup_cons_eq, ih hRest, lookup_cons_eq]
          by_cases hl : k = l
          · simp [hl, Ne.symm hSame]
          · simp [hl]

/- What is found in sorted entries is what came last. -/
theorem lookup_sorted
    (entries : List (String × α))
    (k : String) :
    (sorted entries).lookup k = entries.reverse.lookup k := by
  -- From the end, as each entry is placed after all before it.
  induction entries using List.reverseRecOn with
  | nil => rfl
  | append_singleton entries entry ih =>
      rcases entry with ⟨key, value⟩
      have hStep :
          sorted (entries ++ [(key, value)]) =
            place key value (sorted entries) := by
        simp [sorted, List.foldl_append]
      rw [hStep, lookup_place key value (increasing_sorted entries),
        ih, lookup_reverse_concat]

/- Sorting loses no key and adds none. -/
theorem mem_keys_sorted_iff
    {entries : List (String × α)}
    {key : String} :
    key ∈ (sorted entries).map Prod.fst ↔
      key ∈ entries.map Prod.fst := by
  rw [← isSome_lookup_iff, lookup_sorted, isSome_lookup_iff,
    List.map_reverse, List.mem_reverse]

end Sorted

end Entries

end GraphBag
