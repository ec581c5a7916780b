/-
  Lists of keyed values.  `Entries.put` keeps the order in which
  keys first came; `Entries.place` keeps keys in increasing
  order.

  Key definitions include:
    * `Entries.put`
    * `Entries.place`
    * `Entries.sorted`

  Distinct keys stay distinct by:
    * `Entries.nodup_keys_put`
-/

namespace GraphBag

namespace Entries

variable {κ α : Type}

------------------------------------------------------------
-- Order of Insertion
------------------------------------------------------------

/- Replaces the value of a key in place, or adds it at the end. -/
def put
    [DecidableEq κ]
    (key : κ)
    (value : α) :
    List (κ × α) → List (κ × α)
  | [] => [(key, value)]
  | (k, v) :: rest =>
      if k = key then (k, value) :: rest
      else (k, v) :: put key value rest

/- Putting adds a key at the end or leaves the keys as they are. -/
theorem keys_put
    [DecidableEq κ]
    (key : κ)
    (value : α)
    (entries : List (κ × α)) :
    (put key value entries).map Prod.fst =
      if key ∈ entries.map Prod.fst then
        entries.map Prod.fst
      else
        entries.map Prod.fst ++ [key] := by
  induction entries with
  | nil => simp [put]
  | cons entry rest ih =>
      rcases entry with ⟨k, v⟩
      by_cases hk : k = key
      · simp [put, hk]
      · have hk' : ¬ key = k := fun h => hk h.symm
        by_cases hRest : key ∈ rest.map Prod.fst
        · rw [if_pos hRest] at ih
          simp [put, hk, hk', ih, hRest]
        · rw [if_neg hRest] at ih
          simp [put, hk, hk', ih, hRest]

/- Putting keeps keys distinct. -/
theorem nodup_keys_put
    [DecidableEq κ]
    (key : κ)
    (value : α)
    {entries : List (κ × α)}
    (h : (entries.map Prod.fst).Nodup) :
    ((put key value entries).map Prod.fst).Nodup := by
  rw [keys_put]
  by_cases hKey : key ∈ entries.map Prod.fst
  · rw [if_pos hKey]
    exact h
  · rw [if_neg hKey]
    apply List.nodup_append.mpr
    refine ⟨h, by simp, ?_⟩
    intro a ha b hb hEq
    have hb' : b = key := by simpa using hb
    subst hb'
    subst hEq
    exact hKey ha

------------------------------------------------------------
-- Order of Keys
------------------------------------------------------------

/- Replaces the value of a key, or adds it where it belongs. -/
def place
    (key : String)
    (value : α) :
    List (String × α) → List (String × α)
  | [] => [(key, value)]
  | (k, v) :: rest =>
      if key < k then (key, value) :: (k, v) :: rest
      else if key = k then (key, value) :: rest
      else (k, v) :: place key value rest

/- Entries placed one after the other. -/
def sorted (entries : List (String × α)) : List (String × α) :=
  entries.foldl (fun acc (k, v) => place k v acc) []

end Entries

end GraphBag
