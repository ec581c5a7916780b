import GraphBag.Proofs.Entries
import GraphBag.Proofs.Result
import GraphBag.Response.Tree
import Mathlib.Data.List.Forall2
import Mathlib.Data.List.Nodup
import Mathlib.Data.List.Sigma
import Mathlib.Data.Prod.Basic

/-
  Trees and the rows they are made of.  Each node stands for one
  row: it keeps the entries that hold no row, and has one tree
  below it for each row that is nested in the others, so that no
  row is lost and none comes twice.

  Main declarations:
    * `Tree.Nested`
    * `Tree.rowsUnder`
    * `Tree.Shows`
    * `Tree.Leads`
    * `Tree.shows_ofEntries`
    * `Tree.ofRow_conserves_rows`
-/

namespace GraphBag

namespace Tree

------------------------------------------------------------
-- Nested Rows
------------------------------------------------------------

/- The value is a map that holds the id of a record. -/
def IsRecord (shape : RecordShape) (value : Value) : Prop :=
  ∃ row, value = .map row ∧ shape.idKey ∈ row.map Prod.fst

/- The value is such a map, or a list of one or more of them. -/
def Nested (shape : RecordShape) (value : Value) : Prop :=
  IsRecord shape value ∨
    ∃ items, value = .list items ∧ items ≠ [] ∧
      ∀ item ∈ items, IsRecord shape item

/- The rows of a nested value: the map, or those in the list. -/
def nestedRows : Value → List (List (String × Value))
  | .map row => [row]
  | .list items => items.filterMap Value.map?
  | _ => []

theorem isRow_iff (shape : RecordShape) (value : Value) :
    isRow shape value = true ↔ IsRecord shape value := by
  cases value with
  | map row =>
      rw [isRow, Entries.isSome_lookup_iff]
      simp [IsRecord]
  | null | bool | int | float | string | list =>
      simp [isRow, IsRecord]

theorem isNested_iff (shape : RecordShape) (value : Value) :
    isNested shape value = true ↔ Nested shape value := by
  cases value with
  | list items =>
      have hNot : ¬ IsRecord shape (.list items) := by
        simp [IsRecord]
      simp [isNested, Nested, hNot, isRow_iff]
  | map row =>
      simp [isNested, Nested, isRow_iff]
  | null | bool | int | float | string =>
      simp [isNested, Nested, isRow_iff]

instance (shape : RecordShape) (value : Value) :
    Decidable (Nested shape value) :=
  decidable_of_iff _ (isNested_iff shape value)

/- The entries of a row that stay properties. -/
def ownEntries
    (shape : RecordShape)
    (row : List (String × Value)) : List (String × Value) :=
  row.filter fun entry =>
    shape.isMeta entry.1 = false ∧ ¬ Nested shape entry.2

/- The entries of a row that are branches. -/
def branchEntries
    (shape : RecordShape)
    (row : List (String × Value)) : List (String × Value) :=
  row.filter fun entry =>
    shape.isMeta entry.1 = false ∧ Nested shape entry.2

/- The rows nested in a row, entry by entry and in list order. -/
def rowsUnder
    (shape : RecordShape)
    (row : List (String × Value)) : List (List (String × Value)) :=
  (branchEntries shape row).flatMap fun entry => nestedRows entry.2

theorem rowsUnder_cons
    (shape : RecordShape)
    (entry : String × Value)
    (rest : List (String × Value)) :
    rowsUnder shape (entry :: rest) =
      (if shape.isMeta entry.1 = false ∧ Nested shape entry.2 then
        nestedRows entry.2
      else []) ++ rowsUnder shape rest := by
  by_cases hBranch : shape.isMeta entry.1 = false ∧ Nested shape entry.2
  · simp [rowsUnder, branchEntries, hBranch]
  · simp [rowsUnder, branchEntries, hBranch]

------------------------------------------------------------
-- Nodes
------------------------------------------------------------

/-
  The tree shows the row.  Its record has the identity of the
  row and the entries that are not nested, and below it there
  is one tree for each nested row, in order.
-/
inductive Shows (shape : RecordShape) :
    List (String × Value) → Tree → Prop where
  | node
      {row : List (String × Value)}
      {record : Record}
      {children : List Tree}
      (hId : record.id = (Record.ofEntries shape row).id)
      (hLabel : record.label = (Record.ofEntries shape row).label)
      (hProperties : record.properties = ownEntries shape row)
      (hLength : (rowsUnder shape row).length = children.length)
      (hChildren :
        ∀ inner child,
          (inner, child) ∈ (rowsUnder shape row).zip children →
            Shows shape inner child) :
      Shows shape row (.node record children)

/- The node stands somewhere in the tree. -/
inductive HasNode : Tree → Tree → Prop where
  | root (tree : Tree) : HasNode tree tree
  | under
      {tree child node : Tree}
      (hChild : child ∈ tree.children)
      (hNode : HasNode child node) :
      HasNode tree node

theorem ownRecord_properties
    (shape : RecordShape)
    (row : List (String × Value)) :
    (ownRecord shape row).properties = ownEntries shape row := by
  simp only [ownRecord, Record.ofEntries, ownEntries, List.filter_filter]
  apply List.filter_congr
  intro entry _
  rw [Bool.eq_iff_iff]
  simp [← isNested_iff, and_comm]

/- The trees of list items are those of the maps among them. -/
theorem itemBranches_eq
    (shape : RecordShape)
    (items : List Value) :
    itemBranches shape items =
      (items.filterMap Value.map?).map (ofEntries shape) := by
  induction items with
  | nil => rfl
  | cons item rest ih =>
      cases item with
      | map row => simp [itemBranches, Value.map?, ofEntries, ih]
      | null | bool | int | float | string | list =>
          simp [itemBranches, List.filterMap_cons, Value.map?, ih]

/- A nested value gives the trees of its rows, any other none. -/
theorem valueBranches_eq
    (shape : RecordShape)
    (value : Value) :
    valueBranches shape value =
      if Nested shape value then
        (nestedRows value).map (ofEntries shape)
      else [] := by
  simp only [← isNested_iff]
  cases value with
  | map row => simp [valueBranches, isNested, nestedRows, ofEntries]
  | list items =>
      cases items with
      | nil => simp [valueBranches, isNested, itemBranches]
      | cons item rest =>
          simp only [valueBranches, isNested, nestedRows,
            itemBranches_eq, List.isEmpty_cons, Bool.not_false,
            Bool.true_and]
  | null | bool | int | float | string =>
      simp [valueBranches, isNested, isRow]

/- Below a row stand the trees of the rows nested in it. -/
theorem branches_eq
    (shape : RecordShape)
    (row : List (String × Value)) :
    branches shape row = (rowsUnder shape row).map (ofEntries shape) := by
  induction row with
  | nil => rfl
  | cons entry rest ih =>
      rcases entry with ⟨key, value⟩
      rw [branches, rowsUnder_cons, List.map_append, ← ih,
        valueBranches_eq]
      by_cases hMeta : shape.isMeta key = true
      · simp [hMeta]
      · by_cases hNested : Nested shape value
        · simp [hMeta, hNested]
        · simp [hMeta, hNested]

/- A row nested in another is smaller than it. -/
theorem sizeOf_lt_of_mem_rowsUnder
    {shape : RecordShape}
    {row inner : List (String × Value)}
    (h : inner ∈ rowsUnder shape row) :
    sizeOf inner < sizeOf row := by
  rcases List.mem_flatMap.mp h with ⟨⟨key, value⟩, hEntry, hInner⟩
  have hRow : sizeOf (key, value) < sizeOf row :=
    List.sizeOf_lt_of_mem (List.mem_filter.mp hEntry).1
  have hValue : sizeOf inner < sizeOf value := by
    cases value with
    | map row =>
        rw [List.mem_singleton.mp hInner]
        simp
    | list items =>
        rcases List.mem_filterMap.mp hInner with ⟨item, hItem, hMap⟩
        have hSmall := List.sizeOf_lt_of_mem hItem
        cases item with
        | map row =>
            cases hMap
            simp only [Value.map.sizeOf_spec] at hSmall
            simp only [Value.list.sizeOf_spec]
            omega
        | null | bool | int | float | string | list => cases hMap
    | null | bool | int | float | string => cases hInner
  simp only [Prod.mk.sizeOf_spec] at hRow
  omega

/- The tree of a row shows the row. -/
theorem shows_ofEntries
    (shape : RecordShape)
    (row : List (String × Value)) :
    Shows shape row (ofEntries shape row) := by
  -- Below are trees of smaller rows.
  induction hSize : sizeOf row using Nat.strongRecOn generalizing row with
  | ind size ih =>
      refine .node rfl rfl (ownRecord_properties shape row) ?_ ?_
      · rw [branches_eq, List.length_map]
      · intro inner child hPair
        rw [branches_eq, ← List.map_prod_left_eq_zip] at hPair
        rcases List.mem_map.mp hPair with ⟨source, hSource, hEq⟩
        cases hEq
        have hSmall := sizeOf_lt_of_mem_rowsUnder hSource
        exact ih (sizeOf inner) (hSize ▸ hSmall) inner rfl

/- The trees below are those of the nested rows, one for one. -/
theorem Shows.forall₂_children
    {shape : RecordShape}
    {row : List (String × Value)}
    {tree : Tree}
    (h : Shows shape row tree) :
    List.Forall₂ (Shows shape) (rowsUnder shape row) tree.children := by
  cases h with
  | node _ _ _ hLength hChildren =>
      exact List.forall₂_iff_zip.mpr ⟨hLength, hChildren _ _⟩

/- What is nested is a branch and no property. -/
theorem Shows.not_nested
    {shape : RecordShape}
    {row : List (String × Value)}
    {tree : Tree}
    (h : Shows shape row tree) :
    ∀ entry ∈ tree.record.properties, ¬ Nested shape entry.2 := by
  cases h with
  | node _ _ hProperties _ _ =>
      intro entry hEntry
      rw [record, hProperties] at hEntry
      have hOwn := (List.mem_filter.mp hEntry).2
      exact (of_decide_eq_true hOwn).2

------------------------------------------------------------
-- Paths to Nested Rows
------------------------------------------------------------

/-
  From a row to one nested in it: the place of an entry, and
  the place of the inner row in the value of that entry.
-/
def Step
    (shape : RecordShape)
    (place : Nat × Nat)
    (row inner : List (String × Value)) : Prop :=
  ∃ key value,
    row[place.1]? = some (key, value) ∧
      shape.isMeta key = false ∧
        Nested shape value ∧
          (nestedRows value)[place.2]? = some inner

/- The path leads step by step from a row to another. -/
inductive Leads (shape : RecordShape) :
    List (Nat × Nat) →
      List (String × Value) → List (String × Value) → Prop where
  | here (row : List (String × Value)) : Leads shape [] row row
  | step
      {place : Nat × Nat}
      {path : List (Nat × Nat)}
      {row inner target : List (String × Value)}
      (hStep : Step shape place row inner)
      (hPath : Leads shape path inner target) :
      Leads shape (place :: path) row target

/- The steps into one entry of a row, with where they go. -/
def entrySteps
    (shape : RecordShape)
    (i : Nat)
    (entry : String × Value) :
    List ((Nat × Nat) × List (String × Value)) :=
  if shape.isMeta entry.1 = false ∧ Nested shape entry.2 then
    (nestedRows entry.2).zipIdx.map fun inner => ((i, inner.2), inner.1)
  else []

/- The steps from a row. -/
def steps
    (shape : RecordShape)
    (row : List (String × Value)) :
    List ((Nat × Nat) × List (String × Value)) :=
  row.zipIdx.flatMap fun entry => entrySteps shape entry.2 entry.1

theorem mem_steps_iff
    {shape : RecordShape}
    {row inner : List (String × Value)}
    {place : Nat × Nat} :
    (place, inner) ∈ steps shape row ↔ Step shape place row inner := by
  constructor
  · intro h
    rcases List.mem_flatMap.mp h with ⟨⟨⟨key, value⟩, i⟩, hEntry, hStep⟩
    unfold entrySteps at hStep
    split at hStep
    · rename_i hBranch
      rcases List.mem_map.mp hStep with ⟨⟨target, j⟩, hInner, hEq⟩
      cases hEq
      exact ⟨key, value, List.mk_mem_zipIdx_iff_getElem?.mp hEntry,
        hBranch.1, hBranch.2,
        List.mk_mem_zipIdx_iff_getElem?.mp hInner⟩
    · cases hStep
  · intro h
    rcases h with ⟨key, value, hEntry, hMeta, hNested, hInner⟩
    apply List.mem_flatMap.mpr
    refine ⟨((key, value), place.1),
      List.mk_mem_zipIdx_iff_getElem?.mpr hEntry, ?_⟩
    rw [entrySteps, if_pos ⟨hMeta, hNested⟩]
    exact List.mem_map.mpr ⟨(inner, place.2),
      List.mk_mem_zipIdx_iff_getElem?.mpr hInner, rfl⟩

/- Steps go to the nested rows, in order. -/
theorem map_snd_steps
    (shape : RecordShape)
    (row : List (String × Value)) :
    (steps shape row).map Prod.snd = rowsUnder shape row := by
  unfold steps
  generalize 0 = start
  induction row generalizing start with
  | nil => rfl
  | cons entry rest ih =>
      rw [List.zipIdx_cons, List.flatMap_cons, List.map_append,
        ih (start + 1), rowsUnder_cons, entrySteps]
      split
      · rw [List.map_map]
        exact congrArg (· ++ _) (List.zipIdx_map_fst 0 _)
      · rfl

/- No two steps have the same place. -/
theorem nodup_map_fst_steps
    (shape : RecordShape)
    (row : List (String × Value)) :
    ((steps shape row).map Prod.fst).Nodup := by
  have hPlace {i : Nat} {entry : String × Value} {place : Nat × Nat}
      (h : place ∈ (entrySteps shape i entry).map Prod.fst) :
      place.1 = i := by
    rcases List.mem_map.mp h with ⟨step, hStep, rfl⟩
    unfold entrySteps at hStep
    split at hStep
    · rcases List.mem_map.mp hStep with ⟨_, _, rfl⟩
      rfl
    · cases hStep
  rw [steps, List.map_flatMap, List.nodup_flatMap]
  constructor
  · intro entry _
    unfold entrySteps
    split
    · have hInner :
          ((nestedRows entry.1.2).zipIdx.map fun inner =>
            ((entry.2, inner.2), inner.1)).map Prod.fst =
            ((nestedRows entry.1.2).zipIdx.map Prod.snd).map
              (Prod.mk entry.2) := by
        rw [List.map_map, List.map_map]
        rfl
      rw [hInner]
      exact (List.nodup_zipIdx_map_snd _).map
        (Prod.mk_right_injective entry.2)
    · exact List.nodup_nil
  · have hIndices := List.nodup_zipIdx_map_snd row
    rw [List.Nodup, List.pairwise_map] at hIndices
    refine hIndices.imp ?_
    intro a b hDistinct place ha hb
    exact hDistinct ((hPlace ha).symm.trans (hPlace hb))

/- A nested row is one step away. -/
theorem exists_step_of_mem
    {shape : RecordShape}
    {row inner : List (String × Value)}
    (h : inner ∈ rowsUnder shape row) :
    ∃ place, Step shape place row inner := by
  rw [← map_snd_steps] at h
  rcases List.mem_map.mp h with ⟨step, hStep, rfl⟩
  exact ⟨step.1, mem_steps_iff.mp hStep⟩

/- Each node of a tree shows a row that a path leads to. -/
theorem Shows.exists_of_hasNode
    {shape : RecordShape}
    {row : List (String × Value)}
    {tree node : Tree}
    (h : Shows shape row tree)
    (hNode : HasNode tree node) :
    ∃ path source, Leads shape path row source ∧
      Shows shape source node := by
  induction hNode generalizing row with
  | root => exact ⟨[], row, .here row, h⟩
  | under hChild _ ih =>
      rcases exists_mem_of_forall₂ h.forall₂_children hChild with
        ⟨inner, hInner, hShows⟩
      rcases exists_step_of_mem hInner with ⟨place, hStep⟩
      rcases ih hShows with ⟨path, source, hPath, hSource⟩
      exact ⟨place :: path, source, .step hStep hPath, hSource⟩

------------------------------------------------------------
-- Counting
------------------------------------------------------------

/-
  There are `count` rows below the row.  A row counts once for
  each path that leads to it.
-/
def HasBelow
    (shape : RecordShape)
    (row : List (String × Value))
    (count : Nat) : Prop :=
  ∃ paths : List (List (Nat × Nat)),
    paths.Nodup ∧
      (∀ path,
        path ∈ paths ↔
          path ≠ [] ∧ ∃ target, Leads shape path row target) ∧
        paths.length = count

/- The paths that go on from some steps, each to its end. -/
theorem exists_paths_of_steps
    {shape : RecordShape}
    {steps : List ((Nat × Nat) × List (String × Value))}
    {trees : List Tree}
    (hPlaces : (steps.map Prod.fst).Nodup)
    (h :
      List.Forall₂
        (fun step tree =>
          ∃ count, HasBelow shape step.2 count ∧ tree.size = 1 + count)
        steps trees) :
    ∃ paths : List (List (Nat × Nat)),
      paths.Nodup ∧
        (∀ path,
          path ∈ paths ↔
            ∃ step ∈ steps, ∃ rest target,
              path = step.1 :: rest ∧
                Leads shape rest step.2 target) ∧
          paths.length = sizes trees := by
  induction h with
  | nil => exact ⟨[], List.nodup_nil, by simp, rfl⟩
  | @cons step tree steps trees hStep _ ih =>
      rw [List.map_cons, List.nodup_cons] at hPlaces
      rcases ih hPlaces.2 with ⟨others, hOthers, hMem, hLength⟩
      rcases hStep with ⟨count, ⟨below, hBelow, hPaths, hCount⟩, hSize⟩
      have hLeads (rest : List (Nat × Nat)) :
          rest ∈ [] :: below ↔ ∃ target, Leads shape rest step.2 target := by
        rw [List.mem_cons, hPaths]
        by_cases hNil : rest = []
        · simpa [hNil] using ⟨_, Leads.here step.2⟩
        · simp [hNil]
      refine ⟨([] :: below).map (step.1 :: ·) ++ others, ?_, ?_, ?_⟩
      · refine List.Nodup.append ?_ hOthers ?_
        · apply List.Nodup.map (List.cons_injective)
          refine List.nodup_cons.mpr ⟨?_, hBelow⟩
          rw [hPaths]
          exact fun h => h.1 rfl
        · intro path hFirst hOther
          rcases List.mem_map.mp hFirst with ⟨rest, _, rfl⟩
          rcases (hMem _).mp hOther with ⟨other, hStep, _, _, hEq, _⟩
          apply hPlaces.1
          rw [(List.cons.inj hEq).1]
          exact List.mem_map_of_mem hStep
      · intro path
        rw [List.mem_append, hMem, List.exists_mem_cons_iff]
        refine or_congr_left ?_
        constructor
        · intro hFirst
          rcases List.mem_map.mp hFirst with ⟨rest, hRest, rfl⟩
          rcases (hLeads rest).mp hRest with ⟨target, hTarget⟩
          exact ⟨rest, target, rfl, hTarget⟩
        · intro hFirst
          rcases hFirst with ⟨rest, target, rfl, hTarget⟩
          exact List.mem_map_of_mem ((hLeads rest).mpr ⟨target, hTarget⟩)
      · rw [List.length_append, List.length_map, List.length_cons,
          hCount, hLength, sizes, hSize]
        omega

/- A tree has one node for its row and one for each below. -/
theorem Shows.size_eq
    {shape : RecordShape}
    {row : List (String × Value)}
    {tree : Tree}
    (h : Shows shape row tree) :
    ∃ count, HasBelow shape row count ∧ tree.size = 1 + count := by
  induction h with
  | @node row record children _ _ _ hLength _ ih =>
      have hChildren :
          List.Forall₂
            (fun step tree =>
              ∃ count,
                HasBelow shape step.2 count ∧ tree.size = 1 + count)
            (steps shape row) children := by
        rw [← map_snd_steps] at hLength ih
        have hRows := List.forall₂_iff_zip.mpr ⟨hLength, ih _ _⟩
        exact List.forall₂_map_left_iff.mp hRows
      rcases exists_paths_of_steps (nodup_map_fst_steps shape row)
        hChildren with ⟨paths, hPaths, hMem, hSizes⟩
      refine ⟨sizes children, ⟨paths, hPaths, ?_, hSizes⟩, rfl⟩
      intro path
      rw [hMem]
      constructor
      · intro hPath
        rcases hPath with ⟨step, hStep, rest, target, rfl, hRest⟩
        exact ⟨List.cons_ne_nil _ _, target,
          .step (mem_steps_iff.mp hStep) hRest⟩
      · intro hPath
        rcases hPath with ⟨hSome, target, hPath⟩
        cases hPath with
        | here => exact absurd rfl hSome
        | @step place rest _ inner _ hStep hRest =>
            exact ⟨(place, inner), mem_steps_iff.mpr hStep, rest,
              target, rfl, hRest⟩

/-
  The tree of a row shows the row, and each of its nodes a row
  that is nested in it.  So no node keeps a nested value among
  its properties, and there are as many nodes below the root as
  there are paths from the row to a nested one.
-/
theorem ofRow_conserves_rows
    (shape : RecordShape)
    (row : Row) :
    Shows shape row.entries (ofRow shape row) ∧
      (∀ node, HasNode (ofRow shape row) node →
        (∃ path source,
          Leads shape path row.entries source ∧
            Shows shape source node) ∧
          ∀ entry ∈ node.record.properties,
            ¬ Nested shape entry.2) ∧
      ∃ count,
        HasBelow shape row.entries count ∧
          (ofRow shape row).size = 1 + count := by
  have hShows := shows_ofEntries shape row.entries
  refine ⟨hShows, ?_, hShows.size_eq⟩
  intro node hNode
  rcases hShows.exists_of_hasNode hNode with
    ⟨path, source, hPath, hSource⟩
  exact ⟨⟨path, source, hPath, hSource⟩, hSource.not_nested⟩

/- Two rows in a list are two nodes; metadata is no branch. -/
example :
    (ofEntries .orient
      [("@in", .map [("@rid", .string "#9:0")]),
       ("owns",
         .list [.map [("@rid", .null)], .map [("@rid", .int 7)]]),
       ("tags", .list [])]).size = 3 := by
  rfl

end Tree

end GraphBag
