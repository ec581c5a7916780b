import Mathlib.Data.List.Forall2

/-
  Results that may be errors, in sequence and in lists.

  Main declarations:
    * `bind_eq_ok_iff`
    * `map_eq_ok_iff`
    * `mapError_eq_ok_iff`
    * `mapM_eq_ok_iff`
    * `mapM_eq_error`
-/

namespace GraphBag

------------------------------------------------------------
-- One Result
------------------------------------------------------------

/- A sequence succeeds when both of its parts do. -/
theorem bind_eq_ok_iff
    {ε α β : Type}
    {x : Except ε α}
    {f : α → Except ε β}
    {b : β} :
    x >>= f = .ok b ↔ ∃ a, x = .ok a ∧ f a = .ok b := by
  cases x with
  | error e => simp [bind, Except.bind]
  | ok a => simp [bind, Except.bind]

/- A mapped result succeeds when the result does. -/
theorem map_eq_ok_iff
    {ε α β : Type}
    {x : Except ε α}
    {f : α → β}
    {b : β} :
    x.map f = .ok b ↔ ∃ a, x = .ok a ∧ b = f a := by
  cases x with
  | error e => simp [Except.map]
  | ok a => simp [Except.map, eq_comm]

/- A failure that is told in other words fails no more often. -/
theorem mapError_eq_ok_iff
    {ε δ α : Type}
    {x : Except ε α}
    {f : ε → δ}
    {a : α} :
    x.mapError f = .ok a ↔ x = .ok a := by
  cases x with
  | error e => simp [Except.mapError]
  | ok b => simp [Except.mapError]

------------------------------------------------------------
-- Lists of Results
------------------------------------------------------------

/- A list of results succeeds when each of them does. -/
theorem mapM_eq_ok_iff
    {ε α β : Type}
    {f : α → Except ε β}
    {xs : List α}
    {ys : List β} :
    xs.mapM f = .ok ys ↔ List.Forall₂ (fun x y => f x = .ok y) xs ys := by
  induction xs generalizing ys with
  | nil => simp [pure, Except.pure, eq_comm]
  | cons x xs ih =>
      rw [List.mapM_cons, bind_eq_ok_iff]
      simp only [bind_eq_ok_iff, ih, List.forall₂_cons_left_iff]
      constructor
      · rintro ⟨y, hy, rest, hRest, hEnd⟩
        cases hEnd
        exact ⟨y, rest, hy, hRest, rfl⟩
      · rintro ⟨y, rest, hy, hRest, rfl⟩
        exact ⟨y, hy, rest, hRest, rfl⟩

/- So does a list of results that may be missing. -/
theorem mapM_eq_some_iff
    {α β : Type}
    {f : α → Option β}
    {xs : List α}
    {ys : List β} :
    xs.mapM f = some ys ↔
      List.Forall₂ (fun x y => f x = some y) xs ys := by
  induction xs generalizing ys with
  | nil => simp [eq_comm]
  | cons x xs ih =>
      simp only [List.mapM_cons, Option.bind_eq_bind,
        Option.bind_eq_some_iff, ih, List.forall₂_cons_left_iff]
      constructor
      · rintro ⟨y, hy, rest, hRest, hEnd⟩
        cases hEnd
        exact ⟨y, rest, hy, hRest, rfl⟩
      · rintro ⟨y, rest, hy, hRest, rfl⟩
        exact ⟨y, hy, rest, hRest, rfl⟩

/- What is paired has a partner. -/
theorem exists_mem_of_forall₂
    {α β : Type}
    {R : α → β → Prop}
    {xs : List α}
    {ys : List β}
    (h : List.Forall₂ R xs ys)
    {y : β}
    (hy : y ∈ ys) :
    ∃ x ∈ xs, R x y := by
  induction h with
  | nil => cases hy
  | @cons x _ xs _ hFirst _ ih =>
      rcases List.mem_cons.mp hy with rfl | hy
      · exact ⟨x, List.mem_cons_self, hFirst⟩
      · rcases ih hy with ⟨partner, hMem, hPair⟩
        exact ⟨partner, List.mem_cons_of_mem _ hMem, hPair⟩

/- A list of results can succeed when each of them can. -/
theorem exists_mapM_iff
    {ε α β : Type}
    {f : α → Except ε β}
    {xs : List α} :
    (∃ ys, xs.mapM f = .ok ys) ↔ ∀ x ∈ xs, ∃ y, f x = .ok y := by
  induction xs with
  | nil => simp [pure, Except.pure]
  | cons x xs ih =>
      rw [List.forall_mem_cons, ← ih]
      simp only [List.mapM_cons, bind_eq_ok_iff]
      constructor
      · rintro ⟨_, y, hy, ys, hys, _⟩
        exact ⟨⟨y, hy⟩, ⟨ys, hys⟩⟩
      · rintro ⟨⟨y, hy⟩, ⟨ys, hys⟩⟩
        exact ⟨_, y, hy, ys, hys, rfl⟩

/- A list of results fails as the first of them that fails. -/
theorem mapM_eq_error
    {ε α β : Type}
    {f : α → Except ε β}
    {before after : List α}
    {x : α}
    {e : ε}
    (hBefore : ∀ y ∈ before, ∃ z, f y = .ok z)
    (hx : f x = .error e) :
    (before ++ x :: after).mapM f = .error e := by
  induction before with
  | nil =>
      rw [List.nil_append, List.mapM_cons, hx]
      rfl
  | cons y before ih =>
      rcases hBefore y List.mem_cons_self with ⟨z, hz⟩
      have hRest :=
        ih fun w hw => hBefore w (List.mem_cons_of_mem y hw)
      rw [List.cons_append, List.mapM_cons, hz, hRest]
      rfl

end GraphBag
