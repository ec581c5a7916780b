import GraphBag.Decimal.Shortest
import Mathlib.Tactic.Ring

/-
  The decimal chosen for a floating-point number reads back as
  that number, and reading depends on the value of a decimal
  only, not on its trailing zeros.

  Main declarations:
    * `Magnitude.nearest_mul_right`
    * `Magnitude.nearest_units`
    * `Magnitude.exists_nearest`
    * `Magnitude.nearest_shortest`
    * `Magnitude.exponent_shortest_of_digits_eq_zero`
    * `Decimal.nearest_pointed`
-/

namespace GraphBag

namespace Magnitude

------------------------------------------------------------
-- Rounding a Fraction
------------------------------------------------------------

/- Rounding a quotient does not depend on a common factor. -/
theorem divRound_mul_right
    (num den : Nat)
    {c : Nat}
    (hc : 0 < c) :
    divRound (num * c) (den * c) = divRound num den := by
  have hDiv : num * c / (den * c) = num / den :=
    Nat.mul_div_mul_right num den hc
  have hMod : num * c % (den * c) = num % den * c :=
    Nat.mul_mod_mul_right c num den
  have hLess : 2 * (num % den * c) < den * c ↔ 2 * (num % den) < den := by
    rw [← Nat.mul_assoc]
    exact Nat.mul_lt_mul_right hc
  have hGreater :
      den * c < 2 * (num % den * c) ↔ den < 2 * (num % den) := by
    rw [← Nat.mul_assoc]
    exact Nat.mul_lt_mul_right hc
  simp only [divRound, hDiv, hMod, hLess, hGreater]

/- A whole quotient is rounded to itself. -/
theorem divRound_mul_self
    (n : Nat)
    {den : Nat}
    (hDen : 0 < den) :
    divRound (n * den) den = n := by
  have hMod : n * den % den = 0 := Nat.mul_mod_left n den
  simp [divRound, Nat.mul_div_cancel n hDen, hMod, hDen]

/- The nearest magnitude does not depend on a common factor. -/
theorem nearest_mul_right
    (num den : Nat)
    {c : Nat}
    (hc : 0 < c) :
    nearest (num * c) (den * c) = nearest num den := by
  have hWhole :
      num * c * Nat.pow 2 1074 = num * Nat.pow 2 1074 * c := by
    ring
  have hDiv :
      num * Nat.pow 2 1074 * c / (den * c) =
        num * Nat.pow 2 1074 / den :=
    Nat.mul_div_mul_right _ _ hc
  have hScale : ∀ k : Nat, den * c * k = den * k * c := by
    intro k
    ring
  simp only [nearest, hWhole, hDiv, hScale, divRound_mul_right _ _ hc]

------------------------------------------------------------
-- The Number Itself
------------------------------------------------------------

/- A magnitude is found again from its parts. -/
theorem ofParts?_parts (x : Magnitude) :
    ofParts? x.mantissa x.scale = some x := by
  simp only [ofParts?, dif_pos x.canonical]

/- The scale leaves 53 bits of the units. -/
theorem log2_units (x : Magnitude) :
    x.units.log2 - 52 = x.scale := by
  rcases x with ⟨mantissa, scale, hBound, -, hForm⟩
  simp only [units]
  rcases hForm with hZero | hLarge
  · subst hZero
    have hLog : mantissa.log2 < 53 := by
      by_cases hMantissa : mantissa = 0
      · subst hMantissa
        decide
      · exact (Nat.log2_lt hMantissa).mpr hBound
    simp only [Nat.pow_eq, Nat.pow_zero, Nat.mul_one]
    omega
  · have hPos : mantissa * 2 ^ scale ≠ 0 := by
      have hPow : 0 < 2 ^ scale := Nat.two_pow_pos scale
      have hMantissa : 0 < mantissa :=
        Nat.lt_of_lt_of_le (by decide) hLarge
      exact Nat.ne_of_gt (Nat.mul_pos hMantissa hPow)
    have hLow : 52 + scale ≤ (mantissa * 2 ^ scale).log2 := by
      rw [Nat.le_log2 hPos, Nat.pow_add]
      exact Nat.mul_le_mul_right _ hLarge
    have hHigh : (mantissa * 2 ^ scale).log2 < 53 + scale := by
      rw [Nat.log2_lt hPos, Nat.pow_add]
      exact Nat.mul_lt_mul_of_pos_right hBound (Nat.two_pow_pos scale)
    simp only [Nat.pow_eq]
    omega

/- The magnitude nearest to a magnitude is that magnitude. -/
theorem nearest_units (x : Magnitude) :
    nearest x.units (Nat.pow 2 1074) = some x := by
  have hUnit : 0 < Nat.pow 2 1074 := Nat.two_pow_pos 1074
  have hScale :
      (x.units * Nat.pow 2 1074 / Nat.pow 2 1074).log2 - 52 =
        x.scale := by
    rw [Nat.mul_div_cancel _ hUnit]
    exact x.log2_units
  have hMantissa :
      divRound (x.units * Nat.pow 2 1074)
        (Nat.pow 2 1074 * Nat.pow 2 x.scale) = x.mantissa := by
    have hSplit :
        x.units * Nat.pow 2 1074 =
          x.mantissa * (Nat.pow 2 1074 * Nat.pow 2 x.scale) := by
      unfold units
      ring
    rw [hSplit]
    exact divRound_mul_self _
      (Nat.mul_pos hUnit (Nat.two_pow_pos x.scale))
  have hBelow : x.mantissa ≠ Nat.pow 2 53 :=
    Nat.ne_of_lt x.canonical.1
  simp only [nearest, hScale, hMantissa, if_neg hBelow, ofParts?_parts]

------------------------------------------------------------
-- Numbers in Range
------------------------------------------------------------

/- Rounding takes the whole quotient or the next number. -/
theorem divRound_bounds (num den : Nat) :
    num / den ≤ divRound num den ∧
      divRound num den ≤ num / den + 1 := by
  simp only [divRound]
  split
  · omega
  · split
    · omega
    · omega

/- The leading 53 bits of a number, or all if it has fewer. -/
theorem leading_bits (n : Nat) :
    n / Nat.pow 2 (n.log2 - 52) < Nat.pow 2 53 ∧
      (n.log2 - 52 = 0 ∨
        Nat.pow 2 52 ≤ n / Nat.pow 2 (n.log2 - 52)) := by
  simp only [Nat.pow_eq]
  have hHigh : n < 2 ^ (n.log2 + 1) := Nat.lt_log2_self
  constructor
  · rw [Nat.div_lt_iff_lt_mul (Nat.two_pow_pos _), ← Nat.pow_add]
    exact Nat.lt_of_lt_of_le hHigh (Nat.pow_le_pow_right (by decide) (by omega))
  · by_cases hShort : n.log2 < 53
    · omega
    · right
      have hPos : n ≠ 0 := by
        rintro rfl
        exact hShort (by decide)
      rw [Nat.le_div_iff_mul_le (Nat.two_pow_pos _), ← Nat.pow_add]
      have hLow : 2 ^ n.log2 ≤ n := Nat.log2_self_le hPos
      have hSum : 52 + (n.log2 - 52) = n.log2 := by omega
      rw [hSum]
      exact hLow

/- A fraction below `2 ^ 1023` has a nearest magnitude. -/
theorem exists_nearest
    {num den : Nat}
    (h : num < den * Nat.pow 2 1023) :
    ∃ x, nearest num den = some x := by
  have hParts {mantissa scale : Nat}
      (hCanonical :
        mantissa < Nat.pow 2 53 ∧ scale ≤ 2045 ∧
          (scale = 0 ∨ Nat.pow 2 52 ≤ mantissa)) :
      ∃ x, ofParts? mantissa scale = some x :=
    ⟨⟨mantissa, scale, hCanonical⟩, dif_pos hCanonical⟩
  have hScale : (num * Nat.pow 2 1074 / den).log2 - 52 ≤ 2044 := by
    have hWhole :
        num * Nat.pow 2 1074 / den < Nat.pow 2 (1023 + 1074) := by
      apply Nat.div_lt_of_lt_mul
      simp only [Nat.pow_eq] at h ⊢
      rw [Nat.pow_add, ← Nat.mul_assoc]
      exact Nat.mul_lt_mul_of_pos_right h (Nat.two_pow_pos _)
    by_cases hZero : num * Nat.pow 2 1074 / den = 0
    · rw [hZero]
      decide
    · have hLog := (Nat.log2_lt hZero).mpr hWhole
      omega
  have hBits := leading_bits (num * Nat.pow 2 1074 / den)
  rw [Nat.div_div_eq_div_mul] at hBits
  simp only [nearest]
  generalize (num * Nat.pow 2 1074 / den).log2 - 52 = scale at hScale hBits ⊢
  have hRound :=
    divRound_bounds (num * Nat.pow 2 1074) (den * Nat.pow 2 scale)
  by_cases hCarry :
      divRound (num * Nat.pow 2 1074) (den * Nat.pow 2 scale) =
        Nat.pow 2 53
  · rw [if_pos hCarry]
    exact hParts ⟨by decide, by omega, Or.inr (Nat.le_refl _)⟩
  · rw [if_neg hCarry]
    exact hParts ⟨by omega, by omega, by omega⟩

------------------------------------------------------------
-- Chosen Decimals
------------------------------------------------------------

/- The number written out to its last digit reads back. -/
theorem nearest_exactDecimal
    (x : Magnitude)
    (hx : x.mantissa ≠ 0) :
    x.exactDecimal.nearest = some x := by
  have hUnits : 0 < x.units :=
    Nat.mul_pos (Nat.pos_of_ne_zero hx) (Nat.two_pow_pos x.scale)
  have hFive : 0 < Nat.pow 5 1074 := Nat.pow_pos (by decide)
  have hDigits : x.units * Nat.pow 5 1074 ≠ 0 :=
    Nat.ne_of_gt (Nat.mul_pos hUnits hFive)
  have hLog : 1074 ≤ (x.units * Nat.pow 5 1074).log2 := by
    rw [Nat.le_log2 hDigits]
    calc
      2 ^ 1074 ≤ 5 ^ 1074 := Nat.pow_le_pow_left (by decide) 1074
      _ ≤ x.units * 5 ^ 1074 := Nat.le_mul_of_pos_left _ hUnits
  have hNotSmall :
      ¬ ((-1074 : Int) + ((x.units * Nat.pow 5 1074).log2 : Int) +
        331 < 0) := by
    omega
  have hTen : Nat.pow 10 1074 = Nat.pow 2 1074 * Nat.pow 5 1074 := by
    simp only [Nat.pow_eq, ← Nat.mul_pow]
  have hNearest :
      nearest (x.units * Nat.pow 5 1074) (Nat.pow 10 1074) = some x := by
    rw [hTen, nearest_mul_right _ _ hFive]
    exact x.nearest_units
  unfold Decimal.nearest exactDecimal
  rw [if_neg hDigits, if_neg (show ¬ (310 < (-1074 : Int)) by decide),
    if_neg hNotSmall]
  exact hNearest

/- A decimal picked from a grid reads back. -/
theorem nearest_of_pick?
    {x : Magnitude}
    {tie : Tie}
    {e : Int}
    {d : Decimal}
    (h : x.pick? tie e = some d) :
    d.nearest = some x := by
  simp only [pick?] at h
  have hReads := List.find?_some h
  exact of_decide_eq_true hReads

/- A decimal found by going through the grids reads back. -/
theorem nearest_of_scan?
    {x : Magnitude}
    {tie : Tie}
    {d : Decimal} :
    ∀ {steps : Nat} {e : Int},
      x.scan? tie steps e = some d → d.nearest = some x
  | 0, _, h => by
      simp [scan?] at h
  | steps + 1, e, h => by
      simp only [scan?, Option.or_eq_some_iff] at h
      rcases h with hHere | ⟨-, hFiner⟩
      · exact nearest_of_pick? hHere
      · exact nearest_of_scan? hFiner

/- The chosen decimal of a number reads back as the number. -/
theorem nearest_shortest
    (x : Magnitude)
    (tie : Tie) :
    (x.shortest tie).nearest = some x := by
  unfold shortest
  by_cases hZero : x.mantissa = 0
  · rw [if_pos hZero]
    rcases x with ⟨mantissa, scale, hBound, hTop, hForm⟩
    have hScale : scale = 0 := by
      rcases hForm with h | hLarge
      · exact h
      · simp only at hZero
        subst hZero
        exact absurd hLarge (by decide)
    simp only at hZero
    subst hZero hScale
    rfl
  · rw [if_neg hZero]
    cases hScan : x.scan? tie 20 x.topExponent with
    | none =>
        exact x.nearest_exactDecimal hZero
    | some d =>
        exact nearest_of_scan? hScan

/- The chosen decimal of zero has no exponent. -/
theorem exponent_shortest_of_digits_eq_zero
    (x : Magnitude)
    (tie : Tie)
    (hDigits : (x.shortest tie).digits = 0) :
    (x.shortest tie).exponent = 0 := by
  have hNearest := x.nearest_shortest tie
  have hZero : x.mantissa = 0 := by
    rw [Decimal.nearest, if_pos hDigits] at hNearest
    rw [← Option.some.inj hNearest]
    rfl
  simp [shortest, hZero]

end Magnitude

------------------------------------------------------------
-- Whole Numbers
------------------------------------------------------------

/- A whole number of 64 bits has a nearest magnitude. -/
theorem Decimal.exists_nearest_whole
    {digits : Nat}
    (h : digits < UInt64.size) :
    ∃ x, Decimal.nearest ⟨digits, 0⟩ = some x := by
  by_cases hZero : digits = 0
  · exact ⟨.zero, by simp [Decimal.nearest, hZero]⟩
  · have hSmall : digits * Nat.pow 10 0 < 1 * Nat.pow 2 1023 := by
      simp only [Nat.pow_eq, Nat.pow_zero, Nat.mul_one, Nat.one_mul]
      have hWord : digits < 2 ^ 64 := h
      exact Nat.lt_of_lt_of_le hWord
        (Nat.pow_le_pow_right (by decide) (by decide))
    rcases Magnitude.exists_nearest hSmall with ⟨x, hx⟩
    refine ⟨x, ?_⟩
    rw [← hx]
    simp only [Decimal.nearest, if_neg hZero]
    rw [if_neg (by decide), if_neg (by omega)]

/-
  A whole number written with one zero behind its point is the
  same number.
-/
theorem Decimal.nearest_pointed
    (digits : Nat)
    {e : Nat}
    (he : e ≤ 310) :
    Decimal.nearest ⟨digits * 10 ^ e * 10, -1⟩ =
      Decimal.nearest ⟨digits, e⟩ := by
  unfold Decimal.nearest
  by_cases hZero : digits = 0
  · simp [hZero]
  · have hTens : digits * 10 ^ e * 10 ≠ 0 := by
      simp [hZero]
    have hLeft :
        ¬ ((-1 : Int) + ((digits * 10 ^ e * 10).log2 : Int) + 331 < 0) := by
      omega
    have hRight : ¬ ((e : Int) + (digits.log2 : Int) + 331 < 0) := by
      omega
    have hTop : ¬ (310 < (e : Int)) := by
      omega
    simp only [if_neg hZero, if_neg hTens, if_neg hLeft, if_neg hRight,
      if_neg hTop, if_neg (show ¬ (310 < (-1 : Int)) by decide)]
    exact Magnitude.nearest_mul_right (digits * 10 ^ e) 1 (by decide)

end GraphBag
