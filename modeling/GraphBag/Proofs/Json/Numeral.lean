import GraphBag.Json.Token
import GraphBag.Proofs.Decimal.Nearest

/-
  Numbers read back from their text.  A written number is
  followed by something that cannot be part of it, so the
  scanner takes all of it and nothing more.

  Main declarations:
    * `Token.EndsNumber`
    * `Layout.Readable`
    * `Token.scanNumeral?_intChars`
    * `Token.scanNumeral?_floatChars`
-/

namespace GraphBag

------------------------------------------------------------
-- Digits of a Natural Number
------------------------------------------------------------

/- All characters are decimal digits. -/
def AllDigits (cs : List Char) : Prop :=
  ∀ c ∈ cs, c.isDigit = true

/- The decimal digits of a number are digits. -/
theorem allDigits_toDigits (n : Nat) :
    AllDigits (Nat.toDigits 10 n) := by
  intro c hc
  exact Nat.isDigit_of_mem_toDigits (by decide) (by decide) hc

/- Zeros are digits. -/
theorem allDigits_zeros (k : Nat) :
    AllDigits (List.replicate k '0') := by
  intro c hc
  have hZero : c = '0' := List.eq_of_mem_replicate hc
  subst hZero
  decide

theorem AllDigits.append
    {as bs : List Char}
    (ha : AllDigits as)
    (hb : AllDigits bs) :
    AllDigits (as ++ bs) := by
  intro c hc
  rcases List.mem_append.mp hc with h | h
  · exact ha c h
  · exact hb c h

/- The first digit of a number is not changed by what follows. -/
theorem head?_toDigits_append
    (n : Nat)
    (cs : List Char) :
    (Nat.toDigits 10 n ++ cs).head? = (Nat.toDigits 10 n).head? := by
  cases hDigits : Nat.toDigits 10 n with
  | nil =>
      exact absurd hDigits Nat.toDigits_ne_nil
  | cons c ds =>
      rfl

/- The first digit of a positive number is not zero. -/
theorem head?_toDigits_ne_zero
    (n : Nat)
    (hn : 0 < n) :
    (Nat.toDigits 10 n).head? ≠ some '0' := by
  induction n using Nat.strongRecOn with
  | ind n ih =>
      by_cases hSmall : n < 10
      · have hDigit : ∀ k < 10, 0 < k → Nat.digitChar k ≠ '0' := by
          decide
        rw [Nat.toDigits_of_lt_base hSmall]
        simpa using hDigit n hSmall hn
      · rw [Nat.toDigits_of_base_le (by decide) (by omega),
          head?_toDigits_append]
        exact ih (n / 10) (by omega) (by omega)

/-
  Digits as they may stand before a point: at least one, and a
  zero first only when it is alone.
-/
structure WholeDigits (ds : List Char) : Prop where
  digits : AllDigits ds
  nonempty : ds ≠ []
  leading : ∀ rest, ds = '0' :: rest → rest = []

/- The digits of a number may stand before a point. -/
theorem wholeDigits_toDigits (n : Nat) :
    WholeDigits (Nat.toDigits 10 n) where
  digits := allDigits_toDigits n
  nonempty := Nat.toDigits_ne_nil
  leading := by
    intro rest hRest
    by_cases hn : n = 0
    · subst hn
      rw [Nat.toDigits_zero] at hRest
      exact (List.cons.inj hRest).2.symm
    · have hHead := head?_toDigits_ne_zero n (Nat.pos_of_ne_zero hn)
      rw [hRest] at hHead
      exact absurd rfl hHead

/- A lone zero may stand before a point. -/
theorem wholeDigits_zero : WholeDigits ['0'] := by
  rw [← Nat.toDigits_zero 10]
  exact wholeDigits_toDigits 0

/- Digits of a positive number stay so with more digits behind. -/
theorem wholeDigits_append
    {n : Nat}
    (hn : 0 < n)
    {ds : List Char}
    (hds : AllDigits ds) :
    WholeDigits (Nat.toDigits 10 n ++ ds) where
  digits := (allDigits_toDigits n).append hds
  nonempty := by
    simp [Nat.toDigits_ne_nil]
  leading := by
    intro rest hRest
    have hHead := head?_toDigits_ne_zero n hn
    rw [← head?_toDigits_append n ds, hRest] at hHead
    exact absurd rfl hHead

/- So do the first digits of a positive number. -/
theorem wholeDigits_take
    {n : Nat}
    (hn : 0 < n)
    {k : Nat}
    (hk : 0 < k) :
    WholeDigits ((Nat.toDigits 10 n).take k) where
  digits := by
    intro c hc
    exact allDigits_toDigits n c (List.mem_of_mem_take hc)
  nonempty := by
    have hDigits : Nat.toDigits 10 n ≠ [] := Nat.toDigits_ne_nil
    simp [Nat.ne_of_gt hk, hDigits]
  leading := by
    intro rest hRest
    have hHead := head?_toDigits_ne_zero n hn
    have hFirst : ((Nat.toDigits 10 n).take k).head? = some '0' := by
      rw [hRest]
      rfl
    rw [List.head?_take, if_neg (Nat.ne_of_gt hk)] at hFirst
    exact absurd hFirst hHead

------------------------------------------------------------
-- Scanning the Parts of a Number
------------------------------------------------------------

/- The head of a text is its first character. -/
theorem forall_mem_head?_cons
    {p : Char → Prop}
    {c : Char}
    (hc : p c)
    (cs : List Char) :
    ∀ d ∈ (c :: cs).head?, p d := by
  intro d hd
  have hEq : c = d := by
    simpa using hd
  exact hEq ▸ hc

/- The text does not start with a digit. -/
def NoDigit (cs : List Char) : Prop :=
  ∀ c ∈ cs.head?, c.isDigit = false

/- The text starts with nothing that would continue a number. -/
def EndsNumber (cs : List Char) : Prop :=
  ∀ c ∈ cs.head?,
    c.isDigit = false ∧ c ≠ '.' ∧ c ≠ 'e' ∧ c ≠ 'E'

theorem EndsNumber.noDigit
    {cs : List Char}
    (h : EndsNumber cs) :
    NoDigit cs := by
  intro c hc
  exact (h c hc).1

/- Nothing continues a number at the end of the text. -/
theorem endsNumber_nil : EndsNumber [] := by
  intro c hc
  cases hc

/-
  A layout whose texts read back: whole numbers end in a point
  and a zero, a positive exponent has at most a plus sign, and
  the exponents written without one are in range.
-/
structure Layout.Readable (layout : Layout) : Prop where
  whole : layout.whole = ['.', '0']
  positive : layout.positive = [] ∨ layout.positive = ['+']
  bounded : ∀ e, layout.positional e = true → e ≤ 310

namespace Token

/- The scanner takes all digits and stops behind them. -/
theorem scanDigits?_append
    {ds rest : List Char}
    (hDigits : AllDigits ds)
    (hNonempty : ds ≠ [])
    (hRest : NoDigit rest) :
    scanDigits? (ds ++ rest) = some (ds, rest) := by
  have hTake : rest.takeWhile Char.isDigit = [] := by
    cases rest with
    | nil => rfl
    | cons c cs => simp [hRest c (by simp)]
  have hDrop : rest.dropWhile Char.isDigit = rest := by
    cases rest with
    | nil => rfl
    | cons c cs => simp [hRest c (by simp)]
  have hTakeAll : (ds ++ rest).takeWhile Char.isDigit = ds := by
    rw [List.takeWhile_append_of_pos hDigits, hTake, List.append_nil]
  have hDropAll : (ds ++ rest).dropWhile Char.isDigit = rest := by
    rw [List.dropWhile_append_of_pos hDigits, hDrop]
  unfold scanDigits?
  rw [hTakeAll, hDropAll]
  cases ds with
  | nil => exact absurd rfl hNonempty
  | cons c cs => rfl

/- So does the scanner of the digits before the point. -/
theorem scanWhole?_append
    {ds rest : List Char}
    (hWhole : WholeDigits ds)
    (hRest : NoDigit rest) :
    scanWhole? (ds ++ rest) = some (ds, rest) := by
  unfold scanWhole?
  rw [scanDigits?_append hWhole.digits hWhole.nonempty hRest]
  split
  · rename_i c cs tail hEq
    have hList : ds = '0' :: c :: cs := by
      simpa using congrArg (Option.map Prod.fst) hEq
    exact absurd (hWhole.leading _ hList) (by simp)
  · rfl

/- A point and digits are a fraction. -/
theorem scanFraction?_point
    {ds rest : List Char}
    (hDigits : AllDigits ds)
    (hNonempty : ds ≠ [])
    (hRest : NoDigit rest) :
    scanFraction? ('.' :: (ds ++ rest)) = some (some ds, rest) := by
  simp [scanFraction?, scanDigits?_append hDigits hNonempty hRest]

/- Without a point there is no fraction. -/
theorem scanFraction?_none
    {rest : List Char}
    (hRest : rest.head? ≠ some '.') :
    scanFraction? rest = some (none, rest) := by
  unfold scanFraction?
  split
  · exact absurd rfl hRest
  · rfl

/- Without a mark there is no exponent. -/
theorem scanExponent?_none
    {rest : List Char}
    (hRest : EndsNumber rest) :
    scanExponent? rest = some (none, rest) := by
  cases rest with
  | nil => rfl
  | cons c cs =>
      have hEnds := hRest c (by simp)
      simp [scanExponent?, hEnds.2.2.1, hEnds.2.2.2]

/- A minus sign that is written is taken off again. -/
theorem splitMinus_signChars
    (negative : Bool)
    {cs : List Char}
    (hcs : cs.head? ≠ some '-') :
    splitMinus (Binary64.signChars negative ++ cs) = (negative, cs) := by
  cases negative with
  | true => rfl
  | false =>
      cases cs with
      | nil => rfl
      | cons c cs =>
          have hc : c ≠ '-' := by
            simpa using hcs
          simp [Binary64.signChars, splitMinus, hc]

------------------------------------------------------------
-- Whole Numerals
------------------------------------------------------------

/- Digits do not start with anything else. -/
theorem head?_digits_append_ne
    {ds : List Char}
    (hDigits : AllDigits ds)
    (hNonempty : ds ≠ [])
    {c : Char}
    (hc : c.isDigit = false)
    (rest : List Char) :
    (ds ++ rest).head? ≠ some c := by
  cases ds with
  | nil => exact absurd rfl hNonempty
  | cons d ds =>
      intro hHead
      have hEq : d = c := by
        simpa using hHead
      have hDigit := hDigits d (by simp)
      rw [hEq, hc] at hDigit
      exact Bool.noConfusion hDigit

/- A numeral is scanned part by part. -/
theorem scanNumeral?_parts
    (negative : Bool)
    {whole after behind rest : List Char}
    {fraction : Option (List Char)}
    {exponent : Option Int}
    (hWhole : WholeDigits whole)
    (hAfter : NoDigit after)
    (hFraction : scanFraction? after = some (fraction, behind))
    (hExponent : scanExponent? behind = some (exponent, rest)) :
    scanNumeral?
        (Binary64.signChars negative ++ (whole ++ after)) =
      some (⟨negative, whole, fraction, exponent⟩, rest) := by
  have hSign :
      splitMinus (Binary64.signChars negative ++ (whole ++ after)) =
        (negative, whole ++ after) :=
    splitMinus_signChars negative
      (head?_digits_append_ne hWhole.digits hWhole.nonempty
        (by decide) after)
  simp [scanNumeral?, hSign, scanWhole?_append hWhole hAfter,
    hFraction, hExponent]

/- An integer is its sign and the digits of its absolute value. -/
theorem intChars_eq (n : Int) :
    intChars n =
      Binary64.signChars (n < 0) ++ Nat.toDigits 10 n.natAbs := by
  cases n with
  | ofNat n => simp [intChars, Binary64.signChars]
  | negSucc n => simp [intChars, Binary64.signChars]

/- An integer is scanned as a numeral of its digits alone. -/
theorem scanNumeral?_intChars
    (n : Int)
    {rest : List Char}
    (hRest : EndsNumber rest) :
    scanNumeral? (intChars n ++ rest) =
      some (⟨n < 0, Nat.toDigits 10 n.natAbs, none, none⟩, rest) := by
  have hNoPoint : rest.head? ≠ some '.' := by
    intro hHead
    exact (hRest '.' hHead).2.1 rfl
  rw [intChars_eq, List.append_assoc]
  exact scanNumeral?_parts _ (wholeDigits_toDigits _) hRest.noDigit
    (scanFraction?_none hNoPoint) (scanExponent?_none hRest)

/- An integer of 64 bits is the integer of its numeral. -/
theorem toInt?_digits
    (n : Int)
    (hLow : Int64.minValue.toInt ≤ n)
    (hHigh : n < UInt64.size) :
    Numeral.toInt? ⟨n < 0, Nat.toDigits 10 n.natAbs, none, none⟩ =
      some n := by
  by_cases hNeg : n < 0
  · have hPos : 0 < n.natAbs := by
      omega
    have hEq : -(n.natAbs : Int) = n := by
      omega
    simp only [Numeral.toInt?, hNeg, decide_true, if_true,
      Nat.ofDigitChars_ten_toDigits, hEq]
    rw [if_neg (by simp), if_pos ⟨hPos, hLow⟩]
  · have hEq : (n.natAbs : Int) = n := by
      omega
    have hSize : n.natAbs < UInt64.size := by
      omega
    simp only [Numeral.toInt?, hNeg, Nat.ofDigitChars_ten_toDigits]
    simp [hSize, hEq]

------------------------------------------------------------
-- Floating-Point Numerals
------------------------------------------------------------

/- An exponent that is written is read back. -/
theorem scanExponent?_exponentChars
    {layout : Layout}
    (hLayout : layout.Readable)
    (e : Int)
    {rest : List Char}
    (hRest : EndsNumber rest) :
    scanExponent?
        ('e' :: (Decimal.exponentChars layout e ++ rest)) =
      some (some e, rest) := by
  have hDigits :
      ∀ n : Nat,
        scanDigits? (Nat.toDigits 10 n ++ rest) =
          some (Nat.toDigits 10 n, rest) := by
    intro n
    exact scanDigits?_append (allDigits_toDigits n)
      Nat.toDigits_ne_nil hRest.noDigit
  cases e with
  | negSucc n =>
      simp [scanExponent?, Decimal.exponentChars, splitSign, hDigits,
        exponentOfDigits, Int.negSucc_eq]
  | ofNat n =>
      have hSign :
          splitSign (layout.positive ++ (Nat.toDigits 10 n ++ rest)) =
            (false, Nat.toDigits 10 n ++ rest) := by
        rcases hLayout.positive with hNone | hPlus
        · have hMinus :=
            head?_digits_append_ne (allDigits_toDigits n)
              Nat.toDigits_ne_nil (show '-'.isDigit = false by decide)
              rest
          have hPlus :=
            head?_digits_append_ne (allDigits_toDigits n)
              Nat.toDigits_ne_nil (show '+'.isDigit = false by decide)
              rest
          rw [hNone, List.nil_append]
          unfold splitSign
          split
          · rename_i h
            rw [h] at hMinus
            exact absurd rfl hMinus
          · rename_i h
            rw [h] at hPlus
            exact absurd rfl hPlus
          · rfl
        · rw [hPlus]
          rfl
      simp [scanExponent?, Decimal.exponentChars, hSign, hDigits,
        exponentOfDigits]

/-
  The text of a decimal is scanned as a numeral of the same
  value that is no integer.
-/
structure ScansAs
    (negative : Bool)
    (d : Decimal)
    (cs rest : List Char)
    (n : Numeral) : Prop where
  scanned :
    scanNumeral? (Binary64.signChars negative ++ (cs ++ rest)) =
      some (n, rest)
  sign : n.negative = negative
  pointed : n.fraction.isSome ∨ n.exponent.isSome
  value :
    Decimal.nearest
        (.ofDigits n.whole (n.fraction.getD []) (n.exponent.getD 0)) =
      d.nearest

/- A decimal with an exponent is scanned as itself. -/
theorem scansAs_scientificChars
    {layout : Layout}
    (hLayout : layout.Readable)
    (negative : Bool)
    (d : Decimal)
    {e : Int}
    (he : e = (Nat.toDigits 10 d.digits).length + d.exponent - 1)
    {rest : List Char}
    (hRest : EndsNumber rest) :
    ∃ n,
      ScansAs negative d
        (Decimal.scientificChars layout (Nat.toDigits 10 d.digits) e)
        rest n := by
  obtain ⟨digit, digits, hDigits⟩ :
      ∃ digit digits,
        Nat.toDigits 10 d.digits = digit :: digits :=
    List.exists_cons_of_ne_nil Nat.toDigits_ne_nil
  have hAll : AllDigits (digit :: digits) := by
    rw [← hDigits]
    exact allDigits_toDigits _
  have hFirst : WholeDigits [digit] := by
    refine ⟨?_, by simp, ?_⟩
    · intro c hc
      exact hAll c (by simp_all)
    · intro tail hTail
      exact (List.cons.inj hTail).2.symm
  have hValue : Nat.ofDigitChars 10 (digit :: digits) 0 = d.digits := by
    rw [← hDigits]
    exact Nat.ofDigitChars_ten_toDigits
  have hExponent := scanExponent?_exponentChars hLayout e hRest
  rw [hDigits, List.length_cons] at he
  rw [hDigits]
  cases digits with
  | nil =>
      refine ⟨⟨negative, [digit], none, some e⟩, ?_, rfl,
        Or.inr rfl, ?_⟩
      · simpa [Decimal.scientificChars] using
          scanNumeral?_parts negative hFirst
            (forall_mem_head?_cons (by decide) _)
            (scanFraction?_none (by simp)) hExponent
      · have hSame : Decimal.ofDigits [digit] [] e = d := by
          rcases d with ⟨value, exponent⟩
          simp_all [Decimal.ofDigits]
        exact congrArg Decimal.nearest hSame
  | cons next more =>
      have hTail : AllDigits (next :: more) := by
        intro c hc
        exact hAll c (List.mem_cons_of_mem _ hc)
      refine ⟨⟨negative, [digit], some (next :: more), some e⟩, ?_,
        rfl, Or.inl rfl, ?_⟩
      · simpa [Decimal.scientificChars] using
          scanNumeral?_parts negative hFirst
            (forall_mem_head?_cons (by decide) _)
            (scanFraction?_point hTail (by simp)
              (forall_mem_head?_cons (by decide) _)) hExponent
      · have hSame :
            Decimal.ofDigits [digit] (next :: more) e = d := by
          rcases d with ⟨value, exponent⟩
          simp only [Decimal.ofDigits, List.singleton_append, hValue,
            Decimal.mk.injEq, true_and]
          simp only [List.length_cons] at he ⊢
          omega
        exact congrArg Decimal.nearest hSame

/- A decimal below one is scanned as itself. -/
theorem scansAs_zeros
    (negative : Bool)
    (d : Decimal)
    {k : Nat}
    (hPoint : -(k : Int) = (Nat.toDigits 10 d.digits).length + d.exponent)
    {rest : List Char}
    (hRest : EndsNumber rest) :
    ∃ n,
      ScansAs negative d
        (['0', '.'] ++ List.replicate k '0' ++ Nat.toDigits 10 d.digits)
        rest n := by
  let fraction := List.replicate k '0' ++ Nat.toDigits 10 d.digits
  have hFraction : AllDigits fraction :=
    (allDigits_zeros k).append (allDigits_toDigits d.digits)
  have hNonempty : fraction ≠ [] := by
    simp [fraction, Nat.toDigits_ne_nil]
  have hSame : Decimal.ofDigits ['0'] fraction 0 = d := by
    rcases d with ⟨value, exponent⟩
    have hZero : Nat.ofDigitChars 10 ['0'] 0 = 0 := by
      decide
    simp only [Decimal.ofDigits, fraction, Nat.ofDigitChars_append,
      hZero, Nat.ofDigitChars_replicate_zero, Nat.mul_zero,
      Nat.ofDigitChars_ten_toDigits, Decimal.mk.injEq, true_and,
      List.length_append, List.length_replicate]
    simp only at hPoint
    omega
  refine ⟨⟨negative, ['0'], some fraction, none⟩, ?_, rfl,
    Or.inl rfl, congrArg Decimal.nearest hSame⟩
  simpa [fraction] using
    scanNumeral?_parts negative wholeDigits_zero
      (forall_mem_head?_cons (by decide) _)
      (scanFraction?_point hFraction hNonempty hRest.noDigit)
      (scanExponent?_none hRest)

/-
  A whole number is scanned as itself times ten, with one digit
  behind the point.
-/
theorem scansAs_whole
    (negative : Bool)
    (d : Decimal)
    (hd : d.digits = 0 → d.exponent = 0)
    {k : Nat}
    (hExponent : d.exponent = k)
    (hBound : k ≤ 310)
    {rest : List Char}
    (hRest : EndsNumber rest) :
    ∃ n,
      ScansAs negative d
        (Nat.toDigits 10 d.digits ++ List.replicate k '0' ++ ['.', '0'])
        rest n := by
  let whole := Nat.toDigits 10 d.digits ++ List.replicate k '0'
  have hWhole : WholeDigits whole := by
    by_cases hZero : d.digits = 0
    · have hk : k = 0 := by
        have := hd hZero
        omega
      subst hk
      simpa [whole] using wholeDigits_toDigits d.digits
    · exact wholeDigits_append (Nat.pos_of_ne_zero hZero)
        (allDigits_zeros k)
  have hValue :
      Decimal.nearest (.ofDigits whole ['0'] 0) = d.nearest := by
    rcases d with ⟨value, exponent⟩
    simp only at hExponent
    subst hExponent
    rw [← Decimal.nearest_pointed value hBound]
    congr 1
    simp [Decimal.ofDigits, whole, Nat.ofDigitChars_append,
      Nat.ofDigitChars_cons]
    ring
  refine ⟨⟨negative, whole, some ['0'], none⟩, ?_, rfl,
    Or.inl rfl, hValue⟩
  simpa [whole] using
    scanNumeral?_parts negative hWhole
      (forall_mem_head?_cons (by decide) _)
      (scanFraction?_point (allDigits_zeros 1) (by simp)
        hRest.noDigit)
      (scanExponent?_none hRest)

/- A decimal with its point between digits is scanned as itself. -/
theorem scansAs_between
    (negative : Bool)
    (d : Decimal)
    {k : Nat}
    (hk : 0 < k)
    (hLess : k < (Nat.toDigits 10 d.digits).length)
    (hPoint : (k : Int) = (Nat.toDigits 10 d.digits).length + d.exponent)
    {rest : List Char}
    (hRest : EndsNumber rest) :
    ∃ n,
      ScansAs negative d
        ((Nat.toDigits 10 d.digits).take k ++
          '.' :: (Nat.toDigits 10 d.digits).drop k)
        rest n := by
  have hPos : 0 < d.digits := by
    apply Nat.pos_of_ne_zero
    intro hZero
    rw [hZero, Nat.toDigits_zero] at hLess
    simp only [List.length_singleton] at hLess
    omega
  have hFraction : AllDigits ((Nat.toDigits 10 d.digits).drop k) := by
    intro c hc
    exact allDigits_toDigits _ c (List.mem_of_mem_drop hc)
  have hNonempty : (Nat.toDigits 10 d.digits).drop k ≠ [] := by
    simp only [ne_eq, List.drop_eq_nil_iff]
    omega
  have hSame :
      Decimal.ofDigits ((Nat.toDigits 10 d.digits).take k)
        ((Nat.toDigits 10 d.digits).drop k) 0 = d := by
    rcases d with ⟨value, exponent⟩
    simp only [Decimal.ofDigits, List.take_append_drop,
      Nat.ofDigitChars_ten_toDigits, List.length_drop,
      Decimal.mk.injEq, true_and]
    simp only at hPoint hLess
    omega
  refine ⟨⟨negative, _, some _, none⟩, ?_, rfl, Or.inl rfl,
    congrArg Decimal.nearest hSame⟩
  simpa using
    scanNumeral?_parts negative (wholeDigits_take hPos hk)
      (forall_mem_head?_cons (by decide) _)
      (scanFraction?_point hFraction hNonempty hRest.noDigit)
      (scanExponent?_none hRest)

/- The text of a decimal in a readable layout is scanned whole. -/
theorem exists_scansAs_chars
    {layout : Layout}
    (hLayout : layout.Readable)
    (negative : Bool)
    (d : Decimal)
    (hd : d.digits = 0 → d.exponent = 0)
    {rest : List Char}
    (hRest : EndsNumber rest) :
    ∃ n, ScansAs negative d (d.chars layout) rest n := by
  unfold Decimal.chars
  obtain ⟨point, hPoint⟩ :
      ∃ point : Int,
        point = (Nat.toDigits 10 d.digits).length + d.exponent :=
    ⟨_, rfl⟩
  simp only [← hPoint]
  by_cases hPositional : layout.positional (point - 1) = true
  · rw [if_pos hPositional]
    have hBound := hLayout.bounded _ hPositional
    have hLength : 0 < (Nat.toDigits 10 d.digits).length :=
      Nat.length_toDigits_pos
    cases point with
    | negSucc k =>
        exact scansAs_zeros negative d (k := k + 1) (by omega) hRest
    | ofNat k =>
        cases k with
        | zero =>
            exact scansAs_zeros negative d (k := 0) (by simpa using hPoint)
              hRest
        | succ k =>
            simp only [Decimal.positionalChars]
            by_cases hShort :
                (Nat.toDigits 10 d.digits).length ≤ k + 1
            · rw [if_pos hShort, hLayout.whole]
              apply scansAs_whole negative d hd _ _ hRest
              · simp only [Int.ofNat_eq_natCast] at hPoint
                omega
              · simp only [Int.ofNat_eq_natCast] at hBound
                omega
            · rw [if_neg hShort]
              exact scansAs_between negative d (by omega) (by omega)
                hPoint hRest
  · rw [if_neg hPositional]
    exact scansAs_scientificChars hLayout negative d (by omega) hRest

/-
  The text of a finite number in a readable layout is scanned as
  a numeral that stands for that number.
-/
theorem scanNumeral?_floatChars
    {layout : Layout}
    (hLayout : layout.Readable)
    {x : Binary64}
    (hx : x.isFinite = true)
    {rest : List Char}
    (hRest : EndsNumber rest) :
    ∃ n,
      scanNumeral? (x.chars layout ++ rest) = some (n, rest) ∧
        n.toToken = .scalar (.float x) := by
  cases x with
  | nan => exact Bool.noConfusion hx
  | infinite negative => exact Bool.noConfusion hx
  | finite negative m =>
      rcases exists_scansAs_chars hLayout negative
          (m.shortest layout.tie)
          (m.exponent_shortest_of_digits_eq_zero layout.tie)
          hRest with ⟨n, hScans⟩
      refine ⟨n, ?_, ?_⟩
      · simpa [Binary64.chars] using hScans.scanned
      · have hInt : n.toInt? = none := by
          simp [Numeral.toInt?, hScans.pointed]
        have hFloat : n.toFloat? = some (.finite negative m) := by
          simp [Numeral.toFloat?, Binary64.ofDecimal?, hScans.value,
            hScans.sign, Magnitude.nearest_shortest]
        simp [Numeral.toToken, hInt, hFloat]

end Token

end GraphBag
