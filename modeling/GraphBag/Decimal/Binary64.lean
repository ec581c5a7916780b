/-
  Decimals and 64-bit binary floating-point numbers, and the
  nearest floating-point number to a decimal.

  A finite floating-point number is a sign and a magnitude, so
  two numbers are equal exactly when their bits are (all
  not-a-number patterns counting as one).  Everything is exact
  arithmetic on natural numbers.

  Key definitions include:
    * `Decimal`
    * `Magnitude`
    * `Magnitude.nearest`
    * `Decimal.nearest`
    * `Binary64`
-/

namespace GraphBag

------------------------------------------------------------
-- Decimals and Magnitudes
------------------------------------------------------------

/- The decimal number `digits * 10 ^ exponent`. -/
structure Decimal where
  digits : Nat
  exponent : Int
deriving DecidableEq, Repr

/-
  A finite floating-point number without its sign: the number
  `mantissa * 2 ^ scale / 2 ^ 1074`.  A mantissa below `2 ^ 52`
  occurs at the smallest scale only, so each number has one
  form.
-/
structure Magnitude where
  mantissa : Nat
  scale : Nat
  canonical :
    mantissa < Nat.pow 2 53 ∧ scale ≤ 2045 ∧
      (scale = 0 ∨ Nat.pow 2 52 ≤ mantissa)
deriving DecidableEq, Repr

namespace Magnitude

/- The number zero. -/
def zero : Magnitude where
  mantissa := 0
  scale := 0
  canonical := by decide

/- The number in units of the smallest positive one. -/
def units (x : Magnitude) : Nat :=
  x.mantissa * Nat.pow 2 x.scale

/- The magnitude of a mantissa and a scale, if they are one. -/
def ofParts? (mantissa scale : Nat) : Option Magnitude :=
  if h :
      mantissa < Nat.pow 2 53 ∧ scale ≤ 2045 ∧
        (scale = 0 ∨ Nat.pow 2 52 ≤ mantissa) then
    some ⟨mantissa, scale, h⟩
  else
    none

/- The quotient rounded to nearest, a half going to even. -/
def divRound (num den : Nat) : Nat :=
  let q := num / den
  let r := num % den
  if 2 * r < den then q
  else if den < 2 * r then q + 1
  else q + q % 2

/-
  The magnitude nearest to `num / den`, a half going to the
  even mantissa; none when the fraction rounds beyond the
  largest finite number.  The scale leaves 53 bits before the
  point, and a mantissa rounded up to `2 ^ 53` moves one scale
  up.
-/
def nearest (num den : Nat) : Option Magnitude :=
  let whole := num * Nat.pow 2 1074
  let scale := (whole / den).log2 - 52
  let mantissa := divRound whole (den * Nat.pow 2 scale)
  if mantissa = Nat.pow 2 53 then
    ofParts? (Nat.pow 2 52) (scale + 1)
  else
    ofParts? mantissa scale

end Magnitude

/-
  The magnitude nearest to a decimal; none when it rounds
  beyond the largest finite number.  The first tests only keep
  far too large and far too small powers of ten from being
  computed: a non-zero decimal with exponent above 310 is out
  of range, and `digits < 2 ^ (digits.log2 + 1)` shows that the
  second kind is below `10 ^ (-330)`.
-/
def Decimal.nearest (d : Decimal) : Option Magnitude :=
  if d.digits = 0 then
    some .zero
  else if 310 < d.exponent then
    none
  else if d.exponent + (d.digits.log2 : Int) + 331 < 0 then
    some .zero
  else
    match d.exponent with
    | .ofNat e => Magnitude.nearest (d.digits * Nat.pow 10 e) 1
    | .negSucc e => Magnitude.nearest d.digits (Nat.pow 10 (e + 1))

------------------------------------------------------------
-- Floating-Point Numbers
------------------------------------------------------------

/- A 64-bit binary floating-point number. -/
inductive Binary64 where
  | nan
  | infinite (negative : Bool)
  | finite (negative : Bool) (magnitude : Magnitude)
deriving DecidableEq, Repr

namespace Binary64

/- Neither infinite nor not-a-number. -/
def isFinite : Binary64 → Bool
  | .finite _ _ => true
  | _ => false

/-
  The number nearest to a signed decimal; none when it rounds
  beyond the largest finite number.
-/
def ofDecimal? (negative : Bool) (d : Decimal) : Option Binary64 :=
  d.nearest.map (finite negative)

end Binary64

end GraphBag
