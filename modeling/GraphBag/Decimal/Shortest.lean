import GraphBag.Decimal.Binary64

/-
  The shortest decimal of a floating-point number: the point of
  the coarsest power-of-ten grid that reads back as the number,
  and the nearer one when two of that grid do.

  Key definitions include:
    * `Tie`
    * `Magnitude.pick?`
    * `Magnitude.shortest`
-/

namespace GraphBag

/- Which of two equally near decimals is taken. -/
inductive Tie where
  | up
  | toEven
deriving DecidableEq, Repr

namespace Magnitude

/- Numerator and denominator of the number divided by `10 ^ e`. -/
def ratio (x : Magnitude) : Int → Nat × Nat
  | .ofNat e => (x.units, Nat.pow 2 1074 * Nat.pow 10 e)
  | .negSucc e => (x.units * Nat.pow 10 (e + 1), Nat.pow 2 1074)

/- The decimal reads back as the number. -/
def ReadsAs (x : Magnitude) (d : Decimal) : Prop :=
  d.nearest = some x

instance (x : Magnitude) (d : Decimal) :
    Decidable (x.ReadsAs d) := by
  unfold ReadsAs
  infer_instance

/-
  Of the two multiples of `10 ^ e` around the number, the
  nearer one that reads back, or else the other one if it does.
-/
def pick? (x : Magnitude) (tie : Tie) (e : Int) : Option Decimal :=
  let (num, den) := x.ratio e
  let low := num / den
  let r := num % den
  let takeHigh :=
    den < 2 * r ∨ (den = 2 * r ∧ (tie = .up ∨ low % 2 = 1))
  let order :=
    if takeHigh then [low + 1, low] else [low, low + 1]
  (order.map (Decimal.mk · e)).find? (x.ReadsAs ·)

/- The first grid with a point that reads back, going finer. -/
def scan? (x : Magnitude) (tie : Tie) : Nat → Int → Option Decimal
  | 0, _ => none
  | steps + 1, e =>
      (x.pick? tie e).or (x.scan? tie steps (e - 1))

/- The number written out to its last digit. -/
def exactDecimal (x : Magnitude) : Decimal where
  digits := x.units * Nat.pow 5 1074
  exponent := -1074

/-
  The exponent of the first power of ten above the number,
  counted from the digits before the point of the number times
  `10 ^ 400`.
-/
def topExponent (x : Magnitude) : Int :=
  let (num, den) := x.ratio (-400)
  ((Nat.toDigits 10 (num / den)).length : Int) - 400

/-
  The shortest decimal that reads back.  Seventeen digits
  always do, so the scan stops on its own; the exact decimal
  closes the definition.
-/
def shortest (x : Magnitude) (tie : Tie) : Decimal :=
  if x.mantissa = 0 then
    ⟨0, 0⟩
  else
    (x.scan? tie 20 x.topExponent).getD x.exactDecimal

end Magnitude

end GraphBag
