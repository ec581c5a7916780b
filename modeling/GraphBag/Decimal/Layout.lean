import GraphBag.Decimal.Shortest

/-
  Texts of floating-point numbers.  The digits are chosen once
  (`Magnitude.shortest`); a `Layout` says how they are written.

  Key definitions include:
    * `Layout`
    * `Layout.plain`
    * `Decimal.chars`
    * `Binary64.chars`
    * `Binary64.ofText?`
-/

namespace GraphBag

------------------------------------------------------------
-- Layouts
------------------------------------------------------------

/-
  How chosen digits are written: which exponents of the leading
  digit are written without an exponent, what follows a whole
  number, what precedes a positive exponent, and which way a
  tie between two shortest decimals goes.
-/
structure Layout where
  positional : Int → Bool
  whole : List Char
  positive : List Char
  tie : Tie

/-
  Numbers in running text have no exponent, and whole numbers
  no point.
-/
def Layout.plain : Layout where
  positional := fun _ => true
  whole := []
  positive := []
  tie := .up

namespace Decimal

/-
  Digits with the point after the first `point` of them, zeros
  filling up on either side.
-/
def positionalChars
    (layout : Layout)
    (ds : List Char) :
    Int → List Char
  | .negSucc k =>
      ['0', '.'] ++ List.replicate (k + 1) '0' ++ ds
  | .ofNat 0 => ['0', '.'] ++ ds
  | .ofNat point =>
      if ds.length ≤ point then
        ds ++ List.replicate (point - ds.length) '0' ++
          layout.whole
      else
        ds.take point ++ '.' :: ds.drop point

/- An integer with the layout's sign. -/
def exponentChars (layout : Layout) : Int → List Char
  | .ofNat n => layout.positive ++ Nat.toDigits 10 n
  | .negSucc n => '-' :: Nat.toDigits 10 (n + 1)

/- One digit before the point, and the exponent behind. -/
def scientificChars
    (layout : Layout)
    (ds : List Char)
    (exponent : Int) : List Char :=
  let tail :=
    match ds.drop 1 with
    | [] => []
    | rest => '.' :: rest
  ds.take 1 ++ tail ++ 'e' :: exponentChars layout exponent

/- A decimal in a layout. -/
def chars (layout : Layout) (d : Decimal) : List Char :=
  let ds := Nat.toDigits 10 d.digits
  let point := (ds.length : Int) + d.exponent
  if layout.positional (point - 1) then
    positionalChars layout ds point
  else
    scientificChars layout ds (point - 1)

end Decimal

namespace Binary64

/- The sign of a negative number. -/
def signChars (negative : Bool) : List Char :=
  if negative then ['-'] else []

/- A floating-point number in a layout. -/
def chars (layout : Layout) : Binary64 → List Char
  | .nan => ['N', 'a', 'N']
  | .infinite negative => signChars negative ++ ['i', 'n', 'f']
  | .finite negative x =>
      signChars negative ++ (x.shortest layout.tie).chars layout

/- A floating-point number in a layout, as a string. -/
def text (layout : Layout) (x : Binary64) : String :=
  String.ofList (x.chars layout)

end Binary64

------------------------------------------------------------
-- Reading
------------------------------------------------------------

/- A leading minus sign taken off. -/
def splitMinus : List Char → Bool × List Char
  | '-' :: cs => (true, cs)
  | cs => (false, cs)

/- A leading plus or minus sign taken off. -/
def splitSign : List Char → Bool × List Char
  | '-' :: cs => (true, cs)
  | '+' :: cs => (false, cs)
  | cs => (false, cs)

/- The decimal of digits before and after a point. -/
def Decimal.ofDigits
    (whole fraction : List Char)
    (exponent : Int) : Decimal where
  digits := Nat.ofDigitChars 10 (whole ++ fraction) 0
  exponent := exponent - fraction.length

/- The signed number of digits behind an exponent mark. -/
def exponentOfDigits (negative : Bool) (ds : List Char) : Int :=
  let n : Int := Nat.ofDigitChars 10 ds 0
  if negative then -n else n

/-
  The number nearest to a decimal text: a sign, digits with or
  without a point, an exponent; or `NaN`, `inf`, `-inf`.
-/
def Binary64.ofText? (s : String) : Option Binary64 :=
  let (negative, cs) := splitSign s.toList
  if cs = ['N', 'a', 'N'] then some .nan
  else if cs = ['i', 'n', 'f'] then some (.infinite negative)
  else
    let whole := cs.takeWhile Char.isDigit
    let rest := cs.dropWhile Char.isDigit
    let (fraction, rest) :=
      match rest with
      | '.' :: r =>
          (r.takeWhile Char.isDigit, r.dropWhile Char.isDigit)
      | r => ([], r)
    let exponent? : Option Int :=
      match rest with
      | [] => some 0
      | c :: r =>
          let (minus, ds) := splitSign r
          if (c = 'e' ∨ c = 'E') ∧ ds ≠ [] ∧ ds.all Char.isDigit then
            some (exponentOfDigits minus ds)
          else
            none
    if whole ++ fraction = [] then none
    else
      exponent?.map fun e =>
        match Binary64.ofDecimal? negative
            (.ofDigits whole fraction e) with
        | some x => x
        | none => .infinite negative

end GraphBag
