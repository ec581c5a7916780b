import GraphBag.Json.Basic

/-
  JSON text as tokens: the written form of each token, and the
  lexer that takes a text apart.

  The lexer stops at the first place that is no token and marks
  it with `Token.bad`.  Two kinds of scalar are well formed as
  text but stand for nothing: a number beyond the floating-point
  range and a string with half of a surrogate pair.  They have
  tokens of their own, because a reader that skips a value
  passes over them.

  Key definitions include:
    * `Token`
    * `Token.chars`
    * `Token.lex`
-/

namespace GraphBag

/- A piece of JSON text. -/
inductive Token where
  | openBrace
  | closeBrace
  | openBracket
  | closeBracket
  | comma
  | colon
  | scalar (s : Scalar)
  | flawedNumber
  | flawedText
  | bad
deriving DecidableEq, Repr

------------------------------------------------------------
-- Writing
------------------------------------------------------------

/-
  Numbers in JSON text keep a point or an exponent, and have an
  exponent below `1e-5` and from `1e16` on.
-/
def Layout.json : Layout where
  positional := fun e => -5 ≤ e && e < 16
  whole := ['.', '0']
  positive := ['+']
  tie := .toEven

namespace Token

/- One character inside a JSON string. -/
def escapeChar (c : Char) : List Char :=
  if c = '"' ∨ c = '\\' then ['\\', c]
  else if c.toNat = 0x08 then ['\\', 'b']
  else if c.toNat = 0x0C then ['\\', 'f']
  else if c = '\n' then ['\\', 'n']
  else if c = '\r' then ['\\', 'r']
  else if c = '\t' then ['\\', 't']
  else if c.toNat < 0x20 then
    ['\\', 'u', '0', '0',
      Nat.digitChar (c.toNat / 16), Nat.digitChar (c.toNat % 16)]
  else [c]

/- A JSON string with its quotes. -/
def stringChars (s : String) : List Char :=
  '"' :: s.toList.flatMap escapeChar ++ ['"']

/- The digits of an integer with its sign. -/
def intChars : Int → List Char
  | .ofNat n => Nat.toDigits 10 n
  | .negSucc n => '-' :: Nat.toDigits 10 (n + 1)

/-
  The text of a scalar.  JSON has no number that is not finite,
  so such a number is written as null.
-/
def scalarChars : Scalar → List Char
  | .null => ['n', 'u', 'l', 'l']
  | .bool true => ['t', 'r', 'u', 'e']
  | .bool false => ['f', 'a', 'l', 's', 'e']
  | .int n => intChars n
  | .float x =>
      if x.isFinite then x.chars .json
      else ['n', 'u', 'l', 'l']
  | .string s => stringChars s

/- The text of a token; tokens that mark a fault have none. -/
def chars : Token → List Char
  | .openBrace => ['\x7b']
  | .closeBrace => ['\x7d']
  | .openBracket => ['[']
  | .closeBracket => [']']
  | .comma => [',']
  | .colon => [':']
  | .scalar s => scalarChars s
  | .flawedNumber => []
  | .flawedText => []
  | .bad => []

------------------------------------------------------------
-- Numbers
------------------------------------------------------------

/- The parts of a number as they are written. -/
structure Numeral where
  negative : Bool
  whole : List Char
  fraction : Option (List Char)
  exponent : Option Int

/- Digits at the front and what follows; none without a digit. -/
def scanDigits? (cs : List Char) : Option (List Char × List Char) :=
  match cs.takeWhile Char.isDigit with
  | [] => none
  | ds => some (ds, cs.dropWhile Char.isDigit)

/- The digits before the point: a zero only when alone. -/
def scanWhole? (cs : List Char) : Option (List Char × List Char) :=
  match scanDigits? cs with
  | some ('0' :: _ :: _, _) => none
  | found => found

/- A fraction, if a point follows. -/
def scanFraction? :
    List Char → Option (Option (List Char) × List Char)
  | '.' :: cs =>
      (scanDigits? cs).map fun (ds, rest) => (some ds, rest)
  | cs => some (none, cs)

/- An exponent, if an exponent mark follows. -/
def scanExponent? : List Char → Option (Option Int × List Char)
  | [] => some (none, [])
  | c :: cs =>
      if c = 'e' ∨ c = 'E' then
        let (negative, cs) := splitSign cs
        (scanDigits? cs).map fun (ds, rest) =>
          (some (exponentOfDigits negative ds), rest)
      else
        some (none, c :: cs)

/- A number at the front of a text. -/
def scanNumeral? (cs : List Char) : Option (Numeral × List Char) := do
  let (negative, cs) := splitMinus cs
  let (whole, cs) ← scanWhole? cs
  let (fraction, cs) ← scanFraction? cs
  let (exponent, cs) ← scanExponent? cs
  some (⟨negative, whole, fraction, exponent⟩, cs)

/-
  The floating-point number of a numeral, if it is in range.
  Reading is taken to be exact: it gives the number nearest to
  the numeral, however many digits that has.
-/
def Numeral.toFloat? (n : Numeral) : Option Binary64 :=
  Binary64.ofDecimal? n.negative
    (.ofDigits n.whole (n.fraction.getD []) (n.exponent.getD 0))

/-
  The integer of a numeral without fraction and exponent, if it
  fits in 64 bits: signed with a minus sign, unsigned without.
  Zero with a minus sign is no integer.
-/
def Numeral.toInt? (n : Numeral) : Option Int :=
  if n.fraction.isSome ∨ n.exponent.isSome then
    none
  else
    let m := Nat.ofDigitChars 10 n.whole 0
    if n.negative then
      if 0 < m ∧ Int64.minValue.toInt ≤ -(m : Int) then
        some (-(m : Int))
      else
        none
    else
      if m < UInt64.size then some m else none

/- The token of a numeral. -/
def Numeral.toToken (n : Numeral) : Token :=
  match n.toInt?, n.toFloat? with
  | some i, _ => .scalar (.int i)
  | none, some x => .scalar (.float x)
  | none, none => .flawedNumber

------------------------------------------------------------
-- Strings
------------------------------------------------------------

/- The value of a hexadecimal digit in either case. -/
def hexValue? (c : Char) : Option Nat :=
  if c.isDigit then some (c.toNat - '0'.toNat)
  else if 'a' ≤ c ∧ c ≤ 'f' then some (c.toNat - 'a'.toNat + 10)
  else if 'A' ≤ c ∧ c ≤ 'F' then some (c.toNat - 'A'.toNat + 10)
  else none

/- The number of four hexadecimal digits. -/
def hexQuad? (a b c d : Char) : Option Nat := do
  let a ← hexValue? a
  let b ← hexValue? b
  let c ← hexValue? c
  let d ← hexValue? d
  some (((a * 16 + b) * 16 + c) * 16 + d)

/- The code of a one-letter escape. -/
def escapeCode? (c : Char) : Option Nat :=
  if c = '"' ∨ c = '\\' ∨ c = '/' then some c.toNat
  else if c = 'b' then some 0x08
  else if c = 'f' then some 0x0C
  else if c = 'n' then some 0x0A
  else if c = 'r' then some 0x0D
  else if c = 't' then some 0x09
  else none

/-
  The codes of a string up to its closing quote, and what
  follows: a code point for each plain character, a code unit
  for each escape.  None when an escape is malformed, a control
  character stands bare or the quote is missing.
-/
def scanCodes? : List Char → Option (List Nat × List Char)
  | [] => none
  | '"' :: rest => some ([], rest)
  | '\\' :: 'u' :: a :: b :: c :: d :: rest =>
      match hexQuad? a b c d, scanCodes? rest with
      | some n, some (ns, tail) => some (n :: ns, tail)
      | _, _ => none
  | '\\' :: c :: rest =>
      match escapeCode? c, scanCodes? rest with
      | some n, some (ns, tail) => some (n :: ns, tail)
      | _, _ => none
  | c :: rest =>
      if c.toNat < 0x20 then none
      else
        (scanCodes? rest).map fun (ns, tail) =>
          (c.toNat :: ns, tail)

/- The first half of a surrogate pair. -/
def isHighHalf (n : Nat) : Bool :=
  0xD800 ≤ n && n < 0xDC00

/- The second half of a surrogate pair. -/
def isLowHalf (n : Nat) : Bool :=
  0xDC00 ≤ n && n < 0xE000

/-
  The characters of a list of codes, surrogate halves joined in
  pairs; none when a half stands alone.
-/
def joinCodes? : List Nat → Option (List Char)
  | [] => some []
  | [n] =>
      if isHighHalf n || isLowHalf n then none
      else some [Char.ofNat n]
  | n :: m :: rest =>
      if isHighHalf n then
        if isLowHalf m then
          (joinCodes? rest).map fun cs =>
            Char.ofNat
              (0x10000 + (n - 0xD800) * 0x400 + (m - 0xDC00)) :: cs
        else none
      else if isLowHalf n then none
      else (joinCodes? (m :: rest)).map (Char.ofNat n :: ·)

/- The token of a string with the given codes. -/
def ofCodes (codes : List Nat) : Token :=
  match joinCodes? codes with
  | some cs => .scalar (.string (String.ofList cs))
  | none => .flawedText

------------------------------------------------------------
-- Lexer
------------------------------------------------------------

/- The white space between tokens. -/
def isGap (c : Char) : Bool :=
  c = ' ' || c = '\t' || c = '\n' || c = '\r'

/- The token at the front of a text that starts with no gap. -/
def scan? : List Char → Option (Token × List Char)
  | '\x7b' :: cs => some (.openBrace, cs)
  | '\x7d' :: cs => some (.closeBrace, cs)
  | '[' :: cs => some (.openBracket, cs)
  | ']' :: cs => some (.closeBracket, cs)
  | ',' :: cs => some (.comma, cs)
  | ':' :: cs => some (.colon, cs)
  | '"' :: cs =>
      (scanCodes? cs).map fun (codes, rest) => (ofCodes codes, rest)
  | 'n' :: 'u' :: 'l' :: 'l' :: cs => some (.scalar .null, cs)
  | 't' :: 'r' :: 'u' :: 'e' :: cs =>
      some (.scalar (.bool true), cs)
  | 'f' :: 'a' :: 'l' :: 's' :: 'e' :: cs =>
      some (.scalar (.bool false), cs)
  | cs =>
      (scanNumeral? cs).map fun (n, rest) => (n.toToken, rest)

/-
  The tokens of a text, at most `steps` steps of it.  Each step
  takes at least one character.
-/
def lexWithin : Nat → List Char → List Token
  | 0, _ => [.bad]
  | _ + 1, [] => []
  | steps + 1, c :: cs =>
      if isGap c then
        lexWithin steps cs
      else
        match scan? (c :: cs) with
        | some (t, rest) => t :: lexWithin steps rest
        | none => [.bad]

/- The tokens of a text up to the first place that is none. -/
def lex (cs : List Char) : List Token :=
  lexWithin (cs.length + 1) cs

end Token

end GraphBag
