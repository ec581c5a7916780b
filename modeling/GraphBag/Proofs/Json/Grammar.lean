import GraphBag.Json.Reader
import GraphBag.Proofs.Json.Parsing

/-
  The grammar of JSON text: which characters spell a tree, with
  white space between its tokens, numbers in any notation and
  strings with any escapes.  A text that spells a tree is parsed
  as that tree.

  Main declarations:
    * `Token.SpellsChars`
    * `Scalar.SpelledBy`
    * `Json.SpelledBy`
    * `Token.lex_of_spelled`
    * `Reader.run_of_spelled`
-/

namespace GraphBag

------------------------------------------------------------
-- Strings
------------------------------------------------------------

namespace Token

/- The character is a hexadecimal digit, in either case. -/
def IsHexDigit (c : Char) (n : Nat) : Prop :=
  n < 16 ∧ (c = Nat.digitChar n ∨ c = (Nat.digitChar n).toUpper)

instance (c : Char) (n : Nat) : Decidable (IsHexDigit c n) := by
  unfold IsHexDigit
  infer_instance

/- Four hexadecimal digits and their number. -/
inductive IsHexQuad : List Char → Nat → Prop where
  | digits
      {a b c d : Char}
      {k l m n : Nat}
      (ha : IsHexDigit a k)
      (hb : IsHexDigit b l)
      (hc : IsHexDigit c m)
      (hd : IsHexDigit d n) :
      IsHexQuad [a, b, c, d] (((k * 16 + l) * 16 + m) * 16 + n)

/- The letters behind a backslash and what they stand for. -/
def letterEscapes : List (Char × Char) :=
  [('"', '"'), ('\\', '\\'), ('/', '/'), ('b', '\x08'),
   ('f', '\x0C'), ('n', '\n'), ('r', '\r'), ('t', '\t')]

/- The character can stand for itself between quotes. -/
def IsPlain (c : Char) : Prop :=
  0x20 ≤ c.toNat ∧ c ≠ '"' ∧ c ≠ '\\'

instance (c : Char) : Decidable (IsPlain c) := by
  unfold IsPlain
  infer_instance

/-
  The text between the quotes of a string.  A character beyond
  the first 65536 can be written as a pair of escapes.
-/
inductive SpellsChars : List Char → List Char → Prop where
  | nil : SpellsChars [] []
  | plain
      {c : Char}
      {s cs : List Char}
      (hc : IsPlain c)
      (hs : SpellsChars s cs) :
      SpellsChars (c :: s) (c :: cs)
  | letter
      {letter c : Char}
      {s cs : List Char}
      (hc : (letter, c) ∈ letterEscapes)
      (hs : SpellsChars s cs) :
      SpellsChars (c :: s) ('\\' :: letter :: cs)
  | code
      {c : Char}
      {quad s cs : List Char}
      (hc : IsHexQuad quad c.toNat)
      (hs : SpellsChars s cs) :
      SpellsChars (c :: s) ('\\' :: 'u' :: (quad ++ cs))
  | pair
      {c : Char}
      {high low : Nat}
      {quad other s cs : List Char}
      (hHigh : high < 0x400)
      (hLow : low < 0x400)
      (hQuad : IsHexQuad quad (0xD800 + high))
      (hOther : IsHexQuad other (0xDC00 + low))
      (hc : c.toNat = 0x10000 + high * 0x400 + low)
      (hs : SpellsChars s cs) :
      SpellsChars (c :: s)
        ('\\' :: 'u' :: (quad ++ '\\' :: 'u' :: (other ++ cs)))

/- Text without special characters stands for itself. -/
theorem spellsChars_self
    {s : List Char}
    (hs : s.all (IsPlain ·) = true) :
    SpellsChars s s := by
  induction s with
  | nil => exact .nil
  | cons c s ih =>
      rw [List.all_cons, Bool.and_eq_true, decide_eq_true_eq] at hs
      exact .plain hs.1 (ih hs.2)

/- The value of a hexadecimal digit is found. -/
theorem hexValue?_of_isHexDigit
    {c : Char}
    {n : Nat}
    (h : IsHexDigit c n) :
    hexValue? c = some n := by
  have hDigits :
      ∀ n < 16,
        hexValue? (Nat.digitChar n) = some n ∧
          hexValue? (Nat.digitChar n).toUpper = some n := by
    decide
  rcases h with ⟨hn, rfl | rfl⟩
  · exact (hDigits n hn).1
  · exact (hDigits n hn).2

/- An escape of four digits is scanned as their number. -/
theorem scanCodes?_quad
    {quad : List Char}
    {n : Nat}
    (h : IsHexQuad quad n)
    (cs : List Char) :
    scanCodes? ('\\' :: 'u' :: (quad ++ cs)) =
      (scanCodes? cs).map fun (ns, tail) => (n :: ns, tail) := by
  cases h with
  | digits ha hb hc hd =>
      simp only [List.cons_append, List.nil_append, scanCodes?,
        hexQuad?, hexValue?_of_isHexDigit ha,
        hexValue?_of_isHexDigit hb, hexValue?_of_isHexDigit hc,
        hexValue?_of_isHexDigit hd, Option.bind_eq_bind,
        Option.bind_some]
      cases scanCodes? cs with
      | none => rfl
      | some found => rfl

/- A letter that is escaped is scanned as what it stands for. -/
theorem scanCodes?_letterEscape
    {letter c : Char}
    (h : (letter, c) ∈ letterEscapes)
    (cs : List Char) :
    scanCodes? ('\\' :: letter :: cs) =
      (scanCodes? cs).map fun (ns, tail) => (c.toNat :: ns, tail) := by
  have hLetters :
      ∀ entry ∈ letterEscapes,
        entry.1 ≠ 'u' ∧
          escapeCode? entry.1 = some entry.2.toNat := by
    decide
  rcases hLetters _ h with ⟨hLetter, hCode⟩
  exact scanCodes?_letter hLetter hCode cs

/- A code that is no half of a pair is joined alone. -/
theorem joinCodes?_cons
    (c : Char)
    (codes : List Nat) :
    joinCodes? (c.toNat :: codes) =
      (joinCodes? codes).map (c :: ·) := by
  have hHalf := not_half c
  cases codes with
  | nil => simp [joinCodes?, hHalf, Char.ofNat_toNat]
  | cons n codes => simp [joinCodes?, hHalf, Char.ofNat_toNat]

/- The two halves of a pair are joined. -/
theorem joinCodes?_pair
    {c : Char}
    {high low : Nat}
    (hHigh : high < 0x400)
    (hLow : low < 0x400)
    (hc : c.toNat = 0x10000 + high * 0x400 + low)
    (codes : List Nat) :
    joinCodes? ((0xD800 + high) :: (0xDC00 + low) :: codes) =
      (joinCodes? codes).map (c :: ·) := by
  have hFirst : isHighHalf (0xD800 + high) = true := by
    simp only [isHighHalf, Bool.and_eq_true, decide_eq_true_eq]
    omega
  have hSecond : isLowHalf (0xDC00 + low) = true := by
    simp only [isLowHalf, Bool.and_eq_true, decide_eq_true_eq]
    omega
  have hChar :
      Char.ofNat
          (0x10000 + (0xD800 + high - 0xD800) * 0x400 +
            (0xDC00 + low - 0xDC00)) = c := by
    rw [Nat.add_sub_cancel_left, Nat.add_sub_cancel_left, ← hc,
      Char.ofNat_toNat]
  rw [joinCodes?, hFirst, hSecond, hChar]
  simp

/- The text of a string is scanned as codes that give it back. -/
theorem exists_codes_of_spellsChars
    {s cs : List Char}
    (h : SpellsChars s cs) :
    ∃ codes,
      (∀ rest, scanCodes? (cs ++ '"' :: rest) = some (codes, rest)) ∧
        joinCodes? codes = some s := by
  induction h with
  | nil =>
      refine ⟨[], ?_, rfl⟩
      intro rest
      rfl
  | @plain c s cs hc _ ih =>
      rcases ih with ⟨codes, hScan, hJoin⟩
      refine ⟨c.toNat :: codes, ?_, ?_⟩
      · intro rest
        rw [List.cons_append,
          scanCodes?_plain hc.2.1 hc.2.2 (Nat.not_lt.mpr hc.1),
          hScan rest]
        rfl
      · rw [joinCodes?_cons, hJoin]
        rfl
  | @letter letter c s cs hc _ ih =>
      rcases ih with ⟨codes, hScan, hJoin⟩
      refine ⟨c.toNat :: codes, ?_, ?_⟩
      · intro rest
        rw [List.cons_append, List.cons_append,
          scanCodes?_letterEscape hc, hScan rest]
        rfl
      · rw [joinCodes?_cons, hJoin]
        rfl
  | @code c quad s cs hc _ ih =>
      rcases ih with ⟨codes, hScan, hJoin⟩
      refine ⟨c.toNat :: codes, ?_, ?_⟩
      · intro rest
        rw [List.cons_append, List.cons_append, List.append_assoc,
          scanCodes?_quad hc, hScan rest]
        rfl
      · rw [joinCodes?_cons, hJoin]
        rfl
  | @pair c high low quad other s cs hHigh hLow hQuad hOther hc _ ih =>
      rcases ih with ⟨codes, hScan, hJoin⟩
      refine ⟨(0xD800 + high) :: (0xDC00 + low) :: codes, ?_, ?_⟩
      · intro rest
        rw [List.cons_append, List.cons_append, List.append_assoc,
          scanCodes?_quad hQuad, List.cons_append, List.cons_append,
          List.append_assoc, scanCodes?_quad hOther, hScan rest]
        rfl
      · rw [joinCodes?_pair hHigh hLow hc, hJoin]
        rfl

/- A string in quotes is scanned as its token. -/
theorem scan?_of_spellsChars
    {s : String}
    {cs : List Char}
    (h : SpellsChars s.toList cs)
    (rest : List Char) :
    scan? ('"' :: (cs ++ '"' :: rest)) =
      some (.scalar (.string s), rest) := by
  rcases exists_codes_of_spellsChars h with ⟨codes, hScan, hJoin⟩
  simp [scan?, hScan rest, ofCodes, hJoin]

------------------------------------------------------------
-- Numbers
------------------------------------------------------------

/- The digits behind a point, and the point with them. -/
inductive SpellsFraction : Option (List Char) → List Char → Prop where
  | absent : SpellsFraction none []
  | present
      {ds : List Char}
      (hDigits : AllDigits ds)
      (hNonempty : ds ≠ []) :
      SpellsFraction (some ds) ('.' :: ds)

/- An exponent with its mark, in either case, and its sign. -/
inductive SpellsExponent : Option Int → List Char → Prop where
  | absent : SpellsExponent none []
  | positive
      {mark : Char}
      {sign ds : List Char}
      (hMark : mark = 'e' ∨ mark = 'E')
      (hSign : sign = [] ∨ sign = ['+'])
      (hDigits : AllDigits ds)
      (hNonempty : ds ≠ []) :
      SpellsExponent (some (Nat.ofDigitChars 10 ds 0))
        (mark :: (sign ++ ds))
  | negative
      {mark : Char}
      {ds : List Char}
      (hMark : mark = 'e' ∨ mark = 'E')
      (hDigits : AllDigits ds)
      (hNonempty : ds ≠ []) :
      SpellsExponent (some (-(Nat.ofDigitChars 10 ds 0 : Int)))
        (mark :: '-' :: ds)

namespace Numeral

/- The number is written so: sign, digits, fraction, exponent. -/
def SpelledBy (n : Numeral) (cs : List Char) : Prop :=
  WholeDigits n.whole ∧
    ∃ point power,
      SpellsFraction n.fraction point ∧
        SpellsExponent n.exponent power ∧
          cs =
            Binary64.signChars n.negative ++
              (n.whole ++ (point ++ power))

/- The number of the digits before the point. -/
def wholeValue (n : Numeral) : Nat :=
  Nat.ofDigitChars 10 n.whole 0

/-
  A number without point and exponent that fits in 64 bits, with
  a sign or without one.  Zero with a minus sign is none.
-/
def IsInteger (n : Numeral) : Prop :=
  n.fraction = none ∧ n.exponent = none ∧
    if n.negative then 0 < n.wholeValue ∧ n.wholeValue ≤ 2 ^ 63
    else n.wholeValue < 2 ^ 64

/- The integer that such a number is. -/
def integer (n : Numeral) : Int :=
  if n.negative then -(n.wholeValue : Int) else n.wholeValue

/- An integer is taken as one. -/
theorem toInt?_of_isInteger
    {n : Numeral}
    (h : n.IsInteger) :
    n.toInt? = some n.integer := by
  rcases h with ⟨hFraction, hExponent, hRange⟩
  have hLow : Int64.minValue.toInt = -(2 ^ 63 : Int) := by
    decide
  rw [toInt?, hFraction, hExponent, integer]
  cases hSign : n.negative with
  | true =>
      rw [hSign, if_pos rfl] at hRange
      have hMin : Int64.minValue.toInt ≤ -(n.wholeValue : Int) := by
        omega
      simp only [Option.isSome_none, Bool.false_eq_true, or_self,
        if_false, if_true]
      exact if_pos ⟨hRange.1, hMin⟩
  | false =>
      rw [hSign, if_neg Bool.false_ne_true] at hRange
      have hSize : Nat.ofDigitChars 10 n.whole 0 < UInt64.size :=
        hRange
      simp [wholeValue, hSize]

/- Any other number is not. -/
theorem toInt?_eq_none
    {n : Numeral}
    (h : ¬ n.IsInteger) :
    n.toInt? = none := by
  have hLow : Int64.minValue.toInt = -(2 ^ 63 : Int) := by
    decide
  rw [toInt?]
  by_cases hParts : n.fraction.isSome ∨ n.exponent.isSome
  · rw [if_pos hParts]
  · rw [if_neg hParts]
    simp only [not_or, Option.not_isSome_iff_eq_none] at hParts
    simp only [IsInteger, hParts.1, hParts.2, wholeValue,
      true_and] at h
    cases hSign : n.negative with
    | true =>
        simp only [hSign, if_true] at h ⊢
        rw [if_neg]
        omega
    | false =>
        simp only [hSign, Bool.false_eq_true, if_false] at h ⊢
        rw [if_neg]
        exact h

end Numeral

/- Behind a number nothing continues its digits or its point. -/
theorem head_of_spellsExponent
    {exponent : Option Int}
    {power rest : List Char}
    (h : SpellsExponent exponent power)
    (hRest : EndsNumber rest) :
    NoDigit (power ++ rest) ∧ (power ++ rest).head? ≠ some '.' := by
  have hMarked {mark : Char} (hMark : mark = 'e' ∨ mark = 'E')
      (cs : List Char) :
      NoDigit (mark :: cs) ∧ (mark :: cs).head? ≠ some '.' := by
    rcases hMark with rfl | rfl
    · exact ⟨forall_mem_head?_cons (by decide) cs, by simp⟩
    · exact ⟨forall_mem_head?_cons (by decide) cs, by simp⟩
  cases h with
  | absent =>
      refine ⟨hRest.noDigit, ?_⟩
      intro hHead
      exact (hRest '.' hHead).2.1 rfl
  | positive hMark => exact hMarked hMark _
  | negative hMark => exact hMarked hMark _

/- A fraction is scanned up to its end. -/
theorem scanFraction?_of_spells
    {fraction : Option (List Char)}
    {point behind : List Char}
    (h : SpellsFraction fraction point)
    (hDigit : NoDigit behind)
    (hPoint : behind.head? ≠ some '.') :
    scanFraction? (point ++ behind) = some (fraction, behind) := by
  cases h with
  | absent => exact scanFraction?_none hPoint
  | present hDigits hNonempty =>
      exact scanFraction?_point hDigits hNonempty hDigit

/- A point in front is no digit either. -/
theorem noDigit_of_spellsFraction
    {fraction : Option (List Char)}
    {point behind : List Char}
    (h : SpellsFraction fraction point)
    (hDigit : NoDigit behind) :
    NoDigit (point ++ behind) := by
  cases h with
  | absent => exact hDigit
  | present => exact forall_mem_head?_cons (by decide) _

/- An exponent is scanned up to its end. -/
theorem scanExponent?_of_spells
    {exponent : Option Int}
    {power rest : List Char}
    (h : SpellsExponent exponent power)
    (hRest : EndsNumber rest) :
    scanExponent? (power ++ rest) = some (exponent, rest) := by
  cases h with
  | absent => exact scanExponent?_none hRest
  | @positive mark sign ds hMark hSign hDigits hNonempty =>
      have hSplit :
          splitSign (sign ++ (ds ++ rest)) = (false, ds ++ rest) := by
        rcases hSign with rfl | rfl
        · have hMinus :=
            head?_digits_append_ne hDigits hNonempty
              (show '-'.isDigit = false by decide) rest
          have hPlus :=
            head?_digits_append_ne hDigits hNonempty
              (show '+'.isDigit = false by decide) rest
          rw [List.nil_append]
          unfold splitSign
          split
          · rename_i hEq
            rw [hEq] at hMinus
            exact absurd rfl hMinus
          · rename_i hEq
            rw [hEq] at hPlus
            exact absurd rfl hPlus
          · rfl
        · rfl
      simp [scanExponent?, hMark, hSplit,
        scanDigits?_append hDigits hNonempty hRest.noDigit,
        exponentOfDigits]
  | @negative mark ds hMark hDigits hNonempty =>
      simp [scanExponent?, hMark, splitSign,
        scanDigits?_append hDigits hNonempty hRest.noDigit,
        exponentOfDigits]

/- A number in any notation is scanned up to its end. -/
theorem scanNumeral?_of_spelled
    {n : Numeral}
    {cs rest : List Char}
    (h : n.SpelledBy cs)
    (hRest : EndsNumber rest) :
    scanNumeral? (cs ++ rest) = some (n, rest) := by
  rcases h with ⟨hWhole, point, power, hPoint, hPower, rfl⟩
  rcases head_of_spellsExponent hPower hRest with ⟨hDigit, hNoPoint⟩
  have hFraction := scanFraction?_of_spells hPoint hDigit hNoPoint
  have hExponent := scanExponent?_of_spells hPower hRest
  have hAfter := noDigit_of_spellsFraction hPoint hDigit
  simpa using
    scanNumeral?_parts n.negative hWhole hAfter hFraction hExponent

end Token

------------------------------------------------------------
-- Tokens
------------------------------------------------------------

/-
  The text of a scalar.  A number is an integer when it is
  written as one; any other is the nearest floating-point
  number, which has to be finite.
-/
inductive Scalar.SpelledBy : Scalar → List Char → Prop where
  | null : SpelledBy .null ['n', 'u', 'l', 'l']
  | true : SpelledBy (.bool true) ['t', 'r', 'u', 'e']
  | false : SpelledBy (.bool false) ['f', 'a', 'l', 's', 'e']
  | int
      {n : Token.Numeral}
      {cs : List Char}
      (hText : n.SpelledBy cs)
      (hInteger : n.IsInteger) :
      SpelledBy (.int n.integer) cs
  | float
      {n : Token.Numeral}
      {x : Binary64}
      {cs : List Char}
      (hText : n.SpelledBy cs)
      (hInteger : ¬ n.IsInteger)
      (hValue :
        Binary64.ofDecimal? n.negative
          (.ofDigits n.whole (n.fraction.getD [])
            (n.exponent.getD 0)) = some x) :
      SpelledBy (.float x) cs
  | string
      {s : String}
      {cs : List Char}
      (hText : Token.SpellsChars s.toList cs) :
      SpelledBy (.string s) ('"' :: (cs ++ ['"']))

namespace Token

/- The text of a token that stands in a tree. -/
inductive SpelledBy : Token → List Char → Prop where
  | openBrace : SpelledBy .openBrace ['\x7b']
  | closeBrace : SpelledBy .closeBrace ['\x7d']
  | openBracket : SpelledBy .openBracket ['[']
  | closeBracket : SpelledBy .closeBracket [']']
  | comma : SpelledBy .comma [',']
  | colon : SpelledBy .colon [':']
  | scalar
      {s : Scalar}
      {cs : List Char}
      (hText : s.SpelledBy cs) :
      SpelledBy (.scalar s) cs

/- Nothing but white space. -/
def IsGap (cs : List Char) : Prop :=
  ∀ c ∈ cs, c = ' ' ∨ c = '\t' ∨ c = '\n' ∨ c = '\r'

instance (cs : List Char) : Decidable (IsGap cs) :=
  List.decidableBAll _ cs

/- The tokens stand in the text, with white space around them. -/
inductive SpellsAll : List Token → List Char → Prop where
  | nil
      {gap : List Char}
      (hGap : IsGap gap) :
      SpellsAll [] gap
  | cons
      {t : Token}
      {ts : List Token}
      {gap cs rest : List Char}
      (hGap : IsGap gap)
      (ht : t.SpelledBy cs)
      (hRest : SpellsAll ts rest) :
      SpellsAll (t :: ts) (gap ++ (cs ++ rest))

/- A scalar is scanned up to its end. -/
theorem scan?_of_scalar
    {s : Scalar}
    {cs rest : List Char}
    (h : s.SpelledBy cs)
    (hRest : EndsNumber rest) :
    scan? (cs ++ rest) = some (.scalar s, rest) := by
  cases h with
  | null => rfl
  | true => rfl
  | false => rfl
  | int hText hInteger =>
      rw [scan?_of_scanNumeral? (scanNumeral?_of_spelled hText hRest),
        Numeral.toToken, Numeral.toInt?_of_isInteger hInteger]
  | float hText hInteger hValue =>
      rw [scan?_of_scanNumeral? (scanNumeral?_of_spelled hText hRest),
        Numeral.toToken, Numeral.toInt?_eq_none hInteger,
        Numeral.toFloat?, hValue]
  | string hText =>
      simpa using scan?_of_spellsChars hText rest

/- The token is a scalar. -/
def isScalar : Token → Bool
  | .scalar _ => true
  | _ => false

/- A token is scanned up to its end. -/
theorem scan?_of_spelled
    {t : Token}
    {cs rest : List Char}
    (h : t.SpelledBy cs)
    (hRest : t.isScalar = true → EndsNumber rest) :
    scan? (cs ++ rest) = some (t, rest) := by
  cases h with
  | scalar hText => exact scan?_of_scalar hText (hRest rfl)
  | openBrace | closeBrace | openBracket | closeBracket
  | comma | colon => rfl

/- A token has at least one character. -/
theorem SpelledBy.ne_nil
    {t : Token}
    {cs : List Char}
    (h : t.SpelledBy cs) :
    cs ≠ [] := by
  intro hNil
  subst hNil
  have hScan : scan? ([] ++ []) = some (t, []) :=
    scan?_of_spelled h fun _ => endsNumber_nil
  simp [scan?, scanNumeral?, splitMinus, scanWhole?,
    scanDigits?] at hScan

------------------------------------------------------------
-- Lexing
------------------------------------------------------------

/- No scalar comes first. -/
def LeadsWithMark (ts : List Token) : Prop :=
  ∀ t ∈ ts.head?, t.isScalar = false

/- No scalar stands next to another. -/
def Separated : List Token → Prop
  | [] => True
  | t :: ts => (t.isScalar = true → LeadsWithMark ts) ∧ Separated ts

/- White space takes a step a character. -/
theorem lexWithin_gap
    {gap : List Char}
    (hGap : IsGap gap)
    (cs : List Char)
    (steps : Nat) :
    lexWithin (gap.length + steps) (gap ++ cs) =
      lexWithin steps cs := by
  induction gap with
  | nil => simp
  | cons c gap ih =>
      have hFirst : isGap c = true := by
        rcases hGap c (by simp) with rfl | rfl | rfl | rfl
        · rfl
        · rfl
        · rfl
        · rfl
      have hMore : IsGap gap := by
        intro d hd
        exact hGap d (List.mem_cons_of_mem c hd)
      rw [List.length_cons, Nat.add_right_comm, List.cons_append,
        lexWithin, if_pos hFirst, ih hMore]

/- Neither white space nor a mark continues a number. -/
theorem endsNumber_of_spellsAll
    {ts : List Token}
    {cs : List Char}
    (h : SpellsAll ts cs)
    (hLead : LeadsWithMark ts) :
    EndsNumber cs := by
  have hGapHead {c : Char} {gap : List Char}
      (hGap : IsGap (c :: gap)) (rest : List Char) :
      EndsNumber (c :: rest) := by
    rcases hGap c (by simp) with rfl | rfl | rfl | rfl
    · exact forall_mem_head?_cons (by decide) rest
    · exact forall_mem_head?_cons (by decide) rest
    · exact forall_mem_head?_cons (by decide) rest
    · exact forall_mem_head?_cons (by decide) rest
  cases h with
  | nil hGap =>
      cases cs with
      | nil => exact endsNumber_nil
      | cons c gap => exact hGapHead hGap gap
  | @cons t ts gap cs rest hGap ht _ =>
      cases gap with
      | cons c gap => exact hGapHead hGap _
      | nil =>
          have hMark : t.isScalar = false := hLead t (by simp)
          cases ht with
          | scalar => cases hMark
          | openBrace | closeBrace | openBracket | closeBracket
          | comma | colon => exact forall_mem_head?_cons (by decide) rest

/- The lexer finds the tokens of a text, given steps enough. -/
theorem lexWithin_of_spellsAll
    {ts : List Token}
    {cs : List Char}
    (h : SpellsAll ts cs)
    (hSeparated : Separated ts)
    {steps : Nat}
    (hSteps : cs.length < steps) :
    lexWithin steps cs = ts := by
  induction h generalizing steps with
  | @nil gap hGap =>
      obtain ⟨extra, rfl⟩ : ∃ extra, steps = gap.length + (extra + 1) :=
        ⟨steps - gap.length - 1, by omega⟩
      have hLex := lexWithin_gap hGap [] (extra + 1)
      rw [List.append_nil] at hLex
      rw [hLex, lexWithin]
  | @cons t ts gap cs rest hGap ht hRest ih =>
      have hLength : 0 < cs.length :=
        List.length_pos_iff.mpr ht.ne_nil
      rw [List.length_append, List.length_append] at hSteps
      obtain ⟨extra, rfl⟩ : ∃ extra, steps = gap.length + (extra + 1) :=
        ⟨steps - gap.length - 1, by omega⟩
      have hScan : scan? (cs ++ rest) = some (t, rest) := by
        apply scan?_of_spelled ht
        intro hScalar
        exact endsNumber_of_spellsAll hRest (hSeparated.1 hScalar)
      rw [lexWithin_gap hGap, lexWithin_succ hScan,
        ih hSeparated.2 (by omega)]

/- The tokens of a text are found. -/
theorem lex_of_spelled
    {ts : List Token}
    {cs : List Char}
    (h : SpellsAll ts cs)
    (hSeparated : Separated ts) :
    lex cs = ts := by
  apply lexWithin_of_spellsAll h hSeparated
  exact Nat.lt_succ_self cs.length

end Token

------------------------------------------------------------
-- Trees
------------------------------------------------------------

namespace Json

/- The text spells the tree. -/
def SpelledBy (j : Json) (text : String) : Prop :=
  Token.SpellsAll j.tokens text.toList

/- A mark in front separates nothing and joins nothing. -/
theorem separated_mark
    {t : Token}
    (ht : t.isScalar = false)
    {ts : List Token}
    (hts : Token.Separated ts) :
    Token.LeadsWithMark (t :: ts) ∧ Token.Separated (t :: ts) := by
  refine ⟨?_, ?_, hts⟩
  · intro u hu
    simp only [List.head?_cons, Option.mem_some_iff] at hu
    rw [← hu]
    exact ht
  · intro hScalar
    rw [ht] at hScalar
    cases hScalar

mutual

/- In the tokens of a tree no two scalars stand together. -/
theorem separated_tokens :
    ∀ (j : Json) {ts : List Token},
      Token.LeadsWithMark ts → Token.Separated ts →
        Token.Separated (j.tokens ++ ts)
  | .scalar s, ts, hLead, hts => ⟨fun _ => hLead, hts⟩
  | .array items, ts, _, hts => by
      have hClose := separated_mark (t := .closeBracket) rfl hts
      have hItems := separated_itemTokens items hClose.1 hClose.2
      have hOpen := separated_mark (t := .openBracket) rfl hItems
      simpa [tokens] using hOpen.2
  | .object fields, ts, _, hts => by
      have hClose := separated_mark (t := .closeBrace) rfl hts
      have hFields := separated_fieldTokens fields hClose.1 hClose.2
      have hOpen := separated_mark (t := .openBrace) rfl hFields
      simpa [tokens] using hOpen.2

theorem separated_itemTokens :
    ∀ (items : List Json) {ts : List Token},
      Token.LeadsWithMark ts → Token.Separated ts →
        Token.Separated (itemTokens items ++ ts)
  | [], ts, _, hts => hts
  | [item], ts, hLead, hts => separated_tokens item hLead hts
  | item :: next :: more, ts, hLead, hts => by
      have hMore := separated_itemTokens (next :: more) hLead hts
      have hComma := separated_mark (t := .comma) rfl hMore
      have hItem := separated_tokens item hComma.1 hComma.2
      simpa [itemTokens] using hItem

theorem separated_fieldTokens :
    ∀ (fields : List (String × Json)) {ts : List Token},
      Token.LeadsWithMark ts → Token.Separated ts →
        Token.Separated (fieldTokens fields ++ ts)
  | [], ts, _, hts => hts
  | [(key, value)], ts, hLead, hts => by
      have hValue := separated_tokens value hLead hts
      have hColon := separated_mark (t := .colon) rfl hValue
      exact ⟨fun _ => hColon.1, hColon.2⟩
  | (key, value) :: next :: more, ts, hLead, hts => by
      have hMore := separated_fieldTokens (next :: more) hLead hts
      have hComma := separated_mark (t := .comma) rfl hMore
      have hValue := separated_tokens value hComma.1 hComma.2
      have hColon := separated_mark (t := .colon) rfl hValue
      have hKey :
          Token.Separated
            (.scalar (.string key) :: .colon ::
              (value.tokens ++
                .comma :: (fieldTokens (next :: more) ++ ts))) :=
        ⟨fun _ => hColon.1, hColon.2⟩
      simpa [fieldTokens] using hKey

end

/- A text is taken apart into the tokens of its tree. -/
theorem lex_of_spelledBy
    {j : Json}
    {text : String}
    (h : j.SpelledBy text) :
    Token.lex text.toList = j.tokens := by
  have hSeparated :
      Token.Separated (j.tokens ++ []) := by
    apply separated_tokens j
    · intro t ht
      cases ht
    · trivial
  rw [List.append_nil] at hSeparated
  exact Token.lex_of_spelled h hSeparated

end Json

/- A text is read like the tree that it spells. -/
theorem Reader.run_of_spelled
    {α : Type}
    (read : Reader α)
    {j : Json}
    {text : String}
    (h : j.SpelledBy text) :
    run read text = read 127 j.toNode := by
  have hParse := j.parse_tokens []
  rw [List.append_nil] at hParse
  simp only [run, Json.lex_of_spelledBy h, hParse]
  cases read 127 j.toNode with
  | error e => rfl
  | ok x => rfl

end GraphBag
