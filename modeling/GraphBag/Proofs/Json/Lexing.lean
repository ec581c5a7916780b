import GraphBag.Json.Writer
import GraphBag.Proofs.Json.Numeral

/-
  The tokens of a written tree are read back from its text.

  Main declarations:
    * `Scalar.Writable`
    * `Json.Writable`
    * `Token.scan?_scalarChars`
    * `Json.lexes_tokens`
    * `Json.lex_chars`
-/

namespace GraphBag

------------------------------------------------------------
-- Strings
------------------------------------------------------------

namespace Token

/- The digits of the code of a control character. -/
theorem hexQuad?_control :
    ∀ n < 0x20,
      hexQuad? '0' '0' (Nat.digitChar (n / 16))
        (Nat.digitChar (n % 16)) = some n := by
  decide

/- A plain character stands for its own code. -/
theorem scanCodes?_plain
    {c : Char}
    (hQuote : c ≠ '"')
    (hSlash : c ≠ '\\')
    (hControl : ¬ c.toNat < 0x20)
    (cs : List Char) :
    scanCodes? (c :: cs) =
      (scanCodes? cs).map fun (ns, tail) => (c.toNat :: ns, tail) := by
  rw [scanCodes?]
  · rw [if_neg hControl]
  · exact hQuote
  · intro _ _ _ _ _ h _
    exact hSlash h
  · intro _ _ h _
    exact hSlash h

/- An escape of one letter stands for its code. -/
theorem scanCodes?_letter
    {letter : Char}
    {code : Nat}
    (hLetter : letter ≠ 'u')
    (hCode : escapeCode? letter = some code)
    (cs : List Char) :
    scanCodes? ('\\' :: letter :: cs) =
      (scanCodes? cs).map fun (ns, tail) => (code :: ns, tail) := by
  rw [scanCodes?]
  · rw [hCode]
    cases scanCodes? cs with
    | none => rfl
    | some found => rfl
  · intro _ _ _ _ _ h _
    exact hLetter h

/- Each escaped character is scanned as its own code. -/
theorem scanCodes?_escapeChar
    (c : Char)
    (cs : List Char) :
    scanCodes? (escapeChar c ++ cs) =
      (scanCodes? cs).map fun (ns, tail) => (c.toNat :: ns, tail) := by
  unfold escapeChar
  by_cases hSelf : c = '"' ∨ c = '\\'
  · rw [if_pos hSelf]
    rcases hSelf with rfl | rfl
    · exact scanCodes?_letter (by decide) rfl cs
    · exact scanCodes?_letter (by decide) rfl cs
  rw [if_neg hSelf]
  by_cases hBack : c.toNat = 0x08
  · rw [if_pos hBack, hBack]
    exact scanCodes?_letter (by decide) rfl cs
  rw [if_neg hBack]
  by_cases hFeed : c.toNat = 0x0C
  · rw [if_pos hFeed, hFeed]
    exact scanCodes?_letter (by decide) rfl cs
  rw [if_neg hFeed]
  by_cases hLine : c = '\n'
  · subst hLine
    exact scanCodes?_letter (by decide) rfl cs
  rw [if_neg hLine]
  by_cases hReturn : c = '\r'
  · subst hReturn
    exact scanCodes?_letter (by decide) rfl cs
  rw [if_neg hReturn]
  by_cases hTab : c = '\t'
  · subst hTab
    exact scanCodes?_letter (by decide) rfl cs
  rw [if_neg hTab]
  by_cases hControl : c.toNat < 0x20
  · rw [if_pos hControl]
    simp only [List.cons_append, List.nil_append, scanCodes?,
      hexQuad?_control _ hControl]
    cases scanCodes? cs with
    | none => rfl
    | some found => rfl
  · rw [if_neg hControl]
    exact scanCodes?_plain (fun h => hSelf (Or.inl h))
      (fun h => hSelf (Or.inr h)) hControl cs

/- The codes of a string are scanned up to its closing quote. -/
theorem scanCodes?_escaped
    (cs rest : List Char) :
    scanCodes? (cs.flatMap escapeChar ++ '"' :: rest) =
      some (cs.map Char.toNat, rest) := by
  induction cs with
  | nil => rfl
  | cons c cs ih =>
      rw [List.flatMap_cons, List.append_assoc, scanCodes?_escapeChar,
        ih]
      rfl

/- No character is half of a surrogate pair. -/
theorem not_half (c : Char) :
    isHighHalf c.toNat = false ∧ isLowHalf c.toNat = false := by
  have hValid := c.valid
  simp only [UInt32.isValidChar, Nat.isValidChar] at hValid
  have hNat : c.toNat = c.val.toNat := rfl
  simp only [isHighHalf, isLowHalf, Bool.and_eq_false_iff,
    decide_eq_false_iff_not]
  omega

/- The codes of characters are joined to these characters. -/
theorem joinCodes?_map_toNat (cs : List Char) :
    joinCodes? (cs.map Char.toNat) = some cs := by
  induction cs with
  | nil => rfl
  | cons c cs ih =>
      cases cs with
      | nil => simp [joinCodes?, not_half, Char.ofNat_toNat]
      | cons next more =>
          simp only [List.map_cons] at ih
          simp [joinCodes?, not_half, ih, Char.ofNat_toNat]

/- A string is read back from its text. -/
theorem scan?_stringChars
    (s : String)
    (rest : List Char) :
    scan? (stringChars s ++ rest) =
      some (.scalar (.string s), rest) := by
  have hCodes := scanCodes?_escaped s.toList rest
  simp [stringChars, scan?, hCodes, ofCodes, joinCodes?_map_toNat]

------------------------------------------------------------
-- Scalars
------------------------------------------------------------

/- A number is scanned where a text starts like one. -/
theorem scan?_numeral
    {c : Char}
    (hc : c.isDigit = true ∨ c = '-')
    (cs : List Char) :
    scan? (c :: cs) =
      (scanNumeral? (c :: cs)).map fun (n, rest) =>
        (n.toToken, rest) := by
  have hNot :
      ∀ d : Char, d.isDigit = false → d ≠ '-' → c ≠ d := by
    intro d hDigit hMinus hEq
    subst hEq
    rcases hc with h | h
    · rw [hDigit] at h
      exact Bool.noConfusion h
    · exact hMinus h
  unfold scan?
  split <;> simp_all

end Token

/-
  A scalar that its text stands for: its integers have 64 bits
  and its floating-point numbers are finite.
-/
def Scalar.Writable : Scalar → Prop
  | .int n => Int64.minValue.toInt ≤ n ∧ n < UInt64.size
  | .float x => x.isFinite = true
  | _ => True

namespace Token

/- The layout of numbers in JSON text can be read back. -/
theorem readable_json : Layout.json.Readable where
  whole := rfl
  positive := Or.inr rfl
  bounded := by
    intro e he
    simp only [Layout.json, Bool.and_eq_true, decide_eq_true_eq] at he
    omega

/- A numeral starts with a digit or a minus sign. -/
theorem head_of_scanNumeral?
    {cs rest : List Char}
    {n : Numeral}
    (h : scanNumeral? cs = some (n, rest)) :
    ∃ c tail, cs = c :: tail ∧ (c.isDigit = true ∨ c = '-') := by
  cases cs with
  | nil => simp [scanNumeral?, splitMinus, scanWhole?, scanDigits?] at h
  | cons c tail =>
      refine ⟨c, tail, rfl, ?_⟩
      by_cases hDigit : c.isDigit = true
      · exact Or.inl hDigit
      · by_cases hMinus : c = '-'
        · exact Or.inr hMinus
        · simp [scanNumeral?, splitMinus, hMinus, scanWhole?,
            scanDigits?, hDigit] at h

/- A text that starts with a numeral is scanned as its token. -/
theorem scan?_of_scanNumeral?
    {cs rest : List Char}
    {n : Numeral}
    (h : scanNumeral? cs = some (n, rest)) :
    scan? cs = some (n.toToken, rest) := by
  rcases head_of_scanNumeral? h with ⟨c, tail, rfl, hHead⟩
  rw [scan?_numeral hHead, h]
  rfl

/- A writable scalar is read back from its text. -/
theorem scan?_scalarChars
    {s : Scalar}
    (hs : s.Writable)
    {rest : List Char}
    (hRest : EndsNumber rest) :
    scan? (scalarChars s ++ rest) = some (.scalar s, rest) := by
  cases s with
  | null => rfl
  | bool b => cases b <;> rfl
  | int n =>
      have hScan := scan?_of_scanNumeral? (scanNumeral?_intChars n hRest)
      simpa [scalarChars, Numeral.toToken,
        toInt?_digits n hs.1 hs.2] using hScan
  | float x =>
      have hFinite : x.isFinite = true := hs
      rcases scanNumeral?_floatChars readable_json hFinite hRest with
        ⟨n, hScan, hToken⟩
      simp only [scalarChars, hFinite, if_true]
      rw [scan?_of_scanNumeral? hScan, hToken]
  | string s => exact scan?_stringChars s rest

/- No token starts with a gap. -/
theorem scan?_gap
    {c : Char}
    (hc : isGap c = true)
    (cs : List Char) :
    scan? (c :: cs) = none := by
  simp only [isGap, Bool.or_eq_true, decide_eq_true_eq] at hc
  rcases hc with ((rfl | rfl) | rfl) | rfl <;>
    simp [scan?, scanNumeral?, splitMinus, scanWhole?, scanDigits?]

/- One step of the lexer takes one token. -/
theorem lexWithin_succ
    {cs rest : List Char}
    {t : Token}
    (h : scan? cs = some (t, rest))
    (steps : Nat) :
    lexWithin (steps + 1) cs = t :: lexWithin steps rest := by
  cases cs with
  | nil => simp [scan?, scanNumeral?, splitMinus, scanWhole?,
      scanDigits?] at h
  | cons c cs =>
      have hGap : isGap c = false := by
        by_contra hGap
        rw [scan?_gap (by simpa using hGap) cs] at h
        cases h
      simp [lexWithin, hGap, h]

/- A writable scalar has at least one character. -/
theorem length_scalarChars_pos
    {s : Scalar}
    (hs : s.Writable) :
    0 < (scalarChars s).length := by
  have hScan := scan?_scalarChars hs endsNumber_nil
  cases hChars : scalarChars s with
  | nil =>
      rw [hChars] at hScan
      simp [scan?, scanNumeral?, splitMinus, scanWhole?,
        scanDigits?] at hScan
  | cons c cs => simp

/-
  The lexer takes tokens off a text, one at a step and each with
  at least one character.
-/
structure Lexes (cs rest : List Char) (ts : List Token) : Prop where
  taken :
    ∀ steps,
      lexWithin (ts.length + steps) cs = ts ++ lexWithin steps rest
  length : ts.length + rest.length ≤ cs.length

/- No token is taken in no step. -/
theorem lexes_nil (cs : List Char) : Lexes cs cs [] where
  taken := by simp
  length := by simp

/- A token at the front is taken first. -/
theorem Lexes.cons
    {cs mid rest : List Char}
    {t : Token}
    {ts : List Token}
    (hFirst : scan? cs = some (t, mid))
    (hLess : mid.length < cs.length)
    (hRest : Lexes mid rest ts) :
    Lexes cs rest (t :: ts) where
  taken := by
    intro steps
    rw [List.length_cons, Nat.add_right_comm, lexWithin_succ hFirst,
      hRest.taken steps, List.cons_append]
  length := by
    have hLength := hRest.length
    rw [List.length_cons]
    omega

/- Tokens are taken in turn. -/
theorem Lexes.append
    {cs mid rest : List Char}
    {ts us : List Token}
    (hFirst : Lexes cs mid ts)
    (hRest : Lexes mid rest us) :
    Lexes cs rest (ts ++ us) where
  taken := by
    intro steps
    rw [List.length_append, Nat.add_assoc, hFirst.taken, hRest.taken,
      List.append_assoc]
  length := by
    have hLength := hFirst.length
    have hLength' := hRest.length
    rw [List.length_append]
    omega

/- A mark of one character is taken first. -/
theorem Lexes.mark
    {c : Char}
    {mid rest : List Char}
    {t : Token}
    {ts : List Token}
    (hFirst : scan? (c :: mid) = some (t, mid))
    (hRest : Lexes mid rest ts) :
    Lexes (c :: mid) rest (t :: ts) :=
  Lexes.cons hFirst (by simp) hRest

/- A key is taken first. -/
theorem Lexes.key
    (key : String)
    {mid rest : List Char}
    {ts : List Token}
    (hRest : Lexes mid rest ts) :
    Lexes (stringChars key ++ mid) rest
      (.scalar (.string key) :: ts) := by
  apply Lexes.cons (scan?_stringChars key mid) _ hRest
  simp only [stringChars, List.length_append, List.length_cons]
  omega

end Token

------------------------------------------------------------
-- Trees
------------------------------------------------------------

namespace Json

mutual

/- Every scalar inside can be written. -/
def Writable : Json → Prop
  | .scalar s => s.Writable
  | .array items => WritableItems items
  | .object fields => WritableFields fields

/- All items of an array can be written. -/
def WritableItems : List Json → Prop
  | [] => True
  | item :: rest => item.Writable ∧ WritableItems rest

/- All field values of an object can be written. -/
def WritableFields : List (String × Json) → Prop
  | [] => True
  | (_, value) :: rest => value.Writable ∧ WritableFields rest

end

/- Items can be written exactly when each of them can. -/
theorem writableItems_iff
    (items : List Json) :
    WritableItems items ↔ ∀ item ∈ items, item.Writable := by
  induction items with
  | nil => simp [WritableItems]
  | cons item rest ih => simp [WritableItems, ih]

/- Fields can be written exactly when each of their values can. -/
theorem writableFields_iff
    (fields : List (String × Json)) :
    WritableFields fields ↔ ∀ field ∈ fields, field.2.Writable := by
  induction fields with
  | nil => simp [WritableFields]
  | cons field rest ih =>
      rcases field with ⟨key, value⟩
      simp [WritableFields, ih]

mutual

/- The lexer takes the tokens of a written tree off its text. -/
theorem lexes_tokens :
    ∀ {j : Json} {rest : List Char},
      j.Writable → EndsNumber rest →
        Token.Lexes (j.tokens.flatMap Token.chars ++ rest) rest
          j.tokens
  | .scalar s, rest, hj, hRest => by
      have hScan := Token.scan?_scalarChars (s := s) hj hRest
      have hPos := Token.length_scalarChars_pos (s := s) hj
      simpa [tokens, Token.chars] using
        Token.Lexes.cons hScan (by simpa using hPos)
          (Token.lexes_nil rest)
  | .array items, rest, hj, _ => by
      have hEnds : EndsNumber (']' :: rest) :=
        forall_mem_head?_cons (by decide) rest
      have hItems := lexes_itemTokens hj hEnds
      have hClose : Token.Lexes (']' :: rest) rest [.closeBracket] :=
        Token.Lexes.mark rfl (Token.lexes_nil rest)
      simpa [tokens, Token.chars] using
        Token.Lexes.mark (c := '[') rfl (hItems.append hClose)
  | .object fields, rest, hj, _ => by
      have hEnds : EndsNumber ('\x7d' :: rest) :=
        forall_mem_head?_cons (by decide) rest
      have hFields := lexes_fieldTokens hj hEnds
      have hClose : Token.Lexes ('\x7d' :: rest) rest [.closeBrace] :=
        Token.Lexes.mark rfl (Token.lexes_nil rest)
      simpa [tokens, Token.chars] using
        Token.Lexes.mark (c := '\x7b') rfl (hFields.append hClose)

/- So it does with the tokens of array items. -/
theorem lexes_itemTokens :
    ∀ {items : List Json} {rest : List Char},
      WritableItems items → EndsNumber rest →
        Token.Lexes ((itemTokens items).flatMap Token.chars ++ rest)
          rest (itemTokens items)
  | [], rest, _, _ => by
      exact Token.lexes_nil rest
  | [item], rest, hItems, hRest => by
      exact lexes_tokens hItems.1 hRest
  | item :: next :: more, rest, hItems, hRest => by
      have hMore := lexes_itemTokens hItems.2 hRest
      have hItem := lexes_tokens hItems.1
        (forall_mem_head?_cons (c := ',') (by decide)
          ((itemTokens (next :: more)).flatMap Token.chars ++ rest))
      simpa [itemTokens, Token.chars] using
        hItem.append (Token.Lexes.mark rfl hMore)

/- And with the tokens of object fields. -/
theorem lexes_fieldTokens :
    ∀ {fields : List (String × Json)} {rest : List Char},
      WritableFields fields → EndsNumber rest →
        Token.Lexes ((fieldTokens fields).flatMap Token.chars ++ rest)
          rest (fieldTokens fields)
  | [], rest, _, _ => by
      exact Token.lexes_nil rest
  | [(key, value)], rest, hFields, hRest => by
      have hValue := lexes_tokens hFields.1 hRest
      simpa [fieldTokens, Token.chars, Token.scalarChars] using
        Token.Lexes.key key (Token.Lexes.mark (c := ':') rfl hValue)
  | (key, value) :: next :: more, rest, hFields, hRest => by
      have hMore := lexes_fieldTokens hFields.2 hRest
      have hValue := lexes_tokens hFields.1
        (forall_mem_head?_cons (c := ',') (by decide)
          ((fieldTokens (next :: more)).flatMap Token.chars ++ rest))
      have hPair := hValue.append (Token.Lexes.mark rfl hMore)
      simpa [fieldTokens, Token.chars, Token.scalarChars] using
        Token.Lexes.key key (Token.Lexes.mark (c := ':') rfl hPair)

end

/- The tokens of a written tree are read back from its text. -/
theorem lex_chars
    {j : Json}
    (hj : j.Writable) :
    Token.lex j.chars = j.tokens := by
  have hLexes := lexes_tokens hj endsNumber_nil
  have hLength := hLexes.length
  have hTaken :=
    hLexes.taken (j.chars.length - j.tokens.length + 1)
  simp only [List.append_nil, List.length_nil, Nat.add_zero] at hLength hTaken
  have hSteps :
      j.tokens.length + (j.chars.length - j.tokens.length + 1) =
        j.chars.length + 1 := by
    unfold chars
    omega
  rw [hSteps] at hTaken
  simpa [Token.lex, Token.lexWithin, chars] using hTaken

end Json

end GraphBag
