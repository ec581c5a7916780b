import GraphBag.Proofs.Json.Grammar
import GraphBag.Proofs.Json.Nesting
import GraphBag.Proofs.Json.Reading
import Mathlib.Data.List.TakeWhile

/-
  Nothing but JSON is read.  A text from which a tree is read is
  a spelling of that tree in the grammar, so that the readers of
  whole trees take the spellings and no other text.

  Main declarations:
    * `Token.spellsChars_of_scanCodes?`
    * `Token.spelledBy_of_scanNumeral?`
    * `Token.spellsAll_of_lex`
    * `Node.tokens_of_parseValue`
    * `Reader.run_json_eq_ok_iff`
-/

namespace GraphBag

namespace Token

------------------------------------------------------------
-- Strings
------------------------------------------------------------

/- Characters with a hexadecimal value are such digits. -/
theorem isHexDigit_of_hexValue?
    {c : Char}
    {n : Nat}
    (h : hexValue? c = some n) :
    IsHexDigit c n := by
  have hBelow {d : Char} (hd : c ≤ d) : c.toNat ≤ d.toNat :=
    UInt32.le_iff_toNat_le.mp hd
  have hSmall : c.toNat < 128 := by
    unfold hexValue? at h
    split at h
    · rename_i hDigit
      simp only [Char.isDigit, Bool.and_eq_true,
        decide_eq_true_eq] at hDigit
      exact Nat.lt_of_le_of_lt (hBelow hDigit.2) (by decide)
    · split at h
      · rename_i hLower
        exact Nat.lt_of_le_of_lt (hBelow hLower.2) (by decide)
      · split at h
        · rename_i hUpper
          exact Nat.lt_of_le_of_lt (hBelow hUpper.2) (by decide)
        · simp at h
  have hAll :
      ∀ k < 128,
        (hexValue? (Char.ofNat k)).all
          (fun n => IsHexDigit (Char.ofNat k) n) = true := by
    decide
  have hChar := hAll c.toNat hSmall
  rw [Char.ofNat_toNat, h] at hChar
  simpa using hChar

theorem isHexQuad_of_hexQuad?
    {a b c d : Char}
    {n : Nat}
    (h : hexQuad? a b c d = some n) :
    IsHexQuad [a, b, c, d] n := by
  simp only [hexQuad?, Option.bind_eq_bind, Option.bind_eq_some_iff,
    Option.some.injEq] at h
  rcases h with ⟨k, hk, l, hl, m, hm, n, hn, rfl⟩
  exact .digits (isHexDigit_of_hexValue? hk)
    (isHexDigit_of_hexValue? hl) (isHexDigit_of_hexValue? hm)
    (isHexDigit_of_hexValue? hn)

theorem exists_of_escapeCode?
    {letter : Char}
    {n : Nat}
    (h : escapeCode? letter = some n) :
    ∃ c, (letter, c) ∈ letterEscapes ∧ c.toNat = n := by
  unfold escapeCode? at h
  split_ifs at h with hSelf hBack hForm hLine hReturn hTab
  · simp only [Option.some.injEq] at h
    rcases hSelf with rfl | rfl | rfl
    · exact ⟨'"', by decide, h⟩
    · exact ⟨'\\', by decide, h⟩
    · exact ⟨'/', by decide, h⟩
  · subst hBack
    exact ⟨'\x08', by decide, by simpa using h⟩
  · subst hForm
    exact ⟨'\x0C', by decide, by simpa using h⟩
  · subst hLine
    exact ⟨'\n', by decide, by simpa using h⟩
  · subst hReturn
    exact ⟨'\r', by decide, by simpa using h⟩
  · subst hTab
    exact ⟨'\t', by decide, by simpa using h⟩

/-
  The text between quotes, a code for each plain character and
  for each escape; the halves of a pair are not joined yet.
-/
inductive SpellsCodes : List Nat → List Char → Prop where
  | nil : SpellsCodes [] []
  | plain
      {c : Char}
      {codes : List Nat}
      {cs : List Char}
      (hc : IsPlain c)
      (hCodes : SpellsCodes codes cs) :
      SpellsCodes (c.toNat :: codes) (c :: cs)
  | letter
      {letter c : Char}
      {codes : List Nat}
      {cs : List Char}
      (hc : (letter, c) ∈ letterEscapes)
      (hCodes : SpellsCodes codes cs) :
      SpellsCodes (c.toNat :: codes) ('\\' :: letter :: cs)
  | code
      {n : Nat}
      {codes : List Nat}
      {quad cs : List Char}
      (hn : IsHexQuad quad n)
      (hCodes : SpellsCodes codes cs) :
      SpellsCodes (n :: codes) ('\\' :: 'u' :: (quad ++ cs))

/- Codes are scanned from a text that spells them. -/
theorem spellsCodes_of_scanCodes?
    {cs rest : List Char}
    {codes : List Nat}
    (h : scanCodes? cs = some (codes, rest)) :
    ∃ body, cs = body ++ '"' :: rest ∧ SpellsCodes codes body := by
  fun_induction scanCodes? cs generalizing codes with
  | case1 => simp at h
  | case2 tail =>
      simp only [Option.some.injEq, Prod.mk.injEq] at h
      rcases h with ⟨rfl, rfl⟩
      exact ⟨[], rfl, .nil⟩
  | case3 a b c d cs n ns tail hScan hQuad ih =>
      simp only [Option.some.injEq, Prod.mk.injEq] at h
      rcases h with ⟨rfl, rfl⟩
      rcases ih hScan with ⟨body, rfl, hBody⟩
      exact ⟨'\\' :: 'u' :: ([a, b, c, d] ++ body), by simp,
        .code (isHexQuad_of_hexQuad? hQuad) hBody⟩
  | case5 letter cs _ n ns tail hScan hLetter ih =>
      simp only [Option.some.injEq, Prod.mk.injEq] at h
      rcases h with ⟨rfl, rfl⟩
      rcases ih hScan with ⟨body, rfl, hBody⟩
      rcases exists_of_escapeCode? hLetter with ⟨c, hc, rfl⟩
      exact ⟨'\\' :: letter :: body, by simp, .letter hc hBody⟩
  | case8 c cs hQuote _ hSlash hControl ih =>
      rcases Option.map_eq_some_iff.mp h with ⟨⟨ns, tail⟩, hScan, hEq⟩
      simp only [Prod.mk.injEq] at hEq
      rcases hEq with ⟨rfl, rfl⟩
      have hPlain : IsPlain c := by
        refine ⟨Nat.not_lt.mp hControl, hQuote, ?_⟩
        intro hc
        -- A backslash with something behind it is an escape.
        cases cs with
        | nil => simp [scanCodes?] at hScan
        | cons d ds => exact hSlash d ds hc rfl
      rcases ih hScan with ⟨body, rfl, hBody⟩
      exact ⟨c :: body, rfl, .plain hPlain hBody⟩
  | case4 | case6 | case7 => simp at h

/- Four digits have a number below 65536. -/
theorem IsHexQuad.lt
    {quad : List Char}
    {n : Nat}
    (h : IsHexQuad quad n) :
    n < 0x10000 := by
  cases h with
  | digits ha hb hc hd =>
      have hDigits := And.intro (And.intro ha.1 hb.1) (And.intro hc.1 hd.1)
      omega

/- A number in range that is no half is that of a character. -/
theorem toNat_ofNat
    {n : Nat}
    (hSize : n < 0x110000)
    (hHigh : isHighHalf n = false)
    (hLow : isLowHalf n = false) :
    (Char.ofNat n).toNat = n := by
  have hValid : n.isValidChar := by
    simp only [isHighHalf, isLowHalf, Bool.and_eq_false_iff,
      decide_eq_false_iff_not] at hHigh hLow
    unfold Nat.isValidChar
    omega
  rw [Char.ofNat, dif_pos hValid]
  rfl

/- A code that is no half spells a character. -/
theorem SpellsCodes.head_char
    {n : Nat}
    {codes : List Nat}
    {body : List Char}
    (h : SpellsCodes (n :: codes) body)
    (hHigh : isHighHalf n = false)
    (hLow : isLowHalf n = false) :
    ∃ rest, SpellsCodes codes rest ∧
      ∀ s, SpellsChars s rest → SpellsChars (Char.ofNat n :: s) body := by
  cases h with
  | plain hc hCodes =>
      refine ⟨_, hCodes, ?_⟩
      intro s hs
      rw [Char.ofNat_toNat]
      exact .plain hc hs
  | letter hc hCodes =>
      refine ⟨_, hCodes, ?_⟩
      intro s hs
      rw [Char.ofNat_toNat]
      exact .letter hc hs
  | code hn hCodes =>
      refine ⟨_, hCodes, ?_⟩
      intro s hs
      have hSize : n < 0x110000 := Nat.lt_trans hn.lt (by decide)
      have hChar := toNat_ofNat hSize hHigh hLow
      exact .code (hChar.symm ▸ hn) hs

/- A code that is half of a pair is an escape. -/
theorem SpellsCodes.head_half
    {n : Nat}
    {codes : List Nat}
    {body : List Char}
    (h : SpellsCodes (n :: codes) body)
    (hHalf : isHighHalf n = true ∨ isLowHalf n = true) :
    ∃ quad rest, body = '\\' :: 'u' :: (quad ++ rest) ∧
      IsHexQuad quad n ∧ SpellsCodes codes rest := by
  have hNot (c : Char) :
      ¬ (isHighHalf c.toNat = true ∨ isLowHalf c.toNat = true) := by
    simp [not_half c]
  cases h with
  | @plain c => exact absurd hHalf (hNot c)
  | @letter _ c => exact absurd hHalf (hNot c)
  | code hn hCodes => exact ⟨_, _, rfl, hn, hCodes⟩

/- Codes that can be joined spell the characters they give. -/
theorem spellsChars_of_spellsCodes
    {codes : List Nat}
    {s body : List Char}
    (hJoin : joinCodes? codes = some s)
    (h : SpellsCodes codes body) :
    SpellsChars s body := by
  fun_induction joinCodes? codes generalizing s body with
  | case1 =>
      simp only [Option.some.injEq] at hJoin
      subst hJoin
      cases h with
      | nil => exact .nil
  | case3 n hNeither =>
      simp only [Option.some.injEq] at hJoin
      subst hJoin
      simp only [Bool.or_eq_true, not_or, Bool.not_eq_true] at hNeither
      rcases h.head_char hNeither.1 hNeither.2 with ⟨rest, hRest, hAdd⟩
      cases hRest with
      | nil => exact hAdd [] .nil
  | case4 n m codes hHigh hLow ih =>
      rcases Option.map_eq_some_iff.mp hJoin with ⟨cs, hRests, rfl⟩
      rcases h.head_half (Or.inl hHigh) with
        ⟨quad, rest, rfl, hQuad, hRest⟩
      rcases hRest.head_half (Or.inr hLow) with
        ⟨other, tail, rfl, hOther, hTail⟩
      simp only [isHighHalf, isLowHalf, Bool.and_eq_true,
        decide_eq_true_eq] at hHigh hLow
      obtain ⟨high, rfl⟩ := Nat.exists_eq_add_of_le hHigh.1
      obtain ⟨low, rfl⟩ := Nat.exists_eq_add_of_le hLow.1
      rw [Nat.add_sub_cancel_left, Nat.add_sub_cancel_left]
      have hChar :
          (Char.ofNat (0x10000 + high * 0x400 + low)).toNat =
            0x10000 + high * 0x400 + low := by
        apply toNat_ofNat
        · omega
        · simp only [isHighHalf, Bool.and_eq_false_iff,
            decide_eq_false_iff_not]
          omega
        · simp only [isLowHalf, Bool.and_eq_false_iff,
            decide_eq_false_iff_not]
          omega
      exact .pair (by omega) (by omega) hQuad hOther hChar
        (ih hRests hTail)
  | case7 n m codes hHigh hLow ih =>
      rcases Option.map_eq_some_iff.mp hJoin with ⟨cs, hRests, rfl⟩
      simp only [Bool.not_eq_true] at hHigh hLow
      rcases h.head_char hHigh hLow with ⟨rest, hRest, hAdd⟩
      exact hAdd cs (ih hRests hRest)
  | case2 | case5 | case6 => simp at hJoin

/- A string is scanned from a text that spells it. -/
theorem spellsChars_of_scanCodes?
    {cs rest : List Char}
    {codes : List Nat}
    {s : List Char}
    (h : scanCodes? cs = some (codes, rest))
    (hJoin : joinCodes? codes = some s) :
    ∃ body, cs = body ++ '"' :: rest ∧ SpellsChars s body := by
  rcases spellsCodes_of_scanCodes? h with ⟨body, hText, hBody⟩
  exact ⟨body, hText, spellsChars_of_spellsCodes hJoin hBody⟩

------------------------------------------------------------
-- Numbers
------------------------------------------------------------

/- The scanner of digits takes digits off the front. -/
theorem eq_append_of_scanDigits?
    {cs ds rest : List Char}
    (h : scanDigits? cs = some (ds, rest)) :
    cs = ds ++ rest ∧ AllDigits ds ∧ ds ≠ [] := by
  unfold scanDigits? at h
  split at h
  · simp at h
  · rename_i hNone
    simp only [Option.some.injEq, Prod.mk.injEq] at h
    rcases h with ⟨rfl, rfl⟩
    refine ⟨List.takeWhile_append_dropWhile.symm, ?_, hNone⟩
    intro c hc
    exact List.mem_takeWhile_imp hc

theorem wholeDigits_of_scanWhole?
    {cs ds rest : List Char}
    (h : scanWhole? cs = some (ds, rest)) :
    cs = ds ++ rest ∧ WholeDigits ds := by
  unfold scanWhole? at h
  split at h
  · simp at h
  · rename_i hZero
    rcases eq_append_of_scanDigits? h with ⟨hText, hDigits, hNonempty⟩
    refine ⟨hText, hDigits, hNonempty, ?_⟩
    intro more hds
    cases more with
    | nil => rfl
    | cons d more => exact absurd (hds ▸ h) (hZero d more rest)

theorem spellsFraction_of_scan
    {cs rest : List Char}
    {fraction : Option (List Char)}
    (h : scanFraction? cs = some (fraction, rest)) :
    ∃ point, cs = point ++ rest ∧ SpellsFraction fraction point := by
  unfold scanFraction? at h
  split at h
  · rcases Option.map_eq_some_iff.mp h with ⟨⟨ds, tail⟩, hDigits, hEq⟩
    simp only [Prod.mk.injEq] at hEq
    rcases hEq with ⟨rfl, rfl⟩
    rcases eq_append_of_scanDigits? hDigits with ⟨rfl, hAll, hSome⟩
    exact ⟨'.' :: ds, rfl, .present hAll hSome⟩
  · simp only [Option.some.injEq, Prod.mk.injEq] at h
    rcases h with ⟨rfl, rfl⟩
    exact ⟨[], rfl, .absent⟩

/- A sign at the front is taken off, or there is none. -/
theorem splitSign_cases (cs : List Char) :
    (∃ rest, cs = '-' :: rest ∧ splitSign cs = (true, rest)) ∨
      ∃ sign rest,
        (sign = [] ∨ sign = ['+']) ∧ cs = sign ++ rest ∧
          splitSign cs = (false, rest) := by
  unfold splitSign
  split
  · exact Or.inl ⟨_, rfl, rfl⟩
  · exact Or.inr ⟨['+'], _, Or.inr rfl, rfl, rfl⟩
  · exact Or.inr ⟨[], _, Or.inl rfl, rfl, rfl⟩

theorem spellsExponent_of_scan
    {cs rest : List Char}
    {exponent : Option Int}
    (h : scanExponent? cs = some (exponent, rest)) :
    ∃ power, cs = power ++ rest ∧ SpellsExponent exponent power := by
  have hDigits {negative : Bool} {more : List Char}
      (hMap :
        ((scanDigits? more).map fun scanned =>
          (some (exponentOfDigits negative scanned.1), scanned.2)) =
          some (exponent, rest)) :
      ∃ ds, more = ds ++ rest ∧ AllDigits ds ∧ ds ≠ [] ∧
        exponent = some (exponentOfDigits negative ds) := by
    rcases Option.map_eq_some_iff.mp hMap with ⟨⟨ds, tail⟩, hScan, hEq⟩
    simp only [Prod.mk.injEq] at hEq
    rcases hEq with ⟨rfl, rfl⟩
    rcases eq_append_of_scanDigits? hScan with ⟨hText, hAll, hSome⟩
    exact ⟨ds, hText, hAll, hSome, rfl⟩
  cases cs with
  | nil =>
      simp only [scanExponent?, Option.some.injEq, Prod.mk.injEq] at h
      rcases h with ⟨rfl, rfl⟩
      exact ⟨[], rfl, .absent⟩
  | cons mark cs =>
      rw [scanExponent?] at h
      by_cases hMark : mark = 'e' ∨ mark = 'E'
      · rw [if_pos hMark] at h
        rcases splitSign_cases cs with
          ⟨more, rfl, hSplit⟩ | ⟨sign, more, hSign, rfl, hSplit⟩
        · rw [hSplit] at h
          rcases hDigits h with ⟨ds, rfl, hAll, hSome, rfl⟩
          exact ⟨mark :: '-' :: ds, rfl, .negative hMark hAll hSome⟩
        · rw [hSplit] at h
          rcases hDigits h with ⟨ds, rfl, hAll, hSome, rfl⟩
          exact ⟨mark :: (sign ++ ds), by simp,
            .positive hMark hSign hAll hSome⟩
      · rw [if_neg hMark, Option.some.injEq, Prod.mk.injEq] at h
        rcases h with ⟨rfl, rfl⟩
        exact ⟨[], rfl, .absent⟩

/- A number is scanned from a text that spells it. -/
theorem spelledBy_of_scanNumeral?
    {cs rest : List Char}
    {n : Numeral}
    (h : scanNumeral? cs = some (n, rest)) :
    ∃ text, cs = text ++ rest ∧ n.SpelledBy text := by
  simp only [scanNumeral?, Option.bind_eq_bind,
    Option.bind_eq_some_iff] at h
  rcases h with ⟨⟨whole, after⟩, hWhole, ⟨fraction, behind⟩, hFraction,
    ⟨exponent, tail⟩, hExponent, hEq⟩
  simp only [Option.some.injEq, Prod.mk.injEq] at hEq
  rcases hEq with ⟨rfl, rfl⟩
  rcases wholeDigits_of_scanWhole? hWhole with ⟨hText, hDigits⟩
  rcases spellsFraction_of_scan hFraction with ⟨point, rfl, hPoint⟩
  rcases spellsExponent_of_scan hExponent with ⟨power, rfl, hPower⟩
  refine ⟨Binary64.signChars (splitMinus cs).1 ++
    (whole ++ (point ++ power)), ?_, hDigits, point, power, hPoint,
    hPower, rfl⟩
  have hSign :
      cs = Binary64.signChars (splitMinus cs).1 ++ (splitMinus cs).2 := by
    unfold splitMinus
    split
    · rfl
    · rfl
  rw [hText] at hSign
  simpa using hSign

------------------------------------------------------------
-- Tokens
------------------------------------------------------------

/- The token stands for a value that is out of range. -/
def isFlawed : Token → Bool
  | .flawedNumber | .flawedText | .bad => true
  | _ => false

theorem spelledBy_of_toToken
    {n : Numeral}
    {text : List Char}
    (h : n.SpelledBy text)
    (hToken : n.toToken.isFlawed = false) :
    n.toToken.SpelledBy text := by
  unfold Numeral.toToken at hToken ⊢
  by_cases hInteger : n.IsInteger
  · rw [Numeral.toInt?_of_isInteger hInteger]
    exact .scalar (.int h hInteger)
  · rw [Numeral.toInt?_eq_none hInteger] at hToken ⊢
    cases hFloat : n.toFloat? with
    | some x => exact .scalar (.float h hInteger hFloat)
    | none => simp [hFloat, isFlawed] at hToken

/- A token is scanned from a text that spells it. -/
theorem spelledBy_of_scan?
    {cs rest : List Char}
    {t : Token}
    (h : scan? cs = some (t, rest))
    (hToken : t.isFlawed = false) :
    ∃ text, cs = text ++ rest ∧ t.SpelledBy text := by
  unfold scan? at h
  split at h
  case h_7 cs =>
      rcases Option.map_eq_some_iff.mp h with ⟨⟨codes, tail⟩, hCodes, hEq⟩
      simp only [Prod.mk.injEq] at hEq
      rcases hEq with ⟨rfl, rfl⟩
      unfold ofCodes at hToken ⊢
      cases hJoin : joinCodes? codes with
      | none => simp [hJoin, isFlawed] at hToken
      | some s =>
          rcases spellsChars_of_scanCodes? hCodes hJoin with
            ⟨body, rfl, hBody⟩
          refine ⟨'"' :: (body ++ ['"']), by simp, ?_⟩
          exact .scalar (.string (by simpa using hBody))
  case h_11 =>
      rcases Option.map_eq_some_iff.mp h with ⟨⟨n, tail⟩, hNumber, hEq⟩
      simp only [Prod.mk.injEq] at hEq
      rcases hEq with ⟨rfl, rfl⟩
      rcases spelledBy_of_scanNumeral? hNumber with ⟨text, rfl, hText⟩
      exact ⟨text, rfl, spelledBy_of_toToken hText hToken⟩
  all_goals
    simp only [Option.some.injEq, Prod.mk.injEq] at h
    rcases h with ⟨rfl, rfl⟩
  case h_1 => exact ⟨_, rfl, .openBrace⟩
  case h_2 => exact ⟨_, rfl, .closeBrace⟩
  case h_3 => exact ⟨_, rfl, .openBracket⟩
  case h_4 => exact ⟨_, rfl, .closeBracket⟩
  case h_5 => exact ⟨_, rfl, .comma⟩
  case h_6 => exact ⟨_, rfl, .colon⟩
  case h_8 => exact ⟨_, rfl, .scalar .null⟩
  case h_9 => exact ⟨_, rfl, .scalar .true⟩
  case h_10 => exact ⟨_, rfl, .scalar .false⟩

/- White space may stand in front. -/
theorem SpellsAll.gap
    {c : Char}
    {ts : List Token}
    {cs : List Char}
    (hc : isGap c = true)
    (h : SpellsAll ts cs) :
    SpellsAll ts (c :: cs) := by
  have hFirst : c = ' ' ∨ c = '\t' ∨ c = '\n' ∨ c = '\r' := by
    simpa [isGap, or_assoc] using hc
  have hMore {gap : List Char} (hGap : IsGap gap) : IsGap (c :: gap) := by
    intro d hd
    rcases List.mem_cons.mp hd with rfl | hd
    · exact hFirst
    · exact hGap d hd
  cases h with
  | nil hGap => exact .nil (hMore hGap)
  | cons hGap ht hRest => exact .cons (hMore hGap) ht hRest

/- A text that is lexed without a fault spells its tokens. -/
theorem spellsAll_of_lexWithin
    {steps : Nat}
    {cs : List Char}
    (h : ∀ t ∈ lexWithin steps cs, t.isFlawed = false) :
    SpellsAll (lexWithin steps cs) cs := by
  fun_induction lexWithin steps cs with
  | case1 => simp [isFlawed] at h
  | case2 => exact .nil (by simp [IsGap])
  | case3 steps c cs hGap ih => exact (ih h).gap hGap
  | case4 steps c cs hGap t rest hScan ih =>
      rw [List.forall_mem_cons] at h
      rcases spelledBy_of_scan? hScan h.1 with ⟨text, hText, ht⟩
      rw [hText]
      have hNoGap : IsGap [] := by
        simp [IsGap]
      exact .cons hNoGap ht (ih h.2)
  | case5 => simp [isFlawed] at h

theorem spellsAll_of_lex
    {cs : List Char}
    (h : ∀ t ∈ lex cs, t.isFlawed = false) :
    SpellsAll (lex cs) cs :=
  spellsAll_of_lexWithin h

end Token

------------------------------------------------------------
-- Trees
------------------------------------------------------------

namespace Node

/- A field without a fault is the node of a field that fits. -/
theorem eq_of_strictField
    {room : Nat}
    (ih :
      ∀ {node : Node} {j : Json}, node.strict? room = some j →
        node = j.toNode ∧ j.height ≤ room)
    {field : Key × Node}
    {entry : String × Json}
    (h :
      (do
        let key ← keyText? field.1
        let value ← field.2.strict? room
        some (key, value)) = some entry) :
    field = (.text entry.1, entry.2.toNode) ∧ entry.2.height ≤ room := by
  rcases field with ⟨key, value⟩
  simp only [Option.bind_eq_bind, Option.bind_eq_some_iff,
    Option.some.injEq] at h
  rcases h with ⟨name, hName, inner, hInner, rfl⟩
  rcases ih hInner with ⟨rfl, hHeight⟩
  cases key with
  | text s =>
      simp only [keyText?, Option.some.injEq] at hName
      subst hName
      exact ⟨rfl, hHeight⟩
  | flawed => simp [keyText?] at hName

/- A node without a fault is the node of a tree that fits. -/
theorem eq_toNode_of_strict?
    {room : Nat}
    {node : Node}
    {j : Json}
    (h : node.strict? room = some j) :
    node = j.toNode ∧ j.height ≤ room := by
  induction room generalizing node j with
  | zero =>
      cases node with
      | scalar s =>
          simp only [strict?, Option.some.injEq] at h
          subst h
          exact ⟨rfl, Nat.le_refl 0⟩
      | array | object | flawed | broken => simp [strict?] at h
  | succ room ih =>
      cases node with
      | scalar s =>
          simp only [strict?, Option.some.injEq] at h
          subst h
          exact ⟨rfl, Nat.zero_le _⟩
      | array items closed =>
          cases closed with
          | false => simp [strict?] at h
          | true =>
              rcases Option.map_eq_some_iff.mp h with ⟨js, hItems, rfl⟩
              rw [mapM_eq_some_iff] at hItems
              have hNodes : items = js.map Json.toNode := by
                rw [← List.forall₂_eq_eq_eq, List.forall₂_map_right_iff]
                exact hItems.imp fun _ _ hItem => (ih hItem).1
              constructor
              · rw [Json.toNode, Json.toNodeItems_eq_map, hNodes]
              · apply Nat.succ_le_succ
                apply Json.itemsHeight_le
                intro item hItem
                rcases exists_mem_of_forall₂ hItems hItem with
                  ⟨_, _, hRead⟩
                exact (ih hRead).2
      | object fields closed =>
          cases closed with
          | false => simp [strict?] at h
          | true =>
              rcases Option.map_eq_some_iff.mp h with
                ⟨entries, hFields, rfl⟩
              rw [mapM_eq_some_iff] at hFields
              have hParts :=
                hFields.imp fun _ _ hField => eq_of_strictField ih hField
              have hNodes :
                  fields =
                    entries.map fun entry =>
                      (.text entry.1, entry.2.toNode) := by
                rw [← List.forall₂_eq_eq_eq, List.forall₂_map_right_iff]
                exact hParts.imp fun _ _ hField => hField.1
              constructor
              · rw [Json.toNode, Json.toNodeFields_eq_map, hNodes]
              · apply Nat.succ_le_succ
                apply Json.fieldsHeight_le
                intro entry hEntry
                rcases exists_mem_of_forall₂ hParts hEntry with
                  ⟨_, _, hRead⟩
                exact hRead.2
      | flawed | broken => simp [strict?] at h

/- A node of an array is that of its items. -/
theorem exists_array_of_toNode
    {j : Json}
    {items : List Node}
    {closed : Bool}
    (h : Node.array items closed = j.toNode) :
    ∃ js, j = .array js ∧ items = Json.toNodeItems js ∧ closed = true := by
  cases j with
  | array js =>
      simp only [Json.toNode, Node.array.injEq] at h
      exact ⟨js, rfl, h⟩
  | scalar | object => simp [Json.toNode] at h

/- A node of an object is that of its fields. -/
theorem exists_object_of_toNode
    {j : Json}
    {fields : List (Key × Node)}
    {closed : Bool}
    (h : Node.object fields closed = j.toNode) :
    ∃ entries, j = .object entries ∧
      fields = Json.toNodeFields entries ∧ closed = true := by
  cases j with
  | object entries =>
      simp only [Json.toNode, Node.object.injEq] at h
      exact ⟨entries, rfl, h⟩
  | scalar | array => simp [Json.toNode] at h

mutual

/- What is parsed as a tree is the tokens of that tree. -/
theorem tokens_of_parseValue :
    ∀ (steps : Nat) {ts rest : List Token} {j : Json},
      parseValue steps ts = (j.toNode, rest) → ts = j.tokens ++ rest
  | 0, ts, rest, j, h => by
      cases j <;> simp [parseValue, Json.toNode] at h
  | steps + 1, ts, rest, j, h => by
      unfold parseValue at h
      split at h
      case h_1 hSteps => cases hSteps
      case h_2 s ts _ =>
          simp only [Prod.mk.injEq] at h
          rcases h with ⟨hNode, rfl⟩
          cases j with
          | scalar t =>
              simp only [Json.toNode, Node.scalar.injEq] at hNode
              subst hNode
              rfl
          | array | object => simp [Json.toNode] at hNode
      case h_5 ts _ =>
          simp only [Prod.mk.injEq] at h
          rcases h with ⟨hNode, rfl⟩
          rcases exists_array_of_toNode hNode with ⟨js, rfl, hItems, _⟩
          cases js with
          | nil => rfl
          | cons => simp [Json.toNodeItems] at hItems
      case h_6 ts _ hSteps =>
          cases hSteps
          simp only [Prod.mk.injEq] at h
          rcases h with ⟨hNode, hRest⟩
          rcases exists_array_of_toNode hNode with
            ⟨js, rfl, hItems, hClosed⟩
          have hParse :
              parseItems steps ts = (Json.toNodeItems js, true, rest) := by
            rw [← hItems, ← hClosed, ← hRest]
          rw [(tokens_of_parseItems steps hParse).2]
          simp [Json.tokens]
      case h_7 ts _ =>
          simp only [Prod.mk.injEq] at h
          rcases h with ⟨hNode, rfl⟩
          rcases exists_object_of_toNode hNode with
            ⟨entries, rfl, hFields, _⟩
          cases entries with
          | nil => rfl
          | cons => simp [Json.toNodeFields] at hFields
      case h_8 ts _ hSteps =>
          cases hSteps
          simp only [Prod.mk.injEq] at h
          rcases h with ⟨hNode, hRest⟩
          rcases exists_object_of_toNode hNode with
            ⟨entries, rfl, hFields, hClosed⟩
          have hParse :
              parseFields steps ts =
                (Json.toNodeFields entries, true, rest) := by
            rw [← hFields, ← hClosed, ← hRest]
          rw [(tokens_of_parseFields steps hParse).2]
          simp [Json.tokens]
      case h_3 | h_4 | h_9 =>
          cases j <;> simp [Json.toNode] at h

/- What is parsed as items is their tokens up to the bracket. -/
theorem tokens_of_parseItems :
    ∀ (steps : Nat) {ts rest : List Token} {items : List Json},
      parseItems steps ts = (Json.toNodeItems items, true, rest) →
        items ≠ [] ∧ ts = Json.itemTokens items ++ .closeBracket :: rest
  | 0, ts, rest, items, h => by
      simp [parseItems] at h
  | steps + 1, ts, rest, items, h => by
      unfold parseItems at h
      split at h
      case h_1 item more hItem =>
          simp only [Prod.mk.injEq] at h
          rcases h with ⟨hNodes, hClosed, hRest⟩
          rcases items with _ | ⟨first, others⟩
          · simp [Json.toNodeItems] at hNodes
          simp only [Json.toNodeItems, List.cons.injEq] at hNodes
          rw [hNodes.1] at hItem
          have hParse :
              parseItems steps more =
                (Json.toNodeItems others, true, rest) := by
            rw [← hNodes.2, ← hClosed, ← hRest]
          have hMore := tokens_of_parseItems steps hParse
          rcases others with _ | ⟨next, others⟩
          · exact absurd rfl hMore.1
          refine ⟨List.cons_ne_nil _ _, ?_⟩
          rw [tokens_of_parseValue steps hItem, hMore.2]
          simp [Json.itemTokens]
      case h_2 item more hItem =>
          simp only [Prod.mk.injEq, true_and] at h
          rcases h with ⟨hNodes, rfl⟩
          rcases items with _ | ⟨first, _ | ⟨next, others⟩⟩
          · simp [Json.toNodeItems] at hNodes
          · simp only [Json.toNodeItems, List.cons.injEq] at hNodes
            rw [hNodes.1] at hItem
            exact ⟨List.cons_ne_nil _ _,
              tokens_of_parseValue steps hItem⟩
          · simp [Json.toNodeItems] at hNodes
      case h_3 => simp at h

/- What is parsed as fields is their tokens up to the brace. -/
theorem tokens_of_parseFields :
    ∀ (steps : Nat) {ts rest : List Token}
      {fields : List (String × Json)},
      parseFields steps ts = (Json.toNodeFields fields, true, rest) →
        fields ≠ [] ∧ ts = Json.fieldTokens fields ++ .closeBrace :: rest
  | 0, ts, rest, fields, h => by
      simp [parseFields] at h
  | steps + 1, ts, rest, fields, h => by
      unfold parseFields at h
      split at h
      case h_1 hSteps => cases hSteps
      case h_2 key ts hSteps =>
          cases hSteps
          rcases tokens_of_parseField steps (.text key) h with
            ⟨name, hKey, hTokens⟩
          simp only [Key.text.injEq] at hKey
          subst hKey
          exact hTokens
      case h_3 ts hSteps =>
          cases hSteps
          rcases tokens_of_parseField steps .flawed h with ⟨_, hKey, _⟩
          simp at hKey
      case h_4 | h_5 => simp at h

/- A key is one of a tree when the field behind it is. -/
theorem tokens_of_parseField :
    ∀ (steps : Nat) (key : Key) {ts rest : List Token}
      {fields : List (String × Json)},
      parseField steps key ts =
          (Json.toNodeFields fields, true, rest) →
        ∃ name, key = .text name ∧ fields ≠ [] ∧
          .scalar (.string name) :: .colon :: ts =
            Json.fieldTokens fields ++ .closeBrace :: rest
  | 0, key, ts, rest, fields, h => by
      simp [parseField] at h
  | steps + 1, key, ts, rest, fields, h => by
      unfold parseField at h
      split at h
      case h_1 value more hValue =>
          simp only [Prod.mk.injEq] at h
          rcases h with ⟨hNodes, hClosed, hRest⟩
          rcases fields with _ | ⟨⟨name, first⟩, others⟩
          · simp [Json.toNodeFields] at hNodes
          simp only [Json.toNodeFields, List.cons.injEq,
            Prod.mk.injEq] at hNodes
          rcases hNodes with ⟨⟨rfl, hFirst⟩, hOthers⟩
          rw [hFirst] at hValue
          have hParse :
              parseFields steps more =
                (Json.toNodeFields others, true, rest) := by
            rw [← hOthers, ← hClosed, ← hRest]
          have hMore := tokens_of_parseFields steps hParse
          rcases others with _ | ⟨next, others⟩
          · exact absurd rfl hMore.1
          refine ⟨name, rfl, List.cons_ne_nil _ _, ?_⟩
          rw [tokens_of_parseValue steps hValue, hMore.2]
          simp [Json.fieldTokens]
      case h_2 value more hValue =>
          simp only [Prod.mk.injEq, true_and] at h
          rcases h with ⟨hNodes, rfl⟩
          rcases fields with _ | ⟨⟨name, first⟩, _ | ⟨next, others⟩⟩
          · simp [Json.toNodeFields] at hNodes
          · simp only [Json.toNodeFields, List.cons.injEq,
              Prod.mk.injEq] at hNodes
            rcases hNodes with ⟨⟨rfl, hFirst⟩, _⟩
            rw [hFirst] at hValue
            refine ⟨name, rfl, List.cons_ne_nil _ _, ?_⟩
            rw [tokens_of_parseValue steps hValue]
            simp [Json.fieldTokens]
          · simp [Json.toNodeFields] at hNodes
      case h_3 => simp at h

end

end Node

mutual

/- The tokens of a tree have no fault. -/
theorem Json.isFlawed_of_mem_tokens :
    ∀ (j : Json), ∀ t ∈ j.tokens, t.isFlawed = false
  | .scalar _ => by
      simp [tokens, Token.isFlawed]
  | .array items => by
      have hItems := Json.isFlawed_of_mem_itemTokens items
      simpa [tokens, Token.isFlawed, or_imp, forall_and] using hItems
  | .object fields => by
      have hFields := Json.isFlawed_of_mem_fieldTokens fields
      simpa [tokens, Token.isFlawed, or_imp, forall_and] using hFields

theorem Json.isFlawed_of_mem_itemTokens :
    ∀ (items : List Json), ∀ t ∈ itemTokens items, t.isFlawed = false
  | [] => by
      simp [itemTokens]
  | [item] => Json.isFlawed_of_mem_tokens item
  | item :: next :: more => by
      have hItem := Json.isFlawed_of_mem_tokens item
      have hMore := Json.isFlawed_of_mem_itemTokens (next :: more)
      intro t ht
      simp only [itemTokens, List.mem_append, List.mem_cons] at ht
      rcases ht with ht | rfl | ht
      · exact hItem t ht
      · rfl
      · exact hMore t ht

theorem Json.isFlawed_of_mem_fieldTokens :
    ∀ (fields : List (String × Json)),
      ∀ t ∈ fieldTokens fields, t.isFlawed = false
  | [] => by
      simp [fieldTokens]
  | [(key, value)] => by
      have hValue := Json.isFlawed_of_mem_tokens value
      simpa [fieldTokens, Token.isFlawed] using hValue
  | (key, value) :: next :: more => by
      have hValue := Json.isFlawed_of_mem_tokens value
      have hMore := Json.isFlawed_of_mem_fieldTokens (next :: more)
      intro t ht
      simp only [fieldTokens, List.mem_append, List.mem_cons] at ht
      rcases ht with (rfl | rfl | ht) | rfl | ht
      · rfl
      · rfl
      · exact hValue t ht
      · rfl
      · exact hMore t ht

end

/- A text spells one tree at most. -/
theorem Json.eq_of_spelledBy
    {i j : Json}
    {text : String}
    (hi : i.SpelledBy text)
    (hj : j.SpelledBy text) :
    i = j := by
  have hTokens : i.tokens = j.tokens := by
    rw [← lex_of_spelledBy hi, ← lex_of_spelledBy hj]
  have hNodes := congrArg Node.parse hTokens
  rw [← List.append_nil i.tokens, ← List.append_nil j.tokens,
    parse_tokens, parse_tokens] at hNodes
  exact toNode_inj (congrArg Prod.fst hNodes)

/-
  A tree is read from the texts that spell it, if it fits, and
  from no others.
-/
theorem Reader.run_json_eq_ok_iff
    {text : String}
    {j : Json} :
    run json text = .ok j ↔ j.SpelledBy text ∧ j.height ≤ 127 := by
  constructor
  · intro h
    unfold run at h
    rcases hParse : Node.parse (Token.lex text.toList) with ⟨node, rest⟩
    rw [hParse] at h
    rcases bind_eq_ok_iff.mp h with ⟨tree, hRead, hEnd⟩
    have hTree : tree = j ∧ rest = [] := by
      cases rest with
      | nil => simpa using hEnd
      | cons => simp at hEnd
    rcases hTree with ⟨rfl, rfl⟩
    have hStrict : node.strict? 127 = some tree := by
      unfold json at hRead
      cases hNode : node.strict? 127 with
      | none => simp [hNode] at hRead
      | some found => simpa [hNode] using hRead
    rcases Node.eq_toNode_of_strict? hStrict with ⟨rfl, hHeight⟩
    have hTokens := Node.tokens_of_parseValue _ hParse
    rw [List.append_nil] at hTokens
    refine ⟨?_, hHeight⟩
    rw [Json.SpelledBy, ← hTokens]
    apply Token.spellsAll_of_lex
    rw [hTokens]
    exact tree.isFlawed_of_mem_tokens
  · intro h
    rw [run_of_spelled json h.1]
    exact json_toNode h.2

/- The text written for a tree that fits spells it. -/
theorem Json.spelledBy_render
    {j : Json}
    (hj : j.Writable)
    (hHeight : j.height ≤ 127) :
    j.SpelledBy j.render := by
  have hRun : Reader.run Reader.json j.render = .ok j := by
    rw [Reader.run_render Reader.json hj]
    exact Reader.json_toNode hHeight
  exact (Reader.run_json_eq_ok_iff.mp hRun).1

end GraphBag
