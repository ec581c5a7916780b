import GraphBag.Json.Writer
import GraphBag.Proofs.Json.Lexing

/-
  Numbers and compact JSON text stay on one line.

  Main declarations:
    * `Binary64.newline_notMem_chars`
    * `Json.newline_notMem_chars`
-/

namespace GraphBag

------------------------------------------------------------
-- Numbers
------------------------------------------------------------

/- No digit is a line feed. -/
theorem AllDigits.newline_notMem
    {cs : List Char}
    (hDigits : AllDigits cs) :
    '\n' ∉ cs := by
  intro hMem
  have hDigit := hDigits '\n' hMem
  exact Bool.noConfusion hDigit

namespace Decimal

/- A number without an exponent stays on one line. -/
theorem newline_notMem_positionalChars
    {layout : Layout}
    (hLayout : layout.Readable)
    {ds : List Char}
    (hDigits : AllDigits ds)
    (point : Int) :
    '\n' ∉ positionalChars layout ds point := by
  have hDs := hDigits.newline_notMem
  have hTake : '\n' ∉ ds.take point.toNat := by
    intro hMem
    exact hDs (List.mem_of_mem_take hMem)
  have hDrop : '\n' ∉ ds.drop point.toNat := by
    intro hMem
    exact hDs (List.mem_of_mem_drop hMem)
  unfold positionalChars
  split
  · simp [hDs, List.mem_replicate]
  · simp [hDs]
  · rename_i n _
    split
    · simp [hDs, List.mem_replicate, hLayout.whole]
    · have hTake : '\n' ∉ ds.take n := hTake
      have hDrop : '\n' ∉ ds.drop n := hDrop
      simp [hTake, hDrop]

/- The exponent of a number stays on one line. -/
theorem newline_notMem_exponentChars
    {layout : Layout}
    (hLayout : layout.Readable)
    (e : Int) :
    '\n' ∉ exponentChars layout e := by
  have hDigits (n : Nat) := (allDigits_toDigits n).newline_notMem
  cases e with
  | ofNat n =>
      rcases hLayout.positive with h | h
      · simp [exponentChars, h, hDigits]
      · simp [exponentChars, h, hDigits]
  | negSucc n => simp [exponentChars, hDigits]

/- A decimal stays on one line. -/
theorem newline_notMem_chars
    {layout : Layout}
    (hLayout : layout.Readable)
    (d : Decimal) :
    '\n' ∉ d.chars layout := by
  have hDigits := allDigits_toDigits d.digits
  have hDs := hDigits.newline_notMem
  rw [chars]
  split
  · exact newline_notMem_positionalChars hLayout hDigits _
  · have hTake : '\n' ∉ (Nat.toDigits 10 d.digits).take 1 := by
      intro hMem
      exact hDs (List.mem_of_mem_take hMem)
    have hTail : '\n' ∉ (Nat.toDigits 10 d.digits).tail := by
      intro hMem
      exact hDs (List.mem_of_mem_tail hMem)
    have hExponent := newline_notMem_exponentChars hLayout
    rw [scientificChars]
    split
    · simp [hTake, hExponent]
    · simp [hTake, hTail, hExponent]

end Decimal

/- A floating-point number stays on one line. -/
theorem Binary64.newline_notMem_chars
    {layout : Layout}
    (hLayout : layout.Readable)
    (x : Binary64) :
    '\n' ∉ x.chars layout := by
  have hSign (negative : Bool) : '\n' ∉ signChars negative := by
    cases negative <;> decide
  cases x with
  | nan => simp [chars]
  | infinite negative => simp [chars, hSign]
  | finite negative x =>
      simp [chars, hSign, Decimal.newline_notMem_chars hLayout]

------------------------------------------------------------
-- Tokens
------------------------------------------------------------

namespace Token

/- An integer stays on one line. -/
theorem newline_notMem_intChars (n : Int) : '\n' ∉ intChars n := by
  have hDigits (n : Nat) := (allDigits_toDigits n).newline_notMem
  cases n with
  | ofNat n => exact hDigits n
  | negSucc n => simp [intChars, hDigits]

/- No hexadecimal digit is a line feed. -/
theorem newline_ne_digitChar :
    ∀ n < 16, '\n' ≠ Nat.digitChar n := by
  decide

/- No character inside a string is a line feed. -/
theorem newline_notMem_escapeChar (c : Char) :
    '\n' ∉ escapeChar c := by
  unfold escapeChar
  split_ifs with hEscaped _ _ hFeed _ _ hControl
  · rcases hEscaped with rfl | rfl
    · decide
    · decide
  · decide
  · decide
  · decide
  · decide
  · decide
  · simp [newline_ne_digitChar (c.toNat / 16) (by omega),
      newline_ne_digitChar (c.toNat % 16) (by omega)]
  · simpa [eq_comm] using hFeed

/- A token stays on one line. -/
theorem newline_notMem_chars (t : Token) : '\n' ∉ t.chars := by
  cases t with
  | scalar s =>
      cases s with
      | null => decide
      | bool b => cases b <;> decide
      | int n => exact newline_notMem_intChars n
      | float x =>
          rw [chars, scalarChars]
          split
          · exact Binary64.newline_notMem_chars readable_json x
          · decide
      | string s =>
          simp [chars, scalarChars, stringChars,
            newline_notMem_escapeChar]
  | openBrace | closeBrace | openBracket | closeBracket | comma
  | colon | flawedNumber | flawedText | bad => decide

end Token

/- The compact text of a JSON tree stays on one line. -/
theorem Json.newline_notMem_chars (j : Json) : '\n' ∉ j.chars := by
  rw [chars, List.mem_flatMap]
  rintro ⟨t, _, hMem⟩
  exact Token.newline_notMem_chars t hMem

end GraphBag
