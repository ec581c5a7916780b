import GraphBag.Text.Quoted

/-
  Reading quoted text back.

  Main declarations:
    * `Text.unquote?`
    * `Text.unquote?_quoteChars`
    * `Text.quoteChars_append_inj`
    * `Text.lineBreak_notMem_quoteChars`
    * `Text.unquote_quote`
-/

namespace GraphBag

namespace Text

------------------------------------------------------------
-- Reading Quoted Text
------------------------------------------------------------

/-
  Reads up to the first bare quote, resolving the four escapes:
  the text before it and what follows it.
-/
def unquoteBody? : List Char → Option (List Char × List Char)
  | [] => none
  | '\'' :: rest => some ([], rest)
  | '\\' :: c :: rest =>
      let char? :=
        if c = '\'' ∨ c = '\\' then some c
        else if c = 'n' then some '\n'
        else if c = 'r' then some '\r'
        else none
      match char?, unquoteBody? rest with
      | some c, some (cs, tail) => some (c :: cs, tail)
      | _, _ => none
  | c :: rest =>
      (unquoteBody? rest).map fun (cs, tail) => (c :: cs, tail)

/- Reads a quoted text at the front of a longer one. -/
def unquote? : List Char → Option (List Char × List Char)
  | '\'' :: rest => unquoteBody? rest
  | _ => none

------------------------------------------------------------
-- Quoted Text Read Back
------------------------------------------------------------

/- One quoted character is read as itself. -/
theorem unquoteBody?_quoteChar
    (c : Char)
    (rest : List Char) :
    unquoteBody? (quoteChar c ++ rest) =
      (unquoteBody? rest).map fun (cs, tail) => (c :: cs, tail) := by
  by_cases hEscaped : c = '\'' ∨ c = '\\'
  · rw [quoteChar, if_pos hEscaped]
    cases hRest : unquoteBody? rest with
    | none => simp [unquoteBody?, hEscaped, hRest]
    | some read => simp [unquoteBody?, hEscaped, hRest]
  · rw [quoteChar, if_neg hEscaped]
    by_cases hFeed : c = '\n'
    · subst hFeed
      cases hRest : unquoteBody? rest with
      | none => simp [unquoteBody?, hRest]
      | some read => simp [unquoteBody?, hRest]
    · by_cases hReturn : c = '\r'
      · subst hReturn
        cases hRest : unquoteBody? rest with
        | none => simp [unquoteBody?, hRest]
        | some read => simp [unquoteBody?, hRest]
      · rw [if_neg hFeed, if_neg hReturn, List.singleton_append,
          unquoteBody?.eq_4]
        · intro hQuote
          exact hEscaped (Or.inl hQuote)
        · intro d tail hBackslash
          exact absurd hBackslash fun h => hEscaped (Or.inr h)

/- Quoted characters are read up to the closing quote. -/
theorem unquoteBody?_flatMap
    (cs rest : List Char) :
    unquoteBody? (cs.flatMap quoteChar ++ '\'' :: rest) =
      some (cs, rest) := by
  induction cs with
  | nil => simp [unquoteBody?]
  | cons c cs ih =>
      rw [List.flatMap_cons, List.append_assoc,
        unquoteBody?_quoteChar, ih]
      rfl

/- A quoted text is read back, whatever follows it. -/
theorem unquote?_quoteChars
    (cs rest : List Char) :
    unquote? (quoteChars cs ++ rest) = some (cs, rest) := by
  simp [quoteChars, unquote?, unquoteBody?_flatMap]

/- Quoted texts and what follows them can be told apart. -/
theorem quoteChars_append_inj
    {cs ds rest others : List Char}
    (h : quoteChars cs ++ rest = quoteChars ds ++ others) :
    cs = ds ∧ rest = others := by
  have hRead := congrArg unquote? h
  rw [unquote?_quoteChars, unquote?_quoteChars] at hRead
  simpa using hRead

/- There is no line break in one quoted character. -/
theorem lineBreak_notMem_quoteChar (c : Char) :
    '\n' ∉ quoteChar c ∧ '\r' ∉ quoteChar c := by
  by_cases hEscaped : c = '\'' ∨ c = '\\'
  · rcases hEscaped with rfl | rfl
    · decide
    · decide
  · rw [quoteChar, if_neg hEscaped]
    by_cases hFeed : c = '\n'
    · rw [if_pos hFeed]
      decide
    · rw [if_neg hFeed]
      by_cases hReturn : c = '\r'
      · rw [if_pos hReturn]
        decide
      · rw [if_neg hReturn, List.mem_singleton, List.mem_singleton]
        exact ⟨Ne.symm hFeed, Ne.symm hReturn⟩

/- A quoted text stays on one line. -/
theorem lineBreak_notMem_quoteChars (cs : List Char) :
    '\n' ∉ quoteChars cs ∧ '\r' ∉ quoteChars cs := by
  simp [quoteChars, lineBreak_notMem_quoteChar]

theorem newline_notMem_quoteChars (cs : List Char) :
    '\n' ∉ quoteChars cs :=
  (lineBreak_notMem_quoteChars cs).1

/-
  A quoted text cannot be left early.  Whatever it says and
  whatever follows it, it is read back as it was, up to its
  closing quote, and there is no line break in it.
-/
theorem unquote_quote (s rest : String) :
    unquote? (quote s ++ rest).toList = some (s.toList, rest.toList) ∧
      '\n' ∉ (quote s).toList ∧ '\r' ∉ (quote s).toList := by
  rw [String.toList_append, quote, String.toList_ofList]
  refine ⟨?_, ?_⟩
  · exact unquote?_quoteChars s.toList rest.toList
  · exact lineBreak_notMem_quoteChars s.toList

/- A backslash at the end does not hide the closing quote. -/
example : quote "\\\\'\\" = "'\\\\\\\\\\'\\\\'" := by
  decide

end Text

end GraphBag
