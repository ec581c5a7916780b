import GraphBag.Proofs.Json.Parsing
import GraphBag.Proofs.Result

/-
  How deep JSON text is nested.  The text of a tree has as many
  brackets and braces open at once as the tree is high, and what
  is parsed from any text, whole or cut off, is no higher than
  the text is nested, with scalars that can be written.

  Main declarations:
    * `Text.nesting`
    * `Token.writable_of_mem_lex`
    * `Node.Within`
    * `Node.within_parse`
    * `Json.nesting_render`
-/

namespace GraphBag

------------------------------------------------------------
-- Open Brackets
------------------------------------------------------------

namespace Token

/- How many brackets and braces are open behind a token. -/
def depthAfter (depth : Nat) : Token → Nat
  | .openBrace | .openBracket => depth + 1
  | .closeBrace | .closeBracket => depth - 1
  | _ => depth

/- The most that are open at once, `depth` of them from before. -/
def nesting (depth : Nat) : List Token → Nat
  | [] => depth
  | t :: ts => max depth (nesting (t.depthAfter depth) ts)

/- Those from before are open. -/
theorem le_nesting (depth : Nat) (ts : List Token) :
    depth ≤ nesting depth ts := by
  cases ts with
  | nil => exact Nat.le_refl depth
  | cons t ts => exact Nat.le_max_left _ _

/- A token leaves no fewer open where more were open. -/
theorem depthAfter_mono
    {low high : Nat}
    (h : low ≤ high)
    (t : Token) :
    t.depthAfter low ≤ t.depthAfter high := by
  cases t with
  | openBrace | openBracket => exact Nat.succ_le_succ h
  | closeBrace | closeBracket => exact Nat.sub_le_sub_right h 1
  | comma | colon | scalar | flawedNumber | flawedText | bad => exact h

/- Nor are fewer ever open. -/
theorem nesting_mono
    {low high : Nat}
    (h : low ≤ high)
    (ts : List Token) :
    nesting low ts ≤ nesting high ts := by
  induction ts generalizing low high with
  | nil => exact h
  | cons t ts ih =>
      have hRest := ih (depthAfter_mono h t)
      simp only [nesting]
      omega

end Token

/- How many brackets and braces of a text are open at once. -/
def Text.nesting (text : String) : Nat :=
  Token.nesting 0 (Token.lex text.toList)

------------------------------------------------------------
-- Written Trees
------------------------------------------------------------

namespace Json

/- The highest of some items is one of them. -/
theorem itemsHeight_le
    {items : List Json}
    {bound : Nat}
    (h : ∀ item ∈ items, item.height ≤ bound) :
    height.itemsHeight items ≤ bound := by
  induction items with
  | nil => exact Nat.zero_le bound
  | cons item rest ih =>
      rw [List.forall_mem_cons] at h
      exact Nat.max_le.mpr ⟨h.1, ih h.2⟩

/- So is the highest value of some fields. -/
theorem fieldsHeight_le
    {fields : List (String × Json)}
    {bound : Nat}
    (h : ∀ field ∈ fields, field.2.height ≤ bound) :
    height.fieldsHeight fields ≤ bound := by
  induction fields with
  | nil => exact Nat.zero_le bound
  | cons field rest ih =>
      rw [List.forall_mem_cons] at h
      exact Nat.max_le.mpr ⟨h.1, ih h.2⟩

mutual

/- The tokens of a tree open as many as the tree is high. -/
theorem nesting_tokens :
    ∀ (j : Json) (depth : Nat) (rest : List Token),
      Token.nesting depth (j.tokens ++ rest) =
        max (depth + j.height) (Token.nesting depth rest)
  | .scalar _, _, _ => rfl
  | .array items, depth, rest => by
      have hItems :=
        nesting_itemTokens items (depth + 1) (.closeBracket :: rest)
      simp only [tokens, List.cons_append, List.append_assoc,
        List.nil_append, Token.nesting, Token.depthAfter,
        Nat.add_sub_cancel, hItems, height]
      omega
  | .object fields, depth, rest => by
      have hFields :=
        nesting_fieldTokens fields (depth + 1) (.closeBrace :: rest)
      simp only [tokens, List.cons_append, List.append_assoc,
        List.nil_append, Token.nesting, Token.depthAfter,
        Nat.add_sub_cancel, hFields, height]
      omega

/- Those of array items as many as the highest item is. -/
theorem nesting_itemTokens :
    ∀ (items : List Json) (depth : Nat) (rest : List Token),
      Token.nesting depth (itemTokens items ++ rest) =
        max (depth + height.itemsHeight items)
          (Token.nesting depth rest)
  | [], depth, rest => (Nat.max_eq_right (Token.le_nesting _ _)).symm
  | [item], depth, rest => by
      simp only [itemTokens, height.itemsHeight, Nat.max_zero,
        nesting_tokens item depth rest]
  | item :: next :: more, depth, rest => by
      have hMore := nesting_itemTokens (next :: more) depth rest
      rw [itemTokens, height.itemsHeight]
      · simp only [List.cons_append, List.append_assoc, Token.nesting,
          Token.depthAfter, nesting_tokens item, hMore]
        omega
      · simp

/- And those of object fields as many as the highest value is. -/
theorem nesting_fieldTokens :
    ∀ (fields : List (String × Json)) (depth : Nat)
      (rest : List Token),
      Token.nesting depth (fieldTokens fields ++ rest) =
        max (depth + height.fieldsHeight fields)
          (Token.nesting depth rest)
  | [], depth, rest => (Nat.max_eq_right (Token.le_nesting _ _)).symm
  | [(key, value)], depth, rest => by
      simp only [fieldTokens, height.fieldsHeight, Nat.max_zero,
        List.cons_append, Token.nesting, Token.depthAfter,
        nesting_tokens value depth rest]
      omega
  | (key, value) :: next :: more, depth, rest => by
      have hMore := nesting_fieldTokens (next :: more) depth rest
      rw [fieldTokens, height.fieldsHeight]
      · simp only [List.cons_append, List.append_assoc, Token.nesting,
          Token.depthAfter, nesting_tokens value, hMore]
        omega
      · simp

end

/- A written text is nested as deep as its tree is high. -/
theorem nesting_render
    {j : Json}
    (hj : j.Writable) :
    Text.nesting j.render = j.height := by
  have hTokens := j.nesting_tokens 0 []
  rw [List.append_nil, Nat.zero_add] at hTokens
  rw [Text.nesting, render, String.toList_ofList, lex_chars hj, hTokens]
  exact Nat.max_zero _

end Json

------------------------------------------------------------
-- Scalars of a Text
------------------------------------------------------------

namespace Token

/- An integer that is read can be written. -/
theorem writable_of_toInt?
    {n : Numeral}
    {i : Int}
    (h : n.toInt? = some i) :
    (Scalar.int i).Writable := by
  unfold Numeral.toInt? at h
  generalize Nat.ofDigitChars 10 n.whole 0 = m at h
  split at h
  · cases h
  · split at h
    · rcases Option.ite_none_right_eq_some.mp h with ⟨hRange, hInt⟩
      cases hInt
      refine ⟨hRange.2, ?_⟩
      simp only [UInt64.size]
      omega
    · rcases Option.ite_none_right_eq_some.mp h with ⟨hRange, hInt⟩
      cases hInt
      refine ⟨Int.le_trans (by decide) (Int.natCast_nonneg m), ?_⟩
      exact_mod_cast hRange

/- A number that is read can be written. -/
theorem writable_of_toToken
    {n : Numeral}
    {s : Scalar}
    (h : n.toToken = .scalar s) :
    s.Writable := by
  unfold Numeral.toToken at h
  split at h
  · rename_i i hInt
    cases h
    exact writable_of_toInt? hInt
  · rename_i x _ hFloat
    cases h
    rw [Numeral.toFloat?, Binary64.ofDecimal?,
      Option.map_eq_some_iff] at hFloat
    rcases hFloat with ⟨magnitude, _, rfl⟩
    rfl
  · cases h

/- So can every scalar at the front of a text. -/
theorem writable_of_scan?
    {cs rest : List Char}
    {s : Scalar}
    (h : scan? cs = some (.scalar s, rest)) :
    s.Writable := by
  unfold scan? at h
  split at h
  · cases h
  · cases h
  · cases h
  · cases h
  · cases h
  · cases h
  · rename_i text
    rcases Option.map_eq_some_iff.mp h with ⟨⟨codes, _⟩, _, hToken⟩
    have hString : ofCodes codes = .scalar s :=
      congrArg Prod.fst hToken
    unfold ofCodes at hString
    split at hString
    · cases hString
      trivial
    · cases hString
  · cases h
    trivial
  · cases h
    trivial
  · cases h
    trivial
  · rcases Option.map_eq_some_iff.mp h with ⟨⟨n, _⟩, _, hToken⟩
    exact writable_of_toToken (congrArg Prod.fst hToken)

/- And every scalar in it. -/
theorem writable_of_mem_lex
    {cs : List Char}
    {s : Scalar}
    (h : .scalar s ∈ lex cs) :
    s.Writable := by
  unfold lex at h
  generalize cs.length + 1 = steps at h
  fun_induction lexWithin steps cs with
  | case1 => simp at h
  | case2 => simp at h
  | case3 steps c cs hGap ih => exact ih h
  | case4 steps c cs hGap t rest hScan ih =>
      rcases List.mem_cons.mp h with rfl | hRest
      · exact writable_of_scan? hScan
      · exact ih hRest
  | case5 => simp at h

end Token

------------------------------------------------------------
-- Parsed Trees
------------------------------------------------------------

namespace Token

/-
  At most `bound` are ever open in a list of tokens, and every
  scalar in it can be written.
-/
structure Bounded (bound depth : Nat) (ts : List Token) : Prop where
  nesting : nesting depth ts ≤ bound
  writable : ∀ s, .scalar s ∈ ts → s.Writable

namespace Bounded

variable {bound depth : Nat} {t : Token} {ts : List Token}

/- Behind a token the others stay within the bound. -/
theorem tail (h : Bounded bound depth (t :: ts)) :
    Bounded bound (t.depthAfter depth) ts where
  nesting := Nat.le_trans (Nat.le_max_right _ _) h.nesting
  writable := fun s hs => h.writable s (List.mem_cons_of_mem _ hs)

/- They do so too where one less is open. -/
theorem lower (h : Bounded bound (depth + 1) ts) :
    Bounded bound depth ts where
  nesting :=
    Nat.le_trans (nesting_mono (Nat.le_succ depth) ts) h.nesting
  writable := h.writable

/- What is open leaves room for what opened it. -/
theorem room_eq (h : Bounded bound (depth + 1) ts) :
    bound - depth = bound - (depth + 1) + 1 := by
  have hDepth := Nat.le_trans (le_nesting (depth + 1) ts) h.nesting
  omega

end Bounded

end Token

namespace Node

/-
  At most `height` arrays and objects stand inside each other,
  and every scalar inside can be written.
-/
inductive Within : Nat → Node → Prop where
  | scalar {height : Nat} {s : Scalar} :
      s.Writable → Within height (.scalar s)
  | flawed {height : Nat} : Within height .flawed
  | broken {height : Nat} : Within height .broken
  | array {height : Nat} {items : List Node} {closed : Bool} :
      (∀ item ∈ items, Within height item) →
        Within (height + 1) (.array items closed)
  | object {height : Nat} {fields : List (Key × Node)}
      {closed : Bool} :
      (∀ field ∈ fields, Within height field.2) →
        Within (height + 1) (.object fields closed)

mutual

/-
  A value of bounded tokens is no higher than the bound leaves
  room for.  A value that is cut off may leave brackets open, so
  behind it at least as many are open as before it.
-/
theorem within_parseValue :
    ∀ (steps : Nat) {bound depth : Nat} {ts : List Token},
      Token.Bounded bound depth ts →
        (parseValue steps ts).1.Within (bound - depth) ∧
          Token.Bounded bound depth (parseValue steps ts).2
  | 0, _, _, _, h => ⟨.broken, h⟩
  | steps + 1, bound, depth, ts, h => by
      unfold parseValue
      split
      case h_1 hSteps => cases hSteps
      case h_2 s ts _ =>
          exact ⟨.scalar (h.writable s (by simp)), h.tail⟩
      case h_3 | h_4 => exact ⟨.flawed, h.tail⟩
      case h_5 =>
          refine ⟨?_, h.tail.tail⟩
          rw [h.tail.room_eq]
          exact .array (by simp)
      case h_6 ts _ hSteps =>
          cases hSteps
          rcases within_parseItems steps h.tail with ⟨hItems, hRest⟩
          refine ⟨?_, hRest⟩
          rw [h.tail.room_eq]
          exact .array hItems
      case h_7 =>
          refine ⟨?_, h.tail.tail⟩
          rw [h.tail.room_eq]
          exact .object (by simp)
      case h_8 ts _ hSteps =>
          cases hSteps
          rcases within_parseFields steps h.tail with ⟨hFields, hRest⟩
          refine ⟨?_, hRest⟩
          rw [h.tail.room_eq]
          exact .object hFields
      case h_9 => exact ⟨.broken, h⟩

/- So are the items of an array, up to what closes it. -/
theorem within_parseItems :
    ∀ (steps : Nat) {bound depth : Nat} {ts : List Token},
      Token.Bounded bound (depth + 1) ts →
        (∀ item ∈ (parseItems steps ts).1,
          item.Within (bound - (depth + 1))) ∧
          Token.Bounded bound depth (parseItems steps ts).2.2
  | 0, _, _, _, h => ⟨by simp [parseItems], h.lower⟩
  | steps + 1, bound, depth, ts, h => by
      have hValue := within_parseValue steps h
      unfold parseItems
      split
      case h_1 item rest hItem =>
          rw [hItem] at hValue
          have hMore := within_parseItems steps hValue.2.tail
          exact ⟨List.forall_mem_cons.mpr ⟨hValue.1, hMore.1⟩, hMore.2⟩
      case h_2 item rest hItem =>
          rw [hItem] at hValue
          exact
            ⟨List.forall_mem_singleton.mpr hValue.1, hValue.2.tail⟩
      -- The array is cut off here and its bracket stays open.
      case h_3 item rest _ _ hItem =>
          rw [hItem] at hValue
          exact ⟨List.forall_mem_singleton.mpr hValue.1, hValue.2.lower⟩

/- And the values of an object's fields. -/
theorem within_parseFields :
    ∀ (steps : Nat) {bound depth : Nat} {ts : List Token},
      Token.Bounded bound (depth + 1) ts →
        (∀ field ∈ (parseFields steps ts).1,
          field.2.Within (bound - (depth + 1))) ∧
          Token.Bounded bound depth (parseFields steps ts).2.2
  | 0, _, _, _, h => ⟨by simp [parseFields], h.lower⟩
  | steps + 1, bound, depth, ts, h => by
      unfold parseFields
      split
      case h_1 hSteps => cases hSteps
      case h_2 key ts hSteps =>
          cases hSteps
          exact within_parseField steps (.text key) h.tail.tail
      case h_3 ts hSteps =>
          cases hSteps
          exact within_parseField steps .flawed h.tail.tail
      case h_4 =>
          exact ⟨List.forall_mem_singleton.mpr .broken, h.tail.lower⟩
      case h_5 => exact ⟨by simp, h.lower⟩

theorem within_parseField :
    ∀ (steps : Nat) {bound depth : Nat} (key : Key)
      {ts : List Token},
      Token.Bounded bound (depth + 1) ts →
        (∀ field ∈ (parseField steps key ts).1,
          field.2.Within (bound - (depth + 1))) ∧
          Token.Bounded bound depth (parseField steps key ts).2.2
  | 0, _, _, _, _, h =>
      ⟨List.forall_mem_singleton.mpr .broken, h.lower⟩
  | steps + 1, bound, depth, key, ts, h => by
      have hValue := within_parseValue steps h
      unfold parseField
      split
      case h_1 value rest hItem =>
          rw [hItem] at hValue
          have hMore := within_parseFields steps hValue.2.tail
          exact ⟨List.forall_mem_cons.mpr ⟨hValue.1, hMore.1⟩, hMore.2⟩
      case h_2 value rest hItem =>
          rw [hItem] at hValue
          exact ⟨List.forall_mem_singleton.mpr hValue.1, hValue.2.tail⟩
      case h_3 value rest _ _ hItem =>
          rw [hItem] at hValue
          exact ⟨List.forall_mem_singleton.mpr hValue.1, hValue.2.lower⟩

end

/- What is read of a text is no higher than the text is nested. -/
theorem within_parse (text : String) :
    (parse (Token.lex text.toList)).1.Within (Text.nesting text) := by
  have hTokens :
      Token.Bounded (Text.nesting text) 0 (Token.lex text.toList) :=
    ⟨Nat.le_refl _, fun _ hs => Token.writable_of_mem_lex hs⟩
  exact (within_parseValue _ hTokens).1

/-
  The tree of a node without a fault can be written and is no
  higher than the node.
-/
theorem within_strict?
    {height room : Nat}
    {node : Node}
    {j : Json}
    (hNode : node.Within height)
    (h : node.strict? room = some j) :
    j.Writable ∧ j.height ≤ height := by
  induction hNode generalizing room j with
  | @scalar height s hs =>
      have hScalar : some (Json.scalar s) = some j := by
        cases room <;> exact h
      cases hScalar
      exact ⟨hs, Nat.zero_le height⟩
  | flawed =>
      cases room <;> cases h
  | broken =>
      cases room <;> cases h
  | @array height items closed hItems ih =>
      match room, closed, h with
      | room + 1, true, h =>
          rcases Option.map_eq_some_iff.mp h with ⟨js, hItems, rfl⟩
          have hParts : ∀ j ∈ js, j.Writable ∧ j.height ≤ height := by
            intro j hj
            rcases exists_mem_of_forall₂
              (mapM_eq_some_iff.mp hItems) hj with ⟨item, hItem, hRead⟩
            exact ih item hItem hRead
          constructor
          · rw [Json.Writable, Json.writableItems_iff]
            exact fun j hj => (hParts j hj).1
          · exact Nat.succ_le_succ
              (Json.itemsHeight_le fun j hj => (hParts j hj).2)
  | @object height fields closed hFields ih =>
      match room, closed, h with
      | room + 1, true, h =>
          rcases Option.map_eq_some_iff.mp h with ⟨entries, hFields, rfl⟩
          have hParts :
              ∀ entry ∈ entries,
                entry.2.Writable ∧ entry.2.height ≤ height := by
            intro entry hEntry
            rcases exists_mem_of_forall₂
              (mapM_eq_some_iff.mp hFields) hEntry with
              ⟨⟨key, value⟩, hField, hRead⟩
            simp only [Option.bind_eq_bind,
              Option.bind_eq_some_iff] at hRead
            rcases hRead with ⟨_, _, j, hValue, hPair⟩
            cases hPair
            exact ih _ hField hValue
          constructor
          · rw [Json.Writable, Json.writableFields_iff]
            exact fun entry hEntry => (hParts entry hEntry).1
          · exact Nat.succ_le_succ
              (Json.fieldsHeight_le fun entry hEntry =>
                (hParts entry hEntry).2)

end Node

end GraphBag
