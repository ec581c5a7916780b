import GraphBag.Json.Node
import GraphBag.Proofs.Json.Lexing

/-
  A written tree is parsed back from its tokens, and a parsed
  tree determines what was written.

  Main declarations:
    * `Json.parseValue_tokens`
    * `Json.parse_chars`
    * `Json.strict?_toNode`
    * `Json.chars_append_inj`
-/

namespace GraphBag

/- Reading each member of a list with success reads the list. -/
theorem mapM_map_eq_pure
    {m : Type → Type}
    [Monad m] [LawfulMonad m]
    {α β γ : Type}
    {f : α → β}
    {g : β → m γ}
    {k : α → γ}
    {xs : List α}
    (h : ∀ x ∈ xs, g (f x) = pure (k x)) :
    (xs.map f).mapM g = pure (xs.map k) := by
  induction xs with
  | nil => rfl
  | cons x xs ih =>
      have hFirst := h x (by simp)
      have hRest := ih fun y hy => h y (by simp [hy])
      simp [hFirst, hRest]

namespace Json

------------------------------------------------------------
-- Parsing
------------------------------------------------------------

/- A tree starts with a token that opens a value. -/
theorem exists_tokens_eq_cons (j : Json) :
    ∃ t ts, j.tokens = t :: ts ∧ t ≠ .closeBracket := by
  cases j with
  | scalar s => exact ⟨.scalar s, [], rfl, by simp⟩
  | array items => exact ⟨.openBracket, _, rfl, by simp⟩
  | object fields => exact ⟨.openBrace, _, rfl, by simp⟩

/- Items start with a token that opens a value. -/
theorem exists_itemTokens_eq_cons
    (item : Json)
    (rest : List Json) :
    ∃ t ts,
      itemTokens (item :: rest) = t :: ts ∧ t ≠ .closeBracket := by
  rcases item.exists_tokens_eq_cons with ⟨t, ts, hTokens, ht⟩
  cases rest with
  | nil => exact ⟨t, ts, hTokens, ht⟩
  | cons next more =>
      refine ⟨t, ts ++ .comma :: itemTokens (next :: more), ?_, ht⟩
      simp [itemTokens, hTokens]

/- Fields start with a key. -/
theorem exists_fieldTokens_eq_cons
    (key : String)
    (value : Json)
    (rest : List (String × Json)) :
    ∃ ts,
      fieldTokens ((key, value) :: rest) =
        .scalar (.string key) :: .colon :: ts := by
  cases rest with
  | nil => exact ⟨_, rfl⟩
  | cons next more => exact ⟨_, rfl⟩

/- Behind a value and a comma the parser reads more items. -/
theorem parseItems_of_comma
    {steps : Nat}
    {ts more rest : List Token}
    {item : Node}
    {items : List Node}
    {closed : Bool}
    (hItem : Node.parseValue steps ts = (item, .comma :: more))
    (hMore : Node.parseItems steps more = (items, closed, rest)) :
    Node.parseItems (steps + 1) ts = (item :: items, closed, rest) := by
  simp [Node.parseItems, hItem, hMore]

/- Behind a key and a colon it reads the value and more fields. -/
theorem parseFields_of_comma
    {steps : Nat}
    (key : String)
    {ts more rest : List Token}
    {value : Node}
    {fields : List (Key × Node)}
    {closed : Bool}
    (hValue : Node.parseValue steps ts = (value, .comma :: more))
    (hMore : Node.parseFields steps more = (fields, closed, rest)) :
    Node.parseFields (steps + 2)
        (.scalar (.string key) :: .colon :: ts) =
      ((.text key, value) :: fields, closed, rest) := by
  simp [Node.parseFields, Node.parseField, hValue, hMore]

mutual

/- The parser reads a tree back from its tokens. -/
theorem parseValue_tokens :
    ∀ {j : Json} {steps : Nat} {rest : List Token},
      3 * j.tokens.length ≤ steps + 2 →
        Node.parseValue steps (j.tokens ++ rest) = (j.toNode, rest)
  | .scalar s, steps, rest, hSteps => by
      cases steps with
      | zero => simp [tokens] at hSteps
      | succ steps => rfl
  | .array [], steps, rest, hSteps => by
      cases steps with
      | zero => simp [tokens, itemTokens] at hSteps
      | succ steps => rfl
  | .array (item :: more), steps, rest, hSteps => by
      simp only [tokens, List.cons_append, List.length_cons,
        List.length_append, List.length_nil] at hSteps
      cases steps with
      | zero => omega
      | succ steps =>
          have hItems : Node.parseItems steps
              (itemTokens (item :: more) ++ .closeBracket :: rest) =
                (toNodeItems (item :: more), true, rest) :=
            parseItems_itemTokens (by simp) (by omega)
          rcases exists_itemTokens_eq_cons item more with
            ⟨t, ts, hTokens, ht⟩
          rw [hTokens] at hItems
          have hOpen :
              tokens (.array (item :: more)) ++ rest =
                .openBracket :: t :: (ts ++ .closeBracket :: rest) := by
            simp [tokens, hTokens]
          rw [hOpen, Node.parseValue]
          · rw [List.cons_append] at hItems
            rw [hItems]
            rfl
          · intro tail hTail
            exact ht (List.cons.inj hTail).1
  | .object [], steps, rest, hSteps => by
      cases steps with
      | zero => simp [tokens, fieldTokens] at hSteps
      | succ steps => rfl
  | .object ((key, value) :: more), steps, rest, hSteps => by
      simp only [tokens, List.cons_append, List.length_cons,
        List.length_append, List.length_nil] at hSteps
      cases steps with
      | zero => omega
      | succ steps =>
          have hFields : Node.parseFields steps
              (fieldTokens ((key, value) :: more) ++
                .closeBrace :: rest) =
                (toNodeFields ((key, value) :: more), true, rest) :=
            parseFields_fieldTokens (by simp) (by omega)
          rcases exists_fieldTokens_eq_cons key value more with
            ⟨ts, hTokens⟩
          rw [hTokens] at hFields
          have hOpen :
              tokens (.object ((key, value) :: more)) ++ rest =
                .openBrace :: .scalar (.string key) :: .colon ::
                  (ts ++ .closeBrace :: rest) := by
            simp [tokens, hTokens]
          rw [hOpen, Node.parseValue]
          · simp only [List.cons_append] at hFields
            rw [hFields]
            rfl
          · intro tail hTail
            cases hTail

/- It reads items back up to the closing bracket. -/
theorem parseItems_itemTokens :
    ∀ {items : List Json} {steps : Nat} {rest : List Token},
      items ≠ [] → 3 * (itemTokens items).length ≤ steps →
        Node.parseItems steps
            (itemTokens items ++ .closeBracket :: rest) =
          (toNodeItems items, true, rest)
  | [], _, _, hItems, _ => by
      exact absurd rfl hItems
  | [item], steps, rest, _, hSteps => by
      simp only [itemTokens] at hSteps ⊢
      cases steps with
      | zero =>
          rcases item.exists_tokens_eq_cons with ⟨t, ts, hTokens, -⟩
          simp [hTokens] at hSteps
      | succ steps =>
          have hItem :
              Node.parseValue steps
                (item.tokens ++ .closeBracket :: rest) =
                (item.toNode, .closeBracket :: rest) :=
            parseValue_tokens (by omega)
          simp [Node.parseItems, hItem, toNodeItems]
  | item :: next :: more, steps, rest, _, hSteps => by
      simp only [itemTokens, List.length_append,
        List.length_cons] at hSteps
      cases steps with
      | zero => omega
      | succ steps =>
          have hMore :
              Node.parseItems steps
                (itemTokens (next :: more) ++ .closeBracket :: rest) =
                (toNodeItems (next :: more), true, rest) :=
            parseItems_itemTokens (by simp) (by omega)
          have hItem :
              Node.parseValue steps
                (item.tokens ++ .comma ::
                  (itemTokens (next :: more) ++
                    .closeBracket :: rest)) =
                (item.toNode, .comma ::
                  (itemTokens (next :: more) ++
                    .closeBracket :: rest)) :=
            parseValue_tokens (by omega)
          simpa [itemTokens, toNodeItems] using
            parseItems_of_comma hItem hMore

/- It reads fields back up to the closing brace. -/
theorem parseFields_fieldTokens :
    ∀ {fields : List (String × Json)} {steps : Nat}
      {rest : List Token},
      fields ≠ [] → 3 * (fieldTokens fields).length ≤ steps →
        Node.parseFields steps
            (fieldTokens fields ++ .closeBrace :: rest) =
          (toNodeFields fields, true, rest)
  | [], _, _, hFields, _ => by
      exact absurd rfl hFields
  | [(key, value)], steps, rest, _, hSteps => by
      simp only [fieldTokens, List.length_cons] at hSteps
      match steps with
      | steps + 2 =>
          have hValue :
              Node.parseValue steps
                (value.tokens ++ .closeBrace :: rest) =
                (value.toNode, .closeBrace :: rest) :=
            parseValue_tokens (by omega)
          simp [fieldTokens, Node.parseFields, Node.parseField, hValue,
            toNodeFields]
  | (key, value) :: (next, other) :: more, steps, rest, _, hSteps => by
      simp only [fieldTokens, List.length_append, List.cons_append,
        List.length_cons] at hSteps
      match steps with
      | steps + 2 =>
          have hMore :
              Node.parseFields steps
                (fieldTokens ((next, other) :: more) ++
                  .closeBrace :: rest) =
                (toNodeFields ((next, other) :: more), true, rest) :=
            parseFields_fieldTokens (by simp) (by omega)
          have hValue :
              Node.parseValue steps
                (value.tokens ++ .comma ::
                  (fieldTokens ((next, other) :: more) ++
                    .closeBrace :: rest)) =
                (value.toNode, .comma ::
                  (fieldTokens ((next, other) :: more) ++
                    .closeBrace :: rest)) :=
            parseValue_tokens (by omega)
          simpa [fieldTokens, toNodeFields] using
            parseFields_of_comma key hValue hMore

end

/- A tree is parsed back from the front of a list of tokens. -/
theorem parse_tokens
    (j : Json)
    (rest : List Token) :
    Node.parse (j.tokens ++ rest) = (j.toNode, rest) := by
  apply parseValue_tokens
  rw [List.length_append]
  omega

------------------------------------------------------------
-- Reading One Tree in One Way
------------------------------------------------------------

mutual

/- Different trees are different nodes. -/
theorem toNode_inj :
    ∀ {i j : Json}, i.toNode = j.toNode → i = j
  | .scalar s, .scalar t, h => by
      simpa [toNode] using h
  | .array items, .array others, h => by
      have hItems : toNodeItems items = toNodeItems others := by
        simpa [toNode] using h
      rw [toNodeItems_inj hItems]
  | .object fields, .object others, h => by
      have hFields : toNodeFields fields = toNodeFields others := by
        simpa [toNode] using h
      rw [toNodeFields_inj hFields]
  | .scalar _, .array _, h | .scalar _, .object _, h
  | .array _, .scalar _, h | .array _, .object _, h
  | .object _, .scalar _, h | .object _, .array _, h => by
      simp [toNode] at h

theorem toNodeItems_inj :
    ∀ {items others : List Json},
      toNodeItems items = toNodeItems others → items = others
  | [], [], _ => rfl
  | [], _ :: _, h | _ :: _, [], h => by
      simp [toNodeItems] at h
  | item :: more, other :: rest, h => by
      have hParts := List.cons.inj h
      rw [toNode_inj hParts.1, toNodeItems_inj hParts.2]

theorem toNodeFields_inj :
    ∀ {fields others : List (String × Json)},
      toNodeFields fields = toNodeFields others → fields = others
  | [], [], _ => rfl
  | [], _ :: _, h | _ :: _, [], h => by
      simp [toNodeFields] at h
  | (key, value) :: more, (name, other) :: rest, h => by
      simp only [toNodeFields, List.cons.injEq, Prod.mk.injEq,
        Key.text.injEq] at h
      rw [h.1.1, toNode_inj h.1.2, toNodeFields_inj h.2]

end

/-
  Written trees are told apart by their texts, also when other
  text follows that cannot continue a number.
-/
theorem chars_append_inj
    {i j : Json}
    (hi : i.Writable)
    (hj : j.Writable)
    {rest others : List Char}
    (hRest : EndsNumber rest)
    (hOthers : EndsNumber others)
    (h : i.chars ++ rest = j.chars ++ others) :
    i = j ∧ rest = others := by
  have hLeft := (lexes_tokens hi hRest).taken j.tokens.length
  have hRight := (lexes_tokens hj hOthers).taken i.tokens.length
  have hTokens :
      i.tokens ++ Token.lexWithin j.tokens.length rest =
        j.tokens ++ Token.lexWithin i.tokens.length others := by
    unfold chars at h
    rw [← hLeft, ← hRight, h, Nat.add_comm]
  have hNodes := congrArg Node.parse hTokens
  rw [parse_tokens, parse_tokens] at hNodes
  have hSame : i = j := toNode_inj (congrArg Prod.fst hNodes)
  subst hSame
  exact ⟨rfl, List.append_cancel_left h⟩

------------------------------------------------------------
-- Nesting
------------------------------------------------------------

/- The items of an array are not higher than the highest. -/
theorem height_le_itemsHeight :
    ∀ {items : List Json} {item : Json},
      item ∈ items → item.height ≤ height.itemsHeight items
  | first :: more, item, h => by
      simp only [height.itemsHeight]
      rcases List.mem_cons.mp h with rfl | hMore
      · exact Nat.le_max_left _ _
      · exact Nat.le_trans (height_le_itemsHeight hMore)
          (Nat.le_max_right _ _)

/- Nor are the values of an object's fields. -/
theorem height_le_fieldsHeight :
    ∀ {fields : List (String × Json)} {key : String} {value : Json},
      (key, value) ∈ fields →
        value.height ≤ height.fieldsHeight fields
  | (name, first) :: more, key, value, h => by
      simp only [height.fieldsHeight]
      rcases List.mem_cons.mp h with hHere | hMore
      · rw [(Prod.mk.inj hHere).2]
        exact Nat.le_max_left _ _
      · exact Nat.le_trans (height_le_fieldsHeight hMore)
          (Nat.le_max_right _ _)

/- Items as nodes are the nodes of the items. -/
theorem toNodeItems_eq_map (items : List Json) :
    toNodeItems items = items.map toNode := by
  induction items with
  | nil => rfl
  | cons item more ih => simp [toNodeItems, ih]

/- Fields as nodes are the nodes under their keys. -/
theorem toNodeFields_eq_map (fields : List (String × Json)) :
    toNodeFields fields =
      fields.map fun (key, value) => (.text key, value.toNode) := by
  induction fields with
  | nil => rfl
  | cons field more ih => simp [toNodeFields, ih]

/- A tree within the room is read without a fault. -/
theorem strict?_toNode
    {room : Nat}
    {j : Json}
    (hj : j.height ≤ room) :
    j.toNode.strict? room = some j := by
  induction room generalizing j with
  | zero =>
      cases j with
      | scalar s => rfl
      | array items => simp [height] at hj
      | object fields => simp [height] at hj
  | succ room ih =>
      cases j with
      | scalar s => rfl
      | array items =>
          simp only [height, Nat.add_le_add_iff_right] at hj
          have hItems :
              (toNodeItems items).mapM (Node.strict? room) =
                some (items.map id) := by
            rw [toNodeItems_eq_map]
            apply mapM_map_eq_pure
            intro item hItem
            exact ih (Nat.le_trans (height_le_itemsHeight hItem) hj)
          simp [toNode, Node.strict?, hItems]
      | object fields =>
          simp only [height, Nat.add_le_add_iff_right] at hj
          have hFields :
              ((toNodeFields fields).mapM fun (key, value) => do
                let key ← Node.keyText? key
                let value ← Node.strict? room value
                some (key, value)) = some (fields.map id) := by
            rw [toNodeFields_eq_map]
            apply mapM_map_eq_pure
            intro field hField
            have hValue :=
              ih (Nat.le_trans (height_le_fieldsHeight hField) hj)
            simp [Node.keyText?, hValue]
          rw [toNode, Node.strict?, hFields, List.map_id]
          rfl

end Json

end GraphBag
