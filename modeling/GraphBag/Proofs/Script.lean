import GraphBag.Proofs.Result
import GraphBag.Script

/-
  Script buffers as joined tokens.

  Main declarations:
    * `Buffer.extend`
    * `Buffer.push_eq_ok_iff`
    * `Buffer.Adds`
    * `Buffer.toList_text_extend`
    * `Context.nested_eq_ok_iff`
-/

namespace GraphBag

------------------------------------------------------------
-- Blank Texts
------------------------------------------------------------

namespace Text

/- A joined text is blank when both parts are. -/
theorem isBlank_append (s t : String) :
    isBlank (s ++ t) = (isBlank s && isBlank t) := by
  simp [isBlank]

/- One character that is no white space fills a text. -/
theorem isBlank_eq_false_of_mem
    {s : String}
    {c : Char}
    (hMem : c ∈ s.toList)
    (hc : isSpace c = false) :
    isBlank s = false := by
  rw [isBlank, List.all_eq_false]
  exact ⟨c, hMem, by simp [hc]⟩

/- A text that is not blank is not empty. -/
theorem isEmpty_eq_false_of_isBlank
    {s : String}
    (hs : isBlank s = false) :
    s.isEmpty = false := by
  cases hEmpty : s.isEmpty with
  | false => rfl
  | true =>
      rw [String.isEmpty_iff] at hEmpty
      subst hEmpty
      exact absurd hs (by decide)

------------------------------------------------------------
-- Joined Texts
------------------------------------------------------------

/- The characters of joined texts. -/
theorem toList_intercalate_cons
    (sep first : String)
    (rest : List String) :
    (String.intercalate sep (first :: rest)).toList =
      first.toList ++
        rest.flatMap fun s => sep.toList ++ s.toList := by
  induction rest generalizing first with
  | nil => simp
  | cons next rest ih =>
      rw [String.intercalate_cons_cons]
      simp [ih]

/-
  Texts joined by commas are blank only when there is but one
  and that is blank.
-/
theorem isBlank_intercalate_cons
    (first : String)
    (rest : List String) :
    isBlank (String.intercalate ", " (first :: rest)) =
      (isBlank first && rest.isEmpty) := by
  cases rest with
  | nil => simp
  | cons next rest =>
      have hMem :
          ',' ∈ (String.intercalate ", " (first :: next :: rest)).toList := by
        rw [toList_intercalate_cons]
        simp
      rw [isBlank_eq_false_of_mem hMem (by decide)]
      simp

end Text

------------------------------------------------------------
-- Tokens Added to a Buffer
------------------------------------------------------------

namespace Buffer

/- The buffer with one more token, whatever it is. -/
def append (b : Buffer) (token : String) : Buffer :=
  if b.isEmpty then ⟨token⟩ else ⟨b.text ++ " " ++ token⟩

/- The buffer with more tokens. -/
def extend (b : Buffer) (tokens : List String) : Buffer :=
  tokens.foldl append b

@[simp] theorem extend_nil (b : Buffer) : b.extend [] = b :=
  rfl

@[simp] theorem extend_cons
    (b : Buffer)
    (token : String)
    (tokens : List String) :
    b.extend (token :: tokens) = (b.append token).extend tokens :=
  rfl

theorem extend_empty_cons
    (token : String)
    (tokens : List String) :
    empty.extend (token :: tokens) = extend ⟨token⟩ tokens :=
  rfl

theorem extend_append
    (b : Buffer)
    (tokens others : List String) :
    b.extend (tokens ++ others) =
      (b.extend tokens).extend others :=
  List.foldl_append

/- A token is added exactly when it is not blank. -/
theorem push_eq_ok_iff
    {b b' : Buffer}
    {step : Step}
    {token : String} :
    b.push step token = .ok b' ↔
      Text.isBlank token = false ∧ b' = b.append token := by
  cases hBlank : Text.isBlank token with
  | true => simp [push, hBlank]
  | false =>
      cases hEmpty : b.isEmpty with
      | true => simp [push, append, hBlank, hEmpty, eq_comm]
      | false => simp [push, append, hBlank, hEmpty, eq_comm]

/- A token comes after the text and a blank. -/
theorem append_of_text
    {b : Buffer}
    (hb : b.isEmpty = false)
    (token : String) :
    b.append token = ⟨b.text ++ " " ++ token⟩ := by
  simp [append, hb]

/- A buffer with text keeps it. -/
theorem isEmpty_append
    {b : Buffer}
    (hb : b.isEmpty = false)
    (token : String) :
    (b.append token).isEmpty = false := by
  rw [append_of_text hb]
  simp [isEmpty]

/- A token with text fills any buffer. -/
theorem isEmpty_append_of_token
    (b : Buffer)
    {token : String}
    (hToken : token.isEmpty = false) :
    (b.append token).isEmpty = false := by
  cases hb : b.isEmpty with
  | true =>
      rw [append, if_pos hb]
      exact hToken
  | false => exact isEmpty_append hb token

theorem isEmpty_extend
    {b : Buffer}
    (hb : b.isEmpty = false)
    (tokens : List String) :
    (b.extend tokens).isEmpty = false := by
  induction tokens generalizing b with
  | nil => exact hb
  | cons token tokens ih => exact ih (isEmpty_append hb token)

/- The text of a buffer is its tokens with blanks between. -/
theorem toList_text_extend
    {b : Buffer}
    (hb : b.isEmpty = false)
    (tokens : List String) :
    (b.extend tokens).text.toList =
      b.text.toList ++ tokens.flatMap fun t => ' ' :: t.toList := by
  induction tokens generalizing b with
  | nil => simp
  | cons token tokens ih =>
      rw [extend_cons, ih (isEmpty_append hb token),
        append_of_text hb]
      simp

/- The text of a buffer is the join of its tokens. -/
theorem text_extend_eq_intercalate
    {token : String}
    (hToken : token.isEmpty = false)
    (tokens : List String) :
    (extend ⟨token⟩ tokens).text =
      String.intercalate " " (token :: tokens) := by
  apply String.toList_injective
  rw [toList_text_extend hToken, Text.toList_intercalate_cons]
  rfl

/- A buffer whose text is not blank stays so. -/
theorem isBlank_text_extend
    {b : Buffer}
    (hb : Text.isBlank b.text = false)
    (tokens : List String) :
    Text.isBlank (b.extend tokens).text = false := by
  have hEmpty : b.isEmpty = false :=
    Text.isEmpty_eq_false_of_isBlank hb
  unfold Text.isBlank at hb ⊢
  rw [toList_text_extend hEmpty, List.all_append, hb,
    Bool.false_and]

/- The text of one buffer is one token of another. -/
theorem append_text
    {b inner : Buffer}
    (hb : b.isEmpty = false)
    (hInner : inner.isEmpty = false)
    (tokens : List String) :
    b.append (inner.extend tokens).text =
      (b.append inner.text).extend tokens := by
  induction tokens generalizing inner with
  | nil => simp
  | cons token tokens ih =>
      rw [extend_cons, extend_cons, ih (isEmpty_append hInner token)]
      rw [append_of_text (isEmpty_append hb inner.text),
        append_of_text hb, append_of_text hb,
        append_of_text hInner]
      simp [String.append_assoc]

------------------------------------------------------------
-- Steps That Add Tokens
------------------------------------------------------------

/-
  A step succeeds on any buffer under the same condition, and
  then adds the same tokens.
-/
def Adds
    (step : Buffer → Except CompileError Buffer)
    (condition : Prop)
    (tokens : List String) : Prop :=
  ∀ b b', step b = .ok b' ↔ condition ∧ b' = b.extend tokens

/- A pushed token is added when it is not blank. -/
theorem adds_push (step : Step) (token : String) :
    Adds (·.push step token) (Text.isBlank token = false) [token] := by
  intro b b'
  exact push_eq_ok_iff

/- A step that does nothing adds no token. -/
theorem adds_ok : Adds .ok True [] := by
  intro b b'
  simp [eq_comm]

/- Steps in a row add their tokens in a row. -/
theorem Adds.bind
    {first second : Buffer → Except CompileError Buffer}
    {p q : Prop}
    {tokens others : List String}
    (hFirst : Adds first p tokens)
    (hSecond : Adds second q others) :
    Adds (fun b => first b >>= second) (p ∧ q) (tokens ++ others) := by
  intro b b'
  rw [bind_eq_ok_iff, extend_append]
  constructor
  · rintro ⟨mid, hMid, hEnd⟩
    rcases (hFirst b mid).mp hMid with ⟨hp, rfl⟩
    rcases (hSecond _ b').mp hEnd with ⟨hq, rfl⟩
    exact ⟨⟨hp, hq⟩, rfl⟩
  · rintro ⟨⟨hp, hq⟩, hEnd⟩
    refine ⟨b.extend tokens, (hFirst b _).mpr ⟨hp, rfl⟩, ?_⟩
    exact (hSecond _ b').mpr ⟨hq, hEnd⟩

/- The condition of a step can be said in other words. -/
theorem Adds.congr
    {step : Buffer → Except CompileError Buffer}
    {p q : Prop}
    {tokens : List String}
    (hStep : Adds step p tokens)
    (hIff : p ↔ q) :
    Adds step q tokens := by
  intro b b'
  rw [hStep b b', hIff]

end Buffer

------------------------------------------------------------
-- Nesting
------------------------------------------------------------

namespace Context

/- How many more commands may be embedded. -/
def room (ctx : Context) : Nat :=
  ctx.maxDepth - ctx.depth

/- A command can be embedded while there is room, and takes it. -/
theorem nested_eq_ok_iff {ctx ctx' : Context} :
    ctx.nested = .ok ctx' ↔
      0 < ctx.room ∧ ctx' = { ctx with depth := ctx.depth + 1 } := by
  rw [nested, room]
  by_cases hDeep : ctx.maxDepth < ctx.depth + 1
  · rw [if_pos hDeep]
    simp only [reduceCtorEq, false_iff]
    omega
  · rw [if_neg hDeep]
    have hRoom : 0 < ctx.maxDepth - ctx.depth := by
      omega
    simp [hRoom, eq_comm]

end Context

end GraphBag
