import GraphBag.Proofs.Text.Quoted
import GraphBag.Proofs.Value.RoundTrip
import GraphBag.Sql.Literal

/-
  Literals in a longer text.  A literal shows its kind by its
  first character and ends where its value does.

  Main declarations:
    * `Sql.shapeOf?`
    * `Sql.head_literalChars`
    * `Sql.literalChars_append_inj`
    * `Sql.cast_append_inj`
-/

namespace GraphBag

namespace Sql

------------------------------------------------------------
-- First Characters
------------------------------------------------------------

/- What the first character of a literal tells. -/
inductive Shape where
  | null
  | bool
  | number
  | string
  | list
  | map
deriving DecidableEq, Repr

/- The shape of a value. -/
def shape : Value → Shape
  | .null => .null
  | .bool _ => .bool
  | .int _ | .float _ => .number
  | .string _ => .string
  | .list _ => .list
  | .map _ => .map

/- The shape that a first character tells. -/
def shapeOf? (c : Char) : Option Shape :=
  if c = 'N' then some .null
  else if c = 't' ∨ c = 'f' then some .bool
  else if c.isDigit = true ∨ c = '-' then some .number
  else if c = '\'' then some .string
  else if c = '[' then some .list
  else if c = '\x7b' then some .map
  else none

/- A digit or a minus sign tells a number. -/
theorem shapeOf?_number
    {c : Char}
    (hc : c.isDigit = true ∨ c = '-') :
    shapeOf? c = some .number := by
  have hNot : c ≠ 'N' ∧ c ≠ 't' ∧ c ≠ 'f' := by
    refine ⟨?_, ?_, ?_⟩
    · rintro rfl
      simp at hc
    · rintro rfl
      simp at hc
    · rintro rfl
      simp at hc
  simp [shapeOf?, hNot, hc]

/- No literal starts with white space. -/
theorem shapeOf?_of_isSpace
    {c : Char}
    (hc : Text.isSpace c = true) :
    shapeOf? c = none := by
  have hNot : ∀ d, Text.isSpace d = false → c ≠ d := by
    rintro d hd rfl
    rw [hc] at hd
    exact Bool.noConfusion hd
  have hDigit : c.isDigit = false := by
    simp only [Text.isSpace, Text.spaces, List.any_cons,
      List.any_nil, Bool.or_eq_true, Bool.and_eq_true,
      decide_eq_true_eq, Bool.false_eq_true, or_false] at hc
    rw [← Bool.not_eq_true]
    intro hDigit
    simp only [Char.isDigit, Bool.and_eq_true, decide_eq_true_eq,
      ge_iff_le, UInt32.le_iff_toNat_le] at hDigit
    have hLow : 48 ≤ c.toNat := hDigit.1
    have hHigh : c.toNat ≤ 57 := hDigit.2
    omega
  simp [shapeOf?, hDigit, hNot 'N' (by decide),
    hNot 't' (by decide), hNot 'f' (by decide),
    hNot '-' (by decide), hNot '\'' (by decide),
    hNot '[' (by decide), hNot '\x7b' (by decide)]

------------------------------------------------------------
-- Scalars
------------------------------------------------------------

/- The layout of numbers in statements can be read back. -/
theorem readable_sql : Layout.sql.Readable where
  whole := rfl
  positive := Or.inl rfl
  bounded := by
    intro e he
    simp only [Layout.sql, Bool.and_eq_true, decide_eq_true_eq] at he
    omega

/- A number is read back from its literal. -/
theorem scanNumeral?_literalChars
    (native : Bool)
    {v : Value}
    (hv : v.Finite)
    (hShape : shape v = .number)
    {rest : List Char}
    (hRest : EndsNumber rest) :
    ∃ n s,
      Token.scanNumeral? (literalChars native v ++ rest) =
          some (n, rest) ∧
        n.toToken = .scalar s ∧ v.toJson = .scalar s := by
  cases v with
  | int n =>
      have hWritable : (Scalar.int n.toInt).Writable :=
        Value.writable_toJson hv
      have hScan := Token.scanNumeral?_intChars n.toInt hRest
      rw [literalChars]
      refine ⟨_, .int n.toInt, hScan, ?_, rfl⟩
      simp [Token.Numeral.toToken,
        Token.toInt?_digits n.toInt hWritable.1 hWritable.2]
  | float x =>
      rcases Token.scanNumeral?_floatChars readable_sql hv hRest with
        ⟨n, hScan, hToken⟩
      refine ⟨n, .float x, ?_, hToken, rfl⟩
      rw [literalChars]
      exact hScan
  | null | bool | string | list | map => simp [shape] at hShape

/- A literal starts with the character of its shape. -/
theorem head_literalChars
    {native : Bool}
    {v : Value}
    (hv : v.Finite)
    (hQuoted : native = true → v.string? = none) :
    ∃ c cs,
      literalChars native v = c :: cs ∧
        shapeOf? c = some (shape v) := by
  have hNumber :
      shape v = .number →
        ∃ c cs,
          literalChars native v = c :: cs ∧
            shapeOf? c = some (shape v) := by
    intro hShape
    rcases scanNumeral?_literalChars native hv hShape
        endsNumber_nil with ⟨n, s, hScan, _⟩
    rw [List.append_nil] at hScan
    rcases Token.head_of_scanNumeral? hScan with ⟨c, cs, hEq, hc⟩
    exact ⟨c, cs, hEq, by rw [hShape, shapeOf?_number hc]⟩
  cases v with
  | null => exact ⟨_, _, rfl, rfl⟩
  | bool b =>
      cases b with
      | true => exact ⟨_, _, rfl, rfl⟩
      | false => exact ⟨_, _, rfl, rfl⟩
  | int n => exact hNumber rfl
  | float x => exact hNumber rfl
  | string s =>
      cases native with
      | true => simp [Value.string?] at hQuoted
      | false =>
          rw [literalChars]
          exact ⟨_, _, rfl, rfl⟩
  | list items =>
      rw [literalChars]
      exact ⟨_, _, rfl, rfl⟩
  | map entries =>
      rw [literalChars]
      exact ⟨_, _, rfl, rfl⟩

------------------------------------------------------------
-- Telling Literals Apart
------------------------------------------------------------

/- What can stand behind a literal. -/
def EndsLiteral (cs : List Char) : Prop :=
  ∀ c ∈ cs.head?, c ∈ [' ', ',', ']', ')']

theorem EndsLiteral.endsNumber
    {cs : List Char}
    (h : EndsLiteral cs) :
    EndsNumber cs := by
  intro c hc
  have hMem := h c hc
  simp only [List.mem_cons, List.not_mem_nil, or_false] at hMem
  rcases hMem with rfl | rfl | rfl | rfl <;> decide

/- A boolean or a number is read back from its literal. -/
theorem scan?_literalChars
    {v : Value}
    (hv : v.Finite)
    (hShape : shape v = .bool ∨ shape v = .number)
    {rest : List Char}
    (hRest : EndsNumber rest) :
    ∃ s,
      Token.scan? (literalChars false v ++ rest) =
          some (.scalar s, rest) ∧
        v.toJson = .scalar s := by
  rcases hShape with hShape | hShape
  · cases v with
    | bool b =>
        have hWritable : (Scalar.bool b).Writable := trivial
        refine ⟨.bool b, ?_, rfl⟩
        rw [literalChars]
        exact Token.scan?_scalarChars hWritable hRest
    | null | int | float | string | list | map =>
        simp [shape] at hShape
  · rcases scanNumeral?_literalChars false hv hShape hRest with
      ⟨n, s, hScan, hToken, hJson⟩
    refine ⟨s, ?_, hJson⟩
    rw [Token.scan?_of_scanNumeral? hScan, hToken]

/- Booleans and numbers are told apart by their literals. -/
theorem scalar_append_inj
    {v w : Value}
    (hv : v.Finite)
    (hw : w.Finite)
    (hShapes : shape v = shape w)
    (hShape : shape v = .bool ∨ shape v = .number)
    {rest others : List Char}
    (hRest : EndsLiteral rest)
    (hOthers : EndsLiteral others)
    (h : literalChars false v ++ rest = literalChars false w ++ others) :
    v = w ∧ rest = others := by
  rcases scan?_literalChars hv hShape hRest.endsNumber with
    ⟨s, hScan, hJson⟩
  rcases scan?_literalChars hw (hShapes ▸ hShape)
      hOthers.endsNumber with ⟨t, hOther, hOtherJson⟩
  rw [h, hOther] at hScan
  simp only [Option.some.injEq, Prod.mk.injEq,
    Token.scalar.injEq] at hScan
  rcases hScan with ⟨rfl, rfl⟩
  exact ⟨Value.toJson_inj (hJson.trans hOtherJson.symm), rfl⟩

/- Equal literals are of values of one shape. -/
theorem shape_eq_of_append_eq
    {v w : Value}
    (hv : v.Finite)
    (hw : w.Finite)
    {rest others : List Char}
    (h : literalChars false v ++ rest = literalChars false w ++ others) :
    shape v = shape w := by
  rcases head_literalChars hv Bool.false_ne_true.elim with
    ⟨c, cs, hEq, hShape⟩
  rcases head_literalChars hw Bool.false_ne_true.elim with
    ⟨d, ds, hOther, hOtherShape⟩
  rw [hEq, hOther] at h
  have hHead : c = d := (List.cons.inj h).1
  rw [hHead, hOtherShape] at hShape
  exact (Option.some.inj hShape).symm

/- What follows the first item of a list. -/
def literalTail (native : Bool) : List Value → List Char
  | [] => []
  | items => ',' :: literalItems native items

theorem literalItems_cons
    (native : Bool)
    (item : Value)
    (items : List Value) :
    literalItems native (item :: items) =
      literalChars native item ++ literalTail native items := by
  cases items with
  | nil => simp [literalItems, literalTail]
  | cons next items => simp [literalItems, literalTail]

theorem endsLiteral_literalTail
    (items : List Value)
    (rest : List Char) :
    EndsLiteral (literalTail false items ++ ']' :: rest) := by
  cases items with
  | nil => exact forall_mem_head?_cons (by decide) _
  | cons item items => exact forall_mem_head?_cons (by decide) _

/- A list with items does not close at once. -/
theorem literalItems_cons_ne_bracket
    {item : Value}
    (hItem : item.Finite)
    (items : List Value)
    (rest others : List Char) :
    literalItems false (item :: items) ++ rest ≠ ']' :: others := by
  intro h
  rcases head_literalChars hItem Bool.false_ne_true.elim with
    ⟨c, cs, hEq, hShape⟩
  rw [literalItems_cons, hEq] at h
  have hHead : c = ']' := (List.cons.inj h).1
  subst hHead
  exact absurd hShape (by simp [shapeOf?])

mutual

/- A literal tells its value and where it ends. -/
theorem literalChars_append_inj :
    ∀ {v w : Value}, v.Finite → w.Finite →
      ∀ {rest others : List Char},
        EndsLiteral rest → EndsLiteral others →
          literalChars false v ++ rest =
              literalChars false w ++ others →
            v = w ∧ rest = others
  | v, w, hv, hw, rest, others, hRest, hOthers, h => by
      have hShapes := shape_eq_of_append_eq hv hw h
      cases v with
      | null =>
          cases w with
          | null => exact ⟨rfl, by simpa [literalChars] using h⟩
          | bool | int | float | string | list | map =>
              simp [shape] at hShapes
      | bool b =>
          exact scalar_append_inj hv hw hShapes (Or.inl rfl)
            hRest hOthers h
      | int n =>
          exact scalar_append_inj hv hw hShapes (Or.inr rfl)
            hRest hOthers h
      | float x =>
          exact scalar_append_inj hv hw hShapes (Or.inr rfl)
            hRest hOthers h
      | string s =>
          cases w with
          | string t =>
              rw [literalChars, literalChars] at h
              rcases Text.quoteChars_append_inj h with ⟨hText, hEnd⟩
              rw [String.toList_inj.mp hText]
              exact ⟨rfl, hEnd⟩
          | null | bool | int | float | list | map =>
              simp [shape] at hShapes
      | list items =>
          cases w with
          | list more =>
              have hItems :
                  literalItems false items ++ ']' :: rest =
                    literalItems false more ++ ']' :: others := by
                simpa [literalChars] using h
              rcases literalItems_append_inj hv hw hItems with
                ⟨rfl, hEnd⟩
              exact ⟨rfl, hEnd⟩
          | null | bool | int | float | string | map =>
              simp [shape] at hShapes
      | map entries =>
          cases w with
          | map more =>
              rw [literalChars, literalChars] at h
              rcases Json.chars_append_inj (Value.writable_toJson hv)
                  (Value.writable_toJson hw) hRest.endsNumber
                  hOthers.endsNumber h with ⟨hJson, hEnd⟩
              exact ⟨Value.toJson_inj hJson, hEnd⟩
          | null | bool | int | float | string | list =>
              simp [shape] at hShapes

theorem literalItems_append_inj :
    ∀ {items more : List Value},
      Value.FiniteItems items → Value.FiniteItems more →
        ∀ {rest others : List Char},
          literalItems false items ++ ']' :: rest =
              literalItems false more ++ ']' :: others →
            items = more ∧ rest = others
  | [], more, _, hMore, rest, others, h => by
      cases more with
      | nil => exact ⟨rfl, (List.cons.inj h).2⟩
      | cons other more =>
          exact absurd h.symm
            (literalItems_cons_ne_bracket hMore.1 more _ _)
  | item :: items, more, hItems, hMore, rest, others, h => by
      have ih :
          ∀ {more : List Value}, Value.FiniteItems more →
            literalItems false items ++ ']' :: rest =
                literalItems false more ++ ']' :: others →
              items = more ∧ rest = others := by
        intro more hMore h
        exact literalItems_append_inj hItems.2 hMore h
      cases more with
      | nil =>
          exact absurd h
            (literalItems_cons_ne_bracket hItems.1 items _ _)
      | cons other more =>
          rw [literalItems_cons, literalItems_cons,
            List.append_assoc, List.append_assoc] at h
          rcases literalChars_append_inj hItems.1 hMore.1
              (endsLiteral_literalTail items rest)
              (endsLiteral_literalTail more others) h with
            ⟨rfl, hTail⟩
          cases items with
          | nil =>
              cases more with
              | nil => exact ⟨rfl, (List.cons.inj hTail).2⟩
              | cons => simp [literalTail] at hTail
          | cons =>
              cases more with
              | nil => simp [literalTail] at hTail
              | cons =>
                  rcases ih hMore.2 (List.cons.inj hTail).2 with
                    ⟨hItems, hEnd⟩
                  rw [hItems]
                  exact ⟨rfl, hEnd⟩

end

------------------------------------------------------------
-- Literals of Fields
------------------------------------------------------------

/- A finite value has a literal under every field. -/
theorem cast_of_finite
    (field : Field)
    {v : Value}
    (hv : v.Finite) :
    cast field v =
      .ok (String.ofList (literalChars (hasNativeName field) v)) := by
  have hNone : v.notFinite? = none :=
    (Value.notFinite?_eq_none_iff v).mpr hv
  rw [cast, ensureFinite, hNone]
  rfl

/-
  The engine has no name of its own for the type of an element
  and for the fields of the data.
-/
theorem hasNativeName_eq_false_iff (field : Field) :
    hasNativeName field = false ↔
      (∃ name, field = .data name) ∨ field = .ofMeta .kind := by
  cases field with
  | data name => simp [hasNativeName, Field.meta?]
  | ofMeta m =>
      cases m <;> simp [hasNativeName, Field.meta?, nativeField?]

/-
  Literals under a field without a name of the engine's own are
  uniquely decodable.  Finite values have literals, and a
  literal tells its value and where it ends, in front of
  whatever can stand behind it.  So two values never share one.
-/
theorem cast_append_inj
    {field : Field}
    (hField : (∃ name, field = .data name) ∨ field = .ofMeta .kind)
    {v w : Value}
    (hv : v.Finite)
    (hw : w.Finite) :
    ∃ s t,
      cast field v = .ok s ∧ cast field w = .ok t ∧
        (∀ rest others : String,
          EndsLiteral rest.toList → EndsLiteral others.toList →
            s ++ rest = t ++ others → v = w ∧ rest = others) ∧
        (v ≠ w → s ≠ t) := by
  have hQuoted : hasNativeName field = false :=
    (hasNativeName_eq_false_iff field).mpr hField
  refine ⟨_, _, cast_of_finite field hv, cast_of_finite field hw, ?_, ?_⟩
  · intro rest others hRest hOthers h
    have hChars :
        literalChars false v ++ rest.toList =
          literalChars false w ++ others.toList := by
      simpa [hQuoted] using congrArg String.toList h
    rcases literalChars_append_inj hv hw hRest hOthers hChars with
      ⟨hValue, hEnd⟩
    exact ⟨hValue, String.toList_inj.mp hEnd⟩
  · intro hNe h
    have hChars :
        literalChars false v ++ [] = literalChars false w ++ [] := by
      simpa [hQuoted] using congrArg String.toList h
    have hNothing : EndsLiteral [] := by
      simp [EndsLiteral]
    exact hNe
      (literalChars_append_inj hv hw hNothing hNothing hChars).1

/-
  One string that looks like two, and the two strings, inside a
  list; no text that can follow makes their literals the same.
-/
theorem cast_append_inj_quotedComma :
    ∃ s t,
      cast (.data "tags") (.list [.string "a','b"]) = .ok s ∧
        cast (.data "tags") (.list [.string "a", .string "b"]) =
          .ok t ∧
          ∀ rest others : String,
            EndsLiteral rest.toList → EndsLiteral others.toList →
              s ++ rest ≠ t ++ others := by
  have hField :
      (∃ name, Field.data "tags" = .data name) ∨
        Field.data "tags" = .ofMeta .kind :=
    Or.inl ⟨"tags", rfl⟩
  have hOne : (Value.list [.string "a','b"]).Finite := by
    decide
  have hTwo : (Value.list [.string "a", .string "b"]).Finite := by
    decide
  rcases cast_append_inj hField hOne hTwo with
    ⟨s, t, hs, ht, hApart, _⟩
  refine ⟨s, t, hs, ht, ?_⟩
  intro rest others hRest hOthers h
  exact absurd (hApart rest others hRest hOthers h).1 (by decide)

-- Under a name of the engine's own a string is not quoted.
example :
    cast (.ofMeta .id) (.list [.string "1,2"]) =
      cast (.ofMeta .id) (.list [.int 1, .int 2]) :=
  rfl

end Sql

end GraphBag
