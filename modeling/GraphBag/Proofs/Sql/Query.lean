import GraphBag.Proofs.Sql.Clauses

/-
  What a retrieve asks for, and the text that says it.  The
  text tells every part of the query, in it and in the queries
  it works on.

  Main declarations:
    * `Sql.Query`
    * `Sql.Query.chars`
    * `Sql.Query.Plain`
    * `Sql.Query.chars_append_inj`
-/

namespace GraphBag

namespace Sql

------------------------------------------------------------
-- Queries
------------------------------------------------------------

/-
  A predicate of a query, with its conjunction unless it is the
  first one.
-/
structure Predicate where
  conjunction : Option Conjunction
  field : Field
  operator : Operator
  value : Value
deriving DecidableEq, Repr

mutual

/- What a query works on: a name, or the rows of another query. -/
inductive Source where
  | word (name : String)
  | query (inner : Query)

/- What a retrieve asks for, a limit of zero being none. -/
structure Query where
  projections : List String
  source : Source
  predicates : List Predicate
  order : List (String × Direction)
  limit : Nat

end

------------------------------------------------------------
-- Text
------------------------------------------------------------

/- Items, each after a comma and a blank. -/
def commaChars {α : Type} (item : α → List Char) (items : List α) :
    List Char :=
  items.flatMap fun a => ',' :: ' ' :: item a

/- The projected names. -/
def projectionChars : List String → List Char
  | [] => []
  | name :: rest => ' ' :: name.toList ++ commaChars String.toList rest

/- The word before a predicate. -/
def leadWord : Option Conjunction → String
  | none => "WHERE"
  | some j => conjunction j

/- A predicate with the word before it. -/
def predicateChars (p : Predicate) : List Char :=
  ' ' :: (leadWord p.conjunction).toList ++
    ' ' :: (fieldName p.field).toList ++
      ' ' :: (operator p.operator).toList ++
        ' ' :: literalChars (hasNativeName p.field) p.value

/- A sort key. -/
def keyChars (key : String × Direction) : List Char :=
  key.1.toList ++ ' ' :: (direction key.2).toList

/- The sort keys with the words before them. -/
def orderChars : List (String × Direction) → List Char
  | [] => []
  | key :: rest =>
      ' ' :: "ORDER".toList ++ ' ' :: ("BY ".toList ++
        (keyChars key ++ commaChars keyChars rest))

/- The limit with the word before it. -/
def limitChars (rows : Nat) : List Char :=
  if rows = 0 then []
  else ' ' :: "LIMIT".toList ++ ' ' :: Nat.toDigits 10 rows

mutual

/- The text of a query. -/
def Query.chars : Query → List Char
  | ⟨projections, source, predicates, order, limit⟩ =>
      ['S', 'E', 'L', 'E', 'C', 'T'] ++ (projectionChars projections ++
        ' ' :: "FROM".toList ++ ' ' :: (source.chars ++
          (predicates.flatMap predicateChars ++
            (orderChars order ++ limitChars limit))))

/- The text of what a query works on. -/
def Source.chars : Source → List Char
  | .word name => name.toList
  | .query inner => '(' :: inner.chars ++ [')']

end

theorem Query.chars_eq (q : Query) :
    q.chars =
      ['S', 'E', 'L', 'E', 'C', 'T'] ++ (projectionChars q.projections ++
        ' ' :: "FROM".toList ++ ' ' :: (q.source.chars ++
          (q.predicates.flatMap predicateChars ++
            (orderChars q.order ++ limitChars q.limit)))) := by
  rcases q with ⟨_, _, _, _, _⟩
  rw [Query.chars]

------------------------------------------------------------
-- Plain Queries
------------------------------------------------------------

/- A name that ends where a separator comes. -/
def Separable (s : String) : Prop :=
  ∀ c ∈ s.toList, c ∉ [' ', ',', ']', ')']

instance (s : String) : Decidable (Separable s) :=
  List.decidableBAll _ s.toList

/- A name to work on, without blanks and brackets. -/
def Unbracketed (s : String) : Prop :=
  s ≠ "" ∧ ∀ c ∈ s.toList, c ≠ ' ' ∧ c ≠ '(' ∧ c ≠ ')'

/- A predicate that compares a data field with a finite value. -/
def Predicate.Plain (p : Predicate) : Prop :=
  (∃ name, p.field = .data name ∧ Separable name) ∧
    p.value.Finite

mutual

/- All names in a query are plain words and all values finite. -/
def Query.Plain : Query → Prop
  | ⟨projections, source, predicates, order, _⟩ =>
      (∀ name ∈ projections, Separable name ∧ name ≠ "FROM") ∧
        source.Plain ∧ (∀ p ∈ predicates, p.Plain) ∧
          ∀ key ∈ order, Separable key.1

/- A plain name, or a plain query. -/
def Source.Plain : Source → Prop
  | .word name => Unbracketed name
  | .query inner => inner.Plain

end

theorem Query.plain_iff (q : Query) :
    q.Plain ↔
      (∀ name ∈ q.projections, Separable name ∧ name ≠ "FROM") ∧
        q.source.Plain ∧ (∀ p ∈ q.predicates, p.Plain) ∧
          ∀ key ∈ q.order, Separable key.1 := by
  rcases q with ⟨_, _, _, _, _⟩
  rw [Query.Plain]

------------------------------------------------------------
-- Words
------------------------------------------------------------

/- A text without stops is told from what follows at a stop. -/
theorem append_inj_of_stops
    {p : Char → Prop}
    {as bs rest others : List Char}
    (ha : ∀ c ∈ as, ¬ p c)
    (hb : ∀ c ∈ bs, ¬ p c)
    (hRest : ∀ c ∈ rest.head?, p c)
    (hOthers : ∀ c ∈ others.head?, p c)
    (h : as ++ rest = bs ++ others) :
    as = bs ∧ rest = others := by
  induction as generalizing bs with
  | nil =>
      cases bs with
      | nil => exact ⟨rfl, h⟩
      | cons b bs =>
          have hHead : rest.head? = some b := by
            rw [← List.nil_append rest, h]
            rfl
          exact absurd (hRest b hHead) (hb b List.mem_cons_self)
  | cons a as ih =>
      cases bs with
      | nil =>
          have hHead : others.head? = some a := by
            rw [← List.nil_append others, ← h]
            rfl
          exact absurd (hOthers a hHead) (ha a List.mem_cons_self)
      | cons b bs =>
          rw [List.forall_mem_cons] at ha hb
          rw [List.cons_append, List.cons_append, List.cons.injEq] at h
          rcases ih ha.2 hb.2 h.2 with ⟨hTail, hEnd⟩
          exact ⟨by rw [h.1, hTail], hEnd⟩

/- A word is told from what follows it after a blank. -/
theorem word_append_inj
    {as bs rest others : List Char}
    (ha : ' ' ∉ as)
    (hb : ' ' ∉ bs)
    (h : as ++ ' ' :: rest = bs ++ ' ' :: others) :
    as = bs ∧ rest = others := by
  have hWord {cs : List Char} (hcs : ' ' ∉ cs) :
      ∀ c ∈ cs, ¬ c = ' ' := by
    rintro c hc rfl
    exact hcs hc
  rcases append_inj_of_stops (p := (· = ' ')) (hWord ha) (hWord hb)
      (by simp) (by simp) h with ⟨hEq, hEnd⟩
  exact ⟨hEq, (List.cons.inj hEnd).2⟩

/- A separable name is told from what can follow a literal. -/
theorem name_append_inj
    {s t : String}
    (hs : Separable s)
    (ht : Separable t)
    {rest others : List Char}
    (hRest : EndsLiteral rest)
    (hOthers : EndsLiteral others)
    (h : s.toList ++ rest = t.toList ++ others) :
    s = t ∧ rest = others := by
  rcases append_inj_of_stops hs ht hRest hOthers h with ⟨hEq, hEnd⟩
  exact ⟨String.toList_inj.mp hEq, hEnd⟩

/- A separable name holds no blank. -/
theorem Separable.blank_notMem
    {s : String}
    (hs : Separable s) :
    ' ' ∉ s.toList := by
  intro hMem
  exact hs ' ' hMem (by simp)

/- Further items come after a comma. -/
theorem endsLiteral_commaChars
    {α : Type}
    (item : α → List Char)
    (items : List α)
    {rest : List Char}
    (hRest : EndsLiteral rest) :
    EndsLiteral (commaChars item items ++ rest) := by
  cases items with
  | nil => exact hRest
  | cons a items => exact forall_mem_head?_cons (by simp) _

/-
  Items that can be told from what follows them can be told
  apart in a row.
-/
theorem commaChars_append_inj
    {α : Type}
    {item : α → List Char}
    {p : α → Prop}
    (hItem :
      ∀ {a b : α}, p a → p b →
        ∀ {rest others : List Char},
          EndsLiteral rest → EndsLiteral others →
            item a ++ rest = item b ++ others →
              a = b ∧ rest = others)
    {as bs : List α}
    (ha : ∀ a ∈ as, p a)
    (hb : ∀ b ∈ bs, p b)
    {rest others : List Char}
    (hRest : EndsLiteral rest)
    (hOthers : EndsLiteral others)
    (hNoComma : rest.head? ≠ some ',')
    (hNoOther : others.head? ≠ some ',')
    (h : commaChars item as ++ rest = commaChars item bs ++ others) :
    as = bs ∧ rest = others := by
  induction as generalizing bs with
  | nil =>
      cases bs with
      | nil => exact ⟨rfl, h⟩
      | cons b bs =>
          refine absurd ?_ hNoComma
          rw [← List.nil_append rest]
          exact congrArg List.head? h
  | cons a as ih =>
      cases bs with
      | nil =>
          refine absurd ?_ hNoOther
          rw [← List.nil_append others]
          exact congrArg List.head? h.symm
      | cons b bs =>
          rw [List.forall_mem_cons] at ha hb
          have hTails :
              item a ++ (commaChars item as ++ rest) =
                item b ++ (commaChars item bs ++ others) := by
            simpa [commaChars] using h
          rcases hItem ha.1 hb.1
              (endsLiteral_commaChars item as hRest)
              (endsLiteral_commaChars item bs hOthers) hTails with
            ⟨rfl, hTail⟩
          rcases ih ha.2 hb.2 hTail with ⟨rfl, hEnd⟩
          exact ⟨rfl, hEnd⟩

------------------------------------------------------------
-- What Follows a Clause
------------------------------------------------------------

/- The end of the text, or the bracket that closes a query. -/
def Closes (cs : List Char) : Prop :=
  ∀ c ∈ cs.head?, c = ')'

/- The end of the query, or a clause that one of the words opens. -/
def Leads (words : List String) (cs : List Char) : Prop :=
  Closes cs ∨
    ∃ w ∈ words, ∃ rest, cs = ' ' :: w.toList ++ ' ' :: rest

/- What follows a clause also ends a literal. -/
theorem Leads.endsLiteral
    {words : List String}
    {cs : List Char}
    (h : Leads words cs) :
    EndsLiteral cs := by
  rcases h with hCloses | ⟨w, _, rest, rfl⟩
  · intro c hc
    rw [hCloses c hc]
    simp
  · exact forall_mem_head?_cons (by simp) _

/- What follows a clause is no comma. -/
theorem Leads.head?_ne_comma
    {words : List String}
    {cs : List Char}
    (h : Leads words cs) :
    cs.head? ≠ some ',' := by
  rcases h with hCloses | ⟨w, _, rest, rfl⟩
  · intro hHead
    exact absurd (hCloses ',' hHead) (by decide)
  · simp

/- More words can open a clause. -/
theorem Leads.mono
    {words more : List String}
    (hWords : words ⊆ more)
    {cs : List Char}
    (h : Leads words cs) :
    Leads more cs := by
  rcases h with hCloses | ⟨w, hw, rest, hEq⟩
  · exact Or.inl hCloses
  · exact Or.inr ⟨w, hWords hw, rest, hEq⟩

/- No other word opens the clause that follows. -/
theorem Leads.ne_of_notMem
    {words : List String}
    (hWords : ∀ w ∈ words, ' ' ∉ w.toList)
    {cs : List Char}
    (h : Leads words cs)
    {w : String}
    (hBlank : ' ' ∉ w.toList)
    (hw : w ∉ words)
    (rest : List Char) :
    cs ≠ ' ' :: w.toList ++ ' ' :: rest := by
  intro hEq
  rcases h with hCloses | ⟨other, hOther, tail, hTail⟩
  · have hHead := hCloses ' ' (by rw [hEq]; rfl)
    exact absurd hHead (by decide)
  · rw [hTail] at hEq
    rcases word_append_inj (hWords other hOther) hBlank
        (List.cons.inj hEq).2 with ⟨hWord, _⟩
    exact hw (String.toList_inj.mp hWord ▸ hOther)

------------------------------------------------------------
-- Limit and Order
------------------------------------------------------------

/- The limit comes after its word. -/
theorem leads_limitChars
    (rows : Nat)
    {rest : List Char}
    (hRest : Closes rest) :
    Leads ["LIMIT"] (limitChars rows ++ rest) := by
  rw [limitChars]
  split
  · exact Or.inl hRest
  · exact Or.inr ⟨"LIMIT", by simp, _, rfl⟩

/- The limit is told by its digits. -/
theorem limitChars_append_inj
    {m n : Nat}
    {rest others : List Char}
    (hRest : Closes rest)
    (hOthers : Closes others)
    (h : limitChars m ++ rest = limitChars n ++ others) :
    m = n ∧ rest = others := by
  have hEnds {cs : List Char} (hcs : Closes cs) :
      ∀ c ∈ cs.head?, ¬ c.isDigit = true := by
    intro c hc
    rw [hcs c hc]
    decide
  have hDigits (k : Nat) :
      ∀ c ∈ Nat.toDigits 10 k, ¬ ¬ c.isDigit = true := by
    intro c hc
    rw [not_not]
    exact allDigits_toDigits k c hc
  have hNone {cs : List Char} (hcs : Closes cs) (tail : List Char) :
      cs ≠ ' ' :: "LIMIT".toList ++ ' ' :: tail :=
    have hEnd : Leads [] cs := Or.inl hcs
    hEnd.ne_of_notMem (by simp) (by decide) (by simp) tail
  unfold limitChars at h
  by_cases hm : m = 0
  · by_cases hn : n = 0
    · rw [if_pos hm, if_pos hn] at h
      exact ⟨hm.trans hn.symm, h⟩
    · rw [if_pos hm, if_neg hn, List.nil_append, List.append_assoc,
        List.cons_append] at h
      exact absurd h (hNone hRest _)
  · by_cases hn : n = 0
    · rw [if_neg hm, if_pos hn, List.nil_append, List.append_assoc,
        List.cons_append] at h
      exact absurd h.symm (hNone hOthers _)
    · rw [if_neg hm, if_neg hn, List.append_assoc,
        List.append_assoc] at h
      have hTail := (List.cons.inj (List.append_cancel_left h)).2
      rcases append_inj_of_stops (hDigits m) (hDigits n)
          (hEnds hRest) (hEnds hOthers) hTail with ⟨hEq, hEnd⟩
      have hNumber := congrArg (Nat.ofDigitChars 10 · 0) hEq
      rw [Nat.ofDigitChars_ten_toDigits,
        Nat.ofDigitChars_ten_toDigits] at hNumber
      exact ⟨hNumber, hEnd⟩

/- The sort keys come after their words. -/
theorem leads_orderChars
    (keys : List (String × Direction))
    {rest : List Char}
    (hRest : Leads ["LIMIT"] rest) :
    Leads ["ORDER", "LIMIT"] (orderChars keys ++ rest) := by
  cases keys with
  | nil => exact hRest.mono (by simp)
  | cons key keys => exact Or.inr ⟨"ORDER", by simp, _, rfl⟩

/- A sort key is told by its name and its direction. -/
theorem keyChars_append_inj
    {k l : String × Direction}
    (hk : Separable k.1)
    (hl : Separable l.1)
    {rest others : List Char}
    (hRest : EndsLiteral rest)
    (hOthers : EndsLiteral others)
    (h : keyChars k ++ rest = keyChars l ++ others) :
    k = l ∧ rest = others := by
  have hDirection (d : Direction) : Separable (direction d) := by
    cases d <;> decide
  have hInj {d e : Direction} (hEq : direction d = direction e) :
      d = e := by
    cases d <;> cases e <;> simp_all [direction]
  rcases k with ⟨name, d⟩
  rcases l with ⟨other, e⟩
  have hWords :
      name.toList ++ ' ' :: ((direction d).toList ++ rest) =
        other.toList ++ ' ' :: ((direction e).toList ++ others) := by
    simpa [keyChars] using h
  rcases word_append_inj hk.blank_notMem hl.blank_notMem hWords with
    ⟨hName, hTail⟩
  rcases name_append_inj (hDirection d) (hDirection e) hRest hOthers
      hTail with ⟨hEq, hEnd⟩
  exact ⟨Prod.ext (String.toList_inj.mp hName) (hInj hEq), hEnd⟩

/- The sort keys are told one after the other. -/
theorem orderChars_append_inj
    {ks ls : List (String × Direction)}
    (hks : ∀ k ∈ ks, Separable k.1)
    (hls : ∀ l ∈ ls, Separable l.1)
    {rest others : List Char}
    (hRest : Leads ["LIMIT"] rest)
    (hOthers : Leads ["LIMIT"] others)
    (h : orderChars ks ++ rest = orderChars ls ++ others) :
    ks = ls ∧ rest = others := by
  have hNone {cs : List Char} (hcs : Leads ["LIMIT"] cs)
      (tail : List Char) :
      cs ≠ ' ' :: "ORDER".toList ++ ' ' :: tail :=
    hcs.ne_of_notMem (by decide) (by decide) (by simp) tail
  cases ks with
  | nil =>
      cases ls with
      | nil => exact ⟨rfl, h⟩
      | cons l ls =>
          simp only [orderChars, List.append_assoc] at h
          exact absurd h (hNone hRest _)
  | cons k ks =>
      cases ls with
      | nil =>
          simp only [orderChars, List.append_assoc] at h
          exact absurd h.symm (hNone hOthers _)
      | cons l ls =>
          rw [List.forall_mem_cons] at hks hls
          simp only [orderChars, List.append_assoc,
            List.cons_append] at h
          have hKeys :=
            (List.cons.inj
              (List.append_cancel_left (List.cons.inj h).2)).2
          rcases keyChars_append_inj hks.1 hls.1
              (endsLiteral_commaChars keyChars ks hRest.endsLiteral)
              (endsLiteral_commaChars keyChars ls hOthers.endsLiteral)
              (List.append_cancel_left hKeys) with ⟨rfl, hTail⟩
          rcases commaChars_append_inj keyChars_append_inj hks.2 hls.2
              hRest.endsLiteral hOthers.endsLiteral
              hRest.head?_ne_comma hOthers.head?_ne_comma hTail with
            ⟨rfl, hEnd⟩
          exact ⟨rfl, hEnd⟩

------------------------------------------------------------
-- Predicates and Projections
------------------------------------------------------------

/- The words before predicates differ. -/
theorem leadWord_inj
    {j k : Option Conjunction}
    (h : leadWord j = leadWord k) :
    j = k := by
  rcases j with _ | _ | _ <;> rcases k with _ | _ | _ <;>
    simp_all [leadWord, conjunction]

/- The signs of operators differ. -/
theorem operator_inj
    {a b : Operator}
    (h : operator a = operator b) :
    a = b := by
  have hFind :
      ∀ o : Operator,
        Operator.all.find? (operator · = operator o) = some o := by
    intro o
    cases o <;> rfl
  exact Option.some.inj ((hFind a).symm.trans (h ▸ hFind b))

theorem blank_notMem_leadWord (j : Option Conjunction) :
    ' ' ∉ (leadWord j).toList := by
  rcases j with _ | _ | _ <;> decide

theorem blank_notMem_operator (o : Operator) :
    ' ' ∉ (operator o).toList := by
  cases o <;> decide

/- The predicates come after their words. -/
theorem leads_predicates
    (predicates : List Predicate)
    {rest : List Char}
    (hRest : Leads ["ORDER", "LIMIT"] rest) :
    Leads ["WHERE", "AND", "OR", "ORDER", "LIMIT"]
      (predicates.flatMap predicateChars ++ rest) := by
  cases predicates with
  | nil => exact hRest.mono (by simp)
  | cons p predicates =>
      have hMem :
          leadWord p.conjunction ∈
            ["WHERE", "AND", "OR", "ORDER", "LIMIT"] := by
        rcases p.conjunction with _ | _ | _ <;>
          simp [leadWord, conjunction]
      refine Or.inr ⟨leadWord p.conjunction, hMem, ?_⟩
      simp only [List.flatMap_cons, predicateChars, List.append_assoc,
        List.cons_append]
      exact ⟨_, rfl⟩

/- A predicate is told by its words and its literal. -/
theorem predicateChars_append_inj
    {p q : Predicate}
    (hp : p.Plain)
    (hq : q.Plain)
    {rest others : List Char}
    (hRest : EndsLiteral rest)
    (hOthers : EndsLiteral others)
    (h : predicateChars p ++ rest = predicateChars q ++ others) :
    p = q ∧ rest = others := by
  rcases p with ⟨j, field, o, v⟩
  rcases q with ⟨k, other, a, w⟩
  rcases hp with ⟨⟨name, rfl, hName⟩, hv⟩
  rcases hq with ⟨⟨next, rfl, hNext⟩, hw⟩
  simp only [predicateChars, List.append_assoc, List.cons_append,
    List.cons.injEq, true_and] at h
  rcases word_append_inj (blank_notMem_leadWord j)
      (blank_notMem_leadWord k) h with ⟨hLead, h⟩
  rcases word_append_inj hName.blank_notMem hNext.blank_notMem h with
    ⟨hField, h⟩
  rcases word_append_inj (blank_notMem_operator o)
      (blank_notMem_operator a) h with ⟨hOperator, h⟩
  rcases literalChars_append_inj hv hw hRest hOthers h with
    ⟨rfl, hEnd⟩
  rw [leadWord_inj (String.toList_inj.mp hLead),
    String.toList_inj.mp hField,
    operator_inj (String.toList_inj.mp hOperator)]
  exact ⟨rfl, hEnd⟩

/- The predicates are told one after the other. -/
theorem predicates_append_inj
    {ps qs : List Predicate}
    (hps : ∀ p ∈ ps, p.Plain)
    (hqs : ∀ q ∈ qs, q.Plain)
    {rest others : List Char}
    (hRest : Leads ["ORDER", "LIMIT"] rest)
    (hOthers : Leads ["ORDER", "LIMIT"] others)
    (h :
      ps.flatMap predicateChars ++ rest =
        qs.flatMap predicateChars ++ others) :
    ps = qs ∧ rest = others := by
  have hNone {cs tail : List Char} {p : Predicate}
      (hcs : Leads ["ORDER", "LIMIT"] cs) :
      cs ≠ predicateChars p ++ tail := by
    have hBlank :
        ∀ w ∈ ["ORDER", "LIMIT"], ' ' ∉ w.toList := by
      decide
    have hLead : leadWord p.conjunction ∉ ["ORDER", "LIMIT"] := by
      rcases p.conjunction with _ | _ | _ <;> decide
    simp only [predicateChars, List.append_assoc, List.cons_append]
    exact hcs.ne_of_notMem hBlank
      (blank_notMem_leadWord p.conjunction) hLead _
  induction ps generalizing qs with
  | nil =>
      cases qs with
      | nil => exact ⟨rfl, h⟩
      | cons q qs =>
          rw [List.flatMap_cons, List.append_assoc] at h
          exact absurd h (hNone hRest)
  | cons p ps ih =>
      cases qs with
      | nil =>
          rw [List.flatMap_cons, List.append_assoc] at h
          exact absurd h.symm (hNone hOthers)
      | cons q qs =>
          rw [List.forall_mem_cons] at hps hqs
          rw [List.flatMap_cons, List.flatMap_cons, List.append_assoc,
            List.append_assoc] at h
          rcases predicateChars_append_inj hps.1 hqs.1
              (leads_predicates ps hRest).endsLiteral
              (leads_predicates qs hOthers).endsLiteral h with
            ⟨rfl, hTail⟩
          rcases ih hps.2 hqs.2 hTail with ⟨rfl, hEnd⟩
          exact ⟨rfl, hEnd⟩

/- The projections are told one after the other up to FROM. -/
theorem projectionChars_append_inj
    {as bs : List String}
    (ha : ∀ a ∈ as, Separable a ∧ a ≠ "FROM")
    (hb : ∀ b ∈ bs, Separable b ∧ b ≠ "FROM")
    {rest others : List Char}
    (h :
      projectionChars as ++ ' ' :: "FROM".toList ++ ' ' :: rest =
        projectionChars bs ++ ' ' :: "FROM".toList ++
          ' ' :: others) :
    as = bs ∧ rest = others := by
  have hFrom : Separable "FROM" := by
    decide
  have hEnds (cs : List Char) : EndsLiteral (' ' :: cs) :=
    forall_mem_head?_cons (by simp) cs
  have hNone {name : String} {names : List String}
      {cs ds : List Char} (hName : Separable name ∧ name ≠ "FROM") :
      ' ' :: "FROM".toList ++ ' ' :: cs ≠
        projectionChars (name :: names) ++ ' ' :: "FROM".toList ++
          ' ' :: ds := by
    intro hEq
    simp only [projectionChars, List.append_assoc, List.cons_append,
      List.cons.injEq, true_and] at hEq
    rcases name_append_inj hFrom hName.1 (hEnds _)
        (endsLiteral_commaChars _ _ (hEnds _)) hEq with ⟨hWord, _⟩
    exact hName.2 hWord.symm
  cases as with
  | nil =>
      cases bs with
      | nil =>
          have hTail := List.append_cancel_left h
          exact ⟨rfl, (List.cons.inj hTail).2⟩
      | cons b bs =>
          exact absurd h (hNone (hb b List.mem_cons_self))
  | cons a as =>
      cases bs with
      | nil =>
          exact absurd h.symm (hNone (ha a List.mem_cons_self))
      | cons b bs =>
          rw [List.forall_mem_cons] at ha hb
          simp only [projectionChars, List.append_assoc,
            List.cons_append, List.cons.injEq, true_and] at h
          rcases name_append_inj ha.1.1 hb.1.1
              (endsLiteral_commaChars _ _ (hEnds _))
              (endsLiteral_commaChars _ _ (hEnds _)) h with
            ⟨rfl, hTail⟩
          have hNames (names : List String)
              (hAll : ∀ name ∈ names,
                Separable name ∧ name ≠ "FROM") :
              ∀ name ∈ names, Separable name := by
            intro name hName
            exact (hAll name hName).1
          rcases commaChars_append_inj name_append_inj
              (hNames as ha.2) (hNames bs hb.2) (hEnds _) (hEnds _)
              (by simp) (by simp) hTail with ⟨rfl, hEnd⟩
          have hWord := List.append_cancel_left (List.cons.inj hEnd).2
          exact ⟨rfl, (List.cons.inj hWord).2⟩

------------------------------------------------------------
-- Telling Queries Apart
------------------------------------------------------------

/- A clause that follows starts with a blank or a bracket. -/
theorem Leads.head?_eq
    {words : List String}
    {cs : List Char}
    (h : Leads words cs) :
    ∀ c ∈ cs.head?, c = ' ' ∨ c = ')' := by
  rcases h with hCloses | ⟨w, _, rest, rfl⟩
  · intro c hc
    exact Or.inr (hCloses c hc)
  · intro c hc
    left
    simpa using hc.symm

/- A name to work on does not start like a query. -/
theorem Unbracketed.append_ne
    {name : String}
    (hName : Unbracketed name)
    (rest others : List Char) :
    name.toList ++ rest ≠ '(' :: others := by
  intro h
  cases hList : name.toList with
  | nil => exact hName.1 (String.toList_eq_nil_iff.mp hList)
  | cons c cs =>
      rw [hList] at h
      have hMem : c ∈ name.toList := by
        simp [hList]
      exact (hName.2 c hMem).2.1 (List.cons.inj h).1

mutual

/- The text of a query tells the query and where it ends. -/
theorem Query.chars_append_inj :
    ∀ {q r : Query}, q.Plain → r.Plain →
      ∀ {rest others : List Char}, Closes rest → Closes others →
        q.chars ++ rest = r.chars ++ others →
          q = r ∧ rest = others
  | ⟨as, source, ps, ks, m⟩, ⟨bs, other, qs, ls, n⟩,
    ⟨ha, hSource, hps, hks⟩, ⟨hb, hOther, hqs, hls⟩,
    rest, others, hRest, hOthers, h => by
      have hWords :
          projectionChars as ++ ' ' :: "FROM".toList ++
              ' ' :: (source.chars ++ (ps.flatMap predicateChars ++
                (orderChars ks ++ (limitChars m ++ rest)))) =
            projectionChars bs ++ ' ' :: "FROM".toList ++
              ' ' :: (other.chars ++ (qs.flatMap predicateChars ++
                (orderChars ls ++ (limitChars n ++ others)))) := by
        simp only [Query.chars, List.append_assoc, List.cons_append,
          List.nil_append, List.cons.injEq, true_and] at h ⊢
        exact h
      have hLimit := leads_limitChars m hRest
      have hOtherLimit := leads_limitChars n hOthers
      have hOrder := leads_orderChars ks hLimit
      have hOtherOrder := leads_orderChars ls hOtherLimit
      rcases projectionChars_append_inj ha hb hWords with
        ⟨rfl, hFrom⟩
      rcases Source.chars_append_inj hSource hOther
          (leads_predicates ps hOrder)
          (leads_predicates qs hOtherOrder) hFrom with ⟨rfl, hWhere⟩
      rcases predicates_append_inj hps hqs hOrder hOtherOrder
          hWhere with ⟨rfl, hSort⟩
      rcases orderChars_append_inj hks hls hLimit hOtherLimit
          hSort with ⟨rfl, hRows⟩
      rcases limitChars_append_inj hRest hOthers hRows with
        ⟨rfl, hEnd⟩
      exact ⟨rfl, hEnd⟩

/- What a query works on is told up to the next clause. -/
theorem Source.chars_append_inj :
    ∀ {s t : Source}, s.Plain → t.Plain →
      ∀ {words : List String} {rest others : List Char},
        Leads words rest → Leads words others →
          s.chars ++ rest = t.chars ++ others →
            s = t ∧ rest = others
  | .word a, .word b, ha, hb, _, _, _, hRest, hOthers, h => by
      have hStops {name : String} (hName : Unbracketed name) :
          ∀ c ∈ name.toList, ¬ (c = ' ' ∨ c = ')') := by
        intro c hc hStop
        rcases hStop with hBlank | hBracket
        · exact (hName.2 c hc).1 hBlank
        · exact (hName.2 c hc).2.2 hBracket
      rcases append_inj_of_stops (hStops ha) (hStops hb)
          hRest.head?_eq hOthers.head?_eq h with ⟨hEq, hEnd⟩
      rw [String.toList_inj.mp hEq]
      exact ⟨rfl, hEnd⟩
  | .query q, .query r, hq, hr, _, rest, others, _, _, h => by
      rw [Source.chars, Source.chars, List.append_assoc,
        List.append_assoc] at h
      have hCloses (cs : List Char) : Closes ([')'] ++ cs) := by
        intro c hc
        simpa using hc.symm
      rcases Query.chars_append_inj hq hr (hCloses rest)
          (hCloses others) (List.cons.inj h).2 with ⟨rfl, hEnd⟩
      exact ⟨rfl, (List.cons.inj hEnd).2⟩
  | .word _, .query _, ha, _, _, _, _, _, _, h => by
      exact absurd h (Unbracketed.append_ne ha _ _)
  | .query _, .word _, _, hb, _, _, _, _, _, h => by
      exact absurd h.symm (Unbracketed.append_ne hb _ _)

end

end Sql

end GraphBag
