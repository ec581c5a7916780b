import GraphBag.Proofs.Sql.Acceptance
import GraphBag.Proofs.Sql.Batches

/-
  How deep bags are embedded, and what the bound on it does.  A
  statement is made of the bag and of the embedded bags that are
  followed, each being the target of the one before it.  A bound
  that leaves room for all of them has no say in the result; one
  that does not is met before anything else can go wrong, except
  where a retrieve has a blank projection on the way there.

  Main declarations:
    * `Sql.Follows`
    * `Sql.followed`
    * `Sql.statement_of_followed`
    * `Sql.statement_of_more_room`
    * `Sql.exists_infix_of_mem_followed`
    * `Sql.statement_gated`
-/

namespace GraphBag

namespace Sql

------------------------------------------------------------
-- Followed Bags
------------------------------------------------------------

/-
  The explicit target counts: no constraint and no data name
  what the statement works on.  A create never takes the result
  of another command.
-/
def Follows (bag : Bag) : Prop :=
  match bag.command with
  | .retrieve | .delete =>
      ∀ c ∈ bag.constraints, ¬ (c.IsOn .label ∨ c.IsOn .id)
  | .update =>
      (∀ entry ∈ bag.data.entries, entry.1 ≠ .ofMeta .label) ∧
        ∀ c ∈ bag.constraints, ¬ c.IsOn .label
  | .create => False

instance (bag : Bag) : Decidable (Follows bag) := by
  unfold Follows
  cases bag.command <;> infer_instance

mutual

/- The embedded bags whose statements are part of a bag's. -/
def followed : Bag → List Bag
  | bag@⟨_, _, _, _, target, _, _, _⟩ =>
      if Follows bag then followedTarget target else []

/- The bag in an explicit target and the ones followed there. -/
def followedTarget : Option Target → List Bag
  | some (.embedded inner) => inner :: followed inner
  | _ => []

end

/- The projection of a retrieve that is one blank name. -/
def blankProjection? (bag : Bag) : Option Field :=
  match bag.command, bag.projections with
  | .retrieve, [f] =>
      if Text.isBlank (fieldName f) then some f else none
  | _, _ => none

theorem followed_eq (bag : Bag) :
    followed bag =
      if Follows bag then followedTarget bag.target else [] := by
  rcases bag with ⟨_, _, _, _, _, _, _, _⟩
  rw [followed]

/- A bag follows its target when nothing else is named. -/
theorem naming?_eq_none_of_follows
    {bag : Bag}
    (h : Follows bag) :
    naming? bag = none := by
  unfold Follows at h
  cases hCommand : bag.command with
  | retrieve =>
      rw [hCommand] at h
      rw [naming?_eq_target (Or.inl hCommand)]
      exact resolveTarget_eq_none_iff.mpr h
  | delete =>
      rw [hCommand] at h
      rw [naming?_eq_target (Or.inr hCommand)]
      exact resolveTarget_eq_none_iff.mpr h
  | update =>
      rw [hCommand] at h
      have hData : bag.metaData? .label = none := by
        rw [Option.eq_none_iff_forall_ne_some]
        intro v hv
        exact h.1 _ (OrderedMap.get?_eq_some_iff.mp hv) rfl
      rw [naming?_eq_label (Or.inr hCommand), hData,
        constrained?_eq_none_iff.mpr h.2]
      rfl
  | create =>
      rw [hCommand] at h
      exact h.elim

/- Otherwise something is named, unless it is a create. -/
theorem follows_of_naming?_eq_none
    {bag : Bag}
    (hCommand : bag.command ≠ .create)
    (h : naming? bag = none) :
    Follows bag := by
  unfold Follows
  cases hKind : bag.command with
  | retrieve =>
      rw [naming?_eq_target (Or.inl hKind)] at h
      exact resolveTarget_eq_none_iff.mp h
  | delete =>
      rw [naming?_eq_target (Or.inr hKind)] at h
      exact resolveTarget_eq_none_iff.mp h
  | update =>
      rw [naming?_eq_label (Or.inr hKind), Option.or_eq_none_iff] at h
      refine ⟨?_, constrained?_eq_none_iff.mp h.2⟩
      rintro ⟨field, v⟩ hEntry hField
      simp only at hField
      subst hField
      have hLabel : bag.metaData? .label = some v :=
        OrderedMap.get?_eq_some_iff.mpr hEntry
      rw [h.1] at hLabel
      cases hLabel
  | create => exact absurd hKind hCommand

------------------------------------------------------------
-- Targets That Do Not Count
------------------------------------------------------------

/- A constraint that names the target settles it. -/
theorem targetOf_of_named
    {bag : Bag}
    {v : Value}
    (h : (resolveTarget bag.constraints).1 = some v)
    (explicit : Except CompileError (Option String)) :
    targetOf bag explicit = (wordOf .target v).map (·, false) := by
  rw [targetOf, h]

/- A label settles the class. -/
theorem className?_of_named
    {bag : Bag}
    {v : Value}
    (h : (bag.metaData? .label).or (bag.constrained? .label) = some v)
    (other : Except CompileError (Option String)) :
    className? bag other = (wordOf .className v).map some := by
  rw [className?]
  cases hData : bag.metaData? .label with
  | some w =>
      rw [hData, Option.some_or] at h
      cases h
      rfl
  | none =>
      rw [hData, Option.none_or] at h
      rw [h]

/-
  Where it does not count, an embedded bag has no part in the
  statement.
-/
theorem statementOn_eq_of_not_follows
    {bag inner : Bag}
    (h : ¬ Follows bag)
    (hTarget : bag.target = some (.embedded inner))
    (explicit other : Except CompileError (Option String)) :
    statementOn bag explicit = statementOn bag other := by
  have hNamed (hCommand : bag.command ≠ .create) :
      ∃ v, naming? bag = some v := by
    apply Option.ne_none_iff_exists'.mp
    intro hNone
    exact h (follows_of_naming?_eq_none hCommand hNone)
  cases hCommand : bag.command with
  | retrieve =>
      rcases hNamed (by simp [hCommand]) with ⟨v, hv⟩
      rw [naming?_eq_target (Or.inl hCommand)] at hv
      simp only [statementOn, hCommand, retrieve, addTarget,
        targetOf_of_named hv]
  | create =>
      simp only [statementOn, hCommand, create, createdClass,
        hTarget]
  | update =>
      rcases hNamed (by simp [hCommand]) with ⟨v, hv⟩
      rw [naming?_eq_label (Or.inr hCommand)] at hv
      simp only [statementOn, hCommand, update,
        className?_of_named hv]
  | delete =>
      rcases hNamed (by simp [hCommand]) with ⟨v, hv⟩
      rw [naming?_eq_target (Or.inr hCommand)] at hv
      simp only [statementOn, hCommand, delete, addTarget,
        targetOf_of_named hv]

------------------------------------------------------------
-- Targets That Count
------------------------------------------------------------

/- A failed target fails where it is to be added. -/
theorem addTarget_error
    {bag : Bag}
    (h : (resolveTarget bag.constraints).1 = none)
    (b : Buffer)
    (always : Bool)
    (e : CompileError) :
    addTarget b always bag (.error e) = .error e := by
  rw [addTarget, targetOf, h]
  rfl

/- A blank projection is refused before the target is asked for. -/
theorem statementOn_of_blank
    {bag : Bag}
    {f : Field}
    (h : blankProjection? bag = some f)
    (explicit : Except CompileError (Option String)) :
    statementOn bag explicit =
      .error (.invalidToken .start (Text.shown (fieldName f))) := by
  unfold blankProjection? at h
  split at h
  next field hCommand hFields =>
    split at h
    next hBlank =>
      cases h
      have hAdd (b : Buffer) :
          addProjections b [f] =
            .error
              (.invalidToken .start (Text.shown (fieldName f))) := by
        simp [addProjections, Buffer.push, hBlank]
      simp only [statementOn, hCommand, retrieve, hFields, hAdd]
      rfl
    next => cases h
  next => cases h

/- All other projections can be written. -/
theorem projectionsOk_of_not_blank
    {bag : Bag}
    (hCommand : bag.command = .retrieve)
    (h : blankProjection? bag = none) :
    ProjectionsOk bag.projections := by
  intro f hFields
  rw [blankProjection?, hCommand, hFields] at h
  simpa using h

/-
  Then the target is the first thing that can fail, and fails
  the statement as it does itself.
-/
theorem statementOn_error
    {bag : Bag}
    (h : Follows bag)
    (hBlank : blankProjection? bag = none)
    (e : CompileError) :
    statementOn bag (.error e) = .error e := by
  have hNone := naming?_eq_none_of_follows h
  cases hCommand : bag.command with
  | retrieve =>
      rw [naming?_eq_target (Or.inl hCommand)] at hNone
      have hProjections :=
        (adds_projections bag.projections ⟨"SELECT"⟩ _).mpr
          ⟨projectionsOk_of_not_blank hCommand hBlank, rfl⟩
      have hStart :
          Buffer.empty.push .start (verb .retrieve .vertex) =
            .ok ⟨"SELECT"⟩ :=
        rfl
      simp only [statementOn, hCommand, retrieve, hStart, bind,
        Except.bind, hProjections, addTarget_error hNone]
  | create =>
      unfold Follows at h
      rw [hCommand] at h
      exact h.elim
  | update =>
      rw [naming?_eq_label (Or.inr hCommand),
        Option.or_eq_none_iff] at hNone
      have hClass : className? bag (.error e) = .error e := by
        rw [className?, hNone.1, hNone.2]
      simp only [statementOn, hCommand, update, hClass]
      rfl
  | delete =>
      rw [naming?_eq_target (Or.inr hCommand)] at hNone
      simp only [statementOn, hCommand, delete,
        addTarget_error hNone]
      cases ElementKind.ofValue? (bag.constrained? .kind) <;> rfl

/- A target that is found brings no word on the depth. -/
theorem steady_statementOn_ok (bag : Bag) (o : Option String) :
    Steady (statementOn bag (.ok o)) := by
  intro e he
  have hDeepens := deepens_statementOn bag (.ok o)
  rw [Except.mapError, he, Except.mapError] at hDeepens
  exact (Except.error.inj hDeepens).symm

------------------------------------------------------------
-- One Step
------------------------------------------------------------

/- The first bag that is followed is the embedded one. -/
theorem followed_eq_cons_iff
    {bag inner : Bag}
    {rest : List Bag} :
    followed bag = inner :: rest ↔
      Follows bag ∧ bag.target = some (.embedded inner) ∧
        rest = followed inner := by
  rw [followed_eq]
  by_cases h : Follows bag
  · rw [if_pos h]
    cases bag.target with
    | none => simp [followedTarget]
    | some target =>
        cases target with
        | named name => simp [followedTarget]
        | embedded other =>
            simp only [followedTarget, List.cons.injEq, h, true_and,
              Option.some.injEq, Target.embedded.injEq]
            constructor
            · rintro ⟨rfl, rfl⟩
              exact ⟨rfl, rfl⟩
            · rintro ⟨rfl, rfl⟩
              exact ⟨rfl, rfl⟩
  · rw [if_neg h]
    simp [h]

/- A statement without others in it is the same at any depth. -/
theorem statement_of_followed_eq_nil
    {bag : Bag}
    (h : followed bag = []) :
    ∃ result, Steady result ∧ ∀ ctx, statement bag ctx = result := by
  have hOn (o : Option String)
      (hEq :
        ∀ ctx, statement bag ctx = statementOn bag (.ok o)) :
      ∃ result, Steady result ∧ ∀ ctx, statement bag ctx = result :=
    ⟨_, steady_statementOn_ok bag o, hEq⟩
  cases hTarget : bag.target with
  | none =>
      apply hOn none
      intro ctx
      rw [statement_eq, hTarget, explicitTarget]
  | some target =>
      cases target with
      | named name =>
          apply hOn (some name)
          intro ctx
          rw [statement_eq, hTarget, explicitTarget]
      | embedded inner =>
          have hNot : ¬ Follows bag := by
            intro hFollows
            rw [followed_eq, if_pos hFollows, hTarget] at h
            cases h
          apply hOn none
          intro ctx
          rw [statement_eq]
          exact statementOn_eq_of_not_follows hNot hTarget _ _

/- A blank projection is refused at any depth. -/
theorem statement_of_blank
    {bag : Bag}
    {f : Field}
    (h : blankProjection? bag = some f)
    (ctx : Context) :
    statement bag ctx =
      .error (.invalidToken .start (Text.shown (fieldName f))) := by
  rw [statement_eq]
  exact statementOn_of_blank h _

/- Else a statement goes on from the one that is followed. -/
theorem statement_of_followed
    {bag inner : Bag}
    {rest : List Bag}
    (h : followed bag = inner :: rest)
    (hBlank : blankProjection? bag = none)
    (ctx : Context) :
    statement bag ctx =
      (ctx.nested >>= statement inner) >>= fun script =>
        statementOn bag (.ok (some ("(" ++ script ++ ")"))) := by
  rcases followed_eq_cons_iff.mp h with ⟨hFollows, hTarget, _⟩
  rw [statement_eq, hTarget, explicitTarget]
  cases ctx.nested with
  | error e => exact statementOn_error hFollows hBlank e
  | ok next =>
      cases hInner : statement inner next with
      | error e =>
          simp only [bind, Except.bind, hInner]
          exact statementOn_error hFollows hBlank e
      | ok script => simp only [bind, Except.bind, hInner]

/- The bound leaves no room. -/
theorem nested_zero (d : Nat) :
    Context.nested ⟨d, 0 + d⟩ =
      .error (.nestingTooDeep (0 + d + 1) (0 + d)) := by
  simp [Context.nested]

/- The bound leaves room, and one less of it to the next. -/
theorem nested_succ (m d : Nat) :
    Context.nested ⟨d, m + 1 + d⟩ = .ok ⟨d + 1, m + (d + 1)⟩ := by
  have hBound : m + 1 + d = m + (d + 1) := by
    omega
  have hRoom : ¬ m + (d + 1) < d + 1 := by
    omega
  rw [hBound, Context.nested, if_neg hRoom]

------------------------------------------------------------
-- Whole Chains
------------------------------------------------------------

/- With room for all bags, the bound and the depth do not count. -/
theorem statement_settled (bag : Bag) :
    ∃ result, Steady result ∧
      ∀ m d, (followed bag).length ≤ m →
        statement bag ⟨d, m + d⟩ = result := by
  induction bag using Bag.embedded_induction with
  | hStep bag ih =>
      cases hFollowed : followed bag with
      | nil =>
          rcases statement_of_followed_eq_nil hFollowed with
            ⟨result, hSteady, hResult⟩
          exact ⟨result, hSteady, fun m d _ => hResult _⟩
      | cons inner rest =>
          cases hBlank : blankProjection? bag with
          | some f =>
              refine
                ⟨.error
                  (.invalidToken .start (Text.shown (fieldName f))),
                  failsOnly_error rfl, ?_⟩
              intro m d _
              exact statement_of_blank hBlank _
          | none =>
              rcases followed_eq_cons_iff.mp hFollowed with
                ⟨_, hTarget, rfl⟩
              rcases ih inner hTarget with ⟨result, hSteady, hResult⟩
              refine ⟨_, hSteady.bind fun script =>
                steady_statementOn_ok bag
                  (some ("(" ++ script ++ ")")), ?_⟩
              intro m d hm
              cases m with
              | zero => cases hm
              | succ m =>
                  have hInner :=
                    hResult m (d + 1) (Nat.le_of_succ_le_succ hm)
                  rw [statement_of_followed hFollowed hBlank,
                    nested_succ, ← hInner]
                  rfl

/-
  Why a bag is refused that embeds more than `m` others, the
  bags being the first of the chain.
-/
def refusal (bags : List Bag) (m d : Nat) : CompileError :=
  match bags.findSome? blankProjection? with
  | some f => .invalidToken .start (Text.shown (fieldName f))
  | none => .nestingTooDeep (m + d + 1) (m + d)

/- Without that room the bound is met, or a blank name before. -/
theorem statement_refused
    (bag : Bag)
    {m d : Nat}
    (h : m < (followed bag).length) :
    statement bag ⟨d, m + d⟩ =
      .error (refusal ((bag :: followed bag).take (m + 1)) m d) := by
  induction bag using Bag.embedded_induction generalizing m d with
  | hStep bag ih =>
      cases hBlank : blankProjection? bag with
      | some f =>
          rw [statement_of_blank hBlank, refusal, List.take_succ_cons,
            List.findSome?_cons, hBlank]
      | none =>
          cases hFollowed : followed bag with
          | nil =>
              rw [hFollowed] at h
              cases h
          | cons inner rest =>
              rw [hFollowed] at h
              rcases followed_eq_cons_iff.mp hFollowed with
                ⟨_, hTarget, rfl⟩
              rw [statement_of_followed hFollowed hBlank, refusal,
                List.take_succ_cons, List.findSome?_cons, hBlank]
              cases m with
              | zero =>
                  rw [nested_zero]
                  rfl
              | succ m =>
                  have hInner :=
                    ih inner hTarget (d := d + 1)
                      (Nat.lt_of_succ_lt_succ h)
                  have hBound : m + (d + 1) = m + 1 + d := by
                    omega
                  rw [refusal, hBound] at hInner
                  rw [nested_succ, hBound]
                  simp only [bind, Except.bind, hInner]

/- A result that tells no depth. -/
theorem steady_iff
    {α : Type}
    {x : Except CompileError α} :
    Steady x ↔
      ∀ depth limit, x ≠ .error (.nestingTooDeep depth limit) := by
  constructor
  · intro h depth limit hx
    have hSame := h _ hx
    simp [CompileError.deepened] at hSame
  · intro h e hx
    cases e with
    | nestingTooDeep depth limit => exact absurd hx (h depth limit)
    | invalidToken | unresolvedTarget | missingEndpoint | emptyBatch =>
        rfl

/-
  More room does not change a result that tells no depth, since
  the bags inside have such results too.
-/
theorem statement_of_more_room
    (bag : Bag)
    {m d m' : Nat}
    (hRoom : m ≤ m')
    (hSteady : Steady (statement bag ⟨d, m + d⟩))
    (d' : Nat) :
    statement bag ⟨d', m' + d'⟩ = statement bag ⟨d, m + d⟩ := by
  induction bag using Bag.embedded_induction
      generalizing m d m' d' with
  | hStep bag ih =>
      cases hFollowed : followed bag with
      | nil =>
          rcases statement_of_followed_eq_nil hFollowed with
            ⟨result, _, hResult⟩
          rw [hResult, hResult]
      | cons inner rest =>
          cases hBlank : blankProjection? bag with
          | some f =>
              rw [statement_of_blank hBlank, statement_of_blank hBlank]
          | none =>
              rcases followed_eq_cons_iff.mp hFollowed with
                ⟨_, hTarget, rfl⟩
              rw [statement_of_followed hFollowed hBlank] at hSteady
              rw [statement_of_followed hFollowed hBlank,
                statement_of_followed hFollowed hBlank]
              cases m with
              | zero =>
                  rw [nested_zero] at hSteady
                  exact absurd rfl (steady_iff.mp hSteady _ _)
              | succ m =>
                  cases m' with
                  | zero => cases hRoom
                  | succ m' =>
                      have hInner :
                          Steady
                            (statement inner ⟨d + 1, m + (d + 1)⟩) := by
                        intro e he
                        rw [nested_succ] at hSteady
                        simp only [bind, Except.bind, he] at hSteady
                        exact hSteady e rfl
                      have hSame :=
                        ih inner hTarget
                          (Nat.le_of_succ_le_succ hRoom) hInner
                          (d' + 1)
                      rw [nested_succ, nested_succ]
                      simp only [bind, Except.bind, hSame]

------------------------------------------------------------
-- Statements in Brackets
------------------------------------------------------------

/- The word a statement works on is one of its words. -/
theorem word_mem_tokens (bag : Bag) (word : String) :
    word ∈ tokens bag word := by
  unfold tokens
  cases bag.command with
  | retrieve | create | update => simp
  | delete => cases worksOnEmbedded bag <;> simp

/- A word that is added stands in the text. -/
theorem infix_text_extend
    {b : Buffer}
    (hb : b.isEmpty = false)
    {words : List String}
    {word : String}
    (h : word ∈ words) :
    word.toList <:+: (b.extend words).text.toList := by
  rcases List.append_of_mem h with ⟨before, after, rfl⟩
  rw [Buffer.toList_text_extend hb]
  refine ⟨b.text.toList ++
      (before.flatMap fun t => ' ' :: t.toList) ++ [' '],
    after.flatMap fun t => ' ' :: t.toList, ?_⟩
  simp

/- A target that counts stands in the statement. -/
theorem infix_statementOn
    {bag : Bag}
    (hFollows : Follows bag)
    {word script : String}
    (h : statementOn bag (.ok (some word)) = .ok script) :
    word.toList <:+: script.toList := by
  have hWord : ResolvesOn bag (.ok (some word)) word := by
    rw [ResolvesOn, naming?_eq_none_of_follows hFollows]
    refine ⟨some word, rfl, rfl, ?_⟩
    intro hCreate
    rw [Follows, hCreate] at hFollows
    exact hFollows.elim
  rcases (statementOn_of_resolves hWord).mp h with ⟨_, rfl⟩
  exact infix_text_extend
    (Text.isEmpty_eq_false_of_isBlank (isBlank_verb _ _))
    (word_mem_tokens bag word)

/-
  The statement of every bag that is followed stands in brackets
  in the script, whatever it does.
-/
theorem exists_infix_of_mem_followed
    (bag : Bag)
    {ctx : Context}
    {script : String}
    (h : statement bag ctx = .ok script)
    {b : Bag}
    (hb : b ∈ followed bag) :
    ∃ inner s,
      statement b inner = .ok s ∧
        ("(" ++ s ++ ")").toList <:+: script.toList := by
  induction bag using Bag.embedded_induction
      generalizing ctx script with
  | hStep bag ih =>
      cases hFollowed : followed bag with
      | nil =>
          rw [hFollowed] at hb
          cases hb
      | cons first rest =>
          have hBlank : blankProjection? bag = none := by
            rw [Option.eq_none_iff_forall_ne_some]
            intro f hf
            rw [statement_of_blank hf] at h
            cases h
          rcases followed_eq_cons_iff.mp hFollowed with
            ⟨hFollows, hTarget, rfl⟩
          rw [statement_of_followed hFollowed hBlank,
            bind_eq_ok_iff] at h
          rcases h with ⟨s, hFirst, hScript⟩
          rcases bind_eq_ok_iff.mp hFirst with ⟨next, _, hFirst⟩
          have hInfix := infix_statementOn hFollows hScript
          rw [hFollowed] at hb
          rcases List.mem_cons.mp hb with rfl | hb
          · exact ⟨next, s, hFirst, hInfix⟩
          · rcases ih first hTarget hFirst hb with
              ⟨inner, deep, hDeep, hWithin⟩
            refine ⟨inner, deep, hDeep, hWithin.trans ?_⟩
            refine List.IsInfix.trans ?_ hInfix
            exact ⟨['('], [')'], by simp⟩

------------------------------------------------------------
-- The Bound
------------------------------------------------------------

/-
  The bound on nested commands only gates.  Where it leaves room
  for the bags that are followed, the result is the same under
  every such bound and at every depth, and tells none of them.
  Where it does not, the bag is refused: for the bound, or for
  the first blank projection on the way to it.  So a higher
  bound changes no script and no other error.
-/
theorem statement_gated (bag : Bag) :
    (∀ m d m' d',
      (followed bag).length ≤ m → (followed bag).length ≤ m' →
        statement bag ⟨d, m + d⟩ = statement bag ⟨d', m' + d'⟩) ∧
    (∀ m d depth limit,
      (followed bag).length ≤ m →
        statement bag ⟨d, m + d⟩ ≠
          .error (.nestingTooDeep depth limit)) ∧
    (∀ m d,
      m < (followed bag).length →
        statement bag ⟨d, m + d⟩ =
          .error
            (match
                ((bag :: followed bag).take (m + 1)).findSome?
                  blankProjection? with
              | some f =>
                  .invalidToken .start (Text.shown (fieldName f))
              | none => .nestingTooDeep (m + d + 1) (m + d))) ∧
    (∀ m m' result,
      m ≤ m' →
        (Processor.mk m).compile bag = result →
          (∀ depth limit,
            result ≠ .error (.nestingTooDeep depth limit)) →
            (Processor.mk m').compile bag = result) := by
  rcases statement_settled bag with ⟨settled, hSteady, hSettled⟩
  refine ⟨?_, ?_, ?_, ?_⟩
  · intro m d m' d' hm hm'
    rw [hSettled m d hm, hSettled m' d' hm']
  · intro m d depth limit hm
    rw [hSettled m d hm]
    exact steady_iff.mp hSteady depth limit
  · intro m d hm
    exact statement_refused bag hm
  · intro m m' result hm hResult hDepth
    have hRoot :
        Steady (statement bag ⟨0, m + 0⟩) := by
      rw [steady_iff]
      intro depth limit hError
      apply hDepth depth limit
      rw [← hResult, Processor.compile, Context.root, ← Nat.add_zero m,
        hError]
      rfl
    have hSame := statement_of_more_room bag hm hRoot 0
    rw [← hResult, Processor.compile, Processor.compile, Context.root,
      Context.root]
    exact congrArg (Except.map _) hSame

/-
  A delete of what a retrieve finds in another retrieve, which
  has a blank projection, of the result of an update.
-/
def blankMidway : Bag :=
  { command := .delete
    target :=
      some (.embedded
        { projections := [.data "name", .data ""]
          target :=
            some (.embedded
              { projections := [.data "\t"]
                target :=
                  some (.embedded
                    { command := .update
                      target := some (.embedded {}) }) }) }) }

/-
  The bound is met within the first two bags; with more room the
  blank name is, whatever comes after it.
-/
theorem statement_gated_blankMidway :
    (followed blankMidway).length = 4 ∧
      statement blankMidway ⟨5, 1 + 5⟩ =
        .error (.nestingTooDeep 7 6) ∧
      statement blankMidway ⟨5, 3 + 5⟩ =
        .error (.invalidToken .start "\"\\t\"") ∧
      statement blankMidway ⟨0, 4 + 0⟩ =
        statement blankMidway ⟨2, 9 + 2⟩ ∧
      (Processor.mk 100).compile blankMidway =
        .error (.invalidToken .start "\"\\t\"") := by
  have hLength : (followed blankMidway).length = 4 := by
    decide
  rcases statement_gated blankMidway with
    ⟨hSame, _, hRefused, hRaised⟩
  refine ⟨hLength, ?_, ?_, ?_, ?_⟩
  · rw [hRefused 1 5 (by rw [hLength]; decide)]
    decide
  · rw [hRefused 3 5 (by rw [hLength]; decide)]
    decide
  · exact hSame 4 0 9 2 (by rw [hLength]) (by rw [hLength]; decide)
  · exact hRaised 2 100 _ (by decide) (by decide) (by simp)

end Sql

end GraphBag
