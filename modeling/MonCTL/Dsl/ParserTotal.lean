import MonCTL.Dsl.Parser

/-!
# The Parser Ends

The parser's fuel stands for nothing in the source, so it must never run out. Every loop of
the parser takes a token before it goes round again, and every nested expression starts
behind a parenthesis, so a few units of fuel for each token are enough.

The proof follows the parser function by function with one predicate, `Consumes k`: the
parser does not run out of fuel, and takes at least `k` tokens when it succeeds.
-/

namespace MonCTL.Dsl

/-! ### Taking tokens -/

/-- From `s`, a parser that succeeds has taken at least `k` tokens, and a parser that fails
has not run out of fuel. -/
structure Consumes {α : Type} (k : ℕ) (p : Parser α) (s : ParserState) : Prop where
  takes : ∀ a s', p.run s = .ok (a, s') → s'.tokens.length + k ≤ s.tokens.length
  fueled : p.run s ≠ .error .outOfFuel

namespace Consumes

variable {α β : Type} {j k : ℕ} {s : ParserState} {p : Parser α}

theorem mono (h : Consumes j p s) (hk : k ≤ j) : Consumes k p s :=
  ⟨fun a s' hp => (Nat.add_le_add_left hk _).trans (h.takes a s' hp), h.fueled⟩

variable {s' : ParserState}

theorem of_ok {a : α} (h : p.run s = .ok (a, s')) (hs : s'.tokens = s.tokens) : Consumes 0 p s := by
  refine ⟨fun a' s'' h' => ?_, fun h' => (nomatch h.symm.trans h')⟩
  obtain ⟨rfl, rfl⟩ := Prod.mk.inj (Except.ok.inj (h.symm.trans h'))
  simp [hs]

theorem of_error {e : ParseError} (h : p.run s = .error (.error e)) : Consumes k p s :=
  ⟨fun _ _ h' => (nomatch h.symm.trans h'), fun h' => (nomatch h.symm.trans h')⟩

theorem return_ (a : α) : Consumes 0 (return a : Parser α) s := of_ok rfl rfl

theorem fail_ (message : String) : Consumes k (fail message : Parser α) s := of_error rfl

variable {f : α → Parser β}

/-- A sequence takes what its parts take; the second part may rely on what the first one
read. -/
theorem bind (hp : Consumes j p s)
    (hf : ∀ a s', p.run s = .ok (a, s') → s'.tokens.length + j ≤ s.tokens.length →
      Consumes k (f a) s') : Consumes (j + k) (p >>= f) s := by
  cases h : p.run s with
  | error e =>
    have hrun : (p >>= f).run s = .error e := by rw [StateT.run_bind, h]; rfl
    have hne : e ≠ .outOfFuel := fun he => hp.fueled (he ▸ h)
    exact ⟨fun _ _ h' => (nomatch hrun.symm.trans h'),
      fun h' => hne (Except.error.inj (hrun.symm.trans h'))⟩
  | ok r =>
    obtain ⟨a, s'⟩ := r
    have hrun : (p >>= f).run s = (f a).run s' := by rw [StateT.run_bind, h]; rfl
    have hlen := hp.takes a s' h
    have hfa := hf a s' h hlen
    refine ⟨fun b s'' h' => ?_, hrun ▸ hfa.fueled⟩
    have := hfa.takes b s'' (hrun ▸ h')
    omega

theorem seqLeft (hp : Consumes j p s)
    (hf : ∀ a s', p.run s = .ok (a, s') → s'.tokens.length + j ≤ s.tokens.length →
      Consumes 0 (f a) s') : Consumes j (p >>= f) s :=
  bind hp hf

theorem seqRight (hp : Consumes j p s)
    (hf : ∀ a s', p.run s = .ok (a, s') → s'.tokens.length + j ≤ s.tokens.length →
      Consumes k (f a) s') : Consumes k (p >>= f) s :=
  (bind hp hf).mono (Nat.le_add_left k j)

theorem peek_bind {f : Option Token → Parser β} (hf : Consumes k (f s.tokens.head?) s) :
    Consumes k (peek >>= f) s := by
  have hrun : (peek >>= f).run s = (f s.tokens.head?).run s := rfl
  exact ⟨fun a s' h => hf.takes a s' (hrun ▸ h), hrun ▸ hf.fueled⟩

theorem advance_ {t : Token} (ht : s.tokens.head? = some t) : Consumes 1 advance s := by
  obtain ⟨rest, hrest⟩ := List.head?_eq_some_iff.1 ht
  refine ⟨fun a s' h => ?_, fun h => (nomatch h)⟩
  have hs' : { s with tokens := s.tokens.tail } = s' := (Prod.mk.inj (Except.ok.inj h)).2
  simp [← hs', hrest]

theorem consume_ (group : String) (read : Token → Option α) :
    Consumes 1 (consume group read) s := by
  obtain ⟨tokens, depth, aggCount, arithCount, thresholdIndex⟩ := s
  cases tokens with
  | nil => exact of_error rfl
  | cons t rest =>
    cases hread : read t with
    | none =>
      refine of_error (e := ⟨s!"Expected {group}, got {t.group} ('{t.text}')"⟩) ?_
      simp [consume, hread, fail]
      rfl
    | some a =>
      have hrun : (consume group read).run ⟨t :: rest, depth, aggCount, arithCount,
          thresholdIndex⟩ = .ok (a, ⟨rest, depth, aggCount, arithCount, thresholdIndex⟩) := by
        simp [consume, hread, advance]
        rfl
      refine ⟨fun a' s' h' => ?_, fun h' => (nomatch hrun.symm.trans h')⟩
      rw [← (Prod.mk.inj (Except.ok.inj (hrun.symm.trans h'))).2]
      simp

theorem orElse {q : Parser α} (hp : Consumes k p s) (hq : Consumes k q s) :
    Consumes k (orElseOnError p q) s := by
  cases hrun : p s with
  | ok r =>
    have hor : orElseOnError p q s = p s := by rw [orElseOnError, hrun]
    exact ⟨fun a s' h => hp.takes a s' (hor.symm.trans h), fun h => hp.fueled (hor.symm.trans h)⟩
  | error failure =>
    cases failure with
    | error e =>
      have hor : orElseOnError p q s = q s := by rw [orElseOnError, hrun]
      exact ⟨fun a s' h => hq.takes a s' (hor.symm.trans h), fun h => hq.fueled (hor.symm.trans h)⟩
    | outOfFuel =>
      have hor : orElseOnError p q s = p s := by rw [orElseOnError, hrun]
      exact ⟨fun a s' h => hp.takes a s' (hor.symm.trans h), fun h => hp.fueled (hor.symm.trans h)⟩

theorem enterDepth_ : Consumes 0 enterDepth s := by
  by_cases h : s.depth + 1 > maxNestingDepth
  · exact of_error (by simp [enterDepth, h, fail]; rfl)
  · have hrun : enterDepth.run s = .ok ((), { s with depth := s.depth + 1 }) := by
      simp [enterDepth, h]
      rfl
    exact of_ok hrun rfl

theorem enterDepth_tokens {u : Unit} (h : enterDepth.run s = .ok (u, s')) :
    s'.tokens = s.tokens := by
  by_cases hd : s.depth + 1 > maxNestingDepth
  · have : enterDepth.run s = .error (.error
        ⟨s!"Maximum nesting depth ({maxNestingDepth}) exceeded"⟩) := by
      simp [enterDepth, hd, fail]
      rfl
    exact nomatch this.symm.trans h
  · have : enterDepth.run s = .ok ((), { s with depth := s.depth + 1 }) := by
      simp [enterDepth, hd]
      rfl
    rw [← (Prod.mk.inj (Except.ok.inj (this.symm.trans h))).2]

theorem exitDepth_ : Consumes 0 exitDepth s := of_ok rfl rfl

theorem countAgg_ : Consumes 0 countAgg s := by
  by_cases h : s.aggCount + 1 > maxAggCalls
  · exact of_error (by simp [countAgg, h, fail]; rfl)
  · have hrun : countAgg.run s = .ok ((), { s with aggCount := s.aggCount + 1 }) := by
      simp [countAgg, h]
      rfl
    exact of_ok hrun rfl

theorem countArith_ : Consumes 0 countArith s := by
  by_cases h : s.arithCount + 1 > maxArithOps
  · exact of_error (by simp [countArith, h, fail]; rfl)
  · have hrun : countArith.run s = .ok ((), { s with arithCount := s.arithCount + 1 }) := by
      simp [countArith, h]
      rfl
    exact of_ok hrun rfl

theorem countArith_tokens {u : Unit} (h : countArith.run s = .ok (u, s')) :
    s'.tokens = s.tokens := by
  by_cases hd : s.arithCount + 1 > maxArithOps
  · have : countArith.run s = .error (.error
        ⟨s!"Maximum arithmetic operations ({maxArithOps}) exceeded"⟩) := by
      simp [countArith, hd, fail]
      rfl
    exact nomatch this.symm.trans h
  · have : countArith.run s = .ok ((), { s with arithCount := s.arithCount + 1 }) := by
      simp [countArith, hd]
      rfl
    rw [← (Prod.mk.inj (Except.ok.inj (this.symm.trans h))).2]

theorem checkIdentifierLength_ (name : String) : Consumes 0 (checkIdentifierLength name) s := by
  unfold checkIdentifierLength
  split
  · exact fail_ _
  · exact return_ ()

theorem parseThresholdRef_ (left : ArithNode) : Consumes 1 (parseThresholdRef left) s := by
  refine peek_bind ?_
  split
  · exact fail_ _
  next ht => exact seqLeft (advance_ ht) fun _ _ _ _ => of_ok rfl rfl
  next ht => exact seqLeft (advance_ ht) fun _ _ _ _ => return_ _
  next ht => exact seqLeft (advance_ ht) fun _ _ _ _ => return_ _
  · exact fail_ _

theorem parseValue_ : Consumes 1 parseValue s := by
  refine peek_bind ?_
  split
  · exact fail_ _
  next ht => exact seqLeft (advance_ ht) fun _ _ _ _ => return_ _
  · exact fail_ _

theorem parseListValue_ (message : String) : Consumes 1 (parseListValue message) s := by
  refine peek_bind ?_
  split
  next ht => exact seqLeft (advance_ ht) fun _ _ _ _ => return_ _
  next ht => exact seqLeft (advance_ ht) fun _ _ _ _ => return_ _
  · exact fail_ _

variable {fuel : ℕ}

theorem parseValueListRest_ (values : List String) (h : s.tokens.length < fuel) :
    Consumes 0 (parseValueListRest fuel values) s := by
  induction fuel generalizing s values with
  | zero => omega
  | succ fuel ih =>
    refine peek_bind ?_
    split
    next ht =>
      exact seqRight (advance_ ht) fun _ _ _ _ =>
        seqRight (parseListValue_ _) fun _ _ _ _ => ih _ (by omega)
    · exact return_ _

theorem parseValueList_ (h : s.tokens.length ≤ fuel) : Consumes 1 (parseValueList fuel) s :=
  seqLeft (parseListValue_ _) fun _ _ _ _ => parseValueListRest_ _ (by omega)

theorem parseAggCall_ : Consumes 1 parseAggCall s := by
  refine seqLeft (consume_ _ _) fun _ _ _ _ => seqRight (consume_ _ _) fun _ _ _ _ => ?_
  refine peek_bind ?_
  split
  · exact seqRight (consume_ _ _) fun _ _ _ _ => seqRight (checkIdentifierLength_ _) fun _ _ _ _ =>
      seqRight (consume_ _ _) fun _ _ _ _ => seqRight countAgg_ fun _ _ _ _ => return_ _
  · exact fail_ _

/-! ### The two families -/

/-- What the arithmetic parsers need and take, for one amount of fuel. -/
structure ArithFueled (fuel : ℕ) : Prop where
  expr : ∀ s, 4 * s.tokens.length + 3 ≤ fuel → Consumes 1 (parseArithExpr fuel) s
  exprRest : ∀ left s, 4 * s.tokens.length + 1 ≤ fuel → Consumes 0 (parseArithExprRest fuel left) s
  term : ∀ s, 4 * s.tokens.length + 2 ≤ fuel → Consumes 1 (parseArithTerm fuel) s
  termRest : ∀ left s, 4 * s.tokens.length + 1 ≤ fuel → Consumes 0 (parseArithTermRest fuel left) s
  atom : ∀ s, 4 * s.tokens.length + 1 ≤ fuel → Consumes 1 (parseArithAtom fuel) s

theorem arithFueled (fuel : ℕ) : ArithFueled fuel := by
  induction fuel with
  | zero => constructor <;> intros <;> omega
  | succ fuel ih =>
    refine ⟨fun s h => ?_, fun left s h => ?_, fun s h => ?_, fun left s h => ?_, fun s h => ?_⟩
    · exact seqLeft (ih.term s (by omega)) fun _ _ _ _ => ih.exprRest _ _ (by omega)
    · refine peek_bind ?_
      split
      next o ht =>
        split
        · refine seqRight countArith_ fun _ s₁ hs₁ _ => ?_
          have ht₁ : s₁.tokens.head? = some (.arith o) := by rw [countArith_tokens hs₁, ht]
          exact seqRight (advance_ ht₁) fun _ _ _ _ => seqRight (ih.term _ (by omega))
            fun _ _ _ _ => ih.exprRest _ _ (by omega)
        · exact return_ _
      · exact return_ _
    · exact seqLeft (ih.atom s (by omega)) fun _ _ _ _ => ih.termRest _ _ (by omega)
    · refine peek_bind ?_
      split
      next o ht =>
        split
        · refine seqRight countArith_ fun _ s₁ hs₁ _ => ?_
          have ht₁ : s₁.tokens.head? = some (.arith o) := by rw [countArith_tokens hs₁, ht]
          exact seqRight (advance_ ht₁) fun _ _ _ _ => seqRight (ih.atom _ (by omega))
            fun _ _ _ _ => ih.termRest _ _ (by omega)
        · exact return_ _
      · exact return_ _
    · refine peek_bind ?_
      split
      · exact fail_ _
      · exact parseAggCall_
      next ht => exact seqLeft (advance_ ht) fun _ _ _ _ => return_ _
      next ht =>
        refine seqRight enterDepth_ fun _ s₁ hs₁ _ => ?_
        have ht₁ : s₁.tokens.head? = some .lparen := by rw [enterDepth_tokens hs₁, ht]
        exact seqLeft (advance_ ht₁) fun _ _ _ _ => seqRight (ih.expr _ (by omega)) fun _ _ _ _ =>
          seqRight (consume_ _ _) fun _ _ _ _ => seqRight exitDepth_ fun _ _ _ _ => return_ _
      · exact fail_ _

theorem parseArithComparison_ (h : 4 * s.tokens.length + 3 ≤ fuel) :
    Consumes 1 (parseArithComparison fuel) s :=
  seqLeft ((arithFueled fuel).expr s h) fun _ _ _ _ => seqRight (consume_ _ _) fun _ _ _ _ =>
    seqRight (parseThresholdRef_ _) fun _ _ _ _ => return_ _

theorem parseIdentComparison_ (ident : String) (op : CompareOp) :
    Consumes 0 (parseIdentComparison ident op) s := by
  refine peek_bind ?_
  split
  · exact seqRight countAgg_ fun _ _ _ _ => seqRight (parseThresholdRef_ _) fun _ _ _ _ => return_ _
  · exact seqRight countAgg_ fun _ _ _ _ => seqRight (parseThresholdRef_ _) fun _ _ _ _ => return_ _
  · exact seqRight parseValue_ fun _ _ _ _ => return_ _

theorem parseInList_ (ident : String) (negated : Bool) (h : s.tokens.length ≤ fuel) :
    Consumes 0 (parseInList fuel ident negated) s :=
  seqRight (consume_ _ _) fun _ _ _ _ => seqRight (parseValueList_ (by omega)) fun _ _ _ _ =>
    seqRight (consume_ _ _) fun _ _ _ _ => return_ _

theorem parseIdentCondition_ (h : s.tokens.length ≤ fuel) :
    Consumes 1 (parseIdentCondition fuel) s := by
  refine seqLeft (consume_ _ _) fun _ _ _ _ => seqRight (checkIdentifierLength_ _) fun _ _ _ _ => ?_
  refine peek_bind ?_
  split
  next ht => exact seqRight (advance_ ht) fun _ _ _ _ => return_ _
  next ht =>
    refine seqRight (advance_ ht) fun _ _ _ _ => peek_bind ?_
    split
    next ht => exact seqRight (advance_ ht) fun _ _ _ _ => parseInList_ _ _ (by omega)
    · exact fail_ _
    · exact fail_ _
  next ht => exact seqRight (advance_ ht) fun _ _ _ _ => parseInList_ _ _ (by omega)
  next ht => exact seqRight (advance_ ht) fun _ _ _ _ => parseIdentComparison_ _ _
  · exact fail_ _

/-- What the condition parsers need and take, for one amount of fuel. -/
structure ConditionFueled (fuel : ℕ) : Prop where
  expression : ∀ s, 4 * s.tokens.length + 5 ≤ fuel → Consumes 1 (parseExpression fuel) s
  expressionRest : ∀ left s, 4 * s.tokens.length + 1 ≤ fuel →
    Consumes 0 (parseExpressionRest fuel left) s
  condition : ∀ s, 4 * s.tokens.length + 4 ≤ fuel → Consumes 1 (parseCondition fuel) s

/-- Four units of fuel for each token are enough for a whole expression. -/
theorem conditionFueled (fuel : ℕ) : ConditionFueled fuel := by
  induction fuel with
  | zero => constructor <;> intros <;> omega
  | succ fuel ih =>
    refine ⟨fun s h => ?_, fun left s h => ?_, fun s h => ?_⟩
    · exact seqLeft (ih.condition s (by omega)) fun _ _ _ _ => ih.expressionRest _ _ (by omega)
    · refine peek_bind ?_
      split
      next ht =>
        exact seqRight (advance_ ht) fun _ _ _ _ => seqRight (ih.condition _ (by omega))
          fun _ _ _ _ => ih.expressionRest _ _ (by omega)
      next ht =>
        exact seqRight (advance_ ht) fun _ _ _ _ => seqRight (ih.condition _ (by omega))
          fun _ _ _ _ => ih.expressionRest _ _ (by omega)
      · exact return_ _
    · refine peek_bind ?_
      split
      · exact fail_ _
      next ht =>
        refine orElse (parseArithComparison_ (by omega)) ?_
        refine seqRight enterDepth_ fun _ s₁ hs₁ _ => ?_
        have ht₁ : s₁.tokens.head? = some .lparen := by rw [enterDepth_tokens hs₁, ht]
        exact seqLeft (advance_ ht₁) fun _ _ _ _ => seqRight (ih.expression _ (by omega)) fun _ _ _ _ =>
          seqRight (consume_ _ _) fun _ _ _ _ => seqRight exitDepth_ fun _ _ _ _ => return_ _
      · exact parseIdentCondition_ (by omega)
      · exact parseArithComparison_ (by omega)
      · exact parseArithComparison_ (by omega)
      · exact fail_ _

end Consumes

/-! ### The whole parser -/

theorem parseTokens_ne_outOfFuel (tokens : List Token) :
    parseTokens tokens ≠ .error .outOfFuel := by
  have h := ((Consumes.conditionFueled (4 * tokens.length + 5)).expression
    ⟨tokens, 0, 0, 0, 0⟩ le_rfl).fueled
  unfold parseTokens
  rw [StateT.run] at h
  cases hrun : parseExpression (4 * tokens.length + 5) ⟨tokens, 0, 0, 0, 0⟩ with
  | error e =>
    rw [hrun] at h
    exact fun he => h (congrArg _ (Except.error.inj he))
  | ok r =>
    obtain ⟨node, s⟩ := r
    dsimp only [bind, Except.bind]
    split <;> exact fun he => (nomatch he)

/-- **Parsing ends**: an expression is parsed, or an error of the language is raised. -/
theorem parse_ne_outOfFuel (expression : String) : parse expression ≠ .error .outOfFuel := by
  unfold parse
  dsimp only
  split
  · exact fun he => (nomatch he)
  split
  · exact fun he => (nomatch he)
  split
  · exact fun he => (nomatch he)
  next tokens _ =>
    split
    · exact fun he => (nomatch he)
    split
    · exact fun he => (nomatch he)
    exact parseTokens_ne_outOfFuel tokens

end MonCTL.Dsl
