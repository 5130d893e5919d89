import MonCTL.Dsl.RoundTrip
import MonCTL.Dsl.Semantics

/-!
# Inverted Expressions

Inverting an expression inverts its comparisons and leaves `AND` and `OR` as they are, and the
inverse is printed without parentheses. What the inverse says is therefore the complement not
of the expression but of its dual: of the expression as it is grouped without parentheses, with
`AND` and `OR` exchanged. The inverse is the complement of the expression exactly when the
expression says the same as its dual.

A comparison without a value is false whether it is inverted or not, so in the dual it is true.
-/

namespace MonCTL.Dsl

open List Option

/-! ### Inverted trees -/

theorem holds_invertOp {α : Type} [LinearOrder α] {op op' : CompareOp}
    (h : invertOp op = some op') (x y : α) : op'.Holds x y ↔ ¬op.Holds x y := by
  cases op <;> cases h <;> simp [CompareOp.Holds]

theorem isEquality_invertOp {op op' : CompareOp} (h : invertOp op = some op') :
    op'.isEquality = op.isEquality := by
  cases op <;> cases h <;> rfl

/-- An inverted tree, constructor by constructor. -/
inductive Inverts : Ast → Ast → Prop
  | comparison {left : ArithNode} {op op' : CompareOp} {right : Operand} :
      invertOp op = some op' → Inverts (.comparison left op right) (.comparison left op' right)
  | keyComparison {key : String} {op op' : CompareOp} {value : String} :
      invertOp op = some op' → Inverts (.keyComparison key op value) (.keyComparison key op' value)
  | inList {identifier : String} {values : List String} {negated : Bool} :
      Inverts (.inList identifier values negated) (.inList identifier values (!negated))
  | boolOp {op : BoolOperator} {left left' right right' : Ast} :
      Inverts left left' → Inverts right right' →
        Inverts (.boolOp op left right) (.boolOp op left' right')

variable {ast ast' : Ast}

theorem inverts_of_invertAst (h : invertAst ast = some ast') : Inverts ast ast' := by
  induction ast generalizing ast' with
  | comparison left op right =>
    obtain ⟨op', hop, rfl⟩ := map_eq_some_iff.1 h
    exact .comparison hop
  | keyComparison key op value =>
    obtain ⟨op', hop, rfl⟩ := map_eq_some_iff.1 h
    exact .keyComparison hop
  | changed identifier => cases h
  | inList identifier values negated =>
    cases h
    exact .inList
  | boolOp op left right ihl ihr =>
    obtain ⟨left', hleft, hmap⟩ := bind_eq_some_iff.1 h
    obtain ⟨right', hright, rfl⟩ := map_eq_some_iff.1 hmap
    exact .boolOp (ihl hleft) (ihr hright)

namespace Inverts

variable {ast ast' : Ast}

theorem cost_eq (h : Inverts ast ast') : ast'.cost = ast.cost := by
  induction h with
  | comparison | keyComparison | inList => rfl
  | boolOp _ _ ihl ihr => rw [Ast.cost, Ast.cost, ihl, ihr]

theorem texts_eq (h : Inverts ast ast') : ast'.texts = ast.texts := by
  induction h with
  | comparison | keyComparison | inList => rfl
  | boolOp _ _ ihl ihr => rw [Ast.texts, Ast.texts, ihl, ihr]

theorem numbers_eq (h : Inverts ast ast') : ast'.numbers = ast.numbers := by
  induction h with
  | comparison | keyComparison | inList => rfl
  | boolOp _ _ ihl ihr => rw [Ast.numbers, Ast.numbers, ihl, ihr]

theorem inlineCount_eq (h : Inverts ast ast') : ast'.inlineCount = ast.inlineCount := by
  induction h with
  | @comparison left op op' right hop =>
    have heq := isEquality_invertOp hop
    cases right with
    | text value => rfl
    | ref ref =>
      cases ref with
      | named name => rfl
      | inline name value => rw [Ast.inlineCount, Ast.inlineCount, heq]
  | keyComparison | inList => rfl
  | boolOp _ _ ihl ihr => rw [Ast.inlineCount, Ast.inlineCount, ihl, ihr]

theorem spelled (h : Inverts ast ast') (hast : ast.Spelled) : ast'.Spelled := by
  induction h with
  | comparison | keyComparison | inList => exact hast
  | boolOp _ _ ihl ihr => exact ⟨ihl hast.1, ihr hast.2⟩

theorem indexed (h : Inverts ast ast') {i : ℕ} (hast : ast.Indexed i) : ast'.Indexed i := by
  induction h generalizing i with
  | @comparison left op op' right hop =>
    cases right with
    | text value => trivial
    | ref ref => cases ref <;> exact hast
  | keyComparison | inList => trivial
  | @boolOp op left left' right right' hleft _ ihl ihr =>
    rw [Ast.Indexed, hleft.cost_eq]
    exact ⟨ihl hast.1, ihr hast.2⟩

theorem parsed (h : Inverts ast ast') (hast : ast.Parsed) : ast'.Parsed :=
  ⟨h.spelled hast.spelled, h.indexed hast.indexed, h.cost_eq ▸ hast.aggs, h.cost_eq ▸ hast.ariths⟩

end Inverts

/-! ### The dual of an expression -/

/-- **The dual of an expression**: `AND` and `OR` are exchanged, and a comparison without a
value is true. -/
def Ast.DualHolds (θ : ThresholdId → ℚ) (a : Assignment) : ℕ → Ast → Prop
  | i, .comparison left op (.ref ref) =>
    ∀ x, left.eval a = some x → op.Holds x (operandValue θ i op ref)
  | _, .comparison _ _ (.text _) => True
  | _, .keyComparison key op value => op.Holds (a.config key) value
  | _, .changed identifier => a.changed identifier = true
  | _, .inList identifier values negated =>
    if negated then a.config identifier ∉ values else a.config identifier ∈ values
  | i, .boolOp .and left right => left.DualHolds θ a i ∨ right.DualHolds θ a (i + left.inlineCount)
  | i, .boolOp .or left right => left.DualHolds θ a i ∧ right.DualHolds θ a (i + left.inlineCount)

/-- **The inverse is the complement of the dual.** -/
theorem Inverts.holds (h : Inverts ast ast') (θ : ThresholdId → ℚ)
    (a : Assignment) (i : ℕ) : ast'.Holds θ a i ↔ ¬ast.DualHolds θ a i := by
  induction h generalizing i with
  | @comparison left op op' right hop =>
    have hequality := isEquality_invertOp hop
    cases right with
    | text value => simp [Ast.Holds, Ast.DualHolds]
    | ref ref =>
      have hvalue : operandValue θ i op' ref = operandValue θ i op ref := by
        cases ref <;> simp [operandValue, hequality]
      simp only [Ast.Holds, Ast.DualHolds, hvalue, holds_invertOp hop, not_forall]
      constructor
      · rintro ⟨x, hx, hfails⟩
        exact ⟨x, hx, hfails⟩
      · rintro ⟨x, hx, hfails⟩
        exact ⟨x, hx, hfails⟩
  | keyComparison hop => exact holds_invertOp hop _ _
  | @inList identifier values negated => cases negated <;> simp [Ast.Holds, Ast.DualHolds]
  | @boolOp op left left' right right' hleft _ ihl ihr =>
    cases op with
    | and => simp [Ast.Holds, Ast.DualHolds, ihl, ihr, hleft.inlineCount_eq]
    | or =>
      simp only [Ast.Holds, Ast.DualHolds, ihl, ihr, hleft.inlineCount_eq]
      exact not_and_or.symm

theorem Inverts.conditions (h : Inverts ast ast') : Inverts ast.conditions.1 ast'.conditions.1 ∧
      List.Forall₂ (fun condition condition' => condition.1 = condition'.1 ∧
        Inverts condition.2 condition'.2) ast.conditions.2 ast'.conditions.2 := by
  induction h with
  | comparison hop => exact ⟨.comparison hop, .nil⟩
  | keyComparison hop => exact ⟨.keyComparison hop, .nil⟩
  | inList => exact ⟨.inList, .nil⟩
  | boolOp _ _ ihl ihr => exact ⟨ihl.1, rel_append ihl.2 (.cons ⟨rfl, ihr.1⟩ ihr.2)⟩

/-- **The inverse regrouped is the inverse of the expression regrouped.** -/
theorem Inverts.regroup (h : Inverts ast ast') : Inverts ast.regroup ast'.regroup := by
  have hfold : ∀ {conditions conditions' : List (BoolOperator × Ast)},
      List.Forall₂ (fun condition condition' => condition.1 = condition'.1 ∧
        Inverts condition.2 condition'.2) conditions conditions' →
      ∀ first first', Inverts first first' →
        Inverts (conditions.foldl Ast.join first) (conditions'.foldl Ast.join first') := by
    intro conditions conditions' hconditions
    induction hconditions with
    | nil => exact fun first first' hfirst => hfirst
    | @cons condition condition' _ _ hcondition _ ih =>
      intro first first' hfirst
      refine ih _ _ ?_
      rw [Ast.join, Ast.join, hcondition.1]
      exact .boolOp hfirst hcondition.2
  exact hfold h.conditions.2 _ _ h.conditions.1

/-! ### The size of an inverse -/

/-- The number of characters of the inverse of an operator. -/
def CompareOp.inverseLength : CompareOp → ℕ
  | .ge | .le => 1
  | _ => 2

/-- The number of characters of the inverse of an expression. -/
def Ast.inverseLength : Ast → ℕ
  | .comparison left op right => (arithToString left).length + 1 + op.inverseLength + 1 +
      (operandToString right).length
  | .keyComparison key op value => key.length + 1 + op.inverseLength + 1 + (quoted value).length
  | .changed _ => 0
  | .inList identifier values negated => identifier.length + 1 + (if negated then 2 else 6) + 2 +
      (", ".intercalate (values.map quoted)).length + 1
  | .boolOp op left right => left.inverseLength + 1 + op.text.length + 1 + right.inverseLength

/-- The number of tokens of the inverse of an expression. -/
def Ast.inverseTokens : Ast → ℕ
  | .comparison left _ right => left.tokens.length + 1 + right.tokens.length
  | .keyComparison _ _ _ => 3
  | .changed _ => 0
  | .inList _ values negated => (if negated then 4 else 5) + (valueTokens values).length
  | .boolOp _ left right => left.inverseTokens + 1 + right.inverseTokens

theorem Inverts.length_astToString (h : Inverts ast ast') :
    (astToString ast').length = ast.inverseLength := by
  have hlength : ∀ {op op' : CompareOp}, invertOp op = some op' →
      op'.text.length = op.inverseLength := by
    intro op op' hop
    cases op <;> cases hop <;> rfl
  have hblank : " ".length = 1 := rfl
  induction h with
  | comparison hop => simp [astToString, Ast.inverseLength, hlength hop, hblank]
  | keyComparison hop => simp [astToString, Ast.inverseLength, hlength hop, hblank]
  | @inList identifier values negated =>
    have hopen : " (".length = 2 := rfl
    have hclose : ")".length = 1 := rfl
    have hword : (if (!negated) = true then "NOT IN" else "IN").length =
        if negated then 2 else 6 := by
      cases negated <;> rfl
    simp only [astToString, Ast.inverseLength, String.length_append, hword, hblank, hopen, hclose]
  | boolOp _ _ ihl ihr => simp [astToString, Ast.inverseLength, ihl, ihr, hblank]

theorem Inverts.length_tokens (h : Inverts ast ast') : ast'.tokens.length = ast.inverseTokens := by
  induction h with
  | comparison hop =>
    simp only [Ast.tokens, Ast.inverseTokens, length_append, length_cons]
    omega
  | keyComparison hop => rfl
  | @inList identifier values negated =>
    cases negated <;>
      simp only [Ast.tokens, Ast.inverseTokens, length_append, length_cons,
        length_nil, cons_append, Bool.not_true, Bool.not_false, if_true,
        Bool.false_eq_true, if_false] <;>
      omega
  | boolOp _ _ ihl ihr =>
    simp only [Ast.tokens, Ast.inverseTokens, length_append, length_cons, ihl, ihr]
    omega

/-! ### The inverse of a text -/

theorem invertExpression_eq_some {expression inverse : String}
    (hparse : parse expression = .ok ast) : invertExpression expression = some inverse ↔
      ∃ ast', invertAst ast = some ast' ∧ astToString ast' = inverse := by
  rw [invertExpression, hparse]
  exact map_eq_some_iff

/-- The inverse is read as the complement of an expression. -/
def Complements (inverse : String) (ast : Ast) : Prop :=
  ∃ ast', parse inverse = .ok ast' ∧
    ∀ (θ : ThresholdId → ℚ) (a : Assignment), ast'.Holds θ a 0 ↔ ¬ast.Holds θ a 0

/-- **What has a complement**: no text contains an apostrophe, no number is small, the inverse
is within the limits, and the expression says the same as its dual without parentheses. -/
structure Ast.HasComplement (ast : Ast) : Prop where
  quotable : ∀ value ∈ ast.texts, '\'' ∉ value.toList
  large : ∀ q ∈ ast.numbers, isSmall q = false
  short : ast.inverseLength ≤ maxExpressionLength
  few : ast.inverseTokens ≤ maxTokenCount
  selfDual : ∀ (θ : ThresholdId → ℚ) (a : Assignment), ast.Holds θ a 0 ↔ ast.regroup.DualHolds θ a 0

theorem Inverts.withinLimits_iff (h : Inverts ast ast') (hast : ast.Parsed)
    (hquotable : ∀ value ∈ ast.texts, '\'' ∉ value.toList) :
    withinLimits (astToString ast') = true ↔
      ast.inverseLength ≤ maxExpressionLength ∧ ast.inverseTokens ≤ maxTokenCount := by
  have hspelled := h.spelled hast.spelled
  have htokens := tokenize_astToString hspelled (h.texts_eq ▸ hquotable)
  rw [withinLimits, htokens, strip_astToString hspelled, Bool.and_eq_true, decide_eq_true_eq,
    decide_eq_true_eq, String.length_toList, h.length_astToString, h.length_tokens]

/-- **What the inverse is parsed to**: the inverted tree, regrouped. -/
theorem Inverts.parse_inverse (h : Inverts ast ast') (hast : ast.Parsed)
    (hquotable : ∀ value ∈ ast.texts, '\'' ∉ value.toList)
    (hlarge : ∀ q ∈ ast.numbers, isSmall q = false)
    (hlimits : ast.inverseLength ≤ maxExpressionLength ∧ ast.inverseTokens ≤ maxTokenCount) :
    parse (astToString ast') = .ok ast'.regroup :=
  parse_astToString (h.parsed hast) ((h.withinLimits_iff hast hquotable).2 hlimits)
    (h.texts_eq ▸ hquotable) (h.numbers_eq ▸ hlarge)

theorem withinLimits_of_parse {expression : String}
    (h : parse expression = .ok ast) : withinLimits expression = true := by
  obtain ⟨hlength, tokens, htokens, -, hcount, -⟩ := parse_eq_ok.1 h
  rw [withinLimits, htokens, Bool.and_eq_true, decide_eq_true_eq, decide_eq_true_eq]
  exact ⟨hlength, hcount⟩

/-- **The inverse is the complement of an expression that has one.** When no text contains an
apostrophe, it is the complement of no other expression. -/
theorem complements_iff {expression inverse : String} {ast : Ast}
    (hparse : parse expression = .ok ast) (hinverse : invertExpression expression = some inverse) :
    (ast.HasComplement → Complements inverse ast) ∧ ((∀ value ∈ ast.texts, '\'' ∉ value.toList) →
        Complements inverse ast → ast.HasComplement) := by
  have hast := parse_sound hparse
  obtain ⟨ast', hinvert, rfl⟩ := (invertExpression_eq_some hparse).1 hinverse
  have hinverts := inverts_of_invertAst hinvert
  have hholds : ∀ (θ : ThresholdId → ℚ) (a : Assignment),
      ast'.regroup.Holds θ a 0 ↔ ¬ast.regroup.DualHolds θ a 0 := fun θ a =>
    hinverts.regroup.holds θ a 0
  constructor
  · rintro ⟨hquotable, hlarge, hshort, hfew, hdual⟩
    refine ⟨ast'.regroup, hinverts.parse_inverse hast hquotable hlarge ⟨hshort, hfew⟩, ?_⟩
    exact fun θ a => (hholds θ a).trans (not_congr (hdual θ a).symm)
  · rintro hquotable ⟨found, hfound, hcomplement⟩
    have hlimits := (hinverts.withinLimits_iff hast hquotable).1 (withinLimits_of_parse hfound)
    have hlarge : ∀ q ∈ ast.numbers, isSmall q = false := by
      have hlarge' := large_of_parse (hinverts.spelled hast.spelled)
        (hinverts.texts_eq ▸ hquotable) hfound
      exact hinverts.numbers_eq ▸ hlarge'
    have hregroup := hinverts.parse_inverse hast hquotable hlarge hlimits
    rw [hfound] at hregroup
    obtain rfl := Except.ok.inj hregroup
    refine ⟨hquotable, hlarge, hlimits.1, hlimits.2, fun θ a => ?_⟩
    have hsame := (hholds θ a).symm.trans (hcomplement θ a)
    exact (not_iff_not.1 hsame).symm

theorem complements_iff_condition : Complements "avg(x) <= 5"
    (.comparison (.aggCall .avg "x") .gt (.ref (.inline "x_threshold" 5))) := by
  have hparse : parse "avg(x) > 5" =
      .ok (.comparison (.aggCall .avg "x") .gt (.ref (.inline "x_threshold" 5))) := by
    decide +kernel
  have hinverse : invertExpression "avg(x) > 5" = some "avg(x) <= 5" := by decide +kernel
  refine (complements_iff hparse hinverse).1 ⟨by simp [Ast.texts, Operand.texts], ?_, by decide +kernel, by decide +kernel,
    fun θ a => ?_⟩
  · simp [Ast.numbers, ArithNode.numbers, Operand.numbers, isSmall]
  · rw [regroup_eq_iff.2 (by trivial)]
    simp [Ast.Holds, Ast.DualHolds, ArithNode.eval]

/-- Two conditions that must both hold. -/
def conjunction : Ast :=
  .boolOp .and (.comparison (.aggCall .avg "a") .gt (.ref (.inline "a_threshold" 1)))
    (.comparison (.aggCall .avg "b") .gt (.ref (.inline "b_threshold" 2)))

/-- **The inverse need not be the complement**: `AND` stays `AND`. -/
theorem not_complements : ¬∀ (expression inverse : String) (ast : Ast), parse expression = .ok ast →
      invertExpression expression = some inverse → Complements inverse ast := by
  intro h
  obtain ⟨found, hfound, hcomplement⟩ := h "avg(a) > 1 AND avg(b) > 2"
    "avg(a) <= 1 AND avg(b) <= 2" conjunction (by decide +kernel) (by decide +kernel)
  have hparse : parse "avg(a) <= 1 AND avg(b) <= 2" = .ok
      (.boolOp .and (.comparison (.aggCall .avg "a") .le (.ref (.inline "a_threshold" 1)))
        (.comparison (.aggCall .avg "b") .le (.ref (.inline "b_threshold" 2)))) := by
    decide +kernel
  rw [hparse] at hfound
  cases hfound
  -- One condition holds and the other does not: both conjunctions are false.
  have hboth := hcomplement (fun _ => 1)
    ⟨fun _ metric => if metric = "a" then 5 else 0, fun _ => "", fun _ => false⟩
  simp [conjunction, Ast.Holds, ArithNode.eval, CompareOp.Holds, operandValue,
    CompareOp.isEquality] at hboth

/-! ### Inverting twice -/

/-- An operand after its operator. -/
def operandText (operand : ArithOperator × ArithNode) : String :=
  " " ++ operand.1.text ++ " " ++ arithToString operand.2

/-- A condition after its connective. -/
def conditionText (condition : BoolOperator × Ast) : String :=
  " " ++ condition.1.text ++ " " ++ astToString condition.2

theorem ArithNode.arithToString_regroup (node : ArithNode) :
    arithToString node.regroup = arithToString node := by
  have hplace (left : ArithNode) (operand : ArithOperator × ArithNode) :
      arithToString (left.place operand) = arithToString left ++ operandText operand := by
    cases left with
    | aggCall | numericLiteral =>
      simp only [place, snoc, arithToString, operandText, String.append_assoc]
    | arithOp =>
      rw [place, snoc]
      split <;> simp [arithToString, operandText, String.append_assoc]
  have hfold (operands : List (ArithOperator × ArithNode)) (left : ArithNode) :
      arithToString (operands.foldl place left) =
        arithToString left ++ String.join (operands.map operandText) := by
    induction operands generalizing left with
    | nil => simp
    | cons operand operands ih =>
      rw [foldl_cons, ih, hplace, map_cons, String.join_cons, String.append_assoc]
  refine (hfold _ _).trans ?_
  induction node with
  | aggCall | numericLiteral => simp [operands]
  | arithOp op left right ihl ihr =>
    rw [operands, map_append, map_cons, String.join_append, String.join_cons,
      ← String.append_assoc, ihl, operandText, String.append_assoc, ihr]
    simp [arithToString, String.append_assoc]

/-- **Regrouping does not show** when a tree is printed. -/
theorem astToString_regroup (ast : Ast) : astToString ast.regroup = astToString ast := by
  have hfold (conditions : List (BoolOperator × Ast)) (first : Ast) :
      astToString (conditions.foldl Ast.join first) =
        astToString first ++ String.join (conditions.map conditionText) := by
    induction conditions generalizing first with
    | nil => simp
    | cons condition conditions ih =>
      rw [foldl_cons, ih, Ast.join, map_cons, String.join_cons, ← String.append_assoc]
      simp [astToString, conditionText, String.append_assoc]
  refine (hfold _ _).trans ?_
  induction ast with
  | comparison left op right => simp [Ast.conditions, astToString, ArithNode.arithToString_regroup]
  | keyComparison | changed | inList => simp [Ast.conditions]
  | boolOp op left right ihl ihr =>
    rw [Ast.conditions, map_append, map_cons, String.join_append, String.join_cons,
      ← String.append_assoc, ihl, conditionText, String.append_assoc, ihr]
    simp [astToString, String.append_assoc]

theorem Inverts.invertAst {ast ast' : Ast} (h : Inverts ast ast') : invertAst ast' = some ast := by
  induction h with
  | @comparison left op op' right hop | @keyComparison key op op' value hop =>
    cases op <;> cases hop <;> rfl
  | inList => simp [Dsl.invertAst]
  | boolOp _ _ ihl ihr => simp [Dsl.invertAst, ihl, ihr]

/-- **Inverting twice** gives the printed expression back. -/
theorem invertExpression_invertExpression {expression inverse : String} {ast : Ast}
    (hparse : parse expression = .ok ast) (hinverse : invertExpression expression = some inverse)
    (hquotable : ∀ value ∈ ast.texts, '\'' ∉ value.toList)
    (hlarge : ∀ q ∈ ast.numbers, isSmall q = false)
    (hlimits : withinLimits inverse = true) :
    invertExpression inverse = some (astToString ast) := by
  obtain ⟨ast', hinvert, rfl⟩ := (invertExpression_eq_some hparse).1 hinverse
  have h := inverts_of_invertAst hinvert
  have hagain : parse (astToString ast') = .ok ast'.regroup :=
    parse_astToString (h.parsed (parse_sound hparse)) hlimits (h.texts_eq ▸ hquotable)
      (h.numbers_eq ▸ hlarge)
  calc invertExpression (astToString ast')
      = (invertAst ast'.regroup).map astToString := by rw [invertExpression, hagain]
    _ = some (astToString ast) := by rw [h.regroup.invertAst, map_some, astToString_regroup]

/-- The inverse has lost the parentheses, and so has what comes back. -/
theorem invertExpression_invertExpression_productOfSum :
    invertExpression "avg(x) + max(y) * 2 <= 10" = some "avg(x) + max(y) * 2 > 10" := by
  have hparse : parse "(avg(x) + max(y)) * 2 > 10" = .ok productOfSum := by decide +kernel
  refine (invertExpression_invertExpression hparse (by decide +kernel)
    (by simp [productOfSum, Ast.texts, Operand.texts]) ?_ (by decide +kernel)).trans
    (by decide +kernel)
  simp [productOfSum, Ast.numbers, ArithNode.numbers, Operand.numbers, isSmall]

end MonCTL.Dsl
