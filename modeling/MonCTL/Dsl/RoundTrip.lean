import MonCTL.Dsl.Regroup

/-!
# Printing and Parsing

Printing a parsed expression and parsing the text again returns the expression exactly when
three things are so: its grouping is the one that precedence gives, since no parentheses are
printed; no text of it contains an apostrophe, since every text is printed between apostrophes;
and it has no small number, since scientific notation is not read.
-/

namespace MonCTL.Dsl

open List

/-! ### Flat trees -/

/-- An operand without an operator. -/
def ArithNode.IsAtom : ArithNode → Prop
  | .arithOp _ _ _ => False
  | _ => True

/-- Factors, associated to the left. -/
def ArithNode.IsProduct : ArithNode → Prop
  | .arithOp op left right => op.isFactor = true ∧ left.IsProduct ∧ right.IsAtom
  | _ => True

/-- Arithmetic grouped by precedence, and associated to the left. -/
def ArithNode.IsFlat : ArithNode → Prop
  | .arithOp op left right =>
    if op.isFactor then left.IsProduct ∧ right.IsAtom else left.IsFlat ∧ right.IsProduct
  | _ => True

/-- An expression that needs no parentheses. -/
def Ast.IsFlat : Ast → Prop
  | .comparison left _ _ => left.IsFlat
  | .boolOp _ left right => left.IsFlat ∧ right.IsLeaf ∧ right.IsFlat
  | _ => True

variable {node : ArithNode}

theorem ArithNode.IsAtom.operands (h : node.IsAtom) : node.operands = (node, []) := by
  cases node with
  | arithOp => cases h
  | _ => rfl

theorem ArithNode.IsAtom.isProduct (h : node.IsAtom) : node.IsProduct := by
  cases node with
  | arithOp => cases h
  | _ => trivial

theorem ArithNode.IsProduct.isTerm (h : node.IsProduct) : node.IsTerm := by
  cases node with
  | arithOp => exact h.1
  | _ => trivial

theorem ArithNode.IsProduct.isFlat (h : node.IsProduct) : node.IsFlat := by
  cases node with
  | arithOp op left right =>
    rw [IsFlat, if_pos h.1]
    exact h.2
  | _ => trivial

theorem ArithNode.isAtom_operands (node : ArithNode) :
    node.operands.1.IsAtom ∧ ∀ operand ∈ node.operands.2, operand.2.IsAtom := by
  induction node with
  | aggCall func metric => exact ⟨trivial, by simp [operands]⟩
  | numericLiteral value => exact ⟨trivial, by simp [operands]⟩
  | arithOp op left right ihl ihr =>
    refine ⟨ihl.1, fun operand hoperand => ?_⟩
    rcases List.mem_append.1 hoperand with h | h
    · exact ihl.2 operand h
    · rcases List.mem_cons.1 h with rfl | h
      · exact ihr.1
      · exact ihr.2 operand h

theorem ArithNode.IsProduct.isFactor (h : node.IsProduct) :
    ∀ operand ∈ node.operands.2, operand.1.isFactor = true := by
  induction node with
  | aggCall func metric => simp [operands]
  | numericLiteral value => simp [operands]
  | arithOp op left right ihl ihr =>
    intro operand hoperand
    rw [operands, h.2.2.operands] at hoperand
    rcases List.mem_append.1 hoperand with hmem | hmem
    · exact ihl h.2.1 operand hmem
    · rw [List.mem_singleton.1 hmem]
      exact h.1

theorem ArithNode.IsFlat.place {left : ArithNode} (hleft : left.IsFlat)
    {operand : ArithOperator × ArithNode} (hoperand : operand.2.IsAtom) :
    (left.place operand).IsFlat := by
  obtain ⟨op, atom⟩ := operand
  cases hop : op.isFactor with
  | false =>
    rw [place_of_not_isFactor (by exact hop)]
    change ite _ _ _
    rw [if_neg (by simp [hop])]
    exact ⟨hleft, hoperand.isProduct⟩
  | true =>
    cases left with
    | aggCall func metric =>
      rw [place_of_isTerm (by trivial)]
      change ite _ _ _
      rw [if_pos hop]
      exact ⟨trivial, hoperand⟩
    | numericLiteral value =>
      rw [place_of_isTerm (by trivial)]
      change ite _ _ _
      rw [if_pos hop]
      exact ⟨trivial, hoperand⟩
    | arithOp op' left right =>
      rw [IsFlat] at hleft
      cases hop' : op'.isFactor with
      | true =>
        rw [if_pos hop'] at hleft
        rw [place_of_isTerm (by exact hop')]
        change ite _ _ _
        rw [if_pos hop]
        exact ⟨⟨hop', hleft⟩, hoperand⟩
      | false =>
        rw [if_neg (by simp [hop'])] at hleft
        rw [ArithNode.place, snoc, if_pos ⟨hop, by simp [hop']⟩]
        change ite _ _ _
        rw [if_neg (by simp [hop'])]
        exact ⟨hleft.1, hop, hleft.2, hoperand⟩

theorem ArithNode.isFlat_regroup (node : ArithNode) : node.regroup.IsFlat := by
  have hfold : ∀ (operands : List (ArithOperator × ArithNode)) (first : ArithNode),
      first.IsFlat → (∀ operand ∈ operands, operand.2.IsAtom) →
      (operands.foldl place first).IsFlat := by
    intro operands
    induction operands with
    | nil => exact fun first hfirst _ => hfirst
    | cons operand operands ih =>
      intro first hfirst hoperands
      obtain ⟨hoperand, hrest⟩ := List.forall_mem_cons.1 hoperands
      exact ih _ (hfirst.place hoperand) hrest
  obtain ⟨hfirst, hoperands⟩ := node.isAtom_operands
  exact hfold _ _ hfirst.isProduct.isFlat hoperands

/-- **Flat arithmetic is its own regrouping.** -/
theorem ArithNode.IsFlat.regroup_eq (h : node.IsFlat) : node.regroup = node := by
  induction node with
  | aggCall func metric => rfl
  | numericLiteral value => rfl
  | arithOp op left right ihl ihr =>
    have hregroup : (ArithNode.arithOp op left right).regroup =
        ((op, right.operands.1) :: right.operands.2).foldl ArithNode.place left.regroup :=
      foldl_append ..
    rw [IsFlat] at h
    rw [hregroup]
    cases hop : op.isFactor with
    | true =>
      rw [if_pos hop] at h
      rw [ihl h.1.isFlat, h.2.operands]
      exact place_of_isTerm h.1.isTerm
    | false =>
      rw [if_neg (by simp [hop])] at h
      have hterm : right.operands.1.IsTerm := right.isAtom_operands.1.isProduct.isTerm
      have hright : right.operands.2.foldl grow right.operands.1 = right := by
        rw [← foldl_place_of_isTerm hterm h.2.isFactor]
        exact ihr h.2.isFlat
      rw [ihl h.1, foldl_cons, place_of_not_isFactor (by exact hop)]
      change List.foldl ArithNode.place (.arithOp op left right.operands.1) right.operands.2 = _
      rw [foldl_place_of_sum hop h.2.isFactor, hright]

/-- **Arithmetic is its own regrouping exactly when it is flat.** -/
theorem ArithNode.regroup_eq_iff : node.regroup = node ↔ node.IsFlat :=
  ⟨fun h => h ▸ node.isFlat_regroup, IsFlat.regroup_eq⟩

theorem Ast.isLeaf_conditions (ast : Ast) : (ast.conditions.1.IsLeaf ∧ ast.conditions.1.IsFlat) ∧
      ∀ condition ∈ ast.conditions.2, condition.2.IsLeaf ∧ condition.2.IsFlat := by
  induction ast with
  | boolOp op left right ihl ihr =>
    refine ⟨ihl.1, fun condition hcondition => ?_⟩
    rcases List.mem_append.1 hcondition with h | h
    · exact ihl.2 condition h
    · rcases List.mem_cons.1 h with rfl | h
      · exact ihr.1
      · exact ihr.2 condition h
  | comparison left op right => exact ⟨⟨trivial, left.isFlat_regroup⟩, by simp [conditions]⟩
  | keyComparison | changed | inList => exact ⟨⟨trivial, trivial⟩, by simp [conditions]⟩

theorem Ast.isFlat_regroup (ast : Ast) : ast.regroup.IsFlat := by
  have hfold : ∀ (conditions : List (BoolOperator × Ast)) (first : Ast), first.IsFlat →
      (∀ condition ∈ conditions, condition.2.IsLeaf ∧ condition.2.IsFlat) →
      (conditions.foldl join first).IsFlat := by
    intro conditions
    induction conditions with
    | nil => exact fun first hfirst _ => hfirst
    | cons condition conditions ih =>
      intro first hfirst hconditions
      obtain ⟨hcondition, hrest⟩ := List.forall_mem_cons.1 hconditions
      exact ih (first.join condition) ⟨hfirst, hcondition⟩ hrest
  obtain ⟨hfirst, hconditions⟩ := ast.isLeaf_conditions
  exact hfold _ _ hfirst.2 hconditions

theorem Ast.IsLeaf.conditions_eq {leaf : Ast} (hleaf : leaf.IsLeaf) (hflat : leaf.IsFlat) :
    leaf.conditions = (leaf, []) := by
  cases leaf with
  | boolOp => cases hleaf
  | comparison left op right => rw [conditions, ArithNode.regroup_eq_iff.2 hflat]
  | _ => rfl

variable {ast : Ast}

/-- **An expression is its own regrouping exactly when it is flat.** -/
theorem regroup_eq_iff : ast.regroup = ast ↔ ast.IsFlat := by
  refine ⟨fun h => h ▸ ast.isFlat_regroup, fun h => ?_⟩
  have hleaf : ∀ leaf : Ast, leaf.IsLeaf → leaf.IsFlat → leaf.regroup = leaf := by
    intro leaf hleaf hflat
    rw [Ast.regroup, hleaf.conditions_eq hflat]
    rfl
  induction ast with
  | boolOp op left right ihl _ =>
    obtain ⟨hleft, hright, hflat⟩ := h
    have hregroup : (Ast.boolOp op left right).regroup =
        ((op, right.conditions.1) :: right.conditions.2).foldl Ast.join left.regroup :=
      foldl_append ..
    rw [hregroup, hright.conditions_eq hflat, ihl hleft]
    rfl
  | comparison | keyComparison | changed | inList => exact hleaf _ (by trivial) h

/-! ### Accounts of printed trees -/

theorem balance_numberTokens (q : ℚ) :
    ((numberTokens q).map Token.balance).sum = 1 + [q].countP isSmall := by
  rw [numberTokens]
  cases hsmall : isSmall q <;> simp [hsmall, Token.balance]

theorem ArithNode.balance_tokens (node : ArithNode) :
    (node.tokens.map Token.balance).sum = 1 + node.numbers.countP isSmall := by
  induction node with
  | aggCall func metric => rfl
  | numericLiteral value => exact balance_numberTokens value
  | arithOp op left right ihl ihr =>
    simp only [tokens, numbers, map_append, map_cons, sum_append, sum_cons,
      countP_append, ihl, ihr, Token.balance]
    omega

theorem Operand.balance_tokens (operand : Operand) :
    (operand.tokens.map Token.balance).sum = 1 + operand.numbers.countP isSmall := by
  cases operand with
  | text value => rfl
  | ref ref =>
    cases ref with
    | named name => rfl
    | inline name value => exact balance_numberTokens value

theorem balance_valueTokens {values : List String} (h : values ≠ []) :
    ((valueTokens values).map Token.balance).sum = 1 := by
  induction values with
  | nil => exact absurd rfl h
  | cons value values ih =>
    cases values with
    | nil => rfl
    | cons => simp [valueTokens_cons_cons, Token.balance, ih (cons_ne_nil _ _)]

/-- **The values of a printed tree** outnumber what connects them by one, and by one more for
each small number. -/
theorem Ast.balance_tokens (h : ast.Spelled) :
    (ast.tokens.map Token.balance).sum = 1 + ast.numbers.countP isSmall := by
  induction ast with
  | comparison left op right =>
    simp only [tokens, numbers, map_append, map_cons, sum_append, sum_cons,
      countP_append, left.balance_tokens, right.balance_tokens, Token.balance]
    omega
  | keyComparison key op value => rfl
  | changed identifier => rfl
  | inList identifier values negated =>
    have hvalues := balance_valueTokens h.2
    cases negated <;> simp [tokens, numbers, Token.balance, hvalues]
  | boolOp op left right ihl ihr =>
    have hop : (Token.keyword op.keyword).balance = -1 := by cases op <;> rfl
    simp only [tokens, numbers, map_append, map_cons, sum_append, sum_cons,
      countP_append, ihl h.1, ihr h.2, hop]
    omega

theorem Ast.cost_balance (ast : Ast) : ast.cost.balance = 1 := by
  have harith : ∀ node : ArithNode, node.cost.balance = 1 := by
    intro node
    induction node with
    | aggCall func metric => rfl
    | numericLiteral value => rfl
    | arithOp op left right ihl ihr => simp [ArithNode.cost, ihl, ihr]
  induction ast with
  | comparison left op right =>
    have hright : right.cost.balance = 1 := by
      cases right with
      | text value => rfl
      | ref ref => cases ref <;> rfl
    simp [cost, harith left, hright]
  | keyComparison key op value => rfl
  | changed identifier => rfl
  | inList identifier values negated => rfl
  | boolOp op left right ihl ihr => simp [cost, ihl, ihr]

/-- The limits that a text is checked against before it is parsed. -/
def withinLimits (text : String) : Bool :=
  decide ((strip text.toList).length ≤ maxExpressionLength) &&
    match tokenize (strip text.toList) with
    | .ok tokens => decide (tokens.length ≤ maxTokenCount)
    | .error _ => true

/-- **What can be printed and parsed again**: the grouping is the one of precedence, no text
contains an apostrophe, and no number is small. -/
structure Ast.Printable (ast : Ast) : Prop where
  flat : ast.IsFlat
  quotable : ∀ value ∈ ast.texts, '\'' ∉ value.toList
  large : ∀ q ∈ ast.numbers, isSmall q = false

theorem tokenize_astToString (hspelled : ast.Spelled)
    (hquotable : ∀ value ∈ ast.texts, '\'' ∉ value.toList) :
    tokenize (strip (astToString ast).toList) = .ok ast.tokens := by
  have hlexes := lexes_astToString hspelled hquotable Lexes.nil stops_nil 0
  rwa [append_nil, append_nil, ← strip_astToString hspelled] at hlexes

theorem Ast.tokens_ne_nil (ast : Ast) : ast.tokens ≠ [] := by cases ast <;> simp [tokens]

/-- **What a printed tree is parsed to**: the tree regrouped. -/
theorem parse_astToString (hast : ast.Parsed) (hlimits : withinLimits (astToString ast) = true)
    (hquotable : ∀ value ∈ ast.texts, '\'' ∉ value.toList)
    (hlarge : ∀ q ∈ ast.numbers, isSmall q = false) :
    parse (astToString ast) = .ok ast.regroup := by
  have htokens := tokenize_astToString hast.spelled hquotable
  rw [withinLimits, htokens, Bool.and_eq_true, decide_eq_true_eq, decide_eq_true_eq] at hlimits
  exact parse_eq_ok.2 ⟨hlimits.1, ast.tokens, htokens, ast.tokens_ne_nil, hlimits.2,
    parseTokens_tokens hast hlarge⟩

theorem large_of_parse {ast' : Ast} (hspelled : ast.Spelled)
    (hquotable : ∀ value ∈ ast.texts, '\'' ∉ value.toList)
    (hparse : parse (astToString ast) = .ok ast') : ∀ q ∈ ast.numbers, isSmall q = false := by
  obtain ⟨-, tokens, htokens, -, -, hrun⟩ := parse_eq_ok.1 hparse
  have hbalance := (parseTokens_sound (lexed_of_tokenizeFrom htokens) hrun).2.1
  rw [tokenize_astToString hspelled hquotable] at htokens
  cases htokens
  rw [ast'.cost_balance, Ast.balance_tokens hspelled] at hbalance
  have hzero : ast.numbers.countP isSmall = 0 := by omega
  intro q hq
  exact Bool.eq_false_iff.2 (List.countP_eq_zero.1 hzero q hq)

/-- A product of a sum: parsed, and printed without its parentheses. -/
def productOfSum : Ast :=
  .comparison (.arithOp .mul (.arithOp .add (.aggCall .avg "x") (.aggCall .max "y"))
    (.numericLiteral 2)) .gt (.ref (.inline "_expr_0_threshold" 10))

end MonCTL.Dsl
