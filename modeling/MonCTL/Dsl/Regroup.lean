import MonCTL.Dsl.GrammarComplete
import MonCTL.Dsl.ParserSound

/-!
# Parsing Flat Expressions

A printed tree has no parentheses, so the grammar sees a first operand and further operands
with their operators, and groups them by precedence. What the parser returns is the printed
tree regrouped.
-/

namespace MonCTL.Dsl

open List

/-! ### Operands -/

/-- An operand that stands alone and is read back. -/
def ArithNode.Readable : ArithNode → Prop
  | .aggCall _ metric => IsShortIdent metric
  | .numericLiteral value => IsLiteral value ∧ isSmall value = false
  | .arithOp _ _ _ => False

def operandTokens (operands : List (ArithOperator × ArithNode)) : List Token :=
  operands.flatMap fun operand => .arith operand.1 :: operand.2.tokens

def operandCost : List (ArithOperator × ArithNode) → Cost
  | [] => 0
  | operand :: operands => ⟨-1, 0, 0, 1, 0⟩ + operand.2.cost + operandCost operands

/-- One more operand, whatever its precedence. -/
def ArithNode.grow (left : ArithNode) (operand : ArithOperator × ArithNode) : ArithNode :=
  .arithOp operand.1 left operand.2

/-- One more operand, at its precedence. -/
def ArithNode.place (left : ArithNode) (operand : ArithOperator × ArithNode) : ArithNode :=
  left.snoc operand.1 operand.2

def ArithNode.numbers : ArithNode → List ℚ
  | .aggCall _ _ => []
  | .numericLiteral value => [value]
  | .arithOp _ left right => left.numbers ++ right.numbers

theorem operandTokens_append (operands operands' : List (ArithOperator × ArithNode)) :
    operandTokens (operands ++ operands') = operandTokens operands ++ operandTokens operands' :=
  flatMap_append

theorem operandCost_append (operands operands' : List (ArithOperator × ArithNode)) :
    operandCost (operands ++ operands') = operandCost operands + operandCost operands' := by
  induction operands with
  | nil => simp [operandCost]
  | cons operand operands ih =>
    simp only [cons_append, operandCost, ih, Cost.add_assoc]

theorem ArithNode.tokens_operands (node : ArithNode) :
    node.tokens = node.operands.1.tokens ++ operandTokens node.operands.2 := by
  induction node with
  | aggCall func metric => simp [operands, operandTokens]
  | numericLiteral value => simp [operands, operandTokens]
  | arithOp op left right ihl ihr =>
    rw [tokens, operands, operandTokens_append, ihl, ihr]
    simp [operandTokens]

theorem ArithNode.cost_operands (node : ArithNode) :
    node.cost = node.operands.1.cost + operandCost node.operands.2 := by
  induction node with
  | aggCall func metric => simp [operands, operandCost]
  | numericLiteral value => simp [operands, operandCost]
  | arithOp op left right ihl ihr =>
    rw [cost, operands, operandCost_append, ihl, ihr, operandCost]
    simp only [Cost.add_assoc]

variable {node : ArithNode}

theorem ArithNode.readable_operands (hspelled : node.Spelled)
    (hsmall : ∀ q ∈ node.numbers, isSmall q = false) :
    node.operands.1.Readable ∧ ∀ operand ∈ node.operands.2, operand.2.Readable := by
  induction node with
  | aggCall func metric => exact ⟨hspelled, by simp [operands]⟩
  | numericLiteral value =>
    exact ⟨⟨hspelled, hsmall value (mem_singleton_self value)⟩, by simp [operands]⟩
  | arithOp op left right ihl ihr =>
    have hleft := ihl hspelled.1 fun q hq => hsmall q (mem_append_left _ hq)
    have hright := ihr hspelled.2 fun q hq => hsmall q (mem_append_right _ hq)
    refine ⟨hleft.1, fun operand hoperand => ?_⟩
    rcases List.mem_append.1 hoperand with h | h
    · exact hleft.2 operand h
    · rcases List.mem_cons.1 h with rfl | h
      · exact hright.1
      · exact hright.2 operand h

theorem numberValue_of_isLiteral {value : ℚ} (hvalue : IsLiteral value)
    (hsmall : isSmall value = false) : numberTokens value = [.number (numberText value)] ∧
      accepted.valueOf (numberText value) = value := by
  refine ⟨?_, numberValue_numberText hvalue hsmall⟩
  rw [numberTokens, hsmall]
  rfl

theorem ArithNode.Readable.derives (h : node.Readable) (d : ℕ) :
    DerivesArith accepted .atom d node.tokens node := by
  cases node with
  | aggCall func metric => exact .aggCall h.short
  | arithOp => cases h
  | numericLiteral value =>
    obtain ⟨htokens, hvalue⟩ := numberValue_of_isLiteral h.1 h.2
    have hnumber : DerivesArith accepted .atom d [.number (numberText value)] _ := .number
    rwa [hvalue, ← htokens] at hnumber

/-! ### Precedence -/

/-- Arithmetic that a factor can be put after. -/
def ArithNode.IsTerm : ArithNode → Prop
  | .arithOp op _ _ => op.isFactor = true
  | _ => True

theorem ArithNode.Readable.isTerm (h : node.Readable) : node.IsTerm := by
  cases node with
  | arithOp => cases h
  | aggCall => trivial
  | numericLiteral => trivial

variable {left : ArithNode} {operand : ArithOperator × ArithNode}

theorem ArithNode.place_of_isTerm (hleft : left.IsTerm) : left.place operand = left.grow operand :=
    by
  cases left with
  | arithOp op left right =>
    rw [place, snoc, if_neg fun h => h.2 hleft]
    rfl
  | aggCall => rfl
  | numericLiteral => rfl

theorem ArithNode.place_of_not_isFactor (h : operand.1.isFactor = false) :
    left.place operand = left.grow operand := by
  cases left with
  | arithOp op left right =>
    rw [place, snoc, if_neg (by simp [h])]
    rfl
  | aggCall => rfl
  | numericLiteral => rfl

variable {op : ArithOperator} {right : ArithNode}

theorem ArithNode.place_of_sum (hop : op.isFactor = false) (h : operand.1.isFactor = true) :
    (ArithNode.arithOp op left right).place operand = .arithOp op left (right.grow operand) := by
  rw [place, snoc, if_pos ⟨h, by simp [hop]⟩]
  rfl

theorem ArithNode.foldl_place_of_isTerm (hleft : left.IsTerm)
    {operands : List (ArithOperator × ArithNode)}
    (h : ∀ operand ∈ operands, operand.1.isFactor = true) :
    operands.foldl place left = operands.foldl grow left := by
  induction operands generalizing left with
  | nil => rfl
  | cons operand operands ih =>
    obtain ⟨hoperand, hrest⟩ := List.forall_mem_cons.1 h
    rw [foldl_cons, foldl_cons, place_of_isTerm hleft]
    exact ih (show (left.grow operand).IsTerm from hoperand) hrest

theorem ArithNode.foldl_place_of_sum
    (hop : op.isFactor = false) {operands : List (ArithOperator × ArithNode)}
    (h : ∀ operand ∈ operands, operand.1.isFactor = true) :
    operands.foldl place (.arithOp op left right) =
      .arithOp op left (operands.foldl grow right) := by
  induction operands generalizing right with
  | nil => rfl
  | cons operand operands ih =>
    obtain ⟨hoperand, hrest⟩ := List.forall_mem_cons.1 h
    rw [foldl_cons, foldl_cons, place_of_sum hop hoperand, ih hrest]

/-- Arithmetic that is derived without parentheses: a term, or a sum whose last summand takes
the factors that follow. -/
inductive FlatSum (d : ℕ) : List Token → ArithNode → Prop
  | term {tokens : List Token} {node : ArithNode} : node.IsTerm →
      DerivesArith accepted .term d tokens node → FlatSum d tokens node
  | sum {tokens tokens' : List Token} {op : ArithOperator} {left right : ArithNode} :
      op.isFactor = false → DerivesArith accepted .expr d tokens left →
      DerivesArith accepted .term d tokens' right →
      FlatSum d (tokens ++ .arith op :: tokens') (.arithOp op left right)

variable {d : ℕ} {tokens : List Token}

theorem FlatSum.expr (h : FlatSum d tokens node) : DerivesArith accepted .expr d tokens node := by
  cases h with
  | term _ h => exact .ofTerm h
  | sum hop hleft hright => exact .summand hop hleft hright

/-- **One more operand, at its precedence.** -/
theorem FlatSum.place {tokens' : List Token} (h : FlatSum d tokens left)
    (hatom : DerivesArith accepted .atom d tokens' operand.2) :
    FlatSum d (tokens ++ .arith operand.1 :: tokens') (left.place operand) := by
  by_cases hop : operand.1.isFactor = true
  · cases h with
    | term hterm h =>
      rw [ArithNode.place_of_isTerm hterm]
      exact .term hop (.factor hop h hatom)
    | sum hop' hleft hright =>
      rw [ArithNode.place_of_sum hop' hop, append_assoc, cons_append]
      exact .sum hop' hleft (.factor hop hright hatom)
  · rw [Bool.not_eq_true] at hop
    rw [ArithNode.place_of_not_isFactor hop]
    exact .sum hop h.expr (.ofAtom hatom)

theorem FlatSum.foldl (h : FlatSum d tokens left)
    {operands : List (ArithOperator × ArithNode)} (hoperands : ∀ operand ∈ operands,
      operand.2.Readable) :
    FlatSum d (tokens ++ operandTokens operands) (operands.foldl ArithNode.place left) := by
  induction operands generalizing tokens left with
  | nil => rwa [operandTokens, flatMap_nil, append_nil]
  | cons operand operands ih =>
    obtain ⟨hoperand, hrest⟩ := List.forall_mem_cons.1 hoperands
    have hfold := ih (h.place (hoperand.derives d)) hrest
    rwa [append_assoc] at hfold

/-- **Printed arithmetic is derived regrouped.** -/
theorem ArithNode.derives_regroup (hspelled : node.Spelled)
    (hsmall : ∀ q ∈ node.numbers, isSmall q = false) (d : ℕ) :
    DerivesArith accepted .expr d node.tokens node.regroup := by
  obtain ⟨hfirst, hoperands⟩ := readable_operands hspelled hsmall
  have hplaced : FlatSum d node.operands.1.tokens node.operands.1 :=
    .term hfirst.isTerm (.ofAtom (hfirst.derives d))
  rw [tokens_operands]
  exact (hplaced.foldl hoperands).expr

theorem ArithNode.cost_place (left : ArithNode) (operand : ArithOperator × ArithNode) :
    (left.place operand).cost = left.cost + ⟨-1, 0, 0, 1, 0⟩ + operand.2.cost := by
  cases left with
  | aggCall => rfl
  | numericLiteral => rfl
  | arithOp op left right =>
    rw [place, snoc]
    split
    · simp only [cost, Cost.add_assoc]
    · rfl

theorem ArithNode.cost_regroup (node : ArithNode) : node.regroup.cost = node.cost := by
  have hfold : ∀ (operands : List (ArithOperator × ArithNode)) (left : ArithNode),
      (operands.foldl place left).cost = left.cost + operandCost operands := by
    intro operands
    induction operands with
    | nil => exact fun left => (Cost.add_zero _).symm
    | cons operand operands ih =>
      intro left
      rw [foldl_cons, ih, cost_place, operandCost]
      simp only [Cost.add_assoc]
  exact (hfold _ _).trans node.cost_operands.symm

theorem ArithNode.regroup_aggCall (node : ArithNode) (i : ℕ) :
    autoThresholdName node.regroup i = autoThresholdName node i := by
  cases node with
  | aggCall func metric => rfl
  | numericLiteral value => rfl
  | arithOp op left right =>
    have hplace : ∀ (left : ArithNode) (operand : ArithOperator × ArithNode),
        ∃ op' left' right', left.place operand = .arithOp op' left' right' := by
      intro left operand
      cases left with
      | aggCall => exact ⟨_, _, _, rfl⟩
      | numericLiteral => exact ⟨_, _, _, rfl⟩
      | arithOp =>
        rw [place, snoc]
        split <;> exact ⟨_, _, _, rfl⟩
    obtain ⟨operands, last, hlast⟩ := (eq_nil_or_concat
      (left.operands.2 ++ (op, right.operands.1) :: right.operands.2)).resolve_left (by simp)
    obtain ⟨op', left', right', hnode⟩ := hplace (operands.foldl place left.operands.1) last
    have hregroup : (ArithNode.arithOp op left right).regroup = .arithOp op' left' right' := by
      show List.foldl place left.operands.1
        (left.operands.2 ++ (op, right.operands.1) :: right.operands.2) = _
      rw [hlast, concat_eq_append, foldl_concat, hnode]
    rw [hregroup]
    rfl

/-! ### Conditions -/

/-- The number on the right of a comparison. -/
def Operand.numbers : Operand → List ℚ
  | .ref (.inline _ value) => [value]
  | _ => []

/-- The numbers of an expression, but for the values of lists. -/
def Ast.numbers : Ast → List ℚ
  | .comparison left _ right => left.numbers ++ right.numbers
  | .boolOp _ left right => left.numbers ++ right.numbers
  | _ => []

/-- A condition of its own. -/
def Ast.IsLeaf : Ast → Prop
  | .boolOp _ _ _ => False
  | _ => True

theorem valueTokens_cons_cons (value value' : String) (values : List String) :
    valueTokens (value :: value' :: values) =
      .string value :: .comma :: valueTokens (value' :: values) := rfl

theorem derives_valueTokens {values : List String} (h : values ≠ []) :
    DerivesValues (valueTokens values) values := by
  induction values with
  | nil => exact absurd rfl h
  | cons value values ih =>
    cases values with
    | nil => exact .one .string
    | cons => exact .cons .string (ih (cons_ne_nil _ _))

/-- **A printed condition is derived**, its arithmetic regrouped. -/
theorem Ast.derives_conditions {leaf : Ast} (hleaf : leaf.IsLeaf) (hspelled : leaf.Spelled)
    (hsmall : ∀ q ∈ leaf.numbers, isSmall q = false) (d : ℕ) :
    DerivesAst accepted .condition d leaf.tokens leaf.conditions.1 := by
  cases leaf with
  | boolOp => cases hleaf
  | comparison left op right =>
    have hleft := ArithNode.derives_regroup hspelled.1
      (fun q hq => hsmall q (mem_append_left _ hq)) d
    have hop := isOperator_accepted op
    cases right with
    | text value => exact .textComparison rfl hleft hop
    | ref ref =>
      cases ref with
      | named name => exact .comparison hleft hop .ident
      | inline name value =>
        obtain ⟨htokens, hvalue⟩ := numberValue_of_isLiteral hspelled.2
          (hsmall value (mem_append_right _ (mem_singleton_self value)))
        have hnumber : DerivesThreshold accepted (.number (numberText value))
            (.ref (.inline name _)) := .number
        rw [hvalue] at hnumber
        rw [tokens, Operand.tokens, htokens]
        exact .comparison hleft hop hnumber
  | keyComparison key op value => exact .keyComparison hspelled.short (isOperator_accepted op)
  | changed identifier => exact .changed hspelled.short
  | inList identifier values negated =>
    have hvalues := derives_valueTokens hspelled.2
    cases negated with
    | false => exact .inList hspelled.1.short hvalues
    | true => exact .notInList hspelled.1.short hvalues

theorem Ast.conditions_of_isLeaf {leaf : Ast} (hleaf : leaf.IsLeaf) :
    leaf.conditions.1.cost = leaf.cost ∧ leaf.conditions.2 = [] ∧
      ∀ i, leaf.Indexed i → leaf.conditions.1.Indexed i := by
  cases leaf with
  | boolOp => cases hleaf
  | comparison left op right =>
    refine ⟨?_, rfl, fun i hindexed => ?_⟩
    · show left.regroup.cost + _ + _ = _
      rw [ArithNode.cost_regroup]
      rfl
    · cases right with
      | text => trivial
      | ref ref =>
        cases ref with
        | named => trivial
        | inline name value =>
          exact hindexed.trans (ArithNode.regroup_aggCall left i).symm
  | keyComparison => exact ⟨rfl, rfl, fun i h => h⟩
  | changed => exact ⟨rfl, rfl, fun i h => h⟩
  | inList => exact ⟨rfl, rfl, fun i h => h⟩

/-! ### Expressions -/

/-- One more condition. -/
def Ast.join (left : Ast) (condition : BoolOperator × Ast) : Ast :=
  .boolOp condition.1 left condition.2

/-- The tokens are derived to the tree, which is numbered from the start and has the cost. -/
structure Regrouped (tokens : List Token) (c : Cost) (tree : Ast) : Prop where
  derives : DerivesAst accepted .expression maxNestingDepth tokens tree
  indexed : tree.Indexed 0
  cost : tree.cost = c

theorem Regrouped.leaf {leaf : Ast} (hleaf : leaf.IsLeaf) (hspelled : leaf.Spelled)
    (hsmall : ∀ q ∈ leaf.numbers, isSmall q = false) (hindexed : leaf.Indexed 0) :
    Regrouped leaf.tokens leaf.cost leaf.regroup := by
  obtain ⟨hcost, hnil, hnumbered⟩ := Ast.conditions_of_isLeaf hleaf
  rw [Ast.regroup, hnil]
  exact ⟨.ofCondition (Ast.derives_conditions hleaf hspelled hsmall _), hnumbered 0 hindexed, hcost⟩

theorem Regrouped.joinLeaf {leaf : Ast} (hleaf : leaf.IsLeaf) (hspelled : leaf.Spelled)
    (hsmall : ∀ q ∈ leaf.numbers, isSmall q = false) {tokens : List Token} {c : Cost}
    {left : Ast} (h : Regrouped tokens c left) (hindexed : leaf.Indexed c.thresholds)
    (op : BoolOperator) :
    Regrouped (tokens ++ .keyword op.keyword :: leaf.tokens) (c + ⟨-1, 0, 0, 0, 0⟩ + leaf.cost)
      (((op, leaf.conditions.1) :: leaf.conditions.2).foldl Ast.join left) := by
  obtain ⟨hcost, hnil, hnumbered⟩ := Ast.conditions_of_isLeaf hleaf
  rw [hnil]
  refine ⟨.boolOp h.derives (Ast.derives_conditions hleaf hspelled hsmall _), ⟨h.indexed, ?_⟩, ?_⟩
  · rw [Nat.zero_add, h.cost]
    exact hnumbered _ hindexed
  · show left.cost + _ + leaf.conditions.1.cost = _
    rw [h.cost, hcost]

variable {ast : Ast}

/-- **Further conditions are joined one after the other.** -/
theorem Regrouped.join (hspelled : ast.Spelled)
    (hsmall : ∀ q ∈ ast.numbers, isSmall q = false) {tokens : List Token} {c : Cost} {left : Ast}
    (h : Regrouped tokens c left) (hindexed : ast.Indexed c.thresholds) (op : BoolOperator) :
    Regrouped (tokens ++ .keyword op.keyword :: ast.tokens) (c + ⟨-1, 0, 0, 0, 0⟩ + ast.cost)
      (((op, ast.conditions.1) :: ast.conditions.2).foldl Ast.join left) := by
  induction ast generalizing tokens c left op with
  | boolOp op' left' right' ihl ihr =>
    have hleft := ihl hspelled.1 (fun q hq => hsmall q (mem_append_left _ hq)) h hindexed.1 op
    have hright := ihr hspelled.2 (fun q hq => hsmall q (mem_append_right _ hq)) hleft
      (by simpa using hindexed.2) op'
    rw [← foldl_append, append_assoc, cons_append] at hright
    rwa [Ast.cost, ← Cost.add_assoc, ← Cost.add_assoc]
  | comparison | keyComparison | changed | inList =>
    exact h.joinLeaf (by trivial) hspelled hsmall hindexed op

/-- **A printed tree is derived regrouped.** -/
theorem Ast.regrouped (hspelled : ast.Spelled)
    (hsmall : ∀ q ∈ ast.numbers, isSmall q = false) (hindexed : ast.Indexed 0) :
    Regrouped ast.tokens ast.cost ast.regroup := by
  induction ast with
  | boolOp op left right ihl ihr =>
    have hleft := ihl hspelled.1 (fun q hq => hsmall q (mem_append_left _ hq)) hindexed.1
    have hright := hleft.join hspelled.2 (fun q hq => hsmall q (mem_append_right _ hq))
      (by simpa using hindexed.2) op
    have hregroup : (boolOp op left right).regroup =
        ((op, right.conditions.1) :: right.conditions.2).foldl join left.regroup :=
      foldl_append ..
    rwa [hregroup]
  | comparison | keyComparison | changed | inList =>
    exact .leaf (by trivial) hspelled hsmall hindexed

/-- **The tokens of a printed tree are parsed to the tree regrouped.** -/
theorem parseTokens_tokens (hast : ast.Parsed) (hlarge : ∀ q ∈ ast.numbers, isSmall q = false) :
    parseTokens ast.tokens = .ok ast.regroup := by
  have h := Ast.regrouped hast.spelled hlarge hast.indexed
  exact parseTokens_of_derives h.derives h.indexed (h.cost ▸ hast.aggs) (h.cost ▸ hast.ariths)

end MonCTL.Dsl
