import MonCTL.Dsl.Injection
import MonCTL.Dsl.Inversion
import MonCTL.Lib.Succeeds

/-!
# Inverted Expressions and the Validator

The validator lets a percentage be compared upwards only, and inversion turns that into a
comparison downwards. The inverse is also printed without parentheses, so that other operands
may stand on the two sides of a division. Apart from that the inverse is checked and compiled
like the expression.
-/

namespace MonCTL.Dsl

open List

/-! ### What compiles -/

/-- What the walk over the conditions asks of one. -/
def Ast.Builds : Ast → Prop
  | .comparison left op right => (∀ call ∈ left.aggCalls, IsSafeName call.2) ∧
      op.isValid = true ∧ ∀ name ∈ right.names, IsSafeName name
  | _ => True

/-- What the walk over the tests of configuration rows asks of one. -/
def Ast.RowBuilds : Ast → Prop
  | .keyComparison key op _ => op.isValid = true ∧ IsSafeName key
  | .inList identifier _ _ => IsSafeName identifier
  | _ => True

variable {table : String} {s : CompilerState}

theorem succeeds_run_bind_iff {α β : Type} {x : Compiler α} {f : α → Compiler β} {P : Prop}
    (h : ∀ a s', Succeeds ((f a).run s') ↔ P) :
    Succeeds ((x >>= f).run s) ↔ Succeeds (x.run s) ∧ P := by
  rw [StateT.run_bind]
  exact succeeds_bind_of_iff fun r _ => h r.1 r.2

theorem succeeds_run_bind_of_succeeds {α β : Type} {x : Compiler α} {f : α → Compiler β}
    (h : ∀ a s', Succeeds ((f a).run s')) : Succeeds ((x >>= f).run s) ↔ Succeeds (x.run s) :=
  (succeeds_run_bind_iff (P := True) fun a s' => iff_of_true (h a s') trivial).trans
    (and_iff_left trivial)

theorem assertSafeIdentifier_eq_pure {value place : String} (h : IsSafeName value) :
    assertSafeIdentifier value place = pure value := by
  rw [assertSafeIdentifier, if_neg (by simp [h.safe]), if_neg (not_lt.2 h.short)]

theorem succeeds_assert_iff {value place : String} :
    Succeeds ((assertSafeIdentifier value place).run s) ↔ IsSafeName value := by
  constructor
  · rintro ⟨⟨v, s'⟩, h⟩
    exact isSafeName_of_assert h
  · intro h
    rw [assertSafeIdentifier_eq_pure h]
    exact succeeds_pure _

theorem succeeds_aggToSql_iff {func : AggFunc} {metric : String} :
    Succeeds ((aggToSql table func metric).run s) ↔ IsSafeName metric := by
  constructor
  · rintro ⟨r, h⟩
    obtain ⟨_, _, hsafe, -⟩ := StateExcept.run_bind_eq_ok.1 h
    exact isSafeName_of_assert hsafe
  · intro h
    have hsource : ∀ {s}, Succeeds ((metricRef table metric).run s) := by
      intro s
      unfold metricRef
      split <;> exact ⟨_, rfl⟩
    rw [aggToSql, assertSafeIdentifier_eq_pure h, pure_bind]
    cases func with
    | rate =>
      simp only [rateToSql, assertSafeIdentifier_eq_pure h, pure_bind]
      split
      · exact succeeds_pure _
      · exact (succeeds_run_bind_of_succeeds fun _ _ => succeeds_pure _).2 hsource
    | avg | max | min | sum | count | last =>
      exact (succeeds_run_bind_of_succeeds fun _ _ => succeeds_pure _).2 hsource

theorem succeeds_arithToSql_iff {node : ArithNode} :
    Succeeds ((arithToSql table node).run s) ↔ ∀ call ∈ node.aggCalls, IsSafeName call.2 := by
  induction node generalizing s with
  | aggCall func metric =>
    rw [arithToSql, ArithNode.aggCalls, forall_mem_singleton, ← succeeds_aggToSql_iff]
    exact succeeds_run_bind_of_succeeds fun _ _ => succeeds_pure _
  | numericLiteral value => exact iff_of_true (succeeds_pure _) (by simp [ArithNode.aggCalls])
  | arithOp op left right ihl ihr =>
    rw [arithToSql, ArithNode.aggCalls, forall_mem_append, ← ihl (s := s)]
    refine succeeds_run_bind_iff fun _ _ => ?_
    rw [← ihr]
    refine succeeds_run_bind_of_succeeds fun _ _ => ?_
    cases op <;> exact succeeds_pure _

theorem succeeds_checkCompareOp_iff {op : CompareOp} :
    Succeeds ((checkCompareOp op).run s) ↔ op.isValid = true := by
  unfold checkCompareOp
  split
  next h => exact iff_of_true (succeeds_pure _) h
  next h => exact iff_of_false (not_succeeds_error _) h

variable {ast : Ast}

theorem succeeds_buildQueryParts_iff : Succeeds ((buildQueryParts table ast).run s) ↔
    ∀ leaf ∈ ast.leaves, leaf.Builds := by
  induction ast generalizing s with
  | comparison left op right =>
    have hemit : ∀ {i s}, Succeeds ((emitComparison i op right).run s) ↔
        ∀ name ∈ right.names, IsSafeName name := by
      intro i s
      cases right with
      | text value => exact iff_of_true (succeeds_pure _) (by simp [Operand.names])
      | ref ref =>
        cases ref with
        | named name =>
          rw [emitComparison, Operand.names, forall_mem_singleton, ← succeeds_assert_iff]
          exact succeeds_run_bind_of_succeeds fun _ _ => ⟨_, rfl⟩
        | inline name value =>
          refine iff_of_true ?_ (by simp [Operand.names])
          rw [emitComparison]
          split <;> exact ⟨_, rfl⟩
    have hselect : Succeeds ((compileArithSelect table left).run s) ↔
        ∀ call ∈ left.aggCalls, IsSafeName call.2 :=
      (succeeds_run_bind_of_succeeds fun _ _ => ⟨_, rfl⟩).trans succeeds_arithToSql_iff
    rw [buildQueryParts, Ast.leaves, forall_mem_singleton, Ast.Builds, ← hselect]
    refine succeeds_run_bind_iff fun _ _ => ?_
    rw [← succeeds_checkCompareOp_iff]
    exact succeeds_run_bind_iff fun _ _ => hemit
  | keyComparison | changed | inList =>
    exact iff_of_true (succeeds_pure _) (by simp [Ast.leaves, Ast.Builds])
  | boolOp op left right ihl ihr =>
    rw [buildQueryParts, Ast.leaves, forall_mem_append, ← ihl (s := s)]
    exact succeeds_run_bind_iff fun _ _ => ihr

theorem succeeds_buildConfigWhere_iff : Succeeds ((buildConfigWhere ast).run s) ↔
    ∀ leaf ∈ ast.leaves, leaf.RowBuilds := by
  induction ast generalizing s with
  | keyComparison key op value =>
    rw [buildConfigWhere, Ast.leaves, forall_mem_singleton, Ast.RowBuilds,
      ← succeeds_checkCompareOp_iff]
    refine succeeds_run_bind_iff fun _ _ => ?_
    rw [← succeeds_assert_iff]
    exact succeeds_run_bind_of_succeeds fun _ _ => ⟨_, rfl⟩
  | inList identifier values negated =>
    rw [buildConfigWhere, Ast.leaves, forall_mem_singleton, Ast.RowBuilds, ← succeeds_assert_iff]
    exact succeeds_run_bind_of_succeeds fun _ _ => ⟨_, rfl⟩
  | comparison | changed => exact iff_of_true (succeeds_pure _) (by simp [Ast.leaves, Ast.RowBuilds])
  | boolOp op left right ihl ihr =>
    rw [buildConfigWhere, Ast.leaves, forall_mem_append, ← ihl (s := s)]
    refine succeeds_run_bind_iff fun _ _ => ?_
    rw [← ihr]
    exact succeeds_run_bind_of_succeeds fun _ _ => succeeds_pure _

/-- **What compiles**, but for a lone `CHANGED`, which always does. -/
theorem succeeds_compileToSql_iff {window : String} (hne : ∀ key, ast ≠ .changed key) :
    Succeeds (compileToSql ast table window) ↔ (∀ leaf ∈ ast.leaves, leaf.Builds) ∧
      (table = "config" → (∀ leaf ∈ ast.leaves, leaf.isComparison = false) →
        ∀ leaf ∈ ast.leaves, leaf.RowBuilds) := by
  constructor
  · rintro ⟨query, h⟩
    obtain ⟨s, hbuild, hkind⟩ := (compileToSql_eq_ok hne).1 h
    refine ⟨succeeds_buildQueryParts_iff.1 ⟨_, hbuild⟩, fun htable hleaves => ?_⟩
    have hnil := (buildQueryParts_spec CompilerState.wellFormed_initial hbuild).aggSelects.2
      ⟨rfl, hleaves⟩
    obtain ⟨-, parts, s', hwhere, -⟩ := hkind.resolve_right fun h => h.1 ⟨htable, hnil⟩
    exact succeeds_buildConfigWhere_iff.1 ⟨_, hwhere⟩
  · rintro ⟨hbuilds, hrows⟩
    obtain ⟨⟨⟨⟩, s⟩, hbuild⟩ := succeeds_buildQueryParts_iff.2 hbuilds
    have hspec := buildQueryParts_spec CompilerState.wellFormed_initial hbuild
    by_cases hkind : table = "config" ∧ s.aggSelects = []
    · obtain ⟨⟨parts, s'⟩, hwhere⟩ :=
        succeeds_buildConfigWhere_iff.2 (hrows hkind.1 (hspec.aggSelects.1 hkind.2).2)
      exact ⟨_, (compileToSql_eq_ok hne).2 ⟨s, hbuild, .inl ⟨hkind, parts, s', hwhere, rfl⟩⟩⟩
    · exact ⟨_, (compileToSql_eq_ok hne).2 ⟨s, hbuild, .inr ⟨hkind, rfl⟩⟩⟩

/-! ### Regrouped conditions -/

theorem ArithNode.aggCalls_regroup (node : ArithNode) : node.regroup.aggCalls = node.aggCalls := by
  have hplace : ∀ (left : ArithNode) (operand : ArithOperator × ArithNode),
      (left.place operand).aggCalls = left.aggCalls ++ operand.2.aggCalls := by
    intro left operand
    cases left with
    | aggCall | numericLiteral => rfl
    | arithOp op left right =>
      rw [place, snoc]
      split
      · exact (append_assoc ..).symm
      · rfl
  have hfold : ∀ (operands : List (ArithOperator × ArithNode)) (left : ArithNode),
      (operands.foldl place left).aggCalls =
        left.aggCalls ++ operands.flatMap fun operand => operand.2.aggCalls := by
    intro operands
    induction operands with
    | nil => exact fun left => (append_nil _).symm
    | cons operand operands ih =>
      intro left
      rw [foldl_cons, ih, hplace, flatMap_cons, append_assoc]
  refine (hfold _ _).trans ?_
  induction node with
  | aggCall | numericLiteral => rfl
  | arithOp op left right ihl ihr =>
    rw [operands, flatMap_append, flatMap_cons, ← append_assoc, ihl, ihr, aggCalls]

theorem ArithNode.hasAggCall_regroup (node : ArithNode) :
    node.regroup.hasAggCall = node.hasAggCall := by
  have hcalls : ∀ node : ArithNode, node.hasAggCall = !node.aggCalls.isEmpty := by
    intro node
    induction node with
    | aggCall | numericLiteral => rfl
    | arithOp op left right ihl ihr =>
      rw [hasAggCall, aggCalls, ihl, ihr]
      cases left.aggCalls <;> rfl
  rw [hcalls, hcalls, aggCalls_regroup]

theorem Ast.leaves_regroup (ast : Ast) :
    ast.regroup.leaves = ast.leaves.map fun leaf => leaf.conditions.1 := by
  have hfold : ∀ (conditions : List (BoolOperator × Ast)) (first : Ast),
      (conditions.foldl join first).leaves =
        first.leaves ++ conditions.flatMap fun condition => condition.2.leaves := by
    intro conditions
    induction conditions with
    | nil => exact fun first => (append_nil _).symm
    | cons condition conditions ih =>
      intro first
      rw [foldl_cons, ih, join, leaves, flatMap_cons, append_assoc]
  refine (hfold _ _).trans ?_
  induction ast with
  | comparison | keyComparison | changed | inList => rfl
  | boolOp op left right ihl ihr =>
    rw [conditions, flatMap_append, flatMap_cons, ← append_assoc, ihl, ihr, leaves, map_append]

/-- A condition, and its inverse as it is read back. -/
inductive ReadInverted : Ast → Ast → Prop
  | comparison {left : ArithNode} {op op' : CompareOp} {right : Operand} : invertOp op = some op' →
      ReadInverted (.comparison left op right) (.comparison left.regroup op' right)
  | keyComparison {key value : String} {op op' : CompareOp} : invertOp op = some op' →
      ReadInverted (.keyComparison key op value) (.keyComparison key op' value)
  | inList {identifier : String} {values : List String} {negated : Bool} :
      ReadInverted (.inList identifier values negated) (.inList identifier values (!negated))

variable {ast' : Ast}

/-- **The conditions of the inverse** are the inverses of the conditions. -/
theorem Inverts.readInverted (h : Inverts ast ast') :
    List.Forall₂ ReadInverted ast.leaves ast'.regroup.leaves := by
  rw [Ast.leaves_regroup]
  induction h with
  | comparison hop => exact .cons (.comparison hop) .nil
  | keyComparison hop => exact .cons (.keyComparison hop) .nil
  | inList => exact .cons .inList .nil
  | boolOp _ _ ihl ihr =>
    rw [Ast.leaves, Ast.leaves, map_append]
    exact rel_append ihl ihr

theorem forall_mem_iff_of_readInverted {l l' : List Ast} {P Q : Ast → Prop}
    (h : List.Forall₂ ReadInverted l l') (hPQ : ∀ a ∈ l, ∀ b, ReadInverted a b → (Q b ↔ P a)) :
    (∀ b ∈ l', Q b) ↔ ∀ a ∈ l, P a := by
  induction h with
  | nil => simp
  | cons hab _ ih =>
    obtain ⟨hhead, htail⟩ := List.forall_mem_cons.1 hPQ
    rw [List.forall_mem_cons, List.forall_mem_cons, hhead _ hab, ih htail]

/-! ### The checks -/

/-- Whether a condition compares a percentage with a number. -/
def Ast.boundsPercentage : Ast → Bool
  | .comparison left _ (.ref (.inline _ _)) =>
    left.aggCalls.any fun call => endsWith call.2 "_pct" || endsWith call.2 "_percent"
  | _ => false

variable {leaf leaf' : Ast}

theorem ReadInverted.checkConfigOnly (h : ReadInverted leaf leaf') :
    checkConfigOnly table leaf' = checkConfigOnly table leaf := by
  cases h <;> rfl

theorem ReadInverted.isComparison (h : ReadInverted leaf leaf') :
    leaf'.isComparison = leaf.isComparison := by
  cases h <;> rfl

theorem isValid_invertOp {op op' : CompareOp} (h : invertOp op = some op') :
    op'.isValid = op.isValid := by
  cases op <;> cases h <;> rfl

theorem ReadInverted.builds_iff (h : ReadInverted leaf leaf') : leaf'.Builds ↔ leaf.Builds := by
  cases h with
  | comparison hop => rw [Ast.Builds, Ast.Builds, ArithNode.aggCalls_regroup, isValid_invertOp hop]
  | keyComparison | inList => rfl

theorem ReadInverted.rowBuilds_iff (h : ReadInverted leaf leaf') :
    leaf'.RowBuilds ↔ leaf.RowBuilds := by
  cases h with
  | keyComparison hop => rw [Ast.RowBuilds, Ast.RowBuilds, isValid_invertOp hop]
  | comparison | inList => rfl

/-- Inverted, a comparison of a percentage with a number is turned down. -/
theorem ReadInverted.checkPct_iff (h : ReadInverted leaf leaf') (hpasses : checkPct leaf = []) :
    checkPct leaf' = [] ↔ leaf.boundsPercentage = false := by
  cases h with
  | keyComparison | inList => exact iff_of_true rfl rfl
  | @comparison left op op' right hop =>
    match right with
    | .text _ | .ref (.named _) => exact iff_of_true rfl rfl
    | .ref (.inline name value) =>
      simp only [checkPct, flatMap_eq_nil_iff, left.aggCalls_regroup] at hpasses ⊢
      simp only [Ast.boundsPercentage, any_eq_false, Bool.or_eq_true]
      refine forall₂_congr fun call hcall => ?_
      have hcheck := hpasses call hcall
      by_cases hpct : endsWith call.2 "_pct" ∨ endsWith call.2 "_percent"
      · -- The operator was an upward one, so the inverted one is not.
        rw [if_pos hpct, append_eq_nil_iff] at hcheck ⊢
        refine iff_of_false (fun h => ?_) (not_not.2 hpct)
        cases op <;> cases hop <;> simp_all
      · rw [if_neg hpct]
        exact iff_of_true rfl hpct

theorem Inverts.arithNodes_regroup (h : Inverts ast ast') :
    arithNodes ast'.regroup = (arithNodes ast).map ArithNode.regroup := by
  have hleaves := h.readInverted
  unfold arithNodes
  generalize ast.leaves = leaves, ast'.regroup.leaves = leaves' at hleaves ⊢
  induction hleaves with
  | nil => rfl
  | cons hleaf _ ih => cases hleaf <;> simp [ih]

/-- **When the inverse of what passes the checks passes them.** -/
theorem Inverts.semanticErrors_iff (h : Inverts ast ast')
    (hpasses : semanticErrors table ast = []) :
    semanticErrors table ast'.regroup = [] ↔
      (∀ node ∈ arithNodes ast, node.regroup.hasSelfDiv = false ∧
        node.regroup.hasDivByZeroConstant = false) ∧
      ∀ leaf ∈ ast.leaves, leaf.boundsPercentage = false := by
  have hbare : ∀ node : ArithNode, checkBareArith node.regroup = checkBareArith node := by
    intro node
    rw [checkBareArith, checkBareArith, node.hasAggCall_regroup]
  have hself : ∀ node, checkSelfDiv node = [] ↔ node.hasSelfDiv = false := by
    intro node
    rw [checkSelfDiv]
    cases node.hasSelfDiv <;> simp
  have hzero : ∀ node, checkDivZero node = [] ↔ node.hasDivByZeroConstant = false := by
    intro node
    rw [checkDivZero]
    cases node.hasDivByZeroConstant <;> simp
  simp only [semanticErrors, append_eq_nil_iff, flatMap_eq_nil_iff, h.arithNodes_regroup, all_map,
    Function.comp_def, ArithNode.hasAggCall_regroup, forall_mem_map, hbare, hself, hzero]
    at hpasses ⊢
  obtain ⟨⟨⟨⟨⟨hconfig, haggs⟩, hbares⟩, -⟩, -⟩, hpcts⟩ := hpasses
  have hconfig' := (forall_mem_iff_of_readInverted (Q := fun leaf => checkConfigOnly table leaf = [])
    h.readInverted fun leaf _ leaf' hleaf => by rw [hleaf.checkConfigOnly]).2 hconfig
  have hpcts' := forall_mem_iff_of_readInverted h.readInverted fun leaf hmem leaf' hleaf =>
    hleaf.checkPct_iff (hpcts leaf hmem)
  constructor
  · rintro ⟨⟨⟨-, hselfs⟩, hzeros⟩, hbounds⟩
    exact ⟨fun node hnode => ⟨hselfs node hnode, hzeros node hnode⟩, hpcts'.1 hbounds⟩
  · rintro ⟨hdivisions, hbounds⟩
    exact ⟨⟨⟨⟨⟨hconfig', haggs⟩, hbares⟩, fun node hnode => (hdivisions node hnode).1⟩,
      fun node hnode => (hdivisions node hnode).2⟩, hpcts'.2 hbounds⟩

theorem Inverts.succeeds_compileToSql (h : Inverts ast ast') {window : String}
    (hcompiles : Succeeds (compileToSql ast table window)) :
    Succeeds (compileToSql ast'.regroup table window) := by
  have hne : ∀ key, ast ≠ .changed key := by
    rintro key rfl
    cases h
  have hne' : ∀ key, ast'.regroup ≠ .changed key := by
    intro key heq
    have hregroup := h.regroup
    rw [heq] at hregroup
    generalize ast.regroup = tree at hregroup
    cases hregroup
  rw [succeeds_compileToSql_iff hne] at hcompiles
  rw [succeeds_compileToSql_iff hne',
    forall_mem_iff_of_readInverted h.readInverted fun _ _ _ hleaf => hleaf.builds_iff,
    forall_mem_iff_of_readInverted h.readInverted fun _ _ _ hleaf => hleaf.rowBuilds_iff,
    forall_mem_iff_of_readInverted h.readInverted fun _ _ _ hleaf => by rw [hleaf.isComparison]]
  exact hcompiles

/-! ### What is accepted -/

variable {expression : String} {window severity name : Option String}

theorem validateExpression_valid_iff (hparse : parse expression = .ok ast) :
    (validateExpression expression table window severity name).valid = true ↔
      expression.toList.length ≤ maxExpressionLength ∧ semanticErrors table ast = [] ∧
        Succeeds (compileToSql ast table (trialWindow window)) ∧
          fieldErrors window severity name = [] := by
  have hstrip : strip expression.toList ≠ [] := by
    intro hempty
    obtain ⟨-, tokens, htokens, hne, -⟩ := parse_eq_ok.1 hparse
    rw [hempty] at htokens
    exact hne (Except.ok.inj htokens).symm
  have hcompile : compileErrors table (trialWindow window) ast = [] ↔
      Succeeds (compileToSql ast table (trialWindow window)) := by
    rw [compileErrors]
    cases compileToSql ast table (trialWindow window) <;> simp
  rw [validateExpression, if_neg hstrip]
  by_cases hlength : expression.toList.length > maxExpressionLength
  · rw [if_pos hlength]
    exact iff_of_false Bool.false_ne_true fun h => absurd h.1 (not_le.2 hlength)
  rw [if_neg hlength, hparse]
  simp only [expressionErrors, decide_eq_true_eq, append_eq_nil_iff, not_lt.1 hlength, true_and]
  by_cases hsemantic : semanticErrors table ast = []
  · simp only [hsemantic, if_true, hcompile, true_and]
  · simp only [hsemantic, if_false, false_and]

/-- **What has an inverse that is accepted**: no text contains an apostrophe, no number is small,
the inverse is within the limits, without parentheses no division is by zero or of a metric by
itself, and no percentage is compared with a number. -/
structure Ast.HasAcceptedInverse (ast : Ast) : Prop where
  quotable : ∀ value ∈ ast.texts, '\'' ∉ value.toList
  large : ∀ q ∈ ast.numbers, isSmall q = false
  short : ast.inverseLength ≤ maxExpressionLength
  few : ast.inverseTokens ≤ maxTokenCount
  divisions : ∀ node ∈ arithNodes ast, node.regroup.hasSelfDiv = false ∧
    node.regroup.hasDivByZeroConstant = false
  percentages : ∀ leaf ∈ ast.leaves, leaf.boundsPercentage = false

/-- **The inverse of an accepted expression is accepted** under the condition. When no text
contains an apostrophe, the inverse of no other expression is. -/
theorem accepted_inverse_iff {inverse : String}
    (hvalid : (validateExpression expression table window severity name).valid = true)
    (hparse : parse expression = .ok ast) (hinverse : invertExpression expression = some inverse) :
    (ast.HasAcceptedInverse →
        (validateExpression inverse table window severity name).valid = true) ∧
      ((∀ value ∈ ast.texts, '\'' ∉ value.toList) →
        (validateExpression inverse table window severity name).valid = true →
          ast.HasAcceptedInverse) := by
  have hast := parse_sound hparse
  obtain ⟨ast', hinvert, rfl⟩ := (invertExpression_eq_some hparse).1 hinverse
  have hinverts := inverts_of_invertAst hinvert
  obtain ⟨-, hsemantic, hcompiles, hfields⟩ := (validateExpression_valid_iff hparse).1 hvalid
  have hchecks := hinverts.semanticErrors_iff hsemantic
  constructor
  · rintro ⟨hquotable, hlarge, hshort, hfew, hdivisions, hpercentages⟩
    have hagain := hinverts.parse_inverse hast hquotable hlarge ⟨hshort, hfew⟩
    refine (validateExpression_valid_iff hagain).2 ⟨?_, hchecks.2 ⟨hdivisions, hpercentages⟩,
      hinverts.succeeds_compileToSql hcompiles, hfields⟩
    rwa [String.length_toList, hinverts.length_astToString]
  · intro hquotable hvalid'
    obtain ⟨found, query, hfound, -⟩ := validateExpression_valid hvalid'
    have hlimits := (hinverts.withinLimits_iff hast hquotable).1 (withinLimits_of_parse hfound)
    have hlarge := large_of_parse (hinverts.spelled hast.spelled)
      (hinverts.texts_eq ▸ hquotable) hfound
    rw [hinverts.numbers_eq] at hlarge
    have hagain := hinverts.parse_inverse hast hquotable hlarge hlimits
    obtain ⟨-, hpasses, -⟩ := (validateExpression_valid_iff hagain).1 hvalid'
    obtain ⟨hdivisions, hpercentages⟩ := hchecks.1 hpasses
    exact ⟨hquotable, hlarge, hlimits.1, hlimits.2, hdivisions, hpercentages⟩

theorem accepted_inverse_iff_condition :
    (validateExpression "avg(x) <= 5" "performance" none none none).valid = true := by
  have hvalid : (validateExpression "avg(x) > 5" "performance" none none none).valid = true := by
    decide +kernel
  have hparse : parse "avg(x) > 5" =
      .ok (.comparison (.aggCall .avg "x") .gt (.ref (.inline "x_threshold" 5))) := by
    decide +kernel
  refine (accepted_inverse_iff hvalid hparse (by decide +kernel)).1 ⟨by decide, ?_,
    by decide +kernel, by decide +kernel, by decide, by decide⟩
  simp [Ast.numbers, ArithNode.numbers, Operand.numbers, isSmall]

/-- **The inverse need not be accepted**: a percentage is not compared downwards. -/
theorem not_accepted_inverse : ¬∀ (expression inverse table : String)
      (window severity name : Option String),
    (validateExpression expression table window severity name).valid = true →
      invertExpression expression = some inverse →
        (validateExpression inverse table window severity name).valid = true := by
  intro h
  have hinverse := h "avg(cpu_pct) > 80" "avg(cpu_pct) <= 80" "performance" none none none
    (by decide +kernel) (by decide +kernel)
  exact absurd hinverse (by decide +kernel)

end MonCTL.Dsl
