import MonCTL.Dsl.Semantics
import MonCTL.Dsl.Validate
import MonCTL.Lib.StateExcept

/-!
# What the Compiler Emits: Aggregating Queries

One lemma for each compiler step says what a successful run appends to the compiler's
state, and `buildQueryParts_spec` assembles them: the conditions an expression adds to the
query hold exactly when each of its numeric comparisons holds, whatever connectives join
them.
-/

namespace MonCTL.Dsl

open List StateExcept

/-! ### Arithmetic -/

variable {s s' : CompilerState}

theorem assertSafeIdentifier_eq_ok {value place v : String}
    (h : (assertSafeIdentifier value place).run s = .ok (v, s')) : v = value ∧ s' = s := by
  unfold assertSafeIdentifier at h
  simp only [run_ite_eq_ok, run_throw_eq_ok, and_false, false_or, run_pure_eq_ok,
    Prod.mk.injEq] at h
  exact ⟨h.2.2.1, h.2.2.2⟩

variable {table metric : String}

theorem metricRef_eq_ok {source : MetricRef}
    (h : (metricRef table metric).run s = .ok (source, s')) :
    source.metric = metric ∧ ∃ w, s' = { s with whereExtras := w } := by
  unfold metricRef at h
  split at h
  · simp only [run_bind_eq_ok, run_modify_eq_ok, run_pure_eq_ok, Prod.mk.injEq] at h
    obtain ⟨_, _, ⟨-, rfl⟩, rfl, rfl⟩ := h
    exact ⟨rfl, _, rfl⟩
  · simp only [run_pure_eq_ok, Prod.mk.injEq] at h
    obtain ⟨rfl, rfl⟩ := h
    exact ⟨rfl, _, rfl⟩

variable {sql : AggSql}

theorem rateToSql_eq_ok
    (h : (rateToSql table metric).run s = .ok (sql, s')) :
    (∀ a, sql.eval a = a.agg .rate metric) ∧ ∃ w, s' = { s with whereExtras := w } := by
  unfold rateToSql at h
  rw [run_bind_eq_ok] at h
  obtain ⟨m, s₁, hsafe, h⟩ := h
  obtain ⟨rfl, rfl⟩ := assertSafeIdentifier_eq_ok hsafe
  split at h
  · simp only [run_pure_eq_ok, Prod.mk.injEq] at h
    obtain ⟨rfl, rfl⟩ := h
    exact ⟨fun _ => rfl, _, rfl⟩
  · simp only [run_bind_eq_ok, run_pure_eq_ok, Prod.mk.injEq] at h
    obtain ⟨source, s₂, hsource, rfl, rfl⟩ := h
    obtain ⟨hmetric, hframe⟩ := metricRef_eq_ok hsource
    exact ⟨fun a => by rw [AggSql.eval, hmetric], hframe⟩

theorem aggToSql_eq_ok {func : AggFunc}
    (h : (aggToSql table func metric).run s = .ok (sql, s')) :
    (∀ a, sql.eval a = a.agg func metric) ∧ ∃ w, s' = { s with whereExtras := w } := by
  unfold aggToSql at h
  rw [run_bind_eq_ok] at h
  obtain ⟨m, s₁, hsafe, h⟩ := h
  obtain ⟨rfl, rfl⟩ := assertSafeIdentifier_eq_ok hsafe
  cases func with
  | rate => exact rateToSql_eq_ok h
  | avg | max | min | sum | count | last =>
    simp only [run_bind_eq_ok, run_pure_eq_ok, Prod.mk.injEq] at h
    obtain ⟨source, s₂, hsource, rfl, rfl⟩ := h
    obtain ⟨hmetric, hframe⟩ := metricRef_eq_ok hsource
    exact ⟨fun a => by rw [AggSql.eval, hmetric], hframe⟩

variable {node : ArithNode}

theorem arithToSql_eq_ok {sql : SqlExpr}
    (h : (arithToSql table node).run s = .ok (sql, s')) :
    (∀ a, sql.eval a = node.eval a) ∧ ∃ w, s' = { s with whereExtras := w } := by
  induction node generalizing sql s s' with
  | aggCall func metric =>
    simp only [arithToSql, run_bind_eq_ok, run_pure_eq_ok, Prod.mk.injEq] at h
    obtain ⟨agg, s₁, hagg, rfl, rfl⟩ := h
    obtain ⟨heval, hframe⟩ := aggToSql_eq_ok hagg
    exact ⟨fun a => congrArg some (heval a), hframe⟩
  | numericLiteral value =>
    simp only [arithToSql, run_pure_eq_ok, Prod.mk.injEq] at h
    obtain ⟨rfl, rfl⟩ := h
    exact ⟨fun _ => rfl, _, rfl⟩
  | arithOp op left right ihl ihr =>
    simp only [arithToSql, run_bind_eq_ok] at h
    obtain ⟨l, s₁, hl, r, s₂, hr, h⟩ := h
    obtain ⟨heval₁, w₁, rfl⟩ := ihl hl
    obtain ⟨heval₂, w₂, rfl⟩ := ihr hr
    cases op with
    | add | sub | mul =>
      simp only [run_pure_eq_ok, Prod.mk.injEq] at h
      obtain ⟨rfl, rfl⟩ := h
      exact ⟨fun a => by rw [SqlExpr.eval, ArithNode.eval, heval₁, heval₂], w₂, rfl⟩
    | div =>
      simp only [run_pure_eq_ok, Prod.mk.injEq] at h
      obtain ⟨rfl, rfl⟩ := h
      refine ⟨fun a => ?_, w₂, rfl⟩
      rw [SqlExpr.eval, ArithNode.eval, heval₁, heval₂]
      cases left.eval a with
      | none => simp
      | some x =>
        cases right.eval a with
        | none => simp
        | some y => by_cases hy : y = 0 <;> simp [ArithOperator.eval, hy]

theorem ArithNode.eval_isSome (a : Assignment) (h : node.hasDivision = false) :
    (node.eval a).isSome := by
  induction node with
  | aggCall func metric => rfl
  | numericLiteral value => rfl
  | arithOp op left right ihl ihr =>
    simp only [hasDivision, Bool.or_eq_false_iff, decide_eq_false_iff_not] at h
    obtain ⟨⟨hop, hl⟩, hr⟩ := h
    obtain ⟨x, hx⟩ := Option.isSome_iff_exists.1 (ihl hl)
    obtain ⟨y, hy⟩ := Option.isSome_iff_exists.1 (ihr hr)
    rw [eval, hx, hy]
    cases op with
    | div => exact absurd rfl hop
    | add | sub | mul => rfl

/-! ### Columns and conditions -/

/-- The column a `HAVING` condition is about. -/
def HavingPart.arithAlias : HavingPart → ℕ
  | .placeholder al _ _ => al
  | .literal al _ _ => al
  | .isFinite al => al

/-- Aliases are numbered in order, and conditions refer to columns that exist. -/
structure CompilerState.WellFormed (s : CompilerState) : Prop where
  aliases : s.aggSelects.map Prod.snd = List.range s.arithIdx
  having : ∀ h ∈ s.havingParts ++ s.finiteChecks, h.arithAlias < s.arithIdx

/-- The `HAVING` conditions collected so far hold of a group. -/
def CompilerState.Sat (s : CompilerState) (params : Dict String ParamValue) (a : Assignment) :
    Prop :=
  ∀ h ∈ s.havingParts ++ s.finiteChecks, h.Holds s.aggSelects params a

theorem CompilerState.wellFormed_initial : CompilerState.WellFormed {} := ⟨rfl, by simp⟩

variable {n al : ℕ} {cols : List (SqlExpr × ℕ)}

theorem columnValue_append_of_lt
    (hcols : cols.map Prod.snd = List.range n) (hal : al < n) (col : SqlExpr × ℕ)
    (a : Assignment) : columnValue (cols ++ [col]) a al = columnValue cols a al := by
  have hmem : al ∈ cols.map Prod.snd := hcols ▸ List.mem_range.2 hal
  obtain ⟨c, hc, hcal⟩ := List.mem_map.1 hmem
  have hsome : (cols.find? fun column => column.2 = al).isSome := by
    rw [find?_isSome]
    exact ⟨c, hc, by simpa using hcal⟩
  obtain ⟨c', hc'⟩ := Option.isSome_iff_exists.1 hsome
  rw [columnValue, columnValue, find?_append, hc', Option.some_or]

theorem columnValue_append_last
    (hcols : cols.map Prod.snd = List.range n) (e : SqlExpr) (a : Assignment) :
    columnValue (cols ++ [(e, n)]) a n = e.eval a := by
  have hnone : (cols.find? fun column => column.2 = n) = none := by
    rw [find?_eq_none]
    intro c hc hcn
    have hmem : c.2 ∈ List.range n := hcols ▸ mem_map_of_mem hc
    have := List.mem_range.1 hmem
    have hcn : c.2 = n := by simpa using hcn
    omega
  simp [columnValue, find?_append, hnone]

theorem HavingPart.holds_append {h : HavingPart}
    (hcols : cols.map Prod.snd = List.range n) (hal : h.arithAlias < n) (col : SqlExpr × ℕ)
    (params : Dict String ParamValue) (a : Assignment) :
    h.Holds (cols ++ [col]) params a ↔ h.Holds cols params a := by
  have hvalue := columnValue_append_of_lt hcols hal col a
  cases h <;> rw [HavingPart.arithAlias] at hvalue <;> simp only [HavingPart.Holds, hvalue]

/-! ### One comparison -/

theorem compileArithSelect_eq_ok
    (h : (compileArithSelect table node).run s = .ok (al, s')) :
    al = s.arithIdx ∧ ∃ e w m, (∀ a, SqlExpr.eval a e = node.eval a) ∧ s' = { s with
        whereExtras := w
        metricAliases := m
        aggSelects := s.aggSelects ++ [(e, s.arithIdx)]
        arithIdx := s.arithIdx + 1
        finiteChecks :=
          s.finiteChecks ++ if node.hasDivision then [.isFinite s.arithIdx] else [] } := by
  simp only [compileArithSelect, run_bind_eq_ok, run_get_eq_ok, run_modify_eq_ok,
    run_pure_eq_ok, Prod.mk.injEq] at h
  obtain ⟨e, s₁, hsql, s₂, s₃, ⟨rfl, rfl⟩, _, s₄, ⟨-, rfl⟩, rfl, rfl⟩ := h
  obtain ⟨heval, w, rfl⟩ := arithToSql_eq_ok hsql
  refine ⟨rfl, e, w, s.metricAliases.setAll ((metricAliasKeys node).map fun key =>
    (key, s.arithIdx)), heval, ?_⟩
  cases node.hasDivision <;> simp

/-- The condition the right side of a comparison emits. -/
def operandHaving (al : ℕ) (op : CompareOp) (i : ℕ) : Operand → List HavingPart
  | .ref (.named name) => [.placeholder al op name]
  | .ref (.inline _ value) =>
    if op.isEquality then [.literal al op value] else [.placeholder al op (inlineKey i)]
  | .text _ => []

variable {op : CompareOp} {left : ArithNode} {right : Operand}

theorem emitComparison_eq_ok
    (h : (emitComparison al op right).run s = .ok ((), s')) :
    ∃ p, s' = { s with
      havingParts := s.havingParts ++ operandHaving al op s.thresholdIdx right
      params := p
      thresholdParams := s.thresholdParams ++
        thresholdParamsFrom s.thresholdIdx (leafThresholdRef (.comparison left op right)).toList
      thresholdIdx := s.thresholdIdx + (Ast.comparison left op right).inlineCount } := by
  cases right with
  | text value =>
    simp only [emitComparison, run_pure_eq_ok, Prod.mk.injEq, true_and] at h
    exact ⟨s.params, by
      simp [h, operandHaving, leafThresholdRef, thresholdParamsFrom, Ast.inlineCount]⟩
  | ref ref =>
    cases ref with
    | named name =>
      simp only [emitComparison, emitThreshold, run_bind_eq_ok, run_modify_eq_ok] at h
      obtain ⟨safeName, s₁, hsafe, hs'⟩ := h
      obtain ⟨hname, hs₁⟩ := assertSafeIdentifier_eq_ok hsafe
      rw [Prod.mk.injEq, hname, hs₁] at hs'
      exact ⟨_, hs'.2⟩
    | inline name value =>
      unfold emitComparison at h
      cases hop : op.isEquality with
      | true =>
        simp only [hop, if_true, run_modify_eq_ok, Prod.mk.injEq, true_and] at h
        exact ⟨s.params, by
          simp [h, operandHaving, leafThresholdRef, thresholdParamsFrom, hop, Ast.inlineCount]⟩
      | false =>
        simp only [hop, Bool.false_eq_true, if_false, emitThreshold, run_bind_eq_ok,
          run_get_eq_ok, run_modify_eq_ok, Prod.mk.injEq] at h
        obtain ⟨_, s₁, ⟨h₁, h₁'⟩, _, s₂, ⟨-, h₂⟩, -, rfl⟩ := h
        subst h₂ h₁ h₁'
        exact ⟨s₁.params.set (inlineKey s₁.thresholdIdx) (.float value), by
          simp [operandHaving, leafThresholdRef, thresholdParamsFrom, hop, Ast.inlineCount]⟩

/-- The value bound to the right side of a comparison. -/
def boundOperand (params : Dict String ParamValue) (i : ℕ) (op : CompareOp) :
    ThresholdRef → Option ParamValue
  | .inline _ value => if op.isEquality then some (.float value) else params.lookup (inlineKey i)
  | .named name => params.lookup name

/-- What the query demands of a group for one condition of the expression: a numeric
comparison must hold, a comparison with a text must have a value on its left, and nothing
is demanded for any other condition. -/
def Demands (params : Dict String ParamValue) (a : Assignment) : ℕ → Ast → Prop
  | i, .comparison left op (.ref ref) =>
    ∃ x value, left.eval a = some x ∧ boundOperand params i op ref = some (.float value) ∧
      op.Holds x value
  | _, .comparison left _ (.text _) => (left.eval a).isSome
  | _, _ => True

theorem buildQueryParts_comparison_eq_ok
    (h : (buildQueryParts table (.comparison left op right)).run s = .ok ((), s')) :
    op.isValid = true ∧ ∃ e w m p, (∀ a, SqlExpr.eval a e = left.eval a) ∧ s' = { s with
        whereExtras := w
        metricAliases := m
        params := p
        aggSelects := s.aggSelects ++ [(e, s.arithIdx)]
        arithIdx := s.arithIdx + 1
        havingParts := s.havingParts ++ operandHaving s.arithIdx op s.thresholdIdx right
        finiteChecks := s.finiteChecks ++ if left.hasDivision then [.isFinite s.arithIdx] else []
        thresholdParams := s.thresholdParams ++
          thresholdParamsFrom s.thresholdIdx (leafThresholdRef (.comparison left op right)).toList
        thresholdIdx := s.thresholdIdx + (Ast.comparison left op right).inlineCount } := by
  simp only [buildQueryParts, checkCompareOp, run_bind_eq_ok, run_ite_eq_ok, run_pure_eq_ok,
    run_throw_eq_ok, and_false, or_false, Prod.mk.injEq] at h
  obtain ⟨al, s₁, hselect, _, s₂, ⟨hvalid, -, rfl⟩, hemit⟩ := h
  obtain ⟨rfl, e, w, m, heval, rfl⟩ := compileArithSelect_eq_ok hselect
  obtain ⟨p, rfl⟩ := @emitComparison_eq_ok _ _ _ _ left _ hemit
  exact ⟨hvalid, e, w, m, p, heval, rfl⟩

/-- Conditions on the new column say what the query demands of the group for the
comparison. -/
theorem operandHaving_holds_iff {i : ℕ}
    {params : Dict String ParamValue} {a : Assignment}
    (hcol : columnValue cols a al = left.eval a) :
    (∀ h ∈ operandHaving al op i right ++ if left.hasDivision then [.isFinite al] else [],
        h.Holds cols params a) ↔ Demands params a i (.comparison left op right) := by
  have hfinite : (∀ h ∈ (if left.hasDivision then [HavingPart.isFinite al] else []),
      h.Holds cols params a) ↔ (left.eval a).isSome := by
    cases hdiv : left.hasDivision with
    | true => simp [HavingPart.Holds, hcol]
    | false => simpa using ArithNode.eval_isSome a hdiv
  simp only [mem_append, or_imp, forall_and]
  rw [hfinite]
  cases right with
  | text value => simp [operandHaving, Demands]
  | ref ref =>
    have hcompare : ∀ value, (sqlCompare op (left.eval a) value ∧ (left.eval a).isSome) ↔
        ∃ x, left.eval a = some x ∧ op.Holds x value := by
      intro value
      cases left.eval a <;> simp [sqlCompare]
    cases ref with
    | named name =>
      simp only [operandHaving, forall_mem_singleton, HavingPart.Holds, hcol, Demands,
        boundOperand]
      grind
    | inline name value =>
      cases hop : op.isEquality with
      | true =>
        simp only [operandHaving, hop, if_true, forall_mem_singleton,
          HavingPart.Holds, hcol, Demands, boundOperand, hcompare]
        simp
      | false =>
        simp only [operandHaving, hop, Bool.false_eq_true, if_false,
          forall_mem_singleton, HavingPart.Holds, hcol, Demands, boundOperand]
        grind

/-! ### The thresholds of an expression -/

/-- Whether a reference is an inline number. -/
def ThresholdRef.isInline : ThresholdRef → Bool
  | .inline _ _ => true
  | .named _ => false

theorem thresholdParamsFrom_append (i : ℕ) (refs refs' : List ThresholdRef) :
    thresholdParamsFrom i (refs ++ refs') = thresholdParamsFrom i refs ++
      thresholdParamsFrom (i + refs.countP ThresholdRef.isInline) refs' := by
  induction refs generalizing i with
  | nil => rfl
  | cons ref refs ih =>
    cases ref with
    | inline name value =>
      rw [cons_append, thresholdParamsFrom, thresholdParamsFrom, ih,
        countP_cons_of_pos rfl, cons_append]
      congr 3
      omega
    | named name =>
      rw [cons_append, thresholdParamsFrom, thresholdParamsFrom, ih,
        countP_cons_of_neg (by simp [ThresholdRef.isInline]), cons_append]

variable {ast : Ast}

theorem thresholdRefs_leaf (h : ast.leaves = [ast]) :
    thresholdRefs ast = (leafThresholdRef ast).toList := by
  rw [thresholdRefs, h]
  cases href : leafThresholdRef ast <;> simp [href]

theorem thresholdRefs_boolOp (op : BoolOperator) (left right : Ast) :
    thresholdRefs (.boolOp op left right) = thresholdRefs left ++ thresholdRefs right :=
  filterMap_append

theorem countP_isInline_thresholdRefs (ast : Ast) :
    (thresholdRefs ast).countP ThresholdRef.isInline = ast.inlineCount := by
  induction ast with
  | boolOp op left right ihl ihr =>
    rw [thresholdRefs_boolOp, countP_append, ihl, ihr, Ast.inlineCount]
  | comparison left op right =>
    rw [thresholdRefs_leaf rfl]
    cases right with
    | text value => rfl
    | ref ref =>
      cases ref with
      | named name => rfl
      | inline name value =>
        rw [leafThresholdRef, Ast.inlineCount]
        cases op.isEquality <;> rfl
  | keyComparison | changed | inList => rfl

theorem map_paramKey_thresholdParamsFrom (i : ℕ) (ast : Ast) :
    (thresholdParamsFrom i (thresholdRefs ast)).map ThresholdParam.paramKey =
      (ast.thresholdIds i).map ThresholdId.key := by
  induction ast generalizing i with
  | boolOp op left right ihl ihr =>
    rw [thresholdRefs_boolOp, thresholdParamsFrom_append, countP_isInline_thresholdRefs,
      map_append, ihl, ihr, Ast.thresholdIds, map_append]
  | comparison left op right =>
    rw [thresholdRefs_leaf rfl]
    cases right with
    | text value => rfl
    | ref ref =>
      cases ref with
      | named name => rfl
      | inline name value =>
        rw [leafThresholdRef, Ast.thresholdIds, readsThreshold]
        cases op.isEquality <;> rfl
  | keyComparison | changed | inList => rfl

/-! ### The walk over an expression -/

/-- The conditions of an expression, each with the number of the next inline threshold. -/
def Ast.numbered : ℕ → Ast → List (ℕ × Ast)
  | i, .comparison left op right => [(i, .comparison left op right)]
  | i, .keyComparison key op value => [(i, .keyComparison key op value)]
  | i, .changed identifier => [(i, .changed identifier)]
  | i, .inList identifier values negated => [(i, .inList identifier values negated)]
  | i, .boolOp _ left right => left.numbered i ++ right.numbered (i + left.inlineCount)

theorem Ast.numbered_map_snd (i : ℕ) (ast : Ast) : (ast.numbered i).map Prod.snd = ast.leaves := by
  induction ast generalizing i with
  | boolOp op left right ihl ihr => simp only [numbered, leaves, map_append, ihl, ihr]
  | comparison | keyComparison | changed | inList => rfl

/-- Whether a condition is a numeric comparison. -/
def Ast.isComparison : Ast → Bool
  | .comparison _ _ _ => true
  | _ => false

/-- What a successful walk over an expression has done to the compiler's state. -/
structure Emitted (ast : Ast) (s s' : CompilerState) : Prop where
  /-- The state stays well formed. -/
  wellFormed : s'.WellFormed
  /-- The new conditions demand of a group what each condition of the expression demands. -/
  sat : ∀ params a, s'.Sat params a ↔
    s.Sat params a ∧ ∀ p ∈ ast.numbered s.thresholdIdx, Demands params a p.1 p.2
  /-- The new thresholds are those of the expression, in order. -/
  thresholdParams : s'.thresholdParams =
    s.thresholdParams ++ thresholdParamsFrom s.thresholdIdx (thresholdRefs ast)
  thresholdIdx : s'.thresholdIdx = s.thresholdIdx + ast.inlineCount
  /-- Every numeric comparison adds a column, and nothing else does. -/
  aggSelects : s'.aggSelects = [] ↔
    s.aggSelects = [] ∧ ∀ leaf ∈ ast.leaves, leaf.isComparison = false

theorem Emitted.refl_of_leaf (hs : s.WellFormed)
    (hnumbered : ast.numbered s.thresholdIdx = [(s.thresholdIdx, ast)])
    (hdemands : ∀ params a, Demands params a s.thresholdIdx ast)
    (hrefs : thresholdRefs ast = []) (hcount : ast.inlineCount = 0)
    (hleaves : ast.leaves = [ast]) (hcomp : ast.isComparison = false) : Emitted ast s s where
  wellFormed := hs
  sat params a := by simp [hnumbered, hdemands]
  thresholdParams := by simp [hrefs, thresholdParamsFrom]
  thresholdIdx := by simp [hcount]
  aggSelects := by simp [hleaves, hcomp]

theorem buildQueryParts_comparison_spec
    (hs : s.WellFormed)
    (h : (buildQueryParts table (.comparison left op right)).run s = .ok ((), s')) :
    Emitted (.comparison left op right) s s' := by
  obtain ⟨-, e, w, m, p, heval, rfl⟩ := buildQueryParts_comparison_eq_ok h
  have hnew : ∀ h ∈ operandHaving s.arithIdx op s.thresholdIdx right ++
      (if left.hasDivision then [.isFinite s.arithIdx] else []), h.arithAlias = s.arithIdx := by
    intro h hh
    rcases List.mem_append.1 hh with hh | hh
    · cases right with
      | text value => simp [operandHaving] at hh
      | ref ref =>
        cases ref with
        | named name =>
          simp only [operandHaving, mem_singleton] at hh
          rw [hh, HavingPart.arithAlias]
        | inline name value =>
          rw [operandHaving] at hh
          split at hh <;> (rw [mem_singleton] at hh; rw [hh, HavingPart.arithAlias])
    · split at hh
      · rw [mem_singleton] at hh
        rw [hh, HavingPart.arithAlias]
      · simp at hh
  have hold : ∀ h ∈ s.havingParts ++ s.finiteChecks, h.arithAlias < s.arithIdx := hs.having
  refine ⟨⟨?_, ?_⟩, ?_, ?_, rfl, ?_⟩
  · simp only [map_append, map_cons, map_nil, hs.aliases, range_succ]
  · intro h hh
    simp only [mem_append] at hh hnew hold
    have := hnew h
    have := hold h
    grind
  · intro params a
    have hlast : columnValue (s.aggSelects ++ [(e, s.arithIdx)]) a s.arithIdx = left.eval a := by
      rw [columnValue_append_last hs.aliases, heval]
    have hkeep : ∀ h ∈ s.havingParts ++ s.finiteChecks,
        (h.Holds (s.aggSelects ++ [(e, s.arithIdx)]) params a ↔ h.Holds s.aggSelects params a) :=
      fun h hh => HavingPart.holds_append hs.aliases (hs.having h hh) _ _ _
    rw [Ast.numbered, forall_mem_singleton, ← operandHaving_holds_iff hlast]
    simp only [CompilerState.Sat, mem_append] at hkeep ⊢
    constructor
    · intro hsat
      exact ⟨fun h hh => (hkeep h hh).1 (hsat h (by tauto)), fun h hh => hsat h (by tauto)⟩
    · rintro ⟨hsat, hnewSat⟩ h ((hh | hh) | (hh | hh))
      · exact (hkeep h (.inl hh)).2 (hsat h (.inl hh))
      · exact hnewSat h (.inl hh)
      · exact (hkeep h (.inr hh)).2 (hsat h (.inr hh))
      · exact hnewSat h (.inr hh)
  · rw [thresholdRefs_leaf rfl]
  · simp [Ast.leaves, Ast.isComparison]

/-- **The specification of the walk**: whatever connectives join the conditions of an
expression, the query demands every one of them. -/
theorem buildQueryParts_spec
    (hs : s.WellFormed) (h : (buildQueryParts table ast).run s = .ok ((), s')) :
    Emitted ast s s' := by
  induction ast generalizing s s' with
  | comparison left op right => exact buildQueryParts_comparison_spec hs h
  | keyComparison | changed | inList =>
    simp only [buildQueryParts, run_pure_eq_ok, Prod.mk.injEq, true_and] at h
    subst h
    exact Emitted.refl_of_leaf hs rfl (fun _ _ => trivial) rfl rfl rfl rfl
  | boolOp op left right ihl ihr =>
    simp only [buildQueryParts, run_bind_eq_ok] at h
    obtain ⟨⟨⟩, s₁, hl, hr⟩ := h
    have el := ihl hs hl
    have er := ihr el.wellFormed hr
    refine ⟨er.wellFormed, fun params a => ?_, ?_, ?_, ?_⟩
    · rw [er.sat, el.sat, el.thresholdIdx, Ast.numbered]
      simp only [mem_append, or_imp, forall_and, and_assoc]
    · rw [er.thresholdParams, el.thresholdParams, el.thresholdIdx, thresholdRefs_boolOp,
        thresholdParamsFrom_append, countP_isInline_thresholdRefs, append_assoc]
    · rw [er.thresholdIdx, el.thresholdIdx, Ast.inlineCount, Nat.add_assoc]
    · rw [er.aggSelects, el.aggSelects, Ast.leaves]
      simp only [mem_append, or_imp, forall_and, and_assoc]

variable {leaf : Ast}

theorem buildQueryParts_leaf
    (h : (buildQueryParts table ast).run s = .ok ((), s')) (hleaf : leaf ∈ ast.leaves) :
    ∃ t t', (buildQueryParts table leaf).run t = .ok ((), t') := by
  induction ast generalizing s s' with
  | boolOp op left right ihl ihr =>
    simp only [buildQueryParts, run_bind_eq_ok] at h
    obtain ⟨⟨⟩, s₁, hl, hr⟩ := h
    rw [Ast.leaves, mem_append] at hleaf
    exact hleaf.elim (ihl hl) (ihr hr)
  | comparison | keyComparison | changed | inList =>
    simp only [Ast.leaves, mem_singleton] at hleaf
    exact ⟨s, s', hleaf ▸ h⟩

/-! ### Which conditions show in the query -/

/-- Whether a condition is a numeric comparison with a threshold. -/
def Ast.isThresholdComparison : Ast → Bool
  | .comparison _ _ (.ref _) => true
  | _ => false

theorem emitsHaving_iff (hleaf : leaf.leaves = [leaf])
    (hrun : ∃ t t', (buildQueryParts table leaf).run t = .ok ((), t')) :
    EmitsHaving table leaf ↔ leaf.isThresholdComparison = true := by
  cases leaf with
  | comparison left op right =>
    have hparts : ∀ s s', (buildQueryParts table (.comparison left op right)).run s =
        .ok ((), s') → s'.havingParts =
          s.havingParts ++ operandHaving s.arithIdx op s.thresholdIdx right := by
      intro s s' h
      obtain ⟨-, e, w, m, p, -, rfl⟩ := buildQueryParts_comparison_eq_ok h
      rfl
    cases right with
    | text value =>
      simp only [Ast.isThresholdComparison, Bool.false_eq_true, iff_false]
      rintro ⟨s, s', h, hne⟩
      exact hne (by simpa [operandHaving] using hparts s s' h)
    | ref ref =>
      simp only [Ast.isThresholdComparison, iff_true]
      obtain ⟨t, t', h⟩ := hrun
      refine ⟨t, t', h, ?_⟩
      rw [hparts t t' h]
      cases ref with
      | named name => simp [operandHaving]
      | inline name value => cases hop : op.isEquality <;> simp [operandHaving, hop]
  | keyComparison | changed | inList =>
    simp only [Ast.isThresholdComparison, Bool.false_eq_true, iff_false]
    rintro ⟨s, s', h, hne⟩
    simp only [buildQueryParts, run_pure_eq_ok, Prod.mk.injEq, true_and] at h
    exact hne (by rw [h])
  | boolOp op left right =>
    have hl := length_pos_of_ne_nil left.leaves_ne_nil
    have hr := length_pos_of_ne_nil right.leaves_ne_nil
    have hlen := congrArg List.length hleaf
    simp only [Ast.leaves, length_append, length_singleton] at hlen
    omega

end MonCTL.Dsl
