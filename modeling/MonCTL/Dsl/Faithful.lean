import MonCTL.Dsl.CompileSpec
import MonCTL.Dsl.WhereSpec

/-!
# When the Compiler Preserves an Expression

The query demands every condition of the expression, whatever connectives join them, and
the three kinds of query each show only their own kind of condition. So the compiler
preserves an expression exactly when

* it is a lone `CHANGED`; or
* all its conditions compare with thresholds, and it is true exactly when all of them are,
  with thresholds that share a placeholder read as the one written last; or
* all its conditions test configuration values, and it is true only when all of them hold
  of one and the same key.
-/

namespace MonCTL.Dsl

open List StateExcept

/-! ### The condition -/

/-- The value a placeholder is bound to when thresholds are bound one after the other:
thresholds with one placeholder all read the last of them. -/
def sharedValue (ids : List ThresholdId) (θ : ThresholdId → ℚ) (id : ThresholdId) : ℚ :=
  (List.lookup id.key (ids.map fun j => (j.key, θ j)).reverse).getD 0

/-- Every condition of an expression is true. -/
def Ast.AllHold (θ : ThresholdId → ℚ) (a : Assignment) (ast : Ast) : Prop :=
  ∀ p ∈ ast.numbered 0, p.2.Holds θ a p.1

/-- The configuration key a condition tests. -/
def Ast.configKey : Ast → Option String
  | .keyComparison key _ _ => some key
  | .inList key _ _ => some key
  | _ => none

/-- **The compiler preserves an expression** under this condition, and no other. -/
def CompilesFaithfully (ast : Ast) : Prop :=
  (∃ key, ast = .changed key) ∨
  ((∀ leaf ∈ ast.leaves, leaf.isThresholdComparison = true) ∧
    ∀ θ a, ast.Holds θ a 0 ↔ ast.AllHold (sharedValue (ast.thresholdIds 0) θ) a) ∨
  ((∀ leaf ∈ ast.leaves, leaf.isConfigTest = true) ∧ ∀ θ a, ast.Holds θ a 0 →
      ∃ key, ∀ leaf ∈ ast.leaves, leaf.configKey = some key ∧ leaf.Holds θ a 0)

variable {ast : Ast} {i : ℕ}

theorem Ast.holds_of_forall_numbered {θ : ThresholdId → ℚ} {a : Assignment}
    (h : ∀ p ∈ ast.numbered i, p.2.Holds θ a p.1) : ast.Holds θ a i := by
  induction ast generalizing i with
  | boolOp op left right ihl ihr =>
    simp only [numbered, mem_append, or_imp, forall_and] at h
    cases op with
    | and => exact ⟨ihl h.1, ihr h.2⟩
    | or => exact .inl (ihl h.1)
  | comparison | keyComparison | changed | inList =>
    exact h (i, _) (by rw [numbered, mem_singleton])

/-! ### Bound thresholds -/

theorem Ast.id_mem_thresholdIds {j : ℕ} {left : ArithNode} {op : CompareOp}
    {ref : ThresholdRef} (h : (j, Ast.comparison left op (.ref ref)) ∈ ast.numbered i)
    (hreads : readsThreshold op ref = true) : ref.id j ∈ ast.thresholdIds i := by
  induction ast generalizing i with
  | boolOp _ l r ihl ihr =>
    rw [numbered, mem_append] at h
    rw [thresholdIds, mem_append]
    exact h.imp ihl ihr
  | comparison left' op' right' =>
    simp only [numbered, mem_singleton, Prod.mk.injEq, comparison.injEq] at h
    obtain ⟨rfl, rfl, rfl, rfl⟩ := h
    simp [thresholdIds, hreads]
  | keyComparison | changed | inList => simp [numbered] at h

variable {q : CompiledQuery}

theorem lookup_bind {ids : List ThresholdId}
    (hkeys : q.thresholdParams.map ThresholdParam.paramKey = ids.map ThresholdId.key)
    (θ : ThresholdId → ℚ) {id : ThresholdId} (hid : id ∈ ids) :
    (q.bind (ids.map θ)).lookup id.key = some (.float (sharedValue ids θ id)) := by
  have hwrites : (q.thresholdParams.zip (ids.map θ)).map
      (fun p => (p.1.paramKey, ParamValue.float p.2)) =
      (ids.map fun j => (j.key, θ j)).map fun e => (e.1, ParamValue.float e.2) := by
    calc (q.thresholdParams.zip (ids.map θ)).map (fun p => (p.1.paramKey, ParamValue.float p.2))
        = (q.thresholdParams.map ThresholdParam.paramKey).zip
            ((ids.map θ).map ParamValue.float) := List.zip_map.symm
      _ = (ids.map ThresholdId.key).zip (ids.map (ParamValue.float ∘ θ)) := by rw [hkeys, map_map]
      _ = _ := by rw [zip_map', map_map]; rfl
  have hsome : (List.lookup id.key (ids.map fun j => (j.key, θ j)).reverse).isSome := by
    rw [← Dict.mem_keys_iff, Dict.keys, map_reverse, mem_reverse, map_map]
    exact List.mem_map.2 ⟨id, hid, rfl⟩
  obtain ⟨v, hv⟩ := Option.isSome_iff_exists.1 hsome
  rw [CompiledQuery.bind, Dict.lookup_setAll, hwrites, ← map_reverse,
    Dict.lookup_map_values, sharedValue, hv]
  rfl

variable {leaf : Ast}

/-- For a comparison with a threshold, the query demands that it hold under the shared
values. -/
theorem demands_iff_holds (hkeys : q.thresholdParams.map ThresholdParam.paramKey =
      (ast.thresholdIds 0).map ThresholdId.key)
    (θ : ThresholdId → ℚ) (a : Assignment) (hmem : (i, leaf) ∈ ast.numbered 0)
    (hleaf : leaf.isThresholdComparison = true) :
    Demands (q.bind ((ast.thresholdIds 0).map θ)) a i leaf ↔
      leaf.Holds (sharedValue (ast.thresholdIds 0) θ) a i := by
  unfold Ast.isThresholdComparison at hleaf
  split at hleaf
  next left op ref =>
    have hbound : boundOperand (q.bind ((ast.thresholdIds 0).map θ)) i op ref =
        some (.float (operandValue (sharedValue (ast.thresholdIds 0) θ) i op ref)) := by
      cases ref with
      | named name => exact lookup_bind hkeys θ (Ast.id_mem_thresholdIds hmem rfl)
      | inline name value =>
        rw [boundOperand, operandValue]
        cases hop : op.isEquality with
        | true => rfl
        | false => exact lookup_bind hkeys θ (Ast.id_mem_thresholdIds hmem (by simp [readsThreshold, hop]))
    simp only [Demands, Ast.Holds, hbound, Option.some.injEq, ParamValue.float.injEq]
    grind
  · cases hleaf

/-! ### The three kinds of query -/

variable {table window : String}

/-- Preservation, once the query is known: agreement on every family of groups is agreement
on every group. -/
theorem preserves_iff_of_compile
    (hq : compileToSql ast table window = .ok q) : Preserves table window ast ↔
      (∀ leaf ∈ ast.leaves, q.Contributes table leaf) ∧
        ∀ θ a, q.Selects ((ast.thresholdIds 0).map θ) a ↔ ast.Holds θ a 0 := by
  simp only [Preserves, hq, Except.ok.injEq, exists_eq_left']
  refine and_congr_right fun _ => ⟨fun h θ a => ?_, fun h G groups θ => Set.ext fun g => ?_⟩
  · exact Set.ext_iff.1 (h Unit (fun _ => a) θ) ()
  · exact h θ (groups g)

theorem preserves_changed (table window key : String) : Preserves table window (.changed key) := by
  refine ⟨changedQuery key, rfl, ?_, fun G groups θ => rfl⟩
  intro leaf hleaf
  rw [Ast.leaves, mem_singleton] at hleaf
  exact ⟨key, hleaf, rfl⟩

variable {s : CompilerState}

theorem aggregateQuery_selects_iff
    (hbuild : (buildQueryParts table ast).run {} = .ok ((), s)) (values : List ℚ)
    (a : Assignment) : (aggregateQuery table window s).Selects values a ↔
      ∀ p ∈ ast.numbered 0, Demands ((aggregateQuery table window s).bind values) a p.1 p.2 := by
  have hsat := (buildQueryParts_spec CompilerState.wellFormed_initial hbuild).sat
    ((aggregateQuery table window s).bind values) a
  have hinitial : CompilerState.Sat {} ((aggregateQuery table window s).bind values) a := by
    simp [CompilerState.Sat]
  simp only [hinitial, true_and] at hsat
  exact hsat

/-- The aggregating query preserves an expression exactly when all conditions compare with
thresholds and the expression is equivalent to their conjunction. -/
theorem aggregateQuery_preserves_iff (hbuild : (buildQueryParts table ast).run {} = .ok ((), s)) :
    ((∀ leaf ∈ ast.leaves, (aggregateQuery table window s).Contributes table leaf) ∧
      ∀ θ a, (aggregateQuery table window s).Selects ((ast.thresholdIds 0).map θ) a ↔
        ast.Holds θ a 0) ↔ (∀ leaf ∈ ast.leaves, leaf.isThresholdComparison = true) ∧
      ∀ θ a, ast.Holds θ a 0 ↔ ast.AllHold (sharedValue (ast.thresholdIds 0) θ) a := by
  have hcontributes : (∀ leaf ∈ ast.leaves, (aggregateQuery table window s).Contributes table leaf) ↔
      ∀ leaf ∈ ast.leaves, leaf.isThresholdComparison = true :=
    forall₂_congr fun leaf hleaf =>
      emitsHaving_iff (Ast.leaves_of_mem hleaf) (buildQueryParts_leaf hbuild hleaf)
  have hkeys : (aggregateQuery table window s).thresholdParams.map ThresholdParam.paramKey =
      (ast.thresholdIds 0).map ThresholdId.key := by
    rw [← map_paramKey_thresholdParamsFrom]
    exact congrArg _ (buildQueryParts_spec CompilerState.wellFormed_initial hbuild).thresholdParams
  rw [hcontributes]
  refine and_congr_right fun hleaves => forall₂_congr fun θ a => ?_
  have hselects : (aggregateQuery table window s).Selects ((ast.thresholdIds 0).map θ) a ↔
      ast.AllHold (sharedValue (ast.thresholdIds 0) θ) a := by
    rw [aggregateQuery_selects_iff hbuild]
    refine forall₂_congr fun p hp => demands_iff_holds hkeys θ a hp (hleaves p.2 ?_)
    rw [← ast.numbered_map_snd 0]
    exact mem_map_of_mem hp
  rw [hselects]
  exact Iff.comm

/-- A row passes a condition on configuration values exactly when it is the row of the key
the condition names, and the condition holds. -/
theorem rowDemands_iff (hleaf : leaf.isConfigTest = true) (key : String)
    (θ : ThresholdId → ℚ) (a : Assignment) (i : ℕ) : RowDemands key (a.config key) leaf ↔
      leaf.configKey = some key ∧ leaf.Holds θ a i := by
  cases leaf with
  | keyComparison k op text =>
    simp only [RowDemands, Ast.configKey, Ast.Holds, Option.some.injEq]
    grind
  | inList k values negated =>
    simp only [RowDemands, Ast.configKey, Ast.Holds, Option.some.injEq]
    grind
  | comparison | changed | boolOp => cases hleaf

theorem holds_irrelevant (hleaf : leaf.isConfigTest = true)
    (θ : ThresholdId → ℚ) (a : Assignment) (i j : ℕ) : leaf.Holds θ a i ↔ leaf.Holds θ a j := by
  cases leaf with
  | keyComparison | inList => exact Iff.rfl
  | comparison | changed | boolOp => cases hleaf

/-- The configuration query preserves an expression exactly when all conditions test
configuration values and the expression is true only when all hold of one key. -/
theorem configQuery_preserves_iff {s' : CompilerState}
    {parts : List ConfigWhere} (hwhere : (buildConfigWhere ast).run s = .ok (parts, s')) :
    ((∀ leaf ∈ ast.leaves, (configQuery table parts s').Contributes table leaf) ∧
      ∀ θ a, (configQuery table parts s').Selects ((ast.thresholdIds 0).map θ) a ↔
        ast.Holds θ a 0) ↔ (∀ leaf ∈ ast.leaves, leaf.isConfigTest = true) ∧
      ∀ θ a, ast.Holds θ a 0 →
        ∃ key, ∀ leaf ∈ ast.leaves, leaf.configKey = some key ∧ leaf.Holds θ a 0 := by
  have hcontributes : (∀ leaf ∈ ast.leaves, (configQuery table parts s').Contributes table leaf) ↔
      ∀ leaf ∈ ast.leaves, leaf.isConfigTest = true :=
    forall₂_congr fun leaf hleaf =>
      emitsWhere_iff (Ast.leaves_of_mem hleaf) (buildConfigWhere_leaf hwhere hleaf)
  rw [hcontributes]
  refine and_congr_right fun hleaves => forall₂_congr fun θ a => ?_
  have hselects : (configQuery table parts s').Selects ((ast.thresholdIds 0).map θ) a ↔
      ∃ key, ∀ leaf ∈ ast.leaves, leaf.configKey = some key ∧ leaf.Holds θ a 0 := by
    have hrow := fun key => (buildConfigWhere_spec hwhere).holds s'.params (fun _ _ _ _ _ => rfl)
      key (a.config key)
    refine exists_congr fun key => (hrow key).trans (forall₂_congr fun leaf hleaf => ?_)
    exact rowDemands_iff (hleaves leaf hleaf) key θ a 0
  rw [hselects]
  refine ⟨fun h => h.2, fun h => ⟨fun ⟨key, hkey⟩ => ?_, h⟩⟩
  refine Ast.holds_of_forall_numbered fun p hp => ?_
  have hleaf : p.2 ∈ ast.leaves := by
    rw [← ast.numbered_map_snd 0]
    exact mem_map_of_mem hp
  exact (holds_irrelevant (hleaves _ hleaf) θ a 0 p.1).1 (hkey _ hleaf).2

/-! ### The theorem -/

theorem exists_comparison_of_valid
    (hvalid : semanticErrors table ast = []) (htable : table ≠ "config") :
    ∃ leaf ∈ ast.leaves, leaf.isComparison = true := by
  simp only [semanticErrors, append_eq_nil_iff, ite_eq_right_iff, cons_ne_nil,
    imp_false, not_and] at hvalid
  have hany := hvalid.1.1.1.1.2 htable
  rw [all_eq_true] at hany
  push Not at hany
  obtain ⟨node, hnode, -⟩ := hany
  obtain ⟨leaf, hleaf, hsome⟩ := List.mem_filterMap.1 hnode
  refine ⟨leaf, hleaf, ?_⟩
  cases leaf with
  | comparison left op right => rfl
  | keyComparison | changed | inList | boolOp => simp at hsome

theorem Ast.not_isConfigTest_of_isComparison (h : leaf.isComparison = true) :
    leaf.isConfigTest = false := by
  cases leaf with
  | comparison left op right => rfl
  | keyComparison | changed | inList | boolOp => cases h

theorem Ast.isComparison_of_isThresholdComparison
    (h : leaf.isThresholdComparison = true) : leaf.isComparison = true := by
  cases leaf with
  | comparison left op right => rfl
  | keyComparison | changed | inList | boolOp => cases h

/-- The condition is exact for every expression that passes the semantic checks and
compiles. -/
theorem preserves_iff_of_semanticErrors {queryWindow : String}
    (hsemantic : semanticErrors table ast = [])
    (hcompile : compileToSql ast table window = .ok q) :
    Preserves table queryWindow ast ↔ CompilesFaithfully ast := by
  by_cases hchanged : ∃ key, ast = .changed key
  · obtain ⟨key, rfl⟩ := hchanged
    exact iff_of_true (preserves_changed table queryWindow key) (.inl ⟨key, rfl⟩)
  have hne : ∀ key, ast ≠ .changed key := fun key h => hchanged ⟨key, h⟩
  obtain ⟨s, hbuild, hkind⟩ := (compileToSql_eq_ok hne).1 hcompile
  have hselects := (buildQueryParts_spec CompilerState.wellFormed_initial hbuild).aggSelects
  rw [CompilesFaithfully, or_iff_right hchanged]
  rcases hkind with ⟨htable, parts, s', hwhere, -⟩ | ⟨htable, -⟩
  · -- no numeric comparison: a configuration query
    have hnone : ∀ leaf ∈ ast.leaves, leaf.isComparison = false := (hselects.1 htable.2).2
    have hthreshold : ¬∀ leaf ∈ ast.leaves, leaf.isThresholdComparison = true := by
      obtain ⟨leaf, hleaf⟩ := exists_mem_of_ne_nil _ ast.leaves_ne_nil
      intro h
      have := Ast.isComparison_of_isThresholdComparison (h leaf hleaf)
      rw [hnone leaf hleaf] at this
      cases this
    have hcompile' : compileToSql ast table queryWindow = .ok (configQuery table parts s') :=
      (compileToSql_eq_ok hne).2 ⟨s, hbuild, .inl ⟨htable, parts, s', hwhere, rfl⟩⟩
    simp only [preserves_iff_of_compile hcompile', hthreshold, false_and, false_or]
    exact configQuery_preserves_iff hwhere
  · -- some numeric comparison: an aggregating query
    have hsome : ∃ leaf ∈ ast.leaves, leaf.isComparison = true := by
      by_cases hconfig : table = "config"
      · have hcolumns : ¬∀ leaf ∈ ast.leaves, leaf.isComparison = false :=
          fun h => htable ⟨hconfig, hselects.2 ⟨rfl, h⟩⟩
        push Not at hcolumns
        simpa using hcolumns
      · exact exists_comparison_of_valid hsemantic hconfig
    have hconfigTest : ¬∀ leaf ∈ ast.leaves, leaf.isConfigTest = true := by
      obtain ⟨leaf, hleaf, hcomparison⟩ := hsome
      intro h
      have := h leaf hleaf
      rw [Ast.not_isConfigTest_of_isComparison hcomparison] at this
      cases this
    have hcompile' : compileToSql ast table queryWindow =
        .ok (aggregateQuery table queryWindow s) :=
      (compileToSql_eq_ok hne).2 ⟨s, hbuild, .inr ⟨htable, rfl⟩⟩
    simp only [preserves_iff_of_compile hcompile', hconfigTest, false_and, or_false]
    exact aggregateQuery_preserves_iff hbuild

/-- **When the compiler preserves an expression.** For an expression the validator accepts
for a table, and whatever the window, the query selects the groups on which the expression
is true, with every condition showing in the query, if and only if
`CompilesFaithfully`. -/
theorem preserves_iff_compilesFaithfully {expression table : String}
    {window severity name : Option String} {ast : Ast}
    (hvalid : (validateExpression expression table window severity name).valid = true)
    (hparse : parse expression = .ok ast) (queryWindow : String) :
    Preserves table queryWindow ast ↔ CompilesFaithfully ast := by
  obtain ⟨ast', q, hparse', hsemantic, hcompile⟩ := validateExpression_valid hvalid
  obtain rfl : ast' = ast := Except.ok.inj (hparse'.symm.trans hparse)
  exact preserves_iff_of_semanticErrors hsemantic hcompile

/-- `avg(rtt_ms) > 100 OR avg(loss_pct) > 50`, parsed. -/
def eitherHigh : Ast :=
  .boolOp .or (.comparison (.aggCall .avg "rtt_ms") .gt (.ref (.inline "rtt_ms_threshold" 100)))
    (.comparison (.aggCall .avg "loss_pct") .gt (.ref (.inline "loss_pct_threshold" 50)))

theorem preserves_eitherHigh_iff :
    Preserves "availability_latency" "5m" eitherHigh ↔ CompilesFaithfully eitherHigh :=
  @preserves_iff_compilesFaithfully "avg(rtt_ms) > 100 OR avg(loss_pct) > 50"
    "availability_latency" (some "5m") none none eitherHigh
    (by decide +kernel) (by decide +kernel) "5m"

/-- The validator accepts a disjunction, and the compiler turns it into a conjunction: a
group with a high round-trip time and no loss is not selected. -/
theorem or_not_preserved :
    (validateExpression "avg(rtt_ms) > 100 OR avg(loss_pct) > 50" "availability_latency"
        (some "5m") none none).valid = true ∧
      parse "avg(rtt_ms) > 100 OR avg(loss_pct) > 50" = .ok eitherHigh ∧
      ¬Preserves "availability_latency" "5m" eitherHigh := by
  have hsemantic : semanticErrors "availability_latency" eitherHigh = [] := by decide +kernel
  obtain ⟨q, hq⟩ : ∃ q, compileToSql eitherHigh "availability_latency" "5m" = .ok q := ⟨_, rfl⟩
  refine ⟨by decide +kernel, by decide +kernel, ?_⟩
  rw [preserves_iff_of_semanticErrors hsemantic hq, CompilesFaithfully]
  rintro (⟨key, h⟩ | ⟨-, h⟩ | ⟨h, -⟩)
  · cases h
  · let a : Assignment :=
      ⟨fun _ metric => if metric = "rtt_ms" then 200 else 0, fun _ => "", fun _ => false⟩
    have hall := (h (fun _ => 100) a).1 (.inl ⟨200, rfl, by decide +kernel⟩)
    obtain ⟨x, hx, hhigh⟩ := hall (1, _) (.tail _ (.head _))
    obtain rfl : (0 : ℚ) = x := Option.some.inj hx
    exact absurd hhigh (by decide +kernel)
  · exact absurd (h _ (.head _)) (by decide)

end MonCTL.Dsl
