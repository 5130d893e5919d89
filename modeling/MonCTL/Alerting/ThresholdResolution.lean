import MonCTL.Alerting.ThresholdSync
import MonCTL.Dsl.CompileSpec
import MonCTL.Lib.Decimal

/-!
# Thresholds from the Text to the Query

A number in an expression travels through the name the parser makes up for it, a variable
of the app and back into a parameter of the query. The engine binds the parameters of a
compiled expression one after the other: each to the value set for the app under its
name, or else to the default of that variable.

Two comparisons of one metric share a name, in one expression, across the tiers of a
definition and across definitions, and only one number survives under it. A named threshold
may also be spelled like the placeholder of an inline one, and is bound over it when it
comes later.
-/

namespace MonCTL.Alerting

open List Dsl

/-! ### The engine's parameters -/

/-- The value of a variable: the one set for the app, or the default. -/
def ThresholdVariable.effective (var : ThresholdVariable) : ℚ :=
  var.appValue.getD var.defaultValue

variable (varByName : Variables)

/-- One round of the loop over the thresholds of a query. -/
def resolveParam (params : Dict String ParamValue)
    (tp : ThresholdParam) : Dict String ParamValue :=
  match varByName.lookup tp.name with
  | some var => params.set tp.paramKey (.float var.effective)
  | none => params

/-- The parameters `_execute_compiled_query` passes with a query. -/
def resolveParams (q : CompiledQuery) : Dict String ParamValue :=
  q.thresholdParams.foldl (resolveParam varByName) q.params

/-! ### Numbered references -/

/-- The references of an expression, each with the number of the next inline threshold and
the references after it. -/
def numberRefs : ℕ → List ThresholdRef → List (ℕ × ThresholdRef × List ThresholdRef)
  | _, [] => []
  | i, ref :: refs => (i, ref, refs) :: numberRefs (if ref.isInline then i + 1 else i) refs

theorem numberRefs_append (i : ℕ) (refs refs' : List ThresholdRef) : numberRefs i (refs ++ refs') =
      (numberRefs i refs).map (fun r => (r.1, r.2.1, r.2.2 ++ refs')) ++
        numberRefs (i + refs.countP ThresholdRef.isInline) refs' := by
  induction refs generalizing i with
  | nil => rfl
  | cons ref refs ih =>
    rw [cons_append, numberRefs, ih, numberRefs, map_cons, cons_append]
    cases ref with
    | inline name value =>
      rw [countP_cons_of_pos rfl]
      simp only [ThresholdRef.isInline, if_true]
      congr 3
      omega
    | named name =>
      rw [countP_cons_of_neg (by simp [ThresholdRef.isInline])]
      rfl

theorem exists_numbered_iff (ast : Ast) (i j : ℕ) (name : String) (value : ℚ) :
    (∃ left op, (j, Ast.comparison left op (.ref (.inline name value))) ∈ ast.numbered i ∧
        op.isEquality = false) ↔
      ∃ later, (j, ThresholdRef.inline name value, later) ∈ numberRefs i (thresholdRefs ast) := by
  induction ast generalizing i with
  | boolOp op left right ihl ihr =>
    rw [thresholdRefs_boolOp, numberRefs_append, countP_isInline_thresholdRefs]
    simp only [Ast.numbered, mem_append, mem_map, Prod.mk.injEq, or_and_right,
      exists_or, ihl, ihr, Prod.exists]
    refine or_congr ⟨?_, ?_⟩ Iff.rfl
    · rintro ⟨later, h⟩
      exact ⟨_, j, _, later, h, rfl, rfl, rfl⟩
    · rintro ⟨-, a, r, l, h, rfl, rfl, -⟩
      exact ⟨l, h⟩
  | comparison left op right =>
    rw [thresholdRefs_leaf rfl]
    cases right with
    | text value => simp [Ast.numbered, leafThresholdRef, numberRefs]
    | ref ref =>
      cases ref with
      | named name => simp [Ast.numbered, leafThresholdRef, numberRefs]
      | inline name' value' =>
        cases hop : op.isEquality with
        | true =>
          simp only [Ast.numbered, mem_singleton, Prod.mk.injEq,
            Ast.comparison.injEq, leafThresholdRef, hop, if_true, Option.toList_none,
            numberRefs, not_mem_nil, exists_const, iff_false]
          rintro ⟨left', op', ⟨-, -, rfl, -⟩, hop'⟩
          rw [hop] at hop'
          cases hop'
        | false =>
          simp only [Ast.numbered, mem_singleton, Prod.mk.injEq,
            Ast.comparison.injEq, Operand.ref.injEq, ThresholdRef.inline.injEq,
            leafThresholdRef, hop, Bool.false_eq_true, if_false, Option.toList_some,
            numberRefs]
          constructor
          · rintro ⟨left', op', ⟨rfl, rfl, rfl, rfl, rfl⟩, -⟩
            exact ⟨[], rfl, ⟨rfl, rfl⟩, rfl⟩
          · rintro ⟨-, rfl, ⟨rfl, rfl⟩, -⟩
            exact ⟨left, op, ⟨rfl, rfl, rfl, rfl, rfl⟩, hop⟩
  | keyComparison | changed | inList =>
    rw [thresholdRefs_leaf rfl]
    simp [Ast.numbered, leafThresholdRef, numberRefs]

/-! ### What the engine passes -/

variable {i j : ℕ}

theorem inlineKey_injective (h : inlineKey i = inlineKey j) : i = j := by
  have h := congrArg String.toList h
  simp only [inlineKey, String.toList_append] at h
  exact Decimal.toList_toString_injective (append_cancel_left h)

def paramOf (name : String) : Option ParamValue :=
  (varByName.lookup name).map fun var => .float var.effective

theorem lookup_resolveParam (params : Dict String ParamValue)
    (tp : ThresholdParam) (key : String) : (resolveParam varByName params tp).lookup key =
      if key = tp.paramKey then (paramOf varByName tp.name).or (params.lookup key)
      else params.lookup key := by
  unfold resolveParam paramOf
  cases varByName.lookup tp.name with
  | none => simp
  | some var =>
    dsimp only
    rw [Dict.lookup_set]
    rfl

/-- After its own number an inline threshold is only bound again by a named threshold
spelled like its placeholder. -/
theorem lookup_resolve_later (hij : i < j)
    (refs : List ThresholdRef) (params : Dict String ParamValue) :
    ((thresholdParamsFrom j refs).foldl (resolveParam varByName) params).lookup (inlineKey i) =
      if .named (inlineKey i) ∈ refs then
        (paramOf varByName (inlineKey i)).or (params.lookup (inlineKey i))
      else params.lookup (inlineKey i) := by
  induction refs generalizing j params with
  | nil => rfl
  | cons ref refs ih =>
    cases ref with
    | inline name value =>
      have hkey : inlineKey i ≠ inlineKey j := fun h => hij.ne (inlineKey_injective h)
      rw [thresholdParamsFrom, foldl_cons, ih (Nat.lt_succ_of_lt hij),
        lookup_resolveParam, if_neg hkey]
      simp
    | named name =>
      rw [thresholdParamsFrom, foldl_cons, ih hij, lookup_resolveParam]
      by_cases hname : inlineKey i = name
      · subst hname
        cases paramOf varByName (inlineKey i) <;> simp
      · simp [hname]

/-- The value bound to the `i`-th inline threshold: that of the variable of its name, unless
a named threshold spelled like its placeholder comes later and exists. -/
def boundInline (valueOf : String → Option ℚ) (i : ℕ) (name : String)
    (later : List ThresholdRef) : Option ℚ :=
  if .named (inlineKey i) ∈ later then (valueOf (inlineKey i)).or (valueOf name)
  else valueOf name

variable {later refs : List ThresholdRef} {name : String} {value : ℚ}

/-- **What the engine passes** for an inline threshold whose variable exists. -/
theorem lookup_resolve_inline {varByName : Variables} (hvar : (varByName.lookup name).isSome)
    (hmem : (i, ThresholdRef.inline name value, later) ∈ numberRefs j refs)
    (params : Dict String ParamValue) :
    ((thresholdParamsFrom j refs).foldl (resolveParam varByName) params).lookup (inlineKey i) =
      (boundInline (fun n => (varByName.lookup n).map ThresholdVariable.effective) i name
        later).map ParamValue.float := by
  induction refs generalizing j params with
  | nil => simp [numberRefs] at hmem
  | cons ref refs ih =>
    rw [numberRefs, mem_cons] at hmem
    rcases hmem with hmem | hmem
    · obtain ⟨rfl, rfl, rfl⟩ : i = j ∧ .inline name value = ref ∧ later = refs := by
        simpa using hmem
      obtain ⟨var, hvar⟩ := Option.isSome_iff_exists.1 hvar
      rw [thresholdParamsFrom, foldl_cons, lookup_resolve_later varByName (Nat.lt_succ_self i),
        lookup_resolveParam, if_pos rfl, boundInline]
      simp only [paramOf, hvar, Option.map_some, Option.some_or]
      split
      · cases varByName.lookup (inlineKey i) <;> rfl
      · rfl
    · cases ref with
      | inline name' value' =>
        rw [thresholdParamsFrom, foldl_cons]
        exact ih hmem _
      | named name' =>
        rw [thresholdParamsFrom, foldl_cons]
        exact ih hmem _

/-! ### Numbers that arrive -/

/-- Every number of every comparison arrives: for the tiers the engine evaluates by running
their query, the parameter of a comparison with an inline bound has the number written
there. -/
def AppState.Honoured (table : String) (s : AppState) : Prop :=
  ∀ id defn, s.definitions.lookup id = some defn → defn.isConfigChanged table = false →
    ∀ tier ∈ defn.tiers, ∀ e ∈ tier.text, ∀ ast q, parse e = .ok ast →
      compileToSql ast table defn.window = .ok q →
      ∀ i left op name value,
        (i, Ast.comparison left op (.ref (.inline name value))) ∈ ast.numbered 0 →
        op.isEquality = false →
        (resolveParams s.thresholdVars q).lookup (inlineKey i) = some (.float value)

/-- Every number is the one written last under its automatic name, or, when a named threshold
spelled like its placeholder comes later in the expression and exists, the default of that
variable. -/
def NumbersSurvive (table : String) (vars : Variables) (requests : List (ℕ × AlertDefinition)) :
    Prop :=
  ∀ id defn, (AppState.run table vars requests).definitions.lookup id = some defn →
    defn.isConfigChanged table = false →
    ∀ tier ∈ defn.tiers, ∀ e ∈ tier.text, ∀ ast, parse e = .ok ast → ∀ i name value later,
        (i, ThresholdRef.inline name value, later) ∈ numberRefs 0 (thresholdRefs ast) →
        boundInline (settledDefault table vars requests) i name later = some value

variable {table : String} {vars : Variables} {requests : List (ℕ × AlertDefinition)}
  {defn : AlertDefinition} {tier : SeverityTier} {e : String} {ast : Ast}

theorem settledDefault_isSome_of_ref
    (hdefn : defn ∈ accepted table requests) (htier : tier ∈ defn.tiers)
    (he : e ∈ tier.text) (hparse : parse e = .ok ast)
    (href : ThresholdRef.inline name value ∈ thresholdRefs ast) :
    (settledDefault table vars requests name).isSome := by
  have haccepts : acceptsTiers table defn.tiers = true := (List.mem_filter.1 hdefn).2
  simp only [acceptsTiers, decide_eq_true_eq] at haccepts
  have hvalid := haccepts.2 tier htier e he
  have hmem : thresholdRefInfo (.inline name value) ∈ definitionRefs table defn := by
    refine List.mem_flatMap.2 ⟨tier, htier, ?_⟩
    rw [Option.mem_def.1 he]
    simp only [hvalid, if_true, thresholdRefs_of_valid hvalid hparse]
    exact mem_map_of_mem href
  exact settledDefault_isSome hdefn hmem rfl vars

theorem mem_of_mem_numberRefs {ref : ThresholdRef}
    (h : (i, ref, later) ∈ numberRefs j refs) : ref ∈ refs := by
  induction refs generalizing j with
  | nil => simp [numberRefs] at h
  | cons r refs ih =>
    rw [numberRefs, mem_cons] at h
    rcases h with h | h
    · simp only [Prod.mk.injEq] at h
      exact h.2.1 ▸ mem_cons_self
    · exact mem_cons_of_mem _ (ih h)

theorem exists_compile_of_accepted (hdefn : defn ∈ accepted table requests)
    (htier : tier ∈ defn.tiers) (he : e ∈ tier.text)
    (hparse : parse e = .ok ast) : ∃ q, compileToSql ast table defn.window = .ok q := by
  have haccepts : acceptsTiers table defn.tiers = true := (List.mem_filter.1 hdefn).2
  simp only [acceptsTiers, decide_eq_true_eq] at haccepts
  obtain ⟨ast', q, hparse', -, hq⟩ := validateExpression_valid (haccepts.2 tier htier e he)
  obtain rfl : ast' = ast := Except.ok.inj (hparse'.symm.trans hparse)
  exact exists_compileToSql_of_ok hq _

theorem lookup_resolveParams_run (hvars : NoAppValues vars)
    {requests : List (ℕ × AlertDefinition)}
    (hdefn : defn ∈ accepted table requests) (htier : tier ∈ defn.tiers)
    (he : e ∈ tier.text) (hparse : parse e = .ok ast)
    {q : CompiledQuery} (hq : compileToSql ast table defn.window = .ok q)
    (href : (i, ThresholdRef.inline name value, later) ∈ numberRefs 0 (thresholdRefs ast)) :
    (resolveParams (AppState.run table vars requests).thresholdVars q).lookup (inlineKey i) =
      (boundInline (settledDefault table vars requests) i name later).map ParamValue.float := by
  have hvalues : (fun n => ((AppState.run table vars requests).thresholdVars.lookup n).map
      ThresholdVariable.effective) = settledDefault table vars requests := by
    funext n
    rw [lookup_run hvars]
    cases settledDefault table vars requests n <;> rfl
  have hsome : ((AppState.run table vars requests).thresholdVars.lookup name).isSome := by
    rw [lookup_run hvars, Option.isSome_map]
    exact settledDefault_isSome_of_ref hdefn htier he hparse (mem_of_mem_numberRefs href)
  rw [resolveParams, thresholdParams_of_compileToSql hq, lookup_resolve_inline hsome href, hvalues]

/-- **When inline thresholds are honoured.** After any series of stored definitions, from any
variables without a value set for the app, the engine passes for every comparison the number
written there if and only if each of these numbers survives under its name. -/
theorem thresholdsHonoured_iff (table : String) {vars : Variables} (hvars : NoAppValues vars)
    (requests : List (ℕ × AlertDefinition)) :
    (AppState.run table vars requests).Honoured table ↔ NumbersSurvive table vars requests := by
  refine forall₂_congr fun id defn => forall₂_congr fun hstored _ =>
    forall₂_congr fun tier htier => forall₂_congr fun e he => forall_congr' fun ast => ?_
  have hdefn := mem_accepted_of_lookup_run hstored
  constructor
  · intro h hparse i name value later href
    obtain ⟨q, hq⟩ := exists_compile_of_accepted hdefn htier he hparse
    obtain ⟨left, op, hmem, hop⟩ := (exists_numbered_iff ast 0 i name value).2 ⟨later, href⟩
    have := h q hparse hq i left op name value hmem hop
    rw [lookup_resolveParams_run hvars hdefn htier he hparse hq href] at this
    simpa using this
  · intro h q hparse hq i left op name value hmem hop
    obtain ⟨later, href⟩ := (exists_numbered_iff ast 0 i name value).1 ⟨left, op, hmem, hop⟩
    rw [lookup_resolveParams_run hvars hdefn htier he hparse hq href,
      h hparse i name value later href]
    rfl

/-- A definition with a warning from 100 ms and a critical alert from 500 ms. -/
def rttDefinition : AlertDefinition where
  tiers := [⟨"warning", some "avg(rtt_ms) > 100"⟩, ⟨"critical", some "avg(rtt_ms) > 500"⟩]
  window := "5m"

theorem rttDefinition_honoured_iff :
    (AppState.run "availability_latency" [] [(1, rttDefinition)]).Honoured
        "availability_latency" ↔
      NumbersSurvive "availability_latency" [] [(1, rttDefinition)] :=
  thresholdsHonoured_iff "availability_latency" (by simp [NoAppValues]) [(1, rttDefinition)]

/-- The router accepts the definition, both tiers share the variable `rtt_ms_threshold`, and
the critical tier is evaluated with the warning's 100 ms. -/
theorem rttDefinition_not_honoured :
    acceptsTiers "availability_latency" rttDefinition.tiers = true ∧
      NoAppValues [] ∧
      ¬(AppState.run "availability_latency" [] [(1, rttDefinition)]).Honoured
        "availability_latency" := by
  refine ⟨by decide +kernel, by simp [NoAppValues], fun h => ?_⟩
  have hparse : parse "avg(rtt_ms) > 500" =
      .ok (.comparison (.aggCall .avg "rtt_ms") .gt (.ref (.inline "rtt_ms_threshold" 500))) := by
    decide +kernel
  have hcritical := h 1 rttDefinition (by decide +kernel) (by decide +kernel)
    ⟨"critical", some "avg(rtt_ms) > 500"⟩ (by decide) "avg(rtt_ms) > 500" (by decide) _ _ hparse rfl
    0 _ _ _ _ (.head _) rfl
  exact absurd hcritical (by decide +kernel)

end MonCTL.Alerting
