import MonCTL.Alerting.ThresholdKeys

/-!
# Validation and Compilation Agree on Thresholds

Validation reports the thresholds of an expression, and the compiler lists those of the query. Both
walk the expression on their own, and give the same list. From what validation reports, the sync
creates a variable for every inline threshold; the variable of a named threshold has to be there,
and the sync warns when it is not.
-/

namespace MonCTL.Alerting

open List Dsl

/-! ### The two lists -/

variable {expression table : String} {window severity name : Option String}

theorem thresholdParams_of_valid
    {ast : Ast} (h : (validateExpression expression table window severity name).valid = true)
    (hparse : parse expression = .ok ast) :
    (validateExpression expression table window severity name).thresholdParams =
      thresholdParamsFrom 0 (thresholdRefs ast) := by
  unfold validateExpression at h
  split at h
  · cases h
  next hstrip =>
    split at h
    · cases h
    next hlength => rw [validateExpression, if_neg hstrip, if_neg hlength, hparse]

/-- **The lists are equal**: an expression that validation accepts compiles, for any window, to a
query with the thresholds that validation reports, in their order. -/
theorem compiled_thresholdParams
    (h : (validateExpression expression table window severity name).valid = true) :
    ∃ ast, parse expression = .ok ast ∧ ∀ queryWindow, ∃ q,
      compileToSql ast table queryWindow = .ok q ∧ q.thresholdParams =
        (validateExpression expression table window severity name).thresholdParams := by
  obtain ⟨ast, query, hparse, -, hquery⟩ := validateExpression_valid h
  refine ⟨ast, hparse, fun queryWindow => ?_⟩
  obtain ⟨q, hq⟩ := exists_compileToSql_of_ok hquery queryWindow
  exact ⟨q, hq, by rw [thresholdParams_of_compileToSql hq, thresholdParams_of_valid h hparse]⟩

/-! ### What the sync creates -/

/-- The engine binds a threshold of the definition under a name: a tier whose expression is valid
has a query with such a threshold. -/
def BoundName (table : String) (defn : AlertDefinition) (name : String) : Prop :=
  ∃ tier ∈ defn.tiers, ∃ e ∈ tier.text, (validateExpression e table none none none).valid = true ∧
    ∃ ast q, parse e = .ok ast ∧ compileToSql ast table defn.window = .ok q ∧
      ∃ p ∈ q.thresholdParams, p.name = name

/-- The engine binds an inline threshold of the definition under a name. -/
def BoundInline (table : String) (defn : AlertDefinition) (name : String) : Prop :=
  ∃ tier ∈ defn.tiers, ∃ e ∈ tier.text, (validateExpression e table none none none).valid = true ∧
    ∃ ast q, parse e = .ok ast ∧ compileToSql ast table defn.window = .ok q ∧
      ∃ value, .inline name value ∈ thresholdRefs ast ∧
        ∃ p ∈ q.thresholdParams, p.name = name ∧ p.defaultValue = value

/-- **The sync creates the variables that the engine binds**, as far as they are not there. -/
def CreatesBound (table : String) (defn : AlertDefinition) (vars : Variables) : Prop :=
  ∀ name, vars.lookup name = none →
    (((syncThresholdVariables table defn vars).1.lookup name).isSome ↔ BoundName table defn name)

theorem firstInline_isSome_iff (name : String) (refs : List ThresholdRefInfo) :
    (firstInline name refs).isSome ↔ ∃ ref ∈ refs, ref.isNamed = false ∧ ref.name = name := by
  rw [firstInline, findSome?_isSome_iff]
  refine exists_congr fun ref => and_congr_right fun _ => ?_
  split
  next h => exact iff_of_true rfl h
  next h => exact iff_of_false (by simp) h

theorem exists_param_of_inline {refs : List ThresholdRef} {name : String} {value : ℚ}
    (h : .inline name value ∈ refs) :
    ∃ p ∈ thresholdParamsFrom 0 refs, p.name = name ∧ p.defaultValue = value := by
  obtain ⟨n, hn⟩ := getElem?_of_mem h
  have hget := getElem?_thresholdParamsFrom 0 refs n
  rw [hn] at hget
  exact ⟨_, mem_of_getElem? hget, rfl, rfl⟩

theorem exists_inline_ref_iff (table : String) (defn : AlertDefinition) (name : String) :
    (∃ ref ∈ definitionRefs table defn, ref.isNamed = false ∧ ref.name = name) ↔
      BoundInline table defn name := by
  constructor
  · rintro ⟨ref, href, hnamed, rfl⟩
    obtain ⟨tier, htier, href⟩ := List.mem_flatMap.1 href
    cases htext : tier.text with
    | none => simp [htext] at href
    | some e =>
      rw [htext] at href
      dsimp only at href
      split at href
      next hvalid =>
        obtain ⟨ast, hparse, hqueries⟩ := compiled_thresholdParams hvalid
        obtain ⟨q, hq, hparams⟩ := hqueries defn.window
        rw [thresholdRefs_of_valid hvalid hparse] at href
        obtain ⟨r, hr, rfl⟩ := List.mem_map.1 href
        cases r with
        | named name => cases hnamed
        | inline name value =>
          refine ⟨tier, htier, e, htext, hvalid, ast, q, hparse, hq, value, hr, ?_⟩
          rw [thresholdParams_of_compileToSql hq]
          exact exists_param_of_inline hr
      · cases href
  · rintro ⟨tier, htier, e, he, hvalid, ast, q, hparse, -, value, hmem, -⟩
    refine ⟨thresholdRefInfo (.inline name value), List.mem_flatMap.2 ⟨tier, htier, ?_⟩, rfl, rfl⟩
    rw [Option.mem_def.1 he]
    simp only [hvalid, if_true, thresholdRefs_of_valid hvalid hparse]
    exact mem_map_of_mem hmem

/-- **Validation and compilation agree**: an accepted expression compiles to a query with the
thresholds that validation reports, in their order; and the variables that the sync of a definition
creates are those of the inline thresholds that the engine binds. -/
theorem thresholds_agree (table : String) : (∀ expression window severity name,
      (validateExpression expression table window severity name).valid = true →
      ∃ ast, parse expression = .ok ast ∧ ∀ queryWindow, ∃ q,
        compileToSql ast table queryWindow = .ok q ∧ q.thresholdParams =
          (validateExpression expression table window severity name).thresholdParams) ∧
    ∀ defn vars name, vars.lookup name = none →
      (((syncThresholdVariables table defn vars).1.lookup name).isSome ↔
        BoundInline table defn name) := by
  refine ⟨fun _ _ _ _ h => compiled_thresholdParams h, fun defn vars name hnone => ?_⟩
  rw [← exists_inline_ref_iff, ← firstInline_isSome_iff, lookup_syncThresholdVariables, hnone]
  cases firstInline name (definitionRefs table defn) <;> simp

/-! ### A named threshold -/

def namedDefinition : AlertDefinition where
  tiers := [⟨"warning", some "avg(rtt_ms) > rtt_ms_warn"⟩]
  window := "5m"

/-- **The sync does not create the variable of a named threshold**, which the engine binds. -/
theorem not_createsBound : ¬CreatesBound "availability_latency" namedDefinition [] := by
  intro h
  have hparse : parse "avg(rtt_ms) > rtt_ms_warn" =
      .ok (.comparison (.aggCall .avg "rtt_ms") .gt (.ref (.named "rtt_ms_warn"))) := by
    decide +kernel
  have hfacts : (validateExpression "avg(rtt_ms) > rtt_ms_warn" "availability_latency" none none
      none).valid = true ∧ ¬((syncThresholdVariables "availability_latency" namedDefinition
        []).1.lookup "rtt_ms_warn").isSome := by decide +kernel
  refine hfacts.2 ((h "rtt_ms_warn" rfl).2 ⟨_, mem_singleton_self _, _, rfl, hfacts.1, _, _,
    hparse, rfl, _, mem_singleton_self _, rfl⟩)

end MonCTL.Alerting
