import MonCTL.Dsl.HavingSpec

/-!
# The Three Kinds of Query

A successful compilation ends in one of three queries: the flag for a lone `CHANGED`, the
aggregating query of the state the walk over the conditions has reached, or, on the
configuration table and without aggregations, the query on configuration rows.
-/

namespace MonCTL.Dsl

open StateExcept

/-- The query for a lone `CHANGED`. -/
def changedQuery (key : String) : CompiledQuery where
  sql := .empty
  params := []
  thresholdParams := []
  isConfigChanged := true
  configChangedKey := some key

def aggregateQuery (table window : String) (s : CompilerState) : CompiledQuery where
  sql := .aggregate (tableGroupBy table) s.aggSelects (tableLabelColumns table) table window
    s.whereExtras (s.havingParts ++ s.finiteChecks)
  params := s.params
  thresholdParams := s.thresholdParams
  metricAliases := s.metricAliases

def configQuery (table : String) (parts : List ConfigWhere) (s : CompilerState) :
    CompiledQuery where
  sql := .configLatest (tableGroupBy table) (tableLabelColumns table) parts
  params := s.params
  thresholdParams := []

variable {ast : Ast} {table window : String} {q : CompiledQuery}

/-- The expressions that are not a lone `CHANGED` compile by the walk over their
conditions. -/
theorem compileToSql_eq_ok (hast : ∀ key, ast ≠ .changed key)
    : compileToSql ast table window = .ok q ↔
      ∃ s, (buildQueryParts table ast).run {} = .ok ((), s) ∧
        ((table = "config" ∧ s.aggSelects = []) ∧
            (∃ parts s', (buildConfigWhere ast).run s = .ok (parts, s') ∧
              q = configQuery table parts s') ∨
          ¬(table = "config" ∧ s.aggSelects = []) ∧ q = aggregateQuery table window s) := by
  have hrun : compileToSql ast table window = .ok q ↔
      ∃ s, (compile table window ast).run {} = .ok (q, s) := by
    rw [compileToSql, StateT.run'_eq]
    cases hc : (compile table window ast).run {} with
    | error e => simp
    | ok r => obtain ⟨q', s⟩ := r; simp
  rw [hrun]
  cases ast with
  | changed key => exact absurd rfl (hast key)
  | comparison | keyComparison | inList | boolOp =>
    simp only [compile, compileConfigString, run_bind_eq_ok, run_get_eq_ok, run_ite_eq_ok,
      run_pure_eq_ok, Prod.mk.injEq]
    constructor
    · rintro ⟨s, _, s₁, hbuild, _, _, ⟨rfl, rfl⟩, ⟨hc, parts, s₂, hwhere, _, _, ⟨rfl, rfl⟩, rfl, rfl⟩ |
        ⟨hc, rfl, rfl⟩⟩
      · exact ⟨_, hbuild, .inl ⟨hc, parts, _, hwhere, rfl⟩⟩
      · exact ⟨_, hbuild, .inr ⟨hc, rfl⟩⟩
    · rintro ⟨s, hbuild, ⟨hc, parts, s', hwhere, rfl⟩ | ⟨hc, rfl⟩⟩
      · exact ⟨s', (), s, hbuild, s, s, ⟨rfl, rfl⟩,
          .inl ⟨hc, parts, s', hwhere, s', s', ⟨rfl, rfl⟩, rfl, rfl⟩⟩
      · exact ⟨s, (), s, hbuild, s, s, ⟨rfl, rfl⟩, .inr ⟨hc, rfl, rfl⟩⟩

/-- Whether an expression compiles does not depend on the window. -/
theorem exists_compileToSql_of_ok (h : compileToSql ast table window = .ok q) (window' : String) :
    ∃ q', compileToSql ast table window' = .ok q' := by
  by_cases hchanged : ∃ key, ast = .changed key
  · obtain ⟨key, rfl⟩ := hchanged
    exact ⟨changedQuery key, rfl⟩
  have hne : ∀ key, ast ≠ .changed key := fun key h => hchanged ⟨key, h⟩
  obtain ⟨s, hbuild, ⟨htable, parts, s', hwhere, -⟩ | ⟨htable, -⟩⟩ := (compileToSql_eq_ok hne).1 h
  · exact ⟨_, (compileToSql_eq_ok hne).2 ⟨s, hbuild, .inl ⟨htable, parts, s', hwhere, rfl⟩⟩⟩
  · exact ⟨_, (compileToSql_eq_ok hne).2 ⟨s, hbuild, .inr ⟨htable, rfl⟩⟩⟩

theorem leafThresholdRef_eq_none {leaf : Ast} (h : leaf.isComparison = false) :
    leafThresholdRef leaf = none := by
  cases leaf with
  | comparison left op right => cases h
  | keyComparison | changed | inList | boolOp => rfl

/-- The thresholds of a query are those of the expression, in order. -/
theorem thresholdParams_of_compileToSql (h : compileToSql ast table window = .ok q) :
    q.thresholdParams = thresholdParamsFrom 0 (thresholdRefs ast) := by
  by_cases hchanged : ∃ key, ast = .changed key
  · obtain ⟨key, rfl⟩ := hchanged
    obtain rfl : changedQuery key = q := Except.ok.inj h
    rfl
  have hne : ∀ key, ast ≠ .changed key := fun key h => hchanged ⟨key, h⟩
  obtain ⟨s, hbuild, hkind⟩ := (compileToSql_eq_ok hne).1 h
  have spec := buildQueryParts_spec CompilerState.wellFormed_initial hbuild
  rcases hkind with ⟨htable, parts, s', -, rfl⟩ | ⟨-, rfl⟩
  · have hrefs : thresholdRefs ast = [] :=
      List.filterMap_eq_nil_iff.2 fun leaf hleaf =>
        leafThresholdRef_eq_none ((spec.aggSelects.1 htable.2).2 leaf hleaf)
    rw [hrefs]
    rfl
  · exact spec.thresholdParams

end MonCTL.Dsl
