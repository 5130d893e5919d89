import MonCTL.Alerting.ThresholdResolution
import MonCTL.Dsl.Injection

/-!
# The Keys of Thresholds

Every threshold of a compiled expression has the key of its placeholder: a number of the
compiler's own for an inline bound, its name for a named threshold. A user may have chosen the
name, and may have chosen one that the compiler makes up too. Without such a name the thresholds
are kept apart, and each is bound to its own value.
-/

namespace MonCTL.Alerting

open List Dsl StateExcept

/-! ### The thresholds of references -/

/-- The threshold of a reference, when there are so many inline ones before it. -/
def paramFor (i : ℕ) : ThresholdRef → ThresholdParam
  | .inline name value => ⟨name, value, inlineKey i⟩
  | .named name => ⟨name, 0, name⟩

/-- The number of inline references before a position. -/
def inlineBefore (refs : List ThresholdRef) (n : ℕ) : ℕ :=
  (refs.take n).countP ThresholdRef.isInline

theorem getElem?_thresholdParamsFrom (i : ℕ) (refs : List ThresholdRef) (n : ℕ) :
    (thresholdParamsFrom i refs)[n]? = refs[n]?.map (paramFor (i + inlineBefore refs n)) := by
  induction refs generalizing i n with
  | nil => simp [thresholdParamsFrom]
  | cons ref refs ih =>
    cases n with
    | zero => cases ref <;> rfl
    | succ n =>
      cases ref with
      | inline name value =>
        have hcount : inlineBefore (.inline name value :: refs) (n + 1) =
            inlineBefore refs n + 1 := by
          rw [inlineBefore, take_succ_cons, countP_cons_of_pos rfl, inlineBefore]
        rw [thresholdParamsFrom, getElem?_cons_succ, getElem?_cons_succ, ih, hcount]
        congr 2
        omega
      | named name =>
        have hcount : inlineBefore (.named name :: refs) (n + 1) = inlineBefore refs n := by
          rw [inlineBefore, take_succ_cons,
            countP_cons_of_neg (by simp [ThresholdRef.isInline]), inlineBefore]
        rw [thresholdParamsFrom, getElem?_cons_succ, getElem?_cons_succ, ih, hcount]

variable {refs : List ThresholdRef} {name : String} {m n : ℕ} {value : ℚ}

theorem inlineBefore_lt
    (hm : refs[m]? = some (.inline name value)) (hlt : m < n) :
    inlineBefore refs m < inlineBefore refs n := by
  have hsucc : inlineBefore refs (m + 1) = inlineBefore refs m + 1 := by
    rw [inlineBefore, take_add_one, hm, countP_append]
    rfl
  have hmono : inlineBefore refs (m + 1) ≤ inlineBefore refs n :=
    (take_prefix_take_left hlt).sublist.countP_le
  omega

theorem exists_inline_at {k : ℕ} (hk : k < refs.countP ThresholdRef.isInline) :
    ∃ n name value, refs[n]? = some (.inline name value) ∧ inlineBefore refs n = k := by
  induction refs generalizing k with
  | nil => simp at hk
  | cons ref refs ih =>
    cases ref with
    | named name =>
      rw [countP_cons_of_neg (by simp [ThresholdRef.isInline])] at hk
      obtain ⟨n, name', value, hn, hbefore⟩ := ih hk
      refine ⟨n + 1, name', value, hn, ?_⟩
      rw [inlineBefore, take_succ_cons,
        countP_cons_of_neg (by simp [ThresholdRef.isInline])]
      exact hbefore
    | inline name value =>
      rw [countP_cons_of_pos rfl] at hk
      cases k with
      | zero => exact ⟨0, name, value, rfl, rfl⟩
      | succ k =>
        obtain ⟨n, name', value', hn, hbefore⟩ := ih (Nat.lt_of_succ_lt_succ hk)
        refine ⟨n + 1, name', value', hn, ?_⟩
        rw [inlineBefore, take_succ_cons, countP_cons_of_pos rfl]
        exact congrArg (· + 1) hbefore

/-- **No named threshold is spelled like the placeholder of an inline one** of the expression. -/
def Unshadowed (refs : List ThresholdRef) : Prop :=
  ∀ k < refs.countP ThresholdRef.isInline, .named (inlineKey k) ∉ refs

theorem inlineBefore_lt_countP (hn : refs[n]? = some (.inline name value)) :
    inlineBefore refs n < refs.countP ThresholdRef.isInline := by
  have hlength : n < refs.length := (List.getElem?_eq_some_iff.1 hn).1
  have hlt := inlineBefore_lt hn hlength
  rwa [inlineBefore.eq_def refs refs.length, take_length] at hlt

theorem eq_named_of_key (h : Unshadowed refs)
    {r r' : ThresholdRef} (hm : refs[m]? = some r) (hn : refs[n]? = some r')
    (hkey : (paramFor (inlineBefore refs m) r).paramKey =
      (paramFor (inlineBefore refs n) r').paramKey) :
    m = n ∨ ∃ name, r = .named name ∧ r' = .named name := by
  have hshadow : ∀ {m n : ℕ} {name value name'}, refs[m]? = some (ThresholdRef.inline name value) →
        refs[n]? = some (ThresholdRef.named name') → inlineKey (inlineBefore refs m) ≠ name' := by
    rintro m n name value _ hm hn rfl
    exact h _ (inlineBefore_lt_countP hm) (mem_of_getElem? hn)
  cases r with
  | inline name value =>
    cases r' with
    | inline name' value' =>
      have hcount := inlineKey_injective hkey
      rcases lt_trichotomy m n with hlt | rfl | hlt
      · exact absurd hcount (inlineBefore_lt hm hlt).ne
      · exact .inl rfl
      · exact absurd hcount (inlineBefore_lt hn hlt).ne'
    | named name' => exact absurd hkey (hshadow hm hn)
  | named name =>
    cases r' with
    | inline name' value' => exact absurd hkey.symm (hshadow hn hm)
    | named name' =>
      cases hkey
      exact .inr ⟨name, rfl, rfl⟩

/-! ### The compiler's state -/

def paramWrite (p : ThresholdParam) : String × ParamValue := (p.paramKey, .float p.defaultValue)

/-- **The state of the compiler has the keys and the parameters of its thresholds**, and none
before the first column. -/
structure KeyedState (s : CompilerState) : Prop where
  params : s.params = Dict.setAll [] (s.thresholdParams.map paramWrite)
  keys : s.havingParts.flatMap HavingPart.keys = s.thresholdParams.map ThresholdParam.paramKey
  finite : ∀ part ∈ s.finiteChecks, ∃ al, part = .isFinite al

theorem keyedState_initial : KeyedState {} where
  params := rfl
  keys := rfl
  finite := by simp

variable {s s' : CompilerState} {al : ℕ} {op : CompareOp} {key : String}

theorem KeyedState.emitThreshold {default : ℚ} (hs : KeyedState s)
    (h : (Dsl.emitThreshold al op name default key).run s = .ok ((), s')) : KeyedState s' := by
  simp only [Dsl.emitThreshold, run_modify_eq_ok, Prod.mk.injEq] at h
  obtain ⟨-, rfl⟩ := h
  refine { hs with
    params := ?_
    keys := ?_ }
  · rw [map_append, Dict.setAll_append, ← hs.params]
    rfl
  · rw [flatMap_append, map_append, hs.keys]
    rfl

theorem KeyedState.emitComparison {right : Operand} (hs : KeyedState s)
    (h : (Dsl.emitComparison al op right).run s = .ok ((), s')) : KeyedState s' := by
  cases right with
  | text value =>
    simp only [Dsl.emitComparison, run_pure_eq_ok, Prod.mk.injEq] at h
    rw [h.2]
    exact hs
  | ref ref =>
    cases ref with
    | named name =>
      rw [Dsl.emitComparison, run_bind_eq_ok] at h
      obtain ⟨v, s₁, hsafe, h⟩ := h
      obtain ⟨rfl, rfl⟩ := assertSafeIdentifier_eq_ok hsafe
      exact hs.emitThreshold h
    | inline name value =>
      rw [Dsl.emitComparison, run_ite_eq_ok] at h
      rcases h with ⟨-, h⟩ | ⟨-, h⟩
      · simp only [run_modify_eq_ok, Prod.mk.injEq] at h
        obtain ⟨-, rfl⟩ := h
        refine { hs with keys := ?_ }
        rw [flatMap_append, hs.keys]
        simp [HavingPart.keys]
      · simp only [run_bind_eq_ok, run_get_eq_ok, run_modify_eq_ok, Prod.mk.injEq] at h
        obtain ⟨_, _, ⟨rfl, rfl⟩, _, s₁, hemit, -, rfl⟩ := h
        exact { hs.emitThreshold hemit with }

variable {table : String} {ast : Ast}

/-- **The walk over the conditions.** -/
theorem buildQueryParts_keyed
    (hs : KeyedState s) (h : (buildQueryParts table ast).run s = .ok ((), s')) : KeyedState s' := by
  induction ast generalizing s s' with
  | comparison left op right =>
    simp only [buildQueryParts, run_bind_eq_ok] at h
    obtain ⟨al, s₁, hselect, _, s₂, hop, hemit⟩ := h
    simp only [checkCompareOp, run_ite_eq_ok, run_pure_eq_ok, run_throw_eq_ok, and_false,
      or_false, Prod.mk.injEq] at hop
    obtain ⟨-, -, rfl⟩ := hop
    obtain ⟨-, e, w, m, -, rfl⟩ := compileArithSelect_eq_ok hselect
    have hfinite : ∀ part ∈ s.finiteChecks ++
        (if left.hasDivision then [HavingPart.isFinite s.arithIdx] else []),
        ∃ al, part = .isFinite al := by
      intro part hpart
      rcases List.mem_append.1 hpart with hpart | hpart
      · exact hs.finite part hpart
      · split at hpart
        · exact ⟨_, List.mem_singleton.1 hpart⟩
        · cases hpart
    refine KeyedState.emitComparison ?_ hemit
    exact ⟨hs.params, hs.keys, hfinite⟩
  | boolOp op left right ihl ihr =>
    simp only [buildQueryParts, run_bind_eq_ok] at h
    obtain ⟨_, s₁, hl, hr⟩ := h
    exact ihr (ihl hs hl) hr
  | keyComparison | changed | inList =>
    simp only [buildQueryParts, run_pure_eq_ok, Prod.mk.injEq] at h
    rw [h.2]
    exact hs

/-! ### Thresholds that are kept apart -/

/-- The value of a threshold: that of its variable, or else the one in the query. -/
def ownValue (varByName : Variables) (p : ThresholdParam) : ParamValue :=
  (paramOf varByName p.name).getD (.float p.defaultValue)

/-- **Thresholds are kept apart**: the references at two positions have different keys unless they
are one named threshold; whatever the variables are, the engine binds every threshold to its own
value; and every placeholder of the text is bound. -/
structure KeptApart (ast : Ast) (q : CompiledQuery) : Prop where
  keys : ∀ (m n : ℕ) (r r' : ThresholdRef) (p p' : ThresholdParam),
    (thresholdRefs ast)[m]? = some r → (thresholdRefs ast)[n]? = some r' →
    q.thresholdParams[m]? = some p → q.thresholdParams[n]? = some p' → p.paramKey = p'.paramKey →
      m = n ∨ ∃ name, r = .named name ∧ r' = .named name
  bound : ∀ varByName, ∀ p ∈ q.thresholdParams,
    (resolveParams varByName q).lookup p.paramKey = some (ownValue varByName p)
  placeholders : ∀ int varByName key type, .placeholder key type ∈ q.sql.pieces int →
    ((resolveParams varByName q).lookup key).isSome

variable {params : Dict String ParamValue}

theorem isSome_resolve (varByName : Variables) (tps : List ThresholdParam)
    (h : (params.lookup key).isSome) :
    ((tps.foldl (resolveParam varByName) params).lookup key).isSome := by
  induction tps generalizing params with
  | nil => exact h
  | cons tp tps ih =>
    refine ih ?_
    rw [lookup_resolveParam]
    split
    · rw [Option.isSome_or, h, Bool.or_true]
    · exact h

variable {tps : List ThresholdParam} {p : ThresholdParam}

theorem lookup_resolve_own (varByName : Variables)
    (h : params.lookup p.paramKey = some (ownValue varByName p) ∨
      p ∈ tps ∧ params.lookup p.paramKey = some (.float p.defaultValue))
    (hother : ∀ p' ∈ tps, p'.paramKey = p.paramKey → p' = p) :
    (tps.foldl (resolveParam varByName) params).lookup p.paramKey =
      some (ownValue varByName p) := by
  induction tps generalizing params with
  | nil =>
    rcases h with h | ⟨hmem, -⟩
    · exact h
    · cases hmem
  | cons tp tps ih =>
    refine ih ?_ fun p' hp' => hother p' (mem_cons_of_mem _ hp')
    rw [lookup_resolveParam]
    by_cases hkey : p.paramKey = tp.paramKey
    · obtain rfl : tp = p := hother tp mem_cons_self hkey.symm
      rw [if_pos rfl]
      left
      rw [ownValue]
      rcases h with h | ⟨-, h⟩
      · rw [h, ownValue]
        cases paramOf varByName tp.name <;> rfl
      · rw [h]
        cases paramOf varByName tp.name <;> rfl
    · rw [if_neg hkey]
      rcases h with h | ⟨hmem, h⟩
      · exact .inl h
      · refine .inr ⟨(List.mem_cons.1 hmem).resolve_left ?_, h⟩
        rintro rfl
        exact hkey rfl

theorem eq_of_key (h : Unshadowed refs) {p' : ThresholdParam}
    (hp : p ∈ thresholdParamsFrom 0 refs) (hp' : p' ∈ thresholdParamsFrom 0 refs)
    (hkey : p.paramKey = p'.paramKey) : p = p' := by
  have hposition : ∀ {p}, p ∈ thresholdParamsFrom 0 refs →
      ∃ n r, refs[n]? = some r ∧ paramFor (inlineBefore refs n) r = p := by
    intro p hp
    obtain ⟨n, hn⟩ := getElem?_of_mem hp
    rw [getElem?_thresholdParamsFrom, Option.map_eq_some_iff] at hn
    obtain ⟨r, hr, rfl⟩ := hn
    exact ⟨n, r, hr, by rw [Nat.zero_add]⟩
  obtain ⟨m, r, hm, rfl⟩ := hposition hp
  obtain ⟨n, r', hn, rfl⟩ := hposition hp'
  rcases eq_named_of_key h hm hn hkey with rfl | ⟨name, rfl, rfl⟩
  · rw [Option.some.inj (hm.symm.trans hn)]
  · rfl

theorem lookup_setAll_paramWrite (hp : p ∈ tps)
    (hother : ∀ p' ∈ tps, p'.paramKey = p.paramKey → p' = p) :
    (Dict.setAll [] (tps.map paramWrite)).lookup p.paramKey = some (.float p.defaultValue) := by
  rw [Dict.lookup_setAll]
  have hsome : ((tps.map paramWrite).reverse.lookup p.paramKey).isSome := by
    rw [lookup_isSome_iff]
    refine ⟨paramWrite p, List.mem_reverse.2 (mem_map_of_mem hp), beq_self_eq_true _⟩
  obtain ⟨value, hvalue⟩ := Option.isSome_iff_exists.1 hsome
  have hmem := Dict.mem_of_lookup hvalue
  obtain ⟨p', hp', heq⟩ := List.mem_map.1 (List.mem_reverse.1 hmem)
  obtain ⟨hkey, rfl⟩ := Prod.mk.inj heq
  rw [hvalue, hother p' hp' hkey]
  rfl

theorem compile_keyed {window : String} {q : CompiledQuery}
    (h : compileToSql ast table window = .ok q) :
    (q.thresholdParams ≠ [] → q.params = Dict.setAll [] (q.thresholdParams.map paramWrite)) ∧
      ∀ int key type, .placeholder key type ∈ q.sql.pieces int → (q.params.lookup key).isSome := by
  by_cases hchanged : ∃ key, ast = .changed key
  · obtain ⟨key, rfl⟩ := hchanged
    obtain rfl : changedQuery key = q := Except.ok.inj h
    exact ⟨fun hne => absurd rfl hne, fun int key type hmem => by cases hmem⟩
  have hne : ∀ key, ast ≠ .changed key := fun key h => hchanged ⟨key, h⟩
  obtain ⟨s, hbuild, ⟨⟨-, hselects⟩, parts, s', hwhere, rfl⟩ | ⟨-, rfl⟩⟩ :=
    (compileToSql_eq_ok hne).1 h
  · have spec := buildQueryParts_spec CompilerState.wellFormed_initial hbuild
    have hrefs : thresholdRefs ast = [] :=
      List.filterMap_eq_nil_iff.2 fun leaf hleaf =>
        leafThresholdRef_eq_none ((spec.aggSelects.1 hselects).2 leaf hleaf)
    have hparams : s.params = [] := by
      rw [(buildQueryParts_keyed keyedState_initial hbuild).params, spec.thresholdParams, hrefs]
      rfl
    have hnone : Bound s.params [] .string := hparams ▸ bound_nil .string
    obtain ⟨-, hbound⟩ := buildConfigWhere_harmless (N := fun _ => True) hnone hwhere
      fun _ _ _ => trivial
    refine ⟨fun hne => absurd rfl hne, fun int key type hmem => ?_⟩
    obtain ⟨-, hkey⟩ := (placeholder_mem_configQuery parts s' int key type).1 hmem
    have hsome : ((s'.params.lookup key).map ParamValue.type).isSome := by
      rw [hbound.lookup key, nil_append, if_pos hkey]
      rfl
    rwa [Option.isSome_map] at hsome
  · have hs := buildQueryParts_keyed keyedState_initial hbuild
    refine ⟨fun _ => hs.params, fun int key type hmem => ?_⟩
    obtain ⟨-, hkey⟩ := (placeholder_mem_aggregateQuery hs.finite int window key type).1 hmem
    rw [hs.keys] at hkey
    obtain ⟨p, hp, rfl⟩ := List.mem_map.1 hkey
    have hwritten : p.paramKey ∈ (s.thresholdParams.map paramWrite).map Prod.fst := by
      rw [map_map]
      exact mem_map_of_mem (f := Prod.fst ∘ paramWrite) hp
    rw [aggregateQuery, hs.params, Dict.lookup_setAll_isSome]
    exact .inl hwritten

/-- **Thresholds are kept apart**: for every expression that compiles, exactly if no named threshold
in it is spelled like the placeholder of one of its inline thresholds. -/
theorem keptApart_iff {ast : Ast} {table window : String} {q : CompiledQuery}
    (h : compileToSql ast table window = .ok q) :
    KeptApart ast q ↔ ∀ k < ast.inlineCount, .named (inlineKey k) ∉ thresholdRefs ast := by
  have hparams : q.thresholdParams = thresholdParamsFrom 0 (thresholdRefs ast) :=
    thresholdParams_of_compileToSql h
  obtain ⟨hwritten, hplaceholders⟩ := compile_keyed h
  have hget : ∀ n, q.thresholdParams[n]? = (thresholdRefs ast)[n]?.map
      (paramFor (inlineBefore (thresholdRefs ast) n)) := by
    intro n
    rw [hparams, getElem?_thresholdParamsFrom, Nat.zero_add]
  rw [← countP_isInline_thresholdRefs]
  constructor
  · intro hapart k hk hmem
    obtain ⟨m, name, value, hm, hbefore⟩ := exists_inline_at hk
    obtain ⟨n, hn⟩ := getElem?_of_mem hmem
    have hkey : (paramFor (inlineBefore (thresholdRefs ast) m) (.inline name value)).paramKey =
        (paramFor (inlineBefore (thresholdRefs ast) n) (.named (inlineKey k))).paramKey := by
      rw [hbefore]
      rfl
    rcases hapart.keys m n _ _ _ _ hm hn (by rw [hget, hm]; rfl) (by rw [hget, hn]; rfl) hkey with
      rfl | ⟨name', hinline, -⟩
    · rw [hm] at hn
      cases hn
    · cases hinline
  · intro hunshadowed
    have hother : ∀ p ∈ q.thresholdParams, ∀ p' ∈ q.thresholdParams,
        p'.paramKey = p.paramKey → p' = p := by
      rw [hparams]
      exact fun p hp p' hp' hkey => eq_of_key hunshadowed hp' hp hkey
    refine ⟨?_, fun varByName p hp => ?_, fun int varByName key type hmem =>
      isSome_resolve varByName _ (hplaceholders int key type hmem)⟩
    · intro m n r r' p p' hm hn hp hp' hkey
      rw [hget, hm] at hp
      rw [hget, hn] at hp'
      cases hp
      cases hp'
      exact eq_named_of_key hunshadowed hm hn hkey
    · refine lookup_resolve_own varByName (.inr ⟨hp, ?_⟩) (hother p hp)
      rw [hwritten (List.ne_nil_of_mem hp)]
      exact lookup_setAll_paramWrite hp (hother p hp)

/-- An inline bound and a named threshold. -/
def keptExpression : Ast :=
  .boolOp .and (.comparison (.aggCall .avg "rtt_ms") .gt (.ref (.inline "rtt_ms_threshold" 50)))
    (.comparison (.aggCall .max "rtt_ms") .gt (.ref (.named "rtt_ms_warn")))

theorem keptApart_keptExpression :
    ∃ q, compileToSql keptExpression "availability_latency" "5m" = .ok q ∧
      (KeptApart keptExpression q ↔
        ∀ k < keptExpression.inlineCount, .named (inlineKey k) ∉ thresholdRefs keptExpression) :=
  ⟨_, rfl, @keptApart_iff keptExpression "availability_latency" "5m" _ rfl⟩

/-- `avg(rtt_ms) > 50 AND max(rtt_ms) > _threshold_0`. -/
def shadowedExpression : Ast :=
  .boolOp .and (.comparison (.aggCall .avg "rtt_ms") .gt (.ref (.inline "rtt_ms_threshold" 50)))
    (.comparison (.aggCall .max "rtt_ms") .gt (.ref (.named "_threshold_0")))

/-- **A name that the compiler makes up too**: the expression is what the text parses to, it
compiles, and the inline bound is lost. -/
theorem not_keptApart_shadowed :
    parse "avg(rtt_ms) > 50 AND max(rtt_ms) > _threshold_0" = .ok shadowedExpression ∧
      ∃ q, compileToSql shadowedExpression "availability_latency" "5m" = .ok q ∧
        q.params = [("_threshold_0", .float 0)] ∧ ¬KeptApart shadowedExpression q := by
  refine ⟨by decide +kernel, _, rfl, rfl, fun h => ?_⟩
  rcases h.keys 0 1 _ _ _ _ rfl rfl rfl rfl rfl with h | ⟨name, h, -⟩
  · exact absurd h (by decide)
  · cases h

end MonCTL.Alerting
