import MonCTL.Dsl.CompileSpec
import MonCTL.Dsl.Regroup
import MonCTL.Dsl.SqlText

/-!
# What an Expression Puts into its Query

Whoever may write an alert expression may write any text between quotes. This module says where
the parts of an expression end up in the text of the query it compiles to: a name stands there
as it is, but it is an identifier of bounded length; a number is written as a numeral; a text
between quotes stands nowhere, and is bound to a placeholder. All else is text of the compiler's
own, and the placeholders are exactly the keys of the parameters.

The walk over the conditions keeps an invariant of the compiler's state, `Harmless`, and one
step of the walk is one lemma.
-/

namespace MonCTL.Dsl

open List StateExcept

/-! ### What a piece may be -/

/-- The text of the compiler's own. -/
def vocabulary : List String :=
  ["SELECT ", ", ", " FROM ", " WHERE executed_at > now() - INTERVAL ", " ", " AND ", " GROUP BY ",
    " HAVING ", "1", " FROM config_latest FINAL WHERE ", "toString(", ") AS ", "any(", " AS ",
    "has(metric_names, '", "')", "metric_values[indexOf(metric_names, '", "')]", "(", ")",
    "argMax(", ", executed_at)", "_rate, executed_at)", "if(", timeDelta, " = 0, nan, (max(",
    ") - min(", ")) / ", ") ", " (", "if((", ") = 0, nan, (", ") / (", "))", "isFinite(",
    "config_key = '", "'", "config_value ", "config_value", "NOT IN", "IN", "SECOND", "MINUTE",
    "HOUR", "DAY", "avg", "max", "min", "sum", "count", "last", "rate", "+", "-", "*", "/", ">",
    "<", ">=", "<=", "=", "!=", "!", "device_id", "component_type", "component", "interface_id",
    "config_key", "assignment_id", "device_name", "if_name"]

/-- A text of the compiler's own: of its vocabulary, an alias, or the table it was given. -/
def IsFixed (table text : String) : Prop :=
  text ∈ vocabulary ∨ text = table ∨ ∃ i, text = arithAlias i

/-- A numeral: a sign, digits with a point, and an exponent. -/
def IsNumeral (cs : List Char) : Prop :=
  ∃ sign digits exponent, cs = sign ++ digits ++ exponent ∧ (sign = [] ∨ sign = ['-']) ∧
    IsNumber digits ∧
    (exponent = [] ∨ ∃ s ds, exponent = 'e' :: s :: ds ∧ (s = '+' ∨ s = '-') ∧ IsNumber ds)

/-- An identifier `[A-Za-z_][A-Za-z0-9_]*` of bounded length. -/
structure IsSafeName (name : String) : Prop where
  safe : isSafeIdent name.toList = true
  short : name.toList.length ≤ identifierMaxLength

/-- A key of the compiler's own numbering. -/
def IsGenerated (key : String) : Prop :=
  ∃ i, key = inlineKey i ∨ key = strKey i ∨ ∃ j, key = inKey i j

/-- What a piece of the text may be, where `N` says which names there are. -/
def SqlPiece.Allowed (N : String → Prop) (table : String) : SqlPiece → Prop
  | .fixed text => IsFixed table text
  | .name text => N text
  | .number text => IsNumeral text.toList
  | .placeholder key _ => N key ∨ IsGenerated key

def AllAllowed (N : String → Prop) (table : String) (pieces : List SqlPiece) : Prop :=
  ∀ p ∈ pieces, p.Allowed N table

variable {N : String → Prop} {table : String}

theorem allowed_fixed {text : String} (h : text ∈ vocabulary) :
    (SqlPiece.fixed text).Allowed N table := .inl h

@[simp] theorem allAllowed_nil : AllAllowed N table [] := by simp [AllAllowed]

variable {p : SqlPiece} {ps : List SqlPiece}

@[simp] theorem allAllowed_cons :
    AllAllowed N table (p :: ps) ↔ p.Allowed N table ∧ AllAllowed N table ps :=
  forall_mem_cons

@[simp] theorem allAllowed_append {qs : List SqlPiece} :
    AllAllowed N table (ps ++ qs) ↔ AllAllowed N table ps ∧ AllAllowed N table qs :=
  forall_mem_append

/-! ### Joined parts -/

variable {sep : String} {parts : List (List SqlPiece)}

theorem mem_joinPieces (h : p ∈ joinPieces sep parts) : p = .fixed sep ∨ ∃ part ∈ parts, p ∈ part :=
    by
  induction parts using joinPieces.induct with
  | case1 => cases h
  | case2 part => exact .inr ⟨part, mem_singleton_self _, h⟩
  | case3 part rest hne ih =>
    rw [joinPieces.eq_3 _ _ _ hne] at h
    rcases List.mem_append.1 h with h | h
    · exact .inr ⟨part, mem_cons_self .., h⟩
    rcases List.mem_cons.1 h with h | h
    · exact .inl h
    rcases ih h with h | ⟨part', hpart', h⟩
    · exact .inl h
    · exact .inr ⟨part', mem_cons_of_mem _ hpart', h⟩

theorem mem_joinPieces_of_mem
    {part : List SqlPiece} (hpart : part ∈ parts) (h : p ∈ part) : p ∈ joinPieces sep parts := by
  induction parts using joinPieces.induct with
  | case1 => cases hpart
  | case2 part' =>
    rw [List.mem_singleton.1 hpart] at h
    exact h
  | case3 part' rest hne ih =>
    rw [joinPieces.eq_3 _ _ _ hne]
    rcases List.mem_cons.1 hpart with rfl | hpart
    · exact mem_append_left _ h
    · exact mem_append_right _ (mem_cons_of_mem _ (ih hpart))

theorem allAllowed_joinPieces (hsep : sep ∈ vocabulary)
    {parts : List (List SqlPiece)} (h : ∀ part ∈ parts, AllAllowed N table part) :
    AllAllowed N table (joinPieces sep parts) := by
  intro p hp
  rcases mem_joinPieces hp with rfl | ⟨part, hpart, hmem⟩
  · exact allowed_fixed hsep
  · exact h part hpart p hmem

variable {key : String} {type : ParamType}

theorem placeholder_mem_joinPieces : .placeholder key type ∈ joinPieces sep parts ↔
      ∃ part ∈ parts, SqlPiece.placeholder key type ∈ part := by
  constructor
  · intro h
    exact (mem_joinPieces h).resolve_left fun heq => by cases heq
  · rintro ⟨part, hpart, h⟩
    exact mem_joinPieces_of_mem hpart h

/-! ### Numerals -/

variable {cs : List Char}

theorem IsNumber.isNumeral (h : IsNumber cs) : IsNumeral cs :=
  ⟨[], cs, [], by simp, .inl rfl, h, .inl rfl⟩

variable {digits : List Char}

theorem isNumeral_scientific {ds : List Char} {s : Char} (h : IsNumber digits)
    (hs : s = '+' ∨ s = '-') (hds : IsNumber ds) : IsNumeral (digits ++ 'e' :: s :: ds) :=
  ⟨[], digits, 'e' :: s :: ds, by simp, .inl rfl, h, .inr ⟨s, ds, rfl, hs, hds⟩⟩

variable {q : ℚ}

theorem isNumeral_numberText (h : IsLiteral q) : IsNumeral (numberText q).toList := by
  cases hsmall : isSmall q with
  | false => exact (isNumber_numberText h hsmall).isNumeral
  | true =>
    rw [numberText_small h hsmall, String.toList_ofList, append_assoc]
    exact isNumeral_scientific (isNumber_mantissa _) (.inr rfl) (isNumber_negatedExponent ..)

theorem isNumber_pointAfterFirst (hne : digits ≠ [])
    (hdigits : ∀ c ∈ digits, isDigit c = true) : IsNumber (pointAfterFirst digits) := by
  match digits, hne, hdigits with
  | [digit], hne, hdigits => exact .whole hne hdigits
  | digit :: c :: rest, _, hdigits =>
    obtain ⟨hdigit, hrest⟩ := List.forall_mem_cons.1 hdigits
    have hone : ∀ c ∈ [digit], isDigit c = true := by simpa using hdigit
    exact .decimal (by simp) hone (by simp) hrest

theorem digitsValue_zeros (h : ∀ c ∈ cs, c = '0') : digitsValue cs = 0 := by
  rw [digitsValue]
  induction cs with
  | nil => rfl
  | cons c cs ih =>
    obtain ⟨rfl, hcs⟩ := List.forall_mem_cons.1 h
    exact ih hcs

theorem isNumeral_scientificWhole {n : ℕ} (h : n ≠ 0) : IsNumeral (scientificWhole n) := by
  have hdigits : ∀ {m : ℕ}, ∀ c ∈ (toString m).toList, isDigit c = true := fun c hc =>
    isDigit_of_mem_toString hc
  rw [scientificWhole, append_assoc]
  refine isNumeral_scientific (isNumber_pointAfterFirst ?_ ?_) (.inl rfl)
    (.whole (toString_ne_nil _) hdigits)
  · -- a number other than zero has a digit other than zero
    rw [Ne, reverse_eq_nil_iff, dropWhile_eq_nil_iff]
    intro hzero
    refine h ?_
    rw [← digitsValue_toString n]
    exact digitsValue_zeros fun c hc => by simpa using hzero c (List.mem_reverse.2 hc)
  · intro c hc
    exact hdigits c (List.mem_reverse.1 ((dropWhile_sublist _).subset (List.mem_reverse.1 hc)))

theorem isNumeral_floatText (h : IsLiteral q) : IsNumeral (floatText q).toList := by
  rw [floatText]
  split
  next hden =>
    obtain ⟨n, hq, htext⟩ := numberText_whole h hden
    have hnum : q.num.natAbs = n := by rw [hq]; rfl
    rw [hnum]
    split
    · rw [htext, String.toList_append]
      have hzero : ∀ c ∈ ['0'], isDigit c = true := List.forall_mem_singleton.2 (by decide)
      exact (IsNumber.decimal (toString_ne_nil n) (fun c hc => isDigit_of_mem_toString hc)
        (cons_ne_nil _ _) hzero).isNumeral
    next hlarge =>
      rw [String.toList_ofList]
      exact isNumeral_scientificWhole (by omega)
  · exact isNumeral_numberText h

/-- The metric of an aggregation. -/
def AggSql.metric : AggSql → String
  | .plain _ source => source.metric
  | .latest source => source.metric
  | .rateColumn metric => metric
  | .counterDelta source => source.metric

def SqlExpr.metrics : SqlExpr → List String
  | .aggregate sql => [sql.metric]
  | .number _ => []
  | .arith _ left right => left.metrics ++ right.metrics
  | .guardedDiv left right => left.metrics ++ right.metrics

def SqlExpr.numbers : SqlExpr → List ℚ
  | .aggregate _ => []
  | .number value => [value]
  | .arith _ left right => left.numbers ++ right.numbers
  | .guardedDiv left right => left.numbers ++ right.numbers

/-- The names of an arithmetic expression are allowed, and its numbers can be written. -/
structure SqlExpr.Harmless (N : String → Prop) (e : SqlExpr) : Prop where
  metrics : ∀ m ∈ e.metrics, N m
  numbers : ∀ v ∈ e.numbers, IsLiteral v

/-- The key of a condition is allowed, and its number can be written. -/
def HavingPart.Harmless (N : String → Prop) : HavingPart → Prop
  | .placeholder _ _ key => N key ∨ IsGenerated key
  | .literal _ _ value => IsLiteral value
  | .isFinite _ => True

/-- The key and the placeholders of a condition are allowed. -/
def ConfigWhere.Harmless (N : String → Prop) : ConfigWhere → Prop
  | .configKey key => N key
  | .configValue _ paramKey => IsGenerated paramKey
  | .configValueIn _ paramKeys => ∀ key ∈ paramKeys, IsGenerated key

variable {source : MetricRef}

theorem MetricRef.allAllowed (h : N source.metric) : AllAllowed N table source.pieces := by
  cases source with
  | column metric => exact allAllowed_cons.2 ⟨h, allAllowed_nil⟩
  | arrayElement metric =>
    simp only [pieces, allAllowed_cons]
    exact ⟨allowed_fixed (by decide), h, allowed_fixed (by decide), allAllowed_nil⟩

variable {sql : AggSql}

theorem AggSql.allAllowed (h : N sql.metric) : AllAllowed N table sql.pieces := by
  cases sql with
  | plain func source =>
    have hsource : AllAllowed N table source.pieces := MetricRef.allAllowed h
    have hfunc : func.text ∈ vocabulary := by cases func <;> decide
    simp only [pieces, allAllowed_cons, allAllowed_append]
    exact ⟨⟨⟨allowed_fixed hfunc, allowed_fixed (by decide), allAllowed_nil⟩, hsource⟩,
      allowed_fixed (by decide), allAllowed_nil⟩
  | latest source =>
    have hsource : AllAllowed N table source.pieces := MetricRef.allAllowed h
    simp only [pieces, allAllowed_cons, allAllowed_append]
    exact ⟨⟨allowed_fixed (by decide), hsource⟩, allowed_fixed (by decide), allAllowed_nil⟩
  | rateColumn metric =>
    simp only [pieces, allAllowed_cons]
    exact ⟨allowed_fixed (by decide), h, allowed_fixed (by decide), allAllowed_nil⟩
  | counterDelta source =>
    have hsource : AllAllowed N table source.pieces := MetricRef.allAllowed h
    simp only [pieces, allAllowed_cons, allAllowed_append]
    refine ⟨⟨⟨⟨?_, ?_, ?_, allAllowed_nil⟩, hsource⟩, ?_, hsource⟩, ?_, ?_, ?_,
      allAllowed_nil⟩ <;> exact allowed_fixed (by decide)

variable {e : SqlExpr}

theorem SqlExpr.Harmless.allAllowed (h : e.Harmless N) : AllAllowed N table e.pieces := by
  induction e with
  | aggregate sql => exact AggSql.allAllowed (h.metrics _ (mem_singleton_self _))
  | number value =>
    exact allAllowed_cons.2
      ⟨isNumeral_floatText (h.numbers _ (mem_singleton_self _)), allAllowed_nil⟩
  | arith op left right ihl ihr =>
    have hop : op.text ∈ vocabulary := by cases op <;> decide
    have hleft := ihl ⟨fun m hm => h.metrics m (mem_append_left _ hm),
      fun v hv => h.numbers v (mem_append_left _ hv)⟩
    have hright := ihr ⟨fun m hm => h.metrics m (mem_append_right _ hm),
      fun v hv => h.numbers v (mem_append_right _ hv)⟩
    simp only [pieces, allAllowed_cons, allAllowed_append]
    refine ⟨⟨⟨⟨?_, hleft⟩, ?_, allowed_fixed hop, ?_, allAllowed_nil⟩, hright⟩, ?_,
      allAllowed_nil⟩ <;> exact allowed_fixed (by decide)
  | guardedDiv left right ihl ihr =>
    have hleft := ihl ⟨fun m hm => h.metrics m (mem_append_left _ hm),
      fun v hv => h.numbers v (mem_append_left _ hv)⟩
    have hright := ihr ⟨fun m hm => h.metrics m (mem_append_right _ hm),
      fun v hv => h.numbers v (mem_append_right _ hv)⟩
    simp only [pieces, allAllowed_cons, allAllowed_append]
    refine ⟨⟨⟨⟨?_, hright⟩, ?_, hleft⟩, ?_, hright⟩, ?_, allAllowed_nil⟩ <;>
      exact allowed_fixed (by decide)

theorem chOp_mem_vocabulary (op : CompareOp) : op.chOp ∈ vocabulary := by
  cases op <;> decide

theorem allowed_arithAlias (i : ℕ) : (SqlPiece.fixed (arithAlias i)).Allowed N table :=
  .inr (.inr ⟨i, rfl⟩)

variable {part : HavingPart}

theorem HavingPart.Harmless.allAllowed (h : part.Harmless N) : AllAllowed N table part.pieces := by
  cases part with
  | placeholder al op key =>
    simp only [pieces, allAllowed_cons]
    exact ⟨allowed_arithAlias al, allowed_fixed (by decide), allowed_fixed (chOp_mem_vocabulary op),
      allowed_fixed (by decide), h, allAllowed_nil⟩
  | literal al op value =>
    simp only [pieces, allAllowed_cons]
    exact ⟨allowed_arithAlias al, allowed_fixed (by decide), allowed_fixed (chOp_mem_vocabulary op),
      allowed_fixed (by decide), isNumeral_numberText h, allAllowed_nil⟩
  | isFinite al =>
    simp only [pieces, allAllowed_cons]
    exact ⟨allowed_fixed (by decide), allowed_arithAlias al, allowed_fixed (by decide),
      allAllowed_nil⟩

theorem ConfigWhere.Harmless.allAllowed {part : ConfigWhere} (h : part.Harmless N) :
    AllAllowed N table part.pieces := by
  cases part with
  | configKey key =>
    simp only [pieces, allAllowed_cons]
    exact ⟨allowed_fixed (by decide), h, allowed_fixed (by decide), allAllowed_nil⟩
  | configValue op paramKey =>
    simp only [pieces, allAllowed_cons]
    exact ⟨allowed_fixed (by decide), allowed_fixed (chOp_mem_vocabulary op),
      allowed_fixed (by decide), .inr h, allAllowed_nil⟩
  | configValueIn negated paramKeys =>
    have hword : (if negated then "NOT IN" else "IN") ∈ vocabulary := by cases negated <;> decide
    have hkeys : AllAllowed N table
        (joinPieces ", " (paramKeys.map fun key => [.placeholder key .string])) := by
      refine allAllowed_joinPieces (by decide) fun part hpart => ?_
      obtain ⟨key, hkey, rfl⟩ := List.mem_map.1 hpart
      exact allAllowed_cons.2 ⟨.inr (h key hkey), allAllowed_nil⟩
    simp only [pieces, allAllowed_cons, allAllowed_append]
    exact ⟨⟨⟨allowed_fixed (by decide), allowed_fixed hword, allowed_fixed (by decide),
      allAllowed_nil⟩, hkeys⟩, allowed_fixed (by decide), allAllowed_nil⟩

/-! ### What the compiler emits -/

def Operand.names : Operand → List String
  | .ref (.named name) => [name]
  | _ => []

/-- The names of an expression: metrics, configuration keys and thresholds. -/
def Ast.names : Ast → List String
  | .comparison left _ right => left.aggCalls.map Prod.snd ++ right.names
  | .keyComparison key _ _ => [key]
  | .changed identifier => [identifier]
  | .inList identifier _ _ => [identifier]
  | .boolOp _ left right => left.names ++ right.names

variable {s s' : CompilerState}

theorem isSafeName_of_assert {value place v : String}
    (h : (assertSafeIdentifier value place).run s = .ok (v, s')) : IsSafeName value := by
  rw [assertSafeIdentifier] at h
  simp only [run_ite_eq_ok, run_throw_eq_ok, and_false, false_or] at h
  exact ⟨by simpa using h.1, by simpa using h.2.1⟩

variable {metric : String}

variable {node : ArithNode}

/-- **The parameters are bound to exactly these keys**, each once and with one type. -/
structure Bound (params : Dict String ParamValue) (keys : List String) (type : ParamType) :
    Prop where
  nodup : params.keys.Nodup
  lookup : ∀ key, (params.lookup key).map ParamValue.type = if key ∈ keys then some type else none

theorem bound_nil (type : ParamType) : Bound [] [] type := ⟨.nil, fun _ => rfl⟩

variable {params : Dict String ParamValue}

theorem Bound.set {keys : List String}
    (h : Bound params keys type) (key : String) {value : ParamValue} (hvalue : value.type = type) :
    Bound (params.set key value) (keys ++ [key]) type where
  nodup := Dict.nodup_keys_set h.nodup key value
  lookup := by
    intro key'
    rw [Dict.lookup_set]
    by_cases hkey : key' = key
    · simp [hkey, hvalue]
    · rw [if_neg hkey, h.lookup]
      simp [hkey]

theorem Bound.setAll {keys : List String}
    (h : Bound params keys type) {writes : List (String × ParamValue)}
    (hwrites : ∀ w ∈ writes, w.2.type = type) :
    Bound (params.setAll writes) (keys ++ writes.map Prod.fst) type := by
  induction writes generalizing params keys with
  | nil => simpa using h
  | cons w writes ih =>
    obtain ⟨hw, hwrites'⟩ := List.forall_mem_cons.1 hwrites
    rw [Dict.setAll_cons, map_cons, append_cons]
    exact ih (h.set w.1 hw) hwrites'

theorem Bound.cast {keys keys' : List String}
    (h : Bound params keys type) (hkeys : keys = keys') : Bound params keys' type := hkeys ▸ h

theorem Bound.setAll_texts {keys : List String}
    (h : Bound params keys .string) (idx : ℕ) (values : List String) :
    Bound (params.setAll (values.mapIdx fun j value => (inKey idx j, .text value)))
      (keys ++ (List.range values.length).map (inKey idx)) .string := by
  have hkeys : (values.mapIdx fun j value => (inKey idx j, ParamValue.text value)).map Prod.fst =
      (List.range values.length).map (inKey idx) :=
    ext_getElem (by simp) fun i _ _ => by simp
  rw [← hkeys]
  refine h.setAll fun w hw => ?_
  obtain ⟨j, hj, rfl⟩ := List.mem_mapIdx.1 hw
  rfl

/-- The placeholder of a `HAVING` condition. -/
def HavingPart.keys : HavingPart → List String
  | .placeholder _ _ key => [key]
  | _ => []

/-- The placeholders of a `WHERE` condition. -/
def ConfigWhere.keys : ConfigWhere → List String
  | .configKey _ => []
  | .configValue _ paramKey => [paramKey]
  | .configValueIn _ paramKeys => paramKeys

theorem placeholder_notMem_source : SqlPiece.placeholder key type ∉ source.pieces := by
  cases source <;> simp [MetricRef.pieces]

theorem placeholder_notMem_pieces : SqlPiece.placeholder key type ∉ e.pieces := by
  induction e with
  | aggregate sql => cases sql <;> simp [SqlExpr.pieces, AggSql.pieces, placeholder_notMem_source]
  | number value => simp [SqlExpr.pieces]
  | arith op left right ihl ihr => simp [SqlExpr.pieces, ihl, ihr]
  | guardedDiv left right ihl ihr => simp [SqlExpr.pieces, ihl, ihr]

theorem placeholder_mem_having :
    SqlPiece.placeholder key type ∈ part.pieces ↔ type = .float64 ∧ key ∈ part.keys := by
  cases part <;> simp [HavingPart.pieces, HavingPart.keys, and_comm]

theorem placeholder_mem_where {part : ConfigWhere} :
    SqlPiece.placeholder key type ∈ part.pieces ↔ type = .string ∧ key ∈ part.keys := by
  cases part with
  | configKey key' => simp [ConfigWhere.pieces, ConfigWhere.keys]
  | configValue op paramKey => simp [ConfigWhere.pieces, ConfigWhere.keys, and_comm]
  | configValueIn negated paramKeys =>
    simp only [ConfigWhere.pieces, ConfigWhere.keys, mem_append, mem_cons,
      not_mem_nil, reduceCtorEq, false_or, or_false, placeholder_mem_joinPieces,
      mem_map]
    constructor
    · rintro ⟨part, ⟨key', hkey', rfl⟩, h⟩
      cases List.mem_singleton.1 h
      exact ⟨rfl, hkey'⟩
    · rintro ⟨rfl, hkey⟩
      exact ⟨_, ⟨key, hkey, rfl⟩, mem_singleton_self _⟩

/-! ### The walks over the conditions -/

/-- **The invariant of the compiler's state.** -/
structure CompilerState.Harmless (N : String → Prop) (s : CompilerState) : Prop where
  selects : ∀ select ∈ s.aggSelects, select.1.Harmless N
  extras : ∀ m ∈ s.whereExtras, N m
  having : ∀ part ∈ s.havingParts, part.Harmless N
  finite : ∀ part ∈ s.finiteChecks, ∃ al, part = .isFinite al
  bound : Bound s.params (s.havingParts.flatMap HavingPart.keys) .float64
  started : s.aggSelects = [] → s.havingParts = []

variable {al : ℕ}

variable {op : CompareOp}

variable {ast : Ast}

/-- **The walk over the conditions on configuration rows.** -/
theorem buildConfigWhere_harmless {parts : List ConfigWhere}
    {keys : List String} (hs : Bound s.params keys .string)
    (h : (buildConfigWhere ast).run s = .ok (parts, s'))
    (hN : ∀ name ∈ ast.names, IsSafeName name → N name) : (∀ part ∈ parts, part.Harmless N) ∧
      Bound s'.params (keys ++ parts.flatMap ConfigWhere.keys) .string := by
  induction ast generalizing s s' parts keys with
  | keyComparison key op value =>
    simp only [buildConfigWhere, checkCompareOp, run_bind_eq_ok, run_ite_eq_ok, run_pure_eq_ok,
      run_throw_eq_ok, and_false, or_false, run_get_eq_ok, run_modify_eq_ok, Prod.mk.injEq] at h
    obtain ⟨_, s₁, ⟨-, -, rfl⟩, k, s₂, hsafe, _, t, ⟨rfl, rfl⟩, _, t', ⟨-, rfl⟩, rfl, rfl⟩ := h
    obtain ⟨rfl, rfl⟩ := assertSafeIdentifier_eq_ok hsafe
    have hname : N k := hN k (mem_singleton_self _) (isSafeName_of_assert hsafe)
    refine ⟨?_, hs.set _ rfl⟩
    simp only [forall_mem_cons, ConfigWhere.Harmless]
    exact ⟨hname, ⟨_, .inr (.inl rfl)⟩, by simp⟩
  | inList identifier values negated =>
    simp only [buildConfigWhere, run_bind_eq_ok, run_pure_eq_ok, run_get_eq_ok,
      run_modify_eq_ok, Prod.mk.injEq] at h
    obtain ⟨k, s₂, hsafe, _, t, ⟨rfl, rfl⟩, _, t', ⟨-, rfl⟩, rfl, rfl⟩ := h
    obtain ⟨rfl, rfl⟩ := assertSafeIdentifier_eq_ok hsafe
    have hname : N k := hN k (mem_singleton_self _) (isSafeName_of_assert hsafe)
    constructor
    · simp only [forall_mem_cons, ConfigWhere.Harmless]
      refine ⟨hname, fun key hkey => ?_, by simp⟩
      obtain ⟨j, -, rfl⟩ := List.mem_map.1 hkey
      exact ⟨_, .inr (.inr ⟨j, rfl⟩)⟩
    · exact (hs.setAll_texts _ values).cast (by simp [ConfigWhere.keys])
  | boolOp op left right ihl ihr =>
    simp only [buildConfigWhere, run_bind_eq_ok, run_pure_eq_ok, Prod.mk.injEq] at h
    obtain ⟨lparts, s₁, hl, rparts, s₂, hr, rfl, rfl⟩ := h
    rw [Ast.names] at hN
    obtain ⟨hleft, hs₁⟩ := ihl hs hl fun name hname => hN name (mem_append_left _ hname)
    obtain ⟨hright, hs₂⟩ := ihr hs₁ hr fun name hname => hN name (mem_append_right _ hname)
    refine ⟨fun part hpart => (List.mem_append.1 hpart).elim (hleft part) (hright part), ?_⟩
    rw [flatMap_append, ← append_assoc]
    exact hs₂
  | comparison | changed =>
    simp only [buildConfigWhere, run_pure_eq_ok, Prod.mk.injEq] at h
    obtain ⟨rfl, rfl⟩ := h
    exact ⟨by simp, by simpa using hs⟩

/-! ### The query -/

theorem placeholder_notMem_columns (columns : List String) (key : String) (type : ParamType) :
    (∀ part ∈ columns.map groupColumn, SqlPiece.placeholder key type ∉ part) ∧
      (∀ part ∈ columns.map labelColumn, SqlPiece.placeholder key type ∉ part) ∧
      .placeholder key type ∉ joinPieces ", " (columns.map fun column => [.fixed column]) := by
  rw [placeholder_mem_joinPieces]
  refine ⟨?_, ?_, ?_⟩
  · simp [groupColumn]
  · simp [labelColumn]
  · rintro ⟨part, hpart, hmem⟩
    obtain ⟨column, -, rfl⟩ := List.mem_map.1 hpart
    simp at hmem

theorem placeholder_mem_aggregateQuery
    (hchecks : ∀ part ∈ s.finiteChecks, ∃ al, part = .isFinite al)
    (int : List Char → Option ℤ) (window key : String) (type : ParamType) :
    .placeholder key type ∈ (aggregateQuery table window s).sql.pieces int ↔
      type = .float64 ∧ key ∈ s.havingParts.flatMap HavingPart.keys := by
  have hfinite : ∀ part ∈ s.finiteChecks, SqlPiece.placeholder key type ∉ part.pieces := by
    intro part hpart
    obtain ⟨al, rfl⟩ := hchecks part hpart
    simp [HavingPart.pieces]
  have hextras : ∀ metric, SqlPiece.placeholder key type ∉ whereExtra metric := by
    simp [whereExtra]
  have hselects : .placeholder key type ∉ joinPieces ", " ((tableGroupBy table).map groupColumn ++
      s.aggSelects.map arithColumn ++ (tableLabelColumns table).map labelColumn) := by
    obtain ⟨hgroup, hlabels, -⟩ := placeholder_notMem_columns (tableGroupBy table) key type
    rw [placeholder_mem_joinPieces]
    rintro ⟨part, hpart, hmem⟩
    rcases List.mem_append.1 hpart with hpart | hpart
    · rcases List.mem_append.1 hpart with hpart | hpart
      · exact hgroup part hpart hmem
      · obtain ⟨select, -, rfl⟩ := List.mem_map.1 hpart
        simp [arithColumn, placeholder_notMem_pieces] at hmem
    · exact (placeholder_notMem_columns (tableLabelColumns table) key type).2.1 part hpart hmem
  have hby := (placeholder_notMem_columns (tableGroupBy table) key type).2.2
  have hhaving : .placeholder key type ∈ (if s.havingParts ++ s.finiteChecks = [] then
        [SqlPiece.fixed "1"]
      else joinPieces " AND " ((s.havingParts ++ s.finiteChecks).map HavingPart.pieces)) ↔
      type = .float64 ∧ key ∈ s.havingParts.flatMap HavingPart.keys := by
    split
    next hnil =>
      rw [(List.append_eq_nil_iff.1 hnil).1]
      simp
    · rw [placeholder_mem_joinPieces, mem_flatMap]
      constructor
      · rintro ⟨pieces, hpieces, hmem⟩
        obtain ⟨part, hpart, rfl⟩ := List.mem_map.1 hpieces
        rcases List.mem_append.1 hpart with hpart | hpart
        · exact ⟨(placeholder_mem_having.1 hmem).1, part, hpart, (placeholder_mem_having.1 hmem).2⟩
        · exact absurd hmem (hfinite part hpart)
      · rintro ⟨htype, part, hpart, hkey⟩
        exact ⟨_, mem_map_of_mem (mem_append_left _ hpart),
          placeholder_mem_having.2 ⟨htype, hkey⟩⟩
  rw [← hhaving]
  simp only [aggregateQuery, QuerySql.pieces, mem_append, mem_cons, not_mem_nil,
    reduceCtorEq, false_or, hselects, hby, mem_flatMap, hextras, and_false, exists_false]

theorem placeholder_mem_configQuery (parts : List ConfigWhere) (s : CompilerState)
    (int : List Char → Option ℤ) (key : String) (type : ParamType) :
    .placeholder key type ∈ (configQuery table parts s).sql.pieces int ↔
      type = .string ∧ key ∈ parts.flatMap ConfigWhere.keys := by
  have hselects : .placeholder key type ∉ joinPieces ", " ((tableGroupBy table).map groupColumn ++
      [[.fixed "config_value"]] ++ (tableLabelColumns table).map labelColumn) := by
    rw [placeholder_mem_joinPieces]
    rintro ⟨part, hpart, hmem⟩
    rcases List.mem_append.1 hpart with hpart | hpart
    · rcases List.mem_append.1 hpart with hpart | hpart
      · exact (placeholder_notMem_columns (tableGroupBy table) key type).1 part hpart hmem
      · simp [List.mem_singleton.1 hpart] at hmem
    · exact (placeholder_notMem_columns (tableLabelColumns table) key type).2.1 part hpart hmem
  have hby := (placeholder_notMem_columns (tableGroupBy table ++ ["config_value"]) key type).2.2
  simp only [configQuery, QuerySql.pieces, mem_append, mem_cons, reduceCtorEq, false_or,
    hselects, hby, or_false, placeholder_mem_joinPieces, mem_flatMap]
  constructor
  · rintro ⟨pieces, hpieces, hmem⟩
    obtain ⟨part, hpart, rfl⟩ := List.mem_map.1 hpieces
    exact ⟨(placeholder_mem_where.1 hmem).1, part, hpart, (placeholder_mem_where.1 hmem).2⟩
  · rintro ⟨htype, part, hpart, hkey⟩
    exact ⟨_, mem_map_of_mem hpart, placeholder_mem_where.2 ⟨htype, hkey⟩⟩

theorem Ast.Spelled.numbers (h : ast.Spelled) : ∀ v ∈ ast.numbers, IsLiteral v := by
  have harith : ∀ {node : ArithNode}, node.Spelled → ∀ v ∈ node.numbers, IsLiteral v := by
    intro node hnode
    induction node with
    | aggCall func metric => simp [ArithNode.numbers]
    | numericLiteral value =>
      intro v hv
      rw [List.mem_singleton.1 hv]
      exact hnode
    | arithOp op left right ihl ihr =>
      exact fun v hv => (List.mem_append.1 hv).elim (ihl hnode.1 v) (ihr hnode.2 v)
  induction ast with
  | comparison left op right =>
    intro v hv
    rcases List.mem_append.1 hv with hv | hv
    · exact harith h.1 v hv
    · obtain ⟨-, hright⟩ := h
      match right, hright, hv with
      | .ref (.inline _ value), hright, hv =>
        rw [List.mem_singleton.1 hv]
        exact hright
  | boolOp op left right ihl ihr =>
    exact fun v hv => (List.mem_append.1 hv).elim (ihl h.1 v) (ihr h.2 v)
  | keyComparison | changed | inList => simp [Ast.numbers]

end MonCTL.Dsl
