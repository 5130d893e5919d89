import Mathlib.Data.String.Basic
import Mathlib.Algebra.Order.Ring.Rat
import MonCTL.Dsl.Compiler

/-!
# The Alert Expression Language: Meaning

What an expression says about an entity group, and what a compiled query selects.

An entity group is described by the value of each of its aggregations, the value of each
of its configuration keys, and the keys that have changed. Every threshold has a value of
its own: an inline threshold is known by its number in the expression, a named one by its
name. A quotient whose divisor is zero has no value, and a comparison without a value is
false ("entities where divisor = 0 are automatically skipped"); the query computes `nan`
there, which compares unequal to everything.
-/

namespace MonCTL.Dsl

/-! ### Entity groups and thresholds -/

/-- What is known about an entity group. -/
structure Assignment where
  agg : AggFunc → String → ℚ
  config : String → String
  changed : String → Bool

/-- A threshold of an expression: the `i`-th inline one, or a named one. -/
inductive ThresholdId
  | inline (i : ℕ)
  | named (name : String)

/-- The placeholder of a threshold. -/
def ThresholdId.key : ThresholdId → String
  | .inline i => inlineKey i
  | .named name => name

/-! ### The meaning of an expression -/

/-- A comparison of two values. -/
def CompareOp.Holds {α : Type} [LT α] [LE α] : CompareOp → α → α → Prop
  | .gt, x, y => y < x
  | .lt, x, y => x < y
  | .ge, x, y => y ≤ x
  | .le, x, y => x ≤ y
  | .eq, x, y => x = y
  | .ne, x, y => x ≠ y
  | .bang, _, _ => False

instance CompareOp.decidableHolds {α : Type} [LT α] [LE α] [DecidableLT α] [DecidableLE α]
    [DecidableEq α] (op : CompareOp) (x y : α) : Decidable (op.Holds x y) :=
  match op with
  | .gt => inferInstanceAs (Decidable (y < x))
  | .lt => inferInstanceAs (Decidable (x < y))
  | .ge => inferInstanceAs (Decidable (y ≤ x))
  | .le => inferInstanceAs (Decidable (x ≤ y))
  | .eq => inferInstanceAs (Decidable (x = y))
  | .ne => inferInstanceAs (Decidable (x ≠ y))
  | .bang => inferInstanceAs (Decidable False)

/-- An operator on two numbers; a quotient by zero has no value. -/
def ArithOperator.eval : ArithOperator → ℚ → ℚ → Option ℚ
  | .add, x, y => some (x + y)
  | .sub, x, y => some (x - y)
  | .mul, x, y => some (x * y)
  | .div, x, y => if y = 0 then none else some (x / y)

/-- The value of an arithmetic tree on a group. -/
def ArithNode.eval (a : Assignment) : ArithNode → Option ℚ
  | .aggCall func metric => some (a.agg func metric)
  | .numericLiteral value => some value
  | .arithOp op left right => (left.eval a).bind fun x => (right.eval a).bind fun y => op.eval x y

/-- Whether a comparison against a reference reads a threshold: an inline value compared
for equality is a constant. -/
def readsThreshold (op : CompareOp) : ThresholdRef → Bool
  | .inline _ _ => !op.isEquality
  | .named _ => true

/-- The threshold a reference denotes, when the next inline one has number `i`. -/
def ThresholdRef.id (i : ℕ) : ThresholdRef → ThresholdId
  | .inline _ _ => .inline i
  | .named name => .named name

def operandValue (θ : ThresholdId → ℚ) (i : ℕ) (op : CompareOp) : ThresholdRef → ℚ
  | .inline _ value => if op.isEquality then value else θ (.inline i)
  | .named name => θ (.named name)

/-- The number of inline thresholds of an expression. -/
def Ast.inlineCount : Ast → ℕ
  | .comparison _ op (.ref (.inline _ _)) => if op.isEquality then 0 else 1
  | .boolOp _ left right => left.inlineCount + right.inlineCount
  | _ => 0

/-- The thresholds of an expression, in the order of the text. -/
def Ast.thresholdIds : ℕ → Ast → List ThresholdId
  | i, .comparison _ op (.ref ref) => if readsThreshold op ref then [ref.id i] else []
  | i, .boolOp _ left right => left.thresholdIds i ++ right.thresholdIds (i + left.inlineCount)
  | _, _ => []

/-- **The truth of an expression** on a group, when its first inline threshold has number
`i`. A number and a quoted text never compare. -/
def Ast.Holds (θ : ThresholdId → ℚ) (a : Assignment) : ℕ → Ast → Prop
  | i, .comparison left op (.ref ref) =>
    ∃ x, left.eval a = some x ∧ op.Holds x (operandValue θ i op ref)
  | _, .comparison _ _ (.text _) => False
  | _, .keyComparison key op value => op.Holds (a.config key) value
  | _, .changed identifier => a.changed identifier = true
  | _, .inList identifier values negated =>
    if negated then a.config identifier ∉ values else a.config identifier ∈ values
  | i, .boolOp .and left right => left.Holds θ a i ∧ right.Holds θ a (i + left.inlineCount)
  | i, .boolOp .or left right => left.Holds θ a i ∨ right.Holds θ a (i + left.inlineCount)

/-! ### The meaning of a query -/

/-- A comparison in SQL, on a column that may be `nan`. -/
def sqlCompare (op : CompareOp) : Option ℚ → ℚ → Prop
  | some x, y => op.Holds x y
  | none, _ => op = .ne

/-- The value of an aggregation's SQL: the assigned value of the call it stands for. -/
def AggSql.eval (a : Assignment) : AggSql → ℚ
  | .plain func source => a.agg func source.metric
  | .latest source => a.agg .last source.metric
  | .rateColumn metric => a.agg .rate metric
  | .counterDelta source => a.agg .rate source.metric

/-- The value of a `SELECT` column; `none` is `nan`. -/
def SqlExpr.eval (a : Assignment) : SqlExpr → Option ℚ
  | .aggregate sql => some (sql.eval a)
  | .number value => some value
  | .arith op left right => (left.eval a).bind fun x => (right.eval a).bind fun y => op.eval x y
  | .guardedDiv left right =>
    if right.eval a = some 0 then none
    else (left.eval a).bind fun x => (right.eval a).bind fun y => some (x / y)

def columnValue (aggSelects : List (SqlExpr × ℕ)) (a : Assignment) (arithAlias : ℕ) : Option ℚ :=
  (aggSelects.find? fun column => column.2 = arithAlias).bind fun column => column.1.eval a

/-- A `HAVING` condition under bound parameters. -/
def HavingPart.Holds (aggSelects : List (SqlExpr × ℕ)) (params : Dict String ParamValue)
    (a : Assignment) : HavingPart → Prop
  | .placeholder arithAlias op key =>
    ∃ value, params.lookup key = some (.float value) ∧
      sqlCompare op (columnValue aggSelects a arithAlias) value
  | .literal arithAlias op value => sqlCompare op (columnValue aggSelects a arithAlias) value
  | .isFinite arithAlias => (columnValue aggSelects a arithAlias).isSome

/-- A `WHERE` condition on the configuration row `(key, value)`. -/
def ConfigWhere.Holds (params : Dict String ParamValue) (key value : String) : ConfigWhere → Prop
  | .configKey k => key = k
  | .configValue op paramKey =>
    ∃ text, params.lookup paramKey = some (.text text) ∧ op.Holds value text
  | .configValueIn negated paramKeys =>
    if negated then ∀ k ∈ paramKeys, params.lookup k ≠ some (.text value)
    else ∃ k ∈ paramKeys, params.lookup k = some (.text value)

/-- Whether the SQL of a query selects a group. A configuration query looks at one row at
a time, and the group is selected when one of its rows is. -/
def QuerySql.Selects (params : Dict String ParamValue) (a : Assignment) : QuerySql → Prop
  | .empty => False
  | .aggregate _ aggSelects _ _ _ _ having => ∀ h ∈ having, h.Holds aggSelects params a
  | .configLatest _ _ whereParts => ∃ key, ∀ w ∈ whereParts, w.Holds params key (a.config key)

/-- The parameters with the thresholds bound to their values, one after the other. -/
def CompiledQuery.bind (q : CompiledQuery) (values : List ℚ) : Dict String ParamValue :=
  q.params.setAll ((q.thresholdParams.zip values).map fun p => (p.1.paramKey, .float p.2))

/-- **What a query selects**, given the values of its thresholds. -/
def CompiledQuery.Selects (q : CompiledQuery) (values : List ℚ) (a : Assignment) : Prop :=
  match q.configChangedKey with
  | some key => a.changed key = true
  | none => q.sql.Selects (q.bind values) a

/-- Compiling a condition can emit a `HAVING` comparison. -/
def EmitsHaving (table : String) (leaf : Ast) : Prop :=
  ∃ s s', (buildQueryParts table leaf).run s = .ok ((), s') ∧ s'.havingParts ≠ s.havingParts

/-- Compiling a condition can emit a `WHERE` condition. -/
def EmitsWhere (leaf : Ast) : Prop :=
  ∃ s parts s', (buildConfigWhere leaf).run s = .ok (parts, s') ∧ parts ≠ []

/-- A condition of the expression shows in the query compiled from it. -/
def CompiledQuery.Contributes (q : CompiledQuery) (table : String) (leaf : Ast) : Prop :=
  match q.sql with
  | .empty => ∃ key, leaf = .changed key ∧ q.configChangedKey = some key
  | .aggregate .. => EmitsHaving table leaf
  | .configLatest .. => EmitsWhere leaf

/-- **The compiler preserves an expression**: every condition shows in the query, and,
for any family of entity groups and any values of the thresholds, the query selects the
groups on which the expression is true. -/
def Preserves (table window : String) (ast : Ast) : Prop :=
  ∃ q, compileToSql ast table window = .ok q ∧ (∀ leaf ∈ ast.leaves, q.Contributes table leaf) ∧
    ∀ (G : Type) (groups : G → Assignment) (θ : ThresholdId → ℚ),
      {g | q.Selects ((ast.thresholdIds 0).map θ) (groups g)} =
        {g | ast.Holds θ (groups g) 0}

end MonCTL.Dsl
