import MonCTL.Dsl.Parser
import MonCTL.Lib.Dict

/-!
# The Alert Expression Language: Compiler

`_Compiler` turns an expression into a query. The query is kept in structured form here:
an emitted fragment of SQL is a constructor with the parts the source interpolates, and an
alias `_arith_i` is its number. The rendering of the window as an `INTERVAL` is left out.

There are three kinds of query. An expression that is a lone `CHANGED` compiles to no SQL
at all but to a flag. An expression of the configuration table without any aggregation
compiles to a `WHERE` over single configuration rows. Everything else compiles to a
`GROUP BY` with a `HAVING`.
-/

namespace MonCTL.Dsl

/-! ### Emitted fragments -/

/-- Where an aggregation reads its metric: a column, or an element of the metric arrays
of the performance table. -/
inductive MetricRef
  | column (metric : String)
  | arrayElement (metric : String)
  deriving DecidableEq

/-- The metric an aggregation reads. -/
def MetricRef.metric : MetricRef → String
  | .column metric => metric
  | .arrayElement metric => metric

/-- The SQL of one aggregation call. -/
inductive AggSql
  /-- `func(metric)` -/
  | plain (func : AggFunc) (source : MetricRef)
  /-- `argMax(metric, executed_at)` -/
  | latest (source : MetricRef)
  /-- `argMax(metric_rate, executed_at)` -/
  | rateColumn (metric : String)
  /-- `if(Δt = 0, nan, (max(metric) - min(metric)) / Δt)` -/
  | counterDelta (source : MetricRef)
  deriving DecidableEq

inductive SqlExpr
  | aggregate (sql : AggSql)
  | number (value : ℚ)
  /-- `(left) op (right)` -/
  | arith (op : ArithOperator) (left right : SqlExpr)
  /-- `if((right) = 0, nan, (left) / (right))` -/
  | guardedDiv (left right : SqlExpr)
  deriving DecidableEq

/-- A `HAVING` condition on a `SELECT` alias. -/
inductive HavingPart
  /-- `alias op {key:Float64}` -/
  | placeholder (arithAlias : ℕ) (op : CompareOp) (key : String)
  /-- `alias op value` -/
  | literal (arithAlias : ℕ) (op : CompareOp) (value : ℚ)
  /-- `isFinite(alias)` -/
  | isFinite (arithAlias : ℕ)
  deriving DecidableEq

/-- A `WHERE` condition on a configuration row. -/
inductive ConfigWhere
  /-- `config_key = 'key'` -/
  | configKey (key : String)
  /-- `config_value op {key:String}` -/
  | configValue (op : CompareOp) (paramKey : String)
  /-- `config_value [NOT] IN ({key:String}, …)` -/
  | configValueIn (negated : Bool) (paramKeys : List String)
  deriving DecidableEq

inductive ParamValue
  | float (value : ℚ)
  | text (value : String)
  deriving DecidableEq

/-- `ThresholdParam`. -/
structure ThresholdParam where
  name : String
  defaultValue : ℚ
  paramKey : String
  deriving DecidableEq

inductive QuerySql
  /-- No SQL: the caller runs the query for changed configuration keys. -/
  | empty
  /-- `SELECT … FROM table WHERE … GROUP BY … HAVING …` -/
  | aggregate (groupBy : List String) (aggSelects : List (SqlExpr × ℕ)) (labels : List String)
      (table window : String) (whereExtras : List String) (having : List HavingPart)
  /-- `SELECT … FROM config_latest FINAL WHERE … GROUP BY …` -/
  | configLatest (groupBy labels : List String) (whereParts : List ConfigWhere)
  deriving DecidableEq

/-- `CompiledQuery`. -/
structure CompiledQuery where
  sql : QuerySql
  params : Dict String ParamValue
  thresholdParams : List ThresholdParam
  isConfigChanged : Bool := false
  configChangedKey : Option String := none
  metricAliases : Dict String ℕ := []
  deriving DecidableEq

/-! ### Tables -/

variable (table : String)

/-- `_TABLE_GROUP_BY`, with its default. -/
def tableGroupBy : List String :=
  if table = "performance" then ["device_id", "component_type", "component"]
  else if table = "interface" then ["device_id", "interface_id"]
  else if table = "config" then ["device_id", "config_key"]
  else ["assignment_id"]

/-- `_TABLE_LABEL_COLUMNS`, with its default: the columns that are selected as
`any(column) AS column`. -/
def tableLabelColumns : List String :=
  if table = "availability_latency" ∨ table = "performance" ∨ table = "config" then
    ["device_name"]
  else if table = "interface" then ["device_name", "if_name"]
  else []

/-- `_INTERFACE_RATE_COLUMNS`: the interface columns with a rate of their own. -/
def interfaceRateColumns : List String :=
  ["in_octets", "out_octets", "in_ucast_pkts", "out_ucast_pkts",
    "in_mcast_pkts", "out_mcast_pkts", "in_bcast_pkts", "out_bcast_pkts",
    "in_errors", "out_errors", "in_discards", "out_discards"]

/-! ### The compiler's state -/

/-- What the compiler has collected so far. -/
structure CompilerState where
  params : Dict String ParamValue := []
  thresholdParams : List ThresholdParam := []
  thresholdIdx : ℕ := 0
  strIdx : ℕ := 0
  arithIdx : ℕ := 0
  metricAliases : Dict String ℕ := []
  aggSelects : List (SqlExpr × ℕ) := []
  havingParts : List HavingPart := []
  whereExtras : List String := []
  finiteChecks : List HavingPart := []

/-- A compiler step. -/
abbrev Compiler := StateT CompilerState (Except ParseError)

/-- `_assert_safe_identifier`. (The message quotes the identifier as `repr` does when
nothing in it needs an escape.) -/
def assertSafeIdentifier (value place : String) : Compiler String :=
  if isSafeIdent value.toList = false then
    throw ⟨s!"Invalid identifier in {place}: '{value}'"⟩
  else if value.toList.length > identifierMaxLength then
    throw ⟨s!"Identifier in {place} exceeds {identifierMaxLength} chars: '{value}'"⟩
  else
    return value

/-- Where the table keeps a metric; the performance table also restricts the rows to
those that have it. -/
def metricRef (table metric : String) : Compiler MetricRef :=
  if table = "performance" then do
    modify fun s => { s with whereExtras := s.whereExtras ++ [metric] }
    return .arrayElement metric
  else
    return .column metric

/-- `_rate_to_sql`. -/
def rateToSql (table metric : String) : Compiler AggSql := do
  let metric ← assertSafeIdentifier metric "rate metric"
  if table = "interface" ∧ metric ∈ interfaceRateColumns then
    return .rateColumn metric
  else do
    let source ← metricRef table metric
    return .counterDelta source

/-- `_agg_to_sql`. -/
def aggToSql (func : AggFunc) (metric : String) : Compiler AggSql := do
  let metric ← assertSafeIdentifier metric "agg metric"
  match func with
  | .rate => rateToSql table metric
  | .last => do
      let source ← metricRef table metric
      return .latest source
  | func => do
      let source ← metricRef table metric
      return .plain func source

/-- `_arith_to_sql`. -/
def arithToSql (table : String) : ArithNode → Compiler SqlExpr
  | .aggCall func metric => do
      let sql ← aggToSql table func metric
      return .aggregate sql
  | .numericLiteral value => return .number value
  | .arithOp op left right => do
      let leftSql ← arithToSql table left
      let rightSql ← arithToSql table right
      match op with
      | .div => return .guardedDiv leftSql rightSql
      | op => return .arith op leftSql rightSql

/-- The keys under which the aggregations of a comparison are known to message templates:
the metric, or function and metric when the comparison names the metric twice. -/
def metricAliasKeys (node : ArithNode) : List String :=
  node.aggCalls.map fun call =>
    if (node.aggCalls.map Prod.snd).count call.2 > 1 then s!"{call.1.text}_{call.2}" else call.2

/-- `_compile_arith_select`. -/
def compileArithSelect (node : ArithNode) : Compiler ℕ := do
  let sqlExpr ← arithToSql table node
  let arithAlias := (← get).arithIdx
  modify fun s => { s with
    aggSelects := s.aggSelects ++ [(sqlExpr, arithAlias)]
    arithIdx := s.arithIdx + 1
    finiteChecks :=
      if node.hasDivision then s.finiteChecks ++ [.isFinite arithAlias] else s.finiteChecks
    metricAliases :=
      s.metricAliases.setAll ((metricAliasKeys node).map fun key => (key, arithAlias)) }
  return arithAlias

/-- The placeholder of the `i`-th inline threshold. -/
def inlineKey (i : ℕ) : String := s!"_threshold_{i}"

/-- The placeholder of the `i`-th configuration text. -/
def strKey (i : ℕ) : String := s!"_str_val_{i}"

/-- The placeholder of the `j`-th value of the `i`-th configuration list. -/
def inKey (i j : ℕ) : String := s!"_in_val_{i}_{j}"

/-- Emit a `HAVING` condition with a placeholder, and register its threshold. -/
def emitThreshold (arithAlias : ℕ) (op : CompareOp) (name : String) (default : ℚ)
    (key : String) : Compiler Unit :=
  modify fun s => { s with
    havingParts := s.havingParts ++ [.placeholder arithAlias op key]
    params := s.params.set key (.float default)
    thresholdParams := s.thresholdParams ++ [⟨name, default, key⟩] }

/-- The right side of a numeric comparison: a named threshold and an inline bound go
through a parameter, an inline value that is only compared for equality is emitted as a
literal, and a quoted text emits nothing. -/
def emitComparison (arithAlias : ℕ) (op : CompareOp) : Operand → Compiler Unit
  | .ref (.named name) => do
      let safeName ← assertSafeIdentifier name "threshold name"
      emitThreshold arithAlias op safeName 0 safeName
  | .ref (.inline name inlineValue) =>
    if op.isEquality then
      modify fun s => { s with
        havingParts := s.havingParts ++ [.literal arithAlias op inlineValue] }
    else do
      emitThreshold arithAlias op name inlineValue (inlineKey (← get).thresholdIdx)
      modify fun s => { s with thresholdIdx := s.thresholdIdx + 1 }
  | .text _ => return ()

def checkCompareOp (op : CompareOp) : Compiler Unit :=
  if op.isValid then return () else throw ⟨s!"Invalid comparison operator: '{op.text}'"⟩

/-- `_build_query_parts`. -/
def buildQueryParts (table : String) : Ast → Compiler Unit
  | .comparison left op right => do
      let arithAlias ← compileArithSelect table left
      checkCompareOp op
      emitComparison arithAlias op right
  | .boolOp _ left right => do
      buildQueryParts table left
      buildQueryParts table right
  | .keyComparison _ _ _ => return ()
  | .changed _ => return ()
  | .inList _ _ _ => return ()

/-- `_build_config_where`: the conditions it appends. -/
def buildConfigWhere : Ast → Compiler (List ConfigWhere)
  | .keyComparison key op value => do
      checkCompareOp op
      let key ← assertSafeIdentifier key "config_key"
      let paramKey := strKey (← get).strIdx
      modify fun s => { s with
        params := s.params.set paramKey (.text value)
        strIdx := s.strIdx + 1 }
      return [.configKey key, .configValue op paramKey]
  | .inList identifier values negated => do
      let key ← assertSafeIdentifier identifier "config_key"
      let idx := (← get).strIdx
      modify fun s => { s with
        params := s.params.setAll (values.mapIdx fun j value => (inKey idx j, .text value))
        strIdx := s.strIdx + 1 }
      return [.configKey key, .configValueIn negated ((List.range values.length).map (inKey idx))]
  | .boolOp _ left right => do
      let leftParts ← buildConfigWhere left
      let rightParts ← buildConfigWhere right
      return leftParts ++ rightParts
  | .comparison _ _ _ => return []
  | .changed _ => return []

/-- `_compile_config_string`. -/
def compileConfigString (ast : Ast) (groupBy labels : List String) : Compiler CompiledQuery := do
  let whereParts ← buildConfigWhere ast
  return {
    sql := .configLatest groupBy labels whereParts
    params := (← get).params
    thresholdParams := [] }

/-- `compile`. -/
def compile (table window : String) : Ast → Compiler CompiledQuery
  | .changed identifier =>
    return {
      sql := .empty
      params := []
      thresholdParams := []
      isConfigChanged := true
      configChangedKey := some identifier }
  | ast => do
      let groupBy := tableGroupBy table
      let labels := tableLabelColumns table
      buildQueryParts table ast
      let s ← get
      if table = "config" ∧ s.aggSelects = [] then
        compileConfigString ast groupBy labels
      else
        return {
          sql := .aggregate groupBy s.aggSelects labels table window s.whereExtras
            (s.havingParts ++ s.finiteChecks)
          params := s.params
          thresholdParams := s.thresholdParams
          metricAliases := s.metricAliases }

/-- `compile_to_sql`. -/
def compileToSql (ast : Ast) (table window : String) : Except ParseError CompiledQuery :=
  (compile table window ast).run' {}

end MonCTL.Dsl
