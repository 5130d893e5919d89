import MonCTL.Dsl.Compiler
import MonCTL.Dsl.Printer

/-!
# The Alert Expression Language: The Text of a Query

The query in structured form, written out. The text is kept as a list of pieces, which say where
each part of it comes from: text of the compiler's own, a name or a number of the expression, or
a placeholder for a parameter.

What Python's `int` makes of a text is a parameter here; only the window is read with it.
-/

namespace MonCTL.Dsl

/-! ### Pieces -/

/-- The type of a placeholder. -/
inductive ParamType
  | float64 | string

/-- The type as it is written. -/
def ParamType.text : ParamType → String
  | .float64 => "Float64"
  | .string => "String"

def ParamValue.type : ParamValue → ParamType
  | .float _ => .float64
  | .text _ => .string

/-- A piece of the text of a query. -/
inductive SqlPiece
  /-- Text of the compiler's own. -/
  | fixed (text : String)
  /-- A name of the expression, as it stands. -/
  | name (text : String)
  /-- A number, as Python writes it. -/
  | number (text : String)
  /-- A placeholder: a key and a type between braces. -/
  | placeholder (key : String) (type : ParamType)

def SqlPiece.text : SqlPiece → String
  | .fixed text => text
  | .name text => text
  | .number text => text
  | .placeholder key type => "\x7b" ++ key ++ ":" ++ type.text ++ "\x7d"

/-- `sep.join(parts)`. -/
def joinPieces (sep : String) : List (List SqlPiece) → List SqlPiece
  | [] => []
  | [part] => part
  | part :: rest => part ++ .fixed sep :: joinPieces sep rest

/-! ### Numbers -/

def pointAfterFirst : List Char → List Char
  | digit :: c :: rest => digit :: '.' :: c :: rest
  | digits => digits

/-- A large whole number in scientific notation: `1e+16`, `1.25e+20`. -/
def scientificWhole (n : ℕ) : List Char :=
  let digits := (toString n).toList
  let significant := (digits.reverse.dropWhile (· = '0')).reverse
  pointAfterFirst significant ++ ['e', '+'] ++ (toString (digits.length - 1)).toList

/-- `str` of a `float` that is not negative. -/
def floatText (q : ℚ) : String :=
  if q.den = 1 then
    if q.num.natAbs < 10 ^ 16 then numberText q ++ ".0"
    else String.ofList (scientificWhole q.num.natAbs)
  else numberText q

/-! ### The window -/

/-- The units of `_parse_interval`. -/
def intervalUnits : List (Char × String) :=
  [('s', "SECOND"), ('m', "MINUTE"), ('h', "HOUR"), ('d', "DAY")]

/-- `_parse_interval`: a number and a unit. -/
def parseInterval (int : List Char → Option ℤ) (window : String) : ℤ × String :=
  match (strip window.toList).reverse with
  | [] => (5, "MINUTE")
  | suffix :: rest =>
    match intervalUnits.lookup suffix.toLower, int rest.reverse with
    | some unit, some num => (num, unit)
    | _, _ => (5, "MINUTE")

/-! ### Fragments -/

/-- The metric an aggregation reads. -/
def MetricRef.pieces : MetricRef → List SqlPiece
  | .column metric => [.name metric]
  | .arrayElement metric =>
    [.fixed "metric_values[indexOf(metric_names, '", .name metric, .fixed "')]"]

/-- `time_delta`. -/
def timeDelta : String :=
  "(toUnixTimestamp(max(executed_at)) - toUnixTimestamp(min(executed_at)))"

/-- The SQL of one aggregation call. -/
def AggSql.pieces : AggSql → List SqlPiece
  | .plain func source => [.fixed func.text, .fixed "("] ++ source.pieces ++ [.fixed ")"]
  | .latest source => .fixed "argMax(" :: source.pieces ++ [.fixed ", executed_at)"]
  | .rateColumn metric => [.fixed "argMax(", .name metric, .fixed "_rate, executed_at)"]
  | .counterDelta source =>
    [.fixed "if(", .fixed timeDelta, .fixed " = 0, nan, (max("] ++ source.pieces ++
      .fixed ") - min(" :: source.pieces ++ [.fixed ")) / ", .fixed timeDelta, .fixed ")"]

def SqlExpr.pieces : SqlExpr → List SqlPiece
  | .aggregate sql => sql.pieces
  | .number value => [.number (floatText value)]
  | .arith op left right =>
    .fixed "(" :: left.pieces ++ [.fixed ") ", .fixed op.text, .fixed " ("] ++ right.pieces ++
      [.fixed ")"]
  | .guardedDiv left right =>
    .fixed "if((" :: right.pieces ++ .fixed ") = 0, nan, (" :: left.pieces ++
      .fixed ") / (" :: right.pieces ++ [.fixed "))"]

/-- The alias of the `i`-th expression. -/
def arithAlias (i : ℕ) : String := s!"_arith_{i}"

/-- `ch_op`. -/
def CompareOp.chOp : CompareOp → String
  | .eq => "="
  | op => op.text

/-- A `HAVING` condition. -/
def HavingPart.pieces : HavingPart → List SqlPiece
  | .placeholder al op key =>
    [.fixed (arithAlias al), .fixed " ", .fixed op.chOp, .fixed " ", .placeholder key .float64]
  | .literal al op value =>
    [.fixed (arithAlias al), .fixed " ", .fixed op.chOp, .fixed " ",
      .number (numberText value)]
  | .isFinite al => [.fixed "isFinite(", .fixed (arithAlias al), .fixed ")"]

/-- A `WHERE` condition on a configuration row. -/
def ConfigWhere.pieces : ConfigWhere → List SqlPiece
  | .configKey key => [.fixed "config_key = '", .name key, .fixed "'"]
  | .configValue op paramKey =>
    [.fixed "config_value ", .fixed op.chOp, .fixed " ", .placeholder paramKey .string]
  | .configValueIn negated paramKeys =>
    [.fixed "config_value ", .fixed (if negated then "NOT IN" else "IN"), .fixed " ("] ++
      joinPieces ", " (paramKeys.map fun key => [.placeholder key .string]) ++ [.fixed ")"]

/-! ### Queries -/

/-- `toString(col) AS col`. -/
def groupColumn (column : String) : List SqlPiece :=
  [.fixed "toString(", .fixed column, .fixed ") AS ", .fixed column]

/-- `any(col) AS col`. -/
def labelColumn (column : String) : List SqlPiece :=
  [.fixed "any(", .fixed column, .fixed ") AS ", .fixed column]

def arithColumn (select : SqlExpr × ℕ) : List SqlPiece :=
  select.1.pieces ++ [.fixed " AS ", .fixed (arithAlias select.2)]

/-- A restriction to the rows that have a metric. -/
def whereExtra (metric : String) : List SqlPiece :=
  [.fixed " AND ", .fixed "has(metric_names, '", .name metric, .fixed "')"]

/-- **The text of a query.** -/
def QuerySql.pieces (int : List Char → Option ℤ) : QuerySql → List SqlPiece
  | .empty => []
  | .aggregate groupBy aggSelects labels table window whereExtras having =>
    .fixed "SELECT " ::
      joinPieces ", " (groupBy.map groupColumn ++ aggSelects.map arithColumn ++
        labels.map labelColumn) ++
      [.fixed " FROM ", .fixed table, .fixed " WHERE executed_at > now() - INTERVAL ",
        .number (toString (parseInterval int window).1), .fixed " ",
        .fixed (parseInterval int window).2] ++
      whereExtras.flatMap whereExtra ++
      .fixed " GROUP BY " :: joinPieces ", " (groupBy.map fun column => [.fixed column]) ++
      .fixed " HAVING " ::
        if having = [] then [.fixed "1"] else joinPieces " AND " (having.map HavingPart.pieces)
  | .configLatest groupBy labels whereParts =>
    .fixed "SELECT " ::
      joinPieces ", " (groupBy.map groupColumn ++ [[.fixed "config_value"]] ++
        labels.map labelColumn) ++
      .fixed " FROM config_latest FINAL WHERE " ::
      joinPieces " AND " (whereParts.map ConfigWhere.pieces) ++
      .fixed " GROUP BY " ::
        joinPieces ", " ((groupBy ++ ["config_value"]).map fun column => [.fixed column])

def QuerySql.text (int : List Char → Option ℤ) (sql : QuerySql) : String :=
  String.join ((sql.pieces int).map SqlPiece.text)

example : ((compileToSql (.comparison (.aggCall .avg "rtt_ms") .gt (.ref (.named "warn")))
      "availability_latency" "1h").map fun q => q.sql.text fun _ => some 1) =
    .ok ("SELECT toString(assignment_id) AS assignment_id, avg(rtt_ms) AS _arith_0, " ++
      "any(device_name) AS device_name FROM availability_latency " ++
      "WHERE executed_at > now() - INTERVAL 1 HOUR GROUP BY assignment_id " ++
      "HAVING _arith_0 > \x7bwarn:Float64\x7d") := by
  decide +kernel

end MonCTL.Dsl
