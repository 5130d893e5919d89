import Mathlib.Algebra.Order.Ring.Rat
import MonCTL.Dsl.Compiler

/-!
# The Alert Expression Language: Validation

`validate_expression`: parse, walk the tree for what it refers to, run the semantic
checks, and try to compile. An expression is valid when no check found an error. Warnings
never decide validity and are left out, and so is the check that a threshold is finite,
which a rational always passes.
-/

namespace MonCTL.Dsl

/-- `ThresholdRefInfo`. -/
structure ThresholdRefInfo where
  name : String
  isNamed : Bool
  inlineValue : Option ℚ
  deriving DecidableEq

/-- `ValidationResult`, without its warnings. -/
structure ValidationResult where
  valid : Bool
  errors : List String
  referencedMetrics : List String := []
  thresholdParams : List ThresholdParam := []
  hasAggregation : Bool := true
  hasArithmetic : Bool := false
  hasDivision : Bool := false
  thresholdRefs : List ThresholdRefInfo := []
  deriving DecidableEq

/-! ### What an expression refers to -/

/-- Whether an arithmetic tree has an operator. -/
def ArithNode.hasOperator : ArithNode → Bool
  | .arithOp _ _ _ => true
  | _ => false

/-- The metrics and configuration keys a condition names. -/
def leafMetrics : Ast → List String
  | .comparison left _ _ => left.aggCalls.map Prod.snd
  | .keyComparison key _ _ => [key]
  | .changed identifier => [identifier]
  | .inList identifier _ _ => [identifier]
  | .boolOp _ _ _ => []

/-- The threshold a condition refers to. An inline value that is only compared for
equality is not a threshold. -/
def leafThresholdRef : Ast → Option ThresholdRef
  | .comparison _ op (.ref (.inline name value)) =>
    if op.isEquality then none else some (.inline name value)
  | .comparison _ _ (.ref (.named name)) => some (.named name)
  | _ => none

/-- `ThresholdRefInfo` of a reference. -/
def thresholdRefInfo : ThresholdRef → ThresholdRefInfo
  | .inline name value => ⟨name, false, some value⟩
  | .named name => ⟨name, true, none⟩

/-- The thresholds of a list of references; `i` counts the inline ones. -/
def thresholdParamsFrom : ℕ → List ThresholdRef → List ThresholdParam
  | _, [] => []
  | i, .inline name value :: refs => ⟨name, value, inlineKey i⟩ :: thresholdParamsFrom (i + 1) refs
  | i, .named name :: refs => ⟨name, 0, name⟩ :: thresholdParamsFrom i refs

/-- The arithmetic trees of an expression. -/
def arithNodes (ast : Ast) : List ArithNode :=
  ast.leaves.filterMap fun leaf => match leaf with
    | .comparison left _ _ => some left
    | _ => none

/-- The threshold references of an expression, in order. -/
def thresholdRefs (ast : Ast) : List ThresholdRef := ast.leaves.filterMap leafThresholdRef

/-! ### Semantic checks -/

/-- `_check_config_only`. -/
def checkConfigOnly (table : String) : Ast → List String
  | .changed _ =>
    if table ≠ "config" then ["CHANGED operator is only allowed for config table"] else []
  | .inList _ _ _ =>
    if table ≠ "config" then ["IN operator is only allowed for config table"] else []
  | .keyComparison _ _ _ =>
    if table ≠ "config" then ["String comparisons are only allowed for config table"] else []
  | _ => []

/-- `_check_bare_arith`. -/
def checkBareArith (node : ArithNode) : List String :=
  if node.hasAggCall then []
  else ["Arithmetic expression must contain at least one aggregation call"]

/-- `_check_self_div`. -/
def checkSelfDiv (node : ArithNode) : List String :=
  if node.hasSelfDiv then ["Self-referencing division detected (e.g. avg(x) / avg(x))"] else []

/-- `_check_div_zero`. -/
def checkDivZero (node : ArithNode) : List String :=
  if node.hasDivByZeroConstant then ["Division by zero constant detected"] else []

/-- `str.endswith`. -/
def endsWith (s suffix : String) : Bool := suffix.toList.isSuffixOf s.toList

/-- `_check_pct`: an inline threshold of a percentage lies between 0 and 100 and is
compared upwards. -/
def checkPct : Ast → List String
  | .comparison left op (.ref (.inline _ value)) =>
    left.aggCalls.flatMap fun call =>
      if endsWith call.2 "_pct" ∨ endsWith call.2 "_percent" then
        (if 0 ≤ value ∧ value ≤ 100 then []
          else [s!"Threshold for percentage metric '{call.2}' must be 0-100"])
        ++ (if op = .gt ∨ op = .ge then []
          else [s!"Percentage metric '{call.2}' should use > or >= operator"])
      else []
  | _ => []

/-- The semantic errors of an expression, in the order of the checks. -/
def semanticErrors (table : String) (ast : Ast) : List String :=
  ast.leaves.flatMap (checkConfigOnly table)
  ++ (if table ≠ "config" ∧ (arithNodes ast).all (fun node => node.hasAggCall = false) then
      ["Non-config expressions must contain at least one aggregation call"] else [])
  ++ (arithNodes ast).flatMap checkBareArith
  ++ (arithNodes ast).flatMap checkSelfDiv
  ++ (arithNodes ast).flatMap checkDivZero
  ++ ast.leaves.flatMap checkPct

def compileErrors (table window : String) (ast : Ast) : List String :=
  match compileToSql ast table window with
  | .ok _ => []
  | .error e => [s!"Expression compilation failed: {e.message}"]

/-! ### Optional fields -/

/-- `_VALID_WINDOWS`, sorted. -/
def validWindows : List String := ["15m", "1h", "1m", "30s", "5m"]

/-- `_VALID_SEVERITIES`, sorted. -/
def validSeverities : List String := ["critical", "emergency", "info", "warning"]

/-- The checks on the window, the severity and the name, each only when given. -/
def fieldErrors (window severity name : Option String) : List String :=
  (match window with
    | some w => if w ∈ validWindows then [] else
        ["Window must be one of: " ++ String.intercalate ", " validWindows]
    | none => [])
  ++ (match severity with
    | some s => if s ∈ validSeverities then [] else
        ["Severity must be one of: " ++ String.intercalate ", " validSeverities]
    | none => [])
  ++ (match name with
    | some n => if 1 ≤ n.toList.length ∧ n.toList.length ≤ 255 then [] else
        ["Name must be 1-255 characters"]
    | none => [])

/-! ### The entry point -/

/-- The window the trial compilation uses: the default when none, or an empty one, is
given. -/
def trialWindow (window : Option String) : String :=
  match window with
  | some w => if w = "" then "5m" else w
  | none => "5m"

/-- The errors of an expression that parsed: the semantic ones, or the one of the trial
compilation when there are none, and those of the optional fields. -/
def expressionErrors (ast : Ast) (table : String) (window severity name : Option String) :
    List String :=
  let semantic := semanticErrors table ast
  (if semantic = [] then compileErrors table (trialWindow window) ast else semantic)
    ++ fieldErrors window severity name

/-- `validate_expression`. -/
def validateExpression (expression table : String) (window severity name : Option String) :
    ValidationResult :=
  if strip expression.toList = [] then
    { valid := false, errors := ["Expression must not be empty"] }
  else if expression.toList.length > maxExpressionLength then
    { valid := false,
      errors := [s!"Expression exceeds maximum length ({maxExpressionLength} characters)"] }
  else
    match parse expression with
    | .error (.error e) => { valid := false, errors := [e.message] }
    | .error .outOfFuel => { valid := false, errors := [] }
    | .ok ast =>
      let errors := expressionErrors ast table window severity name
      { valid := errors = []
        errors := errors
        referencedMetrics := ast.leaves.flatMap leafMetrics
        thresholdParams := thresholdParamsFrom 0 (thresholdRefs ast)
        hasAggregation := (arithNodes ast).any ArithNode.hasAggCall
        hasArithmetic := (arithNodes ast).any ArithNode.hasOperator
        hasDivision := (arithNodes ast).any ArithNode.hasDivision
        thresholdRefs := (thresholdRefs ast).map thresholdRefInfo }

variable {expression table : String} {window severity name : Option String}

/-- **A valid expression** parses, passes every semantic check and compiles. -/
theorem validateExpression_valid
    (h : (validateExpression expression table window severity name).valid = true) :
    ∃ ast query, parse expression = .ok ast ∧ semanticErrors table ast = [] ∧
      compileToSql ast table (trialWindow window) = .ok query := by
  unfold validateExpression at h
  split at h
  · cases h
  · split at h
    · cases h
    · split at h
      · cases h
      · cases h
      next ast hparse =>
        have herrors : expressionErrors ast table window severity name = [] := by simpa using h
        rw [expressionErrors, List.append_eq_nil_iff] at herrors
        obtain ⟨hexpr, -⟩ := herrors
        split at hexpr
        next hsemantic =>
          rw [compileErrors] at hexpr
          split at hexpr
          next query hquery => exact ⟨ast, query, hparse, hsemantic, hquery⟩
          · cases hexpr
        next hsemantic => exact absurd hexpr hsemantic

theorem thresholdRefs_of_valid
    {ast : Ast} (h : (validateExpression expression table window severity name).valid = true)
    (hparse : parse expression = .ok ast) :
    (validateExpression expression table window severity name).thresholdRefs =
      (thresholdRefs ast).map thresholdRefInfo := by
  unfold validateExpression at h
  split at h
  · cases h
  next hstrip =>
    split at h
    · cases h
    next hlength => rw [validateExpression, if_neg hstrip, if_neg hlength, hparse]

end MonCTL.Dsl
