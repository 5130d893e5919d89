import Mathlib.Data.Rat.Defs

/-!
# The Alert Expression Language: Syntax Trees

The abstract syntax of alert expressions, as the recursive-descent parser builds it, and
the helpers that walk it.

A comparison comes in two forms in the source, told apart by the type of its left side;
here they are two constructors. `comparison` has an arithmetic left side and compares it
with a threshold reference or, when the writer quoted the right side, with a text.
`keyComparison` compares a configuration key with a text. (A plain number on the right of
a configuration key is promoted by the parser to a comparison of `last(key)`, so the
`float` right side of the source's type annotation is never built.)

Numbers are exact rationals: rounding and overflow of double precision are not modelled.
-/

namespace MonCTL.Dsl

/-- The aggregation functions. -/
inductive AggFunc
  | avg | max | min | sum | count | last | rate
  deriving DecidableEq

inductive ArithOperator
  | add | sub | mul | div
  deriving DecidableEq

/-- The operators the tokenizer produces. A lone `!` is one of them: the pattern makes
the `=` after it optional, and only the compiler turns it down. -/
inductive CompareOp
  | gt | lt | ge | le | eq | ne | bang
  deriving DecidableEq

/-- The boolean connectives. -/
inductive BoolOperator
  | and | or
  deriving DecidableEq

/-- The left side of a numeric comparison. -/
inductive ArithNode
  | aggCall (func : AggFunc) (metric : String)
  | arithOp (op : ArithOperator) (left right : ArithNode)
  | numericLiteral (value : ℚ)
  deriving DecidableEq

/-- A reference to a threshold: an inline number, which carries the automatic name the
parser gave it, or the name of a threshold variable. -/
inductive ThresholdRef
  | inline (name : String) (inlineValue : ℚ)
  | named (name : String)
  deriving DecidableEq

/-- The right side of a numeric comparison: a threshold, or a quoted text. -/
inductive Operand
  | ref (ref : ThresholdRef)
  | text (value : String)
  deriving DecidableEq

/-- An alert expression. -/
inductive Ast
  | comparison (left : ArithNode) (op : CompareOp) (right : Operand)
  | keyComparison (key : String) (op : CompareOp) (value : String)
  | changed (identifier : String)
  | inList (identifier : String) (values : List String) (negated : Bool)
  | boolOp (op : BoolOperator) (left right : Ast)
  deriving DecidableEq

/-! ### Spellings -/

/-- The function as it is written, in lower case. -/
def AggFunc.text : AggFunc → String
  | .avg => "avg"
  | .max => "max"
  | .min => "min"
  | .sum => "sum"
  | .count => "count"
  | .last => "last"
  | .rate => "rate"

def ArithOperator.text : ArithOperator → String
  | .add => "+"
  | .sub => "-"
  | .mul => "*"
  | .div => "/"

/-- The comparison operator as it is written. -/
def CompareOp.text : CompareOp → String
  | .gt => ">"
  | .lt => "<"
  | .ge => ">="
  | .le => "<="
  | .eq => "=="
  | .ne => "!="
  | .bang => "!"

/-- `_VALID_COMPARE_OPS`: every operator but the lone `!`. -/
def CompareOp.isValid (op : CompareOp) : Bool := op ≠ .bang

/-- The operators that state a value rather than a bound. -/
def CompareOp.isEquality (op : CompareOp) : Bool := op = .eq ∨ op = .ne

/-! ### Walking arithmetic -/

/-- `_collect_agg_calls`: the aggregation calls, left to right. -/
def ArithNode.aggCalls : ArithNode → List (AggFunc × String)
  | .aggCall func metric => [(func, metric)]
  | .arithOp _ left right => left.aggCalls ++ right.aggCalls
  | .numericLiteral _ => []

/-- `_has_agg_call`. -/
def ArithNode.hasAggCall : ArithNode → Bool
  | .aggCall _ _ => true
  | .arithOp _ left right => left.hasAggCall || right.hasAggCall
  | .numericLiteral _ => false

/-- `_has_division`. -/
def ArithNode.hasDivision : ArithNode → Bool
  | .arithOp op left right => op = .div || left.hasDivision || right.hasDivision
  | _ => false

/-- `_has_self_div`: some quotient has one and the same aggregation on both sides. -/
def ArithNode.hasSelfDiv : ArithNode → Bool
  | .arithOp op left right =>
    (op = .div && left.aggCalls.any fun call => right.aggCalls.contains call)
      || left.hasSelfDiv || right.hasSelfDiv
  | _ => false

/-- `_has_div_by_zero_constant`: some quotient has the literal zero below. -/
def ArithNode.hasDivByZeroConstant : ArithNode → Bool
  | .arithOp op left right =>
    (op = .div && right = .numericLiteral 0)
      || left.hasDivByZeroConstant || right.hasDivByZeroConstant
  | _ => false

/-! ### Walking expressions -/

/-- The conditions of an expression, left to right. -/
def Ast.leaves : Ast → List Ast
  | .comparison left op right => [.comparison left op right]
  | .keyComparison key op value => [.keyComparison key op value]
  | .changed identifier => [.changed identifier]
  | .inList identifier values negated => [.inList identifier values negated]
  | .boolOp _ left right => left.leaves ++ right.leaves

theorem Ast.leaves_of_mem {ast leaf : Ast} (h : leaf ∈ ast.leaves) : leaf.leaves = [leaf] := by
  induction ast with
  | boolOp op left right ihl ihr =>
    rw [leaves, List.mem_append] at h
    exact h.elim ihl ihr
  | comparison | keyComparison | changed | inList =>
    simp only [leaves, List.mem_singleton] at h
    simp only [h, leaves]

theorem Ast.leaves_ne_nil (ast : Ast) : ast.leaves ≠ [] := by
  induction ast with
  | boolOp op left right ihl _ => simp [leaves, ihl]
  | comparison | keyComparison | changed | inList => simp [leaves]

end MonCTL.Dsl
