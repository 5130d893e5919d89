import Mathlib.Data.Nat.Log
import MonCTL.Dsl.Parser

/-!
# The Alert Expression Language: Printer

`_ast_to_string` writes a syntax tree back as text, and `invert_expression` writes the tree
of an expression with every comparison inverted. The printer sets no parentheses, quotes every
text with apostrophes, and writes a number as Python does: small fractions in scientific
notation, which the tokenizer does not know.

As in the syntax trees, numbers are exact: the text of a number has all its decimals. Python
prints the shortest text that rounds to the same double, so the two agree on every number of
at most fifteen digits.
-/

namespace MonCTL.Dsl

/-! ### Numbers -/

/-- The least number of decimals that a number needs. -/
def decimalPlaces (q : ℚ) : ℕ :=
  ((List.range (Nat.log 2 q.den + 1)).find? fun k => q.den ∣ 10 ^ k).getD 0

/-- The number with its point removed. -/
def unscaled (q : ℚ) : ℕ := (|q| * 10 ^ decimalPlaces q).num.toNat

/-- The digits of a number, with at least one more than there are decimals. -/
def paddedDigits (n places : ℕ) : List Char :=
  let digits := (toString n).toList
  List.replicate (places + 1 - digits.length) '0' ++ digits

/-- The number in positional notation. -/
def positional (n places : ℕ) : List Char :=
  let digits := paddedDigits n places
  digits.take (digits.length - places) ++ '.' :: digits.drop (digits.length - places)

/-- The mantissa of scientific notation. -/
def mantissa (n : ℕ) : List Char :=
  match (toString n).toList with
  | [] => []
  | [digit] => [digit]
  | digit :: fraction => digit :: '.' :: fraction

/-- The negated exponent of scientific notation, with at least two digits. -/
def negatedExponent (n places : ℕ) : List Char :=
  paddedDigits (places + 1 - (toString n).toList.length) 1

/-- A fraction that is printed in scientific notation. -/
def isSmall (q : ℚ) : Bool := q.den ≠ 1 ∧ |q| < 1 / 10000

/-- `str(int(v)) if v == int(v) else str(v)`. -/
def numberText (q : ℚ) : String :=
  if q.den = 1 then toString q.num
  else
    let sign := if q < 0 then ['-'] else []
    let digits :=
      if isSmall q then
        mantissa (unscaled q) ++ ['e', '-'] ++ negatedExponent (unscaled q) (decimalPlaces q)
      else positional (unscaled q) (decimalPlaces q)
    String.ofList (sign ++ digits)

/-! ### Printing -/

/-- `_arith_to_string`. -/
def arithToString : ArithNode → String
  | .aggCall func metric => func.text ++ "(" ++ metric ++ ")"
  | .numericLiteral value => numberText value
  | .arithOp op left right => arithToString left ++ " " ++ op.text ++ " " ++ arithToString right

/-- `_threshold_ref_to_string`. -/
def thresholdRefToString : ThresholdRef → String
  | .named name => name
  | .inline _ value => numberText value

/-- A text between apostrophes. -/
def quoted (value : String) : String := "'" ++ value ++ "'"

/-- The right side of a comparison. -/
def operandToString : Operand → String
  | .ref ref => thresholdRefToString ref
  | .text value => quoted value

/-- The connective as it is written. -/
def BoolOperator.text : BoolOperator → String
  | .and => "AND"
  | .or => "OR"

/-- `_ast_to_string`. -/
def astToString : Ast → String
  | .comparison left op right =>
    arithToString left ++ " " ++ op.text ++ " " ++ operandToString right
  | .keyComparison key op value => key ++ " " ++ op.text ++ " " ++ quoted value
  | .changed identifier => identifier ++ " CHANGED"
  | .inList identifier values negated =>
    identifier ++ " " ++ (if negated then "NOT IN" else "IN") ++ " (" ++
      ", ".intercalate (values.map quoted) ++ ")"
  | .boolOp op left right => astToString left ++ " " ++ op.text ++ " " ++ astToString right

/-! ### Inversion -/

/-- `_INVERT_OPS`. -/
def invertOp : CompareOp → Option CompareOp
  | .gt => some .le
  | .lt => some .ge
  | .ge => some .lt
  | .le => some .gt
  | .eq => some .ne
  | .ne => some .eq
  | .bang => none

/-- `_invert_ast`; nothing when it raises. -/
def invertAst : Ast → Option Ast
  | .comparison left op right => (invertOp op).map fun op => .comparison left op right
  | .keyComparison key op value => (invertOp op).map fun op => .keyComparison key op value
  | .changed _ => none
  | .inList identifier values negated => some (.inList identifier values (!negated))
  | .boolOp op left right =>
    (invertAst left).bind fun left => (invertAst right).map fun right => .boolOp op left right

/-- `invert_expression`; nothing when it raises. -/
def invertExpression (expression : String) : Option String :=
  match parse expression with
  | .ok ast => (invertAst ast).map astToString
  | .error _ => none

/-! ### The tokens of a printed tree -/

/-- The tokens of a printed number: scientific notation falls into four of them. -/
def numberTokens (q : ℚ) : List Token :=
  if isSmall q then
    [.number (String.ofList (mantissa (unscaled q))), .ident "e", .arith .sub,
      .number (String.ofList (negatedExponent (unscaled q) (decimalPlaces q)))]
  else [.number (numberText q)]

def ArithNode.tokens : ArithNode → List Token
  | .aggCall func metric => [.aggFunc func, .lparen, .ident metric, .rparen]
  | .numericLiteral value => numberTokens value
  | .arithOp op left right => left.tokens ++ .arith op :: right.tokens

/-- The tokens of a printed right side. -/
def Operand.tokens : Operand → List Token
  | .ref (.named name) => [.ident name]
  | .ref (.inline _ value) => numberTokens value
  | .text value => [.string value]

/-- The reserved word of a connective. -/
def BoolOperator.keyword : BoolOperator → Keyword
  | .and => .and
  | .or => .or

def valueTokens : List String → List Token
  | [] => []
  | [value] => [.string value]
  | value :: values => .string value :: .comma :: valueTokens values

/-- The tokens of a printed tree. -/
def Ast.tokens : Ast → List Token
  | .comparison left op right => left.tokens ++ .op op :: right.tokens
  | .keyComparison key op value => [.ident key, .op op, .string value]
  | .changed identifier => [.ident identifier, .keyword .changed]
  | .inList identifier values negated =>
    .ident identifier :: (if negated then [.keyword .not, .keyword .in] else [.keyword .in]) ++
      .lparen :: valueTokens values ++ [.rparen]
  | .boolOp op left right => left.tokens ++ .keyword op.keyword :: right.tokens

/-! ### Regrouping -/

/-- Whether an operator binds tighter than `+` and `-`. -/
def ArithOperator.isFactor (op : ArithOperator) : Bool := op = .mul ∨ op = .div

/-- Put an operand after an expression without parentheses: a factor goes to the last
summand. -/
def ArithNode.snoc (left : ArithNode) (op : ArithOperator) (atom : ArithNode) : ArithNode :=
  match left with
  | .arithOp op' left' right' =>
    if op.isFactor ∧ ¬op'.isFactor then .arithOp op' left' (.arithOp op right' atom)
    else .arithOp op left atom
  | _ => .arithOp op left atom

/-- The first operand of an expression, and the others with their operators. -/
def ArithNode.operands : ArithNode → ArithNode × List (ArithOperator × ArithNode)
  | .arithOp op left right =>
    (left.operands.1, left.operands.2 ++ (op, right.operands.1) :: right.operands.2)
  | node => (node, [])

/-- The arithmetic with its parentheses dropped, as precedence groups it. -/
def ArithNode.regroup (node : ArithNode) : ArithNode :=
  node.operands.2.foldl (fun left operand => left.snoc operand.1 operand.2) node.operands.1

/-- The first condition of an expression, and the others with their connectives. -/
def Ast.conditions : Ast → Ast × List (BoolOperator × Ast)
  | .boolOp op left right =>
    (left.conditions.1, left.conditions.2 ++ (op, right.conditions.1) :: right.conditions.2)
  | .comparison left op right => (.comparison left.regroup op right, [])
  | leaf => (leaf, [])

/-- The tree with its parentheses dropped: conditions associate to the left. -/
def Ast.regroup (ast : Ast) : Ast :=
  ast.conditions.2.foldl (fun left condition => .boolOp condition.1 left condition.2)
    ast.conditions.1

end MonCTL.Dsl
