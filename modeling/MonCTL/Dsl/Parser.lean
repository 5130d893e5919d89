import Mathlib.Algebra.Field.Rat
import MonCTL.Dsl.Tokenizer

/-!
# The Alert Expression Language: Parser

The recursive-descent parser `_Parser`, as a state over the tokens that are left and the
counters of the limits.

`AND` and `OR` share one level and associate to the left; `*` and `/` bind tighter than
`+` and `-`. An opening parenthesis is tried as the start of an arithmetic comparison
first, and taken as boolean grouping when that fails.

The functions recurse on fuel. Running out of it is a failure of its own, which nothing
catches, and `parseTokens` supplies enough for it never to happen.
-/

namespace MonCTL.Dsl

/-! ### Limits -/

def maxExpressionLength : ℕ := 2000
def maxTokenCount : ℕ := 200
def maxNestingDepth : ℕ := 10
def maxAggCalls : ℕ := 20
def maxArithOps : ℕ := 30
def identifierMaxLength : ℕ := 100

/-! ### The parser's state -/

/-- Why a parse stopped: an error of the language, or no more fuel. -/
inductive ParseFailure
  | error (e : ParseError)
  | outOfFuel
  deriving DecidableEq

/-- The tokens left, and the counters. `thresholdIndex` numbers the inline thresholds. -/
structure ParserState where
  tokens : List Token
  depth : ℕ
  aggCount : ℕ
  arithCount : ℕ
  thresholdIndex : ℕ

abbrev Parser := StateT ParserState (Except ParseFailure)

def fail {α : Type} (message : String) : Parser α := throw (.error ⟨message⟩)

/-- Give up for lack of fuel. -/
def outOfFuel {α : Type} : Parser α := throw .outOfFuel

/-- `peek`. -/
def peek : Parser (Option Token) := return (← get).tokens.head?

/-- `consume` of a token just peeked at. -/
def advance : Parser Unit := modify fun s => { s with tokens := s.tokens.tail }

/-- `consume` with an expected group, and what is read of the token. -/
def consume {α : Type} (group : String) (read : Token → Option α) : Parser α := do
  match (← get).tokens with
  | [] => fail "Unexpected end of expression"
  | token :: _ =>
    match read token with
    | some a => do
        advance
        return a
    | none => fail s!"Expected {group}, got {token.group} ('{token.text}')"

/-- `consume("LPAREN")`. -/
def consumeLparen : Parser Unit := consume "LPAREN" fun t => if t = .lparen then some () else none

/-- `consume("RPAREN")`. -/
def consumeRparen : Parser Unit := consume "RPAREN" fun t => if t = .rparen then some () else none

/-- `consume("OP")`. -/
def consumeOp : Parser CompareOp :=
  consume "OP" fun t => match t with | .op o => some o | _ => none

/-- `consume("AGG_FUNC")`. -/
def consumeAggFunc : Parser AggFunc :=
  consume "AGG_FUNC" fun t => match t with | .aggFunc f => some f | _ => none

/-- `consume("IDENT")`. -/
def consumeIdent : Parser String :=
  consume "IDENT" fun t => match t with | .ident name => some name | _ => none

/-- `_enter_depth`. -/
def enterDepth : Parser Unit := do
  modify fun s => { s with depth := s.depth + 1 }
  if (← get).depth > maxNestingDepth then
    fail s!"Maximum nesting depth ({maxNestingDepth}) exceeded"

/-- `_exit_depth`. -/
def exitDepth : Parser Unit := modify fun s => { s with depth := s.depth - 1 }

/-- `_count_agg`. -/
def countAgg : Parser Unit := do
  modify fun s => { s with aggCount := s.aggCount + 1 }
  if (← get).aggCount > maxAggCalls then
    fail s!"Maximum aggregation calls ({maxAggCalls}) exceeded"

/-- `_count_arith`. -/
def countArith : Parser Unit := do
  modify fun s => { s with arithCount := s.arithCount + 1 }
  if (← get).arithCount > maxArithOps then
    fail s!"Maximum arithmetic operations ({maxArithOps}) exceeded"

/-! ### Numbers, names, thresholds -/

/-- The number a string of digits denotes. -/
def digitsValue (cs : List Char) : ℕ := cs.foldl (fun n c => 10 * n + (c.toNat - '0'.toNat)) 0

/-- `float` of a number token. -/
def numberValue (digits : String) : ℚ :=
  let whole := digits.toList.takeWhile isDigit
  let fraction := (digits.toList.drop whole.length).drop 1
  (digitsValue (whole ++ fraction) : ℚ) / 10 ^ fraction.length

/-- The first 20 characters of an identifier, for the message about its length. -/
def identifierHead (name : String) : String := String.ofList (name.toList.take 20)

def checkIdentifierLength (name : String) : Parser Unit :=
  if name.toList.length > identifierMaxLength then
    fail s!"Identifier '{identifierHead name}...' exceeds max length ({identifierMaxLength})"
  else
    return ()

/-- `_auto_threshold_name`: an inline threshold is named after the metric it bounds, or
after its number when the left side is not a single aggregation. -/
def autoThresholdName : ArithNode → ℕ → String
  | .aggCall _ metric, _ => s!"{metric}_threshold"
  | _, index => s!"_expr_{index}_threshold"

/-- `_parse_threshold_ref`. -/
def parseThresholdRef (left : ArithNode) : Parser Operand := do
  match ← peek with
  | none => fail "Expected threshold value"
  | some (.number digits) => do
      advance
      let index := (← get).thresholdIndex
      modify fun s => { s with thresholdIndex := s.thresholdIndex + 1 }
      return .ref (.inline (autoThresholdName left index) (numberValue digits))
  | some (.ident name) => do
      advance
      return .ref (.named name)
  | some (.string value) => do
      advance
      return .text value
  | some token => fail s!"Expected number, identifier, or string, got '{token.text}'"

/-- `_parse_value`, where a number cannot stand (the caller has looked). -/
def parseValue : Parser String := do
  match ← peek with
  | none => fail "Expected value"
  | some (.string value) => do
      advance
      return value
  | some token => fail s!"Expected number or string, got '{token.text}'"

/-- An element of a value list: a text, or the digits of a number. -/
def parseListValue (message : String) : Parser String := do
  match ← peek with
  | some (.string value) => do
      advance
      return value
  | some (.number digits) => do
      advance
      return digits
  | _ => fail message

/-- The loop of `_parse_value_list`. -/
def parseValueListRest : ℕ → List String → Parser (List String)
  | 0, _ => outOfFuel
  | fuel + 1, values => do
      match ← peek with
      | some .comma => do
          advance
          let value ← parseListValue "Expected value after comma in IN list"
          parseValueListRest fuel (values ++ [value])
      | _ => return values

/-- `_parse_value_list`. -/
def parseValueList (fuel : ℕ) : Parser (List String) := do
  let value ← parseListValue "Expected value in IN list"
  parseValueListRest fuel [value]

/-! ### Arithmetic -/

/-- `_parse_agg_call`. -/
def parseAggCall : Parser ArithNode := do
  let func ← consumeAggFunc
  consumeLparen
  match ← peek with
  | some (.ident _) => do
      let metric ← consumeIdent
      checkIdentifierLength metric
      consumeRparen
      countAgg
      return .aggCall func metric
  | _ => fail "Expected metric name inside aggregation function"

mutual

/-- `_parse_arith_expr`. -/
def parseArithExpr : ℕ → Parser ArithNode
  | 0 => outOfFuel
  | fuel + 1 => do
      let left ← parseArithTerm fuel
      parseArithExprRest fuel left

/-- The loop of `_parse_arith_expr`. -/
def parseArithExprRest : ℕ → ArithNode → Parser ArithNode
  | 0, _ => outOfFuel
  | fuel + 1, left => do
      match ← peek with
      | some (.arith o) =>
        if o = .add ∨ o = .sub then do
          countArith
          advance
          let right ← parseArithTerm fuel
          parseArithExprRest fuel (.arithOp o left right)
        else
          return left
      | _ => return left

/-- `_parse_arith_term`. -/
def parseArithTerm : ℕ → Parser ArithNode
  | 0 => outOfFuel
  | fuel + 1 => do
      let left ← parseArithAtom fuel
      parseArithTermRest fuel left

/-- The loop of `_parse_arith_term`. -/
def parseArithTermRest : ℕ → ArithNode → Parser ArithNode
  | 0, _ => outOfFuel
  | fuel + 1, left => do
      match ← peek with
      | some (.arith o) =>
        if o = .mul ∨ o = .div then do
          countArith
          advance
          let right ← parseArithAtom fuel
          parseArithTermRest fuel (.arithOp o left right)
        else
          return left
      | _ => return left

/-- `_parse_arith_atom`. -/
def parseArithAtom : ℕ → Parser ArithNode
  | 0 => outOfFuel
  | fuel + 1 => do
      match ← peek with
      | none => fail "Expected arithmetic operand, got end of expression"
      | some (.aggFunc _) => parseAggCall
      | some (.number digits) => do
          advance
          return .numericLiteral (numberValue digits)
      | some .lparen => do
          enterDepth
          advance
          let expr ← parseArithExpr fuel
          consumeRparen
          exitDepth
          return expr
      | some token => fail s!"Expected aggregation, number, or '(', got '{token.text}'"

end

/-- `_parse_arith_comparison`. -/
def parseArithComparison (fuel : ℕ) : Parser Ast := do
  let arith ← parseArithExpr fuel
  let op ← consumeOp
  let right ← parseThresholdRef arith
  return .comparison arith op right

/-! ### Conditions -/

/-- The part of `_parse_ident_condition` after an operator: a number or an identifier on
the right promotes the bare left side to `last(…)`. -/
def parseIdentComparison (ident : String) (op : CompareOp) : Parser Ast := do
  match ← peek with
  | some (.number _) | some (.ident _) => do
      countAgg
      let right ← parseThresholdRef (.aggCall .last ident)
      return .comparison (.aggCall .last ident) op right
  | _ => do
      let value ← parseValue
      return .keyComparison ident op value

/-- `IN` with its list of values. -/
def parseInList (fuel : ℕ) (ident : String) (negated : Bool) : Parser Ast := do
  consumeLparen
  let values ← parseValueList fuel
  consumeRparen
  return .inList ident values negated

/-- `_parse_ident_condition`. -/
def parseIdentCondition (fuel : ℕ) : Parser Ast := do
  let ident ← consumeIdent
  checkIdentifierLength ident
  match ← peek with
  | some (.keyword .changed) => do
      advance
      return .changed ident
  | some (.keyword .not) => do
      advance
      match ← peek with
      | some (.keyword .in) => do
          advance
          parseInList fuel ident true
      | some token => fail s!"Expected 'IN' after 'NOT', got '{token.text}'"
      | none => fail "Expected 'IN' after 'NOT', got 'end'"
  | some (.keyword .in) => do
      advance
      parseInList fuel ident false
  | some (.op o) => do
      advance
      parseIdentComparison ident o
  | _ => fail s!"Expected operator after '{ident}'"

/-- `try … except ParseError`: the second parser starts from the state of the first. (The
source restores every counter but that of the inline thresholds, which a failed
comparison has not advanced.) -/
def orElseOnError {α : Type} (first second : Parser α) : Parser α := fun s =>
  match first s with
  | .error (.error _) => second s
  | r => r

mutual

/-- `_parse_expression`. -/
def parseExpression : ℕ → Parser Ast
  | 0 => outOfFuel
  | fuel + 1 => do
      let left ← parseCondition fuel
      parseExpressionRest fuel left

/-- The loop of `_parse_expression`. -/
def parseExpressionRest : ℕ → Ast → Parser Ast
  | 0, _ => outOfFuel
  | fuel + 1, left => do
      match ← peek with
      | some (.keyword .and) => do
          advance
          let right ← parseCondition fuel
          parseExpressionRest fuel (.boolOp .and left right)
      | some (.keyword .or) => do
          advance
          let right ← parseCondition fuel
          parseExpressionRest fuel (.boolOp .or left right)
      | _ => return left

/-- `_parse_condition`. -/
def parseCondition : ℕ → Parser Ast
  | 0 => outOfFuel
  | fuel + 1 => do
      match ← peek with
      | none => fail "Expected condition, got end of expression"
      | some .lparen => orElseOnError (parseArithComparison fuel) (do
          enterDepth
          advance
          let node ← parseExpression fuel
          consumeRparen
          exitDepth
          return node)
      | some (.ident _) => parseIdentCondition fuel
      | some (.aggFunc _) | some (.number _) => parseArithComparison fuel
      | some token => fail s!"Unexpected token: '{token.text}'"

end

/-! ### Entry points -/

/-- `_Parser(tokens).parse()`. -/
def parseTokens (tokens : List Token) : Except ParseFailure Ast := do
  let (node, s) ← parseExpression (4 * tokens.length + 5) ⟨tokens, 0, 0, 0, 0⟩
  match s.tokens with
  | [] => return node
  | token :: _ => throw (.error ⟨s!"Unexpected token: '{token.text}'"⟩)

/-- The characters `str.strip` removes. -/
def isUnicodeBlank (c : Char) : Bool :=
  let n := c.toNat
  (9 ≤ n && n ≤ 13) || (28 ≤ n && n ≤ 32) || n = 0x85 || n = 0xA0 || n = 0x1680
    || (0x2000 ≤ n && n ≤ 0x200A) || n = 0x2028 || n = 0x2029 || n = 0x202F || n = 0x205F
    || n = 0x3000

/-- `str.strip`. -/
def strip (cs : List Char) : List Char :=
  ((cs.dropWhile isUnicodeBlank).reverse.dropWhile isUnicodeBlank).reverse

/-- `parse_expression`. -/
def parse (expression : String) : Except ParseFailure Ast := do
  let expr := strip expression.toList
  if expr = [] then
    throw (.error ⟨"Empty expression"⟩)
  if expr.length > maxExpressionLength then
    throw (.error ⟨s!"Expression exceeds maximum length ({maxExpressionLength} characters)"⟩)
  match tokenize expr with
  | .error e => throw (.error e)
  | .ok tokens => do
      if tokens = [] then
        throw (.error ⟨"Empty expression"⟩)
      if tokens.length > maxTokenCount then
        throw (.error ⟨s!"Expression exceeds maximum token count ({maxTokenCount})"⟩)
      parseTokens tokens

end MonCTL.Dsl
