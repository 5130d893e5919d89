import MonCTL.Dsl.PrintedText

/-!
# The Alert Expression Language: Grammar

Which texts are expressions, and with which tree, said without a parser. The grammar stands in
the header of the source: conditions joined by `AND` and `OR` on one level, comparisons of
arithmetic with a threshold, `*` and `/` before `+` and `-`. Every level is left-recursive, so
operators associate to the left.

A text is a row of tokens and blanks, each token as long as it can be. How it falls into tokens
is part of the derivation: where a number may carry a sign, `-5` is one token or two, and the
grammar decides.

The header and the parser do not agree on everything. `Dialect` lists what they differ on, so
that one grammar serves for both.
-/

namespace MonCTL.Dsl

/-! ### Accounts -/

/-- What a tree takes to be read: how many more values than connections, room for
apostrophes, aggregations, operators and inline thresholds. -/
structure Cost where
  balance : ℤ
  room : ℕ
  aggs : ℕ
  ariths : ℕ
  thresholds : ℕ

instance : Zero Cost := ⟨⟨0, 0, 0, 0, 0⟩⟩

instance : Add Cost :=
  ⟨fun c d => ⟨c.balance + d.balance, c.room + d.room, c.aggs + d.aggs, c.ariths + d.ariths,
    c.thresholds + d.thresholds⟩⟩

/-- What arithmetic takes. -/
def ArithNode.cost : ArithNode → Cost
  | .aggCall _ _ => ⟨1, 0, 1, 0, 0⟩
  | .numericLiteral _ => ⟨1, 0, 0, 0, 0⟩
  | .arithOp _ left right => left.cost + ⟨-1, 0, 0, 1, 0⟩ + right.cost

/-- What the right side of a comparison takes. -/
def Operand.cost : Operand → Cost
  | .ref (.named _) => ⟨1, 0, 0, 0, 0⟩
  | .ref (.inline _ _) => ⟨1, 0, 0, 0, 1⟩
  | .text value => ⟨1, apostropheRoom value, 0, 0, 0⟩

/-- What an expression takes. -/
def Ast.cost : Ast → Cost
  | .comparison left _ right => left.cost + ⟨-1, 0, 0, 0, 0⟩ + right.cost
  | .keyComparison _ _ value => ⟨1, apostropheRoom value, 0, 0, 0⟩
  | .changed _ => ⟨1, 0, 0, 0, 0⟩
  | .inList _ values _ => ⟨1, (values.map apostropheRoom).sum, 0, 0, 0⟩
  | .boolOp _ left right => left.cost + ⟨-1, 0, 0, 0, 0⟩ + right.cost

@[simp] theorem Cost.zero_fields : (0 : Cost) = ⟨0, 0, 0, 0, 0⟩ := rfl

@[simp] theorem Cost.add_fields (c d : Cost) : c + d = ⟨c.balance + d.balance, c.room + d.room,
    c.aggs + d.aggs, c.ariths + d.ariths, c.thresholds + d.thresholds⟩ := rfl

theorem Cost.add_zero (c : Cost) : c + 0 = c := by simp

theorem Cost.zero_add (c : Cost) : 0 + c = c := by simp

theorem Cost.add_assoc (b c d : Cost) : b + c + d = b + (c + d) := by
  simp [Nat.add_assoc, Int.add_assoc]

/-- The inline thresholds of an expression are named after their places, the first of them
being number `i`. -/
def Ast.Indexed : Ast → ℕ → Prop
  | .comparison left _ (.ref (.inline name _)), i => name = autoThresholdName left i
  | .boolOp _ left right, i => left.Indexed i ∧ right.Indexed (i + left.cost.thresholds)
  | _, _ => True

/-! ### Dialects -/

/-- What one reading of the grammar has and another has not. -/
structure Dialect where
  /-- A number may carry a minus sign. -/
  signed : Bool
  /-- A name may be compared with a threshold. -/
  bareNames : Bool
  /-- Arithmetic may be compared with a text. -/
  texts : Bool
  /-- A lone `!` is a comparison operator. -/
  loneBang : Bool

/-- **The grammar in the header of the source**, with the tokenizer's patterns for names,
numbers and texts. -/
def header : Dialect := ⟨true, false, false, false⟩

/-- **The grammar by design**: the header, and the comparisons that the parser adds on purpose. -/
def designed : Dialect := ⟨true, true, true, false⟩

/-- **The grammar of what is accepted.** The tokenizer reads every minus sign as an operator,
and a lone `!` as a comparison. -/
def accepted : Dialect := ⟨false, true, true, true⟩

/-- The same grammar without signed numbers. -/
def Dialect.unsigned (G : Dialect) : Dialect := { G with signed := false }

/-! ### Tokens -/

/-- How a token is written. -/
inductive Spelling (G : Dialect) : List Char → Token → Prop
  | lparen : Spelling G ['('] .lparen
  | rparen : Spelling G [')'] .rparen
  | comma : Spelling G [','] .comma
  | op (op : CompareOp) : Spelling G op.text.toList (.op op)
  | arith (op : ArithOperator) : Spelling G op.text.toList (.arith op)
  | number {digits : List Char} : IsNumber digits →
      Spelling G digits (.number (String.ofList digits))
  | negative {digits : List Char} : G.signed = true → IsNumber digits →
      Spelling G ('-' :: digits) (.number (String.ofList ('-' :: digits)))
  | string {quote : Char} {value : List Char} : quote = '\'' ∨ quote = '"' → quote ∉ value →
      Spelling G (quote :: (value ++ [quote])) (.string (String.ofList value))
  | word {word : List Char} : isSafeIdent word = true → Spelling G word (classifyWord word)

/-- A token is as long as it can be, given what follows. -/
def Token.EndsAt : Token → List Char → Prop
  | .number _, rest => EndsNumber rest
  | .op .gt, rest | .op .lt, rest | .op .bang, rest => rest.head? ≠ some '='
  | .keyword _, rest | .aggFunc _, rest | .ident _, rest => EndsWord rest
  | _, _ => True

/-- **The text is spelled by the tokens**, with blanks between them. -/
inductive Spells (G : Dialect) : List Char → List Token → Prop
  | nil : Spells G [] []
  | blank {c : Char} {rest : List Char} {tokens : List Token} : isBlank c = true →
      Spells G rest tokens → Spells G (c :: rest) tokens
  | token {chars rest : List Char} {token : Token} {tokens : List Token} :
      Spelling G chars token → token.EndsAt rest → Spells G rest tokens →
      Spells G (chars ++ rest) (token :: tokens)

def signedValue (digits : String) : ℚ :=
  match digits.toList with
  | '-' :: cs => -numberValue (String.ofList cs)
  | _ => numberValue digits

def Dialect.valueOf (G : Dialect) (digits : String) : ℚ :=
  if G.signed then signedValue digits else numberValue digits

/-! ### Arithmetic -/

/-- The three levels of arithmetic. -/
inductive ArithSort
  | expr | term | atom

/-- **The productions of arithmetic**: the tokens are derived on a level, with parentheses
nested at most so deep, and give the tree. -/
inductive DerivesArith (G : Dialect) : ArithSort → ℕ → List Token → ArithNode → Prop
  | aggCall {d : ℕ} {func : AggFunc} {metric : String} :
      metric.toList.length ≤ identifierMaxLength →
      DerivesArith G .atom d [.aggFunc func, .lparen, .ident metric, .rparen] (.aggCall func metric)
  | number {d : ℕ} {digits : String} :
      DerivesArith G .atom d [.number digits] (.numericLiteral (G.valueOf digits))
  | group {d : ℕ} {tokens : List Token} {node : ArithNode} : DerivesArith G .expr d tokens node →
      DerivesArith G .atom (d + 1) (.lparen :: (tokens ++ [.rparen])) node
  | ofAtom {d : ℕ} {tokens : List Token} {node : ArithNode} :
      DerivesArith G .atom d tokens node → DerivesArith G .term d tokens node
  | factor {d : ℕ} {tokens tokens' : List Token} {op : ArithOperator} {left right : ArithNode} :
      op.isFactor = true → DerivesArith G .term d tokens left →
      DerivesArith G .atom d tokens' right →
      DerivesArith G .term d (tokens ++ .arith op :: tokens') (.arithOp op left right)
  | ofTerm {d : ℕ} {tokens : List Token} {node : ArithNode} :
      DerivesArith G .term d tokens node → DerivesArith G .expr d tokens node
  | summand {d : ℕ} {tokens tokens' : List Token} {op : ArithOperator} {left right : ArithNode} :
      op.isFactor = false → DerivesArith G .expr d tokens left →
      DerivesArith G .term d tokens' right →
      DerivesArith G .expr d (tokens ++ .arith op :: tokens') (.arithOp op left right)

/-! ### Conditions -/

/-- The two levels of expressions. -/
inductive AstSort
  | expression | condition

def Dialect.IsOperator (G : Dialect) (op : CompareOp) : Prop := op = .bang → G.loneBang = true

/-- A threshold: a number, under a name of its own, or the name of one. -/
inductive DerivesThreshold (G : Dialect) : Token → Operand → Prop
  | number {digits name : String} :
      DerivesThreshold G (.number digits) (.ref (.inline name (G.valueOf digits)))
  | ident {name : String} : DerivesThreshold G (.ident name) (.ref (.named name))

/-- A value of a list: a text, or a number as it is written. -/
inductive DerivesValue : Token → String → Prop
  | string {value : String} : DerivesValue (.string value) value
  | number {digits : String} : DerivesValue (.number digits) digits

/-- Values with commas between them. -/
inductive DerivesValues : List Token → List String → Prop
  | one {t : Token} {value : String} : DerivesValue t value → DerivesValues [t] [value]
  | cons {t : Token} {value : String} {tokens : List Token} {values : List String} :
      DerivesValue t value → DerivesValues tokens values →
      DerivesValues (t :: .comma :: tokens) (value :: values)

/-- **The productions of expressions.** The names of inline thresholds are left open here. -/
inductive DerivesAst (G : Dialect) : AstSort → ℕ → List Token → Ast → Prop
  | comparison {d : ℕ} {tokens : List Token} {left : ArithNode} {op : CompareOp} {t : Token}
      {right : Operand} : DerivesArith G .expr d tokens left → G.IsOperator op →
      DerivesThreshold G t right →
      DerivesAst G .condition d (tokens ++ [.op op, t]) (.comparison left op right)
  | textComparison {d : ℕ} {tokens : List Token} {left : ArithNode} {op : CompareOp}
      {value : String} : G.texts = true → DerivesArith G .expr d tokens left → G.IsOperator op →
      DerivesAst G .condition d (tokens ++ [.op op, .string value])
        (.comparison left op (.text value))
  | changed {d : ℕ} {name : String} : name.toList.length ≤ identifierMaxLength →
      DerivesAst G .condition d [.ident name, .keyword .changed] (.changed name)
  | inList {d : ℕ} {name : String} {tokens : List Token} {values : List String} :
      name.toList.length ≤ identifierMaxLength → DerivesValues tokens values →
      DerivesAst G .condition d (.ident name :: .keyword .in :: .lparen :: (tokens ++ [.rparen]))
        (.inList name values false)
  | notInList {d : ℕ} {name : String} {tokens : List Token} {values : List String} :
      name.toList.length ≤ identifierMaxLength → DerivesValues tokens values →
      DerivesAst G .condition d
        (.ident name :: .keyword .not :: .keyword .in :: .lparen :: (tokens ++ [.rparen]))
        (.inList name values true)
  | keyComparison {d : ℕ} {name : String} {op : CompareOp} {value : String} :
      name.toList.length ≤ identifierMaxLength → G.IsOperator op →
      DerivesAst G .condition d [.ident name, .op op, .string value] (.keyComparison name op value)
  | bareComparison {d : ℕ} {name : String} {op : CompareOp} {t : Token} {right : Operand} :
      G.bareNames = true → name.toList.length ≤ identifierMaxLength → G.IsOperator op →
      DerivesThreshold G t right →
      DerivesAst G .condition d [.ident name, .op op, t]
        (.comparison (.aggCall .last name) op right)
  | group {d : ℕ} {tokens : List Token} {ast : Ast} : DerivesAst G .expression d tokens ast →
      DerivesAst G .condition (d + 1) (.lparen :: (tokens ++ [.rparen])) ast
  | ofCondition {d : ℕ} {tokens : List Token} {ast : Ast} :
      DerivesAst G .condition d tokens ast → DerivesAst G .expression d tokens ast
  | boolOp {d : ℕ} {tokens tokens' : List Token} {op : BoolOperator} {left right : Ast} :
      DerivesAst G .expression d tokens left → DerivesAst G .condition d tokens' right →
      DerivesAst G .expression d (tokens ++ .keyword op.keyword :: tokens') (.boolOp op left right)

/-! ### Expressions -/

/-- **An expression and its tree**: the text, without the blanks around it, is spelled by tokens
from which the tree is derived. Each aggregation and each operator of the tree counts once
against the limits, and the inline thresholds are numbered from the left. -/
structure Derives (G : Dialect) (expression : String) (ast : Ast) : Prop where
  length : (strip expression.toList).length ≤ maxExpressionLength
  tokens : ∃ tokens, Spells G (strip expression.toList) tokens ∧ tokens.length ≤ maxTokenCount ∧
    DerivesAst G .expression maxNestingDepth tokens ast
  indexed : ast.Indexed 0
  aggs : ast.cost.aggs ≤ maxAggCalls
  ariths : ast.cost.ariths ≤ maxArithOps

/-- The comparison operators of an expression. -/
def Ast.compareOps : Ast → List CompareOp
  | .comparison _ op _ => [op]
  | .keyComparison _ op _ => [op]
  | .changed _ => []
  | .inList _ _ _ => []
  | .boolOp _ left right => left.compareOps ++ right.compareOps

/-- The parser accepts the expressions of the grammar, each with its tree, and no others. -/
def AcceptsExactly (G : Dialect) : Prop :=
  ∀ (expression : String) (ast : Ast), parse expression = .ok ast ↔ Derives G expression ast

end MonCTL.Dsl
