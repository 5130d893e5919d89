import Mathlib.Data.List.TakeWhile
import MonCTL.Dsl.Ast

/-!
# The Alert Expression Language: Tokenizer

`_tokenize` matches one regular expression at each position and keeps the alternative that
matches first, in the order in which the pattern lists them. A sign is an arithmetic
operator wherever it stands, since that alternative precedes the numbers, so a number
token never carries one.

The pattern is ASCII-only: letters, digits and blanks are the ASCII ones.
-/

namespace MonCTL.Dsl

open List

/-- A parse or compile error, with the message it shows. -/
structure ParseError where
  message : String
  deriving DecidableEq

/-- The reserved words. -/
inductive Keyword
  | and | or | in | not | changed
  deriving DecidableEq

/-- The reserved word as the tokenizer stores it, in upper case. -/
def Keyword.text : Keyword → String
  | .and => "AND"
  | .or => "OR"
  | .in => "IN"
  | .not => "NOT"
  | .changed => "CHANGED"

/-- A token, with the text the parser reads from it. -/
inductive Token
  | lparen
  | rparen
  | comma
  | op (o : CompareOp)
  | arith (o : ArithOperator)
  | number (digits : String)
  | string (value : String)
  | keyword (word : Keyword)
  | aggFunc (f : AggFunc)
  | ident (name : String)
  deriving DecidableEq

/-- The name of the token's group, as error messages show it. -/
def Token.group : Token → String
  | .lparen => "LPAREN"
  | .rparen => "RPAREN"
  | .comma => "COMMA"
  | .op _ => "OP"
  | .arith _ => "ARITH"
  | .number _ => "NUMBER"
  | .string _ => "STRING"
  | .keyword _ => "KEYWORD"
  | .aggFunc _ => "AGG_FUNC"
  | .ident _ => "IDENT"

/-- The token's text, as error messages show it. -/
def Token.text : Token → String
  | .lparen => "("
  | .rparen => ")"
  | .comma => ","
  | .op o => o.text
  | .arith o => o.text
  | .number digits => digits
  | .string value => value
  | .keyword word => word.text
  | .aggFunc f => f.text
  | .ident name => name

/-! ### Character classes -/

/-- `\d`, ASCII. -/
def isDigit (c : Char) : Bool := '0' ≤ c && c ≤ '9'

/-- `[A-Za-z_]`. -/
def isWordStart (c : Char) : Bool :=
  ('A' ≤ c && c ≤ 'Z') || ('a' ≤ c && c ≤ 'z') || c = '_'

/-- `[A-Za-z0-9_]`. -/
def isWordChar (c : Char) : Bool := isWordStart c || isDigit c

/-- `\s`, ASCII: blank, tab, newline, carriage return, form feed, vertical tab. -/
def isBlank (c : Char) : Bool :=
  c = ' ' || c = '\t' || c = '\n' || c = '\r' || c.toNat = 0x0B || c.toNat = 0x0C

/-! ### Lexemes -/

/-- The characters of a word in upper case, for the look-up of the reserved words. -/
def upper (word : List Char) : List Char := word.map Char.toUpper

/-- The characters of a word in lower case, for the look-up of the functions. -/
def lower (word : List Char) : List Char := word.map Char.toLower

/-- `_KEYWORDS`. -/
def keywords : List Keyword := [.and, .or, .in, .not, .changed]

/-- `_AGG_FUNCS`. -/
def aggFuncs : List AggFunc := [.avg, .max, .min, .sum, .count, .last, .rate]

/-- A word is a reserved word, a function name, or an identifier, in this order; the
first two are recognised in any case. -/
def classifyWord (word : List Char) : Token :=
  match keywords.find? fun k => upper word = k.text.toList with
  | some k => .keyword k
  | none =>
    match aggFuncs.find? fun f => lower word = f.text.toList with
    | some f => .aggFunc f
    | none => .ident (String.ofList word)

/-- `\d+(?:\.\d+)?`: the fraction belongs to the number only when a digit follows the
point. -/
def spanNumber (cs : List Char) : List Char :=
  let whole := cs.takeWhile isDigit
  match cs.drop whole.length with
  | '.' :: rest =>
    match rest.takeWhile isDigit with
    | [] => whole
    | fraction => whole ++ '.' :: fraction
  | _ => whole

/-- The text between the opening quote just read and the next quote of its kind; `none`
when there is no such quote. -/
def spanString (quote : Char) (cs : List Char) : Option (List Char) :=
  let value := cs.takeWhile (· ≠ quote)
  if value.length < cs.length then some value else none

/-- The alternative that matches at the head of the text: its token, absent for blanks,
and the number of characters it takes. -/
def lexeme : List Char → Option (Option Token × ℕ)
  | [] => none
  | '(' :: _ => some (some .lparen, 1)
  | ')' :: _ => some (some .rparen, 1)
  | ',' :: _ => some (some .comma, 1)
  | '>' :: '=' :: _ => some (some (.op .ge), 2)
  | '>' :: _ => some (some (.op .gt), 1)
  | '<' :: '=' :: _ => some (some (.op .le), 2)
  | '<' :: _ => some (some (.op .lt), 1)
  | '!' :: '=' :: _ => some (some (.op .ne), 2)
  | '!' :: _ => some (some (.op .bang), 1)
  | '=' :: '=' :: _ => some (some (.op .eq), 2)
  | '+' :: _ => some (some (.arith .add), 1)
  | '-' :: _ => some (some (.arith .sub), 1)
  | '*' :: _ => some (some (.arith .mul), 1)
  | '/' :: _ => some (some (.arith .div), 1)
  | c :: cs =>
    if isDigit c then
      let digits := spanNumber (c :: cs)
      some (some (.number (String.ofList digits)), digits.length)
    else if c = '\'' || c = '"' then
      (spanString c cs).map fun value => (some (.string (String.ofList value)), value.length + 2)
    else if isWordStart c then
      let word := (c :: cs).takeWhile isWordChar
      some (some (classifyWord word), word.length)
    else if isBlank c then
      some (none, ((c :: cs).takeWhile isBlank).length)
    else
      none

/-- The loop of `_tokenize`, from a position of the text on. The characters of a lexeme
after its first are skipped one by one, so that the recursion is on the text. -/
def tokenizeFrom : (position skip : ℕ) → List Char → Except ParseError (List Token)
  | _, _, [] => .ok []
  | position, skip + 1, _ :: cs => tokenizeFrom (position + 1) skip cs
  | position, 0, c :: cs =>
    match lexeme (c :: cs) with
    | none => .error ⟨s!"Unexpected character at position {position}: '{c.toString}'"⟩
    | some (token, length) => do
        let tokens ← tokenizeFrom (position + 1) (length - 1) cs
        return token.toList ++ tokens

/-- `_tokenize`. -/
def tokenize (expr : List Char) : Except ParseError (List Token) := tokenizeFrom 0 0 expr

/-! ### What a token can hold -/

/-- `_SAFE_IDENT_RE`: a word of the tokenizer's own class. -/
def isSafeIdent : List Char → Bool
  | [] => false
  | c :: cs => isWordStart c && cs.all isWordChar

theorem isSafeIdent_takeWhile {c : Char} (cs : List Char) (h : isWordStart c) :
    isSafeIdent ((c :: cs).takeWhile isWordChar) := by
  have hc : isWordChar c := by simp [isWordChar, h]
  rw [takeWhile_cons_of_pos hc]
  simp [isSafeIdent, h]

theorem mem_spanNumber {cs : List Char} {c : Char} (h : c ∈ spanNumber cs) :
    isDigit c ∨ c = '.' := by
  unfold spanNumber at h
  dsimp only at h
  split at h
  · split at h
    · exact .inl (mem_takeWhile_imp h)
    · rename_i rest _ fraction hfraction
      rcases List.mem_append.1 h with h | h
      · exact .inl (mem_takeWhile_imp h)
      · rcases List.mem_cons.1 h with h | h
        · exact .inr h
        · exact .inl (mem_takeWhile_imp h)
  · exact .inl (mem_takeWhile_imp h)

theorem spanNumber_ne_nil {c : Char} (cs : List Char) (h : isDigit c) :
    spanNumber (c :: cs) ≠ [] := by
  unfold spanNumber
  rw [takeWhile_cons_of_pos h]
  dsimp only
  split
  · split <;> simp
  · simp

end MonCTL.Dsl
