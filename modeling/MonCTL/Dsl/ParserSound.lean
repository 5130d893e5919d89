import MonCTL.Dsl.GrammarSound

/-!
# What the Parser Returns

A tree that the parser returns can be written again: its names are identifiers, its numbers
are literals, its inline thresholds are named after their places, and it is within the limits.
The tokens read are accounted for: names, numbers and texts outnumber what connects them by
exactly one, and every text of the tokens is a text of the tree.

All of this is read off a derivation, production by production.
-/

namespace MonCTL.Dsl

open List

/-! ### Tokens -/

/-- A token of the tokenizer: an identifier is neither reserved nor a function. -/
def Token.Lexed : Token → Prop
  | .ident name => IsIdent name
  | _ => True

/-- A token that is a value counts for one, and a token that connects two against one. -/
def Token.balance : Token → ℤ
  | .ident _ | .number _ | .string _ => 1
  | .arith _ | .op _ | .comma | .keyword .and | .keyword .or | .keyword .in => -1
  | _ => 0

/-- What tokens amount to: a balance, and room for apostrophes. -/
structure Amounts (tokens : List Token) (c : Cost) : Prop where
  balance : (tokens.map Token.balance).sum = c.balance
  room : (tokens.map Token.room).sum ≤ c.room

namespace Amounts

variable {b c c' : Cost} {t : Token} {tokens tokens' : List Token}

theorem one (h : t.room = 0) : Amounts [t] ⟨t.balance, 0, 0, 0, 0⟩ := ⟨by simp, by simp [h]⟩

theorem append (h : Amounts tokens c) (h' : Amounts tokens' c') :
    Amounts (tokens ++ tokens') (c + c') := by
  obtain ⟨hbalance, hroom⟩ := h
  obtain ⟨hbalance', hroom'⟩ := h'
  constructor <;> simp only [map_append, sum_append, Cost.add_fields] <;> omega

theorem after (h' : Amounts tokens' c') (h : Amounts tokens c) (hsign : Amounts [t] b) :
    Amounts (tokens ++ t :: tokens') (c + b + c') := by
  have hall := (h.append hsign).append h'
  rwa [append_assoc] at hall

theorem parens (h : Amounts tokens c) : Amounts (.lparen :: (tokens ++ [.rparen])) c := by
  obtain ⟨hbalance, hroom⟩ := h
  constructor <;>
    simp only [map_cons, map_append, map_nil, sum_cons, sum_append,
      sum_nil, Token.balance, Token.room] <;> omega

end Amounts

/-! ### Derivations -/

theorem isLiteral_numberValue (digits : String) : IsLiteral (numberValue digits) := ⟨_, _, rfl⟩

variable {tokens : List Token}

theorem IsShortIdent.of_mem {name : String}
    (hlexed : ∀ t ∈ tokens, t.Lexed) (hmem : .ident name ∈ tokens)
    (hshort : name.toList.length ≤ identifierMaxLength) : IsShortIdent name :=
  ⟨hlexed _ hmem, hshort⟩

variable {sort : ArithSort} {d : ℕ} {node : ArithNode}

theorem DerivesArith.spelled
    (h : DerivesArith accepted sort d tokens node) (hlexed : ∀ t ∈ tokens, t.Lexed) :
    node.Spelled := by
  induction h with
  | aggCall hshort => exact .of_mem hlexed (by simp) hshort
  | number => exact isLiteral_numberValue _
  | group _ ih => exact ih fun t ht => hlexed t (by simp [ht])
  | ofAtom _ ih => exact ih hlexed
  | ofTerm _ ih => exact ih hlexed
  | factor _ _ _ ihl ihr =>
    exact ⟨ihl fun t ht => hlexed t (by simp [ht]), ihr fun t ht => hlexed t (by simp [ht])⟩
  | summand _ _ _ ihl ihr =>
    exact ⟨ihl fun t ht => hlexed t (by simp [ht]), ihr fun t ht => hlexed t (by simp [ht])⟩

variable {G : Dialect}

theorem DerivesArith.account (h : DerivesArith G sort d tokens node) : Amounts tokens node.cost :=
    by
  induction h with
  | aggCall => exact ⟨by simp [Token.balance, ArithNode.cost], by simp [Token.room]⟩
  | number => exact .one rfl
  | group _ ih => exact ih.parens
  | ofAtom _ ih => exact ih
  | ofTerm _ ih => exact ih
  | factor _ _ _ ihl ihr => exact ihr.after ihl ⟨rfl, le_rfl⟩
  | summand _ _ _ ihl ihr => exact ihr.after ihl ⟨rfl, le_rfl⟩

variable {right : Operand} {t : Token}

theorem DerivesThreshold.spelled
    (h : DerivesThreshold accepted t right) (ht : t.Lexed) : right.Spelled := by
  cases h with
  | number => exact isLiteral_numberValue _
  | ident => exact ht

theorem DerivesThreshold.account (h : DerivesThreshold G t right) : Amounts [t] right.cost := by
  cases h <;> exact ⟨rfl, le_rfl⟩

variable {values : List String}

theorem DerivesValues.ne_nil (h : DerivesValues tokens values) : values ≠ [] := by
  cases h <;> exact cons_ne_nil _ _

theorem DerivesValue.account {value : String} (h : DerivesValue t value) :
    Amounts [t] ⟨1, apostropheRoom value, 0, 0, 0⟩ := by
  cases h with
  | string => exact ⟨rfl, le_rfl⟩
  | number => exact ⟨rfl, Nat.zero_le _⟩

theorem DerivesValues.account (h : DerivesValues tokens values) :
    Amounts tokens ⟨1, (values.map apostropheRoom).sum, 0, 0, 0⟩ := by
  induction h with
  | one ht => exact ⟨ht.account.balance, ht.account.room⟩
  | @cons t value tokens values ht _ ih =>
    obtain ⟨hbalance, hroom⟩ := ht.account
    obtain ⟨hbalance', hroom'⟩ := ih
    constructor <;> simp [Token.balance, Token.room] at * <;> omega

variable {ast : Ast}

theorem DerivesAst.spelled {sort : AstSort}
    (h : DerivesAst accepted sort d tokens ast) (hlexed : ∀ t ∈ tokens, t.Lexed) : ast.Spelled := by
  induction h with
  | comparison hleft _ hright =>
    exact ⟨hleft.spelled fun t ht => hlexed t (by simp [ht]), hright.spelled (hlexed _ (by simp))⟩
  | textComparison _ hleft => exact ⟨hleft.spelled fun t ht => hlexed t (by simp [ht]), trivial⟩
  | changed hshort => exact .of_mem hlexed (by simp) hshort
  | inList hshort hvalues => exact ⟨.of_mem hlexed (by simp) hshort, hvalues.ne_nil⟩
  | notInList hshort hvalues => exact ⟨.of_mem hlexed (by simp) hshort, hvalues.ne_nil⟩
  | keyComparison hshort => exact .of_mem hlexed (by simp) hshort
  | bareComparison _ hshort _ hright =>
    exact ⟨.of_mem hlexed (by simp) hshort, hright.spelled (hlexed _ (by simp))⟩
  | group _ ih => exact ih fun t ht => hlexed t (by simp [ht])
  | ofCondition _ ih => exact ih hlexed
  | boolOp _ _ ihl ihr =>
    exact ⟨ihl fun t ht => hlexed t (by simp [ht]), ihr fun t ht => hlexed t (by simp [ht])⟩

/-- **What the tokens of an expression amount to.** -/
theorem DerivesAst.account {sort : AstSort} (h : DerivesAst G sort d tokens ast) :
    Amounts tokens ast.cost := by
  induction h with
  | comparison hleft _ hright => exact hright.account.after hleft.account ⟨rfl, le_rfl⟩
  | textComparison _ hleft => exact Amounts.after ⟨rfl, le_rfl⟩ hleft.account ⟨rfl, le_rfl⟩
  | changed => exact ⟨rfl, le_rfl⟩
  | inList _ hvalues =>
    obtain ⟨hbalance, hroom⟩ := hvalues.account.parens
    constructor <;> simp [Token.balance, Token.room, Ast.cost] at * <;> omega
  | notInList _ hvalues =>
    obtain ⟨hbalance, hroom⟩ := hvalues.account.parens
    constructor <;> simp [Token.balance, Token.room, Ast.cost] at * <;> omega
  | keyComparison => exact ⟨rfl, by simp [Token.room, Ast.cost]⟩
  | @bareComparison _ name op _ _ _ _ _ hright =>
    have hname : Amounts [.ident name] (ArithNode.aggCall .last name).cost := ⟨rfl, le_rfl⟩
    exact hright.account.after hname ⟨rfl, le_rfl⟩
  | group _ ih => exact ih.parens
  | ofCondition _ ih => exact ih
  | @boolOp _ _ _ op _ _ _ _ ihl ihr =>
    refine ihr.after ihl ?_
    cases op <;> exact ⟨rfl, le_rfl⟩

/-! ### The whole parser -/

/-- What is true of every tree that the parser returns. -/
structure Ast.Parsed (ast : Ast) : Prop where
  spelled : ast.Spelled
  indexed : ast.Indexed 0
  aggs : ast.cost.aggs ≤ maxAggCalls
  ariths : ast.cost.ariths ≤ maxArithOps

/-- **The tree returned can be written, and accounts for the tokens read.** -/
theorem parseTokens_sound (hlexed : ∀ t ∈ tokens, t.Lexed) (h : parseTokens tokens = .ok ast) :
    ast.Parsed ∧ (tokens.map Token.balance).sum = ast.cost.balance ∧
      (tokens.map Token.room).sum ≤ ast.cost.room := by
  obtain ⟨hderives, hindexed, haggs, hariths⟩ := parseTokens_derives h
  exact ⟨⟨hderives.spelled hlexed, hindexed, haggs, hariths⟩, hderives.account.balance,
    hderives.account.room⟩

variable {cs : List Char}

theorem IsLexeme.lexed {token : Token} {n : ℕ} (h : IsLexeme cs (some token) n) : token.Lexed := by
  cases h with
  | sign htoken => cases token <;> trivial
  | number => trivial
  | string => trivial
  | @word c cs hword =>
    have hsafe := isSafeIdent_takeWhile cs hword
    generalize (c :: cs).takeWhile isWordChar = word at hsafe ⊢
    cases hclass : classifyWord word with
    | ident name =>
      have hname : name = String.ofList word := by
        rw [classifyWord] at hclass
        split at hclass
        · cases hclass
        split at hclass
        · cases hclass
        exact (Token.ident.inj hclass).symm
      have hlist : name.toList = word := by rw [hname, String.toList_ofList]
      exact ⟨hlist ▸ hsafe, hlist ▸ hclass⟩
    | _ => trivial

theorem lexed_of_tokenizeFrom {position skip : ℕ}
    (h : tokenizeFrom position skip cs = .ok tokens) : ∀ t ∈ tokens, t.Lexed := by
  induction cs generalizing position skip tokens with
  | nil => cases skip <;> cases h <;> exact fun t ht => absurd ht not_mem_nil
  | cons c cs ih =>
    cases skip with
    | succ skip => exact ih h
    | zero =>
      rw [tokenizeFrom] at h
      split at h
      · cases h
      next token n hlex =>
        obtain ⟨rest, hrest, hreturn⟩ := StateExcept.bind_eq_ok.1 h
        cases hreturn
        intro t ht
        rcases List.mem_append.1 ht with ht | ht
        · obtain rfl := Option.mem_toList.1 ht
          exact (isLexeme_of_lexeme hlex).lexed
        · exact ih hrest t ht

variable {expression : String}

theorem parse_eq_ok : parse expression = .ok ast ↔
      (strip expression.toList).length ≤ maxExpressionLength ∧
        ∃ tokens, tokenize (strip expression.toList) = .ok tokens ∧ tokens ≠ [] ∧
          tokens.length ≤ maxTokenCount ∧ parseTokens tokens = .ok ast := by
  rw [parse]
  dsimp only
  by_cases hempty : strip expression.toList = []
  · rw [if_pos hempty, hempty]
    constructor
    · intro h
      cases h
    · rintro ⟨-, tokens, htokens, hne, -⟩
      exact absurd (Except.ok.inj htokens).symm hne
  rw [if_neg hempty]
  by_cases hlength : (strip expression.toList).length > maxExpressionLength
  · rw [if_pos hlength]
    constructor
    · intro h
      cases h
    · rintro ⟨hle, -⟩
      exact absurd hlength (not_lt.2 hle)
  rw [if_neg hlength]
  have hle := not_lt.1 hlength
  cases htokenize : tokenize (strip expression.toList) with
  | error e =>
    constructor
    · intro h
      cases h
    · rintro ⟨-, tokens, htokens, -⟩
      cases htokens
  | ok tokens =>
    by_cases hnil : tokens = []
    · constructor
      · intro h
        rw [hnil] at h
        cases h
      · rintro ⟨-, _, htokens, hne, -⟩
        exact absurd (Except.ok.inj htokens ▸ hnil) hne
    by_cases hcount : tokens.length > maxTokenCount
    · constructor
      · intro h
        simp only [if_neg hnil, if_pos hcount] at h
        cases h
      · rintro ⟨-, _, htokens, -, hfew, -⟩
        exact absurd (Except.ok.inj htokens ▸ hcount) (not_lt.2 hfew)
    · simp only [if_neg hnil, if_neg hcount]
      constructor
      · exact fun h => ⟨hle, tokens, rfl, hnil, not_lt.1 hcount, h⟩
      · rintro ⟨-, _, htokens, -, -, h⟩
        cases htokens
        exact h

/-- **A parsed tree can be written again**, but for its size. -/
theorem parse_sound (h : parse expression = .ok ast) : ast.Parsed := by
  obtain ⟨-, tokens, htokens, -, -, hparse⟩ := parse_eq_ok.1 h
  exact (parseTokens_sound (lexed_of_tokenizeFrom htokens) hparse).1

end MonCTL.Dsl
