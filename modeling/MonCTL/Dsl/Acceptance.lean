import MonCTL.Dsl.GrammarLexing
import MonCTL.Dsl.GrammarComplete
import MonCTL.Dsl.ParserSound

/-!
# What the Parser Accepts

The parser accepts one grammar exactly. It is not the one in the header of the source: the
parser adds comparisons of bare names and of arithmetic with texts on purpose, and its tokenizer
misses the sign of a number and lets a lone `!` through.

Where neither of the two slips is at stake, the grammar by design is what is accepted. A sign
never makes an expression ambiguous: an operator stands after an operand, and a number does
not.
-/

namespace MonCTL.Dsl

open List

/-! ### The grammar that is accepted -/

variable {G : Dialect} {sort : AstSort} {d : ℕ} {tokens : List Token} {ast : Ast}

theorem DerivesAst.ne_nil (h : DerivesAst G sort d tokens ast) : tokens ≠ [] := by
  obtain ⟨before, ⟨t, after, rfl, -⟩, -⟩ := h.startsBy
  simp

/-- **The parser accepts its grammar exactly**, and returns the tree of the derivation. Going
back at a parenthesis rejects nothing that is derived, and counts nothing twice. -/
theorem acceptsExactly_accepted : AcceptsExactly accepted := by
  intro expression ast
  rw [parse_eq_ok]
  constructor
  · rintro ⟨hlength, tokens, htokens, hne, hcount, hparse⟩
    obtain ⟨hderives, hindexed, haggs, hariths⟩ := parseTokens_derives hparse
    exact ⟨hlength, ⟨tokens, (spells_iff_tokenize rfl).2 htokens, hcount, hderives⟩, hindexed,
      haggs, hariths⟩
  · rintro ⟨hlength, ⟨tokens, hspells, hcount, hderives⟩, hindexed, haggs, hariths⟩
    exact ⟨hlength, tokens, (spells_iff_tokenize rfl).1 hspells, hderives.ne_nil, hcount,
      parseTokens_of_derives hderives hindexed haggs hariths⟩

/-! ### From one dialect to another -/

/-- A number with a sign. -/
def Token.isSigned : Token → Bool
  | .number digits => digits.toList.head? = some '-'
  | _ => false

theorem Dialect.valueOf_eq (G : Dialect) {digits : String}
    (h : (Token.number digits).isSigned = false) : G.valueOf digits = numberValue digits := by
  rw [valueOf]
  split
  · rw [signedValue]
    split
    next cs hcs =>
      rw [Token.isSigned, hcs] at h
      cases h
    · rfl
  · rfl

variable {G' : Dialect} {cs : List Char}

theorem Spells.mono (hG : G.signed = true → G'.signed = true)
    (h : Spells G cs tokens) : Spells G' cs tokens := by
  induction h with
  | nil => exact .nil
  | blank hblank _ ih => exact .blank hblank ih
  | token hspelling hends _ ih =>
    refine .token ?_ hends ih
    cases hspelling with
    | lparen => exact .lparen
    | rparen => exact .rparen
    | comma => exact .comma
    | op op => exact .op op
    | arith op => exact .arith op
    | number hdigits => exact .number hdigits
    | negative hsigned hdigits => exact .negative (hG hsigned) hdigits
    | string hquote hvalue => exact .string hquote hvalue
    | word hword => exact .word hword

variable {node : ArithNode}

theorem DerivesArith.mono {sort : ArithSort} (h : DerivesArith G sort d tokens node)
    (hvalue : ∀ digits, .number digits ∈ tokens → G.valueOf digits = G'.valueOf digits) :
    DerivesArith G' sort d tokens node := by
  induction h with
  | aggCall hmetric => exact .aggCall hmetric
  | @number _ digits =>
    rw [hvalue digits (mem_singleton_self _)]
    exact .number
  | group _ ih => exact .group (ih fun digits hd => hvalue digits (by simp [hd]))
  | ofAtom _ ih => exact .ofAtom (ih hvalue)
  | factor hop _ _ ihl ihr =>
    exact .factor hop (ihl fun digits hd => hvalue digits (by simp [hd]))
      (ihr fun digits hd => hvalue digits (by simp [hd]))
  | ofTerm _ ih => exact .ofTerm (ih hvalue)
  | summand hop _ _ ihl ihr =>
    exact .summand hop (ihl fun digits hd => hvalue digits (by simp [hd]))
      (ihr fun digits hd => hvalue digits (by simp [hd]))

variable {t : Token}

theorem DerivesThreshold.mono {right : Operand} (h : DerivesThreshold G t right)
    (hvalue : ∀ digits, t = .number digits → G.valueOf digits = G'.valueOf digits) :
    DerivesThreshold G' t right := by
  cases h with
  | @number digits name =>
    rw [hvalue digits rfl]
    exact .number
  | ident => exact .ident

/-- **A dialect derives what another does** where it has the productions, the operators of the
tree and the values of the numbers. -/
theorem DerivesAst.mono
    (h : DerivesAst G sort d tokens ast) (hnames : G.bareNames = true → G'.bareNames = true)
    (htexts : G.texts = true → G'.texts = true)
    (hops : ∀ op ∈ ast.compareOps, G.IsOperator op → G'.IsOperator op)
    (hvalue : ∀ digits, .number digits ∈ tokens → G.valueOf digits = G'.valueOf digits) :
    DerivesAst G' sort d tokens ast := by
  induction h with
  | comparison hleft hop hright =>
    exact .comparison (hleft.mono fun digits hd => hvalue digits (by simp [hd]))
      (hops _ (mem_singleton_self _) hop)
      (hright.mono fun digits hd => hvalue digits (by simp [hd]))
  | textComparison htext hleft hop =>
    exact .textComparison (htexts htext) (hleft.mono fun digits hd => hvalue digits (by simp [hd]))
      (hops _ (mem_singleton_self _) hop)
  | changed hname => exact .changed hname
  | inList hname hvalues => exact .inList hname hvalues
  | notInList hname hvalues => exact .notInList hname hvalues
  | keyComparison hname hop => exact .keyComparison hname (hops _ (mem_singleton_self _) hop)
  | bareComparison hbare hname hop hright =>
    exact .bareComparison (hnames hbare) hname (hops _ (mem_singleton_self _) hop)
      (hright.mono fun digits hd => hvalue digits (by simp [hd]))
  | group _ ih => exact .group (ih hops fun digits hd => hvalue digits (by simp [hd]))
  | ofCondition _ ih => exact .ofCondition (ih hops hvalue)
  | boolOp _ _ ihl ihr =>
    exact .boolOp (ihl (fun op hop => hops op (mem_append_left _ hop))
        fun digits hd => hvalue digits (by simp [hd]))
      (ihr (fun op hop => hops op (mem_append_right _ hop))
        fun digits hd => hvalue digits (by simp [hd]))

/-! ### Signs -/

/-- A signed number as the tokenizer reads it: an operator and a number. -/
def Token.unsign : Token → List Token
  | .number digits =>
    match digits.toList with
    | '-' :: cs => [.arith .sub, .number (String.ofList cs)]
    | _ => [.number digits]
  | t => [t]

theorem Token.unsign_of_isSigned_eq_false (h : t.isSigned = false) : t.unsign = [t] := by
  cases t with
  | number digits =>
    rw [unsign]
    split
    next cs hcs =>
      rw [isSigned, hcs] at h
      cases h
    · rfl
  | _ => rfl

theorem IsNumber.isSigned_eq_false {digits : List Char} (h : IsNumber digits) :
    (Token.number (String.ofList digits)).isSigned = false := by
  have hhead : ∀ c ∈ digits.head?, isDigit c = true := by
    intro c hc
    obtain ⟨cs, rfl⟩ := List.head?_eq_some_iff.1 hc
    generalize hdigits : c :: cs = digits at h
    cases h with
    | whole _ hall => exact hall c (hdigits ▸ mem_cons_self)
    | @decimal digits fraction hne hall =>
      obtain ⟨c', cs', rfl⟩ := exists_cons_of_ne_nil hne
      obtain ⟨rfl, -⟩ := List.cons.inj hdigits
      exact hall c mem_cons_self
  rw [Token.isSigned, String.toList_ofList, decide_eq_false_iff_not]
  intro hsign
  exact absurd (hhead _ hsign) (by decide)

theorem isSigned_classifyWord (word : List Char) : (classifyWord word).isSigned = false := by
  rw [classifyWord]
  split
  · rfl
  split
  · rfl
  · rfl

variable {chars : List Char} {token : Token}

theorem Spelling.isSigned_eq_false (hG : G.signed = false)
    (h : Spelling G chars token) : token.isSigned = false := by
  cases h with
  | number hdigits => exact hdigits.isSigned_eq_false
  | negative hsigned => exact absurd (hG.symm.trans hsigned) Bool.false_ne_true
  | word => exact isSigned_classifyWord _
  | _ => rfl

theorem Spells.isSigned_eq_false (hG : G.signed = false)
    (h : Spells G cs tokens) : ∀ t ∈ tokens, t.isSigned = false := by
  induction h with
  | nil => exact fun t ht => absurd ht not_mem_nil
  | blank _ _ ih => exact ih
  | token hspelling _ _ ih => exact List.forall_mem_cons.2 ⟨hspelling.isSigned_eq_false hG, ih⟩

/-- **What is spelled with signs is spelled without**, each sign being an operator. -/
theorem Spells.unsign
    (h : Spells G cs tokens) : Spells accepted cs (tokens.flatMap Token.unsign) := by
  induction h with
  | nil => exact .nil
  | blank hblank _ ih => exact .blank hblank ih
  | @token chars rest token tokens hspelling hends _ ih =>
    have hplain : token.isSigned = false → Spelling accepted chars token →
        Spells accepted (chars ++ rest) ((token :: tokens).flatMap Token.unsign) := by
      intro hsigned hspelling
      rw [flatMap_cons, Token.unsign_of_isSigned_eq_false hsigned]
      exact .token hspelling hends ih
    cases hspelling with
    | lparen => exact hplain rfl .lparen
    | rparen => exact hplain rfl .rparen
    | comma => exact hplain rfl .comma
    | op op => exact hplain rfl (.op op)
    | arith op => exact hplain rfl (.arith op)
    | number hdigits => exact hplain hdigits.isSigned_eq_false (.number hdigits)
    | string hquote hvalue => exact hplain rfl (.string hquote hvalue)
    | word hword => exact hplain (isSigned_classifyWord _) (.word hword)
    | @negative digits _ hdigits =>
      have htokens : (Token.number (String.ofList ('-' :: digits)) :: tokens).flatMap
          Token.unsign = .arith .sub :: .number (String.ofList digits) ::
            tokens.flatMap Token.unsign := by
        rw [flatMap_cons, Token.unsign, String.toList_ofList]
        rfl
      rw [htokens]
      exact @Spells.token _ ['-'] _ _ _ (.arith .sub) trivial (.token (.number hdigits) hends ih)

/-! ### Where a sign can stand -/

def Token.endsOperand : Token → Bool
  | .number _ | .rparen => true
  | _ => false

/-- A token in its place: an operator stands after an operand, and a number does not. -/
def Token.Fits (after : Bool) : Token → Prop
  | .arith _ => after = true
  | .number _ => after = false
  | _ => True

def Placed : Bool → List Token → Prop
  | _, [] => True
  | after, t :: tokens => t.Fits after ∧ Placed t.endsOperand tokens

/-- Whether an operand ends with the tokens. -/
def endsAfter : Bool → List Token → Bool
  | after, [] => after
  | _, t :: tokens => endsAfter t.endsOperand tokens

theorem placed_append (after : Bool) (tokens tokens' : List Token) :
    Placed after (tokens ++ tokens') ↔ Placed after tokens ∧
      Placed (endsAfter after tokens) tokens' := by
  induction tokens generalizing after with
  | nil => simp [Placed, endsAfter]
  | cons t tokens ih => simp [Placed, endsAfter, ih, and_assoc]

theorem endsAfter_append (after : Bool) (tokens tokens' : List Token) :
    endsAfter after (tokens ++ tokens') = endsAfter (endsAfter after tokens) tokens' := by
  induction tokens generalizing after with
  | nil => rfl
  | cons t tokens ih => exact ih _

theorem DerivesArith.placed {sort : ArithSort} (h : DerivesArith G sort d tokens node) :
    Placed false tokens ∧ ∀ after, endsAfter after tokens = true := by
  induction h with
  | aggCall => simp [Placed, Token.Fits, endsAfter, Token.endsOperand]
  | number => simp [Placed, Token.Fits, endsAfter, Token.endsOperand]
  | group _ ih =>
    simp [Placed, Token.Fits, endsAfter, Token.endsOperand, placed_append, endsAfter_append, ih.1]
  | ofAtom _ ih => exact ih
  | factor _ _ _ ihl ihr =>
    simp [Placed, Token.Fits, endsAfter, Token.endsOperand, placed_append, endsAfter_append,
      ihl.1, ihl.2, ihr.1, ihr.2]
  | ofTerm _ ih => exact ih
  | summand _ _ _ ihl ihr =>
    simp [Placed, Token.Fits, endsAfter, Token.endsOperand, placed_append, endsAfter_append,
      ihl.1, ihl.2, ihr.1, ihr.2]

theorem DerivesValues.placed {values : List String}
    (h : DerivesValues tokens values) : Placed false tokens := by
  induction h with
  | one ht => cases ht <;> simp [Placed, Token.Fits]
  | cons ht _ ih => cases ht <;> simp [Placed, Token.Fits, Token.endsOperand, ih]

theorem DerivesAst.placed (h : DerivesAst G sort d tokens ast) : Placed false tokens := by
  induction h with
  | comparison hleft _ hright =>
    cases hright <;> simp [placed_append, Placed, Token.Fits, Token.endsOperand, hleft.placed.1]
  | textComparison _ hleft => simp [placed_append, Placed, Token.Fits, hleft.placed.1]
  | changed => simp [Placed, Token.Fits]
  | inList _ hvalues => simp [placed_append, Placed, Token.Fits, Token.endsOperand, hvalues.placed]
  | notInList _ hvalues =>
    simp [placed_append, Placed, Token.Fits, Token.endsOperand, hvalues.placed]
  | keyComparison => simp [Placed, Token.Fits]
  | bareComparison _ _ _ hright => cases hright <;> simp [Placed, Token.Fits, Token.endsOperand]
  | group _ ih => simp [placed_append, Placed, Token.Fits, Token.endsOperand, ih]
  | ofCondition _ ih => exact ih
  | boolOp _ _ ihl ihr => simp [placed_append, Placed, Token.Fits, Token.endsOperand, ihl, ihr]

/-- **A sign does not fit where an operator does**: tokens that are in their places with their
signs, and without them, have none. -/
theorem isSigned_eq_false_of_placed {after : Bool}
    (h : Placed after tokens) (h' : Placed after (tokens.flatMap Token.unsign)) :
    ∀ t ∈ tokens, t.isSigned = false := by
  induction tokens generalizing after with
  | nil => exact fun t ht => absurd ht not_mem_nil
  | cons t tokens ih =>
    obtain ⟨hfits, htokens⟩ := h
    rw [flatMap_cons] at h'
    have hsigned : t.isSigned = false := by
      cases t with
      | number digits =>
        rw [Token.isSigned, decide_eq_false_iff_not]
        intro hhead
        obtain ⟨cs, hcs⟩ := List.head?_eq_some_iff.1 hhead
        have hunsign : (Token.number digits).unsign =
            [.arith .sub, .number (String.ofList cs)] := by
          rw [Token.unsign, hcs]
          rfl
        rw [hunsign] at h'
        exact Bool.false_ne_true (hfits.symm.trans h'.1)
      | _ => rfl
    rw [Token.unsign_of_isSigned_eq_false hsigned] at h'
    exact List.forall_mem_cons.2 ⟨hsigned, ih htokens h'.2⟩

/-! ### The grammar by design -/

variable {expression : String}

/-- A dialect without signs derives what any other does, but for its productions and
operators. -/
theorem Derives.mono (h : Derives G expression ast) (hG : G.signed = false)
    (hnames : G.bareNames = true → G'.bareNames = true) (htexts : G.texts = true → G'.texts = true)
    (hops : ∀ op ∈ ast.compareOps, G.IsOperator op → G'.IsOperator op) :
    Derives G' expression ast := by
  obtain ⟨hlength, ⟨tokens, hspells, hcount, hderives⟩, hindexed, haggs, hariths⟩ := h
  have hspells' : Spells G' (strip expression.toList) tokens :=
    hspells.mono fun hsigned => absurd (hG.symm.trans hsigned) Bool.false_ne_true
  refine ⟨hlength, ⟨tokens, hspells', hcount, ?_⟩, hindexed, haggs, hariths⟩
  refine hderives.mono hnames htexts hops fun digits hd => ?_
  have hsigned := hspells.isSigned_eq_false hG _ hd
  rw [G.valueOf_eq hsigned, G'.valueOf_eq hsigned]

/-- **An accepted expression has no reading with a signed number**: every tree that the grammar
by design gives it is accepted too. -/
theorem Derives.unsigned_of_accepted {ast' : Ast}
    (h : Derives accepted expression ast) (h' : Derives designed expression ast') :
    Derives accepted expression ast' := by
  obtain ⟨-, ⟨tokens, hspells, -, hderives⟩, -⟩ := h
  obtain ⟨hlength, ⟨tokens', hspells', hcount, hderives'⟩, hindexed, haggs, hariths⟩ := h'
  have hunsign := hspells'.unsign
  have hsame : tokens = tokens'.flatMap Token.unsign :=
    Except.ok.inj (((spells_iff_tokenize rfl).1 hspells).symm.trans
      ((spells_iff_tokenize rfl).1 hunsign))
  have hplaced := hderives.placed
  rw [hsame] at hplaced
  have hsigned := isSigned_eq_false_of_placed hderives'.placed hplaced
  have hflat : tokens'.flatMap Token.unsign = tokens' := by
    rw [flatMap_congr fun t ht => Token.unsign_of_isSigned_eq_false (hsigned t ht),
      flatMap_singleton']
  rw [hflat] at hunsign
  refine ⟨hlength, ⟨tokens', hunsign, hcount, ?_⟩, hindexed, haggs, hariths⟩
  refine hderives'.mono id id (fun op _ _ => isOperator_accepted op) fun digits hd => ?_
  rw [designed.valueOf_eq (hsigned _ hd), accepted.valueOf_eq (hsigned _ hd)]

/-- **The grammar by design is what is accepted**, the slips apart. An expression that is
accepted, without a lone `!`, is derived with the tree returned and no other; and an expression
that is derived without signed numbers is accepted, with its tree. -/
theorem accepts_designed (expression : String) (ast : Ast) :
    (parse expression = .ok ast → .bang ∉ ast.compareOps →
      ∀ ast', Derives designed expression ast' ↔ ast' = ast) ∧
    (Derives designed.unsigned expression ast → parse expression = .ok ast) := by
  refine ⟨fun hparse hbang ast' => ⟨fun h => ?_, ?_⟩, fun h => ?_⟩
  · have haccepted := ((acceptsExactly_accepted _ _).1 hparse).unsigned_of_accepted h
    exact Except.ok.inj (((acceptsExactly_accepted _ _).2 haccepted).symm.trans hparse)
  · rintro rfl
    refine ((acceptsExactly_accepted _ _).1 hparse).mono rfl id id fun op hop _ heq => ?_
    exact absurd (heq ▸ hop) hbang
  · exact (acceptsExactly_accepted _ _).2 (h.mono rfl id id fun op _ _ => isOperator_accepted op)

/-- A parenthesis of arithmetic, next to a parenthesis of an expression. -/
theorem derives_designed_parentheses :
    ∃ ast, parse "((avg(rtt) - 2) * 3 >= warn) AND name == 'core'" = .ok ast ∧
      Derives designed "((avg(rtt) - 2) * 3 >= warn) AND name == 'core'" ast := by
  have hparse : parse "((avg(rtt) - 2) * 3 >= warn) AND name == 'core'" =
      .ok (.boolOp .and
        (.comparison (.arithOp .mul (.arithOp .sub (.aggCall .avg "rtt") (.numericLiteral 2))
          (.numericLiteral 3)) .ge (.ref (.named "warn")))
        (.keyComparison "name" .eq "core")) := by decide +kernel
  exact ⟨_, hparse, ((accepts_designed _ _).1 hparse (by decide) _).2 rfl⟩

/-! ### The grammar in the header -/

theorem DerivesArith.lparen_mem {sort : ArithSort} (h : DerivesArith G sort d tokens node)
    (haggs : node.cost.aggs ≠ 0) :
    .lparen ∈ tokens := by
  induction h with
  | aggCall => simp
  | number => exact absurd rfl haggs
  | group => exact mem_cons_self
  | ofAtom _ ih => exact ih haggs
  | ofTerm _ ih => exact ih haggs
  | @factor _ _ _ _ left right _ _ _ ihl ihr =>
    have haggs : left.cost.aggs + 0 + right.cost.aggs ≠ 0 := haggs
    by_cases hleft : left.cost.aggs = 0
    · exact mem_append_right _ (mem_cons_of_mem _ (ihr (by omega)))
    · exact mem_append_left _ (ihl hleft)
  | @summand _ _ _ _ left right _ _ _ ihl ihr =>
    have haggs : left.cost.aggs + 0 + right.cost.aggs ≠ 0 := haggs
    by_cases hleft : left.cost.aggs = 0
    · exact mem_append_right _ (mem_cons_of_mem _ (ihr (by omega)))
    · exact mem_append_left _ (ihl hleft)

/-- **Without comparisons of bare names**, an expression with an aggregation has a
parenthesis. -/
theorem DerivesAst.lparen_mem (hG : G.bareNames = false) {sort : AstSort}
    (h : DerivesAst G sort d tokens ast)
    (haggs : ast.cost.aggs ≠ 0) : .lparen ∈ tokens := by
  induction h with
  | @comparison _ _ left _ _ right hleft _ hright =>
    have haggs : left.cost.aggs + 0 + right.cost.aggs ≠ 0 := haggs
    have hzero : right.cost.aggs = 0 := by cases hright <;> rfl
    exact mem_append_left _ (hleft.lparen_mem (by omega))
  | textComparison _ hleft => exact mem_append_left _ (hleft.lparen_mem haggs)
  | changed => exact absurd rfl haggs
  | inList => exact absurd rfl haggs
  | notInList => exact absurd rfl haggs
  | keyComparison => exact absurd rfl haggs
  | bareComparison hbare => exact absurd (hG.symm.trans hbare) Bool.false_ne_true
  | group => exact mem_cons_self
  | ofCondition _ ih => exact ih haggs
  | @boolOp _ _ _ _ left right _ _ ihl ihr =>
    have haggs : left.cost.aggs + 0 + right.cost.aggs ≠ 0 := haggs
    by_cases hleft : left.cost.aggs = 0
    · exact mem_append_right _ (mem_cons_of_mem _ (ihr (by omega)))
    · exact mem_append_left _ (ihl hleft)

theorem Spelling.eq_lparen
    (h : Spelling G chars token) (htoken : token = .lparen) : chars = ['('] := by
  cases h with
  | lparen => rfl
  | @word word =>
    rw [classifyWord] at htoken
    split at htoken
    · cases htoken
    split at htoken
    · cases htoken
    · cases htoken
  | _ => cases htoken

theorem Spells.lparen_mem
    (h : Spells G cs tokens) (hmem : .lparen ∈ tokens) : '(' ∈ cs := by
  induction h with
  | nil => cases hmem
  | blank _ _ ih => exact mem_cons_of_mem _ (ih hmem)
  | token hspelling _ _ ih =>
    rcases List.mem_cons.1 hmem with htoken | hmem
    · rw [hspelling.eq_lparen htoken.symm]
      exact mem_cons_self
    · exact mem_append_right _ (ih hmem)

/-- **The header is not what is accepted**: a bare name may be compared with a number, and
stands for its last value. -/
theorem not_acceptsExactly_header : ¬AcceptsExactly header := by
  intro h
  have hparse : parse "rtt_ms > 50" =
      .ok (.comparison (.aggCall .last "rtt_ms") .gt (.ref (.inline "rtt_ms_threshold" 50))) := by
    decide +kernel
  obtain ⟨-, ⟨tokens, hspells, -, hderives⟩, -⟩ := (h _ _).1 hparse
  have hmem := hspells.lparen_mem (hderives.lparen_mem rfl (by decide))
  exact absurd hmem (by decide)

end MonCTL.Dsl
