import MonCTL.Dsl.Lexing
import MonCTL.Lib.StateExcept

/-!
# Printed Trees

The tokens of a printed tree, and the apostrophes in its text.

A text between apostrophes that contains an apostrophe itself is read as something else. What
it is read as is not followed; it is enough to count: no tokens with the same texts have room
for so many apostrophes.
-/

namespace MonCTL.Dsl

open List

/-! ### Spelled trees -/

/-- An identifier within the limit on its length. -/
structure IsShortIdent (name : String) : Prop extends IsIdent name where
  short : name.toList.length ≤ identifierMaxLength

/-- The names and the numbers of arithmetic can be written. -/
def ArithNode.Spelled : ArithNode → Prop
  | .aggCall _ metric => IsShortIdent metric
  | .numericLiteral value => IsLiteral value
  | .arithOp _ left right => left.Spelled ∧ right.Spelled

/-- The name or the number on the right of a comparison can be written. -/
def Operand.Spelled : Operand → Prop
  | .ref (.named name) => IsIdent name
  | .ref (.inline _ value) => IsLiteral value
  | .text _ => True

/-- The names and the numbers of an expression can be written. -/
def Ast.Spelled : Ast → Prop
  | .comparison left _ right => left.Spelled ∧ right.Spelled
  | .keyComparison key _ _ => IsShortIdent key
  | .changed identifier => IsShortIdent identifier
  | .inList identifier values _ => IsShortIdent identifier ∧ values ≠ []
  | .boolOp _ left right => left.Spelled ∧ right.Spelled

/-- The text on the right of a comparison. -/
def Operand.texts : Operand → List String
  | .text value => [value]
  | .ref _ => []

/-- The texts of an expression, left to right. -/
def Ast.texts : Ast → List String
  | .comparison _ _ right => right.texts
  | .keyComparison _ _ value => [value]
  | .changed _ => []
  | .inList _ values _ => values
  | .boolOp _ left right => left.texts ++ right.texts

/-! ### The tokens of a printed tree -/

variable {tokens : List Token} {rest : List Char}

theorem Lexes.aggFunc (func : AggFunc)
    (hrest : Lexes rest tokens) (hstops : Stops rest) :
    Lexes (func.text.toList ++ rest) (.aggFunc func :: tokens) := by
  have hsafe : isSafeIdent func.text.toList = true := by cases func <;> decide
  have hclass : classifyWord func.text.toList = .aggFunc func := by cases func <;> decide
  exact hclass ▸ hrest.word hsafe hstops.endsWord

theorem Lexes.keyword (word : Keyword)
    (hrest : Lexes rest tokens) (hstops : Stops rest) :
    Lexes (word.text.toList ++ rest) (.keyword word :: tokens) := by
  have hsafe : isSafeIdent word.text.toList = true := by cases word <;> decide
  have hclass : classifyWord word.text.toList = .keyword word := by cases word <;> decide
  exact hclass ▸ hrest.word hsafe hstops.endsWord

theorem BoolOperator.text_keyword (op : BoolOperator) : op.keyword.text = op.text := by
  cases op <;> rfl

variable {node : ArithNode}

theorem lexes_arithToString (hnode : node.Spelled)
    (hrest : Lexes rest tokens) (hstops : Stops rest) :
    Lexes ((arithToString node).toList ++ rest) (node.tokens ++ tokens) := by
  induction node generalizing rest tokens with
  | aggCall func metric =>
    have hmetric := (hrest.rparen).ident hnode.toIsIdent stops_cons
    have hcall := hmetric.lparen.aggFunc func stops_cons
    simpa [arithToString, ArithNode.tokens] using hcall
  | numericLiteral value => exact hrest.numberText hnode hstops
  | arithOp op left right ihl ihr =>
    have hright := (ihr hnode.2 hrest hstops).blank.arith op
    have hleft := ihl hnode.1 hright.blank stops_cons
    simpa [arithToString, ArithNode.tokens] using hleft

variable {operand : Operand}

theorem lexes_operandToString (hoperand : operand.Spelled)
    (htexts : ∀ value ∈ operand.texts, '\'' ∉ value.toList)
    (hrest : Lexes rest tokens) (hstops : Stops rest) :
    Lexes ((operandToString operand).toList ++ rest) (operand.tokens ++ tokens) := by
  cases operand with
  | ref ref =>
    cases ref with
    | named name => exact hrest.ident hoperand hstops
    | inline name value => exact hrest.numberText hoperand hstops
  | text value => exact hrest.string (htexts value (mem_singleton_self value))

theorem lexes_values {values : List String} (hvalues : values ≠ [])
    (htexts : ∀ value ∈ values, '\'' ∉ value.toList)
    (hrest : Lexes rest tokens) : Lexes ((", ".intercalate (values.map quoted)).toList ++ rest)
      (valueTokens values ++ tokens) := by
  induction values with
  | nil => exact absurd rfl hvalues
  | cons value values ih =>
    obtain ⟨hvalue, htail⟩ := List.forall_mem_cons.1 htexts
    cases values with
    | nil => simpa [valueTokens] using hrest.string hvalue
    | cons value' values =>
      have hmore := ih (cons_ne_nil _ _) htail
      have hfirst := hmore.blank.comma.string hvalue
      simpa [valueTokens] using hfirst

variable {ast : Ast}

/-- **A printed tree has its tokens**, when none of its texts contains an apostrophe. -/
theorem lexes_astToString (hast : ast.Spelled)
    (htexts : ∀ value ∈ ast.texts, '\'' ∉ value.toList)
    (hrest : Lexes rest tokens) (hstops : Stops rest) :
    Lexes ((astToString ast).toList ++ rest) (ast.tokens ++ tokens) := by
  induction ast generalizing rest tokens with
  | comparison left op right =>
    have hright := lexes_operandToString hast.2 htexts hrest hstops
    have hleft := lexes_arithToString hast.1 (hright.op op).blank stops_cons
    simpa [astToString, Ast.tokens] using hleft
  | keyComparison key op value =>
    have hvalue := hrest.string (htexts value (mem_singleton_self value))
    have hkey := (hvalue.op op).blank.ident hast.toIsIdent stops_cons
    simpa [astToString, Ast.tokens] using hkey
  | changed identifier =>
    have hword := (hrest.keyword .changed hstops).blank.ident hast.toIsIdent stops_cons
    simpa [astToString, Ast.tokens, Keyword.text] using hword
  | inList identifier values negated =>
    have hvalues := (lexes_values hast.2 htexts hrest.rparen).lparen
    have hin := hvalues.blank.keyword .in stops_cons
    cases negated with
    | false =>
      have hident := hin.blank.ident hast.1.toIsIdent stops_cons
      simpa [astToString, Ast.tokens, Keyword.text] using hident
    | true =>
      have hident := (hin.blank.keyword .not stops_cons).blank.ident hast.1.toIsIdent stops_cons
      simpa [astToString, Ast.tokens, Keyword.text] using hident
  | boolOp op left right ihl ihr =>
    have hright := ihr hast.2 (fun value h => htexts value (mem_append_right _ h)) hrest hstops
    have hop := hright.blank.keyword op.keyword stops_cons
    have hleft := ihl hast.1 (fun value h => htexts value (mem_append_left _ h))
      hop.blank stops_cons
    rw [op.text_keyword] at hleft
    simpa [astToString, Ast.tokens] using hleft

/-! ### Characters of printed text -/

/-- A character that is neither a blank nor an apostrophe. -/
def IsPlain (c : Char) : Prop := isUnicodeBlank c = false ∧ c ≠ '\''

theorem isPlain_of_isWordChar {c : Char} (h : isWordChar c = true) : IsPlain c := by
  constructor
  · simp only [isWordChar, isWordStart, isDigit, Bool.or_eq_true, Bool.and_eq_true,
      decide_eq_true_eq, Char.le_def, UInt32.le_iff_toNat_le] at h
    have hunder : c = '_' → c.toNat = 95 := fun heq => by rw [heq]; rfl
    have hval : c.val.toNat = c.toNat := rfl
    rw [hval] at h
    have hrange : (48 ≤ c.toNat ∧ c.toNat ≤ 57) ∨ (65 ≤ c.toNat ∧ c.toNat ≤ 90) ∨
        (97 ≤ c.toNat ∧ c.toNat ≤ 122) ∨ c.toNat = 95 := by
      rcases h with ((h | h) | h) | h
      · exact .inr (.inl h)
      · exact .inr (.inr (.inl h))
      · exact .inr (.inr (.inr (hunder h)))
      · exact .inl h
    simp only [isUnicodeBlank, Bool.or_eq_false_iff, Bool.and_eq_false_iff,
      decide_eq_false_iff_not]
    omega
  · rintro rfl
    exact absurd h (by decide)

theorem isPlain_of_isSafeIdent {word : List Char} (h : isSafeIdent word = true) :
    word ≠ [] ∧ ∀ c ∈ word, IsPlain c := by
  cases word with
  | nil => cases h
  | cons c cs =>
    rw [isSafeIdent, Bool.and_eq_true, all_eq_true] at h
    refine ⟨cons_ne_nil _ _, List.forall_mem_cons.2 ⟨?_, fun c hc => ?_⟩⟩
    · exact isPlain_of_isWordChar (by simp [isWordChar, h.1])
    · exact isPlain_of_isWordChar (h.2 c hc)

theorem IsIdent.isPlain {name : String} (h : IsIdent name) :
    name.toList ≠ [] ∧ ∀ c ∈ name.toList, IsPlain c := isPlain_of_isSafeIdent h.safe

theorem IsNumber.isPlain {digits : List Char} (h : IsNumber digits) :
    digits ≠ [] ∧ ∀ c ∈ digits, IsPlain c := by
  have hdigit : ∀ c, isDigit c = true → IsPlain c := fun c hc =>
    isPlain_of_isWordChar (by simp [isWordChar, hc])
  cases h with
  | whole hne hdigits => exact ⟨hne, fun c hc => hdigit c (hdigits c hc)⟩
  | decimal hne hdigits _ hfraction =>
    refine ⟨append_ne_nil_of_left_ne_nil hne _, fun c hc => ?_⟩
    rcases List.mem_append.1 hc with hc | hc
    · exact hdigit c (hdigits c hc)
    · rcases List.mem_cons.1 hc with rfl | hc
      · exact ⟨by decide, by decide⟩
      · exact hdigit c (hfraction c hc)

theorem isPlain_numberText {q : ℚ} (h : IsLiteral q) :
    (numberText q).toList ≠ [] ∧ ∀ c ∈ (numberText q).toList, IsPlain c := by
  cases hsmall : isSmall q with
  | false => exact (isNumber_numberText h hsmall).isPlain
  | true =>
    obtain ⟨hne, hmantissa⟩ := (isNumber_mantissa (unscaled q)).isPlain
    have hexponent := (isNumber_negatedExponent (unscaled q) (decimalPlaces q)).isPlain.2
    rw [numberText_small h hsmall, String.toList_ofList, append_assoc]
    refine ⟨append_ne_nil_of_left_ne_nil hne _, fun c hc => ?_⟩
    simp only [mem_append, mem_cons, not_mem_nil, or_false] at hc
    rcases hc with hc | (rfl | rfl) | hc
    · exact hmantissa c hc
    · exact ⟨by decide, by decide⟩
    · exact ⟨by decide, by decide⟩
    · exact hexponent c hc

/-! ### The ends of a printed text -/

/-- The text starts with a character that is no blank. -/
def Opens (cs : List Char) : Prop := ∃ c rest, cs = c :: rest ∧ isUnicodeBlank c = false

/-- The text ends with a character that is no blank. -/
def Closes (cs : List Char) : Prop := ∃ rest c, cs = rest ++ [c] ∧ isUnicodeBlank c = false

variable {cs : List Char}

theorem Opens.append (h : Opens cs) (ds : List Char) : Opens (cs ++ ds) := by
  obtain ⟨c, rest, rfl, hc⟩ := h
  exact ⟨c, rest ++ ds, rfl, hc⟩

theorem Closes.append {ds : List Char} (h : Closes ds) (cs : List Char) : Closes (cs ++ ds) := by
  obtain ⟨rest, c, rfl, hc⟩ := h
  exact ⟨cs ++ rest, c, (append_assoc ..).symm, hc⟩

theorem opens_closes_of_isPlain (h : cs ≠ [] ∧ ∀ c ∈ cs, IsPlain c) : Opens cs ∧ Closes cs := by
  obtain ⟨hne, hplain⟩ := h
  constructor
  · obtain ⟨c, rest, rfl⟩ := exists_cons_of_ne_nil hne
    exact ⟨c, rest, rfl, (hplain c mem_cons_self).1⟩
  · obtain ⟨rest, c, rfl⟩ := (eq_nil_or_concat' cs).resolve_left hne
    exact ⟨rest, c, rfl, (hplain c (mem_append_right _ (mem_singleton_self c))).1⟩

theorem strip_eq_self (hopens : Opens cs) (hcloses : Closes cs) : strip cs = cs := by
  obtain ⟨c, rest, rfl, hc⟩ := hopens
  obtain ⟨rest', c', heq, hc'⟩ := hcloses
  rw [strip, dropWhile_cons_of_neg (by simp [hc]), heq, reverse_append,
    reverse_singleton, singleton_append, dropWhile_cons_of_neg (by simp [hc']),
    reverse_cons, reverse_reverse]

theorem opens_closes_arithToString (h : node.Spelled) :
    Opens (arithToString node).toList ∧ Closes (arithToString node).toList := by
  induction node with
  | aggCall func metric =>
    simp only [arithToString, String.toList_append]
    refine ⟨?_, Closes.append ⟨[], ')', rfl, by decide⟩ _⟩
    have hfunc : Opens func.text.toList := by cases func <;> exact ⟨_, _, rfl, by decide⟩
    exact ((hfunc.append _).append _).append _
  | numericLiteral value => exact opens_closes_of_isPlain (isPlain_numberText h)
  | arithOp op left right ihl ihr =>
    simp only [arithToString, String.toList_append]
    exact ⟨((((ihl h.1).1.append _).append _).append _).append _, (ihr h.2).2.append _⟩

variable (value : String)

theorem closes_quoted : Closes (quoted value).toList := by
  rw [quoted, String.toList_append]
  exact Closes.append ⟨[], '\'', rfl, by decide⟩ _

theorem closes_operandToString (h : operand.Spelled) : Closes (operandToString operand).toList := by
  cases operand with
  | ref ref =>
    cases ref with
    | named name => exact (opens_closes_of_isPlain (IsIdent.isPlain h)).2
    | inline name value => exact (opens_closes_of_isPlain (isPlain_numberText h)).2
  | text value => exact closes_quoted value

theorem opens_closes_astToString (h : ast.Spelled) :
    Opens (astToString ast).toList ∧ Closes (astToString ast).toList := by
  have hident : ∀ {name : String}, IsShortIdent name → Opens name.toList := fun hname =>
    (opens_closes_of_isPlain hname.isPlain).1
  induction ast with
  | comparison left op right =>
    simp only [astToString, String.toList_append]
    have hleft := (opens_closes_arithToString h.1).1
    exact ⟨(((hleft.append _).append _).append _).append _, (closes_operandToString h.2).append _⟩
  | keyComparison key op value =>
    simp only [astToString, String.toList_append]
    exact ⟨((((hident h).append _).append _).append _).append _, (closes_quoted value).append _⟩
  | changed identifier =>
    simp only [astToString, String.toList_append]
    have hword : Closes " CHANGED".toList := ⟨" CHANGE".toList, 'D', by decide, by decide⟩
    exact ⟨(hident h).append _, hword.append _⟩
  | inList identifier values negated =>
    simp only [astToString, String.toList_append]
    exact ⟨(((((hident h.1).append _).append _).append _).append _).append _,
      Closes.append ⟨[], ')', rfl, by decide⟩ _⟩
  | boolOp op left right ihl ihr =>
    simp only [astToString, String.toList_append]
    exact ⟨((((ihl h.1).1.append _).append _).append _).append _, (ihr h.2).2.append _⟩

/-- **Nothing is stripped** off a printed tree. -/
theorem strip_astToString (h : ast.Spelled) :
    strip (astToString ast).toList = (astToString ast).toList :=
  strip_eq_self (opens_closes_astToString h).1 (opens_closes_astToString h).2

/-! ### Apostrophes in a printed text -/

/-- The number of apostrophes of a text. -/
def apostrophes : ℕ := value.toList.count '\''

/-- The most apostrophes the text of a token can have. -/
def apostropheRoom : ℕ := max 2 (apostrophes value)

/-- The most apostrophes the lexeme of a token can have. -/
def Token.room : Token → ℕ
  | .string value => apostropheRoom value
  | _ => 0

def Token.isSign : Token → Bool
  | .lparen | .rparen | .comma | .op _ | .arith _ => true
  | _ => false

/-- What the alternatives of the pattern match. -/
inductive IsLexeme : List Char → Option Token → ℕ → Prop
  | sign {cs : List Char} {token : Token} {n : ℕ} : token.isSign = true → n ≠ 0 →
      '\'' ∉ cs.take n → IsLexeme cs (some token) n
  | number {c : Char} {cs : List Char} : isDigit c = true →
      IsLexeme (c :: cs) (some (.number (String.ofList (spanNumber (c :: cs)))))
        (spanNumber (c :: cs)).length
  | string {quote : Char} {cs value : List Char} : quote = '\'' ∨ quote = '"' →
      spanString quote cs = some value →
      IsLexeme (quote :: cs) (some (.string (String.ofList value))) (value.length + 2)
  | word {c : Char} {cs : List Char} : isWordStart c = true →
      IsLexeme (c :: cs) (some (classifyWord ((c :: cs).takeWhile isWordChar)))
        ((c :: cs).takeWhile isWordChar).length
  | blank {c : Char} {cs : List Char} : isBlank c = true →
      IsLexeme (c :: cs) none ((c :: cs).takeWhile isBlank).length

variable {token : Option Token} {n : ℕ}

theorem isLexeme_of_lexeme
    (h : lexeme cs = some (token, n)) : IsLexeme cs token n := by
  have hsign : ∀ {cs : List Char} {token' : Token} {n' : ℕ}, token'.isSign = true → n' ≠ 0 →
      '\'' ∉ cs.take n' → some (some token', n') = some (token, n) → IsLexeme cs token n := by
    intro cs token' n' htoken hn hcs heq
    obtain ⟨rfl, rfl⟩ := Prod.mk.inj (Option.some.inj heq)
    exact .sign htoken hn hcs
  rw [lexeme.eq_def] at h
  split at h
  case h_1 => cases h
  case h_16 c cs _ _ _ _ _ _ _ _ _ _ _ _ _ _ =>
    split at h
    next hdigit =>
      obtain ⟨rfl, rfl⟩ := Prod.mk.inj (Option.some.inj h)
      exact .number hdigit
    split at h
    next hquote =>
      obtain ⟨value, hvalue, heq⟩ := Option.map_eq_some_iff.1 h
      obtain ⟨rfl, rfl⟩ := Prod.mk.inj heq
      rw [Bool.or_eq_true, decide_eq_true_eq, decide_eq_true_eq] at hquote
      exact .string hquote hvalue
    split at h
    next hword =>
      obtain ⟨rfl, rfl⟩ := Prod.mk.inj (Option.some.inj h)
      exact .word hword
    split at h
    next hblank =>
      obtain ⟨rfl, rfl⟩ := Prod.mk.inj (Option.some.inj h)
      exact .blank hblank
    · cases h
  all_goals exact hsign rfl (by decide) (by simp) h

theorem spanNumber_isPrefix (cs : List Char) : spanNumber cs <+: cs := by
  have hwhole : cs.takeWhile isDigit <+: cs := takeWhile_prefix _
  have happend := List.prefix_iff_eq_append.1 hwhole
  rw [spanNumber]
  split
  next rest hdrop =>
    split
    · exact hwhole
    next _ =>
      rw [hdrop] at happend
      have hfraction : rest.takeWhile isDigit <+: rest := takeWhile_prefix _
      calc cs.takeWhile isDigit ++ '.' :: rest.takeWhile isDigit
          <+: cs.takeWhile isDigit ++ '.' :: rest :=
            (prefix_append_right_inj _).2 (List.cons_prefix_cons.2 ⟨rfl, hfraction⟩)
        _ = cs := happend
  · exact hwhole

theorem spanString_eq {quote : Char} {value : List Char} (h : spanString quote cs = some value) :
    ∃ rest, cs = value ++ quote :: rest ∧ quote ∉ value := by
  rw [spanString] at h
  split at h
  next hlt =>
    cases h
    have happend := takeWhile_append_dropWhile (p := (· ≠ quote)) (l := cs)
    cases hdrop : cs.dropWhile (· ≠ quote) with
    | nil =>
      rw [hdrop, append_nil] at happend
      rw [happend] at hlt
      exact absurd hlt (lt_irrefl _)
    | cons c rest =>
      have hc := head?_dropWhile_not (· ≠ quote) cs
      rw [hdrop] at hc happend
      obtain rfl : c = quote := by simpa using hc
      refine ⟨rest, happend.symm, fun hmem => ?_⟩
      simpa using mem_takeWhile_imp hmem
  · cases h

theorem IsLexeme.count_take_le (h : IsLexeme cs token n) :
    n ≠ 0 ∧ (cs.take n).count '\'' ≤ (token.toList.map Token.room).sum := by
  have hplain : ∀ {cs ds : List Char}, ds <+: cs → ds ≠ [] → '\'' ∉ ds →
      ds.length ≠ 0 ∧ (cs.take ds.length).count '\'' ≤ (token.toList.map Token.room).sum := by
    intro cs ds hprefix hne hmem
    refine ⟨List.length_eq_zero_iff.not.2 hne, ?_⟩
    rw [← List.prefix_iff_eq_take.1 hprefix, count_eq_zero_of_not_mem hmem]
    exact Nat.zero_le _
  cases h with
  | sign _ hn hmem =>
    rw [count_eq_zero_of_not_mem hmem]
    exact ⟨hn, Nat.zero_le _⟩
  | @number c cs hdigit =>
    refine hplain (spanNumber_isPrefix _) (spanNumber_ne_nil cs hdigit) fun hmem => ?_
    rcases mem_spanNumber hmem with h | h
    · exact absurd h (by decide)
    · exact absurd h (by decide)
  | @string quote cs value hquote hvalue =>
    refine ⟨Nat.succ_ne_zero _, ?_⟩
    obtain ⟨rest, rfl, hinside⟩ := spanString_eq hvalue
    have htake : (quote :: (value ++ quote :: rest)).take (value.length + 2) =
        quote :: (value ++ [quote]) := by
      rw [take_succ_cons, take_length_add_append]
      rfl
    rw [htake]
    simp only [Option.toList_some, map_cons, map_nil, sum_cons, sum_nil,
      Nat.add_zero, Token.room, apostropheRoom, apostrophes, String.toList_ofList]
    rcases hquote with rfl | rfl
    · simp [count_append, count_eq_zero_of_not_mem hinside]
    · simp [count_append]
  | @word c cs hword =>
    have hne : (c :: cs).takeWhile isWordChar ≠ [] := by
      rw [takeWhile_cons_of_pos (by simp [isWordChar, hword])]
      exact cons_ne_nil _ _
    refine hplain ( takeWhile_prefix _) hne fun hmem => ?_
    exact absurd (mem_takeWhile_imp hmem) (by decide)
  | @blank c cs hblank =>
    have hne : (c :: cs).takeWhile isBlank ≠ [] := by
      rw [takeWhile_cons_of_pos hblank]
      exact cons_ne_nil _ _
    refine hplain ( takeWhile_prefix _) hne fun hmem => ?_
    exact absurd (mem_takeWhile_imp hmem) (by decide)

end MonCTL.Dsl
