import Mathlib.Data.Nat.Prime.Pow
import Mathlib.Tactic.Positivity
import MonCTL.Dsl.Printer
import MonCTL.Lib.Decimal

/-!
# Reading Lexemes

Which tokens a text has. `Lexes` says that a text has certain tokens, wherever it stands; one
rule for each kind of lexeme puts a lexeme in front of a text, and the printer's text is taken
apart with them.

A number is printed with all its decimals and read back as itself, unless it is small:
scientific notation falls into four tokens.
-/

namespace MonCTL.Dsl

open List

/-! ### Texts and their tokens -/

/-- The text has these tokens. -/
def Lexes (cs : List Char) (tokens : List Token) : Prop :=
  ∀ position, tokenizeFrom position 0 cs = .ok tokens

theorem Lexes.nil : Lexes [] [] := fun _ => rfl

theorem Lexes.skip {cs : List Char} {tokens : List Token} {n : ℕ}
    (h : Lexes (cs.drop n) tokens) (position : ℕ) :
    tokenizeFrom position n cs = .ok tokens := by
  induction n generalizing cs position with
  | zero => exact h position
  | succ n ih =>
    cases cs with
    | nil => exact h position
    | cons c cs => exact ih h (position + 1)

theorem Lexes.cons {cs : List Char} {tokens : List Token} {token : Option Token} {n : ℕ}
    (hlex : lexeme cs = some (token, n + 1)) (h : Lexes (cs.drop (n + 1)) tokens) :
    Lexes cs (token.toList ++ tokens) := by
  intro position
  cases cs with
  | nil => simp [lexeme] at hlex
  | cons c cs =>
    have hrest := h.skip (position + 1)
    rw [tokenizeFrom, hlex]
    dsimp only
    rw [Nat.add_sub_cancel, Lexes.skip (n := n) h (position + 1)]
    rfl

theorem Lexes.prepend {chars rest : List Char} {token : Option Token} {tokens : List Token}
    (hlex : lexeme (chars ++ rest) = some (token, chars.length)) (hne : chars ≠ [])
    (h : Lexes rest tokens) : Lexes (chars ++ rest) (token.toList ++ tokens) := by
  obtain ⟨c, cs, rfl⟩ := exists_cons_of_ne_nil hne
  refine Lexes.cons hlex ?_
  rwa [← length_cons, drop_left]

/-! ### Lexemes by their first character -/

theorem lexeme_of_isDigit {c : Char} (h : isDigit c = true) (cs : List Char) :
    lexeme (c :: cs) = some (some (.number (String.ofList (spanNumber (c :: cs)))),
      (spanNumber (c :: cs)).length) := by
  rw [lexeme]
  · rw [if_pos h]
  all_goals
    intros
    subst_vars
    exact absurd h (by decide)

theorem isDigit_eq_false_of_isWordStart {c : Char} (h : isWordStart c = true) :
    isDigit c = false := by
  simp only [isWordStart, isDigit, Bool.or_eq_true, Bool.and_eq_true, decide_eq_true_eq,
    Bool.and_eq_false_iff, decide_eq_false_iff_not, not_le, Char.le_def,
    UInt32.le_iff_toNat_le] at h ⊢
  rcases h with (⟨hge, -⟩ | ⟨hge, -⟩) | rfl
  · exact .inr (lt_of_lt_of_le (by decide) hge)
  · exact .inr (lt_of_lt_of_le (by decide) hge)
  · exact .inr (by decide)

theorem lexeme_of_isWordStart {c : Char} (h : isWordStart c = true) (cs : List Char) :
    lexeme (c :: cs) = some (some (classifyWord ((c :: cs).takeWhile isWordChar)),
      ((c :: cs).takeWhile isWordChar).length) := by
  have hquote : ¬(c = '\'' || c = '"') = true := by
    rw [Bool.or_eq_true, decide_eq_true_eq, decide_eq_true_eq]
    rintro (rfl | rfl) <;> exact absurd h (by decide)
  rw [lexeme]
  · rw [if_neg (by simp [isDigit_eq_false_of_isWordStart h]), if_neg hquote, if_pos h]
  all_goals
    intros
    subst_vars
    exact absurd h (by decide)

theorem lexeme_apostrophe (cs : List Char) : lexeme ('\'' :: cs) =
    (spanString '\'' cs).map fun value =>
      (some (.string (String.ofList value)), value.length + 2) := rfl

theorem lexeme_of_isBlank {c : Char} (h : isBlank c = true) (cs : List Char) :
    lexeme (c :: cs) = some (none, (cs.takeWhile isBlank).length + 1) := by
  have hof : ∀ n, c.toNat = n → c = Char.ofNat n := fun n hn => by rw [← hn, Char.ofNat_toNat]
  simp only [isBlank, Bool.or_eq_true, decide_eq_true_eq] at h
  rcases h with ((((rfl | rfl) | rfl) | rfl) | h) | h
  · rfl
  · rfl
  · rfl
  · rfl
  · rw [hof _ h]
    rfl
  · rw [hof _ h]
    rfl

/-! ### Where a lexeme ends -/

/-- A text at whose head a word, a number or an operator ends. -/
def Stops (cs : List Char) : Prop :=
  ∀ c ∈ cs.head?, isWordChar c = false ∧ c ≠ '.' ∧ c ≠ '='

theorem stops_nil : Stops [] := by simp [Stops]

theorem stops_cons {c : Char} {cs : List Char}
    (h : isWordChar c = false ∧ c ≠ '.' ∧ c ≠ '=' := by decide) : Stops (c :: cs) := by
  simpa [Stops] using h

theorem takeWhile_append {p : Char → Bool} {cs rest : List Char} (hcs : ∀ c ∈ cs, p c = true)
    (hrest : ∀ c ∈ rest.head?, p c = false) : (cs ++ rest).takeWhile p = cs := by
  rw [List.takeWhile_append_of_pos hcs]
  cases rest with
  | nil => simp
  | cons c rest => rw [List.takeWhile_cons_of_neg (by simp [hrest c rfl]), List.append_nil]

/-- A word of the tokenizer that is neither reserved nor a function. -/
structure IsIdent (name : String) : Prop where
  safe : isSafeIdent name.toList = true
  classified : classifyWord name.toList = .ident name

/-- A text at whose head a word ends. -/
def EndsWord (cs : List Char) : Prop := ∀ c ∈ cs.head?, isWordChar c = false

theorem Stops.endsWord {cs : List Char} (h : Stops cs) : EndsWord cs := fun c hc => (h c hc).1

theorem Lexes.word {word : List Char} {rest : List Char} {tokens : List Token}
    (hword : isSafeIdent word = true) (hrest : Lexes rest tokens) (hends : EndsWord rest) :
    Lexes (word ++ rest) (classifyWord word :: tokens) := by
  cases word with
  | nil => cases hword
  | cons c cs =>
    rw [isSafeIdent, Bool.and_eq_true, List.all_eq_true] at hword
    obtain ⟨hstart, hchars⟩ := hword
    have hspan : (c :: cs ++ rest).takeWhile isWordChar = c :: cs :=
      takeWhile_append (List.forall_mem_cons.2 ⟨by simp [isWordChar, hstart], hchars⟩) hends
    have hlex := lexeme_of_isWordStart hstart (cs ++ rest)
    rw [← List.cons_append, hspan] at hlex
    exact Lexes.prepend hlex (List.cons_ne_nil _ _) hrest

theorem Lexes.ident {name : String} {rest : List Char} {tokens : List Token}
    (hname : IsIdent name) (hrest : Lexes rest tokens) (hstops : Stops rest) :
    Lexes (name.toList ++ rest) (.ident name :: tokens) :=
  hname.classified ▸ hrest.word hname.safe hstops.endsWord

theorem Lexes.skipBlank {c : Char} {rest : List Char} {tokens : List Token}
    (hblank : isBlank c = true) (hrest : Lexes rest tokens) : Lexes (c :: rest) tokens := by
  intro position
  have htail : ∀ position,
      tokenizeFrom position (rest.takeWhile isBlank).length rest = .ok tokens := by
    intro position
    cases rest with
    | nil => exact hrest position
    | cons c rest =>
      cases hc : isBlank c with
      | false =>
        rw [List.takeWhile_cons_of_neg (by simp [hc])]
        exact hrest position
      | true =>
        have hposition := hrest position
        rw [tokenizeFrom, lexeme_of_isBlank hc] at hposition
        rw [List.takeWhile_cons_of_pos hc, List.length_cons, tokenizeFrom]
        dsimp only at hposition
        rw [Nat.add_sub_cancel] at hposition
        cases hrun : tokenizeFrom (position + 1) (rest.takeWhile isBlank).length rest with
        | error e => rw [hrun] at hposition; cases hposition
        | ok found => rw [hrun] at hposition; exact hposition
  rw [tokenizeFrom, lexeme_of_isBlank hblank]
  dsimp only
  rw [Nat.add_sub_cancel, htail]
  rfl

theorem Lexes.blank {rest : List Char} {tokens : List Token} (hrest : Lexes rest tokens) :
    Lexes (' ' :: rest) tokens := hrest.skipBlank (by decide)

/-- What the tokenizer reads as one number. -/
inductive IsNumber : List Char → Prop
  | whole {digits : List Char} : digits ≠ [] → (∀ c ∈ digits, isDigit c = true) →
      IsNumber digits
  | decimal {digits fraction : List Char} : digits ≠ [] → (∀ c ∈ digits, isDigit c = true) →
      fraction ≠ [] → (∀ c ∈ fraction, isDigit c = true) →
      IsNumber (digits ++ '.' :: fraction)

/-- A text at whose head a number ends. -/
def EndsNumber (cs : List Char) : Prop := ∀ c ∈ cs.head?, isDigit c = false ∧ c ≠ '.'

theorem Stops.endsNumber {cs : List Char} (h : Stops cs) : EndsNumber cs := by
  intro c hc
  obtain ⟨hword, hpoint, -⟩ := h c hc
  rw [isWordChar, Bool.or_eq_false_iff] at hword
  exact ⟨hword.2, hpoint⟩

theorem IsNumber.spanNumber {digits rest : List Char} (h : IsNumber digits)
    (hends : EndsNumber rest) : spanNumber (digits ++ rest) = digits := by
  have hdigit : ∀ c ∈ rest.head?, isDigit c = false := fun c hc => (hends c hc).1
  cases h with
  | whole _ hdigits =>
    have hspan := takeWhile_append hdigits hdigit
    rw [Dsl.spanNumber, hspan, List.drop_left]
    split
    next rest' => exact absurd rfl (hends '.' rfl).2
    · rfl
  | @decimal digits fraction _ hdigits hne hfraction =>
    have hspan : (digits ++ '.' :: fraction ++ rest).takeWhile Dsl.isDigit = digits := by
      rw [List.append_assoc]
      exact takeWhile_append hdigits (by simp [Dsl.isDigit])
    have hdrop : (digits ++ '.' :: fraction ++ rest).drop digits.length =
        '.' :: (fraction ++ rest) := by
      rw [List.append_assoc, List.drop_left]
      rfl
    have hread : (fraction ++ rest).takeWhile Dsl.isDigit = fraction :=
      takeWhile_append hfraction hdigit
    rw [Dsl.spanNumber, hspan, hdrop]
    simp only [hread]

theorem Lexes.number {digits rest : List Char} {tokens : List Token} (h : IsNumber digits)
    (hrest : Lexes rest tokens) (hends : EndsNumber rest) :
    Lexes (digits ++ rest) (.number (String.ofList digits) :: tokens) := by
  obtain ⟨c, cs, rfl, hc⟩ : ∃ c cs, digits = c :: cs ∧ isDigit c = true := by
    cases h with
    | whole hne hdigits =>
      obtain ⟨c, cs, rfl⟩ := List.exists_cons_of_ne_nil hne
      exact ⟨c, cs, rfl, hdigits c List.mem_cons_self⟩
    | decimal hne hdigits =>
      obtain ⟨c, cs, rfl⟩ := List.exists_cons_of_ne_nil hne
      exact ⟨c, _, rfl, hdigits c List.mem_cons_self⟩
  have hlex := lexeme_of_isDigit hc (cs ++ rest)
  rw [← List.cons_append, h.spanNumber hends] at hlex
  exact Lexes.prepend hlex (List.cons_ne_nil _ _) hrest

theorem Lexes.string {value : String} {rest : List Char} {tokens : List Token}
    (hvalue : '\'' ∉ value.toList) (hrest : Lexes rest tokens) :
    Lexes ((quoted value).toList ++ rest) (.string value :: tokens) := by
  have htext : (quoted value).toList ++ rest = '\'' :: (value.toList ++ '\'' :: rest) := by
    simp [quoted]
  have hspan : spanString '\'' (value.toList ++ '\'' :: rest) = some value.toList := by
    have hinside : ∀ c ∈ value.toList, decide (c ≠ '\'') = true := fun c hc =>
      decide_eq_true fun heq => hvalue (heq ▸ hc)
    rw [spanString, takeWhile_append hinside (by simp), if_pos (by simp)]
  have hlex : lexeme ((quoted value).toList ++ rest) =
      some (some (.string value), (quoted value).toList.length) := by
    rw [htext, lexeme_apostrophe, hspan, Option.map_some, String.ofList_toList]
    simp [quoted]
  exact Lexes.prepend hlex (by simp [quoted]) hrest

/-! ### Signs -/

theorem Lexes.lparen {rest : List Char} {tokens : List Token} (h : Lexes rest tokens) :
    Lexes ('(' :: rest) (.lparen :: tokens) :=
  Lexes.cons (show lexeme _ = some (some .lparen, 0 + 1) from rfl) h

theorem Lexes.rparen {rest : List Char} {tokens : List Token} (h : Lexes rest tokens) :
    Lexes (')' :: rest) (.rparen :: tokens) :=
  Lexes.cons (show lexeme _ = some (some .rparen, 0 + 1) from rfl) h

theorem Lexes.comma {rest : List Char} {tokens : List Token} (h : Lexes rest tokens) :
    Lexes (',' :: rest) (.comma :: tokens) :=
  Lexes.cons (show lexeme _ = some (some .comma, 0 + 1) from rfl) h

theorem Lexes.arith {rest : List Char} {tokens : List Token} (op : ArithOperator)
    (h : Lexes rest tokens) : Lexes (op.text.toList ++ rest) (.arith op :: tokens) := by
  cases op <;> exact @Lexes.prepend _ rest (some _) tokens rfl (by decide) h

theorem Lexes.op {rest : List Char} {tokens : List Token} (op : CompareOp)
    (h : Lexes rest tokens) : Lexes (op.text.toList ++ ' ' :: rest) (.op op :: tokens) := by
  cases op <;> exact @Lexes.prepend _ (' ' :: rest) (some _) tokens rfl (by decide) h.blank

/-! ### Numbers -/

/-- A number that can be written: some digits and a power of ten. -/
def IsLiteral (q : ℚ) : Prop := ∃ n k : ℕ, q = n / 10 ^ k

theorem isDigit_of_mem_toString {n : ℕ} {c : Char} (h : c ∈ (toString n).toList) :
    isDigit c = true := by
  have hdigit := Decimal.isDigit_of_mem_toString h
  simpa [isDigit, Char.isDigit, Char.le_def] using hdigit

theorem digitsValue_toString (n : ℕ) : digitsValue (toString n).toList = n := by
  rw [Decimal.toList_toString]
  exact Nat.ofDigitChars_toDigits (by decide) (by decide)

theorem toString_ne_nil (n : ℕ) : (toString n).toList ≠ [] := by
  rw [Decimal.toList_toString]
  exact Nat.toDigits_ne_nil

theorem digitsValue_replicate_append (m : ℕ) (digits : List Char) :
    digitsValue (List.replicate m '0' ++ digits) = digitsValue digits := by
  induction m with
  | zero => rfl
  | succ m ih => rw [← ih]; rfl

theorem digitsValue_paddedDigits (n places : ℕ) : digitsValue (paddedDigits n places) = n := by
  rw [paddedDigits, digitsValue_replicate_append, digitsValue_toString]

theorem isDigit_of_mem_paddedDigits {n places : ℕ} {c : Char} (h : c ∈ paddedDigits n places) :
    isDigit c = true := by
  rcases List.mem_append.1 h with h | h
  · rw [List.eq_of_mem_replicate h]
    decide
  · exact isDigit_of_mem_toString h

theorem lt_length_paddedDigits (n places : ℕ) : places < (paddedDigits n places).length := by
  rw [paddedDigits, List.length_append, List.length_replicate]
  omega

theorem exists_places {d k : ℕ} (h : d ∣ 10 ^ k) : ∃ j ≤ Nat.log 2 d, d ∣ 10 ^ j := by
  have hten : (10 : ℕ) ^ k = 2 ^ k * 5 ^ k := by rw [← Nat.mul_pow]
  obtain ⟨d₂, d₅, h₂, h₅, rfl⟩ := (Nat.dvd_mul).1 (hten ▸ h)
  obtain ⟨a, -, rfl⟩ := (Nat.dvd_prime_pow Nat.prime_two).1 h₂
  obtain ⟨b, -, rfl⟩ := (Nat.dvd_prime_pow Nat.prime_five).1 h₅
  refine ⟨max a b, ?_, ?_⟩
  · refine Nat.le_log_of_pow_le (by decide) ?_
    rcases le_total a b with hab | hab
    · rw [max_eq_right hab]
      calc 2 ^ b ≤ 5 ^ b := Nat.pow_le_pow_left (by decide) b
        _ ≤ 2 ^ a * 5 ^ b := Nat.le_mul_of_pos_left _ (by positivity)
    · rw [max_eq_left hab]
      exact Nat.le_mul_of_pos_right _ (by positivity)
  · rw [show (10 : ℕ) = 2 * 5 by rfl, Nat.mul_pow]
    exact Nat.mul_dvd_mul (Nat.pow_dvd_pow 2 (le_max_left a b))
      (Nat.pow_dvd_pow 5 (le_max_right a b))

theorem den_dvd_of_isLiteral {q : ℚ} (h : IsLiteral q) : q.den ∣ 10 ^ decimalPlaces q := by
  obtain ⟨n, k, hq⟩ := h
  have hden : q.den ∣ 10 ^ k := by
    have hdvd := Rat.den_dvd n (10 ^ k)
    rw [Rat.divInt_eq_div] at hdvd
    push_cast at hdvd
    rw [← hq] at hdvd
    exact_mod_cast hdvd
  obtain ⟨j, hj, hdvd⟩ := exists_places hden
  rw [decimalPlaces]
  cases hfind : (List.range (Nat.log 2 q.den + 1)).find? fun k => q.den ∣ 10 ^ k with
  | none =>
    have := List.find?_eq_none.1 hfind j (List.mem_range.2 (Nat.lt_succ_of_le hj))
    simp [hdvd] at this
  | some i => simpa using List.find?_some hfind

theorem unscaled_div {q : ℚ} (h : IsLiteral q) : (unscaled q : ℚ) / 10 ^ decimalPlaces q = q := by
  obtain ⟨m, hm⟩ := den_dvd_of_isLiteral h
  have hnonneg : 0 ≤ q := by
    obtain ⟨n, k, rfl⟩ := h
    positivity
  have hden : (q.den : ℚ) ≠ 0 := by exact_mod_cast q.den_ne_zero
  have hscaled : |q| * 10 ^ decimalPlaces q = ((q.num * m : ℤ) : ℚ) := by
    have hpow : (10 : ℚ) ^ decimalPlaces q = q.den * m := by exact_mod_cast hm
    rw [abs_of_nonneg hnonneg, hpow, ← mul_assoc, Rat.mul_den_eq_num]
    push_cast
    rfl
  have hvalue : (unscaled q : ℚ) = q * 10 ^ decimalPlaces q := by
    have hnum : 0 ≤ q.num * m := mul_nonneg (Rat.num_nonneg.2 hnonneg) (Int.natCast_nonneg m)
    rw [unscaled, hscaled, Rat.num_intCast]
    rw [abs_of_nonneg hnonneg] at hscaled
    rw [hscaled]
    exact_mod_cast Int.toNat_of_nonneg hnum
  rw [hvalue, mul_div_assoc, div_self (by positivity), mul_one]

theorem numberValue_whole {digits : List Char} (h : ∀ c ∈ digits, isDigit c = true) :
    numberValue (String.ofList digits) = digitsValue digits := by
  have hspan : digits.takeWhile isDigit = digits := List.takeWhile_eq_self_iff.2 h
  simp [numberValue, hspan]

theorem numberValue_decimal {digits fraction : List Char} (h : ∀ c ∈ digits, isDigit c = true) :
    numberValue (String.ofList (digits ++ '.' :: fraction)) =
      digitsValue (digits ++ fraction) / 10 ^ fraction.length := by
  have hspan : (digits ++ '.' :: fraction).takeWhile isDigit = digits :=
    takeWhile_append h (by simp [isDigit])
  simp [numberValue, hspan]

theorem positional_eq (n places : ℕ) : ∃ digits fraction,
    positional n places = digits ++ '.' :: fraction ∧ digits ≠ [] ∧
      digits ++ fraction = paddedDigits n places ∧ fraction.length = places := by
  have hlt := lt_length_paddedDigits n places
  refine ⟨_, _, rfl, ?_, List.take_append_drop .., ?_⟩
  · rw [← List.length_pos_iff, List.length_take]
    omega
  · rw [List.length_drop]
    omega

theorem decimalPlaces_ne_zero {q : ℚ} (h : IsLiteral q) (hden : q.den ≠ 1) :
    decimalPlaces q ≠ 0 := by
  intro hzero
  have hdvd := den_dvd_of_isLiteral h
  rw [hzero, pow_zero, Nat.dvd_one] at hdvd
  exact hden hdvd

theorem IsLiteral.nonneg {q : ℚ} (h : IsLiteral q) : 0 ≤ q := by
  obtain ⟨n, k, rfl⟩ := h
  positivity

theorem numberText_whole {q : ℚ} (h : IsLiteral q) (hden : q.den = 1) :
    ∃ n : ℕ, q = n ∧ numberText q = toString n := by
  obtain ⟨n, hn⟩ := Int.eq_ofNat_of_zero_le (Rat.num_nonneg.2 h.nonneg)
  have hq : q = n := by
    rw [← Rat.num_div_den q, hden, hn]
    simp
  refine ⟨n, hq, ?_⟩
  rw [numberText, if_pos hden, hn]
  rfl

theorem numberText_decimal {q : ℚ} (h : IsLiteral q) (hden : q.den ≠ 1)
    (hsmall : isSmall q = false) :
    numberText q = String.ofList (positional (unscaled q) (decimalPlaces q)) := by
  rw [numberText, if_neg hden, if_neg (not_lt.2 h.nonneg), hsmall]
  rfl

theorem numberText_small {q : ℚ} (h : IsLiteral q) (hsmall : isSmall q = true) :
    numberText q = String.ofList (mantissa (unscaled q) ++ ['e', '-'] ++
      negatedExponent (unscaled q) (decimalPlaces q)) := by
  have hden : q.den ≠ 1 := (of_decide_eq_true hsmall).1
  rw [numberText, if_neg hden, if_neg (not_lt.2 h.nonneg), hsmall]
  rfl

theorem isNumber_numberText {q : ℚ} (h : IsLiteral q) (hsmall : isSmall q = false) :
    IsNumber (numberText q).toList := by
  by_cases hden : q.den = 1
  · obtain ⟨n, -, htext⟩ := numberText_whole h hden
    rw [htext]
    exact .whole (toString_ne_nil n) fun c hc => isDigit_of_mem_toString hc
  · rw [numberText_decimal h hden hsmall, String.toList_ofList]
    obtain ⟨digits, fraction, heq, hne, hpadded, hlength⟩ :=
      positional_eq (unscaled q) (decimalPlaces q)
    have hdigits : ∀ c ∈ digits ++ fraction, isDigit c = true := fun c hc =>
      isDigit_of_mem_paddedDigits (hpadded ▸ hc)
    rw [heq]
    refine .decimal hne (fun c hc => hdigits c (List.mem_append_left _ hc)) ?_
      fun c hc => hdigits c (List.mem_append_right _ hc)
    rintro rfl
    exact decimalPlaces_ne_zero h hden hlength.symm

/-- **A printed number has its value**, unless it is small. -/
theorem numberValue_numberText {q : ℚ} (h : IsLiteral q) (hsmall : isSmall q = false) :
    numberValue (numberText q) = q := by
  by_cases hden : q.den = 1
  · obtain ⟨n, hq, htext⟩ := numberText_whole h hden
    rw [htext, ← String.ofList_toList (s := toString n), numberValue_whole
      fun c hc => isDigit_of_mem_toString hc, digitsValue_toString, hq]
  · rw [numberText_decimal h hden hsmall]
    obtain ⟨digits, fraction, heq, -, hpadded, hlength⟩ :=
      positional_eq (unscaled q) (decimalPlaces q)
    have hdigits : ∀ c ∈ digits, isDigit c = true := fun c hc =>
      isDigit_of_mem_paddedDigits (hpadded ▸ List.mem_append_left _ hc)
    rw [heq, numberValue_decimal hdigits, hpadded, digitsValue_paddedDigits, hlength,
      unscaled_div h]

theorem isNumber_mantissa (n : ℕ) : IsNumber (mantissa n) := by
  have hne := toString_ne_nil n
  have hdigits : ∀ c ∈ (toString n).toList, isDigit c = true := fun c hc =>
    isDigit_of_mem_toString hc
  rw [mantissa]
  generalize (toString n).toList = digits at hne hdigits
  cases digits with
  | nil => exact absurd rfl hne
  | cons digit fraction =>
    cases fraction with
    | nil => exact .whole hne hdigits
    | cons c fraction =>
      obtain ⟨hdigit, hfraction⟩ := List.forall_mem_cons.1 hdigits
      have hone : ∀ c ∈ [digit], isDigit c = true := by simpa using hdigit
      exact .decimal (by simp) hone (by simp) hfraction

theorem isNumber_negatedExponent (n places : ℕ) : IsNumber (negatedExponent n places) := by
  refine .whole ?_ fun c hc => isDigit_of_mem_paddedDigits hc
  rw [← List.length_pos_iff]
  exact Nat.zero_lt_of_lt (lt_length_paddedDigits ..)

theorem Lexes.numberText {q : ℚ} {rest : List Char} {tokens : List Token} (h : IsLiteral q)
    (hrest : Lexes rest tokens) (hstops : Stops rest) :
    Lexes ((Dsl.numberText q).toList ++ rest) (numberTokens q ++ tokens) := by
  rw [numberTokens]
  cases hsmall : isSmall q with
  | false =>
    have hnumber := hrest.number (isNumber_numberText h hsmall) hstops.endsNumber
    rwa [String.ofList_toList] at hnumber
  | true =>
    have hexponent := hrest.number
      (isNumber_negatedExponent (unscaled q) (decimalPlaces q)) hstops.endsNumber
    have hident : IsIdent "e" := ⟨by decide, by decide⟩
    have hword : Lexes (['e', '-'] ++ _) (.ident "e" :: .arith .sub :: _) :=
      (hexponent.arith .sub).ident hident stops_cons
    have hmantissa := hword.number (isNumber_mantissa (unscaled q)) (by simp [EndsNumber, isDigit])
    rw [numberText_small h hsmall, String.toList_ofList, append_assoc, append_assoc]
    exact hmantissa

end MonCTL.Dsl
