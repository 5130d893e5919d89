import MonCTL.Dsl.Grammar

/-!
# The Tokenizer Spells

The tokenizer's one pass with its ordered alternatives finds a spelling exactly when there is
one: without signed numbers a text is spelled by at most one row of tokens, and the tokenizer
returns it.
-/

namespace MonCTL.Dsl

open List Option

/-! ### From a spelling to the tokenizer -/

theorem endsAt_classifyWord (word rest : List Char) :
    (classifyWord word).EndsAt rest ↔ EndsWord rest := by
  rw [classifyWord]
  split
  · exact Iff.rfl
  split
  · exact Iff.rfl
  · exact Iff.rfl

variable {rest : List Char} {tokens : List Token}

theorem Lexes.quoted {quote : Char} {value : List Char}
    (hquote : quote = '\'' ∨ quote = '"') (hvalue : quote ∉ value) (hrest : Lexes rest tokens) :
    Lexes (quote :: (value ++ [quote]) ++ rest) (.string (String.ofList value) :: tokens) := by
  have hspan : spanString quote (value ++ quote :: rest) = some value := by
    have hinside : ∀ c ∈ value, decide (c ≠ quote) = true := fun c hc =>
      decide_eq_true fun heq => hvalue (heq ▸ hc)
    rw [spanString, takeWhile_append hinside (by simp), if_pos (by simp)]
  have hlexeme : ∀ cs, lexeme (quote :: cs) = (spanString quote cs).map fun value =>
      (some (.string (String.ofList value)), value.length + 2) := by
    rcases hquote with rfl | rfl
    · exact fun cs => rfl
    · exact fun cs => rfl
  have hlex : lexeme (quote :: (value ++ [quote]) ++ rest) =
      some (some (.string (String.ofList value)), (quote :: (value ++ [quote])).length) := by
    rw [cons_append, append_assoc, singleton_append, hlexeme, hspan]
    simp
  exact Lexes.prepend hlex (cons_ne_nil _ _) hrest

theorem Lexes.compareOp {op : CompareOp}
    (hends : (Token.op op).EndsAt rest) (h : Lexes rest tokens) :
    Lexes (op.text.toList ++ rest) (.op op :: tokens) := by
  have hlex : lexeme (op.text.toList ++ rest) = some (some (.op op), op.text.toList.length) := by
    cases rest with
    | nil => cases op <;> rfl
    | cons c rest =>
      cases op with
      | ge | le | eq | ne => rfl
      | gt | lt | bang =>
        have hc : c ≠ '=' := fun heq => hends (heq ▸ rfl)
        simp [CompareOp.text, lexeme, hc]
  refine Lexes.prepend hlex ?_ h
  cases op <;> decide

variable {G : Dialect} {cs : List Char}

/-- **What is spelled without signs is read**, token by token. -/
theorem Spells.lexes (hG : G.signed = false) (h : Spells G cs tokens) : Lexes cs tokens := by
  induction h with
  | nil => exact Lexes.nil
  | blank hblank _ ih => exact ih.skipBlank hblank
  | token hspelling hends _ ih =>
    cases hspelling with
    | lparen => exact ih.lparen
    | rparen => exact ih.rparen
    | comma => exact ih.comma
    | op op => exact ih.compareOp hends
    | arith op => exact ih.arith op
    | number hdigits => exact ih.number hdigits hends
    | negative hsigned => exact absurd (hG.symm.trans hsigned) Bool.false_ne_true
    | string hquote hvalue => exact ih.quoted hquote hvalue
    | word hword => exact ih.word hword ((endsAt_classifyWord _ _).1 hends)

/-! ### From the tokenizer to a spelling -/

theorem drop_length_takeWhile (p : Char → Bool) (cs : List Char) :
    cs.drop (cs.takeWhile p).length = cs.dropWhile p := by
  have hleft : (cs.takeWhile p ++ cs.dropWhile p).drop (cs.takeWhile p).length =
      cs.dropWhile p := drop_left
  rwa [takeWhile_append_dropWhile] at hleft

theorem head_dropWhile (p : Char → Bool) (cs : List Char) :
    ∀ c ∈ (cs.dropWhile p).head?, p c = false := by
  intro c hc
  have hhead := head?_dropWhile_not p cs
  rw [Option.mem_def.1 hc] at hhead
  exact hhead

theorem spanNumber_spec {c : Char} (cs : List Char) (h : isDigit c = true) :
    ∃ rest, c :: cs = spanNumber (c :: cs) ++ rest ∧ IsNumber (spanNumber (c :: cs)) ∧
      ∀ c ∈ rest.head?, isDigit c = false := by
  have hne : (c :: cs).takeWhile isDigit ≠ [] := by
    rw [takeWhile_cons_of_pos h]
    exact cons_ne_nil _ _
  have hdigits : ∀ d ∈ (c :: cs).takeWhile isDigit, isDigit d = true := fun d hd =>
    mem_takeWhile_imp hd
  have hsplit := (takeWhile_append_dropWhile (p := isDigit) (l := c :: cs)).symm
  have hhead := head_dropWhile isDigit (c :: cs)
  rw [spanNumber, drop_length_takeWhile]
  generalize (c :: cs).takeWhile isDigit = whole at *
  generalize (c :: cs).dropWhile isDigit = tail at *
  rw [hsplit]
  split
  next rest =>
    have hrest := (takeWhile_append_dropWhile (p := isDigit) (l := rest)).symm
    split
    · exact ⟨'.' :: rest, rfl, .whole hne hdigits, hhead⟩
    next fraction hfraction =>
      refine ⟨rest.dropWhile isDigit, ?_, .decimal hne hdigits hfraction fun d hd => ?_,
        head_dropWhile isDigit rest⟩
      · rw [append_assoc, cons_append, ← hrest]
      · exact mem_takeWhile_imp hd
  · exact ⟨tail, rfl, .whole hne hdigits, hhead⟩

theorem head_ne_point_of_tokenizeFrom {position skip : ℕ}
    (h : tokenizeFrom position skip cs = .ok tokens) : (cs.drop skip).head? ≠ some '.' := by
  induction cs generalizing position skip with
  | nil => simp
  | cons c cs ih =>
    cases skip with
    | succ skip => exact ih h
    | zero =>
      intro hhead
      obtain rfl := some.inj hhead
      rw [tokenizeFrom] at h
      cases h

/-- **A lexeme is spelled**, and as long as it can be unless a point follows. -/
theorem exists_spelling_of_lexeme (G : Dialect) {token : Token} {n : ℕ}
    (h : lexeme cs = some (some token, n)) :
    ∃ chars rest, cs = chars ++ rest ∧ chars.length = n ∧ Spelling G chars token ∧
      (rest.head? ≠ some '.' → token.EndsAt rest) := by
  have hsign : ∀ (chars : List Char) {rest : List Char} {token' : Token} {n' : ℕ},
      Spelling G chars token' → chars.length = n' → (rest.head? ≠ some '.' → token'.EndsAt rest) →
      some (some token', n') = some (some token, n) →
      ∃ chars' rest', chars ++ rest = chars' ++ rest' ∧ chars'.length = n ∧
        Spelling G chars' token ∧ (rest'.head? ≠ some '.' → token.EndsAt rest') := by
    intro chars rest token' n' hspelling hlength hends heq
    obtain ⟨htoken, rfl⟩ := Prod.mk.inj (some.inj heq)
    obtain rfl := some.inj htoken
    exact ⟨chars, rest, rfl, hlength, hspelling, hends⟩
  have hshort : ∀ {rest : List Char}, (∀ cs, rest = '=' :: cs → False) → rest.head? ≠ some '=' := by
    rintro rest hrest hhead
    obtain ⟨cs, rfl⟩ := List.head?_eq_some_iff.1 hhead
    exact hrest cs rfl
  rw [lexeme.eq_def] at h
  split at h
  case h_1 => cases h
  case h_2 rest => exact hsign ['('] .lparen rfl (fun _ => trivial) h
  case h_3 rest => exact hsign [')'] .rparen rfl (fun _ => trivial) h
  case h_4 rest => exact hsign [','] .comma rfl (fun _ => trivial) h
  case h_5 rest => exact hsign ['>', '='] (.op .ge) rfl (fun _ => trivial) h
  case h_6 rest hrest => exact hsign ['>'] (.op .gt) rfl (fun _ => hshort hrest) h
  case h_7 rest => exact hsign ['<', '='] (.op .le) rfl (fun _ => trivial) h
  case h_8 rest hrest => exact hsign ['<'] (.op .lt) rfl (fun _ => hshort hrest) h
  case h_9 rest => exact hsign ['!', '='] (.op .ne) rfl (fun _ => trivial) h
  case h_10 rest hrest => exact hsign ['!'] (.op .bang) rfl (fun _ => hshort hrest) h
  case h_11 rest => exact hsign ['=', '='] (.op .eq) rfl (fun _ => trivial) h
  case h_12 rest => exact hsign ['+'] (.arith .add) rfl (fun _ => trivial) h
  case h_13 rest => exact hsign ['-'] (.arith .sub) rfl (fun _ => trivial) h
  case h_14 rest => exact hsign ['*'] (.arith .mul) rfl (fun _ => trivial) h
  case h_15 rest => exact hsign ['/'] (.arith .div) rfl (fun _ => trivial) h
  case h_16 c cs _ _ _ _ _ _ _ _ _ _ _ _ _ _ =>
    split at h
    next hdigit =>
      obtain ⟨rest, hcs, hnumber, hrest⟩ := spanNumber_spec cs hdigit
      rw [hcs]
      refine hsign _ (.number hnumber) rfl (fun hpoint d hd => ⟨hrest d hd, ?_⟩) h
      rintro rfl
      exact hpoint hd
    split at h
    next hquote =>
      obtain ⟨value, hvalue, heq⟩ := map_eq_some_iff.1 h
      obtain ⟨rest, rfl, hinside⟩ := spanString_eq hvalue
      rw [Bool.or_eq_true, decide_eq_true_eq, decide_eq_true_eq] at hquote
      have hsplit : c :: (value ++ c :: rest) = c :: (value ++ [c]) ++ rest := by simp
      rw [hsplit]
      exact hsign _ (.string hquote hinside) (by simp) (fun _ => trivial) (congrArg some heq)
    split at h
    next hword =>
      have hsplit := (takeWhile_append_dropWhile (p := isWordChar) (l := c :: cs)).symm
      rw [hsplit]
      refine hsign _ (.word (isSafeIdent_takeWhile cs hword)) rfl (fun _ => ?_) h
      exact (endsAt_classifyWord _ _).2 (head_dropWhile isWordChar (c :: cs))
    split at h
    · cases h
    · cases h

theorem Spells.blanks {blanks : List Char}
    (hblanks : ∀ c ∈ blanks, isBlank c = true) (hrest : Spells G rest tokens) :
    Spells G (blanks ++ rest) tokens := by
  induction blanks with
  | nil => exact hrest
  | cons c blanks ih =>
    obtain ⟨hblank, hblanks⟩ := List.forall_mem_cons.1 hblanks
    exact .blank hblank (ih hblanks)

/-- **What is read is spelled**: the characters of the lexeme under way have been skipped. -/
theorem spells_of_tokenizeFrom (G : Dialect) {position skip : ℕ}
    (h : tokenizeFrom position skip cs = .ok tokens) : Spells G (cs.drop skip) tokens := by
  induction cs generalizing position skip tokens with
  | nil =>
    rw [drop_nil]
    cases skip <;> cases h <;> exact .nil
  | cons c cs ih =>
    cases skip with
    | succ skip => exact ih h
    | zero =>
      rw [drop_zero]
      rw [tokenizeFrom] at h
      split at h
      · cases h
      next token n hlex =>
        obtain ⟨tokens', htokens, hreturn⟩ := StateExcept.bind_eq_ok.1 h
        cases hreturn
        have hrest := ih htokens
        cases token with
        | none =>
          cases isLexeme_of_lexeme hlex with
          | blank hblank =>
            rw [takeWhile_cons_of_pos hblank, length_cons, Nat.add_sub_cancel,
              drop_length_takeWhile] at hrest
            have hblanks : Spells G (cs.takeWhile isBlank ++ cs.dropWhile isBlank) tokens' :=
              Spells.blanks (fun c hc => mem_takeWhile_imp hc) hrest
            rw [takeWhile_append_dropWhile] at hblanks
            exact .blank hblank hblanks
        | some token =>
          have hn := (isLexeme_of_lexeme hlex).count_take_le.1
          have hpoint := head_ne_point_of_tokenizeFrom htokens
          obtain ⟨chars, rest, hcs, rfl, hspelling, hends⟩ := exists_spelling_of_lexeme G hlex
          obtain ⟨c', chars, rfl⟩ := exists_cons_of_length_pos (Nat.pos_of_ne_zero hn)
          rw [cons_append] at hcs
          obtain ⟨rfl, rfl⟩ := List.cons.inj hcs
          rw [length_cons, Nat.add_sub_cancel, drop_left] at hrest hpoint
          exact .token hspelling (hends hpoint) hrest

/-- **The tokenizer returns the only spelling without signs.** -/
theorem spells_iff_tokenize (hG : G.signed = false)
    : Spells G cs tokens ↔ tokenize cs = .ok tokens :=
  ⟨fun h => h.lexes hG 0, spells_of_tokenizeFrom G⟩

end MonCTL.Dsl
