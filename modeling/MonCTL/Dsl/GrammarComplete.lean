import MonCTL.Dsl.GrammarSound
import MonCTL.Dsl.ParserTotal

/-!
# What Is Derived Is Accepted

The parser looks one token ahead and goes back once, at an opening parenthesis. Neither loses a
derivation: a loop stops only where no production goes on, and what stands between parentheses
is arithmetic or an expression but never both.

Fuel aside, the parser returns the tree of the derivation and counts what the tree holds, so the
limits are those of the tree. The state after the first try at a parenthesis is not kept.
-/

namespace MonCTL.Dsl

open List StateExcept

/-! ### Steps whose result is known -/

/-- The state of the parser after an account has grown by `c`. -/
def ParserState.after (s : ParserState) (c : Cost) (rest : List Token) : ParserState :=
  ⟨rest, s.depth, s.aggCount + c.aggs, s.arithCount + c.ariths, s.thresholdIndex + c.thresholds⟩

/-- The limits leave room for an account. -/
structure ParserState.Allows (s : ParserState) (c : Cost) : Prop where
  aggs : s.aggCount + c.aggs ≤ maxAggCalls
  ariths : s.arithCount + c.ariths ≤ maxArithOps

@[simp] theorem ParserState.tokens_after (s : ParserState) (c : Cost) (rest : List Token) :
    (s.after c rest).tokens = rest := rfl

theorem ParserState.after_after (s : ParserState) (c d : Cost) (rest rest' : List Token) :
    (s.after c rest).after d rest' = s.after (c + d) rest' := by
  simp [after, Nat.add_assoc]

variable {s : ParserState} {c : Cost}

theorem ParserState.Allows.left {d : Cost} (h : s.Allows (c + d)) : s.Allows c := by
  obtain ⟨haggs, hariths⟩ := h
  simp only [Cost.add_fields] at haggs hariths
  exact ⟨by omega, by omega⟩

theorem ParserState.Allows.right {d : Cost} (h : s.Allows (c + d))
    (rest : List Token) : (s.after c rest).Allows d := by
  obtain ⟨haggs, hariths⟩ := h
  simp only [Cost.add_fields] at haggs hariths
  exact ⟨by simp only [ParserState.after]; omega, by simp only [ParserState.after]; omega⟩

theorem run_bind_ok {α β : Type} {p : Parser α} {f : α → Parser β} {t : ParserState} {a : α}
    {r : β × ParserState} (hp : p.run s = .ok (a, t)) (hf : (f a).run t = .ok r) :
    (p >>= f).run s = .ok r :=
  run_bind_eq_ok.2 ⟨a, t, hp, hf⟩

theorem run_bind_eq {α β : Type} {p : Parser α} {f : α → Parser β} {t : ParserState} {a : α}
    (hp : p.run s = .ok (a, t)) : (p >>= f).run s = (f a).run t := by
  rw [StateT.run_bind, hp]
  rfl

variable {t : Token} {rest : List Token}

theorem advance_run (h : s.tokens = t :: rest) :
    advance.run s = .ok ((), { s with tokens := rest }) := by
  have htail : s.tokens.tail = rest := by rw [h, tail_cons]
  rw [← htail]
  rfl

theorem consume_run {α : Type} {group : String} {read : Token → Option α}
    {a : α} (h : s.tokens = t :: rest) (hread : read t = some a) :
    (consume group read).run s = .ok (a, { s with tokens := rest }) := by
  rw [consume]
  refine run_bind_ok (t := s) rfl ?_
  rw [h]
  dsimp only
  rw [hread]
  exact run_bind_ok (advance_run h) rfl

theorem countArith_run (h : s.arithCount + 1 ≤ maxArithOps) :
    countArith.run s = .ok ((), { s with arithCount := s.arithCount + 1 }) := by
  rw [countArith]
  refine run_bind_ok (a := ()) (t := { s with arithCount := s.arithCount + 1 }) rfl ?_
  refine run_bind_ok (t := { s with arithCount := s.arithCount + 1 }) rfl ?_
  rw [if_neg (not_lt.2 h)]
  rfl

theorem countAgg_run (h : s.aggCount + 1 ≤ maxAggCalls) :
    countAgg.run s = .ok ((), { s with aggCount := s.aggCount + 1 }) := by
  rw [countAgg]
  refine run_bind_ok (a := ()) (t := { s with aggCount := s.aggCount + 1 }) rfl ?_
  refine run_bind_ok (t := { s with aggCount := s.aggCount + 1 }) rfl ?_
  rw [if_neg (not_lt.2 h)]
  rfl

theorem enterDepth_run (h : s.depth + 1 ≤ maxNestingDepth) :
    enterDepth.run s = .ok ((), { s with depth := s.depth + 1 }) := by
  rw [enterDepth]
  refine run_bind_ok (a := ()) (t := { s with depth := s.depth + 1 }) rfl ?_
  refine run_bind_ok (t := { s with depth := s.depth + 1 }) rfl ?_
  rw [if_neg (not_lt.2 h)]
  rfl

theorem checkIdentifierLength_run {name : String}
    (h : name.toList.length ≤ identifierMaxLength) :
    (checkIdentifierLength name).run s = .ok ((), s) := by
  rw [checkIdentifierLength, if_neg (not_lt.2 h)]
  rfl

/-! ### What a parser delivers -/

/-- From `s`, the parser returns a value and a state that meet `Q`, unless it runs out of
fuel. -/
def Delivers {α : Type} (p : Parser α) (s : ParserState) (Q : α → ParserState → Prop) : Prop :=
  p.run s = .error .outOfFuel ∨ ∃ a s', p.run s = .ok (a, s') ∧ Q a s'

namespace Delivers

variable {α β : Type} {s t : ParserState} {Q : α → ParserState → Prop}

theorem outOfFuel_ : Delivers (outOfFuel : Parser α) s Q := .inl rfl

theorem ofFuel {p : ℕ → Parser α} (hzero : p 0 = outOfFuel) (fuel : ℕ)
    (h : ∀ fuel, Delivers (p (fuel + 1)) s Q) : Delivers (p fuel) s Q := by
  cases fuel with
  | zero =>
    rw [hzero]
    exact outOfFuel_
  | succ fuel => exact h fuel

variable {a : α}

theorem return_ (h : Q a s) : Delivers (return a : Parser α) s Q := .inr ⟨a, s, rfl, h⟩

variable {p : Parser α}

theorem of_run (hp : p.run s = .ok (a, t)) (h : Q a t) : Delivers p s Q := .inr ⟨a, t, hp, h⟩

variable {f : α → Parser β} {R : β → ParserState → Prop}

theorem bind
    (h : Delivers p s fun a s' => Delivers (f a) s' R) : Delivers (p >>= f) s R := by
  rcases h with h | ⟨a, s', hp, hf⟩
  · exact .inl (by rw [StateT.run_bind, h]; rfl)
  · rw [Delivers, run_bind_eq hp]
    exact hf

theorem step
    (hp : p.run s = .ok (a, t)) (h : Delivers (f a) t R) : Delivers (p >>= f) s R :=
  bind (of_run hp h)

theorem peek_bind {f : Option Token → Parser α} (h : Delivers (f s.tokens.head?) s Q) :
    Delivers (peek >>= f) s Q := h

theorem operator {op : ArithOperator} {rest : List Token}
    (hs : s.tokens = .arith op :: rest) (hallows : s.arithCount + 1 ≤ maxArithOps)
    (h : Delivers p (s.after ⟨-1, 0, 0, 1, 0⟩ rest) Q) :
    Delivers (countArith >>= fun _ => advance >>= fun _ => p) s Q :=
  step (countArith_run hallows) (step (advance_run hs) h)

theorem parens {tokens : List Token} (rest : List Token)
    (hs : s.tokens = .lparen :: tokens) (hdepth : s.depth + 1 ≤ maxNestingDepth)
    (h : Delivers p { s with depth := s.depth + 1, tokens := tokens } fun a s' =>
      s'.tokens = .rparen :: rest ∧ Q a { s' with tokens := rest, depth := s'.depth - 1 }) :
    Delivers (enterDepth >>= fun _ => advance >>= fun _ => p >>= fun a => consumeRparen >>=
      fun _ => exitDepth >>= fun _ => return a) s Q := by
  refine step (enterDepth_run hdepth) (step (advance_run hs) (bind ?_))
  rcases h with h | ⟨a, s', hp, hrparen, hQ⟩
  · exact .inl h
  · exact of_run hp (step (consume_run hrparen rfl) (step rfl (return_ hQ)))

variable {q : Parser α}

theorem orElse_left (h : Delivers p s Q) : Delivers (orElseOnError p q) s Q := by
  rcases h with h | ⟨a, s', hp, hQ⟩
  · left
    have hp : p s = .error .outOfFuel := h
    show orElseOnError p q s = _
    rw [orElseOnError, hp]
  · right
    have hp : p s = .ok (a, s') := hp
    refine ⟨a, s', ?_, hQ⟩
    show orElseOnError p q s = _
    rw [orElseOnError, hp]

theorem orElse_right (hp : ∀ r, p.run s ≠ .ok r) (h : Delivers q s Q) :
    Delivers (orElseOnError p q) s Q := by
  have hcases : orElseOnError p q s = .error .outOfFuel ∨ orElseOnError p q s = q s := by
    cases hrun : p s with
    | ok r => exact absurd hrun (hp r)
    | error failure =>
      cases failure with
      | error e => exact .inr (by rw [orElseOnError, hrun])
      | outOfFuel => exact .inl (by rw [orElseOnError, hrun])
  rcases hcases with hor | hor
  · exact .inl hor
  · rw [Delivers, show (orElseOnError p q).run s = q.run s from hor]
    exact h

end Delivers

/-! ### Where a parser stands -/

/-- The parser stands before the tokens of a derivation, and the limits leave room for it. -/
structure Faces (tokens rest : List Token) (d : ℕ) (c : Cost) (s : ParserState) : Prop where
  tokens : s.tokens = tokens ++ rest
  depth : s.depth + d ≤ maxNestingDepth
  allows : s.Allows c

namespace Faces

variable {t : Token} {tokens tokens' rest : List Token} {d : ℕ} {b c c' : Cost} {s : ParserState}

theorem left (h : Faces (tokens ++ t :: tokens') rest d (c + b + c') s) :
    Faces tokens (t :: (tokens' ++ rest)) d c s :=
  ⟨by rw [h.tokens, append_assoc, cons_append], h.depth, h.allows.left.left⟩

theorem right (h : Faces (tokens ++ t :: tokens') rest d (c + b + c') s) :
    Faces tokens' rest d c' (s.after (c + b) (tokens' ++ rest)) :=
  ⟨rfl, h.depth, h.allows.right _⟩

theorem inside (h : Faces (.lparen :: (tokens ++ [.rparen])) rest (d + 1) c s) :
    Faces tokens (.rparen :: rest) d c
      { s with depth := s.depth + 1, tokens := tokens ++ .rparen :: rest } :=
  ⟨rfl, by have := h.depth; show s.depth + 1 + d ≤ _; omega, ⟨h.allows.aggs, h.allows.ariths⟩⟩

theorem tokens_parens (h : Faces (.lparen :: (tokens ++ [.rparen])) rest d c s) :
    s.tokens = .lparen :: (tokens ++ .rparen :: rest) := by
  rw [h.tokens]
  simp

end Faces

/-- A text at whose head no operator stands. -/
def EndsArith (rest : List Token) : Prop := ∀ op, rest.head? ≠ some (.arith op)

/-- No factor follows. -/
def EndsTerm (rest : List Token) : Prop :=
  ∀ op, rest.head? = some (.arith op) → op.isFactor = false

variable {fuel : ℕ} {node : ArithNode}

open Delivers in
theorem parseArithTermRest_stop
    {Q : ArithNode → ParserState → Prop} (hends : EndsTerm s.tokens) (h : Q node s) :
    Delivers (parseArithTermRest fuel node) s Q := by
  cases fuel with
  | zero => exact outOfFuel_
  | succ fuel =>
    refine peek_bind ?_
    split
    next op ht =>
      rw [if_neg (of_decide_eq_false (hends op ht))]
      exact return_ h
    · exact return_ h

open Delivers in
theorem parseArithExprRest_stop
    {Q : ArithNode → ParserState → Prop} (hends : EndsArith s.tokens) (h : Q node s) :
    Delivers (parseArithExprRest fuel node) s Q := by
  cases fuel with
  | zero => exact outOfFuel_
  | succ fuel =>
    refine peek_bind ?_
    split
    next op ht => exact absurd ht (hends op)
    · exact return_ h

/-! ### Arithmetic -/

/-- The parser of a level follows a derivation on it: it returns the tree, or enters its loop
with the tree. -/
def ArithCompletes : ArithSort → ℕ → List Token → ArithNode → Prop
  | .atom, d, tokens, node => ∀ fuel s rest Q, Faces tokens rest d node.cost s →
      Q node (s.after node.cost rest) → Delivers (parseArithAtom fuel) s Q
  | .term, d, tokens, node => ∀ fuel s rest Q, Faces tokens rest d node.cost s →
      (∀ fuel, Delivers (parseArithTermRest fuel node) (s.after node.cost rest) Q) →
      Delivers (parseArithTerm fuel) s Q
  | .expr, d, tokens, node => ∀ fuel s rest Q, Faces tokens rest d node.cost s →
      EndsTerm rest →
      (∀ fuel, Delivers (parseArithExprRest fuel node) (s.after node.cost rest) Q) →
      Delivers (parseArithExpr fuel) s Q

variable {sort : ArithSort} {d : ℕ} {tokens : List Token}

open Delivers in
/-- **Every derivation of arithmetic is followed.** -/
theorem DerivesArith.completes
    (h : DerivesArith accepted sort d tokens node) : ArithCompletes sort d tokens node := by
  induction h with
  | @aggCall _ func metric hmetric =>
    intro fuel s rest Q hs hQ
    refine ofFuel rfl fuel fun fuel => ?_
    refine peek_bind ?_
    rw [hs.tokens]
    refine step (consume_run hs.tokens rfl) ?_
    refine step (consume_run (t := .lparen) rfl rfl) (peek_bind ?_)
    refine step (consume_run (t := .ident metric) rfl rfl) ?_
    refine step (checkIdentifierLength_run hmetric) ?_
    refine step (consume_run (t := .rparen) rfl rfl) ?_
    exact step (countAgg_run hs.allows.aggs) (return_ hQ)
  | number =>
    intro fuel s rest Q hs hQ
    refine ofFuel rfl fuel fun fuel => ?_
    refine peek_bind ?_
    rw [hs.tokens]
    exact step (advance_run hs.tokens) (return_ hQ)
  | group _ ih =>
    intro fuel s rest Q hs hQ
    refine ofFuel rfl fuel fun fuel => ?_
    refine peek_bind ?_
    rw [hs.tokens_parens]
    have hdepth := hs.depth
    refine parens rest hs.tokens_parens (by omega) ?_
    refine ih fuel _ _ _ hs.inside (fun op h => nomatch h) fun fuel => ?_
    refine parseArithExprRest_stop (fun op h => nomatch h) ⟨rfl, ?_⟩
    exact hQ
  | ofAtom _ ih =>
    intro fuel s rest Q hs hloop
    cases fuel with
    | zero => exact outOfFuel_
    | succ fuel => exact Delivers.bind (ih fuel s rest _ hs (hloop fuel))
  | @factor _ _ tokens' op left right hop _ _ ihl ihr =>
    intro fuel s rest Q hs hloop
    refine ihl fuel s _ Q hs.left fun fuel => ?_
    cases fuel with
    | zero => exact outOfFuel_
    | succ fuel =>
      refine peek_bind ?_
      dsimp only [ParserState.tokens_after, head?_cons]
      rw [if_pos (of_decide_eq_true hop)]
      refine operator rfl hs.allows.left.ariths ?_
      rw [ParserState.after_after]
      refine Delivers.bind (ihr fuel _ rest _ hs.right ?_)
      rw [ParserState.after_after]
      exact hloop fuel
  | ofTerm _ ih =>
    intro fuel s rest Q hs hends hloop
    refine ofFuel rfl fuel fun fuel => ?_
    refine Delivers.bind (ih fuel s rest _ hs fun fuel' => ?_)
    exact parseArithTermRest_stop hends (hloop fuel)
  | @summand _ _ tokens' op left right hop _ _ ihl ihr =>
    intro fuel s rest Q hs hends hloop
    refine ihl fuel s _ Q hs.left (fun op' h => ?_) fun fuel => ?_
    · cases h
      exact hop
    cases fuel with
    | zero => exact outOfFuel_
    | succ fuel =>
      have hsum : op = .add ∨ op = .sub := by
        cases op <;> first | exact .inl rfl | exact .inr rfl | cases hop
      refine peek_bind ?_
      dsimp only [ParserState.tokens_after, head?_cons]
      rw [if_pos hsum]
      refine operator rfl hs.allows.left.ariths ?_
      rw [ParserState.after_after]
      refine Delivers.bind (ihr fuel _ rest _ hs.right fun fuel' => ?_)
      rw [ParserState.after_after]
      exact parseArithTermRest_stop hends (hloop fuel)

/-! ### Arithmetic or an expression -/

/-- A token of comparisons and connectives, which arithmetic does not hold. -/
def Token.relates : Token → Bool
  | .op _ | .keyword _ => true
  | _ => false

variable {G : Dialect}

theorem DerivesArith.balanced (h : DerivesArith G sort d tokens node) :
    (∀ t ∈ tokens, t.relates = false) ∧ tokens.count .rparen = tokens.count .lparen := by
  induction h with
  | aggCall => exact ⟨by simp [Token.relates], by simp [count_cons]⟩
  | number => exact ⟨by simp [Token.relates], by simp [count_cons]⟩
  | group _ ih =>
    refine ⟨?_, by simp [count_append, count_cons, ih.2]⟩
    simpa [Token.relates, or_imp, forall_and] using ih.1
  | ofAtom _ ih => exact ih
  | ofTerm _ ih => exact ih
  | factor _ _ _ ihl ihr =>
    refine ⟨?_, by simp [count_append, count_cons, ihl.2, ihr.2]⟩
    simpa [Token.relates, or_imp, forall_and] using ⟨ihl.1, ihr.1⟩
  | summand _ _ _ ihl ihr =>
    refine ⟨?_, by simp [count_append, count_cons, ihl.2, ihr.2]⟩
    simpa [Token.relates, or_imp, forall_and] using ⟨ihl.1, ihr.1⟩

/-- The first comparison of an expression, with what stands before it. -/
structure StartsBy (tokens before : List Token) : Prop where
  relation : ∃ t after, tokens = before ++ t :: after ∧ t.relates = true
  plain : ∀ t ∈ before, t.relates = false
  opened : before.count .rparen ≤ before.count .lparen

variable {before : List Token}

theorem StartsBy.append (h : StartsBy tokens before)
    (rest : List Token) : StartsBy (tokens ++ rest) before := by
  obtain ⟨⟨t, after, rfl, ht⟩, hplain, hopened⟩ := h
  exact ⟨⟨t, after ++ rest, by simp, ht⟩, hplain, hopened⟩

variable {ast : Ast}

/-- **An expression holds a comparison**, before which nothing is closed that is not opened. -/
theorem DerivesAst.startsBy {sort : AstSort} (h : DerivesAst G sort d tokens ast) : ∃ before,
    StartsBy tokens before := by
  have hname : ∀ (name : String) (t : Token) (after : List Token), t.relates = true →
      StartsBy (.ident name :: t :: after) [.ident name] := fun name t after ht =>
    ⟨⟨t, after, rfl, ht⟩, by simp [Token.relates], by simp [count_cons]⟩
  induction h with
  | comparison hleft =>
    have hbalanced := hleft.balanced
    exact ⟨_, ⟨⟨_, _, rfl, rfl⟩, hbalanced.1, hbalanced.2.le⟩⟩
  | textComparison _ hleft =>
    have hbalanced := hleft.balanced
    exact ⟨_, ⟨⟨_, _, rfl, rfl⟩, hbalanced.1, hbalanced.2.le⟩⟩
  | changed => exact ⟨_, hname _ _ _ rfl⟩
  | inList => exact ⟨_, hname _ _ _ rfl⟩
  | notInList => exact ⟨_, hname _ _ _ rfl⟩
  | keyComparison => exact ⟨_, hname _ _ _ rfl⟩
  | bareComparison => exact ⟨_, hname _ _ _ rfl⟩
  | group _ ih =>
    obtain ⟨before, hbefore⟩ := ih
    obtain ⟨⟨t, after, htokens, ht⟩, hplain, hopened⟩ := hbefore.append [.rparen]
    refine ⟨.lparen :: before, ⟨⟨t, after, by rw [htokens]; rfl, ht⟩, ?_, ?_⟩⟩
    · exact List.forall_mem_cons.2 ⟨rfl, hplain⟩
    · simp only [count_cons]
      simp
      omega
  | ofCondition _ ih => exact ih
  | boolOp _ _ ih =>
    obtain ⟨before, hbefore⟩ := ih
    exact ⟨before, hbefore.append _⟩

theorem eq_of_first_relation {before' after after' : List Token} {t' : Token}
    (h : before ++ t :: after = before' ++ t' :: after') (ht : t.relates = true)
    (ht' : t'.relates = true) (hbefore : ∀ t ∈ before, t.relates = false)
    (hbefore' : ∀ t ∈ before', t.relates = false) : before = before' := by
  have hspan : ∀ {before after : List Token} {t : Token}, t.relates = true →
      (∀ t ∈ before, t.relates = false) →
      (before ++ t :: after).takeWhile (fun t => !t.relates) = before := by
    intro before after t ht hbefore
    rw [takeWhile_append_of_pos fun t h => by simp [hbefore t h],
      takeWhile_cons_of_neg (by simp [ht]), append_nil]
  rw [← hspan ht hbefore, h, hspan ht' hbefore']

/-- **What stands between parentheses is arithmetic or an expression, not both**: before the
first comparison, arithmetic has closed every parenthesis and an expression has one left. -/
theorem parseArithComparison_ne_ok
    (h : DerivesAst accepted .expression d tokens ast)
    (hs : s.tokens = .lparen :: (tokens ++ .rparen :: rest)) :
    ∀ r, (parseArithComparison fuel).run s ≠ .ok r := by
  intro r hrun
  obtain ⟨left, s', hleft, hrun⟩ := run_bind_eq_ok.1 hrun
  obtain ⟨op, s'', hop, -⟩ := run_bind_eq_ok.1 hrun
  obtain ⟨tokens', htakes, hderives⟩ := (arithDerived fuel).expr s left s' hleft
  obtain ⟨t, after, hafter, ht⟩ : ∃ t after, s'.tokens = t :: after ∧ t.relates = true := by
    refine (Yields.consume_ fun t after op hafter hread => ?_ : Yields consumeOp s'
      fun _ _ => ∃ t after, s'.tokens = t :: after ∧ t.relates = true) op s'' hop
    refine ⟨t, after, hafter, ?_⟩
    cases t <;> first | rfl | cases hread
  obtain ⟨hplain, hbalanced⟩ := hderives.balanced
  obtain ⟨before, hbefore⟩ := h.startsBy
  obtain ⟨⟨t', after', htokens, ht'⟩, hplain', hopened⟩ := hbefore.append (.rparen :: rest)
  have heq : tokens' ++ t :: after = (.lparen :: before) ++ t' :: after' := by
    rw [← hafter, ← htakes.tokens, hs, htokens]
    rfl
  have hsame := eq_of_first_relation heq ht ht' hplain (List.forall_mem_cons.2 ⟨rfl, hplain'⟩)
  rw [hsame] at hbalanced
  simp [count_cons] at hbalanced
  omega

/-! ### Conditions -/

variable {left : ArithNode}

theorem parseThresholdRef_threshold (op : CompareOp)
    {right : Operand} (h : DerivesThreshold accepted t right)
    (hs : s.tokens = t :: rest)
    (hindexed : (Ast.comparison left op right).Indexed s.thresholdIndex) :
    (parseThresholdRef left).run s = .ok (right, s.after right.cost rest) := by
  rw [parseThresholdRef]
  refine run_bind_ok (t := s) rfl ?_
  rw [hs]
  cases h with
  | ident => exact run_bind_ok (advance_run hs) rfl
  | @number digits name =>
    have hname : name = autoThresholdName left s.thresholdIndex := hindexed
    refine run_bind_ok (advance_run hs) ?_
    refine run_bind_ok (t := { s with tokens := rest }) rfl ?_
    refine run_bind_ok (a := ())
      (t := { s with tokens := rest, thresholdIndex := s.thresholdIndex + 1 }) rfl ?_
    rw [hname]
    rfl

/-- Arithmetic starts with a parenthesis, a function or a number. -/
theorem DerivesArith.head (h : DerivesArith G sort d tokens node) : ∃ t rest, tokens = t :: rest ∧
      (t = .lparen ∨ (∃ func, t = .aggFunc func) ∨ ∃ digits, t = .number digits) := by
  induction h with
  | @aggCall _ func => exact ⟨_, _, rfl, .inr (.inl ⟨func, rfl⟩)⟩
  | @number _ digits => exact ⟨_, _, rfl, .inr (.inr ⟨digits, rfl⟩)⟩
  | group => exact ⟨_, _, rfl, .inl rfl⟩
  | ofAtom _ ih => exact ih
  | ofTerm _ ih => exact ih
  | factor _ _ _ ih =>
    obtain ⟨t, rest, rfl, ht⟩ := ih
    exact ⟨t, _, rfl, ht⟩
  | summand _ _ _ ih =>
    obtain ⟨t, rest, rfl, ht⟩ := ih
    exact ⟨t, _, rfl, ht⟩

variable {Q : Ast → ParserState → Prop}

theorem parseCondition_of_arith (h : DerivesArith accepted sort d tokens left)
    (hs : s.tokens = tokens ++ rest)
    (hcomparison : Delivers (parseArithComparison fuel) s Q) :
    Delivers (parseCondition (fuel + 1)) s Q := by
  obtain ⟨t, tail, rfl, ht⟩ := h.head
  refine Delivers.peek_bind ?_
  rw [hs]
  rcases ht with rfl | ⟨func, rfl⟩ | ⟨digits, rfl⟩
  · exact hcomparison.orElse_left
  · exact hcomparison
  · exact hcomparison

open Delivers in
theorem parseArithComparison_delivers
    {op : CompareOp} (right : Operand) (h : DerivesArith accepted .expr d tokens left)
    {t : ParserState} (hs : Faces tokens (.op op :: rest) d left.cost s)
    (hright : (parseThresholdRef left).run (s.after left.cost rest) = .ok (right, t))
    (hQ : Q (.comparison left op right) t) :
    Delivers (parseArithComparison fuel) s Q := by
  refine Delivers.bind (h.completes fuel s _ _ hs (fun op h => nomatch h) fun fuel => ?_)
  refine parseArithExprRest_stop (fun op h => nomatch h) ?_
  exact step (consume_run (t := .op op) rfl rfl) (step hright (return_ hQ))

/-- The parser of a level follows a derivation on it: it returns the tree, or enters its loop
with the tree. -/
def AstCompletes : AstSort → ℕ → List Token → Ast → Prop
  | .condition, d, tokens, ast => ∀ fuel s rest Q, Faces tokens rest d ast.cost s →
      ast.Indexed s.thresholdIndex → Q ast (s.after ast.cost rest) →
      Delivers (parseCondition fuel) s Q
  | .expression, d, tokens, ast => ∀ fuel s rest Q, Faces tokens rest d ast.cost s →
      ast.Indexed s.thresholdIndex →
      (∀ fuel, Delivers (parseExpressionRest fuel ast) (s.after ast.cost rest) Q) →
      Delivers (parseExpression fuel) s Q

open Delivers in
theorem parseExpressionRest_stop
    (hends : ∀ word, s.tokens.head? ≠ some (.keyword word))
    (h : Q ast s) : Delivers (parseExpressionRest fuel ast) s Q := by
  cases fuel with
  | zero => exact outOfFuel_
  | succ fuel =>
    refine peek_bind ?_
    split
    next ht => exact absurd ht (hends .and)
    next ht => exact absurd ht (hends .or)
    · exact return_ h

theorem parseListValue_run {value message : String} (h : DerivesValue t value)
    (hs : s.tokens = t :: rest) :
    (parseListValue message).run s = .ok (value, { s with tokens := rest }) := by
  rw [parseListValue]
  refine run_bind_ok (t := s) rfl ?_
  rw [hs]
  cases h with
  | string => exact run_bind_ok (advance_run hs) rfl
  | number => exact run_bind_ok (advance_run hs) rfl

variable {values : List String}

open Delivers in
theorem DerivesValues.completes
    (h : DerivesValues tokens values)
    (hs : s.tokens = tokens ++ .rparen :: rest) (message : String) (found : List String)
    {Q : List String → ParserState → Prop} (hQ : Q (found ++ values) { s with tokens := .rparen :: rest }) :
    Delivers (parseListValue message >>= fun value => parseValueListRest fuel (found ++ [value]))
      s Q := by
  induction h generalizing s message found fuel with
  | one ht =>
    refine step (parseListValue_run ht hs) ?_
    cases fuel with
    | zero => exact outOfFuel_
    | succ fuel => exact peek_bind (return_ hQ)
  | @cons t value tokens values ht _ ih =>
    refine step (parseListValue_run ht hs) ?_
    cases fuel with
    | zero => exact outOfFuel_
    | succ fuel =>
      refine peek_bind (step (advance_run rfl) ?_)
      refine ih (s := { s with tokens := tokens ++ .rparen :: rest }) rfl _ _ ?_
      rw [append_assoc]
      exact hQ

open Delivers in
theorem parseInList_delivers {ident : String}
    {negated : Bool} (h : DerivesValues tokens values)
    (hs : s.tokens = .lparen :: (tokens ++ .rparen :: rest))
    (hQ : Q (.inList ident values negated) { s with tokens := rest }) :
    Delivers (parseInList fuel ident negated) s Q := by
  refine step (consume_run hs rfl) (Delivers.bind ?_)
  refine h.completes (s := { s with tokens := _ }) rfl _ [] ?_
  exact step (consume_run (t := .rparen) rfl rfl) (return_ hQ)

open Delivers in
/-- **Every derivation of an expression is followed.** -/
theorem DerivesAst.completes {sort : AstSort}
    (h : DerivesAst accepted sort d tokens ast) : AstCompletes sort d tokens ast := by
  induction h with
  | @comparison _ tokens left op t right hleft _ hright =>
    intro fuel s rest Q hs hindexed hQ
    refine ofFuel rfl fuel fun fuel => ?_
    have hlist := hs.tokens
    rw [append_assoc] at hlist
    refine parseCondition_of_arith hleft hlist ?_
    refine parseArithComparison_delivers right hleft hs.left (parseThresholdRef_threshold
      op hright rfl ?_) ?_
    · rw [ParserState.after, left.cost_thresholds, Nat.add_zero]
      exact hindexed
    · rw [ParserState.after_after]
      exact hQ
  | @textComparison _ tokens left op value _ hleft =>
    intro fuel s rest Q hs hindexed hQ
    refine ofFuel rfl fuel fun fuel => ?_
    have hlist := hs.tokens
    rw [append_assoc] at hlist
    refine parseCondition_of_arith hleft hlist ?_
    refine parseArithComparison_delivers (.text value) hleft hs.left
      (run_bind_ok rfl (run_bind_ok (advance_run rfl) rfl)) ?_
    exact hQ
  | @changed _ name hname =>
    intro fuel s rest Q hs hindexed hQ
    refine ofFuel rfl fuel fun fuel => ?_
    refine peek_bind ?_
    rw [hs.tokens]
    refine step (consume_run hs.tokens rfl) (step (checkIdentifierLength_run hname) ?_)
    refine peek_bind ?_
    exact step (advance_run rfl) (return_ hQ)
  | @inList _ name tokens values hname hvalues =>
    intro fuel s rest Q hs hindexed hQ
    refine ofFuel rfl fuel fun fuel => ?_
    refine peek_bind ?_
    rw [hs.tokens]
    refine step (consume_run hs.tokens rfl) (step (checkIdentifierLength_run hname) ?_)
    refine peek_bind ?_
    refine step (advance_run rfl) ?_
    exact parseInList_delivers hvalues (by simp) hQ
  | @notInList _ name tokens values hname hvalues =>
    intro fuel s rest Q hs hindexed hQ
    refine ofFuel rfl fuel fun fuel => ?_
    refine peek_bind ?_
    rw [hs.tokens]
    refine step (consume_run hs.tokens rfl) (step (checkIdentifierLength_run hname) ?_)
    refine peek_bind ?_
    refine step (advance_run rfl) (peek_bind ?_)
    refine step (advance_run rfl) ?_
    exact parseInList_delivers hvalues (by simp) hQ
  | @keyComparison _ name op value hname _ =>
    intro fuel s rest Q hs hindexed hQ
    refine ofFuel rfl fuel fun fuel => ?_
    refine peek_bind ?_
    rw [hs.tokens]
    refine step (consume_run hs.tokens rfl) (step (checkIdentifierLength_run hname) ?_)
    refine peek_bind ?_
    refine step (advance_run rfl) (peek_bind ?_)
    refine Delivers.bind (peek_bind (step (advance_run rfl) (return_ ?_)))
    exact return_ hQ
  | @bareComparison _ name op t right _ hname _ hright =>
    intro fuel s rest Q hs hindexed hQ
    refine ofFuel rfl fuel fun fuel => ?_
    refine peek_bind ?_
    rw [hs.tokens]
    refine step (consume_run hs.tokens rfl) (step (checkIdentifierLength_run hname) ?_)
    refine peek_bind ?_
    refine step (advance_run rfl) (peek_bind ?_)
    cases hright with
    | number =>
      refine step (countAgg_run hs.allows.aggs) ?_
      exact step (parseThresholdRef_threshold op .number rfl hindexed) (return_ hQ)
    | ident =>
      refine step (countAgg_run hs.allows.aggs) ?_
      exact step (parseThresholdRef_threshold op .ident rfl hindexed) (return_ hQ)
  | @group d tokens ast hinside ih =>
    intro fuel s rest Q hs hindexed hQ
    refine ofFuel rfl fuel fun fuel => ?_
    refine peek_bind ?_
    rw [hs.tokens_parens]
    have hdepth := hs.depth
    refine orElse_right (parseArithComparison_ne_ok hinside hs.tokens_parens) ?_
    refine parens rest hs.tokens_parens (by omega) ?_
    refine ih fuel _ _ _ hs.inside hindexed fun fuel => ?_
    exact parseExpressionRest_stop (fun op h => nomatch h) ⟨rfl, hQ⟩
  | ofCondition _ ih =>
    intro fuel s rest Q hs hindexed hloop
    cases fuel with
    | zero => exact outOfFuel_
    | succ fuel => exact Delivers.bind (ih fuel s rest _ hs hindexed (hloop fuel))
  | @boolOp _ tokens tokens' op left right _ _ ihl ihr =>
    intro fuel s rest Q hs hindexed hloop
    refine ihl fuel s _ Q hs.left hindexed.1 fun fuel => ?_
    cases fuel with
    | zero => exact outOfFuel_
    | succ fuel =>
      have hround : Delivers (advance >>= fun _ => parseCondition fuel >>= fun right =>
          parseExpressionRest fuel (.boolOp op left right))
          (s.after left.cost (.keyword op.keyword :: (tokens' ++ rest))) Q := by
        refine step (advance_run rfl) (Delivers.bind (ihr fuel _ rest _ hs.right ?_ ?_))
        · exact hindexed.2
        · change Delivers _ ((s.after (left.cost + ⟨-1, 0, 0, 0, 0⟩) (tokens' ++ rest)).after
            right.cost rest) Q
          rw [ParserState.after_after]
          exact hloop fuel
      refine peek_bind ?_
      cases op with
      | and => exact hround
      | or => exact hround

/-! ### The whole parser -/

/-- **The tokens that are derived are accepted**, within the limits on the tree. -/
theorem parseTokens_of_derives
    (h : DerivesAst accepted .expression maxNestingDepth tokens ast) (hindexed : ast.Indexed 0)
    (haggs : ast.cost.aggs ≤ maxAggCalls) (hariths : ast.cost.ariths ≤ maxArithOps) :
    parseTokens tokens = .ok ast := by
  have hfaces : Faces tokens [] maxNestingDepth ast.cost ⟨tokens, 0, 0, 0, 0⟩ :=
    ⟨(append_nil _).symm, (Nat.zero_add _).le, ⟨by simpa using haggs, by simpa using hariths⟩⟩
  have hrun : Delivers (parseExpression (4 * tokens.length + 5)) ⟨tokens, 0, 0, 0, 0⟩
      fun node s => node = ast ∧ s.tokens = [] :=
    h.completes _ _ _ _ hfaces hindexed fun fuel =>
      parseExpressionRest_stop (fun word h => nomatch h) ⟨rfl, rfl⟩
  have hfueled := ((Consumes.conditionFueled (4 * tokens.length + 5)).expression
    ⟨tokens, 0, 0, 0, 0⟩ le_rfl).fueled
  rcases hrun with hfuel | ⟨node, s, hrun, rfl, hnil⟩
  · exact absurd hfuel hfueled
  · rw [parseTokens]
    refine bind_eq_ok.2 ⟨(node, s), hrun, ?_⟩
    dsimp only
    rw [hnil]
    rfl

end MonCTL.Dsl
