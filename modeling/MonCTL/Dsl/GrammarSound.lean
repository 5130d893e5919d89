import MonCTL.Dsl.Grammar

/-!
# What Is Accepted Is Derived

The tokens that the parser takes are derived in the grammar, with the tree that it returns and
with no more nesting than the limit leaves room for. The loops of the parser extend a derivation
to the right, which is how the productions associate. Meanwhile the parser counts what the tree
holds, and numbers its inline thresholds from the left.

The proof follows the parser function by function with one predicate, `Yields`, and one account,
`Takes`, of the tokens that are taken and of what they add to the counters.
-/

namespace MonCTL.Dsl

open StateExcept

/-! ### What a parser yields -/

/-- From `s`, whatever the parser returns, and the state it stops in, meet `Q`. -/
def Yields {α : Type} (p : Parser α) (s : ParserState) (Q : α → ParserState → Prop) : Prop :=
  ∀ a s', p.run s = .ok (a, s') → Q a s'

namespace Yields

variable {α β : Type} {s : ParserState} {Q : α → ParserState → Prop}

theorem mono {p : Parser α} {P : α → ParserState → Prop} (h : Yields p s P)
    (hPQ : ∀ a s', P a s' → Q a s') : Yields p s Q := fun a s' hrun => hPQ a s' (h a s' hrun)

theorem bind {p : Parser α} {f : α → Parser β} {R : β → ParserState → Prop}
    (h : Yields p s fun a s' => Yields (f a) s' R) : Yields (p >>= f) s R := by
  intro b s'' hrun
  obtain ⟨a, s', hp, hf⟩ := run_bind_eq_ok.1 hrun
  exact h a s' hp b s'' hf

theorem return_ {a : α} (h : Q a s) : Yields (return a : Parser α) s Q := by
  intro a' s' hrun
  cases StateExcept.run_pure_eq_ok.1 hrun
  exact h

theorem fail_ (message : String) : Yields (fail message : Parser α) s Q :=
  fun _ _ hrun => (run_throw_eq_ok.1 hrun).elim

theorem peek_bind {f : Option Token → Parser α} (h : Yields (f s.tokens.head?) s Q) :
    Yields (peek >>= f) s Q := h

theorem get_bind {f : ParserState → Parser α} (h : Yields (f s) s Q) : Yields (get >>= f) s Q := h

variable {p : Unit → Parser α}

theorem modify_bind {f : ParserState → ParserState}
    (h : Yields (p ()) (f s) Q) : Yields (modify f >>= p) s Q := h

theorem advance_bind {t : Token} (ht : s.tokens.head? = some t)
    (h : ∀ rest, s.tokens = t :: rest → Yields (p ()) { s with tokens := rest } Q) :
    Yields (advance >>= p) s Q := by
  obtain ⟨rest, hrest⟩ := List.head?_eq_some_iff.1 ht
  have hp := h rest hrest
  have htail : s.tokens.tail = rest := by rw [hrest, List.tail_cons]
  rw [← htail] at hp
  exact hp

variable {group : String}

theorem consume_ {read : Token → Option α}
    (h : ∀ t rest a, s.tokens = t :: rest → read t = some a → Q a { s with tokens := rest }) :
    Yields (consume group read) s Q := by
  rw [consume]
  refine get_bind ?_
  cases hs : s.tokens with
  | nil => exact fail_ _
  | cons t rest =>
    cases hread : read t with
    | none =>
      dsimp only
      rw [hread]
      exact fail_ _
    | some a =>
      dsimp only
      rw [hread]
      exact advance_bind (t := t) (by rw [hs]; rfl) fun rest' hs' => return_ (h t rest' a hs' hread)

theorem consumeSign_ {token : Token} {R : Unit → ParserState → Prop}
    (h : ∀ rest, s.tokens = token :: rest → R () { s with tokens := rest }) :
    Yields (consume group fun t => if t = token then some () else none) s R := by
  refine consume_ fun t rest a hs hread => ?_
  split at hread
  next ht => exact h rest (ht ▸ hs)
  · cases hread

theorem consumeIdent_ {R : String → ParserState → Prop}
    (h : ∀ name rest, s.tokens = .ident name :: rest → R name { s with tokens := rest }) :
    Yields consumeIdent s R := by
  refine consume_ fun t rest a hs hread => ?_
  cases t <;> cases hread
  exact h a rest hs

theorem enterDepth_bind (h : s.depth + 1 ≤ maxNestingDepth →
      Yields (p ()) { s with depth := s.depth + 1 } Q) : Yields (enterDepth >>= p) s Q := by
  rw [enterDepth, bind_assoc]
  refine modify_bind ?_
  rw [bind_assoc]
  refine get_bind ?_
  split
  · exact bind (fail_ _)
  next hle => exact h (not_lt.1 hle)

theorem countAgg_bind (h : s.aggCount + 1 ≤ maxAggCalls →
      Yields (p ()) { s with aggCount := s.aggCount + 1 } Q) :
    Yields (countAgg >>= p) s Q := by
  rw [countAgg, bind_assoc]
  refine modify_bind ?_
  rw [bind_assoc]
  refine get_bind ?_
  split
  · exact bind (fail_ _)
  next hle => exact h (not_lt.1 hle)

theorem countArith_bind (h : s.arithCount + 1 ≤ maxArithOps →
      Yields (p ()) { s with arithCount := s.arithCount + 1 } Q) :
    Yields (countArith >>= p) s Q := by
  rw [countArith, bind_assoc]
  refine modify_bind ?_
  rw [bind_assoc]
  refine get_bind ?_
  split
  · exact bind (fail_ _)
  next hle => exact h (not_lt.1 hle)

theorem checkIdentifierLength_bind {name : String}
    (h : name.toList.length ≤ identifierMaxLength → Yields (p ()) s Q) :
    Yields (checkIdentifierLength name >>= p) s Q := by
  rw [checkIdentifierLength]
  split
  · exact bind (fail_ _)
  next hle => exact h (not_lt.1 hle)

theorem orElse {p q : Parser α} (hp : Yields p s Q) (hq : Yields q s Q) :
    Yields (orElseOnError p q) s Q := by
  intro a s' hrun
  have hrun' : orElseOnError p q s = .ok (a, s') := hrun
  rw [orElseOnError] at hrun'
  split at hrun'
  · exact hq a s' hrun'
  · exact hp a s' hrun'

end Yields

/-! ### Stretches of tokens -/

/-- **The parser takes the tokens**, comes out at the nesting where it went in, and counts what
they cost. -/
structure Takes (tokens : List Token) (c : Cost) (s s' : ParserState) : Prop where
  tokens : s.tokens = tokens ++ s'.tokens
  depth : s'.depth = s.depth
  aggs : s'.aggCount = s.aggCount + c.aggs
  ariths : s'.arithCount = s.arithCount + c.ariths
  thresholds : s'.thresholdIndex = s.thresholdIndex + c.thresholds
  aggLimit : s.aggCount ≤ maxAggCalls → s'.aggCount ≤ maxAggCalls
  arithLimit : s.arithCount ≤ maxArithOps → s'.arithCount ≤ maxArithOps

namespace Takes

variable {b c c' : Cost} {s s' s₁ s₂ : ParserState} {t : Token} {tokens tokens' rest : List Token}

theorem append (h : Takes tokens c s s₁) (h' : Takes tokens' c' s₁ s') :
    Takes (tokens ++ tokens') (c + c') s s' where
  tokens := by rw [h.tokens, h'.tokens, List.append_assoc]
  depth := h'.depth.trans h.depth
  aggs := by rw [h'.aggs, h.aggs, Nat.add_assoc]; rfl
  ariths := by rw [h'.ariths, h.ariths, Nat.add_assoc]; rfl
  thresholds := by rw [h'.thresholds, h.thresholds, Nat.add_assoc]; rfl
  aggLimit := h'.aggLimit ∘ h.aggLimit
  arithLimit := h'.arithLimit ∘ h.arithLimit

theorem counts (h : Takes tokens c s s') (haggs : c.aggs = c'.aggs)
    (hariths : c.ariths = c'.ariths) (hthresholds : c.thresholds = c'.thresholds) :
    Takes tokens c' s s' :=
  ⟨h.tokens, h.depth, haggs ▸ h.aggs, hariths ▸ h.ariths, hthresholds ▸ h.thresholds, h.aggLimit,
    h.arithLimit⟩

theorem one (h : s.tokens = t :: rest) : Takes [t] 0 s { s with tokens := rest } :=
  ⟨h, rfl, rfl, rfl, rfl, id, id⟩

theorem concat (h : Takes tokens c s s') (ht : s'.tokens = t :: rest) :
    Takes (tokens ++ [t]) c s { s' with tokens := rest } :=
  (h.append (one ht)).counts rfl rfl rfl

theorem countAgg (h : Takes tokens c s s') (hcount : s'.aggCount + 1 ≤ maxAggCalls) :
    Takes tokens (c + ⟨0, 0, 1, 0, 0⟩) s { s' with aggCount := s'.aggCount + 1 } :=
  ⟨h.tokens, h.depth, congrArg (· + 1) h.aggs, h.ariths, h.thresholds, fun _ => hcount,
    h.arithLimit⟩

theorem operator (hs : s.tokens = t :: rest) (hcount : s.arithCount + 1 ≤ maxArithOps) :
    Takes [t] ⟨-1, 0, 0, 1, 0⟩ s { s with arithCount := s.arithCount + 1, tokens := rest } :=
  ⟨hs, rfl, rfl, rfl, rfl, id, fun _ => hcount⟩

theorem parens {rest' : List Token}
    (h : Takes tokens c { s with depth := s.depth + 1, tokens := rest } s')
    (hlparen : s.tokens = .lparen :: rest) (hrparen : s'.tokens = .rparen :: rest') :
    Takes (.lparen :: (tokens ++ [.rparen])) c s
      { s' with tokens := rest', depth := s'.depth - 1 } := by
  refine ⟨?_, ?_, h.aggs, h.ariths, h.thresholds, h.aggLimit, h.arithLimit⟩
  · have htokens : rest = tokens ++ s'.tokens := h.tokens
    rw [hlparen, htokens, hrparen]
    simp
  · show s'.depth - 1 = _
    rw [h.depth, Nat.add_sub_cancel]

theorem zero_left (h : Takes tokens (0 + c) s s') : Takes tokens c s s' :=
  h.counts (Nat.zero_add _) (Nat.zero_add _) (Nat.zero_add _)

theorem after (h' : Takes tokens' c' s₂ s') (h : Takes tokens c s s₁)
    (hsign : Takes [t] b s₁ s₂) : Takes (tokens ++ t :: tokens') (c + b + c') s s' := by
  have hall := (h.append hsign).append h'
  rwa [List.append_assoc] at hall

end Takes

/-- The nesting that the limit leaves room for. -/
def ParserState.room (s : ParserState) : ℕ := maxNestingDepth - s.depth

variable {tokens : List Token} {s : ParserState} {s' : ParserState}

theorem Takes.room {c : Cost} (h : Takes tokens c s s') : s'.room = s.room := by
  rw [ParserState.room, ParserState.room, h.depth]

theorem ParserState.room_succ (h : s.depth + 1 ≤ maxNestingDepth) (rest : List Token) :
    ({ s with depth := s.depth + 1, tokens := rest } : ParserState).room + 1 = s.room := by
  simp only [ParserState.room]
  omega

/-! ### Arithmetic -/

/-- The parser returns arithmetic that is derived from the tokens taken. -/
def ArithTaken (sort : ArithSort) (s : ParserState) (node : ArithNode) (s' : ParserState) : Prop :=
  ∃ tokens, Takes tokens node.cost s s' ∧ DerivesArith accepted sort s.room tokens node

/-- What the arithmetic parsers derive, for one amount of fuel. A loop has taken some tokens
before. -/
structure ArithDerived (fuel : ℕ) : Prop where
  expr : ∀ s, Yields (parseArithExpr fuel) s (ArithTaken .expr s)
  exprRest : ∀ s s' left, ArithTaken .expr s left s' →
    Yields (parseArithExprRest fuel left) s' (ArithTaken .expr s)
  term : ∀ s, Yields (parseArithTerm fuel) s (ArithTaken .term s)
  termRest : ∀ s s' left, ArithTaken .term s left s' →
    Yields (parseArithTermRest fuel left) s' (ArithTaken .term s)
  atom : ∀ s, Yields (parseArithAtom fuel) s (ArithTaken .atom s)

theorem ArithOperator.isFactor_eq_false {op : ArithOperator} (h : op = .add ∨ op = .sub) :
    op.isFactor = false := by
  rcases h with rfl | rfl <;> rfl

open Yields in
theorem parseAggCall_derives (s : ParserState) : Yields parseAggCall s (ArithTaken .atom s) := by
  refine Yields.bind (consume_ fun t rest func ht hread => ?_)
  obtain rfl : t = .aggFunc func := by
    cases t <;> cases hread
    rfl
  have hfunc := Takes.one ht
  refine Yields.bind (consumeSign_ fun rest hlparen => ?_)
  have hopen := hfunc.concat hlparen
  refine peek_bind ?_
  split
  · refine Yields.bind (consumeIdent_ fun metric rest hmetric => ?_)
    have hname := hopen.concat hmetric
    refine checkIdentifierLength_bind fun hshort => ?_
    refine Yields.bind (consumeSign_ fun rest hrparen => ?_)
    have hclose := hname.concat hrparen
    exact countAgg_bind fun hcount => return_
      ⟨_, (hclose.countAgg hcount).counts rfl rfl rfl, .aggCall hshort⟩
  · exact fail_ _

variable (fuel : ℕ)

open Yields in
/-- **The arithmetic parsers take what is derived.** -/
theorem arithDerived : ArithDerived fuel := by
  induction fuel with
  | zero => constructor <;> intros <;> exact fun _ _ h => (run_throw_eq_ok.1 h).elim
  | succ fuel ih =>
    refine ⟨fun s => ?_, fun s s' left hleft => ?_, fun s => ?_, fun s s' left hleft => ?_,
      fun s => ?_⟩
    · refine Yields.bind ((ih.term s).mono fun left s' hleft => ?_)
      obtain ⟨tokens, htakes, hterm⟩ := hleft
      exact ih.exprRest s s' left ⟨tokens, htakes, .ofTerm hterm⟩
    · refine peek_bind ?_
      split
      next op ht =>
        split
        next hop =>
          refine countArith_bind fun hcount => advance_bind ht fun rest hrest => ?_
          refine Yields.bind ((ih.term _).mono fun right s'' hright => ?_)
          obtain ⟨tokens, htakes, hexpr⟩ := hleft
          obtain ⟨tokens', htakes', hterm⟩ := hright
          change DerivesArith accepted _ s'.room tokens' right at hterm
          rw [htakes.room] at hterm
          exact ih.exprRest s s'' _ ⟨_, htakes'.after htakes (.operator hrest hcount),
            .summand (ArithOperator.isFactor_eq_false hop) hexpr hterm⟩
        · exact return_ hleft
      · exact return_ hleft
    · refine Yields.bind ((ih.atom s).mono fun left s' hleft => ?_)
      obtain ⟨tokens, htakes, hatom⟩ := hleft
      exact ih.termRest s s' left ⟨tokens, htakes, .ofAtom hatom⟩
    · refine peek_bind ?_
      split
      next op ht =>
        split
        next hop =>
          refine countArith_bind fun hcount => advance_bind ht fun rest hrest => ?_
          refine Yields.bind ((ih.atom _).mono fun right s'' hright => ?_)
          obtain ⟨tokens, htakes, hterm⟩ := hleft
          obtain ⟨tokens', htakes', hatom⟩ := hright
          change DerivesArith accepted _ s'.room tokens' right at hatom
          rw [htakes.room] at hatom
          exact ih.termRest s s'' _ ⟨_, htakes'.after htakes (.operator hrest hcount),
            .factor (decide_eq_true hop) hterm hatom⟩
        · exact return_ hleft
      · exact return_ hleft
    · refine peek_bind ?_
      split
      · exact fail_ _
      · exact parseAggCall_derives s
      next digits ht =>
        exact advance_bind ht fun rest hrest => return_
          ⟨_, (Takes.one hrest).counts rfl rfl rfl, .number⟩
      next ht =>
        refine enterDepth_bind fun hdepth => advance_bind ht fun rest hrest => ?_
        refine Yields.bind ((ih.expr _).mono fun node s' hnode => ?_)
        obtain ⟨tokens, htakes, hexpr⟩ := hnode
        refine Yields.bind (consumeSign_ fun rest' hrparen => ?_)
        have hgroup := DerivesArith.group hexpr
        rw [ParserState.room_succ hdepth] at hgroup
        exact modify_bind (return_ ⟨_, htakes.parens hrest hrparen, hgroup⟩)
      · exact fail_ _

theorem ArithNode.cost_thresholds (node : ArithNode) : node.cost.thresholds = 0 := by
  induction node with
  | aggCall func metric => rfl
  | numericLiteral value => rfl
  | arithOp op left right ihl ihr => simp [cost, ihl, ihr]

/-! ### Conditions -/

/-- The parser returns an expression that is derived from the tokens taken, and numbers its
inline thresholds. -/
structure AstDerived (sort : AstSort) (s : ParserState) (tokens : List Token) (node : Ast)
    (s' : ParserState) : Prop where
  takes : Takes tokens node.cost s s'
  indexed : node.Indexed s.thresholdIndex
  derives : DerivesAst accepted sort s.room tokens node

/-- Some tokens are taken, from which the expression is derived. -/
def AstTaken (sort : AstSort) (s : ParserState) (node : Ast) (s' : ParserState) : Prop :=
  ∃ tokens, AstDerived sort s tokens node s'

theorem isOperator_accepted (op : CompareOp) : accepted.IsOperator op := fun _ => rfl

/-- The right side of a comparison, with the number of an inline threshold. -/
structure RightTaken (left : ArithNode) (s : ParserState) (t : Token) (right : Operand)
    (s' : ParserState) : Prop where
  takes : Takes [t] right.cost s s'
  indexed : ∀ op, (Ast.comparison left op right).Indexed s.thresholdIndex
  derives : DerivesThreshold accepted t right ∨ ∃ value, t = .string value ∧ right = .text value

open Yields in
theorem parseThresholdRef_derives (left : ArithNode) (s : ParserState) :
    Yields (parseThresholdRef left) s fun right s' => ∃ t, RightTaken left s t right s' := by
  refine peek_bind ?_
  split
  · exact fail_ _
  next digits ht =>
    refine advance_bind ht fun rest hrest => get_bind (modify_bind (return_ ?_))
    exact ⟨_, ⟨hrest, rfl, rfl, rfl, rfl, id, id⟩, fun op => rfl, .inl .number⟩
  next name ht =>
    exact advance_bind ht fun rest hrest => return_
      ⟨_, (Takes.one hrest).counts rfl rfl rfl, fun op => trivial, .inl .ident⟩
  next value ht =>
    exact advance_bind ht fun rest hrest => return_
      ⟨_, (Takes.one hrest).counts rfl rfl rfl, fun op => trivial, .inr ⟨value, rfl, rfl⟩⟩
  · exact fail_ _

open Yields in
theorem parseArithComparison_derives (s : ParserState) :
    Yields (parseArithComparison fuel) s (AstTaken .condition s) := by
  refine Yields.bind (((arithDerived fuel).expr s).mono fun left s' hleft => ?_)
  obtain ⟨tokens, htakes, hexpr⟩ := hleft
  refine Yields.bind (consume_ fun t rest op ht hread => ?_)
  obtain rfl : t = .op op := by
    cases t <;> cases hread
    rfl
  refine Yields.bind ((parseThresholdRef_derives left _).mono fun right s'' hright => ?_)
  obtain ⟨t, hright⟩ := hright
  have hall : Takes (tokens ++ [.op op, t]) (Ast.comparison left op right).cost s s'' :=
    (hright.takes.after htakes (.one ht)).counts rfl rfl rfl
  have hindexed := hright.indexed op
  change (Ast.comparison left op right).Indexed s'.thresholdIndex at hindexed
  rw [htakes.thresholds, left.cost_thresholds, Nat.add_zero] at hindexed
  rcases hright.derives with hthreshold | ⟨value, rfl, rfl⟩
  · exact return_ ⟨_, hall, hindexed, .comparison hexpr (isOperator_accepted op) hthreshold⟩
  · exact return_ ⟨_, hall, hindexed, .textComparison rfl hexpr (isOperator_accepted op)⟩

open Yields in
theorem parseListValue_derives (message : String) (s : ParserState) :
    Yields (parseListValue message) s fun value s' => ∃ t, Takes [t] 0 s s' ∧
      DerivesValue t value := by
  refine peek_bind ?_
  split
  next ht => exact advance_bind ht fun rest hrest => return_ ⟨_, .one hrest, .string⟩
  next ht => exact advance_bind ht fun rest hrest => return_ ⟨_, .one hrest, .number⟩
  · exact fail_ _

variable {values : List String}

theorem DerivesValues.concat {t : Token} {value : String}
    (h : DerivesValues tokens values) (ht : DerivesValue t value) :
    DerivesValues (tokens ++ [.comma, t]) (values ++ [value]) := by
  induction h with
  | one ht' => exact .cons ht' (.one ht)
  | cons ht' _ ih => exact .cons ht' ih

open Yields in
theorem parseValueListRest_derives
    (htakes : Takes tokens 0 s s') (hvalues : DerivesValues tokens values) :
    Yields (parseValueListRest fuel values) s' fun found s'' => ∃ tokens,
      Takes tokens 0 s s'' ∧ DerivesValues tokens found := by
  induction fuel generalizing values s' tokens with
  | zero => exact fun _ _ h => (run_throw_eq_ok.1 h).elim
  | succ fuel ih =>
    refine peek_bind ?_
    split
    next ht =>
      refine advance_bind ht fun rest hrest => ?_
      refine Yields.bind ((parseListValue_derives _ _).mono fun value s'' hvalue => ?_)
      obtain ⟨t, htakes', ht⟩ := hvalue
      exact ih (htakes'.after htakes (.one hrest)) (hvalues.concat ht)
    · exact return_ ⟨tokens, htakes, hvalues⟩

open Yields in
theorem parseInList_derives (ident : String) (negated : Bool) (s : ParserState) :
    Yields (parseInList fuel ident negated) s fun node s' => ∃ tokens values,
      Takes (.lparen :: (tokens ++ [.rparen])) 0 s s' ∧ DerivesValues tokens values ∧
        node = .inList ident values negated := by
  refine Yields.bind (consumeSign_ fun rest hlparen => ?_)
  refine Yields.bind (Yields.bind ((parseListValue_derives _ _).mono fun value s' hvalue => ?_))
  obtain ⟨t, htakes, ht⟩ := hvalue
  refine (parseValueListRest_derives fuel htakes (.one ht)).mono fun values s'' hvalues => ?_
  obtain ⟨tokens, htakes', hvalues⟩ := hvalues
  refine Yields.bind (consumeSign_ fun rest' hrparen => return_ ⟨tokens, values, ?_, hvalues, rfl⟩)
  exact (Takes.one hlparen).append (htakes'.concat hrparen)

open Yields in
theorem parseIdentComparison_derives {ident : String} (op : CompareOp) (s : ParserState)
    (hident : ident.toList.length ≤ identifierMaxLength) (d : ℕ) :
    Yields (parseIdentComparison ident op) s fun node s' => ∃ t, Takes [t] node.cost s s' ∧
      node.Indexed s.thresholdIndex ∧
      DerivesAst accepted .condition d [.ident ident, .op op, t] node := by
  have hop := isOperator_accepted op
  have hpromoted : (∀ value, s.tokens.head? ≠ some (.string value)) →
      Yields (countAgg >>= fun _ => parseThresholdRef (.aggCall .last ident) >>=
        fun right => return .comparison (.aggCall .last ident) op right) s
        fun node s' => ∃ t, Takes [t] node.cost s s' ∧ node.Indexed s.thresholdIndex ∧
          DerivesAst accepted .condition d [.ident ident, .op op, t] node := by
    intro hhead
    refine countAgg_bind fun hcount => ?_
    refine Yields.bind ((parseThresholdRef_derives _ _).mono fun right s' hright => ?_)
    obtain ⟨t, htakes, hindexed, hthreshold⟩ := hright
    have hstart : Takes [] 0 s s := ⟨rfl, rfl, rfl, rfl, rfl, id, id⟩
    have hall : Takes [t] (Ast.comparison (.aggCall .last ident) op right).cost s s' :=
      ((hstart.countAgg hcount).append htakes).counts rfl rfl rfl
    refine return_ ⟨t, hall, hindexed op, ?_⟩
    rcases hthreshold with hthreshold | ⟨value, rfl, rfl⟩
    · exact .bareComparison rfl hident hop hthreshold
    · exact absurd (congrArg List.head? htakes.tokens) (hhead value)
  refine peek_bind ?_
  split
  next ht => exact hpromoted fun value h => nomatch ht.symm.trans h
  next ht => exact hpromoted fun value h => nomatch ht.symm.trans h
  · refine Yields.bind (peek_bind ?_)
    split
    · exact fail_ _
    next ht =>
      exact advance_bind ht fun rest hrest => return_ (return_
        ⟨_, (Takes.one hrest).counts rfl rfl rfl, trivial, .keyComparison hident hop⟩)
    · exact fail_ _

open Yields in
theorem parseIdentCondition_derives (s : ParserState) :
    Yields (parseIdentCondition fuel) s (AstTaken .condition s) := by
  refine Yields.bind (consumeIdent_ fun ident rest hrest => ?_)
  have hname := Takes.one hrest
  refine checkIdentifierLength_bind fun hident => peek_bind ?_
  split
  next ht =>
    exact advance_bind ht fun rest' hrest' => return_
      ⟨_, (hname.concat hrest').counts rfl rfl rfl, trivial, .changed hident⟩
  next ht =>
    refine advance_bind ht fun rest' hrest' => peek_bind ?_
    have hnot := hname.concat hrest'
    split
    next ht' =>
      refine advance_bind ht' fun rest'' hrest'' => ?_
      have hin := hnot.concat hrest''
      refine (parseInList_derives fuel ident true _).mono fun node s' hlist => ?_
      obtain ⟨tokens, values, htakes, hvalues, rfl⟩ := hlist
      exact ⟨_, (hin.append htakes).counts rfl rfl rfl, trivial, .notInList hident hvalues⟩
    · exact fail_ _
    · exact fail_ _
  next ht =>
    refine advance_bind ht fun rest' hrest' => ?_
    have hin := hname.concat hrest'
    refine (parseInList_derives fuel ident false _).mono fun node s' hlist => ?_
    obtain ⟨tokens, values, htakes, hvalues, rfl⟩ := hlist
    exact ⟨_, (hin.append htakes).counts rfl rfl rfl, trivial, .inList hident hvalues⟩
  next op ht =>
    refine advance_bind ht fun rest' hrest' => ?_
    have hop := hname.concat hrest'
    refine (parseIdentComparison_derives op _ hident s.room).mono fun node s' hnode => ?_
    obtain ⟨t, htakes, hindexed, hderives⟩ := hnode
    exact ⟨_, (hop.append htakes).zero_left, hindexed, hderives⟩
  · exact fail_ _

/-- What the condition parsers derive, for one amount of fuel. -/
structure ConditionDerived (fuel : ℕ) : Prop where
  expression : ∀ s, Yields (parseExpression fuel) s (AstTaken .expression s)
  expressionRest : ∀ s s' left, AstTaken .expression s left s' →
    Yields (parseExpressionRest fuel left) s' (AstTaken .expression s)
  condition : ∀ s, Yields (parseCondition fuel) s (AstTaken .condition s)

open Yields in
/-- **The condition parsers take what is derived.** -/
theorem conditionDerived : ConditionDerived fuel := by
  induction fuel with
  | zero => constructor <;> intros <;> exact fun _ _ h => (run_throw_eq_ok.1 h).elim
  | succ fuel ih =>
    have hround : ∀ (op : BoolOperator) (left : Ast) (rest : List Token) (s s' : ParserState),
        AstTaken .expression s left s' → s'.tokens = .keyword op.keyword :: rest →
        Yields (parseCondition fuel >>= fun right =>
          parseExpressionRest fuel (.boolOp op left right)) { s' with tokens := rest }
          (AstTaken .expression s) := by
      intro op left rest s s' hleft hrest
      refine Yields.bind ((ih.condition _).mono fun right s'' hright => ?_)
      obtain ⟨tokens, htakes, hindexed, hexpression⟩ := hleft
      obtain ⟨tokens', htakes', hindexed', hcondition⟩ := hright
      change DerivesAst accepted _ s'.room tokens' right at hcondition
      change right.Indexed s'.thresholdIndex at hindexed'
      rw [htakes.room] at hcondition
      rw [htakes.thresholds] at hindexed'
      exact ih.expressionRest s s'' _ ⟨_, (htakes'.after htakes (.one hrest)).counts rfl rfl rfl,
        ⟨hindexed, hindexed'⟩, .boolOp hexpression hcondition⟩
    refine ⟨fun s => ?_, fun s s' left hleft => ?_, fun s => ?_⟩
    · refine Yields.bind ((ih.condition s).mono fun left s' hleft => ?_)
      obtain ⟨tokens, htakes, hindexed, hcondition⟩ := hleft
      exact ih.expressionRest s s' left ⟨tokens, htakes, hindexed, .ofCondition hcondition⟩
    · refine peek_bind ?_
      split
      next ht => exact advance_bind ht fun rest hrest => hround .and left rest s s' hleft hrest
      next ht => exact advance_bind ht fun rest hrest => hround .or left rest s s' hleft hrest
      · exact return_ hleft
    · refine peek_bind ?_
      split
      · exact fail_ _
      next ht =>
        refine orElse (parseArithComparison_derives fuel s) ?_
        refine enterDepth_bind fun hdepth => advance_bind ht fun rest hrest => ?_
        refine Yields.bind ((ih.expression _).mono fun node s' hnode => ?_)
        obtain ⟨tokens, htakes, hindexed, hexpression⟩ := hnode
        refine Yields.bind (consumeSign_ fun rest' hrparen => ?_)
        have hgroup := DerivesAst.group hexpression
        rw [ParserState.room_succ hdepth] at hgroup
        exact modify_bind (return_ ⟨_, htakes.parens hrest hrparen, hindexed, hgroup⟩)
      · exact parseIdentCondition_derives fuel s
      · exact parseArithComparison_derives fuel s
      · exact parseArithComparison_derives fuel s
      · exact fail_ _

/-! ### The whole parser -/

/-- **The tokens of an expression that is accepted are derived**, and the tree is numbered and
within the limits. -/
theorem parseTokens_derives {ast : Ast} (h : parseTokens tokens = .ok ast) :
    DerivesAst accepted .expression maxNestingDepth tokens ast ∧ ast.Indexed 0 ∧
      ast.cost.aggs ≤ maxAggCalls ∧ ast.cost.ariths ≤ maxArithOps := by
  rw [parseTokens] at h
  obtain ⟨⟨node, s⟩, hrun, hend⟩ := bind_eq_ok.1 h
  obtain ⟨tokens', htakes, hindexed, hderives⟩ :=
    (conditionDerived (4 * tokens.length + 5)).expression ⟨tokens, 0, 0, 0, 0⟩ node s hrun
  have htokens : tokens = tokens' ++ s.tokens := htakes.tokens
  have haggs := htakes.aggLimit (Nat.zero_le _)
  have hariths := htakes.arithLimit (Nat.zero_le _)
  rw [htakes.aggs, Nat.zero_add] at haggs
  rw [htakes.ariths, Nat.zero_add] at hariths
  dsimp only at hend
  split at hend
  next hnil =>
    cases hend
    rw [hnil, List.append_nil] at htokens
    exact ⟨htokens ▸ hderives, hindexed, haggs, hariths⟩
  · cases hend

end MonCTL.Dsl
