import Mathlib.Data.List.Nodup
import MonCTL.Dsl.HavingSpec
import MonCTL.Lib.Decimal

/-!
# What the Compiler Emits: Configuration Queries

A query on the configuration table without aggregations looks at one configuration row at
a time. `buildConfigWhere_spec` says what its `WHERE` demands of a row: the row must pass
every condition of the expression, so in particular its key must be the key each of them
names.

Each condition binds its texts to placeholders of its own number, so later conditions do
not disturb them.
-/

namespace MonCTL.Dsl

open List StateExcept

/-! ### Placeholders -/

theorem strKey_toList (i : ℕ) : (strKey i).toList = "_str_val_".toList ++ (toString i).toList := by
  rw [strKey, String.toList_append]
  rfl

theorem inKey_toList (i j : ℕ) : (inKey i j).toList =
    "_in_val_".toList ++ ((toString i).toList ++ '_' :: (toString j).toList) := by
  simp only [inKey, String.toList_append, append_assoc]
  rfl

variable {i j : ℕ}

theorem strKey_injective (h : strKey i = strKey j) : i = j := by
  have h := congrArg String.toList h
  rw [strKey_toList, strKey_toList] at h
  exact Decimal.toList_toString_injective (append_cancel_left h)

variable {i' : ℕ}

theorem inKey_injective {j' : ℕ} (h : inKey i j = inKey i' j') : i = i' ∧ j = j' := by
  have h := congrArg String.toList h
  rw [inKey_toList, inKey_toList] at h
  obtain ⟨hi, hj⟩ := Decimal.append_separator_inj (p := fun c => c.isDigit = true) (by decide)
    (fun c hc => Decimal.isDigit_of_mem_toString hc)
    (fun c hc => Decimal.isDigit_of_mem_toString hc) (append_cancel_left h)
  exact ⟨Decimal.toList_toString_injective hi, Decimal.toList_toString_injective hj⟩

theorem strKey_ne_inKey (i j k : ℕ) : strKey i ≠ inKey j k := by
  intro h
  have h := congrArg (fun s => s.toList[1]?) h
  simp only [strKey_toList, inKey_toList] at h
  revert h
  simp

/-- The placeholders of the `i`-th configuration condition. -/
def PlaceholderOf (i : ℕ) (key : String) : Prop := key = strKey i ∨ ∃ j, key = inKey i j

theorem PlaceholderOf.unique {key : String} (h : PlaceholderOf i key)
    (h' : PlaceholderOf i' key) : i = i' := by
  rcases h with rfl | ⟨j, rfl⟩
  · rcases h' with h' | ⟨j', h'⟩
    · exact strKey_injective h'
    · exact absurd h' (strKey_ne_inKey _ _ _)
  · rcases h' with h' | ⟨j', h'⟩
    · exact absurd h'.symm (strKey_ne_inKey _ _ _)
    · exact (inKey_injective h').1

/-! ### The walk over an expression -/

/-- What the query demands of the configuration row `(key, value)` for one condition of the
expression. -/
def RowDemands (key value : String) : Ast → Prop
  | .keyComparison k op text => key = k ∧ op.Holds value text
  | .inList k values negated => key = k ∧ if negated then value ∉ values else value ∈ values
  | _ => True

/-- What a successful walk has done: it has emitted `parts`, and bound their placeholders. -/
structure WhereEmitted (ast : Ast) (s : CompilerState) (parts : List ConfigWhere)
    (s' : CompilerState) : Prop where
  strIdx_le : s.strIdx ≤ s'.strIdx
  /-- The placeholders of earlier conditions keep their values. -/
  frame : ∀ i key, PlaceholderOf i key → i < s.strIdx → s'.params.lookup key = s.params.lookup key
  /-- Under any parameters that agree on the new placeholders, a row passes the new
  conditions exactly when it passes each condition of the expression. -/
  holds : ∀ params : Dict String ParamValue,
    (∀ i key, PlaceholderOf i key → s.strIdx ≤ i → i < s'.strIdx →
      params.lookup key = s'.params.lookup key) →
    ∀ key value, (∀ w ∈ parts, w.Holds params key value) ↔
      ∀ leaf ∈ ast.leaves, RowDemands key value leaf

variable {k : String} {s s' : CompilerState} {parts : List ConfigWhere}

theorem buildConfigWhere_keyComparison_spec {text : String} {op : CompareOp}
    (h : (buildConfigWhere (.keyComparison k op text)).run s = .ok (parts, s')) :
    WhereEmitted (.keyComparison k op text) s parts s' ∧ parts ≠ [] := by
  simp only [buildConfigWhere, checkCompareOp, run_bind_eq_ok, run_ite_eq_ok, run_pure_eq_ok,
    run_throw_eq_ok, and_false, or_false, run_get_eq_ok, run_modify_eq_ok, Prod.mk.injEq] at h
  obtain ⟨_, s₁, ⟨-, -, hs₁⟩, k', s₂, hsafe, _, t, ⟨hget, ht⟩, _, t', ⟨-, ht'⟩, rfl, rfl⟩ := h
  obtain ⟨rfl, hs₂⟩ := assertSafeIdentifier_eq_ok hsafe
  subst hs₁ hs₂ hget ht ht'
  refine ⟨⟨Nat.le_succ _, fun i key hkey hi => ?_, fun params hparams key value => ?_⟩, by simp⟩
  · refine Dict.lookup_set_ne (fun hk => ?_) _ _
    have := hkey.unique (.inl hk)
    omega
  · have hlookup := hparams t.strIdx _ (.inl rfl) le_rfl (Nat.lt_succ_self _)
    simp [ConfigWhere.Holds, hlookup, Ast.leaves, RowDemands]

theorem buildConfigWhere_inList_spec {values : List String} {negated : Bool}
    (h : (buildConfigWhere (.inList k values negated)).run s = .ok (parts, s')) :
    WhereEmitted (.inList k values negated) s parts s' ∧ parts ≠ [] := by
  simp only [buildConfigWhere, run_bind_eq_ok, run_pure_eq_ok, run_get_eq_ok,
    run_modify_eq_ok, Prod.mk.injEq] at h
  obtain ⟨k', s₂, hsafe, _, t, ⟨hget, ht⟩, _, t', ⟨-, ht'⟩, rfl, rfl⟩ := h
  obtain ⟨rfl, hs₂⟩ := assertSafeIdentifier_eq_ok hsafe
  subst hs₂ hget ht ht'
  refine ⟨⟨Nat.le_succ _, fun i key hkey hi => ?_, fun params hparams key value => ?_⟩, by simp⟩
  · refine Dict.lookup_setAll_of_notMem (fun hmem => ?_) _
    obtain ⟨w, hw, rfl⟩ := List.mem_map.1 hmem
    obtain ⟨j, hj, rfl⟩ := List.mem_mapIdx.1 hw
    have := hkey.unique (.inr ⟨j, rfl⟩)
    omega
  · have hnodup : ((values.mapIdx fun j value =>
        (inKey t.strIdx j, ParamValue.text value)).map Prod.fst).Nodup := by
      refine List.nodup_iff_injective_get.2 (fun i j hij => Fin.ext ?_)
      simp only [get_eq_getElem, getElem_map, getElem_mapIdx] at hij
      exact (inKey_injective hij).2
    have hlookup : ∀ j (hj : j < values.length),
        params.lookup (inKey t.strIdx j) = some (.text values[j]) := by
      intro j hj
      rw [hparams t.strIdx _ (.inr ⟨j, rfl⟩) le_rfl (Nat.lt_succ_self _)]
      exact Dict.lookup_setAll_of_mem hnodup (List.mem_mapIdx.2 ⟨j, hj, rfl⟩) _
    have hmem : (∃ key ∈ (List.range values.length).map (inKey t.strIdx),
        params.lookup key = some (.text value)) ↔ value ∈ values := by
      constructor
      · rintro ⟨key, hkey, hvalue⟩
        obtain ⟨j, hj, rfl⟩ := List.mem_map.1 hkey
        have hj := List.mem_range.1 hj
        rw [hlookup j hj, Option.some.injEq, ParamValue.text.injEq] at hvalue
        exact hvalue ▸ getElem_mem hj
      · intro hvalue
        obtain ⟨j, hj, rfl⟩ := List.mem_iff_getElem.1 hvalue
        exact ⟨_, mem_map_of_mem (List.mem_range.2 hj), hlookup j hj⟩
    have hnotmem : (∀ key ∈ (List.range values.length).map (inKey t.strIdx),
        params.lookup key ≠ some (.text value)) ↔ value ∉ values := by
      rw [← hmem]
      push Not
      rfl
    rw [Ast.leaves, forall_mem_cons, forall_mem_singleton, forall_mem_singleton]
    cases negated with
    | true => simp only [ConfigWhere.Holds, RowDemands, if_true, hnotmem]
    | false => simp only [ConfigWhere.Holds, RowDemands, Bool.false_eq_true, if_false, hmem]

variable {ast : Ast}

/-- **The specification of the walk**: whatever connectives join the conditions of an
expression, the query demands all of them of one and the same row. -/
theorem buildConfigWhere_spec
    (h : (buildConfigWhere ast).run s = .ok (parts, s')) : WhereEmitted ast s parts s' := by
  induction ast generalizing s s' parts with
  | keyComparison k op text => exact (buildConfigWhere_keyComparison_spec h).1
  | inList k values negated => exact (buildConfigWhere_inList_spec h).1
  | comparison | changed =>
    simp only [buildConfigWhere, run_pure_eq_ok, Prod.mk.injEq] at h
    obtain ⟨rfl, rfl⟩ := h
    exact ⟨le_rfl, fun _ _ _ _ => rfl, fun _ _ _ _ => by simp [Ast.leaves, RowDemands]⟩
  | boolOp op left right ihl ihr =>
    simp only [buildConfigWhere, run_bind_eq_ok, run_pure_eq_ok, Prod.mk.injEq] at h
    obtain ⟨lparts, s₁, hl, rparts, s₂, hr, rfl, rfl⟩ := h
    have el := ihl hl
    have er := ihr hr
    refine ⟨el.strIdx_le.trans er.strIdx_le, fun i key hkey hi => ?_,
      fun params hparams key value => ?_⟩
    · rw [er.frame i key hkey (hi.trans_le el.strIdx_le), el.frame i key hkey hi]
    · have hleft := el.holds params (fun i k hk hi hi' => by
        rw [hparams i k hk hi (hi'.trans_le er.strIdx_le), er.frame i k hk hi']) key value
      have hright := er.holds params (fun i k hk hi hi' =>
        hparams i k hk (el.strIdx_le.trans hi) hi') key value
      rw [Ast.leaves]
      simp only [mem_append, or_imp, forall_and, hleft, hright]

variable {leaf : Ast}

theorem buildConfigWhere_leaf
    (h : (buildConfigWhere ast).run s = .ok (parts, s')) (hleaf : leaf ∈ ast.leaves) :
    ∃ t parts t', (buildConfigWhere leaf).run t = .ok (parts, t') := by
  induction ast generalizing s s' parts with
  | boolOp op left right ihl ihr =>
    simp only [buildConfigWhere, run_bind_eq_ok] at h
    obtain ⟨lparts, s₁, hl, rparts, s₂, hr, -⟩ := h
    rw [Ast.leaves, mem_append] at hleaf
    exact hleaf.elim (ihl hl) (ihr hr)
  | comparison | keyComparison | changed | inList =>
    simp only [Ast.leaves, mem_singleton] at hleaf
    exact ⟨s, parts, s', hleaf ▸ h⟩

/-! ### Which conditions show in the query -/

/-- Whether a condition tests the value of a configuration key. -/
def Ast.isConfigTest : Ast → Bool
  | .keyComparison _ _ _ => true
  | .inList _ _ _ => true
  | _ => false

/-- A condition shows in a configuration query exactly when it tests a configuration
value. -/
theorem emitsWhere_iff (hleaf : leaf.leaves = [leaf])
    (hrun : ∃ t parts t', (buildConfigWhere leaf).run t = .ok (parts, t')) :
    EmitsWhere leaf ↔ leaf.isConfigTest = true := by
  cases leaf with
  | keyComparison k op text =>
    obtain ⟨t, parts, t', h⟩ := hrun
    exact ⟨fun _ => rfl, fun _ => ⟨t, parts, t', h, (buildConfigWhere_keyComparison_spec h).2⟩⟩
  | inList k values negated =>
    obtain ⟨t, parts, t', h⟩ := hrun
    exact ⟨fun _ => rfl, fun _ => ⟨t, parts, t', h, (buildConfigWhere_inList_spec h).2⟩⟩
  | comparison | changed =>
    simp only [Ast.isConfigTest, Bool.false_eq_true, iff_false]
    rintro ⟨s, parts, s', h, hne⟩
    simp only [buildConfigWhere, run_pure_eq_ok, Prod.mk.injEq] at h
    exact hne h.1
  | boolOp op left right =>
    have hl := length_pos_of_ne_nil left.leaves_ne_nil
    have hr := length_pos_of_ne_nil right.leaves_ne_nil
    have hlen := congrArg List.length hleaf
    simp only [Ast.leaves, length_append, length_singleton] at hlen
    omega

end MonCTL.Dsl
