import Mathlib.Data.Rat.Floor
import MonCTL.CentralScheduler.Rebalancer

/-!
# The Weights of a Rebalance

From the costs that its simulation gives to the hosts the rebalancer computes new weights, each of
which moves the one before it towards the inverse of the cost. It stores them if the costs are out
of balance and a weight changes enough. Otherwise it stores the weights that it has started from.

Weights are rationals. A division by zero is an error, and so is sorting hosts of which one has no
name.
-/

namespace MonCTL.CentralScheduler

open List CollectorApi

/-! ### Numbers -/

/-- `round` to a whole number: to the nearest one, and to the even one of two. -/
def roundHalfEven (q : ℚ) : ℤ :=
  if q - ⌊q⌋ < 1 / 2 then ⌊q⌋
  else if 1 / 2 < q - ⌊q⌋ then ⌊q⌋ + 1
  else if ⌊q⌋ % 2 = 0 then ⌊q⌋ else ⌊q⌋ + 1

/-- `round(q, 4)`. -/
def round4 (q : ℚ) : ℚ := roundHalfEven (q * 10000) / 10000

theorem round4_one : round4 1 = 1 := by decide +kernel

theorem round4_le_one {q : ℚ} (h : q ≤ 1) : round4 q ≤ 1 := by
  have hround : roundHalfEven (q * 10000) ≤ 10000 := by
    have hle : q * 10000 ≤ (10000 : ℤ) := by
      push_cast
      linarith
    have hfloor : ⌊q * 10000⌋ ≤ 10000 := Int.floor_le_iff.2 (by push_cast at hle ⊢; linarith)
    rcases hfloor.lt_or_eq with hlt | heq
    · rw [roundHalfEven]
      split_ifs <;> omega
    · have hpart : q * 10000 - ⌊q * 10000⌋ < 1 / 2 := by
        rw [heq]
        push_cast at hle ⊢
        linarith
      rw [roundHalfEven, if_pos hpart, heq]
  rw [round4, div_le_one (by norm_num)]
  exact_mod_cast hround

/-! ### The rebalancer -/

/-- What may be raised. -/
inductive RebalanceError
  | zeroDivision
  | unnamedHost
  deriving DecidableEq

/-- `a / b`. -/
def divide (a b : ℚ) : Except RebalanceError ℚ :=
  if b = 0 then .error .zeroDivision else .ok (a / b)

theorem divide_of_pos {a b : ℚ} (h : 0 < b) : divide a b = .ok (a / b) := if_neg h.ne'

/-- The largest of some values. -/
def maxValue (d : Dict (Option String) ℚ) : ℚ := (d.map Prod.snd).max?.getD 0

/-- A function of the values of a dictionary, which may raise. -/
def mapValues (f : ℚ → Except RebalanceError ℚ) (d : Dict (Option String) ℚ) :
    Except RebalanceError (Dict (Option String) ℚ) :=
  d.mapM fun e => do return (e.1, ← f e.2)

def newWeights (current costs : Dict (Option String) ℚ) :
    Except RebalanceError (Dict (Option String) ℚ) := do
  let targets ← mapValues (fun cost => divide 1 (max cost (1 / 1000))) costs
  let maxTarget := maxValue targets
  let targets ← if 0 < maxTarget then mapValues (divide · maxTarget) targets else pure targets
  let blended := targets.map fun e => (e.1, 3 / 10 * e.2 + (1 - 3 / 10) * (current.get? e.1).getD 1)
  let maxBlended := maxValue blended
  if 0 < maxBlended then
    mapValues (fun w => do return max (3 / 10) (round4 (← divide w maxBlended))) blended
  else pure blended

/-- `cost_per_collector`, with the costs of the assignments. -/
def groupCosts (sha256 : String → ℕ) (s : Fleet) (g : Uuid)
    (avgExecutionTime interval : Uuid → Option ℚ) :
    Except RebalanceError (Dict (Option String) ℚ) :=
  let rows := rebalanceRows s g
  if ∃ a ∈ rows, simulatedOwner sha256 s g a.id = none then .error .unnamedHost
  else (hostsOf s g).dedup.mapM fun h => do
    let shares ← (simulatedRows sha256 s g h rows).mapM fun a =>
      divide ((avgExecutionTime a.id).getD 5) (max ((interval a.id).getD 300) 1)
    return (h, shares.sum)

/-- `_rebalance_group`: the weights that it stores with the number of collectors, if it comes to
that. -/
def rebalanceGroup (sha256 : String → ℕ) (s : Fleet) (g : Uuid)
    (avgExecutionTime interval : Uuid → Option ℚ) :
    Except RebalanceError (Option (Dict (Option String) ℚ × ℕ)) := do
  if (s.groupCollectors g).length < 2 then return none
  if s.group? g = none then return none
  let current := currentWeights (snapshotOf s g) (hostsOf s g)
  if rebalanceRows s g = [] then return none
  let costs ← groupCosts sha256 s g avgExecutionTime interval
  let minCost := (costs.map Prod.snd).min?.getD 0
  let imbalance ← divide (maxValue costs) (if minCost ≤ 0 then 1 / 1000 else minCost)
  if imbalance ≤ 3 / 2 then return some (current, (s.groupCollectors g).length)
  let weights ← newWeights current costs
  let changes ← weights.mapM fun e =>
    let old := (current.get? e.1).getD 1
    divide |e.2 - old| (max old (1 / 100))
  if ∃ change ∈ changes, 15 / 100 < change then
    return some (weights, (s.groupCollectors g).length)
  else return some (current, (s.groupCollectors g).length)

/-- Weights from the minimum to one, with a one among them. -/
structure InRange (weights : Dict (Option String) ℚ) : Prop where
  bounds : ∀ e ∈ weights, 3 / 10 ≤ e.2 ∧ e.2 ≤ 1
  top : ∃ e ∈ weights, e.2 = 1

/-! ### New weights -/

theorem mapValues_ok {f : ℚ → Except RebalanceError ℚ} {f' : ℚ → ℚ} (h : ∀ q, f q = .ok (f' q))
    (d : Dict (Option String) ℚ) : mapValues f d = .ok (d.map fun e => (e.1, f' e.2)) := by
  have hpure : (fun e : Option String × ℚ => do return (e.1, ← f e.2)) = fun e => pure (e.1, f' e.2) :=
    funext fun e => by rw [h]; rfl
  rw [mapValues, hpure, mapM_pure]
  rfl

variable {d : Dict (Option String) ℚ}

theorem maxValue_spec (hne : d ≠ []) :
    (∃ e ∈ d, e.2 = maxValue d) ∧ ∀ e ∈ d, e.2 ≤ maxValue d := by
  cases hmax : (d.map Prod.snd).max? with
  | none => simp [hne] at hmax
  | some m =>
    obtain ⟨hmem, hle⟩ := List.max?_eq_some_iff.1 hmax
    rw [maxValue, hmax]
    exact ⟨List.mem_map.1 hmem, fun e he => hle _ (mem_map_of_mem he)⟩

theorem maxValue_pos (hne : d ≠ []) (h : ∀ e ∈ d, 0 < e.2) :
    0 < maxValue d := by
  obtain ⟨⟨e, he, hmax⟩, -⟩ := maxValue_spec hne
  exact hmax ▸ h e he

theorem inRange_normalize (hne : d ≠ []) (h : 0 < maxValue d) :
    InRange (d.map fun e => (e.1, max (3 / 10) (round4 (e.2 / maxValue d)))) := by
  obtain ⟨⟨e, he, hmax⟩, hle⟩ := maxValue_spec hne
  constructor
  · intro e' he'
    obtain ⟨e, he, rfl⟩ := List.mem_map.1 he'
    exact ⟨le_max_left _ _, max_le (by norm_num) (round4_le_one ((div_le_one h).2 (hle e he)))⟩
  · refine ⟨_, mem_map_of_mem he, ?_⟩
    simp only [hmax, div_self h.ne', round4_one]
    norm_num

theorem newWeights_ok {current costs : Dict (Option String) ℚ} (hne : costs ≠ [])
    (hcurrent : ∀ e ∈ current, 0 ≤ e.2) :
    ∃ weights, newWeights current costs = .ok weights ∧ weights.keys = costs.keys ∧
      InRange weights := by
  have htarget : ∀ cost : ℚ, 0 < 1 / max cost (1 / 1000) := fun cost =>
    one_div_pos.2 (lt_max_of_lt_right (by norm_num))
  have hfirst := mapValues_ok (fun cost => divide_of_pos (a := 1)
    (lt_max_of_lt_right (by norm_num : (0 : ℚ) < 1 / 1000) : (0 : ℚ) < max cost (1 / 1000))) costs
  set targets := costs.map fun e => (e.1, 1 / max e.2 (1 / 1000)) with htargets
  have htargets_ne : targets ≠ [] := by simpa [htargets] using hne
  have hpos := maxValue_pos htargets_ne fun e he => by
    obtain ⟨e', -, rfl⟩ := List.mem_map.1 he
    exact htarget e'.2
  have hsecond := mapValues_ok (fun q => divide_of_pos (a := q) hpos) targets
  set blended := (targets.map fun e => (e.1, e.2 / maxValue targets)).map fun e =>
    (e.1, 3 / 10 * e.2 + (1 - 3 / 10) * (current.get? e.1).getD 1) with hblended
  have hblended_ne : blended ≠ [] := by simpa [hblended] using htargets_ne
  have hblended_pos := maxValue_pos hblended_ne fun e he => by
    obtain ⟨b, hb, rfl⟩ := List.mem_map.1 he
    obtain ⟨t, ht, rfl⟩ := List.mem_map.1 hb
    obtain ⟨c, -, rfl⟩ := List.mem_map.1 ht
    have hold : 0 ≤ (current.get? c.1).getD 1 := by
      cases hget : current.get? c.1 with
      | none => exact zero_le_one
      | some w => exact hcurrent _ (Dict.mem_of_get? hget)
    have hnew := div_pos (htarget c.2) hpos
    simp only
    linarith
  refine ⟨_, ?_, ?_, inRange_normalize hblended_ne hblended_pos⟩
  · rw [newWeights, hfirst]
    simp only [bind, Except.bind]
    rw [if_pos hpos, hsecond]
    simp only
    rw [if_pos hblended_pos]
    refine @mapValues_ok _ (fun w => max (3 / 10) (round4 (w / maxValue blended)))
      (fun w => ?_) blended
    rw [divide_of_pos hblended_pos]
    rfl
  · simp [Dict.keys, hblended, htargets, Function.comp_def]

/-! ### What is stored -/

section Stored

variable {sha256 : String → ℕ} {s : Fleet} {g : Uuid} {avgExecutionTime interval : Uuid → Option ℚ}

theorem groupCosts_eq (h : ¬∃ a ∈ rebalanceRows s g, simulatedOwner sha256 s g a.id = none) :
    groupCosts sha256 s g avgExecutionTime interval = .ok ((hostsOf s g).dedup.map fun h =>
      (h, costPerCollector sha256 s g (fun id => jobCost (avgExecutionTime id) (interval id)) h)) := by
  have hshare : (fun a : AppAssignment => divide ((avgExecutionTime a.id).getD 5)
      (max ((interval a.id).getD 300) 1)) =
      fun a => pure (jobCost (avgExecutionTime a.id) (interval a.id)) :=
    funext fun a => divide_of_pos (lt_max_of_lt_right one_pos)
  rw [groupCosts]
  simp only [h, hshare, if_false, mapM_pure, pure_bind]
  rfl

theorem currentWeights_nonneg (h : ∀ weights ∈ snapshotOf s g, ∀ e ∈ weights, 0 ≤ e.2)
    {e : Option String × ℚ} (he : e ∈ currentWeights (snapshotOf s g) (hostsOf s g)) : 0 ≤ e.2 := by
  obtain ⟨weights, hsnapshot, -, -, hcurrent, -⟩ | ⟨hcurrent, hequal⟩ :=
    weights_cases (snapshotOf s g) (hostsOf s g)
  · rw [hcurrent] at he
    obtain ⟨e', he', rfl⟩ := List.mem_map.1 he
    exact h weights hsnapshot e' he'
  · rw [hcurrent, hequal] at he
    obtain ⟨e', -, rfl⟩ := List.mem_map.1 he
    exact zero_le_one

theorem rebalanceGroup_cases (h : ∀ weights ∈ snapshotOf s g, ∀ e ∈ weights, 0 ≤ e.2) :
    rebalanceGroup sha256 s g avgExecutionTime interval = .error .unnamedHost ∨
      rebalanceGroup sha256 s g avgExecutionTime interval = .ok none ∨
      ∃ stored, rebalanceGroup sha256 s g avgExecutionTime interval =
          .ok (some (stored, (s.groupCollectors g).length)) ∧ hostsOf s g ≠ [] ∧
        (stored = currentWeights (snapshotOf s g) (hostsOf s g) ∨
          InRange stored ∧ stored.keys = (hostsOf s g).dedup) := by
  rw [rebalanceGroup]
  split_ifs with hfew hgroup hrows
  · exact .inr (.inl rfl)
  · exact .inr (.inl rfl)
  · exact .inr (.inl rfl)
  have hhosts : hostsOf s g ≠ [] := by
    intro hnil
    rw [hostsOf, map_eq_nil_iff] at hnil
    rw [hnil] at hfew
    exact hfew Nat.zero_lt_two
  by_cases howner : ∃ a ∈ rebalanceRows s g, simulatedOwner sha256 s g a.id = none
  · have herror : groupCosts sha256 s g avgExecutionTime interval = .error .unnamedHost :=
      if_pos howner
    exact .inl (by rw [herror]; rfl)
  obtain ⟨costs, hcosts, hkeys⟩ : ∃ costs, groupCosts sha256 s g avgExecutionTime interval =
      .ok costs ∧ costs.keys = (hostsOf s g).dedup :=
    ⟨_, groupCosts_eq howner, by simp [Dict.keys, Function.comp_def]⟩
  obtain ⟨minCost, hminCost, hmin⟩ : ∃ minCost, (if (costs.map Prod.snd).min?.getD 0 ≤ 0
      then 1 / 1000 else (costs.map Prod.snd).min?.getD 0) = minCost ∧ 0 < minCost := by
    refine ⟨_, rfl, ?_⟩
    split_ifs with hle
    · norm_num
    · exact not_le.1 hle
  have hne : costs ≠ [] := by
    rintro rfl
    exact hhosts ((dedup_eq_nil _).1 hkeys.symm)
  obtain ⟨weights, hweights, hsame, hrange⟩ := newWeights_ok hne fun e he =>
    currentWeights_nonneg h he
  have hchange : (fun e : Option String × ℚ =>
      divide |e.2 - ((currentWeights (snapshotOf s g) (hostsOf s g)).get? e.1).getD 1|
        (max (((currentWeights (snapshotOf s g) (hostsOf s g)).get? e.1).getD 1) (1 / 100))) =
      fun e => pure _ := funext fun e => divide_of_pos (lt_max_of_lt_right (by norm_num))
  have hchanges := congrArg (weights.mapM ·) hchange
  simp only [mapM_pure] at hchanges
  refine .inr (.inr ?_)
  simp only [hcosts, hminCost, divide_of_pos hmin, hweights, hchanges, bind, Except.bind, pure, Except.pure]
  split_ifs
  · exact ⟨_, rfl, hhosts, .inl rfl⟩
  · exact ⟨_, rfl, hhosts, .inr ⟨hrange, hsame.trans hkeys⟩⟩
  · exact ⟨_, rfl, hhosts, .inl rfl⟩

end Stored

/-- A snapshot as it is stored, where the key of a host without a name is `null`. -/
def asJson (weights : Dict (Option String) ℚ) : Dict String ℚ :=
  weights.map fun e => (e.1.getD "null", e.2)

/-- The snapshots of a group: it has none at first and after a change of its collectors, and
later those that rebalances store. -/
inductive Reached (sha256 : String → ℕ) (g : Uuid) : Option (Dict String ℚ) → Prop
  | reset : Reached sha256 g none
  | rebalance {s : Fleet} {avgExecutionTime interval : Uuid → Option ℚ}
      {stored : Dict (Option String) ℚ} {n : ℕ} (hbefore : Reached sha256 g (snapshotOf s g))
      (hstored : rebalanceGroup sha256 s g avgExecutionTime interval = .ok (some (stored, n))) :
      Reached sha256 g (some (asJson stored))

theorem currentWeights_cases (s : Fleet) (g : Uuid) :
    (∃ weights ∈ snapshotOf s g, currentWeights (snapshotOf s g) (hostsOf s g) =
      weights.map fun e => (some e.1, e.2)) ∨
      currentWeights (snapshotOf s g) (hostsOf s g) = (hostsOf s g).dedup.map fun h => (h, 1) := by
  obtain ⟨weights, hsnapshot, -, -, hcurrent, -⟩ | ⟨hcurrent, hequal⟩ :=
    weights_cases (snapshotOf s g) (hostsOf s g)
  · exact .inl ⟨weights, hsnapshot, hcurrent⟩
  · exact .inr (hcurrent.trans hequal)

variable {hosts : List (Option String)}

theorem inRange_equal (hne : hosts ≠ []) :
    InRange (hosts.dedup.map fun h => (h, 1)) := by
  obtain ⟨h, hh⟩ := exists_mem_of_ne_nil _ hne
  constructor
  · intro e he
    obtain ⟨h, -, rfl⟩ := List.mem_map.1 he
    norm_num
  · exact ⟨(h, 1), mem_map_of_mem (List.mem_dedup.2 hh), rfl⟩

variable {g : Uuid} {s : Fleet} {h : Option String}

theorem mem_keys_currentWeights :
    h ∈ (currentWeights (snapshotOf s g) (hostsOf s g)).keys ↔ h ∈ hostsOf s g := by
  have hgroupKeys := @mem_groupWeights_keys (snapshotOf s g) (hostsOf s g) h
  obtain ⟨weights, -, -, -, hcurrent, hgroup⟩ | ⟨hcurrent, -⟩ :=
    weights_cases (snapshotOf s g) (hostsOf s g)
  · rw [hgroup] at hgroupKeys
    rw [hcurrent, ← hgroupKeys]
    simp [Dict.keys]
  · rw [hcurrent, hgroupKeys]

variable {sha256 : String → ℕ}

theorem stored_of_rebalance
    {avgExecutionTime interval : Uuid → Option ℚ}
    (hsnapshot : ∀ weights ∈ snapshotOf s g, ∀ e ∈ weights, 0 ≤ e.2)
    {stored : Dict (Option String) ℚ} {n : ℕ}
    (h : rebalanceGroup sha256 s g avgExecutionTime interval = .ok (some (stored, n))) :
    (∀ h, h ∈ stored.keys ↔ h ∈ hostsOf s g) ∧
      (InRange stored ∨ ∃ weights ∈ snapshotOf s g, stored = weights.map fun e =>
        (some e.1, e.2)) := by
  obtain herror | hnone | ⟨stored', hok, hhosts, hstored⟩ :=
    @rebalanceGroup_cases sha256 s g avgExecutionTime interval hsnapshot
  · rw [herror] at h
    cases h
  · rw [hnone] at h
    cases h
  · rw [hok] at h
    cases h
    obtain rfl | ⟨hrange, hkeys⟩ := hstored
    · refine ⟨fun h => mem_keys_currentWeights, ?_⟩
      obtain hkept | hequal := currentWeights_cases s g
      · exact .inr hkept
      · exact .inl (hequal ▸ inRange_equal hhosts)
    · exact ⟨fun h => by rw [hkeys, mem_dedup], .inl hrange⟩

variable {weights : Dict (Option String) ℚ}

theorem InRange.asJson (h : InRange weights) :
    InRange ((asJson weights).map fun e => (some e.1, e.2)) := by
  constructor
  · intro e he
    simp only [CentralScheduler.asJson, map_map, mem_map] at he
    obtain ⟨e', he', rfl⟩ := he
    exact h.bounds e' he'
  · obtain ⟨e, he, htop⟩ := h.top
    exact ⟨_, mem_map_of_mem (mem_map_of_mem he), htop⟩

variable {snapshot : Option (Dict String ℚ)}

theorem inRange_of_reached
    (h : Reached sha256 g snapshot) :
    ∀ weights ∈ snapshot, InRange (weights.map fun e => (some e.1, e.2)) := by
  induction h with
  | reset => rintro weights ⟨⟩
  | rebalance _ hstored ih =>
    rintro weights ⟨⟩
    refine InRange.asJson ?_
    rename_i s _ _ _ _ _
    have hnonneg : ∀ weights ∈ snapshotOf s g, ∀ e ∈ weights, 0 ≤ e.2 := by
      intro weights hweights e he
      have hlow := ((ih weights hweights).bounds _ (mem_map_of_mem he)).1
      exact le_trans (by norm_num) hlow
    obtain hrange | ⟨weights, hweights, rfl⟩ := (stored_of_rebalance hnonneg hstored).2
    · exact hrange
    · exact ih weights hweights

variable {named : Dict String ℚ}

theorem keys_of_namedWeights
    (h : namedWeights weights = some named) : named.keys.map some = weights.keys := by
  induction weights generalizing named with
  | nil =>
    cases h
    rfl
  | cons e weights ih =>
    rw [namedWeights, mapM_cons] at h
    obtain ⟨first, hfirst, h⟩ := Option.bind_eq_some_iff.1 h
    obtain ⟨rest, hrest, h⟩ := Option.bind_eq_some_iff.1 h
    obtain ⟨name, hname, rfl⟩ := Option.map_eq_some_iff.1 hfirst
    cases h
    have hkeys := ih hrest
    simp only [Dict.keys, map_cons, hname] at hkeys ⊢
    rw [hkeys]

theorem exists_point
    (hnamed : namedWeights (groupWeights snapshot hosts) = some named)
    (hh : h ∈ hosts) : ∃ name ∈ h, ∃ p ∈ buildWeightedRing sha256 named, p.2 = name := by
  rw [← @mem_groupWeights_keys snapshot, ← keys_of_namedWeights hnamed] at hh
  obtain ⟨name, hname, rfl⟩ := List.mem_map.1 hh
  obtain ⟨e, he, rfl⟩ := List.mem_map.1 hname
  exact ⟨e.1, rfl, _, HashRing.mem_ofPoints.2 (mem_ringPoints.2
    ⟨e, he, 0, Nat.lt_of_lt_of_le Nat.zero_lt_one (Nat.le_max_left _ _), rfl⟩), rfl⟩

/-- **What a rebalance stores**: no division is by zero; the hosts are those of the group, and each
gets a point on the handler's ring; and the weights are in the range unless the snapshot is kept,
which is in the range if it is missing or has been stored by rebalances. -/
theorem rebalanceGroup_stores {sha256 : String → ℕ} {s : Fleet} {g : Uuid}
    {avgExecutionTime interval : Uuid → Option ℚ}
    (hsnapshot : ∀ weights ∈ snapshotOf s g, ∀ e ∈ weights, 0 ≤ e.2) :
    rebalanceGroup sha256 s g avgExecutionTime interval ≠ .error .zeroDivision ∧
      ∀ stored n, rebalanceGroup sha256 s g avgExecutionTime interval = .ok (some (stored, n)) →
        (∀ h, h ∈ stored.keys ↔ h ∈ hostsOf s g) ∧
        (InRange stored ∨ ∃ weights ∈ snapshotOf s g, stored = weights.map fun e =>
          (some e.1, e.2)) ∧
        (Reached sha256 g (snapshotOf s g) → InRange stored) ∧
        ∀ named, namedWeights (groupWeights (some (asJson stored)) (hostsOf s g)) = some named →
          ∀ h ∈ hostsOf s g, ∃ name ∈ h, ∃ p ∈ buildWeightedRing sha256 named, p.2 = name := by
  constructor
  · intro hzero
    obtain herror | hnone | ⟨stored, hok, -⟩ :=
      @rebalanceGroup_cases sha256 s g avgExecutionTime interval hsnapshot
    · rw [herror] at hzero
      cases hzero
    · rw [hnone] at hzero
      cases hzero
    · rw [hok] at hzero
      cases hzero
  · intro stored n h
    obtain ⟨hkeys, hstored⟩ := stored_of_rebalance hsnapshot h
    refine ⟨hkeys, hstored, fun hreached => ?_, fun named hnamed host hhost =>
      exists_point hnamed hhost⟩
    obtain hrange | ⟨weights, hweights, rfl⟩ := hstored
    · exact hrange
    · exact inRange_of_reached hreached weights hweights

/-- A rebalance of two hosts with a snapshot in the range. -/
theorem rebalanceGroup_pairFleet :
    (∀ weights ∈ snapshotOf (pairFleet [("w1", 1), ("w2", 3 / 10)]) "g", ∀ e ∈ weights, 0 ≤ e.2) ∧
      ∀ sha256, rebalanceGroup sha256 (pairFleet [("w1", 1), ("w2", 3 / 10)]) "g" (fun _ => some 9)
        (fun _ => some 60) ≠ .error .zeroDivision := by
  have hsnapshot : ∀ weights ∈ snapshotOf (pairFleet [("w1", 1), ("w2", 3 / 10)]) "g",
      ∀ e ∈ weights, 0 ≤ e.2 := by
    decide +kernel
  exact ⟨hsnapshot, fun _ => (rebalanceGroup_stores hsnapshot).1⟩

/-- **Weights below the minimum are kept** while the costs are in balance, and none of them is
one. -/
theorem keeps_low_weights :
    (∀ sha256, rebalanceGroup sha256 (pairFleet [("w1", 1 / 10), ("w2", 1 / 10)]) "g"
      (fun _ => some 0) (fun _ => some 60) =
        .ok (some ([(some "w1", 1 / 10), (some "w2", 1 / 10)], 2))) ∧
      ¬InRange [(some "w1", 1 / 10), (some "w2", 1 / 10)] := by
  constructor
  · intro sha256
    have howner : ∀ a, simulatedOwner sha256 (pairFleet [("w1", 1 / 10), ("w2", 1 / 10)]) "g" a ≠
        none := by
      rintro a ⟨⟩
    have hcosts := @groupCosts_eq sha256 (pairFleet [("w1", 1 / 10), ("w2", 1 / 10)]) "g"
      (fun _ => some 0) (fun _ => some 60) (by rintro ⟨a, -, hnone⟩; exact howner _ hnone)
    simp only [costPerCollector, jobCost, Option.getD_some, zero_div, map_const',
      sum_replicate, nsmul_zero] at hcosts
    rw [rebalanceGroup, hcosts]
    decide +kernel
  · intro h
    have hbound := (h.bounds (some "w1", 1 / 10) mem_cons_self).1
    norm_num at hbound

end MonCTL.CentralScheduler
