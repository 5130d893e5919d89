import Mathlib.Logic.Equiv.List
import MonCTL.CollectorApi.Ownership
import MonCTL.Lib.Decimal

/-!
# The Rebalancer's Simulation

To compare the costs of a group's collectors, the rebalancer computes for each assignment the
host that `GET /jobs` gives it to. It has a ring of its own for this, built by insertion instead
of sorting, and weights of its own: both sides read the same snapshot, but the handler lifts
weights that are too small, and the rebalancer does not.

The new weights that the rebalancer computes from the costs are left out.
-/

namespace MonCTL.CentralScheduler

open List CollectorApi

/-! ### The lookups -/

/-- `_hash_ring_owner`. -/
def hashRingOwner (sha256 : String → ℕ) (base : ℕ) (assignmentId : Uuid)
    (weights : Dict String ℚ) : String :=
  match weights with
  | [] => ""
  | [(hostname, _)] => hostname
  | _ =>
    let ring := (weights.mergeSort fun e e' => e.1 ≤ e'.1).foldl (fun ring e =>
      (List.range (vnodeCount base e.2 (maxWeight weights))).foldl (fun ring i =>
        HashRing.insertPoint ring (sha256 s!"{e.1}:{i}", e.1)) ring) []
    (HashRing.owner ring (sha256 assignmentId)).getD ""

variable {sha256 : String → ℕ} {base : ℕ} {weights : Dict String ℚ}

/-- The weights of the rebalancer: the cached snapshot when it has exactly the active hosts, and
equal weights otherwise. -/
def currentWeights (snapshot : Option (Dict String ℚ)) (hosts : List (Option String)) :
    Dict (Option String) ℚ :=
  match snapshot with
  | some weights =>
    if weights ≠ [] ∧ matchesTopology weights hosts then weights.map fun e => (some e.1, e.2)
    else hosts.dedup.map fun h => (h, 1)
  | none => hosts.dedup.map fun h => (h, 1)

/-- The owner on a ring over some hosts. Sorting hosts of which one has no name raises. -/
def ownerAmong (lookup : Dict String ℚ → String) (weights : Dict (Option String) ℚ) :
    Option (Option String) :=
  match weights with
  | [(hostname, _)] => some hostname
  | _ => (namedWeights weights).map fun named => some (lookup named)

/-- The cached snapshot of a group. -/
def snapshotOf (s : Fleet) (g : Uuid) : Option (Dict String ℚ) :=
  (s.group? g).bind CollectorGroup.weightSnapshot

/-- The hosts of a group's active collectors. -/
def hostsOf (s : Fleet) (g : Uuid) : List (Option String) :=
  (s.groupCollectors g).map Collector.hostname

/-- The owner that `_rebalance_group` computes. -/
def simulatedOwner (sha256 : String → ℕ) (s : Fleet) (g assignmentId : Uuid) :
    Option (Option String) :=
  ownerAmong (hashRingOwner sha256 100 assignmentId) (currentWeights (snapshotOf s g) (hostsOf s g))

/-- The assignments `_rebalance_group` selects. -/
def rebalanceRows (s : Fleet) (g : Uuid) : List AppAssignment :=
  s.assignments.filter fun a => (s.device? a).bind Device.collectorGroupId = some g ∧
    a.collectorId = none ∧ a.enabled ∧ (s.device? a).map Device.isEnabled = some true

/-- The assignments it attributes to a host. -/
def simulatedRows (sha256 : String → ℕ) (s : Fleet) (g : Uuid) (hostname : Option String)
    (rows : List AppAssignment) : List AppAssignment :=
  rows.filter fun a => simulatedOwner sha256 s g a.id = some hostname

/-- The cost of an assignment: its execution time as a part of its interval, with defaults. -/
def jobCost (avgExecutionTime interval : Option ℚ) : ℚ :=
  avgExecutionTime.getD 5 / max (interval.getD 300) 1

/-- `cost_per_collector`, of assignments with these costs. -/
def costPerCollector (sha256 : String → ℕ) (s : Fleet) (g : Uuid) (cost : Uuid → ℚ)
    (hostname : Option String) : ℚ :=
  ((simulatedRows sha256 s g hostname (rebalanceRows s g)).map fun a => cost a.id).sum

section Agreement

variable {sha256 : String → ℕ} {s : Fleet} {g : Uuid}

variable {weights : Dict (Option String) ℚ}

variable {rows rows' : List AppAssignment}

theorem weights_cases (snapshot : Option (Dict String ℚ)) (hosts : List (Option String)) :
    (∃ weights ∈ snapshot, weights ≠ [] ∧ matchesTopology weights hosts = true ∧
      currentWeights snapshot hosts = weights.map (fun e => (some e.1, e.2)) ∧
      groupWeights snapshot hosts = weights.map fun e => (some e.1, max e.2 (3 / 10))) ∨
    currentWeights snapshot hosts = groupWeights snapshot hosts ∧
      groupWeights snapshot hosts = hosts.dedup.map fun h => (h, 1) := by
  cases snapshot with
  | none => exact .inr ⟨rfl, rfl⟩
  | some weights =>
    by_cases hused : weights ≠ [] ∧ matchesTopology weights hosts = true
    · exact .inl ⟨weights, rfl, hused.1, hused.2, if_pos hused, if_pos hused⟩
    · exact .inr ⟨(if_neg hused).trans (if_neg hused).symm, if_neg hused⟩

end Agreement

/-! ### Disagreement -/

theorem mem_ringPoints
    {p : ℕ × String} : p ∈ ringPoints sha256 base weights ↔
      ∃ e ∈ weights, ∃ i < vnodeCount base e.2 (maxWeight weights),
        p = (sha256 s!"{e.1}:{i}", e.1) := by
  rw [ringPoints, mem_flatMap]
  constructor
  · rintro ⟨e, he, hp⟩
    obtain ⟨i, hi, rfl⟩ := List.mem_map.1 hp
    exact ⟨e, List.mem_mergeSort.1 he, i, List.mem_range.1 hi, rfl⟩
  · rintro ⟨e, he, i, hi, rfl⟩
    exact ⟨e, List.mem_mergeSort.2 he, List.mem_map.2 ⟨i, List.mem_range.2 hi, rfl⟩⟩

variable {e : String × ℚ}

section HashFirst

variable {assignmentId : Uuid} (hcolon : ':' ∉ assignmentId.toList)
include hcolon

variable {weights : Dict String ℚ} (hkeys : weights.keys.Nodup) {h : String} {m : ℕ} {h₂ : String}
include hkeys

end HashFirst

section Snapshot

variable {s : Fleet} {g : Uuid} {weights : Dict String ℚ} (hsnapshot : weights ∈ snapshotOf s g)
  (hmatch : matchesTopology weights (hostsOf s g) = true) (htwo : 2 ≤ weights.length)
include hsnapshot hmatch htwo

end Snapshot

/-- A group of two hosts with one assignment, and the weights it was left with. -/
def pairFleet (weights : Dict String ℚ) : Fleet where
  collectors := [⟨"c1", "ACTIVE", some "g", some "w1"⟩, ⟨"c2", "ACTIVE", some "g", some "w2"⟩]
  groups := [⟨"g", some weights⟩]
  devices := [⟨"d", some "g", true⟩]
  assignments := [⟨"00000000-0000-0000-0000-000000000005", some "d", none, true⟩]

end MonCTL.CentralScheduler
