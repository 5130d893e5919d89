import Mathlib.Algebra.Field.Rat
import Mathlib.Algebra.Order.Ring.Rat
import MonCTL.Basic
import MonCTL.Lib.Dict
import MonCTL.Lib.HashRing

/-!
# Which Jobs a Collector Gets

`GET /jobs` selects assignments and partitions them. Assignments pinned to the caller are
always included. Of the others, a collector in a group gets those of its group's devices
that a weighted hash ring over the group's active hostnames gives to its own hostname; a
caller without a group gets all of them.

The hash is a parameter. The part of the handler that turns each selected assignment into a
job is left out, and so is the `since` filter.
-/

namespace MonCTL.CollectorApi

open List

/-- A collector, as far as job selection reads it. -/
structure Collector where
  id : Uuid
  status : String
  groupId : Option Uuid
  hostname : Option String
  deriving DecidableEq

/-- A collector group, with the weights the rebalancer has left. -/
structure CollectorGroup where
  id : Uuid
  weightSnapshot : Option (Dict String ℚ)

structure Device where
  id : Uuid
  collectorGroupId : Option Uuid
  isEnabled : Bool
  deriving DecidableEq

/-- An assignment of an app to a device, pinned to a collector or not. -/
structure AppAssignment where
  id : Uuid
  deviceId : Option Uuid
  collectorId : Option Uuid
  enabled : Bool
  deriving DecidableEq

/-- The tables the handler reads; the primary key of collectors is enforced. -/
structure Fleet where
  collectors : List Collector
  groups : List CollectorGroup
  devices : List Device
  assignments : List AppAssignment
  collectors_nodup : (collectors.map Collector.id).Nodup := by decide

namespace Fleet

/-- `db.get(Collector, …)`. -/
def collector? (s : Fleet) (id : Uuid) : Option Collector := s.collectors.find? (·.id = id)

/-- `db.get(CollectorGroup, …)`. -/
def group? (s : Fleet) (id : Uuid) : Option CollectorGroup := s.groups.find? (·.id = id)

/-- The device of an assignment, as the outer join finds it. -/
def device? (s : Fleet) (a : AppAssignment) : Option Device :=
  a.deviceId.bind fun id => s.devices.find? (·.id = id)

theorem collector?_eq_some {s : Fleet} {c : Collector} (h : c ∈ s.collectors) :
    s.collector? c.id = some c := by
  have hsome : (s.collector? c.id).isSome := by
    rw [collector?, find?_isSome]
    exact ⟨c, h, by simp⟩
  obtain ⟨c', hc'⟩ := Option.isSome_iff_exists.1 hsome
  have hid : c'.id = c.id := by simpa using find?_some hc'
  have heq := inj_on_of_nodup_map s.collectors_nodup (mem_of_find?_eq_some hc') h hid
  rw [hc', heq]

end Fleet

/-- `Collector.status == "ACTIVE"`. -/
def Collector.isActive (c : Collector) : Bool := c.status = "ACTIVE"

/-! ### The weighted ring -/

/-- The largest weight, or one when that is zero. -/
def maxWeight (weights : Dict String ℚ) : ℚ :=
  let m := (weights.map Prod.snd).max?.getD 0
  if m = 0 then 1 else m

/-- The number of points of a node: in proportion to its weight, and at least one. -/
def vnodeCount (base : ℕ) (w maxW : ℚ) : ℕ := max 1 (base * (w / maxW)).floor.toNat

variable (sha256 : String → ℕ)

/-- The points of the ring, node by node in the order of the hostnames. -/
def ringPoints (base : ℕ) (weights : Dict String ℚ) : List (ℕ × String) :=
  (weights.mergeSort fun e e' => e.1 ≤ e'.1).flatMap fun e =>
    (List.range (vnodeCount base e.2 (maxWeight weights))).map fun i => (sha256 s!"{e.1}:{i}", e.1)

/-- `_build_weighted_ring`. -/
def buildWeightedRing (weights : Dict String ℚ) : List (ℕ × String) :=
  HashRing.ofPoints (ringPoints sha256 100 weights)

/-- `_lookup_weighted_owner`. -/
def lookupWeightedOwner (assignmentId : Uuid)
    (ring : List (ℕ × String)) : String :=
  (HashRing.owner ring (sha256 assignmentId)).getD ""

theorem lookupWeightedOwner_mem {sha256 : String → ℕ} {weights : Dict String ℚ}
    (h : weights ≠ []) (assignmentId : Uuid) :
    lookupWeightedOwner sha256 assignmentId (buildWeightedRing sha256 weights) ∈ weights.keys := by
  have hne : buildWeightedRing sha256 weights ≠ [] := by
    obtain ⟨e, he⟩ := exists_mem_of_ne_nil _ h
    have hpos : 0 < vnodeCount 100 e.2 (maxWeight weights) :=
      Nat.lt_of_lt_of_le Nat.zero_lt_one (Nat.le_max_left _ _)
    have hpoint : (sha256 s!"{e.1}:{0}", e.1) ∈ ringPoints sha256 100 weights :=
      List.mem_flatMap.2 ⟨e, List.mem_mergeSort.2 he,
        List.mem_map.2 ⟨0, List.mem_range.2 hpos, rfl⟩⟩
    exact List.ne_nil_of_mem (HashRing.mem_ofPoints.2 hpoint)
  obtain ⟨host, hhost⟩ := HashRing.owner_eq_some_of_ne_nil hne (sha256 assignmentId)
  obtain ⟨p, hp, rfl⟩ := List.mem_map.1 (HashRing.owner_mem hhost)
  obtain ⟨e, he, hpe⟩ := List.mem_flatMap.1 (HashRing.mem_ofPoints.1 hp)
  obtain ⟨i, -, rfl⟩ := List.mem_map.1 hpe
  rw [lookupWeightedOwner, hhost]
  exact mem_map_of_mem (List.mem_mergeSort.1 he)

/-! ### Partitioning -/

/-- A status the handler turns a request down with. -/
inductive HttpError
  | forbidden
  | notFound
  | internalServerError
  deriving DecidableEq

/-- The active collectors of a group. (The order by hostname only matters for the log.) -/
def Fleet.groupCollectors (s : Fleet) (g : Uuid) : List Collector :=
  s.collectors.filter fun c => c.groupId = some g ∧ c.isActive

/-- `set(snapshot.keys()) == active_hostnames`. -/
def matchesTopology (snapshot : Dict String ℚ) (hosts : List (Option String)) : Bool :=
  (∀ h ∈ snapshot.keys, some h ∈ hosts) ∧ ∀ h ∈ hosts, ∃ k ∈ snapshot.keys, h = some k

/-- The weights of the active hosts of a group: the cached snapshot when it has exactly
these hosts, with a minimum against starvation, and equal weights otherwise. -/
def groupWeights (snapshot : Option (Dict String ℚ)) (hosts : List (Option String)) :
    Dict (Option String) ℚ :=
  match snapshot with
  | some weights =>
    if weights ≠ [] ∧ matchesTopology weights hosts then
      weights.map fun e => (some e.1, max e.2 (3 / 10))
    else hosts.dedup.map fun h => (h, 1)
  | none => hosts.dedup.map fun h => (h, 1)

/-- The weights when every host has a name. Sorting hosts of which one has none raises. -/
def namedWeights (weights : Dict (Option String) ℚ) : Option (Dict String ℚ) :=
  weights.mapM fun e => e.1.map fun h => (h, e.2)

/-- The partitioning of a group's assignments, for a caller of the group. -/
def partitionRows (s : Fleet) (g : Uuid) (myHostname : Option String)
    (rows : List AppAssignment) : Except HttpError (List AppAssignment) :=
  let collectors := s.groupCollectors g
  if collectors.length > 1 then
    let weights := groupWeights ((s.group? g).bind CollectorGroup.weightSnapshot)
      (collectors.map Collector.hostname)
    if myHostname ∈ weights.keys then
      if weights.length ≤ 1 then .ok rows
      else
        match namedWeights weights with
        | none => .error .internalServerError
        | some weights =>
          let ring := buildWeightedRing sha256 weights
          .ok (rows.filter fun a => some (lookupWeightedOwner sha256 a.id ring) = myHostname)
    else .ok rows
  else .ok rows

/-! ### The handler -/

/-- How a caller authenticates: with the key of a collector, or with the shared secret. -/
inductive Auth
  | collectorApiKey (collectorId : Uuid)
  | sharedSecret

/-- `_require_active_collector`. -/
def requireActiveCollector (s : Fleet) : Auth → Except HttpError Unit
  | .sharedSecret => .ok ()
  | .collectorApiKey id =>
    match s.collector? id with
    | none => .error .notFound
    | some c => if c.isActive then .ok () else .error .forbidden

/-- The caller a request is answered for: a collector's own key wins, and must agree with
the query. -/
def effectiveCollector (auth : Auth) (collectorId : Option Uuid) : Except HttpError (Option Uuid) :=
  match auth, collectorId with
  | .sharedSecret, id => .ok id
  | .collectorApiKey own, none => .ok (some own)
  | .collectorApiKey own, some id => if id = own then .ok (some id) else .error .forbidden

/-- `_enabled_device_filter`. -/
def Fleet.isPollable (s : Fleet) (a : AppAssignment) : Bool :=
  a.enabled && (a.deviceId = none || (s.device? a).map Device.isEnabled = some true)

def pinnedRows (s : Fleet) (collectorId : Uuid) : List AppAssignment :=
  s.assignments.filter fun a => a.collectorId = some collectorId ∧ s.isPollable a

/-- The assignments pinned to no collector, of a group's devices when a group is given. -/
def unpinnedRows (s : Fleet) (groupId : Option Uuid) : List AppAssignment :=
  s.assignments.filter fun a => a.collectorId = none ∧ s.isPollable a ∧
    ∀ g ∈ groupId, ((s.device? a).bind Device.collectorGroupId) = some g

/-- The assignments for a caller: the pinned ones, and those its group's ring gives to its
hostname. -/
def selectRows (s : Fleet) (collectorId : Option Uuid) :
    Except HttpError (List AppAssignment) :=
  let coll := collectorId.bind s.collector?
  let pinned := (collectorId.map (pinnedRows s)).getD []
  let groupId := coll.bind Collector.groupId
  let rows := unpinnedRows s groupId
  match coll, groupId with
  | some c, some g => (partitionRows sha256 s g c.hostname rows).map (pinned ++ ·)
  | _, _ => .ok (pinned ++ rows)

/-- `get_jobs`, without `since`: the assignments in the response. -/
def getJobs (s : Fleet) (auth : Auth) (collectorId : Option Uuid) :
    Except HttpError (List AppAssignment) := do
  requireActiveCollector s auth
  let collectorId ← effectiveCollector auth collectorId
  selectRows sha256 s collectorId

end MonCTL.CollectorApi
