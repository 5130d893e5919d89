import Mathlib.Data.List.Nodup
import Mathlib.Data.List.Range
import Mathlib.Algebra.Group.Nat.Even
import MonCTL.Installer.Planner
import MonCTL.Lib.StateExcept

/-!
# Well-Formed Plans

A plan is well formed if its ClickHouse nodes fill the positions of shards and replicas, its
keepers are numbered, Postgres and Redis have one primary each, and every ensemble that decides by
majority has one member, or an odd number of at least three.

All but the last holds of every plan. Dedicated keepers and the nodes with a sentinel are as many
as the inventory says.
-/

namespace MonCTL.Installer

open List

/-- The sizes of an ensemble that decides by majority. -/
def Quorum (n : ℕ) : Prop := n = 1 ∨ (3 ≤ n ∧ n % 2 = 1)
  deriving Decidable

namespace Plan

/-- The nodes that run a sentinel. -/
def sentinels (plan : Plan) : List Host := (plan.redis.filter RedisNode.sentinel).map RedisNode.host

/-- The ensembles of the plan that decide by majority. -/
def ensembles (plan : Plan) : List (List Host) :=
  (if plan.pgHa then [plan.etcdHosts] else []) ++ [plan.clickhouseKeepers] ++
    (if plan.redisSentinel then [plan.sentinels] else [])

end Plan

def ClickHouseNode.position (n : ClickHouseNode) : ℕ × ℕ := (n.shard, n.replica)

/-- **A well-formed plan.** The nodes pair the ClickHouse hosts with the positions. -/
structure WellFormed (inv : Inventory) (plan : Plan) : Prop where
  hosts_nodup : (plan.clickhouse.map ClickHouseNode.host).Nodup
  mem_hosts : ∀ h, h ∈ plan.clickhouse.map ClickHouseNode.host ↔
    h ∈ inv.hosts ∧ h.hasRole .clickhouse
  positions_nodup : (plan.clickhouse.map ClickHouseNode.position).Nodup
  mem_positions : ∀ s r, (s, r) ∈ plan.clickhouse.map ClickHouseNode.position ↔
    (1 ≤ s ∧ s ≤ inv.sizing.clickhouse.shards) ∧ 1 ≤ r ∧ r ≤ inv.sizing.clickhouse.replicas
  /-- The keepers have the identifiers from 1 on. -/
  keeperIds : keeperIds plan.clickhouseKeepers = (plan.clickhouseKeepers.map Host.name).zip
      (List.range' 1 plan.clickhouseKeepers.length)
  keeperNames_nodup : (plan.clickhouseKeepers.map Host.name).Nodup
  /-- A node has the identifier of its host. -/
  keeperId_eq : ∀ n ∈ plan.clickhouse, ∀ id, n.keeperId = some id ↔
    1 ≤ id ∧ plan.clickhouseKeepers[id - 1]? = some n.host
  /-- Every embedded keeper is on a node. -/
  embeddedKeepers : plan.keeperMode = .embedded →
    plan.clickhouse.filterMap ClickHouseNode.keeperId = List.range' 1 plan.clickhouseKeepers.length
  onePostgres : (plan.postgres.filter (·.role ≠ .replica)).length = 1
  oneRedis : (plan.redis.filter (·.role ≠ .replica)).length = 1
  quorums : ∀ ensemble ∈ plan.ensembles, Quorum ensemble.length

/-- If the keepers have hosts of their own, these are a quorum. -/
def KeeperQuorum (inv : Inventory) : Prop :=
  resolveKeeperMode inv (inv.hostsWith .clickhouse) = .ok .dedicated →
    Quorum (inv.hostsWith .clickhouseKeeper).length

/-- If Redis has sentinels, the hosts with Redis or central are a quorum. -/
def SentinelQuorum (inv : Inventory) : Prop :=
  resolveRedisSentinel inv (inv.hostsWith .central) = .ok true →
    Quorum (inv.hosts.filter fun h => h.hasRole .redis || h.hasRole .central).length

variable {inv : Inventory} {plan : Plan}

/-! ### Inversion -/

/-- What the parts of a plan come from. -/
structure Planned (inv : Inventory) (plan : Plan) : Prop where
  pgHa : resolvePgHa inv (inv.hostsWith .postgres) = .ok plan.pgHa
  postgres : plan.postgres = planPostgres (inv.hostsWith .postgres) plan.pgHa
  postgres_ne : plan.postgres ≠ []
  etcd : planEtcd inv plan.pgHa = .ok plan.etcdHosts
  redisSentinel : resolveRedisSentinel inv (inv.hostsWith .central) = .ok plan.redisSentinel
  redis : planRedis inv (inv.hostsWith .central) plan.redisSentinel = .ok plan.redis
  sizing : validateChSizing inv (inv.hostsWith .clickhouse) = .ok ()
  keeperMode : resolveKeeperMode inv (inv.hostsWith .clickhouse) = .ok plan.keeperMode
  clickhouse : (plan.clickhouse, plan.clickhouseKeepers) =
    planClickhouse inv (inv.hostsWith .clickhouse) plan.keeperMode

theorem planned_of_ok (h : planCluster inv = .ok plan) : Planned inv plan := by
  rw [planCluster] at h
  obtain ⟨pgHa, hpgHa, h⟩ := StateExcept.bind_eq_ok.1 h
  obtain ⟨etcdHosts, hetcd, h⟩ := StateExcept.bind_eq_ok.1 h
  obtain ⟨redisSentinel, hsentinel, h⟩ := StateExcept.bind_eq_ok.1 h
  obtain ⟨redisNodes, hredis, h⟩ := StateExcept.bind_eq_ok.1 h
  obtain ⟨_, hsizing, h⟩ := StateExcept.bind_eq_ok.1 h
  obtain ⟨keeperMode, hkeeper, h⟩ := StateExcept.bind_eq_ok.1 h
  obtain ⟨haproxy, -, h⟩ := StateExcept.bind_eq_ok.1 h
  obtain ⟨_, hvalid, h⟩ := StateExcept.bind_eq_ok.1 h
  cases h
  refine ⟨hpgHa, rfl, fun hempty => ?_, hetcd, hsentinel, hredis, hsizing, hkeeper, rfl⟩
  rw [validatePlan, show planPostgres (inv.hostsWith .postgres) pgHa = [] from hempty] at hvalid
  cases hvalid

/-! ### Hosts -/

theorem hostsWith_sublist (inv : Inventory) (role : Role) :
    (inv.hostsWith role).Sublist inv.hosts := filter_sublist

theorem names_nodup_hostsWith (inv : Inventory) (role : Role) :
    ((inv.hostsWith role).map Host.name).Nodup :=
  inv.names_nodup.sublist ((hostsWith_sublist inv role).map _)

theorem nodup_hostsWith (inv : Inventory) (role : Role) : (inv.hostsWith role).Nodup :=
  (names_nodup_hostsWith inv role).of_map

theorem eq_of_name_eq {h h' : Host} (hmem : h ∈ inv.hosts) (hmem' : h' ∈ inv.hosts)
    (hname : h.name = h'.name) : h = h' :=
  inj_on_of_nodup_map inv.names_nodup hmem hmem' hname

/-! ### Postgres -/

variable {hosts : List Host}

theorem onePostgres_planPostgres {ha : Bool} (hne : planPostgres hosts ha ≠ []) :
    ((planPostgres hosts ha).filter (·.role ≠ .replica)).length = 1 := by
  cases hosts with
  | nil => exact absurd rfl hne
  | cons first rest =>
    rw [planPostgres]
    split
    · simp [filter_map, Function.comp_def]
    · rfl

theorem quorum_etcd (h : planEtcd inv true = .ok hosts) :
    Quorum hosts.length := by
  rw [planEtcd, if_pos rfl] at h
  dsimp only at h
  split at h
  next hlength =>
    cases h
    rcases hlength with hlength | hlength <;> rw [hlength] <;> decide
  · cases h

/-! ### Redis -/

theorem addSentinels_eq (hnames : (hosts.map Host.name).Nodup)
    (nodes : List RedisNode) (seen : List String) :
    addSentinels nodes seen hosts =
      nodes ++ (hosts.filter (·.name ∉ seen)).map fun h => ⟨h, .replica, true⟩ := by
  induction hosts generalizing nodes seen with
  | nil => simp [addSentinels]
  | cons c rest ih =>
    rw [map_cons, nodup_cons] at hnames
    rw [addSentinels]
    split
    next hseen => rw [ih hnames.2, filter_cons_of_neg (by simpa using hseen)]
    next hseen =>
      have hrest : rest.filter (·.name ∉ c.name :: seen) = rest.filter (·.name ∉ seen) := by
        refine filter_congr fun h hmem => ?_
        have hne : h.name ≠ c.name := fun heq => hnames.1 (heq ▸ mem_map_of_mem hmem)
        simp [hne]
      rw [ih hnames.2, hrest, filter_cons_of_pos (by simpa using hseen), map_cons,
        append_assoc, singleton_append]

/-- The hosts of Redis, or those of central if there are none. -/
def redisHosts (inv : Inventory) : List Host :=
  if (inv.hostsWith .redis).isEmpty then inv.hostsWith .central else inv.hostsWith .redis

theorem mem_hosts_of_mem_redisHosts {h : Host} (hmem : h ∈ redisHosts inv) : h ∈ inv.hosts := by
  rw [redisHosts] at hmem
  split at hmem <;> exact (hostsWith_sublist _ _).subset hmem

/-- **The nodes of Redis**: a primary, replicas of it, and sentinels on every other central host. -/
theorem planRedis_sentinel {nodes : List RedisNode}
    (h : planRedis inv (inv.hostsWith .central) true = .ok nodes) :
    ∃ primary replicas, redisHosts inv = primary :: replicas ∧
      nodes = ⟨primary, .primary, true⟩ :: (replicas ++ (inv.hostsWith .central).filter
        (· ∉ redisHosts inv)).map fun h => ⟨h, .replica, true⟩ := by
  rw [planRedis] at h
  dsimp only at h
  split at h
  · cases h
  next primary replicas hsplit =>
    have hhosts : redisHosts inv = primary :: replicas := hsplit
    rw [if_pos rfl] at h
    cases h
    refine ⟨primary, replicas, hhosts, ?_⟩
    rw [addSentinels_eq (names_nodup_hostsWith inv .central), cons_append, map_append]
    congr 3
    refine filter_congr fun c hc => ?_
    have hmem : c.name ∈ (primary :: replicas).map Host.name ↔ c ∈ primary :: replicas := by
      constructor
      · intro hname
        obtain ⟨h, hh, heq⟩ := List.mem_map.1 hname
        rwa [← eq_of_name_eq (mem_hosts_of_mem_redisHosts (hhosts ▸ hh))
          ((hostsWith_sublist _ _).subset hc) heq]
      · exact fun h => mem_map_of_mem h
    rw [hhosts, Bool.eq_iff_iff]
    simpa [Function.comp_def] using not_congr hmem

theorem oneRedis_planRedis {sentinel : Bool} {nodes : List RedisNode}
    (h : planRedis inv (inv.hostsWith .central) sentinel = .ok nodes) :
    (nodes.filter (·.role ≠ .replica)).length = 1 := by
  cases sentinel with
  | true =>
    obtain ⟨primary, replicas, -, rfl⟩ := planRedis_sentinel h
    simp [filter_map, Function.comp_def]
  | false =>
    rw [planRedis] at h
    dsimp only at h
    split at h
    · cases h
    · cases h
      rfl

theorem length_filter_or {α : Type} (p q : α → Bool) (l : List α) :
    (l.filter fun x => p x || q x).length =
      (l.filter p).length + (l.filter fun x => q x && !p x).length := by
  induction l with
  | nil => rfl
  | cons x l ih => by_cases hp : p x <;> by_cases hq : q x <;> simp [hp, hq, ih] <;> omega

/-- **The sentinels** are on the hosts with Redis or central. -/
theorem length_sentinels (h : Planned inv plan) (hsentinel : plan.redisSentinel = true) :
    plan.sentinels.length =
      (inv.hosts.filter fun h => h.hasRole .redis || h.hasRole .central).length := by
  have hredis := h.redis
  rw [hsentinel] at hredis
  obtain ⟨primary, replicas, hhosts, hnodes⟩ := planRedis_sentinel hredis
  have hlength : plan.sentinels.length = (redisHosts inv).length +
      ((inv.hostsWith .central).filter (· ∉ redisHosts inv)).length := by
    rw [Plan.sentinels, hnodes, hhosts]
    simp [filter_map, Function.comp_def]
    omega
  rw [hlength, length_filter_or]
  by_cases hempty : (inv.hostsWith .redis).isEmpty
  · have hnone : inv.hosts.filter (·.hasRole .redis) = [] := List.isEmpty_iff.1 hempty
    have hcentral : redisHosts inv = inv.hostsWith .central := by rw [redisHosts, if_pos hempty]
    rw [hnone, hcentral, Inventory.hostsWith, hostsWith, filter_filter]
    have hself : inv.hosts.filter (fun h => decide (h ∉ inv.hosts.filter (·.hasRole .central)) &&
        h.hasRole .central) = [] := by
      rw [filter_eq_nil_iff]
      intro h hmem
      simp [hmem]
    have hother : inv.hosts.filter (fun h => h.hasRole .central && !h.hasRole .redis) =
        inv.hosts.filter (·.hasRole .central) := by
      refine filter_congr fun h hmem => ?_
      simp [List.filter_eq_nil_iff.1 hnone h hmem]
    rw [hself, hother]
    simp
  · have hhosts' : redisHosts inv = inv.hostsWith .redis := by rw [redisHosts, if_neg hempty]
    rw [hhosts', Inventory.hostsWith, Inventory.hostsWith, hostsWith, hostsWith, filter_filter]
    congr 2
    refine filter_congr fun h hmem => ?_
    simp [hmem, Bool.and_comm]

/-! ### ClickHouse -/

theorem length_of_validateChSizing (h : validateChSizing inv (inv.hostsWith .clickhouse) = .ok ()) :
    (inv.hostsWith .clickhouse).length =
      inv.sizing.clickhouse.shards * inv.sizing.clickhouse.replicas := by
  rw [validateChSizing] at h
  split at h
  · cases h
  · dsimp only at h
    split at h
    · cases h
    next hlength => exact not_not.1 hlength

theorem length_positions (shards replicas : ℕ) :
    (positions shards replicas).length = shards * replicas := by
  simp [positions, length_flatMap]

theorem mem_positions {shards replicas s r : ℕ} : (s, r) ∈ positions shards replicas ↔
    (1 ≤ s ∧ s ≤ shards) ∧ 1 ≤ r ∧ r ≤ replicas := by
  simp only [positions, mem_flatMap, mem_map, mem_range'_1, Prod.mk.injEq]
  constructor
  · rintro ⟨s', hs, r', hr, rfl, rfl⟩
    omega
  · intro h
    exact ⟨s, by omega, r, by omega, rfl, rfl⟩

theorem nodup_positions (shards replicas : ℕ) : (positions shards replicas).Nodup := by
  rw [positions, nodup_flatMap]
  constructor
  · exact fun s _ => List.Nodup.map (fun r r' h => (Prod.mk.inj h).2) nodup_range'
  · have hrows : (List.range' 1 shards).Nodup := nodup_range'
    refine hrows.imp fun {s s'} hne => ?_
    rintro ⟨s'', r⟩ hmem hmem'
    obtain ⟨_, -, heq⟩ := List.mem_map.1 hmem
    obtain ⟨_, -, heq'⟩ := List.mem_map.1 hmem'
    exact hne ((Prod.mk.inj heq).1.trans (Prod.mk.inj heq').1.symm)

theorem hosts_planned (h : Planned inv plan) :
    plan.clickhouse.map ClickHouseNode.host = inv.hostsWith .clickhouse := by
  have hnodes := congrArg Prod.fst h.clickhouse
  have hlength := length_of_validateChSizing h.sizing
  rw [← length_positions] at hlength
  change plan.clickhouse = _ at hnodes
  rw [hnodes, planClickhouse, map_map]
  exact map_snd_zip hlength.le

theorem positions_planned (h : Planned inv plan) : plan.clickhouse.map ClickHouseNode.position =
    positions inv.sizing.clickhouse.shards inv.sizing.clickhouse.replicas := by
  have hnodes := congrArg Prod.fst h.clickhouse
  have hlength := length_of_validateChSizing h.sizing
  rw [← length_positions] at hlength
  change plan.clickhouse = _ at hnodes
  rw [hnodes, planClickhouse, map_map]
  exact map_fst_zip hlength.ge

/-! ### Keepers -/

theorem keepers_planned (h : Planned inv plan) : plan.clickhouseKeepers =
    keeperHosts inv (inv.hostsWith .clickhouse) plan.keeperMode :=
  congrArg Prod.snd h.clickhouse

theorem keeperHosts_sublist (mode : KeeperMode) :
    (keeperHosts inv (inv.hostsWith .clickhouse) mode).Sublist inv.hosts := by
  cases mode with
  | dedicated => exact hostsWith_sublist _ _
  | embedded =>
    rw [keeperHosts]
    split
    · exact (take_sublist _ _).trans (hostsWith_sublist _ _)
    · split
      · exact (take_sublist _ _).trans (hostsWith_sublist _ _)
      · exact hostsWith_sublist _ _

theorem keeperNames_nodup (mode : KeeperMode) :
    ((keeperHosts inv (inv.hostsWith .clickhouse) mode).map Host.name).Nodup :=
  inv.names_nodup.sublist ((keeperHosts_sublist mode).map _)

theorem keys_zipIdx (keepers : List Host) :
    (keepers.zipIdx.map fun e => (e.1.name, e.2 + 1)).map Prod.fst = keepers.map Host.name := by
  conv_rhs => rw [← zipIdx_map_fst 0 keepers]
  rw [map_map, map_map]
  rfl

variable {keepers : List Host}

theorem keeperIds_eq_map (hnames : (keepers.map Host.name).Nodup) :
    keeperIds keepers = keepers.zipIdx.map fun e => (e.1.name, e.2 + 1) := by
  rw [keeperIds, Dict.setAll_of_nodup (by rwa [keys_zipIdx]), nil_append]

theorem keeperIds_eq (hnames : (keepers.map Host.name).Nodup) :
    keeperIds keepers = (keepers.map Host.name).zip (List.range' 1 keepers.length) := by
  rw [keeperIds_eq_map hnames]
  refine zip_of_prod (keys_zipIdx keepers) ?_
  rw [range'_succ_left, ← zipIdx_map_snd 0 keepers, map_map, map_map]
  rfl

theorem get?_keeperIds (hnames : (keepers.map Host.name).Nodup)
    {name : String} {id : ℕ} : (keeperIds keepers).get? name = some id ↔
      1 ≤ id ∧ (keepers[id - 1]?).map Host.name = some name := by
  have hkeys : (keeperIds keepers).keys = keepers.map Host.name := by
    rw [keeperIds_eq_map hnames, Dict.keys, keys_zipIdx]
  have hmem : (name, id) ∈ keeperIds keepers ↔
      1 ≤ id ∧ (keepers[id - 1]?).map Host.name = some name := by
    rw [keeperIds_eq_map hnames, mem_map, Option.map_eq_some_iff]
    constructor
    · rintro ⟨⟨h, i⟩, hmem, heq⟩
      cases heq
      exact ⟨Nat.succ_pos i, h, List.mk_mem_zipIdx_iff_getElem?.1 hmem, rfl⟩
    · rintro ⟨hpos, h, hh, rfl⟩
      refine ⟨(h, id - 1), List.mk_mem_zipIdx_iff_getElem?.2 hh, ?_⟩
      rw [Nat.sub_add_cancel hpos]
  rw [← hmem]
  constructor
  · exact Dict.mem_of_lookup
  · exact Dict.lookup_eq_some_of_mem (hkeys ▸ hnames)

theorem keeperId_planned (h : Planned inv plan) {n : ClickHouseNode} (hn : n ∈ plan.clickhouse) :
    n.keeperId = (keeperIds plan.clickhouseKeepers).get? n.host.name := by
  have hnodes := congrArg Prod.fst h.clickhouse
  change plan.clickhouse = _ at hnodes
  rw [hnodes, planClickhouse] at hn
  obtain ⟨e, -, rfl⟩ := List.mem_map.1 hn
  rw [keepers_planned h]

theorem keeperId_eq_some (h : Planned inv plan) {n : ClickHouseNode} (hn : n ∈ plan.clickhouse)
    {id : ℕ} : n.keeperId = some id ↔
      1 ≤ id ∧ plan.clickhouseKeepers[id - 1]? = some n.host := by
  have hhost : n.host ∈ inv.hosts :=
    (hostsWith_sublist inv .clickhouse).subset (hosts_planned h ▸ mem_map_of_mem hn)
  have hkeepers := keepers_planned h
  rw [keeperId_planned h hn, get?_keeperIds (hkeepers ▸ keeperNames_nodup _),
    Option.map_eq_some_iff]
  refine and_congr_right fun _ => ⟨?_, fun hsome => ⟨n.host, hsome, rfl⟩⟩
  rintro ⟨k, hk, hname⟩
  have hmem : k ∈ inv.hosts :=
    (keeperHosts_sublist plan.keeperMode).subset (hkeepers ▸ mem_of_getElem? hk)
  rw [hk, eq_of_name_eq hmem hhost hname]

theorem embedded_take (h : Planned inv plan) (hmode : plan.keeperMode = .embedded) :
    ∃ k, Quorum k ∧ k ≤ (inv.hostsWith .clickhouse).length ∧
      plan.clickhouseKeepers = (inv.hostsWith .clickhouse).take k := by
  have hkeepers := keepers_planned h
  have hresolve := h.keeperMode
  rw [hmode] at hkeepers hresolve
  rw [hkeepers, keeperHosts]
  split
  next hone => exact ⟨1, .inl rfl, hone.ge, rfl⟩
  next hne =>
    split
    next hthree => exact ⟨3, .inr (by decide), hthree, rfl⟩
    next hfew =>
      -- fewer than three hosts, other than one: the planner refuses, or takes dedicated keepers
      rw [resolveKeeperMode] at hresolve
      split at hresolve
      · split at hresolve <;> cases hresolve
      · rw [if_neg hfew] at hresolve
        split at hresolve
        · cases hresolve
        · simp at hresolve

theorem filterMap_get?_keeperIds (hnames : (keepers.map Host.name).Nodup) :
    (keepers.filterMap fun h => (keeperIds keepers).get? h.name) =
      List.range' 1 keepers.length := by
  have hmap : (keepers.map fun h => (keeperIds keepers).get? h.name) =
      (List.range' 1 keepers.length).map some := by
    refine ext_getElem? fun i => ?_
    rw [getElem?_map, getElem?_map]
    cases hi : keepers[i]? with
    | none =>
      have hle : keepers.length ≤ i := List.getElem?_eq_none_iff.1 hi
      rw [getElem?_eq_none (by simpa using hle)]
      rfl
    | some h =>
      have hlt := (List.getElem?_eq_some_iff.1 hi).1
      have hid : (keeperIds keepers).get? h.name = some (i + 1) :=
        (get?_keeperIds hnames).2 ⟨Nat.succ_pos i, by simp [hi]⟩
      simp [hid, hlt, Nat.add_comm]
  calc
    (keepers.filterMap fun h => (keeperIds keepers).get? h.name) =
        (keepers.map fun h => (keeperIds keepers).get? h.name).filterMap id := by
      rw [filterMap_map]
      rfl
    _ = List.range' 1 keepers.length := by
      rw [hmap, filterMap_map]
      exact filterMap_some

theorem embeddedKeepers_planned (h : Planned inv plan) (hmode : plan.keeperMode = .embedded) :
    plan.clickhouse.filterMap ClickHouseNode.keeperId =
      List.range' 1 plan.clickhouseKeepers.length := by
  obtain ⟨k, -, -, htake⟩ := embedded_take h hmode
  have hnames := names_nodup_hostsWith inv .clickhouse
  have hnodes : plan.clickhouse.filterMap ClickHouseNode.keeperId =
      (inv.hostsWith .clickhouse).filterMap fun host =>
        (keeperIds plan.clickhouseKeepers).get? host.name := by
    rw [← hosts_planned h, filterMap_map]
    exact filterMap_congr fun n hn => keeperId_planned h hn
  rw [hnodes, ← take_append_drop k (inv.hostsWith .clickhouse), filterMap_append, ← htake,
    filterMap_get?_keeperIds (htake ▸ hnames.sublist ((take_sublist _ _).map _))]
  -- the hosts after the first ones have no keeper
  have hrest : ((inv.hostsWith .clickhouse).drop k).filterMap
      (fun host => (keeperIds plan.clickhouseKeepers).get? host.name) = [] := by
    rw [filterMap_eq_nil_iff]
    intro host hmem
    rw [Option.eq_none_iff_forall_not_mem]
    intro id hid
    rw [htake] at hid
    have htaken := names_nodup_hostsWith inv .clickhouse
    rw [← take_append_drop k (inv.hostsWith .clickhouse), map_append,
      nodup_append] at htaken
    obtain ⟨-, hname⟩ := (get?_keeperIds htaken.1).1 hid
    obtain ⟨host', hhost', heq⟩ := Option.map_eq_some_iff.1 hname
    exact htaken.2.2 _ (mem_map_of_mem (mem_of_getElem? hhost')) _
      (mem_map_of_mem hmem) heq
  rw [hrest, append_nil]

/-! ### Plans -/

theorem quorum_keepers_iff (h : Planned inv plan) :
    Quorum plan.clickhouseKeepers.length ↔ KeeperQuorum inv := by
  have hresolve := h.keeperMode
  rw [KeeperQuorum, hresolve]
  cases hmode : plan.keeperMode with
  | dedicated =>
    have hkeepers := keepers_planned h
    rw [hmode] at hkeepers
    rw [hkeepers, keeperHosts]
    exact ⟨fun hquorum _ => hquorum, fun hall => hall rfl⟩
  | embedded =>
    obtain ⟨k, hquorum, hk, htake⟩ := embedded_take h hmode
    refine iff_of_true ?_ (fun hcontra => by cases hcontra)
    rwa [htake, length_take, Nat.min_eq_left hk]

theorem quorum_sentinels_iff (h : Planned inv plan) :
    (plan.redisSentinel = true → Quorum plan.sentinels.length) ↔ SentinelQuorum inv := by
  rw [SentinelQuorum, h.redisSentinel]
  constructor
  · intro hquorum heq
    have hsentinel := Except.ok.inj heq
    exact length_sentinels h hsentinel ▸ hquorum hsentinel
  · intro hquorum hsentinel
    rw [length_sentinels h hsentinel]
    exact hquorum (congrArg _ hsentinel)

theorem mem_ensembles {ensemble : List Host} : ensemble ∈ plan.ensembles ↔
    (plan.pgHa = true ∧ ensemble = plan.etcdHosts) ∨ ensemble = plan.clickhouseKeepers ∨
      (plan.redisSentinel = true ∧ ensemble = plan.sentinels) := by
  rw [Plan.ensembles]
  cases plan.pgHa <;> cases plan.redisSentinel <;> simp

/-- **A plan is well formed** iff its dedicated keepers and its sentinels are quorums. -/
theorem wellFormed_iff (h : planCluster inv = .ok plan) :
    WellFormed inv plan ↔ KeeperQuorum inv ∧ SentinelQuorum inv := by
  have hplan := planned_of_ok h
  have hkeepers := keepers_planned hplan
  have hnames : (plan.clickhouseKeepers.map Host.name).Nodup := hkeepers ▸ keeperNames_nodup _
  rw [← quorum_keepers_iff hplan, ← quorum_sentinels_iff hplan]
  constructor
  · intro hwell
    refine ⟨hwell.quorums _ (mem_ensembles.2 (.inr (.inl rfl))), fun hsentinel => ?_⟩
    exact hwell.quorums _ (mem_ensembles.2 (.inr (.inr ⟨hsentinel, rfl⟩)))
  · rintro ⟨hkeeperQuorum, hsentinelQuorum⟩
    exact {
      hosts_nodup := hosts_planned hplan ▸ nodup_hostsWith inv .clickhouse
      mem_hosts := fun host => by
        rw [hosts_planned hplan, Inventory.hostsWith, hostsWith, mem_filter]
      positions_nodup := positions_planned hplan ▸ nodup_positions _ _
      mem_positions := fun s r => by rw [positions_planned hplan, mem_positions]
      keeperIds := keeperIds_eq hnames
      keeperNames_nodup := hnames
      keeperId_eq := fun n hn id => keeperId_eq_some hplan hn
      embeddedKeepers := embeddedKeepers_planned hplan
      onePostgres := by
        rw [hplan.postgres]
        exact onePostgres_planPostgres (hplan.postgres ▸ hplan.postgres_ne)
      oneRedis := oneRedis_planRedis hplan.redis
      quorums := by
        intro ensemble hmem
        rcases mem_ensembles.1 hmem with ⟨hha, rfl⟩ | rfl | ⟨hsentinel, rfl⟩
        · exact quorum_etcd (hha ▸ hplan.etcd)
        · exact hkeeperQuorum
        · exact hsentinelQuorum hsentinel }

/-! ### Two sentinels -/

/-- Three hosts with everything. -/
def largeInventory : Inventory where
  hosts := [⟨"a", "10.0.0.1", [.postgres, .etcd, .central, .clickhouse]⟩,
    ⟨"b", "10.0.0.2", [.postgres, .etcd, .central, .clickhouse]⟩,
    ⟨"c", "10.0.0.3", [.etcd, .central, .clickhouse]⟩]
  sizing := { clickhouse := { shards := 3 } }
  valid := by decide

/-- Central on two hosts, and everything else on the first of them. -/
def pairInventory : Inventory where
  hosts := [⟨"a", "10.0.0.1", [.postgres, .central, .clickhouse]⟩, ⟨"b", "10.0.0.2", [.central]⟩]
  valid := by decide

theorem planCluster_eq_ok (hmem : plan ∈ (planCluster inv).toOption) :
    planCluster inv = .ok plan := by
  cases hresult : planCluster inv with
  | ok plan' =>
    rw [hresult] at hmem
    cases hmem
    rfl
  | error e =>
    rw [hresult] at hmem
    cases hmem

theorem largeInventory_wellFormed :
    ∃ plan, planCluster largeInventory = .ok plan ∧ WellFormed largeInventory plan := by
  have hplan : ∃ plan ∈ (planCluster largeInventory).toOption, plan.ensembles.length = 3 := by
    decide +kernel
  obtain ⟨plan, hmem, -⟩ := hplan
  have hok := planCluster_eq_ok hmem
  have hembedded : resolveKeeperMode largeInventory (largeInventory.hostsWith .clickhouse) =
      .ok .embedded := rfl
  refine ⟨plan, hok, (wellFormed_iff hok).2 ⟨fun hdedicated => ?_, fun _ => ?_⟩⟩
  · rw [hembedded] at hdedicated
    cases hdedicated
  · decide +kernel

/-- **Two sentinels**: the planner accepts central on two hosts. -/
theorem not_wellFormed : ¬∀ inv plan, planCluster inv = .ok plan → WellFormed inv plan := by
  intro hall
  have hplan : ∃ plan ∈ (planCluster pairInventory).toOption,
      plan.redisSentinel = true ∧ plan.sentinels.length = 2 := by decide +kernel
  obtain ⟨plan, hmem, hsentinel, htwo⟩ := hplan
  have hok := planCluster_eq_ok hmem
  have hquorum := (hall _ _ hok).quorums _ (mem_ensembles.2 (.inr (.inr ⟨hsentinel, rfl⟩)))
  rw [htwo] at hquorum
  exact absurd hquorum (by decide)

end MonCTL.Installer
