import MonCTL.Lib.Dict

/-!
# The Installer's Plan of a Cluster

`inventory.yaml` lists the hosts with their roles, and how large each subsystem is to be. The
planner turns it into the nodes of Postgres, etcd, Redis, ClickHouse and its keepers, or refuses
with a `PlanError`.

An inventory carries what its validators have checked.
-/

namespace MonCTL.Installer

/-! ### Inventories -/

/-- The roles of a host. -/
inductive Role
  | postgres
  | etcd
  | redis
  | clickhouse
  | clickhouseKeeper
  | central
  | haproxy
  | collector
  | dockerStats
  | superset
  deriving DecidableEq

structure Host where
  name : String
  address : String
  roles : List Role := []
  deriving DecidableEq

def Host.hasRole (h : Host) (role : Role) : Bool := role ∈ h.roles

inductive PostgresMode
  | auto
  | standalone
  | ha

inductive RedisMode
  | auto
  | single
  | sentinel

inductive KeeperMode
  | embedded
  | dedicated
  deriving DecidableEq

structure ClickHouseSizing where
  shards : ℕ := 1
  replicas : ℕ := 1
  keeper : KeeperMode := .embedded
  shards_bounds : 1 ≤ shards ∧ shards ≤ 24 := by decide
  replicas_bounds : 1 ≤ replicas ∧ replicas ≤ 3 := by decide

structure Sizing where
  postgres : PostgresMode := .auto
  clickhouse : ClickHouseSizing := {}
  redis : RedisMode := .auto

theorem one_shard_bounds : 1 ≤ 1 ∧ 1 ≤ 24 := by decide

theorem one_replica_bounds : 1 ≤ 1 ∧ 1 ≤ 3 := by decide

/-- The sizing of a document that says nothing about it. -/
def Sizing.plain : Sizing where
  clickhouse := { shards_bounds := one_shard_bounds, replicas_bounds := one_replica_bounds }

/-- The hosts with a role, in the order of the document. -/
def hostsWith (hosts : List Host) (role : Role) : List Host := hosts.filter (·.hasRole role)

/-- `_non_empty_hosts`. -/
def nonEmptyHosts (hosts : List Host) : Except String Unit :=
  if hosts.isEmpty then .error "at least one host required"
  else if ¬(hosts.map Host.name).Nodup then .error "host names must be unique"
  else if ¬(hosts.map Host.address).Nodup then .error "host addresses must be unique"
  else if (hostsWith hosts .superset).length > 1 then
    .error "at most one host may carry the 'superset' role"
  else .ok ()

/-- A document that the validators have accepted. -/
structure Inventory where
  hosts : List Host
  vip : Option String := none
  sizing : Sizing := {}
  valid : nonEmptyHosts hosts = .ok ()

def Inventory.hostsWith (inv : Inventory) (role : Role) : List Host :=
  Installer.hostsWith inv.hosts role

variable (inv : Inventory)

theorem Inventory.names_nodup : (inv.hosts.map Host.name).Nodup := by
  have hvalid := inv.valid
  rw [nonEmptyHosts] at hvalid
  by_contra hdup
  split at hvalid <;> cases hvalid

/-! ### Plans -/

inductive PostgresRole
  | primarySeed
  | replica
  | standalone
  deriving DecidableEq

structure PostgresNode where
  host : Host
  role : PostgresRole

inductive RedisRole
  | primary
  | replica
  | standalone
  deriving DecidableEq

structure RedisNode where
  host : Host
  role : RedisRole
  sentinel : Bool

structure ClickHouseNode where
  host : Host
  /-- Shards count from 1. -/
  shard : ℕ
  /-- Replicas count from 1. -/
  replica : ℕ
  embeddedKeeper : Bool
  /-- Keepers count from 1; set only on keeper hosts. -/
  keeperId : Option ℕ

structure Plan where
  postgres : List PostgresNode
  etcdHosts : List Host
  redis : List RedisNode
  clickhouse : List ClickHouseNode
  /-- Dedicated hosts, or the carriers of embedded keepers. -/
  clickhouseKeepers : List Host
  centralHosts : List Host
  haproxyHosts : List Host
  collectorHosts : List Host
  supersetHost : Option Host
  pgHa : Bool
  redisSentinel : Bool
  haproxyEnabled : Bool
  keeperMode : KeeperMode

/-! ### Postgres and etcd -/

/-- `_resolve_pg_ha`. -/
def resolvePgHa (pgHosts : List Host) : Except String Bool :=
  match inv.sizing.postgres with
  | .standalone => .ok false
  | .ha =>
    if pgHosts.length < 2 then
      .error s!"postgres.mode=ha requires at least 2 postgres hosts (got {pgHosts.length})"
    else .ok true
  | .auto =>
    if pgHosts.isEmpty then .error "at least one host must carry the 'postgres' role"
    else .ok (decide (pgHosts.length > 1))

/-- `_plan_postgres`. -/
def planPostgres (pgHosts : List Host) (ha : Bool) : List PostgresNode :=
  match pgHosts with
  | [] => []
  | first :: rest =>
    if ha then ⟨first, .primarySeed⟩ :: rest.map fun h => ⟨h, .replica⟩
    else [⟨first, .standalone⟩]

/-- `_plan_etcd`. -/
def planEtcd (pgHa : Bool) : Except String (List Host) :=
  if pgHa then
    let etcdHosts := inv.hostsWith .etcd
    if etcdHosts.length = 3 ∨ etcdHosts.length = 5 then .ok etcdHosts
    else
      .error (s!"etcd requires 3 or 5 hosts for quorum (got {etcdHosts.length}); " ++
        "add 'etcd' role to enough hosts")
  else .ok []

/-! ### Redis -/

/-- `_resolve_redis_sentinel`. -/
def resolveRedisSentinel (centralHosts : List Host) : Except String Bool :=
  match inv.sizing.redis with
  | .single => .ok false
  | .sentinel =>
    if centralHosts.length < 2 then
      .error s!"redis.mode=sentinel requires >= 2 central hosts (got {centralHosts.length})"
    else .ok true
  | .auto => .ok (decide (centralHosts.length > 1))

/-- The nodes for the central hosts that are not in the list yet, and the names seen. -/
def addSentinels (nodes : List RedisNode) (seen : List String) : List Host → List RedisNode
  | [] => nodes
  | c :: rest =>
    if c.name ∈ seen then addSentinels nodes seen rest
    else addSentinels (nodes ++ [⟨c, .replica, true⟩]) (c.name :: seen) rest

/-- `_plan_redis`. -/
def planRedis (centralHosts : List Host) (sentinel : Bool) :
    Except String (List RedisNode) :=
  -- Redis co-locates with central hosts if no host has the role
  let redisHosts := if (inv.hostsWith .redis).isEmpty then centralHosts else inv.hostsWith .redis
  match redisHosts with
  | [] => .error "no host carries redis or central role; at least one required"
  | primary :: replicas =>
    if sentinel then
      let nodes := ⟨primary, .primary, true⟩ :: replicas.map fun h => ⟨h, .replica, true⟩
      .ok (addSentinels nodes (nodes.map fun n => n.host.name) centralHosts)
    else .ok [⟨primary, .standalone, false⟩]

/-! ### ClickHouse -/

/-- `_validate_ch_sizing`. -/
def validateChSizing (chHosts : List Host) : Except String Unit :=
  if chHosts.isEmpty then .error "at least one host must carry the 'clickhouse' role"
  else
    let shards := inv.sizing.clickhouse.shards
    let replicas := inv.sizing.clickhouse.replicas
    let expected := shards * replicas
    if chHosts.length ≠ expected then
      .error (s!"clickhouse sizing mismatch: shards*replicas={shards}*{replicas}={expected}, " ++
        s!"but {chHosts.length} hosts carry the clickhouse role")
    else .ok ()

/-- `_resolve_keeper_mode`. -/
def resolveKeeperMode (chHosts : List Host) : Except String KeeperMode :=
  match inv.sizing.clickhouse.keeper with
  | .dedicated =>
    if (inv.hostsWith .clickhouseKeeper).isEmpty then
      .error ("clickhouse.keeper=dedicated requires at least one host with " ++
        "clickhouse_keeper role")
    else .ok .dedicated
  | .embedded =>
    if 3 ≤ chHosts.length then .ok .embedded
    else if ¬(inv.hostsWith .clickhouseKeeper).isEmpty then .ok .dedicated
    else if chHosts.length = 1 then .ok .embedded
    else
      .error ("2 clickhouse hosts with embedded keeper is not a valid Raft quorum; " ++
        "add a third clickhouse_keeper host or set clickhouse.keeper=dedicated")

def keeperHosts (chHosts : List Host) : KeeperMode → List Host
  | .dedicated => inv.hostsWith .clickhouseKeeper
  | .embedded =>
    if chHosts.length = 1 then chHosts.take 1
    else if 3 ≤ chHosts.length then chHosts.take 3
    else chHosts

/-- The identifiers of keepers by the names of their hosts. -/
def keeperIds (keepers : List Host) : Dict String ℕ :=
  Dict.setAll [] (keepers.zipIdx.map fun e => (e.1.name, e.2 + 1))

/-- The positions of shards and replicas, row by row. -/
def positions (shards replicas : ℕ) : List (ℕ × ℕ) :=
  (List.range' 1 shards).flatMap fun s => (List.range' 1 replicas).map fun r => (s, r)

/-- `_plan_clickhouse`. The hosts are as many as the positions once the sizing is validated. -/
def planClickhouse (chHosts : List Host) (keeperMode : KeeperMode) :
    List ClickHouseNode × List Host :=
  let keepers := keeperHosts inv chHosts keeperMode
  let ids := keeperIds keepers
  let nodes := ((positions inv.sizing.clickhouse.shards inv.sizing.clickhouse.replicas).zip
    chHosts).map fun e =>
      { host := e.2
        shard := e.1.1
        replica := e.1.2
        embeddedKeeper := decide (keeperMode = .embedded) && (ids.get? e.2.name).isSome
        keeperId := ids.get? e.2.name }
  (nodes, keepers)

/-! ### The plan -/

/-- Whether a virtual address is set. -/
def Inventory.hasVip : Bool := (inv.vip.getD "") ≠ ""

/-- `_resolve_haproxy`. -/
def resolveHaproxy (centralHosts : List Host) : Except String Bool :=
  if inv.hasVip then
    if centralHosts.length < 2 then
      .error "cluster.vip requires >= 2 central hosts for meaningful HA"
    else if (inv.hostsWith .haproxy).isEmpty then
      .error "cluster.vip set but no host carries the 'haproxy' role"
    else .ok true
  else .ok (decide (centralHosts.length > 1) && !(inv.hostsWith .haproxy).isEmpty)

/-- `_validate_plan`. -/
def validatePlan (pgNodes : List PostgresNode) (centralHosts : List Host)
    (chNodes : List ClickHouseNode) : Except String Unit :=
  if pgNodes.isEmpty then .error "no postgres nodes resolved"
  else if centralHosts.isEmpty then .error "at least one host must carry the 'central' role"
  else if chNodes.isEmpty then .error "no clickhouse nodes resolved"
  else .ok ()

/-- `plan_cluster`, or the text of its `PlanError`. -/
def planCluster : Except String Plan := do
  let pgHosts := inv.hostsWith .postgres
  let chHosts := inv.hostsWith .clickhouse
  let centralHosts := inv.hostsWith .central
  let pgHa ← resolvePgHa inv pgHosts
  let pgNodes := planPostgres pgHosts pgHa
  let etcdHosts ← planEtcd inv pgHa
  let redisSentinel ← resolveRedisSentinel inv centralHosts
  let redisNodes ← planRedis inv centralHosts redisSentinel
  validateChSizing inv chHosts
  let keeperMode ← resolveKeeperMode inv chHosts
  let clickhouse := planClickhouse inv chHosts keeperMode
  let haproxyEnabled ← resolveHaproxy inv centralHosts
  validatePlan pgNodes centralHosts clickhouse.1
  return {
    postgres := pgNodes
    etcdHosts
    redis := redisNodes
    clickhouse := clickhouse.1
    clickhouseKeepers := clickhouse.2
    centralHosts
    haproxyHosts := if haproxyEnabled then inv.hostsWith .haproxy else []
    collectorHosts := inv.hostsWith .collector
    supersetHost := (inv.hostsWith .superset).head?
    pgHa
    redisSentinel
    haproxyEnabled
    keeperMode }

end MonCTL.Installer
