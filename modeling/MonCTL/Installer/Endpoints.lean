import MonCTL.Installer.Quorum

/-!
# Rendered Endpoints

The render engine writes the configuration of every host of a plan. Each address in it is where the
host expects a service: an address of a host of the plan, the virtual address that the HAProxy hosts
share, or the host's own loopback address.

What is kept of the rendered files is the addresses, each with the service that it is for. A
template that takes the first entry of a list, or looks a host up, fails if there is none. The ports
of a collector's own containers are left out.
-/

namespace MonCTL.Installer

open List

/-! ### Endpoints -/

/-- The services of a cluster. -/
inductive Service
  | postgres
  | etcd
  | redis
  | sentinel
  | clickhouse
  | keeper
  | central
  | haproxy
  | superset
  | dockerStats
  deriving DecidableEq

/-- An address as the engine writes it. -/
inductive Address
  | host (h : Host)
  | vip
  | localhost
  | loopback
  deriving DecidableEq

def Address.text (inv : Inventory) : Address → String
  | host h => h.address
  | vip => inv.vip.getD ""
  | localhost => "localhost"
  | loopback => "127.0.0.1"

/-- An address in the configuration of a host, and the service that it is for. -/
structure Endpoint where
  service : Service
  address : Address
  deriving DecidableEq

/-- The hosts that run a service in a plan. The docker-stats sidecar is on every host. -/
def Plan.hostsOf (inv : Inventory) (plan : Plan) : Service → List Host
  | .postgres => plan.postgres.map PostgresNode.host
  | .etcd => plan.etcdHosts
  | .redis => plan.redis.map RedisNode.host
  | .sentinel => plan.sentinels
  | .clickhouse => plan.clickhouse.map ClickHouseNode.host
  | .keeper => plan.clickhouseKeepers
  | .central => plan.centralHosts
  | .haproxy => plan.haproxyHosts
  | .superset => plan.supersetHost.toList
  | .dockerStats => inv.hosts

/-- An endpoint on each host that runs a service. -/
def allOf (inv : Inventory) (plan : Plan) (service : Service) : List Endpoint :=
  (plan.hostsOf inv service).map fun h => ⟨service, .host h⟩

/-! ### Address helpers -/

/-- `_pg_primary_host`. -/
def pgPrimaryHost (plan : Plan) : Option Host := plan.postgres.head?.map PostgresNode.host

/-- `_pg_host_for_central`. -/
def pgHostForCentral (plan : Plan) (primary : Host) : Address :=
  if plan.pgHa && plan.haproxyEnabled then .loopback else .host primary

/-- `_redis_host_for_central`: with sentinels or without, the first node. -/
def redisHostForCentral (plan : Plan) : Option Host := plan.redis.head?.map RedisNode.host

/-- `_central_api_url`, which is also the public base of the OAuth settings. -/
def centralApiUrl (inv : Inventory) (plan : Plan) : Option Endpoint :=
  if inv.hasVip then some ⟨.haproxy, .vip⟩
  else plan.centralHosts.head?.map fun h => ⟨.central, .host h⟩

/-- `_central_internal_url`. -/
def centralInternalUrl (plan : Plan) : Endpoint :=
  match plan.centralHosts with
  | [] => ⟨.central, .localhost⟩
  | h :: _ => ⟨.central, .host h⟩

/-- `_base_ctx`, as far as it is not read off the plan. -/
structure Context where
  pgHostForCentral : Address
  redisHost : Host
  centralApiUrl : Endpoint

def baseCtx (inv : Inventory) (plan : Plan) : Option Context := do
  let primary ← pgPrimaryHost plan
  let redisHost ← redisHostForCentral plan
  let url ← centralApiUrl inv plan
  some ⟨pgHostForCentral plan primary, redisHost, url⟩

/-! ### Renderers -/

/-- The virtual address, if there is one. -/
def vipOf (inv : Inventory) : List Endpoint := if inv.hasVip then [⟨.haproxy, .vip⟩] else []

/-- `_render_postgres`: with Patroni its own addresses, those of etcd, and the access list. -/
def renderPostgres (inv : Inventory) (plan : Plan) (h : Host) : List Endpoint :=
  match plan.postgres.find? fun n => n.host.name = h.name with
  | none => []
  | some _ =>
    if plan.pgHa then
      [⟨.postgres, .host h⟩, ⟨.postgres, .localhost⟩] ++ allOf inv plan .etcd ++
        allOf inv plan .postgres ++ allOf inv plan .central
    else []

/-- `_render_etcd`. -/
def renderEtcd (inv : Inventory) (plan : Plan) (h : Host) : List Endpoint :=
  ⟨.etcd, .host h⟩ :: allOf inv plan .etcd

/-- `_render_redis`: a replica follows the first node, and a sentinel watches it. -/
def renderRedis (plan : Plan) (ctx : Context) (h : Host) : List Endpoint :=
  match plan.redis.find? fun n => n.host.name = h.name with
  | none => []
  | some node =>
    (if node.role = .replica then [⟨.redis, .host ctx.redisHost⟩] else []) ++
      if plan.redisSentinel then [⟨.sentinel, .host h⟩, ⟨.redis, .host ctx.redisHost⟩] else []

/-- `_render_clickhouse`: the last node at each position, and the keepers. -/
def renderClickhouse (inv : Inventory) (plan : Plan) (h : Host) : Option (List Endpoint) := do
  let node ← plan.clickhouse.find? fun n => n.host.name = h.name
  let nodes ← (positions inv.sizing.clickhouse.shards inv.sizing.clickhouse.replicas).mapM fun p =>
    (plan.clickhouse.filter fun n => (n.shard, n.replica) = p).getLast?
  let raft := if node.embeddedKeeper then plan.clickhouse.filter (·.embeddedKeeper) else []
  some (⟨.clickhouse, .host h⟩ :: nodes.map (fun n => ⟨.clickhouse, .host n.host⟩) ++
    allOf inv plan .keeper ++ raft.map fun n => ⟨.keeper, .host n.host⟩)

/-- `_render_clickhouse_keeper`. -/
def renderClickhouseKeeper (inv : Inventory) (plan : Plan) (h : Host) : Option (List Endpoint) :=
  if h.name ∈ plan.clickhouseKeepers.map Host.name then some (allOf inv plan .keeper) else none

/-- `_render_central`. -/
def renderCentral (inv : Inventory) (plan : Plan) (ctx : Context) (h : Host) : List Endpoint :=
  [⟨.postgres, ctx.pgHostForCentral⟩, ⟨.redis, .host ctx.redisHost⟩] ++
    allOf inv plan .clickhouse ++
    (if plan.redisSentinel then allOf inv plan .sentinel else []) ++
    (if plan.pgHa then allOf inv plan .postgres ++ allOf inv plan .etcd else []) ++
    [⟨.central, .host h⟩, ⟨.central, .localhost⟩] ++ allOf inv plan .dockerStats ++ vipOf inv ++
    if plan.supersetHost.isSome then [ctx.centralApiUrl] else []

/-- `_render_haproxy`, with keepalived. -/
def renderHaproxy (inv : Inventory) (plan : Plan) (h : Host) : Option (List Endpoint) :=
  if h.name ∈ plan.haproxyHosts.map Host.name then
    some (allOf inv plan .central ++ allOf inv plan .superset ++
      (if plan.pgHa then allOf inv plan .postgres else []) ++ vipOf inv)
  else none

/-- `_render_superset`. -/
def renderSuperset (plan : Plan) (ctx : Context) (h : Host) : List Endpoint :=
  [ctx.centralApiUrl, centralInternalUrl plan] ++
    (plan.clickhouse.head?.map fun n => ⟨.clickhouse, .host n.host⟩).toList ++
    [⟨.superset, .host h⟩, ⟨.superset, .localhost⟩]

/-- `_render_collector`. -/
def renderCollector (ctx : Context) : List Endpoint := [ctx.centralApiUrl]

/-- `_render_docker_stats`. -/
def renderDockerStats (ctx : Context) : List Endpoint :=
    [ctx.centralApiUrl, ⟨.dockerStats, .loopback⟩]

/-- The endpoints of a project, if a host has it. -/
def renderIf (has : Bool) (es : Option (List Endpoint)) : Option (List Endpoint) :=
  if has then es else some []

/-- `render_host`: the endpoints in all files of a host. -/
def renderHost (inv : Inventory) (plan : Plan) (h : Host) : Option (List Endpoint) := do
  let ctx ← baseCtx inv plan
  let clickhouse ← renderIf (h.hasRole .clickhouse) (renderClickhouse inv plan h)
  let keeper ← renderIf (h.hasRole .clickhouseKeeper && plan.keeperMode = .dedicated)
    (renderClickhouseKeeper inv plan h)
  let haproxy ← renderIf (h.hasRole .haproxy && plan.haproxyEnabled) (renderHaproxy inv plan h)
  some ((if h.hasRole .postgres then renderPostgres inv plan h else []) ++
    (if h.hasRole .etcd && plan.pgHa then renderEtcd inv plan h else []) ++
    renderRedis plan ctx h ++ clickhouse ++ keeper ++
    (if h.hasRole .central then renderCentral inv plan ctx h else []) ++ haproxy ++
    (if h.hasRole .superset then renderSuperset plan ctx h else []) ++
    (if h.hasRole .collector then renderCollector ctx else []) ++ renderDockerStats ctx)

/-! ### Hosts of a plan -/

variable {inv : Inventory} {plan : Plan} {h : Host}

/-- Where the hosts of a plan come from. -/
structure Placed (inv : Inventory) (plan : Plan) : Prop extends Planned inv plan where
  central : plan.centralHosts = inv.hostsWith .central
  central_ne : plan.centralHosts ≠ []
  haproxyEnabled : resolveHaproxy inv (inv.hostsWith .central) = .ok plan.haproxyEnabled
  haproxy : plan.haproxyHosts = if plan.haproxyEnabled then inv.hostsWith .haproxy else []
  superset : plan.supersetHost = (inv.hostsWith .superset).head?

theorem placed_of_ok (h : planCluster inv = .ok plan) : Placed inv plan := by
  have hplanned := planned_of_ok h
  rw [planCluster] at h
  obtain ⟨pgHa, -, h⟩ := StateExcept.bind_eq_ok.1 h
  obtain ⟨etcdHosts, -, h⟩ := StateExcept.bind_eq_ok.1 h
  obtain ⟨redisSentinel, -, h⟩ := StateExcept.bind_eq_ok.1 h
  obtain ⟨redisNodes, -, h⟩ := StateExcept.bind_eq_ok.1 h
  obtain ⟨_, -, h⟩ := StateExcept.bind_eq_ok.1 h
  obtain ⟨keeperMode, -, h⟩ := StateExcept.bind_eq_ok.1 h
  obtain ⟨haproxy, hhaproxy, h⟩ := StateExcept.bind_eq_ok.1 h
  obtain ⟨_, hvalid, h⟩ := StateExcept.bind_eq_ok.1 h
  cases h
  refine { hplanned with
    central := rfl, central_ne := fun hempty => ?_, haproxyEnabled := hhaproxy,
    haproxy := rfl, superset := rfl }
  rw [validatePlan] at hvalid
  split at hvalid
  · cases hvalid
  · rw [if_pos (List.isEmpty_iff.2 hempty)] at hvalid
    cases hvalid

theorem mem_hostsWith {role : Role} (hmem : h ∈ inv.hosts) :
    h ∈ inv.hostsWith role ↔ h.hasRole role = true := by
  rw [Inventory.hostsWith, hostsWith, mem_filter, and_iff_right hmem]

theorem find?_name {α : Type} {l : List α} {f : α → Host} (hl : ∀ n ∈ l, f n ∈ inv.hosts)
    (hmem : h ∈ inv.hosts) :
    (∃ n, l.find? (fun n => (f n).name = h.name) = some n ∧ n ∈ l ∧ f n = h) ∨
      (l.find? (fun n => (f n).name = h.name) = none ∧ h ∉ l.map f) := by
  cases hfind : l.find? fun n => (f n).name = h.name with
  | some n =>
    have hn := mem_of_find?_eq_some hfind
    have hname : (f n).name = h.name := by simpa using find?_some hfind
    exact .inl ⟨n, rfl, hn, eq_of_name_eq (hl n hn) hmem hname⟩
  | none =>
    refine .inr ⟨rfl, fun hin => ?_⟩
    obtain ⟨n, hn, rfl⟩ := List.mem_map.1 hin
    simpa using List.find?_eq_none.1 hfind n hn

theorem mapM_eq_some_self {α : Type} {g : α → Option α} {l : List α} (h : ∀ a ∈ l, g a = some a) :
    l.mapM g = some l := by
  induction l with
  | nil => rfl
  | cons a l ih =>
    rw [mapM_cons, h a mem_cons_self, ih fun b hb => h b (mem_cons_of_mem a hb)]
    rfl

theorem mapM_getLast?_filter {α β : Type} [DecidableEq β] {f : α → β} {l : List α}
    (hnodup : (l.map f).Nodup) :
    (l.map f).mapM (fun b => (l.filter fun a => f a = b).getLast?) = some l := by
  rw [mapM_map]
  refine mapM_eq_some_self fun a ha => ?_
  have hmem : a ∈ l.filter fun a' => f a' = f a := List.mem_filter.2 ⟨ha, by simp⟩
  have hall : ∀ b ∈ l.filter fun a' => f a' = f a, b = a := by
    intro b hb
    have hfb : f b = f a := by simpa using (List.mem_filter.1 hb).2
    exact inj_on_of_nodup_map hnodup (List.mem_filter.1 hb).1 ha hfb
  cases hlast : (l.filter fun a' => f a' = f a).getLast? with
  | none =>
    rw [List.getLast?_eq_none_iff.1 hlast] at hmem
    cases hmem
  | some b => rw [Function.comp_apply, hlast, hall b (mem_of_getLast? hlast)]

/-! ### The hosts of each service -/

theorem postgres_sublist (hplan : Placed inv plan) :
    (plan.hostsOf inv .postgres).Sublist (inv.hostsWith .postgres) := by
  rw [Plan.hostsOf, hplan.postgres]
  cases inv.hostsWith .postgres with
  | nil => exact .slnil
  | cons first rest =>
    rw [planPostgres]
    split
    · rw [map_cons, map_map]
      simp [Function.comp_def]
    · exact (nil_sublist rest).cons_cons first

theorem postgres_eq (hplan : Placed inv plan) (hha : plan.pgHa = false) {primary : Host}
    (hprimary : pgPrimaryHost plan = some primary) : plan.hostsOf inv .postgres = [primary] := by
  rw [pgPrimaryHost] at hprimary
  rw [Plan.hostsOf]
  rw [hplan.postgres, hha] at hprimary ⊢
  cases hhosts : inv.hostsWith .postgres with
  | nil =>
    rw [hhosts] at hprimary
    cases hprimary
  | cons first rest =>
    rw [hhosts] at hprimary
    cases hprimary
    rfl

theorem redis_hosts (hplan : Placed inv plan) :
    (plan.hostsOf inv .redis).Nodup ∧ ∀ h ∈ plan.hostsOf inv .redis, h ∈ inv.hosts := by
  have hredis := hplan.redis
  have hsub : ∀ h ∈ redisHosts inv, h ∈ inv.hosts := fun h => mem_hosts_of_mem_redisHosts
  have hnodup : (redisHosts inv).Nodup := by
    rw [redisHosts]
    split <;> exact nodup_hostsWith inv _
  rw [Plan.hostsOf]
  cases hsentinel : plan.redisSentinel with
  | true =>
    rw [hsentinel] at hredis
    obtain ⟨primary, replicas, hhosts, hnodes⟩ := planRedis_sentinel hredis
    have heq : plan.redis.map RedisNode.host = redisHosts inv ++
        (inv.hostsWith .central).filter (· ∉ redisHosts inv) := by
      rw [hnodes, hhosts]
      simp [Function.comp_def]
    rw [heq]
    refine ⟨List.nodup_append.2 ⟨hnodup, (nodup_hostsWith inv _).filter _, ?_⟩, fun h hmem => ?_⟩
    · rintro h hin h' hin' rfl
      simpa [hin] using (List.mem_filter.1 hin').2
    · rcases List.mem_append.1 hmem with hmem | hmem
      · exact hsub h hmem
      · exact (hostsWith_sublist _ _).subset (List.mem_filter.1 hmem).1
  | false =>
    rw [hsentinel, planRedis] at hredis
    dsimp only at hredis
    split at hredis
    · cases hredis
    next primary replicas hsplit =>
      have hhosts : redisHosts inv = primary :: replicas := hsplit
      rw [← Except.ok.inj hredis]
      refine ⟨nodup_singleton primary, fun h hmem => hsub h ?_⟩
      rw [List.mem_singleton.1 hmem, hhosts]
      exact mem_cons_self

theorem sentinels_eq (hplan : Placed inv plan) (hsentinel : plan.redisSentinel = true) :
    plan.hostsOf inv .sentinel = plan.hostsOf inv .redis := by
  have hredis := hplan.redis
  rw [hsentinel] at hredis
  obtain ⟨primary, replicas, -, hnodes⟩ := planRedis_sentinel hredis
  rw [Plan.hostsOf, Plan.hostsOf, Plan.sentinels, hnodes]
  simp [filter_map, Function.comp_def]

theorem mem_etcdHosts (hplan : Placed inv plan) (hmem : h ∈ inv.hosts) :
    h ∈ plan.hostsOf inv .etcd ↔ (h.hasRole .etcd && plan.pgHa) = true := by
  have hetcd := hplan.etcd
  rw [Plan.hostsOf]
  cases hha : plan.pgHa with
  | true =>
    rw [hha, planEtcd, if_pos rfl] at hetcd
    dsimp only at hetcd
    split at hetcd
    · rw [← Except.ok.inj hetcd, mem_hostsWith hmem, Bool.and_true]
    · cases hetcd
  | false =>
    rw [hha, planEtcd, if_neg (by simp)] at hetcd
    rw [← Except.ok.inj hetcd, Bool.and_false]
    simp

theorem mem_clickhouseHosts (hplan : Placed inv plan) (hmem : h ∈ inv.hosts) :
    h ∈ plan.hostsOf inv .clickhouse ↔ h.hasRole .clickhouse = true := by
  rw [Plan.hostsOf, hosts_planned hplan.toPlanned, mem_hostsWith hmem]

theorem mem_keeperHosts (hplan : Placed inv plan) (hmem : h ∈ inv.hosts) :
    (plan.keeperMode = .dedicated ∧ h ∈ plan.hostsOf inv .keeper) ↔
      (h.hasRole .clickhouseKeeper && decide (plan.keeperMode = .dedicated)) = true := by
  rw [Plan.hostsOf, keepers_planned hplan.toPlanned, Bool.and_eq_true, decide_eq_true_eq, and_comm]
  refine and_congr_left fun hmode => ?_
  rw [hmode, keeperHosts, mem_hostsWith hmem]

theorem mem_centralHosts (hplan : Placed inv plan) (hmem : h ∈ inv.hosts) :
    h ∈ plan.hostsOf inv .central ↔ h.hasRole .central = true := by
  rw [Plan.hostsOf, hplan.central, mem_hostsWith hmem]

theorem mem_haproxyHosts (hplan : Placed inv plan) (hmem : h ∈ inv.hosts) :
    h ∈ plan.hostsOf inv .haproxy ↔ (h.hasRole .haproxy && plan.haproxyEnabled) = true := by
  rw [Plan.hostsOf, hplan.haproxy]
  cases plan.haproxyEnabled with
  | true => rw [if_pos rfl, mem_hostsWith hmem, Bool.and_true]
  | false => simp

theorem mem_supersetHost (hplan : Placed inv plan) (hmem : h ∈ inv.hosts) :
    h ∈ plan.hostsOf inv .superset ↔ h.hasRole .superset = true := by
  have hone : (inv.hostsWith .superset).length ≤ 1 := by
    have hvalid := inv.valid
    rw [nonEmptyHosts] at hvalid
    by_contra hmany
    split at hvalid
    · cases hvalid
    · split at hvalid
      · cases hvalid
      · split at hvalid
        · cases hvalid
        · split at hvalid
          · cases hvalid
          next hfew => exact hmany (Nat.le_of_not_lt hfew)
  rw [Plan.hostsOf, hplan.superset, ← mem_hostsWith hmem]
  cases hhosts : inv.hostsWith .superset with
  | nil => rfl
  | cons first rest =>
    rw [hhosts] at hone
    cases rest with
    | nil => rfl
    | cons second rest => simp at hone

theorem hostsOf_subset (hplan : Placed inv plan) (service : Service) :
    ∀ h ∈ plan.hostsOf inv service, h ∈ inv.hosts := by
  intro h hmem
  cases service with
  | postgres => exact (hostsWith_sublist _ _).subset ((postgres_sublist hplan).subset hmem)
  | etcd =>
    have hetcd := hplan.etcd
    rw [planEtcd] at hetcd
    split at hetcd
    · dsimp only at hetcd
      split at hetcd
      · rw [Plan.hostsOf, ← Except.ok.inj hetcd] at hmem
        exact (hostsWith_sublist _ _).subset hmem
      · cases hetcd
    · rw [Plan.hostsOf, ← Except.ok.inj hetcd] at hmem
      cases hmem
  | redis => exact (redis_hosts hplan).2 h hmem
  | sentinel =>
    have hsub : plan.sentinels.Sublist (plan.redis.map RedisNode.host) := List.filter_sublist.map _
    exact (redis_hosts hplan).2 h (hsub.subset hmem)
  | clickhouse =>
    rw [Plan.hostsOf, hosts_planned hplan.toPlanned] at hmem
    exact (hostsWith_sublist _ _).subset hmem
  | keeper =>
    rw [Plan.hostsOf, keepers_planned hplan.toPlanned] at hmem
    exact (keeperHosts_sublist _).subset hmem
  | central =>
    rw [Plan.hostsOf, hplan.central] at hmem
    exact (hostsWith_sublist _ _).subset hmem
  | haproxy =>
    rw [Plan.hostsOf, hplan.haproxy] at hmem
    split at hmem
    · exact (hostsWith_sublist _ _).subset hmem
    · cases hmem
  | superset =>
    rw [Plan.hostsOf, hplan.superset, Option.mem_toList] at hmem
    exact (hostsWith_sublist _ _).subset (mem_of_head? hmem)
  | dockerStats => exact hmem

theorem haproxy_of_hasVip (hplan : Placed inv plan) (hvip : inv.hasVip = true) :
    plan.haproxyHosts ≠ [] := by
  have henabled := hplan.haproxyEnabled
  rw [resolveHaproxy, if_pos hvip] at henabled
  split at henabled
  · cases henabled
  · split at henabled
    · cases henabled
    · rw [hplan.haproxy, ← Except.ok.inj henabled, if_pos rfl]
      simpa using ‹¬(inv.hostsWith .haproxy).isEmpty = true›

/-! ### Membership -/

variable {e : Endpoint}

theorem mem_allOf {service : Service} : e ∈ allOf inv plan service ↔
    e.service = service ∧ ∃ h' ∈ plan.hostsOf inv service, e.address = .host h' := by
  rw [allOf, mem_map]
  constructor
  · rintro ⟨h', hmem, rfl⟩
    exact ⟨rfl, h', hmem, rfl⟩
  · rintro ⟨rfl, h', hmem, haddress⟩
    exact ⟨h', hmem, by rw [← haddress]⟩

theorem mem_vipOf : e ∈ vipOf inv ↔ inv.hasVip = true ∧ e = ⟨.haproxy, .vip⟩ := by
  rw [vipOf]
  cases inv.hasVip <;> simp

theorem mem_postgres (hplan : Placed inv plan) (hmem : h ∈ inv.hosts) :
    e ∈ (if h.hasRole .postgres then renderPostgres inv plan h else []) ↔
      h ∈ plan.hostsOf inv .postgres ∧ plan.pgHa = true ∧
        (e = ⟨.postgres, .localhost⟩ ∨ e ∈ allOf inv plan .etcd ∨ e ∈ allOf inv plan .postgres ∨
          e ∈ allOf inv plan .central) := by
  have hrole : h ∈ plan.hostsOf inv .postgres → h.hasRole .postgres = true := fun hin =>
    (mem_hostsWith hmem).1 ((postgres_sublist hplan).subset hin)
  have hnodes : ∀ n ∈ plan.postgres, n.host ∈ inv.hosts := fun n hn =>
    hostsOf_subset hplan .postgres _ (mem_map_of_mem hn)
  rcases find?_name hnodes hmem with ⟨n, hfind, hn, hhost⟩ | ⟨hfind, hnot⟩
  · have hin : h ∈ plan.hostsOf inv .postgres := hhost ▸ mem_map_of_mem hn
    have hself : (⟨.postgres, .host h⟩ : Endpoint) ∈ allOf inv plan .postgres :=
      mem_allOf.2 ⟨rfl, h, hin, rfl⟩
    rw [if_pos (hrole hin), renderPostgres, hfind, and_iff_right hin]
    dsimp only
    cases plan.pgHa with
    | false => simp
    | true =>
      simp only [if_true, mem_append, mem_cons, not_mem_nil, or_false, true_and]
      constructor
      · rintro ((((rfl | h) | h) | h) | h)
        · exact .inr (.inr (.inl hself))
        · exact .inl h
        · exact .inr (.inl h)
        · exact .inr (.inr (.inl h))
        · exact .inr (.inr (.inr h))
      · rintro (h | h | h | h)
        · exact .inl (.inl (.inl (.inr h)))
        · exact .inl (.inl (.inr h))
        · exact .inl (.inr h)
        · exact .inr h
  · refine iff_of_false ?_ (fun hall => hnot hall.1)
    rw [renderPostgres, hfind]
    simp

theorem mem_etcd (hplan : Placed inv plan) (hmem : h ∈ inv.hosts) :
    e ∈ (if h.hasRole .etcd && plan.pgHa then renderEtcd inv plan h else []) ↔
      h ∈ plan.hostsOf inv .etcd ∧ e ∈ allOf inv plan .etcd := by
  by_cases hin : h ∈ plan.hostsOf inv .etcd
  · rw [if_pos ((mem_etcdHosts hplan hmem).1 hin), renderEtcd, mem_cons, and_iff_right hin,
      or_iff_right_iff_imp]
    rintro rfl
    exact mem_allOf.2 ⟨rfl, h, hin, rfl⟩
  · rw [if_neg fun hrole => hin ((mem_etcdHosts hplan hmem).2 hrole)]
    simp [hin]

theorem mem_redis (hplan : Placed inv plan) (hmem : h ∈ inv.hosts) {ctx : Context} :
    e ∈ renderRedis plan ctx h ↔ ∃ n ∈ plan.redis, n.host = h ∧
      ((e = ⟨.redis, .host ctx.redisHost⟩ ∧ (n.role = .replica ∨ plan.redisSentinel = true)) ∨
        (e = ⟨.sentinel, .host h⟩ ∧ plan.redisSentinel = true)) := by
  have hnodes : ∀ n ∈ plan.redis, n.host ∈ inv.hosts := fun n hn =>
    hostsOf_subset hplan .redis _ (mem_map_of_mem hn)
  rcases find?_name hnodes hmem with ⟨n, hfind, hn, hhost⟩ | ⟨hfind, hnot⟩
  · have hone : ∀ n' ∈ plan.redis, n'.host = h → n' = n := fun n' hn' hhost' =>
      inj_on_of_nodup_map (redis_hosts hplan).1 hn' hn (hhost'.trans hhost.symm)
    have hiff : e ∈ renderRedis plan ctx h ↔
        (e = ⟨.redis, .host ctx.redisHost⟩ ∧ (n.role = .replica ∨ plan.redisSentinel = true)) ∨
          (e = ⟨.sentinel, .host h⟩ ∧ plan.redisSentinel = true) := by
      rw [renderRedis, hfind]
      by_cases hrole : n.role = .replica <;> cases plan.redisSentinel <;> simp [hrole]
      · tauto
      · tauto
    rw [hiff]
    constructor
    · exact fun he => ⟨n, hn, hhost, he⟩
    · rintro ⟨n', hn', hhost', he⟩
      rwa [hone n' hn' hhost'] at he
  · rw [renderRedis, hfind]
    refine iff_of_false (by simp) ?_
    rintro ⟨n, hn, hhost, -⟩
    exact hnot (hhost ▸ mem_map_of_mem hn)

theorem mem_keepers_of_embedded (hplan : Placed inv plan) {n : ClickHouseNode}
    (hn : n ∈ plan.clickhouse) (hembedded : n.embeddedKeeper = true) :
    n.host ∈ plan.clickhouseKeepers := by
  have hsome : n.keeperId.isSome = true := by
    have hnodes := congrArg Prod.fst hplan.clickhouse
    change plan.clickhouse = _ at hnodes
    rw [hnodes, planClickhouse] at hn
    obtain ⟨e, -, rfl⟩ := List.mem_map.1 hn
    exact (Bool.and_eq_true _ _ ▸ hembedded).2
  obtain ⟨id, hid⟩ := Option.isSome_iff_exists.1 hsome
  exact mem_of_getElem? ((keeperId_eq_some hplan.toPlanned hn).1 hid).2

theorem renderClickhouse_eq (hplan : Placed inv plan) (hmem : h ∈ inv.hosts)
    (hin : h ∈ plan.hostsOf inv .clickhouse) : ∃ es, renderClickhouse inv plan h = some es ∧
      ∀ e, e ∈ es ↔ e ∈ allOf inv plan .clickhouse ∨ e ∈ allOf inv plan .keeper := by
  have hnodes : ∀ n ∈ plan.clickhouse, n.host ∈ inv.hosts := fun n hn =>
    hostsOf_subset hplan .clickhouse _ (mem_map_of_mem hn)
  rcases find?_name hnodes hmem with ⟨n, hfind, -, -⟩ | ⟨-, hnot⟩
  · have hpositions : plan.clickhouse.map (fun n => (n.shard, n.replica)) =
        positions inv.sizing.clickhouse.shards inv.sizing.clickhouse.replicas :=
      positions_planned hplan.toPlanned
    have hmap : (positions inv.sizing.clickhouse.shards inv.sizing.clickhouse.replicas).mapM
        (fun p => (plan.clickhouse.filter fun n => (n.shard, n.replica) = p).getLast?) =
          some plan.clickhouse := by
      rw [← hpositions]
      refine mapM_getLast?_filter ?_
      rw [hpositions]
      exact nodup_positions _ _
    refine ⟨_, by rw [renderClickhouse, hfind, Option.bind_eq_bind, Option.bind_some, hmap]; rfl,
      fun e => ?_⟩
    have hraft : ∀ m ∈ if n.embeddedKeeper then plan.clickhouse.filter (·.embeddedKeeper) else [],
        (⟨.keeper, .host m.host⟩ : Endpoint) ∈ allOf inv plan .keeper := by
      intro m hm
      refine mem_allOf.2 ⟨rfl, m.host, ?_, rfl⟩
      split at hm
      · obtain ⟨hin, hembedded⟩ := List.mem_filter.1 hm
        exact mem_keepers_of_embedded hplan hin hembedded
      · cases hm
    have hall : ∀ e, e ∈ plan.clickhouse.map (fun n => (⟨.clickhouse, .host n.host⟩ : Endpoint)) ↔
        e ∈ allOf inv plan .clickhouse := by
      intro e
      rw [allOf, Plan.hostsOf, map_map]
      rfl
    have hself : (⟨.clickhouse, .host h⟩ : Endpoint) ∈ allOf inv plan .clickhouse :=
      mem_allOf.2 ⟨rfl, h, hin, rfl⟩
    rw [mem_append, mem_append, mem_cons, hall, mem_map]
    constructor
    · rintro (((rfl | he) | he) | ⟨m, hm, rfl⟩)
      · exact .inl hself
      · exact .inl he
      · exact .inr he
      · exact .inr (hraft m hm)
    · rintro (he | he)
      · exact .inl (.inl (.inr he))
      · exact .inl (.inr he)
  · exact absurd hin hnot

/-- What the context of a host says. -/
structure ContextOf (inv : Inventory) (plan : Plan) (ctx : Context) : Prop where
  primary : ∃ primary, pgPrimaryHost plan = some primary ∧
    ctx.pgHostForCentral = pgHostForCentral plan primary
  redis : redisHostForCentral plan = some ctx.redisHost
  url : centralApiUrl inv plan = some ctx.centralApiUrl

theorem baseCtx_eq (hplan : Placed inv plan) : ∃ ctx, baseCtx inv plan = some ctx ∧
    ContextOf inv plan ctx := by
  have hprimary : ∃ primary, pgPrimaryHost plan = some primary := by
    rw [pgPrimaryHost]
    cases hnodes : plan.postgres with
    | nil => exact absurd hnodes hplan.postgres_ne
    | cons first rest => exact ⟨first.host, rfl⟩
  have hredis : ∃ redisHost, redisHostForCentral plan = some redisHost := by
    rw [redisHostForCentral]
    cases hnodes : plan.redis with
    | nil =>
      have hone := oneRedis_planRedis hplan.redis
      rw [hnodes] at hone
      cases hone
    | cons first rest => exact ⟨first.host, rfl⟩
  have hurl : ∃ url, centralApiUrl inv plan = some url := by
    rw [centralApiUrl]
    split
    · exact ⟨_, rfl⟩
    · cases hhosts : plan.centralHosts with
      | nil => exact absurd hhosts hplan.central_ne
      | cons first rest => exact ⟨_, rfl⟩
  obtain ⟨primary, hprimary⟩ := hprimary
  obtain ⟨redisHost, hredis⟩ := hredis
  obtain ⟨url, hurl⟩ := hurl
  refine ⟨⟨pgHostForCentral plan primary, redisHost, url⟩, ?_, ⟨primary, hprimary, rfl⟩, hredis, hurl⟩
  rw [baseCtx, hprimary, hredis, hurl]
  rfl

/-- **The endpoints of a host**, service by service. -/
inductive Configures (inv : Inventory) (plan : Plan) (ctx : Context) (h : Host) : Endpoint → Prop
  | patroni {e : Endpoint} : h ∈ plan.hostsOf inv .postgres → plan.pgHa = true →
      e = ⟨.postgres, .localhost⟩ ∨ e ∈ allOf inv plan .etcd ∨ e ∈ allOf inv plan .postgres ∨
        e ∈ allOf inv plan .central → Configures inv plan ctx h e
  | etcd {e : Endpoint} : h ∈ plan.hostsOf inv .etcd → e ∈ allOf inv plan .etcd →
      Configures inv plan ctx h e
  | redis (n : RedisNode) : n ∈ plan.redis → n.host = h →
      n.role = .replica ∨ plan.redisSentinel = true →
      Configures inv plan ctx h ⟨.redis, .host ctx.redisHost⟩
  | sentinel : h ∈ plan.hostsOf inv .redis → plan.redisSentinel = true →
      Configures inv plan ctx h ⟨.sentinel, .host h⟩
  | clickhouse {e : Endpoint} : h ∈ plan.hostsOf inv .clickhouse →
      e ∈ allOf inv plan .clickhouse ∨ e ∈ allOf inv plan .keeper → Configures inv plan ctx h e
  | keeper {e : Endpoint} : plan.keeperMode = .dedicated → h ∈ plan.hostsOf inv .keeper →
      e ∈ allOf inv plan .keeper → Configures inv plan ctx h e
  | central {e : Endpoint} : h ∈ plan.hostsOf inv .central → e ∈ renderCentral inv plan ctx h →
      Configures inv plan ctx h e
  | haproxy {e : Endpoint} : h ∈ plan.hostsOf inv .haproxy →
      e ∈ allOf inv plan .central ∨ e ∈ allOf inv plan .superset ∨
        (plan.pgHa = true ∧ e ∈ allOf inv plan .postgres) ∨ e ∈ vipOf inv →
      Configures inv plan ctx h e
  | superset {e : Endpoint} : h ∈ plan.hostsOf inv .superset → e ∈ renderSuperset plan ctx h →
      Configures inv plan ctx h e
  | url : Configures inv plan ctx h ctx.centralApiUrl
  | dockerStats : Configures inv plan ctx h ⟨.dockerStats, .loopback⟩

/-- Every host of a plan has a configuration, with its endpoints. -/
theorem renderHost_eq (hplan : Placed inv plan) (hmem : h ∈ inv.hosts) :
    ∃ ctx es, ContextOf inv plan ctx ∧ renderHost inv plan h = some es ∧
      ∀ e, e ∈ es ↔ Configures inv plan ctx h e := by
  obtain ⟨ctx, hctx, hof⟩ := baseCtx_eq hplan
  have hclickhouse : ∃ es,
      renderIf (h.hasRole .clickhouse) (renderClickhouse inv plan h) = some es ∧ ∀ e, e ∈ es ↔
        h ∈ plan.hostsOf inv .clickhouse ∧
          (e ∈ allOf inv plan .clickhouse ∨ e ∈ allOf inv plan .keeper) := by
    rw [renderIf]
    by_cases hin : h ∈ plan.hostsOf inv .clickhouse
    · obtain ⟨es, hes, hall⟩ := renderClickhouse_eq hplan hmem hin
      rw [if_pos ((mem_clickhouseHosts hplan hmem).1 hin)]
      exact ⟨es, hes, fun e => by rw [hall, and_iff_right hin]⟩
    · rw [if_neg fun hrole => hin ((mem_clickhouseHosts hplan hmem).2 hrole)]
      exact ⟨[], rfl, fun e => by simp [hin]⟩
  have hkeeper : ∃ es, renderIf (h.hasRole .clickhouseKeeper && plan.keeperMode = .dedicated)
      (renderClickhouseKeeper inv plan h) = some es ∧ ∀ e, e ∈ es ↔
        (plan.keeperMode = .dedicated ∧ h ∈ plan.hostsOf inv .keeper) ∧
          e ∈ allOf inv plan .keeper := by
    rw [renderIf]
    by_cases hin : plan.keeperMode = .dedicated ∧ h ∈ plan.hostsOf inv .keeper
    · rw [if_pos ((mem_keeperHosts hplan hmem).1 hin), renderClickhouseKeeper,
        if_pos (show h.name ∈ plan.clickhouseKeepers.map Host.name from
          mem_map_of_mem hin.2)]
      exact ⟨_, rfl, fun e => by rw [and_iff_right hin]⟩
    · rw [if_neg fun hrole => hin ((mem_keeperHosts hplan hmem).2 hrole)]
      exact ⟨[], rfl, fun e => by simp [hin]⟩
  have hhaproxy : ∃ es, renderIf (h.hasRole .haproxy && plan.haproxyEnabled)
      (renderHaproxy inv plan h) = some es ∧ ∀ e, e ∈ es ↔
        h ∈ plan.hostsOf inv .haproxy ∧ (e ∈ allOf inv plan .central ∨
          e ∈ allOf inv plan .superset ∨ (plan.pgHa = true ∧ e ∈ allOf inv plan .postgres) ∨
          e ∈ vipOf inv) := by
    rw [renderIf]
    by_cases hin : h ∈ plan.hostsOf inv .haproxy
    · rw [if_pos ((mem_haproxyHosts hplan hmem).1 hin), renderHaproxy,
        if_pos (show h.name ∈ plan.haproxyHosts.map Host.name from mem_map_of_mem hin)]
      refine ⟨_, rfl, fun e => ?_⟩
      rw [and_iff_right hin]
      cases plan.pgHa <;> simp
    · rw [if_neg fun hrole => hin ((mem_haproxyHosts hplan hmem).2 hrole)]
      exact ⟨[], rfl, fun e => by simp [hin]⟩
  obtain ⟨clickhouse, hclickhouse, hmemClickhouse⟩ := hclickhouse
  obtain ⟨keeper, hkeeper, hmemKeeper⟩ := hkeeper
  obtain ⟨haproxy, hhaproxy, hmemHaproxy⟩ := hhaproxy
  refine ⟨ctx, _, hof, by simp only [renderHost, hctx, hclickhouse, hkeeper, hhaproxy,
    Option.bind_eq_bind, Option.bind_some]; rfl, fun e => ?_⟩
  have hcentral : e ∈ (if h.hasRole .central then renderCentral inv plan ctx h else []) ↔
      h ∈ plan.hostsOf inv .central ∧ e ∈ renderCentral inv plan ctx h := by
    rw [mem_centralHosts hplan hmem]
    cases h.hasRole .central <;> simp
  have hsuperset : e ∈ (if h.hasRole .superset then renderSuperset plan ctx h else []) ↔
      h ∈ plan.hostsOf inv .superset ∧ e ∈ renderSuperset plan ctx h := by
    rw [mem_supersetHost hplan hmem]
    cases h.hasRole .superset <;> simp
  have hcollector : e ∈ (if h.hasRole .collector then renderCollector ctx else []) →
      e = ctx.centralApiUrl := by
    cases h.hasRole .collector <;> simp [renderCollector]
  simp only [mem_append, mem_postgres hplan hmem, mem_etcd hplan hmem, mem_redis hplan hmem,
    hmemClickhouse, hmemKeeper, hmemHaproxy, hcentral, hsuperset, or_assoc]
  constructor
  · rintro (⟨hin, hha, he⟩ | ⟨hin, he⟩ | ⟨n, hn, hhost, ⟨rfl, hrole⟩ | ⟨rfl, hsentinel⟩⟩ |
      ⟨hin, he⟩ | ⟨⟨hmode, hin⟩, he⟩ | ⟨hin, he⟩ | ⟨hin, he⟩ | ⟨hin, he⟩ | he | he)
    · exact .patroni hin hha he
    · exact .etcd hin he
    · exact .redis n hn hhost hrole
    · exact .sentinel (hhost ▸ mem_map_of_mem hn) hsentinel
    · exact .clickhouse hin he
    · exact .keeper hmode hin he
    · exact .central hin he
    · exact .haproxy hin he
    · exact .superset hin he
    · exact hcollector he ▸ .url
    · rw [renderDockerStats, mem_cons, mem_singleton] at he
      rcases he with rfl | rfl
      · exact .url
      · exact .dockerStats
  · intro hconf
    have hlast : e = ctx.centralApiUrl ∨ e = ⟨.dockerStats, .loopback⟩ →
        e ∈ renderDockerStats ctx := by
      intro he
      rwa [renderDockerStats, mem_cons, mem_singleton]
    cases hconf with
    | patroni hin hha he => exact .inl ⟨hin, hha, he⟩
    | etcd hin he => exact .inr (.inl ⟨hin, he⟩)
    | redis n hn hhost hrole => exact .inr (.inr (.inl ⟨n, hn, hhost, .inl ⟨rfl, hrole⟩⟩))
    | sentinel hin hsentinel =>
      obtain ⟨n, hn, hhost⟩ := List.mem_map.1 hin
      exact .inr (.inr (.inl ⟨n, hn, hhost, .inr ⟨rfl, hsentinel⟩⟩))
    | clickhouse hin he => exact .inr (.inr (.inr (.inl ⟨hin, he⟩)))
    | keeper hmode hin he => exact .inr (.inr (.inr (.inr (.inl ⟨⟨hmode, hin⟩, he⟩))))
    | central hin he => exact .inr (.inr (.inr (.inr (.inr (.inl ⟨hin, he⟩)))))
    | haproxy hin he => exact .inr (.inr (.inr (.inr (.inr (.inr (.inl ⟨hin, he⟩))))))
    | superset hin he => exact .inr (.inr (.inr (.inr (.inr (.inr (.inr (.inl ⟨hin, he⟩)))))))
    | url => exact .inr (.inr (.inr (.inr (.inr (.inr (.inr (.inr (.inr (hlast (.inl rfl))))))))))
    | dockerStats =>
      exact .inr (.inr (.inr (.inr (.inr (.inr (.inr (.inr (.inr (hlast (.inr rfl))))))))))

end MonCTL.Installer
