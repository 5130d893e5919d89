import MonCTL.Installer.Endpoints

/-!
# Where Hosts Are Pointed

An endpoint leads to its service if its address is one of a host that runs the service, or a
loopback address of a host that runs the service itself or forwards to it. With Patroni and HAProxy
the engine points every central host at its own loopback address, whether or not it has the proxy.

Which addresses are loopback addresses is a parameter, as an inventory may give any address to a
host.
-/

namespace MonCTL.Installer

open List

/-! ### Where services are -/

/-- The services that an HAProxy host forwards to. -/
def Plan.Forwards (plan : Plan) : Service → Prop
  | .central => True
  | .superset => plan.supersetHost.isSome = true
  | .postgres => plan.pgHa = true
  | _ => False

/-- A host runs a service, or forwards to it. -/
def Serves (inv : Inventory) (plan : Plan) (h : Host) (service : Service) : Prop :=
  h ∈ plan.hostsOf inv service ∨ (h ∈ plan.haproxyHosts ∧ plan.Forwards service)

/-- A host answers at an address: it is its own, or the virtual one and the host runs HAProxy. -/
def Answers (inv : Inventory) (plan : Plan) (h : Host) (address : String) : Prop :=
  address = h.address ∨ (inv.vip = some address ∧ h ∈ plan.haproxyHosts)

/-- **An endpoint leads to its service**: a loopback address to the host itself, and any other one to
a host that runs the service. -/
def Leads (loopback : String → Prop) (inv : Inventory) (plan : Plan) (h : Host) (e : Endpoint) :
    Prop :=
  (loopback (e.address.text inv) → Serves inv plan h e.service) ∧
    (¬loopback (e.address.text inv) → ∃ h' ∈ inv.hosts, h' ∈ plan.hostsOf inv e.service ∧
      Answers inv plan h' (e.address.text inv))

/-- **Who is pointed at whom**: a host is pointed at another one for a service. -/
def Refers (inv : Inventory) (plan : Plan) (h : Host) (service : Service) (h' : Host) : Prop :=
  let runs (service : Service) := h ∈ plan.hostsOf inv service
  match service with
  | .postgres => h' ∈ plan.hostsOf inv .postgres ∧
      (runs .central ∨ (plan.pgHa = true ∧ (runs .postgres ∨ runs .haproxy)))
  | .etcd => h' ∈ plan.hostsOf inv .etcd ∧ (runs .postgres ∨ runs .etcd ∨ runs .central)
  | .redis => redisHostForCentral plan = some h' ∧
      (runs .central ∨ ∃ n ∈ plan.redis, n.host = h ∧
        (n.role = .replica ∨ plan.redisSentinel = true))
  | .sentinel => plan.redisSentinel = true ∧
      ((h' ∈ plan.hostsOf inv .sentinel ∧ runs .central) ∨ (h' = h ∧ runs .redis))
  | .clickhouse => (h' ∈ plan.hostsOf inv .clickhouse ∧ (runs .clickhouse ∨ runs .central)) ∨
      ((plan.hostsOf inv .clickhouse).head? = some h' ∧ runs .superset)
  | .keeper => h' ∈ plan.hostsOf inv .keeper ∧
      (runs .clickhouse ∨ (plan.keeperMode = .dedicated ∧ runs .keeper))
  | .central => h' ∈ plan.hostsOf inv .central ∧
      ((plan.pgHa = true ∧ runs .postgres) ∨ runs .haproxy ∨ h' = h ∨
        (plan.centralHosts.head? = some h' ∧ (inv.hasVip = false ∨ runs .superset)))
  | .haproxy => False
  | .superset => h' ∈ plan.hostsOf inv .superset ∧ (runs .haproxy ∨ h' = h)
  | .dockerStats => h' ∈ inv.hosts ∧ runs .central

/-- **The condition**: with Patroni and HAProxy every central host runs one of them; a host that is
pointed at a loopback address of the inventory serves what it is pointed at; and if the virtual
address is one, then every host runs HAProxy. -/
structure WellPointed (loopback : String → Prop) (inv : Inventory) (plan : Plan) : Prop where
  proxy : plan.pgHa = true → plan.haproxyEnabled = true → ∀ h ∈ plan.centralHosts,
    h ∈ plan.hostsOf inv .postgres ∨ h ∈ plan.haproxyHosts
  hosts : ∀ h ∈ inv.hosts, ∀ service h', Refers inv plan h service h' → loopback h'.address →
    Serves inv plan h service
  vip : inv.hasVip = true → loopback (inv.vip.getD "") → ∀ h ∈ inv.hosts, h ∈ plan.haproxyHosts

/-! ### Who is pointed at whom -/

variable {inv : Inventory} {plan : Plan} {h : Host} {s : Service} {h' : Host}

theorem mem_allOf_host {service : Service} :
    (⟨s, .host h'⟩ : Endpoint) ∈ allOf inv plan service ↔
      s = service ∧ h' ∈ plan.hostsOf inv service := by
  rw [mem_allOf]
  refine and_congr_right fun _ => ⟨?_, fun hin => ⟨h', hin, rfl⟩⟩
  rintro ⟨h'', hin, haddress⟩
  exact Address.host.inj haddress ▸ hin

variable {ctx : Context}

theorem centralApiUrl_cases (hof : ContextOf inv plan ctx) :
    (inv.hasVip = true ∧ ctx.centralApiUrl = ⟨.haproxy, .vip⟩) ∨
      (inv.hasVip = false ∧ ∃ first, plan.centralHosts.head? = some first ∧
        ctx.centralApiUrl = ⟨.central, .host first⟩) := by
  have hurl := hof.url
  rw [centralApiUrl] at hurl
  cases hvip : inv.hasVip with
  | true =>
    rw [hvip, if_pos rfl] at hurl
    exact .inl ⟨rfl, (Option.some.inj hurl).symm⟩
  | false =>
    rw [hvip, if_neg Bool.false_ne_true] at hurl
    obtain ⟨first, hfirst, heq⟩ := Option.map_eq_some_iff.1 hurl
    exact .inr ⟨rfl, first, hfirst, heq.symm⟩

variable {e : Endpoint}

theorem mem_renderCentral : e ∈ renderCentral inv plan ctx h ↔
    e = ⟨.postgres, ctx.pgHostForCentral⟩ ∨ e = ⟨.redis, .host ctx.redisHost⟩ ∨
      e ∈ allOf inv plan .clickhouse ∨
      (plan.redisSentinel = true ∧ e ∈ allOf inv plan .sentinel) ∨
      (plan.pgHa = true ∧ (e ∈ allOf inv plan .postgres ∨ e ∈ allOf inv plan .etcd)) ∨
      e = ⟨.central, .host h⟩ ∨ e = ⟨.central, .localhost⟩ ∨ e ∈ allOf inv plan .dockerStats ∨
      e ∈ vipOf inv ∨ (plan.supersetHost.isSome = true ∧ e = ctx.centralApiUrl) := by
  rw [renderCentral]
  cases plan.redisSentinel <;> cases plan.pgHa <;> cases plan.supersetHost.isSome <;>
    simp [or_assoc]

theorem mem_renderSuperset : e ∈ renderSuperset plan ctx h ↔
    e = ctx.centralApiUrl ∨ e = centralInternalUrl plan ∨
      (∃ n, plan.clickhouse.head? = some n ∧ e = ⟨.clickhouse, .host n.host⟩) ∨
      e = ⟨.superset, .host h⟩ ∨ e = ⟨.superset, .localhost⟩ := by
  rw [renderSuperset]
  cases plan.clickhouse.head? <;> simp

theorem refers_of_url (hof : ContextOf inv plan ctx)
    (he : ⟨s, .host h'⟩ = ctx.centralApiUrl) : Refers inv plan h s h' := by
  rcases centralApiUrl_cases hof with ⟨-, hurl⟩ | ⟨hvip, first, hfirst, hurl⟩
  · rw [hurl] at he
    cases he
  · rw [hurl] at he
    cases he
    rw [Refers]
    exact ⟨mem_of_head? hfirst, .inr (.inr (.inr ⟨hfirst, .inl hvip⟩))⟩

theorem refers_of_pgHost (hof : ContextOf inv plan ctx)
    (hin : h ∈ plan.hostsOf inv .central) (he : .host h' = ctx.pgHostForCentral) :
    Refers inv plan h .postgres h' := by
  obtain ⟨primary, hprimary, hpg⟩ := hof.primary
  rw [hpg, pgHostForCentral] at he
  split at he
  · cases he
  · cases he
    rw [Refers]
    rw [pgPrimaryHost] at hprimary
    obtain ⟨n, hn, rfl⟩ := Option.map_eq_some_iff.1 hprimary
    exact ⟨mem_map_of_mem (mem_of_head? hn), .inl hin⟩

theorem refers_of_configures (hof : ContextOf inv plan ctx)
    (hconf : Configures inv plan ctx h ⟨s, .host h'⟩) : Refers inv plan h s h' := by
  generalize heq : (⟨s, .host h'⟩ : Endpoint) = e at hconf
  cases hconf with
  | patroni hin hha he =>
    subst heq
    rcases he with he | he | he | he
    · cases he
    · obtain ⟨rfl, hin'⟩ := mem_allOf_host.1 he
      rw [Refers]
      exact ⟨hin', .inl hin⟩
    · obtain ⟨rfl, hin'⟩ := mem_allOf_host.1 he
      rw [Refers]
      exact ⟨hin', .inr ⟨hha, .inl hin⟩⟩
    · obtain ⟨rfl, hin'⟩ := mem_allOf_host.1 he
      rw [Refers]
      exact ⟨hin', .inl ⟨hha, hin⟩⟩
  | etcd hin he =>
    subst heq
    obtain ⟨rfl, hin'⟩ := mem_allOf_host.1 he
    rw [Refers]
    exact ⟨hin', .inr (.inl hin)⟩
  | redis n hn hhost hrole =>
    cases heq
    rw [Refers]
    exact ⟨hof.redis, .inr ⟨n, hn, hhost, hrole⟩⟩
  | sentinel hin hsentinel =>
    cases heq
    rw [Refers]
    exact ⟨hsentinel, .inr ⟨rfl, hin⟩⟩
  | clickhouse hin he =>
    subst heq
    rcases he with he | he
    · obtain ⟨rfl, hin'⟩ := mem_allOf_host.1 he
      rw [Refers]
      exact .inl ⟨hin', .inl hin⟩
    · obtain ⟨rfl, hin'⟩ := mem_allOf_host.1 he
      rw [Refers]
      exact ⟨hin', .inl hin⟩
  | keeper hmode hin he =>
    subst heq
    obtain ⟨rfl, hin'⟩ := mem_allOf_host.1 he
    rw [Refers]
    exact ⟨hin', .inr ⟨hmode, hin⟩⟩
  | central hin he =>
    subst heq
    rcases mem_renderCentral.1 he with he | he | he | ⟨hsentinel, he⟩ | ⟨hha, he | he⟩ | he | he |
      he | he | ⟨-, he⟩
    · obtain ⟨rfl, hpg⟩ := Endpoint.mk.inj he
      exact refers_of_pgHost hof hin hpg
    · cases he
      rw [Refers]
      exact ⟨hof.redis, .inl hin⟩
    · obtain ⟨rfl, hin'⟩ := mem_allOf_host.1 he
      rw [Refers]
      exact .inl ⟨hin', .inr hin⟩
    · obtain ⟨rfl, hin'⟩ := mem_allOf_host.1 he
      rw [Refers]
      exact ⟨hsentinel, .inl ⟨hin', hin⟩⟩
    · obtain ⟨rfl, hin'⟩ := mem_allOf_host.1 he
      rw [Refers]
      exact ⟨hin', .inl hin⟩
    · obtain ⟨rfl, hin'⟩ := mem_allOf_host.1 he
      rw [Refers]
      exact ⟨hin', .inr (.inr hin)⟩
    · cases he
      rw [Refers]
      exact ⟨hin, .inr (.inr (.inl rfl))⟩
    · cases he
    · obtain ⟨rfl, hin'⟩ := mem_allOf_host.1 he
      rw [Refers]
      exact ⟨hin', hin⟩
    · cases (mem_vipOf.1 he).2
    · exact refers_of_url hof he
  | haproxy hin he =>
    subst heq
    rcases he with he | he | ⟨hha, he⟩ | he
    · obtain ⟨rfl, hin'⟩ := mem_allOf_host.1 he
      rw [Refers]
      exact ⟨hin', .inr (.inl hin)⟩
    · obtain ⟨rfl, hin'⟩ := mem_allOf_host.1 he
      rw [Refers]
      exact ⟨hin', .inl hin⟩
    · obtain ⟨rfl, hin'⟩ := mem_allOf_host.1 he
      rw [Refers]
      exact ⟨hin', .inr ⟨hha, .inr hin⟩⟩
    · cases (mem_vipOf.1 he).2
  | superset hin he =>
    subst heq
    rcases mem_renderSuperset.1 he with he | he | ⟨n, hn, he⟩ | he | he
    · exact refers_of_url hof he
    · rw [centralInternalUrl] at he
      split at he
      · cases he
      next first rest hhosts =>
        cases he
        rw [Refers, Plan.hostsOf, hhosts]
        exact ⟨mem_cons_self, .inr (.inr (.inr ⟨rfl, .inr hin⟩))⟩
    · cases he
      rw [Refers, Plan.hostsOf]
      refine .inr ⟨?_, hin⟩
      rw [head?_map, hn]
      rfl
    · cases he
      rw [Refers]
      exact ⟨hin, .inr rfl⟩
    · cases he
  | url => exact refers_of_url hof heq
  | dockerStats => cases heq

theorem pgHa_of_mem_etcd (hplan : Placed inv plan)
    (hin : h' ∈ plan.hostsOf inv .etcd) : plan.pgHa = true :=
  (Bool.and_eq_true _ _ ▸ (mem_etcdHosts hplan (hostsOf_subset hplan .etcd h' hin)).1 hin).2

/-- **A configuration points at the hosts that it refers to**, and at no others. -/
theorem configures_host_iff (hplan : Placed inv plan)
    (hof : ContextOf inv plan ctx) :
    Configures inv plan ctx h ⟨s, .host h'⟩ ↔ Refers inv plan h s h' := by
  refine ⟨refers_of_configures hof, fun hrefers => ?_⟩
  have hpoint {service : Service} (hin : h' ∈ plan.hostsOf inv service) :
      (⟨service, .host h'⟩ : Endpoint) ∈ allOf inv plan service := mem_allOf_host.2 ⟨rfl, hin⟩
  cases s with
  | postgres =>
    obtain ⟨hin', hin | ⟨hha, hin | hin⟩⟩ := hrefers
    · refine .central hin (mem_renderCentral.2 ?_)
      cases hha : plan.pgHa with
      | true => exact .inr (.inr (.inr (.inr (.inl ⟨rfl, .inl (hpoint hin')⟩))))
      | false =>
        obtain ⟨primary, hprimary, hpg⟩ := hof.primary
        rw [postgres_eq hplan hha hprimary, mem_singleton] at hin'
        rw [hin', hpg, pgHostForCentral, hha]
        exact .inl rfl
    · exact .patroni hin hha (.inr (.inr (.inl (hpoint hin'))))
    · exact .haproxy hin (.inr (.inr (.inl ⟨hha, hpoint hin'⟩)))
  | etcd =>
    obtain ⟨hin', hin | hin | hin⟩ := hrefers
    · exact .patroni hin (pgHa_of_mem_etcd hplan hin') (.inr (.inl (hpoint hin')))
    · exact .etcd hin (hpoint hin')
    · exact .central hin (mem_renderCentral.2 (.inr (.inr (.inr (.inr (.inl
        ⟨pgHa_of_mem_etcd hplan hin', .inr (hpoint hin')⟩))))))
  | redis =>
    obtain ⟨hfirst, hin | ⟨n, hn, hhost, hrole⟩⟩ := hrefers
    · rw [hof.redis] at hfirst
      obtain rfl := Option.some.inj hfirst
      exact .central hin (mem_renderCentral.2 (.inr (.inl rfl)))
    · rw [hof.redis] at hfirst
      obtain rfl := Option.some.inj hfirst
      exact .redis n hn hhost hrole
  | sentinel =>
    obtain ⟨hsentinel, ⟨hin', hin⟩ | ⟨rfl, hin⟩⟩ := hrefers
    · exact .central hin (mem_renderCentral.2 (.inr (.inr (.inr (.inl ⟨hsentinel, hpoint hin'⟩)))))
    · exact .sentinel hin hsentinel
  | clickhouse =>
    obtain ⟨hin', hin | hin⟩ | ⟨hfirst, hin⟩ := hrefers
    · exact .clickhouse hin (.inl (hpoint hin'))
    · exact .central hin (mem_renderCentral.2 (.inr (.inr (.inl (hpoint hin')))))
    · rw [Plan.hostsOf, head?_map] at hfirst
      obtain ⟨n, hn, rfl⟩ := Option.map_eq_some_iff.1 hfirst
      exact .superset hin (mem_renderSuperset.2 (.inr (.inr (.inl ⟨n, hn, rfl⟩))))
  | keeper =>
    obtain ⟨hin', hin | ⟨hmode, hin⟩⟩ := hrefers
    · exact .clickhouse hin (.inr (hpoint hin'))
    · exact .keeper hmode hin (hpoint hin')
  | central =>
    obtain ⟨hin', ⟨hha, hin⟩ | hin | rfl | ⟨hfirst, hvip | hin⟩⟩ := hrefers
    · exact .patroni hin hha (.inr (.inr (.inr (hpoint hin'))))
    · exact .haproxy hin (.inl (hpoint hin'))
    · exact .central hin' (mem_renderCentral.2 (.inr (.inr (.inr (.inr (.inr (.inl rfl)))))))
    · rcases centralApiUrl_cases hof with ⟨hvip', -⟩ | ⟨-, first, hfirst', hurl⟩
      · rw [hvip] at hvip'
        cases hvip'
      · rw [hfirst] at hfirst'
        obtain rfl := Option.some.inj hfirst'
        exact hurl ▸ .url
    · refine .superset hin (mem_renderSuperset.2 (.inr (.inl ?_)))
      cases hhosts : plan.centralHosts with
      | nil =>
        rw [hhosts] at hfirst
        cases hfirst
      | cons first rest =>
        rw [hhosts] at hfirst
        rw [centralInternalUrl, hhosts]
        obtain rfl := Option.some.inj hfirst
        rfl
  | haproxy => exact hrefers.elim
  | superset =>
    obtain ⟨hin', hin | rfl⟩ := hrefers
    · exact .haproxy hin (.inr (.inl (hpoint hin')))
    · exact .superset hin' (mem_renderSuperset.2 (.inr (.inr (.inr (.inl rfl)))))
  | dockerStats =>
    obtain ⟨hin', hin⟩ := hrefers
    exact .central hin (mem_renderCentral.2 (.inr (.inr (.inr (.inr (.inr (.inr (.inr (.inl
      (hpoint hin'))))))))))

/-! ### Endpoints that lead to their services -/

variable {loopback : String → Prop}

theorem leads_of_runs (hin : h ∈ plan.hostsOf inv e.service)
    (hloopback : loopback (e.address.text inv)) : Leads loopback inv plan h e :=
  ⟨fun _ => .inl hin, fun hnot => absurd hloopback hnot⟩

theorem leads_vip (hplan : Placed inv plan) (hmem : h ∈ inv.hosts) (hvip : inv.hasVip = true)
    (hwell : WellPointed loopback inv plan) : Leads loopback inv plan h ⟨.haproxy, .vip⟩ := by
  obtain ⟨proxy, rest, hproxies⟩ := exists_cons_of_ne_nil (haproxy_of_hasVip hplan hvip)
  have hin : proxy ∈ plan.haproxyHosts := by
    rw [hproxies]
    exact mem_cons_self
  have htext : inv.vip = some (inv.vip.getD "") := by
    rw [Inventory.hasVip] at hvip
    cases hsome : inv.vip with
    | none =>
      rw [hsome] at hvip
      simp at hvip
    | some address => rfl
  exact ⟨fun hloopback => .inl (hwell.vip hvip hloopback h hmem), fun _ =>
    ⟨proxy, hostsOf_subset hplan .haproxy proxy hin, hin, .inr ⟨htext, hin⟩⟩⟩

theorem mem_hostsOf_of_refers (hplan : Placed inv plan)
    (hrefers : Refers inv plan h s h') : h' ∈ plan.hostsOf inv s := by
  cases s with
  | postgres | etcd | keeper | central | superset => exact hrefers.1
  | dockerStats => exact hrefers.1
  | haproxy => exact hrefers.elim
  | redis =>
    obtain ⟨n, hn, rfl⟩ := Option.map_eq_some_iff.1 hrefers.1
    exact mem_map_of_mem (mem_of_head? hn)
  | sentinel =>
    obtain ⟨hsentinel, ⟨hin', -⟩ | ⟨rfl, hin⟩⟩ := hrefers
    · exact hin'
    · rw [sentinels_eq hplan hsentinel]
      exact hin
  | clickhouse =>
    obtain ⟨hin', -⟩ | ⟨hfirst, -⟩ := hrefers
    · exact hin'
    · exact mem_of_head? hfirst

/-- The other addresses: the virtual one, that of a host's own service, and the shortcut to the proxy
in front of Postgres. -/
theorem configures_other (hplan : Placed inv plan) (hof : ContextOf inv plan ctx)
    (hconf : Configures inv plan ctx h e) (hhost : ∀ h', e.address ≠ .host h') :
    (e = ⟨.haproxy, .vip⟩ ∧ inv.hasVip = true) ∨
      (h ∈ plan.hostsOf inv e.service ∧ e.address = .localhost) ∨ e = ⟨.dockerStats, .loopback⟩ ∨
      (e = ⟨.postgres, .loopback⟩ ∧ plan.pgHa = true ∧ plan.haproxyEnabled = true ∧
        h ∈ plan.centralHosts) := by
  have hall {service : Service} (he : e ∈ allOf inv plan service) : False := by
    obtain ⟨-, h', -, haddress⟩ := mem_allOf.1 he
    exact hhost h' haddress
  have hurl (he : e = ctx.centralApiUrl) : e = ⟨.haproxy, .vip⟩ ∧ inv.hasVip = true := by
    rcases centralApiUrl_cases hof with ⟨hvip, hurl⟩ | ⟨-, first, -, hurl⟩
    · exact ⟨he.trans hurl, hvip⟩
    · rw [he, hurl] at hhost
      exact absurd rfl (hhost first)
  cases hconf with
  | patroni hin hha he =>
    rcases he with rfl | he | he | he
    · exact .inr (.inl ⟨hin, rfl⟩)
    · exact (hall he).elim
    · exact (hall he).elim
    · exact (hall he).elim
  | etcd hin he => exact (hall he).elim
  | redis n hn hhost' hrole => exact absurd rfl (hhost ctx.redisHost)
  | sentinel hin hsentinel => exact absurd rfl (hhost h)
  | clickhouse hin he => exact (he.elim hall hall).elim
  | keeper hmode hin he => exact (hall he).elim
  | central hin he =>
    rcases mem_renderCentral.1 he with rfl | rfl | he | ⟨-, he⟩ | ⟨-, he | he⟩ | rfl | rfl | he |
      he | ⟨-, he⟩
    · obtain ⟨primary, -, hpg⟩ := hof.primary
      rw [hpg, pgHostForCentral] at hhost ⊢
      dsimp only at hhost
      split at hhost
      next hshortcut =>
        obtain ⟨hha, hproxy⟩ := (Bool.and_eq_true _ _).mp hshortcut
        rw [if_pos hshortcut]
        exact .inr (.inr (.inr ⟨rfl, hha, hproxy, hin⟩))
      · exact absurd rfl (hhost primary)
    · exact absurd rfl (hhost ctx.redisHost)
    · exact (hall he).elim
    · exact (hall he).elim
    · exact (hall he).elim
    · exact (hall he).elim
    · exact absurd rfl (hhost h)
    · exact .inr (.inl ⟨hin, rfl⟩)
    · exact (hall he).elim
    · obtain ⟨hvip, he⟩ := mem_vipOf.1 he
      exact .inl ⟨he, hvip⟩
    · exact .inl (hurl he)
  | haproxy hin he =>
    rcases he with he | he | ⟨-, he⟩ | he
    · exact (hall he).elim
    · exact (hall he).elim
    · exact (hall he).elim
    · obtain ⟨hvip, he⟩ := mem_vipOf.1 he
      exact .inl ⟨he, hvip⟩
  | superset hin he =>
    rcases mem_renderSuperset.1 he with he | rfl | ⟨n, hn, rfl⟩ | rfl | rfl
    · exact .inl (hurl he)
    · rw [centralInternalUrl] at hhost
      split at hhost
      next hnone => exact absurd hnone hplan.central_ne
      next first rest hhosts => exact absurd rfl (hhost first)
    · exact absurd rfl (hhost n.host)
    · exact absurd rfl (hhost h)
    · exact .inr (.inl ⟨hin, rfl⟩)
  | url => exact .inl (hurl rfl)
  | dockerStats => exact .inr (.inr (.inl rfl))

/-- **Every endpoint leads to its service**: each host has a configuration, all of whose endpoints
do. -/
def AllLead (loopback : String → Prop) (inv : Inventory) (plan : Plan) : Prop :=
  ∀ h ∈ inv.hosts, ∃ es, renderHost inv plan h = some es ∧ ∀ e ∈ es, Leads loopback inv plan h e

theorem WellPointed.leads (hwell : WellPointed loopback inv plan) (hplan : Placed inv plan)
    (hloopback : loopback "127.0.0.1") (hlocalhost : loopback "localhost") (hmem : h ∈ inv.hosts)
    (hof : ContextOf inv plan ctx)
    (hconf : Configures inv plan ctx h e) : Leads loopback inv plan h e := by
  by_cases hhost : ∃ h', e.address = .host h'
  · obtain ⟨h', haddress⟩ := hhost
    obtain ⟨s, a⟩ := e
    obtain rfl : a = .host h' := haddress
    have hrefers := (configures_host_iff hplan hof).1 hconf
    have hin := mem_hostsOf_of_refers hplan hrefers
    exact ⟨fun hl => hwell.hosts h hmem s h' hrefers hl,
      fun _ => ⟨h', hostsOf_subset hplan s h' hin, hin, .inl rfl⟩⟩
  · rcases configures_other hplan hof hconf (fun h' heq => hhost ⟨h', heq⟩) with ⟨rfl, hvip⟩ |
      ⟨hin, haddress⟩ | rfl | ⟨rfl, hha, hproxy, hin⟩
    · exact leads_vip hplan hmem hvip hwell
    · refine leads_of_runs hin ?_
      rw [haddress]
      exact hlocalhost
    · exact leads_of_runs hmem hloopback
    · refine ⟨fun _ => ?_, fun hnot => absurd hloopback hnot⟩
      exact (hwell.proxy hha hproxy h hin).imp id fun hproxied => ⟨hproxied, hha⟩

/-- **The plans whose endpoints all lead to their services.** -/
theorem allLead_iff (h : planCluster inv = .ok plan) (hloopback : loopback "127.0.0.1")
    (hlocalhost : loopback "localhost") :
    AllLead loopback inv plan ↔ WellPointed loopback inv plan := by
  have hplan := placed_of_ok h
  constructor
  · intro hall
    have hlead : ∀ h ∈ inv.hosts, ∃ ctx, ContextOf inv plan ctx ∧
        ∀ e, Configures inv plan ctx h e → Leads loopback inv plan h e := by
      intro h hmem
      obtain ⟨ctx, es, hof, hes, hiff⟩ := renderHost_eq hplan hmem
      obtain ⟨es', hes', hleads⟩ := hall h hmem
      rw [hes] at hes'
      obtain rfl := Option.some.inj hes'
      exact ⟨ctx, hof, fun e hconf => hleads e ((hiff e).2 hconf)⟩
    refine ⟨fun hha hproxy h hin => ?_, fun h hmem s h' hrefers hl => ?_, fun hvip hl h hmem => ?_⟩
    · obtain ⟨ctx, hof, hleads⟩ := hlead h (hostsOf_subset hplan .central h hin)
      obtain ⟨primary, -, hpg⟩ := hof.primary
      have hshortcut : ctx.pgHostForCentral = .loopback := by
        rw [hpg, pgHostForCentral, hha, hproxy]
        rfl
      have hserves := (hleads ⟨.postgres, .loopback⟩
        (.central hin (mem_renderCentral.2 (.inl (by rw [hshortcut]))))).1 hloopback
      exact hserves.imp id And.left
    · obtain ⟨ctx, hof, hleads⟩ := hlead h hmem
      exact (hleads ⟨s, .host h'⟩ ((configures_host_iff hplan hof).2 hrefers)).1 hl
    · obtain ⟨ctx, hof, hleads⟩ := hlead h hmem
      rcases centralApiUrl_cases hof with ⟨-, hurl⟩ | ⟨hnone, -⟩
      · have hserves := (hleads ⟨.haproxy, .vip⟩ (hurl ▸ .url)).1 hl
        exact hserves.elim id fun hforwards => hforwards.2.elim
      · rw [hvip] at hnone
        cases hnone
  · intro hwell h hmem
    obtain ⟨ctx, es, hof, hes, hiff⟩ := renderHost_eq hplan hmem
    exact ⟨es, hes, fun e he => hwell.leads hplan hloopback hlocalhost hmem hof ((hiff e).1 he)⟩

/-- Patroni behind HAProxy, which is on every central host. -/
def proxiedInventory : Inventory where
  hosts := [⟨"a", "10.0.0.1", [.postgres, .etcd, .central, .haproxy, .clickhouse]⟩,
    ⟨"b", "10.0.0.2", [.postgres, .etcd]⟩, ⟨"c", "10.0.0.3", [.etcd, .central, .haproxy]⟩]
  vip := some "10.0.0.9"
  sizing := .plain
  valid := by decide

/-- One of the central hosts has no HAProxy. -/
def bareInventory : Inventory where
  hosts := [⟨"a", "10.0.0.1", [.postgres, .etcd, .central, .haproxy, .clickhouse]⟩,
    ⟨"b", "10.0.0.2", [.postgres, .etcd]⟩, ⟨"c", "10.0.0.3", [.etcd, .central]⟩]
  sizing := .plain
  valid := by decide

/-- The addresses of the host itself, in the two spellings of the engine. -/
def IsLoopback (address : String) : Prop := address ∈ ["127.0.0.1", "localhost"]
  deriving Decidable

theorem allLead_proxied : ∃ plan, planCluster proxiedInventory = .ok plan ∧
    AllLead IsLoopback proxiedInventory plan := by
  have hplan : ∃ plan ∈ (planCluster proxiedInventory).toOption, plan.centralHosts.length = 2 ∧
      ∀ h ∈ plan.centralHosts, h ∈ plan.haproxyHosts := by decide +kernel
  obtain ⟨plan, hmem, -, hproxied⟩ := hplan
  have hok := planCluster_eq_ok hmem
  have hremote : ∀ h ∈ proxiedInventory.hosts, h.address ∉ ["127.0.0.1", "localhost"] := by decide
  refine ⟨plan, hok, (allLead_iff hok (by decide) (by decide)).2 ⟨fun _ _ h hin => ?_,
    fun h _ s h' hrefers hl => ?_, fun _ hl => ?_⟩⟩
  · exact .inr (hproxied h hin)
  · have hplaced := placed_of_ok hok
    have hin := mem_hostsOf_of_refers hplaced hrefers
    exact absurd hl (hremote h' (hostsOf_subset hplaced s h' hin))
  · exact absurd hl (by decide)

/-- **Pointed at itself**: a central host without HAProxy expects Postgres at its own loopback
address. -/
theorem not_allLead : ∃ plan, planCluster bareInventory = .ok plan ∧
    ¬AllLead IsLoopback bareInventory plan := by
  have hplan : ∃ plan ∈ (planCluster bareInventory).toOption, ∃ h ∈ bareInventory.hosts,
      ∃ es ∈ renderHost bareInventory plan h, ⟨.postgres, .loopback⟩ ∈ es ∧
        h ∉ plan.hostsOf bareInventory .postgres ∧ h ∉ plan.haproxyHosts := by decide +kernel
  obtain ⟨plan, hmem, h, hhost, es, hes, hin, hpg, hproxy⟩ := hplan
  refine ⟨plan, planCluster_eq_ok hmem, fun hall => ?_⟩
  obtain ⟨es', hes', hleads⟩ := hall h hhost
  rw [hes] at hes'
  obtain rfl := Option.some.inj hes'
  exact ((hleads _ hin).1 (by decide)).elim hpg fun hforwards => hproxy hforwards.1

end MonCTL.Installer
