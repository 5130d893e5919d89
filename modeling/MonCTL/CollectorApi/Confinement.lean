import MonCTL.CollectorApi.BadResults

/-!
# What a Batch of Results May Touch

`POST /results` checks who owns the assignment that a result is for. It writes more than the
rows of that assignment, though: the counters of performance components and interfaces, the
metadata and the cached ids of interfaces, and what discovery changes of a device. All of it is
filed under the device id that the result carries itself, when it carries one, and discovery
results are not checked at all.

This module follows every write of the handler. Its answers are those of `Turn`; the device of
each interface, and what discovery changes of a device it has found, are parameters
(`Registry`). A cached interface belongs to the device it is cached for because the handler
caches none that does not (`Registry.Cacheable`).
-/

namespace MonCTL.CollectorApi

open List StateExcept

/-! ### Writes -/

/-- What discovery changes: the device's own row, or its assignments. -/
inductive DiscoveryChange
  | updated
  | assigned (appId : Uuid)

/-- What the handler writes: a row for the buffer, the counters of a component, the metadata of
an interface, the id cached for its name, its counters, and a change made by discovery. -/
inductive Write
  | row (row : Row)
  | perfCounters (deviceId : String) (componentType component : PyValue)
      (counters : List (PyValue × PyFloat)) (executedAt : ℤ)
  | interfaceMetadata (row : InterfaceMetadata)
  | cachedInterface (deviceId : String) (ifName : PyValue) (entry : CachedInterface)
  | interfaceCounters (interfaceId : Uuid) (inOctets outOctets : PyValue) (executedAt : ℤ)
  | discovered (deviceId : Uuid) (change : DiscoveryChange)

/-- The device of each interface, and what discovery changes of a device. -/
structure Registry where
  interfaceDevice : Uuid → Option Uuid
  discover : Device → PyDict → List DiscoveryChange

def Row.device (row : Row) : Option Uuid :=
  match row.fields.lookup "device_id" with
  | some (.str text) => parseUuid text
  | _ => none

def Write.device (reg : Registry) : Write → Option Uuid
  | .row e => e.device
  | .perfCounters deviceId _ _ _ _ => parseUuid deviceId
  | .interfaceMetadata e => some e.deviceId
  | .cachedInterface deviceId _ _ => parseUuid deviceId
  | .interfaceCounters interfaceId _ _ _ => reg.interfaceDevice interfaceId
  | .discovered deviceId _ => some deviceId

/-- The writes of a loop, up to those of the round that raises. -/
def writesUntilRaise {α β γ : Type} (run : α → Except PyError β) (writes : α → List γ) :
    List α → List γ
  | [] => []
  | x :: xs =>
    writes x ++ match run x with
      | .ok _ => writesUntilRaise run writes xs
      | .error _ => []

/-! ### The writes of one result -/

/-- `process_discovery_result`: a device that does not exist is left alone. -/
def discoveryWrites (reg : Registry) (s : Fleet) (deviceId : Uuid) (configData : PyDict) :
    List Write :=
  match s.devices.find? (·.id = deviceId) with
  | none => []
  | some d => (reg.discover d configData).map (.discovered d.id)

/-- `_cache_perf_counters`, for a component that has counters. -/
def componentWrites (c : ResultContext) (g : Component) : List Write :=
  let counters := g.metrics.filter fun m => m.2.2.beq (.str "counter")
  if counters.isEmpty then []
  else [.perfCounters c.deviceId g.componentType g.component
    (counters.map fun m => (m.1, m.2.1)) c.executedAt]

/-- The performance branch caches the counters of each component before it builds its row. -/
def performanceWrites (env : Env) (t : Turn) (c : ResultContext) : List Write :=
  match c.result.metrics.mapM (metricComponent env) with
  | .error _ => []
  | .ok components =>
    writesUntilRaise (performanceRow t c) (componentWrites c) (components.foldl addComponent [])

/-- The metadata of a known interface, brought up to date. -/
def updatedInterface (row : InterfaceMetadata) (ifIndex ifDescr ifAlias ifSpeedMbps : PyValue) :
    InterfaceMetadata :=
  let newer := fun new old : PyValue => if new.truthy && !new.beq old then new else old
  { row with
    currentIfIndex := ifIndex
    ifDescr := newer ifDescr row.ifDescr
    ifAlias := newer ifAlias row.ifAlias
    ifSpeedMbps := newer ifSpeedMbps row.ifSpeedMbps }

def metadataWrites (a : InterfaceAnswers) (deviceId : String)
    (ifName ifIndex ifDescr ifAlias ifSpeedMbps : PyValue) : List Write :=
  match a.byName, parseUuid deviceId with
  | .ok (some row), _ =>
    if row.currentIfIndex.beq ifIndex then []
    else [.interfaceMetadata { row with currentIfIndex := ifIndex }]
  | .ok none, some device =>
    [.interfaceMetadata (newInterface a device ifName ifIndex ifDescr ifAlias ifSpeedMbps)]
  | _, _ => []

/-- The writes of `_resolve_interface_id`. An interface whose index has changed is brought up to
date, and every id that is looked up or new is cached. -/
def resolveWrites (a : InterfaceAnswers) (deviceId : String)
    (ifName ifIndex ifDescr ifAlias ifSpeedMbps : PyValue) : List Write :=
  match a.cached with
  | some cached =>
    if cached.currentIfIndex.beq ifIndex then []
    else
      match refreshInterface a cached ifIndex ifDescr ifAlias ifSpeedMbps with
      | .error _ => []
      | .ok pollingEnabled =>
        (match a.byId with
          | .ok (some row) =>
            [.interfaceMetadata (updatedInterface row ifIndex ifDescr ifAlias ifSpeedMbps)]
          | _ => []) ++
        [.cachedInterface deviceId ifName ⟨cached.interfaceId, ifIndex, pollingEnabled⟩]
  | none =>
    match resolveInterfaceId a deviceId ifName ifIndex ifDescr ifAlias ifSpeedMbps with
    | .error _ => []
    | .ok (interfaceId, pollingEnabled) =>
      metadataWrites a deviceId ifName ifIndex ifDescr ifAlias ifSpeedMbps ++
        [.cachedInterface deviceId ifName ⟨interfaceId, ifIndex, pollingEnabled⟩]

/-- The writes of resolving the interface that one row is about. -/
def resolveRowWrites (t : Turn) (deviceId : String) (j : ℕ) (iface : PyDict) : List Write :=
  resolveWrites (t.interface j) deviceId
    (iface.getD "if_name" (.str "")) (iface.getD "if_index" (.int 0)) (.str "")
    (iface.getD "if_alias" (.str "")) (iface.getD "if_speed_mbps" (.int 0))

/-- `cache_current_counters_batch`, for one interface. -/
def counterWrite (c : ResultContext) (ri : ResolvedInterface) : Write :=
  .interfaceCounters ri.interfaceId (ri.iface.getD "in_octets" (.int 0))
    (ri.iface.getD "out_octets" (.int 0)) c.executedAt

/-- The interface branch resolves the interfaces one by one; the counters of those that are
polled are cached together, once all their rows are built. -/
def interfaceWrites (t : Turn) (c : ResultContext) (rows : List PyDict) : List Write :=
  writesUntilRaise (fun x => resolveRow t c.deviceId x.2 x.1)
      (fun x => resolveRowWrites t c.deviceId x.2 x.1) rows.zipIdx ++
    match resolveInterfaces t c.deviceId rows with
    | .error _ => []
    | .ok resolved =>
      match resolved.mapM (interfaceRow t c) with
      | .error _ => []
      | .ok _ => resolved.map (counterWrite c)

/-- The configuration branch passes the data of the discovery app on. -/
def configWrites (reg : Registry) (env : Env) (c : ResultContext) (configData : PyDict) :
    List Write :=
  match configRows env c configData with
  | .error _ => []
  | .ok _ =>
    if enriched c.enrichment Enrichment.appName "" = "snmp_discovery" ∧ c.deviceId ≠ "" then
      match parseUuid c.deviceId with
      | none => []
      | some deviceId => discoveryWrites reg env.fleet deviceId configData
    else []

/-- The writes of a result besides its rows, in the branch of its table. -/
def branchWrites (reg : Registry) (env : Env) (t : Turn) (c : ResultContext) : List Write :=
  let ifaces := c.result.interfaceRows.getD []
  let configData := c.result.configData.getD []
  if targetTable t = "performance" ∧ c.result.metrics ≠ [] then performanceWrites env t c
  else if targetTable t = "interface" then
    if ifaces = [] then [] else interfaceWrites t c ifaces
  else if targetTable t = "config" ∧ configData ≠ [] then configWrites reg env c configData
  else []

/-- The writes of a result whose assignment the caller may report on. -/
def resultWrites (reg : Registry) (env : Env) (t : Turn) (collectorUuid : Uuid)
    (collectorNode : String) (assignmentId : Uuid) (r : CollectorResult) : List Write :=
  match resultContext env t collectorUuid collectorNode assignmentId r with
  | .error _ => []
  | .ok c => branchWrites reg env t c

/-- The ownership check comes before the writes. -/
def checkedWrites (reg : Registry) (env : Env) (t : Turn) (caller : Option Collector)
    (collectorNode : String) (assignmentId : Uuid) (r : CollectorResult) : List Write :=
  match caller with
  | none => resultWrites reg env t nilUuid collectorNode assignmentId r
  | some c =>
    match t.session with
    | .error _ => []
    | .ok _ =>
      if callerOwnsAssignment env.fleet c assignmentId then
        resultWrites reg env t c.id collectorNode assignmentId r
      else []

def CollectorResult.discoveryDevice (r : CollectorResult) : Option Uuid :=
  parseUuid (String.ofList (r.jobId.toList.drop "discovery-".length))

/-- The writes of one round of the handler's loop. Whose device a discovery result is about is
not looked at. -/
def roundWrites (reg : Registry) (env : Env) (t : Turn) (caller : Option Collector)
    (collectorNode : String) (r : CollectorResult) : List Write :=
  if r.isDiscovery then
    match r.discoveryDevice with
    | none => []
    | some id =>
      if (r.configData.getD []).isEmpty then []
      else discoveryWrites reg env.fleet id (r.configData.getD [])
  else
    match parseUuid r.jobId with
    | none => []
    | some assignmentId => checkedWrites reg env t caller collectorNode assignmentId r

/-! ### The writes of a request -/

/-- A write, with the result it is made for and the number of the result. -/
structure Made where
  result : CollectorResult
  turn : ℕ
  write : Write

def loopWrites (reg : Registry) (env : Env) (caller : Option Collector)
    (req : SubmitResultsRequest) : List Made :=
  writesUntilRaise (fun x => processResult env (env.turn x.2) caller req.collectorNode x.1)
    (fun x => (roundWrites reg env (env.turn x.2) caller req.collectorNode x.1).map
      (Made.mk x.1 x.2)) req.results.zipIdx

/-- The rows that are handed to the buffer: those of all results, if the loop runs through. -/
def rowWrites (env : Env) (caller : Option Collector) (req : SubmitResultsRequest) : List Made :=
  match processResults env caller req with
  | .error _ => []
  | .ok verdicts =>
    (req.results.zipIdx.zip verdicts).flatMap fun (x, v) =>
      v.rows.map fun row => Made.mk x.1 x.2 (.row row)

def requestWrites (reg : Registry) (env : Env) (s : Central) (caller : Caller)
    (req : SubmitResultsRequest) : List Made :=
  if s.isDuplicate req then []
  else
    match resolveCallerCollector env.fleet caller req.collectorNode with
    | .error _ => []
    | .ok collector =>
      if collector = none ∧ env.requirePerCollectorAuth then []
      else loopWrites reg env collector req ++ rowWrites env collector req

/-! ### Rows are filed under one device -/

theorem mem_writesUntilRaise {α β γ : Type} {run : α → Except PyError β} {writes : α → List γ}
    {xs : List α} {w : γ} (h : w ∈ writesUntilRaise run writes xs) : ∃ x ∈ xs, w ∈ writes x := by
  induction xs with
  | nil => exact absurd h not_mem_nil
  | cons x xs ih =>
    rcases List.mem_append.1 h with h | h
    · exact ⟨x, mem_cons_self, h⟩
    · split at h
      · obtain ⟨y, hy, hw⟩ := ih h
        exact ⟨y, mem_cons_of_mem _ hy, hw⟩
      · exact absurd h not_mem_nil

variable {t : Turn} {row : Row} {c : ResultContext}

theorem device_performanceRow {g : Component}
    (h : performanceRow t c g = .ok row) : row.device = parseUuid c.deviceId := by
  rw [performanceRow] at h
  obtain ⟨_, -, h⟩ := bind_eq_ok.1 h
  cases h
  rfl

theorem device_interfaceRow {ri : ResolvedInterface}
    (h : interfaceRow t c ri = .ok row) : row.device = parseUuid c.deviceId := by
  rw [interfaceRow] at h
  obtain ⟨_, -, h⟩ := bind_eq_ok.1 h
  obtain ⟨_, -, h⟩ := bind_eq_ok.1 h
  cases h
  rfl

variable {env : Env}

theorem device_configRow {time : PyFloat} {key : String}
    {value : PyValue} (h : configRow env c time key value = .ok row) :
    row.device = parseUuid c.deviceId := by
  rw [configRow] at h
  obtain ⟨_, -, h⟩ := bind_eq_ok.1 h
  cases h
  rfl

theorem device_defaultRow {table : String}
    (h : defaultRow c table = .ok row) : row.device = parseUuid c.deviceId := by
  rw [defaultRow] at h
  obtain ⟨_, -, h⟩ := bind_eq_ok.1 h
  obtain ⟨_, -, h⟩ := bind_eq_ok.1 h
  cases h
  rfl

theorem device_of_branchRows {rows : List Row}
    (h : branchRows env t c = .ok (some rows)) : ∀ row ∈ rows, row.device = parseUuid c.deviceId :=
    by
  intro row hrow
  rw [branchRows] at h
  split at h
  · obtain ⟨rows', hrows, h⟩ := bind_eq_ok.1 h
    cases h
    obtain ⟨components, -, hrows⟩ := bind_eq_ok.1 hrows
    obtain ⟨g, -, hg⟩ := (mem_of_mapM_eq_ok hrows row).1 hrow
    exact device_performanceRow hg
  next =>
  split at h
  · split at h
    · cases h
    · obtain ⟨resolved, -, h⟩ := bind_eq_ok.1 h
      split at h
      · cases h
      · obtain ⟨rows', hrows, h⟩ := bind_eq_ok.1 h
        cases h
        obtain ⟨ri, -, hri⟩ := (mem_of_mapM_eq_ok hrows row).1 hrow
        exact device_interfaceRow hri
  next =>
  split at h
  · obtain ⟨rows', hrows, h⟩ := bind_eq_ok.1 h
    cases h
    obtain ⟨time, -, hrows⟩ := bind_eq_ok.1 hrows
    obtain ⟨e, -, he⟩ := (mem_of_mapM_eq_ok hrows row).1 hrow
    exact device_configRow he
  · obtain ⟨row', hrow', h⟩ := bind_eq_ok.1 h
    cases h
    obtain rfl := List.mem_singleton.1 hrow
    exact device_defaultRow hrow'

variable {collectorUuid assignmentId : Uuid} {collectorNode : String} {r : CollectorResult}

theorem deviceId_of_resultContext
    (h : resultContext env t collectorUuid collectorNode assignmentId r = .ok c) :
    c.deviceId = resultDevice t r := by
  rw [resultContext] at h
  obtain ⟨_, -, h⟩ := bind_eq_ok.1 h
  obtain ⟨_, -, h⟩ := bind_eq_ok.1 h
  obtain ⟨_, -, h⟩ := bind_eq_ok.1 h
  cases h
  rfl

/-! ### Interfaces belong to the device they are resolved for -/

/-- What may be cached for a device: an interface that belongs to it. -/
def Registry.Cacheable (reg : Registry) (deviceId : String) (entry : CachedInterface) : Prop :=
  ∃ device, parseUuid deviceId = some device ∧ reg.interfaceDevice entry.interfaceId = some device

/-- **The answers are those of a sound store**: rows found by id have that id, rows found by
device and name have that device, an interface keeps its device, and the cache holds what may be
cached. -/
structure Registry.Sound (reg : Registry) (a : InterfaceAnswers) (deviceId : String) : Prop where
  cached : ∀ entry, a.cached = some entry → reg.Cacheable deviceId entry
  byId : ∀ entry row, a.cached = some entry → a.byId = .ok (some row) →
    row.id = entry.interfaceId ∧ reg.interfaceDevice row.id = some row.deviceId
  byName : ∀ row, a.byName = .ok (some row) → parseUuid deviceId = some row.deviceId ∧
    reg.interfaceDevice row.id = some row.deviceId
  newId : ∀ device, a.byName = .ok none → parseUuid deviceId = some device →
    reg.interfaceDevice a.newId = some device


/-- A write about a device; if it caches an interface, then one that may be cached. -/
structure Write.About (reg : Registry) (device : Option Uuid) (w : Write) : Prop where
  device : w.device reg = device
  cacheable : ∀ deviceId ifName entry, w = .cachedInterface deviceId ifName entry →
    reg.Cacheable deviceId entry

section Interfaces

variable {reg : Registry} {a : InterfaceAnswers} {deviceId : String}
  {ifName ifIndex ifDescr ifAlias ifSpeedMbps : PyValue}

theorem Registry.Sound.cacheable (hsound : reg.Sound a deviceId) {id : Uuid} {polling : Bool}
    (h : resolveInterfaceId a deviceId ifName ifIndex ifDescr ifAlias ifSpeedMbps
      = .ok (id, polling)) (index : PyValue) (polled : Bool) :
    reg.Cacheable deviceId ⟨id, index, polled⟩ := by
  rw [resolveInterfaceId] at h
  split at h
  next entry hentry =>
    have hid : id = entry.interfaceId := by
      split at h
      · cases h
        rfl
      · split at h
        · cases h
          rfl
        · cases h
          rfl
    rw [hid]
    exact hsound.cached entry hentry
  next hentry =>
  split at h
  · cases h
  next device hdevice =>
  obtain ⟨found, hfound, h⟩ := bind_eq_ok.1 h
  cases found with
  | some row =>
    obtain ⟨hdevice', hrow⟩ := hsound.byName row hfound
    have hid : id = row.id := by
      dsimp only at h
      split at h
      · obtain ⟨_, -, h⟩ := bind_eq_ok.1 h
        cases h
        rfl
      · cases h
        rfl
    rw [hid]
    exact ⟨_, hdevice', hrow⟩
  | none =>
    obtain ⟨_, -, h⟩ := bind_eq_ok.1 h
    cases h
    exact ⟨device, hdevice, hsound.newId device hfound hdevice⟩

/-- **What resolving an interface writes**: metadata of an interface of the device, and ids that
may be cached for it. -/
theorem resolveWrites_cases (hsound : reg.Sound a deviceId) {w : Write}
    (h : w ∈ resolveWrites a deviceId ifName ifIndex ifDescr ifAlias ifSpeedMbps) :
    (∃ row, w = .interfaceMetadata row ∧ parseUuid deviceId = some row.deviceId) ∨
      ∃ entry, w = .cachedInterface deviceId ifName entry ∧ reg.Cacheable deviceId entry := by
  rw [resolveWrites] at h
  split at h
  next entry hentry =>
    -- A cached interface: its metadata is that of a row of the device.
    split at h
    · exact absurd h not_mem_nil
    next =>
    split at h
    · exact absurd h not_mem_nil
    next =>
    obtain ⟨device, hdevice, hinterface⟩ := hsound.cached entry hentry
    rcases List.mem_append.1 h with h | h
    · split at h
      next row hrow =>
        obtain ⟨hid, hrowDevice⟩ := hsound.byId entry row hentry hrow
        obtain rfl := List.mem_singleton.1 h
        rw [hid, hinterface] at hrowDevice
        exact .inl ⟨_, rfl, hdevice.trans hrowDevice⟩
      · exact absurd h not_mem_nil
    · obtain rfl := List.mem_singleton.1 h
      exact .inr ⟨_, rfl, device, hdevice, hinterface⟩
  next hentry =>
  split at h
  · exact absurd h not_mem_nil
  next id polling hid =>
  rcases List.mem_append.1 h with h | h
  · -- An interface that is looked up or new.
    rw [metadataWrites] at h
    split at h
    next row hrow =>
      split at h
      · exact absurd h not_mem_nil
      · obtain rfl := List.mem_singleton.1 h
        exact .inl ⟨_, rfl, (hsound.byName row hrow).1⟩
    next device hrow hdevice =>
      obtain rfl := List.mem_singleton.1 h
      exact .inl ⟨_, rfl, hdevice⟩
    · exact absurd h not_mem_nil
  · obtain rfl := List.mem_singleton.1 h
    exact .inr ⟨_, rfl, hsound.cacheable hid _ _⟩

theorem about_of_resolveWrites (hsound : reg.Sound a deviceId) {w : Write}
    (h : w ∈ resolveWrites a deviceId ifName ifIndex ifDescr ifAlias ifSpeedMbps) :
    w.About reg (parseUuid deviceId) := by
  obtain ⟨row, rfl, hrow⟩ | ⟨entry, rfl, hentry⟩ := resolveWrites_cases hsound h
  · exact ⟨hrow.symm, nofun⟩
  · refine ⟨rfl, ?_⟩
    rintro _ _ _ ⟨⟩
    exact hentry

end Interfaces

variable {reg : Registry} {rows : List PyDict}

theorem about_counterWrite
    (hsound : ∀ j, reg.Sound (t.interface j) c.deviceId) {resolved : List ResolvedInterface}
    (h : resolveInterfaces t c.deviceId rows = .ok resolved) :
    ∀ ri ∈ resolved, (counterWrite c ri).About reg (parseUuid c.deviceId) := by
  intro ri hri
  obtain ⟨j, -, hrow⟩ := (mem_resolveInterfaces_iff h ri).1 hri
  obtain ⟨device, hdevice, hinterface⟩ := (hsound j).cacheable hrow .none true
  exact ⟨hinterface.trans hdevice.symm, nofun⟩

/-! ### All writes of a result are about one device -/

variable {w : Write}

theorem about_of_discoveryWrites {s : Fleet} {deviceId : Uuid}
    {configData : PyDict} (h : w ∈ discoveryWrites reg s deviceId configData) :
    w.About reg (some deviceId) := by
  rw [discoveryWrites] at h
  split at h
  · exact absurd h not_mem_nil
  next d hd =>
    obtain ⟨change, -, rfl⟩ := List.mem_map.1 h
    have hsame : d.id = deviceId := by simpa using find?_some hd
    rw [← hsame]
    exact ⟨rfl, nofun⟩

theorem about_of_performanceWrites
    (h : w ∈ performanceWrites env t c) : w.About reg (parseUuid c.deviceId) := by
  rw [performanceWrites] at h
  split at h
  · exact absurd h not_mem_nil
  · obtain ⟨g, -, h⟩ := mem_writesUntilRaise h
    rw [componentWrites] at h
    split at h
    · exact absurd h not_mem_nil
    · obtain rfl := List.mem_singleton.1 h
      exact ⟨rfl, nofun⟩

theorem about_of_interfaceWrites (hsound : ∀ j, reg.Sound (t.interface j) c.deviceId)
    (h : w ∈ interfaceWrites t c rows) : w.About reg (parseUuid c.deviceId) := by
  rcases List.mem_append.1 h with h | h
  · obtain ⟨x, -, h⟩ := mem_writesUntilRaise h
    exact about_of_resolveWrites (hsound x.2) h
  · split at h
    · exact absurd h not_mem_nil
    next resolved hresolved =>
    split at h
    · exact absurd h not_mem_nil
    · obtain ⟨ri, hri, rfl⟩ := List.mem_map.1 h
      exact about_counterWrite hsound hresolved ri hri

/-- **All writes of a result are about one device**: the one that the result names or else its
assignment's. -/
theorem about_of_resultWrites (hsound : ∀ j, reg.Sound (t.interface j) (resultDevice t r))
    (h : w ∈ resultWrites reg env t collectorUuid collectorNode assignmentId r) :
    w.About reg (parseUuid (resultDevice t r)) := by
  rw [resultWrites] at h
  split at h
  · exact absurd h not_mem_nil
  next c hc =>
  have hdevice : c.deviceId = resultDevice t r := deviceId_of_resultContext hc
  rw [← hdevice] at hsound ⊢
  rw [branchWrites] at h
  split at h
  · exact about_of_performanceWrites h
  next =>
  split at h
  · split at h
    · exact absurd h not_mem_nil
    · exact about_of_interfaceWrites hsound h
  next =>
  split at h
  · rw [configWrites] at h
    split at h
    · exact absurd h not_mem_nil
    · split at h
      · split at h
        · exact absurd h not_mem_nil
        next deviceId hdeviceId => exact hdeviceId ▸ about_of_discoveryWrites h
      · exact absurd h not_mem_nil
  · exact absurd h not_mem_nil

/-! ### The writes of a request -/

theorem device_of_ownedVerdict {v : Verdict}
    (h : ownedVerdict env t collectorUuid collectorNode assignmentId r = .ok v) :
    ∀ row ∈ v.rows, row.device = parseUuid (resultDevice t r) := by
  intro row hrow
  obtain ⟨rows, hrows, h⟩ := bind_eq_ok.1 h
  cases rows with
  | none =>
    cases h
    exact absurd hrow not_mem_nil
  | some rows =>
    cases h
    obtain ⟨c, hc, hrows⟩ := bind_eq_ok.1 hrows
    rw [← deviceId_of_resultContext hc]
    exact device_of_branchRows hrows row hrow

/-- The device that a result is processed for. -/
def Made.device (env : Env) (m : Made) : Option Uuid :=
  if m.result.isDiscovery then m.result.discoveryDevice
  else parseUuid (resultDevice (env.turn m.turn) m.result)

/-- The caller may report on the assignment that a result is for. -/
def Made.Owned (s : Fleet) (c : Collector) (m : Made) : Prop :=
  ∃ id, parseUuid m.result.jobId = some id ∧ callerOwnsAssignment s c id = true

section Request

variable {reg : Registry} {env : Env} {c : Collector} {req : SubmitResultsRequest}

/-- A write of the loop is about the device of its result, and the ownership check lets it
pass. -/
theorem of_mem_loopWrites {m : Made} (hsound : ∀ x ∈ req.results.zipIdx, ∀ j,
      reg.Sound ((env.turn x.2).interface j) (resultDevice (env.turn x.2) x.1))
    (h : m ∈ loopWrites reg env (some c) req) : m.write.About reg (m.device env) ∧
      (m.result.isDiscovery = false → m.Owned env.fleet c) := by
  obtain ⟨⟨r, i⟩, hx, h⟩ := mem_writesUntilRaise h
  obtain ⟨w, hw, rfl⟩ := List.mem_map.1 h
  rw [roundWrites] at hw
  split at hw
  next hdiscovery =>
    have hkind : r.isDiscovery = false → (Made.mk r i w).Owned env.fleet c := fun hnot =>
      absurd (hdiscovery.symm.trans hnot) (by decide)
    refine ⟨?_, hkind⟩
    rw [Made.device, if_pos hdiscovery]
    split at hw
    · exact absurd hw not_mem_nil
    next id hid =>
    split at hw
    · exact absurd hw not_mem_nil
    · exact hid ▸ about_of_discoveryWrites hw
  next hdiscovery =>
    rw [Made.device, if_neg hdiscovery]
    split at hw
    · exact absurd hw not_mem_nil
    next id hid =>
    rw [checkedWrites] at hw
    dsimp only at hw
    split at hw
    · exact absurd hw not_mem_nil
    next =>
    split at hw
    next howns => exact ⟨about_of_resultWrites (hsound (r, i) hx) hw, fun _ => ⟨id, hid, howns⟩⟩
    · exact absurd hw not_mem_nil

/-- A row that is handed over is filed under the device of its result, and the ownership check
lets it pass. -/
theorem of_mem_rowWrites {m : Made} (h : m ∈ rowWrites env (some c) req) :
    m.write.About reg (m.device env) ∧ (m.result.isDiscovery = false → m.Owned env.fleet c) := by
  rw [rowWrites] at h
  split at h
  · exact absurd h not_mem_nil
  next verdicts hverdicts =>
  obtain ⟨⟨⟨r, i⟩, v⟩, hx, h⟩ := List.mem_flatMap.1 h
  obtain ⟨row, hrow, rfl⟩ := List.mem_map.1 h
  have hround : processResult env (env.turn i) (some c) req.collectorNode r = .ok v :=
    forall₂_zip (mapM_eq_ok_iff.1 hverdicts) hx
  rw [processResult] at hround
  split at hround
  next =>
    -- A discovery result has no rows.
    split at hround
    · cases hround
      exact absurd hrow not_mem_nil
    · cases hround
      exact absurd hrow not_mem_nil
  next hdiscovery =>
    rw [Made.device, if_neg hdiscovery]
    split at hround
    · cases hround
      exact absurd hrow not_mem_nil
    next id hid =>
    obtain ⟨_, -, hround⟩ := bind_eq_ok.1 hround
    split at hround
    next howns =>
      exact ⟨⟨device_of_ownedVerdict hround row hrow, (fun _ _ _ h => by cases h)⟩,
        fun _ => ⟨id, hid, howns⟩⟩
    · cases hround
      exact absurd hrow not_mem_nil

end Request

def Write.row? : Write → Option Row
  | .row e => some e
  | _ => none

variable {s : Central} {caller : Caller}

/-! ### Confinement -/

/-- A device of the collector's own group. -/
def Fleet.Serves (s : Fleet) (c : Collector) (device : Option Uuid) : Prop :=
  ∃ d ∈ s.devices, device = some d.id ∧ c.groupId ≠ none ∧ d.collectorGroupId = c.groupId

/-- The device of the assignment that a result is for; the zero UUID stands for none. -/
def Fleet.AssignedDevice (s : Fleet) (r : CollectorResult) (device : Option Uuid) : Prop :=
  ∃ id a, parseUuid r.jobId = some id ∧ s.assignments.find? (·.id = id) = some a ∧
    device = some (a.deviceId.getD nilUuid)

/-- **A write stays where it belongs**: it is made for an assignment that the caller owns, and is
about the device of that assignment; or it is made for a discovery result, and is about a device
of the caller's group. -/
def Confined (reg : Registry) (s : Fleet) (c : Collector) (m : Made) : Prop :=
  if m.result.isDiscovery then s.Serves c (m.write.device reg)
  else m.Owned s c ∧ s.AssignedDevice m.result (m.write.device reg)

/-- A result names no other device: a discovery result is about a device of the caller's group,
and the device of any other, its own device id or else what is known of its assignment, is that
of the assignment. -/
def NamesOwnDevice (env : Env) (c : Collector) (m : Made) : Prop :=
  if m.result.isDiscovery then env.fleet.Serves c m.result.discoveryDevice
  else env.fleet.AssignedDevice m.result (parseUuid (resultDevice (env.turn m.turn) m.result))

variable {req : SubmitResultsRequest} {m : Made} {collector : Option Collector}

theorem mem_requestWrites_cases
    (hcaller : resolveCallerCollector env.fleet caller req.collectorNode = .ok collector)
    (h : m ∈ requestWrites reg env s caller req) :
    m ∈ loopWrites reg env collector req ∨ m ∈ rowWrites env collector req := by
  rw [requestWrites] at h
  split at h
  · exact absurd h not_mem_nil
  next =>
  rw [hcaller] at h
  dsimp only at h
  split at h
  · exact absurd h not_mem_nil
  · exact List.mem_append.1 h

theorem mem_zipIdx_of_mem_requestWrites
    (hcaller : resolveCallerCollector env.fleet caller req.collectorNode = .ok collector)
    (h : m ∈ requestWrites reg env s caller req) : (m.result, m.turn) ∈ req.results.zipIdx := by
  rcases mem_requestWrites_cases hcaller h with h | h
  · obtain ⟨x, hx, h⟩ := mem_writesUntilRaise h
    obtain ⟨w, -, rfl⟩ := List.mem_map.1 h
    exact hx
  · rw [rowWrites] at h
    split at h
    · exact absurd h not_mem_nil
    · obtain ⟨⟨x, v⟩, hx, h⟩ := List.mem_flatMap.1 h
      obtain ⟨row, -, rfl⟩ := List.mem_map.1 h
      exact (of_mem_zip hx).1

/-- **Every write of a request** is about the device of its result, caches no interface of
another device, and, but for discovery, is made for an assignment that the caller owns. -/
theorem of_mem_requestWrites {c : Collector}
    (hcaller : resolveCallerCollector env.fleet caller req.collectorNode = .ok (some c))
    (hsound : ∀ x ∈ req.results.zipIdx, ∀ j,
      reg.Sound ((env.turn x.2).interface j) (resultDevice (env.turn x.2) x.1))
    (h : m ∈ requestWrites reg env s caller req) :
    m.write.About reg (m.device env) ∧ (m.result.isDiscovery = false → m.Owned env.fleet c) :=
  (mem_requestWrites_cases hcaller h).elim (of_mem_loopWrites hsound) of_mem_rowWrites

/-- **When a batch is confined**: exactly when every result that anything is written for names
no other device than that of its assignment, or, if it is a discovery result, a device of the
caller's group. -/
theorem confined_iff {reg : Registry} {env : Env} {s : Central} {caller : Caller}
    {req : SubmitResultsRequest} {c : Collector}
    (hcaller : resolveCallerCollector env.fleet caller req.collectorNode = .ok (some c))
    (hsound : ∀ x ∈ req.results.zipIdx, ∀ j,
      reg.Sound ((env.turn x.2).interface j) (resultDevice (env.turn x.2) x.1)) :
    (∀ m ∈ requestWrites reg env s caller req, Confined reg env.fleet c m) ↔
      ∀ m ∈ requestWrites reg env s caller req, NamesOwnDevice env c m := by
  refine forall₂_congr fun m hm => ?_
  obtain ⟨habout, howned⟩ := of_mem_requestWrites hcaller hsound hm
  rw [Confined, NamesOwnDevice, habout.device, Made.device]
  by_cases hdiscovery : m.result.isDiscovery = true
  · simp only [if_pos hdiscovery]
  · simp only [if_neg hdiscovery]
    exact and_iff_right (howned (Bool.not_eq_true _ ▸ hdiscovery))

/-! ### A device id that redirects -/

/-- A collector of one group with an assignment to a device of that group, and a device of
another. -/
def sitesFleet : Fleet where
  collectors := [⟨"c1", "ACTIVE", some "g1", some "host-1"⟩]
  groups := [⟨"g1", none⟩, ⟨"g2", none⟩]
  devices := [⟨"d1d1d1d1-0000-0000-0000-000000000001", some "g1", true⟩,
    ⟨"d2d2d2d2-0000-0000-0000-000000000002", some "g2", true⟩]
  assignments := [⟨"11111111-1111-1111-1111-111111111111",
    some "d1d1d1d1-0000-0000-0000-000000000001", none, true⟩]

/-- What is known of the assignment. -/
def sitesEnv : Env :=
  { checksEnv with
    fleet := sitesFleet
    turn := fun i =>
      { checksEnv.turn i with
        enrichment := some ⟨"a1", "ping", "availability_latency",
          "d1d1d1d1-0000-0000-0000-000000000001", "edge-1", "", nilUuid, ""⟩ } }

/-- A result of the assignment, with a device id or without. -/
def sitesRequest (deviceId : Option String) : SubmitResultsRequest where
  collectorNode := "host-1"
  results :=
    [{ jobId := "11111111-1111-1111-1111-111111111111", deviceId
       timestamp := .finite 1700000000 }]

/-- Interfaces of the first device, and a discovery that changes nothing. -/
def sitesRegistry : Registry where
  interfaceDevice := fun _ => some "d1d1d1d1-0000-0000-0000-000000000001"
  discover := fun _ _ => []

theorem sites_caller : resolveCallerCollector sitesFleet ⟨.sharedSecret, none⟩ "host-1" =
    .ok (some ⟨"c1", "ACTIVE", some "g1", some "host-1"⟩) := by decide +kernel

theorem sites_assignment : parseUuid "11111111-1111-1111-1111-111111111111" =
    some "11111111-1111-1111-1111-111111111111" := by decide +kernel

theorem sites_isDiscovery
    (h : r.jobId = "11111111-1111-1111-1111-111111111111") : r.isDiscovery = false := by
  rw [CollectorResult.isDiscovery, h]
  decide +kernel

/-- A result without a device id is written, and all of it goes to the device of its
assignment. -/
theorem sitesRequest_confined :
    (requestWrites sitesRegistry sitesEnv {} ⟨.sharedSecret, none⟩ (sitesRequest none)).isEmpty =
        false ∧
      ∀ m ∈ requestWrites sitesRegistry sitesEnv {} ⟨.sharedSecret, none⟩ (sitesRequest none),
        Confined sitesRegistry sitesFleet ⟨"c1", "ACTIVE", some "g1", some "host-1"⟩ m := by
  have hdevice : parseUuid "d1d1d1d1-0000-0000-0000-000000000001" =
      some "d1d1d1d1-0000-0000-0000-000000000001" := by decide +kernel
  refine ⟨by decide +kernel, (confined_iff sites_caller ?_).2 ?_⟩
  · rintro ⟨r, i⟩ hx j
    obtain ⟨rfl, rfl⟩ : r = _ ∧ i = 0 := by simpa [sitesRequest] using hx
    refine ⟨nofun, nofun, nofun, fun device _ h => ?_⟩
    exact hdevice.symm.trans h
  · rintro ⟨r, i, w⟩ hm
    obtain ⟨rfl, rfl⟩ : r = _ ∧ i = 0 := by
      simpa [sitesRequest] using mem_zipIdx_of_mem_requestWrites sites_caller hm
    rw [NamesOwnDevice, if_neg (Bool.eq_false_iff.1 (sites_isDiscovery rfl))]
    exact ⟨_, _, sites_assignment, rfl, hdevice⟩

/-- A result with the id of another device goes there. -/
theorem sitesRequest_not_confined :
    ¬∀ m ∈ requestWrites sitesRegistry sitesEnv {} ⟨.sharedSecret, none⟩
        (sitesRequest (some "d2d2d2d2-0000-0000-0000-000000000002")),
      Confined sitesRegistry sitesFleet ⟨"c1", "ACTIVE", some "g1", some "host-1"⟩ m := by
  have hwrite : ((requestWrites sitesRegistry sitesEnv {} ⟨.sharedSecret, none⟩
      (sitesRequest (some "d2d2d2d2-0000-0000-0000-000000000002"))).any fun m =>
        m.result.jobId == "11111111-1111-1111-1111-111111111111" &&
          m.write.device sitesRegistry == some "d2d2d2d2-0000-0000-0000-000000000002") = true := by
    decide +kernel
  obtain ⟨m, hm, hmade⟩ := List.any_eq_true.1 hwrite
  simp only [Bool.and_eq_true, beq_iff_eq] at hmade
  intro h
  have hconfined := h m hm
  rw [Confined, if_neg (Bool.eq_false_iff.1 (sites_isDiscovery hmade.1)), hmade.2] at hconfined
  obtain ⟨-, id, a, hid, ha, hdevice⟩ := hconfined
  rw [hmade.1] at hid
  obtain rfl := Option.some.inj (sites_assignment.symm.trans hid)
  obtain rfl : sitesFleet.assignments.head (by decide) = a := Option.some.inj ha
  exact absurd hdevice (by decide)

end MonCTL.CollectorApi
