import Mathlib.Data.List.Induction
import MonCTL.Collector.Forwarder
import MonCTL.CollectorApi.Jobs
import MonCTL.Lib.PyValue
import MonCTL.Lib.Uuid

/-!
# Submitting Results

`POST /results` turns the results of a batch into rows of ClickHouse tables and hands them to
the write buffer. A result comes with loosely typed payloads: metrics, configuration data and
interface rows are dictionaries of any JSON values, which the handler converts as it goes.

What the database and Redis answer is a parameter, one set of answers for every result of
the batch (`Turn`) and, within it, for every interface row (`InterfaceAnswers`). What the
handler writes to them is left out: it shows in later answers only.
-/

namespace MonCTL.CollectorApi

open List

/-! ### The request -/

/-- `CollectorResult`. -/
structure CollectorResult where
  jobId : String
  deviceId : Option String := none
  timestamp : PyFloat
  metrics : List PyDict := []
  configData : Option PyDict := none
  status : String := "ok"
  reachable : Bool := true
  errorMessage : Option String := none
  errorCategory : String := ""
  executionTimeMs : Option ℤ := none
  rttMs : Option PyFloat := none
  responseTimeMs : Option PyFloat := none
  startedAt : Option PyFloat := none
  interfaceRows : Option (List PyDict) := none

/-- `SubmitResultsRequest`. -/
structure SubmitResultsRequest where
  collectorNode : String
  results : List CollectorResult
  batchId : Option String := none

/-! ### The answers of the database and of Redis -/

/-- The fields of an assignment that its rows repeat. -/
structure Enrichment where
  appId : String
  appName : String
  targetTable : String
  deviceId : String
  deviceName : String
  role : String
  tenantId : String
  tenantName : String

/-- `enrichment.get(field, default)`, where nothing may be known of the assignment. -/
def enriched (e : Option Enrichment) (field : Enrichment → String) (default : String) : String :=
  (e.map field).getD default

/-- An interface as Redis remembers it. -/
structure CachedInterface where
  interfaceId : Uuid
  currentIfIndex : PyValue
  pollingEnabled : Bool

structure InterfaceMetadata where
  id : Uuid
  deviceId : Uuid
  ifName : PyValue
  currentIfIndex : PyValue
  ifDescr : PyValue
  ifAlias : PyValue
  ifSpeedMbps : PyValue
  pollingEnabled : Bool := true
  rulesManaged : Bool := false

/-- The answers while one interface row is resolved. A flush fails when the database does not
take the row, for instance because a value does not have the type of its column. -/
structure InterfaceAnswers where
  cached : Option CachedInterface
  byId : Except PyError (Option InterfaceMetadata)
  byName : Except PyError (Option InterfaceMetadata)
  flush : InterfaceMetadata → Except PyError Unit
  newId : Uuid
  /-- What the interface rules of the device set, if they can be applied. -/
  pollingAfterRules : InterfaceMetadata → Option Bool

/-- The counters of an interface at the previous poll, with its time if it parses. -/
structure PreviousCounters where
  executedAt : Option ℤ
  inOctets : PyValue
  outOctets : PyValue

/-- A performance counter at the previous poll, with its time if it parses. -/
structure PerfCounter where
  executedAt : Option ℤ
  value : PyFloat

/-- The answers while one result is processed. The ownership check fails when the session
is unusable. -/
structure Turn where
  session : Except PyError Unit
  enrichment : Option Enrichment
  perfCounter : PyValue → PyValue → PyValue → Option PerfCounter
  interface : ℕ → InterfaceAnswers
  previousCounters : Uuid → Option PreviousCounters

/-- What the handler finds: the tables, its settings, and the answers in each turn. The
spelling of values other than texts and the digest are parameters. -/
structure Env where
  fleet : Fleet
  requirePerCollectorAuth : Bool
  turn : ℕ → Turn
  repr : PyValue → String
  md5 : String → String

/-! ### The caller -/

/-- How the caller presents itself: its key, and the `X-Collector-Id` header. -/
structure Caller where
  auth : Auth
  collectorIdHeader : Option String := none

/-- `_resolve_caller_collector`. Looking a hostname up raises when several collectors have
it. -/
def resolveCallerCollector (s : Fleet) (caller : Caller) (hostname : String) :
    Except PyError (Option Collector) :=
  let byKey := match caller.auth with
    | .collectorApiKey id => (parseUuid id).bind s.collector?
    | .sharedSecret => none
  let byHeader := (caller.collectorIdHeader.bind parseUuid).bind s.collector?
  match byKey.or byHeader with
  | some c => .ok (some c)
  | none =>
    if hostname = "" then .ok none
    else
      match s.collectors.filter (·.hostname = some hostname) with
      | [] => .ok none
      | [c] => .ok (some c)
      | _ => .error .databaseError

/-- `_caller_owns_assignment`. -/
def callerOwnsAssignment (s : Fleet) (caller : Collector) (assignmentId : Uuid) : Bool :=
  match s.assignments.find? (·.id = assignmentId) with
  | none => false
  | some a =>
    match a.collectorId, a.deviceId with
    | some c, _ => c = caller.id
    | none, none => true
    | none, some _ =>
      match s.device? a with
      | none => false
      | some d =>
        match caller.groupId, d.collectorGroupId with
        | some g, some g' => g' = g
        | _, _ => true

/-! ### Rates -/

/-- The speed of a link in bits per second. -/
def linkSpeed (speed : PyValue) : Except PyError PyNum := do (← speed.num).mul (.int 1000000)

/-- The largest rate that is plausible on a link: 110% of its speed, when that is known. -/
def maxRate (speed : PyValue) : Except PyError PyFloat := do
  if ← (PyValue.int 0).lt speed then
    (← (← linkSpeed speed).mul (.float (.finite (11 / 10)))).toFloat
  else return .finite 110000000000

/-- `_calculate_rate`. -/
def calculateRate (current previous : PyValue) (dt : ℚ) (speed : PyValue) :
    Except PyError (PyFloat × Bool) := do
  if dt ≤ 0 then return (.finite 0, false)
  if ← current.lt previous then return (.finite 0, false)
  if current.beq previous then return (.finite 0, true)
  let delta ← (← current.num).sub (← previous.num)
  let rate := (← (← delta.mul (.int 8)).toFloat).div (.finite dt)
  let limit ← maxRate speed
  if limit.lt rate then return (.finite 0, false)
  return (rate, true)

/-- `_calculate_utilization`. -/
def calculateUtilization (rate : PyFloat) (speed : PyValue) : Except PyError PyFloat := do
  if (← speed.lt (.int 0)) || speed.beq (.int 0) || rate.le (.finite 0) then return .finite 0
  let capacity ← (← linkSpeed speed).toFloat
  return ((rate.div capacity).mul (.finite 100)).min (.finite 100)

/-- `_calculate_perf_rate`. -/
def calculatePerfRate (current previous : PyFloat) (dt : ℚ) : PyFloat :=
  if dt ≤ 0 || current.lt previous || current.eq previous then .finite 0
  else (current.sub previous).div (.finite dt)

/-- The seconds between two times. -/
def totalSeconds (later earlier : ℤ) : ℚ := (later - earlier : ℤ) / 1000000

/-! ### Interfaces -/

/-- The part of `_resolve_interface_id` that an exception only cuts short: the metadata of a
known interface is brought up to date. -/
def refreshInterface (a : InterfaceAnswers) (cached : CachedInterface)
    (ifIndex ifDescr ifAlias ifSpeedMbps : PyValue) : Except PyError Bool := do
  match ← a.byId with
  | none => return cached.pollingEnabled
  | some row =>
    let differs := fun new old : PyValue => new.truthy && !new.beq old
    let updated := { row with
      currentIfIndex := ifIndex
      ifDescr := if differs ifDescr row.ifDescr then ifDescr else row.ifDescr
      ifAlias := if differs ifAlias row.ifAlias then ifAlias else row.ifAlias
      ifSpeedMbps := if differs ifSpeedMbps row.ifSpeedMbps then ifSpeedMbps else row.ifSpeedMbps }
    a.flush updated
    if (differs ifDescr row.ifDescr || differs ifAlias row.ifAlias ||
        differs ifSpeedMbps row.ifSpeedMbps) && row.rulesManaged then
      return (a.pollingAfterRules updated).getD row.pollingEnabled
    return row.pollingEnabled

/-- The metadata of an interface seen for the first time. -/
def newInterface (a : InterfaceAnswers) (device : Uuid)
    (ifName ifIndex ifDescr ifAlias ifSpeedMbps : PyValue) : InterfaceMetadata :=
  { id := a.newId, deviceId := device, ifName, currentIfIndex := ifIndex, ifDescr, ifAlias,
    ifSpeedMbps }

/-- `_resolve_interface_id`: the stable id of an interface, and whether it is polled. -/
def resolveInterfaceId (a : InterfaceAnswers) (deviceId : String)
    (ifName ifIndex ifDescr ifAlias ifSpeedMbps : PyValue) : Except PyError (Uuid × Bool) :=
  match a.cached with
  | some cached =>
    if cached.currentIfIndex.beq ifIndex then .ok (cached.interfaceId, cached.pollingEnabled)
    else
      match refreshInterface a cached ifIndex ifDescr ifAlias ifSpeedMbps with
      | .ok pollingEnabled => .ok (cached.interfaceId, pollingEnabled)
      | .error _ => .ok (cached.interfaceId, cached.pollingEnabled)
  | none =>
    match parseUuid deviceId with
    | none => .error .valueError
    | some device => do
        match ← a.byName with
        | some row =>
          if !row.currentIfIndex.beq ifIndex then
            a.flush { row with currentIfIndex := ifIndex }
          return (row.id, row.pollingEnabled)
        | none =>
          let row := newInterface a device ifName ifIndex ifDescr ifAlias ifSpeedMbps
          a.flush row
          return (row.id, (a.pollingAfterRules row).getD row.pollingEnabled)

/-- An interface row that is polled, with its id. -/
structure ResolvedInterface where
  interfaceId : Uuid
  iface : PyDict

variable (t : Turn)

/-- The resolution of the interface that one row is about. -/
def resolveRow (deviceId : String) (j : ℕ) (iface : PyDict) :
    Except PyError (Uuid × Bool) :=
  resolveInterfaceId (t.interface j) deviceId
    (iface.getD "if_name" (.str "")) (iface.getD "if_index" (.int 0)) (.str "")
    (iface.getD "if_alias" (.str "")) (iface.getD "if_speed_mbps" (.int 0))

/-- The first phase of the interface branch: the rows of polled interfaces. -/
def resolveInterfaces (deviceId : String) (rows : List PyDict) :
    Except PyError (List ResolvedInterface) := do
  let resolved ← rows.zipIdx.mapM fun (iface, j) => do
    let (interfaceId, pollingEnabled) ← resolveRow t deviceId j iface
    return if pollingEnabled then some ⟨interfaceId, iface⟩ else none
  return resolved.filterMap id

/-- The rates and utilizations of an interface. -/
structure Rates where
  inRate : PyFloat := .finite 0
  outRate : PyFloat := .finite 0
  inUtil : PyFloat := .finite 0
  outUtil : PyFloat := .finite 0

/-- `try: … except (ValueError, TypeError)`. -/
def guarded {α : Type} : Except PyError α → Except PyError (Option α)
  | .ok a => .ok (some a)
  | .error .typeError => .ok none
  | .error .valueError => .ok none
  | .error e => .error e

/-- The rates against the counters of some seconds ago. A type or value error ends the
computation and leaves the rest at zero. -/
def ratesSince (prev : PreviousCounters) (dt : ℚ) (inOctets outOctets speed : PyValue) :
    Except PyError Rates := do
  let some (inRate, _) ← guarded (calculateRate inOctets prev.inOctets dt speed) | return {}
  let some (outRate, _) ← guarded (calculateRate outOctets prev.outOctets dt speed)
    | return { inRate }
  let some inUtil ← guarded (calculateUtilization inRate speed) | return { inRate, outRate }
  let some outUtil ← guarded (calculateUtilization outRate speed)
    | return { inRate, outRate, inUtil }
  return { inRate, outRate, inUtil, outUtil }

/-- The rates of an interface, zero without previous counters or without their time. -/
def interfaceRates (prev : Option PreviousCounters) (executedAt : ℤ)
    (inOctets outOctets speed : PyValue) : Except PyError Rates :=
  match prev with
  | none => .ok {}
  | some prev =>
    match prev.executedAt with
    | none => .ok {}
    | some prevTs => ratesSince prev (totalSeconds executedAt prevTs) inOctets outOctets speed

/-! ### The fields of a row -/

/-- A row for a table. -/
structure Row where
  table : String
  fields : PyDict

/-- The zero UUID. -/
def nilUuid : Uuid := "00000000-0000-0000-0000-000000000000"

/-- `str.lower`, as far as it can give an ASCII letter: the Kelvin sign has a lower case. -/
def lowerChar (c : Char) : Char := if c = Char.ofNat 0x212A then 'k' else c.toLower

/-- `_STATUS_TO_STATE`. -/
def statusToState : Dict String ℤ :=
  [("ok", 0), ("warning", 1), ("critical", 2), ("unknown", 3), ("error", 2)]

variable (r : CollectorResult)

/-- The state of a result: an unreachable device is never ok. -/
def resultState : ℤ :=
  let state := (statusToState.lookup (String.ofList (r.status.toList.map lowerChar))).getD 3
  if !r.reachable && state = 0 then 2 else state

/-- `a or b` for optional floats. -/
def firstTruthy (a b : Option PyFloat) : Option PyFloat :=
  match a with
  | some f => if f.truthy then some f else b
  | none => b

/-- `x or default` for an optional text. -/
def textOr (x : Option String) (default : String) : String :=
  match x with
  | some s => if s = "" then default else s
  | none => default

def resultOutput : String :=
  if textOr r.errorMessage "" ≠ "" then textOr r.errorMessage ""
  else if r.reachable then
    match firstTruthy (firstTruthy r.rttMs r.responseTimeMs) none with
    | some rtt => s!"OK — {rtt.fixed1}ms"
    | none => "OK"
  else "CRITICAL — unreachable"

/-- `(r.execution_time_ms / 1000.0) if r.execution_time_ms else 0.0`. -/
def executionTime : Except PyError PyFloat :=
  match r.executionTimeMs with
  | none => .ok (.finite 0)
  | some ms =>
    if ms = 0 then .ok (.finite 0)
    else (intToFloat ms).map fun f => f.div (.finite 1000)

/-- `str(v)`, as a value. -/
def Env.str (env : Env) : PyValue → PyValue
  | .str s => .str s
  | .surrogates s => .surrogates s
  | v => .str (env.repr v)

variable (env : Env)

/-- The name and the value of a metric that has both. -/
def flatMetric (m : PyDict) : Except PyError (List (PyValue × PyFloat)) :=
  match m.lookup "name", m.lookup "value" with
  | some name, some value => return [(env.str name, ← value.toFloat)]
  | _, _ => return []

/-- What the branches share: the facts of a result that are worked out before them. -/
structure ResultContext where
  collectorUuid : Uuid
  collectorNode : String
  assignmentId : Uuid
  enrichment : Option Enrichment
  result : CollectorResult
  deviceId : String
  executedAt : ℤ
  startedAt : ℤ
  metrics : List (PyValue × PyFloat)

namespace ResultContext

/-- The fields every row starts with. -/
def keyFields (c : ResultContext) : PyDict :=
  [("assignment_id", .str c.assignmentId),
    ("collector_id", .str c.collectorUuid),
    ("app_id", .str (enriched c.enrichment Enrichment.appId c.assignmentId)),
    ("device_id", .str c.deviceId)]

/-- The names every row ends with. -/
def nameFields (c : ResultContext) : PyDict :=
  [("collector_name", .str c.collectorNode),
    ("device_name", .str (enriched c.enrichment Enrichment.deviceName "")),
    ("app_name", .str (enriched c.enrichment Enrichment.appName "")),
    ("tenant_id", .str (enriched c.enrichment Enrichment.tenantId nilUuid)),
    ("tenant_name", .str (enriched c.enrichment Enrichment.tenantName ""))]

def errorFields (c : ResultContext) : PyDict :=
  [("error_message", .str (textOr c.result.errorMessage "")),
    ("error_category", .str c.result.errorCategory)]

end ResultContext

/-! ### Performance rows -/

/-- The metrics of one component. -/
structure Component where
  component : PyValue
  componentType : PyValue
  metrics : List (PyValue × PyFloat × PyValue)

/-- The type of the metric at an index, when the list of types is long enough. -/
def metricType (types : PyValue) (i : ℕ) : Except PyError PyValue := do
  if i < (← types.len) then types.index i else return .str "gauge"

/-- One metric of parallel lists: its name, value and type. -/
def typedMetric (types : PyValue) (m : (PyValue × PyValue) × ℕ) :
    Except PyError (PyValue × PyFloat × PyValue) :=
  return (env.str m.1.1, ← m.1.2.toFloat, ← metricType types m.2)

/-- The metrics that a dictionary gives as parallel lists. -/
def zippedMetrics (m : PyDict) :
    Except PyError (List (PyValue × PyFloat × PyValue)) := do
  let types := m.getD "metric_types" (.list [])
  let names ← (m.getD "metric_names" (.list [])).iter
  let values ← (m.getD "metric_values" (.list [])).iter
  (names.zip values).zipIdx.mapM (typedMetric env types)

/-- The metric that a dictionary gives as a name and a value, without lists of names. -/
def namedMetric (m : PyDict) : Except PyError (List (PyValue × PyFloat × PyValue)) :=
  if (m.lookup "metric_names").isSome then return []
  else return (← flatMetric env m).map fun (name, value) => (name, value, .str "gauge")

def componentKey (m : PyDict) : Except PyError (PyValue × PyValue) :=
  let component := m.getD "component" (.str "")
  let componentType := m.getD "component_type" (.str "")
  if component.Hashable ∧ componentType.Hashable then .ok (component, componentType)
  else .error .typeError

def metricComponent (m : PyDict) : Except PyError Component := do
  let (component, componentType) ← componentKey m
  return ⟨component, componentType, (← zippedMetrics env m) ++ (← namedMetric env m)⟩

/-- Two descriptions of one component. -/
def Component.same (c d : Component) : Bool :=
  c.component.sameKey d.component && c.componentType.sameKey d.componentType

/-- A component's metrics go to its group, which is new if there is none. -/
def addComponent (groups : List Component) (c : Component) : List Component :=
  if groups.any c.same then
    groups.map fun g => if c.same g then { g with metrics := g.metrics ++ c.metrics } else g
  else groups ++ [c]

/-- The value that is stored: a counter's rate, and any other metric as it is. -/
def normalizedValue (executedAt : ℤ) (c : Component) :
    PyValue × PyFloat × PyValue → PyFloat
  | (name, value, type) =>
    if type.beq (.str "counter") then
      match t.perfCounter c.componentType c.component name with
      | some ⟨some prevTs, prev⟩ => calculatePerfRate value prev (totalSeconds executedAt prevTs)
      | _ => .finite 0
    else value

def performanceRow (c : ResultContext) (g : Component) : Except PyError Row := do
  let executionTime ← executionTime c.result
  return ⟨"performance", c.keyFields ++
    [("component", g.component),
      ("component_type", g.componentType),
      ("state", .int (resultState c.result)),
      ("output", .str "")] ++ c.errorFields ++
    [("metric_names", .list (g.metrics.map fun m => m.1)),
      ("metric_values", .list (g.metrics.map fun m => .float (normalizedValue t c.executedAt g m))),
      ("metric_types", .list (g.metrics.map fun m => m.2.2)),
      ("executed_at", .datetime c.executedAt),
      ("execution_time", .float executionTime),
      ("started_at", .datetime c.startedAt)] ++ c.nameFields⟩

/-- The performance branch: a row for every component. -/
def performanceRows (t : Turn) (c : ResultContext) : Except PyError (List Row) := do
  let components ← c.result.metrics.mapM (metricComponent env)
  (components.foldl addComponent []).mapM (performanceRow t c)

/-! ### Interface rows -/

def interfaceRow (c : ResultContext) (ri : ResolvedInterface) : Except PyError Row := do
  let inOctets := ri.iface.getD "in_octets" (.int 0)
  let outOctets := ri.iface.getD "out_octets" (.int 0)
  let speed := ri.iface.getD "if_speed_mbps" (.int 0)
  let rates ← interfaceRates (t.previousCounters ri.interfaceId) c.executedAt inOctets outOctets
    speed
  let executionTime ← executionTime c.result
  let field := fun (name : String) (default : PyValue) => (name, ri.iface.getD name default)
  return ⟨"interface", c.keyFields ++
    [("interface_id", .str ri.interfaceId),
      field "if_index" (.int 0), field "if_name" (.str ""), field "if_alias" (.str ""),
      ("if_speed_mbps", speed),
      field "if_admin_status" (.str ""), field "if_oper_status" (.str ""),
      ("in_octets", inOctets), ("out_octets", outOctets),
      field "in_errors" (.int 0), field "out_errors" (.int 0),
      field "in_discards" (.int 0), field "out_discards" (.int 0),
      field "in_unicast_pkts" (.int 0), field "out_unicast_pkts" (.int 0),
      ("in_rate_bps", .float rates.inRate), ("out_rate_bps", .float rates.outRate),
      ("in_utilization_pct", .float rates.inUtil), ("out_utilization_pct", .float rates.outUtil),
      field "poll_interval_sec" (.int 0), field "counter_bits" (.int 64), field "state" (.int 0),
      ("execution_time", .float executionTime),
      ("executed_at", .datetime c.executedAt)] ++ c.nameFields⟩

/-- The interface branch: nothing without polled interfaces, and else a row for each. -/
def interfaceRows (c : ResultContext) (rows : List PyDict) :
    Except PyError (Option (List Row)) := do
  let resolved ← resolveInterfaces t c.deviceId rows
  if resolved.isEmpty then return none
  return some (← resolved.mapM (interfaceRow t c))

/-! ### Configuration rows -/

/-- The text stored for a configuration value, with its digest. A text with a lone surrogate
has no encoding. -/
def configText (value : PyValue) : Except PyError (String × String) :=
  let text : PyValue := match value with
    | .none => .str ""
    | value => env.str value
  match text with
  | .str s => .ok (s, env.md5 s)
  | _ => .error .unicodeEncodeError

def configRow (c : ResultContext) (executionTime : PyFloat) (key : String)
    (value : PyValue) : Except PyError Row := do
  let (text, hash) ← configText env value
  return ⟨"config", c.keyFields ++
    [("component", .str ""),
      ("component_type", .str (enriched c.enrichment Enrichment.appName "")),
      ("state", .int (resultState c.result)),
      ("output", .str (resultOutput c.result))] ++ c.errorFields ++
    [("reachable", .int (if c.result.reachable then 1 else 0)),
      ("execution_time", .float executionTime),
      ("executed_at", .datetime c.executedAt)] ++ c.nameFields ++
    [("config_key", .str key), ("config_value", .str text), ("config_hash", .str hash)]⟩

/-- The configuration branch: a row for every key. -/
def configRows (c : ResultContext) (configData : PyDict) :
    Except PyError (List Row) := do
  let executionTime ← executionTime c.result
  configData.mapM fun (key, value) => configRow env c executionTime key value

/-! ### All other rows -/

/-- The packet loss among the metrics: what the first one of that name says, if it says a
number. -/
def packetLoss (metrics : List PyDict) : Except PyError PyFloat :=
  match metrics.find? fun m => (m.getD "name" .none).beq (.str "packet_loss_pct") with
  | none => .ok (.finite 0)
  | some m => do return (← guarded (m.getD "value" (.int 0)).toFloat).getD (.finite 0)

def defaultRow (c : ResultContext) (targetTable : String) : Except PyError Row := do
  let loss ← packetLoss c.result.metrics
  let executionTime ← executionTime c.result
  let r := c.result
  return ⟨targetTable, c.keyFields ++
    [("state", .int (resultState r)), ("output", .str (resultOutput r))] ++ c.errorFields ++
    [("rtt_ms", .float ((firstTruthy r.rttMs none).getD (.finite 0))),
      ("response_time_ms", .float ((firstTruthy r.responseTimeMs none).getD (.finite 0))),
      ("reachable", .int (if r.reachable then 1 else 0)),
      ("packet_loss_pct", .float loss),
      ("status_code", .int 0),
      ("metric_names", .list (c.metrics.map Prod.fst)),
      ("metric_values", .list (c.metrics.map fun m => .float m.2)),
      ("executed_at", .datetime c.executedAt),
      ("execution_time", .float executionTime),
      ("started_at", .datetime c.startedAt)] ++ c.nameFields ++
    [("role", .str (enriched c.enrichment Enrichment.role ""))] ++
    (if targetTable = "performance" then
      [("component", .str ""), ("component_type", .str "")]
    else if targetTable = "config" then
      [("component", .str ""),
        ("component_type", .str (enriched c.enrichment Enrichment.appName "")),
        ("config_key", .str ""), ("config_value", .str ""), ("config_hash", .str "")]
    else [])⟩

/-! ### One result -/

/-- The target table of the result that a turn is about. -/
def targetTable (t : Turn) : String :=
  enriched t.enrichment Enrichment.targetTable "availability_latency"

def resultDevice (r : CollectorResult) : String :=
  textOr r.deviceId (enriched t.enrichment Enrichment.deviceId nilUuid)

/-- When a result was started; if it does not say, when it was executed. -/
def startTime (executedAt : ℤ) : Except PyError ℤ :=
  match firstTruthy r.startedAt none with
  | some startedAt => fromTimestamp startedAt
  | none => .ok executedAt

/-- The facts of a result that hold for every branch. All that is converted here is
converted whatever the target table. -/
def resultContext (t : Turn) (collectorUuid : Uuid) (collectorNode : String)
    (assignmentId : Uuid) (r : CollectorResult) : Except PyError ResultContext := do
  let executedAt ← fromTimestamp r.timestamp
  let metrics ← r.metrics.mapM (flatMetric env)
  let startedAt ← startTime r executedAt
  return {
    collectorUuid, collectorNode, assignmentId, executedAt, startedAt
    enrichment := t.enrichment
    result := r
    deviceId := resultDevice t r
    metrics := metrics.flatten }

/-- The rows of a result, in the branch of its table; none at all for an interface poll without
polled interfaces. -/
def branchRows (t : Turn) (c : ResultContext) : Except PyError (Option (List Row)) :=
  let ifaces := c.result.interfaceRows.getD []
  let configData := c.result.configData.getD []
  if targetTable t = "performance" ∧ c.result.metrics ≠ [] then
    return some (← performanceRows env t c)
  else if targetTable t = "interface" then
    if ifaces = [] then return none else interfaceRows t c ifaces
  else if targetTable t = "config" ∧ configData ≠ [] then
    return some (← configRows env c configData)
  else return some [← defaultRow c (targetTable t)]

def resultRows (t : Turn) (collectorUuid : Uuid) (collectorNode : String)
    (assignmentId : Uuid) (r : CollectorResult) : Except PyError (Option (List Row)) := do
  let c ← resultContext env t collectorUuid collectorNode assignmentId r
  branchRows env t c

/-- What becomes of one result. -/
inductive Verdict
  | skipped
  | unauthorised
  | accepted (rows : List Row)

/-- `job_id` of a discovery job. -/
def CollectorResult.isDiscovery : Bool :=
  "discovery-".toList.isPrefixOf r.jobId.toList

/-- What becomes of a result whose assignment the caller may report on. -/
def ownedVerdict (t : Turn) (collectorUuid : Uuid) (collectorNode : String)
    (assignmentId : Uuid) (r : CollectorResult) : Except PyError Verdict := do
  match ← resultRows env t collectorUuid collectorNode assignmentId r with
  | none => return .skipped
  | some rows => return .accepted rows

/-- The ownership check, which needs an identity to be made. -/
def checkedVerdict (t : Turn) (caller : Option Collector) (collectorNode : String)
    (assignmentId : Uuid) (r : CollectorResult) : Except PyError Verdict :=
  match caller with
  | none => ownedVerdict env t nilUuid collectorNode assignmentId r
  | some c => do
      t.session
      if callerOwnsAssignment env.fleet c assignmentId then
        ownedVerdict env t c.id collectorNode assignmentId r
      else return .unauthorised

/-- One round of the handler's loop. A discovery result has no rows; what is done with it
cannot fail. -/
def processResult (t : Turn) (caller : Option Collector) (collectorNode : String)
    (r : CollectorResult) : Except PyError Verdict :=
  if r.isDiscovery then
    match parseUuid (String.ofList (r.jobId.toList.drop "discovery-".length)) with
    | none => .ok .skipped
    | some _ => .ok (.accepted [])
  else
    match parseUuid r.jobId with
    | none => .ok .skipped
    | some assignmentId => checkedVerdict env t caller collectorNode assignmentId r

/-! ### The handler -/

/-- The rows handed to the write buffer for each table, and the batches marked as seen. -/
structure Central where
  buffer : Dict String (List Row) := []
  batchSeen : List String := []

variable (s : Central)

def Central.rows (table : String) : List Row := (s.buffer.lookup table).getD []

/-- `ClickHouseWriteBuffer.append`. -/
def Central.append (table : String) (rows : List Row) : Central :=
  { s with buffer := s.buffer.set table (s.rows table ++ rows) }

def byTable (rows : List Row) : Dict String (List Row) :=
  rows.foldl (fun d row => d.set row.table ((d.lookup row.table).getD [] ++ [row])) []

/-- The batch id is given and marked. -/
def Central.isDuplicate (req : SubmitResultsRequest) : Bool :=
  match req.batchId with
  | some b => b ≠ "" && s.batchSeen.contains b
  | none => false

/-- The batch id, if given, is marked. -/
def Central.mark (req : SubmitResultsRequest) : Central :=
  match req.batchId with
  | some b => if b = "" then s else { s with batchSeen := b :: s.batchSeen }
  | none => s

/-- An answer other than success: a refusal, or an exception that nothing catches. -/
inductive Failure
  | unauthorized
  | uncaught (e : PyError)

/-- A successful answer. -/
inductive Response
  | duplicate
  | ingested (accepted skipped unauthorised : ℕ)

/-- A verdict that makes rows. -/
def Verdict.isAccepted : Verdict → Bool
  | .accepted _ => true
  | _ => false

def Verdict.rows : Verdict → List Row
  | .accepted rows => rows
  | _ => []

/-- The loop over the results. -/
def processResults (caller : Option Collector) (req : SubmitResultsRequest) :
    Except PyError (List Verdict) :=
  req.results.zipIdx.mapM fun (r, i) => processResult env (env.turn i) caller req.collectorNode r

/-- The rows of a batch are handed to the buffer, table by table. -/
def Central.appendRows (verdicts : List Verdict) : Central :=
  (byTable (verdicts.flatMap Verdict.rows)).foldl (fun s e => s.append e.1 e.2) s

/-- What follows the loop: the rows go to the buffer, and the batch is marked. -/
def ingest (req : SubmitResultsRequest) (verdicts : List Verdict) :
    Response × Central :=
  let skipped := verdicts.countP fun v => v matches .skipped
  let unauthorised := verdicts.countP fun v => v matches .unauthorised
  (.ingested (verdicts.flatMap Verdict.rows).length skipped unauthorised,
    (s.appendRows verdicts).mark req)

/-- What precedes the buffer: the caller is let in, and the loop runs through. -/
def batchVerdicts (caller : Caller) (req : SubmitResultsRequest) :
    Except Failure (List Verdict) :=
  match resolveCallerCollector env.fleet caller req.collectorNode with
  | .error e => .error (.uncaught e)
  | .ok collector =>
    if collector = none ∧ env.requirePerCollectorAuth then .error .unauthorized
    else
      match processResults env collector req with
      | .error e => .error (.uncaught e)
      | .ok verdicts => .ok verdicts

/-- `submit_results`. An exception in the loop leaves the buffer and the marks alone. -/
def submitResults (s : Central) (caller : Caller) (req : SubmitResultsRequest) :
    Except Failure (Response × Central) :=
  if s.isDuplicate req then .ok (.duplicate, s)
  else (batchVerdicts env caller req).map (ingest s req)

/-- The status of an answer. -/
def statusCode : Except Failure (Response × Central) → ℕ
  | .ok _ => 202
  | .error .unauthorized => 401
  | .error (.uncaught _) => 500

theorem marksSent_statusCode_iff (answer : Except Failure (Response × Central)) :
    Collector.marksSent (some (statusCode answer)) = true ↔ Succeeds answer := by
  rcases answer with (_ | _) | answer
  · exact iff_of_false (by decide) (not_succeeds_error _)
  · exact iff_of_false (by simp [statusCode, Collector.marksSent]) (not_succeeds_error _)
  · exact iff_of_true rfl ⟨_, rfl⟩

/-- The request a payload of the forwarder becomes. -/
def requestOf (p : Collector.Payload CollectorResult) : SubmitResultsRequest :=
  { collectorNode := p.collectorNode, results := p.results, batchId := some p.batchId }

/-! ### What reaches the buffer -/

theorem lookup_byTable (rows : List Row) (table : String) :
    ((byTable rows).lookup table).getD [] = rows.filter (·.table = table) := by
  unfold byTable
  induction rows using List.reverseRecOn with
  | nil => rfl
  | append_singleton rows row ih =>
    rw [foldl_append, foldl_cons, foldl_nil, Dict.lookup_set, filter_append]
    by_cases htable : table = row.table
    · subst htable
      simp [ih]
    · have hne : row.table ≠ table := fun h => htable h.symm
      simp [htable, hne, ih]

theorem nodup_keys_byTable (rows : List Row) : (byTable rows).keys.Nodup := by
  unfold byTable
  induction rows using List.reverseRecOn with
  | nil => exact nodup_nil
  | append_singleton rows row ih =>
    rw [foldl_append]
    exact Dict.nodup_keys_set ih _ _

theorem rows_foldl_append {entries : Dict String (List Row)} (h : entries.keys.Nodup)
    (s : Central) (table : String) : (entries.foldl (fun s e => s.append e.1 e.2) s).rows table =
      s.rows table ++ (entries.lookup table).getD [] := by
  induction entries generalizing s with
  | nil => simp
  | cons e entries ih =>
    obtain ⟨k, rows⟩ := e
    rw [Dict.keys, map_cons, nodup_cons] at h
    rw [foldl_cons, ih h.2]
    by_cases htable : table = k
    · subst htable
      have hnone : entries.lookup table = none := by
        rw [← Option.not_isSome_iff_eq_none, ← Dict.mem_keys_iff]
        exact h.1
      simp [Central.rows, Central.append, hnone]
    · have hne : (table == k) = false := by simpa using htable
      simp [Central.rows, Central.append, Dict.lookup_set_ne htable, lookup_cons, hne]

@[simp] theorem rows_mark (req : SubmitResultsRequest) (table : String) :
    (s.mark req).rows table = s.rows table := by
  unfold Central.mark
  split
  · split
    · rfl
    · rfl
  · rfl

/-- **The loop's rows reach the buffer**: each table gets its rows, in their order, after those
that were there. -/
theorem rows_appendRows (verdicts : List Verdict) (table : String) :
    (s.appendRows verdicts).rows table =
      s.rows table ++ (verdicts.flatMap Verdict.rows).filter (·.table = table) := by
  rw [Central.appendRows, rows_foldl_append (nodup_keys_byTable _), lookup_byTable]

end MonCTL.CollectorApi
