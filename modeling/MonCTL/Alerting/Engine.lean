import MonCTL.Alerting.ThresholdResolution
import MonCTL.Basic

/-!
# The Alert Engine

One evaluation of one definition. The engine asks ClickHouse which assignments have new
data, runs one query per tier, and moves every entity with new data: to the highest tier
whose query returned the entity's key, or back to resolved.

The answers of ClickHouse are a parameter, one for each place a query is sent from, so any
of them can fail on its own. A session is committed when the evaluation returns and rolled
back when it raises. The tenant, the rendered message and the rounding of metric values are
left out of the log records.
-/

namespace MonCTL.Alerting

open Dsl

/-! ### Entities and records -/

/-- The state of an entity. -/
inductive AlertState
  | ok
  | firing
  | resolved
  deriving DecidableEq

/-- `AlertEntity`: what a definition knows about one assignment. -/
structure AlertEntity where
  assignmentId : Uuid
  deviceId : Option Uuid := none
  entityKey : String := ""
  enabled : Bool := true
  state : AlertState := .ok
  severity : Option String := none
  currentValue : Option ℚ := none
  fireCount : ℕ := 0
  fireHistory : List Bool := []
  lastEvaluatedAt : Option Timestamp := none
  startedFiringAt : Option Timestamp := none
  currentStateSince : Option Timestamp := none
  lastTriggeredAt : Option Timestamp := none
  lastClearedAt : Option Timestamp := none
  entityLabels : Dict String String := []
  metricValues : Dict String (Option ℚ) := []
  thresholdValues : Dict String ParamValue := []

variable (e : AlertEntity)

/-- The key an entity is looked up under. -/
def AlertEntity.key : Uuid × String := (e.assignmentId, e.entityKey)

/-- The entities of one definition; the table admits one for each assignment. -/
structure Entities where
  rows : List AlertEntity
  assignments_nodup : (rows.map AlertEntity.assignmentId).Nodup := by decide

/-- The entities the engine loads. -/
def Entities.enabled (entities : Entities) : List AlertEntity :=
  entities.rows.filter AlertEntity.enabled

/-- What a row of the alert log is written for. -/
inductive LogAction
  | fire
  | escalate
  | downgrade
  | clear
  deriving DecidableEq

/-- A row of the alert log. -/
structure LogRecord where
  action : LogAction
  assignmentId : Uuid
  deviceId : Option Uuid
  deviceName : String
  entityKey : String
  severity : String
  currentValue : ℚ
  thresholdValue : ℚ
  expression : String
  entityLabels : Dict String String
  fireCount : ℕ
  metricValues : Dict String (Option ℚ)
  thresholdValues : Dict String ParamValue
  occurredAt : Timestamp

/-! ### ClickHouse -/

/-- The places of an evaluation a query is sent from. -/
inductive QueryName
  | freshness
  | tier (i : ℕ)
  | healthy
  deriving DecidableEq

/-- The query for the newest data of some assignments. -/
structure FreshnessRequest where
  table : String
  assignmentIds : List Uuid
  cutoff : Timestamp
  successesOnly : Bool

/-- The query of a tier, restricted to some assignments. -/
inductive TierRequest
  | compiled (assignmentIds : List Uuid) (sql : QuerySql) (params : Dict String ParamValue)
  | configChanged (assignmentIds : List Uuid) (key : String)

/-- A row of an answer: its columns with text, and its columns `_arith_i`. -/
structure Row where
  texts : Dict String String
  metrics : Dict ℕ (Option ℚ) := []
  deriving DecidableEq

/-- `row.get(column, "")`. -/
def Row.text (row : Row) (column : String) : String := (row.texts.lookup column).getD ""

/-- The answers of ClickHouse; a query without an answer has failed. -/
structure ClickHouse where
  freshness : FreshnessRequest → Option (List (Uuid × Timestamp))
  tier : QueryName → TierRequest → Option (List Row)

structure QueryFailure where

/-! ### Freshness -/

/-- One round of the loop that collects the cutoffs: the oldest evaluation of an assignment's
entities, or none when one of them has never been evaluated. -/
def noteCutoff (cutoffs : Dict Uuid (Option Timestamp)) (e : AlertEntity) :
    Dict Uuid (Option Timestamp) :=
  match e.lastEvaluatedAt, cutoffs.lookup e.assignmentId with
  | none, _ => cutoffs.set e.assignmentId none
  | some t, none => cutoffs.set e.assignmentId (some t)
  | some t, some (some prev) => if t < prev then cutoffs.set e.assignmentId (some t) else cutoffs
  | some _, some none => cutoffs

variable (instances : List AlertEntity)

/-- The cutoff of every assignment. -/
def cutoffByAid : Dict Uuid (Option Timestamp) :=
  instances.foldl noteCutoff []

/-- The assignments that have to be asked about, with their cutoffs. -/
def aidsToCheck : Dict Uuid Timestamp :=
  (cutoffByAid instances).filterMap fun e => e.2.map fun t => (e.1, t)

variable (table : String)

/-- The query of `_fresh_assignments`. -/
def freshnessRequest (instances : List AlertEntity) (isConfigChanged : Bool) :
    FreshnessRequest :=
  let table := if isConfigChanged then "config" else table
  { table
    assignmentIds := (aidsToCheck instances).keys
    cutoff := ((aidsToCheck instances).map Prod.snd).min?.getD 0
    successesOnly := table ≠ "config" }

variable (ch : ClickHouse)

/-- `_fresh_assignments`: those never evaluated, and those with data newer than their own
cutoff. A failed query adds none. -/
def freshAssignments (table : String) (instances : List AlertEntity)
    (isConfigChanged : Bool) : List Uuid :=
  let fresh := ((cutoffByAid instances).filter fun e => e.2 = none).map Prod.fst
  if aidsToCheck instances = [] then fresh
  else
    match ch.freshness (freshnessRequest table instances isConfigChanged) with
    | none => fresh
    | some rows => fresh ++ (rows.filter fun row =>
      ((aidsToCheck instances).lookup row.1).any fun cutoff => cutoff < row.2).map Prod.fst

/-! ### The query of a tier -/

/-- What a query found for a key. -/
structure FireData where
  value : Option ℚ
  labels : Dict String String
  metricValues : Dict String (Option ℚ) := []
  thresholdValues : Dict String ParamValue := []

/-- The keys a query returned. -/
abbrev Firing := Dict (Uuid × String) FireData

/-- Looking for a key among those a query returned. -/
instance Firing.decidableMemKeys (healthy : Firing) (key : Uuid × String) :
    Decidable (key ∈ healthy.keys) := inferInstance

def assignmentIds : List Uuid :=
  (instances.map AlertEntity.assignmentId).dedup

/-- The key `_execute_compiled_query` builds for a row. -/
def rowKey (row : Row) : Uuid × String :=
  (row.text "assignment_id",
    if "interface_id" ∈ row.texts.keys then
      row.text "device_id" ++ "|" ++ row.text "interface_id"
    else if "component_type" ∈ row.texts.keys then
      row.text "device_id" ++ "|" ++ row.text "component_type" ++ "|" ++ row.text "component"
    else if "config_key" ∈ row.texts.keys then
      row.text "device_id" ++ "|" ++ row.text "config_key"
    else "")

def rowLabels (row : Row) : Dict String String :=
  if "interface_id" ∈ row.texts.keys then
    [("device_name", row.text "device_name"), ("if_name", row.text "if_name")]
  else [("device_name", row.text "device_name")]

/-- What `_execute_compiled_query` takes from a row: the primary value is the first metric's,
or the first column `_arith_i` when that is null. -/
def rowFireData (compiled : CompiledQuery) (params : Dict String ParamValue) (row : Row) :
    FireData :=
  let metricValues := compiled.metricAliases.map fun m => (m.1, (row.metrics.lookup m.2).join)
  { value := (metricValues.head?.bind Prod.snd).or (row.metrics.head?.bind Prod.snd)
    labels := rowLabels row
    metricValues
    thresholdValues := Dict.setAll [] (compiled.thresholdParams.map fun tp =>
      (tp.name, (params.lookup tp.paramKey).getD (.float tp.defaultValue))) }

/-- `_execute_compiled_query`: a failed query raises. -/
def executeCompiledQuery (name : QueryName) (compiled : CompiledQuery)
    (instances : List AlertEntity) (varByName : Variables) : Except QueryFailure Firing :=
  let params := resolveParams varByName compiled
  match ch.tier name (.compiled (assignmentIds instances) compiled.sql params) with
  | none => .error {}
  | some rows => .ok (Dict.setAll [] (rows.map fun row =>
    (rowKey row, rowFireData compiled params row)))

/-- The label an entity keeps the hash of its configuration in. -/
def configHashLabel : String := "last_config_hash"

/-- Remember a hash as the baseline of an assignment's entity. -/
def storeBaseline (aid : Uuid) (hash : String) (instances : List AlertEntity) : List AlertEntity :=
  instances.map fun e =>
    if e.assignmentId = aid then
      { e with entityLabels := e.entityLabels.set configHashLabel hash }
    else e

/-- One round of the loop over the rows of the query for changed configuration: only the
first entity with the key of the row, or without a key, is looked at. -/
def configChangedRow (acc : Firing × List AlertEntity) (row : Row) : Firing × List AlertEntity :=
  let entityKey := row.text "device_id" ++ "|" ++ row.text "config_key"
  let hash := row.text "config_hash"
  match acc.2.find? fun e => e.entityKey = entityKey ∨ e.entityKey = "" with
  | none => acc
  | some e =>
    match e.entityLabels.lookup configHashLabel with
    | some prev =>
      if prev ≠ hash then
        (acc.1.set (e.assignmentId, entityKey)
          { value := none
            labels := [("device_name", row.text "device_name"), (configHashLabel, hash)] },
          acc.2)
      else acc
    | none => (acc.1, storeBaseline e.assignmentId hash acc.2)

/-- `_evaluate_config_changed`: a failed query returns no key. -/
def evaluateConfigChanged (name : QueryName) (key : String)
    (instances : List AlertEntity) : Firing × List AlertEntity :=
  match ch.tier name (.configChanged (assignmentIds instances) key) with
  | none => ([], instances)
  | some rows => rows.foldl configChangedRow ([], instances)

/-- One tier: by the query for changed configuration, or by its own. -/
def evaluateTier (isConfigChanged : Bool) (varByName : Variables)
    (name : QueryName) (compiled : CompiledQuery) (instances : List AlertEntity) :
    Except QueryFailure (Firing × List AlertEntity) :=
  if isConfigChanged then
    .ok (evaluateConfigChanged ch name (compiled.configChangedKey.getD "") instances)
  else
    (executeCompiledQuery ch name compiled instances varByName).map fun fk => (fk, instances)

/-- The tiers that raise the alert, in order. -/
def evaluateTiers (ch : ClickHouse) (isConfigChanged : Bool) (varByName : Variables) :
    ℕ → List (String × CompiledQuery) → List AlertEntity →
      Except QueryFailure (List (String × Firing) × List AlertEntity)
  | _, [], instances => .ok ([], instances)
  | i, (severity, compiled) :: tiers, instances => do
      let (fk, instances) ←
        evaluateTier ch isConfigChanged varByName (.tier i) compiled instances
      let (results, instances) ←
        evaluateTiers ch isConfigChanged varByName (i + 1) tiers instances
      return ((severity, fk) :: results, instances)

/-- The healthy tier: an exception leaves it without a key. -/
def evaluateHealthy (isConfigChanged : Bool) (varByName : Variables)
    (healthy : Option CompiledQuery) (instances : List AlertEntity) : Firing × List AlertEntity :=
  match healthy with
  | none => ([], instances)
  | some compiled =>
    match evaluateTier ch isConfigChanged varByName .healthy compiled instances with
    | .ok result => result
    | .error _ => ([], instances)

/-! ### One entity -/

/-- `rank`: unknown severities sort below `info`. -/
def severityRank : Option String → ℤ
  | some "info" => 0
  | some "warning" => 1
  | some "critical" => 2
  | _ => -1

/-- The highest tier whose query returned a key. -/
def effectiveTier (results : List (String × Firing)) (key : Uuid × String) :
    Option (String × FireData) :=
  results.foldl (fun best result =>
    match result.2.lookup key with
    | some data =>
      if severityRank (best.map Prod.fst) < severityRank (some result.1) then
        some (result.1, data)
      else best
    | none => best) none

variable (defn : AlertDefinition)

/-- `_expression_for_severity`. -/
def expressionForSeverity (severity : Option String) : String :=
  let named := severity.bind fun sev => defn.tiers.find? fun tier => sev ≠ "" ∧ tier.severity = sev
  ((named.or defn.tiers.head?).bind SeverityTier.expression).getD ""

def healthyExpression : String :=
  ((defn.tiers.filter fun tier => tier.severity = "healthy").filterMap
    SeverityTier.text).getLast?.getD ""

/-- `_build_log_record`. -/
def buildLogRecord (e : AlertEntity) (action : LogAction)
    (now : Timestamp) : LogRecord where
  action
  assignmentId := e.assignmentId
  deviceId := e.deviceId
  deviceName := (e.entityLabels.lookup "device_name").getD ""
  entityKey := e.entityKey
  severity := if action = .clear then "healthy" else e.severity.getD ""
  currentValue := e.currentValue.getD 0
  thresholdValue :=
    match e.thresholdValues.head? with
    | some (_, .float value) => value
    | _ => 0
  expression :=
    if action = .clear then healthyExpression defn else expressionForSeverity defn e.severity
  entityLabels := e.entityLabels
  fireCount := e.fireCount
  metricValues := e.metricValues
  thresholdValues := e.thresholdValues
  occurredAt := now

/-- The history of an entity keeps the last twenty evaluations. -/
def pushHistory (history : List Bool) (fired : Bool) : List Bool :=
  history.drop (history.length - 19) ++ [fired]

def AlertEntity.evaluatedAt (now : Timestamp) : AlertEntity :=
  { e with lastEvaluatedAt := some now }

/-- `_refresh_from_healthy`. -/
def AlertEntity.refreshFromHealthy (healthy : Firing) : AlertEntity :=
  match healthy.lookup e.key with
  | some data => { e with
      currentValue := data.value
      metricValues := data.metricValues
      thresholdValues := data.thresholdValues }
  | none => { e with currentValue := none, metricValues := [], thresholdValues := [] }

def AlertEntity.resolve (healthy : Firing) (now : Timestamp) : AlertEntity :=
  { e with
    state := .resolved
    severity := none
    lastClearedAt := some now
    fireCount := 0 }.refreshFromHealthy healthy

/-- No tier returned the entity's key. A healthy tier with an expression has to return it
before the entity is cleared; without one the entity is cleared at once. -/
def clearEntity (now : Timestamp) (hasHealthy : Bool)
    (healthy : Firing) (e : AlertEntity) : AlertEntity × List LogRecord :=
  if hasHealthy then
    if e.key ∈ healthy.keys ∧ e.state = .firing then
      let e := { e with
        fireHistory := pushHistory e.fireHistory false
        currentStateSince := none }.resolve healthy now
      (e, [buildLogRecord defn e .clear now])
    else (e, [])
  else
    let e := { e with fireHistory := pushHistory e.fireHistory false }
    if e.state = .firing then
      let e := e.resolve healthy now
      (e, [buildLogRecord defn e .clear now])
    else (e, [])

/-- A tier returned the entity's key. -/
def fireEntity (now : Timestamp) (severity : String) (data : FireData)
    (e : AlertEntity) : AlertEntity × List LogRecord :=
  let e := { e with
    fireHistory := pushHistory e.fireHistory true
    currentValue := data.value
    entityLabels := if data.labels ≠ [] then data.labels else e.entityLabels
    metricValues := data.metricValues
    thresholdValues := data.thresholdValues
    lastTriggeredAt := some now }
  if e.state ≠ .firing then
    let e := { e with
      state := .firing
      severity := some severity
      startedFiringAt := some now
      currentStateSince := some now
      fireCount := 1 }
    (e, [buildLogRecord defn e .fire now])
  else
    let cmp := severityRank (some severity) - severityRank e.severity
    if cmp ≠ 0 then
      let e := { e with
        severity := some severity
        currentStateSince := some now
        fireCount := 1 }
      (e, [buildLogRecord defn e (if cmp > 0 then .escalate else .downgrade) now])
    else ({ e with fireCount := e.fireCount + 1 }, [])

/-- The body of the loop over the entities. -/
def updateEntity (now : Timestamp) (freshAids : List Uuid)
    (results : List (String × Firing)) (hasHealthy : Bool) (healthy : Firing) (e : AlertEntity) :
    AlertEntity × List LogRecord :=
  if e.assignmentId ∉ freshAids then (e, [])
  else
    match effectiveTier results e.key with
    | none => clearEntity defn now hasHealthy healthy (e.evaluatedAt now)
    | some (severity, data) => fireEntity defn now severity data (e.evaluatedAt now)

/-! ### One evaluation -/

/-- What an evaluation reads besides the definition and its entities. -/
structure Cycle where
  clickHouse : ClickHouse
  thresholdVars : Variables
  now : Timestamp

def evaluateCompiled (defn : AlertDefinition) (compiled : CompiledDefinition)
    (instances : List AlertEntity) (c : Cycle) :
    Except QueryFailure (List AlertEntity × List LogRecord) := do
  let isConfigChanged := compiled.isConfigChanged
  let freshAids := freshAssignments c.clickHouse table instances isConfigChanged
  let (results, instances) ←
    evaluateTiers c.clickHouse isConfigChanged c.thresholdVars 0 compiled.tiers instances
  let (healthy, instances) :=
    evaluateHealthy c.clickHouse isConfigChanged c.thresholdVars compiled.healthy instances
  let updated := instances.map
    (updateEntity defn c.now freshAids results compiled.healthy.isSome healthy)
  return (updated.map Prod.fst, updated.flatMap Prod.snd)

/-- `_evaluate_definition`: a definition that does not compile, raises nothing or has no
entity is skipped. -/
def evaluateDefinition (defn : AlertDefinition) (instances : List AlertEntity)
    (c : Cycle) : Except QueryFailure (List AlertEntity × List LogRecord) :=
  match compileDefinition table defn with
  | none => .ok (instances, [])
  | some compiled =>
    if compiled.tiers = [] ∨ instances = [] then .ok (instances, [])
    else evaluateCompiled table defn compiled instances c

/-- The entities as the session writes them back. -/
def Entities.commit (entities : Entities) (updated : List AlertEntity) : List AlertEntity :=
  entities.rows.map fun e => (updated.find? (·.assignmentId = e.assignmentId)).getD e

/-- `_evaluate_definition_isolated`: the entities the session leaves, and the records for the
alert log. An exception rolls the session back. -/
def evaluateDefinitionIsolated (defn : AlertDefinition) (entities : Entities)
    (c : Cycle) : List AlertEntity × List LogRecord :=
  match evaluateDefinition table defn entities.enabled c with
  | .ok (updated, records) => (entities.commit updated, records)
  | .error _ => (entities.rows, [])

end MonCTL.Alerting
