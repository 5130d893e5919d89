import MonCTL.Alerting.ThresholdSync
import MonCTL.Dsl.Printer
import MonCTL.Lib.Http
import MonCTL.Lib.PyInt
import MonCTL.Lib.Table

/-!
# The Alerting API

The endpoints for alert definitions, for the entities that they are evaluated for, for overrides of
thresholds, and for the history of alerts. A caller who is restricted to some tenants has a list of
their ids.

A request is one whose fields have passed their checks. Of a row the columns that are only shown are
one text; rows come in the order of their table where no order is asked for. What the databases
decide (`ILIKE`, the order of values) is given, and so is the text of a definition's tiers, in which
they are searched.
-/

namespace MonCTL.Alerting.Router

open Dsl

/-! ### Tables -/

structure Device where
  name : String
  tenantId : Option String

structure App where
  name : String
  targetTable : String

structure AlertDefinition where
  appId : ℕ
  name : String
  description : Option String := none
  severityTiers : List SeverityTier
  window : String
  enabled : Bool
  packOrigin : Option String := none
  createdAt : ℕ
  updatedAt : ℕ
  deriving DecidableEq

structure AppAssignment where
  appId : ℕ
  deviceId : Option ℕ
  enabled : Bool

structure AlertEntity where
  definitionId : ℕ
  assignmentId : ℕ
  deviceId : Option ℕ
  enabled : Bool
  state : String := "ok"
  currentValue : Option ℚ := none
  fireCount : ℕ := 0
  startedFiringAt : Option ℕ := none
  currentStateSince : Option ℕ := none
  lastTriggeredAt : Option ℕ := none
  lastClearedAt : Option ℕ := none
  entityKey : String := ""
  details : String := ""
  deriving DecidableEq

structure ThresholdVariable where
  appId : ℕ
  name : String
  defaultValue : ℚ

structure ThresholdOverride where
  variableId : ℕ
  deviceId : ℕ
  entityKey : String
  value : ℚ
  createdAt : ℕ
  updatedAt : ℕ
  deriving DecidableEq

/-- A row of the alert history. -/
structure LogRow where
  definitionId : String
  definitionName : String
  entityKey : String
  action : String
  severity : String
  deviceId : String
  deviceName : String
  tenantId : String
  fireCount : ℕ
  message : String
  occurredAt : ℕ
  details : String
  deriving DecidableEq

/-- The tables, and the setting `alert_history_retention_days`. -/
structure State where
  devices : Table ℕ Device := {}
  apps : Table ℕ App := {}
  definitions : Table ℕ AlertDefinition := {}
  assignments : Table ℕ AppAssignment := {}
  entities : Table ℕ AlertEntity := {}
  thresholds : Table ℕ ThresholdVariable := {}
  overrides : Table ℕ ThresholdOverride := {}
  log : List LogRow := []
  retention : Option String := none

/-! ### Queries -/

/-- A value of a column. -/
inductive SqlValue
  | null
  | bool (b : Bool)
  | number (q : ℚ)
  | text (s : String)
  | time (t : ℕ)

/-- What is given: `ILIKE` and the order of values in both databases, the text of tiers, and
`str.upper`. -/
structure Setting where
  ilike : String → String → Bool
  le : SqlValue → SqlValue → Bool
  logIlike : String → String → Bool
  logLe : SqlValue → SqlValue → Bool
  tiersText : List SeverityTier → String
  upper : String → String

variable (c : Setting)

/-- `apply_tenant_filter`. -/
def tenantFilter (tenantIds : Option (List String)) (tenantId : Option String) : Bool :=
  match tenantIds with
  | none => true
  | some ids => tenantId.any (· ∈ ids)

/-- A filter that is given, and not empty. -/
def given (value : Option String) (p : String → Bool) : Bool :=
  (value.filter (· ≠ "")).all p

/-- `ilike_filter`, of a column that may be `NULL`. -/
def ilikeFilter (value : Option String) (column : Option String) : Bool :=
  given value fun text => match text.toList with
    | '!' :: rest => column.all fun x => !c.ilike x (String.ofList rest)
    | '\\' :: '!' :: rest => column.any fun x => c.ilike x (String.ofList ('!' :: rest))
    | _ => column.any fun x => c.ilike x text

/-- `ORDER BY`, which keeps the order of rows with one value. -/
def orderBy {α : Type} (le : SqlValue → SqlValue → Bool) (column : α → SqlValue)
    (descending : Bool) (rows : List α) : List α :=
  rows.mergeSort fun a b =>
    if descending then le (column b) (column a) else le (column a) (column b)

/-- `LIMIT` and `OFFSET`. -/
def paginate {α : Type} (limit offset : ℕ) (rows : List α) : List α :=
  (rows.drop offset).take limit

/-- A value that may be missing. -/
def nullable {α : Type} (f : α → SqlValue) (value : Option α) : SqlValue := (value.map f).getD .null

/-! ### Definitions -/

/-- `_display_state`. -/
def displayState (state : String) : Option String :=
  if state = "firing" then some "active" else if state = "resolved" then some "cleared" else none

/-- `_fmt_definition`. -/
structure DefinitionView where
  id : ℕ
  definition : AlertDefinition
  appName : Option String
  counts : Option (ℕ × ℕ)
  deriving DecidableEq

/-- `_fmt_entity`. -/
structure EntityView where
  id : ℕ
  entity : AlertEntity
  displayState : Option String
  deriving DecidableEq

/-- `_fmt_entity`, of a row. -/
def fmtEntity (row : ℕ × AlertEntity) : EntityView where
  id := row.1
  entity := row.2
  displayState := displayState row.2.state

/-- The filters, the order and the page of a list of definitions. -/
structure DefinitionFilter where
  appId : Option ℕ := none
  name : Option String := none
  expression : Option String := none
  sortBy : String := "name"
  sortDir : String := "asc"
  limit : ℕ := 50
  offset : ℕ := 0

/-- The definitions that are asked for. -/
def DefinitionFilter.selects (f : DefinitionFilter) (d : AlertDefinition) : Bool :=
  f.appId.all (· = d.appId) && ilikeFilter c f.name (some d.name) &&
    ilikeFilter c f.expression (some (c.tiersText d.severityTiers))

/-- `SORT_MAP`, of definitions. -/
def definitionColumn (sortBy : String) (d : AlertDefinition) : SqlValue :=
  if sortBy = "enabled" then .bool d.enabled
  else if sortBy = "created_at" then .time d.createdAt
  else .text d.name

namespace State

variable (s : State)

/-- How many entities a definition has, and how many of them are firing; nothing is shown if there
are no entities at all. -/
def instanceCounts : Option (ℕ → ℕ × ℕ) :=
  if s.entities.rows = [] then none
  else some fun id => (s.entities.rows.countP (·.2.definitionId = id),
    s.entities.rows.countP fun row => row.2.definitionId = id && row.2.state = "firing")

/-- `_fmt_definition`. -/
def fmtDefinition (counts : Option (ℕ → ℕ × ℕ)) (row : ℕ × AlertDefinition) : DefinitionView where
  id := row.1
  definition := row.2
  appName := (s.apps.get? row.2.appId).map App.name
  counts := counts.map fun f => f row.1

/-- The definitions that are asked for. -/
def selectedDefinitions (f : DefinitionFilter) : List (ℕ × AlertDefinition) :=
  s.definitions.rows.filter fun row => f.selects c row.2

/-! ### Entities -/

end State

/-- An entity with the rows that a query joins. -/
structure Joined where
  id : ℕ
  entity : AlertEntity
  definition : Option AlertDefinition
  app : Option App
  device : Option Device

/-- An entity as it is listed. -/
structure InstanceView where
  entity : EntityView
  definition : Option (String × List SeverityTier)
  appName : Option String
  deviceName : Option String
  deriving DecidableEq

/-- The filters, the order and the page of a list of entities. -/
structure InstanceFilter where
  state : Option String := none
  deviceId : Option ℕ := none
  definitionId : Option ℕ := none
  definitionName : Option String := none
  appName : Option String := none
  deviceName : Option String := none
  entityKey : Option String := none
  sortBy : String := "state"
  sortDir : String := "desc"
  limit : ℕ := 50
  offset : ℕ := 0

/-- The entities that are asked for. -/
def InstanceFilter.selects (f : InstanceFilter) (i : Joined) : Bool :=
  i.definition.isSome && i.app.isSome && given f.state (· = i.entity.state) &&
    f.deviceId.all (some · = i.entity.deviceId) && f.definitionId.all (· = i.entity.definitionId) &&
    ilikeFilter c f.definitionName (i.definition.map AlertDefinition.name) &&
    ilikeFilter c f.appName (i.app.map App.name) &&
    ilikeFilter c f.deviceName (i.device.map Device.name) &&
    ilikeFilter c f.entityKey (some i.entity.entityKey)

/-- `_SORT_MAP`, of entities. -/
def instanceColumn (sortBy : String) (i : Joined) : SqlValue :=
  if sortBy = "definition_name" then nullable .text (i.definition.map AlertDefinition.name)
  else if sortBy = "app_name" then nullable .text (i.app.map App.name)
  else if sortBy = "device_name" then nullable .text (i.device.map Device.name)
  else if sortBy = "entity_key" then .text i.entity.entityKey
  else if sortBy = "current_value" then nullable .number i.entity.currentValue
  else if sortBy = "fire_count" then .number i.entity.fireCount
  else if sortBy = "started_firing_at" then nullable .time i.entity.startedFiringAt
  else if sortBy = "current_state_since" then nullable .time i.entity.currentStateSince
  else if sortBy = "last_triggered_at" then nullable .time i.entity.lastTriggeredAt
  else .text i.entity.state

namespace State

variable (s : State)

/-- An entity is joined with its definition, the app of it, and its device. -/
def joined (row : ℕ × AlertEntity) : Joined where
  id := row.1
  entity := row.2
  definition := s.definitions.get? row.2.definitionId
  app := (s.definitions.get? row.2.definitionId).bind fun d => s.apps.get? d.appId
  device := row.2.deviceId.bind s.devices.get?

variable (tenantIds : Option (List String))

/-- The entities of devices that the caller may see. -/
def visible : List Joined :=
  (s.entities.rows.map s.joined).filter fun i => tenantFilter tenantIds (i.device.bind Device.tenantId)

/-- An entity as it is listed, with the device of its assignment. -/
def enrich (i : Joined) : InstanceView where
  entity := fmtEntity (i.id, i.entity)
  definition := i.definition.map fun d => (d.name, d.severityTiers)
  appName := i.definition.map fun _ => (i.app.map App.name).getD ""
  deviceName := (s.assignments.get? i.entity.assignmentId).bind fun a =>
    a.deviceId.map fun id => ((s.devices.get? id).map Device.name).getD ""

/-- The entities that are listed: those that are asked for, those that are firing, or those that
have been cleared since a time. -/
def selectedInstances (f : InstanceFilter) : List Joined :=
  (s.visible tenantIds).filter (f.selects c)

/-- The page of the entities that are asked for. -/
def instancePage (f : InstanceFilter) : List Joined :=
  paginate f.limit f.offset
    (orderBy c.le (instanceColumn f.sortBy) (f.sortDir = "desc") (s.selectedInstances c tenantIds f))

/-- The entities that are firing. -/
def activeInstances : List Joined :=
  (s.visible tenantIds).filter (·.entity.state = "firing")

/-- The entities that have been cleared since a time. -/
def resolvedInstances (cutoff : ℤ) (deviceId : Option ℕ)
    (limit : ℕ) : List Joined :=
  paginate limit 0 (orderBy c.le (fun i => nullable .time i.entity.lastClearedAt) true
    ((s.visible tenantIds).filter fun i => i.entity.state = "resolved" &&
      i.entity.lastClearedAt.any (fun t => cutoff ≤ t) &&
      deviceId.all (some · = i.entity.deviceId)))

end State

/-! ### The history -/

/-- The filters, the order and the page of the history. -/
structure LogFilter where
  definitionId : Option String := none
  entityKey : Option String := none
  deviceId : Option String := none
  action : Option String := none
  definitionName : Option String := none
  deviceName : Option String := none
  message : Option String := none
  fromTs : Option ℕ := none
  toTs : Option ℕ := none
  sortBy : String := "occurred_at"
  sortDir : String := "DESC"
  limit : ℕ := 100
  offset : ℕ := 0

def isUuidText (text : String) : Bool :=
  text.toList.all fun ch => ch ∈ "0123456789abcdefABCDEF-".toList

/-- The tenants of a history query. -/
def logTenants (tenantIds : Option (List String)) (tenantId : String) : Bool :=
  tenantIds.all fun ids => tenantId ∈ ids.filter isUuidText

/-- `_build_alert_log_filters`, but for the tenants. -/
def LogFilter.selects (f : LogFilter) (row : LogRow) : Bool :=
  given f.definitionId (· = row.definitionId) && given f.entityKey (c.logIlike row.entityKey) &&
    given f.deviceId (· = row.deviceId) && given f.action (· = row.action) &&
    given f.definitionName (c.logIlike row.definitionName) &&
    given f.deviceName (c.logIlike row.deviceName) && given f.message (c.logIlike row.message) &&
    f.fromTs.all (· ≤ row.occurredAt) && f.toTs.all (row.occurredAt ≤ ·)

def logColumn (sortBy : String) (row : LogRow) : SqlValue :=
  if sortBy = "severity" then .text row.severity
  else if sortBy = "action" then .text row.action
  else if sortBy = "definition_name" then .text row.definitionName
  else if sortBy = "device_name" then .text row.deviceName
  else if sortBy = "entity_key" then .text row.entityKey
  else if sortBy = "fire_count" then .number row.fireCount
  else .time row.occurredAt

/-! ### Reads -/

/-- A request that reads. -/
inductive Read
  | definitions (f : DefinitionFilter)
  | definition (id : ℕ)
  | instances (f : InstanceFilter)
  | active
  | resolved (limit : ℕ) (deviceId : Option ℕ)
  | overrides (deviceId variableId : Option ℕ)
  | log (f : LogFilter)
  | validate (expression targetTable : String)
  | invert (id : ℕ)

inductive Response
  | definitions (data : List DefinitionView) (total : ℕ)
  | definition (data : DefinitionView) (entities : List EntityView)
  | instances (data : List InstanceView) (total : ℕ)
  | active (data : List InstanceView)
  | resolved (data : List InstanceView) (retentionDays : ℤ)
  | overrides (data : List (ℕ × ThresholdOverride))
  | log (data : List LogRow) (total : ℕ)
  | validation (result : ValidationResult)
  | inverted (suggestedName inverted original window : String) (appId : ℕ)
  | error (e : HttpError)
  deriving DecidableEq

namespace State

variable (s : State)

/-- `list_alert_definitions`. -/
def listAlertDefinitions (f : DefinitionFilter) : Response :=
  let page := paginate f.limit f.offset (orderBy c.le (fun row => definitionColumn f.sortBy row.2)
    (f.sortDir = "desc") (s.selectedDefinitions c f))
  .definitions (page.map (s.fmtDefinition s.instanceCounts)) (s.selectedDefinitions c f).length

/-- `get_alert_definition`. -/
def getAlertDefinition (id : ℕ) : Response :=
  match s.definitions.get? id with
  | none => .error ⟨404, "Not found"⟩
  | some d => .definition (s.fmtDefinition none (id, d))
      ((s.entities.rows.filter (·.2.definitionId = id)).map fmtEntity)

/-- `list_alert_instances`. -/
def listAlertInstances (tenantIds : Option (List String)) (f : InstanceFilter) : Response :=
  .instances ((s.instancePage c tenantIds f).map s.enrich) (s.selectedInstances c tenantIds f).length

/-- `list_active_instances`. -/
def listActiveInstances (tenantIds : Option (List String)) : Response :=
  .active ((s.activeInstances tenantIds).map s.enrich)

/-- The number of days for which cleared entities are listed. -/
def retentionDays : Option ℤ :=
  match s.retention with
  | none => some 7
  | some value => parseInt value

def dayMicros : ℤ := 86400000000

/-- `list_resolved_instances`. -/
def listResolvedInstances (now : ℕ) (tenantIds : Option (List String)) (limit : ℕ)
    (deviceId : Option ℕ) : Response :=
  match s.retentionDays with
  | none => .error ⟨500, "Internal Server Error"⟩
  | some days => .resolved
      ((s.resolvedInstances c tenantIds (now - days * dayMicros) deviceId limit).map s.enrich) days

/-- `list_threshold_overrides`. -/
def listThresholdOverrides (deviceId variableId : Option ℕ) : Response :=
  .overrides (s.overrides.rows.filter fun row =>
    deviceId.all (· = row.2.deviceId) && variableId.all (· = row.2.variableId))

/-- `query_alert_log`. -/
def queryAlertLog (tenantIds : Option (List String)) (f : LogFilter) : Response :=
  let rows := (s.log.filter fun row => logTenants tenantIds row.tenantId).filter (f.selects c)
  .log (paginate f.limit f.offset
    (orderBy c.logLe (logColumn f.sortBy) (c.upper f.sortDir = "DESC") rows)) rows.length

/-- `invert_alert_definition`. -/
def invertAlertDefinition (id : ℕ) : Response :=
  match s.definitions.get? id with
  | none => .error ⟨404, "Definition not found"⟩
  | some d => match d.severityTiers.getLast? with
      | none => .error ⟨400, "Definition has no severity_tiers"⟩
      | some tier => match tier.expression.bind invertExpression with
          | none => .error ⟨400, "Cannot invert expression"⟩
          | some inverted => .inverted (d.name ++ " — Recovery") inverted (tier.expression.getD "")
              d.window d.appId

def read (now : ℕ) (tenantIds : Option (List String)) : Read → Response
  | .definitions f => s.listAlertDefinitions c f
  | .definition id => s.getAlertDefinition id
  | .instances f => s.listAlertInstances c tenantIds f
  | .active => s.listActiveInstances tenantIds
  | .resolved limit deviceId => s.listResolvedInstances c now tenantIds limit deviceId
  | .overrides deviceId variableId => s.listThresholdOverrides deviceId variableId
  | .log f => s.queryAlertLog c tenantIds f
  | .validate expression targetTable =>
    .validation (validateExpression expression targetTable none none none)
  | .invert id => s.invertAlertDefinition id

end State

/-! ### Writes -/

/-- A request that writes. -/
inductive Write
  | createDefinition (r : AlertDefinition)
  | updateDefinition (id : ℕ) (tiers : Option (List SeverityTier))
      (name description window : Option String) (enabled : Option Bool)
  | deleteDefinition (id : ℕ)
  | updateInstance (id : ℕ) (enabled : Bool)
  | createOverride (variableId deviceId : ℕ) (entityKey : String) (value : ℚ)
  | updateOverride (id : ℕ) (value : ℚ)
  | deleteOverride (id : ℕ)
  | cleanup

/-- The answer to the first tier whose expression is not valid. -/
def invalidTier (table : String) (tiers : List SeverityTier) : Option HttpError :=
  tiers.zipIdx.findSome? fun tier => tier.1.text.bind fun e =>
    let validation := validateExpression e table none none none
    if validation.valid then none
    else some ⟨400, s!"severity_tiers[{tier.2}] invalid expression: " ++
      (validation.errors.head?).getD "None"⟩

/-- What the sync does for one reference: an inline one writes its number. -/
def syncRef (appId : ℕ) (thresholds : Table ℕ ThresholdVariable) (ref : ThresholdRefInfo) :
    Table ℕ ThresholdVariable :=
  if ref.isNamed then thresholds
  else match thresholds.rows.find? fun row => row.2.appId = appId ∧ row.2.name = ref.name with
    | none => thresholds.add ⟨appId, ref.name, ref.inlineValue.getD 0⟩
    | some row => thresholds.modify row.1 fun v => { v with defaultValue := ref.inlineValue.getD 0 }

/-- The loop of the sync: each reference once, by name and kind. -/
def syncRefs (appId : ℕ) : List (String × Bool) → List ThresholdRefInfo →
    Table ℕ ThresholdVariable → Table ℕ ThresholdVariable
  | _, [], thresholds => thresholds
  | seen, ref :: refs, thresholds =>
    if (ref.name, ref.isNamed) ∈ seen then syncRefs appId seen refs thresholds
    else syncRefs appId ((ref.name, ref.isNamed) :: seen) refs (syncRef appId thresholds ref)

def newEntity (definitionId : ℕ) (enabled : Bool) (assignment : ℕ × AppAssignment) :
    AlertEntity where
  definitionId
  assignmentId := assignment.1
  deviceId := assignment.2.deviceId
  enabled

/-- The entity of an assignment is added, if there is none. -/
def syncAssignment (definitionId : ℕ) (enabled : Bool) (entities : Table ℕ AlertEntity)
    (assignment : ℕ × AppAssignment) : Table ℕ AlertEntity :=
  if entities.rows.any fun row =>
      row.2.definitionId = definitionId && row.2.assignmentId = assignment.1 then entities
  else entities.add (newEntity definitionId enabled assignment)

namespace State

variable (s : State)

/-- `sync_threshold_variables`. -/
def syncThresholdVariables (appId : ℕ) (table window : String) (tiers : List SeverityTier) :
    State :=
  { s with thresholds := syncRefs appId [] (definitionRefs table ⟨tiers, window⟩) s.thresholds }

/-- `sync_instances_for_definition`. -/
def syncInstancesForDefinition (definitionId : ℕ) (d : AlertDefinition) : State :=
  { s with entities := (s.assignments.rows.filter fun row =>
      row.2.appId = d.appId && row.2.enabled).foldl (syncAssignment definitionId d.enabled) s.entities }

/-- The name of a definition is that of another one of the app. -/
def nameTaken (id appId : ℕ) (name : String) : Bool :=
  s.definitions.rows.any fun row => row.1 ≠ id && row.2.appId = appId && row.2.name = name

/-- `create_alert_definition`. -/
def createAlertDefinition (now : ℕ) (r : AlertDefinition) : Except HttpError State :=
  match s.apps.get? r.appId with
  | none => .error ⟨404, "App not found"⟩
  | some app =>
    match invalidTier app.targetTable r.severityTiers with
    | some e => .error e
    | none =>
      if s.nameTaken s.definitions.fresh r.appId r.name then .error integrityError
      else
        let d := { r with packOrigin := none, createdAt := now, updatedAt := now }
        let added := { s with definitions := s.definitions.add d }
        .ok ((added.syncThresholdVariables r.appId app.targetTable r.window
          r.severityTiers).syncInstancesForDefinition s.definitions.fresh d)

/-- A definition after an update. -/
def editedDefinition (now : ℕ) (d : AlertDefinition) (tiers : Option (List SeverityTier))
    (name description window : Option String) (enabled : Option Bool) : AlertDefinition :=
  { d with
    severityTiers := tiers.getD d.severityTiers
    name := name.getD d.name
    description := description.or d.description
    window := window.getD d.window
    enabled := enabled.getD d.enabled
    updatedAt := now }

def targetTable (appId : ℕ) : String :=
  ((s.apps.get? appId).map App.targetTable).getD "availability_latency"

/-- `update_alert_definition`. -/
def updateAlertDefinition (now id : ℕ) (tiers : Option (List SeverityTier))
    (name description window : Option String) (enabled : Option Bool) : Except HttpError State :=
  match s.definitions.get? id with
  | none => .error ⟨404, "Not found"⟩
  | some d =>
    match tiers.bind (invalidTier (s.targetTable d.appId)) with
    | some e => .error e
    | none =>
      if s.nameTaken id d.appId (name.getD d.name) then .error integrityError
      else
        let synced := match tiers with
          | none => s
          | some tiers => s.syncThresholdVariables d.appId (s.targetTable d.appId) d.window tiers
        .ok { synced with definitions := s.definitions.modify id fun d =>
          editedDefinition now d tiers name description window enabled }

/-- `delete_alert_definition`. The entities of the definition go with it. -/
def deleteAlertDefinition (id : ℕ) : Except HttpError State :=
  match s.definitions.get? id with
  | none => .error ⟨404, "Not found"⟩
  | some _ => .ok { s with
      definitions := s.definitions.erase id
      entities := s.entities.filterMapRows fun _ e => if e.definitionId = id then none else some e }

/-- `update_alert_instance`. -/
def updateAlertInstance (id : ℕ) (enabled : Bool) : Except HttpError State :=
  match s.entities.get? id with
  | none => .error ⟨404, "Not found"⟩
  | some _ => .ok { s with entities := s.entities.modify id fun e => { e with enabled } }

/-- There is an override already. -/
def overridden (variableId deviceId : ℕ) (entityKey : String) : Bool :=
  s.overrides.rows.any fun row => row.2.variableId = variableId && row.2.deviceId = deviceId &&
    row.2.entityKey = entityKey

/-- `create_threshold_override`. -/
def createThresholdOverride (now variableId deviceId : ℕ) (entityKey : String) (value : ℚ) :
    Except HttpError State :=
  match s.thresholds.get? variableId with
  | none => .error ⟨404, "Threshold variable not found"⟩
  | some _ =>
    if s.devices.get? deviceId = none ∨ s.overridden variableId deviceId entityKey = true then
      .error integrityError
    else .ok { s with
      overrides := s.overrides.add ⟨variableId, deviceId, entityKey, value, now, now⟩ }

/-- `update_threshold_override`. -/
def updateThresholdOverride (now id : ℕ) (value : ℚ) : Except HttpError State :=
  match s.overrides.get? id with
  | none => .error ⟨404, "Not found"⟩
  | some _ => .ok { s with
      overrides := s.overrides.modify id fun o => { o with value, updatedAt := now } }

/-- `delete_threshold_override`. -/
def deleteThresholdOverride (id : ℕ) : Except HttpError State :=
  match s.overrides.get? id with
  | none => .error ⟨404, "Not found"⟩
  | some _ => .ok { s with overrides := s.overrides.erase id }

/-- A threshold variable is referred to by a definition of its app. -/
def referenced (v : ThresholdVariable) : Bool :=
  s.definitions.rows.any fun row => row.2.appId = v.appId && row.2.severityTiers.any fun tier =>
    tier.text.any fun e =>
      let validation := validateExpression e "" none none none
      validation.thresholdRefs.any (·.name = v.name) ||
        validation.thresholdParams.any (·.name = v.name)

/-- `cleanup_orphan_threshold_variables`. -/
def cleanupOrphanThresholdVariables : State :=
  { s with thresholds := s.thresholds.filterMapRows fun id v =>
      if s.referenced v || s.overrides.rows.any (·.2.variableId = id) then some v else none }

/-- A request that writes. -/
def write (now : ℕ) : Write → Except HttpError State
  | .createDefinition r => s.createAlertDefinition now r
  | .updateDefinition id tiers name description window enabled =>
    s.updateAlertDefinition now id tiers name description window enabled
  | .deleteDefinition id => s.deleteAlertDefinition id
  | .updateInstance id enabled => s.updateAlertInstance id enabled
  | .createOverride variableId deviceId entityKey value =>
    s.createThresholdOverride now variableId deviceId entityKey value
  | .updateOverride id value => s.updateThresholdOverride now id value
  | .deleteOverride id => s.deleteThresholdOverride id
  | .cleanup => .ok s.cleanupOrphanThresholdVariables

end State

end MonCTL.Alerting.Router
