import MonCTL.Lib.Http
import MonCTL.Lib.PyInt
import MonCTL.Lib.Runs
import MonCTL.Lib.Table
import MonCTL.Lib.Uuid

/-!
# App Assignments

An assignment runs a version of an app on a schedule, for a device or on a collector. It is made or
changed by requests of operators, one by one or in bulk, by templates, and by the discovery, and
each of these checks what it writes in its own way.

A request that fails changes nothing. So does a template, unless it is applied by the discovery,
which goes on with what has been written before the exception. Configurations, credentials, labels,
interface rules, resource limits and connector bindings are left out, and so is what only the
database refuses (lengths, unique configurations, rows that are not there), but for the type of a
column. A request for several devices applies its template to one after the other.
-/

namespace MonCTL.Apps

open List Option StateExcept

/-! ### Intervals -/

/-- `_INTERVAL_UNITS`, in either case. -/
def intervalUnit : Char → Option ℕ
  | 's' | 'S' => some 1
  | 'm' | 'M' => some 60
  | 'h' | 'H' => some 3600
  | 'd' | 'D' => some 86400
  | _ => none

variable (value : String)

/-- `parse_interval`. An integer of more than 4300 digits is not read. -/
def parseInterval : Option ℕ :=
  let (digits, rest) := (value.toList.dropWhile isPySpace).span isPyDigit
  if digits = [] ∨ 4300 < digits.length then none
  else
    let num := digitsValue (digits.map asciiDigit)
    match rest.dropWhile isPySpace with
    | [] => some num
    | c :: rest => if rest.all isPySpace then (intervalUnit c).map (num * ·) else none

/-- The text of an interval that is not too short or too long. -/
def normalizeInterval : Option String :=
  (parseInterval value).bind fun seconds =>
    if seconds < 10 ∨ seconds > 604800 then none else some (toString seconds)

/-- `any(c.isspace() for c in value)`. -/
def hasSpace : Bool := value.toList.any isPySpace

/-- A text is an interval in seconds. -/
def ValidInterval : Prop := ∃ n ∈ parseInt value, 10 ≤ n ∧ n ≤ 604800
  deriving Decidable

theorem validInterval_toString {n : ℕ} (h : 10 ≤ n) (h' : n ≤ 604800) : ValidInterval
    (toString n) :=
  ⟨n, parseInt_toString n, by omega, by omega⟩

theorem validInterval_of_normalize {value value' : String}
    (h : normalizeInterval value = some value') :
    ValidInterval value' := by
  obtain ⟨seconds, -, h⟩ := bind_eq_some_iff.1 h
  split at h
  · cases h
  next hbounds =>
    cases h
    exact validInterval_toString (by omega) (by omega)

/-! ### What is there -/

structure App where
  id : Uuid
  name : String
  targetTable : String

structure AppVersion where
  id : Uuid
  appId : Uuid
  isLatest : Bool := false

/-- What the operations read and do not change: the apps; the versions, the one that has been
published last first; the collectors with their groups; the connector types of an app's unfilled
slots; and how Python writes values that are no text, integer or Boolean. -/
structure Catalogue where
  apps : List App
  versions : List AppVersion
  collectors : List (Uuid × Option Uuid) := []
  unfilledSlots : Uuid → List String := fun _ => []
  repr : PyValue → String := fun _ => ""

/-- `AppAssignment`. -/
structure AppAssignment where
  appId : Uuid
  appVersionId : Uuid
  collectorId : Option Uuid := none
  clusterId : Option Uuid := none
  deviceId : Option Uuid := none
  scheduleType : String := "interval"
  scheduleValue : String := "60"
  role : Option String := none
  useLatest : Bool := false
  enabled : Bool := true

/-- The assignments, and the devices with their groups. -/
structure State where
  assignments : Table ℕ AppAssignment := {}
  groups : Dict Uuid (Option Uuid) := []

variable {s' : State} {device : Uuid} {id : ℕ} {a : AppAssignment} {version : AppVersion}

namespace State

variable (c : Catalogue) (s : State)

/-- An assignment is written. -/
def put (id : ℕ) (a : AppAssignment) : State :=
  { s with assignments := s.assignments.upsert id a fun _ => a }

def add (a : AppAssignment) : State := s.put s.assignments.fresh a

def ofApp (appId device : Uuid) : List (ℕ × AppAssignment) :=
  s.assignments.rows.filter fun e => e.2.appId = appId ∧ e.2.deviceId = some device

def ofRole (device : Uuid) (role : String) : List (ℕ × AppAssignment) :=
  s.assignments.rows.filter fun e => e.2.deviceId = some device ∧ e.2.role = some role

/-! ### Creating -/

/-- `CreateAssignmentRequest`. -/
structure CreateAssignmentRequest where
  appId : Uuid
  appVersionId : Uuid
  collectorId : Option Uuid := none
  clusterId : Option Uuid := none
  deviceId : Option Uuid := none
  scheduleType : String := "interval"
  scheduleValue : String
  role : Option String := none
  useLatest : Bool := false

def CreateAssignmentRequest.validate (r : CreateAssignmentRequest) :
    Option CreateAssignmentRequest :=
  if r.scheduleType ≠ "interval" ∧ r.scheduleType ≠ "cron" ∨ r.scheduleValue.length = 0 ∨
      32 < r.scheduleValue.length then none
  else if r.scheduleType = "interval" then
    (normalizeInterval r.scheduleValue).map fun scheduleValue => { r with scheduleValue }
  else some r

def groupOf (device : Uuid) : Option Uuid := (s.groups.get? device).join

/-- A pinned collector is one of the device's group. -/
def checkPinned (collector device : Uuid) (detail : String) : Except HttpError Unit :=
  match c.collectors.lookup collector with
  | none => .error ⟨404, s!"Collector {collector} not found"⟩
  | some group => match s.groupOf device with
      | some deviceGroup => if group = some deviceGroup then .ok () else .error ⟨400, detail⟩
      | none => .ok ()

/-- Where a new assignment is to run. -/
def checkRouting (r : CreateAssignmentRequest) : Except HttpError Unit :=
  match r.collectorId, r.clusterId, r.deviceId with
  | none, none, none =>
    .error ⟨400, "collector_id or cluster_id is required, or the device must be in a collector group"⟩
  | none, none, some device => match s.groupOf device with
      | some _ => .ok ()
      | none => .error ⟨400, "collector_id or cluster_id is required, or the device must be assigned to a collector group"⟩
  | some collector, _, some device =>
    s.checkPinned c collector device
      "Pinned collector must be a member of the device's collector group"
  | _, _, _ => .ok ()

/-- The app is not yet assigned to the device. -/
def checkDuplicate (r : CreateAssignmentRequest) : Except HttpError Unit :=
  match r.deviceId, r.collectorId with
  | some device, none => do
      match ← scalarOneOrNone (s.ofApp r.appId device) with
      | some existing => .error ⟨409, s!"App is already assigned to this device (assignment {existing.1}). " ++
          "Use PUT /assignments/\x7bid\x7d to update it."⟩
      | none => .ok ()
  | _, _ => .ok ()

/-- No assignment of the device has the role. An empty role is not looked at. -/
def checkRole (r : CreateAssignmentRequest) : Except HttpError Unit :=
  match r.role, r.deviceId with
  | some role, some device =>
    if role = "" then .ok ()
    else do
      match ← scalarOneOrNone (s.ofRole device role) with
      | some existing => .error ⟨409, s!"A '{role}' assignment already exists for this device " ++
          s!"(assignment {existing.1}). Remove it first or update it."⟩
      | none => .ok ()
  | _, _ => .ok ()

def CreateAssignmentRequest.assignment (r : CreateAssignmentRequest) : AppAssignment where
  appId := r.appId
  appVersionId := r.appVersionId
  collectorId := r.collectorId
  clusterId := r.clusterId
  deviceId := r.deviceId
  scheduleType := r.scheduleType
  scheduleValue := r.scheduleValue
  role := r.role
  useLatest := r.useLatest

/-- The app has a connector for each of its slots. -/
def checkSlots (appId : Uuid) : Except HttpError Unit :=
  match c.unfilledSlots appId with
  | [] => .ok ()
  | types => .error ⟨400, "App has unfilled connector slots: " ++ ", ".intercalate types ++
      ". Assign a connector to each slot via " ++
      "PUT /apps/\x7bapp_id\x7d/connectors/\x7bconnector_type\x7d/assign " ++
      "before creating an assignment."⟩

/-- `create_assignment`. -/
def create (r : CreateAssignmentRequest) : Except HttpError State := do
  checkSlots c r.appId
  s.checkRouting c r
  s.checkDuplicate r
  s.checkRole r
  if c.versions.any (·.id = r.appVersionId) then .ok (s.add r.assignment)
  else .error integrityError

/-! ### Updating -/

/-- What a request may change. An empty `collectorId` unpins. -/
structure UpdateAssignmentRequest where
  scheduleType : Option String := none
  scheduleValue : Option String := none
  enabled : Option Bool := none
  appVersionId : Option Uuid := none
  useLatest : Option Bool := none
  collectorId : Option (Option Uuid) := none

/-- `normalize_interval`, of a request that need not have a schedule. -/
def UpdateAssignmentRequest.normalize (r : UpdateAssignmentRequest) :
    Option UpdateAssignmentRequest :=
  match r.scheduleValue with
  | none => some r
  | some value =>
    if (r.scheduleType = none ∨ r.scheduleType = some "" ∨ r.scheduleType = some "interval") ∧
        hasSpace value = false then
      (normalizeInterval value).map fun value => { r with scheduleValue := some value }
    else some r

/-- The validators of a request to `update_assignment`. -/
def UpdateAssignmentRequest.validate (r : UpdateAssignmentRequest) :
    Option UpdateAssignmentRequest :=
  if (∃ t ∈ r.scheduleType, t ≠ "interval" ∧ t ≠ "cron") ∨
      (∃ v ∈ r.scheduleValue, v.length = 0 ∨ 32 < v.length) then none
  else r.normalize

/-- The schedule of a request, and whether the assignment is enabled and follows the latest
version. -/
def UpdateAssignmentRequest.apply (r : UpdateAssignmentRequest) (a : AppAssignment) :
    AppAssignment :=
  { a with
    scheduleType := r.scheduleType.getD a.scheduleType
    scheduleValue := r.scheduleValue.getD a.scheduleValue
    enabled := r.enabled.getD a.enabled
    useLatest := r.useLatest.getD a.useLatest }

/-- The collector that an assignment is pinned to. -/
def pin (r : UpdateAssignmentRequest) (a : AppAssignment) : Except HttpError (Option Uuid) :=
  match r.collectorId with
  | none => .ok a.collectorId
  | some none => .ok none
  | some (some collector) => match a.deviceId with
      | some device => (s.checkPinned c collector device
          "Pinned collector must be in the device's collector group").map fun _ => some collector
      | none =>
        if (c.collectors.lookup collector).isSome then .ok (some collector)
        else .error ⟨404, s!"Collector {collector} not found"⟩

/-- `update_assignment`. -/
def update (id : ℕ) (r : UpdateAssignmentRequest) : Except HttpError State :=
  match s.assignments.get? id with
  | none => .error ⟨404, "Assignment not found"⟩
  | some a => do
      let collectorId ← s.pin c r a
      let appVersionId := r.appVersionId.getD a.appVersionId
      if r.appVersionId.isNone ∨ c.versions.any (·.id = appVersionId) then
        .ok (s.put id { r.apply a with collectorId, appVersionId })
      else .error integrityError

def belongs (appVersionId appId : Uuid) : Bool :=
  c.versions.any fun v => v.id = appVersionId ∧ v.appId = appId

/-- `bulk_update_assignments`. -/
def bulkUpdate (ids : List ℕ) (r : UpdateAssignmentRequest) : Except HttpError State :=
  if ids = [] then .error ⟨400, "No assignment IDs provided"⟩
  else if 500 < ids.length then .error ⟨400, "Max 500 assignments per bulk update"⟩
  else
    let rows := s.assignments.rows.filter fun e => e.1 ∈ ids
    if rows.length ≠ ids.length then .error ⟨404, "One or more assignments not found"⟩
    else match r.appVersionId with
      | none => .ok { s with
          assignments := s.assignments.mapRows fun id a => if id ∈ ids then r.apply a else a }
      | some appVersionId => match rows.find? fun e => ¬belongs c appVersionId e.2.appId with
          | some e => .error ⟨400, s!"Version {appVersionId} does not belong to app of " ++
              s!"assignment {e.1}"⟩
          | none => .ok { s with
              assignments := s.assignments.mapRows fun id a =>
                if id ∈ ids then { r.apply a with appVersionId, useLatest := false } else a }

/-- `delete_assignment` and `bulk_delete_assignments`. -/
def delete (ids : List ℕ) : State :=
  { s with assignments := s.assignments.filterMapRows fun id a => if id ∈ ids then none else some a }

/-! ### Templates -/

/-- The table that the app of a monitoring role writes to. -/
def roleTargetTable (role : String) : String :=
  if role = "interface" then "interface" else "availability_latency"

/-- `_MONITORING_ROLES`. -/
def monitoringRoles : List String := ["availability", "latency", "interface"]

/-- An app of a template. -/
inductive TemplateItem
  | monitoring (role : String) (appName interval : PyValue)
  | generic (appName scheduleType scheduleValue role : PyValue)

abbrev Entry := Option TemplateItem

/-- The monitoring apps of a template. -/
def monitoringEntries (config : PyDict) : List Entry :=
  match config.getD "monitoring" (.dict []) with
  | .dict monitoring => monitoringRoles.flatMap fun role =>
    match PyDict.getD monitoring role .none with
    | .dict check =>
      let appName := PyDict.getD check "app_name" .none
      if appName.truthy then
        [some (.monitoring role appName (PyDict.getD check "interval_seconds" (.int 60)))]
      else []
    | check => if check.truthy then [none] else []
  | monitoring => if monitoring.truthy then [none] else []

/-- The other apps of a template. -/
def genericEntries (config : PyDict) : List Entry :=
  match (config.getD "apps" (.list [])).iter with
  | .error _ => [none]
  | .ok apps => apps.flatMap fun app => match app with
      | .dict app => match PyDict.getD app "role" .none with
          | .list _ | .dict _ => [none]
          | role =>
            if ∃ r ∈ monitoringRoles, role.beq (.str r) = true then []
            else
              let appName := PyDict.getD app "app_name" .none
              let appName := if appName.truthy then appName else PyDict.getD app "app_id" .none
              if appName.truthy then
                [some (.generic appName (PyDict.getD app "schedule_type" (.str "interval"))
                  (PyDict.getD app "schedule_value" (.str "60")) role)]
              else []
      | _ => [none]

/-- What an entry of a template comes to: it is done with, it raises, or the database turns the
transaction down. -/
inductive Outcome
  | done (s : State)
  | raises
  | refused

/-- The state after an entry that is done with. -/
def Outcome.done? : Outcome → Option State
  | .done s => some s
  | .raises | .refused => none

def text? : PyValue → Option String
  | .str text => some text
  | _ => none

/-- A text, or nothing. -/
def column? : PyValue → Option (Option String)
  | .none => some none
  | v => (text? v).map some

/-- `str`. -/
def pyStr : PyValue → String
  | .str text => text
  | .int i => toString i
  | .bool b => if b then "True" else "False"
  | v => c.repr v

def published (appName : String) : Option (App × AppVersion) :=
  (c.apps.find? (·.name = appName)).bind fun app =>
    (c.versions.find? (·.appId = app.id)).map fun version => (app, version)

def upsertFor (app : App) (device : Uuid) (new : AppAssignment)
    (update : AppAssignment → AppAssignment) : Outcome :=
  match s.ofApp app.id device with
  | [] => .done (s.add new)
  | [existing] => .done (s.put existing.1 (update existing.2))
  | _ => .raises

def monitoringAssignment (app : App) (version : AppVersion) (device : Uuid)
    (role scheduleValue : String) : AppAssignment where
  appId := app.id
  appVersionId := version.id
  deviceId := some device
  scheduleValue := scheduleValue
  role := some role
  useLatest := true

def applyItem (device : Uuid) : TemplateItem → Outcome
  | .monitoring role appName interval => match text? appName with
      | none => .refused
      | some appName => match published c appName with
          | none => .done s
          | some (app, version) =>
            if app.targetTable ≠ roleTargetTable role then .done s
            else
              s.upsertFor app device
                (monitoringAssignment app version device role (pyStr c interval))
                fun a => { a with
                  appVersionId := version.id
                  scheduleType := "interval"
                  scheduleValue := pyStr c interval
                  role := some role
                  enabled := true
                  useLatest := true }
  | .generic appName scheduleType scheduleValue role => match text? appName with
      | none => .refused
      | some appName => match published c appName with
          | none => .done s
          | some (app, version) => match text? scheduleType, text? scheduleValue, column? role with
              | some scheduleType, some scheduleValue, some role =>
                s.upsertFor app device
                  { appId := app.id, appVersionId := version.id, deviceId := some device,
                    scheduleType, scheduleValue, role, useLatest := true }
                  fun a => { a with
                    appVersionId := version.id
                    scheduleType
                    scheduleValue
                    enabled := true
                    useLatest := true }
              | _, _, _ => .refused

/-- The entries of a template, in order, up to one that raises. -/
def applyEntries (device : Uuid) : List Entry → State → Option (State × Bool)
  | [], s => some (s, true)
  | none :: _, s => some (s, false)
  | some item :: entries, s => match s.applyItem c device item with
      | .done s' => applyEntries device entries s'
      | .raises => some (s, false)
      | .refused => none

/-- The group of a template: there is none, or it is a UUID, or no one. -/
def templateGroup (config : PyDict) : Option (Option Uuid) :=
  match config.getD "default_collector_group_id" .none with
  | .str text => if text = "" then some none else (parseUuid text).map some
  | v => if v.truthy then none else some none

/-- The device is put into the group of a template. -/
def setGroup (device : Uuid) : Option Uuid → State
  | some group => { s with groups := s.groups.set device (some group) }
  | none => s

/-- `apply_config_to_device`, with what it has written when it raises. -/
def applyConfigToDevice (device : Uuid) (config : PyDict) : Option (State × Bool) :=
  match templateGroup config with
  | none => some (s, false)
  | some group =>
    applyEntries c device (monitoringEntries config ++ genericEntries config)
      (s.setGroup device group)

/-! ### Discovery, eligibility and monitoring -/

/-- `scalar_one_or_none()` of the latest version of an app. -/
def latestOf (appId : Uuid) : Except HttpError (Option AppVersion) :=
  scalarOneOrNone (c.versions.filter fun v => v.appId = appId ∧ v.isLatest = true)

def defaultAssignment (version : AppVersion) (device : Uuid) : AppAssignment where
  appId := version.appId
  appVersionId := version.id
  deviceId := some device
  useLatest := true

/-- `_auto_assign_packs`, of the apps whose vendor and eligible objects match the device. -/
def autoAssign (device : Uuid) : List Uuid → State → Except HttpError State
  | [], s => .ok s
  | appId :: apps, s => do
      match ← scalarOneOrNone (s.ofApp appId device) with
      | some _ => autoAssign device apps s
      | none => match ← latestOf c appId with
          | none => autoAssign device apps s
          | some version => autoAssign device apps (s.add (defaultAssignment version device))

/-- The devices of `auto_assign_eligible`, one after the other. -/
def assignEligible (version : AppVersion) : List Uuid → State → Except HttpError State
  | [], s => .ok s
  | device :: devices, s => do
      match ← scalarOneOrNone (s.ofApp version.appId device) with
      | some _ => assignEligible version devices s
      | none => match s.groupOf device with
          | none => assignEligible version devices s
          | some _ => assignEligible version devices (s.add (defaultAssignment version device))

/-- `auto_assign_eligible`. -/
def autoAssignEligible (appId : Uuid) (devices : List Uuid) : Except HttpError State := do
  if c.apps.any (·.id = appId) then
    match ← latestOf c appId with
    | none => .error ⟨400, "No latest version"⟩
    | some version => assignEligible version devices s
  else .error ⟨404, "App not found"⟩

/-- A check of `UpdateMonitoringRequest`: its app and its interval, from 10 to 86400 seconds. -/
structure MonitoringCheckConfig where
  appName : String
  intervalSeconds : ℕ := 60
  bounds : 10 ≤ intervalSeconds ∧ intervalSeconds ≤ 86400 := by decide

/-- The checks of a request, one role after the other. -/
def addChecks (device : Uuid) : List (String × MonitoringCheckConfig) → State →
    Except HttpError State
  | [], s => .ok s
  | (role, check) :: checks, s =>
    match c.apps.find? (·.name = check.appName) with
    | none => .error ⟨400, s!"App '{check.appName}' not found"⟩
    | some app =>
      if app.targetTable ≠ roleTargetTable role then
        .error ⟨400, s!"App '{check.appName}' targets '{app.targetTable}', " ++
          s!"not '{roleTargetTable role}'"⟩
      else match c.versions.find? (·.appId = app.id) with
        | none => .error ⟨400, s!"No version found for app '{check.appName}'"⟩
        | some version => addChecks device checks (s.add {
            appId := app.id, appVersionId := version.id, deviceId := some device,
            scheduleValue := toString check.intervalSeconds, role := some role })

/-- `update_device_monitoring`. -/
def setMonitoring (device : Uuid) (availability latency interface : Option MonitoringCheckConfig) :
    Except HttpError State :=
  match s.groups.get? device with
  | none => .error ⟨404, "Device not found"⟩
  | some none => .error ⟨400,
      "Device must be assigned to a collector group before enabling monitoring."⟩
  | some (some _) =>
    addChecks c device
      ((availability.map ("availability", ·)).toList ++ (latency.map ("latency", ·)).toList ++
        (interface.map ("interface", ·)).toList)
      { s with assignments := s.assignments.filterMapRows fun _ a =>
          if a.deviceId = some device ∧ ∃ role ∈ a.role, role ∈ monitoringRoles then none
          else some a }

/-! ### Runs -/

/-- What happens. -/
inductive Action
  | create (r : CreateAssignmentRequest)
  | update (id : ℕ) (r : UpdateAssignmentRequest)
  | bulkUpdate (ids : List ℕ) (r : UpdateAssignmentRequest)
  | delete (ids : List ℕ)
  /-- A template is applied, by the discovery or not. -/
  | applyConfig (device : Uuid) (config : PyDict) (discovery : Bool)
  | autoAssign (device : Uuid) (apps : List Uuid)
  | autoAssignEligible (app : Uuid) (devices : List Uuid)
  | setMonitoring (device : Uuid) (availability latency interface : Option MonitoringCheckConfig)

def step : Action → Option State
  | .create r => r.validate.bind fun r => (s.create c r).toOption
  | .update id r => r.validate.bind fun r => (s.update c id r).toOption
  | .bulkUpdate ids r => r.normalize.bind fun r => (s.bulkUpdate c ids r).toOption
  | .delete ids => some (s.delete ids)
  | .applyConfig device config discovery => (s.applyConfigToDevice c device config).bind fun e =>
    if e.2 || discovery then some e.1 else none
  | .autoAssign device apps => (autoAssign c device apps s).toOption
  | .autoAssignEligible app devices => (s.autoAssignEligible c app devices).toOption
  | .setMonitoring device availability latency interface =>
    (s.setMonitoring c device availability latency interface).toOption

/-- Two assignments of a device have one role. -/
def SameRole (a a' : AppAssignment) : Prop :=
  a.deviceId.isSome = true ∧ a.deviceId = a'.deviceId ∧ a.role.isSome = true ∧ a.role = a'.role
  deriving Decidable

/-- An assignment on its own is as it should be. -/
structure RowIntact (a : AppAssignment) : Prop where
  version : belongs c a.appVersionId a.appId = true
  schedule : a.scheduleType = "interval" → ValidInterval a.scheduleValue

/-- **The assignments are intact**: the version of each is one of its app, an interval is one, and a
device has at most one assignment for each role. -/
structure Intact : Prop where
  rows : ∀ id a, s.assignments.get? id = some a → RowIntact c a
  roles : ∀ id id' a a', s.assignments.get? id = some a → s.assignments.get? id' = some a' →
    SameRole a a' → id = id'

/-! ### The condition -/

/-- A schedule that a request leaves: a value with white space in it is an interval if the type is,
and so is the value there is if only the type is made one. -/
def KeepsSchedule (r : UpdateAssignmentRequest) (a : AppAssignment) : Prop :=
  (∀ value ∈ r.scheduleValue, hasSpace value = true →
    r.scheduleType.getD a.scheduleType = "interval" → ValidInterval value) ∧
  (r.scheduleValue = none → r.scheduleType = some "interval" → a.scheduleType ≠ "interval" →
    ValidInterval a.scheduleValue)
  deriving Decidable

/-- No assignment of a device has a role, but for those of an app. -/
def RoleFree (device : Uuid) (role : String) (appId : Option Uuid) : Prop :=
  ∀ e ∈ s.ofRole device role, some e.2.appId = appId
  deriving Decidable

/-- What an app of a template is to be: an interval is one, and a role that it gives is not there
yet. -/
def KeepsItem (device : Uuid) : TemplateItem → Prop
  | .monitoring role appName interval => ∀ name ∈ text? appName, ∀ e ∈ published c name,
      e.1.targetTable = roleTargetTable role →
        ValidInterval (pyStr c interval) ∧ s.RoleFree device role (some e.1.id)
  | .generic appName scheduleType scheduleValue role => ∀ name ∈ text? appName,
      ∀ e ∈ published c name, ∀ type ∈ text? scheduleType, ∀ value ∈ text? scheduleValue,
        (type = "interval" → ValidInterval value) ∧
          (s.ofApp e.1.id device = [] → ∀ r ∈ text? role, s.RoleFree device r none)

/-- The entries of a template, up to one that raises. -/
def KeepsEntries (device : Uuid) : List Entry → State → Prop
  | [], _ | none :: _, _ => True
  | some item :: entries, s => s.KeepsItem c device item ∧
      ∀ s' ∈ (s.applyItem c device item).done?, KeepsEntries device entries s'

/-- **The condition**: a version that is assigned by a request is one of the app; an empty role is
not there yet; a value with white space, or one whose type is made an interval, is one; and the apps
of a template have intervals, and roles that the device has not yet. -/
def Keeps : Action → Prop
  | .create r => belongs c r.appVersionId r.appId = true ∧
      (r.role = some "" → ∀ device ∈ r.deviceId, s.RoleFree device "" none)
  | .update id r => ∀ a ∈ s.assignments.get? id, KeepsSchedule r a ∧
      ∀ version ∈ r.appVersionId, belongs c version a.appId = true
  | .bulkUpdate ids r => ∀ id ∈ ids, ∀ a ∈ s.assignments.get? id, KeepsSchedule r a
  | .applyConfig device config _ => ∀ group ∈ templateGroup config,
      KeepsEntries c device (monitoringEntries config ++ genericEntries config)
        (s.setGroup device group)
  | .delete _ | .autoAssign _ _ | .autoAssignEligible _ _ | .setMonitoring _ _ _ _ => True

instance (device : Uuid) : ∀ item, Decidable (s.KeepsItem c device item)
  | .monitoring _ appName _ =>
    inferInstanceAs (Decidable (∀ name ∈ text? appName, ∀ e ∈ published c name, _ → _ ∧ _))
  | .generic appName scheduleType scheduleValue role =>
    inferInstanceAs (Decidable (∀ name ∈ text? appName, ∀ e ∈ published c name,
      ∀ type ∈ text? scheduleType, ∀ value ∈ text? scheduleValue, _ ∧ (_ → ∀ _ ∈ text? role, _)))

instance decidableKeepsEntries (device : Uuid) : ∀ entries s, Decidable
    (KeepsEntries c device entries s)
  | [], _ => isTrue trivial
  | none :: _, _ => isTrue trivial
  | some item :: entries, s =>
    have := decidableKeepsEntries device entries
    inferInstanceAs (Decidable (_ ∧ ∀ s' ∈ (s.applyItem c device item).done?,
      KeepsEntries c device entries s'))

instance : ∀ a, Decidable (s.Keeps c a)
  | .create r => inferInstanceAs (Decidable (_ ∧ (_ → ∀ device ∈ r.deviceId, _)))
  | .update id r => inferInstanceAs (Decidable (∀ a ∈ s.assignments.get? id, _ ∧
      ∀ version ∈ r.appVersionId, _))
  | .bulkUpdate ids _ => inferInstanceAs (Decidable (∀ id ∈ ids, ∀ a ∈ s.assignments.get? id, _))
  | .applyConfig _ config _ => inferInstanceAs (Decidable (∀ group ∈ templateGroup config, _))
  | .delete _ | .autoAssign _ _ | .autoAssignEligible _ _ | .setMonitoring _ _ _ _ =>
    inferInstanceAs (Decidable True)

/-! ### What keeps the assignments intact -/

section Intact

variable {c : Catalogue} {s : State}

theorem get?_put (s : State) (id id' : ℕ) (a : AppAssignment) :
    (s.put id a).assignments.get? id' = if id' = id then some a else s.assignments.get? id' := by
  refine (Table.get?_upsert s.assignments id id' a _).trans ?_
  cases s.assignments.get? id with
  | none => rfl
  | some _ => rfl

theorem Intact.put (h : Intact c s) (hrow : RowIntact c a)
    (hroles : ∀ id' a', s.assignments.get? id' = some a' → SameRole a a' → id' = id) :
    Intact c (s.put id a) := by
  refine ⟨fun id' a' ha' => ?_, fun id₁ id₂ a₁ a₂ h₁ h₂ hsame => ?_⟩
  · rw [get?_put] at ha'
    split at ha'
    · cases ha'
      exact hrow
    · exact h.rows id' a' ha'
  · rw [get?_put] at h₁ h₂
    split at h₁
    next heq₁ =>
      cases h₁
      split at h₂
      next heq₂ => rw [heq₁, heq₂]
      · rw [heq₁, hroles id₂ a₂ h₂ hsame]
    · split at h₂
      next heq₂ =>
        cases h₂
        obtain ⟨hdevice, hdevices, hrole, hroles'⟩ := hsame
        rw [heq₂, hroles id₁ a₁ h₁ ⟨hdevices ▸ hdevice, hdevices.symm, hroles' ▸ hrole, hroles'.symm⟩]
      · exact h.roles id₁ id₂ a₁ a₂ h₁ h₂ hsame

theorem Intact.rewrite (h : Intact c s) {f : ℕ → AppAssignment → AppAssignment}
    (hget : ∀ id, s'.assignments.get? id = (s.assignments.get? id).map (f id))
    (hrow : ∀ id a, s.assignments.get? id = some a → RowIntact c a → RowIntact c (f id a))
    (hdevice : ∀ id a, (f id a).deviceId = a.deviceId) (hrole : ∀ id a, (f id a).role = a.role) :
    Intact c s' := by
  have hinv (id : ℕ) (a : AppAssignment) (ha : s'.assignments.get? id = some a) :
      ∃ a₀, s.assignments.get? id = some a₀ ∧ f id a₀ = a :=
    map_eq_some_iff.1 (hget id ▸ ha)
  refine ⟨fun id a ha => ?_, fun id₁ id₂ a₁ a₂ h₁ h₂ hsame => ?_⟩
  · obtain ⟨a₀, ha₀, rfl⟩ := hinv id a ha
    exact hrow id a₀ ha₀ (h.rows id a₀ ha₀)
  · obtain ⟨b₁, hb₁, rfl⟩ := hinv id₁ a₁ h₁
    obtain ⟨b₂, hb₂, rfl⟩ := hinv id₂ a₂ h₂
    rw [SameRole, hdevice, hdevice, hrole, hrole] at hsame
    exact h.roles id₁ id₂ b₁ b₂ hb₁ hb₂ hsame

theorem Intact.filter (h : Intact c s)
    (hget : ∀ id a, s'.assignments.get? id = some a → s.assignments.get? id = some a) :
    Intact c s' where
  rows id a ha := h.rows id a (hget id a ha)
  roles id id' a a' ha ha' hsame := h.roles id id' a a' (hget id a ha) (hget id' a' ha') hsame

theorem Intact.setGroup (h : Intact c s) (device : Uuid) (group : Option Uuid) :
    Intact c (s.setGroup device group) := by
  cases group with
  | none => exact h
  | some group => exact ⟨h.rows, h.roles⟩

theorem Intact.add (h : Intact c s) (hrow : RowIntact c a)
    (hroles : ∀ id' a', s.assignments.get? id' = some a' → ¬SameRole a a') : Intact c (s.add a) :=
  h.put hrow fun id' a' ha' hsame => absurd hsame (hroles id' a' ha')

/-! ### Requests -/

theorem validate_spec {r r' : CreateAssignmentRequest} (h : r.validate = some r') :
    r'.appId = r.appId ∧ r'.appVersionId = r.appVersionId ∧ r'.deviceId = r.deviceId ∧
      r'.role = r.role ∧ (r'.scheduleType = "interval" → ValidInterval r'.scheduleValue) := by
  rw [CreateAssignmentRequest.validate] at h
  split at h
  · cases h
  · split at h
    · obtain ⟨value, hvalue, rfl⟩ := map_eq_some_iff.1 h
      exact ⟨rfl, rfl, rfl, rfl, fun _ => validInterval_of_normalize hvalue⟩
    next hcron =>
      cases h
      exact ⟨rfl, rfl, rfl, rfl, fun hinterval => absurd hinterval hcron⟩

variable {role : String}

theorem ofRole_of_checkRole {r : CreateAssignmentRequest}
    (h : s.checkRole r = .ok ()) (hrole : r.role = some role) (hdevice : r.deviceId = some device)
    (hne : role ≠ "") : s.ofRole device role = [] := by
  rw [checkRole, hrole, hdevice] at h
  simp only [if_neg hne] at h
  obtain ⟨existing, hexisting, h⟩ := bind_eq_ok.1 h
  cases existing with
  | none => exact eq_nil_of_scalarOneOrNone hexisting
  | some existing => cases h

theorem mem_ofRole (ha : s.assignments.get? id = some a) (hdevice : a.deviceId = some device)
    (hrole : a.role = some role) : (id, a) ∈ s.ofRole device role :=
  List.mem_filter.2 ⟨Table.mem_rows.2 ha, decide_eq_true ⟨hdevice, hrole⟩⟩

theorem ofRole_of_sameRole {a' : AppAssignment} (ha : s.assignments.get? id = some a')
    (hsame : SameRole a a') :
    ∃ device role, a.deviceId = some device ∧ a.role = some role ∧
    (id, a') ∈ s.ofRole device role := by
  obtain ⟨hdevice, hdevices, hrole, hroles⟩ := hsame
  obtain ⟨device, hdevice⟩ := isSome_iff_exists.1 hdevice
  obtain ⟨role, hrole⟩ := isSome_iff_exists.1 hrole
  exact ⟨device, role, hdevice, hrole, mem_ofRole ha (hdevices ▸ hdevice) (hroles ▸ hrole)⟩

theorem Intact.create (h : Intact c s) {r r' : CreateAssignmentRequest}
    (hk : s.Keeps c (.create r)) (hvalid : r.validate = some r') (hs : s.create c r' = .ok s') :
    Intact c s' := by
  obtain ⟨happ, hversion, hdevice, hrole, hschedule⟩ := validate_spec hvalid
  obtain ⟨-, -, hs⟩ := bind_eq_ok.1 hs
  obtain ⟨-, -, hs⟩ := bind_eq_ok.1 hs
  obtain ⟨-, -, hs⟩ := bind_eq_ok.1 hs
  obtain ⟨_, hcheck, hs⟩ := bind_eq_ok.1 hs
  split at hs
  · cases hs
    refine h.add ⟨?_, hschedule⟩ fun id a ha hsame => ?_
    · rw [CreateAssignmentRequest.assignment, happ, hversion]
      exact hk.1
    · obtain ⟨device, role, hd, hr, hmem⟩ := ofRole_of_sameRole ha hsame
      by_cases hempty : role = ""
      · have hnone := hk.2 (hrole ▸ hempty ▸ hr) device (hdevice ▸ hd) _ (hempty ▸ hmem)
        cases hnone
      · rw [ofRole_of_checkRole hcheck hr hd hempty] at hmem
        cases hmem
  · cases hs

variable {r r' : UpdateAssignmentRequest}

theorem schedule_apply (hnormal : r.normalize = some r') (hk : KeepsSchedule r a)
    (ha : a.scheduleType = "interval" → ValidInterval a.scheduleValue)
    (htype : (r'.apply a).scheduleType = "interval") : ValidInterval (r'.apply a).scheduleValue := by
  rw [UpdateAssignmentRequest.normalize] at hnormal
  cases hvalue : r.scheduleValue with
  | none =>
    rw [hvalue] at hnormal
    cases hnormal
    simp only [UpdateAssignmentRequest.apply, hvalue, getD_none] at htype ⊢
    by_cases hinterval : a.scheduleType = "interval"
    · exact ha hinterval
    · cases hr : r.scheduleType with
      | none =>
        rw [hr] at htype
        exact absurd htype hinterval
      | some type =>
        rw [hr] at htype
        exact hk.2 hvalue (hr.trans (congrArg some htype)) hinterval
  | some value =>
    rw [hvalue] at hnormal
    simp only at hnormal
    split at hnormal
    · obtain ⟨value', hvalue', rfl⟩ := map_eq_some_iff.1 hnormal
      exact validInterval_of_normalize hvalue'
    next hspace =>
      cases hnormal
      simp only [UpdateAssignmentRequest.apply, hvalue, getD_some] at htype ⊢
      refine hk.1 value hvalue ?_ htype
      by_contra hnot
      refine hspace ⟨?_, Bool.eq_false_iff.2 hnot⟩
      cases hr : r.scheduleType with
      | none => exact .inl rfl
      | some type =>
        rw [hr] at htype
        exact .inr (.inr (congrArg some htype))

theorem Intact.update (h : Intact c s)
    (hk : s.Keeps c (.update id r)) (hvalid : r.validate = some r')
    (hs : s.update c id r' = .ok s') : Intact c s' := by
  have hnormal : r.normalize = some r' := by
    rw [UpdateAssignmentRequest.validate] at hvalid
    split at hvalid
    · cases hvalid
    · exact hvalid
  have hversion : r'.appVersionId = r.appVersionId := by
    rw [UpdateAssignmentRequest.normalize] at hnormal
    split at hnormal
    · cases hnormal
      rfl
    · split at hnormal
      · obtain ⟨value, -, rfl⟩ := map_eq_some_iff.1 hnormal
        rfl
      · cases hnormal
        rfl
  rw [State.update] at hs
  split at hs
  · cases hs
  next a ha =>
    obtain ⟨collectorId, -, hs⟩ := bind_eq_ok.1 hs
    dsimp only at hs
    split at hs
    · cases hs
      have hrow := h.rows id a ha
      obtain ⟨hschedule, hbelongs⟩ := hk a ha
      refine h.put ⟨?_, schedule_apply hnormal hschedule hrow.schedule⟩ fun id' a' ha' hsame => ?_
      · change belongs c (r'.appVersionId.getD a.appVersionId) a.appId = true
        rw [hversion]
        cases hv : r.appVersionId with
        | none => exact hrow.version
        | some version => exact hbelongs version hv
      · exact (h.roles id id' a a' ha ha' hsame).symm
    · cases hs

theorem Intact.bulkUpdate (h : Intact c s) {ids : List ℕ} (hk : s.Keeps c (.bulkUpdate ids r))
    (hnormal : r.normalize = some r') (hs : s.bulkUpdate c ids r' = .ok s') : Intact c s' := by
  have hschedule (id : ℕ) (hid : id ∈ ids) (a : AppAssignment) (ha : s.assignments.get? id = some a)
      (hrow : RowIntact c a) := schedule_apply hnormal (hk id hid a ha) hrow.schedule
  rw [State.bulkUpdate] at hs
  split at hs
  · cases hs
  · split at hs
    · cases hs
    · simp only at hs
      split at hs
      · cases hs
      · split at hs
        · cases hs
          refine h.rewrite (fun id => Table.get?_mapRows s.assignments _ id) ?_ ?_ ?_
          · intro id a ha hrow
            split
            next hid => exact ⟨hrow.version, hschedule id hid a ha hrow⟩
            · exact hrow
          · intro id a
            split <;> rfl
          · intro id a
            split <;> rfl
        next appVersionId _ =>
          split at hs
          · cases hs
          next hfind =>
            cases hs
            rw [find?_eq_none] at hfind
            refine h.rewrite (fun id => Table.get?_mapRows s.assignments _ id) ?_ ?_ ?_
            · intro id a ha hrow
              split
              next hid =>
                refine ⟨?_, hschedule id hid a ha hrow⟩
                have hbelongs := hfind (id, a)
                  (List.mem_filter.2 ⟨Table.mem_rows.2 ha, decide_eq_true hid⟩)
                change belongs c appVersionId a.appId = true
                simpa using hbelongs
              · exact hrow
            · intro id a
              split <;> rfl
            · intro id a
              split <;> rfl

/-! ### Templates -/

theorem mem_ofApp {appId : Uuid} (h : (id, a) ∈ s.ofApp appId device) :
    s.assignments.get? id = some a ∧ a.appId = appId ∧ a.deviceId = some device := by
  obtain ⟨hmem, hp⟩ := List.mem_filter.1 h
  exact ⟨Table.mem_rows.1 hmem, (of_decide_eq_true hp).1, (of_decide_eq_true hp).2⟩

theorem belongs_published {name : String} {app : App}
    (h : published c name = some (app, version)) : belongs c version.id app.id = true := by
  obtain ⟨app', -, h⟩ := bind_eq_some_iff.1 h
  obtain ⟨version', hversion, heq⟩ := map_eq_some_iff.1 h
  cases heq
  refine List.any_eq_true.2 ⟨version, mem_of_find?_eq_some hversion, ?_⟩
  have happ := find?_some hversion
  exact decide_eq_true ⟨rfl, of_decide_eq_true happ⟩

theorem Intact.upsertFor (h : Intact c s) {app : App}
    {new : AppAssignment} {update : AppAssignment → AppAssignment}
    (hs : s.upsertFor app device new update = .done s')
    (hnew : s.ofApp app.id device = [] → RowIntact c new ∧
      ∀ id a, s.assignments.get? id = some a → ¬SameRole new a)
    (hupdate : ∀ id a, s.ofApp app.id device = [(id, a)] → RowIntact c (update a) ∧
      ∀ id' a', s.assignments.get? id' = some a' → SameRole (update a) a' →
      id' = id) : Intact c s' := by
  rw [State.upsertFor] at hs
  split at hs
  next hnil =>
    cases hs
    exact h.add (hnew hnil).1 (hnew hnil).2
  next existing hone =>
    cases hs
    exact h.put (hupdate existing.1 existing.2 hone).1 (hupdate existing.1 existing.2 hone).2
  · cases hs

theorem Intact.monitoring (h : Intact c s)
    {appName interval : PyValue} (hk : s.KeepsItem c device (.monitoring role appName interval))
    (hs : s.applyItem c device (.monitoring role appName interval) = .done s') : Intact c s' := by
  rw [applyItem] at hs
  split at hs
  · cases hs
  next name hname =>
    split at hs
    · cases hs
      exact h
    next app version hpublished =>
      split at hs
      · cases hs
        exact h
      next htable =>
        obtain ⟨hvalid, hfree⟩ := hk name hname _ hpublished (not_not.1 htable)
        have hbelongs := belongs_published hpublished
        refine h.upsertFor hs (fun hnil => ⟨⟨hbelongs, fun _ => hvalid⟩, fun id a ha hsame => ?_⟩)
          fun id a hone => ?_
        · obtain ⟨d, r, hd, hr, hmem⟩ := ofRole_of_sameRole ha hsame
          cases hd
          cases hr
          have happ := some.inj (hfree _ hmem)
          have hfound : (id, a) ∈ s.ofApp app.id device :=
            List.mem_filter.2 ⟨Table.mem_rows.2 ha, decide_eq_true ⟨happ, hsame.2.1.symm⟩⟩
          rw [hnil] at hfound
          cases hfound
        · obtain ⟨ha, happ, hdevice⟩ := mem_ofApp (hone ▸ mem_singleton_self _ :
            (id, a) ∈ s.ofApp app.id device)
          refine ⟨⟨happ ▸ hbelongs, fun _ => hvalid⟩, fun id' a' ha' hsame => ?_⟩
          obtain ⟨d, r, hd, hr, hmem⟩ := ofRole_of_sameRole ha' hsame
          cases hr
          obtain rfl : device = d := some.inj (hdevice.symm.trans hd)
          have happ' := some.inj (hfree _ hmem)
          have hfound : (id', a') ∈ s.ofApp app.id device :=
            List.mem_filter.2 ⟨Table.mem_rows.2 ha', decide_eq_true ⟨happ', hsame.2.1.symm.trans hd⟩⟩
          rw [hone] at hfound
          exact congrArg Prod.fst (List.mem_singleton.1 hfound)

theorem text?_of_column? {v : PyValue} {text : String} (h : column? v = some (some text)) :
    text? v = some text := by
  unfold column? at h
  split at h
  · cases h
  · obtain ⟨text', htext, heq⟩ := map_eq_some_iff.1 h
    rw [htext, heq]

theorem Intact.generic (h : Intact c s) {appName scheduleType scheduleValue role : PyValue}
    (hk : s.KeepsItem c device (.generic appName scheduleType scheduleValue role))
    (hs : s.applyItem c device (.generic appName scheduleType scheduleValue role) = .done s') :
    Intact c s' := by
  rw [applyItem] at hs
  split at hs
  · cases hs
  next name hname =>
    split at hs
    · cases hs
      exact h
    next app version hpublished =>
      split at hs
      next type value role' htype hvalue hrole =>
        obtain ⟨hvalid, hfree⟩ := hk name hname _ hpublished type htype value hvalue
        have hbelongs := belongs_published hpublished
        refine h.upsertFor hs (fun hnil => ⟨⟨hbelongs, hvalid⟩, fun id a ha hsame => ?_⟩)
          fun id a hone => ?_
        · obtain ⟨d, r, hd, hr, hmem⟩ := ofRole_of_sameRole ha hsame
          cases hd
          cases hfree hnil r (text?_of_column? (hrole.trans (congrArg some hr))) _ hmem
        · obtain ⟨ha, happ, hdevice⟩ := mem_ofApp (hone ▸ mem_singleton_self _ :
            (id, a) ∈ s.ofApp app.id device)
          refine ⟨⟨happ ▸ hbelongs, hvalid⟩, fun id' a' ha' hsame => ?_⟩
          exact (h.roles id id' a a' ha ha' hsame).symm
      · cases hs

theorem Intact.applyEntries {entries : List Entry} {s' : State × Bool}
    (h : Intact c s) (hk : KeepsEntries c device entries s)
    (hs : applyEntries c device entries s = some s') : Intact c s'.1 := by
  induction entries generalizing s with
  | nil =>
    cases hs
    exact h
  | cons entry entries ih =>
    cases entry with
    | none =>
      cases hs
      exact h
    | some item =>
      obtain ⟨hitem, hrest⟩ := hk
      rw [State.applyEntries] at hs
      split at hs
      next t ht =>
        refine ih ?_ (hrest t (by rw [ht]; rfl)) hs
        cases item with
        | monitoring role appName interval => exact h.monitoring hitem ht
        | generic appName scheduleType scheduleValue role => exact h.generic hitem ht
      · cases hs
        exact h
      · cases hs

theorem Intact.applyConfig {config : PyDict} {discovery : Bool} {s' : State × Bool}
    (h : Intact c s) (hk : s.Keeps c (.applyConfig device config discovery))
    (hs : s.applyConfigToDevice c device config = some s') : Intact c s'.1 := by
  rw [applyConfigToDevice] at hs
  split at hs
  · cases hs
    exact h
  next group hgroup => exact (h.setGroup device group).applyEntries (hk group hgroup) hs

/-! ### Discovery, eligibility and monitoring -/

theorem Intact.addDefault (h : Intact c s) (device : Uuid)
    (hbelongs : belongs c version.id version.appId = true) :
    Intact c (s.add (defaultAssignment version device)) :=
  h.add ⟨hbelongs, fun _ => (by decide : ValidInterval "60")⟩ fun _ _ _ hsame => by
    cases hsame.2.2.1

theorem belongs_latestOf {appId : Uuid}
    (h : latestOf c appId = .ok (some version)) : belongs c version.id version.appId = true := by
  have hmem := eq_singleton_of_scalarOneOrNone h ▸ mem_singleton_self version
  exact List.any_eq_true.2 ⟨version, (List.mem_filter.1 hmem).1, decide_eq_true ⟨rfl, rfl⟩⟩

theorem Intact.autoAssign {apps : List Uuid} (h : Intact c s)
    (hs : autoAssign c device apps s = .ok s') : Intact c s' := by
  induction apps generalizing s with
  | nil =>
    cases hs
    exact h
  | cons appId apps ih =>
    obtain ⟨existing, -, hs⟩ := bind_eq_ok.1 hs
    cases existing with
    | some existing => exact ih h hs
    | none =>
      obtain ⟨latest, hlatest, hs⟩ := bind_eq_ok.1 hs
      cases latest with
      | none => exact ih h hs
      | some version => exact ih (h.addDefault device (belongs_latestOf hlatest)) hs

theorem Intact.assignEligible {devices : List Uuid}
    (h : Intact c s) (hbelongs : belongs c version.id version.appId = true)
    (hs : assignEligible version devices s = .ok s') : Intact c s' := by
  induction devices generalizing s with
  | nil =>
    cases hs
    exact h
  | cons device devices ih =>
    obtain ⟨existing, -, hs⟩ := bind_eq_ok.1 hs
    cases existing with
    | some existing => exact ih h hs
    | none =>
      dsimp only at hs
      split at hs
      · exact ih h hs
      · exact ih (h.addDefault device hbelongs) hs

theorem Intact.addChecks {checks : List (String × MonitoringCheckConfig)} (h : Intact c s)
    (hnodup : (checks.map Prod.fst).Nodup)
    (hfree : ∀ role ∈ checks.map Prod.fst, s.ofRole device role = [])
    (hs : addChecks c device checks s = .ok s') : Intact c s' := by
  induction checks generalizing s with
  | nil =>
    cases hs
    exact h
  | cons e checks ih =>
    obtain ⟨role, check⟩ := e
    rw [State.addChecks] at hs
    split at hs
    · cases hs
    next app happ =>
      split at hs
      · cases hs
      · split at hs
        · cases hs
        next version hversion =>
          have hnodup := List.nodup_cons.1 hnodup
          refine ih (h.add ⟨?_, fun _ => ?_⟩ fun id a ha hsame => ?_) hnodup.2 ?_ hs
          · have heq := find?_some hversion
            exact List.any_eq_true.2 ⟨version, mem_of_find?_eq_some hversion,
              decide_eq_true ⟨rfl, of_decide_eq_true heq⟩⟩
          · exact validInterval_toString check.bounds.1 (by have := check.bounds.2; omega)
          · obtain ⟨d, r, hd, hr, hmem⟩ := ofRole_of_sameRole ha hsame
            cases hd
            cases hr
            rw [hfree role mem_cons_self] at hmem
            cases hmem
          · intro role' hrole'
            refine List.eq_nil_iff_forall_not_mem.2 fun e he => ?_
            obtain ⟨hmem, hp⟩ := List.mem_filter.1 he
            have hget := Table.mem_rows.1 hmem
            rw [State.add, get?_put] at hget
            split at hget
            · have hr := (of_decide_eq_true hp).2
              rw [← some.inj hget] at hr
              exact hnodup.1 (some.inj hr ▸ hrole')
            · have hmem := mem_ofRole hget (of_decide_eq_true hp).1 (of_decide_eq_true hp).2
              rw [hfree role' (mem_cons_of_mem _ hrole')] at hmem
              cases hmem

theorem Intact.setMonitoring
    {availability latency interface : Option MonitoringCheckConfig} (h : Intact c s)
    (hs : s.setMonitoring c device availability latency interface = .ok s') : Intact c s' := by
  rw [State.setMonitoring] at hs
  split at hs
  · cases hs
  · cases hs
  · have hsub : (((availability.map ("availability", ·)).toList ++
        (latency.map ("latency", ·)).toList ++ (interface.map ("interface", ·)).toList).map
          Prod.fst).Sublist monitoringRoles := by
      have hrole (role : String) (check : Option MonitoringCheckConfig) :
          ((check.map (role, ·)).toList.map Prod.fst).Sublist [role] := by
        cases check with
        | none => exact nil_sublist _
        | some check => exact List.Sublist.refl _
      rw [map_append, map_append]
      exact ((hrole "availability" availability).append (hrole "latency" latency)).append
        (hrole "interface" interface)
    refine Intact.addChecks (h.filter fun id a ha => ?_) (hsub.nodup (by decide)) ?_ hs
    · rw [Table.get?_filterMapRows] at ha
      obtain ⟨a', ha', hif⟩ := bind_eq_some_iff.1 ha
      split at hif
      · cases hif
      · rw [ha', hif]
    · intro role hrole
      refine List.eq_nil_iff_forall_not_mem.2 fun e he => ?_
      obtain ⟨hmem, hp⟩ := List.mem_filter.1 he
      have hget := Table.mem_rows.1 hmem
      rw [Table.get?_filterMapRows] at hget
      obtain ⟨a', ha', hif⟩ := bind_eq_some_iff.1 hget
      split at hif
      · cases hif
      next hnot =>
        obtain rfl := some.inj hif
        exact hnot ⟨(of_decide_eq_true hp).1, role, (of_decide_eq_true hp).2, hsub.subset hrole⟩

theorem Intact.delete (h : Intact c s) (ids : List ℕ) : Intact c (s.delete ids) := by
  refine h.filter fun id a ha => ?_
  rw [State.delete, Table.get?_filterMapRows] at ha
  obtain ⟨a', ha', hif⟩ := bind_eq_some_iff.1 ha
  split at hif
  · cases hif
  · rw [ha', hif]

theorem Intact.step {a : Action} (h : Intact c s) (hk : s.Keeps c a)
    (hs : s.step c a = some s') : Intact c s' := by
  have hok {x : Except HttpError State} (hx : x.toOption = some s') : x = .ok s' := by
    cases x with
    | error e => cases hx
    | ok t =>
      cases hx
      rfl
  cases a with
  | create r =>
    obtain ⟨r', hvalid, hs⟩ := bind_eq_some_iff.1 hs
    exact h.create hk hvalid (hok hs)
  | update id r =>
    obtain ⟨r', hvalid, hs⟩ := bind_eq_some_iff.1 hs
    exact h.update hk hvalid (hok hs)
  | bulkUpdate ids r =>
    obtain ⟨r', hnormal, hs⟩ := bind_eq_some_iff.1 hs
    exact h.bulkUpdate hk hnormal (hok hs)
  | delete ids =>
    cases hs
    exact h.delete ids
  | applyConfig device config discovery =>
    obtain ⟨e, he, hs⟩ := bind_eq_some_iff.1 hs
    split at hs
    · cases hs
      exact h.applyConfig hk he
    · cases hs
  | autoAssign device apps => exact h.autoAssign (hok hs)
  | autoAssignEligible app devices =>
    have hs := hok hs
    rw [State.autoAssignEligible] at hs
    split at hs
    · obtain ⟨latest, hlatest, hs⟩ := bind_eq_ok.1 hs
      cases latest with
      | none => cases hs
      | some version => exact h.assignEligible (belongs_latestOf hlatest) hs
    · cases hs
  | setMonitoring device availability latency interface => exact h.setMonitoring (hok hs)

end Intact

end State

/-! ### Runs -/

open State

/-- **Assignment integrity**: after every run from no assignments whose steps all meet the condition
the assignments are intact. -/
theorem intact_of_run {c : Catalogue} {groups : Dict Uuid (Option Uuid)} {s : State}
    (h : Run (step c) (Keeps c) { groups } s) : Intact c s := by
  refine h.invariant (I := Intact c) ⟨?_, ?_⟩ fun hinv hk hs => hinv.step hk hs
  · intro id a ha
    cases ha
  · intro id id' a a' ha
    cases ha

/-- Two apps that check whether a device is there, with a version each. -/
def twoApps : Catalogue where
  apps := [⟨"ping", "ping_check", "availability_latency"⟩, ⟨"port", "port_check", "availability_latency"⟩]
  versions := [⟨"ping1", "ping", true⟩, ⟨"port1", "port", true⟩]

def oneDevice : State := { groups := [("d1", some "g1")] }

/-- A request that assigns the first app to the device. -/
def pingRequest (appVersionId : Uuid) (scheduleType scheduleValue : String) (role : Option String) :
    CreateAssignmentRequest where
  appId := "ping"
  appVersionId := appVersionId
  deviceId := some "d1"
  scheduleType := scheduleType
  scheduleValue := scheduleValue
  role := role

/-- A template that has an app check the availability of devices. -/
def availabilityTemplate (appName : String) (interval : ℤ) : PyDict :=
  [("monitoring", .dict [("availability",
    .dict [("app_name", .str appName), ("interval_seconds", .int interval)])])]

/-- An app is assigned by a request, rescheduled with the other one, which the discovery has
assigned, and replaced by a template. -/
theorem intact_of_run_ping : ∃ s : State, s.assignments.rows.map
    (fun e => (e.1, e.2.scheduleValue)) =
    [(0, "30"), (1, "300")] ∧ Intact twoApps s := by
  have h : ∃ s ∈ replay (step twoApps) (Keeps twoApps) oneDevice
      [.create (pingRequest "ping1" "interval" "60s" (some "availability")),
        .autoAssign "d1" ["ping", "port"], .bulkUpdate [0, 1] { scheduleValue := some "5m" },
        .applyConfig "d1" (availabilityTemplate "ping_check" 30) true],
      s.assignments.rows.map (fun e => (e.1, e.2.scheduleValue)) = [(0, "30"), (1, "300")] := by
    decide +kernel
  obtain ⟨s, hs, hrows⟩ := h
  exact ⟨s, hrows, intact_of_run (run_of_replay hs)⟩

/-- **Assignments that are not intact.** A request assigns a version of another app; a cron schedule
is made an interval without a new value; and two templates give a device two apps for one role. -/
theorem not_intact : (∃ s, Run (step twoApps) (fun _ _ => True) oneDevice s ∧
      s.assignments.rows.map (fun e => (e.2.appId, e.2.appVersionId)) = [("ping", "port1")] ∧
      ¬Intact twoApps s) ∧ (∃ s, Run (step twoApps) (fun _ _ => True) oneDevice s ∧
      s.assignments.rows.map (fun e => (e.2.scheduleType, e.2.scheduleValue)) =
        [("interval", "*/5 * * * *")] ∧ ¬Intact twoApps s) ∧
    (∃ s, Run (step twoApps) (fun _ _ => True) oneDevice s ∧
      s.assignments.rows.map (fun e => (e.2.appId, e.2.role)) =
        [("ping", some "availability"), ("port", some "availability")] ∧ ¬Intact twoApps s) := by
  refine ⟨?_, ?_, ?_⟩
  · have h : ∃ s ∈ replay (step twoApps) (fun _ _ => True) oneDevice
        [.create (pingRequest "port1" "interval" "60" none)],
        s.assignments.rows.map (fun e => (e.2.appId, e.2.appVersionId)) = [("ping", "port1")] ∧
          ∃ a ∈ s.assignments.get? 0, belongs twoApps a.appVersionId a.appId = false := by
      decide +kernel
    obtain ⟨s, hs, hrows, a, ha, hnot⟩ := h
    refine ⟨s, run_of_replay hs, hrows, fun hintact => ?_⟩
    rw [(hintact.rows 0 a ha).version] at hnot
    cases hnot
  · have h : ∃ s ∈ replay (step twoApps) (fun _ _ => True) oneDevice
        [.create (pingRequest "ping1" "cron" "*/5 * * * *" none),
          .update 0 { scheduleType := some "interval" }],
        s.assignments.rows.map (fun e => (e.2.scheduleType, e.2.scheduleValue)) =
          [("interval", "*/5 * * * *")] ∧
          ∃ a ∈ s.assignments.get? 0, a.scheduleType = "interval" ∧ ¬ValidInterval a.scheduleValue := by
      decide +kernel
    obtain ⟨s, hs, hrows, a, ha, htype, hnot⟩ := h
    exact ⟨s, run_of_replay hs, hrows, fun hintact => hnot ((hintact.rows 0 a ha).schedule htype)⟩
  · have h : ∃ s ∈ replay (step twoApps) (fun _ _ => True) oneDevice
        [.applyConfig "d1" (availabilityTemplate "ping_check" 60) false,
          .applyConfig "d1" (availabilityTemplate "port_check" 60) false],
        s.assignments.rows.map (fun e => (e.2.appId, e.2.role)) =
          [("ping", some "availability"), ("port", some "availability")] ∧
          ∃ a ∈ s.assignments.get? 0, ∃ a' ∈ s.assignments.get? 1, SameRole a a' := by
      decide +kernel
    obtain ⟨s, hs, hrows, a, ha, a', ha', hsame⟩ := h
    refine ⟨s, run_of_replay hs, hrows, fun hintact => ?_⟩
    cases hintact.roles 0 1 a a' ha ha' hsame

end MonCTL.Apps
