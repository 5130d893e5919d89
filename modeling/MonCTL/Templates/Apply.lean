import Mathlib.Data.List.Nodup
import MonCTL.Lib.Succeeds
import MonCTL.Lib.Uuid
import MonCTL.Templates.Resolver

/-!
# Applying a Configuration to a Device

The roles and the entries of a resolved configuration are written to the assignments of a device,
each to the assignment of its app. It is updated if there is one, and added if there is none. Every
write is flushed by the query that follows it.

Timestamps are left out.
-/

namespace MonCTL.Templates

open List Option

/-! ### The tables -/

/-- `App`, with its versions, the latest one first. -/
structure App where
  id : Uuid
  name : String
  targetTable : String
  versions : List Uuid

/-- The apps, each with an id of its own. -/
structure Apps where
  rows : List App
  nodup : (rows.map App.id).Nodup

def Apps.named (apps : Apps) (name : String) : Option App := apps.rows.find? (·.name = name)

/-- What an entry configures. -/
structure AssignmentSettings where
  config : Dict String String
  scheduleType : String
  scheduleValue : String
  credentialId : Option Uuid
  enabled : Bool := true
  useLatest : Bool := true
  deriving DecidableEq

/-- `AppAssignment`. -/
structure AppAssignment where
  appVersionId : Uuid
  role : Option String
  settings : AssignmentSettings

/-- The assignments by app and device, at most one of each, and at most one of a role and a
device. -/
@[ext]
structure Assignments where
  rows : Dict (Uuid × Uuid) AppAssignment
  uqAppDevice : rows.keys.Nodup
  uqDeviceRole : ∀ x ∈ rows, ∀ y ∈ rows, x.1.2 = y.1.2 → x.2.role = y.2.role →
    x.2.role.isSome → x.1 = y.1

def Assignments.get? (t : Assignments) (key : Uuid × Uuid) : Option AppAssignment :=
  Dict.get? t.rows key

/-- Whether another app of the device has a role. -/
def Assignments.Taken (t : Assignments) (key : Uuid × Uuid) (role : Option String) : Prop :=
  role.isSome ∧ ∃ x ∈ t.rows, x.1.2 = key.2 ∧ x.1 ≠ key ∧ x.2.role = role
  deriving Decidable

/-- A row is written, unless an index forbids it. -/
def Assignments.write (t : Assignments) (key : Uuid × Uuid) (a : AppAssignment) :
    Option Assignments :=
  if h : t.Taken key a.role then none
  else some
    { rows := Dict.set t.rows key a
      uqAppDevice := Dict.nodup_keys_set t.uqAppDevice _ _
      uqDeviceRole := by
        have hother : ∀ x ∈ t.rows, x.1.2 = key.2 → a.role = x.2.role → a.role.isSome →
            x.1 = key := fun x hx hdev hrole hsome =>
          by_contra fun hne => h ⟨hsome, x, hx, hdev, hne, hrole.symm⟩
        intro x hx y hy hdev hrole hsome
        rcases Dict.mem_set hx with hx | rfl <;> rcases Dict.mem_set hy with hy | rfl
        · exact t.uqDeviceRole x hx y hy hdev hrole hsome
        · exact hother x hx hdev hrole.symm (hrole ▸ hsome)
        · exact (hother y hy hdev.symm hrole hsome).symm
        · rfl }

/-- The device with its interfaces, and the assignments of all devices. -/
structure DeviceState where
  deviceId : Uuid
  labels : String → Option String
  credentials : String → Option String
  collectorGroupId : Option Uuid
  interfaceRules : List InterfaceRule
  interfaces : List InterfaceMetadata
  assignments : Assignments

def DeviceState.existing (s : DeviceState) (appId : Uuid) : Option AppAssignment :=
  s.assignments.get? (appId, s.deviceId)

/-- What is raised. -/
inductive ApplyError
  | valueError
  | integrityError

/-! ### Entries -/

/-- `_ROLE_TARGET_TABLE`. -/
def Role.targetTable : Role → String
  | .availability | .latency => "availability_latency"
  | .interface => "interface"

def Role.name : Role → String
  | .availability => "availability"
  | .latency => "latency"
  | .interface => "interface"

/-- `_resolve_credential_id`. -/
def resolveCredentialId (value : Option String) : Option Uuid := value.bind parseUuid

/-- A role or an entry of the list of apps: the app that it names, the role, what is written, and
the role of monitoring that it is of. -/
structure Entry where
  appName : String
  role : Option String
  settings : AssignmentSettings
  monitoring : Option Role := none
  deriving DecidableEq

/-- A value that is not empty. -/
def truthy (value : Option String) : Option String := value.filter (· ≠ "")

def CheckConfig.entry (role : Role) (c : CheckConfig) : Option Entry :=
  (truthy c.appName).map fun appName =>
    { appName
      role := role.name
      settings :=
        { config := c.config.getD []
          scheduleType := "interval"
          scheduleValue := toString (c.intervalSeconds.getD 60)
          credentialId := resolveCredentialId c.credentialId }
      monitoring := some role }

def AppEntry.entry (a : AppEntry) : Option Entry :=
  ((truthy a.appName).or (truthy a.appId)).map fun appName =>
    { appName
      role := a.role
      settings :=
        { config := a.config.getD []
          scheduleType := a.scheduleType.getD "interval"
          scheduleValue := a.scheduleValue.getD "60"
          credentialId := resolveCredentialId a.credentialId } }

/-- The configured roles and entries, in the order in which they are written. -/
def TemplateConfig.entries (c : TemplateConfig) : List Entry :=
  ([Role.availability, .latency, .interface].filterMap fun r => (c.monitoring r).entry r) ++
    c.apps.filterMap AppEntry.entry

local instance lawfulBEqOption : LawfulBEq (Option String) := inferInstance

/-- The app and the version that an entry is written for. An entry of the list of apps that has a
monitoring role is passed over. -/
def Entry.target (apps : Apps) (e : Entry) : Option (App × Uuid) :=
  if e.monitoring = none ∧ e.role ∈ [Role.availability, .latency, .interface].map (some ·.name) then
    none
  else (apps.named e.appName).bind fun app =>
    if e.monitoring.any (·.targetTable ≠ app.targetTable) then none
    else app.versions.head?.map fun version => (app, version)

/-- The row that an entry leaves. The role of an existing one is changed by monitoring only. -/
def Entry.row (e : Entry) (version : Uuid) (existing : Option AppAssignment) : AppAssignment where
  appVersionId := version
  role := if e.monitoring.isSome then e.role else existing.elim e.role AppAssignment.role
  settings := e.settings

/-- An entry is written. -/
def upsert (apps : Apps) (s : DeviceState) (e : Entry) : Except ApplyError DeviceState :=
  match e.target apps with
  | none => .ok s
  | some (app, version) =>
    match s.assignments.write (app.id, s.deviceId) (e.row version (s.existing app.id)) with
    | some assignments => .ok { s with assignments }
    | none => .error .integrityError

/-- Labels and credentials are merged, and the collector group is set. -/
def TemplateConfig.merge (c : TemplateConfig) (group : Option Uuid) (s : DeviceState) :
    DeviceState :=
  { s with
    labels := fun key => (c.labels key).or (s.labels key)
    credentials := fun key => (c.credentials key).or (s.credentials key)
    collectorGroupId := group }

/-- The rules for the interfaces are set and applied. -/
def TemplateConfig.applyRules (p : Patterns) (c : TemplateConfig) (s : DeviceState) : DeviceState :=
  if c.interfaceRules = [] then s else
    { s with
      interfaceRules := c.interfaceRules
      interfaces := (applyRulesToAllInterfaces p c.interfaceRules false s.interfaces).1 }

def TemplateConfig.group (c : TemplateConfig) (before : Option Uuid) :
    Except ApplyError (Option Uuid) :=
  if c.defaultCollectorGroupId = "" then .ok before
  else match parseUuid c.defaultCollectorGroupId with
    | some group => .ok (some group)
    | none => .error .valueError

/-- `apply_config_to_device`. -/
def applyConfigToDevice (p : Patterns) (apps : Apps) (c : TemplateConfig) (s : DeviceState) :
    Except ApplyError DeviceState := do
  let group ← c.group s.collectorGroupId
  let s ← c.entries.foldlM (upsert apps) (c.merge group s)
  return c.applyRules p s

/-! ### What is to hold -/

/-- The app that an entry names has an assignment with exactly the entry's role and settings. -/
def Has (apps : Apps) (s : DeviceState) (e : Entry) : Prop :=
  ∃ app, apps.named e.appName = some app ∧
    ∃ a, s.existing app.id = some a ∧ a.role = e.role ∧ a.settings = e.settings

/-- The entries that are written to an app's assignment, with the versions. -/
def written (apps : Apps) (entries : List Entry) (appId : Uuid) : List (Entry × Uuid) :=
  entries.filterMap fun e => (e.target apps).bind fun t =>
    if t.1.id = appId then some (e, t.2) else none

variable {t t' : Assignments} {key : Uuid × Uuid} {a : AppAssignment}

variable {role : Option String}

variable {apps : Apps} {s s' : DeviceState} {entries : List Entry}

def after (before : Option AppAssignment) (entries : List (Entry × Uuid)) : Option AppAssignment :=
  entries.foldl (fun a w => some (w.1.row w.2 a)) before

/-- The state after entries have been written. -/
structure Writes (apps : Apps) (s : DeviceState) (entries : List Entry) (s' : DeviceState) :
    Prop where
  rest : s' = { s with assignments := s'.assignments }
  existing : ∀ appId, s'.existing appId = after (s.existing appId) (written apps entries appId)
  others : ∀ key, key.2 ≠ s.deviceId → s'.assignments.get? key = s.assignments.get? key

theorem written_append (entries' : List Entry) (appId : Uuid) :
    written apps (entries ++ entries') appId =
      written apps entries appId ++ written apps entries' appId :=
  filterMap_append

variable {e : Entry}

theorem Writes.concat {s₁ : DeviceState} (h : Writes apps s entries s₁)
    (h' : Writes apps s₁ [e] s') : Writes apps s (entries ++ [e]) s' := by
  have hdevice : s₁.deviceId = s.deviceId := by rw [h.rest]
  refine ⟨?_, fun appId => ?_, fun key hne => ?_⟩
  · rw [h'.rest, h.rest]
  · rw [written_append, after, foldl_append]
    exact (h'.existing appId).trans (congrArg (after · _) (h.existing appId))
  · rw [h'.others key (by rwa [hdevice]), h.others key hne]

variable {p : Patterns} {c : TemplateConfig}

variable {before : Option Uuid}

variable {group : Option Uuid}

end MonCTL.Templates
