import Mathlib.Data.List.Nodup
import MonCTL.Basic
import MonCTL.Lib.Dict
import MonCTL.Lib.Runs

/-!
# The Automation Engine

An automation runs on a device when an incident of the device changes its state, or when its cron
expression fires. Both ways look up when the automation last ran on the device, and let nothing
through that comes before the cooldown has passed. What they let through is executed by a task in
the background. It takes its start time when it begins, and is recorded when it is done.

Looking up is a query in a thread, so that other things happen between the query, the decision, the
beginning and the record. The configuration is fixed, and times are in milliseconds, as ClickHouse
stores them. The steps of an execution only matter in that they may fail with an exception, which
leaves no record. Manual triggers have no cooldown and are left out.
-/

namespace MonCTL.Automations

/-! ### Automations -/

/-- An automation, as far as its triggers read it. -/
structure Automation where
  id : Uuid
  triggerType : String
  enabled : Bool := true
  cooldownSeconds : Int := 300
  incidentRuleIds : List Uuid := []
  incidentStateTrigger : Option String := none
  cronExpression : Option String := none
  cronDeviceIds : List Uuid := []
  cronDeviceLabelFilter : Dict String String := []
  deviceIds : List Uuid := []
  deviceLabelFilter : Dict String String := []

structure Device where
  id : Uuid
  labels : Dict String String := []

/-- The configuration: the tables, the schedule of a cron expression, and whether the driver
returns times without a time zone. The primary key of automations is enforced. -/
structure Config where
  automations : List Automation
  automations_nodup : (automations.map Automation.id).Nodup := by decide
  devices : List Device
  prevFire : String → Timestamp → Timestamp
  naive : Bool

/-- A state transition of an incident. -/
structure Transition where
  ruleId : Uuid
  transition : String
  deviceId : Uuid
  labels : Dict String String

/-- `device_ids or cron_device_ids`. -/
def Automation.scopeIds (a : Automation) : List Uuid :=
  if a.deviceIds = [] then a.cronDeviceIds else a.deviceIds

/-- `device_label_filter or cron_device_label_filter`. -/
def Automation.scopeLabels (a : Automation) : Dict String String :=
  if a.deviceLabelFilter = [] then a.cronDeviceLabelFilter else a.deviceLabelFilter

def labelsMatch (filter labels : Dict String String) : Bool :=
  filter.all fun e => labels.get? e.1 = some e.2

/-- `_incident_matches`. -/
def incidentMatches (a : Automation) (t : Transition) : Bool :=
  (a.incidentRuleIds = [] || t.ruleId ∈ a.incidentRuleIds) &&
  (match a.incidentStateTrigger with
    | none => true
    | some want => want = "" || want = "any" || want = t.transition) &&
  (a.scopeIds = [] || t.deviceId = "" || t.deviceId ∈ a.scopeIds) &&
  labelsMatch a.scopeLabels t.labels

/-- `_resolve_cron_devices`. -/
def resolveCronDevices (cfg : Config) (a : Automation) : List Uuid :=
  if a.scopeIds ≠ [] then
    (cfg.devices.filter fun d => d.id ∈ a.scopeIds).map Device.id
  else if a.scopeLabels ≠ [] then
    (cfg.devices.filter fun d => labelsMatch a.scopeLabels d.labels).map Device.id
  else []

/-- What a transition is dispatched to: the automations that match, and the device. -/
def incidentTargets (cfg : Config) (t : Transition) : List (Automation × Uuid) :=
  ((cfg.automations.filter fun a => a.triggerType = "incident" ∧ a.enabled).filter
    fun a => incidentMatches a t).map fun a => (a, t.deviceId)

/-- The automations of a tick, with their devices. -/
def cronTargets (cfg : Config) (now : Timestamp) : List (Automation × Uuid) :=
  (cfg.automations.filter fun a => a.triggerType = "cron" ∧ a.enabled).flatMap fun a =>
    match a.cronExpression with
    | none => []
    | some expression =>
      if expression = "" ∨ now - cfg.prevFire expression now > 30000 then []
      else (resolveCronDevices cfg a).map fun device => (a, device)

/-! ### Executions -/

/-- A run as it is recorded. -/
structure RbaRun where
  automationId : Uuid
  deviceId : Uuid
  startedAt : Timestamp

/-- A background execution. The time at which its task was created is not part of the program. -/
structure Execution where
  automation : Automation
  device : Uuid
  spawnedAt : Timestamp
  startedAt : Option Timestamp := none
  finished : Bool := false

/-- The starts of the recorded runs that the query finds: one day back. -/
def visibleStarts (runs : List RbaRun) (now : Timestamp) (automationId device : Uuid) :
    List Timestamp :=
  (runs.filter fun r => r.automationId = automationId ∧ r.deviceId = device ∧
    r.startedAt > now - 86400000).map RbaRun.startedAt

/-- A transition or a tick on its way: the time of the tick, the targets it has still to look at,
and what the query for the first of them has found. -/
structure Dispatch where
  tickNow : Option Timestamp
  targets : List (Automation × Uuid)
  found : Option (List Timestamp) := none

structure Engine where
  now : Timestamp := 0
  dispatches : List Dispatch := []
  executions : List Execution := []
  runs : List RbaRun := []

/-- What happens. -/
inductive Action
  | pause (milliseconds : ℕ)
  | transition (t : Transition)
  | cronTick
  | query (i : ℕ)
  | queryFails (i : ℕ)
  | decide (i : ℕ)
  | begin (j : ℕ)
  | record (j : ℕ)
  | fail (j : ℕ)

/-- Whether a dispatch looks up the last run. -/
def Dispatch.checks (d : Dispatch) (target : Automation × Uuid) : Bool :=
  0 < target.1.cooldownSeconds && (d.tickNow.isSome || target.2 ≠ "")

/-- What a check comes to: `raises` stops the dispatch. -/
inductive Verdict
  | execute
  | skip
  | raises
  deriving DecidableEq

/-- `elapsed < automation.cooldown_seconds`. A transition counts from the time of the decision, a
tick from its own; only a transition copes with a time that has no time zone. -/
def Dispatch.verdict (cfg : Config) (now : Timestamp) (d : Dispatch) (a : Automation)
    (found : List Timestamp) : Verdict :=
  match found.max?, d.tickNow with
  | none, _ => .execute
  | some lastRun, none => if now - lastRun < 1000 * a.cooldownSeconds then .skip else .execute
  | some lastRun, some tickNow =>
    if cfg.naive then .raises
    else if tickNow - lastRun < 1000 * a.cooldownSeconds then .skip
    else .execute

namespace Engine

/-- A dispatch has become another. -/
def putDispatch (e : Engine) (i : ℕ) (d : Dispatch) : Engine :=
  { e with dispatches := e.dispatches.set i d }

/-- The task of an execution is created. -/
def spawn (e : Engine) (target : Automation × Uuid) : Engine :=
  { e with executions := e.executions ++
      [{ automation := target.1, device := target.2, spawnedAt := e.now }] }

/-- An execution has become another. -/
def putExecution (e : Engine) (j : ℕ) (x : Execution) : Engine :=
  { e with executions := e.executions.set j x }

/-- Whether the first target of a dispatch is executed now. -/
def executes (cfg : Config) (e : Engine) (d : Dispatch) (target : Automation × Uuid) : Bool :=
  if d.checks target then
    match d.found with
    | none => false
    | some found => d.verdict cfg e.now target.1 found = .execute
  else true

/-- The decision about the first target. -/
def decideTarget (cfg : Config) (e : Engine) (i : ℕ) (d : Dispatch) (target : Automation × Uuid)
    (targets : List (Automation × Uuid)) : Option Engine :=
  let next := e.putDispatch i { d with targets, found := none }
  if d.checks target then
    match d.found with
    | none => none
    | some found =>
      match d.verdict cfg e.now target.1 found with
      | .execute => some (next.spawn target)
      | .skip => some next
      | .raises => some (e.putDispatch i { d with targets := [], found := none })
  else some (next.spawn target)

def step (cfg : Config) (e : Engine) : Action → Option Engine
  | .pause milliseconds => some { e with now := e.now + milliseconds }
  | .transition t =>
    some { e with dispatches := e.dispatches ++ [⟨none, incidentTargets cfg t, none⟩] }
  | .cronTick =>
    some { e with dispatches := e.dispatches ++ [⟨some e.now, cronTargets cfg e.now, none⟩] }
  | .query i =>
    match e.dispatches[i]? with
    | some ⟨tickNow, target :: targets, none⟩ =>
      some (e.putDispatch i ⟨tickNow, target :: targets,
        some (visibleStarts e.runs e.now target.1.id target.2)⟩)
    | _ => none
  | .queryFails i =>
    match e.dispatches[i]? with
    | some ⟨tickNow, _, none⟩ => some (e.putDispatch i ⟨tickNow, [], none⟩)
    | _ => none
  | .decide i =>
    match e.dispatches[i]? with
    | some ⟨tickNow, target :: targets, found⟩ =>
      e.decideTarget cfg i ⟨tickNow, target :: targets, found⟩ target targets
    | _ => none
  | .begin j =>
    match e.executions[j]? with
    | some x =>
      if x.startedAt = none then some (e.putExecution j { x with startedAt := some e.now })
      else none
    | none => none
  | .record j =>
    match e.executions[j]? with
    | some ⟨automation, device, spawnedAt, some startedAt, false⟩ =>
      some { e.putExecution j ⟨automation, device, spawnedAt, some startedAt, true⟩ with
        runs := ⟨automation.id, device, startedAt⟩ :: e.runs }
    | _ => none
  | .fail j =>
    match e.executions[j]? with
    | some ⟨automation, device, spawnedAt, some startedAt, false⟩ =>
      some (e.putExecution j ⟨automation, device, spawnedAt, some startedAt, true⟩)
    | _ => none

end Engine

end MonCTL.Automations
