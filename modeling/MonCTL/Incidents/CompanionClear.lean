import Mathlib.Data.List.Nodup
import MonCTL.Alerting.Engine
import MonCTL.Lib.Json
import MonCTL.Lib.Uuid

/-!
# Clearing Incidents by Companion Alerts

An incident rule can name companion definitions whose recovery clears its incidents. At the
end of a cycle the engine puts the states of all entities of the companions in one
dictionary, by definition and entity key, and asks it about each open incident. A later
entity with the same key replaces an earlier one, whatever their devices are.
-/

namespace MonCTL.Incidents

open Option

open Alerting (AlertState)

/-! ### Rules, entities and incidents -/

/-- `IncidentRule`, as far as the companion pass reads it. -/
structure IncidentRule where
  id : Uuid
  clearOnCompanionIds : Json
  clearCompanionMode : Option String

/-- An alert entity, as far as the companion pass reads it. -/
structure CompanionEntity where
  definitionId : Uuid
  assignmentId : Uuid
  deviceId : Option Uuid
  entityKey : String
  enabled : Bool
  state : AlertState

/-- The columns the table of entities is unique in. -/
def CompanionEntity.id (e : CompanionEntity) : Uuid × Uuid := (e.definitionId, e.assignmentId)

inductive IncidentState
  | isOpen
  | cleared
  deriving DecidableEq

/-- `Incident`, as far as the companion pass reads and writes it. -/
structure Incident where
  id : Uuid
  entityKey : String
  deviceId : Option Uuid
  state : IncidentState
  severity : String
  message : String
  labels : Dict String String
  clearedAt : Option Timestamp := none
  clearedReason : Option String := none

/-- A transition handed to the automation engine. -/
structure Transition where
  incidentId : Uuid
  ruleId : Uuid
  transition : String
  deviceId : String
  severity : String
  message : String
  labels : Dict String String

/-- `_record`. -/
def record (rule : IncidentRule) (incident : Incident) (transition : String) : Transition where
  incidentId := incident.id
  ruleId := rule.id
  transition
  deviceId := incident.deviceId.getD ""
  severity := incident.severity
  message := incident.message
  labels := incident.labels

/-! ### The companion pass -/

/-- `_validate_companion_ids`: anything but a list of UUIDs disables the pass. -/
def validateCompanionIds : Json → Option (List Uuid)
  | .arr [] => none
  | .arr raw => raw.mapM fun rid =>
    match rid with
    | .str text => parseUuid text
    | _ => none
  | _ => none

/-- How companions combine. -/
inductive CompanionMode
  | any
  | all
  deriving DecidableEq

/-- The mode of a rule; anything unknown is `any`. -/
def IncidentRule.mode (rule : IncidentRule) : CompanionMode :=
  if ((rule.clearCompanionMode.filter (· ≠ "")).getD "any").toLower = "all" then .all else .any

/-- The entity key inside the key of an incident, `"{assignment_id}|{entity_key}"`. -/
def rawKey (key : String) : String :=
  match key.toList.dropWhile (· ≠ '|') with
  | [] => key
  | _ :: rest => String.ofList rest

/-- `companion_by_defn_key`. -/
def companionByDefnKey (companionIds : List Uuid) (entities : List CompanionEntity) :
    Dict (Uuid × String) AlertState :=
  Dict.setAll [] ((entities.filter fun e => e.definitionId ∈ companionIds ∧ e.enabled).map
    fun e => ((e.definitionId, e.entityKey), e.state))

/-- The states the engine looks at for an incident. -/
def companionStates (companionIds : List Uuid) (entities : List CompanionEntity)
    (incident : Incident) : List (Option AlertState) :=
  companionIds.map fun cid =>
    (companionByDefnKey companionIds entities).get? (cid, rawKey incident.entityKey)

/-- The reason an open incident is cleared for. -/
def clearReason (mode : CompanionMode) (states : List (Option AlertState)) : Option String :=
  match mode with
  | .all => if ∀ s ∈ states, s = some .resolved then some "companion_all_healthy" else none
  | .any => if ∃ s ∈ states, s = some .resolved then some "companion_any_healthy" else none

/-- One round of the loop over the open incidents. -/
def clearByCompanions (rule : IncidentRule) (companionIds : List Uuid)
    (entities : List CompanionEntity) (now : Timestamp) (incident : Incident) :
    Incident × List Transition :=
  if incident.state ≠ .isOpen then (incident, [])
  else
    match clearReason rule.mode (companionStates companionIds entities incident) with
    | none => (incident, [])
    | some reason =>
      let incident := { incident with
        state := .cleared
        clearedAt := some now
        clearedReason := some reason }
      (incident, [record rule incident "cleared"])

/-- `_apply_companion_clear`, and the condition it is called under: the incidents it leaves,
and the transitions. -/
def applyCompanionClear (rule : IncidentRule) (entities : List CompanionEntity) (now : Timestamp)
    (incidents : List Incident) : List Incident × List Transition :=
  match validateCompanionIds rule.clearOnCompanionIds with
  | none => (incidents, [])
  | some companionIds =>
    let rounds := incidents.map (clearByCompanions rule companionIds entities now)
    (rounds.map Prod.fst, rounds.flatMap Prod.snd)

/-! ### Device-exact decisions -/

/-- The entities of all definitions; the table admits one for each definition and
assignment. -/
structure EntityTable where
  rows : List CompanionEntity
  ids_nodup : (rows.map CompanionEntity.id).Nodup := by decide

def EntityTable.withStates (table : EntityTable) (σ : Uuid × Uuid → AlertState) :
    List CompanionEntity :=
  table.rows.map fun e => { e with state := σ e.id }

/-- An open incident is cleared by the pass. -/
def Clears (rule : IncidentRule) (entities : List CompanionEntity) (now : Timestamp)
    (incident : Incident) : Prop :=
  ∃ after ∈ (applyCompanionClear rule entities now [incident]).1, after.state = .cleared

/-- A companion has recovered on the device and for the entity of an incident. -/
def Recovered (table : EntityTable) (σ : Uuid × Uuid → AlertState) (incident : Incident)
    (cid : Uuid) : Prop :=
  ∃ e ∈ table.rows, e.enabled = true ∧ e.definitionId = cid ∧ e.deviceId = incident.deviceId ∧
    e.entityKey = rawKey incident.entityKey ∧ σ e.id = .resolved

def Required (mode : CompanionMode) (companionIds : List Uuid) (P : Uuid → Prop) : Prop :=
  match mode with
  | .any => ∃ cid ∈ companionIds, P cid
  | .all => ∀ cid ∈ companionIds, P cid

/-- **The decision is device-exact**: an incident is cleared only when the required
companions have recovered on its device, and the states of entities of other devices do not
matter. -/
structure DeviceExact (rule : IncidentRule) (table : EntityTable) (incident : Incident) :
    Prop where
  sound : ∀ now σ, Clears rule (table.withStates σ) now incident →
    ∃ companionIds, validateCompanionIds rule.clearOnCompanionIds = some companionIds ∧
      Required rule.mode companionIds (Recovered table σ incident)
  noninterference : ∀ now σ σ',
    (∀ e ∈ table.rows, e.deviceId = incident.deviceId → σ e.id = σ' e.id) →
    (Clears rule (table.withStates σ) now incident ↔
      Clears rule (table.withStates σ') now incident)

def EntityTable.last (table : EntityTable) (cid : Uuid) (key : String) : Option CompanionEntity :=
  table.rows.reverse.find? fun e => e.enabled ∧ e.definitionId = cid ∧ e.entityKey = key

/-- The last entity of each companion with the key of the incident is on the incident's
device. When all companions are required, one without such an entity is enough. -/
def LastOnDevice (mode : CompanionMode) (companionIds : List Uuid) (table : EntityTable)
    (incident : Incident) : Prop :=
  (mode = .all ∧ ∃ cid ∈ companionIds, table.last cid (rawKey incident.entityKey) = none) ∨
    ∀ cid ∈ companionIds, ∀ e ∈ table.last cid (rawKey incident.entityKey),
      e.deviceId = incident.deviceId

/-! ### What the engine looks at -/

/-- **What the engine looks at** is the last entity of each companion with the incident's
key. -/
theorem companionStates_eq (companionIds : List Uuid) (table : EntityTable)
    (σ : Uuid × Uuid → AlertState) (incident : Incident) :
    companionStates companionIds (table.withStates σ) incident =
      companionIds.map fun cid =>
        (table.last cid (rawKey incident.entityKey)).map fun e => σ e.id := by
  refine List.map_congr_left fun cid hcid => ?_
  rw [companionByDefnKey, Dict.get?_setAll_map, ← List.filter_reverse, List.find?_filter,
    EntityTable.withStates, ← List.map_reverse, List.find?_map, Option.map_map, EntityTable.last]
  refine congrArg (Option.map _) (congrArg (fun p => List.find? p _) (funext fun e => ?_))
  simp only [Function.comp, Prod.mk.injEq, Bool.decide_and, Bool.decide_eq_true]
  by_cases h : e.definitionId = cid
  · subst h
    simp [hcid]
  · simp [h]

variable {companionIds : List Uuid} {rule : IncidentRule} {incident : Incident}

/-- An open incident is cleared exactly when the required companions show a recovered last
entity. -/
theorem clears_iff
    (hids : validateCompanionIds rule.clearOnCompanionIds = some companionIds)
    (table : EntityTable) (σ : Uuid × Uuid → AlertState) (now : Timestamp)
    (hopen : incident.state = .isOpen) :
    Clears rule (table.withStates σ) now incident ↔ Required rule.mode companionIds fun cid =>
      ∃ e ∈ table.last cid (rawKey incident.entityKey), σ e.id = .resolved := by
  have hlast : ∀ cid, ((table.last cid (rawKey incident.entityKey)).map fun e => σ e.id) =
      some AlertState.resolved ↔
        ∃ e ∈ table.last cid (rawKey incident.entityKey), σ e.id = .resolved := by
    simp [map_eq_some_iff]
  have hreason : (clearReason rule.mode
      (companionStates companionIds (table.withStates σ) incident)).isSome ↔
      Required rule.mode companionIds fun cid =>
        ∃ e ∈ table.last cid (rawKey incident.entityKey), σ e.id = .resolved := by
    simp only [companionStates_eq, ← hlast]
    cases rule.mode with
    | any => simp [clearReason, Required]
    | all => simp [clearReason, Required]
  rw [← hreason, Clears, applyCompanionClear, hids]
  simp only [List.map_singleton, List.mem_singleton, exists_eq_left]
  unfold clearByCompanions
  rw [if_neg (not_not_intro hopen)]
  split
  next hnone => simp [hnone, hopen]
  next reason hsome => simp [hsome]

/-! ### When decisions are device-exact -/

theorem Required.imp {mode : CompanionMode} {P Q : Uuid → Prop}
    (h : ∀ cid ∈ companionIds, P cid → Q cid) (hP : Required mode companionIds P) :
    Required mode companionIds Q := by
  cases mode with
  | any =>
    obtain ⟨cid, hcid, hp⟩ := hP
    exact ⟨cid, hcid, h cid hcid hp⟩
  | all => exact fun cid hcid => h cid hcid (hP cid hcid)

variable {table : EntityTable} {cid : Uuid} {e : CompanionEntity}

theorem EntityTable.mem_of_last {key : String}
    (h : e ∈ table.last cid key) :
    e ∈ table.rows ∧ e.enabled = true ∧ e.definitionId = cid ∧ e.entityKey = key := by
  have hprop := List.find?_some h
  rw [decide_eq_true_eq] at hprop
  exact ⟨List.mem_reverse.1 (List.mem_of_find?_eq_some h), hprop⟩

theorem not_deviceExact_of_last
    (hids : validateCompanionIds rule.clearOnCompanionIds = some companionIds)
    (hopen : incident.state = .isOpen)
    (hcid : cid ∈ companionIds)
    (he : e ∈ table.last cid (rawKey incident.entityKey)) (hdevice : e.deviceId ≠ incident.deviceId)
    (hall : rule.mode = .all → ∀ cid ∈ companionIds,
      table.last cid (rawKey incident.entityKey) ≠ none) : ¬DeviceExact rule table incident := by
  intro h
  -- the states of entities of other devices do not matter, so that of `e` does not
  have hchange : ∀ (σ : Uuid × Uuid → AlertState) (s : AlertState),
      Clears rule (table.withStates σ) 0 incident ↔
        Clears rule (table.withStates (Function.update σ e.id s)) 0 incident := by
    intro σ s
    refine h.noninterference 0 σ _ fun e' he' hdevice' => ?_
    have hne : e'.id ≠ e.id := fun hid => by
      obtain rfl := List.inj_on_of_nodup_map table.ids_nodup he' (EntityTable.mem_of_last he).1 hid
      exact hdevice hdevice'
    rw [Function.update_of_ne hne]
  cases hmode : rule.mode with
  | any =>
    have hiff := hchange (fun _ => .ok) .resolved
    rw [clears_iff hids _ _ _ hopen, clears_iff hids _ _ _ hopen, hmode] at hiff
    obtain ⟨cid', -, e', -, hstate⟩ := hiff.2 ⟨cid, hcid, e, he, Function.update_self ..⟩
    cases hstate
  | all =>
    have hiff := hchange (fun _ => .resolved) .ok
    rw [clears_iff hids _ _ _ hopen, clears_iff hids _ _ _ hopen, hmode] at hiff
    have hresolved := hiff.1 fun cid' hcid' => by
      obtain ⟨e', he'⟩ := ne_none_iff_exists'.1 (hall hmode cid' hcid')
      exact ⟨e', he', rfl⟩
    obtain ⟨e', he', hstate⟩ := hresolved cid hcid
    obtain rfl := some.inj (he.symm.trans he')
    rw [Function.update_self] at hstate
    cases hstate

/-- **When the decision about an open incident is device-exact**: exactly when the last
entity of each companion with the incident's key is on its device, or all companions are
required and one has no such entity. -/
theorem deviceExact_iff {rule : IncidentRule} {companionIds : List Uuid}
    (hids : validateCompanionIds rule.clearOnCompanionIds = some companionIds)
    (table : EntityTable) {incident : Incident} (hopen : incident.state = .isOpen) :
    DeviceExact rule table incident ↔ LastOnDevice rule.mode companionIds table incident := by
  constructor
  · intro h
    by_contra hlast
    simp only [LastOnDevice, not_or, not_and, not_exists, not_forall] at hlast
    obtain ⟨hall, cid, hcid, e, he, hdevice⟩ := hlast
    exact not_deviceExact_of_last hids hopen hcid he hdevice
      (fun hmode cid hcid => hall hmode cid hcid) h
  · rintro (⟨hmode, cid, hcid, hnone⟩ | hdevice)
    · have hnever : ∀ now σ, ¬Clears rule (table.withStates σ) now incident := by
        intro now σ hclears
        rw [clears_iff hids _ _ _ hopen, hmode] at hclears
        obtain ⟨e, he, -⟩ := hclears cid hcid
        rw [hnone] at he
        cases he
      exact ⟨fun now σ h => absurd h (hnever now σ),
        fun now σ σ' _ => iff_of_false (hnever now σ) (hnever now σ')⟩
    · refine ⟨fun now σ hclears => ⟨companionIds, hids, ?_⟩, fun now σ σ' hagree => ?_⟩
      · rw [clears_iff hids _ _ _ hopen] at hclears
        refine hclears.imp fun cid hcid ⟨e, he, hstate⟩ => ?_
        obtain ⟨hmem, henabled, hdefinition, hkey⟩ := EntityTable.mem_of_last he
        exact ⟨e, hmem, henabled, hdefinition, hdevice cid hcid e he, hkey, hstate⟩
      · have hsame : ∀ cid ∈ companionIds, ∀ e ∈ table.last cid (rawKey incident.entityKey),
            σ e.id = σ' e.id := fun cid hcid e he =>
          hagree e (EntityTable.mem_of_last he).1 (hdevice cid hcid e he)
        rw [clears_iff hids _ _ _ hopen, clears_iff hids _ _ _ hopen]
        exact ⟨Required.imp fun cid hcid ⟨e, he, hstate⟩ => ⟨e, he, hsame cid hcid e he ▸ hstate⟩,
          Required.imp fun cid hcid ⟨e, he, hstate⟩ => ⟨e, he, (hsame cid hcid e he).trans hstate⟩⟩

/-! ### Two devices -/

/-- The companion definition of the examples. -/
def recoveryDefinition : Uuid := "11111111-1111-1111-1111-111111111111"

/-- A rule whose incidents are cleared when the companion has recovered. -/
def latencyRule : IncidentRule where
  id := "r1"
  clearOnCompanionIds := .arr [.str recoveryDefinition]
  clearCompanionMode := some "any"

/-- An open incident of the first device; like most entities, its entity has no key. -/
def latencyIncident : Incident where
  id := "i1"
  entityKey := "a1|"
  deviceId := some "d1"
  state := .isOpen
  severity := "critical"
  message := "latency"
  labels := []

/-- The companion's entity of the incident's device only. -/
def oneDevice : EntityTable where
  rows := [⟨recoveryDefinition, "a2", some "d1", "", true, .firing⟩]

/-- The companion's entities of two devices. -/
def twoDevices : EntityTable where
  rows := [⟨recoveryDefinition, "a2", some "d1", "", true, .firing⟩,
    ⟨recoveryDefinition, "a3", some "d2", "", true, .resolved⟩]

theorem validateCompanionIds_latencyRule :
    validateCompanionIds latencyRule.clearOnCompanionIds = some [recoveryDefinition] := by
  decide +kernel

theorem deviceExact_oneDevice : DeviceExact latencyRule oneDevice latencyIncident :=
  (deviceExact_iff validateCompanionIds_latencyRule oneDevice rfl).2 (.inr (by decide))

/-- The companion is firing on the incident's device and has recovered on another one, and the
incident is cleared. -/
theorem not_deviceExact_twoDevices : ¬DeviceExact latencyRule twoDevices latencyIncident ∧
      Clears latencyRule twoDevices.rows 0 latencyIncident := by
  have hclears : Clears latencyRule twoDevices.rows 0 latencyIncident :=
    ⟨_, .head _, by decide +kernel⟩
  refine ⟨fun h => ?_, hclears⟩
  let σ : Uuid × Uuid → AlertState := fun id => if id.2 = "a3" then .resolved else .firing
  have hmode : latencyRule.mode = .any := by decide +kernel
  obtain ⟨companionIds, -, hrequired⟩ := h.sound 0 σ
    (show Clears latencyRule (twoDevices.withStates σ) 0 latencyIncident from hclears)
  rw [hmode] at hrequired
  obtain ⟨cid, -, hrecovered⟩ := hrequired
  have hnone : ∀ e ∈ twoDevices.rows, e.deviceId = latencyIncident.deviceId →
      σ e.id ≠ .resolved := by decide
  obtain ⟨e, he, -, -, hdevice, -, hstate⟩ := hrecovered
  exact hnone e he hdevice hstate

end MonCTL.Incidents
