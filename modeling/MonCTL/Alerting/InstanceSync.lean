import MonCTL.Alerting.ClickHouseFailure

/-!
# Entities of a Definition

Entities are created in three places: when a definition is stored, when an assignment is
created, and by a periodic task that looks for missing ones. Each of them adds an entity for
an assignment that has none, and none of them gives it a key. After that only evaluations
write entities.
-/

namespace MonCTL.Alerting

open List Dsl

/-- An assignment of the definition's app. -/
structure AppAssignment where
  id : Uuid
  deviceId : Option Uuid
  enabled : Bool
  deriving DecidableEq

def newEntity (enabled : Bool) (assignment : AppAssignment) : AlertEntity where
  assignmentId := assignment.id
  deviceId := assignment.deviceId
  enabled
  state := .ok

/-- The body of the sync loops: add an entity for an assignment that has none. -/
def syncAssignment (enabled : Bool) (entities : Entities) (assignment : AppAssignment) :
    Entities :=
  if h : assignment.id ∈ entities.rows.map AlertEntity.assignmentId then entities
  else
    { rows := entities.rows ++ [newEntity enabled assignment]
      assignments_nodup := by
        rw [map_append, nodup_append]
        refine ⟨entities.assignments_nodup, by simp, ?_⟩
        rintro x hx y hy rfl
        rw [map_singleton, mem_singleton] at hy
        exact h (show (newEntity enabled assignment).assignmentId ∈ _ from hy ▸ hx) }

/-- `sync_instances_for_definition`, for a definition that is enabled or not. -/
def syncInstancesForDefinition (enabled : Bool) (assignments : List AppAssignment)
    (entities : Entities) : Entities :=
  (assignments.filter AppAssignment.enabled).foldl (syncAssignment enabled) entities

/-- `sync_instances_for_assignment`, as one of the app's definitions sees it. -/
def syncInstancesForAssignment (enabled : Bool) (assignment : AppAssignment)
    (entities : Entities) : Entities :=
  syncAssignment enabled entities assignment

/-- `_sync_alert_instances`, as an enabled definition sees it. -/
def syncAlertInstances (assignments : List AppAssignment) (entities : Entities) : Entities :=
  (assignments.filter fun a => a.enabled ∧ a.deviceId ≠ none).foldl (syncAssignment true) entities

/-! ### Other writes -/

/-- `update_alert_instance`: silence an entity, or undo it. -/
def updateAlertInstance (assignmentId : Uuid) (enabled : Bool) (e : AlertEntity) : AlertEntity :=
  if e.assignmentId = assignmentId then { e with enabled } else e

theorem updateAlertInstance_assignmentId (id : Uuid) (enabled : Bool) (e : AlertEntity) :
    (updateAlertInstance id enabled e).assignmentId = e.assignmentId := by
  rw [updateAlertInstance]
  split <;> rfl

/-- The entities with the one of an assignment switched on or off. -/
def withInstance (id : Uuid) (enabled : Bool) (entities : Entities) : Entities where
  rows := entities.rows.map (updateAlertInstance id enabled)
  assignments_nodup := by
    rw [map_map]
    exact (map_congr_left fun e _ => updateAlertInstance_assignmentId id enabled e) ▸
      entities.assignments_nodup

/-- `cleanup_resolved_instances`: entities that have been resolved for long are reset. -/
def cleanupResolved (cutoff : Timestamp) (e : AlertEntity) : AlertEntity :=
  if e.state = .resolved ∧ e.lastClearedAt.any (· < cutoff) then
    { e with
      state := .ok
      lastClearedAt := none
      startedFiringAt := none
      currentStateSince := none
      lastTriggeredAt := none
      currentValue := none
      fireCount := 0
      fireHistory := [] }
  else e

/-- The entities a definition can have. -/
inductive Created : Entities → Prop
  | empty : Created ⟨[], by simp⟩
  | definitionStored {entities : Entities} (enabled : Bool) (assignments : List AppAssignment) :
      Created entities → Created (syncInstancesForDefinition enabled assignments entities)
  | assignmentStored {entities : Entities} (enabled : Bool) (assignment : AppAssignment) :
      Created entities → Created (syncInstancesForAssignment enabled assignment entities)
  | periodicSync {entities : Entities} (assignments : List AppAssignment) :
      Created entities → Created (syncAlertInstances assignments entities)
  | evaluation {entities entities' : Entities} (table : String) (defn : AlertDefinition)
      (c : Cycle) : Created entities →
      entities'.rows = (evaluateDefinitionIsolated table defn entities c).1 → Created entities'
  | silenced {entities entities' : Entities} (assignmentId : Uuid) (enabled : Bool) :
      Created entities →
      entities'.rows = entities.rows.map (updateAlertInstance assignmentId enabled) →
      Created entities'
  | cleaned {entities entities' : Entities} (cutoff : Timestamp) : Created entities →
      entities'.rows = entities.rows.map (cleanupResolved cutoff) → Created entities'
  | deleted {entities entities' : Entities} (assignmentId : Uuid) : Created entities →
      entities'.rows = entities.rows.filter (·.assignmentId ≠ assignmentId) → Created entities'

/-! ### Writes keep the key -/

@[simp] theorem refreshFromHealthy_entityKey (e : AlertEntity) (healthy : Firing) :
    (e.refreshFromHealthy healthy).entityKey = e.entityKey := by
  unfold AlertEntity.refreshFromHealthy
  split <;> rfl

@[simp] theorem evaluatedAt_entityKey (e : AlertEntity) (now : Timestamp) :
    (e.evaluatedAt now).entityKey = e.entityKey := rfl

theorem updateEntity_entityKey (defn : AlertDefinition) (now : Timestamp) (fresh : List Uuid)
    (results : List (String × Firing)) (hasHealthy : Bool) (healthy : Firing) (e : AlertEntity) :
    (updateEntity defn now fresh results hasHealthy healthy e).1.entityKey = e.entityKey := by
  unfold updateEntity
  split
  · rfl
  · split
    · unfold clearEntity
      dsimp only
      split_ifs <;> simp [AlertEntity.resolve]
    · unfold fireEntity
      dsimp only
      split_ifs <;> simp

theorem configChangedRow_keys (acc : Firing × List AlertEntity) (row : Row) :
    (configChangedRow acc row).2.map AlertEntity.key = acc.2.map AlertEntity.key := by
  unfold configChangedRow
  dsimp only
  split
  · rfl
  · split
    · split <;> rfl
    · rw [storeBaseline, map_map]
      refine map_congr_left fun e _ => ?_
      simp only [Function.comp]
      split <;> rfl

theorem foldl_configChangedRow_keys (rows : List Row) (acc : Firing × List AlertEntity) :
    (rows.foldl configChangedRow acc).2.map AlertEntity.key = acc.2.map AlertEntity.key := by
  induction rows generalizing acc with
  | nil => rfl
  | cons row rows ih => rw [foldl_cons, ih, configChangedRow_keys]

theorem evaluateConfigChanged_keys (ch : ClickHouse) (name : QueryName) (key : String)
    (instances : List AlertEntity) :
    (evaluateConfigChanged ch name key instances).2.map AlertEntity.key =
      instances.map AlertEntity.key := by
  unfold evaluateConfigChanged
  split
  · rfl
  next rows _ => exact foldl_configChangedRow_keys rows ([], instances)

variable {ch : ClickHouse} {isConfigChanged : Bool} {vars : Variables}
    {instances : List AlertEntity}

theorem evaluateTier_keys {name : QueryName} {compiled : CompiledQuery}
    {r : Firing × List AlertEntity}
    (h : evaluateTier ch isConfigChanged vars name compiled instances = .ok r) :
    r.2.map AlertEntity.key = instances.map AlertEntity.key := by
  cases isConfigChanged with
  | true =>
    rw [evaluateTier, if_pos rfl] at h
    rw [← Except.ok.inj h, evaluateConfigChanged_keys]
  | false => rw [evaluateTier_eq_ok h]

theorem evaluateTiers_keys {i : ℕ} {tiers : List (String × CompiledQuery)}
    {r : List (String × Firing) × List AlertEntity}
    (h : evaluateTiers ch isConfigChanged vars i tiers instances = .ok r) :
    r.2.map AlertEntity.key = instances.map AlertEntity.key := by
  induction tiers generalizing i instances r with
  | nil => rw [← Except.ok.inj h]
  | cons tier tiers ih =>
    rw [evaluateTiers] at h
    obtain ⟨first, hfirst, h⟩ := StateExcept.bind_eq_ok.1 h
    obtain ⟨rest, hrest, h⟩ := StateExcept.bind_eq_ok.1 h
    rw [← Except.ok.inj h]
    exact (ih hrest).trans (evaluateTier_keys hfirst)

theorem evaluateHealthy_keys (ch : ClickHouse) (isConfigChanged : Bool) (vars : Variables)
    (healthy : Option CompiledQuery) (instances : List AlertEntity) :
    (evaluateHealthy ch isConfigChanged vars healthy instances).2.map AlertEntity.key =
      instances.map AlertEntity.key := by
  unfold evaluateHealthy
  split
  · rfl
  · split
    next h => exact evaluateTier_keys h
    · rfl

variable {table : String} {defn : AlertDefinition} {c : Cycle}

theorem evaluateCompiled_keys {compiled : CompiledDefinition}
    {r : List AlertEntity × List LogRecord}
    (h : evaluateCompiled table defn compiled instances c = .ok r) :
    r.1.map AlertEntity.key = instances.map AlertEntity.key := by
  rw [evaluateCompiled] at h
  obtain ⟨⟨results, instances'⟩, htiers, h⟩ := StateExcept.bind_eq_ok.1 h
  dsimp only at h
  have hhealthy := evaluateHealthy_keys c.clickHouse compiled.isConfigChanged c.thresholdVars
    compiled.healthy instances'
  generalize evaluateHealthy c.clickHouse compiled.isConfigChanged c.thresholdVars
    compiled.healthy instances' = healthy at h hhealthy
  obtain ⟨fk, instances''⟩ := healthy
  rw [← Except.ok.inj h, map_map, map_map, ← evaluateTiers_keys htiers, ← hhealthy]
  refine map_congr_left fun e _ => ?_
  simp only [Function.comp, AlertEntity.key, updateEntity_entityKey, (updateEntity_frame ..).1]

/-- **An evaluation keeps the keys of the entities.** -/
theorem exists_key_of_mem_evaluation {entities : Entities} {e' : AlertEntity}
    (he' : e' ∈ (evaluateDefinitionIsolated table defn entities c).1) :
    ∃ e ∈ entities.rows, e'.key = e.key := by
  have hcommit : ∀ updated : List AlertEntity,
      updated.map AlertEntity.key = entities.enabled.map AlertEntity.key →
      e' ∈ entities.commit updated → ∃ e ∈ entities.rows, e'.key = e.key := by
    intro updated hkeys hmem
    obtain ⟨row, hrow, rfl⟩ := List.mem_map.1 hmem
    cases hfind : updated.find? (·.assignmentId = row.assignmentId) with
    | none => exact ⟨row, hrow, rfl⟩
    | some x =>
      have hx : x.key ∈ entities.enabled.map AlertEntity.key :=
        hkeys ▸ mem_map_of_mem (mem_of_find?_eq_some hfind)
      obtain ⟨e, he, hkey⟩ := List.mem_map.1 hx
      exact ⟨e, (List.mem_filter.1 he).1, hkey.symm⟩
  unfold evaluateDefinitionIsolated evaluateDefinition at he'
  split at he'
  next updated records hrun =>
    refine hcommit updated ?_ he'
    split at hrun
    · rw [← (Prod.mk.inj (Except.ok.inj hrun)).1]
    · split at hrun
      · rw [← (Prod.mk.inj (Except.ok.inj hrun)).1]
      · exact evaluateCompiled_keys hrun
  · exact ⟨e', he', rfl⟩

theorem syncAssignment_entityKey {enabled : Bool} {assignments : List AppAssignment}
    {entities : Entities} (h : ∀ e ∈ entities.rows, e.entityKey = "") :
    ∀ e ∈ (assignments.foldl (syncAssignment enabled) entities).rows, e.entityKey = "" := by
  induction assignments generalizing entities with
  | nil => exact h
  | cons assignment assignments ih =>
    refine ih fun e he => ?_
    unfold syncAssignment at he
    split at he
    · exact h e he
    · rcases List.mem_append.1 he with he | he
      · exact h e he
      · rw [List.mem_singleton.1 he]
        rfl

/-- **No entity has a key.** -/
theorem Created.entityKey {entities : Entities} (h : Created entities) :
    ∀ e ∈ entities.rows, e.entityKey = "" := by
  induction h with
  | empty => simp
  | definitionStored enabled assignments _ ih => exact syncAssignment_entityKey ih
  | assignmentStored enabled assignment _ ih =>
    exact @syncAssignment_entityKey enabled [assignment] _ ih
  | periodicSync assignments _ ih => exact syncAssignment_entityKey ih
  | evaluation table defn c _ hrows ih =>
    intro e he
    obtain ⟨e₀, he₀, hkey⟩ := exists_key_of_mem_evaluation (hrows ▸ he)
    exact (congrArg Prod.snd hkey).trans (ih e₀ he₀)
  | silenced assignmentId enabled _ hrows ih =>
    intro e he
    obtain ⟨e₀, he₀, rfl⟩ := List.mem_map.1 (hrows ▸ he)
    unfold updateAlertInstance
    split <;> exact ih e₀ he₀
  | cleaned cutoff _ hrows ih =>
    intro e he
    obtain ⟨e₀, he₀, rfl⟩ := List.mem_map.1 (hrows ▸ he)
    unfold cleanupResolved
    split <;> exact ih e₀ he₀
  | deleted assignmentId _ hrows ih =>
    intro e he
    exact ih e (List.mem_filter.1 (hrows ▸ he)).1

end MonCTL.Alerting
