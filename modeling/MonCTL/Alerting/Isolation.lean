import Mathlib.Data.Fintype.EquivFin
import MonCTL.Alerting.Router

/-!
# Tenant Isolation of the Alerting API

A caller who is restricted to some tenants is to see nothing of the devices of other tenants, and to
change nothing of theirs. Two states that differ only in what belongs to such devices (the devices
with their assignments, entities and overrides, and the history) are equivalent for the caller.

The lists of entities and the history are filtered by tenant. The lists of definitions, a
definition with its entities and the list of overrides are not, and neither are the writes to an
entity or an override. What is proved is when exactly a request keeps to the caller's tenants.
-/

namespace MonCTL.Alerting.Router

open List
open Option (some_ne_none ne_none_iff_exists')

variable {c : Setting} {ids : List String} {now : ℕ}

def inTenants (ids : List String) (d : Device) : Bool := tenantFilter (some ids) d.tenantId

namespace State

/-! ### What belongs to other tenants -/

def outside (ids : List String) (s : State) (deviceId : ℕ) : Bool :=
  (s.devices.get? deviceId).any fun d => !inTenants ids d

/-- What belongs to a device outside the tenants. -/
def foreign (ids : List String) (s : State) (deviceId : Option ℕ) : Bool :=
  deviceId.any (s.outside ids)

/-- The constraints of the database: what a row refers to is there, and the names of definitions
and threshold variables, the entities and the overrides are unique. -/
structure Consistent (s : State) : Prop where
  definition_app : ∀ row ∈ s.definitions.rows, s.apps.get? row.2.appId ≠ none
  assignment_device : ∀ row ∈ s.assignments.rows, ∀ d ∈ row.2.deviceId, s.devices.get? d ≠ none
  assignment_app : ∀ row ∈ s.assignments.rows, s.apps.get? row.2.appId ≠ none
  entity_definition : ∀ row ∈ s.entities.rows, s.definitions.get? row.2.definitionId ≠ none
  entity_assignment : ∀ row ∈ s.entities.rows, s.assignments.get? row.2.assignmentId ≠ none
  entity_device : ∀ row ∈ s.entities.rows, ∀ d ∈ row.2.deviceId, s.devices.get? d ≠ none
  entity_unique : (s.entities.rows.map fun row => (row.2.definitionId, row.2.assignmentId)).Nodup
  definition_unique : (s.definitions.rows.map fun row => (row.2.appId, row.2.name)).Nodup
  threshold_unique : (s.thresholds.rows.map fun row => (row.2.appId, row.2.name)).Nodup
  override_threshold : ∀ row ∈ s.overrides.rows, s.thresholds.get? row.2.variableId ≠ none
  override_device : ∀ row ∈ s.overrides.rows, s.devices.get? row.2.deviceId ≠ none
  override_unique :
    (s.overrides.rows.map fun row => (row.2.variableId, row.2.deviceId, row.2.entityKey)).Nodup

/-- The devices of the tenants. -/
def ownDevices (ids : List String) (s : State) : List (ℕ × Device) :=
  s.devices.rows.filter fun row => inTenants ids row.2

/-- The assignments, but for those of devices outside the tenants. -/
def ownAssignments (ids : List String) (s : State) : List (ℕ × AppAssignment) :=
  s.assignments.rows.filter fun row => !s.foreign ids row.2.deviceId

/-- The entities, but for those of devices outside the tenants. -/
def ownEntities (ids : List String) (s : State) : List (ℕ × AlertEntity) :=
  s.entities.rows.filter fun row => !s.foreign ids row.2.deviceId

/-- The overrides, but for those of devices outside the tenants. -/
def ownOverrides (ids : List String) (s : State) : List (ℕ × ThresholdOverride) :=
  s.overrides.rows.filter fun row => !s.outside ids row.2.deviceId

/-- The history of the tenants. -/
def ownLog (ids : List String) (s : State) : List LogRow := s.log.filter (·.tenantId ∈ ids)

/-- **Equivalent states** for a caller differ only in what belongs to other tenants. -/
structure Equivalent (ids : List String) (s s' : State) : Prop where
  apps : s'.apps = s.apps
  definitions : s'.definitions = s.definitions
  thresholds : s'.thresholds = s.thresholds
  retention : s'.retention = s.retention
  devices : s'.ownDevices ids = s.ownDevices ids
  assignments : s'.ownAssignments ids = s.ownAssignments ids
  entities : s'.ownEntities ids = s.ownEntities ids
  overrides : s'.ownOverrides ids = s.ownOverrides ids
  log : s'.ownLog ids = s.ownLog ids

/-! ### The condition -/

/-- The assignment of a listed entity is not one of another device, outside the tenants. -/
def OwnAssignment (ids : List String) (s : State) (i : Joined) : Prop :=
  ∀ a ∈ s.assignments.get? i.entity.assignmentId, s.foreign ids a.deviceId = false

/-- **Reads that keep to the tenants**: no definition is listed or shown, the assignments of the
entities that are listed belong to the tenants, and the overrides are those of a device of the
tenants, or of a threshold variable that is not there. -/
def ReadsOwn (c : Setting) (now : ℕ) (ids : List String) (s : State) : Read → Prop
  | .definitions f => f.limit = 0 ∨ (s.selectedDefinitions c f).length ≤ f.offset
  | .definition id => s.definitions.get? id = none
  | .instances f => ∀ i ∈ s.instancePage c (some ids) f, s.OwnAssignment ids i
  | .active => ∀ i ∈ s.activeInstances (some ids), s.OwnAssignment ids i
  | .resolved limit deviceId => ∀ days ∈ s.retentionDays,
      ∀ i ∈ s.resolvedInstances c (some ids) (now - days * dayMicros) deviceId limit,
        s.OwnAssignment ids i
  | .overrides deviceId variableId =>
    (∃ d ∈ deviceId, (s.devices.get? d).any (inTenants ids) = true) ∨
      ∀ row ∈ s.thresholds.rows, variableId.all (· = row.1) = false
  | .log _ | .validate _ _ | .invert _ => True

def Refuses (s : State) (r : AlertDefinition) : Prop :=
  ∀ app ∈ s.apps.get? r.appId, (invalidTier app.targetTable r.severityTiers).isSome = true ∨
    s.nameTaken s.definitions.fresh r.appId r.name = true

/-- **Writes that keep to the tenants**: a definition is created for an app that no other device
has, and deleted only if it has no entities of other devices; and an entity or override that is
written belongs to the tenants, or is not changed. -/
def WritesOwn (now : ℕ) (ids : List String) (s : State) : Write → Prop
  | .createDefinition r => s.Refuses r ∨ ∀ row ∈ s.assignments.rows, row.2.appId = r.appId →
      row.2.enabled = true → s.foreign ids row.2.deviceId = false
  | .deleteDefinition id => ∀ row ∈ s.entities.rows, row.2.definitionId = id →
      s.foreign ids row.2.deviceId = false
  | .updateInstance id enabled => ∀ e ∈ s.entities.get? id, s.foreign ids e.deviceId = true →
      e.enabled = enabled
  | .createOverride variableId deviceId entityKey _ => s.outside ids deviceId = true →
      s.thresholds.get? variableId = none ∨ s.overridden variableId deviceId entityKey = true
  | .updateOverride id value => ∀ o ∈ s.overrides.get? id, s.outside ids o.deviceId = true →
      o.value = value ∧ o.updatedAt = now
  | .deleteOverride id => ∀ o ∈ s.overrides.get? id, s.outside ids o.deviceId = false
  | .updateDefinition _ _ _ _ _ _ | .cleanup => True

/-- **The response is the same** in every equivalent state. -/
def Hides (c : Setting) (now : ℕ) (ids : List String) (s : State) (r : Read) : Prop :=
  ∀ s' : State, s'.Consistent → s.Equivalent ids s' →
    s'.read c now (some ids) r = s.read c now (some ids) r

/-- **Nothing that belongs to other tenants is changed**: their entities and overrides are the same
afterwards. -/
def Untouched (now : ℕ) (ids : List String) (s : State) (w : Write) : Prop :=
  ∀ s', s.write now w = .ok s' →
    (∀ id e, s.foreign ids e.deviceId = true →
      (s'.entities.get? id = some e ↔ s.entities.get? id = some e)) ∧
    ∀ id o, s.outside ids o.deviceId = true →
      (s'.overrides.get? id = some o ↔ s.overrides.get? id = some o)

/-! ### Equivalent states -/

section Equivalent

variable {s s' s'' : State}

theorem Equivalent.refl (s : State) : s.Equivalent ids s :=
  ⟨rfl, rfl, rfl, rfl, rfl, rfl, rfl, rfl, rfl⟩

theorem Equivalent.symm (h : s.Equivalent ids s') : s'.Equivalent ids s :=
  ⟨h.apps.symm, h.definitions.symm, h.thresholds.symm, h.retention.symm, h.devices.symm,
    h.assignments.symm, h.entities.symm, h.overrides.symm, h.log.symm⟩

theorem Equivalent.trans (h : s.Equivalent ids s') (h' : s'.Equivalent ids s'') :
    s.Equivalent ids s'' :=
  ⟨h'.apps.trans h.apps, h'.definitions.trans h.definitions, h'.thresholds.trans h.thresholds,
    h'.retention.trans h.retention, h'.devices.trans h.devices,
    h'.assignments.trans h.assignments, h'.entities.trans h.entities,
    h'.overrides.trans h.overrides, h'.log.trans h.log⟩

variable {id : ℕ} {d : Device}

theorem Equivalent.device (h : s.Equivalent ids s')
    (hd : s.devices.get? id = some d) (hin : inTenants ids d = true) :
    s'.devices.get? id = some d := by
  have hmem : (id, d) ∈ s'.ownDevices ids := by
    rw [h.devices]
    exact List.mem_filter.2 ⟨Table.mem_rows.2 hd, hin⟩
  exact Table.mem_rows.1 (List.mem_filter.1 hmem).1

/-- An assignment that is not foreign is the same in equivalent states. -/
theorem Equivalent.assignment (h : s.Equivalent ids s') {a : AppAssignment}
    (ha : s.assignments.get? id = some a) (hown : s.foreign ids a.deviceId = false) :
    s'.assignments.get? id = some a := by
  have hmem : (id, a) ∈ s'.ownAssignments ids := by
    rw [h.assignments]
    exact List.mem_filter.2 ⟨Table.mem_rows.2 ha, by rw [hown]; rfl⟩
  exact Table.mem_rows.1 (List.mem_filter.1 hmem).1

def sees (ids : List String) (s : State) (row : ℕ × AlertEntity) : Bool :=
  tenantFilter (some ids) ((s.joined row).device.bind Device.tenantId)

variable {row : ℕ × AlertEntity}

theorem device_of_sees (h : s.sees ids row = true) :
    ∃ id d, row.2.deviceId = some id ∧ s.devices.get? id = some d ∧ inTenants ids d = true := by
  rw [sees, joined] at h
  cases hid : row.2.deviceId with
  | none =>
    rw [hid] at h
    cases h
  | some id =>
    rw [hid, Option.bind_some] at h
    cases hd : s.devices.get? id with
    | none =>
      rw [hd] at h
      cases h
    | some d =>
      rw [hd] at h
      exact ⟨id, d, rfl, hd, h⟩

theorem foreign_eq_false (hd : s.devices.get? id = some d)
    (hin : inTenants ids d = true) : s.foreign ids (some id) = false := by
  rw [foreign, Option.any_some, outside, hd, Option.any_some, hin]
  rfl

theorem Equivalent.sees (h : s.Equivalent ids s')
    (hsees : s.sees ids row = true) : s'.sees ids row = true ∧ s'.joined row = s.joined row := by
  obtain ⟨id, d, hid, hd, hin⟩ := device_of_sees hsees
  have hdevice : row.2.deviceId.bind s'.devices.get? = row.2.deviceId.bind s.devices.get? := by
    rw [hid, Option.bind_some, Option.bind_some, hd, h.device hd hin]
  have hjoined : s'.joined row = s.joined row := by
    rw [joined, joined, h.definitions, h.apps, hdevice]
  refine ⟨?_, hjoined⟩
  rw [State.sees, hjoined]
  exact hsees

theorem visible_eq (ids : List String) (s : State) :
    s.visible (some ids) = ((s.ownEntities ids).filter (s.sees ids)).map s.joined := by
  have hown : (fun row => s.sees ids row && !s.foreign ids row.2.deviceId) = s.sees ids := by
    funext row
    cases hsees : s.sees ids row with
    | false => rfl
    | true =>
      obtain ⟨id, d, hid, hd, hin⟩ := device_of_sees hsees
      rw [hid, foreign_eq_false hd hin]
      rfl
  rw [visible, filter_map, ownEntities, filter_filter, hown]
  rfl

/-- **The visible entities** are the same in equivalent states. -/
theorem Equivalent.visible (h : s.Equivalent ids s') :
    s'.visible (some ids) = s.visible (some ids) := by
  have hsees (row : ℕ × AlertEntity) : s'.sees ids row = s.sees ids row := by
    rw [Bool.eq_iff_iff]
    exact ⟨fun hrow => (h.symm.sees hrow).1, fun hrow => (h.sees hrow).1⟩
  rw [visible_eq, visible_eq, h.entities, funext hsees]
  exact map_congr_left fun row hrow => (h.sees (List.mem_filter.1 hrow).2).2

theorem Equivalent.enrich (h : s.Equivalent ids s') (hc : s.Consistent) {i : Joined}
    (hi : i ∈ s.visible (some ids)) (hown : s.OwnAssignment ids i) : s'.enrich i = s.enrich i := by
  obtain ⟨row, hrow, rfl⟩ := List.mem_map.1 (List.mem_filter.1 hi).1
  obtain ⟨a, ha⟩ := ne_none_iff_exists'.1 (hc.entity_assignment row hrow)
  have hown := hown a ha
  have ha' := h.assignment ha hown
  cases hid : a.deviceId with
  | none =>
    rw [State.enrich, State.enrich, State.joined]
    dsimp only
    rw [ha, ha', Option.bind_some, Option.bind_some, hid]
    rfl
  | some id =>
    obtain ⟨d, hd⟩ := ne_none_iff_exists'.1
      (hc.assignment_device (row.2.assignmentId, a) (Table.mem_rows.2 ha) id hid)
    have hin : inTenants ids d = true := by
      rw [hid, foreign, Option.any_some, outside, hd, Option.any_some, Bool.not_eq_false'] at hown
      exact hown
    rw [State.enrich, State.enrich, State.joined]
    dsimp only
    rw [ha, ha', Option.bind_some, Option.bind_some, hid, Option.map_some, Option.map_some, hd,
      h.device hd hin]

/-! ### Reads of own rows -/

theorem mem_of_mem_page {α : Type} {le : SqlValue → SqlValue → Bool} {column : α → SqlValue}
    {descending : Bool} {limit offset : ℕ} {rows : List α} {x : α}
    (h : x ∈ paginate limit offset (orderBy le column descending rows)) : x ∈ rows :=
  (mergeSort_perm rows _).subset (drop_subset _ _ (take_subset _ _ h))

theorem Equivalent.logRows (h : s.Equivalent ids s') :
    s'.log.filter (fun row => logTenants (some ids) row.tenantId) =
      s.log.filter fun row => logTenants (some ids) row.tenantId := by
  have hown (t : State) : t.log.filter (fun row => logTenants (some ids) row.tenantId) =
      (t.ownLog ids).filter fun row => logTenants (some ids) row.tenantId := by
    rw [ownLog, filter_filter]
    refine filter_congr fun row _ => ?_
    cases hrow : logTenants (some ids) row.tenantId with
    | false => rfl
    | true =>
      rw [logTenants, Option.all_some, decide_eq_true_eq] at hrow
      exact (decide_eq_true (List.mem_filter.1 hrow).1).symm
  rw [hown, hown, h.log]

theorem Equivalent.overridesOf (h : s.Equivalent ids s')
    (hd : s.devices.get? id = some d) (hin : inTenants ids d = true) (variableId : Option ℕ) :
    s'.listThresholdOverrides (some id) variableId = s.listThresholdOverrides
    (some id) variableId := by
  have hown (t : State) (ht : t.devices.get? id = some d) :
      t.listThresholdOverrides (some id) variableId = .overrides ((t.ownOverrides ids).filter
        fun row => (some id).all (· = row.2.deviceId) && variableId.all (· = row.2.variableId)) := by
    rw [listThresholdOverrides, ownOverrides, filter_filter]
    congr 1
    refine filter_congr fun row _ => ?_
    by_cases hid : id = row.2.deviceId
    · have hout : t.outside ids row.2.deviceId = false := by
        rw [← hid]
        exact foreign_eq_false ht hin
      rw [hout, Bool.not_false, Bool.and_true]
    · rw [Option.all_some, decide_eq_false hid]
      rfl
  rw [hown s hd, hown s' (h.device hd hin), h.overrides]

variable {deviceId : Option ℕ}

theorem Consistent.no_overrides (hc : s.Consistent) {variableId : Option ℕ}
    (hno : ∀ row ∈ s.thresholds.rows, variableId.all (· = row.1) = false) :
    s.listThresholdOverrides deviceId variableId = .overrides [] := by
  rw [listThresholdOverrides, List.filter_eq_nil_iff.2]
  intro row hrow hselected
  obtain ⟨v, hv⟩ := ne_none_iff_exists'.1 (hc.override_threshold row hrow)
  rw [Bool.and_eq_true, hno (row.2.variableId, v) (Table.mem_rows.2 hv)] at hselected
  exact Bool.false_ne_true hselected.2

variable {f : DefinitionFilter}

theorem page_eq_nil
    (h : f.limit = 0 ∨ (s.selectedDefinitions c f).length ≤ f.offset)
    (column : ℕ × AlertDefinition → SqlValue) (descending : Bool) :
    paginate f.limit f.offset (orderBy c.le column descending (s.selectedDefinitions c f)) = [] :=
    by
  rw [paginate, take_eq_nil_iff, drop_eq_nil_iff, orderBy, length_mergeSort]
  exact h

variable {r : Read}

/-- **Reads under the condition** have the same response in equivalent states. -/
theorem ReadsOwn.hides (hc : s.Consistent) (h : s.ReadsOwn c now ids r) :
    s.Hides c now ids r := by
  intro s' hc' he
  cases r with
  | definitions f =>
    have hsame : s'.selectedDefinitions c f = s.selectedDefinitions c f := by
      rw [selectedDefinitions, selectedDefinitions, he.definitions]
    change s'.listAlertDefinitions c f = s.listAlertDefinitions c f
    rw [listAlertDefinitions, listAlertDefinitions, hsame, page_eq_nil h]
    rfl
  | definition id =>
    change s'.getAlertDefinition id = s.getAlertDefinition id
    rw [getAlertDefinition, getAlertDefinition, he.definitions,
      show s.definitions.get? id = none from h]
  | instances f =>
    have hpage : s'.instancePage c (some ids) f = s.instancePage c (some ids) f := by
      rw [instancePage, instancePage, selectedInstances, selectedInstances, he.visible]
    have hlength : s'.selectedInstances c (some ids) f = s.selectedInstances c (some ids) f := by
      rw [selectedInstances, selectedInstances, he.visible]
    change s'.listAlertInstances c (some ids) f = s.listAlertInstances c (some ids) f
    rw [listAlertInstances, listAlertInstances, hpage, hlength]
    congr 1
    exact map_congr_left fun i hi => he.enrich hc (List.mem_filter.1 (mem_of_mem_page hi)).1 (h i hi)
  | active =>
    change s'.listActiveInstances (some ids) = s.listActiveInstances (some ids)
    rw [listActiveInstances, listActiveInstances, activeInstances, he.visible]
    congr 1
    exact map_congr_left fun i hi => he.enrich hc (List.mem_filter.1 hi).1 (h i hi)
  | resolved limit deviceId =>
    change s'.listResolvedInstances c now (some ids) limit deviceId =
      s.listResolvedInstances c now (some ids) limit deviceId
    have hdays : s'.retentionDays = s.retentionDays := by
      rw [retentionDays, retentionDays, he.retention]
    rw [listResolvedInstances, listResolvedInstances, hdays]
    cases hsome : s.retentionDays with
    | none => rfl
    | some days =>
      dsimp only
      rw [resolvedInstances, he.visible]
      congr 1
      exact map_congr_left fun i hi =>
        he.enrich hc (List.mem_filter.1 (mem_of_mem_page hi)).1 (h days hsome i hi)
  | overrides deviceId variableId =>
    change s'.listThresholdOverrides deviceId variableId =
      s.listThresholdOverrides deviceId variableId
    rcases h with ⟨id, rfl, hin⟩ | hno
    · obtain ⟨d, hd, hin⟩ := (Option.any_eq_true _ _).1 hin
      exact he.overridesOf hd hin variableId
    · rw [hc.no_overrides hno, hc'.no_overrides (he.thresholds ▸ hno)]
  | log f =>
    change s'.queryAlertLog c (some ids) f = s.queryAlertLog c (some ids) f
    rw [queryAlertLog, queryAlertLog, he.logRows]
  | validate expression targetTable => rfl
  | invert id =>
    change s'.invertAlertDefinition id = s.invertAlertDefinition id
    rw [invertAlertDefinition, invertAlertDefinition, he.definitions]

/-! ### More that belongs to other tenants -/

/-- Another device. -/
def withDevice (s : State) (d : ℕ) (h : s.devices.get? d = none) (tenant : String) : State :=
  { s with devices := s.devices.insert d ⟨"", some tenant⟩ h }

def withEntity (s : State) (definitionId appId device : ℕ) : State :=
  { s with
    assignments := s.assignments.add ⟨appId, some device, true⟩
    entities := s.entities.add (newEntity definitionId true
      (s.assignments.fresh, ⟨appId, some device, true⟩)) }

/-- Another override. -/
def withOverride (s : State) (variableId device : ℕ) (entityKey : String) : State :=
  { s with overrides := s.overrides.add ⟨variableId, device, entityKey, 0, 0, 0⟩ }

def withName (s : State) (device : ℕ) : State :=
  { s with devices := s.devices.modify device fun d => { d with name := d.name ++ "'" } }

section Device

variable {d : ℕ} {h : s.devices.get? d = none} {tenant : String}

theorem withDevice_ne_none {d' : ℕ} (hd' : s.devices.get? d' ≠ none) :
    (s.withDevice d h tenant).devices.get? d' = s.devices.get? d' := by
  rw [withDevice, Table.get?_insert, if_neg]
  rintro rfl
  exact hd' h

theorem withDevice_self : (s.withDevice d h tenant).devices.get? d = some ⟨"", some tenant⟩ := by
  rw [withDevice, Table.get?_insert, if_pos rfl]

theorem outside_withDevice (ht : tenant ∉ ids) : (s.withDevice d h tenant).outside ids d = true :=
    by
  rw [outside, withDevice_self, Option.any_some, inTenants, tenantFilter, Option.any_some,
    decide_eq_false ht]
  rfl

theorem foreign_withDevice {deviceId : Option ℕ}
    (hd' : ∀ d' ∈ deviceId, s.devices.get? d' ≠ none) :
    (s.withDevice d h tenant).foreign ids deviceId = s.foreign ids deviceId := by
  cases deviceId with
  | none => rfl
  | some d' =>
    rw [foreign, foreign, Option.any_some, Option.any_some, outside, outside,
      withDevice_ne_none (hd' d' rfl)]

theorem Consistent.withDevice_equivalent (hc : s.Consistent) (ht : tenant ∉ ids) :
    s.Equivalent ids (s.withDevice d h tenant) where
  apps := rfl
  definitions := rfl
  thresholds := rfl
  retention := rfl
  devices := by
    have hnot : inTenants ids ⟨"", some tenant⟩ = false := decide_eq_false ht
    rw [ownDevices, ownDevices, withDevice, Table.insert, filter_append,
      filter_cons_of_neg (by rw [hnot]; exact Bool.false_ne_true), filter_nil,
      append_nil]
  assignments := filter_congr fun row hrow => by
    rw [foreign_withDevice (hc.assignment_device row hrow)]
  entities := filter_congr fun row hrow => by rw [foreign_withDevice (hc.entity_device row hrow)]
  overrides := filter_congr fun row hrow => by
    rw [outside, outside, withDevice_ne_none (hc.override_device row hrow)]
  log := rfl

theorem Consistent.withDevice (hc : s.Consistent) : (s.withDevice d h tenant).Consistent :=
  { hc with
    assignment_device := fun row hrow d' hd' => by
      have hnone := hc.assignment_device row hrow d' hd'
      rw [withDevice_ne_none hnone]
      exact hnone
    entity_device := fun row hrow d' hd' => by
      have hnone := hc.entity_device row hrow d' hd'
      rw [withDevice_ne_none hnone]
      exact hnone
    override_device := fun row hrow => by
      have hnone := hc.override_device row hrow
      rw [withDevice_ne_none hnone]
      exact hnone }

end Device

variable {definitionId appId device : ℕ}

theorem get?_withEntity (hid : s.assignments.get? id ≠ none) :
    (s.withEntity definitionId appId device).assignments.get? id = s.assignments.get? id := by
  rw [withEntity, Table.get?_add, if_neg]
  rintro rfl
  exact hid (Table.get?_fresh s.assignments)

theorem filter_add {V : Type} (t : Table ℕ V) {v : V} {p : ℕ × V → Bool}
    (hp : p (t.fresh, v) = false) : (t.add v).rows.filter p = t.rows.filter p := by
  rw [Table.add, Table.insert, filter_append,
    filter_cons_of_neg (by rw [hp]; exact Bool.false_ne_true), filter_nil,
    append_nil]

theorem withEntity_equivalent (hout : s.outside ids device = true) :
    s.Equivalent ids (s.withEntity definitionId appId device) where
  apps := rfl
  definitions := rfl
  thresholds := rfl
  retention := rfl
  devices := rfl
  assignments := filter_add s.assignments (by
    change (!s.outside ids device) = false
    rw [hout]
    rfl)
  entities := filter_add s.entities (by
    change (!s.outside ids device) = false
    rw [hout]
    rfl)
  overrides := rfl
  log := rfl

theorem forall_add {V : Type} {t : Table ℕ V} {v : V} {P : ℕ × V → Prop}
    (h : ∀ row ∈ t.rows, P row) (hv : P (t.fresh, v)) : ∀ row ∈ (t.add v).rows, P row := by
  intro row hrow
  rcases List.mem_append.1 hrow with hrow | hrow
  · exact h row hrow
  · rw [List.mem_singleton.1 hrow]
    exact hv

theorem nodup_add {V K : Type} {t : Table ℕ V} {v : V} {key : ℕ × V → K}
    (h : (t.rows.map key).Nodup) (hv : ∀ row ∈ t.rows, key row ≠ key (t.fresh, v)) :
    ((t.add v).rows.map key).Nodup := by
  rw [Table.add, Table.insert, map_append, nodup_append]
  refine ⟨h, pairwise_singleton _ _, ?_⟩
  rintro k hk k' hk' rfl
  obtain ⟨row, hrow, rfl⟩ := List.mem_map.1 hk
  exact hv row hrow (List.mem_singleton.1 hk')

theorem Consistent.withEntity (hc : s.Consistent)
    (hdefinition : s.definitions.get? definitionId ≠ none) (happ : s.apps.get? appId ≠ none)
    (hdevice : s.devices.get? device ≠ none) :
    (s.withEntity definitionId appId device).Consistent :=
  { hc with
    assignment_device := by
      refine forall_add hc.assignment_device fun d hd => ?_
      obtain rfl := Option.some.inj hd
      exact hdevice
    assignment_app := forall_add hc.assignment_app happ
    entity_definition := forall_add hc.entity_definition hdefinition
    entity_assignment := by
      refine forall_add (fun row hrow => ?_) ?_
      · have hnone := hc.entity_assignment row hrow
        rw [get?_withEntity hnone]
        exact hnone
      · change (s.assignments.add _).get? s.assignments.fresh ≠ none
        rw [Table.get?_add, if_pos rfl]
        exact some_ne_none _
    entity_device := by
      refine forall_add hc.entity_device fun d hd => ?_
      obtain rfl := Option.some.inj hd
      exact hdevice
    entity_unique := by
      refine nodup_add hc.entity_unique fun row hrow heq => ?_
      refine hc.entity_assignment row hrow ?_
      rw [(Prod.mk.inj heq).2]
      exact Table.get?_fresh s.assignments }

variable {variableId : ℕ} {entityKey : String}

theorem withOverride_equivalent
    (hout : s.outside ids device = true) :
    s.Equivalent ids (s.withOverride variableId device entityKey) where
  apps := rfl
  definitions := rfl
  thresholds := rfl
  retention := rfl
  devices := rfl
  assignments := rfl
  entities := rfl
  overrides := filter_add s.overrides (by
    change (!s.outside ids device) = false
    rw [hout]
    rfl)
  log := rfl

theorem Consistent.withOverride (hc : s.Consistent)
    (hthreshold : s.thresholds.get? variableId ≠ none) (hdevice : s.devices.get? device ≠ none)
    (hkey : entityKey ∉ s.overrides.rows.map (·.2.entityKey)) :
    (s.withOverride variableId device entityKey).Consistent :=
  { hc with
    override_threshold := forall_add hc.override_threshold hthreshold
    override_device := forall_add hc.override_device hdevice
    override_unique := by
      refine nodup_add hc.override_unique fun row hrow heq => hkey ?_
      have hsame : row.2.entityKey = entityKey := (Prod.mk.inj (Prod.mk.inj heq).2).2
      exact hsame ▸ mem_map_of_mem hrow }

theorem withName_get? (device id : ℕ) : (s.withName device).devices.get? id =
    if id = device then (s.devices.get? id).map fun d => { d with name := d.name ++ "'" }
    else s.devices.get? id := by
  rw [withName, Table.get?_modify]

theorem outside_withName (device id : ℕ) : (s.withName device).outside ids id = s.outside ids id :=
    by
  rw [outside, outside, withName_get?]
  split
  · rw [Option.any_map]; rfl
  · rfl

theorem withName_equivalent (hout : s.outside ids device = true) :
    s.Equivalent ids (s.withName device) where
  apps := rfl
  definitions := rfl
  thresholds := rfl
  retention := rfl
  devices := by
    rw [ownDevices, ownDevices, withName, Table.modify, filter_map]
    have hfilter : (s.devices.rows.filter ((fun row => inTenants ids row.2) ∘ fun row =>
        (row.1, if row.1 = device then { row.2 with name := row.2.name ++ "'" } else row.2))) =
        s.devices.rows.filter fun row => inTenants ids row.2 := by
      refine filter_congr fun row _ => ?_
      dsimp only [Function.comp]
      split <;> rfl
    rw [hfilter]
    refine (map_congr_left fun row hrow => ?_).trans (map_id _)
    obtain ⟨hmem, hin⟩ := List.mem_filter.1 hrow
    rw [if_neg]
    · rfl
    · rintro rfl
      rw [outside, Table.mem_rows.1 (show (row.1, row.2) ∈ s.devices.rows from hmem),
        Option.any_some, hin] at hout
      cases hout
  assignments := filter_congr fun row _ => by
    rw [foreign, foreign, funext (outside_withName device)]
  entities := filter_congr fun row _ => by rw [foreign, foreign, funext (outside_withName device)]
  overrides := filter_congr fun row _ => by rw [outside_withName]
  log := rfl

theorem Consistent.withName (hc : s.Consistent) (device : ℕ) : (s.withName device).Consistent := by
  have hnone {id : ℕ} (hid : s.devices.get? id ≠ none) : (s.withName device).devices.get? id ≠ none := by
    rw [withName_get?]
    split
    · exact fun heq => hid (Option.map_eq_none_iff.1 heq)
    · exact hid
  exact
    { hc with
      assignment_device := fun row hrow d hd => hnone (hc.assignment_device row hrow d hd)
      entity_device := fun row hrow d hd => hnone (hc.entity_device row hrow d hd)
      override_device := fun row hrow => hnone (hc.override_device row hrow) }

/-! ### Reads that show more -/

theorem exists_not_mem (texts : List String) : ∃ text, text ∉ texts := by
  obtain ⟨text, htext⟩ := Infinite.exists_notMem_finset texts.toFinset
  exact ⟨text, fun hmem => htext (List.mem_toFinset.2 hmem)⟩

theorem Consistent.exists_entity (hc : s.Consistent) (ids : List String)
    {d : AlertDefinition} (hd : s.definitions.get? id = some d) :
    ∃ s' : State, s'.Consistent ∧ s.Equivalent ids s' ∧ ∃ row : ℕ × AlertEntity,
      row.2.definitionId = id ∧ s'.entities.rows = s.entities.rows ++ [row] := by
  obtain ⟨tenant, htenant⟩ := exists_not_mem ids
  have hnew := Table.get?_fresh s.devices
  have happ := hc.definition_app (id, d) (Table.mem_rows.2 hd)
  have hdevice : (s.withDevice s.devices.fresh hnew tenant).devices.get? s.devices.fresh ≠ none := by
    rw [withDevice_self]
    exact some_ne_none _
  have hdefinition : s.definitions.get? id ≠ none := by
    rw [hd]
    exact some_ne_none d
  exact ⟨_, hc.withDevice.withEntity hdefinition happ hdevice,
    (hc.withDevice_equivalent htenant).trans (withEntity_equivalent (outside_withDevice htenant)),
    _, rfl, rfl⟩

theorem counts_ne
    (hrows : s'.entities.rows = s.entities.rows ++ [row]) :
    s'.instanceCounts.map (fun f => f row.2.definitionId) ≠
      s.instanceCounts.map fun f => f row.2.definitionId := by
  have hne : s'.entities.rows ≠ [] := by
    rw [hrows]
    exact append_ne_nil_of_right_ne_nil _ (cons_ne_nil _ _)
  rw [instanceCounts, instanceCounts, if_neg hne]
  split
  · exact some_ne_none _
  · intro heq
    have hcount := (Prod.mk.inj (Option.some.inj heq)).1
    rw [hrows, countP_append, countP_singleton, if_pos (decide_eq_true rfl)] at hcount
    omega

/-- **A list of definitions** that is not empty shows how many entities there are. -/
theorem Consistent.definitions_shown (hc : s.Consistent)
    (h : s.Hides c now ids (.definitions f)) :
    f.limit = 0 ∨ (s.selectedDefinitions c f).length ≤ f.offset := by
  by_contra hnot
  have hpage : paginate f.limit f.offset (orderBy c.le (fun row => definitionColumn f.sortBy row.2)
      (f.sortDir = "desc") (s.selectedDefinitions c f)) ≠ [] := by
    rw [paginate, Ne, take_eq_nil_iff, drop_eq_nil_iff, orderBy, length_mergeSort]
    exact hnot
  obtain ⟨row, hrow⟩ := exists_mem_of_ne_nil _ hpage
  have hmem := (List.mem_filter.1 (mem_of_mem_page hrow)).1
  obtain ⟨s', hc', he, entity, hdefinition, hrows⟩ :=
    hc.exists_entity ids (Table.mem_rows.1 (show (row.1, row.2) ∈ s.definitions.rows from hmem))
  have hsame := h s' hc' he
  have hselected : s'.selectedDefinitions c f = s.selectedDefinitions c f := by
    rw [selectedDefinitions, selectedDefinitions, he.definitions]
  change s'.listAlertDefinitions c f = s.listAlertDefinitions c f at hsame
  rw [listAlertDefinitions, listAlertDefinitions, hselected] at hsame
  have hview := List.map_inj_left.1 (Response.definitions.inj hsame).1 row hrow
  have hcounts := congrArg DefinitionView.counts hview
  rw [fmtDefinition, fmtDefinition, ← hdefinition] at hcounts
  exact counts_ne hrows hcounts

/-- **A definition** is shown with the entities of all devices. -/
theorem Consistent.definition_shown (hc : s.Consistent)
    (h : s.Hides c now ids (.definition id)) : s.definitions.get? id = none := by
  cases hd : s.definitions.get? id with
  | none => rfl
  | some d =>
    obtain ⟨s', hc', he, entity, hdefinition, hrows⟩ := hc.exists_entity ids hd
    have hsame := h s' hc' he
    change s'.getAlertDefinition id = s.getAlertDefinition id at hsame
    rw [getAlertDefinition, getAlertDefinition, he.definitions, hd] at hsame
    have hentities := congrArg List.length (Response.definition.inj hsame).2
    rw [hrows, length_map, length_map, filter_append,
      filter_cons_of_pos (by exact decide_eq_true hdefinition), length_append] at hentities
    exact absurd hentities (by rw [filter_nil, length_singleton]; omega)

/-- **The overrides** of other devices are listed. -/
theorem Consistent.overrides_shown (hc : s.Consistent) {variableId : Option ℕ}
    (h : s.Hides c now ids (.overrides deviceId variableId)) :
    (∃ d ∈ deviceId, (s.devices.get? d).any (inTenants ids) = true) ∨
      ∀ row ∈ s.thresholds.rows, variableId.all (· = row.1) = false := by
  by_contra hnot
  obtain ⟨hdevice, hthreshold⟩ := not_or.1 hnot
  obtain ⟨v, hv⟩ := not_forall.1 hthreshold
  obtain ⟨hv, hvariable⟩ := Classical.not_imp.1 hv
  have hvariable := Bool.eq_true_of_not_eq_false hvariable
  have hv : s.thresholds.get? v.1 ≠ none := by
    rw [Table.mem_rows.1 (show (v.1, v.2) ∈ s.thresholds.rows from hv)]
    exact some_ne_none _
  -- a device outside the tenants that is asked for, which is there or is added
  obtain ⟨t, d, hct, het, hout, hd, hoverrides, hthresholds⟩ : ∃ (t : State) (d : ℕ), t.Consistent ∧
      s.Equivalent ids t ∧ t.outside ids d = true ∧ deviceId.all (· = d) = true ∧
        t.overrides = s.overrides ∧ t.thresholds = s.thresholds := by
    obtain ⟨tenant, htenant⟩ := exists_not_mem ids
    have hadd (d : ℕ) (hnone : s.devices.get? d = none) (hd : deviceId.all (· = d) = true) :=
      (⟨s.withDevice d hnone tenant, d, hc.withDevice, hc.withDevice_equivalent htenant,
        outside_withDevice htenant, hd, rfl, rfl⟩ : ∃ (t : State) (d : ℕ), t.Consistent ∧
          s.Equivalent ids t ∧ t.outside ids d = true ∧ deviceId.all (· = d) = true ∧
            t.overrides = s.overrides ∧ t.thresholds = s.thresholds)
    cases deviceId with
    | none => exact hadd s.devices.fresh (Table.get?_fresh s.devices) rfl
    | some d =>
      have hself : (some d).all (fun x => decide (x = d)) = true := decide_eq_true rfl
      cases hd : s.devices.get? d with
      | none => exact hadd d hd hself
      | some device =>
        refine ⟨s, d, hc, .refl s, ?_, hself, rfl, rfl⟩
        have hnot : inTenants ids device = false := by
          by_contra hin
          exact hdevice ⟨d, rfl, by
            rw [hd, Option.any_some]
            exact Bool.eq_true_of_not_eq_false hin⟩
        rw [outside, hd, Option.any_some, hnot]
        rfl
  obtain ⟨entityKey, hkey⟩ := exists_not_mem (t.overrides.rows.map (·.2.entityKey))
  have hd' : t.devices.get? d ≠ none := by
    intro hnone
    rw [outside, hnone] at hout
    cases hout
  have hsame := h (t.withOverride v.1 d entityKey)
    (hct.withOverride (hthresholds ▸ hv) hd' hkey) (het.trans (withOverride_equivalent hout))
  have hrows := congrArg List.length (Response.overrides.inj hsame)
  rw [State.withOverride, hoverrides, Table.add, Table.insert, filter_append,
    filter_cons_of_pos (by rw [hd, hvariable]; rfl), length_append] at hrows
  exact absurd hrows (by rw [filter_nil, length_singleton]; omega)

theorem Consistent.instances_shown (hc : s.Consistent) {items : List Joined}
    (h : ∀ s' : State, s'.Consistent → s.Equivalent ids s' →
    items.map s'.enrich = items.map s.enrich) :
    ∀ i ∈ items, s.OwnAssignment ids i := by
  intro i hi a ha
  cases hdevice : a.deviceId with
  | none => rfl
  | some d =>
    by_contra hout
    have hout : s.outside ids d = true := Bool.eq_true_of_not_eq_false hout
    obtain ⟨device, hd, -⟩ := (Option.any_eq_true _ _).1 hout
    have hview := List.map_inj_left.1 (h _ (hc.withName d) (withName_equivalent hout)) i hi
    have hname := congrArg InstanceView.deviceName hview
    have hassignment : (s.withName d).assignments = s.assignments := rfl
    rw [State.enrich, State.enrich] at hname
    dsimp only at hname
    rw [hassignment, ha, Option.bind_some, Option.bind_some, hdevice, Option.map_some,
      Option.map_some, withName_get?, if_pos rfl, hd] at hname
    have hlength := congrArg String.length (Option.some.inj hname)
    change (device.name ++ "'").length = device.name.length at hlength
    rw [String.length_append] at hlength
    have : "'".length = 1 := rfl
    omega

/-- **Reads that have the same response** in equivalent states are those under the condition. -/
theorem Consistent.readsOwn (hc : s.Consistent) (h : s.Hides c now ids r) :
    s.ReadsOwn c now ids r := by
  cases r with
  | definitions f => exact hc.definitions_shown h
  | definition id => exact hc.definition_shown h
  | instances f =>
    refine hc.instances_shown fun s' hc' he => ?_
    have hpage : s'.instancePage c (some ids) f = s.instancePage c (some ids) f := by
      rw [instancePage, instancePage, selectedInstances, selectedInstances, he.visible]
    have hsame := h s' hc' he
    change s'.listAlertInstances c (some ids) f = s.listAlertInstances c (some ids) f at hsame
    rw [listAlertInstances, listAlertInstances, hpage] at hsame
    exact (Response.instances.inj hsame).1
  | active =>
    refine hc.instances_shown fun s' hc' he => ?_
    have hsame := h s' hc' he
    change s'.listActiveInstances (some ids) = s.listActiveInstances (some ids) at hsame
    rw [listActiveInstances, listActiveInstances, activeInstances, he.visible] at hsame
    exact Response.active.inj hsame
  | resolved limit deviceId =>
    intro days hdays
    refine hc.instances_shown fun s' hc' he => ?_
    have hdays' : s'.retentionDays = some days := by
      rw [← hdays, retentionDays, retentionDays, he.retention]
    have hsame := h s' hc' he
    change s'.listResolvedInstances c now (some ids) limit deviceId =
      s.listResolvedInstances c now (some ids) limit deviceId at hsame
    rw [listResolvedInstances, listResolvedInstances, hdays', hdays] at hsame
    dsimp only at hsame
    rw [resolvedInstances, he.visible] at hsame
    exact (Response.resolved.inj hsame).1
  | overrides deviceId variableId => exact hc.overrides_shown h
  | log f => exact trivial
  | validate expression targetTable => exact trivial
  | invert id => exact trivial

/-! ### Writes -/

variable {k : ℕ}

theorem get?_add_of_some {V : Type} {t : Table ℕ V} {v w : V} (h : t.get? k = some w) :
    (t.add v).get? k = some w := by
  rw [Table.get?_add, if_neg, h]
  rintro rfl
  rw [Table.get?_fresh] at h
  cases h

theorem get?_add_iff {V : Type} {t : Table ℕ V} {v w : V} (hne : v ≠ w) :
    (t.add v).get? k = some w ↔ t.get? k = some w := by
  refine ⟨fun h => ?_, get?_add_of_some⟩
  rw [Table.get?_add] at h
  split at h
  · exact absurd (Option.some.inj h) hne
  · exact h

variable {enabled : Bool} {rows : List (ℕ × AppAssignment)} {e : AlertEntity}

theorem syncAssignment_foldl_own
    (hown : ∀ row ∈ rows, s.foreign ids row.2.deviceId = false)
    (entities : Table ℕ AlertEntity)
    (he : s.foreign ids e.deviceId = true) :
    (rows.foldl (syncAssignment definitionId enabled) entities).get? id = some e ↔
      entities.get? id = some e := by
  induction rows generalizing entities with
  | nil => exact Iff.rfl
  | cons row rows ih =>
    rw [foldl_cons, ih (fun row' hrow' => hown row' (mem_cons_of_mem _ hrow')),
      syncAssignment]
    split
    · exact Iff.rfl
    · refine get?_add_iff ?_
      rintro rfl
      exact Bool.false_ne_true ((hown row mem_cons_self).symm.trans he)

variable {entities : Table ℕ AlertEntity}

theorem syncAssignment_foldl_some
    (rows : List (ℕ × AppAssignment))
    (he : entities.get? id = some e) :
    (rows.foldl (syncAssignment definitionId enabled) entities).get? id = some e := by
  induction rows generalizing entities with
  | nil => exact he
  | cons row rows ih =>
    refine ih ?_
    rw [syncAssignment]
    split
    · exact he
    · exact get?_add_of_some he

def Missing (definitionId assignmentId : ℕ) (entities : Table ℕ AlertEntity) : Prop :=
  ∀ row ∈ entities.rows, ¬(row.2.definitionId = definitionId ∧ row.2.assignmentId = assignmentId)

theorem syncAssignment_foldl_new (enabled : Bool)
    (hnodup : (rows.map Prod.fst).Nodup)
    {row : ℕ × AppAssignment} (hrow : row ∈ rows)
    (hmissing : Missing definitionId row.1 entities) :
    ∃ id, (rows.foldl (syncAssignment definitionId enabled) entities).get? id =
      some (newEntity definitionId enabled row) := by
  induction rows generalizing entities with
  | nil => cases hrow
  | cons x rows ih =>
    obtain ⟨hx, hnodup⟩ := List.nodup_cons.1 hnodup
    rcases List.mem_cons.1 hrow with rfl | hrow
    · have hnone : entities.rows.any (fun r =>
          r.2.definitionId = definitionId && r.2.assignmentId = row.1) = false := by
        rw [any_eq_false]
        intro r hr hboth
        rw [Bool.and_eq_true, decide_eq_true_eq, decide_eq_true_eq] at hboth
        exact hmissing r hr hboth
      refine ⟨entities.fresh, syncAssignment_foldl_some rows ?_⟩
      rw [syncAssignment, hnone, if_neg Bool.false_ne_true, Table.get?_add, if_pos rfl]
    · refine ih hnodup hrow ?_
      rw [syncAssignment]
      split
      · exact hmissing
      · refine forall_add hmissing ?_
        rintro ⟨-, hassignment⟩
        have hsame : x.1 = row.1 := hassignment
        exact hx (hsame ▸ mem_map_of_mem hrow)

theorem createAlertDefinition_spec {r : AlertDefinition}
    (hs : s.createAlertDefinition now r = .ok s') : ¬s.Refuses r ∧
      s'.entities = (s.assignments.rows.filter fun row =>
        row.2.appId = r.appId && row.2.enabled).foldl
          (syncAssignment s.definitions.fresh r.enabled) s.entities ∧
      s'.overrides = s.overrides := by
  rw [createAlertDefinition] at hs
  split at hs
  · cases hs
  next app happ =>
    split at hs
    · cases hs
    next hvalid =>
      split at hs
      · cases hs
      next hname =>
        cases hs
        refine ⟨fun hrefuses => ?_, rfl, rfl⟩
        rcases hrefuses app happ with hinvalid | htaken
        · rw [hvalid] at hinvalid
          cases hinvalid
        · exact hname htaken

theorem createAlertDefinition_ok (now : ℕ) {r : AlertDefinition} (h : ¬s.Refuses r) :
    ∃ s', s.createAlertDefinition now r = .ok s' := by
  obtain ⟨app, happ⟩ := not_forall.1 h
  obtain ⟨happ, hnot⟩ := Classical.not_imp.1 happ
  obtain ⟨hvalid, hname⟩ := not_or.1 hnot
  have hvalid : invalidTier app.targetTable r.severityTiers = none :=
    Option.isNone_iff_eq_none.1 (Option.not_isSome_iff_eq_none.1 hvalid ▸ rfl)
  rw [createAlertDefinition, show s.apps.get? r.appId = some app from happ]
  dsimp only
  rw [hvalid]
  dsimp only
  rw [if_neg hname]
  exact ⟨_, rfl⟩

/-- **A definition that is created** leaves the entities of other tenants exactly if it is refused,
or no such device has the app. -/
theorem Consistent.create_untouched (hc : s.Consistent) (r : AlertDefinition) :
    s.Untouched now ids (.createDefinition r) ↔ s.WritesOwn now ids (.createDefinition r) := by
  constructor
  · intro h
    by_cases hrefuses : s.Refuses r
    · exact .inl hrefuses
    · refine .inr fun row hrow happ henabled => ?_
      obtain ⟨s', hs⟩ := createAlertDefinition_ok now hrefuses
      obtain ⟨-, hentities, -⟩ := createAlertDefinition_spec hs
      by_contra hforeign
      have hforeign := Bool.eq_true_of_not_eq_false hforeign
      have hmissing : Missing s.definitions.fresh row.1 s.entities := by
        rintro e he ⟨hdefinition, -⟩
        refine hc.entity_definition e he ?_
        rw [hdefinition]
        exact Table.get?_fresh s.definitions
      have hselected : row ∈ s.assignments.rows.filter fun row =>
          row.2.appId = r.appId && row.2.enabled := by
        refine List.mem_filter.2 ⟨hrow, ?_⟩
        rw [decide_eq_true happ, henabled]
        rfl
      obtain ⟨id, hid⟩ := syncAssignment_foldl_new r.enabled
        (s.assignments.keys_nodup.sublist (List.filter_sublist.map _)) hselected hmissing
      rw [← hentities] at hid
      have hold := ((h s' hs).1 id _ hforeign).1 hid
      exact hmissing _ (Table.mem_rows.2 hold) ⟨rfl, rfl⟩
  · intro h s' hs
    obtain ⟨hnot, hentities, hoverrides⟩ := createAlertDefinition_spec hs
    have hown := h.resolve_left hnot
    refine ⟨fun id e he => ?_, fun id o _ => by rw [hoverrides]⟩
    rw [hentities]
    refine syncAssignment_foldl_own (fun row hrow => ?_) s.entities he
    obtain ⟨hmem, hboth⟩ := List.mem_filter.1 hrow
    rw [Bool.and_eq_true, decide_eq_true_eq] at hboth
    exact hown row hmem hboth.1 hboth.2

/-- **A definition that is deleted** takes the entities of all devices with it. -/
theorem Consistent.delete_untouched (hc : s.Consistent) (id : ℕ) :
    s.Untouched now ids (.deleteDefinition id) ↔ s.WritesOwn now ids (.deleteDefinition id) := by
  constructor
  · intro h row hrow hdefinition
    by_contra hforeign
    have hforeign := Bool.eq_true_of_not_eq_false hforeign
    obtain ⟨d, hd⟩ := ne_none_iff_exists'.1 (hc.entity_definition row hrow)
    have hget := Table.mem_rows.1 (show (row.1, row.2) ∈ s.entities.rows from hrow)
    obtain ⟨s', hs, hnone⟩ : ∃ s', s.write now (.deleteDefinition id) = .ok s' ∧
        s'.entities.get? row.1 = none := by
      change ∃ s', s.deleteAlertDefinition id = .ok s' ∧ _
      rw [deleteAlertDefinition, ← hdefinition, hd]
      refine ⟨_, rfl, ?_⟩
      rw [Table.get?_filterMapRows, hget, Option.bind_some, if_pos rfl]
    rw [((h s' hs).1 row.1 row.2 hforeign).2 hget] at hnone
    cases hnone
  · intro h s' hs
    change s.deleteAlertDefinition id = .ok s' at hs
    rw [deleteAlertDefinition] at hs
    split at hs
    · cases hs
    · cases hs
      refine ⟨fun id' e he => ?_, fun _ _ _ => Iff.rfl⟩
      rw [Table.get?_filterMapRows]
      constructor
      · intro hbind
        obtain ⟨e', he', hkept⟩ := Option.bind_eq_some_iff.1 hbind
        split at hkept
        · cases hkept
        · rw [he', hkept]
      · intro hget
        rw [hget, Option.bind_some, if_neg]
        intro hdefinition
        rw [h (id', e) (Table.mem_rows.2 hget) hdefinition] at he
        cases he

/-- **An entity that is switched** on or off. -/
theorem updateInstance_untouched (id : ℕ) (enabled : Bool) :
    s.Untouched now ids (.updateInstance id enabled) ↔
      s.WritesOwn now ids (.updateInstance id enabled) := by
  constructor
  · intro h e he hforeign
    obtain ⟨s', hs, hnew⟩ : ∃ s', s.write now (.updateInstance id enabled) = .ok s' ∧
        s'.entities.get? id = some { e with enabled } := by
      change ∃ s', s.updateAlertInstance id enabled = .ok s' ∧ _
      rw [updateAlertInstance, show s.entities.get? id = some e from he]
      refine ⟨_, rfl, ?_⟩
      rw [Table.get?_modify, if_pos rfl, show s.entities.get? id = some e from he]
      rfl
    rw [((h s' hs).1 id e hforeign).2 he] at hnew
    exact congrArg AlertEntity.enabled (Option.some.inj hnew)
  · intro h s' hs
    change s.updateAlertInstance id enabled = .ok s' at hs
    rw [updateAlertInstance] at hs
    split at hs
    · cases hs
    next old hold =>
      cases hs
      refine ⟨fun id' e he => ?_, fun _ _ _ => Iff.rfl⟩
      rw [Table.get?_modify]
      split
      next hid =>
        rw [hid, hold, Option.map_some]
        have hsame (hforeign : s.foreign ids old.deviceId = true) : { old with enabled } = old := by
          rw [← h old hold hforeign]
        constructor
        · intro heq
          have heq := Option.some.inj heq
          rw [← heq] at he
          rw [← heq, hsame he]
        · intro heq
          have heq := Option.some.inj heq
          rw [← heq] at he ⊢
          rw [hsame he]
      · exact Iff.rfl

/-- **An override that is created**. -/
theorem createOverride_untouched (variableId deviceId : ℕ) (entityKey : String) (value : ℚ) :
    s.Untouched now ids (.createOverride variableId deviceId entityKey value) ↔
      s.WritesOwn now ids (.createOverride variableId deviceId entityKey value) := by
  constructor
  · intro h hout
    by_contra hnot
    obtain ⟨hthreshold, hoverridden⟩ := not_or.1 hnot
    obtain ⟨v, hv⟩ := ne_none_iff_exists'.1 hthreshold
    have hdevice : s.devices.get? deviceId ≠ none := by
      intro hnone
      rw [outside, hnone] at hout
      cases hout
    obtain ⟨s', hs, hnew⟩ : ∃ s',
        s.write now (.createOverride variableId deviceId entityKey value) = .ok s' ∧
          s'.overrides.get? s.overrides.fresh =
            some ⟨variableId, deviceId, entityKey, value, now, now⟩ := by
      change ∃ s', s.createThresholdOverride now variableId deviceId entityKey value = .ok s' ∧ _
      rw [createThresholdOverride, hv]
      dsimp only
      rw [if_neg (not_or.2 ⟨hdevice, hoverridden⟩)]
      exact ⟨_, rfl, by rw [Table.get?_add, if_pos rfl]⟩
    have hold := ((h s' hs).2 _ _ hout).1 hnew
    rw [Table.get?_fresh] at hold
    cases hold
  · intro h s' hs
    change s.createThresholdOverride now variableId deviceId entityKey value = .ok s' at hs
    rw [createThresholdOverride] at hs
    split at hs
    · cases hs
    next v hv =>
      split at hs
      · cases hs
      next hnot =>
        cases hs
        refine ⟨fun _ _ _ => Iff.rfl, fun id o ho => get?_add_iff ?_⟩
        rintro rfl
        rcases h ho with hnone | hoverridden
        · rw [hnone] at hv
          cases hv
        · exact hnot (.inr hoverridden)

/-- **An override that is changed**. -/
theorem updateOverride_untouched (id : ℕ) (value : ℚ) :
    s.Untouched now ids (.updateOverride id value) ↔ s.WritesOwn now ids
    (.updateOverride id value) := by
  constructor
  · intro h o ho hout
    obtain ⟨s', hs, hnew⟩ : ∃ s', s.write now (.updateOverride id value) = .ok s' ∧
        s'.overrides.get? id = some { o with value, updatedAt := now } := by
      change ∃ s', s.updateThresholdOverride now id value = .ok s' ∧ _
      rw [updateThresholdOverride, show s.overrides.get? id = some o from ho]
      refine ⟨_, rfl, ?_⟩
      rw [Table.get?_modify, if_pos rfl, show s.overrides.get? id = some o from ho]
      rfl
    rw [((h s' hs).2 id o hout).2 ho] at hnew
    have heq := Option.some.inj hnew
    exact ⟨congrArg ThresholdOverride.value heq, congrArg ThresholdOverride.updatedAt heq⟩
  · intro h s' hs
    change s.updateThresholdOverride now id value = .ok s' at hs
    rw [updateThresholdOverride] at hs
    split at hs
    · cases hs
    next old hold =>
      cases hs
      refine ⟨fun _ _ _ => Iff.rfl, fun id' o ho => ?_⟩
      rw [Table.get?_modify]
      split
      next hid =>
        rw [hid, hold, Option.map_some]
        have hsame (hout : s.outside ids old.deviceId = true) :
            { old with value, updatedAt := now } = old := by
          obtain ⟨hvalue, htime⟩ := h old hold hout
          rw [← hvalue, ← htime]
        constructor
        · intro heq
          have heq := Option.some.inj heq
          rw [← heq] at ho
          rw [← heq, hsame ho]
        · intro heq
          have heq := Option.some.inj heq
          rw [← heq] at ho ⊢
          rw [hsame ho]
      · exact Iff.rfl

/-- **An override that is deleted**. -/
theorem deleteOverride_untouched (id : ℕ) :
    s.Untouched now ids (.deleteOverride id) ↔ s.WritesOwn now ids (.deleteOverride id) := by
  constructor
  · intro h o ho
    by_contra hout
    have hout := Bool.eq_true_of_not_eq_false hout
    obtain ⟨s', hs, hnone⟩ : ∃ s', s.write now (.deleteOverride id) = .ok s' ∧
        s'.overrides.get? id = none := by
      change ∃ s', s.deleteThresholdOverride id = .ok s' ∧ _
      rw [deleteThresholdOverride, show s.overrides.get? id = some o from ho]
      refine ⟨_, rfl, ?_⟩
      rw [Table.get?_erase, if_pos rfl]
    rw [((h s' hs).2 id o hout).2 ho] at hnone
    cases hnone
  · intro h s' hs
    change s.deleteThresholdOverride id = .ok s' at hs
    rw [deleteThresholdOverride] at hs
    split at hs
    · cases hs
    next old hold =>
      cases hs
      refine ⟨fun _ _ _ => Iff.rfl, fun id' o ho => ?_⟩
      rw [Table.get?_erase]
      split
      next hid =>
        rw [hid, hold]
        constructor
        · intro heq
          cases heq
        · intro heq
          rw [Option.some.inj heq.symm, h old hold] at ho
          cases ho
      · exact Iff.rfl

theorem updateDefinition_untouched (id : ℕ) (tiers : Option (List SeverityTier))
    (name description window : Option String) (enabled : Option Bool) :
    s.Untouched now ids (.updateDefinition id tiers name description window enabled) := by
  intro s' hs
  change s.updateAlertDefinition now id tiers name description window enabled = .ok s' at hs
  rw [updateAlertDefinition] at hs
  split at hs
  · cases hs
  · split at hs
    · cases hs
    · split at hs
      · cases hs
      · cases hs
        cases tiers with
        | none => exact ⟨fun _ _ _ => Iff.rfl, fun _ _ _ => Iff.rfl⟩
        | some tiers => exact ⟨fun _ _ _ => Iff.rfl, fun _ _ _ => Iff.rfl⟩

/-- **Writes that leave what belongs to other tenants** are those under the condition. -/
theorem Consistent.untouched_iff (hc : s.Consistent) (w : Write) :
    s.Untouched now ids w ↔ s.WritesOwn now ids w := by
  cases w with
  | createDefinition r => exact hc.create_untouched r
  | updateDefinition id tiers name description window enabled =>
    exact iff_of_true (updateDefinition_untouched id tiers name description window enabled) trivial
  | deleteDefinition id => exact hc.delete_untouched id
  | updateInstance id enabled => exact updateInstance_untouched id enabled
  | createOverride variableId deviceId entityKey value =>
    exact createOverride_untouched variableId deviceId entityKey value
  | updateOverride id value => exact updateOverride_untouched id value
  | deleteOverride id => exact deleteOverride_untouched id
  | cleanup =>
    refine iff_of_true (fun s' hs => ?_) trivial
    obtain rfl := Except.ok.inj hs
    exact ⟨fun _ _ _ => Iff.rfl, fun _ _ _ => Iff.rfl⟩

end Equivalent

end State

/-! ### Requests -/

open State

/-- **Tenant isolation**: a request of a caller who is restricted to some tenants has the same
response in all equivalent states, or leaves what belongs to other tenants, exactly under the
condition. -/
theorem isolated_iff {s : State} (h : s.Consistent) :
    (∀ r, s.Hides c now ids r ↔ s.ReadsOwn c now ids r) ∧
      ∀ w, s.Untouched now ids w ↔ s.WritesOwn now ids w :=
  ⟨fun _ => ⟨h.readsOwn, fun hr => hr.hides h⟩, h.untouched_iff⟩

/-- Databases that compare texts letter by letter. -/
def plainSetting : Setting where
  ilike column text := text.toList <:+: column.toList
  le _ _ := true
  logIlike column text := text.toList <:+: column.toList
  logLe _ _ := true
  tiersText _ := "[]"
  upper text := text

/-- A definition of an app. -/
def highLatency : AlertDefinition where
  appId := 0
  name := "High latency"
  severityTiers := [⟨"warning", some "avg(rtt_ms) > 100"⟩]
  window := "5m"
  enabled := true
  createdAt := 0
  updatedAt := 0

/-- The entity of a device, whose assignment has the same number. -/
def latencyEntity (device : ℕ) (state : String) : AlertEntity where
  definitionId := 0
  assignmentId := device
  deviceId := some device
  enabled := true
  state := state

/-- A device of each of two tenants, with the entities of a definition, and an override of the
second one. What belongs to the second tenant comes in two versions. -/
def twoTenants (firing : Bool) : State where
  devices := (({} : Table ℕ Device).add ⟨"core", some "t1"⟩).add ⟨"edge", some "t2"⟩
  apps := ({} : Table ℕ App).add ⟨"ping", "availability_latency"⟩
  definitions := ({} : Table ℕ AlertDefinition).add highLatency
  assignments := (({} : Table ℕ AppAssignment).add ⟨0, some 0, true⟩).add ⟨0, some 1, true⟩
  entities := (({} : Table ℕ AlertEntity).add (latencyEntity 0 "ok")).add
    (latencyEntity 1 (if firing then "firing" else "ok"))
  thresholds := ({} : Table ℕ ThresholdVariable).add ⟨0, "rtt_ms_threshold", 100⟩
  overrides := ({} : Table ℕ ThresholdOverride).add ⟨0, 1, "", if firing then 60 else 50, 0, 0⟩

theorem twoTenants_consistent (firing : Bool) : (twoTenants firing).Consistent where
  definition_app := by decide +revert
  assignment_device := by decide +revert
  assignment_app := by decide +revert
  entity_definition := by decide +revert
  entity_assignment := by decide +revert
  entity_device := by decide +revert
  entity_unique := by decide +revert
  definition_unique := by decide +revert
  threshold_unique := by decide +revert
  override_threshold := by decide +revert
  override_device := by decide +revert
  override_unique := by decide +revert

theorem twoTenants_equivalent : (twoTenants false).Equivalent ["t1"] (twoTenants true) :=
  ⟨rfl, rfl, rfl, rfl, rfl, rfl, rfl, rfl, rfl⟩

/-- A caller of the first tenant lists the entities, but is shown those of the other tenant with the
definition, and can silence them. -/
theorem isolated_iff_twoTenants :
    (twoTenants true).Hides plainSetting 0 ["t1"] (.instances {}) ∧
      ¬(twoTenants true).Hides plainSetting 0 ["t1"] (.definition 0) ∧
        (twoTenants true).Untouched 0 ["t1"] (.updateInstance 0 false) ∧
          ¬(twoTenants true).Untouched 0 ["t1"] (.updateInstance 1 false) := by
  refine ⟨((isolated_iff (twoTenants_consistent true)).1 _).2 fun i hi => ?_, fun h => ?_,
    ((isolated_iff (c := plainSetting) (twoTenants_consistent true)).2 _).2 ?_, fun h => ?_⟩
  · have hmem : ∀ i ∈ (twoTenants true).visible (some ["t1"]),
        ∀ a ∈ (twoTenants true).assignments.get? i.entity.assignmentId,
          (twoTenants true).foreign ["t1"] a.deviceId = false := by decide
    exact hmem i (List.mem_filter.1 (mem_of_mem_page hi)).1
  · cases ((isolated_iff (twoTenants_consistent true)).1 _).1 h
  · intro e he hforeign
    cases he
    cases hforeign
  · cases ((isolated_iff (c := plainSetting) (twoTenants_consistent true)).2 _).1 h _ rfl rfl

/-- **Requests that show or change what belongs to another tenant.** -/
theorem not_isolated :
    (∃ s s' : State, s.Consistent ∧ s'.Consistent ∧ s.Equivalent ["t1"] s' ∧
      s'.read plainSetting 0 (some ["t1"]) (.definitions {}) ≠
        s.read plainSetting 0 (some ["t1"]) (.definitions {}) ∧
      s'.read plainSetting 0 (some ["t1"]) (.definition 0) ≠
        s.read plainSetting 0 (some ["t1"]) (.definition 0) ∧
      s'.read plainSetting 0 (some ["t1"]) (.overrides none none) ≠
        s.read plainSetting 0 (some ["t1"]) (.overrides none none)) ∧
    ∃ s : State, s.Consistent ∧ s.outside ["t1"] 1 = true ∧
      (∃ s', s.write 0 (.updateInstance 1 false) = .ok s' ∧
        (s.entities.get? 1).map (fun e => (e.deviceId, e.enabled)) = some (some 1, true) ∧
        (s'.entities.get? 1).map (fun e => (e.deviceId, e.enabled)) = some (some 1, false)) ∧
      ∃ s', s.write 0 (.deleteOverride 0) = .ok s' ∧
        (s.overrides.get? 0).map ThresholdOverride.deviceId = some 1 ∧ s'.overrides.get? 0 = none :=
        by
  refine ⟨⟨twoTenants false, twoTenants true, twoTenants_consistent _, twoTenants_consistent _,
    twoTenants_equivalent, ?_, by decide, by decide⟩, twoTenants false, twoTenants_consistent _, rfl,
    ⟨_, rfl, rfl, rfl⟩, _, rfl, rfl, rfl⟩
  intro heq
  have hselected (firing : Bool) :
      (twoTenants firing).selectedDefinitions plainSetting {} = [(0, highLatency)] := rfl
  change State.listAlertDefinitions _ _ _ = State.listAlertDefinitions _ _ _ at heq
  rw [listAlertDefinitions, listAlertDefinitions, hselected, hselected, orderBy,
    mergeSort_singleton] at heq
  have hviews := (Response.definitions.inj heq).1
  revert hviews
  decide

end MonCTL.Alerting.Router
