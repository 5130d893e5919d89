import MonCTL.Lib.Runs
import MonCTL.Packs.Importer

/-!
# Alert Coverage

An alert definition watches an assignment of its app through an entity. The two request-time
helpers give a new entity the flag of its definition, the periodic task makes it enabled but
looks only at assignments that have a device, and nothing sets the flag of an entity again
except an operator who silences it or undoes that. An update of the definition's own flag
leaves the entities as they are.

## What a state records

Apps are kept by id with their alert definitions, which are known by their names, and their
assignments. Beside them stands which entities an operator has silenced: those whose last
`update_alert_instance` switched them off. Requests that are refused are no steps, and checks
that only refuse are left out. A request runs in one transaction and so does the periodic task.
Evaluations write neither flag and make no entities, so they are no steps either.
-/

namespace MonCTL.Alerting.Coverage

open List Packs

/-- An app, and which entities of it an operator has silenced, by definition and assignment. -/
structure Monitored where
  app : Entity
  silenced : List (String × Uuid) := []

/-- The apps by id. -/
abbrev State := Dict Uuid Monitored

/-! ### Requests -/

/-- What `update_alert_definition` is asked to change. -/
structure UpdateAlertDefinitionRequest where
  name : Option String := none
  tiers : Option (List PackTier) := none
  window : Option String := none
  description : Option String := none
  enabled : Option Bool := none
  deriving DecidableEq

/-- A definition after an update. Its entities are not touched. -/
def updated (request : UpdateAlertDefinitionRequest) (row : AlertRow) : AlertRow :=
  { row with
    tiers := request.tiers.getD row.tiers
    window := request.window.getD row.window
    description := request.description.or row.description
    enabled := request.enabled.getD row.enabled }

/-- What is kept under the name of a definition, after the name has changed. -/
def renamed {α : Type} (name newName : String) (x : String × α) : String × α :=
  if x.1 = name then (newName, x.2) else x

/-- The threshold variables after `sync_threshold_variables` for one definition. -/
def withThresholds (app : Entity) (row : AlertRow) : Variables :=
  (syncThresholdVariables (textOf app.columns "target_table") row.definition
    app.thresholdVariables).1

/-- `create_alert_definition`. No two definitions of an app have one name. -/
def createAlertDefinition (item : AlertItem) (m : Monitored) : Option Monitored :=
  if item.name ∈ m.app.alertDefinitions.keys then none
  else
    let row : AlertRow := { item.row "" with packOrigin := none }
    some
      { m with
        app :=
          { m.app with
            thresholdVariables := withThresholds m.app row
            alertDefinitions :=
              m.app.alertDefinitions.set item.name
                { row with
                  entities :=
                    syncInstancesForDefinition row.enabled m.app.assignments row.entities } } }

/-- `update_alert_definition`. -/
def updateAlertDefinition (name : String) (request : UpdateAlertDefinitionRequest)
    (m : Monitored) : Option Monitored :=
  match m.app.alertDefinitions.get? name with
  | none => none
  | some row =>
    let newName := request.name.getD name
    if newName ≠ name ∧ newName ∈ m.app.alertDefinitions.keys then none
    else
      some
        { app :=
            { m.app with
              thresholdVariables :=
                match request.tiers with
                | some tiers => withThresholds m.app { row with tiers }
                | none => m.app.thresholdVariables
              alertDefinitions :=
                (m.app.alertDefinitions.set name (updated request row)).map
                  (renamed name newName) }
          silenced := m.silenced.map (renamed name newName) }

/-- `delete_alert_definition`: its entities go with it. -/
def deleteAlertDefinition (name : String) (m : Monitored) : Monitored :=
  { app := { m.app with alertDefinitions := m.app.alertDefinitions.filter (·.1 ≠ name) }
    silenced := m.silenced.filter (·.1 ≠ name) }

/-- The definitions with their entities changed. -/
def mapEntities (f : AlertRow → Entities) (defs : Dict String AlertRow) : Dict String AlertRow :=
  defs.map fun entry => (entry.1, { entry.2 with entities := f entry.2 })

/-- A new assignment, enabled from the start. -/
def addAssignment (id : Uuid) (deviceId : Option Uuid) (m : Monitored) : Option Monitored :=
  if id ∈ m.app.assignments.map AppAssignment.id then none
  else
    some { m with
      app := { m.app with
        assignments := m.app.assignments ++ [{ id, deviceId, enabled := true }] } }

/-- `create_assignment`, the one way to make an assignment that also makes its entities. -/
def createAssignment (id : Uuid) (deviceId : Option Uuid) (m : Monitored) : Option Monitored :=
  (addAssignment id deviceId m).map fun m =>
    { m with
      app := { m.app with
        alertDefinitions :=
          mapEntities
            (fun row =>
              syncInstancesForAssignment row.enabled { id, deviceId, enabled := true }
                row.entities)
            m.app.alertDefinitions } }

/-- Switch assignments on or off. -/
def setAssignments (meant : AppAssignment → Bool) (enabled : Bool) (m : Monitored) : Monitored :=
  { m with
    app := { m.app with
      assignments :=
        m.app.assignments.map fun a => if meant a then { a with enabled } else a } }

/-- Applying a template to a device: the assignment of the app to the device is made, or
enabled again when there is one. With two of them the query fails. -/
def applyTemplate (id deviceId : Uuid) (m : Monitored) : Option Monitored :=
  match m.app.assignments.filter (·.deviceId = some deviceId) with
  | [] => addAssignment id (some deviceId) m
  | [_] => some (setAssignments (·.deviceId = some deviceId) true m)
  | _ => none

/-- The assignment that discovery or the eligibility check of an app makes, unless there is
one. -/
def autoAssign (id deviceId : Uuid) (m : Monitored) : Option Monitored :=
  match m.app.assignments.filter (·.deviceId = some deviceId) with
  | [] => addAssignment id (some deviceId) m
  | [_] => some m
  | _ => none

def withoutAssignment (id : Uuid) (entities : Entities) : Entities where
  rows := entities.rows.filter (·.assignmentId ≠ id)
  assignments_nodup :=
    entities.assignments_nodup.sublist ((filter_sublist ..).map AlertEntity.assignmentId)

/-- The deletion of an assignment, also with its device: its entities go with it. -/
def deleteAssignment (id : Uuid) (m : Monitored) : Monitored :=
  { app :=
      { m.app with
        assignments := m.app.assignments.filter (·.id ≠ id)
        alertDefinitions :=
          mapEntities (fun row => withoutAssignment id row.entities) m.app.alertDefinitions }
    silenced := m.silenced.filter (·.2 ≠ id) }

/-- Which entities are silenced after an operator has switched one on or off. -/
def afterUpdate (name : String) (id : Uuid) (enabled : Bool) (silenced : List (String × Uuid)) :
    List (String × Uuid) :=
  if enabled then silenced.filter (· ≠ (name, id)) else (name, id) :: silenced

/-- `update_alert_instance` for the entity of a definition and an assignment. -/
def updateAlertInstance (name : String) (id : Uuid) (enabled : Bool) (m : Monitored) :
    Option Monitored :=
  match m.app.alertDefinitions.get? name with
  | none => none
  | some row =>
    if id ∈ row.entities.rows.map AlertEntity.assignmentId then
      some
        { app :=
            { m.app with
              alertDefinitions :=
                m.app.alertDefinitions.map fun entry =>
                  if entry.1 = name then
                    (name,
                      { entry.2 with entities := withInstance id enabled entry.2.entities })
                  else entry }
          silenced := afterUpdate name id enabled m.silenced }
    else none

/-- `_sync_alert_instances`, as one app sees it. -/
def syncAlertInstances (m : Monitored) : Monitored :=
  { m with
    app := { m.app with
      alertDefinitions :=
        mapEntities
          (fun row =>
            if row.enabled then Alerting.syncAlertInstances m.app.assignments row.entities
            else row.entities)
          m.app.alertDefinitions } }

/-! ### Steps -/

/-- What can happen to an app. -/
inductive AppAction
  | createAlertDefinition (item : AlertItem)
  | updateAlertDefinition (name : String) (request : UpdateAlertDefinitionRequest)
  | deleteAlertDefinition (name : String)
  /-- By hand. -/
  | createAssignment (id : Uuid) (deviceId : Option Uuid)
  | applyTemplate (id deviceId : Uuid)
  /-- By discovery, or by the eligibility check of the app. -/
  | autoAssign (id deviceId : Uuid)
  /-- For the monitoring of a device, whose former assignments have been deleted. -/
  | monitorDevice (id deviceId : Uuid)
  | updateAssignment (id : Uuid) (enabled : Bool)
  | deleteAssignment (id : Uuid)
  /-- A pack is imported, and the app is created, skipped or overwritten. -/
  | importApp (packUid : String) (items : List AlertItem)
  /-- A pack is imported, and the app is reconciled. -/
  | reconcileApp (packUid : String) (items : List AlertItem)
  | updateAlertInstance (name : String) (id : Uuid) (enabled : Bool)

def Monitored.step (m : Monitored) : AppAction → Option Monitored
  | .createAlertDefinition item => Coverage.createAlertDefinition item m
  | .updateAlertDefinition name request => Coverage.updateAlertDefinition name request m
  | .deleteAlertDefinition name => some (Coverage.deleteAlertDefinition name m)
  | .createAssignment id deviceId => Coverage.createAssignment id deviceId m
  | .applyTemplate id deviceId => Coverage.applyTemplate id deviceId m
  | .autoAssign id deviceId => Coverage.autoAssign id deviceId m
  | .monitorDevice id deviceId => addAssignment id (some deviceId) m
  | .updateAssignment id enabled => some (setAssignments (·.id = id) enabled m)
  | .deleteAssignment id => some (Coverage.deleteAssignment id m)
  | .importApp packUid items =>
    some { m with app := syncAppAlertDefinitions packUid items m.app }
  | .reconcileApp packUid items =>
    some { m with app := reconcileAppAlertDefinitions packUid items m.app }
  | .updateAlertInstance name id enabled => Coverage.updateAlertInstance name id enabled m

/-- What can happen. -/
inductive Action
  /-- An app is created, by hand or by a pack. -/
  | createApp (id : Uuid) (app : Entity)
  | onApp (id : Uuid) (a : AppAction)
  /-- The periodic task runs, and succeeds. -/
  | syncAlertInstances

def step (s : State) : Action → Option State
  | .createApp id app =>
    if id ∈ s.keys then none
    else some (s.set id { app := { app with alertDefinitions := [], assignments := [] } })
  | .onApp id a => (s.get? id).bind fun m => (m.step a).map (s.set id)
  | .syncAlertInstances => some (s.map fun entry => (entry.1, Coverage.syncAlertInstances entry.2))

/-! ### Coverage -/

/-- The entity is enabled, unless an operator has silenced it. -/
def Audible (silenced : List (String × Uuid)) (name : String) (e : AlertEntity) : Prop :=
  e.enabled = true ∨ (name, e.assignmentId) ∈ silenced
  deriving Decidable

/-- A definition has exactly one entity for an assignment, and it is audible. -/
def Watches (silenced : List (String × Uuid)) (name : String) (entities : Entities)
    (a : AppAssignment) : Prop :=
  (entities.rows.filter (·.assignmentId = a.id)).length = 1 ∧
    ∀ e ∈ entities.rows, e.assignmentId = a.id → Audible silenced name e
  deriving Decidable

/-- Every enabled definition watches every enabled assignment of its app. -/
def Covered (s : State) : Prop :=
  ∀ entry ∈ s, ∀ defn ∈ entry.2.app.alertDefinitions, defn.2.enabled = true →
    ∀ a ∈ entry.2.app.assignments, a.enabled = true →
      Watches entry.2.silenced defn.1 defn.2.entities a
  deriving Decidable

/-- All entities of a definition are audible. -/
def Intact (silenced : List (String × Uuid)) (defn : String × AlertRow) : Prop :=
  ∀ e ∈ defn.2.entities.rows, Audible silenced defn.1 e
  deriving Decidable

/-- A definition that is switched on is intact: it has no entity that was made while it was
disabled. -/
def EnabledIntact (m : Monitored) (name : String) : Prop :=
  ∀ defn ∈ m.app.alertDefinitions, defn.1 = name → defn.2.enabled = false →
    Intact m.silenced defn
  deriving Decidable

/-- Whoever switches a definition on, by an update or by a pack, finds it intact. -/
def Monitored.Allowed (m : Monitored) : AppAction → Prop
  | .updateAlertDefinition name request =>
    request.enabled = some true → EnabledIntact m name
  | .importApp _ items => ∀ item ∈ items, item.enabled = true → EnabledIntact m item.name
  | _ => True

instance (m : Monitored) : ∀ a, Decidable (m.Allowed a)
  | .updateAlertDefinition _ request =>
    inferInstanceAs (Decidable (request.enabled = some true → _))
  | .importApp _ items => inferInstanceAs (Decidable (∀ item ∈ items, _ → _))
  | .createAlertDefinition .. | .deleteAlertDefinition .. | .createAssignment ..
  | .applyTemplate .. | .autoAssign .. | .monitorDevice .. | .updateAssignment ..
  | .deleteAssignment .. | .reconcileApp .. | .updateAlertInstance .. =>
    inferInstanceAs (Decidable True)

/-- What the periodic task passes over has its entities: every enabled assignment without a
device has an entity of every enabled definition. -/
def Monitored.DevicelessWatched (m : Monitored) : Prop :=
  ∀ defn ∈ m.app.alertDefinitions, defn.2.enabled = true →
    ∀ a ∈ m.app.assignments, a.enabled = true → a.deviceId = none →
      a.id ∈ defn.2.entities.rows.map AlertEntity.assignmentId
  deriving Decidable

/-- The steps after which coverage is complete. -/
def Allowed (s : State) : Action → Prop
  | .createApp .. => True
  | .onApp id a => ∀ m, s.get? id = some m → m.Allowed a
  | .syncAlertInstances => ∀ entry ∈ s, entry.2.DevicelessWatched

instance (s : State) : ∀ a, Decidable (Allowed s a)
  | .createApp .. => inferInstanceAs (Decidable True)
  | .onApp id a =>
    decidable_of_iff ((s.get? id).all fun m => m.Allowed a) (by
      cases h : s.get? id with
      | none => simp [Allowed, h]
      | some m => simp [Allowed, h])
  | .syncAlertInstances => inferInstanceAs (Decidable (∀ entry ∈ s, _))

/-! ### Adding missing entities -/

theorem mem_foldl_syncAssignment {enabled : Bool} {assignments : List AppAssignment}
    {entities : Entities} {e : AlertEntity}
    (h : e ∈ (assignments.foldl (syncAssignment enabled) entities).rows) :
    e ∈ entities.rows ∨ ∃ a ∈ assignments, e = newEntity enabled a := by
  induction assignments generalizing entities with
  | nil => exact .inl h
  | cons a assignments ih =>
    rcases ih h with hmem | ⟨a', ha', rfl⟩
    · unfold syncAssignment at hmem
      split at hmem
      · exact .inl hmem
      · rcases List.mem_append.1 hmem with hmem | hmem
        · exact .inl hmem
        · exact .inr ⟨a, mem_cons_self, List.mem_singleton.1 hmem⟩
    · exact .inr ⟨a', mem_cons_of_mem a ha', rfl⟩

theorem subset_foldl_syncAssignment (enabled : Bool) (assignments : List AppAssignment)
    (entities : Entities) :
    entities.rows ⊆ (assignments.foldl (syncAssignment enabled) entities).rows := by
  induction assignments generalizing entities with
  | nil => exact List.Subset.refl _
  | cons a assignments ih =>
    refine List.Subset.trans ?_ (ih _)
    unfold syncAssignment
    split
    · exact List.Subset.refl _
    · exact subset_append_left _ _

theorem mem_ids_foldl_syncAssignment {enabled : Bool} {assignments : List AppAssignment}
    (entities : Entities) {a : AppAssignment} (ha : a ∈ assignments) :
    a.id ∈ (assignments.foldl (syncAssignment enabled) entities).rows.map
      AlertEntity.assignmentId := by
  induction assignments generalizing entities with
  | nil => exact absurd ha not_mem_nil
  | cons b assignments ih =>
    rcases List.mem_cons.1 ha with rfl | ha
    · refine map_subset _ (subset_foldl_syncAssignment enabled assignments _) ?_
      unfold syncAssignment
      split
      next h => exact h
      · exact mem_map_of_mem (mem_append_right _ mem_cons_self)
    · exact ih _ ha

theorem length_filter_eq_one_iff (entities : Entities) (id : Uuid) :
    (entities.rows.filter (·.assignmentId = id)).length = 1 ↔
      id ∈ entities.rows.map AlertEntity.assignmentId := by
  have hcount : (entities.rows.filter (·.assignmentId = id)).length =
      (entities.rows.map AlertEntity.assignmentId).count id := by
    rw [List.count, countP_map, countP_eq_length_filter]
    congr 1
  rw [hcount]
  constructor
  · intro h
    exact List.count_pos_iff.1 (h ▸ Nat.one_pos)
  · exact count_eq_one_of_mem entities.assignments_nodup

/-! ### Enabled definitions stay intact -/

/-- Every enabled definition is intact. -/
def Sound (silenced : List (String × Uuid)) (defs : Dict String AlertRow) : Prop :=
  ∀ defn ∈ defs, defn.2.enabled = true → Intact silenced defn

theorem audible_foldl_syncAssignment {silenced : List (String × Uuid)} {name : String}
    {assignments : List AppAssignment} {entities : Entities}
    (h : ∀ e ∈ entities.rows, Audible silenced name e) :
    ∀ e ∈ (assignments.foldl (syncAssignment true) entities).rows, Audible silenced name e := by
  intro e he
  rcases mem_foldl_syncAssignment he with hmem | ⟨a, -, rfl⟩
  · exact h e hmem
  · exact .inl rfl

theorem Sound.mapEntities {silenced silenced' : List (String × Uuid)}
    {defs : Dict String AlertRow} {f : AlertRow → Entities} (h : Sound silenced defs)
    (hf : ∀ defn ∈ defs, defn.2.enabled = true → Intact silenced defn →
      ∀ e ∈ (f defn.2).rows, Audible silenced' defn.1 e) :
    Sound silenced' (mapEntities f defs) := by
  intro defn hmem henabled
  obtain ⟨defn₀, hmem₀, rfl⟩ := List.mem_map.1 hmem
  exact hf defn₀ hmem₀ henabled (h defn₀ hmem₀ henabled)

theorem Sound.set {silenced : List (String × Uuid)} {defs : Dict String AlertRow}
    (h : Sound silenced defs) {name : String} {row : AlertRow}
    (hrow : row.enabled = true → Intact silenced (name, row)) :
    Sound silenced (defs.set name row) := by
  intro defn hmem henabled
  rcases Dict.mem_set hmem with hold | rfl
  · exact h defn hold henabled
  · exact hrow henabled

theorem renamed_eq {α β : Type} (name newName : String) (x : String × α) (y : β) :
    ((renamed name newName x).1, y) = renamed name newName (x.1, y) := by
  unfold renamed
  split <;> rfl

theorem renamed_snd {α : Type} (name newName : String) (x : String × α) :
    (renamed name newName x).2 = x.2 := by
  unfold renamed
  split <;> rfl

theorem Sound.renamed {silenced : List (String × Uuid)} {defs : Dict String AlertRow}
    (h : Sound silenced defs) (name newName : String) :
    Sound (silenced.map (renamed name newName)) (defs.map (renamed name newName)) := by
  intro defn hmem henabled e he
  obtain ⟨defn₀, hmem₀, rfl⟩ := List.mem_map.1 hmem
  rw [renamed_snd] at henabled he
  rcases h defn₀ hmem₀ henabled e he with haudible | hsilenced
  · exact .inl haudible
  · refine .inr ?_
    rw [renamed_eq]
    exact mem_map_of_mem hsilenced

theorem audible_filter {silenced : List (String × Uuid)} {name : String} {e : AlertEntity}
    {keep : String × Uuid → Bool} (h : Audible silenced name e)
    (hkeep : keep (name, e.assignmentId) = true) :
    Audible (silenced.filter keep) name e :=
  h.imp id fun hmem => List.mem_filter.2 ⟨hmem, hkeep⟩

/-! ### Packs -/

/-- Definitions that are or will be enabled by a document are intact. -/
def Prepared (items : List AlertItem) (silenced : List (String × Uuid))
    (defs : Dict String AlertRow) : Prop :=
  ∀ defn ∈ defs, (defn.2.enabled = true ∨ ∃ item ∈ items, item.enabled = true ∧ item.name = defn.1) →
    Intact silenced defn

/-- The step: one entry of a document, when an app is not reconciled. -/
theorem Prepared.syncAlert {items : List AlertItem} {silenced : List (String × Uuid)}
    {defs : Dict String AlertRow} (h : Prepared items silenced defs) (packUid : String)
    {item : AlertItem} (hitem : item ∈ items) :
    Prepared items silenced (syncAlert packUid defs item) := by
  unfold Packs.syncAlert
  split
  next row hrow =>
    have hmem := Dict.mem_of_get? hrow
    split_ifs
    · intro defn hdefn hmeant
      rcases Dict.mem_set hdefn with hold | rfl
      · exact h defn hold hmeant
      · refine h (item.name, row) hmem ?_
        rcases hmeant with henabled | hother
        · exact .inr ⟨item, hitem, henabled, rfl⟩
        · exact .inr hother
    · exact h
  · intro defn hdefn hmeant
    rcases Dict.mem_set hdefn with hold | rfl
    · exact h defn hold hmeant
    · exact fun e he => absurd he not_mem_nil

theorem Prepared.foldl_syncAlert {items : List AlertItem} {silenced : List (String × Uuid)}
    (packUid : String) {rest : List AlertItem} (hrest : rest ⊆ items) {defs : Dict String AlertRow}
    (h : Prepared items silenced defs) :
    Prepared items silenced (rest.foldl (Packs.syncAlert packUid) defs) := by
  induction rest generalizing defs with
  | nil => exact h
  | cons item rest ih =>
    rw [cons_subset] at hrest
    exact ih hrest.2 (h.syncAlert packUid hrest.1)

theorem Sound.foldl_reconcileAlert {silenced : List (String × Uuid)} (packUid : String)
    (items : List AlertItem) {defs : Dict String AlertRow} (h : Sound silenced defs) :
    Sound silenced (items.foldl (reconcileAlert packUid) defs) := by
  induction items generalizing defs with
  | nil => exact h
  | cons item items ih =>
    refine ih ?_
    unfold reconcileAlert
    split
    next row hrow =>
      split_ifs
      · exact h
      · exact h.set (h (item.name, row) (Dict.mem_of_get? hrow))
      · exact h
    · exact h.set fun _ e he => absurd he not_mem_nil

theorem Sound.syncInstances {silenced : List (String × Uuid)} {defs : Dict String AlertRow}
    (h : Sound silenced defs) (meant : AlertRow → Bool) (assignments : List AppAssignment) :
    Sound silenced (syncInstances meant assignments defs) := by
  intro defn hmem henabled
  obtain ⟨defn₀, hmem₀, rfl⟩ := List.mem_map.1 hmem
  dsimp only at henabled ⊢
  by_cases hmeant : meant defn₀.2 = true
  · rw [if_pos hmeant] at henabled ⊢
    have henabled₀ : defn₀.2.enabled = true := henabled
    rw [henabled₀]
    exact audible_foldl_syncAssignment (h defn₀ hmem₀ henabled₀)
  · rw [if_neg hmeant] at henabled ⊢
    exact h defn₀ hmem₀ henabled

/-! ### Steps keep enabled definitions intact -/

/-- An invariant of an app: its enabled definitions are intact. -/
def Monitored.Sound (m : Monitored) : Prop :=
  Coverage.Sound m.silenced m.app.alertDefinitions

variable {m m' : Monitored}

theorem Monitored.Sound.createAlertDefinition (h : m.Sound) {item : AlertItem}
    (hstep : createAlertDefinition item m = some m') : m'.Sound := by
  unfold Coverage.createAlertDefinition at hstep
  split at hstep
  · cases hstep
  · obtain rfl := Option.some.inj hstep
    refine Sound.set h fun henabled => ?_
    have henabled' : item.enabled = true := henabled
    change ∀ e ∈ (syncInstancesForDefinition item.enabled m.app.assignments _).rows, _
    rw [henabled']
    exact audible_foldl_syncAssignment fun e he => absurd he not_mem_nil

theorem Monitored.Sound.updateAlertDefinition (h : m.Sound) {name : String}
    {request : UpdateAlertDefinitionRequest}
    (hallowed : request.enabled = some true → EnabledIntact m name)
    (hstep : updateAlertDefinition name request m = some m') : m'.Sound := by
  unfold Coverage.updateAlertDefinition at hstep
  split at hstep
  · cases hstep
  next row hrow =>
    dsimp only at hstep
    split at hstep
    · cases hstep
    · obtain rfl := Option.some.inj hstep
      have hmem := Dict.mem_of_get? hrow
      refine Sound.renamed (Sound.set h fun henabled => ?_) _ _
      change Intact m.silenced (name, row)
      by_cases hbefore : row.enabled = true
      · exact h (name, row) hmem hbefore
      · have hrequest : request.enabled = some true := by
          cases hr : request.enabled with
          | none => exact absurd (by simpa [updated, hr] using henabled) hbefore
          | some b => simpa [updated, hr] using henabled
        exact hallowed hrequest (name, row) hmem rfl (Bool.eq_false_iff.2 hbefore)

theorem Monitored.Sound.deleteAlertDefinition (h : m.Sound) (name : String) :
    (deleteAlertDefinition name m).Sound := by
  intro defn hmem henabled e he
  obtain ⟨hmem, hne⟩ := List.mem_filter.1 hmem
  exact audible_filter (h defn hmem henabled e he) hne

theorem addAssignment_defs {id : Uuid} {deviceId : Option Uuid}
    (hstep : addAssignment id deviceId m = some m') :
    m'.app.alertDefinitions = m.app.alertDefinitions ∧ m'.silenced = m.silenced := by
  unfold addAssignment at hstep
  split at hstep
  · cases hstep
  · obtain rfl := Option.some.inj hstep
    exact ⟨rfl, rfl⟩

theorem Monitored.Sound.addAssignment (h : m.Sound) {id : Uuid} {deviceId : Option Uuid}
    (hstep : addAssignment id deviceId m = some m') : m'.Sound := by
  obtain ⟨hdefs, hsilenced⟩ := addAssignment_defs hstep
  rw [Monitored.Sound, hdefs, hsilenced]
  exact h

theorem Monitored.Sound.createAssignment (h : m.Sound) {id : Uuid} {deviceId : Option Uuid}
    (hstep : createAssignment id deviceId m = some m') : m'.Sound := by
  obtain ⟨m₁, hadd, rfl⟩ := Option.map_eq_some_iff.1 hstep
  rw [Monitored.Sound]
  dsimp only
  refine Sound.mapEntities (h.addAssignment hadd) fun defn _ henabled hintact => ?_
  rw [henabled]
  exact @audible_foldl_syncAssignment _ _ [{ id, deviceId, enabled := true }] _ hintact

theorem Monitored.Sound.applyTemplate (h : m.Sound) {id deviceId : Uuid}
    (hstep : applyTemplate id deviceId m = some m') : m'.Sound := by
  unfold Coverage.applyTemplate at hstep
  split at hstep
  · exact h.addAssignment hstep
  · obtain rfl := Option.some.inj hstep
    exact h
  · cases hstep

theorem Monitored.Sound.autoAssign (h : m.Sound) {id deviceId : Uuid}
    (hstep : autoAssign id deviceId m = some m') : m'.Sound := by
  unfold Coverage.autoAssign at hstep
  split at hstep
  · exact h.addAssignment hstep
  · obtain rfl := Option.some.inj hstep
    exact h
  · cases hstep

theorem Monitored.Sound.deleteAssignment (h : m.Sound) (id : Uuid) :
    (deleteAssignment id m).Sound := by
  rw [Monitored.Sound, Coverage.deleteAssignment]
  dsimp only
  refine Sound.mapEntities h fun defn _ _ hintact e he => ?_
  obtain ⟨he, hne⟩ := List.mem_filter.1 he
  exact audible_filter (hintact e he) hne

theorem audible_afterUpdate {silenced : List (String × Uuid)} {name name' : String} {id : Uuid}
    {e : AlertEntity} (h : Audible silenced name' e) (enabled : Bool)
    (hne : (name', e.assignmentId) ≠ (name, id)) :
    Audible (afterUpdate name id enabled silenced) name' e := by
  rw [afterUpdate]
  split_ifs
  · exact audible_filter h (decide_eq_true hne)
  · exact h.imp_right (mem_cons_of_mem _)

theorem audible_withInstance {silenced : List (String × Uuid)} {name : String} {id : Uuid}
    {enabled : Bool} {entities : Entities} (h : ∀ e ∈ entities.rows, Audible silenced name e) :
    ∀ e ∈ (withInstance id enabled entities).rows,
      Audible (afterUpdate name id enabled silenced) name e := by
  intro e he
  obtain ⟨e₀, he₀, rfl⟩ := List.mem_map.1 he
  by_cases hid : e₀.assignmentId = id
  · rw [Alerting.updateAlertInstance, if_pos hid, afterUpdate]
    cases enabled with
    | true => exact .inl rfl
    | false => exact .inr (hid ▸ mem_cons_self)
  · rw [Alerting.updateAlertInstance, if_neg hid]
    exact audible_afterUpdate (h e₀ he₀) enabled fun heq => hid (Prod.mk.inj heq).2

theorem Monitored.Sound.updateAlertInstance (h : m.Sound) {name : String} {id : Uuid}
    {enabled : Bool} (hstep : updateAlertInstance name id enabled m = some m') : m'.Sound := by
  unfold Coverage.updateAlertInstance at hstep
  split at hstep
  · cases hstep
  · split at hstep
    · obtain rfl := Option.some.inj hstep
      intro defn hmem henabled
      obtain ⟨defn₀, hmem₀, rfl⟩ := List.mem_map.1 hmem
      dsimp only at henabled ⊢
      by_cases hname : defn₀.1 = name
      · rw [if_pos hname] at henabled ⊢
        exact audible_withInstance (hname ▸ h defn₀ hmem₀ henabled)
      · rw [if_neg hname] at henabled ⊢
        exact fun e he => audible_afterUpdate (h defn₀ hmem₀ henabled e he) enabled
          fun heq => hname (Prod.mk.inj heq).1
    · cases hstep

theorem Monitored.Sound.importApp (h : m.Sound) {packUid : String} {items : List AlertItem}
    (hallowed : ∀ item ∈ items, item.enabled = true → EnabledIntact m item.name) :
    Coverage.Sound m.silenced (syncAppAlertDefinitions packUid items m.app).alertDefinitions := by
  rw [syncAppAlertDefinitions]
  split_ifs
  · exact h
  · have hprepared : Prepared items m.silenced m.app.alertDefinitions := by
      intro defn hmem hmeant
      by_cases henabled : defn.2.enabled = true
      · exact h defn hmem henabled
      · obtain ⟨item, hitem, hon, hname⟩ := hmeant.resolve_left henabled
        exact hallowed item hitem hon defn hmem hname.symm (Bool.eq_false_iff.2 henabled)
    have hafter := hprepared.foldl_syncAlert packUid (List.Subset.refl items)
    exact Sound.syncInstances (fun defn hmem henabled => hafter defn hmem (.inl henabled))
      (fun _ => true) m.app.assignments

theorem Monitored.Sound.reconcileApp (h : m.Sound) (packUid : String) (items : List AlertItem) :
    Coverage.Sound m.silenced
      (reconcileAppAlertDefinitions packUid items m.app).alertDefinitions := by
  rw [reconcileAppAlertDefinitions]
  split_ifs
  · exact h
  · exact Sound.syncInstances (Sound.foldl_reconcileAlert packUid items h)
      (fun row => row.packOrigin = some packUid) m.app.assignments

/-- The step: what happens to an app keeps its enabled definitions intact. -/
theorem Monitored.Sound.step (h : m.Sound) {a : AppAction} (hallowed : m.Allowed a)
    (hstep : m.step a = some m') : m'.Sound := by
  cases a with
  | createAlertDefinition item => exact h.createAlertDefinition hstep
  | updateAlertDefinition name request => exact h.updateAlertDefinition hallowed hstep
  | deleteAlertDefinition name =>
    obtain rfl := Option.some.inj hstep
    exact h.deleteAlertDefinition name
  | createAssignment id deviceId => exact h.createAssignment hstep
  | applyTemplate id deviceId => exact h.applyTemplate hstep
  | autoAssign id deviceId => exact h.autoAssign hstep
  | monitorDevice id deviceId => exact h.addAssignment hstep
  | updateAssignment id enabled =>
    obtain rfl := Option.some.inj hstep
    exact h
  | deleteAssignment id =>
    obtain rfl := Option.some.inj hstep
    exact h.deleteAssignment id
  | importApp packUid items =>
    obtain rfl := Option.some.inj hstep
    exact h.importApp hallowed
  | reconcileApp packUid items =>
    obtain rfl := Option.some.inj hstep
    exact h.reconcileApp packUid items
  | updateAlertInstance name id enabled => exact h.updateAlertInstance hstep

theorem Monitored.Sound.syncAlertInstances (h : m.Sound) : (syncAlertInstances m).Sound := by
  rw [Monitored.Sound, Coverage.syncAlertInstances]
  dsimp only
  refine Sound.mapEntities h fun defn _ henabled hintact => ?_
  rw [if_pos henabled]
  exact audible_foldl_syncAssignment hintact

/-! ### Runs -/

/-- An invariant: the enabled definitions of every app are intact. -/
def Inv (s : State) : Prop := ∀ entry ∈ s, entry.2.Sound

/-- The step: a step under the condition keeps the enabled definitions of every app intact. -/
theorem Inv.step {s s' : State} {a : Action} (h : Inv s) (hallowed : Allowed s a)
    (hstep : step s a = some s') : Inv s' := by
  cases a with
  | createApp id app =>
    rw [Coverage.step] at hstep
    split at hstep
    · cases hstep
    · obtain rfl := Option.some.inj hstep
      intro entry hentry
      rcases Dict.mem_set hentry with hold | rfl
      · exact h entry hold
      · exact fun defn hdefn => absurd hdefn not_mem_nil
  | onApp id a =>
    obtain ⟨m, hm, hstep⟩ := Option.bind_eq_some_iff.1 hstep
    obtain ⟨m', hm', rfl⟩ := Option.map_eq_some_iff.1 hstep
    intro entry hentry
    rcases Dict.mem_set hentry with hold | rfl
    · exact h entry hold
    · exact (h (id, m) (Dict.mem_of_get? hm)).step (hallowed m hm) hm'
  | syncAlertInstances =>
    obtain rfl := Option.some.inj hstep
    intro entry hentry
    obtain ⟨entry₀, hentry₀, rfl⟩ := List.mem_map.1 hentry
    exact (h entry₀ hentry₀).syncAlertInstances

/-- After the periodic task an intact definition watches an enabled assignment, if that has a
device or its entity. -/
theorem watches_syncAlertInstances {silenced : List (String × Uuid)} {defn : String × AlertRow}
    (hintact : Intact silenced defn) {assignments : List AppAssignment} {a : AppAssignment}
    (ha : a ∈ assignments) (henabled : a.enabled = true)
    (hdevice : a.deviceId = none → a.id ∈ defn.2.entities.rows.map AlertEntity.assignmentId) :
    Watches silenced defn.1 (Alerting.syncAlertInstances assignments defn.2.entities) a := by
  refine ⟨(length_filter_eq_one_iff _ _).2 ?_,
    fun e he _ => audible_foldl_syncAssignment hintact e he⟩
  by_cases hnone : a.deviceId = none
  · exact map_subset _ (subset_foldl_syncAssignment true _ _) (hdevice hnone)
  · refine mem_ids_foldl_syncAssignment _ (List.mem_filter.2 ⟨ha, ?_⟩)
    exact decide_eq_true ⟨henabled, hnone⟩

/-- **Coverage is complete.** When every definition is intact at the moment it is switched on,
by an update or by a pack, and at the time of the periodic task every enabled assignment without
a device has the entities of the enabled definitions, that task leaves every enabled definition
with exactly one entity for every enabled assignment of its app, which is enabled unless an
operator has silenced it. -/
theorem covered_of_run {s t : State} (h : Run step Allowed [] s)
    (hallowed : Allowed s .syncAlertInstances) (hstep : step s .syncAlertInstances = some t) :
    Covered t := by
  have hinv : Inv s :=
    h.invariant (I := Inv) (fun entry hentry => absurd hentry not_mem_nil)
      fun hinv hallowed hstep => hinv.step hallowed hstep
  obtain rfl := Option.some.inj hstep
  intro entry hentry defn hdefn henabled a ha haenabled
  obtain ⟨⟨id, m⟩, hm, rfl⟩ := List.mem_map.1 hentry
  obtain ⟨defn₀, hdefn₀, rfl⟩ := List.mem_map.1 hdefn
  have henabled₀ : defn₀.2.enabled = true := henabled
  dsimp only
  rw [if_pos henabled₀]
  exact watches_syncAlertInstances (hinv _ hm defn₀ hdefn₀ henabled₀) ha haenabled
    (hallowed _ hm defn₀ hdefn₀ henabled₀ a ha haenabled)

/-- The app and the definition of the examples below. -/
def icmpApp : Entity := { kind := .apps, name := "icmp_check", packId := none }

/-- An alert on the app. -/
def unreachable (enabled : Bool) : AlertItem := { name := "Device unreachable", enabled }

/-- Two assignments, one of them without a device, and one entity that is silenced. -/
theorem covered_of_run_silenced :
    ∃ s t : State, Run step Allowed [] s ∧ step s .syncAlertInstances = some t ∧ Covered t ∧
      ∃ entry ∈ t, ∃ defn ∈ entry.2.app.alertDefinitions,
        defn.2.entities.rows.map AlertEntity.enabled = [false, true] := by
  have hreplay : ∃ s ∈ replay step Allowed []
      [.createApp "app" icmpApp,
        .onApp "app" (.createAssignment "a1" none),
        .onApp "app" (.createAlertDefinition (unreachable true)),
        .onApp "app" (.updateAlertInstance "Device unreachable" "a1" false),
        .onApp "app" (.autoAssign "a2" "d2")],
      Allowed s .syncAlertInstances ∧ ∃ t ∈ step s .syncAlertInstances,
        ∃ entry ∈ t, ∃ defn ∈ entry.2.app.alertDefinitions,
          defn.2.entities.rows.map AlertEntity.enabled = [false, true] := by
    decide +kernel
  obtain ⟨s, hs, hallowed, t, ht, hflags⟩ := hreplay
  exact ⟨s, t, run_of_replay hs, ht, covered_of_run (run_of_replay hs) hallowed ht, hflags⟩

/-- **A definition that was created disabled alerts on nothing after it has been enabled.** Its
entity took over the flag, and neither the update nor the periodic task corrects it. -/
theorem not_covered_enabled :
    ∃ s t : State, Run step (fun _ _ => True) [] s ∧ step s .syncAlertInstances = some t ∧
      ¬Covered t := by
  have hreplay : ∃ s ∈ replay step (fun _ _ => True) []
      [.createApp "app" icmpApp,
        .onApp "app" (.createAssignment "a1" (some "d1")),
        .onApp "app" (.createAlertDefinition (unreachable false)),
        .onApp "app" (.updateAlertDefinition "Device unreachable" { enabled := some true })],
      ∃ t ∈ step s .syncAlertInstances, ¬Covered t := by
    decide +kernel
  obtain ⟨s, hs, t, ht, hcovered⟩ := hreplay
  exact ⟨s, t, run_of_replay hs, ht, hcovered⟩

end MonCTL.Alerting.Coverage
