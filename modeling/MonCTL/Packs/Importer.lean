import MonCTL.Packs.Database

/-!
# Importing a Pack

A document lists entities by kind. Each of them is created when there is none with its name,
and what happens to one that exists depends on a resolution: it is skipped, overwritten,
duplicated under another name, or reconciled, which is meant to touch only what came with the
pack. Versions, connector bindings, threshold variables and alert definitions are synchronised
by routines of their own, of which there is one for each way to import an app.

A document is modelled after its keys have been read; one that lacks a key the importer needs
makes it fail, and then nothing is committed. The counters that an import returns, the history
of pack versions and the display texts of threshold variables are left out.
-/

namespace MonCTL.Packs

open Alerting

/-! ### Documents -/

/-- A version in a document. -/
structure VersionItem where
  version : String
  columns : JsonObject := []
  isLatest : Bool := false

/-- A threshold variable in a document. -/
structure ThresholdItem where
  name : String
  defaultValue : ℚ

/-- An alert definition in a document. -/
structure AlertItem where
  name : String
  tiers : List PackTier := []
  window : String := "5m"
  description : Option String := none
  enabled : Bool := true

/-- An entity in a document. Of a connector binding only the connector's name is read. -/
structure Item where
  name : Option String
  columns : JsonObject := []
  versions : List VersionItem := []
  connectorBindings : List String := []
  thresholdVariables : List ThresholdItem := []
  alertDefinitions : List AlertItem := []

/-- A template binding in a document, to a device category or to a device type. -/
structure BindingItem where
  ownerName : String
  templateName : String
  step : ℤ

structure Document where
  packUid : String
  name : String
  version : String
  description : Option String := none
  author : Option String := none
  contents : Dict PackSection (List Item) := []
  templateBindingsCategory : List BindingItem := []
  templateBindingsDeviceType : List BindingItem := []

/-- The entities of a document, in the order in which they are imported. -/
def Document.items (doc : Document) : List (PackSection × Item) :=
  entityMap.flatMap fun kind => ((doc.contents.get? kind).getD []).map fun item => (kind, item)

/-! ### Columns -/

/-- What an update does to a column. -/
inductive ColumnRule
  /-- `item.get(column)`: what is not in the document becomes null. -/
  | reset
  /-- `item.get(column, existing)`. -/
  | keep
  /-- Written when it is in the document and not null. -/
  | ifNotNull
  /-- Written when it is in the document and true. -/
  | ifTruthy

/-- A column: what a new row holds when the document does not say, and what an update does. A
column without a default has to be in the document. -/
structure Column where
  name : String
  default : Option Json
  rule : ColumnRule

/-- The columns of each kind, as `_create_entity` and `_update_entity` write them. -/
def columnsOf : PackSection → List Column
  | .apps => [⟨"description", some .null, .reset⟩, ⟨"app_type", some (.str "script"), .keep⟩,
      ⟨"config_schema", some .null, .keep⟩,
      ⟨"target_table", some (.str "availability_latency"), .keep⟩,
      ⟨"vendor_oid_prefix", some .null, .keep⟩]
  | .credentialTemplates => [⟨"description", some .null, .reset⟩, ⟨"fields", some (.arr []), .keep⟩]
  | .snmpOids => [⟨"oid", none, .keep⟩, ⟨"description", some .null, .reset⟩]
  | .deviceTemplates => [⟨"description", some .null, .reset⟩, ⟨"config", some (.obj []), .keep⟩]
  | .deviceCategories => [⟨"description", some .null, .reset⟩,
      ⟨"category", some (.str "other"), .keep⟩, ⟨"icon", some .null, .keep⟩]
  | .labelKeys => [⟨"description", some .null, .reset⟩, ⟨"color", some .null, .keep⟩,
      ⟨"show_description", some (.bool false), .keep⟩, ⟨"predefined_values", some (.arr []), .keep⟩]
  | .connectors => [⟨"description", some .null, .reset⟩, ⟨"connector_type", none, .keep⟩,
      ⟨"requirements", some .null, .keep⟩]
  | .deviceTypes => [⟨"sys_object_id_pattern", none, .keep⟩, ⟨"vendor", some .null, .reset⟩,
      ⟨"model", some .null, .reset⟩, ⟨"os_family", some .null, .reset⟩,
      ⟨"description", some .null, .reset⟩, ⟨"priority", some (.num 0), .keep⟩,
      ⟨"auto_assign_packs", some .null, .keep⟩]

def appVersionColumns : List Column :=
  [⟨"source_code", some .null, .ifTruthy⟩, ⟨"requirements", some (.arr []), .keep⟩,
    ⟨"entry_class", some .null, .keep⟩, ⟨"display_template", some .null, .ifNotNull⟩,
    ⟨"eligibility_oids", some .null, .keep⟩, ⟨"volatile_keys", some (.arr []), .keep⟩]

def connectorVersionColumns : List Column :=
  [⟨"source_code", some (.str ""), .ifTruthy⟩, ⟨"requirements", some .null, .keep⟩,
    ⟨"entry_class", some (.str "Connector"), .keep⟩]

variable (cols : List Column)

/-- The columns of a new row. -/
def createColumns (item : JsonObject) : Except ImportError JsonObject :=
  cols.mapM fun c =>
    match (item.get? c.name).or c.default with
    | some value => .ok (c.name, value)
    | none => .error (.keyError c.name)

def ColumnRule.update (rule : ColumnRule) (incoming : Option Json) (existing : Json) : Json :=
  match rule with
  | reset => incoming.getD .null
  | keep => incoming.getD existing
  | ifNotNull => (incoming.filter fun value => value ≠ .null).getD existing
  | ifTruthy => (incoming.filter Json.truthy).getD existing

/-- The columns of a row after an update. -/
def updateColumns (item columns : JsonObject) : JsonObject :=
  cols.map fun c => (c.name, c.rule.update (item.get? c.name) ((columns.get? c.name).getD .null))

/-- `item["name"]`, or `item["key"]` for a label key. -/
def requiredName (kind : PackSection) (item : Item) : Except ImportError String :=
  match item.name with
  | some name => .ok name
  | none => .error (.keyError (if kind = .labelKeys then "key" else "name"))

/-- `_create_entity`. -/
def createEntity (kind : PackSection) (item : Item) (packId : String) (category : Option ℕ) :
    Except ImportError Entity := do
  let name ← requiredName kind item
  if kind = .deviceTypes ∧ category = none then .error (.keyError "_resolved_device_category_id")
  else
    let columns ← createColumns (columnsOf kind) item.columns
    .ok
      { kind, name, columns
        packId := some packId
        deviceCategoryId := if kind = .deviceTypes then category else none }

/-- `_update_entity`. -/
def updateEntity (e : Entity) (item : Item) (packId : String) (category : Option ℕ) : Entity :=
  { e with
    packId := some packId
    columns := updateColumns (columnsOf e.kind) item.columns e.columns
    deviceCategoryId := if e.kind = .deviceTypes then category.or e.deviceCategoryId
      else e.deviceCategoryId }

/-- `_entity_item_differs`. -/
def entityItemDiffers (e : Entity) (item : Item) : Bool :=
  let incoming column := (item.columns.get? column).getD .null
  match e.kind with
  | .apps =>
    (e.column "description").orNone ≠ (incoming "description").orNone
    || (e.column "app_type").orNone ≠
      (if (incoming "app_type").truthy then incoming "app_type" else e.column "app_type")
    || (e.column "target_table").orNone ≠
      (if (incoming "target_table").truthy then incoming "target_table"
        else e.column "target_table")
    || (e.column "vendor_oid_prefix").orNone ≠ (incoming "vendor_oid_prefix").orNone
    || (e.column "config_schema").orNone ≠ (incoming "config_schema").orNone
  | .connectors =>
    (e.column "description").orNone ≠ (incoming "description").orNone
    || e.column "connector_type" ≠
      (item.columns.get? "connector_type").getD (e.column "connector_type")
    || (e.column "requirements").orNone ≠ (incoming "requirements").orNone
  | _ => true

/-! ### Versions -/

/-- `next((vd for vd in versions_data if vd["version"] == v.version), None)`, and its flag. -/
def matchingFlag (items : List VersionItem) (version : String) : Option Bool :=
  (items.find? fun item => item.version = version).map VersionItem.isLatest

/-- A new version, if there is none with its text. -/
def addVersion (item : VersionItem) (isLatest : Bool) (versions : Versions) :
    Except ImportError Versions := do
  let columns ← createColumns cols item.columns
  match versions.get? item.version with
  | some _ => .error .integrityError
  | none => .ok (versions.upsert item.version ⟨columns, isLatest⟩ id)

/-- The versions of a new entity, each with its own flag. -/
def createVersions (cols : List Column) : List VersionItem → Versions → Except ImportError Versions
  | [], versions => .ok versions
  | item :: items, versions => do
      let versions ← addVersion cols item item.isLatest versions
      createVersions cols items versions

/-- The loop over the versions of a document: what was there is left alone or rewritten, and
what was not is added. -/
def addMissing (cols : List Column) (existing : List String) (rewrite : Bool) :
    List VersionItem → Versions → Except ImportError Versions
  | [], versions => .ok versions
  | item :: items, versions =>
    if item.version ∈ existing then
      addMissing cols existing rewrite items
        (if rewrite then
          versions.modify item.version fun v =>
            { v with columns := updateColumns cols item.columns v.columns }
        else versions)
    else do
      let versions ← addVersion cols item false versions
      addMissing cols existing rewrite items versions

/-- The versions when an entity is skipped or overwritten: the flag of **every** version is
written. -/
def syncVersions (rewrite : Bool) (items : List VersionItem)
    (versions : Versions) : Except ImportError Versions := do
  let versions ← addMissing cols versions.rows.keys rewrite items versions
  .ok (versions.mapRows fun version v =>
    { v with isLatest := (matchingFlag items version).getD false })

/-- `_sync_app_versions_tracked` and `_sync_connector_versions_tracked`: the flags of the versions
in the document are written. -/
def syncVersionsTracked (items : List VersionItem) (versions : Versions) :
    Except ImportError Versions := do
  let versions ← addMissing cols versions.rows.keys false items versions
  .ok (versions.mapRows fun version v =>
    { v with isLatest := (matchingFlag items version).getD v.isLatest })

/-! ### What belongs to an app -/

/-- `_sync_connector_bindings_for_app`. -/
def syncConnectorBindingsForApp (db : Database) :
    List String → Dict String ConnectorBinding → Except ImportError (Dict String ConnectorBinding)
  | [], bindings => .ok bindings
  | name :: names, bindings => do
      if name = "" then syncConnectorBindingsForApp db names bindings
      else
        match ← db.find .connectors name with
        | none => syncConnectorBindingsForApp db names bindings
        | some (id, connector) =>
          let connectorType := textOf connector.columns "connector_type"
          match bindings.get? connectorType with
          | some _ => syncConnectorBindingsForApp db names bindings
          | none =>
            syncConnectorBindingsForApp db names
              (bindings.set connectorType { connectorId := some id })

/-- `_import_threshold_variables`, and `_reconcile_threshold_variables`, which differs in the
display texts. -/
def importThresholdVariables (items : List ThresholdItem) (vars : Variables) : Variables :=
  items.foldl
    (fun vars item => vars.set item.name (withDefault item.defaultValue (vars.get? item.name))) vars

/-- A new alert definition. -/
def AlertItem.row (item : AlertItem) (packUid : String) : AlertRow where
  tiers := item.tiers
  window := item.window
  description := item.description
  enabled := item.enabled
  packOrigin := some packUid

variable (packUid : String)

/-- One definition when an app is created, skipped or overwritten. -/
def syncAlert (defs : Dict String AlertRow) (item : AlertItem) :
    Dict String AlertRow :=
  match defs.get? item.name with
  | some row =>
    if row.tiers ≠ item.tiers ∨ row.window ≠ item.window ∨ row.description ≠ item.description ∨
        row.enabled ≠ item.enabled then
      defs.set item.name
        { row with
          tiers := item.tiers
          window := item.window
          enabled := item.enabled
          description := item.description
          packOrigin := some packUid }
    else defs
  | none => defs.set item.name (item.row packUid)

/-- One definition when an app is reconciled. -/
def reconcileAlert (defs : Dict String AlertRow) (item : AlertItem) :
    Dict String AlertRow :=
  match defs.get? item.name with
  | some row =>
    if row.packOrigin ≠ some packUid then defs
    else if row.tiers ≠ item.tiers ∨ row.window ≠ item.window ∨
        row.description ≠ item.description then
      defs.set item.name
        { row with tiers := item.tiers, window := item.window, description := item.description }
    else defs
  | none => defs.set item.name (item.row packUid)

variable (meant : AlertRow → Bool)

/-- `sync_instances_for_definition`, for the definitions that are meant. -/
def syncInstances (assignments : List AppAssignment)
    (defs : Dict String AlertRow) : Dict String AlertRow :=
  defs.map fun entry =>
    (entry.1,
      if meant entry.2 then
        { entry.2 with
          entities := syncInstancesForDefinition entry.2.enabled assignments entry.2.entities }
      else entry.2)

/-- `sync_threshold_variables`, for the definitions of a document that are meant. -/
def syncThresholds (table : String) (defs : Dict String AlertRow)
    (items : List AlertItem) (vars : Variables) : Variables :=
  items.foldl
    (fun vars item =>
      match defs.get? item.name with
      | some row => if meant row then (syncThresholdVariables table row.definition vars).1 else vars
      | none => vars) vars

/-- Alert definitions after one of the two loops over them. -/
def withAlertDefinitions (items : List AlertItem)
    (defs : Dict String AlertRow) (app : Entity) : Entity :=
  { app with
    alertDefinitions := syncInstances meant app.assignments defs
    thresholdVariables :=
      syncThresholds meant (textOf app.columns "target_table") defs items app.thresholdVariables }

/-- `_sync_app_alert_definitions`. -/
def syncAppAlertDefinitions (items : List AlertItem) (app : Entity) : Entity :=
  if items = [] then app
  else
    withAlertDefinitions (fun _ => true) items
      (items.foldl (syncAlert packUid) app.alertDefinitions) app

/-- `_reconcile_app_alert_definitions`. -/
def reconcileAppAlertDefinitions (items : List AlertItem) (app : Entity) :
    Entity :=
  if items = [] then app
  else
    withAlertDefinitions (fun row => row.packOrigin = some packUid) items
      (items.foldl (reconcileAlert packUid) app.alertDefinitions) app

variable (db : Database)

/-- What follows the versions when an app is created, skipped or overwritten. -/
def syncChildren (packUid : String) (item : Item) (app : Entity) :
    Except ImportError Entity := do
  let bindings ← syncConnectorBindingsForApp db item.connectorBindings app.connectorBindings
  .ok (syncAppAlertDefinitions packUid item.alertDefinitions
    { app with
      connectorBindings := bindings
      thresholdVariables :=
        importThresholdVariables item.thresholdVariables app.thresholdVariables })

/-- `_create_app_versions`. -/
def createAppVersions (packUid : String) (item : Item) (app : Entity) :
    Except ImportError Entity := do
  let versions ← createVersions appVersionColumns item.versions app.versions
  syncChildren db packUid item { app with versions }

/-- `_sync_app_versions`. -/
def syncAppVersions (packUid : String) (skipAppUpdate : Bool) (item : Item)
    (app : Entity) : Except ImportError Entity := do
  let versions ← syncVersions appVersionColumns (!skipAppUpdate) item.versions app.versions
  syncChildren db packUid item { app with versions }

/-- `_reconcile_app`. -/
def reconcileApp (packUid : String) (item : Item) (app : Entity) :
    Except ImportError Entity := do
  let versions ← syncVersionsTracked appVersionColumns item.versions app.versions
  let bindings ← syncConnectorBindingsForApp db item.connectorBindings app.connectorBindings
  .ok (reconcileAppAlertDefinitions packUid item.alertDefinitions
    { app with
      versions
      connectorBindings := bindings
      thresholdVariables :=
        importThresholdVariables item.thresholdVariables app.thresholdVariables })

/-! ### Entities -/

/-- The row an item is matched with, and the resolution for it. An empty resolution for all counts
as none. A device type can be found by its pattern, and is then overwritten unless the resolutions
name it. -/
def existingRow (resolutions : Dict String String) (kind : PackSection) (item : Item)
    (db : Database) : Except ImportError (Option (ℕ × Entity) × String) := do
  let name := item.name.getD ""
  let named := resolutions.get? (kind.text ++ ":" ++ name)
  let wildcard := (resolutions.get? "*").filter fun resolution => resolution ≠ ""
  let resolution := (named.or wildcard).getD "skip"
  match ← db.find kind name with
  | some row => .ok (some row, resolution)
  | none =>
    let pattern := textOf item.columns "sys_object_id_pattern"
    if kind = .deviceTypes ∧ pattern ≠ "" then
      match ← db.findPattern pattern with
      | some row => .ok (some row, named.getD "overwrite")
      | none => .ok (none, resolution)
    else .ok (none, resolution)

/-- An entity that exists is skipped. Its app's children are synchronised all the same. -/
def skipItem (item : Item) (id : ℕ) (e : Entity) (db : Database) :
    Except ImportError Database :=
  match e.kind with
  | .apps => do
      let e ← syncAppVersions db packUid true item e
      db.putEntity id e
  | _ => .ok db

/-- What belongs to an entity that has been overwritten. -/
def overwriteChildren (packUid : String) (item : Item) (e : Entity) :
    Except ImportError Entity :=
  match e.kind with
  | .apps => syncAppVersions db packUid false item e
  | .connectors => do
      let versions ← syncVersions connectorVersionColumns true item.versions e.versions
      .ok { e with versions }
  | _ => .ok e

def overwriteItem (item : Item) (category : Option ℕ) (id : ℕ) (e : Entity)
    (db : Database) : Except ImportError Database := do
  let e ← overwriteChildren db packUid item (updateEntity e item packUid category)
  db.putEntity id e

def reconcileChildren (packUid : String) (item : Item) (e : Entity) :
    Except ImportError Entity :=
  match e.kind with
  | .apps => reconcileApp db packUid item e
  | .connectors => do
      let versions ← syncVersionsTracked connectorVersionColumns item.versions e.versions
      .ok { e with versions }
  | _ => .ok e

/-- An entity that exists is reconciled, if it came with the pack. -/
def reconcileItem (item : Item) (category : Option ℕ) (id : ℕ) (e : Entity)
    (db : Database) : Except ImportError Database :=
  if e.packId ≠ some packUid then .ok db
  else do
    let e ← reconcileChildren db packUid item
      (if entityItemDiffers e item then updateEntity e item packUid category else e)
    db.putEntity id e

/-- What belongs to a new entity. -/
def createChildren (packUid : String) (item : Item) (e : Entity) :
    Except ImportError Entity :=
  match e.kind with
  | .apps => createAppVersions db packUid item e
  | .connectors => do
      let versions ← createVersions connectorVersionColumns item.versions e.versions
      .ok { e with versions }
  | _ => .ok e

/-- An entity is created. -/
def createItem (kind : PackSection) (item : Item) (category : Option ℕ)
    (db : Database) : Except ImportError Database := do
  let e ← createEntity kind item packUid category
  let e ← createChildren db packUid item e
  db.putEntity db.entities.fresh e

/-- The import of an item whose device category is known. -/
def importResolved (resolutions : Dict String String) (kind : PackSection)
    (item : Item) (category : Option ℕ) (db : Database) : Except ImportError Database := do
  let (existing, resolution) ← existingRow resolutions kind item db
  match existing with
  | some (id, e) =>
    if resolution = "skip" then skipItem packUid item id e db
    else if resolution = "overwrite" then overwriteItem packUid item category id e db
    else if resolution = "reconcile" then reconcileItem packUid item category id e db
    else if resolution = "rename" then
      createItem packUid kind { item with name := some (item.name.getD "" ++ "-imported") }
        category db
    else createItem packUid kind item category db
  | none => createItem packUid kind item category db

/-- The device category of an item, if it names one. A device type whose category does not exist
is left out. -/
def itemCategory (kind : PackSection) (item : Item) (db : Database) :
    Except ImportError (Option (Option ℕ)) :=
  match item.columns.get? "device_category_name" with
  | some _ =>
    if kind = .deviceTypes then do
      match ← db.find .deviceCategories (textOf item.columns "device_category_name") with
      | some (category, _) => .ok (some (some category))
      | none => .ok none
    else .ok (some none)
  | none => .ok (some none)

def importItem (resolutions : Dict String String) (kind : PackSection)
    (item : Item) (db : Database) : Except ImportError Database := do
  match ← itemCategory kind item db with
  | some category => importResolved packUid resolutions kind item category db
  | none => .ok db

def importItems (packUid : String) (resolutions : Dict String String) :
    List (PackSection × Item) → Database → Except ImportError Database
  | [], db => .ok db
  | (kind, item) :: items, db => do
      let db ← importItem packUid resolutions kind item db
      importItems packUid resolutions items db

/-! ### Packs -/

/-- A template is bound, or its binding is taken over. -/
def bindTemplate (step : ℤ) (owner template : ℕ)
    (bindings : Table (ℕ × ℕ) TemplateBinding) : Table (ℕ × ℕ) TemplateBinding :=
  bindings.upsert (owner, template) ⟨step, some packUid⟩ fun _ => ⟨step, some packUid⟩

/-- The bindings of a document, to rows of a kind. -/
def importBindings (packUid : String) (db : Database) (kind : PackSection) :
    List BindingItem → Table (ℕ × ℕ) TemplateBinding →
    Except ImportError (Table (ℕ × ℕ) TemplateBinding)
  | [], bindings => .ok bindings
  | item :: items, bindings => do
      let owner ← db.find kind item.ownerName
      let template ← db.find .deviceTemplates item.templateName
      match owner, template with
      | some (owner, _), some (template, _) =>
        importBindings packUid db kind items
          (bindTemplate packUid item.step owner template bindings)
      | _, _ => importBindings packUid db kind items bindings

/-- The pack is created or updated. -/
def Document.storePack (doc : Document) (db : Database) : Database :=
  let pack : Pack := ⟨doc.name, doc.description, doc.author, doc.version⟩
  { db with packs := db.packs.upsert doc.packUid pack fun _ => pack }

/-- `import_pack`. -/
def importPack (doc : Document) (resolutions : Dict String String) (db : Database) :
    Except ImportError Database := do
  let db ← importItems doc.packUid resolutions doc.items (doc.storePack db)
  let categoryBindings ← importBindings doc.packUid db .deviceCategories
    doc.templateBindingsCategory db.categoryBindings
  let typeBindings ← importBindings doc.packUid db .deviceTypes
    doc.templateBindingsDeviceType db.typeBindings
  .ok { db with categoryBindings, typeBindings }

end MonCTL.Packs
