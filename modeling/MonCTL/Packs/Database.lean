import MonCTL.Lib.Json
import MonCTL.Lib.Table
import MonCTL.Alerting.InstanceSync

/-!
# Entities of Packs

A pack is a bundle of configuration: apps, connectors, templates and other entities. Every
kind of entity has columns of its own, which are kept here by name; apps and connectors have
versions as well, and apps have connector bindings, threshold variables and alert definitions.
An entity that came with a pack carries the identifier of the pack.

A version is addressed by its text, which is unique within its entity, and a pack by its
`pack_uid`. Checksums, which are computed from the source, and creation times are left out.
-/

namespace MonCTL.Packs

open Alerting

/-- The kinds of entities a pack can bring. -/
inductive PackSection
  | apps
  | credentialTemplates
  | snmpOids
  | deviceTemplates
  | deviceCategories
  | labelKeys
  | connectors
  | deviceTypes
  deriving DecidableEq

/-- `ENTITY_MAP`: the kinds in the order in which they are imported. -/
def entityMap : List PackSection :=
  [.apps, .credentialTemplates, .snmpOids, .deviceTemplates, .deviceCategories, .labelKeys,
    .connectors, .deviceTypes]

/-- The name of a kind in a document. -/
def PackSection.text : PackSection → String
  | apps => "apps"
  | credentialTemplates => "credential_templates"
  | snmpOids => "snmp_oids"
  | deviceTemplates => "device_templates"
  | deviceCategories => "device_categories"
  | labelKeys => "label_keys"
  | connectors => "connectors"
  | deviceTypes => "device_types"

/-- The kinds whose names are unique. Nothing keeps two OIDs or two device types from having
one name. -/
def PackSection.uniqueName : PackSection → Bool
  | snmpOids | deviceTypes => false
  | _ => true

/-! ### Rows -/

/-- A version of an app or of a connector. -/
structure Version where
  columns : JsonObject
  isLatest : Bool

/-- The versions of an app or of a connector: no two have one text. -/
abbrev Versions := Table String Version

/-- The slot of an app for a type of connector. -/
structure ConnectorBinding where
  connectorId : Option ℕ
  isOrphaned : Bool := false

/-- A severity tier with its message. -/
structure PackTier where
  tier : SeverityTier
  messageTemplate : Option String
  deriving DecidableEq

/-- An alert definition, and its entities. -/
structure AlertRow where
  tiers : List PackTier
  window : String
  description : Option String
  enabled : Bool
  packOrigin : Option String
  entities : Entities := ⟨[], List.nodup_nil⟩

/-- What the engine evaluates of an alert definition. -/
def AlertRow.definition (row : AlertRow) : AlertDefinition where
  tiers := row.tiers.map PackTier.tier
  window := row.window

/-- An entity. What only apps and connectors have is empty for the other kinds. -/
structure Entity where
  kind : PackSection
  name : String
  packId : Option String
  columns : JsonObject := []
  deviceCategoryId : Option ℕ := none
  versions : Versions := {}
  connectorBindings : Dict String ConnectorBinding := []
  thresholdVariables : Variables := []
  alertDefinitions : Dict String AlertRow := []
  assignments : List AppAssignment := []

def textOf (columns : JsonObject) (column : String) : String :=
  match columns.get? column with
  | some (.str value) => value
  | _ => ""

def Entity.column (e : Entity) (column : String) : Json := (e.columns.get? column).getD .null

structure Pack where
  name : String
  description : Option String
  author : Option String
  currentVersion : String

/-- A template bound to a device category or to a device type. -/
structure TemplateBinding where
  priority : ℤ
  packId : Option String

/-- The tables. -/
structure Database where
  packs : Table String Pack := {}
  entities : Table ℕ Entity := {}
  categoryBindings : Table (ℕ × ℕ) TemplateBinding := {}
  typeBindings : Table (ℕ × ℕ) TemplateBinding := {}

/-! ### Statements -/

/-- What makes an import fail, so that nothing of it is committed. -/
inductive ImportError
  | keyError (key : String)
  | integrityError
  | multipleResultsFound

/-- `scalar_one_or_none()`. -/
def scalarOneOrNone {α : Type} : List α → Except ImportError (Option α)
  | [] => .ok none
  | [row] => .ok (some row)
  | _ => .error .multipleResultsFound

theorem mem_of_scalarOneOrNone {α : Type} {rows : List α} {row : α}
    (h : scalarOneOrNone rows = .ok (some row)) : row ∈ rows := by
  match rows with
  | [] => cases h
  | [row'] =>
    cases h
    exact List.mem_singleton_self _
  | _ :: _ :: _ => cases h

def Database.find (db : Database) (kind : PackSection) (name : String) :
    Except ImportError (Option (ℕ × Entity)) :=
  scalarOneOrNone (db.entities.rows.filter fun row => row.2.kind = kind ∧ row.2.name = name)

/-- The device type with a pattern of object identifiers. -/
def Database.findPattern (db : Database) (pattern : String) :
    Except ImportError (Option (ℕ × Entity)) :=
  scalarOneOrNone (db.entities.rows.filter fun row =>
    row.2.kind = .deviceTypes ∧ row.2.column "sys_object_id_pattern" = .str pattern)

variable {db : Database} {id : ℕ} {e : Entity}

theorem Database.get?_of_find {kind : PackSection} {name : String}
    (h : db.find kind name = .ok (some (id, e))) :
    db.entities.get? id = some e ∧ e.kind = kind ∧ e.name = name := by
  have hmem := List.mem_filter.1 (mem_of_scalarOneOrNone h)
  exact ⟨Table.mem_rows.1 hmem.1, by simpa using hmem.2⟩

theorem Database.get?_of_findPattern {pattern : String}
    (h : db.findPattern pattern = .ok (some (id, e))) :
    db.entities.get? id = some e ∧ e.kind = .deviceTypes := by
  have hmem := List.mem_filter.1 (mem_of_scalarOneOrNone h)
  have hrow := hmem.2
  simp only [decide_eq_true_eq] at hrow
  exact ⟨Table.mem_rows.1 hmem.1, hrow.1⟩

/-- The unique constraints allow a row beside the others. -/
def Database.Admits (db : Database) (id : ℕ) (e : Entity) : Prop :=
  ∀ row ∈ db.entities.rows, row.1 ≠ id → row.2.kind = e.kind →
    (e.kind.uniqueName → row.2.name ≠ e.name) ∧
    (e.kind = .deviceTypes →
      row.2.column "sys_object_id_pattern" ≠ e.column "sys_object_id_pattern")
  deriving Decidable

/-- A row is written, as far as the unique constraints allow. -/
def Database.putEntity (db : Database) (id : ℕ) (e : Entity) : Except ImportError Database :=
  if db.Admits id e then .ok { db with entities := db.entities.upsert id e fun _ => e }
  else .error .integrityError

theorem Database.putEntity_eq_ok {db' : Database} (h : db.putEntity id e = .ok db') :
    db' = { db with entities := db'.entities } ∧
      ∀ id', db'.entities.get? id' = if id' = id then some e else db.entities.get? id' := by
  rw [putEntity] at h
  split at h
  · cases h
    refine ⟨rfl, fun id' => ?_⟩
    rw [Table.get?_upsert]
    cases db.entities.get? id <;> rfl
  · cases h

end MonCTL.Packs
