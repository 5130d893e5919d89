import MonCTL.JobPipeline.Job
import MonCTL.Lib.Table
import MonCTL.Lib.Uuid

/-!
# The Connector Bindings of a Job

Every slot of a job's app becomes a binding of a connector, which the assignment's own binding of
the same type may replace. An app without slots has the assignment's own bindings. Versions that are
the latest, checksums and the names of credentials are loaded before, for all jobs of the response.
-/

namespace MonCTL.CollectorApi.JobBindings

open List

open JobPipeline (BindingJson)

/-! ### The tables -/

/-- `ConnectorVersion`. -/
structure ConnectorVersion where
  connectorId : Uuid
  isLatest : Bool
  checksum : Option String

/-- `AppConnectorBinding`, a slot. -/
structure AppConnectorBinding where
  connectorId : Option Uuid
  connectorVersionId : Option Uuid
  isOrphaned : Bool := false
  settings : JsonObject := []

/-- `AssignmentConnectorBinding`. -/
structure AssignmentConnectorBinding where
  connectorId : Uuid
  connectorVersionId : Option Uuid
  credentialId : Option Uuid
  settings : JsonObject := []

/-- A selected assignment, with the slots of its app, its own bindings and its overrides of
credentials by connector type, and the credentials of its device. -/
structure Row where
  slots : Table String AppConnectorBinding
  bindings : Table String AssignmentConnectorBinding
  overrides : Dict String Uuid := []
  credentialId : Option Uuid := none
  deviceCredentials : Dict String String := []

/-- The versions of connectors, and the names of credentials. -/
structure Database where
  versions : Table Uuid ConnectorVersion
  credentials : Dict Uuid String

/-! ### Preloads -/

/-- `latest_connector_versions`. -/
def Database.latest (db : Database) : Dict Uuid Uuid :=
  Dict.setAll [] ((db.versions.rows.filter (·.2.isLatest)).map fun v => (v.2.connectorId, v.1))

/-- A version that is given, or the latest one of a connector. -/
def Database.resolve (db : Database) (versionId connectorId : Option Uuid) : Option Uuid :=
  versionId.or (connectorId.bind db.latest.get?)

/-- `all_cv_ids`. -/
def Database.allCvIds (db : Database) (rows : List Row) : List Uuid :=
  rows.flatMap fun row =>
    (row.slots.rows.filterMap fun acb => db.resolve acb.2.connectorVersionId acb.2.connectorId) ++
      row.bindings.rows.filterMap fun b => db.resolve b.2.connectorVersionId (some b.2.connectorId)

/-- `cv_checksum_map`. -/
def Database.cvChecksumMap (db : Database) (rows : List Row) : Dict Uuid String :=
  (db.versions.rows.filter (·.1 ∈ db.allCvIds rows)).map fun v => (v.1, v.2.checksum.getD "")

/-- `all_cred_ids`. -/
def allCredIds (rows : List Row) : List Uuid :=
  rows.flatMap fun row => row.bindings.rows.filterMap (·.2.credentialId) ++
    row.credentialId.toList ++ row.deviceCredentials.filterMap (parseUuid ·.2) ++
      row.overrides.map Prod.snd

/-- `cred_name_map`. -/
def Database.credNameMap (db : Database) (rows : List Row) : Dict Uuid String :=
  db.credentials.filter (·.1 ∈ allCredIds rows)

/-! ### Bindings -/

/-- A credential by precedence: the override of the type, that of the assignment's binding, that of
the assignment, and that of the device. -/
def Row.credential (row : Row) (connectorType : String) : Option Uuid :=
  (Dict.get? row.overrides connectorType).or <|
    ((row.bindings.get? connectorType).bind (·.credentialId)).or <|
      row.credentialId.or ((Dict.get? row.deviceCredentials connectorType).bind parseUuid)

/-- The version that is pinned: that of the assignment's binding, or that of the slot. -/
def Row.version (row : Row) (connectorType : String) : Option Uuid :=
  ((row.bindings.get? connectorType).bind (·.connectorVersionId)).or
    ((row.slots.get? connectorType).bind (·.connectorVersionId))

/-- The connector that replaces that of a slot, or that of the slot. -/
def Row.connector (row : Row) (connectorType : String) (connectorId : Uuid) : Uuid :=
  (row.bindings.get? connectorType).elim connectorId (·.connectorId)

def Database.binding (db : Database) (rows : List Row) (connectorType : String) (connectorId : Uuid)
    (versionId credentialId : Option Uuid) (settings : JsonObject) : BindingJson where
  connectorType
  connectorId
  connectorVersionId := versionId
  credentialName := credentialId.bind (db.credNameMap rows).get?
  settings
  connectorChecksum := (versionId.bind (db.cvChecksumMap rows).get?).getD ""

/-- The binding of a slot. One that is orphaned or not filled has none. -/
def Database.ofSlot (db : Database) (rows : List Row) (row : Row)
    (acb : String × AppConnectorBinding) : Option BindingJson :=
  if acb.2.isOrphaned then none else acb.2.connectorId.map fun connectorId =>
    db.binding rows acb.1 (row.connector acb.1 connectorId)
      (db.resolve (row.version acb.1) (row.connector acb.1 connectorId))
      (row.credential acb.1)
      (Dict.setAll acb.2.settings (((row.bindings.get? acb.1).map (·.settings)).getD []))

/-- The binding of an assignment whose app has no slots. -/
def Database.ofAssignment (db : Database) (rows : List Row)
    (b : String × AssignmentConnectorBinding) : BindingJson :=
  db.binding rows b.1 b.2.connectorId (db.resolve b.2.connectorVersionId b.2.connectorId)
    b.2.credentialId b.2.settings

/-- `connector_bindings` of a job. -/
def connectorBindings (db : Database) (rows : List Row) (row : Row) : List BindingJson :=
  if row.slots.rows = [] then row.bindings.rows.map (db.ofAssignment rows)
  else row.slots.rows.filterMap (db.ofSlot rows row)

/-! ### What is to hold -/

def Database.Belongs (db : Database) (versionId connectorId : Uuid) : Prop :=
  ∃ v, db.versions.get? versionId = some v ∧ v.connectorId = connectorId

variable {db : Database} {rows : List Row} {row : Row} {id : Uuid}

variable {connectorId : Uuid}

end MonCTL.CollectorApi.JobBindings
