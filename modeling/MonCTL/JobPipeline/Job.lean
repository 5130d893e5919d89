import Mathlib.Algebra.Group.Int.Defs
import MonCTL.Lib.Json

/-!
# From Central to the Poll Engine

A job leaves central as a JSON object. The collector's cache node parses it into its own
record, keeps it in a local database, and serves it to the poll workers over gRPC. A poll
worker turns the message into a dictionary and that into the record it executes. Each hop
is a function written by hand, and each reads the fields it knows of: a field a hop does not
read gets the default of the record it builds.

The order in which jobs are handed out, and the division of the jobs among several workers,
are left out, and so are execution profiles.
-/

namespace MonCTL.JobPipeline

/-! ### Records -/

/-- A connector binding of a job, as a JSON object. -/
structure BindingJson where
  connectorType : String
  connectorId : String
  connectorVersionId : Option String
  credentialName : Option String
  settings : JsonObject
  connectorChecksum : String

structure JobJson where
  jobId : String
  deviceId : Option String
  deviceHost : Option String
  appId : String
  appVersion : String
  appChecksum : String
  credentialNames : List String
  interval : ℤ
  parameters : JsonObject
  role : Option String
  maxExecutionTime : ℤ
  enabled : Bool
  updatedAt : Option String
  connectorBindings : List BindingJson

/-- A response of `GET /jobs`: only enabled assignments, each once. -/
structure JobsResponse where
  jobs : List JobJson
  enabled : ∀ j ∈ jobs, j.enabled = true
  jobIds_nodup : (jobs.map JobJson.jobId).Nodup

/-- `ConnectorBinding`. -/
structure ConnectorBinding where
  connectorType : String
  connectorId : String
  connectorVersionId : Option String
  credentialName : Option String := none
  settings : JsonObject := []
  connectorChecksum : String := ""

/-- `JobDefinition`. -/
structure JobDefinition where
  jobId : String
  deviceId : Option String
  deviceHost : Option String
  appId : String
  appVersion : String
  credentialNames : List String
  interval : ℤ
  parameters : JsonObject
  role : Option String := none
  maxExecutionTime : ℤ := 120
  enabled : Bool := true
  updatedAt : Option String := some ""
  appChecksum : String := ""
  connectorBindings : List ConnectorBinding := []

/-- The message `ConnectorBindingProto`. -/
structure ConnectorBindingProto where
  connectorType : String
  connectorId : String
  connectorVersionId : String
  credentialName : String
  settingsJson : JsonObject

/-- The message `JobWithProfile`. A field of type `int32` holds no other numbers. -/
structure JobWithProfile where
  jobId : String
  deviceId : String
  deviceHost : String
  appId : String
  appVersion : String
  credentialNames : List String
  interval : ℤ
  parametersJson : JsonObject
  maxExecutionTime : ℤ
  role : String
  connectorBindings : List ConnectorBindingProto
  appChecksum : String

/-- A binding in the dictionary a poll worker makes of a message. -/
structure BindingDict where
  connectorType : String
  connectorId : String
  connectorVersionId : String
  credentialName : Option String
  settings : JsonObject

/-- The dictionary a poll worker makes of a message. -/
structure JobDict where
  jobId : String
  deviceId : String
  deviceHost : String
  appId : String
  appVersion : String
  appChecksum : String
  credentialNames : List String
  interval : ℤ
  parameters : JsonObject
  maxExecutionTime : ℤ
  role : String
  connectorBindings : List BindingDict

/-! ### The cache node -/

/-- One binding in `CentralAPIClient.get_jobs`: the checksum is not read. -/
def parseBinding (b : BindingJson) : ConnectorBinding where
  connectorType := b.connectorType
  connectorId := b.connectorId
  connectorVersionId := b.connectorVersionId
  credentialName := b.credentialName
  settings := b.settings

/-- One job in `CentralAPIClient.get_jobs`: the checksum is not read. -/
def parseJob (j : JobJson) : JobDefinition where
  jobId := j.jobId
  deviceId := j.deviceId
  deviceHost := j.deviceHost
  appId := j.appId
  appVersion := j.appVersion
  credentialNames := j.credentialNames
  interval := j.interval
  parameters := j.parameters
  role := j.role
  maxExecutionTime := j.maxExecutionTime
  enabled := j.enabled
  updatedAt := j.updatedAt
  connectorBindings := j.connectorBindings.map parseBinding

/-- `LocalCache.upsert_job`: the definition it writes. -/
def upsertJob (job : JobDefinition) : JobJson where
  jobId := job.jobId
  deviceId := job.deviceId
  deviceHost := job.deviceHost
  appId := job.appId
  appVersion := job.appVersion
  appChecksum := job.appChecksum
  credentialNames := job.credentialNames
  interval := job.interval
  parameters := job.parameters
  role := job.role
  maxExecutionTime := job.maxExecutionTime
  enabled := job.enabled
  updatedAt := job.updatedAt
  connectorBindings := job.connectorBindings.map fun b =>
    { connectorType := b.connectorType
      connectorId := b.connectorId
      connectorVersionId := b.connectorVersionId
      credentialName := b.credentialName
      settings := b.settings
      connectorChecksum := b.connectorChecksum }

/-- `_dict_to_job`: a definition read back. -/
def dictToJob (d : JobJson) : JobDefinition where
  jobId := d.jobId
  deviceId := d.deviceId
  deviceHost := d.deviceHost
  appId := d.appId
  appVersion := d.appVersion
  credentialNames := d.credentialNames
  interval := d.interval
  parameters := d.parameters
  role := d.role
  maxExecutionTime := d.maxExecutionTime
  enabled := d.enabled
  updatedAt := d.updatedAt
  appChecksum := d.appChecksum
  connectorBindings := d.connectorBindings.map fun b =>
    { connectorType := b.connectorType
      connectorId := b.connectorId
      connectorVersionId := b.connectorVersionId
      credentialName := b.credentialName
      settings := b.settings
      connectorChecksum := b.connectorChecksum }

/-- A number a field of type `int32` can hold. -/
def FitsInt32 (x : ℤ) : Prop := -2 ^ 31 ≤ x ∧ x < 2 ^ 31
  deriving Decidable

/-- One binding in `GetMyJobs`: the message has no field for the checksum, and a text field
that is not set is empty. -/
def bindingToProto (b : ConnectorBinding) : ConnectorBindingProto where
  connectorType := b.connectorType
  connectorId := b.connectorId
  connectorVersionId := b.connectorVersionId.getD ""
  credentialName := b.credentialName.getD ""
  settingsJson := b.settings

/-- One job in `GetMyJobs`; a number that does not fit raises. -/
def getMyJob (job : JobDefinition) : Option JobWithProfile :=
  if FitsInt32 job.interval ∧ FitsInt32 job.maxExecutionTime then
    some {
      jobId := job.jobId
      deviceId := job.deviceId.getD ""
      deviceHost := job.deviceHost.getD ""
      appId := job.appId
      appVersion := job.appVersion
      appChecksum := job.appChecksum
      credentialNames := job.credentialNames
      interval := job.interval
      parametersJson := job.parameters
      maxExecutionTime := job.maxExecutionTime
      role := job.role.getD ""
      connectorBindings := job.connectorBindings.map bindingToProto }
  else none

/-- `GetMyJobs`: one job that raises fails the call. -/
def getMyJobs (jobs : List JobDefinition) : Option (List JobWithProfile) := jobs.mapM getMyJob

/-- A text that is `None` when it is empty. -/
def orNone (s : String) : Option String := if s = "" then none else some s

/-- `_job_to_dict`. -/
def jobToDict (j : JobWithProfile) : JobDict where
  jobId := j.jobId
  deviceId := j.deviceId
  deviceHost := j.deviceHost
  appId := j.appId
  appVersion := j.appVersion
  appChecksum := j.appChecksum
  credentialNames := j.credentialNames
  interval := j.interval
  parameters := j.parametersJson
  maxExecutionTime := j.maxExecutionTime
  role := j.role
  connectorBindings := j.connectorBindings.map fun b =>
    { connectorType := b.connectorType
      connectorId := b.connectorId
      connectorVersionId := b.connectorVersionId
      credentialName := orNone b.credentialName
      settings := b.settingsJson }

/-! ### The poll engine -/

/-- One job in `_refresh_jobs`. -/
def rebuildJob (j : JobDict) : JobDefinition where
  jobId := j.jobId
  deviceId := orNone j.deviceId
  deviceHost := orNone j.deviceHost
  appId := j.appId
  appVersion := j.appVersion
  credentialNames := j.credentialNames
  interval := j.interval
  parameters := j.parameters
  role := orNone j.role
  maxExecutionTime := j.maxExecutionTime
  appChecksum := j.appChecksum
  connectorBindings := j.connectorBindings.map fun b =>
    { connectorType := b.connectorType
      connectorId := b.connectorId
      connectorVersionId := some b.connectorVersionId
      credentialName := b.credentialName
      settings := b.settings }

end MonCTL.JobPipeline
