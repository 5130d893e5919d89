import Mathlib.Data.List.Nodup
import MonCTL.JobPipeline.Job

/-!
# What Survives the Pipeline

The local database gives back what was put into it. The other hops lose information: the
first one and the message have no checksums, a missing text and an empty one become the
same, and a number that is too large fails the call for all jobs.
-/

namespace MonCTL.JobPipeline

open List

/-- A binding arrives unchanged. -/
structure CarriesBinding (b : BindingJson) (b' : ConnectorBinding) : Prop where
  connectorType : b'.connectorType = b.connectorType
  connectorId : b'.connectorId = b.connectorId
  connectorVersionId : b'.connectorVersionId = b.connectorVersionId
  credentialName : b'.credentialName = b.credentialName
  settings : b'.settings = b.settings
  connectorChecksum : b'.connectorChecksum = b.connectorChecksum

/-- A job arrives unchanged, in every field that is executed or shown to the app. -/
structure Carries (j : JobJson) (job : JobDefinition) : Prop where
  jobId : job.jobId = j.jobId
  deviceId : job.deviceId = j.deviceId
  deviceHost : job.deviceHost = j.deviceHost
  appId : job.appId = j.appId
  appVersion : job.appVersion = j.appVersion
  appChecksum : job.appChecksum = j.appChecksum
  credentialNames : job.credentialNames = j.credentialNames
  interval : job.interval = j.interval
  parameters : job.parameters = j.parameters
  role : job.role = j.role
  maxExecutionTime : job.maxExecutionTime = j.maxExecutionTime
  connectorBindings : List.Forall₂ CarriesBinding j.connectorBindings job.connectorBindings

variable (j : JobJson)

/-- **The local database** gives back the job that was stored. -/
@[simp] theorem dictToJob_upsertJob (job : JobDefinition) : dictToJob (upsertJob job) = job := by
  simp [dictToJob, upsertJob, Function.comp_def]

def message : JobWithProfile where
  jobId := j.jobId
  deviceId := j.deviceId.getD ""
  deviceHost := j.deviceHost.getD ""
  appId := j.appId
  appVersion := j.appVersion
  appChecksum := ""
  credentialNames := j.credentialNames
  interval := j.interval
  parametersJson := j.parameters
  maxExecutionTime := j.maxExecutionTime
  role := j.role.getD ""
  connectorBindings := (j.connectorBindings.map parseBinding).map bindingToProto

/-- One hop after the other, for a job whose message can be built. -/
def received : JobDefinition := rebuildJob (jobToDict (message j))

end MonCTL.JobPipeline
