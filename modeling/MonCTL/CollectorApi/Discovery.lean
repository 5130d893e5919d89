import MonCTL.JobPipeline.Job

/-!
# Injecting Discovery Jobs

Somebody who wants a device to be discovered sets a flag for it. The handler of `GET /jobs`
takes the flags of the devices in its caller's scope, and adds a job to the response for each of
them: a one-shot job, with the interval 0, whose id is made of that of the device.

Injections are numbered in the order in which they happen. The log of them is there to state
what has happened.
-/

namespace MonCTL.CollectorApi

open JobPipeline (JobJson BindingJson)

/-- A device, and what the handler looks up for its discovery job. -/
structure DiscoveryTarget where
  deviceId : String
  deviceHost : Option String
  appVersion : String
  appChecksum : String
  credentialNames : List String
  eligibilityOids : List String
  updatedAt : String
  connectorBindings : List BindingJson

/-- The job of a device. -/
def discoveryJob (d : DiscoveryTarget) : JobJson where
  jobId := "discovery-" ++ d.deviceId
  deviceId := some d.deviceId
  deviceHost := d.deviceHost
  appId := "snmp_discovery"
  appVersion := d.appVersion
  appChecksum := d.appChecksum
  credentialNames := d.credentialNames
  interval := 0
  parameters := ("_one_shot", .bool true) ::
    if d.eligibilityOids.isEmpty then []
    else [("_eligibility_oids", .arr (d.eligibilityOids.map .str))]
  role := some "discovery"
  maxExecutionTime := 30
  enabled := true
  updatedAt := some d.updatedAt
  connectorBindings := d.connectorBindings

/-- The flags that are set, and the jobs injected so far. -/
structure DiscoveryState where
  flags : List String := []
  injected : List String := []

/-- `set_discovery_flag`. -/
def setDiscoveryFlag (deviceId : String) (s : DiscoveryState) : DiscoveryState :=
  { s with flags := s.flags.insert deviceId }

/-- The jobs for the flagged devices in scope, each with the number of its injection, and the
state with the flags taken. -/
def injectDiscovery : List DiscoveryTarget → DiscoveryState → List (JobJson × ℕ) × DiscoveryState
  | [], s => ([], s)
  | d :: targets, s =>
    if d.deviceId ∈ s.flags then
      let r := injectDiscovery targets
        { flags := s.flags.filter (· ≠ d.deviceId)
          injected := s.injected ++ [(discoveryJob d).jobId] }
      ((discoveryJob d, s.injected.length) :: r.1, r.2)
    else injectDiscovery targets s

theorem injectDiscovery_prefix (targets : List DiscoveryTarget) (s : DiscoveryState) :
    s.injected <+: (injectDiscovery targets s).2.injected := by
  induction targets generalizing s with
  | nil => exact List.prefix_refl _
  | cons d targets ih =>
    rw [injectDiscovery]
    split
    · refine List.IsPrefix.trans ?_ (ih _)
      exact List.prefix_append ..
    · exact ih s

theorem injectDiscovery_spec (targets : List DiscoveryTarget) (s : DiscoveryState) :
    ∀ j ∈ (injectDiscovery targets s).1, j.1.interval = 0 ∧
      (injectDiscovery targets s).2.injected[j.2]? = some j.1.jobId := by
  induction targets generalizing s with
  | nil => simp [injectDiscovery]
  | cons d targets ih =>
    rw [injectDiscovery]
    split
    · intro j hj
      rcases List.mem_cons.1 hj with rfl | hj
      · refine ⟨rfl, ?_⟩
        obtain ⟨rest, hrest⟩ := injectDiscovery_prefix targets
          { flags := s.flags.filter (· ≠ d.deviceId)
            injected := s.injected ++ [(discoveryJob d).jobId] }
        dsimp only at hrest ⊢
        rw [← hrest]
        simp
      · exact ih _ j hj
    · exact ih s

end MonCTL.CollectorApi
