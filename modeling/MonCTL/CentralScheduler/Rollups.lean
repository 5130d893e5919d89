import MonCTL.Lib.GroupBy
import MonCTL.Basic

/-!
# Hourly and Daily Rollups

Raw samples are aggregated into hourly rows, and these into daily rows. There are three such
chains: for interfaces, for performance metrics and for availability. The 95th percentiles,
which ClickHouse estimates, and the columns taken from any row of a group are left out; rates
are rational numbers.
-/

namespace MonCTL.CentralScheduler

/-! ### Times -/

def hourLength : ℤ := 3600 * 1000000

def dayLength : ℤ := 24 * hourLength

/-- `toStartOfHour`. -/
def toStartOfHour (t : ℤ) : ℤ := t / hourLength * hourLength

/-- `toStartOfDay`. -/
def toStartOfDay (t : ℤ) : ℤ := t / dayLength * dayLength

/-! ### Columns -/

/-- `min`, `max` and `avg` of a column. -/
structure Summary where
  min : ℚ
  max : ℚ
  avg : ℚ
  deriving DecidableEq

/-- `max` and `avg` of a column. -/
structure Peak where
  max : ℚ
  avg : ℚ

/-- `min(x)`, `max(x)`, `avg(x)`. -/
def summarize (values : List ℚ) : Summary := ⟨minOf values, maxOf values, avgOf values⟩

/-- `max(x)`, `avg(x)`. -/
def peak (values : List ℚ) : Peak := ⟨maxOf values, avgOf values⟩

/-- `toUInt16`. -/
def toUInt16 (n : ℕ) : ℕ := n % 2 ^ 16

/-- `sum` of a column of 64 bits. -/
def sumUInt64 (values : List ℕ) : ℕ := values.sum % 2 ^ 64

/-! ### A rollup -/

section Rollup

variable {α R K : Type} [DecidableEq K]

end Rollup

/-! ### Interfaces -/

/-- `device_id`, `interface_id`. -/
structure InterfaceKey where
  deviceId : Uuid
  interfaceId : Uuid
  deriving DecidableEq

/-- A row of `interface`. -/
structure InterfaceSample where
  key : InterfaceKey
  executedAt : Timestamp
  inRateBps : ℚ
  outRateBps : ℚ
  inUtilizationPct : ℚ
  outUtilizationPct : ℚ
  inOctets : UInt64
  outOctets : UInt64
  inErrors : UInt64
  outErrors : UInt64
  inDiscards : UInt64
  outDiscards : UInt64
  ifOperStatus : String
  ifSpeedMbps : ℕ
  counterBits : ℕ

/-- A row of `interface_hourly` or `interface_daily`. -/
structure InterfaceRow where
  key : InterfaceKey
  time : Timestamp
  inRate : Summary
  outRate : Summary
  inUtilization : Peak
  outUtilization : Peak
  inOctetsTotal : ℕ
  outOctetsTotal : ℕ
  inErrorsTotal : ℕ
  outErrorsTotal : ℕ
  inDiscardsTotal : ℕ
  outDiscardsTotal : ℕ
  availabilityPct : ℚ
  sampleCount : ℕ
  ifSpeedMbps : ℕ
  counterBits : ℕ

/-- `if(max(x) > min(x), max(x) - min(x), 0)`. -/
def counterTotal (counter : InterfaceSample → UInt64) (samples : List InterfaceSample) : ℕ :=
  spanOf (samples.map fun s => (counter s).toNat)

/-- The columns of `_hourly_rollup`. -/
def interfaceRow (key : InterfaceKey) (time : Timestamp) (samples : List InterfaceSample) :
    InterfaceRow where
  key
  time
  inRate := summarize (samples.map InterfaceSample.inRateBps)
  outRate := summarize (samples.map InterfaceSample.outRateBps)
  inUtilization := peak (samples.map InterfaceSample.inUtilizationPct)
  outUtilization := peak (samples.map InterfaceSample.outUtilizationPct)
  inOctetsTotal := counterTotal InterfaceSample.inOctets samples
  outOctetsTotal := counterTotal InterfaceSample.outOctets samples
  inErrorsTotal := counterTotal InterfaceSample.inErrors samples
  outErrorsTotal := counterTotal InterfaceSample.outErrors samples
  inDiscardsTotal := counterTotal InterfaceSample.inDiscards samples
  outDiscardsTotal := counterTotal InterfaceSample.outDiscards samples
  availabilityPct := (samples.countP fun s => s.ifOperStatus = "up") / samples.length * 100
  sampleCount := toUInt16 samples.length
  ifSpeedMbps := maxOf (samples.map InterfaceSample.ifSpeedMbps)
  counterBits := maxOf (samples.map InterfaceSample.counterBits)

variable (now : Timestamp)

/-- A row of `performance`; a row has a value for each name. -/
structure PerformanceRow where
  deviceId : Uuid
  appId : Uuid
  componentType : String
  component : String
  executedAt : Timestamp
  metricNames : List String
  metricValues : List ℚ
  metricTypes : List String
  length_values : metricValues.length = metricNames.length := by decide

/-- What the rollups of metrics group by. -/
structure MetricKey where
  deviceId : Uuid
  appId : Uuid
  componentType : String
  component : String
  metricName : String
  metricType : String
  deriving DecidableEq

/-- A metric of a row: a row of the subquery of `_perf_hourly_rollup`. -/
structure MetricSample where
  key : MetricKey
  executedAt : Timestamp
  value : ℚ

/-- `arrayResize`. -/
def arrayResize (l : List String) (n : ℕ) (fill : String) : List String :=
  (l ++ List.replicate n fill).take n

/-- `ARRAY JOIN metric_names, metric_values` and the types, resized. -/
def PerformanceRow.samples (r : PerformanceRow) : List MetricSample :=
  (r.metricNames.zip (r.metricValues.zip
    (arrayResize r.metricTypes r.metricNames.length "gauge"))).map fun m =>
      { key := ⟨r.deviceId, r.appId, r.componentType, r.component, m.1, m.2.2⟩
        executedAt := r.executedAt
        value := m.2.1 }

/-- A row of `performance_hourly` or `performance_daily`. -/
structure MetricRow where
  key : MetricKey
  time : Timestamp
  val : Summary
  sampleCount : ℕ

/-- `device_id`, `assignment_id`, `app_id`. -/
structure AvailabilityKey where
  deviceId : Uuid
  assignmentId : Uuid
  appId : Uuid
  deriving DecidableEq

/-- A row of `availability_latency`. -/
structure AvailabilitySample where
  key : AvailabilityKey
  executedAt : Timestamp
  rttMs : ℚ
  responseTimeMs : ℚ
  reachable : ℕ

/-- A row of `availability_latency_hourly` or `availability_latency_daily`. -/
structure AvailabilityRow where
  key : AvailabilityKey
  time : Timestamp
  rtt : Summary
  responseTime : Summary
  availabilityPct : ℚ
  sampleCount : ℕ
  deriving DecidableEq

end MonCTL.CentralScheduler
