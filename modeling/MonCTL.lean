import MonCTL.Dsl.Faithful
import MonCTL.Dsl.Acceptance
import MonCTL.Alerting.ConfigChanges
import MonCTL.Alerting.ThresholdHierarchy
import MonCTL.Collector.WorkerShares
import MonCTL.Collector.AppManager
import MonCTL.Collector.DeltaSync
import MonCTL.Collector.OneShot
import MonCTL.Delivery.ExactlyOnce
import MonCTL.Incidents.Orphans
import MonCTL.AppCache.PushCycle
import MonCTL.AppCache.Convergence
import MonCTL.Storage.RowConservation
import MonCTL.CentralScheduler.LeaderElection
import MonCTL.CentralScheduler.ConfigDedup
import MonCTL.CentralScheduler.TwoStepRollups
import MonCTL.CentralScheduler.RollupSchedule
import MonCTL.Automations.Cooldown
import MonCTL.Packs.Reconciliation
import MonCTL.Alerting.Coverage
import MonCTL.Alerting.Freshness
import MonCTL.Audit.Records
import MonCTL.Ws.ConnectionManager
import MonCTL.CollectorApi.Confinement
import MonCTL.CollectorApi.DiscoveryFlag
import MonCTL.CollectorApi.Departure
import MonCTL.Audit.Buffer
import MonCTL.Collector.LogShipper
import MonCTL.Upgrades.StepOrder
import MonCTL.Audit.Capture
import MonCTL.Alerting.Isolation
import MonCTL.Apps.Assignments
import MonCTL.Apps.ConnectorSlots
import MonCTL.Packs.StoredTiers
import MonCTL.Packs.Sufficiency
import MonCTL.Installer.CollectorKeys
import MonCTL.Installer.Pointing
import MonCTL.Upgrades.UpdateAgent
import MonCTL.CentralScheduler.HealthAlerts
import MonCTL.Collector.Venvs
import MonCTL.Auth.OAuth
import MonCTL.CollectorApi.RegistrationRuns
import MonCTL.CentralScheduler.Retention
import MonCTL.Ws.CommandRouting
import MonCTL.Alerting.SeveritySelection
import MonCTL.Automations.CronTicks
import MonCTL.Incidents.CumulativeMode
import MonCTL.Incidents.SeverityLadders
import MonCTL.Incidents.Messages
import MonCTL.Alerting.ThresholdAgreement
import MonCTL.Discovery.DeviceTypes
import MonCTL.CentralScheduler.RebalanceWeights
import MonCTL.Templates.Apply
import MonCTL.CollectorApi.JobBindings
import MonCTL.Results.HistoryPages
import MonCTL.Installer.FailStop
import MonCTL.Results.TierSelection
import MonCTL.Results.ConfigHistory
import MonCTL.PythonModules.WheelDirectory
import MonCTL.Dsl.InverseAccepted
