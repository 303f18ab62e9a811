import WppGateway.InFlight
import WppGateway.InstanceEvents
import WppGateway.Sessions
import WppGateway.Reports
import WppGateway.CancelRegistry
import WppGateway.MessageText
import WppGateway.Store
import WppGateway.Selection
import WppGateway.MessageFates
import WppGateway.RotationFairness
import WppGateway.Provenance
import WppGateway.Pacing
import WppGateway.KeyDirectory
import WppGateway.Delivery
import WppGateway.TenantIsolation
import WppGateway.WorkerRegistry
import WppGateway.StatusHistory
import WppGateway.Completion
import WppGateway.Progress
import WppGateway.GroupPause
import WppGateway.Budgets
import WppGateway.Dashboard
import WppGateway.SendPaths
import WppGateway.Failover
import WppGateway.StrategyCache
import WppGateway.OptOut
import WppGateway.Quotas
import WppGateway.Clients
import WppGateway.ForeignResources
import WppGateway.Cascade
import WppGateway.Backing
import WppGateway.HealthRace
import WppGateway.Webhooks
import WppGateway.Substitution
import WppGateway.Uninterrupted
import WppGateway.Templates
import WppGateway.SpintaxValues
import WppGateway.FailedConnect
import WppGateway.HealthCheck
import WppGateway.ActiveInstance
import WppGateway.Capacity
import WppGateway.RefusedCreate
import WppGateway.MessageOutcome
import WppGateway.LogBuffer
import WppGateway.Flapping
import WppGateway.SpintaxSettled
import WppGateway.RedisBudget
import WppGateway.SendingHours
import WppGateway.GroupSummary
import WppGateway.Warmup
import WppGateway.GroupSplitting
import WppGateway.RepoQueries
import WppGateway.Schedules
