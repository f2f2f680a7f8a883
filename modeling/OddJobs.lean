import OddJobs.Storage.Idempotence
import OddJobs.Storage.WalRestart
import OddJobs.Daemon.Recovery
import OddJobs.Daemon.EventFlow
import OddJobs.Storage.Agreement
import OddJobs.Engine.Executor
import OddJobs.Engine.WriteAhead
import OddJobs.Engine.Runtime
import OddJobs.Engine.StaleReports
import OddJobs.Engine.Account
import OddJobs.Storage.History
import OddJobs.Storage.Decisions
import OddJobs.Storage.References
import OddJobs.Daemon.WorkerSlots
import OddJobs.Daemon.TakenItems
import OddJobs.Daemon.PolledItems
import OddJobs.Daemon.ExternalQueue
import OddJobs.Engine.Cleanup
import OddJobs.Engine.Cancellation
import OddJobs.Engine.CronRuns
import OddJobs.Engine.GraceRuns
import OddJobs.Daemon.DecisionRuns
import OddJobs.Daemon.Pushes
import OddJobs.Daemon.ReleasedItems
import OddJobs.Daemon.ResolvedJobs
import OddJobs.Daemon.ExactIds
import OddJobs.Daemon.Resumptions
import OddJobs.Engine.Resumed
import OddJobs.Daemon.Restarts
import OddJobs.Engine.TimerRuns
import OddJobs.Daemon.Snapshots
import OddJobs.Engine.Durations
import OddJobs.Engine.Causes
import OddJobs.Engine.CooldownRuns
import OddJobs.Storage.WalFlush
import OddJobs.Engine.Spawns
import OddJobs.Runbook.ImportOrder
import OddJobs.Runbook.Conditionals
import OddJobs.Runbook.Aliases
import OddJobs.Shell.Nesting
import OddJobs.Shell.Fields
import OddJobs.Shell.Recovery
import OddJobs.Shell.Escapes
import OddJobs.Shell.Sinks
import OddJobs.Shell.Heredocs
import OddJobs.Shell.Values
import OddJobs.Shell.Outputs
import OddJobs.Engine.TimerIds
import OddJobs.Engine.EscalationSources
import OddJobs.Runbook.Transitions
import OddJobs.Engine.Locals
import OddJobs.Engine.EagerLocals
import OddJobs.Agent.Batches
import OddJobs.Agent.Panics
import OddJobs.Agent.SessionState
import OddJobs.Agent.Usage
import OddJobs.Runbook.Arguments
import OddJobs.Engine.GateErrors
import OddJobs.Engine.EnvFile
import OddJobs.Engine.Timestamps
import OddJobs.Shell.SpanNesting
import OddJobs.Engine.Breaker
import OddJobs.Storage.Compaction
import OddJobs.Storage.Backups
import OddJobs.Shell.Interpolation
import OddJobs.Engine.Scheduler
import OddJobs.Daemon.Wire
