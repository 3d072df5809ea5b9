import ServiceHost.Json.Reader
import ServiceHost.Lifecycle.History
import ServiceHost.Lifecycle.Session
import ServiceHost.Metrics.Bench
import ServiceHost.Profiling.Pages
import ServiceHost.Rpc.Counting
import ServiceHost.Rpc.Tracing
import ServiceHost.ScopeLog
import ServiceHost.Server.Assembly
import ServiceHost.Settings.Environment
import ServiceHost.Settings.File
import ServiceHost.Settings.Writing
import ServiceHost.Proofs.Lifecycle.Course
import ServiceHost.Proofs.Lifecycle.Visits
import ServiceHost.Proofs.Lifecycle.Endings
import ServiceHost.Proofs.Lifecycle.Passage
import ServiceHost.Proofs.Lifecycle.Preparation
import ServiceHost.Proofs.Lifecycle.Order
import ServiceHost.Proofs.Lifecycle.Reports
import ServiceHost.Proofs.Lifecycle.Trigger
import ServiceHost.Proofs.Lifecycle.Result
import ServiceHost.Proofs.Lifecycle.Cause
import ServiceHost.Proofs.Lifecycle.Moves
import ServiceHost.Proofs.Lifecycle.Roster
import ServiceHost.Proofs.Lifecycle.Conservation
import ServiceHost.Proofs.Lifecycle.Onset
import ServiceHost.Proofs.Lifecycle.Turns
import ServiceHost.Proofs.Lifecycle.Budget
import ServiceHost.Proofs.Lifecycle.Drain
import ServiceHost.Proofs.Lifecycle.Panic
import ServiceHost.Proofs.Server.CloseTimeout
import ServiceHost.Proofs.Lifecycle.Sharing
import ServiceHost.Proofs.Lifecycle.Choice
import ServiceHost.Proofs.Lifecycle.Widening
import ServiceHost.Proofs.Lifecycle.Lockstep
import ServiceHost.Proofs.Lifecycle.UsualChoice
import ServiceHost.Proofs.Lifecycle.Inert
import ServiceHost.Proofs.Scope.Cancellation
import ServiceHost.Proofs.Listener.AfterStop
import ServiceHost.Proofs.Server.ShutdownBudget
import ServiceHost.Proofs.Lifecycle.Undoing
import ServiceHost.Proofs.Metrics.Registration
import ServiceHost.Proofs.Server.Restoration
import ServiceHost.Proofs.Metrics.Atomicity
import ServiceHost.Proofs.Metrics.Samples
import ServiceHost.Proofs.Rpc.Counting
import ServiceHost.Proofs.Server.FailedStart
import ServiceHost.Proofs.Server.Estate
import ServiceHost.Proofs.Server.Ownership
import ServiceHost.Proofs.Gateway.CrossOrigin
import ServiceHost.Proofs.Settings.Sources
import ServiceHost.Proofs.Scope.Completion
import ServiceHost.Proofs.Server.Unserved
import ServiceHost.Proofs.Server.Building
import ServiceHost.Proofs.Telemetry.Life
import ServiceHost.Proofs.Rpc.Status
import ServiceHost.Proofs.Rpc.Chain
import ServiceHost.Proofs.Gateway.Undisturbed
import ServiceHost.Proofs.Telemetry.LogFile
import ServiceHost.Proofs.Telemetry.Url
import ServiceHost.Proofs.Telemetry.HeaderList
import ServiceHost.Proofs.Settings.Environment
import ServiceHost.Proofs.Address
import ServiceHost.Proofs.Json.Layout
import ServiceHost.Proofs.Json.Nulls
import ServiceHost.Proofs.Banner
import ServiceHost.Proofs.Metrics.Paths
import ServiceHost.Proofs.Metrics.Commuting
