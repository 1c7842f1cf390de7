import Qualigence.Foundation.Table
import Qualigence.Foundation.Program
import Qualigence.Protocol.Value
import Qualigence.Protocol.Instant
import Qualigence.Protocol.AppTarget
import Qualigence.Protocol.Job
import Qualigence.Protocol.Messages
import Qualigence.Lease.Store
import Qualigence.Lease.Lifecycle
import Qualigence.Lease.Invariant
import Qualigence.Trace.Store
import Qualigence.Core.Ownership
import Qualigence.Core.Recovery
import Qualigence.Core.Sessions
import Qualigence.Core.Application
import Qualigence.Core.Offers
import Qualigence.Grpc.Frames
import Qualigence.Trace.Steps
import Qualigence.Core.Isolation
import Qualigence.Core.Findings
import Qualigence.Runner.Spool
import Qualigence.Runner.Delivery
import Qualigence.Core.LiveSessions
import Qualigence.Grpc.Handshake
import Qualigence.Evidence.ArtifactUpload
import Qualigence.Evidence.ArtifactCorrect
import Qualigence.Core.ResumeChains
import Qualigence.Grpc.JobWire
import Qualigence.Protocol.ReadBack
import Qualigence.Grpc.JobRoundTrip
import Qualigence.Runner.Runtime
import Qualigence.Foundation.Pattern
import Qualigence.Mission.Plan
import Qualigence.Mission.Intake
import Qualigence.Mission.Store
import Qualigence.Mission.World
import Qualigence.Mission.Checks
import Qualigence.Mission.Scheduled
import Qualigence.Mission.Compatibility
import Qualigence.Runner.PolicyGate
import Qualigence.Mission.Authority
import Qualigence.Mission.Starts
import Qualigence.Mission.ExactlyOnce
import Qualigence.Dispatch.Loop
import Qualigence.Core.Grants
import Qualigence.Dispatch.World
import Qualigence.Dispatch.Moves
import Qualigence.Dispatch.Outbox
import Qualigence.Dispatch.Accepted
import Qualigence.Foundation.Linear
import Qualigence.RunnerIdentity.Service
import Qualigence.RunnerIdentity.Exchange
import Qualigence.RunnerIdentity.Revocation
import Qualigence.Evidence.CapsuleStore
import Qualigence.Evidence.CapsuleOrder
import Qualigence.Evidence.Lifecycle
import Qualigence.Evidence.LifecycleOrder
import Qualigence.Desktop.Permit
import Qualigence.Desktop.PermitUse
import Qualigence.Desktop.Digest
import Qualigence.Desktop.Daemon
import Qualigence.Desktop.Expiry
import Qualigence.Kms.KeyStore
import Qualigence.Kms.Provider
import Qualigence.Kms.Isolation
import Qualigence.Kms.Permanence
import Qualigence.Evidence.Envelope
import Qualigence.Evidence.Binding
import Qualigence.Investigation.Budget
import Qualigence.Investigation.Case
import Qualigence.Investigation.Overrun
import Qualigence.Protocol.JsonData
import Qualigence.Skill.Bundle
import Qualigence.Foundation.Session
import Qualigence.Skill.Signing
import Qualigence.Skill.Store
import Qualigence.Skill.Lifecycle
import Qualigence.Skill.Interleaved
import Qualigence.Foundation.Locking
import Qualigence.Skill.Postgres
import Qualigence.Skill.Prepared
import Qualigence.Skill.Reachable
import Qualigence.Skill.Views
import Qualigence.Foundation.Ledger
import Qualigence.Sqlite.BenchmarkStore
import Qualigence.Desktop.Execution
import Qualigence.Desktop.Outcome
import Qualigence.Desktop.Certificate
import Qualigence.Desktop.Challenges
import Qualigence.Desktop.ChallengeUse
import Qualigence.Review.Task
import Qualigence.Sqlite.ReviewStore
import Qualigence.Sqlite.ReviewQueue
import Qualigence.Benchmark.Manifest
import Qualigence.Benchmark.Scorer
import Qualigence.Benchmark.Laws
import Qualigence.Benchmark.Keys
import Qualigence.Foundation.Interference
import Qualigence.Sqlite.IntakeStore
import Qualigence.Sqlite.IntakeStates
import Qualigence.Sqlite.IntakeRuns
import Qualigence.Local.Coordinator
import Qualigence.Local.Reconcile
import Qualigence.Local.Completions
import Qualigence.Migration.LedgerLock
import Qualigence.Migration.LockSafety
import Qualigence.Protocol.TornText
import Qualigence.Migration.LedgerFile
import Qualigence.Migration.LedgerDurability
import Qualigence.Foundation.Calls
import Qualigence.Kernel.Execution
import Qualigence.Kernel.Conversation
import Qualigence.Kernel.Runs
import Qualigence.Kernel.Laws
import Qualigence.Launcher.Supervisor
import Qualigence.Launcher.LockCoverage
import Qualigence.Runner.LeaseWindow
import Qualigence.Runner.LeaseSafety
import Qualigence.Launcher.StopHonoured
import Qualigence.Runner.ArtifactPump
import Qualigence.Runner.ArtifactSafety
import Qualigence.Runner.ArtifactProgress
import Qualigence.Foundation.Careful
import Qualigence.Runner.Replay
import Qualigence.Runner.Serving
import Qualigence.Runner.CompletionOrder
import Qualigence.Desktop.Approval
import Qualigence.Evidence.Auditing
import Qualigence.Investigation.Rejection
import Qualigence.Skill.Verifier
import Qualigence.Evidence.AuditTrail
import Qualigence.Gateway.Accounting
import Qualigence.Protocol.PayloadHash
import Qualigence.Skill.Replay
import Qualigence.Skill.ReplayDiscipline
import Qualigence.Exploration.Fingerprint
import Qualigence.Exploration.FingerprintInvariance
import Qualigence.Desktop.CompanionIpc
import Qualigence.Desktop.PipeClient
import Qualigence.Foundation.Framing
import Qualigence.Desktop.PipeChunks
import Qualigence.Desktop.PipeOutcome
import Qualigence.Runner.WindowReadings
import Qualigence.Migration.PreV1Projector
import Qualigence.Mission.Revalidation
import Qualigence.Protocol.JsonGrammar
import Qualigence.Runner.ActionValueWhitespace
import Qualigence.Foundation.Optimistic
import Qualigence.Intelligence.Applier
import Qualigence.Investigation.Coordinator
import Qualigence.Investigation.CoordinatorSafety
import Qualigence.Investigation.Sessions
