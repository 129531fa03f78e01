import MiniCoder.Agents.Consistency
import MiniCoder.Agents.Provenance
import MiniCoder.Agents.Recorder
import MiniCoder.Agents.Registry
import MiniCoder.Api.Pagination
import MiniCoder.Api.Timeline
import MiniCoder.Auth.MaskedTexts
import MiniCoder.Auth.Noninterference
import MiniCoder.Auth.Redaction
import MiniCoder.Auth.SecretScan
import MiniCoder.Backlog.ParseMarkdown
import MiniCoder.Backlog.RoundTrip
import MiniCoder.Cli.StateRepair
import MiniCoder.Coder.DiffGuard
import MiniCoder.Coder.FixCycle
import MiniCoder.Coder.GuardedWrites
import MiniCoder.Coder.RunCoder
import MiniCoder.Coder.RunIdentity
import MiniCoder.Coder.Sandbox
import MiniCoder.Coder.Workspace
import MiniCoder.Commands.Checks
import MiniCoder.Commands.Executor
import MiniCoder.Commands.FeatureCommand
import MiniCoder.Commands.Handlers.Automation
import MiniCoder.Commands.Handlers.Backlog
import MiniCoder.Commands.Handlers.Clarification
import MiniCoder.Commands.Handlers.CreateProject
import MiniCoder.Commands.Handlers.ExportBacklog
import MiniCoder.Commands.Handlers.ExportDesign
import MiniCoder.Commands.Handlers.Feature
import MiniCoder.Commands.Handlers.Github
import MiniCoder.Commands.Handlers.ImplementationComplete
import MiniCoder.Commands.Handlers.Merge
import MiniCoder.Commands.Handlers.Plan
import MiniCoder.Commands.Handlers.Project
import MiniCoder.Commands.Helpers
import MiniCoder.Commands.Idempotency
import MiniCoder.Commands.RowMove
import MiniCoder.Commands.Total
import MiniCoder.Commands.Transition
import MiniCoder.Cost.Budget
import MiniCoder.Cost.ProjectBudget
import MiniCoder.DesignDoc.Sections
import MiniCoder.Domain.Failure
import MiniCoder.Domain.States
import MiniCoder.Domain.Text
import MiniCoder.Invariants.AuditTrail
import MiniCoder.Invariants.AutomationGate
import MiniCoder.Invariants.BacklogOrder
import MiniCoder.Invariants.BacklogProgress
import MiniCoder.Invariants.BacklogReplay
import MiniCoder.Invariants.BudgetStop
import MiniCoder.Invariants.Clarification
import MiniCoder.Invariants.ClarificationProgress
import MiniCoder.Invariants.CommandAuthority
import MiniCoder.Invariants.Dependencies
import MiniCoder.Invariants.Disagreements
import MiniCoder.Invariants.ExactlyOnce
import MiniCoder.Invariants.FixLoop
import MiniCoder.Invariants.OptimisticConcurrency
import MiniCoder.Invariants.Orphans
import MiniCoder.Invariants.PlanIntegrity
import MiniCoder.Invariants.SingleActiveFeature
import MiniCoder.Invariants.SkipCascade
import MiniCoder.Library.Action
import MiniCoder.Library.Base64
import MiniCoder.Library.Dfs
import MiniCoder.Library.Fencing
import MiniCoder.Library.Git
import MiniCoder.Library.Json
import MiniCoder.Library.JsonCut
import MiniCoder.Library.JsonTexts
import MiniCoder.Library.Keyset
import MiniCoder.Library.LastWrite
import MiniCoder.Library.Lines
import MiniCoder.Library.Paging
import MiniCoder.Library.Paths
import MiniCoder.Library.Regex
import MiniCoder.Library.Run
import MiniCoder.Library.SortWith
import MiniCoder.Library.Table
import MiniCoder.Library.Utf8
import MiniCoder.Library.Versioned
import MiniCoder.Locks.ExecutionLane
import MiniCoder.Locks.Fencing
import MiniCoder.Locks.Manager
import MiniCoder.Merge.Approval
import MiniCoder.Merge.GatedHeads
import MiniCoder.Merge.Idempotent
import MiniCoder.Merge.Machine
import MiniCoder.Merge.Route
import MiniCoder.Merge.Scm
import MiniCoder.Merge.Truthful
import MiniCoder.MergeGate.Approvals
import MiniCoder.MergeGate.Evaluate
import MiniCoder.MergeGate.Soundness
import MiniCoder.Migrations.Reset
import MiniCoder.Migrations.Runner
import MiniCoder.Observability.ExportCursor
import MiniCoder.Observability.OtelExport
import MiniCoder.Persistence.Agents
import MiniCoder.Persistence.Client
import MiniCoder.Persistence.Db
import MiniCoder.Persistence.Design
import MiniCoder.Persistence.Planning
import MiniCoder.Persistence.Transactions
import MiniCoder.Project.Acceptance
import MiniCoder.Project.Doctor
import MiniCoder.Project.Lifecycle
import MiniCoder.Queue.Delivery
import MiniCoder.Queue.InFlight
import MiniCoder.Queue.PollRound
import MiniCoder.Queue.Rows
import MiniCoder.Queue.RunStatus
import MiniCoder.Queue.Selection
import MiniCoder.Queue.Stuck
import MiniCoder.Queue.Tasks
import MiniCoder.Reconcile.Complete
import MiniCoder.Reconcile.Converge
import MiniCoder.Reconcile.Mirror
import MiniCoder.Reconcile.Row
import MiniCoder.Reconcile.Step
import MiniCoder.Reconcile.Truthful
import MiniCoder.Review.SanitizePromptSnapshot
import MiniCoder.Scm.CiSignals
import MiniCoder.Scm.CiStatus
import MiniCoder.Scm.InboxRouting
import MiniCoder.Scm.Pagination
import MiniCoder.Scm.ReviewState
import MiniCoder.StateMachine.FeatureExecution
import MiniCoder.StateMachine.Matrix
import MiniCoder.System
import MiniCoder.Tasks.BudgetPreflight
import MiniCoder.Tasks.Command
import MiniCoder.Tasks.Findings
import MiniCoder.Tasks.RunReview
import MiniCoder.Tasks.StartNextFeature
import MiniCoder.Tasks.TaskResult
import MiniCoder.Tasks.Truthful
import MiniCoder.Library.JsonAccess
