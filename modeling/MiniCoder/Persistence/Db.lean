import Mathlib.Data.Rat.Defs
import MiniCoder.Domain.Failure
import MiniCoder.Library.Table
import MiniCoder.Persistence.Agents
import MiniCoder.Persistence.Design
import MiniCoder.Persistence.Planning

/-!
# The database

One row type for each table the modelled functions read or write, with the unique keys of the
migrations, and `Db`, the tables together.  Times are milliseconds; a column that no modelled
function reads (`created_at`, most `updated_at`, display names) is left out.
-/

open Storage

namespace MiniCoder

/-! ### What a command returns -/

/-- `CommandResult`: what a command returns and what its idempotency row caches. -/
structure CommandResult where
  commandId : String
  accepted : Bool
  resultingState : String
  emittedEventIds : List String
  deriving DecidableEq, Repr

/-- A value of an event payload. -/
inductive Scalar
  | null
  | bool (b : Bool)
  | num (n : ℤ)
  | amount (q : ℚ)
  | str (s : String)
  | strs (l : List String)
  deriving DecidableEq, Repr

/-- The payload of an outbox event, and the body of an HTTP response: a flat JSON record. -/
abbrev Payload := List (String × Scalar)

/-- `RouteResponse` of `route-idempotency.ts`. -/
structure RouteResponse where
  status : ℕ
  body : Payload
  deriving DecidableEq, Repr

/-- The JSON in `idempotency_keys.result`: a command's result or, under a route's scope, the
route's response. -/
inductive CachedResult
  | command (result : CommandResult)
  | route (response : RouteResponse)
  deriving DecidableEq, Repr

/-! ### Rows -/

structure FeatureRequest where
  id : String
  planId : String := ""
  projectId : String
  frId : String := ""
  title : String := ""
  description : String := ""
  kind : FeatureKind := .feature
  executable : Bool := true
  state : FeatureExecutionState := .approvedPendingExecution
  priority : ℤ := 0
  createdAt : ℤ := 0
  deriving DecidableEq, Repr

instance : Row FeatureRequest := .ofKeys (·.id) (fun f => (f.projectId, f.frId))

structure FeatureRun where
  id : String
  featureRequestId : String
  attemptNo : ℕ := 1
  currentExecutionState : FeatureExecutionState
  fixAttemptCount : ℕ := 0
  startedAt : Option ℤ := none
  endedAt : Option ℤ := none
  version : ℕ := 1
  deriving DecidableEq, Repr

instance : Row FeatureRun := .ofKey (·.id)

structure FeatureDependency where
  id : String
  sourceFrId : String
  targetFrId : String
  deriving DecidableEq, Repr

instance : Row FeatureDependency := .ofKeys (·.id) (fun d => (d.sourceFrId, d.targetFrId))

structure WorkflowState where
  id : String
  projectId : String
  activeFeatureRunId : Option String := none
  automationState : AutomationState := .running
  version : ℕ := 1
  deriving DecidableEq, Repr

instance : Row WorkflowState := .ofKeys (·.id) (·.projectId)

structure WorkflowLock where
  id : String
  projectId : String
  resourceKey : String
  holderId : String
  fence : ℕ
  expiresAt : Option ℤ
  version : ℕ := 1
  deriving DecidableEq, Repr

instance : Row WorkflowLock := .ofKeys (·.id) (fun l => (l.projectId, l.resourceKey))

structure IdempotencyKey where
  id : String
  key : String
  scope : String
  result : Option CachedResult := none
  expiresAt : ℤ
  version : ℕ := 1
  deriving DecidableEq, Repr

instance : Row IdempotencyKey := .ofKeys (·.id) (fun k => (k.key, k.scope))

structure WorkflowEvent where
  id : String
  featureRunId : Option String
  projectId : Option String
  eventType : String
  fromState : String
  toState : String
  actor : String
  occurredAt : ℤ
  deriving DecidableEq, Repr

instance : Row WorkflowEvent := .ofKey (·.id)

structure OutboxEvent where
  id : String
  eventType : String
  payload : Payload
  status : String := "pending"
  attempts : ℕ := 0
  version : ℕ := 1
  deriving DecidableEq, Repr

instance : Row OutboxEvent := .ofKey (·.id)

structure InboxEvent where
  id : String
  eventType : String
  status : String := "pending"
  attempts : ℕ := 0
  deriving DecidableEq, Repr

instance : Row InboxEvent := .ofKey (·.id)

structure HumanApproval where
  id : String
  projectId : String
  featureRequestId : Option String := none
  featureRunId : Option String := none
  contextType : String
  contextId : Option String := none
  decision : ApprovalDecision
  actor : String
  actorRole : UserRole
  notes : Option String := none
  updatedAt : ℤ
  deriving DecidableEq, Repr

instance : Row HumanApproval := .ofKey (·.id)

structure PolicyDecision where
  id : String
  projectId : String
  featureRunId : Option String := none
  policyType : String
  decision : String
  context : Option Payload := none
  actor : String
  decidedAt : ℤ
  deriving DecidableEq, Repr

instance : Row PolicyDecision := .ofKey (·.id)

structure ReviewFinding where
  id : String
  featureRunId : String
  reviewerRunId : Option String
  reviewCycle : ℕ
  severity : FindingSeverity
  category : Option String
  description : String
  filePath : Option String := none
  lineStart : Option ℕ := none
  lineEnd : Option ℕ := none
  resolved : Bool := false
  resolvedByRunId : Option String := none
  version : ℕ := 1
  deriving DecidableEq, Repr

instance : Row ReviewFinding := .ofKey (·.id)

structure CoderResponse where
  id : String
  findingId : String
  coderRunId : String
  responseType : CoderResponseType
  notes : Option String
  deriving DecidableEq, Repr

instance : Row CoderResponse := .ofKey (·.id)

structure DisagreementRecord where
  id : String
  featureRunId : String
  findingId : Option String := none
  reviewCycle : ℕ
  state : DisagreementState := .opened
  arbiterRunId : Option String := none
  resolution : Option String := none
  version : ℕ := 1
  deriving DecidableEq, Repr

instance : Row DisagreementRecord := .ofKey (·.id)

structure PullRequest where
  id : String
  featureRunId : String
  prNumber : ℕ
  branchName : String
  baseBranch : String
  headSha : Option String
  state : String := "open"
  reviewState : String := "none"
  ciStatus : String := "pending"
  mergeable : Option Bool := none
  blockingLabels : List String := []
  conversationsResolved : Bool := false
  mergedAt : Option ℤ := none
  mergeSha : Option String := none
  closedAt : Option ℤ := none
  version : ℕ := 1
  deriving DecidableEq, Repr

instance : Row PullRequest := .ofKeys (·.id) (·.featureRunId)

structure MergeGateEvaluation where
  id : String
  featureRunId : String
  ciStatus : Option String
  reviewStatus : Option String
  unresolvedBlockingFindings : ℕ
  budgetStatus : String
  humanApprovalRequired : Bool
  humanApprovalId : Option String
  branchProtectionOk : Bool
  finalDecision : String
  evaluatedAt : ℤ
  deriving DecidableEq, Repr

instance : Row MergeGateEvaluation := .ofKey (·.id)

structure ReviewOccurrenceMarker where
  id : String
  featureRunId : String
  headSha : String
  reviewCycle : ℕ
  outcome : String
  deriving DecidableEq, Repr

instance : Row ReviewOccurrenceMarker := .ofKeys (·.id) (fun m => (m.featureRunId, m.headSha))

structure Repository where
  id : String
  projectId : String
  owner : String
  name : String
  defaultBranch : String := "main"
  provider : String := "github"
  baseUrl : Option String := none
  deriving DecidableEq, Repr

instance : Row Repository := .ofKey (·.id)

structure BudgetPolicy where
  id : String
  projectId : String
  scope : BudgetScope
  featureRequestId : Option String
  currency : String := "USD"
  softLimit : Option ℚ
  hardLimit : Option ℚ
  windowDays : Option ℤ
  isActive : Bool
  updatedAt : ℤ
  deriving DecidableEq, Repr

instance : Row BudgetPolicy := .ofKey (·.id)

structure CostRecord where
  id : String
  projectId : String
  featureRequestId : Option String
  scope : BudgetScope
  amount : ℚ
  recordedAt : ℤ
  featureRunId : Option String := none
  agentRunId : Option String := none
  provider : Option String := none
  model : Option String := none
  inputTokens : Option ℕ := none
  outputTokens : Option ℕ := none
  deriving DecidableEq, Repr

instance : Row CostRecord := .ofKey (·.id)

/-! ### The tables -/

/-- The database. -/
structure Db where
  featureRequests : Table FeatureRequest := .empty
  featureRuns : Table FeatureRun := .empty
  featureDependencies : Table FeatureDependency := .empty
  workflowStates : Table WorkflowState := .empty
  workflowLocks : Table WorkflowLock := .empty
  idempotencyKeys : Table IdempotencyKey := .empty
  workflowEvents : Table WorkflowEvent := .empty
  outboxEvents : Table OutboxEvent := .empty
  inboxEvents : Table InboxEvent := .empty
  humanApprovals : Table HumanApproval := .empty
  reviewFindings : Table ReviewFinding := .empty
  coderResponses : Table CoderResponse := .empty
  disagreementRecords : Table DisagreementRecord := .empty
  pullRequests : Table PullRequest := .empty
  mergeGateEvaluations : Table MergeGateEvaluation := .empty
  reviewOccurrenceMarkers : Table ReviewOccurrenceMarker := .empty
  repositories : Table Repository := .empty
  budgetPolicies : Table BudgetPolicy := .empty
  costRecords : Table CostRecord := .empty
  policyDecisions : Table PolicyDecision := .empty
  planning : PlanningTables := {}
  clarification : ClarificationTables := {}
  design : DesignTables := {}
  agents : AgentTables := {}

namespace Db

/-- `SELECT … FROM feature_runs fr JOIN feature_requests freq … WHERE fr.id = ? AND
freq.project_id = ?`: the run, when its feature request belongs to the project. -/
def findFeatureRun (db : Db) (featureRunId projectId : String) : Option FeatureRun :=
  db.featureRuns.find? fun fr => fr.id == featureRunId &&
    (db.featureRequests.find? fun freq =>
      freq.id == fr.featureRequestId && freq.projectId == projectId).isSome

/-- `SELECT … FROM feature_runs WHERE id = ?`. -/
def runById (db : Db) (featureRunId : String) : Option FeatureRun :=
  db.featureRuns.find? fun run => run.id == featureRunId

/-- The project of a feature run, through its feature request. -/
def InProject (db : Db) (run : FeatureRun) (projectId : String) : Prop :=
  ∃ freq ∈ db.featureRequests.rows, freq.id = run.featureRequestId ∧ freq.projectId = projectId

/-- The state of a run. -/
def stateOf (db : Db) (featureRunId : String) : Option FeatureExecutionState :=
  (db.runById featureRunId).map (·.currentExecutionState)

/-- `SELECT … FROM workflow_states WHERE project_id = ?`. -/
def findWorkflowState (db : Db) (projectId : String) : Option WorkflowState :=
  db.workflowStates.find? fun ws => ws.projectId == projectId

/-- `SELECT … FROM pull_requests WHERE feature_run_id = ?`. -/
def findPullRequest (db : Db) (featureRunId : String) : Option PullRequest :=
  db.pullRequests.find? fun pr => pr.featureRunId == featureRunId

theorem runById_eq {db : Db} {run : FeatureRun} (h : run ∈ db.featureRuns.rows) :
    db.runById run.id = some run :=
  db.featureRuns.find?_eq_some h (beq_iff_eq.mpr rfl) fun _ hid =>
    decide_eq_true (beq_iff_eq.mp hid).symm

theorem stateOf_some {db : Db} {featureRunId : String} {state : FeatureExecutionState} :
    db.stateOf featureRunId = some state ↔
      ∃ run ∈ db.featureRuns.rows, run.id = featureRunId ∧ run.currentExecutionState = state := by
  constructor
  · intro h
    obtain ⟨run, hrun, hstate⟩ := Option.map_eq_some_iff.mp h
    have hid : (run.id == featureRunId) = true := db.featureRuns.prop_of_find? hrun
    exact ⟨run, db.featureRuns.mem_of_find? hrun, beq_iff_eq.mp hid, hstate⟩
  · rintro ⟨run, hrun, rfl, rfl⟩
    rw [stateOf, runById_eq hrun]
    rfl

theorem stateOf_of_eq {db db' : Db} (h : db'.featureRuns = db.featureRuns)
    (featureRunId : String) : db'.stateOf featureRunId = db.stateOf featureRunId := by
  unfold stateOf runById
  rw [h]

section PullRequests

variable {db : Db} {featureRunId : String}

/-- There is one row for a run. -/
theorem findPullRequest_of_mem {pr : PullRequest} (hpr : pr ∈ db.pullRequests.rows)
    (hrun : pr.featureRunId = featureRunId) : db.findPullRequest featureRunId = some pr := by
  refine db.pullRequests.find?_eq_some hpr (beq_iff_eq.mpr hrun) fun pr' hpr' => ?_
  have hsame : pr'.featureRunId = featureRunId := beq_iff_eq.mp hpr'
  exact decide_eq_true (Or.inr (hrun.trans hsame.symm))

theorem findPullRequest_some {pr : PullRequest} (h : db.findPullRequest featureRunId = some pr) :
    pr ∈ db.pullRequests.rows ∧ pr.featureRunId = featureRunId :=
  ⟨db.pullRequests.mem_of_find? h, beq_iff_eq.mp (db.pullRequests.prop_of_find? h)⟩

/-- **An update of the row of the run.** -/
theorem findPullRequest_of_update {db' : Db} {f : PullRequest → PullRequest} (hf : KeyFree f)
    (h : db'.pullRequests =
      db.pullRequests.update (fun pr => pr.featureRunId == featureRunId) f hf)
    (hrun : ∀ pr, (f pr).featureRunId = pr.featureRunId) :
    db'.findPullRequest featureRunId = (db.findPullRequest featureRunId).map f := by
  have hfind : (db.pullRequests.update (fun pr => pr.featureRunId == featureRunId) f hf).find?
      (fun pr => pr.featureRunId == featureRunId) = (db.findPullRequest featureRunId).map
        (Table.updateRow (fun pr => pr.featureRunId == featureRunId) f) :=
    Table.find?_update fun pr => by rw [hrun pr]
  rw [findPullRequest, h]
  refine hfind.trans (Option.map_congr fun pr hpr => ?_)
  exact Table.updateRow_of_pos (beq_iff_eq.mpr (findPullRequest_some hpr).2)

end PullRequests

theorem findFeatureRun_some {db : Db} {featureRunId projectId : String} {run : FeatureRun}
    (h : db.findFeatureRun featureRunId projectId = some run) :
    run ∈ db.featureRuns.rows ∧ run.id = featureRunId ∧ db.InProject run projectId := by
  have hmem := db.featureRuns.mem_of_find? h
  have hp := db.featureRuns.prop_of_find? h
  rw [Bool.and_eq_true, beq_iff_eq] at hp
  obtain ⟨freq, hfreq⟩ := Option.isSome_iff_exists.mp hp.2
  have hends := db.featureRequests.prop_of_find? hfreq
  rw [Bool.and_eq_true, beq_iff_eq, beq_iff_eq] at hends
  exact ⟨hmem, hp.1, freq, db.featureRequests.mem_of_find? hfreq, hends⟩

/-- A feature request belongs to one project. -/
theorem InProject.unique {db : Db} {run : FeatureRun} {p q : String} (hp : db.InProject run p)
    (hq : db.InProject run q) : p = q := by
  obtain ⟨freq, hfreq, hid, rfl⟩ := hp
  obtain ⟨freq', hfreq', hid', rfl⟩ := hq
  have hsame : freq = freq' :=
    db.featureRequests.eq_of_clash hfreq hfreq' (decide_eq_true (Or.inl (hid.trans hid'.symm)))
  rw [hsame]

/-- A run of the project is the one that a search for its id finds. -/
theorem findFeatureRun_eq {db : Db} {projectId : String} {run : FeatureRun}
    (hrun : run ∈ db.featureRuns.rows) (hproject : db.InProject run projectId) :
    db.findFeatureRun run.id projectId = some run := by
  obtain ⟨freq, hfreq, hid, hof⟩ := hproject
  refine db.featureRuns.find?_eq_some hrun ?_ fun run' hp => ?_
  · have hfound : (db.featureRequests.find? fun freq =>
        freq.id == run.featureRequestId && freq.projectId == projectId).isSome = true := by
      refine List.find?_isSome.mpr ⟨freq, hfreq, ?_⟩
      rw [hid, hof]
      simp
    rw [hfound]
    simp
  · rw [Bool.and_eq_true, beq_iff_eq] at hp
    exact decide_eq_true hp.1.symm

theorem findWorkflowState_some {db : Db} {projectId : String} {ws : WorkflowState}
    (h : db.findWorkflowState projectId = some ws) :
    ws ∈ db.workflowStates.rows ∧ ws.projectId = projectId :=
  ⟨db.workflowStates.mem_of_find? h, beq_iff_eq.mp (db.workflowStates.prop_of_find? h)⟩

end Db

end MiniCoder
