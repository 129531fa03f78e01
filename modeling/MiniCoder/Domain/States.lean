import Mathlib.Data.Nat.Notation

/-!
# Canonical state literals

The enumerations of `domain/states.ts`, as inductive types, with the literal each member has in the
database and in error texts.
-/

namespace MiniCoder

/-- The states of one feature run. -/
inductive FeatureExecutionState
  | approvedPendingExecution
  | selected
  | coding
  | codePushed
  | prOpened
  | ciRunning
  | underReview
  | changesRequested
  | fixing
  | approvedByPolicy
  | mergeReady
  | merged
  | ciFailed
  | mergeFailed
  | humanRequired
  | blocked
  | failed
  | systemFailed
  | skipped
  deriving DecidableEq, Repr

namespace FeatureExecutionState

def literal : FeatureExecutionState → String
  | approvedPendingExecution => "approved_pending_execution"
  | selected => "selected"
  | coding => "coding"
  | codePushed => "code_pushed"
  | prOpened => "pr_opened"
  | ciRunning => "ci_running"
  | underReview => "under_review"
  | changesRequested => "changes_requested"
  | fixing => "fixing"
  | approvedByPolicy => "approved_by_policy"
  | mergeReady => "merge_ready"
  | merged => "merged"
  | ciFailed => "ci_failed"
  | mergeFailed => "merge_failed"
  | humanRequired => "human_required"
  | blocked => "blocked"
  | failed => "failed"
  | systemFailed => "system_failed"
  | skipped => "skipped"

/-- Every state. -/
def all : List FeatureExecutionState := [approvedPendingExecution, selected, coding, codePushed,
  prOpened, ciRunning, underReview, changesRequested, fixing, approvedByPolicy, mergeReady, merged,
  ciFailed, mergeFailed, humanRequired, blocked, failed, systemFailed, skipped]

/-- The state that a literal names. -/
def ofLiteral? (s : String) : Option FeatureExecutionState := all.find? fun state => state.literal == s

@[simp] theorem ofLiteral?_literal (state : FeatureExecutionState) :
    ofLiteral? state.literal = some state := by
  cases state <;> decide +kernel

end FeatureExecutionState

/-- Whether automation may advance, orthogonal to the states of the feature runs. -/
inductive AutomationState
  | running
  | pausedByOperator
  | pausedBudgetExceeded
  | waitingForBudgetApproval
  deriving DecidableEq, Repr

def AutomationState.literal : AutomationState → String
  | running => "running"
  | pausedByOperator => "paused_by_operator"
  | pausedBudgetExceeded => "paused_budget_exceeded"
  | waitingForBudgetApproval => "waiting_for_budget_approval"

inductive UserRole
  | viewer
  | operator
  | approver
  | admin
  deriving DecidableEq, Repr

def UserRole.literal : UserRole → String
  | viewer => "viewer"
  | operator => "operator"
  | approver => "approver"
  | admin => "admin"

inductive ActorKind
  | human
  | system
  deriving DecidableEq, Repr

inductive FindingSeverity
  | blocking
  | nonBlocking
  | question
  | nit
  | outOfScope
  | requiresHumanDecision
  deriving DecidableEq, Repr

inductive BudgetScope
  | project
  | feature
  | reviewCycle
  deriving DecidableEq, Repr

inductive DisagreementState
  | opened
  | resolved
  | escalated
  deriving DecidableEq, Repr

inductive CoderResponseType
  | fixed
  | deferred
  | disputed
  | acknowledged
  deriving DecidableEq, Repr

/-- A human's decision on an approval. -/
inductive ApprovalDecision
  | approved
  | rejected
  | deferred
  deriving DecidableEq, Repr

def ApprovalDecision.literal : ApprovalDecision → String
  | approved => "approved"
  | rejected => "rejected"
  | deferred => "deferred"

/-- The states of an implementation plan. -/
inductive PlanState
  | draft
  | pendingApproval
  | approved
  | activatedForExecution
  deriving DecidableEq, Repr

def PlanState.literal : PlanState → String
  | draft => "draft"
  | pendingApproval => "pending_approval"
  | approved => "approved"
  | activatedForExecution => "activated_for_execution"

/-- The lifecycle of a project. -/
inductive ProjectState
  | active
  | implementationComplete
  | designDocumentGenerating
  | designDocumentReadyForReview
  | designDocumentRevisionRequested
  | designDocumentApproved
  | projectComplete
  deriving DecidableEq, Repr

def ProjectState.literal : ProjectState → String
  | active => "active"
  | implementationComplete => "implementation_complete"
  | designDocumentGenerating => "design_document_generating"
  | designDocumentReadyForReview => "design_document_ready_for_review"
  | designDocumentRevisionRequested => "design_document_revision_requested"
  | designDocumentApproved => "design_document_approved"
  | projectComplete => "project_complete"

inductive PrReviewState
  | none
  | pending
  | commented
  | changesRequested
  | approved
  | dismissed
  deriving DecidableEq, Repr

def PrReviewState.literal : PrReviewState → String
  | none => "none"
  | pending => "pending"
  | commented => "commented"
  | changesRequested => "changes_requested"
  | approved => "approved"
  | dismissed => "dismissed"

inductive ArtifactExportState
  | pending
  | generating
  | exported
  | stale
  | failed
  deriving DecidableEq, Repr

def ArtifactExportState.literal : ArtifactExportState → String
  | pending => "pending"
  | generating => "generating"
  | exported => "exported"
  | stale => "stale"
  | failed => "failed"

inductive AgentRunState
  | queued
  | running
  | succeeded
  | failed
  | cancelled
  deriving DecidableEq, Repr

def AgentRunState.literal : AgentRunState → String
  | queued => "queued"
  | running => "running"
  | succeeded => "succeeded"
  | failed => "failed"
  | cancelled => "cancelled"

/-- `AgentCapabilitySchema`, in its order. -/
inductive AgentCapabilityToken
  | generatePlan
  | generateClarificationQuestions
  | modifyFiles
  | runTests
  | commit
  | pushBranch
  | openPullRequest
  | reviewPullRequest
  | returnStructuredFindings
  | resolveDisagreement
  | generateDesignDocument
  | reportTokenUsage
  | reportCost
  | runAsynchronously
  | reportRunStatus
  deriving DecidableEq, Repr

def AgentCapabilityToken.literal : AgentCapabilityToken → String
  | generatePlan => "can_generate_plan"
  | generateClarificationQuestions => "can_generate_clarification_questions"
  | modifyFiles => "can_modify_files"
  | runTests => "can_run_tests"
  | commit => "can_commit"
  | pushBranch => "can_push_branch"
  | openPullRequest => "can_open_pull_request"
  | reviewPullRequest => "can_review_pull_request"
  | returnStructuredFindings => "can_return_structured_findings"
  | resolveDisagreement => "can_resolve_disagreement"
  | generateDesignDocument => "can_generate_design_document"
  | reportTokenUsage => "can_report_token_usage"
  | reportCost => "can_report_cost"
  | runAsynchronously => "can_run_asynchronously"
  | reportRunStatus => "can_report_run_status"

/-- The values of `design_documents.state`. -/
inductive DesignDocumentState
  | draft
  | readyForReview
  | revisionRequested
  | approved
  deriving DecidableEq, Repr

def DesignDocumentState.literal : DesignDocumentState → String
  | draft => "draft"
  | readyForReview => "ready_for_review"
  | revisionRequested => "revision_requested"
  | approved => "approved"

inductive ClarificationStatus
  | notRequired
  | required
  | inProgress
  | complete
  | blocked
  deriving DecidableEq, Repr

def ClarificationStatus.literal : ClarificationStatus → String
  | notRequired => "clarification_not_required"
  | required => "clarification_required"
  | inProgress => "clarification_in_progress"
  | complete => "clarification_complete"
  | blocked => "clarification_blocked"

inductive FeatureKind
  | feature
  | discovery
  deriving DecidableEq, Repr

inductive GapSeverity
  | blocking
  | nonBlocking
  deriving DecidableEq, Repr

/-- The `test_type` of a test expectation. -/
inductive TestType
  | unit
  | integration
  | system
  deriving DecidableEq, Repr

/-- `ValidateBacklogResultState`. -/
inductive BacklogState
  | valid
  | invalid
  deriving DecidableEq, Repr

def BacklogState.literal : BacklogState → String
  | valid => "valid"
  | invalid => "invalid"

/-- `FIX_ATTEMPT_THRESHOLD` of `domain/constants.ts`: the number of fix attempts a feature run may
use. -/
def fixAttemptThreshold : ℕ := 5

end MiniCoder
