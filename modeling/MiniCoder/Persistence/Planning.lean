import Mathlib.Data.Int.Notation
import MiniCoder.Domain.States
import MiniCoder.Library.Table

/-!
# The tables of planning and clarification

The rows of an implementation plan and its readiness assessment, of a backlog's acceptance criteria
and test expectations, and of the clarification sessions, with the unique keys of the migrations.
-/

open Storage

namespace MiniCoder

/-! ### Plans and backlogs -/

structure ImplementationPlan where
  id : String
  projectId : String
  assessmentId : Option String := none
  state : PlanState := .draft
  backlogVersion : ℕ := 0
  backlogValidatedAt : Option ℤ := none
  backlogValidatedState : Option BacklogState := none
  backlogValidatedVersion : Option ℕ := none
  version : ℕ := 1
  deriving DecidableEq, Repr

instance : Row ImplementationPlan := .ofKey (·.id)

structure PlanningReadinessAssessment where
  id : String
  projectId : String
  deriving DecidableEq, Repr

instance : Row PlanningReadinessAssessment := .ofKey (·.id)

structure PlanningGap where
  id : String
  assessmentId : String
  severity : GapSeverity
  resolvedAt : Option ℤ := none
  deriving DecidableEq, Repr

instance : Row PlanningGap := .ofKey (·.id)

structure PlanningQuestion where
  id : String
  assessmentId : String
  question : String
  answer : Option String := none
  round : ℕ := 1
  deriving DecidableEq, Repr

instance : Row PlanningQuestion := .ofKey (·.id)

structure AcceptanceCriterion where
  id : String
  featureRequestId : String
  description : String
  orderIndex : ℕ := 0
  deriving DecidableEq, Repr

instance : Row AcceptanceCriterion := .ofKey (·.id)

structure TestExpectation where
  id : String
  featureRequestId : String
  description : String
  testType : Option TestType := none
  orderIndex : ℕ := 0
  deriving DecidableEq, Repr

instance : Row TestExpectation := .ofKey (·.id)

/-- A row of `human_approvals` whose decision is `NULL`: the approval of a plan names no decision, and
no feature run. -/
structure PlanApproval where
  id : String
  projectId : String
  contextType : String
  contextId : String
  actor : String
  actorRole : UserRole
  deriving DecidableEq, Repr

instance : Row PlanApproval := .ofKey (·.id)

/-- The tables of planning. -/
structure PlanningTables where
  implementationPlans : Table ImplementationPlan := .empty
  assessments : Table PlanningReadinessAssessment := .empty
  gaps : Table PlanningGap := .empty
  questions : Table PlanningQuestion := .empty
  acceptanceCriteria : Table AcceptanceCriterion := .empty
  testExpectations : Table TestExpectation := .empty
  approvals : Table PlanApproval := .empty

/-! ### Clarification -/

structure ClarificationSession where
  id : String
  projectId : String
  status : ClarificationStatus := .notRequired
  round : ℕ := 0
  maxRounds : ℕ := 3
  roundTimeoutAt : Option ℤ := none
  version : ℕ := 1
  deriving DecidableEq, Repr

instance : Row ClarificationSession := .ofKey (·.id)

structure ClarificationQuestion where
  id : String
  clarificationSessionId : String
  question : String
  round : ℕ := 1
  orderIndex : ℕ := 0
  askedAt : Option ℤ := none
  answeredAt : Option ℤ := none
  version : ℕ := 1
  deriving DecidableEq, Repr

instance : Row ClarificationQuestion := .ofKey (·.id)

structure ClarificationAnswer where
  id : String
  clarificationQuestionId : String
  answer : String
  actor : String
  actorRole : UserRole
  answeredAt : ℤ
  deriving DecidableEq, Repr

instance : Row ClarificationAnswer := .ofKeys (·.id) (·.clarificationQuestionId)

structure ClarificationDecision where
  id : String
  clarificationSessionId : String
  decisionType : String
  actor : String
  actorRole : UserRole
  notes : Option String := none
  decidedAt : ℤ
  deriving DecidableEq, Repr

instance : Row ClarificationDecision := .ofKey (·.id)

/-- The tables of clarification. -/
structure ClarificationTables where
  sessions : Table ClarificationSession := .empty
  questions : Table ClarificationQuestion := .empty
  answers : Table ClarificationAnswer := .empty
  decisions : Table ClarificationDecision := .empty

end MiniCoder
