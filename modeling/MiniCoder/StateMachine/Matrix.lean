import MiniCoder.Domain.Failure

/-!
# The other state matrices

A state matrix over any type of states, with the validator that looks an edge up by its two ends, and
the matrices of the automation control, the clarification, the plan, the project and the artifact
export.

* `isValid_iff`: the validator accepts exactly the edges of its matrix.
-/

namespace MiniCoder

/-- Who takes an edge: a role, or the system. -/
inductive MatrixActor
  | role (r : UserRole)
  | system
  deriving DecidableEq, Repr

/-- `TransitionRow<S, S>`: an edge, the command that triggers it and who may. -/
structure MatrixRow (S : Type) where
  fromState : S
  toState : S
  triggeringCommand : String
  actor : MatrixActor
  deriving DecidableEq, Repr

/-- `StateTransitionValidator<S>`: a matrix with the name of its machine. -/
structure StateTransitionValidator (S : Type) [DecidableEq S] where
  matrix : List (MatrixRow S)
  machineName : String
  literal : S → String

namespace StateTransitionValidator

variable {S : Type} [DecidableEq S] (validator : StateTransitionValidator S) {fromState toState : S}

/-- The validator's `Map`: a later row with the same ends replaces an earlier one. -/
def lookup (fromState toState : S) : Option (MatrixRow S) :=
  validator.matrix.reverse.find? fun row =>
    decide (row.fromState = fromState) && decide (row.toState = toState)

/-- `StateTransitionValidator.assertValid`. -/
def assertValid (fromState toState : S) : Except Failure (MatrixRow S) :=
  match validator.lookup fromState toState with
  | some row => .ok row
  | none => .error (.transition (validator.literal fromState) (validator.literal toState)
      validator.machineName)

/-- `StateTransitionValidator.isValid`. -/
def isValid (fromState toState : S) : Bool := (validator.lookup fromState toState).isSome

/-- The validator accepts exactly the edges of its matrix. -/
theorem isValid_iff : validator.isValid fromState toState = true ↔
    ∃ row ∈ validator.matrix, row.fromState = fromState ∧ row.toState = toState := by
  simp only [isValid, lookup, List.find?_isSome, List.mem_reverse, Bool.and_eq_true,
    decide_eq_true_eq]

theorem isValid_of_assertValid {row : MatrixRow S}
    (h : validator.assertValid fromState toState = .ok row) :
    validator.isValid fromState toState = true := by
  unfold assertValid at h
  unfold isValid
  split at h
  · rename_i heq
    rw [heq]
    rfl
  · cases h

theorem exists_assertValid (h : validator.isValid fromState toState = true) :
    ∃ row, validator.assertValid fromState toState = .ok row := by
  obtain ⟨row, hrow⟩ := Option.isSome_iff_exists.mp h
  refine ⟨row, ?_⟩
  unfold assertValid
  rw [hrow]

end StateTransitionValidator

/-! ### The matrices -/

open AutomationState in
/-- `AUTOMATION_CONTROL_MATRIX`, with its validator. -/
def automationControl : StateTransitionValidator AutomationState where
  matrix := [
    ⟨running, pausedByOperator, "PauseAutomationCommand", .role .operator⟩,
    ⟨pausedByOperator, running, "ResumeAutomationCommand", .role .operator⟩,
    ⟨running, pausedBudgetExceeded, "RecordBudgetExceededCommand", .system⟩,
    ⟨pausedBudgetExceeded, running, "ApproveBudgetOverrideCommand", .role .approver⟩,
    ⟨running, waitingForBudgetApproval, "RecordBudgetApprovalWaitingCommand", .system⟩,
    ⟨waitingForBudgetApproval, running, "ApproveBudgetOverrideCommand", .role .approver⟩]
  machineName := "automation-control"
  literal := AutomationState.literal

open ClarificationStatus in
/-- `CLARIFICATION_MATRIX`, with its validator. -/
def clarificationMachine : StateTransitionValidator ClarificationStatus where
  matrix := [
    ⟨notRequired, complete, "MarkClarificationNotRequiredCommand", .system⟩,
    ⟨required, inProgress, "StartClarificationCommand", .role .operator⟩,
    ⟨inProgress, complete, "CompleteClarificationCommand", .role .operator⟩,
    ⟨inProgress, required, "RequestAnotherClarificationRoundCommand", .system⟩,
    ⟨inProgress, blocked, "BlockClarificationCommand", .system⟩,
    ⟨required, blocked, "BlockClarificationCommand", .system⟩]
  machineName := "clarification"
  literal := ClarificationStatus.literal

open PlanState in
/-- `PLAN_LIFECYCLE_MATRIX`, with its validator. -/
def planLifecycle : StateTransitionValidator PlanState where
  matrix := [
    ⟨draft, pendingApproval, "SubmitPlanForApprovalCommand", .role .operator⟩,
    ⟨pendingApproval, approved, "ApprovePlanCommand", .role .approver⟩,
    ⟨approved, activatedForExecution, "ActivatePlanCommand", .role .approver⟩]
  machineName := "plan-lifecycle"
  literal := PlanState.literal

open ProjectState in
/-- `PROJECT_LIFECYCLE_MATRIX`, with its validator. -/
def projectLifecycle : StateTransitionValidator ProjectState where
  matrix := [
    ⟨active, implementationComplete, "MarkImplementationCompleteCommand", .system⟩,
    ⟨implementationComplete, designDocumentGenerating, "GenerateDesignDocumentCommand",
      .role .operator⟩,
    ⟨designDocumentGenerating, designDocumentReadyForReview, "RecordDesignDocumentReadyCommand",
      .system⟩,
    ⟨designDocumentReadyForReview, designDocumentRevisionRequested,
      "RequestDesignDocumentRevisionCommand", .role .approver⟩,
    ⟨designDocumentRevisionRequested, designDocumentGenerating, "RegenerateDesignDocumentCommand",
      .role .operator⟩,
    ⟨designDocumentReadyForReview, designDocumentApproved, "ApproveDesignDocumentCommand",
      .role .approver⟩,
    ⟨designDocumentApproved, projectComplete, "CompleteProjectCommand", .system⟩]
  machineName := "project-lifecycle"
  literal := ProjectState.literal

open ArtifactExportState in
/-- `ARTIFACT_EXPORT_MATRIX`, with its validator. -/
def artifactExport : StateTransitionValidator ArtifactExportState where
  matrix := [
    ⟨pending, generating, "StartArtifactGenerationCommand", .system⟩,
    ⟨generating, exported, "RecordArtifactExportedCommand", .system⟩,
    ⟨generating, failed, "RecordArtifactExportFailedCommand", .system⟩,
    ⟨exported, stale, "MarkArtifactStaleCommand", .system⟩,
    ⟨stale, generating, "StartArtifactGenerationCommand", .role .operator⟩,
    ⟨failed, generating, "StartArtifactGenerationCommand", .role .operator⟩]
  machineName := "artifact-export"
  literal := ArtifactExportState.literal

open AgentRunState in
/-- `AGENT_RUN_MATRIX`. -/
def agentRun : StateTransitionValidator AgentRunState where
  matrix := [
    ⟨queued, running, "StartAgentRunCommand", .system⟩,
    ⟨running, succeeded, "RecordAgentRunSucceededCommand", .system⟩,
    ⟨running, failed, "RecordAgentRunFailedCommand", .system⟩,
    ⟨running, cancelled, "CancelAgentRunCommand", .role .operator⟩,
    ⟨queued, cancelled, "CancelAgentRunCommand", .role .operator⟩]
  machineName := "agent-run"
  literal := AgentRunState.literal

end MiniCoder
