import MiniCoder.Domain.Failure

/-!
# The feature-execution matrix and its validator

`featureExecutionMatrix` lists the allowed edges of a feature run with the commands each edge is
for; `StateTransitionValidator` looks an edge up by its two ends only, whatever command asks.

* `isValid_iff`: the validator accepts exactly the edges of the matrix.
* `Lists`: an edge is in the matrix under a given command, which the validator does not ask.
-/

namespace MiniCoder

/-- A row of a state matrix: an edge and the commands that trigger it. -/
structure TransitionRow where
  fromState : FeatureExecutionState
  toState : FeatureExecutionState
  triggeringCommands : List String
  deriving DecidableEq, Repr

open FeatureExecutionState in
/-- `FEATURE_EXECUTION_MATRIX`, row by row. -/
def featureExecutionMatrix : List TransitionRow := [
  ⟨approvedPendingExecution, selected, ["SelectFeatureCommand"]⟩,
  ⟨selected, coding, ["StartCodingCommand"]⟩,
  ⟨coding, codePushed, ["RecordCodePushedCommand"]⟩,
  ⟨codePushed, prOpened, ["RecordPrOpenedCommand"]⟩,
  ⟨prOpened, ciRunning, ["RecordCiRunningCommand"]⟩,
  -- a pull request closed without merging, seen by reconciliation
  ⟨prOpened, humanRequired, ["EscalateToHumanCommand"]⟩,
  ⟨ciRunning, humanRequired, ["EscalateToHumanCommand"]⟩,
  ⟨approvedPendingExecution, humanRequired, ["EscalateToHumanCommand"]⟩,
  ⟨selected, humanRequired, ["EscalateToHumanCommand"]⟩,
  ⟨coding, humanRequired, ["EscalateToHumanCommand"]⟩,
  ⟨codePushed, humanRequired, ["EscalateToHumanCommand"]⟩,
  ⟨changesRequested, humanRequired, ["EscalateToHumanCommand"]⟩,
  ⟨fixing, humanRequired, ["EscalateToHumanCommand"]⟩,
  ⟨approvedByPolicy, humanRequired, ["EscalateToHumanCommand"]⟩,
  ⟨mergeReady, humanRequired, ["EscalateToHumanCommand"]⟩,
  -- CI outcomes
  ⟨ciRunning, underReview, ["RecordCiPassedCommand"]⟩,
  ⟨ciRunning, ciFailed, ["RecordCiFailedCommand"]⟩,
  ⟨ciFailed, changesRequested, ["RequestChangesAfterCiFailCommand"]⟩,
  ⟨ciFailed, humanRequired, ["EscalateToHumanCommand"]⟩,
  -- review loop
  ⟨underReview, changesRequested, ["RecordChangesRequestedCommand"]⟩,
  ⟨underReview, humanRequired, ["EscalateToHumanCommand"]⟩,
  ⟨underReview, approvedByPolicy, ["RecordApprovedByPolicyCommand"]⟩,
  ⟨changesRequested, fixing, ["StartFixingCommand"]⟩,
  ⟨fixing, codePushed, ["RecordCodePushedCommand"]⟩,
  -- merge
  ⟨approvedByPolicy, mergeReady, ["MergeIfReadyCommand"]⟩,
  ⟨mergeReady, merged, ["RecordMergedCommand"]⟩,
  ⟨mergeReady, mergeFailed, ["RecordMergeFailedCommand"]⟩,
  ⟨mergeFailed, underReview, ["ReconcileMergeFailedCommand"]⟩,
  ⟨mergeFailed, humanRequired, ["EscalateToHumanCommand"]⟩,
  -- failure and escalation
  ⟨failed, humanRequired, ["EscalateToHumanCommand"]⟩,
  ⟨systemFailed, humanRequired, ["EscalateToHumanCommand"]⟩,
  -- one row for two commands: the validator's lookup is keyed by the pair alone
  ⟨blocked, approvedPendingExecution, ["UnblockFeatureCommand", "HumanUnblockFeatureCommand"]⟩,
  -- the dispositions of `human_required`
  ⟨humanRequired, changesRequested, ["ResolveDisagreementCommand"]⟩,
  ⟨humanRequired, underReview, ["ResumeFeatureExecutionCommand"]⟩,
  ⟨humanRequired, selected, ["RetryFeatureCommand"]⟩,
  ⟨humanRequired, skipped, ["SkipFeatureCommand"]⟩,
  ⟨humanRequired, blocked, ["BlockFeatureCommand"]⟩,
  -- the cascade of a skip
  ⟨approvedPendingExecution, blocked, ["SkipFeatureCommand"]⟩]

/-! ### `StateTransitionValidator` -/

/-- The validator's `Map`: a later row with the same ends replaces an earlier one. -/
def lookup (fromState toState : FeatureExecutionState) : Option TransitionRow :=
  featureExecutionMatrix.reverse.find? fun row =>
    row.fromState == fromState && row.toState == toState

/-- `StateTransitionValidator.assertValid` for the machine `feature-execution`. -/
def assertValid (fromState toState : FeatureExecutionState) : Except Failure TransitionRow :=
  match lookup fromState toState with
  | some row => .ok row
  | none => .error (.transition fromState.literal toState.literal "feature-execution")

/-- `StateTransitionValidator.isValid`. -/
def isValid (fromState toState : FeatureExecutionState) : Bool :=
  (lookup fromState toState).isSome

/-- `StateTransitionValidator.validNextStates`. -/
def validNextStates (fromState : FeatureExecutionState) : List FeatureExecutionState :=
  (featureExecutionMatrix.filter fun row => row.fromState == fromState).map (·.toState)

/-- Some row of the matrix joins the two states and lists the command. -/
def Lists (fromState toState : FeatureExecutionState) (commandName : String) : Prop :=
  ∃ row ∈ featureExecutionMatrix,
    row.fromState = fromState ∧ row.toState = toState ∧ commandName ∈ row.triggeringCommands

instance (fromState toState : FeatureExecutionState) (commandName : String) :
    Decidable (Lists fromState toState commandName) :=
  inferInstanceAs (Decidable (∃ row ∈ featureExecutionMatrix,
    row.fromState = fromState ∧ row.toState = toState ∧ commandName ∈ row.triggeringCommands))

/-- The validator accepts exactly the edges of the matrix. -/
theorem isValid_iff {fromState toState : FeatureExecutionState} :
    isValid fromState toState = true ↔
      ∃ row ∈ featureExecutionMatrix, row.fromState = fromState ∧ row.toState = toState := by
  simp only [isValid, lookup, List.find?_isSome, List.mem_reverse, Bool.and_eq_true, beq_iff_eq]

theorem isValid_of_assertValid {fromState toState : FeatureExecutionState} {row : TransitionRow}
    (h : assertValid fromState toState = .ok row) : isValid fromState toState = true := by
  unfold assertValid at h
  unfold isValid
  split at h
  · rename_i heq
    rw [heq]
    rfl
  · cases h

end MiniCoder
