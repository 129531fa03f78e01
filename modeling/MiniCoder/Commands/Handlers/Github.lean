import MiniCoder.Commands.Handlers.Feature

/-!
# The handlers of `commands/handlers/github`

The transitions that record what the source host reports: the pull request, its CI checks and its
reviews.  Only the first two hold the execution lane; a CI outcome comes from a webhook.
-/

open Storage Storage.Action

namespace MiniCoder

/-! ### The pull request -/

structure RecordPrOpenedPayload extends FeatureRunRef where
  prNumber : ℕ
  branchName : String
  baseBranch : String
  headSha : Option String := none

/-- `RecordPrOpenedHandler`. -/
def recordPrOpenedHandler : FeatureHandler RecordPrOpenedPayload where
  commandName := "RecordPrOpenedCommand"
  requiredRole := .admin
  requiredActorKind := .system
  idempotencyScope := "record-pr-opened"
  Evidence := Unit
  evidence _ := pure ()
  evidence_only _ := frame_pure _
  transition envelope _ := { envelope.payload.toFeatureRunRef with
    toState := .prOpened
    Checked := Unit
    prologue := requireExecutionLane "RecordPrOpenedCommand" envelope.payload.projectId envelope
    prologue_core := frame_requireExecutionLane seesData_coreView _ _ _
    reportsMissing := false
    guard := fun _ => pure ()
    effects := fun _ _ => insertPullRequestRow {
      featureRunId := envelope.payload.featureRunId
      prNumber := envelope.payload.prNumber
      branchName := envelope.payload.branchName
      baseBranch := envelope.payload.baseBranch
      headSha := envelope.payload.headSha }
    effects_core := fun _ _ => (core_insertPullRequestRow _).map unpointed
    effects_pointer := fun _ _ _ _ h => keep_of_core (core_insertPullRequestRow _) h
    eventType := "github.pr_opened"
    outboxType := "feature.pr_opened"
    outboxPayload := fun _ => runPayload envelope.payload.toFeatureRunRef ++ [
      ("prNumber", .num envelope.payload.prNumber),
      ("branchName", .str envelope.payload.branchName),
      ("baseBranch", .str envelope.payload.baseBranch)] }

/-! ### CI checks -/

structure CheckRunPayload extends FeatureRunRef where
  checkRunId : String

abbrev RecordCiRunningPayload := CheckRunPayload

/-- `RecordCiRunningHandler`. -/
def recordCiRunningHandler : FeatureHandler RecordCiRunningPayload where
  commandName := "RecordCiRunningCommand"
  requiredRole := .admin
  requiredActorKind := .system
  idempotencyScope := "record-ci-running"
  Evidence := Unit
  evidence _ := pure ()
  evidence_only _ := frame_pure _
  transition envelope _ := { envelope.payload.toFeatureRunRef with
    toState := .ciRunning
    Checked := Unit
    prologue := requireExecutionLane "RecordCiRunningCommand" envelope.payload.projectId envelope
    prologue_core := frame_requireExecutionLane seesData_coreView _ _ _
    reportsMissing := false
    guard := fun _ => pure ()
    eventType := "github.ci_running"
    outboxType := "feature.ci_running"
    outboxPayload := fun _ => runPayload envelope.payload.toFeatureRunRef ++
      [("checkRunId", .str envelope.payload.checkRunId)] }

abbrev RecordCiPassedPayload := CheckRunPayload

/-- `RecordCiPassedHandler`: no lock, a CI outcome is not driven by the execution lane. -/
def recordCiPassedHandler : FeatureHandler RecordCiPassedPayload where
  commandName := "RecordCiPassedCommand"
  requiredRole := .admin
  requiredActorKind := .system
  idempotencyScope := "record-ci-passed"
  Evidence := Unit
  evidence _ := pure ()
  evidence_only _ := frame_pure _
  transition envelope _ := { envelope.payload.toFeatureRunRef with
    toState := .underReview
    Checked := Unit
    reportsMissing := false
    guard := fun _ => pure ()
    eventType := "github.ci_passed"
    outboxType := "feature.ci_passed"
    outboxPayload := fun _ => runPayload envelope.payload.toFeatureRunRef ++ [
      ("checkRunId", .str envelope.payload.checkRunId),
      ("conclusion", .str "success")] }

structure RecordCiFailedPayload extends CheckRunPayload where
  reason : Option String := none

/-- The blocking finding of a failed check. -/
def RecordCiFailedPayload.finding (payload : RecordCiFailedPayload) : ReviewFindingInsert where
  severity := .blocking
  category := some "ci_failure"
  description := s!"CI check {payload.checkRunId} failed" ++
    (match truthy payload.reason with
      | some reason => s!": {reason}"
      | none => "")

/-- `RecordCiFailedHandler`: records the failure as a blocking finding of the next fix cycle. -/
def recordCiFailedHandler : FeatureHandler RecordCiFailedPayload where
  commandName := "RecordCiFailedCommand"
  requiredRole := .admin
  requiredActorKind := .system
  idempotencyScope := "record-ci-failed"
  Evidence := Unit
  evidence _ := pure ()
  evidence_only _ := frame_pure _
  transition envelope _ := { envelope.payload.toFeatureRunRef with
    toState := .ciFailed
    Checked := Unit
    reportsMissing := false
    guard := fun _ => pure ()
    effects := fun run _ => insertReviewFindings envelope.payload.featureRunId none
      (run.fixAttemptCount + 1) [envelope.payload.finding]
    effects_core := fun _ _ => (core_insertReviewFindings _ _ _).map unpointed
    effects_pointer := fun _ _ _ _ h => keep_of_core (core_insertReviewFindings _ _ _) h
    eventType := "github.ci_failed"
    outboxType := "feature.ci_failed"
    outboxPayload := fun _ => runPayload envelope.payload.toFeatureRunRef ++ [
      ("checkRunId", .str envelope.payload.checkRunId),
      ("conclusion", .str "failure"),
      ("reason", .ofOption envelope.payload.reason)] }

/-! ### Reviews -/

structure RecordChangesRequestedPayload extends FeatureRunRef where
  reviewId : String
  reviewer : Option String := none
  reviewerRunId : Option String := none
  reviewCycle : Option ℕ := none
  findings : Option (List ReviewFindingInsert) := none

/-- `RecordChangesRequestedHandler`. -/
def recordChangesRequestedHandler : FeatureHandler RecordChangesRequestedPayload where
  commandName := "RecordChangesRequestedCommand"
  requiredRole := .admin
  requiredActorKind := .system
  idempotencyScope := "record-changes-requested"
  Evidence := Unit
  evidence _ := pure ()
  evidence_only _ := frame_pure _
  transition envelope _ := { envelope.payload.toFeatureRunRef with
    toState := .changesRequested
    Checked := Unit
    reportsMissing := false
    guard := fun run => assertBelowFixThreshold run envelope.correlationId
    guard_core := fun run => core_assertBelowFixThreshold run
    fixAttempts := 1
    effects := fun run _ => insertReviewFindings envelope.payload.featureRunId
      envelope.payload.reviewerRunId
      (envelope.payload.reviewCycle.getD (run.fixAttemptCount + 1))
      (envelope.payload.findings.getD [])
    effects_core := fun _ _ => (core_insertReviewFindings _ _ _).map unpointed
    effects_pointer := fun _ _ _ _ h => keep_of_core (core_insertReviewFindings _ _ _) h
    eventType := "github.changes_requested"
    outboxType := "feature.changes_requested"
    outboxPayload := fun _ => runPayload envelope.payload.toFeatureRunRef ++ [
      ("reviewId", .str envelope.payload.reviewId),
      ("reviewer", .ofOption envelope.payload.reviewer)] }

abbrev RequestChangesAfterCiFailPayload := FeatureRunRef

/-- `RequestChangesAfterCiFailHandler`. -/
def requestChangesAfterCiFailHandler : FeatureHandler RequestChangesAfterCiFailPayload where
  commandName := "RequestChangesAfterCiFailCommand"
  requiredRole := .admin
  requiredActorKind := .system
  idempotencyScope := "request-changes-after-ci-fail"
  Evidence := Unit
  evidence _ := pure ()
  evidence_only _ := frame_pure _
  transition envelope _ := { envelope.payload with
    toState := .changesRequested
    Checked := Unit
    reportsMissing := false
    guard := fun run => assertBelowFixThreshold run envelope.correlationId
    guard_core := fun run => core_assertBelowFixThreshold run
    fixAttempts := 1
    eventType := "github.changes_requested_after_ci_fail"
    outboxType := "feature.changes_requested"
    outboxPayload := fun _ => runPayload envelope.payload ++ [
      ("reviewId", .str s!"ci-failed:{envelope.payload.featureRunId}"),
      ("reviewer", .null)] }

end MiniCoder
