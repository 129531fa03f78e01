import MiniCoder.Coder.RunCoder
import MiniCoder.Merge.Route
import MiniCoder.Tasks.Command

/-!
# The run-review task

One run of the task: it reads the feature run and the mirror of its pull request, asks the reviewer
adapter for findings, and approves, requests changes, or escalates to a human.  A blocking finding
that an earlier review has raised goes to the arbiter first.  `escalation` keeps, as a ghost, the
review pass that was escalated and the command that did it.

* `runReview_ok`: a task that reports an escalation has dispatched its command, with the findings of
  its pass, and the command returned.
-/

open Storage Storage.Action

namespace MiniCoder

/-! ### What the task takes from outside -/

/-- `RunReviewPayload`, but for the reviewer's name. -/
structure RunReviewPayload where
  projectId : String
  featureRunId : String
  correlationId : String
  arbiterAdapterName : Option String := none
  deriving DecidableEq, Repr

inductive ReviewDecision
  | approved
  | changesRequested
  | escalated
  deriving DecidableEq, Repr

/-- `RunReviewResult`. -/
structure RunReviewResult where
  projectId : String
  featureRunId : String
  reviewed : Bool
  decision : Option ReviewDecision
  deriving DecidableEq, Repr

/-- The findings of one review pass, as a command takes them. -/
structure ReviewPass where
  reviewerRunId : String
  reviewCycle : ℕ
  findings : List ReviewFindingInsert
  deriving DecidableEq, Repr

/-- An escalated pass, and the command that escalated it. -/
structure Escalation where
  pass : ReviewPass
  command : Dispatch

/-- The result of a task, with the escalation it reports. -/
structure ReviewOutcome where
  result : RunReviewResult
  escalation : Option Escalation := none

/-- `ReviewerInput`, but for the acceptance criteria. -/
structure ReviewerInput where
  projectId : String
  featureRunId : String
  prNumber : ℕ
  reviewCycle : ℕ
  correlationId : String
  featureTitle : Option String
  deriving DecidableEq, Repr

/-- `ReviewFindingOutput`, as an adapter may report it. -/
structure ReviewFindingOutput where
  severity : String
  category : String
  description : String
  filePath : Option String := none
  lineStart : Option ℚ := none
  lineEnd : Option ℚ := none
  deriving DecidableEq, Repr

/-- `ReviewerOutput`, with the tokens and the prompt that some adapters report. -/
structure ReviewerOutput where
  findings : List ReviewFindingOutput
  tokensUsed : Option TokensUsed := none
  promptSnapshot : Bool := false
  deriving DecidableEq, Repr

/-- `ArbiterInput`. -/
structure ArbiterInput where
  projectId : String
  featureRunId : String
  findingDescription : String
  coderPosition : String
  reviewerPosition : String
  correlationId : String
  deriving DecidableEq, Repr

inductive ArbiterResolution
  | coderCorrect
  | reviewerCorrect
  | compromise
  | escalateToHuman
  deriving DecidableEq, Repr

/-- `ArbiterOutput`, with the tokens that some adapters report. -/
structure ArbiterOutput where
  resolution : ArbiterResolution
  notes : String
  tokensUsed : Option TokensUsed := none
  deriving DecidableEq, Repr

/-- The services and the environment of a task. -/
structure RunReviewDeps where
  dialect : Dialect := .sqlite
  /-- The reviewer's answer. -/
  reviewer : ReviewerInput → Except Failure ReviewerOutput
  /-- The arbiter's answer. -/
  arbiter : ArbiterInput → Except Failure ArbiterOutput
  /-- The SCM client of the repository, and the reviewer of the payload: resolved, built from the
  environment, and allowed to run. -/
  reviewerAdapter : Except Failure Unit := .ok ()
  /-- The same of the arbiter of the payload. -/
  arbiterAdapter : Except Failure Unit := .ok ()
  /-- `REVIEW_ESTIMATED_COST_USD`. -/
  estimatedCostUsd : Option ℚ := none
  /-- `applyBudgetDecision` on a forecast hard breach, after which the task returns. -/
  applyBudgetDecision : WorkflowState → Sql Unit := fun _ => pure ()
  /-- The prices of a thousand tokens. -/
  pricePer1kInput : ℚ := 15 / 100000
  pricePer1kOutput : ℚ := 6 / 10000

/-- `EXPECTED_COMMAND_ERROR_TYPES`. -/
def reviewRaces : List String := ["concurrent-command", "not-found", "automation-paused"]

namespace RunReviewPayload

variable (payload : RunReviewPayload)

/-- The result of a task that called no adapter. -/
def notReviewed (decision : Option ReviewDecision) : ReviewOutcome where
  result := {
    projectId := payload.projectId
    featureRunId := payload.featureRunId
    reviewed := false
    decision }

def reviewed (decision : ReviewDecision) : RunReviewResult where
  projectId := payload.projectId
  featureRunId := payload.featureRunId
  reviewed := true
  decision := some decision

/-- The run, at the version a command expects. -/
def ref (expectedVersion : ℕ) : FeatureRunRef where
  featureRunId := payload.featureRunId
  projectId := payload.projectId
  expectedVersion

def envelope {P : Type} (commandId key : String) (commandPayload : P)
    (lockContext : Option LockContext := none) : CommandEnvelope P where
  commandId
  idempotencyKey := key
  payload := commandPayload
  actor := systemActor
  correlationId := payload.correlationId
  lockContext

/-- The key under which a review is escalated: it names the run, and not the review. -/
def escalationKey : String := s!"escalate-human-review:{payload.featureRunId}"

/-- The command of `dispatchEscalation`. -/
def escalationRequest (expectedVersion : ℕ) (commandId : String) (pass : ReviewPass) : Request :=
  ⟨.escalateToHuman, payload.envelope commandId payload.escalationKey {
    payload.ref expectedVersion with
    reason := "Reviewer produced a requires_human_decision finding or exceeded the fix-attempt " ++
      "threshold"
    reviewerRunId := some pass.reviewerRunId
    reviewCycle := some pass.reviewCycle
    findings := some pass.findings }⟩

def changesRequest (expectedVersion : ℕ) (commandId : String) (pass : ReviewPass)
    (findings : List ReviewFindingInsert) : Request :=
  let reviewId := s!"review-{payload.featureRunId}-{pass.reviewCycle}"
  ⟨.recordChangesRequested,
    payload.envelope commandId s!"changes-requested:{payload.featureRunId}:{reviewId}" {
      payload.ref expectedVersion with
      reviewId
      reviewerRunId := some pass.reviewerRunId
      reviewCycle := some pass.reviewCycle
      findings := some findings }⟩

def fixingRequest (expectedVersion : ℕ) (commandId : String) (lock : AcquiredLock) : Request :=
  ⟨.startFixing,
    payload.envelope commandId s!"start-fixing:{payload.featureRunId}:{expectedVersion}"
      (payload.ref expectedVersion) (lock.context payload.projectId)⟩

end RunReviewPayload

/-! ### The findings of a reviewer -/

/-- The severity that a literal names. -/
def FindingSeverity.ofLiteral? : String → Option FindingSeverity
  | "blocking" => some blocking
  | "non_blocking" => some nonBlocking
  | "question" => some question
  | "nit" => some nit
  | "out_of_scope" => some outOfScope
  | "requires_human_decision" => some requiresHumanDecision
  | _ => none

/-- `z.number().int().nonnegative()`. -/
def lineNumber? (line : ℚ) : Option ℕ :=
  if line.den = 1 ∧ 0 ≤ line.num then some line.num.toNat else none

/-- `z.number().int().nonnegative().optional()`. -/
def optionalLine? : Option ℚ → Option (Option ℕ)
  | none => some none
  | some line => (lineNumber? line).map some

/-- `ReviewFindingInsertSchema.parse`: `none` when the schema refuses the finding. -/
def ReviewFindingOutput.parse? (finding : ReviewFindingOutput) : Option ReviewFindingInsert := do
  let severity ← FindingSeverity.ofLiteral? finding.severity
  guard (finding.category ≠ "")
  guard (finding.description ≠ "")
  let lineStart ← optionalLine? finding.lineStart
  let lineEnd ← optionalLine? finding.lineEnd
  pure {
    severity
    category := some finding.category
    description := finding.description
    filePath := finding.filePath
    lineStart
    lineEnd }

/-- `normalizeReviewerFindings`; the list of issues in the text of a `ZodError` is left out. -/
def normalizeReviewerFindings (output : ReviewerOutput) :
    Except Failure (List ReviewFindingInsert) :=
  match output.findings.mapM (·.parse?) with
  | some findings => .ok findings
  | none => .error (.error "ZodError")

def ReviewFindingInsert.isBlocking (finding : ReviewFindingInsert) : Bool :=
  finding.severity == .blocking

def ReviewFindingInsert.needsHuman (finding : ReviewFindingInsert) : Bool :=
  finding.severity == .requiresHumanDecision

/-! ### The statements of the task -/

namespace Db

/-- `SELECT MAX(review_cycle) as maxCycle FROM review_findings WHERE feature_run_id = ?`, with 0 for
a run without findings. -/
def maxReviewCycle (db : Db) (featureRunId : String) : ℕ :=
  ((db.reviewFindings.select fun finding => finding.featureRunId == featureRunId).map
    (·.reviewCycle)).max?.getD 0

/-- `(cycleRows[0]?.maxCycle ?? 0) + 1`: PostgreSQL names the column `maxcycle`, so that the task
finds no `maxCycle` in the row. -/
def nextReviewCycle (db : Db) (dialect : Dialect) (featureRunId : String) : ℕ :=
  match dialect with
  | .sqlite => db.maxReviewCycle featureRunId + 1
  | .postgres => 1

/-- `findReviewOccurrenceMarker`. -/
def findReviewOccurrenceMarker (db : Db) (featureRunId headSha : String) :
    Option ReviewOccurrenceMarker :=
  db.reviewOccurrenceMarkers.find? fun marker =>
    marker.featureRunId == featureRunId && marker.headSha == headSha

/-- `INSERT INTO review_occurrence_markers … ON CONFLICT (feature_run_id, head_sha) DO NOTHING`. -/
def insertReviewOccurrenceMarker (db : Db) (row : ReviewOccurrenceMarker) : Option (Unit × Db) :=
  if (db.findReviewOccurrenceMarker row.featureRunId row.headSha).isSome = true then some ((), db)
  else (db.reviewOccurrenceMarkers.insert? row).map fun t =>
    ((), { db with reviewOccurrenceMarkers := t })

/-- The earlier blocking finding, of the latest review cycle, that one of the findings repeats. -/
def findRepeatedFinding (db : Db) (featureRunId : String) (reviewCycle : ℕ)
    (candidateDescriptions : List String) : Option ReviewFinding :=
  db.reviewFindings.last? (fun row => row.featureRunId == featureRunId &&
      decide (row.reviewCycle < reviewCycle) && row.severity == .blocking &&
      candidateDescriptions.contains (trim row.description))
    fun row row' => decide (row.reviewCycle < row'.reviewCycle)

/-- `INSERT INTO disagreement_records … ON CONFLICT (id) DO NOTHING`. -/
def insertDisagreement (db : Db) (row : DisagreementRecord) : Option (Unit × Db) :=
  match db.disagreementRecords.insert? row with
  | some t => some ((), { db with disagreementRecords := t })
  | none => some ((), db)

/-- The `SET` list of an arbiter's disposition. -/
def disposed (arbiterRunId resolution : String) (state : DisagreementState)
    (row : DisagreementRecord) : DisagreementRecord :=
  { row with
    state
    arbiterRunId := some arbiterRunId
    resolution := some resolution
    version := row.version + 1 }

end Db

/-- `findRepeatedFinding`. -/
def findRepeatedFinding (featureRunId : String) (pass : ReviewPass) : Sql (Option ReviewFinding) :=
  let candidateDescriptions := (pass.findings.filter (·.isBlocking)).map fun f => trim f.description
  if candidateDescriptions = [] then pure none
  else query fun db =>
    db.findRepeatedFinding featureRunId pass.reviewCycle candidateDescriptions

/-- `recordReviewOccurrenceMarker`, for a pull request that names its head. -/
def recordReviewOccurrenceMarker (featureRunId : String) (headSha : Option String)
    (reviewCycle : ℕ) : Sql Unit :=
  match truthy headSha with
  | none => pure ()
  | some headSha => execute fun db => db.insertReviewOccurrenceMarker {
      id := s!"review-occurrence:{featureRunId}:{headSha}"
      featureRunId
      headSha
      reviewCycle
      outcome := "approved" }

/-- `disagreementRecordId`. -/
def disagreementRecordId (featureRunId : String) (reviewCycle : ℕ) : String :=
  s!"disagreement:{featureRunId}:{reviewCycle}"

/-- `insertDisagreementRecord`; returns the id of the record. -/
def insertDisagreementRecord (featureRunId findingId : String) (reviewCycle : ℕ) : Sql String := do
  let id := disagreementRecordId featureRunId reviewCycle
  execute fun db => db.insertDisagreement { id, featureRunId, findingId := some findingId, reviewCycle }
  pure id

/-- `recordArbiterDisposition`. -/
def recordArbiterDisposition (disagreementId arbiterRunId resolution : String)
    (state : DisagreementState) : Sql Unit :=
  execute fun db => some ((), { db with
    disagreementRecords := db.disagreementRecords.update (fun row => row.id == disagreementId)
      (Db.disposed arbiterRunId resolution state) fun _ _ => rfl })

def CoderResponseType.literal : CoderResponseType → String
  | fixed => "fixed"
  | deferred => "deferred"
  | disputed => "disputed"
  | acknowledged => "acknowledged"

/-- `summarizeCoderPosition`. -/
def Db.summarizeCoderPosition (db : Db) (priorFindingId : String) : String :=
  match (db.coderResponses.select fun row => row.findingId == priorFindingId).getLast? with
  | none => "No coder_responses row on file for the prior occurrence of this finding."
  | some row =>
    let notes := match truthy row.notes with
      | none => ""
      | some notes => s!": {notes}"
    s!"Coder's last response to this finding was '{row.responseType.literal}'{notes}."

/-- `budgetPreflightCheck`, with what its callers configure. -/
def budgetPreflight (estimatedCostUsd : Option ℚ) (applyBudgetDecision : WorkflowState → Sql Unit)
    (projectId featureRequestId : String) : Sql Bool :=
  match estimatedCostUsd with
  | none => pure true
  | some estimate => do
    let now ← isoNow
    let forecast ← query fun db =>
      db.forecastBudget projectId featureRequestId .feature estimate now
    if forecast ≠ some .hardBreach then pure true
    else do
      let state ← query fun db => db.findWorkflowState projectId
      match state with
      | none => pure false
      | some state => do
        applyBudgetDecision state
        pure false

/-- The run-coder task makes the same check. -/
theorem budgetPreflightCheck_eq (deps : RunCoderDeps) (projectId featureRequestId : String) :
    budgetPreflightCheck deps projectId featureRequestId =
      budgetPreflight deps.estimatedCostUsd deps.applyBudgetDecision projectId featureRequestId := by
  unfold budgetPreflightCheck budgetPreflight
  rfl

/-- `computeCostUsd`. -/
def RunReviewDeps.computeCostUsd (deps : RunReviewDeps) (tokens : TokensUsed) : ℚ :=
  tokens.input / 1000 * deps.pricePer1kInput + tokens.output / 1000 * deps.pricePer1kOutput

/-- The cost of an agent run that reports one. -/
def recordAgentCost (projectId featureRequestId : String) : Option ℚ → Sql Unit
  | none => pure ()
  | some amount => insertCostRecord projectId featureRequestId amount

/-- `AgentRunRecorder.record`: the id of the agent run, and the adapter's output. -/
def recordAgentRun {α : Type} (projectId featureRequestId : String) (costUsd : α → Option ℚ)
    (answer : Except Failure α) : Sql (String × α) := do
  let agentRunId ← generateId
  agentStatement
  tryCatch
    (do
      let output ← orThrow answer
      agentStatement
      recordAgentCost projectId featureRequestId (costUsd output)
      pure (agentRunId, output))
    fun e => do
      agentStatement
      throw e

/-! ### The task -/

section Task

variable (others : TaskOthers) (deps : RunReviewDeps) (payload : RunReviewPayload)

/-- `dispatchEscalation`, and the report of it. -/
def escalate (run : FeatureRun) (pass : ReviewPass) : Sql ReviewOutcome := do
  let commandId ← generateId
  let (_, command) ← dispatchTask others 0 (payload.escalationRequest run.version commandId pass)
  pure {
    result := payload.reviewed .escalated
    escalation := some { pass, command } }

/-- `advanceToFixing`: a lost race is left to a later run of the task. -/
def advanceToFixing (expectedVersion : ℕ) : Sql Unit := do
  let lock? ← unlessTransient reviewRaces
    (stepAt others 13 (acquireForProject payload.projectId "run-review-task"))
  match lock? with
  | none => pure ()
  | some lock => do
    let _ ← ensuring
      (unlessTransient reviewRaces do
        let commandId ← generateId
        dispatchTask others 2 (payload.fixingRequest expectedVersion commandId lock))
      (stepAt others 14 (release lock))
    pure ()

/-- `RecordChangesRequestedCommand`, and the version it leaves: `none` when it lost a race. -/
def recordChanges (run : FeatureRun) (pass : ReviewPass) (findings : List ReviewFindingInsert) :
    Sql (Option ℕ) :=
  unlessTransient reviewRaces do
    let commandId ← generateId
    let _ ← dispatchTask others 1 (payload.changesRequest run.version commandId pass findings)
    let current ← stepAt others 12 (query fun db => db.runById payload.featureRunId)
    pure ((current.map (·.version)).getD (run.version + 1))

/-- A review that requests changes. -/
def requestChanges (run : FeatureRun) (pass : ReviewPass) (findings : List ReviewFindingInsert) :
    Sql ReviewOutcome := do
  let version ← recordChanges others payload run pass findings
  match version with
  | none => pure (payload.notReviewed none)
  | some version => do
    advanceToFixing others payload version
    pure { result := payload.reviewed .changesRequested }

/-- The transaction of a clean review: the findings and the marker of the reviewed commit. -/
def recordCleanReview (pr : PullRequest) (pass : ReviewPass) (findings : List ReviewFindingInsert) :
    Sql Unit :=
  transaction do
    insertReviewFindings payload.featureRunId (some pass.reviewerRunId) pass.reviewCycle findings
    recordReviewOccurrenceMarker payload.featureRunId pr.headSha pass.reviewCycle

/-- A clean review. -/
def approve (pr : PullRequest) (pass : ReviewPass) (findings : List ReviewFindingInsert) :
    Sql ReviewOutcome := do
  stepAt others 11 (recordCleanReview payload pr pass findings)
  pure { result := payload.reviewed .approved }

/-- A review without a call for a human, after the arbiter had its say. -/
def settle (run : FeatureRun) (pr : PullRequest) (pass : ReviewPass)
    (findings : List ReviewFindingInsert) : Sql ReviewOutcome :=
  if findings.any (·.isBlocking) = true then requestChanges others payload run pass findings
  else approve others payload pr pass findings

/-- The findings after the arbiter has sided with the coder on one of them. -/
def dismiss (description : String) (findings : List ReviewFindingInsert) :
    List ReviewFindingInsert :=
  findings.map fun f =>
    if trim f.description = trim description ∧ (f.isBlocking || f.needsHuman) = true then
      { f with severity := .nonBlocking }
    else f

/-- Asks the arbiter about a repeated finding: the findings as they stand then, or `none` when it
calls for a human. -/
def arbitrate (run : FeatureRun) (pass : ReviewPass) (prior : ReviewFinding) :
    Sql (Option (List ReviewFindingInsert)) := do
  let disagreementId ← stepAt others 8
    (insertDisagreementRecord payload.featureRunId prior.id pass.reviewCycle)
  orThrow deps.arbiterAdapter
  let coderPosition ← stepAt others 9 (query fun db => db.summarizeCoderPosition prior.id)
  let (arbiterRunId, output) ← recordAgentRun payload.projectId run.featureRequestId
    (fun output => output.tokensUsed.map deps.computeCostUsd) (deps.arbiter {
      projectId := payload.projectId
      featureRunId := payload.featureRunId
      findingDescription := prior.description
      coderPosition
      reviewerPosition := prior.description
      correlationId := payload.correlationId })
  let state : DisagreementState :=
    if output.resolution = .escalateToHuman then .escalated else .resolved
  stepAt others 10 (recordArbiterDisposition disagreementId arbiterRunId output.notes state)
  pure (match output.resolution with
    | .escalateToHuman => none
    | .coderCorrect => some (dismiss prior.description pass.findings)
    | .reviewerCorrect | .compromise => some pass.findings)

/-- A review with a blocking finding. -/
def settleBlocking (run : FeatureRun) (pr : PullRequest) (pass : ReviewPass) :
    Sql ReviewOutcome :=
  if fixAttemptThreshold ≤ run.fixAttemptCount then escalate others payload run pass
  else do
    let repeated ← stepAt others 7 (findRepeatedFinding payload.featureRunId pass)
    match repeated with
    | none => settle others payload run pr pass pass.findings
    | some prior =>
      match truthy payload.arbiterAdapterName with
      | none => throw (.error ("run-review detected a repeated unresolved finding (a coder/reviewer " ++
          "disagreement) but no arbiterAdapterName was configured on the payload — an " ++
          "ArbiterAgentAdapter must be registered (e.g. ClaudeArbiterAdapter, issue #51) and named " ++
          "here before arbitration can proceed."))
      | some _ => do
        let findings ← arbitrate others deps payload run pass prior
        match findings with
        | none => escalate others payload run pass
        | some findings => settle others payload run pr pass findings

/-- What the task makes of a review pass. -/
def decideReview (run : FeatureRun) (pr : PullRequest) (pass : ReviewPass) : Sql ReviewOutcome :=
  if pass.findings.any (·.needsHuman) = true then escalate others payload run pass
  else if pass.findings.any (·.isBlocking) = true then
    settleBlocking others deps payload run pr pass
  else approve others payload pr pass pass.findings

/-- The snapshot of the prompt, for an adapter that reports one. -/
def recordPromptSnapshot (output : ReviewerOutput) : Sql Unit :=
  if output.promptSnapshot = true then agentStatement else pure ()

/-- The review pass: the reviewer's run, and its findings. -/
def reviewPass (run : FeatureRun) (pr : PullRequest) : Sql ReviewPass := do
  let reviewCycle ← stepAt others 5 (query fun db => 
    db.nextReviewCycle deps.dialect payload.featureRunId)
  orThrow deps.reviewerAdapter
  let feature ← stepAt others 6 (query fun db =>
    db.featureRequests.find? fun request => request.id == run.featureRequestId)
  let (reviewerRunId, output) ← recordAgentRun payload.projectId run.featureRequestId
    (fun output => output.tokensUsed.map deps.computeCostUsd) (deps.reviewer {
      projectId := payload.projectId
      featureRunId := payload.featureRunId
      prNumber := pr.prNumber
      reviewCycle
      correlationId := payload.correlationId
      featureTitle := feature.map (·.title) })
  recordPromptSnapshot output
  let findings ← orThrow (normalizeReviewerFindings output)
  pure { reviewerRunId, reviewCycle, findings }

/-- The prior review of the pull request's head, when the mirror names one. -/
def priorReview (pr : PullRequest) : Sql (Option ReviewOccurrenceMarker) :=
  match truthy pr.headSha with
  | none => pure none
  | some headSha => stepAt others 3 (query fun db =>
      db.findReviewOccurrenceMarker payload.featureRunId headSha)

/-- The task for a run under review with a pull request, up to the findings of the reviewer. -/
def beginPullRequest (run : FeatureRun) (pr : PullRequest) :
    Sql (ReviewOutcome ⊕ FeatureRun × PullRequest × ReviewPass) := do
  let prior ← priorReview others payload pr
  if prior.isSome = true then pure (.inl (payload.notReviewed (some .approved)))
  else do
    let proceed ← stepAt others 4 (budgetPreflight deps.estimatedCostUsd deps.applyBudgetDecision
      payload.projectId run.featureRequestId)
    if proceed = true then do
      let pass ← reviewPass others deps payload run pr
      pure (.inr (run, pr, pass))
    else pure (.inl (payload.notReviewed none))

/-- The task, up to the findings of the reviewer: a result without them, or the review pass. -/
def beginReview : Sql (ReviewOutcome ⊕ FeatureRun × PullRequest × ReviewPass) := do
  let row ← stepAt others 0 (query fun db =>
    db.findFeatureRun payload.featureRunId payload.projectId)
  match row with
  | none => pure (.inl (payload.notReviewed none))
  | some run =>
    if run.currentExecutionState = .changesRequested then do
      advanceToFixing others payload run.version
      pure (.inl { result := payload.reviewed .changesRequested })
    else if run.currentExecutionState = .underReview then do
      let repo ← stepAt others 1 (query fun db =>
        db.repositories.find? fun repo => repo.projectId == payload.projectId)
      let pr ← stepAt others 2 (query fun db => db.findPullRequest payload.featureRunId)
      match repo, pr with
      | some _, some pr => beginPullRequest others deps payload run pr
      | _, _ => pure (.inl (payload.notReviewed none))
    else pure (.inl (payload.notReviewed none))

/-- `runImpl` of run-review. -/
def runReview : Sql ReviewOutcome := do
  let begun ← beginReview others deps payload
  match begun with
  | .inl outcome => pure outcome
  | .inr (run, pr, pass) => decideReview others deps payload run pr pass

end Task

/-! ### What the statements leave alone -/

section Frames

variable {others : TaskOthers} {deps : RunReviewDeps} {payload : RunReviewPayload}

theorem frame_agentStatement_runtime : Frame Session.runtime agentStatement :=
  frame_execute_runtime _

theorem frame_recordAgentRun_runtime {α : Type} (projectId featureRequestId : String)
    (costUsd : α → Option ℚ) (answer : Except Failure α) :
    Frame Session.runtime (recordAgentRun projectId featureRequestId costUsd answer) := by
  refine frame_bind frame_generateId_runtime fun _ =>
    frame_bind frame_agentStatement_runtime fun _ =>
    frame_tryCatch (frame_bind (frame_orThrow _) fun output =>
      frame_bind frame_agentStatement_runtime fun _ => frame_bind ?_ fun _ => frame_pure _)
      fun _ => frame_bind frame_agentStatement_runtime fun _ => frame_throw _
  rcases costUsd output with _ | amount
  · exact frame_pure _
  · exact frame_bind frame_isoNow fun _ => frame_bind frame_generateId_runtime fun _ =>
      frame_execute_runtime _

theorem frame_reviewPass_runtime (run : FeatureRun) (pr : PullRequest) :
    Frame Session.runtime (reviewPass others deps payload run pr) :=
  frame_bind (frame_stepAt_runtime 5 (frame_query_runtime _)) fun _ =>
    frame_bind (frame_orThrow _) fun _ =>
    frame_bind (frame_stepAt_runtime 6 (frame_query_runtime _)) fun _ =>
    frame_bind (frame_recordAgentRun_runtime _ _ _ _) fun _ =>
    frame_bind (frame_ite frame_agentStatement_runtime (frame_pure _)) fun _ =>
    frame_bind (frame_orThrow _) fun _ => frame_pure _

theorem frame_findRepeatedFinding_runtime (featureRunId : String) (pass : ReviewPass) :
    Frame Session.runtime (findRepeatedFinding featureRunId pass) :=
  frame_ite (frame_pure _) (frame_query_runtime _)

theorem frame_arbitrate_runtime (run : FeatureRun) (pass : ReviewPass) (prior : ReviewFinding) :
    Frame Session.runtime (arbitrate others deps payload run pass prior) :=
  frame_bind (frame_stepAt_runtime 8 (frame_bind (frame_execute_runtime _) fun _ => frame_pure _))
    fun _ => frame_bind (frame_orThrow _) fun _ =>
    frame_bind (frame_stepAt_runtime 9 (frame_query_runtime _)) fun _ =>
    frame_bind (frame_recordAgentRun_runtime _ _ _ _) fun _ =>
    frame_bind (frame_stepAt_runtime 10 (frame_execute_runtime _)) fun _ => frame_pure _

/-- A preflight check that lets the task go on has read the budget, and has decided nothing. -/
theorem budgetPreflight_proceeds {estimatedCostUsd : Option ℚ}
    {applyBudgetDecision : WorkflowState → Sql Unit} {projectId featureRequestId : String}
    {s s' : Session}
    (h : exec (budgetPreflight estimatedCostUsd applyBudgetDecision projectId featureRequestId) s =
      (.ok true, s')) : s'.db = s.db ∧ s'.runtime = s.runtime := by
  unfold budgetPreflight at h
  rcases estimatedCostUsd with _ | estimate
  · obtain ⟨-, rfl⟩ := Prod.mk.inj h
    exact ⟨rfl, rfl⟩
  · obtain ⟨now, s₁, hnow, h₁⟩ := exec_bind_ok.mp h
    obtain ⟨-, rfl⟩ := Prod.mk.inj hnow
    obtain ⟨forecast, s₂, hforecast, h₂⟩ := exec_bind_ok.mp h₁
    have hread := (query_ok hforecast).2
    rw [exec_ite] at h₂
    split at h₂
    · obtain ⟨-, rfl⟩ := Prod.mk.inj h₂
      exact hread
    · obtain ⟨state, s₃, -, h₃⟩ := exec_bind_ok.mp h₂
      rcases state with _ | state
      · simp at h₃
      · obtain ⟨_, s₄, -, h₄⟩ := exec_bind_ok.mp h₃
        simp at h₄

end Frames

/-! ### What a task did -/

section Rules

variable {others : TaskOthers} {deps : RunReviewDeps} {payload : RunReviewPayload}
  {run : FeatureRun} {pr : PullRequest} {pass : ReviewPass} {findings : List ReviewFindingInsert}
  {outcome : ReviewOutcome} {s s' : Session}

/-- A report of an escalation: `EscalateToHumanCommand` was dispatched with the findings of the
pass, and returned. -/
def Escalated (others : TaskOthers) (payload : RunReviewPayload) (now : ℤ)
    (outcome : ReviewOutcome) : Prop :=
  ∃ version commandId pass s₁ s₂ result d,
    outcome = {
      result := payload.reviewed .escalated
      escalation := some { pass, command := d } } ∧
    s₁.runtime.now = now ∧
    exec (dispatchTask others 0 (payload.escalationRequest version commandId pass)) s₁ =
      (.ok (result, d), s₂)

/-- What a task that returned reports. -/
def ReviewReport (others : TaskOthers) (payload : RunReviewPayload) (now : ℤ)
    (outcome : ReviewOutcome) : Prop :=
  (outcome.result.decision ≠ some .escalated ∧ outcome.escalation = none) ∨
    Escalated others payload now outcome

/-- A task that reports another decision has escalated nothing. -/
theorem reviewReport_of_exec {result : RunReviewResult} {now : ℤ}
    (hdecision : result.decision ≠ some .escalated)
    (h : exec (pure { result } : Sql ReviewOutcome) s = (.ok outcome, s')) :
    ReviewReport others payload now outcome := by
  obtain ⟨hout, -⟩ := Prod.mk.inj h
  obtain rfl := Except.ok.inj hout
  exact Or.inl ⟨hdecision, rfl⟩

theorem escalate_ok (h : exec (escalate others payload run pass) s = (.ok outcome, s')) :
    ReviewReport others payload s.runtime.now outcome := by
  obtain ⟨commandId, s₁, hid, h₁⟩ := exec_bind_ok.mp h
  obtain ⟨-, rfl⟩ := Prod.mk.inj hid
  obtain ⟨⟨result, d⟩, s₂, hdispatch, h₂⟩ := exec_bind_ok.mp h₁
  obtain ⟨hout, rfl⟩ := Prod.mk.inj h₂
  obtain rfl := Except.ok.inj hout
  refine Or.inr ⟨run.version, commandId, pass, _, _, result, d, rfl, ?_, hdispatch⟩
  rfl

theorem settle_ok (h : exec (settle others payload run pr pass findings) s = (.ok outcome, s')) :
    ReviewReport others payload s.runtime.now outcome := by
  rw [settle, exec_ite] at h
  split at h
  · obtain ⟨version, s₁, -, h₁⟩ := exec_bind_ok.mp h
    rcases version with _ | version
    · exact reviewReport_of_exec (Option.some_ne_none _).symm h₁
    · obtain ⟨_, s₂, -, h₂⟩ := exec_bind_ok.mp h₁
      exact reviewReport_of_exec (by rintro ⟨⟩) h₂
  · obtain ⟨_, s₁, -, h₁⟩ := exec_bind_ok.mp h
    exact reviewReport_of_exec (by rintro ⟨⟩) h₁

theorem settleBlocking_ok
    (h : exec (settleBlocking others deps payload run pr pass) s = (.ok outcome, s')) :
    ReviewReport others payload s.runtime.now outcome := by
  rw [settleBlocking, exec_ite] at h
  split at h
  · exact escalate_ok h
  · obtain ⟨repeated, s₁, hrepeated, h₁⟩ := exec_bind_ok.mp h
    have hrt₁ : s₁.runtime = s.runtime :=
      (frame_stepAt_runtime 7 (frame_findRepeatedFinding_runtime _ _)).of_exec hrepeated
    rw [← hrt₁]
    rcases repeated with _ | prior
    · exact settle_ok h₁
    · rcases hname : truthy payload.arbiterAdapterName with _ | name
      · simp [hname] at h₁
      · simp only [hname] at h₁
        obtain ⟨effective, s₂, harbitrate, h₂⟩ := exec_bind_ok.mp h₁
        have hrt₂ : s₂.runtime = s₁.runtime := (frame_arbitrate_runtime _ _ _).of_exec harbitrate
        rw [← hrt₂]
        rcases effective with _ | effective
        · exact escalate_ok h₂
        · exact settle_ok h₂

theorem decideReview_ok
    (h : exec (decideReview others deps payload run pr pass) s = (.ok outcome, s')) :
    ReviewReport others payload s.runtime.now outcome := by
  rw [decideReview, exec_ite] at h
  split at h
  · exact escalate_ok h
  · rw [exec_ite] at h
    split at h
    · exact settleBlocking_ok h
    · obtain ⟨_, s₁, -, h₁⟩ := exec_bind_ok.mp h
      exact reviewReport_of_exec (by rintro ⟨⟩) h₁

/-- A relation that every step of other sessions respects. -/
structure Respected (others : TaskOthers) (R : Db → Db → Prop) : Prop where
  refl : ∀ db, R db db
  trans : ∀ db db' db'', R db db' → R db' db'' → R db db''
  others : ∀ moment db, R db (others moment db)

theorem priorReview_ok {prior : Option ReviewOccurrenceMarker}
    (h : exec (priorReview others payload pr) s = (.ok prior, s')) :
    s'.runtime = s.runtime ∧ ∀ R, Respected others R → R s.db s'.db := by
  unfold priorReview at h
  split at h
  · obtain ⟨-, rfl⟩ := Prod.mk.inj h
    exact ⟨rfl, fun R hR => hR.refl _⟩
  · obtain ⟨-, hdb, hrt⟩ := stepAt_query_ok h
    refine ⟨hrt, fun R hR => ?_⟩
    rw [hdb]
    exact hR.others _ _

/-- What the first half of the task comes to: a result without an escalation, or a review pass,
before which only other sessions have written. -/
def BeginReport (others : TaskOthers) (deps : RunReviewDeps) (payload : RunReviewPayload)
    (s s' : Session) (begun : ReviewOutcome ⊕ FeatureRun × PullRequest × ReviewPass) : Prop :=
  match begun with
  | .inl outcome => outcome.result.decision ≠ some .escalated ∧ outcome.escalation = none
  | .inr (run, pr, pass) => ∃ s₁, s₁.runtime = s.runtime ∧
      (∀ R, Respected others R → R s.db s₁.db) ∧
      exec (reviewPass others deps payload run pr) s₁ = (.ok pass, s')

theorem beginReport_of_exec {result : RunReviewResult} {s₀ : Session}
    {begun : ReviewOutcome ⊕ FeatureRun × PullRequest × ReviewPass}
    (hdecision : result.decision ≠ some .escalated)
    (h : exec (pure (.inl { result }) : Sql _) s = (.ok begun, s')) :
    BeginReport others deps payload s₀ s' begun := by
  obtain ⟨hout, -⟩ := Prod.mk.inj h
  obtain rfl := Except.ok.inj hout
  exact ⟨hdecision, rfl⟩

theorem beginPullRequest_ok {begun : ReviewOutcome ⊕ FeatureRun × PullRequest × ReviewPass}
    (h : exec (beginPullRequest others deps payload run pr) s = (.ok begun, s')) :
    BeginReport others deps payload s s' begun := by
  obtain ⟨prior, s₁, hprior, h₁⟩ := exec_bind_ok.mp h
  obtain ⟨hrt₁, hR₁⟩ := priorReview_ok hprior
  rw [exec_ite] at h₁
  split at h₁
  · exact beginReport_of_exec (by rintro ⟨⟩) h₁
  · obtain ⟨proceed, s₂, hproceed, h₂⟩ := exec_bind_ok.mp h₁
    rcases proceed with _ | _
    · exact beginReport_of_exec (Option.some_ne_none _).symm h₂
    · obtain ⟨_, s₀, hothers, hpreflight⟩ := exec_bind_ok.mp hproceed
      obtain ⟨-, rfl⟩ := Prod.mk.inj hothers
      obtain ⟨hdb₂, hrt₂⟩ := budgetPreflight_proceeds hpreflight
      obtain ⟨pass, s₃, hpass, h₃⟩ := exec_bind_ok.mp h₂
      obtain ⟨hbegun, rfl⟩ := Prod.mk.inj h₃
      obtain rfl := Except.ok.inj hbegun
      refine ⟨s₂, hrt₂.trans hrt₁, fun R hR => ?_, hpass⟩
      rw [hdb₂]
      exact hR.trans _ _ _ (hR₁ R hR) (hR.others _ _)

/-- **What the first half of the task did.** -/
theorem beginReview_ok {begun : ReviewOutcome ⊕ FeatureRun × PullRequest × ReviewPass}
    (h : exec (beginReview others deps payload) s = (.ok begun, s')) :
    BeginReport others deps payload s s' begun := by
  obtain ⟨row, s₁, hrow, h₁⟩ := exec_bind_ok.mp h
  obtain ⟨-, hdb₁, hrt₁⟩ := stepAt_query_ok hrow
  rcases row with _ | run
  · exact beginReport_of_exec (Option.some_ne_none _).symm h₁
  · replace h₁ : exec (ite _ _ _ : Sql _) s₁ = (.ok begun, s') := h₁
    rw [exec_ite] at h₁
    split at h₁
    · obtain ⟨_, s₂, -, h₂⟩ := exec_bind_ok.mp h₁
      exact beginReport_of_exec (by rintro ⟨⟩) h₂
    · rw [exec_ite] at h₁
      split at h₁
      · obtain ⟨repo, s₂, hrepo, h₂⟩ := exec_bind_ok.mp h₁
        obtain ⟨-, hdb₂, hrt₂⟩ := stepAt_query_ok hrepo
        obtain ⟨pr, s₃, hpr, h₃⟩ := exec_bind_ok.mp h₂
        obtain ⟨-, hdb₃, hrt₃⟩ := stepAt_query_ok hpr
        split at h₃
        · have hreport := beginPullRequest_ok h₃
          rcases begun with outcome | ⟨run', pr', pass⟩
          · exact hreport
          · obtain ⟨s₄, hrt₄, hR₄, hpass⟩ := hreport
            refine ⟨s₄, by rw [hrt₄, hrt₃, hrt₂, hrt₁], fun R hR => ?_, hpass⟩
            have hbefore : R s.db s₃.db := by
              rw [hdb₃, hdb₂, hdb₁]
              exact hR.trans _ _ _ (hR.trans _ _ _ (hR.others _ _) (hR.others _ _)) (hR.others _ _)
            exact hR.trans _ _ _ hbefore (hR₄ R hR)
        · exact beginReport_of_exec (Option.some_ne_none _).symm h₃
      · exact beginReport_of_exec (Option.some_ne_none _).symm h₁

/-- **What a task that returned reports**: no escalation, or one whose command was dispatched with
the findings of the review pass. -/
theorem runReview_ok (h : exec (runReview others deps payload) s = (.ok outcome, s')) :
    ReviewReport others payload s.runtime.now outcome := by
  obtain ⟨begun, s₁, hbegin, h₁⟩ := exec_bind_ok.mp h
  have hreport := beginReview_ok hbegin
  rcases begun with early | ⟨run, pr, pass⟩
  · obtain ⟨hout, -⟩ := Prod.mk.inj h₁
    obtain rfl := Except.ok.inj hout
    exact Or.inl hreport
  · obtain ⟨s₂, hrt₂, -, hpass⟩ := hreport
    have hrt₁ : s₁.runtime = s₂.runtime := (frame_reviewPass_runtime run pr).of_exec hpass
    have hdecided := decideReview_ok h₁
    rw [hrt₁, hrt₂] at hdecided
    exact hdecided

end Rules

end MiniCoder
