import MiniCoder.Commands.FeatureCommand

/-!
# Reconciliation with the source host

`reconcileGithubState`: the run is read once, then up to five steps bring it up to what was observed
of its pull request, each by one command under a key of its own; the mirror row is synced before and
after.  `ReconcileRule` has one member for each command that a step may issue, and `select` is the
cascade of conditions that chooses it.

Other sessions may commit between any two statements of a call: `others` says what they leave, and a
call that runs alone is one whose `others` change nothing.  Each step keeps, as a ghost, the tables
its command found and left (`Dispatch`).
-/

open Storage Storage.Action

namespace MiniCoder

/-! ### What was observed -/

/-- `ObservedPullRequestState`, with the columns that only the opening of a pull request records. -/
structure ObservedPullRequest extends ObservedPullRequestState where
  prNumber : ℕ
  branchName : String
  baseBranch : String
  deriving DecidableEq, Repr

/-- `ReconcileGithubStateOptions`. -/
structure ReconcileOptions where
  featureRunId : String
  projectId : String
  observed : ObservedPullRequest
  correlationId : String
  lockContext : Option LockContext := none

/-- `ReconciliationAction`. -/
inductive ReconciliationAction
  | none
  | prOpened
  | ciRunning
  | ciPassed
  | ciFailed
  | changesRequested
  | changesRequestedAfterCiFail
  | fixingStarted
  | escalated
  | lockRequired
  deriving DecidableEq, Repr

/-! ### The rules -/

/-- The commands of `runStep`, one member for each key they are issued under. -/
inductive ReconcileRule
  /-- The pull request was closed without a merge. -/
  | closed
  | prOpened
  | ciRunning
  | ciPassed
  | ciFailed
  /-- The CI checks failed once too often. -/
  | ciLimit
  | afterCiFail
  | startFixing
  /-- The review asked for changes once too often. -/
  | reviewLimit
  | changesRequested
  deriving DecidableEq, Repr

open FeatureExecutionState in
/-- `terminalStates` of `runStep`. -/
def reconcileTerminalStates : List FeatureExecutionState := [merged, humanRequired, blocked, failed]

namespace ReconcileRule

/-- The cascade of `runStep`, before the fix attempts are counted. -/
def select (observed : ObservedPullRequest) (currentState : FeatureExecutionState) :
    Option ReconcileRule :=
  if observed.state = "closed" ∧ observed.mergedAt = none ∧
      currentState ∉ reconcileTerminalStates then some closed
  else
    match currentState with
    | .codePushed => some prOpened
    | .prOpened =>
      if observed.ciStatus = "running" then some ciRunning
      -- the `ci_running` webhook was missed: the step after this one records the outcome
      else if observed.ciStatus = "passed" ∨ observed.ciStatus = "failed" then some ciRunning
      else none
    | .ciRunning =>
      if observed.ciStatus = "passed" then some ciPassed
      else if observed.ciStatus = "failed" then some ciFailed
      else none
    | .ciFailed => some afterCiFail
    | .changesRequested => some startFixing
    | .underReview => if observed.reviewState = "changes_requested" then some changesRequested else none
    | _ => none

/-- The rule at a number of fix attempts. -/
def limited (fixAttemptCount : ℕ) : ReconcileRule → ReconcileRule
  | afterCiFail => if fixAttemptThreshold ≤ fixAttemptCount then ciLimit else afterCiFail
  | changesRequested => if fixAttemptThreshold ≤ fixAttemptCount then reviewLimit else changesRequested
  | rule => rule

/-- The rule reads the fix attempts first. -/
def countsAttempts : ReconcileRule → Bool
  | afterCiFail | changesRequested => true
  | _ => false

/-- The rule's command holds the execution lane. -/
def needsLock : ReconcileRule → Bool
  | prOpened | ciRunning | startFixing => true
  | _ => false

def action : ReconcileRule → ReconciliationAction
  | closed | ciLimit | reviewLimit => .escalated
  | prOpened => .prOpened
  | ciRunning => .ciRunning
  | ciPassed => .ciPassed
  | ciFailed => .ciFailed
  | afterCiFail => .changesRequestedAfterCiFail
  | startFixing => .fixingStarted
  | changesRequested => .changesRequested

def command : ReconcileRule → FeatureCommand
  | closed | ciLimit | reviewLimit => .escalateToHuman
  | prOpened => .recordPrOpened
  | ciRunning => .recordCiRunning
  | ciPassed => .recordCiPassed
  | ciFailed => .recordCiFailed
  | afterCiFail => .requestChangesAfterCiFail
  | startFixing => .startFixing
  | changesRequested => .recordChangesRequested

/-- The idempotency key of the rule's command. -/
def key (opts : ReconcileOptions) (expectedVersion : ℕ) (rule : ReconcileRule) : String :=
  let run := opts.featureRunId
  let pr := opts.observed.prNumber
  let sha := opts.observed.headSha.getD "nosha"
  match rule with
  | closed => s!"escalate-human-github:{run}"
  | prOpened => s!"record-pr-opened:{run}:{pr}:{sha}"
  | ciRunning => s!"record-ci-running:{run}:{pr}:{sha}"
  | ciPassed => s!"record-ci-passed:{run}:{pr}:{sha}"
  | ciFailed => s!"record-ci-failed:{run}:{pr}:{sha}"
  | ciLimit => s!"escalate-human-ci-limit:{run}"
  | afterCiFail => s!"changes-requested-after-ci:{run}:{expectedVersion}"
  | startFixing => s!"start-fixing:{run}:{expectedVersion}"
  | reviewLimit => s!"escalate-human-review:{run}"
  | changesRequested => s!"changes-requested:{run}:{pr}:{sha}"

end ReconcileRule

namespace ReconcileOptions

variable (opts : ReconcileOptions)

/-- The envelope of a step's command. -/
def envelope {P : Type} (commandId key : String) (payload : P)
    (lockContext : Option LockContext := none) : CommandEnvelope P where
  commandId
  idempotencyKey := key
  payload
  actor := ⟨"github-reconciliation", .admin, .system⟩
  correlationId := opts.correlationId
  lockContext

/-- The run, at the version the step expects. -/
def ref (expectedVersion : ℕ) : FeatureRunRef where
  featureRunId := opts.featureRunId
  projectId := opts.projectId
  expectedVersion

end ReconcileOptions

/-- The command of a rule. -/
def ReconcileRule.request (opts : ReconcileOptions) (currentState : FeatureExecutionState)
    (expectedVersion : ℕ) (commandId : String) (rule : ReconcileRule) : Request :=
  let ref := opts.ref expectedVersion
  let key := rule.key opts expectedVersion
  let pr := opts.observed.prNumber
  let escalate (reason : String) : Request :=
    ⟨.escalateToHuman, opts.envelope commandId key { ref with reason }⟩
  match rule with
  | closed => escalate (s!"The linked repository's PR #{pr} closed without merging while feature " ++
      s!"run was in state '{currentState.literal}'")
  | prOpened => ⟨.recordPrOpened, opts.envelope commandId key {
      ref with
      prNumber := pr
      branchName := opts.observed.branchName
      baseBranch := opts.observed.baseBranch
      headSha := opts.observed.headSha } opts.lockContext⟩
  | ciRunning => ⟨.recordCiRunning,
      opts.envelope commandId key { ref with checkRunId := s!"pr-{pr}" } opts.lockContext⟩
  | ciPassed => ⟨.recordCiPassed,
      opts.envelope commandId key { ref with checkRunId := s!"pr-{pr}" }⟩
  | ciFailed => ⟨.recordCiFailed,
      opts.envelope commandId key { ref with checkRunId := s!"pr-{pr}" }⟩
  | ciLimit => escalate
      s!"Fix-attempt threshold ({fixAttemptThreshold}) reached after repeated CI failures"
  | afterCiFail => ⟨.requestChangesAfterCiFail, opts.envelope commandId key ref⟩
  | startFixing => ⟨.startFixing, opts.envelope commandId key ref opts.lockContext⟩
  | reviewLimit => escalate
      s!"Fix-attempt threshold ({fixAttemptThreshold}) reached after repeated review cycles"
  | changesRequested => ⟨.recordChangesRequested,
      opts.envelope commandId key { ref with reviewId := s!"pr-{pr}-review" }⟩

/-! ### Steps -/

/-- Where other sessions may commit during a call; the steps are numbered down. -/
inductive ReconcileMoment
  | sync
  | count (left : ℕ)
  | lookup (left : ℕ)
  | transaction (left : ℕ)
  | resync

/-- What other sessions make of the tables at each moment of a call. -/
abbrev Others := ReconcileMoment → Db → Db

/-- Nobody else is at work. -/
def alone : Others := fun _ db => db

/-- A command of a step: the tables when its key was looked up, when its transaction began, and when
it returned. -/
structure Dispatch where
  request : Request
  looked : Db
  found : Db
  left : Db

/-- What `runStep` returns, and the command it issued. -/
structure ReconcileStep where
  action : ReconciliationAction
  resultingState : Option FeatureExecutionState := none
  dispatch : Option Dispatch := none

section Steps

variable (others : Others)

def meanwhile (moment : ReconcileMoment) : Sql Unit := write fun s =>
  { s with db := others moment s.db }

/-- `executor.execute`. -/
def dispatch (left : ℕ) (request : Request) : Sql (CommandResult × Dispatch) := do
  meanwhile others (.lookup left)
  let looked ← read (·.db)
  let cached ← precheck request.handler request.envelope
  match cached with
  | some result => pure (result, { request, looked, found := looked, left := looked })
  | none => do
    meanwhile others (.transaction left)
    let found ← read (·.db)
    let result ← request.handler.execute request.envelope
    let after ← read (·.db)
    pure (result, { request, looked, found, left := after })

/-- `SELECT fix_attempt_count FROM feature_runs WHERE id = ?`. -/
def Db.fixAttemptCount (db : Db) (featureRunId : String) : ℕ :=
  ((db.runById featureRunId).map (·.fixAttemptCount)).getD 0

/-- The rule of a step, at the fix attempts it reads. -/
def limitRule (left : ℕ) (opts : ReconcileOptions) (rule : ReconcileRule) : Sql ReconcileRule :=
  if rule.countsAttempts = true then do
    meanwhile others (.count left)
    let fixAttemptCount ← query fun db => db.fixAttemptCount opts.featureRunId
    pure (rule.limited fixAttemptCount)
  else pure rule

/-- `runStep`. -/
def runStep (left : ℕ) (opts : ReconcileOptions) (currentState : FeatureExecutionState)
    (expectedVersion : ℕ) : Sql (Option ReconcileStep) :=
  match ReconcileRule.select opts.observed currentState with
  | none => pure none
  | some rule =>
    if rule.needsLock = true ∧ opts.lockContext = none then
      pure (some { action := .lockRequired })
    else do
      let rule ← limitRule others left opts rule
      let commandId ← generateId
      let (result, dispatched) ←
        dispatch others left (rule.request opts currentState expectedVersion commandId)
      pure (some {
        action := rule.action
        resultingState := FeatureExecutionState.ofLiteral? result.resultingState
        dispatch := some dispatched })

/-! ### Calls -/

/-- `MAX_RECONCILE_STEPS`. -/
def maxReconcileSteps : ℕ := 5

/-- The variables of the loop. -/
structure CatchUp where
  steps : List ReconcileStep := []
  currentState : FeatureExecutionState
  expectedVersion : ℕ
  resultingState : Option FeatureExecutionState := none

/-- The loop of `reconcileGithubState`, with the number of steps that are left. -/
def catchUp (opts : ReconcileOptions) : ℕ → CatchUp → Sql CatchUp
  | 0, c => pure c
  | left + 1, c => do
    let stepResult ← runStep others left opts c.currentState c.expectedVersion
    match stepResult with
    | none => pure c
    | some step =>
      if step.action = .lockRequired then pure { c with steps := c.steps ++ [step] }
      else
        catchUp opts left {
          steps := c.steps ++ [step]
          currentState := step.resultingState.getD c.currentState
          expectedVersion := nextVersion c.expectedVersion
          resultingState := step.resultingState }

/-- `ReconcileGithubStateResult`, with the steps it lists. -/
structure ReconcileResult where
  steps : List ReconcileStep
  resultingState : Option FeatureExecutionState

namespace ReconcileResult

/-- Every action of the call, in order. -/
def actions (result : ReconcileResult) : List ReconciliationAction := result.steps.map (·.action)

/-- The last action. -/
def action (result : ReconcileResult) : ReconciliationAction := result.actions.getLast?.getD .none

end ReconcileResult

/-- `reconcileGithubState`. -/
def reconcileGithubState (opts : ReconcileOptions) : Sql ReconcileResult := do
  let row ← query fun db => db.findFeatureRun opts.featureRunId opts.projectId
  match row with
  | none => throw (.error (s!"reconcileGithubState: feature run {opts.featureRunId} not found in " ++
      s!"project {opts.projectId}"))
  | some run => do
    let sync := transaction
      (syncPullRequestObservedState opts.featureRunId opts.observed.toObservedPullRequestState)
    meanwhile others .sync
    sync
    let c ← catchUp others opts maxReconcileSteps {
      currentState := run.currentExecutionState
      expectedVersion := run.version }
    -- a row that the loop has created shows the defaults until this sync
    meanwhile others .resync
    sync
    pure { steps := c.steps, resultingState := c.resultingState }

end Steps

end MiniCoder
