import MiniCoder.Coder.Workspace
import MiniCoder.Commands.FeatureCommand
import MiniCoder.Locks.Manager

/-!
# The run-coder task

One run of the task: it loads the feature run, asks the coder adapter for a commit, records the
commit under the execution lane, and opens a pull request.

* `codexCoderRun_ok`: the commit that the adapter reports.
* `runImpl_pushed`: a task that reported a push dispatched its command for the adapter's commit, and
  the command returned.
-/

open Storage Storage.Action

namespace MiniCoder

/-! ### What the task takes from outside -/

/-- `RunCoderPayload`, but for the adapter's name. -/
structure RunCoderPayload where
  projectId : String
  featureRunId : String
  correlationId : String
  deriving DecidableEq, Repr

/-- `RunCoderResult`. -/
structure RunCoderResult where
  projectId : String
  featureRunId : String
  pushed : Bool
  prNumber : Option ℕ
  deriving DecidableEq, Repr

/-- The result of a task that pushed nothing. -/
def notPushed (payload : RunCoderPayload) : RunCoderResult where
  projectId := payload.projectId
  featureRunId := payload.featureRunId
  pushed := false
  prNumber := none

/-- What a code generation reports: the tokens it read and wrote. -/
structure TokensUsed where
  input : ℕ
  output : ℕ
  deriving DecidableEq, Repr

/-- What the code-generation provider answers. -/
structure CodeGeneration where
  files : List GeneratedFile
  tokensUsed : Option TokensUsed := none
  deriving DecidableEq, Repr

/-- `CodexCoderOutput`, but for the timings of the tool operations. -/
structure CoderOutput where
  commitSha : String
  branchName : String
  filesChanged : ℕ
  tokensUsed : Option TokensUsed
  deriving DecidableEq, Repr

/-- The services and the environment of a task. -/
structure RunCoderDeps extends CommandRunner where
  /-- The provider's answer to the request of this run. -/
  generation : Except String CodeGeneration
  /-- The adapter of the payload: resolved, built from the environment, and allowed to run. -/
  adapter : Except CoderFailure Unit := .ok ()
  /-- `CODE_GEN_ESTIMATED_COST_USD`. -/
  estimatedCostUsd : Option ℚ := none
  /-- `applyBudgetDecision` on a forecast hard breach, after which the task returns. -/
  applyBudgetDecision : WorkflowState → Sql Unit := fun _ => pure ()
  /-- The prices of a thousand tokens. -/
  pricePer1kInput : ℚ := 15 / 100000
  pricePer1kOutput : ℚ := 6 / 10000
  /-- The pull request the SCM opens for a branch, a base and a title, unless it refuses. -/
  createPullRequest : String → String → String → Option ℕ := fun _ _ _ => none

/-- Throws the error of a failed computation. -/
def orFail {α : Type} : Except CoderFailure α → Coder α
  | .ok a => pure a
  | .error e => throw e

/-- A computation on the task's database connection. -/
def onDb {α : Type} (m : Sql α) : Coder α :=
  within (·.session) (fun session w => { w with session }) .failure m

/-! ### The adapter -/

/-- Reports a violation of the diff guard as an invalid output of the adapter. -/
def asAdapterRun {α : Type} (body : Coder α) : Coder α :=
  tryCatch body fun
    | .diffGuardViolation message => throw (.adapterRun "invalid_output" message)
    | e => throw e

/-- What `CodexCoderAdapter.run` does between the start and the removal of its sandbox. -/
def generateAndPush (deps : RunCoderDeps) (featureRunId featureTitle : String) :
    Coder CoderOutput := do
  prepareBranch deps.toCommandRunner featureRunId
  let _ ← listRepoFiles deps.toCommandRunner
  match deps.generation with
  | .error message =>
    throw (.adapterRun "provider_unavailable" s!"code generation failed: {message}")
  | .ok generation => do
    let push ← asAdapterRun
      (commitAndPush deps.toCommandRunner featureRunId featureTitle generation.files)
    pure {
      commitSha := push.commitSha
      branchName := push.branchName
      filesChanged := push.filesChanged
      tokensUsed := generation.tokensUsed }

/-- `CodexCoderAdapter.run`. -/
def codexCoderRun (deps : RunCoderDeps) (featureRunId featureTitle : String) :
    Coder CoderOutput := do
  deps.git "sandbox.start" some
  ensuring (generateAndPush deps featureRunId featureTitle) (deps.git "sandbox.remove" some)

/-! ### The record of the run -/

/-- A statement on the tables of the agent runs, which no modelled function reads. -/
def agentStatement : Sql Unit := execute fun db => some ((), db)

/-- `AgentRunRecorder.insertCostRecord`. -/
def insertCostRecord (projectId featureRequestId : String) (amount : ℚ) : Sql Unit := do
  let recordedAt ← isoNow
  let id ← generateId
  execute fun db => (db.costRecords.insert? {
    id
    projectId
    featureRequestId := some featureRequestId
    scope := .feature
    amount
    recordedAt }).map fun t => ((), { db with costRecords := t })

/-- `computeCostUsd`. -/
def computeCostUsd (deps : RunCoderDeps) (tokens : TokensUsed) : ℚ :=
  tokens.input / 1000 * deps.pricePer1kInput + tokens.output / 1000 * deps.pricePer1kOutput

/-- The cost of a run that reports its tokens. -/
def recordCost (deps : RunCoderDeps) (projectId featureRequestId : String) :
    Option TokensUsed → Sql Unit
  | none => pure ()
  | some tokens => insertCostRecord projectId featureRequestId (computeCostUsd deps tokens)

/-- The rows of a run that succeeded: its state, its cost, and its tool operations. -/
def recordSuccess (deps : RunCoderDeps) (projectId featureRequestId : String)
    (output : CoderOutput) : Sql Unit := do
  agentStatement
  recordCost deps projectId featureRequestId output.tokensUsed
  agentStatement

/-- `AgentRunRecorder.record`: the id of the agent run, and the adapter's output. -/
def record (deps : RunCoderDeps) (projectId featureRequestId : String) (run : Coder CoderOutput) :
    Coder (String × CoderOutput) := do
  let agentRunId ← onDb generateId
  onDb agentStatement
  tryCatch
    (do
      let output ← run
      onDb (recordSuccess deps projectId featureRequestId output)
      pure (agentRunId, output))
    fun e => do
      onDb agentStatement
      throw e

/-! ### The command -/

/-- `isTransientRace`, with the command errors that run-coder expects. -/
def isTransientRace : CoderFailure → Bool
  | .failure (.lockConflict ..) | .failure (.optimisticLock ..) | .failure (.staleFence ..) => true
  | .failure (.command problem) | .failure (.mergeGateBlocked _ problem) =>
    problem.type = "concurrent-command" || problem.type = "not-found"
  | _ => false

/-- The result of `body`, or `none` when it lost a race. -/
def unlessRaced {α : Type} (body : Coder α) : Coder (Option α) :=
  tryCatch (do let a ← body; pure (some a)) fun e =>
    if isTransientRace e then pure none else throw e

/-- The key under which the push of a commit is recorded. -/
def codePushedKey (featureRunId commitSha : String) : String :=
  s!"record-code-pushed:{featureRunId}:{commitSha}"

/-- The payload that records a commit; a fix cycle resolves the findings that were open. -/
def codePushedPayload (payload : RunCoderPayload) (expectedVersion : ℕ) (openFindings : List String)
    (agentRunId : String) (output : CoderOutput) : RecordCodePushedPayload where
  featureRunId := payload.featureRunId
  projectId := payload.projectId
  expectedVersion
  commitSha := output.commitSha
  branchName := output.branchName
  filesChanged := output.filesChanged
  coderRunId := if openFindings = [] then none else some agentRunId
  resolvedFindingIds := if openFindings = [] then none else some openFindings

/-- The envelope of that payload, under the lane's lock. -/
def codePushedEnvelope (payload : RunCoderPayload) (commandId : String)
    (recordPayload : RecordCodePushedPayload) (lock : AcquiredLock) :
    CommandEnvelope RecordCodePushedPayload where
  commandId
  idempotencyKey := codePushedKey payload.featureRunId recordPayload.commitSha
  payload := recordPayload
  actor := systemActor
  correlationId := payload.correlationId
  lockContext := some {
    lockId := lock.lockId
    fence := lock.fence
    holderId := lock.holderId
    projectId := some payload.projectId
    resourceKey := some lock.resourceKey }

/-- Dispatches `RecordCodePushedCommand` under the lane's lock. -/
def dispatchCodePushed (payload : RunCoderPayload) (run : FeatureRun) (openFindings : List String)
    (agentRunId : String) (output : CoderOutput) (lock : AcquiredLock) : Coder CommandResult := do
  let current ← onDb (query fun db => db.runById payload.featureRunId)
  let expectedVersion := (current.map (·.version)).getD run.version
  let recordPayload := codePushedPayload payload expectedVersion openFindings agentRunId output
  let commandId ← onDb generateId
  write fun w => { w with dispatched := some recordPayload }
  onDb (Request.execute
    ⟨.recordCodePushed, codePushedEnvelope payload commandId recordPayload lock⟩)

/-- The part of the task under the execution lane: `none` when it lost a race. -/
def recordCodePushed (payload : RunCoderPayload) (run : FeatureRun) (openFindings : List String)
    (agentRunId : String) (output : CoderOutput) : Coder (Option CommandResult) := do
  let lock? ← unlessRaced
    (onDb (acquire payload.projectId (executionLane payload.projectId) ⟨"run-coder-task", 30000⟩))
  match lock? with
  | none => pure none
  | some lock =>
    ensuring
      (unlessRaced (dispatchCodePushed payload run openFindings agentRunId output lock))
      (onDb (release lock))

/-! ### The budget -/

/-- `forecastBudget`, its status. -/
def Db.forecastBudget (db : Db) (projectId featureRequestId : String) (scope : BudgetScope)
    (estimatedCostUsd : ℚ) (now : ℤ) : Option BudgetEvaluationStatus :=
  (db.findBudgetPolicy projectId featureRequestId scope).map fun policy =>
    let projectedSpend :=
      db.totalSpend projectId featureRequestId scope policy.windowDays now + estimatedCostUsd
    if policy.hardLimit.any fun limit => decide (limit ≤ projectedSpend) then .hardBreach
    else if policy.softLimit.any fun limit => decide (limit ≤ projectedSpend) then .softBreach
    else .ok

/-- `budgetPreflightCheck`: whether the adapter may be called. -/
def budgetPreflightCheck (deps : RunCoderDeps) (projectId featureRequestId : String) : Sql Bool :=
  match deps.estimatedCostUsd with
  | none => pure true
  | some estimate => do
    let now ← isoNow
    let forecast ← query fun db =>
      db.forecastBudget projectId featureRequestId .feature estimate now
    if forecast ≠ some .hardBreach then pure true
    else do
      let state ← query fun db => db.findWorkflowState projectId
      match state with
      | none => pure false
      | some state => do
        deps.applyBudgetDecision state
        pure false

/-! ### The task -/

/-- `buildCoderCloneUrl`. -/
def buildCoderCloneUrl (repo : Repository) : Except CoderFailure String :=
  if repo.provider = "github" then .ok s!"https://github.com/{repo.owner}/{repo.name}.git"
  else if repo.provider = "gitlab" ∨ repo.provider = "gitea" then
    match repo.baseUrl with
    | none | some "" => .error (.error
        (s!"run-coder: a {repo.provider}-provider repository has no base_url recorded; " ++
          "cannot build a clone URL"))
    | some baseUrl =>
      let trimmed := String.ofList (baseUrl.toList.reverse.dropWhile (· = '/')).reverse
      .ok s!"{trimmed}/{repo.owner}/{repo.name}.git"
  else .error (.error
    s!"run-coder: unknown SCM provider \"{repo.provider}\" — cannot build a clone URL")

/-- The rest of the task, for a run that is `coding` or `fixing`. -/
def runCoder (deps : RunCoderDeps) (payload : RunCoderPayload) (run : FeatureRun)
    (feature : FeatureRequest) (repo : Repository) : Coder RunCoderResult := do
  let _ ← orFail (buildCoderCloneUrl repo)
  let proceed ← onDb (budgetPreflightCheck deps payload.projectId run.featureRequestId)
  if !proceed then pure (notPushed payload)
  else do
    let openFindings ← onDb (query fun db =>
      if run.currentExecutionState = .fixing then
        (db.reviewFindings.select fun finding =>
          finding.featureRunId == payload.featureRunId && !finding.resolved).map (·.id)
      else [])
    orFail deps.adapter
    let recorded ← record deps payload.projectId run.featureRequestId
      (codexCoderRun deps payload.featureRunId feature.title)
    let result ← recordCodePushed payload run openFindings recorded.1 recorded.2
    match result with
    | none => pure (notPushed payload)
    | some _ => pure {
        projectId := payload.projectId
        featureRunId := payload.featureRunId
        pushed := true
        prNumber := deps.createPullRequest recorded.2.branchName repo.defaultBranch
          s!"{feature.frId}: {feature.title}" }

/-- The rows the task reads first: the run, its feature, and the project's repository. -/
def loadTask (payload : RunCoderPayload) (db : Db) :
    Option (FeatureRun × FeatureRequest × Repository) := do
  let run ← db.findFeatureRun payload.featureRunId payload.projectId
  guard (run.currentExecutionState = .coding ∨ run.currentExecutionState = .fixing)
  let feature ← db.featureRequests.find? fun request => request.id == run.featureRequestId
  let repo ← db.repositories.find? fun repo => repo.projectId == payload.projectId
  pure (run, feature, repo)

/-- `runImpl` of run-coder. -/
def runImpl (deps : RunCoderDeps) (payload : RunCoderPayload) : Coder RunCoderResult := do
  let loaded ← onDb (query (loadTask payload))
  match loaded with
  | none => pure (notPushed payload)
  | some (run, feature, repo) => runCoder deps payload run feature repo

/-! ### What the adapter did -/

variable {deps : RunCoderDeps} {payload : RunCoderPayload} {featureRunId : String}
  {w w' : CoderWorld}

theorem onDb_ok {α : Type} {m : Sql α} {a : α} :
    exec (onDb m) w = (.ok a, w') ↔
      ∃ s, exec m w.session = (.ok a, s) ∧ w' = { w with session := s } :=
  exec_within_ok

theorem orFail_ok {α : Type} {r : Except CoderFailure α} {a : α}
    (h : exec (orFail r) w = (.ok a, w')) : w' = w := by
  rcases r with e | b
  · simp [orFail] at h
  · exact (Prod.mk.inj h).2.symm

theorem unlessRaced_some {α : Type} {body : Coder α} {a : α}
    (h : exec (unlessRaced body) w = (.ok (some a), w')) : exec body w = (.ok a, w') := by
  rcases exec_tryCatch_ok.mp h with hbody | ⟨e, w₁, -, hcatch⟩
  · obtain ⟨b, w₁, hb, hpure⟩ := exec_bind_ok.mp hbody
    obtain ⟨hsome, rfl⟩ := Prod.mk.inj hpure
    rw [hb, Option.some.inj (Except.ok.inj hsome)]
  · rw [exec_ite] at hcatch
    split at hcatch
    · simp at hcatch
    · simp at hcatch

theorem asAdapterRun_ok {α : Type} {body : Coder α} {a : α}
    (h : exec (asAdapterRun body) w = (.ok a, w')) : exec body w = (.ok a, w') := by
  rcases exec_tryCatch_ok.mp h with hbody | ⟨e, w₁, -, hcatch⟩
  · exact hbody
  · split at hcatch
    · simp at hcatch
    · simp at hcatch

/-- What the adapter may report for a run: the head of the branch it checked out, which carries the
trailer of the run, or a new commit on top of that head. -/
def AdapterCommit (runner : CommandRunner) (featureRunId : String) (files : List GeneratedFile)
    (remote remote' : Git.Remote) (sha : String) : Prop :=
  ∃ head rest, checkoutHistory remote (branchNameFor featureRunId) = head :: rest ∧
    ((hasTrailer featureRunId head = true ∧ sha = head.sha ∧ remote' = remote) ∨
      (hasTrailer featureRunId head = false ∧
        ∃ commit, IsCommitOf runner featureRunId head.tree files commit ∧ sha = runner.newSha ∧
          remote'.history (branchNameFor featureRunId) = commit :: head :: rest))

theorem generateAndPush_ok {featureTitle : String} {output : CoderOutput}
    (h : exec (generateAndPush deps featureRunId featureTitle) w = (.ok output, w')) :
    ∃ generation, deps.generation = .ok generation ∧
      AdapterCommit deps.toCommandRunner featureRunId generation.files w.repo.remote w'.repo.remote
        output.commitSha := by
  obtain ⟨_, w₁, hprepare, h₁⟩ := exec_bind_ok.mp h
  obtain ⟨_, w₂, hlist, h₂⟩ := exec_bind_ok.mp h₁
  rcases hgen : deps.generation with message | generation
  · rw [hgen] at h₂
    simp at h₂
  · rw [hgen] at h₂
    obtain ⟨push, w₃, hpush, hpure⟩ := exec_bind_ok.mp h₂
    obtain ⟨houtput, rfl⟩ := Prod.mk.inj hpure
    obtain rfl := Except.ok.inj houtput
    refine ⟨generation, rfl, ?_⟩
    obtain ⟨hremote, hhistory, hindex, hworktree⟩ := prepareBranch_ok hprepare
    have hrepo : w₁.repo = w₂.repo := (Prod.mk.inj (Option.some.inj (CommandRunner.run_ok hlist))).2
    rw [hrepo] at hremote hhistory hindex hworktree
    obtain ⟨head, rest, hhead, hcommit⟩ :=
      commitAndPush_ok hindex hworktree (asAdapterRun_ok hpush)
    rw [hhistory] at hhead
    refine ⟨head, rest, hhead, ?_⟩
    rw [hhistory, hhead] at hcommit
    rw [hremote] at hcommit
    exact hcommit

theorem codexCoderRun_ok {featureTitle : String} {output : CoderOutput}
    (h : exec (codexCoderRun deps featureRunId featureTitle) w = (.ok output, w')) :
    ∃ generation, deps.generation = .ok generation ∧
      AdapterCommit deps.toCommandRunner featureRunId generation.files w.repo.remote w'.repo.remote
        output.commitSha := by
  obtain ⟨_, w₁, hstart, hrest⟩ := exec_bind_ok.mp h
  obtain ⟨w₂, hrun, hremove⟩ := exec_ensuring_ok.mp hrest
  have hrepo₁ : w₁.repo = w.repo := CommandRunner.git_some hstart
  have hrepo₂ : w'.repo = w₂.repo := CommandRunner.git_some hremove
  rw [hrepo₂, ← hrepo₁]
  exact generateAndPush_ok hrun

theorem frame_codexCoderRun (featureTitle : String) :
    Frame taskView (codexCoderRun deps featureRunId featureTitle) := by
  refine frame_bind (CommandRunner.frame_git _ _) fun _ =>
    frame_ensuring (frame_bind frame_prepareBranch fun _ =>
      frame_bind (CommandRunner.frame_run _ _) fun _ => ?_) (CommandRunner.frame_git _ _)
  split
  · exact frame_throw _
  · refine frame_bind (frame_tryCatch (frame_commitAndPush _) fun e => ?_) fun _ => frame_pure _
    split
    · exact frame_throw _
    · exact frame_throw _

/-! ### What the database steps left alone -/

/-- The feature runs and the idempotency keys. -/
def runsAndKeys (s : Session) : Table FeatureRun × Table IdempotencyKey :=
  (s.db.featureRuns, s.db.idempotencyKeys)

theorem seesData_runsAndKeys : SeesData runsAndKeys := fun _ _ _ => rfl

theorem frame_agentStatement : Frame runsAndKeys agentStatement :=
  frame_execute seesData_runsAndKeys fun s _ db h => by
    rw [← (Prod.mk.inj (Option.some.inj h)).2]

theorem frame_recordSuccess (projectId featureRequestId : String) (output : CoderOutput) :
    Frame runsAndKeys (recordSuccess deps projectId featureRequestId output) := by
  refine frame_bind frame_agentStatement fun _ => frame_bind ?_ fun _ => frame_agentStatement
  unfold recordCost
  split
  · exact frame_pure _
  · refine frame_bind frame_isoNow fun now => frame_bind
      (frame_generateId seesData_runsAndKeys) fun id =>
      frame_execute seesData_runsAndKeys fun s _ db h => ?_
    obtain ⟨t, -, ht⟩ := Option.map_eq_some_iff.mp h
    rw [← (Prod.mk.inj ht).2]
    rfl

/-- A preflight that lets the task proceed has read the database only. -/
theorem budgetPreflightCheck_proceeds {projectId featureRequestId : String} {s s' : Session}
    (h : exec (budgetPreflightCheck deps projectId featureRequestId) s = (.ok true, s')) :
    s'.db = s.db := by
  unfold budgetPreflightCheck at h
  split at h
  · exact congrArg Session.db (Prod.mk.inj h).2.symm
  · obtain ⟨now, s₁, hnow, h₁⟩ := exec_bind_ok.mp h
    obtain ⟨forecast, s₂, hforecast, h₂⟩ := exec_bind_ok.mp h₁
    obtain rfl := (Prod.mk.inj hnow).2
    obtain ⟨-, hdb, -⟩ := query_ok hforecast
    rw [exec_ite] at h₂
    split at h₂
    · rw [← (Prod.mk.inj h₂).2, hdb]
    · -- a hard breach ends with `false`
      obtain ⟨state, s₃, -, h₃⟩ := exec_bind_ok.mp h₂
      split at h₃
      · simp at h₃
      · obtain ⟨_, s₄, -, hpure⟩ := exec_bind_ok.mp h₃
        simp at hpure

/-- **A recorded run** ran the adapter, and changed neither runs nor keys. -/
theorem record_ok {projectId featureRequestId : String} {run : Coder CoderOutput}
    {recorded : String × CoderOutput} (hframe : Frame taskView run)
    (h : exec (record deps projectId featureRequestId run) w = (.ok recorded, w')) :
    runsAndKeys w'.session = runsAndKeys w.session ∧
      ∃ w₁ w₂, w₁.repo = w.repo ∧ exec run w₁ = (.ok recorded.2, w₂) ∧ w'.repo = w₂.repo := by
  obtain ⟨agentRunId, w₁, hid, h₁⟩ := exec_bind_ok.mp h
  obtain ⟨_, w₂, hinsert, h₂⟩ := exec_bind_ok.mp h₁
  obtain ⟨s₁, hs₁, rfl⟩ := onDb_ok.mp hid
  obtain ⟨s₂, hs₂, rfl⟩ := onDb_ok.mp hinsert
  rcases exec_tryCatch_ok.mp h₂ with hbody | ⟨e, w₃, -, hcatch⟩
  · obtain ⟨output, w₃, hrun, h₃⟩ := exec_bind_ok.mp hbody
    obtain ⟨_, w₄, hsuccess, hpure⟩ := exec_bind_ok.mp h₃
    obtain ⟨s₄, hs₄, rfl⟩ := onDb_ok.mp hsuccess
    obtain ⟨hrecorded, rfl⟩ := Prod.mk.inj hpure
    obtain rfl := Except.ok.inj hrecorded
    have hsession : w₃.session = s₂ := congrArg Prod.fst (hframe.of_exec hrun)
    refine ⟨?_, ⟨s₂, w.repo, w.issued, w.dispatched⟩, w₃, rfl, hrun, rfl⟩
    show runsAndKeys s₄ = runsAndKeys w.session
    rw [(frame_recordSuccess _ _ _).of_exec hs₄, hsession, frame_agentStatement.of_exec hs₂,
      (frame_generateId seesData_runsAndKeys).of_exec hs₁]
  · obtain ⟨_, w₄, -, hthrow⟩ := exec_bind_ok.mp hcatch
    simp at hthrow

/-! ### What the command recorded -/

/-- A task that dispatched its command for a commit, from `w` to `w'`, and had its result. -/
structure DispatchedPush (payload : RunCoderPayload) (commitSha : String) (w w' : CoderWorld)
    (recordPayload : RecordCodePushedPayload) (request : Request) (s s' : Session) : Prop where
  dispatched : w'.dispatched = some recordPayload
  featureRunId : recordPayload.featureRunId = payload.featureRunId
  commitSha : recordPayload.commitSha = commitSha
  envelope : ∃ commandId lock, request =
    ⟨.recordCodePushed, codePushedEnvelope payload commandId recordPayload lock⟩
  before : runsAndKeys s = runsAndKeys w.session
  executed : ∃ result, exec request.execute s = (.ok result, s')
  after : w'.session.db.featureRuns = s'.db.featureRuns

theorem runsAndKeys_of_withoutLocks {s s' : Session}
    (h : s'.db.withoutLocks = s.db.withoutLocks) : runsAndKeys s' = runsAndKeys s := by
  have hruns := congrArg Db.featureRuns h
  have hkeys := congrArg Db.idempotencyKeys h
  exact Prod.ext hruns hkeys

/-- **A recorded push** dispatched its command between the lane's acquisition and its release. -/
theorem recordCodePushed_some {run : FeatureRun} {openFindings : List String} {agentRunId : String}
    {output : CoderOutput} {result : CommandResult}
    (h : exec (recordCodePushed payload run openFindings agentRunId output) w =
      (.ok (some result), w')) :
    w'.repo = w.repo ∧ ∃ recordPayload request s s',
      DispatchedPush payload output.commitSha w w' recordPayload request s s' := by
  obtain ⟨lock?, w₁, hacquire, h₁⟩ := exec_bind_ok.mp h
  rcases lock? with _ | lock
  · simp at h₁
  · obtain ⟨s₁, hs₁, rfl⟩ := onDb_ok.mp (unlessRaced_some hacquire)
    obtain ⟨w₂, hdispatch, hrelease⟩ := exec_ensuring_ok.mp h₁
    obtain ⟨s₂, hs₂, rfl⟩ := onDb_ok.mp hrelease
    obtain ⟨current, w₃, hread, h₃⟩ := exec_bind_ok.mp (unlessRaced_some hdispatch)
    obtain ⟨s₃, hs₃, rfl⟩ := onDb_ok.mp hread
    obtain ⟨commandId, w₄, hid, h₄⟩ := exec_bind_ok.mp h₃
    obtain ⟨s₄, hs₄, rfl⟩ := onDb_ok.mp hid
    obtain ⟨_, w₅, hwrite, h₅⟩ := exec_bind_ok.mp h₄
    obtain rfl := (Prod.mk.inj hwrite).2
    obtain ⟨s₅, hs₅, rfl⟩ := onDb_ok.mp h₅
    refine ⟨rfl, _, _, s₄, s₅, {
      dispatched := rfl
      featureRunId := rfl
      commitSha := rfl
      envelope := ⟨commandId, lock, rfl⟩
      before := ?_
      executed := ⟨_, hs₅⟩
      after := ?_ }⟩
    · rw [(frame_generateId seesData_runsAndKeys).of_exec hs₄,
        (frame_query seesData_runsAndKeys _).of_exec hs₃,
        runsAndKeys_of_withoutLocks ((frame_acquire _ _ _).of_exec hs₁)]
    · exact congrArg Prod.fst (runsAndKeys_of_withoutLocks ((frame_release lock).of_exec hs₂))

/-! ### What the task did -/

/-- **A task that reported a push** dispatched its command for the commit the adapter reported, and
the command returned. -/
theorem runImpl_pushed {result : RunCoderResult}
    (h : exec (runImpl deps payload) w = (.ok result, w')) (hpushed : result.pushed = true) :
    ∃ generation commitSha recordPayload request s s',
      deps.generation = .ok generation ∧
      AdapterCommit deps.toCommandRunner payload.featureRunId generation.files w.repo.remote
        w'.repo.remote commitSha ∧
      DispatchedPush payload commitSha w w' recordPayload request s s' := by
  have hnot : ∀ {w₀ : CoderWorld}, exec (pure (notPushed payload) : Coder _) w₀ ≠
      (.ok result, w') := by
    intro w₀ hpure
    rw [← Except.ok.inj (Prod.mk.inj hpure).1] at hpushed
    cases hpushed
  obtain ⟨loaded, w₁, hload, h₁⟩ := exec_bind_ok.mp h
  obtain ⟨s₁, hs₁, rfl⟩ := onDb_ok.mp hload
  obtain ⟨-, hdb₁, -⟩ := query_ok hs₁
  rcases loaded with _ | ⟨run, feature, repo⟩
  · exact absurd h₁ hnot
  · obtain ⟨url, w₂, hurl, h₂⟩ := exec_bind_ok.mp h₁
    obtain rfl := orFail_ok hurl
    obtain ⟨proceed, w₃, hpreflight, h₃⟩ := exec_bind_ok.mp h₂
    obtain ⟨s₃, hs₃, rfl⟩ := onDb_ok.mp hpreflight
    rcases proceed with _ | _
    · exact absurd h₃ hnot
    · have hdb₃ := budgetPreflightCheck_proceeds hs₃
      obtain ⟨openFindings, w₄, hfindings, h₄⟩ := exec_bind_ok.mp h₃
      obtain ⟨s₄, hs₄, rfl⟩ := onDb_ok.mp hfindings
      obtain ⟨-, hdb₄, -⟩ := query_ok hs₄
      obtain ⟨_, w₅, hadapter, h₅⟩ := exec_bind_ok.mp h₄
      obtain rfl := orFail_ok hadapter
      obtain ⟨recorded, w₆, hrecord, h₆⟩ := exec_bind_ok.mp h₅
      obtain ⟨hview, wa, wb, hwa, hadapterRun, hwb⟩ := record_ok (frame_codexCoderRun _) hrecord
      obtain ⟨generation, hgeneration, hcommit⟩ := codexCoderRun_ok hadapterRun
      obtain ⟨result?, w₇, hpush, h₇⟩ := exec_bind_ok.mp h₆
      rcases result? with _ | commandResult
      · exact absurd h₇ hnot
      · obtain rfl := (Prod.mk.inj h₇).2
        obtain ⟨hrepo, recordPayload, request, s, s', hdispatched⟩ := recordCodePushed_some hpush
        refine ⟨generation, recorded.2.commitSha, recordPayload, request, s, s', hgeneration, ?_, {
          hdispatched with
          before := ?_ }⟩
        · rw [hrepo, hwb]
          rw [hwa] at hcommit
          exact hcommit
        · rw [hdispatched.before, hview]
          show (s₄.db.featureRuns, s₄.db.idempotencyKeys) = _
          rw [hdb₄, hdb₃, hdb₁]
          rfl

end MiniCoder
