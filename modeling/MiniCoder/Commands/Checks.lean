import MiniCoder.Commands.Transition

/-!
# The guards and side effects of the feature-execution handlers

What more than one handler does besides moving its run: the guards on the active-run pointer, on the
dependencies, on the fix attempts and on disagreements, the claim and the release of the project,
and the rows of the review trail and of the pull-request mirror.

* `frame_*`: each leaves alone every view that does not see the tables it writes.
* `core_*`: a guard, and a side effect on the trail, writes none of the core tables.
* `assertActiveFeatureRun_ok`: the guard passed exactly on the active run of the project.
* `claimProject_moves`, `releaseProject_moves`: what the two pointer statements did.
-/

open Storage Storage.Action

namespace MiniCoder

/-- A JavaScript optional string that tests as true. -/
def truthy (value : Option String) : Option String := value.filter (· ≠ "")

/-- `value ?? null` in a payload. -/
def Scalar.ofOption : Option String → Scalar
  | some s => .str s
  | none => .null

/-! ### The active feature run -/

/-- The guard `wsRows[0]?.active_feature_run_id !== featureRunId`. -/
def assertActiveFeatureRun (featureRunId projectId : String) (problem : ProblemDetail) :
    Sql Unit := do
  let ws ← query fun db => db.findWorkflowState projectId
  if ws.bind (·.activeFeatureRunId) = some featureRunId then pure ()
  else throw (.command problem)

/-- What a lost conditional `UPDATE` of a start command throws: paused automation is told apart from
a stale version. -/
def automationConflict (run : FeatureRunRef) (activity correlationId : String) : Sql Failure := do
  let ws ← query fun db => db.findWorkflowState run.projectId
  if ws.any (·.automationState == .running) then
    pure (.optimisticLock "feature_runs" run.featureRunId run.expectedVersion (-1))
  else
    let automation := (ws.map (·.automationState.literal)).getD "unknown"
    pure (.command {
      type := "automation-paused"
      title := "Automation is paused"
      status := 409
      detail := s!"Cannot {activity}: automation is {automation}"
      instance? := some correlationId })

/-- The conditional `UPDATE workflow_states` of a selection, and the errors that tell apart why it
matched no row. -/
def claimProject (featureRunId projectId correlationId : String) : Sql Unit := do
  let affected ← execute fun db => some (db.workflowStates.count (Db.isIdle projectId),
    { db with workflowStates := setActive db.workflowStates projectId featureRunId })
  if affected = 0 then
    let ws ← query fun db => db.findWorkflowState projectId
    if ws.any (·.automationState == .running) then
      throw (.command {
        type := "feature-already-active"
        title := "A feature run is already active"
        status := 409
        detail := "Cannot select feature: active_feature_run_id is already set"
        instance? := some correlationId })
    else
      let automation := (ws.map (·.automationState.literal)).getD "unknown"
      throw (.command {
        type := "automation-paused"
        title := "Automation is paused"
        status := 409
        detail := s!"Cannot select feature: automation is {automation}"
        instance? := some correlationId })
  else
    pure ()

/-- `UPDATE workflow_states SET active_feature_run_id = NULL … WHERE project_id = ? AND
active_feature_run_id = ?`. -/
def releaseProject (featureRunId projectId : String) : Sql Unit :=
  execute fun db => some ((),
    { db with workflowStates := clearActive db.workflowStates projectId featureRunId })

/-! ### Dependencies -/

/-- The dependencies of a feature request without a merged run. -/
def Db.unmetDependencies (db : Db) (featureRequestId : String) : List FeatureDependency :=
  db.featureDependencies.select fun fd => fd.sourceFrId == featureRequestId &&
    !(db.featureRuns.find? fun fr =>
      fr.featureRequestId == fd.targetFrId && fr.currentExecutionState == .merged).isSome

/-- The dependency guard of a selection and of the two unblock commands. -/
def assertDependenciesMerged (featureRequestId correlationId : String) (detail : ℕ → String) :
    Sql Unit := do
  let unmet ← query fun db => db.unmetDependencies featureRequestId
  if unmet.length > 0 then
    throw (.command {
      type := "unmet-dependencies"
      title := "Feature has unmet dependencies"
      status := 409
      detail := detail unmet.length
      instance? := some correlationId })
  else
    pure ()

/-! ### Fix attempts -/

/-- The fix-attempt guard of the two commands that request changes. -/
def assertBelowFixThreshold (run : FeatureRun) (correlationId : String) : Sql Unit :=
  if run.fixAttemptCount ≥ fixAttemptThreshold then
    throw (.command {
      type := "fix-attempt-limit-exceeded"
      title := "Fix-attempt threshold exceeded"
      status := 409
      detail := s!"Feature run {run.id} has reached the fix-attempt threshold " ++
        s!"({fixAttemptThreshold}); dispatch EscalateToHumanCommand instead"
      instance? := some correlationId })
  else
    pure ()

/-! ### Disagreements -/

/-- `feature_run_id = ? AND state IN ('open', 'escalated')`. -/
def Db.isOpenDisagreement (featureRunId : String) (row : DisagreementRecord) : Bool :=
  row.featureRunId == featureRunId && (row.state == .opened || row.state == .escalated)

/-- `findOpenDisagreement`: the open disagreement of the latest review cycle. -/
def Db.findOpenDisagreement (db : Db) (featureRunId : String) : Option DisagreementRecord :=
  db.disagreementRecords.last? (isOpenDisagreement featureRunId) fun row row' =>
    decide (row.reviewCycle < row'.reviewCycle)

/-- `findDisagreementForFeatureRun`. -/
def findDisagreementForFeatureRun (featureRunId : String) (disagreementId : Option String) :
    Sql (Option DisagreementRecord) :=
  match truthy disagreementId with
  | none => query fun db => db.findOpenDisagreement featureRunId
  | some id => query fun db => db.disagreementRecords.find? fun row =>
      row.id == id && Db.isOpenDisagreement featureRunId row

/-- `resolveDisagreementByHuman`; returns the number of rows it resolved. -/
def resolveDisagreementByHuman (disagreementId featureRunId resolution : String) : Sql ℕ :=
  execute fun db =>
    let resolves : DisagreementRecord → Bool := fun row =>
      row.id == disagreementId && Db.isOpenDisagreement featureRunId row
    some (db.disagreementRecords.count resolves,
      { db with
        disagreementRecords := db.disagreementRecords.update resolves
          (fun row => { row with
            state := .resolved, resolution := some resolution, version := row.version + 1 })
          fun _ _ => rfl })

/-- Finds the disagreement a disposition is about and marks it resolved; returns its id. -/
def settleDisagreement (featureRunId : String) (disagreementId : Option String)
    (resolution missingTitle missingDetail correlationId : String) : Sql String := do
  let found ← findDisagreementForFeatureRun featureRunId disagreementId
  match found with
  | none => throw (.command {
      type := "no-open-disagreement"
      title := missingTitle
      status := 409
      detail := missingDetail
      instance? := some correlationId })
  | some disagreement => do
    let resolved ← resolveDisagreementByHuman disagreement.id featureRunId resolution
    if resolved = 0 then
      throw (.command {
        type := "no-open-disagreement"
        title := "Disagreement was already resolved"
        status := 409
        detail := s!"Disagreement {disagreement.id} is no longer open/escalated"
        instance? := some correlationId })
    else
      pure disagreement.id

/-! ### The trail -/

/-- `insertHumanApproval`, for its row. -/
def recordApproval (opts : HumanApprovalOpts) : Sql Unit := do
  let _ ← insertHumanApproval opts
  pure ()

/-- The statements of `RecordCodePushedHandler` for one finding: resolve it in this run, and, where
the update matched, write the coder's response. -/
def resolveFinding (featureRunId coderRunId findingId : String) : Sql Unit := do
  let ofRun : ReviewFinding → Bool := fun row =>
    row.id == findingId && row.featureRunId == featureRunId
  let resolved ← execute fun db => some (db.reviewFindings.count ofRun,
    { db with
      reviewFindings := db.reviewFindings.update ofRun
        (fun row => { row with
          resolved := true, resolvedByRunId := some coderRunId, version := row.version + 1 })
        fun _ _ => rfl })
  if resolved = 0 then pure ()
  else
    execute fun db => (db.coderResponses.insert? {
      id := s!"coder-response:{featureRunId}:{findingId}"
      findingId
      coderRunId
      responseType := .fixed
      notes := some ("Optimistic: coder push completed without per-finding disposition " ++
        "(Phase 10 simplification)") }).map fun t => ((), { db with coderResponses := t })

/-- The loop over the findings a push resolves. -/
def resolveFindings (featureRunId coderRunId : String) : List String → Sql Unit
  | [] => pure ()
  | findingId :: findingIds => do
    resolveFinding featureRunId coderRunId findingId
    resolveFindings featureRunId coderRunId findingIds

/-! ### The mirror of the pull request -/

/-- The columns `insertPullRequestRow` sets. -/
structure PullRequestOpened where
  featureRunId : String
  prNumber : ℕ
  branchName : String
  baseBranch : String
  headSha : Option String
  deriving DecidableEq, Repr

/-- `insertPullRequestRow`: overwrites the row of the run, or inserts it. -/
def insertPullRequestRow (opts : PullRequestOpened) : Sql Unit := do
  let id ← generateId
  let existing ← query fun db => db.findPullRequest opts.featureRunId
  if existing.isSome then
    execute fun db => some ((),
      { db with
        pullRequests := db.pullRequests.update (fun pr => pr.featureRunId == opts.featureRunId)
          (fun pr => { pr with
            prNumber := opts.prNumber
            branchName := opts.branchName
            baseBranch := opts.baseBranch
            headSha := opts.headSha
            state := "open"
            reviewState := "none"
            ciStatus := "pending"
            mergeable := none
            blockingLabels := []
            conversationsResolved := false
            mergedAt := none
            mergeSha := none
            closedAt := none
            version := pr.version + 1 })
          fun _ _ => rfl })
  else
    execute fun db => (db.pullRequests.insert? {
      id
      featureRunId := opts.featureRunId
      prNumber := opts.prNumber
      branchName := opts.branchName
      baseBranch := opts.baseBranch
      headSha := opts.headSha }).map fun t => ((), { db with pullRequests := t })

/-- `ObservedPullRequestState`, as far as the mirror takes it. -/
structure ObservedPullRequestState where
  headSha : Option String
  state : String
  reviewState : String
  ciStatus : String
  mergeable : Option Bool
  blockingLabels : List String
  conversationsResolved : Bool
  mergedAt : Option ℤ
  mergeSha : Option String
  closedAt : Option ℤ
  deriving DecidableEq, Repr

/-- What a mirror row shows of its pull request. -/
def PullRequest.shown (pr : PullRequest) : ObservedPullRequestState where
  headSha := pr.headSha
  state := pr.state
  reviewState := pr.reviewState
  ciStatus := pr.ciStatus
  mergeable := pr.mergeable
  blockingLabels := pr.blockingLabels
  conversationsResolved := pr.conversationsResolved
  mergedAt := pr.mergedAt
  mergeSha := pr.mergeSha
  closedAt := pr.closedAt

/-- The `SET` list of a mirror sync. -/
def PullRequest.observe (observed : ObservedPullRequestState) (pr : PullRequest) : PullRequest :=
  { pr with
    headSha := observed.headSha
    state := observed.state
    reviewState := observed.reviewState
    ciStatus := observed.ciStatus
    mergeable := observed.mergeable
    blockingLabels := observed.blockingLabels
    conversationsResolved := observed.conversationsResolved
    mergedAt := observed.mergedAt
    mergeSha := observed.mergeSha
    closedAt := observed.closedAt
    version := pr.version + 1 }

theorem PullRequest.observe_keys (observed : ObservedPullRequestState) :
    KeyFree (PullRequest.observe observed) := fun _ _ => rfl

/-- `syncPullRequestObservedState`: writes what was observed, unless the row shows it already. -/
def syncPullRequestObservedState (featureRunId : String) (observed : ObservedPullRequestState) :
    Sql Unit := do
  let existing ← query fun db => db.findPullRequest featureRunId
  if existing.all fun pr => decide (pr.shown = observed) then pure ()
  else
    execute fun db => some ((),
      { db with
        pullRequests := db.pullRequests.update (fun pr => pr.featureRunId == featureRunId)
          (PullRequest.observe observed) (PullRequest.observe_keys observed) })

/-- `UPDATE pull_requests SET state = 'merged', merge_sha = ?, merged_at = ? …`. -/
def mergePullRequestRow (featureRunId mergeSha : String) : Sql Unit := do
  let now ← isoNow
  execute fun db => some ((),
    { db with
      pullRequests := db.pullRequests.update (fun pr => pr.featureRunId == featureRunId)
        (fun pr => { pr with
          state := "merged", mergeSha := some mergeSha, mergedAt := some now,
          version := pr.version + 1 })
        fun _ _ => rfl })

/-! ### What they leave alone -/

section Frames

variable {featureRunId projectId correlationId : String}

section Generic

variable {τ : Type} {π : Session → τ}

theorem frame_assertActiveFeatureRun (hπ : SeesData π) (problem : ProblemDetail) :
    Frame π (assertActiveFeatureRun featureRunId projectId problem) :=
  frame_bind (frame_query hπ _) fun _ => frame_ite (frame_pure _) (frame_throw _)

theorem frame_automationConflict (hπ : SeesData π) (run : FeatureRunRef) (activity : String) :
    Frame π (automationConflict run activity correlationId) :=
  frame_bind (frame_query hπ _) fun _ => frame_ite (frame_pure _) (frame_pure _)

theorem frame_assertDependenciesMerged (hπ : SeesData π) (featureRequestId : String)
    (detail : ℕ → String) :
    Frame π (assertDependenciesMerged featureRequestId correlationId detail) :=
  frame_bind (frame_query hπ _) fun _ => frame_ite (frame_throw _) (frame_pure _)

theorem frame_assertBelowFixThreshold (run : FeatureRun) :
    Frame π (assertBelowFixThreshold run correlationId) :=
  frame_ite (frame_throw _) (frame_pure _)

theorem frame_findDisagreementForFeatureRun (hπ : SeesData π) (disagreementId : Option String) :
    Frame π (findDisagreementForFeatureRun featureRunId disagreementId) := by
  unfold findDisagreementForFeatureRun
  split
  · exact frame_query hπ _
  · exact frame_query hπ _

theorem frame_settleDisagreement (hπ : SeesData π)
    (hrecords : ∀ s t, π { s with db := { s.db with disagreementRecords := t } } = π s)
    (disagreementId : Option String) (resolution missingTitle missingDetail : String) :
    Frame π (settleDisagreement featureRunId disagreementId resolution missingTitle missingDetail
      correlationId) := by
  refine frame_bind (frame_findDisagreementForFeatureRun hπ _) fun found => ?_
  rcases found with _ | disagreement
  · exact frame_throw _
  · refine frame_bind (frame_execute hπ fun s n db h => ?_) fun _ =>
      frame_ite (frame_throw _) (frame_pure _)
    obtain ⟨-, rfl⟩ := Prod.mk.inj (Option.some.inj h)
    exact hrecords s _

theorem frame_recordApproval (hπ : SeesData π)
    (happrovals : ∀ s t, π { s with db := { s.db with humanApprovals := t } } = π s)
    (opts : HumanApprovalOpts) : Frame π (recordApproval opts) :=
  frame_bind (frame_insertHumanApproval hπ happrovals _) fun _ => frame_pure _

theorem frame_resolveFindings (hπ : SeesData π)
    (hfindings : ∀ s t, π { s with db := { s.db with reviewFindings := t } } = π s)
    (hresponses : ∀ s t, π { s with db := { s.db with coderResponses := t } } = π s)
    (coderRunId : String) (findingIds : List String) :
    Frame π (resolveFindings featureRunId coderRunId findingIds) := by
  induction findingIds with
  | nil => exact frame_pure ()
  | cons findingId findingIds ih =>
    refine frame_bind (frame_bind (frame_execute hπ fun s n db h => ?_) fun resolved =>
      frame_ite (frame_pure _) (frame_execute hπ fun s u db h => ?_)) fun _ => ih
    · obtain ⟨-, rfl⟩ := Prod.mk.inj (Option.some.inj h)
      exact hfindings s _
    · obtain ⟨t, -, ht⟩ := Option.map_eq_some_iff.mp h
      rw [← (Prod.mk.inj ht).2]
      exact hresponses s t

theorem frame_insertPullRequestRow (hπ : SeesData π)
    (hmirror : ∀ s t, π { s with db := { s.db with pullRequests := t } } = π s)
    (opts : PullRequestOpened) : Frame π (insertPullRequestRow opts) := by
  refine frame_bind (frame_generateId hπ) fun id => frame_bind (frame_query hπ _) fun existing =>
    frame_ite (frame_execute hπ fun s u db h => ?_) (frame_execute hπ fun s u db h => ?_)
  · obtain ⟨-, rfl⟩ := Prod.mk.inj (Option.some.inj h)
    exact hmirror s _
  · obtain ⟨t, -, ht⟩ := Option.map_eq_some_iff.mp h
    rw [← (Prod.mk.inj ht).2]
    exact hmirror s t

theorem frame_syncPullRequestObservedState (hπ : SeesData π)
    (hmirror : ∀ s t, π { s with db := { s.db with pullRequests := t } } = π s)
    (observed : ObservedPullRequestState) :
    Frame π (syncPullRequestObservedState featureRunId observed) := by
  refine frame_bind (frame_query hπ _) fun existing =>
    frame_ite (frame_pure _) (frame_execute hπ fun s u db h => ?_)
  obtain ⟨-, rfl⟩ := Prod.mk.inj (Option.some.inj h)
  exact hmirror s _

theorem frame_mergePullRequestRow (hπ : SeesData π)
    (hmirror : ∀ s t, π { s with db := { s.db with pullRequests := t } } = π s)
    (mergeSha : String) : Frame π (mergePullRequestRow featureRunId mergeSha) := by
  refine frame_bind frame_isoNow fun now => frame_execute hπ fun s u db h => ?_
  obtain ⟨-, rfl⟩ := Prod.mk.inj (Option.some.inj h)
  exact hmirror s _

theorem frame_claimProject (hπ : SeesData π)
    (hpointers : ∀ s t, π { s with db := { s.db with workflowStates := t } } = π s) :
    Frame π (claimProject featureRunId projectId correlationId) := by
  refine frame_bind (frame_execute hπ fun s n db h => ?_) fun affected =>
    frame_ite (frame_bind (frame_query hπ _) fun ws =>
      frame_ite (frame_throw _) (frame_throw _)) (frame_pure _)
  obtain ⟨-, rfl⟩ := Prod.mk.inj (Option.some.inj h)
  exact hpointers s _

theorem frame_releaseProject (hπ : SeesData π)
    (hpointers : ∀ s t, π { s with db := { s.db with workflowStates := t } } = π s) :
    Frame π (releaseProject featureRunId projectId) := by
  refine frame_execute hπ fun s n db h => ?_
  obtain ⟨-, rfl⟩ := Prod.mk.inj (Option.some.inj h)
  exact hpointers s _

end Generic

theorem core_assertActiveFeatureRun (problem : ProblemDetail) :
    Frame coreView (assertActiveFeatureRun featureRunId projectId problem) :=
  frame_assertActiveFeatureRun seesData_coreView problem

theorem core_automationConflict (run : FeatureRunRef) (activity : String) :
    Frame coreView (automationConflict run activity correlationId) :=
  frame_automationConflict seesData_coreView run activity

theorem core_assertDependenciesMerged (featureRequestId : String) (detail : ℕ → String) :
    Frame coreView (assertDependenciesMerged featureRequestId correlationId detail) :=
  frame_assertDependenciesMerged seesData_coreView featureRequestId detail

theorem core_assertBelowFixThreshold (run : FeatureRun) :
    Frame coreView (assertBelowFixThreshold run correlationId) :=
  frame_assertBelowFixThreshold run

theorem core_settleDisagreement (disagreementId : Option String)
    (resolution missingTitle missingDetail : String) :
    Frame coreView (settleDisagreement featureRunId disagreementId resolution missingTitle
      missingDetail correlationId) :=
  frame_settleDisagreement seesData_coreView (fun _ _ => rfl) _ _ _ _

theorem core_recordApproval (opts : HumanApprovalOpts) : Frame coreView (recordApproval opts) :=
  frame_recordApproval seesData_coreView (fun _ _ => rfl) opts

theorem core_insertReviewFindings (reviewerRunId : Option String) (reviewCycle : ℕ)
    (findings : List ReviewFindingInsert) :
    Frame coreView (insertReviewFindings featureRunId reviewerRunId reviewCycle findings) :=
  frame_insertReviewFindings seesData_coreView (fun _ _ => rfl) _ _ _ _

theorem core_resolveFindings (coderRunId : String) (findingIds : List String) :
    Frame coreView (resolveFindings featureRunId coderRunId findingIds) :=
  frame_resolveFindings seesData_coreView (fun _ _ => rfl) (fun _ _ => rfl) _ _

theorem core_insertPullRequestRow (opts : PullRequestOpened) :
    Frame coreView (insertPullRequestRow opts) :=
  frame_insertPullRequestRow seesData_coreView (fun _ _ => rfl) opts

theorem core_syncPullRequestObservedState (observed : ObservedPullRequestState) :
    Frame coreView (syncPullRequestObservedState featureRunId observed) :=
  frame_syncPullRequestObservedState seesData_coreView (fun _ _ => rfl) observed

theorem core_mergePullRequestRow (mergeSha : String) :
    Frame coreView (mergePullRequestRow featureRunId mergeSha) :=
  frame_mergePullRequestRow seesData_coreView (fun _ _ => rfl) mergeSha

theorem unpointed_claimProject : Frame (fun s => unpointed (coreView s))
    (claimProject featureRunId projectId correlationId) :=
  frame_claimProject (fun _ _ _ => rfl) fun _ _ => rfl

theorem unpointed_releaseProject : Frame (fun s => unpointed (coreView s))
    (releaseProject featureRunId projectId) :=
  frame_releaseProject (fun _ _ _ => rfl) fun _ _ => rfl

end Frames

/-! ### What they found and did -/

variable {featureRunId projectId correlationId : String} {s s' : Session}

/-- The guard passed on the active run of the project. -/
theorem assertActiveFeatureRun_ok {problem : ProblemDetail}
    (h : exec (assertActiveFeatureRun featureRunId projectId problem) s = (.ok (), s')) :
    ∃ ws, s.db.findWorkflowState projectId = some ws ∧ ws.activeFeatureRunId = some featureRunId := by
  obtain ⟨ws, s₁, hquery, hrest⟩ := exec_bind_ok.mp h
  obtain ⟨rfl, -, -⟩ := query_ok hquery
  by_cases hactive : (s.db.findWorkflowState projectId).bind (·.activeFeatureRunId) =
      some featureRunId
  · exact Option.bind_eq_some_iff.mp hactive
  · rw [if_neg hactive] at hrest
    simp at hrest

theorem claimProject_moves (h : exec (claimProject featureRunId projectId correlationId) s =
    (.ok (), s')) :
    PointerMove.claim.Moves projectId featureRunId s.db.workflowStates s'.db.workflowStates := by
  obtain ⟨affected, s₁, hupdate, hrest⟩ := exec_bind_ok.mp h
  obtain ⟨hdb, -⟩ := execute_ok hupdate
  obtain ⟨rfl, hdb'⟩ := Prod.mk.inj (Option.some.inj hdb)
  by_cases hcount : s.db.workflowStates.count (Db.isIdle projectId) = 0
  · rw [if_pos hcount] at hrest
    obtain ⟨ws, s₂, -, hthrow⟩ := exec_bind_ok.mp hrest
    rw [exec_ite] at hthrow
    split at hthrow
    · simp at hthrow
    · simp at hthrow
  · rw [if_neg hcount] at hrest
    obtain ⟨-, rfl⟩ := Prod.mk.inj hrest
    exact ⟨hcount, by rw [← hdb']⟩

theorem releaseProject_moves (h : exec (releaseProject featureRunId projectId) s = (.ok (), s')) :
    PointerMove.release.Moves projectId featureRunId s.db.workflowStates s'.db.workflowStates := by
  obtain ⟨hdb, -⟩ := execute_ok h
  obtain ⟨-, hdb'⟩ := Prod.mk.inj (Option.some.inj hdb)
  show s'.db.workflowStates = _
  rw [← hdb']

end MiniCoder
