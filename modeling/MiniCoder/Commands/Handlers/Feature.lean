import MiniCoder.Commands.Checks

/-!
# The handlers of `commands/handlers/feature`

Selection, the execution lane, the dispositions of `human_required`, blocking and the merge outcome.
Each handler is its transition: the state it moves to, its own checks, and its own side effects.

* `cascade_runs`: the cascade of a skip blocks pending runs and touches no other.
-/

open Storage Storage.Action

namespace MiniCoder

/-! ### Selection and the execution lane -/

abbrev SelectFeaturePayload := FeatureRunRef

/-- `SelectFeatureHandler`. -/
def selectFeatureHandler : FeatureHandler SelectFeaturePayload where
  commandName := "SelectFeatureCommand"
  requiredRole := .operator
  requiredActorKind := .human
  idempotencyScope := "select-feature"
  Evidence := Unit
  evidence _ := pure ()
  evidence_only _ := frame_pure _
  transition envelope _ := { envelope.payload with
    toState := .selected
    Checked := Unit
    guard := fun run => assertDependenciesMerged run.featureRequestId envelope.correlationId
      fun n => s!"Cannot select feature: {n} dependency(ies) not yet merged"
    guard_core := fun run => core_assertDependenciesMerged _ _
    effects := fun _ _ => claimProject envelope.payload.featureRunId envelope.payload.projectId
      envelope.correlationId
    effects_core := fun _ _ => unpointed_claimProject
    pointer := .claim
    effects_pointer := fun _ _ _ _ h => claimProject_moves h
    eventType := "feature.selected"
    eventFrom := fun _ => .approvedPendingExecution
    outboxPayload := fun _ => [
      ("featureRunId", .str envelope.payload.featureRunId),
      ("projectId", .str envelope.payload.projectId),
      ("fromState", .str "approved_pending_execution"),
      ("toState", .str "selected")] }

/-- The outbox payload of most handlers. -/
def runPayload (run : FeatureRunRef) : Payload :=
  [("featureRunId", .str run.featureRunId), ("projectId", .str run.projectId)]

/-- The checks of `StartCodingHandler` before it loads the run: the lane, and the active run. -/
def startCodingPrologue (envelope : CommandEnvelope FeatureRunRef) : Sql Unit := do
  requireExecutionLane "StartCodingCommand" envelope.payload.projectId envelope
  assertActiveFeatureRun envelope.payload.featureRunId envelope.payload.projectId {
    type := "not-active-feature-run"
    title := "Feature run is not the active run"
    status := 409
    detail := s!"Feature run {envelope.payload.featureRunId} is not the active run for project " ++
      s!"{envelope.payload.projectId}"
    instance? := some envelope.correlationId }

abbrev StartCodingPayload := FeatureRunRef

/-- `StartCodingHandler`. -/
def startCodingHandler : FeatureHandler StartCodingPayload where
  commandName := "StartCodingCommand"
  requiredRole := .admin
  requiredActorKind := .system
  idempotencyScope := "start-coding"
  Evidence := Unit
  evidence _ := pure ()
  evidence_only _ := frame_pure _
  transition envelope _ := { envelope.payload with
    toState := .coding
    Checked := Unit
    prologue := startCodingPrologue envelope
    prologue_core := frame_bind (frame_requireExecutionLane seesData_coreView _ _ _) fun _ =>
      core_assertActiveFeatureRun _
    reportsMissing := false
    guard := fun _ => pure ()
    whileRunning := true
    conflict := automationConflict envelope.payload "start coding" envelope.correlationId
    conflict_core := core_automationConflict _ _
    eventType := "feature.coding_started"
    eventFrom := fun _ => .selected
    outboxPayload := fun _ => runPayload envelope.payload }

abbrev StartFixingPayload := FeatureRunRef

/-- `StartFixingHandler`. -/
def startFixingHandler : FeatureHandler StartFixingPayload where
  commandName := "StartFixingCommand"
  requiredRole := .admin
  requiredActorKind := .system
  idempotencyScope := "start-fixing"
  Evidence := Unit
  evidence _ := pure ()
  evidence_only _ := frame_pure _
  transition envelope _ := { envelope.payload with
    toState := .fixing
    Checked := Unit
    prologue := requireExecutionLane "StartFixingCommand" envelope.payload.projectId envelope
    prologue_core := frame_requireExecutionLane seesData_coreView _ _ _
    reportsMissing := false
    guard := fun _ => pure ()
    whileRunning := true
    conflict := automationConflict envelope.payload "start fixing" envelope.correlationId
    conflict_core := core_automationConflict _ _
    eventType := "feature.fixing_started"
    eventFrom := fun _ => .changesRequested
    outboxPayload := fun _ => runPayload envelope.payload }

structure RecordCodePushedPayload extends FeatureRunRef where
  commitSha : String
  branchName : String
  filesChanged : ℕ
  coderRunId : Option String := none
  resolvedFindingIds : Option (List String) := none

/-- The findings a push resolves: those of the payload, when it names a coder run. -/
def RecordCodePushedPayload.resolve (payload : RecordCodePushedPayload) : Sql Unit :=
  match truthy payload.coderRunId with
  | none => pure ()
  | some coderRunId =>
    resolveFindings payload.featureRunId coderRunId (payload.resolvedFindingIds.getD [])

theorem core_resolve (payload : RecordCodePushedPayload) : Frame coreView payload.resolve := by
  unfold RecordCodePushedPayload.resolve
  split
  · exact frame_pure _
  · exact core_resolveFindings _ _

/-- `RecordCodePushedHandler`. -/
def recordCodePushedHandler : FeatureHandler RecordCodePushedPayload where
  commandName := "RecordCodePushedCommand"
  requiredRole := .admin
  requiredActorKind := .system
  idempotencyScope := "record-code-pushed"
  Evidence := Unit
  evidence _ := pure ()
  evidence_only _ := frame_pure _
  transition envelope _ := { envelope.payload.toFeatureRunRef with
    toState := .codePushed
    Checked := Unit
    prologue := requireExecutionLane "RecordCodePushedCommand" envelope.payload.projectId envelope
    prologue_core := frame_requireExecutionLane seesData_coreView _ _ _
    reportsMissing := false
    guard := fun _ => pure ()
    effects := fun _ _ => envelope.payload.resolve
    effects_core := fun _ _ => (core_resolve envelope.payload).map unpointed
    effects_pointer := fun _ _ _ _ h => keep_of_core (core_resolve envelope.payload) h
    eventType := "feature.code_pushed"
    outboxPayload := fun _ => runPayload envelope.payload.toFeatureRunRef ++ [
      ("commitSha", .str envelope.payload.commitSha),
      ("branchName", .str envelope.payload.branchName),
      ("filesChanged", .num envelope.payload.filesChanged)] }

/-! ### Escalation and its dispositions -/

structure EscalateToHumanPayload extends FeatureRunRef where
  reason : String
  reviewerRunId : Option String := none
  reviewCycle : Option ℕ := none
  findings : Option (List ReviewFindingInsert) := none

/-- `EscalateToHumanHandler`. -/
def escalateToHumanHandler : FeatureHandler EscalateToHumanPayload where
  commandName := "EscalateToHumanCommand"
  requiredRole := .operator
  requiredActorKind := .system
  idempotencyScope := "escalate-to-human"
  Evidence := Unit
  evidence _ := pure ()
  evidence_only _ := frame_pure _
  transition envelope _ := { envelope.payload.toFeatureRunRef with
    toState := .humanRequired
    Checked := Unit
    guard := fun _ => pure ()
    effects := fun _ _ => insertReviewFindings envelope.payload.featureRunId
      envelope.payload.reviewerRunId (envelope.payload.reviewCycle.getD 1)
      (envelope.payload.findings.getD [])
    effects_core := fun _ _ => (core_insertReviewFindings _ _ _).map unpointed
    effects_pointer := fun _ _ _ _ h => keep_of_core (core_insertReviewFindings _ _ _) h
    eventType := "feature.human_required"
    outboxPayload := fun _ => runPayload envelope.payload.toFeatureRunRef ++
      [("reason", .str envelope.payload.reason)] }

/-- The payload of the dispositions that only need a note. -/
structure NotedPayload extends FeatureRunRef where
  notes : String

/-- The approval a disposition of `human_required` records. -/
def disposition {P : Type} (envelope : CommandEnvelope P) (ref : FeatureRunRef) (run : FeatureRun)
    (contextType : String) (contextId : Option String) (decision : ApprovalDecision)
    (notes : String) : HumanApprovalOpts where
  projectId := ref.projectId
  featureRequestId := some run.featureRequestId
  featureRunId := some ref.featureRunId
  contextType
  contextId
  decision
  actor := envelope.actor.id
  actorRole := envelope.actor.role
  notes := some notes

abbrev RetryFeaturePayload := NotedPayload

/-- `RetryFeatureHandler`. -/
def retryFeatureHandler : FeatureHandler RetryFeaturePayload where
  commandName := "RetryFeatureCommand"
  requiredRole := .approver
  requiredActorKind := .human
  idempotencyScope := "retry-feature"
  Evidence := Unit
  evidence _ := pure ()
  evidence_only _ := frame_pure _
  transition envelope _ := { envelope.payload.toFeatureRunRef with
    toState := .selected
    Checked := Unit
    guard := fun _ => assertActiveFeatureRun envelope.payload.featureRunId
      envelope.payload.projectId {
        type := "not-active-feature-run"
        title := "Feature run is not the project’s active feature"
        status := 409
        detail := s!"Feature run {envelope.payload.featureRunId} is not " ++
          s!"workflow_states.active_feature_run_id for project {envelope.payload.projectId}; " ++
          "retry only applies to the currently active feature"
        instance? := some envelope.correlationId }
    guard_core := fun _ => core_assertActiveFeatureRun _
    effects := fun run _ => recordApproval (disposition envelope envelope.payload.toFeatureRunRef
      run "human_escalation_resolution" none .approved envelope.payload.notes)
    effects_core := fun _ _ => (core_recordApproval _).map unpointed
    effects_pointer := fun _ _ _ _ h => keep_of_core (core_recordApproval _) h
    eventType := "feature.retried"
    eventFrom := fun _ => .humanRequired
    outboxPayload := fun _ => runPayload envelope.payload.toFeatureRunRef }

structure ResumeFeatureExecutionPayload extends NotedPayload where
  disagreementId : Option String := none

/-- The disagreement guard of a resume: nothing to settle without a disagreement id. -/
def resumeGuard (envelope : CommandEnvelope ResumeFeatureExecutionPayload) : Sql Unit :=
  match truthy envelope.payload.disagreementId with
  | none => pure ()
  | some id => do
    let _ ← settleDisagreement envelope.payload.featureRunId (some id) envelope.payload.notes
      "Disagreement not found for this feature run"
      (s!"Disagreement {id} is not an open/escalated disagreement for feature run " ++
        s!"{envelope.payload.featureRunId}")
      envelope.correlationId
    pure ()

theorem core_resumeGuard (envelope : CommandEnvelope ResumeFeatureExecutionPayload) :
    Frame coreView (resumeGuard envelope) := by
  unfold resumeGuard
  split
  · exact frame_pure _
  · exact frame_bind (core_settleDisagreement _ _ _ _) fun _ => frame_pure _

/-- `ResumeFeatureExecutionHandler`. -/
def resumeFeatureExecutionHandler : FeatureHandler ResumeFeatureExecutionPayload where
  commandName := "ResumeFeatureExecutionCommand"
  requiredRole := .approver
  requiredActorKind := .human
  idempotencyScope := "resume-feature-execution"
  Evidence := Unit
  evidence _ := pure ()
  evidence_only _ := frame_pure _
  transition envelope _ := { envelope.payload.toFeatureRunRef with
    toState := .underReview
    Checked := Unit
    guard := fun _ => resumeGuard envelope
    guard_core := fun _ => core_resumeGuard envelope
    effects := fun run _ => recordApproval (disposition envelope envelope.payload.toFeatureRunRef
      run
      (if (truthy envelope.payload.disagreementId).isSome then "disagreement_resolution"
        else "human_escalation_resolution")
      envelope.payload.disagreementId .approved envelope.payload.notes)
    effects_core := fun _ _ => (core_recordApproval _).map unpointed
    effects_pointer := fun _ _ _ _ h => keep_of_core (core_recordApproval _) h
    eventType := "feature.resumed_from_human_required"
    eventFrom := fun _ => .humanRequired
    outboxPayload := fun _ => runPayload envelope.payload.toFeatureRunRef }

structure ResolveDisagreementPayload extends FeatureRunRef where
  resolution : String
  disagreementId : Option String := none

/-- The disagreement guard of a resolution: without an id, the run's open disagreement. -/
def resolveGuard (envelope : CommandEnvelope ResolveDisagreementPayload) : Sql String :=
  settleDisagreement envelope.payload.featureRunId envelope.payload.disagreementId
    envelope.payload.resolution "No open disagreement to resolve"
    (match truthy envelope.payload.disagreementId with
      | some id => s!"Disagreement {id} is not an open/escalated disagreement for feature run " ++
          s!"{envelope.payload.featureRunId}"
      | none => s!"Feature run {envelope.payload.featureRunId} has no open disagreement_records row")
    envelope.correlationId

/-- `ResolveDisagreementHandler`. -/
def resolveDisagreementHandler : FeatureHandler ResolveDisagreementPayload where
  commandName := "ResolveDisagreementCommand"
  requiredRole := .approver
  requiredActorKind := .human
  idempotencyScope := "resolve-disagreement"
  Evidence := Unit
  evidence _ := pure ()
  evidence_only _ := frame_pure _
  transition envelope _ := { envelope.payload.toFeatureRunRef with
    toState := .changesRequested
    Checked := String
    guard := fun _ => resolveGuard envelope
    guard_core := fun _ => core_settleDisagreement _ _ _ _
    effects := fun run disagreementId => recordApproval (disposition envelope
      envelope.payload.toFeatureRunRef run "disagreement_resolution" (some disagreementId) .approved
      envelope.payload.resolution)
    effects_core := fun _ _ => (core_recordApproval _).map unpointed
    effects_pointer := fun _ _ _ _ h => keep_of_core (core_recordApproval _) h
    eventType := "feature.disagreement_resolved"
    eventFrom := fun _ => .humanRequired
    outboxPayload := fun disagreementId => runPayload envelope.payload.toFeatureRunRef ++ [
      ("disagreementId", .str disagreementId),
      ("resolution", .str envelope.payload.resolution)] }

/-! ### Blocking -/

/-- The side effects of the two dispositions that give the run up: the project is released, then the
approval is recorded. -/
def giveUp (ref : FeatureRunRef) (approval : HumanApprovalOpts) : Sql Unit := do
  releaseProject ref.featureRunId ref.projectId
  recordApproval approval

theorem unpointed_giveUp (ref : FeatureRunRef) (approval : HumanApprovalOpts) :
    Frame (fun s => unpointed (coreView s)) (giveUp ref approval) :=
  frame_bind unpointed_releaseProject fun _ => (core_recordApproval approval).map unpointed

theorem giveUp_moves {ref : FeatureRunRef} {approval : HumanApprovalOpts} {s s' : Session}
    (h : exec (giveUp ref approval) s = (.ok (), s')) :
    PointerMove.release.Moves ref.projectId ref.featureRunId s.db.workflowStates
      s'.db.workflowStates := by
  obtain ⟨_, s₁, hrelease, hrecord⟩ := exec_bind_ok.mp h
  rw [pointers_of_core (core_recordApproval approval) hrecord]
  exact releaseProject_moves hrelease

abbrev BlockFeaturePayload := NotedPayload

/-- `BlockFeatureHandler`. -/
def blockFeatureHandler : FeatureHandler BlockFeaturePayload where
  commandName := "BlockFeatureCommand"
  requiredRole := .approver
  requiredActorKind := .human
  idempotencyScope := "block-feature"
  Evidence := Unit
  evidence _ := pure ()
  evidence_only _ := frame_pure _
  transition envelope _ := { envelope.payload.toFeatureRunRef with
    toState := .blocked
    Checked := Unit
    guard := fun _ => pure ()
    effects := fun run _ => giveUp envelope.payload.toFeatureRunRef (disposition envelope
      envelope.payload.toFeatureRunRef run "human_escalation_resolution" none .deferred
      envelope.payload.notes)
    effects_core := fun _ _ => unpointed_giveUp _ _
    pointer := .release
    effects_pointer := fun _ _ _ _ h => giveUp_moves h
    eventType := "feature.blocked_by_human"
    eventFrom := fun _ => .humanRequired
    outboxPayload := fun _ => runPayload envelope.payload.toFeatureRunRef }

abbrev UnblockFeaturePayload := FeatureRunRef

/-- `UnblockFeatureHandler`: the automatic path, once every dependency is merged. -/
def unblockFeatureHandler : FeatureHandler UnblockFeaturePayload where
  commandName := "UnblockFeatureCommand"
  requiredRole := .admin
  requiredActorKind := .system
  idempotencyScope := "unblock-feature"
  Evidence := Unit
  evidence _ := pure ()
  evidence_only _ := frame_pure _
  transition envelope _ := { envelope.payload with
    toState := .approvedPendingExecution
    Checked := Unit
    guard := fun run => assertDependenciesMerged run.featureRequestId envelope.correlationId
      fun n => s!"Cannot unblock feature: {n} dependency(ies) not yet merged"
    guard_core := fun _ => core_assertDependenciesMerged _ _
    eventType := "feature.unblocked"
    eventFrom := fun _ => .blocked
    outboxPayload := fun _ => runPayload envelope.payload }

abbrev HumanUnblockFeaturePayload := NotedPayload

/-- `HumanUnblockFeatureHandler`: the same edge and the same guard, and an approval. -/
def humanUnblockFeatureHandler : FeatureHandler HumanUnblockFeaturePayload where
  commandName := "HumanUnblockFeatureCommand"
  requiredRole := .approver
  requiredActorKind := .human
  idempotencyScope := "human-unblock-feature"
  Evidence := Unit
  evidence _ := pure ()
  evidence_only _ := frame_pure _
  transition envelope _ := { envelope.payload.toFeatureRunRef with
    toState := .approvedPendingExecution
    Checked := Unit
    guard := fun run => assertDependenciesMerged run.featureRequestId envelope.correlationId
      fun n => s!"Cannot unblock feature: {n} dependency(ies) not yet merged. " ++
        "Resolve the upstream dependency (e.g. retry it to 'merged') before unblocking this run."
    guard_core := fun _ => core_assertDependenciesMerged _ _
    effects := fun run _ => recordApproval (disposition envelope envelope.payload.toFeatureRunRef
      run "human_escalation_resolution" none .approved envelope.payload.notes)
    effects_core := fun _ _ => (core_recordApproval _).map unpointed
    effects_pointer := fun _ _ _ _ h => keep_of_core (core_recordApproval _) h
    eventType := "feature.unblocked"
    eventFrom := fun _ => .blocked
    outboxPayload := fun _ => runPayload envelope.payload.toFeatureRunRef }

/-! ### Skipping -/

namespace Db

/-- The pending runs of the features that depend on a feature request. -/
def pendingDependents (db : Db) (featureRequestId : String) : List FeatureRun :=
  (db.featureDependencies.select (·.targetFrId == featureRequestId)).flatMap fun fd =>
    db.featureRuns.select fun fr => fr.featureRequestId == fd.sourceFrId &&
      fr.currentExecutionState == .approvedPendingExecution

/-- `id = ? AND version = ?`. -/
def isVersion (featureRunId : String) (version : ℕ) (run : FeatureRun) : Bool :=
  run.id == featureRunId && run.version == version

/-- The `SET` list of a cascade. -/
def blockedAt (version : ℕ) (run : FeatureRun) : FeatureRun :=
  { run with currentExecutionState := .blocked, version := nextVersion version }

theorem keyFree_blockedAt (version : ℕ) : KeyFree (blockedAt version) := fun _ _ => rfl

/-- The conditional `UPDATE` that blocks a dependent run. -/
def blockRun (db : Db) (featureRunId : String) (version : ℕ) : ℕ × Db :=
  (db.featureRuns.count (isVersion featureRunId version),
    { db with
      featureRuns := db.featureRuns.update (isVersion featureRunId version) (blockedAt version)
        (keyFree_blockedAt version) })

end Db

/-- `MAX_CASCADE_RETRIES`. -/
def maxCascadeRetries : ℕ := 3

/-- The retry loop around one dependent: its `UPDATE` under the version it was read at, and, where
that matched no row, a fresh read.  Returns whether the run was blocked. -/
def blockDependent (featureRunId : String) : ℕ → ℕ → Sql Bool
  | 0, _ => pure false
  | attempts + 1, version => do
    let affected ← execute fun db => some (db.blockRun featureRunId version)
    if affected > 0 then pure true
    else
      let fresh ← query fun db => db.featureRuns.find? fun run => run.id == featureRunId
      match fresh with
      | none => pure false
      | some run =>
        if run.currentExecutionState ≠ .approvedPendingExecution then pure false
        else blockDependent featureRunId attempts run.version

/-- The event and the outbox row of a dependent that was blocked. -/
def recordBlockedDependent (ref : FeatureRunRef) (actorId dependentId : String) : Sql Unit := do
  let _ ← writeWorkflowEvent {
    featureRunId := some dependentId
    projectId := some ref.projectId
    eventType := "feature.blocked_by_skipped_dependency"
    fromState := FeatureExecutionState.approvedPendingExecution.literal
    toState := FeatureExecutionState.blocked.literal
    actorId }
  let _ ← writeOutboxEvent "feature.blocked_by_skipped_dependency" [
    ("featureRunId", .str dependentId),
    ("projectId", .str ref.projectId),
    ("skippedFeatureRunId", .str ref.featureRunId)]
  pure ()

/-- The loop over the dependents of a skipped run. -/
def blockDependents (ref : FeatureRunRef) (actorId : String) : List FeatureRun → Sql Unit
  | [] => pure ()
  | dependent :: dependents => do
    let _ ← orThrow (assertValid .approvedPendingExecution .blocked)
    let blocked ← blockDependent dependent.id maxCascadeRetries dependent.version
    if blocked = true then
      recordBlockedDependent ref actorId dependent.id
      blockDependents ref actorId dependents
    else
      blockDependents ref actorId dependents

/-- The cascade of a skip: every pending dependent is blocked. -/
def cascadeSkip (ref : FeatureRunRef) (actorId : String) (run : FeatureRun) : Sql Unit := do
  let dependents ← query fun db => db.pendingDependents run.featureRequestId
  blockDependents ref actorId dependents

section Cascade

variable {ref : FeatureRunRef} {actorId : String} {s s' : Session}

theorem unrun_blockDependent (featureRunId : String) (attempts version : ℕ) :
    Frame (fun s => unrun (coreView s)) (blockDependent featureRunId attempts version) := by
  induction attempts generalizing version with
  | zero => exact frame_pure _
  | succ attempts ih =>
    refine frame_bind (frame_execute (fun _ _ _ => rfl) fun s n db h => ?_) fun affected =>
      frame_ite (frame_pure _) (frame_bind (frame_query (fun _ _ _ => rfl) _) fun fresh => ?_)
    · obtain ⟨-, rfl⟩ := Prod.mk.inj (Option.some.inj h)
      rfl
    · rcases fresh with _ | run
      · exact frame_pure _
      · exact frame_ite (frame_pure _) (ih run.version)

theorem core_recordBlockedDependent (dependentId : String) :
    Frame coreView (recordBlockedDependent ref actorId dependentId) :=
  frame_bind (frame_writeWorkflowEvent seesData_coreView (fun _ _ => rfl) _) fun _ =>
    frame_bind (frame_writeOutboxEvent seesData_coreView (fun _ _ => rfl) _ _) fun _ =>
    frame_pure _

theorem unrun_blockDependents (dependents : List FeatureRun) :
    Frame (fun s => unrun (coreView s)) (blockDependents ref actorId dependents) := by
  induction dependents with
  | nil => exact frame_pure _
  | cons dependent dependents ih =>
    exact frame_bind (frame_orThrow _) fun _ => frame_bind (unrun_blockDependent _ _ _) fun _ =>
      frame_ite (frame_bind ((core_recordBlockedDependent _).map unrun) fun _ => ih) ih

theorem unrun_cascadeSkip (run : FeatureRun) :
    Frame (fun s => unrun (coreView s)) (cascadeSkip ref actorId run) :=
  frame_bind (frame_query (fun _ _ _ => rfl) _) fun _ => unrun_blockDependents _

/-- The `UPDATE` of a cascade, when only a pending run has the id and the version. -/
theorem blockRun_rewritten {db : Db} {featureRunId : String} {version : ℕ}
    (hpending : ∀ r ∈ db.featureRuns.rows, r.id = featureRunId → r.version = version →
      r.currentExecutionState = .approvedPendingExecution) :
    db.featureRuns.Rewritten (Cascaded .skipped) (db.blockRun featureRunId version).2.featureRuns := by
  refine Table.Rewritten.imp_of_mem (Table.Rewritten.update _ _ (Db.keyFree_blockedAt version))
    fun r hr r' hr' => ?_
  by_cases hmatch : Db.isVersion featureRunId version r = true
  · rw [Table.updateRow_of_pos hmatch] at hr'
    simp only [Db.isVersion, Bool.and_eq_true, beq_iff_eq] at hmatch
    refine Or.inr ⟨rfl, hpending r hr hmatch.1 hmatch.2, ?_⟩
    rw [hr', ← hmatch.2]
    rfl
  · rw [Table.updateRow_of_neg (by simpa using hmatch)] at hr'
    exact Or.inl hr'

/-- The retry loop blocks a pending run or leaves the runs as they are: before each attempt only a
pending run has the id and the version. -/
theorem blockDependent_runs {featureRunId : String} {attempts version : ℕ} {blocked : Bool}
    (hpending : ∀ r ∈ s.db.featureRuns.rows, r.id = featureRunId → r.version = version →
      r.currentExecutionState = .approvedPendingExecution)
    (h : exec (blockDependent featureRunId attempts version) s = (.ok blocked, s')) :
    s.db.featureRuns.Rewritten (Cascaded .skipped) s'.db.featureRuns := by
  induction attempts generalizing version s with
  | zero =>
    obtain ⟨-, rfl⟩ := Prod.mk.inj h
    exact Cascaded.refl _ _
  | succ attempts ih =>
    obtain ⟨affected, s₁, hupdate, h₁⟩ := exec_bind_ok.mp h
    obtain ⟨hdb, -⟩ := execute_ok hupdate
    obtain ⟨hcount, hdb'⟩ := Prod.mk.inj (Option.some.inj hdb)
    rw [exec_ite] at h₁
    split at h₁
    · obtain ⟨-, rfl⟩ := Prod.mk.inj h₁
      rw [← hdb']
      exact blockRun_rewritten hpending
    · -- no row matched: the tables are as before, and the row is read again
      rename_i hnone
      have hzero : s.db.featureRuns.count (Db.isVersion featureRunId version) = 0 := by
        have hle := Nat.not_lt.mp hnone
        rw [← hcount] at hle
        exact Nat.le_zero.mp hle
      have hruns : s₁.db.featureRuns = s.db.featureRuns := by
        rw [← hdb']
        exact Table.update_eq_self (Db.keyFree_blockedAt version) hzero
      obtain ⟨fresh, s₂, hquery, h₂⟩ := exec_bind_ok.mp h₁
      obtain ⟨hfresh, hdb₂, -⟩ := query_ok hquery
      have hruns₂ : s₂.db.featureRuns = s.db.featureRuns := by rw [hdb₂, hruns]
      rw [← hruns₂]
      rcases fresh with _ | run
      · obtain ⟨-, rfl⟩ := Prod.mk.inj h₂
        exact Cascaded.refl _ _
      · simp only [exec_ite] at h₂
        split at h₂
        · obtain ⟨-, rfl⟩ := Prod.mk.inj h₂
          exact Cascaded.refl _ _
        · rename_i hstate
          refine ih (fun r hr hid _ => ?_) h₂
          have hfound := hfresh.symm
          rw [← hdb₂] at hfound
          have hmem := s₂.db.featureRuns.mem_of_find? hfound
          have hrun : (run.id == featureRunId) = true := s₂.db.featureRuns.prop_of_find? hfound
          have hsame : r = run := s₂.db.featureRuns.eq_of_clash hr hmem
            (decide_eq_true (hid.trans (beq_iff_eq.mp hrun).symm))
          rw [hsame]
          exact not_not.mp hstate

/-- A row that was pending at its version, after a cascade: it is pending still, or its version has
moved on. -/
theorem pending_of_cascaded {t t' : Table FeatureRun} {dependent : FeatureRun}
    (hmem : dependent ∈ t.rows) (hpending : dependent.currentExecutionState = .approvedPendingExecution)
    (hsofar : t.Rewritten (Cascaded .skipped) t') :
    ∀ r ∈ t'.rows, r.id = dependent.id → r.version = dependent.version →
      r.currentExecutionState = .approvedPendingExecution := by
  intro r hr hid hversion
  obtain ⟨r₀, hr₀, hcas⟩ := hsofar.exists_mem_of hr
  have hid₀ : r₀.id = dependent.id := by
    rcases hcas with rfl | ⟨-, -, rfl⟩
    · exact hid
    · exact hid
  obtain rfl := t.eq_of_clash hr₀ hmem (decide_eq_true hid₀)
  rcases hcas with rfl | ⟨-, -, rfl⟩
  · exact hpending
  · have hlater : r₀.version + 1 = r₀.version := hversion
    omega

/-- One turn of the loop: after the dependent is blocked, the record of it leaves the runs alone. -/
theorem blockDependents_cons {dependent : FeatureRun} {dependents : List FeatureRun}
    (h : exec (blockDependents ref actorId (dependent :: dependents)) s = (.ok (), s')) :
    ∃ blocked s₂ s₃, exec (blockDependent dependent.id maxCascadeRetries dependent.version) s =
        (.ok blocked, s₂) ∧ s₃.db.featureRuns = s₂.db.featureRuns ∧
      exec (blockDependents ref actorId dependents) s₃ = (.ok (), s') := by
  obtain ⟨edge, s₁, hedge, h₁⟩ := exec_bind_ok.mp h
  obtain ⟨-, rfl⟩ := orThrow_ok hedge
  obtain ⟨blocked, s₂, hblock, h₂⟩ := exec_bind_ok.mp h₁
  rw [exec_ite] at h₂
  split at h₂
  · obtain ⟨_, s₃, hrecord, h₃⟩ := exec_bind_ok.mp h₂
    have hcore := (core_recordBlockedDependent dependent.id).of_exec hrecord
    exact ⟨blocked, s₂, s₃, hblock, congrArg (fun v => v.1.featureRuns) hcore, h₃⟩
  · exact ⟨blocked, s₂, s₂, hblock, rfl, h₂⟩

/-- The loop over the dependents: every one was pending in the table the cascade started from. -/
theorem blockDependents_runs {t : Table FeatureRun} {dependents : List FeatureRun}
    (hdeps : ∀ r ∈ dependents, r ∈ t.rows ∧ r.currentExecutionState = .approvedPendingExecution)
    (hsofar : t.Rewritten (Cascaded .skipped) s.db.featureRuns)
    (h : exec (blockDependents ref actorId dependents) s = (.ok (), s')) :
    t.Rewritten (Cascaded .skipped) s'.db.featureRuns := by
  induction dependents generalizing s with
  | nil =>
    obtain ⟨-, rfl⟩ := Prod.mk.inj h
    exact hsofar
  | cons dependent dependents ih =>
    obtain ⟨hmem, hpending⟩ := hdeps dependent List.mem_cons_self
    obtain ⟨blocked, s₂, s₃, hblock, hkeep, hrest⟩ := blockDependents_cons h
    have hturn := blockDependent_runs (pending_of_cascaded hmem hpending hsofar) hblock
    have hsofar' : t.Rewritten (Cascaded .skipped) s₃.db.featureRuns := by
      rw [hkeep]
      exact hsofar.trans hturn fun _ _ _ => Cascaded.trans
    exact ih (fun r hr => hdeps r (List.mem_cons_of_mem dependent hr)) hsofar' hrest

theorem mem_pendingDependents {db : Db} {featureRequestId : String} {run : FeatureRun}
    (h : run ∈ db.pendingDependents featureRequestId) :
    run ∈ db.featureRuns.rows ∧ run.currentExecutionState = .approvedPendingExecution := by
  obtain ⟨fd, -, hrun⟩ := List.mem_flatMap.mp h
  obtain ⟨hmem, hp⟩ := List.mem_filter.mp hrun
  rw [Bool.and_eq_true, beq_iff_eq, beq_iff_eq] at hp
  exact ⟨hmem, hp.2⟩

/-- **The cascade of a skip blocks pending runs and touches no other.** -/
theorem cascadeSkip_runs {run : FeatureRun}
    (h : exec (cascadeSkip ref actorId run) s = (.ok (), s')) :
    s.db.featureRuns.Rewritten (Cascaded .skipped) s'.db.featureRuns := by
  obtain ⟨dependents, s₁, hquery, hrest⟩ := exec_bind_ok.mp h
  obtain ⟨rfl, hdb, -⟩ := query_ok hquery
  refine blockDependents_runs (fun r hr => mem_pendingDependents hr) ?_ hrest
  rw [hdb]
  exact Cascaded.refl _ _

end Cascade

abbrev SkipFeaturePayload := NotedPayload

/-- `SkipFeatureHandler`. -/
def skipFeatureHandler : FeatureHandler SkipFeaturePayload where
  commandName := "SkipFeatureCommand"
  requiredRole := .approver
  requiredActorKind := .human
  idempotencyScope := "skip-feature"
  Evidence := Unit
  evidence _ := pure ()
  evidence_only _ := frame_pure _
  transition envelope _ := { envelope.payload.toFeatureRunRef with
    toState := .skipped
    Checked := Unit
    guard := fun _ => pure ()
    effects := fun run _ => giveUp envelope.payload.toFeatureRunRef (disposition envelope
      envelope.payload.toFeatureRunRef run "human_escalation_resolution" none .rejected
      envelope.payload.notes)
    effects_core := fun _ _ => unpointed_giveUp _ _
    pointer := .release
    effects_pointer := fun _ _ _ _ h => giveUp_moves h
    eventType := "feature.skipped"
    eventFrom := fun _ => .humanRequired
    outboxPayload := fun _ => runPayload envelope.payload.toFeatureRunRef
    cascade := cascadeSkip envelope.payload.toFeatureRunRef envelope.actor.id
    cascade_core := unrun_cascadeSkip
    cascade_runs := fun _ _ _ h => cascadeSkip_runs h }

/-! ### The outcome of a merge -/

structure RecordMergedPayload extends FeatureRunRef where
  mergeSha : String

/-- The side effects of a recorded merge: the mirror row, then the release of the project. -/
def recordMerge (payload : RecordMergedPayload) : Sql Unit := do
  mergePullRequestRow payload.featureRunId payload.mergeSha
  releaseProject payload.featureRunId payload.projectId

theorem unpointed_recordMerge (payload : RecordMergedPayload) :
    Frame (fun s => unpointed (coreView s)) (recordMerge payload) :=
  frame_bind ((core_mergePullRequestRow payload.mergeSha).map unpointed) fun _ =>
    unpointed_releaseProject

theorem recordMerge_moves {payload : RecordMergedPayload} {s s' : Session}
    (h : exec (recordMerge payload) s = (.ok (), s')) :
    PointerMove.release.Moves payload.projectId payload.featureRunId s.db.workflowStates
      s'.db.workflowStates := by
  obtain ⟨_, s₁, hmirror, hrelease⟩ := exec_bind_ok.mp h
  rw [← pointers_of_core (core_mergePullRequestRow payload.mergeSha) hmirror]
  exact releaseProject_moves hrelease

/-- `RecordMergedHandler`. -/
def recordMergedHandler : FeatureHandler RecordMergedPayload where
  commandName := "RecordMergedCommand"
  requiredRole := .admin
  requiredActorKind := .system
  idempotencyScope := "record-merged"
  Evidence := Unit
  evidence _ := pure ()
  evidence_only _ := frame_pure _
  transition envelope _ := { envelope.payload.toFeatureRunRef with
    toState := .merged
    Checked := Unit
    guard := fun _ => pure ()
    effects := fun _ _ => recordMerge envelope.payload
    effects_core := fun _ _ => unpointed_recordMerge _
    pointer := .release
    effects_pointer := fun _ _ _ _ h => recordMerge_moves h
    eventType := "feature.merged"
    outboxPayload := fun _ => runPayload envelope.payload.toFeatureRunRef ++
      [("mergeSha", .str envelope.payload.mergeSha)] }

structure RecordMergeFailedPayload extends FeatureRunRef where
  reason : String
  autoClearable : Bool

/-- `RecordMergeFailedHandler`. -/
def recordMergeFailedHandler : FeatureHandler RecordMergeFailedPayload where
  commandName := "RecordMergeFailedCommand"
  requiredRole := .admin
  requiredActorKind := .system
  idempotencyScope := "record-merge-failed"
  Evidence := Unit
  evidence _ := pure ()
  evidence_only _ := frame_pure _
  transition envelope _ := { envelope.payload.toFeatureRunRef with
    toState := .mergeFailed
    Checked := Unit
    guard := fun _ => pure ()
    eventType := "feature.merge_failed"
    outboxPayload := fun _ => runPayload envelope.payload.toFeatureRunRef ++ [
      ("reason", .str envelope.payload.reason),
      ("autoClearable", .bool envelope.payload.autoClearable)] }

abbrev ReconcileMergeFailedPayload := FeatureRunRef

/-- `ReconcileMergeFailedHandler`. -/
def reconcileMergeFailedHandler : FeatureHandler ReconcileMergeFailedPayload where
  commandName := "ReconcileMergeFailedCommand"
  requiredRole := .admin
  requiredActorKind := .system
  idempotencyScope := "reconcile-merge-failed"
  Evidence := Unit
  evidence _ := pure ()
  evidence_only _ := frame_pure _
  transition envelope _ := { envelope.payload with
    toState := .underReview
    Checked := Unit
    guard := fun _ => pure ()
    eventType := "feature.returned_to_review"
    outboxPayload := fun _ => runPayload envelope.payload }

end MiniCoder
