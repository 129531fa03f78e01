import MiniCoder.Commands.Handlers.Backlog

/-!
# The handlers that move a plan

Submission, approval and activation move the row of a plan along `PLAN_LIFECYCLE_MATRIX`; `PlanMove`
is what differs from one to the next.  The activation inserts the first run of every executable
feature that has none.

* `activateFeatures_ok`: the runs that an activation leaves.
* `movePlan_ok`: **what a command of the three that did its work found and wrote**.
-/

open Storage Storage.Action

namespace MiniCoder

/-! ### Moves of a plan -/

/-- The fields of the payloads that name a plan. -/
structure PlanRef where
  planId : String
  projectId : String
  expectedVersion : ℕ
  deriving DecidableEq, Repr

/-- What differs from one handler that moves a plan to the next. -/
structure PlanMove where
  toState : PlanState
  guard : ImplementationPlan → Sql Unit
  /-- What the handler writes beside the row; returns what it adds to the payload of its outbox row. -/
  effects : Sql Payload
  eventType : String
  /-- The `from_state` of the event: a constant. -/
  eventFrom : PlanState
  guard_reads : ∀ plan, Frame (fun s : Session => (s.db, s.runtime)) (guard plan)
  effects_keys : Frame (fun s : Session => (s.db.idempotencyKeys, s.runtime)) effects

/-- The `SET` list of the `UPDATE`, on the row that was read. -/
def ImplementationPlan.moved (state : PlanState) (version : ℕ) (plan : ImplementationPlan) :
    ImplementationPlan :=
  { plan with state, version }

theorem ImplementationPlan.moved_keys (state : PlanState) (version : ℕ) :
    KeyFree (ImplementationPlan.moved state version) := fun _ _ => rfl

/-- `id = ? AND version = ?`. -/
def ImplementationPlan.isAt (id : String) (version : ℕ) (plan : ImplementationPlan) : Bool :=
  plan.id == id && plan.version == version

/-- The error for a missing plan. -/
def PlanRef.notFound (ref : PlanRef) (correlationId : String) : Failure :=
  .command {
    type := "not-found"
    title := "Plan not found"
    status := 404
    detail := s!"Plan {ref.planId} not found in project {ref.projectId}"
    instance? := some correlationId }

/-- The move of the plan's row. -/
def PlanMove.rowMove (move : PlanMove) (ref : PlanRef) (correlationId : String) :
    RowMove ImplementationPlan where
  table := implementationPlanTable
  tableName := "implementation_plans"
  rowId := ref.planId
  version := ImplementationPlan.version
  expectedVersion := ref.expectedVersion
  find db := db.findPlan ref.planId ref.projectId
  missing := some (ref.notFound correlationId)
  check plan := do
    let _ ← orThrow (planLifecycle.assertValid plan.state move.toState)
    move.guard plan
  isRow _ := ImplementationPlan.isAt ref.planId ref.expectedVersion
  moved plan := ImplementationPlan.moved move.toState (nextVersion plan.version)
  moved_keys _ := ImplementationPlan.moved_keys _ _
  check_reads plan := frame_bind (frame_orThrow _) fun _ => move.guard_reads plan

/-- The work of a handler that moves a plan, under its claim. -/
def movePlan {P : Type} (envelope : CommandEnvelope P) (ref : PlanRef) (move : PlanMove) :
    Sql CommandResult := do
  let _ ← (move.rowMove ref envelope.correlationId).run
  let details ← move.effects
  let eventIds ← recordMove
    [{ projectId := some ref.projectId
       eventType := move.eventType
       fromState := move.eventFrom.literal
       toState := move.toState.literal
       actorId := envelope.actor.id }]
    [(move.eventType, [
      ("planId", .str ref.planId),
      ("projectId", .str ref.projectId)] ++ details)]
  pure {
    commandId := envelope.commandId
    accepted := true
    resultingState := move.toState.literal
    emittedEventIds := eventIds }

section Moves

variable {P : Type} {envelope : CommandEnvelope P} {ref : PlanRef} {move : PlanMove}
  {s s' : Session}

theorem frame_movePlan {τ : Type} {g : Db × Runtime → τ}
    (hπ : Unplanned fun s : Session => g (s.db, s.runtime))
    (hplan : ∀ db rt t, g (implementationPlanTable.put db t, rt) = g (db, rt))
    (heffects : Frame (fun s : Session => g (s.db, s.runtime)) move.effects) :
    Frame (fun s : Session => g (s.db, s.runtime)) (movePlan envelope ref move) :=
  frame_bind (RowMove.frame_run hplan) fun _ => frame_bind heffects fun _ =>
    frame_bind (frame_recordMove hπ.sees hπ.events hπ.outbox _ _) fun _ => frame_pure _

theorem keys_movePlan :
    Frame (fun s => (s.db.idempotencyKeys, s.runtime)) (movePlan envelope ref move) :=
  frame_movePlan (g := fun p => (p.1.idempotencyKeys, p.2))
    ⟨⟨fun _ _ _ => rfl, fun _ _ => rfl, fun _ _ => rfl, fun _ _ => rfl, fun _ _ => rfl⟩,
      fun _ _ => rfl, fun _ _ => rfl, fun _ _ => rfl, fun _ _ => rfl⟩
    (fun _ _ _ => rfl) move.effects_keys

/-- **What a command that moved a plan found and wrote**: the plan in its project, at the version it
expected and with the edge in the matrix; its guard passed; it wrote the row of the plan, then its
side effects. -/
theorem movePlan_ok {result : CommandResult}
    (h : exec (movePlan envelope ref move) s = (.ok result, s')) :
    ∃ plan, s.db.findPlan ref.planId ref.projectId = some plan ∧
      plan.version = ref.expectedVersion ∧
      planLifecycle.isValid plan.state move.toState = true ∧
      (∃ s₁ s₂, s₁.db = s.db ∧ exec (move.guard plan) s₁ = (.ok (), s₂)) ∧
      ∃ s₃ s₄ details, s₃.db = implementationPlanTable.put s.db
          (s.db.planning.implementationPlans.update
            (ImplementationPlan.isAt ref.planId ref.expectedVersion)
            (ImplementationPlan.moved move.toState (nextVersion plan.version))
            (ImplementationPlan.moved_keys _ _)) ∧
        exec move.effects s₃ = (.ok details, s₄) ∧ s'.db.untraced = s₄.db.untraced := by
  obtain ⟨plan, s₃, hmove, h₁⟩ := exec_bind_ok.mp h
  obtain ⟨hfind, hversion, ⟨s₁, s₂, hs₁, -, hcheck⟩, -, hput, -⟩ := RowMove.run_ok hmove
  obtain ⟨row, s₂', hassert, hguard⟩ := exec_bind_ok.mp hcheck
  obtain ⟨hedge, rfl⟩ := orThrow_ok hassert
  have hvalid := planLifecycle.isValid_of_assertValid hedge
  obtain ⟨details, s₄, heffects, h₄⟩ := exec_bind_ok.mp h₁
  obtain ⟨ids, s₅, hrecord, h₅⟩ := exec_bind_ok.mp h₄
  obtain ⟨-, rfl⟩ := Prod.mk.inj h₅
  exact ⟨plan, hfind, hversion, hvalid, ⟨_, s₂, hs₁, hguard⟩, s₃, s₄, details, hput, heffects,
    (untraced_recordMove hrecord).1⟩

end Moves

/-- A handler that moves a plan. -/
def planHandler {P : Type} (commandName : String) (requiredRole : UserRole)
    (idempotencyScope : String) (ref : P → PlanRef) (move : CommandEnvelope P → PlanMove) :
    CommandHandler P where
  commandName
  requiredRole
  requiredActorKind := some .human
  idempotencyScope
  Evidence := Unit
  evidence _ := pure ()
  body envelope _ := movePlan envelope (ref envelope.payload) (move envelope)
  evidence_keys := evidence_keys_pure
  body_keys _ _ := keys_movePlan

/-! ### Submission -/

abbrev SubmitPlanForApprovalPayload := PlanRef

/-- The plan's backlog was validated as valid at its current version. -/
def ImplementationPlan.backlogValidated (plan : ImplementationPlan) : Prop :=
  plan.backlogValidatedState = some .valid ∧ plan.backlogValidatedVersion = some plan.backlogVersion

instance (plan : ImplementationPlan) : Decidable plan.backlogValidated :=
  inferInstanceAs (Decidable (_ ∧ _))

/-- The gate of a submission: a current validation, and no unresolved blocking gap. -/
def submissionGate (ref : PlanRef) (correlationId : String) (plan : ImplementationPlan) :
    Sql Unit := do
  orThrow (if plan.backlogValidated then .ok () else .error (.command {
    type := "backlog-not-validated"
    title := "Backlog has not passed validation"
    status := 409
    detail := s!"Plan {ref.planId} requires a passing ValidateBacklogCommand run against its current backlog (backlog_version={plan.backlogVersion}) before it can be submitted for approval"
    instance? := some correlationId }))
  let gaps ← queryBlockingGaps plan
  let assessmentId := plan.assessmentId.getD "null"
  orThrow (if gaps = [] then .ok () else .error (.command {
    type := "unresolved-blocking-gaps"
    title := "Unresolved blocking gaps"
    status := 409
    detail := s!"{gaps.length} unresolved blocking gap(s) for assessment {assessmentId}"
    instance? := some correlationId }))

theorem submissionGate_ok {ref : PlanRef} {correlationId : String} {plan : ImplementationPlan}
    {s s' : Session} (h : exec (submissionGate ref correlationId plan) s = (.ok (), s')) :
    plan.backlogValidated := by
  obtain ⟨_, s₁, hvalidated, -⟩ := exec_bind_ok.mp h
  by_contra hnot
  rw [if_neg hnot] at hvalidated
  simp [orThrow] at hvalidated

/-- The submission of a plan. -/
def submissionMove (envelope : CommandEnvelope SubmitPlanForApprovalPayload) : PlanMove where
  toState := .pendingApproval
  guard := submissionGate envelope.payload envelope.correlationId
  effects := pure []
  eventType := "plan.submitted_for_approval"
  eventFrom := .draft
  guard_reads plan := frame_bind (frame_orThrow _) fun _ =>
    frame_bind (frame_queryBlockingGaps (fun _ _ _ => rfl) plan) fun _ => frame_orThrow _
  effects_keys := frame_pure _

/-- `SubmitPlanForApprovalHandler`. -/
def submitPlanForApprovalHandler : CommandHandler SubmitPlanForApprovalPayload :=
  planHandler "SubmitPlanForApprovalCommand" .operator "submit-plan-for-approval" id submissionMove

/-! ### Approval -/

/-- The table of the approvals that name no decision. -/
def planApprovalTable : TableOf Db PlanApproval where
  get db := db.planning.approvals
  put db t := { db with planning := { db.planning with approvals := t } }
  get_put _ _ := rfl

structure ApprovePlanPayload extends PlanRef where
  notes : Option String := none

/-- The `INSERT` of an approval; the code stores no notes. -/
def insertPlanApproval (envelope : CommandEnvelope ApprovePlanPayload) : Sql Unit := do
  let id ← generateId
  insertInto planApprovalTable {
    id
    projectId := envelope.payload.projectId
    contextType := "plan_approval"
    contextId := envelope.payload.planId
    actor := envelope.actor.id
    actorRole := envelope.actor.role }

theorem frame_insertPlanApproval {τ : Type} {π : Session → τ} (hπ : SeesData π)
    (hput : ∀ s t, π { s with db := planApprovalTable.put s.db t } = π s)
    (envelope : CommandEnvelope ApprovePlanPayload) : Frame π (insertPlanApproval envelope) :=
  frame_bind (frame_generateId hπ) fun _ => frame_insertInto hπ hput _

/-- The approval of a plan. -/
def approvalMove (envelope : CommandEnvelope ApprovePlanPayload) : PlanMove where
  toState := .approved
  guard _ := pure ()
  effects := do
    insertPlanApproval envelope
    pure []
  eventType := "plan.approved"
  eventFrom := .pendingApproval
  guard_reads _ := frame_pure _
  effects_keys := frame_bind (frame_insertPlanApproval (fun _ _ _ => rfl) (fun _ _ => rfl) envelope)
    fun _ => frame_pure _

/-- `ApprovePlanHandler`. -/
def approvePlanHandler : CommandHandler ApprovePlanPayload :=
  planHandler "ApprovePlanCommand" .approver "approve-plan" ApprovePlanPayload.toPlanRef approvalMove

/-! ### Activation -/

/-- The `feature_runs` table. -/
def featureRunTable : TableOf Db FeatureRun where
  get := Db.featureRuns
  put db t := { db with featureRuns := t }
  get_put _ _ := rfl

abbrev ActivatePlanPayload := PlanRef

/-- The row of a request's first run. -/
def FeatureRun.first (id featureRequestId : String) : FeatureRun where
  id
  featureRequestId
  attemptNo := 1
  currentExecutionState := .approvedPendingExecution

/-- `feature_request_id = ? AND attempt_no = 1`. -/
def FeatureRun.isFirstAttempt (featureRequestId : String) (run : FeatureRun) : Bool :=
  run.featureRequestId == featureRequestId && run.attemptNo == 1

namespace Db

/-- `SELECT id FROM feature_requests WHERE plan_id = ? AND kind = 'feature'`. -/
def executableFeatures (db : Db) (planId : String) : List FeatureRequest :=
  db.featureRequests.select fun fr => fr.planId == planId && fr.kind == .feature

/-- The number of first runs of a request. -/
def firstAttempts (db : Db) (featureRequestId : String) : ℕ :=
  db.featureRuns.count (FeatureRun.isFirstAttempt featureRequestId)

end Db

/-- The loop over the executable features; returns how many runs it inserted. -/
def activateFeatures : List FeatureRequest → Sql ℕ
  | [] => pure 0
  | feature :: features => do
    let existing ← query fun db => db.featureRuns.select (FeatureRun.isFirstAttempt feature.id)
    if existing = [] then do
      let id ← generateId
      insertInto featureRunTable (FeatureRun.first id feature.id)
      let activatedFeatureCount ← activateFeatures features
      pure (activatedFeatureCount + 1)
    else activateFeatures features

/-- The first runs of a plan's executable features. -/
def activationEffects (planId : String) : Sql Payload := do
  let executableFeatures ← query fun db => db.executableFeatures planId
  let activatedFeatureCount ← activateFeatures executableFeatures
  pure [("activatedFeatureCount", .num activatedFeatureCount)]

section Activation

variable {features : List FeatureRequest} {s s' : Session}

theorem frame_activateFeatures {τ : Type} {π : Session → τ} (hπ : SeesData π)
    (hput : ∀ s t, π { s with db := featureRunTable.put s.db t } = π s) :
    Frame π (activateFeatures features) := by
  induction features with
  | nil => exact frame_pure _
  | cons feature features ih =>
    exact frame_bind (frame_query hπ _) fun _ => frame_ite (frame_bind (frame_generateId hπ)
      fun _ => frame_bind (frame_insertInto hπ hput _) fun _ => frame_bind ih fun _ => frame_pure _) ih

theorem frame_activationEffects {τ : Type} {π : Session → τ} (hπ : SeesData π)
    (hput : ∀ s t, π { s with db := featureRunTable.put s.db t } = π s) (planId : String) :
    Frame π (activationEffects planId) :=
  frame_bind (frame_query hπ _) fun _ => frame_bind (frame_activateFeatures hπ hput) fun _ =>
    frame_pure _

/-- The runs that an activation adds are first, pending runs of the features, and every feature has
one then; a request that had a first run keeps what it had. -/
theorem activateFeatures_ok {n : ℕ}
    (h : exec (activateFeatures features) s = (.ok n, s')) :
    (∃ fresh, s'.db.featureRuns.rows = s.db.featureRuns.rows ++ fresh ∧
        ∀ run ∈ fresh, run.attemptNo = 1 ∧ run.currentExecutionState = .approvedPendingExecution ∧
          run.featureRequestId ∈ features.map FeatureRequest.id) ∧
      ∀ id, s'.db.firstAttempts id =
        max (s.db.firstAttempts id) (if id ∈ features.map FeatureRequest.id then 1 else 0) := by
  induction features generalizing s n with
  | nil =>
    obtain ⟨-, rfl⟩ := Prod.mk.inj h
    exact ⟨⟨[], by simp, by simp⟩, by simp⟩
  | cons feature features ih =>
    obtain ⟨existing, s₁, hquery, h₁⟩ := exec_bind_ok.mp h
    obtain ⟨rfl, hdb₁, -⟩ := query_ok hquery
    by_cases hnone : s.db.featureRuns.select (FeatureRun.isFirstAttempt feature.id) = []
    · rw [if_pos hnone] at h₁
      obtain ⟨runId, s₂, hid, h₂⟩ := exec_bind_ok.mp h₁
      obtain ⟨-, rfl⟩ := Prod.mk.inj hid
      obtain ⟨_, s₃, hinsert, h₃⟩ := exec_bind_ok.mp h₂
      obtain ⟨m, s₄, hrest, h₄⟩ := exec_bind_ok.mp h₃
      obtain ⟨-, rfl⟩ := Prod.mk.inj h₄
      obtain ⟨t, ht, hdb₃, -⟩ := insertInto_ok hinsert
      obtain ⟨⟨fresh, hrows, hfresh⟩, hcount⟩ := ih hrest
      have hruns : s₃.db.featureRuns.rows =
          s.db.featureRuns.rows ++ [FeatureRun.first runId feature.id] := by
        rw [hdb₃]
        show t.rows = s.db.featureRuns.rows ++ [FeatureRun.first runId feature.id]
        rw [Table.rows_insert? ht, ← hdb₁]
        rfl
      constructor
      · refine ⟨FeatureRun.first runId feature.id :: fresh, ?_, ?_⟩
        · rw [hrows, hruns, List.append_assoc]
          rfl
        · intro run hrun
          rcases List.mem_cons.mp hrun with rfl | hlater
          · exact ⟨rfl, rfl, List.mem_cons_self⟩
          · obtain ⟨hattempt, hstate, hmem⟩ := hfresh run hlater
            exact ⟨hattempt, hstate, List.mem_cons_of_mem _ hmem⟩
      · intro id
        have hzero : s.db.firstAttempts feature.id = 0 :=
          List.countP_eq_length_filter.trans (congrArg List.length hnone)
        have hthird : s₃.db.firstAttempts id =
            s.db.firstAttempts id + (if id = feature.id then 1 else 0) := by
          rw [Db.firstAttempts, Table.count, hruns, List.countP_append, List.countP_singleton]
          by_cases hid : id = feature.id
          · simp [Db.firstAttempts, Table.count, FeatureRun.first, FeatureRun.isFirstAttempt, hid]
          · simp [Db.firstAttempts, Table.count, FeatureRun.first, FeatureRun.isFirstAttempt, hid,
              Ne.symm hid]
        rw [hcount id, hthird]
        simp only [List.map_cons, List.mem_cons]
        by_cases hid : id = feature.id
        · subst hid
          rw [hzero]
          simp only [true_or, if_true]
          split
          · omega
          · omega
        · simp [hid]
    · rw [if_neg hnone] at h₁
      obtain ⟨⟨fresh, hrows, hfresh⟩, hcount⟩ := ih h₁
      rw [hdb₁] at hrows hcount
      refine ⟨⟨fresh, hrows, fun run hrun => ?_⟩, fun id => ?_⟩
      · obtain ⟨hattempt, hstate, hmem⟩ := hfresh run hrun
        exact ⟨hattempt, hstate, List.mem_cons_of_mem _ hmem⟩
      · have hone : 0 < s.db.firstAttempts feature.id := by
          rw [Db.firstAttempts, Table.count, List.countP_eq_length_filter]
          exact List.length_pos_of_ne_nil hnone
        rw [hcount id]
        simp only [List.map_cons, List.mem_cons]
        by_cases hid : id = feature.id
        · subst hid
          simp only [true_or, if_true]
          split
          · omega
          · omega
        · simp [hid]

end Activation

/-- The activation of a plan. -/
def activationMove (envelope : CommandEnvelope ActivatePlanPayload) : PlanMove where
  toState := .activatedForExecution
  guard _ := pure ()
  effects := activationEffects envelope.payload.planId
  eventType := "plan.activated"
  eventFrom := .approved
  guard_reads _ := frame_pure _
  effects_keys := frame_activationEffects (fun _ _ _ => rfl) (fun _ _ => rfl) _

/-- `ActivatePlanHandler`. -/
def activatePlanHandler : CommandHandler ActivatePlanPayload :=
  planHandler "ActivatePlanCommand" .approver "activate-plan" id activationMove

end MiniCoder
