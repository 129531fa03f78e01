import MiniCoder.Commands.Total

/-!
# The handlers of `commands/handlers/automation`

Pause and resume, the two budget stops, and the override that clears them.  All five move the
project's row of `workflow_states` in one way; `AutomationEdge` is what differs from one to the next.

* `moveAutomation_ok`: **what a command of the five that did its work found and wrote**.
* `returns_moveAutomation`: a command of the five without a policy decision returns when it finds that.
-/

open Storage Storage.Action

namespace MiniCoder

/-! ### Policy decisions -/

/-- The `policy_decisions` table. -/
def policyDecisionTable : TableOf Db PolicyDecision where
  get := Db.policyDecisions
  put db t := { db with policyDecisions := t }
  get_put _ _ := rfl

/-- The options of `insertPolicyDecision`. -/
structure PolicyDecisionOpts where
  projectId : String
  featureRunId : Option String := none
  policyType : String
  decision : String
  context : Option Payload := none
  actor : String

/-- `insertPolicyDecision`; returns the id of the decision. -/
def insertPolicyDecision (opts : PolicyDecisionOpts) : Sql String := do
  let id ← generateId
  let now ← isoNow
  insertInto policyDecisionTable {
    id, projectId := opts.projectId, featureRunId := opts.featureRunId
    policyType := opts.policyType, decision := opts.decision, context := opts.context
    actor := opts.actor, decidedAt := now }
  pure id

theorem frame_insertPolicyDecision {τ : Type} {π : Session → τ} (hπ : SeesData π)
    (hput : ∀ s t, π { s with db := { s.db with policyDecisions := t } } = π s)
    (opts : PolicyDecisionOpts) : Frame π (insertPolicyDecision opts) :=
  frame_bind (frame_generateId hπ) fun _ => frame_bind frame_isoNow fun _ =>
    frame_bind (frame_insertInto hπ hput _) fun _ => frame_pure _

/-! ### The edge of a project's automation state -/

/-- The `workflow_states` table. -/
def workflowStateTable : TableOf Db WorkflowState where
  get := Db.workflowStates
  put db t := { db with workflowStates := t }
  get_put _ _ := rfl

/-- The fields every automation payload has. -/
structure ProjectRef where
  projectId : String
  expectedVersion : ℕ
  deriving DecidableEq, Repr

/-- What differs from one automation-control handler to the next; each part may read the state the
project was in. -/
structure AutomationEdge where
  toState : AutomationState
  decision : AutomationState → Option PolicyDecisionOpts := fun _ => none
  events : AutomationState → List WorkflowEventOpts
  outbox : AutomationState → List (String × Payload)

/-- The `SET` list of the `UPDATE`. -/
def WorkflowState.steered (toState : AutomationState) (ws : WorkflowState) : WorkflowState :=
  { ws with automationState := toState, version := nextVersion ws.version }

/-- `id = ? AND version = ?`. -/
def WorkflowState.isAt (id : String) (version : ℕ) (ws : WorkflowState) : Bool :=
  ws.id == id && ws.version == version

/-- The move of the project's row. -/
def automationMove (ref : ProjectRef) (toState : AutomationState) : RowMove WorkflowState where
  table := workflowStateTable
  tableName := "workflow_states"
  rowId := ref.projectId
  version := WorkflowState.version
  expectedVersion := ref.expectedVersion
  find db := db.findWorkflowState ref.projectId
  check ws := do
    let _ ← orThrow (automationControl.assertValid ws.automationState toState)
    pure ()
  isRow ws := WorkflowState.isAt ws.id ref.expectedVersion
  moved _ := WorkflowState.steered toState
  moved_keys _ _ _ := rfl
  check_reads _ := frame_bind (frame_orThrow _) fun _ => frame_pure _

/-- The policy decision of an edge, where it has one. -/
def recordDecision : Option PolicyDecisionOpts → Sql Unit
  | none => pure ()
  | some opts => do
    let _ ← insertPolicyDecision opts
    pure ()

/-- The work of an automation-control handler under its claim. -/
def moveAutomation {P : Type} (envelope : CommandEnvelope P) (ref : ProjectRef)
    (edge : AutomationEdge) : Sql CommandResult := do
  let ws ← (automationMove ref edge.toState).run
  recordDecision (edge.decision ws.automationState)
  let eventIds ← recordMove (edge.events ws.automationState) (edge.outbox ws.automationState)
  pure {
    commandId := envelope.commandId
    accepted := true
    resultingState := edge.toState.literal
    emittedEventIds := eventIds }

section Steps

variable {P : Type} {envelope : CommandEnvelope P} {ref : ProjectRef} {edge : AutomationEdge}
  {s s' : Session}

theorem frame_recordDecision {τ : Type} {π : Session → τ} (hπ : SeesData π)
    (hput : ∀ s t, π { s with db := { s.db with policyDecisions := t } } = π s)
    (opts : Option PolicyDecisionOpts) : Frame π (recordDecision opts) := by
  cases opts with
  | none => exact frame_pure _
  | some opts =>
    exact frame_bind (frame_insertPolicyDecision hπ hput opts) fun _ => frame_pure _

theorem keys_moveAutomation :
    Frame (fun s => (s.db.idempotencyKeys, s.runtime)) (moveAutomation envelope ref edge) := by
  have hsees : SeesData fun s => (s.db.idempotencyKeys, s.runtime) := fun _ _ _ => rfl
  refine frame_bind (RowMove.frame_run (g := fun p => (p.1.idempotencyKeys, p.2))
    fun _ _ _ => rfl) fun ws => frame_bind (frame_recordDecision hsees (fun _ _ => rfl) _) fun _ =>
    frame_bind (frame_recordMove hsees (fun _ _ => rfl) (fun _ _ => rfl) _ _) fun _ => frame_pure _

/-- **What a command of the five that did its work found and wrote**: the row of its project, at the
version it expected and in a state from which the matrix has an edge; it wrote the state and the
version of that row, and, the policy decisions apart, no other table. -/
theorem moveAutomation_ok {result : CommandResult}
    (h : exec (moveAutomation envelope ref edge) s = (.ok result, s')) :
    ∃ ws, s.db.findWorkflowState ref.projectId = some ws ∧ ws.version = ref.expectedVersion ∧
      automationControl.isValid ws.automationState edge.toState = true ∧
      { s'.db.untraced with policyDecisions := .empty } =
        { s.db.untraced with
          policyDecisions := .empty
          workflowStates := s.db.workflowStates.update
            (WorkflowState.isAt ws.id ref.expectedVersion) (WorkflowState.steered edge.toState)
            fun _ _ => rfl } := by
  obtain ⟨ws, s₁, hmove, h₁⟩ := exec_bind_ok.mp h
  obtain ⟨hfind, hversion, ⟨s₂, s₃, -, -, hcheck⟩, -, hput, -⟩ := RowMove.run_ok hmove
  have hvalid : automationControl.isValid ws.automationState edge.toState = true := by
    obtain ⟨row, _, hassert, -⟩ := exec_bind_ok.mp hcheck
    exact automationControl.isValid_of_assertValid (orThrow_ok hassert).1
  obtain ⟨_, s₄, hdecision, h₄⟩ := exec_bind_ok.mp h₁
  obtain ⟨ids, s₅, hrecord, h₅⟩ := exec_bind_ok.mp h₄
  obtain ⟨-, rfl⟩ := Prod.mk.inj h₅
  have hrecorded := (untraced_recordMove hrecord).1
  have hdecided : ({ s₄.db.untraced with policyDecisions := .empty } : Db) =
      { s₁.db.untraced with policyDecisions := .empty } :=
    (frame_recordDecision (π := fun s => { s.db.untraced with policyDecisions := .empty })
      (fun _ _ _ => rfl) (fun _ _ => rfl) _).of_exec hdecision
  refine ⟨ws, hfind, hversion, hvalid, ?_⟩
  rw [hrecorded, hdecided, hput]
  rfl

/-- **A command of the five without a policy decision returns** when it finds the row of its project
at the version that it expects, in a state from which the matrix has an edge. -/
theorem returns_moveAutomation {ws : WorkflowState} (hs : s.Ready)
    (hfind : s.db.findWorkflowState ref.projectId = some ws)
    (hversion : ws.version = ref.expectedVersion)
    (hvalid : automationControl.isValid ws.automationState edge.toState = true)
    (hdecision : edge.decision ws.automationState = none) :
    Returns (moveAutomation envelope ref edge) s fun _ s' => s.Grows s' := by
  have hcheck : ∀ s₁ : Session, s.Reads s₁ →
      Returns ((automationMove ref edge.toState).check ws) s₁ fun _ s₂ => s₁.Reads s₂ := by
    intro s₁ _
    obtain ⟨row, hrow⟩ := automationControl.exists_assertValid hvalid
    refine (returns_orThrow hrow).bind fun _ s₂ ⟨_, hs₂⟩ => ?_
    subst hs₂
    exact returns_pure (.refl s₂)
  have hcount : s.db.workflowStates.count (WorkflowState.isAt ws.id ref.expectedVersion) ≠ 0 := by
    intro hzero
    have hother := Table.count_eq_zero.mp hzero ws (Db.findWorkflowState_some hfind).1
    simp [WorkflowState.isAt, hversion] at hother
  have hrun := RowMove.returns_run (m := automationMove ref edge.toState) hs.willing hfind hversion
    hcheck hcount
  refine hrun.bind fun ws' s₁ ⟨hws', hdb₁, hrt₁, hdrawn₁⟩ => ?_
  subst hws'
  rw [hdecision]
  refine (returns_pure (Q := fun _ s => s = s₁) rfl).bind fun _ s₂ hs₂ => ?_
  subst hs₂
  have hgrows : s.Grows s₂ := by
    refine .of_subset hrt₁ hdrawn₁ fun id hid => ?_
    rw [hdb₁] at hid
    exact hid
  refine (returns_recordMove (hs.grows hgrows) _ _).bind fun ids s₃ hgrows₃ => ?_
  exact returns_pure (hgrows.trans hgrows₃)

end Steps

/-! ### The five handlers -/

/-- A handler of the five. -/
def automationHandler {P : Type} (commandName : String) (requiredRole : UserRole)
    (requiredActorKind : ActorKind) (idempotencyScope : String) (ref : P → ProjectRef)
    (edge : CommandEnvelope P → AutomationEdge) : CommandHandler P where
  commandName
  requiredRole
  requiredActorKind
  idempotencyScope
  Evidence := Unit
  evidence _ := pure ()
  body envelope _ := moveAutomation envelope (ref envelope.payload) (edge envelope)
  evidence_keys := evidence_keys_pure
  body_keys _ _ := keys_moveAutomation

abbrev PauseAutomationPayload := ProjectRef

/-- `PauseAutomationHandler`. -/
def pauseAutomationHandler : CommandHandler PauseAutomationPayload :=
  automationHandler "PauseAutomationCommand" .operator .human "pause-automation" id fun envelope => {
    toState := .pausedByOperator
    events := fun _ => [{
      projectId := some envelope.payload.projectId
      eventType := "automation.paused_by_operator"
      fromState := AutomationState.running.literal
      toState := AutomationState.pausedByOperator.literal
      actorId := envelope.actor.id }]
    outbox := fun _ => [("automation.paused_by_operator",
      [("projectId", .str envelope.payload.projectId), ("reason", .str "operator")])] }

abbrev ResumeAutomationPayload := ProjectRef

/-- `ResumeAutomationHandler`. -/
def resumeAutomationHandler : CommandHandler ResumeAutomationPayload :=
  automationHandler "ResumeAutomationCommand" .operator .human "resume-automation" id
    fun envelope => {
      toState := .running
      decision := fun fromState => some {
        projectId := envelope.payload.projectId
        policyType := "automation_resume"
        decision := "resumed"
        context := some [("fromState", .str fromState.literal)]
        actor := envelope.actor.id }
      events := fun fromState => [{
        projectId := some envelope.payload.projectId
        eventType := "automation.resumed"
        fromState := fromState.literal
        toState := AutomationState.running.literal
        actorId := envelope.actor.id }]
      outbox := fun _ => [("automation.resumed",
        [("projectId", .str envelope.payload.projectId), ("reason", .str "operator")])] }

/-- `RecordBudgetExceededPayload`. -/
structure RecordBudgetExceededPayload extends ProjectRef where
  breachedPolicyId : String
  currentSpend : ℚ
  hardLimit : ℚ
  featureRunId : Option String := none

/-- `RecordBudgetExceededHandler`. -/
def recordBudgetExceededHandler : CommandHandler RecordBudgetExceededPayload :=
  automationHandler "RecordBudgetExceededCommand" .admin .system "record-budget-exceeded"
    (·.toProjectRef) fun envelope => {
      toState := .pausedBudgetExceeded
      events := fun _ => [{
        projectId := some envelope.payload.projectId
        featureRunId := envelope.payload.featureRunId
        eventType := "automation.budget_exceeded"
        fromState := AutomationState.running.literal
        toState := AutomationState.pausedBudgetExceeded.literal
        actorId := envelope.actor.id }]
      outbox := fun _ => [("automation.budget_exceeded", [
        ("projectId", .str envelope.payload.projectId),
        ("breachedPolicyId", .str envelope.payload.breachedPolicyId),
        ("currentSpend", .amount envelope.payload.currentSpend),
        ("hardLimit", .amount envelope.payload.hardLimit)])] }

/-- `RecordBudgetApprovalWaitingPayload`. -/
structure RecordBudgetApprovalWaitingPayload extends ProjectRef where
  breachedPolicyId : String
  currentSpend : ℚ
  softLimit : ℚ

/-- `RecordBudgetApprovalWaitingHandler`. -/
def recordBudgetApprovalWaitingHandler : CommandHandler RecordBudgetApprovalWaitingPayload :=
  automationHandler "RecordBudgetApprovalWaitingCommand" .admin .system
    "record-budget-approval-waiting" (·.toProjectRef) fun envelope => {
      toState := .waitingForBudgetApproval
      events := fun _ => [{
        projectId := some envelope.payload.projectId
        eventType := "automation.budget_approval_waiting"
        fromState := AutomationState.running.literal
        toState := AutomationState.waitingForBudgetApproval.literal
        actorId := envelope.actor.id }]
      outbox := fun _ => [("automation.budget_approval_waiting", [
        ("projectId", .str envelope.payload.projectId),
        ("breachedPolicyId", .str envelope.payload.breachedPolicyId),
        ("currentSpend", .amount envelope.payload.currentSpend),
        ("softLimit", .amount envelope.payload.softLimit)])] }

/-- `ApproveBudgetOverridePayload`. -/
structure ApproveBudgetOverridePayload extends ProjectRef where
  overrideReason : String
  approvedBudgetPolicyId : String

/-- `ApproveBudgetOverrideHandler`. -/
def approveBudgetOverrideHandler : CommandHandler ApproveBudgetOverridePayload :=
  automationHandler "ApproveBudgetOverrideCommand" .approver .human "approve-budget-override"
    (·.toProjectRef) fun envelope =>
      let payload := envelope.payload
      let context (fromState : AutomationState) : Payload := [
        ("overrideReason", .str payload.overrideReason),
        ("approvedBudgetPolicyId", .str payload.approvedBudgetPolicyId),
        ("fromState", .str fromState.literal)]
      -- two events of one edge: the override, and the resumption it brings
      let event (eventType : String) (fromState : AutomationState) : WorkflowEventOpts := {
        projectId := some payload.projectId
        eventType
        fromState := fromState.literal
        toState := AutomationState.running.literal
        actorId := envelope.actor.id }
      { toState := .running
        decision := fun fromState => some {
          projectId := payload.projectId
          policyType := "budget_override"
          decision := "approved"
          context := some (context fromState)
          actor := envelope.actor.id }
        events := fun fromState => [event "automation.budget_override_approved" fromState,
          event "automation.resumed" fromState]
        outbox := fun fromState => [
          ("automation.budget_override_approved",
            ("projectId", .str payload.projectId) :: context fromState),
          ("automation.resumed",
            [("projectId", .str payload.projectId), ("reason", .str "budget_override")])] }

end MiniCoder
