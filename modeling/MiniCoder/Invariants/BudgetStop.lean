import MiniCoder.Commands.Handlers.Automation
import MiniCoder.System

/-!
# Who clears a budget stop

The machine of the five automation-control commands: an event is a call of one of them by any actor,
with any payload, under any key.  The validator asks for the two ends of an edge only, and `running`
is the end of the operator's resumption and of the approver's override alike.

* `Call.moved`: a call that did its work moved the row of its project along an edge of the matrix.
* `keepsBudgetStop_iff`: a step from a budget stop goes wrong exactly when it is a resumption that did
  its work there.
* `budget_stop_authority`: **a budget stop is cleared by an approver's override only** in every run
  without such a resumption.
-/

open Storage Storage.Action Runs

namespace MiniCoder

/-! ### The machine -/

/-- The commands of the automation control. -/
inductive AutomationCommand
  | pauseAutomation
  | resumeAutomation
  | recordBudgetExceeded
  | recordBudgetApprovalWaiting
  | approveBudgetOverride
  deriving DecidableEq, Repr

namespace AutomationCommand

/-- The payload of a command. -/
abbrev Payload : AutomationCommand → Type
  | pauseAutomation => PauseAutomationPayload
  | resumeAutomation => ResumeAutomationPayload
  | recordBudgetExceeded => RecordBudgetExceededPayload
  | recordBudgetApprovalWaiting => RecordBudgetApprovalWaitingPayload
  | approveBudgetOverride => ApproveBudgetOverridePayload

/-- The handler that the registry maps a command to. -/
def handler : (command : AutomationCommand) → CommandHandler command.Payload
  | pauseAutomation => pauseAutomationHandler
  | resumeAutomation => resumeAutomationHandler
  | recordBudgetExceeded => recordBudgetExceededHandler
  | recordBudgetApprovalWaiting => recordBudgetApprovalWaitingHandler
  | approveBudgetOverride => approveBudgetOverrideHandler

/-- The project a command is for, and the version it expects. -/
def ref : (command : AutomationCommand) → command.Payload → ProjectRef
  | pauseAutomation, payload => payload
  | resumeAutomation, payload => payload
  | recordBudgetExceeded, payload => payload.toProjectRef
  | recordBudgetApprovalWaiting, payload => payload.toProjectRef
  | approveBudgetOverride, payload => payload.toProjectRef

/-- The state a command moves its project to. -/
def toState : AutomationCommand → AutomationState
  | pauseAutomation => .pausedByOperator
  | resumeAutomation => .running
  | recordBudgetExceeded => .pausedBudgetExceeded
  | recordBudgetApprovalWaiting => .waitingForBudgetApproval
  | approveBudgetOverride => .running

/-- Two commands lead to `running`. -/
theorem eq_of_toState_running {command : AutomationCommand} (h : command.toState = .running) :
    command = .resumeAutomation ∨ command = .approveBudgetOverride := by
  cases command with
  | resumeAutomation => exact Or.inl rfl
  | approveBudgetOverride => exact Or.inr rfl
  | pauseAutomation => cases h
  | recordBudgetExceeded => cases h
  | recordBudgetApprovalWaiting => cases h

end AutomationCommand

/-- The handlers of the automation control. -/
def automationCommands : CommandFamily where
  Name := AutomationCommand
  Payload := AutomationCommand.Payload
  handler := AutomationCommand.handler
  evidence_reads command _ := by
    cases command <;> exact frame_pure ()

/-- A call of an automation-control command. -/
abbrev AutomationCall := automationCommands.Call

namespace AutomationCall

/-- The project of a call, and the version it expects. -/
def ref (call : AutomationCall) : ProjectRef :=
  AutomationCommand.ref call.command call.envelope.payload

/-- The state a call moves its project to. -/
def toState (call : AutomationCall) : AutomationState := AutomationCommand.toState call.command

end AutomationCall

/-- The automation state of a project. -/
def Db.automationState (db : Db) (projectId : String) : Option AutomationState :=
  (db.findWorkflowState projectId).map (·.automationState)

/-- The stops that the budget puts a project in. -/
def AutomationState.isBudgetStop : AutomationState → Bool
  | pausedBudgetExceeded => true
  | waitingForBudgetApproval => true
  | running => false
  | pausedByOperator => false

/-- The project is at a budget stop. -/
def Db.AtBudgetStop (db : Db) (projectId : String) : Prop :=
  ∃ state, db.automationState projectId = some state ∧ state.isBudgetStop = true

/-! ### What a call did -/

/-- **A call that did its work** moved the row of its project, at the version it expected, along an
edge of the matrix. -/
theorem AutomationCall.moved {db : Db} {call : AutomationCall} (h : call.Did db) :
    ∃ ws, db.findWorkflowState call.ref.projectId = some ws ∧
      ws.version = call.ref.expectedVersion ∧
      automationControl.isValid ws.automationState call.toState = true ∧
      (automationCommands.next db call).workflowStates = db.workflowStates.update
        (WorkflowState.isAt ws.id call.ref.expectedVersion) (WorkflowState.steered call.toState)
        fun _ _ => rfl := by
  obtain ⟨ev, s₁, s₂, result, hbefore, -, hbody, hafter⟩ := h.work
  have hstates : s₁.db.untraced.workflowStates = db.untraced.workflowStates :=
    congrArg (fun db : Db => db.workflowStates) hbefore
  change s₁.db.workflowStates = db.workflowStates at hstates
  have hfound : s₁.db.findWorkflowState call.ref.projectId =
      db.findWorkflowState call.ref.projectId := by
    unfold Db.findWorkflowState
    rw [hstates]
  have hnext : (automationCommands.next db call).untraced.workflowStates =
      s₂.db.untraced.workflowStates := congrArg (fun db : Db => db.workflowStates) hafter
  change (automationCommands.next db call).workflowStates = s₂.db.workflowStates at hnext
  rw [hnext, ← hfound, ← hstates]
  -- the five bodies are one body, for five edges
  have hwork : ∃ ws, s₁.db.findWorkflowState call.ref.projectId = some ws ∧
      ws.version = call.ref.expectedVersion ∧
      automationControl.isValid ws.automationState call.toState = true ∧
      ({ s₂.db.untraced with policyDecisions := .empty } : Db) =
        { s₁.db.untraced with
          policyDecisions := .empty
          workflowStates := s₁.db.workflowStates.update
            (WorkflowState.isAt ws.id call.ref.expectedVersion)
            (WorkflowState.steered call.toState) fun _ _ => rfl } := by
    rcases call with ⟨command, envelope, rt⟩
    cases command with
    | pauseAutomation => exact moveAutomation_ok hbody
    | resumeAutomation => exact moveAutomation_ok hbody
    | recordBudgetExceeded => exact moveAutomation_ok hbody
    | recordBudgetApprovalWaiting => exact moveAutomation_ok hbody
    | approveBudgetOverride => exact moveAutomation_ok hbody
  obtain ⟨ws, hws, hversion, hvalid, htables⟩ := hwork
  exact ⟨ws, hws, hversion, hvalid, congrArg (fun db : Db => db.workflowStates) htables⟩

/-- The automation state of a project whose row was steered. -/
theorem Db.automationState_steered {db db' : Db} {projectId : String} {version : ℕ}
    {toState : AutomationState} {ws : WorkflowState}
    (hws : db.findWorkflowState projectId = some ws) (hversion : ws.version = version)
    (h : db'.workflowStates = db.workflowStates.update (WorkflowState.isAt ws.id version)
      (WorkflowState.steered toState) fun _ _ => rfl) :
    db'.automationState projectId = some toState := by
  have hrow : Table.updateRow (WorkflowState.isAt ws.id version) (WorkflowState.steered toState) ws =
      ws.steered toState := Table.updateRow_of_pos (by simp [WorkflowState.isAt, hversion])
  have hsearch : db'.findWorkflowState projectId =
      (db.findWorkflowState projectId).map (Table.updateRow (WorkflowState.isAt ws.id version)
        (WorkflowState.steered toState)) := by
    unfold Db.findWorkflowState
    rw [h]
    exact Table.find?_update fun _ => rfl
  unfold Db.automationState
  rw [hsearch, hws, Option.map_some, hrow]
  rfl

/-- Where a call that did its work left the automation states. -/
theorem AutomationCall.automationState_of_did {db : Db} {call : AutomationCall}
    (h : call.Did db) (projectId : String) :
    (projectId = call.ref.projectId ∧
        (automationCommands.next db call).automationState projectId = some call.toState ∧
        ∃ ws, db.findWorkflowState projectId = some ws ∧
          ws.version = call.ref.expectedVersion ∧
          automationControl.isValid ws.automationState call.toState = true) ∨
      (projectId ≠ call.ref.projectId ∧
        (automationCommands.next db call).automationState projectId =
          db.automationState projectId) := by
  obtain ⟨ws, hws, hversion, hvalid, hstates⟩ := AutomationCall.moved h
  by_cases hproject : projectId = call.ref.projectId
  · refine Or.inl ⟨hproject, ?_, ws, hproject ▸ hws, hversion, hvalid⟩
    rw [hproject]
    exact Db.automationState_steered hws hversion hstates
  · refine Or.inr ⟨hproject, ?_⟩
    have hsearch : (automationCommands.next db call).findWorkflowState projectId =
        (db.findWorkflowState projectId).map (Table.updateRow
          (WorkflowState.isAt ws.id call.ref.expectedVersion)
          (WorkflowState.steered call.toState)) := by
      unfold Db.findWorkflowState
      rw [hstates]
      exact Table.find?_update fun _ => rfl
    unfold Db.automationState
    rw [hsearch, Option.map_map]
    -- the row of another project has another id
    rcases hother : db.findWorkflowState projectId with _ | ws'
    · rfl
    · have hrow : Table.updateRow (WorkflowState.isAt ws.id call.ref.expectedVersion)
          (WorkflowState.steered call.toState) ws' = ws' := by
        refine Table.updateRow_of_neg (Bool.eq_false_iff.mpr fun hat => hproject ?_)
        simp only [WorkflowState.isAt, Bool.and_eq_true, beq_iff_eq] at hat
        have hfound := Db.findWorkflowState_some hws
        have hfound' := Db.findWorkflowState_some hother
        have hsame : ws' = ws := db.workflowStates.eq_of_clash hfound'.1 hfound.1
          (decide_eq_true (Or.inl hat.1))
        rw [← hfound'.2, hsame, hfound.2]
      rw [Option.map_some, Option.map_some, Function.comp_apply, hrow]

/-! ### The law of one step -/

/-- The call is an override of the project's stop, done by a human of at least the approver role. -/
structure AutomationCall.Overrides (db : Db) (call : AutomationCall) (projectId : String) : Prop where
  command : call.command = .approveBudgetOverride
  project : call.ref.projectId = projectId
  did : call.Did db
  role : roleRank .approver ≤ roleRank call.envelope.actor.role
  human : call.envelope.actor.actorKind = .human

/-- From a budget stop, a call leaves the automation state of the project or overrides the stop. -/
def KeepsBudgetStop (db : Db) (call : AutomationCall) : Prop :=
  ∀ projectId, db.AtBudgetStop projectId →
    (automationCommands.next db call).automationState projectId = db.automationState projectId ∨
      AutomationCall.Overrides db call projectId

/-- The edges of the matrix from a budget stop all lead to `running`. -/
theorem running_of_isBudgetStop {state toState : AutomationState} (hstop : state.isBudgetStop = true)
    (hvalid : automationControl.isValid state toState = true) : toState = .running := by
  revert hstop hvalid
  cases state <;> cases toState <;> decide

theorem assertRole_ok {actor : ActorIdentity} {requiredRole : UserRole} {command : String}
    {requiredKind : Option ActorKind}
    (h : assertRole actor requiredRole command requiredKind = .ok ()) :
    roleRank requiredRole ≤ roleRank actor.role ∧
      ∀ kind, requiredKind = some kind → actor.actorKind = kind := by
  unfold assertRole at h
  split_ifs at h with hkind hrole
  constructor
  · simpa [meetsRole] using hrole
  · rintro kind rfl
    simpa using hkind

/-- An override that did its work was done by an approver. -/
theorem AutomationCall.overrides_of_did {db : Db} {call : AutomationCall}
    (hcommand : call.command = .approveBudgetOverride) (h : call.Did db) :
    AutomationCall.Overrides db call call.ref.projectId := by
  have hrole := h.authorised
  rcases call with ⟨command, envelope, rt⟩
  obtain rfl : command = .approveBudgetOverride := hcommand
  obtain ⟨hrank, hkind⟩ := assertRole_ok hrole
  exact ⟨rfl, rfl, h, hrank, hkind .human rfl⟩

/-- **A step from a budget stop goes wrong exactly when it is a resumption that did its work
there.** -/
theorem keepsBudgetStop_iff {db : Db} {call : AutomationCall} :
    KeepsBudgetStop db call ↔
      ¬ (call.command = .resumeAutomation ∧ call.Did db ∧ db.AtBudgetStop call.ref.projectId) := by
  constructor
  · rintro hkeeps ⟨hcommand, hdid, hstop⟩
    rcases hkeeps _ hstop with hsame | hover
    · rcases AutomationCall.automationState_of_did hdid call.ref.projectId with
        ⟨-, hto, -⟩ | ⟨hne, -⟩
      · obtain ⟨state, hstate, hbudget⟩ := hstop
        have hrunning : call.toState = .running := congrArg AutomationCommand.toState hcommand
        rw [hto, hstate, hrunning] at hsame
        rw [← Option.some.inj hsame] at hbudget
        cases hbudget
      · exact hne rfl
    · rw [hover.command] at hcommand
      cases hcommand
  · intro hno projectId hstop
    rcases CommandFamily.next_cases db call with hsame | hdid
    · exact Or.inl (congrArg (fun db => Db.automationState db projectId) hsame)
    · rcases AutomationCall.automationState_of_did hdid projectId with
        ⟨rfl, -, ws, hws, -, hvalid⟩ | ⟨-, hsame⟩
      · obtain ⟨state, hstate, hbudget⟩ := hstop
        have hfrom : ws.automationState = state := by
          unfold Db.automationState at hstate
          rw [hws] at hstate
          exact Option.some.inj hstate
        have hto := running_of_isBudgetStop hbudget (hfrom ▸ hvalid)
        refine Or.inr (AutomationCall.overrides_of_did ?_ hdid)
        -- of the two commands that lead to `running`, the resumption is excluded
        rcases AutomationCommand.eq_of_toState_running hto with hresume | happrove
        · exact absurd ⟨hresume, hdid, state, hstate, hbudget⟩ hno
        · exact happrove
      · exact Or.inl hsame

/-! ### Runs -/

/-- A resumption of a project at a budget stop, by an actor that the handler admits, at the current
version of the project's row and under a free key. -/
structure ResumesBudgetStop (db : Db) (call : AutomationCall) : Prop where
  command : call.command = .resumeAutomation
  authorised : call.authorised
  unkeyed : call.unkeyed db
  stop : db.AtBudgetStop call.ref.projectId
  current : (db.findWorkflowState call.ref.projectId).map (·.version) =
    some call.ref.expectedVersion

theorem resumesBudgetStop_of_did {db : Db} {call : AutomationCall}
    (hcommand : call.command = .resumeAutomation) (hdid : call.Did db)
    (hstop : db.AtBudgetStop call.ref.projectId) : ResumesBudgetStop db call := by
  obtain ⟨ws, hws, hversion, -⟩ := AutomationCall.moved hdid
  refine ⟨hcommand, hdid.authorised, hdid.unkeyed, hstop, ?_⟩
  rw [hws, Option.map_some, hversion]

/-- A project that leaves its budget stop along a run leaves it at an override. -/
theorem exists_override {db : Db} {calls : List AutomationCall} {projectId : String}
    (hkeeps : Along automationCommands.next KeepsBudgetStop db calls)
    (hstop : db.AtBudgetStop projectId)
    (hend : ¬ (run automationCommands.next db calls).AtBudgetStop projectId) :
    ∃ earlier call later, calls = earlier ++ call :: later ∧
      AutomationCall.Overrides (run automationCommands.next db earlier) call projectId := by
  induction calls generalizing db with
  | nil => exact absurd hstop hend
  | cons call calls ih =>
    rcases hkeeps.1 projectId hstop with hsame | hover
    · have hstop' : (automationCommands.next db call).AtBudgetStop projectId := by
        unfold Db.AtBudgetStop
        rw [hsame]
        exact hstop
      obtain ⟨earlier, call', later, rfl, hover⟩ := ih hkeeps.2 hstop' hend
      exact ⟨call :: earlier, call', later, rfl, hover⟩
    · exact ⟨[], call, calls, rfl, hover⟩

/-- **A budget stop is cleared by an approver's override only**: in every run of the five commands
without a resumption at a budget stop, each step from a stop keeps it or overrides it, and whatever
the commands between, a project that was at a stop and is running again was overridden between. -/
theorem budget_stop_authority {db : Db} {calls : List AutomationCall}
    (h : Along automationCommands.next (fun db call => ¬ ResumesBudgetStop db call) db calls) :
    Along automationCommands.next KeepsBudgetStop db calls ∧
      ∀ projectId before after, calls = before ++ after →
        (run automationCommands.next db before).AtBudgetStop projectId →
        (run automationCommands.next db calls).automationState projectId = some .running →
        ∃ earlier call later, after = earlier ++ call :: later ∧
          AutomationCall.Overrides (run automationCommands.next db (before ++ earlier)) call
            projectId := by
  have hkeeps : Along automationCommands.next KeepsBudgetStop db calls :=
    h.imp fun db call hno => keepsBudgetStop_iff.mpr fun ⟨hcommand, hdid, hstop⟩ =>
      hno (resumesBudgetStop_of_did hcommand hdid hstop)
  refine ⟨hkeeps, ?_⟩
  rintro projectId before after rfl hstop hrunning
  have hafter := (along_append.mp hkeeps).2
  rw [run_append] at hrunning
  obtain ⟨earlier, call, later, rfl, hover⟩ := exists_override hafter hstop (by
    rintro ⟨state, hstate, hbudget⟩
    rw [hrunning] at hstate
    rw [← Option.some.inj hstate] at hbudget
    cases hbudget)
  refine ⟨earlier, call, later, rfl, ?_⟩
  rw [run_append]
  exact hover

/-! ### Runs on a sample project -/

/-- A call on the sample project, under a key of its own. -/
def sampleAutomationCall (command : AutomationCommand) (actor : ActorIdentity) (key : String)
    (now : ℕ) (payload : command.Payload) : AutomationCall where
  command
  envelope := { commandId := key, idempotencyKey := key, payload, actor, correlationId := key }
  runtime := sampleRuntime now

/-- The budget stops the sample project. -/
def sampleBudgetExceeded : AutomationCall :=
  sampleAutomationCall .recordBudgetExceeded systemActor "exceeded" 1 {
    projectId := "P", expectedVersion := 1
    breachedPolicyId := "policy", currentSpend := 12, hardLimit := 10 }

/-- An approver overrides the stop. -/
def sampleOverride : AutomationCall :=
  sampleAutomationCall .approveBudgetOverride ⟨"approver", .approver, .human⟩ "override" 2 {
    projectId := "P", expectedVersion := 2
    overrideReason := "release", approvedBudgetPolicyId := "policy" }

/-- An operator resumes the project. -/
def sampleResumption : AutomationCall :=
  sampleAutomationCall .resumeAutomation ⟨"operator", .operator, .human⟩ "resume" 2 {
    projectId := "P", expectedVersion := 2 }

/-- The stop of the sample project, cleared by the approver. -/
theorem budget_stop_authority_override :
    ∃ earlier call later, [sampleOverride] = earlier ++ call :: later ∧
      AutomationCall.Overrides
        (run automationCommands.next sampleDb ([sampleBudgetExceeded] ++ earlier)) call "P" := by
  refine (@budget_stop_authority sampleDb [sampleBudgetExceeded, sampleOverride] ⟨?_, ?_, trivial⟩).2
    "P" [sampleBudgetExceeded] [sampleOverride] rfl ⟨.pausedBudgetExceeded, ?_, rfl⟩ ?_
  · intro h
    cases h.command
  · intro h
    cases h.command
  · decide +kernel
  · decide +kernel

/-- The same stop, cleared by an operator. -/
theorem operator_clears_budget_stop :
    ¬ Along automationCommands.next KeepsBudgetStop sampleDb
      [sampleBudgetExceeded, sampleResumption] := by
  intro h
  have hstop : (automationCommands.next sampleDb sampleBudgetExceeded).AtBudgetStop "P" :=
    ⟨.pausedBudgetExceeded, by decide +kernel, rfl⟩
  rcases h.2.1 "P" hstop with hsame | hover
  · revert hsame
    decide +kernel
  · cases hover.command

end MiniCoder
