import MiniCoder.Invariants.BudgetStop

/-!
# Work starts only while automation is running

The feature-execution commands and the automation-control commands in any order, with the other steps
of the system between them.  `StartCoding` and `StartFixing` ask for a running project in the `WHERE`
of the `UPDATE` that moves the run, so the state at the commit decides and not the one that a process
has read before.

* `enters_running`: a step that takes a run to `coding` or `fixing` is taken, and left, while the
  automation of its project is running.
* `starts_only_running`: **no run starts while automation is stopped**, along every run.
-/

open Storage Storage.Action Runs

namespace MiniCoder

/-! ### The machine -/

/-- A step of the system, or a call of an automation-control command. -/
inductive ControlEvent
  | system (event : SystemEvent)
  | automation (call : AutomationCall)

namespace ControlEvent

/-- The tables after a step. -/
def next (db : Db) : ControlEvent → Db
  | system event => SystemEvent.next db event
  | automation call => automationCommands.next db call

/-- A step outside the commands changes no run and no feature request. -/
def KeepsRequests (db : Db) : ControlEvent → Prop
  | system (.other db') => db'.featureRuns = db.featureRuns ∧
      db'.featureRequests = db.featureRequests
  | _ => True

end ControlEvent

/-- The states in which a coder works. -/
def FeatureExecutionState.working : FeatureExecutionState → Bool
  | coding | fixing => true
  | _ => false

/-- The run enters `coding` or `fixing`. -/
def EntersWork (db db' : Db) (featureRunId : String) : Prop :=
  ∃ state : FeatureExecutionState, state.working = true ∧ db.stateOf featureRunId ≠ some state ∧
    db'.stateOf featureRunId = some state

theorem not_entersWork_of_eq {db db' : Db} {featureRunId : String}
    (h : db'.featureRuns = db.featureRuns) : ¬ EntersWork db db' featureRunId := by
  rintro ⟨state, -, hbefore, hafter⟩
  rw [Db.stateOf_of_eq h] at hafter
  exact hbefore hafter

/-- The project of the run is running before the step and after it. -/
structure StartsRunning (db db' : Db) (featureRunId projectId : String) : Prop where
  project : ∃ run ∈ db.featureRuns.rows, run.id = featureRunId ∧ db.InProject run projectId
  before : db.automationState projectId = some .running
  after : db'.automationState projectId = some .running

/-! ### One step -/

/-- Two commands take a run to `coding` or `fixing`, and both ask for a running project. -/
theorem Request.whileRunning_of_working {request : Request} {ev : request.Evidence}
    (h : request.command.target.working = true) :
    (request.transition ev).whileRunning = true ∧ request.command.pointer = .keep := by
  rcases request with ⟨command, envelope⟩
  cases command with
  | startCoding => exact ⟨rfl, rfl⟩
  | startFixing => exact ⟨rfl, rfl⟩
  | _ => cases h

theorem Db.automationState_of_row {db : Db} {ws : WorkflowState} (h : ws ∈ db.workflowStates.rows) :
    db.automationState ws.projectId = some ws.automationState := by
  have hfind : db.findWorkflowState ws.projectId = some ws :=
    db.workflowStates.find?_eq_some h (beq_iff_eq.mpr rfl) fun ws' hproject =>
      decide_eq_true (Or.inr (beq_iff_eq.mp hproject).symm)
  rw [Db.automationState, hfind]
  rfl

/-- **A request that starts a run** found the project running, and left it so. -/
theorem Request.Did.startsRunning {request : Request} {ev : request.Evidence} {rt : Runtime}
    {db db' : Db} (h : request.Did ev rt db db') {featureRunId : String}
    (henters : EntersWork db db' featureRunId) :
    StartsRunning db db' featureRunId request.ref.projectId := by
  obtain ⟨state, hworking, hbefore, hafter⟩ := henters
  obtain ⟨run, hstep⟩ := h.step
  obtain ⟨hrun, hid, hproject⟩ := Db.findFeatureRun_some hstep.found
  obtain ⟨run', hrun', hid', hstate'⟩ := Db.stateOf_some.mp hafter
  obtain ⟨r, hr, hchange⟩ := hstep.runs.exists_mem_of hrun'
  rcases hchange with ⟨-, hids, -, htarget, -⟩ | ⟨-, rfl | ⟨-, -, rfl⟩⟩
  · -- the run of the request: its `UPDATE` matched
    have htarget' : request.command.target.working = true := by
      rw [← htarget, hstate']
      exact hworking
    obtain ⟨hwhile, hkeep⟩ : (request.transition ev).whileRunning = true ∧
        request.command.pointer = .keep := Request.whileRunning_of_working htarget'
    have hpointer := hstep.pointer
    rw [hkeep] at hpointer
    replace hpointer : db'.workflowStates = db.workflowStates := hpointer
    have hrunning : db.automationState request.ref.projectId = some .running := by
      obtain ⟨keys, keys', db₂, run₂, hmoved, -⟩ := h
      obtain ⟨ws, hws, hof, hauto⟩ := hmoved.running hwhile
      have hrow : db.automationState ws.projectId = some ws.automationState :=
        Db.automationState_of_row hws
      rw [hof, hauto, Request.transition_projectId] at hrow
      exact hrow
    have hafter' : db'.automationState request.ref.projectId = some .running := by
      rw [← hrunning, Db.automationState, Db.automationState, Db.findWorkflowState,
        Db.findWorkflowState, hpointer]
    exact ⟨⟨run, hrun, hids.symm.trans hid', hproject⟩, hrunning, hafter'⟩
  · exact absurd (Db.stateOf_some.mpr ⟨run', hr, hid', hstate'⟩) hbefore
  · -- a cascade blocks its run
    rw [← hstate'] at hworking
    cases hworking

theorem runs_of_moveAutomation {P : Type} {envelope : CommandEnvelope P} {ref : ProjectRef}
    {edge : AutomationEdge} {s s' : Session} {result : CommandResult}
    (h : exec (moveAutomation envelope ref edge) s = (.ok result, s')) :
    s'.db.featureRuns = s.db.featureRuns := by
  obtain ⟨ws, -, -, -, htables⟩ := moveAutomation_ok h
  have hruns := congrArg Db.featureRuns htables
  exact hruns

/-- A call of the automation control changes no run. -/
theorem AutomationCall.featureRuns_next {db : Db} (call : AutomationCall) :
    (automationCommands.next db call).featureRuns = db.featureRuns := by
  rcases CommandFamily.next_cases db call with hsame | hdid
  · rw [hsame]
  · obtain ⟨ev, s₁, s₂, result, hbefore, -, hbody, hafter⟩ := hdid.work
    have hruns₁ : s₁.db.untraced.featureRuns = db.untraced.featureRuns :=
      congrArg Db.featureRuns hbefore
    have hruns₂ : (automationCommands.next db call).untraced.featureRuns =
        s₂.db.untraced.featureRuns := congrArg Db.featureRuns hafter
    have hwork : s₂.db.featureRuns = s₁.db.featureRuns := by
      rcases call with ⟨command, envelope, rt⟩
      cases command with
      | pauseAutomation => exact runs_of_moveAutomation hbody
      | resumeAutomation => exact runs_of_moveAutomation hbody
      | recordBudgetExceeded => exact runs_of_moveAutomation hbody
      | recordBudgetApprovalWaiting => exact runs_of_moveAutomation hbody
      | approveBudgetOverride => exact runs_of_moveAutomation hbody
    exact hruns₂.trans (hwork.trans hruns₁)

/-- **A step that starts a run is taken, and left, while its project is running.** -/
theorem ControlEvent.enters_running {db : Db} {event : ControlEvent}
    (hkeeps : event.KeepsRequests db) {featureRunId : String}
    (henters : EntersWork db (ControlEvent.next db event) featureRunId) :
    ∃ projectId, StartsRunning db (ControlEvent.next db event) featureRunId projectId := by
  cases event with
  | automation call =>
    have hruns : (ControlEvent.next db (.automation call)).featureRuns = db.featureRuns :=
      AutomationCall.featureRuns_next call
    exact absurd henters (not_entersWork_of_eq hruns)
  | system event =>
    cases event with
    | lock e =>
      have hruns : (LockEvent.next db e).featureRuns = db.featureRuns :=
        congrArg (fun db => db.featureRuns) (LockEvent.next_withoutLocks db e)
      exact absurd henters (not_entersWork_of_eq hruns)
    | gather request rt =>
      have hruns : (SystemEvent.next db (.gather request rt)).featureRuns = db.featureRuns :=
        congrArg (fun db => db.featureRuns) (SystemEvent.next_gather db request rt)
      exact absurd henters (not_entersWork_of_eq hruns)
    | commit request ev rt =>
      rcases SystemEvent.next_commit db request ev rt with hsame | hdid
      · have hruns : (SystemEvent.next db (.commit request ev rt)).featureRuns = db.featureRuns := by
          rw [hsame]
        exact absurd henters (not_entersWork_of_eq hruns)
      · exact ⟨request.ref.projectId, hdid.startsRunning henters⟩
    | other db' => exact absurd henters (not_entersWork_of_eq hkeeps.1)

/-- A start that was refused changed nothing. -/
theorem Request.execute_refused {request : Request} {s s' : Session} {e : Failure}
    (hworking : request.command.target.working = true)
    (h : exec request.execute s = (.error e, s')) : s'.db = s.db := by
  have hgather : Frame (fun s : Session => s.db) request.gather := by
    rcases request with ⟨command, envelope⟩
    cases command with
    | startCoding => exact frame_pure _
    | startFixing => exact frame_pure _
    | _ => cases hworking
  exact executeCommand_error (g := fun db => db) (fun _ => rfl) hgather h

/-! ### Runs -/

/-- The first feature of the sample project is selected, and an operator pauses the project. -/
def samplePaused : List ControlEvent := [
  .system laneAcquired,
  .system firstSelected,
  .automation (sampleAutomationCall .pauseAutomation ⟨"operator", .operator, .human⟩ "pause" 2
    ⟨"P", 2⟩)]

/-- The coder of the first feature starts. -/
def sampleStart : ControlEvent :=
  .system (.commit ⟨.startCoding, sampleEnvelope .system "code" ⟨"run-1", "P", 2⟩⟩ ()
    (sampleRuntime 3))

end MiniCoder
