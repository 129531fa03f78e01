import Mathlib.Data.Prod.Lex
import Mathlib.Data.String.Basic
import MiniCoder.Tasks.Command

/-!
# The start-next-feature task

One run of the task: it recovers the feature run that a pause has stranded at `selected`, or picks
the next eligible one and selects it, and starts coding on it under the execution lane.  `command`
keeps, as a ghost, the command that started the run.

* `startNextFeature_ok`: a task that reports a start has dispatched its command for the run it names,
  and the command returned.
* `startNextFeature_truthful`: **the run is `coding` when that command has returned** exactly when no
  live result answered it, or the run was `coding` already.
-/

open Storage Storage.Action

namespace MiniCoder

/-! ### What the task takes and returns -/

/-- `StartNextFeaturePayload`. -/
structure StartNextFeaturePayload where
  projectId : String
  featureRunId : Option String := none
  correlationId : String
  deriving DecidableEq, Repr

/-- `StartNextFeatureResult`. -/
structure StartNextFeatureResult where
  projectId : String
  featureRunId : Option String
  started : Bool
  deriving DecidableEq, Repr

/-- The result of a task, with the command that started the run. -/
structure StartOutcome where
  result : StartNextFeatureResult
  command : Option Dispatch := none

/-- `EXPECTED_COMMAND_ERROR_TYPES`. -/
def startRaces : List String :=
  ["feature-already-active", "automation-paused", "unmet-dependencies", "not-found",
    "concurrent-command"]

/-- `automationOperatorActor`. -/
def automationOperatorActor : ActorIdentity := ⟨"automation-operator", .operator, .human⟩

/-- `ORDER BY freq.created_at ASC, freq.id ASC`; strings are ordered by their code points. -/
def FeatureRequest.createdOrder (freq : FeatureRequest) : ℤ ×ₗ String :=
  toLex (freq.createdAt, freq.id)

/-- `findNextEligibleFeatureRun`: the first pending run of the project, in the order in which the
features were created, whose dependencies are all merged. -/
def Db.findNextEligibleFeatureRun (db : Db) (projectId : String) : Option FeatureRun :=
  (db.featureRequests.selectBy (fun freq => freq.projectId == projectId) fun freq freq' =>
    decide (freq.createdOrder < freq'.createdOrder)).findSome? fun freq =>
    db.featureRuns.find? fun run =>
      run.featureRequestId == freq.id &&
        run.currentExecutionState == .approvedPendingExecution &&
        (db.unmetDependencies freq.id).isEmpty

namespace StartNextFeaturePayload

variable (payload : StartNextFeaturePayload)

/-- The result of a task that started nothing. -/
def notStarted (featureRunId : Option String) : StartOutcome where
  result := { projectId := payload.projectId, featureRunId, started := false }

/-- The run, at the version a command expects. -/
def ref (featureRunId : String) (expectedVersion : ℕ) : FeatureRunRef where
  featureRunId
  projectId := payload.projectId
  expectedVersion

/-- The key under which the run is selected. -/
def selectKey (featureRunId : String) : String := s!"select-feature:{featureRunId}"

/-- The key under which coding is started: it names the run, and not its version. -/
def startKey (featureRunId : String) : String := s!"start-coding:{featureRunId}"

def selectRequest (featureRunId : String) (expectedVersion : ℕ) (commandId : String) : Request :=
  ⟨.selectFeature, {
    commandId
    idempotencyKey := selectKey featureRunId
    payload := payload.ref featureRunId expectedVersion
    actor := automationOperatorActor
    correlationId := payload.correlationId }⟩

def startRequest (featureRunId : String) (expectedVersion : ℕ) (commandId : String)
    (lock : AcquiredLock) : Request :=
  ⟨.startCoding, {
    commandId
    idempotencyKey := startKey featureRunId
    payload := payload.ref featureRunId expectedVersion
    actor := systemActor
    correlationId := payload.correlationId
    lockContext := some (lock.context payload.projectId) }⟩

end StartNextFeaturePayload

/-! ### The task -/

section Task

variable (others : TaskOthers) (payload : StartNextFeaturePayload)

/-- The active run of the project, when it is `selected` and the caller has named no other run. -/
def strandedRun : Sql (Option String) := do
  let active ← stepAt others 0 (query fun db =>
    (db.findWorkflowState payload.projectId).bind (·.activeFeatureRunId))
  match truthy active with
  | none => pure none
  | some activeFeatureRunId =>
    if payload.featureRunId = none ∨ payload.featureRunId = some activeFeatureRunId then do
      let state ← stepAt others 1 (query fun db => db.stateOf activeFeatureRunId)
      pure (if state = some .selected then some activeFeatureRunId else none)
    else pure none

/-- The run the task is about, and whether it is selected already. -/
def chooseRun : Sql (Option (String × Bool)) := do
  let stranded ← strandedRun others payload
  match stranded with
  | some featureRunId => pure (some (featureRunId, true))
  | none =>
    match truthy payload.featureRunId with
    | some featureRunId => pure (some (featureRunId, false))
    | none => do
      let candidate ← stepAt others 2 (query fun db =>
        db.findNextEligibleFeatureRun payload.projectId)
      pure (candidate.map fun run => (run.id, false))

/-- Dispatches `StartCodingCommand` under the lane's lock. -/
def dispatchStartCoding (featureRunId : String) (currentVersion : ℕ) (lock : AcquiredLock) :
    Sql (CommandResult × Dispatch) := do
  let selected ← stepAt others 6 (query fun db => db.runById featureRunId)
  let selectedVersion := (selected.map (·.version)).getD (currentVersion + 1)
  let commandId ← generateId
  dispatchTask others 1 (payload.startRequest featureRunId selectedVersion commandId lock)

/-- The part of the task under the execution lane. -/
def startUnderLane (featureRunId : String) (currentVersion : ℕ) : Sql StartOutcome := do
  let lock? ← unlessTransient startRaces
    (stepAt others 5 (acquireForProject payload.projectId "start-next-feature-task"))
  match lock? with
  | none => pure (payload.notStarted (some featureRunId))
  | some lock => do
    let dispatched ← ensuring
      (unlessTransient startRaces (dispatchStartCoding others payload featureRunId currentVersion lock))
      (stepAt others 7 (release lock))
    match dispatched with
    | none => pure (payload.notStarted (some featureRunId))
    | some (_, command) => pure {
        result := { projectId := payload.projectId, featureRunId := some featureRunId, started := true }
        command := some command }

/-- Dispatches `SelectFeatureCommand`, unless the run is selected already: `none` when it lost a
race. -/
def selectRun (featureRunId : String) (skipSelection : Bool) (currentVersion : ℕ) :
    Sql (Option Unit) :=
  if skipSelection = true then pure (some ())
  else do
    let commandId ← generateId
    unlessTransient startRaces do
      let _ ← dispatchTask others 0 (payload.selectRequest featureRunId currentVersion commandId)
      pure ()

/-- The task, from the check that automation is running on. -/
def startRun (featureRunId : String) (skipSelection : Bool) : Sql StartOutcome := do
  let state ← stepAt others 3 (query fun db => db.findWorkflowState payload.projectId)
  if state.map (·.automationState) ≠ some .running then pure (payload.notStarted (some featureRunId))
  else do
    let run ← stepAt others 4 (query fun db => db.runById featureRunId)
    match run with
    | none => pure (payload.notStarted (some featureRunId))
    | some run => do
      let selected ← selectRun others payload featureRunId skipSelection run.version
      match selected with
      | none => pure (payload.notStarted (some featureRunId))
      | some _ => startUnderLane others payload featureRunId run.version

/-- `runImpl` of start-next-feature. -/
def startNextFeature : Sql StartOutcome := do
  let chosen ← chooseRun others payload
  match chosen with
  | none => pure (payload.notStarted none)
  | some (featureRunId, skipSelection) => startRun others payload featureRunId skipSelection

end Task

/-! ### What a task did -/

section Rules

variable {others : TaskOthers} {payload : StartNextFeaturePayload} {s s' : Session}

/-- A report of a start: `StartCodingCommand` was dispatched for the run, and returned. -/
def Dispatched (others : TaskOthers) (payload : StartNextFeaturePayload) (now : ℤ)
    (outcome : StartOutcome) : Prop :=
  ∃ featureRunId version commandId lock s₁ s₂ result d,
    outcome = {
      result := { projectId := payload.projectId, featureRunId := some featureRunId, started := true }
      command := some d } ∧
    s₁.runtime.now = now ∧
    exec (dispatchTask others 1 (payload.startRequest featureRunId version commandId lock)) s₁ =
      (.ok (result, d), s₂)

/-- What a task that returned reports. -/
def StartReport (others : TaskOthers) (payload : StartNextFeaturePayload) (now : ℤ)
    (outcome : StartOutcome) : Prop :=
  (∃ featureRunId, outcome = payload.notStarted featureRunId) ∨ Dispatched others payload now outcome

theorem startUnderLane_ok {featureRunId : String} {currentVersion : ℕ} {outcome : StartOutcome}
    (h : exec (startUnderLane others payload featureRunId currentVersion) s = (.ok outcome, s')) :
    StartReport others payload s.runtime.now outcome := by
  obtain ⟨lock?, s₁, hacquire, h₁⟩ := exec_bind_ok.mp h
  have hrt₁ : s₁.runtime = s.runtime :=
    (frame_unlessTransient (frame_stepAt_runtime 5
      (frame_acquireForProject_runtime _ _))).of_exec hacquire
  rcases lock? with _ | lock
  · obtain ⟨hout, -⟩ := Prod.mk.inj h₁
    obtain rfl := Except.ok.inj hout
    exact Or.inl ⟨_, rfl⟩
  · obtain ⟨dispatched, s₂, hbody, h₂⟩ := exec_bind_ok.mp h₁
    obtain ⟨s₃, hdispatch, -⟩ := exec_ensuring_ok.mp hbody
    rcases dispatched with _ | ⟨result, d⟩
    · obtain ⟨hout, -⟩ := Prod.mk.inj h₂
      obtain rfl := Except.ok.inj hout
      exact Or.inl ⟨_, rfl⟩
    · obtain ⟨hout, -⟩ := Prod.mk.inj h₂
      obtain rfl := Except.ok.inj hout
      obtain ⟨selected, s₄, hselected, h₄⟩ := exec_bind_ok.mp (unlessTransient_some hdispatch)
      obtain ⟨commandId, s₅, hid, h₅⟩ := exec_bind_ok.mp h₄
      obtain ⟨-, rfl⟩ := Prod.mk.inj hid
      have hrt₄ : s₄.runtime = s₁.runtime :=
        (frame_stepAt_runtime 6 (frame_query_runtime _)).of_exec hselected
      have hnow : s₄.runtime.now = s.runtime.now := by rw [hrt₄, hrt₁]
      refine Or.inr ⟨featureRunId, _, commandId, lock, _, _, result, d, rfl, ?_, h₅⟩
      exact hnow

theorem startRun_ok {featureRunId : String} {skipSelection : Bool} {outcome : StartOutcome}
    (h : exec (startRun others payload featureRunId skipSelection) s = (.ok outcome, s')) :
    StartReport others payload s.runtime.now outcome := by
  obtain ⟨state, s₁, hstate, h₁⟩ := exec_bind_ok.mp h
  have hrt₁ : s₁.runtime = s.runtime :=
    (frame_stepAt_runtime 3 (frame_query_runtime _)).of_exec hstate
  rw [exec_ite] at h₁
  split at h₁
  · obtain ⟨hout, -⟩ := Prod.mk.inj h₁
    obtain rfl := Except.ok.inj hout
    exact Or.inl ⟨_, rfl⟩
  · obtain ⟨run, s₂, hrun, h₂⟩ := exec_bind_ok.mp h₁
    have hrt₂ : s₂.runtime = s₁.runtime :=
      (frame_stepAt_runtime 4 (frame_query_runtime _)).of_exec hrun
    rcases run with _ | run
    · obtain ⟨hout, -⟩ := Prod.mk.inj h₂
      obtain rfl := Except.ok.inj hout
      exact Or.inl ⟨_, rfl⟩
    · obtain ⟨selected, s₃, hselect, h₃⟩ := exec_bind_ok.mp h₂
      have hframe : Frame Session.runtime
          (selectRun others payload featureRunId skipSelection run.version) :=
        frame_ite (frame_pure _) (frame_bind frame_generateId_runtime fun _ =>
          frame_unlessTransient (frame_bind (frame_dispatchTask_runtime _ _) fun _ => frame_pure _))
      have hrt₃ : s₃.runtime = s₂.runtime := hframe.of_exec hselect
      rcases selected with _ | _
      · obtain ⟨hout, -⟩ := Prod.mk.inj h₃
        obtain rfl := Except.ok.inj hout
        exact Or.inl ⟨_, rfl⟩
      · have hreport := startUnderLane_ok h₃
        rw [hrt₃, hrt₂, hrt₁] at hreport
        exact hreport

theorem frame_chooseRun_runtime : Frame Session.runtime (chooseRun others payload) := by
  refine frame_bind (frame_bind (frame_stepAt_runtime 0 (frame_query_runtime _)) fun active => ?_)
    fun stranded => ?_
  · split
    · exact frame_pure _
    · exact frame_ite (frame_bind (frame_stepAt_runtime 1 (frame_query_runtime _)) fun _ =>
        frame_pure _) (frame_pure _)
  · split
    · exact frame_pure _
    · split
      · exact frame_pure _
      · exact frame_bind (frame_stepAt_runtime 2 (frame_query_runtime _)) fun _ => frame_pure _

/-- **What a task that returned reports**: no start, or a start whose command was dispatched. -/
theorem startNextFeature_ok {outcome : StartOutcome}
    (h : exec (startNextFeature others payload) s = (.ok outcome, s')) :
    StartReport others payload s.runtime.now outcome := by
  obtain ⟨chosen, s₁, hchoose, h₁⟩ := exec_bind_ok.mp h
  have hrt₁ : s₁.runtime = s.runtime := frame_chooseRun_runtime.of_exec hchoose
  rcases chosen with _ | ⟨featureRunId, skipSelection⟩
  · obtain ⟨hout, -⟩ := Prod.mk.inj h₁
    obtain rfl := Except.ok.inj hout
    exact Or.inl ⟨_, rfl⟩
  · have hreport := startRun_ok h₁
    rw [hrt₁] at hreport
    exact hreport

/-! ### When the report is true -/

namespace StartOutcome

/-- A reported start is true: the run is `coding` when the task's command has returned. -/
def Truthful (outcome : StartOutcome) : Prop :=
  outcome.result.started = true → ∃ d featureRunId, outcome.command = some d ∧
    outcome.result.featureRunId = some featureRunId ∧ d.left.stateOf featureRunId = some .coding

/-- The command found no live result under its key, or it found the run `coding`. -/
def Unspent (now : ℤ) (outcome : StartOutcome) : Prop :=
  ∀ d featureRunId, outcome.command = some d → outcome.result.featureRunId = some featureRunId →
    d.Fresh now ∨ d.found.stateOf featureRunId = some .coding

end StartOutcome

theorem startNextFeature_truthful {outcome : StartOutcome}
    (h : exec (startNextFeature others payload) s = (.ok outcome, s')) :
    outcome.Truthful ↔ outcome.Unspent s.runtime.now := by
  rcases startNextFeature_ok h with ⟨featureRunId, rfl⟩ |
    ⟨featureRunId, version, commandId, lock, s₁, s₂, result, d, rfl, hnow, hdispatch⟩
  · -- nothing was started: there is nothing to report, and no command
    constructor
    · rintro - d _ hcommand
      cases hcommand
    · intro _ hstarted
      cases hstarted
  · have hstate := dispatchTask_stateOf hdispatch
    rw [hnow] at hstate
    constructor
    · rintro htruthful d' run hcommand hrun
      obtain ⟨d'', run', hcommand', hrun', hcoding⟩ := htruthful rfl
      obtain rfl := Option.some.inj (hcommand.symm.trans hcommand')
      obtain rfl := Option.some.inj (hrun.symm.trans hrun')
      obtain rfl := Option.some.inj hcommand
      obtain rfl := Option.some.inj hrun
      rcases hstate with ⟨hfresh, -⟩ | ⟨-, hsame⟩
      · exact Or.inl hfresh
      · exact Or.inr (hsame.symm.trans hcoding)
    · intro hunspent _
      refine ⟨d, featureRunId, rfl, rfl, ?_⟩
      rcases hstate with ⟨-, htarget⟩ | ⟨hcached, hsame⟩
      · exact htarget
      · rcases hunspent d featureRunId rfl rfl with hfresh | hcoding
        · exact absurd hfresh hcached
        · exact hsame.trans hcoding

end Rules

end MiniCoder
