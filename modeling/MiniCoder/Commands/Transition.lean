import MiniCoder.Commands.Executor

/-!
# The shape of a feature-execution handler

The feature-execution handlers do one thing in one order: check what they require, load the run in
its project, compare versions, ask the validator, check their own guard, `UPDATE feature_runs` under
the version, write their side effects, the workflow event and the outbox row.  `Transition` is what
differs from one handler to the next, and `runTransition` is that order.

The law fields of `Transition` say which tables a handler's own code may touch: its checks write
none of the `core` tables, its side effects move at most the active-run pointer, and its cascade
rewrites at most pending runs.

* `runTransition_ok`: everything a committed transition found and did.
* `frame_runTransition`: a transition leaves the idempotency keys to its caller.

A `FeatureHandler` is a handler whose work is a transition; its evidence phase, where it has one,
writes evidence rows of the merge gate only.
-/

open Storage Storage.Action

namespace MiniCoder

/-! ### The tables a handler's own code may touch -/

/-- The database without the tables that record what happened: the events, the approvals, the
review trail and the mirror of the pull request. -/
def Db.core (db : Db) : Db :=
  { db with
    workflowEvents := .empty
    outboxEvents := .empty
    humanApprovals := .empty
    reviewFindings := .empty
    coderResponses := .empty
    disagreementRecords := .empty
    pullRequests := .empty }

/-- What `core` keeps, with the runtime. -/
def coreView (s : Session) : Db × Runtime := (s.db.core, s.runtime)

theorem seesData_coreView : SeesData coreView := fun _ _ _ => rfl

/-- The database without the evidence rows of the merge gate. -/
def Db.withoutEvidence (db : Db) : Db := { db with mergeGateEvaluations := .empty }

/-- What `withoutEvidence` keeps, with the runtime. -/
def evidenceView (s : Session) : Db × Runtime := (s.db.withoutEvidence, s.runtime)

theorem seesData_evidenceView : SeesData evidenceView := fun _ _ _ => rfl

/-- The core without the active-run pointers. -/
def unpointed (v : Db × Runtime) : Db × Runtime := ({ v.1 with workflowStates := .empty }, v.2)

/-- The core without the feature runs. -/
def unrun (v : Db × Runtime) : Db × Runtime := ({ v.1 with featureRuns := .empty }, v.2)

/-! ### The active-run pointer -/

namespace Db

/-- `project_id = ? AND automation_state = 'running' AND active_feature_run_id IS NULL`. -/
def isIdle (projectId : String) (ws : WorkflowState) : Bool :=
  ws.projectId == projectId && ws.automationState == .running && ws.activeFeatureRunId.isNone

/-- `project_id = ? AND active_feature_run_id = ?`. -/
def isActive (projectId featureRunId : String) (ws : WorkflowState) : Bool :=
  ws.projectId == projectId && ws.activeFeatureRunId == some featureRunId

end Db

/-- `UPDATE workflow_states SET active_feature_run_id = ?` on an idle running project. -/
def setActive (t : Table WorkflowState) (projectId featureRunId : String) : Table WorkflowState :=
  t.update (Db.isIdle projectId)
    (fun ws => { ws with activeFeatureRunId := some featureRunId, version := ws.version + 1 })
    fun _ _ => rfl

/-- `UPDATE workflow_states SET active_feature_run_id = NULL` where the run is the active one. -/
def clearActive (t : Table WorkflowState) (projectId featureRunId : String) : Table WorkflowState :=
  t.update (Db.isActive projectId featureRunId)
    (fun ws => { ws with activeFeatureRunId := none, version := ws.version + 1 })
    fun _ _ => rfl

/-- What a transition does to the active-run pointer of its project. -/
inductive PointerMove
  | keep
  | claim
  | release
  deriving DecidableEq, Repr

/-- The move, as a relation on the `workflow_states` table. -/
def PointerMove.Moves (move : PointerMove) (projectId featureRunId : String)
    (t t' : Table WorkflowState) : Prop :=
  match move with
  | keep => t' = t
  | claim => t.count (Db.isIdle projectId) ≠ 0 ∧ t' = setActive t projectId featureRunId
  | release => t' = clearActive t projectId featureRunId

/-- Side effects that write none of the core tables leave the pointer where it was. -/
theorem pointers_of_core {m : Sql Unit} (hm : Frame coreView m) {s s' : Session}
    (h : exec m s = (.ok (), s')) : s'.db.workflowStates = s.db.workflowStates :=
  (congrArg (fun v => v.1.workflowStates) (hm.of_exec h) :
    s'.db.core.workflowStates = s.db.core.workflowStates)

theorem keep_of_core {m : Sql Unit} (hm : Frame coreView m) {s s' : Session}
    (h : exec m s = (.ok (), s')) {projectId featureRunId : String} :
    PointerMove.keep.Moves projectId featureRunId s.db.workflowStates s'.db.workflowStates :=
  pointers_of_core hm h

/-! ### Transitions -/

/-- The run that a skip of its dependency blocks. -/
def FeatureRun.cascaded (run : FeatureRun) : FeatureRun :=
  { run with currentExecutionState := .blocked, version := run.version + 1 }

/-- What a cascade may do to one row. -/
def Cascaded (toState : FeatureExecutionState) (run run' : FeatureRun) : Prop :=
  run' = run ∨ (toState = .skipped ∧ run.currentExecutionState = .approvedPendingExecution ∧
    run' = run.cascaded)

theorem Cascaded.refl (toState : FeatureExecutionState) (t : Table FeatureRun) :
    t.Rewritten (Cascaded toState) t :=
  Table.Rewritten.refl fun _ _ => Or.inl rfl

/-- A blocked run is no longer pending, so that a second cascade leaves it alone. -/
theorem Cascaded.trans {toState : FeatureExecutionState} {r r' r'' : FeatureRun}
    (h : Cascaded toState r r') (h' : Cascaded toState r' r'') : Cascaded toState r r'' := by
  rcases h with rfl | ⟨hto, hpending, rfl⟩
  · exact h'
  · rcases h' with rfl | ⟨-, hpending', -⟩
    · exact Or.inr ⟨hto, hpending, rfl⟩
    · cases hpending'

/-- A handler without a cascade. -/
theorem cascaded_pure {toState : FeatureExecutionState} {s s' : Session}
    (h : exec (pure () : Sql Unit) s = (.ok (), s')) :
    s.db.featureRuns.Rewritten (Cascaded toState) s'.db.featureRuns := by
  obtain rfl : s = s' := (Prod.mk.inj h).2
  exact Cascaded.refl toState _

section Pure

/-! The parts that a handler does without. -/

theorem prologue_core_pure : Frame coreView (pure () : Sql Unit) := frame_pure _

theorem guard_core_pure : ∀ _ : FeatureRun, Frame coreView (pure () : Sql Unit) :=
  fun _ => frame_pure _

theorem effects_core_pure : ∀ (_ : FeatureRun) (_ : Unit),
    Frame (fun s => unpointed (coreView s)) (pure () : Sql Unit) :=
  fun _ _ => frame_pure _

theorem cascade_core_pure : ∀ _ : FeatureRun,
    Frame (fun s => unrun (coreView s)) (pure () : Sql Unit) :=
  fun _ => frame_pure _

end Pure

/-- What one handler adds to the common order of steps. -/
structure Transition extends FeatureRunRef where
  toState : FeatureExecutionState
  /-- What the guard hands to the side effects. -/
  Checked : Type
  /-- The checks before the run is loaded. -/
  prologue : Sql Unit := pure ()
  /-- Whether a missing run is a 404; otherwise `assertVersion` reports it. -/
  reportsMissing : Bool := true
  /-- The handler's own guard, after the validator. -/
  guard : FeatureRun → Sql Checked
  /-- Whether the `UPDATE` re-checks that automation is running. -/
  whileRunning : Bool := false
  /-- What is thrown when the `UPDATE` matched no row. -/
  conflict : Sql Failure :=
    pure (.optimisticLock "feature_runs" featureRunId expectedVersion (-1))
  /-- What the `UPDATE` adds to `fix_attempt_count`. -/
  fixAttempts : ℕ := 0
  effects : FeatureRun → Checked → Sql Unit := fun _ _ => pure ()
  pointer : PointerMove := .keep
  eventType : String
  /-- The `from_state` of the event: some handlers write a constant. -/
  eventFrom : FeatureRun → FeatureExecutionState := (·.currentExecutionState)
  outboxType : String := eventType
  outboxPayload : Checked → Payload
  cascade : FeatureRun → Sql Unit := fun _ => pure ()
  prologue_core : Frame coreView prologue := by exact prologue_core_pure
  guard_core : ∀ run, Frame coreView (guard run) := by
    first | exact guard_core_pure | exact fun _ => frame_pure _
  conflict_core : Frame coreView conflict := by exact frame_pure _
  effects_core : ∀ run g, Frame (fun s => unpointed (coreView s)) (effects run g) := by
    first | exact effects_core_pure | exact fun _ _ => frame_pure _
  effects_pointer : ∀ run g s s', exec (effects run g) s = (.ok (), s') →
    pointer.Moves projectId featureRunId s.db.workflowStates s'.db.workflowStates := by
      exact fun _ _ _ _ h => keep_of_core (frame_pure _) h
  cascade_core : ∀ run, Frame (fun s => unrun (coreView s)) (cascade run) := by
    exact cascade_core_pure
  cascade_runs : ∀ run s s', exec (cascade run) s = (.ok (), s') →
    s.db.featureRuns.Rewritten (Cascaded toState) s'.db.featureRuns := by
      exact fun _ _ _ h => cascaded_pure h

namespace Transition

variable (t : Transition)

/-- `id = ? AND version = ?`, and, where the handler asks for it, `EXISTS (SELECT 1 FROM
workflow_states WHERE project_id = ? AND automation_state = 'running')`. -/
def matchesRun (db : Db) (run : FeatureRun) : Bool :=
  run.id == t.featureRunId && run.version == t.expectedVersion &&
    (!t.whileRunning || (db.workflowStates.find? fun ws =>
      ws.projectId == t.projectId && ws.automationState == .running).isSome)

/-- The `SET` list of the `UPDATE`. -/
def moved (run : FeatureRun) : FeatureRun :=
  { run with
    currentExecutionState := t.toState
    fixAttemptCount := run.fixAttemptCount + t.fixAttempts
    version := nextVersion t.expectedVersion }

/-- `UPDATE feature_runs SET …`, with the number of rows it matched. -/
def updateFeatureRun (db : Db) : ℕ × Db :=
  (db.featureRuns.count (t.matchesRun db),
    { db with
      featureRuns := db.featureRuns.update (t.matchesRun db) t.moved fun _ _ => rfl })

/-- The 404 of a handler that reports a missing run. -/
def notFound (correlationId : String) : Failure :=
  .command {
    type := "not-found"
    title := "Feature run not found"
    status := 404
    detail := s!"Feature run {t.featureRunId} not found in project {t.projectId}"
    instance? := some correlationId }

/-- Loads the run in its project, and checks its version and its edge. -/
def load (correlationId : String) : Sql FeatureRun := do
  let row ← query fun db => db.findFeatureRun t.featureRunId t.projectId
  if t.reportsMissing = true ∧ row = none then
    throw (t.notFound correlationId)
  else
    let run ← orThrow (assertVersion "feature_runs" t.featureRunId row t.expectedVersion)
    let _ ← orThrow (assertValid run.currentExecutionState t.toState)
    pure run

/-- The conditional `UPDATE` and what it throws when it matched no row. -/
def move : Sql Unit := do
  let affected ← execute fun db => some (t.updateFeatureRun db)
  if affected = 0 then
    let failure ← t.conflict
    throw failure
  else
    pure ()

/-- The workflow event and the outbox row; returns the id of the event. -/
def record {P : Type} (envelope : CommandEnvelope P) (run : FeatureRun) (g : t.Checked) :
    Sql String := do
  let eventId ← writeWorkflowEvent {
    featureRunId := some t.featureRunId
    projectId := some t.projectId
    eventType := t.eventType
    fromState := (t.eventFrom run).literal
    toState := t.toState.literal
    actorId := envelope.actor.id }
  let _ ← writeOutboxEvent t.outboxType (t.outboxPayload g)
  pure eventId

end Transition

/-- The work of a feature-execution handler under its claim. -/
def runTransition {P : Type} (envelope : CommandEnvelope P) (t : Transition) :
    Sql CommandResult := do
  t.prologue
  let run ← t.load envelope.correlationId
  let g ← t.guard run
  t.move
  t.effects run g
  let eventId ← t.record envelope run g
  t.cascade run
  pure {
    commandId := envelope.commandId
    accepted := true
    resultingState := t.toState.literal
    emittedEventIds := [eventId] }

/-! ### What each step found and did -/

theorem core_eq {s s' : Session} (h : coreView s' = coreView s) :
    s'.db.core = s.db.core ∧ s'.runtime = s.runtime := Prod.mk.inj h

/-- Connections that agree on the core agree on the run a handler loads. -/
theorem findFeatureRun_core (db : Db) (featureRunId projectId : String) :
    db.core.findFeatureRun featureRunId projectId = db.findFeatureRun featureRunId projectId := rfl

namespace Transition

variable {t : Transition} {s s' : Session}

theorem load_ok {correlationId : String} {run : FeatureRun}
    (h : exec (t.load correlationId) s = (.ok run, s')) :
    s.db.findFeatureRun t.featureRunId t.projectId = some run ∧
      run.version = t.expectedVersion ∧ isValid run.currentExecutionState t.toState = true ∧
      s'.db = s.db ∧ s'.runtime = s.runtime := by
  obtain ⟨row, s₁, hquery, h₁⟩ := exec_bind_ok.mp h
  obtain ⟨rfl, hdb, hrt⟩ := query_ok hquery
  rw [exec_ite] at h₁
  split at h₁
  · simp at h₁
  · obtain ⟨run', s₂, hversion, h₂⟩ := exec_bind_ok.mp h₁
    obtain ⟨hrow, rfl⟩ := orThrow_ok hversion
    obtain ⟨hfound, hv⟩ := assertVersion_ok hrow
    obtain ⟨edge, s₃, hvalid, h₃⟩ := exec_bind_ok.mp h₂
    obtain ⟨hedge, rfl⟩ := orThrow_ok hvalid
    obtain ⟨hrun, rfl⟩ := Prod.mk.inj h₃
    obtain rfl := Except.ok.inj hrun
    exact ⟨hfound, hv, isValid_of_assertValid hedge, hdb, hrt⟩

theorem frame_load {τ : Type} {π : Session → τ} (hπ : SeesData π) (correlationId : String) :
    Frame π (t.load correlationId) :=
  frame_bind (frame_query hπ _) fun _ => frame_ite (frame_throw _)
    (frame_bind (frame_orThrow _) fun _ => frame_bind (frame_orThrow _) fun _ => frame_pure _)

/-- The `UPDATE` of a transition that went on matched a row. -/
theorem move_ok (h : exec t.move s = (.ok (), s')) :
    s.db.featureRuns.count (t.matchesRun s.db) ≠ 0 ∧ s'.db = (t.updateFeatureRun s.db).2 ∧
      s'.runtime = s.runtime := by
  obtain ⟨affected, s₁, hupdate, h₁⟩ := exec_bind_ok.mp h
  obtain ⟨hdb, hrt⟩ := execute_ok hupdate
  obtain ⟨rfl, hdb'⟩ := Prod.mk.inj (Option.some.inj hdb)
  by_cases hcount : s.db.featureRuns.count (t.matchesRun s.db) = 0
  · rw [if_pos hcount] at h₁
    obtain ⟨failure, s₂, -, hthrow⟩ := exec_bind_ok.mp h₁
    simp at hthrow
  · rw [if_neg hcount] at h₁
    obtain ⟨-, rfl⟩ := Prod.mk.inj h₁
    exact ⟨hcount, hdb'.symm, hrt⟩

theorem frame_move : Frame (fun s => unrun (coreView s)) t.move := by
  refine frame_bind (frame_execute (fun _ _ _ => rfl) fun s _ db h => ?_) fun affected =>
    frame_ite (frame_bind (Frame.map t.conflict_core unrun) fun _ => frame_throw _) (frame_pure _)
  obtain ⟨-, rfl⟩ := Prod.mk.inj (Option.some.inj h)
  rfl

theorem record_core {P : Type} (envelope : CommandEnvelope P) (run : FeatureRun) (g : t.Checked) :
    Frame coreView (t.record envelope run g) :=
  frame_bind (frame_writeWorkflowEvent seesData_coreView (fun _ _ => rfl) _) fun _ =>
    frame_bind (frame_writeOutboxEvent seesData_coreView (fun _ _ => rfl) _ _) fun _ =>
    frame_pure _

end Transition

/-! ### What a committed transition found and did -/

/-- `m` returned `a` on a connection with the core tables of `db`. -/
def Yields {α : Type} (rt : Runtime) (db : Db) (m : Sql α) (a : α) : Prop :=
  ∃ s s', coreView s = (db.core, rt) ∧ exec m s = (.ok a, s')

/-- What a transition does to one row: it moves its own run, and cascades to the others. -/
def Transition.Change (t : Transition) (run r r' : FeatureRun) : Prop :=
  (r = run ∧ r' = t.moved run) ∨ (r.id ≠ t.featureRunId ∧ Cascaded t.toState r r')

/-- Everything a committed transition of `run` found in `db` and did to it. -/
structure Moved (t : Transition) (rt : Runtime) (db db' : Db) (run : FeatureRun) : Prop where
  found : db.findFeatureRun t.featureRunId t.projectId = some run
  version : run.version = t.expectedVersion
  valid : isValid run.currentExecutionState t.toState = true
  prologue : Yields rt db t.prologue ()
  guard : ∃ g, Yields rt db (t.guard run) g
  running : t.whileRunning = true →
    ∃ ws ∈ db.workflowStates.rows, ws.projectId = t.projectId ∧ ws.automationState = .running
  runs : db.featureRuns.Rewritten (t.Change run) db'.featureRuns
  pointer : t.pointer.Moves t.projectId t.featureRunId db.workflowStates db'.workflowStates
  rest : unrun (unpointed (db'.core, rt)) = unrun (unpointed (db.core, rt))

namespace Transition

variable {t : Transition} {db : Db} {run : FeatureRun}

/-- The row the `UPDATE` matches is the run that was loaded. -/
theorem eq_of_matchesRun (hfound : db.findFeatureRun t.featureRunId t.projectId = some run)
    {r : FeatureRun} (hr : r ∈ db.featureRuns.rows) (hid : r.id = t.featureRunId) : r = run := by
  obtain ⟨hmem, hrun, -⟩ := Db.findFeatureRun_some hfound
  have hids : r.id = run.id := hid.trans hrun.symm
  exact db.featureRuns.eq_of_clash hr hmem (decide_eq_true hids)

/-- What the `UPDATE` and the cascade together do to one row. -/
theorem change_of_cascaded (hfound : db.findFeatureRun t.featureRunId t.projectId = some run)
    (hmatch : t.matchesRun db run = true) {r r' : FeatureRun} (hr : r ∈ db.featureRuns.rows)
    (h : Cascaded t.toState (Table.updateRow (t.matchesRun db) t.moved r) r') :
    t.Change run r r' := by
  by_cases hid : r.id = t.featureRunId
  · obtain rfl := eq_of_matchesRun hfound hr hid
    rw [Table.updateRow_of_pos hmatch] at h
    rcases h with rfl | ⟨hto, hpending, -⟩
    · exact Or.inl ⟨rfl, rfl⟩
    · -- the moved run is not pending: it has just reached the state of a skip
      have hstate : t.toState = .approvedPendingExecution := hpending
      rw [hto] at hstate
      cases hstate
  · have hmiss : t.matchesRun db r = false := by
      rw [matchesRun, beq_eq_false_iff_ne.mpr hid, Bool.false_and, Bool.false_and]
    rw [Table.updateRow_of_neg hmiss] at h
    exact Or.inr ⟨hid, h⟩

/-- The `UPDATE` matched the loaded run, and, where the handler asks, automation was running. -/
theorem matchesRun_of_count (hfound : db.findFeatureRun t.featureRunId t.projectId = some run)
    (hcount : db.featureRuns.count (t.matchesRun db) ≠ 0) :
    t.matchesRun db run = true ∧ (t.whileRunning = true →
      ∃ ws ∈ db.workflowStates.rows, ws.projectId = t.projectId ∧ ws.automationState = .running) := by
  obtain ⟨r, hr, hmatch⟩ := Table.count_pos hcount
  have hparts := hmatch
  simp only [matchesRun, Bool.and_eq_true, beq_iff_eq] at hparts
  obtain rfl := eq_of_matchesRun hfound hr hparts.1.1
  refine ⟨hmatch, fun hwhile => ?_⟩
  have hsome := hparts.2
  rw [hwhile, Bool.not_true, Bool.false_or] at hsome
  obtain ⟨ws, hws⟩ := Option.isSome_iff_exists.mp hsome
  have hends := db.workflowStates.prop_of_find? hws
  rw [Bool.and_eq_true, beq_iff_eq, beq_iff_eq] at hends
  exact ⟨ws, db.workflowStates.mem_of_find? hws, hends⟩

end Transition

/-- **What a committed transition found and did.** -/
theorem runTransition_ok {P : Type} {envelope : CommandEnvelope P} {t : Transition}
    {s s' : Session} {result : CommandResult}
    (h : exec (runTransition envelope t) s = (.ok result, s')) :
    (∃ run, Moved t s.runtime s.db s'.db run) ∧ result.resultingState = t.toState.literal := by
  obtain ⟨_, s₁, hprologue, h₁⟩ := exec_bind_ok.mp h
  obtain ⟨run, s₂, hload, h₂⟩ := exec_bind_ok.mp h₁
  obtain ⟨g, s₃, hguard, h₃⟩ := exec_bind_ok.mp h₂
  obtain ⟨_, s₄, hmove, h₄⟩ := exec_bind_ok.mp h₃
  obtain ⟨_, s₅, heffects, h₅⟩ := exec_bind_ok.mp h₄
  obtain ⟨eventId, s₆, hrecord, h₆⟩ := exec_bind_ok.mp h₅
  obtain ⟨_, s₇, hcascade, h₇⟩ := exec_bind_ok.mp h₆
  obtain ⟨hresult, rfl⟩ := Prod.mk.inj h₇
  obtain rfl := Except.ok.inj hresult
  refine ⟨⟨run, ?_⟩, rfl⟩
  -- up to the `UPDATE`, nothing of the core has changed
  have hc₁ : coreView s₁ = coreView s := t.prologue_core.of_exec hprologue
  obtain ⟨hfound, hversion, hvalid, hdb₂, hrt₂⟩ := Transition.load_ok hload
  have hc₂ : coreView s₂ = coreView s := by
    rw [← hc₁, coreView, coreView, hdb₂, hrt₂]
  have hc₃ : coreView s₃ = coreView s := ((t.guard_core run).of_exec hguard).trans hc₂
  have hcore₁ : s₁.db.core = s.db.core := (core_eq hc₁).1
  have hcore₃ : s₃.db.core = s.db.core := (core_eq hc₃).1
  have hfound' : s.db.findFeatureRun t.featureRunId t.projectId = some run := by
    rw [← findFeatureRun_core, ← hcore₁, findFeatureRun_core]
    exact hfound
  -- the `UPDATE` matched the run
  obtain ⟨hcount, hdb₄, hrt₄⟩ := Transition.move_ok hmove
  have hruns₃ : s₃.db.featureRuns = s.db.featureRuns :=
    (congrArg Db.featureRuns hcore₃ : s₃.db.core.featureRuns = s.db.core.featureRuns)
  have hws₃ : s₃.db.workflowStates = s.db.workflowStates :=
    (congrArg Db.workflowStates hcore₃ : s₃.db.core.workflowStates = s.db.core.workflowStates)
  have hmatches : t.matchesRun s₃.db = t.matchesRun s.db := by
    funext r
    rw [Transition.matchesRun, Transition.matchesRun, hws₃]
  rw [hruns₃, hmatches] at hcount
  obtain ⟨hmatch, hrunning⟩ := Transition.matchesRun_of_count hfound' hcount
  have hruns₄ : s.db.featureRuns.Rewritten
      (fun r r' => r' = Table.updateRow (t.matchesRun s.db) t.moved r) s₄.db.featureRuns := by
    rw [hdb₄, ← hmatches, ← hruns₃]
    exact Table.Rewritten.update (t.matchesRun s₃.db) t.moved fun _ _ => rfl
  have hws₄ : s₄.db.workflowStates = s.db.workflowStates := by
    rw [hdb₄]
    exact hws₃
  have hrest₄ : unrun (coreView s₄) = unrun (coreView s) :=
    (Transition.frame_move.of_exec hmove).trans (congrArg unrun hc₃)
  -- the side effects and the events leave the runs alone, the cascade the pointers
  have hc₅ : unpointed (coreView s₅) = unpointed (coreView s₄) :=
    (t.effects_core run g).of_exec heffects
  have hc₆ : coreView s₆ = coreView s₅ :=
    (Transition.record_core envelope run g).of_exec hrecord
  have hc₇ : unrun (coreView s₇) = unrun (coreView s₆) := (t.cascade_core run).of_exec hcascade
  have hruns₆ : s₆.db.featureRuns = s₄.db.featureRuns :=
    (congrArg (fun v => v.1.featureRuns) hc₆).trans (congrArg (fun v => v.1.featureRuns) hc₅)
  have hws₇ : s₇.db.workflowStates = s₅.db.workflowStates :=
    (congrArg (fun v => v.1.workflowStates) hc₇).trans (congrArg (fun v => v.1.workflowStates) hc₆)
  exact {
    found := hfound'
    version := hversion
    valid := hvalid
    prologue := ⟨s, s₁, rfl, hprologue⟩
    guard := ⟨g, s₂, s₃, hc₂, hguard⟩
    running := hrunning
    runs := by
      have hcas := t.cascade_runs run s₆ s₇ hcascade
      rw [hruns₆] at hcas
      refine Table.Rewritten.imp_of_mem (hruns₄.trans hcas fun r r₁ r₂ hr hr₁ => ?_)
        fun r hr r' => Transition.change_of_cascaded hfound' hmatch hr
      rw [hr] at hr₁
      exact hr₁
    pointer := by
      have hmoves := t.effects_pointer run g s₄ s₅ heffects
      rw [hws₄] at hmoves
      rw [hws₇]
      exact hmoves
    rest := by
      have h₅₇ : unrun (unpointed (coreView s₇)) = unrun (unpointed (coreView s₅)) :=
        (congrArg unpointed hc₇).trans (congrArg (fun v => unrun (unpointed v)) hc₆)
      have h₃₅ : unrun (unpointed (coreView s₅)) = unrun (unpointed (coreView s)) :=
        (congrArg unrun hc₅).trans (congrArg unpointed hrest₄)
      exact congrArg (fun v => (v.1, s.runtime)) (h₅₇.trans h₃₅) }

/-- A transition leaves the idempotency keys, and the runtime, to its caller. -/
theorem frame_runTransition {P : Type} (envelope : CommandEnvelope P) (t : Transition) :
    Frame (fun s => (s.db.idempotencyKeys, s.runtime)) (runTransition envelope t) := by
  have hcore : ∀ {α : Type} {m : Sql α}, Frame coreView m →
      Frame (fun s => (s.db.idempotencyKeys, s.runtime)) m :=
    fun hm => hm.map fun v => (v.1.idempotencyKeys, v.2)
  refine frame_bind (hcore t.prologue_core) fun _ =>
    frame_bind (Transition.frame_load (fun _ _ _ => rfl) _) fun run =>
    frame_bind (hcore (t.guard_core run)) fun g =>
    frame_bind (Transition.frame_move.map fun v => (v.1.idempotencyKeys, v.2)) fun _ =>
    frame_bind ((t.effects_core run g).map fun v => (v.1.idempotencyKeys, v.2)) fun _ =>
    frame_bind (hcore (Transition.record_core envelope run g)) fun _ =>
    frame_bind ((t.cascade_core run).map fun v => (v.1.idempotencyKeys, v.2)) fun _ =>
    frame_pure _

/-- A transition leaves alone what the handler's own code leaves alone, when neither the runs nor
the events are part of it. -/
theorem frame_runTransition_of {P τ : Type} {g : Db → τ}
    (hruns : ∀ db t, g { db with featureRuns := t } = g db)
    (hevents : ∀ db t, g { db with workflowEvents := t } = g db)
    (houtbox : ∀ db t, g { db with outboxEvents := t } = g db)
    (envelope : CommandEnvelope P) {t : Transition}
    (hprologue : Frame (fun s : Session => g s.db) t.prologue)
    (hguard : ∀ run, Frame (fun s : Session => g s.db) (t.guard run))
    (hconflict : Frame (fun s : Session => g s.db) t.conflict)
    (heffects : ∀ run checked, Frame (fun s : Session => g s.db) (t.effects run checked))
    (hcascade : ∀ run, Frame (fun s : Session => g s.db) (t.cascade run)) :
    Frame (fun s : Session => g s.db) (runTransition envelope t) := by
  have hπ : SeesData (fun s : Session => g s.db) := fun _ _ _ => rfl
  have hmove : Frame (fun s : Session => g s.db) t.move := by
    refine frame_bind (frame_execute hπ fun s _ db h => ?_) fun affected =>
      frame_ite (frame_bind hconflict fun _ => frame_throw _) (frame_pure _)
    obtain ⟨-, rfl⟩ := Prod.mk.inj (Option.some.inj h)
    exact hruns s.db _
  have hrecord : ∀ run checked, Frame (fun s : Session => g s.db) (t.record envelope run checked) :=
    fun run checked =>
      frame_bind (frame_writeWorkflowEvent hπ (fun s t => hevents s.db t) _) fun _ =>
      frame_bind (frame_writeOutboxEvent hπ (fun s t => houtbox s.db t) _ _) fun _ => frame_pure _
  exact frame_bind hprologue fun _ => frame_bind (Transition.frame_load hπ _) fun run =>
    frame_bind (hguard run) fun checked => frame_bind hmove fun _ =>
    frame_bind (heffects run checked) fun _ => frame_bind (hrecord run checked) fun _ =>
    frame_bind (hcascade run) fun _ => frame_pure _

/-- A view that only the side effects of a transition change is, in the end, what they left of it. -/
theorem runTransition_effects {P τ : Type} {g : Db → τ}
    (hruns : ∀ db t, g { db with featureRuns := t } = g db)
    (hevents : ∀ db t, g { db with workflowEvents := t } = g db)
    (houtbox : ∀ db t, g { db with outboxEvents := t } = g db)
    {envelope : CommandEnvelope P} {t : Transition} {s s' : Session} {result : CommandResult}
    (hprologue : Frame (fun s : Session => g s.db) t.prologue)
    (hguard : ∀ run, Frame (fun s : Session => g s.db) (t.guard run))
    (hcascade : ∀ run, Frame (fun s : Session => g s.db) (t.cascade run))
    (h : exec (runTransition envelope t) s = (.ok result, s')) :
    ∃ run checked s₁ s₂, s.db.findFeatureRun t.featureRunId t.projectId = some run ∧
      g s₁.db = g s.db ∧ exec (t.effects run checked) s₁ = (.ok (), s₂) ∧ g s'.db = g s₂.db := by
  have hπ : SeesData (fun s : Session => g s.db) := fun _ _ _ => rfl
  obtain ⟨_, s₁, hfirst, h₁⟩ := exec_bind_ok.mp h
  obtain ⟨run, s₂, hload, h₂⟩ := exec_bind_ok.mp h₁
  obtain ⟨checked, s₃, hcheck, h₃⟩ := exec_bind_ok.mp h₂
  obtain ⟨_, s₄, hmove, h₄⟩ := exec_bind_ok.mp h₃
  obtain ⟨_, s₅, heffects, h₅⟩ := exec_bind_ok.mp h₄
  obtain ⟨eventId, s₆, hrecord, h₆⟩ := exec_bind_ok.mp h₅
  obtain ⟨_, s₇, hlast, h₇⟩ := exec_bind_ok.mp h₆
  obtain ⟨-, rfl⟩ := Prod.mk.inj h₇
  refine ⟨run, checked, s₄, s₅, ?_, ?_, heffects, ?_⟩
  · have hcore : s₁.db.core = s.db.core := (core_eq (t.prologue_core.of_exec hfirst)).1
    rw [← findFeatureRun_core, ← hcore, findFeatureRun_core]
    exact (Transition.load_ok hload).1
  · have hmoved : g s₄.db = g s₃.db := by
      rw [(Transition.move_ok hmove).2.1]
      exact hruns s₃.db _
    have hloaded : g s₂.db = g s₁.db := (Transition.frame_load hπ _).of_exec hload
    rw [hmoved, (hguard run).of_exec hcheck, hloaded, hprologue.of_exec hfirst]
  · have hrecorded : g s₆.db = g s₅.db :=
      (frame_bind (frame_writeWorkflowEvent hπ (fun s t => hevents s.db t) _) fun _ =>
        frame_bind (frame_writeOutboxEvent hπ (fun s t => houtbox s.db t) _ _) fun _ =>
        frame_pure _ : Frame (fun s : Session => g s.db) (t.record envelope run checked)).of_exec
          hrecord
    exact ((hcascade run).of_exec hlast).trans hrecorded

/-- A view that only the guard of a transition changes is, in the end, what the guard left of it. -/
theorem runTransition_guard {P τ : Type} {g : Db → τ}
    (hruns : ∀ db t, g { db with featureRuns := t } = g db)
    (hevents : ∀ db t, g { db with workflowEvents := t } = g db)
    (houtbox : ∀ db t, g { db with outboxEvents := t } = g db)
    {envelope : CommandEnvelope P} {t : Transition} {s s' : Session} {result : CommandResult}
    (hprologue : Frame (fun s : Session => g s.db) t.prologue)
    (heffects : ∀ run checked, Frame (fun s : Session => g s.db) (t.effects run checked))
    (hcascade : ∀ run, Frame (fun s : Session => g s.db) (t.cascade run))
    (h : exec (runTransition envelope t) s = (.ok result, s')) :
    ∃ run checked s₁ s₂, g s₁.db = g s.db ∧ exec (t.guard run) s₁ = (.ok checked, s₂) ∧
      g s'.db = g s₂.db := by
  have hπ : SeesData (fun s : Session => g s.db) := fun _ _ _ => rfl
  obtain ⟨_, s₁, hfirst, h₁⟩ := exec_bind_ok.mp h
  obtain ⟨run, s₂, hload, h₂⟩ := exec_bind_ok.mp h₁
  obtain ⟨checked, s₃, hcheck, h₃⟩ := exec_bind_ok.mp h₂
  obtain ⟨_, s₄, hmove, h₄⟩ := exec_bind_ok.mp h₃
  obtain ⟨_, s₅, hside, h₅⟩ := exec_bind_ok.mp h₄
  obtain ⟨eventId, s₆, hrecord, h₆⟩ := exec_bind_ok.mp h₅
  obtain ⟨_, s₇, hlast, h₇⟩ := exec_bind_ok.mp h₆
  obtain ⟨-, rfl⟩ := Prod.mk.inj h₇
  refine ⟨run, checked, s₂, s₃, ?_, hcheck, ?_⟩
  · have hloaded : g s₂.db = g s₁.db := (Transition.frame_load hπ _).of_exec hload
    rw [hloaded, hprologue.of_exec hfirst]
  · have hmoved : g s₄.db = g s₃.db := by
      rw [(Transition.move_ok hmove).2.1]
      exact hruns s₃.db _
    have hrecorded : g s₆.db = g s₅.db :=
      (frame_bind (frame_writeWorkflowEvent hπ (fun s t => hevents s.db t) _) fun _ =>
        frame_bind (frame_writeOutboxEvent hπ (fun s t => houtbox s.db t) _ _) fun _ =>
        frame_pure _ : Frame (fun s : Session => g s.db) (t.record envelope run checked)).of_exec
          hrecord
    rw [(hcascade run).of_exec hlast, hrecorded, (heffects run checked).of_exec hside, hmoved]

/-- The cascade of a transition comes last: what is before it touches the runs, the pointers and
the trail only. -/
theorem runTransition_cascade {P : Type} {envelope : CommandEnvelope P} {t : Transition}
    {s s' : Session} {result : CommandResult}
    (h : exec (runTransition envelope t) s = (.ok result, s')) :
    ∃ run s₁, s.db.findFeatureRun t.featureRunId t.projectId = some run ∧
      unrun (unpointed (coreView s₁)) = unrun (unpointed (coreView s)) ∧
      exec (t.cascade run) s₁ = (.ok (), s') := by
  obtain ⟨_, s₁, hprologue, h₁⟩ := exec_bind_ok.mp h
  obtain ⟨run, s₂, hload, h₂⟩ := exec_bind_ok.mp h₁
  obtain ⟨g, s₃, hguard, h₃⟩ := exec_bind_ok.mp h₂
  obtain ⟨_, s₄, hmove, h₄⟩ := exec_bind_ok.mp h₃
  obtain ⟨_, s₅, heffects, h₅⟩ := exec_bind_ok.mp h₄
  obtain ⟨eventId, s₆, hrecord, h₆⟩ := exec_bind_ok.mp h₅
  obtain ⟨_, s₇, hcascade, h₇⟩ := exec_bind_ok.mp h₆
  obtain ⟨-, rfl⟩ := Prod.mk.inj h₇
  have hc₁ : coreView s₁ = coreView s := t.prologue_core.of_exec hprologue
  have hc₂ : coreView s₂ = coreView s₁ :=
    (Transition.frame_load seesData_coreView envelope.correlationId).of_exec hload
  have hc₃ : coreView s₃ = coreView s₂ := (t.guard_core run).of_exec hguard
  have hc₄ : unrun (coreView s₄) = unrun (coreView s₃) := Transition.frame_move.of_exec hmove
  have hc₅ : unpointed (coreView s₅) = unpointed (coreView s₄) :=
    (t.effects_core run g).of_exec heffects
  have hc₆ : coreView s₆ = coreView s₅ :=
    (Transition.record_core envelope run g).of_exec hrecord
  refine ⟨run, s₆, ?_, ?_, hcascade⟩
  · rw [← findFeatureRun_core, ← (core_eq hc₁).1, findFeatureRun_core]
    exact (Transition.load_ok hload).1
  · calc unrun (unpointed (coreView s₆))
        = unrun (unpointed (coreView s₅)) := by rw [hc₆]
      _ = unrun (unpointed (coreView s₄)) := congrArg unrun hc₅
      _ = unrun (unpointed (coreView s₃)) := congrArg unpointed hc₄
      _ = unrun (unpointed (coreView s)) := by rw [hc₃, hc₂, hc₁]

/-! ### Handlers -/

/-- A feature-execution handler. -/
structure FeatureHandler (P : Type) where
  commandName : String
  requiredRole : UserRole
  requiredActorKind : ActorKind
  idempotencyScope : String
  /-- What the evidence phase hands to the transaction. -/
  Evidence : Type
  evidence : CommandEnvelope P → Sql Evidence
  transition : CommandEnvelope P → Evidence → Transition
  evidence_only : ∀ envelope, Frame evidenceView (evidence envelope)

/-- The handler, as the executor sees it. -/
def FeatureHandler.toCommandHandler {P : Type} (handler : FeatureHandler P) : CommandHandler P where
  commandName := handler.commandName
  requiredRole := handler.requiredRole
  requiredActorKind := some handler.requiredActorKind
  idempotencyScope := handler.idempotencyScope
  Evidence := handler.Evidence
  evidence := handler.evidence
  body envelope ev := runTransition envelope (handler.transition envelope ev)
  evidence_keys envelope :=
    (handler.evidence_only envelope).map fun v => (v.1.idempotencyKeys, v.2)
  body_keys envelope ev := frame_runTransition envelope (handler.transition envelope ev)

end MiniCoder
