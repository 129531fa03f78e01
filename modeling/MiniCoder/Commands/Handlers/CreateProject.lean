import MiniCoder.Commands.Handlers.Project

/-!
# The first and the last command of a project

`CreateProjectHandler` inserts the rows that every other command of the project needs, its own and
that of its workflow; `CompleteProjectHandler` takes the last edge of the matrix.

* `createProject_ok`: what a creation found and wrote.
-/

open Storage Storage.Action

namespace MiniCoder

/-! ### The creation -/

structure CreateProjectPayload where
  id : String
  name : String
  deriving DecidableEq, Repr

/-- The error for an id that is taken. -/
def projectAlreadyExists (id : String) : Failure :=
  .command {
    type := "project-already-exists"
    title := "Project already exists"
    status := 409
    detail := s!"A project with id '{id}' already exists." }

/-- The work of a creation, under its claim. -/
def createProject (envelope : CommandEnvelope CreateProjectPayload) : Sql CommandResult := do
  let existing ← query fun db => db.design.findProject envelope.payload.id
  orThrow (if existing.isSome then .error (projectAlreadyExists envelope.payload.id) else .ok ())
  insertInto projectTable { id := envelope.payload.id, name := envelope.payload.name }
  let workflowStateId ← generateId
  insertInto workflowStateTable { id := workflowStateId, projectId := envelope.payload.id }
  let eventId ← writeWorkflowEvent {
    projectId := some envelope.payload.id
    eventType := "project.created"
    fromState := "none"
    toState := ProjectState.active.literal
    actorId := envelope.actor.id }
  pure {
    commandId := envelope.commandId
    accepted := true
    resultingState := ProjectState.active.literal
    emittedEventIds := [eventId] }

/-- `CreateProjectHandler`. -/
def createProjectHandler : CommandHandler CreateProjectPayload where
  commandName := "CreateProjectCommand"
  requiredRole := .operator
  requiredActorKind := some .human
  idempotencyScope := "create-project"
  Evidence := Unit
  evidence _ := pure ()
  body envelope _ := createProject envelope
  evidence_keys := evidence_keys_pure
  body_keys envelope _ := by
    have hsees : SeesData fun s => (s.db.idempotencyKeys, s.runtime) := fun _ _ _ => rfl
    exact frame_bind (frame_query hsees _) fun _ => frame_bind (frame_orThrow _) fun _ =>
      frame_bind (frame_insertInto hsees (fun _ _ => rfl) _) fun _ =>
      frame_bind (frame_generateId hsees) fun _ =>
      frame_bind (frame_insertInto hsees (fun _ _ => rfl) _) fun _ =>
      frame_bind (frame_writeWorkflowEvent hsees (fun _ _ => rfl) _) fun _ => frame_pure _

/-- **What a creation found and wrote**: no project of this id; it inserted the rows of the project and
of its workflow, and one event. -/
theorem createProject_ok {envelope : CommandEnvelope CreateProjectPayload} {result : CommandResult}
    {s s' : Session} (h : exec (createProject envelope) s = (.ok result, s')) :
    s.db.design.findProject envelope.payload.id = none ∧
      ∃ projects workflowStateId workflowStates,
        s.db.design.projects.insert? { id := envelope.payload.id, name := envelope.payload.name } =
          some projects ∧
        s.db.workflowStates.insert? { id := workflowStateId, projectId := envelope.payload.id } =
          some workflowStates ∧
        ∃ e : WorkflowEvent, e.projectId = some envelope.payload.id ∧
          e.eventType = "project.created" ∧ e.fromState = "none" ∧
          e.toState = ProjectState.active.literal ∧
          ∃ events : Table WorkflowEvent, events.rows = s.db.workflowEvents.rows ++ [e] ∧
            s'.db = { s.db with
              design := { s.db.design with projects := projects }
              workflowStates := workflowStates
              workflowEvents := events } := by
  obtain ⟨existing, s₁, hquery, h₁⟩ := exec_bind_ok.mp h
  obtain ⟨hexisting, hdb₁, -⟩ := query_ok hquery
  obtain ⟨_, s₂, hcheck, h₂⟩ := exec_bind_ok.mp h₁
  obtain ⟨hfree, rfl⟩ := orThrow_ok hcheck
  have hnone : s.db.design.findProject envelope.payload.id = none := by
    rw [← hexisting]
    cases existing with
    | none => rfl
    | some project => cases hfree
  obtain ⟨_, s₃, hproject, h₃⟩ := exec_bind_ok.mp h₂
  obtain ⟨projects, hprojects, hdb₃, -⟩ := insertInto_ok hproject
  obtain ⟨workflowStateId, s₄, hid, h₄⟩ := exec_bind_ok.mp h₃
  obtain ⟨-, rfl⟩ := Prod.mk.inj hid
  obtain ⟨_, s₅, hstate, h₅⟩ := exec_bind_ok.mp h₄
  obtain ⟨workflowStates, hstates, hdb₅, -⟩ := insertInto_ok hstate
  obtain ⟨eventId, s₆, hevent, h₆⟩ := exec_bind_ok.mp h₅
  obtain ⟨e, -, hprojectId, htype, hfrom, hto, events, hrows, hdb₆⟩ := writeWorkflowEvent_row hevent
  obtain ⟨-, rfl⟩ := Prod.mk.inj h₆
  change (workflowStateTable.get s₃.db).insert? _ = _ at hstates
  change s₅.db = workflowStateTable.put s₃.db _ at hdb₅
  rw [hdb₁] at hprojects hdb₃
  rw [hdb₃] at hstates hdb₅
  rw [hdb₅] at hrows hdb₆
  exact ⟨hnone, projects, workflowStateId, workflowStates, hprojects, hstates, e, hprojectId, htype,
    hfrom, hto, events, hrows, hdb₆⟩

/-! ### The completion -/

abbrev CompleteProjectPayload := ProjectRef

/-- A guard that checks nothing. -/
theorem reads_noGuard : Frame (fun s : Session => (s.db, s.runtime)) (pure () : Sql Unit) :=
  frame_pure _

/-- A move without side effects. -/
theorem keys_noEffects :
    Frame (fun s : Session => (s.db.idempotencyKeys, s.runtime)) (pure [] : Sql Payload) :=
  frame_pure _

/-- The move of the last edge. -/
def completionMove : ProjectMove where
  toState := .projectComplete
  guard := pure ()
  effects := pure []
  eventType := "project.complete"
  eventFrom := .designDocumentApproved
  guard_reads := reads_noGuard
  effects_keys := keys_noEffects

/-- `CompleteProjectHandler`. -/
def completeProjectHandler : CommandHandler CompleteProjectPayload :=
  projectHandler "CompleteProjectCommand" .admin .system "complete-project" designTtlMs id
    fun _ => completionMove

end MiniCoder
