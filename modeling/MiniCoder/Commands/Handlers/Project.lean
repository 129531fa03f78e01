import MiniCoder.Commands.Handlers.Automation
import MiniCoder.DesignDoc.Sections

/-!
# The handlers that move a project

The commands of the design document move the row of a project along `PROJECT_LIFECYCLE_MATRIX`;
`ProjectMove` is what differs from one to the next.  A generation inserts a draft and the artifact that
is bound to it; the others move the state of a document along with the project.

* `moveProject_ok`: **what a command that did its work found and wrote**.
* `insertDesignDocument_ok`, `moveDocument_ok`: what the side effects wrote.
* `requireExported_ok`, `requireDocument_ok`: what the guards found.
-/

open Storage Storage.Action

namespace MiniCoder

/-! ### Tables -/

/-- The `projects` table. -/
def projectTable : TableOf Db Project where
  get db := db.design.projects
  put db t := { db with design := { db.design with projects := t } }
  get_put _ _ := rfl

/-- The `design_documents` table. -/
def designDocumentTable : TableOf Db DesignDocument where
  get db := db.design.documents
  put db t := { db with design := { db.design with documents := t } }
  get_put _ _ := rfl

/-- The `artifact_exports` table. -/
def artifactExportTable : TableOf Db ArtifactExport where
  get db := db.design.artifactExports
  put db t := { db with design := { db.design with artifactExports := t } }
  get_put _ _ := rfl

namespace DesignTables

variable (t : DesignTables)

/-- `SELECT … FROM projects WHERE id = ?`. -/
def findProject (projectId : String) : Option Project :=
  t.projects.find? fun p => p.id == projectId

/-- `SELECT … FROM design_documents WHERE id = ? AND project_id = ?`. -/
def findDocument (designDocumentId projectId : String) : Option DesignDocument :=
  t.documents.find? fun d => d.id == designDocumentId && d.projectId == projectId

/-- `SELECT … FROM artifact_exports WHERE id = ? AND project_id = ? AND artifact_type =
'design_document'`. -/
def findArtifact (artifactExportId projectId : String) : Option ArtifactExport :=
  t.artifactExports.find? fun a => a.id == artifactExportId && a.projectId == projectId &&
    a.artifactType == "design_document"

variable {t}

theorem findProject_some {projectId : String} {project : Project}
    (h : t.findProject projectId = some project) :
    project ∈ t.projects.rows ∧ project.id = projectId :=
  ⟨t.projects.mem_of_find? h, beq_iff_eq.mp (t.projects.prop_of_find? h)⟩

theorem findDocument_some {designDocumentId projectId : String} {document : DesignDocument}
    (h : t.findDocument designDocumentId projectId = some document) :
    document ∈ t.documents.rows ∧ document.id = designDocumentId ∧ document.projectId = projectId := by
  have hp := t.documents.prop_of_find? h
  rw [Bool.and_eq_true, beq_iff_eq, beq_iff_eq] at hp
  exact ⟨t.documents.mem_of_find? h, hp⟩

theorem findArtifact_some {artifactExportId projectId : String} {artifact : ArtifactExport}
    (h : t.findArtifact artifactExportId projectId = some artifact) :
    artifact ∈ t.artifactExports.rows ∧ artifact.id = artifactExportId ∧
      artifact.projectId = projectId ∧ artifact.artifactType = "design_document" := by
  have hp := t.artifactExports.prop_of_find? h
  rw [Bool.and_eq_true, Bool.and_eq_true, beq_iff_eq, beq_iff_eq, beq_iff_eq] at hp
  exact ⟨t.artifactExports.mem_of_find? h, hp.1.1, hp.1.2, hp.2⟩

/-- Two projects of one id are one. -/
theorem eq_of_projectId {project project' : Project} (h : project ∈ t.projects.rows)
    (h' : project' ∈ t.projects.rows) (hid : project.id = project'.id) : project = project' :=
  t.projects.eq_of_clash h h' (decide_eq_true hid)

/-- Two documents of one id are one. -/
theorem eq_of_documentId {document document' : DesignDocument} (h : document ∈ t.documents.rows)
    (h' : document' ∈ t.documents.rows) (hid : document.id = document'.id) : document = document' :=
  t.documents.eq_of_clash h h' (decide_eq_true hid)

/-- Two artifacts of one id are one. -/
theorem eq_of_artifactId {artifact artifact' : ArtifactExport}
    (h : artifact ∈ t.artifactExports.rows) (h' : artifact' ∈ t.artifactExports.rows)
    (hid : artifact.id = artifact'.id) : artifact = artifact' :=
  t.artifactExports.eq_of_clash h h' (decide_eq_true hid)

end DesignTables

/-! ### Moves of a project -/

/-- What differs from one handler that moves a project to the next. -/
structure ProjectMove where
  toState : ProjectState
  guard : Sql Unit
  /-- What the handler writes beside the row; returns what it adds to the payload of its outbox row. -/
  effects : Sql Payload
  eventType : String
  /-- The `from_state` of the event: a constant. -/
  eventFrom : ProjectState
  guard_reads : Frame (fun s : Session => (s.db, s.runtime)) guard
  effects_keys : Frame (fun s : Session => (s.db.idempotencyKeys, s.runtime)) effects

/-- The `SET` list of the `UPDATE`, on the row that was read. -/
def Project.moved (state : ProjectState) (version : ℕ) (project : Project) : Project :=
  { project with state, version }

theorem Project.moved_keys (state : ProjectState) (version : ℕ) :
    KeyFree (Project.moved state version) := fun _ _ => rfl

/-- `id = ? AND version = ?`. -/
def Project.isAt (id : String) (version : ℕ) (project : Project) : Bool :=
  project.id == id && project.version == version

/-- The error for a missing project. -/
def ProjectRef.notFound (ref : ProjectRef) : Failure :=
  .command {
    type := "not-found"
    title := "Project not found"
    status := 404
    detail := s!"Project {ref.projectId} not found" }

/-- The move of the project's row. -/
def ProjectMove.rowMove (move : ProjectMove) (ref : ProjectRef) : RowMove Project where
  table := projectTable
  tableName := "projects"
  rowId := ref.projectId
  version := Project.version
  expectedVersion := ref.expectedVersion
  find db := db.design.findProject ref.projectId
  missing := some ref.notFound
  check project := do
    let _ ← orThrow (projectLifecycle.assertValid project.state move.toState)
    move.guard
  isRow _ := Project.isAt ref.projectId ref.expectedVersion
  moved project := Project.moved move.toState (nextVersion project.version)
  moved_keys _ := Project.moved_keys _ _
  check_reads _ := frame_bind (frame_orThrow _) fun _ => move.guard_reads

/-- The work of a handler that moves a project, under its claim. -/
def moveProject {P : Type} (envelope : CommandEnvelope P) (ref : ProjectRef) (move : ProjectMove) :
    Sql CommandResult := do
  let _ ← (move.rowMove ref).run
  let details ← move.effects
  let eventIds ← recordMove
    [{ projectId := some ref.projectId
       eventType := move.eventType
       fromState := move.eventFrom.literal
       toState := move.toState.literal
       actorId := envelope.actor.id }]
    [(move.eventType, [("projectId", .str ref.projectId)] ++ details)]
  pure {
    commandId := envelope.commandId
    accepted := true
    resultingState := move.toState.literal
    emittedEventIds := eventIds }

section Moves

variable {P : Type} {envelope : CommandEnvelope P} {ref : ProjectRef} {move : ProjectMove}
  {s s' : Session}

theorem keys_moveProject :
    Frame (fun s => (s.db.idempotencyKeys, s.runtime)) (moveProject envelope ref move) := by
  have hsees : SeesData fun s => (s.db.idempotencyKeys, s.runtime) := fun _ _ _ => rfl
  exact frame_bind (RowMove.frame_run (g := fun p => (p.1.idempotencyKeys, p.2)) fun _ _ _ => rfl)
    fun _ => frame_bind move.effects_keys fun _ =>
    frame_bind (frame_recordMove hsees (fun _ _ => rfl) (fun _ _ => rfl) _ _) fun _ => frame_pure _

/-- **What a command that moved a project found and wrote**: the project, at the version it expected
and with the edge in the matrix; its guard passed; it wrote the row of the project, then its side
effects. -/
theorem moveProject_ok {result : CommandResult}
    (h : exec (moveProject envelope ref move) s = (.ok result, s')) :
    ∃ project, s.db.design.findProject ref.projectId = some project ∧
      project.version = ref.expectedVersion ∧
      projectLifecycle.isValid project.state move.toState = true ∧
      (∃ s₁ s₂, s₁.db = s.db ∧ exec move.guard s₁ = (.ok (), s₂)) ∧
      ∃ s₃ s₄ details, s₃.db = projectTable.put s.db (s.db.design.projects.update
          (Project.isAt ref.projectId ref.expectedVersion)
          (Project.moved move.toState (nextVersion project.version)) (Project.moved_keys _ _)) ∧
        exec move.effects s₃ = (.ok details, s₄) ∧ s'.db.untraced = s₄.db.untraced := by
  obtain ⟨project, s₃, hmove, h₁⟩ := exec_bind_ok.mp h
  obtain ⟨hfind, hversion, ⟨s₁, s₂, hs₁, -, hcheck⟩, -, hput, -⟩ := RowMove.run_ok hmove
  obtain ⟨row, s₂', hassert, hguard⟩ := exec_bind_ok.mp hcheck
  obtain ⟨hedge, rfl⟩ := orThrow_ok hassert
  have hvalid := projectLifecycle.isValid_of_assertValid hedge
  obtain ⟨details, s₄, heffects, h₄⟩ := exec_bind_ok.mp h₁
  obtain ⟨ids, s₅, hrecord, h₅⟩ := exec_bind_ok.mp h₄
  obtain ⟨-, rfl⟩ := Prod.mk.inj h₅
  exact ⟨project, hfind, hversion, hvalid, ⟨_, s₂, hs₁, hguard⟩, s₃, s₄, details, hput, heffects,
    (untraced_recordMove hrecord).1⟩

end Moves

/-- A handler that moves a project. -/
def projectHandler {P : Type} (commandName : String) (requiredRole : UserRole)
    (requiredActorKind : ActorKind) (idempotencyScope : String) (ttlMs : ℤ) (ref : P → ProjectRef)
    (move : CommandEnvelope P → ProjectMove) : CommandHandler P where
  commandName
  requiredRole
  requiredActorKind := some requiredActorKind
  idempotencyScope
  ttlMs
  Evidence := Unit
  evidence _ := pure ()
  body envelope _ := moveProject envelope (ref envelope.payload) (move envelope)
  evidence_keys := evidence_keys_pure
  body_keys _ _ := keys_moveProject

/-- `IDEMPOTENCY_TTL_MS` of the commands of a generation: one day. -/
def designTtlMs : ℤ := 24 * 60 * 60 * 1000

/-! ### Generation -/

/-- The two `INSERT`s of a generation: a draft, and the pending artifact that is bound to it. -/
def insertDesignDocument (projectId : String) : Sql Payload := do
  let designDocumentId ← generateId
  insertInto designDocumentTable { id := designDocumentId, projectId }
  let artifactExportId ← generateId
  insertInto artifactExportTable {
    id := artifactExportId
    projectId
    artifactType := "design_document"
    designDocumentId := some designDocumentId }
  pure [("designDocumentId", .str designDocumentId), ("artifactExportId", .str artifactExportId)]

theorem frame_insertDesignDocument {τ : Type} {π : Session → τ} (hπ : SeesData π)
    (hdocuments : ∀ s t, π { s with db := designDocumentTable.put s.db t } = π s)
    (hartifacts : ∀ s t, π { s with db := artifactExportTable.put s.db t } = π s)
    (projectId : String) : Frame π (insertDesignDocument projectId) :=
  frame_bind (frame_generateId hπ) fun _ => frame_bind (frame_insertInto hπ hdocuments _) fun _ =>
    frame_bind (frame_generateId hπ) fun _ => frame_bind (frame_insertInto hπ hartifacts _) fun _ =>
    frame_pure _

/-- The rows that a generation adds. -/
theorem insertDesignDocument_ok {projectId : String} {details : Payload} {s s' : Session}
    (h : exec (insertDesignDocument projectId) s = (.ok details, s')) :
    ∃ designDocumentId artifactExportId documents artifacts,
      s.db.design.documents.insert? { id := designDocumentId, projectId } = some documents ∧
      s.db.design.artifactExports.insert? {
        id := artifactExportId, projectId, artifactType := "design_document"
        designDocumentId := some designDocumentId } = some artifacts ∧
      s'.db.design = { s.db.design with documents := documents, artifactExports := artifacts } := by
  obtain ⟨designDocumentId, s₁, hid, h₁⟩ := exec_bind_ok.mp h
  obtain ⟨-, rfl⟩ := Prod.mk.inj hid
  obtain ⟨_, s₂, hdocument, h₂⟩ := exec_bind_ok.mp h₁
  obtain ⟨documents, hdocuments, hdb₂, -⟩ := insertInto_ok hdocument
  obtain ⟨artifactExportId, s₃, hid', h₃⟩ := exec_bind_ok.mp h₂
  obtain ⟨-, rfl⟩ := Prod.mk.inj hid'
  obtain ⟨_, s₄, hartifact, h₄⟩ := exec_bind_ok.mp h₃
  obtain ⟨artifacts, hartifacts, hdb₄, -⟩ := insertInto_ok hartifact
  obtain ⟨-, rfl⟩ := Prod.mk.inj h₄
  change s₂.db.design.artifactExports.insert? _ = some artifacts at hartifacts
  change s₄.db = artifactExportTable.put s₂.db artifacts at hdb₄
  rw [hdb₂] at hartifacts hdb₄
  refine ⟨designDocumentId, artifactExportId, documents, artifacts, hdocuments, hartifacts, ?_⟩
  rw [hdb₄]
  rfl

/-- The move of a generation. -/
def generationMove (eventType : String) (eventFrom : ProjectState)
    (envelope : CommandEnvelope ProjectRef) : ProjectMove where
  toState := .designDocumentGenerating
  guard := pure ()
  effects := insertDesignDocument envelope.payload.projectId
  eventType
  eventFrom
  guard_reads := frame_pure _
  effects_keys := frame_insertDesignDocument (fun _ _ _ => rfl) (fun _ _ => rfl) (fun _ _ => rfl) _

abbrev GenerateDesignDocumentPayload := ProjectRef

/-- `GenerateDesignDocumentHandler`. -/
def generateDesignDocumentHandler : CommandHandler GenerateDesignDocumentPayload :=
  projectHandler "GenerateDesignDocumentCommand" .operator .human "generate-design-document"
    designTtlMs id (generationMove "project.design_document_generating" .implementationComplete)

abbrev RegenerateDesignDocumentPayload := ProjectRef

/-- `RegenerateDesignDocumentHandler`. -/
def regenerateDesignDocumentHandler : CommandHandler RegenerateDesignDocumentPayload :=
  projectHandler "RegenerateDesignDocumentCommand" .operator .human "regenerate-design-document"
    designTtlMs id
    (generationMove "project.design_document_regenerating" .designDocumentRevisionRequested)

/-! ### Documents -/

/-- The state that a command expects of a document, and the error for another one. -/
structure DocumentGate where
  fromState : DesignDocumentState
  type : String
  title : String

/-- The error for a document in another state. -/
def DocumentGate.refused (gate : DocumentGate) (detail : String) : Failure :=
  .command { type := gate.type, title := gate.title, status := 409, detail }

/-- The error for a missing document. -/
def documentNotFound (designDocumentId projectId : String) : Failure :=
  .command {
    type := "not-found"
    title := "Design document not found"
    status := 404
    detail := s!"design_documents {designDocumentId} not found for project {projectId}" }

/-- The document of a payload, in the state that the command expects. -/
def requireDocument (gate : DocumentGate) (designDocumentId projectId : String) :
    Sql DesignDocument :=
  require fun db => match db.design.findDocument designDocumentId projectId with
    | none => .error (documentNotFound designDocumentId projectId)
    | some document =>
      if document.state = gate.fromState then .ok document
      else .error (gate.refused s!"design_documents {designDocumentId} is at state '{document.state.literal}', not '{gate.fromState.literal}'")

theorem requireDocument_ok {gate : DocumentGate} {designDocumentId projectId : String}
    {document : DesignDocument} {s s' : Session}
    (h : exec (requireDocument gate designDocumentId projectId) s = (.ok document, s')) :
    s.db.design.findDocument designDocumentId projectId = some document ∧
      document.state = gate.fromState ∧ s'.db = s.db ∧ s'.runtime = s.runtime := by
  obtain ⟨hcheck, hdb, hrt⟩ := require_ok h
  rcases hfound : s.db.design.findDocument designDocumentId projectId with _ | found
  · rw [hfound] at hcheck
    cases hcheck
  · rw [hfound] at hcheck
    by_cases hstate : found.state = gate.fromState
    · simp only [hstate, if_true] at hcheck
      obtain rfl := Except.ok.inj hcheck
      exact ⟨rfl, hstate, hdb, hrt⟩
    · simp [hstate] at hcheck

/-- `id = ? AND project_id = ? AND state = ?`. -/
def DesignDocument.isAt (id projectId : String) (state : DesignDocumentState)
    (document : DesignDocument) : Bool :=
  document.id == id && document.projectId == projectId && document.state == state

/-- `SET state = ?, version = version + 1`. -/
def DesignDocument.moved (state : DesignDocumentState) (document : DesignDocument) : DesignDocument :=
  { document with state, version := document.version + 1 }

theorem DesignDocument.moved_keys (state : DesignDocumentState) :
    KeyFree (DesignDocument.moved state) := fun _ _ => rfl

/-- The `UPDATE` of a document, which has to be in the expected state. -/
def moveDocument (gate : DocumentGate) (toState : DesignDocumentState)
    (designDocumentId projectId : String) : Sql Unit := do
  let affected ← updateWhere designDocumentTable
    (DesignDocument.isAt designDocumentId projectId gate.fromState) (DesignDocument.moved toState)
    (DesignDocument.moved_keys toState)
  if affected = 0 then
    throw (gate.refused s!"design_documents {designDocumentId} was not in '{gate.fromState.literal}' state at update time")
  else
    pure ()

theorem frame_moveDocument {τ : Type} {π : Session → τ} (hπ : SeesData π)
    (hdocuments : ∀ s t, π { s with db := designDocumentTable.put s.db t } = π s)
    (gate : DocumentGate) (toState : DesignDocumentState) (designDocumentId projectId : String) :
    Frame π (moveDocument gate toState designDocumentId projectId) :=
  frame_bind (frame_updateWhere hπ hdocuments _) fun _ => frame_ite (frame_throw _) (frame_pure _)

theorem moveDocument_ok {gate : DocumentGate} {toState : DesignDocumentState}
    {designDocumentId projectId : String} {s s' : Session}
    (h : exec (moveDocument gate toState designDocumentId projectId) s = (.ok (), s')) :
    (∃ document ∈ s.db.design.documents.rows,
        document.isAt designDocumentId projectId gate.fromState = true) ∧
      s'.db = designDocumentTable.put s.db (s.db.design.documents.update
        (DesignDocument.isAt designDocumentId projectId gate.fromState)
        (DesignDocument.moved toState) (DesignDocument.moved_keys toState)) := by
  obtain ⟨affected, s₁, hupdate, h₁⟩ := exec_bind_ok.mp h
  obtain ⟨rfl, hdb, -⟩ := updateWhere_ok hupdate
  by_cases hcount : (designDocumentTable.get s.db).count
      (DesignDocument.isAt designDocumentId projectId gate.fromState) = 0
  · rw [if_pos hcount] at h₁
    simp at h₁
  · rw [if_neg hcount] at h₁
    obtain ⟨-, rfl⟩ := Prod.mk.inj h₁
    exact ⟨Table.count_pos hcount, hdb⟩

/-! ### The review -/

/-- The document that a review is about. -/
structure ReviewPayload extends ProjectRef where
  designDocumentId : String
  notes : Option String := none

/-- The gate of the two commands of a review. -/
def reviewGate : DocumentGate where
  fromState := .readyForReview
  type := "design-document-not-ready"
  title := "Design document is not ready for review"

/-- The move of a review. -/
def reviewMove (toState : ProjectState) (document : DesignDocumentState) (decision : ApprovalDecision)
    (eventType : String) (envelope : CommandEnvelope ReviewPayload) : ProjectMove where
  toState
  guard := do
    let _ ← requireDocument reviewGate envelope.payload.designDocumentId envelope.payload.projectId
    pure ()
  effects := do
    moveDocument reviewGate document envelope.payload.designDocumentId envelope.payload.projectId
    let _ ← insertHumanApproval {
      projectId := envelope.payload.projectId
      contextType := "design_document"
      contextId := some envelope.payload.designDocumentId
      decision
      actor := envelope.actor.id
      actorRole := envelope.actor.role
      notes := envelope.payload.notes }
    pure [("designDocumentId", .str envelope.payload.designDocumentId)]
  eventType
  eventFrom := .designDocumentReadyForReview
  guard_reads := frame_bind (frame_require (fun _ _ _ => rfl) _) fun _ => frame_pure _
  effects_keys := by
    have hsees : SeesData fun s => (s.db.idempotencyKeys, s.runtime) := fun _ _ _ => rfl
    exact frame_bind (frame_moveDocument hsees (fun _ _ => rfl) _ _ _ _) fun _ =>
      frame_bind (frame_insertHumanApproval hsees (fun _ _ => rfl) _) fun _ => frame_pure _

abbrev RequestDesignDocumentRevisionPayload := ReviewPayload

/-- `RequestDesignDocumentRevisionHandler`. -/
def requestDesignDocumentRevisionHandler : CommandHandler RequestDesignDocumentRevisionPayload :=
  projectHandler "RequestDesignDocumentRevisionCommand" .approver .human
    "request-design-document-revision" idempotencyTtlMs ReviewPayload.toProjectRef
    (reviewMove .designDocumentRevisionRequested .revisionRequested .rejected
      "project.design_document_revision_requested")

abbrev ApproveDesignDocumentPayload := ReviewPayload

/-- `ApproveDesignDocumentHandler`. -/
def approveDesignDocumentHandler : CommandHandler ApproveDesignDocumentPayload :=
  projectHandler "ApproveDesignDocumentCommand" .approver .human "approve-design-document"
    idempotencyTtlMs ReviewPayload.toProjectRef
    (reviewMove .designDocumentApproved .approved .approved "project.design_document_approved")

/-! ### The record of a generation -/

/-- The error for an artifact that is bound to another document. -/
def documentMismatch (artifact : ArtifactExport) (designDocumentId : String) : Failure :=
  let bound := artifact.designDocumentId.getD "NULL"
  .command {
    type := "design-document-mismatch"
    title := "Design document does not match the artifact export"
    status := 409
    detail := s!"artifact_exports {artifact.id} is bound to design_documents {bound}, not {designDocumentId}" }

/-- The check that an artifact is bound to the document: `NULL` binds it to none. -/
def checkBound (artifact : ArtifactExport) (designDocumentId : String) : Except Failure Unit :=
  if artifact.designDocumentId = some designDocumentId then .ok ()
  else .error (documentMismatch artifact designDocumentId)

theorem checkBound_ok {artifact : ArtifactExport} {designDocumentId : String} :
    checkBound artifact designDocumentId = .ok () ↔
      artifact.designDocumentId = some designDocumentId := by
  unfold checkBound
  split
  · simp [*]
  · simp [*]

structure RecordDesignDocumentReadyPayload extends ProjectRef where
  designDocumentId : String
  artifactExportId : String
  deriving DecidableEq, Repr

/-- The exported artifact of a payload, bound to its document. -/
def requireExported (payload : RecordDesignDocumentReadyPayload) : Sql ArtifactExport := do
  let artifact ← require fun db =>
    match (db.design.findArtifact payload.artifactExportId payload.projectId).filter
      fun artifact => artifact.state == .exported with
    | some artifact => .ok artifact
    | none => .error (.command {
        type := "artifact-not-exported"
        title := "Design document artifact not yet exported"
        status := 409
        detail := s!"artifact_exports {payload.artifactExportId} is not in 'exported' state" })
  orThrow (checkBound artifact payload.designDocumentId)
  pure artifact

/-- The gate of the record. -/
def generatingGate : DocumentGate where
  fromState := .draft
  type := "design-document-not-generating"
  title := "Design document is not in the generating state"

/-- The move that records a generation. -/
def readyMove (envelope : CommandEnvelope RecordDesignDocumentReadyPayload) : ProjectMove where
  toState := .designDocumentReadyForReview
  guard := do
    let _ ← requireExported envelope.payload
    let _ ← requireDocument generatingGate envelope.payload.designDocumentId
      envelope.payload.projectId
    pure ()
  effects := do
    moveDocument generatingGate .readyForReview envelope.payload.designDocumentId
      envelope.payload.projectId
    pure [
      ("designDocumentId", .str envelope.payload.designDocumentId),
      ("artifactExportId", .str envelope.payload.artifactExportId)]
  eventType := "project.design_document_ready"
  eventFrom := .designDocumentGenerating
  guard_reads := frame_bind (frame_bind (frame_require (fun _ _ _ => rfl) _) fun _ =>
    frame_bind (frame_orThrow _) fun _ => frame_pure _) fun _ =>
    frame_bind (frame_require (fun _ _ _ => rfl) _) fun _ => frame_pure _
  effects_keys := frame_bind (frame_moveDocument (fun _ _ _ => rfl) (fun _ _ => rfl) _ _ _ _)
    fun _ => frame_pure _

/-- `RecordDesignDocumentReadyHandler`. -/
def recordDesignDocumentReadyHandler : CommandHandler RecordDesignDocumentReadyPayload :=
  projectHandler "RecordDesignDocumentReadyCommand" .admin .system "record-design-document-ready"
    designTtlMs RecordDesignDocumentReadyPayload.toProjectRef readyMove

/-- What the guard of the record found: the artifact exported and bound, its document a draft. -/
theorem requireExported_ok {payload : RecordDesignDocumentReadyPayload} {artifact : ArtifactExport}
    {s s' : Session} (h : exec (requireExported payload) s = (.ok artifact, s')) :
    s.db.design.findArtifact payload.artifactExportId payload.projectId = some artifact ∧
      artifact.state = .exported ∧ artifact.designDocumentId = some payload.designDocumentId ∧
      s'.db = s.db := by
  obtain ⟨artifact', s₁, hrequire, h₁⟩ := exec_bind_ok.mp h
  obtain ⟨hcheck, hdb, -⟩ := require_ok hrequire
  obtain ⟨_, s₂, hbound, h₂⟩ := exec_bind_ok.mp h₁
  obtain ⟨hmatch, rfl⟩ := orThrow_ok hbound
  obtain ⟨hr, rfl⟩ := Prod.mk.inj h₂
  obtain rfl := Except.ok.inj hr
  rcases hfilter : (s.db.design.findArtifact payload.artifactExportId payload.projectId).filter
      (fun artifact => artifact.state == .exported) with _ | found
  · rw [hfilter] at hcheck
    cases hcheck
  · rw [hfilter] at hcheck
    obtain rfl := Except.ok.inj hcheck
    obtain ⟨hfound, hstate⟩ := Option.filter_eq_some_iff.mp hfilter
    exact ⟨hfound, beq_iff_eq.mp hstate, checkBound_ok.mp hmatch, hdb⟩

end MiniCoder
