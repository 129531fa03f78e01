import MiniCoder.Commands.Handlers.Backlog
import MiniCoder.Commands.Handlers.ExportDesign

/-!
# The export of a backlog

`ExportBacklogHandler` renders the features of a plan, in the order of their priorities, and stores the
Markdown in an artifact of its own.

* `exportBacklogWork_ok`: **what an export that did its work found and wrote**.
* `returns_exportBacklogWork`: it returns where the plan has a feature.
-/

open Storage Storage.Action

namespace MiniCoder

def FeatureKind.literal : FeatureKind → String
  | feature => "feature"
  | discovery => "discovery"

/-! ### What is rendered -/

/-- What an export reads of a feature. -/
structure FeatureRow where
  frId : String
  title : String
  description : String
  kind : FeatureKind
  priority : ℤ
  deriving DecidableEq, Repr

def FeatureRequest.row (f : FeatureRequest) : FeatureRow where
  frId := f.frId
  title := f.title
  description := f.description
  kind := f.kind
  priority := f.priority

/-- `ORDER BY priority ASC, fr_id ASC`. -/
def FeatureRow.Precedes (f g : FeatureRow) : Prop :=
  f.priority < g.priority ∨ f.priority = g.priority ∧ f.frId ≤ g.frId

instance : DecidableRel FeatureRow.Precedes := fun f g =>
  inferInstanceAs (Decidable (f.priority < g.priority ∨ f.priority = g.priority ∧ f.frId ≤ g.frId))

/-- The features of a plan, in the order of an export. -/
def Db.backlogRows (db : Db) (planId projectId : String) : List FeatureRow :=
  ((db.backlogFeatures planId projectId).map FeatureRequest.row).insertionSort FeatureRow.Precedes

/-- The lines of a feature. -/
def FeatureRow.markdownLines (f : FeatureRow) : List String :=
  [s!"## {f.frId}: {f.title}", "", s!"Kind: {f.kind.literal}", "", f.description, ""]

/-- The Markdown of the features. -/
def backlogMarkdown (features : List FeatureRow) : String :=
  "\n".intercalate (["# Feature Backlog", ""] ++ features.flatMap FeatureRow.markdownLines)

/-! ### The handler -/

structure ExportBacklogPayload where
  projectId : String
  planId : String
  deriving DecidableEq, Repr

/-- The features of the payload's plan: there is one. -/
def requireBacklogRows (envelope : CommandEnvelope ExportBacklogPayload) : Sql (List FeatureRow) :=
  let planId := envelope.payload.planId
  let projectId := envelope.payload.projectId
  require fun db =>
    let features := db.backlogRows planId projectId
    if features = [] then
      .error (.command {
        type := "not-found"
        title := "No feature requests to export"
        status := 404
        detail := s!"Plan {planId} in project {projectId} has no feature requests"
        instance? := some envelope.correlationId })
    else .ok features

/-- The artifact of an export, up to `exported`; returns its id. -/
def storeBacklog (projectId markdown : String) : Sql String := do
  let artifactExportId ← generateId
  insertInto artifactExportTable { id := artifactExportId, projectId, artifactType := "backlog" }
  let _ ← orThrow (artifactExport.assertValid .pending .generating)
  let _ ← updateWhere artifactExportTable (fun a => a.id == artifactExportId)
    ArtifactExport.generating ArtifactExport.generating_keys
  let _ ← orThrow (artifactExport.assertValid .generating .exported)
  let exportedAt ← isoNow
  let _ ← updateWhere artifactExportTable (fun a => a.id == artifactExportId)
    (ArtifactExport.exported markdown exportedAt) (ArtifactExport.exported_keys _ _)
  pure artifactExportId

/-- The work of the handler, under its claim. -/
def exportBacklogWork (envelope : CommandEnvelope ExportBacklogPayload) : Sql CommandResult := do
  let payload := envelope.payload
  let features ← requireBacklogRows envelope
  let artifactExportId ← storeBacklog payload.projectId (backlogMarkdown features)
  let eventIds ← recordMove
    [{ projectId := some payload.projectId
       eventType := "artifact_export.exported"
       fromState := ArtifactExportState.pending.literal
       toState := ArtifactExportState.exported.literal
       actorId := envelope.actor.id }]
    [("artifact_export.exported", [
      ("projectId", .str payload.projectId),
      ("planId", .str payload.planId),
      ("artifactExportId", .str artifactExportId),
      ("featureCount", .num features.length)])]
  pure (exportedResult envelope.commandId eventIds)

theorem keys_exportBacklogWork {envelope : CommandEnvelope ExportBacklogPayload} :
    Frame (fun s => (s.db.idempotencyKeys, s.runtime)) (exportBacklogWork envelope) := by
  have hsees : SeesData fun s => (s.db.idempotencyKeys, s.runtime) := fun _ _ _ => rfl
  refine frame_bind (frame_require hsees _) fun features => frame_bind ?_ fun id =>
    frame_bind (frame_recordMove hsees (fun _ _ => rfl) (fun _ _ => rfl) _ _) fun _ => frame_pure _
  exact frame_bind (frame_generateId hsees) fun _ =>
    frame_bind (frame_insertInto hsees (fun _ _ => rfl) _) fun _ => frame_bind (frame_orThrow _)
    fun _ => frame_bind (frame_updateWhere hsees (fun _ _ => rfl) _) fun _ =>
    frame_bind (frame_orThrow _) fun _ => frame_bind frame_isoNow fun _ =>
    frame_bind (frame_updateWhere hsees (fun _ _ => rfl) _) fun _ => frame_pure _

/-- `ExportBacklogHandler`. -/
def exportBacklogHandler : CommandHandler ExportBacklogPayload where
  commandName := "ExportBacklogCommand"
  requiredRole := .operator
  requiredActorKind := some .human
  idempotencyScope := "export-backlog"
  ttlMs := backlogTtlMs
  Evidence := Unit
  evidence _ := pure ()
  body envelope _ := exportBacklogWork envelope
  evidence_keys := evidence_keys_pure
  body_keys _ _ := keys_exportBacklogWork

/-! ### What an export did -/

section Steps

variable {envelope : CommandEnvelope ExportBacklogPayload} {projectId markdown id : String}
  {s s' : Session}

/-- The artifact that an export adds. -/
theorem storeBacklog_ok (h : exec (storeBacklog projectId markdown) s = (.ok id, s')) :
    (∀ artifact ∈ s.db.design.artifactExports.rows, artifact.id ≠ id) ∧
      ∀ artifact, artifact ∈ s'.db.design.artifactExports.rows ↔
        artifact ∈ s.db.design.artifactExports.rows ∨ artifact = {
          id, projectId, artifactType := "backlog", state := .exported
          content := some markdown, exportedAt := some s.runtime.now } := by
  obtain ⟨artifactExportId, s₁, hid, h₁⟩ := exec_bind_ok.mp h
  obtain ⟨-, rfl⟩ := Prod.mk.inj hid
  obtain ⟨_, s₂, hinsert, h₂⟩ := exec_bind_ok.mp h₁
  obtain ⟨t, ht, hdb₂, hrt₂⟩ := insertInto_ok hinsert
  obtain ⟨_, s₃, hvalid, h₃⟩ := exec_bind_ok.mp h₂
  obtain ⟨-, rfl⟩ := orThrow_ok hvalid
  obtain ⟨_, s₄, hgenerating, h₄⟩ := exec_bind_ok.mp h₃
  obtain ⟨-, hdb₄, hrt₄⟩ := updateWhere_ok hgenerating
  obtain ⟨_, s₅, hvalid', h₅⟩ := exec_bind_ok.mp h₄
  obtain ⟨-, rfl⟩ := orThrow_ok hvalid'
  obtain ⟨exportedAt, s₆, hnow, h₆⟩ := exec_bind_ok.mp h₅
  simp only [exec_isoNow, Prod.mk.injEq, Except.ok.injEq] at hnow
  obtain ⟨rfl, rfl⟩ := hnow
  obtain ⟨_, s₇, hexported, h₇⟩ := exec_bind_ok.mp h₆
  obtain ⟨-, hdb₇, -⟩ := updateWhere_ok hexported
  obtain ⟨hok, rfl⟩ := Prod.mk.inj h₇
  obtain rfl := Except.ok.inj hok
  have hnew : ∀ artifact ∈ s.db.design.artifactExports.rows, artifact.id ≠ artifactExportId :=
    fun artifact hrow => of_decide_eq_false (Table.clash_of_insert? ht artifact hrow)
  refine ⟨hnew, fun artifact => ?_⟩
  have hrows : s₇.db.design.artifactExports.rows =
      (t.rows.map (Table.updateRow (fun a => a.id == artifactExportId) ArtifactExport.generating)).map
        (Table.updateRow (fun a => a.id == artifactExportId)
          (ArtifactExport.exported markdown s₅.runtime.now)) := by
    rw [hdb₇, hdb₄, hdb₂]
    rfl
  -- the two updates leave the other artifacts alone
  have hkept : ∀ r ∈ s.db.design.artifactExports.rows, ∀ f : ArtifactExport → ArtifactExport,
      Table.updateRow (fun a => a.id == artifactExportId) f r = r :=
    fun r hr f => Table.updateRow_of_neg (beq_eq_false_iff_ne.mpr (hnew r hr))
  rw [hrows, Table.rows_insert? ht, List.map_append, List.map_append, List.map_map,
    List.mem_append]
  refine or_congr ?_ ?_
  · rw [List.map_congr_left (g := id) fun r hr => by
      rw [Function.comp_apply, hkept r hr, hkept r hr]
      rfl, List.map_id]
    rfl
  · have hnow : s₅.runtime.now = s.runtime.now := by rw [hrt₄, hrt₂]
    rw [hnow]
    simp [Table.updateRow, ArtifactExport.generating, ArtifactExport.exported]

/-- **What an export that did its work found and wrote**: features of the plan, and an artifact of its own
with their Markdown. -/
theorem exportBacklogWork_ok {result : CommandResult}
    (h : exec (exportBacklogWork envelope) s = (.ok result, s')) :
    s.db.backlogRows envelope.payload.planId envelope.payload.projectId ≠ [] ∧
      ∃ id, (∀ artifact ∈ s.db.design.artifactExports.rows, artifact.id ≠ id) ∧
        ∀ artifact, artifact ∈ s'.db.design.artifactExports.rows ↔
          artifact ∈ s.db.design.artifactExports.rows ∨ artifact = {
            id, projectId := envelope.payload.projectId, artifactType := "backlog"
            state := .exported
            content := some (backlogMarkdown
              (s.db.backlogRows envelope.payload.planId envelope.payload.projectId))
            exportedAt := some s.runtime.now } := by
  obtain ⟨features, s₁, hrequire, h₁⟩ := exec_bind_ok.mp h
  obtain ⟨hcheck, hdb₁, hrt₁⟩ := require_ok hrequire
  obtain ⟨id, s₂, hstore, h₂⟩ := exec_bind_ok.mp h₁
  obtain ⟨eventIds, s₃, hrecord, h₃⟩ := exec_bind_ok.mp h₂
  obtain ⟨-, rfl⟩ := Prod.mk.inj h₃
  have hdesign : s₃.db.design = s₂.db.design :=
    (frame_recordMove (π := fun s : Session => s.db.design) (fun _ _ _ => rfl) (fun _ _ => rfl)
      (fun _ _ => rfl) _ _).of_exec hrecord
  simp only at hcheck
  split_ifs at hcheck with hsome
  obtain rfl := Except.ok.inj hcheck
  have hstored := storeBacklog_ok hstore
  rw [hdb₁, hrt₁, ← hdesign] at hstored
  exact ⟨hsome, id, hstored⟩

theorem returns_storeBacklog (hs : s.Ready)
    (hnone : s.db.design.artifactExports.rows = []) :
    Returns (storeBacklog projectId markdown) s fun _ s' => s.Grows s' := by
  refine returns_generateId.bind fun artifactExportId s₁ hreturned₁ => ?_
  obtain ⟨-, hdb₁, hrt₁, hdrawn₁⟩ := hreturned₁
  have hwilling₁ : s₁.Willing := by
    intro n
    rw [hrt₁]
    exact hs.willing n
  refine (returns_insert hwilling₁ artifactExportTable.get artifactExportTable.put
    fun row hrow => ?_).bind fun _ s₂ hreturned₂ => ?_
  · rw [hdb₁] at hrow
    change row ∈ s.db.design.artifactExports.rows at hrow
    rw [hnone] at hrow
    cases hrow
  · obtain ⟨t, -, hdb₂, hrt₂, hdrawn₂⟩ := hreturned₂
    refine (returns_orThrow rfl).bind fun _ s₃ ⟨_, hs₃⟩ => ?_
    subst hs₃
    have hwilling₃ : s₃.Willing := by
      intro n
      rw [hrt₂]
      exact hwilling₁ n
    refine (returns_execute hwilling₃ rfl).bind fun _ s₄ hreturned₄ => ?_
    obtain ⟨-, hdb₄, hrt₄, hdrawn₄⟩ := hreturned₄
    refine (returns_orThrow rfl).bind fun _ s₅ ⟨_, hs₅⟩ => ?_
    subst hs₅
    refine returns_isoNow.bind fun now s₆ ⟨_, hs₆⟩ => ?_
    subst hs₆
    have hwilling₆ : s₆.Willing := by
      intro n
      rw [hrt₄]
      exact hwilling₃ n
    refine (returns_execute hwilling₆ rfl).bind fun _ s₇ hreturned₇ => ?_
    obtain ⟨-, hdb₇, hrt₇, hdrawn₇⟩ := hreturned₇
    -- the artifacts have no generated id that the other tables have
    refine returns_pure ⟨?_, ?_, fun id hid => Or.inl ?_⟩
    · rw [hrt₇, hrt₄, hrt₂, hrt₁]
    · omega
    · rw [hdb₇, hdb₄, hdb₂, hdb₁] at hid
      exact hid

/-- **An export returns** where the plan has a feature and there are no artifacts yet. -/
theorem returns_exportBacklogWork (hs : s.Ready) (hnone : s.db.design.artifactExports.rows = [])
    (hsome : s.db.backlogRows envelope.payload.planId envelope.payload.projectId ≠ []) :
    Returns (exportBacklogWork envelope) s fun _ _ => True := by
  refine (returns_require hs.willing (if_neg hsome)).bind fun features s₁ ⟨_, hreads₁⟩ => ?_
  rw [← hreads₁.db] at hnone
  have hready₁ := hs.reads hreads₁
  refine (returns_storeBacklog hready₁ hnone).bind fun id s₂ hgrows₂ => ?_
  refine (returns_recordMove (hready₁.grows hgrows₂) _ _).bind fun eventIds s₃ _ => ?_
  exact returns_pure trivial

end Steps

end MiniCoder
