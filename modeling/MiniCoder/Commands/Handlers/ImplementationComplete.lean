import MiniCoder.Commands.Handlers.Project
import MiniCoder.Commands.Total
import MiniCoder.Project.Acceptance

/-!
# The completion of a project

`MarkImplementationCompleteHandler` evaluates the acceptance of a project and then completes it by an
`UPDATE` that repeats the checks.  What others commit between the two is an `Interference`.  The
transaction is `SERIALIZABLE`: on PostgreSQL its statements go on to see what its first one saw, and a
conflict is found with another `SERIALIZABLE` transaction only; on SQLite nobody else can commit.
`Visibility` says whether the `UPDATE` sees what was committed meanwhile.

* `returns_runCompletion`, `throws_runCompletion`: how an attempt ends.
* `markImplementationComplete_cases`: **a call returns if and only if one of its attempts commits.**
* `returns_alone_iff`: alone, a call completes the project if and only if the checks pass.
* `completion_agrees_iff`: a call completes nothing that the checks refuse, if and only if no such row
  is hidden from the attempt that commits.
-/

open Storage Storage.Action

namespace MiniCoder

/-! ### What others do -/

/-- The tables that the checks read. -/
structure AcceptanceTables where
  featureRequests : Table FeatureRequest
  featureRuns : Table FeatureRun
  reviewFindings : Table ReviewFinding
  outboxEvents : Table OutboxEvent
  inboxEvents : Table InboxEvent
  artifactExports : Table ArtifactExport

namespace Db

def acceptanceTables (db : Db) : AcceptanceTables where
  featureRequests := db.featureRequests
  featureRuns := db.featureRuns
  reviewFindings := db.reviewFindings
  outboxEvents := db.outboxEvents
  inboxEvents := db.inboxEvents
  artifactExports := db.design.artifactExports

def withAcceptance (db : Db) (t : AcceptanceTables) : Db :=
  { db with
    featureRequests := t.featureRequests
    featureRuns := t.featureRuns
    reviewFindings := t.reviewFindings
    outboxEvents := t.outboxEvents
    inboxEvents := t.inboxEvents
    design := { db.design with artifactExports := t.artifactExports } }

variable {db : Db} {t t' : AcceptanceTables}

@[simp] theorem acceptanceTables_withAcceptance : (db.withAcceptance t).acceptanceTables = t := rfl

@[simp] theorem withAcceptance_withAcceptance :
    (db.withAcceptance t).withAcceptance t' = db.withAcceptance t' := rfl

@[simp] theorem withAcceptance_self : db.withAcceptance db.acceptanceTables = db := rfl

@[simp] theorem projects_withAcceptance : (db.withAcceptance t).design.projects = db.design.projects :=
  rfl

end Db

/-- The checks pass for a project. -/
def AcceptanceTables.Passes (t : AcceptanceTables) (projectId : String) : Prop :=
  ((({} : Db).withAcceptance t).projectAcceptance projectId).passed = true

instance (t : AcceptanceTables) (projectId : String) : Decidable (t.Passes projectId) :=
  inferInstanceAs (Decidable (_ = true))

theorem passes_acceptanceTables {db : Db} {projectId : String} :
    db.acceptanceTables.Passes projectId ↔ (db.projectAcceptance projectId).passed = true := Iff.rfl

/-- What an attempt meets between its evaluation and its `UPDATE`. -/
structure Interference where
  /-- What others commit. -/
  commits : AcceptanceTables → AcceptanceTables := id
  /-- PostgreSQL aborts the transaction: SQLSTATE 40001. -/
  aborts : Bool := false

/-- Whether a statement sees what others have committed since the transaction began. -/
inductive Visibility
  /-- Each statement sees what has been committed: READ COMMITTED. -/
  | statement
  /-- All statements see what the first one saw: `SERIALIZABLE`. -/
  | transaction
  deriving DecidableEq, Repr

/-- The database after what others commit. -/
def Db.amid (db : Db) (other : Interference) : Db :=
  db.withAcceptance (other.commits db.acceptanceTables)

/-- What the `UPDATE` sees, where the evaluation has seen `t`. -/
def Visibility.seen (visibility : Visibility) (other : Interference) (t : AcceptanceTables) :
    AcceptanceTables :=
  match visibility with
  | .statement => other.commits t
  | .transaction => t

/-- What becomes of the tables of the transaction when it is committed. -/
def Visibility.merged (visibility : Visibility) (other : Interference) (t : AcceptanceTables) :
    AcceptanceTables :=
  match visibility with
  | .statement => t
  | .transaction => other.commits t

/-- What others commit comes into sight. -/
def Visibility.meanwhile (visibility : Visibility) (other : Interference) : Sql Unit :=
  write fun s => { s with db := s.db.withAcceptance (visibility.seen other s.db.acceptanceTables) }

/-- `COMMIT`. -/
def Visibility.commit (visibility : Visibility) (other : Interference) : Sql Unit :=
  if other.aborts then throw .serializationFailure
  else execute fun db =>
    some ((), db.withAcceptance (visibility.merged other db.acceptanceTables))

/-- `db.transaction(fn, { isolationLevel: 'serializable' })`, where a rollback leaves what others have
committed. -/
def Visibility.transact {α : Type} (visibility : Visibility) (other : Interference) (body : Sql α) :
    Sql α :=
  atomically (fun before after => { after with db := before.db.amid other }) do
    let a ← body
    visibility.commit other
    pure a

/-! ### The handler -/

structure MarkImplementationCompletePayload extends ProjectRef where
  externalChecksEvidence : String
  deriving DecidableEq, Repr

/-- `externalChecksEvidence` has to say something. -/
def MarkImplementationCompletePayload.checkEvidence (payload : MarkImplementationCompletePayload) :
    Except Failure Unit :=
  if trim payload.externalChecksEvidence = "" then .error (.command {
    type := "external-checks-evidence-required"
    title := "External Project Acceptance evidence required"
    status := 400
    detail := "externalChecksEvidence must attest that the CI-only checks (full test suite, " ++
      "migration validation, build, lint/typecheck, security scan) have already passed " ++
      "out-of-band — e.g. a CI run URL or an operator sign-off note." })
  else .ok ()

/-- The error for a project that does not pass. -/
def acceptanceFailed (detail : String) : Failure :=
  .command {
    type := "project-acceptance-failed"
    title := "Project Acceptance Validation failed"
    status := 409
    detail }

/-- The evaluation before the `UPDATE`. -/
def requireAcceptance (projectId : String) : Sql Unit := do
  let acceptance ← evaluateProjectAcceptance projectId
  orThrow (if acceptance.passed then .ok () else .error (acceptanceFailed
    s!"Project {projectId} does not pass Project Acceptance Validation: {acceptance.failingNames}"))

/-- Finds the project, and checks its version and the edge of the matrix. -/
def requireCompletable (ref : ProjectRef) : Sql Project := do
  let found ← query fun db => db.design.findProject ref.projectId
  let _ ← orThrow (if found.isNone then .error ref.notFound else .ok ())
  let project ← orThrow (assertRowVersion "projects" ref.projectId Project.version found
    ref.expectedVersion)
  let _ ← orThrow (projectLifecycle.assertValid project.state .implementationComplete)
  pure project

/-- The `WHERE` of the `UPDATE`. -/
def Db.isCompletable (db : Db) (ref : ProjectRef) (project : Project) : Bool :=
  Project.isAt ref.projectId ref.expectedVersion project && db.acceptanceGuard ref.projectId

/-- The `UPDATE`, with the number of rows it matched. -/
def completionUpdate (ref : ProjectRef) (version : ℕ) : Sql ℕ :=
  execute fun db => some (db.design.projects.count (db.isCompletable ref),
    projectTable.put db (db.design.projects.update (db.isCompletable ref)
      (Project.moved .implementationComplete version) (Project.moved_keys _ _)))

/-- Why the `UPDATE` matched no row: the version has changed, or the checks do not pass any more. -/
def explainConflict (ref : ProjectRef) : Sql Unit := do
  let refreshed ← query fun db => db.design.findProject ref.projectId
  let _ ← orThrow (assertRowVersion "projects" ref.projectId Project.version refreshed
    ref.expectedVersion)
  let recheck ← evaluateProjectAcceptance ref.projectId
  throw (acceptanceFailed s!"Project {ref.projectId} no longer passes Project Acceptance Validation (changed concurrently): {recheck.failingNames}")

def completeRow (ref : ProjectRef) (project : Project) : Sql Unit := do
  let affected ← completionUpdate ref (nextVersion project.version)
  if affected = 0 then explainConflict ref else pure ()

/-- The rows that go with the completion; returns the id of the event. -/
def recordCompletion (envelope : CommandEnvelope MarkImplementationCompletePayload) : Sql String := do
  let _ ← insertHumanApproval {
    projectId := envelope.payload.projectId
    contextType := "project_acceptance_external_checks"
    decision := .approved
    actor := envelope.actor.id
    actorRole := envelope.actor.role
    notes := some envelope.payload.externalChecksEvidence }
  let eventId ← writeWorkflowEvent {
    projectId := some envelope.payload.projectId
    eventType := "project.implementation_complete"
    fromState := ProjectState.active.literal
    toState := ProjectState.implementationComplete.literal
    actorId := envelope.actor.id }
  let _ ← writeOutboxEvent "project.implementation_complete"
    [("projectId", .str envelope.payload.projectId)]
  pure eventId

/-- The steps before the `UPDATE`; returns the project. -/
def prepareCompletion (visibility : Visibility) (other : Interference) (ref : ProjectRef) :
    Sql Project := do
  requireAcceptance ref.projectId
  let project ← requireCompletable ref
  visibility.meanwhile other
  pure project

/-- The work of an attempt, under its claim. -/
def completeProject (visibility : Visibility) (other : Interference)
    (envelope : CommandEnvelope MarkImplementationCompletePayload) : Sql CommandResult := do
  let project ← prepareCompletion visibility other envelope.payload.toProjectRef
  completeRow envelope.payload.toProjectRef project
  let eventId ← recordCompletion envelope
  pure {
    commandId := envelope.commandId
    accepted := true
    resultingState := ProjectState.implementationComplete.literal
    emittedEventIds := [eventId] }

/-- `runTransaction`. -/
def runCompletion (visibility : Visibility) (other : Interference)
    (envelope : CommandEnvelope MarkImplementationCompletePayload) : Sql CommandResult :=
  visibility.transact other (withIdempotencyKey envelope.idempotencyKey
    "mark-implementation-complete" designTtlMs (completeProject visibility other envelope))

def MAX_SERIALIZATION_RETRIES : ℕ := 3

/-- The loop over the attempts, `left` of them from `attempt` on; `met` is what each of them meets. -/
def completionAttempts (visibility : Visibility) (met : ℕ → Interference)
    (envelope : CommandEnvelope MarkImplementationCompletePayload) (attempt : ℕ) :
    ℕ → Sql CommandResult
  | 0 => throw (.error "unreachable")
  | left + 1 => tryCatch (runCompletion visibility (met attempt) envelope) fun err =>
      if err = .serializationFailure ∧ 0 < left then
        completionAttempts visibility met envelope (attempt + 1) left
      else throw err

/-- `MarkImplementationCompleteHandler.execute`. -/
def markImplementationComplete (visibility : Visibility) (met : ℕ → Interference)
    (envelope : CommandEnvelope MarkImplementationCompletePayload) : Sql CommandResult := do
  orThrow envelope.payload.checkEvidence
  completionAttempts visibility met envelope 0 MAX_SERIALIZATION_RETRIES

/-! ### The statements of an attempt -/

/-- `s'` comes of `s` on one connection. -/
structure Session.Onward (s s' : Session) : Prop where
  runtime : s'.runtime = s.runtime
  drawn : s.drawn ≤ s'.drawn

namespace Session

variable {s s' s'' : Session}

theorem Onward.trans (h : s.Onward s') (h' : s'.Onward s'') : s.Onward s'' :=
  ⟨h'.runtime.trans h.runtime, h.drawn.trans h'.drawn⟩

theorem Grows.onward (h : s.Grows s') : s.Onward s' := ⟨h.runtime, h.drawn⟩

theorem Reads.onward (h : s.Reads s') : s.Onward s' := h.grows.onward

/-- A later connection to the same tables is ready, too. -/
theorem Ready.onward (hs : s.Ready) (h : s.Onward s') (hdb : s'.db = s.db) : s'.Ready where
  willing := by
    intro n
    rw [h.runtime]
    exact hs.willing n
  distinct := by
    rw [h.runtime]
    exact hs.distinct
  fresh := by
    intro n hn
    rw [h.runtime, hdb]
    exact hs.fresh n (h.drawn.trans hn)

/-- The connection, when others have committed. -/
def amid (s : Session) (other : Interference) : Session := { s with db := s.db.amid other }

@[simp] theorem amid_db (s : Session) (other : Interference) : (s.amid other).db = s.db.amid other :=
  rfl

@[simp] theorem amid_runtime (s : Session) (other : Interference) :
    (s.amid other).runtime = s.runtime := rfl

/-- The rows that others commit have the ids that they had for an earlier session. -/
theorem Ready.amid {other : Interference} (hs : (s.amid other).Ready) (hs' : s'.Ready)
    (h : s.Onward s') (htables : s'.db.acceptanceTables = s.db.acceptanceTables) :
    (s'.amid other).Ready where
  willing := hs'.willing
  distinct := hs'.distinct
  fresh := by
    intro n hn hid
    have hnew : s.runtime.ids n ∉ (s.db.amid other).generatedIds := hs.fresh n (h.drawn.trans hn)
    have hnew' : s'.runtime.ids n ∉ s'.db.generatedIds := hs'.fresh n hn
    rw [← h.runtime] at hnew
    have houtbox : (s'.db.amid other).outboxEvents = (s.db.amid other).outboxEvents := by
      unfold Db.amid
      rw [htables]
      rfl
    have hid' : s'.runtime.ids n ∈ (s'.db.amid other).generatedIds := hid
    rw [Db.mem_generatedIds, houtbox] at hid'
    rw [Db.mem_generatedIds] at hnew hnew'
    rcases hid' with hkey | hevent | hrow | hpr
    · exact hnew' (Or.inl hkey)
    · exact hnew' (Or.inr (Or.inl hevent))
    · exact hnew (Or.inr (Or.inr (Or.inl hrow)))
    · exact hnew' (Or.inr (Or.inr (Or.inr hpr)))

end Session

/-- The project is complete, at the next version. -/
def Db.Completed (db : Db) (ref : ProjectRef) : Prop :=
  ∃ project ∈ db.design.projects.rows, project.id = ref.projectId ∧
    project.state = .implementationComplete ∧ project.version = ref.expectedVersion + 1

/-- What an attempt reads. -/
def completionView (s : Session) : AcceptanceTables × Table Project × Table HumanApproval :=
  (s.db.acceptanceTables, s.db.design.projects, s.db.humanApprovals)

theorem seesData_completionView : SeesData completionView := fun _ _ _ => rfl

section Statements

variable {s : Session} {ref : ProjectRef} {project : Project}

theorem returns_requireAcceptance {projectId : String} (hs : s.Willing)
    (hpasses : s.db.acceptanceTables.Passes projectId) :
    Returns (requireAcceptance projectId) s fun _ s' => s.Reads s' := by
  refine (returns_evaluateProjectAcceptance hs).bind fun acceptance s₁ ⟨hacceptance, hreads⟩ => ?_
  have hpassed : acceptance.passed = true := by
    rw [hacceptance]
    exact passes_acceptanceTables.mp hpasses
  rw [if_pos hpassed]
  exact (returns_orThrow rfl).imp fun _ s₂ ⟨_, hs₂⟩ => hs₂ ▸ hreads

theorem throws_requireAcceptance {projectId : String} (hs : s.Willing)
    (hfails : ¬ s.db.acceptanceTables.Passes projectId) :
    Throws (requireAcceptance projectId) s fun e s' =>
      (∃ detail, e = acceptanceFailed detail) ∧ s.Reads s' := by
  refine (returns_evaluateProjectAcceptance hs).bind_throws
    fun acceptance s₁ ⟨hacceptance, hreads⟩ => ?_
  have hpassed : ¬ acceptance.passed = true := by
    rw [hacceptance]
    exact fun h => hfails (passes_acceptanceTables.mpr h)
  rw [if_neg hpassed]
  exact throws_throw ⟨⟨_, rfl⟩, hreads⟩

theorem returns_requireCompletable (hs : s.Willing)
    (hfound : s.db.design.findProject ref.projectId = some project)
    (hversion : project.version = ref.expectedVersion) (hstate : project.state = .active) :
    Returns (requireCompletable ref) s fun project' s' => project' = project ∧ s.Reads s' := by
  refine (returns_query hs _).bind fun found s₁ ⟨hrow, hreads⟩ => ?_
  rw [hrow, hfound]
  refine (returns_orThrow rfl).bind fun _ s₂ ⟨_, hs₂⟩ => ?_
  have hassert : assertRowVersion "projects" ref.projectId Project.version (some project)
      ref.expectedVersion = .ok project := if_pos hversion
  refine (returns_orThrow hassert).bind fun project' s₃ ⟨hproject', hs₃⟩ => ?_
  obtain ⟨edge, hedge⟩ : ∃ edge, projectLifecycle.assertValid project.state .implementationComplete =
      .ok edge := by
    rw [hstate]
    exact ⟨_, rfl⟩
  rw [hproject']
  refine (returns_orThrow hedge).bind fun _ s₄ ⟨_, hs₄⟩ => ?_
  subst hs₂ hs₃ hs₄
  exact returns_pure ⟨rfl, hreads⟩

/-- The `UPDATE` matches the project if and only if the checks pass in the tables that it sees. -/
theorem count_isCompletable {db : Db} (hfound : db.design.findProject ref.projectId = some project)
    (hversion : project.version = ref.expectedVersion) :
    db.design.projects.count (db.isCompletable ref) = 0 ↔
      ¬ db.acceptanceTables.Passes ref.projectId := by
  obtain ⟨hmem, hid⟩ := DesignTables.findProject_some hfound
  rw [Table.count_eq_zero, passes_acceptanceTables, ← acceptanceGuard_eq]
  have hat : Project.isAt ref.projectId ref.expectedVersion project = true := by
    rw [Project.isAt, hid, hversion]
    simp
  constructor
  · intro hnone hguard
    have hrow := hnone project hmem
    rw [Db.isCompletable, hat, hguard] at hrow
    cases hrow
  · intro hguard row _
    rw [Db.isCompletable, Bool.and_eq_false_iff]
    exact Or.inr (eq_false_of_ne_true hguard)

theorem returns_completeRow (hs : s.Ready)
    (hfound : s.db.design.findProject ref.projectId = some project)
    (hversion : project.version = ref.expectedVersion)
    (hpasses : s.db.acceptanceTables.Passes ref.projectId) :
    Returns (completeRow ref project) s fun _ s' =>
      s.Grows s' ∧ s'.db.humanApprovals = s.db.humanApprovals ∧ s'.db.Completed ref := by
  refine (returns_execute hs.willing rfl).bind fun affected s₁ ⟨haffected, hdb, hrt, hdrawn⟩ => ?_
  have hcount : affected ≠ 0 := by
    rw [haffected]
    exact fun hzero => (count_isCompletable hfound hversion).mp hzero hpasses
  rw [if_neg hcount]
  refine returns_pure ⟨.of_subset hrt hdrawn fun id hid => ?_, ?_, ?_⟩
  · rw [hdb] at hid
    exact hid
  · rw [hdb]
    rfl
  · obtain ⟨hmem, hid⟩ := DesignTables.findProject_some hfound
    have hmatches : s.db.isCompletable ref project = true := by
      rw [Db.isCompletable, Project.isAt, hid, hversion, acceptanceGuard_eq]
      simpa using passes_acceptanceTables.mp hpasses
    rw [hdb]
    exact ⟨_, List.mem_map.mpr ⟨project, hmem, Table.updateRow_of_pos hmatches⟩, hid, rfl,
      congrArg nextVersion hversion⟩

theorem throws_completeRow (hs : s.Willing)
    (hfound : s.db.design.findProject ref.projectId = some project)
    (hversion : project.version = ref.expectedVersion)
    (hfails : ¬ s.db.acceptanceTables.Passes ref.projectId) :
    Throws (completeRow ref project) s fun e s' =>
      (∃ detail, e = acceptanceFailed detail) ∧ s.Onward s' := by
  refine (returns_execute hs rfl).bind_throws fun affected s₁ ⟨haffected, hdb, hrt, hdrawn⟩ => ?_
  have hcount : affected = 0 := by
    rw [haffected]
    exact (count_isCompletable hfound hversion).mpr hfails
  rw [if_pos hcount]
  have hwilling : s₁.Willing := by
    intro n
    rw [hrt]
    exact hs n
  -- the `UPDATE` has changed no row, so that the project is found again as it was
  have hsame : s₁.db.design.projects = s.db.design.projects := by
    rw [hdb]
    exact Table.update_eq_self (Project.moved_keys _ _)
      ((count_isCompletable hfound hversion).mpr hfails)
  have hagain : s₁.db.design.findProject ref.projectId = some project := by
    unfold DesignTables.findProject at hfound ⊢
    rw [hsame]
    exact hfound
  refine (returns_query hwilling _).bind_throws fun refreshed s₂ ⟨hrow, hreads₂⟩ => ?_
  rw [hrow, hagain]
  have hassert : assertRowVersion "projects" ref.projectId Project.version (some project)
      ref.expectedVersion = .ok project := if_pos hversion
  refine (returns_orThrow hassert).bind_throws fun _ s₃ ⟨_, hs₃⟩ => ?_
  subst hs₃
  refine (returns_evaluateProjectAcceptance (hreads₂.willing hwilling)).bind_throws
    fun recheck s₄ ⟨_, hreads₄⟩ => ?_
  refine throws_throw ⟨⟨_, rfl⟩, ?_⟩
  have hupdate : s.Onward s₁ := ⟨hrt, hdrawn.ge⟩
  exact hupdate.trans (hreads₂.onward.trans hreads₄.onward)

theorem returns_insertHumanApproval (hs : s.Ready)
    (hnew : ∀ a ∈ s.db.humanApprovals.rows, a.id ≠ s.runtime.ids s.drawn) (opts : HumanApprovalOpts) :
    Returns (insertHumanApproval opts) s fun _ s' => s.Grows s' := by
  refine returns_generateId.bind fun id s₁ ⟨hid, hdb₁, hrt₁, hdrawn₁⟩ => ?_
  refine returns_isoNow.bind fun now s₂ ⟨_, hs₂⟩ => ?_
  subst hs₂
  have hwilling : s₂.Willing := by
    intro n
    rw [hrt₁]
    exact hs.willing n
  have hnew' : ∀ row ∈ s₂.db.humanApprovals.rows, row.id ≠ id := by
    rw [hdb₁, hid]
    exact hnew
  refine (returns_insert hwilling (·.humanApprovals) (fun db t => { db with humanApprovals := t })
    fun row hrow => decide_eq_false (hnew' row hrow)).bind
      fun _ s₃ ⟨t, _, hdb₃, hrt₃, hdrawn₃⟩ => ?_
  refine returns_pure (.of_insert (hrt₃.trans hrt₁) (by rw [hdrawn₃, hdrawn₁]) fun id' hmem => ?_)
  rw [hdb₃, hdb₁] at hmem
  exact Or.inl hmem

theorem returns_recordCompletion {envelope : CommandEnvelope MarkImplementationCompletePayload}
    (hs : s.Ready) (hnew : ∀ a ∈ s.db.humanApprovals.rows, a.id ≠ s.runtime.ids s.drawn) :
    Returns (recordCompletion envelope) s fun _ s' =>
      s.Grows s' ∧ s'.db.design.projects = s.db.design.projects := by
  have hsees : SeesData fun s => s.db.design.projects := fun _ _ _ => rfl
  refine Returns.and_frame ?_ (frame_bind (frame_insertHumanApproval hsees (fun _ _ => rfl) _)
    fun _ => frame_bind (frame_writeWorkflowEvent hsees (fun _ _ => rfl) _)
    fun _ => frame_bind (frame_writeOutboxEvent hsees (fun _ _ => rfl) _ _) fun _ => frame_pure _)
  refine (returns_insertHumanApproval hs hnew _).bind fun _ s₁ hgrows₁ => ?_
  refine (returns_writeWorkflowEvent (hs.grows hgrows₁) _).bind fun eventId s₂ hgrows₂ => ?_
  have hgrows₂' := hgrows₁.trans hgrows₂
  refine (returns_writeOutboxEvent (hs.grows hgrows₂') _ _).bind fun _ s₃ hgrows₃ => ?_
  exact returns_pure (hgrows₂'.trans hgrows₃)

end Statements

/-! ### Attempts -/

/-- A session at which the acceptance of the project decides about the command: the project is active
and at the version that is expected, there is evidence, and the ids that will be drawn are new. -/
structure Session.Completable (s : Session)
    (envelope : CommandEnvelope MarkImplementationCompletePayload) (project : Project) : Prop where
  ready : s.Ready
  approvals : ∀ n, s.drawn ≤ n → ∀ a ∈ s.db.humanApprovals.rows, a.id ≠ s.runtime.ids n
  found : s.db.design.findProject envelope.payload.projectId = some project
  version : project.version = envelope.payload.expectedVersion
  active : project.state = .active
  evidence : trim envelope.payload.externalChecksEvidence ≠ ""

/-- The key of the command has no row. -/
def Session.KeyUnused (s : Session) (envelope : CommandEnvelope MarkImplementationCompletePayload) :
    Prop :=
  ∀ row ∈ s.db.idempotencyKeys.rows,
    Db.isKey envelope.idempotencyKey "mark-implementation-complete" row = false

section Attempts

variable {s s' : Session} {envelope : CommandEnvelope MarkImplementationCompletePayload}
  {project : Project} {visibility : Visibility} {other : Interference}

/-- A session stays completable as long as the project and the approvals stay. -/
theorem Session.Completable.onward (h : s.Completable envelope project) (hs' : s'.Ready)
    (honward : s.Onward s') (hprojects : s'.db.design.projects = s.db.design.projects)
    (happrovals : s'.db.humanApprovals = s.db.humanApprovals) :
    s'.Completable envelope project where
  ready := hs'
  approvals := by
    intro n hn a ha
    rw [happrovals] at ha
    rw [honward.runtime]
    exact h.approvals n (honward.drawn.trans hn) a ha
  found := by
    have hfound := h.found
    unfold DesignTables.findProject at hfound ⊢
    rw [hprojects]
    exact hfound
  version := h.version
  active := h.active
  evidence := h.evidence

theorem Session.Completable.reads (h : s.Completable envelope project) (hreads : s.Reads s') :
    s'.Completable envelope project := by
  refine h.onward (h.ready.reads hreads) hreads.onward ?_ ?_
  · rw [hreads.db]
  · rw [hreads.db]

/-- What comes into sight leaves the session completable. -/
theorem Session.Completable.meanwhile (h : s.Completable envelope project)
    (hamid : (s.amid other).Ready) :
    ({ s with db := s.db.withAcceptance (visibility.seen other s.db.acceptanceTables) } :
      Session).Completable envelope project := by
  have hready : ({ s with db := s.db.withAcceptance (visibility.seen other s.db.acceptanceTables) } :
      Session).Ready := by
    cases visibility with
    | statement => exact hamid
    | transaction => exact h.ready
  exact h.onward hready ⟨rfl, Nat.le_refl _⟩ rfl rfl

theorem returns_prepareCompletion (h : s.Completable envelope project)
    (hamid : (s.amid other).Ready)
    (hpasses : s.db.acceptanceTables.Passes envelope.payload.projectId) :
    Returns (prepareCompletion visibility other envelope.payload.toProjectRef) s fun project' s' =>
      project' = project ∧ s.Onward s' ∧ s'.Completable envelope project ∧
        s'.db.acceptanceTables = visibility.seen other s.db.acceptanceTables := by
  refine (returns_requireAcceptance h.ready.willing hpasses).bind fun _ s₁ hreads₁ => ?_
  have h₁ := h.reads hreads₁
  refine (returns_requireCompletable h₁.ready.willing h₁.found h₁.version h₁.active).bind
    fun project' s₂ ⟨hproject', hreads₂⟩ => ?_
  have hreads := hreads₁.trans hreads₂
  have h₂ := h.reads hreads
  have htables : s₂.db.acceptanceTables = s.db.acceptanceTables := by rw [hreads.db]
  have hamid₂ : (s₂.amid other).Ready := hamid.amid h₂.ready hreads.onward htables
  refine (returns_write (P := fun _ s₃ => s.Onward s₃ ∧ s₃.Completable envelope project ∧
    s₃.db.acceptanceTables = visibility.seen other s.db.acceptanceTables)
    ⟨⟨hreads.runtime, hreads.drawn.ge⟩, h₂.meanwhile hamid₂, ?_⟩).bind fun _ s₃ hs₃ => ?_
  · show visibility.seen other s₂.db.acceptanceTables = _
    rw [htables]
  · exact returns_pure ⟨hproject', hs₃⟩

theorem throws_prepareCompletion (h : s.Completable envelope project)
    (hfails : ¬ s.db.acceptanceTables.Passes envelope.payload.projectId) :
    Throws (prepareCompletion visibility other envelope.payload.toProjectRef) s fun e s' =>
      (∃ detail, e = acceptanceFailed detail) ∧ s.Onward s' :=
  (throws_requireAcceptance h.ready.willing hfails).bind.imp fun _ _ ⟨he, hreads⟩ =>
    ⟨he, hreads.onward⟩

theorem returns_completeProject (h : s.Completable envelope project) (hamid : (s.amid other).Ready)
    (hpasses : s.db.acceptanceTables.Passes envelope.payload.projectId)
    (hseen : (visibility.seen other s.db.acceptanceTables).Passes envelope.payload.projectId) :
    Returns (completeProject visibility other envelope) s fun _ s' =>
      s'.Ready ∧ s.Onward s' ∧ s'.db.Completed envelope.payload.toProjectRef := by
  refine (returns_prepareCompletion h hamid hpasses).bind
    fun project' s₁ ⟨hproject', honward₁, h₁, htables⟩ => ?_
  subst hproject'
  rw [← htables] at hseen
  refine (returns_completeRow h₁.ready h₁.found h₁.version hseen).bind
    fun _ s₂ ⟨hgrows₂, happrovals, hcompleted⟩ => ?_
  have hs₂ := h₁.ready.grows hgrows₂
  have hnew : ∀ a ∈ s₂.db.humanApprovals.rows, a.id ≠ s₂.runtime.ids s₂.drawn := by
    rw [happrovals, hgrows₂.runtime]
    exact h₁.approvals s₂.drawn hgrows₂.drawn
  refine (returns_recordCompletion hs₂ hnew).bind fun eventId s₃ ⟨hgrows₃, hprojects⟩ => ?_
  refine returns_pure ⟨hs₂.grows hgrows₃, honward₁.trans (hgrows₂.onward.trans hgrows₃.onward), ?_⟩
  unfold Db.Completed
  rw [hprojects]
  exact hcompleted

theorem throws_completeProject (h : s.Completable envelope project) (hamid : (s.amid other).Ready)
    (hfails : ¬ (s.db.acceptanceTables.Passes envelope.payload.projectId ∧
      (visibility.seen other s.db.acceptanceTables).Passes envelope.payload.projectId)) :
    Throws (completeProject visibility other envelope) s fun e s' =>
      (∃ detail, e = acceptanceFailed detail) ∧ s.Onward s' := by
  by_cases hpasses : s.db.acceptanceTables.Passes envelope.payload.projectId
  · refine (returns_prepareCompletion h hamid hpasses).bind_throws
      fun project' s₁ ⟨hproject', honward₁, h₁, htables⟩ => ?_
    subst hproject'
    have hseen : ¬ s₁.db.acceptanceTables.Passes envelope.payload.projectId := by
      rw [htables]
      exact fun hseen => hfails ⟨hpasses, hseen⟩
    refine (throws_completeRow h₁.ready.willing h₁.found h₁.version hseen).bind.imp
      fun _ _ ⟨he, honward⟩ => ⟨he, honward₁.trans honward⟩
  · exact (throws_prepareCompletion h hpasses).bind

/-- The claim of an unused key leaves a completable session. -/
theorem returns_claim (h : s.Completable envelope project) (hunused : s.KeyUnused envelope) :
    Returns (claimIdempotencyKey envelope.idempotencyKey "mark-implementation-complete" designTtlMs)
      s fun claim s' => (∃ claimId, claim = .owned claimId) ∧ s.Onward s' ∧
        s'.Completable envelope project ∧ s'.db.acceptanceTables = s.db.acceptanceTables := by
  have hfree : ∀ row ∈ s.db.idempotencyKeys.rows, Db.isKey envelope.idempotencyKey
      "mark-implementation-complete" row = true → row.expiresAt ≤ s.runtime.now := by
    intro row hrow hkey
    rw [hunused row hrow] at hkey
    cases hkey
  refine ((returns_claimIdempotencyKey h.ready hfree).and_frame
    (frame_claimIdempotencyKey seesData_completionView (fun _ _ => rfl) _ _ _)).imp
      fun claim s' ⟨⟨hclaim, hgrows⟩, hview⟩ => ?_
  refine ⟨hclaim, hgrows.onward, ?_, congrArg (·.1) hview⟩
  exact h.onward (h.ready.grows hgrows) hgrows.onward (congrArg (·.2.1) hview)
    (congrArg (·.2.2) hview)

theorem returns_claimed (h : s.Completable envelope project) (hamid : (s.amid other).Ready)
    (hunused : s.KeyUnused envelope)
    (hpasses : s.db.acceptanceTables.Passes envelope.payload.projectId)
    (hseen : (visibility.seen other s.db.acceptanceTables).Passes envelope.payload.projectId) :
    Returns (withIdempotencyKey envelope.idempotencyKey "mark-implementation-complete" designTtlMs
      (completeProject visibility other envelope)) s fun _ s' =>
        s'.Ready ∧ s.Onward s' ∧ s'.db.Completed envelope.payload.toProjectRef := by
  refine (returns_claim h hunused).bind fun claim s₁ ⟨⟨claimId, hclaim⟩, honward₁, h₁, htables⟩ => ?_
  subst hclaim
  have hamid₁ := hamid.amid h₁.ready honward₁ htables
  rw [← htables] at hpasses hseen
  refine (returns_completeProject h₁ hamid₁ hpasses hseen).bind
    fun result s₂ ⟨hs₂, honward₂, hcompleted⟩ => ?_
  have hsees : SeesData fun s => s.db.design.projects := fun _ _ _ => rfl
  refine ((returns_fulfillIdempotencyKey hs₂ claimId result).and_frame
    (frame_fulfillIdempotencyKey hsees (fun _ _ => rfl) _ _)).bind
      fun _ s₃ ⟨hgrows, hprojects⟩ => ?_
  refine returns_pure ⟨hs₂.grows hgrows, honward₁.trans (honward₂.trans hgrows.onward), ?_⟩
  unfold Db.Completed
  rw [hprojects]
  exact hcompleted

theorem throws_claimed (h : s.Completable envelope project) (hamid : (s.amid other).Ready)
    (hunused : s.KeyUnused envelope)
    (hfails : ¬ (s.db.acceptanceTables.Passes envelope.payload.projectId ∧
      (visibility.seen other s.db.acceptanceTables).Passes envelope.payload.projectId)) :
    Throws (withIdempotencyKey envelope.idempotencyKey "mark-implementation-complete" designTtlMs
      (completeProject visibility other envelope)) s fun e s' =>
        (∃ detail, e = acceptanceFailed detail) ∧ s.Onward s' := by
  refine (returns_claim h hunused).bind_throws
    fun claim s₁ ⟨⟨claimId, hclaim⟩, honward₁, h₁, htables⟩ => ?_
  subst hclaim
  have hamid₁ := hamid.amid h₁.ready honward₁ htables
  rw [← htables] at hfails
  exact (throws_completeProject h₁ hamid₁ hfails).bind.imp fun _ _ ⟨he, honward⟩ =>
    ⟨he, honward₁.trans honward⟩

/-- **An attempt returns** when the checks pass, before the `UPDATE` and in it, and it is not
aborted. -/
theorem returns_runCompletion (h : s.Completable envelope project) (hamid : (s.amid other).Ready)
    (hunused : s.KeyUnused envelope) (hquiet : other.aborts = false)
    (hpasses : s.db.acceptanceTables.Passes envelope.payload.projectId)
    (hseen : (visibility.seen other s.db.acceptanceTables).Passes envelope.payload.projectId) :
    Returns (runCompletion visibility other envelope) s fun _ s' =>
      s'.db.Completed envelope.payload.toProjectRef := by
  refine returns_atomically ((returns_claimed h hamid hunused hpasses hseen).bind
    fun result s₁ ⟨hs₁, _, hcompleted⟩ => ?_)
  rw [Visibility.commit, hquiet, if_neg Bool.false_ne_true]
  refine (returns_execute hs₁.willing rfl).bind fun _ s₂ ⟨_, hdb, _⟩ => ?_
  refine returns_pure ?_
  rw [hdb]
  exact hcompleted

/-- **Any other attempt throws**, and leaves what others have committed.  It is tried again when the
checks passed. -/
theorem throws_runCompletion (h : s.Completable envelope project) (hamid : (s.amid other).Ready)
    (hunused : s.KeyUnused envelope)
    (hfails : ¬ (other.aborts = false ∧ s.db.acceptanceTables.Passes envelope.payload.projectId ∧
      (visibility.seen other s.db.acceptanceTables).Passes envelope.payload.projectId)) :
    Throws (runCompletion visibility other envelope) s fun e s' =>
      (e = .serializationFailure ↔ s.db.acceptanceTables.Passes envelope.payload.projectId ∧
        (visibility.seen other s.db.acceptanceTables).Passes envelope.payload.projectId) ∧
      s.Onward s' ∧ s'.db = s.db.amid other := by
  refine throws_atomically ?_
  by_cases hboth : s.db.acceptanceTables.Passes envelope.payload.projectId ∧
      (visibility.seen other s.db.acceptanceTables).Passes envelope.payload.projectId
  · have haborts : other.aborts = true := by
      by_contra hquiet
      exact hfails ⟨eq_false_of_ne_true hquiet, hboth⟩
    refine (returns_claimed h hamid hunused hboth.1 hboth.2).bind_throws
      fun result s₁ ⟨_, honward, _⟩ => ?_
    rw [Visibility.commit, if_pos haborts]
    refine (throws_throw ?_).bind
    exact ⟨iff_of_true rfl hboth, ⟨honward.runtime, honward.drawn⟩, rfl⟩
  · refine ((throws_claimed h hamid hunused hboth).imp ?_).bind
    rintro e s' ⟨⟨detail, rfl⟩, honward⟩
    refine ⟨iff_of_false ?_ hboth, ⟨honward.runtime, honward.drawn⟩, rfl⟩
    intro hserialization
    cases hserialization

end Attempts

/-! ### Calls -/

/-- The tables when attempt `n` begins. -/
def tablesAt (met : ℕ → Interference) (t : AcceptanceTables) : ℕ → AcceptanceTables
  | 0 => t
  | n + 1 => (met n).commits (tablesAt met t n)

/-- The connection when attempt `n` begins, but for the ids that earlier attempts have drawn. -/
def Session.atAttempt (s : Session) (met : ℕ → Interference) (n : ℕ) : Session :=
  { s with db := s.db.withAcceptance (tablesAt met s.db.acceptanceTables n) }

/-- Of the attempts from `first` on, attempt `n` is the one that commits: the earlier ones are aborted,
and it is not, and the checks pass up to then in every evaluation, and in all that an `UPDATE` sees. -/
structure CommitsAt (visibility : Visibility) (met : ℕ → Interference) (t : AcceptanceTables)
    (projectId : String) (first n : ℕ) : Prop where
  first_le : first ≤ n
  aborted : ∀ k, first ≤ k → k < n → (met k).aborts = true
  quiet : (met n).aborts = false
  passes : ∀ k, first ≤ k → k ≤ n → (tablesAt met t k).Passes projectId
  seen : ∀ k, first ≤ k → k ≤ n → (visibility.seen (met k) (tablesAt met t k)).Passes projectId

section Calls

variable {visibility : Visibility} {met : ℕ → Interference} {t : AcceptanceTables}
  {envelope : CommandEnvelope MarkImplementationCompletePayload} {project : Project}
  {projectId : String} {first n : ℕ}

theorem CommitsAt.here (hquiet : (met first).aborts = false)
    (hpasses : (tablesAt met t first).Passes projectId)
    (hseen : (visibility.seen (met first) (tablesAt met t first)).Passes projectId) :
    CommitsAt visibility met t projectId first first where
  first_le := Nat.le_refl _
  aborted := by
    intro k hle hlt
    omega
  quiet := hquiet
  passes := by
    intro k hle hge
    obtain rfl : k = first := by omega
    exact hpasses
  seen := by
    intro k hle hge
    obtain rfl : k = first := by omega
    exact hseen

/-- An attempt that is aborted leaves the commit to a later one. -/
theorem commitsAt_succ_iff (haborts : (met first).aborts = true)
    (hpasses : (tablesAt met t first).Passes projectId)
    (hseen : (visibility.seen (met first) (tablesAt met t first)).Passes projectId) :
    CommitsAt visibility met t projectId first n ↔
      CommitsAt visibility met t projectId (first + 1) n := by
  constructor
  · intro h
    have hne : first ≠ n := by
      rintro rfl
      rw [h.quiet] at haborts
      cases haborts
    have hle := h.first_le
    exact {
      first_le := by omega
      aborted := fun k hk => h.aborted k (by omega)
      quiet := h.quiet
      passes := fun k hk => h.passes k (by omega)
      seen := fun k hk => h.seen k (by omega) }
  · intro h
    have hle := h.first_le
    refine ⟨by omega, fun k hk hlt => ?_, h.quiet, fun k hk hkn => ?_, fun k hk hkn => ?_⟩
    · rcases Nat.eq_or_lt_of_le hk with rfl | hlt'
      · exact haborts
      · exact h.aborted k hlt' hlt
    · rcases Nat.eq_or_lt_of_le hk with rfl | hlt'
      · exact hpasses
      · exact h.passes k hlt' hkn
    · rcases Nat.eq_or_lt_of_le hk with rfl | hlt'
      · exact hseen
      · exact h.seen k hlt' hkn

/-- The session at the beginning of an attempt. -/
theorem Session.Completable.atAttempt {s sₙ : Session} (h : s.Completable envelope project)
    (hready : (s.atAttempt met n).Ready) (honward : s.Onward sₙ)
    (hdb : sₙ.db = (s.atAttempt met n).db) : sₙ.Completable envelope project := by
  refine h.onward (hready.onward ⟨honward.runtime, honward.drawn⟩ hdb) honward ?_ ?_
  · rw [hdb]
    rfl
  · rw [hdb]
    rfl

/-- **The attempts return if and only if one of them commits.** -/
theorem completionAttempts_cases {left : ℕ} {s sₙ : Session}
    (h : s.Completable envelope project) (hunused : s.KeyUnused envelope)
    (hready : ∀ k ≤ first + left, (s.atAttempt met k).Ready) (honward : s.Onward sₙ)
    (hdb : sₙ.db = (s.atAttempt met first).db) :
    ((∃ n < first + left, CommitsAt visibility met s.db.acceptanceTables
        envelope.payload.projectId first n) ∧
      Returns (completionAttempts visibility met envelope first left) sₙ
        fun _ s' => s'.db.Completed envelope.payload.toProjectRef) ∨
    ((¬ ∃ n < first + left, CommitsAt visibility met s.db.acceptanceTables
        envelope.payload.projectId first n) ∧
      Throws (completionAttempts visibility met envelope first left) sₙ fun _ _ => True) := by
  induction left generalizing first sₙ with
  | zero =>
    refine Or.inr ⟨?_, throws_throw trivial⟩
    rintro ⟨n, hlt, hcommits⟩
    have hle := hcommits.first_le
    omega
  | succ left ih =>
    have hₙ := h.atAttempt (hready first (by omega)) honward hdb
    have hamidₙ : (sₙ.amid (met first)).Ready := by
      refine (hready (first + 1) (by omega)).onward ⟨honward.runtime, honward.drawn⟩ ?_
      show sₙ.db.amid (met first) = _
      rw [hdb]
      rfl
    have hunusedₙ : sₙ.KeyUnused envelope := by
      unfold Session.KeyUnused
      rw [hdb]
      exact hunused
    have htables : sₙ.db.acceptanceTables = tablesAt met s.db.acceptanceTables first := by
      rw [hdb]
      rfl
    by_cases hcommit : (met first).aborts = false ∧
        (sₙ.db.acceptanceTables.Passes envelope.payload.projectId ∧
          (visibility.seen (met first) sₙ.db.acceptanceTables).Passes envelope.payload.projectId)
    · obtain ⟨hquiet, hpasses, hseen⟩ := hcommit
      have hreturns := returns_runCompletion hₙ hamidₙ hunusedₙ hquiet hpasses hseen
      rw [htables] at hpasses hseen
      exact Or.inl ⟨⟨first, by omega, .here hquiet hpasses hseen⟩, returns_tryCatch hreturns⟩
    · have hthrows := throws_runCompletion hₙ hamidₙ hunusedₙ hcommit
      rw [htables] at hthrows hcommit
      by_cases hboth : (tablesAt met s.db.acceptanceTables first).Passes envelope.payload.projectId ∧
          (visibility.seen (met first) (tablesAt met s.db.acceptanceTables first)).Passes
            envelope.payload.projectId
      · -- the attempt was aborted
        have haborts : (met first).aborts = true := by
          by_contra hquiet
          exact hcommit ⟨eq_false_of_ne_true hquiet, hboth⟩
        rcases Nat.eq_zero_or_pos left with rfl | hleft
        · refine Or.inr ⟨?_, hthrows.catch_throws fun e s₁ _ => ?_⟩
          · rintro ⟨n, hlt, hcommits⟩
            have hle := hcommits.first_le
            obtain rfl : n = first := by omega
            rw [hcommits.quiet] at haborts
            cases haborts
          · rw [if_neg fun hretry => Nat.lt_irrefl 0 hretry.2]
            exact throws_throw trivial
        · have hiff : (∃ n < first + (left + 1), CommitsAt visibility met s.db.acceptanceTables
                envelope.payload.projectId first n) ↔
              ∃ n < first + 1 + left, CommitsAt visibility met s.db.acceptanceTables
                envelope.payload.projectId (first + 1) n := by
            refine exists_congr fun n => and_congr ?_ (commitsAt_succ_iff haborts hboth.1 hboth.2)
            omega
          obtain ⟨e, s₁, hexec, hretry, honward₁, hdb₁⟩ := hthrows
          have hretried : Throws (runCompletion visibility (met first) envelope) sₙ fun e' s' =>
              e' = .serializationFailure ∧ s' = s₁ := ⟨e, s₁, hexec, hretry.mpr hboth, rfl⟩
          have hnext : s₁.db = (s.atAttempt met (first + 1)).db := by
            rw [hdb₁, hdb]
            rfl
          have hready' : ∀ k ≤ first + 1 + left, (s.atAttempt met k).Ready := fun k hk =>
            hready k (by omega)
          rw [hiff]
          rcases ih hready' (honward.trans honward₁) hnext with ⟨hcommits, hreturns⟩ | ⟨hnone, hthrows⟩
          · refine Or.inl ⟨hcommits, hretried.catch_returns fun e' s' ⟨he', hs'⟩ => ?_⟩
            rw [if_pos ⟨he', hleft⟩, hs']
            exact hreturns
          · refine Or.inr ⟨hnone, hretried.catch_throws fun e' s' ⟨he', hs'⟩ => ?_⟩
            rw [if_pos ⟨he', hleft⟩, hs']
            exact hthrows
      · refine Or.inr ⟨?_, hthrows.catch_throws fun e s₁ ⟨hretry, _⟩ => ?_⟩
        · rintro ⟨n, hlt, hcommits⟩
          have hle := hcommits.first_le
          exact hboth ⟨hcommits.passes first (Nat.le_refl _) hle,
            hcommits.seen first (Nat.le_refl _) hle⟩
        · rw [if_neg fun h => hboth (hretry.mp h.1)]
          exact throws_throw trivial

/-- **A call returns if and only if one of its attempts commits.** -/
theorem markImplementationComplete_cases {s : Session} (h : s.Completable envelope project)
    (hunused : s.KeyUnused envelope)
    (hready : ∀ k ≤ MAX_SERIALIZATION_RETRIES, (s.atAttempt met k).Ready) :
    ((∃ n < MAX_SERIALIZATION_RETRIES, CommitsAt visibility met s.db.acceptanceTables
        envelope.payload.projectId 0 n) ∧
      Returns (markImplementationComplete visibility met envelope) s
        fun _ s' => s'.db.Completed envelope.payload.toProjectRef) ∨
    ((¬ ∃ n < MAX_SERIALIZATION_RETRIES, CommitsAt visibility met s.db.acceptanceTables
        envelope.payload.projectId 0 n) ∧
      Throws (markImplementationComplete visibility met envelope) s fun _ _ => True) := by
  have hevidence : envelope.payload.checkEvidence = .ok () := if_neg h.evidence
  have hcases : ((∃ n < 0 + MAX_SERIALIZATION_RETRIES, CommitsAt visibility met
        s.db.acceptanceTables envelope.payload.projectId 0 n) ∧ _) ∨ _ :=
    completionAttempts_cases h hunused (fun k hk => hready k (by omega)) ⟨rfl, Nat.le_refl _⟩ rfl
  rw [Nat.zero_add] at hcases
  refine hcases.imp (And.imp_right fun hreturns => ?_) (And.imp_right fun hthrows => ?_)
  · exact (returns_orThrow hevidence).bind fun _ s₁ ⟨_, hs₁⟩ => hs₁ ▸ hreturns
  · exact (returns_orThrow hevidence).bind_throws fun _ s₁ ⟨_, hs₁⟩ => hs₁ ▸ hthrows

/-- An attempt that throws leaves what others have committed. -/
theorem runCompletion_error {other : Interference} {s s' : Session} {e : Failure}
    (h : exec (runCompletion visibility other envelope) s = (.error e, s')) :
    s'.db = s.db.amid other := by
  obtain ⟨s₁, -, rfl⟩ := exec_atomically_error.mp h
  rfl

theorem completionAttempts_error {left : ℕ} {s sₙ s' : Session} {e : Failure}
    (hdb : sₙ.db = (s.atAttempt met first).db)
    (h : exec (completionAttempts visibility met envelope first left) sₙ = (.error e, s')) :
    ∃ n, s'.db = (s.atAttempt met n).db := by
  induction left generalizing first sₙ with
  | zero =>
    obtain ⟨-, rfl⟩ := Prod.mk.inj h
    exact ⟨first, hdb⟩
  | succ left ih =>
    rw [completionAttempts, exec_tryCatch] at h
    rcases hrun : exec (runCompletion visibility (met first) envelope) sₙ with ⟨e₁ | result, s₁⟩
    · rw [hrun] at h
      have hnext : s₁.db = (s.atAttempt met (first + 1)).db := by
        rw [runCompletion_error hrun, hdb]
        rfl
      dsimp only at h
      by_cases hretry : e₁ = .serializationFailure ∧ 0 < left
      · rw [if_pos hretry] at h
        exact ih hnext h
      · rw [if_neg hretry] at h
        obtain ⟨-, rfl⟩ := Prod.mk.inj h
        exact ⟨first + 1, hnext⟩
    · rw [hrun] at h
      cases h

theorem markImplementationComplete_error {s s' : Session} {e : Failure}
    (h : exec (markImplementationComplete visibility met envelope) s = (.error e, s')) :
    ∃ n, s'.db = (s.atAttempt met n).db := by
  rcases exec_bind_error.mp h with hthrow | ⟨_, s₁, hreturn, h₁⟩
  · refine ⟨0, ?_⟩
    rcases hcheck : envelope.payload.checkEvidence with e' | u
    · rw [hcheck] at hthrow
      obtain ⟨-, rfl⟩ := Prod.mk.inj hthrow
      rfl
    · rw [hcheck] at hthrow
      cases hthrow
  · obtain ⟨-, rfl⟩ := orThrow_ok hreturn
    exact completionAttempts_error rfl h₁

/-- With nobody else at work, the first attempt decides. -/
theorem commitsAt_alone : (∃ n < MAX_SERIALIZATION_RETRIES,
    CommitsAt visibility (fun _ => {}) t projectId 0 n) ↔ t.Passes projectId := by
  constructor
  · rintro ⟨n, -, hcommits⟩
    exact hcommits.passes 0 (Nat.le_refl _) (Nat.zero_le n)
  · intro hpasses
    refine ⟨0, by decide, .here rfl hpasses ?_⟩
    cases visibility with
    | statement => exact hpasses
    | transaction => exact hpasses

end Calls

/-! ### The agreement -/

/-- The command and the evaluation agree: on every state, in the guard of the `UPDATE`; about a session
that nobody interferes with; and about rows that others commit, in that a call that returns found the
checks passing when its last attempt began, and in all that had been committed by its `UPDATE`.  A call
that throws leaves what others have committed, and nothing else. -/
structure CompletionAgrees (visibility : Visibility) (met : ℕ → Interference)
    (envelope : CommandEnvelope MarkImplementationCompletePayload) (s : Session) : Prop where
  guard : ∀ db : Db, db.acceptanceGuard envelope.payload.projectId =
    (db.projectAcceptance envelope.payload.projectId).passed
  alone : Returns (markImplementationComplete visibility (fun _ => {}) envelope) s
      (fun _ s' => s'.db.Completed envelope.payload.toProjectRef) ↔
    Returns (evaluateProjectAcceptance envelope.payload.projectId) s
      fun acceptance _ => acceptance.passed = true
  notices : ∀ result s',
    exec (markImplementationComplete visibility met envelope) s = (.ok result, s') →
      ∃ n < MAX_SERIALIZATION_RETRIES, (∀ k < n, (met k).aborts = true) ∧ (met n).aborts = false ∧
        (tablesAt met s.db.acceptanceTables n).Passes envelope.payload.projectId ∧
        (tablesAt met s.db.acceptanceTables (n + 1)).Passes envelope.payload.projectId
  unchanged : ∀ e s',
    exec (markImplementationComplete visibility met envelope) s = (.error e, s') →
      ∃ n, s'.db = (s.atAttempt met n).db

/-- Each statement sees what others have committed; or else, where the checks passed so far, others
commit no row that they refuse during an attempt that is not aborted. -/
def NothingHidden (visibility : Visibility) (met : ℕ → Interference) (t : AcceptanceTables)
    (projectId : String) : Prop :=
  visibility = .statement ∨ ∀ n < MAX_SERIALIZATION_RETRIES, (∀ k < n, (met k).aborts = true) →
    (met n).aborts = false → (∀ k ≤ n, (tablesAt met t k).Passes projectId) →
      (tablesAt met t (n + 1)).Passes projectId

theorem tablesAt_alone (t : AcceptanceTables) (n : ℕ) : tablesAt (fun _ => {}) t n = t := by
  induction n with
  | zero => rfl
  | succ n ih => exact ih

/-- Nothing is hidden from an attempt that commits. -/
theorem NothingHidden.committed {visibility : Visibility} {met : ℕ → Interference}
    {t : AcceptanceTables} {projectId : String} {n : ℕ}
    (h : NothingHidden visibility met t projectId) (hn : n < MAX_SERIALIZATION_RETRIES)
    (hcommits : CommitsAt visibility met t projectId 0 n) :
    (tablesAt met t (n + 1)).Passes projectId := by
  rcases h with rfl | hcommitted
  · exact hcommits.seen n (Nat.zero_le n) (Nat.le_refl n)
  · exact hcommitted n hn (fun k hk => hcommits.aborted k (Nat.zero_le k) hk) hcommits.quiet
      fun k hk => hcommits.passes k (Nat.zero_le k) hk

section Agreement

variable {visibility : Visibility} {met : ℕ → Interference}
  {envelope : CommandEnvelope MarkImplementationCompletePayload} {project : Project} {s : Session}

theorem evaluation_passes_iff {projectId : String} (hs : s.Willing) :
    Returns (evaluateProjectAcceptance projectId) s (fun acceptance _ => acceptance.passed = true) ↔
      s.db.acceptanceTables.Passes projectId := by
  have hevaluation : Returns (evaluateProjectAcceptance projectId) s fun acceptance s' =>
      acceptance = s.db.projectAcceptance projectId ∧ s.Reads s' :=
    returns_evaluateProjectAcceptance hs
  rw [passes_acceptanceTables]
  constructor
  · rintro ⟨acceptance, s', hexec, hpassed⟩
    rw [← (evaluateProjectAcceptance_ok hexec).1]
    exact hpassed
  · intro hpassed
    refine hevaluation.imp fun acceptance s' ⟨hacceptance, _⟩ => ?_
    rw [hacceptance]
    exact hpassed

/-- **Alone, a call completes the project if and only if the checks pass.** -/
theorem returns_alone_iff (h : s.Completable envelope project) (hunused : s.KeyUnused envelope) :
    Returns (markImplementationComplete visibility (fun _ => {}) envelope) s
        (fun _ s' => s'.db.Completed envelope.payload.toProjectRef) ↔
      s.db.acceptanceTables.Passes envelope.payload.projectId := by
  have hready : ∀ k ≤ MAX_SERIALIZATION_RETRIES, (s.atAttempt (fun _ => {}) k).Ready := by
    intro k _
    unfold Session.atAttempt
    rw [tablesAt_alone]
    exact h.ready
  have hcases : ((∃ n < MAX_SERIALIZATION_RETRIES, CommitsAt visibility (fun _ => {})
      s.db.acceptanceTables envelope.payload.projectId 0 n) ∧ _) ∨ _ :=
    markImplementationComplete_cases h hunused hready
  rw [commitsAt_alone] at hcases
  rcases hcases with ⟨hpasses, hreturns⟩ | ⟨hfails, hthrows⟩
  · exact iff_of_true hreturns hpasses
  · exact iff_of_false (fun hreturns => hreturns.not_throws hthrows) hfails

theorem agrees_of_nothingHidden (h : s.Completable envelope project) (hunused : s.KeyUnused envelope)
    (hready : ∀ k ≤ MAX_SERIALIZATION_RETRIES, (s.atAttempt met k).Ready)
    (hhidden : NothingHidden visibility met s.db.acceptanceTables envelope.payload.projectId) :
    CompletionAgrees visibility met envelope s where
  guard db := acceptanceGuard_eq db _
  alone := (returns_alone_iff h hunused).trans (evaluation_passes_iff h.ready.willing).symm
  notices := by
    intro result s' hexec
    rcases markImplementationComplete_cases h hunused hready with
      ⟨⟨n, hn, hcommits⟩, -⟩ | ⟨-, e, s₁, hthrow, -⟩
    · exact ⟨n, hn, fun k hk => hcommits.aborted k (Nat.zero_le k) hk, hcommits.quiet,
        hcommits.passes n (Nat.zero_le n) (Nat.le_refl n), hhidden.committed hn hcommits⟩
    · rw [hthrow] at hexec
      cases hexec
  unchanged _ _ := markImplementationComplete_error

theorem nothingHidden_of_agrees (h : s.Completable envelope project) (hunused : s.KeyUnused envelope)
    (hready : ∀ k ≤ MAX_SERIALIZATION_RETRIES, (s.atAttempt met k).Ready)
    (hagrees : CompletionAgrees visibility met envelope s) :
    NothingHidden visibility met s.db.acceptanceTables envelope.payload.projectId := by
  rcases visibility with _ | _
  · exact Or.inl rfl
  · refine Or.inr fun n hn haborted hquiet hpasses => ?_
    -- the attempt commits: its `UPDATE` sees the tables of its evaluation
    have hcommits : CommitsAt .transaction met s.db.acceptanceTables envelope.payload.projectId 0 n :=
      ⟨Nat.zero_le n, fun k _ => haborted k, hquiet, fun k _ => hpasses k, fun k _ => hpasses k⟩
    rcases markImplementationComplete_cases h hunused hready with
      ⟨-, result, s', hexec, -⟩ | ⟨hnone, -⟩
    · obtain ⟨m, -, haborted', hquiet', -, hafter⟩ := hagrees.notices result s' hexec
      have hsame : m = n := by
        rcases Nat.lt_trichotomy m n with hlt | heq | hlt
        · have haborts := haborted m hlt
          rw [hquiet'] at haborts
          cases haborts
        · exact heq
        · have haborts := haborted' n hlt
          rw [hquiet] at haborts
          cases haborts
      rw [← hsame]
      exact hafter
    · exact absurd ⟨n, hn, hcommits⟩ hnone

/-- **The command agrees with the evaluation if and only if no row that the checks refuse is hidden
from the `UPDATE` of an attempt that commits.** -/
theorem completion_agrees_iff (h : s.Completable envelope project) (hunused : s.KeyUnused envelope)
    (hready : ∀ k ≤ MAX_SERIALIZATION_RETRIES, (s.atAttempt met k).Ready) :
    CompletionAgrees visibility met envelope s ↔
      NothingHidden visibility met s.db.acceptanceTables envelope.payload.projectId :=
  ⟨nothingHidden_of_agrees h hunused hready, agrees_of_nothingHidden h hunused hready⟩

end Agreement

/-! ### A feature that comes late -/

/-- A project without features, which passes. -/
def completionSession : Session where
  db := { design := { projects := .ofList [{ id := "P", name := "Sample" }] } }
  runtime := {
    now := 0
    ids := fun n => String.ofList (List.replicate (n + 1) 'i') }

def completionEnvelope : CommandEnvelope MarkImplementationCompletePayload where
  commandId := "command-1"
  idempotencyKey := "key-1"
  payload := { projectId := "P", expectedVersion := 1, externalChecksEvidence := "CI run 456" }
  actor := systemActor
  correlationId := "correlation-1"

/-- During the first attempt, another transaction commits a feature that has no run yet. -/
def lateFeature : ℕ → Interference
  | 0 => { commits := fun t => { t with
      featureRequests := .ofList [{ id := "request-1", projectId := "P", frId := "FR-1" }] } }
  | _ + 1 => {}

theorem completable_completionSession :
    completionSession.Completable completionEnvelope { id := "P", name := "Sample" } where
  ready := {
    willing := fun _ => rfl
    distinct := by
      intro n m h
      have hlength := congrArg String.length h
      simpa [completionSession] using hlength
    fresh := fun n _ hid => by cases hid }
  approvals := fun n _ a ha => by cases ha
  found := rfl
  version := rfl
  active := rfl
  evidence := by decide

theorem outboxEvents_lateFeature (t : AcceptanceTables) (k : ℕ) :
    (tablesAt lateFeature t k).outboxEvents = t.outboxEvents := by
  induction k with
  | zero => rfl
  | succ k ih =>
    rw [← ih]
    cases k with
    | zero => rfl
    | succ k => rfl

theorem ready_lateFeature (k : ℕ) : (completionSession.atAttempt lateFeature k).Ready where
  willing := completable_completionSession.ready.willing
  distinct := completable_completionSession.ready.distinct
  fresh := by
    intro n _ hid
    have hids : (completionSession.atAttempt lateFeature k).db.generatedIds = [] := by
      show ([] ++ [] ++ (tablesAt lateFeature completionSession.db.acceptanceTables
        k).outboxEvents.rows.map (·.id) ++ [] : List String) = []
      rw [outboxEvents_lateFeature]
      rfl
    rw [hids] at hid
    cases hid

theorem completion_agrees_iff_lateFeature :
    CompletionAgrees .transaction lateFeature completionEnvelope completionSession ↔
      NothingHidden .transaction lateFeature completionSession.db.acceptanceTables "P" :=
  completion_agrees_iff completable_completionSession (fun _ hrow => by cases hrow)
    fun k _ => ready_lateFeature k

/-- The feature stays hidden from the `UPDATE`, and the project is completed without it. -/
theorem not_agrees_lateFeature :
    ¬ CompletionAgrees .transaction lateFeature completionEnvelope completionSession := by
  intro hagrees
  rcases nothingHidden_of_agrees completable_completionSession (fun _ hrow => by cases hrow)
    (fun k _ => ready_lateFeature k) hagrees with hstatement | hcommitted
  · cases hstatement
  · have hfirst := hcommitted 0 (by decide) (fun k hk => absurd hk (Nat.not_lt_zero k)) rfl ?_
    · revert hfirst
      decide
    · intro k hk
      obtain rfl : k = 0 := by omega
      decide

end MiniCoder
