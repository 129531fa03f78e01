import MiniCoder.Persistence.Client
import MiniCoder.StateMachine.FeatureExecution

/-!
# The helpers the command handlers share

The functions of `commands/helpers.ts`, `persistence/optimistic.ts` and `review/write-findings.ts`:
claiming and fulfilling an idempotency key, writing events and approvals, and the fence check of a
workflow lock.

* `claimIdempotencyKey_owned`, `claimIdempotencyKey_replay`: what a claim found and left.
* `assertLockFence_ok`: what an accepted lock context says about the lock row.
* `frame_*`: each helper leaves alone every view that does not see the table it writes.
* `insertReviewFindings_ok`: the findings that a call of it stored.
-/

open Storage Storage.Action

namespace MiniCoder

/-! ### Envelopes -/

/-- `ActorIdentity`. -/
structure ActorIdentity where
  id : String
  role : UserRole
  actorKind : ActorKind
  deriving DecidableEq, Repr

/-- `systemActor`: the actor of a step that no human takes. -/
def systemActor : ActorIdentity := ⟨"workflow-layer", .admin, .system⟩

/-- The workflow lock a caller says it holds. -/
structure LockContext where
  lockId : String
  fence : ℕ
  holderId : String
  projectId : Option String := none
  resourceKey : Option String := none
  deriving DecidableEq, Repr

/-- `CommandEnvelope<P>`. -/
structure CommandEnvelope (P : Type) where
  commandId : String
  idempotencyKey : String
  payload : P
  actor : ActorIdentity
  correlationId : String
  lockContext : Option LockContext := none

/-- The fields every feature-execution payload has. -/
structure FeatureRunRef where
  featureRunId : String
  projectId : String
  expectedVersion : ℕ
  deriving DecidableEq, Repr

/-! ### Optimistic concurrency -/

/-- `assertVersion`. -/
def assertVersion (table id : String) (row : Option FeatureRun) (expectedVersion : ℕ) :
    Except Failure FeatureRun :=
  match row with
  | none => .error (.optimisticLock table id expectedVersion (-1))
  | some run =>
    if run.version = expectedVersion then .ok run
    else .error (.optimisticLock table id expectedVersion run.version)

/-- `nextVersion`. -/
def nextVersion (current : ℕ) : ℕ := current + 1

theorem assertVersion_ok {table id : String} {row : Option FeatureRun} {expectedVersion : ℕ}
    {run : FeatureRun} (h : assertVersion table id row expectedVersion = .ok run) :
    row = some run ∧ run.version = expectedVersion := by
  unfold assertVersion at h
  rcases row with _ | r
  · cases h
  · by_cases hv : r.version = expectedVersion
    · simp only [hv, if_true] at h
      obtain rfl := Except.ok.inj h
      exact ⟨rfl, hv⟩
    · simp [hv] at h

/-! ### Idempotency keys -/

/-- The outcome of a claim: the slot is the caller's, or a finished result is replayed. -/
inductive Claim
  | owned (claimId : String)
  | replay (result : CommandResult)

/-- `parseJsonField<CommandResult>`: an unchecked cast; what no command wrote has none of the
fields. -/
def CachedResult.toCommandResult : CachedResult → CommandResult
  | command result => result
  | route _ => ⟨"undefined", false, "undefined", []⟩

namespace Db

/-- The row of `(key, scope)`. -/
def isKey (key scope : String) (row : IdempotencyKey) : Bool := row.key == key && row.scope == scope

/-- `DELETE FROM idempotency_keys WHERE key = ? AND scope = ? AND expires_at <= now`. -/
def deleteExpiredKey (db : Db) (key scope : String) (now : ℤ) : Db :=
  { db with idempotencyKeys :=
      db.idempotencyKeys.delete fun row => isKey key scope row && decide (row.expiresAt ≤ now) }

/-- `INSERT INTO idempotency_keys … ON CONFLICT (key, scope) DO NOTHING`, with the number of rows
inserted. -/
def insertKey (db : Db) (row : IdempotencyKey) : Option (ℕ × Db) :=
  if db.idempotencyKeys.count (isKey row.key row.scope) = 0 then
    (db.idempotencyKeys.insert? row).map fun t => (1, { db with idempotencyKeys := t })
  else some (0, db)

/-- `SELECT … FROM idempotency_keys WHERE key = ? AND scope = ? AND expires_at > now`. -/
def findLiveKey (db : Db) (key scope : String) (now : ℤ) : Option IdempotencyKey :=
  db.idempotencyKeys.find? fun row => isKey key scope row && decide (now < row.expiresAt)

/-- The `SET` list of a fulfilment. -/
def fulfilled (result : CachedResult) (row : IdempotencyKey) : IdempotencyKey :=
  { row with result := some result, version := row.version + 1 }

/-- `UPDATE idempotency_keys SET result = ? … WHERE id = ?`. -/
def fulfillKey (db : Db) (claimId : String) (result : CachedResult) : Db :=
  { db with
    idempotencyKeys := db.idempotencyKeys.update (fun row => row.id == claimId) (fulfilled result)
      fun _ _ => rfl }

end Db

/-- `claimIdempotencyKey`: inserts the slot of the key, or replays the result that is in it. -/
def claimIdempotencyKey (key scope : String) (ttlMs : ℤ) : Sql Claim := do
  let claimId ← generateId
  let now ← isoNow
  let expiresAt ← ttlIso ttlMs
  -- an expired row is removed first, so that the slot can be reused
  execute fun db => some ((), db.deleteExpiredKey key scope now)
  let inserted ← execute fun db => db.insertKey { id := claimId, key, scope, expiresAt }
  if inserted = 1 then
    pure (.owned claimId)
  else
    let existing ← query fun db => db.findLiveKey key scope now
    match existing.bind (·.result) with
    | some result => pure (.replay result.toCommandResult)
    | none => throw (.command {
        type := "concurrent-command"
        title := "Concurrent command in progress"
        status := 409
        detail := s!"A concurrent request with idempotency key \"{key}\" is already in progress" })

/-- `fulfillIdempotencyKey`. -/
def fulfillIdempotencyKey (claimId : String) (result : CommandResult) : Sql Unit :=
  execute fun db => some ((), db.fulfillKey claimId (.command result))

/-! ### Events and approvals -/

/-- The secret field names of `auth/redaction.ts`. -/
def secretFieldNames : List String :=
  ["token", "apikey", "api_key", "password", "secret", "credential", "privatekey", "private_key",
    "accesskey", "access_key", "accesstoken", "access_token", "refreshtoken", "refresh_token",
    "clientsecret", "client_secret", "webhooksecret", "webhook_secret", "signingsecret",
    "signing_secret", "authorization"]

/-- `SecretRedactor.redactObject` on a flat record. -/
def redactObject (redact : String → String) (payload : Payload) : Payload :=
  payload.map fun (key, value) =>
    match value with
    | .str s => (key, .str (if key.toLower ∈ secretFieldNames then "[REDACTED]" else redact s))
    | .strs l => (key, .strs (l.map redact))
    | other => (key, other)

/-- The options of `writeWorkflowEvent`. -/
structure WorkflowEventOpts where
  featureRunId : Option String := none
  projectId : Option String := none
  eventType : String
  fromState : String
  toState : String
  actorId : String

/-- `writeWorkflowEvent`; returns the id of the event. -/
def writeWorkflowEvent (opts : WorkflowEventOpts) : Sql String := do
  let id ← generateId
  let now ← isoNow
  execute fun db => (db.workflowEvents.insert?
    { id, featureRunId := opts.featureRunId, projectId := opts.projectId,
      eventType := opts.eventType, fromState := opts.fromState, toState := opts.toState,
      actor := opts.actorId, occurredAt := now }).map
    fun t => ((), { db with workflowEvents := t })
  pure id

/-- `writeOutboxEvent`; returns the id of the outbox row. -/
def writeOutboxEvent (eventType : String) (payload : Payload) : Sql String := do
  let id ← generateId
  let redact ← read (·.runtime.redact)
  execute fun db => (db.outboxEvents.insert?
    { id, eventType, payload := redactObject redact payload }).map
    fun t => ((), { db with outboxEvents := t })
  pure id

/-- The options of `insertHumanApproval`. -/
structure HumanApprovalOpts where
  projectId : String
  featureRequestId : Option String := none
  featureRunId : Option String := none
  contextType : String
  contextId : Option String := none
  decision : ApprovalDecision
  actor : String
  actorRole : UserRole
  notes : Option String := none

/-- `insertHumanApproval`; returns the id of the approval. -/
def insertHumanApproval (opts : HumanApprovalOpts) : Sql String := do
  let id ← generateId
  let now ← isoNow
  execute fun db => (db.humanApprovals.insert?
    { id, projectId := opts.projectId, featureRequestId := opts.featureRequestId,
      featureRunId := opts.featureRunId, contextType := opts.contextType,
      contextId := opts.contextId, decision := opts.decision, actor := opts.actor,
      actorRole := opts.actorRole, notes := opts.notes, updatedAt := now }).map
    fun t => ((), { db with humanApprovals := t })
  pure id

/-! ### Review findings -/

/-- `ReviewFindingInsert`. -/
structure ReviewFindingInsert where
  severity : FindingSeverity
  category : Option String := none
  description : String
  filePath : Option String := none
  lineStart : Option ℕ := none
  lineEnd : Option ℕ := none
  deriving DecidableEq, Repr

/-- `reviewFindingId`. -/
def reviewFindingId (featureRunId : String) (reviewCycle index : ℕ) : String :=
  s!"review-finding:{featureRunId}:{reviewCycle}:{index}"

/-- `INSERT INTO review_findings … ON CONFLICT (id) DO NOTHING`. -/
def Db.insertReviewFinding (db : Db) (row : ReviewFinding) : Option (Unit × Db) :=
  match db.reviewFindings.insert? row with
  | some t => some ((), { db with reviewFindings := t })
  | none => some ((), db)

/-- The loop of `insertReviewFindings`, from the finding at `index` on. -/
def insertReviewFindingsFrom (featureRunId : String) (reviewerRunId : Option String)
    (reviewCycle index : ℕ) : List ReviewFindingInsert → Sql Unit
  | [] => pure ()
  | finding :: findings => do
    execute fun db => db.insertReviewFinding
      { id := reviewFindingId featureRunId reviewCycle index, featureRunId, reviewerRunId,
        reviewCycle, severity := finding.severity, category := finding.category,
        description := finding.description, filePath := finding.filePath,
        lineStart := finding.lineStart, lineEnd := finding.lineEnd }
    insertReviewFindingsFrom featureRunId reviewerRunId reviewCycle (index + 1) findings

/-- `insertReviewFindings`. -/
def insertReviewFindings (featureRunId : String) (reviewerRunId : Option String)
    (reviewCycle : ℕ) (findings : List ReviewFindingInsert) : Sql Unit :=
  insertReviewFindingsFrom featureRunId reviewerRunId reviewCycle 0 findings

/-! ### The lock fence -/

/-- The checks of `assertLockFence` on the row it read. -/
def checkLockFence (current : Option WorkflowLock) (now : ℤ) (ctx : LockContext) :
    Except Failure Unit :=
  match current with
  | none => .error (.staleFence ctx.lockId ctx.fence (-1))
  | some lock =>
    if lock.expiresAt.any (fun t => decide (t < now)) then
      .error (.staleFence ctx.lockId ctx.fence lock.fence)
    else if lock.fence ≠ ctx.fence then
      .error (.staleFence ctx.lockId ctx.fence lock.fence)
    else if lock.holderId ≠ ctx.holderId then
      .error (.staleFence ctx.lockId ctx.fence lock.fence)
    else if ctx.projectId.any (fun p => decide (lock.projectId ≠ p)) then
      .error (.staleFence ctx.lockId ctx.fence lock.fence)
    else if ctx.resourceKey.any (fun k => decide (lock.resourceKey ≠ k)) then
      .error (.staleFence ctx.lockId ctx.fence lock.fence)
    else .ok ()

/-- `SELECT … FROM workflow_locks WHERE id = ?`. -/
def Db.findLock (db : Db) (lockId : String) : Option WorkflowLock :=
  db.workflowLocks.find? fun lock => lock.id == lockId

/-- `assertLockFence`. -/
def assertLockFence (ctx : LockContext) : Sql Unit := do
  let now ← isoNow
  let current ← query fun db => db.findLock ctx.lockId
  orThrow (checkLockFence current now ctx)

/-- The resource key of a project's execution lane. -/
def executionLane (projectId : String) : String := s!"execution-lane:{projectId}"

/-- The lock check of a lock-gated handler: the envelope must carry a lock context, and it is
checked against the lane of the payload's project, whatever project and resource it names. -/
def requireExecutionLane {P : Type} (commandName projectId : String)
    (envelope : CommandEnvelope P) : Sql Unit :=
  match envelope.lockContext with
  | none => throw (.command {
      type := "missing-lock"
      title := "Execution lock required"
      status := 400
      detail := s!"{commandName} requires a workflow lock context" })
  | some ctx => assertLockFence
      { ctx with projectId := some projectId, resourceKey := some (executionLane projectId) }

/-! ### What the helpers leave alone -/

section Frames

variable {τ : Type} {π : Session → τ}

theorem frame_claimIdempotencyKey (hπ : SeesData π)
    (hkeys : ∀ s t, π { s with db := { s.db with idempotencyKeys := t } } = π s)
    (key scope : String) (ttlMs : ℤ) : Frame π (claimIdempotencyKey key scope ttlMs) := by
  unfold claimIdempotencyKey
  refine frame_bind (frame_generateId hπ) fun claimId => frame_bind frame_isoNow fun now =>
    frame_bind (frame_ttlIso _) fun expiresAt => frame_bind (frame_execute hπ ?_) fun _ =>
    frame_bind (frame_execute hπ ?_) fun inserted => frame_ite (frame_pure _)
      (frame_bind (frame_query hπ _) fun existing => ?_)
  · -- the deletion of an expired row
    intro s _ db h
    simp only [Option.some.injEq, Prod.mk.injEq, true_and] at h
    rw [← h]
    exact hkeys s _
  · -- the insertion of the slot
    intro s n db h
    unfold Db.insertKey at h
    split at h
    · obtain ⟨t, -, ht⟩ := Option.map_eq_some_iff.mp h
      rw [← (Prod.mk.inj ht).2]
      exact hkeys s t
    · rw [← (Prod.mk.inj (Option.some.inj h)).2]
  · split
    · exact frame_pure _
    · exact frame_throw _

theorem frame_fulfillIdempotencyKey (hπ : SeesData π)
    (hkeys : ∀ s t, π { s with db := { s.db with idempotencyKeys := t } } = π s)
    (claimId : String) (result : CommandResult) :
    Frame π (fulfillIdempotencyKey claimId result) := by
  refine frame_execute hπ fun s _ db h => ?_
  simp only [Option.some.injEq, Prod.mk.injEq, true_and] at h
  rw [← h]
  exact hkeys s _

theorem frame_writeWorkflowEvent (hπ : SeesData π)
    (hevents : ∀ s t, π { s with db := { s.db with workflowEvents := t } } = π s)
    (opts : WorkflowEventOpts) : Frame π (writeWorkflowEvent opts) := by
  refine frame_bind (frame_generateId hπ) fun id => frame_bind frame_isoNow fun now =>
    frame_bind (frame_execute hπ fun s _ db h => ?_) fun _ => frame_pure _
  obtain ⟨t, -, ht⟩ := Option.map_eq_some_iff.mp h
  rw [← (Prod.mk.inj ht).2]
  exact hevents s t

theorem frame_writeOutboxEvent (hπ : SeesData π)
    (houtbox : ∀ s t, π { s with db := { s.db with outboxEvents := t } } = π s)
    (eventType : String) (payload : Payload) : Frame π (writeOutboxEvent eventType payload) := by
  refine frame_bind (frame_generateId hπ) fun id => frame_bind (frame_read _) fun redact =>
    frame_bind (frame_execute hπ fun s _ db h => ?_) fun _ => frame_pure _
  obtain ⟨t, -, ht⟩ := Option.map_eq_some_iff.mp h
  rw [← (Prod.mk.inj ht).2]
  exact houtbox s t

theorem frame_insertHumanApproval (hπ : SeesData π)
    (happrovals : ∀ s t, π { s with db := { s.db with humanApprovals := t } } = π s)
    (opts : HumanApprovalOpts) : Frame π (insertHumanApproval opts) := by
  refine frame_bind (frame_generateId hπ) fun id => frame_bind frame_isoNow fun now =>
    frame_bind (frame_execute hπ fun s _ db h => ?_) fun _ => frame_pure _
  obtain ⟨t, -, ht⟩ := Option.map_eq_some_iff.mp h
  rw [← (Prod.mk.inj ht).2]
  exact happrovals s t

theorem frame_insertReviewFindings (hπ : SeesData π)
    (hfindings : ∀ s t, π { s with db := { s.db with reviewFindings := t } } = π s)
    (featureRunId : String) (reviewerRunId : Option String) (reviewCycle : ℕ)
    (findings : List ReviewFindingInsert) :
    Frame π (insertReviewFindings featureRunId reviewerRunId reviewCycle findings) := by
  unfold insertReviewFindings
  generalize 0 = index
  induction findings generalizing index with
  | nil => exact frame_pure ()
  | cons finding findings ih =>
    refine frame_bind (frame_execute hπ fun s _ db h => ?_) fun _ => ih (index + 1)
    unfold Db.insertReviewFinding at h
    split at h
    · rename_i t _
      rw [← (Prod.mk.inj (Option.some.inj h)).2]
      exact hfindings s t
    · rw [← (Prod.mk.inj (Option.some.inj h)).2]

theorem frame_assertLockFence (hπ : SeesData π) (ctx : LockContext) :
    Frame π (assertLockFence ctx) :=
  frame_bind frame_isoNow fun _ => frame_bind (frame_query hπ _) fun _ => frame_orThrow _

theorem frame_requireExecutionLane {P : Type} (hπ : SeesData π) (commandName projectId : String)
    (envelope : CommandEnvelope P) : Frame π (requireExecutionLane commandName projectId envelope) := by
  unfold requireExecutionLane
  split
  · exact frame_throw _
  · exact frame_assertLockFence hπ _

end Frames

/-! ### What they throw -/

section Fails

variable {p : Failure → Prop}

/-- A claim throws on a key that another call holds. -/
theorem fails_claimIdempotencyKey (h : p .database)
    (hconflict : ∀ problem : ProblemDetail, problem.type = "concurrent-command" → p (.command problem))
    (key scope : String) (ttlMs : ℤ) : Fails p (claimIdempotencyKey key scope ttlMs) := by
  unfold claimIdempotencyKey
  refine fails_bind fails_generateId fun claimId => fails_bind (fails_read _) fun now =>
    fails_bind (fails_read _) fun expiresAt => fails_bind (fails_execute h _) fun _ =>
    fails_bind (fails_execute h _) fun inserted => fails_ite (fails_pure _)
      (fails_bind (fails_query h _) fun existing => ?_)
  split
  · exact fails_pure _
  · exact fails_throw (hconflict _ rfl)

theorem fails_writeWorkflowEvent (h : p .database) (opts : WorkflowEventOpts) :
    Fails p (writeWorkflowEvent opts) := by
  unfold writeWorkflowEvent
  exact fails_bind fails_generateId fun id => fails_bind (fails_read _) fun now =>
    fails_bind (fails_execute h _) fun _ => fails_pure _

theorem fails_writeOutboxEvent (h : p .database) (eventType : String) (payload : Payload) :
    Fails p (writeOutboxEvent eventType payload) := by
  unfold writeOutboxEvent
  exact fails_bind fails_generateId fun id => fails_bind (fails_read _) fun redact =>
    fails_bind (fails_execute h _) fun _ => fails_pure _

end Fails

/-! ### What they wrote -/

/-- The row of the event, and the tables after it. -/
theorem writeWorkflowEvent_row {opts : WorkflowEventOpts} {id : String} {s s' : Session}
    (h : exec (writeWorkflowEvent opts) s = (.ok id, s')) :
    ∃ e : WorkflowEvent, e.featureRunId = opts.featureRunId ∧ e.projectId = opts.projectId ∧
      e.eventType = opts.eventType ∧ e.fromState = opts.fromState ∧ e.toState = opts.toState ∧
      ∃ events : Table WorkflowEvent, events.rows = s.db.workflowEvents.rows ++ [e] ∧
        s'.db = { s.db with workflowEvents := events } := by
  obtain ⟨id', s₁, hid, h₁⟩ := exec_bind_ok.mp h
  obtain ⟨-, rfl⟩ := Prod.mk.inj hid
  obtain ⟨now, s₂, hnow, h₂⟩ := exec_bind_ok.mp h₁
  obtain ⟨-, rfl⟩ := Prod.mk.inj hnow
  obtain ⟨_, s₃, hinsert, h₃⟩ := exec_bind_ok.mp h₂
  obtain ⟨hdb, -⟩ := execute_ok hinsert
  obtain ⟨-, rfl⟩ := Prod.mk.inj h₃
  obtain ⟨events, hevents, hput⟩ := Option.map_eq_some_iff.mp hdb
  exact ⟨_, rfl, rfl, rfl, rfl, rfl, events, Table.rows_insert? hevents, (Prod.mk.inj hput).2.symm⟩

/-- The event that was written is the last one. -/
theorem writeWorkflowEvent_ok {opts : WorkflowEventOpts} {id : String} {s s' : Session}
    (h : exec (writeWorkflowEvent opts) s = (.ok id, s')) :
    s'.db.featureRuns = s.db.featureRuns ∧ ∃ e : WorkflowEvent,
      e.featureRunId = opts.featureRunId ∧ e.eventType = opts.eventType ∧
      e.fromState = opts.fromState ∧ e.toState = opts.toState ∧
      s'.db.workflowEvents.rows = s.db.workflowEvents.rows ++ [e] := by
  obtain ⟨e, hrun, -, htype, hfrom, hto, events, hrows, hdb⟩ := writeWorkflowEvent_row h
  rw [hdb]
  exact ⟨rfl, e, hrun, htype, hfrom, hto, hrows⟩

/-! ### Findings that are written -/

/-- The index of a finding can be read off its id. -/
theorem reviewFindingId_inj {featureRunId : String} {reviewCycle i j : ℕ}
    (h : reviewFindingId featureRunId reviewCycle i = reviewFindingId featureRunId reviewCycle j) :
    i = j := by
  have hlist := congrArg String.toList h
  unfold reviewFindingId at hlist
  simp only [String.toList_append, List.append_cancel_left_eq] at hlist
  rw [Nat.toString_eq_ofList_toDigits, Nat.toString_eq_ofList_toDigits, String.toList_ofList,
    String.toList_ofList] at hlist
  have hvalue := congrArg (fun digits => Nat.ofDigitChars 10 digits 0) hlist
  simp only [Nat.ofDigitChars_ten_toDigits] at hvalue
  exact hvalue

/-- The rows of the findings from `index` on. -/
def findingRowsFrom (featureRunId : String) (reviewerRunId : Option String)
    (reviewCycle index : ℕ) : List ReviewFindingInsert → List ReviewFinding
  | [] => []
  | finding :: findings =>
    { id := reviewFindingId featureRunId reviewCycle index, featureRunId, reviewerRunId,
      reviewCycle, severity := finding.severity, category := finding.category,
      description := finding.description, filePath := finding.filePath,
      lineStart := finding.lineStart, lineEnd := finding.lineEnd } ::
    findingRowsFrom featureRunId reviewerRunId reviewCycle (index + 1) findings

/-- The rows of a list of findings. -/
def findingRows (featureRunId : String) (reviewerRunId : Option String) (reviewCycle : ℕ)
    (findings : List ReviewFindingInsert) : List ReviewFinding :=
  findingRowsFrom featureRunId reviewerRunId reviewCycle 0 findings

section Findings

variable {featureRunId : String} {reviewerRunId : Option String} {reviewCycle index : ℕ}
  {findings : List ReviewFindingInsert} {s s' : Session}

theorem id_of_mem_findingRowsFrom {row : ReviewFinding}
    (h : row ∈ findingRowsFrom featureRunId reviewerRunId reviewCycle index findings) :
    ∃ i, index ≤ i ∧ row.id = reviewFindingId featureRunId reviewCycle i := by
  induction findings generalizing index with
  | nil => cases h
  | cons finding findings ih =>
    rcases List.mem_cons.mp h with rfl | hmem
    · exact ⟨index, le_rfl, rfl⟩
    · obtain ⟨i, hi, hid⟩ := ih hmem
      exact ⟨i, by omega, hid⟩

/-- The findings of one pass have different ids. -/
theorem pairwise_findingRowsFrom :
    (findingRowsFrom featureRunId reviewerRunId reviewCycle index findings).Pairwise
      fun row row' => Row.clash row row' = false := by
  induction findings generalizing index with
  | nil => exact List.Pairwise.nil
  | cons finding findings ih =>
    refine List.pairwise_cons.mpr ⟨fun row hrow => decide_eq_false fun hid => ?_, ih⟩
    obtain ⟨i, hi, hrowId⟩ := id_of_mem_findingRowsFrom hrow
    have hindex := reviewFindingId_inj (hid.trans hrowId)
    omega

theorem pairwise_findingRows :
    (findingRows featureRunId reviewerRunId reviewCycle findings).Pairwise
      fun row row' => Row.clash row row' = false :=
  pairwise_findingRowsFrom

theorem insertReviewFindingsFrom_ok
    (h : exec (insertReviewFindingsFrom featureRunId reviewerRunId reviewCycle index findings) s =
      (.ok (), s')) :
    s'.db.reviewFindings = s.db.reviewFindings.insertAll
      (findingRowsFrom featureRunId reviewerRunId reviewCycle index findings) := by
  induction findings generalizing index s with
  | nil =>
    obtain ⟨-, rfl⟩ := Prod.mk.inj h
    rfl
  | cons finding findings ih =>
    obtain ⟨_, s₁, hinsert, h₁⟩ := exec_bind_ok.mp h
    rw [ih h₁, findingRowsFrom, Table.insertAll_cons]
    obtain ⟨hdb, -⟩ := execute_ok hinsert
    congr 1
    rw [Db.insertReviewFinding] at hdb
    rw [Table.insertNew]
    split at hdb
    · rename_i t hinserted
      rw [hinserted, Option.getD_some, ← (Prod.mk.inj (Option.some.inj hdb)).2]
    · rename_i hclash
      rw [hclash, Option.getD_none, ← (Prod.mk.inj (Option.some.inj hdb)).2]

/-- **What `insertReviewFindings` did**: each finding got its row, unless another row had its id. -/
theorem insertReviewFindings_ok
    (h : exec (insertReviewFindings featureRunId reviewerRunId reviewCycle findings) s =
      (.ok (), s')) :
    s'.db.reviewFindings =
      s.db.reviewFindings.insertAll (findingRows featureRunId reviewerRunId reviewCycle findings) :=
  insertReviewFindingsFrom_ok h

end Findings

end MiniCoder
