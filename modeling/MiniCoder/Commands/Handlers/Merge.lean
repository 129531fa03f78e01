import MiniCoder.Commands.Checks
import MiniCoder.MergeGate.Evaluate

/-!
# The gated handlers

The two transitions behind the merge gate.  Their evidence phase evaluates the gate in a transaction
of its own, so that the evidence row outlives a rejection; only an approved evaluation goes on to
the transition.

* `evaluateGate_ok`: an evaluation decides on the tables it read, and adds one evidence row.
* `gateEvidence_cases`, `gateEvidence_ok`: it goes on when it approved.
-/

open Storage Storage.Action

namespace MiniCoder

/-- The body of a gated handler's first transaction: the run, then the gate. -/
def loadAndEvaluate (ref : FeatureRunRef) (correlationId : String) :
    Sql MergeGateEvaluationResult := do
  let row ← query fun db => db.findFeatureRun ref.featureRunId ref.projectId
  match row with
  | none => throw (.command {
      type := "not-found"
      title := "Feature run not found"
      status := 404
      detail := s!"Feature run {ref.featureRunId} not found in project {ref.projectId}"
      instance? := some correlationId })
  | some run => evaluateMergeGate {
      featureRunId := ref.featureRunId
      projectId := ref.projectId
      featureRequestId := run.featureRequestId }

/-- `MergeGateBlockedError`. -/
def mergeGateBlocked (reasons : List String) (featureRunId correlationId : String) : Failure :=
  let joined := "; ".intercalate reasons
  .mergeGateBlocked reasons {
    type := "merge-gate-blocked"
    title := "Merge gate did not pass"
    status := 409
    detail := s!"Merge gate rejected feature run {featureRunId}: {joined}"
    instance? := some correlationId }

/-- The evidence phase of a gated handler. -/
def gateEvidence (ref : FeatureRunRef) (correlationId : String) :
    Sql MergeGateEvaluationResult := do
  let evaluation ← transaction (loadAndEvaluate ref correlationId)
  if evaluation.decision ≠ .approved then
    throw (mergeGateBlocked evaluation.reasons ref.featureRunId correlationId)
  else
    pure evaluation

theorem frame_loadAndEvaluate (ref : FeatureRunRef) (correlationId : String) :
    Frame evidenceView (loadAndEvaluate ref correlationId) := by
  refine frame_bind (frame_query seesData_evidenceView _) fun row => ?_
  rcases row with _ | run
  · exact frame_throw _
  · exact frame_evaluateMergeGate _

/-- The first transaction writes its evidence row and nothing else, committed or not. -/
theorem frame_evaluateGate (ref : FeatureRunRef) (correlationId : String) :
    Frame evidenceView (transaction (loadAndEvaluate ref correlationId)) := by
  have hbody := frame_loadAndEvaluate ref correlationId
  have hdb : Frame (fun s : Session => s.db.withoutEvidence)
      (transaction (loadAndEvaluate ref correlationId)) := frame_transaction (hbody.map Prod.fst)
  have hrt := frame_transaction_runtime (hbody.map Prod.snd)
  exact fun s => Prod.ext (hdb s) (hrt s)

theorem frame_gateEvidence (ref : FeatureRunRef) (correlationId : String) :
    Frame evidenceView (gateEvidence ref correlationId) :=
  frame_bind (frame_evaluateGate ref correlationId) fun _ => frame_ite (frame_throw _) (frame_pure _)

/-- **What the first transaction did**: it found the run, decided on the tables it read, and added
one evidence row. -/
theorem evaluateGate_ok {ref : FeatureRunRef} {correlationId : String} {s s' : Session}
    {evaluation : MergeGateEvaluationResult}
    (h : exec (transaction (loadAndEvaluate ref correlationId)) s = (.ok evaluation, s')) :
    ∃ run id, s.db.findFeatureRun ref.featureRunId ref.projectId = some run ∧
      evaluation = MergeGate.evaluation s.runtime s.db
        ⟨ref.featureRunId, ref.projectId, run.featureRequestId⟩ id ∧
      s'.db.mergeGateEvaluations.rows = s.db.mergeGateEvaluations.rows ++
        [evaluation.row ref.featureRunId s.runtime.now] := by
  obtain ⟨s₂, hbody, hdb, -⟩ := transaction_ok h
  obtain ⟨row, s₃, hquery, hgate⟩ := exec_bind_ok.mp hbody
  obtain ⟨hrow, hdb₃, hrt₃⟩ := query_ok hquery
  rcases row with _ | run
  · simp at hgate
  · obtain ⟨⟨id, hresult⟩, hrows⟩ := evaluateMergeGate_ok hgate
    rw [hdb₃, hrt₃] at hresult hrows
    exact ⟨run, id, hrow.symm, hresult, by rw [hdb]; exact hrows⟩

/-- **The evidence phase** throws what its evaluation throws, goes on when the evaluation approved,
and ends the call when it did not. -/
theorem gateEvidence_cases {ref : FeatureRunRef} {correlationId : String} {s s' : Session}
    {r : Except Failure MergeGateEvaluationResult}
    (h : exec (gateEvidence ref correlationId) s = (r, s')) :
    (∃ e, exec (transaction (loadAndEvaluate ref correlationId)) s = (.error e, s') ∧
        r = .error e) ∨
      ∃ evaluation, exec (transaction (loadAndEvaluate ref correlationId)) s = (.ok evaluation, s') ∧
        ((evaluation.decision = .approved ∧ r = .ok evaluation) ∨
          (evaluation.decision = .rejected ∧ r = .error (mergeGateBlocked evaluation.reasons
            ref.featureRunId correlationId))) := by
  rw [gateEvidence, exec_bind] at h
  rcases heval : exec (transaction (loadAndEvaluate ref correlationId)) s with ⟨e | evaluation, s₁⟩
  · rw [heval] at h
    obtain ⟨rfl, rfl⟩ := Prod.mk.inj h
    exact Or.inl ⟨e, rfl, rfl⟩
  · rw [heval] at h
    simp only [exec_ite, exec_throw, exec_pure] at h
    cases hdecision : evaluation.decision with
    | approved =>
      rw [if_neg (by simp [hdecision])] at h
      obtain ⟨rfl, rfl⟩ := Prod.mk.inj h
      exact Or.inr ⟨evaluation, rfl, Or.inl ⟨hdecision, rfl⟩⟩
    | rejected =>
      rw [if_pos (by simp [hdecision])] at h
      obtain ⟨rfl, rfl⟩ := Prod.mk.inj h
      exact Or.inr ⟨evaluation, rfl, Or.inr ⟨hdecision, rfl⟩⟩

/-- **An evaluation that goes on was approved**: the run was found, and every predicate of the gate
held of the tables the evaluation read. -/
theorem gateEvidence_ok {ref : FeatureRunRef} {correlationId : String} {s s' : Session}
    {evaluation : MergeGateEvaluationResult}
    (h : exec (gateEvidence ref correlationId) s = (.ok evaluation, s')) :
    ∃ run pr, s.db.findFeatureRun ref.featureRunId ref.projectId = some run ∧
      GatePassed s.runtime s.db ⟨ref.featureRunId, ref.projectId, run.featureRequestId⟩ pr ∧
      evaluation.row ref.featureRunId s.runtime.now ∈ s'.db.mergeGateEvaluations.rows ∧
      evaluation.decision = .approved := by
  rcases gateEvidence_cases h with ⟨e, -, hthrown⟩ | ⟨evaluation', heval, hdecision⟩
  · cases hthrown
  · rcases hdecision with ⟨happroved, hev⟩ | ⟨-, hrefused⟩
    · obtain rfl := Except.ok.inj hev
      obtain ⟨run, id, hfound, hresult, hrows⟩ := evaluateGate_ok heval
      have hdecision : MergeGate.decision s.runtime s.db
          ⟨ref.featureRunId, ref.projectId, run.featureRequestId⟩ = .approved := by
        rw [hresult] at happroved
        exact happroved
      obtain ⟨pr, hpassed⟩ := MergeGate.approved_iff.mp hdecision
      refine ⟨run, pr, hfound, hpassed, ?_, happroved⟩
      rw [hrows]
      exact List.mem_append_right _ (List.mem_singleton.mpr rfl)
    · cases hrefused

abbrev RecordApprovedByPolicyPayload := FeatureRunRef

/-- `RecordApprovedByPolicyHandler`. -/
def recordApprovedByPolicyHandler : FeatureHandler RecordApprovedByPolicyPayload where
  commandName := "RecordApprovedByPolicyCommand"
  requiredRole := .admin
  requiredActorKind := .system
  idempotencyScope := "record-approved-by-policy"
  Evidence := MergeGateEvaluationResult
  evidence envelope := gateEvidence envelope.payload envelope.correlationId
  evidence_only _ := frame_gateEvidence _ _
  transition envelope evaluation := { envelope.payload with
    toState := .approvedByPolicy
    Checked := Unit
    reportsMissing := false
    guard := fun _ => pure ()
    eventType := "feature.approved_by_policy"
    outboxPayload := fun _ => [
      ("featureRunId", .str envelope.payload.featureRunId),
      ("projectId", .str envelope.payload.projectId),
      ("mergeGateEvaluationId", .str evaluation.evaluationId)] }

abbrev MergeIfReadyPayload := FeatureRunRef

/-- `MergeIfReadyHandler`: evaluates the gate again, right before the merge. -/
def mergeIfReadyHandler : FeatureHandler MergeIfReadyPayload where
  commandName := "MergeIfReadyCommand"
  requiredRole := .approver
  requiredActorKind := .human
  idempotencyScope := "merge-if-ready"
  Evidence := MergeGateEvaluationResult
  evidence envelope := gateEvidence envelope.payload envelope.correlationId
  evidence_only _ := frame_gateEvidence _ _
  transition envelope evaluation := { envelope.payload with
    toState := .mergeReady
    Checked := Unit
    reportsMissing := false
    guard := fun _ => pure ()
    eventType := "feature.merge_ready"
    outboxPayload := fun _ => [
      ("featureRunId", .str envelope.payload.featureRunId),
      ("projectId", .str envelope.payload.projectId),
      ("mergeGateEvaluationId", .str evaluation.evaluationId)] }

end MiniCoder
