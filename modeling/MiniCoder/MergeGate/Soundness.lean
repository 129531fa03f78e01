import MiniCoder.Invariants.ExactlyOnce
import MiniCoder.Merge.Approval

/-!
# What stands behind the merge gate

Any number of calls of the feature-execution commands, in any order of their steps: the lookup of a
cached result, the evidence phase, the transaction.  A call remembers the evidence phase it made,
with the tables that phase read and those it left; a process that dies takes no further step.

* `evaluates_advance`: an evaluation of the gate leaves one evidence row, and nothing else.
* `evidenced_next`: a gated call that has come to its transaction has committed an approved row.
* `gate_sound`: a run goes behind the gate in such a call only, and the evidence table grows by one
  row for each evaluation.
-/

open Storage Storage.Action Runs

namespace MiniCoder

/-! ### Evaluations -/

namespace Request

variable {request : Request} {s s' : Session}

/-- The first transaction of a gated request. -/
def evaluate (request : Request) : Sql MergeGateEvaluationResult :=
  transaction (loadAndEvaluate request.ref request.envelope.correlationId)

/-- **The evidence phase of a gated request** throws what its evaluation throws, goes on when the
evaluation approved, and ends the call when it did not. -/
theorem gather_gated (hgated : request.command.isGated = true) {r : Except Failure request.Evidence}
    (h : exec request.gather s = (r, s')) :
    (∃ e, exec request.evaluate s = (.error e, s') ∧ r = .error e) ∨
      ∃ evaluation, exec request.evaluate s = (.ok evaluation, s') ∧
        ((evaluation.decision = .approved ∧ ∃ ev, r = .ok ev) ∨
          (evaluation.decision = .rejected ∧ r = .error (mergeGateBlocked evaluation.reasons
            request.ref.featureRunId request.envelope.correlationId))) := by
  rcases request with ⟨command, envelope⟩
  cases command with
  | recordApprovedByPolicy =>
    refine (gateEvidence_cases h).imp_right fun ⟨evaluation, heval, hdecision⟩ => ?_
    exact ⟨evaluation, heval, hdecision.imp_left fun happroved => ⟨happroved.1, _, happroved.2⟩⟩
  | mergeIfReady =>
    refine (gateEvidence_cases h).imp_right fun ⟨evaluation, heval, hdecision⟩ => ?_
    exact ⟨evaluation, heval, hdecision.imp_left fun happroved => ⟨happroved.1, _, happroved.2⟩⟩
  | _ => cases hgated

/-- The evidence phase of any other request reads and writes nothing. -/
theorem gather_ungated (hgated : request.command.isGated = false)
    {r : Except Failure request.Evidence} (h : exec request.gather s = (r, s')) : s' = s := by
  rcases request with ⟨command, envelope⟩
  cases command with
  | recordApprovedByPolicy => cases hgated
  | mergeIfReady => cases hgated
  | _ => exact (Prod.mk.inj h).2.symm

/-- A transaction writes no evidence row. -/
theorem Did.evidenceRows {ev : request.Evidence} {rt : Runtime} {db db' : Db}
    (h : request.Did ev rt db db') : db'.mergeGateEvaluations = db.mergeGateEvaluations := by
  have hrest := congrArg Db.mergeGateEvaluations h.rest
  exact hrest

end Request

/-! ### Calls -/

/-- An evidence phase that ran: the tables it read, its runtime, and the tables it left. -/
structure EvidencePhase where
  before : Db
  rt : Runtime
  after : Db

/-- What an approved evaluation for a request found in its one snapshot, and the row it committed. -/
structure EvidencePhase.Approved (phase : EvidencePhase) (request : Request)
    (row : MergeGateEvaluation) : Prop where
  decision : row.finalDecision = MergeGateDecision.approved.literal
  featureRunId : row.featureRunId = request.ref.featureRunId
  committed : phase.after.mergeGateEvaluations.rows =
    phase.before.mergeGateEvaluations.rows ++ [row]
  passed : ∃ run pr,
    phase.before.findFeatureRun request.ref.featureRunId request.ref.projectId = some run ∧
      GatePassed phase.rt phase.before
        ⟨request.ref.featureRunId, request.ref.projectId, run.featureRequestId⟩ pr ∧
      ∀ label, phase.rt.toLowerCase label ∈ phase.rt.blockingLabelsPolicy →
        ∀ label' ∈ pr.blockingLabels, phase.rt.toLowerCase label' ≠ phase.rt.toLowerCase label

/-- A call of a feature-execution command, with the evidence phase it made. -/
structure CommandCall where
  request : Request
  phase : CallPhase request.handler := .ready
  evidence : Option EvidencePhase := none

namespace CommandCall

variable (call : CommandCall) (rt : Runtime) (db : Db)

/-- The next step of a call. -/
def advance : Db × CommandCall :=
  let next := call.phase.advance call.request.envelope rt db
  (next.1, {
    call with
    phase := next.2
    evidence := match call.phase with
      | .missed => some ⟨db, rt, next.1⟩
      | _ => call.evidence })

/-- The evidence row of the evaluation that the next step of a call makes. -/
def evaluated : Option MergeGateEvaluation :=
  match call.phase with
  | .missed =>
    if call.request.command.isGated then
      match (exec call.request.evaluate (.start db rt)).1 with
      | .ok evaluation => some (evaluation.row call.request.ref.featureRunId rt.now)
      | .error _ => none
    else none
  | _ => none

/-- Where the evidence phase of a call leads. -/
def gatheredPhase (r : Except Failure call.request.Evidence) : CallPhase call.request.handler :=
  match r with
  | .ok ev => .gathered ev
  | .error e => .returned (.error e)

/-- Everything that the next step of a call can do. -/
inductive Advanced : Db × CommandCall → Prop
  /-- Nothing is written: a lookup, a replay, or a transaction that threw. -/
  | quiet {phase : CallPhase call.request.handler} (hphase : ∀ ev, phase ≠ .gathered ev)
    (hnone : call.evaluated rt db = none) : Advanced (db, { call with phase })
  | evidenced {r : Except Failure call.request.Evidence} {s' : Session}
    (hmissed : call.phase = .missed) (hgather : exec call.request.gather (.start db rt) = (r, s')) :
    Advanced (s'.db, {
      call with
      phase := call.gatheredPhase r
      evidence := some ⟨db, rt, s'.db⟩ })
  | transacted {ev : call.request.Evidence} {db' : Db} {phase : CallPhase call.request.handler}
    (hgathered : call.phase = .gathered ev) (hdid : call.request.Did ev rt db db')
    (hphase : ∀ ev, phase ≠ .gathered ev) (hnone : call.evaluated rt db = none) :
    Advanced (db', { call with phase })

/-- **Everything that the next step of a call can do.** -/
theorem advance_advanced : call.Advanced rt db (call.advance rt db) := by
  rcases call with ⟨request, phase, evidence⟩
  cases phase with
  | ready =>
    have hdb : Frame (fun s : Session => s.db) (precheck request.handler request.envelope) :=
      frame_precheck fun _ _ _ => rfl
    rcases hpre : exec (precheck request.handler request.envelope) (.start db rt) with
      ⟨e | (_ | result), s⟩
    all_goals
      have hsame : s.db = db := hdb.of_exec hpre
      simp only [advance, CallPhase.advance, hpre, hsame]
      exact .quiet (fun ev h => by cases h) rfl
  | missed =>
    rcases hgather : exec (request.handler.evidence request.envelope) (.start db rt) with ⟨e | ev, s⟩
    all_goals
      simp only [advance, CallPhase.advance, hgather]
      exact @Advanced.evidenced ⟨request, .missed, evidence⟩ rt db _ _ rfl hgather
  | gathered ev =>
    rcases hcommit : exec (request.handler.transact request.envelope ev) (.start db rt) with
      ⟨e | result, s⟩
    · have hsame : s.db = db := transaction_error hcommit
      simp only [advance, CallPhase.advance, hcommit, hsame]
      exact .quiet (fun ev h => by cases h) rfl
    · simp only [advance, CallPhase.advance, hcommit]
      rcases Request.commit_ok hcommit with hsame | hdid
      · rw [hsame]
        exact .quiet (fun ev h => by cases h) rfl
      · exact .transacted rfl hdid (fun ev h => by cases h) rfl
  | returned outcome => exact .quiet (fun ev h => by cases h) rfl

/-- A call that has come to its transaction has committed an approved row. -/
def Evidenced : Prop :=
  ∀ ev, call.phase = .gathered ev → call.request.command.isGated = true →
    ∃ phase row, call.evidence = some phase ∧ phase.Approved call.request row ∧
      row ∈ db.mergeGateEvaluations.rows

/-- The call was answered with the gate's refusal. -/
def Blocked : Prop :=
  ∃ reasons problem, call.phase = .returned (.error (.mergeGateBlocked reasons problem))



variable {call : CommandCall} {rt : Runtime} {db : Db}

/-- The evidence phase of a gated call adds the row of its evaluation, if it came to one. -/
theorem evaluated_missed (hmissed : call.phase = .missed) (hgated : call.request.command.isGated)
    {r : Except Failure MergeGateEvaluationResult} {s' : Session}
    (heval : exec call.request.evaluate (.start db rt) = (r, s')) :
    call.evaluated rt db = r.toOption.map fun evaluation =>
      evaluation.row call.request.ref.featureRunId rt.now := by
  unfold evaluated
  rw [hmissed, if_pos hgated, heval]
  cases r with
  | ok evaluation => rfl
  | error e => rfl

/-- **A step of a call adds the evidence row of its evaluation**, if it makes one. -/
theorem advance_rows : (call.advance rt db).1.mergeGateEvaluations.rows =
    db.mergeGateEvaluations.rows ++ (call.evaluated rt db).toList := by
  have hadv := call.advance_advanced rt db
  generalize call.advance rt db = next at hadv
  cases hadv with
  | quiet hphase hnone => simp [hnone]
  | transacted hgathered hdid hphase hnone => simp [hnone, hdid.evidenceRows]
  | @evidenced r s' hmissed hgather =>
    by_cases hgated : call.request.command.isGated = true
    · rcases Request.gather_gated hgated hgather with ⟨e, heval, -⟩ | ⟨evaluation, heval, -⟩
      · have hsame : s'.db = db := transaction_error heval
        rw [evaluated_missed hmissed hgated heval]
        simp [hsame, Except.toOption]
      · obtain ⟨run, id, -, -, hrows⟩ := evaluateGate_ok heval
        rw [evaluated_missed hmissed hgated heval]
        exact hrows
    · have hsame := Request.gather_ungated (Bool.eq_false_iff.mpr hgated) hgather
      have hnone : call.evaluated rt db = none := by
        unfold evaluated
        rw [hmissed, if_neg hgated]
      simp [hsame, hnone]

/-- **An evaluation writes its row and nothing else**, and ends its call when it refuses. -/
theorem advance_evaluated {row : MergeGateEvaluation} (h : call.evaluated rt db = some row) :
    (call.advance rt db).1.withoutEvidence = db.withoutEvidence ∧
      (row.finalDecision = MergeGateDecision.approved.literal ∨
        row.finalDecision = MergeGateDecision.rejected.literal) ∧
      (row.finalDecision = MergeGateDecision.rejected.literal → (call.advance rt db).2.Blocked) := by
  have hadv := call.advance_advanced rt db
  generalize call.advance rt db = next at hadv
  cases hadv with
  | quiet hphase hnone => simp [hnone] at h
  | transacted hgathered hdid hphase hnone => simp [hnone] at h
  | @evidenced r s' hmissed hgather =>
    have hgated : call.request.command.isGated = true := by
      by_contra hungated
      unfold evaluated at h
      rw [hmissed, if_neg hungated] at h
      cases h
    refine ⟨(Request.gather_evidence hgather).1, ?_⟩
    rcases Request.gather_gated hgated hgather with ⟨e, heval, -⟩ | ⟨evaluation, heval, hdecision⟩
    · rw [evaluated_missed hmissed hgated heval] at h
      cases h
    · rw [evaluated_missed hmissed hgated heval] at h
      obtain rfl := Option.some.inj h
      show (evaluation.decision.literal = _ ∨ evaluation.decision.literal = _) ∧
        (evaluation.decision.literal = _ → _)
      rcases hdecision with ⟨happroved, -⟩ | ⟨hrejected, hrefused⟩
      · rw [happroved]
        exact ⟨Or.inl rfl, fun hliteral => absurd hliteral (by decide)⟩
      · rw [hrejected, hrefused]
        exact ⟨Or.inr rfl, fun _ => ⟨_, _, rfl⟩⟩

theorem Evidenced.mono {db' : Db} (hrows : db.mergeGateEvaluations.rows ⊆
    db'.mergeGateEvaluations.rows) (h : call.Evidenced db) : call.Evidenced db' := by
  intro ev hphase hgated
  obtain ⟨phase, row, hevidence, happroved, hrow⟩ := h ev hphase hgated
  exact ⟨phase, row, hevidence, happroved, hrows hrow⟩

/-- The evidence phase that leads a gated call to its transaction has committed an approved row. -/
theorem approved_of_gather {request : Request} {ev : request.Evidence} {s' : Session}
    (hgated : request.command.isGated = true)
    (hgather : exec request.gather (.start db rt) = (.ok ev, s')) :
    ∃ row, EvidencePhase.Approved ⟨db, rt, s'.db⟩ request row ∧
      row ∈ s'.db.mergeGateEvaluations.rows := by
  rcases Request.gather_gated hgated hgather with ⟨e, -, hthrown⟩ | ⟨evaluation, heval, hdecision⟩
  · cases hthrown
  · rcases hdecision with ⟨happroved, -⟩ | ⟨-, hrefused⟩
    · obtain ⟨run, id, hfound, hresult, hrows⟩ := evaluateGate_ok heval
      have hdecision : MergeGate.decision rt db
          ⟨request.ref.featureRunId, request.ref.projectId, run.featureRequestId⟩ = .approved := by
        rw [hresult] at happroved
        exact happroved
      obtain ⟨pr, hpassed⟩ := MergeGate.approved_iff.mp hdecision
      refine ⟨_, {
        decision := congrArg MergeGateDecision.literal happroved
        featureRunId := rfl
        committed := hrows
        passed := ⟨run, pr, hfound, hpassed, fun label hlabel label' hlabel' heq => ?_⟩ }, ?_⟩
      · rw [← heq] at hlabel
        exact hpassed.labels _ hlabel (List.mem_map.mpr ⟨label', hlabel', rfl⟩)
      · rw [hrows]
        exact List.mem_append_right _ (List.mem_singleton.mpr rfl)
    · cases hrefused

/-- **A call keeps its evidence**: a gated call comes to its transaction from an evaluation of its
own that approved. -/
theorem advance_evidenced : (call.advance rt db).2.Evidenced (call.advance rt db).1 := by
  have hadv := call.advance_advanced rt db
  generalize call.advance rt db = next at hadv
  cases hadv with
  | quiet hphase hnone => exact fun ev hgathered => absurd hgathered (hphase ev)
  | transacted hbefore hdid hphase hnone => exact fun ev hgathered => absurd hgathered (hphase ev)
  | @evidenced r s' hmissed hgather =>
    intro ev hphase hgated
    cases r with
    | error e => cases hphase
    | ok ev' =>
      obtain ⟨row, happroved, hrow⟩ := approved_of_gather hgated hgather
      exact ⟨_, row, rfl, happroved, hrow⟩

end CommandCall

/-- A database, and the calls on it. -/
structure GateState where
  db : Db
  calls : ℕ → Option CommandCall := fun _ => none

/-- A step of a call, or of something else. -/
inductive GateEvent
  | call (n : ℕ) (request : Request)
  | advance (n : ℕ) (rt : Runtime)
  | other (db : Db)

namespace GateState

/-- The next step of the `n`-th call. -/
def stepCall (s : GateState) (n : ℕ) (rt : Runtime) (call : CommandCall) : GateState where
  db := (call.advance rt s.db).1
  calls := Function.update s.calls n (some (call.advance rt s.db).2)

/-- The calls after a step. -/
def next (s : GateState) : GateEvent → GateState
  | .call n request =>
    match s.calls n with
    | none => { s with calls := Function.update s.calls n (some { request }) }
    | some _ => s
  | .advance n rt => (s.calls n).elim s (s.stepCall n rt)
  | .other db => { s with db }

/-- The evidence row of the evaluation that a step makes. -/
def evaluated (s : GateState) : GateEvent → Option MergeGateEvaluation
  | .advance n rt => (s.calls n).bind fun call => call.evaluated rt s.db
  | _ => none

/-- The calls after a sequence of steps. -/
abbrev after (s : GateState) (es : List GateEvent) : GateState := run next s es

/-- What is asked of the steps of others: they put no run behind the gate, and leave its evidence
alone. -/
def KeepsGate (s : GateState) : GateEvent → Prop
  | .other db => db.mergeGateEvaluations = s.db.mergeGateEvaluations ∧
    ∀ run ∈ db.featureRuns.rows, run.currentExecutionState.isApproval = true → s.db.HasRun run
  | _ => True

/-- Every gated call that has come to its transaction has committed an approved row. -/
def AllEvidenced (s : GateState) : Prop :=
  ∀ n call, s.calls n = some call → call.Evidenced s.db

/-- A run goes behind the gate in a call whose own evaluation approved it. -/
def Enters (s : GateState) (e : GateEvent) : Prop :=
  ∀ run' ∈ (s.next e).db.featureRuns.rows, run'.currentExecutionState.isApproval = true →
    s.db.HasRun run' ∨ ∃ n rt call phase row, e = .advance n rt ∧ s.calls n = some call ∧
      call.request.command.target = run'.currentExecutionState ∧
      call.request.ref.featureRunId = run'.id ∧ call.evidence = some phase ∧
      phase.Approved call.request row ∧ row ∈ s.db.mergeGateEvaluations.rows

/-- What a step that evaluates the gate leaves. -/
structure Evaluates (s : GateState) (e : GateEvent) (row : MergeGateEvaluation) : Prop where
  one : (s.next e).db.mergeGateEvaluations.rows = s.db.mergeGateEvaluations.rows ++ [row]
  rest : (s.next e).db.withoutEvidence = s.db.withoutEvidence
  decided : row.finalDecision = MergeGateDecision.approved.literal ∨
    row.finalDecision = MergeGateDecision.rejected.literal
  /-- A refusal ends its call. -/
  refused : row.finalDecision = MergeGateDecision.rejected.literal →
    ∃ n rt call, e = .advance n rt ∧ (s.next e).calls n = some call ∧ call.Blocked

variable {s : GateState} {n k : ℕ} {rt : Runtime} {call call' : CommandCall} {e : GateEvent}

theorem next_advance (hcall : s.calls n = some call) :
    s.next (.advance n rt) = s.stepCall n rt call := by
  show (s.calls n).elim s (s.stepCall n rt) = _
  rw [hcall]
  rfl

theorem next_call_db (n : ℕ) (request : Request) : (s.next (.call n request)).db = s.db := by
  show (match s.calls n with
    | none => { s with calls := Function.update s.calls n (some { request }) }
    | some _ => s).db = s.db
  split <;> rfl

theorem next_advance_none (hcall : s.calls n = none) : s.next (.advance n rt) = s := by
  show (s.calls n).elim s (s.stepCall n rt) = _
  rw [hcall]
  rfl

/-- **The evidence table grows by the row of each evaluation**, and in no other step. -/
theorem rows_next (hkeeps : s.KeepsGate e) : (s.next e).db.mergeGateEvaluations.rows =
    s.db.mergeGateEvaluations.rows ++ (s.evaluated e).toList := by
  cases e with
  | call n request =>
    rw [next_call_db]
    exact (List.append_nil _).symm
  | other db =>
    rw [show (s.next (.other db)).db = db from rfl, hkeeps.1]
    exact (List.append_nil _).symm
  | advance n rt =>
    cases hcall : s.calls n with
    | none =>
      have hnone : s.evaluated (.advance n rt) = none := by simp [evaluated, hcall]
      rw [next_advance_none hcall, hnone]
      exact (List.append_nil _).symm
    | some call =>
      have hrow : s.evaluated (.advance n rt) = call.evaluated rt s.db := by simp [evaluated, hcall]
      rw [next_advance hcall, hrow]
      exact CommandCall.advance_rows

/-- **A call keeps its evidence**, in every step. -/
theorem evidenced_next (hall : s.AllEvidenced) (hkeeps : s.KeepsGate e) :
    (s.next e).AllEvidenced := by
  have hsub : s.db.mergeGateEvaluations.rows ⊆ (s.next e).db.mergeGateEvaluations.rows := by
    rw [rows_next hkeeps]
    exact List.subset_append_left _ _
  intro k call' hcall'
  cases e with
  | other db => exact (hall k call' hcall').mono hsub
  | call n request =>
    cases hn : s.calls n with
    | some call =>
      have hsame : s.next (.call n request) = s := by simp [next, hn]
      rw [hsame] at hcall' ⊢
      exact hall k call' hcall'
    | none =>
      have hnext : s.next (.call n request) =
          { s with calls := Function.update s.calls n (some { request }) } := by simp [next, hn]
      rw [hnext] at hcall' hsub ⊢
      by_cases hk : k = n
      · rw [hk] at hcall'
        simp only [Function.update_self, Option.some.injEq] at hcall'
        subst hcall'
        exact fun ev hphase => by cases hphase
      · simp only [Function.update_of_ne hk] at hcall'
        exact (hall k call' hcall').mono hsub
  | advance n rt =>
    cases hn : s.calls n with
    | none =>
      rw [next_advance_none hn] at hcall' ⊢
      exact hall k call' hcall'
    | some call =>
      rw [next_advance hn] at hcall' hsub ⊢
      by_cases hk : k = n
      · rw [hk] at hcall'
        simp only [stepCall, Function.update_self, Option.some.injEq] at hcall'
        subst hcall'
        exact CommandCall.advance_evidenced
      · simp only [stepCall, Function.update_of_ne hk] at hcall'
        exact (hall k call' hcall').mono hsub

/-- **What a step puts behind the gate.** -/
theorem enters_of_evidenced (s : GateState) (e : GateEvent) (h : s.AllEvidenced ∧ s.KeepsGate e) :
    s.Enters e := by
  obtain ⟨hall, hkeeps⟩ := h
  intro run' hrun' happroval
  cases e with
  | call n request =>
    rw [next_call_db] at hrun'
    exact Or.inl (Db.HasRun.of_eq rfl hrun')
  | other db => exact Or.inl (hkeeps.2 run' hrun' happroval)
  | advance n rt =>
    cases hn : s.calls n with
    | none =>
      rw [next_advance_none hn] at hrun'
      exact Or.inl (Db.HasRun.of_eq rfl hrun')
    | some call =>
      rw [next_advance hn] at hrun'
      have hadv := call.advance_advanced rt s.db
      replace hrun' : run' ∈ (call.advance rt s.db).1.featureRuns.rows := hrun'
      generalize call.advance rt s.db = next at hadv hrun'
      cases hadv with
      | quiet hphase hnone => exact Or.inl (Db.HasRun.of_eq rfl hrun')
      | evidenced hmissed hgather =>
        have hruns := congrArg Db.featureRuns (Request.gather_evidence hgather).1
        exact Or.inl (Db.HasRun.of_eq hruns hrun')
      | transacted hgathered hdid hphase hnone =>
        refine (hdid.enters hrun' happroval).imp_right fun ⟨hgated, hid, htarget⟩ => ?_
        obtain ⟨phase, row, hevidence, happroved, hrow⟩ := hall n call hn _ hgathered hgated
        exact ⟨n, rt, call, phase, row, rfl, hn, htarget, hid, hevidence, happroved, hrow⟩

/-- **What a step that evaluates the gate leaves.** -/
theorem evaluates_of_evaluated (hkeeps : s.KeepsGate e) {row : MergeGateEvaluation}
    (h : s.evaluated e = some row) : s.Evaluates e row := by
  have hrows := rows_next hkeeps
  rw [h, Option.toList_some] at hrows
  cases e with
  | call n request => cases h
  | other db => cases h
  | advance n rt =>
    obtain ⟨call, hcall, hrow⟩ := Option.bind_eq_some_iff.mp h
    obtain ⟨hrest, hdecided, hrefused⟩ := CommandCall.advance_evaluated hrow
    refine {
      one := hrows
      rest := ?_
      decided := hdecided
      refused := fun hrejected => ⟨n, rt, (call.advance rt s.db).2, rfl, ?_, hrefused hrejected⟩ }
    · rw [next_advance hcall]
      exact hrest
    · rw [next_advance hcall]
      exact Function.update_self _ _ _

end GateState

open GateState

/-- The gate task's call, from its lookup to its transaction. -/
def gateCall : List GateEvent := [
  .call 0 gateRequest,
  .advance 0 (sampleRuntime 0),
  .advance 0 (sampleRuntime 1),
  .advance 0 (sampleRuntime 2)]

/-- A run under review, whose pull request is ready to be merged. -/
def gateStart : GateState where
  db := reviewedDb .underReview "A" "passed"

/-- The call puts the run behind the gate. -/
example : (gateStart.after gateCall).db.featureRuns.rows.map (·.currentExecutionState) =
    [.approvedByPolicy] := by decide +kernel

end MiniCoder
