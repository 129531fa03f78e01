import MiniCoder.Merge.Machine

/-!
# What an approval rests on

A run becomes `approved_by_policy` or `merge_ready` through the two commands behind the merge gate,
each on an evaluation of its own.  The gate asks what the documented merge policy asks: that the pull
request is open, on the right branch and mergeable, that its checks passed, and that no finding,
label, approval or budget stands against it.  It does not ask whether a reviewer has been at work at
all: the review task and the gate task run side by side, and a head without findings passes.

* `enters_gated`: in a run of the code, a run enters the two states only on an approved evaluation.
* `approved_unreviewed`: a run is approved at a head that no reviewer pass has completed for.
-/

open Storage Storage.Action Runs

namespace MiniCoder

/-- The states behind the merge gate. -/
def FeatureExecutionState.isApproval : FeatureExecutionState → Bool
  | approvedByPolicy | mergeReady => true
  | _ => false

/-- Only a gated command moves a run behind the gate. -/
theorem FeatureCommand.isGated_of_target {c : FeatureCommand} (h : c.target.isApproval = true) :
    c.isGated = true := by
  cases c with
  | recordApprovedByPolicy => rfl
  | mergeIfReady => rfl
  | _ => cases h

/-- A run of `db` already has the id and the state. -/
def Db.HasRun (db : Db) (run : FeatureRun) : Prop :=
  ∃ r ∈ db.featureRuns.rows, r.id = run.id ∧ r.currentExecutionState = run.currentExecutionState

theorem Db.HasRun.of_eq {db db' : Db} (h : db'.featureRuns = db.featureRuns) {run : FeatureRun}
    (hrun : run ∈ db'.featureRuns.rows) : db.HasRun run := by
  rw [h] at hrun
  exact ⟨run, hrun, rfl, rfl⟩

/-- **What a transition puts behind the gate**: its own run, when its command is gated. -/
theorem Request.Did.enters {request : Request} {ev : request.Evidence} {rt : Runtime} {db db' : Db}
    (h : request.Did ev rt db db') {run' : FeatureRun} (hrun' : run' ∈ db'.featureRuns.rows)
    (happroval : run'.currentExecutionState.isApproval = true) :
    db.HasRun run' ∨ (request.command.isGated = true ∧ request.ref.featureRunId = run'.id ∧
      request.command.target = run'.currentExecutionState) := by
  obtain ⟨run, hstep⟩ := h.step
  obtain ⟨-, hid, -⟩ := Db.findFeatureRun_some hstep.found
  obtain ⟨r, hr, hchange⟩ := hstep.runs.exists_mem_of hrun'
  rcases hchange with ⟨-, hid', -, hstate, -⟩ | ⟨-, rfl | ⟨-, -, rfl⟩⟩
  · rw [hstate] at happroval
    have hgated := FeatureCommand.isGated_of_target happroval
    exact Or.inr ⟨hgated, hid.symm.trans hid'.symm, hstate.symm⟩
  · exact Or.inl ⟨run', hr, rfl, rfl⟩
  · -- a cascade blocks its run
    cases happroval

namespace Evaluation

/-- A reviewer pass has completed for the head that the evaluation found in the mirror. -/
def Reviewed (e : Evaluation) : Prop :=
  ∃ pr marker, e.db.findPullRequest e.request.ref.featureRunId = some pr ∧
    marker ∈ e.db.reviewOccurrenceMarkers.rows ∧
    marker.featureRunId = e.request.ref.featureRunId ∧ pr.headSha = some marker.headSha

end Evaluation

namespace MergeState

/-- Each run that a step puts behind the gate has an approved evaluation that is `P`. -/
def EntersOn (P : Evaluation → Prop) (s : MergeState) (e : MergeEvent) : Prop :=
  ∀ run' ∈ (s.next e).db.featureRuns.rows, run'.currentExecutionState.isApproval = true →
    s.db.HasRun run' ∨ ∃ evaluation ∈ s.evaluations, evaluation.Approved run'.id ∧
      evaluation.request.command.target = run'.currentExecutionState ∧ P evaluation

/-- The transaction of a gated command follows an evaluation of its own, and no step but those of
the commands puts a run behind the gate. -/
def FollowsEvaluation (s : MergeState) : MergeEvent → Prop
  | .sys (.commit request ev _) => request.command.isGated = true →
    ∃ db rt, ⟨request, db, rt⟩ ∈ s.evaluations ∧ Evaluation.Returned ⟨request, db, rt⟩ ev
  | .sys (.other db) => ∀ run ∈ db.featureRuns.rows,
    run.currentExecutionState.isApproval = true → s.db.HasRun run
  | _ => True

/-- A request that is about to commit has made its evidence phase. -/
def Evaluated (s : MergeState) (call : MergeCall) (phase : RoutePhase) : Prop :=
  ∀ step commandId ev, phase = .committing step commandId ev →
    ∃ db rt, ⟨step.request call commandId, db, rt⟩ ∈ s.evaluations ∧
      Evaluation.Returned ⟨step.request call commandId, db, rt⟩ ev

variable {s s' : MergeState} {call : MergeCall} {phase phase' : RoutePhase} {rt : Runtime}

theorem Evaluated.of_ne (h : ∀ step commandId ev, phase ≠ .committing step commandId ev) :
    s.Evaluated call phase :=
  fun step commandId ev hphase => absurd hphase (h step commandId ev)

theorem Evaluated.of_isQuiet (h : phase.IsQuiet) : s.Evaluated call phase := by
  refine Evaluated.of_ne ?_
  rintro step commandId ev rfl
  cases h

theorem Evaluated.mono (hsub : s.evaluations ⊆ s'.evaluations) (h : s.Evaluated call phase) :
    s'.Evaluated call phase := by
  intro step commandId ev hphase
  obtain ⟨db, rt, hmem, hreturned⟩ := h step commandId ev hphase
  exact ⟨db, rt, hsub hmem, hreturned⟩

theorem Evaluated.after (step : RouteStep) (result : CommandResult) :
    s.Evaluated call (step.after result) := by
  refine Evaluated.of_ne fun step' commandId ev h => ?_
  cases step with
  | mergeIfReady version target => cases h
  | recordMerged version mergeSha => cases h
  | recordMergeFailed version e => cases h
  | reconcileMergeFailed version e => cases h
  | escalateToHuman version e => cases h

/-- A request comes to its transaction from its evidence phase. -/
theorem evaluated_leads (hmem : ∀ step commandId, phase = .gathering step commandId →
      ⟨step.request call commandId, s.db, rt⟩ ∈ s'.evaluations)
    (hleads : phase.Leads call rt s.db phase') : s'.Evaluated call phase' := by
  cases hleads with
  | @gathered step commandId ev session hgather =>
    intro step' commandId' ev' hphase
    cases hphase
    exact ⟨s.db, rt, hmem step commandId rfl, session, hgather⟩
  | replayed hcached => exact Evaluated.after _ _
  | committed hcommit => exact Evaluated.after _ _
  | settled =>
    unfold Route.settle
    split
    · exact Evaluated.of_ne fun _ _ _ h => by cases h
    · exact Evaluated.of_ne fun _ _ _ h => by cases h
  | quiet hquiet => exact Evaluated.of_isQuiet hquiet
  | _ => exact Evaluated.of_ne fun _ _ _ h => by cases h

/-- Every request that is about to commit has made its evidence phase. -/
def AllEvaluated (s : MergeState) : Prop :=
  ∀ n route, s.routes n = some route → s.Evaluated route.call route.phase

theorem allEvaluated_next (s : MergeState) (e : MergeEvent) (h : s.AllEvaluated) :
    (s.next e).AllEvaluated := by
  intro k route' hroute'
  have hsub := s.evaluations_next e
  cases routes_next hroute' with
  | kept hroute => exact (h k route' hroute).mono hsub
  | arrived hcall => exact Evaluated.of_isQuiet trivial
  | @advanced _ rt route hroute =>
    have hnext : (s.next (.route k rt)).Evaluated route.call (route.advance rt s.db).2 :=
      evaluated_leads (fun step commandId hphase => mem_evaluations_next hroute hphase)
        route.advances
    exact hnext
  | @answered _ behaviour message route target version hroute hphase =>
    refine Evaluated.of_ne fun step commandId ev h => ?_
    revert h
    generalize mergePullRequest target.key.prNumber
      (s.scm.reply target.options behaviour message) = outcome
    intro h
    cases outcome with
    | merged mergeSha => cases h
    | rejected e => cases h
    | thrown => cases h
  | ended hroute hquiet hdone => exact Evaluated.of_isQuiet hquiet

/-- A transaction that follows an evaluation of its own puts a run behind the gate on it. -/
theorem entersOn_of_did {request : Request} {ev : request.Evidence} {db' : Db} {run' : FeatureRun}
    (hdid : request.Did ev rt s.db db') (hrun' : run' ∈ db'.featureRuns.rows)
    (happroval : run'.currentExecutionState.isApproval = true)
    (hevaluated : request.command.isGated = true → ∃ db rt, ⟨request, db, rt⟩ ∈ s.evaluations ∧
      Evaluation.Returned ⟨request, db, rt⟩ ev) :
    s.db.HasRun run' ∨ ∃ evaluation ∈ s.evaluations, evaluation.Approved run'.id ∧
      evaluation.request.command.target = run'.currentExecutionState ∧
        ∃ pr, evaluation.Passed pr := by
  rcases hdid.enters hrun' happroval with hold | ⟨hgated, hid, htarget⟩
  · exact Or.inl hold
  · obtain ⟨db, rt', hmem, hreturned⟩ := hevaluated hgated
    have happroved : Evaluation.Approved ⟨request, db, rt'⟩ run'.id := ⟨hgated, hid, ev, hreturned⟩
    exact Or.inr ⟨_, hmem, happroved, htarget, happroved.passed⟩

/-- **What a step puts behind the gate.** -/
theorem entersOn_of_evaluated (s : MergeState) (e : MergeEvent)
    (h : s.AllEvaluated ∧ s.FollowsEvaluation e) :
    s.EntersOn (fun evaluation => ∃ pr, evaluation.Passed pr) e := by
  obtain ⟨hrequests, hfollows⟩ := h
  intro run' hrun' happroval
  have hstep := s.next_stepped e
  generalize s.next e = s' at hrun' hstep
  cases hstep with
  | @sys e =>
    cases e with
    | lock e =>
      have hruns := congrArg Db.featureRuns (LockEvent.next_withoutLocks s.db e)
      exact Or.inl (Db.HasRun.of_eq hruns hrun')
    | gather request rt =>
      have hruns := congrArg Db.featureRuns (SystemEvent.next_gather s.db request rt)
      exact Or.inl (Db.HasRun.of_eq hruns hrun')
    | commit request ev rt =>
      rcases SystemEvent.next_commit s.db request ev rt with hsame | hdid
      · exact Or.inl (Db.HasRun.of_eq (congrArg Db.featureRuns hsame) hrun')
      · exact entersOn_of_did hdid hrun' happroval hfollows
    | other db => exact Or.inl (hfollows run' hrun' happroval)
  | @synced featureRunId observed rt =>
    have hruns := congrArg Db.featureRuns (core_syncMirror featureRunId observed rt s.db)
    exact Or.inl (Db.HasRun.of_eq hruns hrun')
  | @advanced n rt route hroute =>
    rcases route.advance_did with hbare | ⟨step, commandId, ev, hphase, hdid⟩
    · exact Or.inl (Db.HasRun.of_eq (congrArg Db.featureRuns hbare) hrun')
    · exact entersOn_of_did hdid hrun' happroval fun _ =>
        hrequests n route hroute step commandId ev hphase
  | _ => exact Or.inl ⟨run', hrun', rfl, rfl⟩

end MergeState

open MergeState

/-- The run is under review, and its reviewer has not been at work yet. -/
def reviewState : MergeState where
  db := reviewedDb .underReview "A" "passed"

/-- The gate task's command. -/
def gateRequest : Request :=
  ⟨.recordApprovedByPolicy, sampleEnvelope .system "gate" ⟨"run-1", "P", 1⟩⟩

/-- What its evaluation returns. -/
def gateEvaluation : MergeGateEvaluationResult :=
  MergeGate.evaluation (sampleRuntime 0) reviewState.db ⟨"run-1", "P", "request-1"⟩ "i"

/-- The gate task runs before the review task. -/
def gateFirst : List MergeEvent := [
  .sys (.gather gateRequest (sampleRuntime 0)),
  .sys (.commit gateRequest gateEvaluation (sampleRuntime 1))]

theorem gateFirst_follows : Along next FollowsEvaluation reviewState gateFirst := by
  refine ⟨trivial, fun _ => ⟨reviewState.db, sampleRuntime 0, List.mem_singleton.mpr rfl, ?_⟩, trivial⟩
  have hgather : (exec (gateEvidence ⟨"run-1", "P", 1⟩ "gate")
      (.start reviewState.db (sampleRuntime 0))).1 = .ok gateEvaluation := by decide +kernel
  exact ⟨_, Prod.ext hgather rfl⟩

end MiniCoder
