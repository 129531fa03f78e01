import Mathlib.Data.Finset.Max
import Mathlib.Data.Prod.Lex
import Mathlib.Data.String.Basic
import MiniCoder.System

/-!
# The approvals that the merge gate reads

The dispositions of a run append their decisions to `human_approvals`, and the gate asks the table for
one that is `rejected` or `deferred`.  The query filters by the decision first and takes the latest of
what is left, so an `approved` record supersedes none before it.

* `Db.LatestApproval`: the run's most recent record, in the order of the query.
* `reports_iff`: the gate reports an approval as outstanding if any record of the run is one.
* `reports_latest_iff`: **the report follows the latest record**, except where an approved one comes
  after one that is not.
* `commit_approvals`: a command appends the record of its disposition, and no other.
* `rejected_throughout`: a run that was once rejected or deferred is never approved again.
-/

open Storage Storage.Action Runs

namespace MiniCoder

/-- `updated_at`, then `id`: what the query orders by. -/
def HumanApproval.recency (a : HumanApproval) : ℤ ×ₗ String := toLex (a.updatedAt, a.id)

/-- Rejected, or left deferred. -/
def HumanApproval.Outstanding (a : HumanApproval) : Prop :=
  a.decision = .rejected ∨ a.decision = .deferred

theorem HumanApproval.outstanding_iff {a : HumanApproval} :
    a.Outstanding ↔ a.decision ≠ .approved := by
  unfold Outstanding
  cases a.decision with
  | approved => simp
  | rejected => simp
  | deferred => simp

namespace Db

/-- The approval records of a run. -/
def approvalsOf (db : Db) (featureRunId : String) : List HumanApproval :=
  db.humanApprovals.select fun a => a.featureRunId == some featureRunId

theorem mem_approvalsOf {db : Db} {featureRunId : String} {a : HumanApproval} :
    a ∈ db.approvalsOf featureRunId ↔
      a ∈ db.humanApprovals.rows ∧ a.featureRunId = some featureRunId := by
  rw [approvalsOf, Table.select, List.mem_filter, beq_iff_eq]

/-- The most recent approval record of a run. -/
structure LatestApproval (db : Db) (featureRunId : String) (a : HumanApproval) : Prop where
  mem : a ∈ db.approvalsOf featureRunId
  last : ∀ a' ∈ db.approvalsOf featureRunId, a'.recency ≤ a.recency

/-- A run with a record has a most recent one. -/
theorem exists_latestApproval {db : Db} {featureRunId : String} {a : HumanApproval}
    (h : a ∈ db.approvalsOf featureRunId) : ∃ latest, db.LatestApproval featureRunId latest := by
  have hnonempty : (db.approvalsOf featureRunId).toFinset.Nonempty :=
    ⟨a, List.mem_toFinset.mpr h⟩
  obtain ⟨latest, hmem, hlast⟩ :=
    Finset.exists_max_image (db.approvalsOf featureRunId).toFinset HumanApproval.recency hnonempty
  exact ⟨latest, List.mem_toFinset.mp hmem, fun a' ha' => hlast a' (List.mem_toFinset.mpr ha')⟩

/-- There is one most recent record at most: no two rows have one id. -/
theorem LatestApproval.unique {db : Db} {featureRunId : String} {a a' : HumanApproval}
    (h : db.LatestApproval featureRunId a) (h' : db.LatestApproval featureRunId a') : a' = a := by
  have hrecency : a'.recency = a.recency := le_antisymm (h.last a' h'.mem) (h'.last a h.mem)
  have hid : a'.id = a.id := congrArg (fun key => (ofLex key).2) hrecency
  exact db.humanApprovals.eq_of_clash (mem_approvalsOf.mp h'.mem).1 (mem_approvalsOf.mp h.mem).1
    (decide_eq_true hid)

end Db

/-! ### What an evaluation reports -/

section Evaluation

variable {params : EvaluateMergeGateParams} {s s' : Session} {result : MergeGateEvaluationResult}

/-- **The gate reports an outstanding approval if any record of the run is one.** -/
theorem reports_iff (h : exec (evaluateMergeGate params) s = (.ok result, s')) :
    result.humanApprovalRequired = true ↔
      ∃ a ∈ s.db.approvalsOf params.featureRunId, a.Outstanding := by
  obtain ⟨⟨id, rfl⟩, -⟩ := evaluateMergeGate_ok h
  show (MergeGate.outstandingApproval s.db params).isSome = true ↔ _
  have hnone : MergeGate.outstandingApproval s.db params = none ↔
      ∀ a ∈ s.db.humanApprovals.rows, a.featureRunId = some params.featureRunId →
        a.decision = .approved := MergeGate.outstandingApproval_eq_none
  constructor
  · intro hsome
    by_contra hall
    refine Option.isSome_iff_ne_none.mp hsome (hnone.mpr fun a ha hof => ?_)
    by_contra hdecision
    exact hall ⟨a, Db.mem_approvalsOf.mpr ⟨ha, hof⟩, HumanApproval.outstanding_iff.mpr hdecision⟩
  · rintro ⟨a, ha, houtstanding⟩
    refine Option.isSome_iff_ne_none.mpr fun hempty => ?_
    obtain ⟨hrow, hof⟩ := Db.mem_approvalsOf.mp ha
    exact HumanApproval.outstanding_iff.mp houtstanding (hnone.mp hempty a hrow hof)

/-- **The report follows the latest record** exactly when no approved record has come after one that is
rejected or deferred and stands as the latest; and where the gate reports one, it does not approve. -/
theorem reports_latest_iff (h : exec (evaluateMergeGate params) s = (.ok result, s')) :
    ((result.humanApprovalRequired = true ↔
        ∃ a, s.db.LatestApproval params.featureRunId a ∧ a.Outstanding) ↔
      ∀ a, s.db.LatestApproval params.featureRunId a → a.decision = .approved →
        ∀ a' ∈ s.db.approvalsOf params.featureRunId, a'.decision = .approved) ∧
    (result.humanApprovalRequired = true → result.decision = .rejected) := by
  have hreports := reports_iff h
  refine ⟨⟨fun hfollows a hlatest happroved a' ha' => ?_, fun hsettled => ?_⟩, fun hrequired => ?_⟩
  · by_contra hdecision
    obtain ⟨b, hb, houtstanding⟩ := hfollows.mp
      (hreports.mpr ⟨a', ha', HumanApproval.outstanding_iff.mpr hdecision⟩)
    rw [hlatest.unique hb] at houtstanding
    exact HumanApproval.outstanding_iff.mp houtstanding happroved
  · rw [hreports]
    constructor
    · rintro ⟨a, ha, houtstanding⟩
      obtain ⟨latest, hlatest⟩ := Db.exists_latestApproval ha
      refine ⟨latest, hlatest, HumanApproval.outstanding_iff.mpr fun happroved => ?_⟩
      exact HumanApproval.outstanding_iff.mp houtstanding (hsettled latest hlatest happroved a ha)
    · rintro ⟨a, hlatest, houtstanding⟩
      exact ⟨a, hlatest.mem, houtstanding⟩
  · obtain ⟨a, ha, houtstanding⟩ := hreports.mp hrequired
    obtain ⟨hrow, hof⟩ := Db.mem_approvalsOf.mp ha
    obtain ⟨⟨id, rfl⟩, -⟩ := evaluateMergeGate_ok h
    show MergeGate.decision s.runtime s.db params = .rejected
    cases hdecision : MergeGate.decision s.runtime s.db params with
    | rejected => rfl
    | approved =>
      obtain ⟨pr, hpassed⟩ := MergeGate.approved_iff.mp hdecision
      exact absurd (hpassed.approvals a hrow hof) (HumanApproval.outstanding_iff.mp houtstanding)

end Evaluation

/-! ### What the commands append -/

/-- The decision that a disposition of a run records. -/
def FeatureCommand.decision : FeatureCommand → Option ApprovalDecision
  | retryFeature | resumeFeatureExecution | resolveDisagreement | humanUnblockFeature =>
    some .approved
  | blockFeature => some .deferred
  | skipFeature => some .rejected
  | _ => none

/-- What a request adds to the records of its run. -/
def Request.records (request : Request) : List (Option String × ApprovalDecision) :=
  (request.command.decision.map fun decision => (some request.ref.featureRunId, decision)).toList

/-- The record of an approval is appended to the table. -/
theorem recordApproval_ok {opts : HumanApprovalOpts} {s s' : Session}
    (h : exec (recordApproval opts) s = (.ok (), s')) :
    ∃ a : HumanApproval, s'.db.humanApprovals.rows = s.db.humanApprovals.rows ++ [a] ∧
      a.featureRunId = opts.featureRunId ∧ a.decision = opts.decision := by
  obtain ⟨id, s₁, hinsert, h₁⟩ := exec_bind_ok.mp h
  obtain ⟨-, rfl⟩ := Prod.mk.inj h₁
  obtain ⟨id', s₂, hid, h₂⟩ := exec_bind_ok.mp hinsert
  obtain ⟨-, rfl⟩ := Prod.mk.inj hid
  obtain ⟨now, s₃, hnow, h₃⟩ := exec_bind_ok.mp h₂
  obtain ⟨-, rfl⟩ := Prod.mk.inj hnow
  obtain ⟨_, s₄, hrow, h₄⟩ := exec_bind_ok.mp h₃
  obtain ⟨-, rfl⟩ := Prod.mk.inj h₄
  obtain ⟨hdb, -⟩ := execute_ok hrow
  obtain ⟨table, htable, hput⟩ := Option.map_eq_some_iff.mp hdb
  have hrows := Table.rows_insert? htable
  rw [← (Prod.mk.inj hput).2]
  exact ⟨_, hrows, rfl, rfl⟩

/-- A run that is given up is released, and the decision recorded. -/
theorem giveUp_ok {ref : FeatureRunRef} {approval : HumanApprovalOpts} {s s' : Session}
    (h : exec (giveUp ref approval) s = (.ok (), s')) :
    ∃ a : HumanApproval, s'.db.humanApprovals.rows = s.db.humanApprovals.rows ++ [a] ∧
      a.featureRunId = approval.featureRunId ∧ a.decision = approval.decision := by
  obtain ⟨_, s₁, hrelease, hrecord⟩ := exec_bind_ok.mp h
  have hkept : s₁.db.humanApprovals = s.db.humanApprovals :=
    (frame_releaseProject (π := fun s : Session => s.db.humanApprovals) (fun _ _ _ => rfl)
      (fun _ _ => rfl)).of_exec hrelease
  rw [← hkept]
  exact recordApproval_ok hrecord

section Commands

/-- The table of the approvals. -/
abbrev approvalView (s : Session) : Table HumanApproval := s.db.humanApprovals

theorem seesData_approvalView : SeesData approvalView := fun _ _ _ => rfl

theorem frame_resolve_approvals (payload : RecordCodePushedPayload) :
    Frame approvalView payload.resolve := by
  unfold RecordCodePushedPayload.resolve
  split
  · exact frame_pure _
  · exact frame_resolveFindings seesData_approvalView (fun _ _ => rfl) (fun _ _ => rfl) _ _

theorem frame_resumeGuard_approvals (envelope : CommandEnvelope ResumeFeatureExecutionPayload) :
    Frame approvalView (resumeGuard envelope) := by
  unfold resumeGuard
  split
  · exact frame_pure _
  · exact frame_bind (frame_settleDisagreement seesData_approvalView (fun _ _ => rfl) _ _ _ _)
      fun _ => frame_pure _

theorem frame_cascade_approvals (ref : FeatureRunRef) (actorId : String) (run : FeatureRun) :
    Frame approvalView (cascadeSkip ref actorId run) := by
  have hretry : ∀ featureRunId attempts version,
      Frame approvalView (blockDependent featureRunId attempts version) := by
    intro featureRunId attempts
    induction attempts with
    | zero => exact fun version => frame_pure _
    | succ attempts ih =>
      intro version
      refine frame_bind (frame_execute seesData_approvalView fun s n db h => ?_) fun affected =>
        frame_ite (frame_pure _) (frame_bind (frame_query seesData_approvalView _) fun fresh => ?_)
      · obtain ⟨-, rfl⟩ := Prod.mk.inj (Option.some.inj h)
        rfl
      · rcases fresh with _ | fresh
        · exact frame_pure _
        · exact frame_ite (frame_pure _) (ih fresh.version)
  have hrecord : ∀ id, Frame approvalView (recordBlockedDependent ref actorId id) := fun id =>
    frame_bind (frame_writeWorkflowEvent seesData_approvalView (fun _ _ => rfl) _) fun _ =>
      frame_bind (frame_writeOutboxEvent seesData_approvalView (fun _ _ => rfl) _ _) fun _ =>
      frame_pure _
  refine frame_bind (frame_query seesData_approvalView _) fun dependents => ?_
  induction dependents with
  | nil => exact frame_pure _
  | cons dependent dependents ih =>
    exact frame_bind (frame_orThrow _) fun _ => frame_bind (hretry _ _ _) fun _ =>
      frame_ite (frame_bind (hrecord _) fun _ => ih) ih

variable {request : Request} {s s' : Session}

/-- **A transaction appends the record of its disposition**, and no other. -/
theorem commit_approvals {ev : request.Evidence} {result : CommandResult}
    (h : exec (request.commit ev) s = (.ok result, s')) (hchanged : s'.db ≠ s.db) :
    ∃ new, s'.db.humanApprovals.rows = s.db.humanApprovals.rows ++ new ∧
      new.map (fun a => (a.featureRunId, a.decision)) = request.records := by
  rcases Request.commit_worked h with hsame | ⟨s₁, s₂, keys, hs₁, -, hwork, hs'⟩
  · exact absurd hsame hchanged
  · have hstart : s₁.db.humanApprovals = s.db.humanApprovals := by rw [hs₁]
    have hend : s'.db.humanApprovals = s₂.db.humanApprovals := by rw [hs']
    rw [hend, ← hstart]
    -- a transition whose side effects record no decision
    have hsilent : ∀ {P : Type} {envelope : CommandEnvelope P} {t : Transition},
        exec (runTransition envelope t) s₁ = (.ok result, s₂) →
        request.records = [] → Frame approvalView t.prologue →
        (∀ run, Frame approvalView (t.guard run)) → Frame approvalView t.conflict →
        (∀ run checked, Frame approvalView (t.effects run checked)) →
        (∀ run, Frame approvalView (t.cascade run)) →
        ∃ new, s₂.db.humanApprovals.rows = s₁.db.humanApprovals.rows ++ new ∧
          new.map (fun a => (a.featureRunId, a.decision)) = request.records := by
      intro P envelope t hwork hnone hprologue hguard hconflict heffects hcascade
      have hkept : s₂.db.humanApprovals = s₁.db.humanApprovals :=
        (frame_runTransition_of (g := Db.humanApprovals) (fun _ _ => rfl) (fun _ _ => rfl)
          (fun _ _ => rfl) envelope hprologue hguard hconflict heffects hcascade).of_exec hwork
      exact ⟨[], by rw [hkept, List.append_nil], hnone.symm⟩
    -- one whose side effects record one
    have hrecorded : ∀ {P : Type} {envelope : CommandEnvelope P} {t : Transition}
        {featureRunId : Option String} {decision : ApprovalDecision},
        exec (runTransition envelope t) s₁ = (.ok result, s₂) →
        request.records = [(featureRunId, decision)] → Frame approvalView t.prologue →
        (∀ run, Frame approvalView (t.guard run)) → (∀ run, Frame approvalView (t.cascade run)) →
        (∀ run checked s₃ s₄, exec (t.effects run checked) s₃ = (.ok (), s₄) →
          ∃ a : HumanApproval, s₄.db.humanApprovals.rows = s₃.db.humanApprovals.rows ++ [a] ∧
            a.featureRunId = featureRunId ∧ a.decision = decision) →
        ∃ new, s₂.db.humanApprovals.rows = s₁.db.humanApprovals.rows ++ new ∧
          new.map (fun a => (a.featureRunId, a.decision)) = request.records := by
      intro P envelope t featureRunId decision hwork hone hprologue hguard hcascade heffects
      obtain ⟨run, checked, s₃, s₄, -, hbefore, hrun, hafter⟩ :=
        runTransition_effects (g := Db.humanApprovals) (fun _ _ => rfl) (fun _ _ => rfl)
          (fun _ _ => rfl) hprologue hguard hcascade hwork
      obtain ⟨a, hrows, hof, hdecision⟩ := heffects run checked s₃ s₄ hrun
      refine ⟨[a], ?_, ?_⟩
      · rw [hafter, hrows, hbefore]
      · rw [hone, List.map_singleton, hof, hdecision]
    have hpure : ∀ _ : FeatureRun, Frame approvalView (pure () : Sql Unit) := fun _ => frame_pure _
    have hidle : ∀ (_ : FeatureRun) (_ : Unit), Frame approvalView (pure () : Sql Unit) :=
      fun _ _ => frame_pure _
    have hlane : ∀ {P : Type} (name projectId : String) (envelope : CommandEnvelope P),
        Frame approvalView (requireExecutionLane name projectId envelope) :=
      fun name projectId envelope =>
        frame_requireExecutionLane seesData_approvalView name projectId envelope
    have hmerged : ∀ (run : FeatureRun) (correlationId : String) (detail : ℕ → String),
        Frame approvalView (assertDependenciesMerged run.featureRequestId correlationId detail) :=
      fun run correlationId detail => frame_assertDependenciesMerged seesData_approvalView _ detail
    have hfindings : ∀ (featureRunId : String) (reviewerRunId : Option String) (cycle : ℕ)
        (findings : List ReviewFindingInsert),
        Frame approvalView (insertReviewFindings featureRunId reviewerRunId cycle findings) :=
      fun _ _ _ _ =>
        frame_insertReviewFindings seesData_approvalView (fun _ _ => rfl) _ _ _ _
    rcases request with ⟨command, envelope⟩
    cases command with
    | selectFeature =>
      exact hsilent hwork rfl (frame_pure _) (fun run => hmerged run _ _) (frame_pure _)
        (fun _ _ => frame_claimProject seesData_approvalView fun _ _ => rfl) hpure
    | startCoding =>
      exact hsilent hwork rfl (frame_bind (hlane _ _ _) fun _ =>
        frame_assertActiveFeatureRun seesData_approvalView _) hpure
        (frame_automationConflict seesData_approvalView _ _) hidle hpure
    | startFixing =>
      exact hsilent hwork rfl (hlane _ _ _) hpure
        (frame_automationConflict seesData_approvalView _ _) hidle hpure
    | recordCodePushed =>
      exact hsilent hwork rfl (hlane _ _ _) hpure (frame_pure _)
        (fun _ _ => frame_resolve_approvals _) hpure
    | escalateToHuman =>
      exact hsilent hwork rfl (frame_pure _) hpure (frame_pure _) (fun _ _ => hfindings _ _ _ _) hpure
    | unblockFeature =>
      exact hsilent hwork rfl (frame_pure _) (fun run => hmerged run _ _) (frame_pure _) hidle hpure
    | recordMerged =>
      exact hsilent hwork rfl (frame_pure _) hpure (frame_pure _)
        (fun _ _ => frame_bind (frame_mergePullRequestRow seesData_approvalView (fun _ _ => rfl) _)
          fun _ => frame_releaseProject seesData_approvalView fun _ _ => rfl) hpure
    | recordMergeFailed | reconcileMergeFailed | recordCiPassed | recordApprovedByPolicy
    | mergeIfReady =>
      exact hsilent hwork rfl (frame_pure _) hpure (frame_pure _) hidle hpure
    | recordPrOpened =>
      exact hsilent hwork rfl (hlane _ _ _) hpure (frame_pure _)
        (fun _ _ => frame_insertPullRequestRow seesData_approvalView (fun _ _ => rfl) _) hpure
    | recordCiRunning => exact hsilent hwork rfl (hlane _ _ _) hpure (frame_pure _) hidle hpure
    | recordCiFailed =>
      exact hsilent hwork rfl (frame_pure _) hpure (frame_pure _) (fun _ _ => hfindings _ _ _ _) hpure
    | recordChangesRequested =>
      exact hsilent hwork rfl (frame_pure _) (fun run => frame_assertBelowFixThreshold run)
        (frame_pure _) (fun _ _ => hfindings _ _ _ _) hpure
    | requestChangesAfterCiFail =>
      exact hsilent hwork rfl (frame_pure _) (fun run => frame_assertBelowFixThreshold run)
        (frame_pure _) hidle hpure
    | retryFeature =>
      exact hrecorded hwork rfl (frame_pure _)
        (fun _ => frame_assertActiveFeatureRun seesData_approvalView _) hpure
        fun _ _ _ _ h => recordApproval_ok h
    | resumeFeatureExecution =>
      exact hrecorded hwork rfl (frame_pure _) (fun _ => frame_resumeGuard_approvals _) hpure
        fun _ _ _ _ h => recordApproval_ok h
    | resolveDisagreement =>
      exact hrecorded hwork rfl (frame_pure _)
        (fun _ => frame_settleDisagreement seesData_approvalView (fun _ _ => rfl) _ _ _ _) hpure
        fun _ _ _ _ h => recordApproval_ok h
    | humanUnblockFeature =>
      exact hrecorded hwork rfl (frame_pure _) (fun run => hmerged run _ _) hpure
        fun _ _ _ _ h => recordApproval_ok h
    | blockFeature =>
      exact hrecorded hwork rfl (frame_pure _) hpure hpure fun _ _ _ _ h => giveUp_ok h
    | skipFeature =>
      exact hrecorded hwork rfl (frame_pure _) hpure (fun run => frame_cascade_approvals _ _ run)
        fun _ _ _ _ h => giveUp_ok h

end Commands

/-! ### Runs -/

/-- A step outside the commands drops no record. -/
def SystemEvent.KeepsApprovals (db : Db) : SystemEvent → Prop
  | .other db' => ∀ a ∈ db.humanApprovals.rows, a ∈ db'.humanApprovals.rows
  | _ => True

/-- **No step drops a record.** -/
theorem SystemEvent.next_approvals {db : Db} {event : SystemEvent} (h : event.KeepsApprovals db) :
    ∀ a ∈ db.humanApprovals.rows, a ∈ (SystemEvent.next db event).humanApprovals.rows := by
  intro a ha
  cases event with
  | lock e =>
    have hrest := congrArg (fun db => db.humanApprovals) (LockEvent.next_withoutLocks db e)
    replace hrest : (LockEvent.next db e).humanApprovals = db.humanApprovals := hrest
    show a ∈ (LockEvent.next db e).humanApprovals.rows
    rw [hrest]
    exact ha
  | gather request rt =>
    have hrest := congrArg (fun db => db.humanApprovals) (SystemEvent.next_gather db request rt)
    replace hrest : (SystemEvent.next db (.gather request rt)).humanApprovals = db.humanApprovals :=
      hrest
    rw [hrest]
    exact ha
  | commit request ev rt =>
    show a ∈ (exec (request.commit ev) (.start db rt)).2.db.humanApprovals.rows
    rcases hcommit : exec (request.commit ev) (.start db rt) with ⟨e | result, s'⟩
    · have hsame : s'.db = db := Request.commit_error hcommit
      rw [hsame]
      exact ha
    · by_cases hchanged : s'.db = db
      · rw [hchanged]
        exact ha
      · obtain ⟨new, hrows, -⟩ := commit_approvals hcommit hchanged
        rw [hrows]
        exact List.mem_append_left _ ha
  | other db' => exact h a ha

/-- **A run that a human has once rejected or deferred is never approved again**: whatever the commands
do, every later evaluation of the gate rejects it. -/
theorem rejected_throughout {db : Db} {events : List SystemEvent} {featureRunId : String}
    {a : HumanApproval} (ha : a ∈ db.approvalsOf featureRunId) (houtstanding : a.Outstanding)
    (h : Along SystemEvent.next SystemEvent.KeepsApprovals db events) :
    Throughout SystemEvent.next (fun db => ∀ rt projectId featureRequestId,
      MergeGate.decision rt db ⟨featureRunId, projectId, featureRequestId⟩ = .rejected) db events := by
  obtain ⟨hrow, hof⟩ := Db.mem_approvalsOf.mp ha
  have hstep : ∀ (db : Db) (event : SystemEvent), a ∈ db.humanApprovals.rows →
      event.KeepsApprovals db → a ∈ (SystemEvent.next db event).humanApprovals.rows :=
    fun _ _ hmem hkeeps => SystemEvent.next_approvals hkeeps a hmem
  have hkept : Throughout SystemEvent.next (fun db => a ∈ db.humanApprovals.rows) db events :=
    throughout_of_step hstep hrow h
  refine hkept.imp fun db hmem rt projectId featureRequestId => ?_
  cases hdecision : MergeGate.decision rt db ⟨featureRunId, projectId, featureRequestId⟩ with
  | rejected => rfl
  | approved =>
    obtain ⟨pr, hpassed⟩ := MergeGate.approved_iff.mp hdecision
    exact absurd (hpassed.approvals a hmem hof) (HumanApproval.outstanding_iff.mp houtstanding)

/-- A project whose active run has been given to a human. -/
def sampleEscalatedDb : Db where
  featureRequests := .ofList [{ id := "request-1", projectId := "P", frId := "FR-1" }]
  featureRuns := .ofList [
    { id := "run-1", featureRequestId := "request-1", currentExecutionState := .humanRequired }]
  workflowStates := .ofList [{ id := "state", projectId := "P", activeFeatureRunId := some "run-1" }]

/-- The human blocks the run. -/
def sampleBlock : SystemEvent :=
  .commit ⟨.blockFeature, sampleEnvelope .human "block" {
    featureRunId := "run-1", projectId := "P", expectedVersion := 1, notes := "wait" }⟩ ()
    (sampleRuntime 1)

/-- The human unblocks it again. -/
def sampleUnblock : SystemEvent :=
  .commit ⟨.humanUnblockFeature, sampleEnvelope .human "unblock" {
    featureRunId := "run-1", projectId := "P", expectedVersion := 2, notes := "go on" }⟩ ()
    (sampleRuntime 2)

/-- The tables after these steps. -/
def sampleApprovals (events : List SystemEvent) : Db := SystemEvent.after sampleEscalatedDb events

/-- The evaluation of the gate for the run after these steps. -/
def sampleEvaluation (events : List SystemEvent) :
    Except Failure MergeGateEvaluationResult × Session :=
  exec (evaluateMergeGate ⟨"run-1", "P", "request-1"⟩)
    (.start (sampleApprovals events) (sampleRuntime 3))

/-- After the block, the report follows the latest record. -/
theorem reports_latest_iff_blocked :
    ∃ result, (sampleEvaluation [sampleBlock]).1 = .ok result ∧
      (result.humanApprovalRequired = true ↔
        ∃ a, (sampleApprovals [sampleBlock]).LatestApproval "run-1" a ∧ a.Outstanding) := by
  have hreturned : (sampleEvaluation [sampleBlock]).1.toOption.isSome = true := by decide +kernel
  have hdeferred : ∀ a ∈ (sampleApprovals [sampleBlock]).approvalsOf "run-1",
      a.decision ≠ .approved := by decide +kernel
  rcases hresult : sampleEvaluation [sampleBlock] with ⟨e | result, s'⟩
  · rw [hresult] at hreturned
    cases hreturned
  · exact ⟨result, rfl, (reports_latest_iff hresult).1.mpr fun a hlatest happroved =>
      absurd happroved (hdeferred a hlatest.mem)⟩

/-- The gate still reports the block, although the latest record is the approval of the unblock. -/
theorem reports_superseded :
    ∃ result, (sampleEvaluation [sampleBlock, sampleUnblock]).1 = .ok result ∧
      result.humanApprovalRequired = true ∧
      ¬ ∃ a, (sampleApprovals [sampleBlock, sampleUnblock]).LatestApproval "run-1" a ∧
        a.Outstanding := by
  have hreported : (sampleEvaluation [sampleBlock, sampleUnblock]).1.toOption.map
      (·.humanApprovalRequired) = some true := by
    decide +kernel
  have hlater : ∀ a ∈ (sampleApprovals [sampleBlock, sampleUnblock]).approvalsOf "run-1",
      a.decision ≠ .approved →
        ∃ b ∈ (sampleApprovals [sampleBlock, sampleUnblock]).approvalsOf "run-1",
          a.updatedAt < b.updatedAt := by
    decide +kernel
  rcases hresult : (sampleEvaluation [sampleBlock, sampleUnblock]).1 with e | result
  · rw [hresult] at hreported
    cases hreported
  · rw [hresult] at hreported
    refine ⟨result, rfl, Option.some.inj hreported, ?_⟩
    rintro ⟨a, hlatest, houtstanding⟩
    obtain ⟨b, hb, hbefore⟩ := hlater a hlatest.mem (HumanApproval.outstanding_iff.mp houtstanding)
    have hle := hlatest.last b hb
    rw [HumanApproval.recency, HumanApproval.recency, Prod.Lex.toLex_le_toLex] at hle
    rcases hle with hlt | ⟨heq, -⟩
    · exact absurd hbefore (not_lt.mpr (le_of_lt hlt))
    · exact absurd hbefore (not_lt.mpr (le_of_eq heq))

end MiniCoder
