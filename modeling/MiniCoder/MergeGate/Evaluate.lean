import Mathlib.Algebra.Ring.Rat
import MiniCoder.Commands.Transition

/-!
# The merge gate

`evaluateMergeGate` lists the reasons that speak against a merge and writes an evidence row, win or
lose.  It runs in a transaction of its own, before the transition it gates.

* `approved_iff`: the gate approves exactly when every one of its predicates holds (`GatePassed`).
* `evaluateMergeGate_ok`: it decides on the tables it read, and writes one evidence row
  and nothing else.
-/

open Storage Storage.Action

namespace MiniCoder

/-! ### Budgets -/

/-- `BudgetEvaluationStatus`. -/
inductive BudgetEvaluationStatus
  | ok
  | softBreach
  | hardBreach
  deriving DecidableEq, Repr

def BudgetEvaluationStatus.literal : BudgetEvaluationStatus → String
  | ok => "ok"
  | softBreach => "soft_breach"
  | hardBreach => "hard_breach"

namespace Db

/-- The active policy of a feature's budget that was updated last. -/
def findBudgetPolicy (db : Db) (projectId featureRequestId : String) (scope : BudgetScope) :
    Option BudgetPolicy :=
  db.budgetPolicies.last?
    (fun p => p.projectId == projectId && p.scope == scope &&
      p.featureRequestId == some featureRequestId && p.isActive)
    fun p p' => decide (p.updatedAt < p'.updatedAt) ||
      (p.updatedAt == p'.updatedAt && decide (p.id < p'.id))

/-- The spend of a feature, in the policy's window. -/
def totalSpend (db : Db) (projectId featureRequestId : String) (scope : BudgetScope)
    (windowDays : Option ℤ) (now : ℤ) : ℚ :=
  ((db.costRecords.select fun c => c.projectId == projectId && c.scope == scope &&
    c.featureRequestId == some featureRequestId &&
    windowDays.all fun days => decide (now - days * 24 * 60 * 60 * 1000 ≤ c.recordedAt)).map
      (·.amount)).sum

/-- `evaluateBudget`, its status: `none` without an active policy. -/
def evaluateBudget (db : Db) (projectId featureRequestId : String) (scope : BudgetScope)
    (now : ℤ) : Option BudgetEvaluationStatus :=
  (db.findBudgetPolicy projectId featureRequestId scope).map fun policy =>
    let spend := db.totalSpend projectId featureRequestId scope policy.windowDays now
    -- the hard limit first: a breach of both is a hard breach
    if policy.hardLimit.any fun limit => decide (limit ≤ spend) then .hardBreach
    else if policy.softLimit.any fun limit => decide (limit ≤ spend) then .softBreach
    else .ok

end Db

/-! ### The evaluation -/

/-- `MergeGateDecision`. -/
inductive MergeGateDecision
  | approved
  | rejected
  deriving DecidableEq, Repr

def MergeGateDecision.literal : MergeGateDecision → String
  | approved => "approved"
  | rejected => "rejected"

/-- `EvaluateMergeGateParams`. -/
structure EvaluateMergeGateParams where
  featureRunId : String
  projectId : String
  featureRequestId : String
  deriving DecidableEq, Repr

/-- `MergeGateEvaluationResult`. -/
structure MergeGateEvaluationResult where
  evaluationId : String
  decision : MergeGateDecision
  reasons : List String
  ciStatus : Option String
  reviewStatus : Option String
  unresolvedBlockingFindings : ℕ
  budgetStatus : BudgetEvaluationStatus
  humanApprovalRequired : Bool
  humanApprovalId : Option String
  branchProtectionOk : Bool
  deriving DecidableEq, Repr

/-- One `reasons.push`, under its condition. -/
def reasonIf (blocks : Prop) [Decidable blocks] (text : String) : List String :=
  if blocks then [text] else []

@[simp] theorem reasonIf_eq_nil {blocks : Prop} [Decidable blocks] {text : String} :
    reasonIf blocks text = [] ↔ ¬ blocks := by
  unfold reasonIf
  split <;> simp [*]

namespace MergeGate

variable (rt : Runtime) (db : Db) (params : EvaluateMergeGateParams)

def activeFeatureRunId : Option String :=
  (db.findWorkflowState params.projectId).bind (·.activeFeatureRunId)

def defaultBranch : Option String :=
  (db.repositories.find? fun r => r.projectId == params.projectId).map (·.defaultBranch)

def pullRequest : Option PullRequest := db.findPullRequest params.featureRunId

/-- `feature_run_id = ? AND resolved = FALSE AND severity IN ('blocking', …)`. -/
def isUnresolvedBlocking (finding : ReviewFinding) : Bool :=
  finding.featureRunId == params.featureRunId && !finding.resolved &&
    (finding.severity == .blocking || finding.severity == .requiresHumanDecision)

def unresolvedBlockingFindings : ℕ := db.reviewFindings.count (isUnresolvedBlocking params)

/-- The labels of the policy that the pull request carries. -/
def matchedBlockingLabels : List String :=
  match pullRequest db params with
  | none => []
  | some pr =>
    rt.blockingLabelsPolicy.filter fun label => label ∈ pr.blockingLabels.map rt.toLowerCase

def branchProtectionOk : Bool := (pullRequest db params).any (·.mergeable == some true)

def budgetStatus : BudgetEvaluationStatus :=
  (db.evaluateBudget params.projectId params.featureRequestId .feature rt.now).getD .ok

/-- `decision IN ('rejected', 'deferred')`, the run's latest. -/
def outstandingApproval : Option HumanApproval :=
  db.humanApprovals.last?
    (fun a => a.featureRunId == some params.featureRunId &&
      (a.decision == .rejected || a.decision == .deferred))
    fun a a' => decide (a.updatedAt < a'.updatedAt) ||
      (a.updatedAt == a'.updatedAt && decide (a.id < a'.id))

/-- The reasons against the pull request itself. -/
def pullRequestReasons : List String :=
  match pullRequest db params with
  | none => ["no pull request is tracked for this feature run yet"]
  | some pr =>
    reasonIf (pr.state ≠ "open") s!"pull request state is '{pr.state}', not 'open'" ++
    (match defaultBranch db params with
      | none => []
      | some branch => reasonIf (pr.baseBranch ≠ branch)
          (s!"pull request targets base branch '{pr.baseBranch}', not the repository's default " ++
            s!"branch '{branch}'")) ++
    reasonIf (pr.ciStatus ≠ "passed") s!"CI status is '{pr.ciStatus}', not 'passed'" ++
    reasonIf (pr.reviewState = "changes_requested")
      "GitHub reports outstanding review changes-requested"

/-- Every reason against the merge, in the order of the checks. -/
def reasons : List String :=
  let active := (activeFeatureRunId db params).getD "none"
  let labels := ", ".intercalate (matchedBlockingLabels rt db params)
  reasonIf (activeFeatureRunId db params ≠ some params.featureRunId)
    s!"feature run is not the project's active feature run (active: {active})" ++
  reasonIf (defaultBranch db params = none)
    "no repository is linked for this project; cannot verify the target base branch" ++
  pullRequestReasons db params ++
  reasonIf (unresolvedBlockingFindings db params > 0)
    (s!"{unresolvedBlockingFindings db params} unresolved " ++
      "blocking/requires-human-decision finding(s)") ++
  reasonIf (matchedBlockingLabels rt db params ≠ [])
    s!"blocking label(s) present: {labels}" ++
  reasonIf (branchProtectionOk db params = false)
    "pull request is not currently mergeable (branch protection / mergeability check)" ++
  reasonIf (budgetStatus rt db params ≠ .ok)
    s!"feature budget status is '{(budgetStatus rt db params).literal}'" ++
  (match outstandingApproval db params with
    | none => []
    | some a => [s!"a required human approval is '{a.decision.literal}', not 'approved'"])

def decision : MergeGateDecision :=
  if reasons rt db params = [] then .approved else .rejected

/-- The evaluation, before it is stored under an id. -/
def evaluation (evaluationId : String) : MergeGateEvaluationResult where
  evaluationId
  decision := decision rt db params
  reasons := reasons rt db params
  ciStatus := (pullRequest db params).map (·.ciStatus)
  reviewStatus := (pullRequest db params).map (·.reviewState)
  unresolvedBlockingFindings := unresolvedBlockingFindings db params
  budgetStatus := budgetStatus rt db params
  humanApprovalRequired := (outstandingApproval db params).isSome
  humanApprovalId := (outstandingApproval db params).map (·.id)
  branchProtectionOk := branchProtectionOk db params

end MergeGate

/-- The evidence row of an evaluation. -/
def MergeGateEvaluationResult.row (e : MergeGateEvaluationResult) (featureRunId : String)
    (now : ℤ) : MergeGateEvaluation where
  id := e.evaluationId
  featureRunId
  ciStatus := e.ciStatus
  reviewStatus := e.reviewStatus
  unresolvedBlockingFindings := e.unresolvedBlockingFindings
  budgetStatus := e.budgetStatus.literal
  humanApprovalRequired := e.humanApprovalRequired
  humanApprovalId := e.humanApprovalId
  branchProtectionOk := e.branchProtectionOk
  finalDecision := e.decision.literal
  evaluatedAt := now

/-- `evaluateMergeGate`: its reads, then the evidence row. -/
def evaluateMergeGate (params : EvaluateMergeGateParams) : Sql MergeGateEvaluationResult := do
  let rt ← read (·.runtime)
  let evaluation ← query fun db => MergeGate.evaluation rt db params
  let evaluationId ← generateId
  let now ← isoNow
  let result := evaluation evaluationId
  execute fun db => (db.mergeGateEvaluations.insert? (result.row params.featureRunId now)).map
    fun t => ((), { db with mergeGateEvaluations := t })
  pure result

/-! ### What the gate requires -/

/-- The predicates of the merge gate. -/
structure GatePassed (rt : Runtime) (db : Db) (params : EvaluateMergeGateParams)
    (pr : PullRequest) : Prop where
  active : MergeGate.activeFeatureRunId db params = some params.featureRunId
  tracked : db.findPullRequest params.featureRunId = some pr
  isOpen : pr.state = "open"
  base : MergeGate.defaultBranch db params = some pr.baseBranch
  ci : pr.ciStatus = "passed"
  review : pr.reviewState ≠ "changes_requested"
  findings : ∀ finding ∈ db.reviewFindings.rows,
    MergeGate.isUnresolvedBlocking params finding = false
  labels : ∀ label ∈ rt.blockingLabelsPolicy, label ∉ pr.blockingLabels.map rt.toLowerCase
  mergeable : pr.mergeable = some true
  budget : MergeGate.budgetStatus rt db params = .ok
  approvals : ∀ a ∈ db.humanApprovals.rows, a.featureRunId = some params.featureRunId →
    a.decision = .approved

namespace MergeGate

variable {rt : Runtime} {db : Db} {params : EvaluateMergeGateParams}

theorem pullRequestReasons_eq_nil : pullRequestReasons db params = [] ↔
    ∃ pr, db.findPullRequest params.featureRunId = some pr ∧ pr.state = "open" ∧
      (∀ branch, defaultBranch db params = some branch → pr.baseBranch = branch) ∧
      pr.ciStatus = "passed" ∧ pr.reviewState ≠ "changes_requested" := by
  unfold pullRequestReasons pullRequest
  rcases db.findPullRequest params.featureRunId with _ | pr
  · simp
  · rcases defaultBranch db params with _ | branch
    · simp
    · simp

theorem outstandingApproval_eq_none : outstandingApproval db params = none ↔
    ∀ a ∈ db.humanApprovals.rows, a.featureRunId = some params.featureRunId →
      a.decision = .approved := by
  rw [outstandingApproval, Table.last?_eq_none]
  refine forall₂_congr fun a _ => ?_
  rcases a with ⟨_, _, _, run, _, _, decision, _, _, _, _⟩
  by_cases hrun : run = some params.featureRunId
  · rcases decision <;> simp [hrun]
  · simp [hrun]

/-- **The gate approves exactly when all its predicates hold.** -/
theorem approved_iff :
    decision rt db params = .approved ↔ ∃ pr, GatePassed rt db params pr := by
  have hdecision : decision rt db params = .approved ↔ reasons rt db params = [] := by
    unfold decision
    split <;> simp [*]
  have hfindings : unresolvedBlockingFindings db params = 0 ↔ ∀ finding ∈ db.reviewFindings.rows,
      isUnresolvedBlocking params finding = false := Table.count_eq_zero
  have happrovals : (match outstandingApproval db params with
      | none => []
      | some a => [s!"a required human approval is '{a.decision.literal}', not 'approved'"]) = [] ↔
      ∀ a ∈ db.humanApprovals.rows, a.featureRunId = some params.featureRunId →
        a.decision = .approved := by
    rw [← outstandingApproval_eq_none]
    rcases outstandingApproval db params with _ | a <;> simp
  rw [hdecision]
  unfold reasons
  simp only [List.append_eq_nil_iff, reasonIf_eq_nil, happrovals, pullRequestReasons_eq_nil,
    not_not, Nat.not_lt, Nat.le_zero, gt_iff_lt, hfindings, Bool.not_eq_false, ne_eq]
  constructor
  · rintro ⟨⟨⟨⟨⟨⟨⟨hactive, hbranch⟩, pr, hpr, hopen, hbase, hci, hreview⟩, hfind⟩, hlabels⟩, hmerge⟩,
      hbudget⟩, happ⟩
    refine ⟨pr, {
      active := hactive
      tracked := hpr
      isOpen := hopen
      base := ?_
      ci := hci
      review := hreview
      findings := hfind
      labels := ?_
      mergeable := ?_
      budget := hbudget
      approvals := happ }⟩
    · obtain ⟨branch, hsome⟩ := Option.ne_none_iff_exists'.mp hbranch
      rw [hsome, hbase branch hsome]
    · rw [matchedBlockingLabels, pullRequest, hpr] at hlabels
      intro label hlabel hmem
      have hin := List.filter_eq_nil_iff.mp hlabels label hlabel
      exact hin (decide_eq_true hmem)
    · rw [branchProtectionOk, pullRequest, hpr] at hmerge
      simpa using hmerge
  · rintro ⟨pr, h⟩
    refine ⟨⟨⟨⟨⟨⟨⟨h.active, ?_⟩, pr, h.tracked, h.isOpen, ?_, h.ci, h.review⟩, h.findings⟩, ?_⟩, ?_⟩,
      h.budget⟩, h.approvals⟩
    · rw [h.base]
      exact Option.some_ne_none _
    · intro branch hbranch
      rw [h.base] at hbranch
      exact Option.some.inj hbranch
    · rw [matchedBlockingLabels, pullRequest, h.tracked]
      refine List.filter_eq_nil_iff.mpr fun label hlabel => ?_
      simpa using h.labels label hlabel
    · rw [branchProtectionOk, pullRequest, h.tracked]
      simp [h.mergeable]

end MergeGate

/-! ### What an evaluation did -/

/-- An evaluation writes its evidence row and nothing else. -/
theorem frame_evaluateMergeGate (params : EvaluateMergeGateParams) :
    Frame evidenceView (evaluateMergeGate params) := by
  refine frame_bind (frame_read _) fun rt =>
    frame_bind (frame_query seesData_evidenceView _) fun evaluation =>
    frame_bind (frame_generateId seesData_evidenceView) fun id =>
    frame_bind frame_isoNow fun now =>
    frame_bind (frame_execute seesData_evidenceView fun s _ db h => ?_) fun _ => frame_pure _
  obtain ⟨t, -, ht⟩ := Option.map_eq_some_iff.mp h
  rw [← (Prod.mk.inj ht).2]
  rfl

/-- **An evaluation decides on the tables it read**, and adds its evidence row to the table. -/
theorem evaluateMergeGate_ok {params : EvaluateMergeGateParams} {s s' : Session}
    {result : MergeGateEvaluationResult}
    (h : exec (evaluateMergeGate params) s = (.ok result, s')) :
    (∃ id, result = MergeGate.evaluation s.runtime s.db params id) ∧
      s'.db.mergeGateEvaluations.rows =
        s.db.mergeGateEvaluations.rows ++ [result.row params.featureRunId s.runtime.now] := by
  obtain ⟨rt, s₁, hread, h₁⟩ := exec_bind_ok.mp h
  obtain ⟨hrt, rfl⟩ := Prod.mk.inj hread
  obtain rfl := Except.ok.inj hrt
  obtain ⟨evaluation, s₂, hquery, h₂⟩ := exec_bind_ok.mp h₁
  obtain ⟨rfl, hdb₂, hrt₂⟩ := query_ok hquery
  obtain ⟨id, s₃, hid, h₃⟩ := exec_bind_ok.mp h₂
  obtain ⟨hids, rfl⟩ := Prod.mk.inj hid
  obtain ⟨now, s₄, hnow, h₄⟩ := exec_bind_ok.mp h₃
  obtain ⟨hnows, rfl⟩ := Prod.mk.inj hnow
  obtain rfl := Except.ok.inj hnows
  obtain ⟨u, s₅, hexec, h₅⟩ := exec_bind_ok.mp h₄
  obtain ⟨hins, -⟩ := execute_ok hexec
  obtain ⟨hresult, rfl⟩ := Prod.mk.inj h₅
  obtain rfl := Except.ok.inj hresult
  obtain ⟨t, ht, hdb⟩ := Option.map_eq_some_iff.mp hins
  refine ⟨⟨id, rfl⟩, ?_⟩
  rw [← (Prod.mk.inj hdb).2]
  show t.rows = _
  rw [Table.rows_insert? ht, ← hdb₂, ← hrt₂]

end MiniCoder
