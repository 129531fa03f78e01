import MiniCoder.Persistence.Client

/-!
# Project acceptance

`evaluateProjectAcceptance` asks the database what it can know about the acceptance of a project, one
query a check.  The `UPDATE` that completes a project repeats the checks as `NOT EXISTS` clauses
(`Db.acceptanceGuard`).

* `evaluateProjectAcceptance_ok`: what an evaluation returned.
* `acceptanceGuard_eq`: **the clauses and the checks agree on every database.**
-/

open Storage Storage.Action

namespace MiniCoder

/-! ### The queries -/

/-- A row of a query: its id, and the other columns that were selected. -/
structure CountRow where
  id : String
  columns : Payload
  deriving DecidableEq, Repr

/-- `status IN ('pending', 'processing') AND attempts >= 5`. -/
def isStuck (status : String) (attempts : ℕ) : Bool :=
  decide (status ∈ ["pending", "processing"]) && decide (5 ≤ attempts)

namespace Db

variable (db : Db) (projectId : String)

/-- `feature_requests freq … WHERE freq.project_id = ? AND freq.kind = 'feature'`. -/
def featuresOf : List FeatureRequest :=
  db.featureRequests.rows.filter fun freq => freq.projectId == projectId && freq.kind == .feature

/-- `feature_runs fr ON fr.feature_request_id = freq.id`. -/
def runsOf (freq : FeatureRequest) : List FeatureRun :=
  db.featureRuns.rows.filter fun fr => fr.featureRequestId == freq.id

/-- `feature_runs fr JOIN feature_requests freq … WHERE freq.project_id = ?`. -/
def runsInProject : List FeatureRun :=
  db.featureRuns.rows.filter fun fr =>
    db.featureRequests.rows.any fun freq => freq.id == fr.featureRequestId && freq.projectId == projectId

/-- The `LEFT JOIN`: a feature without a run is a row of its own. -/
def nonTerminalFeatures : List CountRow :=
  (db.featuresOf projectId).flatMap fun freq =>
    if (db.runsOf freq).isEmpty then [⟨freq.id, [("current_execution_state", .null)]⟩]
    else
      ((db.runsOf freq).filter fun fr => decide (fr.currentExecutionState ∉ [.merged, .skipped])).map
        fun fr => ⟨freq.id, [("current_execution_state", .str fr.currentExecutionState.literal)]⟩

def openEscalations : List CountRow :=
  ((db.runsInProject projectId).filter fun fr =>
    decide (fr.currentExecutionState ∈ [.humanRequired, .blocked])).map
      fun fr => ⟨fr.id, [("current_execution_state", .str fr.currentExecutionState.literal)]⟩

def unresolvedBlocking : List CountRow :=
  (db.reviewFindings.rows.filter fun rf =>
    (db.runsInProject projectId).any (fun fr => rf.featureRunId == fr.id) &&
      rf.severity == .blocking && rf.resolved == false).map
    fun rf => ⟨rf.id, [("feature_run_id", .str rf.featureRunId), ("description", .str rf.description)]⟩

def stuckOutbox : List CountRow :=
  (db.outboxEvents.rows.filter fun e => isStuck e.status e.attempts).map
    fun e => ⟨e.id, [("event_type", .str e.eventType)]⟩

def stuckInbox : List CountRow :=
  (db.inboxEvents.rows.filter fun e => isStuck e.status e.attempts).map
    fun e => ⟨e.id, [("event_type", .str e.eventType)]⟩

def failedExports : List CountRow :=
  (db.design.artifactExports.rows.filter fun a => a.projectId == projectId && a.state == .failed).map
    fun a => ⟨a.id, [("artifact_type", .str a.artifactType)]⟩

end Db

/-! ### The evaluation -/

structure ProjectAcceptanceCheck where
  name : String
  passed : Bool
  count : ℕ
  details : List CountRow
  deriving DecidableEq, Repr

structure ProjectAcceptanceResult where
  projectId : String
  passed : Bool
  checks : List ProjectAcceptanceCheck
  externalChecksNotVerified : List String
  deriving DecidableEq, Repr

def EXTERNAL_CHECKS_NOT_VERIFIED : List String := [
  "full test suite (unit + integration + system scenarios)",
  "migration validation (cross-dialect apply/rollback)",
  "build (typecheck across the ordered package chain)",
  "lint",
  "security scan (pnpm audit/OSV + gitleaks + semgrep)"]

/-- A check that passes when its query returns nothing. -/
def noRows (name : String) (rows : List CountRow) : ProjectAcceptanceCheck where
  name
  passed := rows.isEmpty
  count := rows.length
  details := rows

/-- `passed: checks.every((c) => c.passed)`. -/
def acceptanceResult (projectId : String) (checks : List ProjectAcceptanceCheck) :
    ProjectAcceptanceResult where
  projectId
  passed := checks.all (·.passed)
  checks
  externalChecksNotVerified := EXTERNAL_CHECKS_NOT_VERIFIED

/-- `evaluateProjectAcceptance`. -/
def evaluateProjectAcceptance (projectId : String) : Sql ProjectAcceptanceResult := do
  let nonTerminalFeatures ← query fun db => db.nonTerminalFeatures projectId
  let openEscalations ← query fun db => db.openEscalations projectId
  let unresolvedBlocking ← query fun db => db.unresolvedBlocking projectId
  let stuckOutbox ← query fun db => db.stuckOutbox
  let stuckInbox ← query fun db => db.stuckInbox
  let failedExports ← query fun db => db.failedExports projectId
  pure (acceptanceResult projectId [
    noRows "all_features_terminal" nonTerminalFeatures,
    noRows "no_open_human_required_or_blocked" openEscalations,
    noRows "no_unresolved_blocking_findings" unresolvedBlocking,
    noRows "no_stuck_outbox_inbox" (stuckOutbox ++ stuckInbox),
    noRows "no_failed_artifact_exports" failedExports])

/-- What an evaluation of one state of the database returns. -/
def Db.projectAcceptance (db : Db) (projectId : String) : ProjectAcceptanceResult :=
  acceptanceResult projectId [
    noRows "all_features_terminal" (db.nonTerminalFeatures projectId),
    noRows "no_open_human_required_or_blocked" (db.openEscalations projectId),
    noRows "no_unresolved_blocking_findings" (db.unresolvedBlocking projectId),
    noRows "no_stuck_outbox_inbox" (db.stuckOutbox ++ db.stuckInbox),
    noRows "no_failed_artifact_exports" (db.failedExports projectId)]

/-- The names of the checks that fail, as the errors list them. -/
def ProjectAcceptanceResult.failingNames (result : ProjectAcceptanceResult) : String :=
  ", ".intercalate ((result.checks.filter fun c => !c.passed).map (·.name))

/-- The `NOT EXISTS` clauses of the `UPDATE` of `MarkImplementationCompleteHandler`. -/
def Db.acceptanceGuard (db : Db) (projectId : String) : Bool :=
  !((db.featuresOf projectId).any fun freq => (db.runsOf freq).isEmpty ||
      (db.runsOf freq).any fun fr => decide (fr.currentExecutionState ∉ [.merged, .skipped])) &&
  !((db.runsInProject projectId).any fun fr =>
      decide (fr.currentExecutionState ∈ [.humanRequired, .blocked])) &&
  !(db.reviewFindings.rows.any fun rf =>
      (db.runsInProject projectId).any (fun fr => rf.featureRunId == fr.id) &&
        rf.severity == .blocking && rf.resolved == false) &&
  !(db.outboxEvents.rows.any fun e => isStuck e.status e.attempts) &&
  !(db.inboxEvents.rows.any fun e => isStuck e.status e.attempts) &&
  !(db.design.artifactExports.rows.any fun a => a.projectId == projectId && a.state == .failed)

/-! ### What an evaluation says -/

theorem evaluateProjectAcceptance_ok {projectId : String} {result : ProjectAcceptanceResult}
    {s s' : Session} (h : exec (evaluateProjectAcceptance projectId) s = (.ok result, s')) :
    result = s.db.projectAcceptance projectId ∧ s'.db = s.db ∧ s'.runtime = s.runtime := by
  obtain ⟨rows₁, s₁, hquery₁, h₁⟩ := exec_bind_ok.mp h
  obtain ⟨rows₂, s₂, hquery₂, h₂⟩ := exec_bind_ok.mp h₁
  obtain ⟨rows₃, s₃, hquery₃, h₃⟩ := exec_bind_ok.mp h₂
  obtain ⟨rows₄, s₄, hquery₄, h₄⟩ := exec_bind_ok.mp h₃
  obtain ⟨rows₅, s₅, hquery₅, h₅⟩ := exec_bind_ok.mp h₄
  obtain ⟨rows₆, s₆, hquery₆, h₆⟩ := exec_bind_ok.mp h₅
  obtain ⟨rfl, hdb₁, hrt₁⟩ := query_ok hquery₁
  obtain ⟨rfl, hdb₂, hrt₂⟩ := query_ok hquery₂
  obtain ⟨rfl, hdb₃, hrt₃⟩ := query_ok hquery₃
  obtain ⟨rfl, hdb₄, hrt₄⟩ := query_ok hquery₄
  obtain ⟨rfl, hdb₅, hrt₅⟩ := query_ok hquery₅
  obtain ⟨rfl, hdb₆, hrt₆⟩ := query_ok hquery₆
  obtain ⟨hresult, rfl⟩ := Prod.mk.inj h₆
  obtain rfl := Except.ok.inj hresult
  have hall₂ : s₂.db = s.db := hdb₂.trans hdb₁
  have hall₃ : s₃.db = s.db := hdb₃.trans hall₂
  have hall₄ : s₄.db = s.db := hdb₄.trans hall₃
  have hall₅ : s₅.db = s.db := hdb₅.trans hall₄
  refine ⟨?_, hdb₆.trans hall₅, ?_⟩
  · rw [hall₅, hall₄, hall₃, hall₂, hdb₁]
    rfl
  · rw [hrt₆, hrt₅, hrt₄, hrt₃, hrt₂, hrt₁]

theorem returns_evaluateProjectAcceptance {projectId : String} {s : Session} (hs : s.Willing) :
    Returns (evaluateProjectAcceptance projectId) s fun result s' =>
      result = s.db.projectAcceptance projectId ∧ s.Reads s' := by
  refine (returns_query hs _).bind fun rows₁ s₁ ⟨hrows₁, hreads₁⟩ => ?_
  refine (returns_query (hreads₁.willing hs) _).bind fun rows₂ s₂ ⟨hrows₂, hreads₂⟩ => ?_
  have hreads₂' := hreads₁.trans hreads₂
  refine (returns_query (hreads₂'.willing hs) _).bind fun rows₃ s₃ ⟨hrows₃, hreads₃⟩ => ?_
  have hreads₃' := hreads₂'.trans hreads₃
  refine (returns_query (hreads₃'.willing hs) _).bind fun rows₄ s₄ ⟨hrows₄, hreads₄⟩ => ?_
  have hreads₄' := hreads₃'.trans hreads₄
  refine (returns_query (hreads₄'.willing hs) _).bind fun rows₅ s₅ ⟨hrows₅, hreads₅⟩ => ?_
  have hreads₅' := hreads₄'.trans hreads₅
  refine (returns_query (hreads₅'.willing hs) _).bind fun rows₆ s₆ ⟨hrows₆, hreads₆⟩ => ?_
  refine returns_pure ⟨?_, hreads₅'.trans hreads₆⟩
  rw [hrows₁, hrows₂, hrows₃, hrows₄, hrows₅, hrows₆, hreads₁.db, hreads₂'.db, hreads₃'.db,
    hreads₄'.db, hreads₅'.db]
  rfl

/-- A query with a filter returns nothing if and only if no row satisfies it. -/
theorem isEmpty_filter_map {α β : Type} (p : α → Bool) (f : α → β) (l : List α) :
    ((l.filter p).map f).isEmpty = !l.any p := by
  rw [List.isEmpty_map, Bool.eq_iff_iff, List.isEmpty_iff, List.filter_eq_nil_iff]
  simp

/-- **The clauses of the `UPDATE` and the checks of the evaluation agree on every database.** -/
theorem acceptanceGuard_eq (db : Db) (projectId : String) :
    db.acceptanceGuard projectId = (db.projectAcceptance projectId).passed := by
  have hfeatures : (db.nonTerminalFeatures projectId).isEmpty =
      !((db.featuresOf projectId).any fun freq => (db.runsOf freq).isEmpty ||
        (db.runsOf freq).any fun fr => decide (fr.currentExecutionState ∉ [.merged, .skipped])) := by
    rw [Bool.eq_iff_iff, List.isEmpty_iff, Db.nonTerminalFeatures, List.flatMap_eq_nil_iff,
      Bool.not_eq_true', List.any_eq_false]
    refine forall₂_congr fun freq _ => ?_
    by_cases hnone : (db.runsOf freq).isEmpty = true
    · simp [hnone]
    · rw [if_neg hnone, ← List.isEmpty_iff, isEmpty_filter_map]
      simp [hnone]
  have hrest : (db.projectAcceptance projectId).passed =
      ((db.nonTerminalFeatures projectId).isEmpty && ((db.openEscalations projectId).isEmpty &&
        ((db.unresolvedBlocking projectId).isEmpty && ((db.stuckOutbox ++ db.stuckInbox).isEmpty &&
          ((db.failedExports projectId).isEmpty && true))))) := rfl
  have hstuck : (db.stuckOutbox ++ db.stuckInbox).isEmpty =
      (db.stuckOutbox.isEmpty && db.stuckInbox.isEmpty) := by
    rw [Bool.eq_iff_iff, Bool.and_eq_true, List.isEmpty_iff, List.isEmpty_iff, List.isEmpty_iff,
      List.append_eq_nil_iff]
  rw [hrest, hfeatures, hstuck, Db.openEscalations, isEmpty_filter_map, Db.unresolvedBlocking,
    isEmpty_filter_map, Db.failedExports, isEmpty_filter_map, Db.stuckOutbox,
    isEmpty_filter_map, Db.stuckInbox, isEmpty_filter_map, Db.acceptanceGuard]
  simp only [Bool.and_assoc, Bool.and_true]

end MiniCoder
