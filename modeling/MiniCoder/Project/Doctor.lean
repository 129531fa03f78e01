import MiniCoder.Project.Acceptance

/-!
# The checks of the doctor

`runDoctorChecks` asks the database for what is out of order, one query a check.  Modelled are the
checks for events that are stuck, for runs that were orphaned, and for pushed code without a pull
request.

* `mem_reported`: the ids that a check reports.
-/

open Storage

namespace MiniCoder

/-! ### Checks -/

inductive DoctorSeverity
  | ok
  | warning
  | error
  deriving DecidableEq, Repr

structure DoctorCheck where
  name : String
  scope : Option String := none
  severity : DoctorSeverity
  autoClearable : Bool
  manuallyRepairable : Option Bool := none
  count : ℕ
  details : List CountRow
  deriving DecidableEq, Repr

/-- The ids that a check reports. -/
def DoctorCheck.reported (check : DoctorCheck) : List String := check.details.map (·.id)

/-- What differs from one of the checks to the next. -/
structure DoctorRule where
  name : String
  scope : Option String := none
  /-- The severity, if there is something to report. -/
  found : DoctorSeverity
  autoClearable : Bool := false
  manuallyRepairable : Option Bool := none

def DoctorRule.check (rule : DoctorRule) (rows : List CountRow) : DoctorCheck where
  name := rule.name
  scope := rule.scope
  severity := if 0 < rows.length then rule.found else .ok
  autoClearable := rule.autoClearable
  manuallyRepairable := rule.manuallyRepairable
  count := rows.length
  details := rows

/-! ### Stuck events -/

/-- The rows of a query with a filter. -/
def rowsWhere {ρ : Type} (rows : List ρ) (p : ρ → Bool) (row : ρ → CountRow) : List CountRow :=
  (rows.filter p).map row

def stuckOutboxCheck (db : Db) : DoctorCheck :=
  DoctorRule.check
    { name := "stuck_outbox", scope := some "global", found := .error, autoClearable := true }
    (rowsWhere db.outboxEvents.rows (fun e => isStuck e.status e.attempts)
      fun e => ⟨e.id, [("event_type", .str e.eventType), ("attempts", .num e.attempts)]⟩)

def stuckInboxCheck (db : Db) : DoctorCheck :=
  DoctorRule.check
    { name := "stuck_inbox", scope := some "global", found := .error, autoClearable := true }
    (rowsWhere db.inboxEvents.rows (fun e => isStuck e.status e.attempts)
      fun e => ⟨e.id, [("event_type", .str e.eventType), ("attempts", .num e.attempts)]⟩)

/-! ### Runs -/

def ORPHANED_RUN_THRESHOLD_MS : ℤ := 2 * 60 * 60 * 1000

def PUSHED_NO_PR_THRESHOLD_MS : ℤ := 30 * 60 * 1000

/-- The states that the query for orphaned runs leaves out. -/
def notOrphanedStates : List FeatureExecutionState :=
  [.merged, .humanRequired, .blocked, .failed, .systemFailed, .ciFailed, .mergeFailed]

namespace Db

variable (db : Db) (projectId : Option String) (threshold : ℤ) (run : FeatureRun)

/-- `JOIN feature_requests freq ON fr.feature_request_id = freq.id`, of one project or of all. -/
def inScope : Bool :=
  db.featureRequests.rows.any fun freq =>
    freq.id == run.featureRequestId && projectId.all (freq.projectId == ·)

/-- `fr.id NOT IN (SELECT active_feature_run_id FROM workflow_states …)`. -/
def isActiveNowhere : Bool :=
  !(db.workflowStates.rows.any fun ws => ws.activeFeatureRunId == some run.id)

/-- `LEFT JOIN pull_requests pr ON pr.feature_run_id = fr.id … pr.id IS NULL`. -/
def hasNoPullRequest : Bool := !(db.pullRequests.rows.any fun pr => pr.featureRunId == run.id)

/-- The `WHERE` of the query for orphaned runs. -/
def isOrphaned : Bool :=
  run.endedAt.isNone && decide (run.currentExecutionState ∉ notOrphanedStates) &&
    db.isActiveNowhere run && run.startedAt.any (fun startedAt => decide (startedAt < threshold)) &&
    db.inScope projectId run

/-- The `WHERE` of the query for pushed code without a pull request. -/
def isPushedWithoutPullRequest : Bool :=
  run.currentExecutionState == .codePushed && db.hasNoPullRequest run &&
    run.startedAt.any (fun startedAt => decide (startedAt < threshold)) && db.inScope projectId run

end Db

/-- `fr.started_at`, as a query returns it. -/
def FeatureRun.startedAtColumn (run : FeatureRun) : Scalar :=
  (run.startedAt.map Scalar.num).getD .null

def orphanedRunsCheck (db : Db) (projectId : Option String) (now : ℤ) : DoctorCheck :=
  DoctorRule.check { name := "orphaned_runs", found := .error, manuallyRepairable := some true }
    (rowsWhere db.featureRuns.rows (db.isOrphaned projectId (now - ORPHANED_RUN_THRESHOLD_MS))
      fun run => ⟨run.id, [("current_execution_state", .str run.currentExecutionState.literal),
        ("started_at", run.startedAtColumn)]⟩)

def codePushedNoPullRequestCheck (db : Db) (projectId : Option String) (now : ℤ) : DoctorCheck :=
  DoctorRule.check
    { name := "code_pushed_no_pull_request", found := .warning, manuallyRepairable := some true }
    (rowsWhere db.featureRuns.rows
      (db.isPushedWithoutPullRequest projectId (now - PUSHED_NO_PR_THRESHOLD_MS))
      fun run => ⟨run.id, [("started_at", run.startedAtColumn)]⟩)

/-! ### What is reported -/

theorem mem_reported {ρ : Type} {rule : DoctorRule} {rows : List ρ} {p : ρ → Bool}
    {row : ρ → CountRow} {id : String} :
    id ∈ (rule.check (rowsWhere rows p row)).reported ↔ ∃ r ∈ rows, p r = true ∧ (row r).id = id := by
  show id ∈ ((rows.filter p).map row).map (·.id) ↔ _
  rw [List.map_map, List.mem_map]
  refine exists_congr fun r => ?_
  rw [List.mem_filter, and_assoc]
  rfl

end MiniCoder
