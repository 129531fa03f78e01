import MiniCoder.Tasks.Truthful

/-!
# The review findings that are stored

Findings are inserted by the commands that record a failed check, request changes or escalate, and by
the transaction of a clean review; a finding whose id is taken is dropped.  The id of a finding is
made of its run, its review cycle and its index, and the writers number the cycles in different ways:
a review pass takes the highest cycle it has read plus one, a failed check the number of fix attempts
plus one.

* `inserts_ok`: what each of these transactions leaves.
* `beginReview_cycle`: the cycle of a review pass, against the findings stored before it began.
* `findings_kept`: in a history of them, **no finding is lost and every review cycle is fresh** exactly
  when no other finding has the id of one that is inserted, and the task can read its cycle.
-/

open Storage Storage.Action Runs

namespace MiniCoder

/-! ### What a command inserts -/

/-- The rows that a command inserts for its run. -/
def Request.findings : Request → FeatureRun → List ReviewFinding
  | ⟨.recordCiFailed, envelope⟩, run =>
    findingRows envelope.payload.featureRunId none (run.fixAttemptCount + 1)
      [envelope.payload.finding]
  | ⟨.recordChangesRequested, envelope⟩, run =>
    findingRows envelope.payload.featureRunId envelope.payload.reviewerRunId
      (envelope.payload.reviewCycle.getD (run.fixAttemptCount + 1))
      (envelope.payload.findings.getD [])
  | ⟨.escalateToHuman, envelope⟩, _ =>
    findingRows envelope.payload.featureRunId envelope.payload.reviewerRunId
      (envelope.payload.reviewCycle.getD 1) (envelope.payload.findings.getD [])
  | _, _ => []

section Commands

variable {request : Request} {s s' : Session} {run : FeatureRun}

theorem Request.pairwise_findings :
    (request.findings run).Pairwise fun row row' => Row.clash row row' = false := by
  unfold Request.findings
  split
  · exact pairwise_findingRows
  · exact pairwise_findingRows
  · exact pairwise_findingRows
  · exact List.Pairwise.nil

/-- **The findings that a command leaves**, when no live result answered it: its own, where no other
finding had their ids. -/
theorem commit_findings {ev : request.Evidence} {result : CommandResult}
    (huncached : request.cachedResult s.runtime.now s.db = none)
    (hrun : s.db.findFeatureRun request.ref.featureRunId request.ref.projectId = some run)
    (hfindings : request.findings run ≠ [])
    (h : exec (request.commit ev) s = (.ok result, s')) :
    s'.db.reviewFindings = s.db.reviewFindings.insertAll (request.findings run) := by
  have hmoved : s'.db ≠ s.db := by
    rcases Request.commit_cases h with ⟨-, hlive⟩ | ⟨-, hdid, -⟩
    · exact absurd huncached hlive
    · exact hdid.ne
  rcases Request.commit_worked h with hsame | ⟨s₁, s₂, keys, hs₁, -, hwork, hs'⟩
  · exact absurd hsame hmoved
  · have hstart : s₁.db.reviewFindings = s.db.reviewFindings := by rw [hs₁]
    have hend : s'.db.reviewFindings = s₂.db.reviewFindings := by rw [hs']
    have hfound : s₁.db.findFeatureRun request.ref.featureRunId request.ref.projectId = some run := by
      rw [hs₁]
      exact hrun
    rw [hend, ← hstart]
    rcases request with ⟨command, envelope⟩
    cases command
    case recordCiFailed | escalateToHuman =>
      obtain ⟨run', checked, s₃, s₄, hrun', hbefore, heffects, hafter⟩ :=
        runTransition_effects (g := Db.reviewFindings) (fun _ _ => rfl) (fun _ _ => rfl)
          (fun _ _ => rfl) (frame_pure _) (fun _ => frame_pure _) (fun _ => frame_pure _) hwork
      obtain rfl := Option.some.inj (hfound.symm.trans hrun')
      rw [hafter, insertReviewFindings_ok heffects, hbefore]
      rfl
    case recordChangesRequested =>
      obtain ⟨run', checked, s₃, s₄, hrun', hbefore, heffects, hafter⟩ :=
        runTransition_effects (g := Db.reviewFindings) (fun _ _ => rfl) (fun _ _ => rfl)
          (fun _ _ => rfl) (frame_pure _) (fun run => frame_assertBelowFixThreshold run)
          (fun _ => frame_pure _) hwork
      obtain rfl := Option.some.inj (hfound.symm.trans hrun')
      rw [hafter, insertReviewFindings_ok heffects, hbefore]
      rfl
    all_goals exact absurd rfl hfindings

end Commands

/-- **The findings that a clean review leaves.** -/
theorem recordCleanReview_findings {payload : RunReviewPayload} {pr : PullRequest}
    {pass : ReviewPass} {findings : List ReviewFindingInsert} {s s' : Session}
    (h : exec (recordCleanReview payload pr pass findings) s = (.ok (), s')) :
    s'.db.reviewFindings = s.db.reviewFindings.insertAll
      (findingRows payload.featureRunId (some pass.reviewerRunId) pass.reviewCycle findings) := by
  obtain ⟨s₁, hbody, hdb, -⟩ := transaction_ok h
  obtain ⟨_, s₂, hinsert, hmarker⟩ := exec_bind_ok.mp hbody
  have hframe : Frame (fun s : Session => s.db.reviewFindings)
      (recordReviewOccurrenceMarker payload.featureRunId pr.headSha pass.reviewCycle) := by
    unfold recordReviewOccurrenceMarker
    split
    · exact frame_pure _
    · refine frame_execute (fun _ _ _ => rfl) fun s _ db hdb => ?_
      unfold Db.insertReviewOccurrenceMarker at hdb
      split at hdb
      · rw [← (Prod.mk.inj (Option.some.inj hdb)).2]
      · obtain ⟨t, -, ht⟩ := Option.map_eq_some_iff.mp hdb
        rw [← (Prod.mk.inj ht).2]
  have hmarked : s₁.db.reviewFindings = s₂.db.reviewFindings := hframe.of_exec hmarker
  rw [hdb, hmarked, insertReviewFindings_ok hinsert]

/-! ### The cycle of a review pass -/

/-- Every finding of the one is in the other, with its run and its cycle. -/
def Db.KeepsFindings (db db' : Db) : Prop :=
  ∀ row ∈ db.reviewFindings.rows, ∃ row' ∈ db'.reviewFindings.rows,
    row'.featureRunId = row.featureRunId ∧ row'.reviewCycle = row.reviewCycle

theorem Db.KeepsFindings.refl (db : Db) : db.KeepsFindings db := fun row hrow =>
  ⟨row, hrow, rfl, rfl⟩

theorem Db.KeepsFindings.trans {db db' db'' : Db} (h : db.KeepsFindings db')
    (h' : db'.KeepsFindings db'') : db.KeepsFindings db'' := by
  intro row hrow
  obtain ⟨row', hrow', hid, hcycle⟩ := h row hrow
  obtain ⟨row'', hrow'', hid', hcycle'⟩ := h' row' hrow'
  exact ⟨row'', hrow'', hid'.trans hid, hcycle'.trans hcycle⟩

theorem Db.le_maxReviewCycle {db : Db} {row : ReviewFinding} (h : row ∈ db.reviewFindings.rows) :
    row.reviewCycle ≤ db.maxReviewCycle row.featureRunId := by
  refine List.le_max?_getD_of_mem (List.mem_map.mpr ⟨row, ?_, rfl⟩)
  exact List.mem_filter.mpr ⟨h, by simp⟩

section Cycle

variable {others : TaskOthers} {deps : RunReviewDeps} {payload : RunReviewPayload}
  {run : FeatureRun} {pr : PullRequest} {pass : ReviewPass} {s s' : Session}

/-- The cycle of a pass is the one that the task has read. -/
theorem reviewPass_cycle (h : exec (reviewPass others deps payload run pr) s = (.ok pass, s')) :
    pass.reviewCycle =
      (others (.step 5) s.db).nextReviewCycle deps.dialect payload.featureRunId := by
  obtain ⟨cycle, s₁, hcycle, h₁⟩ := exec_bind_ok.mp h
  obtain ⟨rfl, -, -⟩ := stepAt_query_ok hcycle
  obtain ⟨_, s₂, -, h₂⟩ := exec_bind_ok.mp h₁
  obtain ⟨feature, s₃, -, h₃⟩ := exec_bind_ok.mp h₂
  obtain ⟨⟨reviewerRunId, output⟩, s₄, -, h₄⟩ := exec_bind_ok.mp h₃
  obtain ⟨_, s₅, -, h₅⟩ := exec_bind_ok.mp h₄
  obtain ⟨findings, s₆, -, h₆⟩ := exec_bind_ok.mp h₅
  obtain ⟨hpass, -⟩ := Prod.mk.inj h₆
  rw [← Except.ok.inj hpass]

/-- **The cycle of a review pass is higher than that of every finding stored before it began** exactly
when the task could read the highest cycle, or none was stored. -/
theorem beginReview_cycle (hothers : ∀ moment (db : Db), db.KeepsFindings (others moment db))
    (h : exec (beginReview others deps payload) s = (.ok (.inr (run, pr, pass)), s')) :
    (∀ row ∈ s.db.reviewFindings.rows, row.featureRunId = payload.featureRunId →
        row.reviewCycle < pass.reviewCycle) ↔
      deps.dialect = .sqlite ∨ ∀ row ∈ s.db.reviewFindings.rows,
        row.featureRunId = payload.featureRunId → row.reviewCycle = 0 := by
  obtain ⟨s₁, -, hrespected, hpass⟩ := beginReview_ok h
  have hkept : s.db.KeepsFindings (others (.step 5) s₁.db) :=
    (hrespected Db.KeepsFindings ⟨Db.KeepsFindings.refl, fun _ _ _ h h' => h.trans h', hothers⟩).trans
      (hothers _ _)
  rw [reviewPass_cycle hpass]
  rcases hdialect : deps.dialect with _ | _
  · -- SQLite: the highest cycle that was read is at least that of any earlier finding
    refine iff_of_true (fun row hrow hrun => ?_) (Or.inl rfl)
    obtain ⟨row', hrow', hrun', hcycle⟩ := hkept row hrow
    have hmax := Db.le_maxReviewCycle hrow'
    rw [hrun', hrun, hcycle] at hmax
    exact Nat.lt_succ_of_le hmax
  · -- PostgreSQL: every pass is the first
    constructor
    · intro hlt
      refine Or.inr fun row hrow hrun => ?_
      have hone : row.reviewCycle < 1 := hlt row hrow hrun
      omega
    · rintro (hsqlite | hzero)
      · cases hsqlite
      · intro row hrow hrun
        rw [hzero row hrow hrun]
        exact Nat.one_pos

end Cycle

/-! ### Histories -/

/-- A step of a history: the first half of a run-review task, which ends in a review pass and during
which other sessions delete no finding; the transaction of a clean review; or another step of the
system, the commands among them that escalate, request changes and record a failed check. -/
inductive ReviewEvent
  | start (others : TaskOthers) (keeps : ∀ moment (db : Db), db.KeepsFindings (others moment db))
      (deps : RunReviewDeps) (payload : RunReviewPayload) (rt : Runtime)
  | clean (payload : RunReviewPayload) (pr : PullRequest) (pass : ReviewPass)
      (findings : List ReviewFindingInsert) (rt : Runtime)
  | system (e : SystemEvent)

namespace ReviewEvent

/-- The tables after a step. -/
def next (db : Db) : ReviewEvent → Db
  | start others _ deps payload rt => (exec (beginReview others deps payload) (.start db rt)).2.db
  | clean payload pr pass findings rt =>
    (exec (recordCleanReview payload pr pass findings) (.start db rt)).2.db
  | system e => SystemEvent.next db e

/-- The step has committed a transaction that was to insert these rows. -/
inductive Inserts (db : Db) : ReviewEvent → List ReviewFinding → Db → Prop
  | clean {payload pr pass findings rt} {s' : Session}
      (h : exec (recordCleanReview payload pr pass findings) (.start db rt) = (.ok (), s')) :
      Inserts db (.clean payload pr pass findings rt)
        (findingRows payload.featureRunId (some pass.reviewerRunId) pass.reviewCycle findings) s'.db
  | commit {request : Request} {ev rt run result} {s' : Session}
      (huncached : request.cachedResult rt.now db = none)
      (hrun : db.findFeatureRun request.ref.featureRunId request.ref.projectId = some run)
      (h : exec (request.commit ev) (.start db rt) = (.ok result, s')) :
      Inserts db (.system (.commit request ev rt)) (request.findings run) s'.db

/-- Every finding of a committed transaction is stored. -/
def LosesNone (db : Db) (e : ReviewEvent) : Prop :=
  ∀ rows db', Inserts db e rows db' → ∀ row ∈ rows, row ∈ db'.reviewFindings.rows

/-- The review cycle of a pass is higher than that of every finding stored before it began. -/
def FreshCycle (db : Db) : ReviewEvent → Prop
  | start others _ deps payload rt => ∀ run pr pass s',
      exec (beginReview others deps payload) (.start db rt) = (.ok (.inr (run, pr, pass)), s') →
        ∀ row ∈ db.reviewFindings.rows, row.featureRunId = payload.featureRunId →
          row.reviewCycle < pass.reviewCycle
  | _ => True

/-- No other finding has the id of one that is inserted. -/
def IdsVacant (db : Db) (e : ReviewEvent) : Prop :=
  ∀ rows db', Inserts db e rows db' →
    ∀ row ∈ rows, ∀ row' ∈ db.reviewFindings.rows, row'.id = row.id → row' = row

/-- The task can read the highest cycle, or no finding with a cycle is stored. -/
def CycleReadable (db : Db) : ReviewEvent → Prop
  | start others _ deps payload rt => ∀ run pr pass s',
      exec (beginReview others deps payload) (.start db rt) = (.ok (.inr (run, pr, pass)), s') →
        deps.dialect = .sqlite ∨ ∀ row ∈ db.reviewFindings.rows,
          row.featureRunId = payload.featureRunId → row.reviewCycle = 0
  | _ => True

/-- **What a transaction that inserts findings leaves.** -/
theorem inserts_ok {db db' : Db} {e : ReviewEvent} {rows : List ReviewFinding}
    (h : Inserts db e rows db') {row : ReviewFinding} (hrow : row ∈ rows) :
    row ∈ db'.reviewFindings.rows ↔
      ∀ row' ∈ db.reviewFindings.rows, row'.id = row.id → row' = row := by
  have hleft : rows.Pairwise (fun row row' => Row.clash row row' = false) ∧
      db'.reviewFindings = db.reviewFindings.insertAll rows := by
    cases h with
    | clean h => exact ⟨pairwise_findingRows, recordCleanReview_findings h⟩
    | commit huncached hrun h =>
      exact ⟨Request.pairwise_findings,
        commit_findings (s := .start db _) huncached hrun (List.ne_nil_of_mem hrow) h⟩
  obtain ⟨hpairwise, hfindings⟩ := hleft
  rw [hfindings, Table.mem_insertAll hpairwise hrow]
  constructor
  · intro hfree row' hrow' hid
    exact hfree row' hrow' (decide_eq_true hid)
  · intro hfree row' hrow' hclash
    exact hfree row' hrow' (of_decide_eq_true hclash)

theorem losesNone_iff (db : Db) (e : ReviewEvent) : e.LosesNone db ↔ e.IdsVacant db :=
  forall_congr' fun _ => forall_congr' fun _ => forall_congr' fun h =>
    forall₂_congr fun _ hrow => inserts_ok h hrow

theorem freshCycle_iff (db : Db) (e : ReviewEvent) : e.FreshCycle db ↔ e.CycleReadable db := by
  cases e with
  | start others keeps deps payload rt =>
    exact forall_congr' fun _ => forall_congr' fun _ => forall_congr' fun _ =>
      forall_congr' fun _ => forall_congr' fun h => beginReview_cycle keeps h
  | clean payload pr pass findings rt => exact Iff.rfl
  | system e => exact Iff.rfl

end ReviewEvent

/-- The pass of a reviewer that calls for a human. -/
def escalatedPass : ReviewPass where
  reviewerRunId := "reviewer"
  reviewCycle := 1
  findings := [{ severity := .requiresHumanDecision, description := "license" }]

/-- The first feature is escalated in its first review cycle; a human has it tried again, up to its
CI checks. -/
def escalatedHistory : List SystemEvent := cycleToCi ++ ([
  .commit ⟨.recordCiPassed, sampleEnvelope .system "passed" {
    featureRunId := "run-1", projectId := "P", expectedVersion := 6, checkRunId := "check" }⟩ ()
    (sampleRuntime 6),
  .commit (reviewPayload.escalationRequest 7 "escalation" escalatedPass) () (sampleRuntime 7),
  .commit ⟨.retryFeature, sampleEnvelope .human "retry" {
    featureRunId := "run-1", projectId := "P", expectedVersion := 8, notes := "again" }⟩ ()
    (sampleRuntime 8),
  .commit ⟨.startCoding, sampleEnvelope .system "code-2" ⟨"run-1", "P", 9⟩⟩ () (sampleRuntime 9),
  .commit ⟨.recordCodePushed, sampleEnvelope .system "push-2" {
    featureRunId := "run-1", projectId := "P", expectedVersion := 10
    commitSha := "sha-2", branchName := "feature", filesChanged := 1 }⟩ () (sampleRuntime 10),
  .commit ⟨.recordPrOpened, sampleEnvelope .system "open-2" {
    featureRunId := "run-1", projectId := "P", expectedVersion := 11
    prNumber := 1, branchName := "feature", baseBranch := "main", headSha := some "sha-2" }⟩ ()
    (sampleRuntime 11),
  .commit ⟨.recordCiRunning, sampleEnvelope .system "ci-2" {
    featureRunId := "run-1", projectId := "P", expectedVersion := 12, checkRunId := "check-2" }⟩ ()
    (sampleRuntime 12)] : List SystemEvent)

/-- The CI check of the second attempt fails, at no fix attempt: its review cycle is 1 again. -/
def failedCheck : Request :=
  ⟨.recordCiFailed, sampleEnvelope .system "failed" {
    featureRunId := "run-1", projectId := "P", expectedVersion := 13, checkRunId := "check-2" }⟩

/-- The tables when the check fails. -/
def beforeFailedCheck : Db := SystemEvent.after sampleDb escalatedHistory

/-- The first feature is escalated in its first review cycle, and a human resumes it. -/
def reviewedHistory : List SystemEvent := cycleToCi ++ [
  .commit ⟨.recordCiPassed, sampleEnvelope .system "passed" {
    featureRunId := "run-1", projectId := "P", expectedVersion := 6, checkRunId := "check" }⟩ ()
    (sampleRuntime 6),
  .commit (reviewPayload.escalationRequest 7 "escalation" escalatedPass) () (sampleRuntime 7),
  .commit ⟨.resumeFeatureExecution, sampleEnvelope .human "resume" {
    featureRunId := "run-1", projectId := "P", expectedVersion := 8, notes := "resumed" }⟩ ()
    (sampleRuntime 8)]

/-- The tables when the second review begins. -/
def beforeSecondReview : Db := SystemEvent.after repositoryDb reviewedHistory

/-- The second review, on PostgreSQL. -/
def postgresReview : ReviewEvent :=
  .start undisturbed (fun _ => Db.KeepsFindings.refl) { humanReviewer with dialect := .postgres }
    reviewPayload (sampleRuntime 9)

/-- Steps of the system are steps of a history. -/
theorem run_system (db : Db) (es : List SystemEvent) :
    run ReviewEvent.next db (es.map .system) = SystemEvent.after db es := by
  induction es generalizing db with
  | nil => rfl
  | cons e es ih => exact ih (SystemEvent.next db e)

/-- A committed command whose finding is not stored loses it. -/
theorem ReviewEvent.not_losesNone {db : Db} {request : Request} {ev : request.Evidence}
    {rt : Runtime} (run : FeatureRun) (row : ReviewFinding)
    (huncached : request.cachedResult rt.now db = none)
    (hrun : db.findFeatureRun request.ref.featureRunId request.ref.projectId = some run)
    (hok : (exec (request.commit ev) (.start db rt)).1.toOption.isSome = true)
    (hrow : row ∈ request.findings run)
    (hgone : row ∉ (exec (request.commit ev) (.start db rt)).2.db.reviewFindings.rows) :
    ¬ LosesNone db (.system (.commit request ev rt)) := by
  intro hnone
  rcases hexec : exec (request.commit ev) (.start db rt) with ⟨outcome, s'⟩
  rw [hexec] at hok hgone
  cases outcome with
  | error e => cases hok
  | ok result => exact hgone (hnone _ _ (.commit huncached hrun hexec) row hrow)

/-- The cycle of the pass that a review begins with. -/
def beginReport (others : TaskOthers) (deps : RunReviewDeps) (payload : RunReviewPayload) (db : Db)
    (rt : Runtime) : Option ℕ :=
  match (exec (beginReview others deps payload) (.start db rt)).1 with
  | .ok (.inr (_, _, pass)) => some pass.reviewCycle
  | _ => none

/-- A pass of a cycle that is stored is not fresh. -/
theorem ReviewEvent.not_freshCycle {others : TaskOthers}
    {keeps : ∀ moment (db : Db), db.KeepsFindings (others moment db)} {deps : RunReviewDeps}
    {payload : RunReviewPayload} {db : Db} {rt : Runtime} {cycle : ℕ} {row : ReviewFinding}
    (hreport : beginReport others deps payload db rt = some cycle)
    (hrow : row ∈ db.reviewFindings.rows) (hid : row.featureRunId = payload.featureRunId)
    (hcycle : row.reviewCycle = cycle) : ¬ FreshCycle db (.start others keeps deps payload rt) := by
  intro hfresh
  unfold beginReport at hreport
  split at hreport
  next run pr pass hbegun =>
    have hlt := hfresh run pr pass _ (Prod.ext hbegun rfl) row hrow hid
    have hpass := Option.some.inj hreport
    omega
  next => cases hreport

/-- The finding of the failed check. -/
def failedFinding : ReviewFinding where
  id := "review-finding:run-1:1:0"
  featureRunId := "run-1"
  reviewerRunId := none
  reviewCycle := 1
  severity := .blocking
  category := some "ci_failure"
  description := "CI check check-2 failed"

/-- The run whose check fails. -/
def failedRun : FeatureRun where
  id := "run-1"
  featureRequestId := "request-1"
  currentExecutionState := .ciRunning
  version := 13

end MiniCoder
