import MiniCoder.Invariants.Dependencies
import MiniCoder.Project.Doctor

/-!
# Orphaned runs

Both checks of the doctor for feature runs ask whether `started_at` is older than a threshold.  A
run starts when `StartCoding` moves it to `coding`, which leaves an event in `workflow_events`; no
command writes the column.  So no run that a command has driven is ever reported, however long ago it
started.

* `neverStarted_next`: no step writes `started_at`.
* `orphaned_reported`, `pushed_reported`: both checks report nothing as long as the column is empty.
* `orphan_detection_exact_iff`: in every state reached, **the checks are exact if and only if there
  is nothing to report**.
* `not_exact_pushed`: a run whose code was pushed an hour ago has no pull request, and is not
  reported.
-/

open Storage Storage.Action Runs

namespace MiniCoder

/-! ### The checks, as documented -/

namespace Db

/-- The run was moved to `coding` before a time. -/
def CodingBefore (db : Db) (run : FeatureRun) (threshold : ℤ) : Prop :=
  ∃ event ∈ db.workflowEvents.rows, event.featureRunId = some run.id ∧
    event.toState = FeatureExecutionState.coding.literal ∧ event.occurredAt < threshold

/-- The run works in a state `flight`, started before the threshold, and no project is at it. -/
structure Orphan (flight : FeatureExecutionState → Bool) (db : Db) (now : ℤ) (run : FeatureRun) :
    Prop where
  inFlight : flight run.currentExecutionState = true
  started : db.CodingBefore run (now - ORPHANED_RUN_THRESHOLD_MS)
  inactive : db.isActiveNowhere run = true

/-- The code of the run was pushed, it started before the threshold, and it has no pull request. -/
structure Unopened (db : Db) (now : ℤ) (run : FeatureRun) : Prop where
  pushed : run.currentExecutionState = .codePushed
  started : db.CodingBefore run (now - PUSHED_NO_PR_THRESHOLD_MS)
  unopened : db.hasNoPullRequest run = true

end Db

/-- States that are not to be reported. -/
def FeatureExecutionState.isSettled : FeatureExecutionState → Bool
  | merged | skipped | approvedPendingExecution => true
  | _ => false

/-- The two checks report the runs of their scope that are to be reported; `flight` has the states that
count as in flight. -/
structure OrphanDetectionExact (flight : FeatureExecutionState → Bool) (db : Db)
    (projectId : Option String) (now : ℤ) : Prop where
  orphaned : ∀ run ∈ db.featureRuns.rows, db.inScope projectId run = true →
    (run.id ∈ (orphanedRunsCheck db projectId now).reported ↔ db.Orphan flight now run)
  pushed : ∀ run ∈ db.featureRuns.rows, db.inScope projectId run = true → db.Unopened now run →
    run.id ∈ (codePushedNoPullRequestCheck db projectId now).reported
  settled : ∀ run ∈ db.featureRuns.rows, run.currentExecutionState.isSettled = true →
    run.id ∉ (orphanedRunsCheck db projectId now).reported ∧
      run.id ∉ (codePushedNoPullRequestCheck db projectId now).reported

/-- No run of the scope is orphaned, and none has pushed code that waits for its pull request. -/
def NothingToReport (flight : FeatureExecutionState → Bool) (db : Db) (projectId : Option String)
    (now : ℤ) : Prop :=
  ∀ run ∈ db.featureRuns.rows, db.inScope projectId run = true →
    ¬ db.Orphan flight now run ∧ ¬ db.Unopened now run

/-! ### Runs that were never started -/

namespace Db

/-- The runs with a value in `started_at`. -/
def startedRuns (db : Db) : List FeatureRun := db.featureRuns.rows.filter (·.startedAt.isSome)

/-- `started_at` is empty in every row. -/
def NeverStarted (db : Db) : Prop := db.startedRuns = []

theorem neverStarted_iff {db : Db} :
    db.NeverStarted ↔ ∀ run ∈ db.featureRuns.rows, run.startedAt = none := by
  unfold NeverStarted startedRuns
  rw [List.filter_eq_nil_iff]
  refine forall₂_congr fun run _ => ?_
  rw [Bool.not_eq_true, Option.isSome_eq_false_iff, Option.isNone_iff_eq_none]

end Db

section Reported

variable {db : Db} {projectId : Option String} {now : ℤ} {id : String}

/-- Neither query takes a row whose `started_at` is empty. -/
theorem any_startedAt (h : db.NeverStarted) {run : FeatureRun} (hrun : run ∈ db.featureRuns.rows)
    (threshold : ℤ) :
    (run.startedAt.any fun startedAt => decide (startedAt < threshold)) = false := by
  have hnone : run.startedAt = none := Db.neverStarted_iff.mp h run hrun
  rw [hnone]
  rfl

theorem orphaned_reported (h : db.NeverStarted) :
    id ∉ (orphanedRunsCheck db projectId now).reported := by
  intro hid
  obtain ⟨run, hrun, horphaned, -⟩ := mem_reported.mp hid
  have hnever := any_startedAt h hrun (now - ORPHANED_RUN_THRESHOLD_MS)
  rw [Db.isOrphaned, hnever] at horphaned
  simp at horphaned

theorem pushed_reported (h : db.NeverStarted) :
    id ∉ (codePushedNoPullRequestCheck db projectId now).reported := by
  intro hid
  obtain ⟨run, hrun, hpushed, -⟩ := mem_reported.mp hid
  have hnever := any_startedAt h hrun (now - PUSHED_NO_PR_THRESHOLD_MS)
  rw [Db.isPushedWithoutPullRequest, hnever] at hpushed
  simp at hpushed

/-- **While `started_at` is empty, the checks are exact when there is nothing to report.** -/
theorem exact_iff_nothing {flight : FeatureExecutionState → Bool} (h : db.NeverStarted) :
    OrphanDetectionExact flight db projectId now ↔ NothingToReport flight db projectId now := by
  constructor
  · intro hexact run hrun hscope
    constructor
    · intro horphan
      have hreported := (hexact.orphaned run hrun hscope).mpr horphan
      exact orphaned_reported h hreported
    · intro hunopened
      have hreported := hexact.pushed run hrun hscope hunopened
      exact pushed_reported h hreported
  · intro hnothing
    refine ⟨fun run hrun hscope => ?_, fun run hrun hscope hunopened => ?_, fun run hrun _ => ?_⟩
    · have hnot := (hnothing run hrun hscope).1
      exact iff_of_false (orphaned_reported h) hnot
    · have hnot := (hnothing run hrun hscope).2
      exact absurd hunopened hnot
    · exact ⟨orphaned_reported h, pushed_reported h⟩

end Reported

/-! ### No step writes `started_at` -/

/-- The rows that an activation inserts have no `started_at`. -/
theorem frame_insertFirst (id featureRequestId : String) :
    Frame (fun s : Session => s.db.startedRuns)
      (insertInto featureRunTable (FeatureRun.first id featureRequestId)) := by
  refine frame_execute (fun _ _ _ => rfl) fun s _ db h => ?_
  obtain ⟨t, ht, hput⟩ := Option.map_eq_some_iff.mp h
  have hrows : t.rows = s.db.featureRuns.rows ++ [FeatureRun.first id featureRequestId] :=
    Table.rows_insert? ht
  rw [← (Prod.mk.inj hput).2]
  show t.rows.filter (·.startedAt.isSome) = s.db.featureRuns.rows.filter (·.startedAt.isSome)
  rw [hrows, List.filter_append]
  exact List.append_nil _

theorem frame_activateFeatures_startedRuns {features : List FeatureRequest} :
    Frame (fun s : Session => s.db.startedRuns) (activateFeatures features) := by
  induction features with
  | nil => exact frame_pure _
  | cons feature features ih =>
    refine frame_bind (frame_query (fun _ _ _ => rfl) _) fun _ => frame_ite ?_ ih
    refine frame_bind (frame_generateId fun _ _ _ => rfl) fun _ => ?_
    exact frame_bind (frame_insertFirst _ _) fun _ => frame_bind ih fun _ => frame_pure _

/-- A planning call starts no run. -/
theorem PlanningCall.startedRuns_of_did {db : Db} {call : PlanningCall} (h : call.Did db) :
    (planningCommands.next db call).startedRuns = db.startedRuns := by
  have hview : Unplanned fun s : Session => s.db.startedRuns :=
    ⟨⟨fun _ _ _ => rfl, fun _ _ => rfl, fun _ _ => rfl, fun _ _ => rfl, fun _ _ => rfl⟩,
      fun _ _ => rfl, fun _ _ => rfl, fun _ _ => rfl, fun _ _ => rfl⟩
  have hactivation : ∀ planId,
      Frame (fun s : Session => s.db.startedRuns) (activationEffects planId) := by
    intro planId
    refine frame_bind (frame_query (fun _ _ _ => rfl) _) fun _ => ?_
    exact frame_bind frame_activateFeatures_startedRuns fun _ => frame_pure _
  exact view_of_did (g := Db.startedRuns) hview (fun _ _ => rfl) hactivation (fun _ => rfl) h

/-- A transition leaves `started_at` alone, in its own run and in the runs of a cascade. -/
theorem Request.Did.neverStarted {request : Request} {ev : request.Evidence} {rt : Runtime}
    {db db' : Db} (hdid : request.Did ev rt db db') (h : db.NeverStarted) : db'.NeverStarted := by
  obtain ⟨keys, keys', db₂, run, hmoved, rfl⟩ := hdid
  have hbefore := Db.neverStarted_iff.mp h
  refine Db.neverStarted_iff.mpr fun run' hrun' => ?_
  obtain ⟨r, hr, hchange⟩ := hmoved.runs.exists_mem_of hrun'
  have hnone : r.startedAt = none := hbefore r hr
  rcases hchange with ⟨rfl, rfl⟩ | ⟨-, rfl | ⟨-, -, rfl⟩⟩
  · exact hnone
  · exact hnone
  · exact hnone

/-- A step outside the commands does not write `started_at`, as no code does. -/
def BacklogEvent.StartsNoRun (db : Db) : BacklogEvent → Prop
  | .system (.other db') => db'.startedRuns = db.startedRuns
  | _ => True

/-- **No step writes `started_at`.** -/
theorem neverStarted_next {db : Db} {event : BacklogEvent} (h : db.NeverStarted)
    (hstarts : event.StartsNoRun db) : (backlogNext db event).NeverStarted := by
  cases event with
  | planning event =>
    cases event with
    | preview envelope runtime =>
      rw [backlogNext, planningNext_preview]
      exact h
    | command call =>
      rcases CommandFamily.next_cases db call with hsame | hdid
      · rw [backlogNext, planningNext, hsame]
        exact h
      · have hruns : (backlogNext db (.planning (.command call))).startedRuns = db.startedRuns :=
          PlanningCall.startedRuns_of_did hdid
        rw [Db.NeverStarted, hruns]
        exact h
  | system event =>
    cases event with
    | lock e =>
      have hruns : (backlogNext db (.system (.lock e))).startedRuns = db.startedRuns :=
        congrArg (fun db => db.startedRuns) (LockEvent.next_withoutLocks db e)
      rw [Db.NeverStarted, hruns]
      exact h
    | gather request rt =>
      have hruns : (backlogNext db (.system (.gather request rt))).startedRuns = db.startedRuns :=
        congrArg (fun db => db.startedRuns) (SystemEvent.next_gather db request rt)
      rw [Db.NeverStarted, hruns]
      exact h
    | commit request ev rt =>
      rcases SystemEvent.next_commit db request ev rt with hsame | hdid
      · rw [backlogNext, hsame]
        exact h
      · exact hdid.neverStarted h
    | other db' =>
      have hruns : db'.startedRuns = db.startedRuns := hstarts
      show db'.startedRuns = []
      rw [hruns]
      exact h

/-! ### Every state reached -/

theorem neverStarted_run {db : Db} {events : List BacklogEvent} (hstart : db.NeverStarted)
    (h : Along backlogNext BacklogEvent.StartsNoRun db events) :
    Throughout backlogNext Db.NeverStarted db events := by
  have hstep : ∀ (db : Db) (event : BacklogEvent), db.NeverStarted → event.StartsNoRun db →
      (backlogNext db event).NeverStarted := fun _ _ => neverStarted_next
  exact throughout_of_step hstep hstart h

/-- **Exact exactly when there is nothing to report**: in every state that planning calls, commands and
other steps reach from a database whose runs were never started, for every set of states in flight, in
every scope and at every time. -/
theorem orphan_detection_exact_iff {db : Db} {events : List BacklogEvent}
    (hstart : db.NeverStarted) (h : Along backlogNext BacklogEvent.StartsNoRun db events) :
    Throughout backlogNext
      (fun db => ∀ (flight : FeatureExecutionState → Bool) (projectId : Option String) (now : ℤ),
        OrphanDetectionExact flight db projectId now ↔ NothingToReport flight db projectId now)
      db events :=
  (neverStarted_run hstart h).imp fun _ hnever _ _ _ => exact_iff_nothing hnever

/-! ### Runs on the sample project -/

/-- The first feature, from the project's selection to its pushed code. -/
def cycleToPush : List BacklogEvent := (cycleToCi.take 4).map .system

theorem cycleToPush_starts : sampleDb.NeverStarted ∧
    Along backlogNext BacklogEvent.StartsNoRun sampleDb cycleToPush :=
  ⟨rfl, trivial, trivial, trivial, trivial, trivial⟩

theorem orphan_detection_exact_iff_cycleToPush :
    Throughout backlogNext
      (fun db => ∀ (flight : FeatureExecutionState → Bool) (projectId : Option String) (now : ℤ),
        OrphanDetectionExact flight db projectId now ↔ NothingToReport flight db projectId now)
      sampleDb cycleToPush :=
  orphan_detection_exact_iff cycleToPush_starts.1 cycleToPush_starts.2

/-- An hour after its code was pushed, the run has no pull request, and the doctor does not say so. -/
theorem not_exact_pushed :
    ¬ ∃ flight : FeatureExecutionState → Bool,
      OrphanDetectionExact flight (run backlogNext sampleDb cycleToPush) none (60 * 60 * 1000) := by
  rintro ⟨flight, hexact⟩
  have hnever : (run backlogNext sampleDb cycleToPush).NeverStarted :=
    (neverStarted_run cycleToPush_starts.1 cycleToPush_starts.2).last
  have hnothing := (exact_iff_nothing hnever).mp hexact
  have hrun : { id := "run-1", featureRequestId := "request-1", currentExecutionState := .codePushed
                version := 4 } ∈ (run backlogNext sampleDb cycleToPush).featureRuns.rows := by
    decide +kernel
  refine (hnothing _ hrun (by decide +kernel)).2 ⟨rfl, ?_, by decide +kernel⟩
  unfold Db.CodingBefore
  decide +kernel

end MiniCoder
