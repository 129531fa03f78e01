import MiniCoder.Tasks.RunReview
import MiniCoder.Tasks.StartNextFeature

/-!
# What the tasks report

A task of start-next-feature that reports a start, and one of run-review that reports an escalation,
have each issued a command under a key that names the run only.  The executor answers a key that
still holds a result from that result, and then nothing has happened.

* `escalation_findings`: the findings that an escalating command leaves.
* `runReview_truthful`: **the run is `human_required` and every finding of the pass is stored** exactly
  when no live result answered the command and no other finding stood in the place of one of the
  pass, or the command found both done.
* `tasks_truthful`: in a history of calls, every report is true exactly when every call meets its
  condition.
-/

open Storage Storage.Action Runs

namespace MiniCoder

/-! ### The findings of a pass -/

/-- The rows of the findings of a pass over a run. -/
def ReviewPass.rows (pass : ReviewPass) (featureRunId : String) : List ReviewFinding :=
  findingRows featureRunId (some pass.reviewerRunId) pass.reviewCycle pass.findings

/-- Every finding of the pass is stored. -/
def ReviewPass.Stored (pass : ReviewPass) (featureRunId : String) (db : Db) : Prop :=
  ∀ row ∈ pass.rows featureRunId, row ∈ db.reviewFindings.rows

/-- No other finding has the id of a finding of the pass. -/
def ReviewPass.Free (pass : ReviewPass) (featureRunId : String) (db : Db) : Prop :=
  ∀ row ∈ pass.rows featureRunId, ∀ row' ∈ db.reviewFindings.rows, row'.id = row.id → row' = row

section Escalation

variable {others : TaskOthers} {payload : RunReviewPayload} {pass : ReviewPass} {s s' : Session}

/-- **The findings that an escalation leaves**: those of the pass, where no other finding stood in
their place. -/
theorem escalation_findings {version : ℕ} {commandId : String}
    {ev : (payload.escalationRequest version commandId pass).Evidence} {result : CommandResult}
    (hdid : (payload.escalationRequest version commandId pass).Did ev s.runtime s.db s'.db)
    (h : exec ((payload.escalationRequest version commandId pass).commit ev) s =
      (.ok result, s')) :
    s'.db.reviewFindings = s.db.reviewFindings.insertAll (pass.rows payload.featureRunId) := by
  rcases Request.commit_worked h with hsame | ⟨s₁, s₂, keys, hs₁, -, hwork, hs'⟩
  · exact absurd hsame hdid.ne
  · obtain ⟨run, checked, s₃, s₄, -, hbefore, heffects, hafter⟩ :=
      runTransition_effects (g := Db.reviewFindings) (fun _ _ => rfl) (fun _ _ => rfl)
        (fun _ _ => rfl) (frame_pure _) (fun _ => frame_pure _) (fun _ => frame_pure _) hwork
    have hinserted := insertReviewFindings_ok heffects
    have hstart : s₁.db.reviewFindings = s.db.reviewFindings := by rw [hs₁]
    have hend : s'.db.reviewFindings = s₂.db.reviewFindings := by rw [hs']
    rw [hend, hafter, hinserted, hbefore, hstart]
    rfl

/-- A pass is stored after its escalation exactly when no other finding stood in its place. -/
theorem ReviewPass.stored_iff {featureRunId : String} {db db' : Db}
    (h : db'.reviewFindings = db.reviewFindings.insertAll (pass.rows featureRunId)) :
    pass.Stored featureRunId db' ↔ pass.Free featureRunId db := by
  refine forall₂_congr fun row hrow => ?_
  have hmem : row ∈ (db.reviewFindings.insertAll (pass.rows featureRunId)).rows ↔
      ∀ row' ∈ db.reviewFindings.rows, Row.clash row' row = true → row' = row :=
    Table.mem_insertAll pairwise_findingRows hrow
  rw [h, hmem]
  constructor
  · intro hfree row' hrow' hid
    exact hfree row' hrow' (decide_eq_true hid)
  · intro hfree row' hrow' hclash
    exact hfree row' hrow' (of_decide_eq_true hclash)

/-- Passes are stored or free in what the evidence phase does not write. -/
theorem ReviewPass.stored_of_eq {featureRunId : String} {db db' : Db}
    (h : db'.reviewFindings = db.reviewFindings) :
    pass.Stored featureRunId db' ↔ pass.Stored featureRunId db := by
  unfold Stored
  rw [h]

end Escalation

/-! ### When an escalation is reported truly -/

namespace ReviewOutcome

/-- A reported escalation is true: the run is `human_required`, and every finding of the pass is
stored, when the task's command has returned. -/
def Truthful (outcome : ReviewOutcome) : Prop :=
  outcome.result.decision = some .escalated → ∃ escalation, outcome.escalation = some escalation ∧
    escalation.command.left.stateOf outcome.result.featureRunId = some .humanRequired ∧
    escalation.pass.Stored outcome.result.featureRunId escalation.command.left

/-- The command found no live result under its key, and no other finding in the place of one of the
pass; or it found the run escalated with the findings of the pass. -/
def Unspent (now : ℤ) (outcome : ReviewOutcome) : Prop :=
  ∀ escalation, outcome.escalation = some escalation →
    (escalation.command.Fresh now ∧
      escalation.pass.Free outcome.result.featureRunId escalation.command.found) ∨
    ¬ escalation.command.Fresh now ∧
      escalation.command.found.stateOf outcome.result.featureRunId = some .humanRequired ∧
      escalation.pass.Stored outcome.result.featureRunId escalation.command.found

end ReviewOutcome

/-- What an escalating command left, in terms of what it found. -/
theorem escalation_iff {others : TaskOthers} {payload : RunReviewPayload} {pass : ReviewPass}
    {version : ℕ} {commandId : String} {result : CommandResult} {d : Dispatch} {s s' : Session}
    (h : exec (dispatchTask others 0 (payload.escalationRequest version commandId pass)) s =
      (.ok (result, d), s')) :
    (d.left.stateOf payload.featureRunId = some .humanRequired ∧
        pass.Stored payload.featureRunId d.left) ↔
      (d.Fresh s.runtime.now ∧ pass.Free payload.featureRunId d.found) ∨
        ¬ d.Fresh s.runtime.now ∧ d.found.stateOf payload.featureRunId = some .humanRequired ∧
          pass.Stored payload.featureRunId d.found := by
  rcases dispatchTask_cases h with ⟨hsame, hcached⟩ | ⟨hfresh, ev, s₀, hevidence, hcommit, hleft, hdid⟩
  · -- the command answered from a result: what it left is what it found
    have hruns := congrArg Db.featureRuns hsame
    have hfindings := congrArg Db.reviewFindings hsame
    have hstate : d.left.stateOf payload.featureRunId = d.found.stateOf payload.featureRunId :=
      Db.stateOf_of_eq hruns _
    have hstored : pass.Stored payload.featureRunId d.left ↔
        pass.Stored payload.featureRunId d.found := ReviewPass.stored_of_eq hfindings
    rw [hstate, hstored]
    constructor
    · intro hdone
      exact Or.inr ⟨hcached, hdone⟩
    · rintro (⟨hfresh, -⟩ | ⟨-, hdone⟩)
      · exact absurd hfresh hcached
      · exact hdone
  · -- the command moved the run, and wrote the findings
    have hstate : d.left.stateOf payload.featureRunId = some .humanRequired := by
      rcases dispatchTask_stateOf h with ⟨-, htarget⟩ | ⟨hcached, -⟩
      · exact htarget
      · exact absurd hfresh hcached
    rw [← hleft] at hdid
    have hrows := escalation_findings hdid hcommit
    have hview := congrArg Db.reviewFindings hevidence
    have hbefore : s₀.db.reviewFindings = d.found.reviewFindings := hview
    rw [hleft, hbefore] at hrows
    rw [ReviewPass.stored_iff hrows]
    constructor
    · rintro ⟨-, hfree⟩
      exact Or.inl ⟨hfresh, hfree⟩
    · rintro (⟨-, hfree⟩ | ⟨hcached, -⟩)
      · exact ⟨hstate, hfree⟩
      · exact absurd hfresh hcached

theorem runReview_truthful {others : TaskOthers} {deps : RunReviewDeps} {payload : RunReviewPayload}
    {outcome : ReviewOutcome} {s s' : Session}
    (h : exec (runReview others deps payload) s = (.ok outcome, s')) :
    outcome.Truthful ↔ outcome.Unspent s.runtime.now := by
  rcases runReview_ok h with ⟨hdecision, hnone⟩ |
    ⟨version, commandId, pass, s₁, s₂, result, d, rfl, hnow, hdispatch⟩
  · -- nothing was escalated: there is nothing to report, and no command
    constructor
    · rintro - escalation hescalation
      rw [hnone] at hescalation
      cases hescalation
    · intro _ hescalated
      exact absurd hescalated hdecision
  · have hiff := escalation_iff hdispatch
    rw [hnow] at hiff
    constructor
    · intro htruthful escalation hescalation
      obtain ⟨escalation', hescalation', hdone⟩ := htruthful rfl
      obtain rfl := Option.some.inj (hescalation.symm.trans hescalation')
      obtain rfl := Option.some.inj hescalation
      exact hiff.mp hdone
    · intro hunspent _
      exact ⟨_, rfl, hiff.mpr (hunspent _ rfl)⟩

/-! ### Histories -/

/-- A call of a task, or another step of the system. -/
inductive HistoryEvent
  | startNextFeature (others : TaskOthers) (payload : StartNextFeaturePayload) (rt : Runtime)
  | runReview (others : TaskOthers) (deps : RunReviewDeps) (payload : RunReviewPayload)
      (rt : Runtime)
  | system (e : SystemEvent)

namespace HistoryEvent

/-- The tables after an event. -/
def next (db : Db) : HistoryEvent → Db
  | startNextFeature others payload rt =>
    (exec (MiniCoder.startNextFeature others payload) (.start db rt)).2.db
  | runReview others deps payload rt =>
    (exec (MiniCoder.runReview others deps payload) (.start db rt)).2.db
  | system e => SystemEvent.next db e

/-- What a call that returned reports is true. -/
def Truthful (db : Db) : HistoryEvent → Prop
  | startNextFeature others payload rt => ∀ outcome s',
      exec (MiniCoder.startNextFeature others payload) (.start db rt) = (.ok outcome, s') →
        outcome.Truthful
  | runReview others deps payload rt => ∀ outcome s',
      exec (MiniCoder.runReview others deps payload) (.start db rt) = (.ok outcome, s') →
        outcome.Truthful
  | system _ => True

/-- The command of a call that returned found what it was to do undone, and its key without a live
result, or found it done. -/
def Unspent (db : Db) : HistoryEvent → Prop
  | startNextFeature others payload rt => ∀ outcome s',
      exec (MiniCoder.startNextFeature others payload) (.start db rt) = (.ok outcome, s') →
        outcome.Unspent rt.now
  | runReview others deps payload rt => ∀ outcome s',
      exec (MiniCoder.runReview others deps payload) (.start db rt) = (.ok outcome, s') →
        outcome.Unspent rt.now
  | system _ => True

theorem truthful_iff (db : Db) (e : HistoryEvent) : e.Truthful db ↔ e.Unspent db := by
  cases e with
  | startNextFeature others payload rt =>
    exact forall_congr' fun outcome => forall_congr' fun s' =>
      forall_congr' fun h => startNextFeature_truthful h
  | runReview others deps payload rt =>
    exact forall_congr' fun outcome => forall_congr' fun s' =>
      forall_congr' fun h => runReview_truthful h
  | system e => exact Iff.rfl

end HistoryEvent

/-- **In every history, the tasks report what happened exactly when every call meets its
condition.** -/
theorem tasks_truthful (db : Db) (es : List HistoryEvent) :
    Along HistoryEvent.next (fun db e => e.Truthful db) db es ↔
      Along HistoryEvent.next (fun db e => e.Unspent db) db es := by
  constructor
  · intro h
    exact h.imp fun db e => (HistoryEvent.truthful_iff db e).mp
  · intro h
    exact h.imp fun db e => (HistoryEvent.truthful_iff db e).mpr

/-! ### A second start and a second escalation -/

def startPayload : StartNextFeaturePayload where
  projectId := "P"
  correlationId := "tick"

/-- A tick of the scheduled task. -/
def startTask (now : ℕ) : HistoryEvent := .startNextFeature undisturbed startPayload (sampleRuntime now)

/-- The first feature is started and escalated, and a human has it tried again. -/
def retriedHistory : List HistoryEvent := [
  startTask 1,
  .system (.commit ⟨.escalateToHuman, sampleEnvelope .system "escalate" {
    featureRunId := "run-1", projectId := "P", expectedVersion := 3, reason := "stuck" }⟩ ()
    (sampleRuntime 2)),
  .system (.commit ⟨.retryFeature, sampleEnvelope .human "retry" {
    featureRunId := "run-1", projectId := "P", expectedVersion := 4, notes := "again" }⟩ ()
    (sampleRuntime 3))]

/-- A reviewer that calls for a human. -/
def humanReviewer : RunReviewDeps where
  reviewer _ := .ok { findings := [
    { severity := "requires_human_decision", category := "policy", description := "license" }] }
  arbiter _ := .error .database

def reviewPayload : RunReviewPayload where
  projectId := "P"
  featureRunId := "run-1"
  correlationId := "review"

def reviewTask (now : ℕ) : HistoryEvent :=
  .runReview undisturbed humanReviewer reviewPayload (sampleRuntime now)

/-- The project, with its repository. -/
def repositoryDb : Db :=
  { sampleDb with repositories := .ofList [
    { id := "repository", projectId := "P", owner := "owner", name := "name" }] }

/-- The first feature is reviewed and escalated, and a human resumes it. -/
def resumedHistory : List HistoryEvent := cycleToCi.map .system ++ [
  .system (.commit ⟨.recordCiPassed, sampleEnvelope .system "passed" {
    featureRunId := "run-1", projectId := "P", expectedVersion := 6, checkRunId := "check" }⟩ ()
    (sampleRuntime 6)),
  reviewTask 7,
  .system (.commit ⟨.resumeFeatureExecution, sampleEnvelope .human "resume" {
    featureRunId := "run-1", projectId := "P", expectedVersion := 8, notes := "resumed" }⟩ ()
    (sampleRuntime 8))]

/-- A report of a start: the run it names, and the state in which the command left that run. -/
def startReport (db : Db) (now : ℕ) : Option (Bool × Option String × Option FeatureExecutionState) :=
  (exec (startNextFeature undisturbed startPayload) (.start db (sampleRuntime now))).1.toOption.map
    fun outcome => (outcome.result.started, outcome.result.featureRunId,
      outcome.command.bind fun d => d.left.stateOf "run-1")

/-- A report of an escalation: the run it names, and the state in which the command left that run. -/
def reviewReport (db : Db) (now : ℕ) :
    Option (Option ReviewDecision × String × Option FeatureExecutionState) :=
  (exec (runReview undisturbed humanReviewer reviewPayload)
      (.start db (sampleRuntime now))).1.toOption.map
    fun outcome => (outcome.result.decision, outcome.result.featureRunId,
      outcome.escalation.bind fun escalation => escalation.command.left.stateOf "run-1")

theorem not_truthful_of_startReport {db : Db} {now : ℕ}
    (h : startReport db now = some (true, some "run-1", some .selected)) :
    ¬ (startTask now).Truthful db := by
  intro htruthful
  obtain ⟨outcome, hok, hreport⟩ := Option.map_eq_some_iff.mp h
  obtain ⟨hstarted, hrest⟩ := Prod.mk.inj hreport
  obtain ⟨hrun, hstate⟩ := Prod.mk.inj hrest
  rcases hexec : exec (startNextFeature undisturbed startPayload)
      (.start db (sampleRuntime now)) with ⟨e | outcome', s'⟩
  · rw [hexec] at hok
    cases hok
  · rw [hexec] at hok
    obtain rfl := Option.some.inj hok
    obtain ⟨d, featureRunId, hcommand, hrun', hcoding⟩ := htruthful _ _ hexec hstarted
    obtain rfl := Option.some.inj (hrun'.symm.trans hrun)
    rw [hcommand, Option.bind_some, hcoding] at hstate
    cases hstate

theorem not_truthful_of_reviewReport {db : Db} {now : ℕ}
    (h : reviewReport db now = some (some .escalated, "run-1", some .underReview)) :
    ¬ (reviewTask now).Truthful db := by
  intro htruthful
  obtain ⟨outcome, hok, hreport⟩ := Option.map_eq_some_iff.mp h
  obtain ⟨hescalated, hrest⟩ := Prod.mk.inj hreport
  obtain ⟨hrun, hstate⟩ := Prod.mk.inj hrest
  rcases hexec : exec (runReview undisturbed humanReviewer reviewPayload)
      (.start db (sampleRuntime now)) with ⟨e | outcome', s'⟩
  · rw [hexec] at hok
    cases hok
  · rw [hexec] at hok
    obtain rfl := Option.some.inj hok
    obtain ⟨escalation, hescalation, hhuman, -⟩ := htruthful _ _ hexec hescalated
    rw [hrun] at hhuman
    rw [hescalation, Option.bind_some, hhuman] at hstate
    cases hstate

/-- **A start and an escalation are reported again from their keys**: the run is `selected` when the
task reports that it was started, and `under_review` when the task reports that it was escalated. -/
theorem tasks_replay :
    ¬ Along HistoryEvent.next (fun db e => e.Truthful db) sampleDb
        (retriedHistory ++ [startTask 4]) ∧
      ¬ Along HistoryEvent.next (fun db e => e.Truthful db) repositoryDb
        (resumedHistory ++ [reviewTask 9]) := by
  have hstart : startReport (run HistoryEvent.next sampleDb retriedHistory) 4 =
      some (true, some "run-1", some .selected) := by
    decide +kernel
  have hreview : reviewReport (run HistoryEvent.next repositoryDb resumedHistory) 9 =
      some (some .escalated, "run-1", some .underReview) := by
    decide +kernel
  constructor
  · intro h
    obtain ⟨-, hlast, -⟩ := along_append.mp h
    exact not_truthful_of_startReport hstart hlast
  · intro h
    obtain ⟨-, hlast, -⟩ := along_append.mp h
    exact not_truthful_of_reviewReport hreview hlast

end MiniCoder
