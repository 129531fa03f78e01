import MiniCoder.Coder.Workspace
import MiniCoder.Persistence.Db

/-!
# The run that a webhook is about

`resolveFeatureRunId` looks for the feature run of a delivery under the number of its pull request,
then under its branch, and last under its commit.  The branch of a run is named for the id of the run,
but the lookup reads it as the `fr_id` of a feature request.

* `resolveFeatureRunId_eq`: the lookups of a delivery without a run, in order.
* `routing_iff`: **when a push to a run's branch finds the run, and when a delivery that is about no run
  finds none**.
-/

open Storage

namespace MiniCoder

/-! ### The payload -/

/-- What `resolveFeatureRunId` reads of a stored delivery. -/
structure NormalizedInboxPayload where
  projectId : String
  prNumber : Option ℕ := none
  featureRunId : Option String := none
  branchName : Option String := none
  sha : Option String := none
  deriving DecidableEq, Repr

/-- What follows a text that another one starts with. -/
def stripStart (start text : String) : Option String :=
  (start.toList.isPrefixOf? text.toList).map String.ofList

/-- The `push` case of `normalizeGithubWebhookEvent`, with the project of the receiver; `after` is the
new head of the branch. -/
def pushPayload (projectId : String) (ref after : Option String) : NormalizedInboxPayload where
  projectId
  branchName := ref.map fun ref => (stripStart "refs/heads/" ref).getD ref
  sha := after

/-! ### The lookups -/

/-- The feature request of a run is one of the project. -/
def Db.isRunOf (db : Db) (projectId : String) (p : FeatureRequest → Bool) (run : FeatureRun) : Bool :=
  db.featureRequests.rows.any fun freq =>
    freq.id == run.featureRequestId && freq.projectId == projectId && p freq

/-- The pull request of a run of the project. -/
def Db.isTrackedIn (db : Db) (projectId : String) (pr : PullRequest) : Bool :=
  db.featureRuns.rows.any fun run =>
    run.id == pr.featureRunId && db.isRunOf projectId (fun _ => true) run

/-- The first tracked pull request of a project that a condition holds of. -/
def Db.trackedPullRequest? (db : Db) (projectId : String) (p : PullRequest → Bool) :
    Option PullRequest :=
  db.pullRequests.find? fun pr => db.isTrackedIn projectId pr && p pr

/-- The pull request of a run. -/
def Db.pullRequestOfRun? (db : Db) (featureRunId : String) : Option PullRequest :=
  db.pullRequests.find? fun pr => pr.featureRunId == featureRunId

/-- The run with the highest `attempt_no` of the feature request with an `fr_id`. -/
def Db.latestRun? (db : Db) (projectId frId : String) : Option FeatureRun :=
  db.featureRuns.last? (db.isRunOf projectId fun freq => freq.frId == frId)
    fun run run' => decide (run.attemptNo < run'.attemptNo)

/-- The `fr_id` that a branch is taken to name. -/
def branchFrId (branchName : Option String) : Option String :=
  (branchName.bind (stripStart "minicoder/")).filter fun frId => frId ≠ ""

structure ResolvedFeatureRun where
  featureRunId : String
  prNumber : ℕ
  deriving DecidableEq, Repr

def PullRequest.resolved (pr : PullRequest) : ResolvedFeatureRun := ⟨pr.featureRunId, pr.prNumber⟩

/-- The lookup under a branch, with the pull request of the run or else that of the delivery. -/
def Db.resolveBranch (db : Db) (payload : NormalizedInboxPayload) : Option ResolvedFeatureRun := do
  let frId ← branchFrId payload.branchName
  let run ← db.latestRun? payload.projectId frId
  let prNumber ← ((db.pullRequestOfRun? run.id).map (·.prNumber)).or payload.prNumber
  pure ⟨run.id, prNumber⟩

/-- The lookup under the number of a pull request. -/
def Db.resolvePrNumber (db : Db) (payload : NormalizedInboxPayload) : Option ResolvedFeatureRun := do
  let prNumber ← payload.prNumber
  let pr ← db.trackedPullRequest? payload.projectId fun pr => pr.prNumber == prNumber
  pure pr.resolved

/-- The lookup under a commit. -/
def Db.resolveSha (db : Db) (payload : NormalizedInboxPayload) : Option ResolvedFeatureRun := do
  let sha ← payload.sha.filter fun sha => sha ≠ ""
  let pr ← db.trackedPullRequest? payload.projectId fun pr => pr.headSha == some sha
  pure pr.resolved

def resolveFeatureRunId (db : Db) (payload : NormalizedInboxPayload) : Option ResolvedFeatureRun :=
  match payload.featureRunId.filter fun id => id ≠ "" with
  | some featureRunId =>
    match payload.prNumber with
    | some prNumber => some ⟨featureRunId, prNumber⟩
    | none => (db.pullRequestOfRun? featureRunId).map fun pr => ⟨featureRunId, pr.prNumber⟩
  | none =>
    match db.resolvePrNumber payload with
    | some resolved => some resolved
    | none =>
      match db.resolveBranch payload with
      | some resolved => some resolved
      | none => db.resolveSha payload

/-! ### What is found -/

section Routing

variable {db : Db} {payload : NormalizedInboxPayload}

theorem resolveFeatureRunId_eq (h : payload.featureRunId = none) :
    resolveFeatureRunId db payload =
      ((db.resolvePrNumber payload).or (db.resolveBranch payload)).or (db.resolveSha payload) := by
  unfold resolveFeatureRunId
  rw [h, Option.filter_none]
  rcases db.resolvePrNumber payload with _ | resolved
  · rcases db.resolveBranch payload with _ | resolved
    · rfl
    · rfl
  · rfl

theorem stripStart_append (start text : String) : stripStart start (start ++ text) = some text := by
  have hrest : start.toList.isPrefixOf? (start ++ text).toList = some text.toList := by
    rw [List.isPrefixOf?_eq_some_iff_append_eq, String.toList_append]
  rw [stripStart, hrest, Option.map_some, String.ofList_toList]

/-- The name of a run's branch is read as the id of the run. -/
theorem branchFrId_branchNameFor {featureRunId : String} (h : featureRunId ≠ "") :
    branchFrId (some (branchNameFor featureRunId)) = some featureRunId := by
  have hname : branchNameFor featureRunId = "minicoder/" ++ featureRunId := by
    unfold branchNameFor
    rfl
  rw [branchFrId, hname, Option.bind_some, stripStart_append]
  simp [h]

/-- A push carries no run and no number of a pull request. -/
theorem resolveFeatureRunId_push (projectId : String) (ref after : Option String) :
    resolveFeatureRunId db (pushPayload projectId ref after) =
      (db.resolveBranch (pushPayload projectId ref after)).or
        (db.resolveSha (pushPayload projectId ref after)) := by
  rw [resolveFeatureRunId_eq rfl]
  rfl

/-- The lookup under the branch of a run, for a push. -/
theorem resolveBranch_push {projectId featureRunId : String} {ref after : Option String}
    (hbranch : (pushPayload projectId ref after).branchName = some (branchNameFor featureRunId)) :
    db.resolveBranch (pushPayload projectId ref after) =
      if featureRunId = "" then none
      else (db.latestRun? projectId featureRunId).bind fun run =>
        (db.pullRequestOfRun? run.id).map fun pr => ⟨run.id, pr.prNumber⟩ := by
  unfold Db.resolveBranch
  rw [hbranch]
  by_cases hempty : featureRunId = ""
  · subst hempty
    rw [if_pos rfl]
    have hnone : branchFrId (some (branchNameFor "")) = none := by decide
    rw [hnone]
    rfl
  · rw [if_neg hempty, branchFrId_branchNameFor hempty]
    show (db.latestRun? projectId featureRunId).bind _ = _
    congr 1
    funext run
    rcases db.pullRequestOfRun? run.id with _ | pr
    · rfl
    · rfl

/-- A tracked pull request that a search finds is one of the table that the condition holds of. -/
theorem of_trackedPullRequest? {projectId : String} {p : PullRequest → Bool} {pr : PullRequest}
    (h : db.trackedPullRequest? projectId p = some pr) :
    pr ∈ db.pullRequests.rows ∧ db.isTrackedIn projectId pr = true ∧ p pr = true := by
  have hmem := db.pullRequests.mem_of_find? h
  have hprop := db.pullRequests.prop_of_find? h
  rw [Bool.and_eq_true] at hprop
  exact ⟨hmem, hprop⟩

theorem trackedPullRequest?_eq_none {projectId : String} {p : PullRequest → Bool}
    (h : ∀ pr ∈ db.pullRequests.rows, db.isTrackedIn projectId pr = true → p pr = false) :
    db.trackedPullRequest? projectId p = none := by
  rw [Db.trackedPullRequest?, Table.find?_eq_none]
  intro pr hpr
  rcases htracked : db.isTrackedIn projectId pr
  · rfl
  · exact h pr hpr htracked

/-- A run has one pull request. -/
theorem eq_of_featureRunId {pr pr' : PullRequest} (hpr : pr ∈ db.pullRequests.rows)
    (hpr' : pr' ∈ db.pullRequests.rows) (h : pr.featureRunId = pr'.featureRunId) : pr = pr' :=
  db.pullRequests.eq_of_clash hpr hpr' (decide_eq_true (Or.inr h))

theorem pullRequestOfRun?_eq_some {pr : PullRequest} (hpr : pr ∈ db.pullRequests.rows) :
    db.pullRequestOfRun? pr.featureRunId = some pr :=
  db.pullRequests.find?_eq_some hpr (beq_self_eq_true _) fun _ hpr' =>
    decide_eq_true (Or.inr (beq_iff_eq.mp hpr').symm)

/-- The branch lookup misreads the id of a run as an `fr_id`, and finds the run all the same; or it
finds no pull request, and the first one that is tracked with the pushed head is that of the run. -/
def FindsRun (db : Db) (projectId : String) (after : Option String) (featureRunId : String) : Prop :=
  (featureRunId ≠ "" ∧ ∃ run, db.latestRun? projectId featureRunId = some run ∧
      run.id = featureRunId) ∨
    ((featureRunId = "" ∨ ∀ run, db.latestRun? projectId featureRunId = some run →
        db.pullRequestOfRun? run.id = none) ∧
      ∃ sha pr, after = some sha ∧ sha ≠ "" ∧
        db.trackedPullRequest? projectId (fun pr => pr.headSha == some sha) = some pr ∧
        pr.featureRunId = featureRunId)

/-- The branch of a delivery is taken to name a feature request whose latest run has a pull request,
or the delivery has the number of one. -/
def NamesFeature (db : Db) (payload : NormalizedInboxPayload) : Prop :=
  ∃ frId run, branchFrId payload.branchName = some frId ∧
    db.latestRun? payload.projectId frId = some run ∧
    (db.pullRequestOfRun? run.id ≠ none ∨ payload.prNumber ≠ none)

/-- The lookup under the pushed head. -/
theorem resolveSha_push_iff {projectId : String} {ref after : Option String} {pr : PullRequest}
    (hpr : pr ∈ db.pullRequests.rows) :
    db.resolveSha (pushPayload projectId ref after) = some pr.resolved ↔
      ∃ sha found, after = some sha ∧ sha ≠ "" ∧
        db.trackedPullRequest? projectId (fun pr => pr.headSha == some sha) = some found ∧
        found.featureRunId = pr.featureRunId := by
  unfold Db.resolveSha pushPayload
  rcases after with _ | sha
  · simp
  · by_cases hempty : sha = ""
    · simp [hempty, Option.filter_some]
    · rw [Option.filter_some, if_pos (by simpa using hempty)]
      show ((db.trackedPullRequest? projectId fun pr => pr.headSha == some sha).bind fun pr =>
        some pr.resolved) = _ ↔ _
      constructor
      · intro h
        obtain ⟨found, hfound, hresolved⟩ := Option.bind_eq_some_iff.mp h
        exact ⟨sha, found, rfl, hempty, hfound,
          congrArg ResolvedFeatureRun.featureRunId (Option.some.inj hresolved)⟩
      · rintro ⟨sha', found, hsha, -, hfound, hrun⟩
        obtain rfl := Option.some.inj hsha
        rw [hfound, Option.bind_some,
          eq_of_featureRunId (of_trackedPullRequest? hfound).1 hpr hrun]

/-- When a push to the branch of a run finds the run. -/
theorem push_iff {projectId : String} {ref after : Option String} {pr : PullRequest}
    (hpr : pr ∈ db.pullRequests.rows)
    (hbranch : (pushPayload projectId ref after).branchName =
      some (branchNameFor pr.featureRunId)) :
    resolveFeatureRunId db (pushPayload projectId ref after) = some pr.resolved ↔
      FindsRun db projectId after pr.featureRunId := by
  rw [resolveFeatureRunId_push, resolveBranch_push hbranch]
  unfold FindsRun
  by_cases hempty : pr.featureRunId = ""
  · rw [if_pos hempty, Option.none_or, resolveSha_push_iff hpr]
    simp [hempty]
  rw [if_neg hempty]
  rcases hrun : db.latestRun? projectId pr.featureRunId with _ | run
  · rw [Option.bind_none, Option.none_or, resolveSha_push_iff hpr]
    simp [hempty]
  · rw [Option.bind_some]
    rcases hfound : db.pullRequestOfRun? run.id with _ | found
    · rw [Option.map_none, Option.none_or, resolveSha_push_iff hpr]
      have hne : run.id ≠ pr.featureRunId := by
        intro hsame
        rw [hsame, pullRequestOfRun?_eq_some hpr] at hfound
        cases hfound
      simp [hempty, hne, hfound]
    · rw [Option.map_some, Option.some_or]
      constructor
      · intro h
        have hid := congrArg ResolvedFeatureRun.featureRunId (Option.some.inj h)
        exact Or.inl ⟨hempty, run, rfl, hid⟩
      · rintro (⟨-, run', hrun', hid⟩ | ⟨hnone | hnone, -⟩)
        · obtain rfl := Option.some.inj hrun'
          rw [hid, pullRequestOfRun?_eq_some hpr] at hfound
          obtain rfl := Option.some.inj hfound
          rw [hid]
          rfl
        · exact absurd hnone hempty
        · rw [hnone run rfl] at hfound
          cases hfound

/-- When a delivery that is about no tracked pull request finds no run. -/
theorem unrelated_iff (hrun : payload.featureRunId = none)
    (hnumber : ∀ pr ∈ db.pullRequests.rows, db.isTrackedIn payload.projectId pr = true →
      payload.prNumber ≠ some pr.prNumber)
    (hsha : ∀ pr ∈ db.pullRequests.rows, db.isTrackedIn payload.projectId pr = true →
      ∀ sha, payload.sha = some sha → pr.headSha ≠ some sha) :
    resolveFeatureRunId db payload = none ↔ ¬ NamesFeature db payload := by
  have hbyNumber : db.resolvePrNumber payload = none := by
    unfold Db.resolvePrNumber
    rcases hpayload : payload.prNumber with _ | number
    · rfl
    · show (db.trackedPullRequest? payload.projectId _).bind _ = none
      rw [trackedPullRequest?_eq_none, Option.bind_none]
      intro pr hpr htracked
      have hne := hnumber pr hpr htracked
      rw [hpayload] at hne
      exact beq_false_of_ne fun h => hne (by rw [h])
  have hbySha : db.resolveSha payload = none := by
    unfold Db.resolveSha
    rcases hpayload : payload.sha with _ | sha
    · rfl
    · by_cases hempty : sha = ""
      · subst hempty
        rfl
      · rw [Option.filter_some, if_pos (by simpa using hempty)]
        show (db.trackedPullRequest? payload.projectId _).bind _ = none
        rw [trackedPullRequest?_eq_none, Option.bind_none]
        intro pr hpr htracked
        exact beq_false_of_ne (hsha pr hpr htracked sha hpayload)
  rw [resolveFeatureRunId_eq hrun, hbyNumber, hbySha, Option.none_or, Option.or_none]
  unfold Db.resolveBranch NamesFeature
  rcases hfrId : branchFrId payload.branchName with _ | frId
  · simp
  · show (db.latestRun? payload.projectId frId).bind _ = none ↔ _
    rcases hlatest : db.latestRun? payload.projectId frId with _ | run
    · simp [hlatest]
    · rcases hfound : db.pullRequestOfRun? run.id with _ | found <;>
        rcases hpayload : payload.prNumber with _ | number <;>
          simp [hlatest, hfound]

end Routing

/-- **Webhook routing.**

* A push to the branch of a run with a tracked pull request finds the run and its pull request if and
  only if the id of the run, taken for an `fr_id`, leads to the run itself; or it leads to no pull
  request, and the first one that is tracked with the pushed head is that of the run.
* A delivery whose pull request is not tracked in the project, and whose commit is no tracked head,
  finds no run if and only if its branch, taken to end in an `fr_id`, leads to no run with a pull
  request, or to none at all where the delivery has the number of one. -/
theorem routing_iff (db : Db) :
    (∀ (run : FeatureRun) (pr : PullRequest) (projectId : String) (ref after : Option String),
      run ∈ db.featureRuns.rows → pr ∈ db.pullRequests.rows → pr.featureRunId = run.id →
      db.isRunOf projectId (fun _ => true) run = true →
      (pushPayload projectId ref after).branchName = some (branchNameFor run.id) →
      (resolveFeatureRunId db (pushPayload projectId ref after) = some ⟨run.id, pr.prNumber⟩ ↔
        FindsRun db projectId after run.id)) ∧
    ∀ payload : NormalizedInboxPayload, payload.featureRunId = none →
      (∀ run ∈ db.featureRuns.rows, payload.branchName ≠ some (branchNameFor run.id)) →
      (∀ pr ∈ db.pullRequests.rows, db.isTrackedIn payload.projectId pr = true →
        payload.prNumber ≠ some pr.prNumber) →
      (∀ pr ∈ db.pullRequests.rows, db.isTrackedIn payload.projectId pr = true →
        ∀ sha, payload.sha = some sha → pr.headSha ≠ some sha) →
      (resolveFeatureRunId db payload = none ↔ ¬ NamesFeature db payload) := by
  constructor
  · intro run pr projectId ref after _ hpr hrun _ hbranch
    rw [← hrun] at hbranch ⊢
    exact push_iff hpr hbranch
  · intro payload hrun _ hnumber hsha
    exact unrelated_iff hrun hnumber hsha

/-- A run with a pull request, before its first push is recorded. -/
def sampleRoutingDb : Db where
  featureRequests := .ofList [{ id := "request", projectId := "project", frId := "FR-1" }]
  featureRuns := .ofList
    [{ id := "1-a", featureRequestId := "request", currentExecutionState := .codePushed }]
  pullRequests := .ofList
    [{
      id := "pr"
      featureRunId := "1-a"
      prNumber := 7
      branchName := "minicoder/1-a"
      baseBranch := "main"
      headSha := some "old" }]

/-- A push of a new commit to the branch of the run finds no run. -/
theorem not_routing :
    ¬ ∀ (db : Db) (run : FeatureRun) (pr : PullRequest) (projectId : String)
      (ref after : Option String),
      run ∈ db.featureRuns.rows → pr ∈ db.pullRequests.rows → pr.featureRunId = run.id →
      db.isRunOf projectId (fun _ => true) run = true →
      (pushPayload projectId ref after).branchName = some (branchNameFor run.id) →
      resolveFeatureRunId db (pushPayload projectId ref after) = some ⟨run.id, pr.prNumber⟩ := by
  intro h
  have hroute := h sampleRoutingDb
    { id := "1-a", featureRequestId := "request", currentExecutionState := .codePushed }
    {
      id := "pr"
      featureRunId := "1-a"
      prNumber := 7
      branchName := "minicoder/1-a"
      baseBranch := "main"
      headSha := some "old" }
    "project" (some "refs/heads/minicoder/1-a") (some "new") (by decide +kernel)
    (by decide +kernel) rfl (by decide +kernel) (by decide +kernel)
  have hnone : resolveFeatureRunId sampleRoutingDb
      (pushPayload "project" (some "refs/heads/minicoder/1-a") (some "new")) = none := by
    decide +kernel
  rw [hnone] at hroute
  cases hroute

end MiniCoder
