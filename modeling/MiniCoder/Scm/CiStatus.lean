import Mathlib.Data.List.Basic

/-!
# The CI status of a pull request

Each client derives `ciStatus` from the responses of its provider: GitHub's check runs and commit
statuses, and Gitea's combined status, are asked for by the head commit; GitLab's pipelines are those
of the merge request, of whatever commit they are, and the first of the list is taken.

* `deriveCiStatus_passed`: what the responses are when they make a status `passed`.
* `ci_sound_iff`: when a `passed` is that of the head commit, for each of the three clients.
* `gitlab_sound_of_head`: on GitLab it would do to compare the `sha` of the first pipeline.
-/

namespace MiniCoder

/-- `ScmCiStatus`. -/
inductive ScmCiStatus
  | pending
  | running
  | passed
  | failed
  deriving DecidableEq, Repr

/-- `ObservedPullRequestState`, as far as CI is concerned. -/
structure ObservedCi where
  headSha : Option String
  ciStatus : ScmCiStatus
  deriving DecidableEq, Repr

/-! ### GitHub -/

namespace Github

def FAILURE_CONCLUSIONS : List String :=
  ["failure", "timed_out", "cancelled", "action_required", "startup_failure"]

def NON_BLOCKING_CONCLUSIONS : List String := ["neutral", "skipped", "stale"]

inductive CheckConclusionClassification
  | passed
  | failed
  | unknown
  deriving DecidableEq, Repr

def classifyCheckConclusion : Option String → CheckConclusionClassification
  | none => .unknown
  | some conclusion =>
    if conclusion ∈ FAILURE_CONCLUSIONS then .failed
    else if conclusion = "success" ∨ conclusion ∈ NON_BLOCKING_CONCLUSIONS then .passed
    else .unknown

structure CheckRun where
  status : String
  conclusion : Option String
  deriving DecidableEq, Repr

/-- The combined status of a commit; the client does not read the statuses themselves. -/
structure CombinedStatus where
  state : String
  total_count : Option ℕ
  statuses : List String
  deriving DecidableEq, Repr

def checkFailed (c : CheckRun) : Bool :=
  c.status == "completed" && classifyCheckConclusion c.conclusion == .failed

def checkPassed (c : CheckRun) : Bool :=
  c.status == "completed" && classifyCheckConclusion c.conclusion == .passed

def deriveCiStatus (checkRuns : List CheckRun) (combinedStatus : CombinedStatus) : ScmCiStatus :=
  let hasCheckRuns := !checkRuns.isEmpty
  let hasCommitStatuses := decide (0 < combinedStatus.total_count.getD 0)
  if !hasCheckRuns && !hasCommitStatuses then .pending
  else
    let anyCheckFailed := checkRuns.any checkFailed
    let statusFailed := hasCommitStatuses &&
      (combinedStatus.state == "failure" || combinedStatus.state == "error")
    if anyCheckFailed || statusFailed then .failed
    else
      let checkRunning := checkRuns.any fun c => c.status != "completed"
      let statusPending := hasCommitStatuses && combinedStatus.state == "pending"
      if checkRunning || statusPending then .running
      else
        let checkRunsPassed := checkRuns.all checkPassed
        let statusPassed := !hasCommitStatuses || combinedStatus.state == "success"
        if checkRunsPassed && statusPassed then .passed else .pending

/-- What GitHub answers: the head of the pull request, and the signals of the commit asked for. -/
structure Responses where
  head : Option String
  checkRuns : String → List CheckRun
  combinedStatus : String → CombinedStatus

/-- `OctokitGitHubClient.getPullRequest`; nothing is returned for a pull request that is not found. -/
def getPullRequest (r : Responses) : Option ObservedCi :=
  r.head.map fun sha =>
    { headSha := some sha, ciStatus := deriveCiStatus (r.checkRuns sha) (r.combinedStatus sha) }

/-- As documented: the count is that of the statuses, and the state is a success only when all of them
are. -/
def CombinedStatus.Documented (combined : CombinedStatus) : Prop :=
  combined.total_count = some combined.statuses.length ∧
    (combined.state = "success" → ∀ status ∈ combined.statuses, status = "success")

/-- A completed check run that does not stand in the way. -/
def CheckRun.Clean (c : CheckRun) : Prop :=
  c.status = "completed" ∧
    (c.conclusion = some "success" ∨ ∃ conclusion ∈ NON_BLOCKING_CONCLUSIONS,
      c.conclusion = some conclusion)

/-- The commit has a signal, and all its signals are clean. -/
def CiPassed (r : Responses) (sha : String) : Prop :=
  (r.checkRuns sha ≠ [] ∨ (r.combinedStatus sha).statuses ≠ []) ∧
    (∀ c ∈ r.checkRuns sha, c.Clean) ∧
    ∀ status ∈ (r.combinedStatus sha).statuses, status = "success"

theorem checkPassed_iff {c : CheckRun} : checkPassed c = true ↔ c.Clean := by
  rw [checkPassed, Bool.and_eq_true, beq_iff_eq, beq_iff_eq, CheckRun.Clean, and_congr_right_iff]
  intro _
  rcases c.conclusion with _ | conclusion
  · simp [classifyCheckConclusion]
  · rw [classifyCheckConclusion]
    by_cases hfailure : conclusion ∈ FAILURE_CONCLUSIONS
    · -- no conclusion is in two of the lists
      have hother : conclusion ≠ "success" ∧ conclusion ∉ NON_BLOCKING_CONCLUSIONS := by
        revert hfailure
        simp only [FAILURE_CONCLUSIONS, List.mem_cons, List.not_mem_nil, or_false]
        rintro (rfl | rfl | rfl | rfl | rfl) <;> decide
      simp only [if_pos hfailure, reduceCtorEq, false_iff, not_or, not_exists, not_and,
        Option.some.injEq]
      exact ⟨hother.1, fun conclusion' hmem heq => hother.2 (heq ▸ hmem)⟩
    · rw [if_neg hfailure]
      by_cases hclean : conclusion = "success" ∨ conclusion ∈ NON_BLOCKING_CONCLUSIONS
      · simp [hclean]
      · simp [hclean]

/-- **When GitHub's responses make a status `passed`.** -/
theorem deriveCiStatus_passed {checkRuns : List CheckRun} {combined : CombinedStatus}
    (h : deriveCiStatus checkRuns combined = .passed) :
    (checkRuns ≠ [] ∨ 0 < combined.total_count.getD 0) ∧ (∀ c ∈ checkRuns, c.Clean) ∧
      (0 < combined.total_count.getD 0 → combined.state = "success") := by
  rw [deriveCiStatus] at h
  simp only at h
  split at h
  · cases h
  · rename_i hsignal
    split at h
    · cases h
    · split at h
      · cases h
      · split at h
        · rename_i hpassed
          rw [Bool.and_eq_true, List.all_eq_true] at hpassed
          refine ⟨?_, fun c hc => checkPassed_iff.mp (hpassed.1 c hc), fun hstatuses => ?_⟩
          · by_contra hnone
            rw [not_or, not_not] at hnone
            exact hsignal (by simp [hnone.1, hnone.2])
          · simpa [hstatuses] using hpassed.2
        · cases h

end Github

/-! ### GitLab -/

namespace Gitlab

/-- A pipeline of a merge request.  The ids are those of GitLab, which rise; the client does not read
them. -/
structure Pipeline where
  id : ℕ
  status : String
  sha : Option String
  deriving DecidableEq, Repr

def deriveCiStatus (pipelines : List Pipeline) : ScmCiStatus :=
  match pipelines.head? with
  | none => .pending
  | some latest =>
    if latest.status = "success" then .passed
    else if latest.status = "failed" then .failed
    else if latest.status = "running" then .running
    else .pending

/-- What GitLab answers: the `sha` of the merge request, where there is one, and its pipelines. -/
structure Responses where
  mr : Option (Option String)
  pipelines : Option (List Pipeline)

/-- `GitlabScmClient.getPullRequest`. -/
def getPullRequest (r : Responses) : Option ObservedCi :=
  r.mr.map fun sha => { headSha := sha, ciStatus := deriveCiStatus (r.pipelines.getD []) }

/-- The pipeline is the latest one of a commit. -/
def Latest (pipelines : List Pipeline) (sha : String) (p : Pipeline) : Prop :=
  p ∈ pipelines ∧ p.sha = some sha ∧ ∀ p' ∈ pipelines, p'.sha = some sha → p'.id ≤ p.id

/-- The commit has a pipeline, and the latest one is a success. -/
def CiPassed (r : Responses) (sha : String) : Prop :=
  (∃ p ∈ r.pipelines.getD [], p.sha = some sha) ∧
    ∀ p, Latest (r.pipelines.getD []) sha p → p.status = "success"

theorem deriveCiStatus_passed_iff {pipelines : List Pipeline} :
    deriveCiStatus pipelines = .passed ↔ ∃ p, pipelines.head? = some p ∧ p.status = "success" := by
  rw [deriveCiStatus]
  rcases pipelines.head? with _ | latest
  · simp
  · by_cases hsuccess : latest.status = "success"
    · simp [hsuccess]
    · simp only [hsuccess, Option.some.injEq, exists_eq_left', iff_false, ↓reduceIte]
      split
      · simp
      · split <;> simp

end Gitlab

/-! ### Gitea -/

namespace Gitea

/-- The combined status of a commit, its one signal. -/
structure CombinedStatus where
  state : String
  statuses : List String := []
  deriving DecidableEq, Repr

def deriveCiStatus (combinedStatus : CombinedStatus) : ScmCiStatus :=
  if combinedStatus.state = "success" then .passed
  else if combinedStatus.state = "failure" ∨ combinedStatus.state = "error" then .failed
  else .pending

structure Responses where
  head : Option String
  combinedStatus : String → Option CombinedStatus

/-- `GiteaScmClient.getPullRequest`; an empty answer counts as `pending`. -/
def getPullRequest (r : Responses) : Option ObservedCi :=
  r.head.map fun sha =>
    { headSha := some sha
      ciStatus := deriveCiStatus ((r.combinedStatus sha).getD { state := "pending" }) }

/-- The combined status of the commit is a success. -/
def CiPassed (r : Responses) (sha : String) : Prop :=
  ∃ combined, r.combinedStatus sha = some combined ∧ combined.state = "success"

theorem deriveCiStatus_passed_iff {combined : CombinedStatus} :
    deriveCiStatus combined = .passed ↔ combined.state = "success" := by
  rw [deriveCiStatus]
  by_cases hsuccess : combined.state = "success"
  · simp [hsuccess]
  · simp only [hsuccess, iff_false, ↓reduceIte]
    split <;> simp

end Gitea

/-! ### Soundness -/

/-- The responses of a provider. -/
inductive ScmResponses
  | github (r : Github.Responses)
  | gitlab (r : Gitlab.Responses)
  | gitea (r : Gitea.Responses)

namespace ScmResponses

/-- `getPullRequest` of the client of the provider. -/
def getPullRequest : ScmResponses → Option ObservedCi
  | github r => Github.getPullRequest r
  | gitlab r => Gitlab.getPullRequest r
  | gitea r => Gitea.getPullRequest r

/-- The signals of a commit are there, and are successes. -/
def CiPassed : ScmResponses → String → Prop
  | github r => Github.CiPassed r
  | gitlab r => Gitlab.CiPassed r
  | gitea r => Gitea.CiPassed r

/-- GitHub's combined statuses are as documented. -/
def Documented : ScmResponses → Prop
  | github r => ∀ sha, (r.combinedStatus sha).Documented
  | _ => True

/-- A `passed` is that of the head commit. -/
def Sound (r : ScmResponses) : Prop :=
  ∀ observed, r.getPullRequest = some observed → observed.ciStatus = .passed →
    ∃ sha, observed.headSha = some sha ∧ r.CiPassed sha

/-- On GitLab: where the first pipeline of the merge request is a success, so is the latest pipeline
of its head. -/
def FirstIsLatest : ScmResponses → Prop
  | gitlab r => ∀ headSha p, r.mr = some headSha → (r.pipelines.getD []).head? = some p →
    p.status = "success" → ∃ sha, headSha = some sha ∧ Gitlab.CiPassed r sha
  | _ => True

end ScmResponses

theorem github_sound {r : Github.Responses} (h : ∀ sha, (r.combinedStatus sha).Documented) :
    (ScmResponses.github r).Sound := by
  intro observed hobserved hpassed
  obtain ⟨sha, -, rfl⟩ := Option.map_eq_some_iff.mp hobserved
  obtain ⟨hsignal, hclean, hstate⟩ := Github.deriveCiStatus_passed hpassed
  obtain ⟨hcount, hsuccess⟩ := h sha
  refine ⟨sha, rfl, ?_, hclean, fun status hstatus => ?_⟩
  · rcases hsignal with hruns | hstatuses
    · exact Or.inl hruns
    · right
      rw [hcount, Option.getD_some, List.length_pos_iff] at hstatuses
      exact hstatuses
  · have hsome : 0 < (r.combinedStatus sha).total_count.getD 0 := by
      rw [hcount, Option.getD_some]
      exact List.length_pos_of_mem hstatus
    exact hsuccess (hstate hsome) status hstatus

theorem gitea_sound (r : Gitea.Responses) : (ScmResponses.gitea r).Sound := by
  intro observed hobserved hpassed
  obtain ⟨sha, -, rfl⟩ := Option.map_eq_some_iff.mp hobserved
  refine ⟨sha, rfl, ?_⟩
  rcases hcombined : r.combinedStatus sha with _ | combined
  · rw [hcombined] at hpassed
    cases hpassed
  · rw [hcombined] at hpassed
    exact ⟨combined, hcombined, Gitea.deriveCiStatus_passed_iff.mp hpassed⟩

theorem gitlab_sound_iff {r : Gitlab.Responses} :
    (ScmResponses.gitlab r).Sound ↔ (ScmResponses.gitlab r).FirstIsLatest := by
  constructor
  · intro hsound headSha p hmr hfirst hsuccess
    refine hsound { headSha, ciStatus := .passed } ?_ rfl
    show r.mr.map _ = _
    rw [hmr, Option.map_some, Gitlab.deriveCiStatus_passed_iff.mpr ⟨p, hfirst, hsuccess⟩]
  · intro hfirst observed hobserved hpassed
    obtain ⟨headSha, hmr, rfl⟩ := Option.map_eq_some_iff.mp hobserved
    obtain ⟨p, hhead, hsuccess⟩ := Gitlab.deriveCiStatus_passed_iff.mp hpassed
    exact hfirst headSha p hmr hhead hsuccess

/-- **When a `passed` is that of the head commit**: always on GitHub and Gitea; on GitLab if and only
if the pipeline that the client takes is a success only where the latest one of the head is. -/
theorem ci_sound_iff {r : ScmResponses} (hdocumented : r.Documented) :
    r.Sound ↔ r.FirstIsLatest := by
  cases r with
  | github r => exact iff_of_true (github_sound hdocumented) trivial
  | gitea r => exact iff_of_true (gitea_sound r) trivial
  | gitlab r => exact gitlab_sound_iff

/-- Where pipelines are listed newest first, it is enough that the first one is that of the head. -/
theorem gitlab_sound_of_head {r : Gitlab.Responses} {sha : String} {latest : Gitlab.Pipeline}
    {rest : List Gitlab.Pipeline}
    (hmr : r.mr = some (some sha))
    (hpipelines : r.pipelines = some (latest :: rest)) (hhead : latest.sha = some sha)
    (hnewest : (latest :: rest).Pairwise fun p p' => p'.id < p.id) :
    (ScmResponses.gitlab r).Sound := by
  refine gitlab_sound_iff.mpr fun headSha p hmr' hfirst hsuccess => ?_
  rw [hmr] at hmr'
  obtain rfl := Option.some.inj hmr'
  rw [hpipelines, Option.getD_some, List.head?_cons] at hfirst
  obtain rfl := Option.some.inj hfirst
  refine ⟨sha, rfl, ?_⟩
  rw [Gitlab.CiPassed, hpipelines, Option.getD_some]
  refine ⟨⟨latest, List.mem_cons_self, hhead⟩, fun p ⟨hp, _, hgreatest⟩ => ?_⟩
  rcases List.mem_cons.mp hp with rfl | hrest
  · exact hsuccess
  · -- an older pipeline is not the latest one
    have hle := hgreatest latest List.mem_cons_self hhead
    have hlt := (List.pairwise_cons.mp hnewest).1 p hrest
    omega

/-- A check run that was skipped, and a commit status. -/
def skippedRun : Github.Responses where
  head := some "head"
  checkRuns _ := [{ status := "completed", conclusion := some "skipped" }]
  combinedStatus _ := { state := "success", total_count := some 1, statuses := ["success"] }

theorem ci_sound_iff_skippedRun :
    ((ScmResponses.github skippedRun).Sound ↔ (ScmResponses.github skippedRun).FirstIsLatest) ∧
      (ScmResponses.github skippedRun).getPullRequest =
        some { headSha := some "head", ciStatus := .passed } :=
  ⟨ci_sound_iff fun _ => ⟨rfl, fun _ => by simp [skippedRun]⟩, by decide⟩

/-- The pipeline of an earlier commit has succeeded, and the head has none yet. -/
def stalePipeline : Gitlab.Responses where
  mr := some (some "head")
  pipelines := some [{ id := 1, status := "success", sha := some "earlier" }]

/-- **The success of another commit makes the status `passed`.** -/
theorem not_sound_stalePipeline :
    (ScmResponses.gitlab stalePipeline).getPullRequest =
        some { headSha := some "head", ciStatus := .passed } ∧
      ¬ (ScmResponses.gitlab stalePipeline).Sound := by
  have hpassed : (ScmResponses.gitlab stalePipeline).getPullRequest =
      some { headSha := some "head", ciStatus := .passed } := by
    decide
  refine ⟨hpassed, fun hsound => ?_⟩
  obtain ⟨sha, hsha, ⟨p, hp, hhead⟩, -⟩ := hsound _ hpassed rfl
  obtain rfl := Option.some.inj hsha
  obtain rfl := List.mem_singleton.mp hp
  simp at hhead

end MiniCoder
