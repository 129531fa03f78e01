import MiniCoder.MergeGate.Evaluate
import MiniCoder.Reconcile.Complete

/-!
# The row of a pull request

A row of `pull_requests` has two writers.  `insertPullRequestRow` sets every column, when the opening
of the pull request is recorded; `syncPullRequestObservedState` sets what may change of it.  Only the
first one writes the number, the branch and the base branch.

* `findPullRequest_synced`: what a sync makes of the row.
* `insertPullRequestRow_ok`: what the opening makes of it.
* `frame_commit_pullRequests`, `opened_of_commit`: of the commands of a reconciliation, only
  `RecordPrOpened` writes the row.
-/

open Storage Storage.Action

namespace MiniCoder

/-! ### What a row shows -/

namespace PullRequest

/-- Everything that a row shows of its pull request. -/
def snapshot (pr : PullRequest) : ObservedPullRequest where
  toObservedPullRequestState := pr.shown
  prNumber := pr.prNumber
  branchName := pr.branchName
  baseBranch := pr.baseBranch

/-- The row has the columns that only the opening of a pull request records. -/
def SameOpening (observed : ObservedPullRequest) (pr : PullRequest) : Prop :=
  pr.prNumber = observed.prNumber ∧ pr.branchName = observed.branchName ∧
    pr.baseBranch = observed.baseBranch

theorem snapshot_eq_iff {observed : ObservedPullRequest} {pr : PullRequest} :
    pr.snapshot = observed ↔
      pr.shown = observed.toObservedPullRequestState ∧ pr.SameOpening observed := by
  rcases observed with ⟨state, prNumber, branchName, baseBranch⟩
  simp [snapshot, SameOpening]

/-- The row with every column of the snapshot. -/
def mirroring (observed : ObservedPullRequest) (pr : PullRequest) : PullRequest :=
  { pr with
    prNumber := observed.prNumber
    branchName := observed.branchName
    baseBranch := observed.baseBranch
    headSha := observed.headSha
    state := observed.state
    reviewState := observed.reviewState
    ciStatus := observed.ciStatus
    mergeable := observed.mergeable
    blockingLabels := observed.blockingLabels
    conversationsResolved := observed.conversationsResolved
    mergedAt := observed.mergedAt
    mergeSha := observed.mergeSha
    closedAt := observed.closedAt }

theorem mirroring_keys (observed : ObservedPullRequest) : KeyFree (mirroring observed) :=
  fun _ _ => rfl

section Synced

variable (observed : ObservedPullRequestState) (pr : PullRequest)

/-- A sync leaves the columns of the opening alone. -/
theorem sameOpening_synced {snapshot : ObservedPullRequest} :
    (pr.synced observed).SameOpening snapshot ↔ pr.SameOpening snapshot := by
  unfold synced
  split
  · rfl
  · rfl

theorem version_synced : pr.version ≤ (pr.synced observed).version := by
  unfold synced
  split
  · exact le_refl _
  · exact Nat.le_succ _

end Synced

end PullRequest

namespace Db

variable {db : Db} {featureRunId : String} {observed : ObservedPullRequest}

/-- The row of the run, if there is one, shows the snapshot. -/
def Mirrors (db : Db) (featureRunId : String) (observed : ObservedPullRequest) : Prop :=
  ∀ pr, db.findPullRequest featureRunId = some pr → pr.snapshot = observed

/-- The tables with the snapshot in the row of the run. -/
def mirroring (db : Db) (featureRunId : String) (observed : ObservedPullRequest) : Db :=
  { db with
    pullRequests := db.pullRequests.update (fun pr => pr.featureRunId == featureRunId)
      (PullRequest.mirroring observed) (PullRequest.mirroring_keys observed) }

theorem Mirrors.mirroring_eq (h : db.Mirrors featureRunId observed) :
    db.mirroring featureRunId observed = db := by
  have hfixed : ∀ pr ∈ db.pullRequests.rows, (pr.featureRunId == featureRunId) = true →
      pr.mirroring observed = pr := by
    intro pr hpr hrun
    have hsnapshot := h pr (findPullRequest_of_mem hpr (beq_iff_eq.mp hrun))
    subst hsnapshot
    rfl
  have hrows := Table.update_eq_self_of_fixed (PullRequest.mirroring_keys observed) hfixed
  rw [mirroring, hrows]

/-- A sync of a row that shows the snapshot changes nothing. -/
theorem Mirrors.synced_eq (h : db.Mirrors featureRunId observed) :
    db.synced featureRunId observed.toObservedPullRequestState = db := by
  rw [synced, if_pos]
  rcases hfind : db.findPullRequest featureRunId with _ | pr
  · rfl
  · have hshown := (PullRequest.snapshot_eq_iff.mp (h pr hfind)).1
    exact decide_eq_true hshown

end Db

/-! ### The writers -/

section Writers

variable {s s' : Session} {featureRunId : String}

/-- A sync that returned. -/
theorem sync_ok {observed : ObservedPullRequestState} {u : Unit}
    (h : exec (transaction (syncPullRequestObservedState featureRunId observed)) s = (.ok u, s')) :
    s'.db = s.db.synced featureRunId observed ∧ s'.runtime = s.runtime := by
  obtain ⟨s₁, hbody, hdb, hrt⟩ := transaction_ok h
  obtain ⟨existing, s₂, hquery, h₂⟩ := exec_bind_ok.mp hbody
  obtain ⟨rfl, hdb₂, hrt₂⟩ := query_ok hquery
  rw [exec_ite] at h₂
  rw [hdb, hrt, Db.synced]
  split at h₂
  · rename_i hshown
    obtain ⟨-, rfl⟩ := Prod.mk.inj h₂
    rw [if_pos hshown]
    exact ⟨hdb₂, hrt₂⟩
  · rename_i hshown
    obtain ⟨hwrote, hrt₁⟩ := execute_ok h₂
    have hset := (Prod.mk.inj (Option.some.inj hwrote)).2
    rw [if_neg hshown, ← hset, hdb₂]
    exact ⟨rfl, hrt₁.trans hrt₂⟩

/-- **What the opening of a pull request makes of its row.** -/
theorem insertPullRequestRow_ok {opts : PullRequestOpened}
    (h : exec (insertPullRequestRow opts) s = (.ok (), s')) :
    ∃ pr, s'.db.findPullRequest opts.featureRunId = some pr ∧ pr.prNumber = opts.prNumber ∧
      pr.branchName = opts.branchName ∧ pr.baseBranch = opts.baseBranch ∧
      ∀ pr₀, s.db.findPullRequest opts.featureRunId = some pr₀ → pr₀.version < pr.version := by
  obtain ⟨id, s₁, hid, h₁⟩ := exec_bind_ok.mp h
  obtain ⟨-, rfl⟩ := Prod.mk.inj hid
  obtain ⟨existing, s₂, hquery, h₂⟩ := exec_bind_ok.mp h₁
  obtain ⟨rfl, hdb₂, -⟩ := query_ok hquery
  rw [exec_ite] at h₂
  split at h₂
  · -- the row of an earlier opening is overwritten
    rename_i hsome
    obtain ⟨pr, hpr⟩ := Option.isSome_iff_exists.mp hsome
    obtain ⟨hwrote, -⟩ := execute_ok h₂
    have hset := (Prod.mk.inj (Option.some.inj hwrote)).2
    have hbefore : s₂.db.findPullRequest opts.featureRunId = some pr := by
      rw [hdb₂]
      exact hpr
    have hfind := Db.findPullRequest_of_update (by intro pr pr'; rfl)
      (congrArg Db.pullRequests hset.symm) (by intro pr; rfl)
    rw [hbefore, Option.map_some] at hfind
    refine ⟨_, hfind, rfl, rfl, rfl, fun pr₀ hpr₀ => ?_⟩
    obtain rfl := Option.some.inj (hpr.symm.trans hpr₀)
    exact Nat.lt_succ_self _
  · rename_i hnone
    obtain ⟨hwrote, -⟩ := execute_ok h₂
    obtain ⟨t, ht, hput⟩ := Option.map_eq_some_iff.mp hwrote
    have hset := (Prod.mk.inj hput).2
    have hmem := (Table.mem_insert? ht).mpr (Or.inr rfl)
    rw [← hset]
    refine ⟨_, Db.findPullRequest_of_mem hmem rfl, rfl, rfl, rfl, fun pr₀ hpr₀ => ?_⟩
    have hsome : (s.db.findPullRequest opts.featureRunId).isSome = true := by
      rw [hpr₀]
      rfl
    exact absurd hsome hnone

end Writers

/-! ### The commands of the rules -/

/-- The row of the run was written by the opening of its pull request. -/
def ReconcileOptions.Opened (opts : ReconcileOptions) (db db' : Db) : Prop :=
  ∃ pr, db'.findPullRequest opts.featureRunId = some pr ∧ pr.SameOpening opts.observed ∧
    ∀ pr₀, db.findPullRequest opts.featureRunId = some pr₀ → pr₀.version < pr.version

section Step

variable {opts : ReconcileOptions} {s s' : Session} {rule : ReconcileRule}
  {state : FeatureExecutionState} {version : ℕ} {commandId : String} {result : CommandResult}

theorem ReconcileRule.select_eq_prOpened {observed : ObservedPullRequest} :
    select observed state = some prOpened ↔ state = .codePushed ∧ ¬ observed.ReportsClosed := by
  by_cases hclosed : observed.state = "closed" ∧ observed.mergedAt = none ∧
      state ∉ reconcileTerminalStates
  · have hreports : observed.ReportsClosed := ⟨hclosed.1, hclosed.2.1⟩
    unfold select
    rw [if_pos hclosed]
    refine iff_of_false (fun h => ?_) fun h => h.2 hreports
    cases h
  · unfold select
    rw [if_neg hclosed]
    constructor
    · intro hselect
      have hstate : state = .codePushed := by
        cases state <;> simp at hselect ⊢
        -- the two states whose rule depends on the CI checks
        all_goals grind
      subst hstate
      exact ⟨rfl, fun hreports => hclosed ⟨hreports.1, hreports.2, by decide⟩⟩
    · rintro ⟨rfl, -⟩
      rfl

/-- No rule but `prOpened` issues the command that writes the row. -/
theorem ReconcileRule.frame_commit_pullRequests (hrule : rule ≠ prOpened)
    (ev : (rule.request opts state version commandId).Evidence) :
    Frame (fun s : Session => s.db.pullRequests)
      ((rule.request opts state version commandId).commit ev) := by
  refine CommandHandler.frame_transact (g := Db.pullRequests) (fun _ _ => rfl) ?_
  have hframe : ∀ {P : Type} (envelope : CommandEnvelope P) {t : Transition},
      Frame (fun s : Session => s.db.pullRequests) t.prologue →
      (∀ run, Frame (fun s : Session => s.db.pullRequests) (t.guard run)) →
      Frame (fun s : Session => s.db.pullRequests) t.conflict →
      (∀ run checked, Frame (fun s : Session => s.db.pullRequests) (t.effects run checked)) →
      (∀ run, t.cascade run = pure ()) →
      Frame (fun s : Session => s.db.pullRequests) (runTransition envelope t) := by
    intro P envelope t hprologue hguard hconflict heffects hcascade
    refine frame_runTransition_of (g := Db.pullRequests) (fun _ _ => rfl) (fun _ _ => rfl)
      (fun _ _ => rfl) envelope hprologue hguard hconflict heffects fun run => ?_
    rw [hcascade]
    exact frame_pure _
  have hlane : ∀ {P : Type} (commandName : String) (envelope : CommandEnvelope P),
      Frame (fun s : Session => s.db.pullRequests)
        (requireExecutionLane commandName opts.projectId envelope) :=
    fun commandName envelope => frame_requireExecutionLane (fun _ _ _ => rfl) _ _ _
  have hfindings : ∀ cycle findings, Frame (fun s : Session => s.db.pullRequests)
      (insertReviewFindings opts.featureRunId none cycle findings) :=
    fun cycle findings => frame_insertReviewFindings (fun _ _ _ => rfl) (fun _ _ => rfl) _ _ _ _
  have hnothing : Frame (fun s : Session => s.db.pullRequests) (pure () : Sql Unit) := frame_pure _
  cases rule with
  | prOpened => exact absurd rfl hrule
  | closed =>
    exact hframe _ hnothing (fun _ => hnothing) hnothing (fun _ _ => hfindings _ _) fun _ => rfl
  | ciRunning =>
    exact hframe _ (hlane _ _) (fun _ => hnothing) hnothing (fun _ _ => hnothing) fun _ => rfl
  | ciPassed =>
    exact hframe _ hnothing (fun _ => hnothing) hnothing (fun _ _ => hnothing) fun _ => rfl
  | ciFailed =>
    exact hframe _ hnothing (fun _ => hnothing) hnothing (fun _ _ => hfindings _ _) fun _ => rfl
  | ciLimit =>
    exact hframe _ hnothing (fun _ => hnothing) hnothing (fun _ _ => hfindings _ _) fun _ => rfl
  | afterCiFail =>
    exact hframe _ hnothing (fun _ => frame_assertBelowFixThreshold _) hnothing
      (fun _ _ => hnothing) fun _ => rfl
  | startFixing =>
    exact hframe _ (hlane _ _) (fun _ => hnothing) (frame_automationConflict (fun _ _ _ => rfl) _ _)
      (fun _ _ => hnothing) fun _ => rfl
  | reviewLimit =>
    exact hframe _ hnothing (fun _ => hnothing) hnothing (fun _ _ => hfindings _ _) fun _ => rfl
  | changesRequested =>
    exact hframe _ hnothing (fun _ => frame_assertBelowFixThreshold _) hnothing
      (fun _ _ => hfindings _ _) fun _ => rfl

/-- The command that opens the pull request writes its row. -/
theorem ReconcileRule.opened_of_commit
    {ev : (prOpened.request opts state version commandId).Evidence}
    (h : exec ((prOpened.request opts state version commandId).commit ev) s = (.ok result, s'))
    (hchanged : s'.db ≠ s.db) : opts.Opened s.db s'.db := by
  rcases Request.commit_worked h with hsame | ⟨s₁, s₂, keys, hs₁, -, hwork, hs'⟩
  · exact absurd hsame hchanged
  · have hlane : Frame (fun s : Session => s.db.pullRequests)
        ((prOpened.request opts state version commandId).transition ev).prologue :=
      frame_requireExecutionLane (fun _ _ _ => rfl) _ _ _
    obtain ⟨run, checked, s₃, s₄, -, hbefore, heffects, hafter⟩ :=
      runTransition_effects (g := Db.pullRequests) (fun _ _ => rfl) (fun _ _ => rfl)
        (fun _ _ => rfl) hlane (fun _ => frame_pure _) (fun _ => frame_pure _) hwork
    obtain ⟨pr, hpr, hnumber, hbranch, hbase, hnewer⟩ := insertPullRequestRow_ok heffects
    have hread : ∀ {db db' : Db}, db'.pullRequests = db.pullRequests →
        db'.findPullRequest opts.featureRunId = db.findPullRequest opts.featureRunId := by
      intro db db' hrows
      rw [Db.findPullRequest, hrows]
      rfl
    have hrows : s'.db.pullRequests = s₄.db.pullRequests := by
      rw [hs']
      exact hafter
    have hrows₀ : s₃.db.pullRequests = s.db.pullRequests := by
      rw [hbefore, hs₁]
    refine ⟨pr, (hread hrows).trans hpr, ⟨hnumber, hbranch, hbase⟩, fun pr₀ hpr₀ => ?_⟩
    exact hnewer pr₀ ((hread hrows₀).trans hpr₀)

end Step

end MiniCoder
