import MiniCoder.Reconcile.Truthful

/-!
# When a reconciliation does nothing

A call takes no action when no rule of the cascade is selected in the state it read.  For a pull
request that is finished on the source host, that is right where the run is finished too, or where
the merge route is recording the merge.

* `runStep_none`, `catchUp_actions`, `reconcile_none`: a call without an action selected no rule.
* `returns_rest`: and one that selects no rule returns, and changes nothing but the mirror row.
* `reconcile_complete`: **the rules are complete** except for a merged pull request in the states
  that no rule watches.
-/

open Storage Storage.Action

namespace MiniCoder

/-! ### Finished pull requests -/

namespace ObservedPullRequest

variable (observed : ObservedPullRequest)

/-- The source host reports the pull request merged. -/
def ReportsMerged : Prop := observed.state = "merged" ∨ observed.mergedAt ≠ none

/-- The source host reports the pull request closed without a merge. -/
def ReportsClosed : Prop := observed.state = "closed" ∧ observed.mergedAt = none

/-- No rule watches a run in the state, for what was observed of the checks and of the review. -/
def Unwatched : FeatureExecutionState → Prop
  | .approvedPendingExecution | .selected | .coding | .fixing | .approvedByPolicy | .mergeFailed
  | .systemFailed => True
  | .prOpened => observed.ciStatus ∉ ["running", "passed", "failed"]
  | .ciRunning => observed.ciStatus ∉ ["passed", "failed"]
  | .underReview => observed.reviewState ≠ "changes_requested"
  | _ => False

end ObservedPullRequest

open FeatureExecutionState in
/-- The states of a run that nothing is expected of: a human's, or final. -/
def finishedStates : List FeatureExecutionState := [merged, humanRequired, blocked, failed, skipped]

/-- Whenever a call takes no action for a finished pull request, the run it read is finished, or
waits for the merge route to record the merge. -/
def ReconcileComplete (observed : ObservedPullRequest) (state : FeatureExecutionState) : Prop :=
  ∀ (others : Others) (opts : ReconcileOptions) (s s' : Session) (run : FeatureRun)
    (result : ReconcileResult), opts.observed = observed →
    s.db.findFeatureRun opts.featureRunId opts.projectId = some run →
    run.currentExecutionState = state →
    exec (reconcileGithubState others opts) s = (.ok result, s') → result.action = .none →
    (observed.ReportsMerged → state = .mergeReady ∨ state ∈ finishedStates) ∧
      (observed.ReportsClosed → state ∈ finishedStates)

/-! ### The cascade -/

namespace ReconcileRule

variable {observed : ObservedPullRequest} {state : FeatureExecutionState}

/-- For a merged pull request, no rule is selected where none watches. -/
theorem select_of_unwatched (hmerged : observed.ReportsMerged)
    (h : observed.Unwatched state) : select observed state = none := by
  have hopen : ¬ (observed.state = "closed" ∧ observed.mergedAt = none ∧
      state ∉ reconcileTerminalStates) := by
    rintro ⟨hclosed, hnone, -⟩
    rcases hmerged with hstate | hat
    · rw [hclosed] at hstate
      exact absurd hstate (by decide)
    · exact hat hnone
  unfold select
  rw [if_neg hopen]
  cases state <;> simp_all [ObservedPullRequest.Unwatched]

/-- Where no rule is selected, the run is finished, waits for the merge route, or is not watched. -/
theorem select_eq_none (h : select observed state = none) :
    (observed.Unwatched state ∨ state = .mergeReady ∨ state ∈ finishedStates) ∧
      (observed.ReportsClosed → state ∈ finishedStates) := by
  unfold select at h
  split at h
  · cases h
  · rename_i hopen
    constructor
    · cases state with
      | prOpened =>
        left
        show observed.ciStatus ∉ ["running", "passed", "failed"]
        grind
      | ciRunning =>
        left
        show observed.ciStatus ∉ ["passed", "failed"]
        grind
      | _ => simp_all [ObservedPullRequest.Unwatched, finishedStates]
    · rintro ⟨hclosed, hnone⟩
      have hterminal : state ∈ reconcileTerminalStates := by
        by_contra hnot
        exact hopen ⟨hclosed, hnone, hnot⟩
      revert hterminal
      cases state <;> decide

/-- An unwatched run is in flight. -/
theorem not_finished_of_unwatched (h : observed.Unwatched state) :
    ¬ (state = .mergeReady ∨ state ∈ finishedStates) := by
  cases state <;> first | exact absurd h id | decide

end ReconcileRule

/-! ### A call without an action -/

section Call

variable {others : Others} {opts : ReconcileOptions} {s s' : Session}

/-- **A step without an action selected no rule.** -/
theorem runStep_none {left : ℕ} {currentState : FeatureExecutionState} {expectedVersion : ℕ}
    {r : Option ReconcileStep}
    (h : exec (runStep others left opts currentState expectedVersion) s = (.ok r, s')) :
    (r = none → ReconcileRule.select opts.observed currentState = none) ∧
      ∀ step, r = some step → step.action ≠ .none := by
  rw [runStep] at h
  rcases hselect : ReconcileRule.select opts.observed currentState with _ | rule
  · rw [hselect] at h
    obtain ⟨hr, -⟩ := Prod.mk.inj h
    obtain rfl := Except.ok.inj hr
    exact ⟨fun _ => rfl, fun _ hsome => by cases hsome⟩
  · rw [hselect] at h
    replace h : exec (ite _ _ _ : Sql (Option ReconcileStep)) s = (.ok r, s') := h
    rw [exec_ite] at h
    split at h
    · obtain ⟨hr, -⟩ := Prod.mk.inj h
      obtain rfl := Except.ok.inj hr
      refine ⟨fun hnone => (by cases hnone), fun step hsome => ?_⟩
      obtain rfl := Option.some.inj hsome
      decide
    · obtain ⟨limited, s₁, -, h₁⟩ := exec_bind_ok.mp h
      obtain ⟨commandId, s₂, -, h₂⟩ := exec_bind_ok.mp h₁
      obtain ⟨⟨result, d⟩, s₃, -, h₃⟩ := exec_bind_ok.mp h₂
      obtain ⟨hr, -⟩ := Prod.mk.inj h₃
      obtain rfl := Except.ok.inj hr
      refine ⟨fun hnone => (by cases hnone), fun step hsome => ?_⟩
      obtain rfl := Option.some.inj hsome
      show limited.action ≠ .none
      cases limited <;> decide

/-- Every step that the loop adds is an action, by induction on the steps left. -/
theorem catchUp_actions {left : ℕ} {c c' : CatchUp}
    (h : exec (catchUp others opts left c) s = (.ok c', s')) :
    ∃ steps, c'.steps = c.steps ++ steps ∧ ∀ step ∈ steps, step.action ≠ .none := by
  induction left generalizing c s with
  | zero =>
    obtain ⟨hc, -⟩ := Prod.mk.inj h
    obtain rfl := Except.ok.inj hc
    exact ⟨[], (List.append_nil _).symm, by simp⟩
  | succ left ih =>
    obtain ⟨r, s₁, hstep, h₁⟩ := exec_bind_ok.mp h
    obtain ⟨-, haction⟩ := runStep_none hstep
    rcases r with _ | step
    · obtain ⟨hc, -⟩ := Prod.mk.inj h₁
      obtain rfl := Except.ok.inj hc
      exact ⟨[], (List.append_nil _).symm, by simp⟩
    · replace h₁ : exec (ite _ _ _ : Sql CatchUp) s₁ = (.ok c', s') := h₁
      rw [exec_ite] at h₁
      split at h₁
      · obtain ⟨hc, -⟩ := Prod.mk.inj h₁
        obtain rfl := Except.ok.inj hc
        refine ⟨[step], rfl, fun step' hmem => ?_⟩
        obtain rfl := List.mem_singleton.mp hmem
        exact haction _ rfl
      · obtain ⟨steps, hsteps, hall⟩ := ih h₁
        refine ⟨step :: steps, ?_, List.forall_mem_cons.mpr ⟨haction _ rfl, hall⟩⟩
        rw [hsteps, List.append_assoc]
        rfl

/-- A loop that added no step selected no rule at its start. -/
theorem catchUp_none {left : ℕ} {c c' : CatchUp}
    (h : exec (catchUp others opts (left + 1) c) s = (.ok c', s')) (hsteps : c'.steps = c.steps) :
    ReconcileRule.select opts.observed c.currentState = none := by
  obtain ⟨r, s₁, hstep, h₁⟩ := exec_bind_ok.mp h
  rcases r with _ | step
  · exact (runStep_none hstep).1 rfl
  · exfalso
    replace h₁ : exec (ite _ _ _ : Sql CatchUp) s₁ = (.ok c', s') := h₁
    rw [exec_ite] at h₁
    have hlonger : c.steps.length < c'.steps.length := by
      split at h₁
      · obtain ⟨hc, -⟩ := Prod.mk.inj h₁
        obtain rfl := Except.ok.inj hc
        simp
      · obtain ⟨steps, hadded, -⟩ := catchUp_actions h₁
        rw [hadded]
        simp
    rw [hsteps] at hlonger
    exact absurd hlonger (Nat.lt_irrefl _)

/-- **A call without an action selected no rule in the state it read.** -/
theorem reconcile_none {result : ReconcileResult} {run : FeatureRun}
    (hrun : s.db.findFeatureRun opts.featureRunId opts.projectId = some run)
    (h : exec (reconcileGithubState others opts) s = (.ok result, s'))
    (hnone : result.action = .none) :
    ReconcileRule.select opts.observed run.currentExecutionState = none := by
  obtain ⟨run', s₁, c, s₂, hfound, -, hloop, rfl, -⟩ := reconcile_ok h
  rw [hrun] at hfound
  obtain rfl := Option.some.inj hfound
  obtain ⟨steps, hsteps, hall⟩ := catchUp_actions hloop
  replace hsteps : c.steps = steps := hsteps
  refine catchUp_none hloop ?_
  show c.steps = []
  rcases List.eq_nil_or_concat' c.steps with hnil | ⟨init, last, hlast⟩
  · exact hnil
  · -- the action of the call is the one of its last step
    have hmem : last ∈ steps := by
      rw [← hsteps, hlast]
      simp
    have haction : last.action = .none := by
      rw [← hnone]
      simp [ReconcileResult.action, ReconcileResult.actions, hlast]
    exact absurd haction (hall last hmem)

/-! ### The mirror row -/

/-- The tables after a sync of the mirror row. -/
def Db.synced (db : Db) (featureRunId : String) (observed : ObservedPullRequestState) : Db :=
  if (db.findPullRequest featureRunId).all (fun pr => decide (pr.shown = observed)) = true then db
  else { db with
    pullRequests := db.pullRequests.update (fun pr => pr.featureRunId == featureRunId)
      (PullRequest.observe observed) (PullRequest.observe_keys observed) }

/-- What a sync leaves alone. -/
theorem Db.synced_view {τ : Type} {g : Db → τ}
    (hg : ∀ db t, g { db with pullRequests := t } = g db) (db : Db) (featureRunId : String)
    (observed : ObservedPullRequestState) : g (db.synced featureRunId observed) = g db := by
  unfold synced
  split
  · rfl
  · exact hg db _

/-- The row after a sync. -/
def PullRequest.synced (observed : ObservedPullRequestState) (pr : PullRequest) : PullRequest :=
  if pr.shown = observed then pr else pr.observe observed

theorem PullRequest.shown_synced (observed : ObservedPullRequestState) (pr : PullRequest) :
    (pr.synced observed).shown = observed := by
  unfold synced
  split
  · assumption
  · rfl

/-- **What a sync makes of the row of the run.** -/
theorem Db.findPullRequest_synced (db : Db) (featureRunId : String)
    (observed : ObservedPullRequestState) :
    (db.synced featureRunId observed).findPullRequest featureRunId =
      (db.findPullRequest featureRunId).map (PullRequest.synced observed) := by
  rw [synced]
  split
  · rename_i hshown
    rcases hfind : db.findPullRequest featureRunId with _ | pr
    · rfl
    · rw [hfind, Option.all_some, decide_eq_true_eq] at hshown
      rw [Option.map_some, PullRequest.synced, if_pos hshown]
  · rename_i hshown
    refine Eq.trans (findPullRequest_of_update (PullRequest.observe_keys _) rfl fun _ => rfl) ?_
    rcases hfind : db.findPullRequest featureRunId with _ | pr
    · rfl
    · rw [hfind, Option.all_some, decide_eq_true_eq] at hshown
      rw [Option.map_some, Option.map_some, PullRequest.synced, if_neg hshown]

/-- A sync makes the row show what was observed. -/
theorem Db.shown_synced (db : Db) (featureRunId : String) (observed : ObservedPullRequestState) :
    ((db.synced featureRunId observed).findPullRequest featureRunId).all
      (fun pr => decide (pr.shown = observed)) = true := by
  rw [findPullRequest_synced]
  cases db.findPullRequest featureRunId with
  | none => rfl
  | some pr => exact decide_eq_true (pr.shown_synced observed)

/-- A second sync with the same snapshot changes nothing. -/
theorem Db.synced_synced (db : Db) (featureRunId : String) (observed : ObservedPullRequestState) :
    (db.synced featureRunId observed).synced featureRunId observed =
      db.synced featureRunId observed :=
  if_pos (db.shown_synced featureRunId observed)

theorem returns_sync (hs : s.Willing) (featureRunId : String)
    (observed : ObservedPullRequestState) :
    Returns (transaction (syncPullRequestObservedState featureRunId observed)) s fun _ s' =>
      s'.db = s.db.synced featureRunId observed ∧ s'.runtime = s.runtime ∧
        s'.drawn = s.drawn := by
  apply returns_transaction
  refine (returns_query hs _).bind fun existing s₁ ⟨hexisting, hreads⟩ => ?_
  subst hexisting
  by_cases hshown : (s.db.findPullRequest featureRunId).all
      (fun pr => decide (pr.shown = observed)) = true
  · rw [if_pos hshown]
    refine returns_pure ⟨hreads.willing hs, fun s₂ hcommit => ?_⟩
    obtain ⟨hdb, hrt, hdrawn⟩ := hreads.trans hcommit
    exact ⟨by rw [hdb, Db.synced, if_pos hshown], hrt, hdrawn⟩
  · rw [if_neg hshown]
    refine (returns_execute (hreads.willing hs) rfl).imp fun _ s₂ ⟨_, hdb, hrt, hdrawn⟩ => ?_
    constructor
    · intro n
      rw [hrt, hreads.runtime]
      exact hs n
    · rintro s₃ ⟨hdb', hrt', hdrawn'⟩
      refine ⟨?_, hrt'.trans (hrt.trans hreads.runtime), hdrawn'.trans (hdrawn.trans hreads.drawn)⟩
      rw [hdb', hdb, hreads.db, Db.synced, if_neg hshown]

/-! ### A call that finds nothing to do -/

/-- **A call that selects no rule returns without a step**, and changes nothing but the mirror
row. -/
theorem returns_rest {run : FeatureRun} (hs : s.Willing)
    (hrun : s.db.findFeatureRun opts.featureRunId opts.projectId = some run)
    (hrest : ReconcileRule.select opts.observed run.currentExecutionState = none) :
    Returns (reconcileGithubState alone opts) s fun result s' =>
      result = { steps := [], resultingState := none } ∧
        s'.db = s.db.synced opts.featureRunId opts.observed.toObservedPullRequestState := by
  refine (returns_query hs _).bind fun row s₁ hreturned₁ => ?_
  obtain ⟨hrow, hreads⟩ := hreturned₁
  rw [hrun] at hrow
  subst hrow
  refine (returns_write (P := fun _ s => s = s₁) rfl).bind fun _ s₂ hs₂ => ?_
  subst hs₂
  refine (returns_sync (hreads.willing hs) _ _).bind fun _ s₃ hreturned₃ => ?_
  obtain ⟨hdb₃, hrt₃, _⟩ := hreturned₃
  have hloop : Returns (catchUp alone opts maxReconcileSteps {
      currentState := run.currentExecutionState
      expectedVersion := run.version }) s₃ fun c s₄ => c.steps = [] ∧ c.resultingState = none ∧
        s₄ = s₃ := by
    have hstep : runStep alone 4 opts run.currentExecutionState run.version = pure none := by
      rw [runStep, hrest]
    show Returns (runStep alone 4 opts run.currentExecutionState run.version >>= _) s₃ _
    rw [hstep]
    exact returns_pure ⟨rfl, rfl, rfl⟩
  refine hloop.bind fun c s₄ hreturned₄ => ?_
  obtain ⟨hsteps, hresulting, hs₄⟩ := hreturned₄
  subst hs₄
  refine (returns_write (P := fun _ s => s = s₄) rfl).bind fun _ s₅ hs₅ => ?_
  subst hs₅
  have hs₄ : s₅.Willing := by
    intro n
    rw [hrt₃, hreads.runtime]
    exact hs n
  refine (returns_sync hs₄ _ _).bind fun _ s₆ hreturned₆ => ?_
  obtain ⟨hdb₆, _, _⟩ := hreturned₆
  refine returns_pure ⟨by rw [hsteps, hresulting], ?_⟩
  rw [hdb₆, hdb₃, hreads.db, Db.synced_synced]

end Call

/-! ### The rules and the finished pull requests -/

/-- A database with one run, in a state. -/
def dbWithRunIn (state : FeatureExecutionState) : Db where
  featureRequests := .ofList [{ id := "request-1", projectId := "P" }]
  featureRuns := .ofList [
    { id := "run-1", featureRequestId := "request-1", currentExecutionState := state }]

theorem findFeatureRun_dbWithRunIn (state : FeatureExecutionState) :
    (dbWithRunIn state).findFeatureRun "run-1" "P" =
      some { id := "run-1", featureRequestId := "request-1", currentExecutionState := state } := by
  cases state <;> decide +kernel

/-- An unwatched run stays in flight: a call for it returns without an action. -/
theorem not_complete_of_unwatched {observed : ObservedPullRequest} {state : FeatureExecutionState}
    (hmerged : observed.ReportsMerged) (h : observed.Unwatched state) :
    ¬ ReconcileComplete observed state := by
  intro hcomplete
  have hrun := findFeatureRun_dbWithRunIn state
  have hwilling : (Session.start (dbWithRunIn state) (sampleRuntime 0)).Willing := fun _ => rfl
  have hrest : Returns (reconcileGithubState alone (sampleReconcile observed)) _ _ :=
    returns_rest hwilling hrun (ReconcileRule.select_of_unwatched hmerged h)
  obtain ⟨result, s', hcall, rfl, -⟩ := hrest
  have hfinished := (hcomplete alone _ _ _ _ _ rfl hrun rfl hcall rfl).1 hmerged
  exact ReconcileRule.not_finished_of_unwatched h hfinished

/-- **The rules are complete exactly when no merged pull request meets an unwatched run.** -/
theorem reconcile_complete (observed : ObservedPullRequest) (state : FeatureExecutionState) :
    ReconcileComplete observed state ↔ ¬ (observed.ReportsMerged ∧ observed.Unwatched state) := by
  constructor
  · rintro hcomplete ⟨hmerged, hunwatched⟩
    exact not_complete_of_unwatched hmerged hunwatched hcomplete
  · rintro hwatched others opts s s' run result rfl hrun rfl h hnone
    obtain ⟨hrests, hclosed⟩ := ReconcileRule.select_eq_none (reconcile_none hrun h hnone)
    refine ⟨fun hmerged => ?_, hclosed⟩
    rcases hrests with hunwatched | hfinished
    · exact absurd ⟨hmerged, hunwatched⟩ hwatched
    · exact hfinished

/-! ### A merge on the source host -/

/-- The pull request of the first feature, approved and merged by a maintainer. -/
def mergedPullRequest : ObservedPullRequest :=
  { closedPullRequest with
    state := "merged"
    reviewState := "approved"
    ciStatus := "passed"
    mergedAt := some 5
    mergeSha := some "merge" }

/-- **A merge on the source host is passed over**: the run is under review, its pull request is
merged, and the call takes no action and leaves it under review. -/
theorem reconcile_incomplete :
    mergedPullRequest.ReportsMerged ∧ ¬ ReconcileComplete mergedPullRequest .underReview ∧
      ∃ result s', exec (reconcileGithubState alone (sampleReconcile mergedPullRequest))
          (.start resumedAfterPass (sampleRuntime 8)) = (.ok result, s') ∧
        result.action = .none ∧ s'.db.stateOf "run-1" = some .underReview := by
  have hmerged : mergedPullRequest.ReportsMerged := Or.inl rfl
  have hunwatched : mergedPullRequest.Unwatched .underReview := by
    show "approved" ≠ "changes_requested"
    decide
  have hreport : reportOf (exec (reconcileGithubState alone (sampleReconcile mergedPullRequest))
      (.start resumedAfterPass (sampleRuntime 8))) = (some ([], none), some .underReview) := by
    decide +kernel
  refine ⟨hmerged, not_complete_of_unwatched hmerged hunwatched, ?_⟩
  rcases h : exec (reconcileGithubState alone (sampleReconcile mergedPullRequest))
      (.start resumedAfterPass (sampleRuntime 8)) with ⟨e | result, s'⟩
  · rw [h] at hreport
    cases hreport
  · rw [h] at hreport
    obtain ⟨hresult, hstate⟩ := Prod.mk.inj hreport
    obtain ⟨hactions, -⟩ := Prod.mk.inj (Option.some.inj hresult)
    refine ⟨result, s', rfl, ?_, hstate⟩
    rw [ReconcileResult.action, hactions]
    rfl

end MiniCoder
