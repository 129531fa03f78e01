import MiniCoder.Reconcile.Row

/-!
# The mirror of a pull request

A call of `reconcileGithubState` syncs the row of its run before and after its steps.  A sync does
not write the number, the branch and the base branch: they stay what the opening of the pull request
has recorded, also when the pull request is retargeted, and the merge gate compares the base branch of
the row.

* `runStep_alone`: what a step does to the run and to the row.
* `catchUp_first`, `catchUp_past`: a call records an opening in its first step, or never.
* `reconcile_row`: what a call makes of the row.
* `mirror_synchronised_iff`: **the row shows the whole snapshot if and only if** the call records
  the opening, or the row had the number and both branches already.
* `not_synchronised_retargeted`: a retargeted pull request keeps its old base branch in the row.
-/

open Storage Storage.Action

namespace MiniCoder

/-! ### One step of a call that runs alone -/

/-- A step records the opening: the loop is at `code_pushed`, the pull request is not closed, the
call holds the lane, and there is no live result under the key of the command. -/
structure ReconcileOptions.OpensFrom (opts : ReconcileOptions) (now : ℤ) (db : Db)
    (state : FeatureExecutionState) (version : ℕ) : Prop where
  pushed : state = .codePushed
  notClosed : ¬ opts.observed.ReportsClosed
  locked : opts.lockContext ≠ none
  fresh : db.findCachedResult (ReconcileRule.prOpened.key opts version)
    recordPrOpenedHandler.idempotencyScope now = none

/-- The call records the opening of the pull request, from the state of its run. -/
def ReconcileOptions.Opens (opts : ReconcileOptions) (now : ℤ) (db : Db) : Prop :=
  ∃ run, db.findFeatureRun opts.featureRunId opts.projectId = some run ∧
    opts.OpensFrom now db run.currentExecutionState run.version

theorem ReconcileOptions.Opens.of_eq {opts : ReconcileOptions} {now : ℤ} {db db' : Db}
    (h : opts.Opens now db)
    (hruns : db'.findFeatureRun opts.featureRunId opts.projectId =
      db.findFeatureRun opts.featureRunId opts.projectId)
    (hkeys : db'.idempotencyKeys = db.idempotencyKeys) : opts.Opens now db' := by
  obtain ⟨run, hrun, hopens⟩ := h
  refine ⟨run, hruns.trans hrun, hopens.pushed, hopens.notClosed, hopens.locked, ?_⟩
  rw [Db.findCachedResult, hkeys]
  exact hopens.fresh

/-- What a step that took the tables from `db` to `db'` did to the run and to the row. -/
inductive Stepped (opts : ReconcileOptions) (now : ℤ) (state : FeatureExecutionState) (version : ℕ)
    (db db' : Db) : Prop
  /-- It issued no command, or its command answered from a live result. -/
  | kept (opens : ¬ opts.OpensFrom now db state version)
      (rows : db'.pullRequests = db.pullRequests)
      (runs : db'.findFeatureRun opts.featureRunId opts.projectId =
        db.findFeatureRun opts.featureRunId opts.projectId)
  /-- Its command moved the run. -/
  | moved (run : FeatureRun)
      (found : db.findFeatureRun opts.featureRunId opts.projectId = some run)
      (isVersion : run.version = version)
      (left : ∀ run', db'.findFeatureRun opts.featureRunId opts.projectId = some run' →
        run'.version = version + 1 ∧ run'.currentExecutionState ≠ .codePushed)
      (row : (opts.OpensFrom now db state version ∧ run.currentExecutionState = .codePushed ∧
          opts.Opened db db') ∨
        (¬ opts.OpensFrom now db state version ∧ db'.pullRequests = db.pullRequests))

section Alone

variable {opts : ReconcileOptions} {s s' : Session} {state : FeatureExecutionState} {version : ℕ}

/-- The tables that a command finds are those of the session. -/
theorem dispatch_found {left : ℕ} {request : Request} {result : CommandResult} {d : Dispatch}
    (h : exec (dispatch alone left request) s = (.ok (result, d), s')) :
    d.looked = s.db ∧ d.found = s.db := by
  obtain ⟨_, s₁, hmeanwhile, h₁⟩ := exec_bind_ok.mp h
  obtain ⟨hdb₁, -⟩ := meanwhile_ok hmeanwhile
  obtain ⟨looked, s₂, hlooked, h₂⟩ := exec_bind_ok.mp h₁
  obtain ⟨hlookedDb, rfl⟩ := Prod.mk.inj hlooked
  obtain rfl := Except.ok.inj hlookedDb
  obtain ⟨cached, s₃, hprecheck, h₃⟩ := exec_bind_ok.mp h₂
  obtain ⟨hdb₃, -, -⟩ := precheck_ok hprecheck
  rcases cached with _ | cached
  · obtain ⟨_, s₄, hmeanwhile', h₄⟩ := exec_bind_ok.mp h₃
    obtain ⟨hdb₄, -⟩ := meanwhile_ok hmeanwhile'
    obtain ⟨found, s₅, hfound, h₅⟩ := exec_bind_ok.mp h₄
    obtain ⟨hfoundDb, rfl⟩ := Prod.mk.inj hfound
    obtain rfl := Except.ok.inj hfoundDb
    obtain ⟨result', s₆, -, h₆⟩ := exec_bind_ok.mp h₅
    obtain ⟨after, s₇, -, h₇⟩ := exec_bind_ok.mp h₆
    obtain ⟨hpair, -⟩ := Prod.mk.inj h₇
    obtain ⟨-, rfl⟩ := Prod.mk.inj (Except.ok.inj hpair)
    exact ⟨hdb₁, hdb₄.trans (hdb₃.trans hdb₁)⟩
  · obtain ⟨hpair, -⟩ := Prod.mk.inj h₃
    obtain ⟨-, rfl⟩ := Prod.mk.inj (Except.ok.inj hpair)
    exact ⟨hdb₁, hdb₁⟩

/-- **A command answered from a live result and left the tables as they were, or there was none and
its transaction did its work.** -/
theorem dispatch_alone {left : ℕ} {request : Request} {result : CommandResult} {d : Dispatch}
    (h : exec (dispatch alone left request) s = (.ok (result, d), s')) :
    (request.cachedResult s.runtime.now s.db ≠ none ∧
      s'.db.withoutEvidence = s.db.withoutEvidence) ∨
    (request.cachedResult s.runtime.now s.db = none ∧ ∃ ev, ∃ s₀ : Session,
      s₀.db.withoutEvidence = s.db.withoutEvidence ∧ request.Did ev s₀.runtime s₀.db s'.db ∧
        exec (request.commit ev) s₀ = (.ok result, s')) := by
  obtain ⟨hlooked, hfound⟩ := dispatch_found h
  obtain ⟨hrequest, hleft, -, hcases⟩ := dispatch_cases h
  have hfresh : d.Fresh s.runtime.now ↔ request.cachedResult s.runtime.now s.db = none := by
    rw [Dispatch.Fresh, hrequest, hlooked, hfound, and_self]
  rw [hfresh, hfound, ← hleft] at hcases
  rcases hcases with ⟨hkept, hcached⟩ | ⟨hnone, ev, s₀, hevidence, -, hnone₀, hcommit⟩
  · exact Or.inl ⟨hcached, hkept⟩
  · rcases Request.commit_cases hcommit with ⟨-, hlive⟩ | ⟨-, hdid, -⟩
    · exact absurd hnone₀ hlive
    · exact Or.inr ⟨hnone, ev, s₀, hevidence, hdid, hcommit⟩

/-- The limit of fix attempts turns no other rule into the opening of a pull request. -/
theorem ReconcileRule.limited_eq_prOpened (rule : ReconcileRule) (count : ℕ) :
    rule.limited count = prOpened ↔ rule = prOpened := by
  cases rule <;> grind [ReconcileRule.limited]

theorem limitRule_alone {left : ℕ} {rule rule' : ReconcileRule}
    (h : exec (limitRule alone left opts rule) s = (.ok rule', s')) :
    s'.db = s.db ∧ s'.runtime = s.runtime ∧ (rule' = .prOpened ↔ rule = .prOpened) := by
  have hrt := limitRule_ok h
  rw [limitRule, exec_ite] at h
  split at h
  · obtain ⟨_, s₁, hmeanwhile, h₁⟩ := exec_bind_ok.mp h
    obtain ⟨count, s₂, hquery, h₂⟩ := exec_bind_ok.mp h₁
    obtain ⟨hrule, rfl⟩ := Prod.mk.inj h₂
    obtain rfl := Except.ok.inj hrule
    have hdb : s₂.db = s.db := (query_ok hquery).2.1.trans (meanwhile_ok hmeanwhile).1
    exact ⟨hdb, hrt, rule.limited_eq_prOpened count⟩
  · obtain ⟨hrule, rfl⟩ := Prod.mk.inj h
    obtain rfl := Except.ok.inj hrule
    exact ⟨rfl, hrt, Iff.rfl⟩

/-- Only `code_pushed` leads to `pr_opened`. -/
theorem edges_to_prOpened : ∀ row ∈ featureExecutionMatrix, row.toState = .prOpened →
    row.fromState = .codePushed := by
  decide

/-- No rule leads back to `code_pushed`. -/
theorem ReconcileRule.target_ne_codePushed (rule : ReconcileRule) :
    rule.command.target ≠ .codePushed := by
  cases rule <;> decide

/-- **What a step did to the run and to the row.** -/
theorem runStep_alone {left : ℕ} {r : Option ReconcileStep}
    (h : exec (runStep alone left opts state version) s = (.ok r, s')) :
    s'.runtime = s.runtime ∧ Stepped opts s.runtime.now state version s.db s'.db := by
  refine ⟨(runStep_ok h).1, ?_⟩
  rw [runStep] at h
  rcases hselect : ReconcileRule.select opts.observed state with _ | rule
  · rw [hselect] at h
    obtain ⟨-, rfl⟩ := Prod.mk.inj h
    refine .kept (fun hopens => ?_) rfl rfl
    have hopening := ReconcileRule.select_eq_prOpened.mpr ⟨hopens.pushed, hopens.notClosed⟩
    rw [hselect] at hopening
    cases hopening
  · rw [hselect] at h
    replace h : exec (ite _ _ _ : Sql (Option ReconcileStep)) s = (.ok r, s') := h
    have hrule : rule = .prOpened ↔ state = .codePushed ∧ ¬ opts.observed.ReportsClosed := by
      rw [← ReconcileRule.select_eq_prOpened, hselect, Option.some.injEq]
    rw [exec_ite] at h
    split at h
    · rename_i hneeds
      obtain ⟨-, rfl⟩ := Prod.mk.inj h
      exact .kept (fun hopens => hopens.locked hneeds.2) rfl rfl
    · rename_i hneeds
      obtain ⟨limited, s₁, hlimit, h₁⟩ := exec_bind_ok.mp h
      obtain ⟨hdb₁, hrt₁, hlimited⟩ := limitRule_alone hlimit
      obtain ⟨commandId, s₂, hid, h₂⟩ := exec_bind_ok.mp h₁
      obtain ⟨-, rfl⟩ := Prod.mk.inj hid
      obtain ⟨⟨result, d⟩, s₃, hdispatch, h₃⟩ := exec_bind_ok.mp h₂
      obtain ⟨-, rfl⟩ := Prod.mk.inj h₃
      have hcases := dispatch_alone hdispatch
      simp only [hdb₁, hrt₁] at hcases
      have hopens : opts.OpensFrom s.runtime.now s.db state version ↔ limited = .prOpened ∧
          (limited.request opts state version commandId).cachedResult s.runtime.now s.db = none := by
        constructor
        · intro hopens
          obtain rfl := hlimited.mpr (hrule.mpr ⟨hopens.pushed, hopens.notClosed⟩)
          exact ⟨rfl, hopens.fresh⟩
        · rintro ⟨rfl, hnone⟩
          obtain rfl := hlimited.mp rfl
          obtain ⟨hpushed, hopen⟩ := hrule.mp rfl
          exact ⟨hpushed, hopen, fun hlock => hneeds ⟨rfl, hlock⟩, hnone⟩
      rcases hcases with ⟨hcached, hkept⟩ | ⟨hnone, ev, s₀, hevidence, hdid, hcommit⟩
      · refine .kept (fun h => hcached (hopens.mp h).2) ?_ ?_
        · exact congrArg (fun db => db.pullRequests) hkept
        · exact congrArg (fun db => db.findFeatureRun opts.featureRunId opts.projectId) hkept
      · obtain ⟨run, hstep⟩ := hdid.step
        have hrows : s₀.db.pullRequests = s.db.pullRequests :=
          congrArg (fun db => db.pullRequests) hevidence
        have hfound := hstep.found
        have hversion := hstep.version
        have hvalid := hstep.valid
        obtain ⟨-, -, next, hnext, hnextId, -, hnextVersion, hnextState⟩ := hstep.moves
        rw [ReconcileRule.request_ref] at hfound hversion hnextId
        rw [ReconcileRule.request_command] at hvalid hnextState
        replace hversion : run.version = version := hversion
        have hbefore : s.db.findFeatureRun opts.featureRunId opts.projectId = some run := by
          rw [← hfound]
          exact (congrArg (fun db => db.findFeatureRun opts.featureRunId opts.projectId)
            hevidence).symm
        refine .moved run hbefore hversion (fun run' hrun' => ?_) ?_
        · obtain ⟨hmem, hid', -⟩ := Db.findFeatureRun_some hrun'
          have hsame : run'.id = next.id := hid'.trans hnextId.symm
          obtain rfl := s₃.db.featureRuns.eq_of_clash hmem hnext (decide_eq_true hsame)
          refine ⟨hnextVersion.trans (congrArg (· + 1) hversion), ?_⟩
          rw [hnextState]
          exact limited.target_ne_codePushed
        · by_cases hopening : limited = .prOpened
          · subst hopening
            obtain ⟨row, hrow, hfrom, hto⟩ := isValid_iff.mp hvalid
            have hpushed : run.currentExecutionState = .codePushed :=
              hfrom.symm.trans (edges_to_prOpened row hrow hto)
            obtain ⟨pr, hpr, hopened, hnewer⟩ := ReconcileRule.opened_of_commit hcommit hdid.ne
            refine Or.inl ⟨hopens.mpr ⟨rfl, hnone⟩, hpushed, pr, hpr, hopened, fun pr₀ hpr₀ => ?_⟩
            refine hnewer pr₀ ?_
            rw [Db.findPullRequest, hrows]
            exact hpr₀
          · refine Or.inr ⟨fun h => hopening (hopens.mp h).1, ?_⟩
            have hframe := ReconcileRule.frame_commit_pullRequests hopening ev
            exact (hframe.of_exec hcommit).trans hrows

/-! ### The loop of a call that runs alone -/

/-- The loop has gone past the opening: the run is no longer in `code_pushed` at the version that
the next command expects. -/
def ReconcileOptions.Past (opts : ReconcileOptions) (version : ℕ) (db : Db) : Prop :=
  ∀ run, db.findFeatureRun opts.featureRunId opts.projectId = some run →
    run.version ≤ version ∧ (run.version = version → run.currentExecutionState ≠ .codePushed)

/-- After any step, the loop has gone past the opening. -/
theorem Stepped.past {now : ℤ} {db db' : Db} (h : Stepped opts now state version db db')
    (hbehind : ∀ run, db.findFeatureRun opts.featureRunId opts.projectId = some run →
      run.version ≤ version) : opts.Past (version + 1) db' := by
  intro run hrun
  cases h with
  | kept opens rows runs =>
    rw [runs] at hrun
    have hle := hbehind run hrun
    exact ⟨by omega, fun heq => absurd heq (by omega)⟩
  | moved before found isVersion left row =>
    obtain ⟨hversion, hstate⟩ := left run hrun
    exact ⟨hversion.le, fun _ => hstate⟩

/-- Past the opening, a step leaves the row alone. -/
theorem Stepped.rows_of_past {now : ℤ} {db db' : Db} (h : Stepped opts now state version db db')
    (hpast : opts.Past version db) : db'.pullRequests = db.pullRequests := by
  cases h with
  | kept opens rows runs => exact rows
  | moved run found isVersion left row =>
    rcases row with ⟨-, hpushed, -⟩ | ⟨-, hrows⟩
    · exact absurd hpushed ((hpast run found).2 isVersion)
    · exact hrows

/-- **Past the opening, the loop leaves the row alone**, by induction on the steps left. -/
theorem catchUp_past {left : ℕ} {c c' : CatchUp} (hpast : opts.Past c.expectedVersion s.db)
    (h : exec (catchUp alone opts left c) s = (.ok c', s')) :
    s'.db.pullRequests = s.db.pullRequests := by
  induction left generalizing c s with
  | zero =>
    obtain ⟨-, rfl⟩ := Prod.mk.inj h
    rfl
  | succ left ih =>
    obtain ⟨r, s₁, hstep, h₁⟩ := exec_bind_ok.mp h
    obtain ⟨-, hstepped⟩ := runStep_alone hstep
    have hrows : s₁.db.pullRequests = s.db.pullRequests := hstepped.rows_of_past hpast
    cases r with
    | none =>
      obtain ⟨-, rfl⟩ := Prod.mk.inj h₁
      exact hrows
    | some step =>
      replace h₁ : exec (ite _ _ _ : Sql CatchUp) s₁ = (.ok c', s') := h₁
      rw [exec_ite] at h₁
      split at h₁
      · obtain ⟨-, rfl⟩ := Prod.mk.inj h₁
        exact hrows
      · have hnext : opts.Past (nextVersion c.expectedVersion) s₁.db :=
          hstepped.past fun run hrun => (hpast run hrun).1
        exact (ih hnext h₁).trans hrows

/-- **A call records the opening in its first step, or never.** -/
theorem catchUp_first {left : ℕ} {run : FeatureRun} {c' : CatchUp}
    (hrun : s.db.findFeatureRun opts.featureRunId opts.projectId = some run)
    (h : exec (catchUp alone opts (left + 1) {
      currentState := run.currentExecutionState
      expectedVersion := run.version }) s = (.ok c', s')) :
    (opts.Opens s.runtime.now s.db ∧ opts.Opened s.db s'.db) ∨
      (¬ opts.Opens s.runtime.now s.db ∧ s'.db.pullRequests = s.db.pullRequests) := by
  have hopens : opts.Opens s.runtime.now s.db ↔
      opts.OpensFrom s.runtime.now s.db run.currentExecutionState run.version := by
    constructor
    · rintro ⟨run', hrun', hopens⟩
      obtain rfl := Option.some.inj (hrun'.symm.trans hrun)
      exact hopens
    · exact fun hopens => ⟨run, hrun, hopens⟩
  obtain ⟨r, s₁, hstep, h₁⟩ := exec_bind_ok.mp h
  obtain ⟨-, hstepped⟩ := runStep_alone hstep
  -- what is left of the loop keeps the row that the first step has left
  have hrest : s'.db.pullRequests = s₁.db.pullRequests := by
    cases r with
    | none =>
      obtain ⟨-, rfl⟩ := Prod.mk.inj h₁
      rfl
    | some step =>
      replace h₁ : exec (ite _ _ _ : Sql CatchUp) s₁ = (.ok c', s') := h₁
      rw [exec_ite] at h₁
      split at h₁
      · obtain ⟨-, rfl⟩ := Prod.mk.inj h₁
        rfl
      · have hnext : opts.Past (nextVersion run.version) s₁.db := by
          refine hstepped.past fun run' hrun' => ?_
          obtain rfl := Option.some.inj (hrun'.symm.trans hrun)
          exact le_refl _
        exact catchUp_past hnext h₁
  rw [hopens]
  cases hstepped with
  | kept opens rows runs => exact Or.inr ⟨opens, hrest.trans rows⟩
  | moved run' found isVersion left row =>
    rcases row with ⟨opens, -, pr, hpr, hopened, hnewer⟩ | ⟨opens, rows⟩
    · refine Or.inl ⟨opens, pr, ?_, hopened, hnewer⟩
      rw [Db.findPullRequest, hrest]
      exact hpr
    · exact Or.inr ⟨opens, hrest.trans rows⟩

end Alone

/-! ### Calls -/

/-- The mirror is synchronised: the row, if there is one, shows the snapshot; the merge gate decides
as on the snapshot; and a call whose snapshot the row showed already does not write the row, nor any
other table when no rule is selected. -/
structure ReconcileOptions.Synchronised (opts : ReconcileOptions) (db db' : Db) : Prop where
  mirrors : db'.Mirrors opts.featureRunId opts.observed
  decides : ∀ (rt : Runtime) (params : EvaluateMergeGateParams) (evaluationId : String),
    params.featureRunId = opts.featureRunId →
      MergeGate.evaluation rt db' params evaluationId =
        MergeGate.evaluation rt (db'.mirroring opts.featureRunId opts.observed) params evaluationId
  quiet : ∀ pr, db.findPullRequest opts.featureRunId = some pr → pr.snapshot = opts.observed →
    db'.pullRequests = db.pullRequests ∧
      ∀ run, db.findFeatureRun opts.featureRunId opts.projectId = some run →
        ReconcileRule.select opts.observed run.currentExecutionState = none → db' = db

/-- The row needs no column that a sync does not write: the call records the opening, and the row
does not show the snapshot yet; or the row, if there is one, has the number and both branches. -/
structure ReconcileOptions.MirrorAgrees (opts : ReconcileOptions) (now : ℤ) (db : Db) : Prop where
  opening : opts.Opens now db → ∀ pr, db.findPullRequest opts.featureRunId = some pr →
    pr.snapshot ≠ opts.observed
  opened : ¬ opts.Opens now db → ∀ pr, db.findPullRequest opts.featureRunId = some pr →
    pr.SameOpening opts.observed

section Calls

variable {others : Others} {opts : ReconcileOptions} {s s' : Session} {result : ReconcileResult}

/-- **The loop of a call runs between two syncs.** -/
theorem reconcile_synced (h : exec (reconcileGithubState others opts) s = (.ok result, s')) :
    ∃ run s₁ c s₂, s.db.findFeatureRun opts.featureRunId opts.projectId = some run ∧
      s₁.db = (others .sync s.db).synced opts.featureRunId
        opts.observed.toObservedPullRequestState ∧ s₁.runtime = s.runtime ∧
      exec (catchUp others opts maxReconcileSteps {
        currentState := run.currentExecutionState
        expectedVersion := run.version }) s₁ = (.ok c, s₂) ∧
      s'.db = (others .resync s₂.db).synced opts.featureRunId
        opts.observed.toObservedPullRequestState := by
  obtain ⟨row, s₁, hrow, h₁⟩ := exec_bind_ok.mp h
  obtain ⟨hfound, hdb₁, hrt₁⟩ := query_ok hrow
  cases row with
  | none => simp at h₁
  | some run =>
    obtain ⟨_, s₂, hmeanwhile, h₂⟩ := exec_bind_ok.mp h₁
    obtain ⟨hdb₂, hrt₂⟩ := meanwhile_ok hmeanwhile
    obtain ⟨_, s₃, hsync, h₃⟩ := exec_bind_ok.mp h₂
    obtain ⟨hdb₃, hrt₃⟩ := sync_ok hsync
    obtain ⟨c, s₄, hloop, h₄⟩ := exec_bind_ok.mp h₃
    obtain ⟨_, s₅, hmeanwhile', h₅⟩ := exec_bind_ok.mp h₄
    obtain ⟨hdb₅, -⟩ := meanwhile_ok hmeanwhile'
    obtain ⟨_, s₆, hresync, h₆⟩ := exec_bind_ok.mp h₅
    obtain ⟨hdb₆, -⟩ := sync_ok hresync
    obtain ⟨-, rfl⟩ := Prod.mk.inj h₆
    refine ⟨run, s₃, c, s₄, hfound.symm, ?_, hrt₃.trans (hrt₂.trans hrt₁), hloop, ?_⟩
    · rw [hdb₃, hdb₂, hdb₁]
    · rw [hdb₆, hdb₅]

/-- A loop whose first state selects no rule changes nothing. -/
theorem catchUp_of_none {left : ℕ} {c c' : CatchUp}
    (hnone : ReconcileRule.select opts.observed c.currentState = none)
    (h : exec (catchUp others opts (left + 1) c) s = (.ok c', s')) : s'.db = s.db := by
  obtain ⟨r, s₁, hstep, h₁⟩ := exec_bind_ok.mp h
  rw [runStep, hnone] at hstep
  obtain ⟨hr, rfl⟩ := Prod.mk.inj hstep
  obtain rfl := Except.ok.inj hr
  obtain ⟨-, rfl⟩ := Prod.mk.inj h₁
  rfl

/-- What a sync has made of a row. -/
theorem Db.exists_of_synced {db : Db} {featureRunId : String}
    {observed : ObservedPullRequestState} {pr : PullRequest}
    (h : (db.synced featureRunId observed).findPullRequest featureRunId = some pr) :
    ∃ pr₀, db.findPullRequest featureRunId = some pr₀ ∧ pr = pr₀.synced observed := by
  rw [findPullRequest_synced] at h
  obtain ⟨pr₀, hpr₀, hpr⟩ := Option.map_eq_some_iff.mp h
  exact ⟨pr₀, hpr₀, hpr.symm⟩

/-- Whatever other sessions do, the row shows what a sync writes. -/
theorem reconcile_shows (h : exec (reconcileGithubState others opts) s = (.ok result, s')) :
    ∀ pr, s'.db.findPullRequest opts.featureRunId = some pr →
      pr.shown = opts.observed.toObservedPullRequestState := by
  obtain ⟨run, s₁, c, s₂, -, -, -, -, hdb'⟩ := reconcile_synced h
  intro pr hpr
  rw [hdb'] at hpr
  obtain ⟨pr₀, -, rfl⟩ := Db.exists_of_synced hpr
  exact PullRequest.shown_synced _ _

/-- A gate that finds the snapshot in the row decides on the snapshot. -/
theorem Db.Mirrors.evaluation {db : Db} (hmirrors : db.Mirrors opts.featureRunId opts.observed)
    (rt : Runtime) (params : EvaluateMergeGateParams) (evaluationId : String) :
    MergeGate.evaluation rt db params evaluationId =
      MergeGate.evaluation rt (db.mirroring opts.featureRunId opts.observed) params
        evaluationId := by
  rw [hmirrors.mirroring_eq]

/-- **What a call that nobody disturbs makes of the row.** -/
theorem reconcile_row (h : exec (reconcileGithubState alone opts) s = (.ok result, s')) :
    (opts.Opens s.runtime.now s.db ∧ opts.Opened s.db s'.db) ∨
      (¬ opts.Opens s.runtime.now s.db ∧
        s'.db.findPullRequest opts.featureRunId =
          ((s.db.findPullRequest opts.featureRunId).map (PullRequest.synced opts.observed.1)).map
            (PullRequest.synced opts.observed.1) ∧
        (s.db.Mirrors opts.featureRunId opts.observed →
          s'.db.pullRequests = s.db.pullRequests ∧
            ∀ run, s.db.findFeatureRun opts.featureRunId opts.projectId = some run →
              ReconcileRule.select opts.observed run.currentExecutionState = none →
                s'.db = s.db)) := by
  obtain ⟨run, s₁, c, s₂, hrun, hdb₁, hrt₁, hloop, hdb'⟩ := reconcile_synced h
  replace hdb₁ : s₁.db = s.db.synced opts.featureRunId opts.observed.1 := hdb₁
  replace hdb' : s'.db = s₂.db.synced opts.featureRunId opts.observed.1 := hdb'
  have hrun₁ : s₁.db.findFeatureRun opts.featureRunId opts.projectId = some run := by
    rw [hdb₁, ← hrun]
    exact Db.synced_view (g := fun db => db.findFeatureRun opts.featureRunId opts.projectId)
      (fun _ _ => rfl) _ _ _
  have hopens : opts.Opens s₁.runtime.now s₁.db ↔ opts.Opens s.runtime.now s.db := by
    have hruns := hrun₁.trans hrun.symm
    have hkeys : s₁.db.idempotencyKeys = s.db.idempotencyKeys := by
      rw [hdb₁]
      exact Db.synced_view (fun _ _ => rfl) _ _ _
    rw [hrt₁]
    exact ⟨fun h => h.of_eq hruns.symm hkeys.symm, fun h => h.of_eq hruns hkeys⟩
  have hrow' : ∀ {pr : PullRequest}, s₂.db.findPullRequest opts.featureRunId = some pr →
      s'.db.findPullRequest opts.featureRunId = some (pr.synced opts.observed.1) := by
    intro pr hpr
    rw [hdb', Db.findPullRequest_synced, hpr, Option.map_some]
  rcases catchUp_first hrun₁ hloop with ⟨hopening, pr, hpr, hopened, hnewer⟩ | ⟨hopening, hrows⟩
  · refine Or.inl ⟨hopens.mp hopening, _, hrow' hpr, ?_, fun pr₀ hpr₀ => ?_⟩
    · exact (PullRequest.sameOpening_synced _ _).mpr hopened
    · have hpr₁ : s₁.db.findPullRequest opts.featureRunId = some (pr₀.synced opts.observed.1) := by
        rw [hdb₁, Db.findPullRequest_synced, hpr₀, Option.map_some]
      calc pr₀.version
          ≤ (pr₀.synced opts.observed.1).version := PullRequest.version_synced _ _
        _ < pr.version := hnewer _ hpr₁
        _ ≤ (pr.synced opts.observed.1).version := PullRequest.version_synced _ _
  · have hfind : s₂.db.findPullRequest opts.featureRunId =
        s₁.db.findPullRequest opts.featureRunId := by
      rw [Db.findPullRequest, hrows]
      rfl
    refine Or.inr ⟨fun h => hopening (hopens.mpr h), ?_, fun hmirrors => ?_⟩
    · rw [hdb', Db.findPullRequest_synced, hfind, hdb₁, Db.findPullRequest_synced]
    · -- neither sync finds anything to write
      have hsame₁ : s₁.db = s.db := hdb₁.trans hmirrors.synced_eq
      have hmirrors₂ : s₂.db.Mirrors opts.featureRunId opts.observed := by
        intro pr hpr
        rw [hfind, hsame₁] at hpr
        exact hmirrors pr hpr
      have hsame₂ : s'.db = s₂.db := hdb'.trans hmirrors₂.synced_eq
      refine ⟨?_, fun run' hrun' hnone => ?_⟩
      · rw [hsame₂, hrows, hsame₁]
      · obtain rfl := Option.some.inj (hrun'.symm.trans hrun)
        have hrest : s₂.db = s₁.db := catchUp_of_none hnone hloop
        rw [hsame₂, hrest, hsame₁]

/-- **The mirror of a pull request**: whatever other sessions do, the row shows what a sync writes;
and after a call that nobody disturbs, the mirror is synchronised if and only if the row needed no
column that a sync does not write. -/
theorem mirror_synchronised_iff (h : exec (reconcileGithubState others opts) s = (.ok result, s')) :
    (∀ pr, s'.db.findPullRequest opts.featureRunId = some pr →
      pr.shown = opts.observed.toObservedPullRequestState) ∧
    (others = alone →
      (opts.Synchronised s.db s'.db ↔ opts.MirrorAgrees s.runtime.now s.db)) := by
  refine ⟨reconcile_shows h, ?_⟩
  rintro rfl
  have hshows := reconcile_shows h
  rcases reconcile_row h with ⟨hopens, pr, hpr, hopened, hnewer⟩ | ⟨hopens, hrow, hquiet⟩
  · -- the row is as the opening has written it, and a later version than the one before
    have hmirrors : s'.db.Mirrors opts.featureRunId opts.observed := by
      intro pr' hpr'
      obtain rfl := Option.some.inj (hpr'.symm.trans hpr)
      exact PullRequest.snapshot_eq_iff.mpr ⟨hshows pr' hpr', hopened⟩
    constructor
    · intro hsync
      refine ⟨fun _ pr₀ hpr₀ hsnapshot => ?_, fun hnot => absurd hopens hnot⟩
      have hrows := (hsync.quiet pr₀ hpr₀ hsnapshot).1
      have hsame : s'.db.findPullRequest opts.featureRunId = some pr₀ := by
        rw [Db.findPullRequest, hrows]
        exact hpr₀
      obtain rfl := Option.some.inj (hsame.symm.trans hpr)
      exact lt_irrefl _ (hnewer pr₀ hpr₀)
    · intro hagrees
      refine ⟨hmirrors, fun rt params id _ => hmirrors.evaluation rt params id, ?_⟩
      intro pr₀ hpr₀ hsnapshot
      exact absurd hsnapshot (hagrees.opening hopens pr₀ hpr₀)
  · -- the number and both branches are those of the row before
    have hopening : ∀ pr₀, s.db.findPullRequest opts.featureRunId = some pr₀ →
        ∃ pr, s'.db.findPullRequest opts.featureRunId = some pr ∧
          (pr.SameOpening opts.observed ↔ pr₀.SameOpening opts.observed) := by
      intro pr₀ hpr₀
      rw [hpr₀, Option.map_some, Option.map_some] at hrow
      refine ⟨_, hrow, ?_⟩
      rw [PullRequest.sameOpening_synced, PullRequest.sameOpening_synced]
    constructor
    · intro hsync
      refine ⟨fun h => absurd h hopens, fun _ pr₀ hpr₀ => ?_⟩
      obtain ⟨pr, hpr, hsame⟩ := hopening pr₀ hpr₀
      exact hsame.mp (PullRequest.snapshot_eq_iff.mp (hsync.mirrors pr hpr)).2
    · intro hagrees
      have hmirrors : s'.db.Mirrors opts.featureRunId opts.observed := by
        intro pr hpr
        rcases hbefore : s.db.findPullRequest opts.featureRunId with _ | pr₀
        · rw [hbefore] at hrow
          rw [hrow] at hpr
          cases hpr
        · obtain ⟨pr', hpr', hsame⟩ := hopening pr₀ hbefore
          obtain rfl := Option.some.inj (hpr'.symm.trans hpr)
          have hopened := hsame.mpr (hagrees.opened hopens pr₀ hbefore)
          exact PullRequest.snapshot_eq_iff.mpr ⟨hshows pr' hpr', hopened⟩
      refine ⟨hmirrors, fun rt params id _ => hmirrors.evaluation rt params id, ?_⟩
      intro pr₀ hpr₀ hsnapshot
      refine hquiet fun pr hpr => ?_
      obtain rfl := Option.some.inj (hpr.symm.trans hpr₀)
      exact hsnapshot

end Calls

/-! ### A retargeted pull request -/

/-- The pull request of the first feature, while its CI checks run. -/
def openPullRequest : ObservedPullRequest :=
  { closedPullRequest with state := "open", closedAt := none }

/-- The same pull request, with another base branch. -/
def retargetedPullRequest : ObservedPullRequest := { openPullRequest with baseBranch := "release" }

/-- The first feature has a row with its number and both branches. -/
theorem mirrorAgrees_closedPass :
    (sampleReconcile openPullRequest).MirrorAgrees 6 closedPass.db where
  opening := by
    rintro ⟨run, hrun, hopens⟩
    have hstate : (closedPass.db.findFeatureRun "run-1" "P").map (·.currentExecutionState) =
        some .ciRunning := by
      decide +kernel
    replace hrun : closedPass.db.findFeatureRun "run-1" "P" = some run := hrun
    rw [hrun, Option.map_some, hopens.pushed] at hstate
    cases hstate
  opened := by
    intro _ pr hpr
    have hrow : (closedPass.db.findPullRequest "run-1").map
        (fun pr => (pr.prNumber, pr.branchName, pr.baseBranch)) = some (1, "feature", "main") := by
      decide +kernel
    replace hpr : closedPass.db.findPullRequest "run-1" = some pr := hpr
    rw [hpr, Option.map_some, Option.some.injEq, Prod.mk.injEq, Prod.mk.injEq] at hrow
    exact hrow

theorem mirror_synchronised_iff_closedPass :
    ∃ result s', exec (reconcileGithubState alone (sampleReconcile openPullRequest)) closedPass =
        (.ok result, s') ∧
      (sampleReconcile openPullRequest).Synchronised closedPass.db s'.db := by
  have hok : (exec (reconcileGithubState alone (sampleReconcile openPullRequest))
      closedPass).1.isOk = true := by
    decide +kernel
  rcases h : exec (reconcileGithubState alone (sampleReconcile openPullRequest)) closedPass with
    ⟨e | result, s'⟩
  · rw [h] at hok
    cases hok
  · exact ⟨result, s', rfl, ((mirror_synchronised_iff h).2 rfl).mpr mirrorAgrees_closedPass⟩

/-- The base branch that the merge gate compares is the old one. -/
theorem not_synchronised_retargeted :
    ∃ result s', exec (reconcileGithubState alone (sampleReconcile retargetedPullRequest))
        closedPass = (.ok result, s') ∧
      (s'.db.findPullRequest "run-1").map (·.baseBranch) = some "main" ∧
      ¬ (sampleReconcile retargetedPullRequest).Synchronised closedPass.db s'.db := by
  have hleft : (((exec (reconcileGithubState alone (sampleReconcile retargetedPullRequest))
      closedPass).2.db.findPullRequest "run-1").map (·.baseBranch)) = some "main" := by
    decide +kernel
  have hok : (exec (reconcileGithubState alone (sampleReconcile retargetedPullRequest))
      closedPass).1.isOk = true := by
    decide +kernel
  rcases h : exec (reconcileGithubState alone (sampleReconcile retargetedPullRequest))
      closedPass with ⟨e | result, s'⟩
  · rw [h] at hok
    cases hok
  · rw [h] at hleft
    refine ⟨result, s', rfl, hleft, fun hsync => ?_⟩
    obtain ⟨pr, hpr, hbase⟩ := Option.map_eq_some_iff.mp hleft
    have hsnapshot : pr.snapshot = retargetedPullRequest := hsync.mirrors pr hpr
    have hrelease : pr.baseBranch = "release" := congrArg ObservedPullRequest.baseBranch hsnapshot
    rw [hbase] at hrelease
    exact absurd hrelease (by decide)

end MiniCoder
