import MiniCoder.Reconcile.Step
import MiniCoder.System

/-!
# What a reconciliation reports

A call lists the actions it took and the state it left the run in.  An action is *committed* when the
transaction of its command moved the run, in this call, to the state that the action names; the
executor and the handlers also answer from a result that an earlier command stored under the same
key, and then the action is listed and nothing has happened.

* `dispatch_cases`, `dispatch_ok`: a command that returned found a live result under its key and
  changed nothing, or found none and moved its run.
* `runStep_ok`, `catchUp_ok`: the same for a step and, by induction on the steps left, for the loop.
* `reconcile_truthful`: **a call reports the truth** exactly when no command of it finds a live result
  under its key.
-/

open Storage Storage.Action

namespace MiniCoder

/-! ### Committed actions -/

/-- The state that an action moves its run to. -/
def ReconciliationAction.state : ReconciliationAction → Option FeatureExecutionState
  | prOpened => some .prOpened
  | ciRunning => some .ciRunning
  | ciPassed => some .underReview
  | ciFailed => some .ciFailed
  | changesRequested | changesRequestedAfterCiFail => some .changesRequested
  | fixingStarted => some .fixing
  | escalated => some .humanRequired
  | none | lockRequired => Option.none

/-- The command found no live result under its key, neither when the executor looked it up nor when
its transaction began. -/
def Dispatch.Fresh (now : ℤ) (d : Dispatch) : Prop :=
  d.request.cachedResult now d.looked = none ∧ d.request.cachedResult now d.found = none

/-- The transaction of the command moved the run to a state. -/
def Dispatch.Moves (d : Dispatch) (featureRunId : String) (state : FeatureExecutionState) : Prop :=
  ∃ run ∈ d.found.featureRuns.rows, ∃ run' ∈ d.left.featureRuns.rows,
    run.id = featureRunId ∧ run'.id = featureRunId ∧ run'.version = run.version + 1 ∧
      run'.currentExecutionState = state

namespace ReconcileStep

/-- The action corresponds to a state change that the call itself has committed. -/
def Committed (featureRunId : String) (step : ReconcileStep) : Prop :=
  ∃ d state, step.dispatch = some d ∧ step.action.state = some state ∧ d.Moves featureRunId state

def Fresh (now : ℤ) (step : ReconcileStep) : Prop := ∀ d, step.dispatch = some d → d.Fresh now

end ReconcileStep

/-! ### One command -/

section Call

variable {others : Others} {opts : ReconcileOptions} {s s' : Session}

theorem ReconcileRule.request_command (rule : ReconcileRule) (currentState : FeatureExecutionState)
    (expectedVersion : ℕ) (commandId : String) :
    (rule.request opts currentState expectedVersion commandId).command = rule.command := by
  cases rule <;> rfl

theorem ReconcileRule.request_ref (rule : ReconcileRule) (currentState : FeatureExecutionState)
    (expectedVersion : ℕ) (commandId : String) :
    (rule.request opts currentState expectedVersion commandId).ref = opts.ref expectedVersion := by
  cases rule <;> rfl

/-- An action names the target of its command. -/
theorem ReconcileRule.action_state (rule : ReconcileRule) :
    rule.action.state = some rule.command.target := by
  cases rule <;> rfl

theorem meanwhile_ok {moment : ReconcileMoment} {u : Unit}
    (h : exec (meanwhile others moment) s = (.ok u, s')) :
    s'.db = others moment s.db ∧ s'.runtime = s.runtime := by
  obtain ⟨-, rfl⟩ := Prod.mk.inj h
  exact ⟨rfl, rfl⟩

/-- **What a command that returned did**: it answered from a live result and left the tables as they
were, or there was none and its transaction did its work. -/
theorem dispatch_cases {left : ℕ} {request : Request} {result : CommandResult} {d : Dispatch}
    (h : exec (dispatch others left request) s = (.ok (result, d), s')) :
    d.request = request ∧ s'.db = d.left ∧ s'.runtime = s.runtime ∧
      ((d.left.withoutEvidence = d.found.withoutEvidence ∧ ¬ d.Fresh s.runtime.now) ∨
        d.Fresh s.runtime.now ∧ ∃ ev, ∃ s₀ : Session,
          s₀.db.withoutEvidence = d.found.withoutEvidence ∧ s₀.runtime = s.runtime ∧
            request.cachedResult s₀.runtime.now s₀.db = none ∧
            exec (request.commit ev) s₀ = (.ok result, s')) := by
  obtain ⟨_, s₁, hmeanwhile, h₁⟩ := exec_bind_ok.mp h
  obtain ⟨-, hrt₁⟩ := meanwhile_ok hmeanwhile
  obtain ⟨looked, s₂, hlooked, h₂⟩ := exec_bind_ok.mp h₁
  obtain ⟨hlookedDb, rfl⟩ := Prod.mk.inj hlooked
  obtain rfl := Except.ok.inj hlookedDb
  obtain ⟨cached, s₃, hprecheck, h₃⟩ := exec_bind_ok.mp h₂
  obtain ⟨hdb₃, hrt₃, hcached⟩ := precheck_ok hprecheck
  rw [hrt₁] at hcached
  rcases cached with _ | cached
  · -- there was no result to answer from: the handler ran
    obtain ⟨_, s₄, hmeanwhile', h₄⟩ := exec_bind_ok.mp h₃
    obtain ⟨-, hrt₄⟩ := meanwhile_ok hmeanwhile'
    obtain ⟨found, s₅, hfound, h₅⟩ := exec_bind_ok.mp h₄
    obtain ⟨hfoundDb, rfl⟩ := Prod.mk.inj hfound
    obtain rfl := Except.ok.inj hfoundDb
    obtain ⟨result', s₆, hexecute, h₆⟩ := exec_bind_ok.mp h₅
    obtain ⟨after, s₇, hafter, h₇⟩ := exec_bind_ok.mp h₆
    obtain ⟨hafterDb, rfl⟩ := Prod.mk.inj hafter
    obtain rfl := Except.ok.inj hafterDb
    obtain ⟨hpair, rfl⟩ := Prod.mk.inj h₇
    obtain ⟨rfl, rfl⟩ := Prod.mk.inj (Except.ok.inj hpair)
    have hrt₅ : s₄.runtime = s.runtime := hrt₄.trans (hrt₃.trans hrt₁)
    have hrt₆ : s₆.runtime = s₄.runtime := CommandHandler.frame_execute_runtime.of_exec hexecute
    have hlook : request.cachedResult s.runtime.now s₁.db = none :=
      Option.map_eq_none_iff.mp hcached.symm
    obtain ⟨ev, s₀, hevidence, hrt₀, hcommit⟩ := Request.handle_ok hexecute
    refine ⟨rfl, rfl, hrt₆.trans hrt₅, ?_⟩
    have hsame : request.cachedResult s₀.runtime.now s₀.db =
        request.cachedResult s.runtime.now s₄.db := by
      rw [hrt₀, hrt₅, Request.cachedResult_of_evidence hevidence]
    rcases Request.commit_cases hcommit with ⟨hleft, hlive⟩ | ⟨hnone, -, -⟩
    · left
      rw [hsame] at hlive
      refine ⟨?_, fun hfresh => hlive hfresh.2⟩
      show s₆.db.withoutEvidence = s₄.db.withoutEvidence
      rw [hleft]
      exact hevidence
    · right
      refine ⟨⟨hlook, ?_⟩, ev, s₀, hevidence, hrt₀.trans hrt₅, hnone, hcommit⟩
      rw [hsame] at hnone
      exact hnone
  · -- the executor answered from the cache
    obtain ⟨hpair, rfl⟩ := Prod.mk.inj h₃
    obtain ⟨rfl, rfl⟩ := Prod.mk.inj (Except.ok.inj hpair)
    refine ⟨rfl, hdb₃, hrt₃.trans hrt₁, Or.inl ⟨rfl, fun hfresh => ?_⟩⟩
    have hlook : request.cachedResult s.runtime.now s₁.db = none := hfresh.1
    rw [Request.cachedResult] at hlook
    rw [hlook] at hcached
    cases hcached

/-- A command that returned answered from a live result and changed no run, or there was none and it
moved its run. -/
theorem dispatch_ok {left : ℕ} {request : Request} {result : CommandResult} {d : Dispatch}
    (h : exec (dispatch others left request) s = (.ok (result, d), s')) :
    d.request = request ∧ s'.db = d.left ∧ s'.runtime = s.runtime ∧
      ((d.left.featureRuns = d.found.featureRuns ∧ ¬ d.Fresh s.runtime.now) ∨
        d.Fresh s.runtime.now ∧ d.Moves request.ref.featureRunId request.command.target ∧
          result.resultingState = request.command.target.literal) := by
  obtain ⟨hrequest, hleft, hrt, hcases⟩ := dispatch_cases h
  refine ⟨hrequest, hleft, hrt, ?_⟩
  rcases hcases with ⟨hsame, hcached⟩ | ⟨hfresh, ev, s₀, hevidence, -, hnone, hcommit⟩
  · have hruns := congrArg Db.featureRuns hsame
    exact Or.inl ⟨hruns, hcached⟩
  · right
    rcases Request.commit_cases hcommit with ⟨-, hlive⟩ | ⟨-, hdid, hstate⟩
    · exact absurd hnone hlive
    · obtain ⟨run, hstep⟩ := hdid.step
      obtain ⟨hrun, hid, run', hrun', hid', -, hversion, htarget⟩ := hstep.moves
      have hrest := congrArg Db.featureRuns hevidence
      have hruns : s₀.db.featureRuns = d.found.featureRuns := hrest
      rw [hruns] at hrun
      rw [hleft] at hrun'
      exact ⟨hfresh, ⟨run, hrun, run', hrun', hid, hid', hversion, htarget⟩, hstate⟩

/-! ### One step -/

/-- What a step that took the tables from `db` to `db'` reports. -/
inductive Reports (now : ℤ) (featureRunId : String) (db db' : Db) : ReconcileStep → Prop
  | lockRequired (h : db' = db) : Reports now featureRunId db db' { action := .lockRequired }
  | replayed {action resultingState d} (haction : action ≠ .lockRequired)
      (hruns : d.left.featureRuns = d.found.featureRuns) (hcached : ¬ d.Fresh now) :
      Reports now featureRunId db db' { action, resultingState, dispatch := some d }
  | moved {action state d} (haction : action.state = some state) (hfresh : d.Fresh now)
      (hmoves : d.Moves featureRunId state) (hleft : db' = d.left) :
      Reports now featureRunId db db' { action, resultingState := some state, dispatch := some d }

namespace Reports

variable {now : ℤ} {featureRunId : String} {db db' : Db} {step : ReconcileStep}

/-- **An action is committed exactly when its command found no live result.** -/
theorem committed_iff (h : Reports now featureRunId db db' step)
    (haction : step.action ≠ .lockRequired) : step.Committed featureRunId ↔ step.Fresh now := by
  cases h with
  | lockRequired => exact absurd rfl haction
  | @replayed action resultingState d _ hruns hcached =>
    constructor
    · -- a command that changed no run cannot have raised the version of one
      rintro ⟨_, state, hd, -, run, hrun, run', hrun', hid, hid', hversion, -⟩
      obtain rfl := Option.some.inj hd
      have hsame : run'.id = run.id := hid'.trans hid.symm
      rw [hruns] at hrun'
      rw [d.found.featureRuns.eq_of_clash hrun' hrun (decide_eq_true hsame)] at hversion
      omega
    · intro hfresh
      exact absurd (hfresh d rfl) hcached
  | moved hstate hfresh hmoves =>
    constructor
    · rintro - _ hd
      obtain rfl := Option.some.inj hd
      exact hfresh
    · intro _
      exact ⟨_, _, rfl, hstate, hmoves⟩

/-- A step that asks for the lock has issued no command. -/
theorem fresh_of_lockRequired (h : Reports now featureRunId db db' step)
    (haction : step.action = .lockRequired) : step.Fresh now := by
  intro d hd
  cases h with
  | lockRequired => cases hd
  | replayed hne => exact absurd haction hne
  | moved _ hfresh =>
    obtain rfl := Option.some.inj hd
    exact hfresh

/-- The state that a fresh step reports is the state of the run. -/
theorem resultingState (h : Reports now featureRunId db db' step) (hfresh : step.Fresh now)
    {state : FeatureExecutionState} (hstate : step.resultingState = some state) :
    db'.stateOf featureRunId = some state := by
  cases h with
  | lockRequired => cases hstate
  | replayed _ _ hcached => exact absurd (hfresh _ rfl) hcached
  | moved _ _ hmoves hleft =>
    obtain rfl := Option.some.inj hstate
    obtain ⟨run, -, run', hrun', -, hid', -, htarget⟩ := hmoves
    rw [hleft]
    exact Db.stateOf_some.mpr ⟨run', hrun', hid', htarget⟩

end Reports

theorem limitRule_ok {left : ℕ} {rule rule' : ReconcileRule}
    (h : exec (limitRule others left opts rule) s = (.ok rule', s')) : s'.runtime = s.runtime := by
  rw [limitRule, exec_ite] at h
  split at h
  · obtain ⟨_, s₁, hmeanwhile, h₁⟩ := exec_bind_ok.mp h
    obtain ⟨count, s₂, hquery, h₂⟩ := exec_bind_ok.mp h₁
    obtain ⟨-, rfl⟩ := Prod.mk.inj h₂
    exact (query_ok hquery).2.2.trans (meanwhile_ok hmeanwhile).2
  · obtain ⟨-, rfl⟩ := Prod.mk.inj h
    rfl

/-- **What a step did.** -/
theorem runStep_ok {left : ℕ} {currentState : FeatureExecutionState} {expectedVersion : ℕ}
    {r : Option ReconcileStep}
    (h : exec (runStep others left opts currentState expectedVersion) s = (.ok r, s')) :
    s'.runtime = s.runtime ∧
      ((r = none ∧ s'.db = s.db) ∨ ∃ step db, r = some step ∧
        Reports s.runtime.now opts.featureRunId db s'.db step ∧
          (step.action = .lockRequired → s'.db = s.db)) := by
  rw [runStep] at h
  rcases hselect : ReconcileRule.select opts.observed currentState with _ | rule
  · rw [hselect] at h
    obtain ⟨hr, rfl⟩ := Prod.mk.inj h
    obtain rfl := Except.ok.inj hr
    exact ⟨rfl, Or.inl ⟨rfl, rfl⟩⟩
  · rw [hselect] at h
    replace h : exec (ite _ _ _ : Sql (Option ReconcileStep)) s = (.ok r, s') := h
    rw [exec_ite] at h
    split at h
    · obtain ⟨hr, rfl⟩ := Prod.mk.inj h
      obtain rfl := Except.ok.inj hr
      exact ⟨rfl, Or.inr ⟨_, s.db, rfl, .lockRequired rfl, fun _ => rfl⟩⟩
    · obtain ⟨limited, s₁, hlimit, h₁⟩ := exec_bind_ok.mp h
      have hrt₁ := limitRule_ok hlimit
      obtain ⟨commandId, s₂, hid, h₂⟩ := exec_bind_ok.mp h₁
      obtain ⟨-, rfl⟩ := Prod.mk.inj hid
      obtain ⟨⟨result, d⟩, s₃, hdispatch, h₃⟩ := exec_bind_ok.mp h₂
      obtain ⟨hr, rfl⟩ := Prod.mk.inj h₃
      obtain rfl := Except.ok.inj hr
      obtain ⟨-, hleft, hrt₃, hcases⟩ := dispatch_ok hdispatch
      have hrt : s₃.runtime = s.runtime := hrt₃.trans hrt₁
      have haction : limited.action ≠ .lockRequired := by
        cases limited <;> decide
      refine ⟨hrt, Or.inr ⟨_, s₁.db, rfl, ?_, fun hlock => absurd hlock haction⟩⟩
      rw [ReconcileRule.request_command, ReconcileRule.request_ref] at hcases
      have hnow : s.runtime.now = s₁.runtime.now := by rw [hrt₁]
      rw [hnow]
      rcases hcases with ⟨hruns, hcached⟩ | ⟨hfresh, hmoves, hstate⟩
      · exact .replayed haction hruns hcached
      · rw [hstate, FeatureExecutionState.ofLiteral?_literal]
        exact .moved limited.action_state hfresh hmoves hleft

/-! ### The loop -/

/-- **What the loop did**, by induction on the steps left: every step reports what it did, and when
all of them were fresh, the state reported last is the state of the run. -/
theorem catchUp_ok {left : ℕ} {c c' : CatchUp}
    (h : exec (catchUp others opts left c) s = (.ok c', s')) :
    s'.runtime = s.runtime ∧ ∃ steps, c'.steps = c.steps ++ steps ∧
      (∀ step ∈ steps, ∃ db db', Reports s.runtime.now opts.featureRunId db db' step) ∧
      ((∀ step ∈ steps, step.Fresh s.runtime.now) →
        (∀ state, c.resultingState = some state → s.db.stateOf opts.featureRunId = some state) →
        ∀ state, c'.resultingState = some state →
          s'.db.stateOf opts.featureRunId = some state) := by
  induction left generalizing c s with
  | zero =>
    obtain ⟨hc, rfl⟩ := Prod.mk.inj h
    obtain rfl := Except.ok.inj hc
    exact ⟨rfl, [], (List.append_nil _).symm, by simp, fun _ hstate => hstate⟩
  | succ left ih =>
    obtain ⟨r, s₁, hstep, h₁⟩ := exec_bind_ok.mp h
    obtain ⟨hrt, ⟨rfl, hdb⟩ | ⟨step, db, rfl, hreports, hlock⟩⟩ := runStep_ok hstep
    · obtain ⟨hc, rfl⟩ := Prod.mk.inj h₁
      obtain rfl := Except.ok.inj hc
      refine ⟨hrt, [], (List.append_nil _).symm, by simp, fun _ hstate => ?_⟩
      rw [hdb]
      exact hstate
    · replace h₁ : exec (ite _ _ _ : Sql CatchUp) s₁ = (.ok c', s') := h₁
      rw [exec_ite] at h₁
      split at h₁
      · -- the step needs the lock: the loop stops where it was
        rename_i hrequired
        obtain ⟨hc, rfl⟩ := Prod.mk.inj h₁
        obtain rfl := Except.ok.inj hc
        refine ⟨hrt, [step], rfl, ?_, fun _ hstate => ?_⟩
        · intro step' hmem
          obtain rfl := List.mem_singleton.mp hmem
          exact ⟨_, _, hreports⟩
        · rw [hlock hrequired]
          exact hstate
      · obtain ⟨hrt', steps, hsteps, hall, hlast⟩ := ih h₁
        rw [hrt] at hall hlast
        refine ⟨hrt'.trans hrt, step :: steps, ?_, ?_, fun hfresh _ => ?_⟩
        · rw [hsteps, List.append_assoc]
          rfl
        · intro step' hmem
          rcases List.mem_cons.mp hmem with rfl | hmem
          · exact ⟨_, _, hreports⟩
          · exact hall step' hmem
        · obtain ⟨hfirst, hrest⟩ := List.forall_mem_cons.mp hfresh
          exact hlast hrest fun state hstate => hreports.resultingState hfirst hstate

/-! ### Calls -/

/-- A call reports the truth: every action it lists is committed, and, when nobody else was at work,
the state it reports is the state of the run. -/
structure ReconcileResult.Truthful (others : Others) (opts : ReconcileOptions) (after : Db)
    (result : ReconcileResult) : Prop where
  actions : ∀ step ∈ result.steps, step.action ≠ .lockRequired → step.Committed opts.featureRunId
  state : others = alone → ∀ state, result.resultingState = some state →
    after.stateOf opts.featureRunId = some state

theorem frame_sync : Frame (fun s => s.db.featureRuns) (transaction
    (syncPullRequestObservedState opts.featureRunId opts.observed.toObservedPullRequestState)) :=
  frame_transaction (frame_syncPullRequestObservedState (fun _ _ _ => rfl) (fun _ _ => rfl) _)

/-- **What a call that returned did**: it read the run, and ran the loop between two syncs. -/
theorem reconcile_ok {result : ReconcileResult}
    (h : exec (reconcileGithubState others opts) s = (.ok result, s')) :
    ∃ run s₁ c s₂, s.db.findFeatureRun opts.featureRunId opts.projectId = some run ∧
      s₁.runtime = s.runtime ∧
      exec (catchUp others opts maxReconcileSteps {
        currentState := run.currentExecutionState
        expectedVersion := run.version }) s₁ = (.ok c, s₂) ∧
      result = { steps := c.steps, resultingState := c.resultingState } ∧
      s'.db.featureRuns = (others .resync s₂.db).featureRuns := by
  obtain ⟨row, s₁, hrow, h₁⟩ := exec_bind_ok.mp h
  obtain ⟨hfound, -, hrt₁⟩ := query_ok hrow
  rcases row with _ | run
  · simp at h₁
  · obtain ⟨_, s₂, hsync, h₂⟩ := exec_bind_ok.mp h₁
    obtain ⟨-, hrt₂⟩ := meanwhile_ok hsync
    obtain ⟨_, s₃, hfirst, h₃⟩ := exec_bind_ok.mp h₂
    obtain ⟨c, s₄, hloop, h₄⟩ := exec_bind_ok.mp h₃
    obtain ⟨_, s₅, hresync, h₅⟩ := exec_bind_ok.mp h₄
    obtain ⟨hdb₅, -⟩ := meanwhile_ok hresync
    obtain ⟨_, s₆, hlast, h₆⟩ := exec_bind_ok.mp h₅
    obtain ⟨hresult, rfl⟩ := Prod.mk.inj h₆
    have hrt₃ : s₃.runtime = s₂.runtime :=
      (frame_transaction_runtime (frame_syncPullRequestObservedState (fun _ _ _ => rfl)
        (fun _ _ => rfl) _)).of_exec hfirst
    have hruns : s₆.db.featureRuns = s₅.db.featureRuns := frame_sync.of_exec hlast
    refine ⟨run, s₃, c, s₄, hfound.symm, hrt₃.trans (hrt₂.trans hrt₁), hloop,
      (Except.ok.inj hresult).symm, ?_⟩
    rw [hruns, hdb₅]

/-- **A call reports the truth exactly when its commands find no live result under their keys**, for
whatever other sessions do meanwhile. -/
theorem reconcile_truthful {result : ReconcileResult}
    (h : exec (reconcileGithubState others opts) s = (.ok result, s')) :
    result.Truthful others opts s'.db ↔
      ∀ step ∈ result.steps, step.action ≠ .lockRequired → step.Fresh s.runtime.now := by
  obtain ⟨run, s₁, c, s₂, -, hrt, hloop, rfl, hruns⟩ := reconcile_ok h
  obtain ⟨-, steps, hsteps, hreports, hstate⟩ := catchUp_ok hloop
  rw [hrt] at hreports hstate
  replace hsteps : c.steps = steps := hsteps
  subst hsteps
  constructor
  · intro htruthful step hmem haction
    obtain ⟨db, db', hstep⟩ := hreports step hmem
    exact (hstep.committed_iff haction).mp (htruthful.actions step hmem haction)
  · intro hfresh
    have hevery : ∀ step ∈ c.steps, step.Fresh s.runtime.now := by
      intro step hmem
      by_cases haction : step.action = .lockRequired
      · obtain ⟨db, db', hstep⟩ := hreports step hmem
        exact hstep.fresh_of_lockRequired haction
      · exact hfresh step hmem haction
    refine ⟨fun step hmem haction => ?_, fun halone state hresulting => ?_⟩
    · obtain ⟨db, db', hstep⟩ := hreports step hmem
      exact (hstep.committed_iff haction).mpr (hfresh step hmem haction)
    · have hlast := hstate hevery (fun _ hnone => by cases hnone) state hresulting
      rw [Db.stateOf_of_eq hruns, halone]
      exact hlast

end Call

/-! ### A second escalation -/

instance (now : ℤ) (d : Dispatch) : Decidable (d.Fresh now) :=
  inferInstanceAs (Decidable (d.request.cachedResult now d.looked = none ∧
    d.request.cachedResult now d.found = none))

instance (now : ℤ) (step : ReconcileStep) : Decidable (step.Fresh now) :=
  match h : step.dispatch with
  | none => isTrue fun d hd => absurd (h.symm.trans hd) (Option.some_ne_none d).symm
  | some d => decidable_of_iff (d.Fresh now)
      ⟨fun hfresh _ hd => Option.some.inj (h.symm.trans hd) ▸ hfresh, fun hfresh => hfresh d h⟩

/-- The pull request of the first feature, closed without a merge. -/
def closedPullRequest : ObservedPullRequest where
  headSha := some "sha"
  state := "closed"
  reviewState := "none"
  ciStatus := "running"
  mergeable := none
  blockingLabels := []
  conversationsResolved := true
  mergedAt := none
  mergeSha := none
  closedAt := some 5
  prNumber := 1
  branchName := "feature"
  baseBranch := "main"

/-- A pass of the scheduled fallback over the first feature. -/
def sampleReconcile (observed : ObservedPullRequest) : ReconcileOptions where
  featureRunId := "run-1"
  projectId := "P"
  observed
  correlationId := "pass"

/-- The pass sees the closed pull request while the CI checks run. -/
def closedPass : Session := .start (SystemEvent.after sampleDb cycleToCi) (sampleRuntime 6)

/-- A human resumes the run after the pass has escalated it. -/
def resumedAfterPass : Db :=
  SystemEvent.after (exec (reconcileGithubState alone (sampleReconcile closedPullRequest))
      closedPass).2.db
    [.commit ⟨.resumeFeatureExecution, sampleEnvelope .human "resume" {
      featureRunId := "run-1", projectId := "P", expectedVersion := 7, notes := "resumed" }⟩ ()
      (sampleRuntime 7)]

/-- What a call lists, what it reports, and what it leaves. -/
def reportOf (r : Except Failure ReconcileResult × Session) :
    Option (List ReconciliationAction × Option FeatureExecutionState) ×
      Option FeatureExecutionState :=
  (r.1.toOption.map fun result => (result.actions, result.resultingState),
    r.2.db.stateOf "run-1")

theorem reconcile_truthful_closedPass :
    ∃ result s', exec (reconcileGithubState alone (sampleReconcile closedPullRequest)) closedPass =
        (.ok result, s') ∧
      (result.Truthful alone (sampleReconcile closedPullRequest) s'.db ↔
        ∀ step ∈ result.steps, step.action ≠ .lockRequired → step.Fresh 6) ∧
      ∀ step ∈ result.steps, step.action ≠ .lockRequired → step.Fresh 6 := by
  have hfresh : ((exec (reconcileGithubState alone (sampleReconcile closedPullRequest))
      closedPass).1.toOption.all fun result => decide (∀ step ∈ result.steps,
        step.action ≠ .lockRequired → step.Fresh 6)) = true := by
    decide +kernel
  have hok : (exec (reconcileGithubState alone (sampleReconcile closedPullRequest))
      closedPass).1.isOk = true := by
    decide +kernel
  rcases h : exec (reconcileGithubState alone (sampleReconcile closedPullRequest)) closedPass with
    ⟨e | result, s'⟩
  · rw [h] at hok
    cases hok
  · rw [h] at hfresh
    exact ⟨result, s', rfl, reconcile_truthful h, of_decide_eq_true hfresh⟩

/-- **An escalation is reported again from the cache**: the run is under review, the call lists
`escalated` and reports `human_required`, and nothing has changed. -/
theorem reconcile_replays :
    ∃ result s', exec (reconcileGithubState alone (sampleReconcile closedPullRequest))
        (.start resumedAfterPass (sampleRuntime 8)) = (.ok result, s') ∧
      result.actions = [.escalated] ∧ s'.db.stateOf "run-1" = some .underReview ∧
      ¬ result.Truthful alone (sampleReconcile closedPullRequest) s'.db := by
  have hreport : reportOf (exec (reconcileGithubState alone (sampleReconcile closedPullRequest))
      (.start resumedAfterPass (sampleRuntime 8))) =
      (some ([.escalated], some .humanRequired), some .underReview) := by
    decide +kernel
  rcases h : exec (reconcileGithubState alone (sampleReconcile closedPullRequest))
      (.start resumedAfterPass (sampleRuntime 8)) with ⟨e | result, s'⟩
  · rw [h] at hreport
    cases hreport
  · rw [h] at hreport
    obtain ⟨hresult, hstate⟩ := Prod.mk.inj hreport
    obtain ⟨hactions, hresulting⟩ := Prod.mk.inj (Option.some.inj hresult)
    refine ⟨result, s', rfl, hactions, hstate, fun htruthful => ?_⟩
    have hreported : s'.db.stateOf "run-1" = some .humanRequired :=
      htruthful.state rfl _ hresulting
    rw [show s'.db.stateOf "run-1" = some .underReview from hstate] at hreported
    cases hreported

end MiniCoder
