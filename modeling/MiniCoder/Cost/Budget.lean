import Mathlib.Algebra.BigOperators.Group.List.Lemmas
import MiniCoder.Coder.RunCoder

/-!
# Budgets

`evaluateBudget` compares what was spent with the limits of the active policy, and `forecastBudget` does
so with an estimate on top.  Both are for a project and a scope, and for a feature where there is one;
the checks of the merge gate and of the tasks are the case of a feature.

* `Db.evaluateBudget_eq`, `Db.forecastBudget_eq`: those checks.
* `spend_insert`: a record that is made now is in every window that does not end before.
* `forecast_agrees`: **the forecast is the evaluation after a run of that cost**.
-/

open Storage

namespace MiniCoder

/-! ### Policies and spend -/

structure EvaluateBudgetParams where
  projectId : String
  scope : BudgetScope
  featureRequestId : Option String := none
  deriving DecidableEq, Repr

structure BudgetEvaluation where
  status : BudgetEvaluationStatus
  policy : BudgetPolicy
  totalSpend : ℚ
  deriving DecidableEq, Repr

structure BudgetForecast where
  status : BudgetEvaluationStatus
  policy : BudgetPolicy
  currentSpend : ℚ
  estimatedCostUsd : ℚ
  projectedSpend : ℚ
  deriving DecidableEq, Repr

/-- The first active policy in the order `updated_at DESC, id DESC`. -/
def Db.activeBudgetPolicy (db : Db) (params : EvaluateBudgetParams) : Option BudgetPolicy :=
  db.budgetPolicies.last?
    (fun p => p.projectId == params.projectId && p.scope == params.scope &&
      p.featureRequestId == params.featureRequestId && p.isActive)
    fun p p' => decide (p.updatedAt < p'.updatedAt) ||
      (p.updatedAt == p'.updatedAt && decide (p.id < p'.id))

/-- `recorded_at >= cutoff`, where the policy has a window. -/
def CostRecord.inWindow (windowDays : Option ℤ) (now : ℤ) (c : CostRecord) : Bool :=
  windowDays.all fun days => decide (now - days * 24 * 60 * 60 * 1000 ≤ c.recordedAt)

/-- The `WHERE` of the spend query. -/
def EvaluateBudgetParams.counts (params : EvaluateBudgetParams) (windowDays : Option ℤ) (now : ℤ)
    (c : CostRecord) : Bool :=
  c.projectId == params.projectId && c.scope == params.scope &&
    params.featureRequestId.all (fun id => c.featureRequestId == some id) && c.inWindow windowDays now

/-- `SELECT COALESCE(SUM(amount), 0) …`. -/
def Db.spend (db : Db) (params : EvaluateBudgetParams) (windowDays : Option ℤ) (now : ℤ) : ℚ :=
  ((db.costRecords.select (params.counts windowDays now)).map (·.amount)).sum

/-- The status of a spend: the hard limit first, so that a breach of both is a hard breach. -/
def BudgetPolicy.statusOf (policy : BudgetPolicy) (spend : ℚ) : BudgetEvaluationStatus :=
  if policy.hardLimit.any fun limit => decide (limit ≤ spend) then .hardBreach
  else if policy.softLimit.any fun limit => decide (limit ≤ spend) then .softBreach
  else .ok

def evaluateBudget (db : Db) (params : EvaluateBudgetParams) (now : ℤ) : Option BudgetEvaluation :=
  (db.activeBudgetPolicy params).map fun policy =>
    let totalSpend := db.spend params policy.windowDays now
    { status := policy.statusOf totalSpend, policy, totalSpend }

def forecastBudget (db : Db) (params : EvaluateBudgetParams) (estimatedCostUsd : ℚ) (now : ℤ) :
    Option BudgetForecast :=
  (db.activeBudgetPolicy params).map fun policy =>
    let currentSpend := db.spend params policy.windowDays now
    let projectedSpend := currentSpend + estimatedCostUsd
    { status := policy.statusOf projectedSpend, policy, currentSpend, estimatedCostUsd, projectedSpend }

/-! ### The checks of a feature -/

section Checks

variable {db : Db} {projectId featureRequestId : String} {scope : BudgetScope} {now : ℤ}

/-- The check of the merge gate. -/
theorem Db.evaluateBudget_eq : db.evaluateBudget projectId featureRequestId scope now =
    (MiniCoder.evaluateBudget db ⟨projectId, scope, some featureRequestId⟩ now).map (·.status) := by
  unfold Db.evaluateBudget MiniCoder.evaluateBudget
  rw [Option.map_map]
  rfl

/-- The check of the tasks. -/
theorem Db.forecastBudget_eq (estimatedCostUsd : ℚ) :
    db.forecastBudget projectId featureRequestId scope estimatedCostUsd now =
      (MiniCoder.forecastBudget db ⟨projectId, scope, some featureRequestId⟩ estimatedCostUsd now).map
        (·.status) := by
  unfold Db.forecastBudget MiniCoder.forecastBudget
  rw [Option.map_map]
  rfl

end Checks

/-! ### The status of a spend -/

/-- How severe a status is. -/
def BudgetEvaluationStatus.severity : BudgetEvaluationStatus → ℕ
  | ok => 0
  | softBreach => 1
  | hardBreach => 2

namespace BudgetPolicy

variable {policy : BudgetPolicy} {spend spend' : ℚ}

theorem statusOf_eq_hardBreach : policy.statusOf spend = .hardBreach ↔
    ∃ limit, policy.hardLimit = some limit ∧ limit ≤ spend := by
  unfold statusOf
  rcases policy.hardLimit with _ | limit
  · simp
    split <;> simp
  · by_cases hle : limit ≤ spend
    · simp [hle]
    · simp [hle]
      split <;> simp

/-- **More spend is no less severe.** -/
theorem severity_statusOf_mono (h : spend ≤ spend') :
    (policy.statusOf spend).severity ≤ (policy.statusOf spend').severity := by
  have hany : ∀ limit? : Option ℚ, (limit?.any fun limit => decide (limit ≤ spend)) = true →
      (limit?.any fun limit => decide (limit ≤ spend')) = true := by
    intro limit? hbreach
    rcases limit? with _ | limit
    · cases hbreach
    · rw [Option.any_some, decide_eq_true_eq] at hbreach ⊢
      exact Rat.le_trans hbreach h
  unfold statusOf
  by_cases hhard : (policy.hardLimit.any fun limit => decide (limit ≤ spend)) = true
  · rw [if_pos hhard, if_pos (hany _ hhard)]
  · rw [if_neg hhard]
    by_cases hsoft : (policy.softLimit.any fun limit => decide (limit ≤ spend)) = true
    · rw [if_pos hsoft, if_pos (hany _ hsoft)]
      split <;> simp [BudgetEvaluationStatus.severity]
    · rw [if_neg hsoft]
      exact Nat.zero_le _

end BudgetPolicy

/-! ### A run on top -/

/-- The record of a run that costs `amount` and is recorded at `now`. -/
structure RecordedNow (params : EvaluateBudgetParams) (amount : ℚ) (now : ℤ) (c : CostRecord) :
    Prop where
  project : c.projectId = params.projectId
  scope : c.scope = params.scope
  feature : c.featureRequestId = params.featureRequestId
  amount : c.amount = amount
  recordedAt : c.recordedAt = now

/-- The window, if there is one, does not end before it starts. -/
def BudgetPolicy.WindowOpen (policy : BudgetPolicy) : Prop :=
  ∀ days, policy.windowDays = some days → 0 ≤ days

section Insert

variable {db : Db} {params : EvaluateBudgetParams} {amount : ℚ} {now : ℤ} {c : CostRecord}
  {t : Table CostRecord} {policy : BudgetPolicy}

/-- A record that is made now counts in every open window. -/
theorem RecordedNow.counts (h : RecordedNow params amount now c) (hopen : policy.WindowOpen) :
    params.counts policy.windowDays now c = true := by
  have hfeature : params.featureRequestId.all (fun id => c.featureRequestId == some id) = true := by
    rw [h.feature]
    rcases params.featureRequestId with _ | id
    · rfl
    · simp
  have hwindow : c.inWindow policy.windowDays now = true := by
    unfold CostRecord.inWindow
    rcases hdays : policy.windowDays with _ | days
    · rfl
    · have hpos := hopen days hdays
      rw [Option.all_some, decide_eq_true_eq, h.recordedAt]
      omega
  unfold EvaluateBudgetParams.counts
  rw [h.project, h.scope, hfeature, hwindow]
  simp

/-- **A record that is made now** adds its amount to the spend. -/
theorem spend_insert (h : RecordedNow params amount now c) (hopen : policy.WindowOpen)
    (hinsert : db.costRecords.insert? c = some t) :
    Db.spend { db with costRecords := t } params policy.windowDays now =
      db.spend params policy.windowDays now + amount := by
  have hrows := Table.rows_insert? hinsert
  unfold Db.spend Table.select
  rw [hrows, List.filter_append, List.map_append, List.sum_append,
    List.filter_cons_of_pos (h.counts hopen)]
  simp [h.amount]

end Insert

/-! ### Forecasts -/

/-- The forecast with an estimate is the evaluation after a run of that cost: there is a policy for both
or for none, it is the same, and so is the status. -/
def ForecastAgrees (db : Db) (params : EvaluateBudgetParams) (estimatedCostUsd : ℚ) (now : ℤ) : Prop :=
  ∀ c t, RecordedNow params estimatedCostUsd now c → db.costRecords.insert? c = some t →
    (forecastBudget db params estimatedCostUsd now).map (fun f => (f.policy, f.status)) =
      (evaluateBudget { db with costRecords := t } params now).map fun e => (e.policy, e.status)

section Forecasts

variable {db : Db} {params : EvaluateBudgetParams} {now : ℤ}

theorem forecastAgrees_of_open {estimatedCostUsd : ℚ}
    (hopen : ∀ policy, db.activeBudgetPolicy params = some policy → policy.WindowOpen) :
    ForecastAgrees db params estimatedCostUsd now := by
  intro c t hrecorded hinsert
  -- the policies are not written
  have hpolicy : Db.activeBudgetPolicy { db with costRecords := t } params =
      db.activeBudgetPolicy params := rfl
  unfold forecastBudget evaluateBudget
  rw [hpolicy, Option.map_map, Option.map_map]
  rcases hfound : db.activeBudgetPolicy params with _ | policy
  · rfl
  · have hspend := spend_insert hrecorded (hopen policy hfound) hinsert
    simp [hspend]

/-- **The forecast is the evaluation after a run of that cost**, when the policy has no window or one that
does not end before it starts.  A forecast finds no policy exactly when the evaluation finds none, with no
estimate it is the evaluation, and more estimated cost is no less severe. -/
theorem forecast_agrees :
    ((∀ policy, db.activeBudgetPolicy params = some policy → policy.WindowOpen) →
      ∀ estimatedCostUsd, ForecastAgrees db params estimatedCostUsd now) ∧
    (∀ estimatedCostUsd, forecastBudget db params estimatedCostUsd now = none ↔
      evaluateBudget db params now = none) ∧
    ((forecastBudget db params 0 now).map fun f => (f.policy, f.projectedSpend, f.status)) =
      ((evaluateBudget db params now).map fun e => (e.policy, e.totalSpend, e.status)) ∧
    ∀ e e' f f', e ≤ e' → forecastBudget db params e now = some f →
      forecastBudget db params e' now = some f' → f.status.severity ≤ f'.status.severity := by
  refine ⟨fun hopen _ => forecastAgrees_of_open hopen, fun estimatedCostUsd => ?_, ?_, ?_⟩
  · unfold forecastBudget evaluateBudget
    rw [Option.map_eq_none_iff, Option.map_eq_none_iff]
  · unfold forecastBudget evaluateBudget
    rw [Option.map_map, Option.map_map]
    congr 1
    funext policy
    simp [Function.comp_apply]
  · intro e e' f f' hle hf hf'
    obtain ⟨policy, hpolicy, rfl⟩ := Option.map_eq_some_iff.mp hf
    obtain ⟨policy', hpolicy', rfl⟩ := Option.map_eq_some_iff.mp hf'
    rw [hpolicy] at hpolicy'
    obtain rfl := Option.some.inj hpolicy'
    apply BudgetPolicy.severity_statusOf_mono
    exact Rat.add_le_add_left.mpr hle

end Forecasts

/-! ### A forecast on a sample project -/

/-- A project with a budget of ten dollars in a window. -/
def sampleBudgetDb (windowDays : ℤ) : Db where
  budgetPolicies := .ofList [{
    id := "policy", projectId := "P", scope := .project, featureRequestId := none
    softLimit := some 5, hardLimit := some 10, windowDays := some windowDays, isActive := true
    updatedAt := 1 }]

/-- A run of the sample project that costs twelve dollars. -/
def sampleCostRecord : CostRecord where
  id := "cost"
  projectId := "P"
  featureRequestId := none
  scope := .project
  amount := 12
  recordedAt := 100

/-- The forecast of such a run in a window of a week is the breach that it will be. -/
theorem forecast_agrees_week : ∃ t, (sampleBudgetDb 7).costRecords.insert? sampleCostRecord = some t ∧
    ((forecastBudget (sampleBudgetDb 7) ⟨"P", .project, none⟩ 12 100).map fun f =>
        (f.policy, f.status)) =
      ((evaluateBudget { sampleBudgetDb 7 with costRecords := t } ⟨"P", .project, none⟩ 100).map
        fun e => (e.policy, e.status)) := by
  obtain ⟨t, ht⟩ : ∃ t, (sampleBudgetDb 7).costRecords.insert? sampleCostRecord = some t :=
    Table.insert?_isSome fun r hr => by cases hr
  refine ⟨t, ht, ?_⟩
  have hopen : ∀ policy, (sampleBudgetDb 7).activeBudgetPolicy ⟨"P", .project, none⟩ = some policy →
      policy.WindowOpen := by
    intro policy hpolicy days hdays
    have hwindow : ((sampleBudgetDb 7).activeBudgetPolicy ⟨"P", .project, none⟩).bind
        (·.windowDays) = some 7 := by decide +kernel
    rw [hpolicy, Option.bind_some, hdays] at hwindow
    rw [Option.some.inj hwindow]
    decide
  exact forecast_agrees.1 hopen 12 sampleCostRecord t ⟨rfl, rfl, rfl, rfl, rfl⟩ ht

/-- A window that ends before it starts has no room for the run: the forecast is a breach, and the
evaluation after it is not. -/
theorem not_forecastAgrees_backwards :
    ¬ ForecastAgrees (sampleBudgetDb (-1)) ⟨"P", .project, none⟩ 12 100 := by
  intro h
  have hagrees := h sampleCostRecord (.ofList [sampleCostRecord]) ⟨rfl, rfl, rfl, rfl, rfl⟩ rfl
  revert hagrees
  decide +kernel

end MiniCoder
