import MiniCoder.Cost.Budget
import MiniCoder.Invariants.BudgetStop
import MiniCoder.Invariants.ExactlyOnce
import MiniCoder.Tasks.Command

/-!
# The budget preflight check

Before a task calls its adapter, it forecasts what the run will cost.  Where that is a hard breach, the
check refuses the call, and records the breach by the command that stops the automation of the project.

* `recordBudgetExceeded_ok`, `returns_recordBudgetExceeded`: when that command returns, and what it leaves.
* `executeAt_ok`, `returns_executeAt`: so among other sessions.
* `failsClosed_iff`: **the check comes back as a refusal exactly when its record goes through**.
-/

open Storage Storage.Action

namespace MiniCoder

/-! ### Commands among other sessions -/

section Execute

variable (others : TaskOthers) {P : Type}

/-- `TransactionalCommandExecutor.execute`, for the `n`-th command of a task. -/
def executeAt (n : ℕ) (handler : CommandHandler P) (envelope : CommandEnvelope P) :
    Sql CommandResult := do
  write fun s => { s with db := others (.lookup n) s.db }
  let cached ← precheck handler envelope
  match cached with
  | some result => pure result
  | none => do
    write fun s => { s with db := others (.transaction n) s.db }
    handler.execute envelope

end Execute

/-! ### The decision -/

structure ApplyBudgetDecisionParams where
  projectId : String
  expectedVersion : ℕ
  actor : ActorIdentity
  correlationId : String
  featureRunId : Option String := none

inductive ApplyBudgetDecisionResult
  | notApplied
  | hardBreach
  | softBreach
  deriving DecidableEq, Repr

namespace ApplyBudgetDecisionParams

variable (params : ApplyBudgetDecisionParams) (evaluation : BudgetEvaluation) (commandId : String)

/-- The idempotency key of the record of a hard breach. -/
def exceededKey (policyId : String) : String :=
  s!"budget-exceeded:{params.projectId}:{policyId}:{params.expectedVersion}"

/-- The record of a hard breach. -/
def exceeded : CommandEnvelope RecordBudgetExceededPayload where
  commandId
  idempotencyKey := params.exceededKey evaluation.policy.id
  payload := {
    projectId := params.projectId
    expectedVersion := params.expectedVersion
    breachedPolicyId := evaluation.policy.id
    currentSpend := evaluation.totalSpend
    hardLimit := evaluation.policy.hardLimit.getD 0
    featureRunId := params.featureRunId }
  actor := params.actor
  correlationId := params.correlationId

/-- The record of a soft breach. -/
def approvalWaiting : CommandEnvelope RecordBudgetApprovalWaitingPayload where
  commandId
  idempotencyKey := s!"budget-approval-waiting:{params.projectId}:{evaluation.policy.id}:{
    params.expectedVersion}"
  payload := {
    projectId := params.projectId
    expectedVersion := params.expectedVersion
    breachedPolicyId := evaluation.policy.id
    currentSpend := evaluation.totalSpend
    softLimit := evaluation.policy.softLimit.getD 0 }
  actor := params.actor
  correlationId := params.correlationId

end ApplyBudgetDecisionParams

def applyBudgetDecision (others : TaskOthers) (evaluation : BudgetEvaluation)
    (params : ApplyBudgetDecisionParams) : Sql ApplyBudgetDecisionResult :=
  match evaluation.status with
  | .ok => pure .notApplied
  | .hardBreach => do
    let commandId ← generateId
    let _ ← executeAt others 0 recordBudgetExceededHandler (params.exceeded evaluation commandId)
    pure .hardBreach
  | .softBreach => do
    let commandId ← generateId
    let _ ← executeAt others 0 recordBudgetApprovalWaitingHandler
      (params.approvalWaiting evaluation commandId)
    pure .softBreach

/-! ### The check -/

structure BudgetPreflightParams where
  projectId : String
  featureRequestId : String
  scope : BudgetScope
  correlationId : String
  estimatedCostUsd : Option ℚ
  featureRunId : String

inductive BudgetPreflightResult
  | proceed
  | hardBreach (projectedSpend : ℚ)
  deriving DecidableEq, Repr

namespace BudgetPreflightParams

variable (params : BudgetPreflightParams)

/-- What the check asks of `forecastBudget`. -/
def budgetParams : EvaluateBudgetParams where
  projectId := params.projectId
  scope := params.scope
  featureRequestId := some params.featureRequestId

/-- What the check asks of `applyBudgetDecision`, at the version that it read. -/
def decisionParams (version : ℕ) : ApplyBudgetDecisionParams where
  projectId := params.projectId
  expectedVersion := version
  actor := systemActor
  correlationId := params.correlationId
  featureRunId := some params.featureRunId

/-- The refusal of a call that is forecast to be a hard breach, with the project's row. -/
def refuse (others : TaskOthers) (forecast : BudgetForecast) :
    Option WorkflowState → Sql BudgetPreflightResult
  | none =>
    -- there is no row to record the breach against
    pure (.hardBreach forecast.projectedSpend)
  | some workflowState => do
    let evaluation : BudgetEvaluation := {
      status := .hardBreach, policy := forecast.policy, totalSpend := forecast.projectedSpend }
    let _ ← applyBudgetDecision others evaluation (params.decisionParams workflowState.version)
    pure (.hardBreach forecast.projectedSpend)

/-- `budgetPreflightCheck`.  The forecast is one step: the commands that may come between its two
statements write neither policies nor costs. -/
def budgetPreflightCheck (others : TaskOthers) : Sql BudgetPreflightResult :=
  match params.estimatedCostUsd with
  | none => pure .proceed
  | some estimatedCostUsd => do
    let now ← isoNow
    let forecast ← stepAt others 0 (query fun db =>
      forecastBudget db params.budgetParams estimatedCostUsd now)
    match forecast with
    | none => pure .proceed
    | some forecast =>
      if forecast.status ≠ .hardBreach then pure .proceed
      else do
        let workflowState ← stepAt others 1 (query fun db => db.findWorkflowState params.projectId)
        params.refuse others forecast workflowState

end BudgetPreflightParams

/-! ### Calls of the executor -/

section Calls

variable {others : TaskOthers} {n : ℕ} {P : Type} {handler : CommandHandler P}
  {envelope : CommandEnvelope P} {s s' : Session}

/-- **What a call among other sessions did**: it was answered from the key when it looked it up, or it
went on to the handler. -/
theorem executeAt_ok {result : CommandResult}
    (h : exec (executeAt others n handler envelope) s = (.ok result, s')) :
    (s'.db = others (.lookup n) s.db ∧ ∃ cached, (others (.lookup n) s.db).findCachedResult
        envelope.idempotencyKey handler.idempotencyScope s.runtime.now = some cached) ∨
      (others (.lookup n) s.db).findCachedResult envelope.idempotencyKey handler.idempotencyScope
          s.runtime.now = none ∧
        ∃ s₁, s₁.db = others (.transaction n) (others (.lookup n) s.db) ∧ s₁.runtime = s.runtime ∧
          exec (handler.execute envelope) s₁ = (.ok result, s') := by
  obtain ⟨_, s₁, hlookup, h₁⟩ := exec_bind_ok.mp h
  obtain ⟨-, rfl⟩ := Prod.mk.inj hlookup
  obtain ⟨cached, s₂, hpre, h₂⟩ := exec_bind_ok.mp h₁
  obtain ⟨hdb₂, hrt₂, hcached⟩ := precheck_ok hpre
  cases cached with
  | some result' =>
    obtain ⟨-, rfl⟩ := Prod.mk.inj h₂
    obtain ⟨cached, hfound, -⟩ := Option.map_eq_some_iff.mp hcached.symm
    exact Or.inl ⟨hdb₂, cached, hfound⟩
  | none =>
    obtain ⟨_, s₃, htransaction, h₃⟩ := exec_bind_ok.mp h₂
    obtain ⟨-, hs₃⟩ := Prod.mk.inj htransaction
    have hdb₃ : s₃.db = others (.transaction n) s₂.db := by rw [← hs₃]
    have hrt₃ : s₃.runtime = s₂.runtime := by rw [← hs₃]
    exact Or.inr ⟨Option.map_eq_none_iff.mp hcached.symm, s₃, hdb₃.trans (congrArg _ hdb₂),
      hrt₃.trans hrt₂, h₃⟩

section Returns

variable (hs : s.Willing)
  (hrole : assertRole envelope.actor handler.requiredRole handler.commandName
    handler.requiredActorKind = .ok ())

include hs hrole

theorem returns_executeAt_cached {cached : CachedResult}
    (hcached : (others (.lookup n) s.db).findCachedResult envelope.idempotencyKey
      handler.idempotencyScope s.runtime.now = some cached) :
    Returns (executeAt others n handler envelope) s fun _ s' => s'.db = others (.lookup n) s.db := by
  refine (returns_write (P := fun _ s₁ => s₁ = { s with db := others (.lookup n) s.db }) rfl).bind
    fun _ s₁ hs₁ => ?_
  have hwilling : s₁.Willing := fun n => hs₁ ▸ hs n
  refine (returns_precheck hwilling hrole).bind fun result s₂ ⟨hresult, hreads⟩ => ?_
  subst hs₁
  have hsome : result = some cached.toCommandResult := by
    rw [hresult]
    exact congrArg (Option.map (·.toCommandResult)) hcached
  subst hsome
  exact returns_pure hreads.db

theorem returns_executeAt {Q : CommandResult → Session → Prop}
    (hnone : (others (.lookup n) s.db).findCachedResult envelope.idempotencyKey
      handler.idempotencyScope s.runtime.now = none)
    (hexecute : ∀ s₁ : Session, s₁.db = others (.transaction n) (others (.lookup n) s.db) →
      s₁.runtime = s.runtime → Returns (handler.execute envelope) s₁ Q) :
    Returns (executeAt others n handler envelope) s Q := by
  refine (returns_write (P := fun _ s₁ => s₁ = { s with db := others (.lookup n) s.db }) rfl).bind
    fun _ s₁ hs₁ => ?_
  have hwilling : s₁.Willing := fun n => hs₁ ▸ hs n
  refine (returns_precheck hwilling hrole).bind fun result s₂ ⟨hresult, hreads⟩ => ?_
  subst hs₁
  have hmissing : result = none := by
    rw [hresult]
    exact congrArg (Option.map (·.toCommandResult)) hnone
  subst hmissing
  refine (returns_write (P := fun _ s₃ => s₃ = { s₂ with db := others (.transaction n) s₂.db })
    rfl).bind fun _ s₃ hs₃ => ?_
  subst hs₃
  exact hexecute _ (congrArg _ hreads.db) hreads.runtime

end Returns

end Calls

/-! ### The record of a breach -/

/-- The breach is recorded afresh on these tables: its key is free, and the project runs at the version
that the command expects. -/
structure AdmitsRecord (db : Db) (now : ℤ) (key : String) (ref : ProjectRef) : Prop where
  free : db.Free key recordBudgetExceededHandler.idempotencyScope now
  running : ∃ ws, db.findWorkflowState ref.projectId = some ws ∧ ws.version = ref.expectedVersion ∧
    ws.automationState = .running

/-- The key of the breach holds the result of an earlier record. -/
def HoldsRecord (db : Db) (now : ℤ) (key : String) : Prop :=
  ∃ cached, db.findCachedResult key recordBudgetExceededHandler.idempotencyScope now = some cached

/-- `running` is the one state that the budget stops. -/
theorem isValid_pausedBudgetExceeded {state : AutomationState} :
    automationControl.isValid state .pausedBudgetExceeded = true ↔ state = .running := by
  cases state <;> decide

section Record

variable {command : CommandEnvelope RecordBudgetExceededPayload} {s s' : Session}

/-- **A record that returned** was replayed, and changed nothing, or stopped a project that ran at the
version it expected. -/
theorem recordBudgetExceeded_ok {result : CommandResult}
    (h : exec (recordBudgetExceededHandler.execute command) s = (.ok result, s')) :
    (s'.db = s.db ∧ HoldsRecord s.db s.runtime.now command.idempotencyKey) ∨
      AdmitsRecord s.db s.runtime.now command.idempotencyKey command.payload.toProjectRef ∧
        s'.db.automationState command.payload.projectId = some .pausedBudgetExceeded := by
  obtain ⟨ev, s₁, hevidence, h₁⟩ := exec_bind_ok.mp h
  obtain ⟨-, rfl⟩ := Prod.mk.inj hevidence
  obtain ⟨result', s₂, htransact, hfinish⟩ := exec_bind_ok.mp h₁
  obtain ⟨-, rfl⟩ := orThrow_ok hfinish
  obtain ⟨s₃, hbody, hdb, -⟩ := transaction_ok htransact
  rcases withIdempotencyKey_ok hbody with ⟨hsame, hclaim⟩ |
    ⟨claimId, s₄, s₅, hclaim, hwork, hfulfil⟩
  · obtain ⟨-, row, hrow, hkey, hlive, cached, hcached, -⟩ := claimIdempotencyKey_replay hclaim
    exact Or.inl ⟨hdb.trans hsame,
      cached, Db.findCachedResult_iff.mpr ⟨row, hrow, hkey, hlive, hcached⟩⟩
  · have hstates : s₄.db.workflowStates = s.db.workflowStates :=
      (frame_claimIdempotencyKey (π := fun s : Session => s.db.workflowStates) (fun _ _ _ => rfl)
        (fun _ _ => rfl) _ _ _).of_exec hclaim
    have hfind : s₄.db.findWorkflowState command.payload.projectId =
        s.db.findWorkflowState command.payload.projectId := by
      unfold Db.findWorkflowState
      rw [hstates]
    obtain ⟨ws, hws, hversion, hvalid, htables⟩ := moveAutomation_ok hwork
    refine Or.inr ⟨⟨(claimIdempotencyKey_owned hclaim).1, ws, hfind.symm.trans hws, hversion,
      isValid_pausedBudgetExceeded.mp hvalid⟩, ?_⟩
    -- the fulfilment and the commit leave the row as the move left it
    have hmoved := congrArg (fun db : Db => db.workflowStates) htables
    refine Db.automationState_steered hws hversion ?_
    rw [hdb, hfulfil]
    exact hmoved

theorem returns_recordBudgetExceeded (hs : s.Ready)
    (hadmits : AdmitsRecord s.db s.runtime.now command.idempotencyKey
      command.payload.toProjectRef) :
    Returns (recordBudgetExceededHandler.execute command) s fun _ _ => True := by
  obtain ⟨ws, hws, hversion, hrunning⟩ := hadmits.running
  refine (returns_pure (Q := fun _ s' => s' = s) rfl).bind fun ev s₁ hs₁ => ?_
  subst hs₁
  have htransact : Returns (recordBudgetExceededHandler.transact command ev) s₁
      fun _ s' => s₁.Grows s' := by
    refine CommandHandler.returns_transact hs hadmits.free fun keys s' hready hdb _ => ?_
    refine returns_moveAutomation hready ?_ hversion ?_ rfl
    · rw [hdb]
      exact hws
    · exact isValid_pausedBudgetExceeded.mpr hrunning
  refine htransact.bind fun result s₂ _ => ?_
  have hfinish : recordBudgetExceededHandler.finish result = .ok result := rfl
  exact (returns_orThrow hfinish).imp fun _ _ _ => trivial

theorem returns_recordBudgetExceeded_replay (hs : s.Willing)
    (hholds : HoldsRecord s.db s.runtime.now command.idempotencyKey) :
    Returns (recordBudgetExceededHandler.execute command) s fun _ s' => s'.db = s.db := by
  obtain ⟨cached, hcached⟩ := hholds
  refine (returns_pure (Q := fun _ s' => s' = s) rfl).bind fun ev s₁ hs₁ => ?_
  subst hs₁
  have htransact : Returns (recordBudgetExceededHandler.transact command ev) s₁ fun result s' =>
      result = cached.toCommandResult ∧ s'.db = s₁.db :=
    CommandHandler.returns_transact_replay hs hcached
  refine htransact.bind fun result s₂ ⟨_, hdb₂⟩ => ?_
  have hfinish : recordBudgetExceededHandler.finish result = .ok result := rfl
  refine (returns_orThrow hfinish).imp fun _ s₃ ⟨_, hs₃⟩ => ?_
  subst hs₃
  exact hdb₂

end Record

/-! ### The moments of the check -/

section Moments

variable (others : TaskOthers) (db : Db)

/-- The tables that the forecast reads. -/
def atForecast : Db := others (.step 0) db

/-- The tables that the version is read from. -/
def atRead : Db := others (.step 1) (atForecast others db)

/-- The tables on which the executor looks up the key of the record. -/
def atLookup : Db := others (.lookup 0) (atRead others db)

/-- The tables on which the transaction of the record begins. -/
def atTransaction : Db := others (.transaction 0) (atLookup others db)

end Moments

/-- What the check's forecast reports. -/
def BudgetPreflightParams.forecast (params : BudgetPreflightParams) (db : Db) (now : ℤ) :
    Option BudgetForecast :=
  params.estimatedCostUsd.bind fun estimatedCostUsd =>
    forecastBudget db params.budgetParams estimatedCostUsd now

/-- The project does not run, if it ran before. -/
def NotLeftRunning (projectId : String) (before after : Db) : Prop :=
  before.automationState projectId = some .running → after.automationState projectId ≠ some .running

/-- The check fails closed: a forecast of a hard breach comes back as a refusal, after which a project that
ran does not, and every other forecast lets the call proceed and writes nothing. -/
structure FailsClosed (params : BudgetPreflightParams) (others : TaskOthers) (db : Db) (rt : Runtime) :
    Prop where
  refuses : ∀ forecast, params.forecast (atForecast others db) rt.now = some forecast →
    forecast.status = .hardBreach →
      (exec (params.budgetPreflightCheck others) (.start db rt)).1 =
          .ok (.hardBreach forecast.projectedSpend) ∧
        NotLeftRunning params.projectId db
          (exec (params.budgetPreflightCheck others) (.start db rt)).2.db
  proceeds : (∀ forecast, params.forecast (atForecast others db) rt.now = some forecast →
      forecast.status ≠ .hardBreach) →
    (exec (params.budgetPreflightCheck others) (.start db rt)).1 = .ok .proceed ∧
      ((exec (params.budgetPreflightCheck others) (.start db rt)).2.db = db ∨
        (exec (params.budgetPreflightCheck others) (.start db rt)).2.db = atForecast others db)

/-- The record of a breach goes through: its key holds the result of an earlier record when the executor
looks it up, or when the transaction begins, and the project is not left running; or the breach is recorded
afresh. -/
def Recordable (others : TaskOthers) (db : Db) (now : ℤ) (key : String) (ref : ProjectRef) : Prop :=
  HoldsRecord (atLookup others db) now key ∧ NotLeftRunning ref.projectId db (atLookup others db) ∨
    ¬ HoldsRecord (atLookup others db) now key ∧
      (HoldsRecord (atTransaction others db) now key ∧
          NotLeftRunning ref.projectId db (atTransaction others db) ∨
        AdmitsRecord (atTransaction others db) now key ref)

/-! ### When the record goes through -/

section Refuse

variable {params : BudgetPreflightParams} {others : TaskOthers} {forecast : BudgetForecast}
  {ws : WorkflowState} {db : Db} {s s' : Session}

/-- The key of the breach that a forecast reports. -/
def BudgetPreflightParams.breachKey (params : BudgetPreflightParams) (forecast : BudgetForecast)
    (version : ℕ) : String :=
  (params.decisionParams version).exceededKey forecast.policy.id

/-- **A refusal that returned** recorded the breach, or found it recorded. -/
theorem refuse_ok {result : BudgetPreflightResult} (hdb : s.db = atRead others db)
    (hafter : NotLeftRunning params.projectId db s'.db)
    (h : exec (params.refuse others forecast (some ws)) s = (.ok result, s')) :
    Recordable others db s.runtime.now (params.breachKey forecast ws.version)
      ⟨params.projectId, ws.version⟩ := by
  obtain ⟨_, s₁, happly, h₁⟩ := exec_bind_ok.mp h
  obtain ⟨-, rfl⟩ := Prod.mk.inj h₁
  obtain ⟨commandId, s₂, hid, h₂⟩ := exec_bind_ok.mp happly
  obtain ⟨-, hs₂⟩ := Prod.mk.inj hid
  obtain ⟨commandResult, s₃, hexecute, h₃⟩ := exec_bind_ok.mp h₂
  obtain ⟨-, rfl⟩ := Prod.mk.inj h₃
  have hdb₂ : s₂.db = atRead others db := by rw [← hs₂]; exact hdb
  have hrt₂ : s₂.runtime = s.runtime := by rw [← hs₂]
  rcases executeAt_ok hexecute with ⟨hsame, hholds⟩ | ⟨hnone, s₄, hdb₄, hrt₄, hrecord⟩
  · rw [hdb₂, hrt₂] at hholds
    rw [hsame, hdb₂] at hafter
    exact Or.inl ⟨hholds, hafter⟩
  · rw [hdb₂] at hdb₄
    rw [hdb₂, hrt₂] at hnone
    have hunheld : ¬ HoldsRecord (atLookup others db) s.runtime.now
        (params.breachKey forecast ws.version) := by
      rintro ⟨cached, hcached⟩
      exact Option.some_ne_none cached (hcached.symm.trans hnone)
    refine Or.inr ⟨hunheld, ?_⟩
    rcases recordBudgetExceeded_ok hrecord with ⟨hsame, hholds⟩ | ⟨hadmits, -⟩
    · rw [hdb₄, hrt₄, hrt₂] at hholds
      rw [hsame, hdb₄] at hafter
      exact Or.inl ⟨hholds, hafter⟩
    · rw [hdb₄, hrt₄, hrt₂] at hadmits
      exact Or.inr hadmits

/-- The record of a breach that goes through, by the command that the check issues. -/
theorem returns_record {command : CommandEnvelope RecordBudgetExceededPayload} {key : String}
    {ref : ProjectRef} (hready : (Session.start (atTransaction others db) s.runtime).Ready)
    (hdb : s.db = atRead others db) (hactor : command.actor = systemActor)
    (hkey : command.idempotencyKey = key) (href : command.payload.toProjectRef = ref)
    (h : Recordable others db s.runtime.now key ref) :
    Returns (executeAt others 0 recordBudgetExceededHandler command) s
      fun _ s' => NotLeftRunning ref.projectId db s'.db := by
  subst hkey href
  have hrole : assertRole command.actor recordBudgetExceededHandler.requiredRole
      recordBudgetExceededHandler.commandName recordBudgetExceededHandler.requiredActorKind =
        .ok () := by
    rw [hactor]
    rfl
  have hwilling : s.Willing := hready.willing
  have hlookup : others (.lookup 0) s.db = atLookup others db := congrArg (others (.lookup 0)) hdb
  rcases h with ⟨⟨cached, hcached⟩, hafter⟩ | ⟨hunheld, hcases⟩
  · rw [← hlookup] at hcached hafter
    refine (returns_executeAt_cached hwilling hrole hcached).imp fun _ s' hsame => ?_
    rw [hsame]
    exact hafter
  · have hnone : (others (.lookup 0) s.db).findCachedResult command.idempotencyKey
        recordBudgetExceededHandler.idempotencyScope s.runtime.now = none := by
      rw [hlookup, ← Option.not_isSome_iff_eq_none]
      exact fun hsome => hunheld (Option.isSome_iff_exists.mp hsome)
    refine returns_executeAt hwilling hrole hnone fun s₁ hdb₁ hrt₁ => ?_
    rw [hlookup] at hdb₁
    have htransaction : s₁.db = atTransaction others db := hdb₁
    have hready₁ : s₁.Ready := by
      apply Session.Ready.of_start
      rw [htransaction, hrt₁]
      exact hready
    rw [← htransaction, ← hrt₁] at hcases
    rcases hcases with ⟨hholds, hafter⟩ | hadmits
    · refine (returns_recordBudgetExceeded_replay hready₁.willing hholds).imp fun _ s' hsame => ?_
      rw [hsame]
      exact hafter
    · refine ((returns_recordBudgetExceeded hready₁ hadmits).and_of_ok fun result s' hok =>
        recordBudgetExceeded_ok hok).imp fun _ s' ⟨_, hrecorded⟩ => ?_
      rcases hrecorded with ⟨-, cached, hcached⟩ | ⟨-, hstopped⟩
      · -- a free key holds no result
        rw [hadmits.free.findCachedResult le_rfl] at hcached
        cases hcached
      · intro _
        rw [hstopped]
        simp

/-- **A refusal returns** when the record of the breach goes through. -/
theorem returns_refuse (hready : (Session.start (atTransaction others db) s.runtime).Ready)
    (hdb : s.db = atRead others db)
    (h : Recordable others db s.runtime.now (params.breachKey forecast ws.version)
      ⟨params.projectId, ws.version⟩) :
    Returns (params.refuse others forecast (some ws)) s fun result s' =>
      result = .hardBreach forecast.projectedSpend ∧ NotLeftRunning params.projectId db s'.db := by
  have hdecision : Returns (applyBudgetDecision others
      ⟨.hardBreach, forecast.policy, forecast.projectedSpend⟩ (params.decisionParams ws.version)) s
      fun _ s' => NotLeftRunning params.projectId db s'.db := by
    refine returns_generateId.bind fun commandId s₁ hreturned₁ => ?_
    obtain ⟨-, hdb₁, hrt₁, -⟩ := hreturned₁
    rw [← hrt₁] at hready h
    have hrecord : Returns (executeAt others 0 recordBudgetExceededHandler
        ((params.decisionParams ws.version).exceeded
          ⟨.hardBreach, forecast.policy, forecast.projectedSpend⟩ commandId)) s₁
        fun _ s' => NotLeftRunning params.projectId db s'.db :=
      returns_record hready (hdb₁.trans hdb) rfl rfl rfl h
    exact hrecord.bind fun _ s₂ hafter => returns_pure hafter
  exact hdecision.bind fun _ s' hafter => returns_pure ⟨rfl, hafter⟩

end Refuse

/-! ### When the check fails closed -/

section Check

variable {params : BudgetPreflightParams} {others : TaskOthers} {db : Db} {rt : Runtime}

/-- Without a hard breach the check lets the call proceed. -/
theorem returns_budgetPreflightCheck (hwilling : (Session.start db rt).Willing)
    (h : ∀ forecast, params.forecast (atForecast others db) rt.now = some forecast →
      forecast.status ≠ .hardBreach) :
    Returns (params.budgetPreflightCheck others) (.start db rt) fun result s' =>
      result = .proceed ∧ (s'.db = db ∨ s'.db = atForecast others db) := by
  unfold BudgetPreflightParams.budgetPreflightCheck
  unfold BudgetPreflightParams.forecast at h
  rcases hestimate : params.estimatedCostUsd with _ | estimatedCostUsd
  · exact returns_pure ⟨rfl, Or.inl rfl⟩
  · rw [hestimate, Option.bind_some] at h
    refine returns_isoNow.bind fun now s₁ ⟨hnow, hs₁⟩ => ?_
    subst hs₁
    refine (returns_stepAt_query hwilling 0 _).bind fun forecast s₂ hreturned₂ => ?_
    obtain ⟨hforecast, hdb₂, -, -⟩ := hreturned₂
    rw [hnow] at hforecast
    rcases forecast with _ | forecast
    · exact returns_pure ⟨rfl, Or.inr hdb₂⟩
    · have hstatus := h forecast hforecast.symm
      simp only
      rw [if_pos hstatus]
      exact returns_pure ⟨rfl, Or.inr hdb₂⟩

/-- With a hard breach it refuses the call. -/
theorem exec_budgetPreflightCheck {forecast : BudgetForecast}
    (hwilling : (Session.start db rt).Willing)
    (hforecast : params.forecast (atForecast others db) rt.now = some forecast)
    (hbreach : forecast.status = .hardBreach) :
    ∃ s₁, s₁.db = atRead others db ∧ s₁.runtime = rt ∧
      exec (params.budgetPreflightCheck others) (.start db rt) =
        exec (params.refuse others forecast ((atRead others db).findWorkflowState params.projectId))
          s₁ := by
  obtain ⟨estimatedCostUsd, hestimate, hforecast⟩ := Option.bind_eq_some_iff.mp hforecast
  unfold BudgetPreflightParams.budgetPreflightCheck
  rw [hestimate]
  have hstep₀ : Returns (stepAt others 0 (query fun db =>
      forecastBudget db params.budgetParams estimatedCostUsd rt.now)) (.start db rt) _ :=
    returns_stepAt_query hwilling 0 _
  obtain ⟨forecast', s₁, hexec₁, hforecast', hdb₁, hrt₁, -⟩ := hstep₀
  obtain rfl : forecast' = some forecast := hforecast'.trans hforecast
  have hwilling₁ : s₁.Willing := by
    intro n
    rw [hrt₁]
    exact hwilling n
  have hstep₁ : Returns (stepAt others 1 (query fun db =>
      db.findWorkflowState params.projectId)) s₁ _ := returns_stepAt_query hwilling₁ 1 _
  obtain ⟨ws, s₂, hexec₂, hws, hdb₂, hrt₂, -⟩ := hstep₁
  rw [hdb₁] at hws hdb₂
  refine ⟨s₂, hdb₂, hrt₂.trans hrt₁, ?_⟩
  refine (exec_bind_of (exec_isoNow _)).trans ((exec_bind_of hexec₁).trans ?_)
  simp only
  rw [if_neg (not_not_intro hbreach)]
  refine (exec_bind_of hexec₂).trans ?_
  rw [hws]
  rfl

/-- **The check fails closed exactly when the record of a breach goes through**: where it forecasts a hard
breach and the project has a row, the key of the breach holds the result of an earlier record, after which
the project is not left running, or the key is free and the project runs at the version that was read. -/
theorem failsClosed_iff (hready : (Session.start (atTransaction others db) rt).Ready) :
    FailsClosed params others db rt ↔
      ∀ forecast, params.forecast (atForecast others db) rt.now = some forecast →
        forecast.status = .hardBreach →
          ∀ ws, (atRead others db).findWorkflowState params.projectId = some ws →
            Recordable others db rt.now (params.breachKey forecast ws.version)
              ⟨params.projectId, ws.version⟩ := by
  have hwilling : (Session.start db rt).Willing := hready.willing
  constructor
  · intro h forecast hforecast hbreach ws hws
    obtain ⟨s₁, hdb₁, hrt₁, hexec⟩ := exec_budgetPreflightCheck hwilling hforecast hbreach
    obtain ⟨houtcome, hafter⟩ := h.refuses forecast hforecast hbreach
    rw [hexec, hws] at houtcome hafter
    rw [← hrt₁]
    exact refuse_ok hdb₁ hafter (Prod.ext houtcome rfl)
  · intro h
    refine ⟨fun forecast hforecast hbreach => ?_, fun hother => ?_⟩
    · obtain ⟨s₁, hdb₁, hrt₁, hexec⟩ := exec_budgetPreflightCheck hwilling hforecast hbreach
      rw [hexec]
      rcases hws : (atRead others db).findWorkflowState params.projectId with _ | ws
      · -- without a row there is nothing to record, and nothing that runs
        refine ⟨rfl, fun _ hrunning => ?_⟩
        have hnone : s₁.db.automationState params.projectId = none := by
          unfold Db.automationState
          rw [hdb₁, hws]
          rfl
        exact Option.some_ne_none _ (hrunning.symm.trans hnone)
      · have hrecordable := h forecast hforecast hbreach ws hws
        subst hrt₁
        obtain ⟨result, s', hrefused, rfl, hafter⟩ := returns_refuse hready hdb₁ hrecordable
        rw [hrefused]
        exact ⟨rfl, hafter⟩
    · obtain ⟨result, s', hexec, rfl, hdb⟩ := returns_budgetPreflightCheck hwilling hother
      rw [hexec]
      exact ⟨rfl, hdb⟩

end Check

/-! ### A breach of a sample project -/

/-- A project with a budget of ten dollars for its feature. -/
def samplePreflightDb (state : AutomationState) : Db where
  workflowStates := .ofList [{ id := "state", projectId := "P", automationState := state }]
  budgetPolicies := .ofList [{
    id := "policy", projectId := "P", scope := .feature, featureRequestId := some "login"
    softLimit := none, hardLimit := some 10, windowDays := none, isActive := true, updatedAt := 1 }]

/-- A run of the feature that is estimated to cost twelve dollars. -/
def samplePreflight : BudgetPreflightParams where
  projectId := "P"
  featureRequestId := "login"
  scope := .feature
  correlationId := "run"
  estimatedCostUsd := some 12
  featureRunId := "run"

/-- The project runs, and the breach is recorded. -/
theorem failsClosed_iff_running :
    FailsClosed samplePreflight undisturbed (samplePreflightDb .running) (sampleRuntime 1) := by
  have hready : (Session.start (atTransaction undisturbed (samplePreflightDb .running))
      (sampleRuntime 1)).Ready := by
    refine ⟨fun _ => rfl, fun m n hsame => ?_, fun n _ hmem => ?_⟩
    · have hlength := congrArg String.length hsame
      simpa [sampleRuntime, String.length_ofList] using hlength
    · have hnone : (atTransaction undisturbed (samplePreflightDb .running)).generatedIds = [] := rfl
      rw [Session.start_db, hnone] at hmem
      cases hmem
  refine (failsClosed_iff hready).mpr fun forecast _ _ ws hws => Or.inr ⟨?_, Or.inr ⟨?_, ws, hws, ?_⟩⟩
  · rintro ⟨cached, hcached⟩
    cases hcached
  · intro row hrow
    cases hrow
  · have hrunning : ((samplePreflightDb .running).findWorkflowState "P").map (·.automationState) =
        some .running := by decide +kernel
    have hfound : (samplePreflightDb .running).findWorkflowState "P" = some ws := hws
    rw [hfound] at hrunning
    exact ⟨rfl, Option.some.inj hrunning⟩

/-- The operator has paused the project, and the record of the breach is refused. -/
theorem not_failsClosed_paused :
    ¬ FailsClosed samplePreflight undisturbed (samplePreflightDb .pausedByOperator)
      (sampleRuntime 1) := by
  intro h
  have hforecast : ((samplePreflight.forecast (atForecast undisturbed
      (samplePreflightDb .pausedByOperator)) (sampleRuntime 1).now).map (·.status)) =
        some .hardBreach := by decide +kernel
  obtain ⟨forecast, hforecast, hbreach⟩ := Option.map_eq_some_iff.mp hforecast
  obtain ⟨houtcome, -⟩ := h.refuses forecast hforecast hbreach
  have hthrows : (exec (samplePreflight.budgetPreflightCheck undisturbed)
      (.start (samplePreflightDb .pausedByOperator) (sampleRuntime 1))).1.toBool = false := by
    decide +kernel
  rw [houtcome] at hthrows
  cases hthrows

end MiniCoder
