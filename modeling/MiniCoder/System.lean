import MiniCoder.Commands.FeatureCommand
import MiniCoder.Locks.Fencing

/-!
# The system, step by step

One database, and the steps that processes take on it in any order: a call of the lock manager, the
evidence phase of a feature-execution command, its transaction, and `other`, whatever else runs in
the system.  A statement about runs says what it asks of the other steps.

* `next_commit`: a transaction changed nothing, or made its request's transition.
* `next_gather`: an evidence phase adds evidence rows of the merge gate.
* `leaseMachine_system`: no step but the lock calls touches the lock table.
-/

open Storage Storage.Action Runs

namespace MiniCoder

/-- A step of the system. -/
inductive SystemEvent
  | lock (e : LockEvent)
  | gather (request : Request) (rt : Runtime)
  | commit (request : Request) (ev : request.Evidence) (rt : Runtime)
  /-- Any other step, with the tables it leaves. -/
  | other (db : Db)

namespace SystemEvent

/-- The tables after a step. -/
def next (db : Db) : SystemEvent → Db
  | lock e => LockEvent.next db e
  | gather request rt => (exec request.gather (.start db rt)).2.db
  | commit request ev rt => (exec (request.commit ev) (.start db rt)).2.db
  | other db' => db'

/-- The lock token a step grants. -/
def granted (db : Db) : SystemEvent → Option Grant
  | lock e => LockEvent.granted db e
  | _ => none

/-- The tables after a sequence of steps. -/
abbrev after (db : Db) (es : List SystemEvent) : Db := run next db es

/-- The lock tokens a sequence of steps grants, in order. -/
abbrev grants (db : Db) (es : List SystemEvent) : List Grant := outputs next granted db es

variable (db : Db) (request : Request) (ev : request.Evidence) (rt : Runtime)

/-- **A transaction changed nothing, or made its request's transition.** -/
theorem next_commit : next db (commit request ev rt) = db ∨
    request.Did ev rt db (next db (commit request ev rt)) := by
  rcases hres : exec (request.commit ev) (.start db rt) with ⟨e | result, s'⟩
  · have hsame : s'.db = db := Request.commit_error hres
    exact Or.inl (by simp [next, hres, hsame])
  · have hnext : next db (commit request ev rt) = s'.db := by simp [next, hres]
    rw [hnext]
    exact Request.commit_ok hres

/-- **An evidence phase adds evidence rows of the merge gate**, and changes nothing else. -/
theorem next_gather :
    (next db (gather request rt)).withoutEvidence = db.withoutEvidence :=
  (Request.gather_evidence (s := .start db rt) (Prod.ext rfl rfl)).1

end SystemEvent

/-! ### What a transition leaves alone -/

namespace Request.Did

variable {request : Request} {ev : request.Evidence} {rt : Runtime} {db db' : Db}

/-- A transition changes the runs, the pointers, the trail and its own key. -/
theorem rest (h : request.Did ev rt db db') :
    (unrun (unpointed (withoutKeys db'.core, rt))).1 =
      (unrun (unpointed (withoutKeys db.core, rt))).1 := by
  obtain ⟨keys, keys', db₂, run, hmoved, rfl⟩ := h
  exact congrArg (fun v => withoutKeys v.1) hmoved.rest

theorem workflowLocks (h : request.Did ev rt db db') : db'.workflowLocks = db.workflowLocks := by
  have hrest := congrArg Db.workflowLocks h.rest
  exact hrest

theorem featureRequests (h : request.Did ev rt db db') :
    db'.featureRequests = db.featureRequests := by
  have hrest := congrArg Db.featureRequests h.rest
  exact hrest

theorem featureDependencies (h : request.Did ev rt db db') :
    db'.featureDependencies = db.featureDependencies := by
  have hrest := congrArg Db.featureDependencies h.rest
  exact hrest

theorem planning (h : request.Did ev rt db db') : db'.planning = db.planning := by
  have hrest := congrArg Db.planning h.rest
  exact hrest

end Request.Did

/-! ### The lock table -/

/-- Steps other than lock calls and commands leave the lock table alone. -/
def SystemEvent.KeepsLocks (db : Db) : SystemEvent → Prop
  | .other db' => db'.workflowLocks = db.workflowLocks
  | _ => True

open SystemEvent in
theorem SystemEvent.next_locks {db : Db} {e : SystemEvent} (h : SystemEvent.KeepsLocks db e) :
    (∃ call, e = .lock call) ∨ (SystemEvent.next db e).workflowLocks = db.workflowLocks := by
  cases e with
  | lock e => exact Or.inl ⟨e, rfl⟩
  | gather request rt =>
    have hrest := congrArg Db.workflowLocks (next_gather db request rt)
    exact Or.inr hrest
  | commit request ev rt =>
    rcases next_commit db request ev rt with hsame | hdid
    · exact Or.inr (by rw [hsame])
    · exact Or.inr hdid.workflowLocks
  | other db' => exact Or.inr h

/-- **No step but the lock calls touches the lock table.** -/
theorem leaseMachine_system :
    LeaseMachine SystemEvent.next SystemEvent.KeepsLocks SystemEvent.granted where
  evolves db e hC := by
    rcases SystemEvent.next_locks hC with ⟨call, rfl⟩ | hlocks
    · exact LockEvent.evolves db call
    · exact LocksEvolve.of_eq hlocks
  granted db e g hC hg := by
    cases e with
    | lock e => exact (LockEvent.granted_some hg).2
    | gather request rt => cases hg
    | commit request ev rt => cases hg
    | other db' => cases hg

/-! ### A project for examples -/

/-- A process at a given time, whose ids no process draws at another time. -/
def sampleRuntime (now : ℕ) : Runtime where
  now
  ids n := String.ofList (List.replicate now 't' ++ List.replicate (n + 1) 'i')

/-- An idle project with two pending features. -/
def sampleDb : Db where
  featureRequests := .ofList [
    { id := "request-1", projectId := "P", frId := "FR-1", title := "First" },
    { id := "request-2", projectId := "P", frId := "FR-2", title := "Second" }]
  featureRuns := .ofList [
    { id := "run-1", featureRequestId := "request-1"
      currentExecutionState := .approvedPendingExecution },
    { id := "run-2", featureRequestId := "request-2"
      currentExecutionState := .approvedPendingExecution }]
  workflowStates := .ofList [{ id := "state", projectId := "P" }]

/-- An envelope under a key of its own, from the holder of the first lock. -/
def sampleEnvelope {P : Type} (actorKind : ActorKind) (key : String) (payload : P) :
    CommandEnvelope P where
  commandId := key
  idempotencyKey := key
  payload
  actor := ⟨"actor", .admin, actorKind⟩
  correlationId := key
  lockContext := some { lockId := "i", fence := 1, holderId := "worker" }

/-- The worker acquires the lane of the project. -/
def laneAcquired : SystemEvent :=
  .lock ⟨.acquire "P" (executionLane "P") ⟨"worker", 1000⟩, sampleRuntime 0⟩

/-- The first feature is selected. -/
def firstSelected : SystemEvent :=
  .commit ⟨.selectFeature, sampleEnvelope .human "select" ⟨"run-1", "P", 1⟩⟩ () (sampleRuntime 1)

/-- The first feature, from the project's selection to its CI checks. -/
def cycleToCi : List SystemEvent := [
  laneAcquired,
  firstSelected,
  .commit ⟨.startCoding, sampleEnvelope .system "code" ⟨"run-1", "P", 2⟩⟩ () (sampleRuntime 2),
  .commit ⟨.recordCodePushed, sampleEnvelope .system "push" {
    featureRunId := "run-1", projectId := "P", expectedVersion := 3
    commitSha := "sha", branchName := "feature", filesChanged := 1 }⟩ () (sampleRuntime 3),
  .commit ⟨.recordPrOpened, sampleEnvelope .system "open" {
    featureRunId := "run-1", projectId := "P", expectedVersion := 4
    prNumber := 1, branchName := "feature", baseBranch := "main", headSha := some "sha" }⟩ ()
    (sampleRuntime 4),
  .commit ⟨.recordCiRunning, sampleEnvelope .system "ci" {
    featureRunId := "run-1", projectId := "P", expectedVersion := 5
    checkRunId := "check" }⟩ () (sampleRuntime 5)]

end MiniCoder
