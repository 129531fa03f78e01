import MiniCoder.Locks.Manager
import MiniCoder.Reconcile.Truthful

/-!
# The commands of a task

What the scheduled tasks share: they read the tables statement by statement, issue commands through
the executor, some of them under the project's execution lane, and take a lost race for an answer.
Other sessions may commit between any two statements of a task.

* `frame_*_runtime`: the statements of a task leave the runtime alone.
* `unlessTransient_some`: what a body that lost no race did.
* `dispatchTask_cases`: what a task's command did.
-/

open Storage Storage.Action

namespace MiniCoder

/-! ### Other sessions -/

/-- Where other sessions may commit during a task: before its `n`-th step on the database, when the
executor looks up the key of its `n`-th command, and when the transaction of that command begins. -/
inductive TaskMoment
  | step (n : ℕ)
  | lookup (n : ℕ)
  | transaction (n : ℕ)

/-- What other sessions make of the tables at each moment of a task. -/
abbrev TaskOthers := TaskMoment → Db → Db

/-- A task that runs alone. -/
def undisturbed : TaskOthers := fun _ db => db

section Steps

variable (others : TaskOthers)

/-- A step on the database, after what other sessions did before it. -/
def stepAt {α : Type} (n : ℕ) (m : Sql α) : Sql α := do
  write fun s => { s with db := others (.step n) s.db }
  m

/-- The `n`-th command of a task. -/
def dispatchTask (n : ℕ) (request : Request) : Sql (CommandResult × Dispatch) :=
  dispatch (fun moment db =>
    match moment with
    | .lookup _ => others (.lookup n) db
    | .transaction _ => others (.transaction n) db
    | _ => db) 0 request

end Steps

/-! ### Lost races -/

/-- `isTransientRace` of `transient-race.ts`, with the command errors that a task expects. -/
def isTransientRaceShared (expectedCommandErrorTypes : List String) : Failure → Bool
  | .lockConflict .. | .optimisticLock .. | .staleFence .. => true
  | .command problem | .mergeGateBlocked _ problem =>
    decide (problem.type ∈ expectedCommandErrorTypes)
  | _ => false

/-- The result of `body`, or `none` when it lost a race. -/
def unlessTransient {α : Type} (expectedCommandErrorTypes : List String) (body : Sql α) :
    Sql (Option α) :=
  tryCatch (do let a ← body; pure (some a)) fun e =>
    if isTransientRaceShared expectedCommandErrorTypes e then pure none else throw e

/-! ### The execution lane -/

/-- The lock context of a command that is issued under the lane of a project. -/
def AcquiredLock.context (lock : AcquiredLock) (projectId : String) : LockContext where
  lockId := lock.lockId
  fence := lock.fence
  holderId := lock.holderId
  projectId := some projectId
  resourceKey := some lock.resourceKey

/-- `ExecutionLane.acquireForProject`, for the 30 seconds a task asks for. -/
def acquireForProject (projectId holderId : String) : Sql AcquiredLock :=
  acquire projectId (executionLane projectId) ⟨holderId, 30000⟩

/-! ### What the steps did -/

section Rules

variable {α : Type} {others : TaskOthers} {expected : List String} {s s' : Session}

theorem unlessTransient_some {body : Sql α} {a : α}
    (h : exec (unlessTransient expected body) s = (.ok (some a), s')) :
    exec body s = (.ok a, s') := by
  rcases exec_tryCatch_ok.mp h with hbody | ⟨e, s₁, -, hcatch⟩
  · obtain ⟨b, s₁, hb, hpure⟩ := exec_bind_ok.mp hbody
    obtain ⟨hsome, rfl⟩ := Prod.mk.inj hpure
    rw [hb, Option.some.inj (Except.ok.inj hsome)]
  · rw [exec_ite] at hcatch
    split at hcatch
    · simp at hcatch
    · simp at hcatch

theorem frame_stepAt_runtime {m : Sql α} (n : ℕ) (h : Frame Session.runtime m) :
    Frame Session.runtime (stepAt others n m) :=
  frame_bind (frame_write fun _ => rfl) fun _ => h

theorem frame_query_runtime (f : Db → α) : Frame Session.runtime (query f) :=
  frame_query (fun _ _ _ => rfl) f

theorem frame_execute_runtime (f : Db → Option (α × Db)) : Frame Session.runtime (execute f) :=
  frame_execute (fun _ _ _ => rfl) fun _ _ _ _ => rfl

theorem frame_generateId_runtime : Frame Session.runtime generateId :=
  frame_generateId fun _ _ _ => rfl

/-- A statement of a task reads what other sessions have left. -/
theorem stepAt_query_ok {n : ℕ} {f : Db → α} {a : α}
    (h : exec (stepAt others n (query f)) s = (.ok a, s')) :
    a = f (others (.step n) s.db) ∧ s'.db = others (.step n) s.db ∧ s'.runtime = s.runtime := by
  obtain ⟨_, s₁, hothers, hquery⟩ := exec_bind_ok.mp h
  obtain ⟨-, rfl⟩ := Prod.mk.inj hothers
  exact query_ok hquery

theorem returns_stepAt_query (hs : s.Willing) (n : ℕ) (f : Db → α) :
    Returns (stepAt others n (query f)) s fun a s' => a = f (others (.step n) s.db) ∧
      s'.db = others (.step n) s.db ∧ s'.runtime = s.runtime ∧ s'.drawn = s.drawn := by
  refine (returns_write (P := fun _ s₁ => s₁ = { s with db := others (.step n) s.db }) rfl).bind
    fun _ s₁ hs₁ => ?_
  have hwilling : s₁.Willing := fun n => hs₁ ▸ hs n
  refine (returns_query hwilling f).imp fun a s₂ ⟨ha, hreads⟩ => ?_
  subst hs₁
  exact ⟨ha, hreads.db, hreads.runtime, hreads.drawn⟩

theorem frame_unlessTransient {τ : Type} {π : Session → τ} {body : Sql α} (h : Frame π body) :
    Frame π (unlessTransient expected body) :=
  frame_tryCatch (frame_bind h fun _ => frame_pure _) fun _ =>
    frame_ite (frame_pure _) (frame_throw _)

theorem frame_acquireForProject_runtime (projectId holderId : String) :
    Frame Session.runtime (acquireForProject projectId holderId) := by
  refine frame_bind frame_isoNow fun now => frame_bind frame_generateId_runtime fun lockId =>
    frame_transaction_runtime (frame_bind (frame_bind (frame_execute_runtime _) fun updated => ?_)
      fun _ => frame_bind (frame_query_runtime _) fun row => ?_)
  · refine frame_ite (frame_bind (frame_execute_runtime _) fun inserted => ?_) (frame_pure _)
    exact frame_ite (frame_throw _) (frame_pure _)
  · split
    · exact frame_throw _
    · exact frame_pure _

/-- A task's command leaves the runtime alone. -/
theorem frame_dispatchTask_runtime (n : ℕ) (request : Request) :
    Frame Session.runtime (dispatchTask others n request) := by
  refine frame_bind (frame_write fun _ => rfl) fun _ => frame_bind (frame_read _) fun looked =>
    frame_bind (frame_precheck fun _ _ _ => rfl) fun cached => ?_
  rcases cached with _ | cached
  · exact frame_bind (frame_write fun _ => rfl) fun _ => frame_bind (frame_read _) fun _ =>
      frame_bind CommandHandler.frame_execute_runtime fun _ => frame_bind (frame_read _) fun _ =>
      frame_pure _
  · exact frame_pure _

/-- **What a task's command did.** -/
theorem dispatchTask_cases {n : ℕ} {request : Request} {result : CommandResult} {d : Dispatch}
    (h : exec (dispatchTask others n request) s = (.ok (result, d), s')) :
    (d.left.withoutEvidence = d.found.withoutEvidence ∧ ¬ d.Fresh s.runtime.now) ∨
      d.Fresh s.runtime.now ∧ ∃ ev, ∃ s₀ : Session,
        s₀.db.withoutEvidence = d.found.withoutEvidence ∧
          exec (request.commit ev) s₀ = (.ok result, s') ∧ s'.db = d.left ∧
          request.Did ev s₀.runtime s₀.db d.left := by
  obtain ⟨-, hleft, -, hcases⟩ := dispatch_cases h
  rcases hcases with hreplayed | ⟨hfresh, ev, s₀, hevidence, -, hnone, hcommit⟩
  · exact Or.inl hreplayed
  · refine Or.inr ⟨hfresh, ev, s₀, hevidence, hcommit, hleft, ?_⟩
    rcases Request.commit_cases hcommit with ⟨-, hlive⟩ | ⟨-, hdid, -⟩
    · exact absurd hnone hlive
    · rw [hleft] at hdid
      exact hdid

/-- **The state that a task's command leaves its run in**: the target of the command, when no live
result answered it, and otherwise the state it found. -/
theorem dispatchTask_stateOf {n : ℕ} {request : Request} {result : CommandResult} {d : Dispatch}
    (h : exec (dispatchTask others n request) s = (.ok (result, d), s')) :
    (d.Fresh s.runtime.now ∧
        d.left.stateOf request.ref.featureRunId = some request.command.target) ∨
      ¬ d.Fresh s.runtime.now ∧
        d.left.stateOf request.ref.featureRunId = d.found.stateOf request.ref.featureRunId := by
  rcases dispatchTask_cases h with ⟨hsame, hcached⟩ | ⟨hfresh, ev, s₀, -, -, -, hdid⟩
  · have hruns := congrArg Db.featureRuns hsame
    exact Or.inr ⟨hcached, Db.stateOf_of_eq hruns _⟩
  · obtain ⟨run, hstep⟩ := hdid.step
    obtain ⟨-, -, run', hrun', hid', -, -, hstate⟩ := hstep.moves
    exact Or.inl ⟨hfresh, Db.stateOf_some.mpr ⟨run', hrun', hid', hstate⟩⟩

end Rules

end MiniCoder
