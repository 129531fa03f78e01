import Mathlib.Logic.Function.Basic
import MiniCoder.Library.Run
import MiniCoder.Queue.Rows

/-!
# The task queue

`TaskQueueDispatcher`, statement by statement.  Each worker has one poll (`PollPhase`) and any number
of tasks that it runs at the same time (`RunningTask`), each with a heartbeat.  `attemptClaim` is one
transaction; here it is two steps, so that everything that may happen between them does: the first
takes the gate of the task and counts its `processing` rows, the second claims and commits.  While a
worker holds a gate, the first step of any other transaction on the same task waits.

A claim is named by the number of the step that made it.  The ghost column `claimedBy` has the claim
that set the current version of a row, or nothing when no claim did.

* `turns_poll`, `turns_work`, `turns_heartbeat`, `turns_crash`: what a step of a worker can do.
* `safe_next`: **one step** keeps the limits, the gates and the claims.
* `task_queue`: **over a run**, no task has more `processing` rows than its limit, a mark takes
  effect under its own claim only, and a succeeded row stays one.
-/

open Storage Runs

namespace MiniCoder

/-! ### Workers -/

/-- The columns that only `task_queue` has. -/
structure TaskColumns where
  error : Option String := none
  linkedRunId : Option String := none
  deriving DecidableEq, Repr

abbrev TaskRow := QueueRow TaskColumns

/-- The registry of tasks with their `concurrencyLimit`, the parser of payloads, and the options of
each worker. -/
structure TaskQueue (ι : Type) where
  limit : String → Option ℕ
  parses : String → Bool
  options : ι → DispatcherOptions

/-- How far `runOne` has got. -/
inductive RunStage
  | handling
  | returned
  /-- In the `catch`. -/
  | threw (nextRetryAt : ℤ)
  /-- In the `finally`; the mark of a failure may have thrown. -/
  | linking (rejected : Bool)
  | ended (rejected : Bool)
  deriving DecidableEq, Repr

/-- A task at work, with the claim it works under. -/
structure RunningTask where
  claim : ℕ
  row : TaskRow
  stage : RunStage := .handling
  lost : Bool := false
  deriving DecidableEq, Repr

/-- Where a worker is in its poll. -/
inductive PollPhase
  | idle
  | recovered
  | batch (rows : List TaskRow)
  /-- `attemptClaim` is waiting for the gate. -/
  | claiming (row : TaskRow) (concurrencyLimit : ℕ) (inFlightCount : ℤ) (rest : List TaskRow)
  /-- `attemptClaim` holds the gate, and has found the task below its limit. -/
  | counted (row : TaskRow) (inFlightCount : ℤ) (rest : List TaskRow)
  deriving DecidableEq, Repr

structure TaskWorker where
  phase : PollPhase := .idle
  running : List RunningTask := []
  inFlight : String → Option ℤ := fun _ => none

/-- The `processing` rows of a task. -/
def isProcessing (task : String) (row : TaskRow) : Bool :=
  row.status == .processing && row.kind == task

namespace PollPhase

/-- The rows a worker will try to claim. -/
def toClaim : PollPhase → List TaskRow
  | batch rows => rows
  | claiming row _ _ rest | counted row _ rest => row :: rest
  | _ => []

/-- The row that the next statement claims. -/
def claims : PollPhase → Option TaskRow
  | counted row _ _ => some row
  | _ => none

end PollPhase

/-- The step marks its row as succeeded or failed. -/
def RunStage.marks : RunStage → Bool
  | returned | threw _ => true
  | _ => false

/-! ### Steps of a worker -/

/-- What a step of a worker leaves: the worker, the queue, and who holds the gate of each task. -/
structure Turn (ι : Type) where
  worker : TaskWorker
  tasks : Table TaskRow
  gates : String → Option ι

/-- `UPDATE task_queue SET linked_run_id = … WHERE id = ?`. -/
def linkRun (row : TaskRow) (linkedRunId : Option String) (t : Table TaskRow) :
    ℕ × Table TaskRow :=
  executeAffected (fun r => r.id == row.id)
    (fun r => { r with extra := { r.extra with linkedRunId } }) (fun _ _ => rfl) t

namespace TaskQueue

variable {ι : Type} [DecidableEq ι] (q : TaskQueue ι) (i : ι)

/-- The next statement of `pollAndDispatch`; a claim is given the number `claim`. -/
def poll (m : Moment) (claim : ℕ) (t : Table TaskRow) (gates : String → Option ι)
    (w : TaskWorker) : Turn ι :=
  match w.phase with
  | .idle =>
    let recovered := issue m.fault t
      (recoverStale (m.polled - (q.options i).staleClaimMs) m.now)
    ⟨{ w with phase := if recovered.1.isSome then .recovered else .idle }, recovered.2, gates⟩
  | .recovered =>
    let due := QueueRow.isDue (q.options i).maxAttempts m.now
    ⟨{ w with phase :=
        if m.fault.isSome then .idle else .batch (selectDue t due (q.options i).batchSize) },
      t, gates⟩
  | .batch [] => ⟨{ w with phase := .idle }, t, gates⟩
  | .batch (row :: rest) =>
    match q.limit row.kind with
    | none =>
      let pushed := issue m.fault t
        (pushBack row (m.polled + (q.options i).maxBackoffMs) m.now)
      ⟨{ w with phase := if pushed.1.isSome then .batch rest else .idle }, pushed.2, gates⟩
    | some concurrencyLimit =>
      let inFlightCount := (w.inFlight row.kind).getD 0
      ⟨{ w with phase :=
          if concurrencyLimit ≤ inFlightCount then .batch rest
          else .claiming row concurrencyLimit inFlightCount rest }, t, gates⟩
  | .claiming row concurrencyLimit inFlightCount rest =>
    -- the `UPDATE` of the gate waits for the transaction that holds it
    if (gates row.kind).isSome then ⟨w, t, gates⟩
    else if m.fault.isSome then ⟨{ w with phase := .idle }, t, gates⟩
    else if concurrencyLimit ≤ t.count (isProcessing row.kind) then
      ⟨{ w with phase := .batch rest }, t, gates⟩
    else
      ⟨{ w with phase := .counted row inFlightCount rest }, t,
        Function.update gates row.kind (some i)⟩
  | .counted row inFlightCount rest =>
    let claimed := issue m.fault t (claimRow row m.now)
    let released := Function.update gates row.kind none
    match claimed.1 with
    | none => ⟨{ w with phase := .idle }, claimed.2, released⟩
    | some 0 => ⟨{ w with phase := .batch rest }, claimed.2, released⟩
    | some _ =>
      ⟨{ phase := .batch rest
         running := w.running ++ [{ claim, row }]
         inFlight := Function.update w.inFlight row.kind (some (inFlightCount + 1)) },
        claimed.2, released⟩

/-- The retry time of a failed attempt. -/
def nextRetryAt (row : TaskRow) (now : ℤ) : ℤ :=
  now + deterministicBackoff (row.attempts + 1) (q.options i).baseBackoffMs
    (q.options i).maxBackoffMs

/-- The next statement of `runOne`, or the end of the task itself; `summary` is the text of its
error, and `linkedRunId` the run that the back-reference finds. -/
def runOne (m : Moment) (summary : String) (linkedRunId : Option String) (task : RunningTask)
    (t : Table TaskRow) : RunStage × Table TaskRow :=
  let row := task.row
  match task.stage with
  | .handling =>
    (if q.parses row.payload && m.returns then .returned
      else .threw (q.nextRetryAt i row m.polled), t)
  | .returned =>
    if task.lost then (.linking false, t)
    else
      let marked := issue m.fault t (markDone row m.now fun extra => { extra with error := none })
      (if marked.1.isSome then .linking false else .threw (q.nextRetryAt i row m.polled), marked.2)
  | .threw nextRetryAt =>
    if task.lost then (.linking false, t)
    else
      let marked := issue m.fault t (markFailed row (row.attempts + 1) nextRetryAt m.now
        fun extra => { extra with error := some summary })
      (.linking marked.1.isNone, marked.2)
  | .linking rejected => (.ended rejected, (issue m.fault t (linkRun row linkedRunId)).2)
  | .ended rejected => (.ended rejected, t)

end TaskQueue

namespace TaskWorker

variable (w : TaskWorker) (n : ℕ)

/-- A task moves on; the end of one that did not throw leaves its place free. -/
def settle (task : RunningTask) : RunStage → TaskWorker
  | .ended rejected =>
    { w with
      running := w.running.eraseIdx n
      inFlight :=
        if rejected then w.inFlight
        else Function.update w.inFlight task.row.kind
          (some ((w.inFlight task.row.kind).getD 1 - 1)) }
  | stage => { w with running := w.running.set n { task with stage } }

/-- The heartbeat of a task; it stops for good when it finds the claim lost. -/
def heartbeat (m : Moment) (t : Table TaskRow) : TaskWorker × Table TaskRow :=
  match w.running[n]? with
  | none => (w, t)
  | some task =>
    if task.lost then (w, t)
    else
      let renewed := issue m.fault t (renewClaim task.row m.now)
      ({ w with running := w.running.set n { task with lost := renewed.1.getD 0 == 0 } },
        renewed.2)

end TaskWorker

/-! ### Workers at work -/

/-- The queue, the workers, who holds the gate of each task, the number of steps so far, and the
ghost column. -/
structure TaskState (ι : Type) where
  tasks : Table TaskRow
  workers : ι → TaskWorker
  gates : String → Option ι
  steps : ℕ := 0
  claimedBy : String → Option ℕ

/-- A step of the system. -/
inductive TaskEvent (ι : Type)
  | poll (i : ι) (m : Moment)
  /-- The `n`-th running task of a worker takes its next step. -/
  | work (i : ι) (n : ℕ) (m : Moment) (summary : String) (linkedRunId : Option String)
  | heartbeat (i : ι) (n : ℕ) (m : Moment)
  /-- A worker dies wherever it is, and its transaction with it. -/
  | crash (i : ι)
  | enqueue (id task payload : String) (now : ℤ)

namespace TaskState

variable {ι : Type} [DecidableEq ι] (q : TaskQueue ι) (s : TaskState ι)

/-- The system after a step of a worker; `claiming` is the row that the step claims. -/
def settle (i : ι) (claiming : Option TaskRow) (turn : Turn ι) : TaskState ι where
  tasks := turn.tasks
  workers := Function.update s.workers i turn.worker
  gates := turn.gates
  steps := s.steps + 1
  claimedBy := stamp s.tasks turn.tasks (claiming.map fun _ => s.steps) s.claimedBy

/-- A step of a running task. -/
def work (i : ι) (n : ℕ) (m : Moment) (summary : String) (linkedRunId : Option String) : Turn ι :=
  let w := s.workers i
  match w.running[n]? with
  | none => ⟨w, s.tasks, s.gates⟩
  | some task =>
    let ran := q.runOne i m summary linkedRunId task s.tasks
    ⟨w.settle n task ran.1, ran.2, s.gates⟩

def next : TaskEvent ι → TaskState ι
  | .poll i m =>
    s.settle i (s.workers i).phase.claims (q.poll i m s.steps s.tasks s.gates (s.workers i))
  | .work i n m summary linkedRunId => s.settle i none (s.work q i n m summary linkedRunId)
  | .heartbeat i n m =>
    let beaten := (s.workers i).heartbeat n m s.tasks
    s.settle i none ⟨beaten.1, beaten.2, s.gates⟩
  | .crash i =>
    s.settle i none ⟨{}, s.tasks, fun task => if s.gates task = some i then none else s.gates task⟩
  | .enqueue id task payload now =>
    let tasks := (s.tasks.insert?
      { id, kind := task, payload, extra := {}, createdAt := now, updatedAt := now }).getD s.tasks
    { s with tasks, steps := s.steps + 1, claimedBy := stamp s.tasks tasks none s.claimedBy }

end TaskState

/-! ### What a step can do -/

/-- What a step of a worker can do to one row. -/
inductive TaskWrote (claiming : Option TaskRow) (running : List RunningTask) (r : TaskRow) :
    TaskRow → Prop
  | kept : TaskWrote claiming running r r
  | recovered {now} (h : r.status = .processing) : TaskWrote claiming running r (r.recovered now)
  | pushedBack {nextRetryAt now} : TaskWrote claiming running r (r.pushedBack nextRetryAt now)
  | claimed {row now} (hclaiming : claiming = some row)
      (hguard : guarded row.id row.version r = true) (hopen : r.isOpen = true) :
      TaskWrote claiming running r (r.claimed now)
  | guarded {task r'} (htask : task ∈ running)
      (hguard : Storage.guarded task.row.id (task.row.version + 1) r = true)
      (hlater : Later QueueRow.core r r') (hkind : r'.kind = r.kind) :
      TaskWrote claiming running r r'
  | linked {extra} : TaskWrote claiming running r { r with extra }

section Wrote

variable {claiming : Option TaskRow} {running : List RunningTask} {r r' : TaskRow}

theorem TaskWrote.later (h : TaskWrote claiming running r r') : Later QueueRow.core r r' := by
  cases h with
  | kept => exact Later.refl r
  | recovered => exact later_recovered
  | pushedBack => exact later_pushedBack
  | claimed => exact later_claimed
  | guarded _ _ hlater => exact hlater
  | linked => exact ⟨rfl, Or.inr ⟨rfl, rfl⟩⟩

theorem TaskWrote.kind (h : TaskWrote claiming running r r') : r'.kind = r.kind := by
  cases h with
  | guarded _ _ _ hkind => exact hkind
  | _ => rfl

variable {t : Table TaskRow}

/-- A statement that may be refused, or not. -/
theorem rewritten_issue {R : TaskRow → TaskRow → Prop} (hkept : ∀ r, R r r) (fault : Option Fault)
    {statement : Table TaskRow → ℕ × Table TaskRow} (h : t.Rewritten R (statement t).2) :
    t.Rewritten R (issue fault t statement).2 := by
  rcases issue_cases fault t statement with ⟨htable, -⟩ | ⟨htable, -⟩
  · rw [htable]
    exact Table.Rewritten.refl fun r _ => hkept r
  · rw [htable]
    exact h

/-- A statement guarded by the claim of a running task. -/
theorem rewritten_guarded {task : RunningTask} (htask : task ∈ running) (p : TaskRow → Bool)
    (f : TaskRow → TaskRow) (hf : KeyFree f)
    (hp : ∀ r, p r = true → guarded task.row.id (task.row.version + 1) r = true)
    (hlater : ∀ r, Later QueueRow.core r (f r)) (hkind : ∀ r, (f r).kind = r.kind) :
    t.Rewritten (TaskWrote claiming running) (executeAffected p f hf t).2 := by
  refine (rewritten_executeAffected p f hf t).imp fun r r' hr => ?_
  rcases hr with ⟨hmatch, rfl⟩ | rfl
  · exact .guarded htask (hp r hmatch) (hlater r) (hkind r)
  · exact .kept

end Wrote

variable {ι : Type} [DecidableEq ι] {q : TaskQueue ι} {s : TaskState ι} {i : ι}

/-- Everything one step of a worker can do. -/
structure Turns (q : TaskQueue ι) (s : TaskState ι) (i : ι) (claiming : Option TaskRow)
    (turn : Turn ι) : Prop where
  rewritten : s.tasks.Rewritten (TaskWrote claiming (s.workers i).running) turn.tasks
  /-- A claim is made behind the gate. -/
  claims : ∀ row, claiming = some row → ∃ n rest, (s.workers i).phase = .counted row n rest
  read : ∀ row ∈ turn.worker.phase.toClaim,
    row ∈ (s.workers i).phase.toClaim ∨ row ∈ s.tasks.rows
  limits : ∀ row limit n rest, turn.worker.phase = .claiming row limit n rest →
    (s.workers i).phase = .claiming row limit n rest ∨ q.limit row.kind = some limit
  /-- A gate of another worker stays closed. -/
  gates : ∀ task j, j ≠ i → s.gates task = some j →
    turn.gates task = some j ∨ ∃ row, claiming = some row ∧ row.kind = task
  counted : ∀ row n rest, turn.worker.phase = .counted row n rest →
    (claiming = none ∧ (s.workers i).phase = .counted row n rest ∧ turn.gates = s.gates) ∨
    turn.gates row.kind = some i ∧ turn.tasks = s.tasks ∧ ∃ limit n rest,
      (s.workers i).phase = .claiming row limit n rest ∧
        s.tasks.count (isProcessing row.kind) < limit
  running : ∀ task ∈ turn.worker.running,
    (∃ old ∈ (s.workers i).running, task.row = old.row ∧ task.claim = old.claim) ∨
    claiming = some task.row ∧ task.claim = s.steps ∧ ∃ now,
      (claimRow task.row now s.tasks).1 ≠ 0 ∧ turn.tasks = (claimRow task.row now s.tasks).2

omit [DecidableEq ι] in
/-- A step that reaches no gate. -/
theorem turns_of_phase {phase : PollPhase} {t : Table TaskRow}
    (hrewritten : s.tasks.Rewritten (TaskWrote none (s.workers i).running) t)
    (hread : ∀ row ∈ phase.toClaim, row ∈ (s.workers i).phase.toClaim ∨ row ∈ s.tasks.rows)
    (hlimits : ∀ row limit n rest, phase = .claiming row limit n rest →
      q.limit row.kind = some limit)
    (hcounted : ∀ row n rest, phase ≠ .counted row n rest) :
    Turns q s i none ⟨{ s.workers i with phase }, t, s.gates⟩ where
  rewritten := hrewritten
  claims row hrow := by cases hrow
  read := hread
  limits row limit n rest hphase := Or.inr (hlimits row limit n rest hphase)
  gates task j _ hgate := Or.inl hgate
  counted row n rest hphase := absurd hphase (hcounted row n rest)
  running task htask := Or.inl ⟨task, htask, rfl, rfl⟩

omit [DecidableEq ι] in
/-- A step of a running task, or of its heartbeat: the poll stays where it is. -/
theorem turns_of_running {w : TaskWorker} {t : Table TaskRow}
    (hrewritten : s.tasks.Rewritten (TaskWrote none (s.workers i).running) t)
    (hphase : w.phase = (s.workers i).phase)
    (hrunning : ∀ task ∈ w.running, ∃ old ∈ (s.workers i).running,
      task.row = old.row ∧ task.claim = old.claim) :
    Turns q s i none ⟨w, t, s.gates⟩ where
  rewritten := hrewritten
  claims row hrow := by cases hrow
  read row hrow := by
    rw [hphase] at hrow
    exact Or.inl hrow
  limits row limit n rest hclaiming := Or.inl (hphase ▸ hclaiming)
  gates task j _ hgate := Or.inl hgate
  counted row n rest hcounted := Or.inl ⟨rfl, hphase ▸ hcounted, rfl⟩
  running task htask := Or.inl (hrunning task htask)

omit [DecidableEq ι] in
/-- **What a step of a poll can do.** -/
theorem turns_poll (m : Moment) :
    Turns q s i (s.workers i).phase.claims
      (q.poll i m s.steps s.tasks s.gates (s.workers i)) := by
  have hkept : ∀ {claiming : Option TaskRow},
      s.tasks.Rewritten (TaskWrote claiming (s.workers i).running) s.tasks :=
    Table.Rewritten.refl fun _ _ => .kept
  rcases hphase : (s.workers i).phase with _ | _ | rows | ⟨row, limit, n, rest⟩ | ⟨row, n, rest⟩
  · -- the recovery of stale claims
    rw [TaskQueue.poll, hphase]
    refine turns_of_phase (rewritten_issue (fun r => .kept) m.fault ?_) ?_ ?_ ?_
    · refine (rewritten_executeAffected _ _ _ s.tasks).imp fun r r' hr => ?_
      rcases hr with ⟨hstale, rfl⟩ | rfl
      · rw [Bool.and_eq_true, beq_iff_eq] at hstale
        exact .recovered hstale.1
      · exact .kept
    all_goals (split <;> simp [PollPhase.toClaim])
  · -- the selection of due rows
    rw [TaskQueue.poll, hphase]
    refine turns_of_phase hkept ?_ ?_ ?_
    · split
      · simp [PollPhase.toClaim]
      · intro row hrow
        exact Or.inr (mem_selectDue hrow).1
    all_goals (split <;> simp)
  · rcases rows with _ | ⟨row, rest⟩
    · rw [TaskQueue.poll, hphase]
      exact turns_of_phase hkept (by simp [PollPhase.toClaim]) (by simp) (by simp)
    · simp only [TaskQueue.poll, hphase]
      rcases hlimit : q.limit row.kind with _ | limit
      · -- a task that is not registered
        refine turns_of_phase (rewritten_issue (fun r => .kept) m.fault ?_) ?_ ?_ ?_
        · refine (rewritten_executeAffected _ _ _ s.tasks).imp fun r r' hr => ?_
          rcases hr with ⟨-, rfl⟩ | rfl
          · exact .pushedBack
          · exact .kept
        · rw [hphase]
          split
          · intro r hr
            exact Or.inl (List.mem_cons_of_mem row hr)
          · simp [PollPhase.toClaim]
        all_goals (split <;> simp)
      · refine turns_of_phase hkept ?_ ?_ ?_
        · rw [hphase]
          split
          · intro r hr
            exact Or.inl (List.mem_cons_of_mem row hr)
          · intro r hr
            exact Or.inl hr
        · split
          · simp
          · rintro _ _ _ _ ⟨⟩
            exact hlimit
        · split <;> simp
  · -- at the gate
    simp only [TaskQueue.poll, hphase]
    split
    · exact turns_of_running hkept rfl fun task htask => ⟨task, htask, rfl, rfl⟩
    · split
      · exact turns_of_phase hkept (by simp [PollPhase.toClaim]) (by simp) (by simp)
      · split
        · refine turns_of_phase hkept ?_ (by simp) (by simp)
          rw [hphase]
          intro r hr
          exact Or.inl (List.mem_cons_of_mem row hr)
        · rename_i hfree _ hbelow
          have hfree' : s.gates row.kind = none := by simpa using hfree
          refine ⟨hkept, by simp [PollPhase.claims], ?_, by simp, ?_, ?_,
            fun task htask => Or.inl ⟨task, htask, rfl, rfl⟩⟩
          · rw [hphase]
            intro r hr
            exact Or.inl hr
          · intro task j _ hgate
            have hne : task ≠ row.kind := by
              rintro rfl
              rw [hfree'] at hgate
              cases hgate
            left
            show Function.update s.gates row.kind (some i) task = some j
            rw [Function.update_of_ne hne]
            exact hgate
          · rintro _ _ _ ⟨⟩
            right
            refine ⟨Function.update_self .., rfl, limit, n, rest, hphase, ?_⟩
            omega
  · -- the claim
    have hclaims : (PollPhase.counted row n rest).claims = some row := rfl
    rw [hclaims]
    simp only [TaskQueue.poll, hphase]
    have hrewritten : s.tasks.Rewritten (TaskWrote (some row) (s.workers i).running)
        (issue m.fault s.tasks (claimRow row m.now)).2 := by
      refine rewritten_issue (fun r => .kept) m.fault ?_
      refine (rewritten_executeAffected _ _ _ s.tasks).imp fun r r' hr => ?_
      rcases hr with ⟨hmatch, rfl⟩ | rfl
      · rw [Bool.and_eq_true] at hmatch
        exact .claimed rfl hmatch.1 hmatch.2
      · exact .kept
    have hgates : ∀ task j, j ≠ i → s.gates task = some j →
        Function.update s.gates row.kind none task = some j ∨
          ∃ claimed, some row = some claimed ∧ claimed.kind = task := by
      intro task j _ hgate
      by_cases hkind : task = row.kind
      · exact Or.inr ⟨row, rfl, hkind.symm⟩
      · left
        rw [Function.update_of_ne hkind]
        exact hgate
    have hcounted : ∀ claimed, some row = some claimed →
        ∃ n rest, (s.workers i).phase = .counted claimed n rest := by
      rintro _ ⟨⟩
      exact ⟨n, rest, hphase⟩
    have hrest : ∀ r ∈ rest, r ∈ (s.workers i).phase.toClaim ∨ r ∈ s.tasks.rows := by
      rw [hphase]
      intro r hr
      exact Or.inl (List.mem_cons_of_mem row hr)
    rcases hanswer : (issue m.fault s.tasks (claimRow row m.now)).1 with _ | _ | affected
    · exact ⟨hrewritten, hcounted, by simp [PollPhase.toClaim], by simp, hgates, by simp,
        fun task htask => Or.inl ⟨task, htask, rfl, rfl⟩⟩
    · exact ⟨hrewritten, hcounted, hrest, by simp, hgates, by simp,
        fun task htask => Or.inl ⟨task, htask, rfl, rfl⟩⟩
    · refine ⟨hrewritten, hcounted, hrest, by simp, hgates, by simp, fun task htask => ?_⟩
      rcases List.mem_append.mp htask with hold | hnew
      · exact Or.inl ⟨task, hold, rfl, rfl⟩
      · obtain rfl := List.mem_singleton.mp hnew
        refine Or.inr ⟨rfl, rfl, m.now, ?_⟩
        rcases issue_cases m.fault s.tasks (claimRow row m.now) with ⟨-, hnone⟩ | ⟨htable, hcount⟩
        · rw [hnone] at hanswer
          cases hanswer
        · have hmatched := hcount _ hanswer
          refine ⟨?_, htable⟩
          show (claimRow row m.now s.tasks).1 ≠ 0
          omega

omit [DecidableEq ι] in
/-- Every statement of a running task is guarded by its claim, but for the back-reference. -/
theorem rewritten_runOne (m : Moment) (summary : String) (linkedRunId : Option String)
    {task : RunningTask} (htask : task ∈ (s.workers i).running) :
    s.tasks.Rewritten (TaskWrote none (s.workers i).running)
      (q.runOne i m summary linkedRunId task s.tasks).2 := by
  have hkept : s.tasks.Rewritten (TaskWrote none (s.workers i).running) s.tasks :=
    Table.Rewritten.refl fun _ _ => .kept
  rw [TaskQueue.runOne]
  rcases task.stage with _ | _ | retryAt | rejected | rejected
  · exact hkept
  · show s.tasks.Rewritten _ (ite _ _ _ : RunStage × Table TaskRow).2
    split
    · exact hkept
    · exact rewritten_issue (fun r => .kept) m.fault
        (rewritten_guarded htask _ _ _ (fun _ h => h) (fun _ => later_finished) fun _ => rfl)
  · show s.tasks.Rewritten _ (ite _ _ _ : RunStage × Table TaskRow).2
    split
    · exact hkept
    · exact rewritten_issue (fun r => .kept) m.fault
        (rewritten_guarded htask _ _ _ (fun _ h => h) (fun _ => later_retried) fun _ => rfl)
  · refine rewritten_issue (fun r => .kept) m.fault ?_
    refine (rewritten_executeAffected _ _ _ s.tasks).imp fun r r' hr => ?_
    rcases hr with ⟨-, rfl⟩ | rfl
    · exact .linked
    · exact .kept
  · exact hkept

/-- A task that moves on, or ends, leaves the worker with tasks it was running. -/
theorem mem_settle {w : TaskWorker} {n : ℕ} {task task' : RunningTask} {stage : RunStage}
    (hn : w.running[n]? = some task) (h : task' ∈ (w.settle n task stage).running) :
    ∃ old ∈ w.running, task'.row = old.row ∧ task'.claim = old.claim := by
  have hset : task' ∈ w.running.set n { task with stage } →
      ∃ old ∈ w.running, task'.row = old.row ∧ task'.claim = old.claim := by
    intro hmem
    rcases List.mem_or_eq_of_mem_set hmem with hold | rfl
    · exact ⟨task', hold, rfl, rfl⟩
    · exact ⟨task, List.mem_of_getElem? hn, rfl, rfl⟩
  cases stage with
  | ended rejected => exact ⟨task', List.mem_of_mem_eraseIdx h, rfl, rfl⟩
  | _ => exact hset h

theorem phase_settle (w : TaskWorker) (n : ℕ) (task : RunningTask) (stage : RunStage) :
    (w.settle n task stage).phase = w.phase := by
  cases stage <;> rfl

omit [DecidableEq ι] in
theorem turns_work (n : ℕ) (m : Moment) (summary : String) (linkedRunId : Option String) :
    Turns q s i none (s.work q i n m summary linkedRunId) := by
  rw [TaskState.work]
  rcases hn : (s.workers i).running[n]? with _ | task
  · exact turns_of_running (Table.Rewritten.refl fun _ _ => .kept) rfl
      fun task htask => ⟨task, htask, rfl, rfl⟩
  · exact turns_of_running (rewritten_runOne m summary linkedRunId (List.mem_of_getElem? hn))
      (phase_settle ..) fun task' htask => mem_settle hn htask

omit [DecidableEq ι] in
theorem turns_heartbeat (n : ℕ) (m : Moment) :
    Turns q s i none ⟨((s.workers i).heartbeat n m s.tasks).1,
      ((s.workers i).heartbeat n m s.tasks).2, s.gates⟩ := by
  have hquiet : Turns q s i none ⟨s.workers i, s.tasks, s.gates⟩ :=
    turns_of_running (Table.Rewritten.refl fun _ _ => .kept) rfl
      fun task htask => ⟨task, htask, rfl, rfl⟩
  rw [TaskWorker.heartbeat]
  rcases hn : (s.workers i).running[n]? with _ | task
  · exact hquiet
  · have htask := List.mem_of_getElem? hn
    by_cases hlost : task.lost = true
    · simp only [hlost, ↓reduceIte]
      exact hquiet
    · simp only [hlost, Bool.false_eq_true, ↓reduceIte]
      refine turns_of_running (rewritten_issue (fun r => .kept) m.fault ?_) rfl ?_
      · refine rewritten_guarded htask _ _ _ (fun r hr => ?_) (fun _ => later_renewed) fun _ => rfl
        rw [Bool.and_eq_true] at hr
        exact hr.1
      · intro task' htask'
        rcases List.mem_or_eq_of_mem_set htask' with hold | rfl
        · exact ⟨task', hold, rfl, rfl⟩
        · exact ⟨task, htask, rfl, rfl⟩

theorem turns_crash :
    Turns q s i none ⟨{}, s.tasks, fun task => if s.gates task = some i then none else s.gates task⟩
    where
  rewritten := Table.Rewritten.refl fun _ _ => .kept
  claims row hrow := by cases hrow
  read row hrow := by cases hrow
  limits row limit n rest hphase := by cases hphase
  gates task j hj hgate := by
    left
    have hother : s.gates task ≠ some i := by
      rw [hgate]
      exact fun h => hj (Option.some.inj h)
    show (if s.gates task = some i then none else s.gates task) = some j
    rw [if_neg hother]
    exact hgate
  counted row n rest hphase := by cases hphase
  running task htask := by cases htask

/-! ### The invariant -/

/-- No task is over its limit; the workers know the rows they have read and hold the claims they work
under; and a worker behind a gate has room for one row more. -/
structure TaskState.Safe (q : TaskQueue ι) (s : TaskState ι) : Prop where
  limited : ∀ task limit, q.limit task = some limit → s.tasks.count (isProcessing task) ≤ limit
  read : ∀ i, ∀ row ∈ (s.workers i).phase.toClaim, Snapshot QueueRow.core s.tasks row
  limits : ∀ i row limit n rest, (s.workers i).phase = .claiming row limit n rest →
    q.limit row.kind = some limit
  counted : ∀ i row n rest, (s.workers i).phase = .counted row n rest →
    s.gates row.kind = some i ∧ ∃ limit, q.limit row.kind = some limit ∧
      s.tasks.count (isProcessing row.kind) < limit
  running : ∀ i, ∀ task ∈ (s.workers i).running,
    Held QueueRow.core s.tasks s.claimedBy task.row.claim (some task.claim)

namespace TaskState

@[simp] theorem workers_settle_self (claiming : Option TaskRow) (turn : Turn ι) :
    (s.settle i claiming turn).workers i = turn.worker := by
  show Function.update s.workers i turn.worker i = turn.worker
  rw [Function.update_self]

theorem workers_settle_of_ne {j : ι} {claiming : Option TaskRow} {turn : Turn ι} (h : j ≠ i) :
    (s.settle i claiming turn).workers j = s.workers j := by
  show Function.update s.workers i turn.worker j = s.workers j
  rw [Function.update_of_ne h]

omit [DecidableEq ι] in
/-- A row at the version of a claim is as the claim has left it, and its holder's. -/
theorem Safe.of_guarded (h : s.Safe q) {task : RunningTask} (htask : task ∈ (s.workers i).running)
    {r : TaskRow} (hr : r ∈ s.tasks.rows)
    (hguard : guarded task.row.id (task.row.version + 1) r = true) :
    r.status = .processing ∧ s.claimedBy task.row.id = some task.claim := by
  have hheld := h.running i task htask
  obtain ⟨hid, hversion⟩ := guarded_iff.mp hguard
  have hcore : r.core = task.row.claim.core := hheld.seen.core_eq hr hid hversion
  exact ⟨congrArg QueueRow.status hcore, hheld.stamped r hr hguard⟩

variable {claiming : Option TaskRow} {turn : Turn ι}

omit [DecidableEq ι] in
/-- A step adds no `processing` row, but for the one it claims. -/
theorem Safe.isProcessing (h : s.Safe q) (hturn : Turns q s i claiming turn) {r r' : TaskRow}
    (hr : r ∈ s.tasks.rows) (hwrote : TaskWrote claiming (s.workers i).running r r') {task : String}
    (hafter : MiniCoder.isProcessing task r' = true) :
    MiniCoder.isProcessing task r = true ∨ ∃ row, claiming = some row ∧ row.kind = task ∧
      guarded row.id row.version r = true := by
  rw [MiniCoder.isProcessing, Bool.and_eq_true, beq_iff_eq, beq_iff_eq, hwrote.kind] at hafter
  rw [MiniCoder.isProcessing, Bool.and_eq_true, beq_iff_eq, beq_iff_eq]
  obtain ⟨hstatus, hkind⟩ := hafter
  cases hwrote with
  | kept => exact Or.inl ⟨hstatus, hkind⟩
  | recovered => cases hstatus
  | pushedBack => exact Or.inl ⟨hstatus, hkind⟩
  | @claimed row _ hclaiming hguard =>
    obtain ⟨n, rest, hphase⟩ := hturn.claims row hclaiming
    have hin : row ∈ (s.workers i).phase.toClaim := by
      rw [hphase]
      exact List.mem_cons_self
    obtain ⟨hid, hversion⟩ := guarded_iff.mp hguard
    have hcore : r.core = row.core := (h.read i row hin).core_eq hr hid hversion
    have hsame : r.kind = row.kind := congrArg (fun core : QueueRow Unit => core.kind) hcore
    exact Or.inr ⟨row, hclaiming, hsame.symm.trans hkind, hguard⟩
  | guarded htask hguard => exact Or.inl ⟨(h.of_guarded htask hr hguard).1, hkind⟩
  | linked => exact Or.inl ⟨hstatus, hkind⟩

omit [DecidableEq ι] in
/-- **The count of a task after a step**: no higher, or one higher for the claim of the worker that
holds its gate. -/
theorem Safe.count_le (h : s.Safe q) (hturn : Turns q s i claiming turn) (task : String) :
    turn.tasks.count (MiniCoder.isProcessing task) ≤
        s.tasks.count (MiniCoder.isProcessing task) ∨
      (∃ row, claiming = some row ∧ row.kind = task) ∧
        turn.tasks.count (MiniCoder.isProcessing task) ≤
          s.tasks.count (MiniCoder.isProcessing task) + 1 := by
  have hrewritten := hturn.rewritten.imp_of_mem (S := fun r r' =>
    MiniCoder.isProcessing task r' = true → MiniCoder.isProcessing task r = true ∨
      ∃ row, claiming = some row ∧ row.kind = task ∧ guarded row.id row.version r = true)
    fun r hr r' hwrote hafter => h.isProcessing hturn hr hwrote hafter
  by_cases hclaim : ∃ row, claiming = some row ∧ row.kind = task
  · right
    refine ⟨hclaim, ?_⟩
    obtain ⟨row, hrow, -⟩ := hclaim
    have hadd := hrewritten.count_le_add (p := guarded row.id row.version)
      (q := MiniCoder.isProcessing task) fun r r' hR hafter => by
        rcases hR hafter with hbefore | ⟨_, hclaimed, -, hguard⟩
        · exact Or.inl hbefore
        · obtain rfl := Option.some.inj (hrow.symm.trans hclaimed)
          exact Or.inr hguard
    have hone : s.tasks.count (guarded row.id row.version) ≤ 1 := by
      refine s.tasks.count_le_one fun r r' hr hr' => Versioned.clash_of_key r r' ?_
      exact (guarded_iff.mp hr).1.trans (guarded_iff.mp hr').1.symm
    omega
  · left
    have hadd := hrewritten.count_le_add (p := fun _ => false)
      (q := MiniCoder.isProcessing task) fun r r' hR hafter => by
        rcases hR hafter with hbefore | ⟨row, hrow, hkind, -⟩
        · exact Or.inl hbefore
        · exact absurd ⟨row, hrow, hkind⟩ hclaim
    have hnone : s.tasks.count (fun _ => false) = 0 := Table.count_eq_zero.mpr fun _ _ => rfl
    omega

/-- **One step of a worker keeps the invariant.** -/
theorem safe_settle (h : s.Safe q) (hturn : Turns q s i claiming turn) :
    (s.settle i claiming turn).Safe q := by
  have hadvances : Advances QueueRow.core s.tasks turn.tasks := by
    intro r hr
    obtain ⟨r', hr', hwrote⟩ := hturn.rewritten.exists_of_mem hr
    exact ⟨r', hr', hwrote.later⟩
  constructor
  · intro task limit hlimit
    show turn.tasks.count _ ≤ limit
    rcases h.count_le hturn task with hle | ⟨⟨row, hrow, hkind⟩, hle⟩
    · have hbefore := h.limited task limit hlimit
      omega
    · -- the claim: its worker has found the task below the limit
      obtain ⟨n, rest, hphase⟩ := hturn.claims row hrow
      obtain ⟨-, limit', hlimit', hbelow⟩ := h.counted i row n rest hphase
      rw [hkind] at hlimit' hbelow
      obtain rfl := Option.some.inj (hlimit.symm.trans hlimit')
      omega
  · intro j row hrow
    by_cases hj : j = i
    · subst hj
      rw [workers_settle_self] at hrow
      rcases hturn.read row hrow with hold | hmem
      · exact (h.read j row hold).advance hadvances
      · exact (Snapshot.of_mem hmem).advance hadvances
    · rw [workers_settle_of_ne hj] at hrow
      exact (h.read j row hrow).advance hadvances
  · intro j row limit n rest hphase
    by_cases hj : j = i
    · subst hj
      rw [workers_settle_self] at hphase
      rcases hturn.limits row limit n rest hphase with hold | hlimit
      · exact h.limits j row limit n rest hold
      · exact hlimit
    · rw [workers_settle_of_ne hj] at hphase
      exact h.limits j row limit n rest hphase
  · intro j row n rest hphase
    show turn.gates row.kind = some j ∧ ∃ limit, q.limit row.kind = some limit ∧
      turn.tasks.count (MiniCoder.isProcessing row.kind) < limit
    by_cases hj : j = i
    · subst hj
      rw [workers_settle_self] at hphase
      rcases hturn.counted row n rest hphase with ⟨hnone, hold, hgates⟩ |
        ⟨hgate, htasks, limit, n', rest', hclaiming, hbelow⟩
      · obtain ⟨hgate, limit, hlimit, hbelow⟩ := h.counted j row n rest hold
        refine ⟨hgates ▸ hgate, limit, hlimit, ?_⟩
        rcases h.count_le hturn row.kind with hle | ⟨⟨claimed, hclaimed, -⟩, -⟩
        · omega
        · rw [hnone] at hclaimed
          cases hclaimed
      · refine ⟨hgate, limit, h.limits j row limit n' rest' hclaiming, ?_⟩
        rw [htasks]
        exact hbelow
    · rw [workers_settle_of_ne hj] at hphase
      obtain ⟨hgate, limit, hlimit, hbelow⟩ := h.counted j row n rest hphase
      -- the worker that claims holds another gate
      have hother : ¬ ∃ claimed, claiming = some claimed ∧ claimed.kind = row.kind := by
        rintro ⟨claimed, hclaimed, hkind⟩
        obtain ⟨n', rest', hphase'⟩ := hturn.claims claimed hclaimed
        have hgate' := (h.counted i claimed n' rest' hphase').1
        rw [hkind, hgate] at hgate'
        exact hj (Option.some.inj hgate')
      refine ⟨(hturn.gates row.kind j hj hgate).resolve_right hother, limit, hlimit, ?_⟩
      have hle := (h.count_le hturn row.kind).resolve_right fun hclaim => hother hclaim.1
      omega
  · intro j task htask
    by_cases hj : j = i
    · subst hj
      rw [workers_settle_self] at htask
      rcases hturn.running task htask with ⟨old, hold, hrow, hclaim⟩ |
        ⟨hclaiming, hclaim, now, hmatched, htasks⟩
      · rw [hrow, hclaim]
        exact (h.running j old hold).advance hadvances
      · obtain ⟨n, rest, hphase⟩ := hturn.claims task.row hclaiming
        have hin : task.row ∈ (s.workers j).phase.toClaim := by
          rw [hphase]
          exact List.mem_cons_self
        rw [settle, hclaiming, htasks, hclaim]
        exact held_claimRow (h.read j task.row hin) hmatched
    · rw [workers_settle_of_ne hj] at htask
      exact (h.running j task htask).advance hadvances

end TaskState

namespace TaskState

section Enqueue

variable (q) (s) (id task payload : String) (now : ℤ)

/-- A new row is pending; the others stay. -/
theorem rows_enqueue : ∃ added : List TaskRow,
    (s.next q (.enqueue id task payload now)).tasks.rows = s.tasks.rows ++ added ∧
      ∀ r ∈ added, r.status = .pending := by
  show ∃ added, ((s.tasks.insert? _).getD s.tasks).rows = s.tasks.rows ++ added ∧ _
  rcases hinsert : s.tasks.insert?
      { id, kind := task, payload, extra := {}, createdAt := now, updatedAt := now } with _ | t
  · exact ⟨[], (List.append_nil _).symm, fun r hr => by cases hr⟩
  · refine ⟨_, Table.rows_insert? hinsert, fun r hr => ?_⟩
    obtain rfl := List.mem_singleton.mp hr
    rfl

theorem count_enqueue (task' : String) :
    (s.next q (.enqueue id task payload now)).tasks.count (isProcessing task') =
      s.tasks.count (isProcessing task') := by
  obtain ⟨added, hrows, hpending⟩ := rows_enqueue q s id task payload now
  have hnone : added.countP (isProcessing task') = 0 := by
    refine List.countP_eq_zero.mpr fun r hr => ?_
    rw [isProcessing, hpending r hr]
    simp
  rw [Table.count, hrows, List.countP_append, hnone]
  rfl

end Enqueue

/-- **Every step keeps the invariant.** -/
theorem safe_next (h : s.Safe q) (e : TaskEvent ι) : (s.next q e).Safe q := by
  cases e with
  | poll i m => exact safe_settle h (turns_poll m)
  | work i n m summary linkedRunId => exact safe_settle h (turns_work n m summary linkedRunId)
  | heartbeat i n m => exact safe_settle h (turns_heartbeat n m)
  | crash i => exact safe_settle h turns_crash
  | enqueue id task payload now =>
    have hcount := count_enqueue q s id task payload now
    have hadvances : Advances QueueRow.core s.tasks
        (s.next q (.enqueue id task payload now)).tasks := by
      intro r hr
      obtain ⟨added, hrows, -⟩ := rows_enqueue q s id task payload now
      refine Snapshot.of_mem ?_
      rw [hrows]
      exact List.mem_append_left added hr
    refine ⟨fun task' limit hlimit => ?_, fun i row hrow => (h.read i row hrow).advance hadvances,
      h.limits, fun i row n rest hphase => ?_,
      fun i task' htask => (h.running i task' htask).advance hadvances⟩
    · rw [hcount]
      exact h.limited task' limit hlimit
    · rw [hcount]
      exact h.counted i row n rest hphase

/-! ### What a run keeps -/

/-- What every step of a sound run does. -/
structure StepSound (q : TaskQueue ι) (s : TaskState ι) (e : TaskEvent ι) : Prop where
  /-- A mark takes effect only when its claim set the version of the row. -/
  fenced : ∀ i n m summary linkedRunId task, e = .work i n m summary linkedRunId →
    (s.workers i).running[n]? = some task → task.stage.marks = true →
    (s.next q e).tasks ≠ s.tasks → s.claimedBy task.row.id = some task.claim
  /-- A succeeded row stays one. -/
  terminal : ∀ r ∈ s.tasks.rows, r.status = .done →
    ∃ r' ∈ (s.next q e).tasks.rows, r'.id = r.id ∧ r'.status = .done

/-- No task has more `processing` rows than its limit. -/
def Limited (q : TaskQueue ι) (s : TaskState ι) : Prop :=
  ∀ task limit, q.limit task = some limit → s.tasks.count (isProcessing task) ≤ limit

omit [DecidableEq ι] in
/-- **A mark is fenced by its claim.** -/
theorem Safe.mark_fenced (h : s.Safe q) {n : ℕ} {m : Moment} {summary : String}
    {linkedRunId : Option String} {task : RunningTask}
    (hn : (s.workers i).running[n]? = some task) (hmarks : task.stage.marks = true)
    (hlost : s.claimedBy task.row.id ≠ some task.claim) :
    (s.work q i n m summary linkedRunId).tasks = s.tasks := by
  have hheld := h.running i task (List.mem_of_getElem? hn)
  have hmiss : ∀ (f : TaskRow → TaskRow) (hf : KeyFree f),
      (issue m.fault s.tasks
        (executeAffected (guarded task.row.id (task.row.version + 1)) f hf)).2 = s.tasks := by
    intro f hf
    have hsame : (executeAffected (guarded task.row.id (task.row.version + 1)) f hf s.tasks).2 =
        s.tasks := hheld.guarded_eq hlost hf
    rcases issue_cases m.fault s.tasks
        (executeAffected (guarded task.row.id (task.row.version + 1)) f hf) with
      ⟨htable, -⟩ | ⟨htable, -⟩
    · exact htable
    · exact htable.trans hsame
  rw [work, hn]
  show (q.runOne i m summary linkedRunId task s.tasks).2 = s.tasks
  rw [TaskQueue.runOne]
  rcases hstage : task.stage with _ | _ | retryAt | rejected | rejected
  · rfl
  · show (ite _ _ _ : RunStage × Table TaskRow).2 = s.tasks
    split
    · rfl
    · exact hmiss _ _
  · show (ite _ _ _ : RunStage × Table TaskRow).2 = s.tasks
    split
    · rfl
    · exact hmiss _ _
  · rw [hstage] at hmarks
    cases hmarks
  · rfl

omit [DecidableEq ι] in
/-- A succeeded row is neither stale nor open, and no claim has left it so. -/
theorem Safe.terminal (h : s.Safe q) {claiming : Option TaskRow} {turn : Turn ι}
    (hturn : Turns q s i claiming turn) {r : TaskRow} (hr : r ∈ s.tasks.rows)
    (hdone : r.status = .done) : ∃ r' ∈ turn.tasks.rows, r'.id = r.id ∧ r'.status = .done := by
  obtain ⟨r', hr', hwrote⟩ := hturn.rewritten.exists_of_mem hr
  refine ⟨r', hr', hwrote.later.1, ?_⟩
  cases hwrote with
  | kept => exact hdone
  | recovered hstale =>
    rw [hdone] at hstale
    cases hstale
  | pushedBack => exact hdone
  | claimed _ _ hopen =>
    rw [QueueRow.isOpen, hdone] at hopen
    cases hopen
  | guarded htask hguard =>
    have hprocessing := (h.of_guarded htask hr hguard).1
    rw [hdone] at hprocessing
    cases hprocessing
  | linked => exact hdone

theorem Safe.stepSound (h : s.Safe q) (e : TaskEvent ι) : s.StepSound q e where
  fenced i n m summary linkedRunId task he hn hmarks hchanged := by
    subst he
    by_contra hlost
    exact hchanged (h.mark_fenced hn hmarks hlost)
  terminal r hr hdone := by
    cases e with
    | poll i m => exact h.terminal (turns_poll m) hr hdone
    | work i n m summary linkedRunId =>
      exact h.terminal (turns_work n m summary linkedRunId) hr hdone
    | heartbeat i n m => exact h.terminal (turns_heartbeat n m) hr hdone
    | crash i => exact h.terminal (i := i) turns_crash hr hdone
    | enqueue id task payload now =>
      obtain ⟨added, hrows, -⟩ := rows_enqueue q s id task payload now
      refine ⟨r, ?_, rfl, hdone⟩
      rw [hrows]
      exact List.mem_append_left added hr

end TaskState

omit [DecidableEq ι] in
/-- Workers that do nothing hold no claim and no gate. -/
theorem TaskState.safe_of_idle (hidle : ∀ i, s.workers i = {}) (hlimited : s.Limited q) :
    s.Safe q := by
  refine ⟨hlimited, fun i row hrow => ?_, fun i row limit n rest hphase => ?_,
    fun i row n rest hphase => ?_, fun i task htask => ?_⟩
  · rw [hidle i] at hrow
    cases hrow
  · rw [hidle i] at hphase
    cases hphase
  · rw [hidle i] at hphase
    cases hphase
  · rw [hidle i] at htask
    cases htask

/-- **The task queue over any number of workers.**  From workers that do nothing, over every run: the
limits hold, every mark is fenced by its claim, and succeeded rows are final. -/
theorem task_queue {es : List (TaskEvent ι)} (hidle : ∀ i, s.workers i = {})
    (hlimited : s.Limited q) :
    Throughout (TaskState.next q) (TaskState.Limited q) s es ∧
      Along (TaskState.next q) (TaskState.StepSound q) s es := by
  have hsafe : s.Safe q := TaskState.safe_of_idle hidle hlimited
  have hstep : ∀ (s : TaskState ι) (e : TaskEvent ι), s.Safe q → True → (s.next q e).Safe q :=
    fun s e hs _ => TaskState.safe_next hs e
  have hany : Along (TaskState.next q) (fun _ _ => True) s es :=
    along_of_forall (fun _ _ => trivial) s es
  exact ⟨(throughout_of_step hstep hsafe hany).imp fun s hs => hs.limited,
    (along_and_of_step hstep hsafe hany).imp fun s e hs => hs.1.stepSound e⟩

/-! ### Two workers at one gate -/

/-- One task, with room for one row. -/
def sampleTasks : TaskQueue Bool where
  limit task := if task = "run-coder" then some 1 else none
  parses _ := true
  options _ := { maxAttempts := 3, maxBackoffMs := 30000 }

def sampleWorkers : TaskState Bool where
  tasks := .empty
  workers _ := {}
  gates _ := none
  claimedBy _ := none

/-- Both workers select both rows; the second waits at the gate until the first has claimed, and
finds no room. -/
def gateRace : List (TaskEvent Bool) :=
  let first : TaskEvent Bool := .poll false { polled := 1000, now := 1000 }
  let second : TaskEvent Bool := .poll true { polled := 1000, now := 1000 }
  [.enqueue "t1" "run-coder" "\x7b\x7d" 0, .enqueue "t2" "run-coder" "\x7b\x7d" 0,
    first, second, first, second, first, second, first, second, first, second, second, second]

/-- The claim goes stale and the second worker recovers it; then the first worker marks its row. -/
def staleMark : List (TaskEvent Bool) :=
  List.replicate 6 (.poll true { polled := 400000, now := 400000 }) ++
    List.replicate 2 (.work false 0 { polled := 400001, now := 400001 } "" none)

theorem task_queue_gateRace :
    (Throughout (TaskState.next sampleTasks) (TaskState.Limited sampleTasks) sampleWorkers
        (gateRace ++ staleMark) ∧
      Along (TaskState.next sampleTasks) (TaskState.StepSound sampleTasks) sampleWorkers
        (gateRace ++ staleMark)) ∧
      (run (TaskState.next sampleTasks) sampleWorkers gateRace).tasks.rows.map (·.status) =
        [.processing, .pending] ∧
      (run (TaskState.next sampleTasks) sampleWorkers (gateRace ++ staleMark)).tasks.rows.map
        (·.status) = [.processing, .pending] := by
  refine ⟨task_queue (fun _ => rfl) fun task limit _ => ?_, ?_, ?_⟩
  · exact Nat.zero_le limit
  · decide +kernel
  · decide +kernel

end MiniCoder
