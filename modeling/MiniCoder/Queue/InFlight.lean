import Mathlib.Data.List.Perm.Basic
import MiniCoder.Queue.Tasks

/-!
# The in-flight counters of a worker

`pollAndDispatch` reads the counter of a task before it awaits the claim, and writes it back, one
higher, after; the end of an execution lowers it in between, and not at all when `runOne` rejects.

* `poll_cases`, `work_cases`: what a step does to the counters and to the executions of a worker.
* `accounted_next_iff`: **one step** keeps the counters exact if and only if it is `InFlightKept`.
* `accounted_iff`: **over a run**, the counters are exact throughout if and only if every step is.
-/

open Storage Runs

namespace MiniCoder

/-- The executions of a task that a worker has claimed and not yet finished. -/
def TaskWorker.executions (w : TaskWorker) (task : String) : ℕ :=
  w.running.countP fun running => running.row.kind == task

/-- The counter of every task is the number of its executions. -/
def TaskWorker.Accounted (w : TaskWorker) : Prop :=
  ∀ task, (w.inFlight task).getD 0 = w.executions task

/-- The claim is answered, and has matched its row. -/
def claimAnswered (m : Moment) (row : TaskRow) (t : Table TaskRow) : Prop :=
  m.fault = none ∧ t.count (fun r => guarded row.id row.version r && r.isOpen) ≠ 0

/-- The mark of a failure has thrown, and `runOne` is about to. -/
def RunStage.rejects : RunStage → Bool
  | linking rejected | ended rejected => rejected
  | _ => false

namespace TaskState

variable {ι : Type} [DecidableEq ι]

/-- In every worker, the counters are exact. -/
def Accounted (s : TaskState ι) : Prop := ∀ i, (s.workers i).Accounted

/-- What a step must not do: claim a row over a counter that has moved since it was read, or end an
execution that rejects. -/
def InFlightKept (s : TaskState ι) : TaskEvent ι → Prop
  | .poll i m => ∀ row inFlightCount rest,
    (s.workers i).phase = .counted row inFlightCount rest → claimAnswered m row s.tasks →
      inFlightCount = ((s.workers i).inFlight row.kind).getD 0
  | .work i n _ _ _ => ∀ task, (s.workers i).running[n]? = some task →
    task.stage.rejects = false
  | _ => True

variable {q : TaskQueue ι} {s : TaskState ι} {i : ι}

omit [DecidableEq ι] in
/-- What a step of a poll does to the counters: nothing, but for a claim that is answered. -/
theorem poll_cases (m : Moment) (claim : ℕ) (t : Table TaskRow) (gates : String → Option ι)
    (w : TaskWorker) :
    ((q.poll i m claim t gates w).worker.running = w.running ∧
      (q.poll i m claim t gates w).worker.inFlight = w.inFlight ∧
      ∀ row n rest, w.phase = .counted row n rest → ¬ claimAnswered m row t) ∨
    ∃ row n rest, w.phase = .counted row n rest ∧ claimAnswered m row t ∧
      (q.poll i m claim t gates w).worker.running = w.running ++ [({ claim, row } : RunningTask)] ∧
      (q.poll i m claim t gates w).worker.inFlight =
        Function.update w.inFlight row.kind (some (n + 1)) := by
  rcases hphase : w.phase with _ | _ | rows | ⟨row, limit, n, rest⟩ | ⟨row, n, rest⟩
  · left
    simp [TaskQueue.poll, hphase]
  · left
    simp [TaskQueue.poll, hphase]
  · left
    rcases rows with _ | ⟨row, rest⟩
    · simp [TaskQueue.poll, hphase]
    · rcases hlimit : q.limit row.kind with _ | limit
      · simp [TaskQueue.poll, hphase, hlimit]
      · simp [TaskQueue.poll, hphase, hlimit]
  · left
    simp only [TaskQueue.poll, hphase]
    refine ⟨?_, ?_, by simp⟩
    all_goals
      split
      · rfl
      · split
        · rfl
        · split <;> rfl
  · by_cases hanswered : claimAnswered m row t
    · right
      refine ⟨row, n, rest, rfl, hanswered, ?_⟩
      obtain ⟨hfault, hmatched⟩ := hanswered
      obtain ⟨affected, haffected⟩ := Nat.exists_eq_succ_of_ne_zero hmatched
      have hanswer : (issue m.fault t (claimRow row m.now)).1 = some (affected + 1) := by
        rw [hfault]
        exact congrArg some haffected
      simp [TaskQueue.poll, hphase, hanswer]
    · left
      have hunanswered : (issue m.fault t (claimRow row m.now)).1 = none ∨
          (issue m.fault t (claimRow row m.now)).1 = some 0 := by
        rcases hfault : m.fault with _ | fault
        · right
          by_contra hsome
          exact hanswered ⟨hfault, fun hzero => hsome (congrArg some hzero)⟩
        · left
          cases fault <;> rfl
      refine ⟨?_, ?_, ?_⟩
      · rcases hunanswered with hnone | hzero
        · simp [TaskQueue.poll, hphase, hnone]
        · simp [TaskQueue.poll, hphase, hzero]
      · rcases hunanswered with hnone | hzero
        · simp [TaskQueue.poll, hphase, hnone]
        · simp [TaskQueue.poll, hphase, hzero]
      · rintro _ _ _ ⟨⟩
        exact hanswered

/-- The counters after a claim. -/
theorem accounted_claim_iff {w w' : TaskWorker} {row : TaskRow} {claim : ℕ} {n : ℤ}
    (h : w.Accounted) (hrunning : w'.running = w.running ++ [({ claim, row } : RunningTask)])
    (hinFlight : w'.inFlight = Function.update w.inFlight row.kind (some (n + 1))) :
    w'.Accounted ↔ n = (w.inFlight row.kind).getD 0 := by
  have hexecutions : ∀ task, w'.executions task =
      w.executions task + if row.kind = task then 1 else 0 := by
    intro task
    rw [TaskWorker.executions, hrunning, List.countP_append, List.countP_singleton]
    simp [TaskWorker.executions]
  constructor
  · intro hafter
    have htask := hafter row.kind
    rw [hinFlight, Function.update_self, Option.getD_some, hexecutions, if_pos rfl] at htask
    rw [h row.kind]
    push_cast at htask
    omega
  · intro hn task
    rw [hinFlight, hexecutions]
    by_cases hkind : row.kind = task
    · subst hkind
      rw [Function.update_self, Option.getD_some, if_pos rfl, hn, h row.kind]
      rfl
    · rw [Function.update_of_ne (Ne.symm hkind), if_neg hkind]
      exact h task

/-- The executions after the end of one. -/
theorem executions_eraseIdx {w w' : TaskWorker} {n : ℕ} {ended : RunningTask}
    (hn : w.running[n]? = some ended) (hrunning : w'.running = w.running.eraseIdx n)
    (task : String) : w.executions task =
      w'.executions task + if ended.row.kind = task then 1 else 0 := by
  obtain ⟨hlt, hget⟩ := List.getElem?_eq_some_iff.mp hn
  have hperm := (List.getElem_cons_eraseIdx_perm hlt).countP_eq
    fun running : RunningTask => running.row.kind == task
  rw [List.countP_cons, hget, ← hrunning] at hperm
  rw [TaskWorker.executions, ← hperm]
  simp [TaskWorker.executions]

/-- The executions after a change to one that keeps its row. -/
theorem executions_set {w : TaskWorker} {n : ℕ} {task : RunningTask} (task' : RunningTask)
    (hn : w.running[n]? = some task) (hrow : task'.row = task.row) (kind : String) :
    TaskWorker.executions { w with running := w.running.set n task' } kind =
      w.executions kind := by
  have hmap : (w.running.set n task').map (·.row.kind) = w.running.map (·.row.kind) := by
    refine List.ext_getElem? fun k => ?_
    rw [List.getElem?_map, List.getElem?_map, List.getElem?_set]
    by_cases hk : n = k
    · subst hk
      obtain ⟨hlt, -⟩ := List.getElem?_eq_some_iff.mp hn
      rw [if_pos rfl, if_pos hlt, hn, Option.map_some, Option.map_some, hrow]
    · rw [if_neg hk]
  have hcount := congrArg (List.countP (· == kind)) hmap
  rw [List.countP_map, List.countP_map] at hcount
  exact hcount

/-- The counters after a step of an execution. -/
theorem accounted_settle_iff {w : TaskWorker} {n : ℕ} {task : RunningTask} {stage : RunStage}
    (h : w.Accounted) (hn : w.running[n]? = some task) :
    (w.settle n task stage).Accounted ↔ stage ≠ .ended true := by
  have hset : TaskWorker.Accounted
      { w with running := w.running.set n { task with stage } } := by
    have hsame := executions_set { task with stage } hn rfl
    exact fun kind => (h kind).trans (congrArg Nat.cast (hsame kind).symm)
  cases stage with
  | ended rejected =>
    have hexecutions : ∀ kind, w.executions kind =
        (w.settle n task (.ended rejected)).executions kind +
          if task.row.kind = kind then 1 else 0 := executions_eraseIdx hn rfl
    cases rejected with
    | true =>
      refine iff_of_false (fun hafter => ?_) (by simp)
      -- the place is still taken
      have hkept : (w.inFlight task.row.kind).getD 0 =
          (w.settle n task (.ended true)).executions task.row.kind := hafter task.row.kind
      have hone := hexecutions task.row.kind
      rw [if_pos rfl] at hone
      rw [h task.row.kind] at hkept
      omega
    | false =>
      refine iff_of_true (fun kind => ?_) (by simp)
      show (Function.update w.inFlight task.row.kind _ kind).getD 0 = _
      have hone := hexecutions kind
      by_cases hkind : task.row.kind = kind
      · subst hkind
        rw [if_pos rfl] at hone
        have hbefore := h task.row.kind
        rw [Function.update_self, Option.getD_some]
        -- a counter that is positive has been set
        rcases hvalue : w.inFlight task.row.kind with _ | value
        · rw [hvalue, Option.getD_none] at hbefore
          omega
        · rw [hvalue, Option.getD_some] at hbefore
          rw [Option.getD_some]
          omega
      · rw [if_neg hkind] at hone
        rw [Function.update_of_ne (Ne.symm hkind), h kind, hone]
        rfl
  | _ => exact iff_of_true hset (by simp)

/-- A heartbeat leaves the counters and the executions. -/
theorem accounted_heartbeat {w : TaskWorker} (h : w.Accounted) (n : ℕ) (m : Moment)
    (t : Table TaskRow) : (w.heartbeat n m t).1.Accounted := by
  rw [TaskWorker.heartbeat]
  rcases hn : w.running[n]? with _ | task
  · exact h
  · by_cases hlost : task.lost = true
    · simp only [hlost, ↓reduceIte]
      exact h
    · simp only [hlost, Bool.false_eq_true, ↓reduceIte]
      have hsame := executions_set { task with
        lost := (issue m.fault t (renewClaim task.row m.now)).1.getD 0 == 0 } hn rfl
      exact fun kind => (h kind).trans (congrArg Nat.cast (hsame kind).symm)

omit [DecidableEq ι] in
/-- When the end of `runOne` is a rejection. -/
theorem runOne_ended (m : Moment) (summary : String) (linkedRunId : Option String)
    (task : RunningTask) (t : Table TaskRow) :
    (q.runOne i m summary linkedRunId task t).1 = .ended true ↔ task.stage.rejects = true := by
  rw [TaskQueue.runOne]
  rcases task.stage with _ | _ | retryAt | rejected | rejected
  · simp only [RunStage.rejects]
    split <;> simp
  · simp only [RunStage.rejects]
    split
    · simp
    · split <;> simp
  · simp only [RunStage.rejects]
    split <;> simp
  · simp [RunStage.rejects]
  · simp [RunStage.rejects]

/-- **One step** keeps the counters exact if and only if it neither claims over a counter that has
moved nor ends an execution that rejects. -/
theorem accounted_next_iff (h : s.Accounted) (e : TaskEvent ι) :
    (s.next q e).Accounted ↔ s.InFlightKept e := by
  -- only the worker that moves is looked at
  have hsettle : ∀ (i : ι) (claiming : Option TaskRow) (turn : Turn ι),
      (s.settle i claiming turn).Accounted ↔ turn.worker.Accounted := by
    intro i claiming turn
    constructor
    · intro hafter
      have hi := hafter i
      rw [workers_settle_self] at hi
      exact hi
    · intro hturn j
      by_cases hj : j = i
      · subst hj
        rw [workers_settle_self]
        exact hturn
      · rw [workers_settle_of_ne hj]
        exact h j
  cases e with
  | poll i m =>
    rw [next, hsettle]
    rcases poll_cases (q := q) (i := i) m s.steps s.tasks s.gates (s.workers i) with
      ⟨hrunning, hinFlight, hnone⟩ | ⟨row, n, rest, hphase, hanswered, hrunning, hinFlight⟩
    · refine iff_of_true (fun task => ?_) fun row n rest hphase hanswered =>
        absurd hanswered (hnone row n rest hphase)
      rw [hinFlight, TaskWorker.executions, hrunning]
      exact h i task
    · rw [accounted_claim_iff (h i) hrunning hinFlight]
      constructor
      · intro hn row' n' rest' hphase' _
        rw [hphase] at hphase'
        obtain ⟨rfl, rfl, rfl⟩ := PollPhase.counted.inj hphase'
        exact hn
      · intro hkept
        exact hkept row n rest hphase hanswered
  | work i n m summary linkedRunId =>
    rw [next, hsettle, work]
    rcases hn : (s.workers i).running[n]? with _ | task
    · refine iff_of_true (h i) fun task htask => ?_
      rw [hn] at htask
      cases htask
    · refine (accounted_settle_iff (h i) hn).trans ?_
      rw [Ne, runOne_ended]
      constructor
      · intro hstage task' htask'
        rw [hn] at htask'
        obtain rfl := Option.some.inj htask'
        exact Bool.eq_false_iff.mpr hstage
      · intro hkept
        exact Bool.eq_false_iff.mp (hkept task hn)
  | heartbeat i n m =>
    rw [next, hsettle]
    exact iff_of_true (accounted_heartbeat (h i) n m s.tasks) trivial
  | crash i =>
    rw [next, hsettle]
    exact iff_of_true (fun _ => rfl) trivial
  | enqueue id task payload now => exact iff_of_true h trivial

end TaskState

/-- **The counters over a run.**  From workers that do nothing, they are exact throughout if and only
if no step claims over a counter that has moved, and no execution rejects. -/
theorem accounted_iff {ι : Type} [DecidableEq ι] {q : TaskQueue ι} {s : TaskState ι}
    {es : List (TaskEvent ι)} (hidle : ∀ i, s.workers i = {}) :
    Throughout (TaskState.next q) TaskState.Accounted s es ↔
      Along (TaskState.next q) TaskState.InFlightKept s es := by
  have hstart : s.Accounted := by
    intro i task
    rw [hidle i]
    rfl
  have hstep : ∀ (s : TaskState ι) (e : TaskEvent ι), s.Accounted →
      ((s.next q e).Accounted ↔ s.InFlightKept e) :=
    fun s e hs => TaskState.accounted_next_iff hs e
  exact throughout_iff_along hstep hstart

/-! ### Two ways to lose a place -/

/-- One task, with room for two rows. -/
def roomyTasks : TaskQueue Bool where
  limit task := if task = "run-coder" then some 2 else none
  parses _ := true
  options _ := { maxAttempts := 3, maxBackoffMs := 30000 }

/-- Two rows of one round: the first execution ends while the claim of the second row is under
way, and then the second ends. -/
def endDuringClaim : List (TaskEvent Bool) :=
  let turn : TaskEvent Bool := .poll false { polled := 1000, now := 1000 }
  let work : TaskEvent Bool := .work false 0 { polled := 1000, now := 1000 } "" none
  [.enqueue "t1" "run-coder" "{}" 0, .enqueue "t2" "run-coder" "{}" 0] ++
    List.replicate 6 turn ++ List.replicate 3 work ++ List.replicate 2 turn ++
    List.replicate 3 work ++ [turn]

/-- The task fails, and so does its mark; the row goes stale, and is recovered but not claimed. -/
def markFails : List (TaskEvent Bool) :=
  let turn (now : ℤ) : TaskEvent Bool := .poll false { polled := now, now }
  let work (fault : Option Fault) : TaskEvent Bool :=
    .work false 0 { polled := 1000, now := 1000, fault, returns := false } "" none
  [.enqueue "t1" "run-coder" "{}" 0] ++ List.replicate 6 (turn 1000) ++
    [work none, work (some .refused), work none] ++ List.replicate 4 (turn 400000)

theorem accounted_iff_endDuringClaim :
    Throughout (TaskState.next roomyTasks) TaskState.Accounted sampleWorkers endDuringClaim ↔
      Along (TaskState.next roomyTasks) TaskState.InFlightKept sampleWorkers endDuringClaim :=
  accounted_iff fun _ => rfl

/-- **Places are lost**: in both runs no execution is left, and the counter is `1`; in the second it
keeps the worker from the row for good. -/
theorem not_accounted :
    (¬ Throughout (TaskState.next roomyTasks) TaskState.Accounted sampleWorkers endDuringClaim ∧
      ((run (TaskState.next roomyTasks) sampleWorkers endDuringClaim).workers false).running = [] ∧
      ((run (TaskState.next roomyTasks) sampleWorkers endDuringClaim).workers false).inFlight
        "run-coder" = some 1) ∧
    (¬ Throughout (TaskState.next sampleTasks) TaskState.Accounted sampleWorkers markFails ∧
      ((run (TaskState.next sampleTasks) sampleWorkers markFails).workers false).running = [] ∧
      ((run (TaskState.next sampleTasks) sampleWorkers markFails).workers false).inFlight
        "run-coder" = some 1 ∧
      ((run (TaskState.next sampleTasks) sampleWorkers markFails).workers false).phase = .idle ∧
      (run (TaskState.next sampleTasks) sampleWorkers markFails).tasks.rows.map (·.status) =
        [.pending]) := by
  have hrace : ((run (TaskState.next roomyTasks) sampleWorkers endDuringClaim).workers
        false).running = [] ∧
      ((run (TaskState.next roomyTasks) sampleWorkers endDuringClaim).workers false).inFlight
        "run-coder" = some 1 := by
    decide +kernel
  have hrejected : ((run (TaskState.next sampleTasks) sampleWorkers markFails).workers
        false).running = [] ∧
      ((run (TaskState.next sampleTasks) sampleWorkers markFails).workers false).inFlight
        "run-coder" = some 1 := by
    decide +kernel
  have hlost : ∀ {q : TaskQueue Bool} {es : List (TaskEvent Bool)},
      ((run (TaskState.next q) sampleWorkers es).workers false).running = [] →
      ((run (TaskState.next q) sampleWorkers es).workers false).inFlight "run-coder" = some 1 →
      ¬ Throughout (TaskState.next q) TaskState.Accounted sampleWorkers es := by
    intro q es hrunning hinFlight hall
    have hlast := hall.last false "run-coder"
    rw [hinFlight, TaskWorker.executions, hrunning] at hlast
    cases hlast
  refine ⟨⟨hlost hrace.1 hrace.2, hrace⟩, hlost hrejected.1 hrejected.2, hrejected.1,
    hrejected.2, ?_⟩
  decide +kernel

end MiniCoder
