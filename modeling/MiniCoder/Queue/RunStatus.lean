import MiniCoder.Queue.InFlight

/-!
# The run that is recorded for a row of the task queue

`runRegisteredTask` records in `triggerdev_runs`, under the id of the row, that a run is at work and
how it has ended.  These writes are statements of their own, by the id alone: nothing compares them
with the claim of the row, and the mark of the row follows later.

* `runs_register`: what a statement of `runRegisteredTask` does to the recorded statuses.
* `outcome_next`: a row gets its outcome by a mark of the claim that owns it.
* `tracks_next`: **one step** keeps the recorded statuses and the outcomes in agreement.
* `run_status_agrees`: **over a run** whose steps all meet `StatusKept`, they agree throughout, and
  the status of a row with an outcome never changes.
-/

open Storage Runs

namespace MiniCoder

/-! ### Recorded runs -/

/-- `triggerdev_status`. -/
inductive RunStatus
  | running
  | succeeded
  | failed
  deriving DecidableEq, Repr

/-- A row of `triggerdev_runs`. -/
structure RunRow where
  triggerdevRunId : String
  triggerdevTaskId : String
  triggerdevStatus : RunStatus
  result : Option String := none
  deriving DecidableEq, Repr

instance : Row RunRow := .ofKey (·.triggerdevRunId)

/-- A run that starts. -/
def RunRow.started (runId taskId : String) : RunRow where
  triggerdevRunId := runId
  triggerdevTaskId := taskId
  triggerdevStatus := .running

/-- `linkRunToDb`: the `INSERT … ON CONFLICT (triggerdev_run_id) DO UPDATE`. -/
def linkRunToDb (runId taskId : String) (t : Table RunRow) : Table RunRow :=
  match t.insert? (.started runId taskId) with
  | some t' => t'
  | none =>
    t.update (fun r => r.triggerdevRunId == runId)
      (fun r => { r with triggerdevStatus := .running }) fun _ _ => rfl

/-- `updateRunStatus`; the result is kept where there is no new one. -/
def updateRunStatus (runId : String) (status : RunStatus) (result : Option String)
    (t : Table RunRow) : Table RunRow :=
  t.update (fun r => r.triggerdevRunId == runId)
    (fun r => { r with triggerdevStatus := status, result := result.or r.result }) fun _ _ => rfl

/-- A statement on `triggerdev_runs`, and whether its caller sees it succeed. -/
def attempt (fault : Option Fault) (statement : Table RunRow → Table RunRow) (t : Table RunRow) :
    Bool × Table RunRow :=
  match fault with
  | none => (true, statement t)
  | some .refused => (false, t)
  | some .unanswered => (false, statement t)

/-- The recorded status of a run. -/
def statusOf (t : Table RunRow) (runId : String) : Option RunStatus :=
  (t.find? fun r => r.triggerdevRunId == runId).map (·.triggerdevStatus)

section Statuses

variable {t t' : Table RunRow} {runId taskId id : String} {status : RunStatus}
  {result : Option String}

/-- An update of a run records its status, where the run has a row. -/
theorem statusOf_update {p : RunRow → Bool} {f : RunRow → RunRow} {hf : KeyFree f}
    (hp : ∀ r, p r = (r.triggerdevRunId == runId))
    (hid : ∀ r, (f r).triggerdevRunId = r.triggerdevRunId)
    (hstatus : ∀ r, (f r).triggerdevStatus = status) :
    statusOf (t.update p f hf) id =
      if id = runId then (statusOf t id).map fun _ => status else statusOf t id := by
  have hfind : (t.update p f hf).find? (fun r => r.triggerdevRunId == id) =
      (t.find? fun r => r.triggerdevRunId == id).map (Table.updateRow p f) :=
    Table.find?_update fun r => by rw [hid]
  rw [statusOf, hfind, statusOf]
  rcases hrow : t.find? (fun r => r.triggerdevRunId == id) with _ | r
  · simp
  · have hkey : r.triggerdevRunId = id := by simpa using t.prop_of_find? hrow
    simp only [Option.map_some]
    by_cases hsame : id = runId
    · have hmatch : p r = true := by
        rw [hp, hkey, hsame, beq_self_eq_true]
      rw [if_pos hsame, Table.updateRow_of_pos hmatch, hstatus]
    · have hmiss : p r = false := by
        rw [hp, hkey]
        simpa using hsame
      rw [if_neg hsame, Table.updateRow_of_neg hmiss]

theorem statusOf_updateRunStatus : statusOf (updateRunStatus runId status result t) id =
    if id = runId then (statusOf t id).map fun _ => status else statusOf t id :=
  statusOf_update (fun _ => rfl) (fun _ => rfl) fun _ => rfl

theorem statusOf_linkRunToDb : statusOf (linkRunToDb runId taskId t) id =
    if id = runId then some .running else statusOf t id := by
  rw [linkRunToDb]
  rcases hinsert : t.insert? (.started runId taskId) with _ | t'
  · -- the row is there already
    have hthere : (statusOf t runId).isSome = true := by
      by_contra hnone
      have habsent : t.find? (fun r => r.triggerdevRunId == runId) = none := by
        simpa [statusOf] using hnone
      have hfree := (t.find?_eq_none).mp habsent
      obtain ⟨t', ht'⟩ := Table.insert?_isSome (t := t) (r := .started runId taskId)
        fun r hr => hfree r hr
      rw [hinsert] at ht'
      cases ht'
    have hupdate : statusOf (t.update (fun r => r.triggerdevRunId == runId)
        (fun r => { r with triggerdevStatus := .running }) fun _ _ => rfl) id =
        if id = runId then (statusOf t id).map fun _ => RunStatus.running else statusOf t id :=
      statusOf_update (fun _ => rfl) (fun _ => rfl) fun _ => rfl
    refine hupdate.trans ?_
    by_cases hsame : id = runId
    · obtain ⟨status, hstatus⟩ := Option.isSome_iff_exists.mp hthere
      rw [if_pos hsame, if_pos hsame, hsame, hstatus, Option.map_some]
    · rw [if_neg hsame, if_neg hsame]
  · have hfree := Table.clash_of_insert? hinsert
    show statusOf t' id = _
    rw [statusOf, Table.find?, Table.rows_insert? hinsert, List.find?_append]
    by_cases hsame : id = runId
    · have hnone : t.rows.find? (fun r => r.triggerdevRunId == id) = none := by
        refine List.find?_eq_none.mpr fun r hr => ?_
        have hother : decide (r.triggerdevRunId = runId) = false := hfree r hr
        rw [hsame]
        simpa using hother
      rw [hnone, if_pos hsame, hsame]
      simp [RunRow.started]
    · have hskip : [RunRow.started runId taskId].find? (fun r => r.triggerdevRunId == id) =
          none := by
        have hother : (runId == id) = false := by simpa using Ne.symm hsame
        simp [RunRow.started, hother]
      rw [hskip, Option.or_none, if_neg hsame]
      rfl

theorem statusOf_attempt (fault : Option Fault) (statement : Table RunRow → Table RunRow) :
    statusOf (attempt fault statement t).2 id =
      if fault = some .refused then statusOf t id else statusOf (statement t) id := by
  rcases fault with _ | fault
  · rfl
  · cases fault <;> rfl

end Statuses

/-! ### `runRegisteredTask` -/

/-- How far `runRegisteredTask` has got. -/
inductive TaskPhase
  | started
  /-- The run is linked, and its row is to be read back. -/
  | linked
  /-- The task is at work. -/
  | working
  | returned (result : String)
  /-- In the `catch`. -/
  | threw
  /-- It has returned or thrown, and recorded that. -/
  | settled (returned : Bool)
  /-- It has thrown, and has not recorded that. -/
  | rejected
  deriving DecidableEq, Repr

/-- The next statement of `runRegisteredTask` for a row, or a step of the task itself.  A row that
does not parse, and a connection that cannot be opened, end it before the first statement. -/
def TaskQueue.runRegisteredTask {ι : Type} (q : TaskQueue ι) (m : Moment) (result : String)
    (row : TaskRow) (phase : TaskPhase) (t : Table RunRow) : TaskPhase × Table RunRow :=
  match phase with
  | .started =>
    if q.parses row.payload && m.returns then
      let linked := attempt m.fault (linkRunToDb row.id row.kind) t
      (if linked.1 then .linked else .rejected, linked.2)
    else (.rejected, t)
  | .linked => (if m.fault.isNone then .working else .rejected, t)
  | .working => (if m.returns then .returned result else .threw, t)
  | .returned result =>
    -- a failure of this update is caught, too
    let updated := attempt m.fault (updateRunStatus row.id .succeeded (some result)) t
    (if updated.1 then .settled true else .threw, updated.2)
  | .threw =>
    -- without an answer the update has taken effect, and the error that is thrown is another one
    let updated := attempt m.fault (updateRunStatus row.id .failed none) t
    (if m.fault = some .refused then .rejected else .settled false, updated.2)
  | phase => (phase, t)

/-- The status that the next statement of `runRegisteredTask` records, if it records one. -/
def TaskQueue.records {ι : Type} (q : TaskQueue ι) (m : Moment) (row : TaskRow) :
    TaskPhase → Option RunStatus
  | .started =>
    if q.parses row.payload && m.returns && m.fault != some .refused then some .running else none
  | .returned _ => if m.fault = some .refused then none else some .succeeded
  | .threw => if m.fault = some .refused then none else some .failed
  | _ => none

/-- It has linked its run. -/
def TaskPhase.isLinked : TaskPhase → Bool
  | started | rejected => false
  | _ => true

section Register

variable {ι : Type} {q : TaskQueue ι} {m : Moment} {result : String} {row : TaskRow}
  {phase : TaskPhase} {t : Table RunRow} {id : String}

/-- **What a statement of `runRegisteredTask` does to the recorded statuses.** -/
theorem runs_register (hlinked : phase.isLinked = true → (statusOf t row.id).isSome = true) :
    statusOf (q.runRegisteredTask m result row phase t).2 id =
      if id = row.id then (q.records m row phase).or (statusOf t id) else statusOf t id := by
  rcases phase with _ | _ | _ | result' | _ | returned | _
  · rw [TaskQueue.runRegisteredTask, TaskQueue.records]
    by_cases hstarts : (q.parses row.payload && m.returns) = true
    · rw [if_pos hstarts, hstarts]
      show statusOf (attempt m.fault (linkRunToDb row.id row.kind) t).2 id = _
      rw [statusOf_attempt, statusOf_linkRunToDb]
      by_cases hrefused : m.fault = some .refused
      · simp [hrefused]
      · simp [hrefused]
    · rw [if_neg hstarts]
      simp [hstarts]
  · simp [TaskQueue.runRegisteredTask, TaskQueue.records]
  · simp [TaskQueue.runRegisteredTask, TaskQueue.records]
  · obtain ⟨status, hstatus⟩ := Option.isSome_iff_exists.mp (hlinked rfl)
    show statusOf (attempt m.fault (updateRunStatus row.id .succeeded (some result')) t).2 id = _
    rw [statusOf_attempt, statusOf_updateRunStatus, TaskQueue.records]
    by_cases hrefused : m.fault = some .refused
    · simp [hrefused]
    · by_cases hid : id = row.id
      · subst hid
        simp [hrefused, hstatus]
      · simp [hid]
  · obtain ⟨status, hstatus⟩ := Option.isSome_iff_exists.mp (hlinked rfl)
    show statusOf (attempt m.fault (updateRunStatus row.id .failed none) t).2 id = _
    rw [statusOf_attempt, statusOf_updateRunStatus, TaskQueue.records]
    by_cases hrefused : m.fault = some .refused
    · simp [hrefused]
    · by_cases hid : id = row.id
      · subst hid
        simp [hrefused, hstatus]
      · simp [hid]
  · simp [TaskQueue.runRegisteredTask, TaskQueue.records]
  · simp [TaskQueue.runRegisteredTask, TaskQueue.records]

/-- A run that is linked stays so, and is recorded when it becomes so. -/
theorem isLinked_register
    (h : (q.runRegisteredTask m result row phase t).1.isLinked = true) :
    phase.isLinked = true ∨
      q.records m row phase = some .running ∧ q.parses row.payload = true := by
  cases phase with
  | started =>
    right
    rw [TaskQueue.runRegisteredTask] at h
    by_cases hstarts : (q.parses row.payload && m.returns) = true
    · rw [if_pos hstarts] at h
      refine ⟨?_, (Bool.and_eq_true .. ▸ hstarts).1⟩
      rw [TaskQueue.records, hstarts]
      rcases hfault : m.fault with _ | fault
      · rfl
      · rw [hfault] at h
        cases fault <;> cases h
    · rw [if_neg hstarts] at h
      cases h
  | rejected => cases h
  | _ => exact Or.inl rfl

/-- The statement that settles `runRegisteredTask` records how. -/
theorem settled_register {returned : Bool}
    (h : (q.runRegisteredTask m result row phase t).1 = .settled returned) :
    phase = .settled returned ∨
      q.records m row phase = some (if returned then .succeeded else .failed) := by
  rcases phase with _ | _ | _ | result' | _ | returned' | _
  · rw [TaskQueue.runRegisteredTask] at h
    split at h
    · rcases hfault : m.fault with _ | fault
      · simp [attempt, hfault] at h
      · cases fault <;> simp [attempt, hfault] at h
    · cases h
  · rw [TaskQueue.runRegisteredTask] at h
    split at h <;> cases h
  · rw [TaskQueue.runRegisteredTask] at h
    split at h <;> cases h
  · right
    rw [TaskQueue.runRegisteredTask] at h
    rw [TaskQueue.records]
    rcases hfault : m.fault with _ | fault
    · simp [attempt, hfault] at h
      simp [← h]
    · cases fault <;> simp [attempt, hfault] at h
  · right
    rw [TaskQueue.runRegisteredTask] at h
    rw [TaskQueue.records]
    by_cases hrefused : m.fault = some .refused
    · simp [hrefused] at h
    · simp [hrefused] at h
      simp [hrefused, ← h]
  · exact Or.inl h
  · cases h

end Register

/-! ### The system -/

/-- The task queue, the recorded runs, and how far each claim's `runRegisteredTask` has got. -/
structure RunsState (ι : Type) where
  queue : TaskState ι
  runs : Table RunRow
  phases : ℕ → TaskPhase

/-- A step of the queue, or a statement of `runRegisteredTask` for the `n`-th running task of a
worker. -/
inductive RunsEvent (ι : Type)
  | queue (e : TaskEvent ι)
  | register (i : ι) (n : ℕ) (m : Moment) (result : String)

namespace RunsState

variable {ι : Type} [DecidableEq ι] (q : TaskQueue ι) (s : RunsState ι)

/-- The handler of a task ends when its `runRegisteredTask` has settled, and as it has; where it has
returned, the end of the connection may still throw. -/
def heed : TaskEvent ι → Option (TaskEvent ι)
  | .work i n m summary linkedRunId =>
    match (s.queue.workers i).running[n]? with
    | none => some (.work i n m summary linkedRunId)
    | some task =>
      if task.stage = .handling then
        match s.phases task.claim with
        | .settled true => some (.work i n m summary linkedRunId)
        | .settled false | .rejected =>
          some (.work i n { m with returns := false } summary linkedRunId)
        | _ => none
      else some (.work i n m summary linkedRunId)
  | e => some e

/-- A statement of `runRegisteredTask`. -/
def register (i : ι) (n : ℕ) (m : Moment) (result : String) : RunsState ι :=
  match (s.queue.workers i).running[n]? with
  | none => s
  | some task =>
    if task.stage = .handling then
      let ran := q.runRegisteredTask m result task.row (s.phases task.claim) s.runs
      { s with runs := ran.2, phases := Function.update s.phases task.claim ran.1 }
    else s

def next : RunsEvent ι → RunsState ι
  | .queue e =>
    match s.heed e with
    | none => s
    | some e => { s with queue := s.queue.next q e }
  | .register i n m result => s.register q i n m result

end RunsState

/-! ### Outcomes -/

section Outcome

variable {ι : Type} (q : TaskQueue ι)

/-- The outcome of a row: it has succeeded, or failed with no attempts left for any worker. -/
inductive Outcome (row : TaskRow) : RunStatus → Prop
  | succeeded (h : row.status = .done) : Outcome row .succeeded
  | failed (h : row.status = .failed) (hnone : ∀ i, (q.options i).maxAttempts ≤ row.attempts) :
      Outcome row .failed

/-- A failure of this attempt leaves none. -/
def LastAttempt (task : RunningTask) : Prop :=
  ∀ i, (q.options i).maxAttempts ≤ task.row.attempts + 1

/-- A row that is rewritten without a mark. -/
def Unmarked (r r' : TaskRow) : Prop :=
  r'.id = r.id ∧ (r'.status = r.status ∧ r'.attempts = r.attempts ∨
    r'.status = .pending ∨ r'.status = .processing)

variable {q} {s : TaskState ι} {i : ι} {r r' : TaskRow} {ended : RunStatus}

theorem Unmarked.refl (r : TaskRow) : Unmarked r r := ⟨rfl, Or.inl ⟨rfl, rfl⟩⟩

theorem Unmarked.outcome (h : Unmarked r r') (houtcome : Outcome q r' ended) :
    Outcome q r ended := by
  obtain ⟨-, hcases⟩ := h
  cases houtcome with
  | succeeded hdone =>
    rcases hcases with ⟨hstatus, -⟩ | hpending | hprocessing
    · exact .succeeded (hstatus.symm.trans hdone)
    · rw [hpending] at hdone
      cases hdone
    · rw [hprocessing] at hdone
      cases hdone
  | failed hfailed hnone =>
    rcases hcases with ⟨hstatus, hattempts⟩ | hpending | hprocessing
    · exact .failed (hstatus.symm.trans hfailed) fun i => hattempts ▸ hnone i
    · rw [hpending] at hfailed
      cases hfailed
    · rw [hprocessing] at hfailed
      cases hfailed

/-- An update that marks nothing. -/
theorem unmarked_update {p : TaskRow → Bool} {f : TaskRow → TaskRow} {hf : KeyFree f}
    {t : Table TaskRow} (h : ∀ r, Unmarked r (f r)) :
    t.Rewritten Unmarked (executeAffected p f hf t).2 := by
  refine (rewritten_executeAffected p f hf t).imp fun r r' hr => ?_
  rcases hr with ⟨-, rfl⟩ | rfl
  · exact h r
  · exact .refl r'

/-- No step of a poll marks a row. -/
theorem unmarked_poll (m : Moment) (claim : ℕ) (t : Table TaskRow) (gates : String → Option ι)
    (w : TaskWorker) : t.Rewritten Unmarked (q.poll i m claim t gates w).tasks := by
  have hkept : t.Rewritten Unmarked t := Table.Rewritten.refl fun r _ => .refl r
  rcases hphase : w.phase with _ | _ | rows | ⟨row, limit, n, rest⟩ | ⟨row, n, rest⟩
  · rw [TaskQueue.poll, hphase]
    exact rewritten_issue .refl m.fault (unmarked_update fun r => ⟨rfl, Or.inr (Or.inl rfl)⟩)
  · rw [TaskQueue.poll, hphase]
    exact hkept
  · rcases rows with _ | ⟨row, rest⟩
    · rw [TaskQueue.poll, hphase]
      exact hkept
    · simp only [TaskQueue.poll, hphase]
      rcases q.limit row.kind with _ | limit
      · exact rewritten_issue .refl m.fault (unmarked_update fun r => ⟨rfl, Or.inl ⟨rfl, rfl⟩⟩)
      · exact hkept
  · simp only [TaskQueue.poll, hphase]
    split
    · exact hkept
    · split
      · exact hkept
      · split <;> exact hkept
  · have hclaimed : t.Rewritten Unmarked (issue m.fault t (claimRow row m.now)).2 :=
      rewritten_issue .refl m.fault (unmarked_update fun r => ⟨rfl, Or.inr (Or.inr rfl)⟩)
    simp only [TaskQueue.poll, hphase]
    split <;> exact hclaimed

/-- A mark by a running task, which then owns the row. -/
theorem outcome_mark (hsafe : s.Safe q) {task : RunningTask}
    (htask : task ∈ (s.workers i).running) {f : TaskRow → TaskRow} {hf : KeyFree f}
    {fault : Option Fault} (hr' : r' ∈ (issue fault s.tasks
      (executeAffected (guarded task.row.id (task.row.version + 1)) f hf)).2.rows) :
    r' ∈ s.tasks.rows ∨ ∃ r ∈ s.tasks.rows, r' = f r ∧ r.id = task.row.id ∧
      s.claimedBy task.row.id = some task.claim := by
  have hrewritten : s.tasks.Rewritten (fun r r' => r' = r ∨ r' = f r ∧
      guarded task.row.id (task.row.version + 1) r = true) (issue fault s.tasks
      (executeAffected (guarded task.row.id (task.row.version + 1)) f hf)).2 := by
    refine rewritten_issue (fun r => Or.inl rfl) fault ?_
    exact (rewritten_executeAffected _ f hf s.tasks).imp fun r r' hwrote =>
      hwrote.symm.imp_right And.symm
  obtain ⟨r, hr, hwrote⟩ := hrewritten.exists_mem_of hr'
  rcases hwrote with rfl | ⟨hmarked, hguard⟩
  · exact Or.inl hr
  · exact Or.inr ⟨r, hr, hmarked, (guarded_iff.mp hguard).1, (hsafe.of_guarded htask hr hguard).2⟩

/-- **An execution gives its row an outcome** by a mark under the claim that owns it. -/
theorem outcome_work (hsafe : s.Safe q) {n : ℕ} {m : Moment} {summary : String}
    {linkedRunId : Option String} {task : RunningTask}
    (hn : (s.workers i).running[n]? = some task)
    (hr' : r' ∈ (q.runOne i m summary linkedRunId task s.tasks).2.rows)
    (houtcome : Outcome q r' ended) :
    (∃ r ∈ s.tasks.rows, r.id = r'.id ∧ Outcome q r ended) ∨
      task.row.id = r'.id ∧ s.claimedBy task.row.id = some task.claim ∧
        (task.stage = .returned ∧ ended = .succeeded ∨
          (∃ retryAt, task.stage = .threw retryAt) ∧ ended = .failed ∧ LastAttempt q task) := by
  have htask := List.mem_of_getElem? hn
  have hkept : r' ∈ s.tasks.rows → ∃ r ∈ s.tasks.rows, r.id = r'.id ∧ Outcome q r ended :=
    fun hmem => ⟨r', hmem, rfl, houtcome⟩
  rw [TaskQueue.runOne] at hr'
  rcases hstage : task.stage with _ | _ | retryAt | rejected | rejected
  · rw [hstage] at hr'
    exact Or.inl (hkept hr')
  · simp only [hstage] at hr'
    split at hr'
    · exact Or.inl (hkept hr')
    · rcases outcome_mark hsafe htask hr' with hmem | ⟨r, hr, rfl, hid, howner⟩
      · exact Or.inl (hkept hmem)
      · refine Or.inr ⟨hid.symm, howner, Or.inl ⟨rfl, ?_⟩⟩
        cases houtcome with
        | succeeded => rfl
        | failed hfailed => cases hfailed
  · simp only [hstage] at hr'
    split at hr'
    · exact Or.inl (hkept hr')
    · rcases outcome_mark hsafe htask hr' with hmem | ⟨r, hr, rfl, hid, howner⟩
      · exact Or.inl (hkept hmem)
      · refine Or.inr ⟨hid.symm, howner, Or.inr ⟨⟨retryAt, rfl⟩, ?_⟩⟩
        cases houtcome with
        | succeeded hdone => cases hdone
        | failed _ hnone => exact ⟨rfl, hnone⟩
  · simp only [hstage] at hr'
    have hlinked : s.tasks.Rewritten Unmarked
        (issue m.fault s.tasks (linkRun task.row linkedRunId)).2 :=
      rewritten_issue .refl m.fault (unmarked_update fun r => ⟨rfl, Or.inl ⟨rfl, rfl⟩⟩)
    obtain ⟨r, hr, hunmarked⟩ := hlinked.exists_mem_of hr'
    exact Or.inl ⟨r, hr, hunmarked.1.symm, hunmarked.outcome houtcome⟩
  · simp only [hstage] at hr'
    exact Or.inl (hkept hr')

variable [DecidableEq ι]

/-- **Where the outcome of a row comes from**: the row had it, or the owner of the row marks it. -/
theorem outcome_next (hsafe : s.Safe q) {e : TaskEvent ι} (hr' : r' ∈ (s.next q e).tasks.rows)
    (houtcome : Outcome q r' ended) :
    (∃ r ∈ s.tasks.rows, r.id = r'.id ∧ Outcome q r ended) ∨
      ∃ i n m summary linkedRunId task, e = .work i n m summary linkedRunId ∧
        (s.workers i).running[n]? = some task ∧ task.row.id = r'.id ∧
        s.claimedBy task.row.id = some task.claim ∧
        (task.stage = .returned ∧ ended = .succeeded ∨
          (∃ retryAt, task.stage = .threw retryAt) ∧ ended = .failed ∧ LastAttempt q task) := by
  have hunmarked : ∀ {t : Table TaskRow}, s.tasks.Rewritten Unmarked t → r' ∈ t.rows →
      ∃ r ∈ s.tasks.rows, r.id = r'.id ∧ Outcome q r ended := by
    intro t ht hmem
    obtain ⟨r, hr, hrow⟩ := ht.exists_mem_of hmem
    exact ⟨r, hr, hrow.1.symm, hrow.outcome houtcome⟩
  cases e with
  | poll i m => exact Or.inl (hunmarked (unmarked_poll ..) hr')
  | work i n m summary linkedRunId =>
    have hmem : r' ∈ (s.work q i n m summary linkedRunId).tasks.rows := hr'
    rw [TaskState.work] at hmem
    rcases hn : (s.workers i).running[n]? with _ | task
    · rw [hn] at hmem
      exact Or.inl ⟨r', hmem, rfl, houtcome⟩
    · rw [hn] at hmem
      exact (outcome_work hsafe hn hmem houtcome).imp_right fun hmark =>
        ⟨i, n, m, summary, linkedRunId, task, rfl, hn, hmark⟩
  | heartbeat i n m =>
    have hmem : r' ∈ ((s.workers i).heartbeat n m s.tasks).2.rows := hr'
    rw [TaskWorker.heartbeat] at hmem
    rcases hn : (s.workers i).running[n]? with _ | task
    · rw [hn] at hmem
      exact Or.inl ⟨r', hmem, rfl, houtcome⟩
    · simp only [hn] at hmem
      split at hmem
      · exact Or.inl ⟨r', hmem, rfl, houtcome⟩
      · have hrenewed : s.tasks.Rewritten Unmarked
            (issue m.fault s.tasks (renewClaim task.row m.now)).2 :=
          rewritten_issue .refl m.fault (unmarked_update fun r => ⟨rfl, Or.inl ⟨rfl, rfl⟩⟩)
        exact Or.inl (hunmarked hrenewed hmem)
  | crash i => exact Or.inl ⟨r', hr', rfl, houtcome⟩
  | enqueue id task payload now =>
    obtain ⟨added, hrows, hpending⟩ := TaskState.rows_enqueue q s id task payload now
    rw [hrows] at hr'
    rcases List.mem_append.mp hr' with hold | hnew
    · exact Or.inl ⟨r', hold, rfl, houtcome⟩
    · have hstatus := hpending r' hnew
      cases houtcome with
      | succeeded hdone =>
        rw [hstatus] at hdone
        cases hdone
      | failed hfailed =>
        rw [hstatus] at hfailed
        cases hfailed

end Outcome

/-! ### Executions and claims after a step -/

section Executions

variable {ι : Type} [DecidableEq ι] {q : TaskQueue ι} {s : TaskState ι} {e : TaskEvent ι}

/-- Where an execution comes from: it was there, perhaps at an earlier stage, or its row has just been
claimed. -/
theorem running_next {j : ι} {task' : RunningTask}
    (h : task' ∈ ((s.next q e).workers j).running) :
    (∃ task ∈ (s.workers j).running, task'.row = task.row ∧ task'.claim = task.claim ∧
      (task'.stage = task.stage ∨ ∃ n m summary linkedRunId, e = .work j n m summary linkedRunId ∧
        (s.workers j).running[n]? = some task ∧
        task'.stage = (q.runOne j m summary linkedRunId task s.tasks).1)) ∨
    task'.stage = .handling ∧ task'.claim = s.steps ∧ ∃ m row n rest, e = .poll j m ∧
      (s.workers j).phase = .counted row n rest ∧ claimAnswered m row s.tasks ∧
      task'.row = row := by
  have hsame : ∀ task ∈ (s.workers j).running, task = task' →
      ∃ task ∈ (s.workers j).running, task'.row = task.row ∧ task'.claim = task.claim ∧
        (task'.stage = task.stage ∨ ∃ n m summary linkedRunId,
          e = .work j n m summary linkedRunId ∧ (s.workers j).running[n]? = some task ∧
          task'.stage = (q.runOne j m summary linkedRunId task s.tasks).1) := by
    rintro task htask rfl
    exact ⟨task, htask, rfl, rfl, Or.inl rfl⟩
  -- another worker, or the one that moves
  have hsettle : ∀ (i : ι) (claiming : Option TaskRow) (turn : Turn ι),
      task' ∈ ((s.settle i claiming turn).workers j).running →
      j ≠ i ∧ task' ∈ (s.workers j).running ∨ j = i ∧ task' ∈ turn.worker.running := by
    intro i claiming turn hmem
    by_cases hj : j = i
    · subst hj
      rw [TaskState.workers_settle_self] at hmem
      exact Or.inr ⟨rfl, hmem⟩
    · rw [TaskState.workers_settle_of_ne hj] at hmem
      exact Or.inl ⟨hj, hmem⟩
  cases e with
  | poll i m =>
    rcases hsettle i _ _ h with ⟨-, hold⟩ | ⟨rfl, hmem⟩
    · exact Or.inl (hsame task' hold rfl)
    · rcases TaskState.poll_cases (q := q) (i := j) m s.steps s.tasks s.gates (s.workers j) with
        ⟨hrunning, -, -⟩ | ⟨row, n, rest, hphase, hanswered, hrunning, -⟩
      · rw [hrunning] at hmem
        exact Or.inl (hsame task' hmem rfl)
      · rw [hrunning] at hmem
        rcases List.mem_append.mp hmem with hold | hnew
        · exact Or.inl (hsame task' hold rfl)
        · obtain rfl := List.mem_singleton.mp hnew
          exact Or.inr ⟨rfl, rfl, m, row, n, rest, rfl, hphase, hanswered, rfl⟩
  | work i n m summary linkedRunId =>
    rcases hsettle i _ _ h with ⟨-, hold⟩ | ⟨rfl, hmem⟩
    · exact Or.inl (hsame task' hold rfl)
    · left
      rw [TaskState.work] at hmem
      rcases hn : (s.workers j).running[n]? with _ | task
      · rw [hn] at hmem
        exact hsame task' hmem rfl
      · rw [hn] at hmem
        have hset : task' ∈ (s.workers j).running.set n { task with
            stage := (q.runOne j m summary linkedRunId task s.tasks).1 } ∨
            task' ∈ (s.workers j).running := by
          have hmem' : task' ∈ ((s.workers j).settle n task
            (q.runOne j m summary linkedRunId task s.tasks).1).running := hmem
          rcases hstage : (q.runOne j m summary linkedRunId task s.tasks).1 with
            _ | _ | _ | _ | rejected
          · rw [hstage] at hmem'
            exact Or.inl hmem'
          · rw [hstage] at hmem'
            exact Or.inl hmem'
          · rw [hstage] at hmem'
            exact Or.inl hmem'
          · rw [hstage] at hmem'
            exact Or.inl hmem'
          · rw [hstage] at hmem'
            exact Or.inr (List.mem_of_mem_eraseIdx hmem')
        rcases hset with hset | hold
        · rcases List.mem_or_eq_of_mem_set hset with hold | rfl
          · exact hsame task' hold rfl
          · exact ⟨task, List.mem_of_getElem? hn, rfl, rfl,
              Or.inr ⟨n, m, summary, linkedRunId, rfl, hn, rfl⟩⟩
        · exact hsame task' hold rfl
  | heartbeat i n m =>
    rcases hsettle i _ _ h with ⟨-, hold⟩ | ⟨rfl, hmem⟩
    · exact Or.inl (hsame task' hold rfl)
    · left
      rw [TaskWorker.heartbeat] at hmem
      rcases hn : (s.workers j).running[n]? with _ | task
      · rw [hn] at hmem
        exact hsame task' hmem rfl
      · simp only [hn] at hmem
        split at hmem
        · exact hsame task' hmem rfl
        · rcases List.mem_or_eq_of_mem_set hmem with hold | rfl
          · exact hsame task' hold rfl
          · exact ⟨task, List.mem_of_getElem? hn, rfl, rfl, Or.inl rfl⟩
  | crash i =>
    rcases hsettle i _ _ h with ⟨-, hold⟩ | ⟨rfl, hmem⟩
    · exact Or.inl (hsame task' hold rfl)
    · cases hmem
  | enqueue id task payload now => exact Or.inl (hsame task' h rfl)

/-- The ghost column after a step. -/
theorem claimedBy_next : ∃ who : Option ℕ, (who = none ∨ who = some s.steps) ∧
    (s.next q e).claimedBy = stamp s.tasks (s.next q e).tasks who s.claimedBy := by
  cases e with
  | poll i m =>
    refine ⟨(s.workers i).phase.claims.map fun _ => s.steps, ?_, rfl⟩
    rcases (s.workers i).phase.claims with _ | row
    · exact Or.inl rfl
    · exact Or.inr rfl
  | _ => exact ⟨none, Or.inl rfl, rfl⟩

theorem steps_next : (s.next q e).steps = s.steps + 1 := by
  cases e <;> rfl

/-- **A claim that was made before a step** owns a row after it only if it did before, and the step has
left the version of the row. -/
theorem owner_next {id : String} {claim : ℕ} (hclaim : claim < s.steps)
    (h : (s.next q e).claimedBy id = some claim) :
    s.claimedBy id = some claim ∧ versionOf (s.next q e).tasks id = versionOf s.tasks id := by
  obtain ⟨who, hwho, hstamp⟩ := claimedBy_next (q := q) (s := s) (e := e)
  rw [hstamp, stamp] at h
  split at h
  · rename_i hversion
    exact ⟨h, hversion⟩
  · rcases hwho with rfl | rfl
    · cases h
    · have hnow := Option.some.inj h
      omega

omit [DecidableEq ι] in
/-- How an execution comes to have returned. -/
theorem runOne_returned {i : ι} {m : Moment} {summary : String} {linkedRunId : Option String}
    {task : RunningTask} {t : Table TaskRow}
    (h : (q.runOne i m summary linkedRunId task t).1 = .returned) :
    task.stage = .handling ∧ m.returns = true := by
  rw [TaskQueue.runOne] at h
  rcases hstage : task.stage with _ | _ | retryAt | rejected | rejected
  · simp only [hstage] at h
    split at h
    · rename_i hreturns
      rw [Bool.and_eq_true] at hreturns
      exact ⟨rfl, hreturns.2⟩
    · cases h
  · simp only [hstage] at h
    split at h
    · cases h
    · split at h <;> cases h
  · simp only [hstage] at h
    split at h <;> cases h
  · simp only [hstage] at h
    cases h
  · simp only [hstage] at h
    cases h

omit [DecidableEq ι] in
/-- How an execution comes to have thrown: the task has, or the mark of its success. -/
theorem runOne_threw {i : ι} {m : Moment} {summary : String} {linkedRunId : Option String}
    {task : RunningTask} {t : Table TaskRow} {retryAt : ℤ}
    (h : (q.runOne i m summary linkedRunId task t).1 = .threw retryAt) :
    (task.stage = .handling ∧ (q.parses task.row.payload = true → m.returns = false)) ∨
      task.stage = .returned ∧ task.lost = false ∧ m.fault ≠ none := by
  rw [TaskQueue.runOne] at h
  rcases hstage : task.stage with _ | _ | retryAt' | rejected | rejected
  · simp only [hstage] at h
    split at h
    · cases h
    · rename_i hthrows
      refine Or.inl ⟨rfl, fun hparses => ?_⟩
      rw [hparses] at hthrows
      simpa using hthrows
  · simp only [hstage] at h
    split at h
    · cases h
    · rename_i hheld
      refine Or.inr ⟨rfl, by simpa using hheld, fun hnone => ?_⟩
      rw [hnone] at h
      cases h
  · simp only [hstage] at h
    split at h <;> cases h
  · simp only [hstage] at h
    cases h
  · simp only [hstage] at h
    cases h

end Executions

/-! ### Agreement -/

/-- The claim of an execution has set the current version of its row. -/
def TaskState.Owns {ι : Type} (s : TaskState ι) (task : RunningTask) : Prop :=
  s.claimedBy task.row.id = some task.claim

namespace RunsState

variable {ι : Type} [DecidableEq ι] (q : TaskQueue ι) (s : RunsState ι)

/-- The recorded status of every row with an outcome is that outcome. -/
def Agrees : Prop :=
  ∀ row ∈ s.queue.tasks.rows, ∀ ended, Outcome q row ended → statusOf s.runs row.id = some ended

/-- The outcome of a row is on record: the row has it, or the owner of the row has recorded how its
task ended. -/
def OnRecord (id : String) : Prop :=
  (∃ row ∈ s.queue.tasks.rows, row.id = id ∧ ∃ ended, Outcome q row ended) ∨
    ∃ i, ∃ task ∈ (s.queue.workers i).running, task.row.id = id ∧ s.queue.Owns task ∧
      ∃ returned, s.phases task.claim = .settled returned

/-- What a step must do: a claim that does not own its row changes no status that is on record, and
the owner of a row lets a last attempt end in an error only when it has recorded its failure. -/
def StatusKept : RunsEvent ι → Prop
  | .register i n m _ => ∀ task status, (s.queue.workers i).running[n]? = some task →
    q.records m task.row (s.phases task.claim) = some status →
      s.queue.Owns task ∨ statusOf s.runs task.row.id = some status ∨ ¬ s.OnRecord q task.row.id
  | .queue (.work i n m _ _) => ∀ task, (s.queue.workers i).running[n]? = some task →
    s.queue.Owns task → LastAttempt q task →
      (task.stage = .handling → s.phases task.claim ≠ .rejected ∧
        (s.phases task.claim = .settled true → m.returns = true)) ∧
      (task.stage = .returned → task.lost = true ∨ m.fault ≠ some .refused)
  | _ => True

/-- A step leaves the recorded status of every row with an outcome. -/
def OutcomeFinal (e : RunsEvent ι) : Prop :=
  ∀ row ∈ s.queue.tasks.rows, ∀ ended, Outcome q row ended →
    statusOf (s.next q e).runs row.id = statusOf s.runs row.id

/-- The invariant: what an execution has recorded, and at which stage it may be. -/
structure Tracks : Prop where
  safe : s.queue.Safe q
  agrees : s.Agrees q
  below : ∀ i, ∀ task ∈ (s.queue.workers i).running, task.claim < s.queue.steps
  fresh : ∀ claim, s.queue.steps ≤ claim → s.phases claim = .started
  sameRow : ∀ i, ∀ task ∈ (s.queue.workers i).running, ∀ j, ∀ task' ∈ (s.queue.workers j).running,
    task'.claim = task.claim → task'.row = task.row
  owned : ∀ i, ∀ task ∈ (s.queue.workers i).running, s.queue.Owns task →
    ∃ r ∈ s.queue.tasks.rows, guarded task.row.id (task.row.version + 1) r = true
  linked : ∀ i, ∀ task ∈ (s.queue.workers i).running, (s.phases task.claim).isLinked = true →
    (statusOf s.runs task.row.id).isSome = true ∧ q.parses task.row.payload = true
  returned : ∀ i, ∀ task ∈ (s.queue.workers i).running, task.stage = .returned →
    s.phases task.claim = .settled true
  threw : ∀ i, ∀ task ∈ (s.queue.workers i).running, s.queue.Owns task → LastAttempt q task →
    ∀ retryAt, task.stage = .threw retryAt → s.phases task.claim = .settled false
  recorded : ∀ i, ∀ task ∈ (s.queue.workers i).running, s.queue.Owns task →
    ∀ returned, s.phases task.claim = .settled returned →
      statusOf s.runs task.row.id = some (if returned then .succeeded else .failed)

variable {q s} {i : ι}

omit [DecidableEq ι] in
/-- The owner of a row is at work on it: the row has no outcome. -/
theorem Tracks.not_outcome (h : s.Tracks q) {task : RunningTask}
    (htask : task ∈ (s.queue.workers i).running) (howns : s.queue.Owns task) {row : TaskRow}
    (hrow : row ∈ s.queue.tasks.rows) (hid : row.id = task.row.id) {ended : RunStatus} :
    ¬ Outcome q row ended := by
  intro houtcome
  obtain ⟨r, hr, hguard⟩ := h.owned i task htask howns
  have hsame : row = r := Table.eq_of_key hrow hr (hid.trans (guarded_iff.mp hguard).1.symm)
  subst hsame
  have hprocessing := (h.safe.of_guarded htask hr hguard).1
  cases houtcome with
  | succeeded hdone =>
    rw [hprocessing] at hdone
    cases hdone
  | failed hfailed =>
    rw [hprocessing] at hfailed
    cases hfailed

/-! ### The statements of `runRegisteredTask` -/

omit [DecidableEq ι] in
/-- What a statement that is kept leaves of the statuses that are on record. -/
theorem statusOf_onRecord (h : s.Tracks q) {task : RunningTask}
    (htask : task ∈ (s.queue.workers i).running) {m : Moment} {result : String}
    (hkept : ∀ status, q.records m task.row (s.phases task.claim) = some status →
      s.queue.Owns task ∨ statusOf s.runs task.row.id = some status ∨
        ¬ s.OnRecord q task.row.id)
    {id : String} (hrecord : s.OnRecord q id) (hother : id = task.row.id → ¬ s.queue.Owns task) :
    statusOf (q.runRegisteredTask m result task.row (s.phases task.claim) s.runs).2 id =
      statusOf s.runs id := by
  rw [runs_register fun hlinked => (h.linked i task htask hlinked).1]
  by_cases hid : id = task.row.id
  · subst hid
    rw [if_pos rfl]
    rcases hrecords : q.records m task.row (s.phases task.claim) with _ | status
    · rfl
    · rcases hkept status hrecords with howns | hsame | hnone
      · exact absurd howns (hother rfl)
      · rw [hsame]
        rfl
      · exact absurd hrecord hnone
  · rw [if_neg hid]

omit [DecidableEq ι] in
/-- A row with an outcome keeps its recorded status. -/
theorem statusOf_outcome (h : s.Tracks q) {task : RunningTask}
    (htask : task ∈ (s.queue.workers i).running) {m : Moment} {result : String}
    (hkept : ∀ status, q.records m task.row (s.phases task.claim) = some status →
      s.queue.Owns task ∨ statusOf s.runs task.row.id = some status ∨
        ¬ s.OnRecord q task.row.id)
    {row : TaskRow} (hrow : row ∈ s.queue.tasks.rows) {ended : RunStatus}
    (houtcome : Outcome q row ended) :
    statusOf (q.runRegisteredTask m result task.row (s.phases task.claim) s.runs).2 row.id =
      statusOf s.runs row.id := by
  refine statusOf_onRecord h htask hkept (Or.inl ⟨row, hrow, rfl, ended, houtcome⟩) ?_
  intro hid howns
  exact h.not_outcome htask howns hrow hid houtcome

omit [DecidableEq ι] in
/-- **A statement of `runRegisteredTask` that is kept** keeps the invariant. -/
theorem tracks_register (h : s.Tracks q) {n : ℕ} {m : Moment} {result : String}
    (hkept : s.StatusKept q (.register i n m result)) :
    (s.register q i n m result).Tracks q := by
  rw [register]
  rcases hn : (s.queue.workers i).running[n]? with _ | task
  · exact h
  by_cases hstage : task.stage = .handling
  swap
  · simp only [hstage, ↓reduceIte]
    exact h
  simp only [hstage, ↓reduceIte]
  have htask := List.mem_of_getElem? hn
  have hkept' : ∀ status, q.records m task.row (s.phases task.claim) = some status →
      s.queue.Owns task ∨ statusOf s.runs task.row.id = some status ∨
        ¬ s.OnRecord q task.row.id := fun status => hkept task status hn
  have hlinked := fun hlinked => (h.linked i task htask hlinked).1
  -- the phases: the statement moves the one of its own claim
  have hself : Function.update s.phases task.claim
      (q.runRegisteredTask m result task.row (s.phases task.claim) s.runs).1 task.claim =
        (q.runRegisteredTask m result task.row (s.phases task.claim) s.runs).1 :=
    Function.update_self ..
  have hsettled : ∀ claim returned, s.phases claim = .settled returned →
      Function.update s.phases task.claim
        (q.runRegisteredTask m result task.row (s.phases task.claim) s.runs).1 claim =
          .settled returned := by
    intro claim returned hphase
    by_cases hclaim : claim = task.claim
    · subst hclaim
      rw [hself, hphase]
      rfl
    · rw [Function.update_of_ne hclaim]
      exact hphase
  refine ⟨h.safe, fun row hrow ended houtcome => ?_, h.below, fun claim hclaim => ?_, h.sameRow,
    h.owned, fun j task' htask' hphase => ?_,
    fun j task' htask' hreturned => hsettled _ _ (h.returned j task' htask' hreturned),
    fun j task' htask' howns hlast retryAt hthrew =>
      hsettled _ _ (h.threw j task' htask' howns hlast retryAt hthrew),
    fun j task' htask' howns returned hphase => ?_⟩
  · exact (statusOf_outcome h htask hkept' hrow houtcome).trans (h.agrees row hrow ended houtcome)
  · have hne : claim ≠ task.claim := by
      have hbelow := h.below i task htask
      have hle : s.queue.steps ≤ claim := hclaim
      omega
    show Function.update s.phases task.claim _ claim = .started
    rw [Function.update_of_ne hne]
    exact h.fresh claim hclaim
  · change (Function.update s.phases task.claim _ task'.claim).isLinked = true at hphase
    show (statusOf _ task'.row.id).isSome = true ∧ _
    rw [runs_register hlinked]
    by_cases hclaim : task'.claim = task.claim
    · have hrow := h.sameRow i task htask j task' htask' hclaim
      rw [hrow, if_pos rfl]
      rw [hclaim, hself] at hphase
      rcases isLinked_register hphase with hbefore | ⟨hrecords, hparses⟩
      · obtain ⟨hsome, hparses⟩ := h.linked i task htask hbefore
        refine ⟨?_, hparses⟩
        rw [Option.isSome_or, hsome, Bool.or_true]
      · rw [hrecords]
        exact ⟨rfl, hparses⟩
    · rw [Function.update_of_ne hclaim] at hphase
      obtain ⟨hsome, hparses⟩ := h.linked j task' htask' hphase
      refine ⟨?_, hparses⟩
      split
      · rw [Option.isSome_or, hsome, Bool.or_true]
      · exact hsome
  · change Function.update s.phases task.claim _ task'.claim = .settled returned at hphase
    show statusOf _ task'.row.id = _
    by_cases hclaim : task'.claim = task.claim
    · have hrow := h.sameRow i task htask j task' htask' hclaim
      rw [hclaim, hself] at hphase
      rcases settled_register hphase with hbefore | hrecords
      · have hstatus := h.recorded j task' htask' howns returned (by rw [hclaim, hbefore])
        rw [hbefore]
        exact hstatus
      · rw [runs_register hlinked, hrow, if_pos rfl, hrecords]
        rfl
    · rw [Function.update_of_ne hclaim] at hphase
      refine (statusOf_onRecord h htask hkept'
        (Or.inr ⟨j, task', htask', rfl, howns, returned, hphase⟩) ?_).trans
          (h.recorded j task' htask' howns returned hphase)
      -- another claim owns the row
      intro hid hown
      rw [TaskState.Owns, hid] at howns
      exact hclaim (Option.some.inj (howns.symm.trans hown))

/-! ### The steps of the queue -/

/-- The condition of a step of an execution, once it is heeded. -/
def WorkKept (q : TaskQueue ι) (s : RunsState ι) (e : TaskEvent ι) : Prop :=
  ∀ i n m summary linkedRunId task, e = .work i n m summary linkedRunId →
    (s.queue.workers i).running[n]? = some task →
    (task.stage = .handling → m.returns = true → s.phases task.claim = .settled true) ∧
    (s.queue.Owns task → LastAttempt q task →
      (task.stage = .handling → s.phases task.claim = .settled false ∨
        s.phases task.claim = .settled true ∧ m.returns = true) ∧
      (task.stage = .returned → task.lost = true ∨ m.fault ≠ some .refused))

omit [DecidableEq ι] in
/-- **What is heeded is kept**: a task ends as its `runRegisteredTask` has. -/
theorem workKept_heed {e e' : TaskEvent ι} (hheed : s.heed e = some e')
    (hkept : s.StatusKept q (.queue e)) : WorkKept q s e' := by
  cases e with
  | work i n m summary linkedRunId =>
    rw [heed] at hheed
    rcases hn : (s.queue.workers i).running[n]? with _ | task
    · simp only [hn] at hheed
      obtain rfl := Option.some.inj hheed
      rintro _ _ _ _ _ task ⟨⟩ hn'
      rw [hn] at hn'
      cases hn'
    · simp only [hn] at hheed
      by_cases hstage : task.stage = .handling
      · simp only [hstage, ↓reduceIte] at hheed
        rcases hphase : s.phases task.claim with _ | _ | _ | _ | _ | returned | _
        · simp [hphase] at hheed
        · simp [hphase] at hheed
        · simp [hphase] at hheed
        · simp [hphase] at hheed
        · simp [hphase] at hheed
        · cases returned with
          | true =>
            simp only [hphase] at hheed
            obtain rfl := Option.some.inj hheed
            rintro _ _ _ _ _ task' ⟨⟩ hn'
            rw [hn] at hn'
            obtain rfl := Option.some.inj hn'
            refine ⟨fun _ _ => hphase, fun howns hlast => ?_⟩
            obtain ⟨hhandling, hreturned⟩ := hkept task hn howns hlast
            exact ⟨fun _ => Or.inr ⟨hphase, (hhandling hstage).2 hphase⟩, hreturned⟩
          | false =>
            simp only [hphase] at hheed
            obtain rfl := Option.some.inj hheed
            rintro _ _ _ _ _ task' ⟨⟩ hn'
            rw [hn] at hn'
            obtain rfl := Option.some.inj hn'
            refine ⟨fun _ hreturns => (by cases hreturns), fun howns hlast => ?_⟩
            exact ⟨fun _ => Or.inl hphase, (hkept task hn howns hlast).2⟩
        · simp only [hphase] at hheed
          obtain rfl := Option.some.inj hheed
          rintro _ _ _ _ _ task' ⟨⟩ hn'
          rw [hn] at hn'
          obtain rfl := Option.some.inj hn'
          refine ⟨fun _ hreturns => (by cases hreturns), fun howns hlast => ?_⟩
          exact absurd hphase ((hkept task hn howns hlast).1 hstage).1
      · simp only [hstage, ↓reduceIte] at hheed
        obtain rfl := Option.some.inj hheed
        rintro _ _ _ _ _ task' ⟨⟩ hn'
        rw [hn] at hn'
        obtain rfl := Option.some.inj hn'
        refine ⟨fun hhandling => absurd hhandling hstage, fun howns hlast => ?_⟩
        exact ⟨fun hhandling => absurd hhandling hstage, (hkept task hn howns hlast).2⟩
  | _ =>
    obtain rfl := Option.some.inj hheed
    rintro _ _ _ _ _ _ ⟨⟩

/-- The owner of a row after a step owned it, and the row has the version of the claim. -/
theorem owned_next (h : s.Tracks q) {e : TaskEvent ι} {task : RunningTask}
    (htask : task ∈ (s.queue.workers i).running) (howns : (s.queue.next q e).Owns task) :
    s.queue.Owns task ∧ versionOf (s.queue.next q e).tasks task.row.id =
      some (task.row.version + 1) := by
  obtain ⟨hbefore, hversion⟩ := owner_next (h.below i task htask) howns
  obtain ⟨r, hr, hguard⟩ := h.owned i task htask hbefore
  obtain ⟨hid, hrow⟩ := guarded_iff.mp hguard
  refine ⟨hbefore, hversion.trans ?_⟩
  rw [← hid, versionOf_eq hr, hrow]

omit [DecidableEq ι] in
/-- The mark of a success moves the version of its row on. -/
theorem version_markDone (h : s.Tracks q) {task : RunningTask}
    (htask : task ∈ (s.queue.workers i).running) (howns : s.queue.Owns task) (now : ℤ)
    (note : TaskColumns → TaskColumns) :
    versionOf (markDone task.row now note s.queue.tasks).2 task.row.id ≠
      some (task.row.version + 1) := by
  obtain ⟨r, hr, hguard⟩ := h.owned i task htask howns
  obtain ⟨hid, hversion⟩ := guarded_iff.mp hguard
  have hmarked : r.finished now note ∈ (markDone task.row now note s.queue.tasks).2.rows :=
    mem_executeAffected_of_pos hr hguard
  have hafter : versionOf (markDone task.row now note s.queue.tasks).2 task.row.id =
      some (r.version + 1) := by
    rw [← hid]
    exact versionOf_eq hmarked
  have hrow : r.version = task.row.version + 1 := hversion
  rw [hafter, hrow]
  intro heq
  have hsame := Option.some.inj heq
  omega

/-- **A step of the queue that is kept** keeps the invariant. -/
theorem tracks_queue (h : s.Tracks q) {e : TaskEvent ι} (hkept : WorkKept q s e) :
    Tracks q { s with queue := s.queue.next q e } := by
  have hsteps := steps_next (q := q) (s := s.queue) (e := e)
  refine ⟨TaskState.safe_next h.safe e, fun row hrow ended houtcome => ?_, fun j task' htask' => ?_,
    fun claim hclaim => ?_, fun j task' htask' j' task'' htask'' hclaim => ?_,
    fun j task' htask' howns => ?_, fun j task' htask' hphase => ?_,
    fun j task' htask' hreturned => ?_, fun j task' htask' howns hlast retryAt hthrew => ?_,
    fun j task' htask' howns returned hphase => ?_⟩
  · -- the outcome of a row
    rcases outcome_next h.safe hrow houtcome with ⟨r, hr, hid, hbefore⟩ |
      ⟨i, n, m, summary, linkedRunId, task, rfl, hn, hid, howner, hmark⟩
    · have hstatus := h.agrees r hr ended hbefore
      rw [hid] at hstatus
      exact hstatus
    · have htask := List.mem_of_getElem? hn
      rcases hmark with ⟨hreturned, rfl⟩ | ⟨⟨retryAt, hthrew⟩, rfl, hlast⟩
      · have hstatus := h.recorded i task htask howner true (h.returned i task htask hreturned)
        rw [hid] at hstatus
        exact hstatus
      · have hstatus := h.recorded i task htask howner false
          (h.threw i task htask howner hlast retryAt hthrew)
        rw [hid] at hstatus
        exact hstatus
  · show task'.claim < (s.queue.next q e).steps
    rcases running_next htask' with ⟨task, htask, -, hclaim, -⟩ | ⟨-, hclaim, -⟩
    · have hbelow := h.below j task htask
      omega
    · omega
  · have hclaim' : (s.queue.next q e).steps ≤ claim := hclaim
    exact h.fresh claim (by omega)
  · rcases running_next htask' with ⟨task, htask, hrow, hclaim', -⟩ |
      ⟨-, hclaim', m, row, n, rest, he, hphase, -, hrow⟩
    · have hbelow := h.below j task htask
      rcases running_next htask'' with ⟨task₂, htask₂, hrow₂, hclaim₂, -⟩ | ⟨-, hclaim₂, -⟩
      · rw [hrow, hrow₂]
        exact h.sameRow j task htask j' task₂ htask₂ (by omega)
      · omega
    · rcases running_next htask'' with ⟨task₂, htask₂, -, hclaim₂, -⟩ |
        ⟨-, -, m', row', n', rest', he', hphase', -, hrow'⟩
      · have hbelow := h.below j' task₂ htask₂
        omega
      · rw [he] at he'
        obtain ⟨rfl, -⟩ := TaskEvent.poll.inj he'
        rw [hphase] at hphase'
        obtain ⟨rfl, -⟩ := PollPhase.counted.inj hphase'
        rw [hrow, hrow']
  · show ∃ r ∈ (s.queue.next q e).tasks.rows, _
    rcases running_next htask' with ⟨task, htask, hrow, hclaim, -⟩ |
      ⟨-, hclaim, m, row, n, rest, rfl, hphase, hanswered, hrow⟩
    · have howns' : (s.queue.next q e).Owns task := by
        rw [TaskState.Owns, ← hrow, ← hclaim]
        exact howns
      obtain ⟨-, hversion⟩ := owned_next h htask howns'
      rw [hrow]
      rcases hfind : (s.queue.next q e).tasks.find? (fun r => decide (r.id = task.row.id)) with
        _ | r
      · have hnone : versionOf (s.queue.next q e).tasks task.row.id = none :=
          congrArg (Option.map QueueRow.version) hfind
        rw [hnone] at hversion
        cases hversion
      · have hsome : versionOf (s.queue.next q e).tasks task.row.id = some r.version :=
          congrArg (Option.map QueueRow.version) hfind
        rw [hsome] at hversion
        have hid : decide (r.id = task.row.id) = true :=
          (s.queue.next q e).tasks.prop_of_find? hfind
        exact ⟨r, (s.queue.next q e).tasks.mem_of_find? hfind, guarded_iff.mpr
          ⟨of_decide_eq_true hid, Option.some.inj hversion⟩⟩
    · -- the row has just been claimed
      have hmem : task' ∈ (q.poll j m s.queue.steps s.queue.tasks s.queue.gates
          (s.queue.workers j)).worker.running := by
        have hworker := htask'
        rw [TaskState.next, TaskState.workers_settle_self] at hworker
        exact hworker
      rcases (turns_poll m).running task' hmem with ⟨old, hold, -, hclaim'⟩ |
        ⟨-, -, now, hmatched, htasks⟩
      · have hbelow := h.below j old hold
        omega
      · obtain ⟨r, hr, hmatch⟩ := Table.count_pos hmatched
        have hguard := hmatch
        rw [Bool.and_eq_true] at hguard
        obtain ⟨hid, hversion⟩ := guarded_iff.mp hguard.1
        refine ⟨r.claimed now, ?_, guarded_iff.mpr ⟨hid, congrArg (· + 1) hversion⟩⟩
        show r.claimed now ∈ (q.poll j m s.queue.steps s.queue.tasks s.queue.gates
          (s.queue.workers j)).tasks.rows
        rw [htasks]
        exact mem_executeAffected_of_pos hr hmatch
  · rcases running_next htask' with ⟨task, htask, hrow, hclaim, -⟩ | ⟨-, hclaim, -⟩
    · rw [hclaim] at hphase
      rw [hrow]
      exact h.linked j task htask hphase
    · have hstarted := h.fresh task'.claim (by omega)
      rw [hstarted] at hphase
      cases hphase
  · show s.phases task'.claim = .settled true
    rcases running_next htask' with ⟨task, htask, hrow, hclaim, hstage⟩ | ⟨hhandling, -⟩
    · rw [hclaim]
      rcases hstage with hsame | ⟨n, m, summary, linkedRunId, he, hn, hmoved⟩
      · exact h.returned j task htask (hsame.symm.trans hreturned)
      · obtain ⟨hhandling, hreturns⟩ := runOne_returned (hmoved.symm.trans hreturned)
        exact (hkept j n m summary linkedRunId task he hn).1 hhandling hreturns
    · rw [hreturned] at hhandling
      cases hhandling
  · show s.phases task'.claim = .settled false
    rcases running_next htask' with ⟨task, htask, hrow, hclaim, hstage⟩ | ⟨hhandling, -⟩
    · have howns' : (s.queue.next q e).Owns task := by
        rw [TaskState.Owns, ← hrow, ← hclaim]
        exact howns
      have hlast' : LastAttempt q task := by
        rw [LastAttempt, ← hrow]
        exact hlast
      obtain ⟨hbefore, hversion⟩ := owned_next h htask howns'
      rw [hclaim]
      rcases hstage with hsame | ⟨n, m, summary, linkedRunId, he, hn, hmoved⟩
      · exact h.threw j task htask hbefore hlast' retryAt (hsame.symm.trans hthrew)
      · obtain ⟨hfree, hlastKept⟩ := hkept j n m summary linkedRunId task he hn
        obtain ⟨hhandlingKept, hreturnedKept⟩ := hlastKept hbefore hlast'
        rcases runOne_threw (hmoved.symm.trans hthrew) with ⟨hhandling, hthrows⟩ |
          ⟨hreturned, hheld, hfault⟩
        · rcases hhandlingKept hhandling with hfalse | ⟨htrue, hreturns⟩
          · exact hfalse
          · have hparses := (h.linked j task htask (by rw [htrue]; rfl)).2
            rw [hthrows hparses] at hreturns
            cases hreturns
        · -- the mark has taken effect, and its answer is lost
          have hunanswered : m.fault = some .unanswered := by
            have hnotRefused := (hreturnedKept hreturned).resolve_left (by simp [hheld])
            rcases hcase : m.fault with _ | fault
            · exact absurd hcase hfault
            · cases fault with
              | refused => exact absurd hcase hnotRefused
              | unanswered => rfl
          exfalso
          refine version_markDone h htask hbefore m.now
            (fun extra => { extra with error := none }) ?_
          subst he
          have htasks : (s.queue.next q (.work j n m summary linkedRunId)).tasks =
              (markDone task.row m.now (fun extra => { extra with error := none })
                s.queue.tasks).2 := by
            show (s.queue.work q j n m summary linkedRunId).tasks = _
            rw [TaskState.work, hn]
            show (q.runOne j m summary linkedRunId task s.queue.tasks).2 = _
            rw [TaskQueue.runOne]
            simp [hreturned, hheld, hunanswered, issue]
          rw [← htasks]
          exact hversion
    · rw [hthrew] at hhandling
      cases hhandling
  · show statusOf s.runs task'.row.id = _
    rcases running_next htask' with ⟨task, htask, hrow, hclaim, -⟩ | ⟨-, hclaim, -⟩
    · have howns' : (s.queue.next q e).Owns task := by
        rw [TaskState.Owns, ← hrow, ← hclaim]
        exact howns
      rw [hrow]
      refine h.recorded j task htask (owned_next h htask howns').1 returned ?_
      rw [← hclaim]
      exact hphase
    · have hstarted : s.phases task'.claim = .started := h.fresh task'.claim (by omega)
      have hphase' : s.phases task'.claim = .settled returned := hphase
      rw [hstarted] at hphase'
      cases hphase'

/-- **Every step that is kept** keeps the invariant. -/
theorem tracks_next (h : s.Tracks q) (e : RunsEvent ι) (hkept : s.StatusKept q e) :
    (s.next q e).Tracks q := by
  cases e with
  | queue e =>
    rw [next]
    rcases hheed : s.heed e with _ | e'
    · exact h
    · exact tracks_queue h (workKept_heed hheed hkept)
  | register i n m result => exact tracks_register h hkept

theorem outcomeFinal_next (h : s.Tracks q) (e : RunsEvent ι) (hkept : s.StatusKept q e) :
    s.OutcomeFinal q e := by
  intro row hrow ended houtcome
  cases e with
  | queue e =>
    rw [next]
    rcases s.heed e with _ | e'
    · rfl
    · rfl
  | register i n m result =>
    rw [next, register]
    rcases hn : (s.queue.workers i).running[n]? with _ | task
    · rfl
    · by_cases hstage : task.stage = .handling
      · simp only [hstage, ↓reduceIte]
        exact statusOf_outcome h (List.mem_of_getElem? hn)
          (fun status => hkept task status hn) hrow houtcome
      · simp only [hstage, ↓reduceIte]

end RunsState

/-- **The recorded runs over any number of workers.**  From workers that do nothing, in every run
whose steps are all kept, the recorded status of every row with an outcome is that outcome, and no
step changes it. -/
theorem run_status_agrees {ι : Type} [DecidableEq ι] {q : TaskQueue ι} {s : RunsState ι}
    {es : List (RunsEvent ι)} (hidle : ∀ i, s.queue.workers i = {}) (hlimited : s.queue.Limited q)
    (hphases : ∀ claim, s.phases claim = .started) (hagrees : s.Agrees q)
    (hkept : Along (RunsState.next q) (RunsState.StatusKept q) s es) :
    Throughout (RunsState.next q) (RunsState.Agrees q) s es ∧
      Along (RunsState.next q) (RunsState.OutcomeFinal q) s es := by
  have hnone : ∀ i, ∀ task ∈ (s.queue.workers i).running, False := by
    intro i task htask
    rw [hidle i] at htask
    cases htask
  have hstart : s.Tracks q :=
    { safe := TaskState.safe_of_idle hidle hlimited
      agrees := hagrees
      below := fun i task htask => (hnone i task htask).elim
      fresh := fun claim _ => hphases claim
      sameRow := fun i task htask => (hnone i task htask).elim
      owned := fun i task htask => (hnone i task htask).elim
      linked := fun i task htask => (hnone i task htask).elim
      returned := fun i task htask => (hnone i task htask).elim
      threw := fun i task htask => (hnone i task htask).elim
      recorded := fun i task htask => (hnone i task htask).elim }
  have hstep : ∀ (s : RunsState ι) (e : RunsEvent ι), s.Tracks q → s.StatusKept q e →
      (s.next q e).Tracks q := fun s e h hkept => RunsState.tracks_next h e hkept
  exact ⟨(throughout_of_step hstep hstart hkept).imp fun s h => h.agrees,
    (along_and_of_step hstep hstart hkept).imp fun s e h =>
      RunsState.outcomeFinal_next h.1 e h.2⟩

/-! ### A lost claim that ends late -/

def sampleRuns : RunsState Bool where
  queue := sampleWorkers
  runs := .empty
  phases _ := .started

/-- A worker claims the row, and runs its task up to the given number of statements. -/
def claimAndRun (i : Bool) (now : ℤ) (statements : ℕ) : List (RunsEvent Bool) :=
  List.replicate 5 (.queue (.poll i { polled := now, now })) ++
    List.replicate statements (.register i 0 { polled := now, now } "{}")

/-- The task of a worker returns, and its row is marked. -/
def markRow (i : Bool) (now : ℤ) : List (RunsEvent Bool) :=
  List.replicate 2 (.queue (.work i 0 { polled := now, now } "" none))

def oneRow : RunsEvent Bool := .queue (.enqueue "t1" "run-coder" "{}" 0)

/-- The claim of the first worker goes stale while its task is at work; the second worker claims the
row and succeeds; then the task of the first throws. -/
def lateFailure : List (RunsEvent Bool) :=
  [oneRow] ++ claimAndRun false 1000 2 ++ claimAndRun true 400000 4 ++ markRow true 400000 ++
    List.replicate 2 (.register false 0 { polled := 400001, now := 400001, returns := false } "")

/-- **The status of a succeeded row is `failed`.** -/
theorem not_agrees_lateFailure :
    ¬ Throughout (RunsState.next sampleTasks) (RunsState.Agrees sampleTasks) sampleRuns
      lateFailure := by
  intro hall
  have hlast := hall.last
  have hrow : ∃ row ∈ (run (RunsState.next sampleTasks) sampleRuns
      lateFailure).queue.tasks.rows, row.id = "t1" ∧ row.status = .done := by
    decide +kernel
  have hstatus : statusOf (run (RunsState.next sampleTasks) sampleRuns lateFailure).runs "t1" =
      some .failed := by
    decide +kernel
  obtain ⟨row, hmem, hid, hdone⟩ := hrow
  have hsucceeded := hlast row hmem .succeeded (.succeeded hdone)
  rw [hid, hstatus] at hsucceeded
  cases hsucceeded

/-- No statement fails, no claim is lost, and every task returns. -/
def RunsState.Undisturbed {ι : Type} (s : RunsState ι) : RunsEvent ι → Prop
  | .register i n _ _ => ∀ task ∈ (s.queue.workers i).running[n]?,
    s.queue.claimedBy task.row.id = some task.claim
  | .queue (.work i n m _ _) => m.fault = none ∧ m.returns = true ∧
    ∀ task ∈ (s.queue.workers i).running[n]?, s.phases task.claim ≠ .rejected
  | _ => True

instance {ι : Type} (s : RunsState ι) (e : RunsEvent ι) : Decidable (s.Undisturbed e) := by
  unfold RunsState.Undisturbed
  split <;> infer_instance

theorem statusKept_of_undisturbed {ι : Type} {q : TaskQueue ι} {s : RunsState ι}
    {e : RunsEvent ι} (h : s.Undisturbed e) : s.StatusKept q e := by
  cases e with
  | register i n m result => exact fun task status hn _ => Or.inl (h task hn)
  | queue e =>
    cases e with
    | work i n m summary linkedRunId =>
      obtain ⟨hfault, hreturns, hphase⟩ := h
      refine fun task hn _ _ => ⟨fun _ => ⟨hphase task hn, fun _ => hreturns⟩, fun _ => Or.inr ?_⟩
      rw [hfault]
      exact fun hrefused => by cases hrefused
    | _ => trivial

theorem run_status_agrees_markRow :
    Throughout (RunsState.next sampleTasks) (RunsState.Agrees sampleTasks) sampleRuns
        ([oneRow] ++ claimAndRun false 1000 4 ++ markRow false 1000) ∧
      Along (RunsState.next sampleTasks) (RunsState.OutcomeFinal sampleTasks) sampleRuns
        ([oneRow] ++ claimAndRun false 1000 4 ++ markRow false 1000) ∧
      statusOf (run (RunsState.next sampleTasks) sampleRuns
        ([oneRow] ++ claimAndRun false 1000 4 ++ markRow false 1000)).runs "t1" =
        some .succeeded := by
  have hundisturbed : Along (RunsState.next sampleTasks) RunsState.Undisturbed sampleRuns
      ([oneRow] ++ claimAndRun false 1000 4 ++ markRow false 1000) := by
    decide +kernel
  have hagrees := run_status_agrees (q := sampleTasks) (s := sampleRuns) (fun _ => rfl)
    (fun task limit _ => Nat.zero_le limit) (fun _ => rfl) (fun row hrow => by cases hrow)
    (hundisturbed.imp fun s e h => statusKept_of_undisturbed h)
  exact ⟨hagrees.1, hagrees.2, by decide +kernel⟩

end MiniCoder
