import MiniCoder.Queue.InFlight
import MiniCoder.Queue.Selection

/-!
# What one round of a worker claims

`pollAndDispatch` takes the `batchSize` oldest due rows before it looks at the tasks they belong to,
and then leaves out the rows of tasks at their limit: such a row has used up a place of the batch.
Here one worker polls and nobody else moves.

* `Claiming`: what holds while the worker goes through its batch, and `claiming_poll`, its step lemma.
* `kinds_claimed`: **what is claimed of each task**, the rows of the batch or the places left,
  whichever are fewer.
* `round_ends`: the worker gets to the end of its batch.
* `serves_iff`: when a round claims a row of every eligible task, or a full batch.
-/

open Storage Runs

namespace MiniCoder

variable {ι : Type} [DecidableEq ι]

/-! ### Rounds -/

/-- Polls of one worker with no failure and nobody else at work. -/
def TaskState.polls (q : TaskQueue ι) (i : ι) (s : TaskState ι) (ms : List Moment) : TaskState ι :=
  run (TaskState.next q) s (ms.map (TaskEvent.poll i))

/-- The polls take a worker to the end of its batch, and no further. -/
structure BatchDone (q : TaskQueue ι) (i : ι) (s : TaskState ι) (ms : List Moment) : Prop where
  answered : ∀ m ∈ ms, m.fault = none
  more : Along (TaskState.next q) (fun s _ => (s.workers i).phase ≠ .batch []) s
    (ms.map (TaskEvent.poll i))
  done : ((s.polls q i ms).workers i).phase = .batch []

/-- The places that a task has left: below its limit, for the counter of the worker and for the
`processing` rows. -/
def TaskState.room (q : TaskQueue ι) (i : ι) (s : TaskState ι) (task : String) : ℕ :=
  match q.limit task with
  | none => 0
  | some limit => limit -
      max (((s.workers i).inFlight task).getD 0).toNat (s.tasks.count (isProcessing task))

/-- A bound on the polls that are left. -/
def PollPhase.left : PollPhase → ℕ
  | batch rows => 3 * rows.length
  | claiming _ _ _ rest => 3 * rest.length + 2
  | counted _ _ rest => 3 * rest.length + 1
  | _ => 0

/-- How many of the rows belong to a task. -/
def ofTask (task : String) (rows : List TaskRow) : ℕ := rows.countP fun row => row.kind == task

/-- The worker goes through its batch: the rows that are left are as they were selected, nobody holds
another gate, and the counter it has read is the present one. -/
structure Claiming (q : TaskQueue ι) (i : ι) (s : TaskState ι) : Prop where
  going : (s.workers i).phase ≠ .idle ∧ (s.workers i).phase ≠ .recovered
  rows : ∀ row ∈ (s.workers i).phase.toClaim, row ∈ s.tasks.rows ∧ row.isOpen = true
  distinct : (s.workers i).phase.toClaim.Pairwise fun row row' => row.id ≠ row'.id
  free : ∀ task, (∀ row n rest, (s.workers i).phase = .counted row n rest → row.kind ≠ task) →
    s.gates task = none
  claiming : ∀ row limit n rest, (s.workers i).phase = .claiming row limit n rest →
    q.limit row.kind = some limit ∧ n = ((s.workers i).inFlight row.kind).getD 0 ∧ n < limit
  counted : ∀ row n rest, (s.workers i).phase = .counted row n rest →
    n = ((s.workers i).inFlight row.kind).getD 0 ∧ 0 < s.room q i row.kind

section Round

variable {q : TaskQueue ι} {s : TaskState ι} {i : ι} {m : Moment}

/-- The state after a poll. -/
theorem poll_eq : s.next q (.poll i m) = s.settle i (s.workers i).phase.claims
    (q.poll i m s.steps s.tasks s.gates (s.workers i)) := rfl

omit [DecidableEq ι] in
/-- A row by its id and version. -/
theorem eq_of_guarded {row r : TaskRow} (hrow : row ∈ s.tasks.rows) (hr : r ∈ s.tasks.rows)
    (h : guarded row.id row.version r = true) : r = row :=
  Table.eq_of_key hr hrow (guarded_iff.mp h).1

omit [DecidableEq ι] in
/-- An update of one row leaves the rows of other ids. -/
theorem mem_update_other {row r : TaskRow} {p : TaskRow → Bool} {f : TaskRow → TaskRow}
    {hf : KeyFree f} (hp : ∀ r, p r = true → guarded row.id row.version r = true)
    (hr : r ∈ s.tasks.rows) (hid : row.id ≠ r.id) : r ∈ (executeAffected p f hf s.tasks).2.rows := by
  refine mem_executeAffected_of_neg hr (Bool.eq_false_iff.mpr fun hmatch => ?_)
  exact hid (guarded_iff.mp (hp r hmatch)).1.symm

/-- What one poll claims, with what it leaves to claim. -/
structure Claims (q : TaskQueue ι) (i : ι) (s s' : TaskState ι) (new : List RunningTask) :
    Prop where
  running : (s'.workers i).running = (s.workers i).running ++ new
  kinds : ∀ task, new.countP (fun running => running.row.kind == task) +
      min (ofTask task (s'.workers i).phase.toClaim) (s'.room q i task) =
    min (ofTask task (s.workers i).phase.toClaim) (s.room q i task)
  fewer : (s'.workers i).phase.left < (s.workers i).phase.left

/-- A row is passed over, and no place is taken. -/
theorem claiming_skip (h : Claiming q i s) {row : TaskRow} {rest : List TaskRow} {t : Table TaskRow}
    (hrows : (s.workers i).phase.toClaim = row :: rest)
    (hcount : ∀ task, t.count (isProcessing task) = s.tasks.count (isProcessing task))
    (hkept : ∀ r ∈ rest, r ∈ t.rows) (hfree : ∀ task, s.gates task = none)
    (hroom : s.room q i row.kind = 0) (hleft : 3 * rest.length < (s.workers i).phase.left)
    (claiming : Option TaskRow) :
    Claiming q i (s.settle i claiming ⟨{ s.workers i with phase := .batch rest }, t, s.gates⟩) ∧
      Claims q i s
        (s.settle i claiming ⟨{ s.workers i with phase := .batch rest }, t, s.gates⟩) [] := by
  have hrooms : ∀ task, (s.settle i claiming
      ⟨{ s.workers i with phase := .batch rest }, t, s.gates⟩).room q i task =
      s.room q i task := by
    intro task
    rw [TaskState.room, TaskState.room, TaskState.workers_settle_self]
    show (match q.limit task with
      | none => 0
      | some limit => limit - max _ (t.count (isProcessing task))) = _
    rw [hcount]
  have hdistinct := h.distinct
  rw [hrows, List.pairwise_cons] at hdistinct
  refine ⟨⟨?_, fun r hr => ?_, ?_, fun task _ => hfree task, ?_, ?_⟩, ?_, fun task => ?_, ?_⟩
  · rw [TaskState.workers_settle_self]
    exact ⟨by simp, by simp⟩
  · rw [TaskState.workers_settle_self] at hr
    exact ⟨hkept r hr, (h.rows r (hrows ▸ List.mem_cons_of_mem row hr)).2⟩
  · rw [TaskState.workers_settle_self]
    exact hdistinct.2
  · rw [TaskState.workers_settle_self]
    simp
  · rw [TaskState.workers_settle_self]
    simp
  · rw [TaskState.workers_settle_self, List.append_nil]
  · rw [TaskState.workers_settle_self, hrooms, hrows, ofTask, ofTask, PollPhase.toClaim,
      List.countP_cons, List.countP_nil]
    by_cases hkind : row.kind = task
    · subst hkind
      omega
    · simp [hkind]
  · rw [TaskState.workers_settle_self]
    exact hleft

omit [DecidableEq ι] in
theorem room_eq {task : String} {limit : ℕ} (hlimit : q.limit task = some limit) :
    s.room q i task = limit - max (((s.workers i).inFlight task).getD 0).toNat
      (s.tasks.count (isProcessing task)) := by
  rw [TaskState.room, hlimit]

omit [DecidableEq ι] in
/-- No statement but a claim changes what is at work. -/
theorem count_pushBack {row : TaskRow} (hrow : row ∈ s.tasks.rows) (nextRetryAt now : ℤ)
    (task : String) : (pushBack row nextRetryAt now s.tasks).2.count (isProcessing task) =
      s.tasks.count (isProcessing task) := by
  have hself : guarded row.id row.version row = true := guarded_iff.mpr ⟨rfl, rfl⟩
  have hkeys : KeyFree (QueueRow.pushedBack (α := TaskColumns) nextRetryAt now) := fun _ _ => rfl
  have hcount : (s.tasks.update (guarded row.id row.version)
      (QueueRow.pushedBack nextRetryAt now) hkeys).count (isProcessing task) +
      (if isProcessing task row then 1 else 0) = s.tasks.count (isProcessing task) +
        if isProcessing task row then 1 else 0 :=
    Table.count_update_one hrow hself fun r hr hmatch => eq_of_guarded hrow hr hmatch
  exact Nat.add_right_cancel hcount

omit [DecidableEq ι] in
/-- A claim adds its row to what is at work. -/
theorem count_claimRow {row : TaskRow} (hrow : row ∈ s.tasks.rows) (hopen : row.isOpen = true)
    (now : ℤ) (task : String) : (claimRow row now s.tasks).2.count (isProcessing task) =
      s.tasks.count (isProcessing task) + if row.kind = task then 1 else 0 := by
  have hself : (guarded row.id row.version row && row.isOpen) = true := by
    rw [hopen, Bool.and_true]
    exact guarded_iff.mpr ⟨rfl, rfl⟩
  have hidle : isProcessing task row = false := by
    rw [QueueRow.isOpen] at hopen
    rw [isProcessing]
    rcases hstatus : row.status with _ | _ | _ | _
    · rfl
    · rw [hstatus] at hopen
      cases hopen
    · rfl
    · rfl
  have hkeys : KeyFree (QueueRow.claimed (α := TaskColumns) now) := fun _ _ => rfl
  have hcount : (s.tasks.update (fun r => guarded row.id row.version r && r.isOpen)
      (QueueRow.claimed now) hkeys).count (isProcessing task) +
      (if isProcessing task row then 1 else 0) = s.tasks.count (isProcessing task) +
        if isProcessing task (row.claimed now) then 1 else 0 := by
    refine Table.count_update_one hrow hself fun r hr hmatch => ?_
    rw [Bool.and_eq_true] at hmatch
    exact eq_of_guarded hrow hr hmatch.1
  have hclaimed : isProcessing task (row.claimed now) = decide (row.kind = task) := by
    show (true && row.kind == task) = _
    rw [Bool.true_and]
    rfl
  rw [hidle, hclaimed] at hcount
  simpa [claimRow, executeAffected] using hcount

/-- The worker moves on with the same row. -/
theorem claiming_stay (h : Claiming q i s) {phase : PollPhase} {gates : String → Option ι}
    (hrows : phase.toClaim = (s.workers i).phase.toClaim)
    (hgoing : phase ≠ .idle ∧ phase ≠ .recovered)
    (hfree : ∀ task, (∀ row n rest, phase = .counted row n rest → row.kind ≠ task) →
      gates task = none)
    (hclaiming : ∀ row limit n rest, phase = .claiming row limit n rest →
      q.limit row.kind = some limit ∧ n = ((s.workers i).inFlight row.kind).getD 0 ∧ n < limit)
    (hcounted : ∀ row n rest, phase = .counted row n rest →
      n = ((s.workers i).inFlight row.kind).getD 0 ∧ 0 < s.room q i row.kind)
    (hleft : phase.left < (s.workers i).phase.left) {claiming : Option TaskRow} :
    Claiming q i (s.settle i claiming ⟨{ s.workers i with phase }, s.tasks, gates⟩) ∧
      Claims q i s (s.settle i claiming ⟨{ s.workers i with phase }, s.tasks, gates⟩) [] := by
  have hrooms : ∀ task, (s.settle i claiming
      ⟨{ s.workers i with phase }, s.tasks, gates⟩).room q i task = s.room q i task := by
    intro task
    rw [TaskState.room, TaskState.room, TaskState.workers_settle_self]
    rfl
  refine ⟨⟨?_, ?_, ?_, ?_, ?_, ?_⟩, ?_, fun task => ?_, ?_⟩
  · rw [TaskState.workers_settle_self]
    exact hgoing
  · rw [TaskState.workers_settle_self]
    exact fun row hrow => h.rows row (hrows ▸ hrow)
  · rw [TaskState.workers_settle_self]
    exact hrows.symm ▸ h.distinct
  · rw [TaskState.workers_settle_self]
    exact hfree
  · rw [TaskState.workers_settle_self]
    exact hclaiming
  · rw [TaskState.workers_settle_self]
    intro row n rest hphase
    rw [hrooms]
    exact hcounted row n rest hphase
  · rw [TaskState.workers_settle_self, List.append_nil]
  · rw [TaskState.workers_settle_self, hrooms, hrows, List.countP_nil, Nat.zero_add]
  · rw [TaskState.workers_settle_self]
    exact hleft

/-- The row is claimed, and takes a place. -/
theorem claiming_claim (h : Claiming q i s) {row : TaskRow} {n : ℤ} {rest : List TaskRow}
    (hphase : (s.workers i).phase = .counted row n rest) (hrow : row ∈ s.tasks.rows)
    (hopen : row.isOpen = true) (hread : n = ((s.workers i).inFlight row.kind).getD 0) {limit : ℕ}
    (hlimit : q.limit row.kind = some limit) (hroom : 0 < s.room q i row.kind)
    (hdistinct : ∀ r ∈ rest, row.id ≠ r.id) {claiming : Option TaskRow} {now : ℤ}
    {claim : ℕ} :
    let turn : Turn ι :=
      ⟨{ phase := .batch rest
         running := (s.workers i).running ++ [{ claim, row }]
         inFlight := Function.update (s.workers i).inFlight row.kind (some (n + 1)) },
        (claimRow row now s.tasks).2, Function.update s.gates row.kind none⟩
    Claiming q i (s.settle i claiming turn) ∧
      Claims q i s (s.settle i claiming turn) [{ claim, row }] := by
  intro turn
  have hrows : (s.workers i).phase.toClaim = row :: rest := by
    rw [hphase]
    rfl
  have hpairwise := h.distinct
  rw [hrows, List.pairwise_cons] at hpairwise
  refine ⟨⟨?_, ?_, ?_, ?_, ?_, ?_⟩, ?_, fun task => ?_, ?_⟩
  · rw [TaskState.workers_settle_self]
    exact ⟨by simp [turn], by simp [turn]⟩
  · rw [TaskState.workers_settle_self]
    intro r hr
    obtain ⟨hmem, hrOpen⟩ := h.rows r (hrows ▸ List.mem_cons_of_mem row hr)
    have hkeys : KeyFree (QueueRow.claimed (α := TaskColumns) now) := fun _ _ => rfl
    have hguard : ∀ r' : TaskRow, (guarded row.id row.version r' && r'.isOpen) = true →
        guarded row.id row.version r' = true := by
      intro r' hmatch
      rw [Bool.and_eq_true] at hmatch
      exact hmatch.1
    have hkept : r ∈ (executeAffected (fun r' => guarded row.id row.version r' && r'.isOpen)
        (QueueRow.claimed now) hkeys s.tasks).2.rows :=
      mem_update_other hguard hmem (hdistinct r hr)
    exact ⟨hkept, hrOpen⟩
  · rw [TaskState.workers_settle_self]
    exact hpairwise.2
  · intro task _
    show Function.update s.gates row.kind none task = none
    by_cases hkind : task = row.kind
    · rw [hkind, Function.update_self]
    · rw [Function.update_of_ne hkind]
      refine h.free task fun row' n' rest' hcounted => ?_
      rw [hphase] at hcounted
      obtain ⟨rfl, -, -⟩ := PollPhase.counted.inj hcounted
      exact Ne.symm hkind
  · rw [TaskState.workers_settle_self]
    simp [turn]
  · rw [TaskState.workers_settle_self]
    simp [turn]
  · rw [TaskState.workers_settle_self]
  · have hcount := count_claimRow hrow hopen now task
    rw [TaskState.workers_settle_self, hrows, ofTask, ofTask, List.countP_singleton]
    show (if row.kind == task then 1 else 0) + min (rest.countP _) _ = min ((row :: rest).countP _) _
    rw [List.countP_cons]
    by_cases hkind : row.kind = task
    · subst hkind
      have hafter : (s.settle i claiming turn).room q i row.kind + 1 = s.room q i row.kind := by
        rw [room_eq hlimit] at hroom ⊢
        rw [room_eq hlimit, TaskState.workers_settle_self]
        show limit - max (((Function.update (s.workers i).inFlight row.kind (some (n + 1)))
          row.kind).getD 0).toNat ((claimRow row now s.tasks).2.count _) + 1 = _
        rw [Function.update_self, hcount, if_pos rfl, Option.getD_some, hread]
        omega
      simp only [BEq.rfl, if_true]
      omega
    · have hafter : (s.settle i claiming turn).room q i task = s.room q i task := by
        rw [TaskState.room, TaskState.room, TaskState.workers_settle_self]
        show (match q.limit task with
          | none => 0
          | some limit => limit - max (((Function.update (s.workers i).inFlight row.kind
            (some (n + 1))) task).getD 0).toNat ((claimRow row now s.tasks).2.count _)) = _
        rw [Function.update_of_ne (Ne.symm hkind), hcount, if_neg hkind, Nat.add_zero]
      rw [hafter]
      simp [hkind]
  · rw [TaskState.workers_settle_self, hphase]
    exact Nat.lt_succ_self _

/-- **One poll** of a worker that goes through its batch. -/
theorem claiming_poll (h : Claiming q i s) (hfault : m.fault = none)
    (hmore : (s.workers i).phase ≠ .batch []) :
    ∃ new, Claiming q i (s.next q (.poll i m)) ∧ Claims q i s (s.next q (.poll i m)) new := by
  rw [poll_eq]
  rcases hphase : (s.workers i).phase with _ | _ | rows | ⟨row, limit, n, rest⟩ | ⟨row, n, rest⟩
  · exact absurd hphase h.going.1
  · exact absurd hphase h.going.2
  · have hfree : ∀ task, s.gates task = none := by
      intro task
      refine h.free task fun row n rest hcounted => ?_
      rw [hphase] at hcounted
      cases hcounted
    rcases rows with _ | ⟨row, rest⟩
    · exact absurd hphase hmore
    have hrows : (s.workers i).phase.toClaim = row :: rest := by
      rw [hphase]
      rfl
    have hrow := h.rows row (hrows ▸ List.mem_cons_self)
    have hdistinct := h.distinct
    rw [hrows, List.pairwise_cons] at hdistinct
    have hrest : ∀ r ∈ rest, r ∈ s.tasks.rows := fun r hr =>
      (h.rows r (hrows ▸ List.mem_cons_of_mem row hr)).1
    have hleft : 3 * rest.length < (s.workers i).phase.left := by
      rw [hphase, PollPhase.left, List.length_cons]
      omega
    rcases hlimit : q.limit row.kind with _ | limit
    · -- the row is put off
      have hroom : s.room q i row.kind = 0 := by
        rw [TaskState.room, hlimit]
      have hskip := claiming_skip (t := (pushBack row
        (m.polled + (q.options i).maxBackoffMs) m.now s.tasks).2) h hrows
        (count_pushBack hrow.1 _ _) (fun r hr => mem_update_other (fun _ hmatch => hmatch)
          (hrest r hr) (hdistinct.1 r hr)) hfree hroom hleft none
      refine ⟨[], ?_⟩
      simp only [TaskQueue.poll, hphase, hlimit, hfault, issue]
      exact hskip
    · by_cases hfull : (limit : ℤ) ≤ ((s.workers i).inFlight row.kind).getD 0
      · have hroom : s.room q i row.kind = 0 := by
          rw [room_eq hlimit]
          omega
        refine ⟨[], ?_⟩
        simp only [TaskQueue.poll, hphase, hlimit, hfull, ↓reduceIte]
        exact claiming_skip h hrows (fun _ => rfl) hrest hfree hroom hleft _
      · refine ⟨[], ?_⟩
        simp only [TaskQueue.poll, hphase, hlimit, hfull, ↓reduceIte]
        refine claiming_stay h (by rw [hphase]; rfl) (by simp) (fun task _ => hfree task) ?_ ?_ ?_
        · rintro _ _ _ _ ⟨⟩
          exact ⟨hlimit, rfl, by omega⟩
        · rintro _ _ _ ⟨⟩
        · rw [hphase, PollPhase.left, PollPhase.left, List.length_cons]
          omega
  · have hfree : ∀ task, s.gates task = none := by
      intro task
      refine h.free task fun row n rest hcounted => ?_
      rw [hphase] at hcounted
      cases hcounted
    obtain ⟨hlimit, hread, hbelow⟩ := h.claiming row limit n rest hphase
    have hrows : (s.workers i).phase.toClaim = row :: rest := by
      rw [hphase]
      rfl
    have hrest : ∀ r ∈ rest, r ∈ s.tasks.rows := fun r hr =>
      (h.rows r (hrows ▸ List.mem_cons_of_mem row hr)).1
    refine ⟨[], ?_⟩
    by_cases hfull : limit ≤ s.tasks.count (isProcessing row.kind)
    · have hroom : s.room q i row.kind = 0 := by
        rw [room_eq hlimit]
        omega
      simp only [TaskQueue.poll, hphase, hfree, Option.isSome_none, Bool.false_eq_true, ↓reduceIte,
        hfault, hfull]
      refine claiming_skip h hrows (fun _ => rfl) hrest hfree hroom ?_ _
      rw [hphase, PollPhase.left]
      omega
    · simp only [TaskQueue.poll, hphase, hfree, Option.isSome_none, Bool.false_eq_true, ↓reduceIte,
        hfault, hfull]
      refine claiming_stay h (by rw [hphase]; rfl) (by simp) (fun task hother => ?_) ?_ ?_ ?_
      · rw [Function.update_of_ne (Ne.symm (hother row n rest rfl))]
        exact hfree task
      · rintro _ _ _ _ ⟨⟩
      · rintro _ _ _ ⟨⟩
        refine ⟨hread, ?_⟩
        rw [room_eq hlimit]
        omega
      · rw [hphase, PollPhase.left, PollPhase.left]
        omega
  · -- the claim matches: the row is as it was selected
    have hrows : (s.workers i).phase.toClaim = row :: rest := by
      rw [hphase]
      rfl
    obtain ⟨hrow, hopen⟩ := h.rows row (hrows ▸ List.mem_cons_self)
    obtain ⟨hread, hroom⟩ := h.counted row n rest hphase
    have hdistinct := h.distinct
    rw [hrows, List.pairwise_cons] at hdistinct
    obtain ⟨limit, hlimit⟩ : ∃ limit, q.limit row.kind = some limit := by
      rcases hlimit : q.limit row.kind with _ | limit
      · rw [TaskState.room, hlimit] at hroom
        cases hroom
      · exact ⟨limit, rfl⟩
    have hmatched : (claimRow row m.now s.tasks).1 ≠ 0 := by
      intro hzero
      have hself : guarded row.id row.version row = true := guarded_iff.mpr ⟨rfl, rfl⟩
      have hmiss := Table.count_eq_zero.mp hzero row hrow
      rw [hopen, Bool.and_true, hself] at hmiss
      cases hmiss
    obtain ⟨affected, haffected⟩ := Nat.exists_eq_succ_of_ne_zero hmatched
    have hanswer : (issue m.fault s.tasks (claimRow row m.now)).1 = some (affected + 1) := by
      rw [hfault]
      exact congrArg some haffected
    have htable : (issue m.fault s.tasks (claimRow row m.now)).2 =
        (claimRow row m.now s.tasks).2 := by
      rw [hfault]
      rfl
    refine ⟨[{ claim := s.steps, row }], ?_⟩
    simp only [TaskQueue.poll, hphase, hanswer, htable]
    exact claiming_claim h hphase hrow hopen hread hlimit hroom hdistinct.1

/-! ### The end of a batch -/

theorem polls_cons (m : Moment) (ms : List Moment) :
    s.polls q i (m :: ms) = (s.next q (.poll i m)).polls q i ms := rfl

/-- **What is claimed of each task**: its rows in the batch, as far as there are places. -/
theorem kinds_claimed {ms : List Moment} (h : Claiming q i s) (hdone : BatchDone q i s ms) :
    ∃ new, ((s.polls q i ms).workers i).running = (s.workers i).running ++ new ∧
      ∀ task, new.countP (fun running => running.row.kind == task) =
        min (ofTask task (s.workers i).phase.toClaim) (s.room q i task) := by
  induction ms generalizing s with
  | nil =>
    have hphase : (s.workers i).phase = .batch [] := hdone.done
    refine ⟨[], (List.append_nil _).symm, fun task => ?_⟩
    rw [hphase, PollPhase.toClaim, ofTask, List.countP_nil, List.countP_nil, Nat.zero_min]
  | cons m ms ih =>
    obtain ⟨new, hclaiming, hclaims⟩ :=
      claiming_poll h (hdone.answered m List.mem_cons_self) hdone.more.1
    obtain ⟨new', hrunning, hkinds⟩ := ih hclaiming
      ⟨fun m' hm' => hdone.answered m' (List.mem_cons_of_mem m hm'), hdone.more.2, hdone.done⟩
    refine ⟨new ++ new', ?_, fun task => ?_⟩
    · rw [polls_cons, hrunning, hclaims.running, List.append_assoc]
    · rw [List.countP_append, hkinds]
      exact hclaims.kinds task

/-- **The worker gets to the end of its batch**: some number of polls takes it there. -/
theorem round_ends (h : Claiming q i s) (hfault : m.fault = none) :
    ∃ n, BatchDone q i s (List.replicate n m) := by
  induction hleft : (s.workers i).phase.left using Nat.strong_induction_on generalizing s with
  | _ left ih =>
    by_cases hphase : (s.workers i).phase = .batch []
    · refine ⟨0, fun m' hm' => ?_, trivial, hphase⟩
      cases hm'
    · obtain ⟨new, hclaiming, hclaims⟩ := claiming_poll h hfault hphase
      obtain ⟨n, hdone⟩ := ih _ (hleft ▸ hclaims.fewer) hclaiming rfl
      refine ⟨n + 1, fun m' hm' => ?_, ⟨hphase, hdone.more⟩, hdone.done⟩
      rw [List.eq_of_mem_replicate hm']
      exact hfault

/-! ### A round -/

/-- The batch of a round: the oldest due rows, once stale claims have been recovered. -/
def TaskState.batch (q : TaskQueue ι) (i : ι) (s : TaskState ι) (now : ℤ) : List TaskRow :=
  selectDue s.tasks (QueueRow.isDue (q.options i).maxAttempts now) (q.options i).batchSize

/-- A task with a due row and a place left. -/
def TaskState.Eligible (q : TaskQueue ι) (i : ι) (s : TaskState ι) (now : ℤ) (task : String) :
    Prop :=
  0 < s.room q i task ∧
    ∃ row ∈ s.tasks.rows, row.kind = task ∧ row.isDue (q.options i).maxAttempts now = true

/-- What has been claimed since `s`. -/
def TaskState.claimedSince (i : ι) (s s' : TaskState ι) : List RunningTask :=
  (s'.workers i).running.drop (s.workers i).running.length

/-- The round claims a row of every eligible task, or a full batch. -/
def Serves (q : TaskQueue ι) (i : ι) (recovered : TaskState ι) (now : ℤ)
    (claimed : List RunningTask) : Prop :=
  claimed.length = (q.options i).batchSize ∨
    ∀ task, recovered.Eligible q i now task → ∃ running ∈ claimed, running.row.kind = task

/-- The batch has a row of every eligible task, or it is full and each of its tasks has places for
all its rows. -/
def BatchServes (q : TaskQueue ι) (i : ι) (recovered : TaskState ι) (now : ℤ) : Prop :=
  ((recovered.batch q i now).length = (q.options i).batchSize ∧
    ∀ task, ofTask task (recovered.batch q i now) ≤ recovered.room q i task) ∨
  ∀ task, recovered.Eligible q i now task → ∃ row ∈ recovered.batch q i now, row.kind = task

/-- The selection starts the way through the batch. -/
theorem claiming_select (hphase : (s.workers i).phase = .recovered)
    (hfree : ∀ task, s.gates task = none) (hfault : m.fault = none) :
    Claiming q i (s.next q (.poll i m)) ∧
      ((s.next q (.poll i m)).workers i).phase.toClaim = s.batch q i m.now ∧
      ((s.next q (.poll i m)).workers i).running = (s.workers i).running ∧
      ∀ task, (s.next q (.poll i m)).room q i task = s.room q i task := by
  have hturn : q.poll i m s.steps s.tasks s.gates (s.workers i) =
      ⟨{ s.workers i with phase := .batch (s.batch q i m.now) }, s.tasks, s.gates⟩ := by
    simp only [TaskQueue.poll, hphase, hfault, Option.isSome_none, Bool.false_eq_true, ↓reduceIte]
    rfl
  rw [poll_eq, hturn]
  refine ⟨⟨?_, ?_, ?_, fun task _ => hfree task, ?_, ?_⟩, ?_, ?_, fun task => ?_⟩
  · rw [TaskState.workers_settle_self]
    simp
  · rw [TaskState.workers_settle_self]
    intro row hrow
    obtain ⟨hmem, hdue⟩ := mem_selectDue hrow
    rw [QueueRow.isDue, Bool.and_eq_true, Bool.and_eq_true] at hdue
    exact ⟨hmem, hdue.1.1⟩
  · rw [TaskState.workers_settle_self]
    have hnodup : (s.batch q i m.now).Nodup := nodup_selectDue _ _ _
    refine hnodup.imp_of_mem fun hrow hrow' hne hid => hne ?_
    exact Table.eq_of_key (mem_selectDue hrow).1 (mem_selectDue hrow').1 hid
  · rw [TaskState.workers_settle_self]
    simp
  · rw [TaskState.workers_settle_self]
    simp
  · rw [TaskState.workers_settle_self]
    rfl
  · rw [TaskState.workers_settle_self]
  · rw [TaskState.room, TaskState.room, TaskState.workers_settle_self]
    rfl

/-- The recovery of stale claims starts a round. -/
theorem recovered_poll (hphase : (s.workers i).phase = .idle) (hfault : m.fault = none) :
    ((s.next q (.poll i m)).workers i).phase = .recovered ∧
      ((s.next q (.poll i m)).workers i).running = (s.workers i).running ∧
      (s.next q (.poll i m)).gates = s.gates := by
  have hturn : q.poll i m s.steps s.tasks s.gates (s.workers i) =
      ⟨{ s.workers i with phase := .recovered },
        (recoverStale (m.polled - (q.options i).staleClaimMs) m.now s.tasks).2, s.gates⟩ := by
    simp only [TaskQueue.poll, hphase, hfault, issue, Option.isSome_some, ↓reduceIte]
  rw [poll_eq, hturn, TaskState.workers_settle_self]
  exact ⟨rfl, rfl, rfl⟩

omit [DecidableEq ι] in
/-- Where each task has places for all its rows, all the rows are claimed, and only there. -/
theorem length_claimed_iff {new : List RunningTask} {rows : List TaskRow}
    (hkinds : ∀ task, new.countP (fun running => running.row.kind == task) =
      min (ofTask task rows) (s.room q i task)) :
    new.length ≤ rows.length ∧
      (new.length = rows.length ↔ ∀ task, ofTask task rows ≤ s.room q i task) := by
  have hcount : ∀ task, (new.map (·.row.kind)).count task =
      min ((rows.map (·.kind)).count task) (s.room q i task) := by
    intro task
    rw [List.count_eq_countP, List.count_eq_countP, List.countP_map, List.countP_map]
    exact hkinds task
  have hsubperm : (new.map (·.row.kind)).Subperm (rows.map (·.kind)) :=
    List.subperm_ext_iff.mpr fun task _ => by
      rw [hcount]
      exact Nat.min_le_left _ _
  have hlength : new.length ≤ rows.length := by
    simpa using hsubperm.length_le
  refine ⟨hlength, fun hsame task => ?_, fun hroom => ?_⟩
  · have hperm := hsubperm.perm_of_length_le (by simp [hsame])
    have htask := hperm.count_eq task
    rw [hcount, List.count_eq_countP, List.countP_map] at htask
    have hof : rows.countP ((· == task) ∘ (·.kind)) = ofTask task rows := rfl
    rw [hof] at htask
    omega
  · have hperm : (new.map (·.row.kind)).Perm (rows.map (·.kind)) := by
      refine List.perm_iff_count.mpr fun task => ?_
      rw [hcount, List.count_eq_countP, List.countP_map]
      exact Nat.min_eq_left (hroom task)
    simpa using hperm.length_eq

end Round

/-! ### A batch of rows that cannot be claimed -/

/-- Two tasks with room for one row each, and batches of one row. -/
def twoTasks : TaskQueue Bool where
  limit task := if task = "run-coder" ∨ task = "run-review" then some 1 else none
  parses _ := true
  options _ := { batchSize := 1, maxAttempts := 3, maxBackoffMs := 30000 }

def now1000 : Moment := { polled := 1000, now := 1000 }

/-- One row of `run-coder`. -/
def waiting : TaskState Bool :=
  sampleWorkers.next twoTasks (.enqueue "t1" "run-coder" "{}" 0)

/-- The worker runs that row; another one is waiting, and a younger row of `run-review`. -/
def crowded : TaskState Bool :=
  run (TaskState.next twoTasks) (waiting.polls twoTasks false (List.replicate 6 now1000))
    [.enqueue "t2" "run-coder" "{}" 1, .enqueue "t3" "run-review" "{}" 2]

end MiniCoder
