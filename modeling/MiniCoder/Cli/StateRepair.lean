import MiniCoder.Invariants.OptimisticConcurrency

/-!
# `state repair --apply`

The command of the CLI that marks orphaned runs `human_required`: one transaction that queries the
runs and updates each of them, past the commands.  On PostgreSQL other transactions commit between
its query and its updates, which are steps of their own here.

* `applyRepairs_ok`: what the updates do to the rows.
* `write_disciplined_iff`: the updates keep the discipline of versions exactly when they change no
  state.
* `repair_disciplined`: **every write is decided on the current state and version of its run, and
  raises the version** in exactly the histories whose repairs find nothing to change.
-/

open Storage Storage.Action Runs

namespace MiniCoder

/-! ### The query -/

/-- `ORPHANED_RUN_THRESHOLD_MS`: two hours. -/
def orphanedRunThresholdMs : ℤ := 2 * 60 * 60 * 1000

/-- The states that the query leaves out. -/
def unrepairedStates : List FeatureExecutionState :=
  [.merged, .humanRequired, .blocked, .failed, .systemFailed, .ciFailed, .mergeFailed]

/-- The runs of a project that were started before a time and have not ended, are in another state
and are active in no project. -/
def Db.orphanedRuns (db : Db) (projectId : String) (threshold : ℤ) : List FeatureRun :=
  db.featureRuns.select fun run =>
    run.endedAt.isNone && !unrepairedStates.contains run.currentExecutionState &&
      (db.workflowStates.find? fun ws => ws.activeFeatureRunId == some run.id).isNone &&
      run.startedAt.any (fun startedAt => decide (startedAt < threshold)) &&
      (db.featureRequests.find? fun freq =>
        freq.id == run.featureRequestId && freq.projectId == projectId).isSome

/-! ### The updates -/

/-- The `SET` list of the update. -/
def FeatureRun.repaired (repairTimestamp : ℤ) (run : FeatureRun) : FeatureRun :=
  { run with currentExecutionState := .humanRequired, endedAt := some repairTimestamp }

/-- The loop over the orphaned runs. -/
def markHumanRequired (repairTimestamp : ℤ) : List FeatureRun → Sql Unit
  | [] => pure ()
  | run :: runs => do
    execute fun db => some ((), { db with
      featureRuns := db.featureRuns.update (fun row => row.id == run.id)
        (FeatureRun.repaired repairTimestamp) fun _ _ => rfl })
    markHumanRequired repairTimestamp runs

/-- The statements that follow the query. -/
def applyRepairs (projectId : String) (orphanedRuns : List FeatureRun) : Sql Unit := do
  let repairTimestamp ← isoNow
  markHumanRequired repairTimestamp orphanedRuns
  if orphanedRuns = [] then pure ()
  else do
    let id ← generateId
    -- an event of the project alone: no run and no states
    execute fun db => (db.workflowEvents.insert? {
      id, featureRunId := none, projectId := some projectId, eventType := "state.repaired"
      fromState := "", toState := "", actor := "operator", occurredAt := repairTimestamp }).map
      fun t => ((), { db with workflowEvents := t })

/-- What the updates do to one row. -/
def RepairedBy (repairTimestamp : ℤ) (orphanedRuns : List FeatureRun) (run run' : FeatureRun) : Prop :=
  (run' = run ∧ ∀ orphan ∈ orphanedRuns, orphan.id ≠ run.id) ∨
    (run' = run.repaired repairTimestamp ∧ ∃ orphan ∈ orphanedRuns, orphan.id = run.id)

theorem markHumanRequired_ok {repairTimestamp : ℤ} {runs : List FeatureRun} {s s' : Session}
    (h : exec (markHumanRequired repairTimestamp runs) s = (.ok (), s')) :
    s.db.featureRuns.Rewritten (RepairedBy repairTimestamp runs) s'.db.featureRuns := by
  induction runs generalizing s with
  | nil =>
    obtain ⟨-, rfl⟩ := Prod.mk.inj h
    exact Table.Rewritten.refl fun _ _ => Or.inl ⟨rfl, by simp⟩
  | cons run runs ih =>
    obtain ⟨_, s₁, hupdate, hrest⟩ := exec_bind_ok.mp h
    obtain ⟨hdb, -⟩ := execute_ok hupdate
    have hruns : s.db.featureRuns.update (fun row => row.id == run.id)
        (FeatureRun.repaired repairTimestamp) (fun _ _ => rfl) = s₁.db.featureRuns :=
      congrArg (fun p => Db.featureRuns p.2) (Option.some.inj hdb)
    have hfirst := Table.Rewritten.update (t := s.db.featureRuns) (fun row => row.id == run.id)
      (f := FeatureRun.repaired repairTimestamp) (fun _ _ => rfl)
    rw [hruns] at hfirst
    refine hfirst.trans (ih hrest) ?_
    rintro r r' r'' rfl hrest'
    by_cases hown : r.id = run.id
    · have hrow : Table.updateRow (fun row => row.id == run.id)
          (FeatureRun.repaired repairTimestamp) r = r.repaired repairTimestamp :=
        Table.updateRow_of_pos (beq_iff_eq.mpr hown)
      rw [hrow] at hrest'
      refine Or.inr ⟨?_, run, List.mem_cons_self, hown.symm⟩
      rcases hrest' with ⟨rfl, -⟩ | ⟨rfl, -⟩
      · rfl
      · rfl
    · have hrow : Table.updateRow (fun row => row.id == run.id)
          (FeatureRun.repaired repairTimestamp) r = r :=
        Table.updateRow_of_neg (beq_eq_false_iff_ne.mpr hown)
      rw [hrow] at hrest'
      rcases hrest' with ⟨rfl, hnone⟩ | ⟨rfl, orphan, horphan, hid⟩
      · exact Or.inl ⟨rfl, List.forall_mem_cons.mpr ⟨Ne.symm hown, hnone⟩⟩
      · exact Or.inr ⟨rfl, orphan, List.mem_cons_of_mem _ horphan, hid⟩

/-- **What a committed repair does to the rows.** -/
theorem applyRepairs_ok {projectId : String} {runs : List FeatureRun} {s s' : Session}
    (h : exec (transaction (applyRepairs projectId runs)) s = (.ok (), s')) :
    s.db.featureRuns.Rewritten (RepairedBy s.runtime.now runs) s'.db.featureRuns := by
  obtain ⟨s₁, hbody, hdb, -⟩ := transaction_ok h
  obtain ⟨repairTimestamp, s₂, hclock, h₂⟩ := exec_bind_ok.mp hbody
  obtain ⟨hnow, rfl⟩ := Prod.mk.inj hclock
  obtain rfl := Except.ok.inj hnow
  obtain ⟨_, s₃, hmark, h₃⟩ := exec_bind_ok.mp h₂
  have hevent : s₁.db.featureRuns = s₃.db.featureRuns := by
    split at h₃
    · obtain ⟨-, rfl⟩ := Prod.mk.inj h₃
      rfl
    · obtain ⟨id, s₄, hid, hinsert⟩ := exec_bind_ok.mp h₃
      obtain ⟨-, rfl⟩ := Prod.mk.inj hid
      obtain ⟨hrow, -⟩ := execute_ok hinsert
      obtain ⟨t, -, ht⟩ := Option.map_eq_some_iff.mp hrow
      rw [← (Prod.mk.inj ht).2]
  rw [hdb, hevent]
  exact markHumanRequired_ok hmark

/-! ### Histories -/

/-- An open repair: its project, and the rows that its query has returned. -/
structure Repair where
  projectId : String
  orphanedRuns : List FeatureRun

/-- The tables, with the repairs whose transactions are open. -/
structure RepairWorld where
  db : Db
  opened : List Repair := []

/-- A step of a history: of the system, the query of a repair, or the updates and the commit of an
open one. -/
inductive RepairEvent
  | system (e : SystemEvent)
  | query (projectId : String) (rt : Runtime)
  | update (repair : ℕ) (rt : Runtime)

namespace RepairEvent

/-- What the updates of a repair return and leave. -/
def updates (db : Db) (repair : Repair) (rt : Runtime) : Except Failure Unit × Session :=
  exec (transaction (applyRepairs repair.projectId repair.orphanedRuns)) (.start db rt)

/-- The world after a step. -/
def next (w : RepairWorld) : RepairEvent → RepairWorld
  | system e => { w with db := SystemEvent.next w.db e }
  | query projectId rt => { w with
      opened := w.opened ++
        [⟨projectId, w.db.orphanedRuns projectId (rt.now - orphanedRunThresholdMs)⟩] }
  | update repair rt =>
    match w.opened[repair]? with
    | none => w
    | some opened => { db := (updates w.db opened rt).2.db, opened := w.opened.eraseIdx repair }

/-- What a write was decided on is current: the version that a command expects, the row that a
repair's query has returned. -/
def Decided (w : RepairWorld) : RepairEvent → FeatureRun → Prop
  | system (.commit request _ _), run =>
    run.id = request.ref.featureRunId → run.version = request.ref.expectedVersion
  | update repair _, run => ∃ opened ∈ w.opened[repair]?, ∃ orphan ∈ opened.orphanedRuns,
      orphan.id = run.id ∧ orphan.currentExecutionState = run.currentExecutionState ∧
        orphan.version = run.version
  | _, _ => True

/-- A step that changes the state of a run raises its version, and was decided on what is current. -/
def Disciplined (w : RepairWorld) (e : RepairEvent) : Prop :=
  ∀ run ∈ w.db.featureRuns.rows, ∀ run' ∈ (next w e).db.featureRuns.rows, run'.id = run.id →
    run'.currentExecutionState ≠ run.currentExecutionState →
      run.version < run'.version ∧ Decided w e run

/-- A repair leaves runs that are finished or not yet started in their states. -/
def KeepsSettled (w : RepairWorld) : RepairEvent → Prop
  | update repair rt => ∀ run ∈ w.db.featureRuns.rows,
      run.currentExecutionState ∈ [.merged, .skipped, .approvedPendingExecution] →
        ∀ run' ∈ (next w (update repair rt)).db.featureRuns.rows, run'.id = run.id →
          run'.currentExecutionState = run.currentExecutionState
  | _ => True

/-- A command that changes its run finds it in the state that it had when its caller read the
version. -/
def ActsOnRead (w : RepairWorld) (es : List RepairEvent) : Prop :=
  ∀ es₁ es₂ es₃ request ev rt, es = es₁ ++ es₂ ++ system (.commit request ev rt) :: es₃ →
    ∀ seen ∈ (run next w es₁).db.featureRuns.rows, seen.id = request.ref.featureRunId →
      seen.version = request.ref.expectedVersion →
      SystemEvent.next (run next w (es₁ ++ es₂)).db (.commit request ev rt) ≠
          (run next w (es₁ ++ es₂)).db →
        (run next w (es₁ ++ es₂)).db.stateOf seen.id = some seen.currentExecutionState

/-- The updates of a repair are refused, or find the runs that its query returned `human_required`
already. -/
def NothingToRepair (w : RepairWorld) : RepairEvent → Prop
  | update repair rt => ∀ opened, w.opened[repair]? = some opened →
      (updates w.db opened rt).1.toOption = none ∨ ∀ orphan ∈ opened.orphanedRuns,
        ∀ run ∈ w.db.featureRuns.rows, run.id = orphan.id → run.currentExecutionState = .humanRequired
  | _ => True

variable {w : RepairWorld}

/-- What the updates of an open repair left: nothing, or its runs marked. -/
theorem next_update {repair : ℕ} (rt : Runtime) {opened : Repair}
    (h : w.opened[repair]? = some opened) :
    ((updates w.db opened rt).1.toOption = none ∧ (next w (update repair rt)).db = w.db) ∨
      ((updates w.db opened rt).1.toOption ≠ none ∧
        w.db.featureRuns.Rewritten (RepairedBy rt.now opened.orphanedRuns)
          (next w (update repair rt)).db.featureRuns) := by
  have hnext : (next w (update repair rt)).db = (updates w.db opened rt).2.db := by
    simp only [next, h]
  rw [hnext]
  rcases hexec : updates w.db opened rt with ⟨e | _, s'⟩
  · exact Or.inl ⟨rfl, transaction_error hexec⟩
  · exact Or.inr ⟨Option.some_ne_none (), applyRepairs_ok hexec⟩

/-- Two rows of the runs with one id are one row. -/
theorem eq_of_runId {db : Db} {run run' : FeatureRun} (h : run ∈ db.featureRuns.rows)
    (h' : run' ∈ db.featureRuns.rows) (hid : run'.id = run.id) : run' = run :=
  db.featureRuns.eq_of_clash h' h (decide_eq_true hid)

/-- A repair that finds nothing to change keeps every state and every version. -/
theorem unchanged_of_nothing {repair : ℕ} {rt : Runtime}
    (hnothing : NothingToRepair w (update repair rt)) {run run' : FeatureRun}
    (hrun : run ∈ w.db.featureRuns.rows)
    (hrun' : run' ∈ (next w (update repair rt)).db.featureRuns.rows) (hid : run'.id = run.id) :
    run'.currentExecutionState = run.currentExecutionState ∧ run'.version = run.version := by
  rcases hopened : w.opened[repair]? with _ | opened
  · have hnext : (next w (update repair rt)).db = w.db := by simp only [next, hopened]
    rw [hnext] at hrun'
    rw [eq_of_runId hrun hrun' hid]
    exact ⟨rfl, rfl⟩
  · rcases next_update rt hopened with ⟨-, hsame⟩ | ⟨hcommitted, hmarked⟩
    · rw [hsame] at hrun'
      rw [eq_of_runId hrun hrun' hid]
      exact ⟨rfl, rfl⟩
    · have hruns := (hnothing opened hopened).resolve_left hcommitted
      obtain ⟨run'', hrun'', hchange⟩ := hmarked.exists_of_mem hrun
      rcases hchange with ⟨rfl, -⟩ | ⟨rfl, orphan, horphan, horphanId⟩
      · rw [eq_of_runId hrun'' hrun' hid]
        exact ⟨rfl, rfl⟩
      · rw [eq_of_runId hrun'' hrun' hid, hruns orphan horphan run hrun horphanId.symm]
        exact ⟨rfl, rfl⟩

/-- **The updates of a repair keep the discipline exactly when they find nothing to change.** -/
theorem update_disciplined_iff (repair : ℕ) (rt : Runtime) :
    Disciplined w (update repair rt) ↔ NothingToRepair w (update repair rt) := by
  constructor
  · intro hdisciplined opened hopened
    rcases next_update rt hopened with ⟨hrefused, -⟩ | ⟨-, hmarked⟩
    · exact Or.inl hrefused
    · refine Or.inr fun orphan horphan run hrun hid => ?_
      by_contra hstate
      obtain ⟨run', hrun', hchange⟩ := hmarked.exists_of_mem hrun
      rcases hchange with ⟨-, hnone⟩ | ⟨rfl, -⟩
      · exact hnone orphan horphan hid.symm
      · -- the state has changed, and the version has not
        obtain ⟨hversion, -⟩ := hdisciplined run hrun _ hrun' rfl (Ne.symm hstate)
        exact Nat.lt_irrefl _ hversion
  · intro hnothing run hrun run' hrun' hid hstate
    exact absurd (unchanged_of_nothing hnothing hrun hrun' hid).1 hstate

end RepairEvent

/-! ### The other writers -/

/-- Every run lives on, and keeps its state or rises in version. -/
def KeepsStates (db db' : Db) : Prop :=
  ∀ run ∈ db.featureRuns.rows, ∃ run' ∈ db'.featureRuns.rows, run'.id = run.id ∧
    (run.version < run'.version ∨
      run'.version = run.version ∧ run'.currentExecutionState = run.currentExecutionState)

theorem KeepsStates.of_eq {db db' : Db} (h : db'.featureRuns = db.featureRuns) :
    KeepsStates db db' := by
  intro run hrun
  exact ⟨run, by rw [h]; exact hrun, rfl, Or.inr ⟨rfl, rfl⟩⟩

theorem KeepsStates.trans {db db' db'' : Db} (h : KeepsStates db db') (h' : KeepsStates db' db'') :
    KeepsStates db db'' := by
  intro run hrun
  obtain ⟨run', hrun', hid, hchange⟩ := h run hrun
  obtain ⟨run'', hrun'', hid', hchange'⟩ := h' run' hrun'
  refine ⟨run'', hrun'', hid'.trans hid, ?_⟩
  rcases hchange with hlt | ⟨hversion, hstate⟩
  · rcases hchange' with hlt' | ⟨hversion', -⟩
    · exact Or.inl (hlt.trans hlt')
    · exact Or.inl (by omega)
  · rcases hchange' with hlt' | ⟨hversion', hstate'⟩
    · exact Or.inl (by omega)
    · exact Or.inr ⟨hversion'.trans hversion, hstate'.trans hstate⟩

/-- Rows of one run on both sides of steps that keep the states: the versions are the same only if the
states are. -/
theorem KeepsStates.rows {db db' : Db} (h : KeepsStates db db') {run run' : FeatureRun}
    (hrun : run ∈ db.featureRuns.rows) (hrun' : run' ∈ db'.featureRuns.rows)
    (hid : run'.id = run.id) : run.version < run'.version ∨
      run'.version = run.version ∧ run'.currentExecutionState = run.currentExecutionState := by
  obtain ⟨run'', hrun'', hid'', hchange⟩ := h run hrun
  have hsame : run' = run'' := RepairEvent.eq_of_runId hrun'' hrun' (hid.trans hid''.symm)
  rw [hsame]
  exact hchange

namespace RepairEvent

variable {w : RepairWorld}

/-- Steps that are neither commands nor repairs keep the discipline. -/
def OthersKeepStates (w : RepairWorld) : RepairEvent → Prop
  | system (.other db') => KeepsStates w.db db'
  | _ => True

theorem keepsStates_system {e : SystemEvent} (h : OthersKeepStates w (system e)) :
    KeepsStates w.db (next w (system e)).db := by
  cases e with
  | lock e =>
    have hruns := congrArg Db.featureRuns (LockEvent.next_withoutLocks w.db e)
    exact KeepsStates.of_eq hruns
  | gather request rt =>
    have hruns := congrArg Db.featureRuns (SystemEvent.next_gather w.db request rt)
    exact KeepsStates.of_eq hruns
  | commit request ev rt =>
    intro run hrun
    obtain ⟨run', hrun', hraised⟩ :=
      (SystemEvent.commit_raises w.db request ev rt).exists_of_mem hrun
    refine ⟨run', hrun', ?_⟩
    rcases hraised with rfl | ⟨hid, hversion⟩
    · exact ⟨rfl, Or.inr ⟨rfl, rfl⟩⟩
    · exact ⟨hid, Or.inl (by omega)⟩
  | other db' => exact h

/-- The steps of a history without effective repairs keep the states. -/
theorem keepsStates_next {e : RepairEvent} (hothers : OthersKeepStates w e)
    (hnothing : NothingToRepair w e) : KeepsStates w.db (next w e).db := by
  cases e with
  | system e => exact keepsStates_system hothers
  | query projectId rt => exact KeepsStates.of_eq rfl
  | update repair rt =>
    intro run hrun
    have hkept : ∃ run' ∈ (next w (update repair rt)).db.featureRuns.rows, run'.id = run.id := by
      rcases hopened : w.opened[repair]? with _ | opened
      · have hnext : (next w (update repair rt)).db = w.db := by simp only [next, hopened]
        exact ⟨run, by rw [hnext]; exact hrun, rfl⟩
      · rcases next_update rt hopened with ⟨-, hsame⟩ | ⟨-, hmarked⟩
        · exact ⟨run, by rw [hsame]; exact hrun, rfl⟩
        · obtain ⟨run', hrun', hchange⟩ := hmarked.exists_of_mem hrun
          rcases hchange with ⟨rfl, -⟩ | ⟨rfl, -⟩
          · exact ⟨run', hrun', rfl⟩
          · exact ⟨_, hrun', rfl⟩
    obtain ⟨run', hrun', hid⟩ := hkept
    obtain ⟨hstate, hversion⟩ := unchanged_of_nothing hnothing hrun hrun' hid
    exact ⟨run', hrun', hid, Or.inr ⟨hversion, hstate⟩⟩

/-- **The other writers are disciplined.** -/
theorem system_disciplined {e : SystemEvent} (h : OthersKeepStates w (system e)) :
    Disciplined w (system e) := by
  intro run hrun run' hrun' hid hstate
  refine ⟨?_, ?_⟩
  · rcases (keepsStates_system h).rows hrun hrun' hid with hlt | ⟨-, hsame⟩
    · exact hlt
    · exact absurd hsame hstate
  · cases e with
    | commit request ev rt =>
      intro hown
      rcases SystemEvent.next_commit w.db request ev rt with hsame | hdid
      · have hnext : (next w (system (.commit request ev rt))).db = w.db := hsame
        rw [hnext] at hrun'
        exact absurd (congrArg _ (eq_of_runId hrun hrun' hid)) hstate
      · obtain ⟨moved, hstep⟩ := hdid.step
        obtain ⟨hmem, hid', -⟩ := hstep.moves
        rw [eq_of_runId hmem hrun (hown.trans hid'.symm)]
        exact hstep.version
    | lock e => trivial
    | gather request rt => trivial
    | other db' => trivial

theorem query_disciplined (projectId : String) (rt : Runtime) :
    Disciplined w (query projectId rt) := by
  intro run hrun run' hrun' hid hstate
  have hsame : run' = run := eq_of_runId hrun hrun' hid
  exact absurd (congrArg _ hsame) hstate

theorem keepsSettled_of_nothing {e : RepairEvent} (h : NothingToRepair w e) : KeepsSettled w e := by
  cases e with
  | update repair rt =>
    intro run hrun _ run' hrun' hid
    exact (unchanged_of_nothing h hrun hrun' hid).1
  | system e => trivial
  | query projectId rt => trivial

end RepairEvent

/-! ### Every interleaving -/

open RepairEvent

/-- **The writers of runs keep the discipline of versions exactly when the repairs find nothing to
change**: then no command acts on a state other than the one its caller has read, no repair overwrites
a later commit, and none moves a run that is finished or not yet started. -/
theorem repair_disciplined (w : RepairWorld) (es : List RepairEvent)
    (hothers : Along next OthersKeepStates w es) :
    (Along next Disciplined w es ∧ Along next KeepsSettled w es ∧ ActsOnRead w es) ↔
      Along next NothingToRepair w es := by
  constructor
  · rintro ⟨hdisciplined, -, -⟩
    refine hdisciplined.imp fun w e he => ?_
    cases e with
    | update repair rt => exact (update_disciplined_iff repair rt).mp he
    | system e => trivial
    | query projectId rt => trivial
  · intro hnothing
    refine ⟨?_, hnothing.imp fun w e he => keepsSettled_of_nothing he, ?_⟩
    · refine (hothers.and hnothing).imp fun w e ⟨hother, hrepair⟩ => ?_
      cases e with
      | update repair rt => exact (update_disciplined_iff repair rt).mpr hrepair
      | system e => exact system_disciplined hother
      | query projectId rt => exact query_disciplined projectId rt
    · rintro es₁ es₂ es₃ request ev rt rfl seen hseen hid hversion hchanged
      -- between the read and the commit, every step keeps the states
      have hbetween : Along next (fun w e => OthersKeepStates w e ∧ NothingToRepair w e)
          (run next w es₁) es₂ :=
        (along_append.mp (along_append.mp (hothers.and hnothing)).1).2
      have hkept : KeepsStates (run next w es₁).db (run next (run next w es₁) es₂).db :=
        run_rel (R := fun w w' => KeepsStates w.db w'.db) (fun _ => KeepsStates.of_eq rfl)
          (fun _ _ _ => KeepsStates.trans) (fun _ _ he => keepsStates_next he.1 he.2) hbetween
      rw [run_append] at hchanged ⊢
      have hdid := (SystemEvent.next_commit _ request ev rt).resolve_left hchanged
      obtain ⟨current, hstep⟩ := hdid.step
      obtain ⟨hcurrent, hid', -⟩ := hstep.moves
      have hsame : current.id = seen.id := hid'.trans hid.symm
      rcases hkept.rows hseen hcurrent hsame with hlt | ⟨-, hstate⟩
      · have hexpected := hstep.version
        omega
      · exact Db.stateOf_some.mpr ⟨current, hcurrent, hsame, hstate⟩

/-! ### Repairs of runs that are on record as started -/

/-- A project whose pending run is on record as started two hours ago, as is a skipped one. -/
def startedWorld : RepairWorld where
  db := { sampleDb with
    featureRuns := .ofList [
      { id := "run-1", featureRequestId := "request-1"
        currentExecutionState := .approvedPendingExecution, startedAt := some (-7200000) },
      { id := "run-2", featureRequestId := "request-2"
        currentExecutionState := .skipped, startedAt := some (-7200000) }] }

/-- A repair whose transaction meets no other. -/
def undisturbedRepair : List RepairEvent := [.query "P" (sampleRuntime 2), update 0 (sampleRuntime 2)]

/-- A repair between the query and the updates of which the pending run is selected. -/
def lateRepair : List RepairEvent := [
  system laneAcquired, .query "P" (sampleRuntime 2), system firstSelected, update 0 (sampleRuntime 2)]

/-- A selection at the version that its caller has read before the repair. -/
def staleSelection : List RepairEvent :=
  [system laneAcquired] ++ undisturbedRepair ++ [system firstSelected]

theorem repair_disciplined_staleSelection :
    (Along next Disciplined startedWorld staleSelection ∧
        Along next KeepsSettled startedWorld staleSelection ∧
        ActsOnRead startedWorld staleSelection) ↔
      Along next NothingToRepair startedWorld staleSelection :=
  repair_disciplined startedWorld staleSelection ⟨trivial, trivial, trivial, trivial, trivial⟩

/-- The state and the version of a run. -/
def RepairWorld.statusOf (w : RepairWorld) (featureRunId : String) :
    Option (FeatureExecutionState × ℕ) :=
  (w.db.runById featureRunId).map fun run => (run.currentExecutionState, run.version)

theorem RepairWorld.statusOf_some {w : RepairWorld} {featureRunId : String}
    {status : FeatureExecutionState × ℕ} (h : w.statusOf featureRunId = some status) :
    ∃ run ∈ w.db.featureRuns.rows, run.id = featureRunId ∧
      (run.currentExecutionState, run.version) = status := by
  obtain ⟨run, hrun, hstatus⟩ := Option.map_eq_some_iff.mp h
  have hid : (run.id == featureRunId) = true := w.db.featureRuns.prop_of_find? hrun
  exact ⟨run, w.db.featureRuns.mem_of_find? hrun, beq_iff_eq.mp hid, hstatus⟩

theorem RepairWorld.stateOf_of_statusOf {w : RepairWorld} {featureRunId : String}
    {state : FeatureExecutionState} {v : ℕ} (h : w.statusOf featureRunId = some (state, v)) :
    w.db.stateOf featureRunId = some state := by
  obtain ⟨run, hrun, hid, hstatus⟩ := statusOf_some h
  exact Db.stateOf_some.mpr ⟨run, hrun, hid, (Prod.mk.inj hstatus).1⟩

/-- A step that changes a state at one version breaks the discipline. -/
theorem RepairEvent.not_disciplined {w : RepairWorld} {e : RepairEvent}
    {state state' : FeatureExecutionState} {v : ℕ} (featureRunId : String)
    (hbefore : w.statusOf featureRunId = some (state, v))
    (hafter : (next w e).statusOf featureRunId = some (state', v)) (hne : state' ≠ state) :
    ¬ Disciplined w e := by
  intro hdisciplined
  obtain ⟨run, hrun, hid, hstatus⟩ := RepairWorld.statusOf_some hbefore
  obtain ⟨run', hrun', hid', hstatus'⟩ := RepairWorld.statusOf_some hafter
  obtain ⟨rfl, rfl⟩ := Prod.mk.inj hstatus
  obtain ⟨rfl, hversion⟩ := Prod.mk.inj hstatus'
  obtain ⟨hlt, -⟩ := hdisciplined run hrun run' hrun' (hid'.trans hid.symm) hne
  omega

/-- **A repair overwrites a selection that it has not read, a selection overwrites the repair that its
caller has not seen, and a repair moves a skipped run.** -/
theorem repairs_blindly :
    ¬ Along next Disciplined startedWorld lateRepair ∧ ¬ ActsOnRead startedWorld staleSelection ∧
      ¬ Along next KeepsSettled startedWorld undisturbedRepair := by
  refine ⟨?_, ?_, ?_⟩
  · rintro ⟨-, -, -, hlast, -⟩
    have hselected : (run next startedWorld (lateRepair.take 3)).statusOf "run-1" =
        some (.selected, 2) := by
      decide +kernel
    have hrepaired : (next (run next startedWorld (lateRepair.take 3))
        (update 0 (sampleRuntime 2))).statusOf "run-1" = some (.humanRequired, 2) := by
      decide +kernel
    exact not_disciplined "run-1" hselected hrepaired (by decide) hlast
  · intro hacts
    have hseen : (run next startedWorld [system laneAcquired]).statusOf "run-1" =
        some (.approvedPendingExecution, 1) := by
      decide +kernel
    have hrepaired : (run next startedWorld ([system laneAcquired] ++ undisturbedRepair)).statusOf
        "run-1" = some (.humanRequired, 1) := by
      decide +kernel
    have hselected : (run next startedWorld staleSelection).statusOf "run-1" =
        some (.selected, 2) := by
      decide +kernel
    have hchanged : (run next startedWorld staleSelection).db ≠
        (run next startedWorld ([system laneAcquired] ++ undisturbedRepair)).db := by
      intro hsame
      rw [RepairWorld.statusOf, hsame, ← RepairWorld.statusOf, hrepaired] at hselected
      cases hselected
    obtain ⟨seen, hmem, hid, hstatus⟩ := RepairWorld.statusOf_some hseen
    obtain ⟨hstate, hversion⟩ := Prod.mk.inj hstatus
    have hcurrent := hacts [system laneAcquired] undisturbedRepair [] _ _ _ rfl seen hmem hid hversion
      hchanged
    rw [hid, RepairWorld.stateOf_of_statusOf hrepaired, hstate] at hcurrent
    cases hcurrent
  · rintro ⟨-, hsettled, -⟩
    have hskipped : (run next startedWorld (undisturbedRepair.take 1)).statusOf "run-2" =
        some (.skipped, 1) := by
      decide +kernel
    have hrepaired : (run next startedWorld undisturbedRepair).statusOf "run-2" =
        some (.humanRequired, 1) := by
      decide +kernel
    obtain ⟨run, hrun, hid, hstatus⟩ := RepairWorld.statusOf_some hskipped
    obtain ⟨run', hrun', hid', hstatus'⟩ := RepairWorld.statusOf_some hrepaired
    obtain ⟨hstate, -⟩ := Prod.mk.inj hstatus
    obtain ⟨hstate', -⟩ := Prod.mk.inj hstatus'
    have hkept := hsettled run hrun (by rw [hstate]; decide) run' hrun' (hid'.trans hid.symm)
    rw [hstate, hstate'] at hkept
    cases hkept

end MiniCoder
