import MiniCoder.System

/-!
# Optimistic concurrency

Every command carries the version of its run that its caller read, and its `UPDATE` is conditional
on it.  The version of a run is therefore a fencing counter (`Runs.Fenced`): the change a command
makes is stamped with the version after the one it expected, which no earlier change had reached.

* `commit_raises`: a commit leaves a run as it was, or raises its version by one.
* `execute_error`: a command that throws leaves at most its evidence row.
* `optimistic_concurrency`: both, and of the commands that expect one version of a run at most one
  changes it.
-/

open Storage Storage.Action Runs

namespace MiniCoder

/-! ### Versions -/

namespace Db

/-- The version of a run; `0`, which no row has been given, when there is none. -/
def versionOf (db : Db) (featureRunId : String) : ℕ :=
  ((db.runById featureRunId).map (·.version)).getD 0

theorem versionOf_eq {db : Db} {run : FeatureRun} (h : run ∈ db.featureRuns.rows) :
    db.versionOf run.id = run.version := by
  rw [versionOf, runById_eq h]
  rfl

end Db

/-- Every run lives on, and no version falls. -/
def KeepsVersions (db db' : Db) : Prop :=
  ∀ run ∈ db.featureRuns.rows, ∃ run' ∈ db'.featureRuns.rows,
    run'.id = run.id ∧ run.version ≤ run'.version

theorem KeepsVersions.of_eq {db db' : Db} (h : db'.featureRuns = db.featureRuns) :
    KeepsVersions db db' := by
  intro run hrun
  exact ⟨run, by rw [h]; exact hrun, rfl, Nat.le_refl _⟩

theorem KeepsVersions.versionOf_le {db db' : Db} (h : KeepsVersions db db')
    (featureRunId : String) : db.versionOf featureRunId ≤ db'.versionOf featureRunId := by
  rcases hrun : db.runById featureRunId with _ | run
  · have hzero : db.versionOf featureRunId = 0 := by rw [Db.versionOf, hrun]; rfl
    omega
  · have hmem := db.featureRuns.mem_of_find? hrun
    have hid : run.id = featureRunId := beq_iff_eq.mp (db.featureRuns.prop_of_find? hrun)
    obtain ⟨run', hmem', hid', hle⟩ := h run hmem
    rw [← hid, Db.versionOf_eq hmem, ← hid', Db.versionOf_eq hmem']
    exact hle

/-- The row is the same, or its version is one higher. -/
def RaisedByOne (run run' : FeatureRun) : Prop :=
  run' = run ∨ (run'.id = run.id ∧ run'.version = run.version + 1)

theorem Cascaded.raisedByOne {toState : FeatureExecutionState} {run run' : FeatureRun}
    (h : Cascaded toState run run') : RaisedByOne run run' := by
  rcases h with hsame | ⟨-, -, rfl⟩
  · exact Or.inl hsame
  · exact Or.inr ⟨rfl, rfl⟩

theorem Request.Change.raisedByOne {request : Request} {run r r' : FeatureRun}
    (h : request.Change run r r') : RaisedByOne r r' := by
  rcases h with ⟨rfl, hid, -, -, hversion⟩ | ⟨-, hcascaded⟩
  · exact Or.inr ⟨hid, hversion⟩
  · exact hcascaded.raisedByOne

theorem keepsVersions_of_raised {db db' : Db}
    (h : db.featureRuns.Rewritten RaisedByOne db'.featureRuns) : KeepsVersions db db' := by
  intro run hrun
  obtain ⟨run', hrun', hraised⟩ := h.exists_of_mem hrun
  refine ⟨run', hrun', ?_⟩
  rcases hraised with rfl | ⟨hid, hversion⟩
  · exact ⟨rfl, Nat.le_refl _⟩
  · exact ⟨hid, by omega⟩

/-! ### The steps of the system -/

namespace SystemEvent

/-- Steps other than commands keep the runs, and lower no version. -/
def LowersNoVersion (db : Db) : SystemEvent → Prop
  | other db' => KeepsVersions db db'
  | _ => True

/-- The run that a command's commit changed, with the version the command expected. -/
def changedRun (db : Db) : SystemEvent → Option FeatureRunRef
  | commit request ev rt =>
    if (next db (commit request ev rt)).runById request.ref.featureRunId =
        db.runById request.ref.featureRunId then none
    else some request.ref
  | _ => none

/-- A commit leaves each run as it was, or raises its version by one. -/
def RaisesByOne (db : Db) : SystemEvent → Prop
  | commit request ev rt =>
    db.featureRuns.Rewritten RaisedByOne (next db (commit request ev rt)).featureRuns
  | _ => True

/-- **A commit leaves each run as it was, or raises its version by one.** -/
theorem commit_raises (db : Db) (request : Request) (ev : request.Evidence) (rt : Runtime) :
    db.featureRuns.Rewritten RaisedByOne (next db (commit request ev rt)).featureRuns := by
  rcases next_commit db request ev rt with hsame | hdid
  · rw [hsame]
    exact Table.Rewritten.refl fun _ _ => Or.inl rfl
  · obtain ⟨run, hstep⟩ := hdid.step
    exact hstep.runs.imp fun _ _ hchange => hchange.raisedByOne

theorem keepsVersions_next {db : Db} {e : SystemEvent} (h : LowersNoVersion db e) :
    KeepsVersions db (next db e) := by
  cases e with
  | lock e =>
    have hruns := congrArg Db.featureRuns (LockEvent.next_withoutLocks db e)
    exact KeepsVersions.of_eq hruns
  | gather request rt =>
    have hruns := congrArg Db.featureRuns (next_gather db request rt)
    exact KeepsVersions.of_eq hruns
  | commit request ev rt => exact keepsVersions_of_raised (commit_raises db request ev rt)
  | other db' => exact h

/-- A command that changed its run found the version it expected, and left the next one. -/
theorem changedRun_some {db : Db} {e : SystemEvent} {ref : FeatureRunRef}
    (h : changedRun db e = some ref) :
    db.versionOf ref.featureRunId = ref.expectedVersion ∧
      (next db e).versionOf ref.featureRunId = ref.expectedVersion + 1 := by
  cases e with
  | commit request ev rt =>
    by_cases hsame : (next db (commit request ev rt)).runById request.ref.featureRunId =
        db.runById request.ref.featureRunId
    · simp only [changedRun, hsame, if_true] at h
      cases h
    · simp only [changedRun, hsame, if_false] at h
      obtain rfl := Option.some.inj h
      rcases next_commit db request ev rt with heq | hdid
      · exact absurd (by rw [heq]) hsame
      · obtain ⟨run, hstep⟩ := hdid.step
        obtain ⟨hmem, hid, -⟩ := Db.findFeatureRun_some hstep.found
        obtain ⟨run', hmem', hchange⟩ := hstep.runs.exists_of_mem hmem
        rcases hchange with ⟨-, hid', -, -, hversion⟩ | ⟨hne, -⟩
        · have hbefore := Db.versionOf_eq hmem
          have hafter := Db.versionOf_eq hmem'
          rw [hid, hstep.version] at hbefore
          rw [hid', hid, hversion, hstep.version] at hafter
          exact ⟨hbefore, hafter⟩
        · exact absurd hid hne
  | lock e => cases h
  | gather request rt => cases h
  | other db' => cases h

/-- **The version of a run is the fencing counter of its changes.** -/
theorem fenced_versions :
    Fenced next LowersNoVersion (fun featureRunId db => Db.versionOf db featureRunId) changedRun
      FeatureRunRef.featureRunId (·.expectedVersion + 1) where
  mono featureRunId db e hC := (keepsVersions_next hC).versionOf_le featureRunId
  granted db e ref _ h := by
    obtain ⟨hbefore, hafter⟩ := changedRun_some h
    constructor
    · show db.versionOf ref.featureRunId < ref.expectedVersion + 1
      omega
    · exact hafter.symm

end SystemEvent

/-! ### Commands that throw -/

/-- The commands that evaluate the merge gate, and leave its evidence. -/
def FeatureCommand.evaluatesGate : FeatureCommand → Bool
  | recordApprovedByPolicy | mergeIfReady => true
  | _ => false

namespace Request

variable {request : Request}

/-- Only the merge-gate handlers have an evidence phase. -/
theorem frame_gather (h : request.command.evaluatesGate = false) {τ : Type} (π : Session → τ) :
    Frame π request.gather := by
  rcases request with ⟨command, envelope⟩
  cases command <;> first | exact frame_pure _ | cases h

/-- **A command that throws**, at any point, leaves every table as it was; a merge-gate handler may
leave its evidence row. -/
theorem execute_error {s s' : Session} {e : Failure}
    (h : exec request.execute s = (.error e, s')) :
    s'.db.withoutEvidence = s.db.withoutEvidence ∧
      (request.command.evaluatesGate = false → s'.db = s.db) := by
  constructor
  · have hevidence : Frame (fun s : Session => s.db.withoutEvidence)
        (request.handler.evidence request.envelope) :=
      (request.command.handler.evidence_only request.envelope).map fun v => v.1
    exact executeCommand_error (fun _ => rfl) hevidence h
  · intro hgate
    exact executeCommand_error (g := id) (fun _ => rfl) (frame_gather hgate _) h

end Request

/-! ### Any order of commands -/

open SystemEvent

/-- **Optimistic concurrency**: in any order of steps, each commit leaves a run alone or raises its
version by one, of the commands that expect one version of a run at most one changes it, and a
command that throws leaves nothing but evidence of the merge gate. -/
theorem optimistic_concurrency (db : Db) (es : List SystemEvent)
    (hothers : Along next LowersNoVersion db es) :
    Along next RaisesByOne db es ∧
      (outputs next changedRun db es).Pairwise (fun ref ref' =>
        ref.featureRunId = ref'.featureRunId → ref.expectedVersion < ref'.expectedVersion) ∧
      ∀ (request : Request) (rt : Runtime) (e : Failure) (s' : Session),
        (∀ ev, exec (request.commit ev) (.start (after db es) rt) = (.error e, s') →
          s'.db = after db es) ∧
        (exec request.execute (.start (after db es) rt) = (.error e, s') →
          s'.db.withoutEvidence = (after db es).withoutEvidence ∧
            (request.command.evaluatesGate = false → s'.db = after db es)) := by
  refine ⟨?_, ?_, fun request rt e s' => ⟨fun ev h => ?_, fun h => ?_⟩⟩
  · refine along_of_forall (fun db e => ?_) db es
    cases e with
    | commit request ev rt => exact commit_raises db request ev rt
    | _ => trivial
  · refine (fenced_versions.pairwise_stamp hothers).imp fun {ref ref'} hlt hid => ?_
    have := hlt hid
    omega
  · exact Request.commit_error h
  · exact Request.execute_error h

/-- Two callers that read the same version of one run, one after the other. -/
def race : List SystemEvent :=
  [firstSelected,
    commit ⟨.escalateToHuman, sampleEnvelope .system "escalate" {
      featureRunId := "run-1", projectId := "P", expectedVersion := 1, reason := "stuck" }⟩ ()
      (sampleRuntime 2)]

/-- The second caller's command finds the version moved on. -/
example : outputs next changedRun sampleDb race = [⟨"run-1", "P", 1⟩] := by decide +kernel

theorem optimistic_concurrency_race :
    Along next RaisesByOne sampleDb race ∧
      (outputs next changedRun sampleDb race).Pairwise (fun ref ref' =>
        ref.featureRunId = ref'.featureRunId → ref.expectedVersion < ref'.expectedVersion) ∧
      ∀ (request : Request) (rt : Runtime) (e : Failure) (s' : Session),
        (∀ ev, exec (request.commit ev) (.start (after sampleDb race) rt) = (.error e, s') →
          s'.db = after sampleDb race) ∧
        (exec request.execute (.start (after sampleDb race) rt) = (.error e, s') →
          s'.db.withoutEvidence = (after sampleDb race).withoutEvidence ∧
            (request.command.evaluatesGate = false → s'.db = after sampleDb race)) :=
  optimistic_concurrency sampleDb race ⟨trivial, trivial, trivial⟩

end MiniCoder
