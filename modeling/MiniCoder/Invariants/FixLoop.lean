import MiniCoder.Reconcile.Step
import MiniCoder.Invariants.OptimisticConcurrency

/-!
# The review and fix loop

A run goes back to `changes_requested` when its review is rejected, when a CI failure is handed back,
or when a human resolves a disagreement in the reviewer's favour.  The first two are automatic: each
counts a fix attempt, and is refused at the threshold.  The third is a human disposition, which
neither counts nor is limited.

* `Request.Did.fixAttemptCount`: what a transition adds to the count of its run.
* `entry_counted`: each entry into `changes_requested` is a resolution or is counted below the
  threshold.
* `fix_loop_bounded`: **no run exceeds the threshold**, and its automatic entries are as many as its
  count has grown by.
-/

open Storage Storage.Action Runs

namespace MiniCoder

/-- The fix attempts that a command counts. -/
def FeatureCommand.fixAttempts : FeatureCommand → ℕ
  | recordChangesRequested | requestChangesAfterCiFail => 1
  | _ => 0

/-- An automatic entry into `changes_requested` counts one attempt, every other transition none. -/
theorem FeatureCommand.fixAttempts_eq (c : FeatureCommand) :
    c.fixAttempts = if c.target = .changesRequested ∧ c ≠ .resolveDisagreement then 1 else 0 := by
  cases c <;> rfl

theorem Request.transition_fixAttempts {request : Request} (ev : request.Evidence) :
    (request.transition ev).fixAttempts = request.command.fixAttempts := by
  rcases request with ⟨command, envelope⟩
  cases command <;> rfl

theorem Cascaded.fixAttemptCount {toState : FeatureExecutionState} {run run' : FeatureRun}
    (h : Cascaded toState run run') :
    run'.id = run.id ∧ run'.fixAttemptCount = run.fixAttemptCount := by
  rcases h with rfl | ⟨-, -, rfl⟩
  · exact ⟨rfl, rfl⟩
  · exact ⟨rfl, rfl⟩

theorem Db.fixAttemptCount_eq {db : Db} {run : FeatureRun} (h : run ∈ db.featureRuns.rows) :
    db.fixAttemptCount run.id = run.fixAttemptCount := by
  rw [fixAttemptCount, runById_eq h]
  rfl

theorem Db.fixAttemptCount_of_eq {db db' : Db} (h : db'.featureRuns = db.featureRuns)
    (featureRunId : String) : db'.fixAttemptCount featureRunId = db.fixAttemptCount featureRunId := by
  unfold fixAttemptCount runById
  rw [h]

/-- No run has counted more fix attempts than the threshold. -/
def Db.WithinThreshold (db : Db) : Prop :=
  ∀ featureRunId, db.fixAttemptCount featureRunId ≤ fixAttemptThreshold

theorem Db.withinThreshold_of_rows {db : Db}
    (h : ∀ run ∈ db.featureRuns.rows, run.fixAttemptCount ≤ fixAttemptThreshold) :
    db.WithinThreshold := by
  intro featureRunId
  unfold fixAttemptCount
  rcases hrun : db.runById featureRunId with _ | run
  · exact Nat.zero_le _
  · exact h run (db.featureRuns.mem_of_find? hrun)

/-! ### What a transition adds -/

/-- The fix-attempt guard lets a run below the threshold pass. -/
theorem below_of_guard {run : FeatureRun} {correlationId : String} {s s' : Session}
    (h : exec (assertBelowFixThreshold run correlationId) s = (.ok (), s')) :
    run.fixAttemptCount < fixAttemptThreshold := by
  unfold assertBelowFixThreshold at h
  by_cases hreached : run.fixAttemptCount ≥ fixAttemptThreshold
  · rw [if_pos hreached] at h
    cases h
  · exact Nat.lt_of_not_le hreached

namespace Request

variable {request : Request} {ev : request.Evidence} {rt : Runtime} {db db' : Db}

/-- A command that counts a fix attempt found its run below the threshold. -/
theorem Step.below {run : FeatureRun} (h : request.Step ev rt db db' run)
    (hcounts : request.command.fixAttempts ≠ 0) : run.fixAttemptCount < fixAttemptThreshold := by
  obtain ⟨keys, g, s, s', -, hguard⟩ := h.guard
  rcases request with ⟨command, envelope⟩
  cases command
  case recordChangesRequested | requestChangesAfterCiFail => exact below_of_guard hguard
  all_goals exact absurd rfl hcounts

/-- **What a transition adds to the fix attempts of its run**; it leaves the others. -/
theorem Did.fixAttemptCount (h : request.Did ev rt db db') (featureRunId : String) :
    db'.fixAttemptCount featureRunId = db.fixAttemptCount featureRunId +
      if featureRunId = request.ref.featureRunId then request.command.fixAttempts else 0 := by
  obtain ⟨keys, keys', db₂, run, hmoved, rfl⟩ := h
  obtain ⟨hrun, hid, -⟩ := Db.findFeatureRun_some hmoved.found
  rw [transition_featureRunId] at hid
  have hids : ∀ r r', (request.transition ev).Change run r r' → r'.id = r.id := by
    rintro r r' (⟨rfl, rfl⟩ | ⟨-, hcascaded⟩)
    · rfl
    · exact hcascaded.fixAttemptCount.1
  have hsearch : ∀ r r', (request.transition ev).Change run r r' →
      (r'.id == featureRunId) = (r.id == featureRunId) := by
    intro r r' hchange
    rw [hids r r' hchange]
  by_cases hown : featureRunId = request.ref.featureRunId
  · -- its own run: the `UPDATE` adds the attempts of the command
    obtain ⟨run', hrun', hchange⟩ := hmoved.runs.exists_of_mem hrun
    have hafter : db₂.fixAttemptCount run'.id = run'.fixAttemptCount := Db.fixAttemptCount_eq hrun'
    have hbefore : db.fixAttemptCount run.id = run.fixAttemptCount := Db.fixAttemptCount_eq hrun
    rw [hids run run' hchange, hid, ← hown] at hafter
    rw [hid, ← hown] at hbefore
    rcases hchange with ⟨-, rfl⟩ | ⟨hne, -⟩
    · rw [if_pos hown, hbefore]
      refine hafter.trans ?_
      show run.fixAttemptCount + (request.transition ev).fixAttempts = _
      rw [transition_fixAttempts]
    · rw [transition_featureRunId] at hne
      exact absurd hid hne
  · -- another run: at most a cascade, which keeps the count
    rw [if_neg hown, Nat.add_zero]
    have hread : (db₂.runById featureRunId).map (·.fixAttemptCount) =
        (db.runById featureRunId).map (·.fixAttemptCount) := by
      refine hmoved.runs.map_find? hsearch fun r r' hchange hmatch => ?_
      rcases hchange with ⟨rfl, -⟩ | ⟨-, hcascaded⟩
      · exact absurd ((beq_iff_eq.mp hmatch).symm.trans hid) hown
      · exact hcascaded.fixAttemptCount.2
    exact congrArg (·.getD 0) hread

end Request

/-! ### Entries into `changes_requested` -/

/-- An entry of a run into `changes_requested`, with the command that made it. -/
structure Entry where
  featureRunId : String
  command : FeatureCommand
  deriving DecidableEq, Repr

/-- A review rejection or a CI failure handed back, of a run. -/
def Entry.automatic (featureRunId : String) (entry : Entry) : Bool :=
  entry.command != .resolveDisagreement && entry.featureRunId == featureRunId

namespace SystemEvent

/-- The entry that a command's commit made: it has changed its run, which is in `changes_requested`
afterwards. -/
def entry (db : Db) : SystemEvent → Option Entry
  | commit request ev rt =>
    if (next db (commit request ev rt)).runById request.ref.featureRunId ≠
          db.runById request.ref.featureRunId ∧
        (next db (commit request ev rt)).stateOf request.ref.featureRunId = some .changesRequested then
      some ⟨request.ref.featureRunId, request.command⟩
    else none
  | _ => none

/-- The entries of a sequence of steps. -/
abbrev entries (db : Db) (es : List SystemEvent) : List Entry := outputs next entry db es

/-- Steps other than commands leave the fix attempts of every run; a run that they add has none. -/
def KeepsFixAttempts (db : Db) : SystemEvent → Prop
  | other db' => ∀ featureRunId, db'.fixAttemptCount featureRunId = db.fixAttemptCount featureRunId
  | _ => True

/-- An entry is a resolution, which counts nothing, or was counted below the threshold. -/
def CountsEntry (db : Db) (e : SystemEvent) : Prop :=
  ∀ made, entry db e = some made →
    (made.command = .resolveDisagreement ∧
      (next db e).fixAttemptCount made.featureRunId = db.fixAttemptCount made.featureRunId) ∨
    (db.fixAttemptCount made.featureRunId < fixAttemptThreshold ∧
      (next db e).fixAttemptCount made.featureRunId = db.fixAttemptCount made.featureRunId + 1)

variable {db : Db} {e : SystemEvent} {request : Request} {ev : request.Evidence} {rt : Runtime}

theorem entry_of_same (h : next db (commit request ev rt) = db) :
    entry db (commit request ev rt) = none := by
  have hrun : (next db (commit request ev rt)).runById request.ref.featureRunId =
      db.runById request.ref.featureRunId := by
    rw [h]
  exact if_neg fun hentered => hentered.1 hrun

/-- A transition made an entry exactly when it leads to `changes_requested`. -/
theorem entry_of_did (h : request.Did ev rt db (next db (commit request ev rt))) :
    entry db (commit request ev rt) = if request.command.target = .changesRequested then
      some ⟨request.ref.featureRunId, request.command⟩ else none := by
  obtain ⟨run, hstep⟩ := h.step
  obtain ⟨hrun, hid, run', hrun', hid', -, hversion, hstate⟩ := hstep.moves
  have hbefore := Db.runById_eq hrun
  have hafter := Db.runById_eq hrun'
  rw [hid] at hbefore
  rw [hid'] at hafter
  have hchanged : (next db (commit request ev rt)).runById request.ref.featureRunId ≠
      db.runById request.ref.featureRunId := by
    rw [hafter, hbefore]
    intro hsame
    have hrows := Option.some.inj hsame
    rw [hrows] at hversion
    omega
  have hreached : (next db (commit request ev rt)).stateOf request.ref.featureRunId =
      some request.command.target := by
    rw [Db.stateOf, hafter, ← hstate]
    rfl
  by_cases htarget : request.command.target = .changesRequested
  · rw [if_pos htarget]
    exact if_pos ⟨hchanged, hreached.trans (congrArg some htarget)⟩
  · rw [if_neg htarget]
    exact if_neg fun hentered => htarget (Option.some.inj (hreached.symm.trans hentered.2))

/-- **Each entry into `changes_requested` is a resolution, or is counted below the threshold.** -/
theorem entry_counted (db : Db) (e : SystemEvent) : CountsEntry db e := by
  intro made hmade
  cases e with
  | commit request ev rt =>
    rcases next_commit db request ev rt with hsame | hdid
    · rw [entry_of_same hsame] at hmade
      cases hmade
    · rw [entry_of_did hdid] at hmade
      split at hmade
      case isFalse => cases hmade
      case isTrue htarget =>
        obtain rfl := Option.some.inj hmade
        have hcount := hdid.fixAttemptCount request.ref.featureRunId
        rw [if_pos rfl, FeatureCommand.fixAttempts_eq] at hcount
        by_cases hresolved : request.command = .resolveDisagreement
        · rw [if_neg fun h => h.2 hresolved] at hcount
          exact Or.inl ⟨hresolved, hcount⟩
        · rw [if_pos ⟨htarget, hresolved⟩] at hcount
          refine Or.inr ⟨?_, hcount⟩
          obtain ⟨run, hstep⟩ := hdid.step
          obtain ⟨hrun, hid, -⟩ := hstep.moves
          have hbelow := hstep.below (by
            rw [FeatureCommand.fixAttempts_eq, if_pos ⟨htarget, hresolved⟩]
            exact Nat.one_ne_zero)
          rw [← Db.fixAttemptCount_eq hrun, hid] at hbelow
          exact hbelow
  | lock e => cases hmade
  | gather request rt => cases hmade
  | other db' => cases hmade

/-- **The fix attempts of a run count its automatic entries.** -/
theorem fixAttemptCount_next (featureRunId : String) (h : KeepsFixAttempts db e) :
    (next db e).fixAttemptCount featureRunId = db.fixAttemptCount featureRunId +
      (entry db e).toList.countP (Entry.automatic featureRunId) := by
  cases e with
  | commit request ev rt =>
    rcases next_commit db request ev rt with hsame | hdid
    · rw [entry_of_same hsame, hsame]
      rfl
    · rw [entry_of_did hdid, hdid.fixAttemptCount featureRunId, FeatureCommand.fixAttempts_eq]
      by_cases htarget : request.command.target = .changesRequested
      · by_cases hresolved : request.command = .resolveDisagreement
        · simp [hresolved, Entry.automatic]
        · by_cases hown : featureRunId = request.ref.featureRunId
          · simp [htarget, hresolved, hown, Entry.automatic]
          · simp [htarget, hresolved, hown, Ne.symm hown, Entry.automatic]
      · simp [htarget]
  | lock e =>
    have hruns := congrArg Db.featureRuns (LockEvent.next_withoutLocks db e)
    exact Db.fixAttemptCount_of_eq hruns featureRunId
  | gather request rt =>
    have hruns := congrArg Db.featureRuns (next_gather db request rt)
    exact Db.fixAttemptCount_of_eq hruns featureRunId
  | other db' => exact h featureRunId

/-- Steps keep every run within the threshold. -/
theorem withinThreshold_next (hwithin : db.WithinThreshold) (h : KeepsFixAttempts db e) :
    (next db e).WithinThreshold := by
  intro featureRunId
  have hcount := fixAttemptCount_next featureRunId h
  have hbound := hwithin featureRunId
  rcases hentry : entry db e with _ | made
  · rw [hentry] at hcount
    exact hcount.le.trans hbound
  · rw [hentry] at hcount
    by_cases hown : made.automatic featureRunId = true
    · obtain ⟨hautomatic, hid⟩ := Bool.and_eq_true_iff.mp hown
      obtain rfl := beq_iff_eq.mp hid
      rcases entry_counted db e made hentry with ⟨hresolved, -⟩ | ⟨hbelow, hraised⟩
      · rw [hresolved] at hautomatic
        cases hautomatic
      · rw [hraised]
        exact hbelow
    · have hnone : (some made).toList.countP (Entry.automatic featureRunId) = 0 := by
        simp [hown]
      omega

end SystemEvent

/-! ### Any order of steps -/

open SystemEvent

/-- **The fix loop is bounded**: no run ever exceeds the threshold; each entry into
`changes_requested` by a review rejection or a CI failure is counted, below the threshold only, and
one by the resolution of a disagreement counts nothing; so the automatic entries of a run are as many
as its count has grown by, and no more than the threshold. -/
theorem fix_loop_bounded (db : Db) (es : List SystemEvent) (hstart : db.WithinThreshold)
    (hothers : Along next KeepsFixAttempts db es) :
    Throughout next Db.WithinThreshold db es ∧ Along next CountsEntry db es ∧
      ∀ featureRunId,
        (after db es).fixAttemptCount featureRunId = db.fixAttemptCount featureRunId +
            (entries db es).countP (Entry.automatic featureRunId) ∧
          (entries db es).countP (Entry.automatic featureRunId) ≤ fixAttemptThreshold := by
  have hwithin : Throughout next Db.WithinThreshold db es :=
    throughout_of_step (fun _ _ hdb he => withinThreshold_next hdb he) hstart hothers
  refine ⟨hwithin, along_of_forall entry_counted db es, fun featureRunId => ?_⟩
  have hcount : (after db es).fixAttemptCount featureRunId = db.fixAttemptCount featureRunId +
      (entries db es).countP (Entry.automatic featureRunId) :=
    counter_run (fun db => Db.fixAttemptCount db featureRunId)
      (fun _ _ he => fixAttemptCount_next featureRunId he) hothers
  have hlast : (after db es).fixAttemptCount featureRunId ≤ fixAttemptThreshold :=
    hwithin.last featureRunId
  refine ⟨hcount, ?_⟩
  omega

/-- A run whose CI check fails, and is handed back. -/
def failedHistory : List SystemEvent := cycleToCi ++ [
  commit ⟨.recordCiFailed, sampleEnvelope .system "failed" {
    featureRunId := "run-1", projectId := "P", expectedVersion := 6, checkRunId := "check" }⟩ ()
    (sampleRuntime 6),
  commit ⟨.requestChangesAfterCiFail, sampleEnvelope .system "handed-back" ⟨"run-1", "P", 7⟩⟩ ()
    (sampleRuntime 7)]

example : entries sampleDb failedHistory = [⟨"run-1", .requestChangesAfterCiFail⟩] := by decide +kernel

theorem fix_loop_bounded_failedHistory :
    Throughout next Db.WithinThreshold sampleDb failedHistory ∧
      Along next CountsEntry sampleDb failedHistory ∧
      ∀ featureRunId,
        (after sampleDb failedHistory).fixAttemptCount featureRunId =
            sampleDb.fixAttemptCount featureRunId +
              (entries sampleDb failedHistory).countP (Entry.automatic featureRunId) ∧
          (entries sampleDb failedHistory).countP (Entry.automatic featureRunId) ≤
            fixAttemptThreshold :=
  fix_loop_bounded sampleDb failedHistory (Db.withinThreshold_of_rows (by decide))
    ⟨trivial, trivial, trivial, trivial, trivial, trivial, trivial, trivial, trivial⟩

/-! ### Resolved disagreements -/

/-- A run that comes under review. -/
def underReviewHistory : List SystemEvent := cycleToCi ++ [
  commit ⟨.recordCiPassed, sampleEnvelope .system "passed" {
    featureRunId := "run-1", projectId := "P", expectedVersion := 6, checkRunId := "check" }⟩ ()
    (sampleRuntime 6)]

/-- The tables once six review cycles of the run have each left a disagreement open. -/
def disputed (db : Db) : Db :=
  { db with
    disagreementRecords := .ofList [
      { id := "disagreement:run-1:2", featureRunId := "run-1", reviewCycle := 2 },
      { id := "disagreement:run-1:3", featureRunId := "run-1", reviewCycle := 3 },
      { id := "disagreement:run-1:4", featureRunId := "run-1", reviewCycle := 4 },
      { id := "disagreement:run-1:5", featureRunId := "run-1", reviewCycle := 5 },
      { id := "disagreement:run-1:6", featureRunId := "run-1", reviewCycle := 6 },
      { id := "disagreement:run-1:7", featureRunId := "run-1", reviewCycle := 7 }] }

/-- The run, at version `v`, is escalated, and a human resolves one of its disagreements. -/
def escalatedAndResolved (v : ℕ) : List SystemEvent := [
  commit ⟨.escalateToHuman, sampleEnvelope .system s!"escalate-{v}" {
    featureRunId := "run-1", projectId := "P", expectedVersion := v, reason := "stuck" }⟩ ()
    (sampleRuntime v),
  commit ⟨.resolveDisagreement, sampleEnvelope .human s!"resolve-{v}" {
    featureRunId := "run-1", projectId := "P", expectedVersion := v + 1, resolution := "fix" }⟩ ()
    (sampleRuntime (v + 1))]

/-- The disagreements are resolved one after the other. -/
def disputedHistory : List SystemEvent :=
  underReviewHistory ++ [other (disputed (after sampleDb underReviewHistory))] ++
    [7, 9, 11, 13, 15, 17].flatMap escalatedAndResolved

theorem keepsFixAttempts_disputed (db : Db) : KeepsFixAttempts db (other (disputed db)) :=
  fun _ => rfl

/-- **Resolved disagreements are not bounded**: a run enters `changes_requested` six times, and has
counted no fix attempt. -/
theorem disputed_unbounded :
    Db.WithinThreshold sampleDb ∧ Along next KeepsFixAttempts sampleDb disputedHistory ∧
      fixAttemptThreshold < (entries sampleDb disputedHistory).countP (·.featureRunId == "run-1") ∧
      (after sampleDb disputedHistory).fixAttemptCount "run-1" = 0 := by
  have hentries : (entries sampleDb disputedHistory).countP (·.featureRunId == "run-1") = 6 := by
    decide +kernel
  have hcount : (after sampleDb disputedHistory).fixAttemptCount "run-1" = 0 := by
    decide +kernel
  refine ⟨Db.withinThreshold_of_rows (by decide), ?_, by rw [hentries]; decide, hcount⟩
  refine along_append.mpr ⟨along_append.mpr ⟨?_, keepsFixAttempts_disputed _, trivial⟩, ?_⟩
  · exact ⟨trivial, trivial, trivial, trivial, trivial, trivial, trivial, trivial⟩
  · refine along_of_forall_mem (fun e he db => ?_) _
    obtain ⟨v, -, hv⟩ := List.mem_flatMap.mp he
    rcases List.mem_pair.mp hv with rfl | rfl
    · trivial
    · trivial

end MiniCoder
