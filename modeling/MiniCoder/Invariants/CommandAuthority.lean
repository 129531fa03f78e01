import MiniCoder.System

/-!
# The authority of a command

Each edge of the feature-execution matrix lists the commands it is for, but the validator looks an
edge up by its two ends only, and a handler fixes only the end it moves to.  A handler whose own
checks do not settle where it comes from can therefore take an edge of another command.

* `matrix_owners`: the edges into a command's target are its own exactly from the states that it
  does not borrow.
* `authorised_iff`: a commit that changes its run is authorised exactly when it does not borrow.
* `command_authority`: a run of steps that borrow no edge takes authorised edges only.
* `resume_borrows`: a resume takes a run out of its CI checks into review.
-/

open Storage Runs

namespace MiniCoder

open FeatureExecutionState in
/-- The states out of which a command would take an edge that the matrix reserves for another. -/
def FeatureCommand.borrowsFrom : FeatureCommand → List FeatureExecutionState
  | selectFeature => [humanRequired]
  | retryFeature => [approvedPendingExecution]
  | resumeFeatureExecution => [ciRunning, mergeFailed]
  | reconcileMergeFailed => [ciRunning, humanRequired]
  | recordCiPassed => [mergeFailed, humanRequired]
  | resolveDisagreement => [ciFailed, underReview]
  | recordChangesRequested => [ciFailed, humanRequired]
  | requestChangesAfterCiFail => [underReview, humanRequired]
  | blockFeature => [approvedPendingExecution]
  | _ => []

/-- **An edge into a command's target is the command's own exactly out of the states it does not
borrow from.** -/
theorem FeatureCommand.matrix_owners (c : FeatureCommand) :
    ∀ row ∈ featureExecutionMatrix, row.toState = c.target →
      (c.handler.commandName ∈ row.triggeringCommands ↔ row.fromState ∉ c.borrowsFrom) := by
  cases c <;> decide +kernel

/-- An edge that the validator accepts for a command is listed for it unless it is borrowed. -/
theorem FeatureCommand.lists_iff {c : FeatureCommand} {fromState : FeatureExecutionState}
    (hvalid : isValid fromState c.target = true) :
    Lists fromState c.target c.handler.commandName ↔ fromState ∉ c.borrowsFrom := by
  constructor
  · rintro ⟨row, hrow, rfl, hto, hname⟩
    exact (c.matrix_owners row hrow hto).mp hname
  · intro hown
    obtain ⟨row, hrow, rfl, hto⟩ := isValid_iff.mp hvalid
    exact ⟨row, hrow, rfl, hto, (c.matrix_owners row hrow hto).mpr hown⟩

/-- No edge of the matrix stays where it is. -/
theorem ne_of_isValid {fromState toState : FeatureExecutionState}
    (h : isValid fromState toState = true) : toState ≠ fromState := by
  obtain ⟨row, hrow, rfl, rfl⟩ := isValid_iff.mp h
  revert row
  decide +kernel

/-- A cascade takes the edge that the matrix lists for a skip. -/
theorem FeatureCommand.lists_cascade {c : FeatureCommand} (h : c.target = .skipped) :
    Lists .approvedPendingExecution .blocked c.handler.commandName := by
  cases c with
  | skipFeature => decide +kernel
  | _ => cases h

/-! ### Authorised steps -/

namespace SystemEvent

/-- Each run whose state a commit changed took an edge that the matrix lists for the command. -/
def Authorised (db : Db) : SystemEvent → Prop
  | commit request ev rt =>
    ∀ run ∈ db.featureRuns.rows, ∀ run' ∈ (next db (commit request ev rt)).featureRuns.rows,
      run'.id = run.id → run'.currentExecutionState ≠ run.currentExecutionState →
        Lists run.currentExecutionState run'.currentExecutionState request.handler.commandName
  | _ => True

/-- The run of a command is in no state that the command borrows from. -/
def OwnEdge (db : Db) : SystemEvent → Prop
  | commit request _ _ =>
    ∀ run ∈ db.findFeatureRun request.ref.featureRunId request.ref.projectId,
      run.currentExecutionState ∉ request.command.borrowsFrom
  | _ => True

instance (db : Db) : (e : SystemEvent) → Decidable (Authorised db e)
  | commit _ _ _ => inferInstanceAs (Decidable (∀ _ ∈ _, ∀ _ ∈ _, _ → _ → Lists _ _ _))
  | lock _ | gather _ _ | other _ => isTrue trivial

instance (db : Db) : (e : SystemEvent) → Decidable (OwnEdge db e)
  | commit _ _ _ => inferInstanceAs (Decidable (∀ _ ∈ Db.findFeatureRun _ _ _, _ ∉ _))
  | lock _ | gather _ _ | other _ => isTrue trivial

variable {db : Db} {request : Request} {ev : request.Evidence} {rt : Runtime}

/-- A step that changed its run is authorised exactly when it did not borrow its edge. -/
theorem authorised_of_step {run : FeatureRun}
    (hstep : request.Step ev rt db (next db (commit request ev rt)) run) :
    Authorised db (commit request ev rt) ↔
      run.currentExecutionState ∉ request.command.borrowsFrom := by
  obtain ⟨hmem, hid, -⟩ := Db.findFeatureRun_some hstep.found
  obtain ⟨moved, hmoved, hchange⟩ := hstep.runs.exists_of_mem hmem
  have hname := FeatureCommand.lists_iff hstep.valid
  constructor
  · intro hauth
    rcases hchange with ⟨-, hid', -, hstate, -⟩ | ⟨hne, -⟩
    · have hlists := hauth run hmem moved hmoved hid' (by
        rw [hstate]
        exact ne_of_isValid hstep.valid)
      rw [hstate] at hlists
      exact hname.mp hlists
    · exact absurd hid hne
  · intro hown r hr r' hr' hids hstates
    obtain ⟨r₀, hr₀, hchange₀⟩ := hstep.runs.exists_mem_of hr'
    have hsame : r₀.id = r'.id → r₀ = r := fun h =>
      db.featureRuns.eq_of_clash hr₀ hr (decide_eq_true (h.trans hids))
    rcases hchange₀ with ⟨rfl, hid', -, hstate, -⟩ | ⟨-, rfl | ⟨hto, hpending, rfl⟩⟩
    · obtain rfl := hsame hid'.symm
      rw [hstate]
      exact hname.mpr hown
    · obtain rfl := hsame rfl
      exact absurd rfl hstates
    · obtain rfl := hsame rfl
      show Lists r₀.currentExecutionState .blocked _
      rw [hpending]
      exact FeatureCommand.lists_cascade hto

/-- **A commit that changes its run is authorised exactly when it does not borrow its edge.** -/
theorem authorised_iff (hchange : next db (commit request ev rt) ≠ db) :
    Authorised db (commit request ev rt) ↔ OwnEdge db (commit request ev rt) := by
  rcases next_commit db request ev rt with hsame | hdid
  · exact absurd hsame hchange
  · obtain ⟨run, hstep⟩ := hdid.step
    rw [authorised_of_step hstep]
    constructor
    · intro hown r hr
      obtain rfl := Option.some.inj (hstep.found.symm.trans hr)
      exact hown
    · intro hown
      exact hown run hstep.found

/-- A step that borrows no edge is authorised. -/
theorem authorised_of_ownEdge {e : SystemEvent} (h : OwnEdge db e) : Authorised db e := by
  cases e with
  | commit request ev rt =>
    by_cases hsame : next db (commit request ev rt) = db
    · intro run hrun run' hrun' hid hstate
      rw [hsame] at hrun'
      obtain rfl := db.featureRuns.eq_of_clash hrun' hrun (decide_eq_true hid)
      exact absurd rfl hstate
    · exact (authorised_iff hsame).mpr h
  | _ => trivial

end SystemEvent

open SystemEvent

/-- **The authority of a command**: in a run whose commands borrow no edge, every state change takes
an edge that the matrix lists for its command; a command that borrows an edge and commits does not. -/
theorem command_authority (db : Db) (es : List SystemEvent) :
    (Along next OwnEdge db es → Along next Authorised db es) ∧
      ∀ (request : Request) (ev : request.Evidence) (rt : Runtime),
        next (after db es) (commit request ev rt) ≠ after db es →
          (Authorised (after db es) (commit request ev rt) ↔
            OwnEdge (after db es) (commit request ev rt)) :=
  ⟨fun hown => hown.imp fun _ _ => authorised_of_ownEdge, fun _ _ _ => authorised_iff⟩

/-- A resume of the first feature, while its checks run. -/
def earlyResume : SystemEvent :=
  commit ⟨.resumeFeatureExecution, sampleEnvelope .human "resume" {
    featureRunId := "run-1", projectId := "P", expectedVersion := 6, notes := "resume" }⟩ ()
    (sampleRuntime 6)

/-- The feature is in review after the resume, though its checks never finished. -/
example : ((after sampleDb (cycleToCi ++ [earlyResume])).runById "run-1").map
    (·.currentExecutionState) = some .underReview := by decide +kernel

theorem resume_borrows : ¬ Along next Authorised sampleDb (cycleToCi ++ [earlyResume]) := by
  intro h
  have hlast := (along_append.mp h).2.1
  revert hlast
  decide +kernel

end MiniCoder
