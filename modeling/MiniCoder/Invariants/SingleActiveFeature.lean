import MiniCoder.System

/-!
# A single active feature

A project works on one feature at a time: the run that is in flight is the one its
`workflow_states` row points at.  The invariant is established by `SelectFeature`, which claims an
idle project, and by `RetryFeature`, which asks for the pointer; every command that only moves a run
on keeps it, because the run it moves was in flight already.  The commands of `resumes` take a run
back in flight out of `human_required` without asking.

* `Step.reenters`: the three ways into flight.
* `Step.singleActive_iff`: a transition keeps the invariant exactly when it did not re-enter past
  the pointer.
* `single_active_feature`: in every run whose commands all re-enter on the active run, each state
  has one active feature.
* `resume_second`: a resume puts a second feature in flight.
-/

open Storage Storage.Action Runs

namespace MiniCoder

/-! ### In flight -/

/-- The states in which a run occupies its project. -/
def FeatureExecutionState.inFlight : FeatureExecutionState → Bool
  | approvedPendingExecution | blocked | humanRequired | merged | skipped | failed
  | systemFailed => false
  | _ => true

namespace Db

/-- The run is an in-flight run of the project. -/
structure InFlight (db : Db) (projectId : String) (run : FeatureRun) : Prop where
  stored : run ∈ db.featureRuns.rows
  project : db.InProject run projectId
  state : run.currentExecutionState.inFlight = true

/-- `workflow_states.active_feature_run_id` of the project. -/
def activeFeatureRunId (db : Db) (projectId : String) : Option String :=
  (db.findWorkflowState projectId).bind (·.activeFeatureRunId)

end Db

/-- At most one run of a project is in flight, and it is the active one. -/
structure SingleActive (db : Db) : Prop where
  unique : ∀ projectId run run', db.InFlight projectId run → db.InFlight projectId run' → run = run'
  recorded : ∀ projectId run, db.InFlight projectId run →
    db.activeFeatureRunId projectId = some run.id

/-- What is recorded as the active run is unique. -/
theorem SingleActive.of_recorded {db : Db}
    (h : ∀ projectId run, db.InFlight projectId run →
      db.activeFeatureRunId projectId = some run.id) : SingleActive db where
  unique projectId run run' hrun hrun' := by
    have hids : run.id = run'.id :=
      Option.some.inj ((h projectId run hrun).symm.trans (h projectId run' hrun'))
    exact db.featureRuns.eq_of_clash hrun.stored hrun'.stored (decide_eq_true hids)
  recorded := h

/-! ### The pointer moves -/

section Pointers

variable {db db' : Db} {projectId featureRunId p : String}

theorem activeFeatureRunId_of_eq (h : db'.workflowStates = db.workflowStates) :
    db'.activeFeatureRunId p = db.activeFeatureRunId p := by
  rw [Db.activeFeatureRunId, Db.findWorkflowState, h]
  rfl

/-- The row of a project after an update that leaves the projects alone. -/
theorem findWorkflowState_update {q : WorkflowState → Bool} {f : WorkflowState → WorkflowState}
    {hf : KeyFree f} (h : db'.workflowStates = db.workflowStates.update q f hf)
    (hproject : ∀ ws, (f ws).projectId = ws.projectId) :
    db'.findWorkflowState p = (db.findWorkflowState p).map (Table.updateRow q f) := by
  rw [Db.findWorkflowState, h]
  exact Table.find?_update fun ws => by rw [hproject ws]

/-- The row that a claim matched is the project's, and its pointer was free. -/
theorem idle_of_count (h : db.workflowStates.count (Db.isIdle projectId) ≠ 0) :
    ∃ ws, db.findWorkflowState projectId = some ws ∧ Db.isIdle projectId ws = true := by
  obtain ⟨ws, hws, hidle⟩ := Table.count_pos h
  have hproject : ws.projectId = projectId := by
    simp only [Db.isIdle, Bool.and_eq_true, beq_iff_eq] at hidle
    exact hidle.1.1
  refine ⟨ws, ?_, hidle⟩
  exact db.workflowStates.find?_eq_some hws (beq_iff_eq.mpr hproject) fun ws' hws' =>
    decide_eq_true (Or.inr (hproject.trans (beq_iff_eq.mp hws').symm))

theorem activeFeatureRunId_of_idle (h : db.workflowStates.count (Db.isIdle projectId) ≠ 0) :
    db.activeFeatureRunId projectId = none := by
  obtain ⟨ws, hfind, hidle⟩ := idle_of_count h
  rw [Db.activeFeatureRunId, hfind]
  simp only [Db.isIdle, Bool.and_eq_true, Option.isNone_iff_eq_none] at hidle
  exact hidle.2

/-- The pointer of a project after a claim. -/
theorem activeFeatureRunId_claim (h : PointerMove.claim.Moves projectId featureRunId
    db.workflowStates db'.workflowStates) :
    db'.activeFeatureRunId p =
      if p = projectId then some featureRunId else db.activeFeatureRunId p := by
  obtain ⟨hcount, ht⟩ := h
  rw [Db.activeFeatureRunId, findWorkflowState_update ht fun _ => rfl]
  by_cases hp : p = projectId
  · obtain ⟨ws, hws, hidle⟩ := idle_of_count hcount
    rw [if_pos hp, hp, hws]
    show (Table.updateRow _ _ ws).activeFeatureRunId = some featureRunId
    rw [Table.updateRow_of_pos hidle]
  · rw [if_neg hp, Db.activeFeatureRunId]
    rcases hws : db.findWorkflowState p with _ | ws
    · rfl
    · have hproject := (Db.findWorkflowState_some hws).2
      have hmiss : Db.isIdle projectId ws = false := by
        rw [Db.isIdle, hproject, beq_eq_false_iff_ne.mpr hp, Bool.false_and, Bool.false_and]
      show (Table.updateRow _ _ ws).activeFeatureRunId = ws.activeFeatureRunId
      rw [Table.updateRow_of_neg hmiss]

/-- A release frees no other run's project. -/
theorem activeFeatureRunId_release {id : String} (h : PointerMove.release.Moves projectId
    featureRunId db.workflowStates db'.workflowStates) (hne : id ≠ featureRunId)
    (hactive : db.activeFeatureRunId p = some id) : db'.activeFeatureRunId p = some id := by
  have ht : db'.workflowStates = clearActive db.workflowStates projectId featureRunId := h
  obtain ⟨ws, hws, hid⟩ := Option.bind_eq_some_iff.mp hactive
  have hmiss : Db.isActive projectId featureRunId ws = false := by
    rw [Db.isActive, hid, Bool.and_eq_false_iff]
    exact Or.inr (beq_eq_false_iff_ne.mpr fun h => hne (Option.some.inj h))
  rw [Db.activeFeatureRunId, findWorkflowState_update ht fun _ => rfl, hws]
  show (Table.updateRow _ _ ws).activeFeatureRunId = some id
  rw [Table.updateRow_of_neg hmiss]
  exact hid

/-- Another run's project stays its own, whatever a command does to its own pointer. -/
theorem activeFeatureRunId_other {move : PointerMove} {id : String}
    (h : move.Moves projectId featureRunId db.workflowStates db'.workflowStates)
    (hne : id ≠ featureRunId) (hactive : db.activeFeatureRunId p = some id) :
    db'.activeFeatureRunId p = some id := by
  cases move with
  | keep => rw [activeFeatureRunId_of_eq h, hactive]
  | claim =>
    rw [activeFeatureRunId_claim h]
    by_cases hp : p = projectId
    · rw [hp, activeFeatureRunId_of_idle h.1] at hactive
      cases hactive
    · rw [if_neg hp, hactive]
  | release => exact activeFeatureRunId_release h hne hactive

end Pointers

/-! ### The ways into flight -/

/-- The commands that take a run in flight out of `human_required` without asking whether it is the
active one. -/
def FeatureCommand.resumes : FeatureCommand → Bool
  | resumeFeatureExecution | resolveDisagreement | reconcileMergeFailed | recordCiPassed
  | recordChangesRequested | requestChangesAfterCiFail => true
  | _ => false

theorem FeatureCommand.edges_into_flight (c : FeatureCommand) :
    ∀ row ∈ featureExecutionMatrix, row.toState = c.target → c.target.inFlight = true →
      row.fromState.inFlight = true ∨ c = .selectFeature ∨ c = .retryFeature ∨
        (c.resumes = true ∧ row.fromState = .humanRequired) := by
  cases c <;> decide +kernel

/-- A command that resumes leaves the pointer alone, and puts its run in flight. -/
theorem FeatureCommand.resumes_keeps {c : FeatureCommand} (h : c.resumes = true) :
    c.pointer = .keep ∧ c.target.inFlight = true := by
  cases c with
  | resumeFeatureExecution | resolveDisagreement | reconcileMergeFailed | recordCiPassed
  | recordChangesRequested | requestChangesAfterCiFail => exact ⟨rfl, rfl⟩
  | _ => cases h

/-- A command that gives its project up takes its run out of flight. -/
theorem FeatureCommand.inFlight_of_release {c : FeatureCommand} (h : c.pointer = .release) :
    c.target.inFlight = false := by
  cases c with
  | blockFeature | skipFeature | recordMerged => rfl
  | _ => cases h

namespace Request

variable {request : Request} {ev : request.Evidence} {rt : Runtime} {db db' : Db}
  {run : FeatureRun}

/-- A retry asked for the active run. -/
theorem Step.retry_active (hstep : request.Step ev rt db db' run)
    (hretry : request.command = .retryFeature) :
    db.activeFeatureRunId request.ref.projectId = some request.ref.featureRunId := by
  obtain ⟨keys, g, s, s', hview, hguard⟩ := hstep.guard
  rcases request with ⟨command, envelope⟩
  obtain rfl : command = .retryFeature := hretry
  obtain ⟨ws, hws, hactive⟩ := assertActiveFeatureRun_ok hguard
  have hstates : s.db.workflowStates = db.workflowStates :=
    (congrArg (fun v => v.1.workflowStates) hview :
      s.db.core.workflowStates = db.core.workflowStates)
  rw [Db.findWorkflowState, hstates] at hws
  exact Option.bind_eq_some_iff.mpr ⟨ws, hws, hactive⟩

/-- **The ways into flight**: from a state in flight, by the claim of an idle project, by a retry of
the active run, or by a resume. -/
theorem Step.reenters (hstep : request.Step ev rt db db' run)
    (htarget : request.command.target.inFlight = true) :
    run.currentExecutionState.inFlight = true ∨ request.command.pointer = .claim ∨
      db.activeFeatureRunId request.ref.projectId = some request.ref.featureRunId ∨
      (request.command.resumes = true ∧ run.currentExecutionState = .humanRequired) := by
  obtain ⟨row, hrow, hfrom, hto⟩ := isValid_iff.mp hstep.valid
  rcases request.command.edges_into_flight row hrow hto htarget with h | h | h | h
  · exact Or.inl (hfrom ▸ h)
  · exact Or.inr (Or.inl (by rw [h]; rfl))
  · exact Or.inr (Or.inr (Or.inl (hstep.retry_active h)))
  · exact Or.inr (Or.inr (Or.inr (hfrom ▸ h)))

/-- A command that resumes its run resumes the active one. -/
def ReentersActive (request : Request) (db : Db) : Prop :=
  ∀ run ∈ db.findFeatureRun request.ref.featureRunId request.ref.projectId,
    request.command.resumes = true → run.currentExecutionState = .humanRequired →
      db.activeFeatureRunId request.ref.projectId = some request.ref.featureRunId

instance (request : Request) (db : Db) : Decidable (request.ReentersActive db) :=
  inferInstanceAs (Decidable (∀ run ∈ db.findFeatureRun _ _, _ → run.currentExecutionState = _ → _))

/-- The run of a transition that ends in flight is the active one, when a resume asked for it. -/
theorem Step.active (hstep : request.Step ev rt db db' run) (hinv : SingleActive db)
    (hreenters : request.ReentersActive db) (htarget : request.command.target.inFlight = true) :
    db'.activeFeatureRunId request.ref.projectId = some request.ref.featureRunId := by
  obtain ⟨hmem, hid, hproject⟩ := Db.findFeatureRun_some hstep.found
  have hpointer := hstep.pointer
  by_cases hclaim : request.command.pointer = .claim
  · rw [hclaim] at hpointer
    rw [activeFeatureRunId_claim hpointer, if_pos rfl]
  · -- the pointer is left alone, and was on the run before
    have hkeep : request.command.pointer = .keep := by
      cases hmove : request.command.pointer with
      | keep => rfl
      | claim => exact absurd hmove hclaim
      | release =>
        rw [FeatureCommand.inFlight_of_release hmove] at htarget
        cases htarget
    rw [hkeep] at hpointer
    rw [activeFeatureRunId_of_eq hpointer]
    rcases hstep.reenters htarget with hflight | hclaim' | hactive | ⟨hresumes, hhuman⟩
    · rw [← hid]
      exact hinv.recorded _ run ⟨hmem, hproject, hflight⟩
    · exact absurd hclaim' hclaim
    · exact hactive
    · exact hreenters run hstep.found hresumes hhuman

/-- **A transition keeps a single active feature exactly when it did not re-enter past the
pointer.** -/
theorem Step.singleActive_iff (hstep : request.Step ev rt db db' run) (hinv : SingleActive db)
    (hrequests : db'.featureRequests = db.featureRequests) :
    SingleActive db' ↔ request.ReentersActive db := by
  obtain ⟨hmem, hid, hproject⟩ := Db.findFeatureRun_some hstep.found
  have hin : ∀ {r r' : FeatureRun} {p : String}, r'.featureRequestId = r.featureRequestId →
      (db'.InProject r' p ↔ db.InProject r p) := by
    intro r r' p hreq
    rw [Db.InProject, Db.InProject, hrequests, hreq]
  constructor
  · intro hinv' r hr hresumes hhuman
    obtain rfl := Option.some.inj (hstep.found.symm.trans hr)
    obtain ⟨hkeep, htarget⟩ := FeatureCommand.resumes_keeps hresumes
    have hpointer := hstep.pointer
    rw [hkeep] at hpointer
    obtain ⟨r', hr', hchange⟩ := hstep.runs.exists_of_mem hmem
    rcases hchange with ⟨-, hid', hreq, hstate, -⟩ | ⟨hne, -⟩
    · have hrecorded := hinv'.recorded request.ref.projectId r'
        ⟨hr', (hin hreq).mpr hproject, by rw [hstate]; exact htarget⟩
      rw [activeFeatureRunId_of_eq hpointer, hid', hid] at hrecorded
      exact hrecorded
    · exact absurd hid hne
  · intro hreenters
    refine SingleActive.of_recorded fun p r' hflight => ?_
    obtain ⟨r, hr, hchange⟩ := hstep.runs.exists_mem_of hflight.stored
    rcases hchange with ⟨rfl, hid', hreq, hstate, -⟩ | ⟨hne, rfl | ⟨-, -, rfl⟩⟩
    · -- the run of the command itself
      have hp : p = request.ref.projectId := ((hin hreq).mp hflight.project).unique hproject
      have htarget : request.command.target.inFlight = true := by
        rw [← hstate]
        exact hflight.state
      rw [hp, hid', hid]
      exact hstep.active hinv hreenters htarget
    · -- another run, which the command left as it was
      have hrecorded := hinv.recorded p r' ⟨hr, (hin rfl).mp hflight.project, hflight.state⟩
      exact activeFeatureRunId_other hstep.pointer hne hrecorded
    · -- a run that was blocked is not in flight
      cases hflight.state

end Request

/-! ### Runs of the system -/

/-- A step that puts no run in flight and takes no pointer away. -/
structure StartsNothing (db db' : Db) : Prop where
  runs : ∀ projectId run, db'.InFlight projectId run →
    ∃ run₀, db.InFlight projectId run₀ ∧ run₀.id = run.id
  pointers : ∀ projectId id, db.activeFeatureRunId projectId = some id →
    db'.activeFeatureRunId projectId = some id

theorem StartsNothing.singleActive {db db' : Db} (h : StartsNothing db db')
    (hinv : SingleActive db) : SingleActive db' := by
  refine SingleActive.of_recorded fun projectId run hrun => ?_
  obtain ⟨run₀, hrun₀, hid⟩ := h.runs projectId run hrun
  rw [← hid]
  exact h.pointers projectId run₀.id (hinv.recorded projectId run₀ hrun₀)

/-- A step that leaves the runs, the requests and the pointers alone. -/
theorem StartsNothing.of_eq {db db' : Db} (hruns : db'.featureRuns = db.featureRuns)
    (hrequests : db'.featureRequests = db.featureRequests)
    (hstates : db'.workflowStates = db.workflowStates) : StartsNothing db db' where
  runs projectId run hrun := by
    refine ⟨run, ⟨hruns ▸ hrun.stored, ?_, hrun.state⟩, rfl⟩
    have hproject := hrun.project
    rw [Db.InProject, hrequests] at hproject
    exact hproject
  pointers projectId id hactive := by rw [activeFeatureRunId_of_eq hstates, hactive]

namespace SystemEvent

/-- Steps other than commands start no run. -/
def OthersStartNothing (db : Db) : SystemEvent → Prop
  | other db' => StartsNothing db db'
  | _ => True

/-- A command that takes its run out of `human_required` without asking finds it active. -/
def Reenters (db : Db) : SystemEvent → Prop
  | commit request _ _ => request.ReentersActive db
  | _ => True

/-- A commit from a state with a single active feature keeps it exactly when it did not re-enter
past the pointer. -/
theorem commit_singleActive {db : Db} {request : Request} {ev : request.Evidence} {rt : Runtime}
    (hinv : SingleActive db) (hchange : next db (commit request ev rt) ≠ db) :
    SingleActive (next db (commit request ev rt)) ↔ Reenters db (commit request ev rt) := by
  rcases next_commit db request ev rt with hsame | hdid
  · exact absurd hsame hchange
  · obtain ⟨run, hstep⟩ := hdid.step
    exact hstep.singleActive_iff hinv hdid.featureRequests

/-- **Every step keeps a single active feature**, when the others start nothing and the commands
re-enter on the active run. -/
theorem next_singleActive (db : Db) (e : SystemEvent) (hinv : SingleActive db)
    (h : OthersStartNothing db e ∧ Reenters db e) : SingleActive (next db e) := by
  cases e with
  | lock e =>
    have hrest := LockEvent.next_withoutLocks db e
    have hruns := congrArg Db.featureRuns hrest
    have hrequests := congrArg Db.featureRequests hrest
    have hstates := congrArg Db.workflowStates hrest
    have hnothing : StartsNothing db (next db (lock e)) :=
      StartsNothing.of_eq hruns hrequests hstates
    exact hnothing.singleActive hinv
  | gather request rt =>
    have hrest := next_gather db request rt
    have hruns := congrArg Db.featureRuns hrest
    have hrequests := congrArg Db.featureRequests hrest
    have hstates := congrArg Db.workflowStates hrest
    have hnothing : StartsNothing db (next db (gather request rt)) :=
      StartsNothing.of_eq hruns hrequests hstates
    exact hnothing.singleActive hinv
  | commit request ev rt =>
    by_cases hsame : next db (commit request ev rt) = db
    · rw [hsame]
      exact hinv
    · exact (commit_singleActive hinv hsame).mpr h.2
  | other db' => exact h.1.singleActive hinv

end SystemEvent

open SystemEvent

/-- **A single active feature**: in every run of the system whose commands, where they take a run out
of `human_required` without asking, find it active, every state has at most one run of each project
in flight, and it is the active one; the command that does not find it active breaks this. -/
theorem single_active_feature (db : Db) (es : List SystemEvent) (hstart : SingleActive db)
    (hothers : Along next OthersStartNothing db es) :
    (Along next Reenters db es → Throughout next SingleActive db es) ∧
      ∀ (request : Request) (ev : request.Evidence) (rt : Runtime),
        SingleActive (after db es) → next (after db es) (commit request ev rt) ≠ after db es →
          (SingleActive (next (after db es) (commit request ev rt)) ↔
            request.ReentersActive (after db es)) := by
  constructor
  · intro hreenters
    have hboth : Along next (fun db e => OthersStartNothing db e ∧ Reenters db e) db es :=
      hothers.and hreenters
    exact throughout_of_step next_singleActive hstart hboth
  · intro request ev rt hinv hchange
    exact commit_singleActive hinv hchange

/-- No feature of the idle project is in flight. -/
theorem singleActive_sampleDb : SingleActive sampleDb := by
  have hidle : ∀ run ∈ sampleDb.featureRuns.rows, run.currentExecutionState.inFlight = false := by
    decide +kernel
  refine SingleActive.of_recorded fun projectId run hrun => ?_
  have hflight := hrun.state
  rw [hidle run hrun.stored] at hflight
  cases hflight

/-- A person escalates a run and has it resumed. -/
def escalateAndResume (featureRunId : String) (version time : ℕ) : List SystemEvent := [
  commit ⟨.escalateToHuman, sampleEnvelope .system "escalate" {
    featureRunId, projectId := "P", expectedVersion := version, reason := "stuck" }⟩ ()
    (sampleRuntime time),
  commit ⟨.resumeFeatureExecution, sampleEnvelope .human "resume" {
    featureRunId, projectId := "P", expectedVersion := version + 1, notes := "go on" }⟩ ()
    (sampleRuntime (time + 1))]

theorem single_active_feature_resumed :
    Throughout next SingleActive sampleDb (firstSelected :: escalateAndResume "run-1" 2 2) := by
  refine (single_active_feature sampleDb (firstSelected :: escalateAndResume "run-1" 2 2)
    singleActive_sampleDb ⟨trivial, trivial, trivial, trivial⟩).1 ⟨?_, ?_, ?_, trivial⟩
  · exact fun _ _ hresumes => by cases hresumes
  · exact fun _ _ hresumes => by cases hresumes
  · show Request.ReentersActive _ _
    decide +kernel

/-- The second feature, resumed while the first one is active. -/
theorem resume_second :
    ¬ Throughout next SingleActive sampleDb (firstSelected :: escalateAndResume "run-2" 1 2) := by
  intro h
  have hrecorded := h.last.recorded "P" {
    id := "run-2", featureRequestId := "request-2"
    currentExecutionState := .underReview, version := 3 } ⟨?_, ?_, rfl⟩
  · revert hrecorded
    decide +kernel
  · decide +kernel
  · exact ⟨{ id := "request-2", projectId := "P", frId := "FR-2", title := "Second" },
      by decide +kernel, rfl, rfl⟩

end MiniCoder
