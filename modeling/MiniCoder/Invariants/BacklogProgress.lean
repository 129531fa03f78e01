import MiniCoder.Commands.Total
import MiniCoder.Invariants.PlanIntegrity
import MiniCoder.Tasks.StartNextFeature

/-!
# A valid backlog does not get stuck

A backlog is validated, its plan is submitted, approved and activated, and the runs of its executable
features are selected one by one and driven to `merged`.  The machine has the planning calls and the
steps of the system, in any order.

* `exists_eligible`: between two rounds, the dependencies of some pending feature are all merged.
* `findNextEligible_of_eligible`, `accepts_of_eligible`: such a feature is found, and its selection is
  accepted.
* `Sequenced`, `backlog_step`: the backlog stays as it was validated, and an activated plan has its runs.
* `valid_backlog_progresses`: **execution gets stuck only when every executable feature is merged**, if
  the executable features depend on executable features only.
-/

open Storage Storage.Action Runs

namespace MiniCoder

/-! ### The features of a plan -/

namespace Db

/-- The executable features of a plan in its project. -/
def planFeatures (db : Db) (planId projectId : String) : List FeatureRequest :=
  (db.backlogFeatures planId projectId).filter fun feature => feature.kind == .feature

/-- A feature has reached `merged`. -/
def Merged (db : Db) (featureRequestId : String) : Prop :=
  ∃ run ∈ db.featureRuns.rows, run.featureRequestId = featureRequestId ∧
    run.currentExecutionState = .merged

/-- The executable features of a plan depend on executable features of the plan only. -/
def DependsOnExecutable (db : Db) (planId projectId : String) : Prop :=
  ∀ feature ∈ db.planFeatures planId projectId, ∀ dep ∈ db.backlogDependencies planId,
    dep.sourceFrId = feature.id →
      ∃ target ∈ db.planFeatures planId projectId, target.id = dep.targetFrId

theorem mem_planFeatures {db : Db} {planId projectId : String} {feature : FeatureRequest} :
    feature ∈ db.planFeatures planId projectId ↔ feature ∈ db.featureRequests.rows ∧
      feature.planId = planId ∧ feature.projectId = projectId ∧ feature.kind = .feature := by
  simp only [planFeatures, backlogFeatures, Table.select, List.mem_filter, Bool.and_eq_true,
    beq_iff_eq]
  tauto

/-- The dependencies of a feature that are not merged. -/
theorem mem_unmetDependencies {db : Db} {featureRequestId : String} {dep : FeatureDependency} :
    dep ∈ db.unmetDependencies featureRequestId ↔ dep ∈ db.featureDependencies.rows ∧
      dep.sourceFrId = featureRequestId ∧ ¬ db.Merged dep.targetFrId := by
  rw [unmetDependencies, Table.select, List.mem_filter, Bool.and_eq_true, beq_iff_eq]
  refine and_congr_right fun _ => and_congr_right fun _ => ?_
  rw [Bool.not_eq_true', Option.isSome_eq_false_iff, Option.isNone_iff_eq_none, Table.find?_eq_none]
  constructor
  · rintro hnone ⟨run, hrun, hrequest, hmerged⟩
    have hno := hnone run hrun
    rw [hrequest, hmerged] at hno
    simp at hno
  · intro hunmerged run hrun
    by_contra hyes
    rw [Bool.not_eq_false, Bool.and_eq_true, beq_iff_eq, beq_iff_eq] at hyes
    exact hunmerged ⟨run, hrun, hyes.1, hyes.2⟩

end Db

/-! ### Between two rounds -/

/-- Between two rounds of the execution: automation is running and no run is active; a run of the
plan's executable features waits, or was driven to `merged`. -/
structure BetweenRounds (planId projectId : String) (db : Db) : Prop where
  idle : ∃ ws ∈ db.workflowStates.rows, Db.isIdle projectId ws = true
  settled : ∀ feature ∈ db.planFeatures planId projectId, ∀ run ∈ db.featureRuns.rows,
    run.featureRequestId = feature.id →
      run.currentExecutionState = .approvedPendingExecution ∨ run.currentExecutionState = .merged

/-- A feature of a project whose run waits and whose dependencies are merged. -/
structure Eligible (projectId : String) (db : Db) (freq : FeatureRequest) (run : FeatureRun) :
    Prop where
  request : freq ∈ db.featureRequests.rows
  project : freq.projectId = projectId
  row : run ∈ db.featureRuns.rows
  ofRequest : run.featureRequestId = freq.id
  pending : run.currentExecutionState = .approvedPendingExecution
  met : db.unmetDependencies freq.id = []

/-- A selection of the run, at its version, returns and leaves the run `selected`: called by an actor
that the handler admits, under a key without a row, on a connection that the database serves. -/
def Db.AcceptsSelection (db : Db) (projectId : String) (run : FeatureRun) : Prop :=
  ∀ (envelope : CommandEnvelope SelectFeaturePayload) (rt : Runtime),
    envelope.payload = ⟨run.id, projectId, run.version⟩ →
    assertRole envelope.actor selectFeatureHandler.requiredRole selectFeatureHandler.commandName
      (some selectFeatureHandler.requiredActorKind) = .ok () →
    Request.Unused ⟨.selectFeature, envelope⟩ db → (Session.start db rt).Ready →
    ∃ result s', exec (Request.execute ⟨.selectFeature, envelope⟩) (.start db rt) =
      (.ok result, s') ∧ s'.db.stateOf run.id = some .selected

/-- Execution of a plan is not stuck: between two rounds, when an executable feature is not merged, a
run is found and its selection is accepted. -/
def NeverStuck (planId projectId : String) (db : Db) : Prop :=
  BetweenRounds planId projectId db →
    (∃ feature ∈ db.planFeatures planId projectId, ¬ db.Merged feature.id) →
    ∃ run, db.findNextEligibleFeatureRun projectId = some run ∧ db.AcceptsSelection projectId run

section State

variable {db : Db} {planId projectId : String}

/-- **Some pending feature is eligible**, as long as not every executable feature is merged. -/
theorem exists_eligible
    (hacyclic : hasCycle (db.backlogFeatures planId projectId) (db.backlogDependencies planId) = false)
    (hdeps : db.DependsOnExecutable planId projectId)
    (hstarted : ∀ feature ∈ db.planFeatures planId projectId, ∃ run ∈ db.featureRuns.rows,
      run.featureRequestId = feature.id)
    (hbetween : BetweenRounds planId projectId db)
    (hleft : ∃ feature ∈ db.planFeatures planId projectId, ¬ db.Merged feature.id) :
    ∃ freq run, Eligible projectId db freq run := by
  -- among the features that are not merged, one depends on no other of them
  obtain ⟨id, ⟨⟨feature, hfeature, hid⟩, hunmerged⟩, hfirst⟩ := hasCycle_false hacyclic
    (p := fun id => (∃ feature ∈ db.planFeatures planId projectId, feature.id = id) ∧ ¬ db.Merged id)
    (by
      obtain ⟨feature, hfeature, hunmerged⟩ := hleft
      exact ⟨feature, (List.mem_filter.mp hfeature).1, ⟨feature, hfeature, rfl⟩, hunmerged⟩)
  obtain ⟨hrequest, hplan, hproject, -⟩ := Db.mem_planFeatures.mp hfeature
  obtain ⟨run, hrun, hof⟩ := hstarted feature hfeature
  have hpending : run.currentExecutionState = .approvedPendingExecution := by
    rcases hbetween.settled feature hfeature run hrun hof with hpending | hmerged
    · exact hpending
    · exact absurd ⟨run, hrun, hof.trans hid, hmerged⟩ hunmerged
  refine ⟨feature, run, hrequest, hproject, hrun, hof, hpending, ?_⟩
  by_contra hunmet
  obtain ⟨dep, hdep⟩ := List.exists_mem_of_ne_nil _ hunmet
  obtain ⟨hrow, hsource, htarget⟩ := Db.mem_unmetDependencies.mp hdep
  have hof' : dep ∈ db.backlogDependencies planId := by
    refine List.mem_filter.mpr ⟨hrow, List.find?_isSome.mpr ⟨feature, hrequest, ?_⟩⟩
    rw [hsource, hplan]
    simp
  obtain ⟨target, htargetFeature, htargetId⟩ := hdeps feature hfeature dep hof' hsource
  exact hfirst dep hof' (hsource.trans hid) ⟨⟨target, htargetFeature, htargetId⟩, htarget⟩

/-- **Where a run is eligible, a run is found**, and it is eligible. -/
theorem findNextEligible_of_eligible {freq : FeatureRequest} {run : FeatureRun}
    (h : Eligible projectId db freq run) :
    ∃ next freq', db.findNextEligibleFeatureRun projectId = some next ∧
      Eligible projectId db freq' next := by
  rcases hfound : db.findNextEligibleFeatureRun projectId with _ | next
  · -- the search would have come to the run
    have hnone := List.findSome?_eq_none_iff.mp hfound freq
      (Table.mem_selectBy.mpr ⟨h.request, beq_iff_eq.mpr h.project⟩)
    have hno := (Table.find?_eq_none _).mp hnone run h.row
    rw [h.ofRequest, h.pending, h.met] at hno
    simp at hno
  · obtain ⟨freq', hfreq', hnext⟩ := List.exists_of_findSome?_eq_some hfound
    obtain ⟨hrequest, hproject⟩ := Table.mem_selectBy.mp hfreq'
    have hmem := db.featureRuns.mem_of_find? hnext
    have hp := db.featureRuns.prop_of_find? hnext
    simp only [Bool.and_eq_true, beq_iff_eq, List.isEmpty_iff] at hp
    exact ⟨next, freq', rfl, hrequest, beq_iff_eq.mp hproject, hmem, hp.1.1, hp.1.2, hp.2⟩

/-- The claim of an idle project returns. -/
theorem returns_claimProject {s : Session} (hs : s.Willing) (featureRunId correlationId : String)
    (hidle : ∃ ws ∈ s.db.workflowStates.rows, Db.isIdle projectId ws = true) :
    Returns (claimProject featureRunId projectId correlationId) s fun _ s' => s.Grows s' := by
  refine (returns_execute hs rfl).bind fun affected s₁ ⟨haffected, hdb, hrt, hdrawn⟩ => ?_
  have hcount : affected ≠ 0 := by
    rw [haffected]
    intro hzero
    obtain ⟨ws, hws, hidleRow⟩ := hidle
    have hno := Table.count_eq_zero.mp hzero ws hws
    rw [hidleRow] at hno
    cases hno
  rw [if_neg hcount]
  refine returns_pure (.of_subset hrt hdrawn fun id hid => ?_)
  rw [hdb] at hid
  exact hid

/-- The dependency guard of a feature without unmet dependencies returns. -/
theorem returns_assertDependenciesMerged {s : Session} (hs : s.Willing)
    {featureRequestId correlationId : String} {detail : ℕ → String}
    (hmet : s.db.unmetDependencies featureRequestId = []) :
    Returns (assertDependenciesMerged featureRequestId correlationId detail) s fun _ s' =>
      s.Reads s' := by
  refine (returns_query hs _).bind fun unmet s₁ ⟨hunmet, hreads⟩ => ?_
  rw [hmet] at hunmet
  rw [hunmet, if_neg (by simp)]
  exact returns_pure hreads

/-- **The selection of an eligible run of an idle project is accepted.** -/
theorem accepts_of_eligible {freq : FeatureRequest} {run : FeatureRun}
    (h : Eligible projectId db freq run)
    (hidle : ∃ ws ∈ db.workflowStates.rows, Db.isIdle projectId ws = true) :
    db.AcceptsSelection projectId run := by
  intro envelope rt hpayload hrole hunused hready
  have hfound : db.findFeatureRun run.id projectId = some run :=
    Db.findFeatureRun_eq h.row ⟨freq, h.request, h.ofRequest.symm, h.project⟩
  have hreturns : Returns (Request.execute ⟨.selectFeature, envelope⟩) (.start db rt) fun _ s' =>
      (Session.start db rt).Grows s' := by
    refine Request.returns_execute hready hrole hunused (fun s' => returns_pure rfl)
      fun ev keys s' hs' hdb hrt => ?_
    have hprologue : Returns (pure () : Sql Unit) s' fun _ s₁ => s'.Reads s₁ :=
      returns_pure (.refl s')
    have hfound' : s'.db.findFeatureRun envelope.payload.featureRunId envelope.payload.projectId =
        some run := by
      rw [hpayload, hdb]
      exact hfound
    have hversion : run.version = envelope.payload.expectedVersion := by rw [hpayload]
    have hvalid : isValid run.currentExecutionState .selected = true := by
      rw [h.pending]
      rfl
    refine returns_runTransition hs' hprologue hfound' hversion hvalid
      (fun s'' hreads => ?_) (fun hwhile => ?_) (fun g s'' hs'' hstates => ?_) rfl
    · have hmet : s''.db.unmetDependencies run.featureRequestId = [] := by
        rw [hreads.db, hdb, h.ofRequest]
        exact h.met
      have hguard : Returns (assertDependenciesMerged run.featureRequestId envelope.correlationId
          fun n => s!"Cannot select feature: {n} dependency(ies) not yet merged") s'' fun _ s₁ =>
            s''.Reads s₁ :=
        returns_assertDependenciesMerged (hreads.willing hs'.willing) hmet
      exact hguard
    · cases hwhile
    · refine returns_claimProject hs''.willing _ _ ?_
      rw [hstates, hdb, hpayload]
      exact hidle
  obtain ⟨result, s', hexecute, -⟩ := hreturns
  have huncached : Request.cachedResult ⟨.selectFeature, envelope⟩
      (Session.start db rt).runtime.now (Session.start db rt).db = none :=
    Request.cachedResult_of_unused _ hunused
  obtain ⟨ev, s₂, -, hdid, -⟩ := Request.execute_uncached huncached hexecute
  obtain ⟨row, hstep⟩ := hdid.step
  obtain ⟨-, -, run', hrun', hid', -, -, hstate⟩ := hstep.moves
  refine ⟨result, s', hexecute, Db.stateOf_some.mpr ⟨run', hrun', ?_, hstate⟩⟩
  rw [hid']
  show envelope.payload.featureRunId = run.id
  rw [hpayload]

end State

/-! ### The machine -/

/-- A step: a planning call, or a step of the system. -/
inductive BacklogEvent
  | planning (event : PlanningEvent)
  | system (event : SystemEvent)

/-- The tables after a step. -/
def backlogNext (db : Db) : BacklogEvent → Db
  | .planning event => planningNext db event
  | .system event => SystemEvent.next db event

/-- The plan is activated for execution. -/
def Db.Activated (db : Db) (planId : String) : Prop :=
  ∃ plan ∈ db.planning.implementationPlans.rows, plan.id = planId ∧
    plan.state = .activatedForExecution

/-- The backlog of a plan is what it was. -/
structure Db.SameBacklog (planId projectId : String) (db db' : Db) : Prop where
  features : db'.backlogFeatures planId projectId = db.backlogFeatures planId projectId
  dependencies : db'.backlogDependencies planId = db.backlogDependencies planId

/-- A step that neither changes the backlog of a plan nor activates the plan, and drops no run. -/
structure Db.Continues (planId projectId : String) (db db' : Db) : Prop where
  backlog : db.SameBacklog planId projectId db'
  runs : ∀ run ∈ db.featureRuns.rows, ∃ run' ∈ db'.featureRuns.rows,
    run'.featureRequestId = run.featureRequestId
  plan : db'.Activated planId → db.Activated planId

/-- No step rewrites the backlog of the plan; a step outside the commands leaves the plan, its backlog
and its runs. -/
def BacklogEvent.Keeps (planId projectId : String) (db : Db) : BacklogEvent → Prop
  | .planning (.command call) => ∀ w, call.write = some w → w.planId ≠ planId
  | .planning (.preview _ _) => True
  | .system (.other db') => db.Continues planId projectId db'
  | .system _ => True

/-- What a run of the machine keeps from the validation on: the backlog is the validated one, and once
the plan is activated its executable features have runs. -/
structure Sequenced (planId projectId : String) (validated db : Db) : Prop where
  backlog : validated.SameBacklog planId projectId db
  started : db.Activated planId → ∀ feature ∈ db.planFeatures planId projectId,
    ∃ run ∈ db.featureRuns.rows, run.featureRequestId = feature.id

section Steps

variable {planId projectId : String} {validated db db' : Db}

theorem Db.SameBacklog.planFeatures (h : db.SameBacklog planId projectId db') :
    db'.planFeatures planId projectId = db.planFeatures planId projectId := by
  rw [Db.planFeatures, Db.planFeatures, h.features]

theorem Db.SameBacklog.trans {db'' : Db} (h : db.SameBacklog planId projectId db')
    (h' : db'.SameBacklog planId projectId db'') : db.SameBacklog planId projectId db'' :=
  ⟨h'.features.trans h.features, h'.dependencies.trans h.dependencies⟩

theorem Db.SameBacklog.of_eq (hrequests : db'.featureRequests = db.featureRequests)
    (hdependencies : db'.featureDependencies = db.featureDependencies) :
    db.SameBacklog planId projectId db' := by
  constructor
  · rw [Db.backlogFeatures, Db.backlogFeatures, hrequests]
  · rw [Db.backlogDependencies, Db.backlogDependencies, hrequests, hdependencies]

/-- **The backlog of one plan does not change with that of another**: the new features belong to the
other plan, and the new dependencies are theirs. -/
theorem Db.SameBacklog.of_rewritten {w : BacklogWrite} {fresh : List FeatureRequest}
    {new : List FeatureDependency}
    (hinserted : List.Forall₂ (fun row feature =>
      ∃ id now, row = FeatureInput.row feature w.planId w.projectId id now) fresh w.features)
    (hrequests : db'.featureRequests.rows = db.featureRequests.rows ++ fresh)
    (hdependencies : db'.featureDependencies.rows = db.featureDependencies.rows ++ new)
    (hsources : ∀ dep ∈ new, ∃ row ∈ fresh, row.id = dep.sourceFrId)
    (hother : w.planId ≠ planId) : db.SameBacklog planId projectId db' := by
  have hplan : ∀ row ∈ fresh, row.planId ≠ planId := by
    intro row hrow
    rw [((rows_of_features hinserted).2 row hrow).1]
    exact hother
  -- the requests with a given id and of the plan are the old ones
  have hfind : ∀ id, (db'.featureRequests.find? fun fr => id == fr.id && fr.planId == planId) =
      db.featureRequests.find? fun fr => id == fr.id && fr.planId == planId := by
    intro id
    have hnone : fresh.find? (fun fr => id == fr.id && fr.planId == planId) = none := by
      refine List.find?_eq_none.mpr fun row hrow => ?_
      simp [hplan row hrow]
    rw [Table.find?, Table.find?, hrequests, List.find?_append, hnone, Option.or_none]
  constructor
  · have hnone : fresh.filter (fun fr => fr.planId == planId && fr.projectId == projectId) = [] := by
      refine List.filter_eq_nil_iff.mpr fun row hrow => ?_
      simp [hplan row hrow]
    rw [Db.backlogFeatures, Db.backlogFeatures, Table.select, Table.select, hrequests,
      List.filter_append, hnone, List.append_nil]
  · rw [Db.backlogDependencies, Db.backlogDependencies, Table.select, Table.select, hdependencies,
      List.filter_append]
    simp only [hfind]
    refine List.append_right_eq_self.mpr (List.filter_eq_nil_iff.mpr fun dep hdep => ?_)
    -- the source of a new dependency is a new request, and of another plan
    rw [← hfind, Bool.not_eq_true, Option.isSome_eq_false_iff, Option.isNone_iff_eq_none,
      Table.find?_eq_none]
    intro fr hfr
    obtain ⟨row, hrow, hid⟩ := hsources dep hdep
    refine Bool.eq_false_iff.mpr fun hsource => ?_
    rw [Bool.and_eq_true, beq_iff_eq, beq_iff_eq] at hsource
    have hmem : row ∈ db'.featureRequests.rows := by
      rw [hrequests]
      exact List.mem_append_right _ hrow
    have hclash : Row.clash fr row = true := by
      simp [Row.clash, ← hsource.1, hid]
    rw [db'.featureRequests.eq_of_clash hfr hmem hclash] at hsource
    exact hplan row hrow hsource.2

/-- Tables of which a step changed nothing that the plan rests on. -/
theorem Db.Continues.of_eq (hrequests : db'.featureRequests = db.featureRequests)
    (hdependencies : db'.featureDependencies = db.featureDependencies)
    (hplanning : db'.planning = db.planning)
    (hruns : ∀ run ∈ db.featureRuns.rows, ∃ run' ∈ db'.featureRuns.rows,
      run'.featureRequestId = run.featureRequestId) : db.Continues planId projectId db' where
  backlog := .of_eq hrequests hdependencies
  runs := hruns
  plan := by
    unfold Db.Activated
    rw [hplanning]
    exact id

/-- A step that goes on keeps what held. -/
theorem Sequenced.continues (h : Sequenced planId projectId validated db)
    (hstep : db.Continues planId projectId db') : Sequenced planId projectId validated db' where
  backlog := h.backlog.trans hstep.backlog
  started := by
    intro hactive feature hfeature
    rw [hstep.backlog.planFeatures] at hfeature
    obtain ⟨run, hrun, hof⟩ := h.started (hstep.plan hactive) feature hfeature
    obtain ⟨run', hrun', hof'⟩ := hstep.runs run hrun
    exact ⟨run', hrun', hof'.trans hof⟩

/-- **Every step of the system goes on.** -/
theorem continues_system {event : SystemEvent}
    (h : BacklogEvent.Keeps planId projectId db (.system event)) :
    db.Continues planId projectId (SystemEvent.next db event) := by
  have hsame : ∀ db' : Db, db'.featureRuns = db.featureRuns → ∀ run ∈ db.featureRuns.rows,
      ∃ run' ∈ db'.featureRuns.rows, run'.featureRequestId = run.featureRequestId := by
    intro db' hruns run hrun
    rw [hruns]
    exact ⟨run, hrun, rfl⟩
  cases event with
  | lock e =>
    have hrest := LockEvent.next_withoutLocks db e
    exact .of_eq (congrArg (fun db => db.featureRequests) hrest)
      (congrArg (fun db => db.featureDependencies) hrest) (congrArg (fun db => db.planning) hrest)
      (hsame _ (congrArg (fun db => db.featureRuns) hrest))
  | gather request rt =>
    have hrest := SystemEvent.next_gather db request rt
    exact .of_eq (congrArg (fun db => db.featureRequests) hrest)
      (congrArg (fun db => db.featureDependencies) hrest) (congrArg (fun db => db.planning) hrest)
      (hsame _ (congrArg (fun db => db.featureRuns) hrest))
  | commit request ev rt =>
    rcases SystemEvent.next_commit db request ev rt with hnothing | hdid
    · rw [hnothing]
      exact .of_eq rfl rfl rfl (hsame db rfl)
    · obtain ⟨run, hstep⟩ := hdid.step
      refine .of_eq hdid.featureRequests hdid.featureDependencies hdid.planning fun row hrow => ?_
      obtain ⟨row', hrow', hchange⟩ := hstep.runs.exists_of_mem hrow
      refine ⟨row', hrow', ?_⟩
      rcases hchange with ⟨rfl, -, hrequest, -⟩ | ⟨-, rfl | ⟨-, -, rfl⟩⟩
      · exact hrequest
      · rfl
      · rfl
  | other db' => exact h

/-- **Every effect of a planning call keeps what held**: an activation inserts the missing runs. -/
theorem Sequenced.effect {write : Option BacklogWrite} {examined : Option ValidateBacklogPayload}
    (h : Sequenced planId projectId validated db) (hother : ∀ w, write = some w → w.planId ≠ planId)
    (heffect : PlanningEffect write examined db db') : Sequenced planId projectId validated db' := by
  cases heffect with
  | rewritten w plan fresh new call isPlan known left inserted requests dependencies sources runs =>
    refine h.continues ⟨.of_rewritten inserted requests dependencies sources (hother w call),
      fun run hrun => ⟨run, ?_, rfl⟩, ?_⟩
    · rw [runs]
      exact hrun
    · rintro ⟨x, hx, hid, hactive⟩
      rcases left.mem hx with rfl | ⟨hold, -⟩
      · exact ⟨plan, left.found, hid, hactive⟩
      · exact ⟨x, hold, hid, hactive⟩
  | validated payload now call nonempty left requests dependencies runs =>
    refine h.continues ⟨.of_eq requests dependencies, fun run hrun => ⟨run, ?_, rfl⟩, ?_⟩
    · rw [runs]
      exact hrun
    · rintro ⟨x, hx, hid, hactive⟩
      rcases left with hsame | ⟨plan, -, hleft⟩
      · rw [hsame] at hx
        exact ⟨x, hx, hid, hactive⟩
      · rcases hleft.mem hx with rfl | ⟨hold, -⟩
        · exact ⟨plan, hleft.found, hid, hactive⟩
        · exact ⟨x, hold, hid, hactive⟩
  | moved plan toState state left requests dependencies runs =>
    refine h.continues ⟨.of_eq requests dependencies, fun run hrun => ⟨run, ?_, rfl⟩, ?_⟩
    · rw [runs]
      exact hrun
    · rintro ⟨x, hx, hid, hactive⟩
      rcases left.mem hx with rfl | ⟨hold, -⟩
      · change toState = .activatedForExecution at hactive
        rcases state with ⟨-, hto, -⟩ | ⟨-, hto⟩
        · rw [hto] at hactive
          cases hactive
        · rw [hto] at hactive
          cases hactive
      · exact ⟨x, hold, hid, hactive⟩
  | activated plan state left requests dependencies kept fresh runs =>
    have hbacklog : db.SameBacklog planId projectId db' := .of_eq requests dependencies
    refine ⟨h.backlog.trans hbacklog, ?_⟩
    rintro ⟨x, hx, hid, hactive⟩ feature hfeature
    rw [hbacklog.planFeatures] at hfeature
    rcases left.mem hx with rfl | ⟨hold, -⟩
    · -- the plan has just been activated
      replace hid : plan.id = planId := hid
      obtain ⟨hrequest, hplan, -, hkind⟩ := Db.mem_planFeatures.mp hfeature
      have hexecutable : feature ∈ db.executableFeatures plan.id := by
        rw [Db.executableFeatures, Table.select, List.mem_filter, hplan, hid, hkind]
        exact ⟨hrequest, by simp⟩
      have hcount := runs feature.id
      rw [if_pos (List.mem_map_of_mem hexecutable)] at hcount
      have hpos : 0 < db'.firstAttempts feature.id := by omega
      obtain ⟨run, hrun, hfirst⟩ := List.countP_pos_iff.mp hpos
      rw [FeatureRun.isFirstAttempt, Bool.and_eq_true, beq_iff_eq] at hfirst
      exact ⟨run, hrun, hfirst.1⟩
    · obtain ⟨run, hrun, hof⟩ := h.started ⟨x, hold, hid, hactive⟩ feature hfeature
      exact ⟨run, kept run hrun, hof⟩

/-- **Every step keeps what held.** -/
theorem backlog_step {event : BacklogEvent} (h : Sequenced planId projectId validated db)
    (hkeeps : event.Keeps planId projectId db) :
    Sequenced planId projectId validated (backlogNext db event) := by
  cases event with
  | system event => exact h.continues (continues_system hkeeps)
  | planning event =>
    cases event with
    | preview envelope runtime =>
      rw [backlogNext, planningNext_preview]
      exact h
    | command call =>
      rcases CommandFamily.next_cases db call with hsame | hdid
      · rw [backlogNext, planningNext, hsame]
        exact h
      · have huntraced : Sequenced planId projectId validated db.untraced :=
          ⟨⟨h.backlog.features, h.backlog.dependencies⟩, h.started⟩
        have hnext := huntraced.effect hkeeps (PlanningCall.effect_of_did hdid)
        exact ⟨⟨hnext.backlog.features, hnext.backlog.dependencies⟩, hnext.started⟩

end Steps

/-! ### Runs -/

/-- A validation of the plan's backlog reports it valid; no live row holds its key, so that the report
is on this backlog. -/
structure ReportsValid (planId projectId : String) (db : Db)
    (envelope : CommandEnvelope ValidateBacklogPayload) (rt : Runtime) : Prop where
  payload : envelope.payload = ⟨projectId, planId⟩
  unkeyed : ∀ row ∈ db.idempotencyKeys.rows,
    Db.isKey envelope.idempotencyKey validateBacklogHandler.idempotencyScope row = true →
      row.expiresAt ≤ rt.now
  reply : (exec (validateBacklog envelope) (.start db rt)).1.toOption.map
    CommandResult.resultingState = some BacklogState.valid.literal

/-- A backlog without a problem has no cycle. -/
theorem acyclic_of_problemsOf {planId projectId : String} {db : Db}
    (h : db.problemsOf planId projectId = []) :
    hasCycle (db.backlogFeatures planId projectId) (db.backlogDependencies planId) = false := by
  rw [Db.problemsOf, backlogProblems, List.append_eq_nil_iff] at h
  by_contra hcycle
  rw [Bool.not_eq_false] at hcycle
  rw [if_pos hcycle] at h
  cases h.1

/-- A backlog that is reported valid has no cycle. -/
theorem ReportsValid.acyclic {planId projectId : String} {db : Db}
    {envelope : CommandEnvelope ValidateBacklogPayload} {rt : Runtime}
    (h : ReportsValid planId projectId db envelope rt) :
    hasCycle (db.backlogFeatures planId projectId) (db.backlogDependencies planId) = false := by
  have hreply := h.reply
  rcases hexec : exec (validateBacklog envelope) (.start db rt) with ⟨e | result, s'⟩
  · rw [hexec] at hreply
    cases hreply
  rw [hexec] at hreply
  have hvalid : result.resultingState = BacklogState.valid.literal := Option.some.inj hreply
  have hstate := validateBacklog_ok h.unkeyed hexec
  rw [h.payload, hvalid] at hstate
  apply acyclic_of_problemsOf
  by_contra hsome
  rw [BacklogState.ofProblems, Session.start_db, if_neg hsome] at hstate
  exact absurd hstate (by decide)

/-- **A valid backlog does not get stuck**: from a validation that reports it valid, and in every order
of planning calls and steps of the system that leave the backlog as it is, an activated plan between two
rounds has an eligible run that can be selected, until all its executable features are merged; as long
as these depend on executable features of the plan only. -/
theorem valid_backlog_progresses {planId projectId : String} {db : Db}
    {envelope : CommandEnvelope ValidateBacklogPayload} {rt : Runtime} {events : List BacklogEvent}
    (hvalid : ReportsValid planId projectId db envelope rt)
    (hinactive : ¬ db.Activated planId)
    (hdeps : db.DependsOnExecutable planId projectId)
    (h : Along backlogNext (BacklogEvent.Keeps planId projectId) db
      (.planning (.command ⟨.validateBacklog, envelope, rt⟩) :: events)) :
    Throughout backlogNext (fun db => db.Activated planId → NeverStuck planId projectId db) db
      (.planning (.command ⟨.validateBacklog, envelope, rt⟩) :: events) := by
  have hstart : Sequenced planId projectId db db :=
    ⟨⟨rfl, rfl⟩, fun hactive => absurd hactive hinactive⟩
  refine (throughout_of_step (fun _ _ hheld hkeeps => backlog_step hheld hkeeps) hstart h).imp
    fun db' hheld hactive hbetween hleft => ?_
  have hacyclic : hasCycle (db'.backlogFeatures planId projectId)
      (db'.backlogDependencies planId) = false := by
    rw [hheld.backlog.features, hheld.backlog.dependencies]
    exact hvalid.acyclic
  have hdeps' : db'.DependsOnExecutable planId projectId := by
    rw [Db.DependsOnExecutable, hheld.backlog.planFeatures, hheld.backlog.dependencies]
    exact hdeps
  obtain ⟨freq, run, heligible⟩ := exists_eligible hacyclic hdeps' (hheld.started hactive) hbetween hleft
  obtain ⟨next, freq', hnext, hfound⟩ := findNextEligible_of_eligible heligible
  exact ⟨next, hnext, accepts_of_eligible hfound hbetween.idle⟩

/-! ### Runs on a sample backlog -/

/-- An idle project with a new plan and its backlog: a feature, and what it depends on. -/
def sampleBacklogDb (kind : FeatureKind) : Db :=
  planningNext { samplePlanDb with workflowStates := .ofList [{ id := "state", projectId := "P" }] }
    (samplePlanningCall .generateFeatureBacklog systemActor "generate" 1 {
      projectId := "P"
      planId := "plan"
      features := [{
        frId := "FR-1", title := "Login", description := "Users log in", dependsOnFrIds := ["FR-2"]
        acceptanceCriteria := ["A user logs in"]
        testExpectations := [⟨"Login succeeds", some .integration⟩] }, {
        frId := "FR-2", title := "Accounts", description := "Users have accounts", kind
        acceptanceCriteria := ["A user has an account"]
        testExpectations := [⟨"An account is found", some .unit⟩] }] })

/-- The validation of the sample backlog. -/
def sampleValidation : CommandEnvelope ValidateBacklogPayload where
  commandId := "validate"
  idempotencyKey := "validate"
  payload := ⟨"P", "plan"⟩
  actor := systemActor
  correlationId := "validate"

/-- The sample plan is submitted, approved and activated. -/
def sampleLaunch : List BacklogEvent :=
  .planning (samplePlanningCall .submitPlanForApproval ⟨"operator", .operator, .human⟩ "submit" 3
    ⟨"plan", "P", 1⟩) :: sampleActivation.map .planning

/-- The sample backlog, after the validation and the launch of its plan. -/
def launched (kind : FeatureKind) : Db :=
  run backlogNext (sampleBacklogDb kind)
    (.planning (.command ⟨.validateBacklog, sampleValidation, sampleRuntime 2⟩) :: sampleLaunch)

/-- Of both kinds the backlog is reported valid, and its launch leaves it as it is. -/
theorem sampleBacklog_launches (kind : FeatureKind) :
    ReportsValid "plan" "P" (sampleBacklogDb kind) sampleValidation (sampleRuntime 2) ∧
      ¬ (sampleBacklogDb kind).Activated "plan" ∧
      Along backlogNext (BacklogEvent.Keeps "plan" "P") (sampleBacklogDb kind)
        (.planning (.command ⟨.validateBacklog, sampleValidation, sampleRuntime 2⟩) ::
          sampleLaunch) := by
  refine ⟨⟨rfl, ?_, ?_⟩, ?_, ?_⟩
  · cases kind <;> decide +kernel
  · cases kind <;> decide +kernel
  · unfold Db.Activated
    cases kind <;> decide +kernel
  · refine ⟨?_, ?_, ?_, ?_, trivial⟩
    all_goals
      intro w hw
      cases hw

/-- The launched plan is between two rounds, and its first feature is not merged. -/
theorem sampleBacklog_waits (kind : FeatureKind) :
    (launched kind).Activated "plan" ∧ BetweenRounds "plan" "P" (launched kind) ∧
      ∃ feature ∈ (launched kind).planFeatures "plan" "P", ¬ (launched kind).Merged feature.id := by
  unfold Db.Activated Db.Merged
  refine ⟨?_, ⟨?_, ?_⟩, ?_⟩
  all_goals cases kind <;> decide +kernel

/-- A feature that depends on an executable feature waits for it, and that one is found. -/
theorem valid_backlog_progresses_launched :
    ∃ next, (launched .feature).findNextEligibleFeatureRun "P" = some next ∧
      (launched .feature).AcceptsSelection "P" next := by
  obtain ⟨hvalid, hinactive, hkeeps⟩ := sampleBacklog_launches .feature
  obtain ⟨hactive, hbetween, hleft⟩ := sampleBacklog_waits .feature
  have hdeps : (sampleBacklogDb .feature).DependsOnExecutable "plan" "P" := by
    unfold Db.DependsOnExecutable
    decide +kernel
  exact (valid_backlog_progresses hvalid hinactive hdeps hkeeps).last hactive hbetween hleft

/-- A feature that depends on a discovery item is never found: the validation reports the backlog
valid, and the item never gets a run. -/
theorem discovery_dependency_stuck :
    ReportsValid "plan" "P" (sampleBacklogDb .discovery) sampleValidation (sampleRuntime 2) ∧
      ¬ (sampleBacklogDb .discovery).Activated "plan" ∧
      Along backlogNext (BacklogEvent.Keeps "plan" "P") (sampleBacklogDb .discovery)
        (.planning (.command ⟨.validateBacklog, sampleValidation, sampleRuntime 2⟩) ::
          sampleLaunch) ∧
      ¬ Throughout backlogNext (fun db => db.Activated "plan" → NeverStuck "plan" "P" db)
        (sampleBacklogDb .discovery)
        (.planning (.command ⟨.validateBacklog, sampleValidation, sampleRuntime 2⟩) ::
          sampleLaunch) := by
  obtain ⟨hvalid, hinactive, hkeeps⟩ := sampleBacklog_launches .discovery
  refine ⟨hvalid, hinactive, hkeeps, fun h => ?_⟩
  obtain ⟨hactive, hbetween, hleft⟩ := sampleBacklog_waits .discovery
  obtain ⟨next, hnext, -⟩ := h.last hactive hbetween hleft
  have hnone : (launched .discovery).findNextEligibleFeatureRun "P" = none := by decide +kernel
  exact Option.some_ne_none next (hnext.symm.trans hnone)

end MiniCoder
