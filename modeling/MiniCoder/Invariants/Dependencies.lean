import Mathlib.Logic.Relation
import MiniCoder.Invariants.BacklogProgress
import MiniCoder.Invariants.SingleActiveFeature

/-!
# Selection respects dependencies

The search for the next feature and the selection each have a rule of their own for when a run may be
selected: it waits, and the features that its feature depends on are merged.

* `findsNext`: the search finds a run exactly when there is one, the first in the order of creation, and
  the selection of what it found is accepted.
* `selects_eligible_iff`: a selection takes a run that waits, or one in `human_required`, the edge from
  which is listed for a retry only; the direct dependencies are merged either way.
* `DependenciesMet`: what every step keeps, as long as nothing takes a run past its dependencies out of
  `human_required`; a run in execution has its direct dependencies merged.
* `selection_respects_dependencies`: **every selected run has all of its transitive dependencies
  merged.**
-/

open Storage Storage.Action Runs

namespace MiniCoder

/-! ### The search -/

/-- What the search for the next feature owes a project. -/
structure Db.FindsNext (db : Db) (projectId : String) : Prop where
  none_iff : db.findNextEligibleFeatureRun projectId = none ↔
    ∀ freq run, ¬ Eligible projectId db freq run
  /-- The run that is found is eligible, and its feature comes first among those of eligible runs. -/
  first : ∀ next, db.findNextEligibleFeatureRun projectId = some next →
    ∃ freq, Eligible projectId db freq next ∧
      ∀ freq' run', Eligible projectId db freq' run' → freq.createdOrder ≤ freq'.createdOrder
  accepted : ∀ next, db.findNextEligibleFeatureRun projectId = some next →
    (∃ ws ∈ db.workflowStates.rows, Db.isIdle projectId ws = true) →
      db.AcceptsSelection projectId next

/-- **The search for the next feature.** -/
theorem findsNext (db : Db) (projectId : String) : db.FindsNext projectId := by
  have hfirst : ∀ next, db.findNextEligibleFeatureRun projectId = some next →
      ∃ freq, Eligible projectId db freq next ∧
        ∀ freq' run', Eligible projectId db freq' run' → freq.createdOrder ≤ freq'.createdOrder := by
    intro next hnext
    obtain ⟨before, freq, after, hsplit, hfound, hnone⟩ := List.findSome?_eq_some_iff.mp hnext
    have hsorted := db.featureRequests.pairwise_selectBy (fun freq => freq.projectId == projectId)
      FeatureRequest.createdOrder
    have hmem : freq ∈ db.featureRequests.selectBy (fun freq => freq.projectId == projectId)
        fun freq freq' => decide (freq.createdOrder < freq'.createdOrder) := by
      rw [hsplit]
      exact List.mem_append_right _ List.mem_cons_self
    obtain ⟨hrequest, hproject⟩ := Table.mem_selectBy.mp hmem
    have hp := db.featureRuns.prop_of_find? hfound
    simp only [Bool.and_eq_true, beq_iff_eq, List.isEmpty_iff] at hp
    refine ⟨freq, ⟨hrequest, beq_iff_eq.mp hproject, db.featureRuns.mem_of_find? hfound, hp.1.1,
      hp.1.2, hp.2⟩, fun freq' run' h' => ?_⟩
    have hmem' : freq' ∈ db.featureRequests.selectBy (fun freq => freq.projectId == projectId)
        fun freq freq' => decide (freq.createdOrder < freq'.createdOrder) :=
      Table.mem_selectBy.mpr ⟨h'.request, beq_iff_eq.mpr h'.project⟩
    rw [hsplit] at hsorted hmem'
    rcases List.mem_append.mp hmem' with hbefore | hafter
    · -- the search would have stopped there
      have hno := (Table.find?_eq_none _).mp (hnone freq' hbefore) run' h'.row
      rw [h'.ofRequest, h'.pending, h'.met] at hno
      simp at hno
    · rcases List.mem_cons.mp hafter with rfl | hlater
      · exact le_refl _
      · exact (List.pairwise_cons.mp (List.pairwise_append.mp hsorted).2.1).1 freq' hlater
  refine ⟨⟨fun hnone freq run h => ?_, fun hnone => ?_⟩, hfirst, fun next hnext hidle => ?_⟩
  · obtain ⟨next, freq', hnext, -⟩ := findNextEligible_of_eligible h
    rw [hnone] at hnext
    cases hnext
  · rcases hfound : db.findNextEligibleFeatureRun projectId with _ | next
    · rfl
    · obtain ⟨freq, h, -⟩ := hfirst next hfound
      exact absurd h (hnone freq next)
  · obtain ⟨freq, h, -⟩ := hfirst next hnext
    exact accepts_of_eligible h hidle

/-! ### Dependencies -/

namespace Db

/-- A feature depends on another one directly. -/
def DependsOn (db : Db) (source target : String) : Prop :=
  ∃ dep ∈ db.featureDependencies.rows, dep.sourceFrId = source ∧ dep.targetFrId = target

/-- The direct dependencies of a feature are merged. -/
def Met (db : Db) (featureRequestId : String) : Prop :=
  ∀ target, db.DependsOn featureRequestId target → db.Merged target

theorem unmetDependencies_eq_nil {db : Db} {featureRequestId : String} :
    db.unmetDependencies featureRequestId = [] ↔ db.Met featureRequestId := by
  rw [List.eq_nil_iff_forall_not_mem]
  constructor
  · rintro hnone target ⟨dep, hdep, hsource, rfl⟩
    by_contra hunmerged
    exact hnone dep (mem_unmetDependencies.mpr ⟨hdep, hsource, hunmerged⟩)
  · intro hmet dep hdep
    obtain ⟨hrow, hsource, hunmerged⟩ := mem_unmetDependencies.mp hdep
    exact hunmerged (hmet _ ⟨dep, hrow, hsource, rfl⟩)

end Db

/-- In execution, or merged. -/
def FeatureExecutionState.begun (state : FeatureExecutionState) : Bool :=
  state.inFlight || state == .merged

/-- What every state of the system keeps of the dependencies. -/
structure DependenciesMet (db : Db) : Prop where
  /-- A run in execution has its direct dependencies merged. -/
  begun : ∀ run ∈ db.featureRuns.rows, run.currentExecutionState.begun = true →
    db.Met run.featureRequestId
  /-- So has the active run of a project, whatever its state. -/
  active : ∀ projectId id, db.activeFeatureRunId projectId = some id →
    ∃ run ∈ db.featureRuns.rows, run.id = id ∧ db.Met run.featureRequestId
  known : ∀ run ∈ db.featureRuns.rows, ∃ freq ∈ db.featureRequests.rows,
    freq.id = run.featureRequestId

/-- **All that a feature depends on is merged**, if what it depends on directly is. -/
theorem DependenciesMet.transitive {db : Db} (h : DependenciesMet db) {featureRequestId : String}
    (hmet : db.Met featureRequestId) {target : String}
    (hdepends : Relation.TransGen db.DependsOn featureRequestId target) : db.Merged target := by
  induction hdepends with
  | single hdirect => exact hmet _ hdirect
  | tail _ hdirect ih =>
    obtain ⟨run, hrun, hof, hmerged⟩ := ih
    have hbegun : run.currentExecutionState.begun = true := by
      rw [hmerged]
      rfl
    have hmet' := h.begun run hrun hbegun
    rw [hof] at hmet'
    exact hmet' _ hdirect

/-- A step that changes no dependency, takes no merged run back, and starts and activates only runs
whose dependencies are merged. -/
structure Db.Proceeds (db db' : Db) : Prop where
  requests : db'.featureRequests = db.featureRequests
  dependencies : db'.featureDependencies = db.featureDependencies
  runs : db.featureRuns.Rewritten (fun run run' => run'.id = run.id ∧
    run'.featureRequestId = run.featureRequestId ∧
    (run.currentExecutionState = .merged → run'.currentExecutionState = .merged) ∧
    (run'.currentExecutionState.begun = true →
      run.currentExecutionState.begun = true ∨ db.Met run.featureRequestId)) db'.featureRuns
  pointers : ∀ projectId id, db'.activeFeatureRunId projectId = some id →
    db.activeFeatureRunId projectId = some id ∨
      ∃ run ∈ db.featureRuns.rows, run.id = id ∧ db.Met run.featureRequestId

section Steps

variable {db db' : Db}

theorem Db.Proceeds.met (h : db.Proceeds db') {featureRequestId : String}
    (hmet : db.Met featureRequestId) : db'.Met featureRequestId := by
  rintro target ⟨dep, hdep, hsource, htarget⟩
  rw [h.dependencies] at hdep
  obtain ⟨run, hrun, hof, hmerged⟩ := hmet target ⟨dep, hdep, hsource, htarget⟩
  obtain ⟨run', hrun', -, hof', hkept, -⟩ := h.runs.exists_of_mem hrun
  exact ⟨run', hrun', hof'.trans hof, hkept hmerged⟩

theorem DependenciesMet.proceeds (h : DependenciesMet db) (hstep : db.Proceeds db') :
    DependenciesMet db' where
  begun run' hrun' hbegun := by
    obtain ⟨run, hrun, -, hof, -, hstarted⟩ := hstep.runs.exists_mem_of hrun'
    rw [hof]
    refine hstep.met ?_
    rcases hstarted hbegun with hbefore | hmet
    · exact h.begun run hrun hbefore
    · exact hmet
  active projectId id hactive := by
    have hbefore : ∃ run ∈ db.featureRuns.rows, run.id = id ∧ db.Met run.featureRequestId := by
      rcases hstep.pointers projectId id hactive with hsame | hnew
      · exact h.active projectId id hsame
      · exact hnew
    obtain ⟨run, hrun, hid, hmet⟩ := hbefore
    obtain ⟨run', hrun', hid', hof, -⟩ := hstep.runs.exists_of_mem hrun
    refine ⟨run', hrun', hid'.trans hid, ?_⟩
    rw [hof]
    exact hstep.met hmet
  known run' hrun' := by
    obtain ⟨run, hrun, -, hof, -⟩ := hstep.runs.exists_mem_of hrun'
    rw [hof, hstep.requests]
    exact h.known run hrun

theorem Db.Proceeds.of_eq (hrequests : db'.featureRequests = db.featureRequests)
    (hdependencies : db'.featureDependencies = db.featureDependencies)
    (hruns : db'.featureRuns = db.featureRuns)
    (hstates : db'.workflowStates = db.workflowStates) : db.Proceeds db' where
  requests := hrequests
  dependencies := hdependencies
  runs := by
    rw [hruns]
    exact Table.Rewritten.refl fun _ _ => ⟨rfl, rfl, id, Or.inl⟩
  pointers projectId id hactive := by
    rw [activeFeatureRunId_of_eq hstates] at hactive
    exact Or.inl hactive

end Steps

/-! ### Commands -/

theorem FeatureCommand.edges_begun (c : FeatureCommand) :
    ∀ row ∈ featureExecutionMatrix, row.toState = c.target → c.target.begun = true →
      row.fromState.begun = true ∨ c = .selectFeature ∨ c = .retryFeature ∨
        (c.resumes = true ∧ row.fromState = .humanRequired) := by
  cases c <;> decide +kernel

theorem edges_of_merged : ∀ row ∈ featureExecutionMatrix, row.fromState ≠ .merged := by
  decide +kernel

theorem edges_to_selected : ∀ row ∈ featureExecutionMatrix, row.toState = .selected →
    row.fromState = .approvedPendingExecution ∨ row.fromState = .humanRequired := by
  decide +kernel

theorem FeatureCommand.selects_of_claim {c : FeatureCommand} (h : c.pointer = .claim) :
    c = .selectFeature := by
  cases c with
  | selectFeature => rfl
  | _ => cases h

/-- The dependency guard passed. -/
theorem assertDependenciesMerged_ok {featureRequestId correlationId : String} {detail : ℕ → String}
    {s s' : Session}
    (h : exec (assertDependenciesMerged featureRequestId correlationId detail) s = (.ok (), s')) :
    s.db.unmetDependencies featureRequestId = [] := by
  obtain ⟨unmet, s₁, hquery, h₁⟩ := exec_bind_ok.mp h
  obtain ⟨rfl, -⟩ := query_ok hquery
  by_contra hsome
  rw [if_pos (List.length_pos_of_ne_nil hsome)] at h₁
  cases h₁

/-- A release takes the pointer off a run, and puts it on none. -/
theorem activeFeatureRunId_of_release {db db' : Db} {projectId featureRunId p id : String}
    (h : PointerMove.release.Moves projectId featureRunId db.workflowStates db'.workflowStates)
    (hactive : db'.activeFeatureRunId p = some id) : db.activeFeatureRunId p = some id := by
  have ht : db'.workflowStates = clearActive db.workflowStates projectId featureRunId := h
  rw [Db.activeFeatureRunId, findWorkflowState_update ht fun _ => rfl] at hactive
  rcases hws : db.findWorkflowState p with _ | ws
  · rw [hws] at hactive
    cases hactive
  · rw [hws] at hactive
    rw [Db.activeFeatureRunId, hws]
    replace hactive : (Table.updateRow (Db.isActive projectId featureRunId)
      (fun ws => { ws with activeFeatureRunId := none, version := ws.version + 1 }) ws).activeFeatureRunId =
        some id := hactive
    by_cases hmatch : Db.isActive projectId featureRunId ws = true
    · rw [Table.updateRow_of_pos hmatch] at hactive
      cases hactive
    · rw [Table.updateRow_of_neg (by simpa using hmatch)] at hactive
      exact hactive

namespace Request

variable {request : Request} {ev : request.Evidence} {rt : Runtime} {db db' : Db}
  {run : FeatureRun}

/-- A command on a run in `human_required` neither selects it nor, past its dependencies, resumes
it. -/
def KeepsOrder (request : Request) (db : Db) : Prop :=
  ∀ run ∈ db.findFeatureRun request.ref.featureRunId request.ref.projectId,
    run.currentExecutionState = .humanRequired → request.command ≠ .selectFeature ∧
      (request.command.resumes = true → db.unmetDependencies run.featureRequestId = [])

/-- A selection found its run waiting or in `human_required`, and its direct dependencies merged. -/
theorem Step.selected (hstep : request.Step ev rt db db' run)
    (hselect : request.command = .selectFeature) :
    (run.currentExecutionState = .approvedPendingExecution ∨
      run.currentExecutionState = .humanRequired) ∧
    db.unmetDependencies run.featureRequestId = [] := by
  constructor
  · obtain ⟨row, hrow, hfrom, hto⟩ := isValid_iff.mp hstep.valid
    rw [hselect] at hto
    rw [← hfrom]
    exact edges_to_selected row hrow hto
  · obtain ⟨keys, g, s, s', hview, hguard⟩ := hstep.guard
    rcases request with ⟨command, envelope⟩
    obtain rfl : command = .selectFeature := hselect
    have hasserted : exec (assertDependenciesMerged run.featureRequestId envelope.correlationId
        fun n => s!"Cannot select feature: {n} dependency(ies) not yet merged") s = (.ok (), s') :=
      hguard
    have hnone := assertDependenciesMerged_ok hasserted
    have hruns : s.db.featureRuns = db.featureRuns :=
      (congrArg (fun v => v.1.featureRuns) hview : s.db.core.featureRuns = db.core.featureRuns)
    have hdeps : s.db.featureDependencies = db.featureDependencies :=
      (congrArg (fun v => v.1.featureDependencies) hview :
        s.db.core.featureDependencies = db.core.featureDependencies)
    rw [Db.unmetDependencies, hruns, hdeps] at hnone
    exact hnone

/-- **A command starts only runs whose dependencies are merged**, when it keeps the order. -/
theorem Step.proceeds (hstep : request.Step ev rt db db' run) (hmet : DependenciesMet db)
    (hkeeps : request.KeepsOrder db) (hrequests : db'.featureRequests = db.featureRequests)
    (hdependencies : db'.featureDependencies = db.featureDependencies) : db.Proceeds db' where
  requests := hrequests
  dependencies := hdependencies
  runs := by
    obtain ⟨hrun, hid, -⟩ := Db.findFeatureRun_some hstep.found
    obtain ⟨row, hrow, hfrom, hto⟩ := isValid_iff.mp hstep.valid
    refine hstep.runs.imp fun r r' hchange => ?_
    rcases hchange with ⟨rfl, hid', hof, hstate, -⟩ | ⟨hne, rfl | ⟨-, hpending, rfl⟩⟩
    · refine ⟨hid', hof, fun hmerged => ?_, fun hbegun => ?_⟩
      · exact absurd (hfrom.trans hmerged) (edges_of_merged row hrow)
      · rw [hstate] at hbegun
        rcases request.command.edges_begun row hrow hto hbegun with
          hbefore | hselect | hretry | ⟨hresumes, hhuman⟩
        · rw [hfrom] at hbefore
          exact Or.inl hbefore
        · exact Or.inr (Db.unmetDependencies_eq_nil.mp (hstep.selected hselect).2)
        · -- the active run
          obtain ⟨active, hactive, hactiveId, hactiveMet⟩ :=
            hmet.active _ _ (hstep.retry_active hretry)
          have hsame : active.id = r.id := hactiveId.trans hid.symm
          rw [db.featureRuns.eq_of_clash hactive hrun (decide_eq_true hsame)] at hactiveMet
          exact Or.inr hactiveMet
        · rw [hfrom] at hhuman
          exact Or.inr (Db.unmetDependencies_eq_nil.mp
            ((hkeeps r hstep.found hhuman).2 hresumes))
    · exact ⟨rfl, rfl, id, Or.inl⟩
    · refine ⟨rfl, rfl, fun hmerged => ?_, fun hbegun => ?_⟩
      · rw [hpending] at hmerged
        cases hmerged
      · cases hbegun
  pointers projectId id hactive := by
    have hpointer := hstep.pointer
    cases hmove : request.command.pointer with
    | keep =>
      rw [hmove] at hpointer
      rw [activeFeatureRunId_of_eq hpointer] at hactive
      exact Or.inl hactive
    | release =>
      rw [hmove] at hpointer
      exact Or.inl (activeFeatureRunId_of_release hpointer hactive)
    | claim =>
      rw [hmove] at hpointer
      rw [activeFeatureRunId_claim hpointer] at hactive
      split at hactive
      · obtain ⟨hrun, hid, -⟩ := Db.findFeatureRun_some hstep.found
        have hselect := FeatureCommand.selects_of_claim hmove
        exact Or.inr ⟨run, hrun, hid.trans (Option.some.inj hactive),
          Db.unmetDependencies_eq_nil.mp (hstep.selected hselect).2⟩
      · exact Or.inl hactive

end Request

/-! ### Planning calls -/

/-- **A view that no planning table, no record and no activation changes** is the same after a planning
call. -/
theorem PlanningCall.view_of_did {τ : Type} {g : Db → τ}
    (hview : Unplanned fun s : Session => g s.db)
    (happroval : ∀ db t, g (planApprovalTable.put db t) = g db)
    (hactivation : ∀ planId, Frame (fun s : Session => g s.db) (activationEffects planId))
    (huntraced : ∀ db : Db, g db.untraced = g db) {db : Db} {call : PlanningCall}
    (h : call.Did db) : g (planningCommands.next db call) = g db := by
  obtain ⟨command, envelope, runtime⟩ := call
  obtain ⟨ev, s₁, s₂, result, hs₁, -, hbody, hs₂⟩ := h.work
  have hbefore : g s₁.db = g db := by
    rw [← huntraced s₁.db, hs₁, huntraced db]
  have hmove : ∀ {P : Type} {envelope : CommandEnvelope P} {ref : PlanRef} {move : PlanMove},
      Frame (fun s : Session => g s.db) move.effects →
      Frame (fun s : Session => g s.db) (movePlan envelope ref move) :=
    frame_movePlan (g := fun p => g p.1) hview fun db rt t => hview.plan (.start db rt) t
  have hkept : Frame (fun s : Session => g s.db)
      ((PlanningCommand.handler command).body envelope ev) := by
    cases command with
    | generateFeatureBacklog => exact BacklogWrite.frame_run hview
    | importBacklog => exact BacklogWrite.frame_run hview
    | validateBacklog =>
      exact frame_bind (frame_validateBacklogWork hview envelope) fun _ => frame_pure _
    | submitPlanForApproval => exact hmove (frame_pure _)
    | approvePlan =>
      exact hmove (frame_bind (frame_insertPlanApproval hview.sees (fun s => happroval s.db) envelope)
        fun _ => frame_pure _)
    | activatePlan => exact hmove (hactivation _)
  have hafter : g (planningCommands.next db ⟨command, envelope, runtime⟩) = g s₂.db := by
    rw [← huntraced s₂.db, ← hs₂, huntraced]
  exact hafter.trans ((hkept.of_exec hbody).trans hbefore)

/-- **A planning call leaves the pointers alone.** -/
theorem PlanningCall.workflowStates_of_did {db : Db} {call : PlanningCall} (h : call.Did db) :
    (planningCommands.next db call).workflowStates = db.workflowStates := by
  have hview : Unplanned fun s : Session => s.db.workflowStates :=
    ⟨⟨fun _ _ _ => rfl, fun _ _ => rfl, fun _ _ => rfl, fun _ _ => rfl, fun _ _ => rfl⟩,
      fun _ _ => rfl, fun _ _ => rfl, fun _ _ => rfl, fun _ _ => rfl⟩
  exact view_of_did (g := Db.workflowStates) hview (fun _ _ => rfl)
    (frame_activationEffects (fun _ _ _ => rfl) fun _ _ => rfl) (fun _ => rfl) h

/-- **Every effect of a planning call keeps the dependencies met**: new dependencies are of new
features, and new runs wait. -/
theorem DependenciesMet.effect {db db' : Db} {write : Option BacklogWrite}
    {examined : Option ValidateBacklogPayload} (h : DependenciesMet db)
    (hstates : db'.workflowStates = db.workflowStates)
    (heffect : PlanningEffect write examined db db') : DependenciesMet db' := by
  cases heffect with
  | rewritten w plan fresh new call isPlan known left inserted requests dependencies sources runs =>
    have hunique := db'.featureRequests.unique
    rw [requests, List.pairwise_append] at hunique
    -- the feature of a run is not among the new ones
    have hmet : ∀ run ∈ db.featureRuns.rows, db.Met run.featureRequestId →
        db'.Met run.featureRequestId := by
      rintro run hrun hbefore target ⟨dep, hdep, hsource, htarget⟩
      rw [dependencies] at hdep
      rw [Db.Merged, runs]
      rcases List.mem_append.mp hdep with hold | hnew
      · exact hbefore target ⟨dep, hold, hsource, htarget⟩
      · obtain ⟨row, hrow, hid⟩ := sources dep hnew
        obtain ⟨freq, hfreq, hof⟩ := h.known run hrun
        have hclash := hunique.2.2 freq hfreq row hrow
        have hsame : freq.id = row.id := hof.trans (hsource.symm.trans hid.symm)
        simp [Row.clash, hsame] at hclash
    refine ⟨fun run hrun hbegun => ?_, fun projectId id hactive => ?_, fun run hrun => ?_⟩
    · rw [runs] at hrun
      exact hmet run hrun (h.begun run hrun hbegun)
    · rw [activeFeatureRunId_of_eq hstates] at hactive
      obtain ⟨run, hrun, hid, hbefore⟩ := h.active projectId id hactive
      rw [runs]
      exact ⟨run, hrun, hid, hmet run hrun hbefore⟩
    · rw [runs] at hrun
      obtain ⟨freq, hfreq, hof⟩ := h.known run hrun
      rw [requests]
      exact ⟨freq, List.mem_append_left _ hfreq, hof⟩
  | validated payload now call nonempty left requests dependencies runs =>
    exact h.proceeds (.of_eq requests dependencies runs hstates)
  | moved plan toState state left requests dependencies runs =>
    exact h.proceeds (.of_eq requests dependencies runs hstates)
  | activated plan state left requests dependencies kept fresh runs =>
    have hmet : ∀ id, db.Met id → db'.Met id := by
      rintro id hbefore target ⟨dep, hdep, hsource, htarget⟩
      rw [dependencies] at hdep
      obtain ⟨run, hrun, hof, hmerged⟩ := hbefore target ⟨dep, hdep, hsource, htarget⟩
      exact ⟨run, kept run hrun, hof, hmerged⟩
    refine ⟨fun run hrun hbegun => ?_, fun projectId id hactive => ?_, fun run hrun => ?_⟩
    · rcases fresh run hrun with hold | ⟨hpending, -⟩
      · exact hmet _ (h.begun run hold hbegun)
      · rw [hpending] at hbegun
        cases hbegun
    · rw [activeFeatureRunId_of_eq hstates] at hactive
      obtain ⟨run, hrun, hid, hbefore⟩ := h.active projectId id hactive
      exact ⟨run, kept run hrun, hid, hmet _ hbefore⟩
    · rw [requests]
      rcases fresh run hrun with hold | ⟨-, feature, hfeature, hof⟩
      · exact h.known run hold
      · exact ⟨feature, (List.mem_filter.mp hfeature).1, hof⟩

/-! ### Runs -/

/-- A selection of the run takes effect. -/
def SystemEvent.Selects (db : Db) (run : FeatureRun) : SystemEvent → Prop
  | .commit request ev rt => request.command = .selectFeature ∧
      db.findFeatureRun request.ref.featureRunId request.ref.projectId = some run ∧
      SystemEvent.next db (.commit request ev rt) ≠ db
  | _ => False

/-- A step keeps the order: a command does, a step outside the commands starts no run past its
dependencies. -/
def SystemEvent.KeepsOrder (db : Db) : SystemEvent → Prop
  | .commit request _ _ => request.KeepsOrder db
  | .other db' => db.Proceeds db'
  | _ => True

namespace BacklogEvent

def Selects (db : Db) (run : FeatureRun) : BacklogEvent → Prop
  | .system event => SystemEvent.Selects db run event
  | .planning _ => False

def KeepsOrder (db : Db) : BacklogEvent → Prop
  | .system event => SystemEvent.KeepsOrder db event
  | .planning _ => True

end BacklogEvent

section Runs

variable {db : Db} {event : BacklogEvent} {run : FeatureRun}

/-- What a selection found. -/
theorem BacklogEvent.Selects.found (h : event.Selects db run) :
    ∃ (projectId : String) (freq : FeatureRequest), freq ∈ db.featureRequests.rows ∧
      freq.projectId = projectId ∧ run ∈ db.featureRuns.rows ∧ run.featureRequestId = freq.id ∧
      (run.currentExecutionState = .approvedPendingExecution ∨
        run.currentExecutionState = .humanRequired) ∧
      db.unmetDependencies run.featureRequestId = [] := by
  cases event with
  | planning event => exact h.elim
  | system event =>
    cases event with
    | commit request ev rt =>
      obtain ⟨hselect, hfound, hchanged⟩ := h
      rcases SystemEvent.next_commit db request ev rt with hsame | hdid
      · exact absurd hsame hchanged
      · obtain ⟨run', hstep⟩ := hdid.step
        obtain rfl := Option.some.inj (hfound.symm.trans hstep.found)
        obtain ⟨hrun, -, freq, hfreq, hof, hproject⟩ := Db.findFeatureRun_some hfound
        obtain ⟨hstate, hmet⟩ := hstep.selected hselect
        exact ⟨_, freq, hfreq, hproject, hrun, hof.symm, hstate, hmet⟩
    | lock e => exact h.elim
    | gather request rt => exact h.elim
    | other db' => exact h.elim

/-- **A selection takes an eligible run, unless the run is in `human_required`.** -/
theorem selects_eligible_iff (h : event.Selects db run) :
    (∃ projectId freq, Eligible projectId db freq run) ↔
      run.currentExecutionState ≠ .humanRequired := by
  obtain ⟨projectId, freq, hfreq, hproject, hrun, hof, hstate, hmet⟩ := h.found
  constructor
  · rintro ⟨projectId', freq', heligible⟩ hhuman
    rw [heligible.pending] at hhuman
    cases hhuman
  · intro hother
    rw [hof] at hmet
    exact ⟨projectId, freq, hfreq, hproject, hrun, hof, hstate.resolve_right hother, hmet⟩

/-- **Every step keeps the dependencies met.** -/
theorem DependenciesMet.next (h : DependenciesMet db) (hkeeps : event.KeepsOrder db) :
    DependenciesMet (backlogNext db event) := by
  cases event with
  | planning event =>
    cases event with
    | preview envelope runtime =>
      rw [backlogNext, planningNext_preview]
      exact h
    | command call =>
      rcases CommandFamily.next_cases db call with hsame | hdid
      · rw [backlogNext, planningNext, hsame]
        exact h
      · have huntraced : DependenciesMet db.untraced := ⟨h.begun, h.active, h.known⟩
        have hstates : (planningCommands.next db call).untraced.workflowStates =
            db.untraced.workflowStates := PlanningCall.workflowStates_of_did hdid
        have hnext := huntraced.effect hstates (PlanningCall.effect_of_did hdid)
        exact ⟨hnext.begun, hnext.active, hnext.known⟩
  | system event =>
    cases event with
    | lock e =>
      have hrest := LockEvent.next_withoutLocks db e
      exact h.proceeds (.of_eq (congrArg (fun db => db.featureRequests) hrest)
        (congrArg (fun db => db.featureDependencies) hrest)
        (congrArg (fun db => db.featureRuns) hrest) (congrArg (fun db => db.workflowStates) hrest))
    | gather request rt =>
      have hrest := SystemEvent.next_gather db request rt
      exact h.proceeds (.of_eq (congrArg (fun db => db.featureRequests) hrest)
        (congrArg (fun db => db.featureDependencies) hrest)
        (congrArg (fun db => db.featureRuns) hrest) (congrArg (fun db => db.workflowStates) hrest))
    | commit request ev rt =>
      rcases SystemEvent.next_commit db request ev rt with hsame | hdid
      · rw [backlogNext, hsame]
        exact h
      · obtain ⟨run, hstep⟩ := hdid.step
        exact h.proceeds (hstep.proceeds h hkeeps hdid.featureRequests hdid.featureDependencies)
    | other db' => exact h.proceeds hkeeps

/-- **Selection respects dependencies**: on every database the search finds the first eligible run of a
project, if there is one, and its selection is accepted; and in every run in which no command takes a
run past its dependencies out of `human_required`, a selection takes an eligible run, and all that its
feature depends on is merged. -/
theorem selection_respects_dependencies {events : List BacklogEvent} (hstart : DependenciesMet db)
    (h : Along backlogNext BacklogEvent.KeepsOrder db events) :
    (∀ (db : Db) (projectId : String), db.FindsNext projectId) ∧
      (∀ (db : Db) (event : BacklogEvent) (run : FeatureRun), event.Selects db run →
        ((∃ projectId freq, Eligible projectId db freq run) ↔
          run.currentExecutionState ≠ .humanRequired)) ∧
      Along backlogNext (fun db event => ∀ run, event.Selects db run →
        (∃ projectId freq, Eligible projectId db freq run) ∧
          ∀ target, Relation.TransGen db.DependsOn run.featureRequestId target →
            db.Merged target) db events := by
  refine ⟨findsNext, fun _ _ _ => selects_eligible_iff, ?_⟩
  have hmet : Along backlogNext (fun db event => DependenciesMet db ∧ event.KeepsOrder db) db
      events :=
    along_and_of_step (fun _ _ hmet hkeeps => hmet.next hkeeps) hstart h
  refine hmet.imp fun db event ⟨hmet, hkeeps⟩ run hselects => ?_
  obtain ⟨projectId, freq, hfreq, hproject, hrun, hof, hstate, hunmet⟩ := hselects.found
  refine ⟨(selects_eligible_iff hselects).mpr fun hhuman => ?_, fun target hdepends => ?_⟩
  · cases event with
    | planning event => exact hselects.elim
    | system event =>
      cases event with
      | commit request ev rt =>
        exact (hkeeps run hselects.2.1 hhuman).1 hselects.1
      | lock e => exact hselects.elim
      | gather request rt => exact hselects.elim
      | other db' => exact hselects.elim
  · exact hmet.transitive (Db.unmetDependencies_eq_nil.mp hunmet) hdepends

end Runs

/-! ### Runs on a sample project -/

/-- An idle project with two features: one is merged, and the other one, which depends on it, has a run
in a given state. -/
def sampleOrderDb (state : FeatureExecutionState) : Db where
  featureRequests := .ofList [
    { id := "A", projectId := "P", frId := "FR-1" }, { id := "B", projectId := "P", frId := "FR-2" }]
  featureDependencies := .ofList [{ id := "dep", sourceFrId := "B", targetFrId := "A" }]
  featureRuns := .ofList [
    { id := "a", featureRequestId := "A", currentExecutionState := .merged },
    { id := "b", featureRequestId := "B", currentExecutionState := state }]
  workflowStates := .ofList [{ id := "state", projectId := "P" }]

/-- The selection of the second run. -/
def sampleSelection : BacklogEvent :=
  .system (.commit ⟨.selectFeature, {
    commandId := "select"
    idempotencyKey := "select"
    payload := ⟨"b", "P", 1⟩
    actor := ⟨"operator", .operator, .human⟩
    correlationId := "select" }⟩ () (sampleRuntime 1))

/-- The selection takes effect, in either of two states. -/
theorem sampleSelection_selects {state : FeatureExecutionState}
    (h : state = .approvedPendingExecution ∨ state = .humanRequired) :
    sampleSelection.Selects (sampleOrderDb state)
      { id := "b", featureRequestId := "B", currentExecutionState := state } := by
  refine ⟨rfl, ?_, fun hsame => ?_⟩
  · rcases h with rfl | rfl
    · rfl
    · rfl
  · have hstate := congrArg (fun db => db.stateOf "b") hsame
    revert hstate
    rcases h with rfl | rfl
    · decide +kernel
    · decide +kernel

/-- A run that waits is selected, and the feature that its own depends on is merged. -/
theorem selection_respects_dependencies_merged :
    (sampleOrderDb .approvedPendingExecution).Merged "A" := by
  have hmerged : (sampleOrderDb .approvedPendingExecution).Merged "A" := by
    unfold Db.Merged
    decide +kernel
  have hstart : DependenciesMet (sampleOrderDb .approvedPendingExecution) := by
    refine ⟨fun run hrun hbegun target hdepends => ?_, fun projectId id hactive => ?_, ?_⟩
    · -- every dependency is on the merged feature
      obtain ⟨dep, hdep, -, rfl⟩ := hdepends
      obtain rfl := List.mem_singleton.mp hdep
      exact hmerged
    · obtain ⟨ws, hws, hid⟩ := Option.bind_eq_some_iff.mp hactive
      obtain rfl := List.mem_singleton.mp (Db.findWorkflowState_some hws).1
      cases hid
    · decide +kernel
  have hkeeps : Along backlogNext BacklogEvent.KeepsOrder (sampleOrderDb .approvedPendingExecution)
      [sampleSelection] := by
    refine ⟨fun run hrun hhuman => ?_, trivial⟩
    obtain rfl := Option.some.inj hrun
    cases hhuman
  have hrespects := (selection_respects_dependencies hstart hkeeps).2.2.1
  refine (hrespects _ (sampleSelection_selects (Or.inl rfl))).2 "A" (.single ?_)
  exact ⟨_, List.mem_singleton.mpr rfl, rfl, rfl⟩

/-- A run in `human_required` is selected as well, although it does not wait. -/
theorem not_selects_waiting :
    ∃ run, sampleSelection.Selects (sampleOrderDb .humanRequired) run ∧
      run.currentExecutionState ≠ .approvedPendingExecution :=
  ⟨_, sampleSelection_selects (Or.inr rfl), by decide⟩

end MiniCoder
