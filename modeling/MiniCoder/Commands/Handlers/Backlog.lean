import MiniCoder.Commands.RowMove
import MiniCoder.Library.Dfs

/-!
# The handlers of a plan's backlog

Generation and import write the features of a plan with their dependencies; both raise the plan's
`backlog_version` and clear its validation.  Validation searches the backlog for faults and records
what it found under the version it read.

* `insertFeatures_ok`, `writeFeatures_ok`: the rows that a generation or an import adds.
* `writeBacklog_ok`: **what a generation or an import that did its work found and wrote**.
* `hasCycle_false`: a backlog without a cycle has an order that respects its dependencies.
* `validateBacklogWork_ok`: **what a validation that did its work found and wrote**.
* `db_validateBacklog`: the error thrown after the commit leaves what the commit left.
-/

open Storage Storage.Action

namespace MiniCoder

/-! ### Tables -/

/-- The `implementation_plans` table. -/
def implementationPlanTable : TableOf Db ImplementationPlan where
  get db := db.planning.implementationPlans
  put db t := { db with planning := { db.planning with implementationPlans := t } }
  get_put _ _ := rfl

/-- The `feature_requests` table. -/
def featureRequestTable : TableOf Db FeatureRequest where
  get := Db.featureRequests
  put db t := { db with featureRequests := t }
  get_put _ _ := rfl

/-- The `feature_dependencies` table. -/
def featureDependencyTable : TableOf Db FeatureDependency where
  get := Db.featureDependencies
  put db t := { db with featureDependencies := t }
  get_put _ _ := rfl

/-- The `acceptance_criteria` table. -/
def acceptanceCriterionTable : TableOf Db AcceptanceCriterion where
  get db := db.planning.acceptanceCriteria
  put db t := { db with planning := { db.planning with acceptanceCriteria := t } }
  get_put _ _ := rfl

/-- The `test_expectations` table. -/
def testExpectationTable : TableOf Db TestExpectation where
  get db := db.planning.testExpectations
  put db t := { db with planning := { db.planning with testExpectations := t } }
  get_put _ _ := rfl

namespace Db

/-- `SELECT … FROM implementation_plans WHERE id = ? AND project_id = ?`. -/
def findPlan (db : Db) (planId projectId : String) : Option ImplementationPlan :=
  db.planning.implementationPlans.find? fun plan => plan.id == planId && plan.projectId == projectId

/-- `SELECT id FROM planning_gaps WHERE assessment_id = ? AND severity = ? AND resolved_at IS NULL`,
for the assessment of a plan. -/
def unresolvedBlockingGaps (db : Db) (plan : ImplementationPlan) : List PlanningGap :=
  db.planning.gaps.select fun gap => plan.assessmentId == some gap.assessmentId &&
    gap.severity == .blocking && gap.resolvedAt.isNone

end Db

/-- The unresolved blocking gaps, which are asked for when the plan names an assessment. -/
def queryBlockingGaps (plan : ImplementationPlan) : Sql (List PlanningGap) :=
  if plan.assessmentId.any (fun assessmentId => decide (assessmentId ≠ "")) then
    query fun db => db.unresolvedBlockingGaps plan
  else pure []

theorem frame_queryBlockingGaps {τ : Type} {π : Session → τ} (hπ : SeesData π)
    (plan : ImplementationPlan) : Frame π (queryBlockingGaps plan) :=
  frame_ite (frame_query hπ _) (frame_pure _)

/-- The plan of a payload, or the error for a missing one. -/
def requirePlan (title planId projectId correlationId : String) : Sql ImplementationPlan :=
  require fun db => match db.findPlan planId projectId with
    | some plan => .ok plan
    | none => .error (.command {
        type := "not-found"
        title
        status := 404
        detail := s!"Plan {planId} not found in project {projectId}"
        instance? := some correlationId })

theorem requirePlan_ok {title planId projectId correlationId : String} {plan : ImplementationPlan}
    {s s' : Session}
    (h : exec (requirePlan title planId projectId correlationId) s = (.ok plan, s')) :
    s.db.findPlan planId projectId = some plan ∧ s'.db = s.db ∧ s'.runtime = s.runtime := by
  obtain ⟨hfound, hdb, hrt⟩ := require_ok h
  rcases hplan : s.db.findPlan planId projectId with _ | found
  · rw [hplan] at hfound
    cases hfound
  · rw [hplan] at hfound
    obtain rfl := Except.ok.inj hfound
    exact ⟨rfl, hdb, hrt⟩

/-! ### Writing features -/

/-- An element of `testExpectations`. -/
structure TestExpectationInput where
  description : String
  testType : Option TestType

/-- `FeatureInputSchema`; the features of an import have no criteria and no expectations. -/
structure FeatureInput where
  frId : String
  title : String
  description : String
  kind : FeatureKind := .feature
  priority : ℤ := 0
  dependsOnFrIds : List String := []
  acceptanceCriteria : List String := []
  testExpectations : List TestExpectationInput := []

/-- The row of a feature. -/
def FeatureInput.row (feature : FeatureInput) (planId projectId id : String) (now : ℤ) :
    FeatureRequest where
  id
  planId
  projectId
  frId := feature.frId
  title := feature.title
  description := feature.description
  kind := feature.kind
  executable := feature.kind == .feature
  state := .approvedPendingExecution
  priority := feature.priority
  createdAt := now

/-- The loop over the features; returns the map `idByFrId`, its newest entry first. -/
def insertFeatures (planId projectId : String) (now : ℤ) :
    List FeatureInput → List (String × String) → Sql (List (String × String))
  | [], idByFrId => pure idByFrId
  | feature :: features, idByFrId => do
    let id ← generateId
    insertInto featureRequestTable (feature.row planId projectId id now)
    insertEachFrom acceptanceCriterionTable
      (fun criterionId orderIndex description =>
        { id := criterionId, featureRequestId := id, description, orderIndex })
      0 feature.acceptanceCriteria
    insertEachFrom testExpectationTable
      (fun expectationId orderIndex te =>
        { id := expectationId, featureRequestId := id, description := te.description
          testType := te.testType, orderIndex })
      0 feature.testExpectations
    insertFeatures planId projectId now features ((feature.frId, id) :: idByFrId)

/-- The loop over the dependencies of one feature. -/
def insertTargets (idByFrId : List (String × String)) (sourceFrId : String)
    (unknown : String → Failure) : List String → Sql Unit
  | [] => pure ()
  | targetFrId :: targets => do
    let targetFrId ← orThrow (match idByFrId.lookup targetFrId with
      | none => .error (unknown targetFrId)
      | some targetId => .ok targetId)
    let id ← generateId
    insertInto featureDependencyTable { id, sourceFrId, targetFrId }
    insertTargets idByFrId sourceFrId unknown targets

/-- The loop over the dependencies of all features. -/
def insertDependencies (idByFrId : List (String × String))
    (unknown : FeatureInput → String → Failure) : List FeatureInput → Sql Unit
  | [] => pure ()
  | feature :: features => do
    insertTargets idByFrId ((idByFrId.lookup feature.frId).getD "") (unknown feature)
      feature.dependsOnFrIds
    insertDependencies idByFrId unknown features

/-- The features of a payload, and then their dependencies. -/
def writeFeatures (planId projectId : String) (unknown : FeatureInput → String → Failure)
    (features : List FeatureInput) : Sql Unit := do
  let now ← isoNow
  let idByFrId ← insertFeatures planId projectId now features []
  insertDependencies idByFrId unknown features

/-- What a connection sees beside the tables of the backlog. -/
def unfeatured (s : Session) : Db × Runtime :=
  ({ s.db with
      featureRequests := .empty
      featureDependencies := .empty
      planning := {
        s.db.planning with acceptanceCriteria := .empty, testExpectations := .empty } }, s.runtime)

section Features

variable {planId projectId : String} {unknown : FeatureInput → String → Failure}
  {now : ℤ} {features : List FeatureInput} {idByFrId idByFrId' : List (String × String)}
  {s s' : Session}

/-- A view that sees none of the tables that a backlog writes. -/
structure Unfeatured {τ : Type} (π : Session → τ) : Prop where
  sees : SeesData π
  request : ∀ s t, π { s with db := featureRequestTable.put s.db t } = π s
  dependency : ∀ s t, π { s with db := featureDependencyTable.put s.db t } = π s
  criterion : ∀ s t, π { s with db := acceptanceCriterionTable.put s.db t } = π s
  expectation : ∀ s t, π { s with db := testExpectationTable.put s.db t } = π s

/-- A view that sees neither the tables of a plan nor the record of a command. -/
structure Unplanned {τ : Type} (π : Session → τ) : Prop extends Unfeatured π where
  plan : ∀ s t, π { s with db := implementationPlanTable.put s.db t } = π s
  approval : ∀ s t, π { s with db := { s.db with humanApprovals := t } } = π s
  events : ∀ s t, π { s with db := { s.db with workflowEvents := t } } = π s
  outbox : ∀ s t, π { s with db := { s.db with outboxEvents := t } } = π s

theorem unfeatured_unfeatured : Unfeatured unfeatured :=
  ⟨fun _ _ _ => rfl, fun _ _ => rfl, fun _ _ => rfl, fun _ _ => rfl, fun _ _ => rfl⟩

theorem frame_insertFeatures {τ : Type} {π : Session → τ} (hπ : SeesData π)
    (hrequest : ∀ s t, π { s with db := featureRequestTable.put s.db t } = π s)
    (hcriterion : ∀ s t, π { s with db := acceptanceCriterionTable.put s.db t } = π s)
    (hexpectation : ∀ s t, π { s with db := testExpectationTable.put s.db t } = π s) :
    Frame π (insertFeatures planId projectId now features idByFrId) := by
  induction features generalizing idByFrId with
  | nil => exact frame_pure _
  | cons feature features ih =>
    exact frame_bind (frame_generateId hπ) fun _ =>
      frame_bind (frame_insertInto hπ hrequest _) fun _ =>
      frame_bind (frame_insertEachFrom hπ hcriterion) fun _ =>
      frame_bind (frame_insertEachFrom hπ hexpectation) fun _ => ih

theorem frame_insertTargets {τ : Type} {π : Session → τ} (hπ : SeesData π)
    (hdependency : ∀ s t, π { s with db := featureDependencyTable.put s.db t } = π s)
    {sourceFrId : String} {unknown : String → Failure} {targets : List String} :
    Frame π (insertTargets idByFrId sourceFrId unknown targets) := by
  induction targets with
  | nil => exact frame_pure _
  | cons target targets ih =>
    exact frame_bind (frame_orThrow _) fun _ => frame_bind (frame_generateId hπ) fun _ =>
      frame_bind (frame_insertInto hπ hdependency _) fun _ => ih

theorem frame_insertDependencies {τ : Type} {π : Session → τ} (hπ : SeesData π)
    (hdependency : ∀ s t, π { s with db := featureDependencyTable.put s.db t } = π s) :
    Frame π (insertDependencies idByFrId unknown features) := by
  induction features with
  | nil => exact frame_pure _
  | cons feature features ih =>
    exact frame_bind (frame_insertTargets hπ hdependency) fun _ => ih

theorem frame_writeFeatures {τ : Type} {π : Session → τ} (hπ : Unfeatured π) :
    Frame π (writeFeatures planId projectId unknown features) :=
  frame_bind frame_isoNow fun _ => frame_bind (frame_insertFeatures hπ.sees hπ.request hπ.criterion hπ.expectation) fun _ =>
    frame_insertDependencies hπ.sees hπ.dependency

/-- The features that were inserted, one row each; their identifiers, and no others, have the ids of
the rows. -/
theorem insertFeatures_ok
    (h : exec (insertFeatures planId projectId now features idByFrId) s = (.ok idByFrId', s')) :
    ∃ fresh, s'.db.featureRequests.rows = s.db.featureRequests.rows ++ fresh ∧
      List.Forall₂ (fun row feature => ∃ id now, row = feature.row planId projectId id now) fresh features ∧
      (∀ frId id, idByFrId'.lookup frId = some id →
        (frId ∈ features.map FeatureInput.frId ∧ ∃ row ∈ fresh, row.id = id) ∨
          idByFrId.lookup frId = some id) ∧
      ∀ frId, frId ∈ features.map FeatureInput.frId ∨ (idByFrId.lookup frId).isSome = true →
        (idByFrId'.lookup frId).isSome = true := by
  induction features generalizing idByFrId s with
  | nil =>
    obtain ⟨hr, rfl⟩ := Prod.mk.inj h
    obtain rfl := Except.ok.inj hr
    exact ⟨[], by simp, List.Forall₂.nil, fun _ _ hsome => Or.inr hsome,
      fun _ hsome => by simpa using hsome⟩
  | cons feature features ih =>
    obtain ⟨id, s₁, hid, h₁⟩ := exec_bind_ok.mp h
    obtain ⟨-, rfl⟩ := Prod.mk.inj hid
    obtain ⟨_, s₂, hinsert, h₂⟩ := exec_bind_ok.mp h₁
    obtain ⟨_, s₃, hcriteria, h₃⟩ := exec_bind_ok.mp h₂
    obtain ⟨_, s₄, hexpectations, h₄⟩ := exec_bind_ok.mp h₃
    obtain ⟨t, ht, hdb, -⟩ := insertInto_ok hinsert
    obtain ⟨fresh, hrows, hfeatures, hids, hknown⟩ := ih h₄
    have hcriteria' : s₃.db.featureRequests = s₂.db.featureRequests :=
      (frame_insertEachFrom (π := fun s : Session => s.db.featureRequests) (fun _ _ _ => rfl)
        fun _ _ => rfl).of_exec hcriteria
    have hexpectations' : s₄.db.featureRequests = s₃.db.featureRequests :=
      (frame_insertEachFrom (π := fun s : Session => s.db.featureRequests) (fun _ _ _ => rfl)
        fun _ _ => rfl).of_exec hexpectations
    have hrequests : s₂.db.featureRequests = t := by
      rw [hdb]
      rfl
    refine ⟨feature.row planId projectId id now :: fresh, ?_,
      List.Forall₂.cons ⟨id, now, rfl⟩ hfeatures, ?_, ?_⟩
    · rw [hrows, hexpectations', hcriteria', hrequests, Table.rows_insert? ht, List.append_assoc]
      rfl
    · intro frId rowId hlookup
      rcases hids frId rowId hlookup with ⟨hlater, row, hrow, hid'⟩ | hbefore
      · exact Or.inl ⟨List.mem_cons_of_mem _ hlater, row, List.mem_cons_of_mem _ hrow, hid'⟩
      · by_cases hfr : frId = feature.frId
        · subst hfr
          rw [List.lookup_cons_self] at hbefore
          exact Or.inl ⟨List.mem_cons_self, _, List.mem_cons_self, Option.some.inj hbefore⟩
        · rw [List.lookup_cons, beq_eq_false_iff_ne.mpr hfr] at hbefore
          exact Or.inr hbefore
    · intro frId hmem
      refine hknown frId ?_
      by_cases hfr : frId = feature.frId
      · subst hfr
        rw [List.lookup_cons_self]
        exact Or.inr rfl
      · rw [List.lookup_cons, beq_eq_false_iff_ne.mpr hfr]
        rw [List.map_cons, List.mem_cons] at hmem
        tauto

/-- The dependencies of one feature that were inserted; every target has an id. -/
theorem insertTargets_ok {sourceFrId : String} {unknown : String → Failure} {targets : List String}
    (h : exec (insertTargets idByFrId sourceFrId unknown targets) s = (.ok (), s')) :
    (∀ target ∈ targets, (idByFrId.lookup target).isSome = true) ∧
      ∃ new, s'.db.featureDependencies.rows = s.db.featureDependencies.rows ++ new ∧
        ∀ dep ∈ new, dep.sourceFrId = sourceFrId := by
  induction targets generalizing s with
  | nil =>
    obtain ⟨-, rfl⟩ := Prod.mk.inj h
    exact ⟨by simp, [], by simp, by simp⟩
  | cons first targets ih =>
    obtain ⟨targetId, s₁, hlookup, h₁⟩ := exec_bind_ok.mp h
    obtain ⟨hchecked, rfl⟩ := orThrow_ok hlookup
    obtain ⟨id, s₂, hid, h₂⟩ := exec_bind_ok.mp h₁
    obtain ⟨-, rfl⟩ := Prod.mk.inj hid
    obtain ⟨_, s₃, hinsert, h₃⟩ := exec_bind_ok.mp h₂
    obtain ⟨t, ht, hdb, -⟩ := insertInto_ok hinsert
    obtain ⟨hknown, new, hrows, hsource⟩ := ih h₃
    have hfirst : (idByFrId.lookup first).isSome = true := by
      rcases hfound : idByFrId.lookup first with _ | found
      · rw [hfound] at hchecked
        cases hchecked
      · rfl
    have hdependencies : s₃.db.featureDependencies = t := by
      rw [hdb]
      rfl
    refine ⟨?_, { id, sourceFrId, targetFrId := targetId } :: new, ?_, ?_⟩
    · intro target htarget
      rcases List.mem_cons.mp htarget with rfl | hlater
      · exact hfirst
      · exact hknown target hlater
    · rw [hrows, hdependencies, Table.rows_insert? ht, List.append_assoc]
      rfl
    · intro dep hdep
      rcases List.mem_cons.mp hdep with rfl | hlater
      · rfl
      · exact hsource dep hlater

/-- The dependencies of all features. -/
theorem insertDependencies_ok
    (h : exec (insertDependencies idByFrId unknown features) s = (.ok (), s')) :
    (∀ feature ∈ features, ∀ target ∈ feature.dependsOnFrIds,
        (idByFrId.lookup target).isSome = true) ∧
      ∃ new, s'.db.featureDependencies.rows = s.db.featureDependencies.rows ++ new ∧
        ∀ dep ∈ new, ∃ feature ∈ features,
          dep.sourceFrId = (idByFrId.lookup feature.frId).getD "" := by
  induction features generalizing s with
  | nil =>
    obtain ⟨-, rfl⟩ := Prod.mk.inj h
    exact ⟨by simp, [], by simp, by simp⟩
  | cons first features ih =>
    obtain ⟨_, s₁, htargets, h₁⟩ := exec_bind_ok.mp h
    obtain ⟨hfirst, new₁, hrows₁, hsource₁⟩ := insertTargets_ok htargets
    obtain ⟨hlater, new₂, hrows₂, hsource₂⟩ := ih h₁
    refine ⟨?_, new₁ ++ new₂, ?_, ?_⟩
    · intro feature hfeature
      rcases List.mem_cons.mp hfeature with rfl | hmem
      · exact hfirst
      · exact hlater feature hmem
    · rw [hrows₂, hrows₁, List.append_assoc]
    · intro dep hdep
      rcases List.mem_append.mp hdep with hdep | hdep
      · exact ⟨first, List.mem_cons_self, hsource₁ dep hdep⟩
      · obtain ⟨feature, hfeature, hsource⟩ := hsource₂ dep hdep
        exact ⟨feature, List.mem_cons_of_mem _ hfeature, hsource⟩

/-- **The rows of a payload**: a request for each feature, and dependencies of these requests, each of
them on a feature of the payload. -/
theorem writeFeatures_ok (h : exec (writeFeatures planId projectId unknown features) s = (.ok (), s')) :
    ∃ fresh new, s'.db.featureRequests.rows = s.db.featureRequests.rows ++ fresh ∧
      List.Forall₂ (fun row feature => ∃ id now, row = feature.row planId projectId id now) fresh features ∧
      s'.db.featureDependencies.rows = s.db.featureDependencies.rows ++ new ∧
      (∀ dep ∈ new, ∃ row ∈ fresh, row.id = dep.sourceFrId) ∧
      ∀ feature ∈ features, ∀ target ∈ feature.dependsOnFrIds,
        target ∈ features.map FeatureInput.frId := by
  obtain ⟨now, s₀, hclock, h₀⟩ := exec_bind_ok.mp h
  obtain ⟨-, rfl⟩ := Prod.mk.inj hclock
  obtain ⟨idByFrId, s₁, hfeatures, hdependencies⟩ := exec_bind_ok.mp h₀
  obtain ⟨fresh, hrows, hfresh, hids, hknown⟩ := insertFeatures_ok hfeatures
  obtain ⟨htargets, new, hnew, hsource⟩ := insertDependencies_ok hdependencies
  have hkept : s'.db.featureRequests = s₁.db.featureRequests :=
    (frame_insertDependencies (π := fun s : Session => s.db.featureRequests) (fun _ _ _ => rfl)
      fun _ _ => rfl).of_exec hdependencies
  have hbefore : s₁.db.featureDependencies = s.db.featureDependencies :=
    (frame_insertFeatures (π := fun s : Session => s.db.featureDependencies) (fun _ _ _ => rfl)
      (fun _ _ => rfl) (fun _ _ => rfl) fun _ _ => rfl).of_exec hfeatures
  rw [← hkept] at hrows
  rw [hbefore] at hnew
  have hid : ∀ frId id, idByFrId.lookup frId = some id →
      frId ∈ features.map FeatureInput.frId ∧ ∃ row ∈ fresh, row.id = id := by
    intro frId id hlookup
    rcases hids frId id hlookup with hrow | hnone
    · exact hrow
    · cases hnone
  refine ⟨fresh, new, hrows, hfresh, hnew, ?_, ?_⟩
  · intro dep hdep
    obtain ⟨feature, hfeature, hlookup⟩ := hsource dep hdep
    obtain ⟨id, hsome⟩ := Option.isSome_iff_exists.mp
      (hknown feature.frId (Or.inl (List.mem_map_of_mem hfeature)))
    rw [hsome] at hlookup
    obtain ⟨row, hrow, hrowId⟩ := (hid feature.frId id hsome).2
    exact ⟨row, hrow, hrowId.trans hlookup.symm⟩
  · intro feature hfeature target htarget
    obtain ⟨id, hsome⟩ := Option.isSome_iff_exists.mp (htargets feature hfeature target htarget)
    exact (hid target id hsome).1

end Features

/-! ### A changed backlog -/

/-- `SET backlog_version = backlog_version + 1, …`: no validation holds of a changed backlog. -/
def ImplementationPlan.rebacklogged (plan : ImplementationPlan) : ImplementationPlan :=
  { plan with
    backlogVersion := plan.backlogVersion + 1
    backlogValidatedAt := none
    backlogValidatedState := none
    backlogValidatedVersion := none }

theorem ImplementationPlan.rebacklogged_keys : KeyFree ImplementationPlan.rebacklogged :=
  fun _ _ => rfl

/-- What differs between the generation of a backlog and an import. -/
structure BacklogWrite where
  planId : String
  projectId : String
  features : List FeatureInput
  unknown : FeatureInput → String → Failure
  approval : Option HumanApprovalOpts := none
  eventType : String
  toState : String
  /-- The event of a backlog that was generated in spite of blocking gaps. -/
  warning : Option String := none

namespace BacklogWrite

variable (write : BacklogWrite)

/-- The approval of an import. -/
def approve : Sql Unit :=
  match write.approval with
  | none => pure ()
  | some opts => do
    let _ ← insertHumanApproval opts
    pure ()

/-- The visible warning of a generation: no gate. -/
def warn (plan : ImplementationPlan) (actorId : String) : Sql Unit :=
  match write.warning with
  | none => pure ()
  | some eventType => do
    let gaps ← queryBlockingGaps plan
    if gaps = [] then pure ()
    else do
      let _ ← writeWorkflowEvent {
        projectId := some write.projectId, eventType
        fromState := write.toState, toState := write.toState, actorId }
      pure ()

/-- The work under the claim. -/
def run {P : Type} (envelope : CommandEnvelope P) : Sql CommandResult := do
  let plan ← requirePlan "Implementation plan not found" write.planId write.projectId
    envelope.correlationId
  writeFeatures write.planId write.projectId write.unknown write.features
  write.approve
  let _ ← updateWhere implementationPlanTable (fun plan => plan.id == write.planId)
    ImplementationPlan.rebacklogged ImplementationPlan.rebacklogged_keys
  let eventIds ← recordMove
    [{ projectId := some write.projectId
       eventType := write.eventType
       fromState := "none"
       toState := write.toState
       actorId := envelope.actor.id }]
    [(write.eventType, [
      ("projectId", .str write.projectId),
      ("planId", .str write.planId),
      ("featureCount", .num write.features.length)])]
  write.warn plan envelope.actor.id
  pure {
    commandId := envelope.commandId
    accepted := true
    resultingState := write.toState
    emittedEventIds := eventIds }

variable {write} {P : Type} {envelope : CommandEnvelope P} {s s' : Session}

theorem frame_approve {τ : Type} {π : Session → τ} (hπ : SeesData π)
    (hput : ∀ s t, π { s with db := { s.db with humanApprovals := t } } = π s) :
    Frame π write.approve := by
  unfold approve
  rcases write.approval with _ | opts
  · exact frame_pure _
  · exact frame_bind (frame_insertHumanApproval hπ hput _) fun _ => frame_pure _

theorem frame_warn {τ : Type} {π : Session → τ} (hπ : SeesData π)
    (hevents : ∀ s t, π { s with db := { s.db with workflowEvents := t } } = π s)
    (plan : ImplementationPlan) (actorId : String) : Frame π (write.warn plan actorId) := by
  unfold warn
  rcases write.warning with _ | eventType
  · exact frame_pure _
  · exact frame_bind (frame_queryBlockingGaps hπ plan) fun _ => frame_ite (frame_pure _)
      (frame_bind (frame_writeWorkflowEvent hπ hevents _) fun _ => frame_pure _)

theorem frame_run {τ : Type} {π : Session → τ} (hπ : Unplanned π) :
    Frame π (write.run envelope) :=
  frame_bind (frame_require hπ.sees _) fun plan =>
    frame_bind (frame_writeFeatures hπ.toUnfeatured) fun _ =>
    frame_bind (frame_approve hπ.sees hπ.approval) fun _ =>
    frame_bind (frame_updateWhere hπ.sees hπ.plan _) fun _ =>
    frame_bind (frame_recordMove hπ.sees hπ.events hπ.outbox _ _) fun _ =>
    frame_bind (frame_warn hπ.sees hπ.events _ _) fun _ => frame_pure _

theorem keys_run : Frame (fun s => (s.db.idempotencyKeys, s.runtime)) (write.run envelope) :=
  frame_run ⟨⟨fun _ _ _ => rfl, fun _ _ => rfl, fun _ _ => rfl, fun _ _ => rfl, fun _ _ => rfl⟩,
    fun _ _ => rfl, fun _ _ => rfl, fun _ _ => rfl, fun _ _ => rfl⟩

/-- **What a generation or an import that did its work found and wrote**: its plan in the project;
one new request for each feature, and dependencies of these requests, each on a feature of the
payload; the plan's backlog version one higher, without a validation; and no run. -/
theorem run_ok {result : CommandResult} (h : exec (write.run envelope) s = (.ok result, s')) :
    ∃ plan fresh new, s.db.findPlan write.planId write.projectId = some plan ∧
      (∀ feature ∈ write.features, ∀ target ∈ feature.dependsOnFrIds,
        target ∈ write.features.map FeatureInput.frId) ∧
      List.Forall₂ (fun row feature =>
        ∃ id now, row = feature.row write.planId write.projectId id now) fresh write.features ∧
      s'.db.featureRequests.rows = s.db.featureRequests.rows ++ fresh ∧
      s'.db.featureDependencies.rows = s.db.featureDependencies.rows ++ new ∧
      (∀ dep ∈ new, ∃ row ∈ fresh, row.id = dep.sourceFrId) ∧
      s'.db.planning.implementationPlans = s.db.planning.implementationPlans.update
        (fun plan => plan.id == write.planId) ImplementationPlan.rebacklogged
        ImplementationPlan.rebacklogged_keys ∧
      s'.db.featureRuns = s.db.featureRuns := by
  obtain ⟨plan, s₁, hplan, h₁⟩ := exec_bind_ok.mp h
  obtain ⟨_, s₂, hfeatures, h₂⟩ := exec_bind_ok.mp h₁
  obtain ⟨_, s₃, happrove, h₃⟩ := exec_bind_ok.mp h₂
  obtain ⟨n, s₄, hupdate, h₄⟩ := exec_bind_ok.mp h₃
  obtain ⟨ids, s₅, hrecord, h₅⟩ := exec_bind_ok.mp h₄
  obtain ⟨_, s₆, hwarn, h₆⟩ := exec_bind_ok.mp h₅
  obtain ⟨-, rfl⟩ := Prod.mk.inj h₆
  obtain ⟨hfound, hdb₁, -⟩ := requirePlan_ok hplan
  obtain ⟨fresh, new, hrows, hfresh, hnew, hsource, hknown⟩ := writeFeatures_ok hfeatures
  -- the features touch no plan and no run, and the rest of the work no request
  have hview₂ : unfeatured s₂ = unfeatured s₁ :=
    (frame_writeFeatures unfeatured_unfeatured).of_exec hfeatures
  have hplans₂ : s₂.db.planning.implementationPlans = s₁.db.planning.implementationPlans :=
    congrArg (fun view => view.1.planning.implementationPlans) hview₂
  have hruns₂ : s₂.db.featureRuns = s₁.db.featureRuns :=
    congrArg (fun view => view.1.featureRuns) hview₂
  have hview₃ : (s₃.db.planning, s₃.db.featureRequests, s₃.db.featureDependencies,
      s₃.db.featureRuns) =
      (s₂.db.planning, s₂.db.featureRequests, s₂.db.featureDependencies, s₂.db.featureRuns) :=
    (frame_approve (π := fun s => (s.db.planning, s.db.featureRequests, s.db.featureDependencies,
      s.db.featureRuns)) (fun _ _ _ => rfl) fun _ _ => rfl).of_exec happrove
  obtain ⟨hplanning₃, hrequests₃, hdependencies₃, hruns₃⟩ : s₃.db.planning = s₂.db.planning ∧
      s₃.db.featureRequests = s₂.db.featureRequests ∧
      s₃.db.featureDependencies = s₂.db.featureDependencies ∧
      s₃.db.featureRuns = s₂.db.featureRuns := by
    simpa using hview₃
  obtain ⟨-, hput, -⟩ := updateWhere_ok hupdate
  have hrecorded := (untraced_recordMove hrecord).1
  have hwarned : s₆.db.untraced = s₅.db.untraced :=
    (frame_warn (π := fun s => s.db.untraced) (fun _ _ _ => rfl) (fun _ _ => rfl) _ _).of_exec hwarn
  have hlast : s₆.db.untraced = s₄.db.untraced := hwarned.trans hrecorded
  refine ⟨plan, fresh, new, hfound, hknown, hfresh, ?_, ?_, hsource, ?_, ?_⟩
  · have hrequests : s₆.db.untraced.featureRequests = s₄.db.untraced.featureRequests :=
      congrArg Db.featureRequests hlast
    change s₆.db.featureRequests = s₄.db.featureRequests at hrequests
    rw [hrequests, hput, ← hdb₁, ← hrows, ← hrequests₃]
    rfl
  · have hdependencies : s₆.db.untraced.featureDependencies = s₄.db.untraced.featureDependencies :=
      congrArg Db.featureDependencies hlast
    change s₆.db.featureDependencies = s₄.db.featureDependencies at hdependencies
    rw [hdependencies, hput, ← hdb₁, ← hnew, ← hdependencies₃]
    rfl
  · have hplans : s₆.db.untraced.planning = s₄.db.untraced.planning := congrArg Db.planning hlast
    change s₆.db.planning = s₄.db.planning at hplans
    rw [hplans, hput, ← hdb₁, ← hplans₂, ← hplanning₃]
    rfl
  · have hruns : s₆.db.untraced.featureRuns = s₄.db.untraced.featureRuns :=
      congrArg Db.featureRuns hlast
    change s₆.db.featureRuns = s₄.db.featureRuns at hruns
    rw [hruns, hput, ← hdb₁, ← hruns₂, ← hruns₃]
    rfl

end BacklogWrite

/-- A dependency on a feature that the payload does not have. -/
def unknownDependency (title correlationId : String) (feature : FeatureInput) (dep : String) :
    Failure :=
  .command {
    type := "unknown-dependency"
    title
    status := 400
    detail := s!"Feature {feature.frId} depends on unknown fr_id \"{dep}\""
    instance? := some correlationId }

structure GenerateFeatureBacklogPayload where
  projectId : String
  planId : String
  features : List FeatureInput

/-- The generation of a backlog. -/
def generationWrite (envelope : CommandEnvelope GenerateFeatureBacklogPayload) : BacklogWrite where
  planId := envelope.payload.planId
  projectId := envelope.payload.projectId
  features := envelope.payload.features
  unknown := unknownDependency "Unknown feature dependency" envelope.correlationId
  eventType := "backlog.generated"
  toState := "generated"
  warning := some "backlog.generated_with_unresolved_blocking_gaps"

/-- `GenerateFeatureBacklogHandler`. -/
def generateFeatureBacklogHandler : CommandHandler GenerateFeatureBacklogPayload where
  commandName := "GenerateFeatureBacklogCommand"
  requiredRole := .admin
  requiredActorKind := some .system
  idempotencyScope := "generate-feature-backlog"
  Evidence := Unit
  evidence _ := pure ()
  body envelope _ := (generationWrite envelope).run envelope
  evidence_keys := evidence_keys_pure
  body_keys _ _ := BacklogWrite.keys_run

/-! ### Import -/

/-- `IDEMPOTENCY_TTL_MS` of the import and of the validation: one day. -/
def backlogTtlMs : ℤ := 24 * 60 * 60 * 1000

/-- `ImportedFeatureSchema`. -/
structure ImportedFeature where
  frId : String
  title : String
  description : String
  kind : FeatureKind := .feature
  priority : ℤ := 0
  dependsOnFrIds : List String := []

/-- An import writes no criteria and no expectations. -/
def ImportedFeature.input (feature : ImportedFeature) : FeatureInput where
  frId := feature.frId
  title := feature.title
  description := feature.description
  kind := feature.kind
  priority := feature.priority
  dependsOnFrIds := feature.dependsOnFrIds

/-- The payload of an import; whether it is a `dryRun` decides between `importBacklogHandler` and
`previewBacklog`. -/
structure ImportBacklogPayload where
  projectId : String
  planId : String
  features : List ImportedFeature

/-- `duplicateFrIds`: the ids that stand earlier in the list, too. -/
def duplicateFrIds (frIds : List String) : List String :=
  (frIds.zipIdx.filter fun entry => frIds.idxOf entry.1 != entry.2).map Prod.fst

/-- What an import checks before its transaction, and all that a dry run does. -/
def checkImport (envelope : CommandEnvelope ImportBacklogPayload) : Sql Unit := do
  let features := envelope.payload.features
  let frIds := features.map ImportedFeature.frId
  let duplicates := duplicateFrIds frIds
  orThrow (if duplicates = [] then .ok () else .error (.command {
    type := "duplicate-fr-id"
    title := "Duplicate feature id in import payload"
    status := 400
    detail := "Duplicate fr_id(s) in import payload: " ++ ", ".intercalate duplicates.eraseDups
    instance? := some envelope.correlationId }))
  orThrow (match features.findSome? fun feature =>
      (feature.dependsOnFrIds.find? fun dep => !frIds.contains dep).map fun dep =>
        (feature.input, dep) with
    | none => .ok ()
    | some (feature, dep) => .error (unknownDependency "Unknown feature dependency in import payload"
        envelope.correlationId feature dep))
  let _ ← requirePlan "Implementation plan not found" envelope.payload.planId
    envelope.payload.projectId envelope.correlationId
  pure ()

/-- The import of a backlog; `checkImport` has seen to it that every dependency is known, and the
database takes no `NULL` in its place. -/
def importWrite (envelope : CommandEnvelope ImportBacklogPayload) : BacklogWrite where
  planId := envelope.payload.planId
  projectId := envelope.payload.projectId
  features := envelope.payload.features.map ImportedFeature.input
  unknown _ _ := .database
  approval := some {
    projectId := envelope.payload.projectId
    contextType := "backlog_import"
    contextId := some envelope.payload.planId
    decision := .approved
    actor := envelope.actor.id
    actorRole := envelope.actor.role }
  eventType := "backlog.imported"
  toState := "imported"

theorem frame_checkImport {τ : Type} {π : Session → τ} (hπ : SeesData π)
    (envelope : CommandEnvelope ImportBacklogPayload) : Frame π (checkImport envelope) :=
  frame_bind (frame_orThrow _) fun _ => frame_bind (frame_orThrow _) fun _ =>
    frame_bind (frame_require hπ _) fun _ => frame_pure _

/-- `ImportBacklogHandler`, when it is no dry run. -/
def importBacklogHandler : CommandHandler ImportBacklogPayload where
  commandName := "ImportBacklogCommand"
  requiredRole := .approver
  requiredActorKind := some .human
  idempotencyScope := "import-backlog"
  ttlMs := backlogTtlMs
  Evidence := Unit
  evidence := checkImport
  body envelope _ := (importWrite envelope).run envelope
  evidence_keys envelope := frame_checkImport (fun _ _ _ => rfl) envelope
  body_keys _ _ := BacklogWrite.keys_run

/-- `ImportBacklogCommand` with `dryRun`: it answers before the transaction. -/
def previewBacklog (envelope : CommandEnvelope ImportBacklogPayload) : Sql CommandResult := do
  let cached ← precheck importBacklogHandler envelope
  match cached with
  | some result => pure result
  | none => do
    checkImport envelope
    pure {
      commandId := envelope.commandId
      accepted := true
      resultingState := "previewed"
      emittedEventIds := [] }

theorem frame_previewBacklog {τ : Type} {π : Session → τ} (hπ : SeesData π)
    (envelope : CommandEnvelope ImportBacklogPayload) : Frame π (previewBacklog envelope) := by
  refine frame_bind (frame_precheck hπ) fun cached => ?_
  cases cached with
  | some result => exact frame_pure _
  | none => exact frame_bind (frame_checkImport hπ envelope) fun _ => frame_pure _

/-! ### Validation -/

/-- The targets of a source, in the order of the rows. -/
def adjacency (deps : List FeatureDependency) (id : String) : List String :=
  (deps.filter fun dep => dep.sourceFrId == id).map FeatureDependency.targetFrId

/-- `hasCycle`. -/
def hasCycle (features : List FeatureRequest) (deps : List FeatureDependency) : Bool :=
  match Dfs.search (adjacency deps) (features.length + deps.length)
    (features.map FeatureRequest.id) with
  | .finished _ => false
  | .cycle => true
  | .outOfFuel => true

theorem mem_adjacency {deps : List FeatureDependency} {id target : String} :
    target ∈ adjacency deps id ↔ ∃ dep ∈ deps, dep.sourceFrId = id ∧ dep.targetFrId = target := by
  simp [adjacency, and_assoc]

/-- The search of `hasCycle` ends by itself. -/
theorem search_features_ne_outOfFuel {features : List FeatureRequest} {deps : List FeatureDependency}
    {fuel : ℕ} (h : features.length + deps.length ≤ fuel) :
    Dfs.search (adjacency deps) fuel (features.map FeatureRequest.id) ≠ .outOfFuel := by
  refine Dfs.search_ne_outOfFuel (U := (features.map FeatureRequest.id ++
    deps.map FeatureDependency.targetFrId).toFinset) ?_ ?_ ?_
  · intro id hid
    rw [List.mem_toFinset]
    exact List.mem_append_left _ hid
  · intro id _ target htarget
    obtain ⟨dep, hdep, -, rfl⟩ := mem_adjacency.mp htarget
    rw [List.mem_toFinset]
    exact List.mem_append_right _ (List.mem_map_of_mem hdep)
  · have hcard := List.toFinset_card_le (features.map FeatureRequest.id ++
      deps.map FeatureDependency.targetFrId)
    rw [List.length_append, List.length_map, List.length_map] at hcard
    exact hcard.trans h

theorem hasCycle_iff {features : List FeatureRequest} {deps : List FeatureDependency} :
    hasCycle features deps = true ↔
      Dfs.search (adjacency deps) (features.length + deps.length)
        (features.map FeatureRequest.id) = .cycle := by
  have hfuel : Dfs.search (adjacency deps) (features.length + deps.length)
      (features.map FeatureRequest.id) ≠ .outOfFuel := search_features_ne_outOfFuel le_rfl
  unfold hasCycle
  rcases hsearch : Dfs.search (adjacency deps) (features.length + deps.length)
    (features.map FeatureRequest.id) with _ | _ | colour
  · exact absurd hsearch hfuel
  · simp
  · simp

/-- **A backlog without a cycle**: among the features of any class one depends on no other of them. -/
theorem hasCycle_false {features : List FeatureRequest} {deps : List FeatureDependency}
    (h : hasCycle features deps = false) {p : String → Prop} (hp : ∃ feature ∈ features, p feature.id) :
    ∃ id, p id ∧ ∀ dep ∈ deps, dep.sourceFrId = id → ¬ p dep.targetFrId := by
  unfold hasCycle at h
  rcases hsearch : Dfs.search (adjacency deps) (features.length + deps.length)
    (features.map FeatureRequest.id) with _ | _ | colour
  · rw [hsearch] at h
    cases h
  · rw [hsearch] at h
    cases h
  · obtain ⟨order, hordered, hnodes⟩ := Dfs.search_finished hsearch
    obtain ⟨feature, hfeature, hpf⟩ := hp
    obtain ⟨id, hpid, hfirst⟩ := hordered.exists_first
      ⟨feature.id, hnodes feature.id (List.mem_map_of_mem hfeature), hpf⟩
    exact ⟨id, hpid, fun dep hdep hsource =>
      hfirst dep.targetFrId (mem_adjacency.mpr ⟨dep, hdep, hsource, rfl⟩)⟩

/-- The problems of a backlog, given the features with a criterion and those with an expectation. -/
def backlogProblems (features : List FeatureRequest) (deps : List FeatureDependency)
    (withAc withTe : List String) : List String :=
  (if hasCycle features deps then ["feature_dependencies contains a cycle"] else []) ++
    features.flatMap fun feature =>
      if feature.kind = .feature then
        (if feature.id ∈ withAc then [] else [s!"{feature.frId} has no acceptance criteria"]) ++
          (if feature.id ∈ withTe then [] else [s!"{feature.frId} has no test expectations"])
      else []

namespace Db

/-- `SELECT id, fr_id, kind FROM feature_requests WHERE plan_id = ? AND project_id = ?`. -/
def backlogFeatures (db : Db) (planId projectId : String) : List FeatureRequest :=
  db.featureRequests.select fun fr => fr.planId == planId && fr.projectId == projectId

/-- The dependencies of the features of a plan. -/
def backlogDependencies (db : Db) (planId : String) : List FeatureDependency :=
  db.featureDependencies.select fun fd => (db.featureRequests.find? fun fr =>
    fd.sourceFrId == fr.id && fr.planId == planId).isSome

/-- `SELECT DISTINCT feature_request_id FROM acceptance_criteria WHERE feature_request_id IN …`. -/
def withCriteria (db : Db) (ids : List String) : List String :=
  (db.planning.acceptanceCriteria.select fun criterion =>
    ids.contains criterion.featureRequestId).map AcceptanceCriterion.featureRequestId

/-- `SELECT DISTINCT feature_request_id FROM test_expectations WHERE feature_request_id IN …`. -/
def withExpectations (db : Db) (ids : List String) : List String :=
  (db.planning.testExpectations.select fun expectation =>
    ids.contains expectation.featureRequestId).map TestExpectation.featureRequestId

/-- What a validation of a plan's backlog finds. -/
def problemsOf (db : Db) (planId projectId : String) : List String :=
  let features := db.backlogFeatures planId projectId
  let executableIds := (features.filter fun f => f.kind == .feature).map FeatureRequest.id
  backlogProblems features (db.backlogDependencies planId) (db.withCriteria executableIds)
    (db.withExpectations executableIds)

end Db

structure ValidateBacklogPayload where
  projectId : String
  planId : String

/-- The features with a criterion and those with an expectation; the code asks for them when there
is an executable feature. -/
def queryCovered (executableIds : List String) : Sql (List String × List String) :=
  if executableIds = [] then pure ([], [])
  else do
    let withAc ← query fun db => db.withCriteria executableIds
    let withTe ← query fun db => db.withExpectations executableIds
    pure (withAc, withTe)

/-- `SET backlog_validated_at = ?, …, backlog_validated_version = backlog_version`. -/
def ImplementationPlan.validated (state : BacklogState) (now : ℤ) (plan : ImplementationPlan) :
    ImplementationPlan :=
  { plan with
    backlogValidatedAt := some now
    backlogValidatedState := some state
    backlogValidatedVersion := some plan.backlogVersion }

theorem ImplementationPlan.validated_keys (state : BacklogState) (now : ℤ) :
    KeyFree (ImplementationPlan.validated state now) := fun _ _ => rfl

/-- The verdict on a backlog. -/
def BacklogState.ofProblems (problems : List String) : BacklogState :=
  if problems = [] then .valid else .invalid

/-- The work of a validation under its claim; returns the problems beside the result. -/
def validateBacklogWork (envelope : CommandEnvelope ValidateBacklogPayload) :
    Sql (CommandResult × List String) := do
  let planId := envelope.payload.planId
  let projectId := envelope.payload.projectId
  let features ← require fun db =>
    let features := db.backlogFeatures planId projectId
    if features = [] then .error (.command {
      type := "empty-backlog"
      title := "Backlog is empty"
      status := 409
      detail := s!"Plan {planId} has no feature requests to validate"
      instance? := some envelope.correlationId })
    else .ok features
  let deps ← query fun db => db.backlogDependencies planId
  let covered ← queryCovered ((features.filter fun f => f.kind == .feature).map FeatureRequest.id)
  let problems := backlogProblems features deps covered.1 covered.2
  let resultingState := BacklogState.ofProblems problems
  let now ← isoNow
  let _ ← updateWhere implementationPlanTable (fun plan => plan.id == planId)
    (ImplementationPlan.validated resultingState now) (ImplementationPlan.validated_keys _ _)
  let eventIds ← recordMove
    [{ projectId := some projectId
       eventType := "backlog.validated"
       fromState := "generated"
       toState := resultingState.literal
       actorId := envelope.actor.id }]
    [("backlog.validated", [
      ("projectId", .str projectId),
      ("planId", .str planId),
      ("resultingState", .str resultingState.literal),
      ("problems", .strs problems)])]
  pure ({
    commandId := envelope.commandId
    accepted := resultingState == .valid
    resultingState := resultingState.literal
    emittedEventIds := eventIds }, problems)

theorem frame_validateBacklogWork {τ : Type} {π : Session → τ} (hπ : Unplanned π)
    (envelope : CommandEnvelope ValidateBacklogPayload) : Frame π (validateBacklogWork envelope) :=
  frame_bind (frame_require hπ.sees _) fun _ => frame_bind (frame_query hπ.sees _) fun _ =>
    frame_bind (frame_ite (frame_pure _) (frame_bind (frame_query hπ.sees _) fun _ =>
      frame_bind (frame_query hπ.sees _) fun _ => frame_pure _)) fun _ =>
    frame_bind frame_isoNow fun _ => frame_bind (frame_updateWhere hπ.sees hπ.plan _) fun _ =>
    frame_bind (frame_recordMove hπ.sees hπ.events hπ.outbox _ _) fun _ => frame_pure _

/-- `ValidateBacklogHandler`, less the error that it throws after its commit. -/
def validateBacklogHandler : CommandHandler ValidateBacklogPayload where
  commandName := "ValidateBacklogCommand"
  requiredRole := .admin
  requiredActorKind := some .system
  idempotencyScope := "validate-backlog"
  ttlMs := backlogTtlMs
  Evidence := Unit
  evidence _ := pure ()
  body envelope _ := do
    let noted ← validateBacklogWork envelope
    pure noted.1
  evidence_keys := evidence_keys_pure
  body_keys envelope _ :=
    frame_bind (frame_validateBacklogWork ⟨⟨fun _ _ _ => rfl, fun _ _ => rfl, fun _ _ => rfl,
      fun _ _ => rfl, fun _ _ => rfl⟩, fun _ _ => rfl, fun _ _ => rfl, fun _ _ => rfl,
      fun _ _ => rfl⟩ envelope) fun _ => frame_pure _

/-- The transaction of a validation: a replay names no problems. -/
def validateBacklogTransaction (envelope : CommandEnvelope ValidateBacklogPayload) :
    Sql (CommandResult × List String) :=
  transaction do
    let claim ← claimIdempotencyKey envelope.idempotencyKey validateBacklogHandler.idempotencyScope
      validateBacklogHandler.ttlMs
    match claim with
    | .replay result => pure (result, [])
    | .owned claimId => do
      let noted ← validateBacklogWork envelope
      fulfillIdempotencyKey claimId noted.1
      pure noted

/-- `ValidateBacklogCommand`: an invalid outcome is committed first, and then thrown. -/
def validateBacklog (envelope : CommandEnvelope ValidateBacklogPayload) : Sql CommandResult := do
  let cached ← precheck validateBacklogHandler envelope
  match cached with
  | some result => pure result
  | none => do
    let noted ← validateBacklogTransaction envelope
    if noted.1.resultingState = BacklogState.invalid.literal then
      throw (.command {
        type := "backlog-invalid"
        title := "Backlog failed quality validation"
        status := 422
        detail := "; ".intercalate noted.2
        instance? := some envelope.correlationId })
    else pure noted.1

section Validation

variable {envelope : CommandEnvelope ValidateBacklogPayload} {s s' : Session}

theorem queryCovered_ok {executableIds : List String} {covered : List String × List String}
    (h : exec (queryCovered executableIds) s = (.ok covered, s')) :
    covered = (s.db.withCriteria executableIds, s.db.withExpectations executableIds) ∧
      s'.db = s.db ∧ s'.runtime = s.runtime := by
  unfold queryCovered at h
  by_cases hids : executableIds = []
  · rw [if_pos hids] at h
    obtain ⟨hr, rfl⟩ := Prod.mk.inj h
    obtain rfl := Except.ok.inj hr
    refine ⟨?_, rfl, rfl⟩
    simp [hids, Db.withCriteria, Db.withExpectations, Table.select]
  · rw [if_neg hids] at h
    obtain ⟨withAc, s₁, hac, h₁⟩ := exec_bind_ok.mp h
    obtain ⟨rfl, hdb₁, hrt₁⟩ := query_ok hac
    obtain ⟨withTe, s₂, hte, h₂⟩ := exec_bind_ok.mp h₁
    obtain ⟨rfl, hdb₂, hrt₂⟩ := query_ok hte
    obtain ⟨hr, rfl⟩ := Prod.mk.inj h₂
    obtain rfl := Except.ok.inj hr
    refine ⟨?_, hdb₂.trans hdb₁, hrt₂.trans hrt₁⟩
    rw [hdb₁]

/-- **What a validation that did its work found and wrote**: a backlog with features, and its
problems; the verdict and the version it was read at, on the row of the plan. -/
theorem validateBacklogWork_ok {noted : CommandResult × List String}
    (h : exec (validateBacklogWork envelope) s = (.ok noted, s')) :
    s.db.backlogFeatures envelope.payload.planId envelope.payload.projectId ≠ [] ∧
      noted.2 = s.db.problemsOf envelope.payload.planId envelope.payload.projectId ∧
      noted.1.resultingState = (BacklogState.ofProblems noted.2).literal ∧
      s'.db.untraced = (implementationPlanTable.put s.db
        (s.db.planning.implementationPlans.update (fun plan => plan.id == envelope.payload.planId)
          (ImplementationPlan.validated (.ofProblems noted.2) s.runtime.now)
          (ImplementationPlan.validated_keys _ _))).untraced := by
  obtain ⟨features, s₁, hfeatures, h₁⟩ := exec_bind_ok.mp h
  obtain ⟨hcheck, hdb₁, hrt₁⟩ := require_ok hfeatures
  obtain ⟨deps, s₂, hdeps, h₂⟩ := exec_bind_ok.mp h₁
  obtain ⟨rfl, hdb₂, hrt₂⟩ := query_ok hdeps
  obtain ⟨covered, s₃, hcovered, h₃⟩ := exec_bind_ok.mp h₂
  obtain ⟨rfl, hdb₃, hrt₃⟩ := queryCovered_ok hcovered
  obtain ⟨now, s₄, hnow, h₄⟩ := exec_bind_ok.mp h₃
  simp only [exec_isoNow, Prod.mk.injEq, Except.ok.injEq] at hnow
  obtain ⟨rfl, rfl⟩ := hnow
  obtain ⟨n, s₅, hupdate, h₅⟩ := exec_bind_ok.mp h₄
  obtain ⟨-, hput, -⟩ := updateWhere_ok hupdate
  obtain ⟨ids, s₆, hrecord, h₆⟩ := exec_bind_ok.mp h₅
  obtain ⟨hr, rfl⟩ := Prod.mk.inj h₆
  obtain rfl := Except.ok.inj hr
  -- the reads of the validation all see the tables of its start
  have hdb : s₃.db = s.db := hdb₃.trans (hdb₂.trans hdb₁)
  have hrt : s₃.runtime = s.runtime := hrt₃.trans (hrt₂.trans hrt₁)
  obtain ⟨hsome, rfl⟩ : s.db.backlogFeatures envelope.payload.planId envelope.payload.projectId ≠ [] ∧
      s.db.backlogFeatures envelope.payload.planId envelope.payload.projectId = features := by
    by_cases hnone : s.db.backlogFeatures envelope.payload.planId envelope.payload.projectId = []
    · simp [hnone] at hcheck
    · simp only [hnone, if_false] at hcheck
      exact ⟨hnone, Except.ok.inj hcheck⟩
  have hproblems : backlogProblems
      (s.db.backlogFeatures envelope.payload.planId envelope.payload.projectId)
      (s₁.db.backlogDependencies envelope.payload.planId)
      (s₂.db.withCriteria (((s.db.backlogFeatures envelope.payload.planId
        envelope.payload.projectId).filter fun f => f.kind == .feature).map FeatureRequest.id))
      (s₂.db.withExpectations (((s.db.backlogFeatures envelope.payload.planId
        envelope.payload.projectId).filter fun f => f.kind == .feature).map FeatureRequest.id)) =
      s.db.problemsOf envelope.payload.planId envelope.payload.projectId := by
    rw [hdb₂, hdb₁]
    rfl
  refine ⟨hsome, hproblems, rfl, ?_⟩
  rw [(untraced_recordMove hrecord).1, hput, hdb, hrt]
  rfl

/-- A transaction whose body returns more does the same. -/
theorem exec_transaction_map {α β : Type} {f : α → β} {body : Sql α} {body' : Sql β}
    (h : ∀ s, exec body' s = ((exec body s).1.map f, (exec body s).2)) (s : Session) :
    exec (transaction body') s =
      ((exec (transaction body) s).1.map f, (exec (transaction body) s).2) := by
  rw [transaction, transaction, exec_atomically, exec_atomically, exec_bind, exec_bind, h]
  rcases exec body s with ⟨e | a, s₁⟩
  · rfl
  · simp only [Except.map, exec_bind]
    rcases exec (execute fun db => some ((), db)) s₁ with ⟨e | u, s₂⟩
    · rfl
    · rfl

theorem exec_validateBacklogTransaction :
    exec (validateBacklogHandler.transact envelope ()) s =
      ((exec (validateBacklogTransaction envelope) s).1.map Prod.fst,
        (exec (validateBacklogTransaction envelope) s).2) := by
  refine exec_transaction_map (fun s => ?_) s
  rw [withIdempotencyKey, exec_bind, exec_bind]
  rcases exec (claimIdempotencyKey _ _ _) s with ⟨e | claim, s₁⟩
  · rfl
  · cases claim with
    | replay result => rfl
    | owned claimId =>
      show exec (do
        let result ← (do
          let noted ← validateBacklogWork envelope
          pure noted.1)
        fulfillIdempotencyKey claimId result
        pure result) s₁ = ((exec (do
          let noted ← validateBacklogWork envelope
          fulfillIdempotencyKey claimId noted.1
          pure noted) s₁).1.map Prod.fst, (exec (do
          let noted ← validateBacklogWork envelope
          fulfillIdempotencyKey claimId noted.1
          pure noted) s₁).2)
      rw [exec_bind, exec_bind, exec_bind]
      rcases exec (validateBacklogWork envelope) s₁ with ⟨e | noted, s₂⟩
      · rfl
      · simp only [exec_pure, exec_bind]
        rcases exec (fulfillIdempotencyKey claimId noted.1) s₂ with ⟨e | u, s₃⟩
        · rfl
        · rfl

/-- **The error of a validation changes nothing**: what the command leaves is what its transaction
left. -/
theorem session_validateBacklog : (exec (validateBacklog envelope) s).2 =
    (exec (executeCommand validateBacklogHandler envelope) s).2 := by
  rw [validateBacklog, executeCommand, exec_bind, exec_bind]
  rcases exec (precheck validateBacklogHandler envelope) s with ⟨e | cached, s₁⟩
  · rfl
  · cases cached with
    | some result => rfl
    | none =>
      show (exec (do
        let noted ← validateBacklogTransaction envelope
        if noted.1.resultingState = BacklogState.invalid.literal then throw _ else pure noted.1)
          s₁).2 = (exec (do
        let result ← validateBacklogHandler.transact envelope ()
        orThrow (validateBacklogHandler.finish result)) s₁).2
      rw [exec_bind, exec_bind, exec_validateBacklogTransaction]
      rcases exec (validateBacklogTransaction envelope) s₁ with ⟨e | noted, s₂⟩
      · rfl
      · simp only [exec_ite]
        split
        · rfl
        · rfl

/-- **The reply to a validation under a free key** is the verdict on the backlog as it is. -/
theorem validateBacklog_ok {result : CommandResult}
    (hunkeyed : ∀ row ∈ s.db.idempotencyKeys.rows,
      Db.isKey envelope.idempotencyKey validateBacklogHandler.idempotencyScope row = true →
        row.expiresAt ≤ s.runtime.now)
    (h : exec (validateBacklog envelope) s = (.ok result, s')) :
    result.resultingState = (BacklogState.ofProblems
      (s.db.problemsOf envelope.payload.planId envelope.payload.projectId)).literal := by
  obtain ⟨cached, s₁, hpre, hrest⟩ := exec_bind_ok.mp h
  obtain ⟨hdb₁, hrt₁, hcached⟩ := precheck_ok hpre
  rcases cached with _ | cached
  · obtain ⟨noted, s₂, htransaction, h₂⟩ := exec_bind_ok.mp hrest
    obtain ⟨s₃, hbody, -⟩ := transaction_ok htransaction
    obtain ⟨claim, s₄, hclaim, h₄⟩ := exec_bind_ok.mp hbody
    rw [exec_ite] at h₂
    split at h₂
    · cases (Prod.mk.inj h₂).1
    obtain ⟨hr, rfl⟩ := Prod.mk.inj h₂
    obtain rfl := Except.ok.inj hr
    cases claim with
    | replay stored =>
      obtain ⟨-, row, hrow, hkey, hlive, -⟩ := claimIdempotencyKey_replay hclaim
      rw [hdb₁] at hrow
      rw [hrt₁] at hlive
      have hexpired := hunkeyed row hrow hkey
      omega
    | owned claimId =>
      obtain ⟨noted', s₅, hwork, h₅⟩ := exec_bind_ok.mp h₄
      obtain ⟨_, s₆, -, h₆⟩ := exec_bind_ok.mp h₅
      obtain ⟨hnoted, -⟩ := Prod.mk.inj h₆
      obtain rfl := Except.ok.inj hnoted
      obtain ⟨-, hproblems, hstate, -⟩ := validateBacklogWork_ok hwork
      have hkept : s₄.db.problemsOf envelope.payload.planId envelope.payload.projectId =
          s₁.db.problemsOf envelope.payload.planId envelope.payload.projectId :=
        (frame_claimIdempotencyKey (π := fun s : Session =>
          s.db.problemsOf envelope.payload.planId envelope.payload.projectId)
          (fun _ _ _ => rfl) (fun _ _ => rfl) _ _ _).of_exec hclaim
      rw [hstate, hproblems, hkept, hdb₁]
  · -- an answer from the cache would have had a live row
    obtain ⟨stored, hfind, -⟩ := Option.map_eq_some_iff.mp hcached.symm
    obtain ⟨row, hrow, hkey, hlive, -⟩ := Db.findCachedResult_iff.mp hfind
    have hexpired := hunkeyed row hrow hkey
    omega

end Validation

end MiniCoder
