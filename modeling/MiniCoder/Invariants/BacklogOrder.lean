import MiniCoder.Invariants.BacklogProgress

/-!
# The order of a valid backlog

`hasCycle` decides whether the dependencies lead from some feature to a cycle, whatever the ids are, and
a validation records a backlog as valid only when they do not.

* `hasCycle_iff_leadsToCycle`: the search against the relation of the dependencies.
* `exists_dependencyOrder`: features without a cycle can be arranged so that each comes after what it
  depends on.
* `workflowEvents_validateBacklog`: a call adds no event, or one with the verdict on the backlog.
* `hasCycle_correct`: **the search ends and is right, and a backlog that is recorded as valid has such an
  order**.
-/

open Storage Storage.Action Runs Relation

namespace MiniCoder

/-! ### The search -/

/-- An edge of the dependencies. -/
def DependsOn (deps : List FeatureDependency) (source target : String) : Prop :=
  ∃ dep ∈ deps, dep.sourceFrId = source ∧ dep.targetFrId = target

/-- The arrangement has each feature after the features that it depends on. -/
def InDependencyOrder (deps : List FeatureDependency) (order : List FeatureRequest) : Prop :=
  ∀ before feature after, order = before ++ feature :: after →
    ∀ target ∈ order, DependsOn deps feature.id target.id → target ∈ before

section Search

variable {features : List FeatureRequest} {deps : List FeatureDependency}

theorem mem_adjacency_iff_dependsOn :
    (fun source target => target ∈ adjacency deps source) = DependsOn deps := by
  ext source target
  exact mem_adjacency

/-- **A cycle is found exactly when some feature leads to one.** -/
theorem hasCycle_iff_leadsToCycle : hasCycle features deps = true ↔
    ∃ feature ∈ features, ∃ id, ReflTransGen (DependsOn deps) feature.id id ∧
      TransGen (DependsOn deps) id id := by
  have hleads : (∃ id ∈ features.map FeatureRequest.id, Dfs.LeadsToCycle (adjacency deps) id) ↔
      ∃ feature ∈ features, ∃ id, ReflTransGen (DependsOn deps) feature.id id ∧
        TransGen (DependsOn deps) id id := by
    unfold Dfs.LeadsToCycle
    rw [mem_adjacency_iff_dependsOn]
    simp
  rw [← hleads, hasCycle_iff]
  constructor
  · exact Dfs.search_cycle
  · rintro ⟨id, hid, hcycle⟩
    rcases hsearch : Dfs.search (adjacency deps) (features.length + deps.length)
      (features.map FeatureRequest.id) with _ | _ | colour
    · exact absurd hsearch (search_features_ne_outOfFuel le_rfl)
    · rfl
    · exact absurd hcycle (Dfs.search_finished_acyclic hsearch id hid)

/-- **Features without a cycle have a dependency order.** -/
theorem exists_dependencyOrder (h : hasCycle features deps = false) :
    ∃ order : List FeatureRequest, order.Perm features ∧ InDependencyOrder deps order := by
  rcases hsearch : Dfs.search (adjacency deps) (features.length + deps.length)
    (features.map FeatureRequest.id) with _ | _ | colour
  · exact absurd hsearch (search_features_ne_outOfFuel le_rfl)
  · rw [hasCycle_iff.mpr hsearch] at h
    cases h
  · obtain ⟨ids, hordered, hnodes⟩ := Dfs.search_finished hsearch
    obtain ⟨order, hperm, hbefore⟩ := hordered.exists_arrangement FeatureRequest.id features
      fun feature hfeature => hnodes _ (List.mem_map_of_mem hfeature)
    refine ⟨order, hperm, ?_⟩
    intro before feature after hsplit target htarget hdepends
    exact hbefore before feature after hsplit target (hperm.mem_iff.mp htarget)
      (mem_adjacency.mpr hdepends)

end Search

/-! ### The record of a verdict -/

/-- A call recorded a verdict: it added an event of the validation with it. -/
def Db.RecordsVerdict (db db' : Db) (state : BacklogState) : Prop :=
  ∃ event ∈ db'.workflowEvents.rows, event ∉ db.workflowEvents.rows ∧
    event.eventType = "backlog.validated" ∧ event.toState = state.literal

section Record

variable {envelope : CommandEnvelope ValidateBacklogPayload} {s s' : Session}

/-- A validation that did its work adds one event, with its verdict. -/
theorem workflowEvents_validateBacklogWork {noted : CommandResult × List String}
    (h : exec (validateBacklogWork envelope) s = (.ok noted, s')) :
    ∃ event : WorkflowEvent, event.toState = noted.1.resultingState ∧
      s'.db.workflowEvents.rows = s.db.workflowEvents.rows ++ [event] := by
  obtain ⟨features, s₁, hfeatures, h₁⟩ := exec_bind_ok.mp h
  obtain ⟨-, hdb₁, -⟩ := require_ok hfeatures
  obtain ⟨deps, s₂, hdeps, h₂⟩ := exec_bind_ok.mp h₁
  obtain ⟨-, hdb₂, -⟩ := query_ok hdeps
  obtain ⟨covered, s₃, hcovered, h₃⟩ := exec_bind_ok.mp h₂
  obtain ⟨-, hdb₃, -⟩ := queryCovered_ok hcovered
  obtain ⟨now, s₄, hnow, h₄⟩ := exec_bind_ok.mp h₃
  simp only [exec_isoNow, Prod.mk.injEq, Except.ok.injEq] at hnow
  obtain ⟨rfl, rfl⟩ := hnow
  obtain ⟨n, s₅, hupdate, h₅⟩ := exec_bind_ok.mp h₄
  obtain ⟨-, hput, -⟩ := updateWhere_ok hupdate
  obtain ⟨ids, s₆, hrecord, h₆⟩ := exec_bind_ok.mp h₅
  obtain ⟨hr, rfl⟩ := Prod.mk.inj h₆
  obtain rfl := Except.ok.inj hr
  have hevents : s₅.db.workflowEvents = s.db.workflowEvents := by
    rw [hput, ← hdb₁, ← hdb₂, ← hdb₃]
    rfl
  -- one event, and then the outbox row
  obtain ⟨_, s₇, hwrite, h₇⟩ := exec_bind_ok.mp hrecord
  obtain ⟨_, s₈, hone, h₈⟩ := exec_bind_ok.mp hwrite
  obtain ⟨_, s₉, hnone, h₉⟩ := exec_bind_ok.mp h₈
  obtain ⟨-, rfl⟩ := Prod.mk.inj hnone
  obtain ⟨-, rfl⟩ := Prod.mk.inj h₉
  obtain ⟨_, s₁₀, houtbox, h₁₀⟩ := exec_bind_ok.mp h₇
  obtain ⟨-, rfl⟩ := Prod.mk.inj h₁₀
  obtain ⟨-, event, -, -, -, hto, hrows⟩ := writeWorkflowEvent_ok hone
  have hkept := (frame_bind (frame_writeOutboxEvent (fun _ _ _ => rfl) (fun _ _ => rfl) _ _) fun _ =>
    frame_pure _ : Frame (fun s : Session => s.db.workflowEvents) _).of_exec houtbox
  exact ⟨event, hto, by rw [hkept, hrows, hevents]⟩

/-- **A call adds no event, or one with the verdict on the backlog.** -/
theorem workflowEvents_validateBacklog :
    (exec (validateBacklog envelope) s).2.db.workflowEvents = s.db.workflowEvents ∨
      ∃ event : WorkflowEvent, event.toState = (BacklogState.ofProblems
          (s.db.problemsOf envelope.payload.planId envelope.payload.projectId)).literal ∧
        (exec (validateBacklog envelope) s).2.db.workflowEvents.rows =
          s.db.workflowEvents.rows ++ [event] := by
  rw [session_validateBacklog]
  rcases hexec : exec (executeCommand validateBacklogHandler envelope) s with ⟨e | result, s'⟩
  · left
    exact executeCommand_error (g := fun db => db.workflowEvents) (fun _ => rfl) (frame_pure _) hexec
  · rcases executeCommand_ok hexec with ⟨hsame, -⟩ | ⟨ev, s₁, s₂, hdb₁, hrt₁, hevidence, htransact⟩
    · left
      exact congrArg Db.workflowEvents hsame
    · obtain ⟨-, rfl⟩ := Prod.mk.inj hevidence
      obtain ⟨s₃, hbody, hdb, -⟩ := transaction_ok htransact
      rcases withIdempotencyKey_ok hbody with ⟨hsame, -⟩ | ⟨claimId, s₄, s₅, hclaim, hwork, hfulfil⟩
      · left
        rw [hdb, hsame, hdb₁]
      · right
        obtain ⟨noted, s₆, hnoted, hpure⟩ := exec_bind_ok.mp hwork
        obtain ⟨-, rfl⟩ := Prod.mk.inj hpure
        obtain ⟨event, hto, hrows⟩ := workflowEvents_validateBacklogWork hnoted
        obtain ⟨-, hproblems, hstate, -⟩ := validateBacklogWork_ok hnoted
        -- the claim writes the row of its key only
        have hevents : s₄.db.workflowEvents = s₁.db.workflowEvents :=
          (frame_claimIdempotencyKey (fun _ _ _ => rfl) (fun _ _ => rfl) _ _ _ :
            Frame (fun s : Session => s.db.workflowEvents) _).of_exec hclaim
        have hsees : s₄.db.problemsOf envelope.payload.planId envelope.payload.projectId =
            s₁.db.problemsOf envelope.payload.planId envelope.payload.projectId :=
          (frame_claimIdempotencyKey (fun _ _ _ => rfl) (fun _ _ => rfl) _ _ _ : Frame
            (fun s : Session => s.db.problemsOf envelope.payload.planId envelope.payload.projectId)
              _).of_exec hclaim
        rw [hproblems, hsees, hdb₁] at hstate
        refine ⟨event, hto.trans hstate, ?_⟩
        rw [hdb, hfulfil]
        rw [hevents, hdb₁] at hrows
        exact hrows

end Record

/-- **A backlog that is recorded as valid has no cycle.** -/
theorem Db.RecordsVerdict.acyclic {envelope : CommandEnvelope ValidateBacklogPayload} {s : Session}
    (h : s.db.RecordsVerdict (exec (validateBacklog envelope) s).2.db .valid) :
    hasCycle (s.db.backlogFeatures envelope.payload.planId envelope.payload.projectId)
      (s.db.backlogDependencies envelope.payload.planId) = false := by
  obtain ⟨event, hmem, hnew, -, hvalid⟩ := h
  rcases @workflowEvents_validateBacklog envelope s with hsame | ⟨added, hto, hrows⟩
  · rw [hsame] at hmem
    exact absurd hmem hnew
  · rw [hrows, List.mem_append, List.mem_singleton] at hmem
    obtain rfl := hmem.resolve_left hnew
    have hproblems : s.db.problemsOf envelope.payload.planId envelope.payload.projectId = [] := by
      by_contra hsome
      rw [hvalid, BacklogState.ofProblems, if_neg hsome] at hto
      exact absurd hto (by decide)
    exact acyclic_of_problemsOf hproblems

/-- **The search for a cycle**: it ends, with as much fuel as there are features and dependencies; it
finds a cycle exactly when some feature leads to one; and when a validation records a backlog as valid,
its features can be arranged so that each comes after all of them that it depends on. -/
theorem hasCycle_correct :
    (∀ (features : List FeatureRequest) (deps : List FeatureDependency),
      (∀ fuel, features.length + deps.length ≤ fuel →
        Dfs.search (adjacency deps) fuel (features.map FeatureRequest.id) ≠ .outOfFuel) ∧
      (hasCycle features deps = true ↔ ∃ feature ∈ features, ∃ id,
        ReflTransGen (DependsOn deps) feature.id id ∧ TransGen (DependsOn deps) id id)) ∧
    ∀ (envelope : CommandEnvelope ValidateBacklogPayload) (s : Session),
      s.db.RecordsVerdict (exec (validateBacklog envelope) s).2.db .valid →
        ∃ order : List FeatureRequest,
          order.Perm (s.db.backlogFeatures envelope.payload.planId envelope.payload.projectId) ∧
          InDependencyOrder s.db.featureDependencies.rows order := by
  refine ⟨fun features deps => ⟨fun fuel => search_features_ne_outOfFuel, hasCycle_iff_leadsToCycle⟩, ?_⟩
  intro envelope s hrecords
  obtain ⟨order, hperm, hordered⟩ := exists_dependencyOrder hrecords.acyclic
  refine ⟨order, hperm, ?_⟩
  intro before feature after hsplit target htarget hdepends
  obtain ⟨dep, hdep, hsource, hto⟩ := hdepends
  -- a dependency of a feature of the plan is one that the validation reads
  have hfeature : feature ∈ order := by
    rw [hsplit]
    simp
  obtain ⟨hrow, hof⟩ := List.mem_filter.mp (hperm.mem_iff.mp hfeature)
  have hplan : feature.planId = envelope.payload.planId := by
    rw [Bool.and_eq_true, beq_iff_eq] at hof
    exact hof.1
  have hread : dep ∈ s.db.backlogDependencies envelope.payload.planId := by
    refine List.mem_filter.mpr ⟨hdep, List.find?_isSome.mpr ⟨feature, hrow, ?_⟩⟩
    rw [hsource, hplan]
    simp
  exact hordered before feature after hsplit target htarget ⟨dep, hread, hsource, hto⟩

/-- The sample backlog is recorded as valid: the feature comes after what it depends on. -/
theorem hasCycle_correct_sample : ∃ order : List FeatureRequest,
    order.Perm ((Session.start (sampleBacklogDb .feature) (sampleRuntime 2)).db.backlogFeatures
      sampleValidation.payload.planId sampleValidation.payload.projectId) ∧
    InDependencyOrder (Session.start (sampleBacklogDb .feature)
      (sampleRuntime 2)).db.featureDependencies.rows order := by
  have hrecords : (Session.start (sampleBacklogDb .feature) (sampleRuntime 2)).db.RecordsVerdict
      (exec (validateBacklog sampleValidation)
        (.start (sampleBacklogDb .feature) (sampleRuntime 2))).2.db .valid := by
    unfold Db.RecordsVerdict
    decide +kernel
  exact hasCycle_correct.2 sampleValidation _ hrecords

end MiniCoder
