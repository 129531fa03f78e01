import MiniCoder.Invariants.Dependencies

/-!
# A skip strands no dependent run

A run that waits for a skipped feature would wait for ever.  A skip blocks the pending runs of the
features that depend on the skipped one, and the only way back to `approved_pending_execution` asks
that every dependency is merged.

* `cascadeSkip_blocks`: no pending run depends on the skipped feature when the cascade has returned.
* `Unstranded.activate`: the activation of a plan strands no run.
* `skip_strands_none`: **no pending run depends on a skipped feature**, in every state that the
  feature-execution commands reach.
-/

open Storage Storage.Action Runs

namespace MiniCoder

/-! ### The cascade leaves no pending dependent -/

section Cascade

variable {ref : FeatureRunRef} {actorId : String} {s s' : Session}

/-- A cascade brings no run back to `approved_pending_execution`. -/
theorem not_pending_of_cascaded {t t' : Table FeatureRun} {featureRunId : String}
    (hcascaded : t.Rewritten (Cascaded .skipped) t')
    (h : ∀ r ∈ t.rows, r.id = featureRunId →
      r.currentExecutionState ≠ .approvedPendingExecution) :
    ∀ r ∈ t'.rows, r.id = featureRunId →
      r.currentExecutionState ≠ .approvedPendingExecution := by
  intro r hr hid
  obtain ⟨r₀, hr₀, hchange⟩ := hcascaded.exists_mem_of hr
  rcases hchange with rfl | ⟨-, -, rfl⟩
  · exact h r hr₀ hid
  · intro hblocked
    cases hblocked

/-- The first attempt on a run that was pending when the cascade started leaves it blocked, or an
earlier turn of the loop has blocked it. -/
theorem blockDependent_blocks {t : Table FeatureRun} {dependent : FeatureRun} {attempts : ℕ}
    {blocked : Bool} (hmem : dependent ∈ t.rows)
    (hpending : dependent.currentExecutionState = .approvedPendingExecution)
    (hsofar : t.Rewritten (Cascaded .skipped) s.db.featureRuns)
    (h : exec (blockDependent dependent.id (attempts + 1) dependent.version) s =
      (.ok blocked, s')) :
    ∀ r ∈ s'.db.featureRuns.rows, r.id = dependent.id →
      r.currentExecutionState ≠ .approvedPendingExecution := by
  -- where the row stands when the turn starts
  have hrow : ∀ r ∈ s.db.featureRuns.rows, r.id = dependent.id →
      r = dependent ∨ r = dependent.cascaded := by
    intro r hr hid
    obtain ⟨r₀, hr₀, hchange⟩ := hsofar.exists_mem_of hr
    have hid₀ : r₀.id = dependent.id := by
      rcases hchange with rfl | ⟨-, -, rfl⟩
      · exact hid
      · exact hid
    obtain rfl := t.eq_of_clash hr₀ hmem (decide_eq_true hid₀)
    rcases hchange with rfl | ⟨-, -, rfl⟩
    · exact Or.inl rfl
    · exact Or.inr rfl
  have hcascade := blockDependent_runs (pending_of_cascaded hmem hpending hsofar) h
  by_cases hcount : s.db.featureRuns.count (Db.isVersion dependent.id dependent.version) = 0
  · -- no row has the id and the version: the run has been blocked before
    refine not_pending_of_cascaded hcascade fun r hr hid => ?_
    rcases hrow r hr hid with rfl | rfl
    · have hmiss := Table.count_eq_zero.mp hcount r hr
      simp [Db.isVersion] at hmiss
    · intro hblocked
      cases hblocked
  · obtain ⟨affected, s₁, hupdate, h₁⟩ := exec_bind_ok.mp h
    obtain ⟨hdb, -⟩ := execute_ok hupdate
    obtain ⟨rfl, hdb'⟩ := Prod.mk.inj (Option.some.inj hdb)
    rw [if_pos (Nat.pos_of_ne_zero hcount)] at h₁
    obtain ⟨-, rfl⟩ := Prod.mk.inj h₁
    intro r hr hid
    have hupdated : r ∈ (s.db.featureRuns.update (Db.isVersion dependent.id dependent.version)
        (Db.blockedAt dependent.version) (Db.keyFree_blockedAt dependent.version)).rows := by
      rw [← hdb'] at hr
      exact hr
    obtain ⟨r₀, hr₀, rfl⟩ := Table.mem_update.mp hupdated
    by_cases hmatch : Db.isVersion dependent.id dependent.version r₀ = true
    · rw [Table.updateRow_of_pos hmatch]
      intro hblocked
      cases hblocked
    · rw [Table.updateRow_of_neg (by simpa using hmatch)] at hid ⊢
      rcases hrow r₀ hr₀ hid with rfl | rfl
      · simp [Db.isVersion] at hmatch
      · intro hblocked
        cases hblocked

/-- **The loop blocks every dependent**, and touches no run that is not pending. -/
theorem blockDependents_blocks {t : Table FeatureRun} {dependents : List FeatureRun}
    (hdeps : ∀ r ∈ dependents, r ∈ t.rows ∧ r.currentExecutionState = .approvedPendingExecution)
    (hsofar : t.Rewritten (Cascaded .skipped) s.db.featureRuns)
    (h : exec (blockDependents ref actorId dependents) s = (.ok (), s')) :
    s.db.featureRuns.Rewritten (Cascaded .skipped) s'.db.featureRuns ∧
      ∀ dependent ∈ dependents, ∀ r ∈ s'.db.featureRuns.rows, r.id = dependent.id →
        r.currentExecutionState ≠ .approvedPendingExecution := by
  induction dependents generalizing s with
  | nil =>
    obtain ⟨-, rfl⟩ := Prod.mk.inj h
    exact ⟨Cascaded.refl _ _, fun dependent hmem => absurd hmem List.not_mem_nil⟩
  | cons dependent dependents ih =>
    obtain ⟨hmem, hpending⟩ := hdeps dependent List.mem_cons_self
    obtain ⟨blocked, s₂, s₃, hblock, hkeep, hrest⟩ := blockDependents_cons h
    have hturn := blockDependent_runs (pending_of_cascaded hmem hpending hsofar) hblock
    have hhead := blockDependent_blocks hmem hpending hsofar hblock
    have hdeps' := fun r hr => hdeps r (List.mem_cons_of_mem dependent hr)
    have hsofar' : t.Rewritten (Cascaded .skipped) s₃.db.featureRuns := by
      rw [hkeep]
      exact hsofar.trans hturn fun _ _ _ => Cascaded.trans
    obtain ⟨hlater, htail⟩ := ih hdeps' hsofar' hrest
    rw [hkeep] at hlater
    refine ⟨hturn.trans hlater fun _ _ _ => Cascaded.trans, fun d hd => ?_⟩
    rcases List.mem_cons.mp hd with rfl | hd
    · exact not_pending_of_cascaded hlater hhead
    · exact htail d hd

/-- **No pending run depends on the skipped feature** when the cascade has returned. -/
theorem cascadeSkip_blocks {run : FeatureRun}
    (h : exec (cascadeSkip ref actorId run) s = (.ok (), s')) :
    ∀ r ∈ s'.db.featureRuns.rows, r.currentExecutionState = .approvedPendingExecution →
      ¬ s.db.DependsOn r.featureRequestId run.featureRequestId := by
  obtain ⟨dependents, s₁, hquery, hrest⟩ := exec_bind_ok.mp h
  obtain ⟨rfl, hdb, -⟩ := query_ok hquery
  obtain ⟨hcascade, hblocked⟩ := blockDependents_blocks (t := s.db.featureRuns)
    (fun r hr => mem_pendingDependents hr) (by rw [hdb]; exact Cascaded.refl _ _) hrest
  rw [hdb] at hcascade
  rintro r hr hpending ⟨dep, hdep, hsource, htarget⟩
  obtain ⟨r₀, hr₀, hchange⟩ := hcascade.exists_mem_of hr
  rcases hchange with rfl | ⟨-, -, rfl⟩
  · -- the run was pending before, so it is one of the dependents
    have hlisted : r ∈ s.db.pendingDependents run.featureRequestId := by
      refine List.mem_flatMap.mpr ⟨dep, List.mem_filter.mpr ⟨hdep, beq_iff_eq.mpr htarget⟩, ?_⟩
      refine List.mem_filter.mpr ⟨hr₀, ?_⟩
      rw [hsource, hpending]
      simp
    exact hblocked r hlisted r hr rfl hpending
  · cases hpending

end Cascade

/-! ### Stranded runs -/

/-- No run waits for a skipped feature, and no feature has two runs. -/
structure Unstranded (db : Db) : Prop where
  single : ∀ run ∈ db.featureRuns.rows, ∀ run' ∈ db.featureRuns.rows,
    run'.featureRequestId = run.featureRequestId → run' = run
  waits : ∀ run ∈ db.featureRuns.rows, run.currentExecutionState = .approvedPendingExecution →
    ∀ dep ∈ db.featureRuns.rows, db.DependsOn run.featureRequestId dep.featureRequestId →
      dep.currentExecutionState ≠ .skipped

/-- A step outside the commands changes no run and no dependency. -/
def SystemEvent.KeepsRuns (db : Db) : SystemEvent → Prop
  | .other db' => db'.featureRuns = db.featureRuns ∧
      db'.featureDependencies = db.featureDependencies
  | _ => True

theorem Unstranded.of_eq {db db' : Db} (h : Unstranded db)
    (hruns : db'.featureRuns = db.featureRuns)
    (hdependencies : db'.featureDependencies = db.featureDependencies) : Unstranded db' := by
  have hdepends : db'.DependsOn = db.DependsOn := by
    unfold Db.DependsOn
    rw [hdependencies]
  refine ⟨?_, ?_⟩
  · rw [hruns]
    exact h.single
  · rw [hruns, hdepends]
    exact h.waits

theorem FeatureCommand.skips_of_target {c : FeatureCommand} (h : c.target = .skipped) :
    c = .skipFeature := by
  cases c with
  | skipFeature => rfl
  | _ => cases h

namespace Request

variable {request : Request} {ev : request.Evidence} {rt : Runtime} {db db' : Db} {run : FeatureRun}

/-- A request keeps the id and the feature of every run. -/
theorem Step.single (hstep : request.Step ev rt db db' run)
    (h : ∀ run ∈ db.featureRuns.rows, ∀ run' ∈ db.featureRuns.rows,
      run'.featureRequestId = run.featureRequestId → run' = run) :
    ∀ run ∈ db'.featureRuns.rows, ∀ run' ∈ db'.featureRuns.rows,
      run'.featureRequestId = run.featureRequestId → run' = run := by
  have hkeys : ∀ r r', request.Change run r r' →
      r'.id = r.id ∧ r'.featureRequestId = r.featureRequestId := by
    rintro r r' (⟨rfl, hid, hrequest, -⟩ | ⟨-, rfl | ⟨-, -, rfl⟩⟩)
    · exact ⟨hid, hrequest⟩
    · exact ⟨rfl, rfl⟩
    · exact ⟨rfl, rfl⟩
  intro r₁ hr₁ r₂ hr₂ hsame
  obtain ⟨r₁₀, hr₁₀, hchange₁⟩ := hstep.runs.exists_mem_of hr₁
  obtain ⟨r₂₀, hr₂₀, hchange₂⟩ := hstep.runs.exists_mem_of hr₂
  obtain ⟨hid₁, hrequest₁⟩ := hkeys _ _ hchange₁
  obtain ⟨hid₂, hrequest₂⟩ := hkeys _ _ hchange₂
  have hsame₀ := h r₁₀ hr₁₀ r₂₀ hr₂₀ (hrequest₂.symm.trans (hsame.trans hrequest₁))
  have hid : r₂.id = r₁.id := hid₂.trans ((congrArg FeatureRun.id hsame₀).trans hid₁.symm)
  exact db'.featureRuns.eq_of_clash hr₂ hr₁ (decide_eq_true hid)

/-- The dependency guard of the two ways to unblock a run. -/
theorem Step.unblocked (hstep : request.Step ev rt db db' run)
    (hunblock : request.command.target = .approvedPendingExecution) :
    db.Met run.featureRequestId := by
  obtain ⟨keys, g, s, s', hview, hguard⟩ := hstep.guard
  have hasserted : ∃ detail, exec (assertDependenciesMerged run.featureRequestId
      request.envelope.correlationId detail) s = (.ok (), s') := by
    rcases request with ⟨command, envelope⟩
    cases command with
    | unblockFeature =>
      exact ⟨fun n => s!"Cannot unblock feature: {n} dependency(ies) not yet merged", hguard⟩
    | humanUnblockFeature =>
      exact ⟨fun n => s!"Cannot unblock feature: {n} dependency(ies) not yet merged. " ++
        "Resolve the upstream dependency (e.g. retry it to 'merged') before unblocking this run.",
        hguard⟩
    | _ => cases hunblock
  obtain ⟨detail, hasserted⟩ := hasserted
  have hnone := assertDependenciesMerged_ok hasserted
  have hruns : s.db.featureRuns = db.featureRuns :=
    (congrArg (fun v => v.1.featureRuns) hview : s.db.core.featureRuns = db.core.featureRuns)
  have hdeps : s.db.featureDependencies = db.featureDependencies :=
    (congrArg (fun v => v.1.featureDependencies) hview :
      s.db.core.featureDependencies = db.core.featureDependencies)
  rw [Db.unmetDependencies, hruns, hdeps] at hnone
  exact Db.unmetDependencies_eq_nil.mp hnone

/-- **A skip blocks every pending dependent in its own transaction.** -/
theorem commit_skip {s s' : Session} {result : CommandResult}
    (hskip : request.command = .skipFeature)
    (h : exec (request.commit ev) s = (.ok result, s')) (hchanged : s'.db ≠ s.db)
    (hfound : s.db.findFeatureRun request.ref.featureRunId request.ref.projectId = some run) :
    ∀ r ∈ s'.db.featureRuns.rows, r.currentExecutionState = .approvedPendingExecution →
      ¬ s.db.DependsOn r.featureRequestId run.featureRequestId := by
  rcases commit_worked h with hsame | ⟨s₁, s₂, keys, hs₁, -, hwork, hs'⟩
  · exact absurd hsame hchanged
  · obtain ⟨run', s₃, hfound', hrest, hcascade⟩ := runTransition_cascade hwork
    have hrun : run' = run := by
      rw [transition_featureRunId, transition_projectId, hs₁] at hfound'
      exact Option.some.inj (hfound'.symm.trans hfound)
    have hdeps : s₃.db.featureDependencies = s.db.featureDependencies := by
      have hdeps₁ : s₃.db.featureDependencies = s₁.db.featureDependencies :=
        congrArg (fun v => v.1.featureDependencies) hrest
      rw [hdeps₁, hs₁]
    have hcascaded : exec (cascadeSkip request.ref request.envelope.actor.id run) s₃ =
        (.ok (), s₂) := by
      rcases request with ⟨command, envelope⟩
      obtain rfl : command = .skipFeature := hskip
      rw [← hrun]
      exact hcascade
    have hblocks := cascadeSkip_blocks hcascaded
    unfold Db.DependsOn at hblocks ⊢
    rw [hdeps] at hblocks
    rw [hs']
    exact hblocks

end Request

/-- **A transaction strands no run.** -/
theorem Unstranded.commit {request : Request} {ev : request.Evidence} {s s' : Session}
    {result : CommandResult} (h : Unstranded s.db)
    (hcommit : exec (request.commit ev) s = (.ok result, s')) : Unstranded s'.db := by
  rcases Request.commit_ok hcommit with hsame | hdid
  · rw [hsame]
    exact h
  · obtain ⟨run, hstep⟩ := hdid.step
    obtain ⟨hrun, -, -⟩ := Db.findFeatureRun_some hstep.found
    refine ⟨hstep.single h.single, fun r' hr' hpending d' hd' hdepends hskipped => ?_⟩
    obtain ⟨r, hr, hchange⟩ := hstep.runs.exists_mem_of hr'
    obtain ⟨d, hd, hchange'⟩ := hstep.runs.exists_mem_of hd'
    have hdepends₀ : s.db.DependsOn r'.featureRequestId d'.featureRequestId := by
      unfold Db.DependsOn at hdepends ⊢
      rw [hdid.featureDependencies] at hdepends
      exact hdepends
    -- a skipped run was skipped before, or this is its skip
    rcases hchange' with ⟨rfl, -, hrequest', hstate', -⟩ | ⟨-, rfl | ⟨-, -, rfl⟩⟩
    · have hskip : request.command = .skipFeature := by
        rw [hskipped] at hstate'
        exact FeatureCommand.skips_of_target hstate'.symm
      rw [hrequest'] at hdepends₀
      exact Request.commit_skip hskip hcommit hdid.ne hstep.found r' hr' hpending hdepends₀
    · -- a pending run was pending before, or its dependencies are merged
      rcases hchange with ⟨rfl, -, hrequest, hstate, -⟩ | ⟨-, rfl | ⟨-, -, rfl⟩⟩
      · rw [hrequest] at hdepends₀
        obtain ⟨merged, hmerged, hof, hstate₀⟩ :=
          hstep.unblocked (hstate.symm.trans hpending) _ hdepends₀
        rw [h.single d' hd merged hmerged hof, hskipped] at hstate₀
        cases hstate₀
      · exact h.waits r' hr hpending d' hd hdepends₀ hskipped
      · cases hpending
    · cases hskipped

/-! ### Activated plans -/

/-- The runs that an activation adds are first attempts that wait, one for a feature of the plan. -/
theorem activation_runs {envelope : CommandEnvelope ActivatePlanPayload} {s s' : Session}
    {result : CommandResult}
    (h : exec (movePlan envelope envelope.payload (activationMove envelope)) s = (.ok result, s')) :
    s'.db.featureDependencies = s.db.featureDependencies ∧
      (∃ fresh, s'.db.featureRuns.rows = s.db.featureRuns.rows ++ fresh ∧
        ∀ run ∈ fresh, run.attemptNo = 1 ∧ run.currentExecutionState = .approvedPendingExecution ∧
          ∃ feature ∈ s.db.executableFeatures envelope.payload.planId,
            feature.id = run.featureRequestId) ∧
      ∀ id, s'.db.firstAttempts id ≤ max (s.db.firstAttempts id) 1 := by
  obtain ⟨plan, -, -, -, -, -, hdependencies, s₃, s₄, details, hrequests₃, hruns₃, hwrote, hruns⟩ :=
    left_of_movePlan h (frame_activationEffects (fun _ _ _ => rfl) (fun _ _ => rfl) _)
  obtain ⟨features, s₅, hquery, h₅⟩ := exec_bind_ok.mp hwrote
  obtain ⟨rfl, hdb₅, -⟩ := query_ok hquery
  obtain ⟨n, s₆, hactivated, h₆⟩ := exec_bind_ok.mp h₅
  obtain ⟨-, rfl⟩ := Prod.mk.inj h₆
  obtain ⟨⟨fresh, hrows, hfresh⟩, hcounts⟩ := activateFeatures_ok hactivated
  have hfeatures : s₃.db.executableFeatures envelope.payload.planId =
      s.db.executableFeatures envelope.payload.planId := by
    rw [Db.executableFeatures, Db.executableFeatures, hrequests₃]
  refine ⟨hdependencies, ⟨fresh, ?_, fun run hrun => ?_⟩, fun id => ?_⟩
  · rw [hruns, hrows, hdb₅, hruns₃]
  · obtain ⟨hattempt, hstate, hof⟩ := hfresh run hrun
    rw [hfeatures] at hof
    exact ⟨hattempt, hstate, List.mem_map.mp hof⟩
  · have hbefore : s₅.db.firstAttempts id = s.db.firstAttempts id := by
      rw [hdb₅, Db.firstAttempts, Db.firstAttempts, hruns₃]
    have hafter : s'.db.firstAttempts id = s₆.db.firstAttempts id := by
      rw [Db.firstAttempts, Db.firstAttempts, hruns]
    rw [hafter, hcounts id, hbefore]
    split
    · exact le_refl _
    · omega

/-- Where every run is a first attempt, the features have one run each if and only if no feature has
two first attempts. -/
theorem single_iff_firstAttempts {db : Db} (hfirst : ∀ run ∈ db.featureRuns.rows, run.attemptNo = 1) :
    (∀ run ∈ db.featureRuns.rows, ∀ run' ∈ db.featureRuns.rows,
      run'.featureRequestId = run.featureRequestId → run' = run) ↔
      ∀ id, db.firstAttempts id ≤ 1 := by
  have hfirstOf : ∀ run ∈ db.featureRuns.rows, ∀ id,
      FeatureRun.isFirstAttempt id run = true ↔ run.featureRequestId = id := by
    intro run hrun id
    rw [FeatureRun.isFirstAttempt, hfirst run hrun]
    simp
  constructor
  · intro hsingle id
    refine db.featureRuns.count_le_one_iff.mpr fun r hr r' hr' hp hp' => ?_
    have hof := (hfirstOf r hr id).mp hp
    have hof' := (hfirstOf r' hr' id).mp hp'
    exact hsingle r hr r' hr' (hof'.trans hof.symm)
  · intro hcount run hrun run' hrun' hsame
    exact db.featureRuns.count_le_one_iff.mp (hcount run.featureRequestId) run hrun run' hrun'
      ((hfirstOf run hrun _).mpr rfl) ((hfirstOf run' hrun' _).mpr hsame)

/-- **The activation of a plan strands no run**, when the runs of before are first attempts and the
features of the plan depend on no skipped one. -/
theorem Unstranded.activate {db : Db} {envelope : CommandEnvelope ActivatePlanPayload}
    {runtime : Runtime} (h : Unstranded db)
    (hfirst : ∀ run ∈ db.featureRuns.rows, run.attemptNo = 1)
    (hplan : ∀ feature ∈ db.executableFeatures envelope.payload.planId,
      ∀ dep ∈ db.featureRuns.rows, db.DependsOn feature.id dep.featureRequestId →
        dep.currentExecutionState ≠ .skipped) :
    Unstranded (planningCommands.next db ⟨.activatePlan, envelope, runtime⟩) := by
  rcases CommandFamily.next_cases db (⟨.activatePlan, envelope, runtime⟩ : PlanningCall)
    with hsame | hdid
  · rw [hsame]
    exact h
  · obtain ⟨ev, s₁, s₂, result, hs₁, -, hbody, hs₂⟩ := hdid.work
    -- the tables before and after the work are those before and after the call
    have hruns₁ : s₁.db.featureRuns = db.featureRuns := by
      have huntraced := congrArg Db.featureRuns hs₁
      exact huntraced
    have hdeps₁ : s₁.db.featureDependencies = db.featureDependencies := by
      have huntraced := congrArg Db.featureDependencies hs₁
      exact huntraced
    have hfeatures₁ : s₁.db.executableFeatures envelope.payload.planId =
        db.executableFeatures envelope.payload.planId := by
      have huntraced := congrArg (fun db => db.executableFeatures envelope.payload.planId) hs₁
      exact huntraced
    obtain ⟨hdeps, ⟨fresh, hrows, hfresh⟩, hcounts⟩ := activation_runs hbody
    rw [hruns₁] at hrows
    rw [hdeps₁] at hdeps
    have hafter : Unstranded s₂.db := by
      have hfirst' : ∀ run ∈ s₂.db.featureRuns.rows, run.attemptNo = 1 := by
        intro run hrun
        rw [hrows] at hrun
        rcases List.mem_append.mp hrun with hold | hnew
        · exact hfirst run hold
        · exact (hfresh run hnew).1
      refine ⟨(single_iff_firstAttempts hfirst').mpr fun id => ?_, ?_⟩
      · have hbefore := (single_iff_firstAttempts hfirst).mp h.single id
        have hcount := hcounts id
        have hsame : s₁.db.firstAttempts id = db.firstAttempts id := by
          rw [Db.firstAttempts, Db.firstAttempts, hruns₁]
        omega
      · intro run hrun hpending dep hdep hdepends hskipped
        unfold Db.DependsOn at hdepends
        rw [hdeps] at hdepends
        rw [hrows] at hrun hdep
        -- a skipped run is none of the new ones
        have hdep' : dep ∈ db.featureRuns.rows := by
          rcases List.mem_append.mp hdep with hold | hnew
          · exact hold
          · rw [(hfresh dep hnew).2.1] at hskipped
            cases hskipped
        rcases List.mem_append.mp hrun with hold | hnew
        · exact h.waits run hold hpending dep hdep' hdepends hskipped
        · obtain ⟨-, -, feature, hfeature, hof⟩ := hfresh run hnew
          rw [hfeatures₁] at hfeature
          rw [← hof] at hdepends
          exact hplan feature hfeature dep hdep' hdepends hskipped
    have hlast : (planningCommands.next db ⟨.activatePlan, envelope, runtime⟩).untraced =
        s₂.db.untraced := hs₂
    have hruns₂ := congrArg Db.featureRuns hlast
    have hdeps₂ := congrArg Db.featureDependencies hlast
    exact hafter.of_eq hruns₂ hdeps₂

/-! ### Runs -/

/-- **Every step keeps the runs from being stranded.** -/
theorem Unstranded.next {db : Db} {event : SystemEvent} (h : Unstranded db)
    (hkeeps : event.KeepsRuns db) : Unstranded (SystemEvent.next db event) := by
  cases event with
  | lock e =>
    have hrest := LockEvent.next_withoutLocks db e
    exact h.of_eq (congrArg (fun db => db.featureRuns) hrest)
      (congrArg (fun db => db.featureDependencies) hrest)
  | gather request rt =>
    have hrest := SystemEvent.next_gather db request rt
    exact h.of_eq (congrArg (fun db => db.featureRuns) hrest)
      (congrArg (fun db => db.featureDependencies) hrest)
  | commit request ev rt =>
    show Unstranded (exec (request.commit ev) (.start db rt)).2.db
    rcases hcommit : exec (request.commit ev) (.start db rt) with ⟨e | result, s'⟩
    · have hsame : s'.db = db := Request.commit_error hcommit
      rw [hsame]
      exact h
    · exact Unstranded.commit (s := .start db rt) h hcommit
  | other db' => exact h.of_eq hkeeps.1 hkeeps.2

/-- **A skip strands no dependent run**: from an activated plan on, no run waits for a feature whose
run is skipped, whatever the feature-execution commands do in whatever order. -/
theorem skip_strands_none {db : Db} {events : List SystemEvent} (hstart : Unstranded db)
    (h : Along SystemEvent.next SystemEvent.KeepsRuns db events) :
    Throughout SystemEvent.next (fun db => ∀ run ∈ db.featureRuns.rows,
      run.currentExecutionState = .approvedPendingExecution →
        ∀ dep ∈ db.featureRuns.rows, db.DependsOn run.featureRequestId dep.featureRequestId →
          dep.currentExecutionState ≠ .skipped) db events :=
  (throughout_of_step (fun _ _ hunstranded hkeeps => hunstranded.next hkeeps) hstart h).imp
    fun _ hunstranded => hunstranded.waits

/-- A project with two features, the second of which depends on the first: the first has been given to
a human, and the second waits. -/
def sampleDependentDb : Db where
  featureRequests := .ofList [
    { id := "A", projectId := "P", frId := "FR-1" }, { id := "B", projectId := "P", frId := "FR-2" }]
  featureDependencies := .ofList [{ id := "dep", sourceFrId := "B", targetFrId := "A" }]
  featureRuns := .ofList [
    { id := "a", featureRequestId := "A", currentExecutionState := .humanRequired },
    { id := "b", featureRequestId := "B", currentExecutionState := .approvedPendingExecution }]
  workflowStates := .ofList [{ id := "state", projectId := "P", activeFeatureRunId := some "a" }]

/-- The human gives the first feature up. -/
def sampleSkip : SystemEvent :=
  .commit ⟨.skipFeature, sampleEnvelope .human "skip" {
    featureRunId := "a", projectId := "P", expectedVersion := 1, notes := "given up" }⟩ ()
    (sampleRuntime 1)

/-- The skip takes effect, and the second run waits no longer. -/
theorem skip_strands_none_dependent :
    (SystemEvent.after sampleDependentDb [sampleSkip]).stateOf "a" = some .skipped ∧
      (SystemEvent.after sampleDependentDb [sampleSkip]).stateOf "b" ≠
        some .approvedPendingExecution := by
  have hstart : Unstranded sampleDependentDb := by
    refine ⟨by decide +kernel, fun run hrun hpending dep hdep _ => ?_⟩
    have hnone : ∀ run ∈ sampleDependentDb.featureRuns.rows,
        run.currentExecutionState ≠ .skipped := by decide +kernel
    exact hnone dep hdep
  have hkeeps : Along SystemEvent.next SystemEvent.KeepsRuns sampleDependentDb [sampleSkip] :=
    ⟨trivial, trivial⟩
  have hstates := (skip_strands_none hstart hkeeps).last
  unfold SystemEvent.after
  have hskipped : (Runs.run SystemEvent.next sampleDependentDb [sampleSkip]).stateOf "a" =
      some .skipped := by decide +kernel
  have hedges : ∀ run ∈ (Runs.run SystemEvent.next sampleDependentDb [sampleSkip]).featureRuns.rows,
      ∀ dep ∈ (Runs.run SystemEvent.next sampleDependentDb [sampleSkip]).featureRuns.rows,
        run.id = "b" → dep.id = "a" →
          ∃ row ∈ (Runs.run SystemEvent.next sampleDependentDb [sampleSkip]).featureDependencies.rows,
            row.sourceFrId = run.featureRequestId ∧ row.targetFrId = dep.featureRequestId := by
    decide +kernel
  -- what is left speaks of the last state by name, so that nothing evaluates it again
  obtain ⟨final, hfinal⟩ : ∃ final,
      Runs.run SystemEvent.next sampleDependentDb [sampleSkip] = final := ⟨_, rfl⟩
  rw [hfinal] at hstates hskipped hedges ⊢
  refine ⟨hskipped, fun hpending => ?_⟩
  obtain ⟨dep, hdep, hid, hstate⟩ := Db.stateOf_some.mp hskipped
  obtain ⟨run, hrun, hid', hstate'⟩ := Db.stateOf_some.mp hpending
  exact hstates run hrun hstate' dep hdep (hedges run hrun dep hdep hid' hid) hstate

end MiniCoder
