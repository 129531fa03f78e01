import MiniCoder.Merge.Machine

/-!
# What is recorded of a merge

The requests to merge one run, one after the other, with any answers of the SCM: the server may
merge or refuse, the call may fail before or after the merge, and a merged pull request answers like
a refused one.  The run's record follows the answers.  What is recorded as merged was merged, and
nothing is merged twice; but a call that failed after the merge leaves no trace of it, and the next
attempt under the same key calls again, and takes the answer for a merged pull request as a refusal.

* `sound_next`: what a request carries of the pull request, and what the histories say of the run.
* `unfailed_next`: what keeps a merged run from a failed record.
* `merges_recorded`: in a run that calls for no pull request that a call has merged, the record of
  the run is truthful.
* `merge_recorded_failed`: a second attempt records a failure for a merged pull request.
-/

open Storage Storage.Action Runs

namespace MiniCoder

/-! ### The identity of a pull request -/

/-- The number of the run's pull request, and the coordinates of the project's repository. -/
def Db.identity (db : Db) (featureRunId projectId : String) :
    Option ℕ × Option (String × String) :=
  ((db.findPullRequest featureRunId).map (·.prNumber),
    (db.findRepository projectId).map fun repo => (repo.owner, repo.name))

/-- The two halves of an identity make the key of a pull request at the SCM. -/
def Identifies (identity : Option ℕ × Option (String × String)) (key : PrKey) : Prop :=
  identity = (some key.prNumber, some (key.owner, key.repo))

theorem Identifies.unique {identity : Option ℕ × Option (String × String)} {key key' : PrKey}
    (h : Identifies identity key) (h' : Identifies identity key') : key = key' := by
  have hboth := h.symm.trans h'
  rcases key with ⟨owner, repo, prNumber⟩
  rcases key' with ⟨owner', repo', prNumber'⟩
  simp only [Prod.mk.injEq, Option.some.injEq] at hboth
  obtain ⟨rfl, rfl, rfl⟩ := hboth
  rfl

section Identity

variable {featureRunId projectId : String} {db : Db}

/-- An update of mirror rows that keeps their runs and numbers. -/
theorem identity_update {q : PullRequest → Bool} {u : PullRequest → PullRequest} {hu : KeyFree u}
    (hrun : ∀ pr, (u pr).featureRunId = pr.featureRunId)
    (hnumber : ∀ pr, (u pr).prNumber = pr.prNumber) :
    { db with pullRequests := db.pullRequests.update q u hu }.identity featureRunId projectId =
      db.identity featureRunId projectId := by
  have hfind : (db.pullRequests.update q u hu).find? (fun pr => pr.featureRunId == featureRunId) =
      (db.findPullRequest featureRunId).map (Table.updateRow q u) :=
    Table.find?_update fun pr => by rw [hrun pr]
  have hkept : ∀ pr, (Table.updateRow q u pr).prNumber = pr.prNumber := by
    intro pr
    unfold Table.updateRow
    split
    · exact hnumber pr
    · rfl
  unfold Db.identity Db.findPullRequest
  rw [hfind, Option.map_map]
  refine congrArg₂ Prod.mk ?_ rfl
  exact congrArg (fun number => (db.findPullRequest featureRunId).map number) (funext hkept)

theorem identity_syncMirror (run : String) (observed : ObservedPullRequestState) (rt : Runtime) :
    (syncMirror run observed rt db).identity featureRunId projectId =
      db.identity featureRunId projectId := by
  have hbody : Frame (fun s : Session => s.db.identity featureRunId projectId)
      (syncPullRequestObservedState run observed) := by
    refine frame_bind (frame_query (fun _ _ _ => rfl) _) fun existing =>
      frame_ite (frame_pure _) (frame_execute (fun _ _ _ => rfl) fun s _ db h => ?_)
    obtain ⟨-, rfl⟩ := Prod.mk.inj (Option.some.inj h)
    exact identity_update (fun _ => rfl) fun _ => rfl
  exact frame_transaction (g := fun db => db.identity featureRunId projectId) hbody (.start db rt)

/-- A recorded merge leaves the pull request what it was. -/
theorem frame_recordMerge_identity (payload : RecordMergedPayload) :
    Frame (fun s : Session => s.db.identity featureRunId projectId) (recordMerge payload) := by
  refine frame_bind (frame_bind frame_isoNow fun now =>
    frame_execute (fun _ _ _ => rfl) fun s _ db h => ?_) fun _ =>
    frame_execute (fun _ _ _ => rfl) fun s _ db h => ?_
  · obtain ⟨-, rfl⟩ := Prod.mk.inj (Option.some.inj h)
    exact identity_update (fun _ => rfl) fun _ => rfl
  · obtain ⟨-, rfl⟩ := Prod.mk.inj (Option.some.inj h)
    rfl

/-- No command of the route changes which pull request a run has. -/
theorem frame_commit_identity (call : MergeCall) (step : RouteStep) (commandId : String)
    (ev : step.command.handler.Evidence) :
    Frame (fun s : Session => s.db.identity featureRunId projectId)
      ((step.request call commandId).commit ev) := by
  refine CommandHandler.frame_transact (g := fun db => db.identity featureRunId projectId)
    (fun _ _ => rfl) ?_
  -- the handlers of the route check and cascade nothing; some have side effects
  have hframe : ∀ {P : Type} (envelope : CommandEnvelope P) {t : Transition},
      t.prologue = pure () →
      (∀ run, Frame (fun s : Session => s.db.identity featureRunId projectId) (t.guard run)) →
      Frame (fun s : Session => s.db.identity featureRunId projectId) t.conflict →
      (∀ run checked, Frame (fun s : Session => s.db.identity featureRunId projectId)
        (t.effects run checked)) →
      (∀ run, t.cascade run = pure ()) →
      Frame (fun s : Session => s.db.identity featureRunId projectId)
        (runTransition envelope t) := by
    intro P envelope t hprologue hguard hconflict heffects hcascade
    refine frame_runTransition_of (g := fun db => db.identity featureRunId projectId)
      (fun _ _ => rfl) (fun _ _ => rfl) (fun _ _ => rfl) envelope ?_ hguard hconflict heffects
      fun run => ?_
    · rw [hprologue]
      exact frame_pure _
    · rw [hcascade]
      exact frame_pure _
  cases step with
  | mergeIfReady version target =>
    exact hframe _ rfl (fun _ => frame_pure _) (frame_pure _) (fun _ _ => frame_pure _) fun _ => rfl
  | recordMerged version mergeSha =>
    exact hframe _ rfl (fun _ => frame_pure _) (frame_pure _)
      (fun _ _ => frame_recordMerge_identity _) fun _ => rfl
  | recordMergeFailed version e =>
    exact hframe _ rfl (fun _ => frame_pure _) (frame_pure _) (fun _ _ => frame_pure _) fun _ => rfl
  | reconcileMergeFailed version e =>
    exact hframe _ rfl (fun _ => frame_pure _) (frame_pure _) (fun _ _ => frame_pure _) fun _ => rfl
  | escalateToHuman version e =>
    exact hframe _ rfl (fun _ => frame_pure _) (frame_pure _)
      (fun _ _ => frame_insertReviewFindings (fun _ _ _ => rfl) (fun _ _ => rfl) _ _ _ _) fun _ => rfl

end Identity

/-! ### The state of a run -/

/-- The states that record how a merge went. -/
def FeatureExecutionState.isOutcome : FeatureExecutionState → Bool
  | merged | mergeFailed | humanRequired => true
  | _ => false

/-- **A transition records an outcome for its own run only**, and the one it moves to. -/
theorem Request.Did.outcome {request : Request} {ev : request.Evidence} {rt : Runtime} {db db' : Db}
    (h : request.Did ev rt db db') {featureRunId : String} {state : FeatureExecutionState}
    (houtcome : state.isOutcome = true) (hstate : db'.stateOf featureRunId = some state) :
    db.stateOf featureRunId = some state ∨
      (request.ref.featureRunId = featureRunId ∧ request.command.target = state) := by
  obtain ⟨run, hstep⟩ := h.step
  obtain ⟨-, hid, -⟩ := Db.findFeatureRun_some hstep.found
  obtain ⟨run', hrun', hid', hstate'⟩ := Db.stateOf_some.mp hstate
  obtain ⟨r, hr, hchange⟩ := hstep.runs.exists_mem_of hrun'
  rcases hchange with ⟨-, hids, -, htarget, -⟩ | ⟨-, rfl | ⟨-, -, rfl⟩⟩
  · exact Or.inr ⟨hid.symm.trans (hids.symm.trans hid'), htarget.symm.trans hstate'⟩
  · exact Or.inl (Db.stateOf_some.mpr ⟨run', hr, hid', hstate'⟩)
  · -- a cascade blocks its run
    rw [← hstate'] at houtcome
    cases houtcome

namespace Route

variable {route : Route} {rt : Runtime} {db : Db} {featureRunId projectId : String}

theorem identity_advance : (route.advance rt db).1.identity featureRunId projectId =
    db.identity featureRunId projectId := by
  by_cases hcommitting : ∃ step commandId ev, route.phase = .committing step commandId ev
  · obtain ⟨step, commandId, ev, hphase⟩ := hcommitting
    rw [advance_commit hphase]
    exact frame_commit_identity route.call step commandId ev (.start db rt)
  · have hbare : (route.advance rt db).1.bare = db.bare :=
      advance_bare fun step commandId ev h => hcommitting ⟨step, commandId, ev, h⟩
    have hidentity := congrArg (fun d => Db.identity d featureRunId projectId) hbare
    exact hidentity

end Route

/-! ### Requests one by one -/

namespace MergeState

variable (featureRunId projectId : String)

/-- The merges of a run. -/
def mergesOf (s : MergeState) : List Merge :=
  s.merges.filter fun merge => merge.featureRunId == featureRunId

/-- A request to merge the run is under way. -/
structure UnderWay (s : MergeState) (k : ℕ) (route : Route) : Prop where
  here : s.routes k = some route
  run : route.call.featureRunId = featureRunId
  pending : ¬ route.phase.IsDone

/-- The pull request of the run is being merged, or has been. -/
def Engaged (s : MergeState) : Prop :=
  s.mergesOf featureRunId ≠ [] ∨ ∃ k route, s.UnderWay featureRunId k route

/-- The requests to merge the run come one after the other, each for its project; no other process
records an outcome of a merge for it, or gives it another pull request meanwhile; and at the SCM,
what is merged stays merged. -/
def OneByOne (s : MergeState) : MergeEvent → Prop
  | .sys e =>
    (∀ state, FeatureExecutionState.isOutcome state = true →
      (e.next s.db).stateOf featureRunId = some state →
        s.db.stateOf featureRunId = some state) ∧
      (s.Engaged featureRunId →
        (e.next s.db).identity featureRunId projectId = s.db.identity featureRunId projectId)
  | .scm scm => ∀ key, s.scm.isMerged key = true → scm.isMerged key = true
  | .arrive _ request _ => ∀ call, request.validate = .ok call → call.featureRunId = featureRunId →
    call.projectId = projectId ∧ ∀ k route, ¬ s.UnderWay featureRunId k route
  | _ => True

variable {featureRunId projectId} {s : MergeState} {e : MergeEvent}

/-- **A step records an outcome for the run only by the transaction of a request.** -/
theorem stateOf_next (hone : s.OneByOne featureRunId projectId e) {state : FeatureExecutionState}
    (houtcome : state.isOutcome = true)
    (h : (s.next e).db.stateOf featureRunId = some state) :
    s.db.stateOf featureRunId = some state ∨ ∃ n route step commandId ev,
      s.UnderWay featureRunId n route ∧ route.phase = .committing step commandId ev ∧
        step.command.target = state := by
  have hstep := s.next_stepped e
  generalize s.next e = s' at h hstep
  cases hstep with
  | sys => exact Or.inl (hone.1 state houtcome h)
  | @synced run observed rt =>
    have hruns := congrArg Db.featureRuns (core_syncMirror run observed rt s.db)
    have hsame := Db.stateOf_of_eq hruns featureRunId
    exact Or.inl (hsame.symm.trans h)
  | @advanced n rt route hroute =>
    rcases route.advance_did with hbare | ⟨step, commandId, ev, hphase, hdid⟩
    · have hsame := Db.stateOf_of_eq (congrArg Db.featureRuns hbare) featureRunId
      exact Or.inl (hsame.symm.trans h)
    · rcases hdid.outcome houtcome h with hold | ⟨hrun, htarget⟩
      · exact Or.inl hold
      · rw [RouteStep.request_featureRunId] at hrun
        refine Or.inr ⟨n, route, step, commandId, ev, ⟨hroute, hrun, ?_⟩, hphase, htarget⟩
        rw [hphase]
        exact id
  | _ => exact Or.inl h

/-- No step gives the run another pull request while one is being merged, or has been. -/
theorem identity_next (hone : s.OneByOne featureRunId projectId e)
    (hengaged : s.Engaged featureRunId) :
    (s.next e).db.identity featureRunId projectId = s.db.identity featureRunId projectId := by
  have hstep := s.next_stepped e
  generalize s.next e = s' at hstep
  cases hstep with
  | sys => exact hone.2 hengaged
  | synced => exact identity_syncMirror _ _ _
  | @advanced n rt route hroute => exact route.identity_advance
  | _ => rfl

theorem isMerged_next (hone : s.OneByOne featureRunId projectId e) {key : PrKey}
    (h : s.scm.isMerged key = true) : (s.next e).scm.isMerged key = true := by
  have hstep := s.next_stepped e
  generalize s.next e = s' at hstep
  cases hstep with
  | scm => exact hone key h
  | called hroute hphase => exact Scm.isMerged_afterCall h
  | _ => exact h

/-- A call that merges adds to the merges of its run. -/
theorem mergesOf_callScm {n version : ℕ} {route : Route} {target : MergeTarget}
    {behaviour : ServerBehaviour} {message head : String}
    (hhead : s.scm.mergedHead target.options behaviour = some head)
    (hrun : route.call.featureRunId = featureRunId) :
    (s.callScm n route target version behaviour message).mergesOf featureRunId =
      ⟨featureRunId, target.key, head⟩ :: s.mergesOf featureRunId := by
  unfold mergesOf callScm
  rw [hhead, hrun]
  exact List.filter_cons_of_pos (beq_iff_eq.mpr rfl)

/-- **The merges of the run**: a step adds at most one, and it does so when the SCM performs it on
the call of a request under way. -/
theorem mergesOf_next (e : MergeEvent) :
    (s.next e).mergesOf featureRunId = s.mergesOf featureRunId ∨
      ∃ n behaviour message route target version head,
        e = .call n behaviour message ∧ s.UnderWay featureRunId n route ∧
          route.phase = .calling target version ∧
          s.scm.mergedHead target.options behaviour = some head ∧
          (s.next e).mergesOf featureRunId =
            ⟨featureRunId, target.key, head⟩ :: s.mergesOf featureRunId ∧
          (s.next e).db = s.db ∧ (s.next e).scm = s.scm.afterCall target.options behaviour := by
  have hstep := s.next_stepped e
  generalize s.next e = s' at hstep
  cases hstep with
  | @called n behaviour message route target version hroute hphase =>
    rcases hhead : s.scm.mergedHead target.options behaviour with _ | head
    · left
      unfold mergesOf callScm
      rw [hhead]
      rfl
    · by_cases hrun : route.call.featureRunId = featureRunId
      · have hpending : ¬ route.phase.IsDone := by
          rw [hphase]
          exact id
        exact Or.inr ⟨n, behaviour, message, route, target, version, head, rfl,
          ⟨hroute, hrun, hpending⟩, hphase, hhead, mergesOf_callScm hhead hrun, rfl, rfl⟩
      · left
        unfold mergesOf callScm
        rw [hhead]
        exact List.filter_cons_of_neg (by simpa using hrun)
  | _ => exact Or.inl rfl

/-- A merge of the run is not forgotten. -/
theorem mergesOf_ne_nil_next (e : MergeEvent) (h : s.mergesOf featureRunId ≠ []) :
    (s.next e).mergesOf featureRunId ≠ [] := by
  rcases s.mergesOf_next e with hsame | ⟨_, _, _, _, _, _, _, -, -, -, -, hmerges, -⟩
  · rw [hsame]
    exact h
  · rw [hmerges]
    exact List.cons_ne_nil _ _

/-- A request under way has arrived, or was under way. -/
theorem underWay_next {k : ℕ} {route' : Route} (h : (s.next e).UnderWay featureRunId k route') :
    (∃ route, s.UnderWay featureRunId k route) ∨ ∃ request rt call,
      e = .arrive k request rt ∧ request.validate = .ok call ∧
        call.featureRunId = featureRunId := by
  obtain ⟨hhere, hrun, hpending⟩ := h
  cases routes_next hhere with
  | kept hroute => exact Or.inl ⟨route', hroute, hrun, hpending⟩
  | arrived hcall => exact Or.inr ⟨_, _, _, rfl, hcall, hrun⟩
  | @advanced _ rt route hroute =>
    have hbefore : ¬ route.phase.IsDone := fun hdone => hpending (Route.isDone_advance hdone)
    exact Or.inl ⟨route, hroute, hrun, hbefore⟩
  | @answered _ behaviour message route target version hroute hphase =>
    have hbefore : ¬ route.phase.IsDone := by
      rw [hphase]
      exact id
    exact Or.inl ⟨route, hroute, hrun, hbefore⟩
  | @ended _ _ route phase hroute hquiet hdone =>
    have hbefore : ¬ route.phase.IsDone := fun h => hpending (hdone h)
    exact Or.inl ⟨route, hroute, hrun, hbefore⟩

/-! ### The record and the merges -/

/-- What a command of a request stands for: the merge names the pull request of the run, and the
record of a merge has one to record. -/
def Warrants (featureRunId projectId : String) (s : MergeState) : RouteStep → Prop
  | .mergeIfReady _ target => Identifies (s.db.identity featureRunId projectId) target.key
  | .recordMerged _ _ => s.mergesOf featureRunId ≠ []
  | _ => True

/-- What a request to merge the run carries from phase to phase. -/
def Carries (featureRunId projectId : String) (s : MergeState) : RoutePhase → Prop
  | .mirrored _ pr => pr.map (·.prNumber) = (s.db.identity featureRunId projectId).1
  | .checking step | .gathering step _ | .committing step _ _ =>
    s.Warrants featureRunId projectId step
  | .dispatched target => Identifies (s.db.identity featureRunId projectId) target.key
  | .calling target _ =>
    Identifies (s.db.identity featureRunId projectId) target.key ∧
      ∀ state, FeatureExecutionState.isOutcome state = true →
        s.db.stateOf featureRunId ≠ some state
  | _ => True

/-- The record of the run, its requests and its merges fit together. -/
structure Sound (featureRunId projectId : String) (s : MergeState) : Prop where
  /-- The merges of the run are of its pull request, which the SCM has merged. -/
  kept : ∀ merge ∈ s.mergesOf featureRunId,
    Identifies (s.db.identity featureRunId projectId) merge.key ∧ s.scm.isMerged merge.key = true
  once : (s.mergesOf featureRunId).length ≤ 1
  recorded : s.db.stateOf featureRunId = some .merged → s.mergesOf featureRunId ≠ []
  single : ∀ k k' route route', s.UnderWay featureRunId k route →
    s.UnderWay featureRunId k' route' → k = k'
  routes : ∀ k route, s.routes k = some route → route.call.featureRunId = featureRunId →
    route.call.projectId = projectId ∧ s.Carries featureRunId projectId route.phase

section Step

variable {s' : MergeState} {call : MergeCall} {phase phase' : RoutePhase} {rt : Runtime}

theorem Carries.of_isQuiet (h : phase.IsQuiet) : s.Carries featureRunId projectId phase := by
  cases phase with
  | mirrored version pr => cases h
  | checking step => cases h
  | gathering step commandId => cases h
  | committing step commandId ev => cases h
  | dispatched target => cases h
  | calling target version => cases h
  | _ => trivial

theorem Carries.after {step : RouteStep} (result : CommandResult)
    (h : s.Warrants featureRunId projectId step) :
    s.Carries featureRunId projectId (step.after result) := by
  cases step with
  | mergeIfReady version target => exact h
  | _ => trivial

/-- A request carries the same while its run keeps its pull request and its merges, and takes no
outcome from another request. -/
theorem Carries.mono (h : s.Carries featureRunId projectId phase)
    (hidentity : s'.db.identity featureRunId projectId = s.db.identity featureRunId projectId)
    (hmerges : s.mergesOf featureRunId ≠ [] → s'.mergesOf featureRunId ≠ [])
    (hstate : ∀ target version, phase = .calling target version →
      ∀ state, FeatureExecutionState.isOutcome state = true →
        s'.db.stateOf featureRunId = some state → s.db.stateOf featureRunId = some state) :
    s'.Carries featureRunId projectId phase := by
  have hstep : ∀ step, s.Warrants featureRunId projectId step →
      s'.Warrants featureRunId projectId step := by
    intro step hwarrants
    cases step with
    | mergeIfReady version target =>
      show Identifies _ _
      rw [hidentity]
      exact hwarrants
    | recordMerged version mergeSha => exact hmerges hwarrants
    | _ => trivial
  cases phase with
  | mirrored version pr =>
    show _ = _
    rw [hidentity]
    exact h
  | checking step => exact hstep step h
  | gathering step commandId => exact hstep step h
  | committing step commandId ev => exact hstep step h
  | dispatched target =>
    show Identifies _ _
    rw [hidentity]
    exact h
  | calling target version =>
    refine ⟨?_, fun state houtcome hsome => ?_⟩
    · rw [hidentity]
      exact h.1
    · exact h.2 state houtcome (hstate target version rfl state houtcome hsome)
  | _ => trivial

/-- **What a request carries, from phase to phase.** -/
theorem carries_leads (hrun : call.featureRunId = featureRunId)
    (hproject : call.projectId = projectId)
    (hleads : phase.Leads call rt s.db phase') (h : s.Carries featureRunId projectId phase) :
    s.Carries featureRunId projectId phase' := by
  cases hleads with
  | mirrored =>
    show _ = _
    rw [hrun]
    rfl
  | @loaded version pr repo hrepo =>
    have hnumber : some pr.prNumber = (s.db.identity featureRunId projectId).1 := h
    have hcoordinates :
        (s.db.identity featureRunId projectId).2 = some (repo.owner, repo.name) := by
      rw [Db.identity, ← hproject, hrepo]
      rfl
    exact Prod.ext hnumber.symm hcoordinates
  | missed => exact h
  | replayed hcached => exact Carries.after _ h
  | gathered hgather => exact h
  | committed hcommit => exact Carries.after _ h
  | @ready target run hfound hready =>
    refine ⟨h, fun state houtcome hsome => ?_⟩
    obtain ⟨hmem, hid, -⟩ := Db.findFeatureRun_some hfound
    have hstate := Db.stateOf_some.mpr ⟨run, hmem, hid.trans hrun, hready⟩
    obtain rfl := Option.some.inj (hsome.symm.trans hstate)
    cases houtcome
  | settled =>
    unfold Route.settle
    split
    · trivial
    · trivial
  | waits => exact h
  | quiet hquiet => exact Carries.of_isQuiet hquiet

end Step

/-- A request that is about to call has its run without an outcome, and the merge that its call
brings about is the first of the run. -/
theorem Sound.mergesOf_eq_nil (h : s.Sound featureRunId projectId) {k version : ℕ} {route : Route}
    {target : MergeTarget} {behaviour : ServerBehaviour} {head : String}
    (hunder : s.UnderWay featureRunId k route) (hphase : route.phase = .calling target version)
    (hhead : s.scm.mergedHead target.options behaviour = some head) :
    s.mergesOf featureRunId = [] := by
  by_contra hmerges
  obtain ⟨merge, hmerge⟩ := List.exists_mem_of_ne_nil _ hmerges
  obtain ⟨hidentifies, hismerged⟩ := h.kept merge hmerge
  have hcarries := (h.routes k route hunder.here hunder.run).2
  rw [hphase] at hcarries
  -- the SCM has merged this pull request already, and merges none twice
  have hkey : merge.key = target.options.key := hidentifies.unique hcarries.1
  rw [hkey] at hismerged
  rw [Scm.mergedHead_of_isMerged hismerged] at hhead
  cases hhead

theorem Sound.kept_next (h : s.Sound featureRunId projectId)
    (hone : s.OneByOne featureRunId projectId e) : ∀ merge ∈ (s.next e).mergesOf featureRunId,
      Identifies ((s.next e).db.identity featureRunId projectId) merge.key ∧
        (s.next e).scm.isMerged merge.key = true := by
  intro merge hmerge
  have hold : merge ∈ s.mergesOf featureRunId →
      Identifies ((s.next e).db.identity featureRunId projectId) merge.key ∧
        (s.next e).scm.isMerged merge.key = true := by
    intro hmem
    obtain ⟨hidentifies, hismerged⟩ := h.kept merge hmem
    rw [identity_next hone (Or.inl (List.ne_nil_of_mem hmem))]
    exact ⟨hidentifies, isMerged_next hone hismerged⟩
  rcases s.mergesOf_next e with
    hsame | ⟨n, behaviour, message, route, target, version, head, -, hunder, hphase, hhead,
      hmerges, hdb, hscm⟩
  · rw [hsame] at hmerge
    exact hold hmerge
  · rw [hmerges] at hmerge
    rcases List.mem_cons.mp hmerge with rfl | hmem
    · have hcarries := (h.routes n route hunder.here hunder.run).2
      rw [hphase] at hcarries
      rw [hdb, hscm]
      exact ⟨hcarries.1, Scm.isMerged_of_mergedHead hhead⟩
    · exact hold hmem

theorem Sound.once_next (h : s.Sound featureRunId projectId) :
    ((s.next e).mergesOf featureRunId).length ≤ 1 := by
  rcases s.mergesOf_next e with
    hsame | ⟨n, behaviour, message, route, target, version, head, -, hunder, hphase, hhead,
      hmerges, -⟩
  · rw [hsame]
    exact h.once
  · rw [hmerges, h.mergesOf_eq_nil hunder hphase hhead, List.length_singleton]

/-- An outcome that a step records is that of a request under way. -/
theorem Sound.recorded_next (h : s.Sound featureRunId projectId)
    (hone : s.OneByOne featureRunId projectId e)
    (hmerged : (s.next e).db.stateOf featureRunId = some .merged) :
    (s.next e).mergesOf featureRunId ≠ [] := by
  refine mergesOf_ne_nil_next e ?_
  rcases stateOf_next hone rfl hmerged with
    hold | ⟨n, route, step, commandId, ev, hunder, hphase, htarget⟩
  · exact h.recorded hold
  · have hcarries := (h.routes n route hunder.here hunder.run).2
    rw [hphase] at hcarries
    cases step with
    | recordMerged version mergeSha => exact hcarries
    | _ => cases htarget

theorem Sound.single_next (h : s.Sound featureRunId projectId)
    (hone : s.OneByOne featureRunId projectId e) {k k' : ℕ} {route route' : Route}
    (hunder : (s.next e).UnderWay featureRunId k route)
    (hunder' : (s.next e).UnderWay featureRunId k' route') : k = k' := by
  rcases underWay_next hunder with ⟨before, hbefore⟩ | ⟨request, rt, call, rfl, hcall, hrun⟩
  · rcases underWay_next hunder' with ⟨before', hbefore'⟩ | ⟨request, rt, call, rfl, hcall, hrun⟩
    · exact h.single k k' before before' hbefore hbefore'
    · exact absurd hbefore ((hone call hcall hrun).2 k before)
  · rcases underWay_next hunder' with ⟨before', hbefore'⟩ | ⟨request', rt', call', he, hcall', hrun'⟩
    · exact absurd hbefore' ((hone call hcall hrun).2 k' before')
    · injection he

/-- The run takes no outcome while its request is before its transaction, or past it. -/
theorem Sound.stateOf_kept (h : s.Sound featureRunId projectId)
    (hone : s.OneByOne featureRunId projectId e) {k : ℕ} {route : Route}
    (hunder : s.UnderWay featureRunId k route)
    (hphase : ∀ step commandId ev, route.phase ≠ .committing step commandId ev)
    (state : FeatureExecutionState) (houtcome : state.isOutcome = true)
    (hstate : (s.next e).db.stateOf featureRunId = some state) :
    s.db.stateOf featureRunId = some state := by
  rcases stateOf_next hone houtcome hstate with
    hold | ⟨n, committer, step, commandId, ev, hcommitter, hcommitting, -⟩
  · exact hold
  · obtain rfl := h.single n k committer route hcommitter hunder
    obtain rfl := Option.some.inj (hcommitter.here.symm.trans hunder.here)
    exact absurd hcommitting (hphase step commandId ev)

/-- **Where a request to merge the run can be after a step**, and what it carries there. -/
theorem Sound.routes_next (h : s.Sound featureRunId projectId)
    (hone : s.OneByOne featureRunId projectId e) {k : ℕ} {route' : Route}
    (hroute' : (s.next e).routes k = some route') (hrun : route'.call.featureRunId = featureRunId) :
    route'.call.projectId = projectId ∧
      (s.next e).Carries featureRunId projectId route'.phase := by
  cases MergeState.routes_next hroute' with
  | kept hroute =>
    obtain ⟨hproject, hcarries⟩ := h.routes k route' hroute hrun
    refine ⟨hproject, ?_⟩
    by_cases hdone : route'.phase.IsDone
    · exact Carries.of_isQuiet hdone.isQuiet
    · have hunder : s.UnderWay featureRunId k route' := ⟨hroute, hrun, hdone⟩
      refine hcarries.mono (identity_next hone (Or.inr ⟨k, route', hunder⟩))
        (mergesOf_ne_nil_next e) fun target version hphase => h.stateOf_kept hone hunder ?_
      intro step commandId ev hcommitting
      rw [hphase] at hcommitting
      cases hcommitting
  | arrived hcall => exact ⟨(hone _ hcall hrun).1, trivial⟩
  | @advanced _ rt route hroute =>
    obtain ⟨hproject, hcarries⟩ := h.routes k route hroute hrun
    refine ⟨hproject, ?_⟩
    by_cases hdone : route.phase.IsDone
    · exact Carries.of_isQuiet (RoutePhase.IsDone.isQuiet (Route.isDone_advance hdone))
    · have hunder : s.UnderWay featureRunId k route := ⟨hroute, hrun, hdone⟩
      have hleads : route.phase.Leads route.call rt s.db (route.advance rt s.db).2 :=
        route.advances
      have hnow : s.Carries featureRunId projectId (route.advance rt s.db).2 :=
        carries_leads hrun hproject hleads hcarries
      exact hnow.mono (identity_next hone (Or.inr ⟨k, route, hunder⟩)) (mergesOf_ne_nil_next _)
        fun target version hphase => h.stateOf_kept hone hunder (hleads.not_committing hphase)
  | @answered _ behaviour message route target version hroute hphase =>
    refine ⟨(h.routes k route hroute hrun).1, ?_⟩
    rcases houtcome : mergePullRequest target.key.prNumber
      (s.scm.reply target.options behaviour message) with mergeSha | e | -
    · -- the answer reports the merge that the call has brought about
      obtain ⟨head, hhead⟩ := Scm.mergedHead_of_merged houtcome
      have hcallrun : route.call.featureRunId = featureRunId := hrun
      show (s.next _).mergesOf featureRunId ≠ []
      rw [next_call hroute hphase, mergesOf_callScm hhead hcallrun]
      exact List.cons_ne_nil _ _
    · trivial
    · trivial
  | @ended _ _ route phase hroute hquiet hdone =>
    exact ⟨(h.routes k route hroute hrun).1, Carries.of_isQuiet hquiet⟩

/-- **What one step preserves.** -/
theorem sound_next (s : MergeState) (e : MergeEvent) (h : s.Sound featureRunId projectId)
    (hone : s.OneByOne featureRunId projectId e) : (s.next e).Sound featureRunId projectId where
  kept := h.kept_next hone
  once := h.once_next
  recorded := h.recorded_next hone
  single _ _ _ _ := h.single_next hone
  routes _ _ := h.routes_next hone

end MergeState

/-! ### The record of a failure -/

/-- The states that record that a merge failed. -/
def FeatureExecutionState.isFailure : FeatureExecutionState → Bool
  | mergeFailed | humanRequired => true
  | _ => false

theorem FeatureExecutionState.isOutcome_of_isFailure {state : FeatureExecutionState}
    (h : state.isFailure = true) : state.isOutcome = true := by
  cases state with
  | mergeFailed => rfl
  | humanRequired => rfl
  | _ => cases h

/-- The commands that follow a rejection. -/
def RouteStep.IsFailure : RouteStep → Prop
  | recordMergeFailed _ _ | reconcileMergeFailed _ _ | escalateToHuman _ _ => True
  | _ => False

/-- The phases that follow a rejection. -/
def RoutePhase.IsFailure : RoutePhase → Prop
  | checking step | gathering step _ | committing step _ _ => step.IsFailure
  | rejected _ => True
  | _ => False

theorem RoutePhase.IsFailure.not_isQuiet {phase : RoutePhase} (h : phase.IsFailure) :
    ¬ phase.IsQuiet := by
  cases phase with
  | checking step => exact id
  | gathering step commandId => exact id
  | committing step commandId ev => exact id
  | rejected e => exact id
  | _ => cases h

theorem RoutePhase.IsFailure.not_isDone {phase : RoutePhase} (h : phase.IsFailure) :
    ¬ phase.IsDone :=
  fun hdone => h.not_isQuiet hdone.isQuiet

theorem RouteStep.isFailure_of_after {step : RouteStep} {result : CommandResult}
    (h : (step.after result).IsFailure) : step.IsFailure := by
  cases step with
  | recordMergeFailed version e => trivial
  | _ => cases h

/-- On the database, only a phase that follows a rejection leads to one. -/
theorem RoutePhase.Leads.isFailure {call : MergeCall} {rt : Runtime} {db : Db}
    {phase phase' : RoutePhase} (h : phase.Leads call rt db phase') (hphase' : phase'.IsFailure) :
    phase.IsFailure := by
  cases h with
  | missed => exact hphase'
  | replayed hcached => exact RouteStep.isFailure_of_after hphase'
  | gathered hgather => exact hphase'
  | committed hcommit => exact RouteStep.isFailure_of_after hphase'
  | settled => trivial
  | quiet hquiet => exact absurd hquiet hphase'.not_isQuiet
  | _ => cases hphase'

namespace MergeState

variable {featureRunId projectId : String} {s : MergeState} {e : MergeEvent}

/-- No call for the run is answered once an earlier one has merged its pull request. -/
def AnsweredUnmerged (featureRunId : String) (s : MergeState) : MergeEvent → Prop
  | .call _ (.lost _) _ => True
  | .call n _ _ => ∀ route ∈ s.routes n, route.call.featureRunId = featureRunId →
    s.mergesOf featureRunId = []
  | _ => True

instance (featureRunId : String) (s : MergeState) :
    (e : MergeEvent) → Decidable (s.AnsweredUnmerged featureRunId e)
  | .call n (.merges _) _ | .call n .refuses _ => inferInstanceAs (Decidable (∀ route ∈ s.routes n,
    route.call.featureRunId = featureRunId → s.mergesOf featureRunId = []))
  | .call _ (.lost _) _ | .sys _ | .scm _ | .sync _ _ _ | .arrive _ _ _ | .route _ _ | .unresolved _
  | .crash _ => isTrue trivial

/-- A merged run has no record of a failure, and no request that is to make one. -/
structure Unfailed (featureRunId : String) (s : MergeState) : Prop where
  state : s.mergesOf featureRunId ≠ [] → ∀ state, FeatureExecutionState.isFailure state = true →
    s.db.stateOf featureRunId ≠ some state
  routes : ∀ k route, s.UnderWay featureRunId k route → route.phase.IsFailure →
    s.mergesOf featureRunId = []

/-- A run whose request records a failure is not merged by a step of it. -/
theorem Sound.mergesOf_kept (h : s.Sound featureRunId projectId) {k : ℕ} {route : Route}
    (hunder : s.UnderWay featureRunId k route) (hfailure : route.phase.IsFailure) :
    (s.next e).mergesOf featureRunId = s.mergesOf featureRunId := by
  rcases s.mergesOf_next e with
    hsame | ⟨n, behaviour, message, caller, target, version, head, -, hcaller, hcalling, -⟩
  · exact hsame
  · obtain rfl := h.single n k caller route hcaller hunder
    obtain rfl := Option.some.inj (hcaller.here.symm.trans hunder.here)
    rw [hcalling] at hfailure
    cases hfailure

theorem Unfailed.state_next (hsound : s.Sound featureRunId projectId)
    (h : s.Unfailed featureRunId) (hone : s.OneByOne featureRunId projectId e)
    (hmerges : (s.next e).mergesOf featureRunId ≠ []) (state : FeatureExecutionState)
    (hfailure : state.isFailure = true) : (s.next e).db.stateOf featureRunId ≠ some state := by
  have houtcome := FeatureExecutionState.isOutcome_of_isFailure hfailure
  intro hstate
  rcases s.mergesOf_next e with
    hsame | ⟨n, behaviour, message, route, target, version, head, -, hunder, hphase, -, -, hdb, -⟩
  · rw [hsame] at hmerges
    rcases stateOf_next hone houtcome hstate with
      hold | ⟨n, route, step, commandId, ev, hunder, hphase, htarget⟩
    · exact h.state hmerges state hfailure hold
    · -- only a request that follows a rejection records a failure
      have hstep : step.IsFailure := by
        rw [← htarget] at hfailure
        cases step with
        | mergeIfReady version target => cases hfailure
        | recordMerged version mergeSha => cases hfailure
        | _ => trivial
      refine hmerges (h.routes n route hunder ?_)
      rw [hphase]
      exact hstep
  · -- a request that calls has its run without an outcome
    have hcarries := (hsound.routes n route hunder.here hunder.run).2
    rw [hphase] at hcarries
    rw [hdb] at hstate
    exact hcarries.2 state houtcome hstate

theorem Unfailed.routes_next (hsound : s.Sound featureRunId projectId)
    (h : s.Unfailed featureRunId) (hanswered : s.AnsweredUnmerged featureRunId e) {k : ℕ}
    {route' : Route} (hunder' : (s.next e).UnderWay featureRunId k route')
    (hfailure : route'.phase.IsFailure) : (s.next e).mergesOf featureRunId = [] := by
  obtain ⟨hhere, hrun, hpending⟩ := hunder'
  -- a request that followed a rejection before the step
  have hbefore : ∀ {route : Route}, s.UnderWay featureRunId k route → route.phase.IsFailure →
      (s.next e).mergesOf featureRunId = [] := by
    intro route hunder hfailure
    rw [hsound.mergesOf_kept hunder hfailure]
    exact h.routes k route hunder hfailure
  cases MergeState.routes_next hhere with
  | kept hroute => exact hbefore ⟨hroute, hrun, hpending⟩ hfailure
  | arrived hcall => cases hfailure
  | @advanced _ rt route hroute =>
    have hleads : route.phase.Leads route.call rt s.db (route.advance rt s.db).2 := route.advances
    have hfollows : route.phase.IsFailure := hleads.isFailure hfailure
    exact hbefore ⟨hroute, hrun, hfollows.not_isDone⟩ hfollows
  | @answered _ behaviour message route target version hroute hphase =>
    revert hfailure
    rcases houtcome : mergePullRequest target.key.prNumber
      (s.scm.reply target.options behaviour message) with mergeSha | e | -
    · intro hfailure
      cases hfailure
    · -- the call was answered, so none had merged before, and this one did not
      intro _
      have hnone : s.scm.mergedHead target.options behaviour = none :=
        Scm.mergedHead_of_rejected houtcome
      have hunmerged : s.mergesOf featureRunId = [] := by
        cases behaviour with
        | lost performed => cases houtcome
        | merges mergeSha => exact hanswered route hroute hrun
        | refuses => exact hanswered route hroute hrun
      rw [next_call hroute hphase]
      unfold mergesOf callScm
      rw [hnone]
      exact hunmerged
    · intro hfailure
      cases hfailure
  | ended hroute hquiet hdone => exact absurd hquiet hfailure.not_isQuiet

/-- **What one step preserves**, when it is no answer to a call for a merged pull request. -/
theorem unfailed_next (hsound : s.Sound featureRunId projectId) (h : s.Unfailed featureRunId)
    (hone : s.OneByOne featureRunId projectId e) (hanswered : s.AnsweredUnmerged featureRunId e) :
    (s.next e).Unfailed featureRunId where
  state := h.state_next hsound hone
  routes _ _ := h.routes_next hsound hanswered

/-- What is recorded as merged was merged, and nothing was merged twice. -/
structure MergedOnce (featureRunId projectId : String) (s : MergeState) : Prop where
  /-- A run that is recorded as merged has a pull request, and the SCM has merged it. -/
  merged : s.db.stateOf featureRunId = some .merged → ∃ key,
    Identifies (s.db.identity featureRunId projectId) key ∧ s.scm.isMerged key = true
  once : (s.mergesOf featureRunId).length ≤ 1

/-- A run whose pull request a call has merged has no record of a failure. -/
def NotFailed (featureRunId : String) (s : MergeState) : Prop :=
  s.mergesOf featureRunId ≠ [] →
    s.db.stateOf featureRunId ≠ some .mergeFailed ∧ s.db.stateOf featureRunId ≠ some .humanRequired

theorem Sound.mergedOnce (h : s.Sound featureRunId projectId) :
    s.MergedOnce featureRunId projectId where
  merged hmerged := by
    obtain ⟨merge, hmerge⟩ := List.exists_mem_of_ne_nil _ (h.recorded hmerged)
    exact ⟨merge.key, h.kept merge hmerge⟩
  once := h.once

theorem Unfailed.notFailed (h : s.Unfailed featureRunId) : s.NotFailed featureRunId :=
  fun hmerges => ⟨h.state hmerges _ rfl, h.state hmerges _ rfl⟩

theorem IsFresh.mergesOf_eq_nil (hs : s.IsFresh) : s.mergesOf featureRunId = [] := by
  rw [mergesOf, hs.merges]
  rfl

theorem IsFresh.not_underWay (hs : s.IsFresh) (k : ℕ) (route : Route) :
    ¬ s.UnderWay featureRunId k route := by
  intro hunder
  have hhere := hunder.here
  rw [hs.routes k] at hhere
  cases hhere

theorem IsFresh.sound (hs : s.IsFresh) (hstate : s.db.stateOf featureRunId ≠ some .merged) :
    s.Sound featureRunId projectId := by
  constructor
  · intro merge hmerge
    rw [hs.mergesOf_eq_nil] at hmerge
    cases hmerge
  · rw [hs.mergesOf_eq_nil]
    exact Nat.zero_le 1
  · exact fun hmerged => absurd hmerged hstate
  · exact fun k k' route route' hunder => absurd hunder (hs.not_underWay k route)
  · intro k route hroute
    rw [hs.routes k] at hroute
    cases hroute

theorem IsFresh.unfailed (hs : s.IsFresh) : s.Unfailed featureRunId :=
  ⟨fun hmerges => absurd hs.mergesOf_eq_nil hmerges,
    fun k route hunder => absurd hunder (hs.not_underWay k route)⟩

end MergeState

open MergeState

/-- **What is recorded of a merge**, in a run whose requests to merge come one by one, whatever the
SCM makes of their calls: the run is recorded as merged only if it is, and is merged at most once;
and no failure is recorded once a call has merged it, if no later call for it is answered. -/
theorem merges_recorded (featureRunId projectId : String) (s : MergeState) (es : List MergeEvent)
    (hs : s.IsFresh) (hstate : s.db.stateOf featureRunId ≠ some .merged)
    (hone : Along next (OneByOne featureRunId projectId) s es) :
    Throughout next (MergedOnce featureRunId projectId) s es ∧
      (Along next (AnsweredUnmerged featureRunId) s es →
        Throughout next (NotFailed featureRunId) s es) := by
  have hsound : s.Sound featureRunId projectId := hs.sound hstate
  constructor
  · exact (throughout_of_step sound_next hsound hone).imp fun s h => h.mergedOnce
  · intro hanswered
    have hboth : Throughout next
        (fun s => s.Sound featureRunId projectId ∧ s.Unfailed featureRunId) s es :=
      throughout_of_step
        (fun s e h hstep => ⟨sound_next s e h.1 hstep.1, unfailed_next h.1 h.2 hstep.1 hstep.2⟩)
        ⟨hsound, hs.unfailed⟩ (hone.and hanswered)
    exact hboth.imp fun s h => h.2.notFailed

theorem along_oneByOne {featureRunId projectId : String} {es : List MergeEvent}
    (h : ∀ e ∈ es, e.isRequestStep = true) (s : MergeState) :
    Along next (OneByOne featureRunId projectId) s es := by
  refine along_of_forall_mem (fun e he s => ?_) s
  have hstep := h e he
  cases e with
  | route n rt => trivial
  | call n behaviour message => trivial
  | unresolved n => trivial
  | crash n => trivial
  | _ => cases hstep

theorem oneByOne_sampleRequest {s : MergeState} {n : ℕ} {rt : Runtime}
    (hnone : ∀ k route, ¬ s.UnderWay "run-1" k route) :
    s.OneByOne "run-1" "P" (.arrive n sampleRequest rt) := by
  intro call hcall _
  cases hcall
  exact ⟨rfl, hnone⟩

/-- A request that the SCM merges. -/
def mergedRequest : List MergeEvent :=
  requestUpTo 0 0 9 ++ [.call 0 (.merges "M") ""] ++
    (List.range 4).map fun i => .route 0 (sampleRuntime (10 + i))

theorem merges_recorded_mergedRequest :
    Throughout next (MergedOnce "run-1" "P") approvedState mergedRequest ∧
      Throughout next (NotFailed "run-1") approvedState mergedRequest := by
  have hfresh : approvedState.IsFresh := ⟨fun _ => rfl, rfl⟩
  have hone : Along next (OneByOne "run-1" "P") approvedState mergedRequest :=
    ⟨oneByOne_sampleRequest hfresh.not_underWay, along_oneByOne (by decide +kernel) _⟩
  have hrecorded := merges_recorded "run-1" "P" approvedState mergedRequest hfresh
    (by decide +kernel) hone
  exact ⟨hrecorded.1, hrecorded.2 (by decide +kernel)⟩

/-- The answer to the merge is lost, and the request releases its claim. -/
def lostRequest : List MergeEvent :=
  requestUpTo 0 0 9 ++ [.call 0 (.lost true) "", .route 0 (sampleRuntime 10)]

/-- The request is made again, under the same key. -/
def retriedRequest : List MergeEvent :=
  requestUpTo 1 11 7 ++ [.call 1 (.merges "M") ""] ++
    (List.range 8).map fun i => .route 1 (sampleRuntime (19 + i))

/-- The first request is over when the second arrives. -/
theorem not_underWay_lostRequest (k : ℕ) (route : Route) :
    ¬ (approvedState.after lostRequest).UnderWay "run-1" k route := by
  rintro ⟨hhere, -, hpending⟩
  have hfirst : ∀ route ∈ (approvedState.after lostRequest).routes 0, route.phase.IsDone := by
    decide +kernel
  by_cases hk : k = 0
  · rw [hk] at hhere
    exact hpending (hfirst route hhere)
  · have harrivals : ∀ e ∈ lostRequest, e.arrival.all (· == 0) = true := by decide +kernel
    have hnone : (approvedState.after lostRequest).routes k = none := by
      refine routes_after_none rfl fun e he harrival => hk ?_
      have hzero := harrivals e he
      rw [harrival] at hzero
      exact beq_iff_eq.mp hzero
    rw [hnone] at hhere
    cases hhere

/-- **A failure is recorded for a merged pull request**: the SCM answers the second call as it would
refuse it. -/
theorem merge_recorded_failed :
    Along next (OneByOne "run-1" "P") approvedState (lostRequest ++ retriedRequest) ∧
      ¬ Throughout next (NotFailed "run-1") approvedState (lostRequest ++ retriedRequest) := by
  constructor
  · refine along_append.mpr ⟨⟨?_, along_oneByOne (by decide +kernel) _⟩,
      ⟨?_, along_oneByOne (by decide +kernel) _⟩⟩
    · exact oneByOne_sampleRequest (IsFresh.not_underWay ⟨fun _ => rfl, rfl⟩)
    · exact oneByOne_sampleRequest not_underWay_lostRequest
  · intro hnever
    have hmerges : (approvedState.after (lostRequest ++ retriedRequest)).mergesOf "run-1" ≠ [] := by
      decide +kernel
    have hstate : (approvedState.after (lostRequest ++ retriedRequest)).db.stateOf "run-1" =
        some .humanRequired := by decide +kernel
    exact (hnever.last hmerges).2 hstate

end MiniCoder
