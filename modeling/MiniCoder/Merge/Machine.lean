import Mathlib.Logic.Function.Basic
import MiniCoder.Merge.Route

/-!
# Merge requests, step by step

The system with the merge route in it: one database, the pull requests at the SCM, and any number of
requests, each in its phase.  Requests arrive, take their next step on the database, call the SCM,
and fail or die on the way; in between, other processes take the steps of `SystemEvent`, and others
push, close and merge at the SCM.  Two histories record what no table does: the evidence phases that
ran, with the tables they read, and the merges that the SCM performed on a call of the route.

* `next_stepped`, `routes_next`: everything a step can do, and where a request can be afterwards.
* `merges_next`: a merge is on record because the SCM performed it on a call.
* `Evaluation.passed`: an approved evaluation passed every predicate of the gate.
-/

open Storage Storage.Action Runs

namespace MiniCoder

/-! ### Evaluations of the gate -/

/-- The commands behind the merge gate. -/
def FeatureCommand.isGated : FeatureCommand → Bool
  | recordApprovedByPolicy | mergeIfReady => true
  | _ => false

/-- An evidence phase that ran, with the tables it read. -/
structure Evaluation where
  request : Request
  db : Db
  rt : Runtime

namespace Evaluation

variable (e : Evaluation)

/-- The evidence phase committed, and handed `ev` on to its transaction. -/
def Returned (ev : e.request.Evidence) : Prop :=
  ∃ s, exec e.request.gather (.start e.db e.rt) = (.ok ev, s)

/-- The gate, evaluated for a run of the project, committed and approved. -/
structure Approved (featureRunId : String) : Prop where
  gated : e.request.command.isGated = true
  run : e.request.ref.featureRunId = featureRunId
  returned : ∃ ev, e.Returned ev

/-- Every predicate of the gate held of the mirror row `pr` and the other tables it read. -/
def Passed (pr : PullRequest) : Prop :=
  ∃ run, e.db.findFeatureRun e.request.ref.featureRunId e.request.ref.projectId = some run ∧
    GatePassed e.rt e.db
      ⟨e.request.ref.featureRunId, e.request.ref.projectId, run.featureRequestId⟩ pr

variable {e} {featureRunId : String}

/-- **An approved evaluation passed every predicate of the gate.** -/
theorem Approved.passed (h : e.Approved featureRunId) : ∃ pr, e.Passed pr := by
  obtain ⟨ev, s, hgather⟩ := h.returned
  have hgated := h.gated
  rcases e with ⟨⟨command, envelope⟩, db, rt⟩
  cases command with
  | recordApprovedByPolicy =>
    obtain ⟨run, pr, hrun, hpassed, -, -⟩ := gateEvidence_ok hgather
    exact ⟨pr, run, hrun, hpassed⟩
  | mergeIfReady =>
    obtain ⟨run, pr, hrun, hpassed, -, -⟩ := gateEvidence_ok hgather
    exact ⟨pr, run, hrun, hpassed⟩
  | _ => cases hgated

end Evaluation

/-! ### States -/

/-- A merge that the SCM performed on a call of the route. -/
structure Merge where
  featureRunId : String
  key : PrKey
  head : String
  deriving DecidableEq, Repr

/-- The database, the SCM and the requests, with the two histories. -/
structure MergeState where
  db : Db
  scm : Scm := {}
  routes : ℕ → Option Route := fun _ => none
  evaluations : List Evaluation := []
  merges : List Merge := []

/-- A step of the system. -/
inductive MergeEvent
  /-- A step of another process on the database. -/
  | sys (e : SystemEvent)
  /-- What others did at the SCM. -/
  | scm (scm : Scm)
  /-- The mirror row of a run takes what was observed at the SCM. -/
  | sync (featureRunId : String) (observed : ObservedPullRequestState) (rt : Runtime)
  | arrive (n : ℕ) (request : MergeRequest) (rt : Runtime)
  /-- The next step of a request on the database. -/
  | route (n : ℕ) (rt : Runtime)
  /-- The call to the SCM. -/
  | call (n : ℕ) (behaviour : ServerBehaviour) (message : String)
  /-- The SCM's client cannot be had. -/
  | unresolved (n : ℕ)
  /-- The process of a request dies. -/
  | crash (n : ℕ)

/-- The number of a request that arrives. -/
def MergeEvent.arrival : MergeEvent → Option ℕ
  | .arrive n _ _ => some n
  | _ => none

/-- A step of a request that has arrived. -/
def MergeEvent.isRequestStep : MergeEvent → Bool
  | route _ _ | call _ _ _ | unresolved _ | crash _ => true
  | _ => false

/-- The evidence phase that a step of another process is. -/
def SystemEvent.evaluation (db : Db) : SystemEvent → Option Evaluation
  | gather request rt => some ⟨request, db, rt⟩
  | _ => none

/-- The evidence phase that the next step of a request is. -/
def Route.evaluation (route : Route) (rt : Runtime) (db : Db) : Option Evaluation :=
  match route.phase with
  | .gathering step commandId => some ⟨step.request route.call commandId, db, rt⟩
  | _ => none

/-- The tables after a sync of the mirror. -/
def syncMirror (featureRunId : String) (observed : ObservedPullRequestState) (rt : Runtime)
    (db : Db) : Db :=
  (exec (transaction (syncPullRequestObservedState featureRunId observed)) (.start db rt)).2.db

/-- A sync of the mirror leaves the core of the database alone. -/
theorem core_syncMirror (featureRunId : String) (observed : ObservedPullRequestState) (rt : Runtime)
    (db : Db) : (syncMirror featureRunId observed rt db).core = db.core := by
  have hbody : Frame coreView (syncPullRequestObservedState featureRunId observed) :=
    core_syncPullRequestObservedState observed
  have hframe : Frame (fun s : Session => s.db.core)
      (transaction (syncPullRequestObservedState featureRunId observed)) :=
    frame_transaction (hbody.map Prod.fst)
  exact hframe (.start db rt)

namespace MergeState

variable (s : MergeState)

/-- The requests, with a new one or a new phase of one. -/
def put (n : ℕ) (route : Route) : ℕ → Option Route := Function.update s.routes n (some route)

/-- The call of a request to the SCM. -/
def callScm (n : ℕ) (route : Route) (target : MergeTarget) (version : ℕ)
    (behaviour : ServerBehaviour) (message : String) : MergeState :=
  { s with
    scm := s.scm.afterCall target.options behaviour
    routes := s.put n { route with
      phase := Route.answered version (mergePullRequest target.key.prNumber
        (s.scm.reply target.options behaviour message)) }
    merges := ((s.scm.mergedHead target.options behaviour).map fun head =>
      { featureRunId := route.call.featureRunId, key := target.key, head }).toList ++ s.merges }

/-- The next step of a request on the database. -/
def stepRoute (n : ℕ) (rt : Runtime) (route : Route) : MergeState :=
  { s with
    db := (route.advance rt s.db).1
    routes := s.put n { route with phase := (route.advance rt s.db).2 }
    evaluations := (route.evaluation rt s.db).toList ++ s.evaluations }

/-- The call of a request to the SCM, when that is its next step. -/
def callRoute (n : ℕ) (behaviour : ServerBehaviour) (message : String) (route : Route) :
    MergeState :=
  match route.phase with
  | .calling target version => s.callScm n route target version behaviour message
  | _ => s

/-- The SCM's client cannot be had: it is resolved right before the first command. -/
def loseRoute (n : ℕ) (route : Route) : MergeState :=
  match route.phase with
  | .checking (.mergeIfReady _ _) =>
    { s with routes := s.put n { route with phase := .releasing .outside } }
  | _ => s

/-- The process of a request dies. -/
def killRoute (n : ℕ) (route : Route) : MergeState :=
  { s with routes := s.put n { route with phase := .done .crashed } }

/-- A request arrives, when its number is free and its fields pass their checks. -/
def arriveRoute (n : ℕ) (request : MergeRequest) (rt : Runtime) : MergeState :=
  match s.routes n, request.validate with
  | none, .ok call =>
    { s with routes := s.put n { call, slot := .at rt } }
  | _, _ => s

/-- The system after a step. -/
def next (s : MergeState) : MergeEvent → MergeState
  | .sys e =>
    { s with
      db := e.next s.db
      evaluations := (e.evaluation s.db).toList ++ s.evaluations }
  | .scm scm => { s with scm }
  | .sync featureRunId observed rt => { s with db := syncMirror featureRunId observed rt s.db }
  | .arrive n request rt => s.arriveRoute n request rt
  | .route n rt => (s.routes n).elim s (s.stepRoute n rt)
  | .call n behaviour message => (s.routes n).elim s (s.callRoute n behaviour message)
  | .unresolved n => (s.routes n).elim s (s.loseRoute n)
  | .crash n => (s.routes n).elim s (s.killRoute n)

/-- The system after a sequence of steps. -/
abbrev after (s : MergeState) (es : List MergeEvent) : MergeState := run next s es

/-- No request has arrived yet, and nothing has been merged. -/
structure IsFresh : Prop where
  routes : ∀ n, s.routes n = none
  merges : s.merges = []

/-! ### What a step can do -/

/-- Everything that a step can do to the system. -/
inductive Stepped : MergeEvent → MergeState → Prop
  /-- There is nothing to do for the step. -/
  | idle {e : MergeEvent} : Stepped e s
  | sys {e : SystemEvent} : Stepped (.sys e) {
      s with
      db := e.next s.db
      evaluations := (e.evaluation s.db).toList ++ s.evaluations }
  | scm {scm : Scm} : Stepped (.scm scm) { s with scm }
  | synced {featureRunId : String} {observed : ObservedPullRequestState} {rt : Runtime} :
    Stepped (.sync featureRunId observed rt) {
      s with
      db := syncMirror featureRunId observed rt s.db }
  | arrived {n : ℕ} {request : MergeRequest} {rt : Runtime} {call : MergeCall}
    (hcall : request.validate = .ok call) :
    Stepped (.arrive n request rt) { s with routes := s.put n { call, slot := .at rt } }
  | advanced {n : ℕ} {rt : Runtime} {route : Route} (hroute : s.routes n = some route) :
    Stepped (.route n rt) (s.stepRoute n rt route)
  | called {n : ℕ} {behaviour : ServerBehaviour} {message : String} {route : Route}
    {target : MergeTarget} {version : ℕ} (hroute : s.routes n = some route)
    (hphase : route.phase = .calling target version) :
    Stepped (.call n behaviour message) (s.callScm n route target version behaviour message)
  | ended {e : MergeEvent} {n : ℕ} {route : Route} {phase : RoutePhase}
    (hroute : s.routes n = some route) (hquiet : phase.IsQuiet)
    (hdone : route.phase.IsDone → phase.IsDone) :
    Stepped e { s with routes := s.put n { route with phase } }

variable {s : MergeState} {n k : ℕ} {route route' : Route} {e : MergeEvent}

theorem stepped_elim {f : Route → MergeState}
    (hf : ∀ route, s.routes n = some route → s.Stepped e (f route)) :
    s.Stepped e ((s.routes n).elim s f) := by
  cases hn : s.routes n with
  | none => exact .idle
  | some route => exact hf route hn

/-- **Everything that a step can do.** -/
theorem next_stepped (s : MergeState) (e : MergeEvent) : s.Stepped e (s.next e) := by
  cases e with
  | sys e => exact .sys
  | scm scm => exact .scm
  | sync featureRunId observed rt => exact .synced
  | arrive n request rt =>
    show s.Stepped _ (s.arriveRoute n request rt)
    unfold arriveRoute
    split
    · rename_i hcall
      exact .arrived hcall
    · exact .idle
  | route n rt => exact stepped_elim fun route hroute => .advanced hroute
  | call n behaviour message =>
    refine stepped_elim fun route hroute => ?_
    unfold callRoute
    split
    · rename_i hphase
      exact .called hroute hphase
    · exact .idle
  | unresolved n =>
    refine stepped_elim fun route hroute => ?_
    unfold loseRoute
    split
    · rename_i hphase
      exact .ended hroute trivial fun hdone => by simp [hphase, RoutePhase.IsDone] at hdone
    · exact .idle
  | crash n => exact stepped_elim fun route hroute => .ended hroute trivial fun _ => trivial

theorem next_route {rt : Runtime} (hroute : s.routes n = some route) :
    s.next (.route n rt) = s.stepRoute n rt route := by
  show (s.routes n).elim s (s.stepRoute n rt) = _
  rw [hroute]
  rfl

theorem next_call {behaviour : ServerBehaviour} {message : String} {target : MergeTarget}
    {version : ℕ} (hroute : s.routes n = some route)
    (hphase : route.phase = .calling target version) :
    s.next (.call n behaviour message) = s.callScm n route target version behaviour message := by
  show (s.routes n).elim s (s.callRoute n behaviour message) = _
  rw [hroute, Option.elim_some, callRoute, hphase]

theorem put_cases (h : s.put n route k = some route') :
    (k = n ∧ route' = route) ∨ s.routes k = some route' := by
  unfold put at h
  by_cases hk : k = n
  · rw [hk, Function.update_self] at h
    exact Or.inl ⟨hk, (Option.some.inj h).symm⟩
  · rw [Function.update_of_ne hk] at h
    exact Or.inr h

/-- How a request came to be where it is after a step. -/
inductive RouteMove : MergeEvent → ℕ → Route → Prop
  | kept {e : MergeEvent} {k : ℕ} {route : Route} (hroute : s.routes k = some route) :
    RouteMove e k route
  | arrived {k : ℕ} {request : MergeRequest} {rt : Runtime} {call : MergeCall}
    (hcall : request.validate = .ok call) :
    RouteMove (.arrive k request rt) k { call, slot := .at rt }
  | advanced {k : ℕ} {rt : Runtime} {route : Route} (hroute : s.routes k = some route) :
    RouteMove (.route k rt) k { route with phase := (route.advance rt s.db).2 }
  | answered {k : ℕ} {behaviour : ServerBehaviour} {message : String} {route : Route}
    {target : MergeTarget} {version : ℕ} (hroute : s.routes k = some route)
    (hphase : route.phase = .calling target version) :
    RouteMove (.call k behaviour message) k
      { route with phase := Route.answered version (mergePullRequest target.key.prNumber
        (s.scm.reply target.options behaviour message)) }
  | ended {e : MergeEvent} {k : ℕ} {route : Route} {phase : RoutePhase}
    (hroute : s.routes k = some route) (hquiet : phase.IsQuiet)
    (hdone : route.phase.IsDone → phase.IsDone) :
    RouteMove e k { route with phase }

/-- **Where a request can be after a step.** -/
theorem routes_next (h : (s.next e).routes k = some route') : s.RouteMove e k route' := by
  have hstep := s.next_stepped e
  generalize s.next e = s' at h hstep
  cases hstep with
  | idle => exact .kept h
  | sys => exact .kept h
  | scm => exact .kept h
  | synced => exact .kept h
  | arrived hcall =>
    rcases put_cases h with ⟨rfl, rfl⟩ | hkept
    · exact .arrived hcall
    · exact .kept hkept
  | advanced hroute =>
    rcases put_cases h with ⟨rfl, rfl⟩ | hkept
    · exact .advanced hroute
    · exact .kept hkept
  | called hroute hphase =>
    rcases put_cases h with ⟨rfl, rfl⟩ | hkept
    · exact .answered hroute hphase
    · exact .kept hkept
  | ended hroute hquiet hdone =>
    rcases put_cases h with ⟨rfl, rfl⟩ | hkept
    · exact .ended hroute hquiet hdone
    · exact .kept hkept

/-- A number is free until a request of that number arrives. -/
theorem routes_after_none {es : List MergeEvent} (hk : s.routes k = none)
    (hes : ∀ e ∈ es, e.arrival ≠ some k) : (s.after es).routes k = none := by
  induction es generalizing s with
  | nil => exact hk
  | cons e es ih =>
    obtain ⟨he, hes⟩ := List.forall_mem_cons.mp hes
    refine ih ?_ hes
    rcases hroute : (s.next e).routes k with _ | route'
    · rfl
    · cases routes_next hroute with
      | kept hbefore => exact absurd (hk.symm.trans hbefore) (by simp)
      | arrived hcall => exact absurd rfl he
      | advanced hbefore => exact absurd (hk.symm.trans hbefore) (by simp)
      | answered hbefore hphase => exact absurd (hk.symm.trans hbefore) (by simp)
      | ended hbefore hquiet hdone => exact absurd (hk.symm.trans hbefore) (by simp)

/-! ### The histories -/

/-- No evaluation is forgotten. -/
theorem evaluations_next (e : MergeEvent) : s.evaluations ⊆ (s.next e).evaluations := by
  have hstep := s.next_stepped e
  generalize s.next e = s' at hstep
  cases hstep with
  | sys => exact List.subset_append_right _ _
  | advanced hroute => exact List.subset_append_right _ _
  | _ => exact List.Subset.refl _

/-- The evidence phase of a request is recorded. -/
theorem mem_evaluations_next {rt : Runtime} {step : RouteStep} {commandId : String}
    (hroute : s.routes n = some route) (hphase : route.phase = .gathering step commandId) :
    ⟨step.request route.call commandId, s.db, rt⟩ ∈ (s.next (.route n rt)).evaluations := by
  rw [next_route hroute]
  refine List.mem_append_left _ ?_
  rw [Route.evaluation, hphase]
  exact List.mem_singleton.mpr rfl

/-- The SCM performed a merge on the call of a request. -/
def Performed (s : MergeState) (e : MergeEvent) (merge : Merge) : Prop :=
  ∃ n behaviour message route target version,
    e = .call n behaviour message ∧ s.routes n = some route ∧
      route.phase = .calling target version ∧
      s.scm.mergedHead target.options behaviour = some merge.head ∧
      merge.featureRunId = route.call.featureRunId ∧ merge.key = target.key

/-- **A merge is on record because it was, or because the SCM has just performed it.** -/
theorem merges_next {merge : Merge} (h : merge ∈ (s.next e).merges) :
    merge ∈ s.merges ∨ s.Performed e merge := by
  have hstep := s.next_stepped e
  generalize s.next e = s' at h hstep
  cases hstep with
  | called hroute hphase =>
    rcases List.mem_append.mp h with hmerge | hold
    · obtain ⟨head, hhead, rfl⟩ := Option.map_eq_some_iff.mp (Option.mem_toList.mp hmerge)
      exact Or.inr ⟨_, _, _, _, _, _, rfl, hroute, hphase, hhead, rfl, rfl⟩
    · exact Or.inl hold
  | _ => exact Or.inl h

end MergeState

/-! ### A pull request for examples -/

/-- A project with a run at a given state, and its pull request at a given head. -/
def reviewedDb (state : FeatureExecutionState) (head ciStatus : String) : Db where
  featureRequests := .ofList [{ id := "request-1", projectId := "P" }]
  featureRuns := .ofList [
    { id := "run-1", featureRequestId := "request-1", currentExecutionState := state }]
  workflowStates := .ofList [
    { id := "state", projectId := "P", activeFeatureRunId := some "run-1" }]
  repositories := .ofList [{ id := "repo", projectId := "P", owner := "acme", name := "widgets" }]
  pullRequests := .ofList [
    { id := "pr", featureRunId := "run-1", prNumber := 1, branchName := "feature"
      baseBranch := "main", headSha := some head, ciStatus, mergeable := some true }]

/-- The run is approved, and its pull request is at head `A`. -/
def approvedState : MergeState where
  db := reviewedDb .approvedByPolicy "A" "passed"
  scm := { pullRequests := [{ key := ⟨"acme", "widgets", 1⟩, head := "A" }] }

/-- An approver's request to merge it. -/
def sampleRequest : MergeRequest where
  featureRunId := some "run-1"
  projectId := some "P"
  idempotencyKey := some "K"
  actor := ⟨"approver", .approver, .human⟩
  correlationId := "merge"

/-- The request arrives at a given time, and takes a number of steps. -/
def requestUpTo (n start steps : ℕ) : List MergeEvent :=
  .arrive n sampleRequest (sampleRuntime start) ::
    (List.range steps).map fun i => .route n (sampleRuntime (start + 1 + i))

end MiniCoder
