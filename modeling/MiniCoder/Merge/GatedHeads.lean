import MiniCoder.Merge.Machine

/-!
# What is merged was gated

The route reads the pull request's head first and has the SCM merge that head and no other; in
between, the merge-ready command evaluates the gate.  The head it merges was therefore gated when
that evaluation took place, and read the same head.  It takes place only when the command's key has
no cached result: a second attempt under the key of a first one that failed at the SCM finds the
result of the first, and merges whatever head it read itself.

* `backed_leads`: what a request carries of its evaluation, from phase to phase.
* `gated_merges`: in a run whose requests gate the heads they read, every merged head was gated.
* `ungated_merge`: a second attempt merges a head that no evaluation read.
-/

open Storage Storage.Action Runs

namespace MiniCoder

/-- The next step of a request does not take the merge-ready command's result from the cache, and
the evaluation it makes finds the head that the request has read. -/
def RoutePhase.GatesItsHead (call : MergeCall) (rt : Runtime) (db : Db) : RoutePhase → Prop
  | checking (.mergeIfReady _ _) =>
    db.findCachedResult (call.keyOf "merge-ready") mergeIfReadyHandler.idempotencyScope rt.now = none
  | gathering (.mergeIfReady _ target) _ =>
    target.headSha.isSome = true ∧
      (db.findPullRequest call.featureRunId).bind (·.headSha) = target.headSha
  | _ => True

instance (call : MergeCall) (rt : Runtime) (db : Db) :
    (phase : RoutePhase) → Decidable (phase.GatesItsHead call rt db)
  | .checking (.mergeIfReady _ _) => inferInstanceAs (Decidable (_ = none))
  | .gathering (.mergeIfReady _ _) _ => inferInstanceAs (Decidable (_ = true ∧ _ = _))
  | .checking (.recordMerged _ _) | .checking (.recordMergeFailed _ _)
  | .checking (.reconcileMergeFailed _ _) | .checking (.escalateToHuman _ _)
  | .gathering (.recordMerged _ _) _ | .gathering (.recordMergeFailed _ _) _
  | .gathering (.reconcileMergeFailed _ _) _ | .gathering (.escalateToHuman _ _) _
  | .clearing | .inserting | .reading | .claimed | .found _ | .mirrored _ _ | .committing _ _ _
  | .dispatched _ | .calling _ _ | .rejected _ | .responding _ _ | .releasing _ | .done _ =>
    isTrue trivial

namespace MergeState

/-- Some approved evaluation of the run found the head in the mirror row of its pull request. -/
def GatedHead (s : MergeState) (featureRunId head : String) : Prop :=
  ∃ e ∈ s.evaluations, e.Approved featureRunId ∧ ∃ pr, e.Passed pr ∧ pr.headSha = some head

/-- Every merge of the route is of a head that was gated for its run. -/
def MergesGated (s : MergeState) : Prop :=
  ∀ merge ∈ s.merges, s.GatedHead merge.featureRunId merge.head

/-- The requests gate the heads they read. -/
def GatesHeads (s : MergeState) : MergeEvent → Prop
  | .route n rt => ∀ route ∈ s.routes n, route.phase.GatesItsHead route.call rt s.db
  | _ => True

instance (s : MergeState) : (e : MergeEvent) → Decidable (s.GatesHeads e)
  | .route n rt =>
    inferInstanceAs (Decidable (∀ route ∈ s.routes n, route.phase.GatesItsHead route.call rt s.db))
  | .sys _ | .scm _ | .sync _ _ _ | .arrive _ _ _ | .call _ _ _ | .unresolved _ | .crash _ => isTrue trivial

/-- The head that a request is about to merge was gated. -/
def Backed (s : MergeState) (call : MergeCall) : RoutePhase → Prop
  | .committing (.mergeIfReady _ target) _ _ | .dispatched target | .calling target _ =>
    ∃ head, target.headSha = some head ∧ s.GatedHead call.featureRunId head
  | _ => True

variable {s s' : MergeState} {call : MergeCall} {phase phase' : RoutePhase} {rt : Runtime}

theorem GatedHead.mono (hsub : s.evaluations ⊆ s'.evaluations) {featureRunId head : String}
    (h : s.GatedHead featureRunId head) : s'.GatedHead featureRunId head := by
  obtain ⟨e, he, happroved⟩ := h
  exact ⟨e, hsub he, happroved⟩

theorem Backed.of_isQuiet (h : phase.IsQuiet) : s.Backed call phase := by
  cases phase with
  | committing step commandId ev => cases h
  | dispatched target => cases h
  | calling target version => cases h
  | _ => trivial

theorem Backed.mono (hsub : s.evaluations ⊆ s'.evaluations) (h : s.Backed call phase) :
    s'.Backed call phase := by
  have htarget : ∀ target : MergeTarget,
      (∃ head, target.headSha = some head ∧ s.GatedHead call.featureRunId head) →
        ∃ head, target.headSha = some head ∧ s'.GatedHead call.featureRunId head := by
    rintro target ⟨head, hhead, hgated⟩
    exact ⟨head, hhead, hgated.mono hsub⟩
  cases phase with
  | committing step commandId ev =>
    cases step with
    | mergeIfReady version target => exact htarget target h
    | _ => trivial
  | dispatched target => exact htarget target h
  | calling target version => exact htarget target h
  | _ => trivial

/-- An evaluation that went on gated the head it found. -/
theorem gatedHead_of_gather {version : ℕ} {target : MergeTarget} {commandId head : String}
    {ev : MergeGateEvaluationResult} {session : Session}
    (hgather : exec ((RouteStep.mergeIfReady version target).request call commandId).gather
      (.start s.db rt) = (.ok ev, session))
    (hhead : (s.db.findPullRequest call.featureRunId).bind (·.headSha) = some head)
    (hmem : ⟨(RouteStep.mergeIfReady version target).request call commandId, s.db, rt⟩ ∈
      s'.evaluations) :
    s'.GatedHead call.featureRunId head := by
  refine ⟨_, hmem, ⟨rfl, rfl, ev, session, hgather⟩, ?_⟩
  obtain ⟨run, pr, hrun, hpassed, -, -⟩ := gateEvidence_ok hgather
  refine ⟨pr, ⟨run, hrun, hpassed⟩, ?_⟩
  have htracked : s.db.findPullRequest call.featureRunId = some pr := hpassed.tracked
  rw [htracked] at hhead
  exact hhead

/-- **What a request carries of its evaluation, from phase to phase.** -/
theorem backed_leads (hsub : s.evaluations ⊆ s'.evaluations)
    (hmem : ∀ step commandId, phase = .gathering step commandId →
      ⟨step.request call commandId, s.db, rt⟩ ∈ s'.evaluations)
    (hleads : phase.Leads call rt s.db phase') (hbacked : s.Backed call phase)
    (hgates : phase.GatesItsHead call rt s.db) : s'.Backed call phase' := by
  cases hleads with
  | mirrored => trivial
  | loaded hrepo => trivial
  | missed => trivial
  | @replayed step commandId cached hcached =>
    cases step with
    | mergeIfReady version target =>
      -- the command's key has no cached result
      have hnone : s.db.findCachedResult (call.keyOf "merge-ready")
          mergeIfReadyHandler.idempotencyScope rt.now = none := hgates
      have hsome : s.db.findCachedResult (call.keyOf "merge-ready")
          mergeIfReadyHandler.idempotencyScope rt.now = some cached := hcached
      rw [hnone] at hsome
      cases hsome
    | _ => trivial
  | @gathered step commandId ev session hgather =>
    cases step with
    | mergeIfReady version target =>
      obtain ⟨head, hhead⟩ := Option.isSome_iff_exists.mp hgates.1
      refine ⟨head, hhead, gatedHead_of_gather hgather ?_ (hmem _ _ rfl)⟩
      rw [hgates.2, hhead]
    | _ => trivial
  | @committed step commandId ev result session hcommit =>
    cases step with
    | mergeIfReady version target =>
      have hdispatched : s.Backed call (.dispatched target) := hbacked
      exact hdispatched.mono hsub
    | _ => trivial
  | @ready target run hrun hstate =>
    have hcalling : s.Backed call (.calling target run.version) := hbacked
    exact hcalling.mono hsub
  | settled =>
    unfold Route.settle
    split
    · trivial
    · trivial
  | waits => exact hbacked.mono hsub
  | quiet hquiet => exact Backed.of_isQuiet hquiet

/-- The merges on record are gated, and so are the heads that are about to be merged. -/
structure HeadsGated (s : MergeState) : Prop where
  merges : s.MergesGated
  routes : ∀ n route, s.routes n = some route → s.Backed route.call route.phase

/-- A request that has its answer from the SCM carries no head. -/
theorem Backed.answered (version : ℕ) (outcome : MergeOutcome) :
    s.Backed call (Route.answered version outcome) := by
  cases outcome with
  | merged mergeSha => trivial
  | rejected e => trivial
  | thrown => trivial

/-- **What one step preserves.** -/
theorem headsGated_next (s : MergeState) (e : MergeEvent) (h : s.HeadsGated)
    (hgates : s.GatesHeads e) : (s.next e).HeadsGated := by
  have hsub := s.evaluations_next e
  constructor
  · intro merge hmerge
    rcases merges_next hmerge with hold | hperformed
    · exact (h.merges merge hold).mono hsub
    · obtain ⟨n, behaviour, message, route, target, version, -, hroute, hphase, hhead, hrun, -⟩ :=
        hperformed
      have hbacked := h.routes n route hroute
      rw [hphase] at hbacked
      obtain ⟨head, hsha, hgated⟩ := hbacked
      -- the SCM merges the head that the call names
      obtain ⟨pr, -, -, -, hexpected⟩ := Scm.mergedHead_some hhead
      have hmerged : head = merge.head := hexpected head hsha
      rw [hrun, ← hmerged]
      exact hgated.mono hsub
  · intro k route' hroute'
    cases routes_next hroute' with
    | kept hroute => exact (h.routes k route' hroute).mono hsub
    | arrived hcall => trivial
    | @advanced _ rt route hroute =>
      have hnext : (s.next (.route k rt)).Backed route.call (route.advance rt s.db).2 :=
        backed_leads hsub (fun step commandId hphase => mem_evaluations_next hroute hphase)
          route.advances (h.routes k route hroute) (hgates route hroute)
      exact hnext
    | answered hroute hphase => exact Backed.answered _ _
    | ended hroute hquiet hdone => exact Backed.of_isQuiet hquiet

end MergeState

open MergeState

/-- **What is merged was gated**: in a run whose requests take no merge-ready result from the cache,
and evaluate the gate on the head they have read, every head that the SCM merges on a call of the
route was, at an approved evaluation of its run, the head in the mirror row of its pull request. -/
theorem gated_merges (s : MergeState) (es : List MergeEvent) (hs : s.IsFresh)
    (hgates : Along next GatesHeads s es) : Throughout next MergesGated s es := by
  have hstart : s.HeadsGated := by
    constructor
    · intro merge hmerge
      rw [hs.merges] at hmerge
      cases hmerge
    · intro n route hroute
      rw [hs.routes n] at hroute
      cases hroute
  exact (throughout_of_step headsGated_next hstart hgates).imp fun s h => h.merges

/-- A request merges the head it read. -/
theorem gated_merges_sample :
    Throughout next MergesGated approvedState (requestUpTo 0 0 9 ++ [.call 0 (.merges "M") ""]) :=
  gated_merges approvedState _ ⟨fun _ => rfl, rfl⟩ (by decide +kernel)

/-- What is observed after the push of a head whose checks fail. -/
def pushObserved : ObservedPullRequestState where
  headSha := some "B"
  state := "open"
  reviewState := "none"
  ciStatus := "failed"
  mergeable := some true
  blockingLabels := []
  conversationsResolved := false
  mergedAt := none
  mergeSha := none
  closedAt := none

/-- The first attempt fails at the SCM and releases its claim; then a new head is pushed and
mirrored, and its checks fail; then the request is made again, under the same key. -/
def retryAfterPush : List MergeEvent :=
  requestUpTo 0 0 9 ++ [.call 0 (.lost false) "", .route 0 (sampleRuntime 10)] ++
  [.scm { pullRequests := [{ key := ⟨"acme", "widgets", 1⟩, head := "B" }] },
    .sync "run-1" pushObserved (sampleRuntime 11)] ++
  requestUpTo 1 12 7 ++ [.call 1 (.merges "M") ""]

/-- The second attempt merges the new head; the only evaluation was of the first. -/
theorem ungated_merge : ¬ (approvedState.after retryAfterPush).MergesGated := by
  intro hgated
  have hmerges : (approvedState.after retryAfterPush).merges =
      [⟨"run-1", ⟨"acme", "widgets", 1⟩, "B"⟩] := by decide +kernel
  have hheads : ∀ e ∈ (approvedState.after retryAfterPush).evaluations,
      (e.db.findPullRequest e.request.ref.featureRunId).bind (·.headSha) = some "A" := by
    decide +kernel
  obtain ⟨e, he, -, pr, ⟨run, -, hpassed⟩, hhead⟩ :=
    hgated ⟨"run-1", ⟨"acme", "widgets", 1⟩, "B"⟩ (by rw [hmerges]; exact List.mem_singleton.mpr rfl)
  have hseen := hheads e he
  have htracked : e.db.findPullRequest e.request.ref.featureRunId = some pr := hpassed.tracked
  rw [htracked] at hseen
  have hsame : some "B" = some "A" := hhead.symm.trans hseen
  simp at hsame

end MiniCoder
