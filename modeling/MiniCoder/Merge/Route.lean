import MiniCoder.Domain.Text
import MiniCoder.Merge.Scm
import MiniCoder.System

/-!
# `POST /commands/merge-if-ready`

The route claims its `Idempotency-Key`, reads the run, the mirror of its pull request and the
repository, dispatches `MergeIfReadyCommand`, calls the SCM, and dispatches the commands that record
the outcome.  Each of these is a step of its own on the database, between which other requests run:
a `Route` is a request with the phase it has come to, and `act` is its next step.  A command takes
the executor's three steps: the cache lookup, the evidence phase and the transaction.

What the route does with an error depends on how far it has come: before the SCM has merged, it
releases its claim, so that the same key can be tried again; afterwards, it leaves the claim in
place.

* `advances`: what each step read, for every phase that goes on to another.
* `advance_did`: only a transaction changes anything but claims and evidence rows.
-/

open Storage Storage.Action

namespace MiniCoder

/-! ### Claims of a route -/

/-- `ROUTE_IDEMPOTENCY_SCOPE`. -/
def routeIdempotencyScope : String := "merge-if-ready-route"

/-- `ROUTE_IDEMPOTENCY_TTL_MS`. -/
def routeIdempotencyTtlMs : ℤ := 7 * 24 * 60 * 60 * 1000

/-- The slot a request claims, with the times of the claim. -/
structure RouteSlot where
  claimId : String
  now : ℤ
  expiresAt : ℤ
  deriving DecidableEq, Repr

/-- The slot of a request that arrives. -/
def RouteSlot.at (rt : Runtime) : RouteSlot where
  claimId := rt.ids 0
  now := rt.now
  expiresAt := rt.now + routeIdempotencyTtlMs

/-- `claimRouteIdempotencyKey`, first statement: an expired row makes way. -/
def clearRouteKey (key : String) (slot : RouteSlot) : Sql Unit :=
  execute fun db => some ((), db.deleteExpiredKey key routeIdempotencyScope slot.now)

/-- `claimRouteIdempotencyKey`, second statement; returns the number of rows inserted. -/
def insertRouteKey (key : String) (slot : RouteSlot) : Sql ℕ :=
  execute fun db => db.insertKey {
    id := slot.claimId, key, scope := routeIdempotencyScope, expiresAt := slot.expiresAt }

/-- `parseJsonField<RouteResponse>`: an unchecked cast; a result without a status cannot be sent. -/
def CachedResult.toRouteResponse : CachedResult → RouteResponse
  | route response => response
  | command _ => ⟨500, []⟩

/-- `claimRouteIdempotencyKey`, last statement: the response of the claim's holder, if it is there. -/
def readRouteKey (key : String) (slot : RouteSlot) : Sql (Option RouteResponse) := do
  let row ← query fun db => db.findLiveKey key routeIdempotencyScope slot.now
  pure ((row.bind (·.result)).map (·.toRouteResponse))

/-- `fulfillRouteIdempotencyKey`. -/
def fulfillRouteIdempotencyKey (claimId : String) (response : RouteResponse) : Sql Unit :=
  execute fun db => some ((), db.fulfillKey claimId (.route response))

/-- `releaseRouteIdempotencyKey`. -/
def releaseRouteIdempotencyKey (claimId : String) : Sql Unit :=
  execute fun db => some ((),
    { db with idempotencyKeys := db.idempotencyKeys.delete fun row => row.id == claimId })

/-! ### Requests -/

/-- What the route throws. -/
inductive RouteFailure
  | thrown (e : Failure)
  | notFound (resource id : String)
  | inProgress (key : String)
  | validation (detail : String)
  | missingIdempotencyKey
  /-- What a call outside the database threw. -/
  | outside
  deriving DecidableEq, Repr

/-- A request as it arrives: body, header and actor. -/
structure MergeRequest where
  featureRunId : Option String
  projectId : Option String
  idempotencyKey : Option String
  actor : ActorIdentity
  correlationId : String
  deriving DecidableEq, Repr

/-- A request that passed the checks of its fields. -/
structure MergeCall where
  featureRunId : String
  projectId : String
  key : String
  actor : ActorIdentity
  correlationId : String
  deriving DecidableEq, Repr

/-- The checks of the fields. -/
def MergeRequest.validate (request : MergeRequest) : Except RouteFailure MergeCall :=
  match truthy request.featureRunId, truthy request.projectId with
  | some featureRunId, some projectId =>
    match request.idempotencyKey.filter fun key => !key.toList.all isWhiteSpace with
    | some key => .ok {
        featureRunId, projectId, key
        actor := request.actor
        correlationId := request.correlationId }
    | none => .error .missingIdempotencyKey
  | _, _ => .error (.validation "featureRunId and projectId are required")

/-! ### Commands of the route -/

/-- What the route read of the pull request: where the SCM has it, and its mirrored head. -/
structure MergeTarget where
  key : PrKey
  headSha : Option String
  deriving DecidableEq, Repr

/-- `SELECT … FROM repositories WHERE project_id = ? LIMIT 1`. -/
def Db.findRepository (db : Db) (projectId : String) : Option Repository :=
  db.repositories.find? fun repo => repo.projectId == projectId

/-- The merge call: without a mirrored head, it names none. -/
def MergeTarget.options (target : MergeTarget) : MergePullRequestOptions where
  key := target.key
  expectedHeadSha := target.headSha

/-- The pull request of the mirror row in the repository. -/
def mergeTarget (repo : Repository) (pr : PullRequest) : MergeTarget where
  key := { owner := repo.owner, repo := repo.name, prNumber := pr.prNumber }
  headSha := pr.headSha

/-- A command that the route dispatches, with what the route goes on with. -/
inductive RouteStep
  | mergeIfReady (version : ℕ) (target : MergeTarget)
  | recordMerged (version : ℕ) (mergeSha : String)
  | recordMergeFailed (version : ℕ) (e : ScmMergeRejectedError)
  | reconcileMergeFailed (version : ℕ) (e : ScmMergeRejectedError)
  | escalateToHuman (version : ℕ) (e : ScmMergeRejectedError)
  deriving DecidableEq, Repr

namespace MergeCall

variable (call : MergeCall)

def ref (version : ℕ) : FeatureRunRef where
  featureRunId := call.featureRunId
  projectId := call.projectId
  expectedVersion := version

/-- The idempotency key of a command: each has one derived from the request's. -/
def keyOf (purpose : String) : String := s!"{call.key}:{purpose}"

/-- The envelope of a command. -/
def envelope {P : Type} (commandId purpose : String) (actor : ActorIdentity) (payload : P) :
    CommandEnvelope P where
  commandId
  idempotencyKey := call.keyOf purpose
  payload
  actor
  correlationId := call.correlationId

end MergeCall

namespace RouteStep

@[reducible] def command : RouteStep → FeatureCommand
  | mergeIfReady _ _ => .mergeIfReady
  | recordMerged _ _ => .recordMerged
  | recordMergeFailed _ _ => .recordMergeFailed
  | reconcileMergeFailed _ _ => .reconcileMergeFailed
  | escalateToHuman _ _ => .escalateToHuman

/-- The envelope of the command: the merge is the approver's, its record the system's. -/
def envelope (call : MergeCall) (commandId : String) :
    (step : RouteStep) → CommandEnvelope step.command.Payload
  | mergeIfReady version _ => call.envelope commandId "merge-ready" call.actor (call.ref version)
  | recordMerged version mergeSha => call.envelope commandId "record-merged" systemActor
      { call.ref version with mergeSha }
  | recordMergeFailed version e => call.envelope commandId "record-merge-failed" systemActor
      { call.ref version with reason := e.message, autoClearable := e.autoClearable }
  | reconcileMergeFailed version _ => call.envelope commandId "reconcile-merge-failed" systemActor
      (call.ref version)
  | escalateToHuman version e => call.envelope commandId "escalate-human-merge-failed" systemActor
      { call.ref version with reason := e.message }

def request (call : MergeCall) (commandId : String) (step : RouteStep) : Request where
  command := step.command
  envelope := step.envelope call commandId

theorem request_featureRunId (call : MergeCall) (commandId : String) (step : RouteStep) :
    (step.request call commandId).ref.featureRunId = call.featureRunId := by
  cases step <;> rfl

end RouteStep

/-! ### The phases of a request -/

/-- How a request ends. -/
inductive RouteOutcome
  | responded (response : RouteResponse)
  | failed (failure : RouteFailure)
  /-- The process died. -/
  | crashed
  deriving DecidableEq, Repr

/-- How far a request has come. -/
inductive RoutePhase
  | clearing
  | inserting
  | reading
  | claimed
  | found (version : ℕ)
  | mirrored (version : ℕ) (pr : Option PullRequest)
  /-- Before the cache lookup of a command. -/
  | checking (step : RouteStep)
  /-- Before its evidence phase. -/
  | gathering (step : RouteStep) (commandId : String)
  /-- Before its transaction. -/
  | committing (step : RouteStep) (commandId : String) (ev : step.command.handler.Evidence)
  /-- The merge-ready command returned. -/
  | dispatched (target : MergeTarget)
  /-- Before the call to the SCM. -/
  | calling (target : MergeTarget) (version : ℕ)
  /-- The rejection is recorded. -/
  | rejected (e : ScmMergeRejectedError)
  | responding (response : RouteResponse) (merged : Bool)
  | releasing (failure : RouteFailure)
  | done (outcome : RouteOutcome)

/-- `toCommandEnvelopeResponse`. -/
def toCommandEnvelopeResponse (result : CommandResult) : Payload := [
  ("command_id", .str result.commandId),
  ("accepted", .bool result.accepted),
  ("resulting_state", .str result.resultingState),
  ("emitted_event_ids", .strs result.emittedEventIds)]

/-- The response to a rejected merge. -/
def rejection (e : ScmMergeRejectedError) (resolution : FeatureExecutionState) : RouteResponse where
  status := 409
  body := [
    ("merged", .bool false),
    ("reason", .str e.message),
    ("autoClearable", .bool e.autoClearable),
    ("resolution", .str resolution.literal)]

/-- Where the route goes on after a command returned. -/
def RouteStep.after (result : CommandResult) : RouteStep → RoutePhase
  | mergeIfReady _ target => .dispatched target
  | recordMerged _ mergeSha => .responding {
      status := 200
      body := toCommandEnvelopeResponse result ++
        [("merged", .bool true), ("mergeSha", .str mergeSha)] } true
  | recordMergeFailed _ e => .rejected e
  | reconcileMergeFailed _ e => .responding (rejection e .underReview) false
  | escalateToHuman _ e => .responding (rejection e .humanRequired) false

/-- Where the route goes on after a command threw: a blocked gate is a response, and a merge that is
not recorded keeps its claim. -/
def RouteStep.onThrow (failure : RouteFailure) : RouteStep → RoutePhase
  | mergeIfReady _ _ =>
    match failure with
    | .thrown (.mergeGateBlocked reasons _) =>
      .responding ⟨409, [("merged", .bool false), ("reasons", .strs reasons)]⟩ false
    | failure => .releasing failure
  | recordMerged _ _ => .done (.failed failure)
  | _ => .releasing failure

/-- Where the route goes on after a step threw. -/
def RoutePhase.onThrow (failure : RouteFailure) : RoutePhase → RoutePhase
  -- before the claim is owned, and once the merge went through, there is nothing to release
  | clearing | inserting | reading | responding _ true | releasing _ => done (.failed failure)
  | checking step | gathering step _ | committing step _ _ => step.onThrow failure
  | done outcome => done outcome
  | _ => releasing failure

/-- A request that passed its checks, and its progress. -/
structure Route where
  call : MergeCall
  slot : RouteSlot
  phase : RoutePhase := .clearing

namespace Route

variable (route : Route)

/-- The run, and where the route goes on when it is not there. -/
def fetchFeatureRun (next : FeatureRun → RoutePhase) : Sql RoutePhase := do
  let run ← query fun db => db.findFeatureRun route.call.featureRunId route.call.projectId
  match run with
  | none => pure (.releasing (.notFound "feature-run" route.call.featureRunId))
  | some run => pure (next run)

/-- The call to the SCM follows a run that is merge-ready. -/
def callIfReady (target : MergeTarget) (run : FeatureRun) : RoutePhase :=
  if run.currentExecutionState = .mergeReady then .calling target run.version
  else
    let found := run.currentExecutionState.literal
    .releasing (.validation
      s!"Feature run {route.call.featureRunId} is not at merge_ready (found '{found}')")

/-- What the rejection of a merge leads to. -/
def settle (e : ScmMergeRejectedError) (run : FeatureRun) : RoutePhase :=
  if e.autoClearable = true then .checking (.reconcileMergeFailed run.version e)
  else .checking (.escalateToHuman run.version e)

/-- The next step on the database, from phase to phase. -/
def act : Sql RoutePhase :=
  match route.phase with
  | .clearing => do
    clearRouteKey route.call.key route.slot
    pure .inserting
  | .inserting => do
    let inserted ← insertRouteKey route.call.key route.slot
    if inserted = 1 then pure .claimed else pure .reading
  | .reading => do
    let response ← readRouteKey route.call.key route.slot
    match response with
    | some response => pure (.done (.responded response))
    | none => pure (.done (.failed (.inProgress route.call.key)))
  | .claimed => route.fetchFeatureRun fun run => .found run.version
  | .found version => do
    let pr ← query fun db => db.findPullRequest route.call.featureRunId
    pure (.mirrored version pr)
  | .mirrored version pr => do
    let repo ← query fun db => db.findRepository route.call.projectId
    match pr, repo with
    | some pr, some repo => pure (.checking (.mergeIfReady version (mergeTarget repo pr)))
    | _, _ => pure (.releasing (.notFound "pull-request-or-repository" route.call.featureRunId))
  | .checking step => do
    let commandId ← generateId
    let cached ← precheck (step.request route.call commandId).handler
      (step.request route.call commandId).envelope
    match cached with
    | some result => pure (step.after result)
    | none => pure (.gathering step commandId)
  | .gathering step commandId => do
    let ev ← (step.request route.call commandId).gather
    pure (.committing step commandId ev)
  | .committing step commandId ev => do
    let result ← (step.request route.call commandId).commit ev
    pure (step.after result)
  | .dispatched target => route.fetchFeatureRun (route.callIfReady target)
  | .rejected e => route.fetchFeatureRun (settle e)
  | .responding response _ => do
    fulfillRouteIdempotencyKey route.slot.claimId response
    pure (.done (.responded response))
  | .releasing failure => do
    releaseRouteIdempotencyKey route.slot.claimId
    pure (.done (.failed failure))
  | .calling target version => pure (.calling target version)
  | .done outcome => pure (.done outcome)

/-- The tables and the phase after the next step. -/
def advance (rt : Runtime) (db : Db) : Db × RoutePhase :=
  match exec route.act (.start db rt) with
  | (.ok phase, s) => (s.db, phase)
  | (.error e, s) => (s.db, route.phase.onThrow (.thrown e))

/-- Where the route goes on after the SCM's answer. -/
def answered (version : ℕ) : MergeOutcome → RoutePhase
  | .merged mergeSha => .checking (.recordMerged version mergeSha)
  | .rejected e => .checking (.recordMergeFailed version e)
  | .thrown => .releasing .outside

end Route

/-- The database without idempotency keys and evidence rows. -/
def Db.bare (db : Db) : Db := (Request.withoutKeys db).withoutEvidence

/-! ### What a step read -/

/-- The phases that carry neither a pull request nor a command. -/
def RoutePhase.IsQuiet : RoutePhase → Prop
  | clearing | inserting | reading | claimed | found _ | responding _ _ | releasing _ | done _ => True
  | _ => False

/-- The request is finished. -/
def RoutePhase.IsDone : RoutePhase → Prop
  | done _ => True
  | _ => False

instance : (phase : RoutePhase) → Decidable phase.IsDone
  | .done _ => isTrue trivial
  | .clearing | .inserting | .reading | .claimed | .found _ | .mirrored _ _ | .checking _
  | .gathering _ _ | .committing _ _ _ | .dispatched _ | .calling _ _ | .rejected _
  | .responding _ _ | .releasing _ => isFalse id

/-- What a step on the tables `db` reads, for every phase that it may lead to. -/
inductive RoutePhase.Leads (call : MergeCall) (rt : Runtime) (db : Db) :
    RoutePhase → RoutePhase → Prop
  | mirrored {version : ℕ} :
    Leads call rt db (.found version) (.mirrored version (db.findPullRequest call.featureRunId))
  | loaded {version : ℕ} {pr : PullRequest} {repo : Repository}
    (hrepo : db.findRepository call.projectId = some repo) :
    Leads call rt db (.mirrored version (some pr))
      (.checking (.mergeIfReady version (mergeTarget repo pr)))
  | missed {step : RouteStep} {commandId : String} :
    Leads call rt db (.checking step) (.gathering step commandId)
  | replayed {step : RouteStep} {commandId : String} {cached : CachedResult}
    (hcached : db.findCachedResult (step.request call commandId).envelope.idempotencyKey
      (step.request call commandId).handler.idempotencyScope rt.now = some cached) :
    Leads call rt db (.checking step) (step.after cached.toCommandResult)
  | gathered {step : RouteStep} {commandId : String} {ev : step.command.handler.Evidence}
    {s : Session} (hgather : exec (step.request call commandId).gather (.start db rt) = (.ok ev, s)) :
    Leads call rt db (.gathering step commandId) (.committing step commandId ev)
  | committed {step : RouteStep} {commandId : String} {ev : step.command.handler.Evidence}
    {result : CommandResult} {s : Session}
    (hcommit : exec ((step.request call commandId).commit ev) (.start db rt) = (.ok result, s)) :
    Leads call rt db (.committing step commandId ev) (step.after result)
  | ready {target : MergeTarget} {run : FeatureRun}
    (hrun : db.findFeatureRun call.featureRunId call.projectId = some run)
    (hstate : run.currentExecutionState = .mergeReady) :
    Leads call rt db (.dispatched target) (.calling target run.version)
  | settled {e : ScmMergeRejectedError} {run : FeatureRun} :
    Leads call rt db (.rejected e) (Route.settle e run)
  | waits {target : MergeTarget} {version : ℕ} :
    Leads call rt db (.calling target version) (.calling target version)
  | quiet {phase next : RoutePhase} (hnext : next.IsQuiet) : Leads call rt db phase next

/-- A transaction does not lead to the call. -/
theorem RoutePhase.Leads.not_committing {call : MergeCall} {rt : Runtime} {db : Db}
    {phase phase' : RoutePhase} (h : phase.Leads call rt db phase') {target : MergeTarget}
    {version : ℕ} (hphase' : phase' = .calling target version) (step : RouteStep)
    (commandId : String) (ev : step.command.handler.Evidence) :
    phase ≠ .committing step commandId ev := by
  rintro rfl
  cases h with
  | @committed step commandId ev result s hcommit => cases step <;> cases hphase'
  | quiet hquiet =>
    rw [hphase'] at hquiet
    exact hquiet

theorem RoutePhase.IsDone.isQuiet {phase : RoutePhase} (h : phase.IsDone) : phase.IsQuiet := by
  cases phase with
  | done outcome => trivial
  | _ => cases h

theorem RouteStep.isQuiet_onThrow (step : RouteStep) (failure : RouteFailure) :
    (step.onThrow failure).IsQuiet := by
  unfold RouteStep.onThrow
  split
  · split <;> trivial
  · trivial
  · trivial

theorem RoutePhase.isQuiet_onThrow (phase : RoutePhase) (failure : RouteFailure) :
    (phase.onThrow failure).IsQuiet := by
  unfold RoutePhase.onThrow
  split
  all_goals first | trivial | exact RouteStep.isQuiet_onThrow _ _

namespace Route

variable {route : Route} {rt : Runtime} {db : Db} {s s' : Session}

/-- A run that was read leads on, and a missing one ends the request. -/
theorem fetchFeatureRun_ok {next : FeatureRun → RoutePhase} {phase : RoutePhase}
    (h : exec (route.fetchFeatureRun next) s = (.ok phase, s')) :
    phase.IsQuiet ∨ ∃ run,
      s.db.findFeatureRun route.call.featureRunId route.call.projectId = some run ∧
        phase = next run := by
  obtain ⟨run, s₁, hquery, hrest⟩ := exec_bind_ok.mp h
  obtain ⟨hrun, -, -⟩ := query_ok hquery
  cases run with
  | none =>
    have hphase := Except.ok.inj (Prod.mk.inj hrest).1
    rw [← hphase]
    exact Or.inl trivial
  | some run =>
    have hphase := Except.ok.inj (Prod.mk.inj hrest).1
    exact Or.inr ⟨run, hrun.symm, hphase.symm⟩

/-- **What a step that returned read**, phase by phase. -/
theorem act_leads {phase : RoutePhase} (h : exec route.act (.start db rt) = (.ok phase, s')) :
    route.phase.Leads route.call rt db phase := by
  unfold act at h
  cases hphase : route.phase with
  | clearing =>
    rw [hphase] at h
    obtain ⟨_, s₁, -, hrest⟩ := exec_bind_ok.mp h
    rw [← Except.ok.inj (Prod.mk.inj hrest).1]
    exact .quiet trivial
  | inserting =>
    rw [hphase] at h
    obtain ⟨inserted, s₁, -, hrest⟩ := exec_bind_ok.mp h
    rw [exec_ite] at hrest
    split at hrest
    · rw [← Except.ok.inj (Prod.mk.inj hrest).1]
      exact .quiet trivial
    · rw [← Except.ok.inj (Prod.mk.inj hrest).1]
      exact .quiet trivial
  | reading =>
    rw [hphase] at h
    obtain ⟨response, s₁, -, hrest⟩ := exec_bind_ok.mp h
    cases response with
    | none =>
      rw [← Except.ok.inj (Prod.mk.inj hrest).1]
      exact .quiet trivial
    | some response =>
      rw [← Except.ok.inj (Prod.mk.inj hrest).1]
      exact .quiet trivial
  | claimed =>
    rw [hphase] at h
    rcases fetchFeatureRun_ok h with hquiet | ⟨run, -, rfl⟩
    · exact .quiet hquiet
    · exact .quiet trivial
  | found version =>
    rw [hphase] at h
    obtain ⟨pr, s₁, hquery, hrest⟩ := exec_bind_ok.mp h
    obtain ⟨rfl, -, -⟩ := query_ok hquery
    rw [← Except.ok.inj (Prod.mk.inj hrest).1]
    exact .mirrored
  | mirrored version pr =>
    rw [hphase] at h
    obtain ⟨repo, s₁, hquery, hrest⟩ := exec_bind_ok.mp h
    obtain ⟨hrepo, -, -⟩ := query_ok hquery
    cases pr with
    | none =>
      rw [← Except.ok.inj (Prod.mk.inj hrest).1]
      exact .quiet trivial
    | some pr =>
      cases repo with
      | none =>
        rw [← Except.ok.inj (Prod.mk.inj hrest).1]
        exact .quiet trivial
      | some repo =>
        rw [← Except.ok.inj (Prod.mk.inj hrest).1]
        exact .loaded hrepo.symm
  | checking step =>
    rw [hphase] at h
    obtain ⟨commandId, s₁, hid, h₁⟩ := exec_bind_ok.mp h
    obtain ⟨-, rfl⟩ := Prod.mk.inj hid
    obtain ⟨cached, s₂, hpre, h₂⟩ := exec_bind_ok.mp h₁
    obtain ⟨-, -, hcached⟩ := precheck_ok hpre
    cases cached with
    | none =>
      rw [← Except.ok.inj (Prod.mk.inj h₂).1]
      exact .missed
    | some result =>
      obtain ⟨cached, hfound, rfl⟩ := Option.map_eq_some_iff.mp hcached.symm
      rw [← Except.ok.inj (Prod.mk.inj h₂).1]
      exact .replayed hfound
  | gathering step commandId =>
    rw [hphase] at h
    obtain ⟨ev, s₁, hgather, hrest⟩ := exec_bind_ok.mp h
    rw [← Except.ok.inj (Prod.mk.inj hrest).1]
    exact .gathered hgather
  | committing step commandId ev =>
    rw [hphase] at h
    obtain ⟨result, s₁, hcommit, hrest⟩ := exec_bind_ok.mp h
    rw [← Except.ok.inj (Prod.mk.inj hrest).1]
    exact .committed hcommit
  | dispatched target =>
    rw [hphase] at h
    rcases fetchFeatureRun_ok h with hquiet | ⟨run, hrun, rfl⟩
    · exact .quiet hquiet
    · unfold callIfReady
      split
      · rename_i hstate
        exact .ready hrun hstate
      · exact .quiet trivial
  | calling target version =>
    rw [hphase] at h
    rw [← Except.ok.inj (Prod.mk.inj h).1]
    exact .waits
  | rejected e =>
    rw [hphase] at h
    rcases fetchFeatureRun_ok h with hquiet | ⟨run, -, rfl⟩
    · exact .quiet hquiet
    · exact .settled
  | responding response merged =>
    rw [hphase] at h
    obtain ⟨_, s₁, -, hrest⟩ := exec_bind_ok.mp h
    rw [← Except.ok.inj (Prod.mk.inj hrest).1]
    exact .quiet trivial
  | releasing failure =>
    rw [hphase] at h
    obtain ⟨_, s₁, -, hrest⟩ := exec_bind_ok.mp h
    rw [← Except.ok.inj (Prod.mk.inj hrest).1]
    exact .quiet trivial
  | done outcome =>
    rw [hphase] at h
    rw [← Except.ok.inj (Prod.mk.inj h).1]
    exact .quiet trivial

/-- **What a step read**: one that threw leads to a quiet phase. -/
theorem advances : route.phase.Leads route.call rt db (route.advance rt db).2 := by
  unfold advance
  rcases hact : exec route.act (.start db rt) with ⟨e | phase, s⟩
  · exact .quiet (RoutePhase.isQuiet_onThrow _ _)
  · exact act_leads hact

/-- A finished request stays finished. -/
theorem isDone_advance (h : route.phase.IsDone) : (route.advance rt db).2.IsDone := by
  unfold RoutePhase.IsDone at h
  split at h
  · rename_i hphase
    rw [advance, act, hphase]
    trivial
  · cases h

/-! ### What a step changed -/

theorem frame_fetchFeatureRun {τ : Type} {π : Session → τ} (hπ : SeesData π)
    (next : FeatureRun → RoutePhase) : Frame π (route.fetchFeatureRun next) := by
  refine frame_bind (frame_query hπ _) fun run => ?_
  cases run with
  | none => exact frame_pure _
  | some run => exact frame_pure _

/-- A step other than a transaction writes claims and evidence rows only. -/
theorem frame_act (h : ∀ step commandId ev, route.phase ≠ .committing step commandId ev) :
    Frame (fun s => s.db.bare) route.act := by
  have hπ : SeesData (fun s => s.db.bare) := fun _ _ _ => rfl
  unfold act
  cases hphase : route.phase with
  | clearing =>
    refine frame_bind (frame_execute hπ fun s _ db hdb => ?_) fun _ => frame_pure _
    obtain ⟨-, rfl⟩ := Prod.mk.inj (Option.some.inj hdb)
    rfl
  | inserting =>
    refine frame_bind (frame_execute hπ fun s _ db hdb => ?_) fun _ =>
      frame_ite (frame_pure _) (frame_pure _)
    unfold Db.insertKey at hdb
    split at hdb
    · obtain ⟨t, -, ht⟩ := Option.map_eq_some_iff.mp hdb
      rw [← (Prod.mk.inj ht).2]
      rfl
    · rw [← (Prod.mk.inj (Option.some.inj hdb)).2]
  | reading =>
    refine frame_bind (frame_bind (frame_query hπ _) fun _ => frame_pure _) fun response => ?_
    cases response with
    | none => exact frame_pure _
    | some response => exact frame_pure _
  | claimed => exact frame_fetchFeatureRun hπ _
  | found version => exact frame_bind (frame_query hπ _) fun _ => frame_pure _
  | mirrored version pr =>
    refine frame_bind (frame_query hπ _) fun repo => ?_
    cases pr with
    | none => exact frame_pure _
    | some pr =>
      cases repo with
      | none => exact frame_pure _
      | some repo => exact frame_pure _
  | checking step =>
    refine frame_bind (frame_generateId hπ) fun commandId =>
      frame_bind (frame_precheck hπ) fun cached => ?_
    cases cached with
    | none => exact frame_pure _
    | some result => exact frame_pure _
  | gathering step commandId =>
    have hevidence : Frame evidenceView (step.request route.call commandId).gather :=
      step.command.handler.evidence_only _
    exact frame_bind (hevidence.map fun v => Request.withoutKeys v.1) fun _ => frame_pure _
  | committing step commandId ev => exact absurd hphase (h step commandId ev)
  | dispatched target => exact frame_fetchFeatureRun hπ _
  | calling target version => exact frame_pure _
  | rejected e => exact frame_fetchFeatureRun hπ _
  | responding response merged =>
    refine frame_bind (frame_execute hπ fun s _ db hdb => ?_) fun _ => frame_pure _
    obtain ⟨-, rfl⟩ := Prod.mk.inj (Option.some.inj hdb)
    rfl
  | releasing failure =>
    refine frame_bind (frame_execute hπ fun s _ db hdb => ?_) fun _ => frame_pure _
    obtain ⟨-, rfl⟩ := Prod.mk.inj (Option.some.inj hdb)
    rfl
  | done outcome => exact frame_pure _

/-- A step other than a transaction changes claims and evidence rows only. -/
theorem advance_bare (h : ∀ step commandId ev, route.phase ≠ .committing step commandId ev) :
    (route.advance rt db).1.bare = db.bare := by
  have hbare : (exec route.act (.start db rt)).2.db.bare = db.bare := frame_act h (.start db rt)
  have hadvance : (route.advance rt db).1 = (exec route.act (.start db rt)).2.db := by
    unfold advance
    rcases exec route.act (.start db rt) with ⟨e | phase, s⟩ <;> rfl
  rw [hadvance]
  exact hbare

/-- A transaction changes what its command does. -/
theorem advance_commit {step : RouteStep} {commandId : String}
    {ev : step.command.handler.Evidence} (hphase : route.phase = .committing step commandId ev) :
    (route.advance rt db).1 =
      (exec ((step.request route.call commandId).commit ev) (.start db rt)).2.db := by
  rw [advance, act, hphase, exec_bind]
  rcases exec ((step.request route.call commandId).commit ev) (.start db rt) with
    ⟨e | result, s⟩ <;> rfl

/-- **What a step changed**: claims and evidence rows, unless it was a transaction that made its
transition. -/
theorem advance_did : (route.advance rt db).1.bare = db.bare ∨
    ∃ step commandId ev, route.phase = .committing step commandId ev ∧
      (step.request route.call commandId).Did ev rt db (route.advance rt db).1 := by
  by_cases hcommitting : ∃ step commandId ev, route.phase = .committing step commandId ev
  · obtain ⟨step, commandId, ev, hphase⟩ := hcommitting
    rw [advance_commit hphase]
    rcases SystemEvent.next_commit db (step.request route.call commandId) ev rt with hsame | hdid
    · exact Or.inl (congrArg Db.bare hsame)
    · exact Or.inr ⟨step, commandId, ev, hphase, hdid⟩
  · exact Or.inl (advance_bare fun step commandId ev h => hcommitting ⟨step, commandId, ev, h⟩)

end Route

end MiniCoder
