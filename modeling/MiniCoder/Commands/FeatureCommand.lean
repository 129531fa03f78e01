import MiniCoder.Commands.Handlers.Github
import MiniCoder.Commands.Handlers.Merge

/-!
# The feature-execution commands

Every handler that moves a feature run, as one enumeration, so that a statement about "any command"
is a statement about `FeatureCommand`.  A `Request` is a command with an envelope for it.

* `Step`: what a committed request found and did, as a step of the feature-execution machine.
* `commit_ok`: a committed request replayed a stored result, or made its transition.
* `commit_error`: a request that threw left every table as it was.
* `gather_evidence`: the evidence phase writes evidence rows only.
* `commit_cases`, `execute_uncached`: a request under a key without a live result made its transition.
-/

open Storage Storage.Action

namespace MiniCoder

/-- The feature-execution commands. -/
inductive FeatureCommand
  | selectFeature
  | startCoding
  | startFixing
  | recordCodePushed
  | escalateToHuman
  | retryFeature
  | resumeFeatureExecution
  | resolveDisagreement
  | blockFeature
  | unblockFeature
  | humanUnblockFeature
  | skipFeature
  | recordMerged
  | recordMergeFailed
  | reconcileMergeFailed
  | recordPrOpened
  | recordCiRunning
  | recordCiPassed
  | recordCiFailed
  | recordChangesRequested
  | requestChangesAfterCiFail
  | recordApprovedByPolicy
  | mergeIfReady
  deriving DecidableEq, Repr

namespace FeatureCommand

/-- The payload of a command. -/
@[reducible] def Payload : FeatureCommand → Type
  | selectFeature => SelectFeaturePayload
  | startCoding => StartCodingPayload
  | startFixing => StartFixingPayload
  | recordCodePushed => RecordCodePushedPayload
  | escalateToHuman => EscalateToHumanPayload
  | retryFeature => RetryFeaturePayload
  | resumeFeatureExecution => ResumeFeatureExecutionPayload
  | resolveDisagreement => ResolveDisagreementPayload
  | blockFeature => BlockFeaturePayload
  | unblockFeature => UnblockFeaturePayload
  | humanUnblockFeature => HumanUnblockFeaturePayload
  | skipFeature => SkipFeaturePayload
  | recordMerged => RecordMergedPayload
  | recordMergeFailed => RecordMergeFailedPayload
  | reconcileMergeFailed => ReconcileMergeFailedPayload
  | recordPrOpened => RecordPrOpenedPayload
  | recordCiRunning => RecordCiRunningPayload
  | recordCiPassed => RecordCiPassedPayload
  | recordCiFailed => RecordCiFailedPayload
  | recordChangesRequested => RecordChangesRequestedPayload
  | requestChangesAfterCiFail => RequestChangesAfterCiFailPayload
  | recordApprovedByPolicy => RecordApprovedByPolicyPayload
  | mergeIfReady => MergeIfReadyPayload

/-- The handler of a command. -/
def handler : (c : FeatureCommand) → FeatureHandler c.Payload
  | selectFeature => selectFeatureHandler
  | startCoding => startCodingHandler
  | startFixing => startFixingHandler
  | recordCodePushed => recordCodePushedHandler
  | escalateToHuman => escalateToHumanHandler
  | retryFeature => retryFeatureHandler
  | resumeFeatureExecution => resumeFeatureExecutionHandler
  | resolveDisagreement => resolveDisagreementHandler
  | blockFeature => blockFeatureHandler
  | unblockFeature => unblockFeatureHandler
  | humanUnblockFeature => humanUnblockFeatureHandler
  | skipFeature => skipFeatureHandler
  | recordMerged => recordMergedHandler
  | recordMergeFailed => recordMergeFailedHandler
  | reconcileMergeFailed => reconcileMergeFailedHandler
  | recordPrOpened => recordPrOpenedHandler
  | recordCiRunning => recordCiRunningHandler
  | recordCiPassed => recordCiPassedHandler
  | recordCiFailed => recordCiFailedHandler
  | recordChangesRequested => recordChangesRequestedHandler
  | requestChangesAfterCiFail => requestChangesAfterCiFailHandler
  | recordApprovedByPolicy => recordApprovedByPolicyHandler
  | mergeIfReady => mergeIfReadyHandler

/-- The run a payload names, with the version its caller read. -/
def ref : (c : FeatureCommand) → c.Payload → FeatureRunRef
  | selectFeature, p | startCoding, p | startFixing, p | unblockFeature, p
  | reconcileMergeFailed, p | requestChangesAfterCiFail, p | recordApprovedByPolicy, p
  | mergeIfReady, p => p
  | recordCodePushed, p => p.toFeatureRunRef
  | escalateToHuman, p => p.toFeatureRunRef
  | retryFeature, p | blockFeature, p | humanUnblockFeature, p | skipFeature, p =>
    p.toFeatureRunRef
  | resumeFeatureExecution, p => p.toFeatureRunRef
  | resolveDisagreement, p => p.toFeatureRunRef
  | recordMerged, p => p.toFeatureRunRef
  | recordMergeFailed, p => p.toFeatureRunRef
  | recordPrOpened, p => p.toFeatureRunRef
  | recordCiRunning, p | recordCiPassed, p => p.toFeatureRunRef
  | recordCiFailed, p => p.toFeatureRunRef
  | recordChangesRequested, p => p.toFeatureRunRef

/-- The state a command moves its run to. -/
def target : FeatureCommand → FeatureExecutionState
  | selectFeature | retryFeature => .selected
  | startCoding => .coding
  | startFixing => .fixing
  | recordCodePushed => .codePushed
  | escalateToHuman => .humanRequired
  | resumeFeatureExecution | reconcileMergeFailed | recordCiPassed => .underReview
  | resolveDisagreement | recordChangesRequested | requestChangesAfterCiFail => .changesRequested
  | blockFeature => .blocked
  | unblockFeature | humanUnblockFeature => .approvedPendingExecution
  | skipFeature => .skipped
  | recordMerged => .merged
  | recordMergeFailed => .mergeFailed
  | recordPrOpened => .prOpened
  | recordCiRunning => .ciRunning
  | recordCiFailed => .ciFailed
  | recordApprovedByPolicy => .approvedByPolicy
  | mergeIfReady => .mergeReady

/-- What a command does to the active-run pointer. -/
def pointer : FeatureCommand → PointerMove
  | selectFeature => .claim
  | blockFeature | skipFeature | recordMerged => .release
  | _ => .keep

end FeatureCommand

/-- A command with an envelope for it. -/
structure Request where
  command : FeatureCommand
  envelope : CommandEnvelope command.Payload

namespace Request

variable (request : Request)

/-- What the evidence phase of the request hands to its transaction. -/
abbrev Evidence : Type := request.command.handler.Evidence

/-- The handler, as the executor sees it. -/
abbrev handler : CommandHandler request.command.Payload :=
  request.command.handler.toCommandHandler

/-- The run the request is about, and the version its caller read. -/
def ref : FeatureRunRef := request.command.ref request.envelope.payload

/-- The evidence phase. -/
def gather : Sql request.Evidence := request.command.handler.evidence request.envelope

/-- The transaction. -/
def commit (ev : request.Evidence) : Sql CommandResult :=
  request.handler.transact request.envelope ev

/-- The whole call, through the executor. -/
def execute : Sql CommandResult := executeCommand request.handler request.envelope

/-- The transition of the request. -/
def transition (ev : request.Evidence) : Transition :=
  request.command.handler.transition request.envelope ev

/-! ### The data of the transitions -/

variable {request}

theorem transition_ref (ev : request.Evidence) :
    (request.transition ev).toFeatureRunRef = request.ref := by
  rcases request with ⟨command, envelope⟩
  cases command <;> rfl

@[simp] theorem transition_toState (ev : request.Evidence) :
    (request.transition ev).toState = request.command.target := by
  rcases request with ⟨command, envelope⟩
  cases command <;> rfl

@[simp] theorem transition_pointer (ev : request.Evidence) :
    (request.transition ev).pointer = request.command.pointer := by
  rcases request with ⟨command, envelope⟩
  cases command <;> rfl

@[simp] theorem transition_featureRunId (ev : request.Evidence) :
    (request.transition ev).featureRunId = request.ref.featureRunId :=
  congrArg FeatureRunRef.featureRunId (transition_ref ev)

@[simp] theorem transition_projectId (ev : request.Evidence) :
    (request.transition ev).projectId = request.ref.projectId :=
  congrArg FeatureRunRef.projectId (transition_ref ev)

@[simp] theorem transition_expectedVersion (ev : request.Evidence) :
    (request.transition ev).expectedVersion = request.ref.expectedVersion :=
  congrArg FeatureRunRef.expectedVersion (transition_ref ev)

/-! ### What the phases of a request did -/

variable {s s' : Session}

/-- The database without the idempotency keys. -/
def withoutKeys (db : Db) : Db := { db with idempotencyKeys := .empty }

/-- Two databases that differ in the keys only. -/
theorem eq_of_withoutKeys {db db' : Db} (h : withoutKeys db' = withoutKeys db) :
    db' = { db with idempotencyKeys := db'.idempotencyKeys } :=
  congrArg (fun d => { d with idempotencyKeys := db'.idempotencyKeys }) h

/-- What a committed request did to the tables, when it was not a replay: between the claim and the
fulfilment of its key, it made its transition. -/
def Did (request : Request) (ev : request.Evidence) (rt : Runtime) (db db' : Db) : Prop :=
  ∃ keys keys' db₂ run,
    Moved (request.transition ev) rt { db with idempotencyKeys := keys } db₂ run ∧
      db' = { db₂ with idempotencyKeys := keys' }

/-- What a request of `run` does to one row: it moves its own run, and cascades to the others. -/
def Change (request : Request) (run r r' : FeatureRun) : Prop :=
  (r = run ∧ r'.id = run.id ∧ r'.featureRequestId = run.featureRequestId ∧
    r'.currentExecutionState = request.command.target ∧ r'.version = run.version + 1) ∨
    (r.id ≠ request.ref.featureRunId ∧ Cascaded request.command.target r r')

/-- The step of the feature-execution machine that a request of `run` took. -/
structure Step (request : Request) (ev : request.Evidence) (rt : Runtime) (db db' : Db)
    (run : FeatureRun) : Prop where
  found : db.findFeatureRun request.ref.featureRunId request.ref.projectId = some run
  version : run.version = request.ref.expectedVersion
  valid : isValid run.currentExecutionState request.command.target = true
  guard : ∃ keys g, Yields rt { db with idempotencyKeys := keys }
    ((request.transition ev).guard run) g
  runs : db.featureRuns.Rewritten (request.Change run) db'.featureRuns
  pointer : request.command.pointer.Moves request.ref.projectId request.ref.featureRunId
    db.workflowStates db'.workflowStates

/-- **A request that made its transition took a step of the machine.** -/
theorem Did.step {ev : request.Evidence} {rt : Runtime} {db db' : Db}
    (h : request.Did ev rt db db') : ∃ run, request.Step ev rt db db' run := by
  obtain ⟨keys, keys', db₂, run, hmoved, rfl⟩ := h
  have hfound := hmoved.found
  have hversion := hmoved.version
  have hpointer := hmoved.pointer
  rw [transition_featureRunId, transition_projectId] at hfound hpointer
  rw [transition_expectedVersion] at hversion
  rw [transition_pointer] at hpointer
  refine ⟨run, {
    found := hfound
    version := hversion
    valid := transition_toState ev ▸ hmoved.valid
    guard := ⟨keys, hmoved.guard⟩
    runs := hmoved.runs.imp fun r r' hchange => ?_
    pointer := hpointer }⟩
  rcases hchange with ⟨rfl, rfl⟩ | ⟨hne, hcascaded⟩
  · refine Or.inl ⟨rfl, rfl, rfl, transition_toState ev, ?_⟩
    show nextVersion (request.transition ev).expectedVersion = r.version + 1
    rw [transition_expectedVersion, hversion, nextVersion]
  · rw [transition_featureRunId] at hne
    rw [transition_toState] at hcascaded
    exact Or.inr ⟨hne, hcascaded⟩

/-- A committed request replayed a stored result, or ran its transition between the claim and the
fulfilment of its key, which change nothing else. -/
theorem commit_worked {ev : request.Evidence} {result : CommandResult}
    (h : exec (request.commit ev) s = (.ok result, s')) :
    s'.db = s.db ∨ ∃ s₁ s₂ keys, s₁.db = { s.db with idempotencyKeys := s₁.db.idempotencyKeys } ∧
      s₁.runtime = s.runtime ∧
      exec (runTransition request.envelope (request.transition ev)) s₁ = (.ok result, s₂) ∧
      s'.db = { s₂.db with idempotencyKeys := keys } := by
  obtain ⟨s₀, hbody, hdb, -⟩ := transaction_ok h
  rcases withIdempotencyKey_ok hbody with ⟨hsame, -⟩ | ⟨claimId, s₁, s₂, hclaim, hwork, hfulfil⟩
  · exact Or.inl (hdb.trans hsame)
  · have hframe : Frame (fun s : Session => (withoutKeys s.db, s.runtime))
        (claimIdempotencyKey request.envelope.idempotencyKey request.handler.idempotencyScope
          request.handler.ttlMs) :=
      frame_claimIdempotencyKey (fun _ _ _ => rfl) (fun _ _ => rfl) _ _ _
    obtain ⟨hkeys, hrt⟩ := Prod.mk.inj (hframe.of_exec hclaim)
    refine Or.inr ⟨s₁, s₂, s'.db.idempotencyKeys, eq_of_withoutKeys hkeys, hrt, hwork, ?_⟩
    rw [hdb, hfulfil]
    rfl

/-- **A committed request replayed a stored result, or made its transition.** -/
theorem commit_ok {ev : request.Evidence} {result : CommandResult}
    (h : exec (request.commit ev) s = (.ok result, s')) :
    s'.db = s.db ∨ request.Did ev s.runtime s.db s'.db := by
  rcases commit_worked h with hsame | ⟨s₁, s₂, keys, hs₁, hrt, hwork, hs'⟩
  · exact Or.inl hsame
  · obtain ⟨⟨run, hmoved⟩, -⟩ := runTransition_ok hwork
    rw [hs₁, hrt] at hmoved
    exact Or.inr ⟨_, keys, s₂.db, run, hmoved, hs'⟩

/-- **A request that threw in its transaction left every table as it was.** -/
theorem commit_error {ev : request.Evidence} {e : Failure}
    (h : exec (request.commit ev) s = (.error e, s')) : s'.db = s.db :=
  transaction_error h

/-- The run of a step, before and after it. -/
theorem Step.moves {ev : request.Evidence} {rt : Runtime} {db db' : Db} {run : FeatureRun}
    (h : request.Step ev rt db db' run) :
    run ∈ db.featureRuns.rows ∧ run.id = request.ref.featureRunId ∧
      ∃ run' ∈ db'.featureRuns.rows, run'.id = request.ref.featureRunId ∧
        run'.featureRequestId = run.featureRequestId ∧ run'.version = run.version + 1 ∧
        run'.currentExecutionState = request.command.target := by
  obtain ⟨hrun, hid, -⟩ := Db.findFeatureRun_some h.found
  obtain ⟨run', hrun', hchange⟩ := h.runs.exists_of_mem hrun
  rcases hchange with ⟨-, hid', hrequest, hstate, hversion⟩ | ⟨hne, -⟩
  · exact ⟨hrun, hid, run', hrun', hid'.trans hid, hrequest, hversion, hstate⟩
  · exact absurd hid hne

/-- A transition has changed the tables: the version of its run has grown. -/
theorem Did.ne {ev : request.Evidence} {rt : Runtime} {db db' : Db}
    (h : request.Did ev rt db db') : db' ≠ db := by
  rintro rfl
  obtain ⟨run, hstep⟩ := h.step
  obtain ⟨hrun, hid, run', hrun', hid', -, hversion, -⟩ := hstep.moves
  have hsame : run'.id = run.id := hid'.trans hid.symm
  rw [db'.featureRuns.eq_of_clash hrun' hrun (decide_eq_true hsame)] at hversion
  omega

/-- The run of a step is in the target state afterwards. -/
theorem Step.moved {ev : request.Evidence} {rt : Runtime} {db db' : Db} {run : FeatureRun}
    (h : request.Step ev rt db db' run) :
    ∃ run', db'.runById request.ref.featureRunId = some run' ∧
      run'.currentExecutionState = request.command.target := by
  obtain ⟨-, -, run', hrun', hid', -, -, hstate⟩ := h.moves
  have hfind := Db.runById_eq hrun'
  rw [hid'] at hfind
  exact ⟨run', hfind, hstate⟩

/-- The evidence phase writes evidence rows of the merge gate only. -/
theorem gather_evidence {r : Except Failure request.Evidence}
    (h : exec request.gather s = (r, s')) :
    s'.db.withoutEvidence = s.db.withoutEvidence ∧ s'.runtime = s.runtime :=
  Prod.mk.inj ((request.command.handler.evidence_only request.envelope).of_exec h)

/-- The live result that is stored under the key of the request, in the scope of its handler. -/
def cachedResult (request : Request) (now : ℤ) (db : Db) : Option CachedResult :=
  db.findCachedResult request.envelope.idempotencyKey request.handler.idempotencyScope now

/-- **A committed request replayed the live result of its key, or there was none and it made its
transition.** -/
theorem commit_cases {ev : request.Evidence} {result : CommandResult}
    (h : exec (request.commit ev) s = (.ok result, s')) :
    (s'.db = s.db ∧ request.cachedResult s.runtime.now s.db ≠ none) ∨
      request.cachedResult s.runtime.now s.db = none ∧ request.Did ev s.runtime s.db s'.db ∧
        result.resultingState = request.command.target.literal := by
  rcases CommandHandler.transact_ok h with ⟨hsame, row, hrow, hkey, hlive, cached, hresult, -⟩ |
    ⟨hexpired, claimId, hrows⟩
  · refine Or.inl ⟨hsame, ?_⟩
    rw [cachedResult, Db.findCachedResult_iff.mpr ⟨row, hrow, hkey, hlive, hresult⟩]
    exact Option.some_ne_none cached
  · right
    -- the claim has left a live row of the key, so it was no replay
    have hnew := (hrows _).mpr (Or.inr rfl)
    have hmoved : s'.db ≠ s.db := by
      intro hsame
      rw [hsame] at hnew
      have hpast : s.runtime.now + request.handler.ttlMs ≤ s.runtime.now :=
        hexpired _ hnew (by simp [Db.isKey])
      have httl : request.handler.ttlMs = idempotencyTtlMs := by
        rcases request with ⟨command, envelope⟩
        cases command <;> rfl
      rw [httl, idempotencyTtlMs] at hpast
      omega
    have hnone : request.cachedResult s.runtime.now s.db = none := by
      rcases hfind : request.cachedResult s.runtime.now s.db with _ | cached
      · rfl
      · obtain ⟨row, hrow, hkey, hlive, -⟩ := Db.findCachedResult_iff.mp hfind
        have hpast := hexpired row hrow hkey
        omega
    refine ⟨hnone, (commit_ok h).resolve_left hmoved, ?_⟩
    rcases commit_worked h with hsame | ⟨s₁, s₂, keys, -, -, hwork, -⟩
    · exact absurd hsame hmoved
    · rw [(runTransition_ok hwork).2, transition_toState]

/-- A handler that returned has gathered its evidence and committed. -/
theorem handle_ok {result : CommandResult}
    (h : exec (request.handler.execute request.envelope) s = (.ok result, s')) :
    ∃ ev, ∃ s₂ : Session, s₂.db.withoutEvidence = s.db.withoutEvidence ∧
      s₂.runtime = s.runtime ∧ exec (request.commit ev) s₂ = (.ok result, s') := by
  obtain ⟨ev, s₂, hgather, hrest⟩ := exec_bind_ok.mp h
  obtain ⟨result', s₃, hcommit, hfinish⟩ := exec_bind_ok.mp hrest
  obtain ⟨hresult, rfl⟩ := orThrow_ok hfinish
  obtain rfl := CommandHandler.eq_of_finish hresult
  obtain ⟨hevidence, hrt⟩ := gather_evidence hgather
  exact ⟨ev, s₂, hevidence, hrt, hcommit⟩

/-- The evidence phase leaves the keys alone. -/
theorem cachedResult_of_evidence {db db' : Db} (h : db'.withoutEvidence = db.withoutEvidence)
    (now : ℤ) : request.cachedResult now db' = request.cachedResult now db := by
  have hkeys : db'.withoutEvidence.idempotencyKeys = db.withoutEvidence.idempotencyKeys :=
    congrArg Db.idempotencyKeys h
  replace hkeys : db'.idempotencyKeys = db.idempotencyKeys := hkeys
  rw [cachedResult, cachedResult, Db.findCachedResult, Db.findCachedResult, hkeys]

/-- **A call under a key without a live result made its transition.** -/
theorem execute_uncached {result : CommandResult}
    (huncached : request.cachedResult s.runtime.now s.db = none)
    (h : exec request.execute s = (.ok result, s')) :
    ∃ ev, ∃ s₂ : Session, s₂.db.withoutEvidence = s.db.withoutEvidence ∧
      request.Did ev s₂.runtime s₂.db s'.db ∧
        result.resultingState = request.command.target.literal := by
  rcases executeCommand_ok h with ⟨-, hcached⟩ | ⟨ev, s₁, s₂, hdb₁, hrt₁, hgather, htransact⟩
  · obtain ⟨cached, hfind, -⟩ := Option.map_eq_some_iff.mp hcached
    rw [cachedResult, hfind] at huncached
    cases huncached
  · obtain ⟨hevidence, hrt₂⟩ := gather_evidence hgather
    rw [hdb₁] at hevidence
    rcases commit_cases htransact with ⟨-, hcached⟩ | ⟨-, hdid, hstate⟩
    · rw [hrt₂, hrt₁, cachedResult_of_evidence hevidence] at hcached
      exact absurd huncached hcached
    · exact ⟨ev, s₂, hevidence, hdid, hstate⟩

/-- A key that no row has holds no live result. -/
theorem cachedResult_of_unused {db : Db} (now : ℤ)
    (h : ∀ row ∈ db.idempotencyKeys.rows,
      Db.isKey request.envelope.idempotencyKey request.handler.idempotencyScope row = false) :
    request.cachedResult now db = none := by
  rcases hfind : request.cachedResult now db with _ | cached
  · rfl
  · obtain ⟨row, hrow, hkey, -⟩ := Db.findCachedResult_iff.mp hfind
    rw [h row hrow] at hkey
    cases hkey

end Request

end MiniCoder
