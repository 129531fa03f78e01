import MiniCoder.Invariants.BacklogProgress
import MiniCoder.Invariants.ExactlyOnce

/-!
# The replay of a validation

A validation that finds its backlog invalid commits that, and then throws.  A later call under its key
does not get as far as the handler: the executor answers it from the cache, and returns the stored
result.

* `fails_validateBacklogWork`, `returns_validateBacklogWork`: what the work throws, and when it returns.
* `problemsOf_ne_nil`: the check finds a problem exactly in a flawed backlog.
* `failedInvalid_validateBacklog`, `throws_validateBacklog`: a call under a free key fails with
  `backlog-invalid` exactly on a backlog with problems.
* `exec_replay`: a call under a key that holds a result returns it, whatever it is.
* `replaysVerdict_iff`: **a replay reports what the first call reported, except where that was a
  failure**.
-/

open Storage Storage.Action Runs

namespace MiniCoder

/-! ### The work of a validation -/

section Work

variable {envelope : CommandEnvelope ValidateBacklogPayload} {s : Session}

/-- The work throws where the backlog is empty, or where the database refuses a statement. -/
theorem fails_validateBacklogWork {p : Failure → Prop} (h : p .database)
    (hempty : ∀ problem : ProblemDetail, problem.type = "empty-backlog" → p (.command problem)) :
    Fails p (validateBacklogWork envelope) := by
  refine fails_bind (fails_require h fun db e hcheck => ?_) fun features =>
    fails_bind (fails_query h _) fun deps => fails_bind ?_ fun covered =>
    fails_bind (fails_read _) fun now => fails_bind (fails_execute h _) fun _ =>
    fails_bind (fails_recordMove h _ _) fun ids => fails_pure _
  · simp only at hcheck
    split at hcheck
    · rw [← Except.error.inj hcheck]
      exact hempty _ rfl
    · cases hcheck
  · exact fails_ite (fails_pure _) (fails_bind (fails_query h _) fun _ =>
      fails_bind (fails_query h _) fun _ => fails_pure _)

theorem returns_queryCovered (hs : s.Willing) (executableIds : List String) :
    Returns (queryCovered executableIds) s fun _ s' => s.Reads s' := by
  unfold queryCovered
  split
  · exact returns_pure (.refl s)
  · refine (returns_query hs _).bind fun withAc s₁ ⟨_, hreads₁⟩ => ?_
    refine (returns_query (hreads₁.willing hs) _).bind fun withTe s₂ ⟨_, hreads₂⟩ => ?_
    exact returns_pure (hreads₁.trans hreads₂)

/-- **The work returns** when the backlog has a feature. -/
theorem returns_validateBacklogWork (hs : s.Ready)
    (hsome : s.db.backlogFeatures envelope.payload.planId envelope.payload.projectId ≠ []) :
    Returns (validateBacklogWork envelope) s fun _ s' => s.Grows s' := by
  have hfeatures : (if s.db.backlogFeatures envelope.payload.planId envelope.payload.projectId = []
      then Except.error (Failure.command {
        type := "empty-backlog"
        title := "Backlog is empty"
        status := 409
        detail := s!"Plan {envelope.payload.planId} has no feature requests to validate"
        instance? := some envelope.correlationId })
      else .ok (s.db.backlogFeatures envelope.payload.planId envelope.payload.projectId)) =
        .ok (s.db.backlogFeatures envelope.payload.planId envelope.payload.projectId) :=
    if_neg hsome
  refine (returns_require hs.willing hfeatures).bind fun features s₁ hreturned₁ => ?_
  obtain ⟨-, hreads₁⟩ := hreturned₁
  refine (returns_query (hreads₁.willing hs.willing) _).bind fun deps s₂ hreturned₂ => ?_
  obtain ⟨-, hreads₂⟩ := hreturned₂
  have hwilling₂ := hreads₂.willing (hreads₁.willing hs.willing)
  refine (returns_queryCovered hwilling₂ _).bind fun covered s₃ hreads₃ => ?_
  refine returns_isoNow.bind fun now s₄ hreturned₄ => ?_
  obtain ⟨-, hs₄⟩ := hreturned₄
  subst hs₄
  have hreads : s.Reads s₄ := (hreads₁.trans hreads₂).trans hreads₃
  have hready := hs.reads hreads
  refine (returns_execute hready.willing rfl).bind fun _ s₅ hreturned₅ => ?_
  obtain ⟨-, hdb₅, hrt₅, hdrawn₅⟩ := hreturned₅
  -- the update writes the row of a plan
  have hgrows₅ : s₄.Grows s₅ := by
    refine .of_subset hrt₅ hdrawn₅ fun id hid => ?_
    rw [hdb₅] at hid
    exact hid
  refine (returns_recordMove (hready.grows hgrows₅) _ _).bind fun ids s₆ hgrows₆ => ?_
  exact returns_pure ((hreads.grows.trans hgrows₅).trans hgrows₆)

end Work

/-! ### Calls under a free key -/

/-- The call failed with `backlog-invalid`. -/
def FailedInvalid (outcome : Except Failure CommandResult) : Prop :=
  ∃ e, outcome = .error e ∧ e.problemType = some "backlog-invalid"

/-- The call returned that the backlog is valid. -/
def ReturnedValid (outcome : Except Failure CommandResult) : Prop :=
  ∃ result, outcome = .ok result ∧ result.resultingState = BacklogState.valid.literal

section Calls

variable {envelope : CommandEnvelope ValidateBacklogPayload} {s s' : Session}

theorem validateBacklog_ttlMs_pos : 0 < validateBacklogHandler.ttlMs := by decide

/-- What a transaction under a free key noted, and left in the key. -/
theorem validateBacklogTransaction_ok {noted : CommandResult × List String}
    (hfree : s.db.Free envelope.idempotencyKey validateBacklogHandler.idempotencyScope s.runtime.now)
    (h : exec (validateBacklogTransaction envelope) s = (.ok noted, s')) :
    s.db.backlogFeatures envelope.payload.planId envelope.payload.projectId ≠ [] ∧
      noted.1.resultingState = (BacklogState.ofProblems
        (s.db.problemsOf envelope.payload.planId envelope.payload.projectId)).literal ∧
      s'.db.Holds envelope.idempotencyKey validateBacklogHandler.idempotencyScope s.runtime.now
        (s.runtime.now + validateBacklogHandler.ttlMs) noted.1 := by
  have htransact : exec (validateBacklogHandler.transact envelope ()) s = (.ok noted.1, s') := by
    rw [exec_validateBacklogTransaction, h]
    rfl
  have hpos := validateBacklog_ttlMs_pos
  have hholds := CommandHandler.holds_of_free hfree le_rfl (by omega) htransact
  obtain ⟨s₁, hbody, -⟩ := transaction_ok h
  obtain ⟨claim, s₂, hclaim, h₂⟩ := exec_bind_ok.mp hbody
  cases claim with
  | replay result =>
    -- the key has no live row to replay
    obtain ⟨-, row, hrow, hkey, hlive, -⟩ := claimIdempotencyKey_replay hclaim
    have hexpired := hfree row hrow hkey
    omega
  | owned claimId =>
    obtain ⟨noted', s₃, hwork, h₃⟩ := exec_bind_ok.mp h₂
    obtain ⟨_, s₄, -, h₄⟩ := exec_bind_ok.mp h₃
    obtain ⟨hnoted, -⟩ := Prod.mk.inj h₄
    obtain rfl := Except.ok.inj hnoted
    obtain ⟨hsome, hproblems, hstate, -⟩ := validateBacklogWork_ok hwork
    have hkept := (frame_claimIdempotencyKey (π := fun s : Session =>
      (s.db.backlogFeatures envelope.payload.planId envelope.payload.projectId,
        s.db.problemsOf envelope.payload.planId envelope.payload.projectId))
      (fun _ _ _ => rfl) (fun _ _ => rfl) _ _ _).of_exec hclaim
    obtain ⟨hfeatures, hsame⟩ := Prod.mk.inj hkept
    refine ⟨?_, ?_, hholds⟩
    · rw [← hfeatures]
      exact hsome
    · rw [hstate, hproblems, hsame]

/-- **A transaction under a free key returns** when the backlog has a feature. -/
theorem returns_validateBacklogTransaction (hs : s.Ready)
    (hfree : s.db.Free envelope.idempotencyKey validateBacklogHandler.idempotencyScope s.runtime.now)
    (hsome : s.db.backlogFeatures envelope.payload.planId envelope.payload.projectId ≠ []) :
    Returns (validateBacklogTransaction envelope) s fun _ _ => True := by
  apply returns_transaction
  have hfeatures : Frame (fun s : Session =>
      s.db.backlogFeatures envelope.payload.planId envelope.payload.projectId)
      (claimIdempotencyKey envelope.idempotencyKey validateBacklogHandler.idempotencyScope
        validateBacklogHandler.ttlMs) :=
    frame_claimIdempotencyKey (fun _ _ _ => rfl) (fun _ _ => rfl) _ _ _
  refine ((returns_claimIdempotencyKey hs hfree).and_frame hfeatures).bind
    fun claim s₁ ⟨⟨⟨claimId, hclaimed⟩, hgrows₁⟩, hsame⟩ => ?_
  subst hclaimed
  have hready₁ := hs.grows hgrows₁
  have hsome₁ : s₁.db.backlogFeatures envelope.payload.planId envelope.payload.projectId ≠ [] := by
    rw [hsame]
    exact hsome
  refine (returns_validateBacklogWork hready₁ hsome₁).bind fun noted s₂ hgrows₂ => ?_
  have hready₂ := hready₁.grows hgrows₂
  refine (returns_fulfillIdempotencyKey hready₂ claimId noted.1).bind fun _ s₃ hgrows₃ => ?_
  exact returns_pure ⟨(hready₂.grows hgrows₃).willing, fun _ _ => trivial⟩

/-- The errors of a validation before its commit are of other types. -/
theorem fails_validateBacklogTransaction : Fails (fun e => e.problemType ≠ some "backlog-invalid")
    (validateBacklogTransaction envelope) := by
  have hdatabase : Failure.database.problemType ≠ some "backlog-invalid" := by decide
  refine fails_transaction hdatabase (fails_bind (fails_claimIdempotencyKey hdatabase
    (fun problem htype => ?_) _ _ _) fun claim => ?_)
  · simp [Failure.problemType, htype]
  · cases claim with
    | replay result => exact fails_pure _
    | owned claimId =>
      refine fails_bind (fails_validateBacklogWork hdatabase fun problem htype => ?_) fun noted =>
        fails_bind (fails_execute hdatabase _) fun _ => fails_pure _
      simp [Failure.problemType, htype]

end Calls

/-- A backlog with a flaw: its dependencies have a cycle, or an executable feature has no acceptance
criterion or no test expectation. -/
def Db.FlawedBacklog (db : Db) (planId projectId : String) : Prop :=
  hasCycle (db.backlogFeatures planId projectId) (db.backlogDependencies planId) = true ∨
    ∃ feature ∈ db.backlogFeatures planId projectId, feature.kind = .feature ∧
      ((∀ criterion ∈ db.planning.acceptanceCriteria.rows, criterion.featureRequestId ≠ feature.id) ∨
        ∀ expectation ∈ db.planning.testExpectations.rows, expectation.featureRequestId ≠ feature.id)

section Flaws

variable {db : Db} {planId projectId : String} {ids : List String} {id : String}

/-- The features that the check asks for are covered by the rows of the tables. -/
theorem mem_withCriteria (hid : id ∈ ids) : id ∈ db.withCriteria ids ↔
    ∃ criterion ∈ db.planning.acceptanceCriteria.rows, criterion.featureRequestId = id := by
  simp only [Db.withCriteria, Table.select, List.mem_map, List.mem_filter]
  constructor
  · rintro ⟨criterion, ⟨hrow, -⟩, hsame⟩
    exact ⟨criterion, hrow, hsame⟩
  · rintro ⟨criterion, hrow, rfl⟩
    exact ⟨criterion, ⟨hrow, List.contains_iff_mem.mpr hid⟩, rfl⟩

theorem mem_withExpectations (hid : id ∈ ids) : id ∈ db.withExpectations ids ↔
    ∃ expectation ∈ db.planning.testExpectations.rows, expectation.featureRequestId = id := by
  simp only [Db.withExpectations, Table.select, List.mem_map, List.mem_filter]
  constructor
  · rintro ⟨expectation, ⟨hrow, -⟩, hsame⟩
    exact ⟨expectation, hrow, hsame⟩
  · rintro ⟨expectation, hrow, rfl⟩
    exact ⟨expectation, ⟨hrow, List.contains_iff_mem.mpr hid⟩, rfl⟩

/-- **The check finds a problem exactly in a flawed backlog.** -/
theorem problemsOf_ne_nil :
    db.problemsOf planId projectId ≠ [] ↔ db.FlawedBacklog planId projectId := by
  rw [Db.problemsOf, backlogProblems, ne_eq, List.append_eq_nil_iff, not_and_or,
    List.flatMap_eq_nil_iff]
  unfold Db.FlawedBacklog
  refine or_congr (by simp) ?_
  push Not
  refine exists_congr fun feature => and_congr_right fun hfeature => ?_
  by_cases hkind : feature.kind = .feature
  · have hid : feature.id ∈ ((db.backlogFeatures planId projectId).filter fun f =>
        f.kind == .feature).map FeatureRequest.id :=
      List.mem_map_of_mem (List.mem_filter.mpr ⟨hfeature, beq_iff_eq.mpr hkind⟩)
    have hsome : ∀ (c : Prop) [Decidable c] (problem : String),
        ¬ (if c then [] else [problem]) = [] ↔ ¬ c := by simp
    rw [if_pos hkind, ne_eq, List.append_eq_nil_iff, not_and_or, hsome, hsome,
      mem_withCriteria hid, mem_withExpectations hid]
    simp [hkind]
  · simp [hkind]

end Flaws

/-- The call reaches the quality check of its backlog, and the backlog does not pass it. -/
structure Db.RefusesBacklog (db : Db) (envelope : CommandEnvelope ValidateBacklogPayload) : Prop where
  role : assertRole envelope.actor validateBacklogHandler.requiredRole
    validateBacklogHandler.commandName validateBacklogHandler.requiredActorKind = .ok ()
  features : db.backlogFeatures envelope.payload.planId envelope.payload.projectId ≠ []
  flawed : db.FlawedBacklog envelope.payload.planId envelope.payload.projectId

section Outcomes

variable {envelope : CommandEnvelope ValidateBacklogPayload} {s s' : Session}

/-- **A call under a free key that fails with `backlog-invalid`** had a backlog with problems. -/
theorem failedInvalid_validateBacklog
    (hfree : s.db.Free envelope.idempotencyKey validateBacklogHandler.idempotencyScope s.runtime.now)
    (h : FailedInvalid (exec (validateBacklog envelope) s).1) : s.db.RefusesBacklog envelope := by
  obtain ⟨e, houtcome, htype⟩ := h
  have hexec : exec (validateBacklog envelope) s =
      (.error e, (exec (validateBacklog envelope) s).2) := Prod.ext houtcome rfl
  rcases exec_bind_error.mp hexec with hpre | ⟨cached, s₁, hpre, hrest⟩
  · have hother : Fails (fun e : Failure => e.problemType ≠ some "backlog-invalid")
        (precheck validateBacklogHandler envelope) := fails_precheck (by decide) fun _ => nofun
    exact absurd htype (hother hpre)
  · obtain ⟨hdb₁, hrt₁, hcached⟩ := precheck_ok hpre
    rw [hfree.findCachedResult le_rfl] at hcached
    subst hcached
    have hfree₁ : s₁.db.Free envelope.idempotencyKey validateBacklogHandler.idempotencyScope
        s₁.runtime.now := by
      rw [hdb₁, hrt₁]
      exact hfree
    rcases exec_bind_error.mp hrest with htransact | ⟨noted, s₂, htransact, hthrow⟩
    · exact absurd htype (fails_validateBacklogTransaction htransact)
    · obtain ⟨hsome, hstate, -⟩ := validateBacklogTransaction_ok hfree₁ htransact
      rw [hdb₁] at hsome hstate
      refine ⟨?_, hsome, problemsOf_ne_nil.mp fun hnone => ?_⟩
      · obtain ⟨_, s₃, hrole, -⟩ := exec_bind_ok.mp hpre
        exact (orThrow_ok hrole).1
      · -- without a problem the verdict is `valid`, and the call returns
        rw [hnone] at hstate
        have hvalid : noted.1.resultingState ≠ BacklogState.invalid.literal := by
          rw [hstate]
          decide
        rw [if_neg hvalid] at hthrow
        simp at hthrow

/-- **A call on a backlog with problems** fails with `backlog-invalid`, and leaves its result in the
key. -/
theorem throws_validateBacklog (hs : s.Ready)
    (hfree : s.db.Free envelope.idempotencyKey validateBacklogHandler.idempotencyScope s.runtime.now)
    (h : s.db.RefusesBacklog envelope) :
    Throws (validateBacklog envelope) s fun e s' => e.problemType = some "backlog-invalid" ∧
      ∃ result, s'.db.Holds envelope.idempotencyKey validateBacklogHandler.idempotencyScope
        s.runtime.now (s.runtime.now + validateBacklogHandler.ttlMs) result := by
  refine (returns_precheck hs.willing h.role).bind_throws fun cached s₁ ⟨hcached, hreads⟩ => ?_
  rw [hfree.findCachedResult le_rfl] at hcached
  subst hcached
  have hfree₁ : s₁.db.Free envelope.idempotencyKey validateBacklogHandler.idempotencyScope
      s₁.runtime.now := by
    rw [hreads.db, hreads.runtime]
    exact hfree
  have hsome₁ : s₁.db.backlogFeatures envelope.payload.planId envelope.payload.projectId ≠ [] := by
    rw [hreads.db]
    exact h.features
  have htransact := (returns_validateBacklogTransaction (hs.reads hreads) hfree₁ hsome₁).and_of_ok
    fun noted s₂ hok => validateBacklogTransaction_ok hfree₁ hok
  refine htransact.bind_throws fun noted s₂ ⟨_, _, hstate, hholds⟩ => ?_
  have hinvalid : noted.1.resultingState = BacklogState.invalid.literal := by
    rw [hstate, hreads.db, BacklogState.ofProblems, if_neg (problemsOf_ne_nil.mpr h.flawed)]
  rw [if_pos hinvalid]
  rw [hreads.runtime] at hholds
  exact throws_throw ⟨rfl, noted.1, hholds⟩

/-- **A call that returned under a free key** left what it returned in the key. -/
theorem holds_of_validateBacklog {result : CommandResult}
    (hfree : s.db.Free envelope.idempotencyKey validateBacklogHandler.idempotencyScope s.runtime.now)
    (h : exec (validateBacklog envelope) s = (.ok result, s')) :
    s'.db.Holds envelope.idempotencyKey validateBacklogHandler.idempotencyScope s.runtime.now
      (s.runtime.now + validateBacklogHandler.ttlMs) result := by
  obtain ⟨cached, s₁, hpre, hrest⟩ := exec_bind_ok.mp h
  obtain ⟨hdb₁, hrt₁, hcached⟩ := precheck_ok hpre
  rw [hfree.findCachedResult le_rfl] at hcached
  subst hcached
  have hfree₁ : s₁.db.Free envelope.idempotencyKey validateBacklogHandler.idempotencyScope
      s₁.runtime.now := by
    rw [hdb₁, hrt₁]
    exact hfree
  obtain ⟨noted, s₂, htransact, hlast⟩ := exec_bind_ok.mp hrest
  obtain ⟨-, -, hholds⟩ := validateBacklogTransaction_ok hfree₁ htransact
  rw [exec_ite] at hlast
  split at hlast
  · simp at hlast
  · obtain ⟨hr, rfl⟩ := Prod.mk.inj hlast
    obtain rfl := Except.ok.inj hr
    rw [hrt₁] at hholds
    exact hholds

end Outcomes

/-! ### Replays -/

/-- A replay of a call that started at `since` and left the tables `left`: the command under the same
key, by an actor whom the executor admits, within the time to live, to a database that serves it and
that still has the live rows of the key. -/
structure Replays (envelope : CommandEnvelope ValidateBacklogPayload) (since : ℤ) (left : Db)
    (replay : CommandEnvelope ValidateBacklogPayload) (rt : Runtime) (db : Db) : Prop where
  key : replay.idempotencyKey = envelope.idempotencyKey
  role : assertRole replay.actor validateBacklogHandler.requiredRole
    validateBacklogHandler.commandName validateBacklogHandler.requiredActorKind = .ok ()
  within : Within validateBacklogHandler since rt
  serves : (Session.start db rt).Willing
  keeps : KeepsLiveKey envelope.idempotencyKey validateBacklogHandler.idempotencyScope since left db

/-- Every replay of a call under a free key reports its verdict in the same way: it fails with
`backlog-invalid` where the call did, and returns a valid backlog where the call did. -/
def ReplaysVerdict (db : Db) (envelope : CommandEnvelope ValidateBacklogPayload) : Prop :=
  ∀ rt : Runtime,
    db.Free envelope.idempotencyKey validateBacklogHandler.idempotencyScope rt.now →
    ∀ replay rt' db',
      Replays envelope rt.now (exec (validateBacklog envelope) (.start db rt)).2.db replay rt' db' →
      (FailedInvalid (exec (validateBacklog envelope) (.start db rt)).1 →
        FailedInvalid (exec (validateBacklog replay) (.start db' rt')).1) ∧
      (ReturnedValid (exec (validateBacklog envelope) (.start db rt)).1 →
        ReturnedValid (exec (validateBacklog replay) (.start db' rt')).1)

section Replays

variable {envelope replay : CommandEnvelope ValidateBacklogPayload} {since : ℤ} {left db : Db}
  {rt : Runtime}

/-- **A replay returns the result in the key**, whatever it is, and changes nothing. -/
theorem exec_replay {result : CommandResult} (h : Replays envelope since left replay rt db)
    (hholds : left.Holds envelope.idempotencyKey validateBacklogHandler.idempotencyScope since
      (since + validateBacklogHandler.ttlMs) result) :
    Returns (validateBacklog replay) (.start db rt) fun r s' => r = result ∧ s'.db = db := by
  have hcached := (h.keeps.holds hholds).findCachedResult h.within.2
  rw [← h.key] at hcached
  refine (returns_precheck h.serves h.role).bind fun cached s₁ ⟨hfound, hreads⟩ => ?_
  have hsome : cached = some result := by
    rw [hfound]
    exact congrArg (Option.map (·.toCommandResult)) hcached
  subst hsome
  exact returns_pure ⟨rfl, hreads.db⟩

/-- The first call is a replay of itself, when its key was free. -/
theorem replays_self (hrole : assertRole envelope.actor validateBacklogHandler.requiredRole
      validateBacklogHandler.commandName validateBacklogHandler.requiredActorKind = .ok ())
    (hserves : (Session.start left rt).Willing) : Replays envelope rt.now left envelope rt left where
  key := rfl
  role := hrole
  within := ⟨le_rfl, Int.lt_add_of_pos_right _ validateBacklog_ttlMs_pos⟩
  serves := hserves
  keeps := .of_eq rfl

/-- The replay of a call that failed with `backlog-invalid` returns. -/
theorem not_replaysVerdict_of_refuses (h : db.RefusesBacklog envelope) :
    ¬ ReplaysVerdict db envelope := by
  intro hreplays
  obtain ⟨rt, hexpired, hready⟩ := exists_ready db
  have hfree : db.Free envelope.idempotencyKey validateBacklogHandler.idempotencyScope rt.now :=
    fun row hrow _ => hexpired row hrow
  obtain ⟨e, s', hexec, htype, result, hholds⟩ := throws_validateBacklog hready hfree h
  have hfirst : (exec (validateBacklog envelope) (.start db rt)).2.db = s'.db := by rw [hexec]
  -- the call itself, once more: the executor returns what it left in the key
  have hreplay : Replays envelope rt.now s'.db envelope rt s'.db :=
    replays_self h.role fun n => hready.willing n
  obtain ⟨hfailed, -⟩ := hreplays rt hfree envelope rt s'.db (hfirst ▸ hreplay)
  obtain ⟨e', hagain, -⟩ := hfailed ⟨e, by rw [hexec], htype⟩
  obtain ⟨r, s'', hreturned, -⟩ := exec_replay hreplay hholds
  rw [hreturned] at hagain
  cases hagain

end Replays

/-- **Replays report the verdict of the first call exactly when that was no failure**: the backlog passes
its quality check, or the call does not get that far. -/
theorem replaysVerdict_iff {db : Db} {envelope : CommandEnvelope ValidateBacklogPayload} :
    ReplaysVerdict db envelope ↔ ¬ db.RefusesBacklog envelope := by
  constructor
  · exact fun h hrefuses => not_replaysVerdict_of_refuses hrefuses h
  · intro h rt hfree replay rt' db' hreplay
    refine ⟨fun hfailed => absurd (failedInvalid_validateBacklog hfree hfailed) h, ?_⟩
    rintro ⟨result, houtcome, hvalid⟩
    have hholds := holds_of_validateBacklog hfree (Prod.ext houtcome rfl)
    obtain ⟨r, s'', hreturned, rfl, -⟩ := exec_replay hreplay hholds
    exact ⟨r, by rw [hreturned], hvalid⟩

/-- The sample plan with a feature that has no criteria and no expectations. -/
def sampleUncoveredDb : Db :=
  { samplePlanDb with
    featureRequests := .ofList [
      { id := "login", planId := "plan", projectId := "P", frId := "FR-1", title := "Login" }] }

/-- The validation of a feature without criteria fails, and its replay returns. -/
theorem not_replaysVerdict_uncovered : ¬ ReplaysVerdict sampleUncoveredDb sampleValidation := by
  apply not_replaysVerdict_of_refuses
  refine ⟨by decide, by decide +kernel, problemsOf_ne_nil.mp ?_⟩
  decide +kernel

end MiniCoder
