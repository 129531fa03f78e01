import MiniCoder.Commands.Idempotency

/-!
# Command handlers and their executor

Every handler has one shape: it may first gather evidence in a transaction of its own, and then, in
one transaction, claims the idempotency key, does its work, and stores the result in the claimed
slot.  `CommandHandler` holds what differs from one handler to the next, with the proof that its
work leaves the idempotency table to `withIdempotencyKey`.

* `CommandHandler.transact_ok`: a transaction that returned replayed a stored result, or did the
  work and stored its result.
* `executeCommand_ok`: a call that returned answered from the cache, replayed, or committed new work.
* `executeCommand_error`: a call that threw left what its evidence phase left.
-/

open Storage Storage.Action

namespace MiniCoder

/-! ### Authorization -/

/-- `ROLE_RANK`. -/
def roleRank : UserRole → ℕ
  | .viewer => 0
  | .operator => 1
  | .approver => 2
  | .admin => 3

/-- `meetsRole`. -/
def meetsRole (actorRole requiredRole : UserRole) : Bool :=
  decide (roleRank requiredRole ≤ roleRank actorRole)

/-- `assertRole`. -/
def assertRole (actor : ActorIdentity) (requiredRole : UserRole) (command : String)
    (requiredKind : Option ActorKind) : Except Failure Unit :=
  if requiredKind.any (fun kind => decide (actor.actorKind ≠ kind)) then
    .error (.authorization actor.id actor.role requiredRole command)
  else if !meetsRole actor.role requiredRole then
    .error (.authorization actor.id actor.role requiredRole command)
  else .ok ()

/-! ### Handlers -/

/-- `IDEMPOTENCY_TTL_MS` of most handlers: seven days. -/
def idempotencyTtlMs : ℤ := 7 * 24 * 60 * 60 * 1000

/-- What a handler's transaction does around its own work: claims the key first, replays the stored
result when the key is taken, and stores the new result last. -/
def withIdempotencyKey (key scope : String) (ttlMs : ℤ) (body : Sql CommandResult) :
    Sql CommandResult := do
  let claim ← claimIdempotencyKey key scope ttlMs
  match claim with
  | .replay result => pure result
  | .owned claimId => do
    let result ← body
    fulfillIdempotencyKey claimId result
    pure result

/-- A command handler. -/
structure CommandHandler (P : Type) where
  commandName : String
  requiredRole : UserRole
  requiredActorKind : Option ActorKind
  idempotencyScope : String
  ttlMs : ℤ := idempotencyTtlMs
  /-- What the evidence phase hands to the transaction; `Unit` for a handler without one. -/
  Evidence : Type
  /-- The evidence phase, before the claim. -/
  evidence : CommandEnvelope P → Sql Evidence
  /-- The work done under the claim. -/
  body : CommandEnvelope P → Evidence → Sql CommandResult
  /-- What the handler throws after its commit: `ValidateBacklogHandler` records an invalid outcome
  before it reports it. -/
  afterCommit : CommandResult → Option Failure := fun _ => none
  evidence_keys : ∀ envelope, Frame (fun s => (s.db.idempotencyKeys, s.runtime)) (evidence envelope)
  body_keys : ∀ envelope ev, Frame (fun s => (s.db.idempotencyKeys, s.runtime)) (body envelope ev)

/-- A handler without an evidence phase. -/
theorem evidence_keys_pure {P : Type} (_ : CommandEnvelope P) :
    Frame (fun s : Session => (s.db.idempotencyKeys, s.runtime)) (pure () : Sql Unit) :=
  frame_pure _

namespace CommandHandler

variable {P : Type} (handler : CommandHandler P)

/-- The handler's transaction. -/
def transact (envelope : CommandEnvelope P) (ev : handler.Evidence) : Sql CommandResult :=
  transaction (withIdempotencyKey envelope.idempotencyKey handler.idempotencyScope handler.ttlMs
    (handler.body envelope ev))

/-- The return after the transaction. -/
def finish (result : CommandResult) : Except Failure CommandResult :=
  match handler.afterCommit result with
  | none => .ok result
  | some e => .error e

/-- `CommandHandler.execute`. -/
def execute (envelope : CommandEnvelope P) : Sql CommandResult := do
  let ev ← handler.evidence envelope
  let result ← handler.transact envelope ev
  orThrow (handler.finish result)

end CommandHandler

/-! ### The executor -/

/-- `SELECT result FROM idempotency_keys WHERE … AND expires_at > now AND result IS NOT NULL`. -/
def Db.findCachedResult (db : Db) (key scope : String) (now : ℤ) : Option CachedResult :=
  (db.idempotencyKeys.find? fun row =>
    isKey key scope row && decide (now < row.expiresAt) && row.result.isSome).bind (·.result)

/-- `TransactionalCommandExecutor.checkIdempotencyKey`. -/
def checkIdempotencyKey (key scope : String) : Sql (Option CommandResult) := do
  let now ← isoNow
  let cached ← query fun db => db.findCachedResult key scope now
  pure (cached.map (·.toCommandResult))

/-- The executor's role check and cache lookup, before the handler runs. -/
def precheck {P : Type} (handler : CommandHandler P) (envelope : CommandEnvelope P) :
    Sql (Option CommandResult) := do
  orThrow (assertRole envelope.actor handler.requiredRole handler.commandName
    handler.requiredActorKind)
  checkIdempotencyKey envelope.idempotencyKey handler.idempotencyScope

/-- `TransactionalCommandExecutor.execute`. -/
def executeCommand {P : Type} (handler : CommandHandler P) (envelope : CommandEnvelope P) :
    Sql CommandResult := do
  let cached ← precheck handler envelope
  match cached with
  | some result => pure result
  | none => handler.execute envelope

/-! ### What a call did -/

variable {P : Type} {handler : CommandHandler P} {envelope : CommandEnvelope P} {s s' : Session}

/-- A cached result is the result of the live row of its key. -/
theorem Db.findCachedResult_iff {db : Db} {key scope : String} {now : ℤ} {cached : CachedResult} :
    db.findCachedResult key scope now = some cached ↔
      ∃ row ∈ db.idempotencyKeys.rows, Db.isKey key scope row = true ∧ now < row.expiresAt ∧
        row.result = some cached := by
  constructor
  · intro h
    obtain ⟨row, hfind, hresult⟩ := Option.bind_eq_some_iff.mp h
    have hp := Table.prop_of_find? _ hfind
    simp only [Bool.and_eq_true, decide_eq_true_eq] at hp
    exact ⟨row, Table.mem_of_find? _ hfind, hp.1.1, hp.1.2, hresult⟩
  · rintro ⟨row, hrow, hkey, hlive, hresult⟩
    refine Option.bind_eq_some_iff.mpr ⟨row, ?_, hresult⟩
    refine db.idempotencyKeys.find?_eq_some hrow ?_ fun row' hp => ?_
    · rw [hkey, decide_eq_true hlive, hresult]
      rfl
    · rw [Bool.and_eq_true, Bool.and_eq_true] at hp
      exact IdempotencyKey.clash_of_isKey hkey hp.1.1

/-- The precheck reads; it found a cached result, or no live row with one. -/
theorem precheck_ok {r : Option CommandResult} (h : exec (precheck handler envelope) s = (.ok r, s')) :
    s'.db = s.db ∧ s'.runtime = s.runtime ∧
      r = (s.db.findCachedResult envelope.idempotencyKey handler.idempotencyScope
        s.runtime.now).map (·.toCommandResult) := by
  obtain ⟨_, s₁, hrole, hcheck⟩ := exec_bind_ok.mp h
  obtain ⟨-, rfl⟩ := orThrow_ok hrole
  obtain ⟨now, s₂, hnow, hquery⟩ := exec_bind_ok.mp hcheck
  simp only [exec_isoNow, Prod.mk.injEq, Except.ok.injEq] at hnow
  obtain ⟨rfl, rfl⟩ := hnow
  obtain ⟨cached, s₃, hread, hpure⟩ := exec_bind_ok.mp hquery
  obtain ⟨rfl, hdb, hrt⟩ := query_ok hread
  simp only [exec_pure, Prod.mk.injEq, Except.ok.injEq] at hpure
  obtain ⟨rfl, rfl⟩ := hpure
  exact ⟨hdb, hrt, rfl⟩

theorem frame_precheck {τ : Type} {π : Session → τ} (hπ : SeesData π) :
    Frame π (precheck handler envelope) :=
  frame_bind (frame_orThrow _) fun _ => frame_bind frame_isoNow fun _ =>
    frame_bind (frame_query hπ _) fun _ => frame_pure _

theorem fails_precheck {p : Failure → Prop} (h : p .database)
    (hrole : ∀ actor : ActorIdentity, p (.authorization actor.id actor.role handler.requiredRole
      handler.commandName)) : Fails p (precheck handler envelope) := by
  refine fails_bind (fails_orThrow fun e he => ?_) fun _ => fails_bind (fails_read _) fun _ =>
    fails_bind (fails_query h _) fun _ => fails_pure _
  unfold assertRole at he
  split at he
  · rw [← Except.error.inj he]
    exact hrole envelope.actor
  · split at he
    · rw [← Except.error.inj he]
      exact hrole envelope.actor
    · cases he

/-- What a transaction that returned did: it replayed the stored result and changed no table, or it
did the work between the claim and the fulfilment. -/
theorem withIdempotencyKey_ok {key scope : String} {ttlMs : ℤ} {body : Sql CommandResult}
    {result : CommandResult}
    (h : exec (withIdempotencyKey key scope ttlMs body) s = (.ok result, s')) :
    (s'.db = s.db ∧ exec (claimIdempotencyKey key scope ttlMs) s = (.ok (.replay result), s')) ∨
      ∃ claimId s₁ s₂,
        exec (claimIdempotencyKey key scope ttlMs) s = (.ok (.owned claimId), s₁) ∧
        exec body s₁ = (.ok result, s₂) ∧
        s'.db = s₂.db.fulfillKey claimId (.command result) := by
  obtain ⟨claim, s₁, hclaim, hrest⟩ := exec_bind_ok.mp h
  rcases claim with claimId | cached
  · obtain ⟨r, s₂, hbody, hfulfil⟩ := exec_bind_ok.mp hrest
    obtain ⟨u, s₃, hful, hpure⟩ := exec_bind_ok.mp hfulfil
    simp only [exec_pure, Prod.mk.injEq, Except.ok.injEq] at hpure
    obtain ⟨rfl, rfl⟩ := hpure
    exact Or.inr ⟨claimId, s₁, s₂, hclaim, hbody, fulfillIdempotencyKey_ok hful⟩
  · simp only [exec_pure, Prod.mk.injEq, Except.ok.injEq] at hrest
    obtain ⟨rfl, rfl⟩ := hrest
    exact Or.inl ⟨(claimIdempotencyKey_replay hclaim).1, hclaim⟩

/-- **What a handler's transaction that returned did to the idempotency keys**: it replayed the live
row of its key and changed no table; or it found every row of its key expired, and left one with its
result in their place. -/
theorem CommandHandler.transact_ok {ev : handler.Evidence} {result : CommandResult}
    (h : exec (handler.transact envelope ev) s = (.ok result, s')) :
    (s'.db = s.db ∧ ∃ row ∈ s.db.idempotencyKeys.rows,
        Db.isKey envelope.idempotencyKey handler.idempotencyScope row = true ∧
        s.runtime.now < row.expiresAt ∧
          ∃ cached, row.result = some cached ∧ cached.toCommandResult = result) ∨
      ((∀ row ∈ s.db.idempotencyKeys.rows,
          Db.isKey envelope.idempotencyKey handler.idempotencyScope row = true →
            row.expiresAt ≤ s.runtime.now) ∧
        ∃ claimId, ∀ row, row ∈ s'.db.idempotencyKeys.rows ↔
          (row ∈ s.db.idempotencyKeys.rows ∧
            Db.isKey envelope.idempotencyKey handler.idempotencyScope row = false) ∨
          row = {
            id := claimId
            key := envelope.idempotencyKey
            scope := handler.idempotencyScope
            result := some (.command result)
            expiresAt := s.runtime.now + handler.ttlMs
            version := 2 }) := by
  obtain ⟨s₀, hbody, hdb, -⟩ := transaction_ok h
  rcases withIdempotencyKey_ok hbody with ⟨hsame, hclaim⟩ | ⟨claimId, s₁, s₂, hclaim, hwork, hfulfil⟩
  · exact Or.inl ⟨hdb.trans hsame, (claimIdempotencyKey_replay hclaim).2⟩
  · obtain ⟨hexpired, hrows⟩ := claimIdempotencyKey_owned hclaim
    refine Or.inr ⟨hexpired, claimId, fun row => ?_⟩
    have hkeys : s₂.db.idempotencyKeys = s₁.db.idempotencyKeys :=
      congrArg Prod.fst ((handler.body_keys envelope ev).of_exec hwork)
    rw [hdb, hfulfil, mem_fulfillKey, hkeys]
    -- the row of the claim is the only one with its id
    have hnew := (hrows _).mpr (Or.inr rfl)
    have hset : ∀ r : IdempotencyKey, r.id = claimId →
        Table.updateRow (fun row => row.id == claimId) (Db.fulfilled (.command result)) r =
          Db.fulfilled (.command result) r :=
      fun r hid => Table.updateRow_of_pos (beq_iff_eq.mpr hid)
    have hkeep : ∀ r : IdempotencyKey, r.id ≠ claimId →
        Table.updateRow (fun row => row.id == claimId) (Db.fulfilled (.command result)) r = r :=
      fun r hid => Table.updateRow_of_neg (beq_eq_false_iff_ne.mpr hid)
    constructor
    · rintro ⟨r, hr, rfl⟩
      by_cases hid : r.id = claimId
      · obtain rfl := IdempotencyKey.eq_of_id hr hnew hid
        exact Or.inr (hset _ rfl)
      · rw [hkeep r hid]
        rcases (hrows r).mp hr with hold | rfl
        · exact Or.inl hold
        · exact absurd rfl hid
    · rintro (hold | rfl)
      · have hr := (hrows row).mpr (Or.inl hold)
        refine ⟨row, hr, hkeep row fun hid => ?_⟩
        -- a row of another key is not the claim's
        rw [IdempotencyKey.eq_of_id hr hnew hid] at hold
        simp [Db.isKey] at hold
      · exact ⟨_, hnew, hset _ rfl⟩

/-- A transaction leaves alone what its body leaves alone, the keys apart. -/
theorem CommandHandler.frame_transact {τ : Type} {g : Db → τ} {ev : handler.Evidence}
    (hkeys : ∀ db t, g { db with idempotencyKeys := t } = g db)
    (hbody : Frame (fun s : Session => g s.db) (handler.body envelope ev)) :
    Frame (fun s : Session => g s.db) (handler.transact envelope ev) := by
  refine frame_transaction (frame_bind (frame_claimIdempotencyKey (fun _ _ _ => rfl)
    (fun s t => hkeys s.db t) _ _ _) fun claim => ?_)
  cases claim with
  | replay result => exact frame_pure _
  | owned claimId =>
    exact frame_bind hbody fun result => frame_bind (frame_fulfillIdempotencyKey
      (fun _ _ _ => rfl) (fun s t => hkeys s.db t) _ _) fun _ => frame_pure _

/-- No call changes what its process takes from outside. -/
theorem CommandHandler.frame_execute_runtime :
    Frame Session.runtime (handler.execute envelope) := by
  have hseen : SeesData Session.runtime := fun _ _ _ => rfl
  refine frame_bind ((handler.evidence_keys envelope).map Prod.snd) fun ev => frame_bind
    (frame_transaction_runtime (frame_bind (frame_claimIdempotencyKey hseen (fun _ _ => rfl) _ _ _)
      fun claim => ?_)) fun result => frame_orThrow _
  cases claim with
  | replay result => exact frame_pure _
  | owned claimId =>
    exact frame_bind ((handler.body_keys envelope ev).map Prod.snd) fun result =>
      frame_bind (frame_fulfillIdempotencyKey hseen (fun _ _ => rfl) _ _) fun _ => frame_pure _

/-- What a handler returns is what its transaction returned. -/
theorem CommandHandler.eq_of_finish {result r : CommandResult}
    (h : handler.finish result = .ok r) : result = r := by
  unfold CommandHandler.finish at h
  split at h
  · exact Except.ok.inj h
  · cases h

/-- **What a call that returned did**: it answered from the cache, it replayed the result stored
under its key, or it committed new work. -/
theorem executeCommand_ok {result : CommandResult}
    (h : exec (executeCommand handler envelope) s = (.ok result, s')) :
    (s'.db = s.db ∧ (s.db.findCachedResult envelope.idempotencyKey handler.idempotencyScope
        s.runtime.now).map (·.toCommandResult) = some result) ∨
      ∃ ev s₁ s₂, s₁.db = s.db ∧ s₁.runtime = s.runtime ∧
        exec (handler.evidence envelope) s₁ = (.ok ev, s₂) ∧
        exec (handler.transact envelope ev) s₂ = (.ok result, s') := by
  obtain ⟨cached, s₁, hpre, hrest⟩ := exec_bind_ok.mp h
  obtain ⟨hdb, hrt, hcached⟩ := precheck_ok hpre
  rcases cached with _ | r
  · obtain ⟨ev, s₂, hev, hexec⟩ := exec_bind_ok.mp hrest
    obtain ⟨r, s₃, htx, hfinish⟩ := exec_bind_ok.mp hexec
    obtain ⟨hr, rfl⟩ := orThrow_ok hfinish
    obtain rfl := CommandHandler.eq_of_finish hr
    exact Or.inr ⟨ev, s₁, s₂, hdb, hrt, hev, htx⟩
  · simp only [exec_pure, Prod.mk.injEq, Except.ok.injEq] at hrest
    obtain ⟨rfl, rfl⟩ := hrest
    exact Or.inl ⟨hdb, hcached.symm⟩

/-- **A call that threw** left every table that its evidence phase does not write as it was, when
the handler throws nothing after its commit. -/
theorem executeCommand_error {τ : Type} {g : Db → τ} {e : Failure}
    (hafter : ∀ result, handler.afterCommit result = none)
    (hg : Frame (fun s : Session => g s.db) (handler.evidence envelope))
    (h : exec (executeCommand handler envelope) s = (.error e, s')) : g s'.db = g s.db := by
  have hpre : Frame (fun s : Session => g s.db) (precheck handler envelope) :=
    frame_precheck fun _ _ _ => rfl
  rcases exec_bind_error.mp h with hthrow | ⟨cached, s₁, hcached, hrest⟩
  · exact hpre.of_exec hthrow
  · have hs₁ : g s₁.db = g s.db := hpre.of_exec hcached
    rcases cached with _ | r
    · rcases exec_bind_error.mp hrest with hthrow | ⟨ev, s₂, hev, hexec⟩
      · exact (hg.of_exec hthrow).trans hs₁
      · have hs₂ : g s₂.db = g s.db := (hg.of_exec hev).trans hs₁
        rcases exec_bind_error.mp hexec with htx | ⟨result, s₃, -, hfinish⟩
        · rw [transaction_error htx]
          exact hs₂
        · simp [CommandHandler.finish, hafter, orThrow] at hfinish
    · simp at hrest

end MiniCoder
