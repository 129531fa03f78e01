import MiniCoder.Commands.Helpers
import MiniCoder.Library.Fencing

/-!
# The workflow lock manager

`WorkflowLockManager`: leases of a `(project, resource key)` with fencing tokens.  The row of a lock
is never deleted; an acquisition and a release both raise its fence.

* `Lease.Evolves`: what any sequence of calls may do to a row.
* `acquire_ok`, `release_ok`, `heartbeat_ok`: what each call did to the lock table.
* `LockEvent.evolves`, `LockEvent.next_withoutLocks`: what any call does, and what it leaves alone.
-/

open Storage Storage.Action

namespace MiniCoder

/-! ### The calls -/

/-- `LockOptions`. -/
structure LockOptions where
  holderId : String
  ttlMs : ℤ
  deriving DecidableEq, Repr

/-- `AcquiredLock`: the token a caller holds. -/
structure AcquiredLock where
  lockId : String
  resourceKey : String
  fence : ℕ
  expiresAt : Option ℤ
  holderId : String
  deriving DecidableEq, Repr

namespace Db

/-- The row of `(project_id, resource_key)`. -/
def isLockOf (projectId resourceKey : String) (lock : WorkflowLock) : Bool :=
  lock.projectId == projectId && lock.resourceKey == resourceKey

/-- The row of a lock, when it has expired or is the caller's own. -/
def isClaimable (projectId resourceKey holderId : String) (now : ℤ) (lock : WorkflowLock) : Bool :=
  isLockOf projectId resourceKey lock &&
    (lock.expiresAt.any (fun t => decide (t ≤ now)) || lock.holderId == holderId)

/-- `id = ? AND holder_id = ? AND fence = ?`. -/
def isHeld (token : AcquiredLock) (lock : WorkflowLock) : Bool :=
  lock.id == token.lockId && lock.holderId == token.holderId && lock.fence == token.fence

/-- The `SET` list of a claim. -/
def claimLease (options : LockOptions) (now : ℤ) (lock : WorkflowLock) : WorkflowLock :=
  { lock with
    holderId := options.holderId
    fence := lock.fence + 1
    expiresAt := some (now + options.ttlMs)
    version := lock.version + 1 }

/-- The `SET` list of a release: the row expires, and keeps its fence counter. -/
def releaseLease (now : ℤ) (lock : WorkflowLock) : WorkflowLock :=
  { lock with fence := lock.fence + 1, expiresAt := some now, version := lock.version + 1 }

/-- The `SET` list of a heartbeat. -/
def extendLease (expiresAt : ℤ) (lock : WorkflowLock) : WorkflowLock :=
  { lock with expiresAt := some expiresAt, version := lock.version + 1 }

theorem keyFree_claimLease (options : LockOptions) (now : ℤ) :
    KeyFree (claimLease options now) := fun _ _ => rfl

theorem keyFree_releaseLease (now : ℤ) : KeyFree (releaseLease now) := fun _ _ => rfl

theorem keyFree_extendLease (expiresAt : ℤ) : KeyFree (extendLease expiresAt) := fun _ _ => rfl

/-- `INSERT INTO workflow_locks … ON CONFLICT (project_id, resource_key) DO NOTHING`. -/
def insertLock (db : Db) (row : WorkflowLock) : Option (ℕ × Db) :=
  if db.workflowLocks.count (isLockOf row.projectId row.resourceKey) = 0 then
    (db.workflowLocks.insert? row).map fun t => (1, { db with workflowLocks := t })
  else some (0, db)

end Db

/-- The row of a lock that is acquired for the first time. -/
def firstLease (projectId resourceKey lockId : String) (options : LockOptions) (now : ℤ) :
    WorkflowLock where
  id := lockId
  projectId
  resourceKey
  holderId := options.holderId
  fence := 1
  expiresAt := some (now + options.ttlMs)

/-- The first half of `acquire`: claims the row of the lock, or inserts it. -/
def claimOrInsert (projectId resourceKey lockId : String) (options : LockOptions) (now : ℤ) :
    Sql Unit := do
  let claimable := Db.isClaimable projectId resourceKey options.holderId now
  let updated ← execute fun db => some (db.workflowLocks.count claimable,
    { db with
      workflowLocks := db.workflowLocks.update claimable (Db.claimLease options now)
        (Db.keyFree_claimLease options now) })
  if updated = 0 then
    let inserted ← execute fun db =>
      db.insertLock (firstLease projectId resourceKey lockId options now)
    -- the row exists, has not expired, and is another holder's
    if inserted = 0 then throw (.lockConflict resourceKey options.holderId) else pure ()
  else
    pure ()

/-- The second half of `acquire`: reads the fence back. -/
def readLease (projectId resourceKey holderId : String) : Sql AcquiredLock := do
  let row ← query fun db => db.workflowLocks.find? (Db.isLockOf projectId resourceKey)
  match row with
  | none => throw (.lockRowMissing projectId resourceKey)
  | some lock => pure {
      lockId := lock.id
      resourceKey
      fence := lock.fence
      expiresAt := lock.expiresAt
      holderId }

/-- `WorkflowLockManager.acquire`. -/
def acquire (projectId resourceKey : String) (options : LockOptions) : Sql AcquiredLock := do
  let now ← isoNow
  let lockId ← generateId
  transaction do
    claimOrInsert projectId resourceKey lockId options now
    readLease projectId resourceKey options.holderId

/-- `WorkflowLockManager.release`. -/
def release (token : AcquiredLock) : Sql Unit := do
  let now ← isoNow
  execute fun db => some ((),
    { db with
      workflowLocks := db.workflowLocks.update (Db.isHeld token) (Db.releaseLease now)
        (Db.keyFree_releaseLease now) })

/-- `WorkflowLockManager.heartbeat`. -/
def heartbeat (token : AcquiredLock) (ttlMs : ℤ) : Sql Unit := do
  let expiresAt ← ttlIso ttlMs
  execute fun db => some ((),
    { db with
      workflowLocks := db.workflowLocks.update (Db.isHeld token) (Db.extendLease expiresAt)
        (Db.keyFree_extendLease expiresAt) })

/-- The checks of `assertFence` on the row it read. -/
def checkFence (current : Option WorkflowLock) (now : ℤ) (token : AcquiredLock) :
    Except Failure Unit :=
  match current with
  | none => .error (.staleFence token.lockId token.fence (-1))
  | some lock =>
    if lock.expiresAt.any (fun t => decide (t < now)) then
      .error (.staleFence token.lockId token.fence lock.fence)
    else if lock.fence ≠ token.fence then
      .error (.staleFence token.lockId token.fence lock.fence)
    else .ok ()

/-- `WorkflowLockManager.assertFence`. -/
def assertFence (token : AcquiredLock) : Sql Unit := do
  let now ← isoNow
  let current ← query fun db => db.findLock token.lockId
  orThrow (checkFence current now token)

/-! ### What a call leaves alone -/

/-- The database without the lock table. -/
def Db.withoutLocks (db : Db) : Db := { db with workflowLocks := .empty }

theorem frame_claimOrInsert (projectId resourceKey lockId : String) (options : LockOptions)
    (now : ℤ) :
    Frame (fun s => s.db.withoutLocks)
      (claimOrInsert projectId resourceKey lockId options now) := by
  refine frame_bind (frame_execute (fun _ _ _ => rfl) fun s n db h => ?_) fun updated =>
    frame_ite (frame_bind (frame_execute (fun _ _ _ => rfl) fun s n db h => ?_) fun _ =>
      frame_ite (frame_throw _) (frame_pure _)) (frame_pure _)
  · obtain ⟨-, rfl⟩ := Prod.mk.inj (Option.some.inj h)
    rfl
  · unfold Db.insertLock at h
    split at h
    · obtain ⟨t, -, ht⟩ := Option.map_eq_some_iff.mp h
      rw [← (Prod.mk.inj ht).2]
      rfl
    · obtain ⟨-, rfl⟩ := Prod.mk.inj (Option.some.inj h)
      rfl

theorem frame_acquire (projectId resourceKey : String) (options : LockOptions) :
    Frame (fun s => s.db.withoutLocks) (acquire projectId resourceKey options) := by
  refine frame_bind frame_isoNow fun now => frame_bind (frame_generateId fun _ _ _ => rfl)
    fun lockId => frame_transaction (frame_bind (frame_claimOrInsert _ _ _ _ _) fun _ => ?_)
  refine frame_bind (frame_query (fun _ _ _ => rfl) _) fun row => ?_
  split
  · exact frame_throw _
  · exact frame_pure _

theorem frame_release (token : AcquiredLock) :
    Frame (fun s => s.db.withoutLocks) (release token) := by
  refine frame_bind frame_isoNow fun now => frame_execute (fun _ _ _ => rfl) fun s _ db h => ?_
  obtain ⟨-, rfl⟩ := Prod.mk.inj (Option.some.inj h)
  rfl

theorem frame_heartbeat (token : AcquiredLock) (ttlMs : ℤ) :
    Frame (fun s => s.db.withoutLocks) (heartbeat token ttlMs) := by
  refine frame_bind (frame_ttlIso _) fun expiresAt =>
    frame_execute (fun _ _ _ => rfl) fun s _ db h => ?_
  obtain ⟨-, rfl⟩ := Prod.mk.inj (Option.some.inj h)
  rfl

/-! ### What a call may do to a lease -/

/-- A row after any calls: the same lock, with the same holder and fence, or a higher fence. -/
structure Lease.Evolves (lock lock' : WorkflowLock) : Prop where
  id : lock'.id = lock.id
  project : lock'.projectId = lock.projectId
  resource : lock'.resourceKey = lock.resourceKey
  held : lock.fence < lock'.fence ∨ (lock'.fence = lock.fence ∧ lock'.holderId = lock.holderId)

theorem Lease.Evolves.refl (lock : WorkflowLock) : Lease.Evolves lock lock :=
  ⟨rfl, rfl, rfl, Or.inr ⟨rfl, rfl⟩⟩

theorem Lease.Evolves.trans {lock lock' lock'' : WorkflowLock} (h : Lease.Evolves lock lock')
    (h' : Lease.Evolves lock' lock'') : Lease.Evolves lock lock'' where
  id := h'.id.trans h.id
  project := h'.project.trans h.project
  resource := h'.resource.trans h.resource
  held := by
    rcases h.held with hlt | ⟨hfence, hholder⟩
    · rcases h'.held with hlt' | ⟨hfence', -⟩
      · exact Or.inl (by omega)
      · exact Or.inl (by omega)
    · rcases h'.held with hlt' | ⟨hfence', hholder'⟩
      · exact Or.inl (by omega)
      · exact Or.inr ⟨hfence'.trans hfence, hholder'.trans hholder⟩

theorem Lease.Evolves.fence_le {lock lock' : WorkflowLock} (h : Lease.Evolves lock lock') :
    lock.fence ≤ lock'.fence := by
  rcases h.held with hlt | ⟨hfence, -⟩
  · omega
  · omega

/-- Every row of the lock table lives on, evolved. -/
def LocksEvolve (db db' : Db) : Prop :=
  ∀ lock ∈ db.workflowLocks.rows, ∃ lock' ∈ db'.workflowLocks.rows, Lease.Evolves lock lock'

theorem LocksEvolve.refl (db : Db) : LocksEvolve db db := fun lock hlock =>
  ⟨lock, hlock, Lease.Evolves.refl lock⟩

theorem LocksEvolve.of_eq {db db' : Db} (h : db'.workflowLocks = db.workflowLocks) :
    LocksEvolve db db' := fun lock hlock =>
  ⟨lock, by rw [h]; exact hlock, Lease.Evolves.refl lock⟩

theorem LocksEvolve.trans {db db' db'' : Db} (h : LocksEvolve db db') (h' : LocksEvolve db' db'') :
    LocksEvolve db db'' := by
  intro lock hlock
  obtain ⟨lock', hlock', hev⟩ := h lock hlock
  obtain ⟨lock'', hlock'', hev'⟩ := h' lock' hlock'
  exact ⟨lock'', hlock'', hev.trans hev'⟩

/-- An update whose `SET` list evolves the rows it matches. -/
theorem LocksEvolve.of_update {db db' : Db} {p : WorkflowLock → Bool}
    {f : WorkflowLock → WorkflowLock} (hf : KeyFree f)
    (hdb : db'.workflowLocks = db.workflowLocks.update p f hf)
    (hev : ∀ lock, Lease.Evolves lock (f lock)) : LocksEvolve db db' := by
  intro lock hlock
  refine ⟨Table.updateRow p f lock, ?_, ?_⟩
  · rw [hdb]
    exact Table.mem_update.mpr ⟨lock, hlock, rfl⟩
  · by_cases hp : p lock = true
    · rw [Table.updateRow_of_pos hp]
      exact hev lock
    · rw [Table.updateRow_of_neg (by simpa using hp)]
      exact Lease.Evolves.refl lock

theorem evolves_claimLease (options : LockOptions) (now : ℤ) (lock : WorkflowLock) :
    Lease.Evolves lock (Db.claimLease options now lock) :=
  ⟨rfl, rfl, rfl, Or.inl (Nat.lt_succ_self _)⟩

theorem evolves_releaseLease (now : ℤ) (lock : WorkflowLock) :
    Lease.Evolves lock (Db.releaseLease now lock) :=
  ⟨rfl, rfl, rfl, Or.inl (Nat.lt_succ_self _)⟩

theorem evolves_extendLease (expiresAt : ℤ) (lock : WorkflowLock) :
    Lease.Evolves lock (Db.extendLease expiresAt lock) :=
  ⟨rfl, rfl, rfl, Or.inr ⟨rfl, rfl⟩⟩

/-! ### Keys of the lock table -/

theorem WorkflowLock.eq_of_id {db : Db} {lock lock' : WorkflowLock}
    (hlock : lock ∈ db.workflowLocks.rows) (hlock' : lock' ∈ db.workflowLocks.rows)
    (h : lock.id = lock'.id) : lock = lock' :=
  db.workflowLocks.eq_of_clash hlock hlock' (decide_eq_true (Or.inl h))

theorem WorkflowLock.eq_of_isLockOf {db : Db} {projectId resourceKey : String}
    {lock lock' : WorkflowLock} (hlock : lock ∈ db.workflowLocks.rows)
    (hlock' : lock' ∈ db.workflowLocks.rows) (h : Db.isLockOf projectId resourceKey lock = true)
    (h' : Db.isLockOf projectId resourceKey lock' = true) : lock = lock' := by
  simp only [Db.isLockOf, Bool.and_eq_true, beq_iff_eq] at h h'
  have hkey : (lock.projectId, lock.resourceKey) = (lock'.projectId, lock'.resourceKey) := by
    rw [h.1, h.2, h'.1, h'.2]
  exact db.workflowLocks.eq_of_clash hlock hlock' (decide_eq_true (Or.inr hkey))

/-- The fence of a `(project, resource key)`: 0 before its row exists. -/
def Db.fenceOf (key : String × String) (db : Db) : ℕ :=
  ((db.workflowLocks.find? (Db.isLockOf key.1 key.2)).map (·.fence)).getD 0

theorem Db.fenceOf_eq {db : Db} {lock : WorkflowLock} (hlock : lock ∈ db.workflowLocks.rows) :
    db.fenceOf (lock.projectId, lock.resourceKey) = lock.fence := by
  have hself : Db.isLockOf lock.projectId lock.resourceKey lock = true := by simp [Db.isLockOf]
  have hfind := db.workflowLocks.find?_eq_some hlock hself fun lock' h' => by
    simp only [Db.isLockOf, Bool.and_eq_true, beq_iff_eq] at h'
    exact decide_eq_true (Or.inr (Prod.ext h'.1.symm h'.2.symm))
  rw [Db.fenceOf, hfind]
  rfl

/-- No step that evolves the rows lowers a fence. -/
theorem LocksEvolve.fenceOf_le {db db' : Db} (h : LocksEvolve db db') (key : String × String) :
    db.fenceOf key ≤ db'.fenceOf key := by
  unfold Db.fenceOf
  rcases hfind : db.workflowLocks.find? (Db.isLockOf key.1 key.2) with _ | lock
  · exact Nat.zero_le _
  · have hmem := db.workflowLocks.mem_of_find? hfind
    have hkey := db.workflowLocks.prop_of_find? hfind
    simp only [Db.isLockOf, Bool.and_eq_true, beq_iff_eq] at hkey
    obtain ⟨lock', hmem', hev⟩ := h lock hmem
    have hfence := Db.fenceOf_eq hmem'
    rw [hev.project, hev.resource, hkey.1, hkey.2, Db.fenceOf] at hfence
    rw [hfence]
    exact hev.fence_le

/-! ### What a call did -/

section Calls

variable {projectId resourceKey lockId : String} {options : LockOptions} {token : AcquiredLock}
  {s s' : Session}

theorem Db.fenceOf_of_isLockOf {db : Db} {lock : WorkflowLock}
    (hlock : lock ∈ db.workflowLocks.rows) (h : Db.isLockOf projectId resourceKey lock = true) :
    db.fenceOf (projectId, resourceKey) = lock.fence := by
  simp only [Db.isLockOf, Bool.and_eq_true, beq_iff_eq] at h
  rw [← h.1, ← h.2]
  exact Db.fenceOf_eq hlock

/-- The row an acquisition leaves: the caller's, one fence higher than the lock had. -/
def Leased (projectId resourceKey holderId : String) (db db' : Db) : Prop :=
  ∃ lock ∈ db'.workflowLocks.rows, Db.isLockOf projectId resourceKey lock = true ∧
    lock.holderId = holderId ∧ lock.fence = db.fenceOf (projectId, resourceKey) + 1

theorem insertLock_one {db db' : Db} {row : WorkflowLock} {n : ℕ}
    (h : db.insertLock row = some (n, db')) (hn : n ≠ 0) :
    (∀ lock ∈ db.workflowLocks.rows, Db.isLockOf row.projectId row.resourceKey lock = false) ∧
      ∃ t, db.workflowLocks.insert? row = some t ∧ db' = { db with workflowLocks := t } := by
  unfold Db.insertLock at h
  split at h
  · rename_i hcount
    obtain ⟨t, ht, heq⟩ := Option.map_eq_some_iff.mp h
    exact ⟨Table.count_eq_zero.mp hcount, t, ht, (Prod.mk.inj heq).2.symm⟩
  · exact absurd (Prod.mk.inj (Option.some.inj h)).1.symm hn

theorem claimOrInsert_ok {now : ℤ}
    (h : exec (claimOrInsert projectId resourceKey lockId options now) s = (.ok (), s')) :
    LocksEvolve s.db s'.db ∧ Leased projectId resourceKey options.holderId s.db s'.db := by
  obtain ⟨updated, s₁, hupdate, h₁⟩ := exec_bind_ok.mp h
  obtain ⟨hdb, -⟩ := execute_ok hupdate
  obtain ⟨rfl, hdb₁⟩ := Prod.mk.inj (Option.some.inj hdb)
  have hlocks₁ : s₁.db.workflowLocks = s.db.workflowLocks.update
      (Db.isClaimable projectId resourceKey options.holderId now) (Db.claimLease options now)
      (Db.keyFree_claimLease options now) := by rw [← hdb₁]
  rw [exec_ite] at h₁
  split at h₁
  · -- no row to claim: the row is inserted, or another holder has it
    rename_i hnone
    have hsame : s₁.db.workflowLocks = s.db.workflowLocks :=
      hlocks₁.trans (Table.update_eq_self (Db.keyFree_claimLease options now) hnone)
    obtain ⟨inserted, s₂, hinsert, h₂⟩ := exec_bind_ok.mp h₁
    obtain ⟨hins, -⟩ := execute_ok hinsert
    rw [exec_ite] at h₂
    split at h₂
    · simp at h₂
    · rename_i hone
      obtain ⟨-, rfl⟩ := Prod.mk.inj h₂
      obtain ⟨hfree, t, ht, hdb₂⟩ := insertLock_one hins hone
      have hrows : ∀ x, x ∈ s₂.db.workflowLocks.rows ↔ x ∈ s₁.db.workflowLocks.rows ∨
          x = firstLease projectId resourceKey lockId options now := by
        intro x
        rw [hdb₂]
        exact Table.mem_insert? ht
      rw [hsame] at hfree hrows
      refine ⟨fun lock hlock => ⟨lock, (hrows lock).mpr (Or.inl hlock), Lease.Evolves.refl lock⟩,
        _, (hrows _).mpr (Or.inr rfl), by simp [Db.isLockOf, firstLease], rfl, ?_⟩
      have hfind : s.db.workflowLocks.find? (Db.isLockOf projectId resourceKey) = none :=
        s.db.workflowLocks.find?_eq_none.mpr hfree
      simp only [Db.fenceOf, hfind]
      rfl
  · rename_i hcount
    obtain ⟨-, rfl⟩ := Prod.mk.inj h₁
    obtain ⟨lock, hlock, hclaim⟩ := Table.count_pos hcount
    have hkey : Db.isLockOf projectId resourceKey lock = true := by
      rw [Db.isClaimable, Bool.and_eq_true] at hclaim
      exact hclaim.1
    refine ⟨LocksEvolve.of_update (Db.keyFree_claimLease options now) hlocks₁
      (evolves_claimLease options now),
      Db.claimLease options now lock, ?_, hkey, rfl, ?_⟩
    · rw [hlocks₁]
      exact Table.mem_update.mpr ⟨lock, hlock, Table.updateRow_of_pos hclaim⟩
    · rw [Db.fenceOf_of_isLockOf hlock hkey]
      rfl

theorem readLease_ok {holderId : String}
    (h : exec (readLease projectId resourceKey holderId) s = (.ok token, s')) :
    s'.db = s.db ∧ token.resourceKey = resourceKey ∧ token.holderId = holderId ∧
      ∃ lock ∈ s.db.workflowLocks.rows, Db.isLockOf projectId resourceKey lock = true ∧
        lock.id = token.lockId ∧ lock.fence = token.fence := by
  obtain ⟨row, s₁, hquery, hrest⟩ := exec_bind_ok.mp h
  obtain ⟨hrow, hdb, -⟩ := query_ok hquery
  rcases row with _ | lock
  · simp at hrest
  · obtain ⟨htoken, rfl⟩ := Prod.mk.inj hrest
    obtain rfl := Except.ok.inj htoken
    exact ⟨hdb, rfl, rfl, lock, s.db.workflowLocks.mem_of_find? hrow.symm,
      s.db.workflowLocks.prop_of_find? hrow.symm, rfl, rfl⟩

/-- The row that stands behind a token. -/
structure Backs (projectId : String) (token : AcquiredLock) (lock : WorkflowLock) : Prop where
  id : lock.id = token.lockId
  key : Db.isLockOf projectId token.resourceKey lock = true
  fence : token.fence ≤ lock.fence
  holder : lock.fence = token.fence → lock.holderId = token.holderId

/-- **An acquisition that returned** evolved the locks, and granted the lock's next fence. -/
theorem acquire_ok (h : exec (acquire projectId resourceKey options) s = (.ok token, s')) :
    LocksEvolve s.db s'.db ∧ token.resourceKey = resourceKey ∧
      token.fence = s.db.fenceOf (projectId, resourceKey) + 1 ∧
      token.fence = s'.db.fenceOf (projectId, resourceKey) ∧
      ∃ lock ∈ s'.db.workflowLocks.rows, Backs projectId token lock := by
  obtain ⟨now, s₁, hnow, h₁⟩ := exec_bind_ok.mp h
  obtain ⟨id, s₂, hid, h₂⟩ := exec_bind_ok.mp h₁
  obtain ⟨-, rfl⟩ := Prod.mk.inj hnow
  obtain ⟨-, rfl⟩ := Prod.mk.inj hid
  obtain ⟨s₃, hbody, hdb, -⟩ := transaction_ok h₂
  obtain ⟨_, s₄, hclaim, hread⟩ := exec_bind_ok.mp hbody
  obtain ⟨hev, lock, hlock, hkey, hholder, hfence⟩ := claimOrInsert_ok hclaim
  obtain ⟨hdb₃, hresource, hheld, lock', hlock', hkey', hid', hfence'⟩ := readLease_ok hread
  obtain rfl := WorkflowLock.eq_of_isLockOf hlock' hlock hkey' hkey
  have hsame : s'.db = s₄.db := hdb.trans hdb₃
  rw [hsame, ← hfence', hresource]
  refine ⟨hev, rfl, hfence, (Db.fenceOf_of_isLockOf hlock' hkey).symm, lock', hlock', ?_⟩
  exact {
    id := hid'
    key := by rw [hresource]; exact hkey
    fence := by omega
    holder := fun _ => by rw [hheld, hholder] }

theorem acquire_error {e : Failure}
    (h : exec (acquire projectId resourceKey options) s = (.error e, s')) : s'.db = s.db := by
  rcases exec_bind_error.mp h with hnow | ⟨now, s₁, hnow, h₁⟩
  · simp at hnow
  · obtain ⟨-, rfl⟩ := Prod.mk.inj hnow
    rcases exec_bind_error.mp h₁ with hid | ⟨id, s₂, hid, h₂⟩
    · simp at hid
    · obtain ⟨-, rfl⟩ := Prod.mk.inj hid
      have hdb := transaction_error h₂
      exact hdb

/-- A release, whether it returned or threw, updated the rows its token holds or nothing. -/
theorem release_cases {r : Except Failure Unit} (h : exec (release token) s = (r, s')) :
    s'.db = s.db ∨ s'.db = { s.db with
      workflowLocks := s.db.workflowLocks.update (Db.isHeld token)
        (Db.releaseLease s.runtime.now) (Db.keyFree_releaseLease _) } := by
  rcases exec_bind_cases h with hnow | ⟨now, s₁, hnow, hexec⟩
  · simp at hnow
  · obtain ⟨hnow', rfl⟩ := Prod.mk.inj hnow
    obtain rfl := Except.ok.inj hnow'
    rcases execute_cases hexec with hsame | ⟨u, hdb⟩
    · exact Or.inl hsame
    · exact Or.inr (Prod.mk.inj (Option.some.inj hdb)).2.symm

theorem release_ok (h : exec (release token) s = (.ok (), s')) :
    s'.db.workflowLocks = s.db.workflowLocks.update (Db.isHeld token)
      (Db.releaseLease s.runtime.now) (Db.keyFree_releaseLease _) := by
  obtain ⟨now, s₁, hnow, hexec⟩ := exec_bind_ok.mp h
  obtain ⟨hnow', rfl⟩ := Prod.mk.inj hnow
  obtain rfl := Except.ok.inj hnow'
  obtain ⟨hdb, -⟩ := execute_ok hexec
  rw [← (Prod.mk.inj (Option.some.inj hdb)).2]

theorem heartbeat_cases {ttlMs : ℤ} {r : Except Failure Unit}
    (h : exec (heartbeat token ttlMs) s = (r, s')) :
    s'.db = s.db ∨ s'.db = { s.db with
      workflowLocks := s.db.workflowLocks.update (Db.isHeld token)
        (Db.extendLease (s.runtime.now + ttlMs)) (Db.keyFree_extendLease _) } := by
  rcases exec_bind_cases h with hexp | ⟨expiresAt, s₁, hexp, hexec⟩
  · simp at hexp
  · obtain ⟨hexp', rfl⟩ := Prod.mk.inj hexp
    obtain rfl := Except.ok.inj hexp'
    rcases execute_cases hexec with hsame | ⟨u, hdb⟩
    · exact Or.inl hsame
    · exact Or.inr (Prod.mk.inj (Option.some.inj hdb)).2.symm

end Calls

/-! ### Runs of calls -/

/-- A call of the lock manager. -/
inductive LockCall
  | acquire (projectId resourceKey : String) (options : LockOptions)
  | release (token : AcquiredLock)
  | heartbeat (token : AcquiredLock) (ttlMs : ℤ)

/-- A call, with the runtime of the process that makes it. -/
structure LockEvent where
  call : LockCall
  runtime : Runtime

/-- A token that was granted, with the project it was granted for. -/
structure Grant where
  projectId : String
  token : AcquiredLock
  deriving DecidableEq, Repr

/-- The `(project, resource key)` of a grant. -/
def Grant.key (g : Grant) : String × String := (g.projectId, g.token.resourceKey)

namespace LockEvent

/-- The tables after a call. -/
def next (db : Db) (e : LockEvent) : Db :=
  match e.call with
  | .acquire projectId resourceKey options =>
    (exec (acquire projectId resourceKey options) (.start db e.runtime)).2.db
  | .release token => (exec (release token) (.start db e.runtime)).2.db
  | .heartbeat token ttlMs => (exec (heartbeat token ttlMs) (.start db e.runtime)).2.db

/-- The token a call grants. -/
def granted (db : Db) (e : LockEvent) : Option Grant :=
  match e.call with
  | .acquire projectId resourceKey options =>
    match (exec (acquire projectId resourceKey options) (.start db e.runtime)).1 with
    | .ok token => some ⟨projectId, token⟩
    | .error _ => none
  | _ => none

/-- The call returned from releasing the token. -/
def Released (db : Db) (e : LockEvent) (token : AcquiredLock) : Prop :=
  e.call = .release token ∧ (exec (release token) (.start db e.runtime)).1 = .ok ()

theorem granted_some {db : Db} {e : LockEvent} {g : Grant} (h : granted db e = some g) :
    LocksEvolve db (next db e) ∧ g.token.fence = db.fenceOf g.key + 1 ∧
      g.token.fence = (next db e).fenceOf g.key ∧
      ∃ lock ∈ (next db e).workflowLocks.rows, Backs g.projectId g.token lock := by
  rcases e with ⟨call, rt⟩
  cases call with
  | acquire projectId resourceKey options =>
    simp only [granted] at h
    split at h
    · rename_i token htoken
      obtain rfl := Option.some.inj h
      obtain ⟨hev, rfl, hfence, hfence', hback⟩ := acquire_ok (Prod.ext htoken rfl)
      exact ⟨hev, hfence, hfence', hback⟩
    · cases h
  | release token => cases h
  | heartbeat token ttlMs => cases h

/-- **Every call evolves the lock table.** -/
theorem evolves (db : Db) (e : LockEvent) : LocksEvolve db (next db e) := by
  rcases e with ⟨call, rt⟩
  cases call with
  | acquire projectId resourceKey options =>
    rcases hres : (exec (acquire projectId resourceKey options) (.start db rt)).1 with e | token
    · have hdb : (next db ⟨.acquire projectId resourceKey options, rt⟩) = db :=
        acquire_error (Prod.ext hres rfl)
      rw [hdb]
      exact LocksEvolve.refl db
    · exact (acquire_ok (Prod.ext hres rfl)).1
  | release token =>
    have hcases : next db ⟨.release token, rt⟩ = db ∨ next db ⟨.release token, rt⟩ = _ :=
      release_cases (s := .start db rt) (Prod.ext rfl rfl)
    rcases hcases with hsame | hdb
    · rw [hsame]
      exact LocksEvolve.refl db
    · rw [hdb]
      exact LocksEvolve.of_update (Db.keyFree_releaseLease _) rfl (evolves_releaseLease _)
  | heartbeat token ttlMs =>
    have hcases : next db ⟨.heartbeat token ttlMs, rt⟩ = db ∨
        next db ⟨.heartbeat token ttlMs, rt⟩ = _ :=
      heartbeat_cases (s := .start db rt) (Prod.ext rfl rfl)
    rcases hcases with hsame | hdb
    · rw [hsame]
      exact LocksEvolve.refl db
    · rw [hdb]
      exact LocksEvolve.of_update (Db.keyFree_extendLease _) rfl (evolves_extendLease _)

/-- **A call touches the lock table only.** -/
theorem next_withoutLocks (db : Db) (e : LockEvent) :
    (next db e).withoutLocks = db.withoutLocks := by
  rcases e with ⟨call, rt⟩
  cases call with
  | acquire projectId resourceKey options =>
    exact (frame_acquire projectId resourceKey options).of_exec (s := .start db rt) rfl
  | release token => exact (frame_release token).of_exec (s := .start db rt) rfl
  | heartbeat token ttlMs => exact (frame_heartbeat token ttlMs).of_exec (s := .start db rt) rfl

end LockEvent

end MiniCoder
