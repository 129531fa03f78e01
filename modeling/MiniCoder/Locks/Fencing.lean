import MiniCoder.Locks.Manager

/-!
# Lock fencing over runs

What the tokens of the lock manager are worth after any interleaving of calls, by any number of
holders, two callers under one holder id included.  No step of the proofs looks at the clock: an
expiry decides who may take a lock over, the fence decides whose token is good.

* `LeaseMachine`: a machine over the database whose steps evolve the lock table and grant tokens.
* `accepts_current`: the two fence checks accept current tokens only.
* `lock_fencing`: fences of grants increase, at most one token is good, a passed token stays bad.
-/

open Storage Storage.Action Runs

namespace MiniCoder

/-! ### The two fence checks -/

/-- `WorkflowLockManager.assertFence` accepts the token. -/
def AcceptsFence (db : Db) (rt : Runtime) (token : AcquiredLock) : Prop :=
  (exec (assertFence token) (.start db rt)).1 = .ok ()

/-- `assertLockFence` of the command helpers accepts the lock context. -/
def AcceptsLockFence (db : Db) (rt : Runtime) (ctx : LockContext) : Prop :=
  (exec (assertLockFence ctx) (.start db rt)).1 = .ok ()

/-- A lock context that a holder of the token builds from it. -/
structure LockContext.From (ctx : LockContext) (token : AcquiredLock) : Prop where
  lockId : ctx.lockId = token.lockId
  fence : ctx.fence = token.fence

theorem findLock_some {db : Db} {lockId : String} {lock : WorkflowLock}
    (h : db.findLock lockId = some lock) : lock ∈ db.workflowLocks.rows ∧ lock.id = lockId :=
  ⟨db.workflowLocks.mem_of_find? h, beq_iff_eq.mp (db.workflowLocks.prop_of_find? h)⟩

theorem checkFence_ok {current : Option WorkflowLock} {now : ℤ} {token : AcquiredLock}
    (h : checkFence current now token = .ok ()) :
    ∃ lock, current = some lock ∧ lock.fence = token.fence := by
  unfold checkFence at h
  split at h
  · cases h
  · rename_i lock
    split_ifs at h with hexpired hfence
    exact ⟨lock, rfl, not_not.mp hfence⟩

/-- What an accepted lock context says about the lock row. -/
theorem checkLockFence_ok {current : Option WorkflowLock} {now : ℤ} {ctx : LockContext}
    (h : checkLockFence current now ctx = .ok ()) :
    ∃ lock, current = some lock ∧ lock.fence = ctx.fence ∧ lock.holderId = ctx.holderId ∧
      (∀ p, ctx.projectId = some p → lock.projectId = p) ∧
      (∀ k, ctx.resourceKey = some k → lock.resourceKey = k) := by
  unfold checkLockFence at h
  split at h
  · cases h
  · rename_i lock
    split_ifs at h with hexpired hfence hholder hproject hresource
    refine ⟨lock, rfl, not_not.mp hfence, not_not.mp hholder, fun p hp => ?_, fun k hk => ?_⟩
    · simpa [hp] using hproject
    · simpa [hk] using hresource

theorem assertFence_ok {token : AcquiredLock} {s s' : Session}
    (h : exec (assertFence token) s = (.ok (), s')) :
    ∃ lock ∈ s.db.workflowLocks.rows, lock.id = token.lockId ∧ lock.fence = token.fence := by
  obtain ⟨now, s₁, hnow, h₁⟩ := exec_bind_ok.mp h
  obtain ⟨-, rfl⟩ := Prod.mk.inj hnow
  obtain ⟨current, s₂, hquery, h₂⟩ := exec_bind_ok.mp h₁
  obtain ⟨hcurrent, -, -⟩ := query_ok hquery
  obtain ⟨lock, hlock, hfence⟩ := checkFence_ok (orThrow_ok h₂).1
  rw [hcurrent] at hlock
  exact ⟨lock, (findLock_some hlock).1, (findLock_some hlock).2, hfence⟩

theorem assertLockFence_ok {ctx : LockContext} {s s' : Session}
    (h : exec (assertLockFence ctx) s = (.ok (), s')) :
    ∃ lock ∈ s.db.workflowLocks.rows, lock.id = ctx.lockId ∧ lock.fence = ctx.fence ∧
      (∀ p, ctx.projectId = some p → lock.projectId = p) ∧
      (∀ k, ctx.resourceKey = some k → lock.resourceKey = k) := by
  obtain ⟨now, s₁, hnow, h₁⟩ := exec_bind_ok.mp h
  obtain ⟨-, rfl⟩ := Prod.mk.inj hnow
  obtain ⟨current, s₂, hquery, h₂⟩ := exec_bind_ok.mp h₁
  obtain ⟨hcurrent, -, -⟩ := query_ok hquery
  obtain ⟨lock, hlock, hfence, -, hproject, hresource⟩ := checkLockFence_ok (orThrow_ok h₂).1
  rw [hcurrent] at hlock
  exact ⟨lock, (findLock_some hlock).1, (findLock_some hlock).2, hfence, hproject, hresource⟩

/-! ### Lease machines -/

/-- The row behind a token evolves, and goes on standing behind it. -/
theorem Backs.evolve {projectId : String} {token : AcquiredLock} {lock lock' : WorkflowLock}
    (h : Backs projectId token lock) (hev : Lease.Evolves lock lock') :
    Backs projectId token lock' where
  id := hev.id.trans h.id
  key := by
    have hkey := h.key
    simp only [Db.isLockOf, Bool.and_eq_true, beq_iff_eq] at hkey ⊢
    exact ⟨hev.project.trans hkey.1, hev.resource.trans hkey.2⟩
  fence := Nat.le_trans h.fence hev.fence_le
  holder heq := by
    have hle := h.fence
    rcases hev.held with hlt | ⟨hfence, hholder⟩
    · omega
    · exact hholder.trans (h.holder (hfence.symm.trans heq))

/-- The fence a grant carries. -/
def Grant.fence (g : Grant) : ℕ := g.token.fence

/-- A machine over the database that evolves the lock table and grants tokens, in the steps that
meet `C`. -/
structure LeaseMachine {ε : Type*} (next : Db → ε → Db) (C : Db → ε → Prop)
    (granted : Db → ε → Option Grant) : Prop where
  evolves : ∀ db e, C db e → LocksEvolve db (next db e)
  granted : ∀ db e g, C db e → granted db e = some g →
    g.fence = db.fenceOf g.key + 1 ∧ g.fence = (next db e).fenceOf g.key ∧
      ∃ lock ∈ (next db e).workflowLocks.rows, Backs g.projectId g.token lock

/-- The calls of the lock manager are a lease machine. -/
theorem leaseMachine_lockEvent : LeaseMachine LockEvent.next (fun _ _ => True) LockEvent.granted where
  evolves db e _ := LockEvent.evolves db e
  granted _ _ _ _ h := (LockEvent.granted_some h).2

namespace LeaseMachine

variable {ε : Type*} {next : Db → ε → Db} {C : Db → ε → Prop} {granted : Db → ε → Option Grant}

/-- **A lease machine is a machine with fencing tokens.** -/
theorem fenced (h : LeaseMachine next C granted) :
    Fenced next C Db.fenceOf granted Grant.key Grant.fence where
  mono key db e hC := (h.evolves db e hC).fenceOf_le key
  granted db e g hC hg := by
    obtain ⟨hfence, hfence', -⟩ := h.granted db e g hC hg
    exact ⟨by omega, hfence'⟩

theorem locksEvolve_run (h : LeaseMachine next C granted) {db : Db} {es : List ε}
    (hC : Along next C db es) : LocksEvolve db (run next db es) :=
  run_rel LocksEvolve.refl (fun _ _ _ => LocksEvolve.trans) h.evolves hC

/-- A row stands behind every token a run granted. -/
theorem backs (h : LeaseMachine next C granted) {db : Db} {es : List ε} (hC : Along next C db es)
    {g : Grant} (hg : g ∈ outputs next granted db es) :
    ∃ lock ∈ (run next db es).workflowLocks.rows, Backs g.projectId g.token lock := by
  induction es generalizing db with
  | nil => simp at hg
  | cons e es ih =>
    rw [outputs_cons, List.mem_append, Option.mem_toList] at hg
    rcases hg with hg | hg
    · obtain ⟨-, -, lock, hlock, hback⟩ := h.granted db e g hC.1 hg
      obtain ⟨lock', hlock', hev⟩ := h.locksEvolve_run hC.2 lock hlock
      exact ⟨lock', hlock', hback.evolve hev⟩
    · exact ih hC.2 hg

end LeaseMachine

/-! ### What the fence checks accept -/

section Accepts

variable {db : Db} {g : Grant}

/-- The only row with a granted token's id is the one behind it. -/
theorem fence_of_backs {lock lock' : WorkflowLock} (hlock : lock ∈ db.workflowLocks.rows)
    (hback : Backs g.projectId g.token lock) (hlock' : lock' ∈ db.workflowLocks.rows)
    (hid : lock'.id = g.token.lockId) : lock' = lock ∧ db.fenceOf g.key = lock.fence :=
  ⟨WorkflowLock.eq_of_id hlock' hlock (hid.trans hback.id.symm),
    Db.fenceOf_of_isLockOf hlock hback.key⟩

/-- A row with a granted token's id and fence makes the token current, and is the row of the
token's own project and resource. -/
theorem current_of_row {lock lock' : WorkflowLock} (hlock : lock ∈ db.workflowLocks.rows)
    (hback : Backs g.projectId g.token lock) (hlock' : lock' ∈ db.workflowLocks.rows)
    (hid : lock'.id = g.token.lockId) (hfence : lock'.fence = g.token.fence) :
    Current Db.fenceOf Grant.key Grant.fence db g ∧ lock'.projectId = g.projectId ∧
      lock'.resourceKey = g.token.resourceKey := by
  obtain ⟨rfl, hof⟩ := fence_of_backs hlock hback hlock' hid
  have hkey := hback.key
  simp only [Db.isLockOf, Bool.and_eq_true, beq_iff_eq] at hkey
  exact ⟨hfence.symm.trans hof.symm, hkey⟩

/-- **`assertFence` accepts current tokens only.** -/
theorem accepts_current {rt : Runtime} {lock : WorkflowLock} (hlock : lock ∈ db.workflowLocks.rows)
    (hback : Backs g.projectId g.token lock) (h : AcceptsFence db rt g.token) :
    Current Db.fenceOf Grant.key Grant.fence db g := by
  obtain ⟨lock', hlock', hid, hfence⟩ := assertFence_ok (s := .start db rt) (Prod.ext h rfl)
  exact (current_of_row hlock hback hlock' hid hfence).1

/-- **`assertLockFence` accepts current tokens only.** -/
theorem acceptsLock_current {rt : Runtime} {ctx : LockContext} {lock : WorkflowLock}
    (hlock : lock ∈ db.workflowLocks.rows) (hback : Backs g.projectId g.token lock)
    (hctx : ctx.From g.token) (h : AcceptsLockFence db rt ctx) :
    Current Db.fenceOf Grant.key Grant.fence db g := by
  obtain ⟨lock', hlock', hid, hfence, -, -⟩ :=
    assertLockFence_ok (s := .start db rt) (Prod.ext h rfl)
  exact (current_of_row hlock hback hlock' (hid.trans hctx.lockId) (hfence.trans hctx.fence)).1

/-- A release or a heartbeat with a passed token matches no row. -/
theorem count_isHeld_of_passed {lock : WorkflowLock} (hlock : lock ∈ db.workflowLocks.rows)
    (hback : Backs g.projectId g.token lock) (hpassed : g.fence < db.fenceOf g.key) :
    db.workflowLocks.count (Db.isHeld g.token) = 0 := by
  refine Table.count_eq_zero.mpr fun lock' hlock' => ?_
  by_contra hheld
  have hmatch : Db.isHeld g.token lock' = true := by simpa using hheld
  simp only [Db.isHeld, Bool.and_eq_true, beq_iff_eq] at hmatch
  obtain ⟨rfl, hof⟩ := fence_of_backs hlock hback hlock' hmatch.1.1
  have hfence : lock'.fence = g.fence := hmatch.2
  omega

/-- A release that returned leaves its token passed. -/
theorem passed_of_released {e : LockEvent} {lock : WorkflowLock}
    (hlock : lock ∈ db.workflowLocks.rows) (hback : Backs g.projectId g.token lock)
    (h : LockEvent.Released db e g.token) : g.fence < (LockEvent.next db e).fenceOf g.key := by
  rcases e with ⟨call, rt⟩
  obtain ⟨rfl, hok⟩ := h
  have hlocks := release_ok (s := .start db rt) (Prod.ext hok rfl)
  have hof : db.fenceOf g.key = lock.fence := Db.fenceOf_of_isLockOf hlock hback.key
  by_cases hcur : lock.fence = g.token.fence
  · -- the token is current: the release matches its row, and raises the fence
    have hheld : Db.isHeld g.token lock = true := by
      simp [Db.isHeld, hback.id, hback.holder hcur, hcur]
    have hmem : Db.releaseLease rt.now lock ∈
        (LockEvent.next db ⟨.release g.token, rt⟩).workflowLocks.rows := by
      have hrows : (LockEvent.next db ⟨.release g.token, rt⟩).workflowLocks =
          db.workflowLocks.update (Db.isHeld g.token) (Db.releaseLease rt.now)
            (Db.keyFree_releaseLease _) := hlocks
      rw [hrows]
      exact Table.mem_update.mpr ⟨lock, hlock, Table.updateRow_of_pos hheld⟩
    have hfence : (LockEvent.next db ⟨.release g.token, rt⟩).fenceOf g.key = lock.fence + 1 :=
      Db.fenceOf_of_isLockOf hmem hback.key
    rw [hfence, hcur]
    exact Nat.lt_succ_self _
  · have hle := (LockEvent.evolves db ⟨.release g.token, rt⟩).fenceOf_le g.key
    have hback' := hback.fence
    have hfence : g.fence = g.token.fence := rfl
    omega

end Accepts

/-! ### Fencing over every interleaving of calls -/

namespace LockEvent

/-- The tables after a sequence of calls. -/
abbrev after (db : Db) (es : List LockEvent) : Db := run next db es

/-- The tokens a sequence of calls grants, in order. -/
abbrev grants (db : Db) (es : List LockEvent) : List Grant := outputs next granted db es

/-- The call gives the token up: it grants the same lock again, or it is the token's release. -/
def Passes (db : Db) (e : LockEvent) (g : Grant) : Prop :=
  (∃ g', granted db e = some g' ∧ g'.key = g.key) ∨ Released db e g.token

/-- A token that a call has given up is passed from then on. -/
theorem passed {db : Db} {es₁ : List LockEvent} (es₂ : List LockEvent) {e : LockEvent}
    {g : Grant} (hg : g ∈ grants db es₁) (h : Passes (after db es₁) e g) :
    g.fence < (after db (es₁ ++ e :: es₂)).fenceOf g.key := by
  have hfenced := leaseMachine_lockEvent.fenced
  have htrue : ∀ db es, Along next (fun _ _ => True) db es := along_of_forall fun _ _ => trivial
  obtain ⟨lock, hlock, hback⟩ := leaseMachine_lockEvent.backs (htrue db es₁) hg
  have hnow : g.fence < (next (after db es₁) e).fenceOf g.key := by
    rcases h with ⟨g', hg', hkey⟩ | hreleased
    · obtain ⟨-, hle⟩ := hfenced.stamp_mem (htrue db es₁) hg
      obtain ⟨hlt, heq⟩ := hfenced.granted _ e g' trivial hg'
      rw [← hkey, ← heq]
      rw [hkey] at hlt
      exact Nat.lt_of_le_of_lt hle hlt
    · exact passed_of_released hlock hback hreleased
  rw [after, run_append]
  exact Nat.lt_of_lt_of_le hnow (hfenced.counter_le_run g.key (htrue _ es₂))

end LockEvent

open LockEvent

/-- What fencing promises of a sequence of calls. -/
structure Fences (db : Db) (es : List LockEvent) : Prop where
  /-- The grants of one lock carry strictly increasing fences. -/
  increasing : (grants db es).Pairwise fun g g' => g.key = g'.key → g.fence < g'.fence
  /-- At most one token ever granted for a lock satisfies `assertFence`. -/
  one_fence : ∀ rt, (grants db es).Pairwise fun g g' => g.key = g'.key →
    ¬ (AcceptsFence (after db es) rt g.token ∧ AcceptsFence (after db es) rt g'.token)
  /-- At most one satisfies the `assertLockFence` of the command helpers. -/
  one_lockFence : ∀ rt ctx ctx', (grants db es).Pairwise fun g g' => g.key = g'.key →
    ctx.From g.token → ctx'.From g'.token →
    ¬ (AcceptsLockFence (after db es) rt ctx ∧ AcceptsLockFence (after db es) rt ctx')
  /-- A token that a call has given up satisfies neither check any more, and its release and its
  heartbeat change nothing. -/
  stale : ∀ es₁ e es₂, es = es₁ ++ e :: es₂ → ∀ g ∈ grants db es₁, Passes (after db es₁) e g →
    (∀ rt, ¬ AcceptsFence (after db es) rt g.token) ∧
    (∀ rt ctx, ctx.From g.token → ¬ AcceptsLockFence (after db es) rt ctx) ∧
    (∀ rt, next (after db es) ⟨.release g.token, rt⟩ = after db es) ∧
    ∀ rt ttlMs, next (after db es) ⟨.heartbeat g.token ttlMs, rt⟩ = after db es

/-- The release and the heartbeat of a passed token change no table. -/
theorem next_of_passed {db : Db} {g : Grant} {lock : WorkflowLock}
    (hlock : lock ∈ db.workflowLocks.rows) (hback : Backs g.projectId g.token lock)
    (hpassed : g.fence < db.fenceOf g.key) (rt : Runtime) :
    next db ⟨.release g.token, rt⟩ = db ∧
      ∀ ttlMs, next db ⟨.heartbeat g.token ttlMs, rt⟩ = db := by
  have hcount := count_isHeld_of_passed hlock hback hpassed
  constructor
  · have hcases : next db ⟨.release g.token, rt⟩ = db ∨ next db ⟨.release g.token, rt⟩ = _ :=
      release_cases (s := .start db rt) (Prod.ext rfl rfl)
    rcases hcases with hsame | hdb
    · exact hsame
    · rw [hdb, Session.start_db, Table.update_eq_self (Db.keyFree_releaseLease _) hcount]
  · intro ttlMs
    have hcases : next db ⟨.heartbeat g.token ttlMs, rt⟩ = db ∨
        next db ⟨.heartbeat g.token ttlMs, rt⟩ = _ :=
      heartbeat_cases (s := .start db rt) (Prod.ext rfl rfl)
    rcases hcases with hsame | hdb
    · exact hsame
    · rw [hdb, Session.start_db, Table.update_eq_self (Db.keyFree_extendLease _) hcount]

/-- **Lock fencing**, over any sequence of calls by any holders. -/
theorem lock_fencing (db : Db) (es : List LockEvent) : Fences db es := by
  have hfenced := leaseMachine_lockEvent.fenced
  have htrue : Along next (fun _ _ => True) db es := along_of_forall (fun _ _ => trivial) db es
  have hbacks : ∀ g ∈ grants db es, ∃ lock ∈ (after db es).workflowLocks.rows,
      Backs g.projectId g.token lock := fun g hg => leaseMachine_lockEvent.backs htrue hg
  -- a token that a check accepts is current, and two current tokens of one lock are one
  have hcurrent := (hfenced.pairwise_current (after db es) htrue)
  have hboth : ∀ {P : Grant → Grant → Prop},
      (∀ g ∈ grants db es, ∀ g' ∈ grants db es, (g.key = g'.key →
        ¬ (Current Db.fenceOf Grant.key Grant.fence (after db es) g ∧
          Current Db.fenceOf Grant.key Grant.fence (after db es) g')) → P g g') →
      (grants db es).Pairwise P := fun hP =>
    hcurrent.imp_of_mem fun {g g'} hg hg' h => hP g hg g' hg' h
  exact {
    increasing := hfenced.pairwise_stamp htrue
    one_fence := fun rt => hboth fun g hg g' hg' h hkey hacc => by
      obtain ⟨lock, hlock, hback⟩ := hbacks g hg
      obtain ⟨lock', hlock', hback'⟩ := hbacks g' hg'
      exact h hkey ⟨accepts_current hlock hback hacc.1, accepts_current hlock' hback' hacc.2⟩
    one_lockFence := fun rt ctx ctx' => hboth fun g hg g' hg' h hkey hctx hctx' hacc => by
      obtain ⟨lock, hlock, hback⟩ := hbacks g hg
      obtain ⟨lock', hlock', hback'⟩ := hbacks g' hg'
      exact h hkey ⟨acceptsLock_current hlock hback hctx hacc.1,
        acceptsLock_current hlock' hback' hctx' hacc.2⟩
    stale := by
      rintro es₁ e es₂ rfl g hg hpasses
      have hpassed := LockEvent.passed es₂ hg hpasses
      have hmem : g ∈ grants db (es₁ ++ e :: es₂) := by
        rw [grants, outputs_append]
        exact List.mem_append_left _ hg
      obtain ⟨lock, hlock, hback⟩ := hbacks g hmem
      have hstale : ¬ Current Db.fenceOf Grant.key Grant.fence (after db (es₁ ++ e :: es₂)) g :=
        not_current hpassed
      refine ⟨fun rt hacc => hstale (accepts_current hlock hback hacc),
        fun rt ctx hctx hacc => hstale (acceptsLock_current hlock hback hctx hacc),
        fun rt => (next_of_passed hlock hback hpassed rt).1,
        fun rt ttlMs => (next_of_passed hlock hback hpassed rt).2 ttlMs⟩ }

end MiniCoder
