import MiniCoder.Commands.Helpers

/-!
# What a claim found and what it left

* `claimIdempotencyKey_owned`: an owned claim found no live row of its key, and leaves exactly one,
  without a result.
* `claimIdempotencyKey_replay`: a replayed claim found a live row with a result, and leaves every
  table as it was.
* `claimIdempotencyKey_refused`: a claim answered with a conflict found a live row without a result.
* `fulfillIdempotencyKey_ok`: fulfilling writes the result into the claim's own row.
-/

open Storage Storage.Action

namespace MiniCoder

variable {key scope : String} {ttlMs : ℤ} {s s' : Session}

/-- The rows of the idempotency table other than those of `(key, scope)` that have expired. -/
theorem mem_deleteExpiredKey {db : Db} {now : ℤ} {row : IdempotencyKey} :
    row ∈ (db.deleteExpiredKey key scope now).idempotencyKeys.rows ↔
      row ∈ db.idempotencyKeys.rows ∧ ¬ (Db.isKey key scope row = true ∧ row.expiresAt ≤ now) := by
  simp [Db.deleteExpiredKey, Table.mem_delete]

theorem mem_fulfillKey {db : Db} {claimId : String} {result : CachedResult}
    {row : IdempotencyKey} :
    row ∈ (db.fulfillKey claimId result).idempotencyKeys.rows ↔
      ∃ r ∈ db.idempotencyKeys.rows,
        Table.updateRow (fun row => row.id == claimId) (Db.fulfilled result) r = row := by
  rw [Db.fulfillKey]
  exact List.mem_map

/-- Two rows of one key and scope clash. -/
theorem IdempotencyKey.clash_of_isKey {row row' : IdempotencyKey}
    (h : Db.isKey key scope row = true) (h' : Db.isKey key scope row' = true) :
    Row.clash row row' = true := by
  simp only [Db.isKey, Bool.and_eq_true, beq_iff_eq] at h h'
  have hkeys : (row.key, row.scope) = (row'.key, row'.scope) := by rw [h.1, h.2, h'.1, h'.2]
  exact decide_eq_true (Or.inr hkeys)

/-- Two rows of a table with one key and scope are one row. -/
theorem IdempotencyKey.eq_of_isKey {db : Db} {row row' : IdempotencyKey}
    (hrow : row ∈ db.idempotencyKeys.rows) (hrow' : row' ∈ db.idempotencyKeys.rows)
    (h : Db.isKey key scope row = true) (h' : Db.isKey key scope row' = true) : row = row' :=
  db.idempotencyKeys.eq_of_clash hrow hrow' (clash_of_isKey h h')

/-- The live row of a key is the one a search for it finds. -/
theorem Db.findLiveKey_eq {db : Db} {row : IdempotencyKey} {now : ℤ}
    (hrow : row ∈ db.idempotencyKeys.rows) (hkey : Db.isKey key scope row = true)
    (hlive : now < row.expiresAt) : db.findLiveKey key scope now = some row := by
  refine db.idempotencyKeys.find?_eq_some hrow ?_ fun row' hp => ?_
  · rw [hkey, decide_eq_true hlive]
    rfl
  · rw [Bool.and_eq_true] at hp
    exact IdempotencyKey.clash_of_isKey hkey hp.1

/-- A row of the table that the claimed row's id names. -/
theorem IdempotencyKey.eq_of_id {db : Db} {row row' : IdempotencyKey}
    (hrow : row ∈ db.idempotencyKeys.rows) (hrow' : row' ∈ db.idempotencyKeys.rows)
    (h : row.id = row'.id) : row = row' :=
  db.idempotencyKeys.eq_of_clash hrow hrow' (decide_eq_true (Or.inl h))

/-- What a claim that returned did: it deleted the expired row of its key, tried to insert its slot,
and, where the insert did nothing, read the live row's result. -/
theorem claimIdempotencyKey_ok {claim : Claim}
    (h : exec (claimIdempotencyKey key scope ttlMs) s = (.ok claim, s')) :
    ∃ claimId inserted,
      (s.db.deleteExpiredKey key scope s.runtime.now).insertKey
          { id := claimId, key, scope, expiresAt := s.runtime.now + ttlMs } =
        some (inserted, s'.db) ∧
      ((inserted = 1 ∧ claim = .owned claimId) ∨
        (inserted ≠ 1 ∧ ∃ row cached, s'.db.findLiveKey key scope s.runtime.now = some row ∧
          row.result = some cached ∧ claim = .replay cached.toCommandResult)) := by
  unfold claimIdempotencyKey at h
  obtain ⟨id, s₁, hid, h₁⟩ := exec_bind_ok.mp h
  obtain ⟨now, s₂, hnow, h₂⟩ := exec_bind_ok.mp h₁
  obtain ⟨expiresAt, s₃, hexp, h₃⟩ := exec_bind_ok.mp h₂
  obtain ⟨_, s₄, hdelete, h₄⟩ := exec_bind_ok.mp h₃
  obtain ⟨inserted, s₅, hinsert, hrest⟩ := exec_bind_ok.mp h₄
  simp only [exec_generateId, exec_isoNow, exec_ttlIso, Prod.mk.injEq, Except.ok.injEq]
    at hid hnow hexp
  obtain ⟨rfl, rfl⟩ := hid
  obtain ⟨rfl, rfl⟩ := hnow
  obtain ⟨rfl, rfl⟩ := hexp
  obtain ⟨hdel, -⟩ := execute_ok hdelete
  obtain ⟨hins, -⟩ := execute_ok hinsert
  simp only [Option.some.injEq, Prod.mk.injEq, true_and] at hdel
  rw [← hdel] at hins
  by_cases hone : inserted = 1
  · simp only [hone, if_true, exec_pure, Prod.mk.injEq, Except.ok.injEq] at hrest hins
    obtain ⟨rfl, rfl⟩ := hrest
    exact ⟨_, 1, hins, Or.inl ⟨rfl, rfl⟩⟩
  · simp only [hone, if_false] at hrest
    obtain ⟨existing, s₆, hquery, hread⟩ := exec_bind_ok.mp hrest
    obtain ⟨rfl, hdb, -⟩ := query_ok hquery
    split at hread
    · rename_i cached hcached
      simp only [exec_pure, Prod.mk.injEq, Except.ok.injEq] at hread
      obtain ⟨rfl, rfl⟩ := hread
      obtain ⟨row, hfind, hresult⟩ := Option.bind_eq_some_iff.mp hcached
      refine ⟨_, inserted, by rw [hdb]; exact hins, Or.inr ⟨hone, row, cached, ?_, hresult, rfl⟩⟩
      rw [hdb]
      exact hfind
    · simp at hread

/-- **An owned claim** found no live row of its key and leaves exactly one, without a result. -/
theorem claimIdempotencyKey_owned {claimId : String}
    (h : exec (claimIdempotencyKey key scope ttlMs) s = (.ok (.owned claimId), s')) :
    (∀ row ∈ s.db.idempotencyKeys.rows, Db.isKey key scope row = true →
        row.expiresAt ≤ s.runtime.now) ∧
      ∀ row, row ∈ s'.db.idempotencyKeys.rows ↔
        (row ∈ s.db.idempotencyKeys.rows ∧ Db.isKey key scope row = false) ∨
          row = { id := claimId, key, scope, expiresAt := s.runtime.now + ttlMs } := by
  obtain ⟨id, inserted, hins, ⟨hone, hclaim⟩ | ⟨-, row, cached, -, -, hclaim⟩⟩ :=
    claimIdempotencyKey_ok h
  · obtain rfl := Claim.owned.inj hclaim
    unfold Db.insertKey at hins
    split at hins
    · rename_i hcount
      obtain ⟨t, ht, hdb⟩ := Option.map_eq_some_iff.mp hins
      have hkeys : s'.db.idempotencyKeys = t := by rw [← (Prod.mk.inj hdb).2]
      have hfree := Table.count_eq_zero.mp hcount
      have hexpired : ∀ row ∈ s.db.idempotencyKeys.rows, Db.isKey key scope row = true →
          row.expiresAt ≤ s.runtime.now := by
        intro row hrow hkey
        by_contra hlive
        have hfalse := hfree row (mem_deleteExpiredKey.mpr ⟨hrow, fun hx => hlive hx.2⟩)
        rw [hkey] at hfalse
        exact Bool.noConfusion hfalse
      refine ⟨hexpired, fun row => ?_⟩
      rw [hkeys, Table.mem_insert? ht, mem_deleteExpiredKey]
      refine or_congr (and_congr_right fun hrow => ?_) Iff.rfl
      rw [not_and, ← Bool.not_eq_true]
      exact ⟨fun hn hk => hn hk (hexpired row hrow hk), fun hn hk => absurd hk hn⟩
    · -- the insert that does nothing reports no row
      obtain ⟨rfl, -⟩ := Prod.mk.inj (Option.some.inj hins)
      exact absurd hone Nat.zero_ne_one
  · cases hclaim

/-- **A replayed claim** found a live row with a result, and leaves every table as it was. -/
theorem claimIdempotencyKey_replay {result : CommandResult}
    (h : exec (claimIdempotencyKey key scope ttlMs) s = (.ok (.replay result), s')) :
    s'.db = s.db ∧ ∃ row ∈ s.db.idempotencyKeys.rows, Db.isKey key scope row = true ∧
      s.runtime.now < row.expiresAt ∧
        ∃ cached, row.result = some cached ∧ cached.toCommandResult = result := by
  obtain ⟨id, inserted, hins, ⟨-, hclaim⟩ | ⟨hone, row, cached, hfind, hresult, hclaim⟩⟩ :=
    claimIdempotencyKey_ok h
  · cases hclaim
  · obtain rfl := Claim.replay.inj hclaim
    unfold Db.insertKey at hins
    split at hins
    · obtain ⟨t, -, hdb⟩ := Option.map_eq_some_iff.mp hins
      exact absurd (Prod.mk.inj hdb).1.symm hone
    · obtain ⟨-, hdb⟩ := Prod.mk.inj (Option.some.inj hins)
      rw [← hdb] at hfind
      have hmem := (mem_deleteExpiredKey.mp (Table.mem_of_find? _ hfind)).1
      have hp := Table.prop_of_find? _ hfind
      rw [Bool.and_eq_true, decide_eq_true_eq] at hp
      -- the live row is the only row of its key, so the deletion found nothing to delete
      have hnone : ∀ r ∈ s.db.idempotencyKeys.rows,
          (Db.isKey key scope r && decide (r.expiresAt ≤ s.runtime.now)) = false := by
        intro r hr
        by_contra hcon
        rw [Bool.not_eq_false, Bool.and_eq_true, decide_eq_true_eq] at hcon
        rw [IdempotencyKey.eq_of_isKey hr hmem hcon.1 hp.1] at hcon
        omega
      refine ⟨?_, row, hmem, hp.1, hp.2, cached, hresult, rfl⟩
      rw [← hdb, Db.deleteExpiredKey, Table.delete_eq_self hnone]

/-- **A claim that is refused**, other than by the database, found a live row without a result. -/
theorem claimIdempotencyKey_refused {problem : ProblemDetail}
    (h : exec (claimIdempotencyKey key scope ttlMs) s = (.error (.command problem), s')) :
    ∃ row ∈ s.db.idempotencyKeys.rows, Db.isKey key scope row = true ∧
      s.runtime.now < row.expiresAt ∧ row.result = none := by
  unfold claimIdempotencyKey at h
  rcases exec_bind_error.mp h with hthrow | ⟨claimId, s₁, hid, h₁⟩
  · simp at hthrow
  rcases exec_bind_error.mp h₁ with hthrow | ⟨now, s₂, hnow, h₂⟩
  · simp at hthrow
  rcases exec_bind_error.mp h₂ with hthrow | ⟨expiresAt, s₃, hexp, h₃⟩
  · simp at hthrow
  simp only [exec_generateId, exec_isoNow, exec_ttlIso, Prod.mk.injEq, Except.ok.injEq]
    at hid hnow hexp
  obtain ⟨rfl, rfl⟩ := hid
  obtain ⟨rfl, rfl⟩ := hnow
  obtain ⟨rfl, rfl⟩ := hexp
  rcases exec_bind_error.mp h₃ with hthrow | ⟨_, s₄, hdelete, h₄⟩
  · cases execute_error hthrow
  obtain ⟨hdel, -⟩ := execute_ok hdelete
  simp only [Option.some.injEq, Prod.mk.injEq, true_and] at hdel
  rcases exec_bind_error.mp h₄ with hthrow | ⟨inserted, s₅, hinsert, h₅⟩
  · cases execute_error hthrow
  obtain ⟨hins, -⟩ := execute_ok hinsert
  rw [← hdel] at hins
  by_cases hone : inserted = 1
  · simp [hone] at h₅
  · rw [if_neg hone] at h₅
    rcases exec_bind_error.mp h₅ with hthrow | ⟨existing, s₆, hquery, h₆⟩
    · cases query_error hthrow
    obtain ⟨rfl, -, -⟩ := query_ok hquery
    -- the insert did nothing: a row of the key was there, and had not expired
    unfold Db.insertKey at hins
    split at hins
    · obtain ⟨t, -, hdb⟩ := Option.map_eq_some_iff.mp hins
      exact absurd (Prod.mk.inj hdb).1.symm hone
    · rename_i hcount
      obtain ⟨-, hdb⟩ := Prod.mk.inj (Option.some.inj hins)
      rw [← hdb] at h₆
      obtain ⟨row, hrow, hkey⟩ := Table.count_pos hcount
      obtain ⟨hmem, hkept⟩ := mem_deleteExpiredKey.mp hrow
      have hlive : s.runtime.now < row.expiresAt := by
        by_contra hexpired
        exact hkept ⟨hkey, by omega⟩
      refine ⟨row, hmem, hkey, hlive, ?_⟩
      simp only [Db.findLiveKey_eq hrow hkey hlive, Option.bind_some] at h₆
      rcases hresult : row.result with _ | cached
      · rfl
      · simp [hresult] at h₆

/-- Fulfilling a claim writes the result into the rows of the claim's id. -/
theorem fulfillIdempotencyKey_ok {claimId : String} {result : CommandResult} {u : Unit}
    (h : exec (fulfillIdempotencyKey claimId result) s = (.ok u, s')) :
    s'.db = s.db.fulfillKey claimId (.command result) := by
  obtain ⟨h, -⟩ := execute_ok h
  exact (Prod.mk.inj (Option.some.inj h)).2.symm

end MiniCoder
