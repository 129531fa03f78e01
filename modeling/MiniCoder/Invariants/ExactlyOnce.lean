import Mathlib.Logic.Function.Basic
import MiniCoder.System

/-!
# Exactly-once commands

Concurrent calls of one command under one idempotency key.  A call of the executor takes three steps
on the database, between which anything may happen: the cache lookup, the evidence phase of a
handler that has one, and the handler's transaction.  `CallState` is a database with the progress of
each call, and its steps are those of the calls, the transactions of commands under other keys, and
`other`, whatever else runs.

* `Db.Free`, `Db.Holds`: before and after the commit, the key is free or holds its result.
* `before_next`, `after_next`: the two stages of a set of calls.
* `exactly_once`: the tables are written at most once, every call that returns agrees with that
  commit, and a call that fails leaves nothing that blocks the next.
-/

open Storage Storage.Action Runs

namespace MiniCoder

/-! ### A key before and after its commit -/

section Keys

variable {key scope : String} {since : ℤ} {db db' : Db} {result : CommandResult}

/-- No row of the key is live at `since` or later. -/
def Db.Free (key scope : String) (since : ℤ) (db : Db) : Prop :=
  ∀ row ∈ db.idempotencyKeys.rows, Db.isKey key scope row = true → row.expiresAt ≤ since

/-- A row that is live from `since` until `limit` holds the result of the key. -/
def Db.Holds (key scope : String) (since limit : ℤ) (result : CommandResult) (db : Db) : Prop :=
  ∃ row ∈ db.idempotencyKeys.rows, Db.isKey key scope row = true ∧ since < row.expiresAt ∧
    limit ≤ row.expiresAt ∧ row.result = some (.command result)

/-- The rows of the key that are live after `since` stay as they are. -/
def KeepsLiveKey (key scope : String) (since : ℤ) (db db' : Db) : Prop :=
  ∀ row, Db.isKey key scope row = true → since < row.expiresAt →
    (row ∈ db'.idempotencyKeys.rows ↔ row ∈ db.idempotencyKeys.rows)

theorem KeepsLiveKey.of_eq (h : db'.idempotencyKeys = db.idempotencyKeys) :
    KeepsLiveKey key scope since db db' := by
  intro row _ _
  rw [h]

theorem KeepsLiveKey.free (h : KeepsLiveKey key scope since db db')
    (hfree : db.Free key scope since) : db'.Free key scope since := by
  intro row hrow hkey
  by_contra hlive
  have hlive' : since < row.expiresAt := by omega
  exact hlive (hfree row ((h row hkey hlive').mp hrow) hkey)

theorem KeepsLiveKey.holds {limit : ℤ} (h : KeepsLiveKey key scope since db db')
    (hholds : db.Holds key scope since limit result) : db'.Holds key scope since limit result := by
  obtain ⟨row, hrow, hkey, hlive, hlimit, hresult⟩ := hholds
  exact ⟨row, (h row hkey hlive).mpr hrow, hkey, hlive, hlimit, hresult⟩

end Keys

section Lookups

variable {key scope : String} {since limit now : ℤ} {db : Db} {result : CommandResult}

/-- A free key has no cached result. -/
theorem Db.Free.findCachedResult (h : db.Free key scope since) (hnow : since ≤ now) :
    db.findCachedResult key scope now = none := by
  rcases hcached : db.findCachedResult key scope now with _ | cached
  · rfl
  · obtain ⟨row, hrow, hkey, hlive, -⟩ := Db.findCachedResult_iff.mp hcached
    have hexpired := h row hrow hkey
    omega

/-- A key that holds its result answers with it. -/
theorem Db.Holds.findCachedResult (h : db.Holds key scope since limit result) (hnow : now < limit) :
    db.findCachedResult key scope now = some (.command result) := by
  obtain ⟨row, hrow, hkey, -, hlimit, hresult⟩ := h
  exact Db.findCachedResult_iff.mpr ⟨row, hrow, hkey, by omega, hresult⟩

end Lookups

namespace CommandHandler

variable {P : Type} {handler : CommandHandler P} {envelope : CommandEnvelope P}
  {ev : handler.Evidence} {s s' : Session} {since limit : ℤ} {result : CommandResult}

/-- A transaction that returns under a free key leaves its result in it. -/
theorem holds_of_free (hfree : s.db.Free envelope.idempotencyKey handler.idempotencyScope since)
    (hsince : since ≤ s.runtime.now) (hnow : s.runtime.now < since + handler.ttlMs)
    (h : exec (handler.transact envelope ev) s = (.ok result, s')) :
    s'.db.Holds envelope.idempotencyKey handler.idempotencyScope since (since + handler.ttlMs)
      result := by
  rcases transact_ok h with ⟨-, row, hrow, hkey, hlive, -⟩ | ⟨-, claimId, hrows⟩
  · have hexpired := hfree row hrow hkey
    omega
  · refine ⟨_, (hrows _).mpr (Or.inr rfl), ?_, ?_, ?_, rfl⟩
    · simp [Db.isKey]
    · show since < s.runtime.now + handler.ttlMs
      omega
    · show since + handler.ttlMs ≤ s.runtime.now + handler.ttlMs
      omega

/-- A transaction that returns under a key that holds a result replays it, and writes nothing. -/
theorem replays_of_holds {stored : CommandResult}
    (hholds : s.db.Holds envelope.idempotencyKey handler.idempotencyScope since limit stored)
    (hnow : s.runtime.now < limit)
    (h : exec (handler.transact envelope ev) s = (.ok result, s')) :
    s'.db = s.db ∧ result = stored := by
  obtain ⟨row, hrow, hkey, -, hlimit, hresult⟩ := hholds
  rcases transact_ok h with ⟨hsame, row', hrow', hkey', -, cached, hcached, rfl⟩ | ⟨hexpired, -⟩
  · rw [IdempotencyKey.eq_of_isKey hrow' hrow hkey' hkey, hresult] at hcached
    obtain rfl := Option.some.inj hcached
    exact ⟨hsame, rfl⟩
  · have hlate := hexpired row hrow hkey
    omega

/-- **A transaction leaves the rows of every other key alone.** -/
theorem keeps_other_key {key scope : String} {r : Except Failure CommandResult}
    (hother : (envelope.idempotencyKey, handler.idempotencyScope) ≠ (key, scope))
    (h : exec (handler.transact envelope ev) s = (r, s')) :
    KeepsLiveKey key scope since s.db s'.db := by
  rcases r with e | result
  · exact KeepsLiveKey.of_eq (by rw [transaction_error h])
  · rcases transact_ok h with ⟨hsame, -⟩ | ⟨-, claimId, hrows⟩
    · exact KeepsLiveKey.of_eq (by rw [hsame])
    · intro row hkey _
      simp only [Db.isKey, Bool.and_eq_true, beq_iff_eq] at hkey
      rw [hrows row]
      constructor
      · rintro (hold | rfl)
        · exact hold.1
        · exact absurd (Prod.ext hkey.1 hkey.2) hother
      · intro hrow
        refine Or.inl ⟨hrow, ?_⟩
        by_contra hown
        rw [Bool.not_eq_false] at hown
        simp only [Db.isKey, Bool.and_eq_true, beq_iff_eq] at hown
        exact hother (Prod.ext (hown.1.symm.trans hkey.1) (hown.2.symm.trans hkey.2))

/-- The evidence phase leaves the keys alone. -/
theorem keysOfEvidence {r : Except Failure handler.Evidence}
    (h : exec (handler.evidence envelope) s = (r, s')) :
    s'.db.idempotencyKeys = s.db.idempotencyKeys :=
  congrArg Prod.fst ((handler.evidence_keys envelope).of_exec h)

end CommandHandler

/-! ### Concurrent calls -/

/-- How far a call of the executor has come. -/
inductive CallPhase {P : Type} (handler : CommandHandler P)
  | ready
  /-- The lookup found no cached result. -/
  | missed
  | gathered (ev : handler.Evidence)
  | returned (outcome : Except Failure CommandResult)

/-- The next step of a call, with the tables and the phase it leaves. -/
def CallPhase.advance {P : Type} {handler : CommandHandler P} (envelope : CommandEnvelope P)
    (rt : Runtime) (db : Db) : CallPhase handler → Db × CallPhase handler
  | ready =>
    match exec (precheck handler envelope) (.start db rt) with
    | (.ok none, s) => (s.db, missed)
    | (.ok (some result), s) => (s.db, returned (.ok result))
    | (.error e, s) => (s.db, returned (.error e))
  | missed =>
    match exec (handler.evidence envelope) (.start db rt) with
    | (.ok ev, s) => (s.db, gathered ev)
    | (.error e, s) => (s.db, returned (.error e))
  | gathered ev =>
    match exec (handler.transact envelope ev) (.start db rt) with
    | (.ok result, s) => (s.db, returned (handler.finish result))
    | (.error e, s) => (s.db, returned (.error e))
  | returned outcome => (db, returned outcome)

/-- The result of the new work that a step of a call commits: its transaction returns and has
written. -/
def CallPhase.committed {P : Type} {handler : CommandHandler P} (envelope : CommandEnvelope P)
    (rt : Runtime) (db : Db) : CallPhase handler → Option CommandResult
  | gathered ev =>
    match exec (handler.transact envelope ev) (.start db rt) with
    | (.ok result, s) =>
      if s.db.idempotencyKeys.rows = db.idempotencyKeys.rows then none else some result
    | (.error _, _) => none
  | _ => none

/-- The time of a step lies within the time to live of a key claimed at `since`. -/
def Within {P : Type} (handler : CommandHandler P) (since : ℤ) (rt : Runtime) : Prop :=
  since ≤ rt.now ∧ rt.now < since + handler.ttlMs

namespace CallPhase

variable {P : Type} {handler : CommandHandler P} {envelope : CommandEnvelope P} {since : ℤ}
  {rt : Runtime} {db : Db} {phase : CallPhase handler}

/-- **A step of a call under a free key** commits nothing and does not return, and its transaction
writes nothing; or it commits its own result, and returns nothing else. -/
theorem advance_of_free (hfree : db.Free envelope.idempotencyKey handler.idempotencyScope since)
    (hnow : Within handler since rt) (hpending : ∀ r, phase ≠ .returned (.ok r)) :
    (phase.committed envelope rt db = none ∧
        (phase.advance envelope rt db).1.Free envelope.idempotencyKey handler.idempotencyScope since ∧
        (∀ r, (phase.advance envelope rt db).2 ≠ .returned (.ok r)) ∧
        ∀ ev, phase = .gathered ev → (phase.advance envelope rt db).1 = db) ∨
      ∃ result, phase.committed envelope rt db = some result ∧
        (phase.advance envelope rt db).1.Holds envelope.idempotencyKey handler.idempotencyScope
          since (since + handler.ttlMs) result ∧
        ∀ r, (phase.advance envelope rt db).2 = .returned (.ok r) → r = result := by
  cases phase with
  | ready =>
    left
    rcases hpre : exec (precheck handler envelope) (.start db rt) with ⟨e | cached, s⟩
    · have hdb : s.db = db :=
        (frame_precheck (π := Session.db) fun _ _ _ => rfl).of_exec hpre
      simp [committed, advance, hpre, hdb, hfree]
    · obtain ⟨hdb, -, rfl⟩ := precheck_ok hpre
      have hnone := hfree.findCachedResult hnow.1
      rw [Session.start_db] at hdb
      simp only [Session.start_db, Session.start_runtime, hnone, Option.map_none] at hpre
      simp [committed, advance, hpre, hdb, hfree]
  | missed =>
    left
    rcases hev : exec (handler.evidence envelope) (.start db rt) with ⟨e | ev, s⟩
    · have hkeep := (KeepsLiveKey.of_eq (CommandHandler.keysOfEvidence hev)).free hfree
      simp [committed, advance, hev, hkeep]
    · have hkeep := (KeepsLiveKey.of_eq (CommandHandler.keysOfEvidence hev)).free hfree
      simp [committed, advance, hev, hkeep]
  | gathered ev =>
    rcases htx : exec (handler.transact envelope ev) (.start db rt) with ⟨e | result, s⟩
    · left
      have hdb : s.db = db := transaction_error htx
      simp [committed, advance, htx, hdb, hfree]
    · right
      have hholds := CommandHandler.holds_of_free hfree hnow.1 hnow.2 htx
      have hwritten : s.db.idempotencyKeys.rows ≠ db.idempotencyKeys.rows := by
        intro hsame
        obtain ⟨row, hrow, hkey, hlive, -⟩ := hholds
        rw [hsame] at hrow
        have hexpired := hfree row hrow hkey
        omega
      refine ⟨result, by simp [committed, htx, hwritten], by simpa [advance, htx] using hholds,
        fun r hr => ?_⟩
      simp only [advance, htx, returned.injEq] at hr
      exact (CommandHandler.eq_of_finish hr).symm
  | returned outcome =>
    left
    exact ⟨rfl, hfree, hpending, fun _ h => by cases h⟩

/-- **A step of a call under a key that holds a result** commits nothing, and returns nothing else;
its transaction writes nothing. -/
theorem advance_of_holds {stored : CommandResult}
    (hholds : db.Holds envelope.idempotencyKey handler.idempotencyScope since
      (since + handler.ttlMs) stored)
    (hnow : Within handler since rt) (hagreed : ∀ r, phase = .returned (.ok r) → r = stored) :
    phase.committed envelope rt db = none ∧
      (phase.advance envelope rt db).1.Holds envelope.idempotencyKey handler.idempotencyScope
        since (since + handler.ttlMs) stored ∧
      (∀ r, (phase.advance envelope rt db).2 = .returned (.ok r) → r = stored) ∧
      ∀ ev, phase = .gathered ev → (phase.advance envelope rt db).1 = db := by
  cases phase with
  | ready =>
    rcases hpre : exec (precheck handler envelope) (.start db rt) with ⟨e | cached, s⟩
    · have hdb : s.db = db :=
        (frame_precheck (π := Session.db) fun _ _ _ => rfl).of_exec hpre
      simp [committed, advance, hpre, hdb, hholds]
    · obtain ⟨hdb, -, rfl⟩ := precheck_ok hpre
      have hfound := hholds.findCachedResult hnow.2
      rw [Session.start_db] at hdb
      simp only [Session.start_db, Session.start_runtime, hfound, Option.map_some] at hpre
      simp [committed, advance, hpre, hdb, hholds, CachedResult.toCommandResult]
  | missed =>
    rcases hev : exec (handler.evidence envelope) (.start db rt) with ⟨e | ev, s⟩
    · have hkeep := (KeepsLiveKey.of_eq (CommandHandler.keysOfEvidence hev)).holds hholds
      simp [committed, advance, hev, hkeep]
    · have hkeep := (KeepsLiveKey.of_eq (CommandHandler.keysOfEvidence hev)).holds hholds
      simp [committed, advance, hev, hkeep]
  | gathered ev =>
    rcases htx : exec (handler.transact envelope ev) (.start db rt) with ⟨e | result, s⟩
    · have hdb : s.db = db := transaction_error htx
      simp [committed, advance, htx, hdb, hholds]
    · obtain ⟨hdb, rfl⟩ := CommandHandler.replays_of_holds hholds hnow.2 htx
      rw [Session.start_db] at hdb
      refine ⟨by simp [committed, htx, hdb], by simpa [advance, htx, hdb] using hholds,
        fun r hr => ?_, fun _ _ => by simp [advance, htx, hdb]⟩
      simp only [advance, htx, returned.injEq] at hr
      exact (CommandHandler.eq_of_finish hr).symm
  | returned outcome => exact ⟨rfl, hholds, hagreed, fun _ h => by cases h⟩

end CallPhase

/-- A database, and the calls of one command on it. -/
structure CallState {P : Type} (handler : CommandHandler P) (ι : Type) where
  db : Db
  phase : ι → CallPhase handler := fun _ => .ready

/-- A step of the calls, or of something else. -/
inductive CallEvent (ι : Type)
  | advance (call : ι) (rt : Runtime)
  /-- The transaction of a command under another key. -/
  | foreign {Q : Type} (other : CommandHandler Q) (envelope : CommandEnvelope Q)
    (ev : other.Evidence) (rt : Runtime)
  | other (db : Db)

namespace CallState

variable {P ι : Type} [DecidableEq ι] {handler : CommandHandler P}

/-- The calls after a step. -/
def next (calls : ι → CommandEnvelope P) (s : CallState handler ι) :
    CallEvent ι → CallState handler ι
  | .advance call rt =>
    { db := ((s.phase call).advance (calls call) rt s.db).1
      phase := Function.update s.phase call ((s.phase call).advance (calls call) rt s.db).2 }
  | .foreign other envelope ev rt =>
    { s with db := (exec (other.transact envelope ev) (.start s.db rt)).2.db }
  | .other db => { s with db }

/-- The result of the new work that a step commits. -/
def committed (calls : ι → CommandEnvelope P) (s : CallState handler ι) :
    CallEvent ι → Option CommandResult
  | .advance call rt => (s.phase call).committed (calls call) rt s.db
  | _ => none

/-- What is asked of the steps: the calls happen within the time to live of their key, and the other
steps are about other keys. -/
def Admits (key : String) (since : ℤ) (s : CallState handler ι) : CallEvent ι → Prop
  | .advance _ rt => Within handler since rt
  | .foreign other envelope _ _ =>
    (envelope.idempotencyKey, other.idempotencyScope) ≠ (key, handler.idempotencyScope)
  | .other db => KeepsLiveKey key handler.idempotencyScope since s.db db

/-- Nothing is committed, and no call has returned. -/
structure Before (key : String) (since : ℤ) (s : CallState handler ι) : Prop where
  free : s.db.Free key handler.idempotencyScope since
  pending : ∀ call r, s.phase call ≠ .returned (.ok r)

/-- The result is committed, and every call that returned, returned it. -/
structure After (key : String) (since : ℤ) (result : CommandResult) (s : CallState handler ι) :
    Prop where
  holds : s.db.Holds key handler.idempotencyScope since (since + handler.ttlMs) result
  agreed : ∀ call r, s.phase call = .returned (.ok r) → r = result

variable {calls : ι → CommandEnvelope P} {key : String} {since : ℤ}

/-- Steps of others leave the key's live rows alone. -/
theorem keepsLiveKey_next (calls : ι → CommandEnvelope P) {s : CallState handler ι}
    {e : CallEvent ι}
    (hC : Admits key since s e) (hother : ∀ call rt, e ≠ .advance call rt) :
    KeepsLiveKey key handler.idempotencyScope since s.db (next calls s e).db ∧
      (next calls s e).phase = s.phase ∧ committed calls s e = none := by
  cases e with
  | advance call rt => exact absurd rfl (hother call rt)
  | foreign other envelope ev rt =>
    exact ⟨CommandHandler.keeps_other_key (s := .start s.db rt) hC rfl, rfl, rfl⟩
  | other db => exact ⟨hC, rfl, rfl⟩

/-- A property of every phase, after the step of one call. -/
theorem phase_update {p : CallPhase handler → Prop} {phase : ι → CallPhase handler} {call : ι}
    {after : CallPhase handler} (hall : ∀ call, p (phase call)) (hafter : p after) (call' : ι) :
    p (Function.update phase call after call') := by
  by_cases hsame : call' = call
  · rw [hsame, Function.update_self]
    exact hafter
  · rw [Function.update_of_ne hsame]
    exact hall call'

/-- Before the commit, a step commits nothing or the result. -/
theorem before_next (hkey : ∀ call, (calls call).idempotencyKey = key) (s : CallState handler ι)
    (e : CallEvent ι) (h : Before key since s) (hC : Admits key since s e) :
    (committed calls s e = none ∧ Before key since (next calls s e)) ∨
      ∃ result, committed calls s e = some result ∧ After key since result (next calls s e) := by
  by_cases hcall : ∃ call rt, e = .advance call rt
  · obtain ⟨call, rt, rfl⟩ := hcall
    have hfree := h.free
    rw [← hkey call] at hfree ⊢
    rcases CallPhase.advance_of_free hfree hC (h.pending call) with
      ⟨hnone, hfree', hpending, -⟩ | ⟨result, hsome, hholds, hagreed⟩
    · exact Or.inl ⟨hnone, hfree', phase_update (p := fun p => ∀ r, p ≠ .returned (.ok r))
        h.pending hpending⟩
    · refine Or.inr ⟨result, hsome, hholds, ?_⟩
      exact phase_update (p := fun p => ∀ r, p = .returned (.ok r) → r = result)
        (fun call' r hr => absurd hr (h.pending call' r)) hagreed
  · have hother : ∀ call rt, e ≠ .advance call rt := fun call rt he => hcall ⟨call, rt, he⟩
    obtain ⟨hkeep, hphase, hnone⟩ := keepsLiveKey_next calls hC hother
    refine Or.inl ⟨hnone, hkeep.free h.free, ?_⟩
    rw [hphase]
    exact h.pending

/-- After the commit, a step commits nothing, and every call agrees with it. -/
theorem after_next (hkey : ∀ call, (calls call).idempotencyKey = key) (result : CommandResult)
    (s : CallState handler ι) (e : CallEvent ι) (h : After key since result s)
    (hC : Admits key since s e) :
    committed calls s e = none ∧ After key since result (next calls s e) := by
  by_cases hcall : ∃ call rt, e = .advance call rt
  · obtain ⟨call, rt, rfl⟩ := hcall
    have hholds := h.holds
    rw [← hkey call] at hholds ⊢
    obtain ⟨hnone, hholds', hagreed, -⟩ :=
      CallPhase.advance_of_holds hholds hC (h.agreed call)
    exact ⟨hnone, hholds', phase_update (p := fun p => ∀ r, p = .returned (.ok r) → r = result)
      h.agreed hagreed⟩
  · have hother : ∀ call rt, e ≠ .advance call rt := fun call rt he => hcall ⟨call, rt, he⟩
    obtain ⟨hkeep, hphase, hnone⟩ := keepsLiveKey_next calls hC hother
    refine ⟨hnone, hkeep.holds h.holds, ?_⟩
    rw [hphase]
    exact h.agreed

/-- What holds of the calls when the given results have been committed. -/
structure ExactlyOnce (calls : ι → CommandEnvelope P) (key : String) (since : ℤ)
    (commits : List CommandResult) (s : CallState handler ι) : Prop where
  once : commits.length ≤ 1
  /-- A call that returned, returned what was committed. -/
  agreed : ∀ call r, s.phase call = .returned (.ok r) → commits = [r]
  /-- A transaction that commits no new work writes nothing. -/
  silent : ∀ call ev rt, s.phase call = .gathered ev → Within handler since rt →
    committed calls s (.advance call rt) = none → (next calls s (.advance call rt)).db = s.db
  /-- A transaction that fails leaves no claim, and nothing else. -/
  failed : ∀ call ev rt e s', s.phase call = .gathered ev →
    exec (handler.transact (calls call) ev) (.start s.db rt) = (.error e, s') → s'.db = s.db
  /-- No claim of the key is turned away as being in progress. -/
  unblocked : ∀ rt, Within handler since rt → ∀ problem s',
    exec (claimIdempotencyKey key handler.idempotencyScope handler.ttlMs) (.start s.db rt) ≠
      (.error (.command problem), s')

theorem Before.exactlyOnce (hkey : ∀ call, (calls call).idempotencyKey = key)
    {s : CallState handler ι} (h : Before key since s) : ExactlyOnce calls key since [] s where
  once := Nat.zero_le 1
  agreed call r hr := absurd hr (h.pending call r)
  silent call ev rt hphase hnow hnone := by
    have hfree := h.free
    rw [← hkey call] at hfree
    rcases CallPhase.advance_of_free hfree hnow (h.pending call) with
      ⟨-, -, -, hsilent⟩ | ⟨result, hsome, -, -⟩
    · exact hsilent ev hphase
    · have hcommitted : committed calls s (.advance call rt) = some result := hsome
      rw [hnone] at hcommitted
      cases hcommitted
  failed _ _ _ _ _ _ htx := transaction_error htx
  unblocked rt hnow problem s' hclaim := by
    obtain ⟨row, hrow, hkey, hlive, -⟩ := claimIdempotencyKey_refused hclaim
    have hexpired := h.free row hrow hkey
    have hsince := hnow.1
    rw [Session.start_runtime] at hlive
    omega

theorem After.exactlyOnce (hkey : ∀ call, (calls call).idempotencyKey = key)
    {result : CommandResult} {s : CallState handler ι} (h : After key since result s) :
    ExactlyOnce calls key since [result] s where
  once := Nat.le_refl 1
  agreed call r hr := by rw [h.agreed call r hr]
  silent call ev rt hphase hnow _ := by
    have hholds := h.holds
    rw [← hkey call] at hholds
    obtain ⟨-, -, -, hsilent⟩ := CallPhase.advance_of_holds hholds hnow (h.agreed call)
    exact hsilent ev hphase
  failed _ _ _ _ _ _ htx := transaction_error htx
  unblocked rt hnow problem s' hclaim := by
    obtain ⟨row, hrow, hkey, -, hnone⟩ := claimIdempotencyKey_refused hclaim
    obtain ⟨row', hrow', hkey', -, -, hresult⟩ := h.holds
    rw [IdempotencyKey.eq_of_isKey hrow hrow' hkey hkey', hresult] at hnone
    cases hnone

end CallState

open CallState

/-- **Exactly-once commands**: of any number of calls of one command under one key that is free when
they start, interleaved in any way with each other and with commands under other keys, at most one
commits new work; every call that returns, returns the result of that commit; and a call whose
transaction fails leaves nothing, so that a later call is not turned away. -/
theorem exactly_once {P ι : Type} [DecidableEq ι] {handler : CommandHandler P}
    (calls : ι → CommandEnvelope P) (key : String) (since : ℤ) (db : Db) (es : List (CallEvent ι))
    (hkey : ∀ call, (calls call).idempotencyKey = key)
    (hfree : db.Free key handler.idempotencyScope since)
    (hC : Along (next calls) (Admits key since) (⟨db, fun _ => .ready⟩ : CallState handler ι) es) :
    ExactlyOnce calls key since
      (outputs (next calls) (committed calls) (⟨db, fun _ => .ready⟩ : CallState handler ι) es)
      (run (next calls) (⟨db, fun _ => .ready⟩ : CallState handler ι) es) := by
  have hstart : Before key since (⟨db, fun _ => .ready⟩ : CallState handler ι) :=
    ⟨hfree, fun _ _ h => by cases h⟩
  rcases outputs_once (before_next hkey) (after_next hkey) hstart hC with
    ⟨hnone, hbefore⟩ | ⟨result, hone, hafter⟩
  · rw [hnone]
    exact hbefore.exactlyOnce hkey
  · rw [hone]
    exact hafter.exactlyOnce hkey

/-- Two callers select the first feature under one key. -/
def selections : Bool → CommandEnvelope SelectFeaturePayload :=
  fun _ => sampleEnvelope .human "select" ⟨"run-1", "P", 1⟩

/-- The calls before they start. -/
def notStarted : CallState selectFeatureHandler.toCommandHandler Bool := ⟨sampleDb, fun _ => .ready⟩

/-- Both look the key up before either commits. -/
def crossing : List (CallEvent Bool) := [
  .advance false (sampleRuntime 0), .advance true (sampleRuntime 1),
  .advance false (sampleRuntime 2), .advance true (sampleRuntime 3),
  .advance true (sampleRuntime 4), .advance false (sampleRuntime 5)]

/-- The second caller to commit replays the result of the first. -/
example : outputs (next selections) (committed selections) notStarted crossing =
    [⟨"select", true, "selected", ["ttttii"]⟩] := by decide +kernel

theorem exactly_once_crossing :
    ExactlyOnce selections "select" 0
      (outputs (next selections) (committed selections) notStarted crossing)
      (run (next selections) notStarted crossing) := by
  refine exactly_once selections "select" 0 sampleDb crossing (fun _ => rfl) ?_ ?_
  · exact fun row hrow => by cases hrow
  · have hnow : ∀ n, n < 10 → Within selectFeatureHandler.toCommandHandler 0 (sampleRuntime n) := by
      intro n hn
      have httl : selectFeatureHandler.toCommandHandler.ttlMs = 604800000 := by decide
      constructor
      · show (0 : ℤ) ≤ (n : ℤ)
        omega
      · rw [httl]
        show (n : ℤ) < 0 + 604800000
        omega
    exact ⟨hnow 0 (by omega), hnow 1 (by omega), hnow 2 (by omega), hnow 3 (by omega),
      hnow 4 (by omega), hnow 5 (by omega), trivial⟩

end MiniCoder
