import Mathlib.Algebra.Group.Nat.Defs
import Mathlib.Data.Int.Notation
import Mathlib.Data.List.Sort
import MiniCoder.Library.Versioned

/-!
# The rows of the event tables and of the task queue

`outbox_events`, `inbox_events` and `task_queue` have the same mechanics: a dispatcher selects open
rows that are due, claims one under the version it read, works on it while a heartbeat renews the
claim, and marks it under the version its claim has set; a claim without a heartbeat is recovered as
stale.  `QueueRow` has the columns of these mechanics, and one definition stands for each statement.

* `later_*`: every statement raises the version of the rows it matches, or renews a claim, which
  changes nothing that matters (`QueueRow.core`).
* `mem_selectDue`: what a `SELECT` of due rows returns.
-/

open Storage

namespace MiniCoder

/-! ### Rows -/

/-- The status of a row.  `done` is `delivered` in `outbox_events`, `processed` in `inbox_events` and
`succeeded` in `task_queue`. -/
inductive QueueStatus
  | pending
  | processing
  | done
  | failed
  deriving DecidableEq, Repr

/-- A row, with the columns `extra` that only one of the tables has; `kind` is its `event_type` or
its `task_id`. -/
structure QueueRow (α : Type) where
  id : String
  kind : String
  payload : String
  extra : α
  status : QueueStatus := .pending
  attempts : ℕ := 0
  nextRetryAt : Option ℤ := none
  version : ℕ := 1
  createdAt : ℤ
  updatedAt : ℤ
  deriving DecidableEq, Repr

variable {α : Type}

instance : Row (QueueRow α) := .ofKey (·.id)

instance : Versioned (QueueRow α) String where
  key := QueueRow.id
  version := QueueRow.version
  clash_of_key _ _ h := decide_eq_true h

namespace QueueRow

/-- `status IN ('pending', 'failed')`. -/
def isOpen (row : QueueRow α) : Bool := row.status == .pending || row.status == .failed

/-- `status IN ('pending', 'failed') AND attempts < ? AND (next_retry_at IS NULL OR
next_retry_at <= ?)`. -/
def isDue (maxAttempts : ℕ) (now : ℤ) (row : QueueRow α) : Bool :=
  row.isOpen && decide (row.attempts < maxAttempts) &&
    row.nextRetryAt.all fun retryAt => decide (retryAt ≤ now)

/-- What no heartbeat changes. -/
def core (row : QueueRow α) : QueueRow Unit where
  id := row.id
  kind := row.kind
  payload := row.payload
  extra := ()
  status := row.status
  attempts := row.attempts
  nextRetryAt := row.nextRetryAt
  version := row.version
  createdAt := row.createdAt
  updatedAt := 0

/-! ### The `SET` lists -/

/-- A stale claim, recovered. -/
def recovered (now : ℤ) (row : QueueRow α) : QueueRow α :=
  { row with status := .pending, version := row.version + 1, updatedAt := now }

def claimed (now : ℤ) (row : QueueRow α) : QueueRow α :=
  { row with status := .processing, version := row.version + 1, updatedAt := now }

def renewed (now : ℤ) (row : QueueRow α) : QueueRow α := { row with updatedAt := now }

/-- A row of a kind nobody handles, put off without an attempt. -/
def pushedBack (nextRetryAt now : ℤ) (row : QueueRow α) : QueueRow α :=
  { row with nextRetryAt := some nextRetryAt, version := row.version + 1, updatedAt := now }

/-- The same, with the claim given back. -/
def givenBack (nextRetryAt now : ℤ) (row : QueueRow α) : QueueRow α :=
  { row.pushedBack nextRetryAt now with status := .pending }

def finished (now : ℤ) (note : α → α) (row : QueueRow α) : QueueRow α :=
  { row with
    status := .done, extra := note row.extra, version := row.version + 1, updatedAt := now }

def retried (attempts : ℕ) (nextRetryAt now : ℤ) (note : α → α) (row : QueueRow α) : QueueRow α :=
  { row with
    status := .failed, attempts, nextRetryAt := some nextRetryAt, extra := note row.extra
    version := row.version + 1, updatedAt := now }

end QueueRow

/-- What a claim of a row leaves of it. -/
abbrev QueueRow.claim (row : QueueRow α) : QueueRow α := row.claimed 0

/-! ### Statements -/

theorem defaultStaleClaimMs_two : 2 ≤ 300000 := by decide

/-- `DispatcherOptions` and `TaskWorkerOptions`; the constructors refuse a `staleClaimMs` below 2. -/
structure DispatcherOptions where
  batchSize : ℕ := 10
  maxAttempts : ℕ := 5
  baseBackoffMs : ℕ := 1000
  maxBackoffMs : ℕ := 60000
  staleClaimMs : ℕ := 300000
  staleClaimMs_two : 2 ≤ staleClaimMs := by first | exact defaultStaleClaimMs_two | decide

/-- `deterministicBackoff`. -/
def deterministicBackoff (attempt baseMs maxMs : ℕ) : ℕ :=
  if attempt = 0 then 0 else min (baseMs * 2 ^ (attempt - 1)) maxMs

/-- `executeAffected`: an `UPDATE`, with the number of rows it matched. -/
def executeAffected (p : QueueRow α → Bool) (f : QueueRow α → QueueRow α) (hf : KeyFree f)
    (t : Table (QueueRow α)) : ℕ × Table (QueueRow α) := (t.count p, t.update p f hf)

/-- `UPDATE … SET status = 'pending' … WHERE status = 'processing' AND updated_at <= ?`. -/
def recoverStale (staleThreshold now : ℤ) : Table (QueueRow α) → ℕ × Table (QueueRow α) :=
  executeAffected (fun row => row.status == .processing && decide (row.updatedAt ≤ staleThreshold))
    (QueueRow.recovered now) fun _ _ => rfl

/-- `UPDATE … SET status = 'processing' … WHERE id = ? AND status IN ('pending', 'failed') AND
version = ?`. -/
def claimRow (row : QueueRow α) (now : ℤ) : Table (QueueRow α) → ℕ × Table (QueueRow α) :=
  executeAffected (fun r => guarded row.id row.version r && r.isOpen) (QueueRow.claimed now)
    fun _ _ => rfl

/-- `UPDATE outbox_events SET status = 'pending', next_retry_at = ? … WHERE id = ? AND version = ?`,
of a claimed row. -/
def giveBack (row : QueueRow α) (nextRetryAt now : ℤ) :
    Table (QueueRow α) → ℕ × Table (QueueRow α) :=
  executeAffected (guarded row.id (row.version + 1)) (QueueRow.givenBack nextRetryAt now)
    fun _ _ => rfl

/-- `UPDATE task_queue SET next_retry_at = ? … WHERE id = ? AND version = ?`, of a row that was not
claimed. -/
def pushBack (row : QueueRow α) (nextRetryAt now : ℤ) :
    Table (QueueRow α) → ℕ × Table (QueueRow α) :=
  executeAffected (guarded row.id row.version) (QueueRow.pushedBack nextRetryAt now) fun _ _ => rfl

/-- `UPDATE … SET updated_at = ? WHERE id = ? AND status = 'processing' AND version = ?`. -/
def renewClaim (row : QueueRow α) (now : ℤ) : Table (QueueRow α) → ℕ × Table (QueueRow α) :=
  executeAffected (fun r => guarded row.id (row.version + 1) r && r.status == .processing)
    (QueueRow.renewed now) fun _ _ => rfl

/-- `UPDATE … SET status = 'delivered' … WHERE id = ? AND version = ?`. -/
def markDone (row : QueueRow α) (now : ℤ) (note : α → α) :
    Table (QueueRow α) → ℕ × Table (QueueRow α) :=
  executeAffected (guarded row.id (row.version + 1)) (QueueRow.finished now note) fun _ _ => rfl

/-- `UPDATE … SET status = 'failed', attempts = ?, next_retry_at = ? … WHERE id = ? AND
version = ?`. -/
def markFailed (row : QueueRow α) (attempts : ℕ) (nextRetryAt now : ℤ) (note : α → α) :
    Table (QueueRow α) → ℕ × Table (QueueRow α) :=
  executeAffected (guarded row.id (row.version + 1))
    (QueueRow.retried attempts nextRetryAt now note) fun _ _ => rfl

/-- `SELECT … ORDER BY created_at ASC LIMIT ?`. -/
def selectDue (t : Table (QueueRow α)) (p : QueueRow α → Bool) (limit : ℕ) : List (QueueRow α) :=
  ((t.select p).insertionSort fun r r' => r.createdAt ≤ r'.createdAt).take limit

/-- What can go wrong with a statement: it is refused, or it takes effect and its answer is lost. -/
inductive Fault
  | refused
  | unanswered
  deriving DecidableEq, Repr

/-- A statement with what its caller sees: the number of rows, or an error. -/
def issue (fault : Option Fault) (t : Table (QueueRow α))
    (statement : Table (QueueRow α) → ℕ × Table (QueueRow α)) : Option ℕ × Table (QueueRow α) :=
  match fault with
  | none => (some (statement t).1, (statement t).2)
  | some .refused => (none, t)
  | some .unanswered => (none, (statement t).2)

/-- How far the work on a claimed row has got. -/
inductive Stage
  | handling
  /-- The handler has returned. -/
  | returned
  /-- The handler, or the mark after it, has thrown. -/
  | threw (nextRetryAt : ℤ)
  deriving DecidableEq, Repr

/-- What the environment decides about one step of a dispatcher: the two readings of the clock it
may take, what happens to its statement, and whether the handler it runs returns. -/
structure Moment where
  polled : ℤ
  now : ℤ
  fault : Option Fault := none
  returns : Bool := true
  deriving DecidableEq, Repr

/-! ### What the statements do -/

theorem mem_selectDue {t : Table (QueueRow α)} {p : QueueRow α → Bool} {limit : ℕ}
    {row : QueueRow α} (h : row ∈ selectDue t p limit) : row ∈ t.rows ∧ p row = true := by
  have hsorted := List.mem_of_mem_take h
  rw [List.mem_insertionSort] at hsorted
  exact List.mem_filter.mp hsorted

theorem executeAffected_eq_self {p : QueueRow α → Bool} {f : QueueRow α → QueueRow α}
    {hf : KeyFree f} {t : Table (QueueRow α)} (h : ∀ r ∈ t.rows, p r = false) :
    (executeAffected p f hf t).2 = t := Table.update_eq_self hf (Table.count_eq_zero.mpr h)

theorem mem_executeAffected_of_pos {p : QueueRow α → Bool} {f : QueueRow α → QueueRow α}
    {hf : KeyFree f} {t : Table (QueueRow α)} {r : QueueRow α} (hr : r ∈ t.rows)
    (hp : p r = true) : f r ∈ (executeAffected p f hf t).2.rows :=
  List.mem_map.mpr ⟨r, hr, Table.updateRow_of_pos hp⟩

theorem mem_executeAffected_of_neg {p : QueueRow α → Bool} {f : QueueRow α → QueueRow α}
    {hf : KeyFree f} {t : Table (QueueRow α)} {r : QueueRow α} (hr : r ∈ t.rows)
    (hp : p r = false) : r ∈ (executeAffected p f hf t).2.rows :=
  List.mem_map.mpr ⟨r, hr, Table.updateRow_of_neg hp⟩

theorem rewritten_executeAffected (p : QueueRow α → Bool) (f : QueueRow α → QueueRow α)
    (hf : KeyFree f) (t : Table (QueueRow α)) :
    t.Rewritten (fun r r' => (p r = true ∧ r' = f r) ∨ r' = r) (executeAffected p f hf t).2 := by
  refine (Table.Rewritten.update p f hf).imp fun r r' hr => ?_
  by_cases hp : p r = true
  · rw [Table.updateRow_of_pos hp] at hr
    exact Or.inl ⟨hp, hr⟩
  · rw [Table.updateRow_of_neg (by simpa using hp)] at hr
    exact Or.inr hr

theorem issue_cases (fault : Option Fault) (t : Table (QueueRow α))
    (statement : Table (QueueRow α) → ℕ × Table (QueueRow α)) :
    (issue fault t statement).2 = t ∧ (issue fault t statement).1 = none ∨
      (issue fault t statement).2 = (statement t).2 ∧
        ∀ n, (issue fault t statement).1 = some n → n = (statement t).1 := by
  rcases fault with _ | fault
  · exact Or.inr ⟨rfl, fun n hn => (Option.some.inj hn).symm⟩
  · cases fault with
    | refused => exact Or.inl ⟨rfl, rfl⟩
    | unanswered => exact Or.inr ⟨rfl, fun n hn => by cases hn⟩

section Later

variable {now nextRetryAt : ℤ} {note : α → α} {attempts : ℕ} {row : QueueRow α}

theorem later_recovered : Later QueueRow.core row (row.recovered now) :=
  ⟨rfl, Or.inl (Nat.lt_succ_self row.version)⟩

theorem later_claimed : Later QueueRow.core row (row.claimed now) :=
  ⟨rfl, Or.inl (Nat.lt_succ_self row.version)⟩

theorem later_renewed : Later QueueRow.core row (row.renewed now) := ⟨rfl, Or.inr ⟨rfl, rfl⟩⟩

theorem later_pushedBack : Later QueueRow.core row (row.pushedBack nextRetryAt now) :=
  ⟨rfl, Or.inl (Nat.lt_succ_self row.version)⟩

theorem later_givenBack : Later QueueRow.core row (row.givenBack nextRetryAt now) :=
  ⟨rfl, Or.inl (Nat.lt_succ_self row.version)⟩

theorem later_finished : Later QueueRow.core row (row.finished now note) :=
  ⟨rfl, Or.inl (Nat.lt_succ_self row.version)⟩

theorem later_retried :
    Later QueueRow.core row (row.retried attempts nextRetryAt now note) :=
  ⟨rfl, Or.inl (Nat.lt_succ_self row.version)⟩

end Later

/-- A claim that matched a row makes it its holder's. -/
theorem held_claimRow {ω : Type*} {who : ω} {stamps : String → ω} {t : Table (QueueRow α)}
    {row : QueueRow α} {now : ℤ} (hseen : Snapshot QueueRow.core t row)
    (hmatched : (claimRow row now t).1 ≠ 0) :
    Held QueueRow.core (claimRow row now t).2 (stamp t (claimRow row now t).2 who stamps) row.claim
      who := by
  obtain ⟨r, hr, hmatch⟩ := Table.count_pos hmatched
  have hguard := hmatch
  rw [Bool.and_eq_true] at hguard
  obtain ⟨hid, hversion⟩ := guarded_iff.mp hguard.1
  have hcore : r.core = row.core := hseen.core_eq hr hid hversion
  have hclaimed : (r.claimed now).core = row.claim.core :=
    congrArg (fun c : QueueRow Unit =>
      { c with status := .processing, version := c.version + 1 }) hcore
  have hkeyFree : KeyFree (QueueRow.claimed (α := α) now) := fun _ _ => rfl
  have hheld : Held QueueRow.core (claimRow row now t).2
      (stamp t (claimRow row now t).2 who stamps) (r.claimed now) who :=
    Held.of_update hkeyFree (fun _ => rfl) hr hmatch (Nat.lt_succ_self r.version)
  exact hheld.congr hid.symm (congrArg (· + 1) hversion).symm hclaimed.symm

end MiniCoder
