import MiniCoder.Persistence.Client
import MiniCoder.Queue.Delivery
import MiniCoder.Queue.Tasks

/-!
# What a poll selects, and when a queue is drained

`selectDue` takes the oldest rows that match, so that a row it leaves out is younger than every row it
takes.  The two passes of the outbox, and the test for a drained task queue, are stated on top of it.

* `length_selectDue`, `nodup_selectDue`, `oldest_selectDue`: how many rows a `SELECT` takes, and which.
* `outbox_selection`: **events of unregistered types never displace a registered one**.
* `isEmpty_detects_iff`: when `isEmpty` tells a drained queue from one that is not.
-/

open Storage

namespace MiniCoder

/-! ### The oldest rows that match -/

section Selection

variable {α : Type} (t : Table (QueueRow α)) (p : QueueRow α → Bool) (limit : ℕ)

theorem length_selectDue : (selectDue t p limit).length = min limit (t.count p) := by
  rw [selectDue, List.length_take, List.length_insertionSort, Table.select, Table.count,
    List.countP_eq_length_filter]

theorem nodup_selectDue : (selectDue t p limit).Nodup := by
  have hsorted : ((t.select p).insertionSort fun r r' => r.createdAt ≤ r'.createdAt).Nodup :=
    (List.perm_insertionSort _ _).nodup_iff.mpr (t.nodup.filter _)
  exact hsorted.sublist (List.take_sublist _ _)

variable {t p limit}

/-- **No row that matches and is left out is older than one that is taken.** -/
theorem oldest_selectDue {r r' : QueueRow α} (hr : r ∈ selectDue t p limit) (hr' : r' ∈ t.rows)
    (hp : p r' = true) (hout : r' ∉ selectDue t p limit) : r.createdAt ≤ r'.createdAt := by
  have hsorted : ((t.select p).insertionSort fun r r' => r.createdAt ≤ r'.createdAt).Pairwise
      fun r r' => r.createdAt ≤ r'.createdAt :=
    List.pairwise_insertionSort _ _
  have hmem : r' ∈ (t.select p).insertionSort fun r r' => r.createdAt ≤ r'.createdAt :=
    (List.mem_insertionSort _).mpr (List.mem_filter.mpr ⟨hr', hp⟩)
  rw [← List.take_append_drop limit ((t.select p).insertionSort _)] at hsorted hmem
  have hdrop := (List.mem_append.mp hmem).resolve_left hout
  exact (List.pairwise_append.mp hsorted).2.2 r hr r' hdrop

/-- A `SELECT` that takes fewer rows than it may takes every row that matches. -/
theorem mem_selectDue_of_length {r : QueueRow α} (hr : r ∈ t.rows) (hp : p r = true)
    (hroom : t.count p ≤ limit) : r ∈ selectDue t p limit := by
  have hlength : ((t.select p).insertionSort fun r r' => r.createdAt ≤ r'.createdAt).length ≤
      limit := by
    rw [List.length_insertionSort, Table.select, ← List.countP_eq_length_filter]
    exact hroom
  rw [selectDue, List.take_of_length_le hlength, List.mem_insertionSort]
  exact List.mem_filter.mpr ⟨hr, hp⟩

end Selection

/-! ### The two passes of the outbox -/

namespace Delivery

variable {ι : Type} (d : Delivery ι) (i : ι)

/-- The rows that a poll selects: its first `SELECT`, and, where there are registered types, its
second. -/
def selects (m m' : Moment) (t : Table EventRow) : List EventRow :=
  match (d.advance i m t .recovered).1 with
  | .selected known now => (d.advance i m' t (.selected known now)).1.toClaim
  | phase => phase.toClaim

/-- A due event of a registered type. -/
def isDueRegistered (now : ℤ) (row : EventRow) : Bool :=
  row.isDue (d.options i).maxAttempts now && decide (row.kind ∈ d.knownTypes)

/-- A due event of a type without a handler. -/
def isDueUnregistered (now : ℤ) (row : EventRow) : Bool :=
  row.isDue (d.options i).maxAttempts now && decide (row.kind ∉ d.knownTypes)

/-- What the selection of a poll at the time `now` owes the events of the table. -/
structure FairSelection (now : ℤ) (t : Table EventRow) (rows : List EventRow) : Prop where
  bounded : rows.length ≤ (d.options i).batchSize
  distinct : rows.Nodup
  due : ∀ row ∈ rows, row ∈ t.rows ∧ row.isDue (d.options i).maxAttempts now = true
  /-- As many registered events as there are, or as the batch takes. -/
  registered : rows.countP (fun row => decide (row.kind ∈ d.knownTypes)) =
    min (d.options i).batchSize (t.count (d.isDueRegistered i now))
  /-- The registered events that are selected are the oldest ones. -/
  oldest : ∀ row ∈ rows, row.kind ∈ d.knownTypes → ∀ row' ∈ t.rows,
    d.isDueRegistered i now row' = true → row' ∉ rows → row.createdAt ≤ row'.createdAt
  /-- A registered event is left out for registered ones only. -/
  displaced : ∀ row' ∈ t.rows, d.isDueRegistered i now row' = true → row' ∉ rows →
    rows.length = (d.options i).batchSize ∧ ∀ row ∈ rows, row.kind ∈ d.knownTypes

variable {d i} {t : Table EventRow}

/-- The two passes: the registered events first, and the others in the room that they leave. -/
theorem selects_eq (polled now polled' now' : ℤ) (hknown : d.knownTypes ≠ []) :
    d.selects i { polled, now } { polled := polled', now := now' } t =
      selectDue t (d.isDueRegistered i now) (d.options i).batchSize ++
        selectDue t (d.isDueUnregistered i now) ((d.options i).batchSize -
          (selectDue t (d.isDueRegistered i now) (d.options i).batchSize).length) := by
  have hfirst : (d.advance i { polled, now } t .recovered).1 =
      .selected (selectDue t (d.isDueRegistered i now) (d.options i).batchSize) now := by
    rw [advance]
    simp [hknown]
    rfl
  rw [selects, hfirst]
  by_cases hfull : (d.options i).batchSize -
      (selectDue t (d.isDueRegistered i now) (d.options i).batchSize).length = 0
  · -- a full batch: there is no second `SELECT`
    have hnone : selectDue t (d.isDueUnregistered i now) 0 = [] := rfl
    rw [hfull, hnone, List.append_nil]
    simp [advance, hfull, Phase.toClaim]
  · have hunregistered : (fun row : EventRow =>
        row.isDue (d.options i).maxAttempts now && !decide (row.kind ∈ d.knownTypes)) =
        d.isDueUnregistered i now := by
      funext row
      rw [isDueUnregistered, decide_not]
    simp [advance, hfull, Phase.toClaim, hunregistered]

/-- **Events of unregistered types never displace a registered one.** -/
theorem outbox_selection (polled now polled' now' : ℤ) :
    d.FairSelection i now t
      (d.selects i { polled, now } { polled := polled', now := now' } t) := by
  by_cases hknown : d.knownTypes = []
  · have hselects : d.selects i { polled, now } { polled := polled', now := now' } t =
        selectDue t (QueueRow.isDue (d.options i).maxAttempts now) (d.options i).batchSize := by
      rw [selects, advance]
      simp [hknown, Phase.toClaim]
    have hnever : ∀ row, d.isDueRegistered i now row = false := by
      intro row
      simp [isDueRegistered, hknown]
    rw [hselects]
    refine ⟨?_, nodup_selectDue _ _ _, fun row hrow => mem_selectDue hrow, ?_, fun row _ hkind => ?_,
      fun row' _ hdue => ?_⟩
    · rw [length_selectDue]
      exact Nat.min_le_left _ _
    · rw [Table.count_eq_zero.mpr fun row _ => hnever row]
      simp [hknown]
    · rw [hknown] at hkind
      cases hkind
    · rw [hnever] at hdue
      cases hdue
  · have hkinds : ∀ limit, (∀ row ∈ selectDue t (d.isDueRegistered i now) limit,
        row.kind ∈ d.knownTypes) ∧
        ∀ row ∈ selectDue t (d.isDueUnregistered i now) limit, row.kind ∉ d.knownTypes := by
      intro limit
      refine ⟨fun row hrow => ?_, fun row hrow => ?_⟩
      · have hmatch := (mem_selectDue hrow).2
        rw [isDueRegistered, Bool.and_eq_true, decide_eq_true_eq] at hmatch
        exact hmatch.2
      · have hmatch := (mem_selectDue hrow).2
        rw [isDueUnregistered, Bool.and_eq_true, decide_eq_true_eq] at hmatch
        exact hmatch.2
    rw [selects_eq polled now polled' now' hknown]
    have hlength := length_selectDue t (d.isDueRegistered i now) (d.options i).batchSize
    have hlength' := length_selectDue t (d.isDueUnregistered i now) ((d.options i).batchSize -
      (selectDue t (d.isDueRegistered i now) (d.options i).batchSize).length)
    obtain ⟨hregistered, -⟩ := hkinds (d.options i).batchSize
    obtain ⟨-, hunregistered⟩ := hkinds ((d.options i).batchSize -
      (selectDue t (d.isDueRegistered i now) (d.options i).batchSize).length)
    refine ⟨?_, ?_, fun row hrow => ?_, ?_, fun row hrow hkind row' hrow' hdue hout => ?_,
      fun row' hrow' hdue hout => ?_⟩
    · rw [List.length_append]
      omega
    · refine List.nodup_append.mpr ⟨nodup_selectDue _ _ _, nodup_selectDue _ _ _,
        fun row hrow row' hrow' hsame => ?_⟩
      subst hsame
      exact hunregistered row hrow' (hregistered row hrow)
    · rcases List.mem_append.mp hrow with hfirst | hsecond
      · obtain ⟨hmem, hmatch⟩ := mem_selectDue hfirst
        rw [isDueRegistered, Bool.and_eq_true] at hmatch
        exact ⟨hmem, hmatch.1⟩
      · obtain ⟨hmem, hmatch⟩ := mem_selectDue hsecond
        rw [isDueUnregistered, Bool.and_eq_true] at hmatch
        exact ⟨hmem, hmatch.1⟩
    · rw [List.countP_append, List.countP_eq_length.mpr fun row hrow =>
        decide_eq_true (hregistered row hrow), List.countP_eq_zero.mpr fun row hrow => by
          simpa using hunregistered row hrow, hlength, Nat.add_zero]
    · rcases List.mem_append.mp hrow with hfirst | hsecond
      · exact oldest_selectDue hfirst hrow' hdue fun hin => hout (List.mem_append_left _ hin)
      · exact absurd hkind (hunregistered row hsecond)
    · -- a registered event that is left out fills the first pass
      have hfull : (selectDue t (d.isDueRegistered i now) (d.options i).batchSize).length =
          (d.options i).batchSize := by
        by_contra hroom
        refine hout (List.mem_append_left _ (mem_selectDue_of_length hrow' hdue ?_))
        omega
      have hnone : selectDue t (d.isDueUnregistered i now) ((d.options i).batchSize -
          (selectDue t (d.isDueRegistered i now) (d.options i).batchSize).length) = [] := by
        rw [hfull, Nat.sub_self]
        rfl
      rw [hnone, List.append_nil]
      exact ⟨hfull, hregistered⟩

end Delivery

/-! ### A drained queue -/

/-- What a driver returns for a `COUNT(*)`. -/
inductive CountValue
  | number (n : ℕ)
  | text (s : String)
  deriving DecidableEq, Repr

/-- `SELECT COUNT(*)`: SQLite returns a number, and PostgreSQL the decimal digits of a `bigint`. -/
def countValue : Dialect → ℕ → CountValue
  | .sqlite, n => .number n
  | .postgres, n => .text (toString n)

/-- `status = 'processing' OR (status IN ('pending', 'failed') AND attempts < ?)`. -/
def TaskRow.remains (maxAttempts : ℕ) (row : TaskRow) : Bool :=
  row.status == .processing || (row.isOpen && decide (row.attempts < maxAttempts))

/-- `TaskQueueDispatcher.isEmpty`: the count, compared with `=== 0`. -/
def isEmpty (dialect : Dialect) (maxAttempts : ℕ) (t : Table TaskRow) : Bool :=
  countValue dialect (t.count (TaskRow.remains maxAttempts)) == .number 0

/-- No row is at work, and none is a candidate of a poll at the present or at a later time. -/
def NothingLeft (maxAttempts : ℕ) (now : ℤ) (t : Table TaskRow) : Prop :=
  ∀ row ∈ t.rows, row.status ≠ .processing ∧
    ∀ later, now ≤ later → row.isDue maxAttempts later = false

/-- Every row has succeeded, or has used up its attempts. -/
def AllSettled (maxAttempts : ℕ) (t : Table TaskRow) : Prop :=
  ∀ row ∈ t.rows, row.status = .done ∨ (row.isOpen = true ∧ maxAttempts ≤ row.attempts)

section Drain

variable {dialect : Dialect} {maxAttempts : ℕ} {now : ℤ} {t : Table TaskRow}

/-- A row remains until it has succeeded or used up its attempts. -/
theorem TaskRow.remains_eq_false {row : TaskRow} : row.remains maxAttempts = false ↔
    row.status = .done ∨ (row.isOpen = true ∧ maxAttempts ≤ row.attempts) := by
  rw [remains, QueueRow.isOpen]
  cases row.status <;> simp

/-- **A row remains exactly when it is at work, or some later poll selects it.** -/
theorem TaskRow.remains_eq_false_iff {row : TaskRow} : row.remains maxAttempts = false ↔
    row.status ≠ .processing ∧ ∀ later, now ≤ later → row.isDue maxAttempts later = false := by
  constructor
  · intro hgone
    rw [remains, Bool.or_eq_false_iff, beq_eq_false_iff_ne] at hgone
    refine ⟨hgone.1, fun later _ => ?_⟩
    rw [QueueRow.isDue, hgone.2, Bool.false_and]
  · rintro ⟨hidle, hnever⟩
    rw [remains, Bool.or_eq_false_iff, beq_eq_false_iff_ne]
    refine ⟨hidle, ?_⟩
    -- the first poll after the retry time would select the row
    have hlater := hnever (max now (row.nextRetryAt.getD now)) (Int.le_max_left _ _)
    have hretry : row.nextRetryAt.all
        (fun retryAt => decide (retryAt ≤ max now (row.nextRetryAt.getD now))) = true := by
      cases row.nextRetryAt with
      | none => rfl
      | some retryAt => exact decide_eq_true (Int.le_max_right _ _)
    rw [QueueRow.isDue, hretry, Bool.and_true] at hlater
    exact hlater

theorem count_remains_eq_zero :
    t.count (TaskRow.remains maxAttempts) = 0 ↔ NothingLeft maxAttempts now t := by
  rw [Table.count_eq_zero]
  exact forall₂_congr fun row _ => TaskRow.remains_eq_false_iff

theorem nothingLeft_iff_allSettled : NothingLeft maxAttempts now t ↔ AllSettled maxAttempts t :=
  forall₂_congr fun _ _ => TaskRow.remains_eq_false_iff.symm.trans TaskRow.remains_eq_false

/-- On SQLite `isEmpty` compares the count; the text that PostgreSQL returns is never `0`. -/
theorem isEmpty_iff : isEmpty dialect maxAttempts t = true ↔
    dialect = .sqlite ∧ t.count (TaskRow.remains maxAttempts) = 0 := by
  rw [isEmpty, beq_iff_eq]
  cases dialect with
  | sqlite => simp [countValue]
  | postgres => simp [countValue]

/-- **`isEmpty` tells a drained queue from one that is not** on SQLite, and on PostgreSQL as long as
the queue is not drained. -/
theorem isEmpty_detects_iff :
    ((isEmpty dialect maxAttempts t = true ↔ NothingLeft maxAttempts now t) ∧
        (isEmpty dialect maxAttempts t = true ↔ AllSettled maxAttempts t)) ↔
      (dialect = .sqlite ∨ ∃ row ∈ t.rows, row.remains maxAttempts = true) := by
  have hsettled : NothingLeft maxAttempts now t ↔ AllSettled maxAttempts t :=
    nothingLeft_iff_allSettled
  have hcount : t.count (TaskRow.remains maxAttempts) = 0 ↔ NothingLeft maxAttempts now t :=
    count_remains_eq_zero
  rw [← hsettled, and_self, isEmpty_iff, ← hcount]
  by_cases hzero : t.count (TaskRow.remains maxAttempts) = 0
  · have hnone : ¬ ∃ row ∈ t.rows, row.remains maxAttempts = true := by
      rintro ⟨row, hrow, hremains⟩
      rw [Table.count_eq_zero.mp hzero row hrow] at hremains
      cases hremains
    simp [hzero, hnone]
  · have hsome := Table.count_pos hzero
    simp [hzero, hsome]

/-- An empty queue on PostgreSQL. -/
theorem isEmpty_postgres_drained :
    isEmpty .postgres 3 .empty = false ∧ NothingLeft 3 0 .empty ∧ AllSettled 3 .empty := by
  refine ⟨by decide, fun row hrow => ?_, fun row hrow => ?_⟩
  · cases hrow
  · cases hrow

end Drain

end MiniCoder
