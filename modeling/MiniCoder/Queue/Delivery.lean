import Mathlib.Logic.Function.Basic
import MiniCoder.Library.Run
import MiniCoder.Queue.Rows

/-!
# Delivery of outbox and inbox events

`OutboxDispatcher.pollAndDispatch` and `InboxProcessor.pollAndProcess`, statement by statement: any
number of instances take turns on one event table, each at its own place in the poll (`Phase`).
The two classes differ in their table, in the word for a delivered row, and in what they check
before they call a handler (`Delivery.accepts`).

The ghost column `claimedBy` names the instance whose claim set the current version of a row.

* `took_advance`: everything one step of an instance can do to the table.
* `safe_next`: **one step** keeps every claim its holder's, and the attempts below their bound.
* `delivery`: **over a run** of any number of instances, with failures and crashes at every
  statement, a delivered row never changes, a mark takes effect under its own claim only, no event
  runs out of its attempts early or late, and none is lost.
-/

open Storage Runs

namespace MiniCoder

/-! ### Configuration -/

/-- The two event tables, of `OutboxDispatcher` and of `InboxProcessor`. -/
inductive EventQueue
  | outbox
  | inbox
  deriving DecidableEq, Repr

/-- The literal of a row that was delivered. -/
def EventQueue.doneLiteral : EventQueue → String
  | outbox => "delivered"
  | inbox => "processed"

structure EventColumns where
  payloadSchemaVersion : String
  deriving DecidableEq, Repr

abbrev EventRow := QueueRow EventColumns

/-- `SCHEMA_VERSION`. -/
def schemaVersion : String := "1.0.0"

/-- The instances at work on one table: the keys of their handler map, the parser and the validator
of payloads, and the options of each. -/
structure Delivery (ι : Type) where
  queue : EventQueue
  knownTypes : List String
  parses : String → Bool
  validates : String → String → Bool
  options : ι → DispatcherOptions

/-! ### One instance -/

/-- Where an instance is in its poll; the rows are as it has read them. -/
inductive Phase
  | idle
  /-- Stale claims have been recovered. -/
  | recovered
  /-- The first `SELECT`, of known types, has returned. -/
  | selected (known : List EventRow) (now : ℤ)
  /-- The rows still to be claimed. -/
  | batch (rows : List EventRow)
  /-- A claimed row without a handler. -/
  | unhandled (row : EventRow) (rest : List EventRow)
  /-- A claimed row with its handler, and whether its heartbeat has lost the claim. -/
  | working (row : EventRow) (stage : Stage) (lost : Bool) (rest : List EventRow)
  deriving DecidableEq, Repr

namespace Phase

/-- The rows an instance will try to claim. -/
def toClaim : Phase → List EventRow
  | selected known _ => known
  | batch rows => rows
  | unhandled _ rest | working _ _ _ rest => rest
  | _ => []

/-- The row an instance has claimed. -/
def held : Phase → Option EventRow
  | unhandled row _ | working row _ _ _ => some row
  | _ => none

/-- The row whose handler an instance has called. -/
def handled : Phase → Option EventRow
  | working row _ _ _ => some row
  | _ => none

/-- The row an instance is about to mark. -/
def marks : Phase → Option EventRow
  | working row .returned _ _ | working row (.threw _) _ _ => some row
  | _ => none

/-- Who sets the versions that the next statement raises, if it is a claim. -/
def claimant {ι : Type} (i : ι) : Phase → Option ι
  | batch _ => some i
  | _ => none

/-- The heartbeat of a claim; it stops for good when it finds the claim lost. -/
def heartbeat (m : Moment) (t : Table EventRow) : Phase → Phase × Table EventRow
  | working row stage false rest =>
    let renewed := issue m.fault t (renewClaim row m.now)
    (.working row stage (renewed.1.getD 0 == 0) rest, renewed.2)
  | phase => (phase, t)

end Phase

namespace Delivery

variable {ι : Type} (d : Delivery ι) (i : ι)

/-- The checks on a row before its handler is called; a row that fails them fails its attempt. -/
def accepts (row : EventRow) : Bool :=
  match d.queue with
  | .outbox => d.parses row.payload
  | .inbox => d.parses row.payload && row.extra.payloadSchemaVersion == schemaVersion &&
      d.validates row.kind row.payload

/-- The retry time of a failed attempt. -/
def nextRetryAt (row : EventRow) (now : ℤ) : ℤ :=
  now + deterministicBackoff (row.attempts + 1) (d.options i).baseBackoffMs
    (d.options i).maxBackoffMs

/-- The next statement of `pollAndDispatch`, or the end of a handler call. -/
def advance (m : Moment) (t : Table EventRow) : Phase → Phase × Table EventRow
  | .idle =>
    let recovered := issue m.fault t
      (recoverStale (m.polled - (d.options i).staleClaimMs) m.now)
    (if recovered.1.isSome then .recovered else .idle, recovered.2)
  | .recovered =>
    let due := QueueRow.isDue (d.options i).maxAttempts m.now
    if m.fault.isSome then (.idle, t)
    else if d.knownTypes = [] then (.batch (selectDue t due (d.options i).batchSize), t)
    else
      (.selected (selectDue t (fun row => due row && decide (row.kind ∈ d.knownTypes))
        (d.options i).batchSize) m.now, t)
  | .selected known now =>
    let due := QueueRow.isDue (d.options i).maxAttempts now
    let remaining := (d.options i).batchSize - known.length
    if remaining = 0 then (.batch known, t)
    else if m.fault.isSome then (.idle, t)
    else
      (.batch (known ++
        selectDue t (fun row => due row && decide (row.kind ∉ d.knownTypes)) remaining), t)
  | .batch [] => (.idle, t)
  | .batch (row :: rest) =>
    let claimed := issue m.fault t (claimRow row m.now)
    match claimed.1 with
    | none => (.idle, claimed.2)
    | some 0 => (.batch rest, claimed.2)
    | some _ =>
      (if row.kind ∈ d.knownTypes then .working row .handling false rest
        else .unhandled row rest, claimed.2)
  | .unhandled row rest =>
    let given := issue m.fault t
      (giveBack row (m.polled + (d.options i).maxBackoffMs) m.now)
    (if given.1.isSome then .batch rest else .idle, given.2)
  | .working row .handling lost rest =>
    let stage : Stage :=
      if d.accepts row && m.returns then .returned else .threw (d.nextRetryAt i row m.polled)
    (.working row stage lost rest, t)
  | .working row .returned lost rest =>
    if lost then (.batch rest, t)
    else
      let marked := issue m.fault t (markDone row m.now id)
      -- an error of this mark lands in the `catch` of the handler
      (if marked.1.isSome then .batch rest
        else .working row (.threw (d.nextRetryAt i row m.polled)) lost rest, marked.2)
  | .working row (.threw nextRetryAt) lost rest =>
    if lost then (.batch rest, t)
    else
      let marked := issue m.fault t (markFailed row (row.attempts + 1) nextRetryAt m.now id)
      (if marked.1.isSome then .batch rest else .idle, marked.2)

end Delivery

/-! ### Instances at work -/

/-- The event table, the place of each instance in its poll, and the ghost column. -/
structure DeliveryState (ι : Type) where
  events : Table EventRow
  phases : ι → Phase
  claimedBy : String → Option ι

/-- A step of the system. -/
inductive DeliveryEvent (ι : Type)
  /-- An instance takes its next step. -/
  | advance (i : ι) (m : Moment)
  | heartbeat (i : ι) (m : Moment)
  /-- An instance dies wherever it is; it starts again with its next poll. -/
  | crash (i : ι)
  /-- A new event is written. -/
  | enqueue (id kind payload : String) (extra : EventColumns) (now : ℤ)

namespace DeliveryState

variable {ι : Type} [DecidableEq ι] (d : Delivery ι) (s : DeliveryState ι)

/-- The system after a step of an instance. -/
def settle (i : ι) (result : Phase × Table EventRow) : DeliveryState ι where
  events := result.2
  phases := Function.update s.phases i result.1
  claimedBy := stamp s.events result.2 ((s.phases i).claimant i) s.claimedBy

def next : DeliveryEvent ι → DeliveryState ι
  | .advance i m => s.settle i (d.advance i m s.events (s.phases i))
  | .heartbeat i m => s.settle i ((s.phases i).heartbeat m s.events)
  | .crash i => s.settle i (.idle, s.events)
  | .enqueue id kind payload extra now =>
    let events := (s.events.insert?
      { id, kind, payload, extra, createdAt := now, updatedAt := now }).getD s.events
    { s with events, claimedBy := stamp s.events events none s.claimedBy }

end DeliveryState

/-! ### What a step can do -/

/-- A step after which an instance works on nothing that it did not work on before. -/
structure Phase.Narrows (phase phase' : Phase) : Prop where
  toClaim : ∀ row ∈ phase'.toClaim, row ∈ phase.toClaim := by simp [Phase.toClaim]
  held : ∀ row, phase'.held = some row → phase.held = some row := by simp [Phase.held]
  handled : ∀ row, phase'.handled = some row → phase.handled = some row := by simp [Phase.handled]

section Took

variable {ι : Type} {d : Delivery ι} {i : ι} {t : Table EventRow} {phase : Phase}

/-- Everything one step of an instance can do to the table, and what the instance works on next. -/
inductive Took (d : Delivery ι) (i : ι) (t : Table EventRow) (phase : Phase) :
    Table EventRow → Phase → Prop
  | quiet {phase'} (h : phase.Narrows phase') : Took d i t phase t phase'
  | selects {phase'} (hread : ∀ row ∈ phase'.toClaim, row ∈ phase.toClaim ∨
      row ∈ t.rows ∧ row.attempts < (d.options i).maxAttempts)
      (hheld : phase'.held = none) (hhandled : phase'.handled = none) : Took d i t phase t phase'
  | recovers {threshold now phase'} (hphase : phase = .idle) (h : phase.Narrows phase') :
      Took d i t phase (recoverStale threshold now t).2 phase'
  | claims {row rest now phase'} (hphase : phase = .batch (row :: rest))
      (hrest : ∀ r ∈ phase'.toClaim, r ∈ rest)
      (hheld : ∀ r, phase'.held = some r → r = row ∧ (claimRow row now t).1 ≠ 0)
      (hhandled : ∀ r, phase'.handled = some r → r.kind ∈ d.knownTypes) :
      Took d i t phase (claimRow row now t).2 phase'
  | givesBack {row nextRetryAt now phase'} (hheld : phase.held = some row)
      (h : phase.Narrows phase') : Took d i t phase (giveBack row nextRetryAt now t).2 phase'
  | renews {row now phase'} (hheld : phase.held = some row) (h : phase.Narrows phase') :
      Took d i t phase (renewClaim row now t).2 phase'
  | delivers {row now phase'} (hmarks : phase.marks = some row) (h : phase.Narrows phase') :
      Took d i t phase (markDone row now id t).2 phase'
  | fails {row nextRetryAt now phase'} (hmarks : phase.marks = some row)
      (h : phase.Narrows phase') :
      Took d i t phase (markFailed row (row.attempts + 1) nextRetryAt now id t).2 phase'

/-- A row that was selected as due has attempts left. -/
theorem attempts_of_due {p : EventRow → Bool} {maxAttempts limit : ℕ} {row : EventRow} (now : ℤ)
    (hp : ∀ r, p r = true → r.isDue maxAttempts now = true) (h : row ∈ selectDue t p limit) :
    row ∈ t.rows ∧ row.attempts < maxAttempts := by
  obtain ⟨hrow, hmatch⟩ := mem_selectDue h
  have hdue := hp row hmatch
  rw [QueueRow.isDue, Bool.and_eq_true, Bool.and_eq_true, decide_eq_true_eq] at hdue
  exact ⟨hrow, hdue.1.2⟩

/-- A statement that may be refused, or not. -/
theorem took_issue {fault : Option Fault} {phase' : Phase}
    {statement : Table EventRow → ℕ × Table EventRow} (h : phase.Narrows phase')
    (htook : Took d i t phase (statement t).2 phase') :
    Took d i t phase (issue fault t statement).2 phase' := by
  rcases issue_cases fault t statement with ⟨htable, -⟩ | ⟨htable, -⟩
  · rw [htable]
    exact .quiet h
  · rw [htable]
    exact htook

/-- **What one step of an instance can do.** -/
theorem took_advance (m : Moment) :
    Took d i t phase (d.advance i m t phase).2 (d.advance i m t phase).1 := by
  cases phase with
  | idle =>
    have hnarrows : ∀ b : Bool, Phase.Narrows .idle (if b then .recovered else .idle) := by
      intro b
      cases b <;> exact {}
    exact took_issue (hnarrows _) (.recovers rfl (hnarrows _))
  | recovered =>
    have hdue : ∀ {p : EventRow → Bool} {limit : ℕ}, (∀ r, p r = true →
        r.isDue (d.options i).maxAttempts m.now = true) → ∀ row ∈ selectDue t p limit,
          row ∈ Phase.recovered.toClaim ∨ row ∈ t.rows ∧ row.attempts < (d.options i).maxAttempts :=
      fun hp row hrow => Or.inr (attempts_of_due m.now hp hrow)
    rw [Delivery.advance]
    split
    · exact .quiet {}
    · split
      · exact .selects (hdue fun _ hp => hp) rfl rfl
      · refine .selects (hdue fun r hp => ?_) rfl rfl
        exact (Bool.and_eq_true _ _ ▸ hp).1
  | selected known now =>
    rw [Delivery.advance]
    split
    · exact .quiet {}
    · split
      · exact .quiet {}
      · refine .selects (fun row hrow => ?_) rfl rfl
        rcases List.mem_append.mp hrow with hknown | hunknown
        · exact Or.inl hknown
        · refine Or.inr (attempts_of_due now (fun r hp => ?_) hunknown)
          exact (Bool.and_eq_true _ _ ▸ hp).1
  | batch rows =>
    cases rows with
    | nil =>
      have hidle : Phase.Narrows (.batch []) .idle := {}
      exact .quiet hidle
    | cons row rest =>
      rw [Delivery.advance]
      rcases issue_cases m.fault t (claimRow row m.now) with ⟨htable, hnone⟩ | ⟨htable, hcount⟩
      · simp only [hnone, htable]
        exact .quiet {}
      · rcases hanswer : (issue m.fault t (claimRow row m.now)).1 with _ | _ | n
        · simp only [htable]
          exact .claims rfl (by simp [Phase.toClaim]) (by simp [Phase.held])
            (by simp [Phase.handled])
        · simp only [htable]
          exact .claims rfl (by simp [Phase.toClaim]) (by simp [Phase.held])
            (by simp [Phase.handled])
        · -- the claim matched its row
          have hmatched : (claimRow row m.now t).1 ≠ 0 := by
            have hn := hcount _ hanswer
            omega
          simp only [htable]
          by_cases hknown : row.kind ∈ d.knownTypes
          · rw [if_pos hknown]
            refine .claims rfl (by simp [Phase.toClaim]) (fun r hr => ?_) fun r hr => ?_
            · exact ⟨(Option.some.inj hr).symm, hmatched⟩
            · rw [← Option.some.inj hr]
              exact hknown
          · rw [if_neg hknown]
            refine .claims rfl (by simp [Phase.toClaim]) (fun r hr => ?_) (by simp [Phase.handled])
            exact ⟨(Option.some.inj hr).symm, hmatched⟩
  | unhandled row rest =>
    have hnarrows : ∀ b : Bool,
        Phase.Narrows (.unhandled row rest) (if b then .batch rest else .idle) := by
      intro b
      cases b <;> exact {}
    exact took_issue (hnarrows _) (.givesBack rfl (hnarrows _))
  | working row stage lost rest =>
    cases stage with
    | handling =>
      have hnarrows : ∀ stage : Stage, Phase.Narrows (.working row .handling lost rest)
          (.working row stage lost rest) := fun stage => {}
      exact .quiet (hnarrows _)
    | returned =>
      rw [Delivery.advance]
      split
      · exact .quiet {}
      · have hnarrows : ∀ (b : Bool) (retryAt : ℤ),
            Phase.Narrows (.working row .returned lost rest)
              (if b then .batch rest else .working row (.threw retryAt) lost rest) := by
          intro b retryAt
          cases b <;> exact {}
        exact took_issue (hnarrows _ _) (.delivers rfl (hnarrows _ _))
    | threw retryAt =>
      rw [Delivery.advance]
      split
      · exact .quiet {}
      · have hnarrows : ∀ b : Bool, Phase.Narrows (.working row (.threw retryAt) lost rest)
            (if b then .batch rest else .idle) := by
          intro b
          cases b <;> exact {}
        exact took_issue (hnarrows _) (.fails rfl (hnarrows _))

theorem took_heartbeat (m : Moment) :
    Took d i t phase (phase.heartbeat m t).2 (phase.heartbeat m t).1 := by
  cases phase with
  | working row stage lost rest =>
    cases lost with
    | true => exact .quiet ⟨fun _ h => h, fun _ h => h, fun _ h => h⟩
    | false =>
      have hnarrows : ∀ lost : Bool,
          Phase.Narrows (.working row stage false rest) (.working row stage lost rest) :=
        fun lost => {}
      exact took_issue (hnarrows _) (.renews rfl (hnarrows _))
  | _ => exact .quiet ⟨fun _ h => h, fun _ h => h, fun _ h => h⟩

theorem Phase.held_of_marks {row : EventRow} (h : phase.marks = some row) :
    phase.held = some row ∧ phase.handled = some row := by
  cases phase with
  | working row' stage lost rest =>
    cases stage with
    | handling => cases h
    | _ => exact ⟨h, h⟩
  | _ => cases h

/-- What a step of an instance can do to one row. -/
inductive Wrote (phase : Phase) (r : EventRow) : EventRow → Prop
  | kept : Wrote phase r r
  | recovered {now} (h : r.status = .processing) : Wrote phase r (r.recovered now)
  | claimed {now} (h : r.isOpen = true) : Wrote phase r (r.claimed now)
  | guarded {row r'} (hheld : phase.held = some row)
      (hguard : guarded row.id (row.version + 1) r = true) (hlater : Later QueueRow.core r r')
      (hkind : r'.kind = r.kind) (hattempts : r'.attempts = r.attempts) : Wrote phase r r'
  | failed {row nextRetryAt now} (hmarks : phase.marks = some row)
      (hguard : Storage.guarded row.id (row.version + 1) r = true) :
      Wrote phase r (r.retried (row.attempts + 1) nextRetryAt now id)

theorem Wrote.later {r r' : EventRow} (h : Wrote phase r r') : Later QueueRow.core r r' := by
  cases h with
  | kept => exact Later.refl r
  | recovered => exact later_recovered
  | claimed => exact later_claimed
  | guarded _ _ hlater => exact hlater
  | failed => exact later_retried

theorem Wrote.kind {r r' : EventRow} (h : Wrote phase r r') : r'.kind = r.kind := by
  cases h with
  | guarded _ _ _ hkind => exact hkind
  | _ => rfl

variable {t' : Table EventRow} {phase' : Phase}

namespace Took

/-- Every row is rewritten as the statement of the step says. -/
theorem rewritten (h : Took d i t phase t' phase') : t.Rewritten (Wrote phase) t' := by
  cases h with
  | quiet => exact Table.Rewritten.refl fun _ _ => .kept
  | selects => exact Table.Rewritten.refl fun _ _ => .kept
  | recovers =>
    refine (rewritten_executeAffected _ _ _ t).imp fun r r' hr => ?_
    rcases hr with ⟨hstale, rfl⟩ | rfl
    · rw [Bool.and_eq_true, beq_iff_eq] at hstale
      exact .recovered hstale.1
    · exact .kept
  | claims =>
    refine (rewritten_executeAffected _ _ _ t).imp fun r r' hr => ?_
    rcases hr with ⟨hopen, rfl⟩ | rfl
    · rw [Bool.and_eq_true] at hopen
      exact .claimed hopen.2
    · exact .kept
  | givesBack hheld =>
    refine (rewritten_executeAffected _ _ _ t).imp fun r r' hr => ?_
    rcases hr with ⟨hguard, rfl⟩ | rfl
    · exact .guarded hheld hguard later_givenBack rfl rfl
    · exact .kept
  | renews hheld =>
    refine (rewritten_executeAffected _ _ _ t).imp fun r r' hr => ?_
    rcases hr with ⟨hmatch, rfl⟩ | rfl
    · rw [Bool.and_eq_true] at hmatch
      exact .guarded hheld hmatch.1 later_renewed rfl rfl
    · exact .kept
  | delivers hmarks =>
    refine (rewritten_executeAffected _ _ _ t).imp fun r r' hr => ?_
    rcases hr with ⟨hguard, rfl⟩ | rfl
    · exact .guarded (Phase.held_of_marks hmarks).1 hguard later_finished rfl rfl
    · exact .kept
  | fails hmarks =>
    refine (rewritten_executeAffected _ _ _ t).imp fun r r' hr => ?_
    rcases hr with ⟨hguard, rfl⟩ | rfl
    · exact .failed hmarks hguard
    · exact .kept

theorem advances (h : Took d i t phase t' phase') : Advances QueueRow.core t t' := by
  intro r hr
  obtain ⟨r', hr', hwrote⟩ := h.rewritten.exists_of_mem hr
  exact ⟨r', hr', hwrote.later⟩

theorem toClaim (h : Took d i t phase t' phase') {row : EventRow} (hrow : row ∈ phase'.toClaim) :
    row ∈ phase.toClaim ∨ row ∈ t.rows ∧ row.attempts < (d.options i).maxAttempts := by
  cases h with
  | quiet h | recovers _ h | givesBack _ h | renews _ h | delivers _ h | fails _ h =>
    exact Or.inl (h.toClaim row hrow)
  | selects hread => exact hread row hrow
  | claims hphase hrest =>
    rw [hphase]
    exact Or.inl (List.mem_cons_of_mem _ (hrest row hrow))

/-- A claimed row was claimed before, or has just been claimed from the batch. -/
theorem held (h : Took d i t phase t' phase') {row : EventRow} (hrow : phase'.held = some row) :
    phase.held = some row ∨ ∃ rest now, phase = .batch (row :: rest) ∧
      (claimRow row now t).1 ≠ 0 ∧ t' = (claimRow row now t).2 := by
  cases h with
  | quiet h | recovers _ h | givesBack _ h | renews _ h | delivers _ h | fails _ h =>
    exact Or.inl (h.held row hrow)
  | selects _ hheld =>
    rw [hheld] at hrow
    cases hrow
  | claims hphase _ hheld =>
    obtain ⟨rfl, hmatched⟩ := hheld row hrow
    exact Or.inr ⟨_, _, hphase, hmatched, rfl⟩

theorem handled (h : Took d i t phase t' phase') {row : EventRow}
    (hrow : phase'.handled = some row) :
    phase.handled = some row ∨ row.kind ∈ d.knownTypes := by
  cases h with
  | quiet h | recovers _ h | givesBack _ h | renews _ h | delivers _ h | fails _ h =>
    exact Or.inl (h.handled row hrow)
  | selects _ _ hhandled =>
    rw [hhandled] at hrow
    cases hrow
  | claims _ _ _ hhandled => exact Or.inr (hhandled row hrow)

end Took

end Took

/-! ### The invariant -/

section Invariant

variable {ι : Type} [DecidableEq ι] {d : Delivery ι} {maxAttempts : ℕ} {s : DeliveryState ι}

/-- Every instance knows the rows it works on: those it will claim as it has read them, the one it
has claimed as its claim has left it. -/
structure DeliveryState.Safe (d : Delivery ι) (maxAttempts : ℕ) (s : DeliveryState ι) : Prop where
  bounded : ∀ r ∈ s.events.rows, r.attempts ≤ maxAttempts
  read : ∀ i, ∀ row ∈ (s.phases i).toClaim,
    Snapshot QueueRow.core s.events row ∧ row.attempts < (d.options i).maxAttempts
  held : ∀ i row, (s.phases i).held = some row →
    Held QueueRow.core s.events s.claimedBy row.claim (some i) ∧
      row.attempts < (d.options i).maxAttempts
  handled : ∀ i row, (s.phases i).handled = some row → row.kind ∈ d.knownTypes

namespace DeliveryState

@[simp] theorem phases_settle_self (i : ι) (result : Phase × Table EventRow) :
    (s.settle i result).phases i = result.1 := by
  show Function.update s.phases i result.1 i = result.1
  rw [Function.update_self]

theorem phases_settle_of_ne {i j : ι} {result : Phase × Table EventRow} (h : j ≠ i) :
    (s.settle i result).phases j = s.phases j := by
  show Function.update s.phases i result.1 j = s.phases j
  rw [Function.update_of_ne h]

/-- **One step of an instance keeps the invariant.** -/
theorem safe_settle (h : s.Safe d maxAttempts)
    (hmax : ∀ i, (d.options i).maxAttempts ≤ maxAttempts) {i : ι}
    {result : Phase × Table EventRow}
    (htook : Took d i s.events (s.phases i) result.2 result.1) :
    (s.settle i result).Safe d maxAttempts := by
  have hadvances := htook.advances
  constructor
  · -- the attempts are those of the row that was marked, and one more
    intro r' hr'
    obtain ⟨r, hr, hwrote⟩ := htook.rewritten.exists_mem_of hr'
    cases hwrote with
    | failed hmarks =>
      obtain ⟨-, hattempts⟩ := h.held i _ (Phase.held_of_marks hmarks).1
      have hbound := hmax i
      show _ + 1 ≤ maxAttempts
      omega
    | guarded _ _ _ _ hattempts =>
      rw [hattempts]
      exact h.bounded r hr
    | kept => exact h.bounded _ hr
    | recovered => exact h.bounded r hr
    | claimed => exact h.bounded r hr
  · intro j row hrow
    by_cases hj : j = i
    · subst hj
      rw [phases_settle_self] at hrow
      rcases htook.toClaim hrow with hread | ⟨hmem, hattempts⟩
      · obtain ⟨hseen, hattempts⟩ := h.read j row hread
        exact ⟨hseen.advance hadvances, hattempts⟩
      · exact ⟨(Snapshot.of_mem hmem).advance hadvances, hattempts⟩
    · rw [phases_settle_of_ne hj] at hrow
      obtain ⟨hseen, hattempts⟩ := h.read j row hrow
      exact ⟨hseen.advance hadvances, hattempts⟩
  · intro j row hrow
    by_cases hj : j = i
    · subst hj
      rw [phases_settle_self] at hrow
      rcases htook.held hrow with hold | ⟨rest, now, hphase, hmatched, htable⟩
      · obtain ⟨hheld, hattempts⟩ := h.held j row hold
        exact ⟨hheld.advance hadvances, hattempts⟩
      · have hin : row ∈ (s.phases j).toClaim := by
          rw [hphase]
          exact List.mem_cons_self
        obtain ⟨hseen, hattempts⟩ := h.read j row hin
        rw [settle, hphase, htable]
        exact ⟨held_claimRow hseen hmatched, hattempts⟩
    · rw [phases_settle_of_ne hj] at hrow
      obtain ⟨hheld, hattempts⟩ := h.held j row hrow
      exact ⟨hheld.advance hadvances, hattempts⟩
  · intro j row hrow
    by_cases hj : j = i
    · subst hj
      rw [phases_settle_self] at hrow
      rcases htook.handled hrow with hold | hknown
      · exact h.handled j row hold
      · exact hknown
    · rw [phases_settle_of_ne hj] at hrow
      exact h.handled j row hrow

section Enqueue

variable {id kind payload : String} {extra : EventColumns} {now : ℤ}

/-- A new event, as it is inserted. -/
theorem mem_enqueue {r : EventRow}
    (h : r ∈ (s.next d (.enqueue id kind payload extra now)).events.rows) :
    r ∈ s.events.rows ∨ r.attempts = 0 := by
  change r ∈ ((s.events.insert? _).getD s.events).rows at h
  rcases hinsert : s.events.insert?
      { id, kind, payload, extra, createdAt := now, updatedAt := now } with _ | t
  · rw [hinsert] at h
    exact Or.inl h
  · rw [hinsert] at h
    rcases (Table.mem_insert? hinsert).mp h with hold | rfl
    · exact Or.inl hold
    · exact Or.inr rfl

theorem mem_of_enqueue {r : EventRow} (h : r ∈ s.events.rows) :
    r ∈ (s.next d (.enqueue id kind payload extra now)).events.rows := by
  show r ∈ ((s.events.insert? _).getD s.events).rows
  rcases hinsert : s.events.insert?
      { id, kind, payload, extra, createdAt := now, updatedAt := now } with _ | t
  · exact h
  · exact (Table.mem_insert? hinsert).mpr (Or.inl h)

end Enqueue

/-- **Every step keeps the invariant.** -/
theorem safe_next (h : s.Safe d maxAttempts)
    (hmax : ∀ i, (d.options i).maxAttempts ≤ maxAttempts) (e : DeliveryEvent ι) :
    (s.next d e).Safe d maxAttempts := by
  cases e with
  | advance i m => exact safe_settle h hmax (took_advance m)
  | heartbeat i m => exact safe_settle h hmax (took_heartbeat m)
  | crash i =>
    have hidle : Took d i s.events (s.phases i) s.events .idle := .quiet {}
    exact safe_settle h hmax hidle
  | enqueue id kind payload extra now =>
    have hadvances : Advances QueueRow.core s.events
        (s.next d (.enqueue id kind payload extra now)).events :=
      fun r hr => Snapshot.of_mem (mem_of_enqueue hr)
    refine ⟨fun r hr => ?_, fun j row hrow => ?_, fun j row hrow => ?_, h.handled⟩
    · rcases mem_enqueue hr with hold | hnew
      · exact h.bounded r hold
      · rw [hnew]
        exact Nat.zero_le _
    · obtain ⟨hseen, hattempts⟩ := h.read j row hrow
      exact ⟨hseen.advance hadvances, hattempts⟩
    · obtain ⟨hheld, hattempts⟩ := h.held j row hrow
      exact ⟨hheld.advance hadvances, hattempts⟩

/-! ### What a run keeps -/

omit [DecidableEq ι] in
/-- A row that is still at the version of a claim is as the claim has left it, and its holder's. -/
theorem Safe.of_guarded (h : s.Safe d maxAttempts) {i : ι} {row r : EventRow}
    (hheld : (s.phases i).held = some row) (hr : r ∈ s.events.rows)
    (hguard : guarded row.id (row.version + 1) r = true) :
    r.core = row.claim.core ∧ s.claimedBy row.id = some i := by
  obtain ⟨hclaim, -⟩ := h.held i row hheld
  obtain ⟨hid, hversion⟩ := guarded_iff.mp hguard
  exact ⟨hclaim.seen.core_eq hr hid hversion, hclaim.stamped r hr hguard⟩

/-- What a step leaves of a row: a delivered row stays as it is, and an event that nobody handles
keeps its attempts. -/
theorem Safe.next_row (h : s.Safe d maxAttempts) (e : DeliveryEvent ι) {r : EventRow}
    (hr : r ∈ s.events.rows) :
    ∃ r' ∈ (s.next d e).events.rows, r'.id = r.id ∧ (r.status = .done → r' = r) ∧
      (r.kind ∉ d.knownTypes → r'.attempts = r.attempts) := by
  have hsettle : ∀ {i : ι} {result : Phase × Table EventRow},
      Took d i s.events (s.phases i) result.2 result.1 →
      ∃ r' ∈ (s.settle i result).events.rows, r'.id = r.id ∧ (r.status = .done → r' = r) ∧
        (r.kind ∉ d.knownTypes → r'.attempts = r.attempts) := by
    intro i result htook
    obtain ⟨r', hr', hwrote⟩ := htook.rewritten.exists_of_mem hr
    refine ⟨r', hr', hwrote.later.1, fun hdone => ?_, fun hunknown => ?_⟩
    · -- a delivered row is neither stale nor open, and no claim has left it so
      cases hwrote with
      | kept => rfl
      | recovered hstale =>
        rw [hdone] at hstale
        cases hstale
      | claimed hopen =>
        rw [QueueRow.isOpen, hdone] at hopen
        cases hopen
      | guarded hheld hguard =>
        have hstatus := congrArg QueueRow.status (h.of_guarded hheld hr hguard).1
        have hprocessing : r.status = .processing := hstatus
        rw [hdone] at hprocessing
        cases hprocessing
      | failed hmarks hguard =>
        have hheld := (Phase.held_of_marks hmarks).1
        have hstatus := congrArg QueueRow.status (h.of_guarded hheld hr hguard).1
        have hprocessing : r.status = .processing := hstatus
        rw [hdone] at hprocessing
        cases hprocessing
    · cases hwrote with
      | kept => rfl
      | recovered => rfl
      | claimed => rfl
      | guarded _ _ _ _ hattempts => exact hattempts
      | @failed row _ _ hmarks hguard =>
        -- only a row with a handler is marked as failed
        obtain ⟨hheld, hhandled⟩ := Phase.held_of_marks hmarks
        have hkind := congrArg QueueRow.kind (h.of_guarded hheld hr hguard).1
        have hsame : r.kind = row.kind := hkind
        exact absurd (hsame ▸ h.handled i _ hhandled) hunknown
  cases e with
  | advance i m => exact hsettle (took_advance m)
  | heartbeat i m => exact hsettle (took_heartbeat m)
  | crash i =>
    have hidle : Took d i s.events (s.phases i) s.events .idle := .quiet {}
    exact hsettle hidle
  | enqueue => exact ⟨r, mem_of_enqueue hr, rfl, fun _ => rfl, fun _ => rfl⟩

/-- **A mark is fenced**: it changes nothing when its claim is no longer the last to have set the
version of its row. -/
theorem Safe.mark_fenced (h : s.Safe d maxAttempts) {i : ι} {m : Moment} {row : EventRow}
    (hmarks : (s.phases i).marks = some row) (hlost : s.claimedBy row.id ≠ some i) :
    (s.next d (.advance i m)).events = s.events := by
  have hheld := (Phase.held_of_marks hmarks).1
  have hmiss : ∀ r ∈ s.events.rows, guarded row.id (row.version + 1) r = false := by
    intro r hr
    by_contra hmatch
    exact hlost (h.of_guarded hheld hr (by simpa using hmatch)).2
  have hsame : ∀ {row' : EventRow}, (s.phases i).held = some row' → row' = row :=
    fun hrow => Option.some.inj (hrow.symm.trans hheld)
  have htook : Took d i s.events (s.phases i) (s.next d (.advance i m)).events _ := took_advance m
  generalize (s.next d (.advance i m)).events = t' at htook ⊢
  cases htook with
  | quiet => rfl
  | selects => rfl
  | recovers hphase =>
    rw [hphase] at hmarks
    cases hmarks
  | claims hphase =>
    rw [hphase] at hmarks
    cases hmarks
  | givesBack hrow =>
    obtain rfl := hsame hrow
    exact executeAffected_eq_self hmiss
  | renews hrow =>
    obtain rfl := hsame hrow
    refine executeAffected_eq_self fun r hr => ?_
    rw [hmiss r hr, Bool.false_and]
  | delivers hrow =>
    obtain rfl := hsame (Phase.held_of_marks hrow).1
    exact executeAffected_eq_self hmiss
  | fails hrow =>
    obtain rfl := hsame (Phase.held_of_marks hrow).1
    exact executeAffected_eq_self hmiss

end DeliveryState

end Invariant

/-- **No event is lost**: from some time on, a poll recovers the row, if it has to, and finds it due;
and the claim that follows matches it. -/
theorem claimable {t : Table EventRow} {r : EventRow} (hr : r ∈ t.rows) (hopen : r.status ≠ .done)
    {maxAttempts : ℕ} (hattempts : r.attempts < maxAttempts) (staleClaimMs : ℕ) :
    ∃ T, ∀ now, T ≤ now → ∃ r' ∈ (recoverStale (now - staleClaimMs) now t).2.rows, r'.id = r.id ∧
      r'.isDue maxAttempts now = true ∧
        (claimRow r' now (recoverStale (now - staleClaimMs) now t).2).1 ≠ 0 := by
  refine ⟨max (r.updatedAt + staleClaimMs) (r.nextRetryAt.getD 0), fun now hnow => ?_⟩
  have hstale : r.updatedAt ≤ now - staleClaimMs := by omega
  have hretry : (r.nextRetryAt.all fun retryAt => decide (retryAt ≤ now)) = true := by
    rcases hnext : r.nextRetryAt with _ | retryAt
    · rfl
    · rw [hnext, Option.getD_some] at hnow
      have hdue : retryAt ≤ now := by omega
      exact decide_eq_true hdue
  -- the row after the recovery: open, and otherwise as it was
  have hafter : ∃ r' ∈ (recoverStale (now - staleClaimMs) now t).2.rows, r'.id = r.id ∧
      r'.isOpen = true ∧ r'.attempts = r.attempts ∧ r'.nextRetryAt = r.nextRetryAt := by
    cases hstatus : r.status with
    | done => exact absurd hstatus hopen
    | processing =>
      refine ⟨r.recovered now, mem_executeAffected_of_pos hr ?_, rfl, rfl, rfl, rfl⟩
      rw [hstatus, decide_eq_true hstale]
      rfl
    | pending =>
      refine ⟨r, mem_executeAffected_of_neg hr ?_, rfl, ?_, rfl, rfl⟩
      · rw [hstatus]
        rfl
      · rw [QueueRow.isOpen, hstatus]
        rfl
    | failed =>
      refine ⟨r, mem_executeAffected_of_neg hr ?_, rfl, ?_, rfl, rfl⟩
      · rw [hstatus]
        rfl
      · rw [QueueRow.isOpen, hstatus]
        rfl
  obtain ⟨r', hr', hid, hopen', hattempts', hnext⟩ := hafter
  refine ⟨r', hr', hid, ?_, fun hzero => ?_⟩
  · rw [QueueRow.isDue, hopen', hattempts', hnext, decide_eq_true hattempts, hretry]
    rfl
  · have hmiss := Table.count_eq_zero.mp hzero r' hr'
    have hself : guarded r'.id r'.version r' = true := guarded_iff.mpr ⟨rfl, rfl⟩
    rw [hself, hopen'] at hmiss
    cases hmiss

/-! ### Runs -/

section Run

variable {ι : Type} [DecidableEq ι] {d : Delivery ι} {maxAttempts : ℕ} {s : DeliveryState ι}
  {es : List (DeliveryEvent ι)}

namespace DeliveryState

/-- What every step of a sound run does. -/
structure StepSound (d : Delivery ι) (s : DeliveryState ι) (e : DeliveryEvent ι) : Prop where
  /-- A delivered row stays as it is. -/
  terminal : ∀ r ∈ s.events.rows, r.status = .done → r ∈ (s.next d e).events.rows
  /-- A mark takes effect only when its instance's claim set the version of the row. -/
  fenced : ∀ i m row, e = .advance i m → (s.phases i).marks = some row →
    (s.next d e).events ≠ s.events → s.claimedBy row.id = some i
  /-- An event of a type without a handler keeps its attempts. -/
  unconsumed : ∀ r ∈ s.events.rows, r.kind ∉ d.knownTypes →
    ∃ r' ∈ (s.next d e).events.rows, r'.id = r.id ∧ r'.attempts = r.attempts

/-- What holds in every state of a sound run. -/
structure StateSound (d : Delivery ι) (maxAttempts : ℕ) (s : DeliveryState ι) : Prop where
  bounded : ∀ r ∈ s.events.rows, r.attempts ≤ maxAttempts
  /-- An event that is neither delivered nor out of attempts can be claimed from some time on, after
  the recovery of stale claims that every poll starts with. -/
  claimable : ∀ i, ∀ r ∈ s.events.rows, r.status ≠ .done →
    r.attempts < (d.options i).maxAttempts → ∃ T, ∀ now, T ≤ now →
      ∃ r' ∈ (recoverStale (now - (d.options i).staleClaimMs) now s.events).2.rows,
        r'.id = r.id ∧ r'.isDue (d.options i).maxAttempts now = true ∧
        (claimRow r' now
          (recoverStale (now - (d.options i).staleClaimMs) now s.events).2).1 ≠ 0

theorem Safe.stepSound (h : s.Safe d maxAttempts) (e : DeliveryEvent ι) : s.StepSound d e where
  terminal r hr hdone := by
    obtain ⟨r', hr', -, hkept, -⟩ := h.next_row e hr
    rw [← hkept hdone]
    exact hr'
  fenced i m row he hmarks hchanged := by
    subst he
    by_contra hlost
    exact hchanged (h.mark_fenced hmarks hlost)
  unconsumed r hr hunknown := by
    obtain ⟨r', hr', hid, -, hattempts⟩ := h.next_row e hr
    exact ⟨r', hr', hid, hattempts hunknown⟩

omit [DecidableEq ι] in
theorem Safe.stateSound (h : s.Safe d maxAttempts) : s.StateSound d maxAttempts where
  bounded := h.bounded
  claimable _ _ hr hopen hattempts := MiniCoder.claimable hr hopen hattempts _

end DeliveryState

/-- **Delivery over any number of dispatchers.**  From idle instances, over every run with every
pattern of handler failures, lost answers and crashes: delivered rows are final, marks are fenced by
their claims, attempts stay below their bound, events without a handler keep their attempts, and no
event is lost. -/
theorem delivery (hmax : ∀ i, (d.options i).maxAttempts ≤ maxAttempts)
    (hidle : ∀ i, s.phases i = .idle) (hrows : ∀ r ∈ s.events.rows, r.attempts ≤ maxAttempts) :
    Along (DeliveryState.next d) (DeliveryState.StepSound d) s es ∧
      Throughout (DeliveryState.next d) (DeliveryState.StateSound d maxAttempts) s es := by
  have hsafe : s.Safe d maxAttempts := by
    refine ⟨hrows, fun i row hrow => ?_, fun i row hrow => ?_, fun i row hrow => ?_⟩ <;>
      (rw [hidle i] at hrow; cases hrow)
  have hstep : ∀ (s : DeliveryState ι) (e : DeliveryEvent ι), s.Safe d maxAttempts → True →
      (s.next d e).Safe d maxAttempts := fun s e hs _ => DeliveryState.safe_next hs hmax e
  have hany : Along (DeliveryState.next d) (fun _ _ => True) s es :=
    along_of_forall (fun _ _ => trivial) s es
  exact ⟨(along_and_of_step hstep hsafe hany).imp fun s e hs => hs.1.stepSound e,
    (throughout_of_step hstep hsafe hany).imp fun s hs => hs.stateSound⟩

end Run

/-! ### A claim that is recovered as stale -/

/-- Two dispatchers with a handler for merges only. -/
def sampleDelivery : Delivery Bool where
  queue := .outbox
  knownTypes := ["feature.merged"]
  parses _ := true
  validates _ _ := true
  options _ := {}

def sampleDispatchers : DeliveryState Bool where
  events := .empty
  phases _ := .idle
  claimedBy _ := none

/-- A poll at one moment, up to the claim of its first row. -/
def pollAt (i : Bool) (now : ℤ) : List (DeliveryEvent Bool) :=
  List.replicate 4 (.advance i { polled := now, now })

/-- The first dispatcher claims an event and calls its handler; the claim goes stale meanwhile, and
the second dispatcher recovers it and claims the event itself. -/
def staleClaim : List (DeliveryEvent Bool) :=
  [.enqueue "o1" "feature.merged" "\x7b\x7d" { payloadSchemaVersion := schemaVersion } 0,
    .enqueue "o2" "feature.retired" "\x7b\x7d" { payloadSchemaVersion := schemaVersion } 0] ++
  pollAt false 1000 ++ pollAt true 400000 ++
  [.advance false { polled := 400001, now := 400001 }]

/-- The late mark of the first dispatcher, then the rest of the poll of the second. -/
def lateMark : List (DeliveryEvent Bool) :=
  .advance false { polled := 400002, now := 400002 } ::
    List.replicate 5 (.advance true { polled := 400003, now := 400003 })

theorem delivery_staleClaim :
    (Along (DeliveryState.next sampleDelivery) (DeliveryState.StepSound sampleDelivery)
        sampleDispatchers (staleClaim ++ lateMark) ∧
      Throughout (DeliveryState.next sampleDelivery) (DeliveryState.StateSound sampleDelivery 5)
        sampleDispatchers (staleClaim ++ lateMark)) ∧
      ((run (DeliveryState.next sampleDelivery) sampleDispatchers staleClaim).phases
        false).marks.isSome = true ∧
      (run (DeliveryState.next sampleDelivery) sampleDispatchers staleClaim).claimedBy "o1" =
        some true ∧
      (run (DeliveryState.next sampleDelivery) sampleDispatchers
        (staleClaim ++ lateMark)).events.rows.map (fun r => (r.status, r.attempts)) =
        [(.done, 0), (.pending, 0)] := by
  refine ⟨delivery (fun _ => Nat.le_refl 5) (fun _ => rfl) fun _ hr => ?_, ?_, ?_, ?_⟩
  · cases hr
  · decide +kernel
  · decide +kernel
  · decide +kernel

end MiniCoder
