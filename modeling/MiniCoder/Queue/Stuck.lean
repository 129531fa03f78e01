import MiniCoder.Project.Doctor
import MiniCoder.Queue.Delivery

/-!
# Stuck events

The acceptance of a project and the doctor count an event as stuck that is pending or processing after
five attempts.  A dispatcher marks an event whose last attempt has failed as `failed`, and claims only
events with attempts left.

* `nothingStuck_next`: **no step of a dispatcher** leaves an event pending or processing without attempts.
* `usedUp_next`: the attempts of an event are used up by the failure of the last one.
* `stuck_seen_iff`: over a run of any number of dispatchers, the checks report the events that are used
  up if and only if there are none.
-/

open Storage Runs

namespace MiniCoder

/-! ### What the queries see -/

namespace EventQueue

variable (queue : EventQueue)

/-- The literal of a status. -/
def literal : QueueStatus → String
  | .pending => "pending"
  | .processing => "processing"
  | .done => queue.doneLiteral
  | .failed => "failed"

/-- The columns of an event that the checks read: its id, its type, its status and its attempts. -/
abbrev Columns := String × String × String × ℕ

def columns (row : EventRow) : Columns := (row.id, row.kind, queue.literal row.status, row.attempts)

/-- The events of a database. -/
def eventsOf (db : Db) : List Columns :=
  match queue with
  | .outbox => db.outboxEvents.rows.map fun e => (e.id, e.eventType, e.status, e.attempts)
  | .inbox => db.inboxEvents.rows.map fun e => (e.id, e.eventType, e.status, e.attempts)

/-- The database holds the table that the dispatchers work on. -/
def HeldBy (db : Db) (t : Table EventRow) : Prop := queue.eventsOf db = t.rows.map queue.columns

/-- The check of the doctor for the table. -/
def stuckCheck (db : Db) : DoctorCheck :=
  match queue with
  | .outbox => stuckOutboxCheck db
  | .inbox => stuckInboxCheck db

end EventQueue

/-- `maxAttempts`, by default. -/
def defaultMaxAttempts : ℕ := 5

/-- An event that has used up its attempts without being delivered. -/
def QueueRow.UsedUp {α : Type} (row : QueueRow α) : Prop :=
  row.status ≠ .done ∧ defaultMaxAttempts ≤ row.attempts

/-- **The checks report the events that are used up**, and no others: no project passes while there is
one. -/
structure StuckSeen (queue : EventQueue) (t : Table EventRow) : Prop where
  seen : ∀ db, queue.HeldBy db t → ∀ row ∈ t.rows, row.UsedUp →
    (∀ projectId, (db.projectAcceptance projectId).passed = false) ∧
      row.id ∈ (queue.stuckCheck db).reported
  only : ∀ db, queue.HeldBy db t → ∀ row ∈ t.rows, ¬ row.UsedUp →
    row.id ∉ (queue.stuckCheck db).reported

/-! ### What the checks report -/

section Checks

variable {queue : EventQueue} {db : Db} {t : Table EventRow}

theorem mem_reported_stuckCheck {id : String} : id ∈ (queue.stuckCheck db).reported ↔
    ∃ c ∈ queue.eventsOf db, isStuck c.2.2.1 c.2.2.2 = true ∧ c.1 = id := by
  cases queue with
  | outbox =>
    refine mem_reported.trans ?_
    show _ ↔ ∃ c ∈ db.outboxEvents.rows.map _, _
    simp only [List.mem_map, exists_exists_and_eq_and]
  | inbox =>
    refine mem_reported.trans ?_
    show _ ↔ ∃ c ∈ db.inboxEvents.rows.map _, _
    simp only [List.mem_map, exists_exists_and_eq_and]

theorem reported_of_heldBy (h : queue.HeldBy db t) {id : String} :
    id ∈ (queue.stuckCheck db).reported ↔
      ∃ row ∈ t.rows, isStuck (queue.literal row.status) row.attempts = true ∧ row.id = id := by
  rw [mem_reported_stuckCheck, h]
  simp only [List.mem_map, exists_exists_and_eq_and]
  rfl

/-- A database that holds a table. -/
def EventQueue.store (queue : EventQueue) (t : Table EventRow) : Db :=
  match queue with
  | .outbox =>
    { outboxEvents :=
      ⟨t.rows.map fun row =>
          { id := row.id, eventType := row.kind, payload := []
            status := EventQueue.outbox.literal row.status, attempts := row.attempts },
        List.pairwise_map.mpr t.unique⟩ }
  | .inbox =>
    { inboxEvents :=
      ⟨t.rows.map fun row =>
          { id := row.id, eventType := row.kind
            status := EventQueue.inbox.literal row.status, attempts := row.attempts },
        List.pairwise_map.mpr t.unique⟩ }

theorem heldBy_store : queue.HeldBy (queue.store t) t := by
  cases queue with
  | outbox => exact List.map_map
  | inbox => exact List.map_map

end Checks

/-! ### What a dispatcher leaves -/

/-- An event that is pending or processing has attempts left. -/
def NothingStuck (t : Table EventRow) : Prop :=
  ∀ row ∈ t.rows, row.status = .pending ∨ row.status = .processing → row.attempts < defaultMaxAttempts

theorem NothingStuck.isStuck {queue : EventQueue} {t : Table EventRow} (h : NothingStuck t)
    {row : EventRow} (hrow : row ∈ t.rows) :
    isStuck (queue.literal row.status) row.attempts = false := by
  have hattempts := h row hrow
  rw [MiniCoder.isStuck, Bool.and_eq_false_iff, decide_eq_false_iff_not, decide_eq_false_iff_not]
  cases hstatus : row.status with
  | pending =>
    have hlt : row.attempts < 5 := hattempts (Or.inl hstatus)
    exact Or.inr (by omega)
  | processing =>
    have hlt : row.attempts < 5 := hattempts (Or.inr hstatus)
    exact Or.inr (by omega)
  | done => cases queue <;> exact Or.inl (by decide)
  | failed => cases queue <;> exact Or.inl (by decide)

/-- **Where no event is stuck, the checks see the events that are used up if and only if there are
none.** -/
theorem NothingStuck.seen_iff {queue : EventQueue} {t : Table EventRow} (h : NothingStuck t) :
    StuckSeen queue t ↔ ∀ row ∈ t.rows, ¬ row.UsedUp := by
  have hnone : ∀ db, queue.HeldBy db t → ∀ id, id ∉ (queue.stuckCheck db).reported := by
    intro db hheld id hid
    obtain ⟨row, hrow, hstuck, -⟩ := (reported_of_heldBy hheld).mp hid
    rw [h.isStuck hrow] at hstuck
    cases hstuck
  constructor
  · intro hseen row hrow husedUp
    exact hnone _ heldBy_store _ (hseen.seen _ heldBy_store row hrow husedUp).2
  · intro hunused
    exact ⟨fun _ _ row hrow husedUp => absurd husedUp (hunused row hrow),
      fun db hheld row _ _ => hnone db hheld row.id⟩

theorem NothingStuck.executeAffected {p : EventRow → Bool} {f : EventRow → EventRow} {hf : KeyFree f}
    {t : Table EventRow} (h : NothingStuck t)
    (hrows : ∀ r ∈ t.rows, p r = true → (f r).status = .pending ∨ (f r).status = .processing →
      (f r).attempts < defaultMaxAttempts) : NothingStuck (executeAffected p f hf t).2 := by
  intro r' hr'
  obtain ⟨r, hr, ⟨hp, rfl⟩ | rfl⟩ := (rewritten_executeAffected p f hf t).exists_mem_of hr'
  · exact hrows r hr hp
  · exact h r' hr

section Steps

variable {ι : Type} [DecidableEq ι] {d : Delivery ι} {s : DeliveryState ι}

omit [DecidableEq ι] in
/-- **One step of an instance leaves no event stuck**: it claims events with attempts left, and marks
what has failed as failed. -/
theorem nothingStuck_took (hsafe : s.Safe d defaultMaxAttempts)
    (hmax : ∀ i, (d.options i).maxAttempts = defaultMaxAttempts) (h : NothingStuck s.events) {i : ι}
    {t' : Table EventRow} {phase' : Phase} (htook : Took d i s.events (s.phases i) t' phase') :
    NothingStuck t' := by
  -- a row that an instance holds was claimed with attempts left
  have hguarded : ∀ {row : EventRow}, (s.phases i).held = some row → ∀ r ∈ s.events.rows,
      guarded row.id (row.version + 1) r = true → r.attempts < defaultMaxAttempts := by
    intro row hheld r hr hguard
    have hcore := congrArg QueueRow.attempts (hsafe.of_guarded hheld hr hguard).1
    have hattempts : r.attempts = row.attempts := hcore
    obtain ⟨-, hleft⟩ := hsafe.held i row hheld
    rw [hmax i] at hleft
    rw [hattempts]
    exact hleft
  cases htook with
  | quiet => exact h
  | selects => exact h
  | recovers =>
    refine h.executeAffected fun r hr hstale _ => ?_
    rw [Bool.and_eq_true, beq_iff_eq] at hstale
    exact h r hr (Or.inr hstale.1)
  | @claims row rest now _ hphase =>
    refine h.executeAffected fun r hr hmatch _ => ?_
    have hread : row ∈ (s.phases i).toClaim := by
      rw [hphase]
      exact List.mem_cons_self
    obtain ⟨hseen, hleft⟩ := hsafe.read i row hread
    rw [Bool.and_eq_true] at hmatch
    obtain ⟨hid, hversion⟩ := guarded_iff.mp hmatch.1
    have hcore := congrArg QueueRow.attempts (hseen.core_eq hr hid hversion)
    have hattempts : r.attempts = row.attempts := hcore
    rw [hmax i] at hleft
    show r.attempts < defaultMaxAttempts
    rw [hattempts]
    exact hleft
  | givesBack hheld => exact h.executeAffected fun r hr hguard _ => hguarded hheld r hr hguard
  | renews hheld =>
    refine h.executeAffected fun r hr hmatch _ => ?_
    rw [Bool.and_eq_true] at hmatch
    exact hguarded hheld r hr hmatch.1
  | delivers hmarks =>
    exact h.executeAffected fun r hr hguard _ =>
      hguarded (Phase.held_of_marks hmarks).1 r hr hguard
  | fails =>
    refine h.executeAffected fun r _ _ hstatus => ?_
    rcases hstatus with hpending | hprocessing
    · cases hpending
    · cases hprocessing

theorem nothingStuck_next (hsafe : s.Safe d defaultMaxAttempts)
    (hmax : ∀ i, (d.options i).maxAttempts = defaultMaxAttempts) (h : NothingStuck s.events)
    (e : DeliveryEvent ι) : NothingStuck (s.next d e).events := by
  cases e with
  | advance i m => exact nothingStuck_took hsafe hmax h (took_advance m)
  | heartbeat i m => exact nothingStuck_took hsafe hmax h (took_heartbeat m)
  | crash => exact h
  | enqueue id kind payload extra now =>
    intro r hr hstatus
    rcases DeliveryState.mem_enqueue hr with hold | hnew
    · exact h r hold hstatus
    · rw [hnew]
      exact Nat.zero_lt_succ 4

/-! ### The last failure -/

/-- The step is about to record the failure of an event's last attempt. -/
def DeliveryEvent.LastFailure (s : DeliveryState ι) : DeliveryEvent ι → Prop
  | .advance i _ => ∃ row retryAt rest, s.phases i = .working row (.threw retryAt) false rest ∧
      defaultMaxAttempts ≤ row.attempts + 1
  | _ => False

/-- A statement that keeps the attempts of every row. -/
theorem attempts_issue {fault : Option Fault} {p : EventRow → Bool} {f : EventRow → EventRow}
    {hf : KeyFree f} (hattempts : ∀ r, (f r).attempts = r.attempts) {t : Table EventRow}
    {r' : EventRow} (hr' : r' ∈ (issue fault t (executeAffected p f hf)).2.rows) :
    ∃ r ∈ t.rows, r'.attempts = r.attempts := by
  rcases issue_cases fault t (executeAffected p f hf) with ⟨htable, -⟩ | ⟨htable, -⟩
  · rw [htable] at hr'
    exact ⟨r', hr', rfl⟩
  · rw [htable] at hr'
    obtain ⟨r, hr, ⟨-, rfl⟩ | rfl⟩ := (rewritten_executeAffected p f hf t).exists_mem_of hr'
    · exact ⟨r, hr, hattempts r⟩
    · exact ⟨r', hr, rfl⟩

omit [DecidableEq ι] in
/-- **The attempts of an event grow with a recorded failure only.** -/
theorem attempts_advance {i : ι} {m : Moment} {t : Table EventRow} {phase : Phase}
    {r' : EventRow} (hr' : r' ∈ (d.advance i m t phase).2.rows) :
    (∃ r ∈ t.rows, r'.attempts = r.attempts) ∨
      ∃ row retryAt rest, phase = .working row (.threw retryAt) false rest ∧
        r'.attempts = row.attempts + 1 := by
  have hkept : ∀ t' : Table EventRow, t' = t → r' ∈ t'.rows → ∃ r ∈ t.rows,
      r'.attempts = r.attempts := by
    rintro t' rfl hmem
    exact ⟨r', hmem, rfl⟩
  cases phase with
  | idle => exact Or.inl (attempts_issue (f := QueueRow.recovered m.now) (fun _ => rfl) hr')
  | recovered =>
    rw [Delivery.advance] at hr'
    split at hr'
    · exact Or.inl (hkept _ rfl hr')
    · split at hr'
      · exact Or.inl (hkept _ rfl hr')
      · exact Or.inl (hkept _ rfl hr')
  | selected known now =>
    rw [Delivery.advance] at hr'
    split at hr'
    · exact Or.inl (hkept _ rfl hr')
    · split at hr'
      · exact Or.inl (hkept _ rfl hr')
      · exact Or.inl (hkept _ rfl hr')
  | batch rows =>
    cases rows with
    | nil => exact Or.inl (hkept _ rfl hr')
    | cons row rest =>
      have htable : (d.advance i m t (.batch (row :: rest))).2 =
          (issue m.fault t (claimRow row m.now)).2 := by
        rw [Delivery.advance]
        split
        · rfl
        · rfl
        · rfl
      rw [htable] at hr'
      exact Or.inl (attempts_issue (f := QueueRow.claimed m.now) (fun _ => rfl) hr')
  | unhandled row rest =>
    exact Or.inl (attempts_issue
      (f := QueueRow.givenBack (m.polled + (d.options i).maxBackoffMs) m.now) (fun _ => rfl) hr')
  | working row stage lost rest =>
    cases stage with
    | handling => exact Or.inl (hkept _ rfl hr')
    | returned =>
      rw [Delivery.advance] at hr'
      split at hr'
      · exact Or.inl (hkept _ rfl hr')
      · exact Or.inl (attempts_issue (f := QueueRow.finished m.now id) (fun _ => rfl) hr')
    | threw retryAt =>
      rw [Delivery.advance] at hr'
      cases lost with
      | true => exact Or.inl (hkept _ rfl hr')
      | false =>
        -- the one statement that raises the attempts
        rcases issue_cases m.fault t (markFailed row (row.attempts + 1) retryAt m.now id) with
          ⟨htable, -⟩ | ⟨htable, -⟩
        · exact Or.inl (hkept _ htable hr')
        · have hmem : r' ∈ (markFailed row (row.attempts + 1) retryAt m.now id t).2.rows := by
            rw [← htable]
            exact hr'
          obtain ⟨r, hr, ⟨-, rfl⟩ | rfl⟩ := (rewritten_executeAffected _ _ _ t).exists_mem_of hmem
          · exact Or.inr ⟨row, retryAt, rest, rfl, rfl⟩
          · exact Or.inl ⟨r', hr, rfl⟩

theorem attempts_heartbeat {m : Moment} {t : Table EventRow} {phase : Phase} {r' : EventRow}
    (hr' : r' ∈ (phase.heartbeat m t).2.rows) : ∃ r ∈ t.rows, r'.attempts = r.attempts := by
  cases phase with
  | working row stage lost rest =>
    cases lost with
    | true => exact ⟨r', hr', rfl⟩
    | false => exact attempts_issue (f := QueueRow.renewed m.now) (fun _ => rfl) hr'
  | _ => exact ⟨r', hr', rfl⟩

/-- Every event has attempts left. -/
def NoneUsedUp (t : Table EventRow) : Prop := ∀ row ∈ t.rows, row.attempts < defaultMaxAttempts

theorem noneUsedUp_next {e : DeliveryEvent ι} (h : NoneUsedUp s.events) (hlast : ¬ e.LastFailure s) :
    NoneUsedUp (s.next d e).events := by
  intro r' hr'
  cases e with
  | advance i m =>
    rcases attempts_advance hr' with ⟨r, hr, hattempts⟩ | ⟨row, retryAt, rest, hphase, hattempts⟩
    · rw [hattempts]
      exact h r hr
    · rw [hattempts]
      by_contra hfull
      exact hlast ⟨row, retryAt, rest, hphase, Nat.le_of_not_lt hfull⟩
  | heartbeat i m =>
    obtain ⟨r, hr, hattempts⟩ := attempts_heartbeat hr'
    rw [hattempts]
    exact h r hr
  | crash => exact h r' hr'
  | enqueue id kind payload extra now =>
    rcases DeliveryState.mem_enqueue hr' with hold | hnew
    · exact h r' hold
    · rw [hnew]
      exact Nat.zero_lt_succ 4

end Steps

/-! ### Runs -/

section Run

variable {ι : Type} [DecidableEq ι] {d : Delivery ι} {s : DeliveryState ι}
  {es : List (DeliveryEvent ι)}

/-- **Stuck events are seen if and only if there are none.**  From idle dispatchers with the default
options and a table of events none of which is stuck, over every run, with every pattern of handler
failures, lost answers and crashes: in every state reached, the checks report the events that are used
up if and only if there are none; and there are none as long as no last attempt of an event fails. -/
theorem stuck_seen_iff (hmax : ∀ i, (d.options i).maxAttempts = defaultMaxAttempts)
    (hidle : ∀ i, s.phases i = .idle) (hrows : NoneUsedUp s.events) :
    Throughout (DeliveryState.next d)
        (fun s => StuckSeen d.queue s.events ↔ ∀ row ∈ s.events.rows, ¬ row.UsedUp) s es ∧
      (Along (DeliveryState.next d) (fun s e => ¬ e.LastFailure s) s es →
        Throughout (DeliveryState.next d) (fun s => StuckSeen d.queue s.events) s es) := by
  have hsafe : s.Safe d defaultMaxAttempts := by
    refine ⟨fun r hr => (hrows r hr).le, fun i row hrow => ?_, fun i row hrow => ?_,
      fun i row hrow => ?_⟩
    · rw [hidle i] at hrow
      cases hrow
    · rw [hidle i] at hrow
      cases hrow
    · rw [hidle i] at hrow
      cases hrow
  have hstart : s.Safe d defaultMaxAttempts ∧ NothingStuck s.events :=
    ⟨hsafe, fun r hr _ => hrows r hr⟩
  have hmax' : ∀ i, (d.options i).maxAttempts ≤ defaultMaxAttempts := fun i => (hmax i).le
  have hstep : ∀ (s : DeliveryState ι) (e : DeliveryEvent ι),
      s.Safe d defaultMaxAttempts ∧ NothingStuck s.events → True →
        (s.next d e).Safe d defaultMaxAttempts ∧ NothingStuck (s.next d e).events :=
    fun s e h _ => ⟨DeliveryState.safe_next h.1 hmax' e, nothingStuck_next h.1 hmax h.2 e⟩
  have hany : Along (DeliveryState.next d) (fun _ _ => True) s es :=
    along_of_forall (fun _ _ => trivial) s es
  have hthroughout := throughout_of_step hstep hstart hany
  refine ⟨hthroughout.imp fun s h => h.2.seen_iff, fun hlast => ?_⟩
  have hunused : ∀ (s : DeliveryState ι) (e : DeliveryEvent ι),
      (s.Safe d defaultMaxAttempts ∧ NothingStuck s.events) ∧ NoneUsedUp s.events →
        ¬ e.LastFailure s →
          ((s.next d e).Safe d defaultMaxAttempts ∧ NothingStuck (s.next d e).events) ∧
            NoneUsedUp (s.next d e).events :=
    fun s e h hlast => ⟨hstep s e h.1 trivial, noneUsedUp_next h.2 hlast⟩
  refine (throughout_of_step hunused ⟨hstart, hrows⟩ hlast).imp fun s h => ?_
  refine h.1.2.seen_iff.mpr fun row hrow husedUp => ?_
  have hleft := h.2 row hrow
  have hfull := husedUp.2
  omega

end Run

/-! ### Five failures -/

/-- A poll at one moment whose handler throws. -/
def failingPoll (now : ℤ) : List (DeliveryEvent Bool) :=
  List.replicate 7 (.advance false { polled := now, now, returns := false })

/-- An event, and as many polls as it has attempts. -/
def fiveFailures : List (DeliveryEvent Bool) :=
  .enqueue "o1" "feature.merged" "\x7b\x7d" { payloadSchemaVersion := schemaVersion } 0 ::
    (failingPoll 100000 ++ failingPoll 200000 ++ failingPoll 300000 ++ failingPoll 400000 ++
      failingPoll 500000)

theorem stuck_seen_iff_fiveFailures :
    Throughout (DeliveryState.next sampleDelivery)
        (fun s => StuckSeen .outbox s.events ↔ ∀ row ∈ s.events.rows, ¬ row.UsedUp)
        sampleDispatchers fiveFailures ∧
      (run (DeliveryState.next sampleDelivery) sampleDispatchers fiveFailures).events.rows.map
        (fun r => (r.id, r.status, r.attempts)) = [("o1", .failed, 5)] := by
  refine ⟨(stuck_seen_iff (fun _ => rfl) (fun _ => rfl) fun _ hr => ?_).1, ?_⟩
  · cases hr
  · decide +kernel

/-- The event is lost, and the checks do not report it. -/
theorem not_seen_fiveFailures : ¬ StuckSeen .outbox
    (run (DeliveryState.next sampleDelivery) sampleDispatchers fiveFailures).events := by
  have hnever : NothingStuck
      (run (DeliveryState.next sampleDelivery) sampleDispatchers fiveFailures).events := by
    unfold NothingStuck
    decide +kernel
  have husedUp : ∃ row ∈
      (run (DeliveryState.next sampleDelivery) sampleDispatchers fiveFailures).events.rows,
        row.status ≠ .done ∧ defaultMaxAttempts ≤ row.attempts := by decide +kernel
  intro hseen
  obtain ⟨row, hrow, hused⟩ := husedUp
  exact hnever.seen_iff.mp hseen row hrow hused

end MiniCoder
