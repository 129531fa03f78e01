import MiniCoder.Commands.Executor
import MiniCoder.StateMachine.Matrix

/-!
# Handlers that move one row

The handlers of the automation control, the clarification, the plan and the design document do one
thing in one order: find their row, compare versions, ask a validator, check their own guard,
`UPDATE` the row under the version, write what else they write, and record events.  `RowMove` is what
differs from one to the next, and `moveRow` is that order up to the `UPDATE`.

* `moveRow_ok`: everything a move that went through found and did.
* `CommandFamily`: a set of handlers, and `CommandFamily.Call` a call of one of them by a process of
  its own; `next_cases`: **a call changed no table, or it was authorised, its key was free, and its
  body did its work** between the claim and the fulfilment.
-/

open Storage Storage.Action

namespace MiniCoder

/-! ### The audit trail -/

/-- The database without the tables that every command writes: its keys, its events, the outbox. -/
def Db.untraced (db : Db) : Db :=
  { db with
    idempotencyKeys := .empty
    workflowEvents := .empty
    outboxEvents := .empty }

/-- What `untraced` keeps, with the runtime. -/
def untracedView (s : Session) : Db × Runtime := (s.db.untraced, s.runtime)

theorem seesData_untracedView : SeesData untracedView := fun _ _ _ => rfl

/-- The events of a command, in order; returns their ids. -/
def writeWorkflowEvents : List WorkflowEventOpts → Sql (List String)
  | [] => pure []
  | opts :: events => do
    let id ← writeWorkflowEvent opts
    let ids ← writeWorkflowEvents events
    pure (id :: ids)

/-- The outbox rows of a command, in order. -/
def writeOutboxEvents : List (String × Payload) → Sql Unit
  | [] => pure ()
  | (eventType, payload) :: rows => do
    let _ ← writeOutboxEvent eventType payload
    writeOutboxEvents rows

/-- The events of a command and its outbox rows; returns the ids of the events. -/
def recordMove (events : List WorkflowEventOpts) (outbox : List (String × Payload)) :
    Sql (List String) := do
  let ids ← writeWorkflowEvents events
  writeOutboxEvents outbox
  pure ids

theorem frame_recordMove {τ : Type} {π : Session → τ} (hπ : SeesData π)
    (hevents : ∀ s t, π { s with db := { s.db with workflowEvents := t } } = π s)
    (houtbox : ∀ s t, π { s with db := { s.db with outboxEvents := t } } = π s)
    (events : List WorkflowEventOpts) (outbox : List (String × Payload)) :
    Frame π (recordMove events outbox) := by
  refine frame_bind ?_ fun ids => frame_bind ?_ fun _ => frame_pure _
  · induction events with
    | nil => exact frame_pure _
    | cons opts events ih =>
      exact frame_bind (frame_writeWorkflowEvent hπ hevents opts) fun _ => frame_bind ih fun _ =>
        frame_pure _
  · induction outbox with
    | nil => exact frame_pure _
    | cons row outbox ih =>
      exact frame_bind (frame_writeOutboxEvent hπ houtbox row.1 row.2) fun _ => ih

theorem fails_recordMove {p : Failure → Prop} (h : p .database) (events : List WorkflowEventOpts)
    (outbox : List (String × Payload)) : Fails p (recordMove events outbox) := by
  refine fails_bind ?_ fun ids => fails_bind ?_ fun _ => fails_pure _
  · induction events with
    | nil => exact fails_pure _
    | cons opts events ih =>
      exact fails_bind (fails_writeWorkflowEvent h opts) fun _ => fails_bind ih fun _ => fails_pure _
  · induction outbox with
    | nil => exact fails_pure _
    | cons row outbox ih => exact fails_bind (fails_writeOutboxEvent h row.1 row.2) fun _ => ih

/-- The record of a command is its events and its outbox rows, and nothing else. -/
theorem untraced_recordMove {events : List WorkflowEventOpts} {outbox : List (String × Payload)}
    {s s' : Session} {ids : List String} (h : exec (recordMove events outbox) s = (.ok ids, s')) :
    s'.db.untraced = s.db.untraced ∧ s'.runtime = s.runtime :=
  Prod.mk.inj ((frame_recordMove seesData_untracedView (fun _ _ => rfl) (fun _ _ => rfl) events
    outbox).of_exec h)

/-! ### Moving a row -/

/-- `assertVersion`, on a row of any table. -/
def assertRowVersion {ρ : Type} (table id : String) (version : ρ → ℕ) (row : Option ρ)
    (expectedVersion : ℕ) : Except Failure ρ :=
  match row with
  | none => .error (.optimisticLock table id expectedVersion (-1))
  | some row =>
    if version row = expectedVersion then .ok row
    else .error (.optimisticLock table id expectedVersion (version row))

theorem assertRowVersion_ok {ρ : Type} {table id : String} {version : ρ → ℕ} {row : Option ρ}
    {expectedVersion : ℕ} {row' : ρ}
    (h : assertRowVersion table id version row expectedVersion = .ok row') :
    row = some row' ∧ version row' = expectedVersion := by
  unfold assertRowVersion at h
  rcases row with _ | row
  · cases h
  · by_cases hv : version row = expectedVersion
    · simp only [hv, if_true] at h
      obtain rfl := Except.ok.inj h
      exact ⟨rfl, hv⟩
    · simp [hv] at h

/-- What a handler that moves one row adds to the common order of steps. -/
structure RowMove (ρ : Type) [Row ρ] where
  table : TableOf Db ρ
  tableName : String
  rowId : String
  version : ρ → ℕ
  expectedVersion : ℕ
  find : Db → Option ρ
  /-- What is thrown for a missing row, where `assertVersion` does not report it. -/
  missing : Option Failure := none
  /-- The validator, and the handler's own guard. -/
  check : ρ → Sql Unit
  /-- The `WHERE` of the `UPDATE`. -/
  isRow : ρ → ρ → Bool
  /-- The `SET` list. -/
  moved : ρ → ρ → ρ
  moved_keys : ∀ row, KeyFree (moved row)
  check_reads : ∀ row, Frame (fun s : Session => (s.db, s.runtime)) (check row)

namespace RowMove

variable {ρ : Type} [Row ρ] (m : RowMove ρ)

/-- Finds the row, and checks its version and what the handler requires of it. -/
def load : Sql ρ := do
  let found ← query m.find
  let present ← orThrow (match found, m.missing with
    | none, some failure => .error failure
    | _, _ => .ok ())
  let row ← orThrow (assertRowVersion m.tableName m.rowId m.version found m.expectedVersion)
  m.check row
  pure row

/-- The `UPDATE` under the version that was read: a row that is gone meanwhile is a conflict. -/
def update (row : ρ) : Sql Unit := do
  let affected ← updateWhere m.table (m.isRow row) (m.moved row) (m.moved_keys row)
  if affected = 0 then
    throw (.optimisticLock m.tableName m.rowId m.expectedVersion (-1))
  else
    pure ()

/-- The steps of the handler up to the `UPDATE`; returns the row as it was. -/
def run : Sql ρ := do
  let row ← m.load
  m.update row
  pure row

variable {m} {s s' : Session} {row : ρ}

theorem load_ok (h : exec m.load s = (.ok row, s')) :
    m.find s.db = some row ∧ m.version row = m.expectedVersion ∧ s'.db = s.db ∧
      s'.runtime = s.runtime ∧
      ∃ s₁, s₁.db = s.db ∧ s₁.runtime = s.runtime ∧ exec (m.check row) s₁ = (.ok (), s') := by
  obtain ⟨found, s₁, hquery, h₁⟩ := exec_bind_ok.mp h
  obtain ⟨rfl, hdb, hrt⟩ := query_ok hquery
  obtain ⟨_, s₂, hpresent, h₂⟩ := exec_bind_ok.mp h₁
  obtain ⟨-, rfl⟩ := orThrow_ok hpresent
  obtain ⟨row', s₃, hversion, h₃⟩ := exec_bind_ok.mp h₂
  obtain ⟨hrow, rfl⟩ := orThrow_ok hversion
  obtain ⟨hfound, hv⟩ := assertRowVersion_ok hrow
  obtain ⟨_, s₄, hcheck, h₄⟩ := exec_bind_ok.mp h₃
  obtain ⟨hr, rfl⟩ := Prod.mk.inj h₄
  obtain rfl := Except.ok.inj hr
  have hreads := (m.check_reads row').of_exec hcheck
  obtain ⟨hdb', hrt'⟩ := Prod.mk.inj hreads
  exact ⟨hfound, hv, hdb'.trans hdb, hrt'.trans hrt, s₃, hdb, hrt, hcheck⟩

theorem update_ok (h : exec (m.update row) s = (.ok (), s')) :
    (m.table.get s.db).count (m.isRow row) ≠ 0 ∧
      s'.db = m.table.put s.db ((m.table.get s.db).update (m.isRow row) (m.moved row)
        (m.moved_keys row)) ∧
      s'.runtime = s.runtime := by
  obtain ⟨affected, s₁, hupdate, h₁⟩ := exec_bind_ok.mp h
  obtain ⟨rfl, hdb, hrt⟩ := updateWhere_ok hupdate
  by_cases hcount : (m.table.get s.db).count (m.isRow row) = 0
  · rw [if_pos hcount] at h₁
    simp at h₁
  · rw [if_neg hcount] at h₁
    obtain ⟨-, rfl⟩ := Prod.mk.inj h₁
    exact ⟨hcount, hdb, hrt⟩

/-- **What a move that went through found and did.** -/
theorem run_ok (h : exec m.run s = (.ok row, s')) :
    m.find s.db = some row ∧ m.version row = m.expectedVersion ∧
      (∃ s₁ s₂, s₁.db = s.db ∧ s₁.runtime = s.runtime ∧ exec (m.check row) s₁ = (.ok (), s₂)) ∧
      (m.table.get s.db).count (m.isRow row) ≠ 0 ∧
      s'.db = m.table.put s.db ((m.table.get s.db).update (m.isRow row) (m.moved row)
        (m.moved_keys row)) ∧
      s'.runtime = s.runtime := by
  obtain ⟨row', s₁, hload, h₁⟩ := exec_bind_ok.mp h
  obtain ⟨_, s₂, hupdate, h₂⟩ := exec_bind_ok.mp h₁
  obtain ⟨hr, rfl⟩ := Prod.mk.inj h₂
  obtain rfl := Except.ok.inj hr
  obtain ⟨hfind, hversion, hdb, hrt, s₀, hs₀, hrt₀, hcheck⟩ := load_ok hload
  obtain ⟨hcount, hput, hrt'⟩ := update_ok hupdate
  rw [hdb] at hcount hput
  exact ⟨hfind, hversion, ⟨s₀, s₁, hs₀, hrt₀, hcheck⟩, hcount, hput, hrt'.trans hrt⟩

/-- **A move returns** when its row is there at the version that it expects, its check passes, and the
`UPDATE` finds the row. -/
theorem returns_run (hs : s.Willing) (hfind : m.find s.db = some row)
    (hversion : m.version row = m.expectedVersion)
    (hcheck : ∀ s₁ : Session, s.Reads s₁ → Returns (m.check row) s₁ fun _ s₂ => s₁.Reads s₂)
    (hcount : (m.table.get s.db).count (m.isRow row) ≠ 0) :
    Returns m.run s fun row' s' => row' = row ∧
      s'.db = m.table.put s.db ((m.table.get s.db).update (m.isRow row) (m.moved row)
        (m.moved_keys row)) ∧
      s'.runtime = s.runtime ∧ s'.drawn = s.drawn := by
  have hload : Returns m.load s fun row' s' => row' = row ∧ s.Reads s' := by
    refine (returns_query hs _).bind fun found s₁ ⟨hfound, hreads₁⟩ => ?_
    rw [hfind] at hfound
    subst hfound
    refine (returns_orThrow rfl).bind fun _ s₂ ⟨_, hs₂⟩ => ?_
    subst hs₂
    have hassert : assertRowVersion m.tableName m.rowId m.version (some row) m.expectedVersion =
        .ok row := if_pos hversion
    refine (returns_orThrow hassert).bind fun row' s₃ ⟨hrow', hs₃⟩ => ?_
    subst hrow' hs₃
    refine (hcheck s₃ hreads₁).bind fun _ s₄ hreads₄ => ?_
    exact returns_pure ⟨rfl, hreads₁.trans hreads₄⟩
  refine hload.bind fun row' s₁ ⟨hrow', hreads₁⟩ => ?_
  subst hrow'
  have hupdate : Returns (m.update row') s₁ fun _ s' =>
      s'.db = m.table.put s.db ((m.table.get s.db).update (m.isRow row') (m.moved row')
        (m.moved_keys row')) ∧ s'.runtime = s.runtime ∧ s'.drawn = s.drawn := by
    refine (returns_execute (hreads₁.willing hs) rfl).bind fun affected s₂ hreturned₂ => ?_
    obtain ⟨haffected, hdb₂, hrt₂, hdrawn₂⟩ := hreturned₂
    rw [hreads₁.db] at haffected hdb₂
    rw [haffected, if_neg hcount]
    exact returns_pure ⟨hdb₂, hrt₂.trans hreads₁.runtime, hdrawn₂.trans hreads₁.drawn⟩
  exact hupdate.bind fun _ s₂ hupdated => returns_pure ⟨rfl, hupdated⟩

/-- A move leaves alone what does not see its table. -/
theorem frame_run {τ : Type} {g : Db × Runtime → τ}
    (hput : ∀ db rt t, g (m.table.put db t, rt) = g (db, rt)) :
    Frame (fun s : Session => g (s.db, s.runtime)) m.run := by
  have hsees : SeesData (fun s : Session => g (s.db, s.runtime)) := fun _ _ _ => rfl
  refine frame_bind ?_ fun row => frame_bind ?_ fun _ => frame_pure _
  · exact frame_bind (frame_query hsees _) fun _ => frame_bind (frame_orThrow _) fun _ =>
      frame_bind (frame_orThrow _) fun row => frame_bind ((m.check_reads row).map g) fun _ =>
      frame_pure _
  · exact frame_bind (frame_updateWhere hsees (fun s t => hput s.db s.runtime t) _) fun _ =>
      frame_ite (frame_throw _) (frame_pure _)

end RowMove

/-! ### Families of handlers -/

/-- The database without its keys. -/
def Db.unclaimed (db : Db) : Db := { db with idempotencyKeys := .empty }

/-- A call that changed some table was authorised, found its key free, and did its work: its body took
the tables, the keys apart, from what they were to what they are. -/
theorem executeCommand_did {P : Type} {handler : CommandHandler P}
    {envelope : CommandEnvelope P} {s s' : Session} {r : Except Failure CommandResult}
    (hreads : Frame (fun s : Session => s.db) (handler.evidence envelope))
    (h : exec (executeCommand handler envelope) s = (r, s')) :
    s'.db = s.db ∨
      assertRole envelope.actor handler.requiredRole handler.commandName
        handler.requiredActorKind = .ok () ∧
      (∀ row ∈ s.db.idempotencyKeys.rows,
        Db.isKey envelope.idempotencyKey handler.idempotencyScope row = true →
          row.expiresAt ≤ s.runtime.now) ∧
      ∃ ev s₁ s₂ result, s₁.db.unclaimed = s.db.unclaimed ∧ s₁.runtime = s.runtime ∧
        exec (handler.body envelope ev) s₁ = (.ok result, s₂) ∧
        s'.db.unclaimed = s₂.db.unclaimed := by
  have hdata : Frame (fun s : Session => s.db) (precheck handler envelope) :=
    frame_precheck fun _ _ _ => rfl
  rcases exec_bind_cases h with ⟨e, hpre⟩ | ⟨cached, s₁, hpre, hrest⟩
  · exact Or.inl (hdata.of_exec hpre)
  · obtain ⟨hdb₁, hrt₁, -⟩ := precheck_ok hpre
    rcases cached with _ | cached
    · obtain ⟨_, _, hrole, -⟩ := exec_bind_ok.mp hpre
      have hauthorised := (orThrow_ok hrole).1
      rcases exec_bind_cases hrest with ⟨e, hev⟩ | ⟨ev, s₂, hev, hexec⟩
      · exact Or.inl ((hreads.of_exec hev).trans hdb₁)
      · have hdb₂ : s₂.db = s.db := (hreads.of_exec hev).trans hdb₁
        have hrt₂ : s₂.runtime = s.runtime :=
          ((handler.evidence_keys envelope).map Prod.snd |>.of_exec hev).trans hrt₁
        rcases exec_bind_cases hexec with ⟨e, htx⟩ | ⟨result, s₃, htx, hfinish⟩
        · exact Or.inl ((transaction_error htx).trans hdb₂)
        · have hdb₃ : s'.db = s₃.db :=
            (frame_orThrow (π := fun s : Session => s.db) _).of_exec hfinish
          obtain ⟨s₄, hbody, hcommit, -⟩ := transaction_ok htx
          rcases withIdempotencyKey_ok hbody with ⟨hsame, -⟩ |
            ⟨claimId, s₅, s₆, hclaim, hwork, hfulfil⟩
          · exact Or.inl (hdb₃.trans (hcommit.trans (hsame.trans hdb₂)))
          · have hsees : SeesData fun s : Session => (s.db.unclaimed, s.runtime) :=
              fun _ _ _ => rfl
            obtain ⟨hview, hrt₅⟩ := Prod.mk.inj
              ((frame_claimIdempotencyKey hsees (fun _ _ => rfl) _ _ _).of_exec hclaim)
            have hfree := (claimIdempotencyKey_owned hclaim).1
            rw [hdb₂, hrt₂] at hfree
            rw [hdb₂] at hview
            refine Or.inr ⟨hauthorised, hfree, ev, s₅, s₆, result, hview, hrt₅.trans hrt₂, hwork, ?_⟩
            rw [hdb₃, hcommit, hfulfil]
            rfl
    · obtain ⟨-, rfl⟩ := Prod.mk.inj hrest
      exact Or.inl hdb₁

/-- What the body of such a call did to the tables that are not written by every command. -/
theorem executeCommand_worked {P : Type} {handler : CommandHandler P}
    {envelope : CommandEnvelope P} {s s' : Session} {r : Except Failure CommandResult}
    (hreads : Frame (fun s : Session => s.db) (handler.evidence envelope))
    (h : exec (executeCommand handler envelope) s = (r, s')) :
    s'.db = s.db ∨
      assertRole envelope.actor handler.requiredRole handler.commandName
        handler.requiredActorKind = .ok () ∧
      (∀ row ∈ s.db.idempotencyKeys.rows,
        Db.isKey envelope.idempotencyKey handler.idempotencyScope row = true →
          row.expiresAt ≤ s.runtime.now) ∧
      ∃ ev s₁ s₂ result, s₁.db.untraced = s.db.untraced ∧ s₁.runtime = s.runtime ∧
        exec (handler.body envelope ev) s₁ = (.ok result, s₂) ∧
        s'.db.untraced = s₂.db.untraced := by
  rcases executeCommand_did hreads h with hsame |
    ⟨hauthorised, hfree, ev, s₁, s₂, result, hstart, hrt, hwork, hend⟩
  · exact Or.inl hsame
  · have hstart' := congrArg Db.untraced hstart
    have hend' := congrArg Db.untraced hend
    exact Or.inr ⟨hauthorised, hfree, ev, s₁, s₂, result, hstart', hrt, hwork, hend'⟩

/-- A set of handlers, the evidence phases of which write no table. -/
structure CommandFamily where
  Name : Type
  Payload : Name → Type
  handler : (command : Name) → CommandHandler (Payload command)
  evidence_reads : ∀ command envelope,
    Frame (fun s : Session => s.db) ((handler command).evidence envelope)

namespace CommandFamily

/-- A call of one of the handlers by a process of its own. -/
structure Call (F : CommandFamily) where
  command : F.Name
  envelope : CommandEnvelope (F.Payload command)
  runtime : Runtime

variable {F : CommandFamily}

namespace Call

variable (call : F.Call)

/-- The call, on a connection to the database. -/
def execute (db : Db) : Except Failure CommandResult × Session :=
  exec (executeCommand (F.handler call.command) call.envelope) (.start db call.runtime)

/-- The caller is one that the handler admits. -/
def authorised : Prop :=
  assertRole call.envelope.actor (F.handler call.command).requiredRole
    (F.handler call.command).commandName (F.handler call.command).requiredActorKind = .ok ()

/-- No row holds the key of the call at the time it is made. -/
def unkeyed (db : Db) : Prop :=
  ∀ row ∈ db.idempotencyKeys.rows,
    Db.isKey call.envelope.idempotencyKey (F.handler call.command).idempotencyScope row = true →
      row.expiresAt ≤ call.runtime.now

/-- The body of the handler did its work, from the tables of the first database to those of the
second. -/
def work (db db' : Db) : Prop :=
  ∃ ev s₁ s₂ result, s₁.db.untraced = db.untraced ∧ s₁.runtime = call.runtime ∧
    exec ((F.handler call.command).body call.envelope ev) s₁ = (.ok result, s₂) ∧
    db'.untraced = s₂.db.untraced

end Call

/-- The database after a call. -/
def next (F : CommandFamily) (db : Db) (call : F.Call) : Db := (call.execute db).2.db

/-- The call did its work afresh. -/
structure Call.Did (call : F.Call) (db : Db) : Prop where
  authorised : call.authorised
  unkeyed : call.unkeyed db
  work : call.work db (F.next db call)

/-- **A call changed no table, or did its work afresh.** -/
theorem next_cases (db : Db) (call : F.Call) : F.next db call = db ∨ call.Did db := by
  rcases hexec : call.execute db with ⟨r, s'⟩
  have hnext : F.next db call = s'.db := congrArg (fun p => p.2.db) hexec
  rcases executeCommand_worked (F.evidence_reads _ _) hexec with hsame | ⟨hrole, hfree, hwork⟩
  · exact Or.inl (hnext.trans hsame)
  · refine Or.inr ⟨hrole, hfree, ?_⟩
    rw [Call.work, hnext]
    exact hwork

end CommandFamily

end MiniCoder
