import MiniCoder.Persistence.Client

/-!
# `transaction()` of the two database clients

The connection behind a client is idle, inside a transaction, or lost; on PostgreSQL, a statement that
fails leaves the transaction aborted, and `COMMIT` then answers without an error and commits nothing.
On SQLite a failed statement leaves the transaction as it is, or else the failure has rolled all of it
back, and what the callback writes from then on is committed at once.

The callback is a tree: it goes on one way when a statement succeeds, and another way when it fails.

* `ran_postgres`, `ran_sqlite`: what the statements of a callback leave.
* `transaction_contract_iff`: when `transaction()` of either client keeps its contract.
-/

namespace MiniCoder

/-! ### Connections -/

/-- Where a connection is; `ω` is the type of writes. -/
inductive ConnState (ω : Type)
  | idle
  /-- Inside a transaction, with the writes it has made. -/
  | inside (writes : List ω)
  | aborted
  | lost
  deriving DecidableEq, Repr

/-- A connection, and the writes that have been committed through it. -/
structure Conn (ω : Type) where
  state : ConnState ω := .idle
  committed : List ω := []
  /-- The last `COMMIT` was left without an answer. -/
  doubtful : Bool := false
  deriving DecidableEq, Repr

inductive Statement (ω : Type)
  | begin
  | isolation
  | query
  | write (w : ω)
  | commit
  | rollback
  deriving DecidableEq, Repr

/-- What the database does with a statement that is possible. -/
inductive Answer
  | ok
  /-- An error; on PostgreSQL, perhaps of SQLSTATE 40001. -/
  | refused (serialization : Bool)
  /-- An error that has rolled the whole transaction back. -/
  | rolledBack
  /-- The connection breaks; the statement may have been applied. -/
  | unanswered (applied : Bool)
  /-- An error before the statement reaches the database. -/
  | unsent
  deriving DecidableEq, Repr

/-- What the client sees. -/
inductive Reply
  | ok
  | error (serialization : Bool)
  deriving DecidableEq, Repr

/-- The writes that a successful statement adds. -/
def Statement.writes {ω : Type} : Statement ω → List ω
  | write w => [w]
  | _ => []

@[simp] theorem Statement.writes_query {ω : Type} : (Statement.query : Statement ω).writes = [] :=
  rfl

variable {ω : Type}

namespace Postgres

/-- A statement outside of any transaction. -/
def execIdle (statement : Statement ω) (conn : Conn ω) : Answer → Reply × Conn ω
  | .ok =>
    (.ok, match statement with
      | .begin => { conn with state := .inside [], doubtful := false }
      | _ => { conn with committed := conn.committed ++ statement.writes })
  | .refused serialization => (.error serialization, conn)
  | .unanswered _ => (.error false, { conn with state := .lost })
  | .rolledBack | .unsent => (.error false, conn)

/-- A statement in an aborted transaction: `COMMIT` rolls back, and does not say so. -/
def execAborted (statement : Statement ω) (conn : Conn ω) : Answer → Reply × Conn ω
  | .ok =>
    match statement with
    | .commit | .rollback => (.ok, { conn with state := .idle })
    | _ => (.error false, conn)
  | .unanswered _ => (.error false, { conn with state := .lost })
  | _ => (.error false, conn)

/-- A statement in a transaction, other than `COMMIT` and `ROLLBACK`. -/
def execInside (statement : Statement ω) (writes : List ω) (conn : Conn ω) :
    Answer → Reply × Conn ω
  | .ok => (.ok, { conn with state := .inside (writes ++ statement.writes) })
  | .refused serialization => (.error serialization, { conn with state := .aborted })
  | .rolledBack => (.error false, { conn with state := .aborted })
  | .unanswered _ => (.error false, { conn with state := .lost })
  | .unsent => (.error false, conn)

/-- `COMMIT` in a transaction; a failure of it ends the transaction, too. -/
def execCommit (writes : List ω) (conn : Conn ω) : Answer → Reply × Conn ω
  | .ok => (.ok, { conn with state := .idle, committed := conn.committed ++ writes })
  | .refused serialization => (.error serialization, { conn with state := .idle })
  | .rolledBack => (.error false, { conn with state := .idle })
  | .unanswered applied =>
    (.error false,
      { state := .lost, committed := conn.committed ++ if applied then writes else []
        doubtful := true })
  | .unsent => (.error false, conn)

/-- `ROLLBACK` in a transaction. -/
def execRollback (conn : Conn ω) : Answer → Reply × Conn ω
  | .ok => (.ok, { conn with state := .idle })
  | .unanswered _ => (.error false, { conn with state := .lost })
  | .refused serialization => (.error serialization, conn)
  | .rolledBack | .unsent => (.error false, conn)

/-- A statement on PostgreSQL. -/
def exec (statement : Statement ω) (answer : Answer) (conn : Conn ω) : Reply × Conn ω :=
  match conn.state with
  | .lost => (.error false, conn)
  | .idle => execIdle statement conn answer
  | .aborted => execAborted statement conn answer
  | .inside writes =>
    match statement with
    | .commit => execCommit writes conn answer
    | .rollback => execRollback conn answer
    | _ => execInside statement writes conn answer

end Postgres

namespace Sqlite

/-- A statement outside of any transaction: there is none to end. -/
def execIdle (answer : Answer) (conn : Conn ω) : Statement ω → Reply × Conn ω
  | .commit | .rollback => (.error false, conn)
  | .begin =>
    if answer = .ok then (.ok, { conn with state := .inside [], doubtful := false })
    else (.error false, conn)
  | statement =>
    if answer = .ok then (.ok, { conn with committed := conn.committed ++ statement.writes })
    else (.error false, conn)

/-- A statement in a transaction, other than `COMMIT` and `ROLLBACK`. -/
def execInside (statement : Statement ω) (writes : List ω) (conn : Conn ω) :
    Answer → Reply × Conn ω
  | .ok => (.ok, { conn with state := .inside (writes ++ statement.writes) })
  | .rolledBack | .unanswered _ => (.error false, { conn with state := .idle })
  | .refused _ | .unsent => (.error false, conn)

/-- `COMMIT` in a transaction. -/
def execCommit (writes : List ω) (conn : Conn ω) : Answer → Reply × Conn ω
  | .ok => (.ok, { conn with state := .idle, committed := conn.committed ++ writes })
  | .rolledBack => (.error false, { conn with state := .idle })
  | .unanswered applied =>
    (.error false,
      { state := .idle, committed := conn.committed ++ if applied then writes else []
        doubtful := true })
  | .refused _ | .unsent => (.error false, conn)

/-- A statement on SQLite, which has no connection to lose: an answer that does not come is an error
that rolls back, except that of a `COMMIT`, which may have been applied. -/
def exec (statement : Statement ω) (answer : Answer) (conn : Conn ω) : Reply × Conn ω :=
  match conn.state with
  | .inside writes =>
    match statement with
    | .begin => (.error false, conn)
    | .commit => execCommit writes conn answer
    | .rollback =>
      if answer = .ok then (.ok, { conn with state := .idle }) else (.error false, conn)
    | _ => execInside statement writes conn answer
  | _ => execIdle answer conn statement

end Sqlite

/-- A statement of either database. -/
def Dialect.exec : Dialect → Statement ω → Answer → Conn ω → Reply × Conn ω
  | .postgres => Postgres.exec
  | .sqlite => Sqlite.exec

/-! ### Callbacks -/

/-- The callback of a transaction. -/
inductive Callback (ω : Type)
  | returns
  | throws (serialization : Bool)
  | query (onOk onFailure : Callback ω)
  | write (w : ω) (onOk onFailure : Callback ω)

/-- What a callback leaves: how it ends, the writes that it saw succeed, and those of them that were
made outside of the transaction. -/
structure Ran (ω : Type) where
  reply : Reply
  successful : List ω := []
  stray : List ω := []
  conn : Conn ω

/-- The writes of a statement that succeeds on a connection outside of any transaction. -/
def Conn.stray (conn : Conn ω) (writes : List ω) : List ω :=
  match conn.state with
  | .idle => writes
  | _ => []

/-- The `n`-th statement of a callback, and those after it. -/
def Callback.run (dialect : Dialect) (answers : ℕ → Answer) :
    Callback ω → ℕ → Conn ω → Ran ω
  | returns, _, conn => { reply := .ok, conn }
  | throws serialization, _, conn => { reply := .error serialization, conn }
  | query onOk onFailure, n, conn =>
    let queried := dialect.exec .query (answers n) conn
    match queried.1 with
    | .ok => onOk.run dialect answers (n + 1) queried.2
    | .error _ => onFailure.run dialect answers (n + 1) queried.2
  | write w onOk onFailure, n, conn =>
    let written := dialect.exec (.write w) (answers n) conn
    match written.1 with
    | .ok =>
      let ran := onOk.run dialect answers (n + 1) written.2
      { ran with successful := w :: ran.successful, stray := conn.stray [w] ++ ran.stray }
    | .error _ => onFailure.run dialect answers (n + 1) written.2

/-! ### The clients -/

/-- A database client: its flags, and its connection. -/
structure DbClient (ω : Type) where
  dead : Bool := false
  inTransaction : Bool := false
  conn : Conn ω := {}
  deriving DecidableEq, Repr

/-- The answers to the statements of one transaction. -/
structure Answers where
  onBegin : Answer := .ok
  onIsolation : Answer := .ok
  onStatement : ℕ → Answer := fun _ => .ok
  onCommit : Answer := .ok
  onRollback : Answer := .ok

inductive TxError
  | dead
  | nested
  | serializationFailure
  | rollbackFailed
  /-- The error of a statement, or of the callback. -/
  | thrown
  deriving DecidableEq, Repr

/-- How the promise settles, the writes that the callback saw succeed, and the client after. -/
structure Settled (ω : Type) where
  result : Except TxError Unit
  successful : List ω := []
  client : DbClient ω

/-- `translated`. -/
def translated (serialization : Bool) : TxError :=
  if serialization then .serializationFailure else .thrown

/-- The `catch`, where a transaction is to be rolled back. -/
def rollBack (dialect : Dialect) (a : Answers) (client : DbClient ω) (error : TxError)
    (successful : List ω) (conn : Conn ω) : Settled ω :=
  let rolled := dialect.exec .rollback a.onRollback conn
  match rolled.1 with
  | .ok => { result := .error error, successful, client := { client with conn := rolled.2 } }
  | .error _ =>
    { result := .error .rollbackFailed, successful
      client := { client with dead := true, conn := rolled.2 } }

/-- The callback of `PostgresDbClient.transaction`, and its `COMMIT`. -/
def Postgres.runAndCommit (fn : Callback ω) (a : Answers) (client : DbClient ω) (conn : Conn ω) :
    Settled ω :=
  let ran := fn.run .postgres a.onStatement 0 conn
  match ran.reply with
  | .error serialization =>
    rollBack .postgres a client (translated serialization) ran.successful ran.conn
  | .ok =>
    let ended := Postgres.exec .commit a.onCommit ran.conn
    match ended.1 with
    | .ok =>
      { result := .ok (), successful := ran.successful, client := { client with conn := ended.2 } }
    | .error true =>
      -- the transaction has ended on the server
      { result := .error .serializationFailure, successful := ran.successful
        client := { client with conn := ended.2 } }
    | .error false => rollBack .postgres a client .thrown ran.successful ended.2

/-- `PostgresDbClient.transaction`. -/
def Postgres.transaction (serializable : Bool) (fn : Callback ω) (a : Answers)
    (client : DbClient ω) : Settled ω :=
  if client.dead then { result := .error .dead, client }
  else if client.inTransaction then { result := .error .nested, client }
  else
    let begun := Postgres.exec .begin a.onBegin client.conn
    match begun.1 with
    | .error true =>
      { result := .error .serializationFailure, client := { client with conn := begun.2 } }
    | .error false =>
      { result := .error .thrown, client := { client with dead := true, conn := begun.2 } }
    | .ok =>
      let isolated := if serializable then Postgres.exec .isolation a.onIsolation begun.2
        else (.ok, begun.2)
      match isolated.1 with
      | .error serialization =>
        rollBack .postgres a client (translated serialization) [] isolated.2
      | .ok => Postgres.runAndCommit fn a client isolated.2

/-- `SqliteDbClient.transaction`. -/
def Sqlite.transaction (fn : Callback ω) (a : Answers) (client : DbClient ω) : Settled ω :=
  if client.dead then { result := .error .dead, client }
  else if client.inTransaction then { result := .error .nested, client }
  else
    let begun := Sqlite.exec .begin a.onBegin client.conn
    match begun.1 with
    | .error _ => { result := .error .thrown, client := { client with conn := begun.2 } }
    | .ok =>
      let ran := fn.run .sqlite a.onStatement 0 begun.2
      match ran.reply with
      | .error _ => rollBack .sqlite a client .thrown ran.successful ran.conn
      | .ok =>
        let ended := Sqlite.exec .commit a.onCommit ran.conn
        match ended.1 with
        | .ok =>
          { result := .ok (), successful := ran.successful
            client := { client with conn := ended.2 } }
        | .error _ => rollBack .sqlite a client .thrown ran.successful ended.2

/-- `transaction()` of the client of a database. -/
def Dialect.transaction (dialect : Dialect) (serializable : Bool) (fn : Callback ω) (a : Answers)
    (client : DbClient ω) : Settled ω :=
  match dialect with
  | .postgres => Postgres.transaction serializable fn a client
  | .sqlite => Sqlite.transaction fn a client

/-! ### What a callback leaves -/

section Ran

variable {answers : ℕ → Answer} {conn : Conn ω} {writes : List ω}

/-- A statement of a callback, on PostgreSQL inside a transaction. -/
theorem exec_postgres_inside (statement : Statement ω) (answer : Answer)
    (h : conn.state = .inside writes) (hcommit : statement ≠ .commit)
    (hrollback : statement ≠ .rollback) :
    let executed := Postgres.exec statement answer conn
    executed.1 = .ok ∧ executed.2 = { conn with state := .inside (writes ++ statement.writes) } ∨
      (∃ serialization, executed.1 = .error serialization) ∧
        executed.2.committed = conn.committed ∧ (executed.2.state = .inside writes ∨
          executed.2.state = .aborted ∨ executed.2.state = .lost) := by
  have hexec : Postgres.exec statement answer conn =
      Postgres.execInside statement writes conn answer := by
    rw [Postgres.exec, h]
    cases statement with
    | commit => exact absurd rfl hcommit
    | rollback => exact absurd rfl hrollback
    | _ => rfl
  rw [hexec]
  cases answer <;> simp [Postgres.execInside, h]

/-- And once the transaction is aborted, or the connection lost. -/
theorem exec_postgres_ended (statement : Statement ω) (answer : Answer)
    (h : conn.state = .aborted ∨ conn.state = .lost) (hcommit : statement ≠ .commit)
    (hrollback : statement ≠ .rollback) :
    let executed := Postgres.exec statement answer conn
    (∃ serialization, executed.1 = .error serialization) ∧
      executed.2.committed = conn.committed ∧
      (executed.2.state = .aborted ∨ executed.2.state = .lost) := by
  rcases h with haborted | hlost
  · have hexec : Postgres.exec statement answer conn =
        Postgres.execAborted statement conn answer := by
      rw [Postgres.exec, haborted]
    rw [hexec]
    cases statement with
    | commit => exact absurd rfl hcommit
    | rollback => exact absurd rfl hrollback
    | _ => cases answer <;> simp [Postgres.execAborted, haborted]
  · have hexec : Postgres.exec statement answer conn = (.error false, conn) := by
      rw [Postgres.exec, hlost]
    rw [hexec]
    simp [hlost]

/-- A callback that goes on in an aborted transaction leaves it so, and commits nothing. -/
theorem ran_postgres_ended (fn : Callback ω) (n : ℕ) (conn : Conn ω)
    (h : conn.state = .aborted ∨ conn.state = .lost) :
    (fn.run .postgres answers n conn).conn.committed = conn.committed ∧
      ((fn.run .postgres answers n conn).conn.state = .aborted ∨
        (fn.run .postgres answers n conn).conn.state = .lost) := by
  induction fn generalizing n conn with
  | returns => exact ⟨rfl, h⟩
  | throws serialization => exact ⟨rfl, h⟩
  | query onOk onFailure _ ihFailure =>
    obtain ⟨⟨serialization, herror⟩, hcommitted, hstate⟩ :=
      exec_postgres_ended .query (answers n) h (by simp) (by simp)
    obtain ⟨hrest, hend⟩ := ihFailure (n + 1) _ hstate
    simp only [Callback.run, Dialect.exec, herror]
    exact ⟨hrest.trans hcommitted, hend⟩
  | write w onOk onFailure _ ihFailure =>
    obtain ⟨⟨serialization, herror⟩, hcommitted, hstate⟩ :=
      exec_postgres_ended (.write w) (answers n) h (by simp) (by simp)
    obtain ⟨hrest, hend⟩ := ihFailure (n + 1) _ hstate
    simp only [Callback.run, Dialect.exec, herror]
    exact ⟨hrest.trans hcommitted, hend⟩

/-- What a callback on PostgreSQL leaves of a transaction. -/
structure InTransaction (conn : Conn ω) (writes : List ω) (ran : Ran ω) : Prop where
  committed : ran.conn.committed = conn.committed
  /-- The transaction has all the writes that succeeded, unless it is aborted or lost. -/
  state : ran.conn.state = .inside (writes ++ ran.successful) ∨ ran.conn.state = .aborted ∨
    ran.conn.state = .lost

/-- **After a callback on PostgreSQL** that started inside a transaction. -/
theorem ran_postgres (fn : Callback ω) (n : ℕ) (conn : Conn ω) {writes : List ω}
    (h : conn.state = .inside writes) :
    InTransaction conn writes (fn.run .postgres answers n conn) := by
  -- where the callback goes on after a failure
  have hfailure : ∀ {conn conn' : Conn ω} {writes : List ω} {next : Callback ω} {n : ℕ},
      (conn'.state = .inside writes → InTransaction conn' writes
        (next.run .postgres answers n conn')) →
      conn'.committed = conn.committed →
      (conn'.state = .inside writes ∨ conn'.state = .aborted ∨ conn'.state = .lost) →
      InTransaction conn writes (next.run .postgres answers n conn') := by
    intro conn conn' writes next n ih hcommitted hstate
    rcases hstate with hinside | hended
    · exact ⟨(ih hinside).committed.trans hcommitted, (ih hinside).state⟩
    · obtain ⟨hrest, hend⟩ := ran_postgres_ended next n conn' hended
      exact ⟨hrest.trans hcommitted, Or.inr hend⟩
  induction fn generalizing n conn writes with
  | returns => exact ⟨rfl, Or.inl (h.trans (by rw [Callback.run, List.append_nil]))⟩
  | throws serialization => exact ⟨rfl, Or.inl (h.trans (by rw [Callback.run, List.append_nil]))⟩
  | query onOk onFailure ihOk ihFailure =>
    rcases exec_postgres_inside .query (answers n) h (by simp) (by simp) with
      ⟨hok, hconn⟩ | ⟨⟨serialization, herror⟩, hcommitted, hstate⟩
    · simp only [Callback.run, Dialect.exec, hok, hconn]
      have hrest := ihOk (n + 1) { conn with state := .inside (writes ++ Statement.query.writes) }
        rfl
      rw [Statement.writes_query, List.append_nil] at hrest ⊢
      exact ⟨hrest.committed, hrest.state⟩
    · simp only [Callback.run, Dialect.exec, herror]
      exact hfailure (ihFailure (n + 1) _) hcommitted hstate
  | write w onOk onFailure ihOk ihFailure =>
    rcases exec_postgres_inside (.write w) (answers n) h (by simp) (by simp) with
      ⟨hok, hconn⟩ | ⟨⟨serialization, herror⟩, hcommitted, hstate⟩
    · simp only [Callback.run, Dialect.exec, hok, hconn]
      have hrest := ihOk (n + 1) { conn with
        state := .inside (writes ++ (Statement.write w).writes) } rfl
      refine ⟨hrest.committed, hrest.state.imp_left fun hinside => ?_⟩
      rw [Statement.writes, List.append_assoc] at hinside
      exact hinside
    · simp only [Callback.run, Dialect.exec, herror]
      exact hfailure (ihFailure (n + 1) _) hcommitted hstate

/-- A statement of a callback, on SQLite inside a transaction. -/
theorem exec_sqlite_inside (statement : Statement ω) (answer : Answer)
    (h : conn.state = .inside writes) (hbegin : statement ≠ .begin) (hcommit : statement ≠ .commit)
    (hrollback : statement ≠ .rollback) :
    let executed := Sqlite.exec statement answer conn
    executed.1 = .ok ∧ executed.2 = { conn with state := .inside (writes ++ statement.writes) } ∨
      (∃ serialization, executed.1 = .error serialization) ∧
        executed.2.committed = conn.committed ∧ executed.2.doubtful = conn.doubtful ∧
        (executed.2.state = .inside writes ∨ executed.2.state = .idle) := by
  have hexec : Sqlite.exec statement answer conn =
      Sqlite.execInside statement writes conn answer := by
    rw [Sqlite.exec, h]
    cases statement with
    | begin => exact absurd rfl hbegin
    | commit => exact absurd rfl hcommit
    | rollback => exact absurd rfl hrollback
    | _ => rfl
  rw [hexec]
  cases answer <;> simp [Sqlite.execInside, h]

/-- And once the transaction has been rolled back: a write is committed at once. -/
theorem exec_sqlite_idle (statement : Statement ω) (answer : Answer) (h : conn.state = .idle)
    (hbegin : statement ≠ .begin) (hcommit : statement ≠ .commit)
    (hrollback : statement ≠ .rollback) :
    let executed := Sqlite.exec statement answer conn
    executed.2.state = .idle ∧ executed.2.doubtful = conn.doubtful ∧ (executed.1 = .ok ∧
        executed.2.committed = conn.committed ++ statement.writes ∨
      (∃ serialization, executed.1 = .error serialization) ∧
        executed.2.committed = conn.committed) := by
  have hexec : Sqlite.exec statement answer conn = Sqlite.execIdle answer conn statement := by
    rw [Sqlite.exec, h]
  rw [hexec]
  cases statement with
  | begin => exact absurd rfl hbegin
  | commit => exact absurd rfl hcommit
  | rollback => exact absurd rfl hrollback
  | _ =>
    by_cases hok : answer = .ok
    · simp [Sqlite.execIdle, hok, h]
    · simp [Sqlite.execIdle, hok, h]

/-- **After a callback on SQLite**, outside of a transaction: all that succeeded has been committed. -/
theorem ran_sqlite_idle (fn : Callback ω) (n : ℕ) (conn : Conn ω) (h : conn.state = .idle) :
    (fn.run .sqlite answers n conn).conn.state = .idle ∧
      (fn.run .sqlite answers n conn).conn.doubtful = conn.doubtful ∧
      (fn.run .sqlite answers n conn).conn.committed =
        conn.committed ++ (fn.run .sqlite answers n conn).stray := by
  induction fn generalizing n conn with
  | returns => exact ⟨h, rfl, (List.append_nil _).symm⟩
  | throws serialization => exact ⟨h, rfl, (List.append_nil _).symm⟩
  | query onOk onFailure ihOk ihFailure =>
    obtain ⟨hidle, hdoubtful, ⟨hok, hcommitted⟩ | ⟨⟨serialization, herror⟩, hcommitted⟩⟩ :=
      exec_sqlite_idle .query (answers n) h (by simp) (by simp) (by simp)
    · obtain ⟨hend, hsure, hrest⟩ := ihOk (n + 1) _ hidle
      rw [Statement.writes_query, List.append_nil] at hcommitted
      simp only [Callback.run, Dialect.exec, hok]
      exact ⟨hend, hsure.trans hdoubtful, hrest.trans (by rw [hcommitted])⟩
    · obtain ⟨hend, hsure, hrest⟩ := ihFailure (n + 1) _ hidle
      simp only [Callback.run, Dialect.exec, herror]
      exact ⟨hend, hsure.trans hdoubtful, hrest.trans (by rw [hcommitted])⟩
  | write w onOk onFailure ihOk ihFailure =>
    obtain ⟨hidle, hdoubtful, ⟨hok, hcommitted⟩ | ⟨⟨serialization, herror⟩, hcommitted⟩⟩ :=
      exec_sqlite_idle (.write w) (answers n) h (by simp) (by simp) (by simp)
    · obtain ⟨hend, hsure, hrest⟩ := ihOk (n + 1) _ hidle
      simp only [Callback.run, Dialect.exec, hok]
      refine ⟨hend, hsure.trans hdoubtful, hrest.trans ?_⟩
      rw [hcommitted, Conn.stray, h, Statement.writes, List.append_assoc]
    · obtain ⟨hend, hsure, hrest⟩ := ihFailure (n + 1) _ hidle
      simp only [Callback.run, Dialect.exec, herror]
      exact ⟨hend, hsure.trans hdoubtful, hrest.trans (by rw [hcommitted])⟩

/-- What a callback on SQLite leaves of a transaction. -/
structure InOrAfter (conn : Conn ω) (writes : List ω) (ran : Ran ω) : Prop where
  committed : ran.conn.committed = conn.committed ++ ran.stray
  doubtful : ran.conn.doubtful = conn.doubtful
  state : ran.conn.state = .inside (writes ++ ran.successful) ∧ ran.stray = [] ∨
    ran.conn.state = .idle

/-- **After a callback on SQLite** that started inside a transaction. -/
theorem ran_sqlite (fn : Callback ω) (n : ℕ) (conn : Conn ω) {writes : List ω}
    (h : conn.state = .inside writes) :
    InOrAfter conn writes (fn.run .sqlite answers n conn) := by
  have hfailure : ∀ {conn conn' : Conn ω} {writes : List ω} {next : Callback ω} {n : ℕ},
      (conn'.state = .inside writes → InOrAfter conn' writes
        (next.run .sqlite answers n conn')) →
      conn'.committed = conn.committed → conn'.doubtful = conn.doubtful →
      (conn'.state = .inside writes ∨ conn'.state = .idle) →
      InOrAfter conn writes (next.run .sqlite answers n conn') := by
    intro conn conn' writes next n ih hcommitted hdoubtful hstate
    rcases hstate with hinside | hidle
    · have hrest := ih hinside
      exact ⟨hcommitted ▸ hrest.committed, hrest.doubtful.trans hdoubtful, hrest.state⟩
    · obtain ⟨hend, hsure, hrest⟩ := ran_sqlite_idle next n conn' hidle
      exact ⟨hcommitted ▸ hrest, hsure.trans hdoubtful, Or.inr hend⟩
  induction fn generalizing n conn writes with
  | returns =>
    exact ⟨(List.append_nil _).symm, rfl,
      Or.inl ⟨h.trans (by rw [Callback.run, List.append_nil]), rfl⟩⟩
  | throws serialization =>
    exact ⟨(List.append_nil _).symm, rfl,
      Or.inl ⟨h.trans (by rw [Callback.run, List.append_nil]), rfl⟩⟩
  | query onOk onFailure ihOk ihFailure =>
    rcases exec_sqlite_inside .query (answers n) h (by simp) (by simp) (by simp) with
      ⟨hok, hconn⟩ | ⟨⟨serialization, herror⟩, hcommitted, hdoubtful, hstate⟩
    · simp only [Callback.run, Dialect.exec, hok, hconn]
      have hrest := ihOk (n + 1) { conn with state := .inside (writes ++ Statement.query.writes) }
        rfl
      rw [Statement.writes_query, List.append_nil] at hrest ⊢
      exact ⟨hrest.committed, hrest.doubtful, hrest.state⟩
    · simp only [Callback.run, Dialect.exec, herror]
      exact hfailure (ihFailure (n + 1) _) hcommitted hdoubtful hstate
  | write w onOk onFailure ihOk ihFailure =>
    rcases exec_sqlite_inside (.write w) (answers n) h (by simp) (by simp) (by simp) with
      ⟨hok, hconn⟩ | ⟨⟨serialization, herror⟩, hcommitted, hdoubtful, hstate⟩
    · have hstray : conn.stray [w] = [] := by
        rw [Conn.stray, h]
      simp only [Callback.run, Dialect.exec, hok, hconn, hstray, List.nil_append]
      have hrest := ihOk (n + 1) { conn with
        state := .inside (writes ++ (Statement.write w).writes) } rfl
      refine ⟨hrest.committed, hrest.doubtful,
        hrest.state.imp_left fun ⟨hinside, hnone⟩ => ⟨?_, hnone⟩⟩
      rw [Statement.writes, List.append_assoc] at hinside
      exact hinside
    · simp only [Callback.run, Dialect.exec, herror]
      exact hfailure (ihFailure (n + 1) _) hcommitted hdoubtful hstate

end Ran

/-! ### The contract -/

/-- The connection of a client is idle, unless the client is dead or a transaction is using it. -/
def DbClient.Ready (client : DbClient ω) : Prop :=
  client.dead = false → client.inTransaction = false → client.conn.state = .idle

/-- What `transaction()` owes its caller: a promise that resolves has committed all that the callback
saw succeed, one that is rejected has committed nothing (or all, where the `COMMIT` was left without an
answer), and no transaction stays open except the one that was under way before. -/
structure Contract (before : DbClient ω) (settled : Settled ω) : Prop where
  resolved : settled.result = .ok () →
    settled.client.conn.committed = before.conn.committed ++ settled.successful
  rejected : ∀ error, settled.result = .error error →
    settled.client.conn.committed = before.conn.committed ∨
      settled.client.conn.doubtful = true ∧
        settled.client.conn.committed = before.conn.committed ++ settled.successful
  closed : settled.client.dead = true ∨ settled.client.conn.state = .idle ∨
    before.inTransaction = true ∧ settled.client = before

theorem Contract.of_error {before : DbClient ω} {settled : Settled ω} {error : TxError}
    (hresult : settled.result = .error error)
    (hcommitted : settled.client.conn.committed = before.conn.committed)
    (hclosed : settled.client.dead = true ∨ settled.client.conn.state = .idle ∨
      before.inTransaction = true ∧ settled.client = before) : Contract before settled := by
  refine ⟨fun hok => ?_, fun _ _ => Or.inl hcommitted, hclosed⟩
  rw [hresult] at hok
  cases hok

theorem Contract.of_ok {before : DbClient ω} {settled : Settled ω} (hresult : settled.result = .ok ())
    (hcommitted : settled.client.conn.committed = before.conn.committed ++ settled.successful)
    (hidle : settled.client.conn.state = .idle) : Contract before settled := by
  refine ⟨fun _ => hcommitted, fun error herror => ?_, Or.inr (Or.inl hidle)⟩
  rw [hresult] at herror
  cases herror

/-- The connection that the callback starts with, if it starts. -/
def Dialect.opened (dialect : Dialect) (serializable : Bool) (a : Answers) (client : DbClient ω) :
    Option (Conn ω) :=
  if client.dead || client.inTransaction then none
  else
    let begun := dialect.exec .begin a.onBegin client.conn
    if begun.1 = .ok then
      if dialect = .postgres ∧ serializable = true then
        let isolated := dialect.exec .isolation a.onIsolation begun.2
        if isolated.1 = .ok then some isolated.2 else none
      else some begun.2
    else none

/-- What the callback must not do.  On PostgreSQL: return over an aborted transaction in which a write
has succeeded, unless its `COMMIT` fails.  On SQLite: go on writing once the transaction has been
rolled back. -/
def Dialect.CallbackKept (dialect : Dialect) (fn : Callback ω) (a : Answers) (conn : Conn ω) :
    Prop :=
  let ran := fn.run dialect a.onStatement 0 conn
  match dialect with
  | .postgres => ¬ (ran.reply = .ok ∧ ran.conn.state = .aborted ∧ ran.successful ≠ [] ∧
      a.onCommit = .ok)
  | .sqlite => ran.stray = []

section Contract

variable {a : Answers} {client : DbClient ω} {conn : Conn ω} {writes successful : List ω}

/-- A `ROLLBACK` commits nothing, and ends the transaction when it succeeds. -/
theorem exec_rollback (dialect : Dialect) (answer : Answer) (conn : Conn ω) :
    (dialect.exec .rollback answer conn).2.committed = conn.committed ∧
      (dialect.exec .rollback answer conn).2.doubtful = conn.doubtful ∧
      ((dialect.exec .rollback answer conn).1 = .ok →
        (dialect.exec .rollback answer conn).2.state = .idle) := by
  cases dialect with
  | postgres =>
    rcases hstate : conn.state with _ | writes | _ | _
    · cases answer <;> simp [Dialect.exec, Postgres.exec, hstate, Postgres.execIdle,
        Statement.writes]
    · cases answer <;> simp [Dialect.exec, Postgres.exec, hstate, Postgres.execRollback]
    · cases answer <;> simp [Dialect.exec, Postgres.exec, hstate, Postgres.execAborted]
    · simp [Dialect.exec, Postgres.exec, hstate]
  | sqlite =>
    rcases hstate : conn.state with _ | writes | _ | _
    · simp [Dialect.exec, Sqlite.exec, hstate, Sqlite.execIdle]
    · by_cases hok : answer = .ok
      · simp [Dialect.exec, Sqlite.exec, hstate, hok]
      · simp [Dialect.exec, Sqlite.exec, hstate, hok]
    · simp [Dialect.exec, Sqlite.exec, hstate, Sqlite.execIdle]
    · simp [Dialect.exec, Sqlite.exec, hstate, Sqlite.execIdle]

/-- **After a rollback** the promise is rejected with nothing more committed, and the transaction is
over or the client dead. -/
theorem rollBack_spec (dialect : Dialect) (a : Answers) (client : DbClient ω) (error : TxError)
    (successful : List ω) (conn : Conn ω) :
    let settled := rollBack dialect a client error successful conn
    (∃ error, settled.result = .error error) ∧ settled.successful = successful ∧
      settled.client.conn.committed = conn.committed ∧
      settled.client.conn.doubtful = conn.doubtful ∧
      (settled.client.dead = true ∨ settled.client.conn.state = .idle) := by
  obtain ⟨hcommitted, hdoubtful, hidle⟩ := exec_rollback dialect a.onRollback conn
  rw [rollBack]
  rcases hreply : (dialect.exec .rollback a.onRollback conn).1 with _ | serialization
  · exact ⟨⟨error, rfl⟩, rfl, hcommitted, hdoubtful, Or.inr (hidle hreply)⟩
  · exact ⟨⟨.rollbackFailed, rfl⟩, rfl, hcommitted, hdoubtful, Or.inl rfl⟩

/-- A rollback of a transaction that has committed nothing keeps the contract. -/
theorem contract_rollBack {dialect : Dialect} {error : TxError}
    (hcommitted : conn.committed = client.conn.committed ∨ conn.doubtful = true ∧
      conn.committed = client.conn.committed ++ successful) :
    Contract client (rollBack dialect a client error successful conn) := by
  obtain ⟨⟨error', hresult⟩, hsuccessful, hafter, hdoubtful, hclosed⟩ :=
    rollBack_spec dialect a client error successful conn
  refine ⟨fun hok => ?_, fun _ _ => ?_, hclosed.imp_right Or.inl⟩
  · rw [hresult] at hok
    cases hok
  · rw [hafter, hdoubtful, hsuccessful]
    exact hcommitted

/-- `COMMIT` on PostgreSQL after a callback. -/
theorem commit_postgres {ran : Ran ω} (answer : Answer) (h : InTransaction conn [] ran) :
    let ended := Postgres.exec .commit answer ran.conn
    (ended.1 = .ok → ended.2.state = .idle ∧ (ran.conn.state = .aborted ∧ answer = .ok ∧
        ended.2.committed = conn.committed ∨
      ran.conn.state ≠ .aborted ∧ ended.2.committed = conn.committed ++ ran.successful)) ∧
    (ended.1 = .error true → ended.2.state = .idle ∧ ended.2.committed = conn.committed) ∧
    (ended.1 = .error false → ended.2.committed = conn.committed ∨
      ended.2.doubtful = true ∧ ended.2.committed = conn.committed ++ ran.successful) ∧
    (ran.conn.state = .aborted → answer = .ok → ended.1 = .ok) := by
  have hcommitted := h.committed
  rcases h.state with hinside | haborted | hlost
  · have hexec : Postgres.exec .commit answer ran.conn =
        Postgres.execCommit ran.successful ran.conn answer := by
      rw [Postgres.exec, hinside]
      rfl
    rw [hexec, hinside]
    rcases answer with _ | serialization | _ | applied | _
    · simp [Postgres.execCommit, hcommitted]
    · simp [Postgres.execCommit, hcommitted]
    · simp [Postgres.execCommit, hcommitted]
    · cases applied <;> simp [Postgres.execCommit, hcommitted]
    · simp [Postgres.execCommit, hcommitted]
  · have hexec : Postgres.exec .commit answer ran.conn =
        Postgres.execAborted .commit ran.conn answer := by
      rw [Postgres.exec, haborted]
    rw [hexec, haborted]
    cases answer <;> simp [Postgres.execAborted, hcommitted]
  · have hexec : Postgres.exec .commit answer ran.conn = (.error false, ran.conn) := by
      rw [Postgres.exec, hlost]
    rw [hexec, hlost]
    simp [hcommitted]

/-- The statements before the callback on PostgreSQL. -/
theorem begin_postgres (h : conn.state = .idle) (answer : Answer) :
    let begun := Postgres.exec .begin answer conn
    (begun.1 = .ok → begun.2 = { conn with state := .inside [], doubtful := false }) ∧
      begun.2.committed = conn.committed ∧ (begun.1 = .error true → begun.2.state = .idle) := by
  have hexec : Postgres.exec .begin answer conn = Postgres.execIdle .begin conn answer := by
    rw [Postgres.exec, h]
  rw [hexec]
  cases answer <;> simp [Postgres.execIdle, h]

/-- **Once the callback has started on PostgreSQL**, the contract is kept if and only if the callback
keeps to its part. -/
theorem contract_runAndCommit_iff {fn : Callback ω} (hinside : conn.state = .inside [])
    (hcommitted : conn.committed = client.conn.committed) :
    Contract client (Postgres.runAndCommit fn a client conn) ↔
      Dialect.postgres.CallbackKept fn a conn := by
  have hran : InTransaction conn [] (fn.run .postgres a.onStatement 0 conn) :=
    ran_postgres fn 0 conn hinside
  have hcommit := commit_postgres a.onCommit hran
  simp only [Postgres.runAndCommit, Dialect.CallbackKept]
  generalize fn.run .postgres a.onStatement 0 conn = ran at hran hcommit ⊢
  rw [hcommitted] at hcommit
  obtain ⟨hok, htrue, hfalse, habortedOk⟩ := hcommit
  rcases hreply : ran.reply with _ | serialization
  · rcases hended : (Postgres.exec .commit a.onCommit ran.conn).1 with _ | _ | _
    · obtain ⟨hidle, ⟨haborted, hanswer, hnone⟩ | ⟨hopen, hall⟩⟩ := hok hended
      · -- `COMMIT` has rolled back
        constructor
        · rintro hcontract ⟨-, -, hsome, -⟩
          have hresolved := hcontract.resolved rfl
          rw [hnone] at hresolved
          exact hsome (List.append_right_eq_self.mp hresolved.symm)
        · intro hkept
          have hempty : ran.successful = [] := by
            by_contra hsome
            exact hkept ⟨rfl, haborted, hsome, hanswer⟩
          refine Contract.of_ok rfl ?_ hidle
          rw [hempty, List.append_nil]
          exact hnone
      · refine iff_of_true (Contract.of_ok rfl hall hidle) ?_
        rintro ⟨-, haborted, -⟩
        exact hopen haborted
    · refine iff_of_true (contract_rollBack (hfalse hended)) ?_
      rintro ⟨-, haborted, -, hanswer⟩
      rw [habortedOk haborted hanswer] at hended
      cases hended
    · obtain ⟨hidle, hnone⟩ := htrue hended
      refine iff_of_true (Contract.of_error rfl hnone (Or.inr (Or.inl hidle))) ?_
      rintro ⟨-, haborted, -, hanswer⟩
      rw [habortedOk haborted hanswer] at hended
      cases hended
  · refine iff_of_true (contract_rollBack (Or.inl (hran.committed.trans hcommitted))) ?_
    rintro ⟨hreturns, -⟩
    cases hreturns

/-- **A client that is dead or in a transaction** starts no callback, and keeps the contract. -/
theorem contract_unusable_iff {dialect : Dialect} {serializable : Bool} {fn : Callback ω}
    (hunusable : client.dead = true ∨ client.inTransaction = true) :
    Contract client (dialect.transaction serializable fn a client) ↔
      ∀ conn, dialect.opened serializable a client = some conn → dialect.CallbackKept fn a conn := by
  have hnone : dialect.opened serializable a client = none := by
    unfold Dialect.opened
    rw [if_pos]
    simpa using hunusable
  have hcontract : Contract client (dialect.transaction serializable fn a client) := by
    unfold Dialect.transaction Postgres.transaction Sqlite.transaction
    by_cases hdead : client.dead = true
    · cases dialect <;> simp only [hdead, ↓reduceIte] <;>
        exact Contract.of_error rfl rfl (Or.inl hdead)
    · have hnested : client.inTransaction = true := hunusable.resolve_left hdead
      cases dialect <;> simp only [hdead, hnested, ↓reduceIte] <;>
        exact Contract.of_error rfl rfl (Or.inr (Or.inr ⟨hnested, rfl⟩))
  refine iff_of_true hcontract fun conn hopened => ?_
  rw [hnone] at hopened
  cases hopened

theorem contract_postgres_iff {serializable : Bool} {fn : Callback ω}
    (halive : client.dead = false) (hfree : client.inTransaction = false) (hready : client.Ready) :
    Contract client (Postgres.transaction serializable fn a client) ↔
      ∀ conn, Dialect.postgres.opened serializable a client = some conn →
        Dialect.postgres.CallbackKept fn a conn := by
  rw [Postgres.transaction, Dialect.opened]
  obtain ⟨hstart, hbegun, hidle⟩ := begin_postgres (hready halive hfree) a.onBegin
  simp only [halive, hfree, Bool.or_self, Bool.false_eq_true, ↓reduceIte, Dialect.exec]
  rcases hreply : (Postgres.exec .begin a.onBegin client.conn).1 with _ | serialization
  · have hinside := hstart hreply
    simp only [↓reduceIte, true_and]
    cases serializable with
    | false =>
      simp only [Bool.false_eq_true, ↓reduceIte, Option.some.injEq, forall_eq']
      refine contract_runAndCommit_iff ?_ hbegun
      rw [hinside]
    | true =>
      simp only [↓reduceIte]
      have hopened : (Postgres.exec .begin a.onBegin client.conn).2.state = .inside [] := by
        rw [hinside]
      rcases exec_postgres_inside .isolation a.onIsolation hopened (by simp) (by simp) with
        ⟨hok, hconn⟩ | ⟨⟨serialization, herror⟩, hcommitted, -⟩
      · simp only [hok, ↓reduceIte, Option.some.injEq, forall_eq']
        refine contract_runAndCommit_iff ?_ ?_
        · rw [hconn]
          rfl
        · rw [hconn]
          exact hbegun
      · simp only [herror, reduceCtorEq, ↓reduceIte]
        refine iff_of_true (contract_rollBack (Or.inl (hcommitted.trans hbegun))) ?_
        rintro _ ⟨⟩
  · simp only [reduceCtorEq, ↓reduceIte]
    cases serialization with
    | false =>
      refine iff_of_true (Contract.of_error rfl hbegun (Or.inl rfl)) ?_
      rintro _ ⟨⟩
    | true =>
      refine iff_of_true (Contract.of_error rfl hbegun (Or.inr (Or.inl (hidle hreply)))) ?_
      rintro _ ⟨⟩

/-- `COMMIT` on SQLite after a callback: one that has no transaction to end fails. -/
theorem commit_sqlite {ran : Ran ω} (answer : Answer) (h : InOrAfter conn [] ran) :
    let ended := Sqlite.exec .commit answer ran.conn
    (ended.1 = .ok → ended.2.state = .idle ∧ ran.stray = [] ∧
      ended.2.committed = conn.committed ++ ran.successful) ∧
    (∀ serialization, ended.1 = .error serialization →
      ended.2.committed = conn.committed ++ ran.stray ∧
          (ran.stray = [] ∨ ended.2.doubtful = conn.doubtful) ∨
        ran.stray = [] ∧ ended.2.doubtful = true ∧
          ended.2.committed = conn.committed ++ ran.successful) := by
  have hcommitted := h.committed
  have hdoubtful := h.doubtful
  rcases h.state with ⟨hinside, hnone⟩ | hidle
  · have hexec : Sqlite.exec .commit answer ran.conn =
        Sqlite.execCommit ran.successful ran.conn answer := by
      rw [Sqlite.exec, hinside]
      rfl
    rw [hnone, List.append_nil] at hcommitted
    rw [hexec, hnone]
    rcases answer with _ | _ | _ | applied | _
    · simp [Sqlite.execCommit, hcommitted]
    · simp [Sqlite.execCommit, hcommitted]
    · simp [Sqlite.execCommit, hcommitted]
    · cases applied <;> simp [Sqlite.execCommit, hcommitted]
    · simp [Sqlite.execCommit, hcommitted]
  · have hexec : Sqlite.exec .commit answer ran.conn = (.error false, ran.conn) := by
      rw [Sqlite.exec, hidle]
      rfl
    rw [hexec]
    refine ⟨fun hok => ?_, fun _ _ => Or.inl ⟨hcommitted, Or.inr hdoubtful⟩⟩
    cases hok

/-- `BEGIN` on SQLite. -/
theorem begin_sqlite (h : conn.state = .idle) (answer : Answer) :
    let begun := Sqlite.exec .begin answer conn
    begun.1 = .ok ∧ begun.2 = { conn with state := .inside [], doubtful := false } ∨
      (∃ serialization, begun.1 = .error serialization) ∧ begun.2 = conn := by
  have hexec : Sqlite.exec .begin answer conn = Sqlite.execIdle answer conn .begin := by
    rw [Sqlite.exec, h]
  rw [hexec]
  by_cases hok : answer = .ok
  · simp [Sqlite.execIdle, hok]
  · simp [Sqlite.execIdle, hok]

/-- A rejected transaction on SQLite, where what is committed is what was written outside of it. -/
theorem contract_stray_iff {error : TxError} {stray : List ω}
    (hcommitted : conn.committed = client.conn.committed ++ stray)
    (hsure : stray = [] ∨ conn.doubtful = false) :
    Contract client (rollBack .sqlite a client error successful conn) ↔ stray = [] := by
  constructor
  · intro hcontract
    by_contra hstray
    obtain ⟨⟨error', hresult⟩, -, hafter, hsame, -⟩ :=
      rollBack_spec .sqlite a client error successful conn
    rcases hcontract.rejected error' hresult with hnone | ⟨hambiguous, -⟩
    · rw [hafter, hcommitted] at hnone
      exact hstray (List.append_right_eq_self.mp hnone)
    · rw [hsame, hsure.resolve_left hstray] at hambiguous
      cases hambiguous
  · rintro rfl
    rw [List.append_nil] at hcommitted
    exact contract_rollBack (Or.inl hcommitted)

theorem contract_sqlite_iff {serializable : Bool} {fn : Callback ω}
    (halive : client.dead = false) (hfree : client.inTransaction = false) (hready : client.Ready) :
    Contract client (Sqlite.transaction fn a client) ↔
      ∀ conn, Dialect.sqlite.opened serializable a client = some conn →
        Dialect.sqlite.CallbackKept fn a conn := by
  rw [Sqlite.transaction, Dialect.opened]
  have hidle : client.conn.state = .idle := hready halive hfree
  simp only [halive, hfree, Bool.or_self, Bool.false_eq_true, ↓reduceIte, Dialect.exec]
  rcases begin_sqlite hidle a.onBegin with ⟨hok, hbegun⟩ | ⟨⟨serialization, herror⟩, hbegun⟩
  · simp only [hok, hbegun, ↓reduceIte, reduceCtorEq, false_and, Option.some.injEq, forall_eq',
      Dialect.CallbackKept]
    have hran : InOrAfter { client.conn with state := .inside [], doubtful := false } []
        (fn.run .sqlite a.onStatement 0
          { client.conn with state := .inside [], doubtful := false }) :=
      ran_sqlite fn 0 _ rfl
    have hcommit := commit_sqlite a.onCommit hran
    generalize fn.run .sqlite a.onStatement 0
      { client.conn with state := .inside [], doubtful := false } = ran at hran hcommit ⊢
    rcases hreply : ran.reply with _ | serialization
    · rcases hended : (Sqlite.exec .commit a.onCommit ran.conn).1 with _ | serialization
      · obtain ⟨hafter, hstray, hall⟩ := hcommit.1 hended
        exact iff_of_true (Contract.of_ok rfl hall hafter) hstray
      · rcases hcommit.2 serialization hended with ⟨hall, hdoubtful⟩ | ⟨hstray, hambiguous, hall⟩
        · exact contract_stray_iff hall hdoubtful
        · exact iff_of_true (contract_rollBack (Or.inr ⟨hambiguous, hall⟩)) hstray
    · exact contract_stray_iff hran.committed (Or.inr hran.doubtful)
  · simp only [herror, hbegun, reduceCtorEq, ↓reduceIte]
    refine iff_of_true (Contract.of_error rfl rfl (Or.inr (Or.inl hidle))) ?_
    rintro _ ⟨⟩

end Contract

/-- **`transaction()` keeps its contract if and only if the callback keeps to its part**: on either
database, for every callback, whichever statements fail, and whatever becomes of `BEGIN`, `COMMIT` and
`ROLLBACK`. -/
theorem transaction_contract_iff (dialect : Dialect) (serializable : Bool) (fn : Callback ω)
    (a : Answers) {client : DbClient ω} (hready : client.Ready) :
    Contract client (dialect.transaction serializable fn a client) ↔
      ∀ conn, dialect.opened serializable a client = some conn → dialect.CallbackKept fn a conn := by
  by_cases hunusable : client.dead = true ∨ client.inTransaction = true
  · exact contract_unusable_iff hunusable
  obtain ⟨hdead, hnested⟩ := not_or.mp hunusable
  have halive : client.dead = false := Bool.eq_false_iff.mpr hdead
  have hfree : client.inTransaction = false := Bool.eq_false_iff.mpr hnested
  cases dialect with
  | postgres => exact contract_postgres_iff halive hfree hready
  | sqlite => exact contract_sqlite_iff halive hfree hready

/-- A callback that swallows the failure of its second write, and returns. -/
def swallowing : Callback String :=
  .write "feature_runs" (.write "workflow_events" .returns .returns) .returns

/-- On PostgreSQL the second write fails where `refused`. -/
def secondWrite (answer : Answer) : Answers :=
  { onStatement := fun n => if n = 1 then answer else .ok }

/-- When neither write fails, both are committed. -/
theorem transaction_contract_iff_swallowing :
    Contract {} (Dialect.postgres.transaction false swallowing (secondWrite .ok) {}) := by
  have hready : DbClient.Ready ({} : DbClient String) := fun _ _ => rfl
  refine (transaction_contract_iff .postgres false swallowing (secondWrite .ok) hready).mpr ?_
  intro conn hopened
  obtain rfl := Option.some.inj hopened
  rintro ⟨-, haborted, -⟩
  cases haborted

/-- When the second write fails, `transaction()` of the PostgreSQL client resolves and the first write
is lost; on SQLite, a write that follows a failure which has rolled the transaction back stays, and
`transaction()` rejects. -/
theorem not_contract_swallowing :
    ¬ Contract {} (Dialect.postgres.transaction false swallowing (secondWrite (.refused false)) {}) ∧
      ¬ Contract {} (Dialect.sqlite.transaction false
        (.query .returns (.write "workflow_events" .returns .returns))
        { onStatement := fun n => if n = 0 then .rolledBack else .ok } {}) := by
  constructor
  · intro hcontract
    have hresolved := hcontract.resolved rfl
    exact absurd hresolved (by decide)
  · intro hcontract
    exact absurd (hcontract.rejected .rollbackFailed rfl) (by decide)

end MiniCoder
