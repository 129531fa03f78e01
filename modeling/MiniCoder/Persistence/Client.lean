import MiniCoder.Library.Action
import MiniCoder.Persistence.Db

/-!
# The database client

`Sql` is an action on a database connection: it reads and writes the tables, reads the clock, draws
ids, and throws.  What the process cannot decide is in `Runtime`: the clock, the ids `generateId`
returns (they may collide), which statements the database refuses (a foreign key, a lost connection,
a refused `COMMIT`), the regular-expression rewriting of `SecretRedactor.redact`,
and the blocking labels that the environment may set.

`transaction` puts the tables back when its body throws or its `COMMIT` is refused.

* `query_ok`, `execute_ok`, `transaction_ok`, `transaction_error`: what each left behind.
* `frame_query`, `frame_execute`, `frame_transaction`: what each leaves alone.
* `Session.Willing`: a connection that the database refuses nothing; `returns_query`,
  `returns_execute`, `returns_transaction`: what a statement leaves there.
-/

open Storage Storage.Action

namespace MiniCoder

/-- The database behind a client. -/
inductive Dialect
  | sqlite
  | postgres
  deriving DecidableEq, Repr

/-- What a running process takes from outside. -/
structure Runtime where
  /-- `Date.now()`. -/
  now : ℤ
  /-- The successive results of `generateId()`. -/
  ids : ℕ → String
  /-- Whether the database refuses the `n`-th statement. -/
  refused : ℕ → Bool := fun _ => false
  /-- `SecretRedactor.redact`. -/
  redact : String → String := id
  /-- `resolveBlockingLabelsPolicy()`: the default, unless the environment sets another list. -/
  blockingLabelsPolicy : List String := ["do-not-merge", "wip", "blocked"]
  /-- `String.prototype.toLowerCase`. -/
  toLowerCase : String → String := String.toLower

/-- A connection: the tables, the runtime, and how many ids and statements were used. -/
structure Session where
  db : Db
  runtime : Runtime
  drawn : ℕ := 0
  issued : ℕ := 0

/-- A new connection of a process to the database. -/
def Session.start (db : Db) (runtime : Runtime) : Session := { db, runtime }

@[simp] theorem Session.start_db (db : Db) (runtime : Runtime) :
    (Session.start db runtime).db = db := rfl

@[simp] theorem Session.start_runtime (db : Db) (runtime : Runtime) :
    (Session.start db runtime).runtime = runtime := rfl

/-- A computation on a connection. -/
abbrev Sql := Action Failure Session

/-! ### Statements -/

/-- `isoNow()`. -/
def isoNow : Sql ℤ := read (·.runtime.now)

/-- `ttlIso(ms)`. -/
def ttlIso (ms : ℤ) : Sql ℤ := read (·.runtime.now + ms)

/-- `generateId()`. -/
def generateId : Sql String := statement fun s =>
  .ok (s.runtime.ids s.drawn, { s with drawn := s.drawn + 1 })

/-- A `SELECT`. -/
def query {α : Type} (f : Db → α) : Sql α := statement fun s =>
  if s.runtime.refused s.issued then .error .database
  else .ok (f s.db, { s with issued := s.issued + 1 })

/-- An `INSERT`, `UPDATE` or `DELETE`: `none` when a constraint refuses it. -/
def execute {α : Type} (f : Db → Option (α × Db)) : Sql α := statement fun s =>
  if s.runtime.refused s.issued then .error .database
  else match f s.db with
    | some (a, db) => .ok (a, { s with db := db, issued := s.issued + 1 })
    | none => .error .database

/-- `db.transaction(fn)`: a body that throws, or a refused `COMMIT`, puts the tables back. -/
def transaction {α : Type} (body : Sql α) : Sql α :=
  atomically (fun before after => { after with db := before.db }) do
    let a ← body
    execute fun db => some ((), db)
    pure a

/-- Throws the error of a failed computation. -/
def orThrow {α : Type} : Except Failure α → Sql α
  | .ok a => pure a
  | .error e => throw e

/-- `INSERT INTO … VALUES …`. -/
def insertInto {ρ : Type} [Row ρ] (table : TableOf Db ρ) (row : ρ) : Sql Unit :=
  execute fun db => ((table.get db).insert? row).map fun t => ((), table.put db t)

/-- `UPDATE … SET … WHERE …`, with the number of rows it matched. -/
def updateWhere {ρ : Type} [Row ρ] (table : TableOf Db ρ) (p : ρ → Bool) (f : ρ → ρ)
    (hf : KeyFree f) : Sql ℕ :=
  execute fun db => some ((table.get db).count p, table.put db ((table.get db).update p f hf))

/-- A loop of `INSERT`s, from the value at `index` on: each row has an id of its own. -/
def insertEachFrom {ρ α : Type} [Row ρ] (table : TableOf Db ρ) (row : String → ℕ → α → ρ)
    (index : ℕ) : List α → Sql Unit
  | [] => pure ()
  | a :: as => do
    let id ← generateId
    insertInto table (row id index a)
    insertEachFrom table row (index + 1) as

/-- A check of what a `SELECT` returned. -/
def require {α : Type} (check : Db → Except Failure α) : Sql α := do
  let outcome ← query check
  orThrow outcome

/-! ### What a statement did -/

variable {α β τ : Type}

@[simp] theorem exec_isoNow (s : Session) : exec isoNow s = (.ok s.runtime.now, s) := rfl

@[simp] theorem exec_ttlIso (ms : ℤ) (s : Session) :
    exec (ttlIso ms) s = (.ok (s.runtime.now + ms), s) := rfl

@[simp] theorem exec_generateId (s : Session) :
    exec generateId s = (.ok (s.runtime.ids s.drawn), { s with drawn := s.drawn + 1 }) := rfl

theorem query_ok {f : Db → α} {s s' : Session} {a : α} (h : exec (query f) s = (.ok a, s')) :
    a = f s.db ∧ s'.db = s.db ∧ s'.runtime = s.runtime := by
  rw [query, exec_statement] at h
  by_cases hr : s.runtime.refused s.issued = true
  · simp [hr] at h
  · simp only [hr] at h
    obtain ⟨h₁, h₂⟩ := Prod.mk.inj h
    obtain rfl := Except.ok.inj h₁
    subst h₂
    exact ⟨rfl, rfl, rfl⟩

theorem execute_ok {f : Db → Option (α × Db)} {s s' : Session} {a : α}
    (h : exec (execute f) s = (.ok a, s')) :
    f s.db = some (a, s'.db) ∧ s'.runtime = s.runtime := by
  rw [execute, exec_statement] at h
  by_cases hr : s.runtime.refused s.issued = true
  · simp [hr] at h
  · simp only [hr] at h
    rcases hf : f s.db with _ | ⟨b, db⟩
    · simp [hf] at h
    · simp only [hf] at h
      obtain ⟨h₁, h₂⟩ := Prod.mk.inj h
      obtain rfl := Except.ok.inj h₁
      subst h₂
      exact ⟨rfl, rfl⟩

/-- A statement throws only when the database refuses it. -/
theorem query_error {f : Db → α} {s s' : Session} {e : Failure}
    (h : exec (query f) s = (.error e, s')) : e = .database := by
  rw [query, exec_statement] at h
  by_cases hr : s.runtime.refused s.issued = true
  · simp only [hr, if_true] at h
    exact (Except.error.inj (Prod.mk.inj h).1).symm
  · simp [hr] at h

theorem execute_error {f : Db → Option (α × Db)} {s s' : Session} {e : Failure}
    (h : exec (execute f) s = (.error e, s')) : e = .database := by
  rw [execute, exec_statement] at h
  by_cases hr : s.runtime.refused s.issued = true
  · simp only [hr, if_true] at h
    exact (Except.error.inj (Prod.mk.inj h).1).symm
  · rcases hf : f s.db with _ | ⟨b, db⟩
    · simp only [hr, hf] at h
      exact (Except.error.inj (Prod.mk.inj h).1).symm
    · simp [hr, hf] at h

/-- A statement that failed changed no table. -/
theorem execute_cases {f : Db → Option (α × Db)} {s s' : Session} {r : Except Failure α}
    (h : exec (execute f) s = (r, s')) : s'.db = s.db ∨ ∃ a, f s.db = some (a, s'.db) := by
  rcases r with e | a
  · left
    rw [execute, exec_statement] at h
    by_cases hr : s.runtime.refused s.issued = true
    · simp only [hr] at h
      rw [← (Prod.mk.inj h).2]
    · rcases hf : f s.db with _ | ⟨b, db⟩
      · simp only [hr, hf] at h
        rw [← (Prod.mk.inj h).2]
      · simp [hr, hf] at h
  · exact Or.inr ⟨a, (execute_ok h).1⟩

theorem orThrow_ok {r : Except Failure α} {s s' : Session} {a : α}
    (h : exec (orThrow r) s = (.ok a, s')) : r = .ok a ∧ s' = s := by
  rcases r with e | b
  · simp [orThrow] at h
  · simp only [orThrow, exec_pure, Prod.mk.injEq, Except.ok.injEq] at h
    exact ⟨by rw [h.1], h.2.symm⟩

/-- A committed transaction ran its body to the end. -/
theorem transaction_ok {body : Sql α} {s s' : Session} {a : α}
    (h : exec (transaction body) s = (.ok a, s')) :
    ∃ s₁, exec body s = (.ok a, s₁) ∧ s'.db = s₁.db ∧ s'.runtime = s₁.runtime := by
  obtain ⟨b, s₁, hbody, hrest⟩ := exec_bind_ok.mp (exec_atomically_ok.mp h)
  obtain ⟨u, s₂, hcommit, hpure⟩ := exec_bind_ok.mp hrest
  obtain ⟨hdb, hrt⟩ := execute_ok hcommit
  simp only [exec_pure, Prod.mk.injEq, Except.ok.injEq] at hpure
  obtain ⟨rfl, rfl⟩ := hpure
  simp only [Option.some.injEq, Prod.mk.injEq, true_and] at hdb
  exact ⟨s₁, hbody, hdb.symm, hrt⟩

/-- **A transaction that throws leaves every table as it was.** -/
theorem transaction_error {body : Sql α} {s s' : Session} {e : Failure}
    (h : exec (transaction body) s = (.error e, s')) : s'.db = s.db := by
  obtain ⟨s₁, -, rfl⟩ := exec_atomically_error.mp h
  rfl

theorem insertInto_ok {ρ : Type} [Row ρ] {table : TableOf Db ρ} {row : ρ} {s s' : Session}
    (h : exec (insertInto table row) s = (.ok (), s')) :
    ∃ t, (table.get s.db).insert? row = some t ∧ s'.db = table.put s.db t ∧
      s'.runtime = s.runtime := by
  obtain ⟨hdb, hrt⟩ := execute_ok h
  obtain ⟨t, ht, hput⟩ := Option.map_eq_some_iff.mp hdb
  exact ⟨t, ht, (Prod.mk.inj hput).2.symm, hrt⟩

theorem updateWhere_ok {ρ : Type} [Row ρ] {table : TableOf Db ρ} {p : ρ → Bool} {f : ρ → ρ}
    {hf : KeyFree f} {n : ℕ} {s s' : Session}
    (h : exec (updateWhere table p f hf) s = (.ok n, s')) :
    n = (table.get s.db).count p ∧ s'.db = table.put s.db ((table.get s.db).update p f hf) ∧
      s'.runtime = s.runtime := by
  obtain ⟨hdb, hrt⟩ := execute_ok h
  obtain ⟨hn, hput⟩ := Prod.mk.inj (Option.some.inj hdb)
  exact ⟨hn.symm, hput.symm, hrt⟩

theorem require_ok {check : Db → Except Failure α} {a : α} {s s' : Session}
    (h : exec (require check) s = (.ok a, s')) :
    check s.db = .ok a ∧ s'.db = s.db ∧ s'.runtime = s.runtime := by
  obtain ⟨outcome, s₁, hquery, hthrow⟩ := exec_bind_ok.mp h
  obtain ⟨rfl, hdb, hrt⟩ := query_ok hquery
  obtain ⟨hok, rfl⟩ := orThrow_ok hthrow
  exact ⟨hok, hdb, hrt⟩

/-- The rows that a loop of `INSERT`s has added. -/
theorem insertEachFrom_ok {ρ : Type} [Row ρ] {table : TableOf Db ρ} {row : String → ℕ → α → ρ}
    {index : ℕ} {as : List α} {s s' : Session}
    (h : exec (insertEachFrom table row index as) s = (.ok (), s')) :
    ∃ fresh, (table.get s'.db).rows = (table.get s.db).rows ++ fresh ∧
      (∀ r ∈ fresh, ∃ a ∈ as, ∃ id n, r = row id n a) ∧
      ∀ a ∈ as, ∃ r ∈ fresh, ∃ id n, r = row id n a := by
  induction as generalizing index s with
  | nil =>
    obtain ⟨-, rfl⟩ := Prod.mk.inj h
    exact ⟨[], (List.append_nil _).symm, by simp, by simp⟩
  | cons a as ih =>
    obtain ⟨id, s₁, hid, h₁⟩ := exec_bind_ok.mp h
    obtain ⟨-, rfl⟩ := Prod.mk.inj hid
    obtain ⟨_, s₂, hinsert, h₂⟩ := exec_bind_ok.mp h₁
    obtain ⟨t, ht, hdb, -⟩ := insertInto_ok hinsert
    obtain ⟨fresh, hrows, hfresh, hall⟩ := ih h₂
    refine ⟨row id index a :: fresh, ?_, fun r hr => ?_, fun b hb => ?_⟩
    · rw [hrows, hdb, table.get_put, Table.rows_insert? ht, List.append_assoc]
      rfl
    · rcases List.mem_cons.mp hr with rfl | hr
      · exact ⟨a, List.mem_cons_self, id, index, rfl⟩
      · obtain ⟨b, hb, hrow⟩ := hfresh r hr
        exact ⟨b, List.mem_cons_of_mem _ hb, hrow⟩
    · rcases List.mem_cons.mp hb with rfl | hb
      · exact ⟨_, List.mem_cons_self, id, index, rfl⟩
      · obtain ⟨r, hr, hrow⟩ := hall b hb
        exact ⟨r, List.mem_cons_of_mem _ hr, hrow⟩

/-! ### What a statement throws -/

section Fails

variable {p : Failure → Prop}

theorem fails_generateId : Fails p generateId := by
  intro s e s' h
  simp at h

theorem fails_query (h : p .database) (f : Db → α) : Fails p (query f) := by
  intro s e s' hexec
  rw [query_error hexec]
  exact h

theorem fails_execute (h : p .database) (f : Db → Option (α × Db)) : Fails p (execute f) := by
  intro s e s' hexec
  rw [execute_error hexec]
  exact h

theorem fails_orThrow {r : Except Failure α} (h : ∀ e, r = .error e → p e) : Fails p (orThrow r) := by
  rcases r with e | a
  · exact fails_throw (h e rfl)
  · exact fails_pure a

theorem fails_require {check : Db → Except Failure α} (h : p .database)
    (hcheck : ∀ db e, check db = .error e → p e) : Fails p (require check) := by
  intro s e s' hexec
  rcases exec_bind_error.mp hexec with hquery | ⟨outcome, s₁, hquery, hthrow⟩
  · rw [query_error hquery]
    exact h
  · obtain ⟨houtcome, -⟩ := query_ok hquery
    exact fails_orThrow (fun e he => hcheck s.db e (houtcome.symm.trans he)) hthrow

/-- A transaction throws what its body throws, or at its commit. -/
theorem fails_transaction {body : Sql α} (h : p .database) (hbody : Fails p body) :
    Fails p (transaction body) :=
  fails_atomically (fails_bind hbody fun _ => fails_bind (fails_execute h _) fun _ => fails_pure _)

end Fails

/-! ### What a statement leaves alone -/

/-- A view that sees the tables and the runtime only. -/
def SeesData (π : Session → τ) : Prop :=
  ∀ s n m, π { s with drawn := n, issued := m } = π s

theorem frame_isoNow {π : Session → τ} : Frame π isoNow := fun _ => rfl

theorem frame_ttlIso {π : Session → τ} (ms : ℤ) : Frame π (ttlIso ms) := fun _ => rfl

theorem frame_generateId {π : Session → τ} (hπ : SeesData π) : Frame π generateId := fun s =>
  hπ s (s.drawn + 1) s.issued

theorem frame_orThrow {π : Session → τ} (r : Except Failure α) : Frame π (orThrow r) := by
  rcases r with e | a
  · exact frame_throw e
  · exact frame_pure a

theorem frame_query {π : Session → τ} (hπ : SeesData π) (f : Db → α) : Frame π (query f) := by
  refine frame_statement fun s a s' h => ?_
  by_cases hr : s.runtime.refused s.issued = true
  · simp [hr] at h
  · simp only [hr] at h
    obtain ⟨-, rfl⟩ := Prod.mk.inj (Except.ok.inj h)
    exact hπ s s.drawn (s.issued + 1)

/-- A statement leaves a view alone when the change of the tables does. -/
theorem frame_execute {π : Session → τ} (hπ : SeesData π) {f : Db → Option (α × Db)}
    (hf : ∀ s a db, f s.db = some (a, db) → π { s with db := db } = π s) :
    Frame π (execute f) := by
  refine frame_statement fun s a s' h => ?_
  by_cases hr : s.runtime.refused s.issued = true
  · simp [hr] at h
  · simp only [hr] at h
    rcases hdb : f s.db with _ | ⟨b, db⟩
    · simp [hdb] at h
    · simp only [hdb] at h
      obtain ⟨-, rfl⟩ := Prod.mk.inj (Except.ok.inj h)
      exact (hπ { s with db := db } s.drawn (s.issued + 1)).trans (hf s b db hdb)

theorem frame_insertInto {π : Session → τ} (hπ : SeesData π) {ρ : Type} [Row ρ]
    {table : TableOf Db ρ} (hput : ∀ s t, π { s with db := table.put s.db t } = π s) (row : ρ) :
    Frame π (insertInto table row) := by
  refine frame_execute hπ fun s _ db h => ?_
  obtain ⟨t, -, ht⟩ := Option.map_eq_some_iff.mp h
  rw [← (Prod.mk.inj ht).2]
  exact hput s t

theorem frame_updateWhere {π : Session → τ} (hπ : SeesData π) {ρ : Type} [Row ρ]
    {table : TableOf Db ρ} (hput : ∀ s t, π { s with db := table.put s.db t } = π s)
    {p : ρ → Bool} {f : ρ → ρ} (hf : KeyFree f) : Frame π (updateWhere table p f hf) := by
  refine frame_execute hπ fun s _ db h => ?_
  rw [← (Prod.mk.inj (Option.some.inj h)).2]
  exact hput s _

theorem frame_require {π : Session → τ} (hπ : SeesData π) (check : Db → Except Failure α) :
    Frame π (require check) :=
  frame_bind (frame_query hπ check) fun _ => frame_orThrow _

theorem frame_insertEachFrom {π : Session → τ} (hπ : SeesData π) {ρ : Type} [Row ρ]
    {table : TableOf Db ρ} (hput : ∀ s t, π { s with db := table.put s.db t } = π s)
    {row : String → ℕ → α → ρ} {index : ℕ} {as : List α} :
    Frame π (insertEachFrom table row index as) := by
  induction as generalizing index with
  | nil => exact frame_pure _
  | cons a as ih =>
    exact frame_bind (frame_generateId hπ) fun _ => frame_bind (frame_insertInto hπ hput _)
      fun _ => ih

/-- The body of a transaction with its `COMMIT`. -/
theorem frame_commit {π : Session → τ} (hπ : SeesData π) {body : Sql α} (h : Frame π body) :
    Frame π (do let a ← body; execute (fun db => some ((), db)); pure a) := by
  refine frame_bind h fun a => frame_bind (frame_execute hπ fun s _ db hdb => ?_) fun _ =>
    frame_pure a
  simp only [Option.some.injEq, Prod.mk.injEq, true_and] at hdb
  rw [← hdb]

/-- A transaction leaves alone the tables its body leaves alone. -/
theorem frame_transaction {g : Db → τ} {body : Sql α}
    (h : Frame (fun s : Session => g s.db) body) :
    Frame (fun s : Session => g s.db) (transaction body) :=
  frame_atomically (frame_commit (fun _ _ _ => rfl) h) fun _ _ => rfl

theorem frame_transaction_runtime {body : Sql α} (h : Frame Session.runtime body) :
    Frame Session.runtime (transaction body) := by
  intro s
  rcases he : exec (transaction body) s with ⟨e | a, s'⟩
  · obtain ⟨s₁, hs₁, rfl⟩ := exec_atomically_error.mp he
    have hrt : s₁.runtime = s.runtime := (frame_commit (fun _ _ _ => rfl) h).of_exec hs₁
    exact hrt
  · obtain ⟨s₁, hs₁, -, hrt⟩ := transaction_ok he
    exact hrt.trans (h.of_exec hs₁)

/-! ### Statements that the database takes -/

/-- The database refuses none of the statements of the connection. -/
def Session.Willing (s : Session) : Prop := ∀ n, s.runtime.refused n = false

/-- `s'` comes of `s` by statements that changed no table. -/
structure Session.Reads (s s' : Session) : Prop where
  db : s'.db = s.db
  runtime : s'.runtime = s.runtime
  drawn : s'.drawn = s.drawn

namespace Session.Reads

variable {s s' s'' : Session}

theorem refl (s : Session) : s.Reads s := ⟨rfl, rfl, rfl⟩

theorem trans (h : s.Reads s') (h' : s'.Reads s'') : s.Reads s'' :=
  ⟨h'.db.trans h.db, h'.runtime.trans h.runtime, h'.drawn.trans h.drawn⟩

theorem willing (h : s.Reads s') (hs : s.Willing) : s'.Willing := by
  intro n
  rw [h.runtime]
  exact hs n

end Session.Reads

section Willing

variable {s : Session}

theorem returns_query (hs : s.Willing) (f : Db → α) :
    Returns (query f) s fun a s' => a = f s.db ∧ s.Reads s' := by
  refine ⟨f s.db, { s with issued := s.issued + 1 }, ?_, rfl, rfl, rfl, rfl⟩
  rw [query, exec_statement, hs s.issued]
  rfl

theorem returns_execute (hs : s.Willing) {f : Db → Option (α × Db)} {a : α} {db : Db}
    (hf : f s.db = some (a, db)) :
    Returns (execute f) s fun a' s' => a' = a ∧ s'.db = db ∧ s'.runtime = s.runtime ∧
      s'.drawn = s.drawn := by
  refine ⟨a, { s with db := db, issued := s.issued + 1 }, ?_, rfl, rfl, rfl, rfl⟩
  rw [execute, exec_statement, hs s.issued, hf]
  rfl

theorem returns_generateId : Returns generateId s fun id s' =>
    id = s.runtime.ids s.drawn ∧ s'.db = s.db ∧ s'.runtime = s.runtime ∧
      s'.drawn = s.drawn + 1 :=
  ⟨_, _, rfl, rfl, rfl, rfl, rfl⟩

theorem returns_isoNow : Returns isoNow s fun now s' => now = s.runtime.now ∧ s' = s :=
  returns_read ⟨rfl, rfl⟩

theorem returns_ttlIso (ms : ℤ) :
    Returns (ttlIso ms) s fun expiresAt s' => expiresAt = s.runtime.now + ms ∧ s' = s :=
  returns_read ⟨rfl, rfl⟩

theorem returns_orThrow {r : Except Failure α} {a : α} (h : r = .ok a) :
    Returns (orThrow r) s fun a' s' => a' = a ∧ s' = s := by
  rw [h]
  exact returns_pure ⟨rfl, rfl⟩

theorem returns_require (hs : s.Willing) {check : Db → Except Failure α} {a : α}
    (h : check s.db = .ok a) : Returns (require check) s fun a' s' => a' = a ∧ s.Reads s' := by
  refine (returns_query hs check).bind fun outcome s₁ ⟨houtcome, hreads⟩ => ?_
  refine (returns_orThrow (houtcome.trans h)).imp fun a' s₂ ⟨ha, hs₂⟩ => ?_
  subst hs₂
  exact ⟨ha, hreads⟩

/-- The `INSERT` of a row that breaks no constraint. -/
theorem returns_insert {ρ : Type} [Row ρ] (hs : s.Willing) (table : Db → Table ρ)
    (put : Db → Table ρ → Db) {row : ρ}
    (h : ∀ r ∈ (table s.db).rows, Row.clash r row = false) :
    Returns (execute fun db => ((table db).insert? row).map fun t => ((), put db t)) s
      fun _ s' => ∃ t, (table s.db).insert? row = some t ∧ s'.db = put s.db t ∧
        s'.runtime = s.runtime ∧ s'.drawn = s.drawn := by
  obtain ⟨t, ht⟩ := Table.insert?_isSome h
  have hf : ((table s.db).insert? row).map (fun t => ((), put s.db t)) = some ((), put s.db t) := by
    rw [ht]
    rfl
  exact (returns_execute hs hf).imp fun _ s' ⟨_, hdb, hrt, hdrawn⟩ => ⟨t, ht, hdb, hrt, hdrawn⟩

/-- A transaction whose body returns is committed. -/
theorem returns_transaction {body : Sql α} {Q : α → Session → Prop}
    (hbody : Returns body s fun a s' => s'.Willing ∧
      ∀ s'' : Session, s'.Reads s'' → Q a s'') : Returns (transaction body) s Q := by
  refine returns_atomically (hbody.bind fun a s₁ ⟨hs₁, hQ⟩ => ?_)
  refine (returns_execute hs₁ rfl).bind fun _ s₂ ⟨_, hdb, hrt, hdrawn⟩ => ?_
  exact returns_pure (hQ s₂ ⟨hdb, hrt, hdrawn⟩)

end Willing

end MiniCoder
