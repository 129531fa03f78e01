import Mathlib.Data.List.Nodup
import MiniCoder.Domain.Text
import MiniCoder.Library.LastWrite
import MiniCoder.Library.Regex
import MiniCoder.Library.Run
import MiniCoder.Persistence.Client

/-!
# The migration runner

`migrate` applies the scripts that `_migrations` does not name, in the order of their files, each in one
transaction with its row; `rollback` takes the last one back.  Processes run side by side on one
database: what one of them read may be old when it writes.

* `names_sorted`: names without a character up to `.` are in the order of their files.
* `Sound`: the database is at a level, and no process knows of more.
* `migrations_in_order`: the scripts are applied in order, without a gap, in any interleaving.
* `migrate_alone`, `rollback_alone`: a process that runs alone computes `migrate` or `rollback`.
* `migrate_of_run`: where `migrate` leads does not depend on what was run before.
-/

open Runs LastWrite

namespace MiniCoder.Migrations

/-! ### Names and files -/

/-- `String.prototype.endsWith`. -/
def endsWith (s suffix : String) : Bool := suffix.toList.isSuffixOf s.toList

/-- A string without an ending that it has. -/
def dropSuffix? (s suffix : String) : Option String :=
  if endsWith s suffix then
    some (String.ofList (s.toList.take (s.toList.length - suffix.toList.length)))
  else none

/-- The directory of the migrations: names and texts of its files. -/
structure Directory where
  files : List (String × String)
  nodup : (files.map Prod.fst).Nodup

/-- `readdirSync`. -/
def Directory.readdirSync (dir : Directory) : List String := dir.files.map Prod.fst

/-- `readFileSync`; a file that `existsSync` does not find is `none`. -/
def Directory.readFileSync (dir : Directory) (name : String) : Option String :=
  (dir.files.find? fun file => file.1 = name).map Prod.snd

/-- The dialect in the name of a file. -/
def dialectName : Dialect → String
  | .sqlite => "sqlite"
  | .postgres => "postgres"

/-- The end of the name of a migration's file. -/
def upSuffix (dialect : Dialect) : String := "." ++ dialectName dialect ++ ".sql"

def listMigrationFiles (dir : Directory) (dialect : Dialect) : List String :=
  sortBy utf16 (dir.readdirSync.filter fun f => endsWith f (upSuffix dialect))

/-- `filename.replace(/\.(sqlite|postgres)\.sql$/, '')`. -/
def migrationName (filename : String) : String :=
  ((dropSuffix? filename (upSuffix .sqlite)).or (dropSuffix? filename (upSuffix .postgres))).getD
    filename

/-- The file of the script that takes a migration back. -/
def downFile (name : String) (dialect : Dialect) : String :=
  name ++ ("." ++ dialectName dialect ++ ".down.sql")

/-- `/^\s*PRAGMA\s+foreign_keys\s*=\s*ON\s*;\s*/im`. -/
def pragma : List Regex.Piece :=
  [.lineStart isLineTerminator, .many isWhiteSpace 0, .text "PRAGMA".toList, .many isWhiteSpace 1,
    .text "foreign_keys".toList, .many isWhiteSpace 0, .text ['='], .many isWhiteSpace 0,
    .text ['O', 'N'], .many isWhiteSpace 0, .text [';'], .many isWhiteSpace 0]

/-- `replace(expression, '')` without the flag `g`: the first match goes. -/
def removeFirst (ignoreCase : Bool) (pieces : List Regex.Piece) :
    Option Char → Regex.Text → Regex.Text
  | prev, [] => ((Regex.ways ignoreCase pieces prev []).head?.map Prod.snd).getD []
  | prev, c :: text =>
    match (Regex.ways ignoreCase pieces prev (c :: text)).head? with
    | some (_, rest) => rest
    | none => c :: removeFirst ignoreCase pieces (some c) text

def sqlWithoutPragma (sql : String) : String :=
  String.ofList (removeFirst true pragma none sql.toList)

/-! ### The database -/

/-- A database: its own tables, and the names in `_migrations`, where that table exists. -/
structure Database (σ : Type) where
  schema : σ
  migrations : Option (List String)

/-- What the runner works on. `exec` is what the database makes of a script, or the error it throws. -/
structure Runner (σ : Type) where
  dir : Directory
  dialect : Dialect
  exec : String → σ → Except String σ

variable {σ : Type}

/-- `CREATE TABLE IF NOT EXISTS _migrations`. -/
def ensureMigrationsTable (db : Database σ) : Database σ :=
  { db with migrations := some (db.migrations.getD []) }

/-- `SELECT name FROM _migrations`. -/
def getApplied (db : Database σ) : Option (List String) := db.migrations

namespace Runner

variable (runner : Runner σ)

def files : List String := listMigrationFiles runner.dir runner.dialect

/-- The names of the migrations, in the order of their files. -/
def names : List String := runner.files.map migrationName

/-- The script of a file, as it is run. -/
def script (file : String) : String :=
  let sql := (runner.dir.readFileSync file).getD ""
  match runner.dialect with
  | .sqlite => sqlWithoutPragma sql
  | .postgres => sql

/-- The transaction of one migration: its script, and its row, whose name is the primary key. -/
def applyMigration (file : String) (db : Database σ) : Except String (Database σ) := do
  let schema ← runner.exec (runner.script file) db.schema
  match db.migrations with
  | none => throw "no such table: _migrations"
  | some rows =>
    if migrationName file ∈ rows then throw "UNIQUE constraint failed: _migrations.name"
    else return { schema, migrations := some (rows ++ [migrationName file]) }

/-- The transaction of a rollback. -/
def removeMigration (last sql : String) (db : Database σ) : Except String (Database σ) := do
  let schema ← runner.exec sql db.schema
  match db.migrations with
  | none => throw "no such table: _migrations"
  | some rows => return { schema, migrations := some (rows.filter fun name => name ≠ last) }

/-- The loop of `migrate`: how many it applied, or what a transaction threw. -/
def applyPending (applied : List String) : List String → Database σ → Except String ℕ × Database σ
  | [], db => (.ok 0, db)
  | file :: files, db =>
    if migrationName file ∈ applied then applyPending applied files db
    else
      match runner.applyMigration file db with
      | .error e => (.error e, db)
      | .ok db =>
        let (count, db) := applyPending applied files db
        (count.map (· + 1), db)

def migrate (db : Database σ) : Except String ℕ × Database σ :=
  let db := ensureMigrationsTable db
  runner.applyPending ((getApplied db).getD []) runner.files db

/-- `Array.from(applied).sort().pop()`. -/
def lastOf (applied : List String) : Option String := (sortBy utf16 applied).getLast?

/-- How a rollback ends, unless a transaction throws. -/
inductive RollbackResult
  | nothing
  | noDownMigration (file : String)
  | rolledBack (name : String)
  deriving DecidableEq, Repr

def rollback (db : Database σ) : Except String RollbackResult × Database σ :=
  let db := ensureMigrationsTable db
  match lastOf ((getApplied db).getD []) with
  | none => (.ok .nothing, db)
  | some last =>
    match runner.dir.readFileSync (downFile last runner.dialect) with
    | none => (.ok (.noDownMigration (downFile last runner.dialect)), db)
    | some sql =>
      match runner.removeMigration last sql db with
      | .error e => (.error e, db)
      | .ok db => (.ok (.rolledBack last), db)

/-- The lines of `status`: whether a migration is applied, and its name. -/
def status (db : Database σ) : List (Bool × String) :=
  runner.files.map fun file =>
    (decide (migrationName file ∈ db.migrations.getD []), migrationName file)

end Runner

/-! ### The order of the files -/

theorem endsWith_iff {s suffix : String} :
    endsWith s suffix = true ↔ ∃ name, s = name ++ suffix := by
  unfold endsWith
  rw [List.isSuffixOf_iff_suffix]
  constructor
  · rintro ⟨front, hfront⟩
    refine ⟨String.ofList front, String.toList_inj.mp ?_⟩
    rw [String.toList_append, String.toList_ofList, hfront]
  · rintro ⟨name, rfl⟩
    rw [String.toList_append]
    exact List.suffix_append _ _

theorem dropSuffix?_append (name suffix : String) :
    dropSuffix? (name ++ suffix) suffix = some name := by
  unfold dropSuffix?
  rw [if_pos (endsWith_iff.mpr ⟨name, rfl⟩), String.toList_append, List.length_append,
    Nat.add_sub_cancel, List.take_left', String.ofList_toList]
  rfl

theorem dropSuffix?_sqlite_postgres (name : String) :
    dropSuffix? (name ++ upSuffix .postgres) (upSuffix .sqlite) = none := by
  unfold dropSuffix?
  rw [if_neg]
  rw [endsWith_iff]
  rintro ⟨other, h⟩
  have hlists := congrArg (fun s : String => s.toList.reverse) h
  simp only [String.toList_append, List.reverse_append] at hlists
  have hends : (upSuffix .postgres).toList.reverse.take 5 = (upSuffix .sqlite).toList.reverse.take 5 := by
    have htake := congrArg (List.take 5) hlists
    rwa [List.take_append_of_le_length (by decide), List.take_append_of_le_length (by decide)] at htake
  exact absurd hends (by decide)

/-- The name of a migration's file, without its ending. -/
theorem migrationName_append (name : String) (dialect : Dialect) :
    migrationName (name ++ upSuffix dialect) = name := by
  unfold migrationName
  cases dialect with
  | sqlite => rw [dropSuffix?_append]; rfl
  | postgres => rw [dropSuffix?_sqlite_postgres, dropSuffix?_append]; rfl

namespace Runner

variable {runner : Runner σ}

theorem mem_files {file : String} : file ∈ runner.files ↔
    file ∈ runner.dir.readdirSync ∧ endsWith file (upSuffix runner.dialect) = true := by
  unfold files listMigrationFiles
  rw [(sortBy_perm utf16 _).mem_iff, List.mem_filter]

theorem eq_name_append {file : String} (h : file ∈ runner.files) :
    file = migrationName file ++ upSuffix runner.dialect := by
  obtain ⟨name, rfl⟩ := endsWith_iff.mp (mem_files.mp h).2
  rw [migrationName_append]

theorem files_sorted : runner.files.Pairwise fun a b => utf16 a < utf16 b := by
  apply sortBy_pairwise
  have hnodup : (runner.dir.readdirSync.filter fun f => endsWith f (upSuffix runner.dialect)).Nodup :=
    runner.dir.nodup.filter _
  exact hnodup.imp fun hne heq => hne (utf16_injective heq)

theorem names_nodup : runner.names.Nodup := by
  have hfiles : runner.files.Nodup := files_sorted.imp fun hlt heq => by
    rw [heq] at hlt
    exact lt_irrefl _ hlt
  refine hfiles.map_on fun a ha b hb hab => ?_
  rw [eq_name_append ha, eq_name_append hb, hab]

/-- Every character of a name comes after the `.` of the endings. -/
def PlainNames (runner : Runner σ) : Prop :=
  ∀ name ∈ runner.names, ∀ c ∈ name.toList, '.'.toNat < c.toNat

/-- **The order of the files is the order of the names.** -/
theorem names_sorted (hplain : runner.PlainNames) :
    runner.names.Pairwise fun a b => utf16 a < utf16 b := by
  unfold names
  rw [List.pairwise_map]
  refine files_sorted.imp_of_mem fun {a b} ha hb hlt => ?_
  have hstart : (upSuffix runner.dialect).toList = '.' :: (upSuffix runner.dialect).toList.tail := by
    cases runner.dialect <;> decide
  rw [eq_name_append ha, eq_name_append hb] at hlt
  exact (utf16_lt_append_iff hstart (by decide) (hplain _ (List.mem_map_of_mem ha))
    (hplain _ (List.mem_map_of_mem hb))).mp hlt

/-- The last of the applied migrations is the one a rollback takes. -/
theorem lastOf_take (hplain : runner.PlainNames) (k : ℕ) :
    lastOf (runner.names.take k) = (runner.names.take k).getLast? := by
  have hsorted := (names_sorted hplain).sublist (List.take_sublist k _)
  unfold lastOf sortBy
  rw [List.Pairwise.insertionSort_eq]
  exact hsorted.imp le_of_lt

/-! ### Levels -/

/-- What the first `k` scripts make of a schema. -/
def schemaAt (runner : Runner σ) (start : σ) (k : ℕ) : Except String σ :=
  (runner.files.take k).foldlM (fun schema file => runner.exec (runner.script file) schema) start

/-- The first `k` migrations are applied, and no other one. -/
structure AtLevel (runner : Runner σ) (start : σ) (k : ℕ) (db : Database σ) : Prop where
  le : k ≤ runner.files.length
  applied : db.migrations.getD [] = runner.names.take k
  schema : runner.schemaAt start k = .ok db.schema

/-- A down script that succeeds gives back the schema that its migration was applied to. -/
def Undoes (runner : Runner σ) (start : σ) : Prop :=
  ∀ k file before after sql schema, runner.files[k]? = some file →
    runner.schemaAt start k = .ok before → runner.exec (runner.script file) before = .ok after →
    runner.dir.readFileSync (downFile (migrationName file) runner.dialect) = some sql →
    runner.exec sql after = .ok schema → schema = before

variable {start : σ} {k : ℕ} {db db' : Database σ} {file : String}

theorem schemaAt_succ (hfile : runner.files[k]? = some file) :
    runner.schemaAt start (k + 1) =
      runner.schemaAt start k >>= fun schema => runner.exec (runner.script file) schema := by
  unfold schemaAt
  rw [List.take_add_one, hfile, Option.toList_some, List.foldlM_append]
  apply bind_congr
  intro schema
  rw [List.foldlM_cons]
  exact bind_pure _

theorem names_getElem? : runner.names[k]? = runner.files[k]?.map migrationName := List.getElem?_map

theorem take_names_succ (hfile : runner.files[k]? = some file) :
    runner.names.take (k + 1) = runner.names.take k ++ [migrationName file] := by
  rw [List.take_add_one, names_getElem?, hfile]
  rfl

theorem not_mem_take (hfile : runner.files[k]? = some file) :
    migrationName file ∉ runner.names.take k := by
  have hall : runner.names.Nodup := names_nodup
  have hnodup := hall.sublist (List.take_sublist (k + 1) _)
  rw [take_names_succ hfile, List.nodup_append] at hnodup
  intro hmem
  exact hnodup.2.2 _ hmem _ List.mem_cons_self rfl

theorem AtLevel.ensure (h : runner.AtLevel start k db) :
    runner.AtLevel start k (ensureMigrationsTable db) :=
  ⟨h.le, h.applied, h.schema⟩

/-! ### Transactions -/

theorem applyMigration_ok : runner.applyMigration file db = .ok db' ↔
    ∃ rows schema, db.migrations = some rows ∧ migrationName file ∉ rows ∧
      runner.exec (runner.script file) db.schema = .ok schema ∧
      db' = { schema, migrations := some (rows ++ [migrationName file]) } := by
  unfold applyMigration
  cases hexec : runner.exec (runner.script file) db.schema with
  | error e => simp [bind, Except.bind]
  | ok schema =>
    cases hrows : db.migrations with
    | none => simp [bind, Except.bind, throw, throwThe, MonadExceptOf.throw]
    | some rows =>
      by_cases hmem : migrationName file ∈ rows
      · simp [bind, Except.bind, throw, throwThe, MonadExceptOf.throw, hmem]
      · simp [bind, Except.bind, pure, Except.pure, hmem, eq_comm]

theorem removeMigration_ok {last sql : String} : runner.removeMigration last sql db = .ok db' ↔
    ∃ rows schema, db.migrations = some rows ∧ runner.exec sql db.schema = .ok schema ∧
      db' = { schema, migrations := some (rows.filter fun name => name ≠ last) } := by
  unfold removeMigration
  cases hexec : runner.exec sql db.schema with
  | error e => simp [bind, Except.bind]
  | ok schema =>
    cases hrows : db.migrations with
    | none => simp [bind, Except.bind, throw, throwThe, MonadExceptOf.throw]
    | some rows => simp [bind, Except.bind, pure, Except.pure, eq_comm]

/-- The next script leads to the next level. -/
theorem AtLevel.apply (h : runner.AtLevel start k db) (hfile : runner.files[k]? = some file)
    (happly : runner.applyMigration file db = .ok db') : runner.AtLevel start (k + 1) db' := by
  obtain ⟨rows, schema, hrows, -, hexec, rfl⟩ := applyMigration_ok.mp happly
  have happlied := h.applied
  rw [hrows, Option.getD_some] at happlied
  refine ⟨(List.getElem?_eq_some_iff.mp hfile).1, ?_, ?_⟩
  · show rows ++ [migrationName file] = _
    rw [take_names_succ hfile, happlied]
  · rw [schemaAt_succ hfile, h.schema]
    exact hexec

/-- A script that was applied already is refused, because of its row. -/
theorem AtLevel.le_of_apply (h : runner.AtLevel start k db) {j : ℕ}
    (hfile : runner.files[j]? = some file) (happly : runner.applyMigration file db = .ok db') :
    k ≤ j := by
  obtain ⟨rows, schema, hrows, hnot, -, -⟩ := applyMigration_ok.mp happly
  have happlied := h.applied
  rw [hrows, Option.getD_some] at happlied
  by_contra hlt
  apply hnot
  rw [happlied, List.mem_take_iff_getElem]
  have hname : runner.names[j]? = some (migrationName file) := by rw [names_getElem?, hfile]; rfl
  obtain ⟨hj, hget⟩ := List.getElem?_eq_some_iff.mp hname
  exact ⟨j, by omega, hget⟩

/-- A down script leads one level down. -/
theorem AtLevel.remove (hundo : runner.Undoes start) (h : runner.AtLevel start (k + 1) db)
    {sql : String} (hfile : runner.files[k]? = some file)
    (hdown : runner.dir.readFileSync (downFile (migrationName file) runner.dialect) = some sql)
    (hremove : runner.removeMigration (migrationName file) sql db = .ok db') :
    runner.AtLevel start k db' := by
  obtain ⟨rows, schema, hrows, hexec, rfl⟩ := removeMigration_ok.mp hremove
  have happlied := h.applied
  rw [hrows, Option.getD_some, take_names_succ hfile] at happlied
  have hschema := h.schema
  rw [schemaAt_succ hfile] at hschema
  cases hbefore : runner.schemaAt start k with
  | error e =>
    rw [hbefore] at hschema
    cases hschema
  | ok before =>
    rw [hbefore] at hschema
    refine ⟨Nat.le_of_succ_le h.le, ?_, ?_⟩
    · show rows.filter _ = _
      rw [happlied, List.filter_append, List.filter_eq_self.mpr, List.filter_eq_nil_iff.mpr,
        List.append_nil]
      · simp
      · intro name hname
        have hne : name ≠ migrationName file := fun heq => not_mem_take hfile (heq ▸ hname)
        simpa using hne
    · rw [hundo k file before db.schema sql schema hfile hbefore hschema hdown hexec]
      exact hbefore

end Runner

/-! ### Processes -/

inductive Command
  | migrate
  | rollback
  | status
  deriving DecidableEq, Repr

/-- What a process does next. -/
inductive Stage
  /-- It makes sure that `_migrations` exists. -/
  | ensuring (command : Command)
  /-- It reads what is applied. -/
  | reading (command : Command)
  /-- It is in the loop over the files, with what it read before. -/
  | applying (applied files : List String)
  /-- It runs a down script. -/
  | removing (last sql : String)
  | exited (code : ℕ)
  deriving DecidableEq, Repr

/-- Between what it read and what it writes. -/
def Stage.Holds : Stage → Bool
  | .applying _ _ => true
  | .removing _ _ => true
  | _ => false

namespace Runner

/-- The next access of a process to the database. An error ends the process, and its transaction. -/
def advance (runner : Runner σ) : Stage → Database σ → Stage × Database σ
  | .ensuring command, db => (.reading command, ensureMigrationsTable db)
  | .reading command, db =>
    match getApplied db with
    | none => (.exited 1, db)
    | some applied =>
      match command with
      | .migrate => (.applying applied runner.files, db)
      | .rollback =>
        match lastOf applied with
        | none => (.exited 0, db)
        | some last =>
          match runner.dir.readFileSync (downFile last runner.dialect) with
          | none => (.exited 1, db)
          | some sql => (.removing last sql, db)
      | .status => (.exited 0, db)
  | .applying applied files, db =>
    match files.dropWhile fun file => migrationName file ∈ applied with
    | [] => (.exited 0, db)
    | file :: files =>
      match runner.applyMigration file db with
      | .error _ => (.exited 1, db)
      | .ok db => (.applying applied files, db)
  | .removing last sql, db =>
    match runner.removeMigration last sql db with
    | .error _ => (.exited 1, db)
    | .ok db => (.exited 0, db)
  | .exited code, db => (.exited code, db)

end Runner

/-- A database, and the processes that work on it, by their numbers. -/
structure World (σ : Type) where
  db : Database σ
  stage : ℕ → Option Stage

inductive Event
  | spawn (pid : ℕ) (command : Command)
  | step (pid : ℕ)
  | kill (pid : ℕ)
  deriving DecidableEq, Repr

def World.next (runner : Runner σ) (w : World σ) : Event → World σ
  | .spawn pid command =>
    match w.stage pid with
    | none => { w with stage := Function.update w.stage pid (some (.ensuring command)) }
    | some _ => w
  | .step pid =>
    match w.stage pid with
    | none => w
    | some stage =>
      let (stage, db) := runner.advance stage w.db
      { db, stage := Function.update w.stage pid (some stage) }
  -- what a transaction did not commit is lost with its process
  | .kill pid => { w with stage := Function.update w.stage pid none }

/-- Rollbacks are run on their own: from its reading to its end, no other process is between its own
reading and its end. -/
def World.Apart (w : World σ) : Event → Prop
  | .step pid =>
    match w.stage pid with
    | some (.reading .rollback) =>
      ∀ other stage, other ≠ pid → w.stage other = some stage → stage.Holds = false
    | some (.reading .migrate) => ∀ other last sql, w.stage other ≠ some (.removing last sql)
    | _ => True
  | _ => True

/-! ### What processes know -/

namespace Runner

variable {runner : Runner σ} {start : σ} {k j : ℕ} {db db' : Database σ} {file : String}

/-- What a process read is true at a level. -/
def Knows (runner : Runner σ) (k : ℕ) : Stage → Prop
  | .applying applied files =>
    (∀ name ∈ applied, name ∈ runner.names.take k) ∧ ∃ j ≤ k, files = runner.files.drop j
  | .removing last sql =>
    ∃ m file, k = m + 1 ∧ runner.files[m]? = some file ∧ last = migrationName file ∧
      runner.dir.readFileSync (downFile last runner.dialect) = some sql
  | _ => True

theorem lt_of_mem_take (hfile : runner.files[j]? = some file)
    (hmem : migrationName file ∈ runner.names.take k) : j < k := by
  by_contra hle
  apply not_mem_take hfile
  exact (List.take_prefix_take_left (by omega)).subset hmem

/-- A loop passes over nothing that is still to be applied. -/
theorem dropWhile_drop {applied : List String} (hj : j ≤ k)
    (happlied : ∀ name ∈ applied, name ∈ runner.names.take k) :
    ∃ j' ≤ k, ((runner.files.drop j).dropWhile fun file => migrationName file ∈ applied) =
      runner.files.drop j' := by
  induction hd : k - j generalizing j with
  | zero =>
    refine ⟨j, hj, ?_⟩
    cases hfile : runner.files[j]? with
    | none => rw [List.drop_eq_nil_of_le (List.getElem?_eq_none_iff.mp hfile)]; rfl
    | some file =>
      obtain ⟨hlt, rfl⟩ := List.getElem?_eq_some_iff.mp hfile
      rw [List.drop_eq_getElem_cons hlt, List.dropWhile_cons_of_neg]
      rw [decide_eq_true_eq]
      intro hmem
      have := lt_of_mem_take hfile (happlied _ hmem)
      omega
  | succ d ih =>
    cases hfile : runner.files[j]? with
    | none =>
      refine ⟨j, hj, ?_⟩
      rw [List.drop_eq_nil_of_le (List.getElem?_eq_none_iff.mp hfile)]
      rfl
    | some file =>
      obtain ⟨hlt, rfl⟩ := List.getElem?_eq_some_iff.mp hfile
      rw [List.drop_eq_getElem_cons hlt, List.dropWhile_cons]
      split_ifs with hmem
      · exact ih (by omega) (by omega)
      · exact ⟨j, hj, (List.drop_eq_getElem_cons hlt).symm ▸ rfl⟩

theorem Knows.succ {stage : Stage} (h : runner.Knows k stage)
    (hnot : ∀ last sql, stage ≠ .removing last sql) : runner.Knows (k + 1) stage := by
  cases stage with
  | applying applied files =>
    obtain ⟨happlied, j, hj, hfiles⟩ := h
    refine ⟨fun name hname => ?_, j, by omega, hfiles⟩
    exact (List.take_prefix_take_left (Nat.le_succ k)).subset (happlied name hname)
  | removing last sql => exact absurd rfl (hnot last sql)
  | ensuring command => trivial
  | reading command => trivial
  | exited code => trivial

/-- The database is at a level, every process knows what is true there, and a rollback runs on its
own. -/
structure Sound (runner : Runner σ) (start : σ) (k : ℕ) (w : World σ) : Prop where
  level : runner.AtLevel start k w.db
  knows : ∀ pid stage, w.stage pid = some stage → runner.Knows k stage
  alone : ∀ pid last sql, w.stage pid = some (.removing last sql) →
    ∀ other stage, other ≠ pid → w.stage other = some stage → stage.Holds = false

variable {w : World σ} {pid : ℕ}

/-- What a step of one process has to show, for the others and for itself. -/
theorem Sound.update (h : runner.Sound start k w) {k' : ℕ} {stage : Option Stage}
    (hlevel : runner.AtLevel start k' db')
    (hothers : ∀ other st, other ≠ pid → w.stage other = some st → runner.Knows k' st)
    (hown : ∀ st, stage = some st → runner.Knows k' st)
    (hholds : ∀ st, stage = some st → st.Holds = true →
      ∀ other last sql, other ≠ pid → w.stage other ≠ some (.removing last sql))
    (hremoving : ∀ last sql, stage = some (.removing last sql) →
      ∀ other st, other ≠ pid → w.stage other = some st → st.Holds = false) :
    runner.Sound start k' { db := db', stage := Function.update w.stage pid stage } := by
  refine ⟨hlevel, fun p st hp => ?_, fun p last sql hp other st hne hother => ?_⟩
  · by_cases hpid : p = pid
    · subst hpid
      exact hown st (by simpa using hp)
    · exact hothers p st hpid (by simpa [hpid] using hp)
  · by_cases hpid : p = pid
    · subst hpid
      exact hremoving last sql (by simpa using hp) other st hne (by simpa [hne] using hother)
    · have hp' : w.stage p = some (.removing last sql) := by simpa [hpid] using hp
      by_cases hoth : other = pid
      · subst hoth
        have hst : stage = some st := by simpa using hother
        by_contra hhold
        exact hholds st hst (by simpa using hhold) p last sql hpid hp'
      · exact h.alone p last sql hp' other st hne (by simpa [hoth] using hother)

/-- A step to a stage in which a process holds nothing, at the same level. -/
theorem Sound.leave (h : runner.Sound start k w) {stage : Option Stage}
    (hlevel : runner.AtLevel start k db') (hown : ∀ st, stage = some st → st.Holds = false) :
    runner.Sound start k { db := db', stage := Function.update w.stage pid stage } := by
  refine h.update hlevel (fun other st _ hst => h.knows other st hst) (fun st hst => ?_)
    (fun st hst hholds => ?_) fun last sql hst => ?_
  · have hfree := hown st hst
    cases st with
    | applying applied files => cases hfree
    | removing last sql => cases hfree
    | ensuring command => trivial
    | reading command => trivial
    | exited code => trivial
  · rw [hown st hst] at hholds
    cases hholds
  · cases hown _ hst

/-- No other process is in the middle of a rollback while one holds what it read. -/
theorem Sound.not_removing (h : runner.Sound start k w) {stage : Stage}
    (hpid : w.stage pid = some stage) (hholds : stage.Holds = true) (other : ℕ) (last sql : String)
    (hne : other ≠ pid) : w.stage other ≠ some (.removing last sql) := by
  intro hother
  rw [h.alone other last sql hother pid stage hne.symm hpid] at hholds
  cases hholds

/-- A migrator applies the next script, or finds it applied. -/
theorem Sound.applying (h : runner.Sound start k w) {applied files : List String}
    (hpid : w.stage pid = some (.applying applied files)) :
    ∃ k', runner.Sound start k' (w.next runner (.step pid)) := by
  obtain ⟨happlied, j, hj, rfl⟩ := h.knows pid _ hpid
  obtain ⟨j', hj', hdrop⟩ := dropWhile_drop hj happlied
  simp only [World.next, hpid, advance, hdrop]
  cases hrest : runner.files.drop j' with
  | nil => exact ⟨k, h.leave h.level fun st hst => by cases hst; rfl⟩
  | cons file rest =>
    have hfile : runner.files[j']? = some file := by
      rw [← List.head?_drop, hrest]
      rfl
    have hnext : rest = runner.files.drop (j' + 1) := by
      rw [← List.tail_drop, hrest]
      rfl
    cases happly : runner.applyMigration file w.db with
    | error e =>
      simp only [happly]
      exact ⟨k, h.leave h.level fun st hst => by cases hst; rfl⟩
    | ok db' =>
      simp only [happly]
      -- what is not refused is the next one
      have heq : j' = k := le_antisymm hj' (h.level.le_of_apply hfile happly)
      subst heq
      have hnot := h.not_removing hpid rfl
      refine ⟨j' + 1, h.update (h.level.apply hfile happly) (fun other st hne hst => ?_)
        (fun st hst => ?_) (fun st hst _ => hnot) fun last sql hst => by cases hst⟩
      · exact (h.knows other st hst).succ fun last sql heq => hnot other last sql hne (heq ▸ hst)
      · obtain rfl := Option.some.inj hst
        refine ⟨fun name hname => ?_, j' + 1, le_refl _, hnext⟩
        exact (List.take_prefix_take_left (Nat.le_succ j')).subset (happlied name hname)

/-- A rollback takes the last migration back, or leaves everything. -/
theorem Sound.removing (hundo : runner.Undoes start) (h : runner.Sound start k w)
    {last sql : String} (hpid : w.stage pid = some (.removing last sql)) :
    ∃ k', runner.Sound start k' (w.next runner (.step pid)) := by
  simp only [World.next, hpid, advance]
  cases hremove : runner.removeMigration last sql w.db with
  | error e => exact ⟨k, h.leave h.level fun st hst => by cases hst; rfl⟩
  | ok db' =>
    obtain ⟨m, file, rfl, hfile, rfl, hdown⟩ := h.knows pid _ hpid
    refine ⟨m, h.update (h.level.remove hundo hfile hdown hremove) (fun other st hne hst => ?_)
      (fun st hst => ?_) (fun st hst hholds => ?_) fun last sql hst => by cases hst⟩
    · have hfree := h.alone pid _ _ hpid other st hne hst
      cases st with
      | applying applied files => cases hfree
      | removing last sql => cases hfree
      | ensuring command => trivial
      | reading command => trivial
      | exited code => trivial
    · cases hst
      trivial
    · cases hst
      cases hholds

/-- What a process reads is what is applied. -/
theorem Sound.reading (hplain : runner.PlainNames) (h : runner.Sound start k w) {command : Command}
    (hpid : w.stage pid = some (.reading command)) (hapart : w.Apart (.step pid)) :
    ∃ k', runner.Sound start k' (w.next runner (.step pid)) := by
  refine ⟨k, ?_⟩
  simp only [World.next, hpid, advance, getApplied]
  cases happlied : w.db.migrations with
  | none => exact h.leave h.level fun st hst => by cases hst; rfl
  | some applied =>
    have hlevel := h.level.applied
    rw [happlied, Option.getD_some] at hlevel
    subst hlevel
    cases command with
    | status => exact h.leave h.level fun st hst => by cases hst; rfl
    | migrate =>
      simp only [World.Apart, hpid] at hapart
      refine h.update h.level (fun other st _ hst => h.knows other st hst) (fun st hst => ?_)
        (fun st hst _ other last sql _ => hapart other last sql) fun last sql hst => by cases hst
      obtain rfl := Option.some.inj hst
      exact ⟨fun _ hname => hname, 0, Nat.zero_le k, rfl⟩
    | rollback =>
      simp only [World.Apart, hpid] at hapart
      simp only [lastOf_take hplain]
      cases hlast : (runner.names.take k).getLast? with
      | none => exact h.leave h.level fun st hst => by cases hst; rfl
      | some last =>
        cases hdown : runner.dir.readFileSync (downFile last runner.dialect) with
        | none =>
          simp only [hdown]
          exact h.leave h.level fun st hst => by cases hst; rfl
        | some sql =>
          simp only [hdown]
          refine h.update h.level (fun other st _ hst => h.knows other st hst) (fun st hst => ?_)
            (fun st hst _ other last sql hne hother => ?_) fun last sql _ => hapart
          · obtain rfl := Option.some.inj hst
            obtain ⟨m, rfl⟩ : ∃ m, k = m + 1 := by
              cases k with
              | zero => cases hlast
              | succ m => exact ⟨m, rfl⟩
            have hlt := h.level.le
            have hfile : runner.files[m]? = some runner.files[m] := List.getElem?_eq_getElem hlt
            rw [take_names_succ hfile, List.getLast?_concat] at hlast
            exact ⟨m, _, rfl, hfile, (Option.some.inj hlast).symm, hdown⟩
          · cases hapart other _ hne hother

theorem Sound.next (hplain : runner.PlainNames) (hundo : runner.Undoes start)
    (h : runner.Sound start k w) {e : Event} (hapart : w.Apart e) :
    ∃ k', runner.Sound start k' (w.next runner e) := by
  cases e with
  | spawn pid command =>
    refine ⟨k, ?_⟩
    cases hpid : w.stage pid with
    | none =>
      simp only [World.next, hpid]
      exact h.leave h.level fun st hst => by cases hst; rfl
    | some stage =>
      simp only [World.next, hpid]
      exact h
  | kill pid => exact ⟨k, h.leave h.level fun st hst => by cases hst⟩
  | step pid =>
    cases hpid : w.stage pid with
    | none =>
      simp only [World.next, hpid]
      exact ⟨k, h⟩
    | some stage =>
      cases stage with
      | ensuring command =>
        simp only [World.next, hpid, advance]
        exact ⟨k, h.leave h.level.ensure fun st hst => by cases hst; rfl⟩
      | reading command => exact h.reading hplain hpid hapart
      | applying applied files => exact h.applying hpid
      | removing last sql => exact h.removing hundo hpid
      | exited code =>
        simp only [World.next, hpid, advance]
        exact ⟨k, h.leave h.level fun st hst => by cases hst; rfl⟩

theorem mem_take_names (hfile : file ∈ runner.files.take k) :
    migrationName file ∈ runner.names.take k := by
  unfold names
  rw [← List.map_take]
  exact List.mem_map_of_mem hfile

theorem not_mem_take_names (hfile : file ∈ runner.files.drop k) :
    migrationName file ∉ runner.names.take k := by
  obtain ⟨i, hi, rfl⟩ := List.getElem_of_mem hfile
  rw [List.getElem_drop]
  intro hmem
  have := lt_of_mem_take (List.getElem?_eq_getElem _) hmem
  omega

/-- The migrations that are applied come first, and are marked. -/
theorem AtLevel.status (h : runner.AtLevel start k db) : runner.status db =
    (runner.names.take k).map (true, ·) ++ (runner.names.drop k).map (false, ·) := by
  unfold Runner.status
  rw [h.applied]
  conv_lhs => rw [← List.take_append_drop k runner.files, List.map_append]
  conv_rhs => rw [names, ← List.map_take, ← List.map_drop, List.map_map, List.map_map]
  congr 1
  · apply List.map_congr_left
    intro file hfile
    simp [mem_take_names hfile]
  · apply List.map_congr_left
    intro file hfile
    simp [not_mem_take_names hfile]

end Runner

/-- A database on which no process runs. -/
def World.quiet (db : Database σ) : World σ := { db, stage := fun _ => none }

namespace Runner

variable {runner : Runner σ} {start : σ} {k j m : ℕ} {db db' : Database σ} {file : String}

theorem AtLevel.sound (h : runner.AtLevel start k db) : runner.Sound start k (World.quiet db) :=
  { level := h
    knows := fun _ _ hst => by cases hst
    alone := fun _ _ _ hst => by cases hst }

/-- **The migrations are applied in order**: whatever processes migrate, fail and are killed side by side,
as long as rollbacks are run on their own, the first migrations are applied, each of them once, the
schema is what their scripts make of the first one, and `status` shows that. -/
theorem migrations_in_order (hplain : runner.PlainNames) (hundo : runner.Undoes start)
    (hdb : runner.AtLevel start k db) (es : List Event)
    (hapart : Along (World.next runner) World.Apart (World.quiet db) es) :
    Throughout (World.next runner) (fun w => ∃ k, runner.AtLevel start k w.db ∧
      runner.status w.db =
        (runner.names.take k).map (true, ·) ++ (runner.names.drop k).map (false, ·))
      (World.quiet db) es := by
  have hsound := throughout_of_step (P := fun w => ∃ k, runner.Sound start k w)
    (fun w e ⟨_, h⟩ he => h.next hplain hundo he) ⟨k, hdb.sound⟩ hapart
  exact hsound.imp fun w ⟨k, h⟩ => ⟨k, h.level, h.level.status⟩

/-! ### What a process does alone -/

/-- How a process that ran `migrate` exits. -/
def exitCode : Except String ℕ → ℕ
  | .ok _ => 0
  | .error _ => 1

theorem exitCode_map (outcome : Except String ℕ) (f : ℕ → ℕ) :
    exitCode (outcome.map f) = exitCode outcome := by
  cases outcome <;> rfl

/-- How a process that ran `rollback` exits. -/
def rollbackCode : Except String RollbackResult → ℕ
  | .ok (.noDownMigration _) => 1
  | .ok _ => 0
  | .error _ => 1

theorem applyPending_alone (runner : Runner σ) (applied files : List String) (db : Database σ)
    (stages : ℕ → Option Stage) (pid : ℕ) :
    ∃ n, run (World.next runner)
        { db, stage := Function.update stages pid (some (.applying applied files)) }
        (List.replicate (n + 1) (.step pid)) =
      { db := (runner.applyPending applied files db).2
        stage := Function.update stages pid
          (some (.exited (exitCode (runner.applyPending applied files db).1))) } := by
  induction files generalizing db with
  | nil =>
    refine ⟨0, ?_⟩
    simp [World.next, advance, applyPending, exitCode]
  | cons file files ih =>
    unfold applyPending
    by_cases hmem : migrationName file ∈ applied
    · -- a step passes over what is applied
      obtain ⟨n, hn⟩ := ih db
      refine ⟨n, ?_⟩
      rw [if_pos hmem, ← hn, List.replicate_succ, run_cons, run_cons]
      congr 1
      simp only [World.next, Function.update_self, advance, List.dropWhile_cons, hmem, decide_true,
        if_true, Function.update_idem]
    · rw [if_neg hmem]
      cases happly : runner.applyMigration file db with
      | error e =>
        refine ⟨0, ?_⟩
        simp [World.next, advance, hmem, happly, exitCode]
      | ok db' =>
        obtain ⟨n, hn⟩ := ih db'
        refine ⟨n + 1, ?_⟩
        rw [List.replicate_succ, run_cons]
        have hstep : World.next runner
            { db, stage := Function.update stages pid (some (.applying applied (file :: files))) }
            (.step pid) =
            { db := db', stage := Function.update stages pid (some (.applying applied files)) } := by
          simp [World.next, advance, hmem, happly]
        rw [hstep, hn]
        show _ = World.mk _ (Function.update stages pid (some (.exited (exitCode (Except.map _ _)))))
        rw [exitCode_map]

/-- **A process that runs alone computes `migrate`.** -/
theorem migrate_alone (runner : Runner σ) (w : World σ) {pid : ℕ} (hpid : w.stage pid = none) :
    ∃ n, run (World.next runner) w (.spawn pid .migrate :: List.replicate n (.step pid)) =
      { db := (runner.migrate w.db).2
        stage := Function.update w.stage pid
          (some (.exited (exitCode (runner.migrate w.db).1))) } := by
  obtain ⟨n, hn⟩ := applyPending_alone runner (w.db.migrations.getD []) runner.files
    (ensureMigrationsTable w.db) w.stage pid
  have hread : World.next runner (World.next runner (World.next runner w (.spawn pid .migrate))
      (.step pid)) (.step pid) =
      { db := ensureMigrationsTable w.db
        stage := Function.update w.stage pid
          (some (.applying (w.db.migrations.getD []) runner.files)) } := by
    simp [World.next, hpid, advance, getApplied, ensureMigrationsTable]
  refine ⟨n + 1 + 2, ?_⟩
  show run (World.next runner) w
    (.spawn pid .migrate :: .step pid :: .step pid :: List.replicate (n + 1) (.step pid)) = _
  rw [run_cons, run_cons, run_cons, hread, hn]
  rfl

/-- **A process that runs alone computes `rollback`.** -/
theorem rollback_alone (runner : Runner σ) (w : World σ) {pid : ℕ} (hpid : w.stage pid = none) :
    run (World.next runner) w (.spawn pid .rollback :: List.replicate 3 (.step pid)) =
      { db := (runner.rollback w.db).2
        stage := Function.update w.stage pid
          (some (.exited (rollbackCode (runner.rollback w.db).1))) } := by
  have hspawn : World.next runner (World.next runner w (.spawn pid .rollback)) (.step pid) =
      { db := ensureMigrationsTable w.db
        stage := Function.update w.stage pid (some (.reading .rollback)) } := by
    simp [World.next, hpid, advance]
  show run (World.next runner) w [.spawn pid .rollback, .step pid, .step pid, .step pid] = _
  rw [run_cons, run_cons, hspawn]
  unfold rollback
  cases hlast : lastOf ((getApplied (ensureMigrationsTable w.db)).getD []) with
  | none =>
    have hlast' : lastOf (w.db.migrations.getD []) = none := hlast
    simp [World.next, advance, getApplied, ensureMigrationsTable, hlast', rollbackCode]
  | some last =>
    have hlast' : lastOf (w.db.migrations.getD []) = some last := hlast
    cases hdown : runner.dir.readFileSync (downFile last runner.dialect) with
    | none =>
      simp [World.next, advance, getApplied, ensureMigrationsTable, hlast', hdown, rollbackCode]
    | some sql =>
      cases hremove : runner.removeMigration last sql (ensureMigrationsTable w.db) with
      | error e =>
        have hremove' := hremove
        unfold ensureMigrationsTable at hremove'
        simp [World.next, advance, getApplied, ensureMigrationsTable, hlast', hdown, hremove',
          rollbackCode]
      | ok db' =>
        have hremove' := hremove
        unfold ensureMigrationsTable at hremove'
        simp [World.next, advance, getApplied, ensureMigrationsTable, hlast', hdown, hremove',
          rollbackCode]

/-! ### Where a migration ends -/

/-- A script that failed stays in the way of the later ones. -/
theorem schemaAt_error {e : String} (h : runner.schemaAt start k = .error e) (hle : k ≤ m) :
    runner.schemaAt start m = .error e := by
  induction m, hle using Nat.le_induction with
  | base => exact h
  | succ m _ ih =>
    cases hfile : runner.files[m]? with
    | none =>
      unfold schemaAt at ih ⊢
      rw [List.take_add_one, hfile, Option.toList_none, List.append_nil]
      exact ih
    | some file =>
      rw [schemaAt_succ hfile, ih]
      rfl

/-- The scripts after the first `m` are all applied, or the next one fails. -/
def Stops (runner : Runner σ) (start : σ) (m : ℕ) (outcome : Except String ℕ) : Prop :=
  (exitCode outcome = 0 ∧ m = runner.files.length) ∨
    ∃ e, outcome = .error e ∧ m < runner.files.length ∧ runner.schemaAt start (m + 1) = .error e

/-- The scripts alone decide where a migration ends. -/
theorem Stops.unique {m' : ℕ} {outcome outcome' : Except String ℕ}
    (h : runner.Stops start m outcome) (hdb : runner.AtLevel start m db)
    (h' : runner.Stops start m' outcome') (hdb' : runner.AtLevel start m' db') :
    m = m' ∧ exitCode outcome = exitCode outcome' := by
  have hblocked : ∀ {i i' : ℕ} {d : Database σ} {e : String}, runner.AtLevel start i' d →
      runner.schemaAt start (i + 1) = .error e → i' ≤ i := by
    intro i i' d e hlevel herror
    by_contra hlt
    have hlater := schemaAt_error herror (by omega : i + 1 ≤ i')
    rw [hlevel.schema] at hlater
    cases hlater
  rcases h with ⟨hcode, hall⟩ | ⟨e, rfl, hlt, herror⟩
  · rcases h' with ⟨hcode', hall'⟩ | ⟨e', rfl, hlt', herror'⟩
    · exact ⟨by rw [hall, hall'], by rw [hcode, hcode']⟩
    · have := hblocked hdb herror'
      omega
  · rcases h' with ⟨hcode', hall'⟩ | ⟨e', rfl, hlt', herror'⟩
    · have := hblocked hdb' herror
      omega
    · exact ⟨le_antisymm (hblocked hdb herror') (hblocked hdb' herror), rfl⟩

/-- What the loop passes over changes nothing. -/
theorem applyPending_skip {applied files rest : List String} {db : Database σ}
    (h : ∀ file ∈ files, migrationName file ∈ applied) :
    runner.applyPending applied (files ++ rest) db = runner.applyPending applied rest db := by
  induction files with
  | nil => rfl
  | cons file files ih =>
    obtain ⟨hfile, hfiles⟩ := List.forall_mem_cons.mp h
    rw [List.cons_append, applyPending, if_pos hfile, ih hfiles]

/-- The loop applies one script after the other, up to the first one that fails. -/
theorem applyPending_drop {applied : List String} (h : runner.AtLevel start k db)
    (hsome : db.migrations.isSome)
    (hnew : ∀ file ∈ runner.files.drop k, migrationName file ∉ applied) :
    ∃ m, runner.AtLevel start m (runner.applyPending applied (runner.files.drop k) db).2 ∧
      (runner.applyPending applied (runner.files.drop k) db).2.migrations.isSome ∧
      runner.Stops start m (runner.applyPending applied (runner.files.drop k) db).1 := by
  induction hd : runner.files.length - k generalizing k db with
  | zero =>
    have hle := h.le
    rw [List.drop_eq_nil_of_le (by omega)]
    exact ⟨k, h, hsome, Or.inl ⟨rfl, by omega⟩⟩
  | succ d ih =>
    have hlt : k < runner.files.length := by omega
    have hfile : runner.files[k]? = some runner.files[k] := List.getElem?_eq_getElem hlt
    rw [List.drop_eq_getElem_cons hlt] at hnew ⊢
    obtain ⟨hfirst, hrest⟩ := List.forall_mem_cons.mp hnew
    rw [applyPending, if_neg hfirst]
    cases happly : runner.applyMigration runner.files[k] db with
    | error e =>
      refine ⟨k, h, hsome, Or.inr ⟨e, rfl, hlt, ?_⟩⟩
      rw [schemaAt_succ hfile, h.schema]
      -- the row is new, so it is the script that failed
      obtain ⟨rows, hrows⟩ := Option.isSome_iff_exists.mp hsome
      have hrow : migrationName runner.files[k] ∉ rows := by
        have happlied := h.applied
        rw [hrows, Option.getD_some] at happlied
        rw [happlied]
        exact not_mem_take hfile
      show runner.exec (runner.script runner.files[k]) db.schema = .error e
      unfold applyMigration at happly
      cases hexec : runner.exec (runner.script runner.files[k]) db.schema with
      | error e' =>
        rw [hexec] at happly
        have herror : Except.error e' = (Except.error e : Except String (Database σ)) := happly
        rw [Except.error.inj herror]
      | ok schema =>
        rw [hexec, hrows] at happly
        simp [bind, Except.bind, hrow, pure, Except.pure] at happly
    | ok db' =>
      have hsome' : db'.migrations.isSome := by
        obtain ⟨rows, schema, -, -, -, rfl⟩ := applyMigration_ok.mp happly
        rfl
      obtain ⟨m, hlevel, hm, hstops⟩ := ih (h.apply hfile happly) hsome' hrest (by omega)
      refine ⟨m, hlevel, hm, ?_⟩
      rcases hstops with ⟨hcode, hall⟩ | ⟨e, herror, hlt', hnext⟩
      · exact Or.inl ⟨by rw [← hcode]; exact exitCode_map _ _, hall⟩
      · refine Or.inr ⟨e, ?_, hlt', hnext⟩
        show Except.map _ _ = _
        rw [herror]
        rfl

/-- `migrate` leads to the level that the scripts allow. -/
theorem AtLevel.migrate (h : runner.AtLevel start k db) :
    ∃ m, runner.AtLevel start m (runner.migrate db).2 ∧ (runner.migrate db).2.migrations.isSome ∧
      runner.Stops start m (runner.migrate db).1 := by
  have hsplit := List.take_append_drop k runner.files
  have hloop := applyPending_drop h.ensure rfl fun file hfile => not_mem_take_names hfile
  rw [← applyPending_skip fun file hfile => mem_take_names hfile, hsplit] at hloop
  unfold Runner.migrate
  simp only [getApplied, ensureMigrationsTable, Option.getD_some, h.applied] at hloop ⊢
  exact hloop

/-- **Migrating forgets the past**: after any run whose rollbacks were run on their own, `migrate` makes
the database that it makes of the first one, and exits alike; run again, it changes nothing. -/
theorem migrate_of_run (hplain : runner.PlainNames) (hundo : runner.Undoes start)
    (hdb : runner.AtLevel start k db) (es : List Event)
    (hapart : Along (World.next runner) World.Apart (World.quiet db) es) :
    let now := (run (World.next runner) (World.quiet db) es).db
    (runner.migrate now).2 = (runner.migrate db).2 ∧
      exitCode (runner.migrate now).1 = exitCode (runner.migrate db).1 ∧
      (runner.migrate (runner.migrate now).2).2 = (runner.migrate now).2 := by
  have hsame : ∀ {i i' : ℕ} {d d' : Database σ}, runner.AtLevel start i d →
      runner.AtLevel start i' d' → (runner.migrate d).2 = (runner.migrate d').2 ∧
        exitCode (runner.migrate d).1 = exitCode (runner.migrate d').1 := by
    intro i i' d d' hd hd'
    obtain ⟨m, hlevel, hsome, hstops⟩ := hd.migrate
    obtain ⟨m', hlevel', hsome', hstops'⟩ := hd'.migrate
    obtain ⟨rfl, hcode⟩ := hstops.unique hlevel hstops' hlevel'
    obtain ⟨rows, hrows⟩ := Option.isSome_iff_exists.mp hsome
    obtain ⟨rows', hrows'⟩ := Option.isSome_iff_exists.mp hsome'
    refine ⟨?_, hcode⟩
    have happlied : rows = rows' := by
      have h := hlevel.applied
      have h' := hlevel'.applied
      rw [hrows, Option.getD_some] at h
      rw [hrows', Option.getD_some] at h'
      rw [h, h']
    have hschema : (runner.migrate d).2.schema = (runner.migrate d').2.schema := by
      have h := hlevel.schema
      rw [hlevel'.schema] at h
      exact (Except.ok.inj h).symm
    cases hleft : (runner.migrate d).2 with
    | mk schema migrations =>
      cases hright : (runner.migrate d').2 with
      | mk schema' migrations' =>
        rw [hleft] at hrows hschema
        rw [hright] at hrows' hschema
        simp only at hrows hrows' hschema
        rw [hrows, hrows', happlied, hschema]
  obtain ⟨i, hlevel, -⟩ := (migrations_in_order hplain hundo hdb es hapart).last
  obtain ⟨m, hdone, -⟩ := hlevel.migrate
  exact ⟨(hsame hlevel hdb).1, (hsame hlevel hdb).2, (hsame hdone hlevel).1⟩

end Runner

/-! ### Two migrations -/

/-- Two migrations, in the order in which a directory may list them. -/
def twoMigrations : Runner (List Char) where
  dir :=
    { files := [("0002_b.postgres.down.sql", "-b"), ("0001_a.postgres.sql", "+a"),
        ("0002_b.postgres.sql", "+b"), ("0001_a.postgres.down.sql", "-a")]
      nodup := by decide }
  dialect := .postgres
  exec := fun sql schema =>
    match sql.toList with
    | '+' :: name => .ok (name ++ schema)
    | '-' :: name =>
      if name.isPrefixOf schema then .ok (schema.drop name.length) else .error "no such table"
    | _ => .error "syntax error"

theorem twoMigrations_plain : twoMigrations.PlainNames := by
  have hnames : twoMigrations.names = ["0001_a", "0002_b"] := by decide
  intro name hname
  rw [hnames] at hname
  simp only [List.mem_cons, List.not_mem_nil, or_false] at hname
  have hplain : ∀ text ∈ ["0001_a", "0002_b"],
      text.toList.all (fun c => decide ('.'.toNat < c.toNat)) = true := by decide
  intro c hc
  refine of_decide_eq_true (List.all_eq_true.mp (hplain name ?_) c hc)
  simpa using hname

theorem twoMigrations_undoes : twoMigrations.Undoes [] := by
  intro k file before after sql schema hfile _ hup hread hdown
  have hfiles : twoMigrations.files = ["0001_a.postgres.sql", "0002_b.postgres.sql"] := by decide
  have hmem := List.mem_of_getElem? hfile
  rw [hfiles] at hmem
  simp only [List.mem_cons, List.not_mem_nil, or_false] at hmem
  rcases hmem with rfl | rfl
  · have hafter : after = 'a' :: before := (Except.ok.inj hup).symm
    rw [show twoMigrations.dir.readFileSync _ = some "-a" by decide] at hread
    obtain rfl := Option.some.inj hread
    subst hafter
    exact (Except.ok.inj hdown).symm
  · have hafter : after = 'b' :: before := (Except.ok.inj hup).symm
    rw [show twoMigrations.dir.readFileSync _ = some "-b" by decide] at hread
    obtain rfl := Option.some.inj hread
    subst hafter
    exact (Except.ok.inj hdown).symm

/-- The database after both. -/
def migrated : Database (List Char) :=
  { schema := ['b', 'a'], migrations := some ["0001_a", "0002_b"] }

theorem migrated_level : twoMigrations.AtLevel [] 2 migrated := ⟨by decide, by decide, rfl⟩

theorem apart_rollback : Along (World.next twoMigrations) World.Apart (World.quiet migrated)
    [.spawn 0 .rollback, .step 0, .step 0, .step 0] := by
  refine ⟨trivial, trivial, ?_, ?_, trivial⟩
  · intro other stage hne hst
    simp [World.next, World.quiet, Function.update, hne] at hst
  · have hstage : (run (World.next twoMigrations) (World.quiet migrated)
        [.spawn 0 .rollback, .step 0, .step 0]).stage 0 = some (.removing "0002_b" "-b") := by decide
    show World.Apart (run (World.next twoMigrations) (World.quiet migrated)
      [.spawn 0 .rollback, .step 0, .step 0]) (.step 0)
    unfold World.Apart
    simp only [hstage]

theorem migrations_in_order_two : Throughout (World.next twoMigrations)
    (fun w => ∃ k, twoMigrations.AtLevel [] k w.db ∧
      twoMigrations.status w.db =
        (twoMigrations.names.take k).map (true, ·) ++ (twoMigrations.names.drop k).map (false, ·))
    (World.quiet migrated) [.spawn 0 .rollback, .step 0, .step 0, .step 0] :=
  Runner.migrations_in_order twoMigrations_plain twoMigrations_undoes migrated_level _ apart_rollback

theorem migrate_of_run_two :
    let now := (run (World.next twoMigrations) (World.quiet migrated)
      [.spawn 0 .rollback, .step 0, .step 0, .step 0]).db
    (twoMigrations.migrate now).2 = (twoMigrations.migrate migrated).2 ∧
      Runner.exitCode (twoMigrations.migrate now).1 =
        Runner.exitCode (twoMigrations.migrate migrated).1 ∧
      (twoMigrations.migrate (twoMigrations.migrate now).2).2 = (twoMigrations.migrate now).2 :=
  Runner.migrate_of_run twoMigrations_plain twoMigrations_undoes migrated_level _ apart_rollback

/-- A rollback beside a migration that has read the rows already leaves a gap. -/
example : (run (World.next twoMigrations)
    (World.quiet { schema := ['a'], migrations := some ["0001_a"] })
    [.spawn 0 .migrate, .step 0, .step 0, .spawn 1 .rollback, .step 1, .step 1, .step 1, .step 0]
    ).db.migrations = some ["0002_b"] := by decide

end MiniCoder.Migrations
