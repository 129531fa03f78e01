import MiniCoder.Domain.Text
import MiniCoder.Library.Run
import MiniCoder.Persistence.Client

/-!
# Resetting a database

`reset` drops every table, and so asks for much: a safe environment that the caller names as well, an
actor, a backup, a known host, and a token that a dry run for the same database wrote to a file at most
five minutes ago.  Any number of processes may do this side by side.

* `guard_ok_iff`: the checks in their order, and what they ask for.
* `Authorised`: what is true of a reset that is under way.
* `reset_authorised`: every reset was announced by a dry run, and there are no more of them than dry runs.
-/

open Runs

namespace MiniCoder.Migrations

/-- `SAFE_ENVS`. -/
def safeEnvs : List String := ["development", "test", "ci"]

/-- `CONFIRMATION_TOKEN_TTL_MS`: five minutes. -/
def confirmationTokenTtlMs : ℤ := 5 * 60 * 1000

/-- `DEFAULT_ALLOWED_RESET_HOSTS`. -/
def defaultAllowedResetHosts : List String := ["localhost", "127.0.0.1", "::1"]

/-- What `new URL` makes of a text. -/
structure Url where
  hostname : String
  port : String
  pathname : String
  deriving DecidableEq, Repr

/-- What the language brings along. -/
structure Platform where
  parseUrl : String → Option Url
  toLowerCase : String → String := String.toLower

/-- The environment variables of a process, and its directory. -/
structure Env where
  appEnv : Option String
  nodeEnv : Option String
  /-- `MINICODER_ALLOWED_RESET_HOSTS`. -/
  allowedResetHosts : Option String
  /-- `path.resolve`. -/
  resolve : String → String

structure ResetContext where
  dialect : Dialect
  dbIdentifier : String
  deriving DecidableEq, Repr

/-- The value behind the first occurrence of a flag; the next flag is no value. -/
def parseFlag (args : List String) (flag : String) : Option String :=
  match args.dropWhile (· ≠ flag) with
  | _ :: val :: _ => if "--".toList.isPrefixOf val.toList then none else some val
  | _ => none

/-- A flag with a value that is not empty. -/
def given (args : List String) (flag : String) : Option String :=
  (parseFlag args flag).filter fun value => value ≠ ""

def sanitizeDbIdentifier (platform : Platform) (identifier : String) : Dialect → String
  | .sqlite => identifier
  | .postgres =>
    match platform.parseUrl identifier with
    | none => "(unparseable URL)"
    | some u =>
      let portSuffix := if u.port = "" then "" else ":" ++ u.port
      "postgresql://" ++ u.hostname ++ portSuffix ++ u.pathname

def fingerprintTarget (platform : Platform) (env : Env) (ctx : ResetContext) : String :=
  match ctx.dialect with
  | .sqlite => "sqlite:" ++ env.resolve ctx.dbIdentifier
  | .postgres => "postgres:" ++ sanitizeDbIdentifier platform ctx.dbIdentifier .postgres

/-- The hosts that a reset is allowed on. -/
def allowedHosts (platform : Platform) (env : Env) : List String :=
  let configured := ((((env.allowedResetHosts.getD "").toList.splitOn ',').map fun s =>
    platform.toLowerCase (trim (String.ofList s))).filter fun s => s ≠ "").eraseDups
  if configured = [] then defaultAllowedResetHosts else configured

/-! ### The checks -/

/-- `console.error(…)` and `process.exit(1)`. -/
def refuseIf (c : Prop) [Decidable c] (message : String) : Except String Unit :=
  if c then .error message else .ok ()

theorem refuseIf_bind_ok {α : Type} {c : Prop} [Decidable c] {message : String}
    {f : Unit → Except String α} {a : α} :
    (refuseIf c message >>= f) = .ok a ↔ ¬ c ∧ f () = .ok a := by
  unfold refuseIf
  split_ifs with hc
  · simp [hc, bind, Except.bind]
  · simp [hc, bind, Except.bind]

def checkDatabaseIdentity (platform : Platform) (env : Env) (ctx : ResetContext)
    (args : List String) : Except String Unit :=
  match ctx.dialect with
  | .sqlite => .ok ()
  | .postgres =>
    match platform.parseUrl ctx.dbIdentifier with
    | none =>
      .error "reset is blocked: DB_URL could not be parsed to verify target host identity."
    | some url =>
      let hostname := platform.toLowerCase url.hostname
      let allowed := allowedHosts platform env
      refuseIf (hostname ∉ allowed ∧ "--force-host" ∉ args)
        ("reset is blocked: PostgreSQL host \"" ++ hostname ++
          "\" is not in the allowed reset-target list (" ++ ", ".intercalate allowed ++
          "). Set MINICODER_ALLOWED_RESET_HOSTS to allow it, or pass " ++
          "--force-host to explicitly override (visible in the audit log).")

/-- One of the variables that name the environment. -/
def checkSystemEnv (name : String) : Option String → Except String Unit
  | none => .ok ()
  | some value => refuseIf (value ∉ safeEnvs)
      ("  reset is blocked: system env " ++ name ++ " is \"" ++ value ++
        "\".\n  Reset is only permitted when APP_ENV/NODE_ENV is development, test, or ci.")

/-- What a caller asked for, once every check has passed. -/
inductive Request
  | dryRun
  /-- `--apply`, with the token; `reissue` where `--dry-run` is there as well. -/
  | apply (confirmation : String) (reissue : Bool)
  deriving DecidableEq, Repr

/-- The end of the checks: what is to be done. -/
def requestOf (args : List String) : Except String Request :=
  if "--apply" ∈ args then
    match given args "--confirmation" with
    | none =>
      .error "  reset --apply requires --confirmation <token> (run --dry-run first)."
    | some confirmation => .ok (.apply confirmation ("--dry-run" ∈ args))
  else if "--dry-run" ∈ args then .ok .dryRun
  else .error ("  reset requires either --dry-run (preview and issue a confirmation token) or\n" ++
    "  --apply --confirmation <token> (perform the reset after a --dry-run).")

/-- The checks before the token, with those of `main`. -/
def guardReset (platform : Platform) (env : Env) (ctx : ResetContext) (args : List String) :
    Except String Request := do
  refuseIf ("--apply" ∈ args ∧ "--yes" ∉ args) "  reset --apply requires --yes."
  let appEnv := env.appEnv.map platform.toLowerCase
  let nodeEnv := env.nodeEnv.map platform.toLowerCase
  checkSystemEnv "APP_ENV" appEnv
  checkSystemEnv "NODE_ENV" nodeEnv
  refuseIf (appEnv.isSome ∧ nodeEnv.isSome ∧ appEnv ≠ nodeEnv)
    ("  reset is blocked: APP_ENV (\"" ++ appEnv.getD "" ++ "\") and NODE_ENV (\"" ++
      nodeEnv.getD "" ++ "\") disagree.\n  The two must match exactly when both are set.")
  let sysEnv := (appEnv.or nodeEnv).getD ""
  let envFlag := (given args "--env").getD ""
  refuseIf (envFlag = "") ("  reset requires --env <environment> (e.g. --env development).\n" ++
    "  Permitted values: development, test, ci.")
  let flag := platform.toLowerCase envFlag
  refuseIf (flag ∉ safeEnvs) ("  reset is not permitted in environment \"" ++ flag ++
    "\".\n  Permitted values: development, test, ci.")
  refuseIf (sysEnv ≠ "" ∧ sysEnv ≠ flag) ("  reset is blocked: --env \"" ++ flag ++
    "\" does not match the deployment environment \"" ++ sysEnv ++
    "\" (APP_ENV/NODE_ENV). The two must match exactly.")
  refuseIf (sysEnv = "" ∧ "--disposable-db" ∉ args)
    ("  reset is blocked: APP_ENV/NODE_ENV is unset, so the deployment environment cannot be " ++
      "verified.\n  Pass --disposable-db to confirm this is a known throwaway local/CI database " ++
      "(e.g. a temp SQLite file or an ephemeral test PostgreSQL instance).")
  refuseIf (given args "--actor" = none)
    "  reset requires --actor <name> identifying who is authorizing this destructive action."
  refuseIf ("--backup-verified" ∉ args ∧ given args "--backup-exempt" = none)
    ("  reset requires backup evidence: pass --backup-verified (a backup was taken) or\n" ++
      "  --backup-exempt \"<reason>\" (explicitly document why no backup is needed, e.g. a " ++
      "disposable test database).")
  (checkDatabaseIdentity platform env ctx args).mapError fun identityError => "  " ++ identityError
  requestOf args

/-- What the checks ask for, in no order. -/
structure Permitted (platform : Platform) (env : Env) (ctx : ResetContext) (args : List String) :
    Prop where
  /-- The caller names a safe environment, and every variable that is set agrees. -/
  environment : ∃ flag, given args "--env" = some flag ∧ platform.toLowerCase flag ∈ safeEnvs ∧
    ∀ value, env.appEnv = some value ∨ env.nodeEnv = some value →
      platform.toLowerCase value = platform.toLowerCase flag
  disposable : env.appEnv = none → env.nodeEnv = none → "--disposable-db" ∈ args
  actor : (given args "--actor").isSome
  backup : "--backup-verified" ∈ args ∨ (given args "--backup-exempt").isSome
  host : ctx.dialect = .postgres → ∃ url, platform.parseUrl ctx.dbIdentifier = some url ∧
    (platform.toLowerCase url.hostname ∈ allowedHosts platform env ∨ "--force-host" ∈ args)
  confirmed : "--apply" ∈ args → "--yes" ∈ args

variable {platform : Platform} {env : Env} {ctx : ResetContext} {args : List String}

theorem given_ne_empty {flag value : String} (h : given args flag = some value) : value ≠ "" := by
  have hfilter := (Option.filter_eq_some_iff.mp h).2
  simpa using hfilter

theorem checkSystemEnv_bind_ok {α : Type} {name : String} {value : Option String}
    {f : Unit → Except String α} {a : α} :
    (checkSystemEnv name value >>= f) = .ok a ↔ (∀ v, value = some v → v ∈ safeEnvs) ∧ f () = .ok a := by
  cases value with
  | none => simp [checkSystemEnv, bind, Except.bind]
  | some v =>
    unfold checkSystemEnv
    rw [refuseIf_bind_ok]
    simp

theorem mapError_bind_ok {α β : Type} {x : Except String α} {g : String → String}
    {f : α → Except String β} {b : β} : (x.mapError g >>= f) = .ok b ↔ (x >>= f) = .ok b := by
  cases x <;> simp [Except.mapError, bind, Except.bind]

theorem checkDatabaseIdentity_bind_ok {α : Type} {f : Unit → Except String α} {a : α} :
    (checkDatabaseIdentity platform env ctx args >>= f) = .ok a ↔
      (ctx.dialect = .postgres → ∃ url, platform.parseUrl ctx.dbIdentifier = some url ∧
        (platform.toLowerCase url.hostname ∈ allowedHosts platform env ∨ "--force-host" ∈ args)) ∧
      f () = .ok a := by
  unfold checkDatabaseIdentity
  cases hdialect : ctx.dialect with
  | sqlite => simp [bind, Except.bind]
  | postgres =>
    cases hurl : platform.parseUrl ctx.dbIdentifier with
    | none => simp [bind, Except.bind]
    | some url =>
      simp only [refuseIf_bind_ok]
      simp only [not_and_or, not_not, true_implies, Option.some.injEq, exists_eq_left']

/-- The system's environment agrees with the flag where it is known. -/
theorem sysEnv_iff {app node : Option String} {flag : String} (hflag : flag ∈ safeEnvs) :
    ((∀ v, app = some v → v ∈ safeEnvs) ∧ (∀ v, node = some v → v ∈ safeEnvs) ∧
      ¬ (app.isSome ∧ node.isSome ∧ app ≠ node) ∧
      ¬ ((app.or node).getD "" ≠ "" ∧ (app.or node).getD "" ≠ flag)) ↔
      ∀ v, app = some v ∨ node = some v → v = flag := by
  have hempty : "" ∉ safeEnvs := by decide
  have hne : ∀ {v : String}, v ∈ safeEnvs → v ≠ "" := fun hv heq => hempty (heq ▸ hv)
  constructor
  · rintro ⟨happ, hnode, hagree, hmatch⟩ v hv
    -- the variable that counts is the first one that is set
    cases app with
    | some a =>
      have hsys : a = flag := by
        by_contra hdiff
        exact hmatch ⟨hne (happ a rfl), hdiff⟩
      rcases hv with hv | hv
      · rw [← hsys, Option.some.inj hv]
      · subst hv
        by_contra hdiff
        exact hagree ⟨rfl, rfl, fun heq => hdiff (by rw [← hsys, Option.some.inj heq])⟩
    | none =>
      rcases hv with hv | hv
      · cases hv
      · subst hv
        by_contra hdiff
        exact hmatch ⟨hne (hnode v rfl), hdiff⟩
  · intro h
    refine ⟨fun v hv => h v (Or.inl hv) ▸ hflag, fun v hv => h v (Or.inr hv) ▸ hflag, ?_, ?_⟩
    · rintro ⟨happ, hnode, hdiff⟩
      obtain ⟨a, rfl⟩ := Option.isSome_iff_exists.mp happ
      obtain ⟨b, rfl⟩ := Option.isSome_iff_exists.mp hnode
      exact hdiff (by rw [h a (Or.inl rfl), h b (Or.inr rfl)])
    · rintro ⟨hset, hdiff⟩
      cases app with
      | some a => exact hdiff (h a (Or.inl rfl))
      | none =>
        cases node with
        | some b => exact hdiff (h b (Or.inr rfl))
        | none => exact hset rfl

/-- **What the checks let pass.** -/
theorem guard_ok_iff {request : Request} : guardReset platform env ctx args = .ok request ↔
    Permitted platform env ctx args ∧ requestOf args = .ok request := by
  unfold guardReset
  simp only [refuseIf_bind_ok, checkSystemEnv_bind_ok, mapError_bind_ok,
    checkDatabaseIdentity_bind_ok]
  have hset : ∀ {flag : String}, platform.toLowerCase flag ∈ safeEnvs →
      ((∀ v, env.appEnv.map platform.toLowerCase = some v ∨
        env.nodeEnv.map platform.toLowerCase = some v → v = platform.toLowerCase flag) ↔
      ∀ value, env.appEnv = some value ∨ env.nodeEnv = some value →
        platform.toLowerCase value = platform.toLowerCase flag) := by
    intro flag _
    simp only [Option.map_eq_some_iff]
    constructor
    · intro h value hvalue
      exact h _ (hvalue.imp (fun hv => ⟨value, hv, rfl⟩) fun hv => ⟨value, hv, rfl⟩)
    · rintro h v (⟨value, hv, rfl⟩ | ⟨value, hv, rfl⟩)
      · exact h value (Or.inl hv)
      · exact h value (Or.inr hv)
  constructor
  · rintro ⟨hyes, happ, hnode, hagree, hflag, hsafe, hmatch, hdisp, hactor, hbackup, hhost, hreq⟩
    obtain ⟨flag, henv⟩ : ∃ flag, given args "--env" = some flag := by
      cases henv : given args "--env" with
      | none => exact absurd (by rw [henv]; rfl) hflag
      | some flag => exact ⟨flag, rfl⟩
    rw [henv, Option.getD_some] at hsafe hmatch
    have hflagsafe := not_not.mp hsafe
    refine ⟨⟨⟨flag, henv, hflagsafe, (hset hflagsafe).mp ?_⟩, fun happ' hnode' => ?_, ?_, ?_,
      hhost, fun hap => ?_⟩, hreq⟩
    · exact (sysEnv_iff hflagsafe).mp ⟨happ, hnode, hagree, hmatch⟩
    · by_contra hnot
      exact hdisp ⟨by rw [happ', hnode']; rfl, hnot⟩
    · exact Option.isSome_iff_ne_none.mpr hactor
    · by_contra hnot
      rw [not_or] at hnot
      exact hbackup ⟨hnot.1, by simpa using hnot.2⟩
    · by_contra hnot
      exact hyes ⟨hap, hnot⟩
  · rintro ⟨⟨⟨flag, henv, hflagsafe, hagreed⟩, hdisposable, hactor, hbackup, hhost, hyes⟩, hreq⟩
    obtain ⟨happ, hnode, hagree, hmatch⟩ := (sysEnv_iff hflagsafe).mpr ((hset hflagsafe).mpr hagreed)
    refine ⟨fun h => h.2 (hyes h.1), happ, hnode, hagree, ?_, ?_, ?_, fun h => h.2 ?_, ?_, ?_, hhost,
      hreq⟩
    · rw [henv, Option.getD_some]
      exact given_ne_empty henv
    · rw [henv, Option.getD_some]
      exact not_not.mpr hflagsafe
    · rw [henv, Option.getD_some]
      exact hmatch
    · -- an empty name is no safe one, so no variable is set
      have hempty : ∀ value, env.appEnv = some value ∨ env.nodeEnv = some value → False := by
        intro value hvalue
        have hsys : (env.appEnv.map platform.toLowerCase).or
            (env.nodeEnv.map platform.toLowerCase) = some (platform.toLowerCase flag) := by
          have hval := hagreed value hvalue
          cases happ' : env.appEnv with
          | some a =>
            rw [Option.map_some, Option.some_or, hagreed a (Or.inl happ')]
          | none =>
            rcases hvalue with hv | hv
            · rw [happ'] at hv
              cases hv
            · rw [hv, Option.map_none, Option.none_or, Option.map_some, hval]
        have hno := h.1
        rw [hsys, Option.getD_some] at hno
        rw [hno] at hflagsafe
        exact absurd hflagsafe (by decide)
      refine hdisposable ?_ ?_
      · cases happ' : env.appEnv with
        | none => rfl
        | some a => exact (hempty a (Or.inl happ')).elim
      · cases hnode' : env.nodeEnv with
        | none => rfl
        | some b => exact (hempty b (Or.inr hnode')).elim
    · exact Option.isSome_iff_ne_none.mp hactor
    · rintro ⟨hnot, hnone⟩
      rcases hbackup with hverified | hexempt
      · exact hnot hverified
      · rw [hnone] at hexempt
        cases hexempt

/-! ### Processes -/

/-- What a dry run writes to `pending-reset-token.json`. -/
structure PendingToken where
  token : String
  expiresAt : ℤ
  target : String
  deriving DecidableEq, Repr

/-- One call of the command. -/
structure ResetCall where
  env : Env
  ctx : ResetContext
  args : List String

/-- The database that a call is about. -/
def ResetCall.target (platform : Platform) (call : ResetCall) : String :=
  fingerprintTarget platform call.env call.ctx

/-- The checks of a token that was read. -/
def checkPending (platform : Platform) (call : ResetCall) (confirmation : String) (now : ℤ)
    (file : Option PendingToken) : Except String PendingToken :=
  match file with
  | none =>
    .error "  reset is blocked: no pending confirmation token found. Run --dry-run first."
  | some pending => do
    refuseIf (pending.token ≠ confirmation)
      "  reset is blocked: confirmation token does not match the issued token."
    refuseIf (pending.expiresAt ≤ now)
      "  reset is blocked: confirmation token has expired. Run --dry-run again."
    refuseIf (pending.target ≠ call.target platform)
      "  reset is blocked: confirmation token was issued for a different database target."
    return pending

theorem checkPending_ok {call : ResetCall} {confirmation : String} {now : ℤ}
    {file : Option PendingToken} {pending : PendingToken} :
    checkPending platform call confirmation now file = .ok pending ↔
      file = some pending ∧ pending.token = confirmation ∧ now < pending.expiresAt ∧
        pending.target = call.target platform := by
  cases file with
  | none => simp [checkPending]
  | some p =>
    unfold checkPending
    simp only [refuseIf_bind_ok, not_not, not_le, pure, Except.pure, Except.ok.injEq,
      Option.some.injEq]
    constructor
    · rintro ⟨htoken, htime, htarget, rfl⟩
      exact ⟨rfl, htoken, htime, htarget⟩
    · rintro ⟨rfl, htoken, htime, htarget⟩
      exact ⟨htoken, htime, htarget, rfl⟩

/-- What a process does next. -/
inductive ResetStage
  | guarding
  /-- It deletes the file of the token that it read at a time. -/
  | consuming (pending : PendingToken) (readAt : ℤ) (reissue : Bool)
  /-- It writes a token. -/
  | issuing
  | resetting
  | exited (code : ℕ)
  deriving DecidableEq, Repr

/-- A token that was printed. -/
structure Announcement where
  call : ResetCall
  pending : PendingToken
  issuedAt : ℤ

/-- A reset that was started. -/
structure Reset where
  call : ResetCall
  pending : PendingToken
  readAt : ℤ

/-! ### What is allowed -/

/-- A dry run announced the reset: the same token, for the same database, at most five minutes before
the token was read; both calls met what the checks ask for. -/
structure Authorised (platform : Platform) (announced : List Announcement) (call : ResetCall)
    (pending : PendingToken) (readAt : ℤ) : Prop where
  permitted : Permitted platform call.env call.ctx call.args
  confirmed : given call.args "--confirmation" = some pending.token
  dryRun : ∃ d ∈ announced, d.pending = pending ∧ Permitted platform d.call.env d.call.ctx d.call.args ∧
    d.call.target platform = call.target platform ∧ readAt < d.issuedAt + confirmationTokenTtlMs

theorem Authorised.append {announced : List Announcement} {call : ResetCall} {pending : PendingToken}
    {readAt : ℤ} (h : Authorised platform announced call pending readAt) (later : List Announcement) :
    Authorised platform (announced ++ later) call pending readAt := by
  obtain ⟨d, hd, hrest⟩ := h.dryRun
  exact ⟨h.permitted, h.confirmed, d, List.mem_append_left later hd, hrest⟩

/-- The announcement was made by a call that met the checks, for its own database. -/
def Announcement.Genuine (platform : Platform) (d : Announcement) : Prop :=
  Permitted platform d.call.env d.call.ctx d.call.args ∧
    d.pending.target = d.call.target platform ∧
    d.pending.expiresAt = d.issuedAt + confirmationTokenTtlMs

/-- What a process is about to do is allowed. -/
def StageAllowed (platform : Platform) (announced : List Announcement) (call : ResetCall) :
    ResetStage → Prop
  | .consuming pending readAt _ => Authorised platform announced call pending readAt
  | .issuing => Permitted platform call.env call.ctx call.args
  | _ => True

theorem StageAllowed.append {announced : List Announcement} {call : ResetCall} {stage : ResetStage}
    (h : StageAllowed platform announced call stage) (later : List Announcement) :
    StageAllowed platform (announced ++ later) call stage := by
  cases stage with
  | consuming pending readAt reissue => exact Authorised.append h later
  | guarding => trivial
  | issuing => exact h
  | resetting => trivial
  | exited code => trivial

/-! ### Side by side -/

/-- The file of the token, the processes, and what was announced and started so far. -/
structure ResetWorld where
  file : Option PendingToken
  calls : ℕ → Option (ResetCall × ResetStage)
  announced : List Announcement
  resets : List Reset

inductive ResetEvent
  | spawn (pid : ℕ) (call : ResetCall)
  /-- A process goes on, at a time, with what `randomUUID` gives it. -/
  | step (pid : ℕ) (now : ℤ) (uuid : String)
  | kill (pid : ℕ)

namespace ResetWorld

def start : ResetWorld := { file := none, calls := fun _ => none, announced := [], resets := [] }

def setStage (w : ResetWorld) (pid : ℕ) (call : ResetCall) (stage : ResetStage) : ResetWorld :=
  { w with calls := Function.update w.calls pid (some (call, stage)) }

/-- One access to the file, or the end of a process. -/
def advance (platform : Platform) (w : ResetWorld) (pid : ℕ) (call : ResetCall) (now : ℤ)
    (uuid : String) : ResetStage → ResetWorld
  | .guarding =>
    match guardReset platform call.env call.ctx call.args with
    | .error _ => w.setStage pid call (.exited 1)
    | .ok .dryRun => w.setStage pid call .issuing
    | .ok (.apply confirmation reissue) =>
      match checkPending platform call confirmation now w.file with
      | .error _ => w.setStage pid call (.exited 1)
      | .ok pending => w.setStage pid call (.consuming pending now reissue)
  | .consuming pending readAt reissue =>
    match w.file with
    -- `unlinkSync` throws
    | none => w.setStage pid call (.exited 1)
    | some _ =>
      let emptied := { w with file := none }
      if reissue then emptied.setStage pid call .issuing
      else
        let resets : List Reset := w.resets ++ [⟨call, pending, readAt⟩]
        { emptied with resets }.setStage pid call .resetting
  | .issuing =>
    let pending : PendingToken :=
      { token := uuid, expiresAt := now + confirmationTokenTtlMs, target := call.target platform }
    let announced : List Announcement := w.announced ++ [⟨call, pending, now⟩]
    { w with file := some pending, announced }.setStage pid call (.exited 0)
  | .resetting => w.setStage pid call (.exited 0)
  | .exited code => w.setStage pid call (.exited code)

def next (platform : Platform) (w : ResetWorld) : ResetEvent → ResetWorld
  | .spawn pid call =>
    match w.calls pid with
    | none => w.setStage pid call .guarding
    | some _ => w
  | .step pid now uuid =>
    match w.calls pid with
    | none => w
    | some (call, stage) => w.advance platform pid call now uuid stage
  | .kill pid => { w with calls := Function.update w.calls pid none }

/-- What holds in every state: the token in the file was announced, and what is under way or done was
authorised; every reset used a file up. -/
structure Guarded (platform : Platform) (w : ResetWorld) : Prop where
  file : ∀ pending, w.file = some pending → ∃ d ∈ w.announced, d.pending = pending
  announced : ∀ d ∈ w.announced, d.Genuine platform
  stages : ∀ pid call stage, w.calls pid = some (call, stage) →
    StageAllowed platform w.announced call stage
  resets : ∀ r ∈ w.resets, Authorised platform w.announced r.call r.pending r.readAt
  count : w.resets.length + w.file.toList.length ≤ w.announced.length

variable {w : ResetWorld} {pid : ℕ} {call : ResetCall} {stage : ResetStage}

theorem guarded_start : Guarded platform start := by
  refine ⟨fun _ h => ?_, fun d hd => ?_, fun _ _ _ h => ?_, fun r hr => ?_, le_refl 0⟩
  · cases h
  · cases hd
  · cases h
  · cases hr

/-- A step that only moves a process on. -/
theorem Guarded.setStage (h : Guarded platform w)
    (hstage : StageAllowed platform w.announced call stage) :
    Guarded platform (w.setStage pid call stage) := by
  refine ⟨h.file, h.announced, fun p c st hp => ?_, h.resets, h.count⟩
  by_cases hpid : p = pid
  · subst hpid
    have hown : (call, stage) = (c, st) := by simpa [ResetWorld.setStage] using hp
    obtain ⟨rfl, rfl⟩ := Prod.mk.inj hown
    exact hstage
  · exact h.stages p c st (by simpa [ResetWorld.setStage, hpid] using hp)

/-- A dry run writes its own token over the one that is there. -/
theorem Guarded.issue (h : Guarded platform w) {pending : PendingToken} {now : ℤ}
    (hgenuine : (Announcement.mk call pending now).Genuine platform) :
    Guarded platform
      { w with file := some pending, announced := w.announced ++ [⟨call, pending, now⟩] } := by
  refine ⟨fun p hp => ?_, fun d hd => ?_, fun p c st hp => (h.stages p c st hp).append _,
    fun r hr => (h.resets r hr).append _, ?_⟩
  · obtain rfl := Option.some.inj hp
    exact ⟨_, List.mem_append_right _ List.mem_cons_self, rfl⟩
  · rcases List.mem_append.mp hd with hold | hnew
    · exact h.announced d hold
    · rw [List.mem_singleton.mp hnew]
      exact hgenuine
  · have hcount := h.count
    rw [List.length_append, List.length_singleton]
    show w.resets.length + 1 ≤ _
    omega

/-- A token is used up before anything is dropped. -/
theorem Guarded.consume (h : Guarded platform w) {file : PendingToken} (hfile : w.file = some file)
    {resets : List Reset}
    (hresets : ∀ r ∈ resets, Authorised platform w.announced r.call r.pending r.readAt)
    (hlength : resets.length ≤ 1) :
    Guarded platform { w with file := none, resets := w.resets ++ resets } := by
  refine ⟨fun p hp => ?_, h.announced, h.stages, fun r hr => ?_, ?_⟩
  · cases hp
  · rcases List.mem_append.mp hr with hold | hnew
    · exact h.resets r hold
    · exact hresets r hnew
  · have hcount := h.count
    rw [hfile] at hcount
    rw [List.length_append]
    show w.resets.length + resets.length + 0 ≤ w.announced.length
    have hone : w.resets.length + 1 ≤ w.announced.length := hcount
    omega

theorem Guarded.advance (h : Guarded platform w) (hpid : w.calls pid = some (call, stage)) (now : ℤ)
    (uuid : String) : Guarded platform (w.advance platform pid call now uuid stage) := by
  have hallowed := h.stages pid call stage hpid
  unfold ResetWorld.advance
  cases stage with
  | guarding =>
    cases hguard : guardReset platform call.env call.ctx call.args with
    | error e => exact h.setStage trivial
    | ok request =>
      obtain ⟨hpermitted, hrequest⟩ := guard_ok_iff.mp hguard
      cases request with
      | dryRun => exact h.setStage hpermitted
      | apply confirmation reissue =>
        cases hcheck : checkPending platform call confirmation now w.file with
        | error e =>
          simp only [hcheck]
          exact h.setStage trivial
        | ok pending =>
          simp only [hcheck]
          refine h.setStage ?_
          obtain ⟨hfile, htoken, htime, htarget⟩ := checkPending_ok.mp hcheck
          obtain ⟨d, hd, rfl⟩ := h.file pending hfile
          obtain ⟨hdry, hdtarget, hexpires⟩ := h.announced d hd
          refine ⟨hpermitted, ?_, d, hd, rfl, hdry, by rw [← hdtarget, htarget], by omega⟩
          -- the token is the value of the flag
          unfold requestOf at hrequest
          split_ifs at hrequest with happly hdryRun
          · cases hgiven : given call.args "--confirmation" with
            | none =>
              rw [hgiven] at hrequest
              cases hrequest
            | some value =>
              rw [hgiven] at hrequest
              obtain ⟨hvalue, -⟩ := Request.apply.inj (Except.ok.inj hrequest)
              rw [hvalue, htoken]
          · cases hrequest
  | consuming pending readAt reissue =>
    cases hfile : w.file with
    | none => exact h.setStage trivial
    | some file =>
      simp only
      split_ifs
      · have hnone := @Guarded.consume platform w h file hfile []
          (fun r hr => by cases hr) (Nat.zero_le 1)
        rw [List.append_nil] at hnone
        exact hnone.setStage hallowed.permitted
      · have hreset : ∀ r ∈ [Reset.mk call pending readAt],
            Authorised platform w.announced r.call r.pending r.readAt := by
          intro r hr
          rw [List.mem_singleton.mp hr]
          exact hallowed
        exact @Guarded.setStage platform _ pid call .resetting (h.consume hfile hreset (le_refl 1))
          trivial
  | issuing => exact (h.issue ⟨hallowed, rfl, rfl⟩).setStage trivial
  | resetting => exact h.setStage trivial
  | exited code => exact h.setStage trivial

theorem Guarded.next (h : Guarded platform w) (e : ResetEvent) :
    Guarded platform (w.next platform e) := by
  cases e with
  | spawn pid call =>
    unfold ResetWorld.next
    cases hpid : w.calls pid with
    | none =>
      simp only [hpid]
      exact h.setStage trivial
    | some other =>
      simp only [hpid]
      exact h
  | step pid now uuid =>
    unfold ResetWorld.next
    cases hpid : w.calls pid with
    | none =>
      simp only [hpid]
      exact h
    | some own =>
      obtain ⟨call, stage⟩ := own
      simp only [hpid]
      exact h.advance hpid now uuid
  | kill pid =>
    refine ⟨h.file, h.announced, fun p c st hp => ?_, h.resets, h.count⟩
    by_cases hne : p = pid
    · subst hne
      simp [ResetWorld.next] at hp
    · exact h.stages p c st (by simpa [ResetWorld.next, hne] using hp)

/-- **No reset without its dry run**: whatever calls run side by side, are killed and see their clocks
go, every reset meets what the checks ask for, was announced for the same database at most five minutes
before, and there are no more resets than dry runs. -/
theorem reset_authorised (platform : Platform) (es : List ResetEvent) :
    Throughout (ResetWorld.next platform) (fun w =>
      (∀ r ∈ w.resets, Authorised platform w.announced r.call r.pending r.readAt) ∧
        w.resets.length ≤ w.announced.length) start es := by
  have hstep : ∀ (w : ResetWorld) (e : ResetEvent), Guarded platform w → True →
      Guarded platform (w.next platform e) := fun _ e h _ => h.next e
  have hguarded := throughout_of_step hstep guarded_start
    (along_of_forall (fun _ _ => trivial) start es)
  exact hguarded.imp fun w h => ⟨h.resets, by have := h.count; omega⟩

/-- A call for a local file in the test environment. -/
def testCall (more : List String) : ResetCall where
  env := { appEnv := some "test", nodeEnv := none, allowedResetHosts := none, resolve := id }
  ctx := { dialect := .sqlite, dbIdentifier := "/tmp/minicoder.db" }
  args := ["--env", "test", "--actor", "operator", "--backup-verified"] ++ more

/-- Two processes that read a token may both use it, where a second dry run writes the file again. -/
example : ((run (ResetWorld.next { parseUrl := fun _ => none, toLowerCase := id }) start
    [.spawn 0 (testCall ["--dry-run"]), .step 0 0 "", .step 0 0 "t",
      .spawn 1 (testCall ["--apply", "--yes", "--confirmation", "t"]), .step 1 1 "",
      .spawn 2 (testCall ["--apply", "--yes", "--confirmation", "t"]), .step 2 2 "", .step 2 3 "",
      .spawn 3 (testCall ["--dry-run"]), .step 3 4 "", .step 3 5 "u", .step 1 6 ""]).resets.map
    fun r => r.pending.token) = ["t", "t"] := by decide

end ResetWorld

end MiniCoder.Migrations
