import MiniCoder.Agents.Registry
import MiniCoder.Library.Run
import MiniCoder.Queue.Rows
import MiniCoder.StateMachine.Matrix
import MiniCoder.System

/-!
# Recording the runs of the agents

`record` reads the adapter's row, its capabilities and a revision, inserts the row of the run and its
context pack, sets it running, and calls the agent.  Then comes a pass over the cost extractor, the
write of the final state, the cost record, the extractor of tool operations and their rows; whatever
throws in the pass of a success starts it over as the pass of a failure.

Each statement is a step of its own, which the database can refuse, or execute without an answer.
Calls take their steps in any order, and registrations come between them.

* `recordStep_cases`: what one step of a call does.
* `Touches`: the rows that a call's statement can change.
-/

open Storage Storage.Action Runs

namespace MiniCoder

/-! ### What a call is given -/

inductive AgentRunErrorType
  | timeout
  | rateLimited
  | invalidOutput
  | auth
  | providerUnavailable
  | cancelled
  deriving DecidableEq, Repr

def AgentRunErrorType.literal : AgentRunErrorType → String
  | timeout => "timeout"
  | rateLimited => "rate_limited"
  | invalidOutput => "invalid_output"
  | auth => "auth"
  | providerUnavailable => "provider_unavailable"
  | cancelled => "cancelled"

/-- A thrown value: an `AdapterRunError`, or another one with its message. -/
inductive Thrown
  | adapterRunError (errorType : AgentRunErrorType) (message : String)
  | other (message : String)
  deriving DecidableEq, Repr

namespace Thrown

def errorType : Thrown → AgentRunErrorType
  | adapterRunError errorType _ => errorType
  | other _ => .providerUnavailable

def message : Thrown → String
  | adapterRunError _ message => message
  | other message => message

end Thrown

/-- `RunOutcome`.  An output is the JSON text of its redaction, if it has one. -/
inductive RunOutcome
  | returned (outputSummary : Option String)
  | threw (error : Thrown)
  deriving DecidableEq, Repr

structure RecordedCostUsage where
  inputTokens : Option ℕ := none
  outputTokens : Option ℕ := none
  costUsd : Option ℚ := none
  provider : Option String := none
  model : Option String := none
  deriving DecidableEq, Repr

structure RecordedToolOperation where
  toolName : String
  inputSummary : Option String := none
  outputSummary : Option String := none
  status : Option String := none
  durationMs : Option ℕ := none
  deriving DecidableEq, Repr

/-- The context pack; its content is JSON text, if it has one. -/
structure ContextPack where
  content : Option String
  schemaVersion : Option String := none
  deriving DecidableEq, Repr

structure RecordRunOptions where
  adapterId : String
  role : String
  projectId : Option String := none
  featureRunId : Option String := none
  featureRequestId : Option String := none
  promptTemplateVersion : Option String := none
  /-- The JSON text of the redacted input, if it has one. -/
  input : Option String
  capabilitiesUsed : List String
  contextPack : Option ContextPack := none
  deriving DecidableEq, Repr

/-- A call of `record`: its options, and what it draws first. -/
structure RecordCall where
  opts : RecordRunOptions
  agentRunId : String
  queuedAt : ℤ
  deriving DecidableEq, Repr

/-- What the environment decides about one step of a call. -/
structure RecordMoment where
  now : ℤ
  id : String
  fault : Option Fault := none
  /-- What a failing statement, or a value without JSON text, throws. -/
  thrown : Thrown := .other ""
  called : RunOutcome := .threw (.other "")
  usage : Except Thrown (Option RecordedCostUsage) := .ok none
  operations : Except Thrown (List RecordedToolOperation) := .ok []

/-! ### Statements -/

/-- The `agent_runs` table. -/
def agentRunTable : TableOf Db AgentRun where
  get db := db.agents.runs
  put db t := { db with agents := { db.agents with runs := t } }
  get_put _ _ := rfl

/-- The `agent_context_packs` table. -/
def agentContextPackTable : TableOf Db AgentContextPack where
  get db := db.agents.contextPacks
  put db t := { db with agents := { db.agents with contextPacks := t } }
  get_put _ _ := rfl

/-- The `agent_tool_operations` table. -/
def agentToolOperationTable : TableOf Db AgentToolOperation where
  get db := db.agents.toolOperations
  put db t := { db with agents := { db.agents with toolOperations := t } }
  get_put _ _ := rfl

/-- The `agent_errors` table. -/
def agentErrorTable : TableOf Db AgentError where
  get db := db.agents.errors
  put db t := { db with agents := { db.agents with errors := t } }
  get_put _ _ := rfl

/-- The `cost_records` table. -/
def costRecordTable : TableOf Db CostRecord where
  get db := db.costRecords
  put db t := { db with costRecords := t }
  get_put _ _ := rfl

/-- An `INSERT`. -/
def insertRow {ρ : Type} [Row ρ] (table : TableOf Db ρ) (row : ρ) (db : Db) : Option Db :=
  ((table.get db).insert? row).map (table.put db)

theorem insertRow_some {ρ : Type} [Row ρ] {table : TableOf Db ρ} {row : ρ} {db db' : Db}
    (h : insertRow table row db = some db') :
    ∃ t, (table.get db).insert? row = some t ∧ db' = table.put db t := by
  obtain ⟨t, ht, hput⟩ := Option.map_eq_some_iff.mp h
  exact ⟨t, ht, hput.symm⟩

/-- `UPDATE agent_runs SET … WHERE id = ?`. -/
def updateAgentRun (agentRunId : String) (f : AgentRun → AgentRun) (hf : KeyFree f) (db : Db) :
    Option Db :=
  some (agentRunTable.put db (db.agents.runs.update (fun run => run.id == agentRunId) f hf))

/-- A statement, with whether its caller gets an answer. -/
def submit (fault : Option Fault) (statement : Db → Option Db) (db : Db) : Bool × Db :=
  match fault, statement db with
  | none, some db' => (true, db')
  | some .unanswered, some db' => (false, db')
  | _, _ => (false, db)

theorem submit_cases (fault : Option Fault) (statement : Db → Option Db) (db : Db) :
    (fault = none ∧ ∃ db', statement db = some db' ∧ submit fault statement db = (true, db')) ∨
      ((fault = some .refused ∨ statement db = none) ∧ submit fault statement db = (false, db)) ∨
      fault = some .unanswered ∧
        ∃ db', statement db = some db' ∧ submit fault statement db = (false, db') := by
  unfold submit
  rcases statement db with _ | after
  · rcases fault with _ | _ | _ <;> exact Or.inr (Or.inl ⟨Or.inr rfl, rfl⟩)
  · rcases fault with _ | _ | _
    · exact Or.inl ⟨rfl, after, rfl, rfl⟩
    · exact Or.inr (Or.inl ⟨Or.inl rfl, rfl⟩)
    · exact Or.inr (Or.inr ⟨rfl, after, rfl, rfl⟩)

/-- `totalTokens`. -/
def totalTokens (usage : Option RecordedCostUsage) : Option ℕ :=
  usage.bind fun usage =>
    if usage.inputTokens = none ∧ usage.outputTokens = none then none
    else some (usage.inputTokens.getD 0 + usage.outputTokens.getD 0)

namespace AgentRun

/-- `SET state = 'running', started_at = ?, version = version + 1`. -/
def started (now : ℤ) (run : AgentRun) : AgentRun :=
  { run with state := .running, startedAt := some now, version := run.version + 1 }

/-- The columns that both final states set. -/
def applyUsage (usage : Option RecordedCostUsage) (endedAt : ℤ) (run : AgentRun) : AgentRun :=
  { run with
    endedAt := some endedAt
    tokensUsed := totalTokens usage <|> run.tokensUsed
    costUsd := usage.bind (·.costUsd) <|> run.costUsd
    provider := usage.bind (·.provider) <|> run.provider
    model := usage.bind (·.model) <|> run.model
    version := run.version + 1 }

/-- The `SET` list of `applyUsageAndSetSucceeded`. -/
def applyUsageAndSetSucceeded (output : String) (usage : Option RecordedCostUsage) (endedAt : ℤ)
    (run : AgentRun) : AgentRun :=
  { run.applyUsage usage endedAt with state := .succeeded, outputSummary := some output }

/-- The `SET` list of `applyUsageAndSetFailed`. -/
def applyUsageAndSetFailed (message : String) (usage : Option RecordedCostUsage) (endedAt : ℤ)
    (run : AgentRun) : AgentRun :=
  { run.applyUsage usage endedAt with state := .failed, error := some message }

end AgentRun

namespace RecordCall

variable (call : RecordCall)

/-- The row of `INSERT INTO agent_runs`. -/
def row (adapter : AgentAdapter) (adapterRevisionId : Option String) (inputSummary : String) :
    AgentRun where
  id := call.agentRunId
  adapterId := call.opts.adapterId
  adapterRevisionId
  projectId := call.opts.projectId
  featureRunId := call.opts.featureRunId
  role := adapter.role
  inputSummary
  adapterName := adapter.name
  adapterImplementation := adapter.implementation
  adapterVersion := adapter.version
  capabilitiesUsed := call.opts.capabilitiesUsed
  promptTemplateVersion := call.opts.promptTemplateVersion

/-- The row of `INSERT INTO cost_records`. -/
def costRecord (id projectId : String) (costUsd : ℚ) (usage : RecordedCostUsage) (recordedAt : ℤ) :
    CostRecord where
  id
  projectId
  featureRequestId := call.opts.featureRequestId
  scope := if (call.opts.featureRequestId.filter (· ≠ "")).isSome then .feature else .project
  amount := costUsd
  recordedAt
  featureRunId := call.opts.featureRunId
  agentRunId := some call.agentRunId
  provider := usage.provider
  model := usage.model
  inputTokens := usage.inputTokens
  outputTokens := usage.outputTokens

/-- The row of `INSERT INTO agent_tool_operations`. -/
def toolOperation (id : String) (occurredAt : ℤ) (op : RecordedToolOperation) :
    AgentToolOperation where
  id
  agentRunId := call.agentRunId
  toolName := op.toolName
  inputSummary := op.inputSummary
  outputSummary := op.outputSummary
  status := op.status.getD "success"
  durationMs := op.durationMs
  occurredAt

end RecordCall

/-! ### Phases -/

/-- How far a call has got: what it does next. -/
inductive RecordPhase
  | ready
  /-- The adapter's row is read. -/
  | found (adapter : AgentAdapter)
  /-- The role and the capabilities are checked. -/
  | checked (adapter : AgentAdapter)
  | stamped (adapter : AgentAdapter) (adapterRevisionId : Option String)
  /-- The row of the run is inserted. -/
  | packing (pack : ContextPack)
  | starting
  | calling
  | extracting (outcome : RunOutcome)
  | settling (outcome : RunOutcome) (usage : Option RecordedCostUsage) (endedAt : ℤ)
  | charging (outcome : RunOutcome) (usage : RecordedCostUsage) (endedAt : ℤ)
  | operating (outcome : RunOutcome) (endedAt : ℤ)
  | logging (outcome : RunOutcome) (endedAt : ℤ) (operations : List RecordedToolOperation)
  | erring (error : Thrown) (endedAt : ℤ)
  | resolved
  /-- Rejected before the row of the run was inserted. -/
  | refused (failure : Failure)
  | rejected (error : Thrown)
  deriving DecidableEq, Repr

/-- The run of the call has been inserted. -/
def RecordPhase.isInserted : RecordPhase → Bool
  | .ready | .found _ | .checked _ | .stamped _ _ | .refused _ => false
  | _ => true

structure RecordState where
  phase : RecordPhase := .ready
  /-- A write of the final state has failed. -/
  finalWriteFailed : Bool := false
  deriving DecidableEq, Repr

/-- A statement of a call: what it does, where the call goes when it is answered or fails, and whether
it writes the final state. -/
structure RecordWrite where
  statement : Db → Option Db
  answered : RecordPhase
  failed : RecordPhase
  isFinal : Bool := false

namespace RunOutcome

/-- Where an exception goes: from the pass of a success to the pass of a failure, and then out. -/
def raise (outcome : RunOutcome) (error : Thrown) : RecordPhase :=
  match outcome with
  | returned _ => .extracting (.threw error)
  | threw _ => .rejected error

/-- What comes after the tool operations. -/
def finish (outcome : RunOutcome) (endedAt : ℤ) : RecordPhase :=
  match outcome with
  | returned _ => .resolved
  | threw error => .erring error endedAt

/-- What comes after the cost extractor. -/
def extracted (outcome : RunOutcome) (now : ℤ) :
    Except Thrown (Option RecordedCostUsage) → RecordPhase
  | .error error => outcome.raise error
  | .ok usage => .settling outcome usage now

/-- What comes after the extractor of tool operations. -/
def operated (outcome : RunOutcome) (endedAt : ℤ) :
    Except Thrown (List RecordedToolOperation) → RecordPhase
  | .error error => outcome.raise error
  | .ok operations => .logging outcome endedAt operations

/-- What comes after the write of the final state. -/
def settled (outcome : RunOutcome) (usage : Option RecordedCostUsage) (endedAt : ℤ) :
    RecordPhase :=
  match usage with
  | some usage => .charging outcome usage endedAt
  | none => .operating outcome endedAt

end RunOutcome

namespace RecordCall

variable (call : RecordCall)

/-- The checks on the adapter. -/
def check (db : Db) (adapter : AgentAdapter) : Except Failure Unit := do
  let capabilities ← parseCapabilities (db.declaredCapabilities adapter.id)
    s!"agent_capabilities row(s) for adapter {adapter.id}"
  if call.opts.role ≠ adapter.role then
    .error (.error (s!"Adapter {call.opts.adapterId} is registered under role \"{adapter.role}\", " ++
      s!"but the run was requested for role \"{call.opts.role}\""))
  else
    let undeclared := call.opts.capabilitiesUsed.filter fun c =>
      !capabilities.any fun token => token.literal == c
    if undeclared ≠ [] then
      .error (.error (s!"Adapter {call.opts.adapterId} exercised capabilities not in its declared " ++
        "set: " ++ ", ".intercalate undeclared))
    else .ok ()

/-- What comes after the insertion of the run. -/
def inserted : RecordPhase :=
  match call.opts.contextPack with
  | some pack => .packing pack
  | none => .starting

/-- The write of the final state; an output without JSON text throws before it. -/
def finalWrite? (redact : String → String) (m : RecordMoment) (outcome : RunOutcome)
    (usage : Option RecordedCostUsage) (endedAt : ℤ) : Option RecordWrite :=
  match outcome with
  | .returned none => none
  | .returned (some output) => some {
      statement := updateAgentRun call.agentRunId
        (AgentRun.applyUsageAndSetSucceeded output usage endedAt) fun _ _ => rfl
      answered := outcome.settled usage endedAt
      failed := outcome.raise m.thrown
      isFinal := true }
  | .threw error => some {
      statement := updateAgentRun call.agentRunId
        (AgentRun.applyUsageAndSetFailed (redact error.message) usage endedAt) fun _ _ => rfl
      answered := outcome.settled usage endedAt
      failed := outcome.raise m.thrown
      isFinal := true }

/-- The statement of `insertCostRecord`, where there is one. -/
def costWrite? (m : RecordMoment) (outcome : RunOutcome) (usage : RecordedCostUsage) (endedAt : ℤ) :
    Option RecordWrite :=
  match usage.costUsd, call.opts.projectId.filter (· ≠ "") with
  | some costUsd, some projectId => some {
      statement := insertRow costRecordTable
        (call.costRecord m.id projectId costUsd usage endedAt)
      answered := .operating outcome endedAt
      failed := outcome.raise m.thrown }
  | _, _ => none

/-- The statement that a call issues in a phase. -/
def write? (redact : String → String) (m : RecordMoment) : RecordPhase → Option RecordWrite
  | .stamped adapter adapterRevisionId => call.opts.input.map fun inputSummary => {
      statement := insertRow agentRunTable (call.row adapter adapterRevisionId inputSummary)
      answered := call.inserted
      failed := .refused .database }
  | .packing pack => pack.content.map fun content => {
      statement := insertRow agentContextPackTable {
        id := m.id, agentRunId := call.agentRunId, content
        contentSchemaVersion := pack.schemaVersion.getD "1.0.0" }
      answered := .starting
      failed := .rejected m.thrown }
  | .starting => some {
      statement := updateAgentRun call.agentRunId (AgentRun.started m.now) fun _ _ => rfl
      answered := .calling
      failed := .rejected m.thrown }
  | .settling outcome usage endedAt => call.finalWrite? redact m outcome usage endedAt
  | .charging outcome usage endedAt => call.costWrite? m outcome usage endedAt
  | .logging outcome endedAt (op :: operations) => some {
      statement := insertRow agentToolOperationTable (call.toolOperation m.id m.now op)
      answered := .logging outcome endedAt operations
      failed := outcome.raise m.thrown }
  | .erring error endedAt => some {
      statement := insertRow agentErrorTable {
        id := m.id, agentRunId := call.agentRunId, errorType := error.errorType.literal
        message := redact error.message, occurredAt := endedAt }
      answered := .rejected error
      failed := .rejected m.thrown }
  | _ => none

/-- What `insertCostRecord` does where it issues no statement. -/
def withoutCost (outcome : RunOutcome) (usage : RecordedCostUsage) (endedAt : ℤ) : RecordPhase :=
  match usage.costUsd with
  | none => .operating outcome endedAt
  | some _ => outcome.raise (.other ("AgentRunRecorder.record: costExtractor reported costUsd but " ++
      "no projectId was supplied — cost_records.project_id is NOT NULL and cannot be attributed."))

/-- Where a call goes from what it reads of the registry, in the phases in which it reads. -/
def read? (db : Db) : RecordPhase → Option RecordPhase
  | .ready => some (
    match db.activeAdapter call.opts.adapterId with
    | none => .refused (.error
        s!"No registered adapter for role \"unknown\" named \"{call.opts.adapterId}\"")
    | some adapter => .found adapter)
  | .found adapter => some (
    match call.check db adapter with
    | .error failure => .refused failure
    | .ok () => .checked adapter)
  | .checked adapter =>
    some (.stamped adapter (db.getRevisionId call.opts.adapterId adapter.version))
  | _ => none

/-- What a call does in a phase without a statement that writes. -/
def advance (db : Db) (m : RecordMoment) : RecordPhase → RecordPhase
  | .stamped _ _ => .refused (.error m.thrown.message)
  | .packing _ => .rejected m.thrown
  | .calling => .extracting m.called
  | .extracting outcome => outcome.extracted m.now m.usage
  | .settling outcome _ _ => outcome.raise m.thrown
  | .charging outcome usage endedAt => withoutCost outcome usage endedAt
  | .operating outcome endedAt => outcome.operated endedAt m.operations
  | .logging outcome endedAt [] => outcome.finish endedAt
  | phase =>
    match call.read? db phase with
    | none => phase
    | some next => if m.fault = none then next else .refused .database

end RecordCall

/-! ### The machine -/

/-- A statement of a call, answered or not. -/
def RecordWrite.run (w : RecordWrite) (fault : Option Fault) (record : RecordState) (db : Db) :
    RecordState × Db :=
  match submit fault w.statement db with
  | (true, db') => ({ record with phase := w.answered }, db')
  | (false, db') =>
    ({ phase := w.failed, finalWriteFailed := record.finalWriteFailed || w.isFinal }, db')

/-- One step of a call. -/
def recordStep (redact : String → String) (call : RecordCall) (m : RecordMoment)
    (record : RecordState) (db : Db) : RecordState × Db :=
  match call.write? redact m record.phase with
  | some w => w.run m.fault record db
  | none => ({ record with phase := call.advance db m record.phase }, db)

/-- The recorder, with all its calls. -/
structure Recorder (ι : Type) where
  calls : ι → RecordCall
  redact : String → String := id

structure RecorderState (ι : Type) where
  db : Db
  records : ι → RecordState := fun _ => {}

inductive RecorderEvent (ι : Type)
  | register (input : RegisterAdapterInput) (runtime : Runtime)
  | act (i : ι) (m : RecordMoment)

/-- What an event does. -/
def Recorder.next {ι : Type} [DecidableEq ι] (recorder : Recorder ι) (s : RecorderState ι) :
    RecorderEvent ι → RecorderState ι
  | .register input runtime => { s with db := (exec (register input) (.start s.db runtime)).2.db }
  | .act i m =>
    let stepped := recordStep recorder.redact (recorder.calls i) m (s.records i) s.db
    { db := stepped.2, records := Function.update s.records i stepped.1 }

/-! ### What a step does -/

section Step

variable {redact : String → String} {call : RecordCall} {m : RecordMoment} {phase : RecordPhase}
  {record record' : RecordState} {w : RecordWrite} {db db' : Db}

/-- The statement of `insertCostRecord` is for the project of the call. -/
theorem costWrite?_some {outcome : RunOutcome} {usage : RecordedCostUsage} {endedAt : ℤ}
    (hw : call.costWrite? m outcome usage endedAt = some w) : ∃ costUsd projectId, w = {
      statement := insertRow costRecordTable
        (call.costRecord m.id projectId costUsd usage endedAt)
      answered := .operating outcome endedAt
      failed := outcome.raise m.thrown } := by
  unfold RecordCall.costWrite? at hw
  split at hw
  · exact ⟨_, _, (Option.some.inj hw).symm⟩
  · cases hw

theorem isInserted_raise (outcome : RunOutcome) (error : Thrown) :
    (outcome.raise error).isInserted = true := by
  cases outcome <;> rfl

/-- After the insertion of the run, every phase is followed by another such one. -/
theorem write_isInserted (hinserted : phase.isInserted = true)
    (hw : call.write? redact m phase = some w) :
    w.answered.isInserted = true ∧ w.failed.isInserted = true := by
  cases phase with
  | packing pack =>
    obtain ⟨content, -, rfl⟩ := Option.map_eq_some_iff.mp hw
    exact ⟨rfl, rfl⟩
  | settling outcome usage endedAt =>
    rcases outcome with (_ | output) | error
    · cases hw
    · obtain rfl := Option.some.inj hw
      cases usage <;> exact ⟨rfl, rfl⟩
    · obtain rfl := Option.some.inj hw
      cases usage <;> exact ⟨rfl, rfl⟩
  | charging outcome usage endedAt =>
    obtain ⟨costUsd, projectId, rfl⟩ := costWrite?_some hw
    exact ⟨rfl, isInserted_raise outcome _⟩
  | logging outcome endedAt operations =>
    cases operations with
    | nil => cases hw
    | cons op rest =>
      obtain rfl := Option.some.inj hw
      exact ⟨rfl, isInserted_raise outcome _⟩
  | starting | erring =>
    obtain rfl := Option.some.inj hw
    exact ⟨rfl, rfl⟩
  | ready | found | checked | stamped | refused => cases hinserted
  | _ => cases hw

theorem advance_isInserted (hinserted : phase.isInserted = true) :
    (call.advance db m phase).isInserted = true := by
  cases phase with
  | extracting outcome =>
    show (outcome.extracted m.now m.usage).isInserted = true
    cases m.usage with
    | error error => exact isInserted_raise outcome error
    | ok usage => rfl
  | settling outcome usage endedAt => exact isInserted_raise outcome _
  | charging outcome usage endedAt =>
    show (RecordCall.withoutCost outcome usage endedAt).isInserted = true
    unfold RecordCall.withoutCost
    split
    · rfl
    · exact isInserted_raise outcome _
  | operating outcome endedAt =>
    show (outcome.operated endedAt m.operations).isInserted = true
    cases m.operations with
    | error error => exact isInserted_raise outcome error
    | ok operations => rfl
  | logging outcome endedAt operations =>
    cases operations with
    | nil => cases outcome <;> rfl
    | cons op rest => rfl
  | ready | found | checked | stamped | refused => cases hinserted
  | _ => rfl

/-- Before the insertion of the run, its insertion is the only statement that writes. -/
theorem stamped_of_write (hbefore : phase.isInserted = false)
    (hw : call.write? redact m phase = some w) :
    (∃ adapter revisionId, phase = .stamped adapter revisionId) ∧ w.failed.isInserted = false := by
  cases phase with
  | stamped adapter revisionId =>
    obtain ⟨inputSummary, -, rfl⟩ := Option.map_eq_some_iff.mp hw
    exact ⟨⟨adapter, revisionId, rfl⟩, rfl⟩
  | ready | found | checked | refused => cases hw
  | _ => cases hbefore

theorem advance_not_isInserted (hbefore : phase.isInserted = false) :
    (call.advance db m phase).isInserted = false := by
  cases phase with
  | ready | found adapter =>
    unfold RecordCall.advance RecordCall.read?
    dsimp only
    split_ifs
    · split <;> rfl
    · rfl
  | checked adapter =>
    unfold RecordCall.advance RecordCall.read?
    dsimp only
    split_ifs <;> rfl
  | stamped | refused => rfl
  | _ => cases hbefore

/-- **What one step of a call does**: its statement is executed and answered, or not executed, or
executed without an answer; or it has none. -/
theorem recordStep_cases (h : recordStep redact call m record db = (record', db')) :
    (∃ w, call.write? redact m record.phase = some w ∧ m.fault = none ∧ w.statement db = some db' ∧
        record' = { record with phase := w.answered }) ∨
      (∃ w, call.write? redact m record.phase = some w ∧
        (m.fault = some .refused ∨ w.statement db = none) ∧ db' = db ∧
        record' = ⟨w.failed, record.finalWriteFailed || w.isFinal⟩) ∨
      (∃ w, call.write? redact m record.phase = some w ∧ m.fault = some .unanswered ∧
        w.statement db = some db' ∧
        record' = ⟨w.failed, record.finalWriteFailed || w.isFinal⟩) ∨
      call.write? redact m record.phase = none ∧ db' = db ∧
        record' = { record with phase := call.advance db m record.phase } := by
  rw [recordStep] at h
  split at h
  · rename_i w hw
    rcases submit_cases m.fault w.statement db with ⟨hfault, after, hafter, hsubmit⟩ |
      ⟨hfailed, hsubmit⟩ | ⟨hfault, after, hafter, hsubmit⟩
    · rw [RecordWrite.run, hsubmit] at h
      obtain ⟨rfl, rfl⟩ := Prod.mk.inj h
      exact Or.inl ⟨w, hw, hfault, hafter, rfl⟩
    · rw [RecordWrite.run, hsubmit] at h
      obtain ⟨rfl, rfl⟩ := Prod.mk.inj h
      exact Or.inr (Or.inl ⟨w, hw, hfailed, rfl, rfl⟩)
    · rw [RecordWrite.run, hsubmit] at h
      obtain ⟨rfl, rfl⟩ := Prod.mk.inj h
      exact Or.inr (Or.inr (Or.inl ⟨w, hw, hfault, hafter, rfl⟩))
  · rename_i hnone
    obtain ⟨rfl, rfl⟩ := Prod.mk.inj h
    exact Or.inr (Or.inr (Or.inr ⟨hnone, rfl, rfl⟩))

end Step

/-- A step of the machine is a step of a call. -/
theorem next_act {ι : Type} [DecidableEq ι] (recorder : Recorder ι) (s : RecorderState ι) (i : ι)
    (m : RecordMoment) : ∃ record' db',
    recordStep recorder.redact (recorder.calls i) m (s.records i) s.db = (record', db') ∧
      (recorder.next s (.act i m)).db = db' ∧
      (recorder.next s (.act i m)).records i = record' ∧
      ∀ j, j ≠ i → (recorder.next s (.act i m)).records j = s.records j :=
  ⟨_, _, rfl, rfl, Function.update_self .., fun _ hj => Function.update_of_ne hj ..⟩

/-! ### A recorded call -/

/-- One call of a coder, which uses one capability. -/
def sampleRecorder (capability : String) : Recorder Unit where
  calls _ := {
    opts := {
      adapterId := (sampleRuntime 0).ids 0, role := "coder", projectId := some "P", input := some "{}"
      capabilitiesUsed := [capability] }
    agentRunId := "run", queuedAt := 0 }

def sampleRegistration (now : ℕ) (capabilities : List String) : RecorderEvent Unit :=
  .register { role := "coder", name := "one", implementation := "I", capabilities }
    (sampleRuntime now)

/-- A step of the call: the agent returns, costs something, and reports one tool operation. -/
def sampleRecordMoment (now : ℕ) (fault : Option Fault) : RecordMoment where
  now
  id := (sampleRuntime now).ids 0
  fault
  called := .returned (some "{}")
  usage := .ok (some { costUsd := some 1 })
  operations := .ok [{ toolName := "push" }]

end MiniCoder
