import Mathlib.Data.Prod.Lex
import Mathlib.Data.String.Basic
import MiniCoder.Domain.Text
import MiniCoder.Library.Action
import MiniCoder.Library.LastWrite
import MiniCoder.Persistence.Db

/-!
# The export of workflow events to an OTLP collector

`minicoder observability export-otel` reads the cursor of an export target, sends the oldest events
past it to the collector, and stores the position of the last one.  An external scheduler runs the
command again and again, while the rest of the system inserts events.

* `mapWorkflowEventsToOtlp`, `exportWorkflowEventsToOtlp`, `getObservabilityExportCursor`,
  `setObservabilityExportCursor`, `exportOtel`: the command.
* `ExportWorld.next`: a tick of the clock, an event, or a run of the command.
-/

open Storage Storage.Action LastWrite

namespace MiniCoder

/-! ### The payload -/

/-- An attribute of the OTLP format, with a `stringValue`. -/
structure OtlpAttribute where
  key : String
  value : String
  deriving DecidableEq, Repr

structure OtlpLogRecord where
  timeUnixNano : String
  severityText : String := "INFO"
  body : String
  attributes : List OtlpAttribute
  deriving DecidableEq, Repr

structure OtlpScopeLogs where
  scopeName : String
  logRecords : List OtlpLogRecord
  deriving DecidableEq, Repr

structure OtlpResourceLogs where
  resourceAttributes : List OtlpAttribute
  scopeLogs : List OtlpScopeLogs
  deriving DecidableEq, Repr

structure OtlpLogsPayload where
  resourceLogs : List OtlpResourceLogs
  deriving DecidableEq, Repr

def toUnixNano (occurredAt : ℤ) : String := toString (occurredAt * 1000000)

def attr (key : String) (value : Option String) : OtlpAttribute := ⟨key, value.getD ""⟩

/-- The body of the `map` in `mapWorkflowEventsToOtlp`. -/
def WorkflowEvent.toLogRecord (event : WorkflowEvent) : OtlpLogRecord where
  timeUnixNano := toUnixNano event.occurredAt
  body := event.eventType
  attributes :=
    [attr "minicoder.event_id" event.id,
      attr "minicoder.project_id" event.projectId,
      attr "minicoder.feature_run_id" event.featureRunId,
      attr "minicoder.from_state" event.fromState,
      attr "minicoder.to_state" event.toState,
      attr "minicoder.actor" event.actor]

def mapWorkflowEventsToOtlp (events : List WorkflowEvent) : OtlpLogsPayload where
  resourceLogs := [{
    resourceAttributes := [attr "service.name" "minicoder-orchestrator"]
    scopeLogs := [{
      scopeName := "minicoder.workflow-events"
      logRecords := events.map WorkflowEvent.toLogRecord }] }]

/-- The log records of a payload. -/
def OtlpLogsPayload.logRecords (payload : OtlpLogsPayload) : List OtlpLogRecord :=
  payload.resourceLogs.flatMap fun resource =>
    resource.scopeLogs.flatMap OtlpScopeLogs.logRecords

@[simp] theorem logRecords_mapWorkflowEventsToOtlp (events : List WorkflowEvent) :
    (mapWorkflowEventsToOtlp events).logRecords = events.map WorkflowEvent.toLogRecord := by
  simp [mapWorkflowEventsToOtlp, OtlpLogsPayload.logRecords]

/-! ### The database -/

/-- A row of `observability_export_cursors`. -/
structure ObservabilityExportCursorRow where
  id : String
  lastEventId : Option String
  lastOccurredAt : Option ℤ
  updatedAt : ℤ
  deriving DecidableEq, Repr

instance : Row ObservabilityExportCursorRow := .ofKey (·.id)

structure ObservabilityExportCursor where
  lastEventId : String
  lastOccurredAt : ℤ
  deriving DecidableEq, Repr

/-- The clock, and the tables that an export reads. -/
structure ExportWorld where
  now : ℤ
  workflowEvents : Table WorkflowEvent := .empty
  observabilityExportCursors : Table ObservabilityExportCursorRow := .empty

/-- An action of the command; it may throw. -/
abbrev Export (α : Type) := Action String ExportWorld α

/-- The answer of a collector to a `POST`; `fetch` may throw, on a timeout among others. -/
inductive Fetched
  | threw (error : String)
  | answered (status : ℕ)
  deriving DecidableEq, Repr

/-- What a run of the command meets: its options, its environment, the collector, and the queries
that fail. -/
structure ExportCall where
  cursorId : String := "workflow_events_otlp"
  limit : Option ℤ := none
  /-- `OTEL_EXPORTER_OTLP_ENDPOINT`. -/
  endpoint : Option String
  fetchImpl : String → OtlpLogsPayload → Fetched
  cursorQueryFails : Option String := none
  eventsQueryFails : Option String := none

/-- `db.query`, which throws where the database fails. -/
def queryExport {α : Type} (fails : Option String) (f : ExportWorld → α) : Export α :=
  match fails with
  | some error => throw error
  | none => Action.read f

/-! ### The cursor -/

/-- The cursor of a row, unless a half of it is missing. -/
def ObservabilityExportCursorRow.cursor (row : ObservabilityExportCursorRow) :
    Option ObservabilityExportCursor :=
  match row.lastEventId, row.lastOccurredAt with
  | some id, some occurredAt => if id = "" then none else some ⟨id, occurredAt⟩
  | _, _ => none

/-- What the table has under an id. -/
def ExportWorld.cursor (w : ExportWorld) (cursorId : String) : Option ObservabilityExportCursor :=
  (w.observabilityExportCursors.find? fun row => row.id == cursorId).bind
    ObservabilityExportCursorRow.cursor

def getObservabilityExportCursor (call : ExportCall) : Export (Option ObservabilityExportCursor) :=
  queryExport call.cursorQueryFails fun w => w.cursor call.cursorId

/-- The `SET` list of the upsert. -/
def ObservabilityExportCursorRow.set (excluded row : ObservabilityExportCursorRow) :
    ObservabilityExportCursorRow :=
  { row with
    lastEventId := excluded.lastEventId
    lastOccurredAt := excluded.lastOccurredAt
    updatedAt := excluded.updatedAt }

theorem ObservabilityExportCursorRow.set_keyFree (excluded : ObservabilityExportCursorRow) :
    KeyFree excluded.set := fun _ _ => rfl

def ExportWorld.setCursor (w : ExportWorld) (cursorId : String)
    (cursor : ObservabilityExportCursor) : ExportWorld :=
  let row : ObservabilityExportCursorRow :=
    { id := cursorId
      lastEventId := cursor.lastEventId
      lastOccurredAt := cursor.lastOccurredAt
      updatedAt := w.now }
  { w with
    observabilityExportCursors := w.observabilityExportCursors.upsert row row.set row.set_keyFree }

def setObservabilityExportCursor (cursorId : String) (cursor : ObservabilityExportCursor) :
    Export Unit :=
  Action.write fun w => w.setCursor cursorId cursor

/-! ### The export -/

structure ExportWorkflowEventsOptions where
  sinceOccurredAt : Option ℤ := none
  sinceEventId : Option String := none
  limit : Option ℕ := none
  safetyMarginMs : Option ℤ := none

structure ExportWorkflowEventsResult where
  attempted : Bool
  exportedCount : ℕ
  lastEventId : Option String
  lastOccurredAt : Option ℤ
  deriving DecidableEq, Repr

/-- The result of a run without an endpoint. -/
def notAttempted : ExportWorkflowEventsResult where
  attempted := false
  exportedCount := 0
  lastEventId := none
  lastOccurredAt := none

/-- The result of a run that finds no event: its cursor stays. -/
def nothingNew (since : Option ObservabilityExportCursor) : ExportWorkflowEventsResult where
  attempted := true
  exportedCount := 0
  lastEventId := since.map (·.lastEventId)
  lastOccurredAt := since.map (·.lastOccurredAt)

/-- The result of a run that has sent events. -/
def exportedUpTo (events : List WorkflowEvent) (lastEvent : WorkflowEvent) :
    ExportWorkflowEventsResult where
  attempted := true
  exportedCount := events.length
  lastEventId := lastEvent.id
  lastOccurredAt := lastEvent.occurredAt

/-- `DEFAULT_LIMIT`. -/
def defaultExportLimit : ℕ := 200

/-- `DEFAULT_SAFETY_MARGIN_MS`: two minutes. -/
def defaultSafetyMarginMs : ℤ := 2 * 60 * 1000

/-- Both halves of the cursor, or none. -/
def ExportWorkflowEventsOptions.since (opts : ExportWorkflowEventsOptions) :
    Option ObservabilityExportCursor :=
  match opts.sinceOccurredAt, opts.sinceEventId with
  | some occurredAt, some id => if id = "" then none else some ⟨id, occurredAt⟩
  | _, _ => none

/-- The `WHERE` clause. -/
def isExportable (watermark : ℤ) (since : Option ObservabilityExportCursor) (event : WorkflowEvent) :
    Bool :=
  decide (event.occurredAt ≤ watermark) &&
    match since with
    | none => true
    | some cursor => decide (cursor.lastOccurredAt < event.occurredAt) ||
        (decide (event.occurredAt = cursor.lastOccurredAt) && decide (cursor.lastEventId < event.id))

/-- The columns of the `ORDER BY` clause. -/
def WorkflowEvent.position (event : WorkflowEvent) : ℤ ×ₗ String :=
  toLex (event.occurredAt, event.id)

/-- `SELECT … WHERE … ORDER BY occurred_at ASC, id ASC LIMIT ?`. -/
def ExportWorld.exportBatch (w : ExportWorld) (opts : ExportWorkflowEventsOptions) :
    List WorkflowEvent :=
  let watermark := w.now - opts.safetyMarginMs.getD defaultSafetyMarginMs
  (sortBy WorkflowEvent.position
    (w.workflowEvents.select (isExportable watermark opts.since))).take
      (opts.limit.getD defaultExportLimit)

/-- The URL that the payload is sent to. -/
def logsUrl (endpoint : String) : String :=
  String.ofList ((trim endpoint).toList.rdropWhile fun c => c = '/') ++ "/v1/logs"

/-- `await fetchImpl(…)`, and the check of `response.ok`. -/
def postLogs (call : ExportCall) (endpoint : String) (payload : OtlpLogsPayload) : Export Unit :=
  match call.fetchImpl (logsUrl endpoint) payload with
  | .threw error => throw error
  | .answered status =>
    if 200 ≤ status ∧ status ≤ 299 then pure ()
    else throw s!"exportWorkflowEventsToOtlp: OTLP collector returned {status}"

/-- The result, with the payload that the collector has accepted. -/
def exportWorkflowEventsToOtlp (call : ExportCall) (opts : ExportWorkflowEventsOptions) :
    Export (ExportWorkflowEventsResult × Option OtlpLogsPayload) :=
  match call.endpoint with
  | none => pure (notAttempted, none)
  | some endpoint =>
    if trim endpoint = "" then pure (notAttempted, none)
    else do
      let events ← queryExport call.eventsQueryFails fun w => w.exportBatch opts
      match events.getLast? with
      | none => pure (nothingNew opts.since, none)
      | some lastEvent => do
        postLogs call endpoint (mapWorkflowEventsToOtlp events)
        pure (exportedUpTo events lastEvent, some (mapWorkflowEventsToOtlp events))

/-- What is stored of a result. -/
def storeCursor (cursorId : String) (result : ExportWorkflowEventsResult) : Export Unit :=
  match result.attempted, result.lastEventId, result.lastOccurredAt with
  | true, some id, some occurredAt =>
    if id = "" then pure ()
    else setObservabilityExportCursor cursorId ⟨id, occurredAt⟩
  | _, _, _ => pure ()

/-- What the command passes on. -/
def exportOptions (safetyMarginMs : Option ℤ) (call : ExportCall)
    (cursor : Option ObservabilityExportCursor) : ExportWorkflowEventsOptions where
  sinceOccurredAt := cursor.map (·.lastOccurredAt)
  sinceEventId := cursor.map (·.lastEventId)
  limit := call.limit.map Int.toNat
  safetyMarginMs

/-- `minicoder observability export-otel`, with a safety margin for `exportWorkflowEventsToOtlp`. -/
def exportOtel (safetyMarginMs : Option ℤ) (call : ExportCall) :
    Export (ExportWorkflowEventsResult × Option OtlpLogsPayload) := do
  let cursor ← getObservabilityExportCursor call
  if call.limit.any (fun limit => decide (limit ≤ 0)) then
    throw "Error: --limit must be a positive integer."
  else do
    let run ← exportWorkflowEventsToOtlp call (exportOptions safetyMarginMs call cursor)
    storeCursor call.cursorId run.1
    pure run

/-! ### Runs -/

/-- An event to be inserted; `generateId` and `randomUUID` make no empty ids. -/
structure NewWorkflowEvent extends WorkflowEvent where
  id_ne : id ≠ ""

inductive ExportStep
  | tick (ms : ℕ)
  | insert (event : NewWorkflowEvent)
  | exportOtel (call : ExportCall)

/-- The state that a step leaves. -/
def ExportWorld.next (safetyMarginMs : Option ℤ) (w : ExportWorld) : ExportStep → ExportWorld
  | .tick ms => { w with now := w.now + ms }
  | .insert event => { w with workflowEvents := w.workflowEvents.insertNew event.toWorkflowEvent }
  | .exportOtel call => (exec (MiniCoder.exportOtel safetyMarginMs call) w).2

/-- The payload of a successful export for a cursor. -/
def ExportWorld.exported (safetyMarginMs : Option ℤ) (cursorId : String) (w : ExportWorld) :
    ExportStep → Option OtlpLogsPayload
  | .exportOtel call =>
    if call.cursorId = cursorId then
      match (exec (MiniCoder.exportOtel safetyMarginMs call) w).1 with
      | .ok run => run.2
      | .error _ => none
    else none
  | _ => none

end MiniCoder
