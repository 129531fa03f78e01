import MiniCoder.Library.Keyset
import MiniCoder.Library.Run
import MiniCoder.Observability.OtelExport

/-!
# Every event is exported once

The cursor of an export is the position of the last event that was sent.  An event that is inserted
in time, before the clock is past its own time by the safety margin, is past the cursor, as the
cursor only moves to events that the clock has left behind by the margin.

* `exportOtel_ok`, `exportOtel_error`: what a run of the command does.
* `ExportWorld.Settled`, `settled_next`: the invariant.
* `upToCursor_next`: **what a run sends comes next after the events up to the cursor**.
* `exported_exactly_once`: what holds of every sequence of runs.
-/

open Storage Storage.Action Runs LastWrite Keyset

namespace MiniCoder

/-! ### Positions -/

def ObservabilityExportCursor.position (cursor : ObservabilityExportCursor) : ℤ ×ₗ String :=
  toLex (cursor.lastOccurredAt, cursor.lastEventId)

/-- The safety margin of a run. -/
def marginOf (safetyMarginMs : Option ℤ) : ℤ := safetyMarginMs.getD defaultSafetyMarginMs

/-- An event is at the cursor, or below it. -/
def ExportWorld.isUpToCursor (w : ExportWorld) (cursorId : String) (event : WorkflowEvent) : Bool :=
  (w.cursor cursorId).any fun cursor => decide (event.position ≤ cursor.position)

/-- The events up to the cursor, in the order of their positions. -/
def ExportWorld.upToCursor (w : ExportWorld) (cursorId : String) : List WorkflowEvent :=
  sortBy WorkflowEvent.position (w.workflowEvents.select (w.isUpToCursor cursorId))

/-- The position of the cursor. -/
def ExportWorld.cursorPosition (w : ExportWorld) (cursorId : String) : Option (ℤ ×ₗ String) :=
  (w.cursor cursorId).map ObservabilityExportCursor.position

theorem upToCursor_eq_reached (w : ExportWorld) (cursorId : String) :
    w.upToCursor cursorId =
      reached WorkflowEvent.position (fun _ => true) (w.cursorPosition cursorId)
        w.workflowEvents.rows := by
  have hsame : w.isUpToCursor cursorId = fun event =>
      true && !decide (Past (w.cursorPosition cursorId) event.position) := by
    funext event
    unfold ExportWorld.isUpToCursor ExportWorld.cursorPosition
    rcases w.cursor cursorId with _ | cursor <;> simp [← not_le]
  unfold ExportWorld.upToCursor Table.select
  rw [hsame]
  rfl

theorem position_lt_iff {cursor : ObservabilityExportCursor} {event : WorkflowEvent} :
    cursor.position < event.position ↔ cursor.lastOccurredAt < event.occurredAt ∨
      event.occurredAt = cursor.lastOccurredAt ∧ cursor.lastEventId < event.id := by
  unfold ObservabilityExportCursor.position WorkflowEvent.position
  rw [Prod.Lex.toLex_lt_toLex]
  simp only [eq_comm]

theorem occurredAt_le_of_position_le {event event' : WorkflowEvent}
    (h : event.position ≤ event'.position) : event.occurredAt ≤ event'.occurredAt := by
  unfold WorkflowEvent.position at h
  rw [Prod.Lex.toLex_le_toLex] at h
  rcases h with hlt | ⟨heq, -⟩
  · exact le_of_lt hlt
  · exact le_of_eq heq

/-- The events of a table have different positions. -/
theorem distinct_position (events : Table WorkflowEvent) :
    Distinct WorkflowEvent.position events.rows := by
  refine events.unique.imp fun {event event'} hclash hsame => ?_
  have hid : event.id = event'.id := congrArg (fun position => (ofLex position).2) hsame
  have hne := of_decide_eq_false hclash
  exact hne hid

/-- The query takes the next batch past the cursor. -/
theorem exportBatch_eq_batch (w : ExportWorld) (opts : ExportWorkflowEventsOptions) :
    w.exportBatch opts =
      batch WorkflowEvent.position
        (fun event => decide (event.occurredAt ≤ w.now - marginOf opts.safetyMarginMs))
        (opts.since.map ObservabilityExportCursor.position) (opts.limit.getD defaultExportLimit)
        w.workflowEvents.rows := by
  have hwhere : isExportable (w.now - marginOf opts.safetyMarginMs) opts.since = fun event =>
      decide (event.occurredAt ≤ w.now - marginOf opts.safetyMarginMs) &&
        decide (Past (opts.since.map ObservabilityExportCursor.position) event.position) := by
    funext event
    rcases opts.since with _ | cursor
    · simp [isExportable]
    · simp [isExportable, position_lt_iff]
  unfold ExportWorld.exportBatch batch left Table.select
  rw [← hwhere]
  rfl

/-! ### The cursor -/

theorem cursor_id_ne {w : ExportWorld} {cursorId : String} {cursor : ObservabilityExportCursor}
    (h : w.cursor cursorId = some cursor) : cursor.lastEventId ≠ "" := by
  unfold ExportWorld.cursor at h
  obtain ⟨row, -, hrow⟩ := Option.bind_eq_some_iff.mp h
  unfold ObservabilityExportCursorRow.cursor at hrow
  split at hrow
  · split at hrow
    · cases hrow
    · rename_i id _ _ _ hid
      rw [← Option.some.inj hrow]
      exact hid
  · cases hrow

/-- A stored cursor comes back through the options. -/
theorem since_exportOptions (safetyMarginMs : Option ℤ) (call : ExportCall) (w : ExportWorld)
    (cursorId : String) :
    (exportOptions safetyMarginMs call (w.cursor cursorId)).since = w.cursor cursorId := by
  rcases hcursor : w.cursor cursorId with _ | cursor
  · rfl
  · have hid := cursor_id_ne hcursor
    simp [exportOptions, ExportWorkflowEventsOptions.since, hid]

theorem cursor_setCursor (w : ExportWorld) (cursorId : String) {cursor : ObservabilityExportCursor}
    (hid : cursor.lastEventId ≠ "") : (w.setCursor cursorId cursor).cursor cursorId = some cursor := by
  unfold ExportWorld.setCursor ExportWorld.cursor
  simp only
  rw [Table.find?_upsert]
  · simp [ObservabilityExportCursorRow.cursor, hid]
  · intro row
    rfl
  · intro row hclash
    have hrow : row.id = cursorId := of_decide_eq_true hclash
    simp [ObservabilityExportCursorRow.set, hrow]

theorem cursor_setCursor_of_ne (w : ExportWorld) {cursorId other : String}
    (cursor : ObservabilityExportCursor) (hne : other ≠ cursorId) :
    (w.setCursor cursorId cursor).cursor other = w.cursor other := by
  unfold ExportWorld.setCursor ExportWorld.cursor
  simp only
  rw [Table.find?_upsert_of_not]
  · exact beq_false_of_ne (Ne.symm hne)
  · intro row hclash
    have hrow : row.id = cursorId := of_decide_eq_true hclash
    have hother : (row.id == other) = false := by
      rw [hrow]
      exact beq_false_of_ne (Ne.symm hne)
    exact ⟨hother, hother⟩

/-! ### What a run does -/

theorem frame_queryExport {α : Type} (fails : Option String) (f : ExportWorld → α) :
    Frame id (queryExport fails f) := by
  rcases fails with _ | error
  · exact frame_read f
  · exact frame_throw error

theorem queryExport_ok {α : Type} {fails : Option String} {f : ExportWorld → α} {a : α}
    {w w' : ExportWorld} (h : exec (queryExport fails f) w = (.ok a, w')) : a = f w ∧ w' = w := by
  rcases fails with _ | error
  · obtain ⟨ha, hw⟩ := Prod.mk.inj h
    exact ⟨(Except.ok.inj ha).symm, hw.symm⟩
  · cases (Prod.mk.inj h).1

theorem frame_postLogs (call : ExportCall) (endpoint : String) (payload : OtlpLogsPayload) :
    Frame id (postLogs call endpoint payload) := by
  unfold postLogs
  split
  · exact frame_throw _
  · exact frame_ite (frame_pure _) (frame_throw _)

/-- The export itself writes nothing. -/
theorem frame_exportWorkflowEventsToOtlp (call : ExportCall) (opts : ExportWorkflowEventsOptions) :
    Frame id (exportWorkflowEventsToOtlp call opts) := by
  unfold exportWorkflowEventsToOtlp
  split
  · exact frame_pure _
  · refine frame_ite (frame_pure _) (frame_bind (frame_queryExport _ _) fun events => ?_)
    split
    · exact frame_pure _
    · exact frame_bind (frame_postLogs _ _ _) fun _ => frame_pure _

theorem exportWorkflowEventsToOtlp_ok {call : ExportCall} {opts : ExportWorkflowEventsOptions}
    {run : ExportWorkflowEventsResult × Option OtlpLogsPayload} {w w' : ExportWorld}
    (h : exec (exportWorkflowEventsToOtlp call opts) w = (.ok run, w')) :
    run = (notAttempted, none) ∨ w.exportBatch opts = [] ∧ run = (nothingNew opts.since, none) ∨
      ∃ last, (w.exportBatch opts).getLast? = some last ∧
        run = (exportedUpTo (w.exportBatch opts) last,
          some (mapWorkflowEventsToOtlp (w.exportBatch opts))) := by
  unfold exportWorkflowEventsToOtlp at h
  split at h
  · exact Or.inl (Except.ok.inj (Prod.mk.inj h).1).symm
  rw [exec_ite] at h
  split at h
  · exact Or.inl (Except.ok.inj (Prod.mk.inj h).1).symm
  obtain ⟨events, w₁, hquery, hrest⟩ := exec_bind_ok.mp h
  obtain ⟨rfl, rfl⟩ := queryExport_ok hquery
  right
  split at hrest
  · rename_i hnone
    exact Or.inl ⟨List.getLast?_eq_none_iff.mp hnone, (Except.ok.inj (Prod.mk.inj hrest).1).symm⟩
  · rename_i last hlast
    obtain ⟨_, w₂, -, hpure⟩ := exec_bind_ok.mp hrest
    exact Or.inr ⟨last, hlast, (Except.ok.inj (Prod.mk.inj hpure).1).symm⟩

/-- A run has sent some events for a cursor, which is on the last of them now. -/
structure Exported (w w' : ExportWorld) (cursorId : String) (events : List WorkflowEvent) :
    Prop where
  now_eq : w'.now = w.now
  workflowEvents_eq : w'.workflowEvents = w.workflowEvents
  cursor_of_ne : ∀ other, other ≠ cursorId → w'.cursor other = w.cursor other
  cursor_of_nil : events = [] → w'.cursor cursorId = w.cursor cursorId
  cursor_of_last : ∀ last, events.getLast? = some last →
    w'.cursor cursorId = some ⟨last.id, last.occurredAt⟩

theorem Exported.refl (w : ExportWorld) (cursorId : String) : Exported w w cursorId [] where
  now_eq := rfl
  workflowEvents_eq := rfl
  cursor_of_ne _ _ := rfl
  cursor_of_nil _ := rfl
  cursor_of_last _ hlast := by cases hlast

theorem Exported.setCursor {w : ExportWorld} {cursorId : String} {events : List WorkflowEvent}
    {last : WorkflowEvent} (hlast : events.getLast? = some last) (hid : last.id ≠ "") :
    Exported w (w.setCursor cursorId ⟨last.id, last.occurredAt⟩) cursorId events where
  now_eq := rfl
  workflowEvents_eq := rfl
  cursor_of_ne _ hne := cursor_setCursor_of_ne w _ hne
  cursor_of_nil hnil := by
    rw [hnil] at hlast
    cases hlast
  cursor_of_last _ hother := by
    rw [← Option.some.inj (hlast.symm.trans hother)]
    exact cursor_setCursor w cursorId hid

/-- The run stores the cursor that it had. -/
theorem Exported.keepCursor {w : ExportWorld} {cursorId : String}
    {cursor : ObservabilityExportCursor} (hcursor : w.cursor cursorId = some cursor) :
    Exported w (w.setCursor cursorId cursor) cursorId [] where
  now_eq := rfl
  workflowEvents_eq := rfl
  cursor_of_ne _ hne := cursor_setCursor_of_ne w _ hne
  cursor_of_nil _ := (cursor_setCursor w cursorId (cursor_id_ne hcursor)).trans hcursor.symm
  cursor_of_last _ hlast := by cases hlast

/-- The payload of some events, where there are any. -/
def payloadOf (events : List WorkflowEvent) : Option OtlpLogsPayload :=
  if events = [] then none else some (mapWorkflowEventsToOtlp events)

theorem storeCursor_exported {w : ExportWorld} {cursorId id : String} {occurredAt : ℤ} {count : ℕ}
    (hid : id ≠ "") :
    exec (storeCursor cursorId ⟨true, count, some id, some occurredAt⟩) w =
      (.ok (), w.setCursor cursorId ⟨id, occurredAt⟩) := by
  simp [storeCursor, hid, setObservabilityExportCursor]

theorem returns_storeCursor (cursorId : String) (result : ExportWorkflowEventsResult)
    (w : ExportWorld) : ∃ w', exec (storeCursor cursorId result) w = (.ok (), w') := by
  unfold storeCursor
  split
  · split
    · exact ⟨w, rfl⟩
    · exact ⟨_, rfl⟩
  · exact ⟨w, rfl⟩

theorem storeCursor_nothingNew (w : ExportWorld) (cursorId : String) :
    ∃ w', exec (storeCursor cursorId (nothingNew (w.cursor cursorId))) w = (.ok (), w') ∧
      Exported w w' cursorId [] := by
  rcases hcursor : w.cursor cursorId with _ | cursor
  · exact ⟨w, rfl, Exported.refl w cursorId⟩
  · exact ⟨_, storeCursor_exported (cursor_id_ne hcursor), Exported.keepCursor hcursor⟩

/-- **What a run of the command does**: it sends the next batch, or nothing where it has no
endpoint. -/
theorem exportOtel_ok {safetyMarginMs : Option ℤ} {call : ExportCall}
    {run : ExportWorkflowEventsResult × Option OtlpLogsPayload} {w w' : ExportWorld}
    (hnamed : ∀ event ∈ w.workflowEvents.rows, event.id ≠ "")
    (h : exec (exportOtel safetyMarginMs call) w = (.ok run, w')) :
    ∃ events, Exported w w' call.cursorId events ∧ run.2 = payloadOf events ∧
      (run.1.attempted = false ∧ events = [] ∨
        run.1.attempted = true ∧ (∀ limit, call.limit = some limit → 0 < limit) ∧
          events = w.exportBatch
            (exportOptions safetyMarginMs call (w.cursor call.cursorId))) := by
  unfold exportOtel getObservabilityExportCursor at h
  obtain ⟨cursor, w₁, hquery, hrest⟩ := exec_bind_ok.mp h
  obtain ⟨rfl, rfl⟩ := queryExport_ok hquery
  rw [exec_ite] at hrest
  split at hrest
  · cases (Prod.mk.inj hrest).1
  rename_i hlimit
  have hpos : ∀ limit, call.limit = some limit → 0 < limit := by
    intro limit hsome
    rw [hsome, Option.any_some, decide_eq_true_iff] at hlimit
    exact not_le.mp hlimit
  obtain ⟨run', w₂, hexport, hstored⟩ := exec_bind_ok.mp hrest
  have hsame := (frame_exportWorkflowEventsToOtlp call _).of_exec hexport
  simp only [id] at hsame
  subst hsame
  obtain ⟨_, w₃, hstore, hpure⟩ := exec_bind_ok.mp hstored
  obtain ⟨hrun, hw⟩ := Prod.mk.inj hpure
  obtain rfl := Except.ok.inj hrun
  subst hw
  rcases exportWorkflowEventsToOtlp_ok hexport with rfl | ⟨hempty, rfl⟩ | ⟨last, hlast, rfl⟩
  · obtain rfl := (Prod.mk.inj hstore).2
    exact ⟨[], Exported.refl _ _, rfl, Or.inl ⟨rfl, rfl⟩⟩
  · rw [since_exportOptions] at hstore
    obtain ⟨w', hw', hexported⟩ := storeCursor_nothingNew w₂ call.cursorId
    rw [hw'] at hstore
    obtain rfl := (Prod.mk.inj hstore).2
    exact ⟨[], hexported, rfl, Or.inr ⟨rfl, hpos, hempty.symm⟩⟩
  · have hmem := (of_mem_batch (exportBatch_eq_batch w₂ _ ▸ List.mem_of_getLast? hlast)).1
    rw [exportedUpTo, storeCursor_exported (hnamed last hmem)] at hstore
    obtain rfl := (Prod.mk.inj hstore).2
    refine ⟨_, Exported.setCursor hlast (hnamed last hmem), ?_, Or.inr ⟨rfl, hpos, rfl⟩⟩
    have hne : w₂.exportBatch (exportOptions safetyMarginMs call (w₂.cursor call.cursorId)) ≠ [] := by
      intro hnil
      rw [hnil] at hlast
      cases hlast
    rw [payloadOf, if_neg hne]

/-- **A run that fails changes nothing.** -/
theorem exportOtel_error {safetyMarginMs : Option ℤ} {call : ExportCall} {error : String}
    {w w' : ExportWorld} (h : exec (exportOtel safetyMarginMs call) w = (.error error, w')) :
    w' = w := by
  unfold exportOtel getObservabilityExportCursor at h
  rcases exec_bind_error.mp h with hquery | ⟨cursor, w₁, hquery, hrest⟩
  · exact (frame_queryExport _ _).of_exec hquery
  obtain ⟨rfl, rfl⟩ := queryExport_ok hquery
  rw [exec_ite] at hrest
  split at hrest
  · exact (Prod.mk.inj hrest).2.symm
  rcases exec_bind_error.mp hrest with hexport | ⟨run, w₂, hexport, hstored⟩
  · exact (frame_exportWorkflowEventsToOtlp call _).of_exec hexport
  · -- the cursor is stored without fail
    obtain ⟨w₃, hstore⟩ := returns_storeCursor call.cursorId run.1 w₂
    rw [exec_bind_of hstore] at hstored
    cases (Prod.mk.inj hstored).1

/-! ### Steps -/

/-- An event is inserted before the clock has passed its time by the safety margin. -/
def InTime (safetyMarginMs : Option ℤ) (w : ExportWorld) : ExportStep → Prop
  | .insert event => w.now < event.occurredAt + marginOf safetyMarginMs
  | _ => True

/-- The result of a run for a cursor that has reached the collector, or found nothing to send. -/
def ExportWorld.succeeded (safetyMarginMs : Option ℤ) (cursorId : String) (w : ExportWorld) :
    ExportStep → Option ExportWorkflowEventsResult
  | .exportOtel call =>
    if call.cursorId = cursorId then
      match (exec (MiniCoder.exportOtel safetyMarginMs call) w).1 with
      | .ok run => if run.1.attempted then some run.1 else none
      | .error _ => none
    else none
  | _ => none

/-- The clock has left the cursor behind by the safety margin. -/
structure ExportWorld.Settled (safetyMarginMs : Option ℤ) (cursorId : String) (w : ExportWorld) :
    Prop where
  named : ∀ event ∈ w.workflowEvents.rows, event.id ≠ ""
  settled : ∀ cursor, w.cursor cursorId = some cursor →
    cursor.lastOccurredAt + marginOf safetyMarginMs ≤ w.now

section Step

variable {safetyMarginMs : Option ℤ} {cursorId : String} {w : ExportWorld}

theorem upToCursor_congr {w' : ExportWorld} (hevents : w'.workflowEvents = w.workflowEvents)
    (hcursor : w'.cursor cursorId = w.cursor cursorId) :
    w'.upToCursor cursorId = w.upToCursor cursorId := by
  rw [upToCursor_eq_reached, upToCursor_eq_reached, hevents]
  unfold ExportWorld.cursorPosition
  rw [hcursor]

/-- What a run of the command does, as a step. -/
theorem next_exportOtel (safetyMarginMs : Option ℤ)
    (hnamed : ∀ event ∈ w.workflowEvents.rows, event.id ≠ "")
    (call : ExportCall) :
    ∃ events, Exported w (w.next safetyMarginMs (.exportOtel call)) call.cursorId events ∧
      w.exported safetyMarginMs call.cursorId (.exportOtel call) = payloadOf events ∧
      (w.succeeded safetyMarginMs call.cursorId (.exportOtel call) = none ∧ events = [] ∨
        (∀ limit, call.limit = some limit → 0 < limit) ∧
          events = w.exportBatch
            (exportOptions safetyMarginMs call (w.cursor call.cursorId))) := by
  unfold ExportWorld.next ExportWorld.exported ExportWorld.succeeded
  simp only [if_pos]
  rcases hrun : exec (exportOtel safetyMarginMs call) w with ⟨error | run, w'⟩
  · obtain rfl := exportOtel_error hrun
    exact ⟨[], Exported.refl _ _, rfl, Or.inl ⟨rfl, rfl⟩⟩
  · obtain ⟨events, hexported, hpayload, hcase⟩ := exportOtel_ok hnamed hrun
    refine ⟨events, hexported, hpayload, ?_⟩
    rcases hcase with ⟨hattempted, hevents⟩ | ⟨-, hbatch⟩
    · exact Or.inl ⟨by simp [hattempted], hevents⟩
    · exact Or.inr hbatch

/-- The batch that a run takes, as the library has it. -/
theorem exportBatch_exportOptions (call : ExportCall) :
    w.exportBatch (exportOptions safetyMarginMs call (w.cursor cursorId)) =
      batch WorkflowEvent.position
        (fun event => decide (event.occurredAt ≤ w.now - marginOf safetyMarginMs))
        (w.cursorPosition cursorId) ((call.limit.map Int.toNat).getD defaultExportLimit)
        w.workflowEvents.rows := by
  rw [exportBatch_eq_batch, since_exportOptions]
  rfl

/-- The cursor is on the last event that was sent. -/
theorem Exported.cursorPosition {w' : ExportWorld} {events : List WorkflowEvent}
    {last : WorkflowEvent} (h : Exported w w' cursorId events)
    (hlast : events.getLast? = some last) : w'.cursorPosition cursorId = some last.position := by
  unfold ExportWorld.cursorPosition
  rw [h.cursor_of_last last hlast]
  rfl

/-- **What a run sends comes next** after the events up to the cursor. -/
theorem upToCursor_next (hs : w.Settled safetyMarginMs cursorId) {step : ExportStep}
    (hin : InTime safetyMarginMs w step) :
    ∃ events, w.exported safetyMarginMs cursorId step = payloadOf events ∧
      (w.next safetyMarginMs step).upToCursor cursorId = w.upToCursor cursorId ++ events := by
  cases step with
  | tick ms =>
    refine ⟨[], rfl, ?_⟩
    rw [List.append_nil]
    exact upToCursor_congr rfl rfl
  | insert event =>
    refine ⟨[], rfl, ?_⟩
    rw [List.append_nil]
    rcases w.workflowEvents.rows_insertNew event.toWorkflowEvent with hrows | hsame
    · -- the new event is past the cursor
      have hpast : Past (w.cursorPosition cursorId) event.toWorkflowEvent.position := by
        intro position hposition
        obtain ⟨cursor, hcursor, rfl⟩ := Option.map_eq_some_iff.mp hposition
        have hsettled := hs.settled cursor hcursor
        simp only [InTime] at hin
        exact position_lt_iff.mpr (Or.inl (by omega))
      rw [upToCursor_eq_reached, upToCursor_eq_reached]
      show reached _ _ (w.cursorPosition cursorId) (w.workflowEvents.insertNew _).rows = _
      rw [hrows, reached_append_past hpast]
    · exact upToCursor_congr hsame rfl
  | exportOtel call =>
    obtain ⟨events, hexported, hpayload, hbatch⟩ := next_exportOtel safetyMarginMs hs.named call
    by_cases hid : call.cursorId = cursorId
    · subst hid
      refine ⟨events, hpayload, ?_⟩
      rcases hlast : events.getLast? with _ | last
      · have hnil := List.getLast?_eq_none_iff.mp hlast
        rw [hnil, List.append_nil]
        exact upToCursor_congr hexported.workflowEvents_eq (hexported.cursor_of_nil hnil)
      · have hevents := (hbatch.resolve_left fun h => by simp [h.2] at hlast).2
        rw [exportBatch_exportOptions] at hevents
        rw [upToCursor_eq_reached, upToCursor_eq_reached, hexported.cursorPosition hlast,
          hexported.workflowEvents_eq, hevents]
        rw [hevents] at hlast
        refine reached_next (distinct_position _) (fun _ _ => rfl) (fun event event' _ hle hpos => ?_)
          hlast
        have htime := occurredAt_le_of_position_le hpos
        rw [decide_eq_true_iff] at hle ⊢
        omega
    · refine ⟨[], ?_, ?_⟩
      · simp [ExportWorld.exported, hid, payloadOf]
      · rw [List.append_nil]
        exact upToCursor_congr hexported.workflowEvents_eq
          (hexported.cursor_of_ne cursorId (Ne.symm hid))

/-- A run leaves the clock, and moves the cursor to an event that the clock has left behind. -/
theorem settled_next (hs : w.Settled safetyMarginMs cursorId) (step : ExportStep) :
    (w.next safetyMarginMs step).Settled safetyMarginMs cursorId := by
  cases step with
  | tick ms =>
    refine ⟨hs.named, fun cursor hcursor => ?_⟩
    have hsettled := hs.settled cursor hcursor
    simp only [ExportWorld.next]
    omega
  | insert event =>
    refine ⟨fun event' hevent' => ?_, hs.settled⟩
    rcases (Table.mem_insertNew _).mp hevent' with hold | ⟨rfl, -⟩
    · exact hs.named event' hold
    · exact event.id_ne
  | exportOtel call =>
    obtain ⟨events, hexported, -, hbatch⟩ := next_exportOtel safetyMarginMs hs.named call
    refine ⟨?_, fun cursor hcursor => ?_⟩
    · rw [hexported.workflowEvents_eq]
      exact hs.named
    rw [hexported.now_eq]
    by_cases hid : call.cursorId = cursorId
    · subst hid
      rcases hlast : events.getLast? with _ | last
      · rw [hexported.cursor_of_nil (List.getLast?_eq_none_iff.mp hlast)] at hcursor
        exact hs.settled cursor hcursor
      · rw [hexported.cursor_of_last last hlast] at hcursor
        obtain rfl := Option.some.inj hcursor
        have hevents := (hbatch.resolve_left fun h => by simp [h.2] at hlast).2
        rw [exportBatch_exportOptions] at hevents
        rw [hevents] at hlast
        have hle := (of_mem_batch (List.mem_of_getLast? hlast)).2.1
        rw [decide_eq_true_iff] at hle
        show last.occurredAt + _ ≤ _
        omega
    · rw [hexported.cursor_of_ne cursorId (Ne.symm hid)] at hcursor
      exact hs.settled cursor hcursor

theorem now_le_next (hnamed : ∀ event ∈ w.workflowEvents.rows, event.id ≠ "") (step : ExportStep) :
    w.now ≤ (w.next safetyMarginMs step).now := by
  cases step with
  | tick ms =>
    simp only [ExportWorld.next]
    omega
  | insert event => exact le_refl _
  | exportOtel call =>
    obtain ⟨events, hexported, -⟩ := next_exportOtel safetyMarginMs hnamed call
    exact hexported.now_eq.ge

/-! ### Progress -/

/-- How many events there are between the cursor and an event. -/
def ExportWorld.aheadOf (w : ExportWorld) (cursorId : String) (event : WorkflowEvent) : ℕ :=
  ahead WorkflowEvent.position (w.cursorPosition cursorId) event.position w.workflowEvents.rows

theorem aheadOf_congr {w' : ExportWorld} (hevents : w'.workflowEvents = w.workflowEvents)
    (hcursor : w'.cursor cursorId = w.cursor cursorId) (event : WorkflowEvent) :
    w'.aheadOf cursorId event = w.aheadOf cursorId event := by
  unfold ExportWorld.aheadOf ExportWorld.cursorPosition
  rw [hevents, hcursor]

/-- A successful run brings the cursor closer to an event that the clock has left behind. -/
theorem aheadOf_export {call : ExportCall} {event : WorkflowEvent} {w' : ExportWorld}
    {events : List WorkflowEvent} (hexported : Exported w w' cursorId events)
    (hlimit : ∀ limit, call.limit = some limit → 0 < limit)
    (hevents : events = w.exportBatch (exportOptions safetyMarginMs call (w.cursor cursorId)))
    (hpassed : event.occurredAt + marginOf safetyMarginMs ≤ w.now) :
    w'.aheadOf cursorId event ≤ w.aheadOf cursorId event - 1 := by
  rw [exportBatch_exportOptions] at hevents
  have hpos : 0 < (call.limit.map Int.toNat).getD defaultExportLimit := by
    rcases hcall : call.limit with _ | limit
    · decide
    · have hlim := hlimit limit hcall
      simp only [Option.map_some, Option.getD_some]
      omega
  rcases hlast : events.getLast? with _ | last
  · have hnil := List.getLast?_eq_none_iff.mp hlast
    rw [aheadOf_congr hexported.workflowEvents_eq (hexported.cursor_of_nil hnil)]
    -- an event between the cursor and this one would have been sent
    have hzero : w.aheadOf cursorId event = 0 := by
      apply List.countP_eq_zero.mpr
      intro other hother hahead
      rw [Bool.and_eq_true, decide_eq_true_iff, decide_eq_true_iff] at hahead
      have htime := occurredAt_le_of_position_le hahead.1
      have hseen : decide (other.occurredAt ≤ w.now - marginOf safetyMarginMs) = true := by
        rw [decide_eq_true_iff]
        omega
      rw [hnil] at hevents
      exact batch_ne_nil hpos hother hseen hahead.2 hevents.symm
    omega
  · have hcursor := hexported.cursorPosition hlast
    rw [hevents] at hlast
    unfold ExportWorld.aheadOf
    rw [hcursor, hexported.workflowEvents_eq]
    by_cases hzero : w.aheadOf cursorId event = 0
    · have hle := ahead_next_le event.position hlast
      unfold ExportWorld.aheadOf at hzero
      omega
    · obtain ⟨other, hother, hahead⟩ := List.countP_pos_iff.mp (Nat.pos_of_ne_zero hzero)
      rw [Bool.and_eq_true, decide_eq_true_iff, decide_eq_true_iff] at hahead
      have htime := occurredAt_le_of_position_le hahead.1
      have hseen : decide (other.occurredAt ≤ w.now - marginOf safetyMarginMs) = true := by
        rw [decide_eq_true_iff]
        omega
      have hlt := ahead_next_lt (distinct_position _) hother hseen hahead.2 hahead.1 hlast
      omega

theorem aheadOf_next (hs : w.Settled safetyMarginMs cursorId) {step : ExportStep}
    (hin : InTime safetyMarginMs w step) {event : WorkflowEvent}
    (hpassed : event.occurredAt + marginOf safetyMarginMs ≤ w.now) :
    (w.next safetyMarginMs step).aheadOf cursorId event ≤
      w.aheadOf cursorId event - (w.succeeded safetyMarginMs cursorId step).toList.length := by
  cases step with
  | tick ms => exact le_of_eq (aheadOf_congr rfl rfl event)
  | insert other =>
    rcases w.workflowEvents.rows_insertNew other.toWorkflowEvent with hrows | hsame
    · -- the new event is past this one
      have hafter : ¬ other.toWorkflowEvent.position ≤ event.position := by
        intro hle
        have htime := occurredAt_le_of_position_le hle
        simp only [InTime] at hin
        omega
      show ahead _ (w.cursorPosition cursorId) _ (w.workflowEvents.insertNew _).rows ≤ _
      rw [hrows, ahead, List.countP_append, List.countP_singleton]
      simp only [hafter, decide_false, Bool.false_and, Bool.false_eq_true, if_false]
      exact Nat.le_refl _
    · have hevents : (w.next safetyMarginMs (.insert other)).workflowEvents = w.workflowEvents := hsame
      exact le_of_eq (aheadOf_congr hevents rfl event)
  | exportOtel call =>
    obtain ⟨events, hexported, -, hbatch⟩ := next_exportOtel safetyMarginMs hs.named call
    by_cases hid : call.cursorId = cursorId
    · subst hid
      rcases hbatch with ⟨hfailed, hnil⟩ | ⟨hlimit, hevents⟩
      · rw [hfailed]
        exact le_of_eq
          (aheadOf_congr hexported.workflowEvents_eq (hexported.cursor_of_nil hnil) event)
      · have hle := aheadOf_export hexported hlimit hevents hpassed
        have hone : (w.succeeded safetyMarginMs call.cursorId (.exportOtel call)).toList.length ≤ 1 :=
          Option.length_toList_le
        omega
    · have hfailed : w.succeeded safetyMarginMs cursorId (.exportOtel call) = none := by
        simp [ExportWorld.succeeded, hid]
      rw [hfailed]
      exact le_of_eq (aheadOf_congr hexported.workflowEvents_eq
        (hexported.cursor_of_ne cursorId (Ne.symm hid)) event)

/-! ### Runs -/

theorem settled_run (hs : w.Settled safetyMarginMs cursorId) (steps : List ExportStep) :
    (run (ExportWorld.next safetyMarginMs) w steps).Settled safetyMarginMs cursorId := by
  induction steps generalizing w with
  | nil => exact hs
  | cons step steps ih => exact ih (settled_next hs step)

/-- The log records of a payload of some events are those of the events. -/
theorem logRecords_payloadOf (events : List WorkflowEvent) :
    (payloadOf events).toList.flatMap OtlpLogsPayload.logRecords =
      events.map WorkflowEvent.toLogRecord := by
  unfold payloadOf
  split
  · rename_i hnil
    rw [hnil]
    rfl
  · rw [Option.toList_some, List.flatMap_singleton, logRecords_mapWorkflowEventsToOtlp]

/-- The records that a run sends come next after those of the events up to the cursor. -/
theorem logRecords_run (hs : w.Settled safetyMarginMs cursorId) {steps : List ExportStep}
    (hin : Along (ExportWorld.next safetyMarginMs) (InTime safetyMarginMs) w steps) :
    ((run (ExportWorld.next safetyMarginMs) w steps).upToCursor cursorId).map
        WorkflowEvent.toLogRecord =
      (w.upToCursor cursorId).map WorkflowEvent.toLogRecord ++
        (outputs (ExportWorld.next safetyMarginMs) (ExportWorld.exported safetyMarginMs cursorId) w
          steps).flatMap OtlpLogsPayload.logRecords := by
  induction steps generalizing w with
  | nil => simp
  | cons step steps ih =>
    obtain ⟨hfirst, hrest⟩ := hin
    obtain ⟨events, hpayload, hnext⟩ := upToCursor_next hs hfirst
    rw [run_cons, ih (settled_next hs step) hrest, hnext, outputs_cons, hpayload,
      List.flatMap_append, logRecords_payloadOf, List.map_append, List.append_assoc]

/-- Every successful run brings the cursor closer to an event that the clock has left behind. -/
theorem aheadOf_run (hs : w.Settled safetyMarginMs cursorId) {steps : List ExportStep}
    (hin : Along (ExportWorld.next safetyMarginMs) (InTime safetyMarginMs) w steps)
    {event : WorkflowEvent} (hpassed : event.occurredAt + marginOf safetyMarginMs ≤ w.now) :
    (run (ExportWorld.next safetyMarginMs) w steps).aheadOf cursorId event ≤
      w.aheadOf cursorId event -
        (outputs (ExportWorld.next safetyMarginMs) (ExportWorld.succeeded safetyMarginMs cursorId) w
          steps).length := by
  induction steps generalizing w with
  | nil => exact Nat.le_refl _
  | cons step steps ih =>
    obtain ⟨hfirst, hrest⟩ := hin
    have hstep := aheadOf_next hs hfirst hpassed
    have hlater := ih (settled_next hs step) hrest (hpassed.trans (now_le_next hs.named step))
    rw [run_cons, outputs_cons, List.length_append]
    omega

/-! ### Exports of one event -/

theorem id_eq_of_toLogRecord {event event' : WorkflowEvent}
    (h : event.toLogRecord = event'.toLogRecord) : event.id = event'.id := by
  have hattributes := congrArg (fun record => record.attributes.map OtlpAttribute.value) h
  exact (List.cons.inj hattributes).1

/-- Events of a table with one log record are one event. -/
theorem eq_of_toLogRecord {events : Table WorkflowEvent} {event event' : WorkflowEvent}
    (hevent : event ∈ events.rows) (hevent' : event' ∈ events.rows)
    (h : event.toLogRecord = event'.toLogRecord) : event = event' :=
  events.eq_of_clash hevent hevent' (decide_eq_true (id_eq_of_toLogRecord h))

theorem mem_upToCursor {event : WorkflowEvent} :
    event ∈ w.upToCursor cursorId ↔
      event ∈ w.workflowEvents.rows ∧ w.isUpToCursor cursorId event = true := by
  rw [ExportWorld.upToCursor, (sortBy_perm _ _).mem_iff, Table.select, List.mem_filter]

theorem upToCursor_pairwise (w : ExportWorld) (cursorId : String) :
    (w.upToCursor cursorId).Pairwise fun event event' => event.position < event'.position :=
  sortBy_pairwise ((distinct_position w.workflowEvents).filter _)

theorem nodup_logRecords (w : ExportWorld) (cursorId : String) :
    ((w.upToCursor cursorId).map WorkflowEvent.toLogRecord).Nodup := by
  apply List.Nodup.map_on
  · intro event hevent event' hevent' h
    exact eq_of_toLogRecord (mem_upToCursor.mp hevent).1 (mem_upToCursor.mp hevent').1 h
  · refine (upToCursor_pairwise w cursorId).imp fun {event event'} hlt hsame => ?_
    rw [hsame] at hlt
    exact lt_irrefl _ hlt

/-- A payload has the record of an event. -/
def OtlpLogsPayload.contains (event : WorkflowEvent) (payload : OtlpLogsPayload) : Bool :=
  decide (event.toLogRecord ∈ payload.logRecords)

/-- How many of the payloads with the records of the events up to the cursor have an event. -/
theorem countP_contains {payloads : List OtlpLogsPayload} {event : WorkflowEvent}
    (hrecords : payloads.flatMap OtlpLogsPayload.logRecords =
      (w.upToCursor cursorId).map WorkflowEvent.toLogRecord)
    (hevent : event ∈ w.workflowEvents.rows) :
    payloads.countP (OtlpLogsPayload.contains event) =
      if w.isUpToCursor cursorId event then 1 else 0 := by
  have hnodup := nodup_logRecords w cursorId
  rw [← hrecords] at hnodup
  have hmem : event.toLogRecord ∈ payloads.flatMap OtlpLogsPayload.logRecords ↔
      w.isUpToCursor cursorId event = true := by
    rw [hrecords, List.mem_map]
    constructor
    · rintro ⟨event', hevent', hsame⟩
      obtain ⟨hrow, hup⟩ := mem_upToCursor.mp hevent'
      rw [eq_of_toLogRecord hevent hrow hsame.symm]
      exact hup
    · intro hup
      exact ⟨event, mem_upToCursor.mpr ⟨hevent, hup⟩, rfl⟩
  have hcount := countP_mem_flatMap hnodup event.toLogRecord
  simp only [hmem] at hcount
  exact hcount

end Step

/-- A system in which nothing has happened. -/
def ExportWorld.start (now : ℤ) : ExportWorld := { now }

theorem settled_start (safetyMarginMs : Option ℤ) (cursorId : String) (now : ℤ) :
    (ExportWorld.start now).Settled safetyMarginMs cursorId where
  named event hevent := by cases hevent
  settled cursor hcursor := by cases hcursor

/-- The payloads that a sequence of steps has got to the collector for a cursor. -/
def exports (safetyMarginMs : Option ℤ) (cursorId : String) (now : ℤ) (steps : List ExportStep) :
    List OtlpLogsPayload :=
  outputs (ExportWorld.next safetyMarginMs) (ExportWorld.exported safetyMarginMs cursorId)
    (ExportWorld.start now) steps

/-- The state after a sequence of steps. -/
def ExportWorld.after (safetyMarginMs : Option ℤ) (now : ℤ) (steps : List ExportStep) :
    ExportWorld :=
  run (ExportWorld.next safetyMarginMs) (ExportWorld.start now) steps

section Exports

variable {safetyMarginMs : Option ℤ} {now : ℤ} {steps : List ExportStep}

theorem logRecords_exports (cursorId : String)
    (hin : Along (ExportWorld.next safetyMarginMs) (InTime safetyMarginMs) (.start now) steps) :
    (exports safetyMarginMs cursorId now steps).flatMap OtlpLogsPayload.logRecords =
      ((ExportWorld.after safetyMarginMs now steps).upToCursor cursorId).map
        WorkflowEvent.toLogRecord :=
  (logRecords_run (settled_start safetyMarginMs cursorId now) hin).symm

/-- Events stay. -/
theorem mem_workflowEvents_run {w : ExportWorld} {cursorId : String}
    (hs : w.Settled safetyMarginMs cursorId) {event : WorkflowEvent}
    (hevent : event ∈ w.workflowEvents.rows) (later : List ExportStep) :
    event ∈ (run (ExportWorld.next safetyMarginMs) w later).workflowEvents.rows := by
  induction later generalizing w with
  | nil => exact hevent
  | cons step steps ih =>
    refine ih (settled_next hs step) ?_
    cases step with
    | tick ms => exact hevent
    | insert other => exact (Table.mem_insertNew _).mpr (Or.inl hevent)
    | exportOtel call =>
      obtain ⟨events, hexported, -⟩ := next_exportOtel safetyMarginMs hs.named call
      rw [hexported.workflowEvents_eq]
      exact hevent

theorem mem_workflowEvents_after {event : WorkflowEvent}
    (hevent : event ∈ (ExportWorld.after safetyMarginMs now steps).workflowEvents.rows)
    (later : List ExportStep) :
    event ∈ (ExportWorld.after safetyMarginMs now (steps ++ later)).workflowEvents.rows := by
  unfold ExportWorld.after at *
  rw [run_append]
  exact mem_workflowEvents_run (settled_run (settled_start safetyMarginMs "" now) steps) hevent later

/-- As many successful runs as there are events up to an event that the clock has left behind bring
the cursor to it. -/
theorem isUpToCursor_after_successes (cursorId : String) {later : List ExportStep}
    (hin : Along (ExportWorld.next safetyMarginMs) (InTime safetyMarginMs) (.start now)
      (steps ++ later)) {event : WorkflowEvent}
    (hevent : event ∈ (ExportWorld.after safetyMarginMs now steps).workflowEvents.rows)
    (hpassed : event.occurredAt + marginOf safetyMarginMs ≤
      (ExportWorld.after safetyMarginMs now steps).now)
    (henough : (ExportWorld.after safetyMarginMs now steps).workflowEvents.count
        (fun other => decide (other.position ≤ event.position)) ≤
      (outputs (ExportWorld.next safetyMarginMs) (ExportWorld.succeeded safetyMarginMs cursorId)
        (ExportWorld.after safetyMarginMs now steps) later).length) :
    (ExportWorld.after safetyMarginMs now (steps ++ later)).isUpToCursor cursorId event = true := by
  have hs : (ExportWorld.after safetyMarginMs now steps).Settled safetyMarginMs cursorId :=
    settled_run (settled_start safetyMarginMs cursorId now) steps
  have hlater := aheadOf_run hs (along_append.mp hin).2 hpassed
  have hall : (ExportWorld.after safetyMarginMs now steps).aheadOf cursorId event ≤
      (ExportWorld.after safetyMarginMs now steps).workflowEvents.count
        (fun other => decide (other.position ≤ event.position)) := by
    refine List.countP_mono_left fun other _ hahead => ?_
    rw [Bool.and_eq_true] at hahead
    exact hahead.1
  have hzero : (ExportWorld.after safetyMarginMs now (steps ++ later)).aheadOf cursorId event = 0 := by
    unfold ExportWorld.after at *
    rw [run_append]
    omega
  have hrow := mem_workflowEvents_after hevent later
  have hnot := not_past_of_ahead_eq_zero hzero hrow le_rfl
  have hup : event ∈ (ExportWorld.after safetyMarginMs now (steps ++ later)).upToCursor cursorId := by
    rw [upToCursor_eq_reached, mem_reached]
    exact ⟨hrow, rfl, hnot⟩
  exact (mem_upToCursor.mp hup).2

end Exports

/-- **Every event is exported once**: in every system whose events are inserted in time, and for every
sequence of exports,

* the records that have been sent, one payload after the other, are those of the events up to the
  cursor in the order of `(occurred_at, id)`;
* an event that is up to the cursor is in one payload, and another one in none;
* a run that fails leaves everything as it is, and sends nothing;
* an event that the clock has left behind by the safety margin is in one payload after as many
  successful runs as there are events up to it. -/
theorem exported_exactly_once (safetyMarginMs : Option ℤ) (cursorId : String) (now : ℤ)
    (steps : List ExportStep)
    (hin : Along (ExportWorld.next safetyMarginMs) (InTime safetyMarginMs) (.start now) steps) :
    ((exports safetyMarginMs cursorId now steps).flatMap OtlpLogsPayload.logRecords =
        ((ExportWorld.after safetyMarginMs now steps).upToCursor cursorId).map
          WorkflowEvent.toLogRecord ∧
      ((ExportWorld.after safetyMarginMs now steps).upToCursor cursorId).Pairwise
        fun event event' => event.position < event'.position) ∧
    (∀ event ∈ (ExportWorld.after safetyMarginMs now steps).workflowEvents.rows,
      (exports safetyMarginMs cursorId now steps).countP (OtlpLogsPayload.contains event) =
        if (ExportWorld.after safetyMarginMs now steps).isUpToCursor cursorId event then 1
        else 0) ∧
    (∀ call error w',
      exec (exportOtel safetyMarginMs call) (ExportWorld.after safetyMarginMs now steps) =
        (.error error, w') →
      w' = ExportWorld.after safetyMarginMs now steps ∧
        exports safetyMarginMs cursorId now (steps ++ [.exportOtel call]) =
          exports safetyMarginMs cursorId now steps) ∧
    ∀ later, Along (ExportWorld.next safetyMarginMs) (InTime safetyMarginMs)
        (ExportWorld.after safetyMarginMs now steps) later →
      ∀ event ∈ (ExportWorld.after safetyMarginMs now steps).workflowEvents.rows,
        event.occurredAt + marginOf safetyMarginMs ≤
          (ExportWorld.after safetyMarginMs now steps).now →
        (ExportWorld.after safetyMarginMs now steps).workflowEvents.count
            (fun other => decide (other.position ≤ event.position)) ≤
          (outputs (ExportWorld.next safetyMarginMs)
            (ExportWorld.succeeded safetyMarginMs cursorId)
            (ExportWorld.after safetyMarginMs now steps) later).length →
        (exports safetyMarginMs cursorId now (steps ++ later)).countP
          (OtlpLogsPayload.contains event) = 1 := by
  have hrecords := logRecords_exports cursorId hin
  refine ⟨⟨hrecords, upToCursor_pairwise _ _⟩, fun event hevent => countP_contains hrecords hevent,
    ?_, ?_⟩
  · intro call error w' herror
    refine ⟨exportOtel_error herror, ?_⟩
    unfold exports
    unfold ExportWorld.after at herror
    rw [outputs_append, outputs_cons, ExportWorld.exported, herror]
    simp
  · intro later hlater event hevent hpassed henough
    have hall := along_append.mpr ⟨hin, hlater⟩
    have hup := isUpToCursor_after_successes cursorId hall hevent hpassed henough
    have hrow := mem_workflowEvents_after hevent later
    rw [countP_contains (logRecords_exports cursorId hall) hrow, if_pos hup]

/-- An event of the sample run. -/
def sampleNewEvent (id : String) (h : id ≠ "") : NewWorkflowEvent where
  id
  featureRunId := some "run"
  projectId := some "project"
  eventType := "CodePushed"
  fromState := "coding"
  toState := "pr_open"
  actor := "system"
  occurredAt := 1000
  id_ne := h

/-- A run of the command with a collector that answers with a status. -/
def sampleCall (status : ℕ) : ExportCall where
  limit := some 1
  endpoint := some "http://localhost:4318"
  fetchImpl _ _ := .answered status

/-- Two events of one time, the later one inserted first, and two exports of one event each with a
failed one between them: the second export has the second event. -/
theorem exported_exactly_once_sample :
    (exports none "workflow_events_otlp" 1000
      ([.insert (sampleNewEvent "b" (by decide)), .insert (sampleNewEvent "a" (by decide)),
          .tick 120000] ++
        [.exportOtel (sampleCall 200), .exportOtel (sampleCall 503),
          .exportOtel (sampleCall 200)])).countP
      (OtlpLogsPayload.contains (sampleNewEvent "b" (by decide)).toWorkflowEvent) = 1 := by
  refine (exported_exactly_once none "workflow_events_otlp" 1000 _ ?_).2.2.2 _ ?_ _ ?_ ?_ ?_
  · refine ⟨?_, ?_, trivial, trivial⟩ <;> show (_ : ℤ) < _ <;> decide
  · exact ⟨trivial, trivial, trivial, trivial⟩
  · decide +kernel
  · decide +kernel
  · decide +kernel

end MiniCoder
