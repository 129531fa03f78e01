import MiniCoder.Agents.Recorder

/-!
# What the runs say of their adapters

A call reads the adapter's row, its capabilities and the revision of its version in three statements,
between which the adapter can be registered again.

* `Traces`: what a call knows after each of the reads.
* `provenance_throughout`: the runs name their revisions and keep to the capabilities of these, as long
  as no registration declares, between the first two reads, a capability that the call uses and the
  version it has read lacks.
* `not_traced_registered_again`: such a registration.
-/

open Storage Storage.Action Runs

namespace MiniCoder

/-! ### Provenance -/

/-- The revision declares every one of the capabilities. -/
def AdapterRevision.Covers (revision : AdapterRevision) (used : List String) : Prop :=
  ∀ value ∈ used, ∃ token ∈ revision.capabilities, token.literal = value

instance (revision : AdapterRevision) (used : List String) : Decidable (revision.Covers used) :=
  inferInstanceAs (Decidable (∀ value ∈ used, ∃ token ∈ revision.capabilities, token.literal = value))

/-- The run refers to the revision whose adapter and version it names, with what that declares. -/
def AgentRun.Traced (run : AgentRun) (db : Db) : Prop :=
  ∃ revision ∈ db.agents.revisions.rows, run.adapterRevisionId = some revision.id ∧
    revision.adapterId = run.adapterId ∧ revision.version = run.adapterVersion ∧
    revision.name = run.adapterName ∧ revision.implementation = run.adapterImplementation ∧
    revision.Covers run.capabilitiesUsed

instance (run : AgentRun) (db : Db) : Decidable (run.Traced db) :=
  inferInstanceAs (Decidable (∃ revision ∈ db.agents.revisions.rows,
    run.adapterRevisionId = some revision.id ∧ revision.adapterId = run.adapterId ∧
    revision.version = run.adapterVersion ∧ revision.name = run.adapterName ∧
    revision.implementation = run.adapterImplementation ∧ revision.Covers run.capabilitiesUsed))

/-- Every run is traced, and the revisions of each adapter are its versions from 1 on, one each. -/
structure ProvenanceIntegrity (db : Db) : Prop where
  runs : ∀ run ∈ db.agents.runs.rows, run.Traced db
  versions : ∀ adapter ∈ db.agents.adapters.rows,
    (db.revisionsOf adapter.id).map (·.version) = List.range' 1 adapter.version

/-- The columns of a run that no statement updates. -/
def AgentRun.provenance (run : AgentRun) :=
  (run.adapterRevisionId, run.adapterId, run.adapterVersion, run.adapterName,
    run.adapterImplementation, run.capabilitiesUsed)

section Traced

variable {db db' : Db} {run run' : AgentRun}

theorem AgentRun.Traced.mono (h : run.Traced db) (hcolumns : run'.provenance = run.provenance)
    (hkept : ∀ revision ∈ db.agents.revisions.rows, revision ∈ db'.agents.revisions.rows) :
    run'.Traced db' := by
  obtain ⟨revision, hrevision, htraced⟩ := h
  refine ⟨revision, hkept revision hrevision, ?_⟩
  simp only [AgentRun.provenance, Prod.mk.injEq] at hcolumns
  obtain ⟨hid, hadapter, hversion, hname, himplementation, hused⟩ := hcolumns
  rw [hid, hadapter, hversion, hname, himplementation, hused]
  exact htraced

end Traced

variable {ι : Type}

/-- A registration draws an id that no adapter has. -/
def DrawsNewIds (s : RecorderState ι) : RecorderEvent ι → Prop
  | .register _ runtime => ∀ adapter ∈ s.db.agents.adapters.rows, adapter.id ≠ runtime.ids 0
  | .act _ _ => True

instance (s : RecorderState ι) : (e : RecorderEvent ι) → Decidable (DrawsNewIds s e)
  | .register _ runtime => inferInstanceAs
    (Decidable (∀ adapter ∈ s.db.agents.adapters.rows, adapter.id ≠ runtime.ids 0))
  | .act _ _ => isTrue trivial

/-- A registration of an adapter whose row the call has read, and whose capabilities it has not, declares
no capability that the call uses and the version it has read lacks. -/
def RecordCall.UndisturbedBy (call : RecordCall) (db : Db) (input : RegisterAdapterInput) :
    RecordPhase → Prop
  | .found adapter =>
    (db.agents.adapters.find? (AgentAdapter.isNamed input.role input.name)).map (·.id) =
        some adapter.id →
      ∀ revision ∈ db.agents.revisions.rows, revision.IsOf adapter →
        revision.Covers (call.opts.capabilitiesUsed.filter fun value =>
          input.capabilities.contains value)
  | _ => True

/-- A registration disturbs no call. -/
def Recorder.Undisturbed (recorder : Recorder ι) (s : RecorderState ι) : RecorderEvent ι → Prop
  | .register input _ => ∀ i, (recorder.calls i).UndisturbedBy s.db input (s.records i).phase
  | .act _ _ => True

/-! ### What a call knows -/

/-- What a call has read is a version of its adapter, with a revision; after the check the revision
covers what the call uses. -/
def RecordCall.Traces (call : RecordCall) (db : Db) : RecordPhase → Prop
  | .found adapter => adapter.id = call.opts.adapterId ∧
      ∃ revision ∈ db.agents.revisions.rows, revision.IsOf adapter ∧
        revision.Covers (call.opts.capabilitiesUsed.filter fun value =>
          (db.declaredCapabilities adapter.id).contains value)
  | .checked adapter => adapter.id = call.opts.adapterId ∧
      ∃ revision ∈ db.agents.revisions.rows, revision.IsOf adapter ∧
        revision.Covers call.opts.capabilitiesUsed
  | .stamped adapter adapterRevisionId => adapter.id = call.opts.adapterId ∧
      ∃ revision ∈ db.agents.revisions.rows, adapterRevisionId = some revision.id ∧
        revision.IsOf adapter ∧ revision.Covers call.opts.capabilitiesUsed
  | _ => True

section Traces

variable {call : RecordCall} {db db' : Db} {adapter : AgentAdapter} {revision : AdapterRevision}

theorem AdapterRevision.Covers.mono {used used' : List String} (h : revision.Covers used)
    (hsub : ∀ value ∈ used', value ∈ used) : revision.Covers used' :=
  fun value hvalue => h value (hsub value hvalue)

/-- The adapter that a call reads. -/
theorem traces_found (hexact : RegistryExact db)
    (h : db.activeAdapter call.opts.adapterId = some adapter) : call.Traces db (.found adapter) := by
  have hmem := db.agents.adapters.mem_of_find? h
  have hactive := db.agents.adapters.prop_of_find? h
  rw [Bool.and_eq_true, beq_iff_eq] at hactive
  obtain ⟨revision, hrevision, hof, hdeclared⟩ := hexact.current adapter hmem
  refine ⟨hactive.1, revision, hrevision, hof, fun value hvalue => ?_⟩
  exact (hdeclared value).mp (List.contains_iff_mem.mp (List.mem_filter.mp hvalue).2)

/-- The check of the capabilities. -/
theorem traces_checked (h : call.Traces db (.found adapter)) (hcheck : call.check db adapter = .ok ()) :
    call.Traces db (.checked adapter) := by
  obtain ⟨hid, revision, hrevision, hof, hcovers⟩ := h
  refine ⟨hid, revision, hrevision, hof, hcovers.mono fun value hvalue => ?_⟩
  rw [RecordCall.check] at hcheck
  rcases hparse : parseCapabilities (db.declaredCapabilities adapter.id)
    s!"agent_capabilities row(s) for adapter {adapter.id}" with failure | tokens
  · rw [hparse] at hcheck
    cases hcheck
  rw [hparse] at hcheck
  replace hcheck : (if call.opts.role ≠ adapter.role then Except.error (Failure.error _)
    else if (call.opts.capabilitiesUsed.filter fun c =>
        !tokens.any fun token => token.literal == c) ≠ [] then
      Except.error (Failure.error _) else Except.ok ()) = Except.ok () := hcheck
  split_ifs at hcheck with hrole hundeclared
  rw [ne_eq, not_not, List.filter_eq_nil_iff] at hundeclared
  have hdeclared := hundeclared value hvalue
  simp only [Bool.not_eq_true', Bool.not_eq_false, List.any_eq_true, beq_iff_eq] at hdeclared
  exact List.mem_filter.mpr ⟨hvalue, List.contains_iff_mem.mpr
    ((mem_parseCapabilities hparse).mpr hdeclared)⟩

/-- The revision that a call stamps. -/
theorem traces_stamped (hexact : RegistryExact db) (h : call.Traces db (.checked adapter)) :
    call.Traces db (.stamped adapter (db.getRevisionId call.opts.adapterId adapter.version)) := by
  obtain ⟨hid, revision, hrevision, hof, hcovers⟩ := h
  refine ⟨hid, revision, hrevision, ?_, hof, hcovers⟩
  rw [← hid, ← hof.ofAdapter, ← hof.version]
  exact hexact.getRevisionId_eq hrevision

/-- The row that a call inserts. -/
theorem traced_row {adapterRevisionId : Option String} {inputSummary : String}
    (h : call.Traces db (.stamped adapter adapterRevisionId)) :
    (call.row adapter adapterRevisionId inputSummary).Traced db := by
  obtain ⟨hid, revision, hrevision, hstamp, hof, hcovers⟩ := h
  exact ⟨revision, hrevision, hstamp, hof.ofAdapter.trans hid, hof.version, hof.name,
    hof.implementation, hcovers⟩

theorem traces_of_inserted {phase : RecordPhase} (h : phase.isInserted = true) :
    call.Traces db phase := by
  cases phase with
  | ready | found | checked | stamped | refused => cases h
  | _ => trivial

/-- Where a call goes from a statement that writes. -/
theorem traces_write {redact : String → String} {m : RecordMoment} {phase : RecordPhase}
    {w : RecordWrite} (hw : call.write? redact m phase = some w) :
    call.Traces db w.answered ∧ call.Traces db w.failed := by
  by_cases hinserted : phase.isInserted = true
  · obtain ⟨hanswered, hfailed⟩ := write_isInserted hinserted hw
    exact ⟨traces_of_inserted hanswered, traces_of_inserted hfailed⟩
  · obtain ⟨⟨adapter, revisionId, rfl⟩, -⟩ := stamped_of_write (Bool.not_eq_true _ ▸ hinserted) hw
    obtain ⟨inputSummary, -, rfl⟩ := Option.map_eq_some_iff.mp hw
    refine ⟨traces_of_inserted ?_, trivial⟩
    show call.inserted.isInserted = true
    unfold RecordCall.inserted
    split <;> rfl

/-- Where a call goes without a statement that writes. -/
theorem traces_advance {m : RecordMoment} {phase : RecordPhase} (hexact : RegistryExact db)
    (h : call.Traces db phase) : call.Traces db (call.advance db m phase) := by
  cases phase with
  | ready =>
    unfold RecordCall.advance RecordCall.read?
    dsimp only
    split_ifs
    · split
      · trivial
      · rename_i adapter hadapter
        exact traces_found hexact hadapter
    · trivial
  | found adapter =>
    unfold RecordCall.advance RecordCall.read?
    dsimp only
    split_ifs
    · split
      · trivial
      · rename_i hcheck
        exact traces_checked h hcheck
    · trivial
  | checked adapter =>
    unfold RecordCall.advance RecordCall.read?
    dsimp only
    split_ifs
    · exact traces_stamped hexact h
    · trivial
  | stamped | refused => trivial
  | _ => exact traces_of_inserted (advance_isInserted rfl)

/-- A call knows what it knew while the revisions stay and its adapter is not registered again. -/
theorem Traces.mono {phase : RecordPhase} (h : call.Traces db phase)
    (hkept : ∀ revision ∈ db.agents.revisions.rows, revision ∈ db'.agents.revisions.rows)
    (hdeclared : ∀ adapter, phase = .found adapter → ∀ value ∈ call.opts.capabilitiesUsed,
      value ∈ db'.declaredCapabilities adapter.id → value ∈ db.declaredCapabilities adapter.id) :
    call.Traces db' phase := by
  cases phase with
  | found adapter =>
    obtain ⟨hid, revision, hrevision, hof, hcovers⟩ := h
    refine ⟨hid, revision, hkept revision hrevision, hof, hcovers.mono fun value hvalue => ?_⟩
    obtain ⟨hused, hin⟩ := List.mem_filter.mp hvalue
    exact List.mem_filter.mpr ⟨hused, List.contains_iff_mem.mpr
      (hdeclared adapter rfl value hused (List.contains_iff_mem.mp hin))⟩
  | checked adapter =>
    obtain ⟨hid, revision, hrevision, hof, hcovers⟩ := h
    exact ⟨hid, revision, hkept revision hrevision, hof, hcovers⟩
  | stamped adapter revisionId =>
    obtain ⟨hid, revision, hrevision, hstamp, hof, hcovers⟩ := h
    exact ⟨hid, revision, hkept revision hrevision, hstamp, hof, hcovers⟩
  | _ => trivial

end Traces

/-! ### The statements of a call -/

section Statements

variable {redact : String → String} {call : RecordCall} {m : RecordMoment} {phase : RecordPhase}
  {w : RecordWrite} {db db' : Db}

/-- The statements of a call: it inserts its run, updates it, or inserts a row elsewhere. -/
theorem write_cases (hw : call.write? redact m phase = some w) :
    (∃ adapter adapterRevisionId inputSummary, phase = .stamped adapter adapterRevisionId ∧
        w.statement = insertRow agentRunTable (call.row adapter adapterRevisionId inputSummary)) ∨
      (∃ f, ∃ hf : KeyFree f, (∀ run, (f run).provenance = run.provenance) ∧
        w.statement = updateAgentRun call.agentRunId f hf) ∨
      (∃ row, w.statement = insertRow agentContextPackTable row) ∨
      (∃ id projectId costUsd usage recordedAt, w.statement =
        insertRow costRecordTable (call.costRecord id projectId costUsd usage recordedAt)) ∨
      (∃ row, w.statement = insertRow agentToolOperationTable row) ∨
      ∃ row, w.statement = insertRow agentErrorTable row := by
  cases phase with
  | stamped adapter adapterRevisionId =>
    obtain ⟨inputSummary, -, rfl⟩ := Option.map_eq_some_iff.mp hw
    exact Or.inl ⟨adapter, adapterRevisionId, inputSummary, rfl, rfl⟩
  | packing pack =>
    obtain ⟨content, -, rfl⟩ := Option.map_eq_some_iff.mp hw
    exact Or.inr (Or.inr (Or.inl ⟨_, rfl⟩))
  | starting =>
    obtain rfl := Option.some.inj hw
    exact Or.inr (Or.inl ⟨AgentRun.started m.now, _, fun _ => rfl, rfl⟩)
  | settling outcome usage endedAt =>
    rcases outcome with (_ | output) | error
    · cases hw
    · obtain rfl := Option.some.inj hw
      exact Or.inr (Or.inl ⟨AgentRun.applyUsageAndSetSucceeded output usage endedAt, _,
        fun _ => rfl, rfl⟩)
    · obtain rfl := Option.some.inj hw
      exact Or.inr (Or.inl ⟨AgentRun.applyUsageAndSetFailed (redact error.message) usage endedAt, _,
        fun _ => rfl, rfl⟩)
  | charging outcome usage endedAt =>
    obtain ⟨costUsd, projectId, rfl⟩ := costWrite?_some hw
    exact Or.inr (Or.inr (Or.inr (Or.inl ⟨_, _, _, _, _, rfl⟩)))
  | logging outcome endedAt operations =>
    cases operations with
    | nil => cases hw
    | cons op rest =>
      obtain rfl := Option.some.inj hw
      exact Or.inr (Or.inr (Or.inr (Or.inr (Or.inl ⟨_, rfl⟩))))
  | erring error endedAt =>
    obtain rfl := Option.some.inj hw
    exact Or.inr (Or.inr (Or.inr (Or.inr (Or.inr ⟨_, rfl⟩))))
  | _ => cases hw

/-- The statements of a call leave the registry alone. -/
theorem write_registry (hw : call.write? redact m phase = some w)
    (hdb : w.statement db = some db') :
    db'.agents.adapters = db.agents.adapters ∧ db'.agents.capabilities = db.agents.capabilities ∧
      db'.agents.revisions = db.agents.revisions := by
  rcases write_cases hw with ⟨adapter, adapterRevisionId, inputSummary, -, hw⟩ | ⟨f, hf, -, hw⟩ |
    ⟨row, hw⟩ | ⟨id, projectId, costUsd, usage, recordedAt, hw⟩ | ⟨row, hw⟩ | ⟨row, hw⟩
  · rw [hw] at hdb
    obtain ⟨t, -, rfl⟩ := insertRow_some hdb
    exact ⟨rfl, rfl, rfl⟩
  · rw [hw] at hdb
    obtain rfl := Option.some.inj hdb
    exact ⟨rfl, rfl, rfl⟩
  all_goals
    rw [hw] at hdb
    obtain ⟨t, -, rfl⟩ := insertRow_some hdb
    exact ⟨rfl, rfl, rfl⟩

/-- The cost records after a statement of a call: those before, or the one it inserts with them. -/
theorem write_costRecords (hw : call.write? redact m phase = some w)
    (hdb : w.statement db = some db') : db'.costRecords = db.costRecords ∨
      ∃ id projectId costUsd usage recordedAt, db'.costRecords.rows =
        db.costRecords.rows ++ [call.costRecord id projectId costUsd usage recordedAt] := by
  rcases write_cases hw with ⟨adapter, adapterRevisionId, inputSummary, -, hw⟩ | ⟨f, hf, -, hw⟩ |
    ⟨row, hw⟩ | ⟨id, projectId, costUsd, usage, recordedAt, hw⟩ | ⟨row, hw⟩ | ⟨row, hw⟩
  · rw [hw] at hdb
    obtain ⟨t, -, rfl⟩ := insertRow_some hdb
    exact Or.inl rfl
  · rw [hw] at hdb
    obtain rfl := Option.some.inj hdb
    exact Or.inl rfl
  · rw [hw] at hdb
    obtain ⟨t, -, rfl⟩ := insertRow_some hdb
    exact Or.inl rfl
  · rw [hw] at hdb
    obtain ⟨t, ht, rfl⟩ := insertRow_some hdb
    exact Or.inr ⟨id, projectId, costUsd, usage, recordedAt, Table.rows_insert? ht⟩
  all_goals
    rw [hw] at hdb
    obtain ⟨t, -, rfl⟩ := insertRow_some hdb
    exact Or.inl rfl

/-- The runs after a statement of a call: those before, and the one it inserts. -/
theorem write_runs (hw : call.write? redact m phase = some w) (hdb : w.statement db = some db')
    {run : AgentRun} (hrun : run ∈ db'.agents.runs.rows) :
    (∃ old ∈ db.agents.runs.rows, run.provenance = old.provenance) ∨
      ∃ adapter adapterRevisionId inputSummary, phase = .stamped adapter adapterRevisionId ∧
        run = call.row adapter adapterRevisionId inputSummary := by
  rcases write_cases hw with ⟨adapter, adapterRevisionId, inputSummary, hphase, hw⟩ |
    ⟨f, hf, hprovenance, hw⟩ | ⟨row, hw⟩ | ⟨id, projectId, costUsd, usage, recordedAt, hw⟩ |
    ⟨row, hw⟩ | ⟨row, hw⟩
  · rw [hw] at hdb
    obtain ⟨t, ht, rfl⟩ := insertRow_some hdb
    replace hrun : run ∈ t.rows := hrun
    rw [Table.rows_insert? ht] at hrun
    rcases List.mem_append.mp hrun with hold | hnew
    · exact Or.inl ⟨run, hold, rfl⟩
    · exact Or.inr ⟨adapter, adapterRevisionId, inputSummary, hphase, List.mem_singleton.mp hnew⟩
  · rw [hw] at hdb
    obtain rfl := Option.some.inj hdb
    replace hrun : run ∈ (db.agents.runs.update
      (fun run => run.id == call.agentRunId) f hf).rows := hrun
    obtain ⟨old, hold, rfl⟩ := Table.mem_update.mp hrun
    refine Or.inl ⟨old, hold, ?_⟩
    unfold Table.updateRow
    split
    · exact hprovenance old
    · rfl
  all_goals
    rw [hw] at hdb
    obtain ⟨t, -, rfl⟩ := insertRow_some hdb
    exact Or.inl ⟨run, hrun, rfl⟩

end Statements

/-! ### Runs of the machine -/

/-- What the runs of the machine keep. -/
structure Recorder.Traced (recorder : Recorder ι) (s : RecorderState ι) : Prop where
  exact : RegistryExact s.db
  runs : ∀ run ∈ s.db.agents.runs.rows, run.Traced s.db
  calls : ∀ i, (recorder.calls i).Traces s.db (s.records i).phase

theorem RegistryExact.congr {db db' : Db} (h : RegistryExact db)
    (hadapters : db'.agents.adapters = db.agents.adapters)
    (hcapabilities : db'.agents.capabilities = db.agents.capabilities)
    (hrevisions : db'.agents.revisions = db.agents.revisions) : RegistryExact db' := by
  obtain ⟨versions, ofAdapter, current, owned⟩ := h
  refine ⟨?_, ?_, ?_, ?_⟩
  · rw [hadapters]
    unfold Db.revisionsOf
    rw [hrevisions]
    exact versions
  · rw [hadapters, hrevisions]
    exact ofAdapter
  · unfold Db.declaredCapabilities
    rw [hadapters, hrevisions, hcapabilities]
    exact current
  · rw [hadapters, hcapabilities]
    exact owned

section Machine

variable [DecidableEq ι] {recorder : Recorder ι} {s : RecorderState ι}

/-- A call that stands between its first two reads, when an adapter has been registered. -/
theorem traces_registered {call : RecordCall} {db db' : Db} {input : RegisterAdapterInput}
    {adapter : AgentAdapter} {revision : AdapterRevision} {phase : RecordPhase}
    (hexact : RegistryExact db) (hregistered : Registered input db db' adapter revision)
    (h : call.Traces db phase)
    (hundisturbed : call.UndisturbedBy db input phase) : call.Traces db' phase := by
  have hkept : ∀ r ∈ db.agents.revisions.rows, r ∈ db'.agents.revisions.rows := by
    intro r hr
    rw [hregistered.revisions]
    exact List.mem_append_left _ hr
  by_cases hfound : ∃ found, phase = .found found ∧ found.id = adapter.id
  · obtain ⟨found, rfl, hsame⟩ := hfound
    obtain ⟨hid, old, hold, hof, -⟩ := h
    refine ⟨hid, old, hkept old hold, hof, fun value hvalue => ?_⟩
    obtain ⟨hused, hdeclared⟩ := List.mem_filter.mp hvalue
    rw [hsame, List.contains_iff_mem, hregistered.declared] at hdeclared
    have hagain : (db.agents.adapters.find? (AgentAdapter.isNamed input.role input.name)).map (·.id) =
        some found.id := by
      rcases hregistered.version with ⟨-, hnew⟩ | ⟨row, hrow, hrowid, -⟩
      · obtain ⟨a, ha, haid⟩ := hexact.ofAdapter old hold
        exact absurd (haid.trans (hof.ofAdapter.trans hsame)) (hnew a ha)
      · rw [hrow, hsame, ← hrowid]
        rfl
    exact hundisturbed hagain old hold hof value
      (List.mem_filter.mpr ⟨hused, List.contains_iff_mem.mpr hdeclared⟩)
  · refine Traces.mono h hkept fun found hphase value _ hvalue => ?_
    have hother : found.id ≠ adapter.id := fun hsame => hfound ⟨found, hphase, hsame⟩
    exact (hregistered.others found.id hother value).mp hvalue

/-- **The step lemma**: registrations and calls keep the invariant, unless a registration disturbs a
call. -/
theorem Recorder.Traced.next (h : recorder.Traced s) {e : RecorderEvent ι}
    (hids : DrawsNewIds s e) (hundisturbed : recorder.Undisturbed s e) :
    recorder.Traced (recorder.next s e) := by
  cases e with
  | register input runtime =>
    have hruns := congrArg Prod.fst (frame_register input (.start s.db runtime))
    replace hruns : (recorder.next s (.register input runtime)).db.agents.runs = s.db.agents.runs :=
      hruns
    rcases hexec : exec (register input) (.start s.db runtime) with ⟨failure | id, after⟩
    · have hsame : (recorder.next s (.register input runtime)).db = s.db := by
        show (exec (register input) (.start s.db runtime)).2.db = s.db
        rw [hexec]
        exact register_error hexec
      refine ⟨?_, ?_, ?_⟩
      · rw [hsame]
        exact h.exact
      · rw [hsame]
        exact h.runs
      · rw [hsame]
        exact h.calls
    · obtain ⟨adapter, revision, hregistered⟩ := register_ok (s := .start s.db runtime)
        h.exact.owned hids hexec
      have hdb : (recorder.next s (.register input runtime)).db = after.db :=
        congrArg (fun r => r.2.db) hexec
      rw [hdb] at hruns
      refine ⟨?_, fun run hrun => ?_, fun i => ?_⟩
      · rw [hdb]
        exact h.exact.register hregistered
      · rw [hdb] at hrun ⊢
        rw [hruns] at hrun
        refine (h.runs run hrun).mono rfl fun r hr => ?_
        rw [hregistered.revisions]
        exact List.mem_append_left _ hr
      · rw [hdb]
        exact traces_registered h.exact hregistered (h.calls i) (hundisturbed i)
  | act i m =>
    obtain ⟨record', db', hstep, hdb, hrecord, hothers⟩ := next_act recorder s i m
    -- what the statements of a call keep
    have hwrite : ∀ w, (recorder.calls i).write? recorder.redact m (s.records i).phase = some w →
        w.statement s.db = some db' → RegistryExact db' ∧ (∀ run ∈ db'.agents.runs.rows, run.Traced db') ∧
          ∀ j, (recorder.calls j).Traces db' (s.records j).phase := by
      intro w hw hwritten
      obtain ⟨hadapters, hcapabilities, hrevisions⟩ := write_registry hw hwritten
      have hkept : ∀ r ∈ s.db.agents.revisions.rows, r ∈ db'.agents.revisions.rows := by
        rw [hrevisions]
        exact fun _ hr => hr
      refine ⟨h.exact.congr hadapters hcapabilities hrevisions, fun run hrun => ?_, fun j => ?_⟩
      · rcases write_runs hw hwritten hrun with ⟨old, hold, hcolumns⟩ |
          ⟨adapter, adapterRevisionId, inputSummary, hphase, rfl⟩
        · exact (h.runs old hold).mono hcolumns hkept
        · have hcall := h.calls i
          rw [hphase] at hcall
          exact (traced_row hcall).mono rfl hkept
      · refine Traces.mono (h.calls j) hkept fun adapter _ value _ hvalue => ?_
        unfold Db.declaredCapabilities at hvalue ⊢
        rw [hcapabilities] at hvalue
        exact hvalue
    -- the other calls stay where they are
    have hcalls : record'.phase = (s.records i).phase ∨ (recorder.calls i).Traces db' record'.phase →
        (∀ j, (recorder.calls j).Traces db' (s.records j).phase) →
        ∀ j, (recorder.calls j).Traces db' ((recorder.next s (.act i m)).records j).phase := by
      intro hcall hall j
      by_cases hj : j = i
      · rw [hj, hrecord]
        rcases hcall with hsame | hcall
        · rw [hsame]
          exact hall i
        · exact hcall
      · rw [hothers j hj]
        exact hall j
    rcases recordStep_cases hstep with ⟨w, hw, -, hwritten, rfl⟩ | ⟨w, hw, -, rfl, rfl⟩ |
      ⟨w, hw, -, hwritten, rfl⟩ | ⟨-, rfl, rfl⟩
    · obtain ⟨hexact, hruns, hall⟩ := hwrite w hw hwritten
      refine ⟨?_, ?_, ?_⟩ <;> rw [hdb]
      · exact hexact
      · exact hruns
      · exact hcalls (Or.inr (traces_write hw).1) hall
    · refine ⟨?_, ?_, ?_⟩ <;> rw [hdb]
      · exact h.exact
      · exact h.runs
      · exact hcalls (Or.inr (traces_write hw).2) h.calls
    · obtain ⟨hexact, hruns, hall⟩ := hwrite w hw hwritten
      refine ⟨?_, ?_, ?_⟩ <;> rw [hdb]
      · exact hexact
      · exact hruns
      · exact hcalls (Or.inr (traces_write hw).2) hall
    · refine ⟨?_, ?_, ?_⟩ <;> rw [hdb]
      · exact h.exact
      · exact h.runs
      · exact hcalls (Or.inr (traces_advance h.exact (h.calls i))) h.calls

/-- **Provenance throughout a run** in which every registration draws a new id and disturbs no call:
every run refers to the revision whose adapter and version it names and keeps to its capabilities, and
the revisions of every adapter are its versions, from 1 on. -/
theorem provenance_throughout (hexact : RegistryExact s.db)
    (hruns : ∀ run ∈ s.db.agents.runs.rows, run.Traced s.db) (hready : ∀ i, s.records i = {})
    {events : List (RecorderEvent ι)} (hids : Along recorder.next DrawsNewIds s events)
    (hundisturbed : Along recorder.next recorder.Undisturbed s events) :
    Throughout recorder.next (fun s => ProvenanceIntegrity s.db) s events := by
  have hstart : recorder.Traced s := by
    refine ⟨hexact, hruns, fun i => ?_⟩
    rw [hready i]
    trivial
  have hkept : Throughout recorder.next recorder.Traced s events :=
    throughout_of_step (C := fun s e => DrawsNewIds s e ∧ recorder.Undisturbed s e)
      (fun _ _ h hC => h.next hC.1 hC.2) hstart (hids.and hundisturbed)
  exact hkept.imp fun _ h => ⟨h.runs, h.exact.versions⟩

end Machine

/-- Registered, called, and registered again after the call has read its revision. -/
theorem provenance_registered_later : Throughout (sampleRecorder "can_modify_files").next
    (fun s => ProvenanceIntegrity s.db) { db := {} }
    [sampleRegistration 0 ["can_modify_files"], .act () (sampleRecordMoment 0 none),
      .act () (sampleRecordMoment 1 none), .act () (sampleRecordMoment 2 none),
      sampleRegistration 1 ["can_push_branch"], .act () (sampleRecordMoment 3 none)] :=
  provenance_throughout registryExact_empty (by intro run hrun; cases hrun) (fun _ => rfl)
    (by decide +kernel)
    ⟨fun () => trivial, trivial, trivial, trivial, fun () => trivial, trivial, trivial⟩

/-- The adapter is registered again, with a capability that its first version lacks, between the first
two reads of a call that uses this capability. -/
theorem not_traced_registered_again : ¬ Throughout (sampleRecorder "can_push_branch").next
    (fun s => ProvenanceIntegrity s.db) { db := {} }
    ([sampleRegistration 0 ["can_modify_files"], .act () (sampleRecordMoment 0 none),
      sampleRegistration 1 ["can_modify_files", "can_push_branch"]] ++
      (List.range 3).map fun now => .act () (sampleRecordMoment now none)) := by
  intro h
  have hruns := h.last.runs
  revert hruns
  decide +kernel

end MiniCoder
