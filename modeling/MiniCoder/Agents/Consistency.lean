import MiniCoder.Agents.Recorder

/-!
# What a recorded run ends as

A run stands with a state and a number of cost records (`Db.standing`).  Each statement of a call has
its effect on how the run of the call stands, and none on the other runs.

* `write_standing`: the effect of each statement, over `RecordPhase.book`.
* `Stands`: how a run stands in each phase of its call.
* `record_consistent_iff`: the runs end consistently as long as no call is cut short between the
  insertion of its run and the agent, throws twice before the final state, or fails after a success.
-/

open Storage Storage.Action Runs

namespace MiniCoder

/-! ### Standings -/

namespace Db

/-- The state of an agent run. -/
def agentRunState (db : Db) (agentRunId : String) : Option AgentRunState :=
  (db.agents.runs.find? fun run => run.id == agentRunId).map (·.state)

/-- How many cost records an agent run has. -/
def costsOf (db : Db) (agentRunId : String) : ℕ :=
  db.costRecords.count fun cost => cost.agentRunId == some agentRunId

/-- How an agent run stands. -/
def standing (db : Db) (agentRunId : String) : Option AgentRunState × ℕ :=
  (db.agentRunState agentRunId, db.costsOf agentRunId)

end Db

/-- The final state that the pass of an outcome writes. -/
def RunOutcome.endState : RunOutcome → AgentRunState
  | .returned _ => .succeeded
  | .threw _ => .failed

/-- The effect of the statement of a phase on how the run of the call stands. -/
def RecordPhase.book : RecordPhase → Option AgentRunState × ℕ → Option AgentRunState × ℕ
  | .stamped _ _, (_, costs) => (some .queued, costs)
  | .starting, (state, costs) => (state.map fun _ => .running, costs)
  | .settling outcome _ _, (state, costs) => (state.map fun _ => outcome.endState, costs)
  | .charging _ _ _, (state, costs) => (state, costs + 1)
  | _, standing => standing

section Statements

variable {db db' : Db} {id : String}

/-- An id under which a row is inserted is new. -/
theorem agentRunState_of_insert {row : AgentRun} (h : insertRow agentRunTable row db = some db') :
    db.agentRunState row.id = none := by
  obtain ⟨t, ht, -⟩ := insertRow_some h
  rw [Db.agentRunState, Option.map_eq_none_iff, Table.find?_eq_none]
  intro run hrun
  have hfree := Table.clash_of_insert? ht run hrun
  rw [beq_eq_false_iff_ne]
  intro hid
  have hclash : Row.clash run row = true := decide_eq_true hid
  rw [hclash] at hfree
  cases hfree

theorem standing_insertRun {row : AgentRun} (h : insertRow agentRunTable row db = some db') :
    db'.standing id = if id = row.id then (some row.state, (db.standing id).2) else db.standing id := by
  have hnew := agentRunState_of_insert h
  obtain ⟨t, ht, rfl⟩ := insertRow_some h
  have hfind : (t.find? fun run => run.id == id) =
      (db.agents.runs.find? fun run => run.id == id).or
        (if row.id == id then some row else none) := by
    rw [Table.find?, Table.rows_insert? ht, List.find?_append, List.find?_singleton]
    rfl
  by_cases hid : id = row.id
  · rw [if_pos hid]
    subst hid
    rw [Db.agentRunState, Option.map_eq_none_iff] at hnew
    rw [hnew, Option.none_or, if_pos (beq_iff_eq.mpr rfl)] at hfind
    exact Prod.ext (congrArg (Option.map AgentRun.state) hfind) rfl
  · rw [if_neg hid]
    rw [if_neg (by simpa using Ne.symm hid), Option.or_none] at hfind
    exact Prod.ext (congrArg (Option.map AgentRun.state) hfind) rfl

theorem standing_updateRun {agentRunId : String} {f : AgentRun → AgentRun} {hf : KeyFree f}
    {state : AgentRunState} (hid : ∀ run, (f run).id = run.id) (hstate : ∀ run, (f run).state = state)
    (h : updateAgentRun agentRunId f hf db = some db') :
    db'.standing id =
      if id = agentRunId then ((db.standing id).1.map fun _ => state, (db.standing id).2)
      else db.standing id := by
  obtain rfl := Option.some.inj h
  have hfind : ((db.agents.runs.update (fun run => run.id == agentRunId) f hf).find?
      fun run => run.id == id) = (db.agents.runs.find? fun run => run.id == id).map
        (Table.updateRow (fun run => run.id == agentRunId) f) :=
    Table.find?_update fun run => by rw [hid]
  have hfound : ((db.agents.runs.update (fun run => run.id == agentRunId) f hf).find?
      fun run => run.id == id).map (·.state) =
        if id = agentRunId then (db.agentRunState id).map fun _ => state else db.agentRunState id := by
    rw [hfind, Option.map_map, Db.agentRunState]
    rcases hrun : db.agents.runs.find? fun run => run.id == id with _ | run
    · simp
    · have hmatch := db.agents.runs.prop_of_find? hrun
      rw [beq_iff_eq] at hmatch
      by_cases hsame : id = agentRunId
      · have hrow : Table.updateRow (fun run : AgentRun => run.id == agentRunId) f run = f run :=
          Table.updateRow_of_pos (beq_iff_eq.mpr (hmatch.trans hsame))
        simp [hsame, hrow, hstate]
      · have hrow : Table.updateRow (fun run : AgentRun => run.id == agentRunId) f run = run :=
          Table.updateRow_of_neg (beq_eq_false_iff_ne.mpr (hmatch.trans_ne hsame))
        simp [hsame, hrow]
  by_cases hsame : id = agentRunId
  · rw [if_pos hsame]
    rw [if_pos hsame] at hfound
    exact Prod.ext hfound rfl
  · rw [if_neg hsame]
    rw [if_neg hsame] at hfound
    exact Prod.ext hfound rfl

theorem standing_insertCost {row : CostRecord} {agentRunId : String}
    (hrun : row.agentRunId = some agentRunId) (h : insertRow costRecordTable row db = some db') :
    db'.standing id =
      if id = agentRunId then ((db.standing id).1, (db.standing id).2 + 1) else db.standing id := by
  obtain ⟨t, ht, rfl⟩ := insertRow_some h
  have hcount : (t.count fun cost => cost.agentRunId == some id) =
      db.costsOf id + if agentRunId = id then 1 else 0 := by
    rw [Table.count, Table.rows_insert? ht, List.countP_append, Db.costsOf]
    by_cases hsame : agentRunId = id
    · simp [hrun, hsame, Table.count, costRecordTable]
    · simp [hrun, hsame, Table.count, costRecordTable]
  by_cases hsame : id = agentRunId
  · rw [if_pos hsame]
    rw [if_pos hsame.symm] at hcount
    exact Prod.ext rfl hcount
  · rw [if_neg hsame]
    rw [if_neg (Ne.symm hsame)] at hcount
    exact Prod.ext rfl hcount

end Statements

section Write

variable {redact : String → String} {call : RecordCall} {m : RecordMoment} {phase : RecordPhase}
  {w : RecordWrite} {db db' : Db}

theorem finalWrite_standing {outcome : RunOutcome} {usage : Option RecordedCostUsage} {endedAt : ℤ}
    (hw : call.finalWrite? redact m outcome usage endedAt = some w) (hdb : w.statement db = some db')
    (id : String) :
    db'.standing id = if id = call.agentRunId then
      (RecordPhase.settling outcome usage endedAt).book (db.standing id) else db.standing id := by
  rcases outcome with (_ | output) | error
  · cases hw
  · obtain rfl := Option.some.inj hw
    exact standing_updateRun (f := AgentRun.applyUsageAndSetSucceeded output usage endedAt)
      (fun _ => rfl) (fun _ => rfl) hdb
  · obtain rfl := Option.some.inj hw
    exact standing_updateRun
      (f := AgentRun.applyUsageAndSetFailed (redact error.message) usage endedAt)
      (fun _ => rfl) (fun _ => rfl) hdb

theorem costWrite_standing {outcome : RunOutcome} {usage : RecordedCostUsage} {endedAt : ℤ}
    (hw : call.costWrite? m outcome usage endedAt = some w) (hdb : w.statement db = some db')
    (id : String) :
    db'.standing id = if id = call.agentRunId then
      (RecordPhase.charging outcome usage endedAt).book (db.standing id) else db.standing id := by
  obtain ⟨costUsd, projectId, rfl⟩ := costWrite?_some hw
  exact standing_insertCost rfl hdb

/-- **The effect of each statement**: the run of the call stands as the phase books it, and the other
runs as before. -/
theorem write_standing (hw : call.write? redact m phase = some w)
    (hdb : w.statement db = some db') (id : String) :
    db'.standing id =
      if id = call.agentRunId then phase.book (db.standing id) else db.standing id := by
  cases phase with
  | stamped adapter adapterRevisionId =>
    obtain ⟨inputSummary, -, rfl⟩ := Option.map_eq_some_iff.mp hw
    exact standing_insertRun hdb
  | packing pack =>
    obtain ⟨content, -, rfl⟩ := Option.map_eq_some_iff.mp hw
    obtain ⟨t, -, rfl⟩ := insertRow_some hdb
    exact (ite_self _).symm
  | starting =>
    obtain rfl := Option.some.inj hw
    exact standing_updateRun (f := AgentRun.started m.now) (fun _ => rfl) (fun _ => rfl) hdb
  | settling outcome usage endedAt => exact finalWrite_standing hw hdb id
  | charging outcome usage endedAt => exact costWrite_standing hw hdb id
  | logging outcome endedAt operations =>
    cases operations with
    | nil => cases hw
    | cons op rest =>
      obtain rfl := Option.some.inj hw
      obtain ⟨t, -, rfl⟩ := insertRow_some hdb
      exact (ite_self _).symm
  | erring error endedAt =>
    obtain rfl := Option.some.inj hw
    obtain ⟨t, -, rfl⟩ := insertRow_some hdb
    exact (ite_self _).symm
  | _ => cases hw

/-- A run is inserted under an id that no run has. -/
theorem stamped_new {adapter : AgentAdapter} {adapterRevisionId : Option String}
    (hw : call.write? redact m (.stamped adapter adapterRevisionId) = some w)
    (hdb : w.statement db = some db') : (db.standing call.agentRunId).1 = none := by
  obtain ⟨inputSummary, -, rfl⟩ := Option.map_eq_some_iff.mp hw
  exact agentRunState_of_insert hdb

end Write

/-! ### Consistency -/

/-- The call is over, after it has inserted its run. -/
def RecordPhase.isSettled : RecordPhase → Bool
  | .resolved | .rejected _ => true
  | _ => false

/-- The state of a run has followed the matrix, if it has changed at all. -/
inductive Follows : Option AgentRunState → Option AgentRunState → Prop
  | same (state : Option AgentRunState) : Follows state state
  | inserted : Follows none (some .queued)
  | moved {fromState toState : AgentRunState} (h : agentRun.isValid fromState toState = true) :
      Follows (some fromState) (some toState)

/-- A run has at most one cost record, and it is at its end, unless a write of its final state has
failed. -/
structure RecordState.Consistent (record : RecordState) (standing : Option AgentRunState × ℕ) :
    Prop where
  costs : standing.2 ≤ 1
  ended : (standing.1 ≠ some .queued ∧ standing.1 ≠ some .running) ∨ record.finalWriteFailed = true

namespace Recorder

variable {ι : Type} [DecidableEq ι] (recorder : Recorder ι)

/-- Every call that is over has left its run consistent. -/
def Settled (s : RecorderState ι) : Prop :=
  ∀ i, (s.records i).phase.isSettled = true →
    (s.records i).Consistent (s.db.standing (recorder.calls i).agentRunId)

/-- A step moves runs along the matrix, and leaves those of the calls that are over consistent. -/
def KeepsConsistent (s : RecorderState ι) (e : RecorderEvent ι) : Prop :=
  (∀ id, Follows (s.db.agentRunState id) ((recorder.next s e).db.agentRunState id)) ∧
    recorder.Settled (recorder.next s e)

end Recorder

/-- The statement of a phase is executed and answered. -/
def RecordMoment.Answered (m : RecordMoment) (db : Db) (w? : Option RecordWrite) : Prop :=
  m.fault = none ∧ (w?.bind fun w => w.statement db).isSome = true

/-- The call is not cut short: its context pack and its start are written; in the pass of a failure,
the cost extractor does not throw while the run is running and no write of its final state has failed;
and the write of that pass does not reach the row of a run that has succeeded. -/
def RecordCall.Proceeds (redact : String → String) (call : RecordCall) (m : RecordMoment)
    (record : RecordState) (db : Db) : Prop :=
  match record.phase with
  | .packing pack => m.Answered db (call.write? redact m (.packing pack))
  | .starting => m.Answered db (call.write? redact m .starting)
  | .extracting (.threw _) => m.usage.isOk = true ∨
      db.agentRunState call.agentRunId ≠ some .running ∨ record.finalWriteFailed = true
  | .settling (.threw _) _ _ => m.fault = some .refused ∨
      db.agentRunState call.agentRunId ≠ some .succeeded
  | _ => True

instance (redact : String → String) (call : RecordCall) (m : RecordMoment) (db : Db) :
    (record : RecordState) → Decidable (call.Proceeds redact m record db)
  | ⟨.packing pack, _⟩ => inferInstanceAs (Decidable (m.fault = none ∧
      ((call.write? redact m (.packing pack)).bind fun w => w.statement db).isSome = true))
  | ⟨.starting, _⟩ => inferInstanceAs (Decidable (m.fault = none ∧
      ((call.write? redact m .starting).bind fun w => w.statement db).isSome = true))
  | ⟨.extracting (.threw _), failed⟩ => inferInstanceAs (Decidable (m.usage.isOk = true ∨
      db.agentRunState call.agentRunId ≠ some .running ∨ failed = true))
  | ⟨.settling (.threw _) _ _, _⟩ => inferInstanceAs (Decidable (m.fault = some .refused ∨
      db.agentRunState call.agentRunId ≠ some .succeeded))
  | ⟨.extracting (.returned _), _⟩ | ⟨.settling (.returned _) _ _, _⟩ | ⟨.ready, _⟩
  | ⟨.found _, _⟩ | ⟨.checked _, _⟩ | ⟨.stamped _ _, _⟩ | ⟨.calling, _⟩ | ⟨.charging _ _ _, _⟩
  | ⟨.operating _ _, _⟩ | ⟨.logging _ _ _, _⟩ | ⟨.erring _ _, _⟩ | ⟨.resolved, _⟩
  | ⟨.refused _, _⟩ | ⟨.rejected _, _⟩ => isTrue trivial

/-- The call proceeds in every step of a run. -/
def Recorder.Proceeds {ι : Type} (recorder : Recorder ι) (s : RecorderState ι) :
    RecorderEvent ι → Prop
  | .register _ _ => True
  | .act i m => (recorder.calls i).Proceeds recorder.redact m (s.records i) s.db

instance {ι : Type} (recorder : Recorder ι) (s : RecorderState ι) :
    (e : RecorderEvent ι) → Decidable (recorder.Proceeds s e)
  | .register _ _ => isTrue trivial
  | .act i m => inferInstanceAs
    (Decidable ((recorder.calls i).Proceeds recorder.redact m (s.records i) s.db))

/-! ### How a run stands in each phase -/

/-- How the run of a call stands. -/
def RecordState.Stands (record : RecordState) (standing : Option AgentRunState × ℕ) : Prop :=
  match record.phase with
  | .ready | .found _ | .checked _ | .stamped _ _ => record.finalWriteFailed = false
  | .refused _ => True
  | .packing _ | .starting => standing = (some .queued, 0) ∧ record.finalWriteFailed = false
  | .calling => standing = (some .running, 0)
  | .extracting (.returned _) | .settling (.returned _) _ _ => standing = (some .running, 0)
  | .extracting (.threw _) | .settling (.threw _) _ _ =>
    standing = (some .running, 0) ∨ (standing.1 = some .succeeded ∧ standing.2 ≤ 1)
  | .charging outcome _ _ => standing = (some outcome.endState, 0)
  | .operating outcome _ | .logging outcome _ _ =>
    standing.1 = some outcome.endState ∧ standing.2 ≤ 1
  | .erring _ _ => standing.1 = some .failed ∧ standing.2 ≤ 1
  | .resolved => standing.1 = some .succeeded ∧ standing.2 ≤ 1
  | .rejected _ => record.Consistent standing ∧ standing.1 ≠ none

section Stands

variable {redact : String → String} {call : RecordCall} {m : RecordMoment} {phase : RecordPhase}
  {failed : Bool} {w : RecordWrite} {standing : Option AgentRunState × ℕ}

theorem stands_present {record : RecordState} (h : record.Stands standing)
    (hinserted : record.phase.isInserted = true) : standing.1 ≠ none := by
  obtain ⟨phase, failed⟩ := record
  unfold RecordState.Stands at h
  cases phase with
  | ready | found | checked | stamped | refused => cases hinserted
  | extracting outcome | settling outcome => cases outcome <;> grind
  | _ => grind

/-- A run at its end stands for a call that is rejected. -/
theorem stands_rejected {error : Thrown} (outcome : RunOutcome) {costs : ℕ} (hcosts : costs ≤ 1) :
    RecordState.Stands ⟨.rejected error, failed⟩ (some outcome.endState, costs) := by
  refine ⟨⟨hcosts, Or.inl ?_⟩, Option.some_ne_none _⟩
  cases outcome with
  | returned output => simp [RunOutcome.endState]
  | threw error' => simp [RunOutcome.endState]

/-- An exception after the write of the final state. -/
theorem stands_raise {error : Thrown} (outcome : RunOutcome) {costs : ℕ} (hcosts : costs ≤ 1) :
    RecordState.Stands ⟨outcome.raise error, failed⟩ (some outcome.endState, costs) := by
  cases outcome with
  | returned output => exact Or.inr ⟨rfl, hcosts⟩
  | threw error' => exact stands_rejected (.threw error') hcosts

/-- Before its run is inserted, how it stands does not matter. -/
theorem stands_congr {record : RecordState} {standing' : Option AgentRunState × ℕ}
    (hbefore : record.phase.isInserted = false) (h : record.Stands standing) :
    record.Stands standing' := by
  obtain ⟨phase, failed⟩ := record
  cases phase with
  | ready | found | checked | stamped | refused => exact h
  | _ => cases hbefore

/-- A statement that is executed and answered. -/
theorem stands_answered (h : RecordState.Stands ⟨phase, failed⟩ standing)
    (hw : call.write? redact m phase = some w)
    (hnew : ∀ adapter revisionId, phase = .stamped adapter revisionId → standing.2 = 0)
    (hend : ∀ error usage endedAt, phase = .settling (.threw error) usage endedAt →
      standing.1 ≠ some .succeeded) :
    RecordState.Stands ⟨w.answered, failed⟩ (phase.book standing) := by
  obtain ⟨state, costs⟩ := standing
  cases phase with
  | stamped adapter revisionId =>
    obtain ⟨inputSummary, -, rfl⟩ := Option.map_eq_some_iff.mp hw
    have hcosts : costs = 0 := hnew adapter revisionId rfl
    show RecordState.Stands ⟨call.inserted, failed⟩ (some .queued, costs)
    rw [hcosts]
    unfold RecordCall.inserted
    split
    · exact ⟨rfl, h⟩
    · exact ⟨rfl, h⟩
  | packing pack =>
    obtain ⟨content, -, rfl⟩ := Option.map_eq_some_iff.mp hw
    exact h
  | starting =>
    obtain rfl := Option.some.inj hw
    obtain ⟨hstanding, -⟩ := h
    obtain ⟨rfl, rfl⟩ := Prod.mk.inj hstanding
    exact rfl
  | settling outcome usage endedAt =>
    rcases outcome with (_ | output) | error
    · cases hw
    · obtain rfl := Option.some.inj hw
      obtain ⟨rfl, rfl⟩ := Prod.mk.inj h
      cases usage with
      | none => exact ⟨rfl, Nat.zero_le 1⟩
      | some usage => exact rfl
    · obtain rfl := Option.some.inj hw
      have hrunning : (state, costs) = (some .running, 0) :=
        h.resolve_right fun hsucceeded => hend error usage endedAt rfl hsucceeded.1
      obtain ⟨rfl, rfl⟩ := Prod.mk.inj hrunning
      cases usage with
      | none => exact ⟨rfl, Nat.zero_le 1⟩
      | some usage => exact rfl
  | charging outcome usage endedAt =>
    obtain ⟨costUsd, projectId, rfl⟩ := costWrite?_some hw
    obtain ⟨rfl, rfl⟩ := Prod.mk.inj h
    exact ⟨rfl, Nat.le_refl 1⟩
  | logging outcome endedAt operations =>
    cases operations with
    | nil => cases hw
    | cons op rest =>
      obtain rfl := Option.some.inj hw
      exact h
  | erring error endedAt =>
    obtain rfl := Option.some.inj hw
    obtain ⟨hstate, hcosts⟩ := h
    obtain rfl : state = some .failed := hstate
    exact stands_rejected (.threw error) hcosts
  | _ => cases hw

/-- A statement that is not executed, after the start of the run. -/
theorem stands_unexecuted (h : RecordState.Stands ⟨phase, failed⟩ standing)
    (hw : call.write? redact m phase = some w) (hpack : ∀ pack, phase ≠ .packing pack)
    (hstart : phase ≠ .starting) :
    RecordState.Stands ⟨w.failed, failed || w.isFinal⟩ standing := by
  obtain ⟨state, costs⟩ := standing
  cases phase with
  | stamped adapter revisionId =>
    obtain ⟨inputSummary, -, rfl⟩ := Option.map_eq_some_iff.mp hw
    trivial
  | packing pack => exact absurd rfl (hpack pack)
  | starting => exact absurd rfl hstart
  | settling outcome usage endedAt =>
    rcases outcome with (_ | output) | error
    · cases hw
    · obtain rfl := Option.some.inj hw
      exact Or.inl h
    · obtain rfl := Option.some.inj hw
      have hfinal : (failed || true) = true := Bool.or_true failed
      rcases h with hrunning | ⟨hstate, hcosts⟩
      · obtain ⟨rfl, rfl⟩ := Prod.mk.inj hrunning
        exact ⟨⟨Nat.zero_le 1, Or.inr hfinal⟩, Option.some_ne_none _⟩
      · obtain rfl : state = some .succeeded := hstate
        exact ⟨⟨hcosts, Or.inr hfinal⟩, Option.some_ne_none _⟩
  | charging outcome usage endedAt =>
    obtain ⟨costUsd, projectId, rfl⟩ := costWrite?_some hw
    obtain ⟨rfl, rfl⟩ := Prod.mk.inj h
    exact stands_raise outcome (Nat.zero_le 1)
  | logging outcome endedAt operations =>
    cases operations with
    | nil => cases hw
    | cons op rest =>
      obtain rfl := Option.some.inj hw
      obtain ⟨hstate, hcosts⟩ := h
      obtain rfl : state = some outcome.endState := hstate
      exact stands_raise outcome hcosts
  | erring error endedAt =>
    obtain rfl := Option.some.inj hw
    obtain ⟨hstate, hcosts⟩ := h
    obtain rfl : state = some .failed := hstate
    exact stands_rejected (.threw error) hcosts
  | _ => cases hw

/-- A statement that is executed without an answer, after the start of the run. -/
theorem stands_unanswered (h : RecordState.Stands ⟨phase, failed⟩ standing)
    (hw : call.write? redact m phase = some w) (hpack : ∀ pack, phase ≠ .packing pack)
    (hstart : phase ≠ .starting)
    (hend : ∀ error usage endedAt, phase = .settling (.threw error) usage endedAt →
      standing.1 ≠ some .succeeded) :
    RecordState.Stands ⟨w.failed, failed || w.isFinal⟩ (phase.book standing) := by
  obtain ⟨state, costs⟩ := standing
  cases phase with
  | settling outcome usage endedAt =>
    rcases outcome with (_ | output) | error
    · cases hw
    · obtain rfl := Option.some.inj hw
      obtain ⟨rfl, rfl⟩ := Prod.mk.inj h
      exact stands_raise (.returned output) (Nat.zero_le 1)
    · obtain rfl := Option.some.inj hw
      have hrunning : (state, costs) = (some .running, 0) :=
        h.resolve_right fun hsucceeded => hend error usage endedAt rfl hsucceeded.1
      obtain ⟨rfl, rfl⟩ := Prod.mk.inj hrunning
      exact stands_raise (.threw error) (Nat.zero_le 1)
  | charging outcome usage endedAt =>
    obtain ⟨costUsd, projectId, rfl⟩ := costWrite?_some hw
    obtain ⟨rfl, rfl⟩ := Prod.mk.inj h
    exact stands_raise outcome (Nat.le_refl 1)
  | stamped adapter revisionId =>
    obtain ⟨inputSummary, -, rfl⟩ := Option.map_eq_some_iff.mp hw
    trivial
  -- the other statements have no effect on how the run stands
  | packing pack => exact absurd rfl (hpack pack)
  | starting => exact absurd rfl hstart
  | logging outcome endedAt operations => exact stands_unexecuted h hw hpack hstart
  | erring error endedAt => exact stands_unexecuted h hw hpack hstart
  | _ => cases hw

/-- A phase without a statement that writes. -/
theorem stands_advance {db : Db} (h : RecordState.Stands ⟨phase, failed⟩ standing)
    (hw : call.write? redact m phase = none) (hpack : ∀ pack, phase ≠ .packing pack)
    (hthrow : ∀ error error', phase = .extracting (.threw error) → m.usage = .error error' →
      standing.1 ≠ some .running ∨ failed = true) :
    RecordState.Stands ⟨call.advance db m phase, failed⟩ standing := by
  obtain ⟨state, costs⟩ := standing
  cases phase with
  | ready =>
    unfold RecordCall.advance RecordCall.read?
    dsimp only
    split_ifs
    · split
      · trivial
      · exact h
    · trivial
  | found adapter =>
    unfold RecordCall.advance RecordCall.read?
    dsimp only
    split_ifs
    · split
      · trivial
      · exact h
    · trivial
  | checked adapter =>
    unfold RecordCall.advance RecordCall.read?
    dsimp only
    split_ifs
    · exact h
    · trivial
  | stamped adapter revisionId => trivial
  | packing pack => exact absurd rfl (hpack pack)
  | starting => cases hw
  | calling =>
    show RecordState.Stands ⟨.extracting m.called, failed⟩ (state, costs)
    cases m.called with
    | returned output => exact h
    | threw error => exact Or.inl h
  | extracting outcome =>
    show RecordState.Stands ⟨outcome.extracted m.now m.usage, failed⟩ (state, costs)
    rcases husage : m.usage with error' | usage
    · cases outcome with
      | returned output => exact Or.inl h
      | threw error =>
        rcases hthrow error error' rfl husage with hstate | hfailed
        · obtain ⟨hsucceeded, hcosts⟩ := h.resolve_left fun hrunning =>
            hstate (Prod.mk.inj hrunning).1
          obtain rfl : state = some .succeeded := hsucceeded
          exact stands_rejected (.returned none) hcosts
        · rcases h with hrunning | ⟨hsucceeded, hcosts⟩
          · obtain ⟨rfl, rfl⟩ := Prod.mk.inj hrunning
            exact ⟨⟨Nat.zero_le 1, Or.inr hfailed⟩, Option.some_ne_none _⟩
          · obtain rfl : state = some .succeeded := hsucceeded
            exact stands_rejected (.returned none) hcosts
    · cases outcome <;> exact h
  | settling outcome usage endedAt =>
    rcases outcome with (_ | output) | error
    · exact Or.inl h
    · cases hw
    · cases hw
  | charging outcome usage endedAt =>
    obtain ⟨rfl, rfl⟩ := Prod.mk.inj h
    show RecordState.Stands ⟨RecordCall.withoutCost outcome usage endedAt, failed⟩ _
    unfold RecordCall.withoutCost
    split
    · exact ⟨rfl, Nat.zero_le 1⟩
    · exact stands_raise outcome (Nat.zero_le 1)
  | operating outcome endedAt =>
    obtain ⟨hstate, hcosts⟩ := h
    obtain rfl : state = some outcome.endState := hstate
    show RecordState.Stands ⟨outcome.operated endedAt m.operations, failed⟩ _
    cases m.operations with
    | error error => exact stands_raise outcome hcosts
    | ok operations => exact ⟨rfl, hcosts⟩
  | logging outcome endedAt operations =>
    cases operations with
    | nil => cases outcome <;> exact h
    | cons op rest => cases hw
  | erring error endedAt => cases hw
  | resolved => exact h
  | refused failure => trivial
  | rejected error => exact h

end Stands

/-! ### Steps of a call -/

section Step

variable {redact : String → String} {call : RecordCall} {m : RecordMoment}
  {record record' : RecordState} {db db' : Db}

/-- **What a step does to the standings**: nothing, or a statement books its effect. -/
theorem recordStep_standing (h : recordStep redact call m record db = (record', db')) :
    (∀ id, db'.standing id = db.standing id) ∨
      m.fault ≠ some .refused ∧ ∃ w, call.write? redact m record.phase = some w ∧
        w.statement db = some db' := by
  rcases recordStep_cases h with ⟨w, hw, hfault, hdb, -⟩ | ⟨w, -, -, rfl, -⟩ |
    ⟨w, hw, hfault, hdb, -⟩ | ⟨-, rfl, -⟩
  · refine Or.inr ⟨?_, w, hw, hdb⟩
    rw [hfault]
    exact nofun
  · exact Or.inl fun _ => rfl
  · refine Or.inr ⟨?_, w, hw, hdb⟩
    rw [hfault]
    decide
  · exact Or.inl fun _ => rfl

theorem answered_of {phase : RecordPhase} {w : RecordWrite}
    (hw : call.write? redact m phase = some w) (hfault : m.fault = none)
    (hdb : w.statement db = some db') : m.Answered db (call.write? redact m phase) := by
  refine ⟨hfault, ?_⟩
  rw [hw, Option.bind_some, hdb]
  rfl

/-- A call that proceeds does not write a failure over a success. -/
theorem RecordCall.Proceeds.not_succeeded (h : call.Proceeds redact m record db)
    (hfault : m.fault ≠ some .refused) :
    ∀ error usage endedAt, record.phase = .settling (.threw error) usage endedAt →
      (db.standing call.agentRunId).1 ≠ some .succeeded := by
  intro error usage endedAt hphase
  rw [RecordCall.Proceeds, hphase] at h
  exact h.resolve_left hfault

/-- A statement of the start, in a step of a call that proceeds. -/
theorem RecordCall.Proceeds.answered (h : call.Proceeds redact m record db)
    (hphase : (∃ pack, record.phase = .packing pack) ∨ record.phase = .starting) :
    m.Answered db (call.write? redact m record.phase) := by
  rcases hphase with ⟨pack, hpack⟩ | hstart
  · rw [RecordCall.Proceeds, hpack] at h
    rw [hpack]
    exact h
  · rw [RecordCall.Proceeds, hstart] at h
    rw [hstart]
    exact h

/-- **One step of a call that proceeds** keeps how its run stands. -/
theorem stands_step (h : recordStep redact call m record db = (record', db'))
    (hstands : record.Stands (db.standing call.agentRunId))
    (hattributed : (db.standing call.agentRunId).1 = none → (db.standing call.agentRunId).2 = 0)
    (hproceeds : call.Proceeds redact m record db) :
    record'.Stands (db'.standing call.agentRunId) := by
  obtain ⟨phase, failed⟩ := record
  -- a statement of the start that fails does not belong to a call that proceeds
  have hanswered : ∀ w, call.write? redact m phase = some w →
      (m.fault ≠ none ∨ w.statement db = none) →
      (∀ pack, phase ≠ .packing pack) ∧ phase ≠ .starting := by
    intro w hw hfails
    have hnot : ¬ m.Answered db (call.write? redact m phase) := by
      rintro ⟨hfault, hsome⟩
      rcases hfails with hfault' | hnone
      · exact hfault' hfault
      · rw [hw, Option.bind_some, hnone] at hsome
        cases hsome
    exact ⟨fun pack hpack => hnot (hproceeds.answered (Or.inl ⟨pack, hpack⟩)),
      fun hstart => hnot (hproceeds.answered (Or.inr hstart))⟩
  rcases recordStep_cases h with ⟨w, hw, hfault, hdb, rfl⟩ | ⟨w, hw, hfault, rfl, rfl⟩ |
    ⟨w, hw, hfault, hdb, rfl⟩ | ⟨hw, rfl, rfl⟩
  · rw [write_standing hw hdb, if_pos rfl]
    refine stands_answered hstands hw (fun adapter revisionId hphase => ?_)
      (hproceeds.not_succeeded ?_)
    · obtain rfl : phase = .stamped adapter revisionId := hphase
      exact hattributed (stamped_new hw hdb)
    · rw [hfault]
      exact nofun
  · obtain ⟨hpack, hstart⟩ := hanswered w hw (hfault.imp_left fun hrefused => by
      rw [hrefused]
      exact nofun)
    exact stands_unexecuted hstands hw hpack hstart
  · obtain ⟨hpack, hstart⟩ := hanswered w hw (Or.inl (by rw [hfault]; exact nofun))
    rw [write_standing hw hdb, if_pos rfl]
    refine stands_unanswered hstands hw hpack hstart (hproceeds.not_succeeded ?_)
    rw [hfault]
    decide
  · refine stands_advance hstands hw (fun pack hphase => ?_) fun error error' hphase husage => ?_
    · obtain ⟨-, hsome⟩ := hproceeds.answered (Or.inl ⟨pack, hphase⟩)
      replace hw : call.write? redact m (RecordState.mk phase failed).phase = none := hw
      rw [hw] at hsome
      cases hsome
    · obtain rfl : phase = .extracting (.threw error) := hphase
      rcases hproceeds with hextracted | hstate
      · rw [husage] at hextracted
        cases hextracted
      · exact hstate

/-- **One step of a call that proceeds** moves its run along the matrix. -/
theorem follows_step (h : recordStep redact call m record db = (record', db'))
    (hstands : record.Stands (db.standing call.agentRunId))
    (hproceeds : call.Proceeds redact m record db) (id : String) :
    Follows (db.standing id).1 (db'.standing id).1 := by
  rcases recordStep_standing h with hsame | ⟨hfault, w, hw, hdb⟩
  · rw [hsame]
    exact .same _
  rw [write_standing hw hdb]
  by_cases hid : id = call.agentRunId
  · rw [if_pos hid, hid]
    have hend := hproceeds.not_succeeded hfault
    obtain ⟨phase, failed⟩ := record
    cases phase with
    | stamped adapter revisionId =>
      have hnew := stamped_new hw hdb
      rw [hnew]
      exact .inserted
    | starting =>
      obtain ⟨hstanding, -⟩ := hstands
      rw [hstanding]
      exact .moved (by decide)
    | settling outcome usage endedAt =>
      have hrunning : db.standing call.agentRunId = (some .running, 0) := by
        cases outcome with
        | returned output => exact hstands
        | threw error =>
          have hnot := hend error usage endedAt rfl
          exact hstands.resolve_right fun hsucceeded => hnot hsucceeded.1
      rw [hrunning]
      cases outcome with
      | returned output => exact .moved (by rfl)
      | threw error => exact .moved (by rfl)
    | _ => exact .same _
  · rw [if_neg hid]
    exact .same _

/-- **The converse**: a step that moves its run along the matrix, and leaves it consistent if it is the
last one, is one of a call that proceeds. -/
theorem proceeds_of_step (h : recordStep redact call m record db = (record', db'))
    (hstands : record.Stands (db.standing call.agentRunId))
    (hfollows : Follows (db.standing call.agentRunId).1 (db'.standing call.agentRunId).1)
    (hsettled : record'.phase.isSettled = true →
      record'.Consistent (db'.standing call.agentRunId)) :
    call.Proceeds redact m record db := by
  obtain ⟨phase, failed⟩ := record
  -- a run that is left queued or running, though no write of a final state has failed
  have hleft : ∀ {w costs}, (w = some AgentRunState.queued ∨ w = some .running) →
      record'.finalWriteFailed = false → ¬ record'.Consistent (w, costs) := by
    rintro w costs hw hfinal ⟨-, ⟨hqueued, hrunning⟩ | hfailed⟩
    · exact hw.elim hqueued hrunning
    · rw [hfinal] at hfailed
      cases hfailed
  cases phase with
  | packing pack =>
    obtain ⟨hstanding, hfinal⟩ := hstands
    replace hfinal : failed = false := hfinal
    subst hfinal
    rcases recordStep_cases h with ⟨w, hw, hfault, hdb, -⟩ | ⟨w, hw, -, rfl, rfl⟩ |
      ⟨w, hw, -, hdb, rfl⟩ | ⟨hw, rfl, rfl⟩
    · exact answered_of hw hfault hdb
    · obtain ⟨content, -, rfl⟩ := Option.map_eq_some_iff.mp hw
      rw [hstanding] at hsettled
      exact absurd (hsettled rfl) (hleft (Or.inl rfl) rfl)
    · rw [write_standing hw hdb, if_pos rfl, hstanding] at hsettled
      obtain ⟨content, -, rfl⟩ := Option.map_eq_some_iff.mp hw
      exact absurd (hsettled rfl) (hleft (Or.inl rfl) rfl)
    · rw [hstanding] at hsettled
      exact absurd (hsettled rfl) (hleft (Or.inl rfl) rfl)
  | starting =>
    obtain ⟨hstanding, hfinal⟩ := hstands
    replace hfinal : failed = false := hfinal
    subst hfinal
    rcases recordStep_cases h with ⟨w, hw, hfault, hdb, -⟩ | ⟨w, hw, -, rfl, rfl⟩ |
      ⟨w, hw, -, hdb, rfl⟩ | ⟨hw, -, -⟩
    · exact answered_of hw hfault hdb
    · obtain rfl := Option.some.inj hw
      rw [hstanding] at hsettled
      exact absurd (hsettled rfl) (hleft (Or.inl rfl) rfl)
    · rw [write_standing hw hdb, if_pos rfl, hstanding] at hsettled
      obtain rfl := Option.some.inj hw
      exact absurd (hsettled rfl) (hleft (Or.inr rfl) rfl)
    · cases hw
  | extracting outcome =>
    cases outcome with
    | returned output => trivial
    | threw error =>
      obtain ⟨rfl, rfl⟩ := Prod.mk.inj h
      rcases husage : m.usage with error' | usage
      · by_contra hnot
        obtain ⟨-, hnot⟩ := not_or.mp hnot
        obtain ⟨hrunning, hfinal⟩ := not_or.mp hnot
        have hphase : call.advance db m (.extracting (.threw error)) = .rejected error' := by
          rw [RecordCall.advance, husage]
          rfl
        have hconsistent : RecordState.Consistent
            ⟨call.advance db m (.extracting (.threw error)), failed⟩
            (db.standing call.agentRunId) := by
          refine hsettled ?_
          show (call.advance db m (.extracting (.threw error))).isSettled = true
          rw [hphase]
          rfl
        rw [show db.standing call.agentRunId = (some .running, db.costsOf call.agentRunId) from
          Prod.ext (not_not.mp hrunning) rfl] at hconsistent
        exact hleft (Or.inr rfl) (Bool.not_eq_true _ ▸ hfinal) hconsistent
      · refine Or.inl ?_
        rw [husage]
        rfl
  | settling outcome usage endedAt =>
    cases outcome with
    | returned output => trivial
    | threw error =>
      by_contra hnot
      obtain ⟨hfault, hsucceeded⟩ := not_or.mp hnot
      replace hsucceeded : (db.standing call.agentRunId).1 = some .succeeded := not_not.mp hsucceeded
      have hfailed : (db'.standing call.agentRunId).1 = some .failed := by
        rcases recordStep_cases h with ⟨w, hw, -, hdb, -⟩ | ⟨w, hw, hrefused, rfl, -⟩ |
          ⟨w, hw, -, hdb, -⟩ | ⟨hw, -, -⟩
        · rw [write_standing hw hdb, if_pos rfl]
          exact congrArg (Option.map fun _ => AgentRunState.failed) hsucceeded
        · obtain rfl := Option.some.inj hw
          rcases hrefused with hrefused | hnone
          · exact absurd hrefused hfault
          · cases hnone
        · rw [write_standing hw hdb, if_pos rfl]
          exact congrArg (Option.map fun _ => AgentRunState.failed) hsucceeded
        · cases hw
      rw [hsucceeded, hfailed] at hfollows
      obtain ⟨-⟩ | ⟨-⟩ | ⟨hvalid⟩ := hfollows
      exact absurd hvalid (by decide)
  | _ => trivial

/-- A step after the insertion of the run is followed by another such one. -/
theorem isInserted_step (h : recordStep redact call m record db = (record', db'))
    (hinserted : record.phase.isInserted = true) : record'.phase.isInserted = true := by
  rcases recordStep_cases h with ⟨w, hw, -, -, rfl⟩ | ⟨w, hw, -, -, rfl⟩ | ⟨w, hw, -, -, rfl⟩ |
    ⟨hw, -, rfl⟩
  · exact (write_isInserted hinserted hw).1
  · exact (write_isInserted hinserted hw).2
  · exact (write_isInserted hinserted hw).2
  · exact advance_isInserted hinserted

/-- The step that inserts the run finds its id unused. -/
theorem new_of_step (h : recordStep redact call m record db = (record', db'))
    (hbefore : record.phase.isInserted = false) (hafter : record'.phase.isInserted = true) :
    (db.standing call.agentRunId).1 = none := by
  rcases recordStep_cases h with ⟨w, hw, -, hdb, rfl⟩ | ⟨w, hw, -, -, rfl⟩ | ⟨w, hw, -, -, rfl⟩ |
    ⟨-, -, rfl⟩
  · obtain ⟨⟨adapter, revisionId, hphase⟩, -⟩ := stamped_of_write hbefore hw
    rw [hphase] at hw
    exact stamped_new hw hdb
  · rw [(stamped_of_write hbefore hw).2] at hafter
    cases hafter
  · rw [(stamped_of_write hbefore hw).2] at hafter
    cases hafter
  · rw [advance_not_isInserted hbefore] at hafter
    cases hafter

end Step

/-! ### Runs of the machine -/

/-- What the runs of the machine keep. -/
structure Recorder.Safe {ι : Type} (recorder : Recorder ι) (s : RecorderState ι) : Prop where
  stands : ∀ i, (s.records i).Stands (s.db.standing (recorder.calls i).agentRunId)
  apart : ∀ i j, (s.records i).phase.isInserted = true → (s.records j).phase.isInserted = true →
    (recorder.calls i).agentRunId = (recorder.calls j).agentRunId → i = j
  attributed : ∀ id, (s.db.standing id).1 = none → (s.db.standing id).2 = 0

section Machine

variable {ι : Type} [DecidableEq ι] {recorder : Recorder ι} {s : RecorderState ι}

theorem standing_register (recorder : Recorder ι) (s : RecorderState ι) (input : RegisterAdapterInput) (runtime : Runtime) (id : String) :
    (recorder.next s (.register input runtime)).db.standing id = s.db.standing id := by
  have hframe := frame_register input (.start s.db runtime)
  obtain ⟨hruns, hcosts⟩ := Prod.mk.inj hframe
  have hstate : (recorder.next s (.register input runtime)).db.agentRunState id =
      s.db.agentRunState id := by
    rw [Db.agentRunState, Db.agentRunState]
    exact congrArg (fun runs : Table AgentRun =>
      (runs.find? fun run => run.id == id).map (·.state)) hruns
  have hcost : (recorder.next s (.register input runtime)).db.costsOf id = s.db.costsOf id := by
    rw [Db.costsOf, Db.costsOf]
    exact congrArg (fun costs : Table CostRecord =>
      costs.count fun cost => cost.agentRunId == some id) hcosts
  exact Prod.ext hstate hcost

omit [DecidableEq ι] in
/-- A step leaves the runs of other calls as they stand. -/
theorem Recorder.Safe.standing_other (h : recorder.Safe s) {i j : ι} {m : RecordMoment}
    {record' : RecordState} {db' : Db}
    (hstep : recordStep recorder.redact (recorder.calls i) m (s.records i) s.db = (record', db'))
    (hj : j ≠ i) (hinserted : (s.records j).phase.isInserted = true) :
    db'.standing (recorder.calls j).agentRunId = s.db.standing (recorder.calls j).agentRunId := by
  rcases recordStep_standing hstep with hsame | ⟨-, w, hw, hdb⟩
  · exact hsame _
  have hapart : (recorder.calls j).agentRunId ≠ (recorder.calls i).agentRunId := by
    intro hsame
    by_cases hinserted' : (s.records i).phase.isInserted = true
    · exact hj (h.apart j i hinserted hinserted' hsame)
    · obtain ⟨⟨adapter, revisionId, hphase⟩, -⟩ :=
        stamped_of_write (Bool.not_eq_true _ ▸ hinserted') hw
      rw [hphase] at hw
      refine stands_present (h.stands j) hinserted ?_
      rw [hsame]
      exact stamped_new hw hdb
  rw [write_standing hw hdb, if_neg hapart]

/-- **The step lemma**: a step in which its call proceeds keeps the invariant. -/
theorem Recorder.Safe.next (h : recorder.Safe s) {e : RecorderEvent ι}
    (hproceeds : recorder.Proceeds s e) : recorder.Safe (recorder.next s e) := by
  cases e with
  | register input runtime =>
    refine ⟨fun i => ?_, h.apart, fun id hnone => ?_⟩
    · rw [standing_register]
      exact h.stands i
    · rw [standing_register] at hnone ⊢
      exact h.attributed id hnone
  | act i m =>
    obtain ⟨record', db', hstep, hdb, hrecord, hothers⟩ := next_act recorder s i m
    have hstands := stands_step hstep (h.stands i) (h.attributed _) hproceeds
    -- the other calls have inserted runs of other ids
    have hapart : ∀ j, j ≠ i → (s.records j).phase.isInserted = true →
        record'.phase.isInserted = true →
        (recorder.calls j).agentRunId ≠ (recorder.calls i).agentRunId := by
      intro j hj hinserted hafter hsame
      by_cases hbefore : (s.records i).phase.isInserted = true
      · exact hj (h.apart j i hinserted hbefore hsame)
      · have hnone := new_of_step hstep (Bool.not_eq_true _ ▸ hbefore) hafter
        rw [← hsame] at hnone
        exact stands_present (h.stands j) hinserted hnone
    refine ⟨fun j => ?_, fun j k hj hk hsame => ?_, fun id hnone => ?_⟩
    · by_cases hj : j = i
      · rw [hj, hrecord, hdb]
        exact hstands
      · rw [hothers j hj, hdb]
        by_cases hinserted : (s.records j).phase.isInserted = true
        · rw [h.standing_other hstep hj hinserted]
          exact h.stands j
        · exact stands_congr (Bool.not_eq_true _ ▸ hinserted) (h.stands j)
    · by_cases hji : j = i
      · by_cases hki : k = i
        · exact hji.trans hki.symm
        · rw [hji, hrecord] at hj
          rw [hothers k hki] at hk
          rw [hji] at hsame
          exact absurd hsame.symm (hapart k hki hk hj)
      · rw [hothers j hji] at hj
        by_cases hki : k = i
        · rw [hki, hrecord] at hk
          rw [hki] at hsame
          exact absurd hsame (hapart j hji hj hk)
        · rw [hothers k hki] at hk
          exact h.apart j k hj hk hsame
    · rw [hdb] at hnone ⊢
      rcases recordStep_standing hstep with hsame | ⟨-, w, hw, hwritten⟩
      · rw [hsame] at hnone ⊢
        exact h.attributed id hnone
      rw [write_standing hw hwritten] at hnone ⊢
      by_cases hid : id = (recorder.calls i).agentRunId
      · -- the run of the call has been inserted by now
        exfalso
        rw [if_pos hid, hid] at hnone
        by_cases hbefore : (s.records i).phase.isInserted = true
        · have hpresent := stands_present hstands (isInserted_step hstep hbefore)
          rw [write_standing hw hwritten, if_pos rfl] at hpresent
          exact hpresent hnone
        · obtain ⟨⟨adapter, revisionId, hphase⟩, -⟩ :=
            stamped_of_write (Bool.not_eq_true _ ▸ hbefore) hw
          rw [hphase] at hnone
          cases hnone
      · rw [if_neg hid] at hnone ⊢
        exact h.attributed id hnone

/-- A call that is over has left its run consistent. -/
theorem consistent_of_stands {record : RecordState} {standing : Option AgentRunState × ℕ}
    (h : record.Stands standing) (hsettled : record.phase.isSettled = true) :
    record.Consistent standing := by
  obtain ⟨phase, failed⟩ := record
  cases phase with
  | resolved =>
    obtain ⟨hstate, hcosts⟩ := h
    refine ⟨hcosts, Or.inl ?_⟩
    rw [hstate]
    exact ⟨by decide, by decide⟩
  | rejected error => exact h.1
  | _ => cases hsettled

/-- **One step keeps the runs consistent if and only if its call proceeds.** -/
theorem Recorder.Safe.keepsConsistent_iff (h : recorder.Safe s) (e : RecorderEvent ι) :
    recorder.KeepsConsistent s e ↔ recorder.Proceeds s e := by
  constructor
  · rintro ⟨hfollows, hsettled⟩
    cases e with
    | register input runtime => trivial
    | act i m =>
      obtain ⟨record', db', hstep, hdb, hrecord, -⟩ := next_act recorder s i m
      refine proceeds_of_step hstep (h.stands i) ?_ fun hphase => ?_
      · have hmoved := hfollows (recorder.calls i).agentRunId
        rw [hdb] at hmoved
        exact hmoved
      · have hconsistent := hsettled i
        rw [hrecord, hdb] at hconsistent
        exact hconsistent hphase
  · intro hproceeds
    refine ⟨fun id => ?_, fun i hphase => consistent_of_stands ((h.next hproceeds).stands i) hphase⟩
    cases e with
    | register input runtime =>
      have hsame := congrArg Prod.fst (standing_register recorder s input runtime id)
      rw [show (recorder.next s (.register input runtime)).db.agentRunState id =
        s.db.agentRunState id from hsame]
      exact .same _
    | act i m =>
      obtain ⟨record', db', hstep, hdb, -, -⟩ := next_act recorder s i m
      rw [hdb]
      exact follows_step hstep (h.stands i) hproceeds id

omit [DecidableEq ι] in
/-- The state in which no call has begun. -/
theorem safe_start (hready : ∀ i, s.records i = {})
    (hcosts : ∀ cost ∈ s.db.costRecords.rows, ∀ id, cost.agentRunId = some id →
      ∃ run ∈ s.db.agents.runs.rows, run.id = id) : recorder.Safe s := by
  refine ⟨fun i => ?_, fun i j hi => ?_, fun id hnone => ?_⟩
  · rw [hready i]
    rfl
  · rw [hready i] at hi
    cases hi
  · -- a cost record refers to a run
    show s.db.costsOf id = 0
    rw [Db.costsOf, Table.count_eq_zero]
    intro cost hcost
    rw [beq_eq_false_iff_ne]
    intro hof
    obtain ⟨run, hrun, hid⟩ := hcosts cost hcost id hof
    replace hnone : s.db.agentRunState id = none := hnone
    rw [Db.agentRunState, Option.map_eq_none_iff, Table.find?_eq_none] at hnone
    have hother := hnone run hrun
    rw [hid, beq_self_eq_true] at hother
    cases hother

/-- **The runs stay consistent exactly as long as their calls proceed**: in every step, the states of
the runs move along the matrix, and each call that is over has left at most one cost record, and its
run at its end unless a write of the final state has failed; if and only if no call is cut short. -/
theorem record_consistent_iff (hready : ∀ i, s.records i = {})
    (hcosts : ∀ cost ∈ s.db.costRecords.rows, ∀ id, cost.agentRunId = some id →
      ∃ run ∈ s.db.agents.runs.rows, run.id = id) (events : List (RecorderEvent ι)) :
    Along recorder.next recorder.KeepsConsistent s events ↔
      Along recorder.next recorder.Proceeds s events :=
  along_iff_of_step (fun _ e h => h.keepsConsistent_iff e) (fun _ _ h => h.next)
    (safe_start hready hcosts)

end Machine

/-! ### A run that succeeds, and its log -/

/-- The steps of a call up to the log of its tool operation. -/
def sampleRecording : List (RecorderEvent Unit) :=
  sampleRegistration 0 ["can_modify_files"] ::
    (List.range 10).map fun now => .act () (sampleRecordMoment now none)

theorem record_consistent_success : Along (sampleRecorder "can_modify_files").next
    (sampleRecorder "can_modify_files").KeepsConsistent { db := {} }
    (sampleRecording ++ [.act () (sampleRecordMoment 10 none),
      .act () (sampleRecordMoment 11 none)]) :=
  (record_consistent_iff (fun _ => rfl) (by intro cost hcost; cases hcost) _).mpr
    (by decide +kernel)

/-- The row of the tool operation is refused: the run has succeeded, and is then written as failed. -/
theorem not_consistent_logging : ¬ Along (sampleRecorder "can_modify_files").next
    (sampleRecorder "can_modify_files").KeepsConsistent { db := {} }
    (sampleRecording ++ [.act () (sampleRecordMoment 10 (some .refused)),
      .act () (sampleRecordMoment 11 none), .act () (sampleRecordMoment 12 none)]) := by
  intro h
  rw [along_append] at h
  obtain ⟨-, -, -, hlast, -⟩ := h
  have hfollows := hlast.1 "run"
  have hbefore : (run (sampleRecorder "can_modify_files").next { db := {} } (sampleRecording ++
      [.act () (sampleRecordMoment 10 (some .refused)),
        .act () (sampleRecordMoment 11 none)])).db.agentRunState "run" = some .succeeded := by
    decide +kernel
  have hafter : (run (sampleRecorder "can_modify_files").next { db := {} } (sampleRecording ++
      [.act () (sampleRecordMoment 10 (some .refused)), .act () (sampleRecordMoment 11 none),
        .act () (sampleRecordMoment 12 none)])).db.agentRunState "run" = some .failed := by
    decide +kernel
  rw [run_append, run_cons, run_cons, run_nil] at hbefore
  rw [run_append, run_cons, run_cons, run_cons, run_nil] at hafter
  rw [hbefore, hafter] at hfollows
  obtain ⟨-⟩ | ⟨-⟩ | ⟨hvalid⟩ := hfollows
  exact absurd hvalid (by decide)

end MiniCoder
