import Mathlib.Data.List.Chain
import MiniCoder.System

/-!
# The audit trail of a feature run

Every transition writes one `workflow_events` row with the state the run left and the state it
reached: under an event type `github.*` where the transition records what the source host reported,
`feature.*` otherwise.  The trail of a run is these rows in commit order.

Most handlers write the state they loaded as the `from_state`; ten write a constant
(`FeatureCommand.constantFrom`), which is the state the run was in when the command took the edge
the constant stands for (`Request.OwnEdge`).

* `FeatureCommand.mem_of_borrowsEdge`: the constants that are not the only state their target is
  reached from are those of the `borrowers`.
* `runTransition_trail`: a transition appends its own event, before the cascade.
* `cascadeSkip_audited`: a cascade appends one event for each run that it blocks.
* `next_audited`: **one step** changes the state of a run exactly when it appends an event, with the
  two states.
* `audit_trail`: **over a run**, the trail is a connected chain that ends in the current state.
* `featureTrail_breaks`: the `feature.*` rows alone are no chain.
-/

open Storage Storage.Action Runs

namespace MiniCoder

/-! ### The trail -/

/-- Whether an event is of a kind, such as `feature.*`. -/
def WorkflowEvent.isKind (e : WorkflowEvent) (kind : String) : Bool :=
  kind.toList.isPrefixOf e.eventType.toList

/-- The kinds of the events that record a transition of a feature run. -/
def transitionKinds : List String := ["feature.", "github."]

/-- The events of some kinds that were written for a run, in commit order. -/
def Db.trail (db : Db) (kinds : List String) (featureRunId : String) : List WorkflowEvent :=
  db.workflowEvents.select fun e => e.featureRunId == some featureRunId && kinds.any e.isKind

/-- The trail of a run is faithful: it starts in the state the run was created in, each event starts
where the one before it ended, and the last one ended in the state of the run. -/
structure Db.Faithful (db : Db) (kinds : List String) (featureRunId : String)
    (start : FeatureExecutionState) : Prop where
  first : ∀ e ∈ (db.trail kinds featureRunId).head?, e.fromState = start.literal
  chain : (db.trail kinds featureRunId).IsChain fun e e' => e'.fromState = e.toState
  last : ∀ state, db.stateOf featureRunId = some state →
    ((db.trail kinds featureRunId).getLast?.map (·.toState)).getD start.literal = state.literal

/-- A step left a run and its trail as they were. -/
def Silent (kinds : List String) (featureRunId : String) (db db' : Db) : Prop :=
  db'.stateOf featureRunId = db.stateOf featureRunId ∧
    db'.trail kinds featureRunId = db.trail kinds featureRunId

/-- A step moved a run from `state` to `state'` and appended one event, with these two states. -/
def Recorded (kinds : List String) (featureRunId : String) (db db' : Db)
    (state state' : FeatureExecutionState) : Prop :=
  db.stateOf featureRunId = some state ∧ db'.stateOf featureRunId = some state' ∧
    ∃ e : WorkflowEvent, e.fromState = state.literal ∧ e.toState = state'.literal ∧
      db'.trail kinds featureRunId = db.trail kinds featureRunId ++ [e]

/-- A step is audited: it left the run alone, or moved it and said so. -/
def Audited (kinds : List String) (featureRunId : String) (db db' : Db) : Prop :=
  Silent kinds featureRunId db db' ∨
    ∃ state state', Recorded kinds featureRunId db db' state state'

section Chains

variable {kinds : List String} {featureRunId : String} {start : FeatureExecutionState} {db db' : Db}

/-- A run whose trail is empty is where it was created. -/
theorem faithful_of_new (hnew : db.trail kinds featureRunId = [])
    (hstart : db.stateOf featureRunId = some start) : db.Faithful kinds featureRunId start where
  first := by
    rw [hnew]
    intro e he
    cases he
  chain := by
    rw [hnew]
    exact List.IsChain.nil
  last state hstate := by
    rw [hnew]
    rw [hstart] at hstate
    obtain rfl := Option.some.inj hstate
    rfl

/-- **An audited step keeps the trail faithful.** -/
theorem Audited.faithful (h : Audited kinds featureRunId db db')
    (hdb : db.Faithful kinds featureRunId start) : db'.Faithful kinds featureRunId start := by
  rcases h with ⟨hstate, htrail⟩ | ⟨state, state', hfrom, hto, e, hefrom, heto, htrail⟩
  · constructor
    · rw [htrail]
      exact hdb.first
    · rw [htrail]
      exact hdb.chain
    · rw [htrail, hstate]
      exact hdb.last
  · have hends := hdb.last state hfrom
    rw [← hefrom] at hends
    constructor
    · -- the first event of all, where there was none
      intro first hfirst
      rw [htrail, List.head?_append] at hfirst
      rcases hhead : (db.trail kinds featureRunId).head? with _ | head
      · rw [List.head?_eq_none_iff.mp hhead] at hends
        rw [hhead] at hfirst
        obtain rfl := Option.some.inj hfirst
        exact hends.symm
      · rw [hhead] at hfirst
        exact hdb.first first (hhead.trans hfirst)
    · rw [htrail]
      refine hdb.chain.append (List.isChain_singleton e) fun x hx y hy => ?_
      obtain rfl := Option.some.inj hy
      rw [Option.mem_def.mp hx] at hends
      exact hends.symm
    · intro now hnow
      rw [hto] at hnow
      obtain rfl := Option.some.inj hnow
      rw [htrail, List.getLast?_concat]
      exact heto

end Chains

/-! ### The edges of the constants -/

namespace FeatureCommand

/-- The state that a command writes as the `from_state` of its event without having read it. -/
def constantFrom : FeatureCommand → Option FeatureExecutionState
  | selectFeature => some .approvedPendingExecution
  | startCoding => some .selected
  | startFixing => some .changesRequested
  | retryFeature | resumeFeatureExecution | resolveDisagreement | blockFeature | skipFeature =>
    some .humanRequired
  | unblockFeature | humanUnblockFeature => some .blocked
  | _ => none

/-- The type of the event a command writes. -/
def eventType : FeatureCommand → String
  | selectFeature => "feature.selected"
  | startCoding => "feature.coding_started"
  | startFixing => "feature.fixing_started"
  | recordCodePushed => "feature.code_pushed"
  | escalateToHuman => "feature.human_required"
  | retryFeature => "feature.retried"
  | resumeFeatureExecution => "feature.resumed_from_human_required"
  | resolveDisagreement => "feature.disagreement_resolved"
  | blockFeature => "feature.blocked_by_human"
  | unblockFeature | humanUnblockFeature => "feature.unblocked"
  | skipFeature => "feature.skipped"
  | recordMerged => "feature.merged"
  | recordMergeFailed => "feature.merge_failed"
  | reconcileMergeFailed => "feature.returned_to_review"
  | recordPrOpened => "github.pr_opened"
  | recordCiRunning => "github.ci_running"
  | recordCiPassed => "github.ci_passed"
  | recordCiFailed => "github.ci_failed"
  | recordChangesRequested => "github.changes_requested"
  | requestChangesAfterCiFail => "github.changes_requested_after_ci_fail"
  | recordApprovedByPolicy => "feature.approved_by_policy"
  | mergeIfReady => "feature.merge_ready"

theorem eventType_kind (command : FeatureCommand) :
    (transitionKinds.any fun kind => kind.toList.isPrefixOf command.eventType.toList) = true := by
  cases command <;> decide +kernel

/-- Whether a command that finds its run in `state` writes another state as the `from_state`. -/
def borrowsEdge (command : FeatureCommand) (state : FeatureExecutionState) : Bool :=
  command.constantFrom.any fun constant => decide (constant ≠ state)

/-- The commands with a constant and a second edge to their target. -/
def borrowers : List FeatureCommand :=
  [selectFeature, retryFeature, resumeFeatureExecution, resolveDisagreement, blockFeature]

/-- Every other constant is the one state from which the matrix lets its command reach its target. -/
theorem mem_of_borrowsEdge {command : FeatureCommand} {state : FeatureExecutionState}
    (hvalid : isValid state command.target = true) (hborrows : command.borrowsEdge state = true) :
    command ∈ borrowers := by
  cases command
  case startCoding | startFixing | skipFeature | unblockFeature | humanUnblockFeature =>
    revert hvalid hborrows
    cases state <;> decide
  case selectFeature | retryFeature | resumeFeatureExecution | resolveDisagreement | blockFeature =>
    decide
  all_goals cases hborrows

end FeatureCommand

/-- The event of a command carries its constant, where it has one, and the state it read otherwise. -/
theorem Request.transition_eventFrom {request : Request} (ev : request.Evidence) (run : FeatureRun) :
    (request.transition ev).eventFrom run =
      request.command.constantFrom.getD run.currentExecutionState := by
  rcases request with ⟨command, envelope⟩
  cases command <;> rfl

theorem Request.transition_eventType {request : Request} (ev : request.Evidence) :
    (request.transition ev).eventType = request.command.eventType := by
  rcases request with ⟨command, envelope⟩
  cases command <;> rfl

/-! ### What a transition appends -/

section Frames

variable {request : Request}

/-- The view of the events. -/
def eventsView (s : Session) : Table WorkflowEvent := s.db.workflowEvents

theorem seesData_eventsView : SeesData eventsView := fun _ _ _ => rfl

theorem prologue_eventsView (ev : request.Evidence) :
    Frame eventsView (request.transition ev).prologue := by
  rcases request with ⟨command, envelope⟩
  cases command
  case startCoding =>
    exact frame_bind (frame_requireExecutionLane seesData_eventsView _ _ _) fun _ =>
      frame_assertActiveFeatureRun seesData_eventsView _
  case startFixing | recordCodePushed | recordPrOpened | recordCiRunning =>
    exact frame_requireExecutionLane seesData_eventsView _ _ _
  all_goals exact frame_pure _

theorem guard_eventsView (ev : request.Evidence) (run : FeatureRun) :
    Frame eventsView ((request.transition ev).guard run) := by
  rcases request with ⟨command, envelope⟩
  cases command
  case selectFeature | unblockFeature | humanUnblockFeature =>
    exact frame_assertDependenciesMerged seesData_eventsView _ _
  case retryFeature => exact frame_assertActiveFeatureRun seesData_eventsView _
  case resumeFeatureExecution =>
    show Frame eventsView (resumeGuard envelope)
    unfold resumeGuard
    split
    · exact frame_pure _
    · exact frame_bind (frame_settleDisagreement seesData_eventsView (fun _ _ => rfl) _ _ _ _)
        fun _ => frame_pure _
  case resolveDisagreement =>
    exact frame_settleDisagreement seesData_eventsView (fun _ _ => rfl) _ _ _ _
  case recordChangesRequested | requestChangesAfterCiFail =>
    exact frame_assertBelowFixThreshold run
  all_goals exact frame_pure _

theorem effects_eventsView (ev : request.Evidence) (run : FeatureRun)
    (checked : (request.transition ev).Checked) :
    Frame eventsView ((request.transition ev).effects run checked) := by
  have hπ := seesData_eventsView
  rcases request with ⟨command, envelope⟩
  cases command
  case selectFeature => exact frame_claimProject hπ fun _ _ => rfl
  case recordCodePushed =>
    show Frame eventsView envelope.payload.resolve
    unfold RecordCodePushedPayload.resolve
    split
    · exact frame_pure _
    · exact frame_resolveFindings hπ (fun _ _ => rfl) (fun _ _ => rfl) _ _
  case escalateToHuman | recordCiFailed | recordChangesRequested =>
    exact frame_insertReviewFindings hπ (fun _ _ => rfl) _ _ _ _
  case retryFeature | resumeFeatureExecution | resolveDisagreement | humanUnblockFeature =>
    exact frame_recordApproval hπ (fun _ _ => rfl) _
  case blockFeature | skipFeature =>
    exact frame_bind (frame_releaseProject hπ fun _ _ => rfl) fun _ =>
      frame_recordApproval hπ (fun _ _ => rfl) _
  case recordMerged =>
    exact frame_bind (frame_mergePullRequestRow hπ (fun _ _ => rfl) _) fun _ =>
      frame_releaseProject hπ fun _ _ => rfl
  case recordPrOpened => exact frame_insertPullRequestRow hπ (fun _ _ => rfl) _
  all_goals exact frame_pure _

end Frames

section Steps

variable {kinds : List String} {featureRunId : String} {db db' : Db} {s s' : Session}

/-- An event of another run, or of another kind, is not on the trail. -/
theorem trail_append {e : WorkflowEvent}
    (hrows : db'.workflowEvents.rows = db.workflowEvents.rows ++ [e]) :
    db'.trail kinds featureRunId = db.trail kinds featureRunId ++
      if e.featureRunId == some featureRunId && kinds.any e.isKind then [e] else [] := by
  rw [Db.trail, Table.select, hrows, List.filter_append, List.filter_cons, List.filter_nil]
  rfl

theorem trail_of_eq (h : db'.workflowEvents = db.workflowEvents) :
    db'.trail kinds featureRunId = db.trail kinds featureRunId := by
  unfold Db.trail
  rw [h]

/-- An update of the rows of one run moves no other. -/
theorem stateOf_update {p : FeatureRun → Bool} {f : FeatureRun → FeatureRun} {hf : KeyFree f}
    {own : String} (hid : ∀ r, (f r).id = r.id) (hp : ∀ r, p r = true → r.id = own)
    (hruns : db'.featureRuns = db.featureRuns.update p f hf) (hother : featureRunId ≠ own) :
    db'.stateOf featureRunId = db.stateOf featureRunId := by
  have hfind : db'.runById featureRunId = (db.runById featureRunId).map (Table.updateRow p f) := by
    rw [Db.runById, hruns]
    exact Table.find?_update fun r => by rw [hid]
  rw [Db.stateOf, Db.stateOf, hfind]
  rcases hrun : db.runById featureRunId with _ | run
  · rfl
  · have hrunId : (run.id == featureRunId) = true := db.featureRuns.prop_of_find? hrun
    have hmiss : p run = false := by
      by_contra hmatch
      have hown := hp run (by simpa using hmatch)
      exact hother ((beq_iff_eq.mp hrunId).symm.trans hown)
    rw [Option.map_some, Table.updateRow_of_neg hmiss]

/-- **A transition appends its own event**, before the cascade, and has moved no other run by then. -/
theorem runTransition_trail {P : Type} {envelope : CommandEnvelope P} {t : Transition}
    {result : CommandResult} (hprologue : Frame eventsView t.prologue)
    (hguard : ∀ run, Frame eventsView (t.guard run))
    (heffects : ∀ run checked, Frame eventsView (t.effects run checked))
    (h : exec (runTransition envelope t) s = (.ok result, s')) :
    ∃ run s₆, s.db.findFeatureRun t.featureRunId t.projectId = some run ∧
      (∃ e : WorkflowEvent, e.featureRunId = some t.featureRunId ∧ e.eventType = t.eventType ∧
        e.fromState = (t.eventFrom run).literal ∧ e.toState = t.toState.literal ∧
        s₆.db.workflowEvents.rows = s.db.workflowEvents.rows ++ [e]) ∧
      (∀ other, other ≠ t.featureRunId → s₆.db.stateOf other = s.db.stateOf other) ∧
      exec (t.cascade run) s₆ = (.ok (), s') := by
  obtain ⟨_, s₁, hchecks, h₁⟩ := exec_bind_ok.mp h
  obtain ⟨run, s₂, hload, h₂⟩ := exec_bind_ok.mp h₁
  obtain ⟨g, s₃, hguards, h₃⟩ := exec_bind_ok.mp h₂
  obtain ⟨_, s₄, hmove, h₄⟩ := exec_bind_ok.mp h₃
  obtain ⟨_, s₅, hside, h₅⟩ := exec_bind_ok.mp h₄
  obtain ⟨eventId, s₆, hrecord, h₆⟩ := exec_bind_ok.mp h₅
  obtain ⟨_, s₇, hcascade, h₇⟩ := exec_bind_ok.mp h₆
  obtain ⟨-, rfl⟩ := Prod.mk.inj h₇
  obtain ⟨eventId', s₅', hevent, hrest⟩ := exec_bind_ok.mp hrecord
  obtain ⟨outboxId, s₆', houtbox, hpure⟩ := exec_bind_ok.mp hrest
  obtain ⟨-, rfl⟩ := Prod.mk.inj hpure
  have hc₁ : coreView s₁ = coreView s := t.prologue_core.of_exec hchecks
  obtain ⟨hfound, -, -, hdb₂, -⟩ := Transition.load_ok hload
  obtain ⟨-, hdb₄, -⟩ := Transition.move_ok hmove
  obtain ⟨hruns₅', e, hrun, htype, hfrom, hto, hrows⟩ := writeWorkflowEvent_ok hevent
  refine ⟨run, s₆', ?_, ⟨e, hrun, htype, hfrom, hto, ?_⟩, fun other hother => ?_, hcascade⟩
  · rw [← findFeatureRun_core, ← (core_eq hc₁).1, findFeatureRun_core]
    exact hfound
  · -- the events, up to the transition's own
    have he₁ : eventsView s₁ = eventsView s := hprologue.of_exec hchecks
    have he₂ : eventsView s₂ = eventsView s₁ := congrArg Db.workflowEvents hdb₂
    have he₃ : eventsView s₃ = eventsView s₂ := (hguard run).of_exec hguards
    have he₄ : eventsView s₄ = eventsView s₃ := by
      rw [eventsView, hdb₄]
      rfl
    have he₅ : eventsView s₅ = eventsView s₄ := (heffects run g).of_exec hside
    have he₆ : eventsView s₆' = eventsView s₅' :=
      (frame_writeOutboxEvent seesData_eventsView (fun _ _ => rfl) _ _).of_exec houtbox
    have hall : s₅.db.workflowEvents = s.db.workflowEvents :=
      he₅.trans (he₄.trans (he₃.trans (he₂.trans he₁)))
    have hlast : s₆'.db.workflowEvents = s₅'.db.workflowEvents := he₆
    rw [hlast, hrows, hall]
  · -- the runs, which only the `UPDATE` rewrites
    have hc₃ : coreView s₃ = coreView s₂ := (t.guard_core run).of_exec hguards
    have hruns₃ : s₃.db.featureRuns = s.db.featureRuns := by
      have hruns₂ : s₂.db.featureRuns = s₁.db.featureRuns := by rw [hdb₂]
      have hguarded : s₃.db.core.featureRuns = s₂.db.core.featureRuns :=
        congrArg Db.featureRuns (core_eq hc₃).1
      have hchecked : s₁.db.core.featureRuns = s.db.core.featureRuns :=
        congrArg Db.featureRuns (core_eq hc₁).1
      exact hguarded.trans (hruns₂.trans hchecked)
    have hruns₅ : s₅.db.featureRuns = s₄.db.featureRuns :=
      congrArg (fun v => v.1.featureRuns) ((t.effects_core run g).of_exec hside)
    have hruns₆ : s₆'.db.featureRuns = s₅'.db.featureRuns :=
      (frame_writeOutboxEvent (π := fun s : Session => s.db.featureRuns) (fun _ _ _ => rfl)
        (fun _ _ => rfl) _ _).of_exec houtbox
    have hruns : s₆'.db.featureRuns =
        s.db.featureRuns.update (t.matchesRun s₃.db) t.moved fun _ _ => rfl := by
      rw [hruns₆, hruns₅', hruns₅, hdb₄, ← hruns₃]
      rfl
    refine stateOf_update (f := t.moved) (fun _ => rfl) (fun r hmatch => ?_) hruns hother
    rw [Transition.matchesRun, Bool.and_eq_true, Bool.and_eq_true, beq_iff_eq] at hmatch
    exact hmatch.1.1

/-! ### What a cascade appends -/

/-- What a cascade does to one run: it leaves it alone, or blocks it, pending, and says so. -/
def Cascades (kinds : List String) (featureRunId : String) (db db' : Db) : Prop :=
  Silent kinds featureRunId db db' ∨
    Recorded kinds featureRunId db db' .approvedPendingExecution .blocked

/-- A blocked run is no longer pending: a cascade blocks a run once. -/
theorem Cascades.trans {db'' : Db} (h : Cascades kinds featureRunId db db')
    (h' : Cascades kinds featureRunId db' db'') : Cascades kinds featureRunId db db'' := by
  rcases h with ⟨hstate, htrail⟩ | ⟨hpending, hblocked, e, hfrom, hto, htrail⟩
  · rw [Cascades, Silent, Recorded, hstate, htrail] at h'
    exact h'
  · rcases h' with ⟨hstate', htrail'⟩ | ⟨hpending', -⟩
    · exact Or.inr ⟨hpending, hstate'.trans hblocked, e, hfrom, hto, htrail'.trans htrail⟩
    · rw [hblocked] at hpending'
      cases hpending'

/-- The retry loop around one dependent reports whether it blocked it, and touches no other run. -/
theorem blockDependent_stateOf {dependentId : String} {attempts version : ℕ} {blocked : Bool}
    (hpending : ∀ r ∈ s.db.featureRuns.rows, r.id = dependentId → r.version = version →
      r.currentExecutionState = .approvedPendingExecution)
    (h : exec (blockDependent dependentId attempts version) s = (.ok blocked, s')) :
    s'.db.workflowEvents = s.db.workflowEvents ∧
      (blocked = false → s'.db.featureRuns = s.db.featureRuns) ∧
      (blocked = true → s.db.stateOf dependentId = some .approvedPendingExecution ∧
        s'.db.stateOf dependentId = some .blocked ∧
        ∀ other, other ≠ dependentId → s'.db.stateOf other = s.db.stateOf other) := by
  induction attempts generalizing version s with
  | zero =>
    obtain ⟨hfalse, rfl⟩ := Prod.mk.inj h
    obtain rfl := Except.ok.inj hfalse
    exact ⟨rfl, fun _ => rfl, fun htrue => by cases htrue⟩
  | succ attempts ih =>
    obtain ⟨affected, s₁, hupdate, h₁⟩ := exec_bind_ok.mp h
    obtain ⟨hdb, -⟩ := execute_ok hupdate
    obtain ⟨hcount, hdb'⟩ := Prod.mk.inj (Option.some.inj hdb)
    rw [exec_ite] at h₁
    split at h₁
    · -- the `UPDATE` matched the dependent
      rename_i hmatched
      obtain ⟨htrue, rfl⟩ := Prod.mk.inj h₁
      obtain rfl := Except.ok.inj htrue
      have hruns : s₁.db.featureRuns = s.db.featureRuns.update (Db.isVersion dependentId version)
          (Db.blockedAt version) (Db.keyFree_blockedAt version) := by
        rw [← hdb']
      refine ⟨by rw [← hdb'], fun hfalse => (by cases hfalse), fun _ => ?_⟩
      rw [← hcount] at hmatched
      obtain ⟨r, hr, hmatch⟩ := Table.count_pos (Nat.pos_iff_ne_zero.mp hmatched)
      have hends := hmatch
      rw [Db.isVersion, Bool.and_eq_true, beq_iff_eq, beq_iff_eq] at hends
      refine ⟨Db.stateOf_some.mpr ⟨r, hr, hends.1, hpending r hr hends.1 hends.2⟩,
        Db.stateOf_some.mpr ⟨Db.blockedAt version r, ?_, hends.1, rfl⟩, fun other hother => ?_⟩
      · rw [hruns]
        exact Table.mem_update.mpr ⟨r, hr, Table.updateRow_of_pos hmatch⟩
      · refine stateOf_update (f := Db.blockedAt version) (fun _ => rfl) (fun r' hr' => ?_) hruns
          hother
        rw [Db.isVersion, Bool.and_eq_true, beq_iff_eq] at hr'
        exact hr'.1
    · -- no row matched: the tables are as before, and the row is read again
      rename_i hnone
      have hzero : s.db.featureRuns.count (Db.isVersion dependentId version) = 0 := by
        have hle := Nat.not_lt.mp hnone
        rw [← hcount] at hle
        exact Nat.le_zero.mp hle
      have hevents : s₁.db.workflowEvents = s.db.workflowEvents := by
        rw [← hdb']
      have hruns : s₁.db.featureRuns = s.db.featureRuns := by
        rw [← hdb']
        exact Table.update_eq_self (Db.keyFree_blockedAt version) hzero
      obtain ⟨fresh, s₂, hquery, h₂⟩ := exec_bind_ok.mp h₁
      obtain ⟨hfresh, hdb₂, -⟩ := query_ok hquery
      have hevents₂ : s₂.db.workflowEvents = s.db.workflowEvents := by rw [hdb₂, hevents]
      have hruns₂ : s₂.db.featureRuns = s.db.featureRuns := by rw [hdb₂, hruns]
      rcases fresh with _ | run
      · obtain ⟨hfalse, rfl⟩ := Prod.mk.inj h₂
        obtain rfl := Except.ok.inj hfalse
        exact ⟨hevents₂, fun _ => hruns₂, fun htrue => by cases htrue⟩
      · simp only [exec_ite] at h₂
        split at h₂
        · obtain ⟨hfalse, rfl⟩ := Prod.mk.inj h₂
          obtain rfl := Except.ok.inj hfalse
          exact ⟨hevents₂, fun _ => hruns₂, fun htrue => by cases htrue⟩
        · rename_i hstate
          have hfound := hfresh.symm
          rw [← hdb₂] at hfound
          have hpending' : ∀ r ∈ s₂.db.featureRuns.rows, r.id = dependentId →
              r.version = run.version → r.currentExecutionState = .approvedPendingExecution := by
            intro r hr hid _
            have hmem := s₂.db.featureRuns.mem_of_find? hfound
            have hrun : (run.id == dependentId) = true := s₂.db.featureRuns.prop_of_find? hfound
            have hsame : r = run := s₂.db.featureRuns.eq_of_clash hr hmem
              (decide_eq_true (hid.trans (beq_iff_eq.mp hrun).symm))
            rw [hsame]
            exact not_not.mp hstate
          obtain ⟨hevents', hkept, hblocked⟩ := ih hpending' h₂
          have hstateOf := Db.stateOf_of_eq hruns₂
          refine ⟨hevents'.trans hevents₂, fun hfalse => (hkept hfalse).trans hruns₂,
            fun htrue => ?_⟩
          obtain ⟨hbefore, hafter, hothers⟩ := hblocked htrue
          exact ⟨(hstateOf _).symm.trans hbefore, hafter,
            fun other hother => (hothers other hother).trans (hstateOf other)⟩

/-- The event of a dependent that was blocked is on its trail. -/
theorem recordBlockedDependent_trail {ref : FeatureRunRef} {actorId dependentId : String}
    (h : exec (recordBlockedDependent ref actorId dependentId) s = (.ok (), s')) :
    s'.db.featureRuns = s.db.featureRuns ∧
      (∀ other, other ≠ dependentId →
        s'.db.trail transitionKinds other = s.db.trail transitionKinds other) ∧
      ∃ e : WorkflowEvent, e.fromState = FeatureExecutionState.approvedPendingExecution.literal ∧
        e.toState = FeatureExecutionState.blocked.literal ∧
        s'.db.trail transitionKinds dependentId = s.db.trail transitionKinds dependentId ++ [e] := by
  obtain ⟨eventId, s₁, hevent, hrest⟩ := exec_bind_ok.mp h
  obtain ⟨outboxId, s₂, houtbox, hpure⟩ := exec_bind_ok.mp hrest
  obtain ⟨-, rfl⟩ := Prod.mk.inj hpure
  obtain ⟨hruns, e, hrun, htype, hfrom, hto, hrows⟩ := writeWorkflowEvent_ok hevent
  have hlast : eventsView s₂ = eventsView s₁ :=
    (frame_writeOutboxEvent seesData_eventsView (fun _ _ => rfl) _ _).of_exec houtbox
  have hruns₂ : s₂.db.featureRuns = s₁.db.featureRuns :=
    (frame_writeOutboxEvent (π := fun s : Session => s.db.featureRuns) (fun _ _ _ => rfl)
      (fun _ _ => rfl) _ _).of_exec houtbox
  have hrows₂ : s₂.db.workflowEvents.rows = s.db.workflowEvents.rows ++ [e] := by
    rw [← hrows]
    exact congrArg Table.rows hlast
  have hkind : transitionKinds.any e.isKind = true := by
    have hdecided : (transitionKinds.any fun kind => kind.toList.isPrefixOf
        "feature.blocked_by_skipped_dependency".toList) = true := by decide +kernel
    unfold WorkflowEvent.isKind
    rw [htype]
    exact hdecided
  refine ⟨hruns₂.trans hruns, fun other hother => ?_, e, hfrom, hto, ?_⟩
  · have hmiss : (e.featureRunId == some other) = false := by
      rw [hrun, beq_eq_false_iff_ne]
      exact fun heq => hother (Option.some.inj heq).symm
    rw [trail_append hrows₂, hmiss, Bool.false_and, if_neg Bool.false_ne_true, List.append_nil]
  · have hown : (e.featureRunId == some dependentId) = true := beq_iff_eq.mpr hrun
    rw [trail_append hrows₂, hown, hkind, Bool.true_and, if_pos rfl]

/-- The loop over the dependents, each of which was pending in the table the cascade started from. -/
theorem blockDependents_audited {ref : FeatureRunRef} {actorId : String} {t : Table FeatureRun}
    {dependents : List FeatureRun}
    (hdeps : ∀ r ∈ dependents, r ∈ t.rows ∧ r.currentExecutionState = .approvedPendingExecution)
    (hsofar : t.Rewritten (Cascaded .skipped) s.db.featureRuns)
    (h : exec (blockDependents ref actorId dependents) s = (.ok (), s')) :
    Cascades transitionKinds featureRunId s.db s'.db := by
  induction dependents generalizing s with
  | nil =>
    obtain ⟨-, rfl⟩ := Prod.mk.inj h
    exact Or.inl ⟨rfl, rfl⟩
  | cons dependent dependents ih =>
    obtain ⟨hmem, hpending⟩ := hdeps dependent List.mem_cons_self
    obtain ⟨edge, s₁, hedge, h₁⟩ := exec_bind_ok.mp h
    obtain ⟨-, rfl⟩ := orThrow_ok hedge
    obtain ⟨blocked, s₂, hblock, h₂⟩ := exec_bind_ok.mp h₁
    have hstill := pending_of_cascaded hmem hpending hsofar
    have hsofar₂ : t.Rewritten (Cascaded .skipped) s₂.db.featureRuns :=
      hsofar.trans (blockDependent_runs hstill hblock) fun _ _ _ => Cascaded.trans
    obtain ⟨hevents, hkept, hmoved⟩ := blockDependent_stateOf hstill hblock
    have hdeps' := fun r hr => hdeps r (List.mem_cons_of_mem dependent hr)
    rw [exec_ite] at h₂
    split at h₂
    · rename_i htrue
      obtain ⟨hbefore, hafter, hothers⟩ := hmoved htrue
      obtain ⟨_, s₃, hrecord, h₃⟩ := exec_bind_ok.mp h₂
      obtain ⟨hruns₃, htrails, e, hfrom, hto, htrail⟩ := recordBlockedDependent_trail hrecord
      have hstates := Db.stateOf_of_eq hruns₃
      refine Cascades.trans ?_ (ih hdeps' (by rw [hruns₃]; exact hsofar₂) h₃)
      by_cases hown : featureRunId = dependent.id
      · subst hown
        refine Or.inr ⟨hbefore, (hstates _).trans hafter, e, hfrom, hto, ?_⟩
        rw [htrail, trail_of_eq hevents]
      · exact Or.inl ⟨(hstates _).trans (hothers _ hown),
          (htrails _ hown).trans (trail_of_eq hevents)⟩
    · rename_i hfalse
      have hruns₂ := hkept (Bool.not_eq_true _ ▸ hfalse)
      exact Cascades.trans (Or.inl ⟨Db.stateOf_of_eq hruns₂ _, trail_of_eq hevents⟩)
        (ih hdeps' hsofar₂ h₂)

/-- **The cascade of a skip** blocks a run at most once, and says so. -/
theorem cascadeSkip_audited {ref : FeatureRunRef} {actorId : String} {run : FeatureRun}
    (h : exec (cascadeSkip ref actorId run) s = (.ok (), s')) :
    Cascades transitionKinds featureRunId s.db s'.db := by
  obtain ⟨dependents, s₁, hquery, hrest⟩ := exec_bind_ok.mp h
  obtain ⟨rfl, hdb, -⟩ := query_ok hquery
  have hcascades : Cascades transitionKinds featureRunId s₁.db s'.db :=
    blockDependents_audited (t := s.db.featureRuns) (fun r hr => mem_pendingDependents hr)
      (by rw [hdb]; exact Cascaded.refl _ _) hrest
  rw [hdb] at hcascades
  exact hcascades

end Steps

/-! ### Runs -/

section Runs

variable {featureRunId : String} {start : FeatureExecutionState} {db : Db} {es : List SystemEvent}

/-- Only a skip cascades. -/
theorem Request.cascade_audited {request : Request} {ev : request.Evidence} {run : FeatureRun}
    {s s' : Session} (h : exec ((request.transition ev).cascade run) s = (.ok (), s')) :
    Silent transitionKinds featureRunId s.db s'.db ∨ (request.command.target = .skipped ∧
      Cascades transitionKinds featureRunId s.db s'.db) := by
  rcases request with ⟨command, envelope⟩
  cases command
  case skipFeature => exact Or.inr ⟨rfl, cascadeSkip_audited h⟩
  all_goals
    obtain ⟨-, rfl⟩ := Prod.mk.inj h
    exact Or.inl ⟨rfl, rfl⟩

theorem Cascades.audited {kinds : List String} {db' : Db}
    (h : Cascades kinds featureRunId db db') : Audited kinds featureRunId db db' :=
  h.imp_right fun hrecorded => ⟨_, _, hrecorded⟩

/-- The command takes the edge that its event will say it took. -/
def Request.OwnEdge (request : Request) (featureRunId : String) (db : Db) : Prop :=
  request.ref.featureRunId = featureRunId → ∀ state, db.stateOf featureRunId = some state →
    isValid state request.command.target = true → request.command.borrowsEdge state = false

/-- Only a borrower can take an edge that its event does not say. -/
theorem Request.ownEdge_of_not_mem {request : Request}
    (h : request.command ∉ FeatureCommand.borrowers) : request.OwnEdge featureRunId db := by
  intro _ state _ hvalid
  by_contra hborrows
  exact h (FeatureCommand.mem_of_borrowsEdge hvalid (by simpa using hborrows))

/-- **A committed command is audited**, for its own run and for those its cascade blocks. -/
theorem Request.commit_audited {request : Request} {ev : request.Evidence} {result : CommandResult}
    {s s' : Session} (hedge : request.OwnEdge featureRunId s.db)
    (h : exec (request.commit ev) s = (.ok result, s')) :
    Audited transitionKinds featureRunId s.db s'.db := by
  rcases commit_worked h with hsame | ⟨s₁, s₂, keys, hs₁, hrt, hwork, hs'⟩
  · rw [hsame]
    exact Or.inl ⟨rfl, rfl⟩
  obtain ⟨run, s₆, hfound, ⟨e, hrun, htype, hfrom, hto, hrows⟩, hothers, hcascade⟩ :=
    runTransition_trail (prologue_eventsView ev) (guard_eventsView ev) (effects_eventsView ev) hwork
  rw [transition_featureRunId] at hrun hothers
  rw [transition_eventFrom] at hfrom
  rw [transition_toState] at hto
  rw [transition_eventType] at htype
  -- the keys are on no trail
  have hstate₁ : s₁.db.stateOf featureRunId = s.db.stateOf featureRunId := by rw [hs₁]; rfl
  have htrail₁ : s₁.db.trail transitionKinds featureRunId =
      s.db.trail transitionKinds featureRunId := by rw [hs₁]; rfl
  have hstate' : s'.db.stateOf featureRunId = s₂.db.stateOf featureRunId := by rw [hs']; rfl
  have htrail' : s'.db.trail transitionKinds featureRunId =
      s₂.db.trail transitionKinds featureRunId := by rw [hs']; rfl
  by_cases hown : request.ref.featureRunId = featureRunId
  · -- the command's own run
    obtain ⟨⟨moved, hmoved⟩, -⟩ := runTransition_ok hwork
    have hdid : request.Did ev s.runtime s.db s'.db := by
      rw [hs₁, hrt] at hmoved
      exact ⟨_, keys, s₂.db, moved, hmoved, hs'⟩
    obtain ⟨loaded, hstep⟩ := hdid.step
    obtain ⟨run', hrun', htarget⟩ := hstep.moved
    have hloaded : loaded = run := by
      rw [hs₁, transition_featureRunId, transition_projectId] at hfound
      exact Option.some.inj (hstep.found.symm.trans hfound)
    subst hloaded
    obtain ⟨hmem, hid, -⟩ := Db.findFeatureRun_some hstep.found
    have hbefore : s.db.stateOf featureRunId = some loaded.currentExecutionState :=
      Db.stateOf_some.mpr ⟨loaded, hmem, hid.trans hown, rfl⟩
    have hafter : s'.db.stateOf featureRunId = some request.command.target := by
      rw [Db.stateOf, ← hown, hrun']
      exact congrArg some htarget
    have hconstant : request.command.constantFrom.getD loaded.currentExecutionState =
        loaded.currentExecutionState := by
      have hnot := hedge hown _ hbefore hstep.valid
      unfold FeatureCommand.borrowsEdge at hnot
      rcases hfrom' : request.command.constantFrom with _ | constant
      · rfl
      · rw [hfrom'] at hnot
        exact not_not.mp (of_decide_eq_false hnot)
    rw [hconstant] at hfrom
    have htrail₆ : s₆.db.trail transitionKinds featureRunId =
        s.db.trail transitionKinds featureRunId ++ [e] := by
      have hhit : (e.featureRunId == some featureRunId) = true := by
        rw [hrun, hown]
        exact beq_iff_eq.mpr rfl
      have hkind : transitionKinds.any e.isKind = true := by
        unfold WorkflowEvent.isKind
        rw [htype]
        exact request.command.eventType_kind
      rw [trail_append hrows, hhit, hkind, Bool.true_and, if_pos rfl, htrail₁]
    have hlast : s₂.db.trail transitionKinds featureRunId =
        s₆.db.trail transitionKinds featureRunId := by
      rcases cascade_audited hcascade with ⟨-, hkept⟩ | ⟨hskip, ⟨-, hkept⟩ | ⟨-, hblocked, -⟩⟩
      · exact hkept
      · exact hkept
      · -- a skipped run was not blocked
        rw [← hstate', hafter, hskip] at hblocked
        cases hblocked
    exact Or.inr ⟨_, _, hbefore, hafter, e, hfrom, hto, htrail'.trans (hlast.trans htrail₆)⟩
  · -- another run
    have hmiss : (e.featureRunId == some featureRunId) = false := by
      rw [hrun, beq_eq_false_iff_ne]
      exact fun heq => hown (Option.some.inj heq)
    have htrail₆ : s₆.db.trail transitionKinds featureRunId =
        s₁.db.trail transitionKinds featureRunId := by
      rw [trail_append hrows, hmiss, Bool.false_and, if_neg Bool.false_ne_true, List.append_nil]
    have hsilent : Silent transitionKinds featureRunId s₁.db s₆.db :=
      ⟨hothers _ fun heq => hown heq.symm, htrail₆⟩
    have hcascades : Cascades transitionKinds featureRunId s₁.db s₂.db := by
      rcases cascade_audited hcascade with hkept | ⟨-, hcascades⟩
      · exact Cascades.trans (Or.inl hsilent) (Or.inl hkept)
      · exact Cascades.trans (Or.inl hsilent) hcascades
    have haudited := hcascades.audited
    rw [Audited, Silent] at haudited ⊢
    simp only [Recorded] at haudited ⊢
    rw [hstate', htrail', ← hstate₁, ← htrail₁]
    exact haudited

theorem silent_of_eq {db' : Db} (hruns : db'.featureRuns = db.featureRuns)
    (hevents : db'.workflowEvents = db.workflowEvents) :
    Audited transitionKinds featureRunId db db' :=
  Or.inl ⟨Db.stateOf_of_eq hruns _, trail_of_eq hevents⟩

namespace SystemEvent

/-- Steps other than the commands leave a run and its trail alone, and a command of the run takes
the edge its event will say it took. -/
def Audits (featureRunId : String) (db : Db) : SystemEvent → Prop
  | other db' => Silent transitionKinds featureRunId db db'
  | commit request _ _ => request.OwnEdge featureRunId db
  | _ => True

/-- **Every step is audited.** -/
theorem next_audited {e : SystemEvent} (h : e.Audits featureRunId db) :
    Audited transitionKinds featureRunId db (next db e) := by
  cases e with
  | lock call =>
    have hkeep := LockEvent.next_withoutLocks db call
    have hruns := congrArg Db.featureRuns hkeep
    have hevents := congrArg Db.workflowEvents hkeep
    exact silent_of_eq hruns hevents
  | gather request rt =>
    have hkeep := next_gather db request rt
    have hruns := congrArg Db.featureRuns hkeep
    have hevents := congrArg Db.workflowEvents hkeep
    exact silent_of_eq hruns hevents
  | commit request ev rt =>
    rcases hres : exec (request.commit ev) (.start db rt) with ⟨failure | result, s'⟩
    · have hsame : s'.db = db := Request.commit_error hres
      have hnext : next db (commit request ev rt) = db := by simp [next, hres, hsame]
      rw [hnext]
      exact Or.inl ⟨rfl, rfl⟩
    · have hnext : next db (commit request ev rt) = s'.db := by simp [next, hres]
      rw [hnext]
      exact Request.commit_audited (s := .start db rt) h hres
  | other db' => exact Or.inl h

end SystemEvent

/-- **The audit trail of a run is faithful.**  From its creation on, every step that changes the
state of the run appends one event with the state before and the state after, no other step appends
one, and the events form a connected chain that ends in the current state. -/
theorem audit_trail (hnew : db.trail transitionKinds featureRunId = [])
    (hstart : db.stateOf featureRunId = some start)
    (hes : Along SystemEvent.next (fun db e => e.Audits featureRunId db) db es) :
    Along SystemEvent.next
        (fun db e => Audited transitionKinds featureRunId db (SystemEvent.next db e)) db es ∧
      Throughout SystemEvent.next (fun db => db.Faithful transitionKinds featureRunId start) db
        es := by
  refine ⟨hes.imp fun db e he => SystemEvent.next_audited he, ?_⟩
  have hstep : ∀ (db : Db) (e : SystemEvent), db.Faithful transitionKinds featureRunId start →
      e.Audits featureRunId db →
        (SystemEvent.next db e).Faithful transitionKinds featureRunId start :=
    fun db e hdb he => (SystemEvent.next_audited he).faithful hdb
  exact throughout_of_step hstep (faithful_of_new hnew hstart) hes

/-- A feature on its way from the selection to its CI checks. -/
theorem audit_trail_cycleToCi :
    Throughout SystemEvent.next
      (fun db => db.Faithful transitionKinds "run-1" .approvedPendingExecution) sampleDb cycleToCi :=
  (audit_trail (by decide +kernel) (by decide +kernel) (by
    have hunique : ∀ {request : Request} {db : Db}, request.command ∉ FeatureCommand.borrowers →
        request.OwnEdge "run-1" db := Request.ownEdge_of_not_mem
    refine ⟨trivial, fun _ state hstate _ => ?_, hunique (by decide), hunique (by decide),
      hunique (by decide), hunique (by decide), trivial⟩
    -- the selection finds the run pending
    have hpending : (SystemEvent.next sampleDb laneAcquired).stateOf "run-1" =
        some .approvedPendingExecution := by decide +kernel
    obtain rfl := Option.some.inj (hpending.symm.trans hstate)
    decide)).2

/-- The `feature.*` rows alone are no chain: what the source host reports is under `github.*`, so
that the last `feature.*` row of this run says where it stood before its pull request. -/
theorem featureTrail_breaks :
    sampleDb.trail ["feature."] "run-1" = [] ∧
      sampleDb.stateOf "run-1" = some .approvedPendingExecution ∧
      ¬ (SystemEvent.after sampleDb cycleToCi).Faithful ["feature."] "run-1"
          .approvedPendingExecution := by
  refine ⟨by decide +kernel, by decide +kernel, fun hfaithful => ?_⟩
  have hlast := hfaithful.last .ciRunning (by decide +kernel)
  revert hlast
  decide +kernel

end Runs

end MiniCoder
