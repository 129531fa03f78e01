import MiniCoder.Commands.Handlers.CreateProject
import MiniCoder.Commands.Handlers.ImplementationComplete
import MiniCoder.Invariants.AuditTrail
import MiniCoder.Invariants.BudgetStop

/-!
# The lifecycle of a project

Eight commands move the row of a project, and each writes one event with the state it left and the
state it reached.  The state that it writes as the former one is a constant: the matrix leads to a
generation from two states, and neither of the two commands of a generation looks which of them the
project is in.

* `moveProject_moved`, `createProject_moved`, `markImplementationComplete_moved`: what a command that
  did its work did to the projects and to their events.
* `next_lawful`: **one step** changes a project only along a row of the matrix that names the command,
  by a caller that the row admits, and says so.
* `lifecycle_lawful`: **over a run** in which no command of a generation is issued for the other one's
  edge, every step is lawful, and the events of each project lead from nothing to its state.
-/

open Storage Storage.Action Runs

namespace MiniCoder

/-! ### The trail of a project -/

/-- The state of a project, where there is one. -/
def Db.projectState (db : Db) (projectId : String) : Option ProjectState :=
  (db.design.findProject projectId).map (·.state)

/-- A state as the events have it. -/
def projectStateText : Option ProjectState → String
  | none => "none"
  | some state => state.literal

/-- The events of the transitions of projects. -/
def Db.projectEvents (db : Db) : List WorkflowEvent :=
  db.workflowEvents.select fun e => e.isKind "project."

/-- The events of one project, in commit order. -/
def Db.projectTrail (db : Db) (projectId : String) : List WorkflowEvent :=
  db.projectEvents.filter fun e => e.projectId == some projectId

/-- The events lead from one state to another: each starts where the one before it ended. -/
def Leads : List WorkflowEvent → String → String → Prop
  | [], first, last => first = last
  | e :: es, first, last => e.fromState = first ∧ Leads es e.toState last

theorem leads_concat {es : List WorkflowEvent} {e : WorkflowEvent} {first last : String} :
    Leads (es ++ [e]) first last ↔ Leads es first e.fromState ∧ e.toState = last := by
  induction es generalizing first with
  | nil =>
    show e.fromState = first ∧ e.toState = last ↔ first = e.fromState ∧ e.toState = last
    constructor
    · rintro ⟨hfirst, hlast⟩
      exact ⟨hfirst.symm, hlast⟩
    · rintro ⟨hfirst, hlast⟩
      exact ⟨hfirst.symm, hlast⟩
  | cons x es ih =>
    show x.fromState = first ∧ Leads (es ++ [e]) x.toState last ↔
      (x.fromState = first ∧ Leads es x.toState e.fromState) ∧ e.toState = last
    rw [ih, and_assoc]

/-- The events of every project lead from nothing to its state. -/
def Db.Traced (db : Db) : Prop :=
  ∀ projectId, Leads (db.projectTrail projectId) "none" (projectStateText (db.projectState projectId))

/-- What was done to a project, and what was recorded of it: a state it left, the one it reached. -/
structure Db.Moved (db db' : Db) (projectId : String) (recorded : Option ProjectState)
    (state' : ProjectState) : Prop where
  others : ∀ id, id ≠ projectId → db'.projectState id = db.projectState id
  after : db'.projectState projectId = some state'
  event : ∃ e : WorkflowEvent, e.projectId = some projectId ∧ e.isKind "project." = true ∧
    e.fromState = projectStateText recorded ∧ e.toState = state'.literal ∧
    db'.workflowEvents.rows = db.workflowEvents.rows ++ [e]

section Trails

variable {db db' : Db} {projectId : String} {recorded : Option ProjectState} {state' : ProjectState}

theorem projectTrail_append {e : WorkflowEvent} (hkind : e.isKind "project." = true)
    (hrows : db'.workflowEvents.rows = db.workflowEvents.rows ++ [e]) :
    db'.projectTrail projectId = db.projectTrail projectId ++
      if e.projectId == some projectId then [e] else [] := by
  unfold Db.projectTrail Db.projectEvents Table.select
  rw [hrows, List.filter_append, List.filter_append]
  congr 1
  rw [List.filter_cons, if_pos hkind, List.filter_nil, List.filter_cons, List.filter_nil]

theorem projectTrail_of_eq (h : db'.projectEvents = db.projectEvents) :
    db'.projectTrail projectId = db.projectTrail projectId := by
  unfold Db.projectTrail
  rw [h]

/-- The event of a move is the last one of its project. -/
theorem Db.Moved.trail (h : db.Moved db' projectId recorded state') :
    ∃ e : WorkflowEvent, e.fromState = projectStateText recorded ∧ e.toState = state'.literal ∧
      db'.projectTrail projectId = db.projectTrail projectId ++ [e] := by
  obtain ⟨e, hproject, hkind, hfrom, hto, hrows⟩ := h.event
  refine ⟨e, hfrom, hto, ?_⟩
  rw [projectTrail_append hkind hrows, if_pos (beq_iff_eq.mpr hproject)]

theorem Db.Moved.trail_other (h : db.Moved db' projectId recorded state') {id : String}
    (hid : id ≠ projectId) : db'.projectTrail id = db.projectTrail id := by
  obtain ⟨e, hproject, hkind, -, -, hrows⟩ := h.event
  have hother : ¬ (e.projectId == some id) = true := by
    rw [beq_iff_eq, hproject, Option.some.injEq]
    exact fun heq => hid heq.symm
  rw [projectTrail_append hkind hrows, if_neg hother, List.append_nil]

/-- The `UPDATE` of a project, with its event. -/
theorem Db.Moved.of_update {p : Project → Bool} {version : ℕ} {project : Project}
    (hfind : db.design.findProject projectId = some project) (hmatch : p project = true)
    (hown : ∀ row, p row = true → row.id = projectId)
    (hprojects : db'.design.projects =
      db.design.projects.update p (Project.moved state' version) (Project.moved_keys _ _))
    (hevent : ∃ e : WorkflowEvent, e.projectId = some projectId ∧ e.isKind "project." = true ∧
      e.fromState = projectStateText recorded ∧ e.toState = state'.literal ∧
      db'.workflowEvents.rows = db.workflowEvents.rows ++ [e]) :
    db.Moved db' projectId recorded state' := by
  have hfind' : ∀ id, db'.design.findProject id =
      (db.design.findProject id).map (Table.updateRow p (Project.moved state' version)) := by
    intro id
    unfold DesignTables.findProject
    rw [hprojects]
    exact Table.find?_update fun row => rfl
  refine ⟨fun id hid => ?_, ?_, hevent⟩
  · unfold Db.projectState
    rw [hfind' id]
    rcases hrow : db.design.findProject id with _ | row
    · rfl
    · have hmiss : p row = false := by
        by_contra hhit
        have hrowId := (DesignTables.findProject_some hrow).2
        exact hid (hrowId.symm.trans (hown row (by simpa using hhit)))
      rw [Option.map_some, Table.updateRow_of_neg hmiss]
  · unfold Db.projectState
    rw [hfind' projectId, hfind, Option.map_some, Table.updateRow_of_pos hmatch]
    rfl

end Trails

/-! ### What the commands do -/

/-- The tables of the lifecycle. -/
def Db.lifecycle (db : Db) : Table Project × Table WorkflowEvent :=
  (db.design.projects, db.workflowEvents)

theorem projectState_of_lifecycle {db db' : Db} {projectId : String}
    (h : db'.lifecycle = db.lifecycle) : db'.projectState projectId = db.projectState projectId := by
  have hprojects : db'.design.projects = db.design.projects := congrArg Prod.fst h
  unfold Db.projectState DesignTables.findProject
  rw [hprojects]

/-- The view of these tables. -/
def lifecycleView (s : Session) : Table Project × Table WorkflowEvent := s.db.lifecycle

theorem seesData_lifecycleView : SeesData lifecycleView := fun _ _ _ => rfl

section Moves

variable {P : Type} {s s' : Session}

/-- **A command that moved a project** moved it along an edge of the matrix, and recorded its own
constant as the former state. -/
theorem moveProject_moved {envelope : CommandEnvelope P} {ref : ProjectRef} {move : ProjectMove}
    {result : CommandResult} (heffects : Frame lifecycleView move.effects)
    (hkind : "project.".toList.isPrefixOf move.eventType.toList = true)
    (h : exec (moveProject envelope ref move) s = (.ok result, s')) :
    (∃ state, s.db.projectState ref.projectId = some state ∧
      projectLifecycle.isValid state move.toState = true) ∧
      s.db.Moved s'.db ref.projectId (some move.eventFrom) move.toState := by
  obtain ⟨project, hfind, hversion, hvalid, -⟩ := moveProject_ok h
  obtain ⟨found, s₁, hrun, h₁⟩ := exec_bind_ok.mp h
  obtain ⟨-, -, -, -, hput, -⟩ := RowMove.run_ok hrun
  obtain ⟨details, s₂, hside, h₂⟩ := exec_bind_ok.mp h₁
  obtain ⟨ids, s₃, hrecord, h₃⟩ := exec_bind_ok.mp h₂
  obtain ⟨-, rfl⟩ := Prod.mk.inj h₃
  obtain ⟨ids', s₄, hevents, houtbox⟩ := exec_bind_ok.mp hrecord
  obtain ⟨id, s₅, hevent, hrest⟩ := exec_bind_ok.mp hevents
  obtain ⟨e, -, hproject, htype, hfrom, hto, events, hrows, hdb₅⟩ := writeWorkflowEvent_row hevent
  -- the side effects see neither table, and what follows the event writes the outbox only
  have hview₂ := heffects.of_exec hside
  have hview₃ : lifecycleView s₃ = lifecycleView s₅ := by
    have hoff : Frame lifecycleView (do
        let ids ← writeWorkflowEvents []
        pure (id :: ids) : Sql (List String)) := frame_bind (frame_pure _) fun _ => frame_pure _
    have hout : Frame lifecycleView (do
        writeOutboxEvents [(move.eventType, [("projectId", .str ref.projectId)] ++ details)]
        pure ids' : Sql (List String)) :=
      frame_bind (frame_bind (frame_writeOutboxEvent seesData_lifecycleView (fun _ _ => rfl) _ _)
        fun _ => frame_pure _) fun _ => frame_pure _
    exact (hout.of_exec houtbox).trans (hoff.of_exec hrest)
  have hprojects : s₂.db.design.projects = s₁.db.design.projects := congrArg Prod.fst hview₂
  have hold : s₂.db.workflowEvents = s₁.db.workflowEvents := congrArg Prod.snd hview₂
  have hprojects' : s₃.db.design.projects = s.db.design.projects.update
      (Project.isAt ref.projectId ref.expectedVersion)
      (Project.moved move.toState (nextVersion found.version)) (Project.moved_keys _ _) := by
    have hlast : s₃.db.design.projects = s₅.db.design.projects := congrArg Prod.fst hview₃
    rw [hlast, hdb₅]
    show s₂.db.design.projects = _
    rw [hprojects, hput]
    rfl
  refine ⟨⟨project.state, ?_, hvalid⟩, .of_update hfind ?_ (fun row hrow => ?_) hprojects' ?_⟩
  · unfold Db.projectState
    rw [hfind]
    rfl
  · show Project.isAt ref.projectId ref.expectedVersion project = true
    rw [Project.isAt, (DesignTables.findProject_some hfind).2, hversion]
    simp
  · have hat : Project.isAt ref.projectId ref.expectedVersion row = true := hrow
    rw [Project.isAt, Bool.and_eq_true, beq_iff_eq] at hat
    exact hat.1
  · refine ⟨e, hproject, ?_, hfrom, hto, ?_⟩
    · rw [WorkflowEvent.isKind, htype]
      exact hkind
    · have hlast : s₃.db.workflowEvents = s₅.db.workflowEvents := congrArg Prod.snd hview₃
      rw [hlast, hdb₅]
      show events.rows = _
      rw [hrows, hold, hput]
      rfl

/-- **A creation** found no project of its id. -/
theorem createProject_moved {envelope : CommandEnvelope CreateProjectPayload}
    {result : CommandResult} (h : exec (createProject envelope) s = (.ok result, s')) :
    s.db.projectState envelope.payload.id = none ∧
      s.db.Moved s'.db envelope.payload.id none .active := by
  obtain ⟨hnone, projects, _, _, hprojects, -, e, hproject, htype, hfrom, hto, events, hrows, hdb⟩ :=
    createProject_ok h
  have hfind' : ∀ id, s'.db.design.findProject id =
      (s.db.design.findProject id).or
        (if envelope.payload.id == id then
          some { id := envelope.payload.id, name := envelope.payload.name }
        else none) := by
    intro id
    rw [hdb]
    show projects.rows.find? _ = _
    rw [Table.rows_insert? hprojects, List.find?_append]
    congr 1
    rw [List.find?_cons, List.find?_nil]
    cases envelope.payload.id == id <;> rfl
  unfold Db.projectState
  refine ⟨by rw [hnone]; rfl, fun id hid => ?_, ?_, e, hproject, ?_, hfrom, hto, ?_⟩
  · have hne : ¬ (envelope.payload.id == id) = true := by
      rw [beq_iff_eq]
      exact fun heq => hid heq.symm
    unfold Db.projectState
    rw [hfind' id, if_neg hne, Option.or_none]
  · unfold Db.projectState
    rw [hfind', hnone, if_pos (beq_self_eq_true _)]
    rfl
  · rw [WorkflowEvent.isKind, htype]
    decide +kernel
  · rw [hdb]
    exact hrows

end Moves

/-! ### The completion of the implementation -/

/-- A move is one between any databases with the same projects and events. -/
theorem Db.Moved.congr {db₁ db₁' db₂ db₂' : Db} {projectId : String} {recorded : Option ProjectState}
    {state' : ProjectState} (h : db₁.Moved db₁' projectId recorded state')
    (hstart : db₂.lifecycle = db₁.lifecycle) (hend : db₂'.lifecycle = db₁'.lifecycle) :
    db₂.Moved db₂' projectId recorded state' := by
  obtain ⟨hprojects, hevents⟩ := Prod.mk.inj hstart
  obtain ⟨hprojects', hevents'⟩ := Prod.mk.inj hend
  refine ⟨fun id hid => ?_, ?_, ?_⟩
  · rw [projectState_of_lifecycle hstart, projectState_of_lifecycle hend]
    exact h.others id hid
  · rw [projectState_of_lifecycle hend]
    exact h.after
  · rw [hevents, hevents']
    exact h.event

section Completion

variable {visibility : Visibility} {met : ℕ → Interference} {other : Interference}
  {envelope : CommandEnvelope MarkImplementationCompletePayload} {s s' : Session}
  {ref : ProjectRef} {project : Project}

/-- A step of the command moved the project along the one edge to its completion. -/
def CompletionMoved (projectId : String) (db db' : Db) : Prop :=
  (∃ state, db.projectState projectId = some state ∧
    projectLifecycle.isValid state .implementationComplete = true) ∧
  db.Moved db' projectId (some .active) .implementationComplete

theorem requireCompletable_ok (h : exec (requireCompletable ref) s = (.ok project, s')) :
    s.db.design.findProject ref.projectId = some project ∧ project.version = ref.expectedVersion ∧
      projectLifecycle.isValid project.state .implementationComplete = true ∧ s'.db = s.db := by
  obtain ⟨found, s₁, hquery, h₁⟩ := exec_bind_ok.mp h
  obtain ⟨hfound, hdb, -⟩ := query_ok hquery
  obtain ⟨_, s₂, hpresent, h₂⟩ := exec_bind_ok.mp h₁
  obtain ⟨-, rfl⟩ := orThrow_ok hpresent
  obtain ⟨project', s₃, hassert, h₃⟩ := exec_bind_ok.mp h₂
  obtain ⟨hrow, rfl⟩ := orThrow_ok hassert
  obtain ⟨hproject, hversion⟩ := assertRowVersion_ok hrow
  obtain ⟨row, s₄, hedge, h₄⟩ := exec_bind_ok.mp h₃
  obtain ⟨hvalid, rfl⟩ := orThrow_ok hedge
  obtain ⟨hr, rfl⟩ := Prod.mk.inj h₄
  obtain rfl := Except.ok.inj hr
  exact ⟨hfound ▸ hproject, hversion, projectLifecycle.isValid_of_assertValid hvalid, hdb⟩

/-- The `UPDATE` matched the project: what follows one that matches nothing throws. -/
theorem completeRow_ok (h : exec (completeRow ref project) s = (.ok (), s')) :
    (∃ row ∈ s.db.design.projects.rows, s.db.isCompletable ref row = true) ∧
      s'.db = projectTable.put s.db (s.db.design.projects.update (s.db.isCompletable ref)
        (Project.moved .implementationComplete (nextVersion project.version))
        (Project.moved_keys _ _)) := by
  obtain ⟨affected, s₁, hupdate, h₁⟩ := exec_bind_ok.mp h
  obtain ⟨hdb, -⟩ := execute_ok hupdate
  obtain ⟨hcount, hput⟩ := Prod.mk.inj (Option.some.inj hdb)
  by_cases hnone : affected = 0
  · rw [if_pos hnone] at h₁
    obtain ⟨_, s₂, -, h₂⟩ := exec_bind_ok.mp h₁
    obtain ⟨_, s₃, -, h₃⟩ := exec_bind_ok.mp h₂
    obtain ⟨_, s₄, -, h₄⟩ := exec_bind_ok.mp h₃
    simp at h₄
  · rw [if_neg hnone] at h₁
    obtain ⟨-, rfl⟩ := Prod.mk.inj h₁
    exact ⟨Table.count_pos (by rw [hcount]; exact hnone), hput.symm⟩

/-- **An attempt that did its work** moved the project. -/
theorem completeProject_moved {result : CommandResult}
    (h : exec (completeProject visibility other envelope) s = (.ok result, s')) :
    CompletionMoved envelope.payload.projectId s.db s'.db := by
  obtain ⟨project, s₁, hprepare, h₁⟩ := exec_bind_ok.mp h
  obtain ⟨_, s₂, haccept, h₂⟩ := exec_bind_ok.mp hprepare
  obtain ⟨acceptance, s₃, hevaluate, hcheck⟩ := exec_bind_ok.mp haccept
  obtain ⟨-, hdb₃, -⟩ := evaluateProjectAcceptance_ok hevaluate
  obtain ⟨-, rfl⟩ := orThrow_ok hcheck
  obtain ⟨project', s₄, hrequire, h₄⟩ := exec_bind_ok.mp h₂
  obtain ⟨hfind, hversion, hvalid, hdb₄⟩ := requireCompletable_ok hrequire
  obtain ⟨_, s₅, hmeanwhile, h₅⟩ := exec_bind_ok.mp h₄
  have hstart : s.db.lifecycle = s₅.db.lifecycle := by
    obtain ⟨-, rfl⟩ := Prod.mk.inj hmeanwhile
    show s.db.lifecycle = s₄.db.lifecycle
    rw [hdb₄, hdb₃]
  obtain ⟨hr, rfl⟩ := Prod.mk.inj h₅
  obtain rfl := Except.ok.inj hr
  obtain ⟨_, s₆, hcomplete, h₆⟩ := exec_bind_ok.mp h₁
  obtain ⟨⟨row, hrow, hmatch⟩, hput⟩ := completeRow_ok hcomplete
  obtain ⟨eventId, s₇, hrecord, h₇⟩ := exec_bind_ok.mp h₆
  obtain ⟨-, rfl⟩ := Prod.mk.inj h₇
  obtain ⟨_, s₈, happroval, h₈⟩ := exec_bind_ok.mp hrecord
  obtain ⟨_, s₉, hevent, h₉⟩ := exec_bind_ok.mp h₈
  obtain ⟨_, s₁₀, houtbox, h₁₀⟩ := exec_bind_ok.mp h₉
  obtain ⟨-, rfl⟩ := Prod.mk.inj h₁₀
  obtain ⟨e, -, hproject, htype, hfrom, hto, events, hrows, hdb₉⟩ := writeWorkflowEvent_row hevent
  have happroved : lifecycleView s₈ = lifecycleView s₆ :=
    (frame_insertHumanApproval seesData_lifecycleView (fun _ _ => rfl) _).of_exec happroval
  have hend : s₁₀.db.lifecycle = s₉.db.lifecycle :=
    (frame_writeOutboxEvent seesData_lifecycleView (fun _ _ => rfl) _ _).of_exec houtbox
  have hprojects : s₈.db.design.projects = s₆.db.design.projects := congrArg Prod.fst happroved
  have hold : s₈.db.workflowEvents = s₆.db.workflowEvents := congrArg Prod.snd happroved
  rw [hdb₃] at hfind
  have hfind₅ : s₅.db.design.findProject envelope.payload.projectId = some project' := by
    have hsame : s.db.design.projects = s₅.db.design.projects := congrArg Prod.fst hstart
    unfold DesignTables.findProject
    rw [← hsame]
    exact hfind
  obtain ⟨hmem, hid⟩ := DesignTables.findProject_some hfind₅
  -- the row that matched is the one that was found
  have hat : ∀ row, s₅.db.isCompletable envelope.payload.toProjectRef row = true →
      row.id = envelope.payload.projectId := by
    intro row hcompletable
    rw [Db.isCompletable, Project.isAt, Bool.and_eq_true, Bool.and_eq_true, beq_iff_eq]
      at hcompletable
    exact hcompletable.1.1
  obtain rfl := DesignTables.eq_of_projectId hrow hmem ((hat row hmatch).trans hid.symm)
  have hprojects' : s₉.db.design.projects = s₅.db.design.projects.update
      (s₅.db.isCompletable envelope.payload.toProjectRef)
      (Project.moved .implementationComplete (nextVersion row.version)) (Project.moved_keys _ _) := by
    rw [hdb₉]
    show s₈.db.design.projects = _
    rw [hprojects, hput]
    rfl
  have hmoved : s₅.db.Moved s₉.db envelope.payload.projectId (some .active)
      .implementationComplete := by
    refine .of_update hfind₅ hmatch hat hprojects' ⟨e, hproject, ?_, hfrom, hto, ?_⟩
    · rw [WorkflowEvent.isKind, htype]
      show "project.".toList.isPrefixOf "project.implementation_complete".toList = true
      decide +kernel
    · rw [hdb₉]
      show events.rows = _
      rw [hrows, hold, hput]
      rfl
  refine ⟨⟨row.state, ?_, hvalid⟩, hmoved.congr hstart hend⟩
  unfold Db.projectState
  rw [hfind]
  rfl

/-- What a call of the command did to the tables of the lifecycle: nothing, or its work. -/
def CompletionStep (projectId : String) (db db' : Db) : Prop :=
  db'.lifecycle = db.lifecycle ∨ CompletionMoved projectId db db'

theorem CompletionStep.congr {projectId : String} {db₁ db₁' db₂ db₂' : Db}
    (h : CompletionStep projectId db₁ db₁') (hstart : db₂.lifecycle = db₁.lifecycle)
    (hend : db₂'.lifecycle = db₁'.lifecycle) : CompletionStep projectId db₂ db₂' := by
  rcases h with hsame | ⟨⟨state, hstate, hvalid⟩, hmoved⟩
  · exact Or.inl (hend.trans (hsame.trans hstart.symm))
  · rw [← projectState_of_lifecycle hstart] at hstate
    exact Or.inr ⟨⟨state, hstate, hvalid⟩, hmoved.congr hstart hend⟩

theorem runCompletion_moved {result : CommandResult}
    (h : exec (runCompletion visibility other envelope) s = (.ok result, s')) :
    CompletionStep envelope.payload.projectId s.db s'.db := by
  obtain ⟨result', s₁, hbody, hcommit⟩ := exec_bind_ok.mp (exec_atomically_ok.mp h)
  obtain ⟨_, s₂, hcommits, hreturn⟩ := exec_bind_ok.mp hcommit
  obtain ⟨-, rfl⟩ := Prod.mk.inj hreturn
  have hend : s₂.db.lifecycle = s₁.db.lifecycle := by
    unfold Visibility.commit at hcommits
    by_cases haborts : other.aborts = true
    · rw [if_pos haborts] at hcommits
      cases hcommits
    · rw [if_neg haborts] at hcommits
      obtain ⟨hdb, -⟩ := execute_ok hcommits
      rw [← (Prod.mk.inj (Option.some.inj hdb)).2]
      rfl
  rcases withIdempotencyKey_ok hbody with ⟨hsame, -⟩ | ⟨claimId, s₃, s₄, hclaim, hwork, hfulfil⟩
  · refine Or.inl ?_
    rw [hend, hsame]
  · have hclaimed : s.db.lifecycle = s₃.db.lifecycle :=
      ((frame_claimIdempotencyKey seesData_lifecycleView (fun _ _ => rfl) _ _ _).of_exec
        hclaim).symm
    have hstep : CompletionStep envelope.payload.projectId s₃.db s₄.db :=
      Or.inr (completeProject_moved hwork)
    refine hstep.congr hclaimed ?_
    rw [hend, hfulfil]
    rfl

/-- **The loop over the attempts**: at most one of them does its work. -/
theorem completionAttempts_moved {attempt left : ℕ} {r : Except Failure CommandResult}
    (h : exec (completionAttempts visibility met envelope attempt left) s = (r, s')) :
    CompletionStep envelope.payload.projectId s.db s'.db := by
  induction left generalizing attempt s with
  | zero =>
    obtain ⟨-, rfl⟩ := Prod.mk.inj h
    exact Or.inl rfl
  | succ left ih =>
    rw [completionAttempts, exec_tryCatch] at h
    rcases hrun : exec (runCompletion visibility (met attempt) envelope) s with ⟨e | result, s₁⟩
    · -- an attempt that was rolled back leaves what others have committed
      have hundone : s.db.lifecycle = s₁.db.lifecycle := by
        rw [runCompletion_error hrun]
        rfl
      rw [hrun] at h
      dsimp only at h
      by_cases hretry : e = .serializationFailure ∧ 0 < left
      · rw [if_pos hretry] at h
        exact (ih h).congr hundone rfl
      · rw [if_neg hretry] at h
        obtain ⟨-, rfl⟩ := Prod.mk.inj h
        exact Or.inl hundone.symm
    · rw [hrun] at h
      obtain ⟨-, rfl⟩ := Prod.mk.inj h
      exact runCompletion_moved hrun

theorem markImplementationComplete_moved {r : Except Failure CommandResult}
    (h : exec (markImplementationComplete visibility met envelope) s = (r, s')) :
    CompletionStep envelope.payload.projectId s.db s'.db := by
  rcases exec_bind_cases h with ⟨e, hthrow⟩ | ⟨_, s₁, hcheck, h₁⟩
  · have hsame : lifecycleView s' = lifecycleView s := (frame_orThrow _).of_exec hthrow
    exact Or.inl hsame
  · obtain ⟨-, rfl⟩ := orThrow_ok hcheck
    exact completionAttempts_moved h₁

end Completion

/-! ### The machine -/

/-- The commands of a project that go through one transaction each. -/
inductive ProjectCommand
  | createProject
  | generateDesignDocument
  | recordDesignDocumentReady
  | requestDesignDocumentRevision
  | regenerateDesignDocument
  | approveDesignDocument
  | completeProject
  deriving DecidableEq, Repr

namespace ProjectCommand

abbrev Payload : ProjectCommand → Type
  | createProject => CreateProjectPayload
  | generateDesignDocument => GenerateDesignDocumentPayload
  | recordDesignDocumentReady => RecordDesignDocumentReadyPayload
  | requestDesignDocumentRevision => RequestDesignDocumentRevisionPayload
  | regenerateDesignDocument => RegenerateDesignDocumentPayload
  | approveDesignDocument => ApproveDesignDocumentPayload
  | completeProject => CompleteProjectPayload

def handler : (command : ProjectCommand) → CommandHandler command.Payload
  | createProject => createProjectHandler
  | generateDesignDocument => generateDesignDocumentHandler
  | recordDesignDocumentReady => recordDesignDocumentReadyHandler
  | requestDesignDocumentRevision => requestDesignDocumentRevisionHandler
  | regenerateDesignDocument => regenerateDesignDocumentHandler
  | approveDesignDocument => approveDesignDocumentHandler
  | completeProject => completeProjectHandler

def projectId : (command : ProjectCommand) → command.Payload → String
  | createProject, payload => payload.id
  | generateDesignDocument, payload => payload.projectId
  | recordDesignDocumentReady, payload => payload.projectId
  | requestDesignDocumentRevision, payload => payload.projectId
  | regenerateDesignDocument, payload => payload.projectId
  | approveDesignDocument, payload => payload.projectId
  | completeProject, payload => payload.projectId

/-- The former state that the event of a command has. -/
def recorded : ProjectCommand → Option ProjectState
  | createProject => none
  | generateDesignDocument => some .implementationComplete
  | recordDesignDocumentReady => some .designDocumentGenerating
  | requestDesignDocumentRevision => some .designDocumentReadyForReview
  | regenerateDesignDocument => some .designDocumentRevisionRequested
  | approveDesignDocument => some .designDocumentReadyForReview
  | completeProject => some .designDocumentApproved

def target : ProjectCommand → ProjectState
  | createProject => .active
  | generateDesignDocument => .designDocumentGenerating
  | recordDesignDocumentReady => .designDocumentReadyForReview
  | requestDesignDocumentRevision => .designDocumentRevisionRequested
  | regenerateDesignDocument => .designDocumentGenerating
  | approveDesignDocument => .designDocumentApproved
  | completeProject => .projectComplete

def eventType : ProjectCommand → String
  | createProject => "project.created"
  | generateDesignDocument => "project.design_document_generating"
  | recordDesignDocumentReady => "project.design_document_ready"
  | requestDesignDocumentRevision => "project.design_document_revision_requested"
  | regenerateDesignDocument => "project.design_document_regenerating"
  | approveDesignDocument => "project.design_document_approved"
  | completeProject => "project.complete"

theorem eventType_kind (command : ProjectCommand) :
    "project.".toList.isPrefixOf command.eventType.toList = true := by
  cases command <;> decide +kernel

/-- The state from which a command takes the edge of another one. -/
def borrowed : ProjectCommand → Option ProjectState
  | generateDesignDocument => some .designDocumentRevisionRequested
  | regenerateDesignDocument => some .implementationComplete
  | _ => none

end ProjectCommand

def projectCommands : CommandFamily where
  Name := ProjectCommand
  Payload := ProjectCommand.Payload
  handler := ProjectCommand.handler
  evidence_reads command _ := by
    cases command <;> exact frame_pure ()

/-- A call of `MarkImplementationCompleteCommand` by a process of its own. -/
structure CompletionCall where
  envelope : CommandEnvelope MarkImplementationCompletePayload
  runtime : Runtime
  visibility : Visibility
  met : ℕ → Interference

/-- `TransactionalCommandExecutor.execute`, of `MarkImplementationCompleteHandler`. -/
def CompletionCall.command (call : CompletionCall) : Sql CommandResult := do
  orThrow (assertRole call.envelope.actor .admin "MarkImplementationCompleteCommand" (some .system))
  let cached ← checkIdempotencyKey call.envelope.idempotencyKey "mark-implementation-complete"
  match cached with
  | some result => pure result
  | none => markImplementationComplete call.visibility call.met call.envelope

/-- What else is done to the database: it leaves the projects and their events alone. -/
structure Elsewhere where
  work : Db → Db
  projects : ∀ db, (work db).design.projects = db.design.projects
  events : ∀ db, (work db).projectEvents = db.projectEvents

inductive LifecycleStep
  | command (call : projectCommands.Call)
  | complete (call : CompletionCall)
  | elsewhere (other : Elsewhere)

namespace LifecycleStep

def next (db : Db) : LifecycleStep → Db
  | .command call => projectCommands.next db call
  | .complete call => (exec call.command (.start db call.runtime)).2.db
  | .elsewhere other => other.work db

/-- The command of a step, and who issues it. -/
def caller : LifecycleStep → Option (String × ActorIdentity)
  | .command call => some (call.command.handler.commandName, call.envelope.actor)
  | .complete call => some ("MarkImplementationCompleteCommand", call.envelope.actor)
  | .elsewhere _ => none

/-- The command is not issued for the edge of another one. -/
def Own (db : Db) : LifecycleStep → Prop
  | .command call => ∀ state, call.command.borrowed = some state →
      db.projectState (call.command.projectId call.envelope.payload) ≠ some state
  | .complete _ => True
  | .elsewhere _ => True

end LifecycleStep

/-- Whether a row of a matrix admits an actor. -/
def MatrixActor.Admits : MatrixActor → ActorIdentity → Prop
  | .role r, actor => actor.actorKind = .human ∧ meetsRole actor.role r = true
  | .system, actor => actor.actorKind = .system

/-- A change of a project: its creation, or a row of the matrix. -/
def LawfulChange (before after : Option ProjectState) (commandName : String)
    (actor : ActorIdentity) : Prop :=
  (before = none ∧ after = some .active ∧ commandName = "CreateProjectCommand" ∧
      (MatrixActor.role .operator).Admits actor) ∨
    ∃ row ∈ projectLifecycle.matrix, row.triggeringCommand = commandName ∧ row.actor.Admits actor ∧
      before = some row.fromState ∧ after = some row.toState

/-- A step left a project and its trail alone, or made a lawful change and appended it to the trail. -/
def LawfulStep (db : Db) (step : LifecycleStep) (projectId : String) : Prop :=
  ((step.next db).projectState projectId = db.projectState projectId ∧
      (step.next db).projectTrail projectId = db.projectTrail projectId) ∨
    ∃ commandName actor, step.caller = some (commandName, actor) ∧
      LawfulChange (db.projectState projectId) ((step.next db).projectState projectId) commandName
        actor ∧
      ∃ e : WorkflowEvent, e.fromState = projectStateText (db.projectState projectId) ∧
        e.toState = projectStateText ((step.next db).projectState projectId) ∧
        (step.next db).projectTrail projectId = db.projectTrail projectId ++ [e]

/-! ### One step -/

namespace ProjectCommand

variable {command : ProjectCommand} {envelope : CommandEnvelope command.Payload}
  {result : CommandResult} {s s' : Session}

/-- What a command requires of the state of its project. -/
def Requires (command : ProjectCommand) (before : Option ProjectState) : Prop :=
  (command = .createProject ∧ before = none) ∨
    (command ≠ .createProject ∧ ∃ state, before = some state ∧
      projectLifecycle.isValid state command.target = true)

/-- **A command that did its work** found what it requires, and recorded its constant. -/
theorem body_moved {ev : command.handler.Evidence}
    (h : exec (command.handler.body envelope ev) s = (.ok result, s')) :
    command.Requires (s.db.projectState (command.projectId envelope.payload)) ∧
      s.db.Moved s'.db (command.projectId envelope.payload) command.recorded command.target := by
  have hsees := seesData_lifecycleView
  have hkind := eventType_kind command
  cases command with
  | createProject =>
    obtain ⟨hnone, hmoved⟩ := createProject_moved h
    exact ⟨Or.inl ⟨rfl, hnone⟩, hmoved⟩
  | generateDesignDocument | regenerateDesignDocument =>
    obtain ⟨hstate, hmoved⟩ := moveProject_moved
      (frame_insertDesignDocument hsees (fun _ _ => rfl) (fun _ _ => rfl) _) hkind h
    exact ⟨Or.inr ⟨by decide, hstate⟩, hmoved⟩
  | recordDesignDocumentReady =>
    obtain ⟨hstate, hmoved⟩ := moveProject_moved
      (frame_bind (frame_moveDocument hsees (fun _ _ => rfl) _ _ _ _) fun _ => frame_pure _)
      hkind h
    exact ⟨Or.inr ⟨by decide, hstate⟩, hmoved⟩
  | requestDesignDocumentRevision | approveDesignDocument =>
    obtain ⟨hstate, hmoved⟩ := moveProject_moved
      (frame_bind (frame_moveDocument hsees (fun _ _ => rfl) _ _ _ _) fun _ =>
        frame_bind (frame_insertHumanApproval hsees (fun _ _ => rfl) _) fun _ => frame_pure _)
      hkind h
    exact ⟨Or.inr ⟨by decide, hstate⟩, hmoved⟩
  | completeProject =>
    obtain ⟨hstate, hmoved⟩ := moveProject_moved (frame_pure _) hkind h
    exact ⟨Or.inr ⟨by decide, hstate⟩, hmoved⟩

/-- Where a command is issued for its own edge, its constant is the state of the project. -/
theorem recorded_of_requires {before : Option ProjectState} (h : command.Requires before)
    (hown : ∀ state, command.borrowed = some state → before ≠ some state) :
    before = command.recorded := by
  rcases h with ⟨rfl, rfl⟩ | ⟨hcreate, state, rfl, hvalid⟩
  · rfl
  · have hstate : command.borrowed ≠ some state := fun hborrowed => hown state hborrowed rfl
    revert hcreate hvalid hstate
    cases command <;> cases state <;> decide

/-- The edge of a command is a row of the matrix that admits whoever may issue it. -/
theorem lawfulChange {actor : ActorIdentity}
    (hrole : assertRole actor command.handler.requiredRole command.handler.commandName
      command.handler.requiredActorKind = .ok ()) :
    LawfulChange command.recorded (some command.target) command.handler.commandName actor := by
  obtain ⟨hrank, hkinds⟩ := assertRole_ok hrole
  have hmeets : meetsRole actor.role command.handler.requiredRole = true := decide_eq_true hrank
  cases command with
  | createProject => exact Or.inl ⟨rfl, rfl, rfl, hkinds .human rfl, hmeets⟩
  | generateDesignDocument =>
    refine Or.inr ⟨⟨.implementationComplete, .designDocumentGenerating,
      "GenerateDesignDocumentCommand", .role .operator⟩, ?_, rfl, ?_, rfl, rfl⟩
    · decide
    · exact ⟨hkinds .human rfl, hmeets⟩
  | recordDesignDocumentReady =>
    refine Or.inr ⟨⟨.designDocumentGenerating, .designDocumentReadyForReview,
      "RecordDesignDocumentReadyCommand", .system⟩, ?_, rfl, ?_, rfl, rfl⟩
    · decide
    · exact hkinds .system rfl
  | requestDesignDocumentRevision =>
    refine Or.inr ⟨⟨.designDocumentReadyForReview, .designDocumentRevisionRequested,
      "RequestDesignDocumentRevisionCommand", .role .approver⟩, ?_, rfl, ?_, rfl, rfl⟩
    · decide
    · exact ⟨hkinds .human rfl, hmeets⟩
  | regenerateDesignDocument =>
    refine Or.inr ⟨⟨.designDocumentRevisionRequested, .designDocumentGenerating,
      "RegenerateDesignDocumentCommand", .role .operator⟩, ?_, rfl, ?_, rfl, rfl⟩
    · decide
    · exact ⟨hkinds .human rfl, hmeets⟩
  | approveDesignDocument =>
    refine Or.inr ⟨⟨.designDocumentReadyForReview, .designDocumentApproved,
      "ApproveDesignDocumentCommand", .role .approver⟩, ?_, rfl, ?_, rfl, rfl⟩
    · decide
    · exact ⟨hkinds .human rfl, hmeets⟩
  | completeProject =>
    refine Or.inr ⟨⟨.designDocumentApproved, .projectComplete, "CompleteProjectCommand", .system⟩,
      ?_, rfl, ?_, rfl, rfl⟩
    · decide
    · exact hkinds .system rfl

end ProjectCommand

/-- What a call of `MarkImplementationCompleteCommand` did to the tables of the lifecycle: nothing, or
its work, for a caller that may issue it. -/
theorem CompletionCall.command_moved {call : CompletionCall} {s s' : Session}
    {r : Except Failure CommandResult} (h : exec call.command s = (r, s')) :
    s'.db.lifecycle = s.db.lifecycle ∨
      call.envelope.actor.actorKind = .system ∧
        CompletionMoved call.envelope.payload.projectId s.db s'.db := by
  rcases exec_bind_cases h with ⟨e, hthrow⟩ | ⟨_, s₁, hrole, h₁⟩
  · have hsame : lifecycleView s' = lifecycleView s := (frame_orThrow _).of_exec hthrow
    exact Or.inl hsame
  · obtain ⟨hadmitted, rfl⟩ := orThrow_ok hrole
    have hcheck : Frame lifecycleView
        (checkIdempotencyKey call.envelope.idempotencyKey "mark-implementation-complete") :=
      frame_bind frame_isoNow fun _ => frame_bind (frame_query seesData_lifecycleView _) fun _ =>
        frame_pure _
    rcases exec_bind_cases h₁ with ⟨e, hthrow⟩ | ⟨cached, s₂, hlookup, h₂⟩
    · have hsame : lifecycleView s' = lifecycleView s₁ := hcheck.of_exec hthrow
      exact Or.inl hsame
    · have hstart : s₁.db.lifecycle = s₂.db.lifecycle := (hcheck.of_exec hlookup).symm
      cases cached with
      | some result =>
        obtain ⟨-, rfl⟩ := Prod.mk.inj h₂
        exact Or.inl hstart.symm
      | none =>
        rcases (markImplementationComplete_moved h₂).congr hstart rfl with hsame | hmoved
        · exact Or.inl hsame
        · exact Or.inr ⟨(assertRole_ok hadmitted).2 .system rfl, hmoved⟩

namespace LifecycleStep

variable {db : Db} {step : LifecycleStep}

/-- **What a step can do**: nothing to the projects and their events, or one lawful change of one
project. -/
theorem next_cases (hown : step.Own db) :
    ((step.next db).design.projects = db.design.projects ∧
        (step.next db).projectEvents = db.projectEvents) ∨
      ∃ commandName actor projectId state', step.caller = some (commandName, actor) ∧
        LawfulChange (db.projectState projectId) (some state') commandName actor ∧
        db.Moved (step.next db) projectId (db.projectState projectId) state' := by
  have hsame : ∀ db' : Db, db'.lifecycle = db.lifecycle →
      db'.design.projects = db.design.projects ∧ db'.projectEvents = db.projectEvents := by
    intro db' hlifecycle
    obtain ⟨hprojects, hevents⟩ := Prod.mk.inj hlifecycle
    refine ⟨hprojects, ?_⟩
    unfold Db.projectEvents
    rw [hevents]
  cases step with
  | command call =>
    rcases call with ⟨command, envelope, rt⟩
    rcases hexec : CommandFamily.Call.execute (F := projectCommands) ⟨command, envelope, rt⟩ db with
      ⟨r, s'⟩
    have hnext : LifecycleStep.next db (.command ⟨command, envelope, rt⟩) = s'.db :=
      congrArg (fun p => p.2.db) hexec
    rcases executeCommand_did (projectCommands.evidence_reads _ _) hexec with
      hquiet | ⟨hrole, -, ev, s₁, s₂, result, hstart, -, hwork, hend⟩
    · rw [hnext]
      exact Or.inl (hsame s'.db (congrArg Db.lifecycle hquiet))
    · have hlifecycle := congrArg Db.lifecycle hstart
      have hend' := congrArg Db.lifecycle hend
      have hstart' : db.lifecycle = s₁.db.lifecycle := hlifecycle.symm
      obtain ⟨hrequires, hmoved⟩ := ProjectCommand.body_moved hwork
      rw [← projectState_of_lifecycle hstart'] at hrequires
      have hrecorded := ProjectCommand.recorded_of_requires hrequires hown
      refine Or.inr ⟨command.handler.commandName, envelope.actor,
        command.projectId envelope.payload, command.target, rfl, ?_, ?_⟩
      · rw [hrecorded]
        exact ProjectCommand.lawfulChange hrole
      · rw [hnext, hrecorded]
        exact hmoved.congr hstart' hend'
  | complete call =>
    rcases hexec : exec call.command (.start db call.runtime) with ⟨r, s'⟩
    have hnext : LifecycleStep.next db (.complete call) = s'.db :=
      congrArg (fun p => p.2.db) hexec
    rw [hnext]
    rcases CompletionCall.command_moved hexec with hquiet | ⟨hsystem, ⟨state, hstate, hvalid⟩, hmoved⟩
    · exact Or.inl (hsame s'.db hquiet)
    · -- the matrix leads to the completion from one state
      have hactive : state = .active := by
        revert hvalid
        cases state <;> decide
      subst hactive
      have hstate' : db.projectState call.envelope.payload.projectId = some .active := hstate
      refine Or.inr ⟨_, _, call.envelope.payload.projectId, .implementationComplete, rfl, ?_, ?_⟩
      · rw [hstate']
        refine Or.inr ⟨⟨.active, .implementationComplete, "MarkImplementationCompleteCommand",
          .system⟩, ?_, rfl, hsystem, rfl, rfl⟩
        decide
      · rw [hstate']
        exact hmoved
  | elsewhere other => exact Or.inl ⟨other.projects db, other.events db⟩

/-- **One step is lawful** for every project. -/
theorem next_lawful (hown : step.Own db) (projectId : String) : LawfulStep db step projectId := by
  rcases next_cases hown with ⟨hprojects, hevents⟩ |
    ⟨commandName, actor, own, state', hcaller, hchange, hmoved⟩
  · refine Or.inl ⟨?_, projectTrail_of_eq hevents⟩
    unfold Db.projectState DesignTables.findProject
    rw [hprojects]
  · by_cases hid : projectId = own
    · subst hid
      obtain ⟨e, hfrom, hto, htrail⟩ := hmoved.trail
      rw [← hmoved.after] at hchange
      refine Or.inr ⟨commandName, actor, hcaller, hchange, e, hfrom, ?_, htrail⟩
      rw [hmoved.after]
      exact hto
    · exact Or.inl ⟨hmoved.others projectId hid, hmoved.trail_other hid⟩

/-- **One step keeps the trails.** -/
theorem next_traced (hdb : db.Traced) (hown : step.Own db) : (step.next db).Traced := by
  intro projectId
  rcases next_lawful hown projectId with ⟨hstate, htrail⟩ |
    ⟨commandName, actor, -, -, e, hfrom, hto, htrail⟩
  · rw [hstate, htrail]
    exact hdb projectId
  · rw [htrail, leads_concat, hfrom]
    exact ⟨hdb projectId, hto⟩

/-- **Over a run** in which no command of a generation is issued for the other one's edge, every step
changes a project only as the matrix has it, and the trail of every project leads to its state. -/
theorem lifecycle_lawful {steps : List LifecycleStep} (hdb : db.Traced)
    (hown : Along LifecycleStep.next Own db steps) :
    Throughout LifecycleStep.next Db.Traced db steps ∧
      Along LifecycleStep.next (fun db step => ∀ projectId, LawfulStep db step projectId) db steps :=
  ⟨throughout_of_step (fun _ _ htraced how => next_traced htraced how) hdb hown,
    hown.imp fun _ _ how projectId => next_lawful how projectId⟩

end LifecycleStep

/-- A call of a command of a project, under a key of its own. -/
def sampleProjectCall (command : ProjectCommand) (payload : command.Payload)
    (actorKind : ActorKind) (now : ℕ) : LifecycleStep :=
  .command ⟨command, sampleEnvelope actorKind (command.handler.commandName) payload,
    sampleRuntime now⟩

/-- A project whose document is under revision. -/
def sampleRevision : Db where
  design := { projects := .ofList [
    { id := "P", name := "Project", state := .designDocumentRevisionRequested }] }
  workflowEvents := .ofList [{
    id := "event"
    featureRunId := none
    projectId := some "P"
    eventType := "project.design_document_revision_requested"
    fromState := "none"
    toState := "design_document_revision_requested"
    actor := "actor"
    occurredAt := 0 }]

theorem traced_sampleRevision : sampleRevision.Traced := by
  intro projectId
  by_cases hid : projectId = "P"
  · subst hid
    have htrail : sampleRevision.projectTrail "P" = sampleRevision.workflowEvents.rows := by
      decide +kernel
    have hstate : sampleRevision.projectState "P" = some .designDocumentRevisionRequested := by
      decide +kernel
    rw [htrail, hstate]
    exact ⟨rfl, rfl⟩
  · have htrail : sampleRevision.projectTrail projectId = [] := by
      refine List.filter_eq_nil_iff.mpr fun e he => ?_
      have hevent : e.projectId = some "P" := by
        revert e
        decide +kernel
      rw [hevent, beq_iff_eq, Option.some.injEq]
      exact fun heq => hid heq.symm
    have hstate : sampleRevision.projectState projectId = none := by
      unfold Db.projectState
      rw [Option.map_eq_none_iff]
      refine sampleRevision.design.projects.find?_eq_none.mpr fun project hproject => ?_
      have hP : project.id = "P" := by
        revert project
        decide +kernel
      rw [hP, beq_eq_false_iff_ne]
      exact fun heq => hid heq.symm
    rw [htrail, hstate]
    rfl

/-- The document is generated afresh, and a second project is created. -/
def sampleLifecycle : List LifecycleStep := [
  sampleProjectCall .regenerateDesignDocument ⟨"P", 1⟩ .human 1,
  sampleProjectCall .createProject ⟨"Q", "Another"⟩ .human 2]

theorem lifecycle_lawful_sample :
    Throughout LifecycleStep.next Db.Traced sampleRevision sampleLifecycle ∧
      (run LifecycleStep.next sampleRevision sampleLifecycle).projectState "P" =
        some .designDocumentGenerating := by
  have hown : Along LifecycleStep.next LifecycleStep.Own sampleRevision sampleLifecycle := by
    refine ⟨?_, ?_, trivial⟩
    · intro state hborrowed
      obtain rfl := Option.some.inj hborrowed
      decide +kernel
    · intro state hborrowed
      cases hborrowed
  refine ⟨(LifecycleStep.lifecycle_lawful traced_sampleRevision hown).1, ?_⟩
  decide +kernel

/-- A generation that is issued for a document under revision is recorded as the first one. -/
example : ((sampleProjectCall .generateDesignDocument ⟨"P", 1⟩ .human 1).next
    sampleRevision).projectTrail "P" |>.map (fun e => (e.fromState, e.toState)) |> (· = [
    ("none", "design_document_revision_requested"),
    ("implementation_complete", "design_document_generating")]) := by
  decide +kernel

end MiniCoder
