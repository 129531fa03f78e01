import MiniCoder.Invariants.FixLoop
import MiniCoder.Tasks.RunReview

/-!
# The disagreements of a feature run

A review that repeats a finding opens a disagreement, and the arbiter's disposition closes it or calls
for a human; a human settles it by a command.  The disposition is written without a condition on the
state of the row: a late one opens a disagreement again that a human has settled.

* `settleDisagreement_ok`: a settlement closes one open disagreement of its own run.
* `commit_disagreements`: no other command touches the table.
* `disagreements_balance`: **over a run**, the open disagreements of a feature run are those that were
  opened or reopened, without those that were settled or closed.
* `opened_once`: a review cycle opens at most one disagreement.
-/

open Storage Storage.Action Runs

namespace MiniCoder

/-! ### Open disagreements -/

/-- The number of disagreements of a run that wait for a disposition. -/
def Db.openDisagreements (db : Db) (featureRunId : String) : ℕ :=
  db.disagreementRecords.count (Db.isOpenDisagreement featureRunId)

/-- One disagreement of a run was closed, and those of the other runs are as they were. -/
structure Db.Settled (db db' : Db) (featureRunId : String) : Prop where
  own : db'.openDisagreements featureRunId + 1 = db.openDisagreements featureRunId
  others : ∀ id, id ≠ featureRunId → db'.openDisagreements id = db.openDisagreements id
  ids : ∀ id, (∃ row ∈ db.disagreementRecords.rows, row.id = id) →
    ∃ row ∈ db'.disagreementRecords.rows, row.id = id

/-- A settlement is one between any databases with the same records. -/
theorem Db.Settled.congr {db₁ db₁' db₂ db₂' : Db} {featureRunId : String}
    (h : db₁.Settled db₁' featureRunId) (hstart : db₂.disagreementRecords = db₁.disagreementRecords)
    (hend : db₂'.disagreementRecords = db₁'.disagreementRecords) :
    db₂.Settled db₂' featureRunId := by
  constructor
  · unfold Db.openDisagreements
    rw [hstart, hend]
    exact h.own
  · unfold Db.openDisagreements
    rw [hstart, hend]
    exact h.others
  · rw [hstart, hend]
    exact h.ids

/-- An update of one row, for the open disagreements of any run. -/
theorem openDisagreements_update {db db' : Db} {disagreementId : String}
    {p : DisagreementRecord → Bool} {f : DisagreementRecord → DisagreementRecord} {hf : KeyFree f}
    {row : DisagreementRecord} (hrow : row ∈ db.disagreementRecords.rows)
    (hmatch : p row = true) (hp : ∀ r, p r = true → r.id = disagreementId)
    (hdb : db'.disagreementRecords = db.disagreementRecords.update p f hf) (featureRunId : String) :
    db'.openDisagreements featureRunId + (if Db.isOpenDisagreement featureRunId row then 1 else 0) =
      db.openDisagreements featureRunId +
        if Db.isOpenDisagreement featureRunId (f row) then 1 else 0 := by
  unfold Db.openDisagreements
  rw [hdb]
  refine Table.count_update_one hrow hmatch fun r hr hhit => ?_
  have hid : r.id = row.id := (hp r hhit).trans (hp row hmatch).symm
  exact db.disagreementRecords.eq_of_clash hr hrow (decide_eq_true hid)

/-- An update that keeps the ids keeps every record. -/
theorem ids_update {db db' : Db} {p : DisagreementRecord → Bool}
    {f : DisagreementRecord → DisagreementRecord} {hf : KeyFree f} (hid : ∀ r, (f r).id = r.id)
    (hdb : db'.disagreementRecords = db.disagreementRecords.update p f hf) (id : String)
    (h : ∃ row ∈ db.disagreementRecords.rows, row.id = id) :
    ∃ row ∈ db'.disagreementRecords.rows, row.id = id := by
  obtain ⟨row, hrow, hrowId⟩ := h
  refine ⟨Table.updateRow p f row, ?_, ?_⟩
  · rw [hdb]
    exact List.mem_map_of_mem hrow
  · unfold Table.updateRow
    by_cases hmatch : p row = true
    · rw [if_pos hmatch, hid]
      exact hrowId
    · rw [if_neg hmatch]
      exact hrowId

/-! ### What a settlement does -/

/-- The `SET` list of a human's resolution. -/
def DisagreementRecord.settled (resolution : String) (row : DisagreementRecord) :
    DisagreementRecord :=
  { row with state := .resolved, resolution := some resolution, version := row.version + 1 }

theorem DisagreementRecord.settled_keys (resolution : String) :
    KeyFree (DisagreementRecord.settled resolution) := fun _ _ => rfl

section Settlement

variable {featureRunId resolution missingTitle missingDetail correlationId : String}
  {disagreementId : Option String} {s s' : Session}

/-- **A settlement closes one open disagreement** of its own run. -/
theorem settleDisagreement_ok {id : String}
    (h : exec (settleDisagreement featureRunId disagreementId resolution missingTitle missingDetail
      correlationId) s = (.ok id, s')) : s.db.Settled s'.db featureRunId := by
  obtain ⟨found, s₁, hfind, h₁⟩ := exec_bind_ok.mp h
  have hread : s₁.db = s.db :=
    (frame_findDisagreementForFeatureRun (π := fun s : Session => s.db) (fun _ _ _ => rfl) _).of_exec
      hfind
  cases found with
  | none => cases h₁
  | some disagreement =>
    obtain ⟨resolved, s₂, hresolve, h₂⟩ := exec_bind_ok.mp h₁
    obtain ⟨hdb, -⟩ := execute_ok hresolve
    obtain ⟨hcount, hput⟩ := Prod.mk.inj (Option.some.inj hdb)
    by_cases hnone : resolved = 0
    · rw [if_pos hnone] at h₂
      cases h₂
    · rw [if_neg hnone] at h₂
      obtain ⟨-, rfl⟩ := Prod.mk.inj h₂
      rw [hread] at hcount hput
      obtain ⟨row, hrow, hmatch⟩ := Table.count_pos (by rw [hcount]; exact hnone)
      have hrecords : s₂.db.disagreementRecords = s.db.disagreementRecords.update
          (fun row => row.id == disagreement.id && Db.isOpenDisagreement featureRunId row)
          (DisagreementRecord.settled resolution) (DisagreementRecord.settled_keys resolution) :=
        (congrArg Db.disagreementRecords hput).symm
      have hid : ∀ r : DisagreementRecord,
          (r.id == disagreement.id && Db.isOpenDisagreement featureRunId r) = true →
            r.id = disagreement.id ∧ Db.isOpenDisagreement featureRunId r = true := by
        intro r hr
        rw [Bool.and_eq_true, beq_iff_eq] at hr
        exact hr
      have hopen := (hid row hmatch).2
      have hclosed : ∀ run, Db.isOpenDisagreement run (row.settled resolution) = false := by
        intro run
        unfold Db.isOpenDisagreement DisagreementRecord.settled
        simp
      have hupdate := openDisagreements_update hrow hmatch (fun r hr => (hid r hr).1) hrecords
      have hids := ids_update (f := DisagreementRecord.settled resolution) (fun _ => rfl) hrecords
      refine ⟨?_, fun other hother => ?_, hids⟩
      · have hown := hupdate featureRunId
        rw [if_pos hopen, hclosed] at hown
        exact hown
      · have hrest := hupdate other
        have hforeign : ¬ Db.isOpenDisagreement other row = true := by
          unfold Db.isOpenDisagreement at hopen ⊢
          rw [Bool.and_eq_true, beq_iff_eq] at hopen ⊢
          exact fun hrun => hother (hrun.1.symm.trans hopen.1)
        rw [if_neg hforeign, hclosed] at hrest
        exact hrest

end Settlement

/-! ### What the commands do -/

/-- The disagreement that a request settles is one of its run. -/
def Request.settles (request : Request) : Bool :=
  match request with
  | ⟨.resolveDisagreement, _⟩ => true
  | ⟨.resumeFeatureExecution, envelope⟩ => (truthy envelope.payload.disagreementId).isSome
  | _ => false

section Commands

/-- The table of the disagreements. -/
def disagreementView (s : Session) : Table DisagreementRecord := s.db.disagreementRecords

theorem seesData_disagreementView : SeesData disagreementView := fun _ _ _ => rfl

variable {request : Request} {s s' : Session}

theorem prologue_disagreements (ev : request.Evidence) :
    Frame disagreementView (request.transition ev).prologue := by
  rcases request with ⟨command, envelope⟩
  cases command
  case startCoding =>
    exact frame_bind (frame_requireExecutionLane seesData_disagreementView _ _ _) fun _ =>
      frame_assertActiveFeatureRun seesData_disagreementView _
  case startFixing | recordCodePushed | recordPrOpened | recordCiRunning =>
    exact frame_requireExecutionLane seesData_disagreementView _ _ _
  all_goals exact frame_pure _

/-- The guard of a request that settles nothing. -/
theorem guard_disagreements (hsettles : request.settles = false) (ev : request.Evidence)
    (run : FeatureRun) : Frame disagreementView ((request.transition ev).guard run) := by
  rcases request with ⟨command, envelope⟩
  cases command
  case selectFeature | unblockFeature | humanUnblockFeature =>
    exact frame_assertDependenciesMerged seesData_disagreementView _ _
  case retryFeature => exact frame_assertActiveFeatureRun seesData_disagreementView _
  case resumeFeatureExecution =>
    have hid : truthy envelope.payload.disagreementId = none := by
      rw [← Option.not_isSome_iff_eq_none]
      show ¬ (truthy envelope.payload.disagreementId).isSome = true
      rw [Bool.not_eq_true]
      exact hsettles
    show Frame disagreementView (resumeGuard envelope)
    unfold resumeGuard
    rw [hid]
    exact frame_pure _
  case resolveDisagreement => cases hsettles
  case recordChangesRequested | requestChangesAfterCiFail => exact frame_assertBelowFixThreshold run
  all_goals exact frame_pure _

theorem effects_disagreements (ev : request.Evidence) (run : FeatureRun)
    (checked : (request.transition ev).Checked) :
    Frame disagreementView ((request.transition ev).effects run checked) := by
  have hπ := seesData_disagreementView
  rcases request with ⟨command, envelope⟩
  cases command
  case selectFeature => exact frame_claimProject hπ fun _ _ => rfl
  case recordCodePushed =>
    show Frame disagreementView envelope.payload.resolve
    unfold RecordCodePushedPayload.resolve
    split
    · exact frame_pure _
    · exact frame_resolveFindings hπ (fun _ _ => rfl) (fun _ _ => rfl) _ _
  case escalateToHuman | recordCiFailed | recordChangesRequested =>
    exact frame_insertReviewFindings hπ (fun _ _ => rfl) _ _ _ _
  case retryFeature | resumeFeatureExecution | resolveDisagreement | humanUnblockFeature =>
    exact frame_recordApproval hπ (fun _ _ => rfl) _
  case blockFeature | skipFeature =>
    exact frame_bind (frame_releaseProject hπ fun _ _ => rfl) fun _ =>
      frame_recordApproval hπ (fun _ _ => rfl) _
  case recordMerged =>
    exact frame_bind (frame_mergePullRequestRow hπ (fun _ _ => rfl) _) fun _ =>
      frame_releaseProject hπ fun _ _ => rfl
  case recordPrOpened => exact frame_insertPullRequestRow hπ (fun _ _ => rfl) _
  all_goals exact frame_pure _

theorem frame_cascade_disagreements (ref : FeatureRunRef) (actorId : String) (run : FeatureRun) :
    Frame disagreementView (cascadeSkip ref actorId run) := by
  have hπ := seesData_disagreementView
  have hblock : ∀ featureRunId attempts version,
      Frame disagreementView (blockDependent featureRunId attempts version) := by
    intro featureRunId attempts
    induction attempts with
    | zero => exact fun version => frame_pure _
    | succ attempts ih =>
      intro version
      refine frame_bind (frame_execute hπ fun s n db h => ?_) fun affected =>
        frame_ite (frame_pure _) (frame_bind (frame_query hπ _) fun fresh => ?_)
      · obtain ⟨-, rfl⟩ := Prod.mk.inj (Option.some.inj h)
        rfl
      · cases fresh with
        | none => exact frame_pure _
        | some fresh => exact frame_ite (frame_pure _) (ih fresh.version)
  refine frame_bind (frame_query hπ _) fun dependents => ?_
  induction dependents with
  | nil => exact frame_pure _
  | cons dependent dependents ih =>
    exact frame_bind (frame_orThrow _) fun _ => frame_bind (hblock _ _ _) fun _ =>
      frame_ite (frame_bind (frame_bind (frame_writeWorkflowEvent hπ (fun _ _ => rfl) _) fun _ =>
        frame_bind (frame_writeOutboxEvent hπ (fun _ _ => rfl) _ _) fun _ => frame_pure _)
        fun _ => ih) ih

theorem cascade_disagreements (ev : request.Evidence) (run : FeatureRun) :
    Frame disagreementView ((request.transition ev).cascade run) := by
  rcases request with ⟨command, envelope⟩
  cases command
  case skipFeature => exact frame_cascade_disagreements _ _ run
  all_goals exact frame_pure _

/-- **A transaction settles one disagreement**, when its request does, and touches none otherwise. -/
theorem commit_disagreements {ev : request.Evidence} {r : Except Failure CommandResult}
    (h : exec (request.commit ev) s = (r, s')) :
    s'.db.disagreementRecords = s.db.disagreementRecords ∨
      (request.settles = true ∧ s.db.Settled s'.db request.ref.featureRunId) := by
  cases r with
  | error e =>
    have hsame : s'.db = s.db := Request.commit_error h
    exact Or.inl (by rw [hsame])
  | ok result =>
    rcases Request.commit_worked h with hsame | ⟨s₁, s₂, keys, hs₁, -, hwork, hs'⟩
    · exact Or.inl (by rw [hsame])
    · have hstart : s₁.db.disagreementRecords = s.db.disagreementRecords := by rw [hs₁]
      have hend : s'.db.disagreementRecords = s₂.db.disagreementRecords := by rw [hs']
      obtain ⟨run, checked, s₃, s₄, hbefore, hguard, hafter⟩ :=
        runTransition_guard (g := Db.disagreementRecords) (fun _ _ => rfl) (fun _ _ => rfl)
          (fun _ _ => rfl) (prologue_disagreements ev) (effects_disagreements ev)
          (cascade_disagreements ev) hwork
      by_cases hsettles : request.settles = true
      · have hsettled : s₃.db.Settled s₄.db request.ref.featureRunId := by
          rcases request with ⟨command, envelope⟩
          cases command
          case resolveDisagreement => exact settleDisagreement_ok hguard
          case resumeFeatureExecution =>
            have hresume : exec (resumeGuard envelope) s₃ = (.ok checked, s₄) := hguard
            unfold resumeGuard at hresume
            cases hid : truthy envelope.payload.disagreementId with
            | none =>
              have hsome : (truthy envelope.payload.disagreementId).isSome = true := hsettles
              rw [hid] at hsome
              cases hsome
            | some id =>
              simp only [hid] at hresume
              obtain ⟨_, s₅, hsettle, hpure⟩ := exec_bind_ok.mp hresume
              obtain ⟨-, rfl⟩ := Prod.mk.inj hpure
              exact settleDisagreement_ok hsettle
          all_goals cases hsettles
        exact Or.inr ⟨hsettles, hsettled.congr (hstart.symm.trans hbefore.symm)
          (hend.trans hafter)⟩
      · have hkept : s₄.db.disagreementRecords = s₃.db.disagreementRecords :=
          (guard_disagreements (eq_false_of_ne_true hsettles) ev run).of_exec hguard
        exact Or.inl (by rw [hend, hafter, hkept, hbefore, hstart])

end Commands

/-! ### The machine -/

/-- A step of the system, or one of the two statements of a review that write the table. -/
inductive DisagreementEvent
  | system (e : SystemEvent)
  | opens (featureRunId findingId : String) (reviewCycle : ℕ) (rt : Runtime)
  | disposes (disagreementId arbiterRunId notes : String) (resolution : ArbiterResolution)
      (rt : Runtime)

/-- The state that a resolution of the arbiter leaves a disagreement in. -/
def ArbiterResolution.state (resolution : ArbiterResolution) : DisagreementState :=
  if resolution = .escalateToHuman then .escalated else .resolved

/-- What a step did to the disagreements of a run. -/
inductive DisagreementEntry
  | opened (featureRunId : String) (reviewCycle : ℕ)
  | reopened (featureRunId : String)
  | settled (featureRunId : String)
  | closed (featureRunId : String)
  deriving DecidableEq, Repr

namespace DisagreementEvent

def next (db : Db) : DisagreementEvent → Db
  | .system e => SystemEvent.next db e
  | .opens featureRunId findingId reviewCycle rt =>
    (exec (insertDisagreementRecord featureRunId findingId reviewCycle) (.start db rt)).2.db
  | .disposes disagreementId arbiterRunId notes resolution rt =>
    (exec (recordArbiterDisposition disagreementId arbiterRunId notes resolution.state)
      (.start db rt)).2.db

/-- Whether a step writes the table. -/
def writes (db : Db) (e : DisagreementEvent) : Bool :=
  decide ((next db e).disagreementRecords.rows ≠ db.disagreementRecords.rows)

/-- A disposition of a row: it closes an open one, or opens a resolved one again. -/
def outcome (resolution : ArbiterResolution) (row : DisagreementRecord) :
    Option DisagreementEntry :=
  if Db.isOpenDisagreement row.featureRunId row then
    if resolution = .escalateToHuman then none else some (.closed row.featureRunId)
  else
    if resolution = .escalateToHuman then some (.reopened row.featureRunId) else none

def entry (db : Db) (e : DisagreementEvent) : Option DisagreementEntry :=
  if writes db e then
    match e with
    | .system (.commit request _ _) => some (.settled request.ref.featureRunId)
    | .system _ => none
    | .opens featureRunId _ reviewCycle _ => some (.opened featureRunId reviewCycle)
    | .disposes disagreementId _ _ resolution _ =>
      (db.disagreementRecords.find? fun row => row.id == disagreementId).bind
        (outcome resolution)
  else none

/-- What else runs in the system leaves the table alone. -/
def Keeps (db : Db) : DisagreementEvent → Prop
  | .system (.other db') => db'.disagreementRecords = db.disagreementRecords
  | _ => True

end DisagreementEvent

namespace DisagreementEntry

def raises (featureRunId : String) : DisagreementEntry → Bool
  | .opened run _ => run == featureRunId
  | .reopened run => run == featureRunId
  | .settled _ => false
  | .closed _ => false

def lowers (featureRunId : String) : DisagreementEntry → Bool
  | .opened _ _ => false
  | .reopened _ => false
  | .settled run => run == featureRunId
  | .closed run => run == featureRunId

/-- The review cycle of a run that an entry opens a disagreement for. -/
def cycle? (featureRunId : String) : DisagreementEntry → Option ℕ
  | .opened run reviewCycle => if run = featureRunId then some reviewCycle else none
  | _ => none

end DisagreementEntry

/-- A record of this id is in the table. -/
def Db.hasDisagreement (db : Db) (id : String) : Prop :=
  ∃ row ∈ db.disagreementRecords.rows, row.id = id

/-! ### One step -/

section Steps

open DisagreementEvent

variable {db : Db} {e : DisagreementEvent}

/-- What one step does to the open disagreements of a run and to the ids. -/
structure Db.Accounted (db db' : Db) (entry : Option DisagreementEntry) : Prop where
  balance : ∀ featureRunId,
    db'.openDisagreements featureRunId + entry.toList.countP (DisagreementEntry.lowers featureRunId) =
      db.openDisagreements featureRunId + entry.toList.countP (DisagreementEntry.raises featureRunId)
  ids : ∀ id, db.hasDisagreement id → db'.hasDisagreement id
  opened : ∀ featureRunId reviewCycle, entry = some (.opened featureRunId reviewCycle) →
    ¬ db.hasDisagreement (disagreementRecordId featureRunId reviewCycle) ∧
      db'.hasDisagreement (disagreementRecordId featureRunId reviewCycle)

theorem accounted_of_eq (h : (next db e).disagreementRecords = db.disagreementRecords) :
    db.Accounted (next db e) (entry db e) := by
  have hquiet : entry db e = none := by
    have hwrites : writes db e = false := by
      unfold writes
      rw [h]
      exact decide_eq_false fun hne => hne rfl
    unfold entry
    rw [hwrites]
    rfl
  rw [hquiet]
  refine ⟨fun featureRunId => ?_, fun id hid => ?_, fun _ _ hnone => ?_⟩
  · unfold Db.openDisagreements
    rw [h]
    rfl
  · unfold Db.hasDisagreement
    rw [h]
    exact hid
  · cases hnone

/-- The transaction of a command. -/
theorem accounted_commit (request : Request) (ev : request.Evidence) (rt : Runtime) :
    db.Accounted (next db (.system (.commit request ev rt)))
      (entry db (.system (.commit request ev rt))) := by
  rcases hexec : exec (request.commit ev) (.start db rt) with ⟨r, s'⟩
  have hnext : next db (.system (.commit request ev rt)) = s'.db := congrArg (fun p => p.2.db) hexec
  rcases commit_disagreements hexec with hsame | ⟨-, hsettled⟩
  · exact accounted_of_eq (by rw [hnext]; exact hsame)
  · have hsettled' : db.Settled (next db (.system (.commit request ev rt)))
        request.ref.featureRunId := by
      rw [hnext]
      exact hsettled
    have hown := hsettled'.own
    have hwrites : writes db (.system (.commit request ev rt)) = true := by
      refine decide_eq_true fun hrows => ?_
      unfold Db.openDisagreements Table.count at hown
      rw [hrows] at hown
      omega
    have hentry : entry db (.system (.commit request ev rt)) =
        some (.settled request.ref.featureRunId) := by
      unfold entry
      rw [if_pos hwrites]
    rw [hentry]
    refine ⟨fun featureRunId => ?_, hsettled'.ids, fun _ _ hopened => ?_⟩
    · by_cases hrun : request.ref.featureRunId = featureRunId
      · subst hrun
        simp only [Option.toList_some, List.countP_cons, List.countP_nil, DisagreementEntry.lowers,
          DisagreementEntry.raises, beq_self_eq_true, if_true, Bool.false_eq_true, if_false]
        omega
      · have hsame := hsettled'.others featureRunId fun heq => hrun heq.symm
        simp [DisagreementEntry.lowers, DisagreementEntry.raises, hrun, hsame]
    · cases hopened

/-- The insertion of a review. -/
theorem accounted_opens (featureRunId findingId : String) (reviewCycle : ℕ) (rt : Runtime) :
    db.Accounted (next db (.opens featureRunId findingId reviewCycle rt))
      (entry db (.opens featureRunId findingId reviewCycle rt)) := by
  let row : DisagreementRecord := {
    id := disagreementRecordId featureRunId reviewCycle
    featureRunId
    findingId := some findingId
    reviewCycle }
  have hstatement : ∀ {r : Except Failure Unit} {s' : Session},
      exec (execute fun db => db.insertDisagreement row) (.start db rt) = (r, s') →
        s'.db.disagreementRecords = db.disagreementRecords ∨
          db.disagreementRecords.insert? row = some s'.db.disagreementRecords := by
    intro r s' hexec
    rcases execute_cases hexec with hsame | ⟨u, hinsert⟩
    · exact Or.inl (congrArg Db.disagreementRecords hsame)
    · have hdb : db.insertDisagreement row = some (u, s'.db) := hinsert
      unfold Db.insertDisagreement at hdb
      cases htable : db.disagreementRecords.insert? row with
      | none =>
        rw [htable] at hdb
        rw [← (Prod.mk.inj (Option.some.inj hdb)).2]
        exact Or.inl rfl
      | some t =>
        rw [htable] at hdb
        rw [← (Prod.mk.inj (Option.some.inj hdb)).2]
        exact Or.inr rfl
  have hcases : (next db (.opens featureRunId findingId reviewCycle rt)).disagreementRecords =
        db.disagreementRecords ∨
      db.disagreementRecords.insert? row =
        some (next db (.opens featureRunId findingId reviewCycle rt)).disagreementRecords := by
    rcases hexec : exec (insertDisagreementRecord featureRunId findingId reviewCycle)
      (.start db rt) with ⟨r, s'⟩
    have hnext : next db (.opens featureRunId findingId reviewCycle rt) = s'.db :=
      congrArg (fun p => p.2.db) hexec
    rw [hnext]
    rcases exec_bind_cases hexec with ⟨e, hthrow⟩ | ⟨u, s₁, hinsert, hpure⟩
    · exact hstatement hthrow
    · obtain ⟨-, rfl⟩ := Prod.mk.inj hpure
      exact hstatement hinsert
  rcases hcases with hsame | hinsert
  · exact accounted_of_eq hsame
  · have hrows := Table.rows_insert? hinsert
    have hwrites : writes db (.opens featureRunId findingId reviewCycle rt) = true := by
      refine decide_eq_true fun hsame => ?_
      have hlength := congrArg List.length (hrows.symm.trans hsame)
      rw [List.length_append, List.length_singleton] at hlength
      omega
    have hentry : entry db (.opens featureRunId findingId reviewCycle rt) =
        some (.opened featureRunId reviewCycle) := by
      unfold entry
      rw [if_pos hwrites]
    rw [hentry]
    refine ⟨fun run => ?_, fun id ⟨old, hold, hid⟩ => ?_, fun run cycle hopened => ?_⟩
    · have hcount : (next db (.opens featureRunId findingId reviewCycle rt)).openDisagreements run =
          db.openDisagreements run + if Db.isOpenDisagreement run row then 1 else 0 := by
        unfold Db.openDisagreements Table.count
        rw [hrows, List.countP_append, List.countP_singleton]
      have hopen : Db.isOpenDisagreement run row = (featureRunId == run) := by
        unfold Db.isOpenDisagreement
        simp [row]
      rw [hcount, hopen]
      simp [DisagreementEntry.lowers, DisagreementEntry.raises]
    · refine ⟨old, ?_, hid⟩
      rw [hrows]
      exact List.mem_append_left _ hold
    · obtain ⟨rfl, rfl⟩ := DisagreementEntry.opened.inj (Option.some.inj hopened)
      constructor
      · rintro ⟨old, hold, hid⟩
        have hclash := Table.clash_of_insert? hinsert old hold
        exact absurd hid (of_decide_eq_false hclash)
      · refine ⟨row, ?_, rfl⟩
        rw [hrows]
        exact List.mem_append_right _ List.mem_cons_self

theorem disposed_keys (arbiterRunId notes : String) (state : DisagreementState) :
    KeyFree (Db.disposed arbiterRunId notes state) := fun _ _ => rfl

/-- A row is open for its own run only. -/
theorem isOpenDisagreement_own {run : String} {row : DisagreementRecord} :
    Db.isOpenDisagreement run row =
      (row.featureRunId == run && Db.isOpenDisagreement row.featureRunId row) := by
  unfold Db.isOpenDisagreement
  rw [beq_self_eq_true, Bool.true_and]

/-- A disposition leaves a row open if and only if it calls for a human. -/
theorem isOpenDisagreement_disposed {run arbiterRunId notes : String}
    {resolution : ArbiterResolution} {row : DisagreementRecord} :
    Db.isOpenDisagreement run (Db.disposed arbiterRunId notes resolution.state row) =
      (row.featureRunId == run && decide (resolution = .escalateToHuman)) := by
  unfold Db.isOpenDisagreement Db.disposed ArbiterResolution.state
  cases resolution <;> simp

/-- The disposition of the arbiter. -/
theorem accounted_disposes (disagreementId arbiterRunId notes : String)
    (resolution : ArbiterResolution) (rt : Runtime) :
    db.Accounted (next db (.disposes disagreementId arbiterRunId notes resolution rt))
      (entry db (.disposes disagreementId arbiterRunId notes resolution rt)) := by
  rcases hexec : exec (recordArbiterDisposition disagreementId arbiterRunId notes resolution.state)
    (.start db rt) with ⟨r, s'⟩
  have hnext : next db (.disposes disagreementId arbiterRunId notes resolution rt) = s'.db :=
    congrArg (fun p => p.2.db) hexec
  rcases execute_cases hexec with hsame | ⟨u, hupdate⟩
  · have hkept : s'.db.disagreementRecords = db.disagreementRecords :=
      congrArg Db.disagreementRecords hsame
    exact accounted_of_eq (by rw [hnext]; exact hkept)
  · have hrecords : (next db (.disposes disagreementId arbiterRunId notes resolution
        rt)).disagreementRecords = db.disagreementRecords.update (fun row => row.id == disagreementId)
          (Db.disposed arbiterRunId notes resolution.state) (disposed_keys _ _ _) := by
      rw [hnext, ← (Prod.mk.inj (Option.some.inj hupdate)).2]
      rfl
    cases hfind : db.disagreementRecords.find? fun row => row.id == disagreementId with
    | none =>
      -- no row has the id
      have hmiss := db.disagreementRecords.find?_eq_none.mp hfind
      exact accounted_of_eq (hrecords.trans
        (Table.update_eq_self (disposed_keys _ _ _) (Table.count_eq_zero.mpr hmiss)))
    | some row =>
      have hrow := db.disagreementRecords.mem_of_find? hfind
      have hmatch : (row.id == disagreementId) = true := db.disagreementRecords.prop_of_find? hfind
      have hcount := openDisagreements_update hrow hmatch (fun r hr => beq_iff_eq.mp hr) hrecords
      have hwrites : writes db (.disposes disagreementId arbiterRunId notes resolution rt) = true := by
        refine decide_eq_true fun hsame => ?_
        -- the version of the row has grown
        have hnew : Db.disposed arbiterRunId notes resolution.state row ∈
            db.disagreementRecords.rows := by
          rw [← hsame, hrecords]
          exact List.mem_map.mpr ⟨row, hrow, Table.updateRow_of_pos hmatch⟩
        have heq : Db.disposed arbiterRunId notes resolution.state row = row :=
          db.disagreementRecords.eq_of_clash hnew hrow (decide_eq_true rfl)
        have hversion := congrArg DisagreementRecord.version heq
        exact Nat.succ_ne_self row.version hversion
      have hentry : entry db (.disposes disagreementId arbiterRunId notes resolution rt) =
          outcome resolution row := by
        unfold entry
        rw [if_pos hwrites]
        show (db.disagreementRecords.find? _).bind (outcome resolution) = _
        rw [hfind]
        rfl
      rw [hentry]
      refine ⟨fun run => ?_, ids_update (f := Db.disposed arbiterRunId notes resolution.state)
        (fun _ => rfl) hrecords, fun run cycle hopened => ?_⟩
      · have hrun := hcount run
        rw [isOpenDisagreement_own, isOpenDisagreement_disposed] at hrun
        unfold outcome
        by_cases hopen : Db.isOpenDisagreement row.featureRunId row = true
        · rw [hopen, Bool.and_true] at hrun
          rw [if_pos hopen]
          by_cases hhuman : resolution = .escalateToHuman
          · rw [decide_eq_true hhuman, Bool.and_true] at hrun
            rw [if_pos hhuman]
            simpa using hrun
          · rw [decide_eq_false hhuman, Bool.and_false] at hrun
            rw [if_neg hhuman]
            simpa [DisagreementEntry.lowers, DisagreementEntry.raises, List.countP_singleton]
              using hrun
        · rw [Bool.not_eq_true] at hopen
          rw [hopen, Bool.and_false] at hrun
          rw [if_neg (by rw [hopen]; exact Bool.false_ne_true)]
          by_cases hhuman : resolution = .escalateToHuman
          · rw [decide_eq_true hhuman, Bool.and_true] at hrun
            rw [if_pos hhuman]
            simpa [DisagreementEntry.lowers, DisagreementEntry.raises, List.countP_singleton]
              using hrun
          · rw [decide_eq_false hhuman, Bool.and_false] at hrun
            rw [if_neg hhuman]
            simpa using hrun
      · unfold outcome at hopened
        split_ifs at hopened
        · cases hopened
        · cases hopened

/-- **One step** changes the open disagreements of a run by what its entry says. -/
theorem accounted_next (hkeeps : Keeps db e) : db.Accounted (next db e) (entry db e) := by
  cases e with
  | opens featureRunId findingId reviewCycle rt => exact accounted_opens _ _ _ _
  | disposes disagreementId arbiterRunId notes resolution rt => exact accounted_disposes _ _ _ _ _
  | system e =>
    cases e with
    | lock e =>
      have hrest := congrArg (fun db => db.disagreementRecords) (LockEvent.next_withoutLocks db e)
      exact accounted_of_eq hrest
    | gather request rt =>
      have hrest := congrArg (fun db => db.disagreementRecords) (SystemEvent.next_gather db request rt)
      exact accounted_of_eq hrest
    | commit request ev rt => exact accounted_commit request ev rt
    | other db' => exact accounted_of_eq hkeeps

end Steps

/-! ### Runs -/

section Runs

open DisagreementEvent

variable {db : Db} {es : List DisagreementEvent}

/-- The entries of a run. -/
abbrev disagreementEntries (db : Db) (es : List DisagreementEvent) : List DisagreementEntry :=
  outputs next entry db es

/-- The review cycles of a run that a disagreement was opened for. -/
def openedCycles (featureRunId : String) (entries : List DisagreementEntry) : List ℕ :=
  entries.filterMap (DisagreementEntry.cycle? featureRunId)

/-- A review cycle opens at most one disagreement, and none that is already recorded. -/
theorem opened_once (hkeeps : Along next Keeps db es) (featureRunId : String) (reviewCycle : ℕ) :
    (disagreementEntries db es).count (.opened featureRunId reviewCycle) ≤ 1 ∧
      (db.hasDisagreement (disagreementRecordId featureRunId reviewCycle) →
        (disagreementEntries db es).count (.opened featureRunId reviewCycle) = 0) := by
  induction es generalizing db with
  | nil => exact ⟨Nat.zero_le 1, fun _ => rfl⟩
  | cons e es ih =>
    obtain ⟨hrest, hgone⟩ := ih hkeeps.2
    have hstep := accounted_next hkeeps.1
    rw [disagreementEntries, outputs_cons, List.count_append]
    by_cases hopened : entry db e = some (.opened featureRunId reviewCycle)
    · obtain ⟨hnew, hthere⟩ := hstep.opened _ _ hopened
      have hlater : (outputs next entry (next db e) es).count (.opened featureRunId reviewCycle) = 0 :=
        hgone hthere
      rw [hopened, Option.toList_some, List.count_singleton_self]
      exact ⟨by omega, fun hrecorded => absurd hrecorded hnew⟩
    · have hsilent : (entry db e).toList.count (.opened featureRunId reviewCycle) = 0 := by
        rw [List.count_eq_zero, Option.mem_toList]
        exact hopened
      rw [hsilent, Nat.zero_add]
      exact ⟨hrest, fun hrecorded => hgone (hstep.ids _ hrecorded)⟩

/-- What raises the number of the open disagreements. -/
theorem countP_raises (featureRunId : String) (entries : List DisagreementEntry) :
    entries.countP (DisagreementEntry.raises featureRunId) =
      (openedCycles featureRunId entries).length + entries.count (.reopened featureRunId) := by
  induction entries with
  | nil => rfl
  | cons x entries ih =>
    unfold openedCycles at ih ⊢
    rw [List.countP_cons, List.count_cons, List.filterMap_cons, ih]
    cases x with
    | opened run cycle =>
      by_cases hrun : run = featureRunId
      · simp [DisagreementEntry.raises, DisagreementEntry.cycle?, hrun]
        omega
      · simp [DisagreementEntry.raises, DisagreementEntry.cycle?, hrun]
    | reopened run =>
      by_cases hrun : run = featureRunId
      · simp [DisagreementEntry.raises, DisagreementEntry.cycle?, hrun]
        omega
      · simp [DisagreementEntry.raises, DisagreementEntry.cycle?, hrun]
    | settled run | closed run => simp [DisagreementEntry.raises, DisagreementEntry.cycle?]

/-- What lowers it. -/
theorem countP_lowers (featureRunId : String) (entries : List DisagreementEntry) :
    entries.countP (DisagreementEntry.lowers featureRunId) =
      entries.count (.settled featureRunId) + entries.count (.closed featureRunId) := by
  induction entries with
  | nil => rfl
  | cons x entries ih =>
    rw [List.countP_cons, List.count_cons, List.count_cons, ih]
    cases x with
    | opened run cycle | reopened run => simp [DisagreementEntry.lowers]
    | settled run | closed run =>
      by_cases hrun : run = featureRunId
      · simp [DisagreementEntry.lowers, hrun]
        omega
      · simp [DisagreementEntry.lowers, hrun]

theorem count_openedCycles (featureRunId : String) (reviewCycle : ℕ)
    (entries : List DisagreementEntry) :
    (openedCycles featureRunId entries).count reviewCycle =
      entries.count (.opened featureRunId reviewCycle) := by
  induction entries with
  | nil => rfl
  | cons x entries ih =>
    unfold openedCycles at ih ⊢
    rw [List.count_cons, List.filterMap_cons, ← ih]
    cases x with
    | opened run cycle =>
      by_cases hrun : run = featureRunId
      · simp [DisagreementEntry.cycle?, hrun, List.count_cons]
      · simp [DisagreementEntry.cycle?, hrun]
    | reopened run | settled run | closed run => simp [DisagreementEntry.cycle?]

/-- The cycles for which disagreements were opened are distinct. -/
theorem nodup_openedCycles (hkeeps : Along next Keeps db es) (featureRunId : String) :
    (openedCycles featureRunId (disagreementEntries db es)).Nodup := by
  rw [List.nodup_iff_count_le_one]
  intro reviewCycle
  rw [count_openedCycles]
  exact (opened_once hkeeps featureRunId reviewCycle).1

/-- **Over a run** of the commands and the reviews, in any order: the disagreements that humans settled
and the arbiter closed, with those that are open in the end, are those that were open at first, one for
each of some review cycles, and those that were reopened. -/
theorem disagreements_balance (hkeeps : Along next Keeps db es) (featureRunId : String) :
    (run next db es).openDisagreements featureRunId +
        ((disagreementEntries db es).count (.settled featureRunId) +
          (disagreementEntries db es).count (.closed featureRunId)) =
      db.openDisagreements featureRunId +
        ((openedCycles featureRunId (disagreementEntries db es)).length +
          (disagreementEntries db es).count (.reopened featureRunId)) ∧
    (openedCycles featureRunId (disagreementEntries db es)).Nodup := by
  have hbalance := balance_run (fun db => db.openDisagreements featureRunId)
    (fun db e he => (accounted_next he).balance featureRunId) hkeeps
  rw [countP_raises, countP_lowers] at hbalance
  exact ⟨hbalance, nodup_openedCycles hkeeps featureRunId⟩

/-- A review opens a disagreement, a human settles it, and then the arbiter calls for a human. -/
def lateDisposition : List DisagreementEvent :=
  (underReviewHistory.map system ++ [opens "run-1" "finding" 2 (sampleRuntime 7)]) ++
    ((escalatedAndResolved 7).map system ++
      [disposes "disagreement:run-1:2" "arbiter" "unclear" .escalateToHuman (sampleRuntime 9)])

example : disagreementEntries sampleDb lateDisposition =
    [.opened "run-1" 2, .settled "run-1", .reopened "run-1"] := by
  decide +kernel

theorem disagreements_balance_late :
    (run next sampleDb lateDisposition).openDisagreements "run-1" +
        ((disagreementEntries sampleDb lateDisposition).count (.settled "run-1") +
          (disagreementEntries sampleDb lateDisposition).count (.closed "run-1")) =
      sampleDb.openDisagreements "run-1" +
        ((openedCycles "run-1" (disagreementEntries sampleDb lateDisposition)).length +
          (disagreementEntries sampleDb lateDisposition).count (.reopened "run-1")) ∧
    (openedCycles "run-1" (disagreementEntries sampleDb lateDisposition)).Nodup := by
  have hkeeps : Along next Keeps sampleDb lateDisposition :=
    ⟨trivial, trivial, trivial, trivial, trivial, trivial, trivial, trivial, trivial, trivial,
      trivial, trivial⟩
  exact disagreements_balance hkeeps "run-1"

end Runs

end MiniCoder
