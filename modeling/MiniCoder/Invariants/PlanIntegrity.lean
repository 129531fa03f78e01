import MiniCoder.Commands.Handlers.Plan
import MiniCoder.System

/-!
# What holds of a plan that has left `draft`

The machine of the six planning commands, and of the dry run of an import: an event is a call of one
of them by any actor, for any plan, with any payload.

* `effect_of_did`: what a call that did its work found and wrote, in four cases.
* `PlanInvariant`: a plan that has left `draft` is validated at its backlog version, an activated one
  has one first run for each executable feature, and no request has two; `plan_step`: each effect
  keeps it, unless it changes or faults the backlog of a plan that has left `draft`.
* `plan_activation_integrity`: **the invariant in every run without such a call**.
-/

open Storage Storage.Action Runs

namespace MiniCoder

/-! ### The machine -/

/-- The commands of a plan. -/
inductive PlanningCommand
  | generateFeatureBacklog
  | importBacklog
  | validateBacklog
  | submitPlanForApproval
  | approvePlan
  | activatePlan
  deriving DecidableEq, Repr

namespace PlanningCommand

/-- The payload of a command. -/
abbrev Payload : PlanningCommand → Type
  | generateFeatureBacklog => GenerateFeatureBacklogPayload
  | importBacklog => ImportBacklogPayload
  | validateBacklog => ValidateBacklogPayload
  | submitPlanForApproval => SubmitPlanForApprovalPayload
  | approvePlan => ApprovePlanPayload
  | activatePlan => ActivatePlanPayload

/-- The handler that the registry maps a command to. -/
def handler : (command : PlanningCommand) → CommandHandler command.Payload
  | generateFeatureBacklog => generateFeatureBacklogHandler
  | importBacklog => importBacklogHandler
  | validateBacklog => validateBacklogHandler
  | submitPlanForApproval => submitPlanForApprovalHandler
  | approvePlan => approvePlanHandler
  | activatePlan => activatePlanHandler

/-- The change of a backlog that a command is to make. -/
def write : (command : PlanningCommand) → CommandEnvelope command.Payload → Option BacklogWrite
  | generateFeatureBacklog, envelope => some (generationWrite envelope)
  | importBacklog, envelope => some (importWrite envelope)
  | validateBacklog, _ => none
  | submitPlanForApproval, _ => none
  | approvePlan, _ => none
  | activatePlan, _ => none

/-- The backlog that a command is to validate. -/
def examined : (command : PlanningCommand) → command.Payload → Option ValidateBacklogPayload
  | generateFeatureBacklog, _ => none
  | importBacklog, _ => none
  | validateBacklog, payload => some payload
  | submitPlanForApproval, _ => none
  | approvePlan, _ => none
  | activatePlan, _ => none

end PlanningCommand

/-- The handlers of a plan. -/
def planningCommands : CommandFamily where
  Name := PlanningCommand
  Payload := PlanningCommand.Payload
  handler := PlanningCommand.handler
  evidence_reads command envelope := by
    cases command with
    | importBacklog => exact frame_checkImport (fun _ _ _ => rfl) envelope
    | _ => exact frame_pure ()

/-- A call of a planning command. -/
abbrev PlanningCall := planningCommands.Call

namespace PlanningCall

/-- The change of a backlog that a call is to make. -/
def write (call : PlanningCall) : Option BacklogWrite :=
  PlanningCommand.write call.command call.envelope

/-- The backlog that a call is to validate. -/
def examined (call : PlanningCall) : Option ValidateBacklogPayload :=
  PlanningCommand.examined call.command call.envelope.payload

end PlanningCall

/-- A call of a planning command, or the dry run of an import. -/
inductive PlanningEvent
  | command (call : PlanningCall)
  | preview (envelope : CommandEnvelope ImportBacklogPayload) (runtime : Runtime)

/-- The database after an event. -/
def planningNext (db : Db) : PlanningEvent → Db
  | .command call => planningCommands.next db call
  | .preview envelope runtime => (exec (previewBacklog envelope) (.start db runtime)).2.db

theorem planningNext_preview (db : Db) (envelope : CommandEnvelope ImportBacklogPayload)
    (runtime : Runtime) : planningNext db (.preview envelope runtime) = db :=
  frame_previewBacklog (π := fun s => s.db) (fun _ _ _ => rfl) envelope (.start db runtime)

/-! ### What a call did -/

/-- The row of a plan is rewritten, and no other plan's. -/
structure Db.PlanLeft (db db' : Db) (plan : ImplementationPlan)
    (f : ImplementationPlan → ImplementationPlan) : Prop where
  found : plan ∈ db.planning.implementationPlans.rows
  rows : ∀ x, x ∈ db'.planning.implementationPlans.rows ↔
    x = f plan ∨ (x ∈ db.planning.implementationPlans.rows ∧ x ≠ plan)

/-- What a call that did its work found and wrote in the tables of the plan. -/
inductive PlanningEffect (write : Option BacklogWrite) (examined : Option ValidateBacklogPayload)
    (db db' : Db) : Prop
  /-- The backlog of a plan has new features, and no validation. -/
  | rewritten (w : BacklogWrite) (plan : ImplementationPlan) (fresh : List FeatureRequest)
      (new : List FeatureDependency)
      (call : write = some w)
      (isPlan : plan.id = w.planId ∧ plan.projectId = w.projectId)
      (known : ∀ feature ∈ w.features, ∀ target ∈ feature.dependsOnFrIds,
        target ∈ w.features.map FeatureInput.frId)
      (left : db.PlanLeft db' plan ImplementationPlan.rebacklogged)
      (inserted : List.Forall₂ (fun row feature =>
        ∃ id now, row = feature.row w.planId w.projectId id now) fresh w.features)
      (requests : db'.featureRequests.rows = db.featureRequests.rows ++ fresh)
      (dependencies : db'.featureDependencies.rows = db.featureDependencies.rows ++ new)
      (sources : ∀ dep ∈ new, ∃ row ∈ fresh, row.id = dep.sourceFrId)
      (runs : db'.featureRuns = db.featureRuns)
  /-- The problems of a backlog were recorded, on the plan's row if there is one. -/
  | validated (payload : ValidateBacklogPayload) (now : ℤ)
      (call : examined = some payload)
      (nonempty : db.backlogFeatures payload.planId payload.projectId ≠ [])
      (left : db'.planning.implementationPlans = db.planning.implementationPlans ∨
        ∃ plan, plan.id = payload.planId ∧ db.PlanLeft db' plan (ImplementationPlan.validated
          (.ofProblems (db.problemsOf payload.planId payload.projectId)) now))
      (requests : db'.featureRequests = db.featureRequests)
      (dependencies : db'.featureDependencies = db.featureDependencies)
      (runs : db'.featureRuns = db.featureRuns)
  /-- A plan was submitted or approved. -/
  | moved (plan : ImplementationPlan) (toState : PlanState)
      (state : plan.state = .draft ∧ toState = .pendingApproval ∧ plan.backlogValidated ∨
        plan.state = .pendingApproval ∧ toState = .approved)
      (left : db.PlanLeft db' plan (ImplementationPlan.moved toState (nextVersion plan.version)))
      (requests : db'.featureRequests = db.featureRequests)
      (dependencies : db'.featureDependencies = db.featureDependencies)
      (runs : db'.featureRuns = db.featureRuns)
  /-- A plan was activated: its executable features have first runs. -/
  | activated (plan : ImplementationPlan)
      (state : plan.state = .approved)
      (left : db.PlanLeft db' plan
        (ImplementationPlan.moved .activatedForExecution (nextVersion plan.version)))
      (requests : db'.featureRequests = db.featureRequests)
      (dependencies : db'.featureDependencies = db.featureDependencies)
      (kept : ∀ run ∈ db.featureRuns.rows, run ∈ db'.featureRuns.rows)
      (fresh : ∀ run ∈ db'.featureRuns.rows, run ∈ db.featureRuns.rows ∨
        run.currentExecutionState = .approvedPendingExecution ∧
          ∃ feature ∈ db.executableFeatures plan.id, feature.id = run.featureRequestId)
      (runs : ∀ id, db'.firstAttempts id = max (db.firstAttempts id)
        (if id ∈ (db.executableFeatures plan.id).map FeatureRequest.id then 1 else 0))

theorem Db.findPlan_some {db : Db} {planId projectId : String} {plan : ImplementationPlan}
    (h : db.findPlan planId projectId = some plan) :
    plan ∈ db.planning.implementationPlans.rows ∧ plan.id = planId ∧ plan.projectId = projectId := by
  have hp := db.planning.implementationPlans.prop_of_find? h
  rw [Bool.and_eq_true, beq_iff_eq, beq_iff_eq] at hp
  exact ⟨db.planning.implementationPlans.mem_of_find? h, hp⟩

/-- Two plans of one id are one. -/
theorem ImplementationPlan.eq_of_id {db : Db} {plan plan' : ImplementationPlan}
    (h : plan ∈ db.planning.implementationPlans.rows)
    (h' : plan' ∈ db.planning.implementationPlans.rows) (hid : plan.id = plan'.id) : plan = plan' :=
  db.planning.implementationPlans.eq_of_clash h h' (decide_eq_true hid)

/-- An update of the plan of an id. -/
theorem Db.planLeft_of_update {db db' : Db} {plan : ImplementationPlan}
    {p : ImplementationPlan → Bool} {f : ImplementationPlan → ImplementationPlan} {hf : KeyFree f}
    (h : db'.planning.implementationPlans = db.planning.implementationPlans.update p f hf)
    (hplan : plan ∈ db.planning.implementationPlans.rows) (hp : p plan = true)
    (hid : ∀ plan', p plan' = true → plan'.id = plan.id) : db.PlanLeft db' plan f where
  found := hplan
  rows x := by
    rw [h]
    exact Table.mem_update_one hplan hp fun plan' hplan' hp' =>
      ImplementationPlan.eq_of_id hplan' hplan (hid plan' hp')

/-- The lifecycle of a plan goes one way. -/
theorem planLifecycle_edge {state toState : PlanState}
    (h : planLifecycle.isValid state toState = true) :
    (state = .draft ∧ toState = .pendingApproval) ∨
      (state = .pendingApproval ∧ toState = .approved) ∨
      (state = .approved ∧ toState = .activatedForExecution) := by
  revert h
  cases state <;> cases toState <;> decide

section Effects

variable {s s' : Session} {result : CommandResult}

/-- What a generation or an import that did its work wrote. -/
theorem rewritten_of_run {P : Type} {envelope : CommandEnvelope P} {w : BacklogWrite}
    (h : exec (w.run envelope) s = (.ok result, s')) :
    PlanningEffect (some w) none s.db s'.db := by
  obtain ⟨plan, fresh, new, hfind, hknown, hfresh, hrequests, hnew, hsource, hplans, hruns⟩ :=
    BacklogWrite.run_ok h
  obtain ⟨hmem, hid, hproject⟩ := Db.findPlan_some hfind
  refine .rewritten w plan fresh new rfl ⟨hid, hproject⟩ hknown ?_ hfresh hrequests hnew hsource hruns
  refine Db.planLeft_of_update hplans hmem (beq_iff_eq.mpr hid) fun plan' hplan' => ?_
  rw [hid]
  exact beq_iff_eq.mp hplan'

/-- What a validation that did its work wrote. -/
theorem validated_of_work {envelope : CommandEnvelope ValidateBacklogPayload}
    {noted : CommandResult × List String}
    (h : exec (validateBacklogWork envelope) s = (.ok noted, s')) :
    PlanningEffect none (some envelope.payload) s.db s'.db := by
  obtain ⟨hnonempty, hproblems, -, hlast⟩ := validateBacklogWork_ok h
  have hplans : s'.db.untraced.planning.implementationPlans =
      s.db.planning.implementationPlans.update (fun plan => plan.id == envelope.payload.planId)
        (ImplementationPlan.validated (.ofProblems noted.2) s.runtime.now)
        (ImplementationPlan.validated_keys _ _) := by
    rw [hlast]
    rfl
  have hrequests : s'.db.untraced.featureRequests = s.db.featureRequests := by
    rw [hlast]
    rfl
  have hdependencies : s'.db.untraced.featureDependencies = s.db.featureDependencies := by
    rw [hlast]
    rfl
  have hruns : s'.db.untraced.featureRuns = s.db.featureRuns := by
    rw [hlast]
    rfl
  rw [hproblems] at hplans
  refine .validated envelope.payload s.runtime.now rfl hnonempty ?_ hrequests hdependencies hruns
  by_cases hplan : ∃ plan ∈ s.db.planning.implementationPlans.rows,
      plan.id = envelope.payload.planId
  · obtain ⟨plan, hmem, hid⟩ := hplan
    refine Or.inr ⟨plan, hid, Db.planLeft_of_update hplans hmem (beq_iff_eq.mpr hid)
      fun plan' hplan' => ?_⟩
    rw [hid]
    exact beq_iff_eq.mp hplan'
  · refine Or.inl (hplans.trans (Table.update_eq_self _ (Table.count_eq_zero.mpr ?_)))
    intro plan hmem
    exact beq_eq_false_iff_ne.mpr fun hid => hplan ⟨plan, hmem, hid⟩

/-- What a command that moved a plan wrote to its row, when its side effects write no plan, no request
and no dependency; the side effects start from the requests and the runs of before. -/
theorem left_of_movePlan {P : Type} {envelope : CommandEnvelope P} {ref : PlanRef}
    {move : PlanMove} (h : exec (movePlan envelope ref move) s = (.ok result, s'))
    (heffects : Frame (fun s : Session => (s.db.planning.implementationPlans, s.db.featureRequests,
      s.db.featureDependencies)) move.effects) :
    ∃ plan, plan.id = ref.planId ∧ planLifecycle.isValid plan.state move.toState = true ∧
      (∃ s₁ s₂, exec (move.guard plan) s₁ = (.ok (), s₂)) ∧
      s.db.PlanLeft s'.db plan (ImplementationPlan.moved move.toState (nextVersion plan.version)) ∧
      s'.db.featureRequests = s.db.featureRequests ∧
      s'.db.featureDependencies = s.db.featureDependencies ∧
      ∃ s₃ s₄ details, s₃.db.featureRequests = s.db.featureRequests ∧
        s₃.db.featureRuns = s.db.featureRuns ∧ exec move.effects s₃ = (.ok details, s₄) ∧
        s'.db.featureRuns = s₄.db.featureRuns := by
  obtain ⟨plan, hfind, hversion, hvalid, ⟨s₁, s₂, -, hguard⟩, s₃, s₄, details, hput, hwrote, hlast⟩ :=
    movePlan_ok h
  obtain ⟨hmem, hid, -⟩ := Db.findPlan_some hfind
  obtain ⟨hplans₄, hbacklog₄⟩ := Prod.mk.inj (heffects.of_exec hwrote)
  obtain ⟨hrequests₄, hdependencies₄⟩ := Prod.mk.inj hbacklog₄
  have hplanning : s'.db.untraced.planning = s₄.db.untraced.planning := congrArg Db.planning hlast
  have hrequests : s'.db.untraced.featureRequests = s₄.db.untraced.featureRequests :=
    congrArg Db.featureRequests hlast
  have hdependencies : s'.db.untraced.featureDependencies = s₄.db.untraced.featureDependencies :=
    congrArg Db.featureDependencies hlast
  have hruns : s'.db.untraced.featureRuns = s₄.db.untraced.featureRuns :=
    congrArg Db.featureRuns hlast
  change s'.db.planning = s₄.db.planning at hplanning
  change s'.db.featureRequests = s₄.db.featureRequests at hrequests
  change s'.db.featureDependencies = s₄.db.featureDependencies at hdependencies
  have hplans : s'.db.planning.implementationPlans = s.db.planning.implementationPlans.update
      (ImplementationPlan.isAt ref.planId ref.expectedVersion)
      (ImplementationPlan.moved move.toState (nextVersion plan.version))
      (ImplementationPlan.moved_keys _ _) := by
    rw [hplanning, hplans₄, hput]
    rfl
  have hrequests₃ : s₃.db.featureRequests = s.db.featureRequests := by
    rw [hput]
    rfl
  have hdependencies₃ : s₃.db.featureDependencies = s.db.featureDependencies := by
    rw [hput]
    rfl
  have hruns₃ : s₃.db.featureRuns = s.db.featureRuns := by
    rw [hput]
    rfl
  have hat : ImplementationPlan.isAt ref.planId ref.expectedVersion plan = true := by
    rw [ImplementationPlan.isAt, hid, hversion]
    simp
  have hleft := Db.planLeft_of_update hplans hmem hat fun plan' hat' => by
    rw [ImplementationPlan.isAt, Bool.and_eq_true, beq_iff_eq] at hat'
    exact hat'.1.trans hid.symm
  exact ⟨plan, hid, hvalid, ⟨_, s₂, hguard⟩, hleft, hrequests.trans (hrequests₄.trans hrequests₃),
    hdependencies.trans (hdependencies₄.trans hdependencies₃), s₃, s₄, details, hrequests₃, hruns₃, hwrote, hruns⟩

/-- What a submission that did its work wrote. -/
theorem moved_of_submission {envelope : CommandEnvelope SubmitPlanForApprovalPayload}
    (h : exec (movePlan envelope envelope.payload (submissionMove envelope)) s = (.ok result, s')) :
    PlanningEffect none none s.db s'.db := by
  obtain ⟨plan, -, hvalid, ⟨s₁, s₂, hguard⟩, hleft, hrequests, hdependencies, s₃, s₄, details, -,
    hruns₃, hwrote, hruns⟩ := left_of_movePlan h (frame_pure _)
  obtain ⟨-, rfl⟩ := Prod.mk.inj hwrote
  have hdraft : plan.state = .draft := by
    rcases planLifecycle_edge hvalid with ⟨hstate, -⟩ | ⟨-, hto⟩ | ⟨-, hto⟩
    · exact hstate
    · cases hto
    · cases hto
  exact .moved plan .pendingApproval (Or.inl ⟨hdraft, rfl, submissionGate_ok hguard⟩) hleft hrequests
    hdependencies (hruns.trans hruns₃)

/-- What an approval that did its work wrote. -/
theorem moved_of_approval {envelope : CommandEnvelope ApprovePlanPayload}
    (h : exec (movePlan envelope envelope.payload.toPlanRef (approvalMove envelope)) s =
      (.ok result, s')) :
    PlanningEffect none none s.db s'.db := by
  obtain ⟨plan, -, hvalid, -, hleft, hrequests, hdependencies, s₃, s₄, details, -, hruns₃, hwrote,
    hruns⟩ := left_of_movePlan h (frame_bind (frame_insertPlanApproval (fun _ _ _ => rfl) (fun _ _ => rfl)
      envelope) fun _ => frame_pure _)
  have hruns₄ : s₄.db.featureRuns = s₃.db.featureRuns :=
    (frame_bind (π := fun s : Session => s.db.featureRuns)
      (frame_insertPlanApproval (fun _ _ _ => rfl) (fun _ _ => rfl) envelope)
      fun _ => frame_pure _).of_exec hwrote
  have hpending : plan.state = .pendingApproval := by
    rcases planLifecycle_edge hvalid with ⟨-, hto⟩ | ⟨hstate, -⟩ | ⟨-, hto⟩
    · cases hto
    · exact hstate
    · cases hto
  exact .moved plan .approved (Or.inr ⟨hpending, rfl⟩) hleft hrequests hdependencies
    (hruns.trans (hruns₄.trans hruns₃))

/-- What an activation that did its work wrote. -/
theorem activated_of_activation {envelope : CommandEnvelope ActivatePlanPayload}
    (h : exec (movePlan envelope envelope.payload (activationMove envelope)) s = (.ok result, s')) :
    PlanningEffect none none s.db s'.db := by
  obtain ⟨plan, hid, hvalid, -, hleft, hrequests, hdependencies, s₃, s₄, details, hrequests₃, hruns₃,
    hwrote, hruns⟩ := left_of_movePlan h (frame_activationEffects (fun _ _ _ => rfl) (fun _ _ => rfl) _)
  have happroved : plan.state = .approved := by
    rcases planLifecycle_edge hvalid with ⟨-, hto⟩ | ⟨-, hto⟩ | ⟨hstate, -⟩
    · cases hto
    · cases hto
    · exact hstate
  obtain ⟨features, s₅, hquery, h₅⟩ := exec_bind_ok.mp hwrote
  obtain ⟨rfl, hdb₅, -⟩ := query_ok hquery
  obtain ⟨n, s₆, hactivated, h₆⟩ := exec_bind_ok.mp h₅
  obtain ⟨-, rfl⟩ := Prod.mk.inj h₆
  obtain ⟨⟨fresh, hrows, hfresh⟩, hcounts⟩ := activateFeatures_ok hactivated
  have hfeatures : s₃.db.executableFeatures envelope.payload.planId =
      s.db.executableFeatures plan.id := by
    rw [Db.executableFeatures, Db.executableFeatures, hrequests₃, hid]
  refine .activated plan happroved hleft hrequests hdependencies (fun run hrun => ?_)
    (fun run hrun => ?_) fun id => ?_
  · rw [hruns, hrows, hdb₅, hruns₃]
    exact List.mem_append_left _ hrun
  · rw [hruns, hrows, hdb₅, hruns₃] at hrun
    rcases List.mem_append.mp hrun with hold | hnew
    · exact Or.inl hold
    · obtain ⟨-, hstate, hof⟩ := hfresh run hnew
      rw [hfeatures] at hof
      exact Or.inr ⟨hstate, List.mem_map.mp hof⟩
  have hcount := hcounts id
  have hbefore : s₅.db.firstAttempts id = s.db.firstAttempts id := by
    rw [hdb₅, Db.firstAttempts, Db.firstAttempts, hruns₃]
  have hafter : s'.db.firstAttempts id = s₆.db.firstAttempts id := by
    rw [Db.firstAttempts, Db.firstAttempts, hruns]
  rw [hafter, hcount, hbefore, hfeatures]

end Effects

/-- An effect is one beside the record of the call, too. -/
theorem PlanningEffect.untraced {write : Option BacklogWrite}
    {examined : Option ValidateBacklogPayload} {db db' : Db}
    (h : PlanningEffect write examined db db') :
    PlanningEffect write examined db.untraced db'.untraced := by
  cases h with
  | rewritten w plan fresh new call isPlan known left inserted requests dependencies sources runs =>
    exact .rewritten w plan fresh new call isPlan known ⟨left.found, left.rows⟩ inserted requests
      dependencies sources runs
  | validated payload now call nonempty left requests dependencies runs =>
    refine .validated payload now call nonempty ?_ requests dependencies runs
    rcases left with hsame | ⟨plan, hid, hleft⟩
    · exact Or.inl hsame
    · exact Or.inr ⟨plan, hid, hleft.found, hleft.rows⟩
  | moved plan toState state left requests dependencies runs =>
    exact .moved plan toState state ⟨left.found, left.rows⟩ requests dependencies runs
  | activated plan state left requests dependencies kept fresh runs =>
    exact .activated plan state ⟨left.found, left.rows⟩ requests dependencies kept fresh runs

/-- **A call that did its work** has one of the four effects, beside its record. -/
theorem PlanningCall.effect_of_did {db : Db} {call : PlanningCall} (h : call.Did db) :
    PlanningEffect call.write call.examined db.untraced
      (planningCommands.next db call).untraced := by
  obtain ⟨command, envelope, runtime⟩ := call
  obtain ⟨ev, s₁, s₂, result, hs₁, -, hbody, hs₂⟩ := h.work
  rw [hs₂, ← hs₁]
  refine PlanningEffect.untraced ?_
  cases command with
  | generateFeatureBacklog => exact rewritten_of_run hbody
  | importBacklog => exact rewritten_of_run hbody
  | validateBacklog =>
    obtain ⟨noted, s₃, hwork, hpure⟩ := exec_bind_ok.mp hbody
    obtain ⟨-, rfl⟩ := Prod.mk.inj hpure
    exact validated_of_work hwork
  | submitPlanForApproval => exact moved_of_submission hbody
  | approvePlan => exact moved_of_approval hbody
  | activatePlan => exact activated_of_activation hbody

/-! ### The invariant -/

/-- What the claim says of a database: a plan that has left `draft` is validated as valid at its
backlog version; an activated plan has one first run for each executable feature. -/
structure PlanIntegrity (db : Db) : Prop where
  validated : ∀ plan ∈ db.planning.implementationPlans.rows, plan.state ≠ .draft →
    plan.backlogValidated
  started : ∀ plan ∈ db.planning.implementationPlans.rows, plan.state = .activatedForExecution →
    ∀ feature ∈ db.executableFeatures plan.id, db.firstAttempts feature.id = 1

/-- The claim, with what an activation rests on: no request has two first runs. -/
structure PlanInvariant (db : Db) : Prop where
  integrity : PlanIntegrity db
  once : ∀ id, db.firstAttempts id ≤ 1

/-- A backlog that the tables take: every dependency is known, and the identifiers of the features are
new to the project and to each other. -/
structure BacklogWrite.Accepted (w : BacklogWrite) (db : Db) : Prop where
  known : ∀ feature ∈ w.features, ∀ target ∈ feature.dependsOnFrIds,
    target ∈ w.features.map FeatureInput.frId
  distinct : (w.features.map FeatureInput.frId).Nodup
  unused : ∀ feature ∈ w.features, ∀ row ∈ db.featureRequests.rows, row.projectId = w.projectId →
    row.frId ≠ feature.frId

/-- A backlog of a plan that has left `draft` would be changed, or found at fault. -/
def LateBacklog (write : Option BacklogWrite) (examined : Option ValidateBacklogPayload) (db : Db) :
    Prop :=
  ∃ plan ∈ db.planning.implementationPlans.rows, plan.state ≠ .draft ∧
    ((∃ w, write = some w ∧ plan.id = w.planId ∧ plan.projectId = w.projectId ∧ w.Accepted db) ∨
      ∃ payload, examined = some payload ∧ plan.id = payload.planId ∧
        db.backlogFeatures payload.planId payload.projectId ≠ [] ∧
        db.problemsOf payload.planId payload.projectId ≠ [])

section Step

variable {write : Option BacklogWrite} {examined : Option ValidateBacklogPayload} {db db' : Db}

/-- The rows of features belong to their plan, and carry their identifiers. -/
theorem rows_of_features {planId projectId : String} {fresh : List FeatureRequest}
    {features : List FeatureInput}
    (h : List.Forall₂ (fun row feature =>
      ∃ id now, row = FeatureInput.row feature planId projectId id now) fresh features) :
    fresh.map FeatureRequest.frId = features.map FeatureInput.frId ∧
      ∀ row ∈ fresh, row.planId = planId ∧ row.projectId = projectId := by
  induction h with
  | nil => exact ⟨rfl, by simp⟩
  | cons hrow _ ih =>
    obtain ⟨id, now, rfl⟩ := hrow
    refine ⟨?_, ?_⟩
    · rw [List.map_cons, List.map_cons, ih.1]
      rfl
    · intro row hmem
      rcases List.mem_cons.mp hmem with rfl | hmem
      · exact ⟨rfl, rfl⟩
      · exact ih.2 row hmem

/-- The features that were inserted were acceptable. -/
theorem BacklogWrite.accepted_of_inserted {w : BacklogWrite} {fresh : List FeatureRequest}
    (hknown : ∀ feature ∈ w.features, ∀ target ∈ feature.dependsOnFrIds,
      target ∈ w.features.map FeatureInput.frId)
    (hfresh : List.Forall₂ (fun row feature =>
      ∃ id now, row = feature.row w.planId w.projectId id now) fresh w.features)
    (hrows : db'.featureRequests.rows = db.featureRequests.rows ++ fresh) : w.Accepted db := by
  obtain ⟨hfrIds, hof⟩ := rows_of_features hfresh
  have hunique := db'.featureRequests.unique
  rw [hrows, List.pairwise_append] at hunique
  obtain ⟨-, hamong, hacross⟩ := hunique
  -- rows of one project with one identifier clash
  have hclash : ∀ r r' : FeatureRequest, Row.clash r r' = false → r.projectId = r'.projectId →
      r.frId ≠ r'.frId := by
    intro r r' hno hproject hfr
    simp [Row.clash, hproject, hfr] at hno
  refine ⟨hknown, ?_, ?_⟩
  · rw [← hfrIds, List.nodup_iff_pairwise_ne, List.pairwise_map]
    refine hamong.imp_of_mem fun {r r'} hr hr' hno => hclash r r' hno ?_
    rw [(hof r hr).2, (hof r' hr').2]
  · intro feature hfeature row hrow hproject
    have hmem : feature.frId ∈ fresh.map FeatureRequest.frId := by
      rw [hfrIds]
      exact List.mem_map_of_mem hfeature
    obtain ⟨row', hrow', hfr⟩ := List.mem_map.mp hmem
    rw [← hfr]
    refine hclash row row' (hacross row hrow row' hrow') ?_
    rw [hproject, (hof row' hrow').2]

/-- A plan after one was rewritten: the rewritten plan, or another one. -/
theorem Db.PlanLeft.mem {plan x : ImplementationPlan}
    {f : ImplementationPlan → ImplementationPlan} (h : db.PlanLeft db' plan f)
    (hx : x ∈ db'.planning.implementationPlans.rows) :
    x = f plan ∨ (x ∈ db.planning.implementationPlans.rows ∧ x.id ≠ plan.id) := by
  rcases (h.rows x).mp hx with hleft | ⟨hold, hne⟩
  · exact Or.inl hleft
  · exact Or.inr ⟨hold, fun hid => hne (ImplementationPlan.eq_of_id hold h.found hid)⟩

/-- **Every effect keeps the invariant**, as long as it leaves the backlogs of the plans that have
left `draft` alone. -/
theorem plan_step (h : PlanInvariant db) (hlate : ¬ LateBacklog write examined db)
    (heffect : PlanningEffect write examined db db') : PlanInvariant db' := by
  cases heffect with
  | rewritten w plan fresh new call isPlan known left inserted requests dependencies sources runs =>
    have hdraft : plan.state = .draft := by
      by_contra hleft
      exact hlate ⟨plan, left.found, hleft, Or.inl ⟨w, call, isPlan.1, isPlan.2,
        BacklogWrite.accepted_of_inserted known inserted requests⟩⟩
    have hattempts : ∀ id, db'.firstAttempts id = db.firstAttempts id := by
      intro id
      rw [Db.firstAttempts, Db.firstAttempts, runs]
    refine ⟨⟨?_, ?_⟩, fun id => (hattempts id).le.trans (h.once id)⟩
    · intro x hx hpast
      rcases left.mem hx with rfl | ⟨hold, -⟩
      · exact absurd hdraft hpast
      · exact h.integrity.validated x hold hpast
    · intro x hx hactive feature hfeature
      rcases left.mem hx with rfl | ⟨hold, hne⟩
      · rw [ImplementationPlan.rebacklogged, hdraft] at hactive
        cases hactive
      · rw [hattempts]
        refine h.integrity.started x hold hactive feature ?_
        -- the new requests belong to the plan that was rewritten
        rw [Db.executableFeatures, Table.select, requests, List.filter_append,
          List.mem_append] at hfeature
        rcases hfeature with hfeature | hfeature
        · exact hfeature
        · obtain ⟨hmem, hplan⟩ := List.mem_filter.mp hfeature
          rw [Bool.and_eq_true, beq_iff_eq, ((rows_of_features inserted).2 feature hmem).1] at hplan
          exact absurd (hplan.1.symm.trans isPlan.1.symm) hne
  | validated payload now call nonempty left requests dependencies runs =>
    have hattempts : ∀ id, db'.firstAttempts id = db.firstAttempts id := by
      intro id
      rw [Db.firstAttempts, Db.firstAttempts, runs]
    have hfeatures : ∀ id, db'.executableFeatures id = db.executableFeatures id := by
      intro id
      rw [Db.executableFeatures, Db.executableFeatures, requests]
    refine ⟨⟨?_, ?_⟩, fun id => (hattempts id).le.trans (h.once id)⟩
    · intro x hx hpast
      rcases left with hsame | ⟨plan, hid, hleft⟩
      · rw [hsame] at hx
        exact h.integrity.validated x hx hpast
      · rcases hleft.mem hx with rfl | ⟨hold, -⟩
        · have hnone : db.problemsOf payload.planId payload.projectId = [] := by
            by_contra hfault
            exact hlate ⟨plan, hleft.found, hpast, Or.inr ⟨payload, call, hid, nonempty, hfault⟩⟩
          rw [hnone]
          exact ⟨rfl, rfl⟩
        · exact h.integrity.validated x hold hpast
    · intro x hx hactive feature hfeature
      rw [hattempts]
      rw [hfeatures] at hfeature
      rcases left with hsame | ⟨plan, hid, hleft⟩
      · rw [hsame] at hx
        exact h.integrity.started x hx hactive feature hfeature
      · rcases hleft.mem hx with rfl | ⟨hold, -⟩
        · exact h.integrity.started plan hleft.found hactive feature hfeature
        · exact h.integrity.started x hold hactive feature hfeature
  | moved plan toState state left requests dependencies runs =>
    have hattempts : ∀ id, db'.firstAttempts id = db.firstAttempts id := by
      intro id
      rw [Db.firstAttempts, Db.firstAttempts, runs]
    refine ⟨⟨?_, ?_⟩, fun id => (hattempts id).le.trans (h.once id)⟩
    · intro x hx hpast
      rcases left.mem hx with rfl | ⟨hold, -⟩
      · rcases state with ⟨-, -, hvalidated⟩ | ⟨hpending, -⟩
        · exact hvalidated
        · exact h.integrity.validated plan left.found (by simp [hpending])
      · exact h.integrity.validated x hold hpast
    · intro x hx hactive feature hfeature
      rw [hattempts]
      rw [Db.executableFeatures, requests] at hfeature
      rcases left.mem hx with rfl | ⟨hold, -⟩
      · change toState = .activatedForExecution at hactive
        rcases state with ⟨-, hto, -⟩ | ⟨-, hto⟩
        · rw [hto] at hactive
          cases hactive
        · rw [hto] at hactive
          cases hactive
      · exact h.integrity.started x hold hactive feature hfeature
  | activated plan state left requests dependencies kept fresh runs =>
    have honce : ∀ id, db'.firstAttempts id ≤ 1 := by
      intro id
      have hle := h.once id
      rw [runs id]
      split
      · omega
      · omega
    refine ⟨⟨?_, ?_⟩, honce⟩
    · intro x hx hpast
      rcases left.mem hx with rfl | ⟨hold, -⟩
      · exact h.integrity.validated plan left.found (by simp [state])
      · exact h.integrity.validated x hold hpast
    · intro x hx hactive feature hfeature
      rw [Db.executableFeatures, requests] at hfeature
      have hle := honce feature.id
      rcases left.mem hx with rfl | ⟨hold, -⟩
      · -- a feature of the plan has a first run now
        have hmem : feature.id ∈ (db.executableFeatures plan.id).map FeatureRequest.id :=
          List.mem_map_of_mem hfeature
        have hrun := runs feature.id
        rw [if_pos hmem] at hrun
        omega
      · have hrun := runs feature.id
        have hbefore := h.integrity.started x hold hactive feature hfeature
        omega

end Step

/-! ### Runs -/

/-- An event that changes the backlog of a plan that has left `draft`, or that finds fault with it:
the actor is admitted, the key is free, and the tables take the backlog. -/
def BreaksPlan (db : Db) : PlanningEvent → Prop
  | .command call => call.authorised ∧ call.unkeyed db ∧ LateBacklog call.write call.examined db
  | .preview _ _ => False

theorem PlanInvariant.next {db : Db} {event : PlanningEvent} (h : PlanInvariant db)
    (hkeeps : ¬ BreaksPlan db event) : PlanInvariant (planningNext db event) := by
  cases event with
  | preview envelope runtime =>
    rw [planningNext_preview]
    exact h
  | command call =>
    rcases CommandFamily.next_cases db call with hsame | hdid
    · rw [planningNext, hsame]
      exact h
    · have huntraced : PlanInvariant db.untraced :=
        ⟨⟨h.integrity.validated, h.integrity.started⟩, h.once⟩
      have hlate : ¬ LateBacklog call.write call.examined db.untraced := by
        rintro ⟨plan, hplan, hstate, hbacklog⟩
        refine hkeeps ⟨hdid.authorised, hdid.unkeyed, plan, hplan, hstate, ?_⟩
        rcases hbacklog with ⟨w, hw, hid, hproject, haccepted⟩ | hfault
        · exact Or.inl ⟨w, hw, hid, hproject, haccepted.known, haccepted.distinct, haccepted.unused⟩
        · exact Or.inr hfault
      have hstep := plan_step huntraced hlate (PlanningCall.effect_of_did hdid)
      exact ⟨⟨hstep.integrity.validated, hstep.integrity.started⟩, hstep.once⟩

/-- **A plan that has left `draft` has a validated backlog, and an activated one its first runs**, in
every state of every run in which no backlog of a plan that has left `draft` is changed or faulted. -/
theorem plan_activation_integrity {db : Db} {events : List PlanningEvent} (hstart : PlanInvariant db)
    (h : Along planningNext (fun db event => ¬ BreaksPlan db event) db events) :
    Throughout planningNext PlanIntegrity db events :=
  (throughout_of_step (fun _ _ hinv hkeeps => hinv.next hkeeps) hstart h).imp
    fun _ hinv => hinv.integrity

/-! ### Runs on a sample plan -/

/-- A project with a new plan. -/
def samplePlanDb : Db where
  planning := { implementationPlans := .ofList [{ id := "plan", projectId := "P" }] }

/-- A call on the sample plan, under a key of its own. -/
def samplePlanningCall (command : PlanningCommand) (actor : ActorIdentity) (key : String) (now : ℕ)
    (payload : command.Payload) : PlanningEvent :=
  .command {
    command
    envelope := { commandId := key, idempotencyKey := key, payload, actor, correlationId := key }
    runtime := sampleRuntime now }

/-- One feature is generated for the plan. -/
def sampleGeneration (frId : String) (now : ℕ) : PlanningEvent :=
  samplePlanningCall .generateFeatureBacklog systemActor frId now {
    projectId := "P"
    planId := "plan"
    features := [{
      frId, title := "Login", description := "Users log in"
      acceptanceCriteria := ["A user logs in"]
      testExpectations := [⟨"Login succeeds", some .integration⟩] }] }

/-- The backlog is generated and validated, and the plan is submitted. -/
def sampleSubmission : List PlanningEvent := [
  sampleGeneration "FR-10" 1,
  samplePlanningCall .validateBacklog systemActor "validate" 2 ⟨"P", "plan"⟩,
  samplePlanningCall .submitPlanForApproval ⟨"operator", .operator, .human⟩ "submit" 3
    ⟨"plan", "P", 1⟩]

/-- The plan is approved and activated. -/
def sampleActivation : List PlanningEvent := [
  samplePlanningCall .approvePlan ⟨"approver", .approver, .human⟩ "approve" 4
    { planId := "plan", projectId := "P", expectedVersion := 2 },
  samplePlanningCall .activatePlan ⟨"approver", .approver, .human⟩ "activate" 5 ⟨"plan", "P", 3⟩]

theorem samplePlan_invariant : PlanInvariant samplePlanDb := by
  refine ⟨⟨fun plan hplan hlate => ?_, fun plan hplan hactive => ?_⟩, fun id => ?_⟩
  · obtain rfl : plan = { id := "plan", projectId := "P" } := List.mem_singleton.mp hplan
    exact absurd rfl hlate
  · obtain rfl : plan = { id := "plan", projectId := "P" } := List.mem_singleton.mp hplan
    cases hactive
  · exact Nat.zero_le 1

/-- The feature of the sample plan, after its activation. -/
theorem plan_activation_integrity_activated :
    (run planningNext samplePlanDb (sampleSubmission ++ sampleActivation)).firstAttempts "tii" = 1 := by
  have hthroughout : Throughout planningNext PlanIntegrity samplePlanDb
      (sampleSubmission ++ sampleActivation) := by
    refine plan_activation_integrity samplePlan_invariant ⟨?_, ?_, ?_, ?_, ?_, trivial⟩
    · rintro ⟨-, -, plan, hplan, hlate, -⟩
      obtain rfl : plan = { id := "plan", projectId := "P" } := List.mem_singleton.mp hplan
      exact hlate rfl
    · rintro ⟨-, -, plan, hplan, hlate, -⟩
      have hdraft : ∀ plan ∈ (planningNext samplePlanDb
          (sampleGeneration "FR-10" 1)).planning.implementationPlans.rows, plan.state = .draft := by
        decide +kernel
      exact hlate (hdraft plan hplan)
    all_goals
      rintro ⟨-, -, plan, -, -, ⟨w, hw, -⟩ | ⟨payload, hpayload, -⟩⟩
      · cases hw
      · cases hpayload
  refine hthroughout.last.started {
      id := "plan", projectId := "P", state := .activatedForExecution, backlogVersion := 1
      backlogValidatedAt := some 2, backlogValidatedState := some .valid
      backlogValidatedVersion := some 1, version := 4 } ?_ rfl {
      id := "tii", planId := "plan", projectId := "P", frId := "FR-10", title := "Login"
      description := "Users log in", createdAt := 1 } ?_
  · decide +kernel
  · decide +kernel

/-- A feature generated after the submission leaves a pending plan without a validation. -/
theorem late_generation_unvalidated :
    ¬ Throughout planningNext PlanIntegrity samplePlanDb
      (sampleSubmission ++ [sampleGeneration "FR-11" 4]) := by
  intro h
  have hplan : ∃ plan ∈ (run planningNext samplePlanDb
      (sampleSubmission ++ [sampleGeneration "FR-11" 4])).planning.implementationPlans.rows,
      plan.state = .pendingApproval ∧ plan.backlogValidatedState = none := by
    decide +kernel
  obtain ⟨plan, hmem, hstate, hnone⟩ := hplan
  have hvalidated := h.last.validated plan hmem (by simp [hstate])
  rw [ImplementationPlan.backlogValidated, hnone] at hvalidated
  cases hvalidated.1

end MiniCoder
