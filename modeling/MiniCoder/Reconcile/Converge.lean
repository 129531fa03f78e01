import MiniCoder.Commands.Total
import MiniCoder.Reconcile.Complete

/-!
# A reconciliation converges in one call

A call that nobody disturbs follows its rules until none is selected: each command returns, because
its checks pass, and moves the run to the trigger state of the next rule.  `stepsAhead` counts what
is left of the way, and is at most `maxReconcileSteps`.

* `select_step`: a rule moves the run along an edge of the matrix, and shortens the way.
* `returns_work`, `returns_runStep`: the command of a rule returns, and so does its step.
* `returns_catchUp`: by induction on the steps left, the loop ends where no rule is selected.
* `reconcile_converges`: **a second call has nothing to do**.
-/

open Storage Storage.Action

namespace MiniCoder

/-! ### The way of a run -/

/-- The longest way that a run in the state may still go, for a pull request that was not closed. -/
def openStepsAhead : FeatureExecutionState → ℕ
  | .codePushed => 5
  | .prOpened => 4
  | .ciRunning => 3
  | .ciFailed | .underReview => 2
  | .changesRequested => 1
  | _ => 0

/-- The longest way that a run in the state may still go in one call. -/
def stepsAhead (observed : ObservedPullRequest) (state : FeatureExecutionState) : ℕ :=
  if observed.state = "closed" ∧ observed.mergedAt = none then
    if state ∈ reconcileTerminalStates then 0 else 1
  else openStepsAhead state

/-- The commands that may have brought a run to the state in the same call. -/
def issuedCommands : FeatureExecutionState → List FeatureCommand
  | .prOpened => [.recordPrOpened]
  | .ciRunning => [.recordPrOpened, .recordCiRunning]
  | .underReview => [.recordPrOpened, .recordCiRunning, .recordCiPassed]
  | .ciFailed => [.recordPrOpened, .recordCiRunning, .recordCiFailed]
  | .changesRequested => [.recordPrOpened, .recordCiRunning, .recordCiPassed, .recordCiFailed,
      .recordChangesRequested, .requestChangesAfterCiFail]
  | .fixing => [.recordPrOpened, .recordCiRunning, .recordCiPassed, .recordCiFailed,
      .recordChangesRequested, .requestChangesAfterCiFail, .startFixing]
  | .humanRequired => [.recordPrOpened, .recordCiRunning, .recordCiPassed, .recordCiFailed,
      .recordChangesRequested, .requestChangesAfterCiFail, .startFixing, .escalateToHuman]
  | _ => []

/-- No rule of a closed pull request is selected for a finished run. -/
theorem ReconcileRule.select_of_terminal {observed : ObservedPullRequest}
    {state : FeatureExecutionState} (h : state ∈ reconcileTerminalStates) :
    select observed state = none := by
  unfold select
  rw [if_neg fun hopen => hopen.2.2 h]
  simp only [reconcileTerminalStates, List.mem_cons, List.not_mem_nil, or_false] at h
  rcases h with rfl | rfl | rfl | rfl <;> rfl

/-- The steps for a pull request that was not closed: a trigger state, and a command issued in it. -/
def openSteps : List (FeatureExecutionState × FeatureCommand) := [
  (.codePushed, .recordPrOpened),
  (.prOpened, .recordCiRunning),
  (.ciRunning, .recordCiPassed),
  (.ciRunning, .recordCiFailed),
  (.ciFailed, .requestChangesAfterCiFail),
  (.ciFailed, .escalateToHuman),
  (.changesRequested, .startFixing),
  (.underReview, .recordChangesRequested),
  (.underReview, .escalateToHuman)]

theorem stepsAhead_le (observed : ObservedPullRequest) (state : FeatureExecutionState) :
    stepsAhead observed state ≤ maxReconcileSteps := by
  unfold stepsAhead
  split
  · split <;> decide
  · cases state <;> decide

namespace ReconcileRule

variable {observed : ObservedPullRequest} {state : FeatureExecutionState} {rule : ReconcileRule}

/-- At the end of the way no rule is selected. -/
theorem select_of_stepsAhead (h : stepsAhead observed state = 0) :
    select observed state = none := by
  by_cases hterminal : state ∈ reconcileTerminalStates
  · exact select_of_terminal hterminal
  · unfold stepsAhead at h
    by_cases hclosed : observed.state = "closed" ∧ observed.mergedAt = none
    · rw [if_pos hclosed, if_neg hterminal] at h
      cases h
    · rw [if_neg hclosed] at h
      unfold select
      rw [if_neg fun hopen => hclosed ⟨hopen.1, hopen.2.1⟩]
      cases state <;> first | rfl | cases h

theorem mem_openSteps (h : select observed state = some rule)
    (hopen : ¬ (observed.state = "closed" ∧ observed.mergedAt = none)) (fixAttemptCount : ℕ) :
    (state, (rule.limited fixAttemptCount).command) ∈ openSteps := by
  unfold select at h
  rw [if_neg fun hclosed => hopen ⟨hclosed.1, hclosed.2.1⟩] at h
  have hcases : ∀ limit other : ReconcileRule, (if fixAttemptThreshold ≤ fixAttemptCount then limit
      else other).command = limit.command ∨ (if fixAttemptThreshold ≤ fixAttemptCount then limit
      else other).command = other.command := by
    intro limit other
    split
    · exact Or.inl rfl
    · exact Or.inr rfl
  cases state with
  | codePushed =>
    obtain rfl := Option.some.inj h
    exact (by decide : (FeatureExecutionState.codePushed, prOpened.command) ∈ openSteps)
  | prOpened =>
    have hrule : rule = ciRunning := by grind
    subst hrule
    exact (by decide : (FeatureExecutionState.prOpened, ciRunning.command) ∈ openSteps)
  | ciRunning =>
    have hrule : rule = ciPassed ∨ rule = ciFailed := by grind
    rcases hrule with rfl | rfl
    · exact (by decide : (FeatureExecutionState.ciRunning, ciPassed.command) ∈ openSteps)
    · exact (by decide : (FeatureExecutionState.ciRunning, ciFailed.command) ∈ openSteps)
  | ciFailed =>
    obtain rfl := Option.some.inj h
    rcases hcases ciLimit afterCiFail with hcommand | hcommand
    · rw [limited, hcommand]
      decide
    · rw [limited, hcommand]
      decide
  | changesRequested =>
    obtain rfl := Option.some.inj h
    exact (by decide : (FeatureExecutionState.changesRequested, startFixing.command) ∈ openSteps)
  | underReview =>
    have hrule : rule = changesRequested := by grind
    subst hrule
    rcases hcases reviewLimit changesRequested with hcommand | hcommand
    · rw [limited, hcommand]
      decide
    · rw [limited, hcommand]
      decide
  | _ => cases h

/-- **What a rule does to its run**, whatever the fix attempts are: it moves the run along an edge
of the matrix, by a command that this call has not issued, and shortens the way. -/
theorem select_step (h : select observed state = some rule) (hskipped : state ≠ .skipped)
    (fixAttemptCount : ℕ) :
    let command := (rule.limited fixAttemptCount).command
    isValid state command.target = true ∧ command.target ≠ .skipped ∧
      command ∉ issuedCommands state ∧
      (∀ c ∈ command :: issuedCommands state, c ∈ issuedCommands command.target) ∧
      stepsAhead observed command.target < stepsAhead observed state := by
  intro command
  by_cases hclosed : observed.state = "closed" ∧ observed.mergedAt = none
  · -- the run is escalated at once
    have hterminal : state ∉ reconcileTerminalStates := by
      intro hterminal
      rw [select_of_terminal hterminal] at h
      cases h
    have hrule : rule = closed := by
      unfold select at h
      rw [if_pos ⟨hclosed.1, hclosed.2, hterminal⟩] at h
      exact (Option.some.inj h).symm
    have hcommand : command = .escalateToHuman := by
      show (rule.limited fixAttemptCount).command = _
      rw [hrule]
      rfl
    have hsteps : stepsAhead observed .humanRequired < stepsAhead observed state := by
      unfold stepsAhead
      rw [if_pos hclosed, if_pos hclosed, if_neg hterminal]
      decide
    rw [hcommand]
    refine ⟨?_, by decide, ?_, ?_, hsteps⟩
    · revert hterminal hskipped
      cases state <;> decide
    · revert hterminal
      cases state <;> decide
    · cases state <;> decide
  · have hstep := mem_openSteps h hclosed fixAttemptCount
    unfold stepsAhead
    rw [if_neg hclosed, if_neg hclosed]
    have hall : ∀ step ∈ openSteps, isValid step.1 step.2.target = true ∧
        step.2.target ≠ .skipped ∧ step.2 ∉ issuedCommands step.1 ∧
        (∀ c ∈ step.2 :: issuedCommands step.1, c ∈ issuedCommands step.2.target) ∧
        openStepsAhead step.2.target < openStepsAhead step.1 := by
      decide
    exact hall _ hstep

end ReconcileRule

/-! ### One command -/

/-- The keys of the rule, at any version of the run, have no row in the scope of its handler. -/
def ReconcileRule.Unused (opts : ReconcileOptions) (db : Db) (rule : ReconcileRule) : Prop :=
  ∀ version, ∀ row ∈ db.idempotencyKeys.rows,
    Db.isKey (rule.key opts version) rule.command.handler.idempotencyScope row = false

/-- What a call finds before each of its steps, when nobody disturbs it. -/
structure CatchingUp (opts : ReconcileOptions) (s : Session) (state : FeatureExecutionState)
    (version : ℕ) : Prop where
  ready : s.Ready
  run : ∃ run, s.db.findFeatureRun opts.featureRunId opts.projectId = some run ∧
    run.currentExecutionState = state ∧ run.version = version
  notSkipped : state ≠ .skipped
  lane : ∃ ctx, opts.lockContext = some ctx ∧
    LaneHeld s.db s.runtime.now opts.projectId ctx
  automation : AutomationRunning s.db opts.projectId
  unused : ∀ rule : ReconcileRule, rule.command ∉ issuedCommands state → rule.Unused opts s.db

section Call

variable {opts : ReconcileOptions} {s s' : Session} {state : FeatureExecutionState}
  {version : ℕ} {rule : ReconcileRule} {run : FeatureRun} {commandId : String}

/-- **The work of a rule's command returns**: all of its checks pass. -/
theorem ReconcileRule.returns_work (hs : s.Ready)
    (hfound : s.db.findFeatureRun opts.featureRunId opts.projectId = some run)
    (hvalid : isValid run.currentExecutionState rule.command.target = true)
    (hlane : ∃ ctx, opts.lockContext = some ctx ∧
      LaneHeld s.db s.runtime.now opts.projectId ctx)
    (hrunning : AutomationRunning s.db opts.projectId)
    (hbelow : rule.countsAttempts = true → run.fixAttemptCount < fixAttemptThreshold)
    (ev : (rule.request opts state run.version commandId).Evidence) :
    Returns (runTransition (rule.request opts state run.version commandId).envelope
      ((rule.request opts state run.version commandId).transition ev)) s fun _ s' =>
        s.Grows s' := by
  obtain ⟨ctx, hctx, hheld⟩ := hlane
  have hreads : Returns (pure () : Sql Unit) s fun _ s' => s.Reads s' := returns_pure (.refl s)
  have hpass : ∀ s' : Session, s.Reads s' →
      Returns (pure () : Sql Unit) s' fun _ s'' => s'.Reads s'' :=
    fun s' _ => returns_pure (.refl s')
  have hnothing : ∀ (_ : Unit) (s' : Session), s'.Ready →
      s'.db.workflowStates = s.db.workflowStates →
      Returns (pure () : Sql Unit) s' fun _ s'' => s'.Grows s'' :=
    fun _ s' _ _ => returns_pure (Session.Reads.refl s').grows
  cases rule with
  | closed =>
    exact returns_runTransition hs hreads hfound rfl hvalid hpass (fun h => by cases h)
      (fun _ _ hready _ => returns_insertReviewFindings hready _ _ _ _) rfl
  | prOpened =>
    exact returns_runTransition hs (returns_requireExecutionLane hs.willing hctx hheld) hfound rfl
      hvalid hpass (fun h => by cases h)
      (fun _ _ hready _ => returns_insertPullRequestRow hready _) rfl
  | ciRunning =>
    exact returns_runTransition hs (returns_requireExecutionLane hs.willing hctx hheld) hfound rfl
      hvalid hpass (fun h => by cases h) hnothing rfl
  | ciPassed =>
    exact returns_runTransition hs hreads hfound rfl hvalid hpass (fun h => by cases h) hnothing rfl
  | ciFailed =>
    exact returns_runTransition hs hreads hfound rfl hvalid hpass (fun h => by cases h)
      (fun _ _ hready _ => returns_insertReviewFindings hready _ _ _ _) rfl
  | ciLimit =>
    exact returns_runTransition hs hreads hfound rfl hvalid hpass (fun h => by cases h)
      (fun _ _ hready _ => returns_insertReviewFindings hready _ _ _ _) rfl
  | afterCiFail =>
    exact returns_runTransition hs hreads hfound rfl hvalid
      (fun _ _ => returns_assertBelowFixThreshold _ (hbelow rfl)) (fun h => by cases h) hnothing rfl
  | startFixing =>
    exact returns_runTransition hs (returns_requireExecutionLane hs.willing hctx hheld) hfound rfl
      hvalid hpass (fun _ => hrunning) hnothing rfl
  | reviewLimit =>
    exact returns_runTransition hs hreads hfound rfl hvalid hpass (fun h => by cases h)
      (fun _ _ hready _ => returns_insertReviewFindings hready _ _ _ _) rfl
  | changesRequested =>
    exact returns_runTransition hs hreads hfound rfl hvalid
      (fun _ _ => returns_assertBelowFixThreshold _ (hbelow rfl)) (fun h => by cases h)
      (fun _ _ hready _ => returns_insertReviewFindings hready _ _ _ _) rfl

theorem ReconcileRule.request_key (rule : ReconcileRule) (state : FeatureExecutionState)
    (version : ℕ) (commandId : String) :
    (rule.request opts state version commandId).envelope.idempotencyKey =
      rule.key opts version := by
  cases rule <;> rfl

theorem ReconcileRule.request_scope (rule : ReconcileRule) (state : FeatureExecutionState)
    (version : ℕ) (commandId : String) :
    (rule.request opts state version commandId).handler.idempotencyScope =
      rule.command.handler.idempotencyScope := by
  cases rule <;> rfl

/-- Commands of rules that share a scope are the same command. -/
theorem ReconcileRule.command_of_scope (rule rule' : ReconcileRule)
    (h : rule.command.handler.idempotencyScope = rule'.command.handler.idempotencyScope) :
    rule.command = rule'.command := by
  revert h
  cases rule <;> cases rule' <;> first | exact fun _ => rfl | decide

theorem ReconcileRule.Unused.request (h : rule.Unused opts s.db) (state : FeatureExecutionState)
    (version : ℕ) (commandId : String) :
    (rule.request opts state version commandId).Unused s.db := by
  intro row hrow
  rw [request_key, request_scope]
  exact h version row hrow

namespace CatchingUp

theorem of_same (h : CatchingUp opts s state version) (hready : s'.Ready) (hdb : s'.db = s.db)
    (hrt : s'.runtime = s.runtime) : CatchingUp opts s' state version where
  ready := hready
  run := by
    rw [hdb]
    exact h.run
  notSkipped := h.notSkipped
  lane := by
    rw [hdb, hrt]
    exact h.lane
  automation := by
    rw [hdb]
    exact h.automation
  unused := by
    rw [hdb]
    exact h.unused

/-- **After the command of a rule the call may go on**: the run is in the target state, and what the
next command needs is as it was. -/
theorem advance {result : CommandResult} (h : CatchingUp opts s state version)
    (hgrows : s.Grows s') (htarget : rule.command.target ≠ .skipped)
    (hkeep : rule.command.pointer = .keep)
    (hfirst : rule.command ∉ issuedCommands state)
    (hissued : ∀ c ∈ rule.command :: issuedCommands state,
      c ∈ issuedCommands rule.command.target)
    (hexecute : exec (rule.request opts state version commandId).execute s = (.ok result, s')) :
    result.resultingState = rule.command.target.literal ∧
      CatchingUp opts s' rule.command.target (version + 1) := by
  have huncached := Request.cachedResult_of_unused s.runtime.now
    ((h.unused rule hfirst).request state version commandId)
  have hkeys := Request.keys_execute hexecute
  obtain ⟨ev, s₂, hevidence, hdid, hstate⟩ := Request.execute_uncached huncached hexecute
  rw [ReconcileRule.request_command] at hstate
  refine ⟨hstate, ?_⟩
  have hlocks : s₂.db.workflowLocks = s.db.workflowLocks := by
    have hrest := congrArg Db.workflowLocks hevidence
    exact hrest
  have hrequests : s₂.db.featureRequests = s.db.featureRequests := by
    have hrest := congrArg Db.featureRequests hevidence
    exact hrest
  have hstates : s₂.db.workflowStates = s.db.workflowStates := by
    have hrest := congrArg Db.workflowStates hevidence
    exact hrest
  have hfind : s₂.db.findFeatureRun opts.featureRunId opts.projectId =
      s.db.findFeatureRun opts.featureRunId opts.projectId := by
    have hrest := congrArg
      (fun db => Db.findFeatureRun db opts.featureRunId opts.projectId) hevidence
    exact hrest
  obtain ⟨found, hstep⟩ := hdid.step
  have hfound := hstep.found
  have hpointer := hstep.pointer
  rw [ReconcileRule.request_command, hkeep] at hpointer
  replace hpointer : s'.db.workflowStates = s₂.db.workflowStates := hpointer
  obtain ⟨run, hrun, hrunState, hversion⟩ := h.run
  rw [ReconcileRule.request_ref] at hfound
  replace hfound : s₂.db.findFeatureRun opts.featureRunId opts.projectId = some found := hfound
  rw [hfind, hrun] at hfound
  obtain rfl := Option.some.inj hfound
  obtain ⟨-, -, hproject⟩ := Db.findFeatureRun_some hrun
  obtain ⟨-, -, run', hrun', hid', hrequest', hversion', hstate'⟩ := hstep.moves
  rw [ReconcileRule.request_command] at hstate'
  rw [ReconcileRule.request_ref] at hid'
  replace hid' : run'.id = opts.featureRunId := hid'
  exact {
    ready := h.ready.grows hgrows
    run := by
      refine ⟨run', ?_, hstate', by omega⟩
      have hproject' : s'.db.InProject run' opts.projectId := by
        obtain ⟨freq, hfreq, hfreqId, hof⟩ := hproject
        refine ⟨freq, ?_, hfreqId.trans hrequest'.symm, hof⟩
        rw [hdid.featureRequests, hrequests]
        exact hfreq
      have hfind' := Db.findFeatureRun_eq hrun' hproject'
      rw [hid'] at hfind'
      exact hfind'
    notSkipped := htarget
    lane := by
      obtain ⟨ctx, hctx, hheld⟩ := h.lane
      refine ⟨ctx, hctx, ?_⟩
      unfold LaneHeld Db.findLock
      rw [hdid.workflowLocks, hlocks, hgrows.runtime]
      exact hheld
    automation := by
      unfold AutomationRunning
      rw [hpointer, hstates]
      exact h.automation
    unused := by
      intro other hother version' row hrow
      have hbefore : other.Unused opts s.db :=
        h.unused other fun hmem => hother (hissued _ (List.mem_cons_of_mem _ hmem))
      rcases hkeys row hrow with hold | hscope
      · exact hbefore version' row hold
      · -- a row of this command's own scope is not of another command's
        rw [ReconcileRule.request_scope] at hscope
        refine Bool.eq_false_iff.mpr fun hkey => ?_
        rw [Db.isKey, Bool.and_eq_true, beq_iff_eq, beq_iff_eq] at hkey
        have hsame := ReconcileRule.command_of_scope other rule (hkey.2.symm.trans hscope)
        rw [hsame] at hother
        exact hother (hissued _ List.mem_cons_self) }

end CatchingUp

/-- **The command of a rule returns**, and the call may go on after it. -/
theorem ReconcileRule.returns_execute {limited : ReconcileRule}
    (h : CatchingUp opts s state version)
    (hfound : s.db.findFeatureRun opts.featureRunId opts.projectId = some run)
    (hvalid : isValid state limited.command.target = true)
    (htarget : limited.command.target ≠ .skipped)
    (hfirst : limited.command ∉ issuedCommands state)
    (hissued : ∀ c ∈ limited.command :: issuedCommands state,
      c ∈ issuedCommands limited.command.target)
    (hbelow : limited.countsAttempts = true → run.fixAttemptCount < fixAttemptThreshold) :
    Returns (limited.request opts state version commandId).execute s fun result s' =>
      result.resultingState = limited.command.target.literal ∧
        CatchingUp opts s' limited.command.target (version + 1) := by
  have hrole : assertRole (limited.request opts state version commandId).envelope.actor
      (limited.request opts state version commandId).handler.requiredRole
      (limited.request opts state version commandId).handler.commandName
      (limited.request opts state version commandId).handler.requiredActorKind = .ok () := by
    cases limited <;> rfl
  have hgather : ∀ s' : Session, Returns (limited.request opts state version commandId).gather s'
      fun _ s'' => s'' = s' := by
    intro s'
    cases limited <;> exact returns_pure rfl
  have hkeep : limited.command.pointer = .keep := by
    cases limited <;> rfl
  obtain ⟨run', hrun', hrunState, hversion⟩ := h.run
  rw [hfound] at hrun'
  obtain rfl := Option.some.inj hrun'
  have hreturns := Request.returns_execute h.ready hrole
    ((h.unused limited hfirst).request state version commandId) hgather
    fun ev keys s' hready hdb hrt => by
      subst hversion
      refine limited.returns_work hready ?_ (hrunState ▸ hvalid) ?_ ?_ hbelow ev
      · rw [hdb]
        exact hfound
      · obtain ⟨ctx, hctx, hheld⟩ := h.lane
        refine ⟨ctx, hctx, ?_⟩
        rw [hdb, hrt]
        exact hheld
      · rw [hdb]
        exact h.automation
  refine (hreturns.and_of_ok fun _ _ hexecute => hexecute).imp fun result s' ⟨hgrows, hexecute⟩ => ?_
  exact h.advance hgrows htarget hkeep hfirst hissued hexecute

/-! ### One step -/

theorem returns_meanwhile {moment : ReconcileMoment} :
    Returns (meanwhile alone moment) s fun _ s' => s' = s := returns_write rfl

/-- Where nobody else is at work, a dispatch is a call of the executor. -/
theorem returns_dispatch {left : ℕ} {request : Request} {Q : CommandResult → Session → Prop}
    (h : Returns request.execute s Q) :
    Returns (dispatch alone left request) s fun p s' => Q p.1 s' := by
  obtain ⟨result, s', hexecute, hQ⟩ := h
  obtain ⟨cached, s₁, hprecheck, hrest⟩ := exec_bind_ok.mp hexecute
  have hcheck : Returns (precheck request.handler request.envelope) s fun c s' =>
      c = cached ∧ s' = s₁ := ⟨cached, s₁, hprecheck, rfl, rfl⟩
  refine returns_meanwhile.bind fun _ s₂ hs₂ => ?_
  subst hs₂
  refine (returns_read (Q := fun _ s' => s' = s₂) rfl).bind fun looked s₃ hs₃ => ?_
  subst hs₃
  refine hcheck.bind fun c s₄ ⟨hc, hs₄⟩ => ?_
  subst hc hs₄
  rcases c with _ | answer
  · have hhandle : Returns (request.handler.execute request.envelope) s₄ fun r s₅ =>
        r = result ∧ s₅ = s' := ⟨result, s', hrest, rfl, rfl⟩
    refine returns_meanwhile.bind fun _ s₅ hs₅ => ?_
    subst hs₅
    refine (returns_read (Q := fun _ s' => s' = s₅) rfl).bind fun found s₆ hs₆ => ?_
    subst hs₆
    refine hhandle.bind fun r s₇ ⟨hr, hs₇⟩ => ?_
    subst hr hs₇
    refine (returns_read (Q := fun _ s' => s' = s₇) rfl).bind fun left s₈ hs₈ => ?_
    subst hs₈
    exact returns_pure hQ
  · obtain ⟨hanswer, rfl⟩ := Prod.mk.inj hrest
    obtain rfl := Except.ok.inj hanswer
    exact returns_pure hQ

/-- The rule of a step, at the fix attempts of its run. -/
theorem returns_limitRule (hs : s.Willing) (left : ℕ) (rule : ReconcileRule)
    (hfound : s.db.findFeatureRun opts.featureRunId opts.projectId = some run) :
    Returns (limitRule alone left opts rule) s fun limited s' =>
      limited = rule.limited run.fixAttemptCount ∧ s.Reads s' := by
  unfold limitRule
  by_cases hcounts : rule.countsAttempts = true
  · rw [if_pos hcounts]
    refine returns_meanwhile.bind fun _ s₁ hs₁ => ?_
    subst hs₁
    refine (returns_query hs _).bind fun count s₂ ⟨hcount, hreads⟩ => ?_
    obtain ⟨hrun, hid, -⟩ := Db.findFeatureRun_some hfound
    have hrow := Db.runById_eq hrun
    rw [hid] at hrow
    refine returns_pure ⟨?_, hreads⟩
    rw [hcount, Db.fixAttemptCount, hrow]
    rfl
  · rw [if_neg hcounts]
    refine returns_pure ⟨?_, .refl s⟩
    cases rule <;> first | rfl | exact absurd rfl hcounts

/-- A rule that still requests changes is below the limit. -/
theorem ReconcileRule.below_of_limited {rule : ReconcileRule} {fixAttemptCount : ℕ}
    (h : (rule.limited fixAttemptCount).countsAttempts = true) :
    fixAttemptCount < fixAttemptThreshold := by
  by_contra hlimit
  have hle : fixAttemptThreshold ≤ fixAttemptCount := by omega
  cases rule <;> simp [limited, hle, countsAttempts] at h

/-- **A step with a rule returns**, and leaves less of the way. -/
theorem returns_runStep (left : ℕ) (h : CatchingUp opts s state version)
    (hselect : ReconcileRule.select opts.observed state = some rule) :
    Returns (runStep alone left opts state version) s fun r s' =>
      ∃ step next, r = some step ∧ step.action ≠ .lockRequired ∧ step.resultingState = some next ∧
        CatchingUp opts s' next (version + 1) ∧
        stepsAhead opts.observed next < stepsAhead opts.observed state := by
  obtain ⟨run, hfound, hrunState, hversion⟩ := h.run
  obtain ⟨ctx, hctx, -⟩ := h.lane
  obtain ⟨hvalid, htarget, hfirst, hissued, hless⟩ :=
    ReconcileRule.select_step hselect h.notSkipped run.fixAttemptCount
  unfold runStep
  rw [hselect]
  have hlock : ¬ (rule.needsLock = true ∧ opts.lockContext = none) := by
    rintro ⟨-, hnone⟩
    rw [hctx] at hnone
    cases hnone
  show Returns (ite _ _ _ : Sql (Option ReconcileStep)) s _
  rw [if_neg hlock]
  refine (returns_limitRule h.ready.willing left rule hfound).bind
    fun limited s₁ ⟨hlimited, hreads⟩ => ?_
  subst hlimited
  refine returns_generateId.bind fun commandId s₂ ⟨_, hdb₂, hrt₂, hdrawn₂⟩ => ?_
  have hdb : s₂.db = s.db := hdb₂.trans hreads.db
  have hrt : s₂.runtime = s.runtime := hrt₂.trans hreads.runtime
  have hgrows : s.Grows s₂ := by
    refine .of_insert hrt (hdrawn₂.trans (by rw [hreads.drawn])) fun id hid => Or.inl ?_
    rwa [hdb] at hid
  have hnext := h.of_same (h.ready.grows hgrows) hdb hrt
  refine (returns_dispatch (ReconcileRule.returns_execute hnext (hdb ▸ hfound) hvalid htarget hfirst
    hissued ReconcileRule.below_of_limited)).bind fun p s₃ ⟨hstate, hcatching⟩ => ?_
  refine returns_pure ⟨_, (rule.limited run.fixAttemptCount).command.target, rfl, ?_, ?_,
    hcatching, hless⟩
  · show (rule.limited run.fixAttemptCount).action ≠ .lockRequired
    cases (rule.limited run.fixAttemptCount) <;> decide
  · show FeatureExecutionState.ofLiteral? p.1.resultingState = _
    rw [hstate]
    exact FeatureExecutionState.ofLiteral?_literal _

/-! ### The loop -/

/-- **The loop ends where no rule is selected**, by induction on the steps left: as many are left as
there are ahead. -/
theorem returns_catchUp {left : ℕ} {c : CatchUp}
    (h : CatchingUp opts s c.currentState c.expectedVersion)
    (hleft : stepsAhead opts.observed c.currentState ≤ left) :
    Returns (catchUp alone opts left c) s fun c' s' =>
      CatchingUp opts s' c'.currentState c'.expectedVersion ∧
        ReconcileRule.select opts.observed c'.currentState = none := by
  induction left generalizing c s with
  | zero =>
    have hnone := ReconcileRule.select_of_stepsAhead (Nat.le_zero.mp hleft)
    exact returns_pure ⟨h, hnone⟩
  | succ left ih =>
    rcases hselect : ReconcileRule.select opts.observed c.currentState with _ | rule
    · have hstep : runStep alone left opts c.currentState c.expectedVersion = pure none := by
        rw [runStep, hselect]
      show Returns (runStep alone left opts c.currentState c.expectedVersion >>= _) s _
      rw [hstep]
      exact returns_pure ⟨h, hselect⟩
    · refine (returns_runStep left h hselect).bind fun r s₁ hr => ?_
      obtain ⟨step, next, hsome, haction, hresulting, hcatching, hless⟩ := hr
      subst hsome
      show Returns (ite _ _ _ : Sql CatchUp) s₁ _
      rw [if_neg haction, hresulting]
      refine ih hcatching ?_
      show stepsAhead opts.observed next ≤ left
      omega

/-! ### Two calls -/

/-- A run that a call finds undisturbed: the database takes every statement, the generated ids are
new, the lock context is the valid token of the lane, automation is running, and no key of the
call's rules was used. -/
structure ReconcileOptions.Undisturbed (opts : ReconcileOptions) (s : Session)
    (run : FeatureRun) : Prop where
  ready : s.Ready
  found : s.db.findFeatureRun opts.featureRunId opts.projectId = some run
  notSkipped : run.currentExecutionState ≠ .skipped
  lane : ∃ ctx, opts.lockContext = some ctx ∧
    LaneHeld s.db s.runtime.now opts.projectId ctx
  automation : AutomationRunning s.db opts.projectId
  unused : ∀ rule : ReconcileRule, rule.Unused opts s.db

/-- A sync inserts no row. -/
theorem Db.generatedIds_synced {db : Db} {featureRunId : String}
    {observed : ObservedPullRequestState} {id : String}
    (h : id ∈ (db.synced featureRunId observed).generatedIds) : id ∈ db.generatedIds := by
  unfold synced at h
  split at h
  · exact h
  · rw [mem_generatedIds] at h ⊢
    rcases h with hkey | hevent | houtbox | ⟨row, hrow, hrowId⟩
    · exact Or.inl hkey
    · exact Or.inr (Or.inl hevent)
    · exact Or.inr (Or.inr (Or.inl houtbox))
    · -- the `SET` list of a sync has no id
      obtain ⟨pr, hpr, rfl⟩ := List.mem_map.mp hrow
      refine Or.inr (Or.inr (Or.inr ⟨pr, hpr, ?_⟩))
      rw [← hrowId]
      unfold Table.updateRow
      split <;> rfl

/-- The loop starts from an undisturbed run, after the first sync. -/
theorem ReconcileOptions.Undisturbed.catchingUp (h : opts.Undisturbed s run)
    (hdb : s'.db = s.db.synced opts.featureRunId opts.observed.toObservedPullRequestState)
    (hrt : s'.runtime = s.runtime) (hdrawn : s'.drawn = s.drawn) :
    CatchingUp opts s' run.currentExecutionState run.version := by
  have hgrows : s.Grows s' := by
    refine .of_subset hrt hdrawn fun id hid => ?_
    rw [hdb] at hid
    exact Db.generatedIds_synced hid
  have hview : ∀ {τ : Type} (g : Db → τ), (∀ db t, g { db with pullRequests := t } = g db) →
      g s'.db = g s.db := by
    intro τ g hg
    rw [hdb]
    exact Db.synced_view hg _ _ _
  have hlocks := hview Db.workflowLocks fun _ _ => rfl
  have hstates := hview Db.workflowStates fun _ _ => rfl
  have hkeys := hview Db.idempotencyKeys fun _ _ => rfl
  have hfind := hview (fun db => db.findFeatureRun opts.featureRunId opts.projectId) fun _ _ => rfl
  exact {
    ready := h.ready.grows hgrows
    run := ⟨run, hfind.trans h.found, rfl, rfl⟩
    notSkipped := h.notSkipped
    lane := by
      unfold LaneHeld Db.findLock
      rw [hlocks, hrt]
      exact h.lane
    automation := by
      unfold AutomationRunning
      rw [hstates]
      exact h.automation
    unused := by
      unfold ReconcileRule.Unused
      rw [hkeys]
      exact fun rule _ => h.unused rule }

/-- **Reconciliation converges in one call**: undisturbed, a call returns with no rule left for the
state that it leaves the run in, so that its five steps were enough, and a second call with the same
snapshot, with whatever lock, takes no action and changes no table. -/
theorem reconcile_converges (h : opts.Undisturbed s run) :
    Returns (reconcileGithubState alone opts) s fun _ s' =>
      (∃ run', s'.db.findFeatureRun opts.featureRunId opts.projectId = some run' ∧
        ReconcileRule.select opts.observed run'.currentExecutionState = none) ∧
      ∀ (correlationId : String) (lockContext : Option LockContext) (t : Session),
        t.db = s'.db → t.Willing →
        Returns (reconcileGithubState alone { opts with correlationId, lockContext }) t
          fun result t' => result.action = .none ∧ result.actions = [] ∧ t'.db = t.db := by
  refine (returns_query h.ready.willing _).bind fun row s₁ hreturned₁ => ?_
  obtain ⟨hrow, hreads⟩ := hreturned₁
  rw [h.found] at hrow
  subst hrow
  refine returns_meanwhile.bind fun _ s₂ hs₂ => ?_
  subst hs₂
  refine (returns_sync (hreads.willing h.ready.willing) _ _).bind fun _ s₃ hreturned₃ => ?_
  obtain ⟨hdb₃, hrt₃, hdrawn₃⟩ := hreturned₃
  rw [hreads.db] at hdb₃
  have hstart := h.catchingUp hdb₃ (hrt₃.trans hreads.runtime) (hdrawn₃.trans hreads.drawn)
  have hloop : Returns (catchUp alone opts maxReconcileSteps {
      currentState := run.currentExecutionState
      expectedVersion := run.version }) s₃ _ :=
    returns_catchUp hstart (stepsAhead_le opts.observed run.currentExecutionState)
  refine hloop.bind fun c s₄ hreturned₄ => ?_
  obtain ⟨hcatching, hnone⟩ := hreturned₄
  refine returns_meanwhile.bind fun _ s₅ hs₅ => ?_
  subst hs₅
  refine (returns_sync hcatching.ready.willing _ _).bind fun _ s₆ hreturned₆ => ?_
  obtain ⟨hdb₆, _, _⟩ := hreturned₆
  obtain ⟨run', hrun', hstate', -⟩ := hcatching.run
  have hfound : s₆.db.findFeatureRun opts.featureRunId opts.projectId = some run' := by
    rw [hdb₆, ← hrun']
    unfold Db.synced
    split <;> rfl
  have hrest : ReconcileRule.select opts.observed run'.currentExecutionState = none := by
    rw [hstate']
    exact hnone
  refine returns_pure ⟨⟨run', hfound, hrest⟩, fun correlationId lockContext t ht hwilling => ?_⟩
  have hagain : Returns (reconcileGithubState alone { opts with correlationId, lockContext }) t _ :=
    returns_rest hwilling (ht ▸ hfound) hrest
  refine hagain.imp fun result t' hreturned => ?_
  obtain ⟨hresult, hdb⟩ := hreturned
  subst hresult
  refine ⟨rfl, rfl, ?_⟩
  rw [hdb, ht, hdb₆]
  exact Db.synced_synced _ _ _

end Call

/-! ### A missed webhook -/

/-- The pull request of the first feature, whose checks have failed. -/
def failedPullRequest : ObservedPullRequest :=
  { closedPullRequest with
    state := "open"
    ciStatus := "failed"
    closedAt := none }

/-- A pass of the scheduled fallback over the first feature, with the lane. -/
def lockedReconcile : ReconcileOptions :=
  { sampleReconcile failedPullRequest with
    lockContext := some { lockId := "i", fence := 1, holderId := "worker" } }

theorem ready_closedPass : closedPass.Ready where
  willing _ := rfl
  distinct := by
    intro n m h
    have hlength := congrArg String.length h
    simp [closedPass, sampleRuntime] at hlength
    omega
  fresh := by
    intro n _ hid
    -- the ids of the earlier processes have fewer of the first letter
    have hearlier : ∀ id ∈ closedPass.db.generatedIds,
        id.toList.take 6 ≠ List.replicate 6 't' := by
      decide +kernel
    refine hearlier _ hid ?_
    simp [closedPass, sampleRuntime]

/-- The keys of the cycle so far are not those of a reconciliation. -/
theorem unused_closedPass (rule : ReconcileRule) : rule.Unused lockedReconcile closedPass.db := by
  have hscopes : ∀ row ∈ closedPass.db.idempotencyKeys.rows,
      row.scope ≠ "request-changes-after-ci-fail" ∧ row.scope ≠ "start-fixing" := by
    decide +kernel
  have hkeys : ∀ rule ∈ [ReconcileRule.closed, .prOpened, .ciRunning, .ciPassed, .ciFailed,
      .ciLimit, .reviewLimit, .changesRequested], ∀ row ∈ closedPass.db.idempotencyKeys.rows,
        Db.isKey (rule.key lockedReconcile 0) rule.command.handler.idempotencyScope row = false := by
    decide +kernel
  intro version row hrow
  cases rule with
  | afterCiFail =>
    refine Bool.eq_false_iff.mpr fun hkey => ?_
    rw [Db.isKey, Bool.and_eq_true, beq_iff_eq, beq_iff_eq] at hkey
    exact (hscopes row hrow).1 hkey.2
  | startFixing =>
    refine Bool.eq_false_iff.mpr fun hkey => ?_
    rw [Db.isKey, Bool.and_eq_true, beq_iff_eq, beq_iff_eq] at hkey
    exact (hscopes row hrow).2 hkey.2
  | closed => exact hkeys .closed (by simp) row hrow
  | prOpened => exact hkeys .prOpened (by simp) row hrow
  | ciRunning => exact hkeys .ciRunning (by simp) row hrow
  | ciPassed => exact hkeys .ciPassed (by simp) row hrow
  | ciFailed => exact hkeys .ciFailed (by simp) row hrow
  | ciLimit => exact hkeys .ciLimit (by simp) row hrow
  | reviewLimit => exact hkeys .reviewLimit (by simp) row hrow
  | changesRequested => exact hkeys .changesRequested (by simp) row hrow

theorem undisturbed_closedPass : ∃ run, lockedReconcile.Undisturbed closedPass run := by
  have hrun : (closedPass.db.findFeatureRun "run-1" "P").map (·.currentExecutionState) =
      some .ciRunning := by
    decide +kernel
  obtain ⟨run, hfound, hstate⟩ := Option.map_eq_some_iff.mp hrun
  exact ⟨run, {
    ready := ready_closedPass
    found := hfound
    notSkipped := by
      rw [hstate]
      decide
    lane := by
      refine ⟨{ lockId := "i", fence := 1, holderId := "worker" }, rfl, ?_⟩
      unfold LaneHeld
      exact (by decide +kernel : checkLockFence (closedPass.db.findLock "i") 6 {
        lockId := "i", fence := 1, holderId := "worker"
        projectId := some "P", resourceKey := some (executionLane "P") } = .ok ())
    automation := by
      unfold AutomationRunning
      decide +kernel
    unused := unused_closedPass }⟩

theorem reconcile_converges_closedPass :
    Returns (reconcileGithubState alone lockedReconcile) closedPass fun _ s' =>
      ∀ t : Session, t.db = s'.db → t.Willing →
        Returns (reconcileGithubState alone lockedReconcile) t
          fun result t' => result.action = .none ∧ result.actions = [] ∧ t'.db = t.db := by
  obtain ⟨run, h⟩ := undisturbed_closedPass
  exact (reconcile_converges h).imp fun _ _ hs' t ht => hs'.2 _ _ t ht

end MiniCoder
