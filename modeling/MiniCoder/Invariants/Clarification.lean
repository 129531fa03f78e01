import MiniCoder.Commands.Handlers.Clarification
import MiniCoder.System

/-!
# What holds of a clarification session

The machine of the five clarification commands: an event is a call of one of them by any actor, for
any session, with any payload.

* `effect_of_did`: what a call that did its work found and wrote, in three cases.
* `SessionInvariant`: every question of a round that is over has an answer; `invariant_step`: each
  effect keeps it.
* `clarification_sound`: **the rounds stay within their limit, a question has at most one answer, and
  a complete session has an answer to every question it ever asked**, in every run.
-/

open Storage Storage.Action Runs

namespace MiniCoder

/-! ### The machine -/

/-- The commands of a clarification. -/
inductive ClarificationCommand
  | startClarification
  | recordClarificationAnswer
  | requestAnotherClarificationRound
  | completeClarification
  | blockClarification
  deriving DecidableEq, Repr

namespace ClarificationCommand

/-- The payload of a command. -/
abbrev Payload : ClarificationCommand → Type
  | startClarification => StartClarificationPayload
  | recordClarificationAnswer => RecordClarificationAnswerPayload
  | requestAnotherClarificationRound => RequestAnotherClarificationRoundPayload
  | completeClarification => CompleteClarificationPayload
  | blockClarification => BlockClarificationPayload

/-- The handler that the registry maps a command to. -/
def handler : (command : ClarificationCommand) → CommandHandler command.Payload
  | startClarification => startClarificationHandler
  | recordClarificationAnswer => recordClarificationAnswerHandler
  | requestAnotherClarificationRound => requestAnotherClarificationRoundHandler
  | completeClarification => completeClarificationHandler
  | blockClarification => blockClarificationHandler

/-- The session that a command starts a round of. -/
def startRef : (command : ClarificationCommand) → command.Payload → Option SessionRef
  | startClarification, payload => some payload
  | recordClarificationAnswer, _ => none
  | requestAnotherClarificationRound, _ => none
  | completeClarification, _ => none
  | blockClarification, _ => none

end ClarificationCommand

/-- The handlers of a clarification. -/
def clarificationCommands : CommandFamily where
  Name := ClarificationCommand
  Payload := ClarificationCommand.Payload
  handler := ClarificationCommand.handler
  evidence_reads command _ := by
    cases command <;> exact frame_pure ()

/-- A call of a clarification command. -/
abbrev ClarificationCall := clarificationCommands.Call

/-- The session that a call starts a round of. -/
def ClarificationCall.startRef (call : ClarificationCall) : Option SessionRef :=
  ClarificationCommand.startRef call.command call.envelope.payload

/-! ### What a call did -/

/-- The session is left with this status and this round. -/
def Db.SessionLeft (db db' : Db) (session : ClarificationSession) (status : ClarificationStatus)
    (round : ℕ) : Prop :=
  db'.clarification.sessions = db.clarification.sessions.update
    (ClarificationSession.isAt session.id session.version)
    (ClarificationSession.moved status round (nextVersion session.version))
    (ClarificationSession.moved_keys _ _ _)

/-- What a call that did its work found and wrote in the tables of the clarification; `start` is the
session it was to start a round of. -/
inductive ClarificationEffect (start : Option SessionRef) (db db' : Db) : Prop
  /-- A round was started, which asks the open questions of the project. -/
  | started (session : ClarificationSession) (fresh : List ClarificationQuestion)
      (found : session ∈ db.clarification.sessions.rows)
      (ref : start = some ⟨session.id, session.projectId, session.version⟩)
      (status : session.status = .required)
      (limit : session.round < session.maxRounds)
      (left : db.SessionLeft db' session .inProgress (session.round + 1))
      (questions : db'.clarification.questions.rows = db.clarification.questions.rows ++ fresh)
      (asks : List.Forall₂ (ClarificationQuestion.Asks session.id (session.round + 1)) fresh
        (db.nextQuestions session.projectId))
      (answers : db'.clarification.answers = db.clarification.answers)
      (planning : db'.planning = db.planning)
  /-- The session was moved on: to another round or to its end, with its round answered, or blocked. -/
  | moved (session : ClarificationSession) (toStatus : ClarificationStatus)
      (found : session ∈ db.clarification.sessions.rows)
      (status : toStatus = .blocked ∨
        (toStatus = .required ∨ toStatus = .complete) ∧ db.unanswered session.id session.round = [])
      (left : db.SessionLeft db' session toStatus session.round)
      (questions : db'.clarification.questions = db.clarification.questions)
      (answers : db'.clarification.answers = db.clarification.answers)
      (planning : db'.planning = db.planning)
  /-- A question was answered. -/
  | answered (question : ClarificationQuestion) (row : ClarificationAnswer)
      (p : ClarificationQuestion → Bool) (now : ℤ) (version : ℕ)
      (found : question ∈ db.clarification.questions.rows)
      (answer : row.clarificationQuestionId = question.id)
      (sessions : db'.clarification.sessions = db.clarification.sessions)
      (questions : db'.clarification.questions = db.clarification.questions.update p
        (ClarificationQuestion.answered now version) (ClarificationQuestion.answered_keys _ _))
      (answers : db.clarification.answers.insert? row = some db'.clarification.answers)
      (planning : db'.planning = db.planning)

theorem Db.findClarificationSession_some {db : Db} {id projectId : String}
    {session : ClarificationSession} (h : db.findClarificationSession id projectId = some session) :
    session ∈ db.clarification.sessions.rows ∧ session.id = id ∧ session.projectId = projectId := by
  have hp := db.clarification.sessions.prop_of_find? h
  rw [Bool.and_eq_true, beq_iff_eq, beq_iff_eq] at hp
  exact ⟨db.clarification.sessions.mem_of_find? h, hp⟩

theorem Db.findClarificationQuestion_some {db : Db} {id clarificationSessionId : String}
    {question : ClarificationQuestion}
    (h : db.findClarificationQuestion id clarificationSessionId = some question) :
    question ∈ db.clarification.questions.rows ∧ question.id = id := by
  have hp := db.clarification.questions.prop_of_find? h
  rw [Bool.and_eq_true, beq_iff_eq] at hp
  exact ⟨db.clarification.questions.mem_of_find? h, hp.1⟩

/-- An edge into `clarification_in_progress` starts at `clarification_required`. -/
theorem required_of_inProgress {status : ClarificationStatus}
    (h : clarificationMachine.isValid status .inProgress = true) : status = .required := by
  revert h
  cases status <;> decide

section Bodies

variable {P : Type} {envelope : CommandEnvelope P} {ref : SessionRef} {s s' : Session}
  {result : CommandResult}

/-- What a command that moves a session and asks nothing wrote, whatever it records beside. -/
theorem moved_of_moveSession (move : SessionMove) (h : exec (moveSession envelope ref move) s = (.ok result, s'))
    (hround : move.round = fun session => session.round)
    (hstatus : ∀ session s₁ s₂, exec (move.guard session) s₁ = (.ok (), s₂) →
      move.toStatus = .blocked ∨ (move.toStatus = .required ∨ move.toStatus = .complete) ∧
        s₁.db.unanswered ref.clarificationSessionId session.round = [])
    (heffects : ∀ session, Frame (fun s : Session => (s.db.clarification.sessions,
      s.db.clarification.questions, s.db.clarification.answers, s.db.planning))
      (move.effects session)) :
    ClarificationEffect none s.db s'.db := by
  obtain ⟨session, hfind, hversion, -, ⟨s₁, s₂, hdb₁, -, hguard⟩, s₃, s₄, hput, hdone, hlast⟩ :=
    moveSession_ok h
  obtain ⟨hmem, hid, -⟩ := Db.findClarificationSession_some hfind
  have hkept := (heffects session).of_exec hdone
  simp only [Prod.mk.injEq] at hkept
  obtain ⟨hsessions, hquestions, hanswers, hplanning⟩ := hkept
  have hclar : s'.db.clarification = s₄.db.clarification :=
    (congrArg Db.clarification hlast : s'.db.untraced.clarification = s₄.db.untraced.clarification)
  have hplan : s'.db.planning = s₄.db.planning :=
    (congrArg Db.planning hlast : s'.db.untraced.planning = s₄.db.untraced.planning)
  have hcheck := hstatus session s₁ s₂ hguard
  rw [hdb₁, ← hid] at hcheck
  refine .moved session move.toStatus hmem hcheck ?_ ?_ ?_ ?_
  · rw [Db.SessionLeft, hclar, hsessions, hput, hid, hversion, ← hversion, hround]
    rfl
  · rw [hclar, hquestions, hput]
    rfl
  · rw [hclar, hanswers, hput]
    rfl
  · rw [hplan, hplanning, hput]
    rfl

/-- What a start that did its work wrote. -/
theorem started_of_body {envelope : CommandEnvelope StartClarificationPayload}
    (h : exec (moveSession envelope envelope.payload (startMove envelope)) s = (.ok result, s')) :
    ClarificationEffect (some envelope.payload) s.db s'.db := by
  obtain ⟨session, hfind, hversion, hvalid, ⟨s₁, s₂, -, -, hguard⟩, s₃, s₄, hput, hasked, hlast⟩ :=
    moveSession_ok h
  obtain ⟨hmem, hid, hproject⟩ := Db.findClarificationSession_some hfind
  obtain ⟨hkept, fresh, hrows, hasks⟩ := askQuestions_ok hasked
  have hlimit : session.round < session.maxRounds := requireRound_ok hguard
  have hclar : s'.db.clarification = s₄.db.clarification :=
    (congrArg Db.clarification hlast : s'.db.untraced.clarification = s₄.db.untraced.clarification)
  have hplan : s'.db.planning = s₄.db.planning :=
    (congrArg Db.planning hlast : s'.db.untraced.planning = s₄.db.untraced.planning)
  have hunasked := congrArg Prod.fst hkept
  have hsessions : s₄.db.clarification.sessions = s₃.db.clarification.sessions :=
    congrArg (fun db => db.clarification.sessions) hunasked
  have hanswers : s₄.db.clarification.answers = s₃.db.clarification.answers :=
    congrArg (fun db => db.clarification.answers) hunasked
  have hplanning : s₄.db.planning = s₃.db.planning := congrArg (fun db => db.planning) hunasked
  have hnext : s₃.db.nextQuestions envelope.payload.projectId =
      s.db.nextQuestions session.projectId := by
    rw [hput, hproject]
    rfl
  have hquestions : s₃.db.clarification.questions = s.db.clarification.questions := by
    rw [hput]
    rfl
  refine .started session fresh hmem ?_ (required_of_inProgress hvalid) hlimit ?_ ?_ ?_ ?_ ?_
  · rw [hid, hproject, hversion]
  · rw [Db.SessionLeft, hclar, hsessions, hput, hid, hversion, ← hversion]
    rfl
  · rw [hclar, hrows, hquestions]
  · rw [← hnext, hid]
    exact hasks
  · rw [hclar, hanswers, hput]
    rfl
  · rw [hplan, hplanning, hput]
    rfl

end Bodies

/-- The effect of a call does not look at its keys and its record. -/
theorem ClarificationEffect.untraced {start : Option SessionRef} {db db' : Db}
    (h : ClarificationEffect start db db') :
    ClarificationEffect start db.untraced db'.untraced := by
  cases h with
  | started session fresh found ref status limit left questions asks answers planning =>
    exact .started session fresh found ref status limit left questions asks answers planning
  | moved session toStatus found status left questions answers planning =>
    exact .moved session toStatus found status left questions answers planning
  | answered question row p now version found answer sessions questions answers planning =>
    exact .answered question row p now version found answer sessions questions answers planning

/-- **What a call that did its work found and wrote.** -/
theorem ClarificationCall.effect_of_did {db : Db} {call : ClarificationCall} (h : call.Did db) :
    ClarificationEffect call.startRef db.untraced
      (clarificationCommands.next db call).untraced := by
  obtain ⟨ev, s₁, s₂, result, hbefore, -, hbody, hafter⟩ := h.work
  rw [hafter, ← hbefore]
  refine ClarificationEffect.untraced ?_
  rcases call with ⟨command, envelope, rt⟩
  cases command with
  | startClarification => exact started_of_body hbody
  | recordClarificationAnswer =>
    obtain ⟨question, row, hfind, -, hrow, hsessions, hquestions, hanswers, hplanning⟩ :=
      recordAnswer_ok hbody
    obtain ⟨hmem, hid⟩ := Db.findClarificationQuestion_some hfind
    exact .answered question row _ _ _ hmem (hrow.trans hid.symm) hsessions hquestions hanswers
      hplanning
  | requestAnotherClarificationRound =>
    refine moved_of_moveSession (requestAnotherMove envelope) hbody rfl
      (fun session s₃ s₄ hguard => Or.inr ⟨Or.inl rfl, ?_⟩) fun _ => frame_pure _
    obtain ⟨_, s₅, hround, hanswers⟩ := exec_bind_ok.mp hguard
    obtain rfl : s₃ = s₅ := by
      have hlimit := requireRound_ok hround
      rw [SessionRef.requireRound, if_neg (Nat.not_le.mpr hlimit)] at hround
      exact (Prod.mk.inj hround).2
    exact requireAnswers_ok hanswers
  | completeClarification =>
    exact moved_of_moveSession (completeMove envelope) hbody rfl
      (fun session s₃ s₄ hguard => Or.inr ⟨Or.inr rfl, requireAnswers_ok hguard⟩)
      fun _ => frame_insertClarificationDecision (fun _ _ _ => rfl) (fun _ _ => rfl) _ _ _ _
  | blockClarification =>
    exact moved_of_moveSession (blockMove envelope) hbody rfl (fun _ _ _ _ => Or.inl rfl)
      fun _ => frame_insertClarificationDecision (fun _ _ _ => rfl) (fun _ _ => rfl) _ _ _ _

/-! ### The invariant -/

theorem Db.isAnswered_iff {db : Db} {id : String} : db.isAnswered id = true ↔
    ∃ answer ∈ db.clarification.answers.rows, answer.clarificationQuestionId = id := by
  rw [Db.isAnswered, Table.find?, List.find?_isSome]
  simp only [beq_iff_eq]

/-- What holds of a session between any two commands: its rounds stay within their limit, no question
is of a later round, and every question of a round that is over has an answer. -/
structure SessionInvariant (clarificationSessionId : String) (db : Db) : Prop where
  limit : ∀ session ∈ db.clarification.sessions.rows, session.id = clarificationSessionId →
    session.round ≤ session.maxRounds
  asked : ∀ session ∈ db.clarification.sessions.rows, session.id = clarificationSessionId →
    ∀ question ∈ db.clarification.questions.rows,
      question.clarificationSessionId = clarificationSessionId → question.round ≤ session.round
  settled : ∀ session ∈ db.clarification.sessions.rows, session.id = clarificationSessionId →
    ∀ question ∈ db.clarification.questions.rows,
      question.clarificationSessionId = clarificationSessionId →
      question.round < session.round ∨ session.status = .required ∨ session.status = .complete →
        db.isAnswered question.id = true

/-- The sessions after one was moved: this one, as it was left, and the others as they were. -/
theorem Db.SessionLeft.mem {db db' : Db} {session : ClarificationSession}
    {status : ClarificationStatus} {round : ℕ} (h : db.SessionLeft db' session status round)
    (hsession : session ∈ db.clarification.sessions.rows) {x : ClarificationSession}
    (hx : x ∈ db'.clarification.sessions.rows) :
    x = session.moved status round (nextVersion session.version) ∨
      (x ∈ db.clarification.sessions.rows ∧ x.id ≠ session.id) := by
  have hone : ∀ r' ∈ db.clarification.sessions.rows,
      ClarificationSession.isAt session.id session.version r' = true → r' = session := by
    intro r' hr' hat
    rw [ClarificationSession.isAt, Bool.and_eq_true, beq_iff_eq] at hat
    exact db.clarification.sessions.eq_of_clash hr' hsession (decide_eq_true hat.1)
  rw [h, Table.mem_update_one hsession (by simp [ClarificationSession.isAt]) hone] at hx
  rcases hx with hmoved | ⟨hold, hne⟩
  · exact Or.inl hmoved
  · refine Or.inr ⟨hold, fun hid => hne ?_⟩
    exact db.clarification.sessions.eq_of_clash hold hsession (decide_eq_true hid)

theorem exists_of_forall₂ {α β : Type} {R : α → β → Prop} {l : List α} {l' : List β} {a : α}
    (h : List.Forall₂ R l l') (ha : a ∈ l) : ∃ b, R a b := by
  induction h with
  | nil => cases ha
  | cons hab _ ih =>
    rcases List.mem_cons.mp ha with rfl | hmem
    · exact ⟨_, hab⟩
    · exact ih hmem

/-- Every effect of a call keeps the invariant of every session. -/
theorem invariant_step {clarificationSessionId : String} {start : Option SessionRef} {db db' : Db}
    (h : SessionInvariant clarificationSessionId db) (heffect : ClarificationEffect start db db') :
    SessionInvariant clarificationSessionId db' := by
  cases heffect with
  | started session fresh found ref status limit left questions asks answers planning =>
    have hanswered : ∀ id, db'.isAnswered id = db.isAnswered id := by
      intro id
      rw [Db.isAnswered, Db.isAnswered, answers]
    have hquestion : ∀ question ∈ db'.clarification.questions.rows,
        question ∈ db.clarification.questions.rows ∨
          (question.clarificationSessionId = session.id ∧ question.round = session.round + 1) := by
      intro question hq
      rw [questions, List.mem_append] at hq
      rcases hq with hold | hfresh
      · exact Or.inl hold
      · obtain ⟨asked, hasks⟩ := exists_of_forall₂ asks hfresh
        exact Or.inr ⟨hasks.session, hasks.round⟩
    refine ⟨?_, ?_, ?_⟩
    · intro x hx hid
      rcases left.mem found hx with rfl | ⟨hold, -⟩
      · exact limit
      · exact h.limit x hold hid
    · intro x hx hid question hq hsession
      rcases left.mem found hx with rfl | ⟨hold, hne⟩
      · rcases hquestion question hq with hold | ⟨-, hround⟩
        · exact (h.asked session found hid question hold hsession).trans (Nat.le_succ _)
        · exact hround.le
      · rcases hquestion question hq with hq' | ⟨hof, -⟩
        · exact h.asked x hold hid question hq' hsession
        · exact absurd (hid.trans (hsession.symm.trans hof)) hne
    · intro x hx hid question hq hsession hover
      rw [hanswered]
      rcases left.mem found hx with rfl | ⟨hold, hne⟩
      · -- the rounds before the new one are over: the session was waiting for it
        rcases hquestion question hq with hq' | ⟨-, hround⟩
        · exact h.settled session found hid question hq' hsession (Or.inr (Or.inl status))
        · rcases hover with hlt | hreq | hcomplete
          · exact absurd hlt (by rw [hround]; exact Nat.lt_irrefl _)
          · cases hreq
          · cases hcomplete
      · rcases hquestion question hq with hq' | ⟨hof, -⟩
        · exact h.settled x hold hid question hq' hsession hover
        · exact absurd (hid.trans (hsession.symm.trans hof)) hne
  | moved session toStatus found status left questions answers planning =>
    have hanswered : ∀ id, db'.isAnswered id = db.isAnswered id := by
      intro id
      rw [Db.isAnswered, Db.isAnswered, answers]
    refine ⟨?_, ?_, ?_⟩
    · intro x hx hid
      rcases left.mem found hx with rfl | ⟨hold, -⟩
      · exact h.limit session found hid
      · exact h.limit x hold hid
    · intro x hx hid question hq hsession
      rw [questions] at hq
      rcases left.mem found hx with rfl | ⟨hold, -⟩
      · exact h.asked session found hid question hq hsession
      · exact h.asked x hold hid question hq hsession
    · intro x hx hid question hq hsession hover
      rw [hanswered]
      rw [questions] at hq
      rcases left.mem found hx with rfl | ⟨hold, -⟩
      · rcases Nat.lt_or_eq_of_le (h.asked session found hid question hq hsession) with
          hlt | hround
        · exact h.settled session found hid question hq hsession (Or.inl hlt)
        · -- a question of the current round: the guard asked for its answer
          have hnone : db.unanswered session.id session.round = [] := by
            rcases status with rfl | ⟨-, hnone⟩
            · rcases hover with hlt | hreq | hcomplete
              · have hlt' : question.round < session.round := hlt
                omega
              · cases hreq
              · cases hcomplete
            · exact hnone
          by_contra hopen
          have hmem : question ∈ db.unanswered session.id session.round := by
            refine List.mem_filter.mpr ⟨hq, ?_⟩
            have hid' : session.id = clarificationSessionId := hid
            simp [hsession, hid', hround, Bool.eq_false_iff.mpr hopen]
          rw [hnone] at hmem
          cases hmem
      · exact h.settled x hold hid question hq hsession hover
  | answered question row p now version found answer sessions questions answers planning =>
    have hanswered : ∀ id, db.isAnswered id = true → db'.isAnswered id = true := by
      intro id hid
      obtain ⟨a, ha, hof⟩ := Db.isAnswered_iff.mp hid
      exact Db.isAnswered_iff.mpr ⟨a, (Table.mem_insert? answers).mpr (Or.inl ha), hof⟩
    have hquestion : ∀ x ∈ db'.clarification.questions.rows,
        ∃ y ∈ db.clarification.questions.rows, x.id = y.id ∧
          x.clarificationSessionId = y.clarificationSessionId ∧ x.round = y.round := by
      intro x hx
      rw [questions, Table.mem_update] at hx
      obtain ⟨y, hy, rfl⟩ := hx
      refine ⟨y, hy, ?_⟩
      unfold Table.updateRow
      split
      · exact ⟨rfl, rfl, rfl⟩
      · exact ⟨rfl, rfl, rfl⟩
    refine ⟨?_, ?_, ?_⟩
    · intro x hx hid
      rw [sessions] at hx
      exact h.limit x hx hid
    · intro x hx hid q hq hsession
      rw [sessions] at hx
      obtain ⟨y, hy, -, hof, hround⟩ := hquestion q hq
      rw [hround]
      exact h.asked x hx hid y hy (hof.symm.trans hsession)
    · intro x hx hid q hq hsession hover
      rw [sessions] at hx
      obtain ⟨y, hy, hqid, hof, hround⟩ := hquestion q hq
      rw [hround] at hover
      rw [hqid]
      exact hanswered _ (h.settled x hx hid y hy (hof.symm.trans hsession) hover)

/-! ### Runs -/

/-- A call keeps the invariant of every session. -/
theorem invariant_next {clarificationSessionId : String} {db : Db}
    (h : SessionInvariant clarificationSessionId db) (call : ClarificationCall) :
    SessionInvariant clarificationSessionId (clarificationCommands.next db call) := by
  rcases CommandFamily.next_cases db call with hsame | hdid
  · rw [hsame]
    exact h
  · have huntraced : SessionInvariant clarificationSessionId db.untraced :=
      ⟨h.limit, h.asked, h.settled⟩
    have hstep := invariant_step huntraced (ClarificationCall.effect_of_did hdid)
    exact ⟨hstep.limit, hstep.asked, hstep.settled⟩

/-- A question stays in its session and its round. -/
def KeepsQuestions (db db' : Db) : Prop :=
  ∀ question ∈ db.clarification.questions.rows, ∃ question' ∈ db'.clarification.questions.rows,
    question'.id = question.id ∧
    question'.clarificationSessionId = question.clarificationSessionId ∧
    question'.round = question.round

theorem keepsQuestions_step {start : Option SessionRef} {db db' : Db}
    (heffect : ClarificationEffect start db db') : KeepsQuestions db db' := by
  intro question hq
  cases heffect with
  | started session fresh found ref status limit left questions asks answers planning =>
    exact ⟨question, by rw [questions]; exact List.mem_append_left _ hq, rfl, rfl, rfl⟩
  | moved session toStatus found status left questions answers planning =>
    exact ⟨question, by rw [questions]; exact hq, rfl, rfl, rfl⟩
  | answered asked row p now version found answer sessions questions answers planning =>
    refine ⟨_, by rw [questions]; exact Table.mem_update.mpr ⟨question, hq, rfl⟩, ?_⟩
    unfold Table.updateRow
    split
    · exact ⟨rfl, rfl, rfl⟩
    · exact ⟨rfl, rfl, rfl⟩

theorem keepsQuestions_run (db : Db) (calls : List ClarificationCall) :
    KeepsQuestions db (run clarificationCommands.next db calls) := by
  refine run_rel (C := fun _ _ => True) (fun db q hq => ⟨q, hq, rfl, rfl, rfl⟩) ?_ ?_
    (along_of_forall (fun _ _ => trivial) db calls)
  · intro a b c hab hbc question hq
    obtain ⟨q', hq', hid, hof, hround⟩ := hab question hq
    obtain ⟨q'', hq'', hid', hof', hround'⟩ := hbc q' hq'
    exact ⟨q'', hq'', hid'.trans hid, hof'.trans hof, hround'.trans hround⟩
  · intro db call _
    rcases CommandFamily.next_cases db call with hsame | hdid
    · rw [hsame]
      exact fun q hq => ⟨q, hq, rfl, rfl, rfl⟩
    · have hstep := keepsQuestions_step (ClarificationCall.effect_of_did hdid)
      exact hstep

/-- A session as it is inserted: it requires clarification, and has asked nothing yet. -/
structure SessionOpened (clarificationSessionId : String) (db : Db) : Prop where
  fresh : ∀ session ∈ db.clarification.sessions.rows, session.id = clarificationSessionId →
    session.status = .required ∧ session.round = 0
  unasked : ∀ question ∈ db.clarification.questions.rows,
    question.clarificationSessionId ≠ clarificationSessionId

theorem SessionOpened.invariant {clarificationSessionId : String} {db : Db}
    (h : SessionOpened clarificationSessionId db) : SessionInvariant clarificationSessionId db where
  limit session hsession hid := by
    rw [(h.fresh session hsession hid).2]
    exact Nat.zero_le _
  asked _ _ _ question hq hof := absurd hof (h.unasked question hq)
  settled _ _ _ question hq hof _ := absurd hof (h.unasked question hq)

/-- What the claim asks of one state: the rounds are within their limit, and a question has at most
one answer. -/
structure ClarificationSound (clarificationSessionId : String) (db : Db) : Prop where
  limit : ∀ session ∈ db.clarification.sessions.rows, session.id = clarificationSessionId →
    session.round ≤ session.maxRounds
  oneAnswer : ∀ answer ∈ db.clarification.answers.rows,
    ∀ answer' ∈ db.clarification.answers.rows,
      answer.clarificationQuestionId = answer'.clarificationQuestionId → answer = answer'

/-- **A session keeps to its limit of rounds, a question has at most one answer, and a complete
session has an answer to every question it ever asked**, in every run of the five commands from the
opening of the session. -/
theorem clarification_sound {clarificationSessionId : String} {db : Db}
    (hopened : SessionOpened clarificationSessionId db) (calls : List ClarificationCall) :
    Throughout clarificationCommands.next (ClarificationSound clarificationSessionId) db calls ∧
      ∀ before after, calls = before ++ after →
        ∀ question ∈ (run clarificationCommands.next db before).clarification.questions.rows,
          question.clarificationSessionId = clarificationSessionId →
          ∀ session ∈ (run clarificationCommands.next db calls).clarification.sessions.rows,
            session.id = clarificationSessionId → session.status = .complete →
              ∃ answer ∈ (run clarificationCommands.next db calls).clarification.answers.rows,
                answer.clarificationQuestionId = question.id := by
  have hall : Throughout clarificationCommands.next (SessionInvariant clarificationSessionId) db
      calls :=
    throughout_of_step (P := SessionInvariant clarificationSessionId) (C := fun _ _ => True) (fun _ call h _ => invariant_next h call)
      hopened.invariant (along_of_forall (fun _ _ => trivial) db calls)
  constructor
  · refine hall.imp fun db' h => ⟨h.limit, ?_⟩
    intro answer ha answer' ha' hof
    exact db'.clarification.answers.eq_of_clash ha ha' (decide_eq_true (Or.inr hof))
  · rintro before after rfl question hq hof session hsession hid hcomplete
    have hend := hall.last
    rw [run_append] at hend hsession ⊢
    -- the question is still one of the session's
    obtain ⟨question', hq', hqid, hof', -⟩ := keepsQuestions_run _ after question hq
    have hanswered := hend.settled session hsession hid question' hq' (hof'.trans hof)
      (Or.inr (Or.inr hcomplete))
    rw [hqid] at hanswered
    exact Db.isAnswered_iff.mp hanswered

/-! ### A run on a sample session -/

/-- The sample project with a session that is to ask one question. -/
def sampleSessionDb : Db :=
  { sampleDb with
    clarification := {
      sessions := .ofList [{ id := "session", projectId := "P", status := .required }] }
    planning := {
      assessments := .ofList [⟨"assessment", "P"⟩]
      questions := .ofList [
        { id := "open", assessmentId := "assessment", question := "Which database?" }] } }

/-- A call under a key of its own. -/
def sampleClarificationCall (command : ClarificationCommand) (actorKind : ActorKind) (key : String)
    (now : ℕ) (payload : command.Payload) : ClarificationCall where
  command
  envelope := {
    commandId := key, idempotencyKey := key, payload, actor := ⟨"actor", .admin, actorKind⟩
    correlationId := key }
  runtime := sampleRuntime now

/-- The first round is started, and its question is answered. -/
def sampleRound : List ClarificationCall := [
  sampleClarificationCall .startClarification .human "start" 1 ⟨"session", "P", 1⟩,
  sampleClarificationCall .recordClarificationAnswer .human "answer" 2 {
    clarificationQuestionId := "tii", clarificationSessionId := "session", projectId := "P"
    answer := "PostgreSQL", expectedQuestionVersion := 1 }]

/-- The session is completed. -/
def sampleCompletion : ClarificationCall :=
  sampleClarificationCall .completeClarification .human "complete" 3 ⟨"session", "P", 2⟩

theorem sampleSession_opened : SessionOpened "session" sampleSessionDb := by
  constructor
  · intro session hsession _
    obtain rfl : session = { id := "session", projectId := "P", status := .required } :=
      List.mem_singleton.mp hsession
    exact ⟨rfl, rfl⟩
  · intro question hq
    cases hq

/-- The question of the sample session, when the session is complete. -/
theorem clarification_sound_complete :
    ∃ answer ∈ (run clarificationCommands.next sampleSessionDb
        (sampleRound ++ [sampleCompletion])).clarification.answers.rows,
      answer.clarificationQuestionId = "tii" := by
  refine (clarification_sound sampleSession_opened (sampleRound ++ [sampleCompletion])).2
    sampleRound [sampleCompletion] rfl
    { id := "tii", clarificationSessionId := "session", question := "Which database?"
      askedAt := some 1, answeredAt := some 2, version := 2 } ?_ rfl
    { id := "session", projectId := "P", status := .complete, round := 1, version := 3 } ?_ rfl rfl
  · decide +kernel
  · decide +kernel

end MiniCoder
