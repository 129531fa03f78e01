import MiniCoder.Commands.RowMove

/-!
# The handlers of `commands/handlers/clarification`

A clarification session asks the open questions of its project in rounds.  Four of the handlers move
the row of the session; `SessionMove` is what differs from one to the next.  The fifth records the
answer to a question.

* `moveSession_ok`, `recordAnswer_ok`: what a command that did its work found and wrote.
* `askQuestions_ok`: the questions of a round that was started.
-/

open Storage Storage.Action

namespace MiniCoder

/-! ### The tables -/

/-- The `clarification_sessions` table. -/
def clarificationSessionTable : TableOf Db ClarificationSession where
  get db := db.clarification.sessions
  put db t := { db with clarification := { db.clarification with sessions := t } }
  get_put _ _ := rfl

/-- The `clarification_questions` table. -/
def clarificationQuestionTable : TableOf Db ClarificationQuestion where
  get db := db.clarification.questions
  put db t := { db with clarification := { db.clarification with questions := t } }
  get_put _ _ := rfl

/-- The `clarification_answers` table. -/
def clarificationAnswerTable : TableOf Db ClarificationAnswer where
  get db := db.clarification.answers
  put db t := { db with clarification := { db.clarification with answers := t } }
  get_put _ _ := rfl

/-- The `clarification_decisions` table. -/
def clarificationDecisionTable : TableOf Db ClarificationDecision where
  get db := db.clarification.decisions
  put db t := { db with clarification := { db.clarification with decisions := t } }
  get_put _ _ := rfl

namespace Db

/-- `SELECT … FROM clarification_sessions WHERE id = ? AND project_id = ?`. -/
def findClarificationSession (db : Db) (id projectId : String) : Option ClarificationSession :=
  db.clarification.sessions.find? fun session => session.id == id && session.projectId == projectId

/-- `EXISTS (SELECT 1 FROM clarification_answers WHERE clarification_question_id = ?)`. -/
def isAnswered (db : Db) (clarificationQuestionId : String) : Bool :=
  (db.clarification.answers.find? fun answer =>
    answer.clarificationQuestionId == clarificationQuestionId).isSome

/-- The questions of a round that no answer is recorded for. -/
def unanswered (db : Db) (clarificationSessionId : String) (round : ℕ) :
    List ClarificationQuestion :=
  db.clarification.questions.select fun question =>
    question.clarificationSessionId == clarificationSessionId && question.round == round &&
      !db.isAnswered question.id

/-- The open planning questions of a project, in the order they are asked in. -/
def openPlanningQuestions (db : Db) (projectId : String) : List PlanningQuestion :=
  db.planning.questions.selectBy
    (fun question => question.answer.isNone && (db.planning.assessments.find? fun assessment =>
      assessment.id == question.assessmentId && assessment.projectId == projectId).isSome)
    fun question question' => decide (question.round < question'.round) ||
      (question.round == question'.round && decide (question.id < question'.id))

end Db

/-! ### Moves of a session -/

/-- The fields of the payloads that name a session. -/
structure SessionRef where
  clarificationSessionId : String
  projectId : String
  expectedVersion : ℕ
  deriving DecidableEq, Repr

namespace SessionRef

variable (ref : SessionRef)

/-- The 404 of a missing session. -/
def notFound (clarificationSessionId projectId correlationId : String) : Failure :=
  .command {
    type := "not-found"
    title := "Clarification session not found"
    status := 404
    detail := s!"Clarification session {clarificationSessionId} not found in project {projectId}"
    instance? := some correlationId }

/-- The 409 of a session that has used its rounds. -/
def roundLimit (session : ClarificationSession) (correlationId : String) : Failure :=
  .command {
    type := "clarification-round-limit"
    title := "Clarification round limit reached"
    status := 409
    detail := s!"Session {ref.clarificationSessionId} has already used {session.round}/" ++
      s!"{session.maxRounds} rounds"
    instance? := some correlationId }

/-- Throws when the session has used its rounds. -/
def requireRound (session : ClarificationSession) (correlationId : String) : Sql Unit :=
  if session.maxRounds ≤ session.round then throw (ref.roundLimit session correlationId)
  else pure ()

/-- Throws when questions of the session's round have no answer. -/
def requireAnswers (session : ClarificationSession) (correlationId : String) : Sql Unit :=
  require fun db =>
    let unanswered := db.unanswered ref.clarificationSessionId session.round
    if unanswered = [] then .ok ()
    else .error (.command {
      type := "unanswered-questions"
      title := "Clarification round has unanswered questions"
      status := 409
      detail := s!"{unanswered.length} question(s) in round {session.round} still unanswered"
      instance? := some correlationId })

end SessionRef

/-- What differs from one handler that moves a session to the next. -/
structure SessionMove where
  toStatus : ClarificationStatus
  /-- The round the session is left in. -/
  round : ClarificationSession → ℕ := (·.round)
  guard : ClarificationSession → Sql Unit
  effects : ClarificationSession → Sql Unit
  eventType : String
  /-- The `from_state` of the event: all but one write a constant. -/
  eventFrom : ClarificationSession → ClarificationStatus
  outboxPayload : ClarificationSession → Payload
  guard_reads : ∀ session, Frame (fun s : Session => (s.db, s.runtime)) (guard session)
  effects_keys : ∀ session, Frame (fun s : Session => (s.db.idempotencyKeys, s.runtime))
    (effects session)

/-- The `SET` list of the `UPDATE`, on the row that was read. -/
def ClarificationSession.moved (status : ClarificationStatus) (round : ℕ) (version : ℕ)
    (session : ClarificationSession) : ClarificationSession :=
  { session with status, round, version }

theorem ClarificationSession.moved_keys (status : ClarificationStatus) (round version : ℕ) :
    KeyFree (ClarificationSession.moved status round version) := fun _ _ => rfl

/-- `id = ? AND version = ?`. -/
def ClarificationSession.isAt (id : String) (version : ℕ) (session : ClarificationSession) : Bool :=
  session.id == id && session.version == version

/-- The move of the session's row. -/
def SessionMove.rowMove (move : SessionMove) (ref : SessionRef) (correlationId : String) :
    RowMove ClarificationSession where
  table := clarificationSessionTable
  tableName := "clarification_sessions"
  rowId := ref.clarificationSessionId
  version := ClarificationSession.version
  expectedVersion := ref.expectedVersion
  find db := db.findClarificationSession ref.clarificationSessionId ref.projectId
  missing := some (SessionRef.notFound ref.clarificationSessionId ref.projectId correlationId)
  check session := do
    let _ ← orThrow (clarificationMachine.assertValid session.status move.toStatus)
    move.guard session
  isRow _ := ClarificationSession.isAt ref.clarificationSessionId ref.expectedVersion
  moved session := ClarificationSession.moved move.toStatus (move.round session)
    (nextVersion session.version)
  moved_keys _ := ClarificationSession.moved_keys _ _ _
  check_reads session := frame_bind (frame_orThrow _) fun _ => move.guard_reads session

/-- The work of a handler that moves a session, under its claim. -/
def moveSession {P : Type} (envelope : CommandEnvelope P) (ref : SessionRef) (move : SessionMove) :
    Sql CommandResult := do
  let session ← (move.rowMove ref envelope.correlationId).run
  move.effects session
  let eventIds ← recordMove
    [{ projectId := some ref.projectId
       eventType := move.eventType
       fromState := (move.eventFrom session).literal
       toState := move.toStatus.literal
       actorId := envelope.actor.id }]
    [(move.eventType, move.outboxPayload session)]
  pure {
    commandId := envelope.commandId
    accepted := true
    resultingState := move.toStatus.literal
    emittedEventIds := eventIds }

section Moves

variable {P : Type} {envelope : CommandEnvelope P} {ref : SessionRef} {move : SessionMove}
  {s s' : Session}

theorem keys_moveSession :
    Frame (fun s => (s.db.idempotencyKeys, s.runtime)) (moveSession envelope ref move) := by
  have hsees : SeesData fun s => (s.db.idempotencyKeys, s.runtime) := fun _ _ _ => rfl
  exact frame_bind (RowMove.frame_run (g := fun p => (p.1.idempotencyKeys, p.2)) fun _ _ _ => rfl)
    fun session => frame_bind (move.effects_keys session) fun _ =>
    frame_bind (frame_recordMove hsees (fun _ _ => rfl) (fun _ _ => rfl) _ _) fun _ => frame_pure _

theorem reads_requireRound (session : ClarificationSession) (correlationId : String) :
    Frame (fun s : Session => (s.db, s.runtime)) (ref.requireRound session correlationId) :=
  frame_ite (frame_throw _) (frame_pure _)

theorem requireRound_ok {session : ClarificationSession} {correlationId : String}
    (h : exec (ref.requireRound session correlationId) s = (.ok (), s')) :
    session.round < session.maxRounds := by
  by_contra hover
  rw [SessionRef.requireRound, if_pos (Nat.not_lt.mp hover)] at h
  simp at h

theorem reads_requireAnswers (session : ClarificationSession) (correlationId : String) :
    Frame (fun s : Session => (s.db, s.runtime)) (ref.requireAnswers session correlationId) :=
  frame_require (fun _ _ _ => rfl) _

theorem requireAnswers_ok {session : ClarificationSession} {correlationId : String}
    (h : exec (ref.requireAnswers session correlationId) s = (.ok (), s')) :
    s.db.unanswered ref.clarificationSessionId session.round = [] := by
  have hcheck := (require_ok h).1
  by_cases hnone : s.db.unanswered ref.clarificationSessionId session.round = []
  · exact hnone
  · simp [hnone] at hcheck

/-- **What a command that moved a session found and wrote**: the session in its project, at the
version it expected and with the edge in the matrix; its guard passed; it wrote the row of the
session, then its side effects. -/
theorem moveSession_ok {result : CommandResult}
    (h : exec (moveSession envelope ref move) s = (.ok result, s')) :
    ∃ session, s.db.findClarificationSession ref.clarificationSessionId ref.projectId =
        some session ∧
      session.version = ref.expectedVersion ∧
      clarificationMachine.isValid session.status move.toStatus = true ∧
      (∃ s₁ s₂, s₁.db = s.db ∧ s₁.runtime = s.runtime ∧
        exec (move.guard session) s₁ = (.ok (), s₂)) ∧
      ∃ s₃ s₄, s₃.db = clarificationSessionTable.put s.db (s.db.clarification.sessions.update
          (ClarificationSession.isAt ref.clarificationSessionId ref.expectedVersion)
          (ClarificationSession.moved move.toStatus (move.round session)
            (nextVersion session.version)) (ClarificationSession.moved_keys _ _ _)) ∧
        exec (move.effects session) s₃ = (.ok (), s₄) ∧ s'.db.untraced = s₄.db.untraced := by
  obtain ⟨session, s₃, hmove, h₁⟩ := exec_bind_ok.mp h
  obtain ⟨hfind, hversion, ⟨s₁, s₂, hs₁, hrt₁, hcheck⟩, -, hput, -⟩ := RowMove.run_ok hmove
  obtain ⟨row, s₂', hassert, hguard⟩ := exec_bind_ok.mp hcheck
  obtain ⟨hedge, rfl⟩ := orThrow_ok hassert
  have hvalid := clarificationMachine.isValid_of_assertValid hedge
  obtain ⟨_, s₄, heffects, h₄⟩ := exec_bind_ok.mp h₁
  obtain ⟨ids, s₅, hrecord, h₅⟩ := exec_bind_ok.mp h₄
  obtain ⟨-, rfl⟩ := Prod.mk.inj h₅
  exact ⟨session, hfind, hversion, hvalid, ⟨_, s₂, hs₁, hrt₁, hguard⟩, s₃, s₄, hput, heffects,
    (untraced_recordMove hrecord).1⟩

end Moves

/-- A handler that moves a session. -/
def sessionHandler {P : Type} (commandName : String) (requiredRole : UserRole)
    (requiredActorKind : ActorKind) (idempotencyScope : String) (ref : P → SessionRef)
    (move : CommandEnvelope P → SessionMove) : CommandHandler P where
  commandName
  requiredRole
  requiredActorKind
  idempotencyScope
  Evidence := Unit
  evidence _ := pure ()
  body envelope _ := moveSession envelope (ref envelope.payload) (move envelope)
  evidence_keys := evidence_keys_pure
  body_keys _ _ := keys_moveSession

/-! ### Starting a round -/

/-- `MAX_QUESTIONS`. -/
def maxQuestions : ℕ := 7

/-- The questions that a round started now asks. -/
def Db.nextQuestions (db : Db) (projectId : String) : List PlanningQuestion :=
  (db.openPlanningQuestions projectId).take maxQuestions

/-- The loop over the open questions, from the one at `index` on. -/
def insertQuestionsFrom (clarificationSessionId : String) (round : ℕ) (now : ℤ) (index : ℕ) :
    List PlanningQuestion → Sql Unit
  | [] => pure ()
  | question :: questions => do
    let id ← generateId
    insertInto clarificationQuestionTable {
      id, clarificationSessionId, question := question.question, round
      orderIndex := index, askedAt := some now }
    insertQuestionsFrom clarificationSessionId round now (index + 1) questions

/-- The open planning questions become the questions of the round. -/
def askQuestions (clarificationSessionId projectId : String) (round : ℕ) : Sql Unit := do
  let now ← isoNow
  let questions ← query fun db => db.nextQuestions projectId
  insertQuestionsFrom clarificationSessionId round now 0 questions

/-- A row is the question of a round that a planning question became. -/
structure ClarificationQuestion.Asks (clarificationSessionId : String) (round : ℕ)
    (row : ClarificationQuestion) (question : PlanningQuestion) : Prop where
  session : row.clarificationSessionId = clarificationSessionId
  round : row.round = round
  text : row.question = question.question
  pending : row.answeredAt = none

/-- What a connection sees beside the table of the questions. -/
def unquestioned (s : Session) : Db × Runtime :=
  ({ s.db with clarification := { s.db.clarification with questions := .empty } }, s.runtime)

section Asking

variable {clarificationSessionId projectId : String} {round index : ℕ} {now : ℤ}
  {questions : List PlanningQuestion} {s s' : Session}

theorem frame_insertQuestionsFrom {τ : Type} {π : Session → τ} (hπ : SeesData π)
    (hput : ∀ s t, π { s with db := clarificationQuestionTable.put s.db t } = π s) :
    Frame π (insertQuestionsFrom clarificationSessionId round now index questions) := by
  induction questions generalizing index with
  | nil => exact frame_pure _
  | cons question questions ih =>
    exact frame_bind (frame_generateId hπ) fun _ => frame_bind (frame_insertInto hπ hput _)
      fun _ => ih

theorem frame_askQuestions {τ : Type} {π : Session → τ} (hπ : SeesData π)
    (hput : ∀ s t, π { s with db := clarificationQuestionTable.put s.db t } = π s) :
    Frame π (askQuestions clarificationSessionId projectId round) :=
  frame_bind frame_isoNow fun _ => frame_bind (frame_query hπ _) fun _ =>
    frame_insertQuestionsFrom hπ hput

theorem insertQuestionsFrom_ok
    (h : exec (insertQuestionsFrom clarificationSessionId round now index questions) s =
      (.ok (), s')) :
    ∃ fresh, s'.db.clarification.questions.rows = s.db.clarification.questions.rows ++ fresh ∧
      List.Forall₂ (ClarificationQuestion.Asks clarificationSessionId round) fresh questions := by
  induction questions generalizing index s with
  | nil =>
    obtain ⟨-, rfl⟩ := Prod.mk.inj h
    exact ⟨[], by simp, List.Forall₂.nil⟩
  | cons question questions ih =>
    obtain ⟨id, s₁, hid, h₁⟩ := exec_bind_ok.mp h
    obtain ⟨-, rfl⟩ := Prod.mk.inj hid
    obtain ⟨_, s₂, hinsert, h₂⟩ := exec_bind_ok.mp h₁
    obtain ⟨t, ht, hdb, -⟩ := insertInto_ok hinsert
    obtain ⟨fresh, hrows, hasks⟩ := ih h₂
    have hquestions : s₂.db.clarification.questions = t := by
      rw [hdb]
      rfl
    refine ⟨{
      id, clarificationSessionId, question := question.question, round
      orderIndex := index, askedAt := some now } :: fresh, ?_,
      List.Forall₂.cons ⟨rfl, rfl, rfl, rfl⟩ hasks⟩
    rw [hrows, hquestions, Table.rows_insert? ht, List.append_assoc]
    rfl

/-- **The questions of a round that was started**: the open questions of the project, in order, and
no more of them than a round may have. -/
theorem askQuestions_ok
    (h : exec (askQuestions clarificationSessionId projectId round) s = (.ok (), s')) :
    unquestioned s' = unquestioned s ∧
      ∃ fresh, s'.db.clarification.questions.rows = s.db.clarification.questions.rows ++ fresh ∧
        List.Forall₂ (ClarificationQuestion.Asks clarificationSessionId round) fresh
          (s.db.nextQuestions projectId) := by
  refine ⟨(frame_askQuestions (fun _ _ _ => rfl) fun _ _ => rfl).of_exec h, ?_⟩
  obtain ⟨now, s₁, hnow, h₁⟩ := exec_bind_ok.mp h
  obtain ⟨-, rfl⟩ := Prod.mk.inj hnow
  obtain ⟨questions, s₂, hquery, h₂⟩ := exec_bind_ok.mp h₁
  obtain ⟨rfl, hdb, -⟩ := query_ok hquery
  obtain ⟨fresh, hrows, hasks⟩ := insertQuestionsFrom_ok h₂
  rw [hdb] at hrows
  exact ⟨fresh, hrows, hasks⟩

end Asking

abbrev StartClarificationPayload := SessionRef

/-- The start of a round. -/
def startMove (envelope : CommandEnvelope StartClarificationPayload) : SessionMove where
  toStatus := .inProgress
  round session := session.round + 1
  guard session := envelope.payload.requireRound session envelope.correlationId
  effects session := askQuestions envelope.payload.clarificationSessionId
    envelope.payload.projectId (session.round + 1)
  eventType := "clarification.started"
  eventFrom _ := .required
  outboxPayload session := [
    ("clarificationSessionId", .str envelope.payload.clarificationSessionId),
    ("projectId", .str envelope.payload.projectId),
    ("round", .num (session.round + 1))]
  guard_reads _ := reads_requireRound _ _
  effects_keys _ := frame_askQuestions (fun _ _ _ => rfl) fun _ _ => rfl

/-- `StartClarificationHandler`. -/
def startClarificationHandler : CommandHandler StartClarificationPayload :=
  sessionHandler "StartClarificationCommand" .operator .human "start-clarification" id startMove

abbrev RequestAnotherClarificationRoundPayload := SessionRef

/-- The end of a round, before another. -/
def requestAnotherMove (envelope : CommandEnvelope RequestAnotherClarificationRoundPayload) :
    SessionMove where
  toStatus := .required
  guard session := do
    envelope.payload.requireRound session envelope.correlationId
    envelope.payload.requireAnswers session envelope.correlationId
  effects _ := pure ()
  eventType := "clarification.round_completed"
  eventFrom _ := .inProgress
  outboxPayload session := [
    ("clarificationSessionId", .str envelope.payload.clarificationSessionId),
    ("projectId", .str envelope.payload.projectId),
    ("round", .num session.round)]
  guard_reads _ := frame_bind (reads_requireRound _ _) fun _ => reads_requireAnswers _ _
  effects_keys _ := frame_pure _

/-- `RequestAnotherClarificationRoundHandler`. -/
def requestAnotherClarificationRoundHandler :
    CommandHandler RequestAnotherClarificationRoundPayload :=
  sessionHandler "RequestAnotherClarificationRoundCommand" .admin .system
    "request-another-clarification-round" id requestAnotherMove

/-! ### Ending a session -/

/-- `INSERT INTO clarification_decisions …`. -/
def insertClarificationDecision (clarificationSessionId decisionType : String)
    (actor : ActorIdentity) (notes : Option String) : Sql Unit := do
  let id ← generateId
  let now ← isoNow
  insertInto clarificationDecisionTable {
    id, clarificationSessionId, decisionType, actor := actor.id, actorRole := actor.role, notes
    decidedAt := now }

theorem frame_insertClarificationDecision {τ : Type} {π : Session → τ} (hπ : SeesData π)
    (hput : ∀ s t, π { s with db := clarificationDecisionTable.put s.db t } = π s)
    (clarificationSessionId decisionType : String) (actor : ActorIdentity) (notes : Option String) :
    Frame π (insertClarificationDecision clarificationSessionId decisionType actor notes) :=
  frame_bind (frame_generateId hπ) fun _ => frame_bind frame_isoNow fun _ =>
    frame_insertInto hπ hput _

abbrev CompleteClarificationPayload := SessionRef

/-- The end of a session whose questions are answered. -/
def completeMove (envelope : CommandEnvelope CompleteClarificationPayload) : SessionMove where
  toStatus := .complete
  guard session := envelope.payload.requireAnswers session envelope.correlationId
  effects _ := insertClarificationDecision envelope.payload.clarificationSessionId "proceed"
    envelope.actor none
  eventType := "clarification.complete"
  eventFrom _ := .inProgress
  outboxPayload _ := [
    ("clarificationSessionId", .str envelope.payload.clarificationSessionId),
    ("projectId", .str envelope.payload.projectId)]
  guard_reads _ := reads_requireAnswers _ _
  effects_keys _ := frame_insertClarificationDecision (fun _ _ _ => rfl) (fun _ _ => rfl) _ _ _ _

/-- `CompleteClarificationHandler`. -/
def completeClarificationHandler : CommandHandler CompleteClarificationPayload :=
  sessionHandler "CompleteClarificationCommand" .operator .human "complete-clarification" id
    completeMove

/-- The reasons of a block. -/
inductive BlockReason
  | roundLimitExceeded
  | roundTimeout
  deriving DecidableEq, Repr

def BlockReason.literal : BlockReason → String
  | roundLimitExceeded => "round_limit_exceeded"
  | roundTimeout => "round_timeout"

/-- `BlockClarificationPayload`. -/
structure BlockClarificationPayload extends SessionRef where
  reason : BlockReason

/-- The guards of a block: the reason must hold. -/
def requireBlockReason (payload : BlockClarificationPayload) (correlationId : String)
    (session : ClarificationSession) : Sql Unit := do
  let now ← isoNow
  if payload.reason = .roundLimitExceeded ∧ session.round < session.maxRounds then
    throw (.command {
      type := "round-limit-not-exceeded"
      title := "Round limit not yet exceeded"
      status := 409
      detail := s!"Session {payload.clarificationSessionId} has used {session.round}/" ++
        s!"{session.maxRounds} rounds"
      instance? := some correlationId })
  else if payload.reason = .roundTimeout ∧ session.roundTimeoutAt.all (now < ·) then
    throw (.command {
      type := "timeout-not-exceeded"
      title := "Round timeout not yet exceeded"
      status := 409
      detail := s!"Session {payload.clarificationSessionId} has not exceeded its round timeout"
      instance? := some correlationId })
  else pure ()

/-- The circuit breaker of a session. -/
def blockMove (envelope : CommandEnvelope BlockClarificationPayload) : SessionMove where
  toStatus := .blocked
  guard := requireBlockReason envelope.payload envelope.correlationId
  effects _ := insertClarificationDecision envelope.payload.clarificationSessionId "block"
    envelope.actor (some envelope.payload.reason.literal)
  eventType := "clarification.blocked"
  eventFrom := ClarificationSession.status
  outboxPayload _ := [
    ("clarificationSessionId", .str envelope.payload.clarificationSessionId),
    ("projectId", .str envelope.payload.projectId),
    ("reason", .str envelope.payload.reason.literal)]
  guard_reads _ := frame_bind frame_isoNow fun _ => frame_ite (frame_throw _)
    (frame_ite (frame_throw _) (frame_pure _))
  effects_keys _ := frame_insertClarificationDecision (fun _ _ _ => rfl) (fun _ _ => rfl) _ _ _ _

/-- `BlockClarificationHandler`. -/
def blockClarificationHandler : CommandHandler BlockClarificationPayload :=
  sessionHandler "BlockClarificationCommand" .admin .system "block-clarification"
    (·.toSessionRef) blockMove

/-! ### Answers -/

/-- `RecordClarificationAnswerPayload`. -/
structure RecordClarificationAnswerPayload where
  clarificationQuestionId : String
  clarificationSessionId : String
  projectId : String
  answer : String
  expectedQuestionVersion : ℕ

/-- `SELECT … FROM clarification_questions WHERE id = ? AND clarification_session_id = ?`. -/
def Db.findClarificationQuestion (db : Db) (id clarificationSessionId : String) :
    Option ClarificationQuestion :=
  db.clarification.questions.find? fun question =>
    question.id == id && question.clarificationSessionId == clarificationSessionId

/-- The `SET` list of an answer. -/
def ClarificationQuestion.answered (now : ℤ) (version : ℕ) (question : ClarificationQuestion) :
    ClarificationQuestion :=
  { question with answeredAt := some now, version }

theorem ClarificationQuestion.answered_keys (now : ℤ) (version : ℕ) :
    KeyFree (ClarificationQuestion.answered now version) := fun _ _ => rfl

/-- The move of the question's row. -/
def answerMove (payload : RecordClarificationAnswerPayload) (correlationId : String) (now : ℤ) :
    RowMove ClarificationQuestion where
  table := clarificationQuestionTable
  tableName := "clarification_questions"
  rowId := payload.clarificationQuestionId
  version := ClarificationQuestion.version
  expectedVersion := payload.expectedQuestionVersion
  find db := db.findClarificationQuestion payload.clarificationQuestionId
    payload.clarificationSessionId
  missing := some (.command {
    type := "not-found"
    title := "Clarification question not found"
    status := 404
    detail := s!"Clarification question {payload.clarificationQuestionId} not found in session " ++
      s!"{payload.clarificationSessionId}"
    instance? := some correlationId })
  check question :=
    if question.answeredAt.isSome then throw (.command {
      type := "already-answered"
      title := "Clarification question already answered"
      status := 409
      detail := s!"Clarification question {payload.clarificationQuestionId} already has an answer"
      instance? := some correlationId })
    else pure ()
  isRow _ question := question.id == payload.clarificationQuestionId &&
    question.version == payload.expectedQuestionVersion
  moved question := ClarificationQuestion.answered now (nextVersion question.version)
  moved_keys _ := ClarificationQuestion.answered_keys _ _
  check_reads _ := frame_ite (frame_throw _) (frame_pure _)

/-- The work of `RecordClarificationAnswerHandler` under its claim. -/
def recordAnswer (envelope : CommandEnvelope RecordClarificationAnswerPayload) :
    Sql CommandResult := do
  let payload := envelope.payload
  let session ← require fun db =>
    match db.findClarificationSession payload.clarificationSessionId payload.projectId with
    | some session => .ok session
    | none => .error (SessionRef.notFound payload.clarificationSessionId payload.projectId
        envelope.correlationId)
  let now ← isoNow
  let _ ← (answerMove payload envelope.correlationId now).run
  let id ← generateId
  insertInto clarificationAnswerTable {
    id, clarificationQuestionId := payload.clarificationQuestionId, answer := payload.answer
    actor := envelope.actor.id, actorRole := envelope.actor.role, answeredAt := now }
  let eventIds ← recordMove
    [{ projectId := some payload.projectId
       eventType := "clarification.answered"
       fromState := session.status.literal
       toState := session.status.literal
       actorId := envelope.actor.id }]
    [("clarification.answered", [
      ("clarificationQuestionId", .str payload.clarificationQuestionId),
      ("clarificationSessionId", .str payload.clarificationSessionId),
      ("projectId", .str payload.projectId)])]
  pure {
    commandId := envelope.commandId
    accepted := true
    resultingState := session.status.literal
    emittedEventIds := eventIds }

section Answers

variable {envelope : CommandEnvelope RecordClarificationAnswerPayload} {s s' : Session}

theorem keys_recordAnswer :
    Frame (fun s => (s.db.idempotencyKeys, s.runtime)) (recordAnswer envelope) := by
  have hsees : SeesData fun s => (s.db.idempotencyKeys, s.runtime) := fun _ _ _ => rfl
  exact frame_bind (frame_require hsees _) fun _ => frame_bind frame_isoNow fun _ =>
    frame_bind (RowMove.frame_run (g := fun p => (p.1.idempotencyKeys, p.2)) fun _ _ _ => rfl)
    fun _ => frame_bind (frame_generateId hsees) fun _ =>
    frame_bind (frame_insertInto hsees (fun _ _ => rfl) _) fun _ =>
    frame_bind (frame_recordMove hsees (fun _ _ => rfl) (fun _ _ => rfl) _ _) fun _ => frame_pure _

/-- **What a recorded answer found and wrote**: a question of the session that was not answered; it
marked the question, and inserted one answer to it. -/
theorem recordAnswer_ok {result : CommandResult}
    (h : exec (recordAnswer envelope) s = (.ok result, s')) :
    ∃ question row, s.db.findClarificationQuestion envelope.payload.clarificationQuestionId
        envelope.payload.clarificationSessionId = some question ∧
      question.answeredAt = none ∧
      row.clarificationQuestionId = envelope.payload.clarificationQuestionId ∧
      s'.db.clarification.sessions = s.db.clarification.sessions ∧
      s'.db.clarification.questions = s.db.clarification.questions.update
        ((answerMove envelope.payload envelope.correlationId s.runtime.now).isRow question)
        (ClarificationQuestion.answered s.runtime.now (nextVersion question.version))
        (ClarificationQuestion.answered_keys _ _) ∧
      s.db.clarification.answers.insert? row = some s'.db.clarification.answers ∧
      s'.db.planning = s.db.planning := by
  obtain ⟨session, s₁, hsession, h₁⟩ := exec_bind_ok.mp h
  obtain ⟨-, hdb₁, hrt₁⟩ := require_ok hsession
  obtain ⟨now, s₂, hnow, h₂⟩ := exec_bind_ok.mp h₁
  obtain ⟨hn, rfl⟩ := Prod.mk.inj hnow
  obtain rfl := Except.ok.inj hn
  obtain ⟨question, s₃, hmove, h₃⟩ := exec_bind_ok.mp h₂
  obtain ⟨hfind, -, ⟨s₀, s₀', -, -, hcheck⟩, -, hput, -⟩ := RowMove.run_ok hmove
  obtain ⟨id, s₄, hid, h₄⟩ := exec_bind_ok.mp h₃
  obtain ⟨-, rfl⟩ := Prod.mk.inj hid
  obtain ⟨_, s₅, hinsert, h₅⟩ := exec_bind_ok.mp h₄
  obtain ⟨t, ht, hdb₅, -⟩ := insertInto_ok hinsert
  obtain ⟨ids, s₆, hrecord, h₆⟩ := exec_bind_ok.mp h₅
  obtain ⟨-, rfl⟩ := Prod.mk.inj h₆
  have hrecorded := (untraced_recordMove hrecord).1
  have hclar : s₆.db.clarification = s₅.db.clarification :=
    (congrArg Db.clarification hrecorded : s₆.db.untraced.clarification = s₅.db.untraced.clarification)
  have hplan : s₆.db.planning = s₅.db.planning :=
    (congrArg Db.planning hrecorded : s₆.db.untraced.planning = s₅.db.untraced.planning)
  have hopen : question.answeredAt = none := by
    rcases hans : question.answeredAt with _ | t
    · rfl
    · simp [answerMove, hans] at hcheck
  rw [hdb₁] at hfind hput
  simp only [hrt₁] at hput
  have hanswers : s₃.db.clarification.answers = s.db.clarification.answers := by
    rw [hput]
    rfl
  have hinserted : s₆.db.clarification.answers = t := by
    rw [hclar, hdb₅]
    rfl
  change s₃.db.clarification.answers.insert? _ = some t at ht
  rw [hanswers, ← hinserted] at ht
  refine ⟨question, {
    id, clarificationQuestionId := envelope.payload.clarificationQuestionId
    answer := envelope.payload.answer, actor := envelope.actor.id
    actorRole := envelope.actor.role, answeredAt := s₁.runtime.now }, hfind, hopen, rfl, ?_, ?_, ht, ?_⟩
  · rw [hclar, hdb₅, hput]
    rfl
  · rw [hclar, hdb₅, hput]
    rfl
  · rw [hplan, hdb₅, hput]
    rfl

end Answers

/-- `RecordClarificationAnswerHandler`. -/
def recordClarificationAnswerHandler : CommandHandler RecordClarificationAnswerPayload where
  commandName := "RecordClarificationAnswerCommand"
  requiredRole := .operator
  requiredActorKind := some .human
  idempotencyScope := "record-clarification-answer"
  Evidence := Unit
  evidence _ := pure ()
  body envelope _ := recordAnswer envelope
  evidence_keys := evidence_keys_pure
  body_keys _ _ := keys_recordAnswer

end MiniCoder
