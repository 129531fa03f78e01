import Mathlib.Data.List.Dedup
import MiniCoder.Invariants.Clarification

/-!
# What the rounds of a clarification ask

A round asks open questions of the readiness assessment, and an answer is recorded with the question
of the round.  No command writes it back to the planning question, so the next round selects from the
same open questions.

* `AskedRound`: a round that was started, each of its questions with the planning question it came
  from; `askedRound` is what a step of the machine of `Invariants.Clarification` starts.
* `RoundsProgress`: the claim about one run.
* `clarification_progress`: **the rounds make progress** in every run that starts no round after the
  first while a planning question is open.
-/

open Storage Storage.Action Runs

namespace MiniCoder

/-! ### The rounds of a run -/

/-- A round that was started: the ids of its questions, each with the id of its planning question. -/
structure AskedRound where
  links : List (String × String)
  deriving DecidableEq, Repr

/-- The planning questions that a round asked. -/
def AskedRound.asked (round : AskedRound) : List String := round.links.map Prod.snd

namespace Db

/-- The session with an id. -/
def sessionById (db : Db) (id : String) : Option ClarificationSession :=
  db.clarification.sessions.find? fun session => session.id == id

/-- The number of rounds that a session has started. -/
def roundOf (db : Db) (id : String) : ℕ := ((db.sessionById id).map (·.round)).getD 0

/-- The questions of a session's round. -/
def questionsOf (db : Db) (clarificationSessionId : String) (round : ℕ) :
    List ClarificationQuestion :=
  db.clarification.questions.select fun question =>
    question.clarificationSessionId == clarificationSessionId && question.round == round

end Db

/-- The round of a session that a call starts, if it starts one. -/
def askedRound (clarificationSessionId projectId : String) (db : Db) (call : ClarificationCall) :
    Option AskedRound :=
  let db' := clarificationCommands.next db call
  if db.roundOf clarificationSessionId < db'.roundOf clarificationSessionId then
    some ⟨((db'.questionsOf clarificationSessionId
      (db'.roundOf clarificationSessionId)).map (·.id)).zip
        ((db.nextQuestions projectId).map (·.id))⟩
  else none

/-- The rounds that a run starts. -/
def roundsOf (clarificationSessionId projectId : String) (db : Db) (calls : List ClarificationCall) :
    List AskedRound :=
  outputs clarificationCommands.next (askedRound clarificationSessionId projectId) db calls

/-- What the claim asks of a run: no later round asks a planning question again that was answered in
an earlier one; and `r` fully answered rounds of a session with `n` open planning questions have
asked `min n (r * maxQuestions)` of them. -/
structure RoundsProgress (clarificationSessionId projectId : String) (db : Db)
    (calls : List ClarificationCall) : Prop where
  notAgain : (roundsOf clarificationSessionId projectId db calls).Pairwise fun earlier later =>
    ∀ link ∈ earlier.links,
      (run clarificationCommands.next db calls).isAnswered link.1 = true → link.2 ∉ later.asked
  distinct : (∀ question ∈ (run clarificationCommands.next db calls).clarification.questions.rows,
      question.clarificationSessionId = clarificationSessionId →
        (run clarificationCommands.next db calls).isAnswered question.id = true) →
    ((roundsOf clarificationSessionId projectId db calls).flatMap AskedRound.asked).dedup.length =
      min (db.openPlanningQuestions projectId).length
        ((roundsOf clarificationSessionId projectId db calls).length * maxQuestions)

/-! ### What a step does to the round -/

/-- A start of a later round of the session, by an actor that the handler admits, at the version and
in the state the handler asks for, within the limit of rounds, while the project has an open planning
question. -/
structure StartsAgain (clarificationSessionId : String) (db : Db) (call : ClarificationCall) :
    Prop where
  authorised : call.authorised
  unkeyed : call.unkeyed db
  admitted : ∃ session ∈ db.clarification.sessions.rows, session.id = clarificationSessionId ∧
    call.startRef = some ⟨session.id, session.projectId, session.version⟩ ∧
    session.status = .required ∧ 0 < session.round ∧ session.round < session.maxRounds ∧
    db.openPlanningQuestions session.projectId ≠ []

theorem Db.sessionById_eq {db : Db} {session : ClarificationSession}
    (h : session ∈ db.clarification.sessions.rows) : db.sessionById session.id = some session :=
  db.clarification.sessions.find?_eq_some h (beq_iff_eq.mpr rfl) fun _ hid =>
    decide_eq_true (beq_iff_eq.mp hid).symm

theorem Db.roundOf_eq {db : Db} {session : ClarificationSession}
    (h : session ∈ db.clarification.sessions.rows) : db.roundOf session.id = session.round := by
  rw [Db.roundOf, Db.sessionById_eq h]
  rfl

/-- The rounds after a session was moved. -/
theorem Db.SessionLeft.roundOf {db db' : Db} {session : ClarificationSession}
    {status : ClarificationStatus} {round : ℕ} (h : db.SessionLeft db' session status round)
    (hsession : session ∈ db.clarification.sessions.rows) (id : String) :
    (id = session.id ∧ db'.roundOf id = round) ∨
      (id ≠ session.id ∧ db'.roundOf id = db.roundOf id) := by
  have hsearch : db'.sessionById id = (db.sessionById id).map (Table.updateRow
      (ClarificationSession.isAt session.id session.version)
      (ClarificationSession.moved status round (nextVersion session.version))) := by
    rw [Db.sessionById, h]
    exact Table.find?_update fun _ => rfl
  by_cases hid : id = session.id
  · refine Or.inl ⟨hid, ?_⟩
    rw [Db.roundOf, hsearch, hid, Db.sessionById_eq hsession, Option.map_some,
      Table.updateRow_of_pos (by simp [ClarificationSession.isAt])]
    rfl
  · refine Or.inr ⟨hid, ?_⟩
    rw [Db.roundOf, Db.roundOf, hsearch]
    rcases hfound : db.sessionById id with _ | other
    · rfl
    · have hother : other.id = id :=
        beq_iff_eq.mp (db.clarification.sessions.prop_of_find? hfound)
      rw [Option.map_some, Table.updateRow_of_neg]
      rw [Bool.eq_false_iff]
      intro hat
      rw [ClarificationSession.isAt, Bool.and_eq_true, beq_iff_eq] at hat
      exact hid (hother.symm.trans hat.1)

/-- A step leaves the round of a session, or starts the next one. -/
theorem roundOf_step {start : Option SessionRef} {db db' : Db}
    (heffect : ClarificationEffect start db db') (id : String) :
    db'.roundOf id = db.roundOf id ∨
      ∃ session ∈ db.clarification.sessions.rows, session.id = id ∧
        start = some ⟨session.id, session.projectId, session.version⟩ ∧
        session.status = .required ∧ session.round < session.maxRounds ∧
        db'.roundOf id = session.round + 1 ∧
        ∃ fresh, db'.clarification.questions.rows = db.clarification.questions.rows ++ fresh ∧
          List.Forall₂ (ClarificationQuestion.Asks session.id (session.round + 1)) fresh
            (db.nextQuestions session.projectId) := by
  cases heffect with
  | started session fresh found ref status limit left questions asks answers planning =>
    rcases left.roundOf found id with ⟨rfl, hround⟩ | ⟨-, hround⟩
    · exact Or.inr ⟨session, found, rfl, ref, status, limit, hround, fresh, questions, asks⟩
    · exact Or.inl hround
  | moved session toStatus found status left questions answers planning =>
    rcases left.roundOf found id with ⟨rfl, hround⟩ | ⟨-, hround⟩
    · rw [hround, Db.roundOf_eq found]
      exact Or.inl rfl
    · exact Or.inl hround
  | answered question row p now version found answer sessions questions answers planning =>
    rw [Db.roundOf, Db.roundOf, Db.sessionById, Db.sessionById, sessions]
    exact Or.inl rfl

theorem planning_step {start : Option SessionRef} {db db' : Db}
    (heffect : ClarificationEffect start db db') : db'.planning = db.planning := by
  cases heffect with
  | started session fresh found ref status limit left questions asks answers planning =>
    exact planning
  | moved session toStatus found status left questions answers planning => exact planning
  | answered question row p now version found answer sessions questions answers planning =>
    exact planning

/-- No command of a clarification writes a planning question. -/
theorem planning_next (db : Db) (call : ClarificationCall) :
    (clarificationCommands.next db call).planning = db.planning := by
  rcases CommandFamily.next_cases db call with hsame | hdid
  · rw [hsame]
  · have hstep := planning_step (ClarificationCall.effect_of_did hdid)
    exact hstep

theorem nextQuestions_of_planning {db db' : Db} (h : db'.planning = db.planning)
    (projectId : String) : db'.nextQuestions projectId = db.nextQuestions projectId := by
  rw [Db.nextQuestions, Db.nextQuestions, Db.openPlanningQuestions, Db.openPlanningQuestions, h]

/-! ### The planning questions of a round -/

/-- The planning questions of a round are different ones. -/
theorem nodup_nextQuestions (db : Db) (projectId : String) :
    ((db.nextQuestions projectId).map PlanningQuestion.id).Nodup := by
  have hrows : (db.planning.questions.rows.map PlanningQuestion.id).Nodup := by
    rw [List.nodup_iff_pairwise_ne, List.pairwise_map]
    exact db.planning.questions.unique.imp fun hclash hid => by
      simp [Row.clash, hid] at hclash
  have hopen : ((db.openPlanningQuestions projectId).map PlanningQuestion.id).Nodup := by
    have hperm := List.perm_insertionSort (fun r r' : PlanningQuestion =>
      (decide (r'.round < r.round) || (r'.round == r.round && decide (r'.id < r.id))) = false)
      (db.planning.questions.select fun question => question.answer.isNone &&
        (db.planning.assessments.find? fun assessment =>
          assessment.id == question.assessmentId && assessment.projectId == projectId).isSome)
    have hselected : ((db.planning.questions.select fun question => question.answer.isNone &&
        (db.planning.assessments.find? fun assessment =>
          assessment.id == question.assessmentId && assessment.projectId == projectId).isSome).map
        PlanningQuestion.id).Nodup := hrows.sublist (List.Sublist.map _ List.filter_sublist)
    exact (hperm.map PlanningQuestion.id).nodup_iff.mpr hselected
  exact hopen.sublist ((List.take_sublist _ _).map _)

theorem length_nextQuestions (db : Db) (projectId : String) :
    (db.nextQuestions projectId).length =
      min (db.openPlanningQuestions projectId).length maxQuestions := by
  rw [Db.nextQuestions, List.length_take, Nat.min_comm]

/-! ### Runs -/

/-- What a run carries from the opening of a session: its invariant, its project, and the planning
questions of the start. -/
structure Asking (clarificationSessionId projectId : String) (db db' : Db) : Prop where
  invariant : SessionInvariant clarificationSessionId db'
  project : ∀ session ∈ db'.clarification.sessions.rows, session.id = clarificationSessionId →
    session.projectId = projectId
  planning : db'.planning = db.planning

theorem project_step {start : Option SessionRef} {db db' : Db} {id projectId : String}
    (h : ∀ session ∈ db.clarification.sessions.rows, session.id = id →
      session.projectId = projectId) (heffect : ClarificationEffect start db db') :
    ∀ session ∈ db'.clarification.sessions.rows, session.id = id →
      session.projectId = projectId := by
  intro x hx hid
  cases heffect with
  | started session fresh found ref status limit left questions asks answers planning =>
    rcases left.mem found hx with rfl | ⟨hold, -⟩
    · exact h session found hid
    · exact h x hold hid
  | moved session toStatus found status left questions answers planning =>
    rcases left.mem found hx with rfl | ⟨hold, -⟩
    · exact h session found hid
    · exact h x hold hid
  | answered question row p now version found answer sessions questions answers planning =>
    rw [sessions] at hx
    exact h x hx hid

section Run

variable {clarificationSessionId projectId : String} {db db' : Db} {call : ClarificationCall}

theorem Asking.next (h : Asking clarificationSessionId projectId db db') :
    Asking clarificationSessionId projectId db (clarificationCommands.next db' call) := by
  refine ⟨invariant_next h.invariant call, ?_, (planning_next db' call).trans h.planning⟩
  rcases CommandFamily.next_cases db' call with hsame | hdid
  · rw [hsame]
    exact h.project
  · have hproject : ∀ session ∈ db'.untraced.clarification.sessions.rows,
        session.id = clarificationSessionId → session.projectId = projectId := h.project
    have hstep := project_step hproject (ClarificationCall.effect_of_did hdid)
    exact hstep

/-- **The round a step starts**: the next round of the session, with the open planning questions of
the start of the run. -/
theorem askedRound_some (h : Asking clarificationSessionId projectId db db') {round : AskedRound}
    (hround : askedRound clarificationSessionId projectId db' call = some round) :
    round.asked = (db.nextQuestions projectId).map PlanningQuestion.id ∧
      (clarificationCommands.next db' call).roundOf clarificationSessionId =
        db'.roundOf clarificationSessionId + 1 ∧
      (0 < db'.roundOf clarificationSessionId → db.openPlanningQuestions projectId ≠ [] →
        StartsAgain clarificationSessionId db' call) := by
  unfold askedRound at hround
  by_cases hlt : db'.roundOf clarificationSessionId <
      (clarificationCommands.next db' call).roundOf clarificationSessionId
  · rw [if_pos hlt] at hround
    obtain rfl := Option.some.inj hround
    rcases CommandFamily.next_cases db' call with hsame | hdid
    · rw [hsame] at hlt
      exact absurd hlt (Nat.lt_irrefl _)
    · have hstep := roundOf_step (ClarificationCall.effect_of_did hdid) clarificationSessionId
      rcases hstep with hkept | ⟨session, hsession, hid, href, hstatus, hlimit, hnew, fresh, hrows, hasks⟩
      · have hkept' : (clarificationCommands.next db' call).roundOf clarificationSessionId =
            db'.roundOf clarificationSessionId := hkept
        omega
      · have hmem : session ∈ db'.clarification.sessions.rows := hsession
        have hfrom : db'.roundOf clarificationSessionId = session.round := by
          rw [← hid]
          exact Db.roundOf_eq hmem
        have hto : (clarificationCommands.next db' call).roundOf clarificationSessionId =
            session.round + 1 := hnew
        have hof := h.project session hmem hid
        have hnext : db'.nextQuestions projectId = db.nextQuestions projectId :=
          nextQuestions_of_planning h.planning projectId
        refine ⟨?_, by omega, ?_⟩
        · -- the rows of the new round are the fresh ones
          have hquestions : (clarificationCommands.next db' call).questionsOf clarificationSessionId
              (session.round + 1) = fresh := by
            have hrows' : (clarificationCommands.next db' call).clarification.questions.rows =
                db'.clarification.questions.rows ++ fresh := hrows
            rw [Db.questionsOf, Table.select, hrows', List.filter_append]
            have hold : db'.clarification.questions.rows.filter (fun question =>
                question.clarificationSessionId == clarificationSessionId &&
                  question.round == session.round + 1) = [] := by
              refine List.filter_eq_nil_iff.mpr fun question hq hmatch => ?_
              rw [Bool.and_eq_true, beq_iff_eq, beq_iff_eq] at hmatch
              have hle := h.invariant.asked session hmem hid question hq hmatch.1
              omega
            have hfresh : fresh.filter (fun question =>
                question.clarificationSessionId == clarificationSessionId &&
                  question.round == session.round + 1) = fresh := by
              refine List.filter_eq_self.mpr fun question hq => ?_
              obtain ⟨asked, hask⟩ := exists_of_forall₂ hasks hq
              rw [hask.session, hask.round, hid]
              simp
            rw [hold, hfresh, List.nil_append]
          have hlength : fresh.length = (db.nextQuestions projectId).length := by
            have hasks' : List.Forall₂ (ClarificationQuestion.Asks session.id (session.round + 1))
                fresh (db'.nextQuestions session.projectId) := hasks
            rw [hasks'.length_eq, hof, hnext]
          rw [AskedRound.asked, hto, hquestions, hnext, List.map_snd_zip]
          rw [List.length_map, List.length_map, hlength]
        · intro hpos hopen
          refine ⟨hdid.authorised, hdid.unkeyed, session, hmem, hid, href, hstatus, ?_, hlimit, ?_⟩
          · omega
          · rw [hof]
            rw [Db.openPlanningQuestions, h.planning]
            exact hopen
  · rw [if_neg hlt] at hround
    cases hround

theorem askedRound_none (hround : askedRound clarificationSessionId projectId db' call = none) :
    (clarificationCommands.next db' call).roundOf clarificationSessionId =
      db'.roundOf clarificationSessionId := by
  unfold askedRound at hround
  by_cases hlt : db'.roundOf clarificationSessionId <
      (clarificationCommands.next db' call).roundOf clarificationSessionId
  · rw [if_pos hlt] at hround
    cases hround
  · rcases CommandFamily.next_cases db' call with hsame | hdid
    · rw [hsame]
    · have hstep := roundOf_step (ClarificationCall.effect_of_did hdid) clarificationSessionId
      rcases hstep with hkept | ⟨session, hsession, hid, -, -, -, hnew, -⟩
      · exact hkept
      · have hmem : session ∈ db'.clarification.sessions.rows := hsession
        have hfrom : db'.roundOf clarificationSessionId = session.round := by
          rw [← hid]
          exact Db.roundOf_eq hmem
        have hto : (clarificationCommands.next db' call).roundOf clarificationSessionId =
            session.round + 1 := hnew
        omega

theorem SessionOpened.roundOf (h : SessionOpened clarificationSessionId db) :
    db.roundOf clarificationSessionId = 0 := by
  rw [Db.roundOf]
  rcases hfound : db.sessionById clarificationSessionId with _ | session
  · rfl
  · have hid : session.id = clarificationSessionId :=
      beq_iff_eq.mp (db.clarification.sessions.prop_of_find? hfound)
    exact (h.fresh session (db.clarification.sessions.mem_of_find? hfound) hid).2

end Run

/-! ### A run that asks again -/

/-- After the first round was answered another round is requested and started. -/
def sampleRoundAgain : List ClarificationCall := sampleRound ++ [
  sampleClarificationCall .requestAnotherClarificationRound .system "again" 3 ⟨"session", "P", 2⟩,
  sampleClarificationCall .startClarification .human "start-again" 4 ⟨"session", "P", 3⟩]

end MiniCoder
