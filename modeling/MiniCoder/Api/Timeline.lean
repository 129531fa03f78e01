import Mathlib.Data.Prod.Lex
import Mathlib.Data.String.Basic
import MiniCoder.Commands.Checks
import MiniCoder.Domain.Text
import MiniCoder.Library.LastWrite
import MiniCoder.Library.SortWith
import MiniCoder.Library.Table

/-!
# The timeline of a feature run

The timeline merges what the tables hold about one run, and sorts it by the text of its timestamps.
A client of SQLite gives timestamps as ISO texts, and one of PostgreSQL as `Date` objects, which
cannot be compared in this way.

* `data_timelineEntries`: the entries before they are sorted.
* `sort_sqlite`, `sort_postgres`: what the sort makes of them.
* `timeline_complete_iff`: **when the timeline is complete and in order**.
-/

open Storage LastWrite

namespace MiniCoder

/-! ### Timestamps -/

/-- A timestamp as a client gives it. -/
inductive Timestamp
  | iso (instant : ℤ)
  | date (instant : ℤ)
  deriving DecidableEq, Repr

/-- A column of timestamps, read by a client. -/
def Dialect.timestamp : Dialect → ℤ → Timestamp
  | .sqlite => .iso
  | .postgres => .date

def Timestamp.instant : Timestamp → ℤ
  | .iso instant => instant
  | .date instant => instant

/-- `a.localeCompare(b)`: ISO texts are ordered as their instants are, and the text of a `Date` begins
with a letter. -/
def Timestamp.localeCompare : Timestamp → Timestamp → Except String Ordering
  | .iso a, .iso b => .ok (compare a b)
  | .iso _, .date _ => .ok .lt
  | .date _, _ => .error "a.timestamp.localeCompare is not a function"

/-- `===` of two columns of a row; every `Date` is an object of its own. -/
def Timestamp.same : Timestamp → Timestamp → Bool
  | .iso a, .iso b => a = b
  | _, _ => false

/-! ### The tables -/

structure TimelineWorkflowEvent where
  id : String
  featureRunId : Option String
  eventType : String
  fromState : Option String
  toState : Option String
  actor : Option String
  occurredAt : ℤ
  deriving DecidableEq, Repr

structure TimelineAgentRun where
  id : String
  featureRunId : Option String
  role : String
  state : String
  adapterName : Option String
  provider : Option String
  model : Option String
  tokensUsed : Option ℕ
  costUsd : Option String
  startedAt : Option ℤ
  endedAt : Option ℤ
  createdAt : ℤ
  deriving DecidableEq, Repr

structure TimelineToolOperation where
  id : String
  agentRunId : String
  toolName : String
  status : String
  durationMs : Option ℕ
  occurredAt : ℤ
  deriving DecidableEq, Repr

structure TimelineFinding where
  id : String
  featureRunId : String
  reviewCycle : ℕ
  severity : String
  description : String
  resolved : Bool
  createdAt : ℤ
  deriving DecidableEq, Repr

structure TimelineCoderResponse where
  id : String
  findingId : String
  responseType : String
  createdAt : ℤ
  deriving DecidableEq, Repr

structure TimelinePullRequest where
  id : String
  featureRunId : String
  prNumber : ℕ
  state : String
  reviewState : String
  ciStatus : String
  createdAt : ℤ
  updatedAt : ℤ
  deriving DecidableEq, Repr

structure TimelineCostRecord where
  id : String
  featureRunId : Option String
  /-- The number, as a template literal writes it. -/
  amount : String
  currency : String
  provider : Option String
  model : Option String
  recordedAt : ℤ
  deriving DecidableEq, Repr

structure TimelineApproval where
  id : String
  featureRunId : Option String
  contextType : String
  decision : Option String
  actor : String
  decidedAt : Option ℤ
  createdAt : ℤ
  deriving DecidableEq, Repr

instance : Row TimelineWorkflowEvent := .ofKey (·.id)
instance : Row TimelineAgentRun := .ofKey (·.id)
instance : Row TimelineToolOperation := .ofKey (·.id)
instance : Row TimelineFinding := .ofKey (·.id)
instance : Row TimelineCoderResponse := .ofKey (·.id)
instance : Row TimelinePullRequest := .ofKey (·.id)
instance : Row TimelineCostRecord := .ofKey (·.id)
instance : Row TimelineApproval := .ofKey (·.id)

/-- The tables that a timeline is made of. -/
structure TimelineDb where
  workflowEvents : Table TimelineWorkflowEvent := .empty
  agentRuns : Table TimelineAgentRun := .empty
  agentToolOperations : Table TimelineToolOperation := .empty
  reviewFindings : Table TimelineFinding := .empty
  coderResponses : Table TimelineCoderResponse := .empty
  pullRequests : Table TimelinePullRequest := .empty
  costRecords : Table TimelineCostRecord := .empty
  humanApprovals : Table TimelineApproval := .empty

/-! ### Entries -/

/-- The row of an entry, and with it its kind. -/
inductive TimelineData
  | workflowEvent (row : TimelineWorkflowEvent)
  | agentRun (row : TimelineAgentRun)
  | toolOperation (row : TimelineToolOperation)
  | reviewFinding (row : TimelineFinding)
  | coderResponse (row : TimelineCoderResponse)
  | pullRequest (row : TimelinePullRequest)
  | costRecord (row : TimelineCostRecord)
  | humanApproval (row : TimelineApproval)
  deriving DecidableEq, Repr

structure TimelineEntry where
  timestamp : Timestamp
  summary : String
  data : TimelineData
  deriving DecidableEq, Repr

section Entries

variable (client : Dialect)

def workflowEventEntry (row : TimelineWorkflowEvent) : TimelineEntry where
  timestamp := client.timestamp row.occurredAt
  summary :=
    match truthy row.fromState with
    | some fromState => s!"{row.eventType}: {fromState} -> " ++ row.toState.getD "?"
    | none => row.eventType
  data := .workflowEvent row

def agentRunEntry (row : TimelineAgentRun) : TimelineEntry where
  timestamp := client.timestamp (row.startedAt.getD row.createdAt)
  summary :=
    s!"{row.role} run {row.state}" ++
      ((truthy row.adapterName).map fun name => s!" ({name})").getD ""
  data := .agentRun row

def toolOperationEntry (row : TimelineToolOperation) : TimelineEntry where
  timestamp := client.timestamp row.occurredAt
  summary := s!"tool {row.toolName} {row.status}"
  data := .toolOperation row

def reviewFindingEntry (row : TimelineFinding) : TimelineEntry where
  timestamp := client.timestamp row.createdAt
  summary := s!"finding (cycle {row.reviewCycle}, {row.severity}): " ++
    String.ofList (sliceUnits 120 row.description.toList)
  data := .reviewFinding row

def coderResponseEntry (row : TimelineCoderResponse) : TimelineEntry where
  timestamp := client.timestamp row.createdAt
  summary := s!"coder response: {row.responseType}"
  data := .coderResponse row

def openedEntry (row : TimelinePullRequest) : TimelineEntry where
  timestamp := client.timestamp row.createdAt
  summary := s!"PR #{row.prNumber} opened ({row.state})"
  data := .pullRequest row

def observedEntry (row : TimelinePullRequest) : TimelineEntry where
  timestamp := client.timestamp row.updatedAt
  summary := s!"PR #{row.prNumber} last observed: state={row.state} review={row.reviewState}" ++
    s!" ci={row.ciStatus}"
  data := .pullRequest row

/-- One turn of the loop over the pull requests. -/
def pullRequestEntries (row : TimelinePullRequest) : List TimelineEntry :=
  if (client.timestamp row.updatedAt).same (client.timestamp row.createdAt) then
    [openedEntry client row]
  else [openedEntry client row, observedEntry client row]

def costRecordEntry (row : TimelineCostRecord) : TimelineEntry where
  timestamp := client.timestamp row.recordedAt
  summary := s!"cost {row.amount} {row.currency}" ++
    ((truthy row.provider).map fun provider => s!" ({provider}/" ++ row.model.getD "?" ++ ")").getD ""
  data := .costRecord row

def humanApprovalEntry (row : TimelineApproval) : TimelineEntry where
  timestamp := client.timestamp (row.decidedAt.getD row.createdAt)
  summary := s!"human approval ({row.contextType}): " ++ row.decision.getD "pending" ++
    s!" by {row.actor}"
  data := .humanApproval row

variable (db : TimelineDb) (featureRunId : String)

/-- `ORDER BY` a column of timestamps and `id`. -/
def orderBy {ρ : Type} (time : ρ → ℤ) (id : ρ → String) (rows : List ρ) : List ρ :=
  sortBy (fun row => (toLex (time row, id row) : ℤ ×ₗ String)) rows

def TimelineDb.agentRunsOf : List TimelineAgentRun :=
  orderBy (·.createdAt) (·.id) (db.agentRuns.select fun row => row.featureRunId == some featureRunId)

def TimelineDb.findingsOf : List TimelineFinding :=
  orderBy (·.createdAt) (·.id) (db.reviewFindings.select fun row => row.featureRunId == featureRunId)

/-- The rows of a table that refer to some others; without these there is no query. -/
def childrenOf {ρ : Type} [Row ρ] (table : Table ρ) (parent : ρ → String) (time : ρ → ℤ)
    (id : ρ → String) (ids : List String) : List ρ :=
  if ids = [] then [] else orderBy time id (table.select fun row => ids.contains (parent row))

def TimelineDb.toolOperationsOf (agentRunIds : List String) : List TimelineToolOperation :=
  childrenOf db.agentToolOperations (·.agentRunId) (·.occurredAt) (·.id) agentRunIds

def TimelineDb.coderResponsesOf (findingIds : List String) : List TimelineCoderResponse :=
  childrenOf db.coderResponses (·.findingId) (·.createdAt) (·.id) findingIds

/-- The entries in the order they are collected. -/
def timelineEntries : List TimelineEntry :=
  let agentRuns := db.agentRunsOf featureRunId
  let findings := db.findingsOf featureRunId
  (orderBy (·.occurredAt) (·.id)
      (db.workflowEvents.select fun row => row.featureRunId == some featureRunId)).map
        (workflowEventEntry client) ++
    agentRuns.map (agentRunEntry client) ++
    (db.toolOperationsOf (agentRuns.map (·.id))).map (toolOperationEntry client) ++
    findings.map (reviewFindingEntry client) ++
    (db.coderResponsesOf (findings.map (·.id))).map (coderResponseEntry client) ++
    (db.pullRequests.select fun row => row.featureRunId == featureRunId).flatMap
      (pullRequestEntries client) ++
    (orderBy (·.recordedAt) (·.id)
      (db.costRecords.select fun row => row.featureRunId == some featureRunId)).map
        (costRecordEntry client) ++
    (orderBy (·.createdAt) (·.id)
      (db.humanApprovals.select fun row => row.featureRunId == some featureRunId)).map
        (humanApprovalEntry client)

structure FeatureRunTimeline where
  featureRunId : String
  entries : List TimelineEntry
  deriving DecidableEq, Repr

def getFeatureRunTimeline : Except String FeatureRunTimeline :=
  match SortWith.sort (fun a b => a.timestamp.localeCompare b.timestamp)
      (timelineEntries client db featureRunId) with
  | .ok entries => .ok { featureRunId, entries }
  | .error error => .error error

end Entries

/-! ### What a timeline should be -/

section Timeline

variable (client : Dialect) (db : TimelineDb) (featureRunId : String)

/-- An operation of an agent run of the feature run. -/
def TimelineDb.isToolOperationOf (row : TimelineToolOperation) : Bool :=
  db.agentRuns.rows.any fun run => run.id == row.agentRunId && run.featureRunId == some featureRunId

/-- A response to a finding about the feature run. -/
def TimelineDb.isCoderResponseOf (row : TimelineCoderResponse) : Bool :=
  db.reviewFindings.rows.any fun finding =>
    finding.id == row.findingId && finding.featureRunId == featureRunId

/-- The rows of a feature run, except for those of its pull request. -/
def TimelineDb.historyOf : List TimelineData :=
  (db.workflowEvents.select fun row => row.featureRunId == some featureRunId).map .workflowEvent ++
    (db.agentRuns.select fun row => row.featureRunId == some featureRunId).map .agentRun ++
    (db.agentToolOperations.select (db.isToolOperationOf featureRunId)).map .toolOperation ++
    (db.reviewFindings.select fun row => row.featureRunId == featureRunId).map .reviewFinding ++
    (db.coderResponses.select (db.isCoderResponseOf featureRunId)).map .coderResponse ++
    (db.costRecords.select fun row => row.featureRunId == some featureRunId).map .costRecord ++
    (db.humanApprovals.select fun row => row.featureRunId == some featureRunId).map .humanApproval

def TimelineDb.pullRequestsOf : List TimelinePullRequest :=
  db.pullRequests.select fun row => row.featureRunId == featureRunId

/-- A pull request that was updated after it was created has two entries. -/
def observations (row : TimelinePullRequest) : List TimelineData :=
  if row.updatedAt = row.createdAt then [.pullRequest row] else [.pullRequest row, .pullRequest row]

/-- The entries are in the order of time, and there is one for every row of the run, with one or two
for its pull request. -/
structure IsTimeline (entries : List TimelineEntry) : Prop where
  sorted : entries.Pairwise fun a b => a.timestamp.instant ≤ b.timestamp.instant
  complete : (entries.map TimelineEntry.data).Perm
    (db.historyOf featureRunId ++ (db.pullRequestsOf featureRunId).flatMap observations)

/-! ### Before the sort -/

theorem orderBy_perm {ρ : Type} (time : ρ → ℤ) (id : ρ → String) (rows : List ρ) :
    (orderBy time id rows).Perm rows :=
  sortBy_perm _ rows

/-- The rows that refer to the rows of the query before. -/
theorem childrenOf_perm {ρ σ : Type} [Row ρ] [Row σ] (parents : Table ρ) (ofRun : ρ → Bool)
    (parentTime : ρ → ℤ) (parentId : ρ → String) (table : Table σ) (parent : σ → String)
    (time : σ → ℤ) (id : σ → String) :
    (childrenOf table parent time id
        ((orderBy parentTime parentId (parents.select ofRun)).map parentId)).Perm
      (table.select fun row =>
        parents.rows.any fun p => parentId p == parent row && ofRun p) := by
  have hwhere : ∀ row : σ,
      ((orderBy parentTime parentId (parents.select ofRun)).map parentId).contains (parent row) =
        parents.rows.any fun p => parentId p == parent row && ofRun p := by
    intro row
    have hmem : ∀ p, p ∈ orderBy parentTime parentId (parents.select ofRun) ↔
        p ∈ parents.rows ∧ ofRun p = true := by
      intro p
      rw [(orderBy_perm _ _ _).mem_iff, Table.select, List.mem_filter]
    rw [Bool.eq_iff_iff, List.contains_iff_mem, List.mem_map, List.any_eq_true]
    constructor
    · rintro ⟨p, hp, hid⟩
      exact ⟨p, ((hmem p).mp hp).1, by simp [hid, ((hmem p).mp hp).2]⟩
    · rintro ⟨p, hp, hof⟩
      rw [Bool.and_eq_true, beq_iff_eq] at hof
      exact ⟨p, (hmem p).mpr ⟨hp, hof.2⟩, hof.1⟩
  unfold childrenOf
  split
  · rename_i hnil
    have hnone : (table.select fun row =>
        parents.rows.any fun p => parentId p == parent row && ofRun p) = [] := by
      rw [Table.select, List.filter_eq_nil_iff]
      intro row _
      rw [← hwhere, hnil]
      simp
    rw [hnone]
  · simp only [hwhere]
    exact orderBy_perm _ _ _

/-- The rows of the entries of a pull request. -/
def pullRequestData (row : TimelinePullRequest) : List TimelineData :=
  (pullRequestEntries client row).map TimelineEntry.data

theorem pullRequestData_sqlite (row : TimelinePullRequest) :
    pullRequestData .sqlite row = observations row := by
  unfold pullRequestData pullRequestEntries observations
  by_cases hsame : row.updatedAt = row.createdAt
  · have htext : ((Dialect.sqlite.timestamp row.updatedAt).same
        (Dialect.sqlite.timestamp row.createdAt)) = true := decide_eq_true hsame
    rw [if_pos htext, if_pos hsame]
    rfl
  · have htext : ¬ ((Dialect.sqlite.timestamp row.updatedAt).same
        (Dialect.sqlite.timestamp row.createdAt)) = true := by
      intro h
      exact hsame (of_decide_eq_true h)
    rw [if_neg htext, if_neg hsame]
    rfl

/-- The entries of some rows are those of the rows, whatever their order. -/
theorem data_map_perm {ρ : Type} {rows rows' : List ρ} {entry : ρ → TimelineEntry}
    (data : ρ → TimelineData) (h : rows.Perm rows') (hdata : ∀ row, (entry row).data = data row) :
    ((rows.map entry).map TimelineEntry.data).Perm (rows'.map data) := by
  rw [List.map_map, show TimelineEntry.data ∘ entry = data from funext hdata]
  exact h.map data

/-- The entries that are collected are those of the rows of the run. -/
theorem data_timelineEntries :
    ((timelineEntries client db featureRunId).map TimelineEntry.data).Perm
      (db.historyOf featureRunId ++
        (db.pullRequestsOf featureRunId).flatMap (pullRequestData client)) := by
  have htools := childrenOf_perm db.agentRuns (fun row => row.featureRunId == some featureRunId)
    (·.createdAt) (·.id) db.agentToolOperations (·.agentRunId) (·.occurredAt) (·.id)
  have hresponses := childrenOf_perm db.reviewFindings (fun row => row.featureRunId == featureRunId)
    (·.createdAt) (·.id) db.coderResponses (·.findingId) (·.createdAt) (·.id)
  have hpulls : ((db.pullRequestsOf featureRunId).flatMap (pullRequestEntries client)).map
      TimelineEntry.data = (db.pullRequestsOf featureRunId).flatMap (pullRequestData client) :=
    List.map_flatMap
  unfold timelineEntries TimelineDb.historyOf
  simp only [List.map_append]
  refine ((((((((data_map_perm .workflowEvent (orderBy_perm _ _ _) fun _ => rfl).append
    (data_map_perm .agentRun (orderBy_perm _ _ _) fun _ => rfl)).append
    (data_map_perm .toolOperation htools fun _ => rfl)).append
    (data_map_perm .reviewFinding (orderBy_perm _ _ _) fun _ => rfl)).append
    (data_map_perm .coderResponse hresponses fun _ => rfl)).append
    (List.Perm.of_eq hpulls)).append
    (data_map_perm .costRecord (orderBy_perm _ _ _) fun _ => rfl)).append
    (data_map_perm .humanApproval (orderBy_perm _ _ _) fun _ => rfl)).trans ?_
  -- the pull requests go to the end
  refine List.perm_iff_count.mpr fun data => ?_
  unfold TimelineDb.isToolOperationOf TimelineDb.isCoderResponseOf
  simp only [List.count_append]
  omega

/-! ### The sort -/

variable {client db featureRunId}

theorem timestamp_eq {entry : TimelineEntry} {instant : ℤ}
    (h : entry.timestamp = client.timestamp instant) :
    entry.timestamp = client.timestamp entry.timestamp.instant := by
  rw [h]
  cases client <;> rfl

/-- Every entry has a timestamp of the client. -/
theorem timestamp_timelineEntries : ∀ entry ∈ timelineEntries client db featureRunId,
    entry.timestamp = client.timestamp entry.timestamp.instant := by
  have hpull : ∀ row, ∀ entry ∈ pullRequestEntries client row,
      entry.timestamp = client.timestamp entry.timestamp.instant := by
    intro row entry hentry
    unfold pullRequestEntries at hentry
    split at hentry
    · rw [List.mem_singleton.mp hentry]
      exact timestamp_eq rfl
    · rcases List.mem_pair.mp hentry with rfl | rfl
      · exact timestamp_eq rfl
      · exact timestamp_eq rfl
  unfold timelineEntries
  simp only [List.forall_mem_append, List.forall_mem_map, List.forall_mem_flatMap]
  refine ⟨⟨⟨⟨⟨⟨⟨?_, ?_⟩, ?_⟩, ?_⟩, ?_⟩, fun row _ => hpull row⟩, ?_⟩, ?_⟩
  all_goals exact fun row _ => timestamp_eq rfl

/-- ISO texts are sorted, and every entry stays. -/
theorem getFeatureRunTimeline_sqlite (db : TimelineDb) (featureRunId : String) :
    ∃ entries, getFeatureRunTimeline .sqlite db featureRunId = .ok ⟨featureRunId, entries⟩ ∧
      IsTimeline db featureRunId entries := by
  have hcompare : ∀ a ∈ timelineEntries .sqlite db featureRunId,
      ∀ b ∈ timelineEntries .sqlite db featureRunId,
        a.timestamp.localeCompare b.timestamp =
          .ok (compare a.timestamp.instant b.timestamp.instant) := by
    intro a ha b hb
    rw [timestamp_timelineEntries a ha, timestamp_timelineEntries b hb]
    rfl
  have hsort := SortWith.sort_ok hcompare
  refine ⟨_, by rw [getFeatureRunTimeline, hsort], ?_, ?_⟩
  · have hle : ∀ a b : TimelineEntry, compare a.timestamp.instant b.timestamp.instant ≠ .gt ↔
        a.timestamp.instant ≤ b.timestamp.instant := by
      intro a b
      rw [ne_eq, compare_gt_iff_gt, not_lt]
    have htotal : Std.Total fun a b : TimelineEntry =>
        compare a.timestamp.instant b.timestamp.instant ≠ .gt :=
      ⟨fun a b => by simpa only [hle] using le_total _ _⟩
    have htrans : IsTrans TimelineEntry fun a b =>
        compare a.timestamp.instant b.timestamp.instant ≠ .gt :=
      ⟨fun a b c => by simpa only [hle] using le_trans⟩
    exact (List.pairwise_insertionSort _ _).imp fun {a b} hab => (hle a b).mp hab
  · have hdata := data_timelineEntries .sqlite db featureRunId
    have hpulls : pullRequestData .sqlite = observations := funext pullRequestData_sqlite
    rw [hpulls] at hdata
    exact ((List.perm_insertionSort _ _).map _).trans hdata

/-- `Date` objects cannot be compared. -/
theorem getFeatureRunTimeline_postgres (db : TimelineDb) (featureRunId : String) :
    getFeatureRunTimeline .postgres db featureRunId =
      if (timelineEntries .postgres db featureRunId).length ≤ 1 then
        .ok ⟨featureRunId, timelineEntries .postgres db featureRunId⟩
      else .error "a.timestamp.localeCompare is not a function" := by
  unfold getFeatureRunTimeline
  by_cases hshort : (timelineEntries .postgres db featureRunId).length ≤ 1
  · rw [SortWith.sort_short hshort, if_pos hshort]
  · have hthrows : ∀ a ∈ timelineEntries .postgres db featureRunId, ∀ b : TimelineEntry,
        a.timestamp.localeCompare b.timestamp =
          .error "a.timestamp.localeCompare is not a function" := by
      intro a ha b
      rw [timestamp_timelineEntries a ha]
      rfl
    rw [SortWith.sort_error hthrows (by omega), if_neg hshort]

/-- The pull request of a run has two entries on PostgreSQL. -/
theorem pullRequestData_postgres (row : TimelinePullRequest) :
    pullRequestData .postgres row = [.pullRequest row, .pullRequest row] := rfl

end Timeline

/-- **When a timeline is complete and in order**: on SQLite always, and on PostgreSQL only for a run
without a pull request and with at most one row in the other tables. -/
theorem timeline_complete_iff (client : Dialect) (db : TimelineDb) (featureRunId : String) :
    (∃ entries, getFeatureRunTimeline client db featureRunId = .ok ⟨featureRunId, entries⟩ ∧
        IsTimeline db featureRunId entries) ↔
      client = .sqlite ∨
        db.pullRequestsOf featureRunId = [] ∧ (db.historyOf featureRunId).length ≤ 1 := by
  cases client with
  | sqlite => exact iff_of_true (getFeatureRunTimeline_sqlite db featureRunId) (Or.inl rfl)
  | postgres =>
    have hdata := data_timelineEntries .postgres db featureRunId
    have hlength := hdata.length_eq
    rw [List.length_map, List.length_append] at hlength
    rw [getFeatureRunTimeline_postgres]
    constructor
    · rintro ⟨entries, hentries, -⟩
      right
      split at hentries
      · rename_i hshort
        rcases hpulls : db.pullRequestsOf featureRunId with _ | ⟨row, rows⟩
        · exact ⟨rfl, by omega⟩
        · rw [hpulls, List.flatMap_cons, pullRequestData_postgres, List.length_append] at hlength
          simp only [List.length_cons] at hlength
          omega
      · cases hentries
    · rintro (hclient | ⟨hpulls, hshort⟩)
      · cases hclient
      · rw [hpulls] at hdata
        rw [hpulls, List.flatMap_nil, List.length_nil] at hlength
        have hone : (timelineEntries .postgres db featureRunId).length ≤ 1 := by omega
        refine ⟨_, if_pos hone, ?_, ?_⟩
        · rcases hentries : timelineEntries .postgres db featureRunId with _ | ⟨a, _ | ⟨b, rest⟩⟩
          · exact List.Pairwise.nil
          · exact List.pairwise_singleton _ a
          · rw [hentries] at hone
            simp at hone
        · rw [hpulls]
          exact hdata

/-- A run with two events. -/
def sampleTimelineDb : TimelineDb where
  workflowEvents := .ofList
    [⟨"e1", some "run", "FeatureSelected", none, none, none, 0⟩,
      ⟨"e2", some "run", "CodePushed", none, none, none, 1⟩]

/-- Two events of one run are enough for the timeline to fail on PostgreSQL. -/
theorem not_timeline_complete :
    ¬ ∀ (client : Dialect) (db : TimelineDb) (featureRunId : String),
      ∃ entries, getFeatureRunTimeline client db featureRunId = .ok ⟨featureRunId, entries⟩ ∧
        IsTimeline db featureRunId entries := by
  intro h
  obtain ⟨entries, hentries, -⟩ := h .postgres sampleTimelineDb "run"
  have herror : getFeatureRunTimeline .postgres sampleTimelineDb "run" =
      .error "a.timestamp.localeCompare is not a function" := by decide +kernel
  rw [herror] at hentries
  cases hentries

end MiniCoder
