import Mathlib.Data.Prod.Lex
import Mathlib.Data.String.Basic
import MiniCoder.Persistence.Client

/-!
# The adapter registry

`register` inserts an adapter at version 1, or rewrites it at the next version with new capabilities;
it appends a revision with the declared capabilities of that version.  A reader gets the adapter, its
capabilities and a revision by three queries.

* `mem_parseCapabilities`: the tokens that a list of strings stands for.
* `register_ok`: what a registration leaves.
* `RegistryExact`: the revisions of an adapter are its versions, one each, and the last one is what is
  declared now; `RegistryExact.register`.
-/

open Storage Storage.Action

namespace MiniCoder

/-! ### Capabilities -/

namespace AgentCapabilityToken

/-- `AgentCapabilitySchema.options`. -/
def options : List AgentCapabilityToken := [
  generatePlan, generateClarificationQuestions, modifyFiles, runTests, commit, pushBranch,
  openPullRequest, reviewPullRequest, returnStructuredFindings, resolveDisagreement,
  generateDesignDocument, reportTokenUsage, reportCost, runAsynchronously, reportRunStatus]

end AgentCapabilityToken

/-- `InvalidCapabilityError`. -/
def invalidCapability (source : String) (invalid : List String) : Failure :=
  .error (s!"{source} contains invalid capability token(s): " ++
    ", ".intercalate (invalid.map fun value => "\"" ++ value ++ "\""))

/-- `parseCapabilities`: the set of the tokens, in the order of the schema. -/
def parseCapabilities (capabilities : List String) (source : String) :
    Except Failure (List AgentCapabilityToken) :=
  let invalid := capabilities.filter fun value =>
    !AgentCapabilityToken.options.any fun token => token.literal == value
  if invalid ≠ [] then .error (invalidCapability source invalid)
  else .ok (AgentCapabilityToken.options.filter fun token => capabilities.contains token.literal)

/-- **The tokens that a list of strings stands for**: its strings are their literals. -/
theorem mem_parseCapabilities {capabilities : List String} {source value : String}
    {tokens : List AgentCapabilityToken} (h : parseCapabilities capabilities source = .ok tokens) :
    value ∈ capabilities ↔ ∃ token ∈ tokens, token.literal = value := by
  rw [parseCapabilities] at h
  split at h
  · cases h
  rename_i hvalid
  rw [ne_eq, not_not] at hvalid
  obtain rfl := Except.ok.inj h
  constructor
  · intro hmem
    have hknown := List.filter_eq_nil_iff.mp hvalid value hmem
    simp only [Bool.not_eq_true', Bool.not_eq_false, List.any_eq_true, beq_iff_eq] at hknown
    obtain ⟨token, htoken, hliteral⟩ := hknown
    refine ⟨token, List.mem_filter.mpr ⟨htoken, ?_⟩, hliteral⟩
    rw [hliteral]
    exact List.contains_iff_mem.mpr hmem
  · rintro ⟨token, htoken, rfl⟩
    exact List.contains_iff_mem.mp (List.mem_filter.mp htoken).2

/-! ### Registration -/

/-- The `agent_adapters` table. -/
def agentAdapterTable : TableOf Db AgentAdapter where
  get db := db.agents.adapters
  put db t := { db with agents := { db.agents with adapters := t } }
  get_put _ _ := rfl

/-- The `agent_capabilities` table. -/
def agentCapabilityTable : TableOf Db AgentCapability where
  get db := db.agents.capabilities
  put db t := { db with agents := { db.agents with capabilities := t } }
  get_put _ _ := rfl

/-- The `adapter_revisions` table. -/
def adapterRevisionTable : TableOf Db AdapterRevision where
  get db := db.agents.revisions
  put db t := { db with agents := { db.agents with revisions := t } }
  get_put _ _ := rfl

structure RegisterAdapterInput where
  role : String
  name : String
  implementation : String
  capabilities : List String
  isActive : Bool := true
  deriving DecidableEq, Repr

/-- `role = ? AND name = ?`. -/
def AgentAdapter.isNamed (role name : String) (adapter : AgentAdapter) : Bool :=
  adapter.role == role && adapter.name == name

/-- `SET implementation = ?, is_active = ?, version = version + 1`. -/
def AgentAdapter.registeredAgain (implementation : String) (isActive : Bool)
    (adapter : AgentAdapter) : AgentAdapter :=
  { adapter with implementation, isActive, version := adapter.version + 1 }

theorem AgentAdapter.registeredAgain_keys (implementation : String) (isActive : Bool) :
    KeyFree (AgentAdapter.registeredAgain implementation isActive) := fun _ _ => rfl

/-- `INSERT INTO agent_adapters … ON CONFLICT (role, name) DO NOTHING`. -/
def insertAdapter (newId : String) (input : RegisterAdapterInput) : Sql Unit :=
  execute fun db =>
    if (db.agents.adapters.find? (AgentAdapter.isNamed input.role input.name)).isSome then some ((), db)
    else (db.agents.adapters.insert? {
      id := newId, role := input.role, name := input.name, implementation := input.implementation
      isActive := input.isActive }).map fun t => ((), agentAdapterTable.put db t)

/-- `SELECT id FROM agent_adapters WHERE role = ? AND name = ?`. -/
def selectAdapterId (input : RegisterAdapterInput) : Sql String :=
  require fun db =>
    match db.agents.adapters.find? (AgentAdapter.isNamed input.role input.name) with
    | none => .error (.error s!"adapter insert produced no row for {input.role}/{input.name}")
    | some row => .ok row.id

/-- The statements on an adapter that was there before. -/
def rewriteAdapter (input : RegisterAdapterInput) (adapterId : String) : Sql Unit := do
  let _ ← updateWhere agentAdapterTable (fun adapter => adapter.id == adapterId)
    (AgentAdapter.registeredAgain input.implementation input.isActive)
    (AgentAdapter.registeredAgain_keys _ _)
  execute fun db => some ((), agentCapabilityTable.put db
    (db.agents.capabilities.delete fun row => row.adapterId == adapterId))

def rewriteUnlessNew (input : RegisterAdapterInput) (newId adapterId : String) : Sql Unit :=
  if adapterId ≠ newId then rewriteAdapter input adapterId else pure ()

/-- The snapshot of a version. -/
def RegisterAdapterInput.revision (input : RegisterAdapterInput) (id adapterId : String)
    (version : ℕ) (capabilities : List AgentCapabilityToken) (now : ℤ) : AdapterRevision where
  id
  adapterId
  role := input.role
  name := input.name
  implementation := input.implementation
  version
  capabilities
  isActive := input.isActive
  createdAt := now

def insertRevision (input : RegisterAdapterInput) (adapterId : String)
    (capabilities : List AgentCapabilityToken) (now : ℤ) : Sql Unit := do
  let versionRow ← query fun db => db.agents.adapters.find? fun adapter => adapter.id == adapterId
  let currentVersion := (versionRow.map (·.version)).getD 1
  let id ← generateId
  insertInto adapterRevisionTable (input.revision id adapterId currentVersion capabilities now)

/-- The transaction of `register`. -/
def registerTransaction (input : RegisterAdapterInput) (capabilities : List AgentCapabilityToken) :
    Sql String := do
  let now ← isoNow
  let newId ← generateId
  insertAdapter newId input
  let adapterId ← selectAdapterId input
  rewriteUnlessNew input newId adapterId
  insertEachFrom agentCapabilityTable
    (fun id _ token => { id, adapterId, capability := token.literal }) 0 capabilities
  insertRevision input adapterId capabilities now
  pure adapterId

/-- `AdapterRegistry.register`. -/
def register (input : RegisterAdapterInput) : Sql String := do
  let capabilities ← orThrow
    (parseCapabilities input.capabilities s!"register({input.role}/{input.name}).capabilities")
  transaction (registerTransaction input capabilities)

/-! ### What a reader gets -/

/-- The columns that order the revisions of one version. -/
def AdapterRevision.createdOrder (revision : AdapterRevision) : ℤ ×ₗ String :=
  toLex (revision.createdAt, revision.id)

namespace Db

/-- The query of `getById`, with its filter. -/
def activeAdapter (db : Db) (adapterId : String) : Option AgentAdapter :=
  db.agents.adapters.find? fun adapter => adapter.id == adapterId && adapter.isActive

/-- `SELECT capability FROM agent_capabilities WHERE adapter_id = ?`. -/
def declaredCapabilities (db : Db) (adapterId : String) : List String :=
  (db.agents.capabilities.select fun row => row.adapterId == adapterId).map (·.capability)

/-- The revisions of an adapter. -/
def revisionsOf (db : Db) (adapterId : String) : List AdapterRevision :=
  db.agents.revisions.select fun revision => revision.adapterId == adapterId

/-- `getRevisionId`: `ORDER BY created_at DESC, id DESC LIMIT 1`. -/
def getRevisionId (db : Db) (adapterId : String) (version : ℕ) : Option String :=
  ((db.agents.revisions.selectBy (fun revision =>
      revision.adapterId == adapterId && revision.version == version)
    fun revision revision' => decide (revision'.createdOrder < revision.createdOrder)).head?).map (·.id)

end Db

theorem mem_declaredCapabilities {db : Db} {adapterId value : String} :
    value ∈ db.declaredCapabilities adapterId ↔
      ∃ row ∈ db.agents.capabilities.rows, row.adapterId = adapterId ∧ row.capability = value := by
  simp only [Db.declaredCapabilities, Table.select, List.mem_map, List.mem_filter, beq_iff_eq,
    and_assoc]

/-! ### What a registration leaves -/

/-- The adapter of a registration before its capabilities are inserted: it is new and at version 1, or
at the version after its last one; and nothing is declared of it. -/
structure Enrolled (input : RegisterAdapterInput) (before after : Db) (adapter : AgentAdapter) :
    Prop where
  named : adapter.role = input.role ∧ adapter.name = input.name
  current : adapter.implementation = input.implementation ∧ adapter.isActive = input.isActive
  adapters : ∀ a, a ∈ after.agents.adapters.rows ↔
    a = adapter ∨ (a ∈ before.agents.adapters.rows ∧ a.id ≠ adapter.id)
  version : adapter.version = 1 ∧ (∀ a ∈ before.agents.adapters.rows, a.id ≠ adapter.id) ∨
    ∃ old, before.agents.adapters.find? (AgentAdapter.isNamed input.role input.name) = some old ∧
      old.id = adapter.id ∧ adapter.version = old.version + 1
  declared : ∀ row, row ∈ after.agents.capabilities.rows ↔
    row ∈ before.agents.capabilities.rows ∧ row.adapterId ≠ adapter.id
  revisions : after.agents.revisions = before.agents.revisions

/-- The revision is a snapshot of the adapter at its version. -/
structure AdapterRevision.IsOf (revision : AdapterRevision) (adapter : AgentAdapter) : Prop where
  ofAdapter : revision.adapterId = adapter.id
  version : revision.version = adapter.version
  role : revision.role = adapter.role
  name : revision.name = adapter.name
  implementation : revision.implementation = adapter.implementation

instance (revision : AdapterRevision) (adapter : AgentAdapter) : Decidable (revision.IsOf adapter) :=
  decidable_of_iff (revision.adapterId = adapter.id ∧ revision.version = adapter.version ∧
      revision.role = adapter.role ∧ revision.name = adapter.name ∧
      revision.implementation = adapter.implementation)
    ⟨fun ⟨hid, hversion, hrole, hname, hcode⟩ => ⟨hid, hversion, hrole, hname, hcode⟩,
      fun h => ⟨h.ofAdapter, h.version, h.role, h.name, h.implementation⟩⟩

/-- What a registration leaves. -/
structure Registered (input : RegisterAdapterInput) (before after : Db) (adapter : AgentAdapter)
    (revision : AdapterRevision) : Prop where
  adapters : ∀ a, a ∈ after.agents.adapters.rows ↔
    a = adapter ∨ (a ∈ before.agents.adapters.rows ∧ a.id ≠ adapter.id)
  version : adapter.version = 1 ∧ (∀ a ∈ before.agents.adapters.rows, a.id ≠ adapter.id) ∨
    ∃ old, before.agents.adapters.find? (AgentAdapter.isNamed input.role input.name) = some old ∧
      old.id = adapter.id ∧ adapter.version = old.version + 1
  declared : ∀ value, value ∈ after.declaredCapabilities adapter.id ↔ value ∈ input.capabilities
  others : ∀ id, id ≠ adapter.id → ∀ value,
    value ∈ after.declaredCapabilities id ↔ value ∈ before.declaredCapabilities id
  owned : ∀ row ∈ after.agents.capabilities.rows,
    row ∈ before.agents.capabilities.rows ∨ row.adapterId = adapter.id
  revisions : after.agents.revisions.rows = before.agents.revisions.rows ++ [revision]
  snapshot : revision.IsOf adapter
  capabilities : ∀ value, value ∈ input.capabilities ↔
    ∃ token ∈ revision.capabilities, token.literal = value

section Register

variable {input : RegisterAdapterInput} {tokens : List AgentCapabilityToken} {s s' : Session}
  {adapterId newId : String}

theorem insertAdapter_ok (h : exec (insertAdapter newId input) s = (.ok (), s')) :
    (∃ old, s.db.agents.adapters.find? (AgentAdapter.isNamed input.role input.name) = some old ∧
        s'.db = s.db) ∨
      s.db.agents.adapters.find? (AgentAdapter.isNamed input.role input.name) = none ∧
        ∃ t, s.db.agents.adapters.insert? {
          id := newId, role := input.role, name := input.name
          implementation := input.implementation, isActive := input.isActive } = some t ∧
        s'.db = agentAdapterTable.put s.db t := by
  obtain ⟨hdb, -⟩ := execute_ok h
  split at hdb
  · rename_i hsome
    obtain ⟨old, hold⟩ := Option.isSome_iff_exists.mp hsome
    exact Or.inl ⟨old, hold, (Prod.mk.inj (Option.some.inj hdb)).2.symm⟩
  · rename_i hnone
    obtain ⟨t, ht, hput⟩ := Option.map_eq_some_iff.mp hdb
    rw [Bool.not_eq_true, Option.isSome_eq_false_iff, Option.isNone_iff_eq_none] at hnone
    exact Or.inr ⟨hnone, t, ht, (Prod.mk.inj hput).2.symm⟩

theorem selectAdapterId_ok (h : exec (selectAdapterId input) s = (.ok adapterId, s')) :
    (∃ row, s.db.agents.adapters.find? (AgentAdapter.isNamed input.role input.name) = some row ∧
      row.id = adapterId) ∧ s'.db = s.db := by
  obtain ⟨hcheck, hdb, -⟩ := require_ok h
  split at hcheck
  · cases hcheck
  · rename_i row hrow
    exact ⟨⟨row, hrow, Except.ok.inj hcheck⟩, hdb⟩

theorem rewriteAdapter_ok (h : exec (rewriteAdapter input adapterId) s = (.ok (), s')) :
    s'.db.agents.adapters = s.db.agents.adapters.update (fun adapter => adapter.id == adapterId)
        (AgentAdapter.registeredAgain input.implementation input.isActive)
        (AgentAdapter.registeredAgain_keys _ _) ∧
      s'.db.agents.capabilities =
        s.db.agents.capabilities.delete (fun row => row.adapterId == adapterId) ∧
      s'.db.agents.revisions = s.db.agents.revisions := by
  obtain ⟨n, s₁, hupdate, hdelete⟩ := exec_bind_ok.mp h
  obtain ⟨-, hdb₁, -⟩ := updateWhere_ok hupdate
  obtain ⟨hdb, -⟩ := execute_ok hdelete
  rw [← (Prod.mk.inj (Option.some.inj hdb)).2, hdb₁]
  exact ⟨rfl, rfl, rfl⟩

/-- The statements that enrol an adapter, under an id that no adapter has. -/
theorem enrolled_ok {s₁ s₂ : Session} (howned : ∀ row ∈ s.db.agents.capabilities.rows,
      ∃ adapter ∈ s.db.agents.adapters.rows, adapter.id = row.adapterId)
    (hnew : ∀ adapter ∈ s.db.agents.adapters.rows, adapter.id ≠ newId)
    (hinsert : exec (insertAdapter newId input) s = (.ok (), s₁))
    (hselect : exec (selectAdapterId input) s₁ = (.ok adapterId, s₂))
    (hrewrite : exec (rewriteUnlessNew input newId adapterId) s₂ = (.ok (), s')) :
    ∃ adapter, adapter.id = adapterId ∧ Enrolled input s.db s'.db adapter := by
  obtain ⟨⟨row, hrow, hid⟩, hdb₂⟩ := selectAdapterId_ok hselect
  rcases insertAdapter_ok hinsert with ⟨old, hold, hdb₁⟩ | ⟨hnone, t, ht, hdb₁⟩
  · -- the adapter was there before
    rw [hdb₁, hold] at hrow
    obtain rfl := Option.some.inj hrow
    have hmem := s.db.agents.adapters.mem_of_find? hold
    have hnamed := s.db.agents.adapters.prop_of_find? hold
    rw [AgentAdapter.isNamed, Bool.and_eq_true, beq_iff_eq, beq_iff_eq] at hnamed
    have hother : adapterId ≠ newId := by
      rw [← hid]
      exact hnew old hmem
    rw [rewriteUnlessNew, if_pos hother] at hrewrite
    obtain ⟨hadapters, hcapabilities, hrevisions⟩ := rewriteAdapter_ok hrewrite
    rw [hdb₂, hdb₁] at hadapters hcapabilities hrevisions
    refine ⟨old.registeredAgain input.implementation input.isActive, hid, hnamed, ⟨rfl, rfl⟩,
      fun a => ?_, Or.inr ⟨old, hold, rfl, rfl⟩, fun row => ?_, hrevisions⟩
    · rw [hadapters, Table.mem_update]
      constructor
      · rintro ⟨r, hr, rfl⟩
        by_cases hsame : r.id = adapterId
        · obtain rfl := s.db.agents.adapters.eq_of_clash hr hmem
            (decide_eq_true (Or.inl (hsame.trans hid.symm)))
          exact Or.inl (Table.updateRow_of_pos (p := fun adapter : AgentAdapter =>
            adapter.id == adapterId) (beq_iff_eq.mpr hsame))
        · have hrow : Table.updateRow (fun adapter : AgentAdapter => adapter.id == adapterId)
              (AgentAdapter.registeredAgain input.implementation input.isActive) r = r :=
            Table.updateRow_of_neg (beq_eq_false_iff_ne.mpr hsame)
          rw [hrow]
          refine Or.inr ⟨hr, ?_⟩
          rw [← hid] at hsame
          exact hsame
      · rintro (rfl | ⟨ha, hne⟩)
        · exact ⟨old, hmem, Table.updateRow_of_pos (beq_iff_eq.mpr hid)⟩
        · refine ⟨a, ha, Table.updateRow_of_neg (beq_eq_false_iff_ne.mpr ?_)⟩
          rw [← hid]
          exact hne
    · rw [hcapabilities, Table.mem_delete, beq_eq_false_iff_ne, ← hid]
      rfl
  · -- the adapter is new
    have hput : s₁.db.agents.adapters = t := by
      rw [hdb₁]
      rfl
    have hrows := Table.rows_insert? ht
    rw [hput, Table.find?, hrows, List.find?_append] at hrow
    rw [Table.find?] at hnone
    rw [hnone, Option.none_or] at hrow
    obtain rfl := List.mem_singleton.mp (List.mem_of_find?_eq_some hrow)
    replace hid : newId = adapterId := hid
    rw [rewriteUnlessNew, if_neg (not_not.mpr hid.symm)] at hrewrite
    obtain ⟨-, rfl⟩ := Prod.mk.inj hrewrite
    rw [hdb₂, hdb₁]
    subst hid
    refine ⟨{
        id := newId, role := input.role, name := input.name
        implementation := input.implementation, isActive := input.isActive },
      rfl, ⟨rfl, rfl⟩, ⟨rfl, rfl⟩, fun a => ?_, Or.inl ⟨rfl, hnew⟩, fun row => ?_, rfl⟩
    · show a ∈ t.rows ↔ _
      rw [hrows, List.mem_append, List.mem_singleton, or_comm]
      exact or_congr_right ⟨fun ha => ⟨ha, hnew a ha⟩, fun ha => ha.1⟩
    · show row ∈ s.db.agents.capabilities.rows ↔ _
      refine ⟨fun hmem => ⟨hmem, ?_⟩, fun hmem => hmem.1⟩
      obtain ⟨adapter, hadapter, hof⟩ := howned row hmem
      rw [← hof]
      exact hnew adapter hadapter

theorem insertRevision_ok {capabilities : List AgentCapabilityToken} {now : ℤ}
    {adapter : AgentAdapter} (hmem : adapter ∈ s.db.agents.adapters.rows)
    (h : exec (insertRevision input adapter.id capabilities now) s = (.ok (), s')) :
    ∃ id, s'.db.agents.adapters = s.db.agents.adapters ∧
      s'.db.agents.capabilities = s.db.agents.capabilities ∧
      s'.db.agents.revisions.rows = s.db.agents.revisions.rows ++
        [input.revision id adapter.id adapter.version capabilities now] := by
  obtain ⟨versionRow, s₁, hquery, h₁⟩ := exec_bind_ok.mp h
  obtain ⟨rfl, hdb₁, -⟩ := query_ok hquery
  obtain ⟨id, s₂, hdraw, hinsert⟩ := exec_bind_ok.mp h₁
  rw [exec_generateId] at hdraw
  obtain ⟨-, rfl⟩ := Prod.mk.inj hdraw
  obtain ⟨t, ht, hdb, -⟩ := insertInto_ok hinsert
  have hrow : (s.db.agents.adapters.find? fun a => a.id == adapter.id) = some adapter :=
    s.db.agents.adapters.find?_eq_some hmem (beq_iff_eq.mpr rfl) fun a ha =>
      decide_eq_true (Or.inl (beq_iff_eq.mp ha).symm)
  refine ⟨id, ?_, ?_, ?_⟩
  · rw [hdb]
    exact congrArg (fun db => db.agents.adapters) hdb₁
  · rw [hdb]
    exact congrArg (fun db => db.agents.capabilities) hdb₁
  · have hrows := Table.rows_insert? ht
    rw [hrow] at hrows
    rw [hdb]
    show t.rows = _
    rw [hrows]
    exact congrArg (fun db => db.agents.revisions.rows ++ _) hdb₁

/-- **What a committed registration leaves**, under an id that no adapter has. -/
theorem register_ok {id : String} (howned : ∀ row ∈ s.db.agents.capabilities.rows,
      ∃ adapter ∈ s.db.agents.adapters.rows, adapter.id = row.adapterId)
    (hnew : ∀ adapter ∈ s.db.agents.adapters.rows, adapter.id ≠ s.runtime.ids s.drawn)
    (h : exec (register input) s = (.ok id, s')) :
    ∃ adapter revision, Registered input s.db s'.db adapter revision := by
  obtain ⟨tokens, s₀, hparse, htx⟩ := exec_bind_ok.mp h
  obtain ⟨htokens, rfl⟩ := orThrow_ok hparse
  have hvalues : ∀ value, value ∈ input.capabilities ↔ ∃ token ∈ tokens, token.literal = value :=
    fun value => mem_parseCapabilities htokens
  obtain ⟨s₁, hbody, hdb, -⟩ := transaction_ok htx
  obtain ⟨now, s₂, hclock, h₂⟩ := exec_bind_ok.mp hbody
  obtain ⟨-, rfl⟩ := Prod.mk.inj hclock
  obtain ⟨newId, s₃, hdraw, h₃⟩ := exec_bind_ok.mp h₂
  rw [exec_generateId] at hdraw
  obtain ⟨hid, rfl⟩ := Prod.mk.inj hdraw
  obtain rfl := Except.ok.inj hid
  obtain ⟨_, s₄, hinsert, h₄⟩ := exec_bind_ok.mp h₃
  obtain ⟨adapterId, s₅, hselect, h₅⟩ := exec_bind_ok.mp h₄
  obtain ⟨_, s₆, hrewrite, h₆⟩ := exec_bind_ok.mp h₅
  obtain ⟨_, s₇, hcapabilities, h₇⟩ := exec_bind_ok.mp h₆
  obtain ⟨_, s₈, hrevision, h₈⟩ := exec_bind_ok.mp h₇
  obtain ⟨-, rfl⟩ := Prod.mk.inj h₈
  obtain ⟨adapter, rfl, henrolled⟩ := enrolled_ok (s := { s₀ with drawn := s₀.drawn + 1 }) howned
    hnew hinsert hselect hrewrite
  obtain ⟨fresh, hrows, hfresh, hall⟩ := insertEachFrom_ok hcapabilities
  -- what the last two groups of statements leave alone
  have hkept : (s₇.db.agents.adapters, s₇.db.agents.revisions) =
      (s₆.db.agents.adapters, s₆.db.agents.revisions) :=
    (frame_insertEachFrom (π := fun s : Session => (s.db.agents.adapters, s.db.agents.revisions))
      (fun _ _ _ => rfl) fun _ _ => rfl).of_exec hcapabilities
  obtain ⟨hadapters₇, hrevisions₇⟩ := Prod.mk.inj hkept
  have hmem : adapter ∈ s₇.db.agents.adapters.rows := by
    rw [hadapters₇]
    exact (henrolled.adapters adapter).mpr (Or.inl rfl)
  obtain ⟨revisionId, hadapters₈, hcapabilities₈, hrevisions₈⟩ := insertRevision_ok hmem hrevision
  replace hrows : s₈.db.agents.capabilities.rows = s₆.db.agents.capabilities.rows ++ fresh := by
    rw [hcapabilities₈]
    exact hrows
  rw [hdb]
  refine ⟨adapter, input.revision revisionId adapter.id adapter.version tokens now, ?_,
    henrolled.version, fun value => ?_, fun id hother value => ?_, fun row hrow => ?_, ?_,
    ⟨rfl, rfl, henrolled.named.1.symm, henrolled.named.2.symm, henrolled.current.1.symm⟩, hvalues⟩
  · rw [hadapters₈, hadapters₇]
    exact henrolled.adapters
  · rw [mem_declaredCapabilities, hvalues, hrows]
    constructor
    · rintro ⟨row, hrow, hof, rfl⟩
      rcases List.mem_append.mp hrow with hold | hnew
      · exact absurd hof ((henrolled.declared row).mp hold).2
      · obtain ⟨token, htoken, _, _, rfl⟩ := hfresh row hnew
        exact ⟨token, htoken, rfl⟩
    · rintro ⟨token, htoken, rfl⟩
      obtain ⟨row, hrow, _, _, rfl⟩ := hall token htoken
      exact ⟨_, List.mem_append_right _ hrow, rfl, rfl⟩
  · rw [mem_declaredCapabilities, mem_declaredCapabilities, hrows]
    constructor
    · rintro ⟨row, hrow, hof, rfl⟩
      rcases List.mem_append.mp hrow with hold | hnew
      · exact ⟨row, ((henrolled.declared row).mp hold).1, hof, rfl⟩
      · obtain ⟨token, -, _, _, rfl⟩ := hfresh row hnew
        exact absurd hof.symm hother
    · rintro ⟨row, hrow, rfl, rfl⟩
      exact ⟨row, List.mem_append_left _ ((henrolled.declared row).mpr ⟨hrow, hother⟩), rfl, rfl⟩
  · rw [hrows] at hrow
    rcases List.mem_append.mp hrow with hold | hnew
    · exact Or.inl ((henrolled.declared row).mp hold).1
    · obtain ⟨token, -, _, _, rfl⟩ := hfresh row hnew
      exact Or.inr rfl
  · rw [hrevisions₈, hrevisions₇, henrolled.revisions]

end Register

/-- A registration that fails leaves nothing. -/
theorem register_error {input : RegisterAdapterInput} {s s' : Session} {e : Failure}
    (h : exec (register input) s = (.error e, s')) : s'.db = s.db := by
  rcases exec_bind_error.mp h with hparse | ⟨capabilities, s₁, hparse, htx⟩
  · exact (frame_orThrow (π := fun s : Session => s.db) _).of_exec hparse
  · rw [transaction_error htx]
    exact (frame_orThrow (π := fun s : Session => s.db) _).of_exec hparse

/-- A registration leaves the runs and what they cost alone. -/
theorem frame_register (input : RegisterAdapterInput) :
    Frame (fun s : Session => (s.db.agents.runs, s.db.costRecords)) (register input) := by
  have hadapters : ∀ newId, Frame (fun s : Session => (s.db.agents.runs, s.db.costRecords))
      (insertAdapter newId input) := by
    refine fun newId => frame_execute (fun _ _ _ => rfl) fun s _ db h => ?_
    split at h
    · obtain ⟨-, rfl⟩ := Prod.mk.inj (Option.some.inj h)
      rfl
    · obtain ⟨t, -, hput⟩ := Option.map_eq_some_iff.mp h
      rw [← (Prod.mk.inj hput).2]
      rfl
  have hrewrite : ∀ newId adapterId, Frame
      (fun s : Session => (s.db.agents.runs, s.db.costRecords))
      (rewriteUnlessNew input newId adapterId) := by
    refine fun newId adapterId => frame_ite (frame_bind
      (frame_updateWhere (fun _ _ _ => rfl) (fun _ _ => rfl) _) fun _ =>
        frame_execute (fun _ _ _ => rfl) fun s _ db h => ?_) (frame_pure _)
    rw [← (Prod.mk.inj (Option.some.inj h)).2]
    rfl
  refine frame_bind (frame_orThrow _) fun capabilities =>
    frame_transaction (g := fun db => (db.agents.runs, db.costRecords)) ?_
  exact frame_bind frame_isoNow fun now =>
    frame_bind (frame_generateId fun _ _ _ => rfl) fun newId =>
    frame_bind (hadapters newId) fun _ =>
    frame_bind (frame_require (fun _ _ _ => rfl) _) fun adapterId =>
    frame_bind (hrewrite newId adapterId) fun _ =>
    frame_bind (frame_insertEachFrom (fun _ _ _ => rfl) fun _ _ => rfl) fun _ =>
    frame_bind (frame_bind (frame_query (fun _ _ _ => rfl) _) fun _ =>
      frame_bind (frame_generateId fun _ _ _ => rfl) fun _ =>
      frame_insertInto (fun _ _ _ => rfl) (fun _ _ => rfl) _) fun _ => frame_pure _

/-! ### The revisions of an adapter -/

/-- What registrations keep: the revisions of an adapter are its versions from 1 on, one each, and the
one of its current version is a snapshot of it and of what is declared. -/
structure RegistryExact (db : Db) : Prop where
  versions : ∀ adapter ∈ db.agents.adapters.rows,
    (db.revisionsOf adapter.id).map (·.version) = List.range' 1 adapter.version
  ofAdapter : ∀ revision ∈ db.agents.revisions.rows, ∃ adapter ∈ db.agents.adapters.rows,
    adapter.id = revision.adapterId
  current : ∀ adapter ∈ db.agents.adapters.rows, ∃ revision ∈ db.agents.revisions.rows,
    revision.IsOf adapter ∧ ∀ value, value ∈ db.declaredCapabilities adapter.id ↔
      ∃ token ∈ revision.capabilities, token.literal = value
  owned : ∀ row ∈ db.agents.capabilities.rows, ∃ adapter ∈ db.agents.adapters.rows,
    adapter.id = row.adapterId

/-- The registry before any registration. -/
theorem registryExact_empty : RegistryExact {} := by
  constructor
  · intro adapter h
    cases h
  · intro revision h
    cases h
  · intro adapter h
    cases h
  · intro row h
    cases h

section Exact

variable {db db' : Db} {adapter : AgentAdapter} {revision : AdapterRevision}

theorem mem_revisionsOf {adapterId : String} :
    revision ∈ db.revisionsOf adapterId ↔
      revision ∈ db.agents.revisions.rows ∧ revision.adapterId = adapterId := by
  rw [Db.revisionsOf, Table.select, List.mem_filter, beq_iff_eq]

/-- Two revisions of one adapter and one version are one. -/
theorem RegistryExact.eq_of_version (h : RegistryExact db) {revision' : AdapterRevision}
    (hrevision : revision ∈ db.agents.revisions.rows)
    (hrevision' : revision' ∈ db.agents.revisions.rows)
    (hadapter : revision'.adapterId = revision.adapterId)
    (hversion : revision'.version = revision.version) : revision' = revision := by
  obtain ⟨adapter, hadapters, hid⟩ := h.ofAdapter revision hrevision
  have hnodup : ((db.revisionsOf adapter.id).map (·.version)).Nodup := by
    rw [h.versions adapter hadapters]
    exact List.nodup_range'
  exact List.inj_on_of_nodup_map hnodup
    (mem_revisionsOf.mpr ⟨hrevision', hadapter.trans hid.symm⟩)
    (mem_revisionsOf.mpr ⟨hrevision, hid.symm⟩) hversion

/-- **The revision that a reader gets** for a version that there has been. -/
theorem RegistryExact.getRevisionId_eq (h : RegistryExact db)
    (hrevision : revision ∈ db.agents.revisions.rows) :
    db.getRevisionId revision.adapterId revision.version = some revision.id := by
  rw [Db.getRevisionId]
  rcases hfound : db.agents.revisions.selectBy
    (fun r => r.adapterId == revision.adapterId && r.version == revision.version)
    (fun r r' => decide (r'.createdOrder < r.createdOrder)) with _ | ⟨first, rest⟩
  · have hmem : revision ∈ db.agents.revisions.selectBy
        (fun r => r.adapterId == revision.adapterId && r.version == revision.version)
        (fun r r' => decide (r'.createdOrder < r.createdOrder)) :=
      Table.mem_selectBy.mpr ⟨hrevision, by simp⟩
    rw [hfound] at hmem
    cases hmem
  · have hmem : first ∈ first :: rest := List.mem_cons_self
    rw [← hfound] at hmem
    obtain ⟨hfirst, hp⟩ := Table.mem_selectBy.mp hmem
    rw [Bool.and_eq_true, beq_iff_eq, beq_iff_eq] at hp
    rw [h.eq_of_version hrevision hfirst hp.1 hp.2]
    rfl

theorem Registered.revisionsOf {input : RegisterAdapterInput}
    (h : Registered input db db' adapter revision) (id : String) :
    db'.revisionsOf id = db.revisionsOf id ++ if revision.adapterId = id then [revision] else [] := by
  rw [Db.revisionsOf, Db.revisionsOf, Table.select, Table.select, h.revisions, List.filter_append]
  by_cases hof : revision.adapterId = id
  · simp [hof]
  · simp [hof]

/-- **A registration keeps the revisions exact.** -/
theorem RegistryExact.register {input : RegisterAdapterInput} (h : RegistryExact db)
    (hregistered : Registered input db db' adapter revision) : RegistryExact db' where
  versions a ha := by
    rw [hregistered.revisionsOf, List.map_append]
    rcases (hregistered.adapters a).mp ha with rfl | ⟨hold, hother⟩
    · rw [if_pos hregistered.snapshot.ofAdapter, List.map_singleton, hregistered.snapshot.version]
      rcases hregistered.version with ⟨hfirst, hnew⟩ | ⟨old, hfound, hid, hversion⟩
      · have hnone : db.revisionsOf a.id = [] := by
          refine List.eq_nil_iff_forall_not_mem.mpr fun r hr => ?_
          obtain ⟨hmem, hof⟩ := mem_revisionsOf.mp hr
          obtain ⟨old, hold, hid⟩ := h.ofAdapter r hmem
          exact hnew old hold (hid.trans hof)
        rw [hnone, hfirst]
        rfl
      · have hold := db.agents.adapters.mem_of_find? hfound
        rw [← hid, h.versions old hold, hversion, List.range'_1_concat, Nat.add_comm 1]
    · have hnot : revision.adapterId ≠ a.id := by
        rw [hregistered.snapshot.ofAdapter]
        exact hother.symm
      rw [if_neg hnot, List.map_nil, List.append_nil]
      exact h.versions a hold
  ofAdapter r hr := by
    rw [hregistered.revisions] at hr
    rcases List.mem_append.mp hr with hold | hnew
    · obtain ⟨old, hmem, hid⟩ := h.ofAdapter r hold
      by_cases hsame : old.id = adapter.id
      · exact ⟨adapter, (hregistered.adapters adapter).mpr (Or.inl rfl), hsame.symm.trans hid⟩
      · exact ⟨old, (hregistered.adapters old).mpr (Or.inr ⟨hmem, hsame⟩), hid⟩
    · obtain rfl := List.mem_singleton.mp hnew
      exact ⟨adapter, (hregistered.adapters adapter).mpr (Or.inl rfl),
        hregistered.snapshot.ofAdapter.symm⟩
  current a ha := by
    rcases (hregistered.adapters a).mp ha with rfl | ⟨hold, hother⟩
    · refine ⟨revision, ?_, hregistered.snapshot, fun value => ?_⟩
      · rw [hregistered.revisions]
        exact List.mem_append_right _ (List.mem_singleton.mpr rfl)
      · rw [hregistered.declared, hregistered.capabilities]
    · obtain ⟨r, hr, hof, hdeclared⟩ := h.current a hold
      refine ⟨r, ?_, hof, fun value => ?_⟩
      · rw [hregistered.revisions]
        exact List.mem_append_left _ hr
      · rw [hregistered.others a.id hother]
        exact hdeclared value
  owned row hrow := by
    rcases hregistered.owned row hrow with hold | hof
    · obtain ⟨old, hmem, hid⟩ := h.owned row hold
      by_cases hsame : old.id = adapter.id
      · exact ⟨adapter, (hregistered.adapters adapter).mpr (Or.inl rfl), hsame.symm.trans hid⟩
      · exact ⟨old, (hregistered.adapters old).mpr (Or.inr ⟨hmem, hsame⟩), hid⟩
    · exact ⟨adapter, (hregistered.adapters adapter).mpr (Or.inl rfl), hof.symm⟩

end Exact

end MiniCoder
