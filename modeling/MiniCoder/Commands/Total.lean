import Mathlib.Data.Set.Finite.Lattice
import MiniCoder.Commands.FeatureCommand
import MiniCoder.Commands.RowMove

/-!
# Commands that return

A handler throws where the database refuses a statement, where a row that it inserts is taken, or
where one of its checks fails.  On a `Ready` connection the first does not happen, and the second
does not for the rows under generated ids; what is left are the checks.

* `Session.Ready`, `Session.Grows`: the ids that a connection may still draw are new, and stay so.
* `returns_claimIdempotencyKey`, `returns_writeWorkflowEvent`, …: the helpers return.
* `exists_ready`: there is such a connection to every database.
* `returns_runTransition`: a transition returns when its checks pass.
* `Request.returns_execute`: so does a call under a key that no row has.
-/

open Storage Storage.Action

namespace MiniCoder

/-! ### Connections with new ids -/

/-- The ids of the rows that are inserted under a generated id. -/
def Db.generatedIds (db : Db) : List String :=
  db.idempotencyKeys.rows.map (·.id) ++ db.workflowEvents.rows.map (·.id) ++
    db.outboxEvents.rows.map (·.id) ++ db.pullRequests.rows.map (·.id)

theorem Db.mem_generatedIds {db : Db} {id : String} : id ∈ db.generatedIds ↔
    (∃ row ∈ db.idempotencyKeys.rows, row.id = id) ∨ (∃ row ∈ db.workflowEvents.rows, row.id = id) ∨
      (∃ row ∈ db.outboxEvents.rows, row.id = id) ∨ ∃ row ∈ db.pullRequests.rows, row.id = id := by
  simp [generatedIds]

namespace Session

/-- The database refuses the connection nothing, and no row has an id that it may still draw. -/
structure Ready (s : Session) : Prop where
  willing : s.Willing
  distinct : Function.Injective s.runtime.ids
  fresh : ∀ n, s.drawn ≤ n → s.runtime.ids n ∉ s.db.generatedIds

/-- `s'` comes of `s` by statements whose new rows have ids that were drawn for them. -/
structure Grows (s s' : Session) : Prop where
  runtime : s'.runtime = s.runtime
  drawn : s.drawn ≤ s'.drawn
  ids : ∀ id ∈ s'.db.generatedIds, id ∈ s.db.generatedIds ∨
    ∃ n, s.drawn ≤ n ∧ n < s'.drawn ∧ s.runtime.ids n = id

variable {s s' s'' : Session}

theorem Grows.trans (h : s.Grows s') (h' : s'.Grows s'') : s.Grows s'' where
  runtime := h'.runtime.trans h.runtime
  drawn := h.drawn.trans h'.drawn
  ids := by
    intro id hid
    rcases h'.ids id hid with hold | ⟨n, hle, hlt, hdrawn⟩
    · rcases h.ids id hold with holder | ⟨n, hle, hlt, hdrawn⟩
      · exact Or.inl holder
      · have hdrawn' := h'.drawn
        exact Or.inr ⟨n, hle, by omega, hdrawn⟩
    · have hdrawn' := h.drawn
      rw [h.runtime] at hdrawn
      exact Or.inr ⟨n, by omega, hlt, hdrawn⟩

/-- A statement that inserts no row. -/
theorem Grows.of_subset (hrt : s'.runtime = s.runtime) (hdrawn : s'.drawn = s.drawn)
    (hids : ∀ id ∈ s'.db.generatedIds, id ∈ s.db.generatedIds) : s.Grows s' :=
  ⟨hrt, hdrawn.ge, fun id hid => Or.inl (hids id hid)⟩

theorem Reads.grows (h : s.Reads s') : s.Grows s' :=
  .of_subset h.runtime h.drawn fun id hid => by rwa [h.db] at hid

/-- Statements that insert at most a row under the one id that they draw. -/
theorem Grows.of_insert (hrt : s'.runtime = s.runtime) (hdrawn : s'.drawn = s.drawn + 1)
    (hids : ∀ id ∈ s'.db.generatedIds, id ∈ s.db.generatedIds ∨ s.runtime.ids s.drawn = id) :
    s.Grows s' where
  runtime := hrt
  drawn := by omega
  ids := by
    intro id hid
    rcases hids id hid with hold | hnew
    · exact Or.inl hold
    · exact Or.inr ⟨s.drawn, Nat.le_refl _, by omega, hnew⟩

/-- **A connection stays ready**: the ids that it draws are distinct. -/
theorem Ready.grows (hs : s.Ready) (h : s.Grows s') : s'.Ready where
  willing := by
    intro n
    rw [h.runtime]
    exact hs.willing n
  distinct := by
    rw [h.runtime]
    exact hs.distinct
  fresh := by
    intro n hn hid
    rw [h.runtime] at hid
    have hdrawn := h.drawn
    rcases h.ids _ hid with hold | ⟨m, -, hlt, heq⟩
    · exact hs.fresh n (by omega) hold
    · have hsame : m = n := hs.distinct heq
      omega

/-- A connection is ready when a new one to the same tables is. -/
theorem Ready.of_start (h : (Session.start s.db s.runtime).Ready) : s.Ready :=
  ⟨h.willing, h.distinct, fun n _ => h.fresh n (Nat.zero_le n)⟩

theorem Ready.reads (hs : s.Ready) (h : s.Reads s') : s'.Ready := hs.grows h.grows

/-- The next id is the id of no row. -/
theorem Ready.next (hs : s.Ready) :
    (∀ row ∈ s.db.idempotencyKeys.rows, row.id ≠ s.runtime.ids s.drawn) ∧
      (∀ row ∈ s.db.workflowEvents.rows, row.id ≠ s.runtime.ids s.drawn) ∧
      (∀ row ∈ s.db.outboxEvents.rows, row.id ≠ s.runtime.ids s.drawn) ∧
      ∀ row ∈ s.db.pullRequests.rows, row.id ≠ s.runtime.ids s.drawn := by
  have hnew := hs.fresh s.drawn (Nat.le_refl _)
  rw [Db.mem_generatedIds] at hnew
  refine ⟨fun row hrow hid => ?_, fun row hrow hid => ?_, fun row hrow hid => ?_,
    fun row hrow hid => ?_⟩
  · exact hnew (Or.inl ⟨row, hrow, hid⟩)
  · exact hnew (Or.inr (Or.inl ⟨row, hrow, hid⟩))
  · exact hnew (Or.inr (Or.inr (Or.inl ⟨row, hrow, hid⟩)))
  · exact hnew (Or.inr (Or.inr (Or.inr ⟨row, hrow, hid⟩)))

end Session

/-! ### The helpers -/

section Helpers

variable {s : Session}

/-- **A claim of a key without a live row owns it.** -/
theorem returns_claimIdempotencyKey {key scope : String} {ttlMs : ℤ} (hs : s.Ready)
    (hfree : ∀ row ∈ s.db.idempotencyKeys.rows, Db.isKey key scope row = true →
      row.expiresAt ≤ s.runtime.now) :
    Returns (claimIdempotencyKey key scope ttlMs) s fun claim s' =>
      (∃ claimId, claim = .owned claimId) ∧ s.Grows s' := by
  refine returns_generateId.bind fun claimId s₁ hreturned₁ => ?_
  obtain ⟨hid, hdb₁, hrt₁, hdrawn₁⟩ := hreturned₁
  refine returns_isoNow.bind fun now s₂ hreturned₂ => ?_
  obtain ⟨hnow, hs₂⟩ := hreturned₂
  subst hs₂
  rw [hrt₁] at hnow
  refine (returns_ttlIso ttlMs).bind fun expiresAt s₃ hreturned₃ => ?_
  obtain ⟨_, hs₃⟩ := hreturned₃
  subst hs₃
  have hwilling₁ : s₃.Willing := by
    intro n
    rw [hrt₁]
    exact hs.willing n
  refine (returns_execute hwilling₁ rfl).bind fun _ s₄ hreturned₄ => ?_
  obtain ⟨_, hdb₄, hrt₄, hdrawn₄⟩ := hreturned₄
  have hwilling₄ : s₄.Willing := by
    intro n
    rw [hrt₄]
    exact hwilling₁ n
  -- no row of the key is left after the delete, and the insert does something
  have hdelete : s₄.db = s.db.deleteExpiredKey key scope s.runtime.now := by
    rw [hdb₄, hdb₁, hnow]
  have hleft : ∀ row ∈ s₄.db.idempotencyKeys.rows,
      row ∈ s.db.idempotencyKeys.rows ∧ Db.isKey key scope row = false := by
    intro row hrow
    rw [hdelete] at hrow
    obtain ⟨hmem, hkept⟩ := mem_deleteExpiredKey.mp hrow
    refine ⟨hmem, ?_⟩
    by_contra hkey
    rw [Bool.not_eq_false] at hkey
    exact hkept ⟨hkey, hfree row hmem hkey⟩
  have hcount : s₄.db.idempotencyKeys.count (Db.isKey key scope) = 0 :=
    Table.count_eq_zero.mpr fun row hrow => (hleft row hrow).2
  obtain ⟨t, ht⟩ : ∃ t, s₄.db.idempotencyKeys.insert? { id := claimId, key, scope, expiresAt } =
      some t := by
    refine Table.insert?_isSome fun row hrow => ?_
    obtain ⟨hmem, hkey⟩ := hleft row hrow
    have hne := hs.next.1 row hmem
    rw [← hid] at hne
    refine decide_eq_false ?_
    rintro (hsame | hsame)
    · exact hne hsame
    · obtain ⟨rfl, rfl⟩ := Prod.mk.inj hsame
      simp [Db.isKey] at hkey
  have hinsert : s₄.db.insertKey { id := claimId, key, scope, expiresAt } =
      some (1, { s₄.db with idempotencyKeys := t }) := by
    rw [Db.insertKey, if_pos hcount, ht]
    rfl
  refine (returns_execute hwilling₄ hinsert).bind fun inserted s₅ hreturned₅ => ?_
  obtain ⟨hone, hdb₅, hrt₅, hdrawn₅⟩ := hreturned₅
  rw [if_pos hone]
  refine returns_pure ⟨⟨claimId, rfl⟩, .of_insert (hrt₅.trans (hrt₄.trans hrt₁)) ?_ ?_⟩
  · rw [hdrawn₅, hdrawn₄, hdrawn₁]
  · intro id hmem
    rw [hdb₅, Db.mem_generatedIds] at hmem
    rcases hmem with ⟨row, hrow, hrowId⟩ | hother
    · rcases (Table.mem_insert? ht).mp hrow with hold | rfl
      · exact Or.inl (Db.mem_generatedIds.mpr (Or.inl ⟨row, (hleft row hold).1, hrowId⟩))
      · exact Or.inr (hid.symm.trans hrowId)
    · rw [hdelete] at hother
      exact Or.inl (Db.mem_generatedIds.mpr (Or.inr hother))

/-- **A claim of a key that holds a result** replays it, and writes nothing. -/
theorem returns_claimIdempotencyKey_replay {key scope : String} {ttlMs : ℤ} {cached : CachedResult}
    (hs : s.Willing) (hcached : s.db.findCachedResult key scope s.runtime.now = some cached) :
    Returns (claimIdempotencyKey key scope ttlMs) s fun claim s' =>
      claim = .replay cached.toCommandResult ∧ s'.Willing ∧ s'.db = s.db := by
  obtain ⟨row, hrow, hkey, hlive, hresult⟩ := Db.findCachedResult_iff.mp hcached
  refine returns_generateId.bind fun claimId s₁ hreturned₁ => ?_
  obtain ⟨-, hdb₁, hrt₁, -⟩ := hreturned₁
  refine returns_isoNow.bind fun now s₂ hreturned₂ => ?_
  obtain ⟨hnow, hs₂⟩ := hreturned₂
  subst hs₂
  rw [hrt₁] at hnow
  refine (returns_ttlIso ttlMs).bind fun expiresAt s₃ hreturned₃ => ?_
  obtain ⟨_, hs₃⟩ := hreturned₃
  subst hs₃
  have hwilling₁ : s₃.Willing := by
    intro n
    rw [hrt₁]
    exact hs n
  refine (returns_execute hwilling₁ rfl).bind fun _ s₄ hreturned₄ => ?_
  obtain ⟨_, hdb₄, hrt₄, -⟩ := hreturned₄
  have hwilling₄ : s₄.Willing := by
    intro n
    rw [hrt₄]
    exact hwilling₁ n
  -- the row of the key is live, and the delete finds no other
  have hdelete : s₄.db = s.db := by
    rw [hdb₄, hdb₁, hnow, Db.deleteExpiredKey, Table.delete_eq_self]
    intro r hr
    by_contra hcon
    rw [Bool.not_eq_false, Bool.and_eq_true, decide_eq_true_eq] at hcon
    rw [IdempotencyKey.eq_of_isKey hr hrow hcon.1 hkey] at hcon
    omega
  have hinsert : s₄.db.insertKey { id := claimId, key, scope, expiresAt } = some (0, s₄.db) := by
    refine if_neg fun hcount => ?_
    have hother := Table.count_eq_zero.mp hcount row (hdelete ▸ hrow)
    rw [hkey] at hother
    cases hother
  refine (returns_execute hwilling₄ hinsert).bind fun inserted s₅ hreturned₅ => ?_
  obtain ⟨hzero, hdb₅, hrt₅, -⟩ := hreturned₅
  rw [if_neg (by omega)]
  have hwilling₅ : s₅.Willing := by
    intro n
    rw [hrt₅]
    exact hwilling₄ n
  refine (returns_query hwilling₅ _).bind fun existing s₆ hreturned₆ => ?_
  obtain ⟨hexisting, hreads⟩ := hreturned₆
  have hdb₆ : s₆.db = s.db := hreads.db.trans (hdb₅.trans hdelete)
  have hfound : existing.bind (·.result) = some cached := by
    rw [hexisting, hdb₅, hdelete, hnow, Db.findLiveKey_eq hrow hkey hlive]
    exact hresult
  rw [hfound]
  exact returns_pure ⟨rfl, hreads.willing hwilling₅, hdb₆⟩

theorem returns_fulfillIdempotencyKey (hs : s.Ready) (claimId : String) (result : CommandResult) :
    Returns (fulfillIdempotencyKey claimId result) s fun _ s' => s.Grows s' := by
  refine (returns_execute hs.willing rfl).imp fun _ s' ⟨_, hdb, hrt, hdrawn⟩ => ?_
  refine .of_subset hrt hdrawn fun id hid => ?_
  rw [hdb, Db.mem_generatedIds] at hid
  rcases hid with ⟨row, hrow, hrowId⟩ | hother
  · -- the `SET` list of a fulfilment has no id
    obtain ⟨r, hr, rfl⟩ := mem_fulfillKey.mp hrow
    refine Db.mem_generatedIds.mpr (Or.inl ⟨r, hr, ?_⟩)
    rw [← hrowId]
    unfold Table.updateRow
    split <;> rfl
  · exact Db.mem_generatedIds.mpr (Or.inr hother)

theorem returns_writeWorkflowEvent (hs : s.Ready) (opts : WorkflowEventOpts) :
    Returns (writeWorkflowEvent opts) s fun _ s' => s.Grows s' := by
  refine returns_generateId.bind fun id s₁ ⟨hid, hdb₁, hrt₁, hdrawn₁⟩ => ?_
  refine returns_isoNow.bind fun now s₂ ⟨_, hs₂⟩ => ?_
  subst hs₂
  have hwilling : s₂.Willing := by
    intro n
    rw [hrt₁]
    exact hs.willing n
  have hnew : ∀ row ∈ s₂.db.workflowEvents.rows, row.id ≠ id := by
    rw [hdb₁, hid]
    exact hs.next.2.1
  refine (returns_insert hwilling (·.workflowEvents) (fun db t => { db with workflowEvents := t })
    fun row hrow => decide_eq_false (hnew row hrow)).bind
      fun _ s₃ ⟨t, ht, hdb₃, hrt₃, hdrawn₃⟩ => ?_
  refine returns_pure (.of_insert (hrt₃.trans hrt₁) (by rw [hdrawn₃, hdrawn₁]) fun id' hmem => ?_)
  rw [hdb₃, hdb₁, Db.mem_generatedIds] at hmem
  rw [hdb₁] at ht
  rw [Db.mem_generatedIds]
  rcases hmem with hkey | ⟨row, hrow, hrowId⟩ | hother
  · exact Or.inl (Or.inl hkey)
  · rcases (Table.mem_insert? ht).mp hrow with hold | rfl
    · exact Or.inl (Or.inr (Or.inl ⟨row, hold, hrowId⟩))
    · exact Or.inr (hid.symm.trans hrowId)
  · exact Or.inl (Or.inr (Or.inr hother))

theorem returns_writeOutboxEvent (hs : s.Ready) (eventType : String) (payload : Payload) :
    Returns (writeOutboxEvent eventType payload) s fun _ s' => s.Grows s' := by
  refine returns_generateId.bind fun id s₁ ⟨hid, hdb₁, hrt₁, hdrawn₁⟩ => ?_
  refine (returns_read (Q := fun _ s => s = s₁) rfl).bind fun redact s₂ hs₂ => ?_
  subst hs₂
  have hwilling : s₂.Willing := by
    intro n
    rw [hrt₁]
    exact hs.willing n
  have hnew : ∀ row ∈ s₂.db.outboxEvents.rows, row.id ≠ id := by
    rw [hdb₁, hid]
    exact hs.next.2.2.1
  refine (returns_insert hwilling (·.outboxEvents) (fun db t => { db with outboxEvents := t })
    fun row hrow => decide_eq_false (hnew row hrow)).bind
      fun _ s₃ ⟨t, ht, hdb₃, hrt₃, hdrawn₃⟩ => ?_
  refine returns_pure (.of_insert (hrt₃.trans hrt₁) (by rw [hdrawn₃, hdrawn₁]) fun id' hmem => ?_)
  rw [hdb₃, hdb₁, Db.mem_generatedIds] at hmem
  rw [hdb₁] at ht
  rw [Db.mem_generatedIds]
  rcases hmem with hkey | hevent | ⟨row, hrow, hrowId⟩ | hother
  · exact Or.inl (Or.inl hkey)
  · exact Or.inl (Or.inr (Or.inl hevent))
  · rcases (Table.mem_insert? ht).mp hrow with hold | rfl
    · exact Or.inl (Or.inr (Or.inr (Or.inl ⟨row, hold, hrowId⟩)))
    · exact Or.inr (hid.symm.trans hrowId)
  · exact Or.inl (Or.inr (Or.inr (Or.inr hother)))

theorem returns_recordMove (hs : s.Ready) (events : List WorkflowEventOpts)
    (outbox : List (String × Payload)) :
    Returns (recordMove events outbox) s fun _ s' => s.Grows s' := by
  have hevents : Returns (writeWorkflowEvents events) s fun _ s' => s.Grows s' := by
    induction events generalizing s with
    | nil => exact returns_pure (.of_subset rfl rfl fun _ hid => hid)
    | cons opts events ih =>
      refine (returns_writeWorkflowEvent hs opts).bind fun _ s₁ hgrows₁ => ?_
      refine (ih (hs.grows hgrows₁)).bind fun _ s₂ hgrows₂ => ?_
      exact returns_pure (hgrows₁.trans hgrows₂)
  refine hevents.bind fun ids s₁ hgrows₁ => ?_
  have houtbox : Returns (writeOutboxEvents outbox) s₁ fun _ s' => s.Grows s' := by
    have hready := hs.grows hgrows₁
    clear hevents
    induction outbox generalizing s₁ with
    | nil => exact returns_pure hgrows₁
    | cons row outbox ih =>
      refine (returns_writeOutboxEvent hready row.1 row.2).bind fun _ s₂ hgrows₂ => ?_
      exact ih s₂ (hgrows₁.trans hgrows₂) (hready.grows hgrows₂)
  exact houtbox.bind fun _ s₂ hgrows₂ => returns_pure hgrows₂

/-- A finding whose id is taken is left out, so that the loop never throws. -/
theorem returns_insertReviewFindings (hs : s.Ready) (featureRunId : String)
    (reviewerRunId : Option String) (reviewCycle : ℕ) (findings : List ReviewFindingInsert) :
    Returns (insertReviewFindings featureRunId reviewerRunId reviewCycle findings) s
      fun _ s' => s.Grows s' := by
  suffices h : ∀ index, Returns (insertReviewFindingsFrom featureRunId reviewerRunId reviewCycle
      index findings) s fun _ s' => s.Grows s' from h 0
  induction findings generalizing s with
  | nil => exact fun _ => returns_pure (.of_subset rfl rfl fun _ hid => hid)
  | cons finding findings ih =>
    intro index
    have hinsert : ∀ row, ∃ db, s.db.insertReviewFinding row = some ((), db) ∧
        db.generatedIds = s.db.generatedIds := by
      intro row
      unfold Db.insertReviewFinding
      split
      · exact ⟨_, rfl, rfl⟩
      · exact ⟨_, rfl, rfl⟩
    obtain ⟨db, hdb, hids⟩ := hinsert _
    refine (returns_execute hs.willing hdb).bind fun _ s₁ ⟨_, hdb₁, hrt₁, hdrawn₁⟩ => ?_
    have hgrows : s.Grows s₁ := .of_subset hrt₁ hdrawn₁ fun id hid => by rwa [hdb₁, hids] at hid
    exact (ih (hs.grows hgrows) (index + 1)).imp fun _ _ h => hgrows.trans h

theorem returns_insertPullRequestRow (hs : s.Ready) (opts : PullRequestOpened) :
    Returns (insertPullRequestRow opts) s fun _ s' => s.Grows s' := by
  refine returns_generateId.bind fun id s₁ ⟨hid, hdb₁, hrt₁, hdrawn₁⟩ => ?_
  have hwilling₁ : s₁.Willing := by
    intro n
    rw [hrt₁]
    exact hs.willing n
  refine (returns_query hwilling₁ _).bind fun existing s₂ ⟨hexisting, hreads⟩ => ?_
  have hwilling := hreads.willing hwilling₁
  have hdb₂ : s₂.db = s.db := hreads.db.trans hdb₁
  have hrt₂ : s₂.runtime = s.runtime := hreads.runtime.trans hrt₁
  have hdrawn₂ : s₂.drawn = s.drawn + 1 := hreads.drawn.trans hdrawn₁
  by_cases hsome : existing.isSome = true
  · rw [if_pos hsome]
    refine (returns_execute hwilling rfl).imp fun _ s₃ ⟨_, hdb₃, hrt₃, hdrawn₃⟩ => ?_
    refine .of_insert (hrt₃.trans hrt₂) (hdrawn₃.trans hdrawn₂) fun id' hmem => Or.inl ?_
    rw [hdb₃, hdb₂, Db.mem_generatedIds] at hmem
    rw [Db.mem_generatedIds]
    rcases hmem with hkey | hevent | houtbox | ⟨row, hrow, hrowId⟩
    · exact Or.inl hkey
    · exact Or.inr (Or.inl hevent)
    · exact Or.inr (Or.inr (Or.inl houtbox))
    · -- the `SET` list has no id
      obtain ⟨pr, hpr, rfl⟩ := List.mem_map.mp hrow
      refine Or.inr (Or.inr (Or.inr ⟨pr, hpr, ?_⟩))
      rw [← hrowId]
      unfold Table.updateRow
      split <;> rfl
  · rw [if_neg hsome]
    have hnone : s₂.db.findPullRequest opts.featureRunId = none := by
      rw [hexisting, Option.not_isSome_iff_eq_none] at hsome
      rw [hreads.db]
      exact hsome
    have hnew : ∀ row ∈ s₂.db.pullRequests.rows,
        ¬ (row.id = id ∨ row.featureRunId = opts.featureRunId) := by
      rintro row hrow (hsame | hsame)
      · rw [hdb₂] at hrow
        rw [hid] at hsame
        exact hs.next.2.2.2 row hrow hsame
      · have hother := (Table.find?_eq_none _).mp hnone row hrow
        rw [beq_eq_false_iff_ne] at hother
        exact hother hsame
    refine (returns_insert hwilling (·.pullRequests) (fun db t => { db with pullRequests := t })
      fun row hrow => decide_eq_false (hnew row hrow)).imp
        fun _ s₃ ⟨t, ht, hdb₃, hrt₃, hdrawn₃⟩ => ?_
    refine .of_insert (hrt₃.trans hrt₂) (hdrawn₃.trans hdrawn₂) fun id' hmem => ?_
    rw [hdb₃, hdb₂, Db.mem_generatedIds] at hmem
    rw [hdb₂] at ht
    rw [Db.mem_generatedIds]
    rcases hmem with hkey | hevent | houtbox | ⟨row, hrow, hrowId⟩
    · exact Or.inl (Or.inl hkey)
    · exact Or.inl (Or.inr (Or.inl hevent))
    · exact Or.inl (Or.inr (Or.inr (Or.inl houtbox)))
    · rcases (Table.mem_insert? ht).mp hrow with hold | rfl
      · exact Or.inl (Or.inr (Or.inr (Or.inr ⟨row, hold, hrowId⟩)))
      · exact Or.inr (hid.symm.trans hrowId)

/-- The lock context is the valid token of the project's execution lane. -/
def LaneHeld (db : Db) (now : ℤ) (projectId : String) (ctx : LockContext) : Prop :=
  checkLockFence (db.findLock ctx.lockId) now
    { ctx with projectId := some projectId, resourceKey := some (executionLane projectId) } = .ok ()

theorem returns_requireExecutionLane {P : Type} {commandName projectId : String}
    {envelope : CommandEnvelope P} {ctx : LockContext} (hs : s.Willing)
    (hctx : envelope.lockContext = some ctx) (h : LaneHeld s.db s.runtime.now projectId ctx) :
    Returns (requireExecutionLane commandName projectId envelope) s fun _ s' => s.Reads s' := by
  unfold requireExecutionLane
  rw [hctx]
  refine returns_isoNow.bind fun now s₁ ⟨hnow, hs₁⟩ => ?_
  subst hs₁
  refine (returns_query hs _).bind fun current s₂ ⟨hcurrent, hreads⟩ => ?_
  rw [hcurrent, hnow]
  exact (returns_orThrow h).imp fun _ s₃ ⟨_, hs₃⟩ => hs₃ ▸ hreads

theorem returns_assertBelowFixThreshold {run : FeatureRun} (correlationId : String)
    (h : run.fixAttemptCount < fixAttemptThreshold) :
    Returns (assertBelowFixThreshold run correlationId) s fun _ s' => s.Reads s' := by
  unfold assertBelowFixThreshold
  rw [if_neg (by omega)]
  exact returns_pure (.refl s)

end Helpers

/-! ### Transitions -/

/-- `EXISTS (SELECT 1 FROM workflow_states WHERE project_id = ? AND automation_state = 'running')`. -/
def AutomationRunning (db : Db) (projectId : String) : Prop :=
  ∃ ws ∈ db.workflowStates.rows, ws.projectId = projectId ∧ ws.automationState = .running

section Transitions

variable {t : Transition} {s : Session} {run : FeatureRun}

theorem Transition.returns_load (hs : s.Willing) (correlationId : String)
    (hfound : s.db.findFeatureRun t.featureRunId t.projectId = some run)
    (hversion : run.version = t.expectedVersion)
    (hvalid : isValid run.currentExecutionState t.toState = true) :
    Returns (t.load correlationId) s fun run' s' => run' = run ∧ s.Reads s' := by
  refine (returns_query hs _).bind fun row s₁ ⟨hrow, hreads⟩ => ?_
  rw [hfound] at hrow
  rw [if_neg fun hmissing => Option.some_ne_none run (hrow.symm.trans hmissing.2), hrow]
  have hassert : assertVersion "feature_runs" t.featureRunId (some run) t.expectedVersion =
      .ok run := if_pos hversion
  refine (returns_orThrow hassert).bind fun run' s₂ ⟨hrun', hs₂⟩ => ?_
  subst hrun' hs₂
  obtain ⟨edge, hlookup⟩ := Option.isSome_iff_exists.mp hvalid
  have hedge : assertValid run'.currentExecutionState t.toState = .ok edge := by
    rw [assertValid, hlookup]
  refine (returns_orThrow hedge).bind fun _ s₃ ⟨_, hs₃⟩ => ?_
  subst hs₃
  exact returns_pure ⟨rfl, hreads⟩

theorem Transition.returns_move (hs : s.Ready)
    (hfound : s.db.findFeatureRun t.featureRunId t.projectId = some run)
    (hversion : run.version = t.expectedVersion)
    (hrunning : t.whileRunning = true → AutomationRunning s.db t.projectId) :
    Returns t.move s fun _ s' => s.Grows s' := by
  refine (returns_execute hs.willing rfl).bind fun affected s₁ ⟨haffected, hdb, hrt, hdrawn⟩ => ?_
  have hmatches : t.matchesRun s.db run = true := by
    obtain ⟨-, hid, -⟩ := Db.findFeatureRun_some hfound
    have hautomation : (!t.whileRunning || (s.db.workflowStates.find? fun ws =>
        ws.projectId == t.projectId && ws.automationState == .running).isSome) = true := by
      rcases hwhile : t.whileRunning with _ | _
      · rfl
      · obtain ⟨ws, hws, hproject, hstate⟩ := hrunning hwhile
        have hfind : (s.db.workflowStates.find? fun ws =>
            ws.projectId == t.projectId && ws.automationState == .running).isSome = true := by
          refine List.find?_isSome.mpr ⟨ws, hws, ?_⟩
          rw [hproject, hstate]
          simp
        rw [hfind]
        rfl
    rw [Transition.matchesRun, hautomation, hid, hversion]
    simp
  have hcount : affected ≠ 0 := by
    rw [haffected]
    intro hzero
    have hno := Table.count_eq_zero.mp hzero run (Db.findFeatureRun_some hfound).1
    rw [hmatches] at hno
    cases hno
  rw [if_neg hcount]
  refine returns_pure (.of_subset hrt hdrawn fun id hid => ?_)
  rw [hdb] at hid
  exact hid

/-- **A transition returns when its checks pass.** -/
theorem returns_runTransition {P : Type} {envelope : CommandEnvelope P} (hs : s.Ready)
    (hprologue : Returns t.prologue s fun _ s' => s.Reads s')
    (hfound : s.db.findFeatureRun t.featureRunId t.projectId = some run)
    (hversion : run.version = t.expectedVersion)
    (hvalid : isValid run.currentExecutionState t.toState = true)
    (hguard : ∀ s' : Session, s.Reads s' → Returns (t.guard run) s' fun _ s'' => s'.Reads s'')
    (hrunning : t.whileRunning = true → AutomationRunning s.db t.projectId)
    (heffects : ∀ g (s' : Session), s'.Ready → s'.db.workflowStates = s.db.workflowStates →
      Returns (t.effects run g) s' fun _ s'' => s'.Grows s'')
    (hcascade : t.cascade run = pure ()) :
    Returns (runTransition envelope t) s fun _ s' => s.Grows s' := by
  refine hprologue.bind fun _ s₁ hreads₁ => ?_
  have hload := Transition.returns_load (hreads₁.willing hs.willing) envelope.correlationId
    (hreads₁.db ▸ hfound) hversion hvalid
  refine hload.bind fun run' s₂ ⟨hrun', hreads₂⟩ => ?_
  subst hrun'
  refine (hguard s₂ (hreads₁.trans hreads₂)).bind fun g s₃ hreads₃ => ?_
  have hreads : s.Reads s₃ := (hreads₁.trans hreads₂).trans hreads₃
  have hready := hs.reads hreads
  have hmove := Transition.returns_move hready (hreads.db ▸ hfound) hversion
    (hreads.db ▸ hrunning)
  have hpointers : Frame (fun s : Session => s.db.workflowStates) t.move :=
    Transition.frame_move.map fun view => view.1.workflowStates
  refine (hmove.and_frame hpointers).bind fun _ s₄ ⟨hgrows₄, hpointers₄⟩ => ?_
  rw [hreads.db] at hpointers₄
  refine (heffects g s₄ (hready.grows hgrows₄) hpointers₄).bind fun _ s₅ hgrows₅ => ?_
  have hready₅ := (hready.grows hgrows₄).grows hgrows₅
  have hrecord : Returns (t.record envelope run' g) s₅ fun _ s' => s₅.Grows s' := by
    refine (returns_writeWorkflowEvent hready₅ _).bind fun eventId s₆ hgrows₆ => ?_
    refine (returns_writeOutboxEvent (hready₅.grows hgrows₆) _ _).bind fun _ s₇ hgrows₇ => ?_
    exact returns_pure (hgrows₆.trans hgrows₇)
  refine hrecord.bind fun eventId s₆ hgrows₆ => ?_
  rw [hcascade]
  refine (returns_pure (Q := fun _ s => s = s₆) rfl).bind fun _ s₇ hs₇ => ?_
  subst hs₇
  exact returns_pure (((hreads.grows.trans hgrows₄).trans hgrows₅).trans hgrows₆)

end Transitions

/-! ### Connections that exist -/

/-- **There is a connection with new ids**, at a time when every row of the keys has expired. -/
theorem exists_ready (db : Db) : ∃ rt : Runtime,
    (∀ row ∈ db.idempotencyKeys.rows, row.expiresAt ≤ rt.now) ∧ (Session.start db rt).Ready := by
  obtain ⟨now, hnow⟩ := (List.finite_toSet (db.idempotencyKeys.rows.map (·.expiresAt))).bddAbove
  obtain ⟨width, hwidth⟩ := (List.finite_toSet (db.generatedIds.map String.length)).bddAbove
  -- ids that are longer than the ids that are taken
  refine ⟨{ now, ids := fun n => String.ofList (List.replicate (width + 1 + n) 'i') }, ?_, ?_⟩
  · intro row hrow
    exact hnow (List.mem_map_of_mem hrow)
  · refine ⟨fun _ => rfl, fun m n hsame => ?_, fun n _ hmem => ?_⟩
    · have hlength := congrArg String.length hsame
      simp only [Session.start, String.length_ofList, List.length_replicate] at hlength
      omega
    · have hle : (String.ofList (List.replicate (width + 1 + n) 'i')).length ≤ width :=
        hwidth (List.mem_map_of_mem hmem)
      rw [String.length_ofList, List.length_replicate] at hle
      omega

/-! ### Calls -/

section Calls

variable {P : Type} {handler : CommandHandler P} {envelope : CommandEnvelope P} {s : Session}

theorem returns_precheck (hs : s.Willing)
    (hrole : assertRole envelope.actor handler.requiredRole handler.commandName
      handler.requiredActorKind = .ok ()) :
    Returns (precheck handler envelope) s fun cached s' =>
      cached = (s.db.findCachedResult envelope.idempotencyKey handler.idempotencyScope
        s.runtime.now).map (·.toCommandResult) ∧ s.Reads s' := by
  refine (returns_orThrow hrole).bind fun _ s₁ ⟨_, hs₁⟩ => ?_
  subst hs₁
  refine returns_isoNow.bind fun now s₂ ⟨hnow, hs₂⟩ => ?_
  subst hs₂
  refine (returns_query hs _).bind fun cached s₃ ⟨hcached, hreads⟩ => ?_
  exact returns_pure ⟨by rw [hcached, hnow], hreads⟩

/-- **A transaction under a free key returns** when the work of the handler does. -/
theorem CommandHandler.returns_transact {ev : handler.Evidence} (hs : s.Ready)
    (hfree : ∀ row ∈ s.db.idempotencyKeys.rows, Db.isKey envelope.idempotencyKey
      handler.idempotencyScope row = true → row.expiresAt ≤ s.runtime.now)
    (hwork : ∀ (keys : Table IdempotencyKey) (s' : Session), s'.Ready →
      s'.db = { s.db with idempotencyKeys := keys } → s'.runtime = s.runtime →
      Returns (handler.body envelope ev) s' fun _ s'' => s'.Grows s'') :
    Returns (handler.transact envelope ev) s fun _ s' => s.Grows s' := by
  apply returns_transaction
  have hframe : Frame (fun s : Session => Request.withoutKeys s.db)
      (claimIdempotencyKey envelope.idempotencyKey handler.idempotencyScope handler.ttlMs) :=
    frame_claimIdempotencyKey (fun _ _ _ => rfl) (fun _ _ => rfl) _ _ _
  have hclaim := (returns_claimIdempotencyKey hs hfree).and_frame hframe
  refine hclaim.bind fun claim s₁ ⟨⟨⟨claimId, hclaimed⟩, hgrows₁⟩, hkeys⟩ => ?_
  subst hclaimed
  have hready₁ := hs.grows hgrows₁
  refine (hwork _ s₁ hready₁ (Request.eq_of_withoutKeys hkeys) hgrows₁.runtime).bind
    fun result s₂ hgrows₂ => ?_
  have hready₂ := hready₁.grows hgrows₂
  refine (returns_fulfillIdempotencyKey hready₂ claimId result).bind fun _ s₃ hgrows₃ => ?_
  refine returns_pure ⟨(hready₂.grows hgrows₃).willing, fun s₄ hcommit => ?_⟩
  exact ((hgrows₁.trans hgrows₂).trans hgrows₃).trans hcommit.grows

/-- **A transaction under a key that holds a result** returns it, and writes nothing. -/
theorem CommandHandler.returns_transact_replay {ev : handler.Evidence} {cached : CachedResult}
    (hs : s.Willing) (hcached : s.db.findCachedResult envelope.idempotencyKey
      handler.idempotencyScope s.runtime.now = some cached) :
    Returns (handler.transact envelope ev) s fun result s' =>
      result = cached.toCommandResult ∧ s'.db = s.db := by
  apply returns_transaction
  refine (returns_claimIdempotencyKey_replay hs hcached).bind
    fun claim s₁ ⟨hclaimed, hwilling, hdb⟩ => ?_
  subst hclaimed
  exact returns_pure ⟨hwilling, fun s₂ hcommit => ⟨rfl, hcommit.db.trans hdb⟩⟩

end Calls

/-! ### Requests -/

/-- The key of a request has no row. -/
def Request.Unused (request : Request) (db : Db) : Prop :=
  ∀ row ∈ db.idempotencyKeys.rows,
    Db.isKey request.envelope.idempotencyKey request.handler.idempotencyScope row = false

namespace Request

variable {request : Request} {s : Session}

theorem returns_precheck (hs : s.Willing)
    (hrole : assertRole request.envelope.actor request.handler.requiredRole
      request.handler.commandName request.handler.requiredActorKind = .ok ())
    (hunused : request.Unused s.db) :
    Returns (precheck request.handler request.envelope) s fun cached s' =>
      cached = none ∧ s.Reads s' := by
  refine (MiniCoder.returns_precheck hs hrole).imp fun cached s' ⟨hcached, hreads⟩ => ⟨?_, hreads⟩
  have hnone := cachedResult_of_unused s.runtime.now hunused
  exact hcached.trans (congrArg (Option.map (·.toCommandResult)) hnone)

/-- The transaction of a request under a key without a row. -/
theorem returns_commit {ev : request.Evidence} (hs : s.Ready) (hunused : request.Unused s.db)
    (hwork : ∀ (keys : Table IdempotencyKey) (s' : Session), s'.Ready →
      s'.db = { s.db with idempotencyKeys := keys } → s'.runtime = s.runtime →
      Returns (runTransition request.envelope (request.transition ev)) s' fun _ s'' =>
        s'.Grows s'') :
    Returns (request.commit ev) s fun _ s' => s.Grows s' := by
  refine CommandHandler.returns_transact hs (fun row hrow hkey => ?_) hwork
  rw [hunused row hrow] at hkey
  cases hkey

/-- **A call under a key without a row returns** when the role of its actor suffices and its
transition returns. -/
theorem returns_execute (hs : s.Ready)
    (hrole : assertRole request.envelope.actor request.handler.requiredRole
      request.handler.commandName request.handler.requiredActorKind = .ok ())
    (hunused : request.Unused s.db)
    (hgather : ∀ s' : Session, Returns request.gather s' fun _ s'' => s'' = s')
    (hwork : ∀ (ev : request.Evidence) (keys : Table IdempotencyKey) (s' : Session), s'.Ready →
      s'.db = { s.db with idempotencyKeys := keys } → s'.runtime = s.runtime →
      Returns (runTransition request.envelope (request.transition ev)) s' fun _ s'' =>
        s'.Grows s'') :
    Returns request.execute s fun _ s' => s.Grows s' := by
  refine (returns_precheck hs.willing hrole hunused).bind fun cached s₁ ⟨hcached, hreads⟩ => ?_
  subst hcached
  refine (hgather s₁).bind fun ev s₂ hs₂ => ?_
  subst hs₂
  have hcommit : Returns (request.commit ev) s₂ fun _ s' => s₂.Grows s' := by
    refine returns_commit (hs.reads hreads) (hreads.db ▸ hunused) fun keys s' hready hdb hrt => ?_
    exact hwork ev keys s' hready (hreads.db ▸ hdb) (hrt.trans hreads.runtime)
  refine hcommit.bind fun result s₃ hgrows => ?_
  have hfinish : request.handler.finish result = .ok result := rfl
  refine (returns_orThrow hfinish).imp fun _ s₄ ⟨_, hs₄⟩ => ?_
  subst hs₄
  exact hreads.grows.trans hgrows

/-- **What a call under a key without a row left of the keys**: the rows that were there, and rows
of its own key. -/
theorem keys_execute {result : CommandResult} {s' : Session}
    (h : exec request.execute s = (.ok result, s')) :
    ∀ row ∈ s'.db.idempotencyKeys.rows, row ∈ s.db.idempotencyKeys.rows ∨
      row.scope = request.handler.idempotencyScope := by
  intro row hrow
  rcases executeCommand_ok h with ⟨hsame, -⟩ | ⟨ev, s₁, s₂, hdb₁, -, hgather, htransact⟩
  · rw [hsame] at hrow
    exact Or.inl hrow
  · have hkeys : s₂.db.idempotencyKeys = s₁.db.idempotencyKeys :=
      congrArg Prod.fst ((request.handler.evidence_keys request.envelope).of_exec hgather)
    rw [hdb₁] at hkeys
    rcases CommandHandler.transact_ok htransact with ⟨hsame, -⟩ | ⟨-, claimId, hrows⟩
    · rw [hsame, hkeys] at hrow
      exact Or.inl hrow
    · rcases (hrows row).mp hrow with ⟨hold, -⟩ | rfl
      · rw [hkeys] at hold
        exact Or.inl hold
      · exact Or.inr rfl

end Request

end MiniCoder
