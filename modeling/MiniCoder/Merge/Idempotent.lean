import MiniCoder.Invariants.ExactlyOnce
import MiniCoder.Merge.Machine

/-!
# The idempotency of the merge route

Any number of requests with one `Idempotency-Key`, within its time to live.  The row of the key is
written by three statements of the route: the insertion that makes a request its owner, the response
that the owner stores in it, and the release that deletes it.  Every other step of the system, the
commands' own claims included, leaves it alone.

* `keyed_advance`: what a step of a request does to the rows of the route's scope.
* `claimed_next`: the row of a key that has an owner is the owner's, so that there is one owner.
* `spent_next`: once the SCM has merged on the call of a request, its claim stands.
* `answered_next`: once a response is stored, the row answers with it.
* `route_idempotency`: the three together, over a run.
-/

open Storage Storage.Action Runs

namespace MiniCoder

namespace RoutePhase

/-- The request owns its claim: it has inserted it, and has neither ended nor died. -/
def Owns : RoutePhase → Prop
  | clearing | inserting | reading | done _ => False
  | _ => True

/-- The SCM has merged on the call of the request, or the request is over. -/
def HasMerged : RoutePhase → Prop
  | checking (.recordMerged _ _) | gathering (.recordMerged _ _) _
  | committing (.recordMerged _ _) _ _ | responding _ true | done _ => True
  | _ => False

/-- The request is before the claim, or was answered with the response, unless the database refused
it a statement or its process died. -/
def Receives (response : RouteResponse) : RoutePhase → Prop
  | clearing | inserting | reading => True
  | done (.responded r) => r = response
  | done (.failed (.thrown .database)) | done .crashed => True
  | _ => False

theorem owns_onThrow {phase : RoutePhase} {failure : RouteFailure}
    (h : (phase.onThrow failure).Owns) : phase.Owns := by
  cases phase with
  | clearing => cases h
  | inserting => cases h
  | reading => cases h
  | done outcome => cases h
  | _ => trivial

theorem HasMerged.onThrow {phase : RoutePhase} (h : phase.HasMerged) (failure : RouteFailure) :
    (phase.onThrow failure).HasMerged := by
  unfold HasMerged at h
  split at h
  all_goals trivial

theorem Receives.not_owns {phase : RoutePhase} {response : RouteResponse}
    (h : phase.Receives response) : ¬ phase.Owns := by
  intro howns
  cases phase with
  | clearing => exact howns
  | inserting => exact howns
  | reading => exact howns
  | done outcome => exact howns
  | _ => exact h

end RoutePhase

/-- No command has the scope of the route. -/
theorem FeatureCommand.scope_ne (c : FeatureCommand) :
    c.handler.idempotencyScope ≠ routeIdempotencyScope := by
  cases c <;> decide

/-- The transaction of a command leaves the claims of the route alone. -/
theorem Request.keeps_routeKey {request : Request} {ev : request.Evidence} {s s' : Session}
    {r : Except Failure CommandResult} (key : String) (since : ℤ)
    (h : exec (request.commit ev) s = (r, s')) :
    KeepsLiveKey key routeIdempotencyScope since s.db s'.db :=
  CommandHandler.keeps_other_key (fun heq => request.command.scope_ne (Prod.mk.inj heq).2) h

/-! ### What a step of a request does to the claims -/

namespace Route

variable (route : Route) (key : String) (since : ℤ) (rt : Runtime) (db : Db)

/-- Everything that a step of a request can do to the claims of the route. -/
inductive Keyed : Db × RoutePhase → Prop
  | kept {db' : Db} {phase : RoutePhase}
    (hkeys : KeepsLiveKey key routeIdempotencyScope since db db')
    (howns : phase.Owns → route.phase.Owns) : Keyed (db', phase)
  | cleared (hphase : route.phase = .clearing) :
    Keyed (db.deleteExpiredKey route.call.key routeIdempotencyScope route.slot.now, .inserting)
  | inserted {db' : Db} (hphase : route.phase = .inserting)
    (hfree : ∀ row ∈ db.idempotencyKeys.rows,
      Db.isKey route.call.key routeIdempotencyScope row = false)
    (hrows : db'.idempotencyKeys.rows = db.idempotencyKeys.rows ++ [{
      id := route.slot.claimId
      key := route.call.key
      scope := routeIdempotencyScope
      expiresAt := route.slot.expiresAt }]) : Keyed (db', .claimed)
  | fulfilled {response : RouteResponse} {merged : Bool}
    (hphase : route.phase = .responding response merged) :
    Keyed (db.fulfillKey route.slot.claimId (.route response), .done (.responded response))
  | released {failure : RouteFailure} (hphase : route.phase = .releasing failure) :
    Keyed ({ db with
      idempotencyKeys := db.idempotencyKeys.delete fun row => row.id == route.slot.claimId },
      .done (.failed failure))

variable {route key since rt db}

/-- A step that leaves the keys alone. -/
theorem keyed_of_frame (hframe : Frame (fun s : Session => s.db.idempotencyKeys) route.act)
    (howns : ∀ {phase : RoutePhase} {s : Session},
      exec route.act (.start db rt) = (.ok phase, s) → phase.Owns → route.phase.Owns) :
    route.Keyed key since db (route.advance rt db) := by
  unfold advance
  rcases hact : exec route.act (.start db rt) with ⟨e | phase, s⟩
  · exact .kept (.of_eq (hframe.of_exec hact)) RoutePhase.owns_onThrow
  · exact .kept (.of_eq (hframe.of_exec hact)) (howns hact)

/-- **What a step of a request does to the claims of the route.** -/
theorem keyed_advance : route.Keyed key since db (route.advance rt db) := by
  have hπ : SeesData (fun s : Session => s.db.idempotencyKeys) := fun _ _ _ => rfl
  rcases route with ⟨call, slot, phase⟩
  -- an owner that reads stays one
  have hreads : ∀ {phase : RoutePhase}, phase.Owns →
      Frame (fun s : Session => s.db.idempotencyKeys) (⟨call, slot, phase⟩ : Route).act →
      (⟨call, slot, phase⟩ : Route).Keyed key since db
        ((⟨call, slot, phase⟩ : Route).advance rt db) :=
    fun howns hframe => keyed_of_frame hframe fun _ _ => howns
  cases phase with
  | clearing =>
    rcases hclear : exec (clearRouteKey call.key slot) (.start db rt) with ⟨e | u, s⟩
    · have hsame := exec_statement_error hclear
      simp only [advance, act, exec_bind, hclear, hsame]
      exact .kept (.of_eq rfl) fun h => h
    · obtain ⟨hdb, -⟩ := execute_ok hclear
      obtain ⟨-, hdb⟩ := Prod.mk.inj (Option.some.inj hdb)
      simp only [advance, act, exec_bind, hclear, exec_pure, ← hdb]
      exact .cleared rfl
  | inserting =>
    rcases hinsert : exec (insertRouteKey call.key slot) (.start db rt) with ⟨e | inserted, s⟩
    · have hsame := exec_statement_error hinsert
      simp only [advance, act, exec_bind, hinsert, hsame]
      exact .kept (.of_eq rfl) fun h => h
    · obtain ⟨hdb, -⟩ := execute_ok hinsert
      rw [Session.start_db] at hdb
      unfold Db.insertKey at hdb
      split at hdb
      · rename_i hcount
        obtain ⟨t, ht, hpair⟩ := Option.map_eq_some_iff.mp hdb
        obtain ⟨rfl, hs⟩ := Prod.mk.inj hpair
        simp only [advance, act, exec_bind, hinsert, if_true, exec_pure]
        refine .inserted rfl (Table.count_eq_zero.mp hcount) ?_
        rw [← hs]
        exact Table.rows_insert? ht
      · obtain ⟨rfl, hs⟩ := Prod.mk.inj (Option.some.inj hdb)
        simp only [advance, act, exec_bind, hinsert, if_neg Nat.zero_ne_one, exec_pure]
        exact .kept (.of_eq (congrArg Db.idempotencyKeys hs.symm)) fun h => h
  | reading =>
    have hframe : Frame (fun s : Session => s.db.idempotencyKeys) (readRouteKey call.key slot) :=
      frame_bind (frame_query hπ _) fun _ => frame_pure _
    rcases hread : exec (readRouteKey call.key slot) (.start db rt) with ⟨e | (_ | response), s⟩
    all_goals
      have hkeys := hframe.of_exec hread
      simp only [advance, act, exec_bind, hread]
      exact .kept (.of_eq hkeys) fun h => h
  | claimed => exact hreads trivial (frame_fetchFeatureRun hπ _)
  | found version => exact hreads trivial (frame_bind (frame_query hπ _) fun _ => frame_pure _)
  | mirrored version pr =>
    refine hreads trivial (frame_bind (frame_query hπ _) fun repo => ?_)
    cases pr with
    | none => exact frame_pure _
    | some pr =>
      cases repo with
      | none => exact frame_pure _
      | some repo => exact frame_pure _
  | checking step =>
    refine hreads trivial (frame_bind (frame_generateId hπ) fun commandId =>
      frame_bind (frame_precheck hπ) fun cached => ?_)
    cases cached with
    | none => exact frame_pure _
    | some result => exact frame_pure _
  | gathering step commandId =>
    have hevidence : Frame evidenceView (step.request call commandId).gather :=
      step.command.handler.evidence_only _
    exact hreads trivial (frame_bind (hevidence.map fun v => v.1.idempotencyKeys) fun _ => frame_pure _)
  | committing step commandId ev =>
    rcases hcommit : exec ((step.request call commandId).commit ev) (.start db rt) with ⟨r, s⟩
    have hkeys : KeepsLiveKey key routeIdempotencyScope since db s.db :=
      Request.keeps_routeKey (s := .start db rt) key since hcommit
    cases r with
    | error e =>
      simp only [advance, act, exec_bind, hcommit]
      exact .kept hkeys fun _ => trivial
    | ok result =>
      simp only [advance, act, exec_bind, hcommit, exec_pure]
      exact .kept hkeys fun _ => trivial
  | dispatched target => exact hreads trivial (frame_fetchFeatureRun hπ _)
  | calling target version => exact hreads trivial (frame_pure _)
  | rejected e => exact hreads trivial (frame_fetchFeatureRun hπ _)
  | responding response merged =>
    rcases hfulfil : exec (fulfillRouteIdempotencyKey slot.claimId response) (.start db rt) with
      ⟨e | u, s⟩
    · have hsame := exec_statement_error hfulfil
      simp only [advance, act, exec_bind, hfulfil, hsame]
      exact .kept (.of_eq rfl) fun _ => trivial
    · obtain ⟨hdb, -⟩ := execute_ok hfulfil
      obtain ⟨-, hdb⟩ := Prod.mk.inj (Option.some.inj hdb)
      simp only [advance, act, exec_bind, hfulfil, exec_pure, ← hdb]
      exact .fulfilled rfl
  | releasing failure =>
    rcases hrelease : exec (releaseRouteIdempotencyKey slot.claimId) (.start db rt) with ⟨e | u, s⟩
    · have hsame := exec_statement_error hrelease
      simp only [advance, act, exec_bind, hrelease, hsame]
      exact .kept (.of_eq rfl) fun _ => trivial
    · obtain ⟨hdb, -⟩ := execute_ok hrelease
      obtain ⟨-, hdb⟩ := Prod.mk.inj (Option.some.inj hdb)
      simp only [advance, act, exec_bind, hrelease, exec_pure, ← hdb]
      exact .released rfl
  | done outcome => exact .kept (.of_eq rfl) fun h => h

/-- A request on whose call the SCM has merged records it, stores its response, and ends. -/
theorem hasMerged_advance (h : route.phase.HasMerged) : (route.advance rt db).2.HasMerged := by
  rcases hact : exec route.act (.start db rt) with ⟨e | phase, s⟩
  · simp only [advance, hact]
    exact h.onThrow _
  · simp only [advance, hact]
    rcases route with ⟨call, slot, before⟩
    cases before with
    | checking step =>
      obtain ⟨commandId, s₁, -, h₁⟩ := exec_bind_ok.mp hact
      obtain ⟨cached, s₂, -, h₂⟩ := exec_bind_ok.mp h₁
      cases step with
      | recordMerged version mergeSha =>
        cases cached with
        | none =>
          rw [← Except.ok.inj (Prod.mk.inj h₂).1]
          trivial
        | some result =>
          rw [← Except.ok.inj (Prod.mk.inj h₂).1]
          trivial
      | _ => cases h
    | gathering step commandId =>
      obtain ⟨ev, s₁, -, hrest⟩ := exec_bind_ok.mp hact
      rw [← Except.ok.inj (Prod.mk.inj hrest).1]
      cases step with
      | recordMerged version mergeSha => trivial
      | _ => cases h
    | committing step commandId ev =>
      obtain ⟨result, s₁, -, hrest⟩ := exec_bind_ok.mp hact
      rw [← Except.ok.inj (Prod.mk.inj hrest).1]
      cases step with
      | recordMerged version mergeSha => trivial
      | _ => cases h
    | responding response merged =>
      obtain ⟨u, s₁, -, hrest⟩ := exec_bind_ok.mp hact
      rw [← Except.ok.inj (Prod.mk.inj hrest).1]
      trivial
    | done outcome =>
      rw [← Except.ok.inj (Prod.mk.inj hact).1]
      trivial
    | _ => cases h

/-- A request that was answered with its response has stored it. -/
theorem advance_stored {response : RouteResponse} {merged : Bool}
    (hphase : route.phase = .responding response merged)
    (hdone : (route.advance rt db).2 = .done (.responded response)) :
    (route.advance rt db).1 = db.fulfillKey route.slot.claimId (.route response) := by
  rcases route with ⟨call, slot, phase⟩
  obtain rfl : phase = .responding response merged := hphase
  rcases hfulfil : exec (fulfillRouteIdempotencyKey slot.claimId response) (.start db rt) with
    ⟨e | u, s⟩
  · simp only [advance, act, exec_bind, hfulfil] at hdone
    cases merged with
    | true => cases hdone
    | false => cases hdone
  · obtain ⟨hdb, -⟩ := execute_ok hfulfil
    obtain ⟨-, hdb⟩ := Prod.mk.inj (Option.some.inj hdb)
    simp only [advance, act, exec_bind, hfulfil, exec_pure, ← hdb]
    rfl

/-- **A request that finds a stored response receives it.** -/
theorem receives_advance {response : RouteResponse} {row : IdempotencyKey}
    (hrow : row ∈ db.idempotencyKeys.rows)
    (hkey : Db.isKey route.call.key routeIdempotencyScope row = true)
    (hlive : route.slot.now < row.expiresAt) (hresult : row.result = some (.route response))
    (h : route.phase.Receives response) : (route.advance rt db).2.Receives response := by
  rcases route with ⟨call, slot, phase⟩
  cases phase with
  | clearing =>
    rcases hclear : exec (clearRouteKey call.key slot) (.start db rt) with ⟨e | u, s⟩
    · obtain rfl := execute_error hclear
      simp only [advance, act, exec_bind, hclear]
      trivial
    · simp only [advance, act, exec_bind, hclear, exec_pure]
      trivial
  | inserting =>
    rcases hinsert : exec (insertRouteKey call.key slot) (.start db rt) with ⟨e | inserted, s⟩
    · obtain rfl := execute_error hinsert
      simp only [advance, act, exec_bind, hinsert]
      trivial
    · -- the row is there, so that the insertion does nothing
      obtain ⟨hdb, -⟩ := execute_ok hinsert
      rw [Session.start_db] at hdb
      unfold Db.insertKey at hdb
      split at hdb
      · rename_i hcount
        have hnone := Table.count_eq_zero.mp hcount row hrow
        rw [hkey] at hnone
        cases hnone
      · obtain ⟨rfl, -⟩ := Prod.mk.inj (Option.some.inj hdb)
        simp only [advance, act, exec_bind, hinsert, if_neg Nat.zero_ne_one, exec_pure]
        trivial
  | reading =>
    rcases hread : exec (readRouteKey call.key slot) (.start db rt) with ⟨e | found, s⟩
    · have he : e = .database := by
        rcases exec_bind_error.mp hread with hquery | ⟨r, s₁, -, hpure⟩
        · exact query_error hquery
        · cases hpure
      simp only [advance, act, exec_bind, hread, he]
      trivial
    · obtain ⟨r, s₁, hquery, hpure⟩ := exec_bind_ok.mp hread
      obtain ⟨hr, -, -⟩ := query_ok hquery
      have hfound : db.findLiveKey call.key routeIdempotencyScope slot.now = some row :=
        Db.findLiveKey_eq hrow hkey hlive
      have hresponse := Except.ok.inj (Prod.mk.inj hpure).1
      rw [hr, Session.start_db, hfound, Option.bind_some, hresult] at hresponse
      simp only [advance, act, exec_bind, hread, ← hresponse]
      exact rfl
  | done outcome => exact h
  | _ => cases h

end Route

/-! ### The rows of a key -/

/-- A row of the key, of the route's scope, that is live after `since`. -/
structure Db.LiveRow (key : String) (since : ℤ) (db : Db) (row : IdempotencyKey) : Prop where
  mem : row ∈ db.idempotencyKeys.rows
  isKey : Db.isKey key routeIdempotencyScope row = true
  live : since < row.expiresAt

section Rows

variable {key claimId : String} {since : ℤ} {db db' : Db} {row row' : IdempotencyKey}

theorem Db.LiveRow.unique (h : db.LiveRow key since row) (h' : db.LiveRow key since row') :
    row = row' :=
  IdempotencyKey.eq_of_isKey h.mem h'.mem h.isKey h'.isKey

theorem Db.LiveRow.kept (h : db.LiveRow key since row)
    (hkeys : KeepsLiveKey key routeIdempotencyScope since db db') : db'.LiveRow key since row :=
  ⟨(hkeys row h.isKey h.live).mpr h.mem, h.isKey, h.live⟩

theorem Db.LiveRow.of_kept (h : db'.LiveRow key since row)
    (hkeys : KeepsLiveKey key routeIdempotencyScope since db db') : db.LiveRow key since row :=
  ⟨(hkeys row h.isKey h.live).mp h.mem, h.isKey, h.live⟩

/-- A row that is fulfilled stays where it was. -/
theorem Db.LiveRow.fulfilled (result : CachedResult) (h : db.LiveRow key since row)
    (hid : row.id = claimId) :
    (db.fulfillKey claimId result).LiveRow key since (Db.fulfilled result row) where
  mem := mem_fulfillKey.mpr ⟨row, h.mem, Table.updateRow_of_pos (beq_iff_eq.mpr hid)⟩
  isKey := h.isKey
  live := h.live

/-- The rows of other claims are not fulfilled. -/
theorem Db.LiveRow.fulfilled_of_ne (result : CachedResult) (h : db.LiveRow key since row)
    (hid : row.id ≠ claimId) : (db.fulfillKey claimId result).LiveRow key since row where
  mem := mem_fulfillKey.mpr ⟨row, h.mem, Table.updateRow_of_neg (beq_eq_false_iff_ne.mpr hid)⟩
  isKey := h.isKey
  live := h.live

theorem Db.LiveRow.of_fulfilled {result : CachedResult}
    (h : (db.fulfillKey claimId result).LiveRow key since row') :
    ∃ row, db.LiveRow key since row ∧ row.expiresAt = row'.expiresAt := by
  obtain ⟨row, hrow, heq⟩ := mem_fulfillKey.mp h.mem
  have hkey := h.isKey
  have hlive := h.live
  unfold Table.updateRow at heq
  split at heq
  · rw [← heq] at hkey hlive ⊢
    exact ⟨row, ⟨hrow, hkey, hlive⟩, rfl⟩
  · rw [← heq] at hkey hlive ⊢
    exact ⟨row, ⟨hrow, hkey, hlive⟩, rfl⟩

end Rows

/-! ### Where a request can come in one step -/

namespace MergeState

variable {s : MergeState} {n k : ℕ} {route route' : Route} {e : MergeEvent}

theorem next_route_none {rt : Runtime} (hroute : s.routes k = none) :
    s.next (.route k rt) = s := by
  simp [next, hroute]

/-- Everything that a step can do to the phase of a request. -/
inductive PhaseStep (s : MergeState) (k : ℕ) (route : Route) : MergeEvent → RoutePhase → Prop
  | stayed {e : MergeEvent} : PhaseStep s k route e route.phase
  | advanced {rt : Runtime} : PhaseStep s k route (.route k rt) (route.advance rt s.db).2
  | answered {behaviour : ServerBehaviour} {message : String} {target : MergeTarget}
    {version : ℕ} (hphase : route.phase = .calling target version) :
    PhaseStep s k route (.call k behaviour message) (Route.answered version
      (mergePullRequest target.key.prNumber (s.scm.reply target.options behaviour message)))
  | unresolved {version : ℕ} {target : MergeTarget}
    (hphase : route.phase = .checking (.mergeIfReady version target)) :
    PhaseStep s k route (.unresolved k) (.releasing .outside)
  | crashed : PhaseStep s k route (.crash k) (.done .crashed)

/-- **Everything that a step can do to a request**: it is new, or keeps its call and its slot. -/
theorem phase_next (h : (s.next e).routes k = some route') :
    (s.routes k = none ∧ ∃ request rt call, e = .arrive k request rt ∧
        request.validate = .ok call ∧ route' = { call, slot := .at rt }) ∨
      ∃ route phase, s.routes k = some route ∧ route' = { route with phase } ∧
        s.PhaseStep k route e phase := by
  have hstay : s.routes k = some route' → ∃ route phase, s.routes k = some route ∧
      route' = { route with phase } ∧ s.PhaseStep k route e phase :=
    fun hroute => ⟨route', route'.phase, hroute, rfl, .stayed⟩
  cases e with
  | sys e => exact Or.inr (hstay h)
  | scm scm => exact Or.inr (hstay h)
  | sync featureRunId observed rt => exact Or.inr (hstay h)
  | arrive n request rt =>
    replace h : (s.arriveRoute n request rt).routes k = some route' := h
    unfold arriveRoute at h
    split at h
    · rename_i call hnone hcall
      rcases put_cases h with ⟨rfl, rfl⟩ | hkept
      · exact Or.inl ⟨hnone, request, rt, call, rfl, hcall, rfl⟩
      · exact Or.inr (hstay hkept)
    · exact Or.inr (hstay h)
  | route n rt =>
    right
    cases hn : s.routes n with
    | none =>
      rw [next_route_none hn] at h
      exact hstay h
    | some route =>
      rw [next_route hn] at h
      rcases put_cases h with ⟨rfl, rfl⟩ | hkept
      · exact ⟨route, _, hn, rfl, .advanced⟩
      · exact hstay hkept
  | call n behaviour message =>
    right
    cases hn : s.routes n with
    | none =>
      have hsame : s.next (.call n behaviour message) = s := by simp [next, hn]
      rw [hsame] at h
      exact hstay h
    | some route =>
      have hnext : s.next (.call n behaviour message) = s.callRoute n behaviour message route := by
        simp [next, hn]
      rw [hnext] at h
      unfold callRoute at h
      split at h
      · rename_i hphase
        rcases put_cases h with ⟨rfl, rfl⟩ | hkept
        · exact ⟨route, _, hn, rfl, .answered hphase⟩
        · exact hstay hkept
      · exact hstay h
  | unresolved n =>
    right
    cases hn : s.routes n with
    | none =>
      have hsame : s.next (.unresolved n) = s := by simp [next, hn]
      rw [hsame] at h
      exact hstay h
    | some route =>
      have hnext : s.next (.unresolved n) = s.loseRoute n route := by simp [next, hn]
      rw [hnext] at h
      unfold loseRoute at h
      split at h
      · rename_i hphase
        rcases put_cases h with ⟨rfl, rfl⟩ | hkept
        · exact ⟨route, _, hn, rfl, .unresolved hphase⟩
        · exact hstay hkept
      · exact hstay h
  | crash n =>
    right
    cases hn : s.routes n with
    | none =>
      have hsame : s.next (.crash n) = s := by simp [next, hn]
      rw [hsame] at h
      exact hstay h
    | some route =>
      have hnext : s.next (.crash n) = s.killRoute n route := by simp [next, hn]
      rw [hnext] at h
      rcases put_cases h with ⟨rfl, rfl⟩ | hkept
      · exact ⟨route, _, hn, rfl, .crashed⟩
      · exact hstay hkept

/-- A request that has arrived stays, in the phase it comes to. -/
theorem some_next (hroute : s.routes k = some route) :
    ∃ phase, (s.next e).routes k = some { route with phase } ∧ s.PhaseStep k route e phase := by
  have hput : ∀ (n : ℕ) (mover : Route), ∃ route', s.put n mover k = some route' := by
    intro n mover
    unfold put
    by_cases hk : k = n
    · exact ⟨mover, by rw [hk, Function.update_self]⟩
    · exact ⟨route, by rw [Function.update_of_ne hk, hroute]⟩
  have hsome : ∃ route', (s.next e).routes k = some route' := by
    have hstep := s.next_stepped e
    generalize s.next e = s' at hstep
    cases hstep with
    | arrived hcall => exact hput _ _
    | advanced hmover => exact hput _ _
    | called hmover hphase => exact hput _ _
    | ended hmover hquiet hdone => exact hput _ _
    | _ => exact ⟨route, hroute⟩
  obtain ⟨route', hroute'⟩ := hsome
  rcases phase_next hroute' with ⟨hnone, -⟩ | ⟨before, phase, hbefore, rfl, hphase⟩
  · rw [hroute] at hnone
    cases hnone
  · rw [hroute] at hbefore
    obtain rfl := Option.some.inj hbefore
    exact ⟨phase, hroute', hphase⟩

/-! ### One owner -/

/-- What is asked of the steps: a request draws a fresh claim id; the requests of the key arrive
within its time to live; and others leave the rows of the key alone. -/
def KeepsKey (key : String) (since : ℤ) (s : MergeState) : MergeEvent → Prop
  | .arrive _ request rt =>
    (∀ k route, s.routes k = some route → route.slot.claimId ≠ rt.ids 0) ∧
      ∀ call, request.validate = .ok call → call.key = key →
        since ≤ rt.now ∧ rt.now < since + routeIdempotencyTtlMs
  | .sys (.other db) => KeepsLiveKey key routeIdempotencyScope since s.db db
  | _ => True

/-- The claims of the requests of a key, and its row. -/
structure Claimed (key : String) (since : ℤ) (s : MergeState) : Prop where
  /-- The requests of the key arrived within its time to live. -/
  slots : ∀ k route, s.routes k = some route → route.call.key = key →
    since ≤ route.slot.now ∧ route.slot.now < since + routeIdempotencyTtlMs ∧
      route.slot.expiresAt = route.slot.now + routeIdempotencyTtlMs
  ids : ∀ k k' route route', s.routes k = some route → s.routes k' = some route' →
    route.slot.claimId = route'.slot.claimId → k = k'
  expires : ∀ row, s.db.LiveRow key since row → since + routeIdempotencyTtlMs ≤ row.expiresAt
  /-- The row of a key that has an owner is the owner's, and is not fulfilled yet. -/
  owned : ∀ k route, s.routes k = some route → route.call.key = key → route.phase.Owns →
    ∃ row, s.db.LiveRow key since row ∧ row.id = route.slot.claimId ∧ row.result = none

/-- Of the requests of a key, at most one is its owner. -/
def OneOwner (key : String) (s : MergeState) : Prop :=
  ∀ k k' route route', s.routes k = some route → s.routes k' = some route' →
    route.call.key = key → route'.call.key = key → route.phase.Owns → route'.phase.Owns → k = k'

variable {key : String} {since : ℤ} {row : IdempotencyKey} {rt : Runtime}

/-- **At most one owner**: two would own one row. -/
theorem Claimed.oneOwner (h : s.Claimed key since) : s.OneOwner key := by
  intro k k' route route' hroute hroute' hkey hkey' howns howns'
  obtain ⟨row, hrow, hid, -⟩ := h.owned k route hroute hkey howns
  obtain ⟨row', hrow', hid', -⟩ := h.owned k' route' hroute' hkey' howns'
  have hsame := hrow.unique hrow'
  exact h.ids k k' route route' hroute hroute' (by rw [← hid, ← hid', hsame])

/-- The row of a claim that has an owner, or had one, is the owner's alone. -/
theorem Claimed.not_owns (h : s.Claimed key since) (hroute : s.routes n = some route)
    (hrow : s.db.LiveRow key since row) (hid : row.id = route.slot.claimId)
    (hroute' : s.routes k = some route') (hkey' : route'.call.key = key) (hk : k ≠ n) :
    ¬ route'.phase.Owns := by
  intro howns
  obtain ⟨row', hrow', hid', -⟩ := h.owned k route' hroute' hkey' howns
  rw [hrow'.unique hrow, hid] at hid'
  exact hk (h.ids k n route' route hroute' hroute hid'.symm)

/-- The clearing of an expired row leaves the live rows of the key alone. -/
theorem Claimed.kept_cleared (h : s.Claimed key since) (hroute : s.routes k = some route) :
    KeepsLiveKey key routeIdempotencyScope since s.db
      (s.db.deleteExpiredKey route.call.key routeIdempotencyScope route.slot.now) := by
  intro row hkey hlive
  rw [mem_deleteExpiredKey]
  refine ⟨And.left, fun hrow => ⟨hrow, ?_⟩⟩
  rintro ⟨hkey', hexpired⟩
  have hcall : route.call.key = key := by
    simp only [Db.isKey, Bool.and_eq_true, beq_iff_eq] at hkey hkey'
    rw [← hkey.1, hkey'.1]
  have hlimit := h.expires row ⟨hrow, hkey, hlive⟩
  have hnow := (h.slots k route hroute hcall).2.1
  omega

/-- **What a step of a request does to a live row of the key**: only the owner of the row fulfils or
deletes it. -/
theorem Claimed.row_advance (h : s.Claimed key since) (hroute : s.routes k = some route)
    (hrow : s.db.LiveRow key since row) :
    (route.advance rt s.db).1.LiveRow key since row ∨ row.id = route.slot.claimId ∧
      ((∃ response merged, route.phase = .responding response merged ∧
          (route.advance rt s.db).1.LiveRow key since (Db.fulfilled (.route response) row) ∧
          (route.advance rt s.db).2 = .done (.responded response)) ∨
        ∃ failure, route.phase = .releasing failure) := by
  have hadv : route.Keyed key since s.db (route.advance rt s.db) := route.keyed_advance
  generalize route.advance rt s.db = next at hadv
  cases hadv with
  | kept hkeys howns => exact Or.inl (hrow.kept hkeys)
  | cleared hphase => exact Or.inl (hrow.kept (h.kept_cleared hroute))
  | inserted hphase hfree hrows =>
    left
    refine ⟨?_, hrow.isKey, hrow.live⟩
    rw [hrows]
    exact List.mem_append_left _ hrow.mem
  | @fulfilled response merged hphase =>
    by_cases hid : row.id = route.slot.claimId
    · exact Or.inr ⟨hid, Or.inl ⟨response, merged, hphase, hrow.fulfilled _ hid, rfl⟩⟩
    · exact Or.inl (hrow.fulfilled_of_ne _ hid)
  | @released failure hphase =>
    by_cases hid : row.id = route.slot.claimId
    · exact Or.inr ⟨hid, Or.inr ⟨failure, hphase⟩⟩
    · left
      refine ⟨Table.mem_delete.mpr ⟨hrow.mem, ?_⟩, hrow.isKey, hrow.live⟩
      simpa using hid

/-- A live row of the key that a step of a request leaves was there, or is the request's new one. -/
theorem Claimed.row_of_advance (h : s.Claimed key since) (hroute : s.routes k = some route)
    (hrow : (route.advance rt s.db).1.LiveRow key since row) :
    (∃ row', s.db.LiveRow key since row' ∧ row'.expiresAt = row.expiresAt) ∨
      (route.call.key = key ∧ row.expiresAt = route.slot.expiresAt) := by
  have hadv : route.Keyed key since s.db (route.advance rt s.db) := route.keyed_advance
  generalize route.advance rt s.db = next at hadv hrow
  cases hadv with
  | kept hkeys howns => exact Or.inl ⟨row, hrow.of_kept hkeys, rfl⟩
  | cleared hphase => exact Or.inl ⟨row, hrow.of_kept (h.kept_cleared hroute), rfl⟩
  | inserted hphase hfree hrows =>
    have hmem := hrow.mem
    rw [hrows, List.mem_append, List.mem_singleton] at hmem
    rcases hmem with hold | rfl
    · exact Or.inl ⟨row, ⟨hold, hrow.isKey, hrow.live⟩, rfl⟩
    · have hkey := hrow.isKey
      simp only [Db.isKey, Bool.and_eq_true, beq_iff_eq] at hkey
      exact Or.inr ⟨hkey.1, rfl⟩
  | fulfilled hphase => exact Or.inl hrow.of_fulfilled
  | released hphase =>
    have hmem : row ∈ s.db.idempotencyKeys.rows := (Table.mem_delete.mp hrow.mem).1
    exact Or.inl ⟨row, ⟨hmem, hrow.isKey, hrow.live⟩, rfl⟩

/-- A request that comes to own the key has inserted its row; one that stays its owner keeps it. -/
theorem Claimed.owned_advance (h : s.Claimed key since) (hroute : s.routes k = some route)
    (hkey : route.call.key = key) (howns : (route.advance rt s.db).2.Owns) :
    ∃ row, (route.advance rt s.db).1.LiveRow key since row ∧ row.id = route.slot.claimId ∧
      row.result = none := by
  have hrow : route.phase.Owns → ∃ row, s.db.LiveRow key since row ∧
      row.id = route.slot.claimId ∧ row.result = none := h.owned k route hroute hkey
  have hslot := h.slots k route hroute hkey
  have hadv : route.Keyed key since s.db (route.advance rt s.db) := route.keyed_advance
  generalize route.advance rt s.db = next at hadv howns
  cases hadv with
  | kept hkeys hbefore =>
    obtain ⟨row, hlive, hid, hnone⟩ := hrow (hbefore howns)
    exact ⟨row, hlive.kept hkeys, hid, hnone⟩
  | cleared hphase => cases howns
  | inserted hphase hfree hrows =>
    refine ⟨{
      id := route.slot.claimId
      key := route.call.key
      scope := routeIdempotencyScope
      expiresAt := route.slot.expiresAt }, ⟨?_, ?_, ?_⟩, rfl, rfl⟩
    · rw [hrows]
      exact List.mem_append_right _ (List.mem_singleton.mpr rfl)
    · simp [Db.isKey, hkey]
    · have httl : 0 < routeIdempotencyTtlMs := by decide
      show since < route.slot.expiresAt
      omega
  | fulfilled hphase => cases howns
  | released hphase => cases howns

/-- A step that is not a request's leaves the live rows of the key alone. -/
theorem keepsLiveKey_next (hkeeps : s.KeepsKey key since e) (hother : ∀ k rt, e ≠ .route k rt) :
    KeepsLiveKey key routeIdempotencyScope since s.db (s.next e).db := by
  have hstep := s.next_stepped e
  generalize s.next e = s' at hstep
  cases hstep with
  | @sys e =>
    cases e with
    | lock e =>
      have hkeys := congrArg Db.idempotencyKeys (LockEvent.next_withoutLocks s.db e)
      exact .of_eq hkeys
    | gather request rt =>
      have hkeys := congrArg Db.idempotencyKeys (SystemEvent.next_gather s.db request rt)
      exact .of_eq hkeys
    | commit request ev rt => exact Request.keeps_routeKey (s := .start s.db rt) key since rfl
    | other db => exact hkeeps
  | @synced featureRunId observed rt =>
    have hkeys := congrArg Db.idempotencyKeys (core_syncMirror featureRunId observed rt s.db)
    exact .of_eq hkeys
  | @advanced n rt route hroute => exact absurd rfl (hother n rt)
  | _ => exact .of_eq rfl

/-- **What a step does to a live row of the key**: only the owner of the row fulfils or deletes
it. -/
theorem Claimed.row_next (h : s.Claimed key since) (hkeeps : s.KeepsKey key since e)
    (hrow : s.db.LiveRow key since row) :
    (s.next e).db.LiveRow key since row ∨ ∃ k rt route, e = .route k rt ∧
      s.routes k = some route ∧ row.id = route.slot.claimId ∧
      ((∃ response merged, route.phase = .responding response merged ∧
          (s.next e).db.LiveRow key since (Db.fulfilled (.route response) row) ∧
          (route.advance rt s.db).2 = .done (.responded response)) ∨
        ∃ failure, route.phase = .releasing failure) := by
  by_cases hroute : ∃ k rt, e = .route k rt
  · obtain ⟨k, rt, rfl⟩ := hroute
    cases hk : s.routes k with
    | none =>
      rw [next_route_none hk]
      exact Or.inl hrow
    | some route =>
      rw [next_route hk]
      exact (h.row_advance hk hrow).imp_right fun hmine => ⟨k, rt, route, rfl, hk, hmine⟩
  · exact Or.inl (hrow.kept (keepsLiveKey_next hkeeps fun k rt he => hroute ⟨k, rt, he⟩))

/-- A request of before the step, with the claim it has after it. -/
theorem slot_next (hkeeps : s.KeepsKey key since e) (h : (s.next e).routes k = some route') :
    (∃ route, s.routes k = some route ∧ route.call = route'.call ∧ route.slot = route'.slot) ∨
      (s.routes k = none ∧ (∀ k' route, s.routes k' = some route →
          route.slot.claimId ≠ route'.slot.claimId) ∧
        (route'.call.key = key → since ≤ route'.slot.now ∧
          route'.slot.now < since + routeIdempotencyTtlMs) ∧
        route'.slot.expiresAt = route'.slot.now + routeIdempotencyTtlMs) := by
  rcases phase_next h with ⟨hnone, request, rt, call, rfl, hcall, rfl⟩ |
    ⟨route, phase, hroute, rfl, -⟩
  · exact Or.inr ⟨hnone, hkeeps.1, fun hkey => hkeeps.2 call hcall hkey, rfl⟩
  · exact Or.inl ⟨route, hroute, rfl, rfl⟩

/-- A request that owns its key after a step of something else owned it before. -/
theorem owns_next (h : (s.next e).routes k = some route') (hother : ∀ rt, e ≠ .route k rt)
    (howns : route'.phase.Owns) :
    ∃ route, s.routes k = some route ∧ route.call = route'.call ∧ route.slot = route'.slot ∧
      route.phase.Owns := by
  rcases phase_next h with ⟨-, request, rt, call, -, -, rfl⟩ | ⟨route, phase, hroute, rfl, hphase⟩
  · cases howns
  · refine ⟨route, hroute, rfl, rfl, ?_⟩
    cases hphase with
    | stayed => exact howns
    | @advanced rt => exact absurd rfl (hother rt)
    | answered hcalling =>
      rw [hcalling]
      trivial
    | unresolved hchecking =>
      rw [hchecking]
      trivial
    | crashed => cases howns

/-- **Every step keeps the claims of a key.** -/
theorem claimed_next (s : MergeState) (e : MergeEvent) (h : s.Claimed key since)
    (hkeeps : s.KeepsKey key since e) : (s.next e).Claimed key since where
  slots k route' hroute' hkey := by
    rcases slot_next hkeeps hroute' with ⟨route, hroute, hcall, hslot⟩ | ⟨-, -, hnow, hexpires⟩
    · rw [← hslot]
      exact h.slots k route hroute (by rw [hcall, hkey])
    · exact ⟨(hnow hkey).1, (hnow hkey).2, hexpires⟩
  ids k k' route route' hroute hroute' heq := by
    rcases slot_next hkeeps hroute with ⟨before, hbefore, -, hslot⟩ | ⟨hnone, hfresh, -, -⟩
    · rcases slot_next hkeeps hroute' with ⟨before', hbefore', -, hslot'⟩ | ⟨-, hfresh', -, -⟩
      · rw [← hslot, ← hslot'] at heq
        exact h.ids k k' before before' hbefore hbefore' heq
      · rw [← hslot] at heq
        exact absurd heq (hfresh' k before hbefore)
    · rcases slot_next hkeeps hroute' with ⟨before', hbefore', -, hslot'⟩ | ⟨hnone', -, -, -⟩
      · rw [← hslot'] at heq
        exact absurd heq.symm (hfresh k' before' hbefore')
      · -- only the request of the event is new
        rcases phase_next hroute with ⟨-, request, rt, call, he, -⟩ | ⟨before, -, hbefore, -⟩
        · rcases phase_next hroute' with ⟨-, request', rt', call', he', -⟩ | ⟨before, -, hbefore, -⟩
          · rw [he] at he'
            exact (MergeEvent.arrive.inj he').1
          · rw [hnone'] at hbefore
            cases hbefore
        · rw [hnone] at hbefore
          cases hbefore
  expires row hrow := by
    by_cases hroute : ∃ k rt, e = .route k rt
    · obtain ⟨k, rt, rfl⟩ := hroute
      cases hk : s.routes k with
      | none =>
        rw [next_route_none hk] at hrow
        exact h.expires row hrow
      | some route =>
        rw [next_route hk] at hrow
        rcases h.row_of_advance hk hrow with ⟨row', hrow', hexpires⟩ | ⟨hkey, hexpires⟩
        · rw [← hexpires]
          exact h.expires row' hrow'
        · have hslot := h.slots k route hk hkey
          omega
    · have hkept := keepsLiveKey_next hkeeps fun k rt he => hroute ⟨k, rt, he⟩
      exact h.expires row (hrow.of_kept hkept)
  owned k route' hroute' hkey howns := by
    by_cases hown : ∃ rt, e = .route k rt
    · obtain ⟨rt, rfl⟩ := hown
      cases hk : s.routes k with
      | none =>
        rw [next_route_none hk, hk] at hroute'
        cases hroute'
      | some route =>
        rw [next_route hk] at hroute' ⊢
        have hself : (s.stepRoute k rt route).routes k =
            some { route with phase := (route.advance rt s.db).2 } := Function.update_self _ _ _
        obtain rfl := Option.some.inj (hroute'.symm.trans hself)
        exact h.owned_advance hk hkey howns
    · have hother : ∀ rt, e ≠ .route k rt := fun rt he => hown ⟨rt, he⟩
      obtain ⟨route, hroute, hcall, hslot, hbefore⟩ := owns_next hroute' hother howns
      obtain ⟨row, hrow, hid, hnone⟩ := h.owned k route hroute (by rw [hcall, hkey]) hbefore
      refine ⟨row, ?_, by rw [hid, hslot], hnone⟩
      rcases h.row_next hkeeps hrow with hkept | ⟨k', rt, mover, he, hmover, hmine, -⟩
      · exact hkept
      · -- the row is of the owner, who does not move
        rw [hid] at hmine
        have hsame := h.ids k k' route mover hroute hmover hmine
        exact absurd (by rw [he, hsame]) (hother rt)

/-! ### After the merge -/

/-- The SCM merges on the call of a request of the key. -/
def Merges (key : String) (n : ℕ) (s : MergeState) (e : MergeEvent) : Prop :=
  ∃ behaviour message route target version mergeSha, e = .call n behaviour message ∧
    s.routes n = some route ∧ route.call.key = key ∧ route.phase = .calling target version ∧
    mergePullRequest target.key.prNumber (s.scm.reply target.options behaviour message) =
      .merged mergeSha

/-- The claim of a request on whose call the SCM has merged stands, and no request of its key owns
the key again, calls the SCM or releases the claim. -/
structure Spent (key : String) (since : ℤ) (n : ℕ) (s : MergeState) : Prop where
  stands : ∃ route row, s.routes n = some route ∧ s.db.LiveRow key since row ∧
    row.id = route.slot.claimId
  others : ∀ k route, s.routes k = some route → route.call.key = key → k ≠ n → ¬ route.phase.Owns
  silent : ∀ k route, s.routes k = some route → route.call.key = key →
    (∀ target version, route.phase ≠ .calling target version) ∧
      ∀ failure, route.phase ≠ .releasing failure

/-- What keeps a claim spent. -/
structure SpentClaim (key : String) (since : ℤ) (n : ℕ) (s : MergeState) : Prop where
  claimed : s.Claimed key since
  stands : ∃ route row, s.routes n = some route ∧ route.phase.HasMerged ∧
    s.db.LiveRow key since row ∧ row.id = route.slot.claimId

theorem SpentClaim.spent (h : s.SpentClaim key since n) : s.Spent key since n := by
  obtain ⟨route, row, hroute, hmerged, hrow, hid⟩ := h.stands
  have hothers : ∀ k route', s.routes k = some route' → route'.call.key = key → k ≠ n →
      ¬ route'.phase.Owns := fun k route' hroute' hkey hk =>
    h.claimed.not_owns hroute hrow hid hroute' hkey hk
  refine ⟨⟨route, row, hroute, hrow, hid⟩, hothers, fun k route' hroute' hkey => ?_⟩
  by_cases hk : k = n
  · rw [hk, hroute] at hroute'
    obtain rfl := Option.some.inj hroute'
    constructor
    · intro target version hphase
      rw [hphase] at hmerged
      exact hmerged
    · intro failure hphase
      rw [hphase] at hmerged
      exact hmerged
  · have hnot := hothers k route' hroute' hkey hk
    constructor
    · intro target version hphase
      rw [hphase] at hnot
      exact hnot trivial
    · intro failure hphase
      rw [hphase] at hnot
      exact hnot trivial

/-- **Once the SCM has merged on the call of a request, its claim stands.** -/
theorem spent_next (s : MergeState) (e : MergeEvent) (h : s.SpentClaim key since n)
    (hkeeps : s.KeepsKey key since e) : (s.next e).SpentClaim key since n := by
  obtain ⟨route, row, hroute, hmerged, hrow, hid⟩ := h.stands
  refine ⟨claimed_next s e h.claimed hkeeps, ?_⟩
  obtain ⟨phase, hafter, hphase⟩ := s.some_next (e := e) hroute
  -- the request goes on to record the merge
  have hmerged' : phase.HasMerged := by
    cases hphase with
    | stayed => exact hmerged
    | advanced => exact Route.hasMerged_advance hmerged
    | answered hcalling =>
      rw [hcalling] at hmerged
      cases hmerged
    | unresolved hchecking =>
      rw [hchecking] at hmerged
      cases hmerged
    | crashed => trivial
  rcases h.claimed.row_next hkeeps hrow with hkept | ⟨k, rt, mover, he, hmover, hmine, hmoves⟩
  · exact ⟨_, row, hafter, hmerged', hkept, hid⟩
  · rcases hmoves with ⟨response, merged, -, hfulfilled, -⟩ | ⟨failure, hreleasing⟩
    · exact ⟨_, _, hafter, hmerged', hfulfilled, hid⟩
    · -- the request that releases the claim would be this one
      rw [hid] at hmine
      obtain rfl := h.claimed.ids n k route mover hroute hmover hmine
      rw [hroute] at hmover
      obtain rfl := Option.some.inj hmover
      rw [hreleasing] at hmerged
      cases hmerged

/-- The merge leaves its request with its claim. -/
theorem Merges.spentClaim (hmerges : s.Merges key n e) (h : s.Claimed key since)
    (hkeeps : s.KeepsKey key since e) : (s.next e).SpentClaim key since n := by
  obtain ⟨behaviour, message, route, target, version, mergeSha, rfl, hroute, hkey, hphase, hanswer⟩ :=
    hmerges
  refine ⟨claimed_next s _ h hkeeps, ?_⟩
  obtain ⟨row, hrow, hid, -⟩ := h.owned n route hroute hkey (by rw [hphase]; trivial)
  have hkept := hrow.kept (keepsLiveKey_next hkeeps fun k rt he => by cases he)
  refine ⟨{ route with phase := .checking (.recordMerged version mergeSha) }, row, ?_, trivial, hkept,
    hid⟩
  rw [next_call hroute hphase]
  show s.put n _ n = _
  rw [put, Function.update_self, hanswer, Route.answered]

/-! ### After the response -/

/-- A request of the key stores its response. -/
def Stores (key : String) (response : RouteResponse) (s : MergeState) (e : MergeEvent) : Prop :=
  ∃ n rt route merged, e = .route n rt ∧ s.routes n = some route ∧ route.call.key = key ∧
    route.phase = .responding response merged ∧
    (route.advance rt s.db).2 = .done (.responded response)

/-- No request owns the key, and each that had no outcome in the state `s₀` receives the response. -/
structure Answered (key : String) (response : RouteResponse) (s s₀ : MergeState) : Prop where
  unowned : ∀ k route, s.routes k = some route → route.call.key = key → ¬ route.phase.Owns
  received : ∀ k route, s.routes k = some route → route.call.key = key →
    (∀ before, s₀.routes k = some before → ¬ before.phase.IsDone) →
    route.phase.Receives response

/-- What keeps a response stored. -/
structure StoredClaim (key : String) (since : ℤ) (response : RouteResponse) (s s₀ : MergeState) :
    Prop where
  claimed : s.Claimed key since
  stored : ∃ n route row, s.routes n = some route ∧ route.call.key = key ∧
    s.db.LiveRow key since row ∧ row.id = route.slot.claimId ∧ row.result = some (.route response)
  answered : s.Answered key response s₀

variable {response : RouteResponse} {s₀ : MergeState}

/-- **Once a response is stored, the row answers with it.** -/
theorem answered_next (s : MergeState) (e : MergeEvent) (h : s.StoredClaim key since response s₀)
    (hkeeps : s.KeepsKey key since e) : (s.next e).StoredClaim key since response s₀ := by
  obtain ⟨n, holder, row, hholder, hkey, hrow, hid, hresult⟩ := h.stored
  have hclaimed := claimed_next s e h.claimed hkeeps
  have hstored : (s.next e).db.LiveRow key since row := by
    rcases h.claimed.row_next hkeeps hrow with hkept | ⟨k, rt, mover, he, hmover, hmine, hmoves⟩
    · exact hkept
    · -- the request that touches the row would be its holder, which no longer owns the key
      rw [hid] at hmine
      obtain rfl := h.claimed.ids n k holder mover hholder hmover hmine
      rw [hholder] at hmover
      obtain rfl := Option.some.inj hmover
      have hnot := h.answered.unowned n holder hholder hkey
      rcases hmoves with ⟨response', merged, hphase, -⟩ | ⟨failure, hphase⟩
      · rw [hphase] at hnot
        exact absurd trivial hnot
      · rw [hphase] at hnot
        exact absurd trivial hnot
  obtain ⟨phase, hafter, -⟩ := s.some_next (e := e) hholder
  refine ⟨hclaimed, ⟨n, _, row, hafter, hkey, hstored, hid, hresult⟩, ?_, ?_⟩
  · intro k route' hroute' hkey' howns
    -- an owner would have an unfulfilled row
    obtain ⟨row', hrow', -, hnone⟩ := hclaimed.owned k route' hroute' hkey' howns
    rw [hrow'.unique hstored, hresult] at hnone
    cases hnone
  · intro k route' hroute' hkey' hpending
    rcases phase_next hroute' with ⟨-, request, rt, call, -, -, rfl⟩ |
      ⟨route, phase', hroute, rfl, hphase⟩
    · trivial
    · have hreceives := h.answered.received k route hroute hkey' hpending
      cases hphase with
      | stayed => exact hreceives
      | advanced =>
        have hslot := h.claimed.slots k route hroute hkey'
        have hlimit := h.claimed.expires row hrow
        refine Route.receives_advance hrow.mem ?_ (by omega) hresult hreceives
        rw [show route.call.key = key from hkey']
        exact hrow.isKey
      | answered hcalling =>
        rw [hcalling] at hreceives
        cases hreceives
      | unresolved hchecking =>
        rw [hchecking] at hreceives
        cases hreceives
      | crashed => trivial

/-- The response leaves its request without its key. -/
theorem Stores.storedClaim (hstores : s.Stores key response e) (h : s.Claimed key since)
    (hkeeps : s.KeepsKey key since e) :
    (s.next e).StoredClaim key since response (s.next e) := by
  obtain ⟨n, rt, route, merged, rfl, hroute, hkey, hphase, hdone⟩ := hstores
  have hclaimed := claimed_next s _ h hkeeps
  obtain ⟨row, hrow, hid, -⟩ := h.owned n route hroute hkey (by rw [hphase]; trivial)
  have hrow' : (s.next (.route n rt)).db.LiveRow key since (Db.fulfilled (.route response) row) := by
    rw [next_route hroute]
    show (route.advance rt s.db).1.LiveRow key since _
    rw [Route.advance_stored hphase hdone]
    exact hrow.fulfilled _ hid
  have hafter : (s.next (.route n rt)).routes n =
      some { route with phase := .done (.responded response) } := by
    rw [next_route hroute]
    show s.put n _ n = _
    rw [put, Function.update_self, hdone]
  have hunowned : ∀ k route', (s.next (.route n rt)).routes k = some route' →
      route'.call.key = key → ¬ route'.phase.Owns := by
    intro k route' hroute' hkey' howns
    obtain ⟨row'', hrow'', -, hnone⟩ := hclaimed.owned k route' hroute' hkey' howns
    rw [hrow''.unique hrow'] at hnone
    cases hnone
  refine ⟨hclaimed, ⟨n, _, _, hafter, hkey, hrow', hid, rfl⟩, hunowned, ?_⟩
  intro k route' hroute' hkey' hpending
  have hnot := hunowned k route' hroute' hkey'
  have hnotdone := hpending route' hroute'
  cases hphase' : route'.phase with
  | clearing => trivial
  | inserting => trivial
  | reading => trivial
  | done outcome =>
    rw [hphase'] at hnotdone
    exact absurd trivial hnotdone
  | _ =>
    rw [hphase'] at hnot
    exact absurd trivial hnot

/-- **The idempotency of the route**, for the requests of one key. -/
structure RouteIdempotent (key : String) (since : ℤ) (s : MergeState) (es : List MergeEvent) :
    Prop where
  oneOwner : Throughout next (OneOwner key) s es
  merged : ∀ before e later n, es = before ++ e :: later → Merges key n (s.after before) e →
    Throughout next (Spent key since n) ((s.after before).next e) later
  stored : ∀ before e later response, es = before ++ e :: later →
    Stores key response (s.after before) e →
    Throughout next (fun t => t.Answered key response ((s.after before).next e))
      ((s.after before).next e) later

end MergeState

open MergeState

/-- **The idempotency of the route**: of any number of requests with one key that arrive within its
time to live, interleaved in any way, one at most is the owner at a time; after a merge, its claim
stands, and none of them calls the SCM again; and after a response is stored, each that has had no
outcome yet, or arrives later, receives it. -/
theorem route_idempotency (key : String) (since : ℤ) (s : MergeState) (es : List MergeEvent)
    (hroutes : ∀ n, s.routes n = none) (hfree : s.db.Free key routeIdempotencyScope since)
    (hkeeps : Along next (KeepsKey key since) s es) : RouteIdempotent key since s es := by
  have hstart : s.Claimed key since := by
    refine ⟨?_, ?_, fun row hrow => ?_, ?_⟩
    · intro k route hroute
      rw [hroutes k] at hroute
      cases hroute
    · intro k k' route route' hroute
      rw [hroutes k] at hroute
      cases hroute
    · have hexpired := hfree row hrow.mem hrow.isKey
      have hlive := hrow.live
      omega
    · intro k route hroute
      rw [hroutes k] at hroute
      cases hroute
  -- every prefix of the run ends in claimed keys, and the rest of the run keeps them
  have hsplit : ∀ before e later, es = before ++ e :: later →
      (s.after before).Claimed key since ∧ (s.after before).KeepsKey key since e ∧
        Along next (KeepsKey key since) ((s.after before).next e) later := by
    rintro before e later rfl
    obtain ⟨hbefore, hlater⟩ := along_append.mp hkeeps
    exact ⟨(throughout_of_step claimed_next hstart hbefore).last, hlater⟩
  refine ⟨?_, ?_, ?_⟩
  · exact (throughout_of_step claimed_next hstart hkeeps).imp fun s h => h.oneOwner
  · intro before e later n hes hmerges
    obtain ⟨hclaimed, hstep, hlater⟩ := hsplit before e later hes
    have hspent := hmerges.spentClaim hclaimed hstep
    exact (throughout_of_step spent_next hspent hlater).imp fun s h => h.spent
  · intro before e later response hes hstores
    obtain ⟨hclaimed, hstep, hlater⟩ := hsplit before e later hes
    have hstored := hstores.storedClaim hclaimed hstep
    have hall : Throughout next
        (fun t => t.StoredClaim key since response ((s.after before).next e))
        ((s.after before).next e) later := throughout_of_step answered_next hstored hlater
    exact hall.imp fun s h => h.answered

/-- A request that the SCM merges. -/
def firstRequest : List MergeEvent :=
  requestUpTo 0 0 9 ++ (.call 0 (.merges "M") "" ::
    (List.range 4).map fun i => .route 0 (sampleRuntime (10 + i)))

/-- A second request with its key. -/
def repeatedRequest : List MergeEvent := firstRequest ++ requestUpTo 1 20 3

/-- The second request does not merge again. -/
example : (approvedState.after repeatedRequest).merges.length = 1 := by decide +kernel

theorem along_keepsKey {key : String} {since : ℤ} {es : List MergeEvent}
    (h : ∀ e ∈ es, e.isRequestStep = true) (s : MergeState) :
    Along next (KeepsKey key since) s es := by
  refine along_of_forall_mem (fun e he s => ?_) s
  have hstep := h e he
  cases e with
  | route n rt => trivial
  | call n behaviour message => trivial
  | unresolved n => trivial
  | crash n => trivial
  | _ => cases hstep

theorem route_idempotency_repeatedRequest :
    RouteIdempotent "K" 0 approvedState repeatedRequest := by
  refine route_idempotency "K" 0 approvedState repeatedRequest (fun _ => rfl)
    (fun row hrow => by cases hrow) ?_
  have hnone : ∀ k route, approvedState.routes k = some route →
      route.slot.claimId ≠ (sampleRuntime 0).ids 0 := fun k route hroute => by cases hroute
  refine along_append.mpr ⟨⟨⟨hnone, fun _ _ _ => by decide⟩, along_keepsKey (by decide +kernel) _⟩,
    ⟨⟨fun k route hroute => ?_, fun _ _ _ => by decide⟩, along_keepsKey (by decide +kernel) _⟩⟩
  by_cases hk : k = 0
  · have hfirst : ∀ route ∈ (approvedState.after firstRequest).routes 0,
        route.slot.claimId ≠ (sampleRuntime 20).ids 0 := by decide +kernel
    rw [hk] at hroute
    exact hfirst route hroute
  · have harrivals : ∀ e ∈ firstRequest, e.arrival.all (· == 0) = true := by decide +kernel
    have hnone : (approvedState.after firstRequest).routes k = none := by
      refine routes_after_none rfl fun e he harrival => hk ?_
      have hzero := harrivals e he
      rw [harrival] at hzero
      exact beq_iff_eq.mp hzero
    rw [hnone] at hroute
    cases hroute

end MiniCoder
