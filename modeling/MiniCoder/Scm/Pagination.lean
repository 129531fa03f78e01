import MiniCoder.Library.Paging
import MiniCoder.Scm.ReviewState

/-!
# Reviews and discussions, page by page

The clients of Gitea and GitLab read the reviews and the discussions of a pull request in pages of
50, and stop after 20 pages, without a word about what lies beyond.

* `Gitea.observeReviews_some`, `Gitlab.observeReviews_some`: what the clients observe.
* `reportsBlocker_iff`: **a blocker is reported if and only if one is within what the client reads**,
  where no request fails.
* `reportsBlocker_of_length`: a list that is read in full hides none.
-/

open LastWrite Paging

namespace MiniCoder

/-- An answer that is not a success, or no answer at all. -/
inductive ApiFailure
  | status (code : ℕ)
  | unreachable
  deriving DecidableEq, Repr

/-- `ObservedPullRequestState`, as far as reviews are concerned. -/
structure ObservedReviews where
  reviewState : PrReviewState
  conversationsResolved : Bool
  deriving DecidableEq, Repr

/-- The answer for the pull request comes first; one that is not found is `null`. -/
def ifFound (pr : Except ApiFailure Unit) (observed : Except ApiFailure ObservedReviews) :
    Except ApiFailure (Option ObservedReviews) :=
  match pr with
  | .error (.status 404) => .ok none
  | .error e => .error e
  | .ok () => observed.map some

/-- The most pages that a client reads. -/
def MAX_PAGES : ℕ := 20

/-! ### Gitea -/

namespace Gitea

def PAGE_SIZE : ℕ := 50

/-- What Gitea answers: the pull request, the combined status of its head, and its reviews. -/
structure ReviewResponses where
  pr : Except ApiFailure Unit
  combinedStatus : Except ApiFailure Unit
  reviews : Server Review ApiFailure

def paginateReviews (r : ReviewResponses) : Except ApiFailure (List Review) :=
  readPages PAGE_SIZE (r.reviews.answer PAGE_SIZE) MAX_PAGES 1 []

/-- `GiteaScmClient.getPullRequest`, as far as reviews are concerned. -/
def observeReviews (r : ReviewResponses) : Except ApiFailure (Option ObservedReviews) :=
  ifFound r.pr do
    let reviews ← paginateReviews r
    r.combinedStatus
    pure { reviewState := deriveReviewState reviews, conversationsResolved := false }

end Gitea

/-! ### GitLab -/

namespace Gitlab

def PER_PAGE : ℕ := 50

structure Approvals where
  approvalsRequired : Option ℕ := none
  approvalsLeft : Option ℕ := none
  deriving DecidableEq, Repr

structure DiscussionNote where
  resolvable : Option Bool := none
  resolved : Option Bool := none
  deriving DecidableEq, Repr

structure Discussion where
  notes : Option (List DiscussionNote) := none
  deriving DecidableEq, Repr

/-- `n.resolvable && !n.resolved`; what is missing counts as `false`. -/
def DiscussionNote.unresolved (n : DiscussionNote) : Bool :=
  n.resolvable.getD false && !n.resolved.getD false

def hasUnresolvedDiscussion (discussions : List Discussion) : Bool :=
  discussions.any fun d => (d.notes.getD []).any DiscussionNote.unresolved

def deriveConversationsResolved (discussions : List Discussion) : Bool :=
  !hasUnresolvedDiscussion discussions

/-- `deriveReviewState` of `gitlab-client.ts`. -/
def deriveReviewState (approvals : Approvals) (discussions : List Discussion) : PrReviewState :=
  if hasUnresolvedDiscussion discussions then .changesRequested
  else
    let approvalsLeft := approvals.approvalsLeft.getD 0
    let approvalsRequired := approvals.approvalsRequired.getD 0
    if approvalsRequired = 0 ∧ approvalsLeft = 0 ∧ discussions.length = 0 then .none
    else if approvalsLeft = 0 then .approved
    else .pending

/-- What GitLab answers: the merge request, its approvals, its pipelines and its discussions. -/
structure ReviewResponses where
  mr : Except ApiFailure Unit
  approvals : Except ApiFailure (Option Approvals)
  pipelines : Except ApiFailure Unit
  discussions : Server Discussion ApiFailure

def paginateDiscussions (r : ReviewResponses) : Except ApiFailure (List Discussion) :=
  readPages PER_PAGE (r.discussions.answer PER_PAGE) MAX_PAGES 1 []

/-- `GitlabScmClient.getPullRequest`, as far as reviews are concerned. -/
def observeReviews (r : ReviewResponses) : Except ApiFailure (Option ObservedReviews) :=
  ifFound r.mr do
    let approvals ← r.approvals
    let discussions ← paginateDiscussions r
    r.pipelines
    pure {
      reviewState := deriveReviewState (approvals.getD {}) discussions
      conversationsResolved := deriveConversationsResolved discussions }

end Gitlab

/-! ### Blockers -/

/-- A reviewer's latest review that decides, in the order of the times, asks for changes. -/
def Gitea.Blocked (reviews : List Review) : Prop :=
  ∃ review, Gitea.reviewVocabulary.Outstanding (sortBy Review.time reviews) review

/-- A discussion has a note that can be resolved and is not. -/
def Gitlab.Blocked (discussions : List Gitlab.Discussion) : Prop :=
  ∃ d ∈ discussions, ∃ n ∈ d.notes.getD [], n.resolvable = some true ∧ n.resolved ≠ some true

/-- The responses of a provider whose client reads pages itself. -/
inductive PagedResponses
  | gitea (r : Gitea.ReviewResponses)
  | gitlab (r : Gitlab.ReviewResponses)

namespace PagedResponses

def observeReviews : PagedResponses → Except ApiFailure (Option ObservedReviews)
  | gitea r => Gitea.observeReviews r
  | gitlab r => Gitlab.observeReviews r

/-- An item of some page blocks. -/
def Blocked : PagedResponses → Prop
  | gitea r => Gitea.Blocked r.reviews.items
  | gitlab r => Gitlab.Blocked r.discussions.items

/-- The items within what the client reads block. -/
def BlockedWithin : PagedResponses → Prop
  | gitea r => Gitea.Blocked (r.reviews.items.take (r.reviews.reach Gitea.PAGE_SIZE MAX_PAGES))
  | gitlab r =>
    Gitlab.Blocked (r.discussions.items.take (r.discussions.reach Gitlab.PER_PAGE MAX_PAGES))

/-- The client reads every item. -/
def ReadInFull : PagedResponses → Prop
  | gitea r => r.reviews.items.length ≤ r.reviews.reach Gitea.PAGE_SIZE MAX_PAGES
  | gitlab r => r.discussions.items.length ≤ r.discussions.reach Gitlab.PER_PAGE MAX_PAGES

/-- The pull request is there, and no request that the client makes fails. -/
def Answered : PagedResponses → Prop
  | gitea r => r.pr = .ok () ∧ r.combinedStatus = .ok () ∧
      ∀ page, 0 < page → page ≤ r.reviews.asked Gitea.PAGE_SIZE MAX_PAGES →
        r.reviews.failure page = none
  | gitlab r => r.mr = .ok () ∧ (∃ approvals, r.approvals = .ok approvals) ∧ r.pipelines = .ok () ∧
      ∀ page, 0 < page → page ≤ r.discussions.asked Gitlab.PER_PAGE MAX_PAGES →
        r.discussions.failure page = none

/-- On Gitea: no name of a user stands for an unknown one. -/
def Named : PagedResponses → Prop
  | gitea r => MiniCoder.Named r.reviews.items
  | gitlab _ => True

/-- The state shows a blocker: on GitLab, as an unresolved conversation too. -/
def Shows : PagedResponses → ObservedReviews → Prop
  | gitea _, observed => observed.reviewState = .changesRequested
  | gitlab _, observed =>
    observed.reviewState = .changesRequested ∧ observed.conversationsResolved = false

/-- Where an item blocks, no state is observed that does not show it. -/
def ReportsBlocker (r : PagedResponses) : Prop :=
  r.Blocked → ∀ observed, r.observeReviews = .ok (some observed) → r.Shows observed

end PagedResponses

/-! ### What the clients read -/

theorem Named.take {reviews : List Review} (h : Named reviews) (n : ℕ) : Named (reviews.take n) := by
  rintro ⟨review, hreview, hnone⟩ r hr
  exact h ⟨review, List.mem_of_mem_take hreview, hnone⟩ r (List.mem_of_mem_take hr)

theorem ifFound_some {pr : Except ApiFailure Unit} {observed : Except ApiFailure ObservedReviews}
    {state : ObservedReviews} :
    ifFound pr observed = .ok (some state) ↔ pr = .ok () ∧ observed = .ok state := by
  rcases pr with e | u
  · refine iff_of_false ?_ (by simp)
    unfold ifFound
    split <;> simp_all
  · rcases observed with e | state' <;> simp [ifFound, Except.map]

theorem except_bind_eq_ok {ε α β : Type} {x : Except ε α} {f : α → Except ε β} {b : β} :
    (x >>= f) = .ok b ↔ ∃ a, x = .ok a ∧ f a = .ok b := by
  rcases x with e | a
  · simp [Bind.bind, Except.bind]
  · simp [Bind.bind, Except.bind]

/-- **What the client of Gitea observes**: the state of the reviews that it reads. -/
theorem Gitea.observeReviews_some {r : Gitea.ReviewResponses} {observed : ObservedReviews} :
    Gitea.observeReviews r = .ok (some observed) ↔
      (PagedResponses.gitea r).Answered ∧ observed = {
        reviewState := Gitea.deriveReviewState
          (r.reviews.items.take (r.reviews.reach Gitea.PAGE_SIZE MAX_PAGES))
        conversationsResolved := false } := by
  rw [Gitea.observeReviews, ifFound_some]
  simp only [except_bind_eq_ok]
  constructor
  · rintro ⟨hpr, reviews, hreviews, u, hstatus, hobserved⟩
    obtain ⟨hpages, rfl⟩ := (readPages_ok_iff (by decide) (by decide)).mp hreviews
    exact ⟨⟨hpr, hstatus, hpages⟩, (Except.ok.inj hobserved).symm⟩
  · rintro ⟨⟨hpr, hstatus, hpages⟩, rfl⟩
    exact ⟨hpr, _, (readPages_ok_iff (by decide) (by decide)).mpr ⟨hpages, rfl⟩, (), hstatus, rfl⟩

/-- **What the client of GitLab observes**: the state of the discussions that it reads. -/
theorem Gitlab.observeReviews_some {r : Gitlab.ReviewResponses} {observed : ObservedReviews} :
    Gitlab.observeReviews r = .ok (some observed) ↔
      (PagedResponses.gitlab r).Answered ∧ ∃ approvals, r.approvals = .ok approvals ∧ observed = {
        reviewState := Gitlab.deriveReviewState (approvals.getD {})
          (r.discussions.items.take (r.discussions.reach Gitlab.PER_PAGE MAX_PAGES))
        conversationsResolved := Gitlab.deriveConversationsResolved
          (r.discussions.items.take (r.discussions.reach Gitlab.PER_PAGE MAX_PAGES)) } := by
  rw [Gitlab.observeReviews, ifFound_some]
  simp only [except_bind_eq_ok]
  constructor
  · rintro ⟨hmr, approvals, happrovals, discussions, hdiscussions, u, hpipelines, hobserved⟩
    obtain ⟨hpages, rfl⟩ := (readPages_ok_iff (by decide) (by decide)).mp hdiscussions
    exact ⟨⟨hmr, ⟨approvals, happrovals⟩, hpipelines, hpages⟩, approvals, happrovals,
      (Except.ok.inj hobserved).symm⟩
  · rintro ⟨⟨hmr, -, hpipelines, hpages⟩, approvals, happrovals, rfl⟩
    exact ⟨hmr, approvals, happrovals, _,
      (readPages_ok_iff (by decide) (by decide)).mpr ⟨hpages, rfl⟩, (), hpipelines, rfl⟩

/-! ### What they report -/

theorem Gitlab.hasUnresolvedDiscussion_iff {discussions : List Gitlab.Discussion} :
    Gitlab.hasUnresolvedDiscussion discussions = true ↔ Gitlab.Blocked discussions := by
  have hnote : ∀ n : Gitlab.DiscussionNote, n.unresolved = true ↔
      n.resolvable = some true ∧ n.resolved ≠ some true := by
    rintro ⟨_ | _ | _, _ | _ | _⟩ <;> decide
  simp only [Gitlab.hasUnresolvedDiscussion, Gitlab.Blocked, List.any_eq_true, hnote]

/-- **GitLab's state shows a blocker if and only if a discussion is unresolved.** -/
theorem Gitlab.deriveReviewState_blocked {approvals : Gitlab.Approvals}
    {discussions : List Gitlab.Discussion} :
    (Gitlab.deriveReviewState approvals discussions = .changesRequested ∧
      Gitlab.deriveConversationsResolved discussions = false) ↔ Gitlab.Blocked discussions := by
  rw [← Gitlab.hasUnresolvedDiscussion_iff, Gitlab.deriveReviewState,
    Gitlab.deriveConversationsResolved]
  by_cases hunresolved : Gitlab.hasUnresolvedDiscussion discussions = true
  · simp [hunresolved]
  · rw [Bool.not_eq_true] at hunresolved
    simp [hunresolved]

/-- What a client observes, and whether it shows a blocker. -/
theorem PagedResponses.shows_iff {r : PagedResponses} (hnamed : r.Named) :
    (∀ observed, r.observeReviews = .ok (some observed) → r.Shows observed) ↔
      (r.Answered → r.BlockedWithin) := by
  cases r with
  | gitea r =>
    have hwithin := deriveReviewState_outstanding (v := Gitea.reviewVocabulary)
      (hnamed.take (r.reviews.reach Gitea.PAGE_SIZE MAX_PAGES))
    constructor
    · intro h hanswered
      exact hwithin.mp (h _ (Gitea.observeReviews_some.mpr ⟨hanswered, rfl⟩))
    · intro h observed hobserved
      obtain ⟨hanswered, rfl⟩ := Gitea.observeReviews_some.mp hobserved
      exact hwithin.mpr (h hanswered)
  | gitlab r =>
    constructor
    · intro h hanswered
      obtain ⟨approvals, happrovals⟩ := hanswered.2.1
      exact Gitlab.deriveReviewState_blocked.mp
        (h _ (Gitlab.observeReviews_some.mpr ⟨hanswered, approvals, happrovals, rfl⟩))
    · intro h observed hobserved
      obtain ⟨hanswered, approvals, -, rfl⟩ := Gitlab.observeReviews_some.mp hobserved
      exact Gitlab.deriveReviewState_blocked.mpr (h hanswered)

/-- **When the pages hide no blocker**: if and only if, where every request is answered, a blocker is
within what the client reads. -/
theorem reportsBlocker_iff {r : PagedResponses} (hnamed : r.Named) :
    r.ReportsBlocker ↔ (r.Answered → r.Blocked → r.BlockedWithin) := by
  rw [PagedResponses.ReportsBlocker, PagedResponses.shows_iff hnamed]
  exact ⟨fun h hanswered hblocked => h hblocked hanswered,
    fun h hblocked hanswered => h hanswered hblocked⟩

/-- One page of reviews, of which the latest decision asks for changes. -/
def onePageOfReviews : Gitea.ReviewResponses where
  pr := .ok ()
  combinedStatus := .ok ()
  reviews := {
    items := [
      { state := "REQUEST_CHANGES", submittedAt := some 1, login := some "alice" },
      { state := "COMMENT", submittedAt := some 2, login := some "alice" }]
    limit := 50
    limit_pos := by decide
    failure := fun _ => none }

theorem reportsBlocker_iff_onePage :
    ((PagedResponses.gitea onePageOfReviews).ReportsBlocker ↔
      ((PagedResponses.gitea onePageOfReviews).Answered →
        (PagedResponses.gitea onePageOfReviews).Blocked →
          (PagedResponses.gitea onePageOfReviews).BlockedWithin)) ∧
      (PagedResponses.gitea onePageOfReviews).observeReviews =
        .ok (some { reviewState := .changesRequested, conversationsResolved := false }) := by
  refine ⟨reportsBlocker_iff ?_, by decide +kernel⟩
  rintro ⟨review, hreview, hnone⟩
  have hknown : ∀ r ∈ onePageOfReviews.reviews.items, r.login ≠ none := by decide
  exact absurd hnone (hknown review hreview)

/-- Lists that are shorter than what the clients read are read in full. -/
theorem reportsBlocker_of_length {r : PagedResponses} (hnamed : r.Named) (hlength : r.ReadInFull) :
    r.ReportsBlocker := by
  rw [PagedResponses.ReportsBlocker, PagedResponses.shows_iff hnamed]
  cases r with
  | gitea r =>
    intro hblocked _
    rw [PagedResponses.BlockedWithin, List.take_of_length_le hlength]
    exact hblocked
  | gitlab r =>
    intro hblocked _
    rw [PagedResponses.BlockedWithin, List.take_of_length_le hlength]
    exact hblocked

/-- 1000 resolved discussions, then an unresolved one. -/
def thousandDiscussions : Gitlab.ReviewResponses where
  mr := .ok ()
  approvals := .ok none
  pipelines := .ok ()
  discussions := {
    items := List.replicate 1000 { notes := some [{ resolvable := some true, resolved := some true }] } ++
      [{ notes := some [{ resolvable := some true, resolved := some false }] }]
    limit := 100
    limit_pos := by decide
    failure := fun _ => none }

/-- **The unresolved discussion on page 21 is hidden**: the state is `approved`, and all conversations
are resolved. -/
theorem thousandDiscussions_hidden :
    (PagedResponses.gitlab thousandDiscussions).Blocked ∧
      (PagedResponses.gitlab thousandDiscussions).observeReviews =
        .ok (some { reviewState := .approved, conversationsResolved := true }) ∧
      ¬ (PagedResponses.gitlab thousandDiscussions).ReportsBlocker := by
  have hblocked : (PagedResponses.gitlab thousandDiscussions).Blocked := by
    refine ⟨{ notes := some [{ resolvable := some true, resolved := some false }] }, ?_,
      { resolvable := some true, resolved := some false }, ?_, rfl, by decide⟩
    · exact List.mem_append_right _ List.mem_cons_self
    · exact List.mem_cons_self
  have hobserved : (PagedResponses.gitlab thousandDiscussions).observeReviews =
      .ok (some { reviewState := .approved, conversationsResolved := true }) := by
    decide +kernel
  refine ⟨hblocked, hobserved, fun hreports => ?_⟩
  have hshown := (hreports hblocked _ hobserved).2
  cases hshown

end MiniCoder
