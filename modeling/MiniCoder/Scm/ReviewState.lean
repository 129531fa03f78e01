import Mathlib.Data.Int.Order.Basic
import Mathlib.Data.List.Induction
import Mathlib.Logic.Equiv.Basic
import MiniCoder.Domain.States
import MiniCoder.Library.LastWrite

/-!
# The review state of a pull request

The clients of GitHub and Gitea derive `reviewState` from the reviews of a pull request in one way;
what differs are the words of the two providers for the states of a review (`ReviewVocabulary`).  One
pass over the reviews, in the order of their times, keeps the latest review of each reviewer, and
whether the reviewer still asks for changes.

* `lookup_blocking`: what the pass leaves of a reviewer.
* `deriveReviewState_outstanding`, `deriveReviewState_latest`: when the result is
  `changes_requested`.
* `deriveReviewState_verdict`: **the result is that of each reviewer's latest decision**, whatever the
  comments and the order of the list, and it is one for the two providers.
-/

open LastWrite

namespace MiniCoder

/-! ### Reviews -/

/-- A review; `login` is that of its user, if it has one. -/
structure Review where
  state : String
  submittedAt : Option ℤ
  login : Option String
  deriving DecidableEq, Repr

/-- `new Date(submitted_at ?? 0).getTime()`. -/
def Review.time (review : Review) : ℤ := review.submittedAt.getD 0

/-- The key of the reviewer in the maps; the review of an unknown user has its own. -/
def Review.reviewerKey (review : Review) (index : ℕ) : String :=
  review.login.getD s!"__unknown_{index}"

/-- The words of a provider for the states of a review. -/
structure ReviewVocabulary where
  changesRequested : String
  approved : String := "APPROVED"
  commented : String
  dismissed : String := "DISMISSED"

/-! ### The derivation -/

/-- The maps of the pass. -/
structure ReviewWalk where
  latestByReviewer : AList fun _ : String => Review := ∅
  blockingByReviewer : AList fun _ : String => Bool := ∅

/-- A review of the pass; a comment leaves the flag of its reviewer as it is. -/
def ReviewWalk.visit (v : ReviewVocabulary) (walk : ReviewWalk) (visited : Review × ℕ) :
    ReviewWalk where
  latestByReviewer := walk.latestByReviewer.insert (visited.1.reviewerKey visited.2) visited.1
  blockingByReviewer :=
    if visited.1.state = v.changesRequested then
      walk.blockingByReviewer.insert (visited.1.reviewerKey visited.2) true
    else if visited.1.state = v.approved ∨ visited.1.state = v.dismissed then
      walk.blockingByReviewer.insert (visited.1.reviewerKey visited.2) false
    else walk.blockingByReviewer

def reviewWalk (v : ReviewVocabulary) (sorted : List Review) : ReviewWalk :=
  sorted.zipIdx.foldl (ReviewWalk.visit v) {}

/-- `deriveReviewState`, in the words of a provider. -/
def deriveReviewStateIn (v : ReviewVocabulary) (reviews : List Review) : PrReviewState :=
  if reviews.isEmpty then .none
  else
    let sorted := sortBy Review.time reviews
    let walk := reviewWalk v sorted
    let anyReviewerStillBlocking := walk.blockingByReviewer.entries.any fun entry => entry.2
    if anyReviewerStillBlocking ||
        walk.latestByReviewer.entries.any fun entry => entry.2.state == v.changesRequested then
      .changesRequested
    else if walk.latestByReviewer.entries.any fun entry => entry.2.state == v.approved then .approved
    else
      match sorted.getLast?.map Review.state with
      | none => .pending
      | some state =>
        if state = v.commented then .commented
        else if state = v.dismissed then .dismissed
        else .pending

/-- The states of a review on GitHub. -/
def Github.reviewVocabulary : ReviewVocabulary where
  changesRequested := "CHANGES_REQUESTED"
  commented := "COMMENTED"

/-- The states of a review on Gitea. -/
def Gitea.reviewVocabulary : ReviewVocabulary where
  changesRequested := "REQUEST_CHANGES"
  commented := "COMMENT"

/-- `deriveReviewState` of `octokit-client.ts`. -/
def Github.deriveReviewState : List Review → PrReviewState :=
  deriveReviewStateIn Github.reviewVocabulary

/-- `deriveReviewState` of `gitea-client.ts`. -/
def Gitea.deriveReviewState : List Review → PrReviewState :=
  deriveReviewStateIn Gitea.reviewVocabulary

/-! ### The pass -/

/-- The reviews have distinct times and a user each. -/
structure Attributed (reviews : List Review) : Prop where
  distinct : Distinct Review.time reviews
  known : ∀ review ∈ reviews, review.login.isSome

theorem Attributed.perm {reviews reviews' : List Review} (h : Attributed reviews)
    (hperm : reviews.Perm reviews') : Attributed reviews' :=
  ⟨h.distinct.perm hperm, fun review hreview => h.known review (hperm.mem_iff.mpr hreview)⟩

theorem Attributed.sorted {reviews : List Review} (h : Attributed reviews) :
    Attributed (sortBy Review.time reviews) := h.perm (sortBy_perm _ _).symm

/-- The states that set the flag of a reviewer. -/
def ReviewVocabulary.Decides (v : ReviewVocabulary) (review : Review) : Prop :=
  review.state = v.changesRequested ∨ review.state = v.approved ∨ review.state = v.dismissed

instance (v : ReviewVocabulary) (review : Review) : Decidable (v.Decides review) :=
  inferInstanceAs (Decidable (_ ∨ _))

/-- Beside an unknown user, no user has a name that stands for one. -/
def Named (reviews : List Review) : Prop :=
  (∃ review ∈ reviews, review.login = none) →
    ∀ review ∈ reviews, ∀ index : ℕ, review.login ≠ some s!"__unknown_{index}"

theorem unknownKey_injective {i j : ℕ} (h : s!"__unknown_{i}" = s!"__unknown_{j}") : i = j := by
  have hrepr : Nat.repr i = Nat.repr j := by simpa using h
  have hdigits : Nat.toDigits 10 i = Nat.toDigits 10 j := by
    rw [← Nat.toList_repr, ← Nat.toList_repr, hrepr]
  have hi := Nat.ofDigitChars_ten_toDigits (n := i)
  rw [hdigits, Nat.ofDigitChars_ten_toDigits] at hi
  exact hi.symm

theorem Attributed.named {reviews : List Review} (h : Attributed reviews) : Named reviews := by
  rintro ⟨review, hreview, hnone⟩
  have hknown := h.known review hreview
  rw [hnone] at hknown
  cases hknown

/-- Two reviews have one key only where they have one user. -/
theorem Named.login_eq {reviews : List Review} (h : Named reviews) {review later : Review}
    (hreview : review ∈ reviews) (hlater : later ∈ reviews) {i j : ℕ} (hij : i < j)
    (hkey : later.reviewerKey j = review.reviewerKey i) :
    review.login.isSome ∧ later.login = review.login := by
  unfold Review.reviewerKey at hkey
  rcases hlogin : review.login with _ | login
  · rw [hlogin, Option.getD_none] at hkey
    rcases hlogin' : later.login with _ | login'
    · rw [hlogin', Option.getD_none] at hkey
      have hsame := unknownKey_injective hkey
      omega
    · rw [hlogin', Option.getD_some] at hkey
      exact absurd (hkey ▸ hlogin') (h ⟨review, hreview, hlogin⟩ later hlater i)
  · rw [hlogin, Option.getD_some] at hkey
    rcases hlogin' : later.login with _ | login'
    · rw [hlogin', Option.getD_none] at hkey
      exact absurd (hkey ▸ hlogin) (h ⟨later, hlater, hlogin'⟩ review hreview j)
    · rw [hlogin', Option.getD_some] at hkey
      exact ⟨rfl, congrArg some hkey⟩

/-- In the order of the times: a review asks for changes, and its user decides nothing later. -/
def ReviewVocabulary.Outstanding (v : ReviewVocabulary) (sorted : List Review) (review : Review) :
    Prop :=
  ∃ earlier later, sorted = earlier ++ review :: later ∧ review.state = v.changesRequested ∧
    ∀ r ∈ later, review.login.isSome → r.login = review.login → ¬ v.Decides r

section Walk

variable {v : ReviewVocabulary} {reviews : List Review}

theorem reviewWalk_concat (reviews : List Review) (review : Review) :
    reviewWalk v (reviews ++ [review]) =
      (reviewWalk v reviews).visit v (review, reviews.length) := by
  rw [reviewWalk, List.zipIdx_append, List.foldl_append]
  simp [reviewWalk]

/-- The flag of a reviewer after a visit: a decision of the reviewer sets it. -/
theorem lookup_visit (walk : ReviewWalk) (review : Review) (index : ℕ) (key : String) :
    (walk.visit v (review, index)).blockingByReviewer.lookup key =
      if review.reviewerKey index = key ∧ v.Decides review then
        some (review.state == v.changesRequested)
      else walk.blockingByReviewer.lookup key := by
  rw [ReviewWalk.visit]
  by_cases hdecides : v.Decides review
  · have hinsert : (if review.state = v.changesRequested then
          walk.blockingByReviewer.insert (review.reviewerKey index) true
        else if review.state = v.approved ∨ review.state = v.dismissed then
          walk.blockingByReviewer.insert (review.reviewerKey index) false
        else walk.blockingByReviewer) =
        walk.blockingByReviewer.insert (review.reviewerKey index)
          (review.state == v.changesRequested) := by
      by_cases hchanges : review.state = v.changesRequested
      · rw [if_pos hchanges, hchanges, beq_self_eq_true]
      · rw [if_neg hchanges, if_pos (hdecides.resolve_left hchanges),
          beq_eq_false_iff_ne.mpr hchanges]
    simp only [hinsert]
    by_cases hkey : review.reviewerKey index = key
    · rw [if_pos ⟨hkey, hdecides⟩, hkey, AList.lookup_insert]
    · have hnot : ¬ (review.reviewerKey index = key ∧ v.Decides review) := fun h => hkey h.1
      rw [if_neg hnot, AList.lookup_insert_ne (Ne.symm hkey)]
  · have hneither := not_or.mp hdecides
    have hnot : ¬ (review.reviewerKey index = key ∧ v.Decides review) := fun h => hdecides h.2
    rw [if_neg hnot]
    simp only [if_neg hneither.1, if_neg hneither.2]

/-- The two ends of a list with one more item. -/
theorem concat_split {α : Type*} {l earlier later : List α} {x a : α}
    (h : l ++ [x] = earlier ++ a :: later) :
    (later = [] ∧ earlier = l ∧ a = x) ∨ ∃ rest, later = rest ++ [x] ∧ l = earlier ++ a :: rest := by
  rcases List.eq_nil_or_concat' later with rfl | ⟨rest, y, rfl⟩
  · obtain ⟨hl, hx⟩ := List.append_inj' h rfl
    exact Or.inl ⟨rfl, hl.symm, (List.cons.inj hx).1.symm⟩
  · right
    have hassoc : l ++ [x] = (earlier ++ a :: rest) ++ [y] := by
      rw [h]
      simp
    obtain ⟨hl, hx⟩ := List.append_inj' hassoc rfl
    obtain rfl := (List.cons.inj hx).1
    exact ⟨rest, rfl, hl⟩

/-- **The flag of a reviewer**: it is set if and only if the reviewer asked for changes and decided
nothing later. -/
theorem lookup_blocking (reviews : List Review) (key : String) :
    (reviewWalk v reviews).blockingByReviewer.lookup key = some true ↔
      ∃ earlier review later, reviews = earlier ++ review :: later ∧
        review.reviewerKey earlier.length = key ∧ review.state = v.changesRequested ∧
        ∀ visited ∈ later.zipIdx (earlier.length + 1),
          visited.1.reviewerKey visited.2 = key → ¬ v.Decides visited.1 := by
  induction reviews using List.reverseRec with
  | nil =>
    have hempty : (reviewWalk v []).blockingByReviewer.lookup key = none := AList.lookup_empty key
    simp [hempty]
  | append_singleton reviews x ih =>
    rw [reviewWalk_concat, lookup_visit]
    by_cases hlast : x.reviewerKey reviews.length = key ∧ v.Decides x
    · rw [if_pos hlast]
      constructor
      · intro hchanges
        refine ⟨reviews, x, [], rfl, hlast.1, beq_iff_eq.mp (Option.some.inj hchanges), ?_⟩
        simp
      · rintro ⟨earlier, review, later, hsplit, -, hchanges, hlater⟩
        rcases concat_split hsplit with ⟨-, -, rfl⟩ | ⟨rest, rfl, rfl⟩
        · rw [beq_iff_eq.mpr hchanges]
        · -- a decision of the reviewer is the last one
          refine absurd hlast.2 (hlater (x, earlier.length + 1 + rest.length) ?_ ?_)
          · simp [List.zipIdx_append]
          · rw [← hlast.1]
            congr 1
            simp only [List.length_append, List.length_cons]
            omega
    · rw [if_neg hlast, ih]
      constructor
      · rintro ⟨earlier, review, later, rfl, hkey, hchanges, hlater⟩
        refine ⟨earlier, review, later ++ [x], by simp, hkey, hchanges, ?_⟩
        rw [List.zipIdx_append]
        intro visited hvisited hvisitedKey
        rcases List.mem_append.mp hvisited with hbefore | hnew
        · exact hlater visited hbefore hvisitedKey
        · rw [List.zipIdx_singleton, List.mem_singleton] at hnew
          subst hnew
          refine fun hdecides => hlast ⟨?_, hdecides⟩
          rw [← hvisitedKey]
          congr 1
          simp only [List.length_append, List.length_cons]
          omega
      · rintro ⟨earlier, review, later, hsplit, hkey, hchanges, hlater⟩
        rcases concat_split hsplit with ⟨-, rfl, rfl⟩ | ⟨rest, rfl, rfl⟩
        · exact absurd ⟨hkey, Or.inl hchanges⟩ hlast
        · refine ⟨earlier, review, rest, rfl, hkey, hchanges, fun visited hvisited => ?_⟩
          refine hlater visited ?_
          rw [List.zipIdx_append]
          exact List.mem_append_left _ hvisited

/-- A latest review that asks for changes sets the flag of its reviewer. -/
theorem blocking_of_latest {key : String} {review : Review}
    (hlookup : (reviewWalk v reviews).latestByReviewer.lookup key = some review)
    (hchanges : review.state = v.changesRequested) :
    (reviewWalk v reviews).blockingByReviewer.lookup key = some true := by
  induction reviews using List.reverseRec with
  | nil =>
    have hempty : (reviewWalk v []).latestByReviewer.lookup key = none := AList.lookup_empty key
    rw [hempty] at hlookup
    cases hlookup
  | append_singleton reviews x ih =>
    rw [reviewWalk_concat] at hlookup ⊢
    rw [lookup_visit]
    by_cases hkey : x.reviewerKey reviews.length = key
    · rw [ReviewWalk.visit, hkey, AList.lookup_insert] at hlookup
      obtain rfl := Option.some.inj hlookup
      rw [if_pos ⟨hkey, Or.inl hchanges⟩, beq_iff_eq.mpr hchanges]
    · rw [ReviewWalk.visit, AList.lookup_insert_ne (Ne.symm hkey)] at hlookup
      rw [if_neg fun h => hkey h.1]
      exact ih hlookup

/-- **A reviewer still asks for changes, or the latest review of one does, if and only if a request
for changes is outstanding.** -/
theorem blocking_iff (hnamed : Named reviews) :
    (((reviewWalk v reviews).blockingByReviewer.entries.any fun entry => entry.2) ||
      (reviewWalk v reviews).latestByReviewer.entries.any fun entry =>
        entry.2.state == v.changesRequested) = true ↔
      ∃ review, v.Outstanding reviews review := by
  have hflags := any_entries (m := (reviewWalk v reviews).blockingByReviewer) (p := fun flag => flag)
  have hstates := any_entries (m := (reviewWalk v reviews).latestByReviewer)
    (p := fun review => review.state == v.changesRequested)
  have hset : (∃ key, (reviewWalk v reviews).blockingByReviewer.lookup key = some true) ↔
      ∃ review, v.Outstanding reviews review := by
    simp only [lookup_blocking]
    constructor
    · rintro ⟨key, earlier, review, later, hsplit, hkey, hchanges, hlater⟩
      refine ⟨review, earlier, later, hsplit, hchanges, fun r hr hknown hlogin => ?_⟩
      obtain ⟨login, hreviewer⟩ := Option.isSome_iff_exists.mp hknown
      rw [← List.zipIdx_map_fst (earlier.length + 1) later] at hr
      obtain ⟨visited, hvisited, rfl⟩ := List.mem_map.mp hr
      refine hlater visited hvisited ?_
      rw [← hkey, Review.reviewerKey, Review.reviewerKey, hlogin, hreviewer, Option.getD_some,
        Option.getD_some]
    · rintro ⟨review, earlier, later, hsplit, hchanges, hlater⟩
      refine ⟨_, earlier, review, later, hsplit, rfl, hchanges, ?_⟩
      intro visited hvisited hkey
      have hlt : earlier.length < visited.2 := List.le_snd_of_mem_zipIdx hvisited
      have hmem : visited.1 ∈ later := List.fst_mem_of_mem_zipIdx hvisited
      obtain ⟨hknown, hlogin⟩ := hnamed.login_eq (by simp [hsplit]) (by simp [hsplit, hmem]) hlt hkey
      exact hlater visited.1 hmem hknown hlogin
  rw [Bool.or_eq_true, hflags, hstates, ← hset]
  constructor
  · rintro (⟨key, flag, hlookup, rfl⟩ | ⟨key, review, hlookup, hchanges⟩)
    · exact ⟨key, hlookup⟩
    · exact ⟨key, blocking_of_latest hlookup (beq_iff_eq.mp hchanges)⟩
  · rintro ⟨key, hlookup⟩
    exact Or.inl ⟨key, true, hlookup, rfl⟩

end Walk

/-! ### The verdict -/

/-- A review is its reviewer's latest one that decides. -/
def ReviewVocabulary.LatestDecision (v : ReviewVocabulary) (reviews : List Review)
    (review : Review) : Prop :=
  Latest Review.time reviews (fun r => r.login = review.login ∧ v.Decides r) review

section Verdict

variable {v : ReviewVocabulary} {reviews : List Review}

/-- In a list in the order of distinct times, an outstanding request is the latest decision of its
user. -/
theorem ReviewVocabulary.outstanding_iff (hknown : ∀ review ∈ reviews, review.login.isSome)
    (hsorted : reviews.Pairwise fun r r' => r.time < r'.time) {review : Review} :
    v.Outstanding reviews review ↔
      v.LatestDecision reviews review ∧ review.state = v.changesRequested := by
  constructor
  · rintro ⟨earlier, later, rfl, hchanges, hlater⟩
    have hbefore := (List.pairwise_append.mp hsorted).2.2
    refine ⟨⟨⟨by simp, rfl, Or.inl hchanges⟩, fun r hr hdecided => ?_⟩, hchanges⟩
    rcases List.mem_append.mp hr with hearlier | hrest
    · exact (hbefore r hearlier review List.mem_cons_self).le
    · rcases List.mem_cons.mp hrest with rfl | hafter
      · exact le_refl _
      · exact absurd hdecided.2 (hlater r hafter (hknown review (by simp)) hdecided.1)
  · rintro ⟨⟨⟨hmem, -, -⟩, hlatest⟩, hchanges⟩
    obtain ⟨earlier, later, rfl⟩ := List.append_of_mem hmem
    refine ⟨earlier, later, rfl, hchanges, fun r hr _ hlogin hdecides => ?_⟩
    -- what comes later has a later time
    have hlt := (List.pairwise_cons.mp (List.pairwise_append.mp hsorted).2.1).1 r hr
    have hle := hlatest r (by simp [hr]) ⟨hlogin, hdecides⟩
    omega

/-- **The result is `changes_requested` if and only if a request for changes is outstanding.** -/
theorem deriveReviewState_outstanding (hnamed : Named reviews) :
    deriveReviewStateIn v reviews = .changesRequested ↔
      ∃ review, v.Outstanding (sortBy Review.time reviews) review := by
  have hnamed' : Named (sortBy Review.time reviews) := by
    unfold Named at hnamed ⊢
    simp only [(sortBy_perm Review.time reviews).mem_iff]
    exact hnamed
  rw [← blocking_iff hnamed', deriveReviewStateIn]
  by_cases hempty : reviews = []
  · subst hempty
    simp [sortBy, reviewWalk]
  · have hsome : reviews.isEmpty = false := by simpa using hempty
    rw [hsome]
    simp only [Bool.false_eq_true, if_false]
    split
    · rename_i hblocked
      simp only [hblocked]
    · rename_i hfree
      refine iff_of_false ?_ hfree
      split
      · simp
      · split
        · simp
        · split
          · simp
          · split <;> simp

/-- **The result is `changes_requested` if and only if the latest decision of a reviewer asks for
changes.** -/
theorem deriveReviewState_latest (h : Attributed reviews) :
    deriveReviewStateIn v reviews = .changesRequested ↔
      ∃ review, v.LatestDecision reviews review ∧ review.state = v.changesRequested := by
  rw [deriveReviewState_outstanding h.named]
  refine exists_congr fun review => ?_
  rw [ReviewVocabulary.outstanding_iff h.sorted.known (sortBy_pairwise h.distinct)]
  exact and_congr_left fun _ => Latest.congr fun _ => (sortBy_perm _ reviews).mem_iff

/-- **The order of the list does not matter.** -/
theorem deriveReviewState_perm {reviews' : List Review} (h : Attributed reviews)
    (hperm : reviews.Perm reviews') :
    deriveReviewStateIn v reviews' = deriveReviewStateIn v reviews := by
  have hempty : reviews'.isEmpty = reviews.isEmpty := by
    rw [Bool.eq_iff_iff, List.isEmpty_iff_length_eq_zero, List.isEmpty_iff_length_eq_zero,
      hperm.length_eq]
  rw [deriveReviewStateIn, deriveReviewStateIn, hempty, sortBy_eq_of_perm h.distinct hperm]

/-- **A comment changes nothing about a request for changes.** -/
theorem deriveReviewState_comment {before after : List Review} {comment : Review}
    (h : Attributed (before ++ comment :: after)) (hcomment : ¬ v.Decides comment) :
    deriveReviewStateIn v (before ++ after) = .changesRequested ↔
      deriveReviewStateIn v (before ++ comment :: after) = .changesRequested := by
  have hsub : (before ++ after).Sublist (before ++ comment :: after) :=
    List.Sublist.append_left (List.sublist_cons_self comment after) before
  have hwithout : Attributed (before ++ after) :=
    ⟨h.distinct.sublist hsub, fun review hreview => h.known review (hsub.mem hreview)⟩
  -- a review that decides is not the comment
  have hmem : ∀ review, v.Decides review →
      (review ∈ before ++ comment :: after ↔ review ∈ before ++ after) := by
    intro review hdecides
    have hne : review ≠ comment := by
      rintro rfl
      exact hcomment hdecides
    simp [hne]
  rw [deriveReviewState_latest h, deriveReviewState_latest hwithout]
  refine exists_congr fun review => and_congr_left fun _ => ?_
  constructor
  · rintro ⟨⟨hreview, hlogin, hdecides⟩, hlatest⟩
    refine ⟨⟨(hmem review hdecides).mpr hreview, hlogin, hdecides⟩, fun r hr hdecided => ?_⟩
    exact hlatest r ((hmem r hdecided.2).mp hr) hdecided
  · rintro ⟨⟨hreview, hlogin, hdecides⟩, hlatest⟩
    refine ⟨⟨(hmem review hdecides).mp hreview, hlogin, hdecides⟩, fun r hr hdecided => ?_⟩
    exact hlatest r ((hmem r hdecided.2).mpr hr) hdecided

end Verdict

/-! ### Other words -/

/-- The same review, in other words. -/
def Review.rename (words : Equiv.Perm String) (review : Review) : Review :=
  { review with state := words review.state }

/-- The same states, in other words. -/
structure ReviewVocabulary.Renamed (words : Equiv.Perm String) (v v' : ReviewVocabulary) :
    Prop where
  changesRequested : v'.changesRequested = words v.changesRequested
  approved : v'.approved = words v.approved
  commented : v'.commented = words v.commented
  dismissed : v'.dismissed = words v.dismissed

section Renamed

variable {words : Equiv.Perm String} {v v' : ReviewVocabulary} {reviews : List Review}

/-- The maps of the pass, in other words. -/
theorem reviewWalk_rename (h : v.Renamed words v') (reviews : List Review) :
    (reviewWalk v' (reviews.map (Review.rename words))).blockingByReviewer =
        (reviewWalk v reviews).blockingByReviewer ∧
      ∀ login, (reviewWalk v' (reviews.map (Review.rename words))).latestByReviewer.lookup login =
        ((reviewWalk v reviews).latestByReviewer.lookup login).map (Review.rename words) := by
  induction reviews using List.reverseRec with
  | nil => exact ⟨rfl, fun login => by simp [reviewWalk]⟩
  | append_singleton reviews review ih =>
    have hkey : (review.rename words).reviewerKey (reviews.map (Review.rename words)).length =
        review.reviewerKey reviews.length := by
      rw [List.length_map]
      rfl
    have hstate : (review.rename words).state = words review.state := rfl
    rw [List.map_append, List.map_singleton, reviewWalk_concat, reviewWalk_concat]
    constructor
    · simp only [ReviewWalk.visit, hkey, ih.1, hstate, h.changesRequested, h.approved, h.dismissed,
        words.apply_eq_iff_eq]
    · intro login
      simp only [ReviewWalk.visit, hkey]
      by_cases hsame : login = review.reviewerKey reviews.length
      · subst hsame
        rw [AList.lookup_insert, AList.lookup_insert, Option.map_some]
      · rw [AList.lookup_insert_ne hsame, AList.lookup_insert_ne hsame, ih.2]

/-- A latest review in a state, in other words. -/
theorem any_latest_rename (h : v.Renamed words v') (state : String) :
    ((reviewWalk v' (reviews.map (Review.rename words))).latestByReviewer.entries.any
        fun entry => entry.2.state == words state) =
      (reviewWalk v reviews).latestByReviewer.entries.any fun entry => entry.2.state == state := by
  rw [Bool.eq_iff_iff, any_entries (p := fun review : Review => review.state == words state),
    any_entries (p := fun review : Review => review.state == state)]
  refine exists_congr fun login => ?_
  rw [(reviewWalk_rename h reviews).2 login]
  rcases (reviewWalk v reviews).latestByReviewer.lookup login with _ | review
  · simp
  · simp [Review.rename]

/-- **The derivation does not depend on the words.** -/
theorem deriveReviewState_rename (h : v.Renamed words v') (reviews : List Review) :
    deriveReviewStateIn v' (reviews.map (Review.rename words)) = deriveReviewStateIn v reviews := by
  have hsorted : sortBy Review.time (reviews.map (Review.rename words)) =
      (sortBy Review.time reviews).map (Review.rename words) :=
    (List.map_insertionSort (fun a b : Review => a.time ≤ b.time) (fun a b : Review => a.time ≤ b.time)
      (Review.rename words) reviews fun _ _ _ _ => Iff.rfl).symm
  rw [deriveReviewStateIn, deriveReviewStateIn, List.isEmpty_map, hsorted]
  simp only [(reviewWalk_rename h _).1, h.changesRequested, h.approved, any_latest_rename h,
    List.getLast?_map, Option.map_map]
  rcases (sortBy Review.time reviews).getLast? with _ | last
  · rfl
  · simp [Review.rename, h.commented, h.dismissed]

end Renamed

/-- Gitea's words for the states of GitHub. -/
def giteaWords : Equiv.Perm String :=
  (Equiv.swap "CHANGES_REQUESTED" "REQUEST_CHANGES").trans (Equiv.swap "COMMENTED" "COMMENT")

theorem renamed_giteaWords : Github.reviewVocabulary.Renamed giteaWords Gitea.reviewVocabulary := by
  constructor <;> decide

/-! ### The two clients -/

/-- What a derivation in the words `v` makes of the reviews. -/
structure ReviewVocabulary.Judges (v : ReviewVocabulary) (derive : List Review → PrReviewState)
    (reviews : List Review) : Prop where
  changesRequested_iff : derive reviews = .changesRequested ↔
    ∃ review, v.LatestDecision reviews review ∧ review.state = v.changesRequested
  /-- Without a comment, the verdict is the same. -/
  comments : ∀ before comment after, reviews = before ++ comment :: after →
    comment.state = v.commented →
      (derive (before ++ after) = .changesRequested ↔ derive reviews = .changesRequested)
  permuted : ∀ reviews', reviews.Perm reviews' → derive reviews' = derive reviews

theorem judges_of_comments {v : ReviewVocabulary} {reviews : List Review} (h : Attributed reviews)
    (hcomments : ∀ comment : Review, comment.state = v.commented → ¬ v.Decides comment) :
    v.Judges (deriveReviewStateIn v) reviews where
  changesRequested_iff := deriveReviewState_latest h
  comments before comment after hreviews hcomment := by
    subst hreviews
    exact deriveReviewState_comment h (hcomments comment hcomment)
  permuted _ hperm := deriveReviewState_perm h hperm

/-- **The review state is that of each reviewer's latest decision**: it is `changes_requested` if and
only if that of some reviewer asks for changes, whatever the comments and the order of the list; and
GitHub and Gitea have the same result on the same reviews. -/
theorem deriveReviewState_verdict {reviews : List Review} (h : Attributed reviews) :
    Github.reviewVocabulary.Judges Github.deriveReviewState reviews ∧
      Gitea.reviewVocabulary.Judges Gitea.deriveReviewState reviews ∧
      Gitea.deriveReviewState (reviews.map (Review.rename giteaWords)) =
        Github.deriveReviewState reviews := by
  refine ⟨judges_of_comments h fun comment hcomment => ?_,
    judges_of_comments h fun comment hcomment => ?_,
    deriveReviewState_rename renamed_giteaWords reviews⟩
  · rw [ReviewVocabulary.Decides, hcomment]
    decide
  · rw [ReviewVocabulary.Decides, hcomment]
    decide

/-- Alice asks for changes and comments later; Bob approves in the end. -/
def sampleReviews : List Review := [
  { state := "APPROVED", submittedAt := some 3, login := some "bob" },
  { state := "CHANGES_REQUESTED", submittedAt := some 1, login := some "alice" },
  { state := "COMMENTED", submittedAt := some 2, login := some "alice" }]

theorem deriveReviewState_verdict_sticky :
    (Github.reviewVocabulary.Judges Github.deriveReviewState sampleReviews ∧
      Gitea.reviewVocabulary.Judges Gitea.deriveReviewState sampleReviews ∧
      Gitea.deriveReviewState (sampleReviews.map (Review.rename giteaWords)) =
        Github.deriveReviewState sampleReviews) ∧
      Github.deriveReviewState sampleReviews = .changesRequested :=
  ⟨deriveReviewState_verdict ⟨by unfold Distinct; decide, by decide⟩, by decide⟩

end MiniCoder
