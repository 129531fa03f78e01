import Mathlib.Data.List.Basic

/-!
# The SCM's merge call

The pull requests at the SCM, as its merge endpoint sees them, and `mergePullRequest`, the client's
reading of the endpoint's answers.  What the server does with a call is not the client's choice: it
may merge, refuse, or be cut off before or after it merged.  It never merges a pull request twice,
nor a head other than the one the call expects.

* `mergedHead_some`: what a call that merged found.
* `find_setMerged`: a merge marks its own pull request and no other.
* `mergedHead_of_merged`, `mergedHead_of_rejected`: what an answer says about the merge.
-/

namespace MiniCoder

/-- The coordinates of a pull request. -/
structure PrKey where
  owner : String
  repo : String
  prNumber : ℕ
  deriving DecidableEq, Repr

structure ScmPullRequest where
  key : PrKey
  head : String
  merged : Bool := false
  deriving DecidableEq, Repr

/-- The pull requests at the SCM. -/
structure Scm where
  pullRequests : List ScmPullRequest := []
  deriving DecidableEq, Repr

/-- `MergePullRequestOptions`, as far as the endpoint's decision goes. -/
structure MergePullRequestOptions where
  key : PrKey
  expectedHeadSha : Option String
  deriving DecidableEq, Repr

/-- What the server makes of a merge call that reaches it. -/
inductive ServerBehaviour
  | merges (mergeSha : String)
  /-- Branch protection, or a conflict. -/
  | refuses
  /-- The call fails on the way, before or after the server merged. -/
  | lost (performed : Bool)
  deriving DecidableEq, Repr

/-- The answer the client sees. -/
inductive HttpReply
  | merged (mergeSha : String)
  | status (code : ℕ) (message : String)
  | networkError
  deriving DecidableEq, Repr

namespace Scm

variable (scm : Scm) (options : MergePullRequestOptions)

def find (key : PrKey) : Option ScmPullRequest := scm.pullRequests.find? (·.key == key)

def isMerged (key : PrKey) : Bool := (scm.find key).any (·.merged)

/-- The call names a head that the pull request has moved from. -/
def headMoved (pr : ScmPullRequest) : Bool := options.expectedHeadSha.any fun sha => sha != pr.head

/-- The head that a call merges, if it merges one. -/
def mergedHead : ServerBehaviour → Option String
  | .merges _ | .lost true =>
    (scm.find options.key).bind fun pr =>
      if pr.merged || headMoved options pr then none else some pr.head
  | _ => none

/-- Marks a pull request as merged. -/
def setMerged (key : PrKey) : Scm where
  pullRequests := scm.pullRequests.map fun pr => if pr.key = key then { pr with merged := true } else pr

/-- The SCM after a call. -/
def afterCall (behaviour : ServerBehaviour) : Scm :=
  if (scm.mergedHead options behaviour).isSome then scm.setMerged options.key else scm

/-- The server's answer, with the text it gives an error: a merged pull request, like a refused one,
is a 405. -/
def reply (behaviour : ServerBehaviour) (message : String) : HttpReply :=
  match behaviour, scm.find options.key with
  | .lost _, _ => .networkError
  | _, none => .status 404 message
  | behaviour, some pr =>
    if pr.merged then .status 405 message
    else if headMoved options pr then .status 409 message
    else match behaviour with
      | .merges mergeSha => .merged mergeSha
      | _ => .status 405 message

end Scm

/-- `ScmMergeRejectedError`. -/
structure ScmMergeRejectedError where
  message : String
  reason : String
  autoClearable : Bool
  deriving DecidableEq, Repr

/-- How `mergePullRequest` ends: any answer but the two known rejections is thrown as it is. -/
inductive MergeOutcome
  | merged (mergeSha : String)
  | rejected (e : ScmMergeRejectedError)
  | thrown
  deriving DecidableEq, Repr

/-- `OctokitGitHubClient.mergePullRequest`: how it reads an answer. -/
def mergePullRequest (prNumber : ℕ) : HttpReply → MergeOutcome
  | .merged mergeSha => .merged mergeSha
  | .status code message =>
    if code = 409 then .rejected {
      message := s!"PR #{prNumber} head moved since the merge gate was evaluated: {message}"
      reason := "sha_mismatch"
      autoClearable := true }
    else if code = 405 then .rejected {
      message := s!"PR #{prNumber} is not mergeable (branch protection or conflict): {message}"
      reason := "not_mergeable"
      autoClearable := false }
    else .thrown
  | .networkError => .thrown

namespace Scm

variable {scm : Scm} {options : MergePullRequestOptions} {behaviour : ServerBehaviour}

/-- **A call that merged** found its pull request unmerged, at the head it expected. -/
theorem mergedHead_some {head : String} (h : scm.mergedHead options behaviour = some head) :
    ∃ pr, scm.find options.key = some pr ∧ pr.merged = false ∧ pr.head = head ∧
      ∀ sha, options.expectedHeadSha = some sha → sha = head := by
  have hbind : ((scm.find options.key).bind fun pr =>
      if pr.merged || headMoved options pr then none else some pr.head) = some head := by
    cases behaviour with
    | merges mergeSha => exact h
    | refuses => cases h
    | lost performed =>
      cases performed with
      | true => exact h
      | false => cases h
  obtain ⟨pr, hfind, hmerged⟩ := Option.bind_eq_some_iff.mp hbind
  split at hmerged
  · cases hmerged
  · rename_i hfree
    rw [Bool.or_eq_true, not_or, Bool.not_eq_true, Bool.not_eq_true] at hfree
    obtain rfl := Option.some.inj hmerged
    refine ⟨pr, hfind, hfree.1, rfl, fun sha hsha => ?_⟩
    have hmoved := hfree.2
    rw [headMoved, hsha] at hmoved
    simpa using hmoved

/-- A pull request that is merged is not merged again. -/
theorem mergedHead_of_isMerged (h : scm.isMerged options.key = true) :
    scm.mergedHead options behaviour = none := by
  rcases hhead : scm.mergedHead options behaviour with _ | head
  · rfl
  · obtain ⟨pr, hfind, hmerged, -⟩ := mergedHead_some hhead
    rw [isMerged, hfind] at h
    simp [hmerged] at h

theorem find_key {key : PrKey} {pr : ScmPullRequest} (h : scm.find key = some pr) :
    pr.key = key := by
  unfold find at h
  have hkey := List.find?_some h
  exact beq_iff_eq.mp hkey

theorem find_setMerged (key key' : PrKey) :
    (scm.setMerged key).find key' =
      (scm.find key').map fun pr => if pr.key = key then { pr with merged := true } else pr := by
  unfold find setMerged
  rw [List.find?_map]
  congr 1
  refine congrArg (List.find? · _) (funext fun pr => ?_)
  show ((if pr.key = key then { pr with merged := true } else pr).key == key') = (pr.key == key')
  split <;> rfl

/-- A call leaves the pull requests that were merged merged. -/
theorem isMerged_afterCall {key : PrKey} (h : scm.isMerged key = true) :
    (scm.afterCall options behaviour).isMerged key = true := by
  unfold afterCall
  split
  · rw [isMerged] at h
    rw [isMerged, find_setMerged]
    cases hfind : scm.find key with
    | none =>
      rw [hfind] at h
      cases h
    | some pr =>
      rw [hfind, Option.any_some] at h
      rw [Option.map_some, Option.any_some]
      split
      · rfl
      · exact h
  · exact h

/-- A call that merged marked its pull request. -/
theorem isMerged_of_mergedHead {head : String}
    (h : scm.mergedHead options behaviour = some head) :
    (scm.afterCall options behaviour).isMerged options.key = true := by
  obtain ⟨pr, hfind, -⟩ := mergedHead_some h
  have hkey : pr.key = options.key := find_key hfind
  have hafter : scm.afterCall options behaviour = scm.setMerged options.key := by
    rw [afterCall, h]
    rfl
  rw [hafter, isMerged, find_setMerged, hfind, Option.map_some, if_pos hkey]
  rfl

/-- An answer that reports a merge comes from a call that merged. -/
theorem mergedHead_of_merged {prNumber : ℕ} {message mergeSha : String}
    (h : mergePullRequest prNumber (scm.reply options behaviour message) = .merged mergeSha) :
    ∃ head, scm.mergedHead options behaviour = some head := by
  cases behaviour with
  | lost performed => simp [reply, mergePullRequest] at h
  | merges mergeSha' =>
    cases hfind : scm.find options.key with
    | none => simp [reply, hfind, mergePullRequest] at h
    | some pr =>
      have hfree : ¬ (pr.merged || headMoved options pr) = true := by
        intro hbusy
        rcases Bool.or_eq_true _ _ ▸ hbusy with hmerged | hmoved
        · simp [reply, hfind, hmerged, mergePullRequest] at h
        · cases hmerged : pr.merged <;> simp [reply, hfind, hmerged, hmoved, mergePullRequest] at h
      refine ⟨pr.head, ?_⟩
      rw [mergedHead, hfind, Option.bind_some, if_neg hfree]
  | refuses =>
    cases hfind : scm.find options.key with
    | none => simp [reply, hfind, mergePullRequest] at h
    | some pr =>
      cases hmerged : pr.merged <;> cases hmoved : headMoved options pr <;>
        simp [reply, hfind, hmerged, hmoved, mergePullRequest] at h

/-- A rejection comes from a call that did not merge. -/
theorem mergedHead_of_rejected {prNumber : ℕ} {message : String} {e : ScmMergeRejectedError}
    (h : mergePullRequest prNumber (scm.reply options behaviour message) = .rejected e) :
    scm.mergedHead options behaviour = none := by
  rcases hhead : scm.mergedHead options behaviour with _ | head
  · rfl
  · obtain ⟨pr, hfind, hmerged, hprhead, hexpected⟩ := mergedHead_some hhead
    have hmoved : headMoved options pr = false := by
      unfold headMoved
      rcases hsha : options.expectedHeadSha with _ | sha
      · rfl
      · simp [hexpected sha hsha, hprhead]
    cases behaviour with
    | merges mergeSha => simp [reply, hfind, hmerged, hmoved, mergePullRequest] at h
    | refuses => cases hhead
    | lost performed => simp [reply, mergePullRequest] at h

end Scm

end MiniCoder
