import MiniCoder.Coder.GuardedWrites
import MiniCoder.Library.Lines

/-!
# The identity of a run in Git

A feature run has a branch, named after it, and its commits carry a trailer with its id.
`prepareBranch` looks for the branch in the text of `git branch -r`, and `findExistingRunCommit`
looks for the trailer in the text of the newest commit's message; both ask whether one string
occurs in another.

* `existingInLog_eq`: what `findExistingRunCommit` reads off the output of `git log`.
* `carries_commitMessage`: of the messages that the adapter writes, a run's trailer is carried by
  the run's own.
* `runIdentified_iff`: both look-ups are exact unless the text occurs without the branch, or
  without the trailer.
-/

open Storage Storage.Action Lines

namespace MiniCoder

variable {featureRunId other title : String}

/-! ### The output of Git -/

/-- The output of `git log -1 --format=%H%n%B`. -/
def logOutput (head : Git.Commit) : String := s!"{head.sha}\n{head.message}\n"

/-- What `findExistingRunCommit` reads off the trimmed output. -/
def existingInLog (featureRunId log : String) : Option String :=
  match log.toList.splitOn '\n' with
  | [] => none
  | sha :: bodyLines =>
    let body := String.ofList (['\n'].intercalate bodyLines)
    if sha ≠ [] ∧ includes (featureRunTrailer featureRunId) body then some (String.ofList sha)
    else none

/-- A commit as Git prints it: a sha on a line of its own, and a message without white space
around it. -/
structure Printed (head : Git.Commit) : Prop where
  sha : head.sha ≠ "" ∧ ∀ c ∈ head.sha.toList, isWhiteSpace c = false
  message : trim head.message = head.message

/-- The trimmed output: the sha, and the message below it when there is one. -/
theorem trim_logOutput {head : Git.Commit} (h : Printed head) :
    (trim (logOutput head)).toList =
      head.sha.toList ++ if head.message = "" then [] else '\n' :: head.message.toList := by
  have houtput : (logOutput head).toList =
      head.sha.toList ++ '\n' :: head.message.toList ++ ['\n'] := by
    unfold logOutput
    rw [String.toList_append, String.toList_append, String.toList_append]
    rw [List.append_assoc, List.append_assoc, List.append_assoc]
    rfl
  obtain ⟨c, sha, hsha⟩ := List.exists_cons_of_ne_nil
    (fun hnil => h.sha.1 (String.toList_eq_nil_iff.mp hnil))
  have hplain : ∀ a ∈ c :: sha, isWhiteSpace a = false := by
    rw [← hsha]
    exact h.sha.2
  have hfront : (logOutput head).toList.dropWhile isWhiteSpace = (logOutput head).toList := by
    rw [houtput, hsha, List.cons_append, List.cons_append,
      List.dropWhile_cons_of_neg (by simp [hplain c List.mem_cons_self])]
  rw [toList_trim, hfront, houtput, List.rdropWhile_concat_pos _ _ _ rfl, hsha]
  by_cases hempty : head.message = ""
  · rw [if_pos hempty, hempty, List.append_nil]
    show ((c :: sha) ++ ['\n']).rdropWhile isWhiteSpace = c :: sha
    rw [List.rdropWhile_concat_pos _ _ _ rfl]
    refine List.rdropWhile_eq_self_iff.mpr fun hne => ?_
    simp [hplain _ (List.getLast_mem hne)]
  · have hback := List.rdropWhile_eq_self_iff.mp (trim_eq_self_iff.mp h.message).2
    have hmessage : head.message.toList ≠ [] :=
      fun hnil => hempty (String.toList_eq_nil_iff.mp hnil)
    rw [if_neg hempty]
    refine List.rdropWhile_eq_self_iff.mpr fun hne => ?_
    have hlast : (c :: sha ++ '\n' :: head.message.toList).getLast hne =
        head.message.toList.getLast hmessage := by
      rw [List.getLast_append_of_ne_nil _ (List.cons_ne_nil _ _), List.getLast_cons hmessage]
    rw [hlast]
    exact hback hmessage

/-- **The output of `git log`** says of a commit what `hasTrailer` says of it. -/
theorem existingInLog_eq {head : Git.Commit} (h : Printed head) :
    existingInLog featureRunId (trim (logOutput head)) =
      if hasTrailer featureRunId head then some head.sha else none := by
  have hsha : head.sha.toList ≠ [] := fun hnil => h.sha.1 (String.toList_eq_nil_iff.mp hnil)
  have hnewline : '\n' ∉ head.sha.toList := by
    intro hmem
    have hplain := h.sha.2 _ hmem
    cases hplain
  obtain ⟨bodyLines, hlines, hbody⟩ : ∃ bodyLines,
      (trim (logOutput head)).toList.splitOn '\n' = head.sha.toList :: bodyLines ∧
        ['\n'].intercalate bodyLines = head.message.toList := by
    rw [trim_logOutput h]
    by_cases hempty : head.message = ""
    · refine ⟨[], ?_, by rw [hempty]; rfl⟩
      rw [if_pos hempty, List.append_nil, List.splitOn_eq_singleton hnewline]
    · refine ⟨head.message.toList.splitOn '\n', ?_, List.intercalate_splitOn _⟩
      rw [if_neg hempty, List.splitOn_append_cons_self_of_not_mem hnewline]
  unfold existingInLog hasTrailer
  rw [hlines]
  dsimp only
  rw [hbody, String.ofList_toList, String.ofList_toList]
  simp [hsha]

/-! ### What the trailer says -/

/-- Whether a line is blank. -/
def isBlankLine (line : List Char) : Bool := line.all isWhiteSpace

/-- A message carries the trailer of a run: it is a line of the last paragraph. -/
def Carries (featureRunId message : String) : Prop :=
  (featureRunTrailer featureRunId).toList ∈ lastParagraph isBlankLine (message.toList.splitOn '\n')

instance : Decidable (Carries featureRunId title) := inferInstanceAs (Decidable (_ ∈ _))

theorem toList_featureRunTrailer (featureRunId : String) :
    (featureRunTrailer featureRunId).toList =
      "MiniCoder-Feature-Run: ".toList ++ featureRunId.toList := by
  unfold featureRunTrailer
  rw [String.toList_append]
  rfl

/-- **The messages of the adapter** carry the trailer of the run that made them, and no other,
whatever the title of the feature is. -/
theorem carries_commitMessage (hother : '\n' ∉ other.toList) :
    Carries featureRunId (commitMessage other title) ↔ featureRunId = other := by
  have hmessage : (commitMessage other title).toList =
      s!"{other}: {title}".toList ++ '\n' :: ([] ++ '\n' :: (featureRunTrailer other).toList) := by
    simp only [commitMessage, toString, String.toList_append, List.append_assoc]
    rfl
  have hnewline : '\n' ∉ (featureRunTrailer other).toList := by
    rw [toList_featureRunTrailer, List.mem_append]
    rintro (hfixed | hid)
    · exact absurd hfixed (by decide)
    · exact hother hid
  have hblank : isBlankLine (featureRunTrailer other).toList = false := by
    rw [toList_featureRunTrailer]
    rfl
  unfold Carries
  rw [hmessage, List.splitOn_append_cons_self, List.splitOn_append_cons_self, List.splitOn_nil,
    List.splitOn_eq_singleton hnewline, List.singleton_append,
    lastParagraph_singleton _ hblank rfl, List.mem_singleton, toList_featureRunTrailer,
    toList_featureRunTrailer, List.append_cancel_left_eq, String.toList_inj]

/-- A trailer that is carried is found. -/
theorem hasTrailer_of_carries {head : Git.Commit} (h : Carries featureRunId head.message) :
    hasTrailer featureRunId head = true := by
  exact decide_eq_true (isInfix_of_mem_splitOn (mem_of_mem_lastParagraph h))

/-! ### Exactness -/

/-- The remote has a branch. -/
def HasBranch (remote : Git.Remote) (branch : String) : Prop := remote.history branch ≠ []

/-- The look-ups of a run are exact, in a sandbox whose commands do not fail of their own. -/
structure RunIdentified (featureRunId : String) (repo : Git.Workspace) : Prop where
  /-- The branch of the run is checked out where the remote has it, and else made anew. -/
  branch : ∀ (runner : CommandRunner) (w : CoderWorld), w.repo = repo →
    (∀ n, runner.exitsNonZero n = false) →
      Returns (prepareBranch runner featureRunId) w fun _ w' =>
        w'.repo.clone.branch = branchNameFor featureRunId ∧
          (HasBranch repo.remote (branchNameFor featureRunId) →
            w'.repo.clone.history = repo.remote.history (branchNameFor featureRunId)) ∧
          (¬HasBranch repo.remote (branchNameFor featureRunId) →
            w'.repo.clone.history = repo.remote.history repo.remote.defaultBranch)
  /-- The newest commit is found where it carries the trailer of the run, and else not. -/
  commit : ∀ (runner : CommandRunner) (w : CoderWorld), w.repo = repo →
    (∀ n, runner.exitsNonZero n = false) → ∀ head ∈ repo.clone.history.head?,
      Returns (findExistingRunCommit runner featureRunId) w fun found _ =>
        found = if Carries featureRunId head.message then some head.sha else none
  /-- A commit that the adapter made for another run is not found. -/
  another : ∀ (runner : CommandRunner) (w : CoderWorld), w.repo = repo →
    (∀ n, runner.exitsNonZero n = false) → ∀ head ∈ repo.clone.history.head?, ∀ other title,
      other ≠ featureRunId → '\n' ∉ other.toList → head.message = commitMessage other title →
        Returns (findExistingRunCommit runner featureRunId) w fun found _ => found = none

/-! ### What the look-ups do -/

variable {runner : CommandRunner} {w : CoderWorld}

open CommandRunner

/-- In a sandbox whose commands do not fail, all of `prepareBranch` is its check-out. -/
theorem exec_prepareBranch (hexit : ∀ n, runner.exitsNonZero n = false) :
    exec (prepareBranch runner featureRunId) w =
      exec (if isListed w.repo.remote (branchNameFor featureRunId) then
          runner.git "git checkout -B" (·.checkoutRemote (branchNameFor featureRunId))
        else runner.git "git checkout -b" (·.checkoutNew (branchNameFor featureRunId)))
        { w with repo := w.repo.cloned, issued := w.issued + 4 } := by
  unfold prepareBranch
  refine Eq.trans (exec_bind_of (git_returns (hexit _) rfl)) ?_
  refine Eq.trans (exec_bind_of (git_returns (hexit _) rfl)) ?_
  refine Eq.trans (exec_bind_of (git_returns (hexit _) rfl)) ?_
  exact exec_bind_of (run_returns (hexit _) rfl)

/-- The listing names the default branch. -/
theorem isListed_defaultBranch (remote : Git.Remote) :
    isListed remote remote.defaultBranch = true := by
  refine decide_eq_true (List.IsInfix.trans ?_ (isInfix_intercalate List.mem_cons_self))
  refine List.IsSuffix.isInfix ⟨"  origin/HEAD -> ".toList, ?_⟩
  rw [String.toList_append, String.toList_append, ← List.append_assoc]
  rfl

theorem exec_findExistingRunCommit (hexit : ∀ n, runner.exitsNonZero n = false)
    {head : Git.Commit} (hhead : head ∈ w.repo.clone.history.head?) :
    exec (findExistingRunCommit runner featureRunId) w =
      (.ok (if hasTrailer featureRunId head then some head.sha else none),
        { w with issued := w.issued + 1 }) := by
  refine run_returns (hexit _) ?_
  rw [Option.mem_def.mp hhead]
  rfl

/-- **The look-ups of a run** are exact unless the name of its branch occurs in the listing of a
remote without the branch, or the text of its trailer in a message that does not carry it. -/
theorem runIdentified_iff {repo : Git.Workspace} :
    RunIdentified featureRunId repo ↔
      (isListed repo.remote (branchNameFor featureRunId) = true →
        HasBranch repo.remote (branchNameFor featureRunId)) ∧
      ∀ head ∈ repo.clone.history.head?, hasTrailer featureRunId head = true →
        Carries featureRunId head.message := by
  constructor
  · intro h
    have hplain : ∀ n, ({ newSha := "" } : CommandRunner).exitsNonZero n = false := fun _ => rfl
    refine ⟨fun hlisted => ?_, fun head hhead htrailer => ?_⟩
    · obtain ⟨_, w', hrun, -⟩ := h.branch { newSha := "" }
        { session := .start sampleDb (sampleRuntime 0), repo } rfl hplain
      rw [exec_prepareBranch hplain, if_pos hlisted] at hrun
      have hcheckout : repo.cloned.checkoutRemote (branchNameFor featureRunId) = some w'.repo :=
        git_ok hrun
      intro hnone
      rw [Git.Workspace.checkoutRemote_cloned_none hnone] at hcheckout
      cases hcheckout
    · obtain ⟨found, w', hrun, hfound⟩ := h.commit { newSha := "" }
        { session := .start sampleDb (sampleRuntime 0), repo } rfl hplain head hhead
      rw [exec_findExistingRunCommit hplain hhead, if_pos htrailer] at hrun
      obtain ⟨hsome, -⟩ := Prod.mk.inj hrun
      have hcarries := (Except.ok.inj hsome).trans hfound
      by_contra hno
      rw [if_neg hno] at hcarries
      cases hcarries
  · rintro ⟨hbranch, hcommit⟩
    have hfound : ∀ {head : Git.Commit}, head ∈ repo.clone.history.head? →
        (if hasTrailer featureRunId head then some head.sha else none) =
          if Carries featureRunId head.message then some head.sha else none := by
      intro head hhead
      by_cases htrailer : hasTrailer featureRunId head = true
      · rw [if_pos htrailer, if_pos (hcommit head hhead htrailer)]
      · rw [if_neg htrailer, if_neg fun hcarries => htrailer (hasTrailer_of_carries hcarries)]
    refine ⟨?_, ?_, ?_⟩
    · rintro runner w rfl hexit
      unfold Returns
      rw [exec_prepareBranch hexit]
      by_cases hlisted : isListed w.repo.remote (branchNameFor featureRunId) = true
      · have hhas := hbranch hlisted
        rw [if_pos hlisted]
        refine ⟨(), _, git_returns (hexit _) (Git.Workspace.checkoutRemote_cloned hhas), rfl, ?_, ?_⟩
        · exact fun _ => rfl
        · exact fun hno => absurd hhas hno
      · have hnone : ¬HasBranch w.repo.remote (branchNameFor featureRunId) :=
          fun hhas => hlisted (isListed_of_history hhas)
        have hdefault : w.repo.remote.defaultBranch ≠ branchNameFor featureRunId := by
          intro hsame
          rw [← hsame] at hlisted
          exact hlisted (isListed_defaultBranch _)
        rw [if_neg hlisted]
        refine ⟨(), _, git_returns (hexit _) (Git.Workspace.checkoutNew_cloned hdefault), rfl, ?_, ?_⟩
        · exact fun hhas => absurd hhas hnone
        · exact fun _ => rfl
    · rintro runner w rfl hexit head hhead
      exact ⟨_, _, exec_findExistingRunCommit hexit hhead, hfound hhead⟩
    · rintro runner w rfl hexit head hhead other title hother hnewline hmessage
      refine ⟨_, _, exec_findExistingRunCommit hexit hhead, ?_⟩
      rw [hfound hhead, hmessage, if_neg]
      exact fun hcarries => hother ((carries_commitMessage hnewline).mp hcarries).symm

/-- A repository in which another run, whose id begins with this run's, pushed its commit. -/
def otherRunRepo : Git.Workspace where
  remote := ⟨[("minicoder/run-10", [⟨"c1", commitMessage "run-10" "Add a page", []⟩])], "main"⟩
  clone := Git.Remote.checkedOut ⟨[], "main"⟩ "minicoder/run-1"
    [⟨"c1", commitMessage "run-10" "Add a page", []⟩]

/-- The commit of `run-10` is taken for one of `run-1`. -/
theorem not_runIdentified : ¬RunIdentified "run-1" otherRunRepo := by
  intro h
  obtain ⟨found, w', hrun, hnone⟩ := h.another { newSha := "" }
    { session := .start sampleDb (sampleRuntime 0), repo := otherRunRepo } rfl (fun _ => rfl)
    ⟨"c1", commitMessage "run-10" "Add a page", []⟩ rfl "run-10" "Add a page" (by decide)
    (by decide) rfl
  have hfound : (exec (findExistingRunCommit { newSha := "" } "run-1")
      { session := .start sampleDb (sampleRuntime 0), repo := otherRunRepo : CoderWorld }).1 =
        .ok (some "c1") := by decide +kernel
  rw [hrun, hnone] at hfound
  cases hfound

end MiniCoder
