import MiniCoder.Coder.DiffGuard
import MiniCoder.Commands.Handlers.Feature
import MiniCoder.Library.Git

/-!
# The coder's workspace

What the coder adapter does in its clone of the repository: it checks out the branch of the feature
run, and commits and pushes the generated files, unless the head of the branch already carries the
trailer of the run.

* `prepareBranch_ok`: the branch is checked out where the remote has it, or at the default branch.
* `commitAndPush_ok`: a push that returned reused the head, or put one commit on top of it.
-/

open Storage Storage.Action

namespace MiniCoder

/-! ### The world of a coder task -/

/-- What a coder task throws. -/
inductive CoderFailure
  | failure (e : Failure)
  | error (message : String)
  | diffGuardViolation (message : String)
  | adapterRun (errorType message : String)
  deriving DecidableEq, Repr

/-- The database connection of a coder task, and the repository with the sandbox's clone of it. -/
structure CoderWorld where
  session : Session
  repo : Git.Workspace
  /-- How many commands were run in the sandbox. -/
  issued : ℕ := 0
  /-- History: the payload of the `RecordCodePushedCommand` the task dispatched. -/
  dispatched : Option RecordCodePushedPayload := none

/-- A computation of a coder task. -/
abbrev Coder := Action CoderFailure CoderWorld

/-- The sandbox, as its commands see it. -/
structure CommandRunner where
  /-- Whether the `n`-th command exits with an error of its own: a lost connection, a full disk. -/
  exitsNonZero : ℕ → Bool := fun _ => false
  /-- The sha of the commit made in this run. -/
  newSha : String
  /-- Whether `git add -A` passes over an untracked path of a working tree: an ignore rule. -/
  ignored : Git.Tree → String → Bool := fun _ _ => false
  diffGuard : DiffGuardOptions := {}

/-- Runs one command, which fails on its own or because of what it finds. -/
def CommandRunner.run {α : Type} (runner : CommandRunner) (command : String)
    (f : Git.Workspace → Option (α × Git.Workspace)) : Coder α := statement fun w =>
  if runner.exitsNonZero w.issued then .error (.error s!"{command} failed")
  else match f w.repo with
    | none => .error (.error s!"{command} failed")
    | some (a, repo) => .ok (a, { w with repo, issued := w.issued + 1 })

/-- Runs a command that returns nothing. -/
def CommandRunner.git (runner : CommandRunner) (command : String)
    (f : Git.Workspace → Option Git.Workspace) : Coder Unit :=
  runner.run command fun repo => (f repo).map ((), ·)

/-- `String.prototype.includes`. -/
def includes (pattern text : String) : Bool := decide (pattern.toList <:+: text.toList)

/-! ### The branch -/

def branchNameFor (featureRunId : String) : String := s!"minicoder/{featureRunId}"

/-- Whether `git branch -r` names the branch, for all that `prepareBranch` asks of its output. -/
def isListed (remote : Git.Remote) (branch : String) : Bool :=
  includes s!"origin/{branch}" remote.listing

/-- `prepareBranch`: clones, and checks out the feature's branch, or creates it. -/
def prepareBranch (runner : CommandRunner) (featureRunId : String) : Coder Unit := do
  let branch := branchNameFor featureRunId
  runner.git "git clone" fun repo => some repo.cloned
  runner.git "git config user.name" some
  runner.git "git config user.email" some
  let listed ← runner.run "git branch -r" fun repo => some (isListed repo.clone.origin branch, repo)
  if listed then runner.git "git checkout -B" (·.checkoutRemote branch)
  else runner.git "git checkout -b" (·.checkoutNew branch)

/-- `listRepoFiles`. -/
def listRepoFiles (runner : CommandRunner) (maxFiles : ℕ := 200) : Coder (List String) :=
  runner.run "git ls-files" fun repo => some (repo.clone.index.paths.take maxFiles, repo)

/-! ### The commit -/

/-- The trailer that marks the commits of a feature run. -/
def featureRunTrailer (featureRunId : String) : String := s!"MiniCoder-Feature-Run: {featureRunId}"

/-- Whether a commit carries the trailer of a feature run. -/
def hasTrailer (featureRunId : String) (commit : Git.Commit) : Bool :=
  includes (featureRunTrailer featureRunId) commit.message

/-- `findExistingRunCommit`: the head, when it carries the trailer; no log without a commit. -/
def findExistingRunCommit (runner : CommandRunner) (featureRunId : String) :
    Coder (Option String) :=
  runner.run "git log -1" fun repo => repo.clone.history.head?.map fun head =>
    (if hasTrailer featureRunId head then some head.sha else none, repo)

/-- The loop of `commitAndPush` over the files: each path is validated before it is written. -/
def writeFiles (runner : CommandRunner) : List GeneratedFile → Coder (List ChangedFile)
  | [] => pure []
  | file :: files => do
    match validateRelativePath file.path runner.diffGuard.disallowedPathPatterns with
    | none =>
      throw (.diffGuardViolation s!"diff touches a disallowed or unsafe path: {file.path}")
    | some safePath => do
      runner.git "writing" fun repo => some (repo.write safePath file.content)
      let changed ← writeFiles runner files
      pure (⟨safePath, file.content.utf8ByteSize⟩ :: changed)

/-- The check of the bounds, after the writes. -/
def checkBounds (runner : CommandRunner) (changedFiles : List ChangedFile) : Coder Unit :=
  match assertDiffWithinBounds changedFiles runner.diffGuard with
  | .ok () => pure ()
  | .error message => throw (.diffGuardViolation message)

/-- `PushResult`. -/
structure PushResult where
  commitSha : String
  branchName : String
  filesChanged : ℕ
  reusedExistingCommit : Bool
  deriving DecidableEq, Repr

/-- The message of a run's commit. -/
def commitMessage (featureRunId featureTitle : String) : String :=
  s!"{featureRunId}: {featureTitle}\n\n{featureRunTrailer featureRunId}"

/-- What `commitAndPush` does when no commit is reused. -/
def pushNewCommit (runner : CommandRunner) (featureRunId featureTitle : String)
    (files : List GeneratedFile) : Coder PushResult := do
  let branch := branchNameFor featureRunId
  let changedFiles ← writeFiles runner files
  checkBounds runner changedFiles
  runner.git "git add -A" fun repo => some (repo.stage runner.ignored)
  runner.git "git commit" (·.commit runner.newSha (commitMessage featureRunId featureTitle))
  let commitSha ← runner.run "git rev-parse HEAD" fun repo =>
    repo.clone.history.head?.map fun head => (head.sha, repo)
  runner.git "git push" (·.push branch)
  pure {
    commitSha
    branchName := branch
    filesChanged := changedFiles.length
    reusedExistingCommit := false }

/-- `commitAndPush`. -/
def commitAndPush (runner : CommandRunner) (featureRunId featureTitle : String)
    (files : List GeneratedFile) : Coder PushResult := do
  let existing ← findExistingRunCommit runner featureRunId
  match existing with
  | some commitSha => pure {
      commitSha
      branchName := branchNameFor featureRunId
      filesChanged := files.length
      reusedExistingCommit := true }
  | none => pushNewCommit runner featureRunId featureTitle files

/-! ### What the commands did -/

variable {α : Type} {runner : CommandRunner} {featureRunId featureTitle : String} {w w' : CoderWorld}

/-- What no command in the sandbox touches. -/
def taskView (w : CoderWorld) : Session × Option RecordCodePushedPayload := (w.session, w.dispatched)

namespace CommandRunner

theorem run_ok {command : String} {f : Git.Workspace → Option (α × Git.Workspace)} {a : α}
    (h : exec (runner.run command f) w = (.ok a, w')) : f w.repo = some (a, w'.repo) := by
  unfold CommandRunner.run at h
  rw [exec_statement] at h
  by_cases hexit : runner.exitsNonZero w.issued = true
  · simp [hexit] at h
  · rcases hf : f w.repo with _ | ⟨b, repo⟩
    · simp [hexit, hf] at h
    · simp only [hexit, hf] at h
      obtain ⟨hb, rfl⟩ := Prod.mk.inj h
      obtain rfl := Except.ok.inj hb
      rfl

theorem git_ok {command : String} {f : Git.Workspace → Option Git.Workspace} {u : Unit}
    (h : exec (runner.git command f) w = (.ok u, w')) : f w.repo = some w'.repo := by
  obtain ⟨repo, hrepo, hpair⟩ := Option.map_eq_some_iff.mp (run_ok h)
  rw [hrepo, (Prod.mk.inj hpair).2]

/-- A command that cannot be refused. -/
theorem git_some {command : String} {f : Git.Workspace → Git.Workspace} {u : Unit}
    (h : exec (runner.git command fun repo => some (f repo)) w = (.ok u, w')) :
    w'.repo = f w.repo := by
  have hrepo := git_ok h
  exact (Option.some.inj hrepo).symm

theorem frame_run (command : String) (f : Git.Workspace → Option (α × Git.Workspace)) :
    Frame taskView (runner.run command f) := by
  refine frame_statement fun w a w' h => ?_
  by_cases hexit : runner.exitsNonZero w.issued = true
  · simp [hexit] at h
  · rcases hf : f w.repo with _ | ⟨b, repo⟩
    · simp [hexit, hf] at h
    · simp only [hexit, hf] at h
      obtain ⟨-, rfl⟩ := Prod.mk.inj (Except.ok.inj h)
      rfl

theorem frame_git (command : String) (f : Git.Workspace → Option Git.Workspace) :
    Frame taskView (runner.git command f) := frame_run command _

end CommandRunner

open CommandRunner

/-- The history that `prepareBranch` checks out. -/
def checkoutHistory (remote : Git.Remote) (branch : String) : List Git.Commit :=
  if isListed remote branch then remote.history branch else remote.history remote.defaultBranch

/-- **A prepared branch** is checked out where the remote has it, or else at the default branch. -/
theorem prepareBranch_ok (h : exec (prepareBranch runner featureRunId) w = (.ok (), w')) :
    w'.repo.remote = w.repo.remote ∧
      w'.repo.clone.history = checkoutHistory w.repo.remote (branchNameFor featureRunId) ∧
      w'.repo.clone.index = Git.headTree w'.repo.clone.history ∧
      w'.repo.clone.worktree = Git.headTree w'.repo.clone.history := by
  obtain ⟨_, w₁, hclone, h₁⟩ := exec_bind_ok.mp h
  obtain ⟨_, w₂, hname, h₂⟩ := exec_bind_ok.mp h₁
  obtain ⟨_, w₃, hemail, h₃⟩ := exec_bind_ok.mp h₂
  obtain ⟨listed, w₄, hbranches, hcheckout⟩ := exec_bind_ok.mp h₃
  have hrepo₁ := git_some hclone
  have hrepo₂ : w₂.repo = w₁.repo := git_some hname
  have hrepo₃ : w₃.repo = w₂.repo := git_some hemail
  obtain ⟨rfl, hrepo₄⟩ := Prod.mk.inj (Option.some.inj (run_ok hbranches))
  rw [hrepo₃, hrepo₂, hrepo₁] at hrepo₄
  -- `git branch -r` read the branches of the remote as it was cloned
  have hlisted : isListed w₃.repo.clone.origin (branchNameFor featureRunId) =
      isListed w.repo.remote (branchNameFor featureRunId) := by
    rw [hrepo₃, hrepo₂, hrepo₁]
    rfl
  rw [hlisted] at hcheckout
  unfold checkoutHistory
  by_cases hl : isListed w.repo.remote (branchNameFor featureRunId) = true
  · rw [if_pos hl] at hcheckout ⊢
    have hremote := git_ok hcheckout
    rw [← hrepo₄, Git.Workspace.checkoutRemote] at hremote
    split at hremote
    · cases hremote
    · rw [← Option.some.inj hremote]
      exact ⟨rfl, rfl, rfl, rfl⟩
  · rw [if_neg hl] at hcheckout ⊢
    have hnew := git_ok hcheckout
    rw [← hrepo₄, Git.Workspace.checkoutNew] at hnew
    split at hnew
    · cases hnew
    · rw [← Option.some.inj hnew]
      exact ⟨rfl, rfl, rfl, rfl⟩

theorem frame_prepareBranch : Frame taskView (prepareBranch runner featureRunId) :=
  frame_bind (frame_git _ _) fun _ => frame_bind (frame_git _ _) fun _ =>
    frame_bind (frame_git _ _) fun _ => frame_bind (frame_run _ _) fun _ =>
    frame_ite (frame_git _ _) (frame_git _ _)

theorem isInfix_intercalate {line separator : String} {lines : List String} (h : line ∈ lines) :
    line.toList <:+: (separator.intercalate lines).toList := by
  induction lines with
  | nil => cases h
  | cons first lines ih =>
    rcases lines with _ | ⟨second, rest⟩
    · obtain rfl := List.mem_singleton.mp h
      simp
    · rw [String.intercalate_cons_of_ne_nil (List.cons_ne_nil _ _), String.toList_append]
      rcases List.mem_cons.mp h with rfl | h
      · rw [String.toList_append, List.append_assoc]
        exact (List.prefix_append _ _).isInfix
      · exact (ih h).trans (List.suffix_append _ _).isInfix

/-- A branch that the remote has is named by `git branch -r`. -/
theorem isListed_of_history {remote : Git.Remote} {branch : String}
    (h : remote.history branch ≠ []) : isListed remote branch = true := by
  have hmem : ∃ history, (branch, history) ∈ remote.branches := by
    unfold Git.Remote.history at h
    rcases hlookup : remote.branches.lookup branch with _ | history
    · simp [hlookup] at h
    · obtain ⟨before, rest, hbranches, -⟩ := List.lookup_eq_some_iff.mp hlookup
      rw [hbranches]
      exact ⟨history, List.mem_append_right _ List.mem_cons_self⟩
  obtain ⟨history, hmem⟩ := hmem
  refine decide_eq_true (List.IsInfix.trans ?_ (isInfix_intercalate
    (List.mem_cons_of_mem _ (List.mem_map.mpr ⟨_, hmem, rfl⟩))))
  refine List.IsSuffix.isInfix ⟨"  ".toList, ?_⟩
  simp [toString]

/-! ### The files -/

/-- The files that `commitAndPush` writes, the last one first. -/
def generatedTree (runner : CommandRunner) (files : List GeneratedFile) : Git.Tree :=
  (files.filterMap fun file =>
    (validateRelativePath file.path runner.diffGuard.disallowedPathPatterns).map
      (·, file.content)).reverse

theorem writeFiles_ok {files : List GeneratedFile} {changed : List ChangedFile}
    (h : exec (writeFiles runner files) w = (.ok changed, w')) :
    w'.repo = { w.repo with
      clone := { w.repo.clone with
        worktree := generatedTree runner files ++ w.repo.clone.worktree } } := by
  induction files generalizing w changed with
  | nil =>
    obtain ⟨-, rfl⟩ := Prod.mk.inj h
    rfl
  | cons file files ih =>
    unfold writeFiles at h
    split at h
    · simp at h
    · rename_i safePath hsafe
      obtain ⟨_, w₁, hwrite, h₁⟩ := exec_bind_ok.mp h
      obtain ⟨changed', w₂, hrest, hpure⟩ := exec_bind_ok.mp h₁
      obtain ⟨-, rfl⟩ := Prod.mk.inj hpure
      have hcons : generatedTree runner (file :: files) =
          generatedTree runner files ++ [(safePath, file.content)] := by
        unfold generatedTree
        rw [List.filterMap_cons_some (by rw [hsafe]; rfl), List.reverse_cons]
      rw [ih hrest, git_some hwrite, hcons, List.append_assoc]
      rfl

theorem frame_writeFiles (files : List GeneratedFile) : Frame taskView (writeFiles runner files) := by
  induction files with
  | nil => exact frame_pure _
  | cons file files ih =>
    unfold writeFiles
    split
    · exact frame_throw _
    · exact frame_bind (frame_git _ _) fun _ => frame_bind ih fun _ => frame_pure _

/-! ### The push -/

/-- A run's own commit carries its trailer. -/
theorem hasTrailer_commitMessage (sha : String) (tree : Git.Tree) :
    hasTrailer featureRunId ⟨sha, commitMessage featureRunId featureTitle, tree⟩ = true := by
  refine decide_eq_true (List.IsSuffix.isInfix ?_)
  show (featureRunTrailer featureRunId).toList <:+ (commitMessage featureRunId featureTitle).toList
  simp only [commitMessage, toString, String.toList_append]
  exact List.suffix_append _ _

/-- Whether `git add -A` takes a path, once the generated files lie over a tree. -/
def takesPath (runner : CommandRunner) (base : Git.Tree) (files : List GeneratedFile)
    (path : String) : Bool :=
  (base.read path).isSome || !runner.ignored (generatedTree runner files ++ base) path

/-- A new commit of a run, of the generated files over a tree. -/
structure IsCommitOf (runner : CommandRunner) (featureRunId : String) (base : Git.Tree)
    (files : List GeneratedFile) (commit : Git.Commit) : Prop where
  sha : commit.sha = runner.newSha
  trailer : hasTrailer featureRunId commit = true
  read : ∀ path, commit.tree.read path =
    if takesPath runner base files path then (generatedTree runner files ++ base).read path
    else none

/-- **A new commit** holds what `git add -A` took of the files, and is on top of the branch. -/
theorem pushNewCommit_ok {files : List GeneratedFile} {result : PushResult} {base : Git.Tree}
    (hindex : w.repo.clone.index = base) (hworktree : w.repo.clone.worktree = base)
    (h : exec (pushNewCommit runner featureRunId featureTitle files) w = (.ok result, w')) :
    ∃ commit, IsCommitOf runner featureRunId base files commit ∧
      result.commitSha = runner.newSha ∧
      w'.repo.remote.history (branchNameFor featureRunId) = commit :: w.repo.clone.history := by
  obtain ⟨changed, w₁, hwrite, h₁⟩ := exec_bind_ok.mp h
  obtain ⟨_, w₂, hbounds, h₂⟩ := exec_bind_ok.mp h₁
  obtain ⟨_, w₃, hadd, h₃⟩ := exec_bind_ok.mp h₂
  obtain ⟨_, w₄, hcommit, h₄⟩ := exec_bind_ok.mp h₃
  obtain ⟨sha, w₅, hrev, h₅⟩ := exec_bind_ok.mp h₄
  obtain ⟨_, w₆, hpush, hpure⟩ := exec_bind_ok.mp h₅
  obtain ⟨hresult, rfl⟩ := Prod.mk.inj hpure
  have hsame : w₂ = w₁ := by
    unfold checkBounds at hbounds
    split at hbounds
    · exact ((Prod.mk.inj hbounds).2).symm
    · simp at hbounds
  have hrepo₁ := writeFiles_ok hwrite
  have hrepo₃ := git_some hadd
  obtain ⟨-, hhistory₄⟩ := Git.Workspace.commit_some (git_ok hcommit)
  have hlog := run_ok hrev
  rw [hhistory₄] at hlog
  obtain ⟨hsha, hrepo₅⟩ := Prod.mk.inj (Option.some.inj hlog)
  obtain ⟨hhistory₆, -⟩ := Git.Workspace.push_some (git_ok hpush)
  refine ⟨⟨runner.newSha, commitMessage featureRunId featureTitle, w₃.repo.clone.index⟩, {
    sha := rfl
    trailer := hasTrailer_commitMessage _ _
    read := fun path => ?_ }, ?_, ?_⟩
  · show w₃.repo.clone.index.read path = _
    rw [hrepo₃, hsame, Git.Workspace.read_stage, hrepo₁, ← hworktree]
    unfold takesPath Git.Workspace.stages
    rw [hworktree, ← hindex]
  · rw [← Except.ok.inj hresult, ← hsha]
  · rw [hhistory₆, ← hrepo₅, hhistory₄, hrepo₃, hsame, hrepo₁]
    rfl

/-- **A push that returned** reused the head of the branch, which carries the trailer of the run, or
put a new commit on top of it. -/
theorem commitAndPush_ok {files : List GeneratedFile} {result : PushResult} {base : Git.Tree}
    (hindex : w.repo.clone.index = base) (hworktree : w.repo.clone.worktree = base)
    (h : exec (commitAndPush runner featureRunId featureTitle files) w = (.ok result, w')) :
    ∃ head rest, w.repo.clone.history = head :: rest ∧
      ((hasTrailer featureRunId head = true ∧ result.commitSha = head.sha ∧
          w'.repo.remote = w.repo.remote) ∨
        (hasTrailer featureRunId head = false ∧
          ∃ commit, IsCommitOf runner featureRunId base files commit ∧
            result.commitSha = runner.newSha ∧
            w'.repo.remote.history (branchNameFor featureRunId) = commit :: head :: rest)) := by
  obtain ⟨existing, w₁, hfind, hrest⟩ := exec_bind_ok.mp h
  have hlog := run_ok hfind
  rcases hhistory : w.repo.clone.history with _ | ⟨head, rest⟩
  · rw [hhistory] at hlog
    cases hlog
  · rw [hhistory] at hlog
    obtain ⟨hexisting, hrepo⟩ := Prod.mk.inj (Option.some.inj hlog)
    refine ⟨head, rest, rfl, ?_⟩
    by_cases htrailer : hasTrailer featureRunId head = true
    · rw [if_pos htrailer] at hexisting
      subst hexisting
      obtain ⟨hresult, rfl⟩ := Prod.mk.inj hrest
      rw [← Except.ok.inj hresult, ← hrepo]
      exact Or.inl ⟨htrailer, rfl, rfl⟩
    · rw [if_neg htrailer] at hexisting
      subst hexisting
      rw [hrepo] at hindex hworktree
      obtain ⟨commit, hcommit, hsha, hpushed⟩ := pushNewCommit_ok hindex hworktree hrest
      rw [← hrepo, hhistory] at hpushed
      exact Or.inr ⟨Bool.eq_false_iff.mpr htrailer, commit, hcommit, hsha, hpushed⟩

theorem frame_commitAndPush (files : List GeneratedFile) :
    Frame taskView (commitAndPush runner featureRunId featureTitle files) := by
  refine frame_bind (frame_run _ _) fun existing => ?_
  rcases existing with _ | commitSha
  · refine frame_bind (frame_writeFiles _) fun changed => frame_bind ?_ fun _ =>
      frame_bind (frame_git _ _) fun _ => frame_bind (frame_git _ _) fun _ =>
      frame_bind (frame_run _ _) fun _ => frame_bind (frame_git _ _) fun _ => frame_pure _
    unfold checkBounds
    split
    · exact frame_pure _
    · exact frame_throw _
  · exact frame_pure _

end MiniCoder
