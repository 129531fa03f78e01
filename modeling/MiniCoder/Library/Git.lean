import Mathlib.Data.List.Infix

/-!
# A model of Git

A remote repository, one clone of it, and the commands that a program runs in the clone.  A tree is
a list of files, in which the first entry of a path is its file; a history is a list of commits, the
newest first.  A command that Git refuses is `none`.

* `Tree.read_append`, `Tree.read_keep`: what a change of a tree leaves at a path.
* `Workspace.commit_some`, `Workspace.push_some`: what a commit and a push that succeeded did.
* `Workspace.read_stage`: what `git add -A` puts into the index.
-/

namespace Git

/-! ### Trees -/

/-- The files of a tree with their contents. -/
abbrev Tree := List (String × String)

namespace Tree

/-- The content of the file at a path. -/
def read (t : Tree) (path : String) : Option String := t.lookup path

/-- The paths of the files. -/
def paths (t : Tree) : List String := (t.map Prod.fst).dedup

/-- The files whose path `p` holds of. -/
def keep (p : String → Bool) (t : Tree) : Tree := t.filter fun file => p file.1

/-- Whether two trees have the same files. -/
def same (t t' : Tree) : Bool := (t ++ t').all fun file => t.read file.1 == t'.read file.1

/-- The files of `t` are in `t'`, with their contents. -/
def In (t t' : Tree) : Prop := ∀ file ∈ t, t'.read file.1 = t.read file.1

instance (t t' : Tree) : Decidable (t.In t') := inferInstanceAs (Decidable (∀ _ ∈ t, _))

@[simp] theorem read_nil (path : String) : read [] path = none := rfl

theorem read_cons (file : String × String) (t : Tree) (path : String) :
    read (file :: t) path = if path = file.1 then some file.2 else read t path := by
  unfold read
  rw [List.lookup_cons]
  by_cases h : path = file.1
  · simp [h]
  · simp [h, beq_eq_false_iff_ne.mpr h]

/-- A file that is written later hides the earlier ones of its path. -/
theorem read_append (t t' : Tree) (path : String) :
    read (t ++ t') path = (read t path).or (read t' path) := by
  induction t with
  | nil => rfl
  | cons file t ih =>
    rw [List.cons_append, read_cons, read_cons, ih]
    split <;> rfl

theorem read_keep (p : String → Bool) (t : Tree) (path : String) :
    read (keep p t) path = if p path then read t path else none := by
  induction t with
  | nil => simp [keep]
  | cons file t ih =>
    have hcons : keep p (file :: t) = if p file.1 then file :: keep p t else keep p t := by
      unfold keep
      rw [List.filter_cons]
    rw [hcons, read_cons]
    by_cases hpath : path = file.1
    · subst hpath
      by_cases hp : p file.1 = true
      · rw [if_pos hp, read_cons]
        simp [hp]
      · rw [if_neg hp, ih]
        simp [hp]
    · by_cases hp : p file.1 = true
      · rw [if_pos hp, read_cons, if_neg hpath, ih, if_neg hpath]
      · rw [if_neg hp, ih, if_neg hpath]

theorem read_isSome {t : Tree} {file : String × String} (h : file ∈ t) :
    (t.read file.1).isSome = true := by
  induction t with
  | nil => cases h
  | cons f t ih =>
    rw [read_cons]
    split
    · rfl
    · rename_i hne
      rcases List.mem_cons.mp h with rfl | h
      · exact absurd rfl hne
      · exact ih h

end Tree

/-! ### Repositories -/

structure Commit where
  sha : String
  /-- The message, without the white space around it, which `git commit` strips. -/
  message : String
  tree : Tree
  deriving DecidableEq, Repr

/-- A remote repository: its branches with their histories. -/
structure Remote where
  branches : List (String × List Commit)
  defaultBranch : String
  deriving DecidableEq, Repr

/-- A clone: the checked-out branch and its history, the index, the working tree, and the remote
as it was when it was cloned. -/
structure Clone where
  branch : String
  history : List Commit
  index : Tree
  worktree : Tree
  origin : Remote
  deriving DecidableEq, Repr

namespace Remote

/-- The history of a branch; empty when there is no such branch. -/
def history (remote : Remote) (branch : String) : List Commit :=
  (remote.branches.lookup branch).getD []

/-- The commit of a branch with a sha. -/
def find (remote : Remote) (branch sha : String) : Option Commit :=
  (remote.history branch).find? (·.sha == sha)

/-- The output of `git branch -r` in a clone of the remote. -/
def listing (remote : Remote) : String :=
  "\n".intercalate (s!"  origin/HEAD -> origin/{remote.defaultBranch}" ::
    remote.branches.map fun branch => "  origin/" ++ branch.1)

end Remote

/-- The tree of the newest commit. -/
def headTree (history : List Commit) : Tree := (history.head?.map Commit.tree).getD []

/-- The clone with a branch checked out at a history. -/
def Remote.checkedOut (origin : Remote) (branch : String) (history : List Commit) : Clone where
  branch
  history
  index := headTree history
  worktree := headTree history
  origin

/-- The remote, and the clone a program works in. -/
structure Workspace where
  remote : Remote
  clone : Clone
  deriving DecidableEq, Repr

namespace Workspace

variable (ws : Workspace)

/-- `git clone`. -/
def cloned : Workspace where
  remote := ws.remote
  clone := ws.remote.checkedOut ws.remote.defaultBranch (ws.remote.history ws.remote.defaultBranch)

/-- `git checkout -B branch origin/branch`. -/
def checkoutRemote (branch : String) : Option Workspace :=
  if ws.clone.origin.history branch = [] then none
  else some { ws with
    clone := ws.clone.origin.checkedOut branch (ws.clone.origin.history branch) }

/-- `git checkout -b branch`. -/
def checkoutNew (branch : String) : Option Workspace :=
  if ws.clone.branch = branch then none
  else some { ws with
    clone := { ws.clone with branch } }

/-- Writes a file into the working tree. -/
def write (path content : String) : Workspace :=
  { ws with
    clone := { ws.clone with worktree := (path, content) :: ws.clone.worktree } }

/-- Whether `git add -A` takes a path: it is tracked, or no ignore rule covers it. -/
def stages (ignored : Tree → String → Bool) (path : String) : Bool :=
  (ws.clone.index.read path).isSome || !ignored ws.clone.worktree path

/-- `git add -A`. -/
def stage (ignored : Tree → String → Bool) : Workspace :=
  { ws with
    clone := { ws.clone with index := ws.clone.worktree.keep (ws.stages ignored) } }

/-- `git commit`, which refuses to make an empty commit. -/
def commit (sha message : String) : Option Workspace :=
  if ws.clone.index.same (headTree ws.clone.history) then none
  else some { ws with
    clone := { ws.clone with history := ⟨sha, message, ws.clone.index⟩ :: ws.clone.history } }

/-- `git push origin HEAD:branch`, which only fast-forwards. -/
def push (branch : String) : Option Workspace :=
  if ws.remote.history branch <:+ ws.clone.history then
    some { ws with
      remote := { ws.remote with
        branches := (branch, ws.clone.history) ::
          ws.remote.branches.filter fun other => other.1 ≠ branch } }
  else none

variable {ws} {ws' : Workspace}

/-! A check-out in a new clone. -/

theorem checkoutRemote_cloned_none {branch : String} (h : ws.remote.history branch = []) :
    ws.cloned.checkoutRemote branch = none := if_pos h

theorem checkoutRemote_cloned {branch : String} (h : ws.remote.history branch ≠ []) :
    ws.cloned.checkoutRemote branch =
      some ⟨ws.remote, ws.remote.checkedOut branch (ws.remote.history branch)⟩ := if_neg h

theorem checkoutNew_cloned {branch : String} (h : ws.remote.defaultBranch ≠ branch) :
    ws.cloned.checkoutNew branch = some ⟨ws.remote, { ws.cloned.clone with branch }⟩ := if_neg h

/-- What the index holds at a path after `git add -A`. -/
theorem read_stage (ignored : Tree → String → Bool) (path : String) :
    (ws.stage ignored).clone.index.read path =
      if ws.stages ignored path then ws.clone.worktree.read path else none :=
  Tree.read_keep _ _ _

/-- **A commit puts the index on top of the history.** -/
theorem commit_some {sha message : String} (h : ws.commit sha message = some ws') :
    ws'.remote = ws.remote ∧
      ws'.clone.history = ⟨sha, message, ws.clone.index⟩ :: ws.clone.history := by
  unfold commit at h
  split at h
  · cases h
  · obtain rfl := Option.some.inj h
    exact ⟨rfl, rfl⟩

theorem commit_worktree {sha message : String} (h : ws.commit sha message = some ws') :
    ws'.clone.worktree = ws.clone.worktree := by
  unfold commit at h
  split at h
  · cases h
  · rw [← Option.some.inj h]

/-- **A push makes the history of the clone the history of the branch.** -/
theorem push_some {branch : String} (h : ws.push branch = some ws') :
    ws'.remote.history branch = ws.clone.history ∧ ws'.clone = ws.clone := by
  unfold push at h
  split at h
  · obtain rfl := Option.some.inj h
    refine ⟨?_, rfl⟩
    unfold Remote.history
    simp
  · cases h

end Workspace

end Git
