import MiniCoder.Coder.Workspace
import MiniCoder.System

/-!
# The guard before the writes

`commitAndPush` refuses a list of generated files with a path that is not validated, or out of its
bounds.  It validates and writes in one loop, file by file, and checks the bounds after the loop, so
a refused list can be in the working tree when the refusal comes.

* `exec_writeFiles`: what the loop does, in every outcome.
* `guardsWrites_iff`: a refused list leaves the clone alone exactly when its first file was not
  written; any other list leaves each of its paths with its last content.
-/

open Storage Storage.Action Paths

namespace MiniCoder

variable {α : Type} {runner : CommandRunner} {featureRunId featureTitle : String}
  {files : List GeneratedFile} {w w' : CoderWorld}

/-- The path a generated file is written to. -/
def CommandRunner.safePath? (runner : CommandRunner) (file : GeneratedFile) : Option String :=
  validateRelativePath file.path runner.diffGuard.disallowedPathPatterns

/-- The lists that the diff guard is there to refuse. -/
def Rejected (runner : CommandRunner) (files : List GeneratedFile) : Prop :=
  files = [] ∨ runner.diffGuard.maxFiles < files.length ∨
    runner.diffGuard.maxBytes < (files.map (·.content.utf8ByteSize)).sum ∨
      ∃ file ∈ files, runner.safePath? file = none

/-- Each path of the list has the content of its last entry. -/
def HoldsLast (files : List GeneratedFile) (worktree : Git.Tree) : Prop :=
  ∀ before file after, files = before ++ file :: after →
    (∀ later ∈ after, location later.path ≠ location file.path) →
      worktree.read (render (location file.path)) = some file.content

/-- The commands up to the first write exit with 0, and there is a first write. -/
def StartsWriting (runner : CommandRunner) (files : List GeneratedFile) (w : CoderWorld) : Prop :=
  w.repo.clone.history ≠ [] ∧ runner.exitsNonZero w.issued = false ∧
    runner.exitsNonZero (w.issued + 1) = false ∧
      ∃ file ∈ files.head?, (runner.safePath? file).isSome = true

/-- The commands up to the last write exit with 0. -/
def WritesExit (runner : CommandRunner) (files : List GeneratedFile) (w : CoderWorld) : Prop :=
  w.repo.clone.history ≠ [] ∧ ∀ i ≤ files.length, runner.exitsNonZero (w.issued + i) = false

/-- What the guard of `commitAndPush` owes to the clone and to the remote. -/
structure GuardsWrites (runner : CommandRunner) (featureRunId featureTitle : String)
    (files : List GeneratedFile) (w : CoderWorld) : Prop where
  /-- A refused list throws, with nothing written, committed or pushed. -/
  refused : Rejected runner files →
    Throws (commitAndPush runner featureRunId featureTitle files) w fun _ w' => w'.repo = w.repo
  /-- Any other list is written, in every outcome of the commands after the writes. -/
  written : ¬Rejected runner files → WritesExit runner files w →
    HoldsLast files
      (exec (commitAndPush runner featureRunId featureTitle files) w).2.repo.clone.worktree

/-! ### Commands -/

namespace CommandRunner

variable {command : String} {f : Git.Workspace → Option (α × Git.Workspace)}

theorem run_exits (h : runner.exitsNonZero w.issued = true) :
    Throws (runner.run command f) w fun _ w' => w' = w := by
  refine ⟨.error s!"{command} failed", w, ?_, rfl⟩
  unfold CommandRunner.run
  rw [exec_statement, if_pos h]

theorem run_refused (h : f w.repo = none) :
    Throws (runner.run command f) w fun _ w' => w' = w := by
  refine ⟨.error s!"{command} failed", w, ?_, rfl⟩
  unfold CommandRunner.run
  rw [exec_statement]
  by_cases hexit : runner.exitsNonZero w.issued = true
  · rw [if_pos hexit]
  · rw [if_neg hexit, h]

theorem run_returns {a : α} {repo : Git.Workspace} (hexit : runner.exitsNonZero w.issued = false)
    (h : f w.repo = some (a, repo)) :
    exec (runner.run command f) w = (.ok a, { w with repo, issued := w.issued + 1 }) := by
  unfold CommandRunner.run
  rw [exec_statement, if_neg (Bool.eq_false_iff.mp hexit), h]

theorem git_returns {f : Git.Workspace → Option Git.Workspace} {repo : Git.Workspace}
    (hexit : runner.exitsNonZero w.issued = false) (h : f w.repo = some repo) :
    exec (runner.git command f) w = (.ok (), { w with repo, issued := w.issued + 1 }) :=
  run_returns hexit (by rw [h]; rfl)

/-- A command keeps what its effect on the clone keeps. -/
theorem frame_run_repo {τ : Type} {π : Git.Workspace → τ}
    (h : ∀ repo a repo', f repo = some (a, repo') → π repo' = π repo) :
    Frame (fun w : CoderWorld => π w.repo) (runner.run command f) := by
  refine frame_statement fun w a w' hrun => ?_
  by_cases hexit : runner.exitsNonZero w.issued = true
  · simp [hexit] at hrun
  · rcases hf : f w.repo with _ | ⟨b, repo⟩
    · simp [hexit, hf] at hrun
    · simp only [hexit, hf] at hrun
      obtain ⟨-, rfl⟩ := Prod.mk.inj (Except.ok.inj hrun)
      exact h _ _ _ hf

end CommandRunner

open CommandRunner

/-! ### The loop -/

/-- The repository with files written over its working tree. -/
def overlaid (written : Git.Tree) (repo : Git.Workspace) : Git.Workspace :=
  { repo with
    clone := { repo.clone with worktree := written ++ repo.clone.worktree } }

theorem overlaid_overlaid (written more : Git.Tree) (repo : Git.Workspace) :
    overlaid more (overlaid written repo) = overlaid (more ++ written) repo := by
  unfold overlaid
  rw [List.append_assoc]

/-- The loop wrote nothing when it did not get to its first write. -/
def WritesNone (runner : CommandRunner) (files : List GeneratedFile) (w : CoderWorld) : Prop :=
  (∀ file ∈ files.head?, runner.safePath? file = none) ∨ runner.exitsNonZero w.issued = true

/-- What the loop records of a list whose paths are all validated. -/
def changedFiles (runner : CommandRunner) (files : List GeneratedFile) : List ChangedFile :=
  files.filterMap fun file =>
    (runner.safePath? file).map (⟨·, file.content.utf8ByteSize⟩)

/-- **The loop**, in every outcome: it writes over the working tree, and nothing exactly when it did
not get to its first write; it returns only for validated paths. -/
theorem exec_writeFiles {r : Except CoderFailure (List ChangedFile)}
    (h : exec (writeFiles runner files) w = (r, w')) :
    ∃ written, w'.repo = overlaid written w.repo ∧ (written = [] ↔ WritesNone runner files w) ∧
      ∀ changed, r = .ok changed →
        (∀ file ∈ files, (runner.safePath? file).isSome = true) ∧
          changed = changedFiles runner files := by
  induction files generalizing w w' r with
  | nil =>
    obtain ⟨rfl, rfl⟩ := Prod.mk.inj h
    refine ⟨[], rfl, by simp [WritesNone], fun changed hchanged => ⟨by simp, ?_⟩⟩
    exact (Except.ok.inj hchanged).symm
  | cons file files ih =>
    unfold writeFiles at h
    split at h
    · rename_i hinvalid
      obtain ⟨rfl, rfl⟩ := Prod.mk.inj h
      refine ⟨[], rfl, ?_, fun changed hchanged => by cases hchanged⟩
      have hnone : WritesNone runner (file :: files) w := by
        refine Or.inl fun first hfirst => ?_
        obtain rfl := Option.some.inj hfirst
        exact hinvalid
      simp [hnone]
    · rename_i safePath hsafe
      have hsafe' : runner.safePath? file = some safePath := hsafe
      by_cases hexit : runner.exitsNonZero w.issued = true
      · have hfailed : Throws (runner.git "writing" fun repo =>
            some (repo.write safePath file.content)) w fun _ w' => w' = w := run_exits hexit
        obtain ⟨e, w₁, hthrow, rfl⟩ := hfailed.bind
        rw [hthrow] at h
        obtain ⟨rfl, rfl⟩ := Prod.mk.inj h
        have hnone : WritesNone runner (file :: files) w₁ := Or.inr hexit
        exact ⟨[], rfl, by simp [hnone], fun changed hchanged => by cases hchanged⟩
      · have hsome : ¬WritesNone runner (file :: files) w := by
          rintro (hnone | hnone)
          · rw [hnone file rfl] at hsafe'
            cases hsafe'
          · exact hexit hnone
        have hwrite : exec (runner.git "writing" fun repo =>
            some (repo.write safePath file.content)) w = _ :=
          git_returns (Bool.eq_false_iff.mpr hexit) rfl
        rw [exec_bind, hwrite] at h
        dsimp only at h
        -- the rest of the loop writes over the file
        have hwritten : ∀ written, written ++ [(safePath, file.content)] = [] ↔
            WritesNone runner (file :: files) w := by simp [hsome]
        rcases hrest : exec (writeFiles runner files)
            { w with repo := w.repo.write safePath file.content, issued := w.issued + 1 }
          with ⟨e | changed, w₂⟩
        · obtain ⟨written, hrepo, -, -⟩ := ih hrest
          rw [exec_bind, hrest] at h
          obtain ⟨rfl, rfl⟩ := Prod.mk.inj h
          refine ⟨written ++ [(safePath, file.content)], ?_, hwritten _, fun _ hchanged => ?_⟩
          · rw [hrepo, ← overlaid_overlaid]
            rfl
          · cases hchanged
        · obtain ⟨written, hrepo, -, hok⟩ := ih hrest
          rw [exec_bind, hrest] at h
          obtain ⟨rfl, rfl⟩ := Prod.mk.inj h
          refine ⟨written ++ [(safePath, file.content)], ?_, hwritten _, fun _ hchanged => ?_⟩
          · rw [hrepo, ← overlaid_overlaid]
            rfl
          · obtain ⟨hvalid, rfl⟩ := hok _ rfl
            obtain rfl := Except.ok.inj hchanged
            refine ⟨List.forall_mem_cons.mpr ⟨by rw [hsafe']; rfl, hvalid⟩, ?_⟩
            unfold changedFiles
            rw [List.filterMap_cons_some (by rw [hsafe']; rfl)]

/-- The loop returns when every path is validated and every write exits with 0. -/
theorem returns_writeFiles (hvalid : ∀ file ∈ files, (runner.safePath? file).isSome = true)
    (hexit : ∀ i < files.length, runner.exitsNonZero (w.issued + i) = false) :
    ∃ changed w', exec (writeFiles runner files) w = (.ok changed, w') := by
  induction files generalizing w with
  | nil => exact ⟨[], w, rfl⟩
  | cons file files ih =>
    obtain ⟨safePath, hsafe⟩ := Option.isSome_iff_exists.mp (hvalid file List.mem_cons_self)
    have hwrite : exec (runner.git "writing" fun repo =>
        some (repo.write safePath file.content)) w = _ :=
      git_returns (hexit 0 (by simp)) rfl
    obtain ⟨changed, w', hrest⟩ :
        ∃ changed w', exec (writeFiles runner files)
          { w with repo := w.repo.write safePath file.content, issued := w.issued + 1 } =
            (.ok changed, w') := by
      refine ih (fun other hother => hvalid other (List.mem_cons_of_mem _ hother)) fun i hi => ?_
      have hnext := hexit (i + 1) (by simpa using hi)
      rwa [← Nat.add_assoc, Nat.add_right_comm] at hnext
    refine ⟨⟨safePath, file.content.utf8ByteSize⟩ :: changed, w', ?_⟩
    unfold writeFiles
    have hsafe' : validateRelativePath file.path runner.diffGuard.disallowedPathPatterns =
        some safePath := hsafe
    rw [hsafe']
    dsimp only
    rw [exec_bind, hwrite]
    dsimp only
    rw [exec_bind, hrest]
    rfl

/-! ### The bounds -/

/-- The bounds are about the files of the list, one by one. -/
theorem assertDiffWithinBounds_ok
    (hvalid : ∀ file ∈ files, (runner.safePath? file).isSome = true) :
    assertDiffWithinBounds (changedFiles runner files) runner.diffGuard = .ok () ↔
      ¬Rejected runner files := by
  have hmap : changedFiles runner files = files.map fun file =>
      ⟨(runner.safePath? file).getD "", file.content.utf8ByteSize⟩ := by
    unfold changedFiles
    rw [← List.filterMap_eq_map]
    refine List.filterMap_congr fun file hfile => ?_
    obtain ⟨safePath, hsafe⟩ := Option.isSome_iff_exists.mp (hvalid file hfile)
    simp [hsafe]
  have hlength : (changedFiles runner files).length = files.length := by
    rw [hmap, List.length_map]
  have hbytes : (changedFiles runner files).map (·.bytesChanged) =
      files.map (·.content.utf8ByteSize) := by
    rw [hmap, List.map_map]
    rfl
  have hallowed : (changedFiles runner files).find? (fun file =>
      runner.diffGuard.disallowedPathPatterns.any (· file.path)) = none := by
    refine List.find?_eq_none.mpr fun changed hchanged => ?_
    obtain ⟨file, -, hfile⟩ := List.mem_filterMap.mp hchanged
    obtain ⟨safePath, hsafe, rfl⟩ := Option.map_eq_some_iff.mp hfile
    exact Bool.eq_false_iff.mp (validateRelativePath_allowed hsafe)
  have hinvalid : ¬∃ file ∈ files, runner.safePath? file = none := by
    rintro ⟨file, hfile, hnone⟩
    have hsome := hvalid file hfile
    rw [hnone] at hsome
    cases hsome
  have hempty : changedFiles runner files = [] ↔ files = [] := by
    rw [← List.length_eq_zero_iff, hlength, List.length_eq_zero_iff]
  unfold assertDiffWithinBounds Rejected
  dsimp only
  rw [hbytes, hlength, hallowed]
  by_cases hfiles : files = []
  · simp [hfiles, changedFiles]
  · by_cases hcount : runner.diffGuard.maxFiles < files.length
    · simp [hempty, hfiles, hcount]
    · by_cases hsize : runner.diffGuard.maxBytes < (files.map (·.content.utf8ByteSize)).sum
      · simp [hempty, hfiles, hcount, hsize]
      · simp [hempty, hfiles, hcount, hsize, hinvalid]

/-- The last content of each path, once the loop has returned. -/
theorem holdsLast_generatedTree (base : Git.Tree)
    (hvalid : ∀ file ∈ files, (runner.safePath? file).isSome = true) :
    HoldsLast files (generatedTree runner files ++ base) := by
  intro before file after hfiles hlast
  have hpath : ∀ {other : GeneratedFile} {safePath : String},
      runner.safePath? other = some safePath → safePath = render (location other.path) :=
    fun h => (validateRelativePath_eq_some.mp h).2
  obtain ⟨safePath, hsafe⟩ := Option.isSome_iff_exists.mp (hvalid file (by simp [hfiles]))
  have hsplit : generatedTree runner files = generatedTree runner after ++
      ((safePath, file.content) :: generatedTree runner before) := by
    have hvalidated : validateRelativePath file.path runner.diffGuard.disallowedPathPatterns =
        some safePath := hsafe
    unfold generatedTree
    rw [hfiles, List.filterMap_append, List.filterMap_cons_some (by rw [hvalidated]; rfl)]
    simp
  -- no later entry is of the same location, so none hides this one
  have hafter : (generatedTree runner after).read safePath = none := by
    refine List.lookup_eq_none_iff.mpr fun entry hentry => ?_
    obtain ⟨later, hlater, hmap⟩ := List.mem_filterMap.mp (List.mem_reverse.mp hentry)
    obtain ⟨laterPath, hlaterPath, rfl⟩ := Option.map_eq_some_iff.mp hmap
    refine bne_iff_ne.mpr fun hsame => hlast later hlater ?_
    have hsame' : safePath = laterPath := hsame
    rw [← location_validated hlaterPath, ← hsame', location_validated hsafe]
  rw [← hpath hsafe, Git.Tree.read_append, hsplit, Git.Tree.read_append, hafter,
    Git.Tree.read_cons, if_pos rfl]
  rfl

/-! ### The guard -/

/-- No commit of the run is found at the head of the clone. -/
def NotReused (featureRunId : String) (w : CoderWorld) : Prop :=
  ∀ head ∈ w.repo.clone.history.head?, hasTrailer featureRunId head = false

/-- `commitAndPush` begins with the log, and goes on to the files unless the log fails. -/
theorem exec_commitAndPush (hnew : NotReused featureRunId w) :
    (w.repo.clone.history ≠ [] ∧ runner.exitsNonZero w.issued = false ∧
      exec (commitAndPush runner featureRunId featureTitle files) w =
        exec (pushNewCommit runner featureRunId featureTitle files)
          { w with issued := w.issued + 1 }) ∨
    ((w.repo.clone.history = [] ∨ runner.exitsNonZero w.issued = true) ∧
      Throws (commitAndPush runner featureRunId featureTitle files) w fun _ w' => w' = w) := by
  by_cases hexit : runner.exitsNonZero w.issued = true
  · have hlog : Throws (findExistingRunCommit runner featureRunId) w fun _ w' => w' = w :=
      run_exits hexit
    exact Or.inr ⟨Or.inr hexit, hlog.bind⟩
  · rcases hhistory : w.repo.clone.history with _ | ⟨head, rest⟩
    · have hlog : Throws (findExistingRunCommit runner featureRunId) w fun _ w' => w' = w :=
        run_refused (by rw [hhistory]; rfl)
      exact Or.inr ⟨Or.inl rfl, hlog.bind⟩
    · have htrailer : hasTrailer featureRunId head = false := hnew head (by rw [hhistory]; rfl)
      have hlog : exec (findExistingRunCommit runner featureRunId) w =
          (.ok none, { w with issued := w.issued + 1 }) := by
        refine run_returns (Bool.eq_false_iff.mpr hexit) ?_
        simp [hhistory, htrailer]
      refine Or.inl ⟨List.cons_ne_nil _ _, Bool.eq_false_iff.mpr hexit, ?_⟩
      unfold commitAndPush
      rw [exec_bind, hlog]

/-- A refused list ends in the loop, or right after it. -/
theorem throws_pushNewCommit (hrejected : Rejected runner files) :
    Throws (pushNewCommit runner featureRunId featureTitle files) w fun _ w' =>
      ∃ written, w'.repo = overlaid written w.repo ∧ (written = [] ↔ WritesNone runner files w) := by
  rcases hloop : exec (writeFiles runner files) w with ⟨e | changed, w₁⟩
  · obtain ⟨written, hrepo, hnone, -⟩ := exec_writeFiles hloop
    exact ⟨e, w₁, exec_bind_error.mpr (Or.inl hloop), written, hrepo, hnone⟩
  · obtain ⟨written, hrepo, hnone, hok⟩ := exec_writeFiles hloop
    obtain ⟨hvalid, rfl⟩ := hok changed rfl
    have hbounds : Throws (checkBounds runner (changedFiles runner files)) w₁ fun _ w' =>
        w' = w₁ := by
      unfold checkBounds
      split
      · rename_i hwithin
        exact absurd hrejected ((assertDiffWithinBounds_ok hvalid).mp hwithin)
      · exact throws_throw rfl
    obtain ⟨e, w₂, hthrow, rfl⟩ := hbounds
    refine ⟨e, w₂, ?_, written, hrepo, hnone⟩
    exact exec_bind_error.mpr (Or.inr ⟨_, _, hloop, exec_bind_error.mpr (Or.inl hthrow)⟩)

/-- Nothing after the loop touches the working tree. -/
theorem worktree_pushNewCommit {changed : List ChangedFile} {w₁ : CoderWorld}
    (hloop : exec (writeFiles runner files) w = (.ok changed, w₁)) :
    (exec (pushNewCommit runner featureRunId featureTitle files) w).2.repo.clone.worktree =
      w₁.repo.clone.worktree := by
  unfold pushNewCommit
  dsimp only
  rw [exec_bind, hloop]
  have hbounds : Frame (fun w : CoderWorld => w.repo.clone.worktree) (checkBounds runner changed) := by
    unfold checkBounds
    split
    · exact frame_pure _
    · exact frame_throw _
  have hrun : ∀ {β : Type} {command : String} {f : Git.Workspace → Option (β × Git.Workspace)},
      (∀ repo b repo', f repo = some (b, repo') → repo'.clone.worktree = repo.clone.worktree) →
        Frame (fun w : CoderWorld => w.repo.clone.worktree) (runner.run command f) :=
    fun h => frame_run_repo (π := fun repo => repo.clone.worktree) h
  refine (frame_bind hbounds fun _ => frame_bind (hrun ?_) fun _ => frame_bind (hrun ?_) fun _ =>
    frame_bind (hrun ?_) fun _ => frame_bind (hrun ?_) fun _ => frame_pure _ :
      Frame (fun w : CoderWorld => w.repo.clone.worktree) _) w₁
  · intro repo _ repo' hstage
    obtain ⟨-, rfl⟩ := Prod.mk.inj (Option.some.inj hstage)
    rfl
  · intro repo _ repo' hcommit
    obtain ⟨committed, hsome, hpair⟩ := Option.map_eq_some_iff.mp hcommit
    obtain ⟨-, rfl⟩ := Prod.mk.inj hpair
    exact Git.Workspace.commit_worktree hsome
  · intro repo _ repo' hrev
    obtain ⟨head, -, hpair⟩ := Option.map_eq_some_iff.mp hrev
    rw [(Prod.mk.inj hpair).2]
  · intro repo _ repo' hpush
    obtain ⟨pushed, hsome, hpair⟩ := Option.map_eq_some_iff.mp hpush
    obtain ⟨-, rfl⟩ := Prod.mk.inj hpair
    rw [(Git.Workspace.push_some hsome).2]

/-- Once the log was read, the loop writes unless its first write does not come about. -/
theorem writesNone_iff (hhistory : w.repo.clone.history ≠ [])
    (hlog : runner.exitsNonZero w.issued = false) :
    WritesNone runner files { w with issued := w.issued + 1 } ↔ ¬StartsWriting runner files w := by
  constructor
  · rintro hnone ⟨-, -, hfirst, file, hfile, hsafe⟩
    rcases hnone with hnone | hexit
    · rw [hnone file hfile] at hsafe
      cases hsafe
    · have hfails : runner.exitsNonZero (w.issued + 1) = true := hexit
      rw [hfirst] at hfails
      cases hfails
  · intro hno
    by_cases hexit : runner.exitsNonZero (w.issued + 1) = true
    · exact Or.inr hexit
    · refine Or.inl fun file hfile => ?_
      by_contra hsafe
      exact hno ⟨hhistory, hlog, Bool.eq_false_iff.mpr hexit, file, hfile,
        Option.isSome_iff_ne_none.mpr hsafe⟩

/-- A refused list, once the log was read. -/
theorem throws_commitAndPush (featureTitle : String) (hnew : NotReused featureRunId w)
    (hrejected : Rejected runner files) :
    Throws (commitAndPush runner featureRunId featureTitle files) w fun _ w' =>
      ∃ written, w'.repo = overlaid written w.repo ∧
        (written = [] ↔ ¬StartsWriting runner files w) := by
  rcases exec_commitAndPush hnew with ⟨hhistory, hlog, hpush⟩ | ⟨hfails, hthrows⟩
  · have hloop : Throws (pushNewCommit runner featureRunId featureTitle files)
        { w with issued := w.issued + 1 } fun _ w' => ∃ written,
          w'.repo = overlaid written w.repo ∧
            (written = [] ↔ WritesNone runner files { w with issued := w.issued + 1 }) :=
      throws_pushNewCommit hrejected
    rw [writesNone_iff hhistory hlog] at hloop
    obtain ⟨e, w', hthrow, hwritten⟩ := hloop
    exact ⟨e, w', by rw [hpush, hthrow], hwritten⟩
  · refine hthrows.imp fun _ w' hw' => ⟨[], by rw [hw']; rfl, ?_⟩
    refine iff_of_true rfl ?_
    rintro ⟨hhistory, hlog, -⟩
    rcases hfails with hnil | hexit
    · exact hhistory hnil
    · rw [hlog] at hexit
      cases hexit

/-- **The guard before the writes**: a refused list leaves the clone as it was, and any other list
leaves each path with its last content, exactly when a refused list does not get to a write. -/
theorem guardsWrites_iff (hnew : NotReused featureRunId w) :
    GuardsWrites runner featureRunId featureTitle files w ↔
      ¬(Rejected runner files ∧ StartsWriting runner files w) := by
  constructor
  · rintro ⟨hrefused, -⟩ ⟨hrejected, hstarts⟩
    obtain ⟨e, w', hthrow, hrepo⟩ := hrefused hrejected
    obtain ⟨e', w₁, hthrow', written, hwritten, hnone⟩ :=
      throws_commitAndPush featureTitle hnew hrejected
    rw [hthrow] at hthrow'
    obtain ⟨-, rfl⟩ := Prod.mk.inj hthrow'
    -- the files lie over the working tree, which is as it was
    have hworktree : written ++ w.repo.clone.worktree = w.repo.clone.worktree := by
      rw [hrepo] at hwritten
      exact (congrArg (·.clone.worktree) hwritten).symm
    exact hnone.mp (List.append_left_eq_self.mp hworktree) hstarts
  · intro hno
    refine ⟨fun hrejected => ?_, fun hkept hexits => ?_⟩
    · refine (throws_commitAndPush _ hnew hrejected).imp fun _ w' hwritten => ?_
      obtain ⟨written, hrepo, hnone⟩ := hwritten
      rw [hrepo, hnone.mpr fun hstarts => hno ⟨hrejected, hstarts⟩]
      rfl
    · have hvalid : ∀ file ∈ files, (runner.safePath? file).isSome = true := by
        intro file hfile
        refine Option.isSome_iff_ne_none.mpr fun hnone => hkept ?_
        exact Or.inr (Or.inr (Or.inr ⟨file, hfile, hnone⟩))
      obtain ⟨hhistory, hexit⟩ := hexits
      have hwrites : ∀ i < files.length, runner.exitsNonZero (w.issued + 1 + i) = false := by
        intro i hi
        have hnext := hexit (i + 1) (by omega)
        rwa [← Nat.add_assoc, Nat.add_right_comm] at hnext
      rcases exec_commitAndPush hnew with ⟨-, -, hpush⟩ | ⟨hfails, -⟩
      · obtain ⟨changed, w₁, hloop⟩ :
            ∃ changed w₁, exec (writeFiles runner files) { w with issued := w.issued + 1 } =
              (.ok changed, w₁) := returns_writeFiles hvalid hwrites
        rw [hpush, worktree_pushNewCommit hloop, writeFiles_ok hloop]
        exact holdsLast_generatedTree _ hvalid
      · rcases hfails with hnil | hfails
        · exact absurd hnil hhistory
        · have hlog := hexit 0 (Nat.zero_le _)
          rw [Nat.add_zero, hfails] at hlog
          cases hlog

/-! ### A list that is refused too late -/

/-- A clone with one commit, and files from a provider. -/
def guardedWorld : CoderWorld where
  session := .start sampleDb (sampleRuntime 0)
  repo := ⟨⟨[], "main"⟩, Git.Remote.checkedOut ⟨[], "main"⟩ "main" [⟨"c0", "initial", []⟩]⟩

/-- A path out of the repository after a good one: the good file is written. -/
theorem not_guardsWrites_second : ¬GuardsWrites { newSha := "c1" } "run-1" "title"
    [⟨"src/a.ts", "a"⟩, ⟨"../outside", "b"⟩] guardedWorld := by
  intro h
  have hrejected : Rejected { newSha := "c1" } [⟨"src/a.ts", "a"⟩, ⟨"../outside", "b"⟩] :=
    Or.inr (Or.inr (Or.inr ⟨⟨"../outside", "b"⟩, by simp, by decide +kernel⟩))
  obtain ⟨e, w', hthrow, hrepo⟩ := h.refused hrejected
  have hwritten : (exec (commitAndPush { newSha := "c1" } "run-1" "title"
      [⟨"src/a.ts", "a"⟩, ⟨"../outside", "b"⟩]) guardedWorld).2.repo.clone.worktree =
        [("src/a.ts", "a")] := by decide +kernel
  rw [hthrow] at hwritten
  have hnothing : w'.repo.clone.worktree = [] := by
    rw [hrepo]
    rfl
  rw [hnothing] at hwritten
  cases hwritten

theorem guardsWrites_first : GuardsWrites { newSha := "c1" } "run-1" "title"
    [⟨"../outside", "b"⟩, ⟨"src/a.ts", "a"⟩] guardedWorld := by
  have hnew : NotReused "run-1" guardedWorld := by
    intro head hhead
    obtain rfl := Option.some.inj hhead
    decide +kernel
  refine (guardsWrites_iff hnew).mpr ?_
  rintro ⟨-, -, -, -, file, hfile, hsafe⟩
  obtain rfl := Option.some.inj hfile
  have hrefused : validateRelativePath "../outside" = none := by decide +kernel
  have hsome : (validateRelativePath "../outside").isSome = true := hsafe
  rw [hrefused] at hsome
  cases hsome

end MiniCoder
