import MiniCoder.Coder.RunCoder
import MiniCoder.System

/-!
# Progress of a fix cycle

A coder task that reports a push should have moved its run to `code_pushed`, with a commit that
holds the files generated in this run.  `commitAndPush` reuses the head of the branch whenever it
carries the trailer of the run: right for a retry of one cycle, but the head of a run that has been
pushed before carries the trailer in every later cycle too.

* `fix_cycle_progress`: the task made progress exactly when the head it found does not carry the
  trailer, and `git add -A` takes every generated file.
* `AdapterCommit.next_head`: every push leaves a head that carries the trailer.
* `fixing_again`: the second cycle of a run reports a push and leaves the run in `fixing`.
-/

open Storage Storage.Action

namespace MiniCoder

/-- The run is `code_pushed`, and the commit the task recorded holds the generated files. -/
def FixProgress (featureRunId : String) (generated : Git.Tree) (w : CoderWorld) : Prop :=
  (∃ run, w.session.db.runById featureRunId = some run ∧
    run.currentExecutionState = .codePushed) ∧
  ∃ recorded commit, w.dispatched = some recorded ∧
    w.repo.remote.find (branchNameFor featureRunId) recorded.commitSha = some commit ∧
    generated.In commit.tree

variable {deps : RunCoderDeps} {payload : RunCoderPayload} {w w' : CoderWorld}

/-- A new commit holds the generated files exactly when `git add -A` takes them all. -/
theorem IsCommitOf.holds_iff {runner : CommandRunner} {featureRunId : String} {base : Git.Tree}
    {files : List GeneratedFile} {commit : Git.Commit}
    (h : IsCommitOf runner featureRunId base files commit) :
    (generatedTree runner files).In commit.tree ↔
      ∀ file ∈ generatedTree runner files, takesPath runner base files file.1 = true := by
  refine forall₂_congr fun file hfile => ?_
  obtain ⟨content, hcontent⟩ := Option.isSome_iff_exists.mp (Git.Tree.read_isSome hfile)
  rw [h.read, Git.Tree.read_append, hcontent]
  by_cases htakes : takesPath runner base files file.1 = true
  · simp [htakes]
  · simp [htakes]

/-- A command that a task dispatched under a key that no row has left the run `code_pushed`. -/
theorem DispatchedPush.codePushed {commitSha : String} {recordPayload : RecordCodePushedPayload}
    {request : Request} {s s' : Session}
    (h : DispatchedPush payload commitSha w w' recordPayload request s s')
    (hunused : ∀ row ∈ w.session.db.idempotencyKeys.rows,
      Db.isKey (codePushedKey payload.featureRunId commitSha) "record-code-pushed" row = false) :
    ∃ run, w'.session.db.runById payload.featureRunId = some run ∧
      run.currentExecutionState = .codePushed := by
  obtain ⟨commandId, lock, hrequest⟩ := h.envelope
  obtain ⟨result, hexecuted⟩ := h.executed
  have hkeys : s.db.idempotencyKeys = w.session.db.idempotencyKeys := congrArg Prod.snd h.before
  have hkey : request.envelope.idempotencyKey = codePushedKey payload.featureRunId commitSha := by
    rw [hrequest, ← h.commitSha]
    rfl
  have hscope : request.handler.idempotencyScope = "record-code-pushed" := by
    rw [hrequest]
    rfl
  rw [← hkeys, ← hkey, ← hscope] at hunused
  have huncached := Request.cachedResult_of_unused s.runtime.now hunused
  obtain ⟨ev, s₂, -, hdid, -⟩ := Request.execute_uncached huncached hexecuted
  obtain ⟨run, hstep⟩ := hdid.step
  obtain ⟨run', hfind, hstate⟩ := hstep.moved
  have hid : request.ref.featureRunId = payload.featureRunId := by
    rw [hrequest]
    exact h.featureRunId
  have htarget : request.command.target = .codePushed := by
    rw [hrequest]
    rfl
  refine ⟨run', ?_, hstate.trans htarget⟩
  rw [← hfind, hid, Db.runById, Db.runById, h.after]

/-- The commit a push recorded is the one that the adapter reported. -/
theorem FixProgress.holds {featureRunId commitSha : String} {generated : Git.Tree}
    {recordPayload : RecordCodePushedPayload} {commit : Git.Commit}
    (hdispatched : w.dispatched = some recordPayload) (hsha : recordPayload.commitSha = commitSha)
    (hfind : w.repo.remote.find (branchNameFor featureRunId) commitSha = some commit)
    (h : FixProgress featureRunId generated w) : generated.In commit.tree := by
  obtain ⟨-, recorded, commit', hrecorded, hfound, hin⟩ := h
  rw [hdispatched] at hrecorded
  obtain rfl := Option.some.inj hrecorded
  rw [hsha, hfind] at hfound
  obtain rfl := Option.some.inj hfound
  exact hin

theorem find_eq_head {remote : Git.Remote} {branch : String} {head : Git.Commit}
    {rest : List Git.Commit} (h : remote.history branch = head :: rest) :
    remote.find branch head.sha = some head := by
  unfold Git.Remote.find
  rw [h]
  exact List.find?_cons_of_pos (beq_self_eq_true head.sha)

/-- **A task that reports a push makes progress exactly when** the head of the branch it checked out
does not carry the trailer of the run, and `git add -A` takes every generated file. -/
theorem fix_cycle_progress {result : RunCoderResult} {generation : CodeGeneration}
    {head : Git.Commit} {rest : List Git.Commit}
    (hrun : exec (runImpl deps payload) w = (.ok result, w')) (hpushed : result.pushed = true)
    (hgeneration : deps.generation = .ok generation)
    (hhead : checkoutHistory w.repo.remote (branchNameFor payload.featureRunId) = head :: rest)
    (hchanges : ¬ (generatedTree deps.toCommandRunner generation.files).In head.tree)
    (hnewSha : ∀ row ∈ w.session.db.idempotencyKeys.rows,
      Db.isKey (codePushedKey payload.featureRunId deps.newSha) "record-code-pushed" row = false) :
    FixProgress payload.featureRunId (generatedTree deps.toCommandRunner generation.files) w' ↔
      hasTrailer payload.featureRunId head = false ∧
        ∀ file ∈ generatedTree deps.toCommandRunner generation.files,
          takesPath deps.toCommandRunner head.tree generation.files file.1 = true := by
  obtain ⟨generation', commitSha, recordPayload, request, s, s', hgeneration', hcommit, hpush⟩ :=
    runImpl_pushed hrun hpushed
  rw [hgeneration] at hgeneration'
  obtain rfl := Except.ok.inj hgeneration'
  obtain ⟨head', rest', hhead', hcommit⟩ := hcommit
  rw [hhead] at hhead'
  obtain ⟨rfl, rfl⟩ := List.cons.inj hhead'
  rcases hcommit with ⟨htrailer, hsha, hremote⟩ | ⟨htrailer, commit, hnew, hsha, hhistory⟩
  · -- the head is reused: it is what it was before the files were generated
    refine iff_of_false (fun hprogress => ?_) fun hcond => ?_
    · by_cases hlisted : isListed w.repo.remote (branchNameFor payload.featureRunId) = true
      · rw [checkoutHistory, if_pos hlisted, ← hremote] at hhead
        have hfind := find_eq_head hhead
        rw [← hsha] at hfind
        exact hchanges (hprogress.holds hpush.dispatched hpush.commitSha hfind)
      · -- the head is the default branch's, and the run's branch has no commit at all
        have hempty : w.repo.remote.history (branchNameFor payload.featureRunId) = [] := by
          by_contra hne
          exact hlisted (isListed_of_history hne)
        obtain ⟨-, recorded, commit, -, hfound, -⟩ := hprogress
        rw [hremote, Git.Remote.find, hempty] at hfound
        cases hfound
    · rw [htrailer] at hcond
      exact Bool.noConfusion hcond.1
  · have hfind := find_eq_head hhistory
    rw [hnew.sha, ← hsha] at hfind
    rw [← hsha] at hnewSha
    constructor
    · intro hprogress
      exact ⟨htrailer, hnew.holds_iff.mp
        (hprogress.holds hpush.dispatched hpush.commitSha hfind)⟩
    · rintro ⟨-, htakes⟩
      exact ⟨hpush.codePushed hnewSha, recordPayload, commit, hpush.dispatched,
        by rw [hpush.commitSha]; exact hfind, hnew.holds_iff.mpr htakes⟩

/-- **The head that a push leaves carries the trailer**: the next cycle, which starts from it, makes
no progress. -/
theorem AdapterCommit.next_head {runner : CommandRunner} {featureRunId sha : String}
    {files : List GeneratedFile} {remote remote' : Git.Remote}
    (h : AdapterCommit runner featureRunId files remote remote' sha)
    (hbranch : remote'.history (branchNameFor featureRunId) ≠ []) :
    ∃ head rest, checkoutHistory remote' (branchNameFor featureRunId) = head :: rest ∧
      hasTrailer featureRunId head = true := by
  have hlisted := isListed_of_history hbranch
  obtain ⟨head, rest, hhead, ⟨htrailer, -, rfl⟩ | ⟨-, commit, hnew, -, hhistory⟩⟩ := h
  · exact ⟨head, rest, hhead, htrailer⟩
  · refine ⟨commit, head :: rest, ?_, hnew.trailer⟩
    rw [checkoutHistory, if_pos hlisted, hhistory]

/-! ### The second cycle of a run -/

open SystemEvent

/-- The project for examples, with a repository. -/
def coderDb : Db :=
  { sampleDb with
    repositories := .ofList [{ id := "repo", projectId := "P", owner := "acme", name := "app" }] }

/-- A world of the coder at a given time. -/
def coderWorld (db : Db) (now : ℕ) (remote : Git.Remote) : CoderWorld where
  session := .start db (sampleRuntime now)
  repo := ⟨remote, remote.checkedOut "" []⟩

/-- The remote before the first cycle. -/
def coderRemote : Git.Remote where
  branches := [("main", [⟨"c0", "initial", [("README.md", "app")]⟩])]
  defaultBranch := "main"

/-- A coder that writes one file. -/
def oneFile (newSha path content : String) : RunCoderDeps where
  newSha
  generation := .ok { files := [⟨path, content⟩] }
  createPullRequest _ _ _ := some 1

def coderPayload : RunCoderPayload := ⟨"P", "run-1", "coder"⟩

/-- The first run starts coding, under a short lease. -/
def toCoding : List SystemEvent := [
  .lock ⟨.acquire "P" (executionLane "P") ⟨"worker", 5⟩, sampleRuntime 0⟩,
  firstSelected,
  .commit ⟨.startCoding, sampleEnvelope .system "code" ⟨"run-1", "P", 2⟩⟩ () (sampleRuntime 2)]

/-- The first cycle: the coder pushes `src/a.ts`. -/
def firstCycle : Except CoderFailure RunCoderResult × CoderWorld :=
  exec (runImpl (oneFile "c1" "src/a.ts" "a") coderPayload)
    (coderWorld (after coderDb toCoding) 6 coderRemote)

/-- A worker's command under the lane's fourth lease. -/
def underFourthLease {P : Type} (key : String) (payload : P) : CommandEnvelope P :=
  { sampleEnvelope .system key payload with
    lockContext := some { lockId := "i", fence := 4, holderId := "worker" } }

/-- From the first push to the second cycle: the pull request, its checks, and the review. -/
def toFixing : List SystemEvent := [
  .lock ⟨.acquire "P" (executionLane "P") ⟨"worker", 5⟩, sampleRuntime 7⟩,
  .commit ⟨.recordPrOpened, underFourthLease "open" {
    featureRunId := "run-1", projectId := "P", expectedVersion := 4
    prNumber := 1, branchName := "minicoder/run-1", baseBranch := "main", headSha := some "c1" }⟩ ()
    (sampleRuntime 8),
  .commit ⟨.recordCiRunning, underFourthLease "ci" {
    featureRunId := "run-1", projectId := "P", expectedVersion := 5
    checkRunId := "check" }⟩ () (sampleRuntime 9),
  .commit ⟨.recordCiPassed, sampleEnvelope .system "passed" {
    featureRunId := "run-1", projectId := "P", expectedVersion := 6
    checkRunId := "check" }⟩ () (sampleRuntime 10),
  .commit ⟨.recordChangesRequested, sampleEnvelope .system "changes" {
    featureRunId := "run-1", projectId := "P", expectedVersion := 7, reviewId := "review" }⟩ ()
    (sampleRuntime 11),
  .commit ⟨.startFixing, underFourthLease "fix" ⟨"run-1", "P", 8⟩⟩ () (sampleRuntime 12)]

/-- The world in which the second cycle runs. -/
def fixingWorld : CoderWorld :=
  coderWorld (after firstCycle.2.session.db toFixing) 20 firstCycle.2.repo.remote

/-- The coder of the second cycle. -/
def secondCoder : RunCoderDeps := oneFile "c2" "src/b.ts" "b"

/-- The files of the second cycle. -/
def secondFiles : Git.Tree := generatedTree secondCoder.toCommandRunner [⟨"src/b.ts", "b"⟩]

/-- The second cycle. -/
def secondCycle : Except CoderFailure RunCoderResult × CoderWorld :=
  exec (runImpl secondCoder coderPayload) fixingWorld

/-- **The second cycle of a run reports a push and leaves the run in `fixing`**: it recorded the
commit of the first cycle, under the key of the first cycle. -/
theorem fixing_again :
    (fixingWorld.session.db.runById "run-1").map (·.currentExecutionState) = some .fixing ∧
      secondCycle.1 = .ok ⟨"P", "run-1", true, some 1⟩ ∧
      (secondCycle.2.session.db.runById "run-1").map (·.currentExecutionState) = some .fixing ∧
      secondCycle.2.dispatched.map (·.commitSha) = some "c1" ∧
      ¬ FixProgress "run-1" secondFiles secondCycle.2 := by
  have hcycle :
      (fixingWorld.session.db.runById "run-1").map (·.currentExecutionState) = some .fixing ∧
      secondCycle.1 = .ok ⟨"P", "run-1", true, some 1⟩ ∧
      (secondCycle.2.session.db.runById "run-1").map (·.currentExecutionState) = some .fixing ∧
      secondCycle.2.dispatched.map (·.commitSha) = some "c1" := by decide +kernel
  obtain ⟨hfixing, hresult, hstate, hsha⟩ := hcycle
  refine ⟨hfixing, hresult, hstate, hsha, ?_⟩
  rintro ⟨⟨run, hrun, hpushed⟩, -⟩
  rw [hrun, Option.map_some, hpushed] at hstate
  cases hstate

/-- The same world, after a reviewer pushed a commit of their own to the run's branch. -/
def reviewedWorld : CoderWorld :=
  coderWorld (after firstCycle.2.session.db toFixing) 20 {
    firstCycle.2.repo.remote with
    branches := ("minicoder/run-1", ⟨"r1", "typo", [("README.md", "App")]⟩ ::
      firstCycle.2.repo.remote.history "minicoder/run-1") :: coderRemote.branches }

/-- The second cycle in that world. -/
def reviewedCycle : Except CoderFailure RunCoderResult × CoderWorld :=
  exec (runImpl secondCoder coderPayload) reviewedWorld

theorem fix_cycle_progress_reviewed : FixProgress "run-1" secondFiles reviewedCycle.2 := by
  have hresult : reviewedCycle.1 = .ok ⟨"P", "run-1", true, some 1⟩ := by decide +kernel
  have hrun : exec (runImpl secondCoder coderPayload) reviewedWorld =
      (.ok ⟨"P", "run-1", true, some 1⟩, reviewedCycle.2) := by
    rw [← hresult]
    exact (Prod.eta reviewedCycle).symm
  have hhead : checkoutHistory reviewedWorld.repo.remote "minicoder/run-1" =
      ⟨"r1", "typo", [("README.md", "App")]⟩ ::
        firstCycle.2.repo.remote.history "minicoder/run-1" := by decide +kernel
  have hgeneration : secondCoder.generation = .ok { files := [⟨"src/b.ts", "b"⟩] } := rfl
  have hchanges : ¬ secondFiles.In [("README.md", "App")] := by decide +kernel
  have hnewSha : ∀ row ∈ reviewedWorld.session.db.idempotencyKeys.rows,
      Db.isKey (codePushedKey "run-1" "c2") "record-code-pushed" row = false := by decide +kernel
  have hprogress := fix_cycle_progress hrun rfl hgeneration hhead hchanges hnewSha
  exact hprogress.mpr ⟨by decide +kernel, by decide +kernel⟩

end MiniCoder
