import MiniCoder.Scm.CiStatus

/-!
# The signals of a commit on GitHub

`deriveCiStatus` combines the check runs of a commit with its combined status: a failure wins, then
what is still running, then a success.

* `deriveCiStatus_eq`: the derivation as a decision list; `deriveCiStatus_failed_iff`,
  `deriveCiStatus_running_iff`, `deriveCiStatus_passed_iff`: when the result is which.
* `deriveCiStatus_insert_clean`: a clean check run changes nothing about a commit that has a signal.
* `deriveCiStatus_lawful`: the law of the derivation.
-/

namespace MiniCoder

namespace Github

/-! ### Signals -/

/-- A completed check run whose conclusion is a failure. -/
def CheckRun.Failing (c : CheckRun) : Prop :=
  c.status = "completed" ∧ classifyCheckConclusion c.conclusion = .failed

/-- The commit has statuses. -/
def CombinedStatus.HasStatuses (combined : CombinedStatus) : Prop :=
  0 < combined.total_count.getD 0

/-- The commit has statuses, and they fail. -/
def CombinedStatus.Failing (combined : CombinedStatus) : Prop :=
  combined.HasStatuses ∧ (combined.state = "failure" ∨ combined.state = "error")

/-- The commit has a check run or a status. -/
def HasSignal (checkRuns : List CheckRun) (combined : CombinedStatus) : Prop :=
  checkRuns ≠ [] ∨ combined.HasStatuses

/-- Something fails. -/
def AnyFailing (checkRuns : List CheckRun) (combined : CombinedStatus) : Prop :=
  (∃ c ∈ checkRuns, c.Failing) ∨ combined.Failing

/-- Something is not completed. -/
def AnyRunning (checkRuns : List CheckRun) (combined : CombinedStatus) : Prop :=
  (∃ c ∈ checkRuns, c.status ≠ "completed") ∨ combined.HasStatuses ∧ combined.state = "pending"

/-- All signals are clean. -/
def AllClean (checkRuns : List CheckRun) (combined : CombinedStatus) : Prop :=
  (∀ c ∈ checkRuns, c.Clean) ∧ (combined.HasStatuses → combined.state = "success")

section Decisions

variable (c : CheckRun) (checkRuns : List CheckRun) (combined : CombinedStatus)

instance : Decidable c.Failing := inferInstanceAs (Decidable (_ ∧ _))
instance : Decidable c.Clean := inferInstanceAs (Decidable (_ ∧ _))
instance : Decidable combined.HasStatuses := inferInstanceAs (Decidable (_ < _))
instance : Decidable combined.Failing := inferInstanceAs (Decidable (_ ∧ _))
instance : Decidable (HasSignal checkRuns combined) := inferInstanceAs (Decidable (_ ∨ _))
instance : Decidable (AnyFailing checkRuns combined) := inferInstanceAs (Decidable (_ ∨ _))
instance : Decidable (AnyRunning checkRuns combined) := inferInstanceAs (Decidable (_ ∨ _))
instance : Decidable (AllClean checkRuns combined) := inferInstanceAs (Decidable (_ ∧ _))

end Decisions

theorem checkFailed_iff {c : CheckRun} : checkFailed c = true ↔ c.Failing := by
  rw [checkFailed, Bool.and_eq_true, beq_iff_eq, beq_iff_eq, CheckRun.Failing]

theorem CheckRun.Clean.not_failing {c : CheckRun} (h : c.Clean) : ¬ c.Failing := by
  intro hfailing
  have hpassed := checkPassed_iff.mpr h
  rw [checkPassed, Bool.and_eq_true, beq_iff_eq, beq_iff_eq, hfailing.2] at hpassed
  cases hpassed.2

section Result

variable {checkRuns : List CheckRun} {combined : CombinedStatus}

theorem hasSignal_of_anyFailing (h : AnyFailing checkRuns combined) :
    HasSignal checkRuns combined := by
  rcases h with ⟨c, hc, -⟩ | hfailing
  · exact Or.inl (List.ne_nil_of_mem hc)
  · exact Or.inr hfailing.1

theorem hasSignal_of_anyRunning (h : AnyRunning checkRuns combined) :
    HasSignal checkRuns combined := by
  rcases h with ⟨c, hc, -⟩ | hpending
  · exact Or.inl (List.ne_nil_of_mem hc)
  · exact Or.inr hpending.1

/-- What is clean neither fails nor runs. -/
theorem AllClean.finished (h : AllClean checkRuns combined) :
    ¬ AnyFailing checkRuns combined ∧ ¬ AnyRunning checkRuns combined := by
  constructor
  · rintro (⟨c, hc, hfailing⟩ | ⟨hstatuses, hstate⟩)
    · exact (h.1 c hc).not_failing hfailing
    · rw [h.2 hstatuses] at hstate
      simp at hstate
  · rintro (⟨c, hc, hrunning⟩ | ⟨hstatuses, hstate⟩)
    · exact hrunning (h.1 c hc).1
    · rw [h.2 hstatuses] at hstate
      simp at hstate

/-- **The derivation as a decision list** over the signals of the commit. -/
theorem deriveCiStatus_eq : deriveCiStatus checkRuns combined =
    if ¬ HasSignal checkRuns combined then .pending
    else if AnyFailing checkRuns combined then .failed
    else if AnyRunning checkRuns combined then .running
    else if AllClean checkRuns combined then .passed else .pending := by
  have hsignal : (!(!checkRuns.isEmpty) && !decide (0 < combined.total_count.getD 0)) = true ↔
      ¬ HasSignal checkRuns combined := by
    simp [HasSignal, CombinedStatus.HasStatuses]
  have hfailed : (checkRuns.any checkFailed || (decide (0 < combined.total_count.getD 0) &&
      (combined.state == "failure" || combined.state == "error"))) = true ↔
      AnyFailing checkRuns combined := by
    simp only [AnyFailing, CombinedStatus.Failing, CombinedStatus.HasStatuses, Bool.or_eq_true,
      Bool.and_eq_true, List.any_eq_true, decide_eq_true_eq, beq_iff_eq, checkFailed_iff]
  have hrunning : ((checkRuns.any fun c => c.status != "completed") ||
      (decide (0 < combined.total_count.getD 0) && combined.state == "pending")) = true ↔
      AnyRunning checkRuns combined := by
    simp only [AnyRunning, CombinedStatus.HasStatuses, Bool.or_eq_true, Bool.and_eq_true,
      List.any_eq_true, decide_eq_true_eq, beq_iff_eq, bne_iff_ne]
  have hclean : (checkRuns.all checkPassed && (!decide (0 < combined.total_count.getD 0) ||
      combined.state == "success")) = true ↔ AllClean checkRuns combined := by
    simp only [AllClean, CombinedStatus.HasStatuses, Bool.and_eq_true, List.all_eq_true,
      checkPassed_iff, Bool.or_eq_true, Bool.not_eq_true', decide_eq_false_iff_not, beq_iff_eq,
      imp_iff_not_or]
  rw [deriveCiStatus]
  simp only [hsignal, hfailed, hrunning, hclean]

theorem deriveCiStatus_failed_iff :
    deriveCiStatus checkRuns combined = .failed ↔ AnyFailing checkRuns combined := by
  rw [deriveCiStatus_eq]
  constructor
  · intro h
    split_ifs at h with hnone hfailing
    exact hfailing
  · intro h
    rw [if_neg (not_not.mpr (hasSignal_of_anyFailing h)), if_pos h]

theorem deriveCiStatus_running_iff : deriveCiStatus checkRuns combined = .running ↔
    ¬ AnyFailing checkRuns combined ∧ AnyRunning checkRuns combined := by
  rw [deriveCiStatus_eq]
  constructor
  · intro h
    split_ifs at h with hnone hfailing hrunning
    exact ⟨hfailing, hrunning⟩
  · rintro ⟨hfailing, hrunning⟩
    rw [if_neg (not_not.mpr (hasSignal_of_anyRunning hrunning)), if_neg hfailing, if_pos hrunning]

theorem deriveCiStatus_passed_iff : deriveCiStatus checkRuns combined = .passed ↔
    HasSignal checkRuns combined ∧ AllClean checkRuns combined := by
  rw [deriveCiStatus_eq]
  constructor
  · intro h
    split_ifs at h with hnone hfailing hrunning hclean
    exact ⟨hnone, hclean⟩
  · rintro ⟨hsignal, hclean⟩
    rw [if_neg (not_not.mpr hsignal), if_neg hclean.finished.1, if_neg hclean.finished.2,
      if_pos hclean]

/-- **A clean check run changes nothing about a commit that has a signal.** -/
theorem deriveCiStatus_insert_clean {before after : List CheckRun} {run : CheckRun}
    (hrun : run.Clean) (hsignal : HasSignal (before ++ after) combined) :
    deriveCiStatus (before ++ run :: after) combined = deriveCiStatus (before ++ after) combined := by
  have hmore : HasSignal (before ++ run :: after) combined := Or.inl (by simp)
  have hfailing : AnyFailing (before ++ run :: after) combined ↔
      AnyFailing (before ++ after) combined := by
    have hnot := hrun.not_failing
    simp [AnyFailing, or_and_right, exists_or, hnot]
  have hrunning : AnyRunning (before ++ run :: after) combined ↔
      AnyRunning (before ++ after) combined := by
    simp [AnyRunning, or_and_right, exists_or, hrun.1]
  have hclean : AllClean (before ++ run :: after) combined ↔ AllClean (before ++ after) combined := by
    simp [AllClean, or_imp, forall_and, hrun]
  simp only [deriveCiStatus_eq, hmore, hsignal, hfailing, hrunning, hclean]

/-- **The order of the check runs does not matter.** -/
theorem deriveCiStatus_perm {checkRuns' : List CheckRun} (h : checkRuns.Perm checkRuns') :
    deriveCiStatus checkRuns' combined = deriveCiStatus checkRuns combined := by
  have hsignal : HasSignal checkRuns' combined ↔ HasSignal checkRuns combined := by
    rw [HasSignal, HasSignal, ne_eq, ne_eq, ← List.length_eq_zero_iff, ← List.length_eq_zero_iff,
      h.length_eq]
  have hmem : ∀ c, c ∈ checkRuns' ↔ c ∈ checkRuns := fun c => h.mem_iff.symm
  have hfailing : AnyFailing checkRuns' combined ↔ AnyFailing checkRuns combined := by
    simp only [AnyFailing, hmem]
  have hrunning : AnyRunning checkRuns' combined ↔ AnyRunning checkRuns combined := by
    simp only [AnyRunning, hmem]
  have hclean : AllClean checkRuns' combined ↔ AllClean checkRuns combined := by
    simp only [AllClean, hmem]
  simp only [deriveCiStatus_eq, hsignal, hfailing, hrunning, hclean]

end Result

/-! ### The law -/

/-- What the derivation makes of check runs and a combined status. -/
structure CiLawful (checkRuns : List CheckRun) (combined : CombinedStatus) : Prop where
  failed_iff : deriveCiStatus checkRuns combined = .failed ↔
    (∃ c ∈ checkRuns, c.Failing) ∨ combined.Failing
  passed_iff : deriveCiStatus checkRuns combined = .passed ↔
    HasSignal checkRuns combined ∧ (∀ c ∈ checkRuns, c.status = "completed" ∧
      classifyCheckConclusion c.conclusion = .passed) ∧
      (combined.HasStatuses → combined.state = "success")
  permuted : ∀ checkRuns', checkRuns.Perm checkRuns' →
    deriveCiStatus checkRuns' combined = deriveCiStatus checkRuns combined
  failing_run : ∀ before run after, checkRuns = before ++ after → run.Failing →
    deriveCiStatus (before ++ run :: after) combined = .failed
  failing_status : ∀ combined' : CombinedStatus, combined'.Failing →
    deriveCiStatus checkRuns combined' = .failed
  /-- A passing check run makes no result that is failed, running, or pending with a signal a
  success. -/
  passing_run : ∀ before run after, checkRuns = before ++ after → run.status = "completed" →
    classifyCheckConclusion run.conclusion = .passed →
    (deriveCiStatus checkRuns combined = .failed ∨ deriveCiStatus checkRuns combined = .running ∨
      deriveCiStatus checkRuns combined = .pending ∧ HasSignal checkRuns combined) →
    deriveCiStatus (before ++ run :: after) combined ≠ .passed

theorem clean_iff {c : CheckRun} :
    c.Clean ↔ c.status = "completed" ∧ classifyCheckConclusion c.conclusion = .passed := by
  rw [← checkPassed_iff, checkPassed, Bool.and_eq_true, beq_iff_eq, beq_iff_eq]

/-- **The law of the derivation**: a failure wins, a success needs every signal, the order of the
check runs does not matter, and a passing check run hides nothing that the commit shows already. -/
theorem deriveCiStatus_lawful (checkRuns : List CheckRun) (combined : CombinedStatus) :
    CiLawful checkRuns combined where
  failed_iff := deriveCiStatus_failed_iff
  passed_iff := by
    rw [deriveCiStatus_passed_iff, AllClean]
    simp only [clean_iff]
  permuted _ h := deriveCiStatus_perm h
  failing_run before run after _ hrun :=
    deriveCiStatus_failed_iff.mpr (Or.inl ⟨run, by simp, hrun⟩)
  failing_status _ h := deriveCiStatus_failed_iff.mpr (Or.inr h)
  passing_run before run after hruns hcompleted hconclusion hresult := by
    subst hruns
    have hsignal : HasSignal (before ++ after) combined := by
      rcases hresult with hfailed | hrunning | ⟨-, hsignal⟩
      · exact hasSignal_of_anyFailing (deriveCiStatus_failed_iff.mp hfailed)
      · exact hasSignal_of_anyRunning (deriveCiStatus_running_iff.mp hrunning).2
      · exact hsignal
    rw [deriveCiStatus_insert_clean (clean_iff.mpr ⟨hcompleted, hconclusion⟩) hsignal]
    rcases hresult with hfailed | hrunning | ⟨hpending, -⟩
    · rw [hfailed]
      simp
    · rw [hrunning]
      simp
    · rw [hpending]
      simp

/-- A check run that has succeeded. -/
def successfulRun : CheckRun := { status := "completed", conclusion := some "success" }

/-- The combined status of a commit without statuses. -/
def withoutStatuses : CombinedStatus := { state := "pending", total_count := some 0, statuses := [] }

/-- **The first signal of a commit ends its `pending`**: a passing check run makes it `passed`.  And a
combined status of no statuses does not fail, whatever its state is. -/
theorem pending_passed : deriveCiStatus [] withoutStatuses = .pending ∧
    deriveCiStatus [successfulRun] withoutStatuses = .passed ∧
    deriveCiStatus [] { withoutStatuses with state := "failure" } = .pending := by
  decide

end Github

end MiniCoder
