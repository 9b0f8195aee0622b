import NextTime.Eval.StageRules
import Mathlib.Tactic.Positivity

/-
The cases that whoever publishes the draft acknowledges one by one.
-/

namespace NextTime.Eval

/-! ### What a lower rate says -/

/-- An arm that passed each try with an outcome is not below another. -/
theorem failed_pos_of_rate_lt {passed failed otherPassed otherFailed : Nat}
    (tried : 0 < passed + failed) (otherTried : 0 < otherPassed + otherFailed)
    (lower : (passed : Rat) / ((passed + failed : Nat) : Rat) <
      (otherPassed : Rat) / ((otherPassed + otherFailed : Nat) : Rat)) :
    0 < failed := by
  apply Nat.pos_of_ne_zero
  intro all
  subst all
  have whole : (passed : Rat) / ((passed + 0 : Nat) : Rat) = 1 := by
    apply div_self
    exact_mod_cast Nat.ne_of_gt tried
  have most : (otherPassed : Rat) / ((otherPassed + otherFailed : Nat) : Rat) ≤ 1 := by
    apply (div_le_one (by exact_mod_cast otherTried)).mpr
    exact_mod_cast Nat.le_add_right otherPassed otherFailed
  rw [whole] at lower
  exact absurd most (not_le.mpr lower)

theorem exists_of_countOf_pos {reading : TrialReading} {trials : List VerdictTrial}
    (counted : 0 < countOf reading trials) : ∃ trial ∈ trials, readingOf trial = reading := by
  obtain ⟨trial, isIn, reads⟩ := List.countP_pos_iff.mp counted
  exact ⟨trial, isIn, of_decide_eq_true reads⟩

/-- Some candidate try of the case ended not passed. -/
def FailedTry (trials : List VerdictTrial) (caseId : String) : Prop :=
  ∃ trial ∈ trials, trial.caseId = caseId ∧ trial.arm = .candidate ∧ readingOf trial = .failed

/-- The candidate tried the case less often than the baseline. -/
def TriedLess (trials : List VerdictTrial) (caseId : String) : Prop :=
  (ofArm .candidate (ofCase caseId trials)).length <
    (ofArm .baseline (ofCase caseId trials)).length

theorem failedTry_of_counts {trials : List VerdictTrial} {caseId : String}
    (counted : 0 < countOf .failed (ofArm .candidate (ofCase caseId trials))) :
    FailedTry trials caseId := by
  obtain ⟨trial, isIn, reads⟩ := exists_of_countOf_pos counted
  have isArm := List.mem_filter.mp isIn
  have isCase := List.mem_filter.mp isArm.1
  exact ⟨trial, isCase.1, of_decide_eq_true isCase.2, of_decide_eq_true isArm.2, reads⟩

theorem FailedTry.ofSplit {trials : List VerdictTrial} {caseId : String} {split : EvalCaseSplit}
    (failed : FailedTry (ofSplit split trials) caseId) : FailedTry trials caseId := by
  obtain ⟨trial, isIn, rest⟩ := failed
  exact ⟨trial, (List.mem_filter.mp isIn).1, rest⟩

theorem failedTry_of_isLost {trials : List VerdictTrial} {caseId : String}
    (lost : isLost trials caseId = true) : FailedTry trials caseId ∨ TriedLess trials caseId := by
  have fewer := isLost_iff.mp lost
  have candidate := length_eq_counts (ofArm .candidate (ofCase caseId trials))
  have baseline := length_eq_counts (ofArm .baseline (ofCase caseId trials))
  unfold passes without at fewer
  by_cases failed : 0 < countOf .failed (ofArm .candidate (ofCase caseId trials))
  · exact .inl (failedTry_of_counts failed)
  · right
    unfold TriedLess
    omega

theorem rate_eq_some {dev : List VerdictTrial} {caseId : String} {arm : EvalArm} {value : Rat}
    (rated : rate dev caseId arm = some value) :
    0 < countOf .passed (ofArm arm (ofCase caseId dev)) +
        countOf .failed (ofArm arm (ofCase caseId dev)) ∧
      value = (countOf .passed (ofArm arm (ofCase caseId dev)) : Rat) /
        ((countOf .passed (ofArm arm (ofCase caseId dev)) +
          countOf .failed (ofArm arm (ofCase caseId dev)) : Nat) : Rat) := by
  simp only [rate] at rated
  split at rated
  next => cases rated
  next tried =>
    cases rated
    exact ⟨Nat.pos_of_ne_zero tried, rfl⟩

theorem failedTry_of_isLower {dev : List VerdictTrial} {caseId : String}
    (lower : isLower dev caseId = true) : FailedTry dev caseId := by
  unfold isLower at lower
  split at lower
  next candidate baseline isCandidate isBaseline =>
    have ofCandidate := rate_eq_some isCandidate
    have ofBaseline := rate_eq_some isBaseline
    apply failedTry_of_counts
    apply failed_pos_of_rate_lt ofCandidate.1 ofBaseline.1
    rw [← ofCandidate.2, ← ofBaseline.2]
    exact of_decide_eq_true lower
  next => cases lower

/-! ### How a verdict to acknowledge is reached -/

section
variable {rates : Rates}

/-- A verdict of the rules is reached by the stage's rule. -/
theorem ruleOutcome_of_stageOutcome {stage : DraftEvaluationStage}
    {trials evaluationTrials : List VerdictTrial} {verdict : DraftEvaluationVerdict}
    {reason : DraftEvaluationReason} (isRule : verdict = .regressed ∨ verdict = .worse)
    (decides : stageOutcome rates stage trials evaluationTrials =
      .decided verdict reason) :
    ruleOutcome (measureStage rates stage trials) = .decided verdict reason := by
  simp only [stageOutcome] at decides
  split at decides
  next => cases decides; simp at isRule
  next =>
    split at decides
    next => cases decides; simp at isRule
    next =>
      split at decides
      next => cases decides; simp at isRule
      next =>
        split at decides
        next => cases decides; simp at isRule
        next =>
          split at decides
          next => cases decides; simp at isRule
          next => exact decides

theorem regression_verdict {trials : List VerdictTrial} {verdict : DraftEvaluationVerdict}
    {reason : DraftEvaluationReason}
    (decides : ruleOutcome (measureStage rates .regression trials) =
      .decided verdict reason) :
    (verdict = .regressed ∧ ∃ caseId ∈ caseIdsOf trials, isLost trials caseId = true) ∨
      verdict = .inconclusive := by
  simp only [measureStage, ruleOutcome] at decides
  split at decides
  next lost =>
    cases decides
    exact .inl ⟨rfl, filter_length_pos.mp lost⟩
  next =>
    split at decides
    next => cases decides; exact .inr rfl
    next => cases decides

theorem mechanism_verdict {trials : List VerdictTrial} {verdict : DraftEvaluationVerdict}
    {reason : DraftEvaluationReason}
    (decides : ruleOutcome (measureStage rates .mechanism trials) =
      .decided verdict reason) : verdict = .refuted ∨ verdict = .inconclusive := by
  rw [mechanism_outcome] at decides
  split at decides
  next => cases decides; exact .inr rfl
  next =>
    split at decides
    next => cases decides; exact .inl rfl
    next =>
      split at decides
      next => cases decides
      next => cases decides; exact .inr rfl

theorem confirm_verdict {trials : List VerdictTrial} {verdict : DraftEvaluationVerdict}
    {reason : DraftEvaluationReason}
    (decides : ruleOutcome (measureStage rates .confirm trials) =
      .decided verdict reason) :
    (verdict = .worse ∧ confirmOnDev (splitMeasure rates trials .dev) = .worse) ∨
      verdict = .better ∨ verdict = .non_inferior ∨ verdict = .inconclusive := by
  simp only [measureStage, ruleOutcome] at decides
  split at decides
  next worse =>
    cases decides
    exact .inl ⟨rfl, worse⟩
  next =>
    right
    split at decides
    next => cases decides; simp
    next =>
      split at decides
      next => cases decides; simp
      next =>
        split at decides
        next => split at decides <;> cases decides <;> simp
        next => split at decides <;> cases decides <;> simp

theorem lost_of_regressed {stage : DraftEvaluationStage} {trials : List VerdictTrial}
    {reason : DraftEvaluationReason}
    (decides : ruleOutcome (measureStage rates stage trials) =
      .decided .regressed reason) :
    ∃ caseId ∈ caseIdsOf trials, isLost trials caseId = true := by
  cases stage with
  | regression =>
      rcases regression_verdict decides with ⟨_, lost⟩ | other
      · exact lost
      · cases other
  | mechanism => simpa using mechanism_verdict decides
  | confirm => simpa using confirm_verdict decides

variable {differenceLowerBound : Nat → Nat → Nat → Nat → Rat}

theorem difference_eq_some {trials : List VerdictTrial} {split : EvalCaseSplit} {value : Rat}
    (measured :
      (splitMeasure (exactRates differenceLowerBound) trials split).difference = some value) :
    0 < countOf .passed (ofArm .candidate (ofSplit split trials)) +
        countOf .failed (ofArm .candidate (ofSplit split trials)) ∧
      0 < countOf .passed (ofArm .baseline (ofSplit split trials)) +
        countOf .failed (ofArm .baseline (ofSplit split trials)) ∧
      value = (countOf .passed (ofArm .candidate (ofSplit split trials)) : Rat) /
          ((countOf .passed (ofArm .candidate (ofSplit split trials)) +
            countOf .failed (ofArm .candidate (ofSplit split trials)) : Nat) : Rat) -
        (countOf .passed (ofArm .baseline (ofSplit split trials)) : Rat) /
          ((countOf .passed (ofArm .baseline (ofSplit split trials)) +
            countOf .failed (ofArm .baseline (ofSplit split trials)) : Nat) : Rat) := by
  simp only [splitMeasure] at measured
  split at measured
  next measurable =>
    cases measured
    exact ⟨measurable.1, measurable.2, rfl⟩
  next => cases measured

theorem difference_of_worse {dev : SplitMeasure} (worse : confirmOnDev dev = .worse) :
    ∃ value, dev.difference = some value ∧ value < -DELTA := by
  unfold confirmOnDev at worse
  split at worse
  next value lowerBound isDifference _ =>
    split at worse
    next below => exact ⟨value, isDifference, below⟩
    next =>
      split at worse
      next => cases worse
      next => split at worse <;> cases worse
  next => cases worse

/-- The confirmation reads the candidate's rate on the dev trials below the baseline's. -/
theorem failed_of_worse {stage : DraftEvaluationStage} {trials : List VerdictTrial}
    {reason : DraftEvaluationReason}
    (decides : ruleOutcome (measureStage (exactRates differenceLowerBound) stage trials) =
      .decided .worse reason) :
    0 < countOf .failed (ofArm .candidate (ofSplit .dev trials)) := by
  cases stage with
  | regression => simpa using regression_verdict decides
  | mechanism => simpa using mechanism_verdict decides
  | confirm =>
      rcases confirm_verdict decides with ⟨_, worse⟩ | other
      · obtain ⟨value, isDifference, below⟩ := difference_of_worse worse
        have measured := difference_eq_some isDifference
        apply failed_pos_of_rate_lt measured.1 measured.2.1
        have margin : (0 : Rat) ≤ DELTA := by unfold DELTA; positivity
        linarith only [measured.2.2, below, margin]
      · simp at other

end

/-! ### The cases named -/

section
variable (rates : Rates) (differenceLowerBound : Nat → Nat → Nat → Nat → Rat)

/-- What is acknowledged of a stage: some of its cases, in their order, each with a failed try of
the candidate or, where a case was lost, fewer tries than the baseline had. -/
structure Names (verdict : DraftEvaluationVerdict) (caseIds : List String)
    (trials : List VerdictTrial) (named : List String) : Prop where
  nonempty : named ≠ []
  inOrder : named.Sublist caseIds
  failed : ∀ caseId ∈ named,
    FailedTry trials caseId ∨ (verdict = .regressed ∧ TriedLess trials caseId)

theorem casesToAcknowledge_regressed (caseIds : List String) (trials : List VerdictTrial) :
    casesToAcknowledge rates .regressed caseIds trials =
      caseIds.filter fun caseId => ((caseIdsOf trials).filter (isLost trials)).contains caseId :=
  rfl

theorem regressed_names {caseIds : List String} {trials : List VerdictTrial}
    (ofStage : ∀ trial ∈ trials, trial.caseId ∈ caseIds)
    (lost : ∃ caseId ∈ caseIdsOf trials, isLost trials caseId = true) :
    Names .regressed caseIds trials
      (casesToAcknowledge rates .regressed caseIds trials) := by
  rw [casesToAcknowledge_regressed]
  constructor
  · obtain ⟨caseId, isIn, isLost⟩ := lost
    obtain ⟨trial, isTrial, isCase⟩ := mem_caseIdsOf.mp isIn
    apply @List.ne_nil_of_mem _ caseId
    rw [List.mem_filter, List.contains_iff_mem, List.mem_filter]
    exact ⟨isCase ▸ ofStage trial isTrial, isIn, isLost⟩
  · exact List.filter_sublist
  · intro caseId isIn
    have isLost := (List.mem_filter.mp (List.contains_iff_mem.mp (List.mem_filter.mp isIn).2)).2
    rcases failedTry_of_isLost isLost with failed | less
    · exact .inl failed
    · exact .inr ⟨rfl, less⟩

theorem worse_names {caseIds : List String} {trials : List VerdictTrial}
    (ofStage : ∀ trial ∈ trials, trial.caseId ∈ caseIds)
    (failed : 0 < countOf .failed (ofArm .candidate (ofSplit .dev trials))) :
    Names .worse caseIds trials
      (casesToAcknowledge rates .worse caseIds trials) := by
  simp only [casesToAcknowledge]
  split
  next lower =>
    constructor
    · exact List.ne_nil_of_length_pos lower
    · exact List.filter_sublist.trans List.filter_sublist
    · intro caseId isIn
      exact .inl (failedTry_of_isLower (List.mem_filter.mp isIn).2).ofSplit
  next =>
    constructor
    · obtain ⟨trial, isIn, reads⟩ := exists_of_countOf_pos failed
      have isArm := List.mem_filter.mp isIn
      have isDev := List.mem_filter.mp isArm.1
      apply @List.ne_nil_of_mem _ trial.caseId
      rw [List.mem_filter, List.mem_filter, List.any_eq_true, List.any_eq_true]
      refine ⟨⟨ofStage trial isDev.1, trial, isArm.1, decide_eq_true rfl⟩, trial, isArm.1, ?_⟩
      rw [reads, isArm.2, decide_eq_true rfl, decide_eq_true rfl]
      rfl
    · exact List.filter_sublist.trans List.filter_sublist
    · intro caseId isIn
      obtain ⟨trial, isDev, reads⟩ := List.any_eq_true.mp (List.mem_filter.mp isIn).2
      simp only [Bool.and_eq_true, decide_eq_true_eq] at reads
      exact .inl ⟨trial, (List.mem_filter.mp isDev).1, reads.1.1, reads.1.2, reads.2⟩

/-- The regression and mechanism stages decide what holds whichever way the trials without an
outcome would have gone, and a verdict that is to be acknowledged names its cases. -/
theorem stages_decideByCompletions :
    (∀ trials, DecidesByCompletions
      (ruleOutcome (measureStage (exactRates differenceLowerBound) .regression trials))
      .regressed trials Held) ∧
    (∀ trials, ofArm .candidate trials ≠ [] → DecidesByCompletions
      (ruleOutcome (measureStage (exactRates differenceLowerBound) .mechanism trials))
      .refuted trials Shown) ∧
    (∀ trials, ofArm .candidate trials = [] →
      ruleOutcome (measureStage (exactRates differenceLowerBound) .mechanism trials) =
        .decided .inconclusive .too_few_trials) ∧
    ∀ stage trials evaluationTrials verdict reason caseIds,
      verdict = .regressed ∨ verdict = .worse →
      stageOutcome (exactRates differenceLowerBound) stage trials evaluationTrials =
        .decided verdict reason →
      (∀ trial ∈ trials, trial.caseId ∈ caseIds) →
        Names verdict caseIds trials
          (casesToAcknowledge (exactRates differenceLowerBound) verdict caseIds trials) := by
  refine ⟨regression_decides _, fun _ => mechanism_decides _, ?_, ?_⟩
  · intro trials untried
    rw [mechanism_outcome, untried]
    exact if_pos rfl
  · intro stage trials evaluationTrials verdict reason caseIds isRule decides ofStage
    have rules := ruleOutcome_of_stageOutcome isRule decides
    rcases isRule with regressed | worse
    · subst regressed
      exact regressed_names _ ofStage (lost_of_regressed rules)
    · subst worse
      exact worse_names _ ofStage (failed_of_worse rules)

end

/-- A scored try in the one environment. -/
def scoredTry (arm : EvalArm) (caseId : String) (passed : Bool) : VerdictTrial :=
  ⟨arm, caseId, .dev, .scored, passed, none, false, some "digest"⟩

/-- Of the candidate's tries of one case, one failed and one did not start. -/
def lostCase : List VerdictTrial :=
  [scoredTry .baseline "import" true, scoredTry .baseline "import" true,
    scoredTry .candidate "import" false,
    ⟨.candidate, "import", .dev, .errored, false, some "spawn_failed", false, none⟩,
    scoredTry .baseline "export" true, scoredTry .baseline "export" false,
    scoredTry .candidate "export" true, scoredTry .candidate "export" true]

theorem stages_decideByCompletions_lostCase :
    (∀ completed, Completion lostCase completed → ¬Held completed) ∧
      Names .regressed ["export", "import"] lostCase
        (casesToAcknowledge (exactRates fun _ _ _ _ => 0) .regressed ["export", "import"]
          lostCase) := by
  have decided := stages_decideByCompletions fun _ _ _ _ => 0
  constructor
  · exact (decided.1 lostCase).against.mp ⟨.regression_case_lost, by decide⟩
  · exact decided.2.2.2 .regression lostCase lostCase .regressed .regression_case_lost _
      (.inl rfl) (by decide) (by decide)

/-- A case the baseline passed, with no try of the candidate. -/
def untriedCase : List VerdictTrial :=
  [scoredTry .baseline "import" true]

theorem casesToAcknowledge_untriedCase :
    ¬∀ stage trials evaluationTrials verdict reason caseIds,
      verdict = .regressed ∨ verdict = .worse →
      stageOutcome (exactRates fun _ _ _ _ => 0) stage trials evaluationTrials =
        .decided verdict reason →
      (∀ trial ∈ trials, trial.caseId ∈ caseIds) → caseIds.Nodup →
        ∀ caseId ∈ casesToAcknowledge (exactRates fun _ _ _ _ => 0) verdict caseIds trials,
          ∃ trial ∈ trials,
            trial.caseId = caseId ∧ trial.arm = .candidate ∧ readingOf trial ≠ .passed := by
  intro every
  have named := every .regression untriedCase untriedCase .regressed .regression_case_lost
    ["import"] (.inl rfl) (by decide) (by decide) (by decide) "import" (by decide)
  revert named
  decide

end NextTime.Eval
