import NextTime.Eval.Completions

/-
What the rules of the regression and mechanism stages decide, and the cases that are to be
acknowledged of what a stage decided.
-/

namespace NextTime.Eval

/-! ### Mechanism -/

/-- The candidate passes every try, and the baseline at most what it may of its own. -/
def Shown (trials : List VerdictTrial) : Prop :=
  (∀ trial ∈ ofArm .candidate trials, readingOf trial = .passed) ∧
    countOf .passed (ofArm .baseline trials) ≤
      mechanismBaselineMaxPassed (ofArm .baseline trials).length

theorem shown_iff {trials : List VerdictTrial} :
    Shown trials ↔
      countOf .passed (ofArm .candidate trials) = (ofArm .candidate trials).length ∧
        countOf .passed (ofArm .baseline trials) ≤
          mechanismBaselineMaxPassed (ofArm .baseline trials).length := by
  have all : countOf .passed (ofArm .candidate trials) = (ofArm .candidate trials).length ↔
      ∀ trial ∈ ofArm .candidate trials, readingOf trial = .passed := by
    rw [countOf, List.countP_eq_length]
    simp only [decide_eq_true_eq]
  rw [Shown, all]

theorem tries_completed {trials completed : List VerdictTrial}
    (completion : Completion trials completed) (arm : EvalArm) :
    (ofArm arm completed).length = (ofArm arm trials).length :=
  (Completion.ofArm completion arm).length_eq.symm

/-- Not shown whichever way the trials without an outcome would have gone. -/
theorem refuted_iff_completions (trials : List VerdictTrial) :
    (0 < countOf .failed (ofArm .candidate trials) ∨
        mechanismBaselineMaxPassed (ofArm .baseline trials).length <
          countOf .passed (ofArm .baseline trials)) ↔
      ∀ completed, Completion trials completed → ¬Shown completed := by
  have tries := length_eq_counts (ofArm .candidate trials)
  constructor
  · intro refuted completed completion shown
    rw [shown_iff, tries_completed completion, tries_completed completion] at shown
    have candidate := (completion.ofArm .candidate).passed_bounds
    have baseline := (completion.ofArm .baseline).passed_bounds
    omega
  · intro never
    have completion : Completion trials (favour .candidate trials) := completion_settle _ trials
    have missing := never _ completion
    rw [shown_iff, tries_completed completion, tries_completed completion, passed_favour,
      passed_favour] at missing
    simp only [decide_true, if_true, reduceCtorEq, decide_false, Bool.false_eq_true, if_false,
      Nat.add_zero] at missing
    omega

theorem shown_iff_completions (trials : List VerdictTrial) :
    (countOf .failed (ofArm .candidate trials) = 0 ∧
        countOf .none (ofArm .candidate trials) = 0 ∧
        countOf .passed (ofArm .baseline trials) + countOf .none (ofArm .baseline trials) ≤
          mechanismBaselineMaxPassed (ofArm .baseline trials).length) ↔
      ∀ completed, Completion trials completed → Shown completed := by
  have tries := length_eq_counts (ofArm .candidate trials)
  constructor
  · intro shown completed completion
    rw [shown_iff, tries_completed completion, tries_completed completion]
    have candidate := (completion.ofArm .candidate).passed_bounds
    have baseline := (completion.ofArm .baseline).passed_bounds
    omega
  · intro every
    have completion : Completion trials (favour .baseline trials) := completion_settle _ trials
    have shown := every _ completion
    rw [shown_iff, tries_completed completion, tries_completed completion, passed_favour,
      passed_favour] at shown
    simp only [decide_true, if_true, reduceCtorEq, decide_false, Bool.false_eq_true, if_false,
      Nat.add_zero] at shown
    omega

/-! ### What the rules decide -/

/-- In no case the candidate passes fewer tries than the baseline. -/
def Held (trials : List VerdictTrial) : Prop := ¬∃ caseId, Fewer trials caseId

/-- A stage's outcome is what its rule says in every completion, and does not decide where the
completions disagree. -/
structure DecidesByCompletions (outcome : StageOutcome) (against : DraftEvaluationVerdict)
    (trials : List VerdictTrial) (Holds : List VerdictTrial → Prop) : Prop where
  against : (∃ reason, outcome = .decided against reason) ↔
    ∀ completed, Completion trials completed → ¬Holds completed
  passed : outcome = .passed ↔ ∀ completed, Completion trials completed → Holds completed
  otherwise : (¬∀ completed, Completion trials completed → ¬Holds completed) →
    (¬∀ completed, Completion trials completed → Holds completed) →
      ∃ reason, outcome = .decided .inconclusive reason

variable (rates : Rates)

theorem filter_length_pos {values : List String} {keeps : String → Bool} :
    0 < (values.filter keeps).length ↔ ∃ value ∈ values, keeps value = true := by
  rw [List.length_pos_iff_exists_mem]
  constructor
  · rintro ⟨value, isIn⟩
    exact ⟨value, List.mem_filter.mp isIn⟩
  · rintro ⟨value, isIn⟩
    exact ⟨value, List.mem_filter.mpr isIn⟩

theorem regression_decides (trials : List VerdictTrial) :
    DecidesByCompletions (ruleOutcome (measureStage rates .regression trials))
      .regressed trials Held := by
  have lostIff : 0 < ((caseIdsOf trials).filter (isLost trials)).length ↔
      ∀ completed, Completion trials completed → ¬Held completed := by
    rw [filter_length_pos, lost_iff_completions]
    simp only [Held, not_not]
  have heldIff : (¬0 < ((caseIdsOf trials).filter (isLost trials)).length ∧
      ¬0 < ((caseIdsOf trials).filter (isUnsettled trials)).length) ↔
        ∀ completed, Completion trials completed → Held completed := by
    unfold Held
    rw [← held_iff_completions, filter_length_pos, filter_length_pos]
    constructor
    · intro ⟨kept, settled⟩ caseId isIn
      constructor
      · exact Bool.eq_false_iff.mpr fun lost => kept ⟨caseId, isIn, lost⟩
      · exact Bool.eq_false_iff.mpr fun unsettled => settled ⟨caseId, isIn, unsettled⟩
    · intro every
      constructor
      · rintro ⟨caseId, isIn, lost⟩
        exact Bool.eq_false_iff.mp (every caseId isIn).1 lost
      · rintro ⟨caseId, isIn, unsettled⟩
        exact Bool.eq_false_iff.mp (every caseId isIn).2 unsettled
  simp only [measureStage, ruleOutcome]
  by_cases lost : 0 < ((caseIdsOf trials).filter (isLost trials)).length
  · rw [if_pos lost]
    constructor
    · exact iff_of_true ⟨_, rfl⟩ (lostIff.mp lost)
    · exact iff_of_false (fun same => nomatch same) fun every => (heldIff.mpr every).1 lost
    · exact fun some => absurd (lostIff.mp lost) some
  · rw [if_neg lost]
    by_cases unsettled : 0 < ((caseIdsOf trials).filter (isUnsettled trials)).length
    · rw [if_pos unsettled]
      constructor
      · exact iff_of_false (fun ⟨_, same⟩ => nomatch same) fun every => lost (lostIff.mpr every)
      · exact iff_of_false (fun same => nomatch same) fun every =>
          (heldIff.mpr every).2 unsettled
      · exact fun _ _ => ⟨_, rfl⟩
    · rw [if_neg unsettled]
      constructor
      · exact iff_of_false (fun ⟨_, same⟩ => nomatch same) fun every => lost (lostIff.mpr every)
      · exact iff_of_true rfl (heldIff.mp ⟨lost, unsettled⟩)
      · exact fun _ missing => absurd (heldIff.mp ⟨lost, unsettled⟩) missing

/-- The mechanism stage's outcome, by the counts of both arms. -/
theorem mechanism_outcome (trials : List VerdictTrial) :
    ruleOutcome (measureStage rates .mechanism trials) =
      if (ofArm .candidate trials).length = 0 then .decided .inconclusive .too_few_trials
      else if 0 < countOf .failed (ofArm .candidate trials) ∨
          mechanismBaselineMaxPassed (ofArm .baseline trials).length <
            countOf .passed (ofArm .baseline trials) then .decided .refuted .mechanism_not_shown
      else if countOf .none (ofArm .candidate trials) = 0 ∧
          countOf .passed (ofArm .baseline trials) + countOf .none (ofArm .baseline trials) ≤
            mechanismBaselineMaxPassed (ofArm .baseline trials).length then .passed
      else .decided .inconclusive .errored_trials := by
  simp only [measureStage, ruleOutcome, armMeasure, count]
  rw [← length_eq_counts]
  simp only [Nat.lt_add_right_iff_pos]

theorem mechanism_decides {trials : List VerdictTrial}
    (tried : ofArm .candidate trials ≠ []) :
    DecidesByCompletions (ruleOutcome (measureStage rates .mechanism trials))
      .refuted trials Shown := by
  have refutedIff := refuted_iff_completions trials
  have shownIff := shown_iff_completions trials
  rw [mechanism_outcome, if_neg fun empty => tried (List.eq_nil_of_length_eq_zero empty)]
  by_cases refuted : 0 < countOf .failed (ofArm .candidate trials) ∨
      mechanismBaselineMaxPassed (ofArm .baseline trials).length <
        countOf .passed (ofArm .baseline trials)
  · rw [if_pos refuted]
    have missing : ¬∀ completed, Completion trials completed → Shown completed := by
      intro every
      have shown := shownIff.mpr every
      omega
    constructor
    · exact iff_of_true ⟨_, rfl⟩ (refutedIff.mp refuted)
    · exact iff_of_false (fun same => nomatch same) missing
    · exact fun some => absurd (refutedIff.mp refuted) some
  · rw [if_neg refuted]
    have against : ¬∀ completed, Completion trials completed → ¬Shown completed :=
      fun never => refuted (refutedIff.mpr never)
    split
    next shown =>
      have every := shownIff.mp ⟨by omega, shown⟩
      constructor
      · exact iff_of_false (fun ⟨_, same⟩ => nomatch same) against
      · exact iff_of_true rfl every
      · exact fun _ missing => absurd every missing
    next short =>
      constructor
      · exact iff_of_false (fun ⟨_, same⟩ => nomatch same) against
      · exact iff_of_false (fun same => nomatch same) fun every => short (shownIff.mpr every).2
      · exact fun _ _ => ⟨_, rfl⟩

end NextTime.Eval
