import NextTime.Eval.StageRules

/-
What the proposer is told reads of the dev trials their arms, cases and outcomes alone, and a
prefix of the stages reads as all of them or does not decide.
-/

namespace NextTime.Eval

/-! ### Trials that are alike -/

/-- What a stage reads of a trial, its split apart. -/
def devKey (trial : VerdictTrial) : EvalArm × String × TrialReading :=
  (trial.arm, trial.caseId, readingOf trial)

/-- The same arms, cases and outcomes, in any order. -/
def Alike (left right : List VerdictTrial) : Prop :=
  List.Perm (left.map devKey) (right.map devKey)

theorem countOf_ofArm (reading : TrialReading) (arm : EvalArm) (trials : List VerdictTrial) :
    countOf reading (ofArm arm trials) =
      (trials.map devKey).countP fun key => decide (key.2.2 = reading) && decide (key.1 = arm) := by
  rw [countOf, ofArm, List.countP_filter, List.countP_map]
  rfl

theorem countOf_ofCase (reading : TrialReading) (arm : EvalArm) (caseId : String)
    (trials : List VerdictTrial) :
    countOf reading (ofArm arm (ofCase caseId trials)) =
      (trials.map devKey).countP fun key =>
        (decide (key.2.2 = reading) && decide (key.1 = arm)) && decide (key.2.1 = caseId) := by
  rw [countOf, ofArm, ofCase, List.countP_filter, List.countP_filter, List.countP_map]
  rfl

section
variable {left right : List VerdictTrial}

theorem Alike.counts (alike : Alike left right) (reading : TrialReading) (arm : EvalArm) :
    countOf reading (ofArm arm left) = countOf reading (ofArm arm right) := by
  rw [countOf_ofArm, countOf_ofArm]
  exact alike.countP_eq _

theorem Alike.caseCounts (alike : Alike left right) (reading : TrialReading) (arm : EvalArm)
    (caseId : String) :
    countOf reading (ofArm arm (ofCase caseId left)) =
      countOf reading (ofArm arm (ofCase caseId right)) := by
  rw [countOf_ofCase, countOf_ofCase]
  exact alike.countP_eq _

theorem Alike.count_eq (alike : Alike left right) (arm : EvalArm) :
    count (ofArm arm left) = count (ofArm arm right) := by
  rw [count, count, alike.counts, alike.counts, alike.counts]

theorem Alike.length_eq (alike : Alike left right) : left.length = right.length := by
  have lengths := List.Perm.length_eq alike
  rw [List.length_map, List.length_map] at lengths
  exact lengths

theorem Alike.tries_eq (alike : Alike left right) (arm : EvalArm) :
    (ofArm arm left).length = (ofArm arm right).length := by
  rw [length_eq_counts, length_eq_counts, alike.counts, alike.counts, alike.counts]

theorem Alike.tooMany_eq (alike : Alike left right) :
    tooManyWithoutOutcome left = tooManyWithoutOutcome right := by
  simp only [tooManyWithoutOutcome, armWithoutOutcome, alike.count_eq, alike.tries_eq]

theorem Alike.caseCount_eq (alike : Alike left right) (arm : EvalArm) (caseId : String) :
    count (ofArm arm (ofCase caseId left)) = count (ofArm arm (ofCase caseId right)) := by
  rw [count, count, alike.caseCounts, alike.caseCounts, alike.caseCounts]

theorem Alike.isLost_eq (alike : Alike left right) : isLost left = isLost right := by
  funext caseId
  simp only [isLost, alike.caseCount_eq]

theorem Alike.isUnsettled_eq (alike : Alike left right) : isUnsettled left = isUnsettled right := by
  funext caseId
  simp only [isUnsettled, alike.isLost_eq, alike.caseCount_eq]

end

/-- Some case is lost, or unsettled, of those that were tried. -/
theorem flagged_iff {trials : List VerdictTrial} {flag : String → Bool}
    (tried : ∀ caseId, flag caseId = true →
      0 < passes .baseline caseId trials + without .baseline caseId trials) :
    0 < ((caseIdsOf trials).filter flag).length ↔ ∃ caseId, flag caseId = true := by
  rw [filter_length_pos]
  constructor
  · rintro ⟨caseId, _, flagged⟩
    exact ⟨caseId, flagged⟩
  · rintro ⟨caseId, flagged⟩
    exact ⟨caseId, mem_caseIdsOf_of_passes (tried caseId flagged), flagged⟩

theorem lost_tried (trials : List VerdictTrial) (caseId : String)
    (lost : isLost trials caseId = true) :
    0 < passes .baseline caseId trials + without .baseline caseId trials := by
  have fewer := isLost_iff.mp lost
  omega

theorem unsettled_tried (trials : List VerdictTrial) (caseId : String)
    (unsettled : isUnsettled trials caseId = true) :
    0 < passes .baseline caseId trials + without .baseline caseId trials := by
  have fewer := of_decide_eq_true (Bool.and_eq_true_iff.mp unsettled).2
  exact Nat.lt_of_le_of_lt (Nat.zero_le _) fewer

/-! ### The reading of one stage -/

section
variable (rates : Rates)

/-- What a stage reads of its dev trials, with what the stages after it read. -/
def readStage (stage : DraftEvaluationStage) (dev : List VerdictTrial)
    (rest : DraftEvaluationVerdict) : DraftEvaluationVerdict :=
  if dev.length = 0 then rest
  else if tooManyWithoutOutcome dev then .inconclusive
  else
    match measureStage rates stage dev with
    | .confirm measured _ => confirmOnDev measured
    | measure =>
        match ruleOutcome measure with
        | .passed => rest
        | .decided verdict _ =>
            if verdict = .regressed ∨ verdict = .refuted then verdict else .inconclusive

theorem readOnDev_cons (stageTrials : DraftEvaluationStage → List VerdictTrial)
    (stage : DraftEvaluationStage) (stages : List DraftEvaluationStage) :
    readOnDev rates stageTrials (stage :: stages) =
      readStage rates stage (ofSplit .dev (stageTrials stage))
        (readOnDev rates stageTrials stages) :=
  rfl

/-- A stage passes on what the others read, or reads its own. -/
theorem readStage_cases (stage : DraftEvaluationStage) (dev : List VerdictTrial) :
    (∀ rest, readStage rates stage dev rest = rest) ∨
      ∃ verdict, ∀ rest, readStage rates stage dev rest = verdict := by
  unfold readStage
  split
  next => exact .inl fun _ => rfl
  next =>
    split
    next => exact .inr ⟨_, fun _ => rfl⟩
    next =>
      split
      next => exact .inr ⟨_, fun _ => rfl⟩
      next =>
        split
        next => exact .inl fun _ => rfl
        next => exact .inr ⟨_, fun _ => rfl⟩

theorem ofSplit_ofSplit (split : EvalCaseSplit) (trials : List VerdictTrial) :
    ofSplit split (ofSplit split trials) = ofSplit split trials := by
  rw [ofSplit, ofSplit, List.filter_filter]
  simp only [Bool.and_self]

theorem measure_alike {left right : List VerdictTrial}
    (alike : Alike (ofSplit .dev left) (ofSplit .dev right)) :
    splitMeasure rates (ofSplit .dev left) .dev =
      splitMeasure rates (ofSplit .dev right) .dev := by
  simp only [splitMeasure, ofSplit_ofSplit, armMeasure, alike.count_eq]

theorem regression_alike {left right : List VerdictTrial} (alike : Alike left right) :
    ruleOutcome (measureStage rates .regression left) =
      ruleOutcome (measureStage rates .regression right) := by
  have lost : 0 < ((caseIdsOf left).filter (isLost left)).length ↔
      0 < ((caseIdsOf right).filter (isLost right)).length := by
    rw [flagged_iff (lost_tried left), flagged_iff (lost_tried right), alike.isLost_eq]
  have unsettled : 0 < ((caseIdsOf left).filter (isUnsettled left)).length ↔
      0 < ((caseIdsOf right).filter (isUnsettled right)).length := by
    rw [flagged_iff (unsettled_tried left), flagged_iff (unsettled_tried right),
      alike.isUnsettled_eq]
  simp only [measureStage, ruleOutcome]
  simp only [lost, unsettled]

theorem readStage_alike (stage : DraftEvaluationStage) {left right : List VerdictTrial}
    (alike : Alike (ofSplit .dev left) (ofSplit .dev right)) (rest : DraftEvaluationVerdict) :
    readStage rates stage (ofSplit .dev left) rest =
      readStage rates stage (ofSplit .dev right) rest := by
  unfold readStage
  rw [alike.length_eq, alike.tooMany_eq]
  cases stage with
  | regression =>
      have same := regression_alike rates alike
      simp only [measureStage] at same ⊢
      rw [same]
  | mechanism =>
      have same : measureStage rates .mechanism (ofSplit .dev left) =
          measureStage rates .mechanism (ofSplit .dev right) := by
        simp only [measureStage, armMeasure, alike.count_eq, alike.tries_eq]
      rw [same]
  | confirm =>
      simp only [measureStage]
      rw [measure_alike rates alike]

/-! ### The reading of the stages -/

theorem readOnDev_alike {left right : DraftEvaluationStage → List VerdictTrial}
    (alike : ∀ stage, Alike (ofSplit .dev (left stage)) (ofSplit .dev (right stage)))
    (stages : List DraftEvaluationStage) :
    readOnDev rates left stages = readOnDev rates right stages := by
  induction stages with
  | nil => rfl
  | cons stage stages ih =>
      rw [readOnDev_cons, readOnDev_cons, ih]
      exact readStage_alike rates stage (alike stage) _

theorem readOnDev_empty {stageTrials : DraftEvaluationStage → List VerdictTrial}
    {stages : List DraftEvaluationStage} (empty : ∀ stage ∈ stages, stageTrials stage = []) :
    readOnDev rates stageTrials stages = .inconclusive := by
  induction stages with
  | nil => rfl
  | cons stage stages ih =>
      rw [readOnDev_cons, empty stage List.mem_cons_self]
      exact ih fun other isIn => empty other (List.mem_cons_of_mem _ isIn)

/-- The stages that ran read as all of them, or do not decide. -/
theorem readOnDev_prefix {ran every : DraftEvaluationStage → List VerdictTrial}
    {before after : List DraftEvaluationStage} (same : ∀ stage ∈ before, ran stage = every stage)
    (none : ∀ stage ∈ after, ran stage = []) :
    readOnDev rates ran (before ++ after) =
        readOnDev rates every (before ++ after) ∨
      readOnDev rates ran (before ++ after) = .inconclusive := by
  induction before with
  | nil => exact .inr (readOnDev_empty rates none)
  | cons stage before ih =>
      have rest := ih fun other isIn => same other (List.mem_cons_of_mem _ isIn)
      rw [List.cons_append, readOnDev_cons, readOnDev_cons, same stage List.mem_cons_self]
      rcases readStage_cases rates stage (ofSplit .dev (every stage)) with
        passes | ⟨verdict, reads⟩
      · rw [passes, passes]
        exact rest
      · rw [reads, reads]
        exact .inl rfl

end

end NextTime.Eval
