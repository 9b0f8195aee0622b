import NextTime.Eval.DevReading
import NextTime.Eval.DraftEvaluation

/-
What the proposer is told of an evaluation: held-out trials and budgets can only keep it from
deciding.
-/

namespace NextTime.Eval

theorem stages_nodup : DRAFT_EVALUATION_STAGE_VALUES.Nodup := by decide

/-- The stages after one are those that stand behind it. -/
theorem stagesAfter_eq {before after : List DraftEvaluationStage} {stage : DraftEvaluationStage}
    (stages : DRAFT_EVALUATION_STAGE_VALUES = before ++ stage :: after) :
    stagesAfter stage = after := by
  have nodup := stages_nodup
  rw [stages] at nodup
  have first : stage ∉ before := by
    intro isIn
    exact (List.nodup_append.mp nodup).2.2 stage isIn stage List.mem_cons_self rfl
  rw [stagesAfter, stages, List.idxOf_append_of_notMem first, List.idxOf_cons_self, Nat.add_zero]
  rw [List.append_cons, List.drop_left' (by simp)]

/-! ### What a plan skips -/

/-- A stage a plan skips has no case, or is aimed at no mechanism. -/
def Skips (subject : Subject) (stage : DraftEvaluationStage) : Prop :=
  (stage = .mechanism ∧ subject.mechanism = none) ∨ subject.caseIds stage = []

theorem noting_run {plan : StagePlan} {note : DraftEvaluationStage × StageNote}
    {stage : DraftEvaluationStage} {caseIds : List String} {k : Nat} {estimateUsd : Option Rat}
    {notes : StageNotes} (runs : plan.noting note = .run stage caseIds k estimateUsd notes) :
    ∃ rest, plan = .run stage caseIds k estimateUsd rest := by
  cases plan with
  | run => cases runs; exact ⟨_, rfl⟩
  | ends => cases runs

/-- The stages before the one that runs are skipped. -/
theorem planFrom_run {subject : Subject} {budget : EvalBudget}
    {stages : List DraftEvaluationStage} {next : DraftEvaluationStage} {caseIds : List String}
    {k : Nat} {estimateUsd : Option Rat} {notes : StageNotes}
    (runs : planFrom subject budget stages = .run next caseIds k estimateUsd notes) :
    ∃ skipped after,
      stages = skipped ++ next :: after ∧ ∀ stage ∈ skipped, Skips subject stage := by
  induction stages generalizing notes with
  | nil => cases runs
  | cons stage stages ih =>
      have skip : Skips subject stage →
          (∃ rest, planFrom subject budget stages = .run next caseIds k estimateUsd rest) →
          ∃ skipped after, stage :: stages = skipped ++ next :: after ∧
            ∀ stage ∈ skipped, Skips subject stage := by
        intro skips ⟨rest, later⟩
        obtain ⟨skipped, after, split, skipsAll⟩ := ih later
        refine ⟨stage :: skipped, after, congrArg (stage :: ·) split, ?_⟩
        intro other isIn
        rcases List.mem_cons.mp isIn with same | isIn
        · exact same ▸ skips
        · exact skipsAll other isIn
      simp only [planFrom] at runs
      split at runs
      next noMechanism => exact skip (.inl noMechanism) (noting_run runs)
      next =>
        split at runs
        next noCases => exact skip (.inr (List.eq_nil_of_length_eq_zero noCases)) (noting_run runs)
        next =>
          split at runs
          next => cases runs
          next =>
            cases runs
            exact ⟨[], stages, rfl, fun _ isIn => nomatch isIn⟩

/-- A stage that is skipped gives no trial. -/
theorem DraftEvaluation.trials_of_skips (evaluation : DraftEvaluation)
    {stage : DraftEvaluationStage} (skips : Skips evaluation.toSubject stage) :
    evaluation.trials stage = [] := by
  have noCases : evaluation.caseIds stage = [] := by
    rcases skips with ⟨isMechanism, without⟩ | noCases
    · rw [isMechanism]
      exact evaluation.aimed without
    · exact noCases
  apply List.eq_nil_iff_forall_not_mem.mpr
  intro trial isIn
  have isCase := evaluation.ofCases stage trial isIn
  rw [noCases] at isCase
  cases isCase

/-! ### What a run keeps -/

section
variable (rates : Rates) (evaluation : DraftEvaluation)

/-- The stages up to some one ran, those without trials apart, and none after it. -/
structure RanUpTo (ran : List DraftEvaluationStage) (before after : List DraftEvaluationStage) :
    Prop where
  stages : DRAFT_EVALUATION_STAGE_VALUES = before ++ after
  before : ∀ stage ∈ before, stage ∈ ran ∨ evaluation.trials stage = []
  after : ∀ stage ∈ after, stage ∉ ran

/-- The stage that runs is the last that ran, and a verdict's reading is that of what ran. -/
def Sound (state : EvaluationState) : Prop :=
  match state.status with
  | .running stage => ∃ earlier after, RanUpTo evaluation state.ran (earlier ++ [stage]) after
  | .finished verdict _ _ devVerdict =>
      ∃ before after, RanUpTo evaluation state.ran before after ∧
        devVerdict = devVerdictOf rates verdict (byStage evaluation state)

theorem ranUpTo_next {ran before skipped later : List DraftEvaluationStage}
    {next : DraftEvaluationStage}
    (upTo : RanUpTo evaluation ran before (skipped ++ next :: later))
    (skips : ∀ stage ∈ skipped, Skips evaluation.toSubject stage) :
    RanUpTo evaluation (ran ++ [next]) (before ++ skipped ++ [next]) later := by
  constructor
  · rw [upTo.stages]
    simp only [List.append_assoc, List.cons_append, List.nil_append]
  · intro stage isIn
    rcases List.mem_append.mp isIn with isBefore | isNext
    · rcases List.mem_append.mp isBefore with isBefore | isSkipped
      · exact (upTo.before stage isBefore).imp (List.mem_append_left _) id
      · exact .inr (evaluation.trials_of_skips (skips stage isSkipped))
    · exact .inl (List.mem_append_right _ isNext)
  · intro stage isIn isRan
    rcases List.mem_append.mp isRan with isRan | isNext
    · exact upTo.after stage (List.mem_append_right _ (List.mem_cons_of_mem _ isIn)) isRan
    · have nodup := stages_nodup
      rw [upTo.stages] at nodup
      have behind := (List.nodup_append.mp (List.nodup_append.mp nodup).2.1).2.1
      rw [List.mem_singleton.mp isNext] at isIn
      exact (List.nodup_cons.mp behind).1 isIn

theorem sound_start {budget : EvalBudget} {state : EvaluationState}
    (starts : startDraftEvaluation evaluation budget = some state) :
    Sound rates evaluation state := by
  unfold startDraftEvaluation at starts
  cases runs : planFrom evaluation.toSubject budget DRAFT_EVALUATION_STAGE_VALUES with
  | ends =>
      rw [runs] at starts
      cases starts
  | run next _ _ _ notes =>
      rw [runs] at starts
      cases starts
      obtain ⟨skipped, later, split, skips⟩ := planFrom_run runs
      have none : RanUpTo evaluation [] [] (skipped ++ next :: later) :=
        ⟨split, fun _ isIn => (nomatch isIn), fun _ _ isIn => (nomatch isIn)⟩
      exact ⟨skipped, later, ranUpTo_next evaluation none skips⟩

theorem sound_settle {budget : EvalBudget} {runStage : DraftEvaluationStage}
    {state : EvaluationState} (sound : Sound rates evaluation state) :
    Sound rates evaluation
      (settleDraftStage rates evaluation budget runStage state) := by
  have kept := sound
  unfold settleDraftStage
  unfold Sound at sound
  split
  next => exact kept
  next stage status =>
    rw [status] at sound
    obtain ⟨earlier, after, upTo⟩ := sound
    have finishes : ∀ verdict reason decidedBy notes,
        Sound rates evaluation
          (finishEvaluation rates evaluation state verdict reason decidedBy
            notes) :=
      fun _ _ _ _ => ⟨earlier ++ [stage], after, upTo, rfl⟩
    split
    next => exact kept
    next =>
      dsimp only
      cases stageOutcome rates stage (evaluation.trials stage)
        (state.ran.flatMap evaluation.trials) with
      | decided verdict reason => exact finishes verdict reason stage []
      | passed =>
          have stages : DRAFT_EVALUATION_STAGE_VALUES = earlier ++ stage :: after := by
            rw [upTo.stages, List.append_assoc]
            rfl
          rw [stagesAfter_eq stages]
          cases runs : planFrom evaluation.toSubject budget after with
          | ends reason decidedBy _ notes => exact finishes .inconclusive reason decidedBy notes
          | run next _ _ _ notes =>
              obtain ⟨skipped, later, split, skips⟩ := planFrom_run runs
              rw [split] at upTo
              exact ⟨earlier ++ [stage] ++ skipped, later, ranUpTo_next evaluation upTo skips⟩

theorem sound_of_reachable {state : EvaluationState}
    (reached : (evaluationSystem rates evaluation).Reachable state) :
    Sound rates evaluation state := by
  obtain ⟨start, labels, ⟨budget, starts⟩, ran⟩ := reached
  apply LabelledRun.System.run_preserves _ _ (sound_start rates evaluation starts) ran
  intro state settling next sound moved
  cases moved
  exact sound_settle rates evaluation sound

/-- A decided evaluation's reading is that of all its stages, or does not decide. -/
theorem devVerdict_reads {state : EvaluationState} {verdict devVerdict : DraftEvaluationVerdict}
    {reason : DraftEvaluationReason} {decidedBy : DraftEvaluationStage}
    (reached : (evaluationSystem rates evaluation).Reachable state)
    (finished : state.status = .finished verdict reason decidedBy devVerdict)
    (measured : verdict ≠ .unmeasured) (clean : verdict ≠ .contaminated) :
    devVerdict =
        readOnDev rates evaluation.trials DRAFT_EVALUATION_STAGE_VALUES ∨
      devVerdict = .inconclusive := by
  have sound := sound_of_reachable rates evaluation reached
  unfold Sound at sound
  rw [finished] at sound
  obtain ⟨before, after, upTo, reads⟩ := sound
  rw [reads, devVerdictOf, if_neg measured, if_neg clean, upTo.stages]
  apply readOnDev_prefix
  · intro stage isIn
    unfold byStage
    rcases upTo.before stage isIn with isRan | none
    · exact if_pos isRan
    · rw [none]
      exact ite_self _
  · intro stage isIn
    exact if_neg (upTo.after stage isIn)

end

/-- Two evaluations with the same dev trials, whatever their held-out trials and budgets: the
proposer is told the same, or one of them decides nothing. -/
theorem devVerdict_equal_or_silent (rates : Rates)
    (left right : DraftEvaluation)
    (alike : ∀ stage, Alike (ofSplit .dev (left.trials stage)) (ofSplit .dev (right.trials stage)))
    {leftState rightState : EvaluationState}
    (leftReached : (evaluationSystem rates left).Reachable leftState)
    (rightReached : (evaluationSystem rates right).Reachable rightState)
    {leftVerdict rightVerdict leftDev rightDev : DraftEvaluationVerdict}
    {leftReason rightReason : DraftEvaluationReason} {leftBy rightBy : DraftEvaluationStage}
    (leftFinished : leftState.status = .finished leftVerdict leftReason leftBy leftDev)
    (rightFinished : rightState.status = .finished rightVerdict rightReason rightBy rightDev)
    (leftMeasured : leftVerdict ≠ .unmeasured ∧ leftVerdict ≠ .contaminated)
    (rightMeasured : rightVerdict ≠ .unmeasured ∧ rightVerdict ≠ .contaminated) :
    leftDev = rightDev ∨ leftDev = .inconclusive ∨ rightDev = .inconclusive := by
  rcases devVerdict_reads rates left leftReached leftFinished leftMeasured.1
    leftMeasured.2 with leftReads | leftSilent
  · rcases devVerdict_reads rates right rightReached rightFinished rightMeasured.1
      rightMeasured.2 with rightReads | rightSilent
    · left
      rw [leftReads, rightReads]
      exact readOnDev_alike rates alike _
    · exact .inr (.inr rightSilent)
  · exact .inr (.inl leftSilent)

/-- A scored try of the split's one case. -/
def heldTry (arm : EvalArm) (split : EvalCaseSplit) (passed : Bool) : VerdictTrial :=
  ⟨arm, if split = .dev then "import" else "export", split, .scored, passed, none, false,
    some "digest"⟩

/-- A regression that the candidate passes on the dev case, and a confirmation that it fails there;
of the case held out only the regression's try differs. -/
def confirmed (heldOut : Bool) : DraftEvaluation where
  mechanism := none
  caseIds
    | .mechanism => []
    | _ => ["import", "export"]
  trials
    | .regression =>
        [heldTry .baseline .dev true, heldTry .candidate .dev true,
          heldTry .baseline .holdout true, heldTry .candidate .holdout heldOut]
    | .mechanism => []
    | .confirm =>
        [heldTry .baseline .dev true, heldTry .candidate .dev false,
          heldTry .baseline .holdout true, heldTry .candidate .holdout true]
  ofCases := by
    intro stage
    cases stage <;> cases heldOut <;> decide
  aimed := fun _ => rfl

def confirmedRates : Rates := exactRates fun _ _ _ _ => 0

def lavish : EvalBudget := ⟨10, 0, none, 0⟩

/-- The regression stage's run, as it was started. -/
def regressionRan : EvaluationState :=
  ⟨[.regression], .running .regression, [(.regression, ⟨none, none⟩)]⟩

/-- The confirmation's, behind it. -/
def confirmRan : EvaluationState :=
  ⟨[.regression, .confirm], .running .confirm,
    [(.regression, ⟨none, none⟩), (.mechanism, ⟨some .no_mechanism, none⟩),
      (.confirm, ⟨none, none⟩)]⟩

theorem confirmed_reaches : (evaluationSystem confirmedRates (confirmed true)).Reachable
    (settleDraftStage confirmedRates (confirmed true) lavish .confirm confirmRan) :=
  ⟨regressionRan, [⟨.regression, lavish⟩, ⟨.confirm, lavish⟩], ⟨lavish, rfl⟩, rfl⟩

theorem heldOut_reaches : (evaluationSystem confirmedRates (confirmed false)).Reachable
    (settleDraftStage confirmedRates (confirmed false) lavish .regression regressionRan) :=
  ⟨regressionRan, [⟨.regression, lavish⟩], ⟨lavish, rfl⟩, rfl⟩

/-- What the proposer is told where the held-out case is kept, and where it is lost. -/
def toldKept : DraftEvaluationVerdict :=
  devVerdictOf confirmedRates .worse (byStage (confirmed true) confirmRan)

def toldLost : DraftEvaluationVerdict :=
  devVerdictOf confirmedRates .regressed (byStage (confirmed false) regressionRan)

theorem devVerdict_equal_or_silent_heldOut :
    toldKept = toldLost ∨ toldKept = .inconclusive ∨ toldLost = .inconclusive := by
  have alike : ∀ stage, Alike (ofSplit .dev ((confirmed true).trials stage))
      (ofSplit .dev ((confirmed false).trials stage)) := by
    intro stage
    cases stage <;> exact List.Perm.refl _
  have kept : (settleDraftStage confirmedRates (confirmed true) lavish .confirm
      confirmRan).status = .finished .worse .below_margin .confirm toldKept := by decide +kernel
  have lost : (settleDraftStage confirmedRates (confirmed false) lavish .regression
      regressionRan).status = .finished .regressed .regression_case_lost .regression toldLost := rfl
  exact devVerdict_equal_or_silent _ (confirmed true) (confirmed false) alike confirmed_reaches
    heldOut_reaches kept lost (by decide) (by decide)

-- The held-out case silences the second.
example : toldKept = .worse ∧ toldLost = .inconclusive := by decide +kernel

end NextTime.Eval
