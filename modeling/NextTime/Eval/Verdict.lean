import Mathlib.Data.List.Dedup
import Mathlib.Data.Rat.Defs

/-
How a stage of a draft's evaluation reads its trials: what it measures, what its rule says of
that, and what the proposer is told. What doubles make of the rates of the arms, their difference
and its lower bound, is a parameter.
-/

namespace NextTime.Eval

inductive EvalArm
  | baseline
  | candidate
deriving DecidableEq

inductive EvalCaseSplit
  | dev
  | holdout
deriving DecidableEq

inductive TrialStatus
  | queued
  | running
  | scored
  | errored
deriving DecidableEq

structure VerdictTrial where
  arm : EvalArm
  caseId : String
  split : EvalCaseSplit
  status : TrialStatus
  passed : Bool
  error : Option String
  reportedCanary : Bool
  environmentDigest : Option String
deriving DecidableEq

inductive DraftEvaluationStage
  | regression
  | mechanism
  | confirm
deriving DecidableEq

inductive DraftEvaluationVerdict
  | regressed
  | refuted
  | worse
  | better
  | non_inferior
  | inconclusive
  | contaminated
  | unmeasured
deriving DecidableEq

inductive DraftEvaluationReason
  | regression_case_lost
  | mechanism_not_shown
  | below_margin
  | above_baseline
  | within_margin
  | errored_trials
  | too_few_trials
  | no_holdout_cases
  | holdout_disagrees
  | content_withheld
  | canary_reported
  | environment_unknown
  | environment_differs
  | budget
  | no_confirm_cases
deriving DecidableEq

inductive StageOutcome
  | passed
  | decided (verdict : DraftEvaluationVerdict) (reason : DraftEvaluationReason)
deriving DecidableEq

/-! ### The rules' numbers -/

def DRAFT_EVALUATION_FAILING_ERRORS : List String := ["timeout", "no_result", "budget_exhausted"]

/-- `delta`, the double of 0.1. -/
def DELTA : Rat := 3602879701896397 / 36028797018963968

/-- `Math.floor(mechanismBaselineMaxShare * baselineTries + 1e-9)`, in billionths. -/
def mechanismBaselineMaxPassed (baselineTries : Nat) : Nat :=
  (400000000 * baselineTries + 1) / 1000000000

/-! ### Reading a trial -/

def trialHasOutcome (trial : VerdictTrial) : Bool :=
  match trial.status with
  | .scored => true
  | .errored =>
      match trial.error with
      | some error => DRAFT_EVALUATION_FAILING_ERRORS.contains error
      | none => false
  | _ => false

inductive TrialReading
  | passed
  | failed
  | none
deriving DecidableEq

def readingOf (trial : VerdictTrial) : TrialReading :=
  if !trialHasOutcome trial then .none
  else if trial.status = .scored && trial.passed then .passed
  else .failed

structure Counts where
  passed : Nat
  failed : Nat
  none : Nat

/-- How many trials read so. -/
def countOf (reading : TrialReading) (trials : List VerdictTrial) : Nat :=
  trials.countP fun trial => readingOf trial = reading

def count (trials : List VerdictTrial) : Counts :=
  ⟨countOf .passed trials, countOf .failed trials, countOf .none trials⟩

def ofArm (arm : EvalArm) (trials : List VerdictTrial) : List VerdictTrial :=
  trials.filter fun trial => trial.arm = arm

def ofCase (caseId : String) (trials : List VerdictTrial) : List VerdictTrial :=
  trials.filter fun trial => trial.caseId = caseId

def ofSplit (split : EvalCaseSplit) (trials : List VerdictTrial) : List VerdictTrial :=
  trials.filter fun trial => trial.split = split

/-! ### What a stage measured -/

structure ArmMeasure where
  passed : Nat
  trials : Nat
  noOutcome : Nat

structure SplitMeasure where
  candidate : ArmMeasure
  baseline : ArmMeasure
  difference : Option Rat
  lowerBound : Option Rat

inductive Measure
  | regression (lostCaseIds unsettledCaseIds : List String)
  | mechanism (candidate baseline : ArmMeasure) (baselineMaxPassed : Nat)
  | confirm (dev : SplitMeasure) (holdout : Option SplitMeasure)

def armMeasure (trials : List VerdictTrial) : ArmMeasure :=
  let counts := count trials
  ⟨counts.passed, counts.passed + counts.failed, counts.none⟩

/-- A case is lost even had each candidate try without an outcome passed. -/
def isLost (trials : List VerdictTrial) (caseId : String) : Bool :=
  let candidate := count (ofArm .candidate (ofCase caseId trials))
  let baseline := count (ofArm .baseline (ofCase caseId trials))
  candidate.passed + candidate.none < baseline.passed

/-- A case that is not lost, and not held had each baseline try without an outcome passed. -/
def isUnsettled (trials : List VerdictTrial) (caseId : String) : Bool :=
  let candidate := count (ofArm .candidate (ofCase caseId trials))
  let baseline := count (ofArm .baseline (ofCase caseId trials))
  !isLost trials caseId && decide (candidate.passed < baseline.passed + baseline.none)

/-- The cases in the order their first trial stands. -/
def caseIdsOf (trials : List VerdictTrial) : List String :=
  (trials.map VerdictTrial.caseId).eraseDups

/-- The difference of the rates and its lower bound, each a double, of the passes and tries of the
candidate and of the baseline. -/
structure Rates where
  difference : Nat → Nat → Nat → Nat → Rat
  differenceLowerBound : Nat → Nat → Nat → Nat → Rat

/-- Where the difference is an exact fraction. -/
def exactRates (differenceLowerBound : Nat → Nat → Nat → Nat → Rat) : Rates where
  difference candidatePassed candidateTrials baselinePassed baselineTrials :=
    (candidatePassed : Rat) / candidateTrials - (baselinePassed : Rat) / baselineTrials
  differenceLowerBound := differenceLowerBound

section
variable (rates : Rates)

def splitMeasure (trials : List VerdictTrial) (split : EvalCaseSplit) : SplitMeasure :=
  let candidate := armMeasure (ofArm .candidate (ofSplit split trials))
  let baseline := armMeasure (ofArm .baseline (ofSplit split trials))
  let measurable := 0 < candidate.trials ∧ 0 < baseline.trials
  { candidate := candidate
    baseline := baseline
    difference :=
      if measurable then
        some (rates.difference candidate.passed candidate.trials baseline.passed baseline.trials)
      else none
    lowerBound :=
      if measurable then
        some
          (rates.differenceLowerBound candidate.passed candidate.trials baseline.passed
            baseline.trials)
      else none }

def measureStage (stage : DraftEvaluationStage) (trials : List VerdictTrial) : Measure :=
  match stage with
  | .regression =>
      .regression ((caseIdsOf trials).filter (isLost trials))
        ((caseIdsOf trials).filter (isUnsettled trials))
  | .mechanism =>
      .mechanism (armMeasure (ofArm .candidate trials)) (armMeasure (ofArm .baseline trials))
        (mechanismBaselineMaxPassed (ofArm .baseline trials).length)
  | .confirm =>
      .confirm (splitMeasure rates trials .dev)
        (if trials.any fun trial => trial.split = .holdout then
          some (splitMeasure rates trials .holdout)
        else none)

/-! ### The rules -/

def confirmOnDev (dev : SplitMeasure) : DraftEvaluationVerdict :=
  match dev.difference, dev.lowerBound with
  | some difference, some lowerBound =>
      if difference < -DELTA then .worse
      else if 0 < lowerBound then .better
      else if -DELTA < lowerBound then .non_inferior
      else .inconclusive
  | _, _ => .inconclusive

/-- Whether more than a quarter of the arm's trials have no outcome. -/
def armWithoutOutcome (trials : List VerdictTrial) (arm : EvalArm) : Bool :=
  let armTrials := ofArm arm trials
  decide (0 < armTrials.length) && decide (armTrials.length < 4 * (count armTrials).none)

def tooManyWithoutOutcome (trials : List VerdictTrial) : Bool :=
  armWithoutOutcome trials .baseline || armWithoutOutcome trials .candidate

def ruleOutcome : Measure → StageOutcome
  | .regression lostCaseIds unsettledCaseIds =>
      if 0 < lostCaseIds.length then .decided .regressed .regression_case_lost
      else if 0 < unsettledCaseIds.length then .decided .inconclusive .errored_trials
      else .passed
  | .mechanism candidate baseline baselineMaxPassed =>
      if candidate.trials + candidate.noOutcome = 0 then .decided .inconclusive .too_few_trials
      else if candidate.passed < candidate.trials ∨ baselineMaxPassed < baseline.passed then
        .decided .refuted .mechanism_not_shown
      else if candidate.noOutcome = 0 ∧
          baseline.passed + baseline.noOutcome ≤ baselineMaxPassed then .passed
      else .decided .inconclusive .errored_trials
  | .confirm dev holdout =>
      let leaning := confirmOnDev dev
      if leaning = .worse then .decided .worse .below_margin
      else if leaning = .inconclusive then .decided .inconclusive .too_few_trials
      else
        match holdout.bind SplitMeasure.difference with
        | none => .decided .inconclusive .no_holdout_cases
        | some difference =>
            if leaning = .better then
              if 0 ≤ difference then .decided .better .above_baseline
              else .decided .inconclusive .holdout_disagrees
            else if -DELTA ≤ difference then .decided .non_inferior .within_margin
            else .decided .inconclusive .holdout_disagrees

def isScored (trial : VerdictTrial) : Bool := trial.status = .scored

/-- The outcome of a stage whose trials have all ended; environments are compared across all ended
trials of the evaluation. -/
def stageOutcome (stage : DraftEvaluationStage) (stageTrials evaluationTrials : List VerdictTrial) :
    StageOutcome :=
  let environments := (evaluationTrials.filter isScored).map VerdictTrial.environmentDigest
  if stageTrials.any fun trial => trial.status = .errored && trial.error = some "withheld" then
    .decided .contaminated .content_withheld
  else if stageTrials.any VerdictTrial.reportedCanary then .decided .contaminated .canary_reported
  else if environments.contains none then .decided .unmeasured .environment_unknown
  else if 1 < environments.eraseDups.length then .decided .unmeasured .environment_differs
  else if tooManyWithoutOutcome stageTrials then .decided .inconclusive .errored_trials
  else ruleOutcome (measureStage rates stage stageTrials)

def DRAFT_EVALUATION_STAGE_VALUES : List DraftEvaluationStage := [.regression, .mechanism, .confirm]

/-- The stages left, read on their `dev` trials; reaching the end does not decide. -/
def readOnDev (stageTrials : DraftEvaluationStage → List VerdictTrial) :
    List DraftEvaluationStage → DraftEvaluationVerdict
  | [] => .inconclusive
  | stage :: stages =>
      let dev := ofSplit .dev (stageTrials stage)
      if dev.length = 0 then readOnDev stageTrials stages
      else if tooManyWithoutOutcome dev then .inconclusive
      else
        match measureStage rates stage dev with
        | .confirm measured _ => confirmOnDev measured
        | measure =>
            match ruleOutcome measure with
            | .passed => readOnDev stageTrials stages
            | .decided verdict _ =>
                if verdict = .regressed ∨ verdict = .refuted then verdict else .inconclusive

/-- What the proposer is told; a stage that did not run has no trials. -/
def devVerdictOf (verdict : DraftEvaluationVerdict)
    (stageTrials : DraftEvaluationStage → List VerdictTrial) : DraftEvaluationVerdict :=
  if verdict = .unmeasured then .unmeasured
  else if verdict = .contaminated then .inconclusive
  else readOnDev rates stageTrials DRAFT_EVALUATION_STAGE_VALUES

/-! ### The cases to acknowledge -/

/-- The rate of the tries with an outcome, as an exact fraction. -/
def rate (dev : List VerdictTrial) (caseId : String) (arm : EvalArm) : Option Rat :=
  let counts := count (ofArm arm (ofCase caseId dev))
  let tries := counts.passed + counts.failed
  if tries = 0 then none else some ((counts.passed : Rat) / tries)

def isLower (dev : List VerdictTrial) (caseId : String) : Bool :=
  match rate dev caseId .candidate, rate dev caseId .baseline with
  | some candidate, some baseline => candidate < baseline
  | _, _ => false

def casesToAcknowledge (verdict : DraftEvaluationVerdict) (caseIds : List String)
    (trials : List VerdictTrial) : List String :=
  match verdict with
  | .regressed =>
      match measureStage rates .regression trials with
      | .regression lostCaseIds _ => caseIds.filter fun caseId => lostCaseIds.contains caseId
      | _ => []
  | .worse =>
      let dev := ofSplit .dev trials
      let devCaseIds := caseIds.filter fun caseId => dev.any fun trial => trial.caseId = caseId
      let lower := devCaseIds.filter (isLower dev)
      if 0 < lower.length then lower
      else
        devCaseIds.filter fun caseId =>
          dev.any fun trial =>
            trial.caseId = caseId && trial.arm = .candidate && readingOf trial = .failed
  | _ => []

end

end NextTime.Eval
