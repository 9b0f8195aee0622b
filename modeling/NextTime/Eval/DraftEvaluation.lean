import NextTime.Eval.Verdict
import NextTime.Library.LabelledRun

/-
A draft's evaluation, stage by stage: which stage runs next, and what ends it. What the trials of
each stage would end with is fixed beforehand; a stage's run makes them the evaluation's.
-/

namespace NextTime.Eval

/-! ### The stage plan -/

/-- Tries of each of a stage's cases, per arm. -/
def draftEvaluationStageK (stage : DraftEvaluationStage) (caseCount : Nat) : Nat :=
  if caseCount = 0 then 0
  else
    match stage with
    | .regression => 2
    | .mechanism => (10 + caseCount - 1) / caseCount
    | .confirm => 3

def draftEvaluationStageTrials (stage : DraftEvaluationStage) (caseCount : Nat) : Nat :=
  2 * caseCount * draftEvaluationStageK stage caseCount

structure EvalBudget where
  monthlyBudgetUsd : Rat
  spentUsd : Rat
  trialCostUsd : Option Rat
  committedUsd : Rat

def estimateStage (stage : DraftEvaluationStage) (caseCount : Nat) (budget : EvalBudget) :
    Option Rat :=
  budget.trialCostUsd.map fun cost => draftEvaluationStageTrials stage caseCount * cost

def budgetCovers (budget : EvalBudget) (estimateUsd : Option Rat) : Bool :=
  if budget.monthlyBudgetUsd ≤ budget.spentUsd then false
  else
    match estimateUsd with
    | none => true
    | some estimateUsd =>
        decide (budget.spentUsd + budget.committedUsd + estimateUsd ≤
          budget.monthlyBudgetUsd + 1 / 1000000000)

inductive DraftEvaluationSkip
  | no_mechanism
  | no_cases
  | budget
deriving DecidableEq

structure StageNote where
  skip : Option DraftEvaluationSkip
  estimateUsd : Option Rat

abbrev StageNotes := List (DraftEvaluationStage × StageNote)

/-- `ends` is the source's `end`. -/
inductive StagePlan
  | run (stage : DraftEvaluationStage) (caseIds : List String) (k : Nat) (estimateUsd : Option Rat)
      (notes : StageNotes)
  | ends (reason : DraftEvaluationReason) (decidedBy : DraftEvaluationStage)
      (estimateUsd : Option Rat) (notes : StageNotes)

def StagePlan.noting (note : DraftEvaluationStage × StageNote) : StagePlan → StagePlan
  | .run stage caseIds k estimateUsd notes => .run stage caseIds k estimateUsd (note :: notes)
  | .ends reason decidedBy estimateUsd notes => .ends reason decidedBy estimateUsd (note :: notes)

/-- What of an evaluation its plan reads. -/
structure Subject where
  mechanism : Option String
  caseIds : DraftEvaluationStage → List String

/-- The stage to run, of those that are left. -/
def planFrom (subject : Subject) (budget : EvalBudget) : List DraftEvaluationStage → StagePlan
  | [] => .ends .no_confirm_cases .confirm none []
  | stage :: stages =>
      let caseIds := subject.caseIds stage
      if stage = .mechanism ∧ subject.mechanism = none then
        (planFrom subject budget stages).noting (stage, ⟨some .no_mechanism, none⟩)
      else if caseIds.length = 0 then
        (planFrom subject budget stages).noting (stage, ⟨some .no_cases, none⟩)
      else
        let estimateUsd := estimateStage stage caseIds.length budget
        if !budgetCovers budget estimateUsd then
          .ends .budget stage estimateUsd [(stage, ⟨some .budget, estimateUsd⟩)]
        else
          .run stage caseIds (draftEvaluationStageK stage caseIds.length) estimateUsd
            [(stage, ⟨none, estimateUsd⟩)]

/-! ### An evaluation -/

/-- An evaluation as it was started, and the ended trials each stage gives should it run. -/
structure DraftEvaluation extends Subject where
  trials : DraftEvaluationStage → List VerdictTrial
  /-- A stage tries its own cases. -/
  ofCases : ∀ stage, ∀ trial ∈ trials stage, trial.caseId ∈ caseIds stage
  /-- Without a mechanism no case is aimed at one. -/
  aimed : mechanism = none → caseIds .mechanism = []

inductive EvaluationStatus
  | running (stage : DraftEvaluationStage)
  | finished (verdict : DraftEvaluationVerdict) (reason : DraftEvaluationReason)
      (decidedBy : DraftEvaluationStage) (devVerdict : DraftEvaluationVerdict)
deriving DecidableEq

/-- The stages that have a run, and where the evaluation is. -/
structure EvaluationState where
  ran : List DraftEvaluationStage
  status : EvaluationStatus
  notes : StageNotes

section
variable (rates : Rates) (evaluation : DraftEvaluation)

/-- The trials of each stage that ran. -/
def byStage (state : EvaluationState) (stage : DraftEvaluationStage) : List VerdictTrial :=
  if stage ∈ state.ran then evaluation.trials stage else []

def startStageRun (state : EvaluationState) (stage : DraftEvaluationStage) (notes : StageNotes) :
    EvaluationState :=
  ⟨state.ran ++ [stage], .running stage, state.notes ++ notes⟩

/-- None where nothing is written: no stage has cases, or the budget does not cover the first. -/
def startDraftEvaluation (budget : EvalBudget) : Option EvaluationState :=
  match planFrom evaluation.toSubject budget DRAFT_EVALUATION_STAGE_VALUES with
  | .run stage _ _ _ notes => some ⟨[stage], .running stage, notes⟩
  | .ends _ _ _ _ => none

def finishEvaluation (state : EvaluationState) (verdict : DraftEvaluationVerdict)
    (reason : DraftEvaluationReason) (decidedBy : DraftEvaluationStage) (notes : StageNotes) :
    EvaluationState :=
  { state with
    status := .finished verdict reason decidedBy
      (devVerdictOf rates verdict (byStage evaluation state))
    notes := state.notes ++ notes }

/-- `STAGES.slice(STAGES.indexOf(stage) + 1)`. -/
def stagesAfter (stage : DraftEvaluationStage) : List DraftEvaluationStage :=
  DRAFT_EVALUATION_STAGE_VALUES.drop (DRAFT_EVALUATION_STAGE_VALUES.idxOf stage + 1)

/-- After the run of the stage finished. -/
def settleDraftStage (budget : EvalBudget) (runStage : DraftEvaluationStage)
    (state : EvaluationState) : EvaluationState :=
  match state.status with
  | .finished _ _ _ _ => state
  | .running stage =>
      if stage ≠ runStage then state
      else
        let trials := state.ran.flatMap evaluation.trials
        match stageOutcome rates stage (evaluation.trials stage) trials with
        | .decided verdict reason =>
            finishEvaluation rates evaluation state verdict reason stage []
        | .passed =>
            match planFrom evaluation.toSubject budget (stagesAfter stage) with
            | .ends reason decidedBy _ notes =>
                finishEvaluation rates evaluation state .inconclusive reason
                  decidedBy notes
            | .run next _ _ _ notes => startStageRun state next notes

/-- A run of a stage that finished, and the budget at that moment. -/
structure Settling where
  runStage : DraftEvaluationStage
  budget : EvalBudget

def evaluationSystem : LabelledRun.System EvaluationState Settling where
  initial state := ∃ budget, startDraftEvaluation evaluation budget = some state
  step state settling :=
    some (settleDraftStage rates evaluation settling.budget settling.runStage state)

end

end NextTime.Eval
