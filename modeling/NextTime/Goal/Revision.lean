import NextTime.Goal.GoalRun

/-
A revision of the plan: which StepRuns it keeps and which it supersedes, and what
adopting it changes.
-/

namespace NextTime.Goal

inductive StepSplit
  | kept
  | superseded
  | history
deriving DecidableEq, Repr

/-- `splitSteps` for one StepRun that is not superseded; none is the refusal of a
changed definition under the key of a step that ended. -/
def splitStep (goal : GoalRun) (plan : GoalPlan) (step : StepRun) : Option StepSplit :=
  if samePlanEntry (goal.plans step.introducedInRevision) (some plan) step.stepKey then some .kept
  else if endedStepStatus step.status then
    if (planStep plan step.stepKey).isSome then none else some .history
  else some .superseded

/-- No live StepRun refuses the plan. -/
def splitAccepted (goal : GoalRun) (plan : GoalPlan) : Bool :=
  goal.liveSteps.all fun step => (splitStep goal plan step).isSome

def splitSuperseded (goal : GoalRun) (plan : GoalPlan) (step : StepRun) : Bool :=
  step.status != .superseded && splitStep goal plan step == some .superseded

/-- The keys the plan keeps on their existing StepRun. -/
def keptKeys (goal : GoalRun) (plan : GoalPlan) : List String :=
  (goal.liveSteps.filter fun step => splitStep goal plan step == some .kept).map (·.stepKey)

/-- The StepRuns of the keys the plan adds or changes. -/
def createdSteps (goal : GoalRun) (plan : GoalPlan) (revision : Nat) : List StepRun :=
  (plan.steps.filter fun entry => !(keptKeys goal plan).contains entry.key).mapIdx
    fun index entry =>
      { id := goal.stepRuns.length + index
        stepKey := entry.key
        introducedInRevision := revision
        supersededInRevision := none
        status := .pending
        waitingReason := none
        failureCategory := none
        attemptCount := 0 }

/-- The row of a StepRun the revision supersedes; any other row stays. -/
def supersedeIn (goal : GoalRun) (plan : GoalPlan) (revision : Nat) (step : StepRun) : StepRun :=
  if splitSuperseded goal plan step then
    (step.move .supersede none none (some revision)).getD step
  else step

/-- `adoptRevision` under the GoalRun's and the StepRuns' locks. -/
def adoptRevision (goal : GoalRun) (plan : GoalPlan) (revision : Nat) (keep : List Nat)
    (now : Int) : Option GoalRun :=
  if splitAccepted goal plan && (goal.plans revision).isNone then
    some
      { goal with
        currentRevision := revision
        plans := fun other => if other = revision then some plan else goal.plans other
        updatedAt := now
        stepRuns := goal.stepRuns.map (supersedeIn goal plan revision) ++
          createdSteps goal plan revision
        actions := withdrawStepActions goal.actions
          ((goal.stepRuns.filter (splitSuperseded goal plan)).map (·.id)) keep
        history := goal.history ++ [.revised revision] }
  else none

end NextTime.Goal
