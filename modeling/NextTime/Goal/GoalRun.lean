import NextTime.Goal.StepRun

/-
One goal run: its rows, and the moves every writer under its lock makes of them.
An advance holds the lock while it works; what it has read and where it stands
are part of the state, so that everything else can happen in between.
-/

namespace NextTime.Goal

inductive GoalAcceptanceCheckStatus
  | pending
  | passed
  | failed
  | unavailable
  | superseded
deriving DecidableEq, Repr

structure AcceptanceCheckRow where
  check : AcceptanceCheck
  status : GoalAcceptanceCheckStatus
deriving DecidableEq, Repr

/-- The rows of one verification round, all of them opened together. -/
structure AcceptanceRound where
  round : Nat
  planRevision : Nat
  createdAt : Int
  checks : List AcceptanceCheckRow
deriving DecidableEq, Repr

/-- What happened to the run's plan, steps and rounds, in order. -/
inductive RunEvent
  | revised (revision : Nat)
  | restarted (stepRun : Nat)
  | roundOpened (round : Nat) (live : List StepRunStatus)
deriving DecidableEq, Repr

/-- The next statement of an advance. Lists are the StepRuns a loop has yet to
look at. -/
inductive AdvancePoint
  | verifies
  | records (todo : List Nat)
  | retries (todo : List Nat)
  | unblocks (todo : List Nat)
  | baselines
  | settles (todo : List Nat) (busy : Bool)
  | limits
  | doubts (todo : List Nat)
  | quota
  | starts (todo : List Nat)
  | predecessors (step : Nat) (todo : List Nat) (busy : Bool) (rest : List Nat)
  | attempt (step : Nat) (rest : List Nat)
  | stuck
  | planning
  | done
deriving DecidableEq, Repr

/-- `now` is when its transaction began; `liveTasks` is read once, under the locks.
No column holds the requests it saw in flight when it looked for doubts. -/
structure Advance where
  now : Int
  liveTasks : List GoalTask
  point : AdvancePoint
  inFlightSeen : List Nat
deriving DecidableEq, Repr

structure GoalRun where
  status : GoalRunStatus
  pauseReason : Option GoalRunPauseReason
  statement : String
  currentRevision : Nat
  plans : Nat → Option GoalPlan
  updatedAt : Int
  stepRuns : List StepRun
  tasks : List GoalTask
  actions : List StepAction
  rounds : List AcceptanceRound
  advance : Option Advance
  history : List RunEvent

namespace GoalRun

variable (goal : GoalRun)

def findStep (id : Nat) : Option StepRun :=
  goal.stepRuns.find? fun step => step.id == id

def liveSteps : List StepRun :=
  goal.stepRuns.filter fun step => step.status != .superseded

/-- `current_revision`'s plan. -/
def currentPlan : Option GoalPlan := goal.plans goal.currentRevision

/-- The step's entry in the revision that introduced it. -/
def entry (step : StepRun) : Option PlanStep :=
  (goal.plans step.introducedInRevision).bind (planStep · step.stepKey)

def inCurrentPlan (step : StepRun) : Bool :=
  step.supersededInRevision == none &&
    samePlanEntry (goal.plans step.introducedInRevision) goal.currentPlan step.stepKey

def withStep (row : StepRun) : GoalRun :=
  { goal with stepRuns := goal.stepRuns.map fun step => if step.id = row.id then row else step }

/-- `moveStepRun`: the row, and the mark of a step that is started or made ready again. -/
def moveStep (step : StepRun) (event : StepRunEvent)
    (waitingReason : Option StepRunWaitingReason) (failureCategory : Option StepRunFailureCategory)
    (supersededInRevision : Option Nat) : Option GoalRun :=
  (step.move event waitingReason failureCategory supersededInRevision).map fun row =>
    { goal.withStep row with
      history :=
        if event = .start ∨ event = .retry then goal.history ++ [.restarted step.id]
        else goal.history }

/-- `supersedePendingAcceptanceChecks` of the rounds before `beforeRound`, or of all. -/
def supersedePending (rounds : List AcceptanceRound) (beforeRound : Option Nat) :
    List AcceptanceRound :=
  rounds.map fun round =>
    if beforeRound.all fun before => round.round < before then
      { round with
        checks := round.checks.map fun row =>
          if row.status = .pending then { row with status := .superseded } else row }
    else round

/-- `moveGoalRun`: leaving `verifying` supersedes what its round has pending. -/
def moveGoal (event : GoalRunEvent) (pauseReason : Option GoalRunPauseReason) (now : Int) :
    Option GoalRun :=
  (Shared.transition goalRunEdges goal.status event).map fun status =>
    { goal with
      status := status
      pauseReason := if status = .paused then pauseReason else none
      updatedAt := now
      rounds := if goal.status = .verifying then supersedePending goal.rounds none else goal.rounds }

/-- `pause`: a running or verifying run pauses, any other keeps its reason. -/
def pause (reason : GoalRunPauseReason) (now : Int) : GoalRun :=
  if goal.status = .running ∨ goal.status = .verifying then
    (goal.moveGoal .pause (some reason) now).getD goal
  else goal

def latestRound : Nat :=
  goal.rounds.foldl (fun latest round => max latest round.round) 0

/-- `openAcceptanceRound` on the plan in force. -/
def openRound (plan : GoalPlan) (now : Int) : GoalRun :=
  let round := goal.latestRound + 1
  { goal with
    rounds := supersedePending
      (goal.rounds ++
        [{ round := round
           planRevision := goal.currentRevision
           createdAt := now
           checks := (roundAcceptance plan goal.statement).map fun check =>
             { check := check, status := .pending } }])
      (some round)
    history := goal.history ++ [.roundOpened round (goal.liveSteps.map (·.status))] }

/-- `readCurrentAcceptanceRound`: the rows of the latest round, opened since the run
entered `verifying`. -/
def readCurrentRound : List AcceptanceCheckRow :=
  (goal.rounds.filter fun round =>
    round.round == goal.latestRound && goal.updatedAt ≤ round.createdAt).flatMap (·.checks)

def withTask (task : GoalTask) : GoalRun := { goal with tasks := goal.tasks ++ [task] }

def withAdvance (advance : Option Advance) : GoalRun := { goal with advance := advance }

end GoalRun

/-- `WITHDRAWABLE_ACTION_REQUEST_STATUSES`. -/
def withdrawableStatus : Approval.ActionRequestStatus → Bool
  | .pendingApproval | .approved | .autoApproved => true
  | _ => false

/-- `withdrawStepActions`: what has not started, but for what is kept. -/
def withdrawStepActions (actions : List StepAction) (steps keep : List Nat) : List StepAction :=
  actions.map fun action =>
    if steps.contains action.stepRun && withdrawableStatus action.status &&
        !keep.contains action.id then
      { action with status := .withdrawn }
    else action

end NextTime.Goal
