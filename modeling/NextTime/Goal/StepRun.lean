import NextTime.Goal.Disposition
import NextTime.Goal.Plan
import NextTime.Shared.Transition

/-
The rows of a goal run: its own status, its StepRuns, the Tasks that run for it
and the ActionRequests its steps raised.
-/

namespace NextTime.Goal

open NextTime.Approval

inductive GoalRunStatus
  | proposed
  | running
  | paused
  | verifying
  | completed
  | cancelling
  | cancelled
  | failed
deriving DecidableEq, Repr

inductive GoalRunEvent
  | confirm
  | reject
  | pause
  | resume
  | verify
  | complete
  | cancel
  | finishCancel
  | fail
deriving DecidableEq, Repr

/-- `GOAL_RUN_EDGES`. -/
def goalRunEdges : List (GoalRunStatus × GoalRunEvent × GoalRunStatus) :=
  [ (.proposed, .confirm, .running),
    (.proposed, .reject, .cancelled),
    (.running, .pause, .paused),
    (.verifying, .pause, .paused),
    (.paused, .resume, .running),
    (.running, .verify, .verifying),
    (.verifying, .complete, .completed),
    (.paused, .complete, .completed),
    (.running, .cancel, .cancelling),
    (.paused, .cancel, .cancelling),
    (.verifying, .cancel, .cancelling),
    (.cancelling, .finishCancel, .cancelled),
    (.proposed, .fail, .failed),
    (.running, .fail, .failed),
    (.paused, .fail, .failed),
    (.verifying, .fail, .failed),
    (.cancelling, .fail, .failed) ]

inductive StepRunStatus
  | pending
  | ready
  | running
  | waiting
  | succeeded
  | failed
  | superseded
  | cancelled
  | skipped
deriving DecidableEq, Repr

inductive StepRunEvent
  | unblock
  | start
  | wait
  | resume
  | succeed
  | fail
  | retry
  | supersede
  | cancel
  | skip
deriving DecidableEq, Repr

/-- `STEP_RUN_EDGES`. -/
def stepRunEdges : List (StepRunStatus × StepRunEvent × StepRunStatus) :=
  [ (.pending, .unblock, .ready),
    (.ready, .start, .running),
    (.running, .wait, .waiting),
    (.waiting, .resume, .running),
    (.running, .succeed, .succeeded),
    (.waiting, .succeed, .succeeded),
    (.running, .fail, .failed),
    (.waiting, .fail, .failed),
    (.failed, .retry, .ready),
    (.pending, .supersede, .superseded),
    (.ready, .supersede, .superseded),
    (.running, .supersede, .superseded),
    (.waiting, .supersede, .superseded),
    (.failed, .supersede, .superseded),
    (.pending, .cancel, .cancelled),
    (.ready, .cancel, .cancelled),
    (.running, .cancel, .cancelled),
    (.waiting, .cancel, .cancelled),
    (.failed, .cancel, .cancelled),
    (.pending, .skip, .skipped),
    (.ready, .skip, .skipped) ]

structure StepRun where
  id : Nat
  stepKey : String
  introducedInRevision : Nat
  supersededInRevision : Option Nat
  status : StepRunStatus
  waitingReason : Option StepRunWaitingReason
  failureCategory : Option StepRunFailureCategory
  attemptCount : Nat
deriving DecidableEq, Repr

/-- `STEP_STATUSES_TAKING_WORK`. -/
def takesWork : StepRunStatus → Bool
  | .running | .waiting => true
  | _ => false

/-- `DONE_STEP_STATUSES`. -/
def doneStepStatus : StepRunStatus → Bool
  | .succeeded | .skipped => true
  | _ => false

/-- `ENDED_STEP_STATUSES`. -/
def endedStepStatus : StepRunStatus → Bool
  | .succeeded | .skipped | .cancelled => true
  | _ => false

/-- The row `moveStepRun` writes; none where its transition throws. -/
def StepRun.move (step : StepRun) (event : StepRunEvent)
    (waitingReason : Option StepRunWaitingReason) (failureCategory : Option StepRunFailureCategory)
    (supersededInRevision : Option Nat) : Option StepRun :=
  (Shared.transition stepRunEdges step.status event).map fun status =>
    { step with
      status := status
      waitingReason := if status = .waiting then waitingReason else none
      failureCategory := if status = .failed then failureCategory else none
      attemptCount := if event = .start then step.attemptCount + 1 else step.attemptCount
      supersededInRevision :=
        if status = .superseded then supersededInRevision else step.supersededInRevision }

/-- A Task of the run: an attempt of a step, a nested Task, or (no step) a planner's. -/
structure GoalTask where
  id : Nat
  stepRun : Option Nat
  stepAttempt : Option Nat
  caller : Option Nat
  outcome : Option TaskOutcome
deriving DecidableEq, Repr

def GoalTask.live (task : GoalTask) : Bool := task.outcome.isNone

/-- An ActionRequest of a step, raised by a run of the Task `raisedBy`. -/
structure StepAction extends ActionOutcomeColumns where
  id : Nat
  stepRun : Nat
  raisedBy : Nat
  requestedAt : Int
  identity : String
deriving DecidableEq, Repr

/-- A newer request of the same identity, in the order of `(requested_at, id)`. -/
def StepAction.newerThan (newer action : StepAction) : Bool :=
  newer.stepRun == action.stepRun && newer.identity == action.identity &&
    (action.requestedAt < newer.requestedAt ||
      (action.requestedAt == newer.requestedAt && action.id < newer.id))

/-- A request decided to run again stands only until the newer one exists. -/
def listStepActionOutcomes (actions : List StepAction) (stepRun : Nat)
    (raisedBy : Option (List Nat)) : List ActionOutcomeColumns :=
  (actions.filter fun action =>
    action.stepRun == stepRun &&
      (match raisedBy with
        | none => true
        | some tasks => tasks.contains action.raisedBy) &&
      !(action.reexecuted && actions.any fun newer => newer.newerThan action)).map
    (·.toActionOutcomeColumns)

/-- `listTaskWorkerRunTree`: the Task and those its runs called, at any depth. A Task
is called by one created before it. -/
def taskTree (tasks : List GoalTask) (root : Nat) : List Nat :=
  tasks.foldl
    (fun tree task =>
      if task.id = root ∨ (task.caller.any fun caller => tree.contains caller) then
        tree ++ [task.id]
      else tree)
    []

/-- `countStepAttemptsWithoutResult`. -/
def countStepAttemptsWithoutResult (tasks : List GoalTask) (stepRun : Nat) : Nat :=
  (tasks.filter fun task =>
    task.stepRun == some stepRun && task.stepAttempt.isSome &&
      task.outcome == some (.failed .noResult)).length

/-- `readStepAttemptTask`. -/
def readStepAttemptTask (tasks : List GoalTask) (stepRun attempt : Nat) : Option GoalTask :=
  tasks.find? fun task => task.stepRun == some stepRun && task.stepAttempt == some attempt

end NextTime.Goal
