import NextTime.Goal.Advance
import NextTime.Library.LabelledRun

/-
A goal run among everything that happens around it. Requests and nested Tasks
enter a step under a share lock on its StepRun, so never during an advance or a
person's transaction; Tasks end, requests move along and are reconciled, and
checks are settled at any time.
-/

namespace NextTime.Goal

open NextTime.Approval

inductive RunLabel
  | taskEnds (task : Nat) (outcome : TaskOutcome)
  | actionMoves (action : Nat) (event : ActionRequestEvent) (kind : ActionRequestFailureKind)
  | reconciles (action : Nat) (verdict : ActionRequestReconciliation)
  | decidesReexecute (action : Nat)
  | checkSettles (round : Nat) (key : String) (status : GoalAcceptanceCheckStatus)
  | requests (task : Nat) (action : Nat) (requestedAt : Int) (identity : String)
      (resolved : ActionRequestStatus)
  | invokes (caller : Nat) (task : Nat)
  | advances (now : Int)
  | statement (oracle : Oracle)
  | resumes (now : Int) (retrySteps : List Nat)
  | revises (now : Int) (plan : GoalPlan) (revision : Nat) (keep : List Nat)
  | pauses (now : Int)
  | cancels (now : Int)
  | finishesCancel (now : Int)
deriving DecidableEq

def GoalRun.findTask (goal : GoalRun) (id : Nat) : Option GoalTask :=
  goal.tasks.find? fun task => task.id == id

def GoalRun.findAction (goal : GoalRun) (id : Nat) : Option StepAction :=
  goal.actions.find? fun action => action.id == id

def GoalRun.withAction (goal : GoalRun) (row : StepAction) : GoalRun :=
  { goal with
    actions := goal.actions.map fun action => if action.id = row.id then row else action }

/-- A Task ends once. -/
def endTask (goal : GoalRun) (id : Nat) (outcome : TaskOutcome) : Option GoalRun :=
  if goal.tasks.any fun task => task.id == id && task.live then
    some
      { goal with
        tasks := goal.tasks.map fun task =>
          if task.id = id ∧ task.live then { task with outcome := some outcome } else task }
  else none

/-- A request moves along its table. Nothing in the kernel compensates one. -/
def moveAction (goal : GoalRun) (id : Nat) (event : ActionRequestEvent)
    (kind : ActionRequestFailureKind) : Option GoalRun :=
  (goal.findAction id).bind fun action =>
    if event = .compensate then none
    else
      (Approval.transition action.status event).map fun status =>
        goal.withAction
          { action with
            status := status
            failureKind := if event = .fail then some kind else action.failureKind }

/-- A verdict on a request whose outcome is unknown, recorded once. -/
def reconcileAction (goal : GoalRun) (id : Nat) (verdict : ActionRequestReconciliation) :
    Option GoalRun :=
  (goal.findAction id).bind fun action =>
    if action.status = .failed ∧ action.failureKind = some .outcomeUnknown ∧
        action.reconciliation = none then
      some (goal.withAction { action with reconciliation := some verdict })
    else none

/-- The decision to run again, once no effect was found. -/
def reexecuteAction (goal : GoalRun) (id : Nat) : Option GoalRun :=
  (goal.findAction id).bind fun action =>
    if action.status = .failed ∧ action.failureKind = some .outcomeUnknown ∧
        action.reconciliation = some .effectAbsent then
      some (goal.withAction { action with reexecuted := true })
    else none

/-- A pending check of a round is settled by the platform or the requester. -/
def settleCheck (goal : GoalRun) (round : Nat) (key : String) (status : GoalAcceptanceCheckStatus) :
    Option GoalRun :=
  if status = .passed ∨ status = .failed ∨ status = .unavailable then
    some
      { goal with
        rounds := goal.rounds.map fun opened =>
          if opened.round = round then
            { opened with
              checks := opened.checks.map fun row =>
                if row.check.key = key ∧ row.status = .pending then { row with status := status }
                else row }
          else opened }
  else none

/-- `lockGoalStepForNewWork`: the step of the calling Worker's Task, running or waiting. -/
def lockGoalStepForNewWork (goal : GoalRun) (caller : Nat) : Option StepRun := do
  let task ← goal.findTask caller
  let step ← task.stepRun.bind goal.findStep
  if goal.advance.isNone && takesWork step.status then some step else none

/-- A row `requestAction` inserts for the Worker of a Task. -/
def requestStepAction (goal : GoalRun) (task id : Nat) (requestedAt : Int) (identity : String)
    (resolved : ActionRequestStatus) : Option GoalRun := do
  let step ← lockGoalStepForNewWork goal task
  if (goal.findAction id).isNone &&
      (resolved == .autoApproved || resolved == .pendingApproval || resolved == .denied) then
    some
      { goal with
        actions := goal.actions ++
          [{ id := id
             stepRun := step.id
             raisedBy := task
             requestedAt := requestedAt
             identity := identity
             status := resolved
             failureKind := none
             reconciliation := none
             reexecuted := false }] }
  else none

/-- A nested Task `invoke_worker` inserts: its caller's step, no attempt number. -/
def invokeNested (goal : GoalRun) (caller task : Nat) : Option GoalRun := do
  let step ← lockGoalStepForNewWork goal caller
  if (goal.findTask task).isNone then
    some
      (goal.withTask
        { id := task
          stepRun := some step.id
          stepAttempt := none
          caller := some caller
          outcome := none })
  else none

/-- The advance takes the GoalRun's and the StepRuns' locks and reads the live Tasks. -/
def beginAdvance (goal : GoalRun) (now : Int) : Option GoalRun :=
  let advance : Advance :=
    { now := now
      liveTasks := goal.tasks.filter (·.live)
      point := .records goal.stepIds
      inFlightSeen := [] }
  if goal.advance.isSome then none
  else if goal.status = .verifying then
    some (goal.withAdvance (some { advance with point := .verifies }))
  else if goal.status = .running ∨ goal.status = .paused then
    some (goal.withAdvance (some advance))
  else none

/-- `assertRetryable`, and the retry of one failed step. -/
def retryByPerson (goal : GoalRun) (id : Nat) : Option GoalRun := do
  let step ← goal.findStep id
  let outcomes := listStepActionOutcomes goal.actions step.id none
  if step.status == .failed &&
      (goal.tasks.all fun task => !(task.live && task.stepRun == some step.id)) &&
      !(stepActionEffect outcomes).waits &&
      (outcomes.all fun outcome => actionDisposition outcome != .unconfirmed) &&
      goal.inCurrentPlan step then
    goal.moveStep step .retry none none none
  else none

/-- `resumeGoalRun`. -/
def resumeGoalRun (goal : GoalRun) (now : Int) (retrySteps : List Nat) : Option GoalRun := do
  if goal.advance.isSome ∨ goal.status ≠ .paused then none
  else
    let retried ← retrySteps.foldlM retryByPerson goal
    retried.moveGoal .resume none now

/-- `reviseGoalRun`: only while the run is paused. -/
def reviseGoalRun (goal : GoalRun) (now : Int) (plan : GoalPlan) (revision : Nat)
    (keep : List Nat) : Option GoalRun :=
  if goal.advance.isSome ∨ goal.status ≠ .paused then none
  else adoptRevision goal plan revision keep now

/-- `cancelGoalRun`: every step that has not ended, and what they have not started. -/
def cancelGoalRun (goal : GoalRun) (now : Int) : Option GoalRun :=
  if goal.advance.isSome then none
  else
    (goal.moveGoal .cancel none now).map fun cancelling =>
      { cancelling with
        stepRuns := goal.stepRuns.map fun step => (step.move .cancel none none none).getD step
        actions := withdrawStepActions goal.actions goal.stepIds [] }

def runStep (goal : GoalRun) : RunLabel → Option GoalRun
  | .taskEnds task outcome => endTask goal task outcome
  | .actionMoves action event kind => moveAction goal action event kind
  | .reconciles action verdict => reconcileAction goal action verdict
  | .decidesReexecute action => reexecuteAction goal action
  | .checkSettles round key status => settleCheck goal round key status
  | .requests task action requestedAt identity resolved =>
      requestStepAction goal task action requestedAt identity resolved
  | .invokes caller task => invokeNested goal caller task
  | .advances now => beginAdvance goal now
  | .statement oracle => goal.advance.bind fun advance => advanceStatement goal advance oracle
  | .resumes now retrySteps => resumeGoalRun goal now retrySteps
  | .revises now plan revision keep => reviseGoalRun goal now plan revision keep
  | .pauses now =>
      if goal.advance.isSome then none else goal.moveGoal .pause (some .requested) now
  | .cancels now => cancelGoalRun goal now
  | .finishesCancel now =>
      if goal.advance.isSome then none else goal.moveGoal .finishCancel none now

/-- A run its requester has just confirmed: one pending StepRun for each step of the
plan, and nothing else yet. -/
def confirmedRun (plan : GoalPlan) (statement : String) (now : Int) : GoalRun :=
  { status := .running
    pauseReason := none
    statement := statement
    currentRevision := 1
    plans := fun revision => if revision = 1 then some plan else none
    updatedAt := now
    stepRuns := plan.steps.mapIdx fun index entry =>
      { id := index
        stepKey := entry.key
        introducedInRevision := 1
        supersededInRevision := none
        status := .pending
        waitingReason := none
        failureCategory := none
        attemptCount := 0 }
    tasks := []
    actions := []
    rounds := []
    advance := none
    history := [] }

def goalRunSystem : LabelledRun.System GoalRun RunLabel :=
  { initial := fun goal => ∃ plan statement now, goal = confirmedRun plan statement now
    step := runStep }

end NextTime.Goal
