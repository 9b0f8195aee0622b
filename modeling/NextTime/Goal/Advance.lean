import NextTime.Goal.Revision

/-
One advance of a goal run, a statement at a time. What a statement reads of other
machinery (the clock, the budget, the platform's checks, the planner, the start of
a Task) is the oracle it is given; what it reads of the run is read from its rows.
An advance that throws rolls back, and nobody has seen what it wrote, so it is a
run without that advance.
-/

namespace NextTime.Goal

/-- The round of a step's own acceptance checks, as an advance finds it. -/
inductive StepRound
  | absent
  | pending
  | failed
  | unavailable
  | passed
deriving DecidableEq, Repr

inductive Baselines
  | seen
  | waits
  | unseen
deriving DecidableEq, Repr

/-- What holds every start: a pause, a wait, or nothing. -/
inductive StartLimit
  | clear
  | waits
  | pauses (reason : GoalRunPauseReason)
deriving DecidableEq, Repr

inductive AttemptStart
  | started (task : Nat)
  | later
  | stops (pause : Option GoalRunPauseReason)
deriving DecidableEq, Repr

inductive PlanningOutcome
  | nothing
  | pauses (reason : GoalRunPauseReason)
  | opens (task : Nat)
  | adopts (plan : GoalPlan) (revision : Nat)
deriving DecidableEq

structure Oracle where
  stepRound : StepRound
  reconcileForPerson : Bool
  plannerTakes : Bool
  backoffElapsed : Bool
  baselines : Baselines
  limit : StartLimit
  attempt : AttemptStart
  planning : PlanningOutcome
deriving DecidableEq

section Statements

variable (goal : GoalRun) (advance : Advance) (oracle : Oracle)

def liveTasksOf (step : StepRun) : List GoalTask :=
  advance.liveTasks.filter fun task => task.stepRun == some step.id

/-- `stepActionEffect` of every request of the step, of every attempt. -/
def effectOf (step : StepRun) : StepActionEffect :=
  stepActionEffect (listStepActionOutcomes goal.actions step.id none)

def pauses (reason : GoalRunPauseReason) : GoalRun := goal.pause reason advance.now

/-- `holdStep`: a step waiting for another reason resumes and waits again. -/
def holdStep (step : StepRun) (reason : StepRunWaitingReason) : Option GoalRun :=
  if step.status = .waiting ∧ step.waitingReason = some reason then some goal
  else if step.status = .waiting then do
    let running ← step.move .resume none none none
    goal.moveStep running .wait (some reason) none none
  else goal.moveStep step .wait (some reason) none none

/-- `verifyStep`. -/
def verifyStep (step : StepRun) : Option GoalRun :=
  if step.waitingReason = some .acceptanceUnavailable then
    if goal.status ≠ .running then some goal
    else if (goal.entry step).isNone then some (pauses goal advance .needsDecision)
    else holdStep goal step .acceptance
  else
    match oracle.stepRound with
    | .absent | .pending => some goal
    | .failed =>
        (goal.moveStep step .fail none (some .verificationFailed) none).map fun failed =>
          if oracle.plannerTakes then failed else pauses failed advance .needsDecision
    | .unavailable =>
        (holdStep goal step .acceptanceUnavailable).map (pauses · advance .needsDecision)
    | .passed => goal.moveStep step .succeed none none none

/-- What a finished attempt whose requests no longer hold the step becomes. -/
def recordVerdict (step : StepRun) (outcome : TaskOutcome) :
    AttemptVerdict → Option GoalRun
  | .succeed =>
      match goal.entry step with
      | none => some (pauses goal advance .needsDecision)
      | some entry =>
          if entry.acceptance.getD [] ≠ [] then holdStep goal step .acceptance
          else goal.moveStep step .succeed none none none
  | .fail category pause =>
      (goal.moveStep step .fail none (some category) none).map fun failed =>
        match pause with
        | none => failed
        | some reason =>
            if reason = .needsDecision ∧ outcome ≠ .cancelled ∧ oracle.plannerTakes then failed
            else pauses failed advance reason

/-- The effect of the requests the attempt's own runs raised. -/
def attemptEffect (step : StepRun) (task : GoalTask) : StepActionEffect :=
  stepActionEffect
    (listStepActionOutcomes goal.actions step.id (some (taskTree goal.tasks task.id)))

/-- `recordAttempt`. -/
def recordAttempt (step : StepRun) : Option GoalRun :=
  if step.status = .waiting ∧ (step.waitingReason = some .acceptance ∨
      step.waitingReason = some .acceptanceUnavailable) then
    verifyStep goal advance oracle step
  else
    match readStepAttemptTask goal.tasks step.id step.attemptCount with
    | none => some (pauses goal advance .needsDecision)
    | some task =>
        match task.outcome with
        | none => some goal
        | some outcome =>
            if liveTasksOf advance step ≠ [] then some goal
            else if !goal.inCurrentPlan step then some (pauses goal advance .needsDecision)
            else
              match attemptEffect goal step task with
              | .waitReconcile =>
                  (holdStep goal step .reconcile).map fun held =>
                    if oracle.reconcileForPerson then pauses held advance .awaitingReconcile
                    else held
              | .waitApproval => holdStep goal step .approval
              | effect =>
                  recordVerdict goal advance oracle step outcome
                    (judgeFinishedAttempt outcome effect
                      (if outcome = .failed .noResult then
                        countStepAttemptsWithoutResult goal.tasks step.id - 1
                      else 0))

/-- `reworkDue`. -/
def reworkDue (step : StepRun) : Bool :=
  step.status == .failed && step.failureCategory == some .contractViolation &&
    countStepAttemptsWithoutResult goal.tasks step.id == 1

/-- `retryStep`. -/
def retryStep (step : StepRun) (rework : Bool) : Option GoalRun :=
  match goal.entry step with
  | none => some (pauses goal advance .needsDecision)
  | some entry =>
      if step.attemptCount ≥ entry.maxAttempts.getD defaultMaxAttempts then
        if oracle.plannerTakes then some goal else some (pauses goal advance .needsDecision)
      else if liveTasksOf advance step ≠ [] then some goal
      else
        match effectOf goal step with
        | .fail .outcomeUnknown => some (pauses goal advance .needsDecision)
        | .waitReconcile => some (pauses goal advance .awaitingReconcile)
        | .waitApproval => some goal
        | _ =>
            if !rework && !oracle.backoffElapsed then some goal
            else if !goal.inCurrentPlan step then some (pauses goal advance .needsDecision)
            else goal.moveStep step .retry none none none

/-- One step of the loop of phase B. -/
def retryFailed (step : StepRun) : Option GoalRun :=
  if step.status ≠ .failed then some goal
  else if step.failureCategory = some .transient then retryStep goal advance oracle step false
  else if reworkDue goal step then retryStep goal advance oracle step true
  else some goal

/-- One step of the loop of `unblockSteps`. -/
def unblockStep (step : StepRun) : Option GoalRun :=
  if step.status ≠ .pending then some goal
  else
    match goal.entry step with
    | none => some (pauses goal advance .needsDecision)
    | some entry =>
        let done := (goal.stepRuns.filter fun other => doneStepStatus other.status).map (·.stepKey)
        if !(entry.dependsOn.getD []).all done.contains then some goal
        else if !goal.inCurrentPlan step then some (pauses goal advance .needsDecision)
        else goal.moveStep step .unblock none none none

/-- The round of the run, as it was read: opened where there is none, else judged. -/
def judgeRound (read : List AcceptanceCheckRow) : Option GoalRun :=
  if read = [] then
    match goal.currentPlan with
    | none => some (pauses goal advance .needsDecision)
    | some plan => some (goal.openRound plan advance.now)
  else if read.any fun row => isPlatformAcceptanceCheck row.check.body.kind && row.status == .pending
  then some goal
  else if read.any fun row => row.status != .passed && row.status != .pending then
    some (pauses goal advance .needsDecision)
  else if read.any fun row => row.status == .pending then some goal
  else goal.moveGoal .complete none advance.now

/-- `verify`. -/
def verifyRun (entered : Bool) : Option GoalRun :=
  judgeRound goal advance (if entered then [] else goal.readCurrentRound)

/-- `pauseIfStuck`. -/
def pauseIfStuck : GoalRun :=
  let moving := goal.liveSteps.any fun step =>
    step.status == .ready || takesWork step.status ||
      (step.status == .failed && step.failureCategory == some .transient) || reworkDue goal step
  let failed := goal.liveSteps.any fun step => step.status == .failed
  if moving || oracle.plannerTakes || !failed then goal else pauses goal advance .needsDecision

/-- The Task of a new attempt, and its step started. -/
def startAttempt (step : StepRun) (task : Nat) : Option GoalRun :=
  if goal.tasks.any fun other => other.id == task then none
  else
    (goal.withTask
      { id := task
        stepRun := some step.id
        stepAttempt := some (step.attemptCount + 1)
        caller := none
        outcome := none }).moveStep step .start none none none

end Statements

namespace GoalRun

variable (goal : GoalRun)

/-- The run at the advance's next statement. -/
def goesTo (advance : Advance) (point : AdvancePoint) : GoalRun :=
  goal.withAdvance (some { advance with point := point })

def stepIds : List Nat := goal.stepRuns.map (·.id)

/-- The superseded StepRuns, in creation order. -/
def supersededIds : List Nat :=
  (goal.stepRuns.filter fun step => step.status == .superseded).map (·.id)

/-- The StepRuns a revision superseded under the key. -/
def predecessorIds (key : String) : List Nat :=
  (goal.stepRuns.filter fun step => step.status == .superseded && step.stepKey == key).map (·.id)

def readyIds : List Nat :=
  (goal.stepRuns.filter fun step => step.status == .ready).map (·.id)

end GoalRun

/-- Every live step is done, and there is one. -/
def everyStepDone (goal : GoalRun) : Bool :=
  !goal.liveSteps.isEmpty && goal.liveSteps.all fun step => doneStepStatus step.status

/-- The requests of a step still in flight, that a look for doubts passes over. -/
def inFlightOf (goal : GoalRun) (step : Nat) : List Nat :=
  (goal.actions.filter fun action =>
    action.stepRun == step && actionDisposition action.toActionOutcomeColumns == .inFlight).map
    (·.id)

/-- The end of `startSteps` and what follows it. -/
def leaveStarts (goal : GoalRun) (advance : Advance) : Option GoalRun :=
  some (goal.goesTo advance .stuck)

/-- One statement of the advance. -/
def advanceStatement (goal : GoalRun) (advance : Advance) (oracle : Oracle) : Option GoalRun :=
  match advance.point with
  | .verifies => (verifyRun goal advance false).map (·.goesTo advance .planning)
  | .records [] => some (goal.goesTo advance (.retries goal.stepIds))
  | .records (id :: todo) => do
      let step ← goal.findStep id
      let next ← if takesWork step.status then recordAttempt goal advance oracle step else some goal
      some (next.goesTo advance (.records todo))
  | .retries [] => some (goal.goesTo advance (.unblocks goal.stepIds))
  | .retries (id :: todo) => do
      if goal.status ≠ .running then some (goal.goesTo advance (.unblocks goal.stepIds))
      else
        let step ← goal.findStep id
        let next ← retryFailed goal advance oracle step
        some (next.goesTo advance (.retries todo))
  | .unblocks [] =>
      some (goal.goesTo advance (if goal.status = .running then .baselines else .planning))
  | .unblocks (id :: todo) => do
      let step ← goal.findStep id
      let next ← unblockStep goal advance step
      some (next.goesTo advance (.unblocks todo))
  | .baselines =>
      match oracle.baselines with
      | .waits => leaveStarts goal advance
      | .unseen => leaveStarts (pauses goal advance .needsDecision) advance
      | .seen =>
          some (goal.goesTo advance
            (if everyStepDone goal then .settles goal.supersededIds false else .limits))
  | .settles [] busy =>
      if busy || !advance.liveTasks.isEmpty then leaveStarts goal advance
      else do
        let verifying ← goal.moveGoal .verify none advance.now
        let opened ← verifyRun verifying advance true
        some (opened.goesTo advance .planning)
  | .settles (id :: todo) busy => do
      let step ← goal.findStep id
      match effectOf goal step with
      | .waitReconcile => leaveStarts (pauses goal advance .awaitingReconcile) advance
      | effect => some (goal.goesTo advance (.settles todo (busy || effect.waits)))
  | .limits =>
      match oracle.limit with
      | .pauses reason => leaveStarts (pauses goal advance reason) advance
      | .waits => leaveStarts goal advance
      | .clear =>
          if goal.readyIds = [] then leaveStarts goal advance
          else some (goal.goesTo advance (.doubts goal.supersededIds))
  | .doubts [] => some (goal.goesTo advance .quota)
  | .doubts (id :: todo) => do
      let step ← goal.findStep id
      match effectOf goal step with
      | .waitReconcile => leaveStarts (pauses goal advance .awaitingReconcile) advance
      | _ =>
          some (goal.goesTo
            { advance with inFlightSeen := advance.inFlightSeen ++ inFlightOf goal id }
            (.doubts todo))
  | .quota =>
      match oracle.limit with
      | .pauses reason => leaveStarts (pauses goal advance reason) advance
      | .waits => leaveStarts goal advance
      | .clear => some (goal.goesTo advance (.starts goal.readyIds))
  | .starts [] => leaveStarts goal advance
  | .starts (id :: rest) => do
      match oracle.limit with
      | .pauses reason => leaveStarts (pauses goal advance reason) advance
      | _ =>
          let step ← goal.findStep id
          some (goal.goesTo advance
            (.predecessors id (goal.predecessorIds step.stepKey) false rest))
  | .predecessors id [] busy rest =>
      some (goal.goesTo advance (if busy then .starts rest else .attempt id rest))
  | .predecessors id (before :: todo) busy rest => do
      let step ← goal.findStep before
      match effectOf goal step with
      | .waitReconcile => leaveStarts (pauses goal advance .awaitingReconcile) advance
      | effect =>
          some (goal.goesTo advance (.predecessors id todo
            (busy || !(liveTasksOf advance step).isEmpty || effect.waits) rest))
  | .attempt id rest => do
      let step ← goal.findStep id
      if (goal.entry step).isNone || !goal.inCurrentPlan step then
        leaveStarts (pauses goal advance .needsDecision) advance
      else
        match oracle.attempt with
        | .later => some (goal.goesTo advance (.starts rest))
        | .stops (some reason) => leaveStarts (pauses goal advance reason) advance
        | .stops none => leaveStarts goal advance
        | .started task => (startAttempt goal step task).map (·.goesTo advance (.starts rest))
  | .stuck =>
      some ((if goal.status = .running then pauseIfStuck goal advance oracle else goal).goesTo
        advance .planning)
  | .planning =>
      match oracle.planning with
      | .nothing => some (goal.goesTo advance .done)
      | .pauses reason => some ((pauses goal advance reason).goesTo advance .done)
      | .opens task =>
          if (goal.status = .running ∨ goal.status = .paused) ∧
              (goal.tasks.all fun other => other.id != task) then
            some
              ((goal.withTask
                { id := task
                  stepRun := none
                  stepAttempt := none
                  caller := none
                  outcome := none }).goesTo advance .done)
          else none
      | .adopts plan revision =>
          if goal.status = .running then
            (adoptRevision goal plan revision [] advance.now).map (·.goesTo advance .done)
          else none
  | .done => some (goal.withAdvance none)

end NextTime.Goal
