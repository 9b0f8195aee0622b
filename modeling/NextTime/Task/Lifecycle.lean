import NextTime.Task.TaskStore

/-
Everything that reacts to a WorkerRun's life ending: the guarded updates of both
tables, the spawn, the reaction to what worker-supervisor reports, the Worker's
own report and a cancel.
-/

namespace NextTime.Task

open NextTime.Goal (TaskFailureReason)
open NextTime.Shared
open Interleaving
open Interleaving.Program (call each)

abbrev Script := Program Call Call.Answer Thrown

/-- One call of this program. -/
abbrev query (op : Call) : Script op.Answer :=
  call op

/-- `withWorkspace`: one transaction, rolled back when anything in it throws. -/
def withWorkspace {Result : Type} (purpose : Purpose) (body : Script Result) : Script Result :=
  tryCatch
    (do
      query (.begins purpose)
      let result ← body
      query .commits
      return result)
    fun thrown => do
      query .rollsBack
      throw thrown

/-- `.catch(() => {})`. -/
def bestEffort (body : Script Unit) : Script Unit :=
  tryCatch body fun _ => pure ()

/-- `revokeWorkerRunAndDescendants`, as far as this Task's run goes. -/
def revokeWorkerRun (run : Nat) : Script Unit :=
  query (.revokeSession run)

/-! ### Guarded updates -/

/-- The loop of `terminateWorkerRunRow`. -/
def terminateAttempts (run : Nat) : Nat → WorkerRunStatus → Script Bool
  | 0, _ => throw .keptChanging
  | attempts + 1, current =>
      match transition workerRunEdges current .terminate with
      | none => throw .illegalTransition
      | some _ => do
          if ← query (.updateRun run current .terminated) then
            revokeWorkerRun run
            return true
          else
            match ← query (.readRun run) with
            | none => return false
            | some reread =>
                if reread.status = .terminated then
                  revokeWorkerRun run
                  return false
                else terminateAttempts run attempts reread.status

def terminateWorkerRunRow (run : Nat) : Script Bool := do
  match ← query (.readRun run) with
  | none => return false
  | some row =>
      if row.status = .terminated then
        revokeWorkerRun run
        return false
      else terminateAttempts run 3 row.status

def failTaskRow (reason : TaskFailureReason) : Script Unit := do
  match ← query .readTask with
  | none => return
  | some row =>
      if row.status.ended then return
      else
        match walk row.status (pathToRunning row.status) .fail with
        | none => throw .illegalTransition
        | some _ =>
            -- A status that moved since the read makes this a silent no-op.
            let _ ← query (.updateTask row.status (.fail reason))

def attemptCompleteTask (status : TaskStatus) : Script Bool :=
  match walk status (pathToRunningForComplete status) .complete with
  | none => throw .illegalTransition
  | some _ => query (.updateTask status .complete)

/-- `completeTaskWithResult`, in the report's own transaction. -/
def completeTaskWithResult (run : Nat) : Script Unit := do
  match ← query .readTask with
  | none => throw .noTask
  | some row =>
      if ← attemptCompleteTask row.status then
        let _ ← terminateWorkerRunRow run
      else
        match ← query .readTask with
        | none => throw .noTask
        | some reread =>
            if reread.status.ended then throw .illegalTransition
            else if ← attemptCompleteTask reread.status then
              let _ ← terminateWorkerRunRow run
            else throw .illegalTransition

def failTaskForModelRefusal (run : Nat) : Script Unit := do
  failTaskRow .modelRefused
  let _ ← terminateWorkerRunRow run

def failTaskAndReapWorkerRuns (reason : TaskFailureReason) : Script Unit := do
  let runs ← withWorkspace .any do
    let runs ← query (.runIds false)
    each (fun run => do let _ ← terminateWorkerRunRow run) runs
    failTaskRow reason
    return runs
  each (fun run => bestEffort (query (.supervisorTerminate run))) runs

/-! ### Spawning -/

/-- The transaction that creates the run: never under a Task that has ended. -/
def createRun (attempt : Nat) : Script Nat := do
  match ← query .readTaskForShare with
  | none => throw .illegalTransition
  | some status =>
      if status.ended then throw .illegalTransition
      else
        query .prepares
        query (.insertRun attempt)

def spawnWorkerRun (attempt : Nat) : Script Unit := do
  query .prepares
  let run ← withWorkspace .any (createRun attempt)
  tryCatch (query (.supervisorSpawn run)) fun thrown => do
    withWorkspace .spawnFailed do
      let _ ← query (.updateRun run .provisioning .terminated)
      query (.revokeSession run)
    throw thrown
  withWorkspace .any do
    if ← query (.updateRun run .provisioning .running) then return
    else bestEffort (query (.supervisorTerminate run))

def spawnWorkerRunForRetry (failed : WorkerRunRow) : Script Unit :=
  tryCatch
    (do
      match ← withWorkspace .any (query (.readHandle failed.id)) with
      | none => throw .noHandle
      | some _ =>
          withWorkspace .any (query .prepares)
          spawnWorkerRun (failed.attempt + 1))
    fun _ => failTaskAndReapWorkerRuns .workerFailed

/-- What `invokeWorkerCreate` and `startStepAttemptTask` do once the Task is inserted. -/
def startTask : Script Unit := do
  tryCatch (spawnWorkerRun 1) fun thrown => do
    failTaskAndReapWorkerRuns .spawnFailed
    throw thrown
  withWorkspace .any do
    let _ ← query (.updateTask .queued .start)

/-! ### Reacting to worker-supervisor -/

/-- The transaction of the exited and terminated branches. -/
def decideExited (run : Nat) (task : TaskRow) (reason : TaskFailureReason) : Script Unit := do
  if ← terminateWorkerRunRow run then
    if task.status = .running ∨ task.status = .waitingApproval then failTaskRow reason
    else return
  else return

/-- The transaction of the failed branch that may claim the retry. -/
def claimRetry (run : Nat) (task : TaskRow) : Script Bool := do
  if ← terminateWorkerRunRow run then
    if ← query (.addRetry task.retryCount) then return true
    else
      failTaskRow .workerFailed
      return false
  else return false

def failIfMoved (run : Nat) (reason : TaskFailureReason) : Script Unit := do
  if ← terminateWorkerRunRow run then failTaskRow reason
  else return

/-- Whether a crash of this Task's run is retried inside the Task. -/
def TaskRow.retries (task : TaskRow) : Bool :=
  decide (task.retryCount < 1) && decide (task.status ≠ .waitingApproval) &&
    task.stepAttempt.isNone && task.purpose.isNone

/-- The branches of `reactToSupervisorStatus`, on the Task row read before. -/
def reactTo (failed : WorkerRunRow) (task : TaskRow) (status : TaskSupervisorState) :
    Script Unit :=
  match status with
  | .running => return
  | .exited =>
      withWorkspace (.reaction status task) (decideExited failed.id task .noResult)
  | .failed =>
      if task.retries then do
        if ← withWorkspace (.reaction status task) (claimRetry failed.id task) then
          spawnWorkerRunForRetry failed
        else return
      else withWorkspace (.reaction status task) (failIfMoved failed.id .workerFailed)
  | .terminated timeout =>
      withWorkspace (.reaction status task)
        (decideExited failed.id task (if timeout then .timeout else .terminated))

def reactToSupervisorStatus (run : Nat) : Script Unit := do
  match ← withWorkspace .any (query (.readRun run)) with
  | none => return
  | some row =>
      if row.status = .terminated then return
      else
        match ← tryCatch (query (.supervisorStatus run)) fun _ => pure none with
        | none => return
        | some status =>
            if status = .running then return
            else
              match ← withWorkspace .any (query .readTask) with
              | none => return
              | some task => reactTo row task status

/-! ### Cancel, usage, approval routing -/

/-- The transaction of `terminateTaskWith` that decides the Task. -/
def cancelTaskRow : Script Unit := do
  match ← query .readTask with
  | none => throw .noTask
  | some current =>
      if current.status.ended then return
      else
        match walk current.status (pathToRunningForComplete current.status) .cancel with
        | none => throw .illegalTransition
        | some _ => do
            if ← query (.updateTask current.status .cancel) then return
            else
              match ← query .readTask with
              | none => throw .noTask
              | some _ => return

def terminateTaskWith : Script Unit := do
  match ← withWorkspace .any (query .readTask) with
  | none => throw .noTask
  | some task =>
      if task.status.ended then return
      else
        withWorkspace .any cancelTaskRow
        let runs ← withWorkspace .any (query (.runIds true))
        each
          (fun run => do
            bestEffort (query (.supervisorTerminate run))
            withWorkspace .any do
              let _ ← terminateWorkerRunRow run)
          runs

/-- At 100% of the budget; a budget of nothing is spent at once. -/
def TaskRow.overBudget (task : TaskRow) : Bool :=
  match task.tokenBudget with
  | none => false
  | some budget => decide (budget ≤ task.tokensUsed)

def recordWorkerRunUsage (run tokens : Nat) : Script Unit := do
  match ← query (.readRun run) with
  | none => return
  | some _ =>
      match ← query (.addTokens tokens) with
      | none => return
      | some task =>
          if task.overBudget then
            if task.status.ended then pure () else failTaskRow .budgetExhausted
            let runs ← query (.runIds true)
            each
              (fun run => do
                let _ ← terminateWorkerRunRow run
                bestEffort (query (.supervisorTerminate run)))
              runs
          else return

def moveTaskToWaitingApproval : Script Unit := do
  match ← query .readTask with
  | none => return
  | some task =>
      if task.status = .running then
        let _ ← query (.updateTask .running .awaitApproval)
      else return

def resumeTaskFromWaitingApproval : Script Unit := do
  match ← query .readTask with
  | none => return
  | some task =>
      if task.status = .waitingApproval then
        let _ ← query (.updateTask .waitingApproval .resume)
      else return

/-! ### The reaper -/

def reapCandidate (run : Nat) : Script Unit := do
  if ← query (.overdue run) then
    bestEffort (query (.supervisorTerminate run))
    withWorkspace .any (failIfMoved run .timeout)
  else reactToSupervisorStatus run

/-- A sweep: a candidate whose reaping throws does not stop the others. -/
def sweep (found : Script Bool) (reason : TaskFailureReason) : Script Unit := do
  if ← found then bestEffort (failTaskAndReapWorkerRuns reason)
  else return

def runTaskReaper : Script Unit := do
  let runs ← query (.runIds true)
  each (fun run => bestEffort (reapCandidate run)) runs
  sweep (query .lostQueuedTask) .spawnLost
  sweep (query .orphanedTask) .runLost

end NextTime.Task
