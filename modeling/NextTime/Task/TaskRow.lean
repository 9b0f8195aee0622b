import NextTime.Goal.Disposition
import NextTime.Shared.Transition

/-
The rows of `tasks` and `worker_runs`, and the transition tables of both.
-/

namespace NextTime.Task

open NextTime.Goal (TaskFailureReason)
open NextTime.Shared

inductive TaskStatus
  | created
  | queued
  | running
  | waitingApproval
  | completed
  | failed
  | cancelled
deriving DecidableEq, Repr

inductive TaskEvent
  | queue
  | start
  | awaitApproval
  | resume
  | complete
  | fail
  | cancel
deriving DecidableEq, Repr

/-- `TASK_EDGES`. -/
def taskEdges : List (TaskStatus × TaskEvent × TaskStatus) :=
  [ (.created, .queue, .queued),
    (.queued, .start, .running),
    (.running, .awaitApproval, .waitingApproval),
    (.waitingApproval, .resume, .running),
    (.running, .complete, .completed),
    (.running, .fail, .failed),
    (.running, .cancel, .cancelled),
    (.waitingApproval, .fail, .failed) ]

/-- The statuses every writer treats as the Task's end. -/
def TaskStatus.ended : TaskStatus → Bool
  | .completed | .failed | .cancelled => true
  | .created | .queued | .running | .waitingApproval => false

inductive WorkerRunStatus
  | provisioning
  | running
  | suspended
  | terminated
deriving DecidableEq, Repr

inductive WorkerRunEvent
  | start
  | suspend
  | resume
  | terminate
deriving DecidableEq, Repr

/-- `WORKER_RUN_EDGES`. -/
def workerRunEdges : List (WorkerRunStatus × WorkerRunEvent × WorkerRunStatus) :=
  [ (.provisioning, .start, .running),
    (.provisioning, .terminate, .terminated),
    (.running, .suspend, .suspended),
    (.suspended, .resume, .running),
    (.running, .terminate, .terminated),
    (.suspended, .terminate, .terminated) ]

inductive TaskPurpose
  | evaluation
  | planning
deriving DecidableEq, Repr

structure TaskRow where
  status : TaskStatus
  retryCount : Nat
  failureReason : Option TaskFailureReason
  stepAttempt : Option Nat
  purpose : Option TaskPurpose
  tokenBudget : Option Nat
  tokensUsed : Nat
deriving DecidableEq, Repr

structure WorkerRunRow where
  id : Nat
  status : WorkerRunStatus
  attempt : Nat
deriving DecidableEq, Repr

def WorkerRunRow.live (run : WorkerRunRow) : Bool :=
  decide (run.status ≠ .terminated)

/-- `pathToRunning` of `failTaskRow`. -/
def pathToRunning : TaskStatus → List TaskEvent
  | .created => [.queue, .start]
  | .queued => [.start]
  | .running | .waitingApproval | .completed | .failed | .cancelled => []

/-- `pathToRunningForComplete`, and `pathToRunning` of `terminateTask`. -/
def pathToRunningForComplete : TaskStatus → List TaskEvent
  | .created => [.queue, .start]
  | .queued => [.start]
  | .waitingApproval => [.resume]
  | .running | .completed | .failed | .cancelled => []

/-- Walks the hops, then the event itself; none where `transition` throws. -/
def walk (status : TaskStatus) (hops : List TaskEvent) (event : TaskEvent) :
    Option TaskStatus :=
  (hops ++ [event]).foldlM (transition taskEdges) status

theorem walk_fail (status : TaskStatus) (going : status.ended = false) :
    walk status (pathToRunning status) .fail = some .failed := by
  cases status <;> first | rfl | cases going

theorem walk_cancel (status : TaskStatus) (going : status.ended = false) :
    walk status (pathToRunningForComplete status) .cancel = some .cancelled := by
  cases status <;> first | rfl | cases going

/-- A Task that ended has no way to complete, nor to anything else. -/
theorem walk_ended {status : TaskStatus} (ended : status.ended = true)
    (hops : List TaskEvent) (event : TaskEvent) : walk status hops event = none := by
  have stuck : ∀ first, transition taskEdges status first = none := by
    intro first
    cases status <;> first | (cases first <;> rfl) | cases ended
  cases hops with
  | nil => simp [walk, stuck]
  | cons hop hops => simp [walk, stuck]

end NextTime.Task
