import NextTime.Task.Lifecycle

/-
One Task and everything that may happen to it, in any order: the call that
inserted it goes on to spawn its first WorkerRun, and reactions, reaper passes,
cancels, reports, usage records and approval routing start at any time and any
number of times, each with its own connection.
-/

namespace NextTime.Task

open Interleaving
open Interleaving.Program (call each)

inductive Entry
  | reaction (run : Nat)
  | reaper
  | terminate
  | report (run : Nat)
  | modelRefusal (run : Nat)
  | usage (run tokens : Nat)
  | approvalPending
  | approvalResolved
  /-- A run of another Task, under which this run was started, ends and takes its Handles. -/
  | ancestorEnds (run : Nat)
deriving DecidableEq, Repr

def Entry.script : Entry → Script Unit
  | .reaction run => reactToSupervisorStatus run
  | .reaper => runTaskReaper
  | .terminate => terminateTaskWith
  | .report run => withWorkspace .any (completeTaskWithResult run)
  | .modelRefusal run => withWorkspace .any (failTaskForModelRefusal run)
  | .usage run tokens => withWorkspace .any (recordWorkerRunUsage run tokens)
  | .approvalPending => withWorkspace .any moveTaskToWaitingApproval
  | .approvalResolved => withWorkspace .any resumeTaskFromWaitingApproval
  | .ancestorEnds run => withWorkspace .any (revokeWorkerRun run)

abbrev TaskPool := Pool Nat TaskStore Call Call.Answer Thrown

abbrev TaskLabel := PoolLabel Nat Entry Input

/-- The Task as `insert into tasks` leaves it. -/
def TaskRow.inserted (row : TaskRow) : Prop :=
  row.status = .queued ∧ row.retryCount = 0

def insertedStore (row : TaskRow) : TaskStore where
  rows :=
    { committed := fun
        | .task => some row
        | .run _ => none
        | .handle _ => none
      pending := fun _ => none
      sharers := fun _ => [] }
  nextRun := 0
  purpose := fun _ => .any

/-- Thread 0 inserted the Task and goes on to start it. -/
def insertedPool (row : TaskRow) : TaskPool where
  shared := insertedStore row
  rest := fun thread => if thread = 0 then startTask else .ends (.ok ())

def taskSystem : LabelledRun.System TaskPool TaskLabel :=
  taskMachine.system Entry.script fun pool =>
    ∃ row : TaskRow, row.inserted ∧ pool = insertedPool row

/-- A thread makes its next calls and nothing fails. -/
def runs (thread count : Nat) : List TaskLabel :=
  List.replicate count (.steps thread .proceeds)

/-- An ordinary Task: no step attempt, no purpose, no budget. -/
def plainTask : TaskRow :=
  { status := .queued, retryCount := 0, failureReason := none, stepAttempt := none,
    purpose := none, tokenBudget := none, tokensUsed := 0 }

theorem reachable_of_run {labels : List TaskLabel} {pool : TaskPool}
    (ran : taskSystem.run (insertedPool plainTask) labels = some pool) :
    taskSystem.Reachable pool :=
  ⟨_, labels, ⟨plainTask, ⟨rfl, rfl⟩, rfl⟩, ran⟩

end NextTime.Task
