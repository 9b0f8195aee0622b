import NextTime.Library.Program
import NextTime.Library.ReadCommitted
import NextTime.Task.TaskRow

/-
The tables a Task's life is written to, and the statements and outside calls
its code is made of. One Task: the others only meet it where a caller's run
takes the Handles of this Task's runs with it.
-/

namespace NextTime.Task

open NextTime.Goal (TaskFailureReason)
open Interleaving

inductive TaskKey
  | task
  | run (id : Nat)
  | handle (run : Nat)
deriving DecidableEq, Repr

/-- A Handle's row is read for one thing here: whether it is revoked. -/
@[reducible]
def TaskKey.Row : TaskKey → Type
  | .task => TaskRow
  | .run _ => WorkerRunRow
  | .handle _ => Bool

inductive TaskSupervisorState
  | running
  | exited
  | terminated (timeout : Bool)
  | failed
deriving DecidableEq, Repr

/-- Which `withWorkspace` a transaction is; only these two are told apart. -/
inductive Purpose
  | any
  | reaction (status : TaskSupervisorState) (task : TaskRow)
  | spawnFailed
deriving DecidableEq, Repr

structure TaskStore where
  rows : ReadCommitted.Store Nat TaskKey TaskKey.Row
  nextRun : Nat
  purpose : Nat → Purpose

inductive TaskChange
  | start
  | awaitApproval
  | resume
  | complete
  | fail (reason : TaskFailureReason)
  | cancel
deriving DecidableEq, Repr

def TaskChange.status : TaskChange → TaskStatus
  | .start | .resume => .running
  | .awaitApproval => .waitingApproval
  | .complete => .completed
  | .fail _ => .failed
  | .cancel => .cancelled

def TaskRow.change (row : TaskRow) (change : TaskChange) : TaskRow :=
  match change with
  | .fail reason => { row with status := .failed, failureReason := some reason }
  | change => { row with status := change.status }

@[simp]
theorem TaskRow.change_status (row : TaskRow) (change : TaskChange) :
    (row.change change).status = change.status := by
  cases change <;> rfl

@[simp]
theorem TaskRow.change_retryCount (row : TaskRow) (change : TaskChange) :
    (row.change change).retryCount = row.retryCount := by
  cases change <;> rfl

/-- One statement, or one call to worker-supervisor or the clock. What is read or
computed on the way and matters only because it may throw is `prepares`. -/
inductive Call
  | begins (purpose : Purpose)
  | commits
  | rollsBack
  | readTask
  | readTaskForShare
  | updateTask (expected : TaskStatus) (change : TaskChange)
  | addRetry (expected : Nat)
  | addTokens (tokens : Nat)
  | readRun (run : Nat)
  | updateRun (run : Nat) (expected status : WorkerRunStatus)
  | insertRun (attempt : Nat)
  | runIds (liveOnly : Bool)
  | revokeSession (run : Nat)
  | readHandle (run : Nat)
  | prepares
  | supervisorStatus (run : Nat)
  | supervisorSpawn (run : Nat)
  | supervisorTerminate (run : Nat)
  | overdue (run : Nat)
  | lostQueuedTask
  | orphanedTask
deriving DecidableEq, Repr

@[reducible]
def Call.Answer : Call → Type
  | .begins _ | .commits | .rollsBack | .revokeSession _ | .prepares => Unit
  | .supervisorSpawn _ | .supervisorTerminate _ => Unit
  | .readTask | .addTokens _ => Option TaskRow
  | .readTaskForShare => Option TaskStatus
  | .updateTask _ _ | .addRetry _ | .updateRun _ _ _ => Bool
  | .overdue _ | .lostQueuedTask | .orphanedTask => Bool
  | .readRun _ => Option WorkerRunRow
  | .readHandle _ => Option Bool
  | .insertRun _ => Nat
  | .runIds _ => List Nat
  | .supervisorStatus _ => Option TaskSupervisorState

inductive Thrown
  | database
  | supervisor
  | illegalTransition
  | keptChanging
  | noTask
  | noHandle
deriving DecidableEq, Repr

/-- What the world decides about a call: that it fails, that a COMMIT took place but
its answer was lost, what worker-supervisor says, whether enough time has passed. -/
inductive Input
  | proceeds
  | fails
  | answerLost
  | reports (status : Option TaskSupervisorState)
  | elapsed (passed : Bool)
deriving DecidableEq, Repr

namespace TaskStore

variable (store : TaskStore)

def withRows (rows : ReadCommitted.Store Nat TaskKey TaskKey.Row) : TaskStore :=
  { store with rows := rows }

def viewTask (thread : Nat) : Option TaskRow :=
  store.rows.view thread .task

def viewRun (thread run : Nat) : Option WorkerRunRow :=
  store.rows.view thread (.run run)

/-- `select id from worker_runs where task_id = …`, or only those not terminated. -/
def viewRunIds (thread : Nat) (liveOnly : Bool) : List Nat :=
  (List.range store.nextRun).filter fun run =>
    match store.viewRun thread run with
    | none => false
    | some row => !liveOnly || row.live

/-- The WHERE clause of `reapOrphanedTasks`, its age apart. -/
def orphaned (thread : Nat) : Bool :=
  match store.viewTask thread with
  | none => false
  | some row =>
      (row.status = .running || row.status = .waitingApproval) &&
        (store.viewRunIds thread true).isEmpty && !(store.viewRunIds thread false).isEmpty

/-- INSERT of the run and of the Handle minted for it, in the caller's transaction. -/
def insertRun (thread attempt : Nat) : TaskStore :=
  { store with
    rows :=
      (store.rows.write thread (.run store.nextRun)
        { id := store.nextRun, status := .provisioning, attempt := attempt }).write
          thread (.handle store.nextRun) false
    nextRun := store.nextRun + 1 }

def rollback (thread : Nat) : TaskStore :=
  store.withRows (store.rows.rollback thread)

def commit (thread : Nat) : TaskStore :=
  store.withRows (store.rows.commit thread)

/-- The thread a row is read by when no transaction matters. -/
def committedTask : Option TaskRow :=
  store.rows.committed .task

def committedRun (run : Nat) : Option WorkerRunRow :=
  store.rows.committed (.run run)

end TaskStore

/-- How a call throws. A supervisor client throws its own errors. -/
def Call.refusal : Call → Thrown
  | .supervisorStatus _ | .supervisorSpawn _ | .supervisorTerminate _ => .supervisor
  | _ => .database

/-- A call that proceeds. -/
def proceed (thread : Nat) (store : TaskStore) :
    (call : Call) → Option (TaskStore × Except Thrown call.Answer)
  | .begins purpose =>
      some ({ store with purpose := Function.update store.purpose thread purpose }, .ok ())
  | .commits => some (store.commit thread, .ok ())
  | .rollsBack => some (store.rollback thread, .ok ())
  | .readTask => some (store, .ok (store.viewTask thread))
  | .readTaskForShare =>
      (store.rows.lockShared thread .task).map fun moved =>
        (store.withRows moved.1, .ok (moved.2.map (·.status)))
  | .updateTask expected change =>
      (store.rows.updateWhere thread .task (fun row => row.status = expected)
        (·.change change)).map fun moved => (store.withRows moved.1, .ok moved.2)
  | .addRetry expected =>
      (store.rows.updateWhere thread .task
        (fun row => row.retryCount = expected && row.status = .running)
        (fun row => { row with retryCount := row.retryCount + 1 })).map fun moved =>
          (store.withRows moved.1, .ok moved.2)
  | .addTokens tokens =>
      (store.rows.updateWhere thread .task (fun _ => true)
        (fun row => { row with tokensUsed := row.tokensUsed + tokens })).map fun moved =>
          (store.withRows moved.1, .ok ((store.withRows moved.1).viewTask thread))
  | .readRun run => some (store, .ok (store.viewRun thread run))
  | .updateRun run expected status =>
      (store.rows.updateWhere thread (.run run) (fun row => row.status = expected)
        (fun row => { row with status := status })).map fun moved =>
          (store.withRows moved.1, .ok moved.2)
  | .insertRun attempt => some (store.insertRun thread attempt, .ok store.nextRun)
  | .runIds liveOnly => some (store, .ok (store.viewRunIds thread liveOnly))
  | .revokeSession run =>
      (store.rows.updateWhere thread (.handle run) (fun revoked => !revoked)
        (fun _ => true)).map fun moved => (store.withRows moved.1, .ok ())
  | .readHandle run => some (store, .ok (store.rows.view thread (.handle run)))
  | .prepares => some (store, .ok ())
  | .supervisorSpawn _ | .supervisorTerminate _ => some (store, .ok ())
  | .supervisorStatus _ | .overdue _ | .lostQueuedTask | .orphanedTask => none

/-- A call and what the world decides about it. A ROLLBACK always takes place: if it
cannot be sent, the connection is gone. -/
def perform (thread : Nat) (call : Call) (input : Input) (store : TaskStore) :
    Option (TaskStore × Except Thrown call.Answer) :=
  match input, call with
  | .proceeds, call => proceed thread store call
  | .fails, .commits => some (store.rollback thread, .error .database)
  | .fails, .rollsBack => some (store.rollback thread, .ok ())
  | .fails, call => some (store, .error call.refusal)
  | .answerLost, .commits => some (store.commit thread, .error .database)
  | .reports status, .supervisorStatus _ => some (store, .ok status)
  | .elapsed passed, .overdue _ => some (store, .ok passed)
  | .elapsed passed, .lostQueuedTask =>
      some (store, .ok (passed && (store.viewTask thread).any (·.status = .queued)))
  | .elapsed passed, .orphanedTask => some (store, .ok (passed && store.orphaned thread))
  | _, _ => none

/-- A kernel that dies leaves its transaction to be rolled back. -/
def taskMachine : Machine Nat Input TaskStore Call Call.Answer Thrown where
  performs := perform
  abandons thread store := store.rollback thread

/-! ### What a call commits -/

theorem withRows_committed {store : TaskStore} {thread : Nat} {key : TaskKey}
    {guard : key.Row → Bool} {change : key.Row → key.Row}
    {moved : ReadCommitted.Store Nat TaskKey TaskKey.Row × Bool}
    (updated : store.rows.updateWhere thread key guard change = some moved) :
    moved.1.committed = store.rows.committed := by
  rcases ReadCommitted.Store.updateWhere_cases updated with ⟨rfl, _⟩ | ⟨_, _, _, _, rfl⟩
  · rfl
  · rfl

/-- Only a COMMIT that takes place moves the committed rows: to what its thread saw. -/
theorem perform_committed {store : TaskStore} {thread : Nat} {op : Call} {input : Input}
    {moved : TaskStore × Except Thrown op.Answer}
    (performed : perform thread op input store = some moved) :
    moved.1.rows.committed = store.rows.committed ∨
      op = .commits ∧ moved.1 = store.commit thread := by
  have proceeds : ∀ {op : Call} {moved : TaskStore × Except Thrown op.Answer},
      proceed thread store op = some moved →
        moved.1.rows.committed = store.rows.committed ∨
          op = .commits ∧ moved.1 = store.commit thread := by
    intro op moved performed
    cases op with
    | commits => cases performed; exact Or.inr ⟨rfl, rfl⟩
    | updateTask expected change =>
        obtain ⟨locked, found, rfl⟩ := Option.map_eq_some_iff.mp performed
        exact Or.inl (withRows_committed found)
    | addRetry expected =>
        obtain ⟨locked, found, rfl⟩ := Option.map_eq_some_iff.mp performed
        exact Or.inl (withRows_committed found)
    | addTokens tokens =>
        obtain ⟨locked, found, rfl⟩ := Option.map_eq_some_iff.mp performed
        exact Or.inl (withRows_committed found)
    | updateRun run expected status =>
        obtain ⟨locked, found, rfl⟩ := Option.map_eq_some_iff.mp performed
        exact Or.inl (withRows_committed found)
    | revokeSession run =>
        obtain ⟨locked, found, rfl⟩ := Option.map_eq_some_iff.mp performed
        exact Or.inl (withRows_committed found)
    | readTaskForShare =>
        obtain ⟨locked, found, rfl⟩ := Option.map_eq_some_iff.mp performed
        exact Or.inl (ReadCommitted.Store.lockShared_some found).2.1
    | supervisorStatus run => cases performed
    | overdue run => cases performed
    | lostQueuedTask => cases performed
    | orphanedTask => cases performed
    | _ => cases performed; exact Or.inl rfl
  cases input with
  | proceeds => exact proceeds performed
  | fails => cases op <;> cases performed <;> exact Or.inl rfl
  | answerLost =>
      cases op with
      | commits => cases performed; exact Or.inr ⟨rfl, rfl⟩
      | _ => cases performed
  | reports status =>
      cases op with
      | supervisorStatus run => cases performed; exact Or.inl rfl
      | _ => cases performed
  | elapsed passed =>
      cases op with
      | overdue run => cases performed; exact Or.inl rfl
      | lostQueuedTask => cases performed; exact Or.inl rfl
      | orphanedTask => cases performed; exact Or.inl rfl
      | _ => cases performed

end NextTime.Task
