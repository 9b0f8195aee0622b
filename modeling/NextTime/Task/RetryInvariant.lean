import NextTime.Task.RetryMarks

/-
What ties the marks of all threads to the tables: who holds the right to insert
a run and what the runs then are, which rows an open transaction has written,
and that a run that ended is committed with its Handle revoked.
-/

namespace NextTime.Task

open Interleaving

namespace TaskStore

variable (store : TaskStore)

def retryCountIs (count : Nat) : Prop :=
  ∀ base : TaskRow, store.rows.committed .task = some base → base.retryCount = count

def noRuns : Prop :=
  ∀ run, store.rows.committed (.run run) = none

/-- All there is is one first run, and it has ended. -/
def onlyFirstEnded : Prop :=
  ∃ only, ∀ run (row : WorkerRunRow), store.rows.committed (.run run) = some row →
    run = only ∧ row.status = .terminated ∧ row.attempt = 1

/-- One run of the first attempt; once the retry is claimed and that run has ended, at
most one more. -/
def Lineage : Prop :=
  (∃ first, ∀ run (row : WorkerRunRow), store.rows.committed (.run run) = some row →
    run = first ∧ row.attempt = 1) ∨
  store.retryCountIs 1 ∧
    ∃ first retry, ∀ run (row : WorkerRunRow), store.rows.committed (.run run) = some row →
      run = first ∧ row.status = .terminated ∧ row.attempt = 1 ∨ run = retry

/-- The committed rows by themselves. -/
structure RowsHold : Prop where
  exclusive : store.rows.Exclusive
  task : ∃ row : TaskRow, store.rows.committed .task = some row ∧ row.retryCount ≤ 1
  freshRun : ∀ run, store.nextRun ≤ run →
    store.rows.committed (.run run) = none ∧ store.rows.pending (.run run) = none
  freshHandle : ∀ run, store.nextRun ≤ run →
    store.rows.committed (.handle run) = none ∧ store.rows.pending (.handle run) = none
  handled : ∀ run (row : WorkerRunRow), store.rows.committed (.run run) = some row →
    ∃ revoked : Bool, store.rows.committed (.handle run) = some revoked
  revoked : ∀ run (row : WorkerRunRow), store.rows.committed (.run run) = some row →
    row.status = .terminated → store.rows.committed (.handle run) = some true
  lineage : store.Lineage
  unshared : ∀ key, key ≠ .task → store.rows.sharers key = []

/-- What an uncommitted version may change of the row it replaces. -/
structure PendingHold : Prop where
  task : ∀ thread (row base : TaskRow), store.rows.pending .task = some (thread, row) →
    store.rows.committed .task = some base → row.status = base.status ∨ base.status.ended = false
  run : ∀ thread run (row base : WorkerRunRow), store.rows.pending (.run run) = some (thread, row) →
    store.rows.committed (.run run) = some base →
    base.status ≠ .terminated ∧ row.attempt = base.attempt
  handle : ∀ thread run (revoked : Bool),
    store.rows.pending (.handle run) = some (thread, revoked) →
    revoked = true ∨ store.rows.committed (.handle run) = none

/-- The run this transaction has inserted, with its Handle. -/
def Inserted (thread run : Nat) : Prop :=
  (∃ row : WorkerRunRow, store.rows.pending (.run run) = some (thread, row) ∧
    row.status ≠ .terminated ∧ (store.retryCountIs 0 → row.attempt = 1)) ∧
  ∃ revoked : Bool, store.rows.pending (.handle run) = some (thread, revoked)

/-- The run this transaction has ended. -/
def Ended (thread run : Nat) : Prop :=
  ∃ row base : WorkerRunRow, store.rows.pending (.run run) = some (thread, row) ∧
    row.status = .terminated ∧ store.rows.committed (.run run) = some base

def RightHolds (thread : Nat) (mark : Mark) : Prop :=
  match mark.right with
  | .none => True
  | .first => store.noRuns ∧ store.retryCountIs 0
  | .firstInserted run =>
      mark.stage = .sharing ∧ store.noRuns ∧ store.retryCountIs 0 ∧ store.Inserted thread run
  | .claims run =>
      store.retryCountIs 0 ∧ store.Ended thread run ∧
        ∃ row : TaskRow, store.rows.pending .task = some (thread, row) ∧ row.retryCount = 1
  | .retry => store.onlyFirstEnded ∧ store.retryCountIs 1
  | .retryInserted run =>
      mark.stage = .sharing ∧ store.onlyFirstEnded ∧ store.retryCountIs 1 ∧
        store.Inserted thread run

structure MarkHolds (thread : Nat) (mark : Mark) : Prop where
  unwritten : mark.stage = .closed ∨ mark.stage = .opened →
    ∀ row : TaskRow, store.rows.pending .task ≠ some (thread, row)
  sharing : mark.stage = .sharing → thread ∈ store.rows.sharers .task ∧
    store.rows.pending .task = none ∧
    ∀ base : TaskRow, store.rows.committed .task = some base → base.status.ended = false
  ended : ∀ run, mark.ended = some run → store.Ended thread run
  revokes : ∀ run (row : WorkerRunRow), store.rows.pending (.run run) = some (thread, row) →
    row.status = .terminated →
    store.rows.view thread (.handle run) = some true ∨ run ∈ mark.unrevoked
  inserted : ∀ run (row : WorkerRunRow), store.rows.pending (.run run) = some (thread, row) →
    store.rows.committed (.run run) = none →
    mark.right = .firstInserted run ∨ mark.right = .retryInserted run
  retryCount : ∀ row base : TaskRow, store.rows.pending .task = some (thread, row) →
    store.rows.committed .task = some base →
    row.retryCount = base.retryCount ∨ row.retryCount = 1 ∧ ∃ run, mark.right = .claims run
  right : store.RightHolds thread mark

structure Consistent (marks : Nat → Mark) : Prop where
  rows : store.RowsHold
  pending : store.PendingHold
  mark : ∀ thread, store.MarkHolds thread (marks thread)
  alone : ∀ thread other, (marks thread).right ≠ .none → (marks other).right ≠ .none →
    thread = other

variable {store}

/-! ### Marks that change while the tables do not -/

theorem MarkHolds.resting {thread : Nat} {right : Right}
    (unwritten : ∀ row : TaskRow, store.rows.pending .task ≠ some (thread, row))
    (unended : ∀ run (row : WorkerRunRow), store.rows.pending (.run run) ≠ some (thread, row))
    (held : store.RightHolds thread (.resting right)) :
    store.MarkHolds thread (.resting right) where
  unwritten := fun _ => unwritten
  sharing := nofun
  ended := nofun
  revokes := fun run row found => absurd found (unended run row)
  inserted := fun run row found => absurd found (unended run row)
  retryCount := fun row _ found => absurd found (unwritten row)
  right := held

/-- A new mark of one thread, with no more right than it had. -/
theorem Consistent.remark {marks : Nat → Mark} (fits : store.Consistent marks) {thread : Nat}
    {mark : Mark} (holds : store.MarkHolds thread mark)
    (entitled : mark.right ≠ .none → (marks thread).right ≠ .none) :
    store.Consistent (Function.update marks thread mark) where
  rows := fits.rows
  pending := fits.pending
  mark := fun other => by
    by_cases same : other = thread
    · subst same
      rw [Function.update_self]
      exact holds
    · rw [Function.update_of_ne same]
      exact fits.mark other
  alone := fun one other first second => by
    have before : ∀ who, (Function.update marks thread mark who).right ≠ .none →
        (marks who).right ≠ .none := by
      intro who some'
      by_cases same : who = thread
      · subst same
        rw [Function.update_self] at some'
        exact entitled some'
      · rw [Function.update_of_ne same] at some'
        exact some'
    exact fits.alone one other (before one first) (before other second)

/-- Everything but the rows and the run counter is beside the point. -/
theorem Consistent.congr {marks : Nat → Mark} (fits : store.Consistent marks) {other : TaskStore}
    (rows : other.rows = store.rows) (nextRun : other.nextRun = store.nextRun) :
    other.Consistent marks := by
  obtain ⟨_, _, purpose⟩ := other
  subst rows
  subst nextRun
  exact
    { rows := ⟨fits.rows.exclusive, fits.rows.task, fits.rows.freshRun, fits.rows.freshHandle,
        fits.rows.handled, fits.rows.revoked, fits.rows.lineage, fits.rows.unshared⟩
      pending := ⟨fits.pending.task, fits.pending.run, fits.pending.handle⟩
      mark := fun thread =>
        { unwritten := (fits.mark thread).unwritten
          sharing := (fits.mark thread).sharing
          ended := (fits.mark thread).ended
          revokes := (fits.mark thread).revokes
          inserted := (fits.mark thread).inserted
          retryCount := (fits.mark thread).retryCount
          right := (fits.mark thread).right }
      alone := fits.alone }

end TaskStore
end NextTime.Task
