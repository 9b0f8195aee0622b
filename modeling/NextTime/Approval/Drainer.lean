import NextTime.Approval.Queue
import NextTime.Library.LabelledRun
import Mathlib.Data.List.Sort

/-
The queue of one Gatekeeper under any number of drainers. A drainer reads a
snapshot in one transaction and starts the planned row in another, whose
statements are steps of their own: the row lock, the lock of the guard trigger,
the trigger's read of what is executing, and the commit. A row inserted by a
request becomes visible when its transaction commits, with any timestamp.
-/

namespace NextTime.Approval

structure ActionRequestRow extends QueueEntry where
  requestedAt : Int
deriving DecidableEq, Repr

/-- `order by requested_at asc, id asc`. -/
def requestedBefore (a b : ActionRequestRow) : Bool :=
  a.requestedAt < b.requestedAt || (a.requestedAt == b.requestedAt && a.id ≤ b.id)

def listExecutableQueue (table : List ActionRequestRow) : List QueueEntry :=
  ((table.filter fun row => queuedStatus row.status).insertionSort
    (fun a b => requestedBefore a b = true)).map (·.toQueueEntry)

/-- Where a drainer stands with the row it planned from its snapshot. In
`checked` the row is updated and not yet committed. -/
inductive DrainerPhase
  | idle
  | planned (snapshot : List QueueEntry) (row : QueueEntry)
  | rowLocked (snapshot : List QueueEntry) (row : QueueEntry) (read : ActionRequestStatus)
  | gateLocked (snapshot : List QueueEntry) (row : QueueEntry) (read : ActionRequestStatus)
  | checked (snapshot : List QueueEntry) (row : QueueEntry)
  | running (snapshot : List QueueEntry) (row : QueueEntry)
deriving DecidableEq, Repr

inductive ExecutorResult
  | ok
  | failed
  | indeterminate
deriving DecidableEq, Repr

structure GateQueue where
  table : List ActionRequestRow
  drainers : Nat → DrainerPhase
  rowLock : Nat → Option Nat
  gateLock : Option Nat

inductive QueueLabel
  | requestCommits (row : ActionRequestRow)
  | transitions (id : Nat) (event : ActionRequestEvent)
  | reads (drainer : Nat)
  | locksRow (drainer : Nat)
  | locksGate (drainer : Nat)
  | checks (drainer : Nat)
  | commits (drainer : Nat)
  | aborts (drainer : Nat)
  | executorEnds (drainer : Nat) (result : ExecutorResult)
deriving DecidableEq, Repr

def findRow (table : List ActionRequestRow) (id : Nat) : Option ActionRequestRow :=
  table.find? fun row => row.id == id

def ActionRequestRow.withStatus (row : ActionRequestRow) (status : ActionRequestStatus) :
    ActionRequestRow :=
  { row with status }

def setStatus (table : List ActionRequestRow) (id : Nat) (status : ActionRequestStatus) :
    List ActionRequestRow :=
  table.map fun row => if row.id = id then row.withStatus status else row

/-- The rows the guard trigger finds: executing, of another id, in conflict. -/
def conflictingExecuting (table : List ActionRequestRow) (row : ActionRequestRow) :
    List ActionRequestRow :=
  table.filter fun running =>
    running.status == .executing && running.id != row.id &&
      action_request_targets_conflict running.target row.target

namespace GateQueue

variable (state : GateQueue)

def setDrainer (drainer : Nat) (phase : DrainerPhase) : GateQueue :=
  { state with drainers := fun other => if other = drainer then phase else state.drainers other }

/-- The end of a drainer's transaction: its locks are gone. -/
def releases (drainer : Nat) (phase : DrainerPhase) : GateQueue :=
  { state.setDrainer drainer phase with
    rowLock := fun row => if state.rowLock row = some drainer then none else state.rowLock row
    gateLock := if state.gateLock = some drainer then none else state.gateLock }

end GateQueue

/-- The statuses one insert of a request can leave a row in. -/
def insertedStatus : ActionRequestStatus → Bool
  | .autoApproved | .pendingApproval | .denied => true
  | _ => false

/-- A transition made under the row's lock by a transaction that is no start. -/
def transitionRow (state : GateQueue) (id : Nat) (event : ActionRequestEvent) :
    Option GateQueue :=
  match findRow state.table id with
  | none => none
  | some row =>
      if event = .startExecution ∨ (state.rowLock id).isSome then none
      else
        (transition row.status event).map fun status =>
          { state with table := setStatus state.table id status }

def drainerReads (state : GateQueue) (drainer : Nat) : Option GateQueue :=
  if state.drainers drainer = .idle then
    let snapshot := listExecutableQueue state.table
    match (planGatekeeperQueue snapshot).next with
    | none => some state
    | some row => some (state.setDrainer drainer (.planned snapshot row))
  else none

/-- `select … for update` and the transition table: a row that moved since the
snapshot is refused and the queue is read again. -/
def drainerLocksRow (state : GateQueue) (drainer : Nat) : Option GateQueue :=
  match state.drainers drainer with
  | .planned snapshot row =>
      if (state.rowLock row.id).isSome then none
      else
        match findRow state.table row.id with
        | none => some (state.setDrainer drainer .idle)
        | some current =>
            if transition current.status .startExecution = some .executing then
              some
                { state.setDrainer drainer (.rowLocked snapshot row current.status) with
                  rowLock := fun other =>
                    if other = row.id then some drainer else state.rowLock other }
            else some (state.setDrainer drainer .idle)
  | _ => none

/-- The conditional update reaches the guard trigger, which takes the gate's lock. -/
def drainerLocksGate (state : GateQueue) (drainer : Nat) : Option GateQueue :=
  match state.drainers drainer with
  | .rowLocked snapshot row read =>
      if state.gateLock.isSome then none
      else
        some
          { state.setDrainer drainer (.gateLocked snapshot row read) with
            gateLock := some drainer }
  | _ => none

/-- The trigger reads what is executing, after the lock; a conflict refuses the start. -/
def drainerChecks (state : GateQueue) (drainer : Nat) : Option GateQueue :=
  match state.drainers drainer with
  | .gateLocked snapshot row read =>
      match findRow state.table row.id with
      | none => some (state.releases drainer .idle)
      | some current =>
          if current.status ≠ read ∨ conflictingExecuting state.table current ≠ [] then
            some (state.releases drainer .idle)
          else some (state.setDrainer drainer (.checked snapshot row))
  | _ => none

def drainerCommits (state : GateQueue) (drainer : Nat) : Option GateQueue :=
  match state.drainers drainer with
  | .checked snapshot row =>
      some
        { state.releases drainer (.running snapshot row) with
          table := setStatus state.table row.id .executing }
  | _ => none

/-- A transaction that rolls back, or a drainer that stops. -/
def drainerAborts (state : GateQueue) (drainer : Nat) : Option GateQueue :=
  some (state.releases drainer .idle)

/-- An indeterminate result leaves the row executing. -/
def executorEnds (state : GateQueue) (drainer : Nat) (result : ExecutorResult) :
    Option GateQueue :=
  match state.drainers drainer with
  | .running _ row =>
      let idle := state.setDrainer drainer .idle
      match result with
      | .indeterminate => some idle
      | .ok => some ((transitionRow idle row.id .complete).getD idle)
      | .failed => some ((transitionRow idle row.id .fail).getD idle)
  | _ => none

def queueStep (state : GateQueue) : QueueLabel → Option GateQueue
  | .requestCommits row =>
      if insertedStatus row.status && (findRow state.table row.id).isNone then
        some { state with table := state.table ++ [row] }
      else none
  | .transitions id event => transitionRow state id event
  | .reads drainer => drainerReads state drainer
  | .locksRow drainer => drainerLocksRow state drainer
  | .locksGate drainer => drainerLocksGate state drainer
  | .checks drainer => drainerChecks state drainer
  | .commits drainer => drainerCommits state drainer
  | .aborts drainer => drainerAborts state drainer
  | .executorEnds drainer result => executorEnds state drainer result

/-- Any rows, none of them executing, and nothing under way. -/
structure QuietQueue (state : GateQueue) : Prop where
  distinct : (state.table.map (·.id)).Nodup
  notExecuting : ∀ row ∈ state.table, row.status ≠ .executing
  drainers : ∀ drainer, state.drainers drainer = .idle
  rowLock : ∀ row, state.rowLock row = none
  gateLock : state.gateLock = none

def queueSystem : LabelledRun.System GateQueue QueueLabel :=
  { initial := QuietQueue
    step := queueStep }

/-! ### The table under a change of one status -/

theorem setStatus_ids (table : List ActionRequestRow) (id : Nat) (status : ActionRequestStatus) :
    (setStatus table id status).map (·.id) = table.map (·.id) := by
  simp only [setStatus, List.map_map]
  apply List.map_congr_left
  intro row _member
  simp only [Function.comp]
  split <;> rfl

/-- A row of the changed table is a row of the old one, with the same identity. -/
theorem mem_setStatus {table : List ActionRequestRow} {id : Nat} {status : ActionRequestStatus}
    {row : ActionRequestRow} (member : row ∈ setStatus table id status) :
    ∃ old ∈ table, row.id = old.id ∧ row.target = old.target ∧
      ((old.id = id ∧ row.status = status) ∨ (old.id ≠ id ∧ row.status = old.status)) := by
  obtain ⟨old, inTable, same⟩ := List.mem_map.mp member
  refine ⟨old, inTable, ?_⟩
  by_cases chosen : old.id = id
  · rw [if_pos chosen] at same
    subst same
    exact ⟨rfl, rfl, .inl ⟨chosen, rfl⟩⟩
  · rw [if_neg chosen] at same
    subst same
    exact ⟨rfl, rfl, .inr ⟨chosen, rfl⟩⟩

theorem findRow_some {table : List ActionRequestRow} {id : Nat} {row : ActionRequestRow}
    (found : findRow table id = some row) : row ∈ table ∧ row.id = id :=
  ⟨List.mem_of_find?_eq_some found, by simpa using List.find?_some found⟩

theorem findRow_none {table : List ActionRequestRow} {id : Nat}
    (absent : findRow table id = none) {row : ActionRequestRow} (member : row ∈ table) :
    row.id ≠ id := by
  simpa using List.find?_eq_none.mp absent row member

theorem same_of_id {table : List ActionRequestRow} (distinct : (table.map (·.id)).Nodup)
    {first second : ActionRequestRow} (inFirst : first ∈ table) (inSecond : second ∈ table)
    (same : first.id = second.id) : first = second :=
  List.inj_on_of_nodup_map distinct inFirst inSecond same

/-! ### The invariant -/

/-- No two executing rows of the table conflict. -/
def ExecutingApart (table : List ActionRequestRow) : Prop :=
  ∀ first ∈ table, ∀ second ∈ table, first.status = .executing → second.status = .executing →
    first.id ≠ second.id → action_request_targets_conflict first.target second.target = false

/-- The row is in the table and nothing executing there conflicts with it. -/
def ClearToRun (table : List ActionRequestRow) (id : Nat) : Prop :=
  ∃ mine ∈ table, mine.id = id ∧ ∀ other ∈ table, other.status = .executing → other.id ≠ id →
    action_request_targets_conflict other.target mine.target = false

/-- The snapshot a drainer acts on, with the row it planned from it. -/
def DrainerPhase.plan : DrainerPhase → Option (List QueueEntry × QueueEntry)
  | .idle => none
  | .planned snapshot row | .rowLocked snapshot row _ | .gateLocked snapshot row _
  | .checked snapshot row | .running snapshot row => some (snapshot, row)

def DrainerPhase.holdsGate : DrainerPhase → Bool
  | .gateLocked _ _ _ | .checked _ _ => true
  | _ => false

structure QueueSafe (state : GateQueue) : Prop where
  distinct : (state.table.map (·.id)).Nodup
  apart : ExecutingApart state.table
  holder : ∀ drainer, (state.drainers drainer).holdsGate = true →
    state.gateLock = some drainer
  clear : ∀ drainer snapshot row, state.drainers drainer = .checked snapshot row →
    ClearToRun state.table row.id
  planned : ∀ drainer snapshot row, (state.drainers drainer).plan = some (snapshot, row) →
    (planGatekeeperQueue snapshot).next = some row

/-- Only commits of the holder of the gate's lock add executing rows: any other
change of one status keeps the executing rows apart and a checked row clear. -/
theorem ExecutingApart.ended {table : List ActionRequestRow} (apart : ExecutingApart table)
    {id : Nat} {status : ActionRequestStatus} (ends : status ≠ .executing) :
    ExecutingApart (setStatus table id status) := by
  have before : ∀ row ∈ setStatus table id status, row.status = .executing →
      ∃ old ∈ table, row.id = old.id ∧ row.target = old.target ∧ old.status = .executing := by
    intro row member executing
    obtain ⟨old, inTable, sameId, sameTarget, changed | ⟨_, sameStatus⟩⟩ := mem_setStatus member
    · exact absurd (changed.2.symm.trans executing) ends
    · exact ⟨old, inTable, sameId, sameTarget, sameStatus ▸ executing⟩
  intro first inFirst second inSecond firstRuns secondRuns different
  obtain ⟨oldFirst, inTable, firstId, firstTarget, firstRan⟩ := before first inFirst firstRuns
  obtain ⟨oldSecond, inTable', secondId, secondTarget, secondRan⟩ :=
    before second inSecond secondRuns
  rw [firstTarget, secondTarget]
  exact apart oldFirst inTable oldSecond inTable' firstRan secondRan
    (by rwa [← firstId, ← secondId])

theorem ClearToRun.ended {table : List ActionRequestRow} {mine id : Nat}
    (clear : ClearToRun table mine) {status : ActionRequestStatus} (ends : status ≠ .executing) :
    ClearToRun (setStatus table id status) mine := by
  obtain ⟨row, inTable, sameId, free⟩ := clear
  refine ⟨if row.id = id then row.withStatus status else row, ?_, ?_, ?_⟩
  · exact List.mem_map_of_mem (f := fun row => if row.id = id then row.withStatus status else row)
      inTable
  · split <;> exact sameId
  · intro other member executing different
    have sameTarget : (if row.id = id then row.withStatus status else row).target = row.target := by
      split <;> rfl
    obtain ⟨old, inTable', otherId, otherTarget, changed | ⟨_, sameStatus⟩⟩ := mem_setStatus member
    · exact absurd (changed.2.symm.trans executing) ends
    · rw [sameTarget, otherTarget]
      exact free old inTable' (sameStatus ▸ executing) (otherId ▸ different)

/-- The start of a row that is clear to run keeps the executing rows apart. -/
theorem ExecutingApart.start {table : List ActionRequestRow} (apart : ExecutingApart table)
    (distinct : (table.map (·.id)).Nodup) {id : Nat} (clear : ClearToRun table id) :
    ExecutingApart (setStatus table id .executing) := by
  obtain ⟨mine, inTable, sameId, free⟩ := clear
  intro first inFirst second inSecond firstRuns secondRuns different
  obtain ⟨oldFirst, firstIn, firstId, firstTarget, firstCase⟩ := mem_setStatus inFirst
  obtain ⟨oldSecond, secondIn, secondId, secondTarget, secondCase⟩ := mem_setStatus inSecond
  rw [firstTarget, secondTarget]
  have isMine : ∀ {old : ActionRequestRow}, old ∈ table → old.id = id → old = mine := by
    intro old inside same
    exact same_of_id distinct inside inTable (same.trans sameId.symm)
  rcases firstCase with ⟨firstChosen, _⟩ | ⟨firstOther, firstStatus⟩ <;>
    rcases secondCase with ⟨secondChosen, _⟩ | ⟨secondOther, secondStatus⟩
  · exact absurd (firstId.trans (firstChosen.trans (secondChosen.symm.trans secondId.symm)))
      different
  · rw [isMine firstIn firstChosen, targetsConflict_symm]
    exact free oldSecond secondIn (secondStatus ▸ secondRuns) secondOther
  · rw [isMine secondIn secondChosen]
    exact free oldFirst firstIn (firstStatus ▸ firstRuns) firstOther
  · exact apart oldFirst firstIn oldSecond secondIn (firstStatus ▸ firstRuns)
      (secondStatus ▸ secondRuns) (by rwa [← firstId, ← secondId])

/-! ### One step -/

private theorem releases_phase (state : GateQueue) (drainer other : Nat) (phase : DrainerPhase) :
    (state.releases drainer phase).drainers other =
      if other = drainer then phase else state.drainers other := rfl

/-- A transition that is no start. -/
theorem QueueSafe.transitions {state next : GateQueue} (safe : QueueSafe state) {id : Nat}
    {event : ActionRequestEvent} (moved : transitionRow state id event = some next) :
    QueueSafe next := by
  unfold transitionRow at moved
  split at moved
  · cases moved
  · next row found =>
      split at moved
      · cases moved
      · next allowed =>
          obtain ⟨status, edge, rfl⟩ := Option.map_eq_some_iff.mp moved
          have ends : status ≠ .executing := by
            intro starts
            rw [starts, transition_executing] at edge
            exact allowed (.inl edge.1)
          exact
            { distinct := (setStatus_ids state.table id status).symm ▸ safe.distinct
              apart := safe.apart.ended ends
              holder := safe.holder
              clear := fun drainer snapshot row at_ => (safe.clear drainer snapshot row at_).ended ends
              planned := safe.planned }

/-- A drainer that leaves the gate's lock alone and checks nothing. -/
theorem QueueSafe.setDrainer {state : GateQueue} (safe : QueueSafe state) (drainer : Nat)
    {phase : DrainerPhase} (free : phase.holdsGate = false)
    (planned : ∀ snapshot row, phase.plan = some (snapshot, row) →
      (planGatekeeperQueue snapshot).next = some row) :
    QueueSafe (state.setDrainer drainer phase) := by
  refine
    { distinct := safe.distinct, apart := safe.apart, holder := ?_, clear := ?_, planned := ?_ }
  · intro other holds
    simp only [GateQueue.setDrainer] at holds
    split at holds
    · rw [free] at holds
      cases holds
    · exact safe.holder other holds
  · intro other snapshot row at_
    simp only [GateQueue.setDrainer] at at_
    split at at_
    · rw [at_] at free
      cases free
    · exact safe.clear other snapshot row at_
  · intro other snapshot row at_
    simp only [GateQueue.setDrainer] at at_
    split at at_
    · exact planned snapshot row at_
    · exact safe.planned other snapshot row at_

/-- The end of a transaction, with the drainer out of the gate's lock. -/
theorem QueueSafe.releases {state : GateQueue} (safe : QueueSafe state) (drainer : Nat)
    {phase : DrainerPhase} (free : phase.holdsGate = false)
    (planned : ∀ snapshot row, phase.plan = some (snapshot, row) →
      (planGatekeeperQueue snapshot).next = some row) :
    QueueSafe (state.releases drainer phase) := by
  have moved := safe.setDrainer drainer free planned
  refine
    { distinct := moved.distinct, apart := moved.apart, holder := ?_, clear := moved.clear,
      planned := moved.planned }
  intro other holds
  have held := moved.holder other holds
  have different : other ≠ drainer := by
    intro same
    rw [same, releases_phase, if_pos rfl, free] at holds
    cases holds
  have isHeld : state.gateLock = some other := held
  simp only [GateQueue.releases, isHeld, Option.some.injEq, different, if_false]

private theorem idle_plan {snapshot : List QueueEntry} {row : QueueEntry}
    (planned : DrainerPhase.idle.plan = some (snapshot, row)) :
    (planGatekeeperQueue snapshot).next = some row := nomatch planned

theorem QueueSafe.reads {state next : GateQueue} (safe : QueueSafe state) {drainer : Nat}
    (moved : drainerReads state drainer = some next) : QueueSafe next := by
  unfold drainerReads at moved
  split at moved
  · next idle =>
      dsimp only at moved
      split at moved <;> cases moved
      · exact safe
      · next row chosen =>
          refine safe.setDrainer drainer rfl ?_
          intro snapshot planned same
          cases same
          exact chosen
  · cases moved

theorem QueueSafe.locksRow {state next : GateQueue} (safe : QueueSafe state) {drainer : Nat}
    (moved : drainerLocksRow state drainer = some next) : QueueSafe next := by
  unfold drainerLocksRow at moved
  split at moved
  · next snapshot row at_ =>
      split at moved
      · cases moved
      · split at moved
        · cases moved
          exact safe.setDrainer drainer rfl (fun _ _ => idle_plan)
        · next current found =>
            split at moved <;> cases moved
            · have planned : ∀ snapshot' row',
                  (DrainerPhase.rowLocked snapshot row current.status).plan =
                    some (snapshot', row') → (planGatekeeperQueue snapshot').next = some row' := by
                intro snapshot' row' same
                cases same
                exact safe.planned drainer snapshot row (by rw [at_]; rfl)
              have kept := safe.setDrainer drainer rfl planned
              exact
                { distinct := kept.distinct, apart := kept.apart, holder := kept.holder,
                  clear := kept.clear, planned := kept.planned }
            · exact safe.setDrainer drainer rfl (fun _ _ => idle_plan)
  · cases moved

/-- The gate's lock goes to one drainer at a time. -/
theorem QueueSafe.locksGate {state next : GateQueue} (safe : QueueSafe state) {drainer : Nat}
    (moved : drainerLocksGate state drainer = some next) : QueueSafe next := by
  unfold drainerLocksGate at moved
  split at moved
  · next snapshot row read at_ =>
      split at moved <;> cases moved
      next unheld =>
      have noHolder : ∀ other, (state.drainers other).holdsGate = false := by
        intro other
        cases holds : (state.drainers other).holdsGate with
        | false => rfl
        | true =>
            rw [safe.holder other holds] at unheld
            exact absurd rfl unheld
      refine
        { distinct := safe.distinct, apart := safe.apart, holder := ?_, clear := ?_,
          planned := ?_ }
      · intro other holds
        simp only [GateQueue.setDrainer] at holds ⊢
        split at holds
        · next same => rw [same]
        · rw [noHolder other] at holds
          cases holds
      · intro other snapshot' row' isChecked
        simp only [GateQueue.setDrainer] at isChecked
        split at isChecked
        · cases isChecked
        · exact safe.clear other snapshot' row' isChecked
      · intro other snapshot' row' planned
        simp only [GateQueue.setDrainer] at planned
        split at planned
        · cases planned
          exact safe.planned drainer snapshot row (by rw [at_]; rfl)
        · exact safe.planned other snapshot' row' planned
  · cases moved

/-- The trigger's read, made while no other start on the gate can commit. -/
theorem QueueSafe.checks {state next : GateQueue} (safe : QueueSafe state) {drainer : Nat}
    (moved : drainerChecks state drainer = some next) : QueueSafe next := by
  unfold drainerChecks at moved
  split at moved
  · next snapshot row read at_ =>
      split at moved
      · cases moved
        exact safe.releases drainer rfl (fun _ _ => idle_plan)
      · next current found =>
          split at moved <;> cases moved
          · exact safe.releases drainer rfl (fun _ _ => idle_plan)
          · next passed =>
              have free : conflictingExecuting state.table current = [] := by
                by_contra conflicting
                exact passed (.inr conflicting)
              have clear : ClearToRun state.table row.id := by
                obtain ⟨member, sameId⟩ := findRow_some found
                refine ⟨current, member, sameId, ?_⟩
                intro other inside executing different
                have skipped := List.filter_eq_nil_iff.mp free other inside
                simpa [executing, sameId, different] using skipped
              refine
                { distinct := safe.distinct, apart := safe.apart, holder := ?_, clear := ?_,
                  planned := ?_ }
              · intro other holds
                simp only [GateQueue.setDrainer] at holds
                split at holds
                · next same =>
                    subst same
                    exact safe.holder other (by rw [at_]; rfl)
                · exact safe.holder other holds
              · intro other snapshot' row' isChecked
                simp only [GateQueue.setDrainer] at isChecked
                split at isChecked
                · cases isChecked
                  exact clear
                · exact safe.clear other snapshot' row' isChecked
              · intro other snapshot' row' planned
                simp only [GateQueue.setDrainer] at planned
                split at planned
                · cases planned
                  exact safe.planned drainer snapshot row (by rw [at_]; rfl)
                · exact safe.planned other snapshot' row' planned
  · cases moved

theorem QueueSafe.commits {state next : GateQueue} (safe : QueueSafe state) {drainer : Nat}
    (moved : drainerCommits state drainer = some next) : QueueSafe next := by
  unfold drainerCommits at moved
  split at moved
  · next snapshot row at_ =>
      cases moved
      have clear := safe.clear drainer snapshot row at_
      have planned : ∀ snapshot' row', (DrainerPhase.running snapshot row).plan =
          some (snapshot', row') → (planGatekeeperQueue snapshot').next = some row' := by
        intro snapshot' row' same
        cases same
        exact safe.planned drainer snapshot row (by rw [at_]; rfl)
      have released := safe.releases drainer rfl planned
      refine
        { distinct := (setStatus_ids state.table row.id .executing).symm ▸ safe.distinct
          apart := safe.apart.start safe.distinct clear
          holder := released.holder
          clear := ?_
          planned := released.planned }
      -- Whoever is still checked would hold the lock this drainer held.
      intro other snapshot' row' isChecked
      have isChecked' : (state.releases drainer (.running snapshot row)).drainers other =
          .checked snapshot' row' := isChecked
      rw [releases_phase] at isChecked'
      split at isChecked'
      · cases isChecked'
      · next different =>
          have mine := safe.holder drainer (by rw [at_]; rfl)
          have theirs := safe.holder other (by rw [isChecked']; rfl)
          rw [mine, Option.some.injEq] at theirs
          exact absurd theirs.symm different
  · cases moved

theorem QueueSafe.executorEnds {state next : GateQueue} (safe : QueueSafe state) {drainer : Nat}
    {result : ExecutorResult} (moved : executorEnds state drainer result = some next) :
    QueueSafe next := by
  unfold Approval.executorEnds at moved
  split at moved
  · next snapshot row at_ =>
      have idle := safe.setDrainer drainer rfl (fun _ _ => idle_plan)
      have ended : ∀ event, QueueSafe ((transitionRow (state.setDrainer drainer .idle) row.id
          event).getD (state.setDrainer drainer .idle)) := by
        intro event
        cases step : transitionRow (state.setDrainer drainer .idle) row.id event with
        | none => exact idle
        | some next => exact idle.transitions step
      cases result <;> cases moved
      · exact ended .complete
      · exact ended .fail
      · exact idle
  · cases moved

theorem QueueSafe.requestCommits {state : GateQueue} (safe : QueueSafe state)
    {row : ActionRequestRow} (inserted : insertedStatus row.status = true)
    (absent : findRow state.table row.id = none) :
    QueueSafe { state with table := state.table ++ [row] } := by
  have notExecuting : row.status ≠ .executing := by
    intro executing
    rw [executing] at inserted
    cases inserted
  have old : ∀ other ∈ state.table ++ [row], other.status = .executing → other ∈ state.table := by
    intro other member executing
    rcases List.mem_append.mp member with inTable | new
    · exact inTable
    · exact absurd (List.mem_singleton.mp new ▸ executing) notExecuting
  refine
    { distinct := ?_, apart := ?_, holder := safe.holder, clear := ?_, planned := safe.planned }
  · rw [List.map_append, List.nodup_append]
    refine ⟨safe.distinct, by simp, ?_⟩
    intro id inTable other new same
    obtain ⟨held, member, heldId⟩ := List.mem_map.mp inTable
    have newId : other = row.id := by simpa using new
    exact findRow_none absent member (heldId.trans (same.trans newId))
  · intro first inFirst second inSecond firstRuns secondRuns
    exact safe.apart first (old first inFirst firstRuns) second (old second inSecond secondRuns)
      firstRuns secondRuns
  · intro drainer snapshot planned isChecked
    obtain ⟨mine, inTable, sameId, free⟩ := safe.clear drainer snapshot planned isChecked
    refine ⟨mine, List.mem_append_left _ inTable, sameId, ?_⟩
    intro other member executing different
    exact free other (old other member executing) executing different

theorem queueSafe_preserved : queueSystem.Preserved QueueSafe := by
  intro state label next safe moved
  cases label with
  | requestCommits row =>
      simp only [queueSystem, queueStep] at moved
      split at moved <;> cases moved
      next fresh =>
      rw [Bool.and_eq_true, Option.isNone_iff_eq_none] at fresh
      exact safe.requestCommits fresh.1 fresh.2
  | transitions id event => exact safe.transitions moved
  | reads drainer => exact safe.reads moved
  | locksRow drainer => exact safe.locksRow moved
  | locksGate drainer => exact safe.locksGate moved
  | checks drainer => exact safe.checks moved
  | commits drainer => exact safe.commits moved
  | aborts drainer =>
      cases moved
      exact safe.releases drainer rfl (fun _ _ => idle_plan)
  | executorEnds drainer result => exact safe.executorEnds moved

theorem QuietQueue.safe {state : GateQueue} (quiet : QuietQueue state) : QueueSafe state :=
  { distinct := quiet.distinct
    apart := fun first inFirst _ _ executing =>
      absurd executing (quiet.notExecuting first inFirst)
    holder := by
      intro drainer holds
      rw [quiet.drainers drainer] at holds
      cases holds
    clear := by
      intro drainer snapshot row at_
      rw [quiet.drainers drainer] at at_
      cases at_
    planned := by
      intro drainer snapshot row at_
      rw [quiet.drainers drainer] at at_
      cases at_ }

theorem queueSafe_of_reachable {state : GateQueue} (reached : queueSystem.Reachable state) :
    QueueSafe state :=
  queueSystem.invariant (fun _ => QuietQueue.safe) queueSafe_preserved reached

/-! ### The guarantees of the queue -/

/-- Two conflicting requests of one Gatekeeper are never executing together;
the two conflict relations agree; a drainer only acts on a row that nothing
earlier in its snapshot conflicts with; and an unblocked queue goes on. -/
structure QueueGuarantees : Prop where
  exclusive : ∀ state, queueSystem.Reachable state → ∀ first ∈ state.table,
    ∀ second ∈ state.table, first.status = .executing → second.status = .executing →
    first.id ≠ second.id → actionTargetsConflict first.target second.target = false
  agree : ∀ a b, actionTargetsConflict a b = action_request_targets_conflict a b
  inOrder : ∀ state, queueSystem.Reachable state → ∀ drainer snapshot row,
    (state.drainers drainer).plan = some (snapshot, row) →
    ∃ front back, snapshot.filter (fun entry => queuedStatus entry.status) =
        front ++ row :: back ∧
      ∀ earlier ∈ front, actionTargetsConflict earlier.target row.target = false
  progress : ∀ rows : List QueueEntry,
    (∃ row ∈ rows, row.status = .autoApproved ∨ row.status = .approved) →
    (∀ row ∈ rows, row.status ≠ .pendingApproval ∧ row.status ≠ .executing) →
    (planGatekeeperQueue rows).next ≠ none

theorem queue_guarantees : QueueGuarantees :=
  { exclusive := by
      intro state reached first inFirst second inSecond firstRuns secondRuns different
      rw [targetsConflict_agree]
      exact (queueSafe_of_reachable reached).apart first inFirst second inSecond firstRuns
        secondRuns different
    agree := targetsConflict_agree
    inOrder := by
      intro state reached drainer snapshot row at_
      have planned := (queueSafe_of_reachable reached).planned drainer snapshot row at_
      obtain ⟨front, back, split, mayStart⟩ := planGatekeeperQueue_next planned
      exact ⟨front, back, split, mayStart.clear⟩
    progress := fun _ approved unblocked => planGatekeeperQueue_progress approved unblocked }

/-- Two rows that act on the whole gate, the later-stamped one committed first:
both drainers plan a row, and the second start is refused. -/
example :
    (queueSystem.run
      { table := [], drainers := fun _ => .idle, rowLock := fun _ => none, gateLock := none }
      [.requestCommits ⟨⟨2, .autoApproved, none⟩, 20⟩, .reads 0, .locksRow 0,
        .requestCommits ⟨⟨1, .autoApproved, none⟩, 10⟩, .reads 1, .locksGate 0, .checks 0,
        .commits 0, .locksRow 1, .locksGate 1, .checks 1]).map
      (fun state => (state.table.map (·.status), state.drainers 1)) =
    some ([.executing, .autoApproved], .idle) := by decide

end NextTime.Approval
