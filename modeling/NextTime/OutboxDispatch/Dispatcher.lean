import NextTime.Library.LabelledRun
import Mathlib.Data.List.Basic

/-
The dispatcher of the outbox, statement by statement: the claim of a row is committed with the
attempt counted, then the row is delivered in a transaction of its own. The process can crash
between any two statements, which leaves what is committed.
-/

namespace NextTime.OutboxDispatch

/-- The ids of all workspaces are of one sequence. -/
structure OutboxRow (EventType : Type) where
  id : Nat
  eventType : EventType
  attempts : Nat
  dispatched : Bool
deriving DecidableEq

structure OutboxDispatcherOptions where
  batchSize : Nat
  maxAttempts : Nat

/-- Where `pollOnce` stands in its loop, by the statement that comes next. -/
inductive Place (EventType Consumer : Type)
  | turn
  | selecting
  | counting (claimed : OutboxRow EventType)
  | counted (claimed : OutboxRow EventType)
  | claimed (claimed : OutboxRow EventType)
  | reading (claimed : OutboxRow EventType)
  | consuming (row : OutboxRow EventType) (returned pending : List Consumer)
  | marked (row : OutboxRow EventType) (returned : List Consumer)

/-- A call of `pollOnce`, and the rows whose attempt it has counted. -/
structure Poll (EventType Consumer : Type) where
  i : Nat
  failedIds : List Nat
  place : Place EventType Consumer
  attempted : List Nat

/-- A call of `pollOnce` that is over; one that ran to its end left these rows for the next. -/
structure PollRecord where
  attempted : List Nat
  ended : Bool
  left : List Nat

/-- A delivery that was committed, and the consumers that had returned in its transaction. -/
structure Delivery (EventType Consumer : Type) where
  row : OutboxRow EventType
  returned : List Consumer

/-- The table in the order of ids, with the process and what it did. -/
structure Outbox (EventType Consumer : Type) where
  rows : List (OutboxRow EventType)
  polling : Option (Poll EventType Consumer)
  polls : List PollRecord
  /-- The rows whose consumers were run, once for each delivery. -/
  ran : List Nat
  deliveries : List (Delivery EventType Consumer)

inductive Label
  /-- `pollOnce` is called. -/
  | poll
  /-- The next statement. -/
  | statement
  /-- A statement or a consumer of the delivery throws. -/
  | throws
  | crash

variable {EventType Consumer : Type}

def Outbox.start (rows : List (OutboxRow EventType)) : Outbox EventType Consumer :=
  ⟨rows, none, [], [], []⟩

/-- The rows that are neither delivered nor given up. -/
def isDue (maxAttempts : Nat) (row : OutboxRow EventType) : Bool :=
  !row.dispatched && decide (row.attempts < maxAttempts)

/-- `select … where dispatched_at is null and attempts < $2 and not (id = any($1)) order by id
limit 1`. -/
def selectClaim (maxAttempts : Nat) (excludeIds : List Nat) (rows : List (OutboxRow EventType)) :
    Option (OutboxRow EventType) :=
  rows.find? fun row => isDue maxAttempts row && !excludeIds.contains row.id

/-- `update outbox set attempts = attempts + 1 where id = $2`. -/
def countAttempt (id : Nat) (rows : List (OutboxRow EventType)) : List (OutboxRow EventType) :=
  rows.map fun row => if row.id = id then { row with attempts := row.attempts + 1 } else row

/-- `select … where id = $2 and dispatched_at is null`. -/
def selectDelivery (id : Nat) (rows : List (OutboxRow EventType)) : Option (OutboxRow EventType) :=
  rows.find? fun row => decide (row.id = id) && !row.dispatched

/-- `update outbox set dispatched_at = now() where id = $2`. -/
def markDispatched (id : Nat) (rows : List (OutboxRow EventType)) : List (OutboxRow EventType) :=
  rows.map fun row => if row.id = id then { row with dispatched := true } else row

/-- The poll is over; what it did is noted. -/
def Outbox.close (outbox : Outbox EventType Consumer) (poll : Poll EventType Consumer)
    (ended : Bool) (left : List Nat) : Outbox EventType Consumer :=
  { outbox with
    polling := none
    polls := ⟨poll.attempted, ended, left⟩ :: outbox.polls }

/-- The next turn of the loop; a row that failed is excluded from it. -/
def Poll.nextTurn (poll : Poll EventType Consumer) (failed : List Nat) :
    Poll EventType Consumer :=
  { poll with i := poll.i + 1, failedIds := poll.failedIds ++ failed, place := .turn }

def Poll.at (poll : Poll EventType Consumer) (place : Place EventType Consumer) :
    Poll EventType Consumer :=
  { poll with place := place }

section
variable (options : OutboxDispatcherOptions) (consumers : EventType → List Consumer)

def leftIds (rows : List (OutboxRow EventType)) : List Nat :=
  (rows.filter (isDue options.maxAttempts)).map OutboxRow.id

/-- The next statement of `pollOnce` and `processOneRow`, which does not throw. -/
def statement (outbox : Outbox EventType Consumer) (poll : Poll EventType Consumer) :
    Outbox EventType Consumer :=
  match poll.place with
  | .turn =>
      if poll.i < options.batchSize then { outbox with polling := some (poll.at .selecting) }
      else outbox.close poll true (leftIds options outbox.rows)
  | .selecting =>
      match selectClaim options.maxAttempts poll.failedIds outbox.rows with
      | none => outbox.close poll true (leftIds options outbox.rows)
      | some claimed => { outbox with polling := some (poll.at (.counting claimed)) }
  | .counting claimed => { outbox with polling := some (poll.at (.counted claimed)) }
  -- the claim is committed, whatever becomes of the delivery
  | .counted claimed =>
      { outbox with
        rows := countAttempt claimed.id outbox.rows
        polling := some
          { poll with
            place := .claimed claimed
            attempted := poll.attempted ++ [claimed.id] } }
  | .claimed claimed => { outbox with polling := some (poll.at (.reading claimed)) }
  | .reading claimed =>
      match selectDelivery claimed.id outbox.rows with
      | none => { outbox with polling := some (poll.nextTurn [claimed.id]) }
      | some row =>
          { outbox with
            polling := some (poll.at (.consuming row [] (consumers row.eventType)))
            ran := outbox.ran ++ [row.id] }
  | .consuming row returned (consumer :: pending) =>
      { outbox with polling := some (poll.at (.consuming row (returned ++ [consumer]) pending)) }
  | .consuming row returned [] =>
      { outbox with polling := some (poll.at (.marked row returned)) }
  | .marked row returned =>
      { outbox with
        rows := markDispatched row.id outbox.rows
        polling := some (poll.nextTurn [])
        deliveries := outbox.deliveries ++ [⟨row, returned⟩] }

/-- The row of the delivery under way, which a throw ends. -/
def underWay : Place EventType Consumer → Option Nat
  | .claimed claimed => some claimed.id
  | .reading claimed => some claimed.id
  | .consuming row _ _ => some row.id
  | .marked row _ => some row.id
  | _ => none

def step (outbox : Outbox EventType Consumer) : Label → Option (Outbox EventType Consumer)
  | .poll =>
      match outbox.polling with
      | some _ => some outbox
      | none => some { outbox with polling := some ⟨0, [], .turn, []⟩ }
  | .statement => outbox.polling.map (statement options consumers outbox)
  | .throws => do
      let poll ← outbox.polling
      let id ← underWay poll.place
      return { outbox with polling := some (poll.nextTurn [id]) }
  | .crash =>
      match outbox.polling with
      | some poll => some (outbox.close poll false [])
      | none => some outbox

/-- One dispatcher on a table of rows in the order of their ids. -/
def dispatcher : LabelledRun.System (Outbox EventType Consumer) Label where
  initial outbox := ∃ rows : List (OutboxRow EventType),
    rows.Pairwise (fun one other => one.id < other.id) ∧ outbox = Outbox.start rows
  step := step options consumers

end

end NextTime.OutboxDispatch
