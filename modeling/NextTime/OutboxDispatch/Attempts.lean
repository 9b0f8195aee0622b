import NextTime.OutboxDispatch.Dispatcher
import Mathlib.Data.List.Nodup

/-
What holds of the table, the attempts and the deliveries at every statement of the dispatcher:
the table is the one it started with, and of each row what was counted and delivered.
-/

namespace NextTime.OutboxDispatch

variable {EventType Consumer : Type}

/-! ### What the claim takes -/

theorem find_le {rows : List (OutboxRow EventType)} {test : OutboxRow EventType → Bool}
    (ordered : rows.Pairwise fun one other => one.id < other.id) {found other : OutboxRow EventType}
    (isFound : rows.find? test = some found) (isIn : other ∈ rows) (passes : test other = true) :
    found.id ≤ other.id := by
  induction rows with
  | nil => cases isIn
  | cons first rows ih =>
      obtain ⟨before, later⟩ := List.pairwise_cons.mp ordered
      rw [List.find?_cons] at isFound
      cases here : test first with
      | true =>
          rw [here] at isFound
          rw [← Option.some.inj isFound]
          rcases List.mem_cons.mp isIn with same | behind
          · exact Nat.le_of_eq (congrArg OutboxRow.id same).symm
          · exact Nat.le_of_lt (before other behind)
      | false =>
          rw [here] at isFound
          rcases List.mem_cons.mp isIn with same | behind
          · rw [same, here] at passes
            cases passes
          · exact ih later isFound behind

structure Claims (maxAttempts : Nat) (excludeIds : List Nat) (rows : List (OutboxRow EventType))
    (claimed : OutboxRow EventType) : Prop where
  present : claimed ∈ rows
  pending : claimed.dispatched = false
  under : claimed.attempts < maxAttempts
  fresh : claimed.id ∉ excludeIds

theorem claims_of_selectClaim {maxAttempts : Nat} {excludeIds : List Nat}
    {rows : List (OutboxRow EventType)} {claimed : OutboxRow EventType}
    (selected : selectClaim maxAttempts excludeIds rows = some claimed) :
    Claims maxAttempts excludeIds rows claimed := by
  have passes := List.find?_some selected
  rw [isDue, Bool.and_eq_true, Bool.and_eq_true, Bool.not_eq_true', Bool.not_eq_true',
    decide_eq_true_iff] at passes
  refine ⟨List.mem_of_find?_eq_some selected, passes.1.1, passes.1.2, ?_⟩
  intro isIn
  rw [List.contains_iff_mem.mpr isIn] at passes
  cases passes.2

/-! ### The invariant -/

/-- Every attempt that was counted. -/
def Outbox.attempts (outbox : Outbox EventType Consumer) : List Nat :=
  (outbox.polling.elim [] Poll.attempted) ++ (outbox.polls.map PollRecord.attempted).flatten

def Outbox.isDelivered (outbox : Outbox EventType Consumer) (id : Nat) : Bool :=
  outbox.deliveries.any fun delivery => delivery.row.id == id

/-- A row of the table at the start, as it is now. -/
def Outbox.now (outbox : Outbox EventType Consumer) (row : OutboxRow EventType) :
    OutboxRow EventType :=
  { row with
    attempts := row.attempts + outbox.attempts.count row.id
    dispatched := row.dispatched || outbox.isDelivered row.id }

section
variable (options : OutboxDispatcherOptions) (consumers : EventType → List Consumer)
  (rows : List (OutboxRow EventType))

/-- A row as it was selected is one of the start. -/
def IsRow (row : OutboxRow EventType) : Prop :=
  ∃ first ∈ rows, first.id = row.id ∧ first.eventType = row.eventType

/-- What is known at a place. -/
def PlaceKeeps (outbox : Outbox EventType Consumer) (poll : Poll EventType Consumer) :
    Place EventType Consumer → Prop
  | .turn => True
  | .selecting => True
  | .counting claimed =>
      selectClaim options.maxAttempts poll.failedIds outbox.rows = some claimed
  | .counted claimed =>
      selectClaim options.maxAttempts poll.failedIds outbox.rows = some claimed
  | .claimed claimed => outbox.ran.count claimed.id < outbox.attempts.count claimed.id
  | .reading claimed => outbox.ran.count claimed.id < outbox.attempts.count claimed.id
  | .consuming row returned pending =>
      returned ++ pending = consumers row.eventType ∧ IsRow rows row
  | .marked row returned => returned = consumers row.eventType ∧ IsRow rows row

structure PollKeeps (outbox : Outbox EventType Consumer) (poll : Poll EventType Consumer) :
    Prop where
  nodup : poll.attempted.Nodup
  excluded : ∀ id ∈ poll.failedIds, id ∈ poll.attempted
  settled : ∀ id ∈ poll.attempted,
    id ∈ poll.failedIds ∨ outbox.isDelivered id = true ∨ underWay poll.place = some id
  length : poll.attempted.length = poll.i + (underWay poll.place).toList.length
  turns : poll.i + (underWay poll.place).toList.length ≤ options.batchSize
  busy : underWay poll.place = none → poll.place ≠ .turn → poll.i < options.batchSize
  held : ∀ id, underWay poll.place = some id → id ∈ poll.attempted
  place : PlaceKeeps options consumers rows outbox poll poll.place

structure RecordKeeps (record : PollRecord) : Prop where
  nodup : record.attempted.Nodup
  full : record.ended = true →
    record.attempted.length = options.batchSize ∨ ∀ id ∈ record.left, id ∈ record.attempted

structure Keeps (outbox : Outbox EventType Consumer) : Prop where
  table : outbox.rows = rows.map outbox.now
  known : ∀ id ∈ outbox.attempts, ∃ row ∈ rows, row.id = id ∧ row.dispatched = false
  few : ∀ row ∈ rows, row.id ∈ outbox.attempts →
    row.attempts + outbox.attempts.count row.id ≤ options.maxAttempts
  ran : ∀ id, outbox.ran.count id ≤ outbox.attempts.count id
  delivered : ∀ delivery ∈ outbox.deliveries,
    delivery.returned = consumers delivery.row.eventType ∧ IsRow rows delivery.row ∧
      delivery.row.id ∈ outbox.attempts
  records : ∀ record ∈ outbox.polls, RecordKeeps options record
  leaves : ∀ record ∈ outbox.polls, record.ended = true → ∀ row ∈ rows,
    isDue options.maxAttempts row = true → row.id ∈ outbox.attempts ∨ row.id ∈ record.left
  inOrder : ∀ row ∈ rows, isDue options.maxAttempts row = true →
    row.id ∈ outbox.attempts ∨ ∀ id ∈ outbox.attempts, id < row.id
  current : ∀ poll, outbox.polling = some poll → PollKeeps options consumers rows outbox poll

end

section
variable {options : OutboxDispatcherOptions} {consumers : EventType → List Consumer}
  {rows : List (OutboxRow EventType)} {outbox : Outbox EventType Consumer}
  {poll : Poll EventType Consumer}

theorem Outbox.attempts_polling (polling : outbox.polling = some poll) :
    outbox.attempts = poll.attempted ++ (outbox.polls.map PollRecord.attempted).flatten := by
  rw [attempts, polling]
  rfl

theorem Outbox.now_start (row : OutboxRow EventType) :
    (Outbox.start rows : Outbox EventType Consumer).now row = row := by
  cases row with
  | mk id eventType attempts dispatched =>
      rw [now]
      cases dispatched with
      | true => rfl
      | false => rfl

theorem keeps_start (rows : List (OutboxRow EventType)) :
    Keeps options consumers rows (Outbox.start rows) := by
  constructor
  · have same : (Outbox.start rows : Outbox EventType Consumer).now = id :=
      funext Outbox.now_start
    rw [same, List.map_id]
    rfl
  · exact fun _ isIn => nomatch isIn
  · exact fun _ _ isIn => nomatch isIn
  · exact fun _ => Nat.le_refl 0
  · exact fun _ isIn => nomatch isIn
  · exact fun _ isIn => nomatch isIn
  · exact fun _ isIn => nomatch isIn
  · exact fun _ _ _ => Or.inr fun _ isIn => nomatch isIn
  · exact fun _ polls => nomatch polls

theorem now_congr {next : Outbox EventType Consumer} (attempts : next.attempts = outbox.attempts)
    (deliveries : next.deliveries = outbox.deliveries) : next.now = outbox.now := by
  funext row
  rw [Outbox.now, Outbox.now, attempts, Outbox.isDelivered, Outbox.isDelivered, deliveries]

/-- Where neither the table nor what was counted and delivered changes. -/
theorem Keeps.carries (keeps : Keeps options consumers rows outbox)
    {next : Outbox EventType Consumer} (table : next.rows = outbox.rows)
    (attempts : next.attempts = outbox.attempts) (deliveries : next.deliveries = outbox.deliveries)
    (ran : ∀ id, next.ran.count id ≤ outbox.attempts.count id)
    (records : ∀ record ∈ next.polls, RecordKeeps options record)
    (leaves : ∀ record ∈ next.polls, record.ended = true → ∀ row ∈ rows,
      isDue options.maxAttempts row = true → row.id ∈ outbox.attempts ∨ row.id ∈ record.left)
    (current : ∀ poll, next.polling = some poll → PollKeeps options consumers rows next poll) :
    Keeps options consumers rows next := by
  constructor
  · rw [table, now_congr attempts deliveries]
    exact keeps.table
  · rw [attempts]
    exact keeps.known
  · rw [attempts]
    exact keeps.few
  · rw [attempts]
    exact ran
  · rw [deliveries, attempts]
    exact keeps.delivered
  · exact records
  · rw [attempts]
    exact leaves
  · rw [attempts]
    exact keeps.inOrder
  · exact current

/-- A statement that writes nothing moves the poll only. -/
theorem Keeps.moves (keeps : Keeps options consumers rows outbox) (polling : outbox.polling = some poll)
    {next : Poll EventType Consumer} (attempted : next.attempted = poll.attempted)
    (pollKeeps : PollKeeps options consumers rows
      { outbox with polling := some next } next) :
    Keeps options consumers rows { outbox with polling := some next } := by
  apply keeps.carries
  · rfl
  · rw [Outbox.attempts_polling polling, ← attempted]
    rfl
  · rfl
  · exact keeps.ran
  · exact keeps.records
  · exact keeps.leaves
  · intro other isOther
    rw [← Option.some.inj isOther]
    exact pollKeeps

/-! ### The rows of the table -/

theorem Keeps.row_of_mem (keeps : Keeps options consumers rows outbox)
    {row : OutboxRow EventType} (isIn : row ∈ outbox.rows) :
    ∃ first ∈ rows, outbox.now first = row := by
  rw [keeps.table] at isIn
  exact List.mem_map.mp isIn

theorem Keeps.mem_of_row (keeps : Keeps options consumers rows outbox)
    {first : OutboxRow EventType} (isIn : first ∈ rows) : outbox.now first ∈ outbox.rows := by
  rw [keeps.table]
  exact List.mem_map_of_mem isIn

theorem eq_of_id (ordered : rows.Pairwise fun one other => one.id < other.id)
    {one other : OutboxRow EventType} (isOne : one ∈ rows) (isOther : other ∈ rows)
    (same : one.id = other.id) : one = other := by
  have distinct : (rows.map OutboxRow.id).Nodup := by
    rw [List.nodup_iff_pairwise_ne, List.pairwise_map]
    exact ordered.imp Nat.ne_of_lt
  exact List.inj_on_of_nodup_map distinct isOne isOther same

theorem Keeps.ordered (keeps : Keeps options consumers rows outbox)
    (ordered : rows.Pairwise fun one other => one.id < other.id) :
    outbox.rows.Pairwise fun one other => one.id < other.id := by
  rw [keeps.table, List.pairwise_map]
  exact ordered

/-- What is delivered was attempted. -/
theorem Keeps.attempted_of_isDelivered (keeps : Keeps options consumers rows outbox) {id : Nat}
    (delivered : outbox.isDelivered id = true) : id ∈ outbox.attempts := by
  obtain ⟨delivery, isIn, same⟩ := List.any_eq_true.mp delivered
  rw [← beq_iff_eq.mp same]
  exact (keeps.delivered delivery isIn).2.2

/-- A row that was due and is not attempted yet can be claimed. -/
theorem Keeps.due_of_not_attempted (keeps : Keeps options consumers rows outbox)
    (polling : outbox.polling = some poll) {row : OutboxRow EventType}
    (due : isDue options.maxAttempts row = true) (fresh : row.id ∉ outbox.attempts) :
    (isDue options.maxAttempts (outbox.now row) && !poll.failedIds.contains row.id) = true := by
  have count : outbox.attempts.count row.id = 0 := List.count_eq_zero.mpr fresh
  have delivered : outbox.isDelivered row.id = false := by
    rw [Bool.eq_false_iff]
    exact fun is => fresh (keeps.attempted_of_isDelivered is)
  have included : poll.failedIds.contains row.id = false := by
    rw [Bool.eq_false_iff]
    intro excluded
    apply fresh
    rw [Outbox.attempts_polling polling]
    exact List.mem_append_left _ ((keeps.current poll polling).excluded row.id
      (List.contains_iff_mem.mp excluded))
  have same : isDue options.maxAttempts (outbox.now row) = isDue options.maxAttempts row := by
    rw [isDue, isDue, Outbox.now, count, delivered, Bool.or_false]
    rfl
  rw [same, due, included]
  rfl

theorem Keeps.closes (keeps : Keeps options consumers rows outbox)
    (polling : outbox.polling = some poll) {ended : Bool} {left : List Nat}
    (full : ended = true →
      poll.attempted.length = options.batchSize ∨ ∀ id ∈ left, id ∈ poll.attempted)
    (isLeft : ended = true → left = leftIds options outbox.rows) :
    Keeps options consumers rows (outbox.close poll ended left) := by
  apply keeps.carries
  · rfl
  · rw [Outbox.attempts_polling polling]
    rfl
  · rfl
  · exact keeps.ran
  · intro record isIn
    rcases List.mem_cons.mp isIn with isThis | earlier
    · rw [isThis]
      exact ⟨(keeps.current poll polling).nodup, full⟩
    · exact keeps.records record earlier
  · intro record isIn whole row isRow due
    rcases List.mem_cons.mp isIn with isThis | earlier
    · by_cases attempted : row.id ∈ outbox.attempts
      · exact Or.inl attempted
      · right
        rw [isThis] at whole ⊢
        change row.id ∈ left
        rw [isLeft whole]
        have still := keeps.due_of_not_attempted polling due attempted
        exact List.mem_map.mpr ⟨outbox.now row,
          List.mem_filter.mpr ⟨keeps.mem_of_row isRow, (Bool.and_eq_true_iff.mp still).1⟩, rfl⟩
    · exact keeps.leaves record earlier whole row isRow due
  · exact fun _ polls => nomatch polls

end

end NextTime.OutboxDispatch
