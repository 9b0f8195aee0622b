import NextTime.OutboxDispatch.Attempts
import NextTime.Library.Rounds

/-
Every statement of the dispatcher keeps the invariant; so a row is delivered only by all of its
consumers, is tried so often at most, and waits for so many polls at most.
-/

namespace NextTime.OutboxDispatch

variable {EventType Consumer : Type} {options : OutboxDispatcherOptions}
  {consumers : EventType → List Consumer} {rows : List (OutboxRow EventType)}
  {outbox : Outbox EventType Consumer} {poll : Poll EventType Consumer}

/-! ### Statements that write nothing -/

theorem keeps_turn (keeps : Keeps options consumers rows outbox) (polling : outbox.polling = some poll)
    (place : poll.place = .turn) :
    Keeps options consumers rows (statement options consumers outbox poll) := by
  have current := keeps.current poll polling
  have length := current.length
  have turns := current.turns
  have settled := current.settled
  rw [place] at length turns settled
  rw [statement, place]
  simp only
  by_cases more : poll.i < options.batchSize
  · rw [if_pos more]
    apply keeps.moves polling
    · rfl
    · constructor
      · exact current.nodup
      · exact current.excluded
      · exact settled
      · exact length
      · exact turns
      · exact fun _ _ => more
      · exact fun _ busy => nomatch busy
      · trivial
  · rw [if_neg more]
    apply keeps.closes polling
    · intro _
      change poll.i + 0 ≤ options.batchSize at turns
      change poll.attempted.length = poll.i + 0 at length
      left
      omega
    · exact fun _ => rfl

theorem keeps_selecting (keeps : Keeps options consumers rows outbox)
    (polling : outbox.polling = some poll) (place : poll.place = .selecting) :
    Keeps options consumers rows (statement options consumers outbox poll) := by
  have current := keeps.current poll polling
  have length := current.length
  have turns := current.turns
  have settled := current.settled
  have busy := current.busy
  rw [place] at length turns settled busy
  rw [statement, place]
  simp only
  cases selected : selectClaim options.maxAttempts poll.failedIds outbox.rows with
  | none =>
      apply keeps.closes polling
      · intro _
        right
        intro id isLeft
        obtain ⟨row, isDueRow, isId⟩ := List.mem_map.mp isLeft
        obtain ⟨isIn, due⟩ := List.mem_filter.mp isDueRow
        have passed := List.find?_eq_none.mp selected row isIn
        rw [due, Bool.true_and, Bool.not_eq_true', Bool.not_eq_false] at passed
        rw [← isId]
        exact current.excluded row.id (List.contains_iff_mem.mp passed)
      · exact fun _ => rfl
  | some claimed =>
      simp only
      apply keeps.moves polling
      · rfl
      · constructor
        · exact current.nodup
        · exact current.excluded
        · exact settled
        · exact length
        · exact turns
        · exact fun _ _ => busy rfl (fun same => nomatch same)
        · exact fun _ under => nomatch under
        · exact selected

theorem keeps_counting (keeps : Keeps options consumers rows outbox)
    (polling : outbox.polling = some poll) {claimed : OutboxRow EventType}
    (place : poll.place = .counting claimed) :
    Keeps options consumers rows (statement options consumers outbox poll) := by
  have current := keeps.current poll polling
  have length := current.length
  have turns := current.turns
  have settled := current.settled
  have busy := current.busy
  have selected := current.place
  rw [place] at length turns settled busy selected
  rw [statement, place]
  simp only
  apply keeps.moves polling
  · rfl
  · constructor
    · exact current.nodup
    · exact current.excluded
    · exact settled
    · exact length
    · exact turns
    · exact fun _ _ => busy rfl (fun same => nomatch same)
    · exact fun _ under => nomatch under
    · exact selected

/-- The next turn of the loop, with the row of the delivery excluded or delivered. -/
theorem PollKeeps.nextTurn (current : PollKeeps options consumers rows outbox poll) {id : Nat}
    (under : underWay poll.place = some id) {failed : List Nat}
    {next : Outbox EventType Consumer} (within : ∀ other ∈ failed, other = id)
    (kept : ∀ other, outbox.isDelivered other = true → next.isDelivered other = true)
    (whole : id ∈ failed ∨ next.isDelivered id = true) :
    PollKeeps options consumers rows next (poll.nextTurn failed) := by
  have length := current.length
  have turns := current.turns
  rw [under] at length turns
  constructor
  · exact current.nodup
  · intro other isIn
    rcases List.mem_append.mp isIn with before | now
    · exact current.excluded other before
    · rw [within other now]
      exact current.held id under
  · intro other isIn
    rcases current.settled other isIn with excluded | delivered | here
    · exact Or.inl (List.mem_append_left _ excluded)
    · exact Or.inr (Or.inl (kept other delivered))
    · rw [under, Option.some.injEq] at here
      rw [← here]
      rcases whole with isFailed | isDelivered
      · exact Or.inl (List.mem_append_right _ isFailed)
      · exact Or.inr (Or.inl isDelivered)
  · exact length
  · exact turns
  · exact fun _ elsewhere => absurd rfl elsewhere
  · exact fun _ busy => nomatch busy
  · trivial

/-- From one statement of a delivery to the next one. -/
theorem PollKeeps.goesOn (current : PollKeeps options consumers rows outbox poll) {id : Nat}
    (under : underWay poll.place = some id) {next : Outbox EventType Consumer}
    (deliveries : next.deliveries = outbox.deliveries) {place : Place EventType Consumer}
    (still : underWay place = some id)
    (placeKeeps : PlaceKeeps options consumers rows next (poll.at place) place) :
    PollKeeps options consumers rows next (poll.at place) := by
  have length := current.length
  have turns := current.turns
  rw [under] at length turns
  have same : next.isDelivered = outbox.isDelivered := by
    funext other
    rw [Outbox.isDelivered, deliveries]
    rfl
  constructor
  · exact current.nodup
  · exact current.excluded
  · intro other isIn
    rw [same]
    rcases current.settled other isIn with excluded | delivered | here
    · exact Or.inl excluded
    · exact Or.inr (Or.inl delivered)
    · rw [under] at here
      exact Or.inr (Or.inr (still.trans here))
  · change poll.attempted.length = poll.i + (underWay place).toList.length
    rw [still]
    exact length
  · change poll.i + (underWay place).toList.length ≤ options.batchSize
    rw [still]
    exact turns
  · intro idle
    change underWay place = none at idle
    rw [still] at idle
    cases idle
  · intro other here
    change underWay place = some other at here
    rw [still, Option.some.injEq] at here
    rw [← here]
    exact current.held id under
  · exact placeKeeps

theorem keeps_throws (keeps : Keeps options consumers rows outbox)
    (polling : outbox.polling = some poll) {id : Nat} (under : underWay poll.place = some id) :
    Keeps options consumers rows { outbox with polling := some (poll.nextTurn [id]) } := by
  apply keeps.moves polling
  · rfl
  · apply (keeps.current poll polling).nextTurn under
    · exact fun other isIn => List.mem_singleton.mp isIn
    · exact fun _ delivered => delivered
    · exact Or.inl (List.mem_singleton.mpr rfl)

theorem keeps_claimed (keeps : Keeps options consumers rows outbox)
    (polling : outbox.polling = some poll) {claimed : OutboxRow EventType}
    (place : poll.place = .claimed claimed) :
    Keeps options consumers rows (statement options consumers outbox poll) := by
  have current := keeps.current poll polling
  have known := current.place
  rw [place] at known
  have same : ({ outbox with polling := some (poll.at (.reading claimed)) } :
      Outbox EventType Consumer).attempts = outbox.attempts := by
    rw [Outbox.attempts_polling polling]
    rfl
  have under : underWay poll.place = some claimed.id := by rw [place]; rfl
  rw [statement, place]
  simp only
  apply keeps.moves polling
  · rfl
  · apply current.goesOn under
    · rfl
    · rfl
    · change outbox.ran.count claimed.id < List.count claimed.id (Outbox.attempts _)
      rw [same]
      exact known

theorem keeps_consuming (keeps : Keeps options consumers rows outbox)
    (polling : outbox.polling = some poll) {row : OutboxRow EventType}
    {returned pending : List Consumer} (place : poll.place = .consuming row returned pending) :
    Keeps options consumers rows (statement options consumers outbox poll) := by
  have current := keeps.current poll polling
  have known := current.place
  rw [place] at known
  have under : underWay poll.place = some row.id := by rw [place]; rfl
  rw [statement, place]
  cases pending with
  | nil =>
      simp only
      apply keeps.moves polling
      · rfl
      · apply current.goesOn under
        · rfl
        · rfl
        · exact ⟨(List.append_nil returned).symm.trans known.1, known.2⟩
  | cons consumer pending =>
      simp only
      apply keeps.moves polling
      · rfl
      · apply current.goesOn under
        · rfl
        · rfl
        · constructor
          · rw [List.append_assoc]
            exact known.1
          · exact known.2

/-! ### Statements that write -/

theorem keeps_counted (ordered : rows.Pairwise fun one other => one.id < other.id)
    (keeps : Keeps options consumers rows outbox) (polling : outbox.polling = some poll)
    {claimed : OutboxRow EventType} (place : poll.place = .counted claimed) :
    Keeps options consumers rows (statement options consumers outbox poll) := by
  have current := keeps.current poll polling
  have length := current.length
  have busy := current.busy
  have settled := current.settled
  have selected := current.place
  rw [place] at length busy settled selected
  have claims := claims_of_selectClaim selected
  obtain ⟨first, isFirst, isClaimed⟩ := keeps.row_of_mem claims.present
  have sameId : first.id = claimed.id := by rw [← isClaimed]; rfl
  have under := claims.under
  have pending := claims.pending
  rw [← isClaimed] at under pending
  change (first.dispatched || outbox.isDelivered first.id) = false at pending
  change first.attempts + outbox.attempts.count first.id < options.maxAttempts at under
  obtain ⟨undispatched, undelivered⟩ := Bool.or_eq_false_iff.mp pending
  rw [sameId] at under undelivered
  have fresh : claimed.id ∉ poll.attempted := by
    intro isIn
    rcases settled claimed.id isIn with excluded | delivered | here
    · exact claims.fresh excluded
    · rw [undelivered] at delivered
      cases delivered
    · cases here
  rw [statement, place]
  simp only
  generalize isNext : ({ outbox with
    rows := countAttempt claimed.id outbox.rows
    polling := some
      { poll with
        place := .claimed claimed
        attempted := poll.attempted ++ [claimed.id] } } : Outbox EventType Consumer) = next
  have deliveries : next.deliveries = outbox.deliveries := by rw [← isNext]
  have count (id : Nat) : next.attempts.count id =
      outbox.attempts.count id + if id = claimed.id then 1 else 0 := by
    rw [← isNext, Outbox.attempts_polling polling, Outbox.attempts]
    simp only [Option.elim_some, List.count_append, List.count_singleton, beq_iff_eq, @eq_comm _ id]
    omega
  have attempted (id : Nat) : id ∈ next.attempts ↔ id ∈ outbox.attempts ∨ id = claimed.id := by
    rw [← List.count_pos_iff, ← List.count_pos_iff, count]
    split
    next same => exact iff_of_true (Nat.succ_pos _) (Or.inr same)
    next other => rw [Nat.add_zero, or_iff_left other]
  constructor
  · have counts : (countAttempt claimed.id (rows.map outbox.now)) = rows.map next.now := by
      rw [countAttempt, List.map_map]
      apply List.map_congr_left
      intro row _
      have isNow : next.now row = { outbox.now row with
          attempts := row.attempts + next.attempts.count row.id } := by
        rw [Outbox.now, Outbox.isDelivered, deliveries]
        rfl
      rw [isNow, count, Function.comp_apply]
      change (if row.id = claimed.id then _ else _) = _
      by_cases same : row.id = claimed.id
      · rw [if_pos same, if_pos same]
        rfl
      · rw [if_neg same, if_neg same]
        rfl
    rw [← counts, ← keeps.table, ← isNext]
  · intro id isIn
    rcases (attempted id).mp isIn with before | now
    · exact keeps.known id before
    · exact ⟨first, isFirst, sameId.trans now.symm, undispatched⟩
  · intro row isRow isIn
    rw [count]
    by_cases same : row.id = claimed.id
    · rw [if_pos same, eq_of_id ordered isRow isFirst (same.trans sameId.symm), sameId]
      omega
    · rw [if_neg same]
      exact keeps.few row isRow (((attempted row.id).mp isIn).resolve_right same)
  · intro id
    have before := keeps.ran id
    rw [count, ← isNext]
    exact Nat.le_add_right_of_le before
  · intro delivery isIn
    rw [deliveries] at isIn
    obtain ⟨returned, isRow, isAttempted⟩ := keeps.delivered delivery isIn
    exact ⟨returned, isRow, (attempted _).mpr (Or.inl isAttempted)⟩
  · rw [← isNext]
    exact keeps.records
  · intro record isIn whole row isRow due
    rw [← isNext] at isIn
    rcases keeps.leaves record isIn whole row isRow due with before | isLeft
    · exact Or.inl ((attempted _).mpr (Or.inl before))
    · exact Or.inr isLeft
  · intro row isRow due
    by_cases isIn : row.id ∈ next.attempts
    · exact Or.inl isIn
    · right
      have untouched : row.id ∉ outbox.attempts := fun before =>
        isIn ((attempted _).mpr (Or.inl before))
      have other : row.id ≠ claimed.id := fun same => isIn ((attempted _).mpr (Or.inr same))
      intro id isId
      rcases (attempted id).mp isId with before | now
      · exact ((keeps.inOrder row isRow due).resolve_left untouched) id before
      · have least : claimed.id ≤ row.id :=
          @find_le _ _ _ (keeps.ordered ordered) claimed (outbox.now row) selected
            (keeps.mem_of_row isRow) (keeps.due_of_not_attempted polling due untouched)
        rw [now]
        exact Nat.lt_of_le_of_ne least (Ne.symm other)
  · intro poll' isPoll
    have isThis : poll' = { poll with
        place := .claimed claimed
        attempted := poll.attempted ++ [claimed.id] } := by
      rw [← isNext] at isPoll
      exact (Option.some.inj isPoll).symm
    rw [isThis]
    constructor
    · exact List.nodup_append.mpr ⟨current.nodup, List.nodup_singleton _,
        fun id isIn other isOther same =>
          fresh (by rw [← List.mem_singleton.mp isOther, ← same]; exact isIn)⟩
    · exact fun id isIn => List.mem_append_left _ (current.excluded id isIn)
    · intro id isIn
      rcases List.mem_append.mp isIn with before | now
      · rcases settled id before with excluded | delivered | here
        · exact Or.inl excluded
        · right; left
          rw [Outbox.isDelivered, deliveries]
          exact delivered
        · cases here
      · exact Or.inr (Or.inr (congrArg some (List.mem_singleton.mp now).symm))
    · rw [List.length_append, length]
      rfl
    · exact busy rfl fun same => by cases same
    · exact fun idle => by cases idle
    · intro id here
      exact List.mem_append_right _ (List.mem_singleton.mpr (Option.some.inj here).symm)
    · change next.ran.count claimed.id < next.attempts.count claimed.id
      have before := keeps.ran claimed.id
      rw [count, if_pos rfl, ← isNext]
      exact Nat.lt_succ_of_le before

theorem keeps_reading (keeps : Keeps options consumers rows outbox)
    (polling : outbox.polling = some poll) {claimed : OutboxRow EventType}
    (place : poll.place = .reading claimed) :
    Keeps options consumers rows (statement options consumers outbox poll) := by
  have current := keeps.current poll polling
  have known := current.place
  rw [place] at known
  change outbox.ran.count claimed.id < outbox.attempts.count claimed.id at known
  have under : underWay poll.place = some claimed.id := by rw [place]; rfl
  rw [statement, place]
  simp only
  cases selected : selectDelivery claimed.id outbox.rows with
  | none => exact keeps_throws keeps polling under
  | some row =>
      have passes := List.find?_some selected
      rw [Bool.and_eq_true, decide_eq_true_iff] at passes
      obtain ⟨first, isFirst, isRow⟩ := keeps.row_of_mem (List.mem_of_find?_eq_some selected)
      simp only
      apply keeps.carries
      · rfl
      · rw [Outbox.attempts_polling polling]
        rfl
      · rfl
      · intro id
        have before := keeps.ran id
        rw [List.count_append, List.count_singleton, passes.1]
        by_cases same : claimed.id = id
        · rw [same] at known
          rw [same, beq_self_eq_true, if_pos rfl]
          exact known
        · rw [beq_false_of_ne same]
          exact before
      · exact keeps.records
      · exact keeps.leaves
      · intro other isOther
        rw [← Option.some.inj isOther]
        apply current.goesOn under
        · rfl
        · exact congrArg some passes.1
        · refine ⟨rfl, first, isFirst, ?_, ?_⟩
          · rw [← isRow]
            rfl
          · rw [← isRow]
            rfl

theorem keeps_marked (keeps : Keeps options consumers rows outbox)
    (polling : outbox.polling = some poll) {row : OutboxRow EventType}
    {returned : List Consumer} (place : poll.place = .marked row returned) :
    Keeps options consumers rows (statement options consumers outbox poll) := by
  have current := keeps.current poll polling
  have known := current.place
  rw [place] at known
  have under : underWay poll.place = some row.id := by rw [place]; rfl
  have isAttempted : row.id ∈ outbox.attempts := by
    rw [Outbox.attempts_polling polling]
    exact List.mem_append_left _ (current.held row.id under)
  rw [statement, place]
  simp only
  generalize isNext : ({ outbox with
    rows := markDispatched row.id outbox.rows
    polling := some (poll.nextTurn [])
    deliveries := outbox.deliveries ++ [⟨row, returned⟩] } : Outbox EventType Consumer) = next
  have attempts : next.attempts = outbox.attempts := by
    rw [← isNext, Outbox.attempts_polling polling]
    rfl
  have delivered (id : Nat) :
      next.isDelivered id = (outbox.isDelivered id || row.id == id) := by
    rw [← isNext, Outbox.isDelivered, Outbox.isDelivered, List.any_append, List.any_cons,
      List.any_nil, Bool.or_false]
  constructor
  · have marks : markDispatched row.id (rows.map outbox.now) = rows.map next.now := by
      rw [markDispatched, List.map_map]
      apply List.map_congr_left
      intro other _
      have isNow : next.now other = { outbox.now other with
          dispatched := other.dispatched || (outbox.isDelivered other.id || row.id == other.id) } := by
        rw [Outbox.now, attempts, delivered]
        rfl
      rw [isNow, Function.comp_apply]
      change (if other.id = row.id then _ else _) = _
      by_cases same : other.id = row.id
      · rw [if_pos same, same, beq_self_eq_true, Bool.or_true, Bool.or_true]
      · rw [if_neg same, beq_false_of_ne (Ne.symm same), Bool.or_false]
        rfl
    rw [← marks, ← keeps.table, ← isNext]
  · rw [attempts]
    exact keeps.known
  · rw [attempts]
    exact keeps.few
  · rw [attempts, ← isNext]
    exact keeps.ran
  · intro delivery isIn
    rw [attempts]
    rw [← isNext] at isIn
    rcases List.mem_append.mp isIn with before | now
    · exact keeps.delivered delivery before
    · rw [List.mem_singleton.mp now]
      exact ⟨known.1, known.2, isAttempted⟩
  · rw [← isNext]
    exact keeps.records
  · rw [attempts, ← isNext]
    exact keeps.leaves
  · rw [attempts]
    exact keeps.inOrder
  · intro other isOther
    have isThis : other = poll.nextTurn [] := by
      rw [← isNext] at isOther
      exact (Option.some.inj isOther).symm
    rw [isThis]
    apply current.nextTurn under
    · exact fun _ isIn => by cases isIn
    · intro id before
      rw [delivered, before]
      rfl
    · right
      rw [delivered, beq_self_eq_true, Bool.or_true]

/-! ### Every run -/

theorem keeps_statement (ordered : rows.Pairwise fun one other => one.id < other.id)
    (keeps : Keeps options consumers rows outbox) (polling : outbox.polling = some poll) :
    Keeps options consumers rows (statement options consumers outbox poll) := by
  cases place : poll.place with
  | turn => exact keeps_turn keeps polling place
  | selecting => exact keeps_selecting keeps polling place
  | counting claimed => exact keeps_counting keeps polling place
  | counted claimed => exact keeps_counted ordered keeps polling place
  | claimed claimed => exact keeps_claimed keeps polling place
  | reading claimed => exact keeps_reading keeps polling place
  | consuming row returned pending => exact keeps_consuming keeps polling place
  | marked row returned => exact keeps_marked keeps polling place

theorem keeps_preserved (ordered : rows.Pairwise fun one other => one.id < other.id) :
    (dispatcher options consumers).Preserved (Keeps options consumers rows) := by
  intro outbox label next keeps moved
  cases label with
  | poll =>
      unfold dispatcher step at moved
      dsimp only at moved
      cases polling : outbox.polling with
      | some poll =>
          rw [polling] at moved
          rw [← Option.some.inj moved]
          exact keeps
      | none =>
          rw [polling] at moved
          rw [← Option.some.inj moved]
          apply keeps.carries
          · rfl
          · rw [Outbox.attempts, Outbox.attempts, polling]
            rfl
          · rfl
          · exact keeps.ran
          · exact keeps.records
          · exact keeps.leaves
          · intro poll isPoll
            rw [← Option.some.inj isPoll]
            constructor
            · exact List.nodup_nil
            · exact fun _ isIn => by cases isIn
            · exact fun _ isIn => by cases isIn
            · rfl
            · exact Nat.zero_le _
            · exact fun _ elsewhere => absurd rfl elsewhere
            · exact fun _ busy => by cases busy
            · trivial
  | statement =>
      obtain ⟨poll, polling, isNext⟩ := Option.map_eq_some_iff.mp moved
      rw [← isNext]
      exact keeps_statement ordered keeps polling
  | throws =>
      obtain ⟨poll, polling, rest⟩ := Option.bind_eq_some_iff.mp moved
      obtain ⟨id, under, isNext⟩ := Option.bind_eq_some_iff.mp rest
      rw [← Option.some.inj isNext]
      exact keeps_throws keeps polling under
  | crash =>
      unfold dispatcher step at moved
      dsimp only at moved
      cases polling : outbox.polling with
      | some poll =>
          rw [polling] at moved
          rw [← Option.some.inj moved]
          exact keeps.closes polling (fun whole => by cases whole) fun whole => by cases whole
      | none =>
          rw [polling] at moved
          rw [← Option.some.inj moved]
          exact keeps

theorem keeps_of_run (ordered : rows.Pairwise fun one other => one.id < other.id)
    {labels : List Label}
    (ran : (dispatcher options consumers).run (.start rows) labels = some outbox) :
    Keeps options consumers rows outbox :=
  (dispatcher options consumers).run_preserves (keeps_preserved ordered) (keeps_start rows) ran

/-! ### The counting -/

def Outbox.endedPolls (outbox : Outbox EventType Consumer) : List PollRecord :=
  outbox.polls.filter PollRecord.ended

/-- The undelivered rows of lower id. -/
def waitingBefore (rows : List (OutboxRow EventType)) (row : OutboxRow EventType) :
    List (OutboxRow EventType) :=
  rows.filter fun other => !other.dispatched && decide (other.id < row.id)

/-- Until a row is attempted, the polls that end have attempted rows before it only. -/
theorem Keeps.endedPolls_le (keeps : Keeps options consumers rows outbox)
    {row : OutboxRow EventType} (isRow : row ∈ rows) (due : isDue options.maxAttempts row = true)
    (untouched : row.id ∉ outbox.attempts) (some : 0 < options.batchSize) :
    outbox.endedPolls.length ≤
      (waitingBefore rows row).length * options.maxAttempts / options.batchSize := by
  have earlier := (keeps.inOrder row isRow due).resolve_left untouched
  have served : ((outbox.endedPolls.map PollRecord.attempted).flatten).Sublist outbox.attempts :=
    ((List.filter_sublist.map PollRecord.attempted).flatten).trans (List.sublist_append_right _ _)
  have bound : (outbox.endedPolls.map PollRecord.attempted).length ≤
      ((waitingBefore rows row).map OutboxRow.id).length * options.maxAttempts /
        options.batchSize := by
    apply Rounds.full_rounds_le
    · intro round isRound
      obtain ⟨record, isRecord, isAttempted⟩ := List.mem_map.mp isRound
      obtain ⟨isIn, ended⟩ := List.mem_filter.mp isRecord
      rw [← isAttempted]
      rcases (keeps.records record isIn).full ended with full | all
      · exact full
      · -- the row was left for a later poll
        have left := (keeps.leaves record isIn ended row isRow due).resolve_left untouched
        exact absurd (List.mem_append_right _ (List.mem_flatten.mpr
          ⟨record.attempted, List.mem_map_of_mem isIn, all row.id left⟩)) untouched
    · intro id isIn
      obtain ⟨other, isOther, sameId, undispatched⟩ := keeps.known id (served.subset isIn)
      have before := earlier id (served.subset isIn)
      apply List.mem_map.mpr
      refine ⟨other, List.mem_filter.mpr ⟨isOther, ?_⟩, sameId⟩
      rw [undispatched, sameId, decide_eq_true before]
      rfl
    · intro id isIn
      obtain ⟨other, isOther, sameId⟩ := List.mem_map.mp isIn
      have count := served.count_le id
      rw [← sameId] at count ⊢
      by_cases isAttempted : other.id ∈ outbox.attempts
      · have few := keeps.few other (List.mem_filter.mp isOther).1 isAttempted
        omega
      · rw [List.count_eq_zero.mpr isAttempted] at count
        exact Nat.le_trans count (Nat.zero_le _)
    · exact some
  rw [List.length_map, List.length_map] at bound
  exact bound

theorem Keeps.ran_le (keeps : Keeps options consumers rows outbox) (id : Nat) :
    outbox.ran.count id ≤ options.maxAttempts := by
  have ran := keeps.ran id
  by_cases isAttempted : id ∈ outbox.attempts
  · obtain ⟨row, isRow, sameId, _⟩ := keeps.known id isAttempted
    rw [← sameId] at isAttempted
    have few := keeps.few row isRow isAttempted
    rw [sameId] at few
    omega
  · rw [List.count_eq_zero.mpr isAttempted] at ran
    exact Nat.le_trans ran (Nat.zero_le _)

theorem Keeps.delivered_of_dispatched (keeps : Keeps options consumers rows outbox)
    (ordered : rows.Pairwise fun one other => one.id < other.id) {row : OutboxRow EventType}
    (isIn : row ∈ outbox.rows) (dispatched : row.dispatched = true) :
    (∃ first ∈ rows, first.id = row.id ∧ first.dispatched = true) ∨
      ∃ delivery ∈ outbox.deliveries, delivery.row.id = row.id ∧
        delivery.returned = consumers row.eventType := by
  obtain ⟨first, isFirst, isRow⟩ := keeps.row_of_mem isIn
  have sameId : first.id = row.id := by rw [← isRow]; rfl
  have sameType : first.eventType = row.eventType := by rw [← isRow]; rfl
  rw [← isRow] at dispatched
  rcases Bool.or_eq_true_iff.mp dispatched with before | now
  · exact Or.inl ⟨first, isFirst, sameId, before⟩
  · right
    obtain ⟨delivery, isDelivery, same⟩ := List.any_eq_true.mp now
    obtain ⟨returned, ⟨other, isOther, otherId, otherType⟩, _⟩ :=
      keeps.delivered delivery isDelivery
    have sameRow : delivery.row.id = first.id := beq_iff_eq.mp same
    have isOne := eq_of_id ordered isOther isFirst (otherId.trans sameRow)
    refine ⟨delivery, isDelivery, sameRow.trans sameId, ?_⟩
    rw [returned, ← otherType, isOne, sameType]

/-- In every run a row is delivered only by all its consumers, and its consumers are run so often at
most; no poll attempts a row twice or passes one over, and a row waits for so many polls at
most. -/
theorem dispatcher_noStarvation (ordered : rows.Pairwise fun one other => one.id < other.id)
    {labels : List Label}
    (ran : (dispatcher options consumers).run (.start rows) labels = some outbox) :
    (∀ row ∈ outbox.rows, row.dispatched = true →
      (∃ first ∈ rows, first.id = row.id ∧ first.dispatched = true) ∨
        ∃ delivery ∈ outbox.deliveries, delivery.row.id = row.id ∧
          delivery.returned = consumers row.eventType) ∧
      (∀ id, outbox.ran.count id ≤ options.maxAttempts) ∧
      (∀ poll, outbox.polling = some poll → poll.attempted.Nodup) ∧
      (∀ record ∈ outbox.polls, record.attempted.Nodup ∧ (record.ended = true →
        record.attempted.length = options.batchSize ∨
          ∀ id ∈ record.left, id ∈ record.attempted)) ∧
      ∀ row ∈ rows, isDue options.maxAttempts row = true → 0 < options.batchSize →
        (waitingBefore rows row).length * options.maxAttempts / options.batchSize + 1 ≤
          outbox.endedPolls.length → row.id ∈ outbox.attempts := by
  have keeps := keeps_of_run ordered ran
  refine ⟨?_, keeps.ran_le, ?_, ?_, ?_⟩
  · exact fun row isIn dispatched => keeps.delivered_of_dispatched ordered isIn dispatched
  · exact fun poll polling => (keeps.current poll polling).nodup
  · exact fun record isIn => ⟨(keeps.records record isIn).nodup, (keeps.records record isIn).full⟩
  · intro row isRow due some enough
    apply Classical.byContradiction
    intro untouched
    have few := keeps.endedPolls_le isRow due untouched some
    omega

/-- A row that always fails, and one behind it. -/
def twoRows : List (OutboxRow Nat) := [⟨1, 0, 0, false⟩, ⟨2, 0, 0, false⟩]

def oneAtATime : OutboxDispatcherOptions := ⟨1, 2⟩

def failingPoll : List Label :=
  [.poll, .statement, .statement, .statement, .statement, .statement, .statement, .throws,
    .statement]

/-- The second row is attempted in the third poll. -/
theorem dispatcher_noStarvation_twoRows :
    ∃ outbox, (dispatcher oneAtATime fun _ => [0]).run (.start twoRows)
        (failingPoll ++ failingPoll ++ failingPoll) = some outbox ∧
      2 ∈ outbox.attempts :=
  ⟨_, rfl, (@dispatcher_noStarvation _ _ oneAtATime (fun _ => [0]) twoRows _ (by decide)
    (failingPoll ++ failingPoll ++ failingPoll) rfl).2.2.2.2
      ⟨2, 0, 0, false⟩ (by decide) (by decide) (by decide) (by decide)⟩

end NextTime.OutboxDispatch
