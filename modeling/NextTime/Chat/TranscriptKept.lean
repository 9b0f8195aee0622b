import NextTime.Chat.CursorReaders

/-
What the transactions that insert messages keep of every transcript, whichever way they interleave.
-/

namespace NextTime.Chat

open NumberedLog (Entry Logs ofKey)

/-! ### One row each -/

/-- The record of a tool call of a Turn, as the insert of records writes it. -/
def IsRecord (row : ChatMessageRow) (turnId : Nat) (toolCallId : String) : Prop :=
  row.body.turnId = some turnId ∧ row.body.role = .tool ∧
    ∃ outcome, row.body.content = .toolCall toolCallId outcome

/-- The later row stands behind the earlier, of another outbox row and another tool call. -/
structure Apart (earlier later : ChatMessageRow) : Prop where
  below : Below earlier later
  outbox : ∀ sourceOutboxId, earlier.body.sourceOutboxId = some sourceOutboxId →
    later.body.sourceOutboxId ≠ some sourceOutboxId
  record : ∀ turnId toolCallId, IsRecord earlier turnId toolCallId →
    ¬IsRecord later turnId toolCallId

/-- The row an insert writes. -/
def Insert.row : Insert → ChatMessage
  | .message input => ⟨input.turnId, input.role, .other input.toolCallId, input.sourceOutboxId⟩
  | .toolCall input => ⟨some input.turnId, .tool, .toolCall input.toolCallId input.outcome, none⟩

/-- A row that stands for what is inserted: of the same outbox row, or on the same Turn with the
same `toolCallId`. -/
def Stands (row : ChatMessageRow) : Insert → Prop
  | .message input => input.sourceOutboxId ≠ none ∧ row.body.sourceOutboxId = input.sourceOutboxId
  | .toolCall input => row.body.turnId = some input.turnId ∧ row.body.role = .tool ∧
      row.body.content.toolCallId = some input.toolCallId

section
variable {Thread : Type} [DecidableEq Thread]

/-- An insert finds a row that stands for it, or appends its own. -/
theorem runInsert_cases (messages : ChatMessages Thread) (thread : Thread) (insert : Insert) :
    ((runInsert messages thread insert).1 = messages ∧
        ∃ row ∈ ofKey insert.chatId (messages.view thread), Stands row insert) ∨
      ((runInsert messages thread insert).1 = messages.append thread insert.chatId insert.row ∧
        ∀ row ∈ ofKey insert.chatId (messages.view thread), ¬Stands row insert) := by
  cases insert with
  | message input =>
      simp only [runInsert, insertChatMessage]
      cases found : rowOfOutbox (ofKey input.chatId (messages.view thread)) input.sourceOutboxId with
      | some existing =>
          left
          refine ⟨rfl, existing, ?_⟩
          unfold rowOfOutbox at found
          split at found
          next => cases found
          next sourceOutboxId given =>
            have matched := List.find?_some found
            rw [decide_eq_true_eq] at matched
            refine ⟨List.mem_of_find?_eq_some found, ?_, ?_⟩
            · rw [given]
              exact Option.some_ne_none _
            · rw [given]
              exact matched
      | none =>
          right
          refine ⟨rfl, ?_⟩
          rintro row isIn ⟨given, same⟩
          unfold rowOfOutbox at found
          split at found
          next absent => exact given absent
          next sourceOutboxId present =>
            rw [present] at same
            exact List.find?_eq_none.mp found row isIn (decide_eq_true same)
  | toolCall input =>
      simp only [runInsert, insertToolCallMessage]
      split
      next found =>
        left
        obtain ⟨row, isIn, same⟩ := List.any_eq_true.mp found
        simp only [Bool.and_eq_true, decide_eq_true_eq] at same
        exact ⟨rfl, row, isIn, same.1.1, same.1.2, same.2⟩
      next fresh =>
        right
        refine ⟨rfl, ?_⟩
        rintro row isIn ⟨turn, role, toolCall⟩
        apply fresh
        rw [List.any_eq_true]
        refine ⟨row, isIn, ?_⟩
        simp only [Bool.and_eq_true, decide_eq_true_eq]
        exact ⟨⟨turn, role⟩, toolCall⟩

end

/-- Rows that do not stand for an insert are apart from its own. -/
theorem apart_of_not_stands {row : ChatMessageRow} {insert : Insert} {sequence : Nat}
    (below : row.sequence < sequence) (fresh : ¬Stands row insert) :
    Apart row ⟨insert.chatId, sequence, insert.row⟩ := by
  constructor
  · exact below
  · intro sourceOutboxId given same
    cases insert with
    | message input =>
        apply fresh
        change input.sourceOutboxId = some sourceOutboxId at same
        rw [Stands, same]
        exact ⟨Option.some_ne_none _, given⟩
    | toolCall input => cases same
  · rintro turnId toolCallId ⟨turn, role, outcome, content⟩ ⟨sameTurn, _, sameOutcome, sameContent⟩
    cases insert with
    | message input => cases sameContent
    | toolCall input =>
        cases sameTurn
        cases sameContent
        apply fresh
        refine ⟨turn, role, ?_⟩
        rw [content]
        rfl

/-! ### What every step keeps -/

section
variable {Thread : Type}

structure Kept (hashtext : Nat → Int) (chats : Chats Thread) : Prop where
  guarded : chats.messages.Guarded hashtext
  taken : ∀ thread insert, chats.inserting thread = some insert →
    chats.messages.holder (hashtext insert.chatId) = some thread
  apart : chats.messages.Ordered Apart
  positive : chats.messages.Every fun row => 0 < row.sequence
  readers : ∀ reader, SafeSequences chats.messages.committed (chats.readers reader).chatId →
    Follows chats.messages.committed (chats.readers reader)

variable {hashtext : Nat → Int} {number : String → Option Rat} {chats next : Chats Thread}

theorem kept_start (start : ChatsStart chats) : Kept hashtext chats := by
  obtain ⟨empty, idle, readers⟩ := start
  constructor
  · rw [empty]
    exact Logs.guarded_empty
  · intro thread insert inserting
    rw [idle] at inserting
    cases inserting
  · rw [empty]
    exact Logs.ordered_empty
  · rw [empty]
    exact Logs.every_empty
  · intro reader _
    constructor
    · rw [(readers reader).2]
      exact List.nil_prefix
    · rw [(readers reader).1, (readers reader).2]
      rfl

theorem Kept.sorted [Inhabited Thread] (kept : Kept hashtext chats) (chatId : Nat) :
    (transcript chats.messages.committed chatId).Pairwise Apart :=
  kept.apart.committed default chatId

theorem Kept.positive_committed [Inhabited Thread] (kept : Kept hashtext chats) :
    ∀ row ∈ chats.messages.committed, 0 < row.sequence :=
  fun row isIn => kept.positive default row (List.mem_append_left _ isIn)

variable [DecidableEq Thread]

theorem kept_lock {thread : Thread} {insert : Insert}
    (moved : chatStep hashtext number chats (.lock thread insert) = some next)
    (kept : Kept hashtext chats) : Kept hashtext next := by
  simp only [chatStep] at moved
  split at moved
  next => cases moved
  next idle =>
    obtain ⟨messages, acquires, same⟩ := Option.map_eq_some_iff.mp moved
    cases same
    obtain ⟨committed, _, holds, keeps⟩ := Logs.acquire_cases acquires
    constructor
    · exact kept.guarded.acquire acquires
    · intro other input inserting
      by_cases isThread : other = thread
      · subst isThread
        simp only [Function.update_self] at inserting
        cases inserting
        exact holds
      · simp only [Function.update_of_ne isThread] at inserting
        exact keeps _ _ (kept.taken other input inserting)
    · exact kept.apart.acquire acquires
    · exact kept.positive.acquire acquires
    · intro reader
      rw [committed]
      exact kept.readers reader

theorem kept_insert {thread : Thread}
    (moved : chatStep hashtext number chats (.insert thread) = some next)
    (kept : Kept hashtext chats) : Kept hashtext next := by
  simp only [chatStep] at moved
  split at moved
  next => cases moved
  next insert inserting =>
    cases moved
    have holds := kept.taken thread insert inserting
    have taken : ∀ other input, Function.update chats.inserting thread none other = some input →
        chats.messages.holder (hashtext input.chatId) = some other := by
      intro other input still
      by_cases isThread : other = thread
      · rw [isThread, Function.update_self] at still
        cases still
      · rw [Function.update_of_ne isThread] at still
        exact kept.taken other input still
    rcases runInsert_cases chats.messages thread insert with ⟨same, _⟩ | ⟨appended, fresh⟩
    · constructor
      · rw [same]
        exact kept.guarded
      · rw [same]
        exact taken
      · rw [same]
        exact kept.apart
      · rw [same]
        exact kept.positive
      · rw [same]
        exact kept.readers
    · constructor
      · rw [appended]
        exact kept.guarded.append holds _
      · rw [appended]
        exact taken
      · rw [appended]
        apply kept.apart.append
        intro row isIn
        exact apart_of_not_stands (Logs.lt_nextSequence isIn) (fresh row isIn)
      · rw [appended]
        exact kept.positive.append (Nat.succ_pos _)
      · rw [appended]
        exact kept.readers

/-- A transaction that has no insert under way keeps none at its end. -/
theorem taken_ended {thread : Thread} (kept : Kept hashtext chats)
    {inserting : Thread → Option Insert} (idle : inserting thread = none)
    (others : ∀ other, other ≠ thread → inserting other = chats.inserting other) :
    ∀ other insert, inserting other = some insert →
      chats.messages.released thread (hashtext insert.chatId) = some other := by
  intro other insert given
  by_cases isThread : other = thread
  · rw [isThread, idle] at given
    cases given
  · rw [others other isThread] at given
    exact Logs.released_of_ne isThread (kept.taken other insert given)

theorem kept_commit {thread : Thread}
    (moved : chatStep hashtext number chats (.commit thread) = some next)
    (kept : Kept hashtext chats) : Kept hashtext next := by
  simp only [chatStep] at moved
  split at moved
  next => cases moved
  next idle =>
    cases moved
    constructor
    · exact kept.guarded.commit thread
    · exact taken_ended kept idle fun _ _ => rfl
    · exact Logs.Ordered.commit kept.guarded kept.apart thread
    · exact kept.positive.ended (.inl rfl)
    · intro reader safe
      exact (kept.readers reader safe.of_append).append _

theorem kept_rollback {thread : Thread}
    (moved : chatStep hashtext number chats (.rollback thread) = some next)
    (kept : Kept hashtext chats) : Kept hashtext next := by
  cases moved
  constructor
  · exact kept.guarded.rollback thread
  · exact taken_ended kept (Function.update_self ..) fun _ different =>
      Function.update_of_ne different ..
  · exact kept.apart.rollback thread
  · exact kept.positive.ended (.inr rfl)
  · exact kept.readers

theorem kept_page [Inhabited Thread] (reads : ReadsSafe number) {reader : Nat} {limit : Option Nat}
    (moved : chatStep hashtext number chats (.page reader limit) = some next)
    (kept : Kept hashtext chats) : Kept hashtext next := by
  cases moved
  constructor
  · exact kept.guarded
  · exact kept.taken
  · exact kept.apart
  · exact kept.positive
  · intro other safe
    by_cases same : other = reader
    · subst same
      simp only [Function.update_self] at safe ⊢
      exact follows_turn ((kept.sorted _).imp Apart.below) kept.positive_committed
        (kept.readers other safe) safe reads limit
    · simp only [Function.update_of_ne same] at safe ⊢
      exact kept.readers other safe

theorem kept_step [Inhabited Thread] (reads : ReadsSafe number) {step : ChatStep Thread}
    (moved : chatStep hashtext number chats step = some next)
    (kept : Kept hashtext chats) : Kept hashtext next := by
  cases step with
  | lock => exact kept_lock moved kept
  | insert => exact kept_insert moved kept
  | commit => exact kept_commit moved kept
  | rollback => exact kept_rollback moved kept
  | page => exact kept_page reads moved kept

theorem kept_run [Inhabited Thread] (reads : ReadsSafe number)
    {steps : List (ChatStep Thread)} (kept : Kept hashtext chats)
    (ran : (chatSystem hashtext number).run chats steps = some next) : Kept hashtext next :=
  (chatSystem hashtext number).run_preserves
    (fun _ _ _ kept moved => kept_step reads moved kept) kept ran

/-! ### What becomes visible later -/

theorem committed_runInsert (messages : ChatMessages Thread) (thread : Thread) (insert : Insert) :
    (runInsert messages thread insert).1.committed = messages.committed := by
  rcases runInsert_cases messages thread insert with ⟨same, _⟩ | ⟨appended, _⟩
  · rw [same]
  · rw [appended]
    rfl

/-- A step leaves the committed rows, or appends to them. -/
theorem committed_step {step : ChatStep Thread}
    (moved : chatStep hashtext number chats step = some next) :
    chats.messages.committed <+: next.messages.committed := by
  cases step with
  | lock thread insert =>
      simp only [chatStep] at moved
      split at moved
      next => cases moved
      next =>
        obtain ⟨messages, acquires, same⟩ := Option.map_eq_some_iff.mp moved
        cases same
        exact (Logs.acquire_cases acquires).1 ▸ List.prefix_refl _
  | insert thread =>
      simp only [chatStep] at moved
      split at moved
      next => cases moved
      next insert _ =>
        cases moved
        refine ⟨[], ?_⟩
        rw [List.append_nil]
        exact (committed_runInsert chats.messages thread insert).symm
  | commit thread =>
      simp only [chatStep] at moved
      split at moved
      next => cases moved
      next =>
        cases moved
        exact List.prefix_append _ _
  | rollback thread =>
      cases moved
      exact List.prefix_refl _
  | page reader limit =>
      cases moved
      exact List.prefix_refl _

theorem committed_run {steps : List (ChatStep Thread)}
    (ran : (chatSystem hashtext number).run chats steps = some next) :
    chats.messages.committed <+: next.messages.committed := by
  induction steps generalizing chats with
  | nil =>
      cases ran
      exact List.prefix_refl _
  | cons step steps ih =>
      obtain ⟨middle, moved, rest⟩ := (chatSystem hashtext number).run_cons_some ran
      exact (committed_step moved).trans (ih rest)

end

end NextTime.Chat
