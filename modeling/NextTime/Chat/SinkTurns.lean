import NextTime.Chat.TurnTransactions

/-
The sink keeps every Turn's account: an event is handled as if its Turn were alone while no more
Turns are active than are tracked, and the transactions of others leave a Turn alone.
-/

namespace NextTime.Chat

open NumberedLog (Entry Logs ofKey)

/-! ### What a statement touches -/

section
variable {Thread : Type}

def ChatStep.thread : ChatStep Thread → Option Thread
  | .lock thread _ | .insert thread | .commit thread | .rollback thread => some thread
  | .page _ _ => none

variable [DecidableEq Thread] {hashtext : Nat → Int} {number : String → Option Rat}
  {chats next : Chats Thread} {step : ChatStep Thread}

theorem pending_runInsert_of_ne {messages : ChatMessages Thread} {thread other : Thread}
    (different : other ≠ thread) (insert : Insert) :
    (runInsert messages thread insert).1.pending other = messages.pending other := by
  rcases runInsert_cases messages thread insert with ⟨same, _⟩ | ⟨appended, _⟩
  · rw [same]
  · rw [appended]
    exact Function.update_of_ne different ..

/-- What a step commits was pending in its transaction. -/
theorem committed_of_step (moved : chatStep hashtext number chats step = some next) :
    ∃ later, next.messages.committed = chats.messages.committed ++ later ∧
      ∀ row ∈ later, ∃ thread, step.thread = some thread ∧
        row ∈ chats.messages.pending thread := by
  cases step with
  | lock thread insert =>
      simp only [chatStep] at moved
      split at moved
      next => cases moved
      next =>
        obtain ⟨messages, acquires, same⟩ := Option.map_eq_some_iff.mp moved
        cases same
        refine ⟨[], ?_, fun _ isIn => by cases isIn⟩
        rw [List.append_nil]
        exact (Logs.acquire_cases acquires).1
  | insert thread =>
      simp only [chatStep] at moved
      split at moved
      next => cases moved
      next insert _ =>
        cases moved
        refine ⟨[], ?_, fun _ isIn => by cases isIn⟩
        rw [List.append_nil]
        exact committed_runInsert chats.messages thread insert
  | commit thread =>
      simp only [chatStep] at moved
      split at moved
      next => cases moved
      next =>
        cases moved
        exact ⟨_, rfl, fun row isIn => ⟨thread, rfl, isIn⟩⟩
  | rollback thread =>
      cases moved
      exact ⟨[], (List.append_nil _).symm, fun _ isIn => by cases isIn⟩
  | page reader limit =>
      cases moved
      exact ⟨[], (List.append_nil _).symm, fun _ isIn => by cases isIn⟩

/-- A step leaves the transactions of the others. -/
theorem others_of_step (moved : chatStep hashtext number chats step = some next) {other : Thread}
    (different : step.thread ≠ some other) :
    next.messages.pending other = chats.messages.pending other ∧
      next.inserting other = chats.inserting other := by
  cases step with
  | lock thread insert =>
      have apart : other ≠ thread := fun same => different (congrArg some same.symm)
      simp only [chatStep] at moved
      split at moved
      next => cases moved
      next =>
        obtain ⟨messages, acquires, same⟩ := Option.map_eq_some_iff.mp moved
        cases same
        exact ⟨congrFun (Logs.acquire_cases acquires).2.1 other, Function.update_of_ne apart ..⟩
  | insert thread =>
      have apart : other ≠ thread := fun same => different (congrArg some same.symm)
      simp only [chatStep] at moved
      split at moved
      next => cases moved
      next insert _ =>
        cases moved
        exact ⟨pending_runInsert_of_ne apart insert, Function.update_of_ne apart ..⟩
  | commit thread =>
      have apart : other ≠ thread := fun same => different (congrArg some same.symm)
      simp only [chatStep] at moved
      split at moved
      next => cases moved
      next =>
        cases moved
        exact ⟨Function.update_of_ne apart .., rfl⟩
  | rollback thread =>
      have apart : other ≠ thread := fun same => different (congrArg some same.symm)
      cases moved
      exact ⟨Function.update_of_ne apart .., Function.update_of_ne apart ..⟩
  | page reader limit =>
      cases moved
      exact ⟨rfl, rfl⟩

/-- A row is pending since before, or an insert that was due wrote it. -/
theorem pending_of_step (moved : chatStep hashtext number chats step = some next)
    {thread : Thread} {row : ChatMessageRow} (isIn : row ∈ next.messages.pending thread) :
    row ∈ chats.messages.pending thread ∨
      ∃ insert, chats.inserting thread = some insert ∧ row.body = insert.row := by
  by_cases own : step.thread = some thread
  · cases step with
    | lock _ insert =>
        cases own
        simp only [chatStep] at moved
        split at moved
        next => cases moved
        next =>
          obtain ⟨messages, acquires, same⟩ := Option.map_eq_some_iff.mp moved
          cases same
          exact .inl ((congrFun (Logs.acquire_cases acquires).2.1 thread) ▸ isIn)
    | insert _ =>
        cases own
        simp only [chatStep] at moved
        split at moved
        next => cases moved
        next insert due =>
          cases moved
          rcases runInsert_cases chats.messages thread insert with ⟨same, _⟩ | ⟨appended, _⟩
          · simp only [same] at isIn
            exact .inl isIn
          · simp only [appended, Logs.append, Function.update_self] at isIn
            rcases List.mem_append.mp isIn with before | new
            · exact .inl before
            · exact .inr ⟨insert, due, congrArg Entry.body (List.mem_singleton.mp new)⟩
    | commit _ =>
        cases own
        simp only [chatStep] at moved
        split at moved
        next => cases moved
        next =>
          cases moved
          simp only [Logs.commit, Function.update_self] at isIn
          cases isIn
    | rollback _ =>
        cases own
        cases moved
        simp only [Logs.rollback, Function.update_self] at isIn
        cases isIn
    | page _ _ => cases own
  · rw [(others_of_step moved own).1] at isIn
    exact .inl isIn

theorem inserting_of_step (moved : chatStep hashtext number chats step = some next)
    {thread : Thread} {insert : Insert} (due : next.inserting thread = some insert) :
    chats.inserting thread = some insert ∨ step = .lock thread insert := by
  by_cases own : step.thread = some thread
  · cases step with
    | lock _ given =>
        cases own
        simp only [chatStep] at moved
        split at moved
        next => cases moved
        next =>
          obtain ⟨messages, _, same⟩ := Option.map_eq_some_iff.mp moved
          cases same
          simp only [Function.update_self] at due
          cases due
          exact .inr rfl
    | insert _ =>
        cases own
        simp only [chatStep] at moved
        split at moved
        next => cases moved
        next =>
          cases moved
          simp only [Function.update_self] at due
          cases due
    | commit _ =>
        cases own
        simp only [chatStep] at moved
        split at moved
        next => cases moved
        next =>
          cases moved
          exact .inl due
    | rollback _ =>
        cases own
        cases moved
        simp only [Function.update_self] at due
        cases due
    | page _ _ => cases own
  · rw [(others_of_step moved own).2] at due
    exact .inl due

end

/-! ### A Turn of the sink -/

def Sink.turn (sink : Sink) (turnId : Nat) : TurnView where
  committed := sink.chats.messages.committed
  pending := sink.chats.messages.pending (.turn turnId)
  inserting := sink.chats.inserting (.turn turnId)
  calls := sink.toolCallsByTurn.lookup turnId
  work := sink.work turnId
  ledger := sink.ledger turnId

/-- No more Turns are active than are tracked. -/
def Tracked (sink : Sink) : SinkStep → Prop
  | .event turnId _ => (activate sink turnId).active.length ≤ MAX_TRACKED_TURNS
  | _ => True

section
variable {chatOf : Nat → Nat} {storable : String → String} {hashtext : Nat → Int}
  {number : String → Option Rat} {sink next : Sink} {turnId : Nat}

section Events

variable (fits : sink.toolCallsByTurn.lookup turnId = none →
  sink.toolCallsByTurn.length < MAX_TRACKED_TURNS)

include fits

theorem turn_handle (event : AgentRuntimeEvent) :
    (handle chatOf storable sink turnId event).turn turnId =
      (sink.turn turnId).handle chatOf storable turnId event := by
  have absent := lookup_deleteTurn_self sink.toolCallsByTurn turnId
  cases event with
  | textDelta => rfl
  | toolCallStarted toolCallId =>
      simp only [handle, TurnView.handle, turnEntry_eq fits, Sink.turn,
        lookup_setTurn_self absent, Function.update_self]
      rfl
  | toolCallEnded toolCallId isError =>
      have entry : (sink.turn turnId).entry =
          (sink.toolCallsByTurn.lookup turnId).getD ⟨[], 0⟩ := rfl
      simp only [handle, TurnView.handle, turnEntry_eq fits, entry]
      generalize endCall ((sink.toolCallsByTurn.lookup turnId).getD ⟨[], 0⟩) toolCallId = calls
      cases admitRecord calls with
      | none => simp only [Sink.turn, lookup_setTurn_self absent]
      | some counted => simp only [Sink.turn, lookup_setTurn_self absent, Function.update_self]
  | message role toolCallId =>
      simp only [handle, TurnView.handle, Sink.turn, Function.update_self]
  | turnEnded =>
      simp only [handle, TurnView.handle, Sink.turn]
      cases found : sink.toolCallsByTurn.lookup turnId with
      | none => simp only [absent, Function.update_self]
      | some calls => simp only [absent, Function.update_self]

theorem turn_handle_of_ne {other : Nat} (different : other ≠ turnId)
    (event : AgentRuntimeEvent) :
    (handle chatOf storable sink turnId event).turn other = sink.turn other := by
  cases event with
  | textDelta => rfl
  | toolCallStarted toolCallId =>
      simp only [handle, turnEntry_eq fits, Sink.turn, lookup_setTurn_of_ne different,
        lookup_deleteTurn_of_ne _ different, Function.update_of_ne different]
  | toolCallEnded toolCallId isError =>
      simp only [handle, turnEntry_eq fits]
      split
      · simp only [Sink.turn, lookup_setTurn_of_ne different,
          lookup_deleteTurn_of_ne _ different]
      · simp only [Sink.turn, lookup_setTurn_of_ne different,
          lookup_deleteTurn_of_ne _ different, Function.update_of_ne different]
  | message role toolCallId =>
      simp only [handle, Sink.turn, Function.update_of_ne different]
  | turnEnded =>
      simp only [handle]
      split
      · simp only [Sink.turn, lookup_deleteTurn_of_ne _ different, Function.update_of_ne different]
      · simp only [Sink.turn, lookup_deleteTurn_of_ne _ different, Function.update_of_ne different]

end Events
end

end NextTime.Chat
