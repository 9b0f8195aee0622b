import NextTime.Chat.TurnAlone

/-
What the transactions of a Turn's records keep of its account, statement by statement, and what
the transactions of others do.
-/

namespace NextTime.Chat

open NumberedLog (Entry Logs ofKey)

section
variable {chatOf : Nat → Nat} {storable : String → String} {view : TurnView} {turnId : Nat}

/-- A row that stands for the insert of a call's record names the call. -/
theorem names_of_stands {row : ChatMessageRow} {toolCallId : String} {outcome : ToolCallOutcome}
    (chat : row.key = chatOf turnId)
    (stands : Stands row (toolCallInsert chatOf storable turnId toolCallId outcome)) :
    TurnView.Names chatOf storable turnId toolCallId row :=
  ⟨chat, stands.1, stands.2.1, stands.2.2⟩

theorem names_row (sequence : Nat) (toolCallId : String) (outcome : ToolCallOutcome) :
    TurnView.Names chatOf storable turnId toolCallId
      ⟨chatOf turnId, sequence,
        (toolCallInsert chatOf storable turnId toolCallId outcome).row⟩ :=
  ⟨rfl, rfl, rfl, rfl⟩

namespace TurnView.Holds

/-- Others commit no record of the Turn. -/
theorem grown (holds : view.Holds chatOf storable turnId) {later : List ChatMessageRow}
    (none : later.countP (isRecordOf turnId) = 0) :
    ({ view with committed := view.committed ++ later } : TurnView).Holds
      chatOf storable turnId := by
  have wider : ∀ row ∈ view.rows, row ∈ view.committed ++ later ++ view.pending := by
    intro row isIn
    rcases List.mem_append.mp isIn with isCommitted | isPending
    · exact List.mem_append_left _ (List.mem_append_left _ isCommitted)
    · exact List.mem_append_right _ isPending
  constructor
  · exact holds.counted
  · exact holds.uncounted
  · exact holds.forgotten
  · exact holds.bounded
  · have records := holds.records
    simp only [rows, List.countP_append] at records ⊢
    omega
  · intro other isStarted
    exact (holds.started other isStarted).carried (fun _ isIn => List.mem_append_left _ isIn)
      (fun isStored => .inHand isStored) rfl (fun _ isIn => isIn) rfl
  · intro other isStored
    rcases holds.batch other isStored with ⟨row, isIn, names⟩ | later
    · exact .inl ⟨row, wider row isIn, names⟩
    · exact .inr later
  · exact holds.quiet
  · exact holds.inserting
  · exact holds.ofTurn

section Storing

variable {insert : Insert} {inserts : List Insert} {batch : List String} {ends : Bool}

theorem locked (holds : view.Holds chatOf storable turnId)
    (storing : view.work = .storing (insert :: inserts) batch ends) :
    ({ view with inserting := some insert } : TurnView).Holds chatOf storable turnId := by
  constructor
  · exact holds.counted
  · exact holds.uncounted
  · exact holds.forgotten
  · exact holds.bounded
  · exact holds.records
  · intro other isStarted
    exact (holds.started other isStarted).carried (fun _ isIn => isIn)
      (fun isStored => .inHand isStored) rfl (fun _ isIn => isIn) rfl
  · exact holds.batch
  · intro notStoring
    rw [storing] at notStoring
    cases notStoring
  · intro _ same
    rw [storing]
    exact same
  · exact holds.ofTurn

/-- After an insert the Turn has one insert less in hand, and a row for it. -/
theorem inserted (holds : view.Holds chatOf storable turnId)
    (storing : view.work = .storing (insert :: inserts) batch ends)
    {pending : List ChatMessageRow}
    (keeps : ∀ row ∈ view.pending, row ∈ pending)
    (count : pending.countP (isRecordOf turnId) ≤
      view.pending.countP (isRecordOf turnId) + [insert].countP Insert.isRecord)
    (stands : ∀ toolCallId outcome, insert = toolCallInsert chatOf storable turnId toolCallId outcome →
      ∃ row ∈ view.committed ++ pending, Names chatOf storable turnId toolCallId row) :
    ({ view with
      pending := pending
      inserting := none
      work := .storing inserts batch ends } : TurnView).Holds chatOf storable turnId := by
  constructor
  · exact holds.counted
  · intro absent still
    apply holds.uncounted absent
    rw [storing]
    exact still
  · intro closes
    apply holds.forgotten
    rw [storing]
    exact closes
  · exact holds.bounded
  · have records := holds.records
    rw [storing] at records
    simp only [rows, Work.inserts, List.countP_append, List.countP_cons, List.countP_nil]
      at records count ⊢
    omega
  · intro other isStarted
    refine (holds.started other isStarted).carried (fun _ isIn => isIn) ?_ rfl
      (fun _ isIn => isIn) rfl
    intro isStored
    rw [storing] at isStored
    exact .inHand isStored
  · intro other isStored
    have before := holds.batch other
    rw [storing] at before
    rcases before isStored with ⟨row, isIn, names⟩ | ⟨outcome, isIn⟩
    · left
      rcases List.mem_append.mp isIn with isCommitted | isPending
      · exact ⟨row, List.mem_append_left _ isCommitted, names⟩
      · exact ⟨row, List.mem_append_right _ (keeps row isPending), names⟩
    · rcases List.mem_cons.mp isIn with isFirst | isLater
      · exact .inl (stands other outcome isFirst.symm)
      · exact .inr ⟨outcome, isLater⟩
  · exact fun notStoring => nomatch notStoring
  · exact fun _ isSome => nomatch isSome
  · intro other isIn
    apply holds.ofTurn
    rw [storing]
    exact List.mem_cons_of_mem _ isIn

theorem found (holds : view.Holds chatOf storable turnId)
    (storing : view.work = .storing (insert :: inserts) batch ends) {row : ChatMessageRow}
    (isIn : row ∈ ofKey insert.chatId view.rows) (stands : Stands row insert) :
    ({ view with
      inserting := none
      work := .storing inserts batch ends } : TurnView).Holds chatOf storable turnId := by
  apply holds.inserted storing (fun _ isPending => isPending) (Nat.le_add_right _ _)
  intro toolCallId outcome same
  subst same
  have chat := (List.mem_filter.mp isIn).2
  exact ⟨row, (List.mem_filter.mp isIn).1, names_of_stands (of_decide_eq_true chat) stands⟩

theorem appended (holds : view.Holds chatOf storable turnId)
    (storing : view.work = .storing (insert :: inserts) batch ends) (sequence : Nat) :
    ({ view with
      pending := view.pending ++ [⟨insert.chatId, sequence, insert.row⟩]
      inserting := none
      work := .storing inserts batch ends } : TurnView).Holds chatOf storable turnId := by
  apply holds.inserted storing (fun _ isPending => List.mem_append_left _ isPending)
  · rw [List.countP_append]
    apply Nat.add_le_add_left
    rw [List.countP_singleton, List.countP_singleton]
    split
    next isRecord => rw [if_pos (isRecordOf_row isRecord)]
    next => exact Nat.zero_le _
  · intro toolCallId outcome same
    subst same
    exact ⟨_, List.mem_append_right _ (List.mem_append_right _ List.mem_cons_self),
      names_row sequence toolCallId outcome⟩

/-- Once all inserts of a batch were run, its commit records every call of it. -/
theorem committed (holds : view.Holds chatOf storable turnId)
    (storing : view.work = .storing [] batch ends) :
    ({ view with
      committed := view.rows
      pending := []
      work := .after ends } : TurnView).Holds chatOf storable turnId := by
  constructor
  · exact holds.counted
  · intro absent still
    rw [after_closes] at still
    apply holds.uncounted absent
    rw [storing]
    exact still
  · intro closes
    rw [after_closes] at closes
    apply holds.forgotten
    rw [storing]
    exact closes
  · exact holds.bounded
  · have records := holds.records
    rw [storing] at records
    rw [after_inserts, TurnView.rows, List.append_nil]
    exact records
  · intro other isStarted
    refine (holds.started other isStarted).carried (fun _ isIn => List.mem_append_left _ isIn) ?_ rfl
      (fun _ isIn => isIn) rfl
    intro isStored
    have rowOf := holds.batch other isStored
    rw [storing] at rowOf
    rcases rowOf with ⟨row, isIn, names⟩ | ⟨_, isLeft⟩
    · exact .recorded row isIn names
    · cases isLeft
  · intro other isStored
    rw [after_batch] at isStored
    cases isStored
  · intro _
    refine ⟨rfl, ?_⟩
    cases inserting : view.inserting with
    | none => rfl
    | some insert =>
        have isFirst := holds.inserting insert inserting
        rw [storing] at isFirst
        cases isFirst
  · intro insert inserting
    have isFirst := holds.inserting insert inserting
    rw [storing] at isFirst
    cases isFirst
  · intro insert isIn
    rw [after_inserts] at isIn
    cases isIn

/-- A transaction that fails loses the calls of its batch. -/
theorem failed (holds : view.Holds chatOf storable turnId)
    (storing : view.work = .storing inserts batch ends) :
    ({ view with
      pending := []
      inserting := none
      work := .after ends
      ledger := { view.ledger with lost := view.ledger.lost ++ batch } } : TurnView).Holds
      chatOf storable turnId := by
  constructor
  · exact holds.counted
  · intro absent still
    rw [after_closes] at still
    apply holds.uncounted absent
    rw [storing]
    exact still
  · intro closes
    rw [after_closes] at closes
    apply holds.forgotten
    rw [storing]
    exact closes
  · exact holds.bounded
  · have records := holds.records
    simp only [rows, List.countP_append, after_inserts, List.countP_nil] at records ⊢
    omega
  · intro other isStarted
    refine (holds.started other isStarted).carried (fun _ isIn => isIn) ?_ rfl
      (fun _ isIn => List.mem_append_left _ isIn) rfl
    intro isStored
    rw [storing] at isStored
    exact .lost (List.mem_append_right _ isStored)
  · intro other isStored
    rw [after_batch] at isStored
    cases isStored
  · exact fun _ => ⟨rfl, rfl⟩
  · exact fun _ isSome => nomatch isSome
  · intro insert isIn
    rw [after_inserts] at isIn
    cases isIn

end Storing

theorem ended (holds : view.Holds chatOf storable turnId) (ending : view.work = .ending) :
    ({ view with work := .ended } : TurnView).Holds chatOf storable turnId := by
  constructor
  · exact holds.counted
  · exact fun _ still => nomatch still
  · intro _
    apply holds.forgotten
    rw [ending]
    rfl
  · exact holds.bounded
  · exact Nat.le_trans (Nat.add_le_add_left (Nat.zero_le _) _) holds.records
  · intro other isStarted
    refine (holds.started other isStarted).carried (fun _ isIn => isIn) ?_ rfl
      (fun _ isIn => isIn) rfl
    intro isStored
    rw [ending] at isStored
    cases isStored
  · exact fun _ isStored => nomatch isStored
  · intro _
    apply holds.quiet
    rw [ending]
    rfl
  · intro insert inserting
    have isFirst := holds.inserting insert inserting
    rw [ending] at isFirst
    cases isFirst
  · exact fun _ isIn => nomatch isIn

/-- Before its end is committed, every call of the Turn is accounted for. -/
theorem settled (holds : view.Holds chatOf storable turnId) (ending : view.work = .ending)
    {toolCallId : String} (isStarted : toolCallId ∈ view.ledger.started) :
    (∃ row ∈ view.committed, Names chatOf storable turnId toolCallId row) ∨
      view.ledger.attempts = MAX_TOOL_CALL_RECORDS_PER_TURN ∨ toolCallId ∈ view.ledger.lost := by
  have absent : view.calls = none := by
    apply holds.forgotten
    rw [ending]
    rfl
  cases holds.started toolCallId isStarted with
  | recorded row isCommitted names => exact .inl ⟨row, isCommitted, names⟩
  | inHand isStored =>
      rw [ending] at isStored
      cases isStored
  | unfinished calls present isIn =>
      rw [absent] at present
      cases present
  | lost isLost => exact .inr (.inr isLost)
  | reached bound =>
      right
      left
      rw [entry, absent] at bound
      exact Nat.le_antisymm holds.bounded bound

end TurnView.Holds
end

end NextTime.Chat
