import NextTime.Chat.SinkLedger
import NextTime.Chat.TranscriptKept
import Mathlib.Data.List.Count

/-
One Turn as the sink and the database hold it, and what its tool calls are accounted for by while
its events are handled and its transactions run.
-/

namespace NextTime.Chat

open NumberedLog (Entry Logs ofKey)

/-! ### Records -/

/-- A row that the insert of records writes for the Turn. -/
def isRecordOf (turnId : Nat) (row : ChatMessageRow) : Bool :=
  match row.body.content with
  | .toolCall _ _ => row.body.turnId = some turnId
  | .other _ => false

def Insert.isRecord : Insert → Bool
  | .message _ => false
  | .toolCall _ => true

theorem isRecordOf_row {turnId sequence : Nat} {insert : Insert}
    (isRecord : isRecordOf turnId ⟨insert.chatId, sequence, insert.row⟩ = true) :
    insert.isRecord = true := by
  cases insert with
  | message input => cases isRecord
  | toolCall input => rfl

/-! ### What is left of an event -/

def Work.inserts : Work → List Insert
  | .storing inserts _ _ => inserts
  | _ => []

def Work.batch : Work → List String
  | .storing _ batch _ => batch
  | _ => []

def Work.isStoring : Work → Bool
  | .storing _ _ _ => true
  | _ => false

/-- The Turn's last event was taken in hand. -/
def Work.closes : Work → Bool
  | .idle => false
  | .storing _ _ ends => ends
  | .ending | .ended => true

@[simp]
theorem after_inserts (ends : Bool) : (Work.after ends).inserts = [] := by cases ends <;> rfl

@[simp]
theorem after_batch (ends : Bool) : (Work.after ends).batch = [] := by cases ends <;> rfl

@[simp]
theorem after_isStoring (ends : Bool) : (Work.after ends).isStoring = false := by
  cases ends <;> rfl

@[simp]
theorem after_closes (ends : Bool) : (Work.after ends).closes = ends := by cases ends <;> rfl

/-- One insert for each call of the batch. -/
theorem storeRecords_map (insertOf : String → Insert) (batch : List String) (ends : Bool) :
    (storeRecords (batch.map insertOf) batch ends).inserts = batch.map insertOf ∧
      (storeRecords (batch.map insertOf) batch ends).batch = batch ∧
      (storeRecords (batch.map insertOf) batch ends).closes = ends := by
  cases batch with
  | nil => exact ⟨after_inserts ends, after_batch ends, after_closes ends⟩
  | cons toolCallId rest => exact ⟨rfl, rfl, rfl⟩

/-! ### A Turn alone -/

structure TurnView where
  committed : List ChatMessageRow
  pending : List ChatMessageRow
  inserting : Option Insert
  calls : Option TurnToolCalls
  work : Work
  ledger : Ledger

namespace TurnView

variable (view : TurnView)

/-- The entry of the Turn, or a new one. -/
def entry : TurnToolCalls := view.calls.getD ⟨[], 0⟩

def rows : List ChatMessageRow := view.committed ++ view.pending

section
variable (chatOf : Nat → Nat) (storable : String → String)

/-- An event of the Turn where no Turn is forgotten. -/
def handle (turnId : Nat) : AgentRuntimeEvent → TurnView
  | .textDelta => view
  | .toolCallStarted toolCallId =>
      { view with
        calls := some (startCall view.entry toolCallId)
        ledger := { view.ledger with started := view.ledger.started ++ [toolCallId] } }
  | .toolCallEnded toolCallId isError =>
      let calls := endCall view.entry toolCallId
      match admitRecord calls with
      | none => { view with calls := some calls }
      | some counted =>
          { view with
            calls := some counted
            work := storeRecords
              [toolCallInsert chatOf storable turnId toolCallId (if isError then .failed else .done)]
              [toolCallId] false
            ledger := { view.ledger with attempts := counted.records } }
  | .message role toolCallId =>
      { view with
        work := .storing [.message ⟨chatOf turnId, some turnId, role, toolCallId, none⟩] [] false }
  | .turnEnded =>
      match view.calls with
      | none => { view with work := .ending }
      | some calls =>
          let admitted := admitOpen calls calls.openCalls
          { view with
            calls := none
            work := storeRecords
              (admitted.2.map fun toolCallId =>
                toolCallInsert chatOf storable turnId toolCallId .not_finished)
              admitted.2 true
            ledger := { view.ledger with attempts := admitted.1.records } }

/-- The row names the call on its Turn: its record, or a message of the tool with that id. -/
structure Names (turnId : Nat) (toolCallId : String) (row : ChatMessageRow) : Prop where
  chat : row.key = chatOf turnId
  turn : row.body.turnId = some turnId
  role : row.body.role = .tool
  toolCall : row.body.content.toolCallId = some (storable toolCallId)

/-- What became of a call that started. -/
inductive Accounted (turnId : Nat) (toolCallId : String) : Prop
  | recorded (row : ChatMessageRow) (isCommitted : row ∈ view.committed)
      (names : Names chatOf storable turnId toolCallId row)
  | inHand (isStored : toolCallId ∈ view.work.batch)
  | unfinished (calls : TurnToolCalls) (entry : view.calls = some calls)
      (isOpen : toolCallId ∈ calls.openCalls)
  | lost (isLost : toolCallId ∈ view.ledger.lost)
  | reached (bound : MAX_TOOL_CALL_RECORDS_PER_TURN ≤
      view.ledger.attempts + view.entry.openCalls.length)

structure Holds (turnId : Nat) : Prop where
  counted : ∀ calls, view.calls = some calls →
    calls.records = view.ledger.attempts ∧ calls.openCalls.Nodup
  uncounted : view.calls = none → view.work.closes = false → view.ledger.attempts = 0
  forgotten : view.work.closes = true → view.calls = none
  bounded : view.ledger.attempts ≤ MAX_TOOL_CALL_RECORDS_PER_TURN
  records : view.rows.countP (isRecordOf turnId) + view.work.inserts.countP Insert.isRecord ≤
    view.ledger.attempts
  started : ∀ toolCallId ∈ view.ledger.started,
    view.Accounted chatOf storable turnId toolCallId
  batch : ∀ toolCallId ∈ view.work.batch,
    (∃ row ∈ view.rows, Names chatOf storable turnId toolCallId row) ∨
      ∃ outcome, toolCallInsert chatOf storable turnId toolCallId outcome ∈ view.work.inserts
  quiet : view.work.isStoring = false → view.pending = [] ∧ view.inserting = none
  inserting : ∀ insert, view.inserting = some insert → view.work.inserts.head? = some insert
  ofTurn : ∀ insert ∈ view.work.inserts,
    (∃ toolCallId outcome, insert = toolCallInsert chatOf storable turnId toolCallId outcome) ∨
      ∃ input, insert = .message input

variable {chatOf storable} {view}

/-- A step that leaves the entry and its count accounts for the calls in hand alone. -/
theorem Accounted.carried {turnId : Nat} {toolCallId : String} {next : TurnView}
    (accounted : view.Accounted chatOf storable turnId toolCallId)
    (committed : ∀ row ∈ view.committed, row ∈ next.committed)
    (inHand : toolCallId ∈ view.work.batch → next.Accounted chatOf storable turnId toolCallId)
    (calls : next.calls = view.calls)
    (lost : ∀ call ∈ view.ledger.lost, call ∈ next.ledger.lost)
    (attempts : next.ledger.attempts = view.ledger.attempts) :
    next.Accounted chatOf storable turnId toolCallId := by
  cases accounted with
  | recorded row isCommitted names => exact .recorded row (committed row isCommitted) names
  | inHand isStored => exact inHand isStored
  | unfinished entry present isIn => exact .unfinished entry (calls.trans present) isIn
  | lost isLost => exact .lost (lost toolCallId isLost)
  | reached bound =>
      apply Accounted.reached
      rw [attempts, entry, calls]
      exact bound

namespace Holds

variable {turnId : Nat}

/-! ### Events -/

theorem entry_counted (holds : view.Holds chatOf storable turnId)
    (isOpen : view.work.closes = false) :
    view.entry.records = view.ledger.attempts ∧ view.entry.openCalls.Nodup := by
  unfold entry
  cases present : view.calls with
  | none => exact ⟨(holds.uncounted present isOpen).symm, List.nodup_nil⟩
  | some calls => exact holds.counted calls present

/-- The Turn has nothing in hand between two events. -/
theorem of_idle {work : Work} (idle : work = .idle) :
    work.inserts = [] ∧ work.batch = [] ∧ work.isStoring = false ∧ work.closes = false := by
  rw [idle]
  exact ⟨rfl, rfl, rfl, rfl⟩

theorem toolCallStarted (holds : view.Holds chatOf storable turnId) (idle : view.work = .idle)
    (toolCallId : String) :
    (view.handle chatOf storable turnId (.toolCallStarted toolCallId)).Holds
      chatOf storable turnId := by
  obtain ⟨_, batch, _, isOpen⟩ := of_idle idle
  obtain ⟨records, nodup⟩ := holds.entry_counted isOpen
  have longer : view.entry.openCalls.length ≤
      (startCall view.entry toolCallId).openCalls.length := by
    rcases startCall_openCalls view.entry toolCallId with ⟨same, _⟩ | ⟨grown, _⟩
    · rw [same]
    · rw [grown, List.length_append]
      exact Nat.le_add_right _ _
  constructor
  · intro calls present
    cases present
    exact ⟨(startCall_records _ _).trans records, startCall_nodup nodup toolCallId⟩
  · exact fun absent => nomatch absent
  · intro closes
    exact nomatch isOpen.symm.trans closes
  · exact holds.bounded
  · exact holds.records
  · intro other isStarted
    rcases List.mem_append.mp isStarted with before | new
    · cases holds.started other before with
      | recorded row isCommitted names => exact .recorded row isCommitted names
      | inHand isStored => exact .inHand isStored
      | unfinished calls present isIn =>
          have entry : view.entry = calls := by rw [entry, present, Option.getD_some]
          rcases startCall_openCalls view.entry toolCallId with ⟨same, _⟩ | ⟨grown, _⟩
          · exact .unfinished _ rfl (same ▸ entry ▸ isIn)
          · exact .unfinished _ rfl (grown ▸ List.mem_append_left _ (entry ▸ isIn))
      | lost isLost => exact .lost isLost
      | reached bound => exact .reached (Nat.le_trans bound (Nat.add_le_add_left longer _))
    · rw [List.mem_singleton.mp new]
      rcases startCall_openCalls view.entry toolCallId with ⟨same, isIn | full⟩ | ⟨grown, _⟩
      · exact .unfinished _ rfl (same ▸ isIn)
      · exact .reached (Nat.le_trans (Nat.le_trans full longer) (Nat.le_add_left _ _))
      · exact .unfinished _ rfl (grown ▸ List.mem_append_right _ (List.mem_singleton.mpr rfl))
  · exact holds.batch
  · exact holds.quiet
  · exact holds.inserting
  · exact holds.ofTurn

/-- At the bound every call is accounted for. -/
theorem toolCallEnded_refused (holds : view.Holds chatOf storable turnId)
    (idle : view.work = .idle) {toolCallId : String}
    (refuses : admitRecord (endCall view.entry toolCallId) = none) :
    ({ view with calls := some (endCall view.entry toolCallId) } : TurnView).Holds
      chatOf storable turnId := by
  obtain ⟨_, _, _, isOpen⟩ := of_idle idle
  obtain ⟨records, nodup⟩ := holds.entry_counted isOpen
  have full : MAX_TOOL_CALL_RECORDS_PER_TURN ≤ (endCall view.entry toolCallId).records :=
    admitRecord_none refuses
  change _ ≤ view.entry.records at full
  rw [records] at full
  constructor
  · intro calls present
    cases present
    exact ⟨records, endCall_nodup nodup toolCallId⟩
  · exact fun absent => nomatch absent
  · intro closes
    exact nomatch isOpen.symm.trans closes
  · exact holds.bounded
  · exact holds.records
  · intro other _
    exact .reached (Nat.le_trans full (Nat.le_add_right _ _))
  · exact holds.batch
  · exact holds.quiet
  · exact holds.inserting
  · exact holds.ofTurn

theorem toolCallEnded_admitted (holds : view.Holds chatOf storable turnId)
    (idle : view.work = .idle) {toolCallId : String} {counted : TurnToolCalls}
    (admits : admitRecord (endCall view.entry toolCallId) = some counted)
    (outcome : ToolCallOutcome) :
    ({ view with
      calls := some counted
      work := storeRecords [toolCallInsert chatOf storable turnId toolCallId outcome]
        [toolCallId] false
      ledger := { view.ledger with attempts := counted.records } } : TurnView).Holds
      chatOf storable turnId := by
  obtain ⟨noInserts, noBatch, notStoring, isOpen⟩ := of_idle idle
  obtain ⟨records, nodup⟩ := holds.entry_counted isOpen
  obtain ⟨fits, isCounted⟩ := admitRecord_some admits
  have attempts : counted.records = view.ledger.attempts + 1 := by
    rw [isCounted]
    exact congrArg (· + 1) records
  have openCalls : counted.openCalls = (endCall view.entry toolCallId).openCalls := by
    rw [isCounted]
  have shorter := length_endCall nodup toolCallId
  constructor
  · intro calls present
    cases present
    refine ⟨rfl, ?_⟩
    rw [openCalls]
    exact endCall_nodup nodup toolCallId
  · exact fun absent => nomatch absent
  · exact fun closes => nomatch closes
  · change counted.records ≤ _
    rw [attempts, ← records]
    exact fits
  · change view.rows.countP (isRecordOf turnId) + 1 ≤ counted.records
    rw [attempts]
    exact Nat.succ_le_succ (Nat.le_trans (Nat.le_add_right _ _) holds.records)
  · intro other isStarted
    cases holds.started other isStarted with
    | recorded row isCommitted names => exact .recorded row isCommitted names
    | inHand isStored =>
        rw [noBatch] at isStored
        cases isStored
    | unfinished calls present isIn =>
        have entry : view.entry = calls := by rw [entry, present, Option.getD_some]
        by_cases same : other = toolCallId
        · exact .inHand (List.mem_singleton.mpr same)
        · exact .unfinished counted rfl (openCalls ▸ mem_endCall (entry ▸ isIn) same)
    | lost isLost => exact .lost isLost
    | reached bound =>
        apply Accounted.reached
        change _ ≤ counted.records + counted.openCalls.length
        rw [attempts, openCalls]
        omega
  · intro other isStored
    right
    rw [List.mem_singleton.mp isStored]
    exact ⟨outcome, List.mem_cons_self⟩
  · exact fun storing => nomatch storing
  · intro insert inserting
    rw [(holds.quiet notStoring).2] at inserting
    cases inserting
  · intro insert isIn
    exact .inl ⟨toolCallId, outcome, List.mem_singleton.mp isIn⟩

theorem toolCallEnded (holds : view.Holds chatOf storable turnId) (idle : view.work = .idle)
    (toolCallId : String) (isError : Bool) :
    (view.handle chatOf storable turnId (.toolCallEnded toolCallId isError)).Holds
      chatOf storable turnId := by
  simp only [handle]
  cases admits : admitRecord (endCall view.entry toolCallId) with
  | none => exact holds.toolCallEnded_refused idle admits
  | some counted => exact holds.toolCallEnded_admitted idle admits _

theorem message (holds : view.Holds chatOf storable turnId) (idle : view.work = .idle)
    (role : ChatMessageRole) (toolCallId : Option String) :
    (view.handle chatOf storable turnId (.message role toolCallId)).Holds
      chatOf storable turnId := by
  obtain ⟨noInserts, noBatch, notStoring, isOpen⟩ := of_idle idle
  constructor
  · exact holds.counted
  · exact fun absent _ => holds.uncounted absent isOpen
  · exact fun closes => nomatch closes
  · exact holds.bounded
  · exact Nat.le_trans (Nat.le_add_right _ _) holds.records
  · intro other isStarted
    refine (holds.started other isStarted).carried (fun _ isIn => isIn) ?_ rfl
      (fun _ isIn => isIn) rfl
    intro isStored
    rw [noBatch] at isStored
    cases isStored
  · exact fun _ isStored => nomatch isStored
  · exact fun storing => nomatch storing
  · intro insert inserting
    change view.inserting = some insert at inserting
    rw [(holds.quiet notStoring).2] at inserting
    cases inserting
  · intro insert isIn
    exact .inr ⟨_, List.mem_singleton.mp isIn⟩

theorem turnEnded_untracked (holds : view.Holds chatOf storable turnId)
    (idle : view.work = .idle) (absent : view.calls = none) :
    ({ view with work := .ending } : TurnView).Holds chatOf storable turnId := by
  obtain ⟨noInserts, noBatch, notStoring, isOpen⟩ := of_idle idle
  have records := holds.records
  rw [noInserts] at records
  constructor
  · exact holds.counted
  · exact fun _ closes => nomatch closes
  · exact fun _ => absent
  · exact holds.bounded
  · exact records
  · intro other isStarted
    refine (holds.started other isStarted).carried (fun _ isIn => isIn) ?_ rfl
      (fun _ isIn => isIn) rfl
    intro isStored
    rw [noBatch] at isStored
    cases isStored
  · exact fun _ isStored => nomatch isStored
  · exact fun _ => holds.quiet notStoring
  · intro insert inserting
    change view.inserting = some insert at inserting
    rw [(holds.quiet notStoring).2] at inserting
    cases inserting
  · exact fun _ isIn => nomatch isIn

/-- The calls still open are in hand, or the bound is reached. -/
theorem turnEnded_tracked (holds : view.Holds chatOf storable turnId) (idle : view.work = .idle)
    {calls : TurnToolCalls} (present : view.calls = some calls) :
    ({ view with
      calls := none
      work := storeRecords
        ((admitOpen calls calls.openCalls).2.map fun toolCallId =>
          toolCallInsert chatOf storable turnId toolCallId .not_finished)
        (admitOpen calls calls.openCalls).2 true
      ledger := { view.ledger with attempts := (admitOpen calls calls.openCalls).1.records } } :
      TurnView).Holds chatOf storable turnId := by
  obtain ⟨noInserts, noBatch, notStoring, isOpen⟩ := of_idle idle
  obtain ⟨records, nodup⟩ := holds.counted calls present
  have entry : view.entry = calls := by rw [TurnView.entry, present, Option.getD_some]
  have most : calls.records ≤ MAX_TOOL_CALL_RECORDS_PER_TURN := records ▸ holds.bounded
  obtain ⟨count, bounded, all⟩ := admitOpen_spec calls.openCalls calls most
  obtain ⟨inserts, batch, closes⟩ := storeRecords_map
    (fun toolCallId => toolCallInsert chatOf storable turnId toolCallId .not_finished)
    (admitOpen calls calls.openCalls).2 true
  generalize admitOpen calls calls.openCalls = admitted at *
  constructor
  · exact fun _ isSome => nomatch isSome
  · intro _ still
    exact nomatch closes.symm.trans still
  · exact fun _ => rfl
  · exact bounded
  · change view.rows.countP (isRecordOf turnId) + List.countP Insert.isRecord (Work.inserts _) ≤
      admitted.1.records
    rw [inserts, count, records]
    have before := Nat.le_trans (Nat.le_add_right _ _) holds.records
    have written := @List.countP_le_length _ Insert.isRecord (admitted.2.map fun toolCallId =>
      toolCallInsert chatOf storable turnId toolCallId .not_finished)
    rw [List.length_map] at written
    exact Nat.add_le_add before written
  · intro other isStarted
    have inHandOr : other ∈ calls.openCalls →
        other ∈ admitted.2 ∨ MAX_TOOL_CALL_RECORDS_PER_TURN ≤ admitted.1.records := by
      intro isIn
      rcases all with same | bound
      · exact .inl (same.symm ▸ isIn)
      · exact .inr bound
    have full : MAX_TOOL_CALL_RECORDS_PER_TURN ≤ admitted.1.records →
        ({ view with
          calls := none
          work := storeRecords (admitted.2.map fun toolCallId =>
            toolCallInsert chatOf storable turnId toolCallId .not_finished) admitted.2 true
          ledger := { view.ledger with attempts := admitted.1.records } } : TurnView).Accounted
          chatOf storable turnId other :=
      fun bound => .reached (Nat.le_trans bound (Nat.le_add_right _ _))
    cases holds.started other isStarted with
    | recorded row isCommitted names => exact .recorded row isCommitted names
    | inHand isStored =>
        rw [noBatch] at isStored
        cases isStored
    | unfinished others isEntry isIn =>
        rw [present] at isEntry
        cases isEntry
        rcases inHandOr isIn with isAdmitted | bound
        · exact .inHand (batch.symm ▸ isAdmitted)
        · exact full bound
    | lost isLost => exact .lost isLost
    | reached bound =>
        apply full
        rw [entry] at bound
        rcases all with same | bound
        · rw [count, same, records]
          exact bound
        · exact bound
  · intro other isStored
    right
    refine ⟨.not_finished, ?_⟩
    rw [inserts]
    exact List.mem_map_of_mem (batch ▸ isStored)
  · exact fun _ => holds.quiet notStoring
  · intro insert inserting
    change view.inserting = some insert at inserting
    rw [(holds.quiet notStoring).2] at inserting
    cases inserting
  · intro insert isIn
    left
    change insert ∈ Work.inserts _ at isIn
    rw [inserts] at isIn
    obtain ⟨toolCallId, _, same⟩ := List.mem_map.mp isIn
    exact ⟨toolCallId, .not_finished, same.symm⟩

theorem handle (holds : view.Holds chatOf storable turnId) (idle : view.work = .idle)
    (event : AgentRuntimeEvent) :
    (view.handle chatOf storable turnId event).Holds chatOf storable turnId := by
  cases event with
  | textDelta => exact holds
  | toolCallStarted toolCallId => exact holds.toolCallStarted idle toolCallId
  | toolCallEnded toolCallId isError => exact holds.toolCallEnded idle toolCallId isError
  | message role toolCallId => exact holds.message idle role toolCallId
  | turnEnded =>
      simp only [TurnView.handle]
      split
      next absent => exact holds.turnEnded_untracked idle absent
      next calls present => exact holds.turnEnded_tracked idle present

end Holds
end
end TurnView

end NextTime.Chat
