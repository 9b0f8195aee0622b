import NextTime.Chat.ToolCallRecords
import NextTime.Chat.TranscriptKept

/-
Chats for those who read them: a transcript grows behind what is visible of it, its readers are
given all of it in order, and a Turn's calls are recorded before the Turn's end is.
-/

namespace NextTime.Chat

open NumberedLog (Entry Logs ofKey)

/-! ### Later rows -/

section
variable {Thread : Type} [DecidableEq Thread] [Inhabited Thread] {hashtext : Nat → Int}
  {number : String → Option Rat} {chats later : Chats Thread}

/-- What becomes visible of a transcript stands behind all of it that was. -/
theorem transcript_grows (reads : ReadsSafe number)
    (kept : Kept hashtext chats) {steps : List (ChatStep Thread)}
    (ran : (chatSystem hashtext number).run chats steps = some later) (chatId : Nat) :
    ∃ rows, transcript later.messages.committed chatId =
        transcript chats.messages.committed chatId ++ rows ∧
      ∀ visible ∈ transcript chats.messages.committed chatId, ∀ row ∈ rows,
        visible.sequence < row.sequence := by
  obtain ⟨appended, committed⟩ := committed_run ran
  refine ⟨ofKey chatId appended, ?_, ?_⟩
  · rw [← committed, transcript, Logs.ofKey_append]
    rfl
  · intro visible isVisible row isLater
    have sorted := (kept_run reads kept ran).sorted chatId
    rw [← committed, transcript, Logs.ofKey_append] at sorted
    exact ((List.pairwise_append.mp sorted).2.2 visible isVisible row isLater).below

end

/-! ### The sink among the chats -/

section
variable {chatOf : Nat → Nat} {storable : String → String} {hashtext : Nat → Int}
  {number : String → Option Rat} {sink next : Sink}

/-- A step of the sink is at most one statement on the chats. -/
theorem chats_step {step : SinkStep}
    (moved : sinkStep chatOf storable hashtext number sink step = some next) :
    next.chats = sink.chats ∨
      ∃ statement, chatStep hashtext number sink.chats statement = some next.chats := by
  have transacted : ∀ {statement : ChatStep Connection} {work : Nat → Work} {after : Sink},
      sink.transact hashtext number statement work = some after →
        ∃ statement, chatStep hashtext number sink.chats statement = some after.chats := by
    intro statement work after transacts
    obtain ⟨chats, executes, same⟩ := transact_some transacts
    exact ⟨statement, same ▸ executes⟩
  cases step with
  | event turnId event =>
      simp only [sinkStep] at moved
      split at moved
      next =>
        cases moved
        left
        cases event with
        | toolCallEnded toolCallId isError =>
            simp only [handle]
            split
            · rfl
            · rfl
        | turnEnded =>
            simp only [handle]
            split
            · rfl
            · rfl
        | textDelta | toolCallStarted | message => rfl
      next => cases moved
  | lock turnId =>
      simp only [sinkStep] at moved
      split at moved
      next => exact .inr (transacted moved)
      next => cases moved
  | insert turnId =>
      simp only [sinkStep] at moved
      split at moved
      next => exact .inr (transacted moved)
      next => cases moved
  | commit turnId =>
      simp only [sinkStep] at moved
      split at moved
      next => exact .inr (transacted moved)
      next => cases moved
  | fail turnId =>
      simp only [sinkStep] at moved
      split at moved
      next =>
        obtain ⟨failed, transacts, same⟩ := Option.map_eq_some_iff.mp moved
        subst same
        obtain ⟨statement, executes⟩ := transacted transacts
        exact .inr ⟨statement, executes⟩
      next => cases moved
  | endTurn turnId =>
      simp only [sinkStep] at moved
      split at moved
      next =>
        cases moved
        exact .inl rfl
      next => cases moved
  | endFails turnId =>
      simp only [sinkStep] at moved
      split at moved
      next =>
        cases moved
        exact .inl rfl
      next => cases moved
  | other step =>
      simp only [sinkStep] at moved
      split at moved
      next => exact .inr (transacted moved)
      next => cases moved

/-- The sink's transactions and those of others are a run of the chats. -/
theorem chats_run {steps : List SinkStep}
    (ran : (sinkSystem chatOf storable hashtext number).run sink steps = some next) :
    ∃ statements, (chatSystem hashtext number).run sink.chats statements = some next.chats := by
  induction steps generalizing sink with
  | nil =>
      cases ran
      exact ⟨[], rfl⟩
  | cons step steps ih =>
      obtain ⟨middle, moved, rest⟩ := (sinkSystem chatOf storable hashtext number).run_cons_some ran
      obtain ⟨statements, later⟩ := ih rest
      rcases chats_step moved with same | ⟨statement, executes⟩
      · exact ⟨statements, same ▸ later⟩
      · refine ⟨statement :: statements, ?_⟩
        rw [(chatSystem hashtext number).run_cons statements executes]
        exact later

theorem ending_of_endTurn {turnId : Nat}
    (moved : sinkStep chatOf storable hashtext number sink (.endTurn turnId) = some next) :
    sink.work turnId = .ending := by
  simp only [sinkStep] at moved
  split at moved
  next ending => exact ending
  next => cases moved

/-- A message of the tool that names the call, and is not its record. -/
def IsNamedByMessage (row : ChatMessageRow) (turnId : Nat) (toolCallId : String) : Prop :=
  row.body.turnId = some turnId ∧ row.body.role = .tool ∧
    row.body.content = .other (some toolCallId)

theorem record_or_message {turnId : Nat} {toolCallId : String} {row : ChatMessageRow}
    (names : TurnView.Names chatOf storable turnId toolCallId row) :
    IsRecord row turnId (storable toolCallId) ∨
      IsNamedByMessage row turnId (storable toolCallId) := by
  have toolCall := names.toolCall
  cases content : row.body.content with
  | toolCall recorded outcome =>
      rw [content] at toolCall
      cases toolCall
      exact .inl ⟨names.turn, names.role, outcome, content⟩
  | other named =>
      rw [content] at toolCall
      cases toolCall
      exact .inr ⟨names.turn, names.role, content⟩

end

/-! ### The transcript -/

/-- The calls of a Turn whose end is about to be committed have a row by then, unless the bound was
reached or the write failed. -/
def CallsAccounted (chatOf : Nat → Nat) (storable : String → String) (sink : Sink)
    (turnId : Nat) : Prop :=
  ∀ toolCallId ∈ (sink.ledger turnId).started,
    (∃ row ∈ transcript sink.chats.messages.committed (chatOf turnId),
        IsRecord row turnId (storable toolCallId) ∨
          IsNamedByMessage row turnId (storable toolCallId)) ∨
      (sink.ledger turnId).attempts = MAX_TOOL_CALL_RECORDS_PER_TURN ∨
      toolCallId ∈ (sink.ledger turnId).lost

theorem transcript_complete {Thread : Type} [DecidableEq Thread] [Inhabited Thread]
    (hashtext : Nat → Int) (number : String → Option Rat) (reads : ReadsSafe number)
    (chatOf : Nat → Nat) (storable : String → String) :
    (∀ (start chats : Chats Thread) (before : List (ChatStep Thread)), ChatsStart start →
      (chatSystem hashtext number).run start before = some chats →
        (∀ chatId, (transcript chats.messages.committed chatId).Pairwise Apart) ∧
        (∀ (after : List (ChatStep Thread)) (later : Chats Thread),
          (chatSystem hashtext number).run chats after = some later →
          ∀ chatId, ∃ rows, transcript later.messages.committed chatId =
              transcript chats.messages.committed chatId ++ rows ∧
            ∀ visible ∈ transcript chats.messages.committed chatId, ∀ row ∈ rows,
              visible.sequence < row.sequence) ∧
        (∀ index limit,
          let reader := chats.readers index
          SafeSequences chats.messages.committed reader.chatId →
            reader.seen <+: transcript chats.messages.committed reader.chatId ∧
              (reader.turn number chats.messages.committed limit).seen =
                (transcript chats.messages.committed reader.chatId).take
                  (reader.seen.length + limit.getD DEFAULT_CHAT_HISTORY_LIMIT))) ∧
      (∀ (start sink : Sink) (steps : List SinkStep), SinkStart start →
        (sinkSystem chatOf storable hashtext number).Allowed Tracked start steps →
        (sinkSystem chatOf storable hashtext number).run start steps = some sink →
          (∃ statements, (chatSystem hashtext number).run start.chats statements =
            some sink.chats) ∧
          (∀ turnId, sink.chats.messages.committed.countP (isRecordOf turnId) ≤
            MAX_TOOL_CALL_RECORDS_PER_TURN) ∧
          ∀ turnId ended,
            sinkStep chatOf storable hashtext number sink (.endTurn turnId) = some ended →
              CallsAccounted chatOf storable sink turnId) := by
  constructor
  · intro start chats before isStart ran
    have kept := kept_run reads (kept_start isStart) ran
    refine ⟨kept.sorted, fun after later continues => transcript_grows reads kept continues, ?_⟩
    intro index limit reader safe
    constructor
    · exact (kept.readers index safe).seen
    · exact seen_turn ((kept.sorted _).imp Apart.below) kept.positive_committed
        (kept.readers index safe) safe reads limit
  · intro start sink steps isStart tracked ran
    have holds : SinkHolds chatOf storable sink := sinkHolds_run isStart tracked ran
    refine ⟨chats_run ran, ?_, ?_⟩
    · intro turnId
      have records := (holds.turns turnId).records
      have bounded := (holds.turns turnId).bounded
      simp only [TurnView.rows, List.countP_append] at records
      change List.countP _ sink.chats.messages.committed + _ + _ ≤ _ at records
      omega
    · intro turnId ended moved toolCallId isStarted
      rcases (holds.turns turnId).settled (ending_of_endTurn moved) isStarted with
        ⟨row, isCommitted, names⟩ | others
      · left
        refine ⟨row, List.mem_filter.mpr ⟨isCommitted, decide_eq_true names.chat⟩, ?_⟩
        exact record_or_message names
      · exact .inr others

/-- `Number` of a text of decimal digits. -/
def decimalNumber (text : String) : Option Rat :=
  if text.toList.all Char.isDigit then some (Nat.ofDigitChars 10 text.toList 0 : Rat) else none

theorem decimalNumber_toString (sequence : Nat) :
    decimalNumber (toString sequence) = some (sequence : Rat) := by
  have digits : (toString sequence).toList = Nat.toDigits 10 sequence := Nat.toList_repr
  have all : (Nat.toDigits 10 sequence).all Char.isDigit = true := by
    rw [List.all_eq_true]
    intro digit isIn
    exact Nat.isDigit_of_mem_toDigits (by decide) (by decide) isIn
  rw [decimalNumber, digits, if_pos all, Nat.ofDigitChars_ten_toDigits]

theorem readsSafe_decimalNumber : ReadsSafe decimalNumber := fun sequence _ =>
  decimalNumber_toString sequence

/-- A reader among two inserts, and a call that is open when its Turn ends. -/
theorem transcript_complete_openCall :
    (let start : Chats Nat := ⟨.empty, fun _ => none, fun _ => ⟨1, none, []⟩⟩
      let message : Insert := .message ⟨1, none, .user, none, none⟩
      let steps : List (ChatStep Nat) :=
        [.lock 0 message, .insert 0, .commit 0, .lock 1 message, .insert 1, .commit 1,
          .page 0 (some 1)]
      ∃ chats, (chatSystem (fun _ => 0) decimalNumber).run start steps = some chats ∧
        (((chats.readers 0).turn decimalNumber chats.messages.committed none).seen.map
          fun row => row.sequence) = [1, 2]) ∧
    let start : Sink :=
      ⟨⟨.empty, fun _ => none, fun _ => ⟨1, none, []⟩⟩, [], fun _ => .idle, [], [],
        fun _ => ⟨[], 0, []⟩⟩
    ∃ sink, (sinkSystem (fun _ => 1) id (fun _ => 0) decimalNumber).run start
        [.event 7 (.toolCallStarted "call"), .event 7 .turnEnded, .lock 7, .insert 7, .commit 7] =
          some sink ∧
      (sink.ledger 7).started = ["call"] ∧ CallsAccounted (fun _ => 1) id sink 7 := by
  have complete := @transcript_complete Nat _ _ (fun _ => 0) decimalNumber
    readsSafe_decimalNumber (fun _ => 1) id
  constructor
  · intro start message steps
    have isStart : ChatsStart start := ⟨rfl, fun _ => rfl, fun _ => ⟨rfl, rfl⟩⟩
    refine ⟨_, rfl, ?_⟩
    rw [((complete.1 start _ steps isStart rfl).2.2 0 none ?_).2, List.take_of_length_le]
    · rfl
    · exact Nat.le_trans (Nat.le_of_ble_eq_true rfl) (Nat.le_add_left _ _)
    · exact @of_decide_eq_true _ (List.decidableBAll _ _) rfl
  · intro start
    have isStart : SinkStart start :=
      ⟨⟨rfl, fun _ => rfl, fun _ => ⟨rfl, rfl⟩⟩, rfl, fun _ => rfl, rfl, rfl, fun _ => rfl⟩
    have tracked : (sinkSystem (fun _ => 1) id (fun _ => 0) decimalNumber).Allowed Tracked start
        [.event 7 (.toolCallStarted "call"), .event 7 .turnEnded, .lock 7, .insert 7, .commit 7] :=
      ⟨Nat.le_of_ble_eq_true rfl, Nat.le_of_ble_eq_true rfl, trivial, trivial, trivial, trivial⟩
    exact ⟨_, rfl, rfl, (complete.2 start _ _ isStart tracked rfl).2.2 7 _ rfl⟩

/-- Messages of the tool are not compared with the rows of their Turn. -/
theorem insertChatMessage_namesTwice :
    let message : Insert := .message ⟨1, some 7, .tool, some "call", none⟩
    let start : Chats Nat := ⟨.empty, fun _ => none, fun _ => ⟨1, none, []⟩⟩
    ((chatSystem (fun _ => 0) decimalNumber).run start
        [.lock 0 message, .insert 0, .commit 0, .lock 1 message, .insert 1, .commit 1]).map
      (fun chats => (transcript chats.messages.committed 1).map fun row =>
        (row.sequence, row.body.turnId, row.body.role, row.body.content.toolCallId)) =
      some [(1, some 7, .tool, some "call"), (2, some 7, .tool, some "call")] := by
  rfl

end NextTime.Chat
