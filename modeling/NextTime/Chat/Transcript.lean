import NextTime.Library.LabelledRun
import NextTime.Library.NumberedLog
import Mathlib.Data.Rat.Defs

/-
A chat's messages as transactions insert them and as pages of its history read them, statement by
statement under READ COMMITTED. Any transaction may insert into any chat, several times.
-/

namespace NextTime.Chat

open NumberedLog (Entry Logs ofKey)

inductive ChatMessageRole
  | user
  | assistant
  | tool
  | system
deriving DecidableEq

inductive ToolCallOutcome
  | done
  | failed
  | not_finished
deriving DecidableEq

/-- A record of a tool call, or any other record with what its `toolCallId` reads. -/
inductive MessageContent
  | toolCall (toolCallId : String) (outcome : ToolCallOutcome)
  | other (toolCallId : Option String)
deriving DecidableEq

/-- `content->>'toolCallId'`. -/
def MessageContent.toolCallId : MessageContent → Option String
  | .toolCall toolCallId _ => some toolCallId
  | .other toolCallId => toolCallId

structure ChatMessage where
  turnId : Option Nat
  role : ChatMessageRole
  content : MessageContent
  sourceOutboxId : Option Nat
deriving DecidableEq

/-- A row with its chat and its sequence. -/
abbrev ChatMessageRow := Entry Nat ChatMessage

structure InsertChatMessageInput where
  chatId : Nat
  turnId : Option Nat
  role : ChatMessageRole
  toolCallId : Option String
  sourceOutboxId : Option Nat
deriving DecidableEq

structure InsertToolCallInput where
  chatId : Nat
  turnId : Nat
  toolCallId : String
  outcome : ToolCallOutcome
deriving DecidableEq

inductive Insert
  | message (input : InsertChatMessageInput)
  | toolCall (input : InsertToolCallInput)
deriving DecidableEq

def Insert.chatId : Insert → Nat
  | .message input => input.chatId
  | .toolCall input => input.chatId

section
variable {Thread : Type} [DecidableEq Thread]

/-- The rows of all chats, each chat behind the advisory lock of its id's hash. -/
abbrev ChatMessages (Thread : Type) := Logs Thread Int Nat ChatMessage

/-- The row under the partial unique index. -/
def rowOfOutbox (rows : List ChatMessageRow) (sourceOutboxId : Option Nat) :
    Option ChatMessageRow :=
  match sourceOutboxId with
  | none => none
  | some sourceOutboxId => rows.find? fun row => row.body.sourceOutboxId = some sourceOutboxId

/-- A redelivered row is read back; the insert does nothing. -/
def insertChatMessage (messages : ChatMessages Thread) (thread : Thread)
    (input : InsertChatMessageInput) : ChatMessages Thread × Option ChatMessageRow :=
  match rowOfOutbox (ofKey input.chatId (messages.view thread)) input.sourceOutboxId with
  | some existing => (messages, some existing)
  | none =>
      let inserted := messages.append thread input.chatId
        ⟨input.turnId, input.role, .other input.toolCallId, input.sourceOutboxId⟩
      (inserted, (inserted.pending thread).getLast?)

/-- A call that has a row on its Turn inserts none. -/
def insertToolCallMessage (messages : ChatMessages Thread) (thread : Thread)
    (input : InsertToolCallInput) : ChatMessages Thread × Option ChatMessageRow :=
  if (ofKey input.chatId (messages.view thread)).any fun row =>
      row.body.turnId = some input.turnId && row.body.role = .tool &&
        row.body.content.toolCallId = some input.toolCallId then
    (messages, none)
  else
    let inserted := messages.append thread input.chatId
      ⟨some input.turnId, .tool, .toolCall input.toolCallId input.outcome, none⟩
    (inserted, (inserted.pending thread).getLast?)

def runInsert (messages : ChatMessages Thread) (thread : Thread) :
    Insert → ChatMessages Thread × Option ChatMessageRow
  | .message input => insertChatMessage messages thread input
  | .toolCall input => insertToolCallMessage messages thread input

/-! ### Pages of the history -/

def DEFAULT_CHAT_HISTORY_LIMIT : Nat := 50

structure GetChatHistoryInput where
  chatId : Nat
  cursor : Option String
  limit : Option Nat

structure ChatHistoryPage where
  messages : List ChatMessageRow
  nextCursor : Option String

/-- `number` is `Number` of a text, where it is finite. -/
def parseCursor (number : String → Option Rat) (cursor : Option String) : Rat :=
  match cursor with
  | none => 0
  | some cursor =>
      if cursor = "" then 0
      else
        match number cursor with
        | some parsed => if 0 ≤ parsed then parsed else 0
        | none => 0

def getChatHistory (number : String → Option Rat) (rows : List ChatMessageRow)
    (input : GetChatHistoryInput) : ChatHistoryPage :=
  let cursor := parseCursor number input.cursor
  let limit := input.limit.getD DEFAULT_CHAT_HISTORY_LIMIT
  let after := (ofKey input.chatId rows).filter fun row => cursor < (row.sequence : Rat)
  let messages := (after.mergeSort fun one other => one.sequence ≤ other.sequence).take limit
  { messages := messages
    nextCursor :=
      if messages.length = limit then messages.getLast?.map fun last => toString last.sequence
      else none }

/-- A reader that follows its cursor, and what it has been given. -/
structure Reader where
  chatId : Nat
  cursor : Option String
  seen : List ChatMessageRow

/-- The last sequence seen is the next cursor. -/
def Reader.turn (number : String → Option Rat) (rows : List ChatMessageRow) (reader : Reader)
    (limit : Option Nat) : Reader :=
  let page := getChatHistory number rows ⟨reader.chatId, reader.cursor, limit⟩
  { reader with
    cursor :=
      match page.messages.getLast? with
      | some last => some (toString last.sequence)
      | none => reader.cursor
    seen := reader.seen ++ page.messages }

/-! ### Interleavings -/

/-- `inserting`: the lock is taken, and the transaction's next statement is this insert. -/
structure Chats (Thread : Type) where
  messages : ChatMessages Thread
  inserting : Thread → Option Insert
  readers : Nat → Reader

inductive ChatStep (Thread : Type)
  | lock (thread : Thread) (insert : Insert)
  | insert (thread : Thread)
  | commit (thread : Thread)
  | rollback (thread : Thread)
  | page (reader : Nat) (limit : Option Nat)

/-- `hashtext` of a chat's id. -/
def chatStep (hashtext : Nat → Int) (number : String → Option Rat) (chats : Chats Thread) :
    ChatStep Thread → Option (Chats Thread)
  | .lock thread insert =>
      match chats.inserting thread with
      | some _ => none
      | none =>
          (chats.messages.acquire thread (hashtext insert.chatId)).map fun messages =>
            { chats with
              messages := messages
              inserting := Function.update chats.inserting thread (some insert) }
  | .insert thread =>
      match chats.inserting thread with
      | none => none
      | some insert =>
          some { chats with
            messages := (runInsert chats.messages thread insert).1
            inserting := Function.update chats.inserting thread none }
  | .commit thread =>
      match chats.inserting thread with
      | some _ => none
      | none => some { chats with messages := chats.messages.commit thread }
  | .rollback thread =>
      some { chats with
        messages := chats.messages.rollback thread
        inserting := Function.update chats.inserting thread none }
  | .page reader limit =>
      some { chats with
        readers := Function.update chats.readers reader
          ((chats.readers reader).turn number chats.messages.committed limit) }

/-- No message yet, no transaction under way, and every reader at the beginning. -/
def ChatsStart (chats : Chats Thread) : Prop :=
  chats.messages = .empty ∧ (∀ thread, chats.inserting thread = none) ∧
    ∀ reader, (chats.readers reader).cursor = none ∧ (chats.readers reader).seen = []

def chatSystem (hashtext : Nat → Int) (number : String → Option Rat) :
    LabelledRun.System (Chats Thread) (ChatStep Thread) where
  initial := ChatsStart
  step := chatStep hashtext number

end

end NextTime.Chat
