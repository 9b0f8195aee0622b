import NextTime.Chat.Transcript

/-
The chat event sink: what it holds of each Turn's tool calls, and the transactions in which it
stores them. The events of a Turn are handled one after another, those of different Turns and the
transactions of everybody else in any order. Live text, log lines and pushes are left out.
-/

namespace NextTime.Chat

def MAX_TOOL_CALL_RECORDS_PER_TURN : Nat := 200

def MAX_TRACKED_TURNS : Nat := 1000

/-- The calls that are open, in the order they started, and the records written or attempted. -/
structure TurnToolCalls where
  openCalls : List String
  records : Nat

/-- A `Map` in the order of its entries. -/
abbrev ToolCallsByTurn := List (Nat × TurnToolCalls)

def deleteTurn (byTurn : ToolCallsByTurn) (turnId : Nat) : ToolCallsByTurn :=
  byTurn.filter fun entry => entry.1 ≠ turnId

/-- The Turn's entry moves to the back; a new one makes the idlest Turn be forgotten over the
bound. -/
def turnEntry (byTurn : ToolCallsByTurn) (turnId : Nat) : TurnToolCalls × ToolCallsByTurn :=
  match byTurn.lookup turnId with
  | some entry => (entry, deleteTurn byTurn turnId)
  | none => (⟨[], 0⟩, if MAX_TRACKED_TURNS ≤ byTurn.length then byTurn.tail else byTurn)

/-- The entry as it was changed, at the back. -/
def setTurn (byTurn : ToolCallsByTurn) (turnId : Nat) (calls : TurnToolCalls) : ToolCallsByTurn :=
  byTurn ++ [(turnId, calls)]

/-- One more record, where it fits the Turn's bound. -/
def admitRecord (calls : TurnToolCalls) : Option TurnToolCalls :=
  if calls.records < MAX_TOOL_CALL_RECORDS_PER_TURN then
    some { calls with records := calls.records + 1 }
  else none

/-- The calls still open that are admitted, up to the first that is not. -/
def admitOpen (calls : TurnToolCalls) : List String → TurnToolCalls × List String
  | [] => (calls, [])
  | toolCallId :: toolCallIds =>
      match admitRecord calls with
      | none => (calls, [])
      | some counted =>
          let admitted := admitOpen counted toolCallIds
          (admitted.1, toolCallId :: admitted.2)

def startCall (calls : TurnToolCalls) (toolCallId : String) : TurnToolCalls :=
  if calls.openCalls.length < MAX_TOOL_CALL_RECORDS_PER_TURN then
    if toolCallId ∈ calls.openCalls then calls
    else { calls with openCalls := calls.openCalls ++ [toolCallId] }
  else calls

def endCall (calls : TurnToolCalls) (toolCallId : String) : TurnToolCalls :=
  { calls with openCalls := calls.openCalls.filter fun other => other ≠ toolCallId }

inductive AgentRuntimeEvent
  | textDelta
  | toolCallStarted (toolCallId : String)
  | toolCallEnded (toolCallId : String) (isError : Bool)
  | message (role : ChatMessageRole) (toolCallId : Option String)
  | turnEnded

/-- What is left of the event in hand: the inserts of a transaction for the tool calls of a batch,
before the Turn's end or not; the Turn's end; or nothing more of the Turn. -/
inductive Work
  | idle
  | storing (inserts : List Insert) (batch : List String) (ends : Bool)
  | ending
  | ended

/-- After the transaction, whether it was committed or not. -/
def Work.after (ends : Bool) : Work := if ends then .ending else .idle

/-- `storeToolCallRecords`; without records there is no transaction. -/
def storeRecords (inserts : List Insert) (batch : List String) (ends : Bool) : Work :=
  match inserts with
  | [] => .after ends
  | _ => .storing inserts batch ends

inductive Connection
  | turn (turnId : Nat)
  | other (index : Nat)
deriving DecidableEq

/-- The calls a Turn started, the records written or attempted for it, and the calls whose write
failed. Nothing reads it. -/
structure Ledger where
  started : List String
  attempts : Nat
  lost : List String

structure Sink where
  chats : Chats Connection
  toolCallsByTurn : ToolCallsByTurn
  work : Nat → Work
  /-- The Turns that had an event, and no end yet. -/
  active : List Nat
  turnEnds : List Nat
  ledger : Nat → Ledger

inductive SinkStep
  | event (turnId : Nat) (event : AgentRuntimeEvent)
  | lock (turnId : Nat)
  | insert (turnId : Nat)
  | commit (turnId : Nat)
  | fail (turnId : Nat)
  | endTurn (turnId : Nat)
  | endFails (turnId : Nat)
  | other (step : ChatStep Connection)

section
-- the chat of a Turn, and a text as `storableValue` stores it
variable (chatOf : Nat → Nat) (storable : String → String)

def toolCallInsert (turnId : Nat) (toolCallId : String) (outcome : ToolCallOutcome) : Insert :=
  .toolCall ⟨chatOf turnId, turnId, storable toolCallId, outcome⟩

/-- The part of `handle` before its first `await`. -/
def handle (sink : Sink) (turnId : Nat) : AgentRuntimeEvent → Sink
  | .textDelta => sink
  | .toolCallStarted toolCallId =>
      let entry := turnEntry sink.toolCallsByTurn turnId
      let ledger := sink.ledger turnId
      { sink with
        toolCallsByTurn := setTurn entry.2 turnId (startCall entry.1 toolCallId)
        ledger := Function.update sink.ledger turnId
          { ledger with started := ledger.started ++ [toolCallId] } }
  | .toolCallEnded toolCallId isError =>
      let entry := turnEntry sink.toolCallsByTurn turnId
      let calls := endCall entry.1 toolCallId
      match admitRecord calls with
      | none => { sink with toolCallsByTurn := setTurn entry.2 turnId calls }
      | some counted =>
          { sink with
            toolCallsByTurn := setTurn entry.2 turnId counted
            work := Function.update sink.work turnId
              (storeRecords
                [toolCallInsert chatOf storable turnId toolCallId (if isError then .failed else .done)]
                [toolCallId] false)
            ledger := Function.update sink.ledger turnId
              { sink.ledger turnId with attempts := counted.records } }
  | .message role toolCallId =>
      { sink with
        work := Function.update sink.work turnId
          (.storing [.message ⟨chatOf turnId, some turnId, role, toolCallId, none⟩] [] false) }
  | .turnEnded =>
      let byTurn := deleteTurn sink.toolCallsByTurn turnId
      let active := sink.active.filter fun other => other ≠ turnId
      match sink.toolCallsByTurn.lookup turnId with
      | none =>
          { sink with
            toolCallsByTurn := byTurn
            active := active
            work := Function.update sink.work turnId .ending }
      | some calls =>
          let admitted := admitOpen calls calls.openCalls
          { sink with
            toolCallsByTurn := byTurn
            active := active
            work := Function.update sink.work turnId
              (storeRecords
                (admitted.2.map fun toolCallId =>
                  toolCallInsert chatOf storable turnId toolCallId .not_finished)
                admitted.2 true)
            ledger := Function.update sink.ledger turnId
              { sink.ledger turnId with attempts := admitted.1.records } }

/-- The Turn has an event. -/
def activate (sink : Sink) (turnId : Nat) : Sink :=
  { sink with active := if turnId ∈ sink.active then sink.active else turnId :: sink.active }

/-- Everybody else inserts messages, and reads pages; the sink alone inserts records. -/
def ofOthers : ChatStep Connection → Bool
  | .lock (.other _) (.message _) | .insert (.other _) | .commit (.other _)
  | .rollback (.other _) | .page _ _ => true
  | _ => false

variable (hashtext : Nat → Int) (number : String → Option Rat)

def Sink.transact (sink : Sink) (step : ChatStep Connection) (work : Nat → Work) : Option Sink :=
  (chatStep hashtext number sink.chats step).map fun chats =>
    { sink with chats := chats, work := work }

def sinkStep (sink : Sink) : SinkStep → Option Sink
  | .event turnId event =>
      match sink.work turnId with
      | .idle => some (handle chatOf storable (activate sink turnId) turnId event)
      | _ => none
  | .lock turnId =>
      match sink.work turnId with
      | .storing (insert :: _) _ _ =>
          sink.transact hashtext number (.lock (.turn turnId) insert) sink.work
      | _ => none
  | .insert turnId =>
      match sink.work turnId with
      | .storing (_ :: inserts) batch ends =>
          sink.transact hashtext number (.insert (.turn turnId))
            (Function.update sink.work turnId (.storing inserts batch ends))
      | _ => none
  | .commit turnId =>
      match sink.work turnId with
      | .storing [] _ ends =>
          sink.transact hashtext number (.commit (.turn turnId))
            (Function.update sink.work turnId (.after ends))
      | _ => none
  | .fail turnId =>
      match sink.work turnId with
      | .storing _ batch ends =>
          (sink.transact hashtext number (.rollback (.turn turnId))
            (Function.update sink.work turnId (.after ends))).map fun failed =>
              { failed with
                ledger := Function.update failed.ledger turnId
                  { failed.ledger turnId with lost := (failed.ledger turnId).lost ++ batch } }
      | _ => none
  | .endTurn turnId =>
      match sink.work turnId with
      | .ending =>
          some { sink with
            work := Function.update sink.work turnId .ended
            turnEnds := sink.turnEnds ++ [turnId] }
      | _ => none
  | .endFails turnId =>
      match sink.work turnId with
      | .ending => some { sink with work := Function.update sink.work turnId .ended }
      | _ => none
  | .other step =>
      if ofOthers step then sink.transact hashtext number step sink.work else none

def SinkStart (sink : Sink) : Prop :=
  ChatsStart sink.chats ∧ sink.toolCallsByTurn = [] ∧ (∀ turnId, sink.work turnId = .idle) ∧
    sink.active = [] ∧ sink.turnEnds = [] ∧ ∀ turnId, sink.ledger turnId = ⟨[], 0, []⟩

def sinkSystem : LabelledRun.System Sink SinkStep where
  initial := SinkStart
  step := sinkStep chatOf storable hashtext number

end

end NextTime.Chat
