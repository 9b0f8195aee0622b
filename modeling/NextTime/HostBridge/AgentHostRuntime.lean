import NextTime.Library.LabelledRun
import Mathlib.Logic.Function.Basic

/-
The kernel's `AgentHostRuntime`, from one await to the next: the preparation of
a Turn, the accept wait and what follows it, and every frame, timeout and link
event in between. What is kept of a Turn in the runtime's maps is kept here by
Turn. Whether a Turn's preparation and its seal succeed is decided outside.
-/

namespace NextTime.HostBridge

inductive TurnStatus
  | completed
  | failed
  | interrupted
deriving DecidableEq, Repr

inductive RuntimeEvent
  | textDelta
  | toolCallStarted
  | toolCallEnded
  | message
  | turnEnded (status : TurnStatus)
deriving DecidableEq, Repr

def RuntimeEvent.ends : RuntimeEvent → Bool
  | .turnEnded _ => true
  | _ => false

/-- What the accept wait resolves to. -/
inductive AcceptOutcome
  | accepted
  | refused
  | timedOut
  | alreadyEnded
deriving DecidableEq, Repr

/-- What is seen of a Turn outside, in order. -/
inductive TurnHappening
  | handed (event : RuntimeEvent)
  | startSent
  | stopSent
  | stopAsked
deriving DecidableEq, Repr

structure Turn where
  /-- `startTurn` was called for it, and found it stopped before. -/
  called : Bool
  skipped : Bool
  /-- In `activeTurns`, with its two flags. -/
  tracked : Bool
  stopRequested : Bool
  sent : Bool
  /-- Its `startTurn` waits for a part of the preparation. -/
  preparing : Bool
  /-- In `pendingAccepts`. -/
  pending : Bool
  /-- The accept wait is resolved, and what follows it has not run. -/
  wait : Option AcceptOutcome
  /-- Its events on their way to the sink. -/
  sinkChain : List RuntimeEvent
  log : List TurnHappening
deriving DecidableEq, Repr

namespace Turn

def unknown : Turn where
  called := false
  skipped := false
  tracked := false
  stopRequested := false
  sent := false
  preparing := false
  pending := false
  wait := none
  sinkChain := []
  log := []

def sinkInOrder (turn : Turn) (event : RuntimeEvent) : Turn :=
  { turn with sinkChain := turn.sinkChain ++ [event] }

/-- Untracked, and its end reported. -/
def endWith (turn : Turn) (status : TurnStatus) : Turn :=
  { turn with tracked := false }.sinkInOrder (.turnEnded status)

def statusOfFailure (turn : Turn) : TurnStatus :=
  if turn.stopRequested then .interrupted else .failed

def sendStopFrame (turn : Turn) (connected : Bool) : Turn :=
  if connected then { turn with log := turn.log ++ [TurnHappening.stopSent] } else turn

/-- `startTurn`, up to its first await. -/
def start (turn : Turn) (stoppedBefore connected : Bool) : Turn :=
  let turn := { turn with called := true }
  if stoppedBefore then { turn with skipped := true }
  else if connected then
    { turn with tracked := true, stopRequested := false, sent := false, preparing := true }
  else turn.endWith .failed

/-- The preparation failed, or the seal withheld the start. -/
def prepareFails (turn : Turn) : Turn :=
  { turn with preparing := false }.endWith turn.statusOfFailure

/-- The rest of `launchTurn`, once the seal has let it through. -/
def launch (turn : Turn) (connected sendFails : Bool) : Turn :=
  let turn := { turn with preparing := false }
  if turn.stopRequested then turn.endWith .interrupted
  else if !connected || sendFails then turn.endWith .failed
  else { turn with pending := true, sent := true, log := turn.log ++ [TurnHappening.startSent] }

def resolvePendingAccept (turn : Turn) (outcome : AcceptOutcome) : Turn :=
  if turn.pending then { turn with pending := false, wait := some outcome } else turn

/-- What `launchTurn` does when the accept wait is over. -/
def continueAccept (turn : Turn) (outcome : AcceptOutcome) (connected : Bool) : Turn :=
  let turn := { turn with wait := none }
  match outcome with
  | .accepted => turn
  | .alreadyEnded => { turn with tracked := false }
  | .refused => turn.endWith turn.statusOfFailure
  | .timedOut => (turn.sendStopFrame connected).endWith turn.statusOfFailure

def stop (turn : Turn) (connected : Bool) : Turn :=
  let turn := { turn with log := turn.log ++ [TurnHappening.stopAsked] }
  if turn.tracked then
    let turn := { turn with stopRequested := true }
    if turn.sent then turn.sendStopFrame connected else turn
  else turn

def handleTurnUnknown (turn : Turn) : Turn :=
  if turn.tracked && turn.sent then
    ({ turn with tracked := false }.resolvePendingAccept .alreadyEnded).sinkInOrder
      (.turnEnded .interrupted)
  else turn

def handleRuntimeEvent (turn : Turn) (event : RuntimeEvent) : Turn :=
  if turn.tracked then
    if event.ends then
      ({ turn with tracked := false }.resolvePendingAccept .alreadyEnded).sinkInOrder event
    else turn.sinkInOrder event
  else turn

/-- A stop sent again after the same process reconnected. -/
def repeatStop (turn : Turn) (connected : Bool) : Turn :=
  if turn.tracked && turn.stopRequested && turn.sent then turn.sendStopFrame connected else turn

/-- `abandonAllActiveTurns`, for one Turn: its pending accept fails, or it ends. -/
def abandon (turn : Turn) : Turn :=
  if turn.pending then { turn with pending := false, wait := some .refused }
  else if turn.tracked then turn.endWith .interrupted
  else turn

end Turn

inductive HostFrame
  | hello (instanceId : Nat)
  | turnAccepted (turnId : Nat)
  | turnRejected (turnId : Nat)
  | turnUnknown (turnId : Nat)
  | runtimeEvent (turnId : Nat) (event : RuntimeEvent)
deriving DecidableEq, Repr

structure AgentHostRuntime where
  link : Option Nat
  lastHelloInstanceId : Option Nat
  lastSeq : Nat
  stoppedBeforeStart : List Nat
  turns : Nat → Turn

inductive RuntimeLabel
  | connects (link : Nat)
  | disconnects (link : Nat)
  | startTurn (turnId : Nat)
  | prepares (turnId : Nat)
  | prepareFails (turnId : Nat)
  | launches (turnId : Nat) (sendFails : Bool)
  | acceptTimesOut (turnId : Nat)
  | continues (turnId : Nat)
  | stopTurn (turnId : Nat)
  | receives (seq : Option Nat) (frame : HostFrame)
  | sinks (turnId : Nat)
deriving DecidableEq, Repr

namespace AgentHostRuntime

def STOPPED_BEFORE_START_LIMIT : Nat := 256

variable (runtime : AgentHostRuntime)

def connected : Bool := runtime.link.isSome

def update (turnId : Nat) (turn : Turn) : AgentHostRuntime :=
  { runtime with turns := Function.update runtime.turns turnId turn }

def everyTurn (change : Turn → Turn) : AgentHostRuntime :=
  { runtime with turns := fun turnId => change (runtime.turns turnId) }

/-- A set in insertion order; the oldest goes when it is full. -/
def rememberStoppedBeforeStart (turnId : Nat) : AgentHostRuntime :=
  let remembered :=
    if runtime.stoppedBeforeStart.contains turnId then runtime.stoppedBeforeStart
    else runtime.stoppedBeforeStart ++ [turnId]
  { runtime with
    stoppedBeforeStart :=
      if STOPPED_BEFORE_START_LIMIT < remembered.length then remembered.tail else remembered }

def stopTurn (turnId : Nat) : AgentHostRuntime :=
  let stopped := runtime.update turnId ((runtime.turns turnId).stop runtime.connected)
  if (runtime.turns turnId).tracked then stopped else stopped.rememberStoppedBeforeStart turnId

/-- Another process than the one last heard of. -/
def restarted (instanceId : Nat) : Bool :=
  runtime.lastHelloInstanceId.any fun last => decide (last ≠ instanceId)

def handleHello (instanceId : Nat) : AgentHostRuntime :=
  let known :=
    { runtime with
      lastSeq := if runtime.lastHelloInstanceId = some instanceId then runtime.lastSeq else 0
      lastHelloInstanceId := some instanceId }
  if runtime.restarted instanceId then known.everyTurn Turn.abandon
  else known.everyTurn fun turn => turn.repeatStop runtime.connected

def handle : HostFrame → AgentHostRuntime
  | .hello instanceId => runtime.handleHello instanceId
  | .turnAccepted turnId =>
      runtime.update turnId ((runtime.turns turnId).resolvePendingAccept .accepted)
  | .turnRejected turnId =>
      runtime.update turnId ((runtime.turns turnId).resolvePendingAccept .refused)
  | .turnUnknown turnId => runtime.update turnId (runtime.turns turnId).handleTurnUnknown
  | .runtimeEvent turnId event =>
      runtime.update turnId ((runtime.turns turnId).handleRuntimeEvent event)

def duplicate (seq : Option Nat) : HostFrame → Bool
  | .hello _ => false
  | _ => seq.any fun number => decide (number ≤ runtime.lastSeq)

def handleFrame (seq : Option Nat) (frame : HostFrame) : AgentHostRuntime :=
  if runtime.duplicate seq frame then runtime
  else
    match seq, frame with
    | _, .hello instanceId => runtime.handle (.hello instanceId)
    | some number, frame => { runtime with lastSeq := number }.handle frame
    | none, frame => runtime.handle frame

def step : RuntimeLabel → Option AgentHostRuntime
  | .connects link =>
      match runtime.link with
      | none => some { runtime with link := some link }
      | some _ => some runtime
  | .disconnects link =>
      some (if runtime.link = some link then { runtime with link := none } else runtime)
  | .startTurn turnId =>
      if (runtime.turns turnId).called then none
      else
        let stoppedBefore := runtime.stoppedBeforeStart.contains turnId
        some
          { runtime.update turnId
              ((runtime.turns turnId).start stoppedBefore runtime.connected) with
            stoppedBeforeStart :=
              runtime.stoppedBeforeStart.filter fun other => decide (other ≠ turnId) }
  | .prepares turnId => if (runtime.turns turnId).preparing then some runtime else none
  | .prepareFails turnId =>
      if (runtime.turns turnId).preparing then
        some (runtime.update turnId (runtime.turns turnId).prepareFails)
      else none
  | .launches turnId sendFails =>
      if (runtime.turns turnId).preparing then
        some (runtime.update turnId
          ((runtime.turns turnId).launch runtime.connected sendFails))
      else none
  | .acceptTimesOut turnId =>
      if (runtime.turns turnId).pending then
        some (runtime.update turnId ((runtime.turns turnId).resolvePendingAccept .timedOut))
      else none
  | .continues turnId =>
      (runtime.turns turnId).wait.map fun outcome =>
        runtime.update turnId ((runtime.turns turnId).continueAccept outcome runtime.connected)
  | .stopTurn turnId => some (runtime.stopTurn turnId)
  | .receives seq frame => some (runtime.handleFrame seq frame)
  | .sinks turnId =>
      match (runtime.turns turnId).sinkChain with
      | [] => none
      | event :: later =>
          some (runtime.update turnId
            { runtime.turns turnId with
              sinkChain := later
              log := (runtime.turns turnId).log ++ [TurnHappening.handed event] })

def initial : AgentHostRuntime where
  link := none
  lastHelloInstanceId := none
  lastSeq := 0
  stoppedBeforeStart := []
  turns := fun _ => .unknown

def system : LabelledRun.System AgentHostRuntime RuntimeLabel where
  initial runtime := runtime = initial
  step := step

end AgentHostRuntime
end NextTime.HostBridge
