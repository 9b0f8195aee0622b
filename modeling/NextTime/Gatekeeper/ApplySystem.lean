import NextTime.Gatekeeper.IdempotencyStore
import NextTime.Library.LabelledRun

/-
One gate process at a time over one store file: `apply` and `lookupApply` calls
suspended at the await points of the code, the serialized write chain, and
crashes. The labels carry what the code cannot choose: the arguments of a call,
how a transport call ends, whether a write lands and what it reports, and when
the process stops.
-/

namespace NextTime.Gatekeeper

variable {Params Value : Type}

/-! ### The gate -/

inductive OperationMode
  | observe
  | execute
deriving DecidableEq, Repr

structure Operation where
  name : String
  mode : OperationMode
  digest : String
deriving DecidableEq, Repr

/-- What a gate is built from. Hashing, schema validation and result mapping
are the libraries' own. -/
structure Gate (Params Value : Type) where
  manifest : List Operation
  hashIdempotencyParams : Params → String
  paramsValid : String → Params → Bool
  toObservedFacts : String → Value → Option Value

/-- A later operation of the same name replaces an earlier one in the index. -/
def Gate.getOperation (gate : Gate Params Value) (name : String) : Option Operation :=
  gate.manifest.reverse.find? (fun operation => operation.name == name)

structure CallContext where
  onBehalfOf : Option String
  operationDigest : Option (Option String)
deriving DecidableEq, Repr

def definitionMismatch (operation : Operation) (ctx : CallContext) : Bool :=
  match ctx.operationDigest with
  | none => false
  | some none => true
  | some (some digest) => digest != operation.digest

inductive NetworkFailureDelivery
  | notSent
  | maybeDelivered
deriving DecidableEq, Repr

inductive TransportErrorClass
  | outcomeUnknown
  | invoke
  | bindingKindMismatch
  | other
deriving DecidableEq, Repr

structure TransportError where
  kind : TransportErrorClass
  message : String
  delivery : Option NetworkFailureDelivery
  networkCode : Option String
deriving DecidableEq, Repr

/-- The outcome-unknown class extends the invoke class, so it keeps its own message. -/
def storedTransportFailure (name : String) (error : TransportError) : StoredApplyFailure :=
  let message :=
    match error.kind with
    | .outcomeUnknown | .invoke => error.message
    | .bindingKindMismatch | .other => "apply for \"" ++ name ++ "\" failed inside the gate"
  if error.kind = .outcomeUnknown then { message, outcomeUnknown := true }
  else if error.delivery = some .maybeDelivered then
    let stopped :=
      match error.networkCode with
      | some code => "its connection to the target failed (" ++ code ++ ")"
      | none => "it stopped waiting for the answer"
    { message := message ++ " — " ++ stopped ++
        " after the request may have reached the target, so it may have run"
      outcomeUnknown := true }
  else if error.kind = .invoke ∨ error.kind = .bindingKindMismatch ∨
      error.delivery = some .notSent then
    { message, outcomeUnknown := false }
  else
    { message := message ++ " — the transport did not say whether the request reached the " ++
        "target, so it may have run"
      outcomeUnknown := true }

inductive TransportOutcome (Value : Type)
  | succeeded (data : Value)
  | refused
  | failed (error : TransportError)
deriving DecidableEq, Repr

/-- What a finished call answered its caller. -/
inductive ApplyAnswer (Value : Type)
  | result (result : ApplyData Value) (replayed : Bool)
  | requiresIdempotencyKey
  | operationNotFound
  | modeMismatch
  | paramsInvalid
  | idempotencyConflict
  | outcomeUnknown (detail : Option String)
  | transportFailed (message : String)
  | transportThrew (error : TransportError)
  | notReceived
  | definitionMismatch
  | credentialUnresolved
  | operationRefused
  | storeFailed
deriving DecidableEq, Repr

def storedFailureError (failure : StoredApplyFailure) : ApplyAnswer Value :=
  if failure.outcomeUnknown then .outcomeUnknown (some failure.message)
  else .transportFailed failure.message

/-! ### Calls -/

inductive WriteProgress
  | waiting
  | succeeded
  | failed
deriving DecidableEq, Repr

/-- Why an `apply` frees the key it reserved: nothing ran under it. -/
inductive ReleaseCause
  | definitionMismatch
  | credentialUnresolved
  | operationRefused
deriving DecidableEq, Repr

/-- The await point a call is suspended at. `stranded` is a call whose result
mapping threw after the transport succeeded: its key stays reserved. -/
inductive Phase (Value : Type)
  | reserve
  | reserveFlush (write : WriteProgress)
  | credential
  | transport
  | release (cause : ReleaseCause)
  | releaseFlush (cause : ReleaseCause) (write : WriteProgress)
  | fail (error : TransportError)
  | failFlush (error : TransportError) (write : WriteProgress)
  | complete (result : ApplyData Value)
  | completeFlush (result : ApplyData Value) (write : WriteProgress)
  | lookup
  | lookupFlush (write : WriteProgress)
  | stranded
  | answered (answer : ApplyAnswer Value)
deriving DecidableEq, Repr

structure Call (Value : Type) where
  key : String
  descriptor : IdempotencyDescriptor
  mismatch : Bool
  phase : Phase Value
deriving DecidableEq, Repr

structure ApplyArguments (Params : Type) where
  name : String
  params : Params
  actionRequestId : String
  ctx : CallContext
deriving DecidableEq, Repr

def descriptorFor (gate : Gate Params Value) (arguments : ApplyArguments Params) :
    IdempotencyDescriptor :=
  { operation := arguments.name
    paramsHash := gate.hashIdempotencyParams arguments.params
    onBehalfOf := arguments.ctx.onBehalfOf }

/-- The checks of `apply` before its first await. -/
def applyArrives (gate : Gate Params Value) (arguments : ApplyArguments Params) : Call Value :=
  let call (mismatch : Bool) (phase : Phase Value) : Call Value :=
    { key := arguments.actionRequestId
      descriptor := descriptorFor gate arguments
      mismatch, phase }
  if arguments.actionRequestId = "" then call false (.answered .requiresIdempotencyKey)
  else
    match gate.getOperation arguments.name with
    | none => call false (.answered .operationNotFound)
    | some operation =>
        if definitionMismatch operation arguments.ctx then call true .reserve
        else if operation.mode ≠ .execute then call false (.answered .modeMismatch)
        else if gate.paramsValid arguments.name arguments.params then call false .reserve
        else call false (.answered .paramsInvalid)

def lookupArrives (gate : Gate Params Value) (arguments : ApplyArguments Params) : Call Value :=
  { key := arguments.actionRequestId
    descriptor := descriptorFor gate arguments
    mismatch := false
    phase :=
      if arguments.actionRequestId = "" then .answered .requiresIdempotencyKey else .lookup }

/-- The answer of `apply` when its reservation was not granted. -/
def reservationAnswer : IdempotencyReserveResult Value → ApplyAnswer Value
  | .replay _ result => .result result true
  | .failed failure => storedFailureError failure
  | .unknown => .outcomeUnknown none
  | .reserved | .conflict => .idempotencyConflict

def lookupAnswer : IdempotencyLookupResult Value → ApplyAnswer Value
  | .replay _ result => .result result true
  | .failed failure => storedFailureError failure
  | .unknown => .outcomeUnknown none
  | .pending | .conflict => .idempotencyConflict
  | .absent => .notReceived

def releaseAnswer : ReleaseCause → ApplyAnswer Value
  | .definitionMismatch => .definitionMismatch
  | .credentialUnresolved => .credentialUnresolved
  | .operationRefused => .operationRefused

/-- A recorded failure is answered as itself unless its outcome is unknown. -/
def failAnswer (name : String) (error : TransportError) : ApplyAnswer Value :=
  let failure := storedTransportFailure name error
  if failure.outcomeUnknown then storedFailureError failure else .transportThrew error

/-! ### The process and its file -/

inductive Memory (Value : Type)
  | loading
  | loaded (map : StoreMap Value)
  | broken

/-- What an observer of the gate sees, in order. -/
inductive Observation (Value : Type)
  | reserveReturned (call : Nat) (key : String) (descriptor : IdempotencyDescriptor)
      (result : IdempotencyReserveResult Value)
  | lookupReturned (call : Nat) (key : String) (descriptor : IdempotencyDescriptor)
      (result : IdempotencyLookupResult Value)
  | invoked (call : Nat) (key : String)
  | released (call : Nat) (key : String) (cause : ReleaseCause)
deriving DecidableEq, Repr

structure GateState (Value : Type) where
  file : StoreFile Value
  memory : Memory Value
  calls : Nat → Option (Call Value)
  writeChain : List Nat
  writing : Option (Nat × FileEntries Value)
  nextCall : Nat
  history : List (Observation Value)

inductive GateLabel (Params Value : Type)
  | apply (arguments : ApplyArguments Params)
  | lookupApply (arguments : ApplyArguments Params)
  | loadEnds
  | loadFails
  | enterStore (call : Nat)
  | writeBegins
  | writeEnds (landed : Bool) (reported : Bool)
  | flushReturns (call : Nat)
  | credentialEnds (call : Nat) (resolved : Bool)
  | transportEnds (call : Nat) (outcome : TransportOutcome Value)
  | crash (landed : Bool)
deriving DecidableEq, Repr

namespace GateState

variable (state : GateState Value)

def setCall (id : Nat) (call : Call Value) : GateState Value :=
  { state with calls := fun other => if other = id then some call else state.calls other }

def setPhase (id : Nat) (call : Call Value) (phase : Phase Value) : GateState Value :=
  state.setCall id { call with phase }

def observe (observation : Observation Value) : GateState Value :=
  { state with history := state.history ++ [observation] }

def setMap (map : StoreMap Value) : GateState Value :=
  { state with memory := .loaded map }

/-- `flush`: the write joins the chain, the call waits for it. -/
def flush (id : Nat) (call : Call Value) (phase : Phase Value) : GateState Value :=
  { state.setPhase id call phase with writeChain := state.writeChain ++ [id] }

def enrol (call : Call Value) : GateState Value :=
  { state.setCall state.nextCall call with nextCall := state.nextCall + 1 }

end GateState

/-! ### What each label does -/

/-- `load()` reads the file once for the process; every call waits for it. -/
def loadEnds (state : GateState Value) : Option (GateState Value) :=
  match state.memory with
  | .loading =>
      match state.file with
      | .missing => some (state.setMap (fun _ => none))
      | .unreadable => some { state with memory := .broken }
      | .written entries => some (state.setMap (loadedMap entries))
  | _ => none

def loadFails (state : GateState Value) : Option (GateState Value) :=
  match state.memory with
  | .loading => some { state with memory := .broken }
  | _ => none

/-- The synchronous part of a store operation, run when `load()` has resolved. -/
def enterLoaded (state : GateState Value) (map : StoreMap Value) (id : Nat) (call : Call Value) :
    Option (GateState Value) :=
  match call.phase with
  | .reserve =>
      match reserveOrConflict map call.key call.descriptor with
      | (next, .reserved) =>
          some ((state.setMap next).flush id call (.reserveFlush .waiting))
      | (_, result) =>
          some ((state.setPhase id call (.answered (reservationAnswer result))).observe
            (.reserveReturned id call.key call.descriptor result))
  | .lookup =>
      match lookupOrClose map call.key call.descriptor with
      | (next, _, true) => some ((state.setMap next).flush id call (.lookupFlush .waiting))
      | (_, result, false) =>
          some ((state.setPhase id call (.answered (lookupAnswer result))).observe
            (.lookupReturned id call.key call.descriptor result))
  | .release cause =>
      match releaseEntry map call.key with
      | (next, true) =>
          some (((state.setMap next).flush id call (.releaseFlush cause .waiting)).observe
            (.released id call.key cause))
      | (_, false) => some (state.setPhase id call (.answered (releaseAnswer cause)))
  | .fail error =>
      some ((state.setMap (failEntry map call.key
        (storedTransportFailure call.descriptor.operation error))).flush id call
          (.failFlush error .waiting))
  | .complete result =>
      some ((state.setMap (completeEntry map call.key result)).flush id call
        (.completeFlush result .waiting))
  | _ => none

/-- Whether the call waits for `load()`. -/
def Phase.entersStore : Phase Value → Bool
  | .reserve | .lookup | .release _ | .fail _ | .complete _ => true
  | _ => false

def enterStore (state : GateState Value) (id : Nat) : Option (GateState Value) :=
  match state.calls id, state.memory with
  | some call, .loaded map => enterLoaded state map id call
  | some call, .broken =>
      if call.phase.entersStore then some (state.setPhase id call (.answered .storeFailed))
      else none
  | _, _ => none

/-- A write snapshots the map when the writes before it are over. -/
def writeBegins (state : GateState Value) : Option (GateState Value) :=
  match state.writing, state.writeChain, state.memory with
  | none, id :: rest, .loaded map =>
      some { state with writing := some (id, snapshotEntries map), writeChain := rest }
  | _, _, _ => none

def Phase.writeOver (progress : WriteProgress) : Phase Value → Phase Value
  | .reserveFlush _ => .reserveFlush progress
  | .lookupFlush _ => .lookupFlush progress
  | .releaseFlush cause _ => .releaseFlush cause progress
  | .failFlush error _ => .failFlush error progress
  | .completeFlush result _ => .completeFlush result progress
  | phase => phase

/-- The file holds the old snapshot or the new one; a write that reports success landed. -/
def writeEnds (state : GateState Value) (landed reported : Bool) : Option (GateState Value) :=
  match state.writing with
  | none => none
  | some (id, snapshot) =>
      if reported && !landed then none
      else
        let ended : GateState Value :=
          { state with
            file := if landed then .written snapshot else state.file
            writing := none }
        match state.calls id with
        | none => some ended
        | some call =>
            some (ended.setPhase id call
              (call.phase.writeOver (if reported then .succeeded else .failed)))

/-- `apply` goes on with its reservation: a mismatch frees the key, anything
else resolves its credential. -/
def reservedPhase (call : Call Value) : Phase Value :=
  if call.mismatch then .release .definitionMismatch else .credential

/-- The caller of `flush` learns how its write ended. -/
def flushReturns (state : GateState Value) (id : Nat) : Option (GateState Value) :=
  match state.calls id, state.memory with
  | some call, .loaded map =>
      match call.phase with
      | .reserveFlush .succeeded =>
          some ((state.setPhase id call (reservedPhase call)).observe
            (.reserveReturned id call.key call.descriptor .reserved))
      | .reserveFlush .failed =>
          some ((state.setMap (map.delete call.key)).setPhase id call (.answered .storeFailed))
      | .lookupFlush .succeeded =>
          some ((state.setPhase id call (.answered .notReceived)).observe
            (.lookupReturned id call.key call.descriptor .absent))
      | .lookupFlush .failed =>
          some ((state.setMap (map.delete call.key)).setPhase id call (.answered .storeFailed))
      | .releaseFlush cause .succeeded =>
          some (state.setPhase id call (.answered (releaseAnswer cause)))
      | .failFlush error .succeeded =>
          some (state.setPhase id call (.answered (failAnswer call.descriptor.operation error)))
      | .completeFlush result .succeeded =>
          some (state.setPhase id call (.answered (.result result false)))
      | .releaseFlush _ .failed | .failFlush _ .failed | .completeFlush _ .failed =>
          some (state.setPhase id call (.answered .storeFailed))
      | _ => none
  | _, _ => none

/-- The transport call starts in the same turn the credential arrives in. -/
def credentialEnds (state : GateState Value) (id : Nat) (resolved : Bool) :
    Option (GateState Value) :=
  match state.calls id with
  | some call =>
      if call.phase matches .credential then
        if resolved then
          some ((state.setPhase id call .transport).observe (.invoked id call.key))
        else some (state.setPhase id call (.release .credentialUnresolved))
      else none
  | none => none

def transportPhase (gate : Gate Params Value) (name : String) :
    TransportOutcome Value → Phase Value
  | .succeeded data =>
      match gate.toObservedFacts name data with
      | some observedFacts => .complete { data, observedFacts }
      | none => .stranded
  | .refused => .release .operationRefused
  | .failed error => .fail error

def transportEnds (gate : Gate Params Value) (state : GateState Value) (id : Nat)
    (outcome : TransportOutcome Value) : Option (GateState Value) :=
  match state.calls id with
  | some call =>
      if call.phase matches .transport then
        some (state.setPhase id call (transportPhase gate call.descriptor.operation outcome))
      else none
  | none => none

/-- The process is gone with its map, its calls and its write chain; the write
that was running landed or did not. -/
def crash (state : GateState Value) (landed : Bool) : Option (GateState Value) :=
  some
    { state with
      file :=
        match state.writing with
        | some (_, snapshot) => if landed then .written snapshot else state.file
        | none => state.file
      memory := .loading
      calls := fun _ => none
      writeChain := []
      writing := none }

def gateStep (gate : Gate Params Value) (state : GateState Value) :
    GateLabel Params Value → Option (GateState Value)
  | .apply arguments => some (state.enrol (applyArrives gate arguments))
  | .lookupApply arguments => some (state.enrol (lookupArrives gate arguments))
  | .loadEnds => loadEnds state
  | .loadFails => loadFails state
  | .enterStore id => enterStore state id
  | .writeBegins => writeBegins state
  | .writeEnds landed reported => writeEnds state landed reported
  | .flushReturns id => flushReturns state id
  | .credentialEnds id resolved => credentialEnds state id resolved
  | .transportEnds id outcome => transportEnds gate state id outcome
  | .crash landed => crash state landed

/-- A process that has just started over whatever the file holds. -/
structure Started (state : GateState Value) : Prop where
  memory : state.memory = .loading
  calls : ∀ id, state.calls id = none
  writeChain : state.writeChain = []
  writing : state.writing = none
  history : state.history = []

def gateSystem (gate : Gate Params Value) :
    LabelledRun.System (GateState Value) (GateLabel Params Value) :=
  { initial := Started
    step := gateStep gate }

end NextTime.Gatekeeper
