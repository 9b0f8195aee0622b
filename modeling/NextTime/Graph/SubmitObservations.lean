import NextTime.Graph.FactStore
import NextTime.Library.LabelledRun

/-
`submit_observations`, and the transactions that write Facts and Observations
one after another: an Activity is started, an Observation is recorded by another
flow, a Fact is asserted, a submission is taken in. A call that is refused or
fails leaves nothing behind, and is not a step.
-/

namespace NextTime.Graph

structure LinkInput where
  identity : LinkIdentity
  properties : JsonValue
deriving DecidableEq

structure SubmitObservations where
  callerPrincipalId : Nat
  sourceId : Nat
  /-- None: the call starts its own Activity. -/
  activityId : Option Nat
  /-- The Links of each item, with the Objects their ends were upserted to. -/
  observations : List (List LinkInput)
  /-- The Object types of a window that is complete. -/
  window : Option (List String)
deriving DecidableEq

section
variable (context : GraphContext)

namespace GraphState

variable (state : GraphState)

def startActivity (principalId : Nat) : GraphState :=
  { state with activities := state.activities ++ [⟨state.clock, principalId⟩] }

def recordSourceObservation (sourceId activityId : Nat) : GraphState :=
  { state with
    observations :=
      state.observations ++ [⟨state.observations.length, sourceId, activityId⟩] }

def writeLink (call : SubmitObservations) (activityId observationId : Nat) (link : LinkInput) :
    Option GraphState :=
  let input : AssertFactInput :=
    { identity := link.identity
      properties := link.properties
      validUntil := none
      activityId := activityId
      observationId := some observationId }
  (state.assertFact context call.callerPrincipalId input).map fun answer =>
    { answer.1 with
      answers := answer.1.answers ++
        [⟨call.sourceId, activityId, input, answer.2.1, answer.2.2⟩] }

def writeLinks (call : SubmitObservations) (activityId observationId : Nat) :
    List LinkInput → GraphState → Option GraphState
  | [], state => some state
  | link :: links, state =>
      match state.writeLink context call activityId observationId link with
      | some next => writeLinks call activityId observationId links next
      | none => none

/-- `buildInvalidateUnobservedFactsQuery`: an Observation of the Source fed the Fact. -/
def fedBy (sourceId : Nat) (fact : Fact) : Bool :=
  state.observations.any fun observation =>
    decide (observation.sourceId = sourceId) &&
      (decide (some observation.id = fact.lastObservationId.or fact.observationId) ||
        (fact.lastObservationId.isNone && fact.observationId.isNone &&
          decide (observation.activityId = fact.activityId)))

def unobserved (caller sourceId : Nat) (objectTypes : List String) (before : Nat)
    (fact : Fact) : Bool :=
  state.linkVisible context caller fact.activityId && fact.active &&
    objectTypes.contains (context.objectType fact.identity.sourceObjectId) &&
    decide (fact.lastSeen < before) && state.fedBy sourceId fact

def invalidateUnobservedFacts (caller sourceId : Nat) (objectTypes : List String)
    (before : Nat) : GraphState :=
  { state with
    facts := state.facts.map fun fact =>
      if state.unobserved context caller sourceId objectTypes before fact then
        { fact with invalidatedAt := some state.clock }
      else fact }

/-- The items of a call: one Observation with the first, then every Link. -/
def writeItems (call : SubmitObservations) (activityId : Nat) : Option GraphState :=
  match call.observations with
  | [] => some state
  | items =>
      writeLinks context call activityId state.observations.length items.flatten
        (state.recordSourceObservation call.sourceId activityId)

def closeWindow (call : SubmitObservations) (activityId : Nat) : Option GraphState :=
  match call.window with
  | none => some state
  | some objectTypes =>
      (state.activities[activityId]?).map fun activity =>
        state.invalidateUnobservedFacts context call.callerPrincipalId call.sourceId objectTypes
          activity.createdAt

/-- The Activity of a call, started by it or named and started by its caller before. -/
def callActivity (call : SubmitObservations) : Option (GraphState × Nat) :=
  match call.activityId with
  | none => some (state.startActivity call.callerPrincipalId, state.activities.length)
  | some activityId =>
      match state.activities[activityId]? with
      | none => none
      | some activity =>
          if activity.startedBy = call.callerPrincipalId then some (state, activityId) else none

def submitObservations (call : SubmitObservations) : Option GraphState :=
  if (context.sources call.sourceId).ownerPrincipalId = call.callerPrincipalId then
    match state.callActivity call with
    | none => none
    | some (started, activityId) =>
        match started.writeItems context call activityId with
        | none => none
        | some written => written.closeWindow context call activityId
  else none

end GraphState

/-- What a caller asserts outside a submission names no Observation. -/
structure AssertFact where
  identity : LinkIdentity
  properties : JsonValue
  validUntil : Option Nat
  activityId : Nat
deriving DecidableEq

def AssertFact.input (call : AssertFact) : AssertFactInput where
  identity := call.identity
  properties := call.properties
  validUntil := call.validUntil
  activityId := call.activityId
  observationId := none

inductive GraphLabel
  | startsActivity (now principalId : Nat)
  | recordsObservation (now callerPrincipalId sourceId activityId : Nat)
  | assertsFact (now callerPrincipalId : Nat) (call : AssertFact)
  | submits (now : Nat) (call : SubmitObservations)
deriving DecidableEq

def GraphLabel.now : GraphLabel → Nat
  | .startsActivity now _ => now
  | .recordsObservation now _ _ _ => now
  | .assertsFact now _ _ => now
  | .submits now _ => now

namespace GraphState

def transact (state : GraphState) : GraphLabel → Option GraphState
  | .startsActivity _ principalId => some (state.startActivity principalId)
  | .recordsObservation _ caller sourceId activityId =>
      if activityId < state.activities.length ∧ seesSource context caller sourceId = true then
        some (state.recordSourceObservation sourceId activityId)
      else none
  | .assertsFact _ caller call =>
      if call.activityId < state.activities.length then
        (state.assertFact context caller call.input).map fun answer => answer.1
      else none
  | .submits _ call => state.submitObservations context call

def step (state : GraphState) (label : GraphLabel) : Option GraphState :=
  if state.clock ≤ label.now then
    ({ state with clock := label.now } : GraphState).transact context label
  else none

def initial : GraphState where
  clock := 0
  activities := []
  observations := []
  facts := []
  answers := []

def system : LabelledRun.System GraphState GraphLabel where
  initial state := state = initial
  step := step context

end GraphState
end
end NextTime.Graph
