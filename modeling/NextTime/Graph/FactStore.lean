import NextTime.Library.JsonValue

/-
Facts, the Observations that fed them and the Sources of these, as the graph
store keeps them, with what row level security lets a Principal see. Times are
the transactions' clock; Facts stand in the order they were recorded.
-/

namespace NextTime.Graph

/-- A registered Source: who owns it, and whether only its owner sees it. -/
structure Source where
  ownerPrincipalId : Nat
  isPrivate : Bool
deriving DecidableEq, Repr

structure Activity where
  createdAt : Nat
  startedBy : Nat
deriving DecidableEq, Repr

structure Observation where
  id : Nat
  sourceId : Nat
  activityId : Nat
deriving DecidableEq, Repr

structure LinkIdentity where
  linkType : String
  sourceObjectId : Nat
  targetObjectId : Nat
deriving DecidableEq, Repr

structure Fact where
  id : Nat
  identity : LinkIdentity
  properties : JsonValue
  validUntil : Option Nat
  recordedAt : Nat
  supersededAt : Option Nat
  invalidatedAt : Option Nat
  supersedesId : Option Nat
  activityId : Nat
  assertedBy : Nat
  observationId : Option Nat
  lastObservationId : Option Nat
  lastObservedAt : Option Nat
deriving DecidableEq

structure AssertFactInput where
  identity : LinkIdentity
  properties : JsonValue
  validUntil : Option Nat
  activityId : Nat
  observationId : Option Nat
deriving DecidableEq

/-- What a Link of a submission was answered with: a Fact of its own origin, or one of
another origin that agrees. -/
structure LinkAnswer where
  sourceId : Nat
  activityId : Nat
  input : AssertFactInput
  factId : Nat
  own : Bool
deriving DecidableEq

structure GraphState where
  clock : Nat
  /-- The Activity of id `n` is the one at `n`. -/
  activities : List Activity
  observations : List Observation
  facts : List Fact
  /-- The answers `submit_observations` got for its Links, in order. -/
  answers : List LinkAnswer
deriving DecidableEq

inductive FactOrigin
  | source (id : Nat)
  | principal (id : Nat)
deriving DecidableEq, Repr

def Fact.active (fact : Fact) : Bool :=
  fact.supersededAt.isNone && fact.invalidatedAt.isNone

/-- `coalesce(l.last_observed_at, l.recorded_at)`. -/
def Fact.lastSeen (fact : Fact) : Nat :=
  fact.lastObservedAt.getD fact.recordedAt

/-- Only content open-ended on both sides is the same content. -/
def factContentEquals (prior : Fact) (input : AssertFactInput) : Bool :=
  decide (prior.identity = input.identity) &&
    (prior.validUntil.isNone && input.validUntil.isNone &&
      decide (prior.properties.sorted = input.properties.sorted))

/-- The workspace's Sources and Objects, and the scrub of secret values in properties. -/
structure GraphContext where
  sources : Nat → Source
  objectType : Nat → String
  scrub : JsonValue → JsonValue

section
variable (context : GraphContext)

/-- `observations_visibility`. -/
def seesSource (caller sourceId : Nat) : Bool :=
  !(context.sources sourceId).isPrivate ||
    decide ((context.sources sourceId).ownerPrincipalId = caller)

def withScrubbedProperties (input : AssertFactInput) : AssertFactInput :=
  { input with properties := context.scrub input.properties }

namespace GraphState

variable (state : GraphState)

def observationsOf (activityId : Nat) : List Observation :=
  state.observations.filter fun observation => decide (observation.activityId = activityId)

/-- `link_visible_to_caller`. -/
def linkVisible (caller activityId : Nat) : Bool :=
  (state.observationsOf activityId).all fun observation =>
    seesSource context caller observation.sourceId

/-- `select distinct source_id`, of the Observations the caller sees. -/
def sourcesSeen (caller activityId : Nat) : List Nat :=
  (((state.observationsOf activityId).map Observation.sourceId).filter
    (seesSource context caller)).eraseDups

def resolveFactOrigin (caller activityId assertedBy : Nat) : FactOrigin :=
  match state.sourcesSeen context caller activityId with
  | [sourceId] => .source sourceId
  | _ => .principal assertedBy

def originOf (caller : Nat) (fact : Fact) : FactOrigin :=
  state.resolveFactOrigin context caller fact.activityId fact.assertedBy

/-- `find_active_fact_for_identity`: newest first. -/
def findActive (identity : LinkIdentity) : List Fact :=
  state.facts.reverse.filter fun fact => fact.active && decide (fact.identity = identity)

def updateFact (factId : Nat) (change : Fact → Fact) : GraphState :=
  { state with
    facts := state.facts.map fun fact => if fact.id = factId then change fact else fact }

def newFact (caller : Nat) (input : AssertFactInput) (supersedesId : Option Nat) : Fact where
  id := state.facts.length
  identity := input.identity
  properties := input.properties
  validUntil := input.validUntil
  recordedAt := state.clock
  supersededAt := none
  invalidatedAt := none
  supersedesId := supersedesId
  activityId := input.activityId
  assertedBy := caller
  observationId := input.observationId
  lastObservationId := input.observationId
  lastObservedAt := input.observationId.map fun _ => state.clock

/-- A new row, or none where its Activity is hidden from the caller. -/
def insertFact (caller : Nat) (input : AssertFactInput) (supersedesId : Option Nat) :
    Option (GraphState × Nat) :=
  if state.linkVisible context caller input.activityId then
    some ({ state with facts := state.facts ++ [state.newFact caller input supersedesId] },
      state.facts.length)
  else none

/-- The freshness clock moves on a row the caller sees. -/
def touchFactObservation (caller : Nat) (fact : Fact) (observationId : Nat) : GraphState :=
  if state.linkVisible context caller fact.activityId then
    state.updateFact fact.id fun fact =>
      { fact with lastObservationId := some observationId, lastObservedAt := some state.clock }
  else state

def supersedeValidatedFact (caller : Nat) (fact : Fact) (input : AssertFactInput) :
    Option (GraphState × Nat) :=
  -- Hidden from the caller it reads as not found.
  if state.linkVisible context caller fact.activityId then
    (state.insertFact context caller input (some fact.id)).map fun inserted =>
      (inserted.1.updateFact fact.id fun fact =>
        { fact with supersededAt := some state.clock }, inserted.2)
  else none

/-- The new state, the Fact answered, and whether it is of the writer's own origin. -/
def assertFact (caller : Nat) (rawInput : AssertFactInput) :
    Option (GraphState × Nat × Bool) :=
  let input := withScrubbedProperties context rawInput
  let prior := state.findActive input.identity
  let newOrigin := state.resolveFactOrigin context caller input.activityId caller
  match prior.find? fun fact => decide (state.originOf context caller fact = newOrigin) with
  | some own =>
      if factContentEquals own input then
        match input.observationId with
        | some observationId =>
            some (state.touchFactObservation context caller own observationId, own.id, true)
        | none => some (state, own.id, true)
      else
        (state.supersedeValidatedFact context caller own input).map fun answer =>
          (answer.1, answer.2, true)
  | none =>
      match prior with
      | [] =>
          (state.insertFact context caller input none).map fun answer =>
            (answer.1, answer.2, true)
      | newest :: _ =>
          if factContentEquals newest input &&
              state.linkVisible context caller newest.activityId then
            some (state, newest.id, false)
          else
            -- Hidden and in agreement, or in disagreement: a Fact of its own.
            (state.insertFact context caller input none).map fun answer =>
              (answer.1, answer.2, true)

end GraphState
end
end NextTime.Graph
