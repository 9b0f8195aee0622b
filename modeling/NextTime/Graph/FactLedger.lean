import NextTime.Graph.SubmitObservations
import NextTime.Shared.Transition

/-
The Facts with their business time and epistemic status, the transactions that
write them one after another, and the read of what was current at an instant. The
Activities and Observations stay as they are: nothing here writes them.
-/

namespace NextTime.Graph

inductive PrincipalKind
  | human
  | agent
  | service
deriving DecidableEq, Repr

inductive EpistemicStatus
  | observed
  | extracted
  | inferred
  | asserted
  | verified
  | contradicted
deriving DecidableEq, Repr

inductive EpistemicPromotionEvent
  | verify
  | contradict
deriving DecidableEq, Repr

def epistemicPromotionEdges :
    List (EpistemicStatus × EpistemicPromotionEvent × EpistemicStatus) :=
  [(.observed, .verify, .verified),
    (.extracted, .verify, .verified),
    (.inferred, .verify, .verified),
    (.asserted, .verify, .verified),
    (.observed, .contradict, .contradicted),
    (.extracted, .contradict, .contradicted),
    (.inferred, .contradict, .contradicted),
    (.asserted, .contradict, .contradicted),
    (.verified, .contradict, .contradicted)]

inductive FactLifecycleStatus
  | recorded
  | superseded
  | invalidated
deriving DecidableEq, Repr

inductive FactLifecycleEvent
  | supersede
  | invalidate
deriving DecidableEq, Repr

def factLifecycleEdges : List (FactLifecycleStatus × FactLifecycleEvent × FactLifecycleStatus) :=
  [(.recorded, .supersede, .superseded),
    (.recorded, .invalidate, .invalidated)]

def factLifecycleState (fact : Fact) : FactLifecycleStatus :=
  if fact.invalidatedAt.isSome then .invalidated
  else if fact.supersededAt.isSome then .superseded
  else .recorded

def deriveEpistemicStatus : PrincipalKind → EpistemicStatus
  | .human => .asserted
  | .agent => .inferred
  | .service => .observed

/-- The columns of a row that the identity lookup and the origins never read. -/
structure FactColumns where
  /-- The `validFrom` its write gave. -/
  given : Option Nat
  validFrom : Nat
  epistemicStatus : EpistemicStatus
  verifiedBy : Option Nat
deriving DecidableEq, Repr

structure FactLedger where
  graph : GraphState
  /-- The further columns of the row of an id. -/
  columns : Nat → FactColumns

/-- Who reads, and whether Operation drafts of others are shown to them. -/
structure GraphReadViewer where
  principalId : Nat
  seesEveryDraft : Bool
deriving DecidableEq, Repr

structure LedgerContext extends GraphContext where
  principalKind : Nat → PrincipalKind
  /-- `operationDraftHiddenSql`: an Object that is a draft hidden from the viewer. -/
  draftHidden : GraphReadViewer → Nat → Bool

inductive FactCall
  | assertFact (callerPrincipalId : Nat) (input : AssertFactInput) (validFrom : Option Nat)
  | supersedeFact (callerPrincipalId factId : Nat) (input : AssertFactInput)
      (validFrom : Option Nat)
  | invalidateFact (callerPrincipalId factId : Nat)
  | verifyFact (callerPrincipalId factId : Nat)
  | invalidateUnobservedFacts (callerPrincipalId sourceId : Nat) (objectTypes : List String)
      (before : Nat)
deriving DecidableEq

/-- Calls in one transaction, at the one clock it has. -/
structure FactTransaction where
  now : Nat
  calls : List FactCall
deriving DecidableEq

section
variable (context : LedgerContext)

namespace GraphState

variable (state : GraphState)

/-- `buildGetFactForUpdateQuery`: a row hidden from the caller reads as not found. -/
def getFactForUpdate (caller factId : Nat) : Option Fact :=
  state.facts.find? fun fact =>
    decide (fact.id = factId) && state.linkVisible context.toGraphContext caller fact.activityId

def supersedeFact (caller factId : Nat) (rawInput : AssertFactInput) :
    Option (GraphState × Nat) :=
  let input := withScrubbedProperties context.toGraphContext rawInput
  match state.getFactForUpdate context caller factId with
  | none => none
  | some current =>
      if input.identity = current.identity then
        match Shared.transition factLifecycleEdges (factLifecycleState current) .supersede with
        | none => none
        | some _ => state.supersedeValidatedFact context.toGraphContext caller current input
      else none

def invalidateFact (caller factId : Nat) : Option GraphState :=
  match state.getFactForUpdate context caller factId with
  | none => none
  | some current =>
      match Shared.transition factLifecycleEdges (factLifecycleState current) .invalidate with
      | none => none
      | some _ =>
          some (state.updateFact factId fun fact =>
            { fact with invalidatedAt := some state.clock })

end GraphState

namespace FactLedger

variable (ledger : FactLedger)

/-- The columns of a row a write inserted; `valid_from` is `coalesce($6, now())`. -/
def insertedColumns (caller : Nat) (validFrom : Option Nat) : FactColumns where
  given := validFrom
  validFrom := validFrom.getD ledger.graph.clock
  epistemicStatus := deriveEpistemicStatus (context.principalKind caller)
  verifiedBy := none

/-- The graph after a write, with the columns of the row it inserted, where it did. -/
def written (caller : Nat) (validFrom : Option Nat) (graph : GraphState) (factId : Nat) :
    FactLedger where
  graph := graph
  columns :=
    if factId = ledger.graph.facts.length then
      Function.update ledger.columns factId (ledger.insertedColumns context caller validFrom)
    else ledger.columns

def verifyFact (caller factId : Nat) : Option FactLedger :=
  match ledger.graph.getFactForUpdate context caller factId with
  | none => none
  | some _ =>
      (Shared.transition epistemicPromotionEdges (ledger.columns factId).epistemicStatus
        .verify).map fun _ =>
          { ledger with
            columns := Function.update ledger.columns factId
              { ledger.columns factId with
                epistemicStatus := .verified
                verifiedBy := some caller } }

/-- An Activity that does not exist is refused by its foreign key. -/
def call : FactCall → Option FactLedger
  | .assertFact caller input validFrom =>
      if input.activityId < ledger.graph.activities.length then
        (ledger.graph.assertFact context.toGraphContext caller input).map fun answer =>
          ledger.written context caller validFrom answer.1 answer.2.1
      else none
  | .supersedeFact caller factId input validFrom =>
      if input.activityId < ledger.graph.activities.length then
        (ledger.graph.supersedeFact context caller factId input).map fun answer =>
          ledger.written context caller validFrom answer.1 answer.2
      else none
  | .invalidateFact caller factId =>
      (ledger.graph.invalidateFact context caller factId).map fun graph =>
        { ledger with graph := graph }
  | .verifyFact caller factId => ledger.verifyFact context caller factId
  | .invalidateUnobservedFacts caller sourceId objectTypes before =>
      some { ledger with
        graph := ledger.graph.invalidateUnobservedFacts context.toGraphContext caller sourceId
          objectTypes before }

def calls : List FactCall → FactLedger → Option FactLedger
  | [], ledger => some ledger
  | first :: rest, ledger =>
      match ledger.call context first with
      | none => none
      | some next => calls rest next

/-- A transaction that fails leaves nothing behind, and is not a step. -/
def step (transaction : FactTransaction) : Option FactLedger :=
  if ledger.graph.clock < transaction.now then
    calls context transaction.calls
      { ledger with graph := { ledger.graph with clock := transaction.now } }
  else none

/-- Activities and Observations are there already; no Fact is. -/
def Begins : Prop := ledger.graph.facts = []

def system : LabelledRun.System FactLedger FactTransaction where
  initial ledger := ledger.Begins
  step ledger transaction := ledger.step context transaction

/-! ### The bitemporal read -/

/-- On the system axis a Fact is current from its recording on, until it is superseded or
invalidated. -/
def currentAt (time : Nat) (fact : Fact) : Bool :=
  decide (fact.recordedAt ≤ time) &&
    (fact.supersededAt.all fun moment => decide (time < moment)) &&
    (fact.invalidatedAt.all fun moment => decide (time < moment))

def validAt (time : Nat) (fact : Fact) : Bool :=
  decide ((ledger.columns fact.id).validFrom ≤ time) &&
    fact.validUntil.all fun moment => decide (time < moment)

def touches (objectId : Nat) (fact : Fact) : Bool :=
  decide (fact.identity.sourceObjectId = objectId) ||
    decide (fact.identity.targetObjectId = objectId)

/-- The Facts a Principal sees, and of these the ones no hidden draft is an end of. -/
def shownTo (principalId : Nat) (viewer : Option GraphReadViewer) (fact : Fact) : Bool :=
  ledger.graph.linkVisible context.toGraphContext principalId fact.activityId &&
    viewer.all fun viewer =>
      !context.draftHidden viewer fact.identity.sourceObjectId &&
        !context.draftHidden viewer fact.identity.targetObjectId

/-- `stateAt`: the Facts of `buildStateAtFactsQuery`, newest first. -/
def stateAt (principalId : Nat) (viewer : Option GraphReadViewer) (objectId time : Nat) :
    List Fact :=
  ledger.graph.facts.reverse.filter fun fact =>
    touches objectId fact && currentAt time fact && ledger.validAt time fact &&
      ledger.shownTo context principalId viewer fact

end FactLedger
end
end NextTime.Graph
