import NextTime.Shared.Transition

/-
The status graph of an ActionRequest: the statuses, the events and the edge
list every transition of the kernel looks up before it writes.
-/

namespace NextTime.Approval

inductive ActionRequestStatus
  | proposed
  | policyEvaluated
  | autoApproved
  | pendingApproval
  | approved
  | rejected
  | expired
  | denied
  | executing
  | executed
  | failed
  | verified
  | compensated
  | withdrawn
deriving DecidableEq, Repr

inductive ActionRequestEvent
  | evaluatePolicy
  | autoApprove
  | requireApproval
  | deny
  | approve
  | reject
  | expire
  | startExecution
  | complete
  | fail
  | verify
  | compensate
  | withdraw
deriving DecidableEq, Repr

/-- `ACTION_REQUEST_EDGES`: from, event, to. -/
def actionRequestEdges :
    List (ActionRequestStatus × ActionRequestEvent × ActionRequestStatus) :=
  [ (.proposed, .evaluatePolicy, .policyEvaluated),
    (.policyEvaluated, .autoApprove, .autoApproved),
    (.policyEvaluated, .requireApproval, .pendingApproval),
    (.policyEvaluated, .deny, .denied),
    (.pendingApproval, .approve, .approved),
    (.pendingApproval, .reject, .rejected),
    (.pendingApproval, .expire, .expired),
    (.autoApproved, .startExecution, .executing),
    (.approved, .startExecution, .executing),
    (.executing, .complete, .executed),
    (.executing, .fail, .failed),
    (.executed, .verify, .verified),
    (.failed, .compensate, .compensated),
    (.pendingApproval, .withdraw, .withdrawn),
    (.approved, .withdraw, .withdrawn),
    (.autoApproved, .withdraw, .withdrawn) ]

/-- The edge of a status and an event; none is an illegal transition. -/
def transition (status : ActionRequestStatus) (event : ActionRequestEvent) :
    Option ActionRequestStatus :=
  Shared.transition actionRequestEdges status event

/-- Why a failed request failed. -/
inductive ActionRequestFailureKind
  | notDelivered
  | refused
  | outcomeUnknown
deriving DecidableEq, Repr

/-- What was found about the effect of a request in doubt. -/
inductive ActionRequestReconciliation
  | effectSeen
  | effectAbsent
deriving DecidableEq, Repr

/-- `IN_FLIGHT_ACTION_REQUEST_STATUSES`. -/
def inFlightStatus : ActionRequestStatus → Bool
  | .proposed | .policyEvaluated | .autoApproved | .pendingApproval | .approved | .executing => true
  | _ => false

theorem transition_executing {status : ActionRequestStatus} {event : ActionRequestEvent} :
    transition status event = some .executing ↔
      event = .startExecution ∧ (status = .autoApproved ∨ status = .approved) := by
  cases status <;> cases event <;> decide

end NextTime.Approval
