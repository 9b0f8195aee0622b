import NextTime.Approval.ActionRequest

/-
What the ActionRequests of a step call for: the disposition of each request from
its columns, their combined effect on the step, and the verdict on a finished
attempt.
-/

namespace NextTime.Goal

open NextTime.Approval

/-- `ActionOutcomeColumns`. -/
structure ActionOutcomeColumns where
  status : ActionRequestStatus
  failureKind : Option ActionRequestFailureKind
  reconciliation : Option ActionRequestReconciliation
  reexecuted : Bool
deriving DecidableEq, Repr

inductive ActionDisposition
  | inFlight
  | executed
  | retry
  | reconcile
  | unconfirmed
  | needsDecision
  | withdrawn
deriving DecidableEq, Repr

/-- `DISPOSITION_BY_FAILURE_KIND`. -/
def dispositionByFailureKind : ActionRequestFailureKind → ActionDisposition
  | .notDelivered => .retry
  | .refused => .needsDecision
  | .outcomeUnknown => .reconcile

def actionDisposition (action : ActionOutcomeColumns) : ActionDisposition :=
  match action.status with
  | .failed =>
      match action.failureKind.getD .outcomeUnknown, action.reconciliation with
      | .outcomeUnknown, some .effectSeen => .executed
      | .outcomeUnknown, some .effectAbsent => if action.reexecuted then .retry else .unconfirmed
      | kind, _ => dispositionByFailureKind kind
  | .proposed | .policyEvaluated | .pendingApproval | .approved | .autoApproved | .executing =>
      .inFlight
  | .executed | .verified => .executed
  | .rejected | .expired | .denied | .compensated => .needsDecision
  | .withdrawn => .withdrawn

inductive StepRunWaitingReason
  | approval
  | reconcile
  | external
  | acceptance
  | acceptanceUnavailable
deriving DecidableEq, Repr

inductive StepRunFailureCategory
  | transient
  | contractViolation
  | verificationFailed
  | outcomeUnknown
  | actionRefused
  | authorityLost
deriving DecidableEq, Repr

inductive StepActionEffect
  | waitReconcile
  | waitApproval
  | fail (category : StepRunFailureCategory)
  | clear
deriving DecidableEq, Repr

/-- `stepActionEffect`: the first of these that any request calls for. -/
def stepActionEffect (actions : List ActionOutcomeColumns) : StepActionEffect :=
  let dispositions := actions.map actionDisposition
  if .reconcile ∈ dispositions then .waitReconcile
  else if .inFlight ∈ dispositions then .waitApproval
  else if .unconfirmed ∈ dispositions then .fail .outcomeUnknown
  else if .needsDecision ∈ dispositions then .fail .actionRefused
  else if .retry ∈ dispositions then .fail .transient
  else .clear

def StepActionEffect.waits : StepActionEffect → Bool
  | .waitReconcile | .waitApproval => true
  | _ => false

/-- Still in flight, or of unknown outcome and not reconciled. -/
def ActionOutcomeColumns.unsettled (action : ActionOutcomeColumns) : Bool :=
  actionDisposition action == .inFlight || actionDisposition action == .reconcile

/-- The step waits exactly on its unsettled requests. -/
theorem stepActionEffect_waits (actions : List ActionOutcomeColumns) :
    (stepActionEffect actions).waits = true ↔
      ∃ action ∈ actions, action.unsettled = true := by
  unfold stepActionEffect ActionOutcomeColumns.unsettled
  constructor
  · intro waits
    by_cases reconcile : ActionDisposition.reconcile ∈ actions.map actionDisposition
    · obtain ⟨action, member, found⟩ := List.mem_map.mp reconcile
      exact ⟨action, member, by simp [found]⟩
    · by_cases flight : ActionDisposition.inFlight ∈ actions.map actionDisposition
      · obtain ⟨action, member, found⟩ := List.mem_map.mp flight
        exact ⟨action, member, by simp [found]⟩
      · simp only [if_neg reconcile, if_neg flight] at waits
        split at waits
        · cases waits
        split at waits
        · cases waits
        split at waits <;> cases waits
  · rintro ⟨action, member, unsettled⟩
    have listed := List.mem_map_of_mem (f := actionDisposition) member
    simp only [Bool.or_eq_true, beq_iff_eq] at unsettled
    rcases unsettled with flight | reconcile
    · rw [flight] at listed
      by_cases first : ActionDisposition.reconcile ∈ actions.map actionDisposition
      · simp only [if_pos first]
        rfl
      · simp only [if_neg first, if_pos listed]
        rfl
    · rw [reconcile] at listed
      simp only [if_pos listed]
      rfl

theorem stepActionEffect_reconcile (actions : List ActionOutcomeColumns) :
    stepActionEffect actions = .waitReconcile ↔
      ∃ action ∈ actions, actionDisposition action = .reconcile := by
  unfold stepActionEffect
  constructor
  · intro waits
    by_cases reconcile : ActionDisposition.reconcile ∈ actions.map actionDisposition
    · obtain ⟨action, member, found⟩ := List.mem_map.mp reconcile
      exact ⟨action, member, found⟩
    · simp only [if_neg reconcile] at waits
      split at waits
      · cases waits
      split at waits
      · cases waits
      split at waits
      · cases waits
      split at waits <;> cases waits
  · rintro ⟨action, member, found⟩
    have listed := List.mem_map_of_mem (f := actionDisposition) member
    rw [found] at listed
    simp only [if_pos listed]

/-- Neither waiting nor a failure of unknown outcome: every request is settled and
none is left to a person's decision to run it again. -/
theorem stepActionEffect_confirmed {actions : List ActionOutcomeColumns}
    (settled : (stepActionEffect actions).waits = false)
    (known : stepActionEffect actions ≠ .fail .outcomeUnknown) :
    ∀ action ∈ actions, action.unsettled = false ∧ actionDisposition action ≠ .unconfirmed := by
  have none : ∀ action ∈ actions, action.unsettled = false := by
    intro action member
    cases unsettled : action.unsettled with
    | false => rfl
    | true =>
        rw [(stepActionEffect_waits actions).mpr ⟨action, member, unsettled⟩] at settled
        cases settled
  intro action member
  refine ⟨none action member, ?_⟩
  intro unconfirmed
  have listed := List.mem_map_of_mem (f := actionDisposition) member
  rw [unconfirmed] at listed
  apply known
  unfold stepActionEffect
  have noReconcile : ActionDisposition.reconcile ∉ actions.map actionDisposition := by
    intro found
    obtain ⟨other, inActions, same⟩ := List.mem_map.mp found
    have settledOther := none other inActions
    simp [ActionOutcomeColumns.unsettled, same] at settledOther
  have noFlight : ActionDisposition.inFlight ∉ actions.map actionDisposition := by
    intro found
    obtain ⟨other, inActions, same⟩ := List.mem_map.mp found
    have settledOther := none other inActions
    simp [ActionOutcomeColumns.unsettled, same] at settledOther
  simp only [if_neg noReconcile, if_neg noFlight, if_pos listed]

/-! ### The verdict on a finished attempt -/

inductive TaskFailureReason
  | timeout
  | noResult
  | workerFailed
  | spawnFailed
  | spawnLost
  | runLost
  | budgetExhausted
  | terminated
  | modelRefused
deriving DecidableEq, Repr

inductive TaskOutcome
  | completed
  | failed (reason : TaskFailureReason)
  | cancelled
deriving DecidableEq, Repr

inductive GoalRunPauseReason
  | requested
  | budgetExhausted
  | noProgress
  | authorityLost
  | needsDecision
  | awaitingReconcile
  | modelRefused
deriving DecidableEq, Repr

/-- `AttemptVerdict`. -/
inductive AttemptVerdict
  | succeed
  | fail (category : StepRunFailureCategory) (pause : Option GoalRunPauseReason)
deriving DecidableEq, Repr

def failVerdict (category : StepRunFailureCategory) : AttemptVerdict :=
  .fail category
    (match category with
      | .transient => none
      | .authorityLost => some .authorityLost
      | _ => some .needsDecision)

/-- `judgeFinishedAttempt`, for an effect that is not a wait. -/
def judgeFinishedAttempt (outcome : TaskOutcome) (effect : StepActionEffect)
    (earlierWithoutResult : Nat) : AttemptVerdict :=
  match outcome with
  | .completed =>
      match effect with
      | .fail category => failVerdict category
      | _ => .succeed
  | .cancelled => .fail .transient (some .needsDecision)
  | .failed reason =>
      if effect = .fail .actionRefused then failVerdict .actionRefused
      else if effect = .fail .outcomeUnknown then failVerdict .outcomeUnknown
      else
        match reason with
        | .noResult =>
            if earlierWithoutResult = 0 then .fail .contractViolation none
            else failVerdict .contractViolation
        | .budgetExhausted => .fail .transient (some .budgetExhausted)
        | .modelRefused => .fail .transient (some .modelRefused)
        | _ => failVerdict .transient

end NextTime.Goal
