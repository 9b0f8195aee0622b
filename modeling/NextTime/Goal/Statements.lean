import NextTime.Goal.RunRows

/-
What each statement of an advance can do to the rows, said once: nothing, or one
move of one step under the guards it was read with.
-/

namespace NextTime.Goal

open NextTime.Approval

/-! ### The run's own row -/

/-- The numbers of its verification rounds. -/
def GoalRun.roundNumbers (goal : GoalRun) : List Nat := goal.rounds.map (·.round)

theorem supersedePending_numbers (rounds : List AcceptanceRound) (beforeRound : Option Nat) :
    (GoalRun.supersedePending rounds beforeRound).map (·.round) = rounds.map (·.round) := by
  unfold GoalRun.supersedePending
  rw [List.map_map]
  apply List.map_congr_left
  intro round _member
  simp only [Function.comp]
  split
  · rfl
  · rfl

theorem moveGoal_status {goal next : GoalRun} {event : GoalRunEvent}
    {reason : Option GoalRunPauseReason} {now : Int}
    (moved : goal.moveGoal event reason now = some next) :
    (goal.status, event, next.status) ∈ goalRunEdges := by
  obtain ⟨status, edge, rfl⟩ := Option.map_eq_some_iff.mp moved
  exact Shared.transition_mem edge

theorem moveGoal_numbers {goal next : GoalRun} {event : GoalRunEvent}
    {reason : Option GoalRunPauseReason} {now : Int}
    (moved : goal.moveGoal event reason now = some next) : next.roundNumbers = goal.roundNumbers := by
  obtain ⟨status, _edge, rfl⟩ := Option.map_eq_some_iff.mp moved
  unfold GoalRun.roundNumbers
  dsimp only
  split
  · exact supersedePending_numbers goal.rounds none
  · rfl

/-- A pause changes nothing, or leaves the run paused. -/
theorem pause_cases (goal : GoalRun) (reason : GoalRunPauseReason) (now : Int) :
    goal.pause reason now = goal ∨ (goal.pause reason now).status = .paused := by
  unfold GoalRun.pause
  split
  · cases moved : goal.moveGoal .pause (some reason) now with
    | none => exact .inl rfl
    | some next =>
        have edges : ∀ edge ∈ goalRunEdges, edge.2.1 = .pause → edge.2.2 = .paused := by decide
        exact .inr (edges _ (moveGoal_status moved) rfl)
  · exact .inl rfl

theorem pause_numbers (goal : GoalRun) (reason : GoalRunPauseReason) (now : Int) :
    (goal.pause reason now).roundNumbers = goal.roundNumbers := by
  unfold GoalRun.pause
  split
  · cases moved : goal.moveGoal .pause (some reason) now with
    | none => rfl
    | some next => exact moveGoal_numbers moved
  · rfl

/-- The run's status stays or becomes paused, and no round is opened. -/
structure Kept (goal next : GoalRun) : Prop where
  status : next.status = goal.status ∨ next.status = .paused
  rounds : next.roundNumbers = goal.roundNumbers

theorem Kept.refl (goal : GoalRun) : Kept goal goal := ⟨.inl rfl, rfl⟩

theorem Kept.trans {first second third : GoalRun} (one : Kept first second)
    (two : Kept second third) : Kept first third := by
  refine ⟨?_, two.rounds.trans one.rounds⟩
  rcases two.status with same | paused
  · rw [same]
    exact one.status
  · exact .inr paused

theorem pauses_kept (goal : GoalRun) (advance : Advance) (reason : GoalRunPauseReason) :
    Kept goal (pauses goal advance reason) := by
  refine ⟨?_, pause_numbers goal reason advance.now⟩
  rcases pause_cases goal reason advance.now with same | paused
  · exact .inl (congrArg GoalRun.status same)
  · exact .inr paused

/-- The rows stay too. -/
structure Stays (goal next : GoalRun) : Prop extends SameRows goal next, Kept goal next

theorem Stays.refl (goal : GoalRun) : Stays goal goal := ⟨SameRows.refl goal, Kept.refl goal⟩

theorem Stays.trans {first second third : GoalRun} (one : Stays first second)
    (two : Stays second third) : Stays first third :=
  ⟨one.toSameRows.trans two.toSameRows, one.toKept.trans two.toKept⟩

theorem pauses_stays (goal : GoalRun) (advance : Advance) (reason : GoalRunPauseReason) :
    Stays goal (pauses goal advance reason) :=
  ⟨pauses_same goal advance reason, pauses_kept goal advance reason⟩

/-- One step moved along the edge of an event; then the run may have been paused. -/
structure StepMoves (goal : GoalRun) (step : StepRun) (event : StepRunEvent) (row : StepRun)
    (next : GoalRun) : Prop where
  rows : StepMoved goal step row next
  edge : (step.status, event, row.status) ∈ stepRunEdges
  attemptCount : event ≠ .start → row.attemptCount = step.attemptCount
  introduced : row.introducedInRevision = step.introducedInRevision
  kept : Kept goal next

theorem moveStep_moves {goal next : GoalRun} {step : StepRun} {event : StepRunEvent}
    {waitingReason : Option StepRunWaitingReason} {category : Option StepRunFailureCategory}
    {revision : Option Nat}
    (moved : goal.moveStep step event waitingReason category revision = some next) :
    ∃ row, step.move event waitingReason category revision = some row ∧
      StepMoves goal step event row next := by
  obtain ⟨row, found, rfl⟩ := Option.map_eq_some_iff.mp moved
  obtain ⟨edge, id, key, introduced⟩ := move_some found
  refine ⟨row, found, ⟨rfl, rfl, rfl, id, key⟩, edge, ?_, introduced, .inl rfl, rfl⟩
  intro other
  obtain ⟨status, _target, rfl⟩ := Option.map_eq_some_iff.mp found
  exact if_neg other

theorem StepMoves.pauses {goal mid : GoalRun} {step row : StepRun} {event : StepRunEvent}
    (moves : StepMoves goal step event row mid) (advance : Advance) (reason : GoalRunPauseReason) :
    StepMoves goal step event row (pauses mid advance reason) := by
  have later := pauses_stays mid advance reason
  refine ⟨⟨?_, ?_, ?_, moves.rows.id, moves.rows.stepKey⟩, moves.edge, moves.attemptCount,
    moves.introduced, moves.kept.trans later.toKept⟩
  · rw [later.stepRuns]
    exact moves.rows.stepRuns
  · rw [later.tasks]
    exact moves.rows.tasks
  · rw [later.actions]
    exact moves.rows.actions

/-! ### Phase A -/

/-- A step whose attempt's work was judged done when it started to wait. -/
def StepRun.onAcceptance (step : StepRun) : Prop :=
  step.status = .waiting ∧
    (step.waitingReason = some .acceptance ∨ step.waitingReason = some .acceptanceUnavailable)

/-- The reads under which a finished attempt is judged. -/
def AttemptOver (goal : GoalRun) (advance : Advance) (step : StepRun) : Prop :=
  ∃ task, readStepAttemptTask goal.tasks step.id step.attemptCount = some task ∧
    liveTasksOf advance step = [] ∧ (attemptEffect goal step task).waits = false

/-- What phase A leaves of a step it moved: held for its requests, or past them. -/
def Recorded (goal : GoalRun) (advance : Advance) (step row : StepRun) : Prop :=
  row.attemptCount = step.attemptCount ∧
    ((row.status = .waiting ∧ ¬ row.onAcceptance) ∨
      ((row.onAcceptance ∨ row.status = .succeeded ∨ row.status = .failed) ∧
        (step.onAcceptance ∨ AttemptOver goal advance step)))

/-- Nothing happened to the rows, or the step was moved as phase A moves one. -/
def RecordStep (goal : GoalRun) (advance : Advance) (step : StepRun) (next : GoalRun) : Prop :=
  Stays goal next ∨
    ∃ row, StepMoved goal step row next ∧ Recorded goal advance step row ∧ Kept goal next

theorem StepMoves.recorded {goal next : GoalRun} {advance : Advance} {step row : StepRun}
    {event : StepRunEvent} (moves : StepMoves goal step event row next)
    (recorded : Recorded goal advance step row) : RecordStep goal advance step next :=
  .inr ⟨row, moves.rows, recorded, moves.kept⟩

/-- `holdStep` leaves the step waiting for the reason it names. -/
theorem holdStep_cases {goal next : GoalRun} {step : StepRun} {reason : StepRunWaitingReason}
    (held : holdStep goal step reason = some next) :
    Stays goal next ∨
      ∃ row, StepMoved goal step row next ∧ row.status = .waiting ∧
        row.waitingReason = some reason ∧ row.attemptCount = step.attemptCount ∧
        Kept goal next := by
  have waits : ∀ {origin row : StepRun}, origin.move .wait (some reason) none none = some row →
      row.status = .waiting ∧ row.waitingReason = some reason ∧
        row.attemptCount = origin.attemptCount := by
    intro origin row moved
    obtain ⟨status, edge, rfl⟩ := Option.map_eq_some_iff.mp moved
    have edges : ∀ edge ∈ stepRunEdges, edge.2.1 = .wait → edge.2.2 = .waiting := by decide
    have waiting : status = .waiting := edges _ (Shared.transition_mem edge) rfl
    subst waiting
    exact ⟨rfl, rfl, rfl⟩
  unfold holdStep at held
  split at held
  · cases held
    exact .inl (Stays.refl goal)
  split at held
  · obtain ⟨running, resumed, moved⟩ := Option.bind_eq_some_iff.mp held
    obtain ⟨row, found, rfl⟩ := Option.map_eq_some_iff.mp moved
    obtain ⟨waiting, because, attempts⟩ := waits found
    obtain ⟨_edge, id, key, _introduced⟩ := move_some found
    obtain ⟨_resumeEdge, resumedId, resumedKey, _resumedIn⟩ := move_some resumed
    obtain ⟨status, _target, same⟩ := Option.map_eq_some_iff.mp resumed
    have counted : running.attemptCount = step.attemptCount := by
      rw [← same]
      rfl
    exact .inr ⟨row, ⟨rfl, rfl, rfl, id.trans resumedId, key.trans resumedKey⟩, waiting, because,
      attempts.trans counted, ⟨.inl rfl, rfl⟩⟩
  · obtain ⟨row, found, rfl⟩ := Option.map_eq_some_iff.mp held
    obtain ⟨waiting, because, attempts⟩ := waits found
    obtain ⟨_edge, id, key, _introduced⟩ := move_some found
    exact .inr ⟨row, ⟨rfl, rfl, rfl, id, key⟩, waiting, because, attempts,
      ⟨.inl rfl, rfl⟩⟩

/-- A step that is held, and the pause that may follow. -/
theorem holdStep_recorded {goal held next : GoalRun} {advance : Advance} {step : StepRun}
    {reason : StepRunWaitingReason} (holds : holdStep goal step reason = some held)
    (after : Stays held next)
    (judged : (reason ≠ .acceptance ∧ reason ≠ .acceptanceUnavailable) ∨ step.onAcceptance ∨
      AttemptOver goal advance step) : RecordStep goal advance step next := by
  rcases holdStep_cases holds with stays | ⟨row, moved, waiting, because, attempts, kept⟩
  · exact .inl (stays.trans after)
  · refine .inr ⟨row, ⟨?_, ?_, ?_, moved.id, moved.stepKey⟩, ⟨attempts, ?_⟩,
      kept.trans after.toKept⟩
    · rw [after.stepRuns]
      exact moved.stepRuns
    · rw [after.tasks]
      exact moved.tasks
    · rw [after.actions]
      exact moved.actions
    · rcases judged with ⟨notAcceptance, notUnavailable⟩ | past
      · refine .inl ⟨waiting, ?_⟩
        rintro ⟨_waits, acceptance | unavailable⟩
        · exact notAcceptance (Option.some.inj (because.symm.trans acceptance))
        · exact notUnavailable (Option.some.inj (because.symm.trans unavailable))
      · by_cases acceptance : reason = .acceptance ∨ reason = .acceptanceUnavailable
        · refine .inr ⟨.inl ⟨waiting, ?_⟩, past⟩
          rcases acceptance with rfl | rfl
          · exact .inl because
          · exact .inr because
        · refine .inl ⟨waiting, ?_⟩
          rintro ⟨_waits, named | named⟩
          · exact acceptance (.inl (Option.some.inj (because.symm.trans named)))
          · exact acceptance (.inr (Option.some.inj (because.symm.trans named)))

/-- A step that is past its requests succeeds or fails. -/
theorem moveStep_recorded {goal moved next : GoalRun} {advance : Advance} {step : StepRun}
    {event : StepRunEvent} {category : Option StepRunFailureCategory}
    (moves : goal.moveStep step event none category none = some moved)
    (ends : event = .succeed ∨ event = .fail) (after : next = moved ∨
      ∃ reason, next = pauses moved advance reason)
    (past : step.onAcceptance ∨ AttemptOver goal advance step) :
    RecordStep goal advance step next := by
  obtain ⟨row, _found, step'⟩ := moveStep_moves moves
  have edges : ∀ edge ∈ stepRunEdges, edge.2.1 = .succeed ∨ edge.2.1 = .fail →
      edge.2.2 = .succeeded ∨ edge.2.2 = .failed := by decide
  have judged := edges _ step'.edge ends
  have notStart : event ≠ .start := by
    rcases ends with rfl | rfl <;> nofun
  have recorded : Recorded goal advance step row :=
    ⟨step'.attemptCount notStart, .inr ⟨.inr judged, past⟩⟩
  rcases after with rfl | ⟨reason, rfl⟩
  · exact step'.recorded recorded
  · exact (step'.pauses advance reason).recorded recorded

theorem verifyStep_recorded {goal next : GoalRun} {advance : Advance} {oracle : Oracle}
    {step : StepRun} (waits : step.onAcceptance)
    (ran : verifyStep goal advance oracle step = some next) : RecordStep goal advance step next := by
  unfold verifyStep at ran
  split at ran
  · split at ran
    · cases ran
      exact .inl (Stays.refl goal)
    split at ran
    · cases ran
      exact .inl (pauses_stays goal advance _)
    · exact holdStep_recorded ran (Stays.refl next) (.inr (.inl waits))
  · split at ran
    · cases ran
      exact .inl (Stays.refl goal)
    · cases ran
      exact .inl (Stays.refl goal)
    · obtain ⟨failed, moved, same⟩ := Option.map_eq_some_iff.mp ran
      refine moveStep_recorded moved (.inr rfl) ?_ (.inl waits)
      split at same
      · exact .inl same.symm
      · exact .inr ⟨_, same.symm⟩
    · obtain ⟨held, holds, same⟩ := Option.map_eq_some_iff.mp ran
      subst same
      exact holdStep_recorded holds (pauses_stays held advance _) (.inr (.inl waits))
    · exact moveStep_recorded ran (.inl rfl) (.inl rfl) (.inl waits)

theorem recordVerdict_recorded {goal next : GoalRun} {advance : Advance} {oracle : Oracle}
    {step : StepRun} {outcome : TaskOutcome} {verdict : AttemptVerdict}
    (judged : AttemptOver goal advance step)
    (ran : recordVerdict goal advance oracle step outcome verdict = some next) :
    RecordStep goal advance step next := by
  cases verdict with
  | succeed =>
      simp only [recordVerdict] at ran
      split at ran
      · cases ran
        exact .inl (pauses_stays goal advance _)
      split at ran
      · exact holdStep_recorded ran (Stays.refl next) (.inr (.inr judged))
      · exact moveStep_recorded ran (.inl rfl) (.inl rfl) (.inr judged)
  | fail category pause =>
      obtain ⟨failed, moved, same⟩ := Option.map_eq_some_iff.mp ran
      refine moveStep_recorded moved (.inr rfl) ?_ (.inr judged)
      split at same
      · exact .inl same.symm
      split at same
      · exact .inl same.symm
      · exact .inr ⟨_, same.symm⟩

theorem recordAttempt_recorded {goal next : GoalRun} {advance : Advance} {oracle : Oracle}
    {step : StepRun} (ran : recordAttempt goal advance oracle step = some next) :
    RecordStep goal advance step next := by
  unfold recordAttempt at ran
  split at ran
  next waits => exact verifyStep_recorded waits ran
  · split at ran
    · cases ran
      exact .inl (pauses_stays goal advance _)
    next task found =>
      split at ran
      · cases ran
        exact .inl (Stays.refl goal)
      split at ran
      · cases ran
        exact .inl (Stays.refl goal)
      next quiet =>
        have none : liveTasksOf advance step = [] := by
          simpa using quiet
        split at ran
        · cases ran
          exact .inl (pauses_stays goal advance _)
        split at ran
        · obtain ⟨held, holds, same⟩ := Option.map_eq_some_iff.mp ran
          refine holdStep_recorded holds ?_ (.inl ⟨nofun, nofun⟩)
          subst same
          split
          · exact pauses_stays held advance _
          · exact Stays.refl held
        · exact holdStep_recorded ran (Stays.refl next) (.inl ⟨nofun, nofun⟩)
        next notReconcile notApproval =>
          refine recordVerdict_recorded ⟨task, found, none, ?_⟩ ran
          cases effect : attemptEffect goal step task with
          | waitReconcile => exact absurd effect notReconcile
          | waitApproval => exact absurd effect notApproval
          | fail category => rfl
          | clear => rfl

/-! ### Phases B and C -/

theorem retry_edge : ∀ edge ∈ stepRunEdges, edge.2.1 = StepRunEvent.retry →
    edge.1 = .failed ∧ edge.2.2 = .ready := by decide

theorem unblock_edge : ∀ edge ∈ stepRunEdges, edge.2.1 = StepRunEvent.unblock →
    edge.1 = .pending ∧ edge.2.2 = .ready := by decide

theorem start_edge : ∀ edge ∈ stepRunEdges, edge.2.1 = StepRunEvent.start →
    edge.1 = .ready ∧ edge.2.2 = .running := by decide

/-- A failed step is made ready only with no Task of it live and every request of
it settled and confirmed. -/
def RetryStep (goal : GoalRun) (advance : Advance) (step : StepRun) (next : GoalRun) : Prop :=
  Stays goal next ∨
    ∃ row, StepMoves goal step .retry row next ∧ liveTasksOf advance step = [] ∧
      (effectOf goal step).waits = false ∧ effectOf goal step ≠ .fail .outcomeUnknown

theorem retryStep_cases {goal next : GoalRun} {advance : Advance} {oracle : Oracle}
    {step : StepRun} {rework : Bool}
    (ran : retryStep goal advance oracle step rework = some next) :
    RetryStep goal advance step next := by
  unfold retryStep at ran
  split at ran
  · cases ran
    exact .inl (pauses_stays goal advance _)
  split at ran
  · split at ran
    · cases ran
      exact .inl (Stays.refl goal)
    · cases ran
      exact .inl (pauses_stays goal advance _)
  split at ran
  · cases ran
    exact .inl (Stays.refl goal)
  next quiet =>
    have none : liveTasksOf advance step = [] := by simpa using quiet
    split at ran
    · cases ran
      exact .inl (pauses_stays goal advance _)
    · cases ran
      exact .inl (pauses_stays goal advance _)
    · cases ran
      exact .inl (Stays.refl goal)
    next notUnknown notReconcile notApproval =>
      split at ran
      · cases ran
        exact .inl (Stays.refl goal)
      split at ran
      · cases ran
        exact .inl (pauses_stays goal advance _)
      · obtain ⟨row, _found, moves⟩ := moveStep_moves ran
        refine .inr ⟨row, moves, none, ?_, notUnknown⟩
        cases effect : effectOf goal step with
        | waitReconcile => exact absurd effect notReconcile
        | waitApproval => exact absurd effect notApproval
        | fail category => rfl
        | clear => rfl

theorem retryFailed_cases {goal next : GoalRun} {advance : Advance} {oracle : Oracle}
    {step : StepRun} (ran : retryFailed goal advance oracle step = some next) :
    RetryStep goal advance step next := by
  unfold retryFailed at ran
  split at ran
  · cases ran
    exact .inl (Stays.refl goal)
  split at ran
  · exact retryStep_cases ran
  split at ran
  · exact retryStep_cases ran
  · cases ran
    exact .inl (Stays.refl goal)

theorem unblockStep_cases {goal next : GoalRun} {advance : Advance} {step : StepRun}
    (ran : unblockStep goal advance step = some next) :
    Stays goal next ∨ ∃ row, StepMoves goal step .unblock row next := by
  unfold unblockStep at ran
  split at ran
  · cases ran
    exact .inl (Stays.refl goal)
  split at ran
  · cases ran
    exact .inl (pauses_stays goal advance _)
  dsimp only at ran
  split at ran
  · cases ran
    exact .inl (Stays.refl goal)
  split at ran
  · cases ran
    exact .inl (pauses_stays goal advance _)
  · obtain ⟨row, _found, moves⟩ := moveStep_moves ran
    exact .inr ⟨row, moves⟩

/-! ### Starts -/

/-- The Task of a step's next attempt. -/
def attemptTask (step : StepRun) (task : Nat) : GoalTask :=
  { id := task
    stepRun := some step.id
    stepAttempt := some (step.attemptCount + 1)
    caller := none
    outcome := none }

theorem startAttempt_cases {goal next : GoalRun} {step : StepRun} {task : Nat}
    (ran : startAttempt goal step task = some next) :
    (∀ other ∈ goal.tasks, other.id ≠ task) ∧
      ∃ row, StepMoves (goal.withTask (attemptTask step task)) step .start row next ∧
        row.attemptCount = step.attemptCount + 1 := by
  unfold startAttempt at ran
  split at ran
  · cases ran
  next fresh =>
    obtain ⟨row, found, moves⟩ := moveStep_moves ran
    refine ⟨?_, row, moves, ?_⟩
    · intro other member same
      exact fresh (List.any_eq_true.mpr ⟨other, member, by simpa using same⟩)
    · obtain ⟨status, _edge, rfl⟩ := Option.map_eq_some_iff.mp found
      rfl

/-! ### A revision -/

theorem supersede_edge : ∀ edge ∈ stepRunEdges, edge.2.1 = StepRunEvent.supersede →
    edge.2.2 = .superseded := by decide

/-- The row a revision leaves of an existing StepRun: the same, or superseded. -/
theorem supersedeIn_cases (goal : GoalRun) (plan : GoalPlan) (revision : Nat) (step : StepRun) :
    (supersedeIn goal plan revision step).id = step.id ∧
      (supersedeIn goal plan revision step = step ∨
        (supersedeIn goal plan revision step).status = .superseded) := by
  unfold supersedeIn
  split
  · cases moved : step.move .supersede none none (some revision) with
    | none => exact ⟨rfl, .inl rfl⟩
    | some row =>
        obtain ⟨edge, id, _key, _introduced⟩ := move_some moved
        exact ⟨id, .inr (supersede_edge _ edge rfl)⟩
  · exact ⟨rfl, .inl rfl⟩

theorem createdSteps_ids (goal : GoalRun) (plan : GoalPlan) (revision : Nat) :
    (createdSteps goal plan revision).map (·.id) =
      List.range' goal.stepRuns.length (createdSteps goal plan revision).length := by
  unfold createdSteps
  apply List.ext_getElem
  · simp
  · intro index inMap inRange
    simp

theorem createdSteps_new {goal : GoalRun} {plan : GoalPlan} {revision : Nat} {step : StepRun}
    (created : step ∈ createdSteps goal plan revision) :
    step.status = .pending ∧ goal.stepRuns.length ≤ step.id := by
  obtain ⟨index, _bound, rfl⟩ := List.mem_mapIdx.mp created
  exact ⟨rfl, Nat.le_add_right _ _⟩

/-- A step that nothing more is done for. -/
def StepRunStatus.closed : StepRunStatus → Bool
  | .superseded | .cancelled => true
  | _ => false

/-- What adopting a revision, or cancelling the run, does to the rows: steps are
closed or created, requests withdrawn. -/
structure Revises (goal next : GoalRun) : Prop where
  stepRuns : ∃ change added, next.stepRuns = goal.stepRuns.map change ++ added ∧
    (∀ step ∈ goal.stepRuns, (change step).id = step.id ∧
      (change step = step ∨ (change step).status.closed = true)) ∧
    added.map (·.id) = List.range' goal.stepRuns.length added.length ∧
    ∀ step ∈ added, step.status = .pending ∧ goal.stepRuns.length ≤ step.id
  settles : WorkSettles goal next
  tasks : next.tasks = goal.tasks

theorem adoptRevision_revises {goal next : GoalRun} {plan : GoalPlan} {revision : Nat}
    {keep : List Nat} {now : Int} (adopted : adoptRevision goal plan revision keep now = some next) :
    Revises goal next ∧ Kept goal next ∧ next.advance = goal.advance := by
  unfold adoptRevision at adopted
  split at adopted
  · cases adopted
    obtain ⟨change, actions, each⟩ := withdrawStepActions_settles goal.actions
      ((goal.stepRuns.filter (splitSuperseded goal plan)).map (·.id)) keep
    refine ⟨⟨⟨_, _, rfl, ?_, createdSteps_ids goal plan revision, fun step => createdSteps_new⟩,
      WorkSettles.of_actions rfl actions each, rfl⟩, ⟨.inl rfl, rfl⟩, rfl⟩
    intro step _member
    obtain ⟨id, same | superseded⟩ := supersedeIn_cases goal plan revision step
    · exact ⟨id, .inl same⟩
    · refine ⟨id, .inr ?_⟩
      rw [superseded]
      rfl
  · cases adopted

theorem Revises.rows {goal next : GoalRun} (revises : Revises goal next)
    (sound : RowsSound goal) : RowsSound next := by
  obtain ⟨⟨change, added, stepRuns, each, ids, fresh⟩, settles, tasks⟩ := revises
  have length : next.stepRuns.length = goal.stepRuns.length + added.length := by
    rw [stepRuns, List.length_append, List.length_map]
  have later : RowsSound { next with stepRuns := goal.stepRuns } :=
    sound.settles ⟨settles.tasks, settles.actions⟩ rfl
  refine ⟨?_, ?_, ?_, later.actionIds, later.actions, ?_⟩
  · have kept : (goal.stepRuns.map change).map (·.id) = goal.stepIds := by
      rw [List.map_map]
      apply List.map_congr_left
      intro step member
      exact (each step member).1
    unfold GoalRun.stepIds
    rw [stepRuns, List.map_append, kept, sound.ids, ids, List.length_append, List.length_map,
      List.range_eq_range', List.range_eq_range', ← List.range'_append, Nat.one_mul, Nat.zero_add]
  · intro task member id stepRun
    have bound := later.taskSteps task member id stepRun
    have old : id < goal.stepRuns.length := bound
    omega
  · intro action member
    have bound : action.stepRun < goal.stepRuns.length := later.actionSteps action member
    omega
  · intro step member unstarted
    rw [stepRuns] at member
    rcases List.mem_append.mp member with old | new
    · obtain ⟨before, inOld, rfl⟩ := List.mem_map.mp old
      rcases (each before inOld).2 with same | closed
      · rw [same] at unstarted ⊢
        exact later.unstarted before inOld unstarted
      · rcases unstarted with pending | ready
        · rw [pending] at closed
          cases closed
        · rw [ready] at closed
          cases closed
    · have beyond := (fresh step new).2
      refine ⟨?_, ?_⟩
      · intro task inTasks stepRun
        have bound : step.id < goal.stepRuns.length := later.taskSteps task inTasks _ stepRun
        omega
      · intro action inActions stepRun
        have bound : action.stepRun < goal.stepRuns.length := later.actionSteps action inActions
        omega

theorem cancelGoalRun_revises {goal next : GoalRun} {now : Int}
    (cancelled : cancelGoalRun goal now = some next) :
    Revises goal next ∧ next.advance = goal.advance := by
  unfold cancelGoalRun at cancelled
  split at cancelled
  · cases cancelled
  · obtain ⟨cancelling, moved, rfl⟩ := Option.map_eq_some_iff.mp cancelled
    obtain ⟨status, _edge, rfl⟩ := Option.map_eq_some_iff.mp moved
    obtain ⟨change, actions, each⟩ := withdrawStepActions_settles goal.actions goal.stepIds []
    have edges : ∀ edge ∈ stepRunEdges, edge.2.1 = .cancel → edge.2.2 = .cancelled := by decide
    refine ⟨⟨⟨fun step => (step.move .cancel none none none).getD step, [],
      (List.append_nil _).symm, ?_, rfl, nofun⟩, WorkSettles.of_actions rfl actions each, rfl⟩, rfl⟩
    intro step _member
    dsimp only
    cases moves : step.move .cancel none none none with
    | none => exact ⟨rfl, .inl rfl⟩
    | some row =>
        obtain ⟨edge, id, _key, _introduced⟩ := move_some moves
        have closed : row.status = .cancelled := edges _ edge rfl
        refine ⟨id, .inr ?_⟩
        rw [Option.getD_some, closed]
        rfl

/-! ### A retry by a person -/

theorem retryByPerson_cases {goal next : GoalRun} {id : Nat}
    (retried : retryByPerson goal id = some next) :
    ∃ step row, step ∈ goal.stepRuns ∧ StepMoves goal step .retry row next ∧
      TasksEnded goal step.id ∧ (effectOf goal step).waits = false ∧
      (∀ outcome ∈ listStepActionOutcomes goal.actions step.id none,
        actionDisposition outcome ≠ .unconfirmed) ∧
      next.advance = goal.advance := by
  unfold retryByPerson at retried
  obtain ⟨step, found, retried⟩ := Option.bind_eq_some_iff.mp retried
  dsimp only at retried
  split at retried
  next asked =>
    simp only [Bool.and_eq_true, List.all_eq_true, Bool.not_eq_true', bne_iff_ne] at asked
    obtain ⟨⟨⟨⟨_failed, ended⟩, settled⟩, confirmed⟩, _inPlan⟩ := asked
    obtain ⟨row, _found, moves⟩ := moveStep_moves retried
    obtain ⟨_row, _moved, rfl⟩ := Option.map_eq_some_iff.mp retried
    refine ⟨step, row, (findStep_some found).1, moves, ?_, settled, confirmed, rfl⟩
    intro task member stepRun
    cases live : task.live with
    | false => rfl
    | true => simpa [live, stepRun] using ended task member
  · cases retried

end NextTime.Goal
