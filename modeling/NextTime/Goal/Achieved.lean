import NextTime.Goal.Verification

/-
A run that was achieved: nothing of it is left running, and one round of its plan's
checks has passed with nothing after it.
-/

namespace NextTime.Goal

open NextTime.Approval

structure Achieved (goal : GoalRun) : Prop where
  tasks : ∀ task ∈ goal.tasks, task.live = false
  actions : ∀ action ∈ goal.actions, action.unsettled = false
  checked : ∃ round, LastRound goal round ∧ round.passed

structure CourseSound (goal : GoalRun) : Prop where
  run : RunSound goal
  verify : VerifySound goal

theorem reachable_course {goal : GoalRun} (reached : goalRunSystem.Reachable goal) :
    CourseSound goal := by
  refine LabelledRun.System.invariant goalRunSystem ?_ ?_ reached
  · rintro start ⟨plan, statement, now, rfl⟩
    exact ⟨confirmedRun_sound plan statement now, confirmedRun_verifies plan statement now⟩
  · intro state label next sound moved
    exact ⟨runStep_sound sound.run moved, runStep_verifies sound.run sound.verify moved⟩

/-- In a run whose work is raised by live Tasks, each step has only its attempt's work. -/
theorem run_works {start goal : GoalRun} {labels : List RunLabel}
    (started : goalRunSystem.initial start)
    (permitted : goalRunSystem.Allowed raisedByLive start labels)
    (ran : goalRunSystem.run start labels = some goal) : WorkSound goal := by
  have preserved : goalRunSystem.PreservedWhen raisedByLive
      (fun goal => RunSound goal ∧ WorkSound goal) := by
    rintro state label next ⟨sound, work⟩ allowed moved
    exact ⟨runStep_sound sound moved, runStep_works sound work allowed moved⟩
  obtain ⟨plan, statement, now, rfl⟩ := started
  have initial : RunSound (confirmedRun plan statement now) ∧
      WorkSound (confirmedRun plan statement now) :=
    ⟨confirmedRun_sound plan statement now, confirmedRun_works plan statement now⟩
  exact (LabelledRun.System.run_preserves_when goalRunSystem preserved initial permitted ran).2

/-- The second half of the result needs nothing of the run: Tasks have ended, revised
steps have settled, the checks have passed. -/
theorem completed_checked {goal : GoalRun} (reached : goalRunSystem.Reachable goal)
    (completed : goal.status = .completed) :
    Rested goal ∧ ∃ round, LastRound goal round ∧ round.passed := by
  obtain ⟨rested, round, last, passed⟩ :=
    (reachable_course reached).verify.ending (.inr completed)
  exact ⟨rested, round, last, passed completed⟩

/-- A request belongs to a step of the run. -/
theorem RowsSound.step_of_action {goal : GoalRun} (sound : RowsSound goal) {action : StepAction}
    (member : action ∈ goal.actions) : ∃ step ∈ goal.stepRuns, step.id = action.stepRun := by
  have listed : action.stepRun ∈ goal.stepIds := by
    rw [sound.ids]
    exact List.mem_range.mpr (sound.actionSteps action member)
  exact List.mem_map.mp listed

theorem Rested.settled {goal : GoalRun} (rested : Rested goal) (sound : RowsSound goal)
    (work : WorkSound goal) : ∀ action ∈ goal.actions, action.unsettled = false := by
  intro action member
  obtain ⟨step, inSteps, named⟩ := sound.step_of_action member
  by_cases superseded : step.status = .superseded
  · exact rested.superseded step inSteps superseded action member named.symm
  · have done := rested.done
    unfold everyStepDone at done
    rw [Bool.and_eq_true, List.all_eq_true] at done
    have ended := done.2 step (List.mem_filter.mpr ⟨inSteps, by simpa using superseded⟩)
    have opened : step.status.closed = false := by
      cases status : step.status <;> rw [status] at ended <;> first | rfl | cases ended
    obtain ⟨_work, quiet⟩ := work.rests inSteps rfl opened (rested.closed inSteps)
    exact quiet.2 action member named.symm

theorem achieved_quiet_and_checked {start goal : GoalRun} {labels : List RunLabel}
    (started : goalRunSystem.initial start)
    (permitted : goalRunSystem.Allowed raisedByLive start labels)
    (ran : goalRunSystem.run start labels = some goal) (completed : goal.status = .completed) :
    Achieved goal := by
  have reached : goalRunSystem.Reachable goal := ⟨start, labels, started, ran⟩
  obtain ⟨rested, checked⟩ := completed_checked reached completed
  exact ⟨rested.tasks,
    rested.settled (reachable_sound reached).rows (run_works started permitted ran), checked⟩

/-! ### A request of a Task that has ended -/

/-- A plan of one step with an acceptance check of its own. -/
def checkedStepPlan : GoalPlan :=
  { steps :=
      [{ key := "a"
         worker := "worker"
         spec := none
         dependsOn := none
         nested := none
         maxAttempts := none
         reconcile := none
         acceptance := some [{ key := "sent", body := { kind := .observePredicate, content := "" } }]
         content := "" }]
    acceptance := none
    distinct := List.nodup_singleton "a" }

/-- An advance of that many statements that finds the step's own checks passed. -/
def passingLabels (now : Int) (statements : Nat) : List RunLabel :=
  .advances now ::
    List.replicate statements (.statement { startingOracle 10 with stepRound := .passed })

/-- The step runs as Task 10, which ends; its step waits for its acceptance. -/
def acceptanceRun : List RunLabel :=
  passingLabels 1 17 ++ [.taskEnds 10 .completed] ++ passingLabels 2 11

/-- The step and then the goal pass their checks. -/
def passedRun : List RunLabel :=
  passingLabels 4 10 ++ [.checkSettles 1 implicitConfirmKey .passed] ++ passingLabels 5 1

/-- A request the Worker of Task 10 sent before its Task ended, inserted after. -/
def lateRequest : RunLabel := .requests 10 1 3 "send" .pendingApproval

theorem achieved_quiet_and_checked_passed :
    ∃ goal, goalRunSystem.run (confirmedRun checkedStepPlan "goal" 0)
        (acceptanceRun ++ passedRun) = some goal ∧ Achieved goal := by
  have ends : ((goalRunSystem.run (confirmedRun checkedStepPlan "goal" 0)
      (acceptanceRun ++ passedRun)).any fun goal => goal.status == .completed) = true := by
    decide +kernel
  obtain ⟨goal, ran, completed⟩ := (Option.any_eq_true _ _).mp ends
  have permitted : goalRunSystem.Allowed raisedByLive (confirmedRun checkedStepPlan "goal" 0)
      (acceptanceRun ++ passedRun) := by
    decide +kernel
  exact ⟨goal, ran,
    achieved_quiet_and_checked ⟨_, _, _, rfl⟩ permitted ran (by simpa using completed)⟩

/-- The request is still awaiting its decision when the run is reported achieved. -/
theorem achieved_with_late_request :
    ∃ goal, goalRunSystem.run (confirmedRun checkedStepPlan "goal" 0)
        (acceptanceRun ++ [lateRequest] ++ passedRun) = some goal ∧
      goal.status = .completed ∧ (∃ action ∈ goal.actions, action.unsettled = true) ∧
      ¬ Achieved goal := by
  have ends : ((goalRunSystem.run (confirmedRun checkedStepPlan "goal" 0)
      (acceptanceRun ++ [lateRequest] ++ passedRun)).any fun goal =>
        decide (goal.status = .completed ∧
          (goal.actions.any fun action => action.unsettled) = true)) = true := by
    decide +kernel
  obtain ⟨goal, ran, held⟩ := (Option.any_eq_true _ _).mp ends
  obtain ⟨completed, unsettled⟩ := of_decide_eq_true held
  obtain ⟨action, member, flight⟩ := List.any_eq_true.mp unsettled
  refine ⟨goal, ran, completed, ⟨action, member, flight⟩, ?_⟩
  intro achieved
  rw [achieved.actions action member] at flight
  cases flight

end NextTime.Goal
