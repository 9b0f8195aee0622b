import NextTime.Goal.RunSystem
import Mathlib.Data.List.Range

/-
What the rows of a goal run keep through every statement: StepRuns are numbered as
they were created, a Task or a request belongs to one of them, and a step that is
pending or ready has nothing left of earlier attempts.
-/

namespace NextTime.Goal

open NextTime.Approval

/-- A request decided to run again was found to have had no effect. -/
def ActionSound (action : StepAction) : Prop :=
  action.reexecuted = true → action.status = .failed ∧
    action.failureKind = some .outcomeUnknown ∧ action.reconciliation = some .effectAbsent

/-- Settled, and not left to a decision to run it again. -/
def ActionOutcomeColumns.confirmed (action : ActionOutcomeColumns) : Prop :=
  action.unsettled = false ∧ actionDisposition action ≠ .unconfirmed

/-- No Task of the step is live. -/
def TasksEnded (goal : GoalRun) (id : Nat) : Prop :=
  ∀ task ∈ goal.tasks, task.stepRun = some id → task.live = false

/-- No request of the step is in flight or of unknown outcome. -/
def ActionsSettled (goal : GoalRun) (id : Nat) : Prop :=
  ∀ action ∈ goal.actions, action.stepRun = id → action.unsettled = false

def ActionsConfirmed (goal : GoalRun) (id : Nat) : Prop :=
  ∀ action ∈ goal.actions, action.stepRun = id → action.confirmed

instance (action : ActionOutcomeColumns) : Decidable action.confirmed :=
  inferInstanceAs (Decidable (_ ∧ _))

instance (goal : GoalRun) (id : Nat) : Decidable (ActionsConfirmed goal id) :=
  inferInstanceAs (Decidable (∀ action ∈ goal.actions, action.stepRun = id → action.confirmed))

/-- A step that has not been started, or that was made ready again. -/
def StepRun.unstarted (step : StepRun) : Prop :=
  step.status = .pending ∨ step.status = .ready

/-- The rows of the run's steps, Tasks and requests. -/
structure RowsSound (goal : GoalRun) : Prop where
  ids : goal.stepIds = List.range goal.stepRuns.length
  taskSteps : ∀ task ∈ goal.tasks, ∀ id, task.stepRun = some id → id < goal.stepRuns.length
  actionSteps : ∀ action ∈ goal.actions, action.stepRun < goal.stepRuns.length
  actionIds : (goal.actions.map (·.id)).Nodup
  actions : ∀ action ∈ goal.actions, ActionSound action
  unstarted : ∀ step ∈ goal.stepRuns, step.unstarted →
    TasksEnded goal step.id ∧ ActionsConfirmed goal step.id

/-- Another state with the same steps, Tasks and requests. -/
structure SameRows (goal other : GoalRun) : Prop where
  stepRuns : other.stepRuns = goal.stepRuns
  tasks : other.tasks = goal.tasks
  actions : other.actions = goal.actions

/-- Another state with the same status, plans, rounds and history. -/
structure SameCourse (goal other : GoalRun) : Prop where
  status : other.status = goal.status
  statement : other.statement = goal.statement
  currentRevision : other.currentRevision = goal.currentRevision
  plans : other.plans = goal.plans
  rounds : other.rounds = goal.rounds
  history : other.history = goal.history

theorem SameRows.refl (goal : GoalRun) : SameRows goal goal := ⟨rfl, rfl, rfl⟩

theorem SameRows.trans {first second third : GoalRun} (one : SameRows first second)
    (two : SameRows second third) : SameRows first third :=
  ⟨two.stepRuns.trans one.stepRuns, two.tasks.trans one.tasks, two.actions.trans one.actions⟩

theorem RowsSound.same {goal other : GoalRun} (sound : RowsSound goal)
    (same : SameRows goal other) : RowsSound other := by
  obtain ⟨stepRuns, tasks, actions⟩ := same
  refine ⟨?_, ?_, ?_, ?_, ?_, ?_⟩
  · simpa only [GoalRun.stepIds, stepRuns] using sound.ids
  · simpa only [stepRuns, tasks] using sound.taskSteps
  · simpa only [stepRuns, actions] using sound.actionSteps
  · simpa only [actions] using sound.actionIds
  · simpa only [actions] using sound.actions
  · simpa only [TasksEnded, ActionsConfirmed, stepRuns, tasks, actions] using sound.unstarted

/-! ### Moves of the run keep its rows -/

theorem moveGoal_same {goal next : GoalRun} {event : GoalRunEvent}
    {reason : Option GoalRunPauseReason} {now : Int}
    (moved : goal.moveGoal event reason now = some next) : SameRows goal next := by
  obtain ⟨status, _edge, rfl⟩ := Option.map_eq_some_iff.mp moved
  exact ⟨rfl, rfl, rfl⟩

theorem pause_same (goal : GoalRun) (reason : GoalRunPauseReason) (now : Int) :
    SameRows goal (goal.pause reason now) := by
  unfold GoalRun.pause
  split
  · cases moved : goal.moveGoal .pause (some reason) now with
    | none => exact SameRows.refl goal
    | some next => exact moveGoal_same moved
  · exact SameRows.refl goal

theorem pauses_same (goal : GoalRun) (advance : Advance) (reason : GoalRunPauseReason) :
    SameRows goal (pauses goal advance reason) :=
  pause_same goal reason advance.now

theorem withAdvance_same (goal : GoalRun) (advance : Option Advance) :
    SameRows goal (goal.withAdvance advance) :=
  ⟨rfl, rfl, rfl⟩

theorem goesTo_same (goal : GoalRun) (advance : Advance) (point : AdvancePoint) :
    SameRows goal (goal.goesTo advance point) :=
  withAdvance_same goal _

theorem openRound_same (goal : GoalRun) (plan : GoalPlan) (now : Int) :
    SameRows goal (goal.openRound plan now) :=
  ⟨rfl, rfl, rfl⟩

theorem judgeRound_same {goal next : GoalRun} {advance : Advance}
    {read : List AcceptanceCheckRow} (judged : judgeRound goal advance read = some next) :
    SameRows goal next := by
  unfold judgeRound at judged
  split at judged
  · split at judged
    · cases judged
      exact pauses_same goal advance _
    · cases judged
      exact openRound_same goal _ _
  split at judged
  · cases judged
    exact SameRows.refl goal
  split at judged
  · cases judged
    exact pauses_same goal advance _
  split at judged
  · cases judged
    exact SameRows.refl goal
  · exact moveGoal_same judged

theorem settleCheck_same {goal next : GoalRun} {round : Nat} {key : String}
    {status : GoalAcceptanceCheckStatus} (settled : settleCheck goal round key status = some next) :
    SameRows goal next := by
  unfold settleCheck at settled
  split at settled
  · cases settled
    exact ⟨rfl, rfl, rfl⟩
  · cases settled

theorem beginAdvance_same {goal next : GoalRun} {now : Int}
    (began : beginAdvance goal now = some next) : SameRows goal next := by
  unfold beginAdvance at began
  dsimp only at began
  split at began
  · cases began
  split at began
  · cases began
    exact withAdvance_same goal _
  split at began
  · cases began
    exact withAdvance_same goal _
  · cases began

/-! ### One StepRun moves -/

theorem RowsSound.distinct {goal : GoalRun} (sound : RowsSound goal) : goal.stepIds.Nodup := by
  rw [sound.ids]
  exact List.nodup_range

theorem RowsSound.step_eq {goal : GoalRun} (sound : RowsSound goal) {first second : StepRun}
    (inFirst : first ∈ goal.stepRuns) (inSecond : second ∈ goal.stepRuns)
    (same : first.id = second.id) : first = second :=
  List.inj_on_of_nodup_map sound.distinct inFirst inSecond same

theorem findStep_some {goal : GoalRun} {id : Nat} {step : StepRun}
    (found : goal.findStep id = some step) : step ∈ goal.stepRuns ∧ step.id = id :=
  ⟨List.mem_of_find?_eq_some found, by simpa using List.find?_some found⟩

/-- The row `moveStepRun` writes, along an edge of the table. -/
theorem move_some {step row : StepRun} {event : StepRunEvent}
    {waitingReason : Option StepRunWaitingReason} {category : Option StepRunFailureCategory}
    {revision : Option Nat} (moved : step.move event waitingReason category revision = some row) :
    (step.status, event, row.status) ∈ stepRunEdges ∧ row.id = step.id ∧
      row.stepKey = step.stepKey ∧ row.introducedInRevision = step.introducedInRevision := by
  obtain ⟨status, edge, rfl⟩ := Option.map_eq_some_iff.mp moved
  exact ⟨Shared.transition_mem edge, rfl, rfl, rfl⟩

/-- A step that is moved leaves every other row, the Tasks and the requests alone. -/
structure StepMoved (goal : GoalRun) (step row : StepRun) (next : GoalRun) : Prop where
  stepRuns : next.stepRuns = goal.stepRuns.map fun other => if other.id = row.id then row else other
  tasks : next.tasks = goal.tasks
  actions : next.actions = goal.actions
  id : row.id = step.id
  stepKey : row.stepKey = step.stepKey

theorem StepMoved.mem {goal next : GoalRun} {step row other : StepRun}
    (moved : StepMoved goal step row next) (member : other ∈ next.stepRuns) :
    other = row ∨ (other ∈ goal.stepRuns ∧ other.id ≠ step.id) := by
  rw [moved.stepRuns] at member
  obtain ⟨old, inOld, same⟩ := List.mem_map.mp member
  by_cases chosen : old.id = row.id
  · rw [if_pos chosen] at same
    exact .inl same.symm
  · rw [if_neg chosen] at same
    subst same
    exact .inr ⟨inOld, fun named => chosen (named.trans moved.id.symm)⟩

theorem StepMoved.stepIds {goal next : GoalRun} {step row : StepRun}
    (moved : StepMoved goal step row next) : next.stepIds = goal.stepIds := by
  unfold GoalRun.stepIds
  rw [moved.stepRuns, List.map_map]
  apply List.map_congr_left
  intro other _member
  simp only [Function.comp]
  split
  next same => exact same.symm
  · rfl

theorem StepMoved.length {goal next : GoalRun} {step row : StepRun}
    (moved : StepMoved goal step row next) : next.stepRuns.length = goal.stepRuns.length := by
  rw [moved.stepRuns, List.length_map]

/-- A move keeps the rows sound when a step made ready has nothing left to wait for. -/
theorem RowsSound.moved {goal next : GoalRun} {step row : StepRun} (sound : RowsSound goal)
    (moved : StepMoved goal step row next)
    (clear : row.unstarted →
      TasksEnded goal step.id ∧ ActionsConfirmed goal step.id) : RowsSound next := by
  refine ⟨?_, ?_, ?_, ?_, ?_, ?_⟩
  · rw [moved.stepIds, moved.length]
    exact sound.ids
  · rw [moved.tasks, moved.length]
    exact sound.taskSteps
  · rw [moved.actions, moved.length]
    exact sound.actionSteps
  · rw [moved.actions]
    exact sound.actionIds
  · rw [moved.actions]
    exact sound.actions
  · intro other member unstarted
    unfold TasksEnded ActionsConfirmed
    rw [moved.tasks, moved.actions]
    rcases moved.mem member with rfl | ⟨inOld, _different⟩
    · rw [moved.id]
      exact clear unstarted
    · exact sound.unstarted other inOld unstarted

/-! ### Work that ends and is reconciled -/

/-- A Task that may have ended, and is otherwise the same. -/
structure TaskSettles (task later : GoalTask) : Prop where
  id : later.id = task.id
  stepRun : later.stepRun = task.stepRun
  stepAttempt : later.stepAttempt = task.stepAttempt
  caller : later.caller = task.caller
  live : later.live = true → task.live = true
  outcome : ∀ outcome, task.outcome = some outcome → later.outcome = some outcome

/-- A request that may have moved along its table: what is settled stays so. -/
structure ActionSettles (action later : StepAction) : Prop where
  id : later.id = action.id
  stepRun : later.stepRun = action.stepRun
  raisedBy : later.raisedBy = action.raisedBy
  sound : ActionSound action → ActionSound later
  settled : action.unsettled = false → later.unsettled = false
  confirmed : action.confirmed → later.confirmed

theorem TaskSettles.refl (task : GoalTask) : TaskSettles task task :=
  ⟨rfl, rfl, rfl, rfl, fun live => live, fun _ ended => ended⟩

theorem ActionSettles.refl (action : StepAction) : ActionSettles action action :=
  ⟨rfl, rfl, rfl, fun sound => sound, fun settled => settled, fun confirmed => confirmed⟩

theorem dispositionByFailureKind_ended (kind : ActionRequestFailureKind) :
    dispositionByFailureKind kind ≠ .inFlight := by
  cases kind <;> nofun

theorem disposition_inFlight {action : ActionOutcomeColumns} :
    actionDisposition action = .inFlight ↔ inFlightStatus action.status = true := by
  unfold actionDisposition
  cases status : action.status with
  | failed =>
      simp only [inFlightStatus, Bool.false_eq_true, iff_false]
      split
      · nofun
      · split <;> nofun
      · exact dispositionByFailureKind_ended _
  | _ => simp [inFlightStatus]

/-- Only what is in flight moves on; what has executed may yet be verified. -/
theorem transition_from {status next : ActionRequestStatus} {event : ActionRequestEvent}
    (moved : Approval.transition status event = some next) (asked : event ≠ .compensate) :
    inFlightStatus status = true ∨ (status = .executed ∧ next = .verified) := by
  have edges : ∀ edge ∈ actionRequestEdges, edge.2.1 ≠ .compensate →
      inFlightStatus edge.1 = true ∨ (edge.1 = .executed ∧ edge.2.2 = .verified) := by decide
  exact edges _ (Shared.transition_mem moved) asked

/-- What happened to the Tasks and the requests of a run while its steps stood. -/
structure WorkSettles (goal next : GoalRun) : Prop where
  tasks : ∃ change, next.tasks = goal.tasks.map change ∧
    ∀ task ∈ goal.tasks, TaskSettles task (change task)
  actions : ∃ change, next.actions = goal.actions.map change ∧
    ∀ action ∈ goal.actions, ActionSettles action (change action)

theorem WorkSettles.of_actions {goal next : GoalRun} (tasks : next.tasks = goal.tasks)
    {change : StepAction → StepAction} (actions : next.actions = goal.actions.map change)
    (settles : ∀ action ∈ goal.actions, ActionSettles action (change action)) :
    WorkSettles goal next :=
  ⟨⟨id, by rw [tasks, List.map_id], fun task _ => TaskSettles.refl task⟩, change, actions, settles⟩

theorem endTask_settles {goal next : GoalRun} {id : Nat} {outcome : TaskOutcome}
    (ended : endTask goal id outcome = some next) :
    WorkSettles goal next ∧ next.stepRuns = goal.stepRuns ∧ SameCourse goal next ∧
      next.advance = goal.advance := by
  unfold endTask at ended
  split at ended
  · cases ended
    refine ⟨⟨⟨_, rfl, ?_⟩, _, (List.map_id _).symm, fun action _ => ActionSettles.refl action⟩,
      rfl, ⟨rfl, rfl, rfl, rfl, rfl, rfl⟩, rfl⟩
    intro task _member
    by_cases chosen : task.id = id ∧ task.live = true
    · rw [if_pos chosen]
      refine ⟨rfl, rfl, rfl, rfl, nofun, ?_⟩
      intro already same
      have live := chosen.2
      rw [GoalTask.live, same] at live
      cases live
    · rw [if_neg chosen]
      exact TaskSettles.refl task
  · cases ended

/-- The row of one request is replaced by a later one of the same request. -/
theorem withAction_settles {goal : GoalRun} {action later : StepAction}
    (found : goal.findAction action.id = some action)
    (distinct : (goal.actions.map (·.id)).Nodup) (settles : ActionSettles action later) :
    WorkSettles goal (goal.withAction later) := by
  have inActions : action ∈ goal.actions := List.mem_of_find?_eq_some found
  refine WorkSettles.of_actions rfl rfl ?_
  intro other member
  by_cases chosen : other.id = later.id
  · rw [if_pos chosen]
    have same := List.inj_on_of_nodup_map distinct member inActions (chosen.trans settles.id)
    rw [same]
    exact settles
  · rw [if_neg chosen]
    exact ActionSettles.refl other

theorem moveAction_settles {action : StepAction} {event : ActionRequestEvent}
    {status : ActionRequestStatus} (kind : Option ActionRequestFailureKind)
    (asked : event ≠ .compensate)
    (moved : Approval.transition action.status event = some status) :
    ActionSettles action { action with status := status, failureKind := kind } := by
  rcases transition_from moved asked with flight | ⟨executed, rfl⟩
  · have disposed := disposition_inFlight.mpr flight
    refine ⟨rfl, rfl, rfl, ?_, ?_, ?_⟩
    · intro sound reexecuted
      rw [(sound reexecuted).1] at flight
      cases flight
    · intro settled
      simp [ActionOutcomeColumns.unsettled, disposed] at settled
    · intro confirmed
      have settled := confirmed.1
      simp [ActionOutcomeColumns.unsettled, disposed] at settled
  · refine ⟨rfl, rfl, rfl, ?_, ?_, ?_⟩
    · intro sound reexecuted
      have failed := (sound reexecuted).1
      rw [executed] at failed
      cases failed
    · intro _settled
      rfl
    · intro _confirmed
      constructor
      · rfl
      · intro impossible
        cases impossible

theorem reconcileAction_settles {action : StepAction} (verdict : ActionRequestReconciliation)
    (status : action.status = .failed) (kind : action.failureKind = some .outcomeUnknown)
    (opened : action.reconciliation = none) :
    ActionSettles action { action with reconciliation := some verdict } := by
  have disposed : actionDisposition action.toActionOutcomeColumns = .reconcile := by
    simp [actionDisposition, status, kind, opened, dispositionByFailureKind]
  refine ⟨rfl, rfl, rfl, ?_, ?_, ?_⟩
  · intro sound reexecuted
    have found := (sound reexecuted).2.2
    rw [opened] at found
    cases found
  · intro settled
    simp [ActionOutcomeColumns.unsettled, disposed] at settled
  · intro confirmed
    have settled := confirmed.1
    simp [ActionOutcomeColumns.unsettled, disposed] at settled

theorem reexecuteAction_settles {action : StepAction} (status : action.status = .failed)
    (kind : action.failureKind = some .outcomeUnknown)
    (finding : action.reconciliation = some .effectAbsent) :
    ActionSettles action { action with reexecuted := true } := by
  have disposed : actionDisposition { action.toActionOutcomeColumns with reexecuted := true } =
      .retry := by
    simp [actionDisposition, status, kind, finding]
  refine ⟨rfl, rfl, rfl, ?_, ?_, ?_⟩
  · intro _sound _reexecuted
    exact ⟨status, kind, finding⟩
  · intro _settled
    simp [ActionOutcomeColumns.unsettled, disposed]
  · intro _confirmed
    simp [ActionOutcomeColumns.confirmed, ActionOutcomeColumns.unsettled, disposed]

theorem withdrawStepActions_settles (actions : List StepAction) (steps keep : List Nat) :
    ∃ change, withdrawStepActions actions steps keep = actions.map change ∧
      ∀ action ∈ actions, ActionSettles action (change action) := by
  refine ⟨_, rfl, ?_⟩
  intro action _member
  split
  next asked =>
    simp only [Bool.and_eq_true] at asked
    have withdrawable := asked.1.2
    have edge : Approval.transition action.status .withdraw = some .withdrawn := by
      cases status : action.status <;> rw [status] at withdrawable <;>
        first | rfl | cases withdrawable
    have asked : ActionRequestEvent.withdraw ≠ .compensate := by decide
    exact moveAction_settles action.failureKind asked edge
  · exact ActionSettles.refl action

/-- A Task ends, or a request moves along or is reconciled. -/
def RunLabel.settles : RunLabel → Bool
  | .taskEnds _ _ | .actionMoves _ _ _ | .reconciles _ _ | .decidesReexecute _ => true
  | _ => false

theorem withAction_course (goal : GoalRun) (row : StepAction) :
    SameCourse goal (goal.withAction row) :=
  ⟨rfl, rfl, rfl, rfl, rfl, rfl⟩

theorem settlingStep {goal next : GoalRun} {label : RunLabel} (sound : RowsSound goal)
    (moved : runStep goal label = some next) (environment : label.settles = true) :
    WorkSettles goal next ∧ next.stepRuns = goal.stepRuns ∧ SameCourse goal next ∧
      next.advance = goal.advance := by
  have found : ∀ id action, goal.findAction id = some action →
      goal.findAction action.id = some action := by
    intro id action found
    have named : action.id = id := by simpa using List.find?_some found
    rw [named]
    exact found
  cases label with
  | taskEnds task outcome => exact endTask_settles moved
  | actionMoves id event kind =>
      obtain ⟨action, inRun, step⟩ := Option.bind_eq_some_iff.mp moved
      split at step
      · cases step
      next asked =>
        obtain ⟨status, edge, rfl⟩ := Option.map_eq_some_iff.mp step
        exact ⟨withAction_settles (found _ _ inRun) sound.actionIds
          (moveAction_settles _ asked edge), rfl, withAction_course goal _, rfl⟩
  | reconciles id verdict =>
      obtain ⟨action, inRun, step⟩ := Option.bind_eq_some_iff.mp moved
      split at step
      next doubt =>
        cases step
        exact ⟨withAction_settles (found _ _ inRun) sound.actionIds
          (reconcileAction_settles verdict doubt.1 doubt.2.1 doubt.2.2), rfl,
          withAction_course goal _, rfl⟩
      · cases step
  | decidesReexecute id =>
      obtain ⟨action, inRun, step⟩ := Option.bind_eq_some_iff.mp moved
      split at step
      next absent =>
        cases step
        exact ⟨withAction_settles (found _ _ inRun) sound.actionIds
          (reexecuteAction_settles absent.1 absent.2.1 absent.2.2), rfl, withAction_course goal _, rfl⟩
      · cases step
  | _ => cases environment

/-! ### What settling work keeps -/

theorem WorkSettles.tasksEnded {goal next : GoalRun} (settles : WorkSettles goal next) {id : Nat}
    (ended : TasksEnded goal id) : TasksEnded next id := by
  obtain ⟨change, tasks, each⟩ := settles.tasks
  intro task member stepRun
  rw [tasks] at member
  obtain ⟨old, inOld, rfl⟩ := List.mem_map.mp member
  have settled := each old inOld
  cases live : (change old).live with
  | false => rfl
  | true =>
      have was := settled.live live
      rw [ended old inOld (settled.stepRun.symm.trans stepRun)] at was
      cases was

theorem WorkSettles.actionsSettled {goal next : GoalRun} (settles : WorkSettles goal next)
    {id : Nat} (settled : ActionsSettled goal id) : ActionsSettled next id := by
  obtain ⟨change, actions, each⟩ := settles.actions
  intro action member stepRun
  rw [actions] at member
  obtain ⟨old, inOld, rfl⟩ := List.mem_map.mp member
  have later := each old inOld
  exact later.settled (settled old inOld (later.stepRun.symm.trans stepRun))

theorem WorkSettles.actionsConfirmed {goal next : GoalRun} (settles : WorkSettles goal next)
    {id : Nat} (confirmed : ActionsConfirmed goal id) : ActionsConfirmed next id := by
  obtain ⟨change, actions, each⟩ := settles.actions
  intro action member stepRun
  rw [actions] at member
  obtain ⟨old, inOld, rfl⟩ := List.mem_map.mp member
  have later := each old inOld
  exact later.confirmed (confirmed old inOld (later.stepRun.symm.trans stepRun))

theorem RowsSound.settles {goal next : GoalRun} (sound : RowsSound goal)
    (settles : WorkSettles goal next) (stepRuns : next.stepRuns = goal.stepRuns) :
    RowsSound next := by
  refine ⟨?_, ?_, ?_, ?_, ?_, ?_⟩
  · simpa only [GoalRun.stepIds, stepRuns] using sound.ids
  · obtain ⟨change, tasks, each⟩ := settles.tasks
    rw [tasks, stepRuns]
    intro task member id stepRun
    obtain ⟨old, inOld, rfl⟩ := List.mem_map.mp member
    exact sound.taskSteps old inOld id ((each old inOld).stepRun.symm.trans stepRun)
  · obtain ⟨change, actions, each⟩ := settles.actions
    rw [actions, stepRuns]
    intro action member
    obtain ⟨old, inOld, rfl⟩ := List.mem_map.mp member
    rw [(each old inOld).stepRun]
    exact sound.actionSteps old inOld
  · obtain ⟨change, actions, each⟩ := settles.actions
    rw [actions, List.map_map, List.map_congr_left (g := (·.id))]
    · exact sound.actionIds
    · intro action member
      exact (each action member).id
  · obtain ⟨change, actions, each⟩ := settles.actions
    rw [actions]
    intro action member
    obtain ⟨old, inOld, rfl⟩ := List.mem_map.mp member
    exact (each old inOld).sound (sound.actions old inOld)
  · rw [stepRuns]
    intro step member unstarted
    obtain ⟨ended, confirmed⟩ := sound.unstarted step member unstarted
    exact ⟨settles.tasksEnded ended, settles.actionsConfirmed confirmed⟩

/-! ### New work -/

theorem takesWork_started {step : StepRun} (works : takesWork step.status = true) :
    ¬ step.unstarted := by
  rintro (pending | ready)
  · rw [pending] at works
    cases works
  · rw [ready] at works
    cases works

/-- A Task is added to the run, or to a step that was started. -/
theorem RowsSound.withTask {goal : GoalRun} (sound : RowsSound goal) {task : GoalTask}
    (entered : ∀ id, task.stepRun = some id →
      ∃ step ∈ goal.stepRuns, step.id = id ∧ ¬ step.unstarted) :
    RowsSound (goal.withTask task) := by
  refine ⟨sound.ids, ?_, sound.actionSteps, sound.actionIds, sound.actions, ?_⟩
  · intro other member id stepRun
    rcases List.mem_append.mp member with old | new
    · exact sound.taskSteps other old id stepRun
    · rw [List.mem_singleton] at new
      subst new
      obtain ⟨step, inSteps, named, _started⟩ := entered id stepRun
      have listed : step.id ∈ goal.stepIds := List.mem_map_of_mem inSteps
      rw [sound.ids, named] at listed
      exact List.mem_range.mp listed
  · intro step member unstarted
    obtain ⟨ended, confirmed⟩ := sound.unstarted step member unstarted
    refine ⟨?_, confirmed⟩
    intro other inTasks stepRun
    rcases List.mem_append.mp inTasks with old | new
    · exact ended other old stepRun
    · rw [List.mem_singleton] at new
      subst new
      obtain ⟨origin, inSteps, named, started⟩ := entered step.id stepRun
      rw [sound.step_eq inSteps member named] at started
      exact absurd unstarted started

/-- A request is added to a step that was started. -/
theorem RowsSound.withRequest {goal : GoalRun} (sound : RowsSound goal) {action : StepAction}
    {step : StepRun} (member : step ∈ goal.stepRuns) (raised : action.stepRun = step.id)
    (started : ¬ step.unstarted) (fresh : ∀ other ∈ goal.actions, other.id ≠ action.id)
    (opened : action.reexecuted = false) :
    RowsSound { goal with actions := goal.actions ++ [action] } := by
  refine ⟨sound.ids, sound.taskSteps, ?_, ?_, ?_, ?_⟩
  · intro other inActions
    rcases List.mem_append.mp inActions with old | new
    · exact sound.actionSteps other old
    · rw [List.mem_singleton] at new
      subst new
      have listed : step.id ∈ goal.stepIds := List.mem_map_of_mem member
      rw [sound.ids] at listed
      rw [raised]
      exact List.mem_range.mp listed
  · rw [List.map_append, List.nodup_append]
    refine ⟨sound.actionIds, List.nodup_singleton _, ?_⟩
    intro id old other new
    obtain ⟨before, inActions, rfl⟩ := List.mem_map.mp old
    rw [List.map_singleton, List.mem_singleton] at new
    rw [new]
    exact fresh before inActions
  · intro other inActions
    rcases List.mem_append.mp inActions with old | new
    · exact sound.actions other old
    · rw [List.mem_singleton] at new
      subst new
      intro reexecuted
      rw [opened] at reexecuted
      cases reexecuted
  · intro other inSteps unstarted
    obtain ⟨ended, confirmed⟩ := sound.unstarted other inSteps unstarted
    refine ⟨ended, ?_⟩
    intro request inActions stepRun
    rcases List.mem_append.mp inActions with old | new
    · exact confirmed request old stepRun
    · rw [List.mem_singleton] at new
      subst new
      rw [sound.step_eq member inSteps (raised.symm.trans stepRun)] at started
      exact absurd unstarted started

/-- New work enters a step that is running or waiting, under no advance. -/
theorem lockGoalStepForNewWork_some {goal : GoalRun} {caller : Nat} {step : StepRun}
    (locked : lockGoalStepForNewWork goal caller = some step) :
    (∃ task, goal.findTask caller = some task ∧ task.stepRun = some step.id) ∧
      step ∈ goal.stepRuns ∧ goal.advance = none ∧ takesWork step.status = true := by
  unfold lockGoalStepForNewWork at locked
  obtain ⟨task, foundTask, locked⟩ := Option.bind_eq_some_iff.mp locked
  obtain ⟨found, inStep, guarded⟩ := Option.bind_eq_some_iff.mp locked
  obtain ⟨id, stepRun, foundStep⟩ := Option.bind_eq_some_iff.mp inStep
  split at guarded
  next asked =>
    cases guarded
    rw [Bool.and_eq_true, Option.isNone_iff_eq_none] at asked
    obtain ⟨member, named⟩ := findStep_some foundStep
    exact ⟨⟨task, foundTask, named ▸ stepRun⟩, member, asked.1, asked.2⟩
  · cases guarded

theorem requestStepAction_some {goal next : GoalRun} {task id : Nat} {requestedAt : Int}
    {identity : String} {resolved : ActionRequestStatus}
    (inserted : requestStepAction goal task id requestedAt identity resolved = some next) :
    ∃ step action, lockGoalStepForNewWork goal task = some step ∧
      next = { goal with actions := goal.actions ++ [action] } ∧
      (∀ other ∈ goal.actions, other.id ≠ action.id) ∧ action.stepRun = step.id ∧
      action.raisedBy = task ∧ action.reexecuted = false := by
  unfold requestStepAction at inserted
  obtain ⟨step, locked, inserted⟩ := Option.bind_eq_some_iff.mp inserted
  split at inserted
  next asked =>
    cases inserted
    refine ⟨step, _, locked, rfl, ?_, rfl, rfl, rfl⟩
    rw [Bool.and_eq_true, Option.isNone_iff_eq_none] at asked
    intro other member
    simpa using List.find?_eq_none.mp asked.1 other member
  · cases inserted

/-- The nested Task of a caller. -/
def nestedTask (step : StepRun) (caller task : Nat) : GoalTask :=
  { id := task
    stepRun := some step.id
    stepAttempt := none
    caller := some caller
    outcome := none }

theorem invokeNested_some {goal next : GoalRun} {caller task : Nat}
    (inserted : invokeNested goal caller task = some next) :
    ∃ step, lockGoalStepForNewWork goal caller = some step ∧
      next = goal.withTask (nestedTask step caller task) := by
  unfold invokeNested at inserted
  obtain ⟨step, locked, inserted⟩ := Option.bind_eq_some_iff.mp inserted
  split at inserted
  · cases inserted
    exact ⟨step, locked, rfl⟩
  · cases inserted

end NextTime.Goal
