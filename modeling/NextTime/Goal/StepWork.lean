import Mathlib.Data.List.Find
import NextTime.Goal.Attempts

/-
Whose work a step may still have: while an attempt runs, that of the attempt and of
the Tasks it called; once it was judged, none. The second part is a run's own: it
holds as long as only Workers of live Tasks raise requests and call others.
-/

namespace NextTime.Goal

/-! ### The tree of an attempt -/

theorem taskTree_append (tasks : List GoalTask) (task : GoalTask) (root : Nat) :
    taskTree (tasks ++ [task]) root =
      if task.id = root ∨ (task.caller.any fun caller => (taskTree tasks root).contains caller) then
        taskTree tasks root ++ [task.id]
      else taskTree tasks root := by
  unfold taskTree
  rw [List.foldl_append]
  rfl

theorem taskTree_grows {tasks : List GoalTask} {task : GoalTask} {root id : Nat}
    (inTree : id ∈ taskTree tasks root) : id ∈ taskTree (tasks ++ [task]) root := by
  rw [taskTree_append]
  split
  · exact List.mem_append_left _ inTree
  · exact inTree

theorem taskTree_joins {tasks : List GoalTask} {task : GoalTask} {root : Nat}
    (joins : task.id = root ∨ ∃ caller, task.caller = some caller ∧ caller ∈ taskTree tasks root) :
    task.id ∈ taskTree (tasks ++ [task]) root := by
  rw [taskTree_append, if_pos]
  · exact List.mem_append_right _ (List.mem_singleton_self _)
  · rcases joins with same | ⟨caller, called, inTree⟩
    · exact .inl same
    · refine .inr ?_
      rw [called, Option.any_some]
      simpa using inTree

/-- The tree is read off ids and callers, which a Task keeps when it ends. -/
theorem taskTree_settles {tasks : List GoalTask} {change : GoalTask → GoalTask}
    (each : ∀ task ∈ tasks, TaskSettles task (change task)) (root : Nat) :
    taskTree (tasks.map change) root = taskTree tasks root := by
  induction tasks using List.reverseRecOn with
  | nil => rfl
  | append_singleton tasks task ih =>
      have last := each task (by simp)
      have before := ih fun other member => each other (List.mem_append_left _ member)
      rw [List.map_append, List.map_singleton, taskTree_append, taskTree_append, before, last.id,
        last.caller]

theorem readStepAttemptTask_some {tasks : List GoalTask} {stepRun attempt : Nat} {task : GoalTask}
    (read : readStepAttemptTask tasks stepRun attempt = some task) :
    task ∈ tasks ∧ task.stepRun = some stepRun ∧ task.stepAttempt = some attempt := by
  have matched := List.find?_some read
  simp only [Bool.and_eq_true, beq_iff_eq] at matched
  exact ⟨List.mem_of_find?_eq_some read, matched.1, matched.2⟩

/-- A Task that is not the attempt leaves the read of the attempt as it was. -/
theorem readStepAttemptTask_append {tasks : List GoalTask} {stepRun attempt : Nat}
    {task : GoalTask} (other : ¬ (task.stepRun = some stepRun ∧ task.stepAttempt = some attempt)) :
    readStepAttemptTask (tasks ++ [task]) stepRun attempt =
      readStepAttemptTask tasks stepRun attempt := by
  unfold readStepAttemptTask
  rw [List.find?_append, List.find?_singleton, if_neg, Option.or_none]
  simpa using other

theorem readStepAttemptTask_settles {tasks : List GoalTask} {change : GoalTask → GoalTask}
    (each : ∀ task ∈ tasks, TaskSettles task (change task)) {stepRun attempt : Nat}
    {later : GoalTask}
    (read : readStepAttemptTask (tasks.map change) stepRun attempt = some later) :
    ∃ task, readStepAttemptTask tasks stepRun attempt = some task ∧ task.id = later.id := by
  unfold readStepAttemptTask at *
  rw [List.find?_map] at read
  obtain ⟨task, found, rfl⟩ := Option.map_eq_some_iff.mp read
  refine ⟨task, ?_, (each task (List.mem_of_find?_eq_some found)).id.symm⟩
  rw [← found]
  apply List.find?_congr
  intro other member
  rw [Function.comp, (each other member).stepRun, (each other member).stepAttempt]

/-! ### The work a step may have -/

/-- All live Tasks and unsettled requests of the step are of its attempt's tree. -/
def AttemptOnly (goal : GoalRun) (step : StepRun) : Prop :=
  ∀ task, readStepAttemptTask goal.tasks step.id step.attemptCount = some task →
    (∀ other ∈ goal.tasks, other.stepRun = some step.id → other.live = true →
      other.id ∈ taskTree goal.tasks task.id) ∧
    ∀ action ∈ goal.actions, action.stepRun = step.id → action.unsettled = true →
      action.raisedBy ∈ taskTree goal.tasks task.id

/-- An attempt of the step runs, or its requests have yet to settle. -/
def StepRun.attempting (step : StepRun) : Prop :=
  takesWork step.status = true ∧ ¬ step.onAcceptance

/-- The work of one step: its attempts are numbered, and what is left is the attempt's. -/
structure StepWork (goal : GoalRun) (step : StepRun) : Prop where
  attempts : ∀ task ∈ goal.tasks, task.stepRun = some step.id →
    ∀ attempt, task.stepAttempt = some attempt → attempt ≤ step.attemptCount
  only : AttemptOnly goal step
  quiet : ¬ step.attempting → Quiet goal step.id

/-- A closed step may have any work left. -/
def WorkSound (goal : GoalRun) : Prop :=
  ∀ step ∈ goal.stepRuns, step.status.closed = false → StepWork goal step

theorem Quiet.attemptOnly {goal : GoalRun} {step : StepRun} (quiet : Quiet goal step.id) :
    AttemptOnly goal step := by
  intro task _read
  refine ⟨?_, ?_⟩
  · intro other member stepRun live
    rw [quiet.1 other member stepRun] at live
    cases live
  · intro action member stepRun unsettled
    rw [quiet.2 action member stepRun] at unsettled
    cases unsettled

theorem WorkSettles.of_same {goal next : GoalRun} (tasks : next.tasks = goal.tasks)
    (actions : next.actions = goal.actions) : WorkSettles goal next :=
  WorkSettles.of_actions tasks (actions.trans (List.map_id _).symm)
    fun action _ => ActionSettles.refl action

theorem AttemptOnly.settles {goal next : GoalRun} {step : StepRun} (only : AttemptOnly goal step)
    (settles : WorkSettles goal next) : AttemptOnly next step := by
  obtain ⟨change, tasks, each⟩ := settles.tasks
  obtain ⟨moves, actions, eachAction⟩ := settles.actions
  intro later read
  rw [tasks] at read
  obtain ⟨task, found, same⟩ := readStepAttemptTask_settles each read
  obtain ⟨ofTasks, ofActions⟩ := only task found
  rw [tasks, actions, taskTree_settles each, ← same]
  refine ⟨?_, ?_⟩
  · intro other member stepRun live
    obtain ⟨old, inOld, rfl⟩ := List.mem_map.mp member
    have settled := each old inOld
    rw [settled.id]
    exact ofTasks old inOld (settled.stepRun.symm.trans stepRun) (settled.live live)
  · intro action member stepRun unsettled
    obtain ⟨old, inOld, rfl⟩ := List.mem_map.mp member
    have settled := eachAction old inOld
    rw [settled.raisedBy]
    apply ofActions old inOld (settled.stepRun.symm.trans stepRun)
    cases was : old.unsettled with
    | true => rfl
    | false =>
        rw [settled.settled was] at unsettled
        cases unsettled

theorem StepWork.settles {goal next : GoalRun} {step : StepRun} (work : StepWork goal step)
    (settles : WorkSettles goal next) : StepWork next step := by
  refine ⟨?_, work.only.settles settles, fun idle => settles.quiet (work.quiet idle)⟩
  obtain ⟨change, tasks, each⟩ := settles.tasks
  intro task member stepRun attempt numbered
  rw [tasks] at member
  obtain ⟨old, inOld, rfl⟩ := List.mem_map.mp member
  have settled := each old inOld
  exact work.attempts old inOld (settled.stepRun.symm.trans stepRun) attempt
    (settled.stepAttempt.symm.trans numbered)

/-- A later row of the step, of the same attempt. -/
theorem StepWork.row {goal : GoalRun} {step row : StepRun} (work : StepWork goal step)
    (id : row.id = step.id) (attempts : row.attemptCount = step.attemptCount)
    (quiet : ¬ row.attempting → Quiet goal step.id) : StepWork goal row := by
  refine ⟨?_, ?_, ?_⟩
  · rw [id, attempts]
    exact work.attempts
  · unfold AttemptOnly
    rw [id, attempts]
    exact work.only
  · rw [id]
    exact quiet

theorem WorkSound.settles {goal next : GoalRun} (sound : WorkSound goal)
    (settles : WorkSettles goal next) (stepRuns : next.stepRuns = goal.stepRuns) :
    WorkSound next := by
  intro step member opened
  rw [stepRuns] at member
  exact (sound step member opened).settles settles

theorem WorkSound.same {goal other : GoalRun} (sound : WorkSound goal)
    (same : SameRows goal other) : WorkSound other :=
  sound.settles (WorkSettles.of_same same.tasks same.actions) same.stepRuns

theorem WorkSound.moved {goal next : GoalRun} {step row : StepRun} (sound : WorkSound goal)
    (moved : StepMoved goal step row next) (work : StepWork goal row) : WorkSound next := by
  have settles := WorkSettles.of_same moved.tasks moved.actions
  intro other member opened
  rcases moved.mem member with rfl | ⟨inOld, _different⟩
  · exact work.settles settles
  · exact (sound other inOld opened).settles settles

/-! ### New Tasks and requests -/

theorem StepWork.withTask {goal : GoalRun} {step : StepRun} (work : StepWork goal step)
    {task : GoalTask} (elsewhere : task.stepRun ≠ some step.id) :
    StepWork (goal.withTask task) step := by
  refine ⟨?_, ?_, ?_⟩
  · intro other member stepRun
    rcases List.mem_append.mp member with old | new
    · exact work.attempts other old stepRun
    · rw [List.mem_singleton.mp new] at stepRun
      exact absurd stepRun elsewhere
  · intro root read
    obtain ⟨ofTasks, ofActions⟩ := work.only root
      ((readStepAttemptTask_append fun attempt => elsewhere attempt.1).symm.trans read)
    refine ⟨?_, fun action member stepRun unsettled =>
      taskTree_grows (ofActions action member stepRun unsettled)⟩
    intro other member stepRun live
    rcases List.mem_append.mp member with old | new
    · exact taskTree_grows (ofTasks other old stepRun live)
    · rw [List.mem_singleton.mp new] at stepRun
      exact absurd stepRun elsewhere
  · intro idle
    obtain ⟨ended, settled⟩ := work.quiet idle
    refine ⟨?_, settled⟩
    intro other member stepRun
    rcases List.mem_append.mp member with old | new
    · exact ended other old stepRun
    · rw [List.mem_singleton.mp new] at stepRun
      exact absurd stepRun elsewhere

/-- The attempt just started is alone in its step. -/
theorem Quiet.started {goal : GoalRun} {step row : StepRun} {task : Nat}
    (quiet : Quiet goal step.id)
    (numbered : ∀ other ∈ goal.tasks, other.stepRun = some step.id →
      ∀ attempt, other.stepAttempt = some attempt → attempt ≤ step.attemptCount)
    (id : row.id = step.id) (attempts : row.attemptCount = step.attemptCount + 1)
    (running : row.status = .running) :
    StepWork (goal.withTask (attemptTask step task)) row := by
  refine ⟨?_, ?_, ?_⟩
  · intro other member stepRun attempt taken
    rw [id] at stepRun
    rw [attempts]
    rcases List.mem_append.mp member with old | new
    · have before := numbered other old stepRun attempt taken
      omega
    · rw [List.mem_singleton.mp new] at taken
      cases taken
      omega
  · intro root read
    have started : root = attemptTask step task := by
      obtain ⟨member, stepRun, taken⟩ := readStepAttemptTask_some read
      rcases List.mem_append.mp member with old | new
      · have before := numbered root old (id ▸ stepRun) _ taken
        omega
      · exact List.mem_singleton.mp new
    subst started
    rw [id]
    refine ⟨?_, ?_⟩
    · intro other member stepRun live
      rcases List.mem_append.mp member with old | new
      · rw [quiet.1 other old stepRun] at live
        cases live
      · rw [List.mem_singleton.mp new]
        exact taskTree_joins (.inl rfl)
    · intro action member stepRun unsettled
      rw [quiet.2 action member stepRun] at unsettled
      cases unsettled
  · intro idle
    exfalso
    apply idle
    refine ⟨by rw [running]; rfl, ?_⟩
    intro acceptance
    exact nomatch running.symm.trans acceptance.1

/-- A live Task of a step whose last attempt was judged would not be quiet. -/
theorem StepWork.attempting_of_live {goal : GoalRun} {step : StepRun} (work : StepWork goal step)
    {caller : GoalTask} (member : caller ∈ goal.tasks) (ofStep : caller.stepRun = some step.id)
    (live : caller.live = true) : step.attempting := by
  by_contra idle
  rw [(work.quiet idle).1 caller member ofStep] at live
  cases live

/-- A Task its own live Task calls joins the attempt's tree. -/
theorem StepWork.invoked {goal : GoalRun} {step : StepRun} (work : StepWork goal step)
    {caller : GoalTask} (member : caller ∈ goal.tasks) (ofStep : caller.stepRun = some step.id)
    (live : caller.live = true) (task : Nat) :
    StepWork (goal.withTask (nestedTask step caller.id task)) step := by
  have attempting := work.attempting_of_live member ofStep live
  refine ⟨?_, ?_, fun idle => absurd attempting idle⟩
  · intro other inTasks stepRun attempt taken
    rcases List.mem_append.mp inTasks with old | new
    · exact work.attempts other old stepRun attempt taken
    · rw [List.mem_singleton.mp new] at taken
      cases taken
  · intro root read
    have nested : ¬ ((nestedTask step caller.id task).stepRun = some step.id ∧
        (nestedTask step caller.id task).stepAttempt = some step.attemptCount) :=
      fun attempt => nomatch attempt.2
    obtain ⟨ofTasks, ofActions⟩ := work.only root
      ((readStepAttemptTask_append nested).symm.trans read)
    refine ⟨?_, fun action inActions stepRun unsettled =>
      taskTree_grows (ofActions action inActions stepRun unsettled)⟩
    intro other inTasks stepRun lives
    rcases List.mem_append.mp inTasks with old | new
    · exact taskTree_grows (ofTasks other old stepRun lives)
    · rw [List.mem_singleton.mp new]
      exact taskTree_joins (.inr ⟨caller.id, rfl, ofTasks caller member ofStep live⟩)

/-- A request of a live Task is of the attempt's tree. -/
theorem StepWork.requested {goal : GoalRun} {step : StepRun} (work : StepWork goal step)
    {caller : GoalTask} (member : caller ∈ goal.tasks) (ofStep : caller.stepRun = some step.id)
    (live : caller.live = true) {action : StepAction} (raisedBy : action.raisedBy = caller.id) :
    StepWork { goal with actions := goal.actions ++ [action] } step := by
  have attempting := work.attempting_of_live member ofStep live
  refine ⟨work.attempts, ?_, fun idle => absurd attempting idle⟩
  intro root read
  obtain ⟨ofTasks, ofActions⟩ := work.only root read
  refine ⟨ofTasks, ?_⟩
  intro other inActions stepRun unsettled
  rcases List.mem_append.mp inActions with old | new
  · exact ofActions other old stepRun unsettled
  · rw [List.mem_singleton.mp new, raisedBy]
    exact ofTasks caller member ofStep live

theorem StepWork.withRequest {goal : GoalRun} {step : StepRun} (work : StepWork goal step)
    {action : StepAction} (elsewhere : action.stepRun ≠ step.id) :
    StepWork { goal with actions := goal.actions ++ [action] } step := by
  refine ⟨work.attempts, ?_, ?_⟩
  · intro root read
    obtain ⟨ofTasks, ofActions⟩ := work.only root read
    refine ⟨ofTasks, ?_⟩
    intro other inActions stepRun
    rcases List.mem_append.mp inActions with old | new
    · exact ofActions other old stepRun
    · rw [List.mem_singleton.mp new] at stepRun
      exact absurd stepRun elsewhere
  · intro idle
    obtain ⟨ended, settled⟩ := work.quiet idle
    refine ⟨ended, ?_⟩
    intro other inActions stepRun
    rcases List.mem_append.mp inActions with old | new
    · exact settled other old stepRun
    · rw [List.mem_singleton.mp new] at stepRun
      exact absurd stepRun elsewhere

/-! ### Every step of a run whose work is raised by live Tasks -/

/-- An attempt that was judged left nothing of its step: its own tree was read, and
there is nothing outside it. -/
theorem AttemptOver.quiet {goal : GoalRun} {advance : Advance} {step : StepRun}
    (judged : AttemptOver goal advance step) (sound : RowsSound goal)
    (seen : TasksSeen goal advance) (only : AttemptOnly goal step) : Quiet goal step.id := by
  obtain ⟨task, read, none, settled⟩ := judged
  refine ⟨seen.ended none, ?_⟩
  intro action member stepRun
  cases unsettled : action.unsettled with
  | false => rfl
  | true =>
      have raised := (only task read).2 action member stepRun unsettled
      have inTree : ∀ tasks, some (taskTree goal.tasks task.id) = some tasks →
          action.raisedBy ∈ tasks := by
        intro tasks same
        cases same
        exact raised
      rcases listed_or_reexecuted sound member _ inTree with listed | confirmed
      · rw [stepRun] at listed
        have waits := (stepActionEffect_waits _).mpr ⟨_, listed, unsettled⟩
        rw [attemptEffect, waits] at settled
        cases settled
      · rw [confirmed.1] at unsettled
        cases unsettled

theorem takesWork_opened {step : StepRun} (works : takesWork step.status = true) :
    step.status.closed = false := by
  cases status : step.status <;> rw [status] at works <;> first | rfl | cases works

/-- A step at rest is quiet. -/
theorem WorkSound.rests {goal : GoalRun} (sound : WorkSound goal) {step : StepRun}
    (member : step ∈ goal.stepRuns) {status : StepRunStatus} (rests : step.status = status)
    (opened : status.closed = false) (idle : takesWork status = false) :
    StepWork goal step ∧ Quiet goal step.id := by
  subst rests
  have work := sound step member opened
  refine ⟨work, work.quiet ?_⟩
  intro attempting
  rw [attempting.1] at idle
  cases idle

theorem WorkSound.revised {goal next : GoalRun} (sound : WorkSound goal) (rows : RowsSound goal)
    (revises : Revises goal next) : WorkSound next := by
  have later := revises.rows rows
  obtain ⟨⟨change, added, stepRuns, each, _ids, fresh⟩, settles, tasks⟩ := revises
  intro step member opened
  rw [stepRuns] at member
  rcases List.mem_append.mp member with old | new
  · obtain ⟨before, inOld, rfl⟩ := List.mem_map.mp old
    rcases (each before inOld).2 with same | closed
    · rw [same] at opened ⊢
      exact (sound before inOld opened).settles settles
    · rw [closed] at opened
      cases opened
  · obtain ⟨pending, beyond⟩ := fresh step new
    have inNext : step ∈ next.stepRuns := by
      rw [stepRuns]
      exact List.mem_append_right _ new
    obtain ⟨ended, confirmed⟩ := later.unstarted step inNext (.inl pending)
    have quiet : Quiet next step.id :=
      ⟨ended, fun action inActions stepRun => (confirmed action inActions stepRun).1⟩
    refine ⟨?_, quiet.attemptOnly, fun _idle => quiet⟩
    intro task inTasks stepRun
    rw [tasks] at inTasks
    have bound := rows.taskSteps task inTasks _ stepRun
    omega

theorem RowsEffect.works {goal next : GoalRun} {advance : Advance} (sound : RowsSound goal)
    (knows : AdvanceSound goal advance) (work : WorkSound goal)
    (effect : RowsEffect goal advance next) : WorkSound next := by
  cases effect with
  | stands rows => exact work.same rows
  | records step row member seen takes moved recorded =>
      have before := work step member (takesWork_opened takes)
      refine work.moved moved (before.row moved.id recorded.1 ?_)
      intro idle
      obtain ⟨_attempts, held | ⟨_past, acceptance | judged⟩⟩ := recorded
      · refine absurd ⟨?_, held.2⟩ idle
        rw [held.1]
        rfl
      · exact before.quiet fun attempting => attempting.2 acceptance
      · exact judged.quiet sound (knows.tasksSeen (.inl seen)) before.only
  | retries step row member seen moves none settled known =>
      obtain ⟨before, quiet⟩ := work.rests member (retry_edge _ moves.edge rfl).1 rfl rfl
      exact work.moved moves.rows
        (before.row moves.rows.id (moves.attemptCount nofun) fun _idle => quiet)
  | unblocks step row member moves =>
      obtain ⟨before, quiet⟩ := work.rests member (unblock_edge _ moves.edge rfl).1 rfl rfl
      exact work.moved moves.rows
        (before.row moves.rows.id (moves.attemptCount nofun) fun _idle => quiet)
  | starts step row task rest member point fresh moves attempts =>
      obtain ⟨ready, running⟩ := start_edge _ moves.edge rfl
      obtain ⟨before, quiet⟩ := work.rests member ready rfl rfl
      have settles : WorkSettles (goal.withTask (attemptTask step task)) next :=
        WorkSettles.of_same moves.rows.tasks moves.rows.actions
      intro other inNext opened
      rcases moves.rows.mem inNext with rfl | ⟨inOld, different⟩
      · exact (quiet.started before.attempts moves.rows.id attempts running).settles settles
      · refine ((work other inOld opened).withTask ?_).settles settles
        intro same
        exact different (Option.some.inj same).symm
  | plans task fresh rows =>
      have added : WorkSound (goal.withTask (plannerTask task)) :=
        fun other member opened => (work other member opened).withTask nofun
      exact added.same rows
  | revises revised => exact work.revised sound revised

/-- The Task whose Worker raises a request or calls another. -/
def RunLabel.caller : RunLabel → Option Nat
  | .requests caller _ _ _ _ | .invokes caller _ => some caller
  | _ => none

/-- Requests and nested Tasks come from Workers whose Task is live. -/
def raisedByLive (goal : GoalRun) (label : RunLabel) : Prop :=
  (label.caller.all fun caller => (goal.findTask caller).any fun task => task.live) = true

instance (goal : GoalRun) (label : RunLabel) : Decidable (raisedByLive goal label) :=
  inferInstanceAs (Decidable (_ = true))

/-- The live Task that calls, and the step it calls for. -/
theorem caller_of_live {goal : GoalRun} {caller : Nat} {step : StepRun}
    (locked : lockGoalStepForNewWork goal caller = some step)
    (live : ((goal.findTask caller).any fun task => task.live) = true) :
    ∃ task ∈ goal.tasks, task.id = caller ∧ task.stepRun = some step.id ∧ task.live = true := by
  obtain ⟨⟨task, found, ofStep⟩, _member, _none, _works⟩ := lockGoalStepForNewWork_some locked
  rw [found, Option.any_some] at live
  exact ⟨task, List.mem_of_find?_eq_some found, by simpa using List.find?_some found, ofStep, live⟩

theorem runStep_works {goal next : GoalRun} {label : RunLabel} (sound : RunSound goal)
    (work : WorkSound goal) (permitted : raisedByLive goal label)
    (moved : runStep goal label = some next) : WorkSound next := by
  have environment : label.settles = true → WorkSound next := by
    intro asked
    obtain ⟨settles, stepRuns, _course⟩ := settlingStep sound.rows moved asked
    exact work.settles settles stepRuns
  cases label with
  | taskEnds task outcome => exact environment rfl
  | actionMoves action event kind => exact environment rfl
  | reconciles action verdict => exact environment rfl
  | decidesReexecute action => exact environment rfl
  | checkSettles round key status => exact work.same (settleCheck_same moved)
  | requests task action requestedAt identity resolved =>
      obtain ⟨step, row, locked, rfl, _fresh, stepRun, raised, _opened⟩ :=
        requestStepAction_some moved
      obtain ⟨caller, inTasks, rfl, ofStep, live⟩ := caller_of_live locked permitted
      have member := (lockGoalStepForNewWork_some locked).2.1
      intro other inSteps opened
      by_cases same : step.id = other.id
      · rw [sound.rows.step_eq member inSteps same] at ofStep
        exact (work other inSteps opened).requested inTasks ofStep live raised
      · exact (work other inSteps opened).withRequest fun named => same (stepRun.symm.trans named)
  | invokes caller task =>
      obtain ⟨step, locked, rfl⟩ := invokeNested_some moved
      obtain ⟨called, inTasks, rfl, ofStep, live⟩ := caller_of_live locked permitted
      have member := (lockGoalStepForNewWork_some locked).2.1
      intro other inSteps opened
      by_cases same : step.id = other.id
      · rw [sound.rows.step_eq member inSteps same] at ofStep ⊢
        exact (work other inSteps opened).invoked inTasks ofStep live task
      · exact (work other inSteps opened).withTask fun named => same (Option.some.inj named)
  | advances now => exact work.same (beginAdvance_same moved)
  | statement oracle =>
      obtain ⟨advance, under, ran⟩ := Option.bind_eq_some_iff.mp moved
      exact (advanceStatement_effect ran).1.works sound.rows (sound.advance advance under) work
  | resumes now retrySteps =>
      obtain ⟨_none, _paused, retried, folded, _idle, resumed⟩ := resumeGoalRun_some moved
      have kept : WorkSound retried := by
        refine retries_keep WorkSound ?_ work folded
        intro before id after kept step
        obtain ⟨origin, row, member, moves, _rest⟩ := retryByPerson_cases step
        obtain ⟨failed, quiet⟩ := kept.rests member (retry_edge _ moves.edge rfl).1 rfl rfl
        exact kept.moved moves.rows
          (failed.row moves.rows.id (moves.attemptCount nofun) fun _idle => quiet)
      exact kept.same (moveGoal_same resumed)
  | revises now plan revision keep =>
      unfold runStep reviseGoalRun at moved
      dsimp only at moved
      split at moved
      · cases moved
      · exact work.revised sound.rows (adoptRevision_revises moved).1
  | pauses now =>
      unfold runStep at moved
      dsimp only at moved
      split at moved
      · cases moved
      · exact work.same (moveGoal_same moved)
  | cancels now => exact work.revised sound.rows (cancelGoalRun_revises moved).1
  | finishesCancel now =>
      unfold runStep at moved
      dsimp only at moved
      split at moved
      · cases moved
      · exact work.same (moveGoal_same moved)

theorem confirmedRun_works (plan : GoalPlan) (statement : String) (now : Int) :
    WorkSound (confirmedRun plan statement now) := by
  intro step _member _opened
  have quiet : Quiet (confirmedRun plan statement now) step.id :=
    ⟨List.forall_mem_nil _, List.forall_mem_nil _⟩
  exact ⟨List.forall_mem_nil _, quiet.attemptOnly, fun _idle => quiet⟩

end NextTime.Goal
