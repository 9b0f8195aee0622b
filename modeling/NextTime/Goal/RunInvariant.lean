import NextTime.Goal.StatementEffect

/-
What an advance knows at each of its statements, and why no other step of the run
can take it away: under its locks nothing new enters a step, and what it saw ended
or settled stays so.
-/

namespace NextTime.Goal

open NextTime.Approval

/-- No Task of the step is live and no request of it is unsettled. -/
def Quiet (goal : GoalRun) (id : Nat) : Prop :=
  TasksEnded goal id ∧ ActionsSettled goal id

/-- Every live Task was live when the advance read them. -/
def TasksSeen (goal : GoalRun) (advance : Advance) : Prop :=
  ∀ task ∈ goal.tasks, task.live = true →
    ∃ seen ∈ advance.liveTasks, seen.stepRun = task.stepRun

/-- A live Task it did not see is an attempt it has started itself. -/
def TasksSeenOrStarted (goal : GoalRun) (advance : Advance) : Prop :=
  ∀ task ∈ goal.tasks, task.live = true →
    (∃ seen ∈ advance.liveTasks, seen.stepRun = task.stepRun) ∨
      ∃ step ∈ goal.stepRuns, task.stepRun = some step.id ∧ step.status = .running

/-- Of the superseded steps it has looked at, every unsettled request was in flight then. -/
def DoubtsSeen (goal : GoalRun) (advance : Advance) (todo : List Nat) : Prop :=
  ∀ step ∈ goal.stepRuns, step.status = .superseded → step.id ∉ todo →
    ∀ action ∈ goal.actions, action.stepRun = step.id → action.unsettled = true →
      action.id ∈ advance.inFlightSeen

/-- Of the superseded steps it has looked at, one is busy or all have settled. -/
def SupersededSettled (goal : GoalRun) (todo : List Nat) (busy : Bool) : Prop :=
  ∀ step ∈ goal.stepRuns, step.status = .superseded → step.id ∉ todo →
    busy = true ∨ ActionsSettled goal step.id

/-- The same of those whose key the step took over, Tasks included. -/
def PredecessorsSeen (goal : GoalRun) (id : Nat) (todo : List Nat) (busy : Bool) : Prop :=
  ∀ step, goal.findStep id = some step → ∀ before ∈ goal.stepRuns,
    before.status = .superseded → before.stepKey = step.stepKey → before.id ∉ todo →
      busy = true ∨ Quiet goal before.id

def AdvanceSound (goal : GoalRun) (advance : Advance) : Prop :=
  match advance.point with
  | .verifies => goal.status = .verifying
  | .stuck | .planning | .done => True
  | .records _ | .retries _ | .unblocks _ | .baselines | .limits => TasksSeen goal advance
  | .settles todo busy =>
      TasksSeen goal advance ∧ SupersededSettled goal todo busy ∧ everyStepDone goal = true
  | .doubts todo => TasksSeen goal advance ∧ DoubtsSeen goal advance todo
  | .quota => TasksSeen goal advance ∧ DoubtsSeen goal advance []
  | .starts _ => TasksSeenOrStarted goal advance ∧ DoubtsSeen goal advance []
  | .predecessors id todo busy _ =>
      TasksSeenOrStarted goal advance ∧ DoubtsSeen goal advance [] ∧
        PredecessorsSeen goal id todo busy
  | .attempt id _ =>
      TasksSeenOrStarted goal advance ∧ DoubtsSeen goal advance [] ∧
        PredecessorsSeen goal id [] false

structure RunSound (goal : GoalRun) : Prop where
  rows : RowsSound goal
  advance : ∀ advance, goal.advance = some advance → AdvanceSound goal advance

/-! ### What the reads of requests say of every request -/

/-- A request left out of the read was decided to run again: it is settled. -/
theorem listed_or_reexecuted {goal : GoalRun} (sound : RowsSound goal) {action : StepAction}
    (member : action ∈ goal.actions) (raisedBy : Option (List Nat))
    (raised : ∀ tasks, raisedBy = some tasks → action.raisedBy ∈ tasks) :
    action.toActionOutcomeColumns ∈ listStepActionOutcomes goal.actions action.stepRun raisedBy ∨
      action.confirmed := by
  by_cases hidden : action.reexecuted = true ∧
      (goal.actions.any fun newer => newer.newerThan action) = true
  · obtain ⟨status, kind, finding⟩ := sound.actions action member hidden.1
    have disposed : actionDisposition action.toActionOutcomeColumns = .retry := by
      simp [actionDisposition, status, kind, finding, hidden.1]
    exact .inr (by simp [ActionOutcomeColumns.confirmed, ActionOutcomeColumns.unsettled, disposed])
  · refine .inl (List.mem_map.mpr ⟨action, List.mem_filter.mpr ⟨member, ?_⟩, rfl⟩)
    have shown : (!(action.reexecuted && goal.actions.any fun newer => newer.newerThan action)) =
        true := by
      cases reexecuted : action.reexecuted with
      | false => rfl
      | true =>
          cases newer : goal.actions.any fun newer => newer.newerThan action with
          | false => rfl
          | true => exact absurd ⟨reexecuted, newer⟩ hidden
    rw [shown]
    cases raisedBy with
    | none => simp
    | some tasks => simpa using raised tasks rfl

theorem effectOf_settled {goal : GoalRun} (sound : RowsSound goal) {step : StepRun}
    (settled : (effectOf goal step).waits = false) : ActionsSettled goal step.id := by
  intro action member stepRun
  rcases listed_or_reexecuted sound member none nofun with listed | confirmed
  · rw [stepRun] at listed
    cases unsettled : action.unsettled with
    | false => rfl
    | true =>
        have waits := (stepActionEffect_waits _).mpr ⟨_, listed, unsettled⟩
        rw [effectOf, waits] at settled
        cases settled
  · exact confirmed.1

theorem effectOf_confirmed {goal : GoalRun} (sound : RowsSound goal) {step : StepRun}
    (settled : (effectOf goal step).waits = false)
    (known : effectOf goal step ≠ .fail .outcomeUnknown) : ActionsConfirmed goal step.id := by
  intro action member stepRun
  rcases listed_or_reexecuted sound member none nofun with listed | confirmed
  · rw [stepRun] at listed
    exact stepActionEffect_confirmed settled known _ listed
  · exact confirmed

/-- Looking finds no doubt, so what is unsettled is in flight. -/
theorem inFlight_of_noDoubt {goal : GoalRun} (sound : RowsSound goal) {step : StepRun}
    (noDoubt : effectOf goal step ≠ .waitReconcile) {action : StepAction}
    (member : action ∈ goal.actions) (stepRun : action.stepRun = step.id)
    (unsettled : action.unsettled = true) : action.id ∈ inFlightOf goal step.id := by
  rcases listed_or_reexecuted sound member none nofun with listed | confirmed
  · rw [stepRun] at listed
    have notReconcile : actionDisposition action.toActionOutcomeColumns ≠ .reconcile := by
      intro reconcile
      exact noDoubt ((stepActionEffect_reconcile _).mpr ⟨_, listed, reconcile⟩)
    have flight : actionDisposition action.toActionOutcomeColumns = .inFlight := by
      simp only [ActionOutcomeColumns.unsettled, Bool.or_eq_true, beq_iff_eq] at unsettled
      exact unsettled.resolve_right notReconcile
    exact List.mem_map.mpr ⟨action, List.mem_filter.mpr ⟨member, by simp [stepRun, flight]⟩, rfl⟩
  · rw [confirmed.1] at unsettled
    cases unsettled

/-! ### What other steps leave of what the advance knows -/

theorem AdvanceSound.same {goal other : GoalRun} {advance : Advance}
    (sound : AdvanceSound goal advance) (same : SameRows goal other)
    (status : other.status = goal.status) : AdvanceSound other advance := by
  obtain ⟨stepRuns, tasks, actions⟩ := same
  unfold AdvanceSound TasksSeen TasksSeenOrStarted DoubtsSeen SupersededSettled PredecessorsSeen
    Quiet TasksEnded ActionsSettled everyStepDone GoalRun.findStep GoalRun.liveSteps at *
  simpa only [stepRuns, tasks, actions, status] using sound

theorem TasksSeen.settles {goal next : GoalRun} {advance : Advance}
    (seen : TasksSeen goal advance) (settles : WorkSettles goal next) : TasksSeen next advance := by
  obtain ⟨change, tasks, each⟩ := settles.tasks
  intro task member live
  rw [tasks] at member
  obtain ⟨old, inOld, rfl⟩ := List.mem_map.mp member
  have settled := each old inOld
  rw [settled.stepRun]
  exact seen old inOld (settled.live live)

theorem TasksSeenOrStarted.settles {goal next : GoalRun} {advance : Advance}
    (seen : TasksSeenOrStarted goal advance) (settles : WorkSettles goal next)
    (stepRuns : next.stepRuns = goal.stepRuns) : TasksSeenOrStarted next advance := by
  obtain ⟨change, tasks, each⟩ := settles.tasks
  intro task member live
  rw [tasks] at member
  obtain ⟨old, inOld, rfl⟩ := List.mem_map.mp member
  have settled := each old inOld
  rw [settled.stepRun, stepRuns]
  exact seen old inOld (settled.live live)

theorem DoubtsSeen.settles {goal next : GoalRun} {advance : Advance} {todo : List Nat}
    (seen : DoubtsSeen goal advance todo) (settles : WorkSettles goal next)
    (stepRuns : next.stepRuns = goal.stepRuns) : DoubtsSeen next advance todo := by
  obtain ⟨change, actions, each⟩ := settles.actions
  intro step inSteps superseded notTodo action member stepRun unsettled
  rw [stepRuns] at inSteps
  rw [actions] at member
  obtain ⟨old, inOld, rfl⟩ := List.mem_map.mp member
  have settled := each old inOld
  rw [settled.id]
  apply seen step inSteps superseded notTodo old inOld (settled.stepRun.symm.trans stepRun)
  cases was : old.unsettled with
  | true => rfl
  | false =>
      rw [settled.settled was] at unsettled
      cases unsettled

theorem WorkSettles.quiet {goal next : GoalRun} (settles : WorkSettles goal next) {id : Nat}
    (quiet : Quiet goal id) : Quiet next id :=
  ⟨settles.tasksEnded quiet.1, settles.actionsSettled quiet.2⟩

theorem PredecessorsSeen.settles {goal next : GoalRun} {id : Nat} {todo : List Nat} {busy : Bool}
    (seen : PredecessorsSeen goal id todo busy) (settles : WorkSettles goal next)
    (stepRuns : next.stepRuns = goal.stepRuns) : PredecessorsSeen next id todo busy := by
  intro step found before inSteps superseded key notTodo
  unfold GoalRun.findStep at found
  rw [stepRuns] at found inSteps
  rcases seen step found before inSteps superseded key notTodo with held | quiet
  · exact .inl held
  · exact .inr (settles.quiet quiet)

theorem SupersededSettled.settles {goal next : GoalRun} {todo : List Nat} {busy : Bool}
    (seen : SupersededSettled goal todo busy) (settles : WorkSettles goal next)
    (stepRuns : next.stepRuns = goal.stepRuns) : SupersededSettled next todo busy := by
  intro step inSteps superseded notTodo
  rw [stepRuns] at inSteps
  rcases seen step inSteps superseded notTodo with held | settled
  · exact .inl held
  · exact .inr (settles.actionsSettled settled)

theorem AdvanceSound.settles {goal next : GoalRun} {advance : Advance}
    (sound : AdvanceSound goal advance) (settles : WorkSettles goal next)
    (stepRuns : next.stepRuns = goal.stepRuns) (status : next.status = goal.status) :
    AdvanceSound next advance := by
  have done : everyStepDone next = everyStepDone goal := by
    unfold everyStepDone GoalRun.liveSteps
    rw [stepRuns]
  unfold AdvanceSound at *
  cases point : advance.point with
  | settles todo busy =>
      rw [point] at sound
      exact ⟨sound.1.settles settles, sound.2.1.settles settles stepRuns, done.trans sound.2.2⟩
  | doubts todo =>
      rw [point] at sound
      exact ⟨sound.1.settles settles, sound.2.settles settles stepRuns⟩
  | quota =>
      rw [point] at sound
      exact ⟨sound.1.settles settles, sound.2.settles settles stepRuns⟩
  | starts todo =>
      rw [point] at sound
      exact ⟨sound.1.settles settles stepRuns, sound.2.settles settles stepRuns⟩
  | predecessors id todo busy rest =>
      rw [point] at sound
      exact ⟨sound.1.settles settles stepRuns, sound.2.1.settles settles stepRuns,
        sound.2.2.settles settles stepRuns⟩
  | attempt id rest =>
      rw [point] at sound
      exact ⟨sound.1.settles settles stepRuns, sound.2.1.settles settles stepRuns,
        sound.2.2.settles settles stepRuns⟩
  | verifies =>
      rw [point] at sound
      exact status.trans sound
  | stuck => trivial
  | planning => trivial
  | done => trivial
  | records todo | retries todo | unblocks todo | baselines | limits =>
      rw [point] at sound
      exact TasksSeen.settles sound settles

/-! ### The rows after a statement -/

/-- With the live Tasks known, a step none of them is of has no live Task. -/
theorem TasksSeen.ended {goal : GoalRun} {advance : Advance} (seen : TasksSeen goal advance)
    {step : StepRun} (none : liveTasksOf advance step = []) : TasksEnded goal step.id := by
  intro task member stepRun
  cases live : task.live with
  | false => rfl
  | true =>
      obtain ⟨other, listed, same⟩ := seen task member live
      have kept : other ∈ liveTasksOf advance step :=
        List.mem_filter.mpr ⟨listed, by simp [same, stepRun]⟩
      rw [none] at kept
      cases kept

theorem AdvanceSound.tasksSeen {goal : GoalRun} {advance : Advance}
    (sound : AdvanceSound goal advance)
    (early : (∃ todo, advance.point = .records todo) ∨ ∃ todo, advance.point = .retries todo) :
    TasksSeen goal advance := by
  unfold AdvanceSound at sound
  rcases early with ⟨todo, point⟩ | ⟨todo, point⟩
  · rw [point] at sound
    exact sound
  · rw [point] at sound
    exact sound

theorem Recorded.started {goal : GoalRun} {advance : Advance} {step row : StepRun}
    (recorded : Recorded goal advance step row) : ¬ row.unstarted := by
  have past : row.status = .waiting ∨ row.status = .succeeded ∨ row.status = .failed := by
    obtain ⟨_attempts, ⟨waiting, _held⟩ | ⟨acceptance | ended, _past⟩⟩ := recorded
    · exact .inl waiting
    · exact .inl acceptance.1
    · exact .inr ended
  rintro (pending | ready)
  · simp [pending] at past
  · simp [ready] at past

theorem RowsEffect.rows {goal next : GoalRun} {advance : Advance} (sound : RowsSound goal)
    (knows : AdvanceSound goal advance) (effect : RowsEffect goal advance next) :
    RowsSound next := by
  cases effect with
  | stands rows => exact sound.same rows
  | records step row member seen works moved recorded =>
      exact sound.moved moved fun unstarted => absurd unstarted recorded.started
  | retries step row member seen moves none settled known =>
      have ended := (knows.tasksSeen (.inr seen)).ended none
      exact sound.moved moves.rows fun _ready => ⟨ended, effectOf_confirmed sound settled known⟩
  | unblocks step row member moves =>
      have pending := (unblock_edge _ moves.edge rfl).1
      exact sound.moved moves.rows fun _ready => sound.unstarted step member (.inl pending)
  | starts step row task rest member point fresh moves attempts =>
      have running : row.status = .running := (start_edge _ moves.edge rfl).2
      have started : ¬ row.unstarted := by
        rintro (pending | ready)
        · simp [running] at pending
        · simp [running] at ready
      -- the step moves before its Task is there, so that no step waits beside a live Task
      have moved : StepMoved goal step row { next with tasks := goal.tasks } :=
        ⟨moves.rows.stepRuns, rfl, moves.rows.actions, moves.rows.id, moves.rows.stepKey⟩
      have later := sound.moved moved fun unstarted => absurd unstarted started
      have entered : RowsSound
          (GoalRun.withTask { next with tasks := goal.tasks } (attemptTask step task)) := by
        refine later.withTask ?_
        intro id stepRun
        refine ⟨row, ?_, moves.rows.id.trans (Option.some.inj stepRun), started⟩
        rw [moves.rows.stepRuns]
        exact List.mem_map.mpr ⟨step, member, if_pos moves.rows.id.symm⟩
      exact entered.same ⟨rfl, moves.rows.tasks, rfl⟩
  | plans task fresh rows =>
      refine (sound.withTask ?_).same rows
      intro id ofStep
      cases ofStep
  | revises revised => exact revised.rows sound

/-! ### What the advance knows after a statement -/

theorem TasksSeen.kept {goal next : GoalRun} {advance : Advance} (seen : TasksSeen goal advance)
    (tasks : next.tasks = goal.tasks) : TasksSeen next advance := by
  unfold TasksSeen
  rw [tasks]
  exact seen

theorem TasksSeen.orStarted {goal : GoalRun} {advance : Advance} (seen : TasksSeen goal advance) :
    TasksSeenOrStarted goal advance :=
  fun task member live => .inl (seen task member live)

/-- A superseded step no live Task was seen of has none: what the advance itself
started is running. -/
theorem TasksSeenOrStarted.ended {goal : GoalRun} {advance : Advance} (sound : RowsSound goal)
    (seen : TasksSeenOrStarted goal advance) {step : StepRun} (member : step ∈ goal.stepRuns)
    (stopped : step.status ≠ .running) (none : liveTasksOf advance step = []) :
    TasksEnded goal step.id := by
  intro task inTasks stepRun
  cases live : task.live with
  | false => rfl
  | true =>
      rcases seen task inTasks live with ⟨other, listed, same⟩ | ⟨other, inSteps, same, running⟩
      · have kept : other ∈ liveTasksOf advance step :=
          List.mem_filter.mpr ⟨listed, by simp [same, stepRun]⟩
        rw [none] at kept
        cases kept
      · rw [stepRun, Option.some.injEq] at same
        rw [sound.step_eq member inSteps same] at stopped
        exact absurd running stopped

/-- The superseded step the loop has just looked at joins those it has seen. -/
theorem DoubtsSeen.looked {goal : GoalRun} (sound : RowsSound goal) {advance : Advance}
    {step : StepRun} {todo : List Nat} (seen : DoubtsSeen goal advance (step.id :: todo))
    (noDoubt : effectOf goal step ≠ .waitReconcile) :
    DoubtsSeen goal
      { advance with inFlightSeen := advance.inFlightSeen ++ inFlightOf goal step.id } todo := by
  intro other inSteps superseded notTodo action member stepRun unsettled
  by_cases same : other.id = step.id
  · rw [same] at stepRun
    exact List.mem_append_right _ (inFlight_of_noDoubt sound noDoubt member stepRun unsettled)
  · have later : other.id ∉ step.id :: todo := by
      simp [same, notTodo]
    exact List.mem_append_left _ (seen other inSteps superseded later action member stepRun unsettled)

theorem SupersededSettled.looked {goal : GoalRun} (sound : RowsSound goal) {step : StepRun}
    {todo : List Nat} {busy : Bool} (seen : SupersededSettled goal (step.id :: todo) busy) :
    SupersededSettled goal todo (busy || (effectOf goal step).waits) := by
  intro other inSteps superseded notTodo
  by_cases same : other.id = step.id
  · cases waits : (effectOf goal step).waits with
    | true => exact .inl (by simp)
    | false =>
        rw [same]
        exact .inr (effectOf_settled sound waits)
  · have later : other.id ∉ step.id :: todo := by
      simp [same, notTodo]
    rcases seen other inSteps superseded later with held | settled
    · exact .inl (by simp [held])
    · exact .inr settled

theorem PredecessorsSeen.looked {goal : GoalRun} (sound : RowsSound goal) {advance : Advance}
    {id : Nat} {step : StepRun} {todo : List Nat} {busy : Bool}
    (tasks : TasksSeenOrStarted goal advance) (member : step ∈ goal.stepRuns)
    (seen : PredecessorsSeen goal id (step.id :: todo) busy) :
    PredecessorsSeen goal id todo
      (busy || !(liveTasksOf advance step).isEmpty || (effectOf goal step).waits) := by
  intro started found before inSteps superseded key notTodo
  by_cases same : before.id = step.id
  · cases waits : (effectOf goal step).waits with
    | true => exact .inl (by simp)
    | false =>
        by_cases none : liveTasksOf advance step = []
        · have stopped : step.status ≠ .running := by
            rw [← sound.step_eq inSteps member same, superseded]
            nofun
          rw [same]
          exact .inr ⟨tasks.ended sound member stopped none, effectOf_settled sound waits⟩
        · exact .inl (by simp [none])
  · have later : before.id ∉ step.id :: todo := by
      simp [same, notTodo]
    rcases seen started found before inSteps superseded key later with held | quiet
    · exact .inl (by simp [held])
    · exact .inr quiet

/-- The attempt the advance has just started is of a running step. -/
theorem TasksSeenOrStarted.started {goal next : GoalRun} {advance : Advance} {step row : StepRun}
    {task : Nat} (sound : RowsSound goal) (seen : TasksSeenOrStarted goal advance)
    (member : step ∈ goal.stepRuns)
    (moves : StepMoves (goal.withTask (attemptTask step task)) step .start row next) :
    TasksSeenOrStarted next advance := by
  obtain ⟨ready, running⟩ := start_edge _ moves.edge rfl
  have inNext : row ∈ next.stepRuns := by
    rw [moves.rows.stepRuns]
    exact List.mem_map.mpr ⟨step, member, if_pos moves.rows.id.symm⟩
  intro other inTasks live
  rw [moves.rows.tasks] at inTasks
  rcases List.mem_append.mp inTasks with old | new
  · rcases seen other old live with listed | ⟨origin, inSteps, named, runs⟩
    · exact .inl listed
    · refine .inr ⟨origin, ?_, named, runs⟩
      have different : origin.id ≠ row.id := by
        intro same
        rw [moves.rows.id] at same
        rw [sound.step_eq inSteps member same] at runs
        exact nomatch runs.symm.trans ready
      rw [moves.rows.stepRuns]
      exact List.mem_map.mpr ⟨origin, inSteps, if_neg different⟩
  · rw [List.mem_singleton] at new
    subst new
    exact .inr ⟨row, inNext, congrArg some moves.rows.id.symm, running⟩

theorem DoubtsSeen.started {goal next : GoalRun} {advance : Advance} {step row : StepRun}
    {task : Nat} {todo : List Nat} (seen : DoubtsSeen goal advance todo)
    (moves : StepMoves (goal.withTask (attemptTask step task)) step .start row next) :
    DoubtsSeen next advance todo := by
  obtain ⟨_ready, running⟩ := start_edge _ moves.edge rfl
  intro other inSteps superseded notTodo action member
  rw [moves.rows.actions] at member
  rcases moves.rows.mem inSteps with rfl | ⟨inOld, _different⟩
  · exact nomatch running.symm.trans superseded
  · exact seen other inOld superseded notTodo action member

end NextTime.Goal
