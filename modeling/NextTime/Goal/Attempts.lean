import NextTime.Goal.RunInvariant

/-
An attempt of a step starts alone: whatever happens between the reads of an
advance, it never starts beside work of the step or of a step it replaces.
-/

namespace NextTime.Goal

open NextTime.Approval

/-! ### What an advance knows at its next statement -/

theorem AdvanceSound.goesTo {goal : GoalRun} {advance : Advance} {point : AdvancePoint}
    (sound : AdvanceSound goal { advance with point := point }) :
    ∀ later, (goal.goesTo advance point).advance = some later →
      AdvanceSound (goal.goesTo advance point) later := by
  intro later named
  cases named
  exact sound.same (goesTo_same goal advance point) rfl

theorem leaveStarts_knows {goal next : GoalRun} {advance : Advance}
    (left : leaveStarts goal advance = some next) :
    ∀ later, next.advance = some later → AdvanceSound next later := by
  cases left
  exact AdvanceSound.goesTo trivial

theorem RecordStep.tasks {goal next : GoalRun} {advance : Advance} {step : StepRun}
    (recorded : RecordStep goal advance step next) : next.tasks = goal.tasks := by
  rcases recorded with stays | ⟨row, moved, _past, _kept⟩
  · exact stays.tasks
  · exact moved.tasks

theorem RetryStep.tasks {goal next : GoalRun} {advance : Advance} {step : StepRun}
    (retried : RetryStep goal advance step next) : next.tasks = goal.tasks := by
  rcases retried with stays | ⟨row, moves, _guards⟩
  · exact stays.tasks
  · exact moves.rows.tasks

theorem unblockStep_tasks {goal next : GoalRun} {advance : Advance} {step : StepRun}
    (ran : unblockStep goal advance step = some next) : next.tasks = goal.tasks := by
  rcases unblockStep_cases ran with stays | ⟨row, moves⟩
  · exact stays.tasks
  · exact moves.rows.tasks

theorem mem_supersededIds {goal : GoalRun} {step : StepRun} (member : step ∈ goal.stepRuns)
    (superseded : step.status = .superseded) : step.id ∈ goal.supersededIds :=
  List.mem_map_of_mem (List.mem_filter.mpr ⟨member, by simp [superseded]⟩)

theorem mem_predecessorIds {goal : GoalRun} {step : StepRun} {key : String}
    (member : step ∈ goal.stepRuns) (superseded : step.status = .superseded)
    (same : step.stepKey = key) : step.id ∈ goal.predecessorIds key :=
  List.mem_map_of_mem (List.mem_filter.mpr ⟨member, by simp [superseded, same]⟩)

theorem advanceStatement_knows {goal next : GoalRun} {advance : Advance} {oracle : Oracle}
    (sound : RowsSound goal) (knows : AdvanceSound goal advance)
    (ran : advanceStatement goal advance oracle = some next) :
    ∀ later, next.advance = some later → AdvanceSound next later := by
  unfold advanceStatement at ran
  unfold AdvanceSound at knows
  cases point : advance.point with
  | verifies =>
      simp only [point] at ran
      obtain ⟨judged, _verified, rfl⟩ := Option.map_eq_some_iff.mp ran
      exact AdvanceSound.goesTo trivial
  | records todo =>
      simp only [point] at knows
      cases todo with
      | nil =>
          simp only [point] at ran
          cases ran
          exact AdvanceSound.goesTo knows
      | cons id todo =>
          simp only [point] at ran
          obtain ⟨step, found, ran⟩ := Option.bind_eq_some_iff.mp ran
          split at ran
          · obtain ⟨after, recorded, ran⟩ := Option.bind_eq_some_iff.mp ran
            cases ran
            exact AdvanceSound.goesTo (knows.kept (recordAttempt_recorded recorded).tasks)
          · cases ran
            exact AdvanceSound.goesTo knows
  | retries todo =>
      simp only [point] at knows
      cases todo with
      | nil =>
          simp only [point] at ran
          cases ran
          exact AdvanceSound.goesTo knows
      | cons id todo =>
          simp only [point] at ran
          split at ran
          · cases ran
            exact AdvanceSound.goesTo knows
          · obtain ⟨step, found, ran⟩ := Option.bind_eq_some_iff.mp ran
            obtain ⟨after, retried, ran⟩ := Option.bind_eq_some_iff.mp ran
            cases ran
            exact AdvanceSound.goesTo (knows.kept (retryFailed_cases retried).tasks)
  | unblocks todo =>
      simp only [point] at knows
      cases todo with
      | nil =>
          simp only [point] at ran
          cases ran
          by_cases running : goal.status = .running
          · rw [if_pos running]
            exact AdvanceSound.goesTo knows
          · rw [if_neg running]
            exact AdvanceSound.goesTo trivial
      | cons id todo =>
          simp only [point] at ran
          obtain ⟨step, found, ran⟩ := Option.bind_eq_some_iff.mp ran
          obtain ⟨after, unblocked, ran⟩ := Option.bind_eq_some_iff.mp ran
          cases ran
          exact AdvanceSound.goesTo (knows.kept (unblockStep_tasks unblocked))
  | baselines =>
      simp only [point] at ran knows
      split at ran
      · exact leaveStarts_knows ran
      · exact leaveStarts_knows ran
      · cases ran
        by_cases allDone : everyStepDone goal = true
        · rw [if_pos allDone]
          refine AdvanceSound.goesTo ⟨knows, ?_, allDone⟩
          intro step member superseded notTodo
          exact absurd (mem_supersededIds member superseded) notTodo
        · rw [if_neg allDone]
          exact AdvanceSound.goesTo knows
  | settles todo busy =>
      simp only [point] at knows
      cases todo with
      | nil =>
          simp only [point] at ran
          split at ran
          · exact leaveStarts_knows ran
          · obtain ⟨verifying, _entered, ran⟩ := Option.bind_eq_some_iff.mp ran
            obtain ⟨opened, _verified, ran⟩ := Option.bind_eq_some_iff.mp ran
            cases ran
            exact AdvanceSound.goesTo trivial
      | cons id todo =>
          simp only [point] at ran
          obtain ⟨step, found, looked⟩ := Option.bind_eq_some_iff.mp ran
          obtain ⟨_member, rfl⟩ := findStep_some found
          split at looked
          · exact leaveStarts_knows looked
          · cases looked
            exact AdvanceSound.goesTo ⟨knows.1, knows.2.1.looked sound, knows.2.2⟩
  | limits =>
      simp only [point] at ran knows
      split at ran
      · exact leaveStarts_knows ran
      · exact leaveStarts_knows ran
      · split at ran
        · exact leaveStarts_knows ran
        · cases ran
          refine AdvanceSound.goesTo ⟨knows, ?_⟩
          intro step member superseded notTodo
          exact absurd (mem_supersededIds member superseded) notTodo
  | doubts todo =>
      simp only [point] at knows
      cases todo with
      | nil =>
          simp only [point] at ran
          cases ran
          exact AdvanceSound.goesTo knows
      | cons id todo =>
          simp only [point] at ran
          obtain ⟨step, found, looked⟩ := Option.bind_eq_some_iff.mp ran
          obtain ⟨_member, rfl⟩ := findStep_some found
          split at looked
          · exact leaveStarts_knows looked
          next noDoubt =>
            cases looked
            exact AdvanceSound.goesTo ⟨knows.1, knows.2.looked sound noDoubt⟩
  | quota =>
      simp only [point] at ran knows
      split at ran
      · exact leaveStarts_knows ran
      · exact leaveStarts_knows ran
      · cases ran
        exact AdvanceSound.goesTo ⟨knows.1.orStarted, knows.2⟩
  | starts todo =>
      simp only [point] at knows
      cases todo with
      | nil =>
          simp only [point] at ran
          exact leaveStarts_knows ran
      | cons id rest =>
          simp only [point] at ran
          split at ran
          · exact leaveStarts_knows ran
          · obtain ⟨step, found, ran⟩ := Option.bind_eq_some_iff.mp ran
            cases ran
            refine AdvanceSound.goesTo ⟨knows.1, knows.2, ?_⟩
            intro started foundAgain before member superseded key notTodo
            cases Option.some.inj (found.symm.trans foundAgain)
            exact absurd (mem_predecessorIds member superseded key) notTodo
  | predecessors id todo busy rest =>
      simp only [point] at knows
      cases todo with
      | nil =>
          simp only [point] at ran
          cases ran
          cases busy with
          | true => exact AdvanceSound.goesTo ⟨knows.1, knows.2.1⟩
          | false => exact AdvanceSound.goesTo knows
      | cons before todo =>
          simp only [point] at ran
          obtain ⟨step, found, looked⟩ := Option.bind_eq_some_iff.mp ran
          obtain ⟨member, rfl⟩ := findStep_some found
          split at looked
          · exact leaveStarts_knows looked
          · cases looked
            exact AdvanceSound.goesTo ⟨knows.1, knows.2.1, knows.2.2.looked sound knows.1 member⟩
  | attempt id rest =>
      simp only [point] at ran knows
      obtain ⟨step, found, tried⟩ := Option.bind_eq_some_iff.mp ran
      split at tried
      · exact leaveStarts_knows tried
      split at tried
      · cases tried
        exact AdvanceSound.goesTo ⟨knows.1, knows.2.1⟩
      · exact leaveStarts_knows tried
      · exact leaveStarts_knows tried
      · obtain ⟨after, started, rfl⟩ := Option.map_eq_some_iff.mp tried
        obtain ⟨_fresh, row, moves, _attempts⟩ := startAttempt_cases started
        exact AdvanceSound.goesTo ⟨knows.1.started sound (findStep_some found).1 moves,
          knows.2.1.started moves⟩
  | stuck =>
      simp only [point] at ran
      cases ran
      exact AdvanceSound.goesTo trivial
  | planning =>
      simp only [point] at ran
      split at ran
      · cases ran
        exact AdvanceSound.goesTo trivial
      · cases ran
        exact AdvanceSound.goesTo trivial
      · split at ran
        · cases ran
          exact AdvanceSound.goesTo trivial
        · cases ran
      · split at ran
        · obtain ⟨adopted, _revised, rfl⟩ := Option.map_eq_some_iff.mp ran
          exact AdvanceSound.goesTo trivial
        · cases ran
  | done =>
      simp only [point] at ran
      cases ran
      nofun

/-! ### Every step of the run -/

theorem moveGoal_advance {goal next : GoalRun} {event : GoalRunEvent}
    {reason : Option GoalRunPauseReason} {now : Int}
    (moved : goal.moveGoal event reason now = some next) : next.advance = goal.advance := by
  obtain ⟨status, _edge, rfl⟩ := Option.map_eq_some_iff.mp moved
  rfl

theorem RunSound.idle {goal : GoalRun} (rows : RowsSound goal) (none : goal.advance = none) :
    RunSound goal := by
  refine ⟨rows, ?_⟩
  intro advance under
  rw [none] at under
  cases under

theorem settleCheck_course {goal next : GoalRun} {round : Nat} {key : String}
    {status : GoalAcceptanceCheckStatus} (settled : settleCheck goal round key status = some next) :
    next.status = goal.status ∧ next.advance = goal.advance := by
  unfold settleCheck at settled
  split at settled
  · cases settled
    exact ⟨rfl, rfl⟩
  · cases settled

theorem beginAdvance_knows {goal next : GoalRun} {now : Int}
    (began : beginAdvance goal now = some next) :
    ∀ later, next.advance = some later → AdvanceSound next later := by
  unfold beginAdvance at began
  dsimp only at began
  split at began
  · cases began
  split at began
  next verifying =>
    cases began
    intro later named
    cases named
    exact verifying
  split at began
  · cases began
    intro later named
    cases named
    intro task member live
    exact ⟨task, List.mem_filter.mpr ⟨member, live⟩, rfl⟩
  · cases began

theorem retryByPerson_sound {goal next : GoalRun} {id : Nat}
    (sound : RowsSound goal) (retried : retryByPerson goal id = some next) : RowsSound next := by
  obtain ⟨step, row, member, moves, ended, settled, known, _advance⟩ :=
    retryByPerson_cases retried
  refine sound.moved moves.rows fun _ready => ⟨ended, ?_⟩
  intro action inActions stepRun
  rcases listed_or_reexecuted sound inActions none nofun with listed | confirmed
  · rw [stepRun] at listed
    have allSettled := effectOf_settled sound settled
    exact ⟨allSettled action inActions stepRun, known _ listed⟩
  · exact confirmed

/-- What each retry of a list keeps, all of them keep. -/
theorem retries_keep (property : GoalRun → Prop)
    (kept : ∀ goal id next, property goal → retryByPerson goal id = some next → property next)
    {goal next : GoalRun} {ids : List Nat} (holds : property goal)
    (retried : ids.foldlM retryByPerson goal = some next) : property next := by
  induction ids generalizing goal with
  | nil =>
      cases retried
      exact holds
  | cons id ids ih =>
      rw [List.foldlM_cons] at retried
      obtain ⟨after, first, rest⟩ := Option.bind_eq_some_iff.mp retried
      exact ih (kept goal id after holds first) rest

theorem resumeGoalRun_some {goal next : GoalRun} {now : Int} {retrySteps : List Nat}
    (resumed : resumeGoalRun goal now retrySteps = some next) :
    goal.advance = none ∧ goal.status = .paused ∧
      ∃ retried, retrySteps.foldlM retryByPerson goal = some retried ∧
        retried.advance = none ∧ retried.moveGoal .resume none now = some next := by
  unfold resumeGoalRun at resumed
  split at resumed
  · cases resumed
  next asked =>
    obtain ⟨retried, folded, moved⟩ := Option.bind_eq_some_iff.mp resumed
    rw [not_or, Option.isSome_iff_ne_none, not_not, not_not] at asked
    refine ⟨asked.1, asked.2, retried, folded, ?_, moved⟩
    refine retries_keep (fun goal => goal.advance = none) ?_ asked.1 folded
    intro before id after none step
    obtain ⟨_step, _row, _member, _moves, _ended, _settled, _known, advance⟩ :=
      retryByPerson_cases step
    exact advance.trans none

theorem runStep_sound {goal next : GoalRun} {label : RunLabel} (sound : RunSound goal)
    (moved : runStep goal label = some next) : RunSound next := by
  have environment : label.settles = true → RunSound next := by
    intro asked
    obtain ⟨settles, stepRuns, course, advance⟩ := settlingStep sound.rows moved asked
    refine ⟨sound.rows.settles settles stepRuns, ?_⟩
    intro later under
    have knows := sound.advance later (advance.symm.trans under)
    exact knows.settles settles stepRuns course.status
  cases label with
  | taskEnds task outcome => exact environment rfl
  | actionMoves action event kind => exact environment rfl
  | reconciles action verdict => exact environment rfl
  | decidesReexecute action => exact environment rfl
  | checkSettles round key status =>
      have same := settleCheck_same moved
      obtain ⟨status, advance⟩ := settleCheck_course moved
      refine ⟨sound.rows.same same, ?_⟩
      intro later under
      exact (sound.advance later (advance.symm.trans under)).same same status
  | requests task action requestedAt identity resolved =>
      obtain ⟨step, row, locked, rfl, fresh, stepRun, _raised, opened⟩ :=
        requestStepAction_some moved
      obtain ⟨_caller, member, none, works⟩ := lockGoalStepForNewWork_some locked
      exact RunSound.idle
        (sound.rows.withRequest member stepRun (takesWork_started works) fresh opened) none
  | invokes caller task =>
      obtain ⟨step, locked, rfl⟩ := invokeNested_some moved
      obtain ⟨_caller, member, none, works⟩ := lockGoalStepForNewWork_some locked
      refine RunSound.idle (sound.rows.withTask ?_) none
      intro id stepRun
      exact ⟨step, member, Option.some.inj stepRun, takesWork_started works⟩
  | advances now =>
      exact ⟨sound.rows.same (beginAdvance_same moved), beginAdvance_knows moved⟩
  | statement oracle =>
      obtain ⟨advance, under, ran⟩ := Option.bind_eq_some_iff.mp moved
      have knows := sound.advance advance under
      exact ⟨(advanceStatement_effect ran).1.rows sound.rows knows,
        advanceStatement_knows sound.rows knows ran⟩
  | resumes now retrySteps =>
      obtain ⟨_none, _paused, retried, folded, idle, resumed⟩ := resumeGoalRun_some moved
      have rows := retries_keep RowsSound (fun _ _ _ => retryByPerson_sound) sound.rows folded
      exact RunSound.idle (rows.same (moveGoal_same resumed))
        ((moveGoal_advance resumed).trans idle)
  | revises now plan revision keep =>
      unfold runStep reviseGoalRun at moved
      dsimp only at moved
      split at moved
      · cases moved
      next asked =>
        rw [not_or, Option.isSome_iff_ne_none, not_not] at asked
        obtain ⟨revises, _kept, advance⟩ := adoptRevision_revises moved
        exact RunSound.idle (revises.rows sound.rows) (advance.trans asked.1)
  | pauses now =>
      unfold runStep at moved
      dsimp only at moved
      split at moved
      · cases moved
      next asked =>
        rw [Option.isSome_iff_ne_none, not_not] at asked
        exact RunSound.idle (sound.rows.same (moveGoal_same moved))
          ((moveGoal_advance moved).trans asked)
  | cancels now =>
      have none : goal.advance = none := by
        unfold runStep cancelGoalRun at moved
        dsimp only at moved
        split at moved
        · cases moved
        next asked => rwa [Option.isSome_iff_ne_none, not_not] at asked
      obtain ⟨revises, advance⟩ := cancelGoalRun_revises moved
      exact RunSound.idle (revises.rows sound.rows) (advance.trans none)
  | finishesCancel now =>
      unfold runStep at moved
      dsimp only at moved
      split at moved
      · cases moved
      next asked =>
        rw [Option.isSome_iff_ne_none, not_not] at asked
        exact RunSound.idle (sound.rows.same (moveGoal_same moved))
          ((moveGoal_advance moved).trans asked)

theorem confirmedRun_sound (plan : GoalPlan) (statement : String) (now : Int) :
    RunSound (confirmedRun plan statement now) := by
  refine RunSound.idle ⟨?_, List.forall_mem_nil _, List.forall_mem_nil _, List.nodup_nil,
    List.forall_mem_nil _, ?_⟩ rfl
  · unfold GoalRun.stepIds
    apply List.ext_getElem
    · simp [confirmedRun]
    · intro index inMap inRange
      simp [confirmedRun]
  · intro step _member _unstarted
    exact ⟨List.forall_mem_nil _, List.forall_mem_nil _⟩

theorem reachable_sound {goal : GoalRun} (reached : goalRunSystem.Reachable goal) :
    RunSound goal := by
  refine LabelledRun.System.invariant goalRunSystem ?_ ?_ reached
  · rintro start ⟨plan, statement, now, rfl⟩
    exact confirmedRun_sound plan statement now
  · intro state label next sound moved
    exact runStep_sound sound moved

/-! ### Only `startAttempt` sets a step running -/

/-- The step is not running before and is running after. -/
def Starts (goal next : GoalRun) (step : StepRun) : Prop :=
  step ∈ goal.stepRuns ∧ step.status ≠ .running ∧
    ∃ row ∈ next.stepRuns, row.id = step.id ∧ row.status = .running

instance (goal next : GoalRun) (step : StepRun) : Decidable (Starts goal next step) :=
  inferInstanceAs (Decidable (_ ∧ _ ∧ _))

/-- Whatever runs afterwards ran before. -/
def NothingStarts (goal next : GoalRun) : Prop :=
  ∀ row ∈ next.stepRuns, row.status = .running → row ∈ goal.stepRuns

theorem NothingStarts.of_same {goal next : GoalRun} (same : next.stepRuns = goal.stepRuns) :
    NothingStarts goal next := by
  intro row member _running
  rwa [same] at member

theorem StepMoved.nothingStarts {goal next : GoalRun} {step row : StepRun}
    (moved : StepMoved goal step row next) (stopped : row.status ≠ .running) :
    NothingStarts goal next := by
  intro other member running
  rcases moved.mem member with rfl | ⟨inOld, _different⟩
  · exact absurd running stopped
  · exact inOld

theorem Revises.nothingStarts {goal next : GoalRun} (revises : Revises goal next) :
    NothingStarts goal next := by
  obtain ⟨change, added, stepRuns, each, _ids, fresh⟩ := revises.stepRuns
  intro row member running
  rw [stepRuns] at member
  rcases List.mem_append.mp member with old | new
  · obtain ⟨before, inOld, rfl⟩ := List.mem_map.mp old
    rcases (each before inOld).2 with same | closed
    · rwa [same]
    · rw [running] at closed
      cases closed
  · rw [(fresh row new).1] at running
    cases running

theorem NothingStarts.trans {first second third : GoalRun} (one : NothingStarts first second)
    (two : NothingStarts second third) : NothingStarts first third :=
  fun row member running => one row (two row member running) running

theorem Recorded.stopped {goal : GoalRun} {advance : Advance} {step row : StepRun}
    (recorded : Recorded goal advance step row) : row.status ≠ .running := by
  intro running
  obtain ⟨_attempts, ⟨waiting, _held⟩ | ⟨acceptance | succeeded | failed, _past⟩⟩ := recorded
  · exact nomatch running.symm.trans waiting
  · exact nomatch running.symm.trans acceptance.1
  · exact nomatch running.symm.trans succeeded
  · exact nomatch running.symm.trans failed

theorem retry_stopped {goal next : GoalRun} {step row : StepRun}
    (moves : StepMoves goal step .retry row next) : row.status ≠ .running := by
  have ready : row.status = .ready := (retry_edge _ moves.edge rfl).2
  rw [ready]
  nofun

/-- The statement of an advance that starts an attempt. -/
structure StartStatement (goal next : GoalRun) (step : StepRun) : Prop where
  member : step ∈ goal.stepRuns
  ready : step.status = .ready
  under : ∃ advance rest, goal.advance = some advance ∧ advance.point = .attempt step.id rest
  others : ∀ row ∈ next.stepRuns, row.id ≠ step.id → row ∈ goal.stepRuns

theorem RowsEffect.starts_cases {goal next : GoalRun} {advance : Advance}
    (under : goal.advance = some advance) (effect : RowsEffect goal advance next) :
    NothingStarts goal next ∨ ∃ step, StartStatement goal next step := by
  cases effect with
  | stands rows => exact .inl (NothingStarts.of_same rows.stepRuns)
  | records step row member seen works moved recorded =>
      exact .inl (moved.nothingStarts recorded.stopped)
  | retries step row member seen moves none settled known =>
      exact .inl (moves.rows.nothingStarts (retry_stopped moves))
  | unblocks step row member moves =>
      refine .inl (moves.rows.nothingStarts ?_)
      have ready : row.status = .ready := (unblock_edge _ moves.edge rfl).2
      rw [ready]
      nofun
  | starts step row task rest member point fresh moves attempts =>
      refine .inr ⟨step, member, (start_edge _ moves.edge rfl).1, ⟨advance, rest, under, point⟩, ?_⟩
      intro other inNext different
      rcases moves.rows.mem inNext with rfl | ⟨inOld, _different⟩
      · exact absurd moves.rows.id different
      · exact inOld
  | plans task fresh rows => exact .inl (NothingStarts.of_same rows.stepRuns)
  | revises revised => exact .inl revised.nothingStarts

theorem runStep_starts {goal next : GoalRun} {label : RunLabel} (sound : RunSound goal)
    (moved : runStep goal label = some next) :
    NothingStarts goal next ∨ ∃ step, StartStatement goal next step := by
  have environment : label.settles = true → NothingStarts goal next := by
    intro asked
    exact NothingStarts.of_same (settlingStep sound.rows moved asked).2.1
  cases label with
  | taskEnds task outcome => exact .inl (environment rfl)
  | actionMoves action event kind => exact .inl (environment rfl)
  | reconciles action verdict => exact .inl (environment rfl)
  | decidesReexecute action => exact .inl (environment rfl)
  | checkSettles round key status =>
      exact .inl (NothingStarts.of_same (settleCheck_same moved).stepRuns)
  | requests task action requestedAt identity resolved =>
      obtain ⟨step, row, _locked, rfl, _rest⟩ := requestStepAction_some moved
      exact .inl (NothingStarts.of_same rfl)
  | invokes caller task =>
      obtain ⟨step, _locked, rfl⟩ := invokeNested_some moved
      exact .inl (NothingStarts.of_same rfl)
  | advances now => exact .inl (NothingStarts.of_same (beginAdvance_same moved).stepRuns)
  | statement oracle =>
      obtain ⟨advance, under, ran⟩ := Option.bind_eq_some_iff.mp moved
      exact (advanceStatement_effect ran).1.starts_cases under
  | resumes now retrySteps =>
      obtain ⟨_none, _paused, retried, folded, _idle, resumed⟩ := resumeGoalRun_some moved
      have kept : NothingStarts goal retried := by
        refine retries_keep (NothingStarts goal) ?_ (NothingStarts.of_same rfl) folded
        intro before id after kept step
        obtain ⟨_step, row, _member, moves, _rest⟩ := retryByPerson_cases step
        exact kept.trans (moves.rows.nothingStarts (retry_stopped moves))
      exact .inl (kept.trans (NothingStarts.of_same (moveGoal_same resumed).stepRuns))
  | revises now plan revision keep =>
      unfold runStep reviseGoalRun at moved
      dsimp only at moved
      split at moved
      · cases moved
      · exact .inl (adoptRevision_revises moved).1.nothingStarts
  | pauses now =>
      unfold runStep at moved
      dsimp only at moved
      split at moved
      · cases moved
      · exact .inl (NothingStarts.of_same (moveGoal_same moved).stepRuns)
  | cancels now => exact .inl (cancelGoalRun_revises moved).1.nothingStarts
  | finishesCancel now =>
      unfold runStep at moved
      dsimp only at moved
      split at moved
      · cases moved
      · exact .inl (NothingStarts.of_same (moveGoal_same moved).stepRuns)

/-! ### The attempt and everything beside it -/

/-- What holds when an attempt of the step is started. -/
structure StartsAlone (goal : GoalRun) (step : StepRun) : Prop where
  tasks : TasksEnded goal step.id
  actions : ActionsConfirmed goal step.id
  predecessors : ∀ before ∈ goal.stepRuns, before.status = .superseded →
    before.stepKey = step.stepKey → Quiet goal before.id
  doubts : ∃ advance, goal.advance = some advance ∧
    ∀ before ∈ goal.stepRuns, before.status = .superseded →
      ∀ action ∈ goal.actions, action.stepRun = before.id → action.unsettled = true →
        action.id ∈ advance.inFlightSeen

theorem findStep_of_mem {goal : GoalRun} (sound : RowsSound goal) {step : StepRun}
    (member : step ∈ goal.stepRuns) : goal.findStep step.id = some step := by
  cases found : goal.findStep step.id with
  | none =>
      have differs := List.find?_eq_none.mp found step member
      simp at differs
  | some other =>
      obtain ⟨inSteps, same⟩ := findStep_some found
      rw [sound.step_eq inSteps member same]

theorem StartStatement.alone {goal next : GoalRun} {step : StepRun} (sound : RunSound goal)
    (started : StartStatement goal next step) : StartsAlone goal step := by
  obtain ⟨advance, rest, under, point⟩ := started.under
  have knows := sound.advance advance under
  unfold AdvanceSound at knows
  rw [point] at knows
  obtain ⟨_tasks, doubts, predecessors⟩ := knows
  obtain ⟨ended, confirmed⟩ := sound.rows.unstarted step started.member (.inr started.ready)
  refine ⟨ended, confirmed, ?_, advance, under, ?_⟩
  · intro before member superseded same
    rcases predecessors step (findStep_of_mem sound.rows started.member) before member superseded
      same List.not_mem_nil with busy | quiet
    · cases busy
    · exact quiet
  · intro before member superseded
    exact doubts before member superseded List.not_mem_nil

theorem attempt_starts_alone {goal next : GoalRun} {label : RunLabel} {step : StepRun}
    (reached : goalRunSystem.Reachable goal) (moved : runStep goal label = some next)
    (starts : Starts goal next step) : StartsAlone goal step := by
  have sound := reachable_sound reached
  obtain ⟨member, stopped, row, inNext, same, running⟩ := starts
  have notBefore : row ∉ goal.stepRuns := by
    intro before
    rw [sound.rows.step_eq before member same] at running
    exact stopped running
  rcases runStep_starts sound moved with nothing | ⟨started, statement⟩
  · exact absurd (nothing row inNext running) notBefore
  · by_cases chosen : row.id = started.id
    · rw [← sound.rows.step_eq statement.member member (chosen.symm.trans same)]
      exact statement.alone sound
    · exact absurd (statement.others row inNext chosen) notBefore

/-! ### A step revised away with a request in flight -/

/-- A plan of one step. -/
def singleStepPlan (key content : String) : GoalPlan :=
  { steps :=
      [{ key := key
         worker := "worker"
         spec := none
         dependsOn := none
         nested := none
         maxAttempts := none
         reconcile := none
         acceptance := none
         content := content }]
    acceptance := none
    distinct := List.nodup_singleton key }

/-- Nothing holds the advance; an attempt's Task is `task`. -/
def startingOracle (task : Nat) : Oracle :=
  { stepRound := .absent
    reconcileForPerson := true
    plannerTakes := false
    backoffElapsed := true
    baselines := .seen
    limit := .clear
    attempt := .started task
    planning := .nothing }

def advanceLabels (now : Int) (task statements : Nat) : List RunLabel :=
  .advances now :: List.replicate statements (.statement (startingOracle task))

/-- Step `a` runs as Task 10, whose request 1 is executing when it ends. -/
def executingRun : List RunLabel :=
  advanceLabels 1 10 17 ++
    [.requests 10 1 2 "send" .autoApproved, .actionMoves 1 .startExecution .refused,
      .taskEnds 10 .completed, .pauses 2]

/-- The step is changed, its request found without effect, and nobody decides to run
it again. -/
def changedRun (verdict : ActionRequestReconciliation) : List RunLabel :=
  executingRun ++
    [.actionMoves 1 .fail .outcomeUnknown, .reconciles 1 verdict,
      .revises 3 (singleStepPlan "a" "changed") 2 [], .resumes 4 []] ++
    advanceLabels 5 20 17

/-- The step is renamed; its request fails between the look for doubts and the start. -/
def renamedRun : List RunLabel :=
  executingRun ++ [.revises 3 (singleStepPlan "b" "renamed") 2 [], .resumes 4 []] ++
    advanceLabels 5 20 13 ++ [.actionMoves 1 .fail .outcomeUnknown] ++
    List.replicate 3 (.statement (startingOracle 20))

/-- The run of the labels, at the statement that starts the attempt of Task 20. -/
def startAfter (labels : List RunLabel) : Option (GoalRun × GoalRun) := do
  let goal ← goalRunSystem.run (confirmedRun (singleStepPlan "a" "first") "goal" 0) labels
  let next ← runStep goal (.statement (startingOracle 20))
  some (goal, next)

theorem startAfter_some {labels : List RunLabel} {goal next : GoalRun}
    (after : startAfter labels = some (goal, next)) :
    goalRunSystem.Reachable goal ∧ runStep goal (.statement (startingOracle 20)) = some next := by
  obtain ⟨reached, ran, after⟩ := Option.bind_eq_some_iff.mp after
  obtain ⟨later, moved, same⟩ := Option.bind_eq_some_iff.mp after
  cases same
  exact ⟨⟨_, labels, ⟨_, _, _, rfl⟩, ran⟩, moved⟩

/-- The changed step starts once the request it took over was found to have had its
effect. -/
theorem attempt_starts_alone_afterChange :
    ∃ goal next step, startAfter (changedRun .effectSeen) = some (goal, next) ∧
      step.stepKey = "a" ∧ StartsAlone goal step := by
  have starts : ((startAfter (changedRun .effectSeen)).any fun pair =>
      pair.1.stepRuns.any fun step =>
        decide (step.stepKey = "a" ∧ Starts pair.1 pair.2 step)) = true := by
    decide +kernel
  obtain ⟨⟨goal, next⟩, after, held⟩ := (Option.any_eq_true _ _).mp starts
  obtain ⟨step, _member, held⟩ := List.any_eq_true.mp held
  obtain ⟨key, begins⟩ := of_decide_eq_true held
  obtain ⟨reached, moved⟩ := startAfter_some after
  exact ⟨goal, next, step, after, key, attempt_starts_alone reached moved begins⟩

/-- A step starts beside a request of its predecessor without a decision to run it
again, and beside one of a renamed step whose outcome is unknown. -/
theorem attempt_starts_beside_superseded :
    (∃ goal next step before, startAfter (changedRun .effectAbsent) = some (goal, next) ∧
      Starts goal next step ∧ before ∈ goal.stepRuns ∧ before.status = .superseded ∧
      before.stepKey = step.stepKey ∧ ¬ ActionsConfirmed goal before.id) ∧
    ∃ goal next step before action, startAfter renamedRun = some (goal, next) ∧
      Starts goal next step ∧ before ∈ goal.stepRuns ∧ before.status = .superseded ∧
      action ∈ goal.actions ∧ action.stepRun = before.id ∧
      actionDisposition action.toActionOutcomeColumns = .reconcile := by
  refine ⟨?_, ?_⟩
  · have starts : ((startAfter (changedRun .effectAbsent)).any fun pair =>
        pair.1.stepRuns.any fun step => pair.1.stepRuns.any fun before =>
          decide (Starts pair.1 pair.2 step ∧ before.status = .superseded ∧
            before.stepKey = step.stepKey ∧ ¬ ActionsConfirmed pair.1 before.id)) = true := by
      decide +kernel
    obtain ⟨⟨goal, next⟩, after, held⟩ := (Option.any_eq_true _ _).mp starts
    obtain ⟨step, _member, held⟩ := List.any_eq_true.mp held
    obtain ⟨before, inSteps, held⟩ := List.any_eq_true.mp held
    obtain ⟨begins, superseded, same, unconfirmed⟩ := of_decide_eq_true held
    exact ⟨goal, next, step, before, after, begins, inSteps, superseded, same, unconfirmed⟩
  · have starts : ((startAfter renamedRun).any fun pair =>
        pair.1.stepRuns.any fun step => pair.1.stepRuns.any fun before =>
          pair.1.actions.any fun action =>
            decide (Starts pair.1 pair.2 step ∧ before.status = .superseded ∧
              action.stepRun = before.id ∧
              actionDisposition action.toActionOutcomeColumns = .reconcile)) = true := by
      decide +kernel
    obtain ⟨⟨goal, next⟩, after, held⟩ := (Option.any_eq_true _ _).mp starts
    obtain ⟨step, _member, held⟩ := List.any_eq_true.mp held
    obtain ⟨before, inSteps, held⟩ := List.any_eq_true.mp held
    obtain ⟨action, inActions, held⟩ := List.any_eq_true.mp held
    obtain ⟨begins, superseded, ofStep, reconcile⟩ := of_decide_eq_true held
    exact ⟨goal, next, step, before, action, after, begins, inSteps, superseded, inActions, ofStep,
      reconcile⟩

end NextTime.Goal
