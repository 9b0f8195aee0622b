import NextTime.Goal.Statements

/-
Every statement of an advance, by what it does to the rows of its run: it leaves
them alone, moves one step, adds one Task or adopts a revision.
-/

namespace NextTime.Goal

/-- The Task of a planner: of no step and nobody's nested Task. -/
def plannerTask (task : Nat) : GoalTask :=
  { id := task, stepRun := none, stepAttempt := none, caller := none, outcome := none }

inductive RowsEffect (goal : GoalRun) (advance : Advance) (next : GoalRun) : Prop
  | stands (rows : SameRows goal next)
  | records (step row : StepRun) (member : step ∈ goal.stepRuns)
      (seen : ∃ todo, advance.point = .records todo) (works : takesWork step.status = true)
      (moved : StepMoved goal step row next) (recorded : Recorded goal advance step row)
  | retries (step row : StepRun) (member : step ∈ goal.stepRuns)
      (seen : ∃ todo, advance.point = .retries todo) (moves : StepMoves goal step .retry row next)
      (none : liveTasksOf advance step = []) (settled : (effectOf goal step).waits = false)
      (known : effectOf goal step ≠ .fail .outcomeUnknown)
  | unblocks (step row : StepRun) (member : step ∈ goal.stepRuns)
      (moves : StepMoves goal step .unblock row next)
  | starts (step row : StepRun) (task : Nat) (rest : List Nat) (member : step ∈ goal.stepRuns)
      (point : advance.point = .attempt step.id rest)
      (fresh : ∀ other ∈ goal.tasks, other.id ≠ task)
      (moves : StepMoves (goal.withTask (attemptTask step task)) step .start row next)
      (attempts : row.attemptCount = step.attemptCount + 1)
  | plans (task : Nat) (fresh : ∀ other ∈ goal.tasks, other.id ≠ task)
      (rows : SameRows (goal.withTask (plannerTask task)) next)
  | revises (revised : Revises goal next)

/-- A statement keeps the run's status or pauses it and opens no round, but where it
enters or judges one. -/
def KeptOrVerifies (goal : GoalRun) (advance : Advance) (next : GoalRun) : Prop :=
  Kept goal next ∨ advance.point = .verifies ∨ ∃ busy, advance.point = .settles [] busy

theorem Kept.withAdvance {goal mid : GoalRun} (kept : Kept goal mid) (later : Option Advance) :
    Kept goal (mid.withAdvance later) :=
  ⟨kept.status, kept.rounds⟩

theorem Stays.effect {goal mid : GoalRun} {advance : Advance} (stays : Stays goal mid)
    (later : Option Advance) :
    RowsEffect goal advance (mid.withAdvance later) ∧
      KeptOrVerifies goal advance (mid.withAdvance later) :=
  ⟨.stands (stays.toSameRows.trans (withAdvance_same mid later)),
    .inl (stays.toKept.withAdvance later)⟩

theorem StepMoved.withAdvance {goal mid : GoalRun} {step row : StepRun}
    (moved : StepMoved goal step row mid) (later : Option Advance) :
    StepMoved goal step row (mid.withAdvance later) :=
  ⟨moved.stepRuns, moved.tasks, moved.actions, moved.id, moved.stepKey⟩

theorem StepMoves.withAdvance {goal mid : GoalRun} {step row : StepRun} {event : StepRunEvent}
    (moves : StepMoves goal step event row mid) (later : Option Advance) :
    StepMoves goal step event row (mid.withAdvance later) :=
  ⟨moves.rows.withAdvance later, moves.edge, moves.attemptCount, moves.introduced,
    moves.kept.withAdvance later⟩

theorem advanceStatement_effect {goal next : GoalRun} {advance : Advance} {oracle : Oracle}
    (ran : advanceStatement goal advance oracle = some next) :
    RowsEffect goal advance next ∧ KeptOrVerifies goal advance next := by
  have stands : ∀ later, RowsEffect goal advance (goal.withAdvance later) ∧
      KeptOrVerifies goal advance (goal.withAdvance later) :=
    (Stays.refl goal).effect
  have paused : ∀ reason later,
      RowsEffect goal advance ((pauses goal advance reason).withAdvance later) ∧
        KeptOrVerifies goal advance ((pauses goal advance reason).withAdvance later) :=
    fun reason => (pauses_stays goal advance reason).effect
  unfold advanceStatement at ran
  cases point : advance.point with
  | verifies =>
      simp only [point] at ran
      obtain ⟨judged, verified, rfl⟩ := Option.map_eq_some_iff.mp ran
      exact ⟨.stands ((judgeRound_same verified).trans (goesTo_same judged _ _)),
        .inr (.inl point)⟩
  | records todo =>
      cases todo with
      | nil =>
          simp only [point] at ran
          cases ran
          exact stands _
      | cons id todo =>
          simp only [point] at ran
          obtain ⟨step, found, ran⟩ := Option.bind_eq_some_iff.mp ran
          split at ran
          next works =>
            obtain ⟨after, recorded, ran⟩ := Option.bind_eq_some_iff.mp ran
            cases ran
            rcases recordAttempt_recorded recorded with stays | ⟨row, moved, past, kept⟩
            · exact stays.effect _
            · exact ⟨.records step row (findStep_some found).1 ⟨_, point⟩ works
                (moved.withAdvance _) past, .inl (kept.withAdvance _)⟩
          · cases ran
            exact stands _
  | retries todo =>
      cases todo with
      | nil =>
          simp only [point] at ran
          cases ran
          exact stands _
      | cons id todo =>
          simp only [point] at ran
          split at ran
          · cases ran
            exact stands _
          · obtain ⟨step, found, ran⟩ := Option.bind_eq_some_iff.mp ran
            obtain ⟨after, retried, ran⟩ := Option.bind_eq_some_iff.mp ran
            cases ran
            rcases retryFailed_cases retried with stays | ⟨row, moves, none, settled, known⟩
            · exact stays.effect _
            · exact ⟨.retries step row (findStep_some found).1 ⟨_, point⟩ (moves.withAdvance _)
                none settled known, .inl (moves.kept.withAdvance _)⟩
  | unblocks todo =>
      cases todo with
      | nil =>
          simp only [point] at ran
          cases ran
          exact stands _
      | cons id todo =>
          simp only [point] at ran
          obtain ⟨step, found, ran⟩ := Option.bind_eq_some_iff.mp ran
          obtain ⟨after, unblocked, ran⟩ := Option.bind_eq_some_iff.mp ran
          cases ran
          rcases unblockStep_cases unblocked with stays | ⟨row, moves⟩
          · exact stays.effect _
          · exact ⟨.unblocks step row (findStep_some found).1 (moves.withAdvance _),
              .inl (moves.kept.withAdvance _)⟩
  | baselines =>
      simp only [point] at ran
      split at ran
      · cases ran
        exact stands _
      · cases ran
        exact paused _ _
      · cases ran
        exact stands _
  | settles todo busy =>
      cases todo with
      | nil =>
          simp only [point] at ran
          split at ran
          · cases ran
            exact stands _
          · obtain ⟨verifying, entered, ran⟩ := Option.bind_eq_some_iff.mp ran
            obtain ⟨opened, verified, ran⟩ := Option.bind_eq_some_iff.mp ran
            cases ran
            exact ⟨.stands (((moveGoal_same entered).trans (judgeRound_same verified)).trans
              (goesTo_same opened _ _)), .inr (.inr ⟨busy, point⟩)⟩
      | cons id todo =>
          simp only [point] at ran
          obtain ⟨step, found, ran⟩ := Option.bind_eq_some_iff.mp ran
          split at ran
          · cases ran
            exact paused _ _
          · cases ran
            exact stands _
  | limits =>
      simp only [point] at ran
      split at ran
      · cases ran
        exact paused _ _
      · cases ran
        exact stands _
      · split at ran
        · cases ran
          exact stands _
        · cases ran
          exact stands _
  | doubts todo =>
      cases todo with
      | nil =>
          simp only [point] at ran
          cases ran
          exact stands _
      | cons id todo =>
          simp only [point] at ran
          obtain ⟨step, found, ran⟩ := Option.bind_eq_some_iff.mp ran
          split at ran
          · cases ran
            exact paused _ _
          · cases ran
            exact stands _
  | quota =>
      simp only [point] at ran
      split at ran
      · cases ran
        exact paused _ _
      · cases ran
        exact stands _
      · cases ran
        exact stands _
  | starts todo =>
      cases todo with
      | nil =>
          simp only [point] at ran
          cases ran
          exact stands _
      | cons id rest =>
          simp only [point] at ran
          split at ran
          · cases ran
            exact paused _ _
          · obtain ⟨step, found, ran⟩ := Option.bind_eq_some_iff.mp ran
            cases ran
            exact stands _
  | predecessors id todo busy rest =>
      cases todo with
      | nil =>
          simp only [point] at ran
          cases ran
          exact stands _
      | cons before todo =>
          simp only [point] at ran
          obtain ⟨step, found, ran⟩ := Option.bind_eq_some_iff.mp ran
          split at ran
          · cases ran
            exact paused _ _
          · cases ran
            exact stands _
  | attempt id rest =>
      simp only [point] at ran
      obtain ⟨step, found, tried⟩ := Option.bind_eq_some_iff.mp ran
      obtain ⟨member, rfl⟩ := findStep_some found
      split at tried
      · cases tried
        exact paused _ _
      split at tried
      · cases tried
        exact stands _
      · cases tried
        exact paused _ _
      · cases tried
        exact stands _
      next task _started =>
        obtain ⟨after, started, rfl⟩ := Option.map_eq_some_iff.mp tried
        obtain ⟨fresh, row, moves, attempts⟩ := startAttempt_cases started
        have kept := moves.kept.withAdvance
          (some { advance with point := .starts rest })
        exact ⟨.starts step row task rest member point fresh (moves.withAdvance _) attempts,
          .inl ⟨kept.status, kept.rounds⟩⟩
  | stuck =>
      simp only [point] at ran
      cases ran
      split
      · unfold pauseIfStuck
        dsimp only
        split
        · exact stands _
        · exact paused _ _
      · exact stands _
  | planning =>
      simp only [point] at ran
      split at ran
      · cases ran
        exact stands _
      · cases ran
        exact paused _ _
      next task _opens =>
        split at ran
        next asked =>
          cases ran
          refine ⟨.plans task ?_ (withAdvance_same _ _), .inl ⟨.inl rfl, rfl⟩⟩
          intro other member
          simpa using List.all_eq_true.mp asked.2 other member
        · cases ran
      · split at ran
        · obtain ⟨adopted, revised, rfl⟩ := Option.map_eq_some_iff.mp ran
          obtain ⟨revises, kept, _advance⟩ := adoptRevision_revises revised
          exact ⟨.revises ⟨revises.stepRuns, ⟨revises.settles.tasks, revises.settles.actions⟩,
            revises.tasks⟩, .inl (kept.withAdvance _)⟩
        · cases ran
  | done =>
      simp only [point] at ran
      cases ran
      exact stands _

end NextTime.Goal
