import NextTime.Goal.Attempts

/-
Which StepRuns stand for the steps of the plan in force. Every step of the plan has
one live StepRun, with the entry it has in the plan; any other live StepRun ended
under an earlier plan.
-/

namespace NextTime.Goal

/-! ### Only a revision changes the plan in force -/

/-- A status a StepRun can still leave. -/
def StepRunStatus.open (status : StepRunStatus) : Prop :=
  status ≠ .superseded ∧ endedStepStatus status = false

instance (status : StepRunStatus) : Decidable status.open :=
  inferInstanceAs (Decidable (_ ∧ _))

/-- A StepRun later, no revision having taken its step: it stands for the same step, and
ended once is ended. -/
structure RowCarried (before after : StepRun) : Prop where
  id : after.id = before.id
  stepKey : after.stepKey = before.stepKey
  introduced : after.introducedInRevision = before.introducedInRevision
  live : after.status = .superseded ↔ before.status = .superseded
  ended : endedStepStatus before.status = true → endedStepStatus after.status = true

/-- The same plans and revision in force, and the same StepRuns. -/
structure Carries (goal next : GoalRun) : Prop where
  plans : next.plans = goal.plans
  revision : next.currentRevision = goal.currentRevision
  rows : ∃ change : StepRun → StepRun, next.stepRuns = goal.stepRuns.map change ∧
    ∀ step ∈ goal.stepRuns, RowCarried step (change step)

/-- The StepRun of the step's id is of the same step, and open if the step is. -/
def Stands (goal : GoalRun) (step : StepRun) : Prop :=
  ∀ other ∈ goal.stepRuns, other.id = step.id → other.stepKey = step.stepKey ∧
    other.introducedInRevision = step.introducedInRevision ∧
    (step.status.open → other.status.open)

/-- What a move leaves, if it is made, has the steps of the run. -/
def KeepsSteps (goal : GoalRun) (moved : Option GoalRun) : Prop :=
  ∀ next, moved = some next → Carries goal next

theorem RowCarried.refl (step : StepRun) : RowCarried step step :=
  ⟨rfl, rfl, rfl, .rfl, fun ended => ended⟩

theorem RowCarried.trans {first second third : StepRun} (one : RowCarried first second)
    (two : RowCarried second third) : RowCarried first third where
  id := two.id.trans one.id
  stepKey := two.stepKey.trans one.stepKey
  introduced := two.introduced.trans one.introduced
  live := two.live.trans one.live
  ended := two.ended ∘ one.ended

namespace Carries

variable {first second third : GoalRun}

/-- The StepRuns are the very same. -/
theorem of_rows (plans : second.plans = first.plans)
    (revision : second.currentRevision = first.currentRevision)
    (rows : second.stepRuns = first.stepRuns) : Carries first second where
  plans := plans
  revision := revision
  rows := ⟨id, by rw [List.map_id, rows], fun step _ => .refl step⟩

theorem refl (goal : GoalRun) : Carries goal goal := of_rows rfl rfl rfl

theorem trans (one : Carries first second) (two : Carries second third) :
    Carries first third := by
  obtain ⟨change, rows, changes⟩ := one.rows
  obtain ⟨later, laterRows, laterChanges⟩ := two.rows
  constructor
  · exact two.plans.trans one.plans
  · exact two.revision.trans one.revision
  · refine ⟨later ∘ change, by rw [laterRows, rows, List.map_map], fun step member => ?_⟩
    apply (changes step member).trans
    apply laterChanges
    rw [rows]
    exact List.mem_map_of_mem member

end Carries

namespace KeepsSteps

variable {goal middle : GoalRun} {moved : Option GoalRun}

theorem none : KeepsSteps goal none := fun _ impossible => by cases impossible

theorem some {next : GoalRun} (same : Carries goal next) : KeepsSteps goal (some next) := by
  intro other isNext
  rw [Option.some.injEq] at isNext
  exact isNext ▸ same

theorem map {change : GoalRun → GoalRun} (keeps : KeepsSteps goal moved)
    (each : ∀ next, Carries next (change next)) : KeepsSteps goal (moved.map change) := by
  intro next ran
  obtain ⟨before, made, rfl⟩ := Option.map_eq_some_iff.mp ran
  exact (keeps before made).trans (each before)

theorem bind {Value : Type} {read : Option Value} {rest : Value → Option GoalRun}
    (each : ∀ value, KeepsSteps goal (rest value)) : KeepsSteps goal (read.bind rest) := by
  cases read with
  | none => exact none
  | some value => exact each value

/-- A move, and then another. -/
theorem after {rest : GoalRun → Option GoalRun} (keeps : KeepsSteps goal moved)
    (each : ∀ next, KeepsSteps next (rest next)) : KeepsSteps goal (moved.bind rest) := by
  intro next ran
  obtain ⟨before, made, ran⟩ := Option.bind_eq_some_iff.mp ran
  exact (keeps before made).trans (each before next ran)

end KeepsSteps

section Statements

variable (goal : GoalRun) (advance : Advance) (oracle : Oracle)

theorem moveGoal_steps (event : GoalRunEvent) (reason : Option GoalRunPauseReason) (now : Int) :
    KeepsSteps goal (goal.moveGoal event reason now) := by
  intro next moved
  obtain ⟨status, _, rfl⟩ := Option.map_eq_some_iff.mp moved
  exact .of_rows rfl rfl rfl

/-- Only an open StepRun is moved, and only a revision supersedes it. -/
theorem move_carries {step row : StepRun} {event : StepRunEvent}
    {reason : Option StepRunWaitingReason} {category : Option StepRunFailureCategory}
    {revision : Option Nat} (moves : event ≠ .supersede)
    (moved : step.move event reason category revision = some row) :
    step.status.open ∧ row.status ≠ .superseded ∧ row.id = step.id ∧
      row.stepKey = step.stepKey ∧ row.introducedInRevision = step.introducedInRevision := by
  have edges : ∀ edge ∈ stepRunEdges, edge.1.open ∧
      (edge.2.1 ≠ StepRunEvent.supersede → edge.2.2 ≠ StepRunStatus.superseded) := by
    decide
  obtain ⟨edge, id, key, introduced⟩ := move_some moved
  exact ⟨(edges _ edge).1, (edges _ edge).2 moves, id, key, introduced⟩

variable {goal} {step : StepRun}

theorem moveStep_steps (stands : Stands goal step) {event : StepRunEvent}
    (moves : event ≠ .supersede) (reason : Option StepRunWaitingReason)
    (category : Option StepRunFailureCategory) (revision : Option Nat) :
    KeepsSteps goal (goal.moveStep step event reason category revision) := by
  intro next moved
  obtain ⟨row, made, rfl⟩ := Option.map_eq_some_iff.mp moved
  obtain ⟨isOpen, unsuperseded, id, key, introduced⟩ := move_carries moves made
  refine ⟨rfl, rfl, _, rfl, fun other member => ?_⟩
  by_cases named : other.id = row.id
  · obtain ⟨sameKey, sameIntroduced, opens⟩ := stands other member (named.trans id)
    obtain ⟨live, unended⟩ := opens isOpen
    rw [if_pos named]
    constructor
    · exact named.symm
    · exact key.trans sameKey.symm
    · exact introduced.trans sameIntroduced.symm
    · exact ⟨fun superseded => absurd superseded unsuperseded,
        fun superseded => absurd superseded live⟩
    · intro ended
      rw [unended] at ended
      cases ended
  · rw [if_neg named]
    exact .refl other

variable (goal)

theorem pauses_steps (reason : GoalRunPauseReason) : Carries goal (pauses goal advance reason) := by
  unfold pauses GoalRun.pause
  split
  · cases moved : goal.moveGoal .pause (some reason) advance.now with
    | none => exact .refl goal
    | some next => exact moveGoal_steps goal _ _ _ next moved
  · exact .refl goal

theorem goesTo_steps (point : AdvancePoint) : Carries goal (goal.goesTo advance point) :=
  .of_rows rfl rfl rfl

theorem holdStep_steps (stands : Stands goal step) (reason : StepRunWaitingReason) :
    KeepsSteps goal (holdStep goal step reason) := by
  unfold holdStep
  split
  · exact .some (.refl goal)
  · split
    · intro next held
      obtain ⟨running, resumed, moved⟩ := Option.bind_eq_some_iff.mp held
      obtain ⟨isOpen, _, id, key, introduced⟩ := move_carries (by decide) resumed
      have still : Stands goal running := by
        intro other member named
        obtain ⟨sameKey, sameIntroduced, opens⟩ := stands other member (named.trans id)
        exact ⟨sameKey.trans key.symm, sameIntroduced.trans introduced.symm,
          fun _ => opens isOpen⟩
      exact moveStep_steps still (by decide) _ _ _ next moved
    · exact moveStep_steps stands (by decide) _ _ _

theorem verifyStep_steps (stands : Stands goal step) :
    KeepsSteps goal (verifyStep goal advance oracle step) := by
  unfold verifyStep
  split
  · split
    · exact .some (.refl goal)
    · split
      · exact .some (pauses_steps goal advance _)
      · exact holdStep_steps goal stands _
  · split
    · exact .some (.refl goal)
    · exact .some (.refl goal)
    · apply (moveStep_steps stands (by decide) _ _ _).map
      intro failed
      split
      · exact .refl failed
      · exact pauses_steps failed advance _
    · exact (holdStep_steps goal stands _).map fun held => pauses_steps held advance _
    · exact moveStep_steps stands (by decide) _ _ _

theorem recordVerdict_steps (stands : Stands goal step) (outcome : TaskOutcome)
    (verdict : AttemptVerdict) :
    KeepsSteps goal (recordVerdict goal advance oracle step outcome verdict) := by
  unfold recordVerdict
  split
  · split
    · exact .some (pauses_steps goal advance _)
    · split
      · exact holdStep_steps goal stands _
      · exact moveStep_steps stands (by decide) _ _ _
  · apply (moveStep_steps stands (by decide) _ _ _).map
    intro failed
    split
    · exact .refl failed
    · split
      · exact .refl failed
      · exact pauses_steps failed advance _

theorem recordAttempt_steps (stands : Stands goal step) :
    KeepsSteps goal (recordAttempt goal advance oracle step) := by
  unfold recordAttempt
  split
  · exact verifyStep_steps goal advance oracle stands
  · split
    · exact .some (pauses_steps goal advance _)
    · split
      · exact .some (.refl goal)
      · split
        · exact .some (.refl goal)
        · split
          · exact .some (pauses_steps goal advance _)
          · split
            · apply (holdStep_steps goal stands _).map
              intro held
              split
              · exact pauses_steps held advance _
              · exact .refl held
            · exact holdStep_steps goal stands _
            · exact recordVerdict_steps goal advance oracle stands _ _

theorem retryStep_steps (stands : Stands goal step) (rework : Bool) :
    KeepsSteps goal (retryStep goal advance oracle step rework) := by
  have paused : ∀ reason, KeepsSteps goal (some (pauses goal advance reason)) :=
    fun reason => .some (pauses_steps goal advance reason)
  have still : KeepsSteps goal (some goal) := .some (.refl goal)
  unfold retryStep
  split
  · exact paused _
  · split
    · split
      · exact still
      · exact paused _
    · split
      · exact still
      · split
        · exact paused _
        · exact paused _
        · exact still
        · split
          · exact still
          · split
            · exact paused _
            · exact moveStep_steps stands (by decide) _ _ _

theorem retryFailed_steps (stands : Stands goal step) :
    KeepsSteps goal (retryFailed goal advance oracle step) := by
  unfold retryFailed
  split
  · exact .some (.refl goal)
  · split
    · exact retryStep_steps goal advance oracle stands false
    · split
      · exact retryStep_steps goal advance oracle stands true
      · exact .some (.refl goal)

theorem unblockStep_steps (stands : Stands goal step) :
    KeepsSteps goal (unblockStep goal advance step) := by
  unfold unblockStep
  split
  · exact .some (.refl goal)
  · split
    · exact .some (pauses_steps goal advance _)
    · dsimp only
      split
      · exact .some (.refl goal)
      · split
        · exact .some (pauses_steps goal advance _)
        · exact moveStep_steps stands (by decide) _ _ _

theorem judgeRound_steps (read : List AcceptanceCheckRow) :
    KeepsSteps goal (judgeRound goal advance read) := by
  unfold judgeRound
  split
  · split
    · exact .some (pauses_steps goal advance _)
    · exact .some (.of_rows rfl rfl rfl)
  · split
    · exact .some (.refl goal)
    · split
      · exact .some (pauses_steps goal advance _)
      · split
        · exact .some (.refl goal)
        · exact moveGoal_steps goal _ _ _

theorem startAttempt_steps (stands : Stands goal step) (task : Nat) :
    KeepsSteps goal (startAttempt goal step task) := by
  unfold startAttempt
  split
  · exact .none
  · intro next moved
    have opened : Stands (goal.withTask (attemptTask step task)) step := stands
    obtain ⟨plans, revision, rows⟩ := moveStep_steps opened (by decide) _ _ _ next moved
    exact ⟨plans, revision, rows⟩

theorem pauseIfStuck_steps : Carries goal (pauseIfStuck goal advance oracle) := by
  unfold pauseIfStuck
  dsimp only
  split
  · exact .refl goal
  · exact pauses_steps goal advance _

theorem leaveStarts_steps : KeepsSteps goal (leaveStarts goal advance) :=
  .some (goesTo_steps goal advance _)

variable {goal}

theorem KeepsSteps.found (distinct : goal.stepIds.Nodup) {id : Nat}
    {rest : StepRun → Option GoalRun}
    (each : ∀ step, Stands goal step → KeepsSteps goal (rest step)) :
    KeepsSteps goal ((goal.findStep id).bind rest) := by
  intro next ran
  obtain ⟨step, found, ran⟩ := Option.bind_eq_some_iff.mp ran
  apply each step _ next ran
  intro other member named
  rw [List.inj_on_of_nodup_map distinct member (findStep_some found).1 named]
  exact ⟨rfl, rfl, fun isOpen => isOpen⟩

/-- A statement that adopts no revision keeps the steps. -/
theorem advanceStatement_steps (distinct : goal.stepIds.Nodup)
    (planning : advance.point = .planning →
      ∀ plan revision, oracle.planning ≠ .adopts plan revision) :
    KeepsSteps goal (advanceStatement goal advance oracle) := by
  have goes : ∀ point, KeepsSteps goal (some (goal.goesTo advance point)) :=
    fun point => .some (goesTo_steps goal advance point)
  have leaves := leaveStarts_steps goal advance
  have pausedLeaves : ∀ reason,
      KeepsSteps goal (leaveStarts (pauses goal advance reason) advance) := by
    intro reason next left
    exact (pauses_steps goal advance reason).trans (leaveStarts_steps _ advance next left)
  have onward : ∀ {next : GoalRun} (point : AdvancePoint),
      KeepsSteps next (some (next.goesTo advance point)) :=
    fun point => .some (goesTo_steps _ advance point)
  unfold advanceStatement
  split
  · exact (judgeRound_steps goal advance _).map fun judged => goesTo_steps judged advance _
  · exact goes _
  · apply KeepsSteps.found distinct
    intro step stands
    split
    · exact (recordAttempt_steps goal advance oracle stands).after fun next => onward _
    · exact goes _
  · exact goes _
  · split
    · exact goes _
    · apply KeepsSteps.found distinct
      intro step stands
      exact (retryFailed_steps goal advance oracle stands).after fun next => onward _
  · exact goes _
  · apply KeepsSteps.found distinct
    intro step stands
    exact (unblockStep_steps goal advance stands).after fun next => onward _
  · split
    · exact leaves
    · exact pausedLeaves _
    · exact goes _
  · split
    · exact leaves
    · apply (moveGoal_steps goal _ _ _).after
      intro verifying
      exact (judgeRound_steps verifying advance _).after fun next => onward _
  · apply KeepsSteps.bind
    intro step
    split
    · exact pausedLeaves _
    · exact goes _
  · split
    · exact pausedLeaves _
    · exact leaves
    · split
      · exact leaves
      · exact goes _
  · exact goes _
  · apply KeepsSteps.bind
    intro step
    split
    · exact pausedLeaves _
    · exact .some (.of_rows rfl rfl rfl)
  · split
    · exact pausedLeaves _
    · exact leaves
    · exact goes _
  · exact leaves
  · split
    · exact pausedLeaves _
    · apply KeepsSteps.bind
      intro step
      exact goes _
  · exact goes _
  · apply KeepsSteps.bind
    intro step
    split
    · exact pausedLeaves _
    · exact goes _
  · apply KeepsSteps.found distinct
    intro step stands
    split
    · exact pausedLeaves _
    · split
      · exact goes _
      · exact pausedLeaves _
      · exact leaves
      · exact (startAttempt_steps goal stands _).map fun started => goesTo_steps started advance _
  · split
    · exact .some ((pauseIfStuck_steps goal advance oracle).trans (goesTo_steps _ advance _))
    · exact goes _
  next atPlanning =>
    split
    · exact goes _
    · exact .some ((pauses_steps goal advance _).trans (goesTo_steps _ advance _))
    · split
      · exact .some (.of_rows rfl rfl rfl)
      · exact .none
    next plan revision adopts => exact absurd adopts (planning atPlanning plan revision)
  · exact .some (.of_rows rfl rfl rfl)

end Statements

/-! ### The StepRuns of the plan in force -/

/-- Every step of the plan in force has a live StepRun with its entry; a live StepRun that
has not ended is of a step of the plan; and no two are of the same key. -/
structure PlanRows (goal : GoalRun) : Prop where
  current : ∃ plan, goal.currentPlan = some plan
  keys : (goal.liveSteps.map (·.stepKey)).Nodup
  planned : ∀ plan, goal.currentPlan = some plan → ∀ entry ∈ plan.steps,
    ∃ row ∈ goal.liveSteps, row.stepKey = entry.key ∧ goal.entry row = some entry
  others : ∀ plan, goal.currentPlan = some plan → ∀ row ∈ goal.liveSteps,
    endedStepStatus row.status = false →
      ∃ entry ∈ plan.steps, entry.key = row.stepKey ∧ goal.entry row = some entry

theorem mem_liveSteps {goal : GoalRun} {row : StepRun} :
    row ∈ goal.liveSteps ↔ row ∈ goal.stepRuns ∧ row.status ≠ .superseded := by
  rw [GoalRun.liveSteps, List.mem_filter, bne_iff_ne]

namespace Carries

variable {goal next : GoalRun}

theorem currentPlan (carries : Carries goal next) : next.currentPlan = goal.currentPlan := by
  rw [GoalRun.currentPlan, carries.plans, carries.revision, GoalRun.currentPlan]

theorem entry (carries : Carries goal next) {before after : StepRun}
    (row : RowCarried before after) : next.entry after = goal.entry before := by
  rw [GoalRun.entry, GoalRun.entry, carries.plans, row.introduced, row.stepKey]

theorem liveSteps (carries : Carries goal next) : ∃ change : StepRun → StepRun,
    next.liveSteps = goal.liveSteps.map change ∧
      ∀ step ∈ goal.liveSteps, RowCarried step (change step) := by
  obtain ⟨change, rows, changes⟩ := carries.rows
  have kept : goal.stepRuns.filter ((fun step => step.status != .superseded) ∘ change) =
      goal.liveSteps := by
    apply List.filter_congr
    intro step member
    rw [Function.comp_apply, Bool.eq_iff_iff, bne_iff_ne, bne_iff_ne, ne_eq, ne_eq,
      (changes step member).live]
  refine ⟨change, ?_, fun step live => changes step (List.mem_of_mem_filter live)⟩
  rw [GoalRun.liveSteps, rows, List.filter_map, kept]

theorem stepIds (carries : Carries goal next) : next.stepIds = goal.stepIds := by
  obtain ⟨change, rows, changes⟩ := carries.rows
  rw [GoalRun.stepIds, rows, List.map_map]
  exact List.map_congr_left fun step member => (changes step member).id

theorem planRows (carries : Carries goal next) (rows : PlanRows goal) : PlanRows next := by
  obtain ⟨change, live, changes⟩ := carries.liveSteps
  constructor
  · rw [carries.currentPlan]
    exact rows.current
  · have same : next.liveSteps.map (·.stepKey) = goal.liveSteps.map (·.stepKey) := by
      rw [live, List.map_map]
      exact List.map_congr_left fun step member => (changes step member).stepKey
    rw [same]
    exact rows.keys
  · intro plan current entry member
    rw [carries.currentPlan] at current
    obtain ⟨row, isLive, key, found⟩ := rows.planned plan current entry member
    refine ⟨change row, live ▸ List.mem_map_of_mem isLive, ?_, ?_⟩
    · exact (changes row isLive).stepKey.trans key
    · exact (carries.entry (changes row isLive)).trans found
  · intro plan current row isLive unended
    rw [carries.currentPlan] at current
    rw [live] at isLive
    obtain ⟨before, wasLive, rfl⟩ := List.mem_map.mp isLive
    have carried := changes before wasLive
    have running : endedStepStatus before.status = false := by
      cases ended : endedStepStatus before.status with
      | false => rfl
      | true => exact absurd (carried.ended ended) (by simp [unended])
    obtain ⟨entry, member, key, found⟩ := rows.others plan current before wasLive running
    exact ⟨entry, member, key.trans carried.stepKey.symm, (carries.entry carried).trans found⟩

end Carries

/-! ### A revision -/

section Adopted

variable {goal : GoalRun} {plan : GoalPlan} {revision : Nat} {step : StepRun}

/-- An existing StepRun is live after the revision exactly where it is kept or history. -/
theorem supersedeIn_live (goal : GoalRun) (plan : GoalPlan) (revision : Nat) (step : StepRun) :
    ((supersedeIn goal plan revision step).status != .superseded) =
        (step.status != .superseded && splitStep goal plan step != some .superseded) ∧
      (splitStep goal plan step ≠ some .superseded →
        supersedeIn goal plan revision step = step) := by
  have moves : ∀ status : StepRunStatus, status.open →
      Shared.transition stepRunEdges status .supersede = some .superseded := by
    intro status isOpen
    cases status <;> first | rfl | exact absurd isOpen (by decide)
  unfold supersedeIn splitSuperseded
  by_cases taken : splitStep goal plan step = some .superseded
  · constructor
    · by_cases live : step.status = .superseded
      · simp [live]
      · have isOpen : step.status.open := by
          refine ⟨live, ?_⟩
          unfold splitStep at taken
          split at taken
          · cases taken
          · split at taken
            · split at taken
              · cases taken
              · cases taken
            next unended => simpa using unended
        simp [live, taken, StepRun.move, moves _ isOpen]
    · exact fun kept => absurd taken kept
  · simp [taken]

theorem adoptRevision_some {next : GoalRun} {keep : List Nat} {now : Int}
    (adopted : adoptRevision goal plan revision keep now = some next) :
    splitAccepted goal plan = true ∧ goal.plans revision = none ∧
      next.plans = (fun other => if other = revision then some plan else goal.plans other) ∧
      next.currentRevision = revision ∧
      next.liveSteps = (goal.liveSteps.filter fun step =>
        splitStep goal plan step != some .superseded) ++ createdSteps goal plan revision := by
  unfold adoptRevision at adopted
  split at adopted
  next asked =>
    rw [Bool.and_eq_true, Option.isNone_iff_eq_none] at asked
    rw [Option.some.injEq] at adopted
    rw [← adopted]
    refine ⟨asked.1, asked.2, rfl, rfl, ?_⟩
    have created : (createdSteps goal plan revision).filter (·.status != .superseded) =
        createdSteps goal plan revision := by
      apply List.filter_eq_self.mpr
      intro row member
      rw [(createdSteps_new member).1]
      rfl
    have old : goal.stepRuns.filter
        ((·.status != .superseded) ∘ supersedeIn goal plan revision) =
        goal.liveSteps.filter fun step => splitStep goal plan step != some .superseded := by
      rw [GoalRun.liveSteps, List.filter_filter]
      apply List.filter_congr
      intro row member
      rw [Function.comp_apply, (supersedeIn_live goal plan revision row).1, Bool.and_comm]
    rw [GoalRun.liveSteps, List.filter_append, List.filter_map, created, old]
    congr 1
    rw [List.map_congr_left (g := id), List.map_id]
    intro row member
    exact (supersedeIn_live goal plan revision row).2 (by simpa using (List.mem_filter.mp member).2)
  · cases adopted

/-- A StepRun the revision creates, by the entry it is of. -/
theorem mem_createdSteps {row : StepRun} (created : row ∈ createdSteps goal plan revision) :
    ∃ entry ∈ plan.steps, entry.key ∉ keptKeys goal plan ∧ row.stepKey = entry.key ∧
      row.introducedInRevision = revision ∧ row.status = .pending := by
  obtain ⟨index, bound, rfl⟩ := List.mem_mapIdx.mp created
  obtain ⟨member, notKept⟩ := List.mem_filter.mp (List.getElem_mem bound)
  refine ⟨_, member, ?_, rfl, rfl, rfl⟩
  simpa using notKept

theorem createdSteps_keys : (createdSteps goal plan revision).map (·.stepKey) =
    (plan.steps.filter fun entry => !(keptKeys goal plan).contains entry.key).map (·.key) := by
  unfold createdSteps
  apply List.ext_getElem
  · simp
  · intro index inMap inPlan
    simp

/-- A kept StepRun has the entry of the plan. -/
theorem splitStep_kept : splitStep goal plan step = some .kept ↔
    ∃ entry ∈ plan.steps, entry.key = step.stepKey ∧ goal.entry step = some entry := by
  unfold splitStep
  constructor
  · intro kept
    split at kept
    next same =>
      obtain ⟨before, now, entry, introduced, current, inBefore, inNow⟩ := samePlanEntry_iff.mp same
      rw [Option.some.injEq] at current
      subst current
      obtain ⟨member, key⟩ := planStep_some inNow
      refine ⟨entry, member, key, ?_⟩
      rw [GoalRun.entry, introduced]
      exact inBefore
    · split at kept
      · split at kept
        · cases kept
        · cases kept
      · cases kept
  · rintro ⟨entry, member, key, found⟩
    obtain ⟨before, introduced, inBefore⟩ := Option.bind_eq_some_iff.mp found
    rw [if_pos]
    apply samePlanEntry_iff.mpr
    exact ⟨before, plan, entry, introduced, rfl, inBefore, key ▸ planStep_of_mem member⟩

/-- A StepRun that is history ended, and its key is not in the plan. -/
theorem splitStep_history (history : splitStep goal plan step = some .history) :
    endedStepStatus step.status = true ∧ planStep plan step.stepKey = none := by
  unfold splitStep at history
  split at history
  · cases history
  · split at history
    next ended =>
      split at history
      next => cases history
      next absent => exact ⟨ended, by simpa using absent⟩
    · cases history

theorem mem_keptKeys {key : String} : key ∈ keptKeys goal plan ↔
    ∃ row ∈ goal.liveSteps, splitStep goal plan row = some .kept ∧ row.stepKey = key := by
  unfold keptKeys
  constructor
  · intro member
    obtain ⟨row, kept, same⟩ := List.mem_map.mp member
    obtain ⟨live, split⟩ := List.mem_filter.mp kept
    exact ⟨row, live, by simpa using split, same⟩
  · rintro ⟨row, live, split, same⟩
    exact List.mem_map.mpr ⟨row, List.mem_filter.mpr ⟨live, by simpa using split⟩, same⟩

theorem planRows_adopted {next : GoalRun} {keep : List Nat} {now : Int} (rows : PlanRows goal)
    (adopted : adoptRevision goal plan revision keep now = some next) : PlanRows next := by
  obtain ⟨accepted, fresh, plans, current, live⟩ := adoptRevision_some adopted
  have inForce : next.currentPlan = some plan := by
    rw [GoalRun.currentPlan, current, plans]
    exact if_pos rfl
  have keptEntry : ∀ {row : StepRun} {entry : PlanStep}, goal.entry row = some entry →
      next.entry row = some entry := by
    intro row entry found
    obtain ⟨before, introduced, inBefore⟩ := Option.bind_eq_some_iff.mp found
    have older : row.introducedInRevision ≠ revision := by
      intro same
      rw [same, fresh] at introduced
      cases introduced
    rw [GoalRun.entry, plans]
    simp only [if_neg older, introduced]
    exact inBefore
  have newEntry : ∀ {row : StepRun} {entry : PlanStep}, entry ∈ plan.steps →
      row.stepKey = entry.key → row.introducedInRevision = revision →
      next.entry row = some entry := by
    intro row entry member key introduced
    rw [GoalRun.entry, plans, introduced, key]
    simp only [if_true, Option.bind_some]
    exact planStep_of_mem member
  constructor
  · exact ⟨plan, inForce⟩
  · rw [live, List.map_append, createdSteps_keys]
    apply List.Nodup.append
    · exact rows.keys.sublist (List.filter_sublist.map _)
    · exact plan.distinct.sublist (List.filter_sublist.map _)
    · intro key inOld inNew
      obtain ⟨row, stays, rfl⟩ := List.mem_map.mp inOld
      obtain ⟨wasLive, notTaken⟩ := List.mem_filter.mp stays
      obtain ⟨entry, created, key⟩ := List.mem_map.mp inNew
      obtain ⟨member, notKept⟩ := List.mem_filter.mp created
      have known := List.all_eq_true.mp accepted row wasLive
      cases split : splitStep goal plan row with
      | none => simp [split] at known
      | some kind =>
          cases kind with
          | kept =>
              have inKept := mem_keptKeys.mpr ⟨row, wasLive, split, key.symm⟩
              simp [inKept] at notKept
          | superseded => simp [split] at notTaken
          | history =>
              have absent := (splitStep_history split).2
              rw [← key, planStep_of_mem member] at absent
              cases absent
  · intro other same entry member
    rw [inForce, Option.some.injEq] at same
    subst same
    rw [live]
    by_cases kept : entry.key ∈ keptKeys goal plan
    · obtain ⟨row, wasLive, split, key⟩ := mem_keptKeys.mp kept
      obtain ⟨found, inPlan, sameKey, isEntry⟩ := splitStep_kept.mp split
      have unique : found = entry :=
        List.inj_on_of_nodup_map plan.distinct inPlan member (sameKey.trans key)
      subst unique
      refine ⟨row, List.mem_append_left _ (List.mem_filter.mpr ⟨wasLive, ?_⟩), key,
        keptEntry isEntry⟩
      rw [split]
      rfl
    · have created : entry.key ∈ (createdSteps goal plan revision).map (·.stepKey) := by
        rw [createdSteps_keys]
        exact List.mem_map_of_mem (List.mem_filter.mpr ⟨member, by simpa using kept⟩)
      obtain ⟨row, isCreated, key⟩ := List.mem_map.mp created
      obtain ⟨_, _, _, _, introduced, _⟩ := mem_createdSteps isCreated
      exact ⟨row, List.mem_append_right _ isCreated, key, newEntry member key introduced⟩
  · intro other same row isLive unended
    rw [inForce, Option.some.injEq] at same
    subst same
    rw [live] at isLive
    cases List.mem_append.mp isLive with
    | inl stays =>
        obtain ⟨wasLive, notTaken⟩ := List.mem_filter.mp stays
        have known := List.all_eq_true.mp accepted row wasLive
        cases split : splitStep goal plan row with
        | none => simp [split] at known
        | some kind =>
            cases kind with
            | kept =>
                obtain ⟨entry, member, key, found⟩ := splitStep_kept.mp split
                exact ⟨entry, member, key, keptEntry found⟩
            | superseded => simp [split] at notTaken
            | history =>
                have ended := (splitStep_history split).1
                rw [unended] at ended
                cases ended
    | inr created =>
        obtain ⟨entry, member, _, key, introduced, _⟩ := mem_createdSteps created
        exact ⟨entry, member, key.symm, newEntry member key introduced⟩

end Adopted

/-! ### Every reachable run -/

theorem retryByPerson_steps {goal : GoalRun} (distinct : goal.stepIds.Nodup) (id : Nat) :
    KeepsSteps goal (retryByPerson goal id) := by
  apply KeepsSteps.found distinct
  intro step stands
  dsimp only
  split
  · exact moveStep_steps stands (by decide) _ _ _
  · exact .none

theorem cancelGoalRun_steps (goal : GoalRun) (now : Int) : KeepsSteps goal (cancelGoalRun goal now) := by
  intro next cancelled
  unfold cancelGoalRun at cancelled
  split at cancelled
  · cases cancelled
  · obtain ⟨cancelling, moved, rfl⟩ := Option.map_eq_some_iff.mp cancelled
    obtain ⟨status, _, rfl⟩ := Option.map_eq_some_iff.mp moved
    refine ⟨rfl, rfl, _, rfl, fun step _ => ?_⟩
    cases moves : step.move .cancel none none none with
    | none => exact .refl step
    | some row =>
        obtain ⟨isOpen, unsuperseded, id, key, introduced⟩ := move_carries (by decide) moves
        rw [Option.getD_some]
        constructor
        · exact id
        · exact key
        · exact introduced
        · exact ⟨fun superseded => absurd superseded unsuperseded,
            fun superseded => absurd superseded isOpen.1⟩
        · intro ended
          rw [isOpen.2] at ended
          cases ended

/-- Every label but a revision carries the StepRuns along. -/
theorem runStep_carries {goal next : GoalRun} {label : RunLabel} (sound : RowsSound goal)
    (moved : runStep goal label = some next) :
    Carries goal next ∨ ∃ plan revision keep now adopted,
      adoptRevision goal plan revision keep now = some adopted ∧ Carries adopted next := by
  have environment : label.settles = true → Carries goal next := by
    intro asked
    obtain ⟨_, stepRuns, course, _⟩ := settlingStep sound moved asked
    exact .of_rows course.plans course.currentRevision stepRuns
  cases label with
  | taskEnds task outcome => exact .inl (environment rfl)
  | actionMoves action event kind => exact .inl (environment rfl)
  | reconciles action verdict => exact .inl (environment rfl)
  | decidesReexecute action => exact .inl (environment rfl)
  | checkSettles round key status =>
      unfold runStep settleCheck at moved
      dsimp only at moved
      split at moved
      · cases moved
        exact .inl (.of_rows rfl rfl rfl)
      · cases moved
  | requests task action requestedAt identity resolved =>
      obtain ⟨step, row, _, rfl, _⟩ := requestStepAction_some moved
      exact .inl (.of_rows rfl rfl rfl)
  | invokes caller task =>
      obtain ⟨step, _, rfl⟩ := invokeNested_some moved
      exact .inl (.of_rows rfl rfl rfl)
  | advances now =>
      unfold runStep beginAdvance at moved
      dsimp only at moved
      split at moved
      · cases moved
      · split at moved
        · cases moved
          exact .inl (.of_rows rfl rfl rfl)
        · split at moved
          · cases moved
            exact .inl (.of_rows rfl rfl rfl)
          · cases moved
  | statement oracle =>
      obtain ⟨advance, _, ran⟩ := Option.bind_eq_some_iff.mp moved
      by_cases adopts : advance.point = .planning ∧
          ∃ plan revision, oracle.planning = .adopts plan revision
      · right
        obtain ⟨atPlanning, plan, revision, adopts⟩ := adopts
        unfold advanceStatement at ran
        simp only [atPlanning, adopts] at ran
        split at ran
        · obtain ⟨adopted, made, rfl⟩ := Option.map_eq_some_iff.mp ran
          exact ⟨plan, revision, [], advance.now, adopted, made, goesTo_steps adopted advance _⟩
        · cases ran
      · left
        apply advanceStatement_steps advance oracle sound.distinct _ next ran
        intro atPlanning plan revision planning
        exact adopts ⟨atPlanning, plan, revision, planning⟩
  | resumes now retrySteps =>
      left
      obtain ⟨_, _, retried, folded, _, resumed⟩ := resumeGoalRun_some moved
      have carried : Carries goal retried ∧ retried.stepIds.Nodup := by
        refine retries_keep (fun later => Carries goal later ∧ later.stepIds.Nodup) ?_
          ⟨.refl goal, sound.distinct⟩ folded
        intro before id after ⟨carries, distinct⟩ step
        have one := retryByPerson_steps distinct id after step
        refine ⟨carries.trans one, ?_⟩
        rw [one.stepIds]
        exact distinct
      exact carried.1.trans (moveGoal_steps _ _ _ _ next resumed)
  | revises now plan revision keep =>
      unfold runStep reviseGoalRun at moved
      dsimp only at moved
      split at moved
      · cases moved
      · exact .inr ⟨plan, revision, keep, now, next, moved, .refl next⟩
  | pauses now =>
      unfold runStep at moved
      dsimp only at moved
      split at moved
      · cases moved
      · exact .inl (moveGoal_steps _ _ _ _ next moved)
  | cancels now => exact .inl (cancelGoalRun_steps goal now next moved)
  | finishesCancel now =>
      unfold runStep at moved
      dsimp only at moved
      split at moved
      · cases moved
      · exact .inl (moveGoal_steps _ _ _ _ next moved)

theorem runStep_planRows {goal next : GoalRun} {label : RunLabel} (sound : RowsSound goal)
    (rows : PlanRows goal) (moved : runStep goal label = some next) : PlanRows next := by
  rcases runStep_carries sound moved with carries | ⟨plan, revision, keep, now, adopted, adopts, later⟩
  · exact carries.planRows rows
  · exact later.planRows (planRows_adopted rows adopts)

theorem confirmedRun_planRows (plan : GoalPlan) (statement : String) (now : Int) :
    PlanRows (confirmedRun plan statement now) := by
  have live : (confirmedRun plan statement now).liveSteps =
      (confirmedRun plan statement now).stepRuns := by
    apply List.filter_eq_self.mpr
    intro row member
    obtain ⟨index, bound, rfl⟩ := List.mem_mapIdx.mp member
    rfl
  have keys : (confirmedRun plan statement now).stepRuns.map (·.stepKey) =
      plan.steps.map (·.key) := by
    apply List.ext_getElem
    · simp [confirmedRun]
    · intro index inMap inPlan
      simp [confirmedRun]
  have entries : ∀ row ∈ (confirmedRun plan statement now).stepRuns,
      row.introducedInRevision = 1 := by
    intro row member
    obtain ⟨index, bound, rfl⟩ := List.mem_mapIdx.mp member
    rfl
  have found : ∀ row ∈ (confirmedRun plan statement now).stepRuns, ∀ entry ∈ plan.steps,
      entry.key = row.stepKey → (confirmedRun plan statement now).entry row = some entry := by
    intro row member entry planned key
    rw [GoalRun.entry, entries row member, ← key]
    exact planStep_of_mem planned
  constructor
  · exact ⟨plan, rfl⟩
  · rw [live, keys]
    exact plan.distinct
  · intro other same entry member
    cases same
    rw [live]
    have inKeys : entry.key ∈ (confirmedRun plan statement now).stepRuns.map (·.stepKey) :=
      keys ▸ List.mem_map_of_mem member
    obtain ⟨row, inRows, key⟩ := List.mem_map.mp inKeys
    exact ⟨row, inRows, key, found row inRows entry member key.symm⟩
  · intro other same row isLive _
    cases same
    rw [live] at isLive
    have inKeys : row.stepKey ∈ plan.steps.map (·.key) := keys ▸ List.mem_map_of_mem isLive
    obtain ⟨entry, member, key⟩ := List.mem_map.mp inKeys
    exact ⟨entry, member, key, found row isLive entry member key⟩

theorem reachable_planRows {goal : GoalRun} (reached : goalRunSystem.Reachable goal) :
    PlanRows goal := by
  have preserved : goalRunSystem.Preserved fun run => RunSound run ∧ PlanRows run := by
    rintro state label next ⟨sound, rows⟩ moved
    exact ⟨runStep_sound sound moved, runStep_planRows sound.rows rows moved⟩
  obtain ⟨start, labels, ⟨plan, statement, now, rfl⟩, ran⟩ := reached
  exact (goalRunSystem.run_preserves preserved
    ⟨confirmedRun_sound plan statement now, confirmedRun_planRows plan statement now⟩ ran).2

end NextTime.Goal
