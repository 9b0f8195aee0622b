import NextTime.Goal.StepWork

/-
The verification of a run: it enters `verifying` when every step is done and nothing
of it is left running, opens one round on the plan in force, and completes when that
round has passed.
-/

namespace NextTime.Goal

/-! ### Rounds and their numbers -/

theorem latestRound_eq (goal : GoalRun) : goal.latestRound = goal.roundNumbers.foldl max 0 := by
  unfold GoalRun.latestRound GoalRun.roundNumbers
  rw [List.foldl_map]

theorem foldl_max_append (numbers : List Nat) (number : Nat) :
    (numbers ++ [number]).foldl max 0 = max (numbers.foldl max 0) number := by
  rw [List.foldl_append, List.foldl_cons, List.foldl_nil]

theorem le_foldl_max {numbers : List Nat} {number : Nat} (member : number ∈ numbers) :
    number ≤ numbers.foldl max 0 := by
  induction numbers using List.reverseRecOn with
  | nil => cases member
  | append_singleton numbers last ih =>
      rw [foldl_max_append]
      rcases List.mem_append.mp member with old | new
      · exact (ih old).trans (Nat.le_max_left _ _)
      · rw [List.mem_singleton.mp new]
        exact Nat.le_max_right _ _

theorem openRound_numbers (goal : GoalRun) (plan : GoalPlan) (now : Int) :
    (goal.openRound plan now).roundNumbers = goal.roundNumbers ++ [goal.latestRound + 1] := by
  unfold GoalRun.openRound GoalRun.roundNumbers
  rw [supersedePending_numbers, List.map_append, List.map_singleton]

theorem openRound_latest (goal : GoalRun) (plan : GoalPlan) (now : Int) :
    (goal.openRound plan now).latestRound = goal.latestRound + 1 := by
  rw [latestRound_eq, openRound_numbers, foldl_max_append, ← latestRound_eq]
  omega

theorem openRound_distinct {goal : GoalRun} (distinct : goal.roundNumbers.Nodup) (plan : GoalPlan)
    (now : Int) : (goal.openRound plan now).roundNumbers.Nodup := by
  rw [openRound_numbers, List.nodup_append]
  refine ⟨distinct, List.nodup_singleton _, ?_⟩
  intro number old other new
  have bound := le_foldl_max old
  rw [← latestRound_eq] at bound
  rw [List.mem_singleton.mp new]
  omega

/-! ### What holds when a run verifies and when it is achieved -/

/-- The latest round: opened on the plan in force once every live step was done, and
nothing happened to the plan, the steps or the rounds since. -/
structure LastRound (goal : GoalRun) (round : AcceptanceRound) : Prop where
  member : round ∈ goal.rounds
  latest : round.round = goal.latestRound
  revision : round.planRevision = goal.currentRevision
  checks : ∃ plan, goal.currentPlan = some plan ∧
    round.checks.map (·.check) = roundAcceptance plan goal.statement
  opened : ∃ earlier live, goal.history = earlier ++ [.roundOpened round.round live] ∧
    ∀ status ∈ live, doneStepStatus status = true

def AcceptanceRound.passed (round : AcceptanceRound) : Prop :=
  ∀ row ∈ round.checks, row.status = .passed

/-- Every step is done, no Task is live, and revised steps have nothing unsettled. -/
structure Rested (goal : GoalRun) : Prop where
  done : everyStepDone goal = true
  tasks : ∀ task ∈ goal.tasks, task.live = false
  superseded : ∀ step ∈ goal.stepRuns, step.status = .superseded → ActionsSettled goal step.id

/-- The run verifies or was achieved. -/
def GoalRun.ending (goal : GoalRun) : Prop :=
  goal.status = .verifying ∨ goal.status = .completed

structure Ending (goal : GoalRun) : Prop where
  rested : Rested goal
  round : ∃ round, LastRound goal round ∧ (goal.status = .completed → round.passed)

/-- Where an advance may stand in a run that neither works nor is paused. -/
def AdvancePoint.afterWork : AdvancePoint → Bool
  | .verifies | .planning | .done => true
  | _ => false

structure VerifySound (goal : GoalRun) : Prop where
  distinct : goal.roundNumbers.Nodup
  working : ∀ advance, goal.advance = some advance → advance.point.afterWork = false →
    goal.status = .running ∨ goal.status = .paused
  ending : goal.ending → Ending goal

theorem Rested.settles {goal next : GoalRun} (rested : Rested goal)
    (settles : WorkSettles goal next) (stepRuns : next.stepRuns = goal.stepRuns) : Rested next := by
  refine ⟨?_, ?_, ?_⟩
  · unfold everyStepDone GoalRun.liveSteps
    rw [stepRuns]
    exact rested.done
  · obtain ⟨change, tasks, each⟩ := settles.tasks
    intro task member
    rw [tasks] at member
    obtain ⟨old, inOld, rfl⟩ := List.mem_map.mp member
    cases live : (change old).live with
    | false => rfl
    | true =>
        have was := (each old inOld).live live
        rw [rested.tasks old inOld] at was
        cases was
  · intro step member superseded
    rw [stepRuns] at member
    exact settles.actionsSettled (rested.superseded step member superseded)

theorem Rested.same {goal other : GoalRun} (rested : Rested goal) (same : SameRows goal other) :
    Rested other :=
  rested.settles (WorkSettles.of_same same.tasks same.actions) same.stepRuns

/-- Nothing enters a step of a rested run. -/
theorem Rested.closed {goal : GoalRun} (rested : Rested goal) {step : StepRun}
    (member : step ∈ goal.stepRuns) : takesWork step.status = false := by
  have done := rested.done
  unfold everyStepDone at done
  rw [Bool.and_eq_true, List.all_eq_true] at done
  by_cases superseded : step.status = .superseded
  · rw [superseded]
    rfl
  · have ended := done.2 step (List.mem_filter.mpr ⟨member, by simpa using superseded⟩)
    cases status : step.status <;> rw [status] at ended <;> first | rfl | cases ended

/-- A round that is later found with other statuses of its checks. -/
theorem LastRound.kept {goal next : GoalRun} {round later : AcceptanceRound}
    (last : LastRound goal round) (member : later ∈ next.rounds)
    (number : later.round = round.round) (revision : later.planRevision = round.planRevision)
    (checks : later.checks.map (·.check) = round.checks.map (·.check))
    (numbers : next.roundNumbers = goal.roundNumbers)
    (current : next.currentRevision = goal.currentRevision) (plans : next.plans = goal.plans)
    (statement : next.statement = goal.statement) (history : next.history = goal.history) :
    LastRound next later := by
  refine ⟨member, ?_, ?_, ?_, ?_⟩
  · rw [latestRound_eq, numbers, ← latestRound_eq, number]
    exact last.latest
  · rw [revision, current]
    exact last.revision
  · obtain ⟨plan, inForce, declared⟩ := last.checks
    refine ⟨plan, ?_, ?_⟩
    · rw [GoalRun.currentPlan, plans, current]
      exact inForce
    · rw [checks, statement]
      exact declared
  · rw [history, number]
    exact last.opened

theorem Ending.kept {goal next : GoalRun} (ended : Ending goal) (rested : Rested next)
    (course : SameCourse goal next) : Ending next := by
  obtain ⟨round, last, passed⟩ := ended.round
  refine ⟨rested, round, ?_, ?_⟩
  · refine last.kept ?_ rfl rfl rfl ?_ course.currentRevision course.plans course.statement
      course.history
    · rw [course.rounds]
      exact last.member
    · rw [GoalRun.roundNumbers, course.rounds]
      rfl
  · rw [course.status]
    exact passed

/-! ### Opening and judging a round -/

theorem pause_verifying {goal : GoalRun} (verifying : goal.status = .verifying)
    (reason : GoalRunPauseReason) (now : Int) : (goal.pause reason now).status = .paused := by
  have edge : Shared.transition goalRunEdges goal.status .pause = some .paused := by
    rw [verifying]
    rfl
  rw [GoalRun.pause, if_pos (.inr verifying), GoalRun.moveGoal, edge]
  rfl

theorem not_ending_of_paused {goal : GoalRun} (paused : goal.status = .paused) : ¬ goal.ending := by
  rintro (verifying | completed)
  · exact nomatch paused.symm.trans verifying
  · exact nomatch paused.symm.trans completed

theorem openRound_last {goal : GoalRun} {plan : GoalPlan} (now : Int)
    (inForce : goal.currentPlan = some plan) (done : everyStepDone goal = true) :
    ∃ round, LastRound (goal.openRound plan now) round := by
  refine ⟨{ round := goal.latestRound + 1
            planRevision := goal.currentRevision
            createdAt := now
            checks := (roundAcceptance plan goal.statement).map fun check =>
              { check := check, status := .pending } }, ?_, ?_, rfl, ⟨plan, inForce, ?_⟩,
    ⟨goal.history, goal.liveSteps.map (·.status), rfl, ?_⟩⟩
  · refine List.mem_map.mpr ⟨_, List.mem_append_right _ (List.mem_singleton_self _), if_neg ?_⟩
    simp
  · exact (openRound_latest goal plan now).symm
  · rw [List.map_map]
    exact List.map_id _
  · unfold everyStepDone at done
    rw [Bool.and_eq_true, List.all_eq_true] at done
    intro status member
    obtain ⟨step, live, rfl⟩ := List.mem_map.mp member
    exact done.2 step live

/-- The read of the current round finds the last one or nothing. -/
theorem readCurrentRound_last {goal : GoalRun} {round : AcceptanceRound}
    (distinct : goal.roundNumbers.Nodup) (last : LastRound goal round) :
    goal.readCurrentRound = [] ∨ goal.readCurrentRound = round.checks := by
  have found : ∀ other ∈ goal.rounds.filter (fun round =>
      round.round == goal.latestRound && goal.updatedAt ≤ round.createdAt), other = round := by
    intro other member
    obtain ⟨inRounds, current⟩ := List.mem_filter.mp member
    rw [Bool.and_eq_true, beq_iff_eq] at current
    exact List.inj_on_of_nodup_map distinct inRounds last.member
      (current.1.trans last.latest.symm)
  have nodup : (goal.rounds.filter fun round =>
      round.round == goal.latestRound && goal.updatedAt ≤ round.createdAt).Nodup :=
    distinct.of_map.filter _
  unfold GoalRun.readCurrentRound
  cases rows : goal.rounds.filter (fun round =>
      round.round == goal.latestRound && goal.updatedAt ≤ round.createdAt) with
  | nil => exact .inl rfl
  | cons first rest =>
      rw [rows] at found nodup
      have same : first = round := found first List.mem_cons_self
      subst same
      cases rest with
      | nil => exact .inr (by rw [List.flatMap_singleton])
      | cons second rest =>
          have again := found second (List.mem_cons_of_mem _ List.mem_cons_self)
          rw [again] at nodup
          exact absurd List.mem_cons_self (List.nodup_cons.mp nodup).1

theorem supersedePending_passed {rounds : List AcceptanceRound} {round : AcceptanceRound}
    (member : round ∈ rounds) (passed : round.passed) :
    round ∈ GoalRun.supersedePending rounds none := by
  refine List.mem_map.mpr ⟨round, member, ?_⟩
  have same : (round.checks.map fun row =>
      if row.status = .pending then { row with status := .superseded } else row) = round.checks := by
    refine (List.map_congr_left ?_).trans (List.map_id round.checks)
    intro row inRound
    apply if_neg
    rw [passed row inRound]
    nofun
  rw [if_pos (by rfl), same]

/-- A rested run that verifies stays so: its round is opened, waited for or passed. -/
theorem judgeRound_ends {goal next : GoalRun} {advance : Advance} {read : List AcceptanceCheckRow}
    (distinct : goal.roundNumbers.Nodup) (rested : Rested goal)
    (verifying : goal.status = .verifying)
    (reads : read = [] ∨ ∃ round, LastRound goal round ∧ read = round.checks)
    (judged : judgeRound goal advance read = some next) :
    next.roundNumbers.Nodup ∧ (next.ending → Ending next) := by
  have later := rested.same (judgeRound_same judged)
  have paused : ∀ reason, (pauses goal advance reason).roundNumbers.Nodup ∧
      ((pauses goal advance reason).ending → Ending (pauses goal advance reason)) := by
    intro reason
    refine ⟨?_, fun ending => absurd ending (not_ending_of_paused (pause_verifying verifying _ _))⟩
    rw [(pauses_kept goal advance reason).rounds]
    exact distinct
  unfold judgeRound at judged
  split at judged
  · split at judged
    · cases judged
      exact paused _
    next plan inForce =>
      cases judged
      refine ⟨openRound_distinct distinct plan advance.now, fun _ending => ?_⟩
      obtain ⟨round, last⟩ := openRound_last advance.now inForce rested.done
      refine ⟨later, round, last, ?_⟩
      intro completed
      exact nomatch verifying.symm.trans completed
  next some =>
    obtain ⟨round, last, rfl⟩ := reads.resolve_left some
    have stands : goal.roundNumbers.Nodup ∧ (goal.ending → Ending goal) := by
      refine ⟨distinct, fun _ending => ⟨rested, round, last, ?_⟩⟩
      intro completed
      exact nomatch verifying.symm.trans completed
    split at judged
    · cases judged
      exact stands
    split at judged
    · cases judged
      exact paused _
    next noneUnmet =>
      split at judged
      · cases judged
        exact stands
      next nonePending =>
        have passed : round.passed := by
          intro row member
          by_cases pending : row.status = .pending
          · exact absurd (List.any_eq_true.mpr ⟨row, member, by simpa using pending⟩) nonePending
          · by_contra unmet
            exact noneUnmet (List.any_eq_true.mpr ⟨row, member, by simp [unmet, pending]⟩)
        have numbers := moveGoal_numbers judged
        refine ⟨by rw [numbers]; exact distinct, fun _ending => ⟨later, round, ?_, fun _ => passed⟩⟩
        obtain ⟨status, _edge, rfl⟩ := Option.map_eq_some_iff.mp judged
        refine last.kept ?_ rfl rfl rfl numbers rfl rfl rfl rfl
        dsimp only
        rw [if_pos verifying]
        exact supersedePending_passed last.member passed

/-! ### Every statement and every step -/

theorem Ending.stands {goal next : GoalRun} (ended : Ending goal) (rows : SameRows goal next)
    (course : SameCourse goal next) : Ending next :=
  ended.kept (ended.rested.same rows) course

theorem withAdvance_course (goal : GoalRun) (advance : Option Advance) :
    SameCourse goal (goal.withAdvance advance) :=
  ⟨rfl, rfl, rfl, rfl, rfl, rfl⟩

/-- Where the run works or is paused, nothing is to be shown of its end. -/
theorem VerifySound.of_working {goal : GoalRun} (distinct : goal.roundNumbers.Nodup)
    (works : goal.status = .running ∨ goal.status = .paused) : VerifySound goal := by
  refine ⟨distinct, fun _advance _under _point => works, fun ending => ?_⟩
  rcases works with running | paused
  · rcases ending with verifying | completed
    · exact nomatch running.symm.trans verifying
    · exact nomatch running.symm.trans completed
  · exact absurd ending (not_ending_of_paused paused)

theorem Kept.works {goal next : GoalRun} (kept : Kept goal next)
    (works : goal.status = .running ∨ goal.status = .paused) :
    next.status = .running ∨ next.status = .paused := by
  rcases kept.status with same | paused
  · rw [same]
    exact works
  · exact .inr paused

/-- What an advance leaves at one of its last points. -/
theorem VerifySound.goesTo {goal : GoalRun} {advance : Advance} {point : AdvancePoint}
    (distinct : goal.roundNumbers.Nodup) (ending : goal.ending → Ending goal)
    (after : point.afterWork = true) : VerifySound (goal.goesTo advance point) := by
  refine ⟨distinct, ?_, ?_⟩
  · intro later named working
    cases named
    rw [after] at working
    cases working
  · intro ends
    exact (ending ends).stands (goesTo_same goal advance point) (withAdvance_course goal _)

theorem settles_rested {goal : GoalRun} {advance : Advance} (tasks : TasksSeen goal advance)
    (settled : SupersededSettled goal [] false) (done : everyStepDone goal = true)
    (none : advance.liveTasks = []) : Rested goal := by
  refine ⟨done, ?_, ?_⟩
  · intro task member
    cases live : task.live with
    | false => rfl
    | true =>
        obtain ⟨seen, listed, _same⟩ := tasks task member live
        rw [none] at listed
        cases listed
  · intro step member superseded
    rcases settled step member superseded List.not_mem_nil with busy | quiet
    · cases busy
    · exact quiet

theorem advanceStatement_verifies {goal next : GoalRun} {advance : Advance} {oracle : Oracle}
    (under : goal.advance = some advance) (knows : AdvanceSound goal advance)
    (verify : VerifySound goal) (ran : advanceStatement goal advance oracle = some next) :
    VerifySound next := by
  have kept := (advanceStatement_effect ran).2
  cases after : advance.point.afterWork with
  | false =>
      have works := verify.working advance under after
      rcases kept with kept | verifies | ⟨busy, point⟩
      · refine VerifySound.of_working ?_ (kept.works works)
        rw [kept.rounds]
        exact verify.distinct
      · rw [verifies] at after
        cases after
      · unfold AdvanceSound at knows
        unfold advanceStatement at ran
        simp only [point] at ran knows
        split at ran
        · cases ran
          exact VerifySound.of_working verify.distinct works
        next quiet =>
          obtain ⟨verifying, entered, ran⟩ := Option.bind_eq_some_iff.mp ran
          obtain ⟨opened, judged, ran⟩ := Option.bind_eq_some_iff.mp ran
          cases ran
          rw [Bool.or_eq_true, not_or, Bool.not_eq_true, Bool.not_eq_true, Bool.not_eq_false',
            List.isEmpty_iff] at quiet
          obtain ⟨idle, none⟩ := quiet
          subst idle
          have rested := (settles_rested knows.1 knows.2.1 knows.2.2 none).same
            (moveGoal_same entered)
          have distinct : verifying.roundNumbers.Nodup := by
            rw [moveGoal_numbers entered]
            exact verify.distinct
          have status : verifying.status = .verifying := by
            have edges : ∀ edge ∈ goalRunEdges, edge.2.1 = .verify → edge.2.2 = .verifying := by
              decide
            exact edges _ (moveGoal_status entered) rfl
          obtain ⟨numbers, ends⟩ := judgeRound_ends distinct rested status (.inl rfl) judged
          exact VerifySound.goesTo numbers ends rfl
  | true =>
      unfold advanceStatement at ran
      cases point : advance.point with
      | verifies =>
          simp only [point] at ran
          obtain ⟨judged, verified, rfl⟩ := Option.map_eq_some_iff.mp ran
          unfold AdvanceSound at knows
          simp only [point] at knows
          have ended := verify.ending (.inl knows)
          obtain ⟨round, last, _passed⟩ := ended.round
          have reads : goal.readCurrentRound = [] ∨
              ∃ round, LastRound goal round ∧ goal.readCurrentRound = round.checks := by
            rcases readCurrentRound_last verify.distinct last with none | found
            · exact .inl none
            · exact .inr ⟨round, last, found⟩
          obtain ⟨numbers, ends⟩ :=
            judgeRound_ends verify.distinct ended.rested knows reads verified
          exact VerifySound.goesTo numbers ends rfl
      | planning =>
          simp only [point] at ran
          split at ran
          · cases ran
            exact VerifySound.goesTo verify.distinct verify.ending rfl
          next reason _pauses =>
            cases ran
            refine VerifySound.goesTo ?_ ?_ rfl
            · rw [(pauses_kept goal advance reason).rounds]
              exact verify.distinct
            · intro ends
              rcases pause_cases goal reason advance.now with same | paused
              · unfold pauses at ends ⊢
                rw [same] at ends ⊢
                exact verify.ending ends
              · exact absurd ends (not_ending_of_paused paused)
          · split at ran
            next asked =>
              cases ran
              exact VerifySound.of_working verify.distinct asked.1
            · cases ran
          · split at ran
            next running =>
              obtain ⟨adopted, revised, rfl⟩ := Option.map_eq_some_iff.mp ran
              obtain ⟨_revises, keeps, _advance⟩ := adoptRevision_revises revised
              refine VerifySound.of_working ?_ (keeps.works (.inl running))
              exact keeps.rounds ▸ verify.distinct
            · cases ran
      | done =>
          simp only [point] at ran
          cases ran
          refine ⟨verify.distinct, nofun, fun ends => ?_⟩
          exact (verify.ending ends).stands (withAdvance_same goal none)
            (withAdvance_course goal none)
      | _ =>
          rw [point] at after
          cases after

/-- A check settles in a round: what has passed stays so. -/
theorem settleCheck_verifies {goal next : GoalRun} {number : Nat} {key : String}
    {status : GoalAcceptanceCheckStatus} (verify : VerifySound goal)
    (settled : settleCheck goal number key status = some next) : VerifySound next := by
  have rows := settleCheck_same settled
  unfold settleCheck at settled
  split at settled
  · cases settled
    have numbers : ∀ rounds : List AcceptanceRound, (rounds.map fun opened =>
        if opened.round = number then
          { opened with
            checks := opened.checks.map fun row =>
              if row.check.key = key ∧ row.status = .pending then { row with status := status }
              else row }
        else opened).map (·.round) = rounds.map (·.round) := by
      intro rounds
      rw [List.map_map]
      apply List.map_congr_left
      intro round _member
      simp only [Function.comp]
      split
      · rfl
      · rfl
    refine ⟨?_, verify.working, fun ends => ?_⟩
    · unfold GoalRun.roundNumbers
      rw [numbers]
      exact verify.distinct
    · obtain ⟨rested, round, last, passed⟩ := verify.ending ends
      refine ⟨rested.same rows, _, last.kept (List.mem_map_of_mem last.member) ?_ ?_ ?_
        (numbers goal.rounds) rfl rfl rfl rfl, ?_⟩
      · split
        · rfl
        · rfl
      · split
        · rfl
        · rfl
      · split
        · rw [List.map_map]
          apply List.map_congr_left
          intro row _member
          simp only [Function.comp]
          split
          · rfl
          · rfl
        · rfl
      · intro completed row member
        have allPassed := passed completed
        split at member
        · obtain ⟨old, inRound, rfl⟩ := List.mem_map.mp member
          rw [if_neg]
          · exact allPassed old inRound
          · rintro ⟨_key, pending⟩
            exact nomatch pending.symm.trans (allPassed old inRound)
        · exact allPassed row member
  · cases settled

theorem moveGoal_idle {goal next : GoalRun} {event : GoalRunEvent}
    {reason : Option GoalRunPauseReason} {now : Int} (verify : VerifySound goal)
    (idle : goal.advance = none) (moved : goal.moveGoal event reason now = some next)
    (byPerson : event ≠ .verify ∧ event ≠ .complete) : VerifySound next := by
  have edges : ∀ edge ∈ goalRunEdges, edge.2.1 ≠ .verify ∧ edge.2.1 ≠ .complete →
      edge.2.2 ≠ .verifying ∧ edge.2.2 ≠ .completed := by decide
  obtain ⟨notVerifying, notCompleted⟩ := edges _ (moveGoal_status moved) byPerson
  refine ⟨?_, ?_, ?_⟩
  · rw [moveGoal_numbers moved]
    exact verify.distinct
  · intro advance under
    rw [moveGoal_advance moved, idle] at under
    cases under
  · rintro (verifying | completed)
    · exact absurd verifying notVerifying
    · exact absurd completed notCompleted

theorem Ending.refuses {goal : GoalRun} (ended : Ending goal) {caller : Nat} :
    lockGoalStepForNewWork goal caller = none := by
  cases locked : lockGoalStepForNewWork goal caller with
  | none => rfl
  | some step =>
      obtain ⟨_caller, member, _none, works⟩ := lockGoalStepForNewWork_some locked
      rw [ended.rested.closed member] at works
      cases works

theorem retries_verify {goal next : GoalRun} {ids : List Nat}
    (verify : VerifySound goal ∧ goal.advance = none ∧ goal.status = .paused)
    (retried : ids.foldlM retryByPerson goal = some next) :
    VerifySound next ∧ next.advance = none ∧ next.status = .paused := by
  refine retries_keep
    (fun goal => VerifySound goal ∧ goal.advance = none ∧ goal.status = .paused) ?_ verify retried
  rintro before id after ⟨verify, none, paused⟩ step
  obtain ⟨_step, _row, _member, moves, _ended, _settled, _known, advance⟩ :=
    retryByPerson_cases step
  have status : after.status = .paused := by
    rcases moves.kept.status with same | paused'
    · exact same.trans paused
    · exact paused'
  refine ⟨VerifySound.of_working ?_ (.inr status), advance.trans none, status⟩
  rw [moves.kept.rounds]
  exact verify.distinct

theorem runStep_verifies {goal next : GoalRun} {label : RunLabel} (sound : RunSound goal)
    (verify : VerifySound goal) (moved : runStep goal label = some next) : VerifySound next := by
  have environment : label.settles = true → VerifySound next := by
    intro asked
    obtain ⟨settles, stepRuns, course, advance⟩ := settlingStep sound.rows moved asked
    refine ⟨?_, ?_, ?_⟩
    · rw [GoalRun.roundNumbers, course.rounds]
      exact verify.distinct
    · rw [advance, course.status]
      exact verify.working
    · unfold GoalRun.ending
      rw [course.status]
      intro ends
      have ended := verify.ending ends
      exact ended.kept (ended.rested.settles settles stepRuns) course
  cases label with
  | taskEnds task outcome => exact environment rfl
  | actionMoves action event kind => exact environment rfl
  | reconciles action verdict => exact environment rfl
  | decidesReexecute action => exact environment rfl
  | checkSettles round key status => exact settleCheck_verifies verify moved
  | requests task action requestedAt identity resolved =>
      obtain ⟨step, row, locked, rfl, _rest⟩ := requestStepAction_some moved
      refine ⟨verify.distinct, verify.working, fun ends => ?_⟩
      rw [(verify.ending ends).refuses] at locked
      cases locked
  | invokes caller task =>
      obtain ⟨step, locked, rfl⟩ := invokeNested_some moved
      refine ⟨verify.distinct, verify.working, fun ends => ?_⟩
      rw [(verify.ending ends).refuses] at locked
      cases locked
  | advances now =>
      have rows := beginAdvance_same moved
      unfold runStep beginAdvance at moved
      dsimp only at moved
      split at moved
      · cases moved
      split at moved
      next verifying =>
        cases moved
        refine ⟨verify.distinct, ?_, fun ends => ?_⟩
        · intro later named working
          cases named
          cases working
        · exact (verify.ending ends).stands rows (withAdvance_course goal _)
      split at moved
      next working =>
        cases moved
        exact VerifySound.of_working verify.distinct working
      · cases moved
  | statement oracle =>
      obtain ⟨advance, under, ran⟩ := Option.bind_eq_some_iff.mp moved
      exact advanceStatement_verifies under (sound.advance advance under) verify ran
  | resumes now retrySteps =>
      obtain ⟨none, paused, retried, folded, _idle, resumed⟩ := resumeGoalRun_some moved
      obtain ⟨kept, idle, _status⟩ := retries_verify ⟨verify, none, paused⟩ folded
      exact moveGoal_idle kept idle resumed ⟨nofun, nofun⟩
  | revises now plan revision keep =>
      unfold runStep reviseGoalRun at moved
      dsimp only at moved
      split at moved
      · cases moved
      next asked =>
        rw [not_or, not_not] at asked
        obtain ⟨_revises, kept, _advance⟩ := adoptRevision_revises moved
        refine VerifySound.of_working ?_ (kept.works (.inr asked.2))
        rw [kept.rounds]
        exact verify.distinct
  | pauses now =>
      unfold runStep at moved
      dsimp only at moved
      split at moved
      · cases moved
      next asked =>
        rw [Option.isSome_iff_ne_none, not_not] at asked
        exact moveGoal_idle verify asked moved ⟨nofun, nofun⟩
  | cancels now =>
      unfold runStep cancelGoalRun at moved
      dsimp only at moved
      split at moved
      · cases moved
      next asked =>
        rw [Option.isSome_iff_ne_none, not_not] at asked
        obtain ⟨cancelling, cancel, rfl⟩ := Option.map_eq_some_iff.mp moved
        have kept := moveGoal_idle verify asked cancel ⟨nofun, nofun⟩
        have edges : ∀ edge ∈ goalRunEdges, edge.2.1 = .cancel → edge.2.2 = .cancelling := by
          decide
        have status : cancelling.status = .cancelling := edges _ (moveGoal_status cancel) rfl
        refine ⟨kept.distinct, kept.working, ?_⟩
        rintro (verifying | completed)
        · exact nomatch status.symm.trans verifying
        · exact nomatch status.symm.trans completed
  | finishesCancel now =>
      unfold runStep at moved
      dsimp only at moved
      split at moved
      · cases moved
      next asked =>
        rw [Option.isSome_iff_ne_none, not_not] at asked
        exact moveGoal_idle verify asked moved ⟨nofun, nofun⟩

theorem confirmedRun_verifies (plan : GoalPlan) (statement : String) (now : Int) :
    VerifySound (confirmedRun plan statement now) :=
  VerifySound.of_working List.nodup_nil (.inl rfl)

end NextTime.Goal
