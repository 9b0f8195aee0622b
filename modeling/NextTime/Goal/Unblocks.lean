import NextTime.Goal.PlanGraph
import NextTime.Goal.RunSystem
import NextTime.Goal.Statements

/-
Phase C of an advance, over all StepRuns. On an accepted plan it leaves no step
pending whose dependencies are done, so a run in which nothing moves is done.
-/

namespace NextTime.Goal

open DepthFirst

/-- `unblockSteps`: the loop over the StepRuns `todo`. -/
def unblockSteps (goal : GoalRun) (advance : Advance) : List Nat → Option GoalRun
  | [] => some goal
  | id :: todo => do
      let step ← goal.findStep id
      let next ← unblockStep goal advance step
      unblockSteps next advance todo

/-- The steps the plan in force counts as done. -/
def doneKeys (goal : GoalRun) : List String :=
  (goal.stepRuns.filter fun step => doneStepStatus step.status).map (·.stepKey)

/-! ### The loop is the advance's -/

theorem pauses_goesTo (goal : GoalRun) (advance : Advance) (point : AdvancePoint)
    (reason : GoalRunPauseReason) :
    pauses (goal.goesTo advance point) { advance with point := point } reason =
      (pauses goal advance reason).goesTo advance point := by
  have same : (goal.goesTo advance point).status = goal.status := rfl
  by_cases going : goal.status = .running ∨ goal.status = .verifying
  · simp only [pauses, GoalRun.pause, same, if_pos going, GoalRun.moveGoal]
    cases Shared.transition goalRunEdges goal.status .pause with
    | none => rfl
    | some status => rfl
  · simp only [pauses, GoalRun.pause, same, if_neg going]

theorem moveStep_goesTo (goal : GoalRun) (advance : Advance) (point : AdvancePoint)
    (step : StepRun) :
    (goal.goesTo advance point).moveStep step .unblock none none none =
      (goal.moveStep step .unblock none none none).map (·.goesTo advance point) := by
  simp only [GoalRun.moveStep]
  cases step.move .unblock none none none with
  | none => rfl
  | some row => rfl

/-- Where the advance stands is not looked at. -/
theorem unblockStep_goesTo (goal : GoalRun) (advance : Advance) (point : AdvancePoint)
    (step : StepRun) :
    unblockStep (goal.goesTo advance point) { advance with point := point } step =
      (unblockStep goal advance step).map (·.goesTo advance point) := by
  have entries : (goal.goesTo advance point).entry step = goal.entry step := rfl
  have current : (goal.goesTo advance point).inCurrentPlan step = goal.inCurrentPlan step := rfl
  have rows : (goal.goesTo advance point).stepRuns = goal.stepRuns := rfl
  simp only [unblockStep, entries, current, rows, pauses_goesTo, moveStep_goesTo]
  rw [apply_ite (Option.map _)]
  congr 1
  cases goal.entry step with
  | none => rfl
  | some entry =>
      rw [apply_ite (Option.map _), apply_ite (Option.map _)]
      rfl

/-- Statement by statement, phase C of an advance is the loop. -/
theorem run_unblocks (oracle : Oracle) {goal next : GoalRun} {advance : Advance} {todo : List Nat}
    (unblocked : unblockSteps goal advance todo = some next) :
    goalRunSystem.run (goal.goesTo advance (.unblocks todo))
        (List.replicate todo.length (.statement oracle)) =
      some (next.goesTo advance (.unblocks [])) := by
  induction todo generalizing goal with
  | nil =>
      cases unblocked
      rfl
  | cons id todo ih =>
      obtain ⟨step, found, rest⟩ := Option.bind_eq_some_iff.mp unblocked
      obtain ⟨middle, first, later⟩ := Option.bind_eq_some_iff.mp rest
      have moved : goalRunSystem.step (goal.goesTo advance (.unblocks (id :: todo)))
          (.statement oracle) = some (middle.goesTo advance (.unblocks todo)) := by
        change ((goal.findStep id).bind fun step =>
          (unblockStep (goal.goesTo advance (.unblocks (id :: todo)))
            { advance with point := .unblocks (id :: todo) } step).bind fun next =>
              some (next.goesTo advance (.unblocks todo))) = _
        rw [found, Option.bind_some, unblockStep_goesTo, first]
        rfl
      rw [List.length_cons, List.replicate_succ, goalRunSystem.run_cons _ moved]
      exact ih later

/-! ### What it leaves -/

/-- The plan of the current revision has one live StepRun for each step, with its entry. -/
structure PlanInForce (goal : GoalRun) (plan : GoalPlan) : Prop where
  current : goal.currentPlan = some plan
  ids : goal.stepIds.Nodup
  keys : (goal.liveSteps.map (·.stepKey)).Perm (plan.steps.map (·.key))
  entries : ∀ step ∈ goal.liveSteps, goal.inCurrentPlan step = true

/-- No live step is ready, running, waiting, failed or cancelled. -/
def NothingMoves (goal : GoalRun) : Prop :=
  ∀ step ∈ goal.liveSteps, step.status ≠ .ready ∧ step.status ≠ .running ∧
    step.status ≠ .waiting ∧ step.status ≠ .failed ∧ step.status ≠ .cancelled

/-- A step with a dependency that is not done. -/
def Blocked (goal : GoalRun) (step : StepRun) : Prop :=
  ∃ entry, goal.entry step = some entry ∧ ∃ key ∈ entry.dependsOn.getD [], key ∉ doneKeys goal

/-- A row after some of the loop: as it was, or made ready. -/
structure RowUnblocks (before after : StepRun) : Prop where
  id : after.id = before.id
  stepKey : after.stepKey = before.stepKey
  introduced : after.introducedInRevision = before.introducedInRevision
  superseded : after.supersededInRevision = before.supersededInRevision
  status : after.status = before.status ∨ before.status = .pending ∧ after.status = .ready

structure Unblocks (goal next : GoalRun) : Prop where
  plans : next.plans = goal.plans
  revision : next.currentRevision = goal.currentRevision
  rows : ∃ change : StepRun → StepRun, next.stepRuns = goal.stepRuns.map change ∧
    ∀ step ∈ goal.stepRuns, RowUnblocks step (change step)

namespace RowUnblocks

variable {first second third : StepRun}

theorem refl (step : StepRun) : RowUnblocks step step := ⟨rfl, rfl, rfl, rfl, .inl rfl⟩

theorem trans (one : RowUnblocks first second) (two : RowUnblocks second third) :
    RowUnblocks first third := by
  constructor
  · exact two.id.trans one.id
  · exact two.stepKey.trans one.stepKey
  · exact two.introduced.trans one.introduced
  · exact two.superseded.trans one.superseded
  · cases one.status with
    | inl same =>
        rw [← same]
        exact two.status
    | inr unblocked =>
        cases two.status with
        | inl same => exact .inr ⟨unblocked.1, same.trans unblocked.2⟩
        | inr again =>
            rw [unblocked.2] at again
            cases again.1

theorem done (row : RowUnblocks first second) :
    doneStepStatus second.status = doneStepStatus first.status := by
  cases row.status with
  | inl same => rw [same]
  | inr unblocked =>
      rw [unblocked.1, unblocked.2]
      rfl

theorem live (row : RowUnblocks first second) :
    (second.status != .superseded) = (first.status != .superseded) := by
  cases row.status with
  | inl same => rw [same]
  | inr unblocked =>
      rw [unblocked.1, unblocked.2]
      rfl

theorem pending (row : RowUnblocks first second) (now : second.status = .pending) :
    first.status = .pending := by
  cases row.status with
  | inl same => exact same.symm.trans now
  | inr unblocked => exact unblocked.1

end RowUnblocks

namespace Unblocks

variable {goal next last : GoalRun}

theorem refl (goal : GoalRun) : Unblocks goal goal where
  plans := rfl
  revision := rfl
  rows := ⟨id, (List.map_id _).symm, fun step _ => .refl step⟩

theorem trans (one : Unblocks goal next) (two : Unblocks next last) : Unblocks goal last := by
  obtain ⟨first, rowsOne, changesOne⟩ := one.rows
  obtain ⟨second, rowsTwo, changesTwo⟩ := two.rows
  constructor
  · exact two.plans.trans one.plans
  · exact two.revision.trans one.revision
  · refine ⟨second ∘ first, by rw [rowsTwo, rowsOne, List.map_map], fun step member => ?_⟩
    apply (changesOne step member).trans
    apply changesTwo
    rw [rowsOne]
    exact List.mem_map_of_mem member

theorem doneKeys (unblocks : Unblocks goal next) : doneKeys next = doneKeys goal := by
  obtain ⟨change, rows, changes⟩ := unblocks.rows
  have kept : goal.stepRuns.filter ((fun step => doneStepStatus step.status) ∘ change) =
      goal.stepRuns.filter fun step => doneStepStatus step.status :=
    List.filter_congr fun step member => (changes step member).done
  rw [Goal.doneKeys, rows, List.filter_map, List.map_map, kept]
  apply List.map_congr_left
  intro step member
  exact (changes step (List.mem_of_mem_filter member)).stepKey

theorem entry (unblocks : Unblocks goal next) {before after : StepRun}
    (row : RowUnblocks before after) : next.entry after = goal.entry before := by
  rw [GoalRun.entry, GoalRun.entry, unblocks.plans, row.introduced, row.stepKey]

/-- A row of the later state, and what it was. -/
theorem row_of_mem (unblocks : Unblocks goal next) {after : StepRun}
    (member : after ∈ next.stepRuns) : ∃ before ∈ goal.stepRuns, RowUnblocks before after := by
  obtain ⟨change, rows, changes⟩ := unblocks.rows
  rw [rows] at member
  obtain ⟨before, inGoal, rfl⟩ := List.mem_map.mp member
  exact ⟨before, inGoal, changes before inGoal⟩

theorem blocked (unblocks : Unblocks goal next) {before after : StepRun}
    (row : RowUnblocks before after) (blocked : Blocked goal before) : Blocked next after := by
  obtain ⟨entry, found, key, depends, undone⟩ := blocked
  refine ⟨entry, (unblocks.entry row).trans found, key, depends, ?_⟩
  rw [unblocks.doneKeys]
  exact undone

theorem inForce (unblocks : Unblocks goal next) {plan : GoalPlan} (inForce : PlanInForce goal plan) :
    PlanInForce next plan := by
  have current : next.currentPlan = goal.currentPlan := by
    rw [GoalRun.currentPlan, unblocks.plans, unblocks.revision, GoalRun.currentPlan]
  obtain ⟨change, rows, changes⟩ := unblocks.rows
  have liveSteps : next.liveSteps = goal.liveSteps.map change := by
    have kept : goal.stepRuns.filter ((fun step => step.status != .superseded) ∘ change) =
        goal.liveSteps := List.filter_congr fun step member => (changes step member).live
    rw [GoalRun.liveSteps, rows, List.filter_map, kept]
  constructor
  · exact current.trans inForce.current
  · have sameIds : next.stepIds = goal.stepIds := by
      rw [GoalRun.stepIds, rows, List.map_map]
      exact List.map_congr_left fun step member => (changes step member).id
    rw [sameIds]
    exact inForce.ids
  · have sameKeys : next.liveSteps.map (·.stepKey) = goal.liveSteps.map (·.stepKey) := by
      rw [liveSteps, List.map_map]
      exact List.map_congr_left fun step member =>
        (changes step (List.mem_of_mem_filter member)).stepKey
    rw [sameKeys]
    exact inForce.keys
  · intro step member
    rw [liveSteps] at member
    obtain ⟨before, live, rfl⟩ := List.mem_map.mp member
    have row := changes before (List.mem_of_mem_filter live)
    rw [← inForce.entries before live, GoalRun.inCurrentPlan, GoalRun.inCurrentPlan,
      row.superseded, row.introduced, row.stepKey, unblocks.plans, current]

end Unblocks

theorem PlanInForce.entry {goal : GoalRun} {plan : GoalPlan} (inForce : PlanInForce goal plan)
    {step : StepRun} (live : step ∈ goal.liveSteps) :
    ∃ entry ∈ plan.steps, entry.key = step.stepKey ∧ goal.entry step = some entry := by
  have same := inForce.entries step live
  rw [GoalRun.inCurrentPlan, Bool.and_eq_true] at same
  obtain ⟨before, now, entry, introduced, current, inBefore, inNow⟩ := samePlanEntry_iff.mp same.2
  rw [inForce.current, Option.some.injEq] at current
  obtain ⟨member, key⟩ := planStep_some inNow
  refine ⟨entry, current ▸ member, key, ?_⟩
  rw [GoalRun.entry, introduced]
  exact inBefore

theorem findStep_of_known {goal : GoalRun} {id : Nat}
    (known : id ∈ goal.stepIds) : ∃ step, goal.findStep id = some step := by
  cases found : goal.findStep id with
  | some step => exact ⟨step, rfl⟩
  | none =>
      obtain ⟨step, member, same⟩ := List.mem_map.mp known
      have differs := List.find?_eq_none.mp found step member
      simp [same] at differs

/-- The row of a pending step that is made ready. -/
def StepRun.unblocked (step : StepRun) : StepRun :=
  { step with
    status := .ready
    waitingReason := none
    failureCategory := none }

theorem moveStep_unblock (goal : GoalRun) {step : StepRun} (pending : step.status = .pending) :
    goal.moveStep step .unblock none none none = some (goal.withStep step.unblocked) := by
  have moved : step.move .unblock none none none = some step.unblocked := by
    simp only [StepRun.move, pending]
    rfl
  rw [GoalRun.moveStep, moved]
  rfl

theorem withStep_unblocks {goal : GoalRun} {step : StepRun} (pending : step.status = .pending)
    (only : ∀ row ∈ goal.stepRuns, row.id = step.id → row = step) :
    Unblocks goal (goal.withStep step.unblocked) where
  plans := rfl
  revision := rfl
  rows := by
    refine ⟨_, rfl, fun row member => ?_⟩
    by_cases same : row.id = step.unblocked.id
    · rw [if_pos same, only row member same]
      exact ⟨rfl, rfl, rfl, rfl, .inr ⟨pending, rfl⟩⟩
    · rw [if_neg same]
      exact .refl row

/-- One step of the loop: it goes on, and leaves the step unblocked or held by a
dependency. -/
theorem unblockStep_unblocks {goal : GoalRun} {plan : GoalPlan} (inForce : PlanInForce goal plan)
    (advance : Advance) {step : StepRun} (member : step ∈ goal.stepRuns) :
    ∃ next, unblockStep goal advance step = some next ∧ Unblocks goal next ∧
      ∀ row ∈ next.stepRuns, row.id = step.id → row.status = .pending → Blocked next row := by
  have only : ∀ row ∈ goal.stepRuns, row.id = step.id → row = step := fun row other same =>
    List.inj_on_of_nodup_map inForce.ids other member same
  by_cases pending : step.status = .pending
  · have live : step ∈ goal.liveSteps := by
      apply List.mem_filter.mpr
      rw [pending]
      exact ⟨member, rfl⟩
    obtain ⟨entry, _, _, found⟩ := inForce.entry live
    have tests : unblockStep goal advance step =
        if !(entry.dependsOn.getD []).all (doneKeys goal).contains then some goal
        else goal.moveStep step .unblock none none none := by
      simp only [unblockStep, pending, found, inForce.entries step live]
      rfl
    by_cases ready : (entry.dependsOn.getD []).all (doneKeys goal).contains = true
    · rw [ready, moveStep_unblock goal pending] at tests
      refine ⟨_, tests, withStep_unblocks pending only, fun row inNext same now => ?_⟩
      obtain ⟨before, inGoal, rfl⟩ := List.mem_map.mp inNext
      by_cases isStep : before.id = step.unblocked.id
      · rw [if_pos isStep] at now
        cases now
      · rw [if_neg isStep] at same
        exact absurd same isStep
    · rw [Bool.not_eq_true] at ready
      rw [ready] at tests
      refine ⟨goal, tests, .refl goal, fun row other same _ => ?_⟩
      obtain ⟨key, depends, undone⟩ := List.all_eq_false.mp ready
      rw [only row other same]
      exact ⟨entry, found, key, depends, by simpa using undone⟩
  · refine ⟨goal, ?_, .refl goal, ?_⟩
    · rw [unblockStep, if_pos pending]
    · intro row other same now
      rw [only row other same] at now
      exact absurd now pending

/-- The whole loop, by induction on the StepRuns it has yet to look at. -/
theorem unblockSteps_unblocks {goal : GoalRun} {plan : GoalPlan} (inForce : PlanInForce goal plan)
    (advance : Advance) {todo : List Nat} (known : todo ⊆ goal.stepIds) :
    ∃ next, unblockSteps goal advance todo = some next ∧ Unblocks goal next ∧
      ∀ row ∈ next.stepRuns, row.id ∈ todo → row.status = .pending → Blocked next row := by
  induction todo generalizing goal with
  | nil => exact ⟨goal, rfl, .refl goal, fun _ _ member => by cases member⟩
  | cons id todo ih =>
      obtain ⟨step, found⟩ := findStep_of_known (known List.mem_cons_self)
      obtain ⟨member, same⟩ := findStep_some found
      obtain ⟨middle, first, unblocks, held⟩ := unblockStep_unblocks inForce advance member
      have later : todo ⊆ middle.stepIds := by
        obtain ⟨change, rows, changes⟩ := unblocks.rows
        intro other inTodo
        obtain ⟨row, inGoal, rfl⟩ := List.mem_map.mp (known (List.mem_cons_of_mem _ inTodo))
        rw [GoalRun.stepIds, rows, List.map_map]
        exact List.mem_map.mpr ⟨row, inGoal, (changes row inGoal).id⟩
      obtain ⟨next, rest, onward, heldLater⟩ := ih (unblocks.inForce inForce) later
      refine ⟨next, ?_, unblocks.trans onward, ?_⟩
      · rw [unblockSteps, found]
        simp only [Option.bind_eq_bind, Option.bind_some, first]
        exact rest
      · intro row inNext isTodo now
        cases List.mem_cons.mp isTodo with
        | inr inTodo => exact heldLater row inNext inTodo now
        | inl isHead =>
            obtain ⟨before, inMiddle, changed⟩ := onward.row_of_mem inNext
            apply onward.blocked changed
            apply held before inMiddle
            · rw [← changed.id, isHead, same]
            · exact changed.pending now

/-- Where nothing moves, a step that is not done waits for one that is not done: without
a cycle there is none. -/
theorem all_done {goal : GoalRun} {plan : GoalPlan} (inForce : PlanInForce goal plan)
    (acyclic : ∀ step ∈ plan.steps, Grounded (dependenciesIn plan.steps) step.key)
    (dependencies : ∀ step ∈ plan.steps, ∀ key ∈ step.dependsOn.getD [],
      key ∈ plan.steps.map (·.key))
    (held : ∀ step ∈ goal.stepRuns, step.status = .pending → Blocked goal step)
    (still : NothingMoves goal) :
    ∀ step ∈ goal.liveSteps, doneStepStatus step.status = true := by
  have grounded : ∀ key, Grounded (dependenciesIn plan.steps) key → ∀ step ∈ goal.liveSteps,
      step.stepKey = key → doneStepStatus step.status = true := by
    intro key grounded
    induction grounded with
    | intro key _ ih =>
        intro step live same
        obtain ⟨ready, running, waiting, failed, cancelled⟩ := still step live
        cases status : step.status with
        | pending =>
            have member := List.mem_of_mem_filter live
            obtain ⟨entry, found, dependency, depends, undone⟩ := held step member status
            obtain ⟨inPlan, planned, entryKey, same'⟩ := inForce.entry live
            rw [found, Option.some.injEq] at same'
            subst same'
            obtain ⟨other, otherLive, otherKey⟩ := List.mem_map.mp
              (inForce.keys.mem_iff.mpr (dependencies entry planned dependency depends))
            have edge : Edge (dependenciesIn plan.steps) key dependency := by
              rw [Edge, ← same, ← entryKey, dependenciesIn_planStep planned]
              exact depends
            have done := ih dependency edge other otherLive otherKey
            apply absurd _ undone
            exact List.mem_map.mpr
              ⟨other, List.mem_filter.mpr ⟨List.mem_of_mem_filter otherLive, done⟩, otherKey⟩
        | ready => exact absurd status ready
        | running => exact absurd status running
        | waiting => exact absurd status waiting
        | failed => exact absurd status failed
        | cancelled => exact absurd status cancelled
        | superseded =>
            have isLive := (List.mem_filter.mp live).2
            rw [status] at isLive
            cases isLive
        | succeeded => rfl
        | skipped => rfl
  intro step live
  obtain ⟨entry, planned, entryKey, _⟩ := inForce.entry live
  exact grounded step.stepKey (entryKey ▸ acyclic entry planned) step live rfl

/-- `findCycle` ends and finds exactly the cycles there are; and where `parsePlan` accepted
the plan in force, unblocking leaves no run in which nothing moves and something is left. -/
theorem accepted_plan_never_deadlocks :
    (∀ steps : List PlanStep, (steps.map (·.key)).Nodup →
      (∀ fuel, steps.length + 2 ≤ fuel → findCycleWithin fuel steps = some (findCycle steps)) ∧
        (findCycle steps = none ↔ Acyclic (dependenciesIn steps)) ∧
        ∀ cycle, findCycle steps = some cycle → IsCycle (dependenciesIn steps) cycle) ∧
      ∀ bytes declared steps acceptance plan,
        parsePlan bytes declared steps acceptance = .ok plan →
          Acyclic (dependenciesIn plan.steps) ∧
            ∀ goal advance, PlanInForce goal plan →
              ∃ next, unblockSteps goal advance goal.stepIds = some next ∧
                (NothingMoves next →
                  ∀ step ∈ next.liveSteps, doneStepStatus step.status = true) := by
  constructor
  · intro steps _
    exact ⟨fun _ enough => findCycleWithin_eq enough, findCycle_none_iff steps,
      fun _ found => findCycle_isCycle found⟩
  · intro bytes declared steps acceptance plan accepted
    constructor
    · exact parsePlan_acyclic accepted
    · intro goal advance inForce
      obtain ⟨next, unblocked, unblocks, held⟩ :=
        unblockSteps_unblocks inForce advance (List.Subset.refl goal.stepIds)
      refine ⟨next, unblocked, all_done (unblocks.inForce inForce) ?_ ?_ ?_⟩
      · intro step member
        exact parsePlan_grounded accepted (List.mem_map_of_mem member)
      · intro step member dependency depends
        exact parsePlan_dependencies accepted member depends
      · intro row inNext now
        obtain ⟨before, inGoal, changed⟩ := unblocks.row_of_mem inNext
        apply held row inNext
        · rw [changed.id]
          exact List.mem_map_of_mem inGoal
        · exact now

def draftStep : PlanStep :=
  { key := "draft", worker := "writer", spec := none, dependsOn := none, nested := none,
    maxAttempts := none, reconcile := none, acceptance := none, content := "" }

def sendStep : PlanStep :=
  { draftStep with
    key := "send"
    dependsOn := some ["draft"] }

example : findCycle [{ draftStep with dependsOn := some ["send"] }, sendStep] =
    some ["draft", "send", "draft"] := by
  decide +kernel

def draftPlan : GoalPlan :=
  { steps := [draftStep, sendStep]
    acceptance := none
    distinct := by decide }

/-- The run of the plan, with its first step succeeded and the other as given. -/
def draftedRun (other : StepRunStatus) : GoalRun :=
  { confirmedRun draftPlan "" 0 with
    stepRuns := (confirmedRun draftPlan "" 0).stepRuns.map fun step =>
      if step.stepKey = "draft" then { step with status := .succeeded }
      else { step with status := other } }

def unblocking : Advance := { now := 0, liveTasks := [], point := .done, inFlightSeen := [] }

theorem draftedRun_inForce {other : StepRunStatus} (isOther : other = .pending ∨ other = .skipped) :
    PlanInForce (draftedRun other) draftPlan := by
  rcases isOther with rfl | rfl
  · constructor
    · decide +kernel
    · decide +kernel
    · decide +kernel
    · decide +kernel
  · constructor
    · decide +kernel
    · decide +kernel
    · decide +kernel
    · decide +kernel

/-- A step whose dependency has succeeded is made ready, and a run in which nothing moves is
done. -/
theorem accepted_plan_never_deadlocks_drafted :
    parsePlan 0 [] [draftStep, sendStep] none = .ok draftPlan ∧
      Acyclic (dependenciesIn draftPlan.steps) ∧
      (∃ next, unblockSteps (draftedRun .pending) unblocking (draftedRun .pending).stepIds =
          some next ∧ next.stepRuns.map (·.status) = [.succeeded, .ready]) ∧
      ∃ next, unblockSteps (draftedRun .skipped) unblocking (draftedRun .skipped).stepIds =
          some next ∧ NothingMoves next ∧
        ∀ step ∈ next.liveSteps, doneStepStatus step.status = true := by
  have accepted : parsePlan 0 [] [draftStep, sendStep] none = .ok draftPlan :=
    dif_pos (by decide +kernel)
  obtain ⟨acyclic, ends⟩ := accepted_plan_never_deadlocks.2 0 [] _ none _ accepted
  refine ⟨accepted, acyclic, ?_, ?_⟩
  · obtain ⟨next, unblocked, _⟩ := ends _ unblocking (draftedRun_inForce (.inl rfl))
    have computed : (unblockSteps (draftedRun .pending) unblocking
        (draftedRun .pending).stepIds).map (·.stepRuns.map (·.status)) =
          some [.succeeded, .ready] := by
      decide +kernel
    rw [unblocked, Option.map_some, Option.some.injEq] at computed
    exact ⟨next, unblocked, computed⟩
  · obtain ⟨next, unblocked, done⟩ := ends _ unblocking (draftedRun_inForce (.inr rfl))
    have computed : (unblockSteps (draftedRun .skipped) unblocking
        (draftedRun .skipped).stepIds).map (·.liveSteps.map (·.status)) =
          some [.succeeded, .skipped] := by
      decide +kernel
    rw [unblocked, Option.map_some, Option.some.injEq] at computed
    have still : NothingMoves next := by
      intro step live
      have status : step.status ∈ [StepRunStatus.succeeded, .skipped] := by
        rw [← computed]
        exact List.mem_map_of_mem live
      rcases List.mem_pair.mp status with succeeded | skipped
      · rw [succeeded]
        decide
      · rw [skipped]
        decide
    exact ⟨next, unblocked, still, done still⟩

end NextTime.Goal
