import NextTime.Goal.Plan
import NextTime.Library.DepthFirst

/-
The dependencies of a plan's steps and the checks `parsePlan` makes of them. A plan
it accepts has no cycle, and every dependency is a step of the plan.
-/

namespace NextTime.Goal

open DepthFirst

/-- The `Map` from a key to what its step depends on; the last step of a key counts. -/
def dependenciesIn (steps : List PlanStep) (key : String) : List String :=
  ((steps.reverse.find? fun step => step.key == key).map (·.dependsOn.getD [])).getD []

/-- `findCycle` with a bound on the depth of its recursion. -/
def findCycleWithin (fuel : Nat) (steps : List PlanStep) : Option (Option (List String)) :=
  cycleFrom (dependenciesIn steps) fuel (steps.map (·.key))

theorem dependenciesIn_leading {steps : List PlanStep} (key : String)
    (leads : dependenciesIn steps key ≠ []) : key ∈ steps.map (·.key) := by
  unfold dependenciesIn at leads
  cases found : steps.reverse.find? fun step => step.key == key with
  | none =>
      rw [found] at leads
      exact absurd rfl leads
  | some step =>
      have member := List.mem_reverse.mp (List.mem_of_find?_eq_some found)
      have same : step.key = key := by simpa using List.find?_some found
      exact List.mem_map.mpr ⟨step, member, same⟩

theorem findCycleWithin_returns (steps : List PlanStep) :
    findCycleWithin (steps.length + 2) steps ≠ none := by
  apply cycleFrom_returns dependenciesIn_leading
  rw [List.length_map]

/-- A dependency cycle as the keys along it (first key repeated at the end), or none. -/
def findCycle (steps : List PlanStep) : Option (List String) :=
  (findCycleWithin (steps.length + 2) steps).get
    (Option.isSome_iff_ne_none.mpr (findCycleWithin_returns steps))

theorem findCycleWithin_eq {steps : List PlanStep} {fuel : Nat}
    (enough : steps.length + 2 ≤ fuel) : findCycleWithin fuel steps = some (findCycle steps) :=
  cycleFrom_mono enough (Option.some_get _).symm

theorem findCycle_none_iff (steps : List PlanStep) :
    findCycle steps = none ↔ Acyclic (dependenciesIn steps) := by
  rw [← cycleFrom_none_iff dependenciesIn_leading (Nat.le_of_eq (by rw [List.length_map]))]
  have searched := findCycleWithin_eq (Nat.le_refl (steps.length + 2))
  constructor
  · intro missing
    exact searched.trans (congrArg some missing)
  · intro missing
    exact Option.some.inj (searched.symm.trans missing)

theorem findCycle_isCycle {steps : List PlanStep} {cycle : List String}
    (found : findCycle steps = some cycle) : IsCycle (dependenciesIn steps) cycle :=
  cycleFrom_isCycle ((findCycleWithin_eq (Nat.le_refl _)).trans (congrArg some found))

theorem findCycle_grounded {steps : List PlanStep} (missing : findCycle steps = none)
    {key : String} (member : key ∈ steps.map (·.key)) : Grounded (dependenciesIn steps) key :=
  cycleFrom_grounded ((findCycleWithin_eq (Nat.le_refl _)).trans (congrArg some missing)) member

/-! ### The checks of a plan -/

/-- `MAX_PLAN_BYTES`. -/
def maxPlanBytes : Nat := 256 * 1024

def sizeProblems (bytes : Nat) : List String :=
  if bytes > maxPlanBytes then [s!"the plan is larger than {maxPlanBytes} bytes"] else []

def keyProblems : List String → List PlanStep → List String
  | _, [] => []
  | keys, step :: rest =>
      (if keys.contains step.key then [s!"step \"{step.key}\": the key appears more than once"]
        else []) ++ keyProblems (step.key :: keys) rest

def dependencyProblem (keys : List String) (key dependency : String) : List String :=
  if dependency = key then [s!"step \"{key}\": depends on itself"]
  else if !keys.contains dependency then
    [s!"step \"{key}\": depends on \"{dependency}\", which is not in the plan"]
  else []

def dependencyProblems (steps : List PlanStep) : List String :=
  steps.flatMap fun step =>
    (step.dependsOn.getD []).flatMap (dependencyProblem (steps.map (·.key)) step.key)

def cycleProblems (steps : List PlanStep) : List String :=
  match findCycle steps with
  | none => []
  | some cycle =>
      let first := cycle.head?.getD ""
      let path := " -> ".intercalate cycle
      [s!"step \"{first}\": the dependencies form a cycle: {path}"]

/-- `parsePlan` up to what its steps and checks declare, whose problems it is given: the
graph of the steps is looked at only where nothing else is wrong with it. -/
def planProblems (bytes : Nat) (declared : List String) (steps : List PlanStep) : List String :=
  let shape := sizeProblems bytes ++ keyProblems [] steps ++ dependencyProblems steps
  shape ++ (if shape = [] then cycleProblems steps else []) ++ declared

theorem keyProblems_nil {keys : List String} {steps : List PlanStep}
    (sound : keyProblems keys steps = []) :
    (∀ key ∈ keys, key ∉ steps.map (·.key)) ∧ (steps.map (·.key)).Nodup := by
  induction steps generalizing keys with
  | nil => exact ⟨fun _ _ => List.not_mem_nil, List.nodup_nil⟩
  | cons step rest ih =>
      obtain ⟨fresh, later⟩ := List.append_eq_nil_iff.mp sound
      obtain ⟨absent, distinct⟩ := ih later
      have notSeen : step.key ∉ keys := by
        intro seen
        rw [if_pos (List.contains_iff_mem.mpr seen)] at fresh
        cases fresh
      constructor
      · intro key member inSteps
        cases List.mem_cons.mp inSteps with
        | inl same =>
            rw [same] at member
            exact notSeen member
        | inr inRest => exact absent key (List.mem_cons_of_mem _ member) inRest
      · rw [List.map_cons, List.nodup_cons]
        exact ⟨absent step.key List.mem_cons_self, distinct⟩

theorem planProblems_distinct {bytes : Nat} {declared : List String} {steps : List PlanStep}
    (accepted : planProblems bytes declared steps = []) : (steps.map (·.key)).Nodup := by
  simp only [planProblems, List.append_eq_nil_iff] at accepted
  exact (keyProblems_nil accepted.1.1.1.2).2

/-- The plan, or every problem found. -/
def parsePlan (bytes : Nat) (declared : List String) (steps : List PlanStep)
    (acceptance : Option (List AcceptanceCheck)) : Except (List String) GoalPlan :=
  if accepted : planProblems bytes declared steps = [] then
    .ok { steps := steps, acceptance := acceptance, distinct := planProblems_distinct accepted }
  else .error (planProblems bytes declared steps)

section Accepted

variable {bytes : Nat} {declared : List String} {steps : List PlanStep}
  {acceptance : Option (List AcceptanceCheck)} {plan : GoalPlan}

theorem parsePlan_problems (accepted : parsePlan bytes declared steps acceptance = .ok plan) :
    planProblems bytes declared plan.steps = [] := by
  unfold parsePlan at accepted
  split at accepted
  next sound =>
    rw [Except.ok.injEq] at accepted
    rw [← accepted]
    exact sound
  next => cases accepted

theorem parsePlan_findCycle (accepted : parsePlan bytes declared steps acceptance = .ok plan) :
    findCycle plan.steps = none := by
  have sound := parsePlan_problems accepted
  simp only [planProblems, List.append_eq_nil_iff] at sound
  obtain ⟨⟨shape, uncycled⟩, _⟩ := sound
  rw [if_pos shape] at uncycled
  cases found : findCycle plan.steps with
  | none => rfl
  | some cycle =>
      rw [cycleProblems, found] at uncycled
      cases uncycled

theorem parsePlan_acyclic (accepted : parsePlan bytes declared steps acceptance = .ok plan) :
    Acyclic (dependenciesIn plan.steps) :=
  (findCycle_none_iff plan.steps).mp (parsePlan_findCycle accepted)

theorem parsePlan_grounded (accepted : parsePlan bytes declared steps acceptance = .ok plan)
    {key : String} (member : key ∈ plan.steps.map (·.key)) :
    Grounded (dependenciesIn plan.steps) key :=
  findCycle_grounded (parsePlan_findCycle accepted) member

theorem parsePlan_dependencies (accepted : parsePlan bytes declared steps acceptance = .ok plan)
    {step : PlanStep} (member : step ∈ plan.steps) {dependency : String}
    (depends : dependency ∈ step.dependsOn.getD []) :
    dependency ∈ plan.steps.map (·.key) := by
  have sound := parsePlan_problems accepted
  simp only [planProblems, List.append_eq_nil_iff] at sound
  have known := List.flatMap_eq_nil_iff.mp
    (List.flatMap_eq_nil_iff.mp sound.1.1.2 step member) dependency depends
  unfold dependencyProblem at known
  split at known
  next => cases known
  next =>
    split at known
    next => cases known
    next present => simpa using present

end Accepted

/-- The keys of a plan are distinct, so its `Map` has every step's dependencies. -/
theorem dependenciesIn_planStep {plan : GoalPlan} {step : PlanStep} (member : step ∈ plan.steps) :
    dependenciesIn plan.steps step.key = step.dependsOn.getD [] := by
  rw [dependenciesIn, findLast_key plan.distinct member]
  rfl

end NextTime.Goal
