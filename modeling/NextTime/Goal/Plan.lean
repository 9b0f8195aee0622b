import Mathlib.Data.List.Nodup

/-
The plan of a goal: its steps and what has to hold before the goal is achieved.
A stored plan is JSON; a field no rule looks into is kept as its canonical text,
so that two entries are equal here exactly when their JSON values are.
-/

namespace NextTime.Goal

inductive AcceptanceKind
  | observePredicate
  | observeAbsent
  | factPredicate
  | requesterConfirm
deriving DecidableEq, Repr

/-- `isPlatformAcceptanceCheck`. -/
def isPlatformAcceptanceCheck : AcceptanceKind → Bool
  | .observePredicate | .observeAbsent | .factPredicate => true
  | .requesterConfirm => false

/-- An acceptance check without its key. -/
structure CheckBody where
  kind : AcceptanceKind
  content : String
deriving DecidableEq, Repr

structure AcceptanceCheck where
  key : String
  body : CheckBody
deriving DecidableEq, Repr

structure StepReconcile where
  action : String
  check : String
deriving DecidableEq, Repr

/-- `observeScope` are the only gates the step's Task observes through, if it sets any. -/
structure WorkerSpec where
  gates : Option (List String)
  observeScope : Option (List String)
  content : String
deriving DecidableEq, Repr

/-- `content` holds the input, the bindings, the files and the output schema. -/
structure PlanStep where
  key : String
  worker : String
  spec : Option WorkerSpec
  dependsOn : Option (List String)
  nested : Option Bool
  maxAttempts : Option Nat
  reconcile : Option (List StepReconcile)
  acceptance : Option (List AcceptanceCheck)
  content : String
deriving DecidableEq, Repr

/-- A validated plan: no key appears more than once. -/
structure GoalPlan where
  steps : List PlanStep
  acceptance : Option (List AcceptanceCheck)
  distinct : (steps.map (·.key)).Nodup
deriving DecidableEq

/-- `DEFAULT_MAX_ATTEMPTS`. -/
def defaultMaxAttempts : Nat := 3

def planStep (plan : GoalPlan) (key : String) : Option PlanStep :=
  plan.steps.find? fun step => step.key == key

/-- Both plans have the key, with the same entry. -/
def samePlanEntry (introducedIn current : Option GoalPlan) (key : String) : Bool :=
  match introducedIn.bind (planStep · key), current.bind (planStep · key) with
  | some before, some now => before == now
  | _, _ => false

/-- `IMPLICIT_CONFIRM_KEY`. -/
def implicitConfirmKey : String := "requester_confirm"

/-- A plan without acceptance checks asks the requester about the goal statement. -/
def roundAcceptance (plan : GoalPlan) (statement : String) : List AcceptanceCheck :=
  match plan.acceptance.getD [] with
  | [] => [{ key := implicitConfirmKey, body := { kind := .requesterConfirm, content := statement } }]
  | checks => checks

theorem planStep_some {plan : GoalPlan} {key : String} {step : PlanStep}
    (found : planStep plan key = some step) : step ∈ plan.steps ∧ step.key = key :=
  ⟨List.mem_of_find?_eq_some found, by simpa using List.find?_some found⟩

/-- The keys of a plan are distinct, so an entry is the one found under its key. -/
theorem planStep_of_mem {plan : GoalPlan} {step : PlanStep} (member : step ∈ plan.steps) :
    planStep plan step.key = some step := by
  cases found : planStep plan step.key with
  | none =>
      have differs := List.find?_eq_none.mp found step member
      simp at differs
  | some other =>
      obtain ⟨inPlan, same⟩ := planStep_some found
      rw [List.inj_on_of_nodup_map plan.distinct inPlan member same]

/-- Where keys are distinct, the last entry of a key, which a `Map` keeps, is the one. -/
theorem findLast_key {Entry : Type} {entries : List Entry} {key : Entry → String}
    (distinct : (entries.map key).Nodup) {entry : Entry} (member : entry ∈ entries) :
    (entries.reverse.find? fun other => key other == key entry) = some entry := by
  cases found : entries.reverse.find? fun other => key other == key entry with
  | none =>
      have differs := List.find?_eq_none.mp found entry (List.mem_reverse.mpr member)
      simp at differs
  | some other =>
      have present := List.mem_reverse.mp (List.mem_of_find?_eq_some found)
      have same : key other = key entry := by simpa using List.find?_some found
      rw [List.inj_on_of_nodup_map distinct present member same]

theorem samePlanEntry_iff {introducedIn current : Option GoalPlan} {key : String} :
    samePlanEntry introducedIn current key = true ↔
      ∃ before now step, introducedIn = some before ∧ current = some now ∧
        planStep before key = some step ∧ planStep now key = some step := by
  unfold samePlanEntry
  constructor
  · intro same
    split at same
    next first second foundFirst foundSecond =>
      obtain ⟨before, rfl, inBefore⟩ := Option.bind_eq_some_iff.mp foundFirst
      obtain ⟨now, rfl, inNow⟩ := Option.bind_eq_some_iff.mp foundSecond
      rw [beq_iff_eq] at same
      subst same
      exact ⟨before, now, first, rfl, rfl, inBefore, inNow⟩
    · cases same
  · rintro ⟨before, now, step, rfl, rfl, inBefore, inNow⟩
    simp [inBefore, inNow]

end NextTime.Goal
