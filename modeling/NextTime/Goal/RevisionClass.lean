import NextTime.Goal.RunInvariant
import Mathlib.Data.List.Sort

/-
How much of the requester's judgement a revision the goal planner proposed needs: the
rule over the plan in force and the one proposed, and what it reads about the run and
the proposed steps.
-/

namespace NextTime.Goal

/-- `PlannerRevisionMajorReason`. -/
inductive RevisionReasonCode
  | goalAcceptanceChanged
  | stepAcceptanceChanged
  | executionStep
  | gateAdded
  | admissionBlocked
  | stopsLiveWork
  | unresolvable
deriving DecidableEq, Repr

structure RevisionReason where
  code : RevisionReasonCode
  stepKey : Option String
  capabilities : List String
  gates : List String
deriving DecidableEq, Repr

inductive RevisionClass
  | minor
  | major
deriving DecidableEq, Repr

/-- What a step the revision adds or changes would be able to do. -/
inductive StepAbility
  | resolved (executeCapabilities addedGates : List String) (blocked : Bool)
  | unresolved
deriving DecidableEq, Repr

/-- A step of the plan in force, as its live StepRun stands. -/
structure RunningStepFacts where
  ended : Bool
  liveWork : Bool
deriving DecidableEq, Repr

structure RevisionFacts where
  running : String → Option RunningStepFacts
  abilities : String → Option StepAbility
  requesterBlocked : Bool

/-- The keys of the candidate's steps that the base does not hold exactly so. -/
def changedStepKeys (base candidate : GoalPlan) : List String :=
  (candidate.steps.filter fun step => planStep base step.key != some step).map (·.key)

def PlanStep.checkBodies (step : PlanStep) : List CheckBody :=
  (step.acceptance.getD []).map (·.body)

/-! ### The rule -/

section Rule

variable (base candidate : GoalPlan) (facts : RevisionFacts)

def RevisionFacts.endedKey (key : String) : Bool := (facts.running key).any (·.ended)

def RevisionFacts.worksOn (key : String) : Bool := (facts.running key).any (·.liveWork)

/-- The checks of every proposed step that is new or has not ended. -/
def stillChecked : List CheckBody :=
  candidate.steps.flatMap fun step =>
    if !(changedStepKeys base candidate).contains step.key && facts.endedKey step.key then []
    else step.checkBodies

def goalFindings : List RevisionReason :=
  if base.acceptance.getD [] = candidate.acceptance.getD [] then []
  else [⟨.goalAcceptanceChanged, none, [], []⟩]

def baseFindings (step : PlanStep) : List RevisionReason :=
  if (planStep candidate step.key).isSome &&
      !(changedStepKeys base candidate).contains step.key then []
  else
    (if facts.worksOn step.key then [⟨.stopsLiveWork, some step.key, [], []⟩] else []) ++
      if facts.endedKey step.key then []
      else if step.checkBodies.any fun body => !(stillChecked base candidate facts).contains body
      then [⟨.stepAcceptanceChanged, some step.key, [], []⟩]
      else []

def abilityFindings (key : String) : Option StepAbility → List RevisionReason
  | none | some .unresolved => [⟨.unresolvable, some key, [], []⟩]
  | some (.resolved executeCapabilities addedGates blocked) =>
      (if executeCapabilities = [] then []
        else [⟨.executionStep, some key, executeCapabilities, []⟩]) ++
      (if addedGates = [] then [] else [⟨.gateAdded, some key, [], addedGates⟩]) ++
      if blocked then [⟨.admissionBlocked, some key, [], []⟩] else []

def candidateFindings (step : PlanStep) : List RevisionReason :=
  if !(changedStepKeys base candidate).contains step.key then []
  else
    (if step.nested = some true ∨ step.reconcile.getD [] ≠ [] then
      [⟨.executionStep, some step.key, [], []⟩] else []) ++
      abilityFindings step.key (facts.abilities step.key)

def requesterFindings : List RevisionReason :=
  if facts.requesterBlocked && !(changedStepKeys base candidate).isEmpty then
    [⟨.admissionBlocked, none, [], []⟩]
  else []

/-- What is found, in the order it is found in. -/
def revisionFindings : List RevisionReason :=
  goalFindings base candidate ++ base.steps.flatMap (baseFindings base candidate facts) ++
    candidate.steps.flatMap (candidateFindings base candidate facts) ++
    requesterFindings base candidate facts

end Rule

def mergeNames (before more : List String) : List String :=
  (before ++ more).eraseDups.insertionSort (· ≤ ·)

/-- One reason for each code and step, with all the names found for it. -/
def addReason (reasons : List RevisionReason) (found : RevisionReason) : List RevisionReason :=
  if reasons.any fun reason => reason.code == found.code && reason.stepKey == found.stepKey then
    reasons.map fun reason =>
      if reason.code = found.code ∧ reason.stepKey = found.stepKey then
        { reason with
          capabilities := mergeNames reason.capabilities found.capabilities
          gates := mergeNames reason.gates found.gates }
      else reason
  else
    reasons ++
      [{ found with
         capabilities := mergeNames [] found.capabilities
         gates := mergeNames [] found.gates }]

structure RevisionClassification where
  revisionClass : RevisionClass
  reasons : List RevisionReason
deriving DecidableEq, Repr

def classifyPlannerRevision (base candidate : GoalPlan) (facts : RevisionFacts) :
    RevisionClassification :=
  let reasons := (revisionFindings base candidate facts).foldl addReason []
  { revisionClass := if reasons = [] then .minor else .major
    reasons := reasons }

theorem addReason_ne_nil (reasons : List RevisionReason) (found : RevisionReason) :
    addReason reasons found ≠ [] := by
  unfold addReason
  split
  next known =>
    obtain ⟨reason, member, _⟩ := List.any_eq_true.mp known
    exact List.ne_nil_of_mem (List.mem_map_of_mem member)
  next => simp

theorem foldl_addReason_nil {found reasons : List RevisionReason}
    (empty : found.foldl addReason reasons = []) : found = [] := by
  induction found generalizing reasons with
  | nil => rfl
  | cons first rest ih =>
      have none : rest = [] := ih empty
      subst none
      exact absurd empty (addReason_ne_nil reasons first)

/-- A revision is minor exactly where nothing is found. -/
theorem classify_minor {base candidate : GoalPlan} {facts : RevisionFacts}
    (minor : (classifyPlannerRevision base candidate facts).revisionClass = .minor) :
    revisionFindings base candidate facts = [] := by
  unfold classifyPlannerRevision at minor
  dsimp only at minor
  split at minor
  next empty => exact foldl_addReason_nil empty
  next => cases minor

theorem mem_changedStepKeys {base candidate : GoalPlan} {step : PlanStep}
    (member : step ∈ candidate.steps) :
    step.key ∈ changedStepKeys base candidate ↔ planStep base step.key ≠ some step := by
  unfold changedStepKeys
  constructor
  · intro changed
    obtain ⟨other, found, same⟩ := List.mem_map.mp changed
    obtain ⟨inPlan, differs⟩ := List.mem_filter.mp found
    rw [List.inj_on_of_nodup_map candidate.distinct inPlan member same] at differs
    simpa using differs
  · intro differs
    exact List.mem_map_of_mem (List.mem_filter.mpr ⟨member, by simpa using differs⟩)

/-- A base step is touched: changed or removed. -/
theorem untouched_iff {base candidate : GoalPlan} {step : PlanStep} (member : step ∈ base.steps) :
    ((planStep candidate step.key).isSome &&
      !(changedStepKeys base candidate).contains step.key) = true ↔
        planStep candidate step.key = some step := by
  cases found : planStep candidate step.key with
  | none => simp
  | some other =>
      obtain ⟨inPlan, same⟩ := planStep_some found
      have changed : other.key ∈ changedStepKeys base candidate ↔
          planStep base other.key ≠ some other := mem_changedStepKeys inPlan
      rw [same, planStep_of_mem member] at changed
      simp only [Option.isSome_some, Bool.true_and, Bool.not_eq_true', Option.some.injEq]
      rw [← Bool.not_eq_true, List.contains_iff_mem, changed, not_not, Option.some.injEq]
      exact eq_comm

/-! ### What it reads -/

/-- `EXECUTE_CLASS_CAPABILITY_NAMES`. -/
def isExecuteClassCapability (name : String) : Bool :=
  name == "<gate>.<op>:execute" || name == "request_action"

/-- A hint about the requester's authority: that they can start no Worker, or about a step. -/
structure AuthorityHint where
  requesterCannotStartWorkers : Bool
  stepKey : Option String
deriving DecidableEq, Repr

/-- What the workspace answers now: the gates of a Worker definition (none for one that is
not there), the capabilities a step's Worker would hold (none is a refusal), and the hints
about the steps of a plan. -/
structure RevisionSources where
  definitionGates : String → List String
  authority : PlanStep → Option (List String)
  hints : List PlanStep → List AuthorityHint

def declaredGatesOf (sources : RevisionSources) (step : PlanStep) : List String :=
  match step.spec.bind (·.gates) with
  | some gates => gates
  | none => sources.definitionGates step.worker

def stepAbility (sources : RevisionSources) (base : GoalPlan) (hints : List AuthorityHint)
    (step : PlanStep) : StepAbility :=
  let beforeGates := ((planStep base step.key).map (declaredGatesOf sources)).getD []
  let addedGates := (declaredGatesOf sources step).filter fun gate => !beforeGates.contains gate
  match sources.authority step with
  | none => .resolved [] addedGates true
  | some capabilities =>
      .resolved (capabilities.filter isExecuteClassCapability) addedGates
        (hints.any fun hint => hint.stepKey == some step.key)

def runningStepFacts (goal : GoalRun) (step : StepRun) : RunningStepFacts where
  ended := endedStepStatus step.status
  liveWork :=
    (goal.tasks.any fun task => task.live && task.stepRun == some step.id) ||
      (effectOf goal step).waits

/-- The candidate's steps that are added or changed. -/
def addedOrChanged (base candidate : GoalPlan) : List PlanStep :=
  candidate.steps.filter fun step => (changedStepKeys base candidate).contains step.key

def revisionHints (sources : RevisionSources) (base candidate : GoalPlan) : List AuthorityHint :=
  if addedOrChanged base candidate = [] then []
  else sources.hints (addedOrChanged base candidate)

/-- `plannerRevisionFacts`: the last row of a key, and of a step, counts. -/
def plannerRevisionFacts (sources : RevisionSources) (goal : GoalRun)
    (base candidate : GoalPlan) : RevisionFacts where
  running := fun key =>
    (goal.liveSteps.reverse.find? fun step => step.stepKey == key).map (runningStepFacts goal)
  abilities := fun key =>
    ((addedOrChanged base candidate).reverse.find? fun step => step.key == key).map
      (stepAbility sources base (revisionHints sources base candidate))
  requesterBlocked :=
    (revisionHints sources base candidate).any (·.requesterCannotStartWorkers)

end NextTime.Goal
