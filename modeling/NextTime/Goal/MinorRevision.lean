import NextTime.Goal.PlanRows
import NextTime.Goal.RevisionClass
import Mathlib.Data.Fintype.EquivFin

/-
What a revision the platform adopts on its own keeps: the checks a step that had not
finished was to pass, the goal's own checks, the work under way, and the limits of
what its steps can do.
-/

namespace NextTime.Goal

/-- A live StepRun of the key has ended. -/
def EndedUnder (goal : GoalRun) (key : String) : Prop :=
  ∃ row ∈ goal.liveSteps, row.stepKey = key ∧ endedStepStatus row.status = true

instance (goal : GoalRun) (key : String) : Decidable (EndedUnder goal key) :=
  inferInstanceAs
    (Decidable (∃ row ∈ goal.liveSteps, row.stepKey = key ∧ endedStepStatus row.status = true))

/-- A step of the base that the candidate changes or removes, and that had not finished. -/
structure TouchedUnfinished (goal : GoalRun) (candidate : GoalPlan) (step : PlanStep) : Prop where
  touched : planStep candidate step.key ≠ some step
  unfinished : ¬ EndedUnder goal step.key

def PlanStep.observeScope (step : PlanStep) : Option (List String) :=
  step.spec.bind (·.observeScope)

/-- The step's Task may observe through the gate. Every Worker holds the capability to. -/
def PlanStep.Observes (step : PlanStep) (gate : String) : Prop :=
  ∀ scope, step.observeScope = some scope → gate ∈ scope

/-- The step can do nothing the base's step of its key could not: it declares no gate that
one did not, no Worker of its own and no action, its Worker holds nothing of execute class,
and it calls the observe Operations of no gate that one could not. -/
structure GainsNothing (sources : RevisionSources) (base : GoalPlan) (step : PlanStep) : Prop where
  nested : step.nested ≠ some true
  reconcile : step.reconcile.getD [] = []
  capabilities : ∃ capabilities, sources.authority step = some capabilities ∧
    ∀ name ∈ capabilities, isExecuteClassCapability name = false
  gates : ∀ gate ∈ declaredGatesOf sources step,
    ∃ before, planStep base step.key = some before ∧ gate ∈ declaredGatesOf sources before
  operations : ∀ gate, step.Observes gate →
    ∃ before, planStep base step.key = some before ∧ before.Observes gate

/-- What adopting the candidate keeps. -/
structure MinorKeeps (sources : RevisionSources) (goal : GoalRun) (base candidate : GoalPlan)
    (next : GoalRun) : Prop where
  checks : ∀ step ∈ base.steps, TouchedUnfinished goal candidate step →
    ∀ body ∈ step.checkBodies, ∃ row ∈ next.liveSteps, endedStepStatus row.status = false ∧
      ∃ entry, next.entry row = some entry ∧ body ∈ entry.checkBodies
  goalChecks : candidate.acceptance.getD [] = base.acceptance.getD []
  requests : next.actions = goal.actions
  tasks : next.tasks = goal.tasks
  work : ∀ row ∈ goal.liveSteps, (∃ later ∈ next.stepRuns, later.id = row.id ∧
    later.status = .superseded) → TasksEnded goal row.id ∧ ActionsSettled goal row.id
  abilities : ∀ step ∈ candidate.steps,
    planStep base step.key = some step ∨ GainsNothing sources base step

/-- A step the candidate adds, under a key whose StepRun ended in an earlier plan. -/
def Readded (goal : GoalRun) (base : GoalPlan) (step : PlanStep) : Prop :=
  planStep base step.key = none ∧ EndedUnder goal step.key

/-- A check of an unfinished step the candidate touches that a step added back declares is
declared by a step under a key that has not ended too. -/
def ReaddedHeld (goal : GoalRun) (base candidate : GoalPlan) : Prop :=
  ∀ step ∈ base.steps, TouchedUnfinished goal candidate step → ∀ body ∈ step.checkBodies,
    ∀ readded ∈ candidate.steps, Readded goal base readded → body ∈ readded.checkBodies →
      ∃ other ∈ candidate.steps, ¬ EndedUnder goal other.key ∧ body ∈ other.checkBodies

/-- The step observes through no gate, or the base has a step of its key that sets no scope or one
that holds the step's. -/
def ScopeHeld (base : GoalPlan) (step : PlanStep) : Prop :=
  step.observeScope = some [] ∨ ∃ before, planStep base step.key = some before ∧
    ∀ outer, before.observeScope = some outer →
      ∃ inner, step.observeScope = some inner ∧ inner ⊆ outer

/-- Every step the candidate adds or changes keeps to the scope of the base's. -/
def ScopesHeld (base candidate : GoalPlan) : Prop :=
  ∀ step ∈ candidate.steps, planStep base step.key ≠ some step → ScopeHeld base step

/-! ### What a step may observe -/

/-- Some gate is outside any scope, so a step without one observes more than any step with one. -/
theorem scopeHeld_iff {base : GoalPlan} {step : PlanStep} :
    ScopeHeld base step ↔ ∀ gate, step.Observes gate →
      ∃ before, planStep base step.key = some before ∧ before.Observes gate := by
  constructor
  · intro held gate observes
    cases held with
    | inl none =>
        have isIn := observes [] none
        cases isIn
    | inr found =>
        obtain ⟨before, inBase, within⟩ := found
        refine ⟨before, inBase, fun outer isOuter => ?_⟩
        obtain ⟨inner, isInner, subset⟩ := within outer isOuter
        exact subset (observes inner isInner)
  · intro every
    cases scope : step.observeScope with
    | none =>
        have all (gate : String) : step.Observes gate := by
          intro inner isInner
          rw [scope] at isInner
          cases isInner
        obtain ⟨before, inBase, _observes⟩ := every "" (all "")
        refine .inr ⟨before, inBase, fun outer isOuter => ?_⟩
        obtain ⟨gate, outside⟩ := Infinite.exists_notMem_finset outer.toFinset
        obtain ⟨other, alsoInBase, observes⟩ := every gate (all gate)
        rw [inBase, Option.some.injEq] at alsoInBase
        rw [← alsoInBase] at observes
        exact absurd (List.mem_toFinset.mpr (observes outer isOuter)) outside
    | some inner =>
        have known {gate : String} (isIn : gate ∈ inner) : step.Observes gate := by
          intro other isOther
          rw [scope, Option.some.injEq] at isOther
          rw [← isOther]
          exact isIn
        cases inner with
        | nil => exact .inl scope
        | cons first rest =>
            obtain ⟨before, inBase, _observes⟩ := every first (known List.mem_cons_self)
            refine .inr ⟨before, inBase, fun outer isOuter => ⟨_, scope, fun gate isIn => ?_⟩⟩
            obtain ⟨other, alsoInBase, observes⟩ := every gate (known isIn)
            rw [inBase, Option.some.injEq] at alsoInBase
            rw [← alsoInBase] at observes
            exact observes outer isOuter

/-! ### What the rule reads of the run -/

section Facts

variable {sources : RevisionSources} {goal : GoalRun} {base candidate : GoalPlan}

/-- There is one live StepRun of a key, so the last of the key is it. -/
theorem running_of_live (rows : PlanRows goal) {row : StepRun} (live : row ∈ goal.liveSteps) :
    (plannerRevisionFacts sources goal base candidate).running row.stepKey =
      some (runningStepFacts goal row) := by
  change (goal.liveSteps.reverse.find? fun step => step.stepKey == row.stepKey).map _ = _
  rw [findLast_key rows.keys live, Option.map_some]

theorem endedKey_iff (rows : PlanRows goal) (key : String) :
    (plannerRevisionFacts sources goal base candidate).endedKey key = true ↔
      EndedUnder goal key := by
  constructor
  · intro ended
    obtain ⟨facts, found, isEnded⟩ := Option.any_eq_true .. |>.mp ended
    obtain ⟨row, isRow, rfl⟩ := Option.map_eq_some_iff.mp found
    exact ⟨row, List.mem_reverse.mp (List.mem_of_find?_eq_some isRow),
      by simpa using List.find?_some isRow, isEnded⟩
  · rintro ⟨row, live, rfl, ended⟩
    rw [RevisionFacts.endedKey, running_of_live rows live, Option.any_some]
    exact ended

theorem ability_of_changed {step : PlanStep} (member : step ∈ candidate.steps)
    (changed : step.key ∈ changedStepKeys base candidate) :
    (plannerRevisionFacts sources goal base candidate).abilities step.key =
      some (stepAbility sources base (revisionHints sources base candidate) step) := by
  have listed : step ∈ addedOrChanged base candidate :=
    List.mem_filter.mpr ⟨member, by simpa using changed⟩
  have distinct : ((addedOrChanged base candidate).map (·.key)).Nodup :=
    candidate.distinct.sublist (List.filter_sublist.map _)
  change ((addedOrChanged base candidate).reverse.find? fun other => other.key == step.key).map _ = _
  rw [findLast_key distinct listed, Option.map_some]

end Facts

/-! ### What a minor revision is -/

section Minor

variable {sources : RevisionSources} {goal : GoalRun} {base candidate : GoalPlan}

/-- Nothing is found, part by part. -/
theorem minor_findings {facts : RevisionFacts}
    (minor : (classifyPlannerRevision base candidate facts).revisionClass = .minor) :
    goalFindings base candidate = [] ∧
      (∀ step ∈ base.steps, baseFindings base candidate facts step = []) ∧
      ∀ step ∈ candidate.steps, candidateFindings base candidate facts step = [] := by
  have empty := classify_minor minor
  simp only [revisionFindings, List.append_eq_nil_iff, List.flatMap_eq_nil_iff] at empty
  exact ⟨empty.1.1.1, empty.1.1.2, empty.1.2⟩

theorem baseFindings_nil {facts : RevisionFacts} {step : PlanStep} (member : step ∈ base.steps)
    (touched : planStep candidate step.key ≠ some step)
    (none : baseFindings base candidate facts step = []) :
    facts.worksOn step.key = false ∧
      (facts.endedKey step.key = false →
        ∀ body ∈ step.checkBodies, body ∈ stillChecked base candidate facts) := by
  unfold baseFindings at none
  rw [if_neg (fun untouched => touched ((untouched_iff member).mp untouched)),
    List.append_eq_nil_iff] at none
  obtain ⟨quiet, checked⟩ := none
  constructor
  · cases works : facts.worksOn step.key with
    | false => rfl
    | true =>
        rw [works] at quiet
        cases quiet
  · intro unended body declared
    rw [unended] at checked
    by_contra missing
    have lost : (step.checkBodies.any fun body =>
        !(stillChecked base candidate facts).contains body) = true :=
      List.any_eq_true.mpr ⟨body, declared, by simpa using missing⟩
    rw [if_neg (by decide), if_pos lost] at checked
    cases checked

theorem candidateFindings_nil {step : PlanStep} (member : step ∈ candidate.steps)
    (changed : planStep base step.key ≠ some step) (scope : ScopeHeld base step)
    (none : candidateFindings base candidate
      (plannerRevisionFacts sources goal base candidate) step = []) :
    GainsNothing sources base step := by
  have isChanged := (mem_changedStepKeys member).mpr changed
  unfold candidateFindings at none
  rw [if_neg (by simpa using isChanged), List.append_eq_nil_iff] at none
  obtain ⟨acts, able⟩ := none
  rw [ability_of_changed member isChanged] at able
  have quiet : ¬ (step.nested = some true ∨ step.reconcile.getD [] ≠ []) := by
    intro either
    rw [if_pos either] at acts
    cases acts
  rw [stepAbility] at able
  cases authority : sources.authority step with
  | none => simp [authority, abilityFindings] at able
  | some capabilities =>
      simp only [authority, abilityFindings, List.append_eq_nil_iff] at able
      obtain ⟨⟨capable, gated⟩, _⟩ := able
      have harmless : capabilities.filter isExecuteClassCapability = [] := by
        by_contra some
        rw [if_neg some] at capable
        cases capable
      have narrow : ((declaredGatesOf sources step).filter fun gate =>
          !(((planStep base step.key).map (declaredGatesOf sources)).getD []).contains gate) = [] := by
        by_contra some
        rw [if_neg some] at gated
        cases gated
      constructor
      · exact fun nested => quiet (.inl nested)
      · by_contra acting
        exact quiet (.inr acting)
      · refine ⟨capabilities, authority, fun name held => ?_⟩
        simpa using List.filter_eq_nil_iff.mp harmless name held
      · intro gate declared
        have known : gate ∈ ((planStep base step.key).map (declaredGatesOf sources)).getD [] := by
          simpa using List.filter_eq_nil_iff.mp narrow gate declared
        cases found : planStep base step.key with
        | none => simp [found] at known
        | some before =>
            rw [found, Option.map_some, Option.getD_some] at known
            exact ⟨before, rfl, known⟩
      · exact scopeHeld_iff.mp scope

theorem mem_stillChecked {facts : RevisionFacts} {body : CheckBody}
    (checked : body ∈ stillChecked base candidate facts) :
    ∃ step ∈ candidate.steps, body ∈ step.checkBodies ∧
      (facts.endedKey step.key = true → planStep base step.key ≠ some step) := by
  obtain ⟨step, member, declared⟩ := List.mem_flatMap.mp checked
  refine ⟨step, member, ?_⟩
  split at declared
  next => cases declared
  next counted =>
    refine ⟨declared, fun ended unchanged => counted ?_⟩
    have same : step.key ∉ changedStepKeys base candidate := by
      rw [mem_changedStepKeys member, not_not]
      exact unchanged
    simp [ended, same]

end Minor

/-! ### What adopting it does -/

section Adopting

variable {sources : RevisionSources} {goal next : GoalRun} {base candidate : GoalPlan}
  {revision : Nat} {keep : List Nat} {now : Int}

/-- A step under a key that has ended is kept as it was, or not there. -/
theorem splitStep_ended {row : StepRun} (accepted : splitAccepted goal candidate = true)
    (live : row ∈ goal.liveSteps) (ended : endedStepStatus row.status = true)
    {step : PlanStep} (member : step ∈ candidate.steps) (key : step.key = row.stepKey) :
    goal.entry row = some step := by
  have known := List.all_eq_true.mp accepted row live
  cases split : splitStep goal candidate row with
  | none => simp [split] at known
  | some kind =>
      cases kind with
      | kept =>
          obtain ⟨entry, inPlan, sameKey, found⟩ := splitStep_kept.mp split
          rw [found, List.inj_on_of_nodup_map candidate.distinct inPlan member
            (sameKey.trans key.symm)]
      | superseded =>
          unfold splitStep at split
          split at split
          · cases split
          · split at split <;> cases split
      | history =>
          have absent := (splitStep_history split).2
          rw [← key, planStep_of_mem member] at absent
          cases absent

theorem PlanRows.same_row (rows : PlanRows goal) {one other : StepRun}
    (live : one ∈ goal.liveSteps) (alive : other ∈ goal.liveSteps)
    (key : one.stepKey = other.stepKey) : one = other :=
  List.inj_on_of_nodup_map rows.keys live alive key

/-- A changed step under a key that has ended is one that the base had dropped. -/
theorem addedBack_of_ended (rows : PlanRows goal) (current : goal.currentPlan = some base)
    (accepted : splitAccepted goal candidate = true) {step : PlanStep}
    (member : step ∈ candidate.steps) (ended : EndedUnder goal step.key)
    (changed : planStep base step.key ≠ some step) : planStep base step.key = none := by
  cases found : planStep base step.key with
  | none => rfl
  | some before =>
      obtain ⟨inBase, sameKey⟩ := planStep_some found
      obtain ⟨row, live, rowKey, entry⟩ := rows.planned base current before inBase
      obtain ⟨old, alive, oldKey, isEnded⟩ := ended
      have same := rows.same_row live alive ((rowKey.trans sameKey).trans oldKey.symm)
      subst same
      have isStep := splitStep_ended accepted live isEnded member oldKey.symm
      rw [entry, Option.some.injEq] at isStep
      exact absurd (isStep ▸ found) changed

/-- A candidate step under a key that has not ended has a live StepRun that has not. -/
theorem unended_declared (rows : PlanRows goal)
    (adopted : adoptRevision goal candidate revision keep now = some next) {step : PlanStep}
    (member : step ∈ candidate.steps) (unended : ¬ EndedUnder goal step.key) :
    ∃ row ∈ next.liveSteps, endedStepStatus row.status = false ∧ next.entry row = some step := by
  obtain ⟨_, _, plans, current, live⟩ := adoptRevision_some adopted
  have inForce : next.currentPlan = some candidate := by
    rw [GoalRun.currentPlan, current, plans]
    exact if_pos rfl
  obtain ⟨row, isLive, key, entry⟩ := (planRows_adopted rows adopted).planned _ inForce step member
  refine ⟨row, isLive, ?_, entry⟩
  rw [live] at isLive
  cases List.mem_append.mp isLive with
  | inl old =>
      cases ended : endedStepStatus row.status with
      | false => rfl
      | true => exact absurd ⟨row, List.mem_of_mem_filter old, key, ended⟩ unended
  | inr created =>
      obtain ⟨_, _, _, _, _, pending⟩ := mem_createdSteps created
      rw [pending]
      rfl

/-- And a live StepRun that has not ended is of such a step. -/
theorem declared_unended (rows : PlanRows goal)
    (adopted : adoptRevision goal candidate revision keep now = some next) {row : StepRun}
    (isLive : row ∈ next.liveSteps) (unended : endedStepStatus row.status = false) :
    ∃ step ∈ candidate.steps, ¬ EndedUnder goal step.key ∧ next.entry row = some step := by
  obtain ⟨accepted, _, plans, current, live⟩ := adoptRevision_some adopted
  have inForce : next.currentPlan = some candidate := by
    rw [GoalRun.currentPlan, current, plans]
    exact if_pos rfl
  obtain ⟨step, member, key, entry⟩ :=
    (planRows_adopted rows adopted).others _ inForce row isLive unended
  refine ⟨step, member, ?_, entry⟩
  rintro ⟨other, alive, otherKey, ended⟩
  rw [live] at isLive
  cases List.mem_append.mp isLive with
  | inl old =>
      have same := rows.same_row (List.mem_of_mem_filter old) alive (key.symm.trans otherKey.symm)
      rw [same, ended] at unended
      cases unended
  | inr created =>
      obtain ⟨_, _, notKept, rowKey, _, _⟩ := mem_createdSteps created
      apply notKept
      rw [← rowKey, ← key]
      refine mem_keptKeys.mpr ⟨other, alive, ?_, otherKey⟩
      exact splitStep_kept.mpr ⟨step, member, otherKey.symm,
        splitStep_ended accepted alive ended member otherKey.symm⟩

/-- A StepRun a minor revision supersedes has no work under way. -/
theorem superseded_quiet (sound : RowsSound goal) (rows : PlanRows goal)
    (current : goal.currentPlan = some base)
    (quiet : ∀ step ∈ base.steps, planStep candidate step.key ≠ some step →
      (plannerRevisionFacts sources goal base candidate).worksOn step.key = false)
    {row : StepRun} (live : row ∈ goal.liveSteps)
    (taken : splitStep goal candidate row = some .superseded) :
    TasksEnded goal row.id ∧ ActionsSettled goal row.id := by
  have running : endedStepStatus row.status = false := by
    unfold splitStep at taken
    split at taken
    · cases taken
    · split at taken
      · split at taken <;> cases taken
      next unended => simpa using unended
  obtain ⟨entry, member, key, found⟩ := rows.others base current row live running
  have touched : planStep candidate entry.key ≠ some entry := by
    intro same
    have kept := splitStep_kept.mpr ⟨entry, (planStep_some same).1, key, found⟩
    rw [taken] at kept
    cases kept
  have none := quiet entry member touched
  rw [RevisionFacts.worksOn, key, running_of_live rows live, Option.any_some] at none
  simp only [runningStepFacts, Bool.or_eq_false_iff] at none
  constructor
  · intro task inTasks stepRun
    cases isLive : task.live with
    | false => rfl
    | true =>
        have works : (goal.tasks.any fun task =>
            task.live && task.stepRun == some row.id) = true :=
          List.any_eq_true.mpr ⟨task, inTasks, by simp [isLive, stepRun]⟩
        rw [none.1] at works
        cases works
  · exact effectOf_settled sound none.2

/-- A StepRun that was live and is superseded after was taken by the revision. -/
theorem taken_of_superseded (sound : RowsSound goal)
    (adopted : adoptRevision goal candidate revision keep now = some next) {row later : StepRun}
    (live : row ∈ goal.liveSteps) (member : later ∈ next.stepRuns) (id : later.id = row.id)
    (superseded : later.status = .superseded) : splitStep goal candidate row = some .superseded := by
  obtain ⟨inRun, unsuperseded⟩ := mem_liveSteps.mp live
  unfold adoptRevision at adopted
  split at adopted
  · rw [Option.some.injEq] at adopted
    rw [← adopted] at member
    cases List.mem_append.mp member with
    | inl old =>
        obtain ⟨before, inOld, rfl⟩ := List.mem_map.mp old
        have same : before = row := by
          apply List.inj_on_of_nodup_map sound.distinct inOld inRun
          rw [← id]
          exact (supersedeIn_cases goal candidate revision before).1.symm
        subst same
        by_contra notTaken
        rw [(supersedeIn_live goal candidate revision before).2 notTaken] at superseded
        exact unsuperseded superseded
    | inr created =>
        rw [(createdSteps_new created).1] at superseded
        cases superseded
  · cases adopted

/-- Nothing is withdrawn from steps without work under way. -/
theorem withdraw_nothing (adopted : adoptRevision goal candidate revision keep now = some next)
    (quiet : ∀ row ∈ goal.liveSteps, splitStep goal candidate row = some .superseded →
      ActionsSettled goal row.id) : next.actions = goal.actions ∧ next.tasks = goal.tasks := by
  unfold adoptRevision at adopted
  split at adopted
  · rw [Option.some.injEq] at adopted
    rw [← adopted]
    refine ⟨?_, rfl⟩
    change withdrawStepActions _ _ _ = _
    unfold withdrawStepActions
    rw [List.map_congr_left (g := id), List.map_id]
    intro action member
    apply if_neg
    intro asked
    simp only [Bool.and_eq_true, List.contains_iff_mem] at asked
    obtain ⟨⟨ofTaken, withdrawable⟩, _⟩ := asked
    obtain ⟨row, taken, id⟩ := List.mem_map.mp ofTaken
    obtain ⟨inRun, isTaken⟩ := List.mem_filter.mp taken
    simp only [splitSuperseded, Bool.and_eq_true, bne_iff_ne, beq_iff_eq] at isTaken
    have settled := quiet row (mem_liveSteps.mpr ⟨inRun, isTaken.1⟩) isTaken.2 action member id.symm
    have flight : actionDisposition action.toActionOutcomeColumns = .inFlight := by
      apply disposition_inFlight.mpr
      cases status : action.status <;> first | rfl | (rw [status] at withdrawable; cases withdrawable)
    simp [ActionOutcomeColumns.unsettled, flight] at settled
  · cases adopted

end Adopting

/-- A step without gates or actions of its own, and with one check. -/
def reviewedStep (key : String) : PlanStep :=
  { key := key
    worker := "worker"
    spec := none
    dependsOn := none
    nested := none
    maxAttempts := none
    reconcile := none
    acceptance := some [{ key := "sent", body := { kind := .observePredicate, content := "sent" } }]
    content := "" }

def planOf (steps : List PlanStep) (distinct : (steps.map (·.key)).Nodup) : GoalPlan :=
  { steps := steps, acceptance := none, distinct := distinct }

def draftOnly : GoalPlan := planOf [reviewedStep "draft"] (by decide)

def sendOnly : GoalPlan := planOf [reviewedStep "send"] (by decide)

def draftAndSend : GoalPlan := planOf [reviewedStep "draft", reviewedStep "send"] (by decide)

/-- The Worker declares no gate and holds nothing of execute class. -/
def readingSources : RevisionSources :=
  { definitionGates := fun _ => []
    authority := fun _ => some ["get_task"]
    hints := fun _ => [] }

/-- An advance that starts no attempt and finds the checks of a step as they are. -/
def waitingAdvance (now : Int) (round : StepRound) (statements : Nat) : List RunLabel :=
  .advances now :: List.replicate statements
    (.statement { startingOracle 0 with stepRound := round, attempt := .later })

/-- `draft` runs as Task 10 and succeeds; the plan then drops it. -/
def droppedRun : List RunLabel :=
  .advances 1 :: List.replicate 16 (.statement (startingOracle 10)) ++
    List.replicate 7 (.statement { startingOracle 0 with attempt := .later }) ++
    [.taskEnds 10 .completed] ++ waitingAdvance 2 .absent 20 ++ waitingAdvance 3 .passed 20 ++
    [.pauses 4, .revises 5 sendOnly 2 [], .resumes 6 []]

/-- The revision is minor for the run and its base, and adopting it leaves what `leaves` asks. -/
def adoptsMinor (goal : GoalRun) (base candidate : GoalPlan) (revision : Nat) (now : Int)
    (leaves : GoalRun → Bool) : Bool :=
  decide (goal.currentPlan = some base ∧ (classifyPlannerRevision base candidate
    (plannerRevisionFacts readingSources goal base candidate)).revisionClass = .minor) &&
    (adoptRevision goal candidate revision [] now).any leaves

theorem adoptsMinor_some {goal : GoalRun} {base candidate : GoalPlan} {revision : Nat} {now : Int}
    {leaves : GoalRun → Bool} (adopts : adoptsMinor goal base candidate revision now leaves = true) :
    goal.currentPlan = some base ∧ (classifyPlannerRevision base candidate
        (plannerRevisionFacts readingSources goal base candidate)).revisionClass = .minor ∧
      ∃ next, adoptRevision goal candidate revision [] now = some next ∧ leaves next = true := by
  rw [adoptsMinor, Bool.and_eq_true, decide_eq_true_eq] at adopts
  exact ⟨adopts.1.1, adopts.1.2, Option.any_eq_true .. |>.mp adopts.2⟩

/-- A step that observes through the gates. -/
def observingPlan (gates : List String) : GoalPlan :=
  planOf [{ reviewedStep "draft" with
    spec := some { gates := none, observeScope := some gates, content := "" } }]
    (List.nodup_singleton _)

/-- A step is given a second gate to observe through: nothing is found. -/
theorem minor_widens_scope :
    ∃ next, (classifyPlannerRevision (observingPlan ["mail"]) (observingPlan ["mail", "files"])
        (plannerRevisionFacts readingSources (confirmedRun (observingPlan ["mail"]) "goal" 0)
          (observingPlan ["mail"]) (observingPlan ["mail", "files"]))).revisionClass = .minor ∧
      adoptRevision (confirmedRun (observingPlan ["mail"]) "goal" 0)
        (observingPlan ["mail", "files"]) 2 [] 1 = some next ∧
      ¬ MinorKeeps readingSources (confirmedRun (observingPlan ["mail"]) "goal" 0)
        (observingPlan ["mail"]) (observingPlan ["mail", "files"]) next := by
  have found : adoptsMinor (confirmedRun (observingPlan ["mail"]) "goal" 0)
      (observingPlan ["mail"]) (observingPlan ["mail", "files"]) 2 1 (fun _ => true) = true := by
    decide +kernel
  obtain ⟨_current, minor, next, adopted, _⟩ := adoptsMinor_some found
  refine ⟨next, minor, adopted, fun keeps => ?_⟩
  cases keeps.abilities _ List.mem_cons_self with
  | inl same =>
      revert same
      decide
  | inr gains =>
      have files : PlanStep.Observes { reviewedStep "draft" with
          spec := some { gates := none, observeScope := some ["mail", "files"], content := "" } }
          "files" := by
        rintro _ ⟨⟩
        decide
      obtain ⟨before, inBase, observes⟩ := gains.operations "files" files
      cases inBase
      have inScope := observes ["mail"] rfl
      revert inScope
      decide

end NextTime.Goal
