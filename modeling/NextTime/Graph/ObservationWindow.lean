import NextTime.Graph.SourceHistory

/-
The observation window of a collector's run: what the last call of the run
retires, and what it leaves.
-/

namespace NextTime.Graph

/-- What may come between the calls of a run: its calls on the Activity that declare no window,
and what others write. -/
def DuringRun (sourceId activityId : Nat) (state : GraphState) : GraphLabel → Prop
  | .submits _ call =>
      call.sourceId ≠ sourceId ∨ (call.on state = activityId ∧ call.window = none)
  | .assertsFact _ _ call => ¬ state.Carries sourceId call.activityId
  | _ => True

instance (sourceId activityId : Nat) (state : GraphState) :
    (label : GraphLabel) → Decidable (DuringRun sourceId activityId state label)
  | .submits _ call =>
      inferInstanceAs (Decidable (call.sourceId ≠ sourceId ∨
        (call.on state = activityId ∧ call.window = none)))
  | .assertsFact _ _ call =>
      inferInstanceAs (Decidable (¬ state.Carries sourceId call.activityId))
  | .startsActivity _ _ => isTrue trivial
  | .recordsObservation _ _ _ _ => isTrue trivial

namespace GraphState

variable {context : GraphContext} {sourceId activityId : Nat}

/-- The last answer the run got for an identity. -/
def lastAnswer (state : GraphState) (sourceId activityId : Nat) (identity : LinkIdentity) :
    Option LinkAnswer :=
  (state.runAnswers sourceId activityId).reverse.find? fun answer =>
    decide (answer.input.identity = identity)

/-- The answered Fact still has the content submitted, and is the Source's own where the answer
says so. -/
def Answered (context : GraphContext) (sourceId : Nat) (state : GraphState)
    (answer : LinkAnswer) (fact : Fact) : Prop :=
  fact ∈ state.facts ∧ fact.id = answer.factId ∧
    factContentEquals fact (withScrubbedProperties context answer.input) = true ∧
      (answer.own = true ↔ state.Carries sourceId fact.activityId)

theorem Answered.identity {state : GraphState} {answer : LinkAnswer} {fact : Fact}
    (answered : Answered context sourceId state answer fact) :
    fact.identity = answer.input.identity := by
  have isInput := identity_of_factContentEquals answered.2.2.1
  exact isInput

/-- What holds of a run before its window closes. -/
structure RunHolds (context : GraphContext) (sourceId activityId : Nat) (state : GraphState) :
    Prop where
  rows : SourceHolds sourceId state
  known : ∀ answer ∈ state.runAnswers sourceId activityId, activityId < state.activities.length
  content : ∀ answer ∈ state.runAnswers sourceId activityId,
    ∃ fact, Answered context sourceId state answer fact
  recent : ∀ began, state.activities[activityId]? = some began →
    ∀ answer ∈ state.runAnswers sourceId activityId, ∀ fact, state.OwnRow sourceId fact →
      fact.active = true → fact.identity = answer.input.identity →
        began.createdAt ≤ fact.lastSeen
  standing : ∀ answer, state.lastAnswer sourceId activityId answer.input.identity = some answer →
    answer.own = true →
      ∃ fact, state.OwnRow sourceId fact ∧ fact.active = true ∧ fact.id = answer.factId

theorem runHolds_of_none {state : GraphState} (rows : SourceHolds sourceId state)
    (fresh : state.runAnswers sourceId activityId = []) :
    RunHolds context sourceId activityId state := by
  constructor
  · exact rows
  · intro answer member
    rw [fresh] at member
    cases member
  · intro answer member
    rw [fresh] at member
    cases member
  · intro began _ answer member
    rw [fresh] at member
    cases member
  · intro answer last
    rw [lastAnswer, fresh] at last
    cases last

/-! ### What others write -/

theorem carries_of_sameContent {state next : GraphState} (rows : SameRows sourceId state next)
    {fact kept : Fact} (member : fact ∈ state.facts) (present : kept ∈ next.facts)
    (same : SameContent fact kept) :
    next.Carries sourceId kept.activityId ↔ state.Carries sourceId fact.activityId := by
  have sameActivity := same.2.2.2.2
  constructor
  · intro carries
    rw [← sameActivity]
    exact ((rows kept).mp ⟨present, carries⟩).2
  · intro carries
    rw [sameActivity]
    exact ((rows fact).mpr ⟨member, carries⟩).2

theorem RunHolds.continues {state next : GraphState}
    (holds : RunHolds context sourceId activityId state) (rows : SourceHolds sourceId next)
    (continues : Continues sourceId activityId state next) :
    RunHolds context sourceId activityId next := by
  obtain ⟨later, isLater⟩ := continues.activities
  constructor
  · exact rows
  · intro answer member
    rw [continues.answers] at member
    rw [isLater, List.length_append]
    exact Nat.lt_add_right _ (holds.known answer member)
  · intro answer member
    rw [continues.answers] at member
    obtain ⟨fact, present, isId, equal, own⟩ := holds.content answer member
    obtain ⟨kept, keptPresent, same⟩ := continues.keeps fact present
    exact ⟨kept, keptPresent, same.1.trans isId, (factContentEquals_congr same _).trans equal,
      own.trans (carries_of_sameContent continues.rows present keptPresent same).symm⟩
  · intro began isBegan answer member fact row
    rw [continues.answers] at member
    rw [isLater, List.getElem?_append_left (holds.known answer member)] at isBegan
    exact holds.recent began isBegan answer member fact ((continues.rows fact).mp row)
  · intro answer last own
    rw [lastAnswer, continues.answers] at last
    obtain ⟨fact, row, active, isId⟩ := holds.standing answer last own
    exact ⟨fact, (continues.rows fact).mpr row, active, isId⟩

/-! ### The run's own Links -/

theorem lastAnswer_append {state next : GraphState} {answer : LinkAnswer}
    (answers : next.runAnswers sourceId activityId =
      state.runAnswers sourceId activityId ++ [answer]) (identity : LinkIdentity) :
    next.lastAnswer sourceId activityId identity =
      if answer.input.identity = identity then some answer
      else state.lastAnswer sourceId activityId identity := by
  rw [lastAnswer, answers, List.reverse_append, List.reverse_singleton, List.singleton_append,
    List.find?_cons, lastAnswer]
  by_cases same : answer.input.identity = identity
  · rw [if_pos same, decide_eq_true same]
  · rw [if_neg same, decide_eq_false same]

/-- While a call of the run writes its Links. -/
structure OwnCall (context : GraphContext) (activityId : Nat) (call : SubmitObservations)
    (observationId : Nat) (state : GraphState) : Prop where
  run : RunHolds context call.sourceId activityId state
  recorded : Recorded context state call activityId observationId
  started : activityId < state.activities.length

/-- What writing a Link of the run does, with the answer it got. -/
structure LinkWritten (context : GraphContext) (state next : GraphState) (answer : LinkAnswer) :
    Prop where
  rows : SourceHolds answer.sourceId next
  answers : next.runAnswers answer.sourceId answer.activityId =
    state.runAnswers answer.sourceId answer.activityId ++ [answer]
  keeps : state.Keeps next
  carries : ∀ onActivity,
    next.Carries answer.sourceId onActivity ↔ state.Carries answer.sourceId onActivity
  activities : next.activities = state.activities
  content : ∃ fact, Answered context answer.sourceId next answer fact
  others : ∀ fact, fact.identity ≠ answer.input.identity →
    (next.OwnRow answer.sourceId fact ↔ state.OwnRow answer.sourceId fact)
  recent : ∀ fact, next.OwnRow answer.sourceId fact → fact.active = true →
    fact.identity = answer.input.identity → fact.lastSeen = state.clock
  standing : answer.own = true →
    ∃ fact, next.OwnRow answer.sourceId fact ∧ fact.active = true ∧ fact.id = answer.factId

theorem OwnCall.written {call : SubmitObservations} {observationId : Nat}
    {state next : GraphState} {link : LinkInput}
    (held : OwnCall context activityId call observationId state)
    (wrote : state.writeLink context call activityId observationId link = some next) :
    ∃ factId own, LinkWritten context state next
      ⟨call.sourceId, activityId, linkInput activityId observationId link, factId, own⟩ := by
  obtain ⟨middle, factId, own, asserted, isNext⟩ := writeLink_some wrote
  obtain ⟨sameObservations, sameActivities, _, sameAnswers⟩ := asserted.observations
  have rows := held.run.rows
  have onRun : state.Carries call.sourceId activityId := ⟨_, held.recorded.present, rfl, rfl⟩
  have written := rows.asserted asserted (held.recorded.anchored link)
  have answer := asserted.ownAnswer rows.numbered rows.unmixed rows.unique onRun
    (sees_of_owner held.recorded.owner)
  obtain ⟨fact, present, isId, equal⟩ := asserted.content rfl
  have isOwn : own = true ↔ middle.Carries call.sourceId fact.activityId := by
    constructor
    · intro claimed
      obtain ⟨ownFact, row, _, _, ownId⟩ := answer.answered claimed
      rw [written.numbered.eq present row.1 (isId.trans ownId.symm)]
      exact row.2
    · intro onActivity
      apply Bool.of_not_eq_false
      intro agreed
      exact answer.agreed agreed fact ⟨present, onActivity⟩ isId
  refine ⟨factId, own, ?_⟩
  rw [isNext]
  constructor
  · exact written.answered _
  · rw [runAnswers_append, if_pos ⟨rfl, rfl⟩, runAnswers, sameAnswers, runAnswers]
  · exact asserted.keeps
  · exact carries_congr sameObservations call.sourceId
  · exact sameActivities
  · exact ⟨fact, present, isId, equal, isOwn⟩
  · exact answer.others
  · exact fun fact row active identity => (answer.recent fact row active identity).2.2 rfl
  · intro claimed
    obtain ⟨ownFact, row, active, _, ownId⟩ := answer.answered claimed
    exact ⟨ownFact, row, active, ownId⟩

namespace LinkWritten

variable {state next : GraphState} {answer : LinkAnswer}

theorem runContent (written : LinkWritten context state next answer)
    (held : RunHolds context answer.sourceId answer.activityId state) :
    ∀ given ∈ next.runAnswers answer.sourceId answer.activityId,
      ∃ fact, Answered context answer.sourceId next given fact := by
  intro given member
  rw [written.answers] at member
  cases List.mem_append.mp member with
  | inl earlier =>
      obtain ⟨fact, present, isId, equal, isOwn⟩ := held.content given earlier
      obtain ⟨kept, keptPresent, same⟩ := written.keeps fact present
      refine ⟨kept, keptPresent, same.1.trans isId,
        (factContentEquals_congr same _).trans equal, ?_⟩
      rw [written.carries, same.2.2.2.2]
      exact isOwn
  | inr last =>
      rw [List.mem_singleton.mp last]
      exact written.content

/-- A row the run has answered was seen no earlier than the run began. -/
theorem runRecent (written : LinkWritten context state next answer)
    (held : RunHolds context answer.sourceId answer.activityId state) {began : Activity}
    (isBegan : state.activities[answer.activityId]? = some began) :
    ∀ given ∈ next.runAnswers answer.sourceId answer.activityId, ∀ fact,
      next.OwnRow answer.sourceId fact → fact.active = true →
        fact.identity = given.input.identity → began.createdAt ≤ fact.lastSeen := by
  intro given member fact row active identity
  by_cases asserts : fact.identity = answer.input.identity
  · rw [written.recent fact row active asserts]
    exact held.rows.begun began (List.mem_of_getElem? isBegan)
  · have before := (written.others fact asserts).mp row
    rw [written.answers] at member
    cases List.mem_append.mp member with
    | inl earlier => exact held.recent began isBegan given earlier fact before active identity
    | inr last =>
        rw [List.mem_singleton.mp last] at identity
        exact absurd identity asserts

theorem runStanding (written : LinkWritten context state next answer)
    (held : RunHolds context answer.sourceId answer.activityId state) {given : LinkAnswer}
    (last : next.lastAnswer answer.sourceId answer.activityId given.input.identity = some given)
    (isOwn : given.own = true) :
    ∃ fact, next.OwnRow answer.sourceId fact ∧ fact.active = true ∧ fact.id = given.factId := by
  rw [lastAnswer_append written.answers] at last
  split at last
  next =>
    rw [← Option.some.inj last] at isOwn ⊢
    exact written.standing isOwn
  next different =>
    obtain ⟨fact, row, active, isId⟩ := held.standing given last isOwn
    have found := List.mem_reverse.mp (List.mem_of_find?_eq_some last)
    obtain ⟨known, answered⟩ := held.content given found
    have identity : fact.identity = given.input.identity := by
      rw [held.rows.numbered.eq row.1 answered.1 (isId.trans answered.2.1.symm)]
      exact answered.identity
    have other : fact.identity ≠ answer.input.identity :=
      fun same => different (same.symm.trans identity)
    exact ⟨fact, (written.others fact other).mpr row, active, isId⟩

end LinkWritten

theorem OwnCall.link {call : SubmitObservations} {observationId : Nat} {state next : GraphState}
    {link : LinkInput} (held : OwnCall context activityId call observationId state)
    (wrote : state.writeLink context call activityId observationId link = some next) :
    OwnCall context activityId call observationId next := by
  obtain ⟨factId, own, written⟩ := held.written wrote
  have stillStarted : activityId < next.activities.length := written.activities ▸ held.started
  constructor
  · constructor
    · exact written.rows
    · exact fun _ _ => stillStarted
    · exact written.runContent held.run
    · intro began isBegan
      rw [written.activities] at isBegan
      exact written.runRecent held.run isBegan
    · exact fun given last isOwn => written.runStanding held.run last isOwn
  · obtain ⟨middle, _, _, asserted, isNext⟩ := writeLink_some wrote
    rw [isNext]
    exact held.recorded.asserted asserted.observations.1
  · exact stillStarted

/-! ### The run -/

theorem RunHolds.writes {state started written : GraphState} {call : SubmitObservations}
    (holds : RunHolds context call.sourceId (call.on state) state)
    (owner : (context.sources call.sourceId).ownerPrincipalId = call.callerPrincipalId)
    (puts : call.observations ≠ [] →
      PutsUnshared call.sourceId state call.sourceId (call.on state))
    (acts : state.callActivity call = some (started, call.on state))
    (wrote : started.writeItems context call (call.on state) = some written) :
    RunHolds context call.sourceId (call.on state) written := by
  obtain ⟨begins, continues, sameObservations, sameFacts⟩ :=
    @callActivity_leaves call.sourceId (call.on state) _ _ _ _ holds.rows acts
  have first := holds.continues begins continues
  cases writeItems_some wrote with
  | inl none =>
      rw [none.2]
      exact first
  | inr items =>
      have unshared := putsUnshared_congr sameObservations sameFacts (puts items.1)
      have recorded : OwnCall context (call.on state) call started.observations.length
          (started.recordSourceObservation call.sourceId (call.on state)) :=
        ⟨first.continues (begins.recorded unshared) (continues_recorded unshared),
          recorded_present started owner, (callActivity_some acts).2.1⟩
      exact (writeLinks_preserves (fun _ _ _ held => held.link) recorded items.2).run

theorem RunHolds.step {state next : GraphState} {label : GraphLabel}
    (holds : RunHolds context sourceId activityId state)
    (unshared : Unshared sourceId state label)
    (during : DuringRun sourceId activityId state label)
    (moved : (system context).step state label = some next) :
    RunHolds context sourceId activityId next := by
  have leaves := @step_leaves context sourceId activityId _ _ _ holds.rows unshared moved
  cases label with
  | startsActivity now principalId =>
      exact holds.continues leaves.holds (leaves.continues trivial)
  | recordsObservation now caller observed onActivity =>
      exact holds.continues leaves.holds (leaves.continues trivial)
  | assertsFact now caller call =>
      exact holds.continues leaves.holds (leaves.continues during)
  | submits now call =>
      by_cases own : call.sourceId = sourceId
      · obtain ⟨isRun, noWindow⟩ := during.resolve_left fun other => other own
        have puts : call.observations ≠ [] →
            PutsUnshared sourceId state call.sourceId (call.on state) := unshared
        rw [← own] at puts
        rw [← own, ← isRun] at holds ⊢
        change GraphState.step context state (.submits now call) = some next at moved
        rw [GraphState.step] at moved
        split at moved
        next later =>
          have ticked := holds.continues (holds.rows.tick later) (continues_tick state now)
          obtain ⟨owner, started, written, acts, wrote, closed⟩ := submitObservations_some moved
          have isNext : next = written := by
            rw [closeWindow, noWindow] at closed
            exact (Option.some.inj closed).symm
          rw [isNext]
          exact @RunHolds.writes context (state.tick now) started written call ticked owner puts
            acts wrote
        next => cases moved
      · exact holds.continues leaves.holds (leaves.continues own)

theorem runHolds_of_run {start final : GraphState} {labels : List GraphLabel}
    (holds : RunHolds context sourceId activityId start)
    (unshared : (system context).Allowed (Unshared sourceId) start labels)
    (during : (system context).Allowed (DuringRun sourceId activityId) start labels)
    (ran : (system context).run start labels = some final) :
    RunHolds context sourceId activityId final := by
  have preserved : (system context).PreservedWhen
      (fun state label => Unshared sourceId state label ∧
        DuringRun sourceId activityId state label)
      (RunHolds context sourceId activityId) :=
    fun _ _ _ held allowed moved => held.step allowed.1 allowed.2 moved
  exact (system context).run_preserves_when preserved holds
    (unshared.both (system context) during) ran

/-! ### The close -/

/-- A Fact of the Source at a declared type that no call of the run submitted, last seen before
the run's Activity began. -/
structure Unseen (context : GraphContext) (sourceId activityId : Nat) (objectTypes : List String)
    (began : Activity) (state : GraphState) (fact : Fact) : Prop where
  active : fact.active = true
  own : state.Carries sourceId fact.activityId
  declared : objectTypes.contains (context.objectType fact.identity.sourceObjectId) = true
  unsubmitted : ∀ answer ∈ state.runAnswers sourceId activityId,
    answer.input.identity ≠ fact.identity
  before : fact.lastSeen < began.createdAt

theorem unobserved_iff {state : GraphState} {caller : Nat} {objectTypes : List String}
    {began : Activity} (holds : RunHolds context sourceId activityId state)
    (owner : (context.sources sourceId).ownerPrincipalId = caller)
    (isBegan : state.activities[activityId]? = some began) {fact : Fact}
    (member : fact ∈ state.facts) :
    state.unobserved context caller sourceId objectTypes began.createdAt fact = true ↔
      Unseen context sourceId activityId objectTypes began state fact := by
  have fed := fedBy_iff holds.rows.observed holds.rows.named member
  rw [unobserved, Bool.and_eq_true, Bool.and_eq_true, Bool.and_eq_true, Bool.and_eq_true,
    decide_eq_true_eq, fed]
  constructor
  · intro test
    obtain ⟨⟨⟨⟨_, active⟩, declared⟩, before⟩, carries⟩ := test
    refine ⟨active, carries, declared, ?_, before⟩
    intro answer answered same
    have seen := holds.recent began isBegan answer answered fact ⟨member, carries⟩ active
      same.symm
    exact Nat.not_lt.mpr seen before
  · intro unseen
    have visible := visible_of_carries holds.rows.unmixed unseen.own (sees_of_owner owner)
    exact ⟨⟨⟨⟨visible, unseen.active⟩, unseen.declared⟩, unseen.before⟩, unseen.own⟩

theorem writeLinks_withoutWindow {call : SubmitObservations} {onActivity observationId : Nat}
    (links : List LinkInput) (state : GraphState) :
    writeLinks context { call with window := none } onActivity observationId links state =
      writeLinks context call onActivity observationId links state := by
  induction links generalizing state with
  | nil => rfl
  | cons link links ih =>
      have same : state.writeLink context { call with window := none } onActivity observationId
          link = state.writeLink context call onActivity observationId link := rfl
      rw [writeLinks, writeLinks, same]
      cases state.writeLink context call onActivity observationId link with
      | none => rfl
      | some next => exact ih next

theorem writeItems_withoutWindow {call : SubmitObservations} {onActivity : Nat}
    (state : GraphState) :
    state.writeItems context { call with window := none } onActivity =
      state.writeItems context call onActivity := by
  obtain ⟨caller, sourceId, named, items, window⟩ := call
  cases items with
  | nil => rfl
  | cons first rest =>
      exact @writeLinks_withoutWindow context ⟨caller, sourceId, named, first :: rest, window⟩ _ _ _ _

/-- The last call of a run, with and without its window. -/
theorem close_some {state final : GraphState} {call : SubmitObservations} {now : Nat}
    {objectTypes : List String} (window : call.window = some objectTypes)
    (closed : (system context).step state (.submits now call) = some final) :
    (context.sources call.sourceId).ownerPrincipalId = call.callerPrincipalId ∧
      state.clock ≤ now ∧
      ∃ started written began,
        (state.tick now).callActivity call = some (started, call.on state) ∧
          started.writeItems context call (call.on state) = some written ∧
          (system context).step state (.submits now { call with window := none }) =
            some written ∧
          written.activities[call.on state]? = some began ∧
          final = written.invalidateUnobservedFacts context call.callerPrincipalId call.sourceId
            objectTypes began.createdAt := by
  change GraphState.step context state (.submits now call) = some final at closed
  rw [GraphState.step] at closed
  split at closed
  next later =>
    obtain ⟨owner, started, written, acts, wrote, ends⟩ := submitObservations_some closed
    cases closeWindow_some ends with
    | inl none =>
        rw [window] at none
        exact absurd none.1 (fun same => (by cases same))
    | inr found =>
        obtain ⟨declared, began, isDeclared, isBegan, isFinal⟩ := found
        rw [window] at isDeclared
        rw [← Option.some.inj isDeclared] at isFinal
        refine ⟨owner, later, started, written, began, acts, wrote, ?_, isBegan, isFinal⟩
        change (if state.clock ≤ now then
          (state.tick now).submitObservations context { call with window := none } else none) = _
        rw [if_pos (show state.clock ≤ now from later)]
        have sameActs : (state.tick now).callActivity { call with window := none } =
            some (started, call.on state) := acts
        rw [submitObservations, if_pos owner, sameActs]
        dsimp only
        rw [writeItems_withoutWindow, show started.writeItems context call (call.on state) =
          some written from wrote]
        rfl
  next => cases closed

/-- The window of a run retires the Source's unsubmitted Facts of the declared types that were
last seen before the run's Activity began, and only those; every Link the run submitted is
answered by a Fact of its content that the window leaves, active where the last answer for the
identity was the Source's own. -/
theorem observationWindow_retires_unseen {start before final : GraphState}
    {history during : List GraphLabel} {now : Nat} {close : SubmitObservations}
    {objectTypes : List String}
    (earlier : (system context).run initial history = some start)
    (unsharedEarlier : (system context).Allowed (Unshared close.sourceId) initial history)
    (fresh : start.runAnswers close.sourceId activityId = [])
    (ran : (system context).run start during = some before)
    (unshared : (system context).Allowed (Unshared close.sourceId) start during)
    (between : (system context).Allowed (DuringRun close.sourceId activityId) start during)
    (onRun : close.on before = activityId) (window : close.window = some objectTypes)
    (unsharedClose : Unshared close.sourceId before (.submits now close))
    (closed : (system context).step before (.submits now close) = some final) :
    ∃ written began,
      (system context).step before (.submits now { close with window := none }) = some written ∧
      written.activities[activityId]? = some began ∧
      (∀ answer ∈ written.runAnswers close.sourceId activityId,
        ∃ fact, Answered context close.sourceId written answer fact ∧ fact ∈ final.facts ∧
          (written.lastAnswer close.sourceId activityId answer.input.identity = some answer →
            answer.own = true → fact.active = true)) ∧
      final.facts.length = written.facts.length ∧
      ∀ (place : Nat) (fact : Fact), written.facts[place]? = some fact →
        (Unseen context close.sourceId activityId objectTypes began written fact →
          final.facts[place]? = some { fact with invalidatedAt := some written.clock }) ∧
        (¬ Unseen context close.sourceId activityId objectTypes began written fact →
          final.facts[place]? = some fact) := by
  have rows := sourceHolds_of_run initial_sourceHolds unsharedEarlier earlier
  have holds := runHolds_of_run (runHolds_of_none rows fresh) unshared between ran
  obtain ⟨owner, later, started, written, began, acts, wrote, bare, isBegan, isFinal⟩ :=
    close_some window closed
  rw [onRun] at isBegan
  have ticked := holds.continues (holds.rows.tick later) (continues_tick before now)
  have held : RunHolds context close.sourceId activityId written := by
    rw [← onRun] at ticked ⊢
    exact @RunHolds.writes context (before.tick now) started written close ticked owner
      unsharedClose acts wrote
  have retires {fact : Fact} (member : fact ∈ written.facts) :=
    @unobserved_iff context close.sourceId activityId written close.callerPrincipalId objectTypes
      began held owner isBegan fact member
  have placed : ∀ (place : Nat) (fact : Fact), written.facts[place]? = some fact →
      final.facts[place]? = some
        (if written.unobserved context close.callerPrincipalId close.sourceId objectTypes
            began.createdAt fact = true
          then { fact with invalidatedAt := some written.clock } else fact) := by
    intro place fact found
    rw [isFinal]
    change (written.facts.map _)[place]? = _
    rw [List.getElem?_map, found, Option.map_some]
  refine ⟨written, began, bare, isBegan, ?_, ?_, ?_⟩
  · intro answer member
    obtain ⟨fact, answered⟩ := held.content answer member
    have kept : ¬ written.unobserved context close.callerPrincipalId close.sourceId objectTypes
        began.createdAt fact = true := by
      intro test
      exact ((retires answered.1).mp test).unsubmitted answer member answered.identity.symm
    obtain ⟨place, found⟩ := List.mem_iff_getElem?.mp answered.1
    have stays := placed place fact found
    rw [if_neg kept] at stays
    refine ⟨fact, answered, List.mem_of_getElem? stays, ?_⟩
    intro last own
    obtain ⟨standing, row, active, isId⟩ := held.standing answer last own
    rw [held.rows.numbered.eq answered.1 row.1 (answered.2.1.trans isId.symm)]
    exact active
  · rw [isFinal]
    exact List.length_map _
  · intro place fact found
    have member := List.mem_of_getElem? found
    constructor
    · intro unseen
      rw [placed place fact found, if_pos ((retires member).mpr unseen)]
    · intro seen
      rw [placed place fact found, if_neg fun test => seen ((retires member).mp test)]

/-! ### Runs of an office -/

/-- Sources 0 and 2 are of Principal 0, Source 1 is of Principal 1; every Object is a Host. -/
def office : GraphContext where
  sources sourceId := if sourceId = 1 then ⟨1, false⟩ else ⟨0, false⟩
  objectType _ := "Host"
  scrub := id

def edge (target : Nat) (state : String) : LinkInput :=
  ⟨⟨"runs", 0, target⟩, .obj [("state", .str state)]⟩

/-- A call with one item. -/
def submission (caller sourceId : Nat) (activityId : Option Nat) (links : List LinkInput)
    (window : Option (List String)) : SubmitObservations :=
  ⟨caller, sourceId, activityId, [links], window⟩

def officeHistory : List GraphLabel :=
  [.submits 0 (submission 0 0 none [edge 1 "up", edge 2 "up"] none)]

def officeDuring : List GraphLabel :=
  [.submits 1 (submission 0 0 none [edge 1 "up"] none),
    .submits 2 (submission 1 1 none [edge 2 "down"] none)]

def officeClose : SubmitObservations := submission 0 0 (some 1) [edge 3 "up"] (some ["Host"])

def officeStart : GraphState := ((system office).run initial officeHistory).getD initial

def officeBefore : GraphState := ((system office).run officeStart officeDuring).getD initial

def officeFinal : GraphState :=
  ((system office).step officeBefore (.submits 3 officeClose)).getD initial

/-- Of two Facts one is seen again; the other is retired, another Source's stays. -/
theorem observationWindow_office :
    (∃ written began,
      (system office).step officeBefore (.submits 3 { officeClose with window := none }) =
        some written ∧ written.activities[1]? = some began ∧
      ∀ answer ∈ written.runAnswers 0 1,
        ∃ fact, Answered office 0 written answer fact ∧ fact ∈ officeFinal.facts) ∧
      officeFinal.facts.map Fact.invalidatedAt = [none, some 3, none, none] := by
  constructor
  · obtain ⟨written, began, bare, isBegan, answered, _⟩ :=
      @observationWindow_retires_unseen office 1 officeStart officeBefore officeFinal
        officeHistory officeDuring 3 officeClose ["Host"] (by decide +kernel) (by decide +kernel)
        (by decide +kernel) (by decide +kernel) (by decide +kernel) (by decide +kernel)
        (by decide +kernel) rfl (by decide +kernel) (by decide +kernel)
    refine ⟨written, began, bare, isBegan, ?_⟩
    intro answer member
    obtain ⟨fact, isAnswered, stays, _⟩ := answered answer member
    exact ⟨fact, isAnswered, stays⟩
  · decide +kernel

/-- Another Source's Fact agrees with the run, and is changed before the run ends. -/
def agreedThenChanged : List GraphLabel :=
  [.submits 0 (submission 1 1 none [edge 1 "up"] none),
    .submits 1 (submission 0 0 none [edge 1 "up"] none),
    .submits 2 (submission 1 1 (some 0) [edge 1 "down"] none),
    .submits 3 ⟨0, 0, some 1, [], some ["Host"]⟩]

/-- The Source observes elsewhere after the run's Activity began. -/
def observedElsewhere : List GraphLabel :=
  [.startsActivity 0 0,
    .submits 1 (submission 0 0 none [edge 1 "up"] none),
    .submits 2 (submission 0 0 (some 0) [edge 2 "up"] (some ["Host"]))]

/-- The Activity of an earlier call is shared with another Source of the Principal. -/
def sharedActivity : List GraphLabel :=
  [.submits 0 (submission 0 0 none [edge 1 "up"] none),
    .submits 0 (submission 0 2 (some 0) [edge 2 "up"] none),
    .submits 1 (submission 0 0 none [edge 1 "up"] (some ["Host"]))]

/-- An Activity has a Fact before it has an Observation. -/
def assertedBefore : List GraphLabel :=
  [.startsActivity 0 0,
    .submits 1 (submission 0 0 none [edge 1 "up"] none),
    .assertsFact 2 0 ⟨(edge 1 "down").identity, (edge 1 "down").properties, none, 0⟩,
    .submits 3 (submission 0 0 (some 0) [edge 2 "up"] none),
    .submits 4 (submission 0 0 none [edge 1 "down", edge 2 "up"] (some ["Host"]))]

def endsIn (labels : List GraphLabel) (test : GraphState → Bool) : Bool :=
  ((system office).run initial labels).any test

theorem exists_of_endsIn {labels : List GraphLabel} {test : GraphState → Bool}
    (ends : endsIn labels test = true) :
    ∃ final, (system office).run initial labels = some final ∧ test final = true :=
  (Option.any_eq_true _ _).mp ends

/-- The submitted content is gone; an unsubmitted Fact stays; the Fact submitted again is
retired; a row of a submitted identity is retired. -/
theorem observationWindow_exceptions :
    (∃ final, (system office).run initial agreedThenChanged = some final ∧
      (final.facts.all fun fact => !(fact.active &&
        factContentEquals fact (linkInput 1 0 (edge 1 "up")))) = true) ∧
    (∃ final, (system office).run initial observedElsewhere = some final ∧
      final.facts.all Fact.active = true) ∧
    (∃ final, (system office).run initial sharedActivity = some final ∧
      (decide (final.answers.map LinkAnswer.factId = [0, 1, 0]) &&
        decide (final.facts.map Fact.active = [false, true])) = true) ∧
    (∃ final, (system office).run initial assertedBefore = some final ∧
      decide (final.facts.map Fact.active = [false, true, true]) = true) := by
  refine ⟨?_, ?_, ?_, ?_⟩
  · apply exists_of_endsIn
    decide +kernel
  · apply exists_of_endsIn
    decide +kernel
  · apply exists_of_endsIn
    decide +kernel
  · apply exists_of_endsIn
    decide +kernel

end GraphState
end NextTime.Graph
