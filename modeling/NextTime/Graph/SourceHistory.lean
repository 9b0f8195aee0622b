import NextTime.Graph.SourceFacts

/-
What holds of the rows of one Source over a history in which its Activities are
its own, and what the writers of other Sources and Activities leave of them.
-/

namespace NextTime.Graph

/-- An Observation of the Source goes to an Activity of the Source, or to one that carries
nothing yet; one of another Source goes elsewhere. -/
def PutsUnshared (sourceId : Nat) (state : GraphState) (observed activityId : Nat) : Prop :=
  if observed = sourceId then
    state.Carries sourceId activityId ∨
      ((∀ observation ∈ state.observations, observation.activityId ≠ activityId) ∧
        ∀ fact ∈ state.facts, fact.activityId ≠ activityId)
  else ¬ state.Carries sourceId activityId

instance (state : GraphState) (sourceId activityId : Nat) :
    Decidable (state.Carries sourceId activityId) :=
  inferInstanceAs (Decidable (∃ observation ∈ state.observations,
    observation.activityId = activityId ∧ observation.sourceId = sourceId))

instance (sourceId : Nat) (state : GraphState) (observed activityId : Nat) :
    Decidable (PutsUnshared sourceId state observed activityId) :=
  inferInstanceAs (Decidable (if observed = sourceId then _ else _))

/-- The Activity a call writes on. -/
def SubmitObservations.on (call : SubmitObservations) (state : GraphState) : Nat :=
  call.activityId.getD state.activities.length

/-- No Activity of the Source is shared with another, nor had Facts before it. -/
def Unshared (sourceId : Nat) (state : GraphState) : GraphLabel → Prop
  | .recordsObservation _ _ observed activityId => PutsUnshared sourceId state observed activityId
  | .submits _ call =>
      call.observations ≠ [] → PutsUnshared sourceId state call.sourceId (call.on state)
  | _ => True

instance (sourceId : Nat) (state : GraphState) :
    (label : GraphLabel) → Decidable (Unshared sourceId state label)
  | .recordsObservation _ _ observed activityId =>
      inferInstanceAs (Decidable (PutsUnshared sourceId state observed activityId))
  | .submits _ call =>
      inferInstanceAs (Decidable (call.observations ≠ [] →
        PutsUnshared sourceId state call.sourceId (call.on state)))
  | .startsActivity _ _ => isTrue trivial
  | .assertsFact _ _ _ => isTrue trivial

namespace GraphState

variable {context : GraphContext} {sourceId activityId : Nat}

structure SourceHolds (sourceId : Nat) (state : GraphState) : Prop where
  numbered : Numbered Fact.id state.facts
  observed : Numbered Observation.id state.observations
  unmixed : state.Unmixed sourceId
  named : state.Named sourceId
  unique : state.UniqueActive sourceId
  begun : ∀ activity ∈ state.activities, activity.createdAt ≤ state.clock

/-- The answers a Source got for what it submitted on an Activity. -/
def runAnswers (state : GraphState) (sourceId activityId : Nat) : List LinkAnswer :=
  state.answers.filter fun answer =>
    decide (answer.sourceId = sourceId) && decide (answer.activityId = activityId)

/-- What others leave of a Source and of its run on an Activity. -/
structure Continues (sourceId activityId : Nat) (state next : GraphState) : Prop where
  rows : SameRows sourceId state next
  keeps : state.Keeps next
  answers : next.runAnswers sourceId activityId = state.runAnswers sourceId activityId
  activities : ∃ later, next.activities = state.activities ++ later

theorem Continues.refl (state : GraphState) : Continues sourceId activityId state state :=
  ⟨SameRows.refl state, Keeps.refl state, rfl, [], (List.append_nil _).symm⟩

theorem Continues.trans {first second third : GraphState}
    (earlier : Continues sourceId activityId first second)
    (later : Continues sourceId activityId second third) :
    Continues sourceId activityId first third := by
  obtain ⟨more, isMore⟩ := earlier.activities
  obtain ⟨rest, isRest⟩ := later.activities
  exact ⟨earlier.rows.trans later.rows, earlier.keeps.trans later.keeps,
    later.answers.trans earlier.answers, more ++ rest, by rw [isRest, isMore, List.append_assoc]⟩

theorem unique_of_sameRows {state next : GraphState} (rows : SameRows sourceId state next)
    (unique : state.UniqueActive sourceId) : next.UniqueActive sourceId :=
  fun first second firstRow secondRow =>
    unique first second ((rows first).mp firstRow) ((rows second).mp secondRow)

theorem unique_of_ownAnswer {state next : GraphState} {input : AssertFactInput} {factId : Nat}
    {own : Bool} (answer : OwnAnswer sourceId state next input factId own)
    (numbered : Numbered Fact.id next.facts) (unique : state.UniqueActive sourceId) :
    next.UniqueActive sourceId := by
  intro first second firstRow secondRow firstActive secondActive same
  by_cases asserted : first.identity = input.identity
  · have firstId := (answer.recent first firstRow firstActive asserted).2.1
    have secondId :=
      (answer.recent second secondRow secondActive (same.symm.trans asserted)).2.1
    exact numbered.eq firstRow.1 secondRow.1 (firstId.trans secondId.symm)
  · have secondOther : second.identity ≠ input.identity :=
      fun second => asserted (same.trans second)
    exact unique first second ((answer.others first asserted).mp firstRow)
      ((answer.others second secondOther).mp secondRow) firstActive secondActive same

/-! ### One assertion -/

theorem carries_congr {state next : GraphState} (same : next.observations = state.observations)
    (sourceId activityId : Nat) :
    next.Carries sourceId activityId ↔ state.Carries sourceId activityId := by
  rw [Carries, Carries, same]

theorem SourceHolds.asserted {state next : GraphState} {caller factId : Nat} {own : Bool}
    {input : AssertFactInput} (holds : SourceHolds sourceId state)
    (asserted : Asserted context state caller input next factId own)
    (anchored : Anchored context state caller input) : SourceHolds sourceId next := by
  obtain ⟨sameObservations, sameActivities, sameClock, _⟩ := asserted.observations
  have numbered := asserted.numbered holds.numbered
  constructor
  · exact numbered
  · rw [sameObservations]
    exact holds.observed
  · rw [Unmixed, sameObservations]
    exact holds.unmixed
  · exact asserted.named holds.numbered holds.unmixed holds.named anchored
  · by_cases writer : state.Carries sourceId input.activityId ∧
        seesSource context caller sourceId = true
    · have answer :=
        asserted.ownAnswer holds.numbered holds.unmixed holds.unique writer.1 writer.2
      exact unique_of_ownAnswer answer numbered holds.unique
    · exact unique_of_sameRows (asserted.foreign holds.numbered holds.unmixed writer) holds.unique
  · rw [sameActivities, sameClock]
    exact holds.begun

theorem Asserted.continues {state next : GraphState} {caller factId : Nat} {own : Bool}
    {input : AssertFactInput} (asserted : Asserted context state caller input next factId own)
    (holds : SourceHolds sourceId state) (apart : ¬ state.Carries sourceId input.activityId) :
    Continues sourceId activityId state next := by
  obtain ⟨_, sameActivities, _, sameAnswers⟩ := asserted.observations
  constructor
  · exact asserted.foreign holds.numbered holds.unmixed fun writer => apart writer.1
  · exact asserted.keeps
  · rw [runAnswers, sameAnswers, runAnswers]
  · exact ⟨[], by rw [sameActivities, List.append_nil]⟩

/-! ### Time, Activities and Observations -/

def tick (state : GraphState) (now : Nat) : GraphState := { state with clock := now }

theorem SourceHolds.tick {state : GraphState} (holds : SourceHolds sourceId state) {now : Nat}
    (later : state.clock ≤ now) : SourceHolds sourceId (state.tick now) :=
  ⟨holds.numbered, holds.observed, holds.unmixed, holds.named, holds.unique,
    fun activity member => Nat.le_trans (holds.begun activity member) later⟩

theorem continues_tick (state : GraphState) (now : Nat) :
    Continues sourceId activityId state (state.tick now) :=
  ⟨SameRows.refl state, Keeps.refl state, rfl, [], (List.append_nil _).symm⟩

theorem SourceHolds.startActivity {state : GraphState} (holds : SourceHolds sourceId state)
    (principalId : Nat) : SourceHolds sourceId (state.startActivity principalId) := by
  refine ⟨holds.numbered, holds.observed, holds.unmixed, holds.named, holds.unique, ?_⟩
  intro activity member
  cases List.mem_append.mp member with
  | inl known => exact holds.begun activity known
  | inr new =>
      rw [List.mem_singleton.mp new]
      exact Nat.le_refl _

theorem continues_startActivity (state : GraphState) (principalId : Nat) :
    Continues sourceId activityId state (state.startActivity principalId) :=
  ⟨SameRows.refl state, Keeps.refl state, rfl, [⟨state.clock, principalId⟩], rfl⟩

theorem carries_recorded {state : GraphState} {observed onActivity other : Nat} :
    (state.recordSourceObservation observed onActivity).Carries sourceId other ↔
      state.Carries sourceId other ∨ (onActivity = other ∧ observed = sourceId) := by
  constructor
  · intro carries
    obtain ⟨observation, present, here, same⟩ := carries
    cases List.mem_append.mp present with
    | inl known => exact Or.inl ⟨observation, known, here, same⟩
    | inr new =>
        rw [List.mem_singleton.mp new] at here same
        exact Or.inr ⟨here, same⟩
  · intro carries
    cases carries with
    | inl known =>
        obtain ⟨observation, present, here, same⟩ := known
        exact ⟨observation, List.mem_append_left _ present, here, same⟩
    | inr new =>
        exact ⟨_, List.mem_append_right _ (List.mem_singleton.mpr rfl), new.1, new.2⟩

/-- An unshared Observation moves no Fact to the Source, nor from it. -/
theorem carries_recorded_of_fact {state : GraphState} {observed onActivity : Nat}
    (puts : PutsUnshared sourceId state observed onActivity) {fact : Fact}
    (member : fact ∈ state.facts) :
    (state.recordSourceObservation observed onActivity).Carries sourceId fact.activityId ↔
      state.Carries sourceId fact.activityId := by
  rw [carries_recorded]
  constructor
  · intro carries
    cases carries with
    | inl known => exact known
    | inr new =>
        rw [PutsUnshared, if_pos new.2] at puts
        cases puts with
        | inl carries => exact new.1 ▸ carries
        | inr empty => exact absurd new.1.symm (empty.2 fact member)
  · exact Or.inl

theorem sameRows_recorded {state : GraphState} {observed onActivity : Nat}
    (puts : PutsUnshared sourceId state observed onActivity) :
    SameRows sourceId state (state.recordSourceObservation observed onActivity) := by
  intro fact
  constructor
  · intro row
    exact ⟨row.1, (carries_recorded_of_fact puts row.1).mp row.2⟩
  · intro row
    exact ⟨row.1, (carries_recorded_of_fact puts row.1).mpr row.2⟩

theorem unmixed_recorded {state : GraphState} (unmixed : state.Unmixed sourceId)
    {observed onActivity : Nat} (puts : PutsUnshared sourceId state observed onActivity) :
    (state.recordSourceObservation observed onActivity).Unmixed sourceId := by
  -- A new Observation of the Source meets only Observations of the Source.
  have meets : observed = sourceId → ∀ other ∈ state.observations,
      other.activityId = onActivity → other.sourceId = sourceId := by
    intro own other present here
    rw [PutsUnshared, if_pos own] at puts
    cases puts with
    | inl carries => exact (unmixed.source_iff present).mpr (here ▸ carries)
    | inr empty => exact absurd here (empty.1 other present)
  intro first firstMember second secondMember together isOwn
  cases List.mem_append.mp firstMember with
  | inl firstKnown =>
      cases List.mem_append.mp secondMember with
      | inl secondKnown => exact unmixed first firstKnown second secondKnown together isOwn
      | inr new =>
          rw [List.mem_singleton.mp new] at together ⊢
          by_cases own : observed = sourceId
          · exact own
          · rw [PutsUnshared, if_neg own] at puts
            exact absurd ⟨first, firstKnown, together, isOwn⟩ puts
  | inr new =>
      rw [List.mem_singleton.mp new] at together isOwn
      cases List.mem_append.mp secondMember with
      | inl secondKnown => exact meets isOwn second secondKnown together.symm
      | inr also =>
          rw [List.mem_singleton.mp also]
          exact isOwn

theorem SourceHolds.recorded {state : GraphState} (holds : SourceHolds sourceId state)
    {observed onActivity : Nat} (puts : PutsUnshared sourceId state observed onActivity) :
    SourceHolds sourceId (state.recordSourceObservation observed onActivity) := by
  constructor
  · exact holds.numbered
  · exact holds.observed.append rfl
  · exact unmixed_recorded holds.unmixed puts
  · intro fact member observationId names
    obtain ⟨observation, present, isId, iff⟩ := holds.named fact member observationId names
    exact ⟨observation, List.mem_append_left _ present, isId,
      iff.trans (carries_recorded_of_fact puts member).symm⟩
  · exact unique_of_sameRows (sameRows_recorded puts) holds.unique
  · exact holds.begun

theorem continues_recorded {state : GraphState} {observed onActivity : Nat}
    (puts : PutsUnshared sourceId state observed onActivity) :
    Continues sourceId activityId state (state.recordSourceObservation observed onActivity) :=
  ⟨sameRows_recorded puts, Keeps.refl state, rfl, [], (List.append_nil _).symm⟩

/-! ### A window -/

theorem sameContent_retired {state : GraphState} {test : Bool} (fact : Fact) :
    SameContent fact
      (if test = true then { fact with invalidatedAt := some state.clock } else fact) := by
  split
  next => exact SameContent.refl fact
  next => exact SameContent.refl fact

theorem keeps_window {state : GraphState} {caller observed before : Nat}
    {objectTypes : List String} :
    state.Keeps (state.invalidateUnobservedFacts context caller observed objectTypes before) :=
  fun fact member => ⟨_, List.mem_map_of_mem member, sameContent_retired fact⟩

theorem SourceHolds.window {state : GraphState} (holds : SourceHolds sourceId state)
    (caller observed before : Nat) (objectTypes : List String) :
    SourceHolds sourceId
      (state.invalidateUnobservedFacts context caller observed objectTypes before) := by
  -- An active row after the window is the row before it.
  have stays : ∀ fact,
      (state.invalidateUnobservedFacts context caller observed objectTypes before).OwnRow
        sourceId fact → fact.active = true → state.OwnRow sourceId fact := by
    intro fact row active
    obtain ⟨old, present, same⟩ := List.mem_map.mp row.1
    split at same
    next =>
      rw [← same, Fact.active, Bool.and_eq_true] at active
      exact absurd active.2 Bool.false_ne_true
    next => exact ⟨same ▸ present, row.2⟩
  constructor
  · exact holds.numbered.map fun fact => (sameContent_retired fact).1
  · exact holds.observed
  · exact holds.unmixed
  · intro fact member observationId names
    obtain ⟨old, present, same⟩ := List.mem_map.mp member
    have sameNames : fact.lastObservationId = old.lastObservationId ∧
        fact.observationId = old.observationId ∧ fact.activityId = old.activityId := by
      rw [← same]
      split
      next => exact ⟨rfl, rfl, rfl⟩
      next => exact ⟨rfl, rfl, rfl⟩
    rw [sameNames.1, sameNames.2.1] at names
    rw [sameNames.2.2]
    exact holds.named old present observationId names
  · intro first second firstRow secondRow firstActive secondActive
    exact holds.unique first second (stays first firstRow firstActive)
      (stays second secondRow secondActive) firstActive secondActive
  · exact holds.begun

theorem continues_window {state : GraphState} (holds : SourceHolds sourceId state)
    {caller observed before : Nat} {objectTypes : List String} (other : observed ≠ sourceId) :
    Continues sourceId activityId state
      (state.invalidateUnobservedFacts context caller observed objectTypes before) := by
  have spared : ∀ fact ∈ state.facts, state.Carries sourceId fact.activityId →
      state.unobserved context caller observed objectTypes before fact = false := by
    intro fact member carries
    have notFed := not_fedBy holds.observed holds.unmixed holds.named member carries other
    rw [unobserved, notFed, Bool.and_false]
  refine ⟨?_, keeps_window, rfl, [], (List.append_nil _).symm⟩
  intro fact
  constructor
  · intro row
    obtain ⟨old, present, same⟩ := List.mem_map.mp row.1
    have sameActivity := (@sameContent_retired state
      (state.unobserved context caller observed objectTypes before old) old).2.2.2.2
    rw [same] at sameActivity
    have onActivity : state.Carries sourceId fact.activityId := row.2
    rw [spared old present (sameActivity ▸ onActivity), if_neg Bool.false_ne_true] at same
    exact ⟨same ▸ present, onActivity⟩
  · intro row
    have kept := List.mem_map_of_mem (f := fun fact =>
      if state.unobserved context caller observed objectTypes before fact = true then
        { fact with invalidatedAt := some state.clock }
      else fact) row.1
    rw [spared fact row.1 row.2, if_neg Bool.false_ne_true] at kept
    exact ⟨kept, row.2⟩

/-! ### A submission -/

/-- The Observation of a call, which its owner sees. -/
structure Recorded (context : GraphContext) (state : GraphState) (call : SubmitObservations)
    (onActivity observationId : Nat) : Prop where
  owner : (context.sources call.sourceId).ownerPrincipalId = call.callerPrincipalId
  present : ⟨observationId, call.sourceId, onActivity⟩ ∈ state.observations

theorem sees_of_owner {caller : Nat}
    (owner : (context.sources sourceId).ownerPrincipalId = caller) :
    seesSource context caller sourceId = true := by
  rw [seesSource, owner, decide_eq_true rfl, Bool.or_true]

def linkInput (onActivity observationId : Nat) (link : LinkInput) : AssertFactInput where
  identity := link.identity
  properties := link.properties
  validUntil := none
  activityId := onActivity
  observationId := some observationId

theorem Recorded.anchored {state : GraphState} {call : SubmitObservations}
    {onActivity observationId : Nat}
    (recorded : Recorded context state call onActivity observationId) (link : LinkInput) :
    Anchored context state call.callerPrincipalId
      (withScrubbedProperties context (linkInput onActivity observationId link)) := by
  intro named names
  have same : observationId = named := Option.some.inj names
  exact ⟨_, recorded.present, same, rfl, sees_of_owner recorded.owner⟩

/-- A Link is asserted and its answer noted. -/
theorem writeLink_some {state next : GraphState} {call : SubmitObservations}
    {onActivity observationId : Nat} {link : LinkInput}
    (wrote : state.writeLink context call onActivity observationId link = some next) :
    ∃ asserted factId own,
      Asserted context state call.callerPrincipalId
        (withScrubbedProperties context (linkInput onActivity observationId link))
        asserted factId own ∧
      next = { asserted with
        answers := asserted.answers ++
          [⟨call.sourceId, onActivity, linkInput onActivity observationId link, factId, own⟩] } := by
  obtain ⟨answer, asserted, same⟩ := Option.map_eq_some_iff.mp wrote
  exact ⟨answer.1, answer.2.1, answer.2.2, assertFact_asserted asserted, same.symm⟩

/-- What each Link preserves, the Links of a call preserve. -/
theorem writeLinks_preserves {call : SubmitObservations} {onActivity observationId : Nat}
    {property : GraphState → Prop}
    (each : ∀ state link next, property state →
      state.writeLink context call onActivity observationId link = some next → property next)
    {links : List LinkInput} {state final : GraphState} (holds : property state)
    (wrote : writeLinks context call onActivity observationId links state = some final) :
    property final := by
  induction links generalizing state with
  | nil => exact Option.some.inj wrote ▸ holds
  | cons link links ih =>
      rw [writeLinks] at wrote
      cases first : state.writeLink context call onActivity observationId link with
      | none => rw [first] at wrote; cases wrote
      | some next =>
          rw [first] at wrote
          exact ih (each state link next holds first) wrote

theorem SourceHolds.answered {state : GraphState} (holds : SourceHolds sourceId state)
    (answers : List LinkAnswer) : SourceHolds sourceId { state with answers := answers } :=
  ⟨holds.numbered, holds.observed, holds.unmixed, holds.named, holds.unique, holds.begun⟩

theorem runAnswers_append {state : GraphState} {answer : LinkAnswer} :
    ({ state with answers := state.answers ++ [answer] } : GraphState).runAnswers
        sourceId activityId =
      state.runAnswers sourceId activityId ++
        (if answer.sourceId = sourceId ∧ answer.activityId = activityId then [answer] else []) := by
  rw [runAnswers, List.filter_append, runAnswers]
  by_cases ofRun : answer.sourceId = sourceId ∧ answer.activityId = activityId
  · rw [if_pos ofRun, List.filter_singleton, decide_eq_true ofRun.1, decide_eq_true ofRun.2]
    rfl
  · rw [if_neg ofRun, List.filter_singleton, ← Bool.decide_and, decide_eq_false ofRun]
    rfl

theorem Recorded.asserted {state next : GraphState} {call : SubmitObservations}
    {onActivity observationId : Nat}
    (recorded : Recorded context state call onActivity observationId)
    (same : next.observations = state.observations) :
    Recorded context next call onActivity observationId :=
  ⟨recorded.owner, same ▸ recorded.present⟩

/-- While the Links of a call are written; another Source's call leaves the Source and its run
as they were. -/
structure CallHolds (context : GraphContext) (sourceId activityId : Nat)
    (call : SubmitObservations) (onActivity observationId : Nat) (start state : GraphState) :
    Prop where
  holds : SourceHolds sourceId state
  recorded : Recorded context state call onActivity observationId
  continues : call.sourceId ≠ sourceId → Continues sourceId activityId start state

theorem CallHolds.link {call : SubmitObservations} {onActivity observationId : Nat}
    {start state next : GraphState} {link : LinkInput}
    (held : CallHolds context sourceId activityId call onActivity observationId start state)
    (wrote : state.writeLink context call onActivity observationId link = some next) :
    CallHolds context sourceId activityId call onActivity observationId start next := by
  obtain ⟨middle, factId, own, asserted, isNext⟩ := writeLink_some wrote
  have anchored := held.recorded.anchored link
  have sameObservations := asserted.observations.1
  rw [isNext]
  constructor
  · exact (held.holds.asserted asserted anchored).answered _
  · exact held.recorded.asserted sameObservations
  · intro other
    have apart : ¬ state.Carries sourceId onActivity := by
      intro carries
      have isOwn := (held.holds.unmixed.source_iff held.recorded.present).mpr carries
      exact other isOwn
    have step : Continues sourceId activityId start middle :=
      (held.continues other).trans (asserted.continues held.holds apart)
    refine ⟨step.rows, step.keeps, ?_, step.activities⟩
    rw [runAnswers_append, if_neg fun ofRun => other ofRun.1, List.append_nil]
    exact step.answers

theorem writeItems_some {state written : GraphState} {call : SubmitObservations}
    {onActivity : Nat} (wrote : state.writeItems context call onActivity = some written) :
    (call.observations = [] ∧ written = state) ∨
      (call.observations ≠ [] ∧
        writeLinks context call onActivity state.observations.length call.observations.flatten
          (state.recordSourceObservation call.sourceId onActivity) = some written) := by
  rw [writeItems] at wrote
  split at wrote
  next none => exact Or.inl ⟨none, (Option.some.inj wrote).symm⟩
  next items => exact Or.inr ⟨items, wrote⟩

theorem recorded_present (state : GraphState) {call : SubmitObservations} {onActivity : Nat}
    (owner : (context.sources call.sourceId).ownerPrincipalId = call.callerPrincipalId) :
    Recorded context (state.recordSourceObservation call.sourceId onActivity) call onActivity
      state.observations.length :=
  ⟨owner, List.mem_append_right _ (List.mem_singleton.mpr rfl)⟩

/-- What a step leaves of a Source: its rows are still its own, and all of them and its run as
they were where the step is another's. -/
structure Leaves (sourceId activityId : Nat) (others : Prop) (state next : GraphState) : Prop where
  holds : SourceHolds sourceId next
  continues : others → Continues sourceId activityId state next

theorem writeItems_leaves {state written : GraphState} {call : SubmitObservations}
    {onActivity : Nat} (holds : SourceHolds sourceId state)
    (owner : (context.sources call.sourceId).ownerPrincipalId = call.callerPrincipalId)
    (puts : call.observations ≠ [] → PutsUnshared sourceId state call.sourceId onActivity)
    (wrote : state.writeItems context call onActivity = some written) :
    Leaves sourceId activityId (call.sourceId ≠ sourceId) state written := by
  cases writeItems_some wrote with
  | inl none =>
      rw [none.2]
      exact ⟨holds, fun _ => Continues.refl state⟩
  | inr items =>
      have unshared := puts items.1
      have recorded : CallHolds context sourceId activityId call onActivity
          state.observations.length state
          (state.recordSourceObservation call.sourceId onActivity) :=
        ⟨holds.recorded unshared, recorded_present state owner,
          fun _ => continues_recorded unshared⟩
      have final := writeLinks_preserves (fun _ _ _ held => held.link) recorded items.2
      exact ⟨final.holds, final.continues⟩

theorem closeWindow_some {state final : GraphState} {call : SubmitObservations}
    {onActivity : Nat} (closed : state.closeWindow context call onActivity = some final) :
    (call.window = none ∧ final = state) ∨
      ∃ objectTypes began, call.window = some objectTypes ∧
        state.activities[onActivity]? = some began ∧
          final = state.invalidateUnobservedFacts context call.callerPrincipalId call.sourceId
            objectTypes began.createdAt := by
  rw [closeWindow] at closed
  split at closed
  next none => exact Or.inl ⟨none, (Option.some.inj closed).symm⟩
  next objectTypes window =>
    obtain ⟨began, found, same⟩ := Option.map_eq_some_iff.mp closed
    exact Or.inr ⟨objectTypes, began, window, found, same.symm⟩

theorem closeWindow_leaves {state final : GraphState} {call : SubmitObservations}
    {onActivity : Nat} (holds : SourceHolds sourceId state)
    (closed : state.closeWindow context call onActivity = some final) :
    Leaves sourceId activityId (call.sourceId ≠ sourceId) state final := by
  cases closeWindow_some closed with
  | inl none =>
      rw [none.2]
      exact ⟨holds, fun _ => Continues.refl state⟩
  | inr window =>
      obtain ⟨objectTypes, began, _, _, isFinal⟩ := window
      rw [isFinal]
      exact ⟨holds.window _ _ _ _, fun other => continues_window holds other⟩

/-- A call writes on the Activity it names, or on one it starts. -/
theorem callActivity_some {state started : GraphState} {call : SubmitObservations}
    {onActivity : Nat} (acts : state.callActivity call = some (started, onActivity)) :
    onActivity = call.on state ∧ onActivity < started.activities.length ∧
      (started = state ∨ started = state.startActivity call.callerPrincipalId) := by
  rw [callActivity] at acts
  split at acts
  next fresh =>
    obtain ⟨isStarted, isActivity⟩ := Prod.mk.inj (Option.some.inj acts)
    rw [← isStarted, ← isActivity, SubmitObservations.on, fresh]
    refine ⟨rfl, ?_, Or.inr rfl⟩
    change state.activities.length < (state.activities ++ [_]).length
    rw [List.length_append]
    exact Nat.lt_succ_self _
  next named isNamed =>
    split at acts
    next => cases acts
    next activity found =>
      split at acts
      next =>
        obtain ⟨isStarted, isActivity⟩ := Prod.mk.inj (Option.some.inj acts)
        rw [← isStarted, ← isActivity, SubmitObservations.on, isNamed]
        exact ⟨rfl, (List.getElem?_eq_some_iff.mp found).1, Or.inl rfl⟩
      next => cases acts

theorem submitObservations_some {state final : GraphState} {call : SubmitObservations}
    (submitted : state.submitObservations context call = some final) :
    (context.sources call.sourceId).ownerPrincipalId = call.callerPrincipalId ∧
      ∃ started written, state.callActivity call = some (started, call.on state) ∧
        started.writeItems context call (call.on state) = some written ∧
          written.closeWindow context call (call.on state) = some final := by
  rw [submitObservations] at submitted
  split at submitted
  next owner =>
    refine ⟨owner, ?_⟩
    split at submitted
    next => cases submitted
    next started onActivity acts =>
      have isActivity := (callActivity_some acts).1
      split at submitted
      next => cases submitted
      next written wrote =>
        rw [isActivity] at acts wrote submitted
        exact ⟨started, written, acts, wrote, submitted⟩
  next => cases submitted

theorem callActivity_leaves {state started : GraphState} {call : SubmitObservations}
    {onActivity : Nat} (holds : SourceHolds sourceId state)
    (acts : state.callActivity call = some (started, onActivity)) :
    SourceHolds sourceId started ∧ Continues sourceId activityId state started ∧
      started.observations = state.observations ∧ started.facts = state.facts := by
  cases (callActivity_some acts).2.2 with
  | inl same =>
      rw [same]
      exact ⟨holds, Continues.refl state, rfl, rfl⟩
  | inr fresh =>
      rw [fresh]
      exact ⟨holds.startActivity _, continues_startActivity state _, rfl, rfl⟩

theorem putsUnshared_congr {state next : GraphState} {observed onActivity : Nat}
    (observations : next.observations = state.observations) (facts : next.facts = state.facts)
    (puts : PutsUnshared sourceId state observed onActivity) :
    PutsUnshared sourceId next observed onActivity := by
  rw [PutsUnshared, carries_congr observations, observations, facts]
  exact puts

/-! ### A step -/

/-- A step of a history that is none of the Source's own: no submission of it, and no assertion
on an Activity of it. -/
def OfOthers (sourceId : Nat) (state : GraphState) : GraphLabel → Prop
  | .submits _ call => call.sourceId ≠ sourceId
  | .assertsFact _ _ call => ¬ state.Carries sourceId call.activityId
  | _ => True

theorem submit_leaves {state final : GraphState} {call : SubmitObservations}
    (holds : SourceHolds sourceId state)
    (puts : call.observations ≠ [] →
      PutsUnshared sourceId state call.sourceId (call.on state))
    (submitted : state.submitObservations context call = some final) :
    Leaves sourceId activityId (call.sourceId ≠ sourceId) state final := by
  obtain ⟨owner, started, written, acts, wrote, closed⟩ := submitObservations_some submitted
  obtain ⟨begins, first, sameObservations, sameFacts⟩ :=
    @callActivity_leaves sourceId activityId _ _ _ _ holds acts
  have second : Leaves sourceId activityId (call.sourceId ≠ sourceId) started written :=
    writeItems_leaves begins owner
      (fun items => putsUnshared_congr sameObservations sameFacts (puts items)) wrote
  have third : Leaves sourceId activityId (call.sourceId ≠ sourceId) written final :=
    closeWindow_leaves second.holds closed
  exact ⟨third.holds,
    fun other => (first.trans (second.continues other)).trans (third.continues other)⟩

theorem step_leaves {state next : GraphState} {label : GraphLabel}
    (holds : SourceHolds sourceId state) (unshared : Unshared sourceId state label)
    (moved : (system context).step state label = some next) :
    Leaves sourceId activityId (OfOthers sourceId state label) state next := by
  change step context state label = some next at moved
  rw [step] at moved
  split at moved
  next later =>
    have ticked : SourceHolds sourceId (state.tick label.now) := holds.tick later
    have first : Continues sourceId activityId state (state.tick label.now) :=
      continues_tick state label.now
    cases label with
    | startsActivity now principalId =>
        rw [← Option.some.inj moved]
        exact ⟨ticked.startActivity principalId,
          fun _ => first.trans (continues_startActivity _ principalId)⟩
    | recordsObservation now caller observed onActivity =>
        rw [transact] at moved
        split at moved
        next =>
          rw [← Option.some.inj moved]
          have puts : PutsUnshared sourceId (state.tick now) observed onActivity := unshared
          exact ⟨ticked.recorded puts, fun _ => first.trans (continues_recorded puts)⟩
        next => cases moved
    | assertsFact now caller call =>
        rw [transact] at moved
        split at moved
        next =>
          obtain ⟨answer, asserts, same⟩ := Option.map_eq_some_iff.mp moved
          have asserted := assertFact_asserted asserts
          have anchored : Anchored context (state.tick now) caller
              (withScrubbedProperties context call.input) :=
            fun _ names => (nomatch names)
          rw [← same]
          exact ⟨ticked.asserted asserted anchored,
            fun apart => first.trans (asserted.continues ticked apart)⟩
        next => cases moved
    | submits now call =>
        have leaves := @submit_leaves context sourceId activityId _ _ _ ticked unshared moved
        exact ⟨leaves.holds, fun other => first.trans (leaves.continues other)⟩
  next => cases moved

theorem initial_sourceHolds : SourceHolds sourceId initial where
  numbered place fact found := by cases found
  observed place observation found := by cases found
  unmixed first member := by cases member
  named fact member := by cases member
  unique first second row := by cases row.1
  begun activity member := by cases member

/-- After every unshared history the Source has at most one active row of an identity. -/
theorem sourceHolds_of_run {start final : GraphState} {labels : List GraphLabel}
    (holds : SourceHolds sourceId start)
    (unshared : (system context).Allowed (Unshared sourceId) start labels)
    (ran : (system context).run start labels = some final) : SourceHolds sourceId final := by
  have preserved : (system context).PreservedWhen (Unshared sourceId) (SourceHolds sourceId) :=
    fun _ _ _ held allowed moved =>
      (@step_leaves context sourceId 0 _ _ _ held allowed moved).holds
  exact (system context).run_preserves_when preserved holds unshared ran

end GraphState
end NextTime.Graph
