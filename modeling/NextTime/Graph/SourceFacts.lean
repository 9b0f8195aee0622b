import NextTime.Graph.SubmitObservations

/-
The Facts of one Source. Where no Activity that carries an Observation of it is
shared with another Source, and the first such Observation comes before any Fact
of its Activity, a Fact belongs to the Source exactly when its Activity carries
the Source, whoever looks; and no identity has two active Facts of it.
-/

namespace NextTime.Graph

namespace GraphState

variable {context : GraphContext} {sourceId : Nat}

/-- An Observation of the Source is on the Activity. -/
def Carries (state : GraphState) (sourceId activityId : Nat) : Prop :=
  ∃ observation ∈ state.observations,
    observation.activityId = activityId ∧ observation.sourceId = sourceId

/-- No other Source's Observation is on an Activity that carries the Source. -/
def Unmixed (state : GraphState) (sourceId : Nat) : Prop :=
  ∀ first ∈ state.observations, ∀ second ∈ state.observations,
    first.activityId = second.activityId → first.sourceId = sourceId →
      second.sourceId = sourceId

theorem mem_observationsOf {state : GraphState} {activityId : Nat} {observation : Observation} :
    observation ∈ state.observationsOf activityId ↔
      observation ∈ state.observations ∧ observation.activityId = activityId := by
  rw [observationsOf, List.mem_filter, decide_eq_true_eq]

theorem linkVisible_iff {state : GraphState} {caller activityId : Nat} :
    state.linkVisible context caller activityId = true ↔
      ∀ observation ∈ state.observations, observation.activityId = activityId →
        seesSource context caller observation.sourceId = true := by
  rw [linkVisible, List.all_eq_true]
  constructor
  · intro all observation member same
    exact all observation (mem_observationsOf.mpr ⟨member, same⟩)
  · intro all observation member
    obtain ⟨member, same⟩ := mem_observationsOf.mp member
    exact all observation member same

theorem mem_sourcesSeen {state : GraphState} {caller activityId other : Nat} :
    other ∈ state.sourcesSeen context caller activityId ↔
      state.Carries other activityId ∧ seesSource context caller other = true := by
  rw [sourcesSeen, List.mem_eraseDups, List.mem_filter, List.mem_map]
  constructor
  · intro found
    obtain ⟨⟨observation, member, same⟩, sees⟩ := found
    obtain ⟨member, here⟩ := mem_observationsOf.mp member
    exact ⟨⟨observation, member, here, same⟩, sees⟩
  · intro found
    obtain ⟨⟨observation, member, here, same⟩, sees⟩ := found
    exact ⟨⟨observation, mem_observationsOf.mpr ⟨member, here⟩, same⟩, sees⟩

theorem eraseDups_eq_singleton {values : List Nat} {value : Nat} (present : value ∈ values)
    (all : ∀ other ∈ values, other = value) : values.eraseDups = [value] := by
  cases values with
  | nil => cases present
  | cons first rest =>
      have same := all first List.mem_cons_self
      have none : rest.filter (fun other => !other == first) = [] := by
        apply List.filter_eq_nil_iff.mpr
        intro other member
        rw [all other (List.mem_cons_of_mem _ member), same, beq_self_eq_true]
        exact Bool.false_ne_true
      rw [List.eraseDups_cons, none, same]
      rfl

/-- The origin of what is on an Activity of the Source, for whoever sees the Source. -/
theorem origin_of_carries {state : GraphState} (unmixed : state.Unmixed sourceId)
    {caller activityId assertedBy : Nat} (carries : state.Carries sourceId activityId)
    (sees : seesSource context caller sourceId = true) :
    state.resolveFactOrigin context caller activityId assertedBy = .source sourceId := by
  have seen : state.sourcesSeen context caller activityId = [sourceId] := by
    rw [sourcesSeen]
    apply eraseDups_eq_singleton
    · exact List.mem_eraseDups.mp (mem_sourcesSeen.mpr ⟨carries, sees⟩)
    · intro other member
      obtain ⟨⟨observation, present, here, same⟩, _⟩ :=
        mem_sourcesSeen.mp (List.mem_eraseDups.mpr member)
      obtain ⟨own, ownPresent, ownHere, ownSame⟩ := carries
      rw [← same]
      exact unmixed own ownPresent observation present (ownHere.trans here.symm) ownSame
  rw [resolveFactOrigin, seen]

theorem carries_of_origin {state : GraphState} {caller activityId assertedBy other : Nat}
    (origin : state.resolveFactOrigin context caller activityId assertedBy = .source other) :
    state.Carries other activityId := by
  rw [resolveFactOrigin] at origin
  split at origin
  next only seen =>
    have same : only = other := FactOrigin.source.inj origin
    have member : other ∈ state.sourcesSeen context caller activityId := by
      rw [seen, same]
      exact List.mem_singleton.mpr rfl
    exact (mem_sourcesSeen.mp member).1
  next => cases origin

theorem sees_of_visible {state : GraphState} {caller activityId : Nat}
    (visible : state.linkVisible context caller activityId = true)
    (carries : state.Carries sourceId activityId) :
    seesSource context caller sourceId = true := by
  obtain ⟨observation, present, here, same⟩ := carries
  rw [← same]
  exact linkVisible_iff.mp visible observation present here

/-! ### What an assertion does -/

theorem mem_findActive {state : GraphState} {identity : LinkIdentity} {fact : Fact} :
    fact ∈ state.findActive identity ↔
      fact ∈ state.facts ∧ fact.active = true ∧ fact.identity = identity := by
  rw [findActive, List.mem_filter, List.mem_reverse, Bool.and_eq_true, decide_eq_true_eq]

/-- An active Fact of the identity with the writer's origin. -/
structure OwnFact (context : GraphContext) (state : GraphState) (caller : Nat)
    (input : AssertFactInput) (own : Fact) : Prop where
  member : own ∈ state.facts
  active : own.active = true
  identity : own.identity = input.identity
  origin : state.originOf context caller own =
    state.resolveFactOrigin context caller input.activityId caller

def NoOwnFact (context : GraphContext) (state : GraphState) (caller : Nat)
    (input : AssertFactInput) : Prop :=
  ∀ fact, ¬ OwnFact context state caller input fact

def inserted (state : GraphState) (caller : Nat) (input : AssertFactInput)
    (supersedesId : Option Nat) : GraphState :=
  { state with facts := state.facts ++ [state.newFact caller input supersedesId] }

/-- Every way an assertion of a scrubbed input succeeds. -/
inductive Asserted (context : GraphContext) (state : GraphState) (caller : Nat)
    (input : AssertFactInput) : GraphState → Nat → Bool → Prop
  | touched (own : Fact) (found : OwnFact context state caller input own)
      (equal : factContentEquals own input = true) (observationId : Nat)
      (names : input.observationId = some observationId) :
      Asserted context state caller input
        (state.touchFactObservation context caller own observationId) own.id true
  | found (own : Fact) (found : OwnFact context state caller input own)
      (equal : factContentEquals own input = true) (unnamed : input.observationId = none) :
      Asserted context state caller input state own.id true
  | superseded (own : Fact) (found : OwnFact context state caller input own)
      (visibleOwn : state.linkVisible context caller own.activityId = true)
      (visible : state.linkVisible context caller input.activityId = true) :
      Asserted context state caller input
        ((state.inserted caller input (some own.id)).updateFact own.id fun fact =>
          { fact with supersededAt := some state.clock })
        state.facts.length true
  | inserted (noOwn : NoOwnFact context state caller input)
      (visible : state.linkVisible context caller input.activityId = true) :
      Asserted context state caller input (state.inserted caller input none)
        state.facts.length true
  | corroborated (newest : Fact) (member : newest ∈ state.facts)
      (active : newest.active = true) (equal : factContentEquals newest input = true)
      (noOwn : NoOwnFact context state caller input) :
      Asserted context state caller input state newest.id false

theorem insertFact_some {state next : GraphState} {caller factId : Nat} {input : AssertFactInput}
    {supersedesId : Option Nat}
    (wrote : state.insertFact context caller input supersedesId = some (next, factId)) :
    state.linkVisible context caller input.activityId = true ∧
      next = state.inserted caller input supersedesId ∧ factId = state.facts.length := by
  rw [insertFact] at wrote
  split at wrote
  next visible =>
    obtain ⟨same, named⟩ := Prod.mk.inj (Option.some.inj wrote)
    exact ⟨visible, same.symm, named.symm⟩
  next => cases wrote

theorem insert_asserted {state next : GraphState} {caller factId : Nat} {own : Bool}
    {input : AssertFactInput} (noOwn : NoOwnFact context state caller input)
    (wrote : ((state.insertFact context caller input none).map fun answer =>
      (answer.1, answer.2, true)) = some (next, factId, own)) :
    Asserted context state caller input next factId own := by
  obtain ⟨answer, wrote, same⟩ := Option.map_eq_some_iff.mp wrote
  obtain ⟨visible, isNext, isId⟩ := insertFact_some wrote
  obtain ⟨sameNext, same⟩ := Prod.mk.inj same
  obtain ⟨sameId, sameOwn⟩ := Prod.mk.inj same
  rw [← sameNext, ← sameId, ← sameOwn, isNext, isId]
  exact Asserted.inserted noOwn visible

theorem assertFact_asserted {state next : GraphState} {caller factId : Nat} {own : Bool}
    {rawInput : AssertFactInput}
    (asserted : state.assertFact context caller rawInput = some (next, factId, own)) :
    Asserted context state caller (withScrubbedProperties context rawInput) next factId own := by
  rw [assertFact] at asserted
  cases search : (state.findActive (withScrubbedProperties context rawInput).identity).find?
      fun fact => decide (state.originOf context caller fact =
        state.resolveFactOrigin context caller
          (withScrubbedProperties context rawInput).activityId caller) with
  | some prior =>
      simp only [search] at asserted
      have member := mem_findActive.mp (List.mem_of_find?_eq_some search)
      have origin := List.find?_some search
      have found : OwnFact context state caller (withScrubbedProperties context rawInput) prior :=
        ⟨member.1, member.2.1, member.2.2, of_decide_eq_true origin⟩
      split at asserted
      next equal =>
        split at asserted
        next observationId names =>
          obtain ⟨sameNext, same⟩ := Prod.mk.inj (Option.some.inj asserted)
          obtain ⟨sameId, sameOwn⟩ := Prod.mk.inj same
          rw [← sameNext, ← sameId, ← sameOwn]
          exact Asserted.touched prior found equal observationId names
        next unnamed =>
          obtain ⟨sameNext, same⟩ := Prod.mk.inj (Option.some.inj asserted)
          obtain ⟨sameId, sameOwn⟩ := Prod.mk.inj same
          rw [← sameNext, ← sameId, ← sameOwn]
          exact Asserted.found prior found equal unnamed
      next =>
        obtain ⟨answer, wrote, same⟩ := Option.map_eq_some_iff.mp asserted
        rw [supersedeValidatedFact] at wrote
        split at wrote
        next visibleOwn =>
          obtain ⟨row, wrote, marked⟩ := Option.map_eq_some_iff.mp wrote
          obtain ⟨visible, isNext, isId⟩ := insertFact_some wrote
          obtain ⟨sameNext, same⟩ := Prod.mk.inj same
          obtain ⟨sameId, sameOwn⟩ := Prod.mk.inj same
          rw [← sameNext, ← sameId, ← sameOwn, ← marked, isNext, isId]
          exact Asserted.superseded prior found visibleOwn visible
        next => cases wrote
  | none =>
      have noOwn : NoOwnFact context state caller (withScrubbedProperties context rawInput) := by
        intro fact own
        have absent := List.find?_eq_none.mp search fact
          (mem_findActive.mpr ⟨own.member, own.active, own.identity⟩)
        exact absent (decide_eq_true own.origin)
      simp only [search] at asserted
      split at asserted
      next => exact insert_asserted noOwn asserted
      next newest older listed =>
        split at asserted
        next agrees =>
          obtain ⟨sameNext, same⟩ := Prod.mk.inj (Option.some.inj asserted)
          obtain ⟨sameId, sameOwn⟩ := Prod.mk.inj same
          have member := mem_findActive.mp (listed ▸ List.mem_cons_self)
          rw [← sameNext, ← sameId, ← sameOwn]
          exact Asserted.corroborated newest member.1 member.2.1
            (Bool.and_eq_true_iff.mp agrees).1 noOwn
        next => exact insert_asserted noOwn asserted

/-! ### The rows of a Source -/

/-- A row of the Source: its Activity carries the Source. -/
def OwnRow (state : GraphState) (sourceId : Nat) (fact : Fact) : Prop :=
  fact ∈ state.facts ∧ state.Carries sourceId fact.activityId

def SameRows (sourceId : Nat) (state next : GraphState) : Prop :=
  ∀ fact, next.OwnRow sourceId fact ↔ state.OwnRow sourceId fact

/-- Rows stand at the place of their id. -/
def Numbered {Row : Type} (idOf : Row → Nat) (rows : List Row) : Prop :=
  ∀ (place : Nat) (row : Row), rows[place]? = some row → idOf row = place

/-- The content of a row, which no later write changes. -/
def SameContent (old new : Fact) : Prop :=
  new.id = old.id ∧ new.identity = old.identity ∧ new.properties = old.properties ∧
    new.validUntil = old.validUntil ∧ new.activityId = old.activityId

theorem SameContent.refl (fact : Fact) : SameContent fact fact := ⟨rfl, rfl, rfl, rfl, rfl⟩

theorem SameContent.trans {first second third : Fact} (earlier : SameContent first second)
    (later : SameContent second third) : SameContent first third :=
  ⟨later.1.trans earlier.1, later.2.1.trans earlier.2.1, later.2.2.1.trans earlier.2.2.1,
    later.2.2.2.1.trans earlier.2.2.2.1, later.2.2.2.2.trans earlier.2.2.2.2⟩

/-- Every row stays, with its content. -/
def Keeps (state next : GraphState) : Prop :=
  ∀ fact ∈ state.facts, ∃ kept ∈ next.facts, SameContent fact kept

theorem Keeps.refl (state : GraphState) : state.Keeps state :=
  fun fact member => ⟨fact, member, SameContent.refl fact⟩

theorem Keeps.trans {first second third : GraphState} (earlier : first.Keeps second)
    (later : second.Keeps third) : first.Keeps third := by
  intro fact member
  obtain ⟨kept, present, same⟩ := earlier fact member
  obtain ⟨last, lastPresent, lastSame⟩ := later kept present
  exact ⟨last, lastPresent, same.trans lastSame⟩

theorem identity_of_factContentEquals {fact : Fact} {input : AssertFactInput}
    (equal : factContentEquals fact input = true) : fact.identity = input.identity := by
  rw [factContentEquals, Bool.and_eq_true, decide_eq_true_eq] at equal
  exact equal.1

theorem factContentEquals_congr {old new : Fact} (same : SameContent old new)
    (input : AssertFactInput) : factContentEquals new input = factContentEquals old input := by
  obtain ⟨_, identity, properties, validUntil, _⟩ := same
  rw [factContentEquals, factContentEquals, identity, properties, validUntil]

theorem Numbered.eq {Row : Type} {idOf : Row → Nat} {rows : List Row}
    (numbered : Numbered idOf rows) {first second : Row} (firstMember : first ∈ rows)
    (secondMember : second ∈ rows) (same : idOf first = idOf second) : first = second := by
  obtain ⟨place, found⟩ := List.mem_iff_getElem?.mp firstMember
  obtain ⟨other, otherFound⟩ := List.mem_iff_getElem?.mp secondMember
  have samePlace : place = other :=
    (numbered place first found).symm.trans (same.trans (numbered other second otherFound))
  rw [samePlace, otherFound] at found
  exact (Option.some.inj found).symm

theorem Numbered.lt {Row : Type} {idOf : Row → Nat} {rows : List Row}
    (numbered : Numbered idOf rows) {row : Row} (member : row ∈ rows) :
    idOf row < rows.length := by
  obtain ⟨place, found⟩ := List.mem_iff_getElem?.mp member
  rw [numbered place row found]
  exact (List.getElem?_eq_some_iff.mp found).1

theorem Numbered.map {Row : Type} {idOf : Row → Nat} {rows : List Row}
    (numbered : Numbered idOf rows) {change : Row → Row}
    (keepsId : ∀ row, idOf (change row) = idOf row) : Numbered idOf (rows.map change) := by
  intro place row found
  rw [List.getElem?_map] at found
  obtain ⟨old, present, same⟩ := Option.map_eq_some_iff.mp found
  rw [← same, keepsId]
  exact numbered place old present

theorem Numbered.append {Row : Type} {idOf : Row → Nat} {rows : List Row}
    (numbered : Numbered idOf rows) {row : Row} (named : idOf row = rows.length) :
    Numbered idOf (rows ++ [row]) := by
  intro place other found
  by_cases earlier : place < rows.length
  · rw [List.getElem?_append_left earlier] at found
    exact numbered place other found
  · rw [List.getElem?_append_right (Nat.not_lt.mp earlier)] at found
    obtain ⟨bound, same⟩ := List.getElem?_eq_some_iff.mp found
    have isLast : place = rows.length := by
      rw [List.length_singleton] at bound
      omega
    rw [List.getElem_singleton] at same
    rw [← same, named, isLast]

/-- What an update does to the rows: the one of the id is changed, the others stay. -/
theorem mem_updateFact {state : GraphState} (numbered : Numbered Fact.id state.facts) {own fact : Fact}
    (member : own ∈ state.facts) {change : Fact → Fact} :
    fact ∈ (state.updateFact own.id change).facts ↔
      fact = change own ∨ (fact ∈ state.facts ∧ fact.id ≠ own.id) := by
  rw [updateFact, List.mem_map]
  constructor
  · intro found
    obtain ⟨old, present, same⟩ := found
    by_cases isOwn : old.id = own.id
    · rw [if_pos isOwn, numbered.eq present member isOwn] at same
      exact Or.inl same.symm
    · rw [if_neg isOwn] at same
      exact Or.inr (same ▸ ⟨present, isOwn⟩)
  · intro found
    cases found with
    | inl changed => exact ⟨own, member, by rw [if_pos rfl, changed]⟩
    | inr kept => exact ⟨fact, kept.1, if_neg kept.2⟩

theorem keeps_updateFact {state : GraphState} {factId : Nat} {change : Fact → Fact}
    (keeps : ∀ fact, SameContent fact (change fact)) :
    state.Keeps (state.updateFact factId change) := by
  intro fact member
  refine ⟨_, List.mem_map_of_mem member, ?_⟩
  by_cases isOwn : fact.id = factId
  · rw [if_pos isOwn]
    exact keeps fact
  · rw [if_neg isOwn]
    exact SameContent.refl fact

theorem keeps_inserted {state : GraphState} {caller : Nat} {input : AssertFactInput}
    {supersedesId : Option Nat} : state.Keeps (state.inserted caller input supersedesId) :=
  fun fact member => ⟨fact, List.mem_append_left _ member, SameContent.refl fact⟩

theorem Asserted.observations {state next : GraphState} {caller factId : Nat} {own : Bool}
    {input : AssertFactInput} (asserted : Asserted context state caller input next factId own) :
    next.observations = state.observations ∧ next.activities = state.activities ∧
      next.clock = state.clock ∧ next.answers = state.answers := by
  cases asserted with
  | touched own _ _ observationId _ =>
      rw [touchFactObservation]
      split
      next => exact ⟨rfl, rfl, rfl, rfl⟩
      next => exact ⟨rfl, rfl, rfl, rfl⟩
  | found => exact ⟨rfl, rfl, rfl, rfl⟩
  | superseded => exact ⟨rfl, rfl, rfl, rfl⟩
  | inserted => exact ⟨rfl, rfl, rfl, rfl⟩
  | corroborated => exact ⟨rfl, rfl, rfl, rfl⟩

theorem Asserted.keeps {state next : GraphState} {caller factId : Nat} {own : Bool}
    {input : AssertFactInput} (asserted : Asserted context state caller input next factId own) :
    state.Keeps next := by
  cases asserted with
  | touched own _ _ observationId _ =>
      rw [touchFactObservation]
      split
      next => exact keeps_updateFact fun fact => SameContent.refl fact
      next => exact Keeps.refl state
  | found => exact Keeps.refl state
  | superseded =>
      exact keeps_inserted.trans (keeps_updateFact fun fact => SameContent.refl fact)
  | inserted => exact keeps_inserted
  | corroborated => exact Keeps.refl state

theorem numbered_inserted {state : GraphState} (numbered : Numbered Fact.id state.facts) (caller : Nat)
    (input : AssertFactInput) (supersedesId : Option Nat) :
    Numbered Fact.id (state.inserted caller input supersedesId).facts :=
  numbered.append rfl

theorem Asserted.numbered {state next : GraphState} {caller factId : Nat} {own : Bool}
    {input : AssertFactInput} (asserted : Asserted context state caller input next factId own)
    (numbered : Numbered Fact.id state.facts) : Numbered Fact.id next.facts := by
  cases asserted with
  | touched own _ _ observationId _ =>
      rw [touchFactObservation]
      split
      next => exact numbered.map fun fact => by split <;> rfl
      next => exact numbered
  | found => exact numbered
  | superseded =>
      exact (numbered_inserted numbered _ _ _).map fun fact => by split <;> rfl
  | inserted => exact numbered_inserted numbered _ _ _
  | corroborated => exact numbered

/-! ### Who writes the rows of a Source -/

theorem SameRows.refl (state : GraphState) : SameRows sourceId state state := fun _ => Iff.rfl

theorem SameRows.trans {first second third : GraphState}
    (earlier : SameRows sourceId first second) (later : SameRows sourceId second third) :
    SameRows sourceId first third :=
  fun fact => (later fact).trans (earlier fact)

theorem ownRow_inserted {state : GraphState} {caller : Nat} {input : AssertFactInput}
    {supersedesId : Option Nat} {fact : Fact} :
    (state.inserted caller input supersedesId).OwnRow sourceId fact ↔
      state.OwnRow sourceId fact ∨
        (fact = state.newFact caller input supersedesId ∧
          state.Carries sourceId input.activityId) := by
  constructor
  · intro row
    cases List.mem_append.mp row.1 with
    | inl kept => exact Or.inl ⟨kept, row.2⟩
    | inr new =>
        have isNew := List.mem_singleton.mp new
        have onActivity : state.Carries sourceId fact.activityId := row.2
        rw [isNew] at onActivity
        exact Or.inr ⟨isNew, onActivity⟩
  · intro row
    cases row with
    | inl kept => exact ⟨List.mem_append_left _ kept.1, kept.2⟩
    | inr new =>
        rw [new.1]
        exact ⟨List.mem_append_right _ (List.mem_singleton.mpr rfl), new.2⟩

theorem ownRow_updateFact {state : GraphState} (numbered : Numbered Fact.id state.facts)
    {own fact : Fact} (member : own ∈ state.facts) {change : Fact → Fact}
    (keepsActivity : (change own).activityId = own.activityId) :
    (state.updateFact own.id change).OwnRow sourceId fact ↔
      (fact = change own ∧ state.Carries sourceId own.activityId) ∨
        (state.OwnRow sourceId fact ∧ fact.id ≠ own.id) := by
  constructor
  · intro row
    cases (mem_updateFact numbered member).mp row.1 with
    | inl changed =>
        have onActivity : state.Carries sourceId fact.activityId := row.2
        rw [changed, keepsActivity] at onActivity
        exact Or.inl ⟨changed, onActivity⟩
    | inr kept => exact Or.inr ⟨⟨kept.1, row.2⟩, kept.2⟩
  · intro row
    cases row with
    | inl changed =>
        have onActivity : state.Carries sourceId fact.activityId := by
          rw [changed.1, keepsActivity]
          exact changed.2
        exact ⟨(mem_updateFact numbered member).mpr (Or.inl changed.1), onActivity⟩
    | inr kept =>
        exact ⟨(mem_updateFact numbered member).mpr (Or.inr ⟨kept.1.1, kept.2⟩), kept.1.2⟩

theorem sameRows_inserted {state : GraphState} {caller : Nat} {input : AssertFactInput}
    {supersedesId : Option Nat} (foreign : ¬ state.Carries sourceId input.activityId) :
    SameRows sourceId state (state.inserted caller input supersedesId) := by
  intro fact
  rw [ownRow_inserted]
  constructor
  · intro row
    exact row.resolve_right fun new => foreign new.2
  · exact Or.inl

theorem sameRows_updateFact {state : GraphState} (numbered : Numbered Fact.id state.facts)
    {own : Fact} (member : own ∈ state.facts)
    (foreign : ¬ state.Carries sourceId own.activityId) {change : Fact → Fact}
    (keepsActivity : (change own).activityId = own.activityId) :
    SameRows sourceId state (state.updateFact own.id change) := by
  intro fact
  rw [ownRow_updateFact numbered member keepsActivity]
  constructor
  · intro row
    exact (row.resolve_left fun changed => foreign changed.2).1
  · intro row
    refine Or.inr ⟨row, ?_⟩
    intro same
    rw [numbered.eq row.1 member same] at row
    exact foreign row.2

/-- A row of the writer's origin that the writer sees belongs to the Source with the writer. -/
theorem OwnFact.carries {state : GraphState} (unmixed : state.Unmixed sourceId) {caller : Nat}
    {input : AssertFactInput} {own : Fact} (found : OwnFact context state caller input own)
    (visible : state.linkVisible context caller own.activityId = true)
    (carries : state.Carries sourceId own.activityId) :
    state.Carries sourceId input.activityId ∧ seesSource context caller sourceId = true := by
  have sees := sees_of_visible visible carries
  have origin := found.origin
  rw [originOf, origin_of_carries unmixed carries sees] at origin
  exact ⟨carries_of_origin origin.symm, sees⟩

/-- Whoever writes elsewhere, or does not see the Source, leaves its rows as they are. -/
theorem Asserted.foreign {state next : GraphState} {caller factId : Nat} {own : Bool}
    {input : AssertFactInput} (asserted : Asserted context state caller input next factId own)
    (numbered : Numbered Fact.id state.facts) (unmixed : state.Unmixed sourceId)
    (apart : ¬ (state.Carries sourceId input.activityId ∧
      seesSource context caller sourceId = true)) :
    SameRows sourceId state next := by
  have elsewhere : state.linkVisible context caller input.activityId = true →
      ¬ state.Carries sourceId input.activityId :=
    fun visible carries => apart ⟨carries, sees_of_visible visible carries⟩
  have foreignOwn {own : Fact} (found : OwnFact context state caller input own)
      (visible : state.linkVisible context caller own.activityId = true) :
      ¬ state.Carries sourceId own.activityId :=
    fun carries => apart (found.carries unmixed visible carries)
  cases asserted with
  | touched own found _ observationId _ =>
      rw [touchFactObservation]
      split
      next visible =>
        exact sameRows_updateFact numbered found.member (foreignOwn found visible) rfl
      next => exact SameRows.refl state
  | found => exact SameRows.refl state
  | superseded own found visibleOwn visible =>
      have first : SameRows sourceId state (state.inserted caller input (some own.id)) :=
        sameRows_inserted (elsewhere visible)
      apply first.trans
      exact sameRows_updateFact (numbered_inserted numbered _ _ _)
        (List.mem_append_left _ found.member) (foreignOwn found visibleOwn) rfl
  | inserted _ visible => exact sameRows_inserted (elsewhere visible)
  | corroborated => exact SameRows.refl state

/-- No identity has two active rows of the Source. -/
def UniqueActive (state : GraphState) (sourceId : Nat) : Prop :=
  ∀ first second, state.OwnRow sourceId first → state.OwnRow sourceId second →
    first.active = true → second.active = true → first.identity = second.identity →
      first = second

/-- What the Source's own assertion leaves of its rows: those of other identities, and of the
asserted identity at most the answered one active. -/
structure OwnAnswer (sourceId : Nat) (state next : GraphState) (input : AssertFactInput)
    (factId : Nat) (own : Bool) : Prop where
  others : ∀ fact, fact.identity ≠ input.identity →
    (next.OwnRow sourceId fact ↔ state.OwnRow sourceId fact)
  recent : ∀ fact, next.OwnRow sourceId fact → fact.active = true →
    fact.identity = input.identity →
      own = true ∧ fact.id = factId ∧
        (input.observationId.isSome = true → fact.lastSeen = state.clock)
  answered : own = true → ∃ fact, next.OwnRow sourceId fact ∧ fact.active = true ∧
    fact.identity = input.identity ∧ fact.id = factId
  agreed : own = false → ∀ fact, next.OwnRow sourceId fact → fact.id ≠ factId

theorem lastSeen_newFact {state : GraphState} {caller : Nat} {input : AssertFactInput}
    {supersedesId : Option Nat} :
    (state.newFact caller input supersedesId).lastSeen = state.clock := by
  rw [Fact.lastSeen, newFact]
  cases input.observationId with
  | none => rfl
  | some _ => rfl

theorem visible_of_carries {state : GraphState} (unmixed : state.Unmixed sourceId)
    {caller activityId : Nat} (carries : state.Carries sourceId activityId)
    (sees : seesSource context caller sourceId = true) :
    state.linkVisible context caller activityId = true := by
  apply linkVisible_iff.mpr
  intro observation present here
  obtain ⟨own, ownPresent, ownHere, ownSame⟩ := carries
  rw [unmixed own ownPresent observation present (ownHere.trans here.symm) ownSame]
  exact sees

section ownWriter
variable {state : GraphState} {caller : Nat} {input : AssertFactInput}
  (numbered : Numbered Fact.id state.facts) (unmixed : state.Unmixed sourceId)
  (unique : state.UniqueActive sourceId)
  (carries : state.Carries sourceId input.activityId)
  (sees : seesSource context caller sourceId = true)
include unmixed carries sees

/-- The rows of the writer's origin are those of the Source. -/
theorem ownFact_iff {fact : Fact} :
    OwnFact context state caller input fact ↔
      state.OwnRow sourceId fact ∧ fact.active = true ∧ fact.identity = input.identity := by
  have origin : state.resolveFactOrigin context caller input.activityId caller =
      .source sourceId := origin_of_carries unmixed carries sees
  constructor
  · intro found
    have sameOrigin := found.origin
    rw [origin] at sameOrigin
    exact ⟨⟨found.member, carries_of_origin sameOrigin⟩, found.active, found.identity⟩
  · intro found
    refine ⟨found.1.1, found.2.1, found.2.2, ?_⟩
    rw [origin]
    exact origin_of_carries unmixed found.1.2 sees

include numbered unique in
theorem Asserted.ownAnswer {next : GraphState} {factId : Nat} {own : Bool}
    (asserted : Asserted context state caller input next factId own) :
    OwnAnswer sourceId state next input factId own := by
  have isOwn {fact : Fact} (row : state.OwnRow sourceId fact) (active : fact.active = true)
      (identity : fact.identity = input.identity) : OwnFact context state caller input fact :=
    (ownFact_iff unmixed carries sees).mpr ⟨row, active, identity⟩
  have only {prior fact : Fact} (found : OwnFact context state caller input prior)
      (row : state.OwnRow sourceId fact) (active : fact.active = true)
      (identity : fact.identity = input.identity) : fact = prior := by
    have priorRow := ((ownFact_iff unmixed carries sees).mp found).1
    exact unique fact prior row priorRow active found.active (identity.trans found.identity.symm)
  have isOther {prior fact : Fact} (found : OwnFact context state caller input prior)
      (row : state.OwnRow sourceId fact) (different : fact.identity ≠ input.identity) :
      fact.id ≠ prior.id := by
    intro same
    exact different (numbered.eq row.1 found.member same ▸ found.identity)
  cases asserted with
  | touched prior found equal observationId names =>
      have priorRow := ((ownFact_iff unmixed carries sees).mp found).1
      have visible := visible_of_carries unmixed priorRow.2 sees
      rw [touchFactObservation, if_pos visible]
      constructor
      · intro fact different
        rw [ownRow_updateFact numbered found.member rfl]
        constructor
        · intro row
          cases row with
          | inl changed => exact absurd (changed.1 ▸ found.identity) different
          | inr kept => exact kept.1
        · intro row
          exact Or.inr ⟨row, isOther found row different⟩
      · intro fact row active identity
        rw [ownRow_updateFact numbered found.member rfl] at row
        cases row with
        | inl changed =>
            rw [changed.1]
            exact ⟨rfl, rfl, fun _ => rfl⟩
        | inr kept =>
            exact absurd (congrArg Fact.id (only found kept.1 active identity)) kept.2
      · intro _
        refine ⟨{ prior with
          lastObservationId := some observationId
          lastObservedAt := some state.clock }, ?_, found.active, found.identity, rfl⟩
        exact (ownRow_updateFact numbered found.member rfl).mpr (Or.inl ⟨rfl, priorRow.2⟩)
      · exact fun claimed => (nomatch claimed)
  | found prior found equal unnamed =>
      have priorRow := ((ownFact_iff unmixed carries sees).mp found).1
      constructor
      · exact fun _ _ => Iff.rfl
      · intro fact row active identity
        refine ⟨rfl, congrArg Fact.id (only found row active identity), ?_⟩
        intro named
        rw [unnamed] at named
        cases named
      · exact fun _ => ⟨_, priorRow, found.active, found.identity, rfl⟩
      · exact fun claimed => (nomatch claimed)
  | superseded prior found visibleOwn visible =>
      have numberedNow := numbered_inserted numbered caller input (some prior.id)
      have memberNow : prior ∈ (state.inserted caller input (some prior.id)).facts :=
        List.mem_append_left _ found.member
      have other : state.facts.length ≠ prior.id := Nat.ne_of_gt (numbered.lt found.member)
      constructor
      · intro fact different
        rw [ownRow_updateFact numberedNow memberNow rfl, ownRow_inserted]
        constructor
        · intro row
          cases row with
          | inl changed => exact absurd (changed.1 ▸ found.identity) different
          | inr kept =>
              cases kept.1 with
              | inl old => exact old
              | inr new => exact absurd (new.1 ▸ rfl) different
        · intro row
          exact Or.inr ⟨Or.inl row, isOther found row different⟩
      · intro fact row active identity
        rw [ownRow_updateFact numberedNow memberNow rfl, ownRow_inserted] at row
        cases row with
        | inl changed =>
            rw [changed.1, Fact.active] at active
            cases active
        | inr kept =>
            cases kept.1 with
            | inl old => exact absurd (congrArg Fact.id (only found old active identity)) kept.2
            | inr new =>
                rw [new.1]
                exact ⟨rfl, rfl, fun _ => lastSeen_newFact⟩
      · intro _
        refine ⟨state.newFact caller input (some prior.id), ?_, rfl, rfl, rfl⟩
        rw [ownRow_updateFact numberedNow memberNow rfl, ownRow_inserted]
        exact Or.inr ⟨Or.inr ⟨rfl, carries⟩, other⟩
      · exact fun claimed => (nomatch claimed)
  | inserted noOwn visible =>
      constructor
      · intro fact different
        rw [ownRow_inserted]
        constructor
        · intro row
          exact row.resolve_right fun new => different (new.1 ▸ rfl)
        · exact Or.inl
      · intro fact row active identity
        cases ownRow_inserted.mp row with
        | inl old => exact absurd (isOwn old active identity) (noOwn fact)
        | inr new =>
            rw [new.1]
            exact ⟨rfl, rfl, fun _ => lastSeen_newFact⟩
      · intro _
        exact ⟨_, ownRow_inserted.mpr (Or.inr ⟨rfl, carries⟩), rfl, rfl, rfl⟩
      · exact fun claimed => (nomatch claimed)
  | corroborated newest member active equal noOwn =>
      constructor
      · exact fun _ _ => Iff.rfl
      · intro fact row active identity
        exact absurd (isOwn row active identity) (noOwn fact)
      · exact fun claimed => (nomatch claimed)
      · intro _ fact row same
        have isNewest := numbered.eq row.1 member same
        rw [isNewest] at row
        exact noOwn newest (isOwn row active (identity_of_factContentEquals equal))

end ownWriter

/-! ### The Observations a row names -/

/-- The latest Observation a row names is of the Source exactly when the row is. -/
def Named (state : GraphState) (sourceId : Nat) : Prop :=
  ∀ fact ∈ state.facts, ∀ observationId,
    fact.lastObservationId.or fact.observationId = some observationId →
      ∃ observation ∈ state.observations, observation.id = observationId ∧
        (observation.sourceId = sourceId ↔ state.Carries sourceId fact.activityId)

/-- The Observation an input names is on its Activity, of a Source the writer sees. -/
def Anchored (context : GraphContext) (state : GraphState) (caller : Nat)
    (input : AssertFactInput) : Prop :=
  ∀ observationId, input.observationId = some observationId →
    ∃ observation ∈ state.observations, observation.id = observationId ∧
      observation.activityId = input.activityId ∧
        seesSource context caller observation.sourceId = true

theorem Unmixed.source_iff {state : GraphState} (unmixed : state.Unmixed sourceId)
    {observation : Observation} (present : observation ∈ state.observations) :
    observation.sourceId = sourceId ↔ state.Carries sourceId observation.activityId := by
  constructor
  · intro same
    exact ⟨observation, present, rfl, same⟩
  · intro carries
    obtain ⟨own, ownPresent, here, same⟩ := carries
    exact unmixed own ownPresent observation present here same

theorem named_inserted {state : GraphState} (unmixed : state.Unmixed sourceId)
    (named : state.Named sourceId) {caller : Nat} {input : AssertFactInput}
    (anchored : Anchored context state caller input) (supersedesId : Option Nat) :
    (state.inserted caller input supersedesId).Named sourceId := by
  intro fact member observationId names
  cases List.mem_append.mp member with
  | inl kept => exact named fact kept observationId names
  | inr new =>
      have isNew := List.mem_singleton.mp new
      have inputNames : input.observationId = some observationId := by
        rw [isNew] at names
        change input.observationId.or input.observationId = some observationId at names
        rw [Option.or_self] at names
        exact names
      obtain ⟨observation, present, isId, here, _⟩ := anchored observationId inputNames
      refine ⟨observation, present, isId, ?_⟩
      rw [isNew]
      change observation.sourceId = sourceId ↔ state.Carries sourceId input.activityId
      rw [← here]
      exact unmixed.source_iff present

theorem Asserted.named {state next : GraphState} {caller factId : Nat} {own : Bool}
    {input : AssertFactInput} (asserted : Asserted context state caller input next factId own)
    (numbered : Numbered Fact.id state.facts) (unmixed : state.Unmixed sourceId)
    (named : state.Named sourceId) (anchored : Anchored context state caller input) :
    next.Named sourceId := by
  cases asserted with
  | touched prior found _ observationId names =>
      rw [touchFactObservation]
      split
      next visible =>
        intro fact member latest isLatest
        cases (mem_updateFact numbered found.member).mp member with
        | inr kept => exact named fact kept.1 latest isLatest
        | inl changed =>
            obtain ⟨observation, present, isId, here, sees⟩ := anchored observationId names
            have isLast : observationId = latest := by
              rw [changed] at isLatest
              exact Option.some.inj isLatest
            refine ⟨observation, present, isId.trans isLast, ?_⟩
            rw [changed]
            change observation.sourceId = sourceId ↔ state.Carries sourceId prior.activityId
            rw [unmixed.source_iff present, here]
            constructor
            · intro carries
              have isOwn : observation.sourceId = sourceId :=
                (unmixed.source_iff present).mpr (here ▸ carries)
              exact ((ownFact_iff unmixed carries (isOwn ▸ sees)).mp found).1.2
            · intro carries
              exact (found.carries unmixed visible carries).1
      next => exact named
  | found => exact named
  | superseded prior found visibleOwn visible =>
      have namedNow := named_inserted unmixed named anchored (some prior.id)
      intro fact member latest isLatest
      have memberNow : prior ∈ (state.inserted caller input (some prior.id)).facts :=
        List.mem_append_left _ found.member
      cases (mem_updateFact (numbered_inserted numbered _ _ _) memberNow).mp member with
      | inr kept => exact namedNow fact kept.1 latest isLatest
      | inl changed =>
          rw [changed] at isLatest ⊢
          exact namedNow prior memberNow latest isLatest
  | inserted noOwn visible => exact named_inserted unmixed named anchored none
  | corroborated => exact named

/-- What the window asks of a row is that it is of the Source. -/
theorem fedBy_iff {state : GraphState} (numbered : Numbered Observation.id state.observations)
    (named : state.Named sourceId) {fact : Fact} (member : fact ∈ state.facts) :
    state.fedBy sourceId fact = true ↔ state.Carries sourceId fact.activityId := by
  rw [fedBy, List.any_eq_true]
  constructor
  · intro fed
    obtain ⟨observation, present, test⟩ := fed
    rw [Bool.and_eq_true, decide_eq_true_eq, Bool.or_eq_true, decide_eq_true_eq] at test
    cases test.2 with
    | inl latest =>
        obtain ⟨known, knownPresent, isId, iff⟩ := named fact member observation.id latest.symm
        have same := numbered.eq knownPresent present isId
        rw [same] at iff
        exact iff.mp test.1
    | inr unnamed =>
        rw [Bool.and_eq_true, decide_eq_true_eq] at unnamed
        exact ⟨observation, present, unnamed.2, test.1⟩
  · intro carries
    cases latest : fact.lastObservationId.or fact.observationId with
    | some observationId =>
        obtain ⟨known, present, isId, iff⟩ := named fact member observationId latest
        refine ⟨known, present, ?_⟩
        rw [Bool.and_eq_true, decide_eq_true_eq, Bool.or_eq_true, decide_eq_true_eq]
        exact ⟨iff.mpr carries, Or.inl (congrArg some isId)⟩
    | none =>
        obtain ⟨observation, present, here, same⟩ := carries
        obtain ⟨noLast, noFirst⟩ := Option.or_eq_none_iff.mp latest
        refine ⟨observation, present, ?_⟩
        rw [Bool.and_eq_true, decide_eq_true_eq, Bool.or_eq_true, Bool.and_eq_true,
          decide_eq_true_eq, noLast, noFirst]
        exact ⟨same, Or.inr ⟨rfl, decide_eq_true here⟩⟩

/-- Another Source's window asks for none of its rows. -/
theorem not_fedBy {state : GraphState} (numbered : Numbered Observation.id state.observations)
    (unmixed : state.Unmixed sourceId) (named : state.Named sourceId) {fact : Fact}
    (member : fact ∈ state.facts) (carries : state.Carries sourceId fact.activityId)
    {other : Nat} (different : other ≠ sourceId) : state.fedBy other fact = false := by
  rw [fedBy, List.any_eq_false]
  intro observation present test
  rw [Bool.and_eq_true, decide_eq_true_eq, Bool.or_eq_true, decide_eq_true_eq] at test
  obtain ⟨isOther, latest | unnamed⟩ := test
  · obtain ⟨known, knownPresent, isId, iff⟩ := named fact member observation.id latest.symm
    have same := numbered.eq knownPresent present isId
    rw [same] at iff
    exact different (isOther.symm.trans (iff.mpr carries))
  · rw [Bool.and_eq_true, decide_eq_true_eq] at unnamed
    have isOwn := (unmixed.source_iff present).mpr (unnamed.2 ▸ carries)
    exact different (isOther.symm.trans isOwn)

/-- A Link of a submission is answered with a row of its content. -/
theorem Asserted.content {state next : GraphState} {caller factId : Nat} {own : Bool}
    {input : AssertFactInput} (asserted : Asserted context state caller input next factId own)
    (openEnded : input.validUntil = none) :
    ∃ fact ∈ next.facts, fact.id = factId ∧ factContentEquals fact input = true := by
  have fresh (supersedesId : Option Nat) :
      factContentEquals (state.newFact caller input supersedesId) input = true := by
    rw [factContentEquals, newFact, openEnded]
    simp only [decide_true, Option.isNone_none, Bool.and_self]
  have keeps := asserted.keeps
  cases asserted with
  | touched prior found equal =>
      obtain ⟨kept, present, same⟩ := keeps prior found.member
      exact ⟨kept, present, same.1, (factContentEquals_congr same input).trans equal⟩
  | found prior found equal => exact ⟨prior, found.member, rfl, equal⟩
  | superseded prior found =>
      have marked : (state.inserted caller input (some prior.id)).Keeps
          ((state.inserted caller input (some prior.id)).updateFact prior.id fun fact =>
            { fact with supersededAt := some state.clock }) :=
        keeps_updateFact fun fact => SameContent.refl fact
      obtain ⟨kept, present, same⟩ :=
        marked _ (List.mem_append_right _ (List.mem_singleton.mpr rfl))
      exact ⟨kept, present, same.1, (factContentEquals_congr same input).trans (fresh _)⟩
  | inserted =>
      exact ⟨_, List.mem_append_right _ (List.mem_singleton.mpr rfl), rfl, fresh none⟩
  | corroborated newest member active equal => exact ⟨newest, member, rfl, equal⟩

end GraphState
end NextTime.Graph
