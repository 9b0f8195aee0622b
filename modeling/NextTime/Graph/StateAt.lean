import Mathlib.Data.Nat.Basic
import NextTime.Graph.FactLedger
import NextTime.Graph.SourceFacts
import NextTime.Library.Lineage

/-
History does not change: what the bitemporal read answers for an instant stays the
answer, it never has two Facts of one supersede chain, and a chain without business
time has one Fact in force at every instant until it is invalidated.
-/

namespace NextTime.Graph

open Relation (ReflTransGen)

namespace FactLedger

variable {context : LedgerContext}

/-! ### What a call does to the rows -/

/-- A mark a row may get: none, or the clock where there was none. -/
def Stamped (clock : Nat) (old new : Option Nat) : Prop :=
  new = old ∨ (old = none ∧ new = some clock)

/-- A row before and after a call that keeps it: its content stays. -/
structure Marked (clock : Nat) (old new : Fact) : Prop where
  id : new.id = old.id
  identity : new.identity = old.identity
  validUntil : new.validUntil = old.validUntil
  recordedAt : new.recordedAt = old.recordedAt
  supersedesId : new.supersedesId = old.supersedesId
  activityId : new.activityId = old.activityId
  supersededAt : Stamped clock old.supersededAt new.supersededAt
  invalidatedAt : Stamped clock old.invalidatedAt new.invalidatedAt

theorem Marked.refl (clock : Nat) (fact : Fact) : Marked clock fact fact :=
  ⟨rfl, rfl, rfl, rfl, rfl, rfl, .inl rfl, .inl rfl⟩

/-- The columns that say when a Fact is valid are as they were. -/
def SameTimes (ledger next : FactLedger) (factId : Nat) : Prop :=
  (next.columns factId).given = (ledger.columns factId).given ∧
    (next.columns factId).validFrom = (ledger.columns factId).validFrom

/-- A row is superseded only by the one inserted with it. -/
def superseding (state : GraphState) (caller : Nat) (own : Fact) (input : AssertFactInput) :
    GraphState :=
  (state.inserted caller input (some own.id)).updateFact own.id fun fact =>
    { fact with supersededAt := some state.clock }

/-- Every way a call succeeds. -/
inductive Wrote (context : LedgerContext) (ledger : FactLedger) : FactLedger → Prop
  | changed (next : FactLedger) (change : Fact → Fact)
      (graph : next.graph =
        { ledger.graph with facts := ledger.graph.facts.map change })
      (marked : ∀ fact ∈ ledger.graph.facts, Marked ledger.graph.clock fact (change fact))
      (unsuperseded : ∀ fact ∈ ledger.graph.facts,
        (change fact).supersededAt = fact.supersededAt)
      (times : ∀ factId, SameTimes ledger next factId) : Wrote context ledger next
  | inserted (caller : Nat) (input : AssertFactInput) (validFrom : Option Nat) :
      Wrote context ledger (ledger.written context caller validFrom
        (ledger.graph.inserted caller input none) ledger.graph.facts.length)
  | superseded (caller : Nat) (own : Fact) (input : AssertFactInput) (validFrom : Option Nat)
      (member : own ∈ ledger.graph.facts) (active : own.active = true)
      (identity : own.identity = input.identity) :
      Wrote context ledger (ledger.written context caller validFrom
        (superseding ledger.graph caller own input) ledger.graph.facts.length)

theorem wrote_same (ledger : FactLedger) {next : FactLedger} (graph : next.graph = ledger.graph)
    (times : ∀ factId, SameTimes ledger next factId) : Wrote context ledger next := by
  apply Wrote.changed next id
  · rw [List.map_id, graph]
  · intro fact _
    exact Marked.refl _ fact
  · intro fact _
    rfl
  · exact times

theorem active_iff {fact : Fact} :
    fact.active = true ↔ fact.supersededAt = none ∧ fact.invalidatedAt = none := by
  rw [Fact.active, Bool.and_eq_true, Option.isNone_iff_eq_none, Option.isNone_iff_eq_none]

theorem getFactForUpdate_some {state : GraphState} {caller factId : Nat} {fact : Fact}
    (found : state.getFactForUpdate context caller factId = some fact) :
    fact ∈ state.facts ∧ fact.id = factId ∧
      state.linkVisible context.toGraphContext caller fact.activityId = true := by
  have held := List.find?_some found
  rw [Bool.and_eq_true, decide_eq_true_eq] at held
  exact ⟨List.mem_of_find?_eq_some found, held.1, held.2⟩

/-- Only a recorded Fact moves in its lifecycle. -/
theorem active_of_transition {fact : Fact} {event : FactLifecycleEvent}
    {status : FactLifecycleStatus}
    (moved : Shared.transition factLifecycleEdges (factLifecycleState fact) event =
      some status) : fact.active = true := by
  rw [active_iff]
  rw [factLifecycleState] at moved
  split at moved
  next => cases event <;> cases moved
  next notInvalidated =>
    split at moved
    next => cases event <;> cases moved
    next notSuperseded =>
      exact ⟨Option.not_isSome_iff_eq_none.mp notSuperseded,
        Option.not_isSome_iff_eq_none.mp notInvalidated⟩

theorem written_old {ledger : FactLedger} {caller factId : Nat} {validFrom : Option Nat}
    {graph : GraphState} (known : factId ≠ ledger.graph.facts.length) :
    ledger.written context caller validFrom graph factId = ⟨graph, ledger.columns⟩ := by
  rw [written, if_neg known]

theorem wrote_updated {ledger next : FactLedger} {factId : Nat} {change : Fact → Fact}
    (graph : next.graph = ledger.graph.updateFact factId change)
    (marked : ∀ fact ∈ ledger.graph.facts, fact.id = factId →
      Marked ledger.graph.clock fact (change fact) ∧
        (change fact).supersededAt = fact.supersededAt)
    (times : ∀ other, SameTimes ledger next other) : Wrote context ledger next := by
  apply Wrote.changed next _ graph
  · intro fact member
    split
    next isIt => exact (marked fact member isIt).1
    next => exact Marked.refl _ fact
  · intro fact member
    split
    next isIt => exact (marked fact member isIt).2
    next => rfl
  · exact times

theorem sameTimes_refl (ledger : FactLedger) (graph : GraphState) (factId : Nat) :
    SameTimes ledger ⟨graph, ledger.columns⟩ factId :=
  ⟨rfl, rfl⟩

theorem assertFact_wrote {ledger : FactLedger}
    (numbered : GraphState.Numbered Fact.id ledger.graph.facts) {caller factId : Nat}
    {own : Bool} {input : AssertFactInput} {graph : GraphState}
    (asserted : GraphState.Asserted context.toGraphContext ledger.graph caller input graph
      factId own) (validFrom : Option Nat) :
    Wrote context ledger (ledger.written context caller validFrom graph factId) := by
  cases asserted with
  | touched own found equal observationId names =>
      rw [written_old (Nat.ne_of_lt (numbered.lt found.member)),
        GraphState.touchFactObservation]
      split
      next =>
        apply wrote_updated rfl
        · intro fact _ _
          exact ⟨⟨rfl, rfl, rfl, rfl, rfl, rfl, .inl rfl, .inl rfl⟩, rfl⟩
        · exact sameTimes_refl ledger _
      next => exact wrote_same ledger rfl (sameTimes_refl ledger _)
  | found own found equal unnamed =>
      rw [written_old (Nat.ne_of_lt (numbered.lt found.member))]
      exact wrote_same ledger rfl (sameTimes_refl ledger _)
  | superseded own found visibleOwn visible =>
      exact Wrote.superseded caller own input validFrom found.member found.active found.identity
  | inserted noOwn visible => exact Wrote.inserted caller input validFrom
  | corroborated newest member active equal noOwn =>
      rw [written_old (Nat.ne_of_lt (numbered.lt member))]
      exact wrote_same ledger rfl (sameTimes_refl ledger _)

theorem supersedeFact_wrote {ledger : FactLedger} {caller factId newId : Nat}
    {rawInput : AssertFactInput} {graph : GraphState}
    (wrote : ledger.graph.supersedeFact context caller factId rawInput = some (graph, newId))
    (validFrom : Option Nat) :
    Wrote context ledger (ledger.written context caller validFrom graph newId) := by
  rw [GraphState.supersedeFact] at wrote
  split at wrote
  next => cases wrote
  next current found =>
    split at wrote
    next sameIdentity =>
      split at wrote
      next => cases wrote
      next status moved =>
        rw [GraphState.supersedeValidatedFact] at wrote
        split at wrote
        next =>
          obtain ⟨inserted, wroteRow, same⟩ := Option.map_eq_some_iff.mp wrote
          obtain ⟨_, isGraph, isId⟩ := GraphState.insertFact_some wroteRow
          obtain ⟨sameGraph, sameId⟩ := Prod.mk.inj same
          rw [← sameGraph, ← sameId, isGraph, isId]
          exact Wrote.superseded caller current _ validFrom (getFactForUpdate_some found).1
            (active_of_transition moved) sameIdentity.symm
        next => cases wrote
    next => cases wrote

theorem invalidateFact_wrote {ledger : FactLedger} {caller factId : Nat} {graph : GraphState}
    (numbered : GraphState.Numbered Fact.id ledger.graph.facts)
    (wrote : ledger.graph.invalidateFact context caller factId = some graph) :
    Wrote context ledger ⟨graph, ledger.columns⟩ := by
  rw [GraphState.invalidateFact] at wrote
  split at wrote
  next => cases wrote
  next current found =>
    split at wrote
    next => cases wrote
    next status moved =>
      obtain ⟨member, isIt, _⟩ := getFactForUpdate_some found
      have active := active_iff.mp (active_of_transition moved)
      apply wrote_updated (Option.some.inj wrote).symm
      · intro fact present named
        have same : fact = current := numbered.eq present member (named.trans isIt.symm)
        rw [same]
        exact ⟨⟨rfl, rfl, rfl, rfl, rfl, rfl, .inl rfl, .inr ⟨active.2, rfl⟩⟩, rfl⟩
      · exact sameTimes_refl ledger _

theorem verifyFact_wrote {ledger next : FactLedger} {caller factId : Nat}
    (wrote : ledger.verifyFact context caller factId = some next) :
    Wrote context ledger next := by
  rw [verifyFact] at wrote
  split at wrote
  next => cases wrote
  next =>
    obtain ⟨status, _, same⟩ := Option.map_eq_some_iff.mp wrote
    have sameGraph : next.graph = ledger.graph := by rw [← same]
    apply wrote_same ledger sameGraph
    intro other
    simp only [← same, SameTimes]
    by_cases isIt : other = factId
    · rw [isIt, Function.update_self]
      exact ⟨rfl, rfl⟩
    · rw [Function.update_of_ne isIt]
      exact ⟨rfl, rfl⟩

theorem invalidateUnobservedFacts_wrote (ledger : FactLedger) (caller sourceId : Nat)
    (objectTypes : List String) (before : Nat) :
    Wrote context ledger
      { ledger with
        graph := ledger.graph.invalidateUnobservedFacts context.toGraphContext caller sourceId
          objectTypes before } := by
  apply Wrote.changed _ _ rfl
  · intro fact _
    split
    next retired =>
      rw [GraphState.unobserved] at retired
      simp only [Bool.and_eq_true] at retired
      have active := active_iff.mp retired.1.1.1.2
      exact ⟨rfl, rfl, rfl, rfl, rfl, rfl, .inl rfl, .inr ⟨active.2, rfl⟩⟩
    next => exact Marked.refl _ fact
  · intro fact _
    split
    next => rfl
    next => rfl
  · exact sameTimes_refl ledger _

/-- One call, as a write of the rows. -/
theorem call_wrote {ledger next : FactLedger}
    (numbered : GraphState.Numbered Fact.id ledger.graph.facts) {made : FactCall}
    (moved : ledger.call context made = some next) : Wrote context ledger next := by
  cases made with
  | assertFact caller input validFrom =>
      rw [call] at moved
      split at moved
      next =>
        obtain ⟨answer, asserts, same⟩ := Option.map_eq_some_iff.mp moved
        rw [← same]
        exact assertFact_wrote numbered (GraphState.assertFact_asserted asserts) validFrom
      next => cases moved
  | supersedeFact caller factId input validFrom =>
      rw [call] at moved
      split at moved
      next =>
        obtain ⟨answer, supersedes, same⟩ := Option.map_eq_some_iff.mp moved
        rw [← same]
        exact supersedeFact_wrote supersedes validFrom
      next => cases moved
  | invalidateFact caller factId =>
      obtain ⟨graph, invalidates, same⟩ := Option.map_eq_some_iff.mp moved
      rw [← same]
      exact invalidateFact_wrote numbered invalidates
  | verifyFact caller factId => exact verifyFact_wrote moved
  | invalidateUnobservedFacts caller sourceId objectTypes before =>
      rw [← Option.some.inj moved]
      exact invalidateUnobservedFacts_wrote ledger caller sourceId objectTypes before

/-! ### The past is read as before -/

/-- What the read asks of a Fact. -/
def reads (context : LedgerContext) (ledger : FactLedger) (principalId : Nat)
    (viewer : Option GraphReadViewer) (objectId time : Nat) (fact : Fact) : Bool :=
  touches objectId fact && currentAt time fact && ledger.validAt time fact &&
    ledger.shownTo context principalId viewer fact

/-- A stamp of a later clock does not show at an earlier time. -/
theorem stamped_all {clock time : Nat} {old new : Option Nat} (stamped : Stamped clock old new)
    (before : time < clock) :
    (new.all fun moment => decide (time < moment)) =
      old.all fun moment => decide (time < moment) := by
  cases stamped with
  | inl same => rw [same]
  | inr stamped =>
      rw [stamped.1, stamped.2, Option.all_none, Option.all_some]
      exact decide_eq_true before

section
variable {ledger next : FactLedger} {principalId : Nat} {viewer : Option GraphReadViewer}
  {objectId time : Nat}

theorem reads_marked {old new : Fact} (marked : Marked ledger.graph.clock old new)
    (before : time < ledger.graph.clock)
    (observations : next.graph.observations = ledger.graph.observations)
    (times : SameTimes ledger next old.id) :
    next.reads context principalId viewer objectId time new =
      ledger.reads context principalId viewer objectId time old := by
  have sameTouch : touches objectId new = touches objectId old := by
    rw [touches, touches, marked.identity]
  have sameCurrent : currentAt time new = currentAt time old := by
    rw [currentAt, currentAt, marked.recordedAt, stamped_all marked.supersededAt before,
      stamped_all marked.invalidatedAt before]
  have sameValid : next.validAt time new = ledger.validAt time old := by
    rw [validAt, validAt, marked.id, marked.validUntil, times.2]
  have sameShown :
      next.shownTo context principalId viewer new =
        ledger.shownTo context principalId viewer old := by
    rw [shownTo, shownTo, marked.activityId, marked.identity, GraphState.linkVisible,
      GraphState.linkVisible, GraphState.observationsOf, GraphState.observationsOf, observations]
  rw [reads, reads, sameTouch, sameCurrent, sameValid, sameShown]

/-- A Fact of a later clock is not read at an earlier time. -/
theorem reads_later {fact : Fact} (before : time < fact.recordedAt) :
    ledger.reads context principalId viewer objectId time fact = false := by
  have notYet : currentAt time fact = false := by
    rw [currentAt, decide_eq_false (Nat.not_le.mpr before), Bool.false_and, Bool.false_and]
  rw [reads, notYet, Bool.and_false, Bool.false_and, Bool.false_and]

theorem filter_map_ids {rows : List Fact} {change : Fact → Fact} {asks asked : Fact → Bool}
    (ids : ∀ fact ∈ rows, (change fact).id = fact.id)
    (same : ∀ fact ∈ rows, asks (change fact) = asked fact) :
    ((rows.map change).filter asks).map Fact.id = (rows.filter asked).map Fact.id := by
  induction rows with
  | nil => rfl
  | cons fact rest ih =>
      have restIds := ih (fun other member => ids other (List.mem_cons_of_mem _ member))
        (fun other member => same other (List.mem_cons_of_mem _ member))
      have sameFact := same fact List.mem_cons_self
      rw [List.map_cons, List.filter_cons, List.filter_cons, sameFact]
      split
      next => rw [List.map_cons, List.map_cons, restIds, ids fact List.mem_cons_self]
      next => exact restIds

/-- The rows of the earlier ledger, each with later marks, behind rows of a later clock. -/
theorem stateAt_ids {change : Fact → Fact} {added : List Fact}
    (facts : next.graph.facts = ledger.graph.facts.map change ++ added)
    (marked : ∀ fact ∈ ledger.graph.facts, Marked ledger.graph.clock fact (change fact))
    (later : ∀ fact ∈ added, ledger.graph.clock ≤ fact.recordedAt)
    (observations : next.graph.observations = ledger.graph.observations)
    (times : ∀ fact ∈ ledger.graph.facts, SameTimes ledger next fact.id)
    (before : time < ledger.graph.clock) :
    (next.stateAt context principalId viewer objectId time).map Fact.id =
      (ledger.stateAt context principalId viewer objectId time).map Fact.id := by
  have none_added :
      added.reverse.filter (next.reads context principalId viewer objectId time) = [] := by
    rw [List.filter_eq_nil_iff]
    intro fact member
    have recorded := later fact (List.mem_reverse.mp member)
    rw [reads_later (Nat.lt_of_lt_of_le before recorded)]
    exact Bool.false_ne_true
  change ((next.graph.facts.reverse.filter
      (next.reads context principalId viewer objectId time)).map Fact.id) =
    (ledger.graph.facts.reverse.filter
      (ledger.reads context principalId viewer objectId time)).map Fact.id
  rw [facts, List.reverse_append, List.filter_append, none_added, List.nil_append,
    ← List.map_reverse]
  apply filter_map_ids
  · intro fact member
    exact (marked fact (List.mem_reverse.mp member)).id
  · intro fact member
    have present := List.mem_reverse.mp member
    exact reads_marked (marked fact present) before observations (times fact present)

end

/-- What every call leaves of the rows that were there, with what it adds. -/
structure Grows (ledger next : FactLedger) (change : Fact → Fact) (added : List Fact) :
    Prop where
  facts : next.graph.facts = ledger.graph.facts.map change ++ added
  marked : ∀ fact ∈ ledger.graph.facts, Marked ledger.graph.clock fact (change fact)
  recorded : ∀ fact ∈ added, fact.recordedAt = ledger.graph.clock
  clock : next.graph.clock = ledger.graph.clock
  observations : next.graph.observations = ledger.graph.observations
  times : ∀ fact ∈ ledger.graph.facts, SameTimes ledger next fact.id

theorem written_times {ledger : FactLedger} {caller factId : Nat} {validFrom : Option Nat}
    {graph : GraphState} (known : factId < ledger.graph.facts.length) (newId : Nat) :
    SameTimes ledger (ledger.written context caller validFrom graph newId) factId := by
  rw [written]
  split
  next isNew =>
    have apart : factId ≠ newId := isNew ▸ Nat.ne_of_lt known
    simp only [SameTimes, Function.update_of_ne apart, and_self]
  next => exact ⟨rfl, rfl⟩

/-- The mark of the row that is superseded. -/
def markSuperseded (clock ownId : Nat) (fact : Fact) : Fact :=
  if fact.id = ownId then { fact with supersededAt := some clock } else fact

theorem superseding_facts {state : GraphState} {caller : Nat} {own : Fact}
    {input : AssertFactInput} (known : own.id ≠ state.facts.length) :
    (superseding state caller own input).facts =
      state.facts.map (markSuperseded state.clock own.id) ++
        [state.newFact caller input (some own.id)] := by
  change (state.facts ++ [state.newFact caller input (some own.id)]).map
    (markSuperseded state.clock own.id) = _
  have kept : markSuperseded state.clock own.id (state.newFact caller input (some own.id)) =
      state.newFact caller input (some own.id) :=
    if_neg known.symm
  rw [List.map_append, List.map_singleton, kept]

theorem marked_superseded {state : GraphState}
    (numbered : GraphState.Numbered Fact.id state.facts) {own fact : Fact}
    (member : own ∈ state.facts) (active : own.active = true) (present : fact ∈ state.facts) :
    Marked state.clock fact (markSuperseded state.clock own.id fact) := by
  rw [markSuperseded]
  split
  next isOwn =>
    rw [numbered.eq present member isOwn]
    exact ⟨rfl, rfl, rfl, rfl, rfl, rfl, .inr ⟨(active_iff.mp active).1, rfl⟩, .inl rfl⟩
  next => exact Marked.refl _ fact

theorem grows_inserted {ledger : FactLedger}
    (numbered : GraphState.Numbered Fact.id ledger.graph.facts) (caller : Nat)
    (input : AssertFactInput) (validFrom : Option Nat) :
    Grows ledger (ledger.written context caller validFrom
        (ledger.graph.inserted caller input none) ledger.graph.facts.length) id
      [ledger.graph.newFact caller input none] where
  facts := by
    rw [List.map_id]
    rfl
  marked fact _ := Marked.refl _ fact
  recorded fact member := by
    rw [List.mem_singleton.mp member]
    rfl
  clock := rfl
  observations := rfl
  times fact member := written_times (numbered.lt member) _

theorem grows_superseding {ledger : FactLedger}
    (numbered : GraphState.Numbered Fact.id ledger.graph.facts) (caller : Nat) {own : Fact}
    (member : own ∈ ledger.graph.facts) (active : own.active = true) (input : AssertFactInput)
    (validFrom : Option Nat) :
    Grows ledger (ledger.written context caller validFrom
        (superseding ledger.graph caller own input) ledger.graph.facts.length)
      (markSuperseded ledger.graph.clock own.id)
      [ledger.graph.newFact caller input (some own.id)] where
  facts := superseding_facts (Nat.ne_of_lt (numbered.lt member))
  marked fact present := marked_superseded numbered member active present
  recorded fact present := by
    rw [List.mem_singleton.mp present]
    rfl
  clock := rfl
  observations := rfl
  times fact present := written_times (numbered.lt present) _

theorem grows_changed {ledger next : FactLedger} {change : Fact → Fact}
    (graph : next.graph = { ledger.graph with facts := ledger.graph.facts.map change })
    (marked : ∀ fact ∈ ledger.graph.facts, Marked ledger.graph.clock fact (change fact))
    (times : ∀ factId, SameTimes ledger next factId) : Grows ledger next change [] where
  facts := by rw [graph, List.append_nil]
  marked := marked
  recorded _ member := nomatch member
  clock := by rw [graph]
  observations := by rw [graph]
  times fact _ := times fact.id

theorem Wrote.grows {ledger next : FactLedger} (wrote : Wrote context ledger next)
    (numbered : GraphState.Numbered Fact.id ledger.graph.facts) :
    ∃ change added, Grows ledger next change added := by
  cases wrote with
  | changed next change graph marked unsuperseded times =>
      exact ⟨change, [], grows_changed graph marked times⟩
  | inserted caller input validFrom =>
      exact ⟨id, _, grows_inserted numbered caller input validFrom⟩
  | superseded caller own input validFrom member active identity =>
      exact ⟨_, _, grows_superseding numbered caller member active input validFrom⟩

theorem numbered_marked {rows : List Fact}
    (numbered : GraphState.Numbered Fact.id rows) {change : Fact → Fact}
    (keepsId : ∀ fact ∈ rows, (change fact).id = fact.id) :
    GraphState.Numbered Fact.id (rows.map change) := by
  intro place fact found
  rw [List.getElem?_map] at found
  obtain ⟨old, present, same⟩ := Option.map_eq_some_iff.mp found
  rw [← same, keepsId old (List.mem_of_getElem? present)]
  exact numbered place old present

theorem Wrote.numbered {ledger next : FactLedger} (wrote : Wrote context ledger next)
    (numbered : GraphState.Numbered Fact.id ledger.graph.facts) :
    GraphState.Numbered Fact.id next.graph.facts := by
  cases wrote with
  | changed next change graph marked unsuperseded times =>
      rw [graph]
      exact numbered_marked numbered fun fact member => (marked fact member).id
  | inserted caller input validFrom => exact GraphState.numbered_inserted numbered caller input none
  | superseded caller own input validFrom member active identity =>
      have isRows := @superseding_facts ledger.graph caller own input
        (Nat.ne_of_lt (numbered.lt member))
      change GraphState.Numbered Fact.id (superseding ledger.graph caller own input).facts
      rw [isRows]
      apply GraphState.Numbered.append
      · exact numbered_marked numbered fun fact present =>
          (marked_superseded numbered member active present).id
      · rw [List.length_map]
        rfl

/-! ### Chains of superseded Facts -/

/-- A Fact and the one that superseded it. -/
structure Follows (old new : Fact) : Prop where
  later : old.id < new.id
  superseded : old.supersededAt = some new.recordedAt
  recorded : old.recordedAt ≤ new.recordedAt
  identity : old.identity = new.identity

structure HistoryHolds (ledger : FactLedger) : Prop where
  numbered : GraphState.Numbered Fact.id ledger.graph.facts
  recorded : ∀ fact ∈ ledger.graph.facts, fact.recordedAt ≤ ledger.graph.clock
  followed : ∀ new ∈ ledger.graph.facts, ∀ oldId, new.supersedesId = some oldId →
    ∃ old ∈ ledger.graph.facts, old.id = oldId ∧ Follows old new
  once : ∀ new ∈ ledger.graph.facts, ∀ other ∈ ledger.graph.facts, ∀ oldId,
    new.supersedesId = some oldId → other.supersedesId = some oldId → new = other
  succeeded : ∀ old ∈ ledger.graph.facts, ∀ moment, old.supersededAt = some moment →
    ∃ new ∈ ledger.graph.facts, new.supersedesId = some old.id
  validFrom : ∀ fact ∈ ledger.graph.facts, (ledger.columns fact.id).validFrom =
    (ledger.columns fact.id).given.getD fact.recordedAt

theorem Follows.marked {old new old' new' : Fact} {clock : Nat} (follows : Follows old new)
    (markedOld : Marked clock old old') (markedNew : Marked clock new new') :
    Follows old' new' where
  later := by
    rw [markedOld.id, markedNew.id]
    exact follows.later
  superseded := by
    rw [markedNew.recordedAt]
    cases markedOld.supersededAt with
    | inl same => exact same.trans follows.superseded
    | inr stamped =>
        have was := follows.superseded
        rw [stamped.1] at was
        cases was
  recorded := by
    rw [markedOld.recordedAt, markedNew.recordedAt]
    exact follows.recorded
  identity := by
    rw [markedOld.identity, markedNew.identity]
    exact follows.identity

namespace HistoryHolds

variable {ledger next : FactLedger} {change : Fact → Fact} {added : List Fact}

/-- Rows that only get marks keep their chains, whatever is added behind them. -/
theorem followed_old (holds : HistoryHolds ledger) (grows : Grows ledger next change added)
    {fact : Fact} (member : fact ∈ ledger.graph.facts) {oldId : Nat}
    (supersedes : (change fact).supersedesId = some oldId) :
    ∃ old ∈ next.graph.facts, old.id = oldId ∧ Follows old (change fact) := by
  have marked := grows.marked fact member
  rw [marked.supersedesId] at supersedes
  obtain ⟨old, oldMember, isOld, follows⟩ := holds.followed fact member oldId supersedes
  have markedOld := grows.marked old oldMember
  refine ⟨change old, ?_, markedOld.id.trans isOld, follows.marked markedOld marked⟩
  rw [grows.facts]
  exact List.mem_append_left _ (List.mem_map_of_mem oldMember)

theorem succeeded_old (holds : HistoryHolds ledger) (grows : Grows ledger next change added)
    {fact : Fact} (member : fact ∈ ledger.graph.facts) {moment : Nat}
    (superseded : fact.supersededAt = some moment) :
    ∃ new ∈ next.graph.facts, new.supersedesId = some (change fact).id := by
  obtain ⟨new, newMember, supersedes⟩ := holds.succeeded fact member moment superseded
  refine ⟨change new, ?_, ?_⟩
  · rw [grows.facts]
    exact List.mem_append_left _ (List.mem_map_of_mem newMember)
  · rw [(grows.marked new newMember).supersedesId, (grows.marked fact member).id]
    exact supersedes

theorem once_old (holds : HistoryHolds ledger) (grows : Grows ledger next change added)
    {new other : Fact} (newMember : new ∈ ledger.graph.facts)
    (otherMember : other ∈ ledger.graph.facts) {oldId : Nat}
    (newSupersedes : (change new).supersedesId = some oldId)
    (otherSupersedes : (change other).supersedesId = some oldId) : change new = change other := by
  rw [(grows.marked new newMember).supersedesId] at newSupersedes
  rw [(grows.marked other otherMember).supersedesId] at otherSupersedes
  rw [holds.once new newMember other otherMember oldId newSupersedes otherSupersedes]

theorem recorded_grows (holds : HistoryHolds ledger) (grows : Grows ledger next change added) :
    ∀ fact ∈ next.graph.facts, fact.recordedAt ≤ next.graph.clock := by
  intro fact member
  rw [grows.facts, List.mem_append, List.mem_map] at member
  rw [grows.clock]
  cases member with
  | inl old =>
      obtain ⟨before, present, same⟩ := old
      rw [← same, (grows.marked before present).recordedAt]
      exact holds.recorded before present
  | inr isAdded => exact Nat.le_of_eq (grows.recorded fact isAdded)

theorem validFrom_grows (holds : HistoryHolds ledger) (grows : Grows ledger next change added)
    (ofAdded : ∀ fact ∈ added, (next.columns fact.id).validFrom =
      (next.columns fact.id).given.getD fact.recordedAt) :
    ∀ fact ∈ next.graph.facts, (next.columns fact.id).validFrom =
      (next.columns fact.id).given.getD fact.recordedAt := by
  intro fact member
  rw [grows.facts, List.mem_append, List.mem_map] at member
  cases member with
  | inl old =>
      obtain ⟨before, present, same⟩ := old
      have marked := grows.marked before present
      obtain ⟨sameGiven, sameFrom⟩ := grows.times before present
      rw [← same, marked.id, marked.recordedAt, sameGiven, sameFrom]
      exact holds.validFrom before present
  | inr isAdded => exact ofAdded fact isAdded

end HistoryHolds

theorem inserted_validFrom {ledger : FactLedger} {caller factId : Nat}
    {validFrom : Option Nat} {graph : GraphState} (isNew : factId = ledger.graph.facts.length) :
    ((ledger.written context caller validFrom graph factId).columns factId).validFrom =
      ((ledger.written context caller validFrom graph factId).columns factId).given.getD
        ledger.graph.clock := by
  simp only [written, if_pos isNew, Function.update_self, insertedColumns]

/-- The row of a Fact that is superseded, and the one that superseded it. -/
theorem HistoryHolds.superseding {ledger : FactLedger} (holds : HistoryHolds ledger)
    {caller : Nat} {own : Fact} {input : AssertFactInput} {validFrom : Option Nat}
    (numbered : GraphState.Numbered Fact.id (superseding ledger.graph caller own input).facts)
    (member : own ∈ ledger.graph.facts) (active : own.active = true)
    (identity : own.identity = input.identity) :
    HistoryHolds (ledger.written context caller validFrom
      (FactLedger.superseding ledger.graph caller own input) ledger.graph.facts.length) := by
  have grows := @grows_superseding context ledger holds.numbered caller own member active input
    validFrom
  have unsuperseded := (active_iff.mp active).1
  have rows : ∀ {fact}, fact ∈ (FactLedger.superseding ledger.graph caller own input).facts ↔
      (∃ before ∈ ledger.graph.facts,
        markSuperseded ledger.graph.clock own.id before = fact) ∨
        fact = ledger.graph.newFact caller input (some own.id) := by
    intro fact
    rw [superseding_facts (Nat.ne_of_lt (holds.numbered.lt member)), List.mem_append,
      List.mem_map, List.mem_singleton]
  have newMember : ledger.graph.newFact caller input (some own.id) ∈
      (FactLedger.superseding ledger.graph caller own input).facts :=
    rows.mpr (Or.inr rfl)
  -- Nothing superseded the row before: it was active.
  have first : ∀ fact ∈ ledger.graph.facts, fact.supersedesId ≠ some own.id := by
    intro fact present supersedes
    obtain ⟨old, oldMember, isOld, follows⟩ := holds.followed fact present _ supersedes
    have same : old = own := holds.numbered.eq oldMember member isOld
    have was := follows.superseded
    rw [same, unsuperseded] at was
    cases was
  constructor
  · exact numbered
  · exact holds.recorded_grows grows
  · intro new isRow oldId supersedes
    cases rows.mp isRow with
    | inl kept =>
        obtain ⟨before, present, same⟩ := kept
        subst same
        exact holds.followed_old grows present supersedes
    | inr isNew =>
        subst isNew
        have marked := grows.marked own member
        refine ⟨markSuperseded ledger.graph.clock own.id own,
          rows.mpr (Or.inl ⟨own, member, rfl⟩), marked.id.trans (Option.some.inj supersedes), ?_⟩
        constructor
        · rw [marked.id]
          exact holds.numbered.lt member
        · rw [markSuperseded, if_pos rfl]
          rfl
        · rw [marked.recordedAt]
          exact holds.recorded own member
        · rw [marked.identity]
          exact identity
  · intro new newRow other otherRow oldId newSupersedes otherSupersedes
    cases rows.mp newRow with
    | inl kept =>
        obtain ⟨before, present, same⟩ := kept
        subst same
        cases rows.mp otherRow with
        | inl otherKept =>
            obtain ⟨otherBefore, otherPresent, otherSame⟩ := otherKept
            subst otherSame
            exact holds.once_old grows present otherPresent newSupersedes otherSupersedes
        | inr isNew =>
            subst isNew
            rw [(grows.marked before present).supersedesId, ← otherSupersedes] at newSupersedes
            exact absurd newSupersedes (first before present)
    | inr isNew =>
        subst isNew
        cases rows.mp otherRow with
        | inl otherKept =>
            obtain ⟨otherBefore, otherPresent, otherSame⟩ := otherKept
            subst otherSame
            rw [(grows.marked otherBefore otherPresent).supersedesId, ← newSupersedes]
              at otherSupersedes
            exact absurd otherSupersedes (first otherBefore otherPresent)
        | inr otherNew => exact otherNew.symm
  · intro old oldRow moment superseded
    cases rows.mp oldRow with
    | inl kept =>
        obtain ⟨before, present, same⟩ := kept
        subst same
        by_cases isOwn : before.id = own.id
        · refine ⟨_, newMember, ?_⟩
          rw [(grows.marked before present).id, isOwn]
          rfl
        · rw [markSuperseded, if_neg isOwn] at superseded
          exact holds.succeeded_old grows present superseded
    | inr isNew => cases isNew ▸ superseded
  · apply holds.validFrom_grows grows
    intro fact isRow
    rw [List.mem_singleton.mp isRow]
    exact inserted_validFrom rfl

theorem Wrote.historyHolds {ledger next : FactLedger} (wrote : Wrote context ledger next)
    (holds : HistoryHolds ledger) : HistoryHolds next := by
  have numbered := wrote.numbered holds.numbered
  cases wrote with
  | changed next change graph marked unsuperseded times =>
      have grows := grows_changed graph marked times
      have from_old : ∀ fact ∈ next.graph.facts,
          ∃ before ∈ ledger.graph.facts, change before = fact := by
        intro fact member
        rw [graph] at member
        exact List.mem_map.mp member
      constructor
      · exact numbered
      · exact holds.recorded_grows grows
      · intro new newMember oldId supersedes
        obtain ⟨before, present, same⟩ := from_old new newMember
        subst same
        exact holds.followed_old grows present supersedes
      · intro new newMember other otherMember oldId newSupersedes otherSupersedes
        obtain ⟨before, present, same⟩ := from_old new newMember
        obtain ⟨otherBefore, otherPresent, otherSame⟩ := from_old other otherMember
        subst same otherSame
        exact holds.once_old grows present otherPresent newSupersedes otherSupersedes
      · intro old oldMember moment superseded
        obtain ⟨before, present, same⟩ := from_old old oldMember
        subst same
        rw [unsuperseded before present] at superseded
        exact holds.succeeded_old grows present superseded
      · exact holds.validFrom_grows grows fun _ member => nomatch member
  | inserted caller input validFrom =>
      have grows := @grows_inserted context ledger holds.numbered caller input validFrom
      have rows : ∀ {fact}, fact ∈ (ledger.graph.inserted caller input none).facts ↔
          fact ∈ ledger.graph.facts ∨ fact = ledger.graph.newFact caller input none := by
        intro fact
        exact List.mem_append.trans (or_congr_right List.mem_singleton)
      constructor
      · exact numbered
      · exact holds.recorded_grows grows
      · intro new newMember oldId supersedes
        cases rows.mp newMember with
        | inl present => exact holds.followed_old grows present supersedes
        | inr isNew => cases isNew ▸ supersedes
      · intro new newMember other otherMember oldId newSupersedes otherSupersedes
        cases rows.mp newMember with
        | inl present =>
            cases rows.mp otherMember with
            | inl otherPresent =>
                exact holds.once_old grows present otherPresent newSupersedes otherSupersedes
            | inr isNew => cases isNew ▸ otherSupersedes
        | inr isNew => cases isNew ▸ newSupersedes
      · intro old oldMember moment superseded
        cases rows.mp oldMember with
        | inl present => exact holds.succeeded_old grows present superseded
        | inr isNew => cases isNew ▸ superseded
      · apply holds.validFrom_grows grows
        intro fact member
        rw [List.mem_singleton.mp member]
        exact inserted_validFrom rfl
  | superseded caller own input validFrom member active identity =>
      exact holds.superseding numbered member active identity

/-! ### Transactions -/

/-- Whoever reads it for whatever Object: the instant has the Facts it had. -/
def SamePast (context : LedgerContext) (time : Nat) (ledger next : FactLedger) : Prop :=
  ∀ principalId viewer objectId,
    (next.stateAt context principalId viewer objectId time).map Fact.id =
      (ledger.stateAt context principalId viewer objectId time).map Fact.id

theorem SamePast.trans {time : Nat} {first second third : FactLedger}
    (earlier : SamePast context time first second) (later : SamePast context time second third) :
    SamePast context time first third :=
  fun principalId viewer objectId =>
    (later principalId viewer objectId).trans (earlier principalId viewer objectId)

theorem Grows.samePast {ledger next : FactLedger} {change : Fact → Fact} {added : List Fact}
    (grows : Grows ledger next change added) {time : Nat} (before : time < ledger.graph.clock) :
    SamePast context time ledger next :=
  fun _ _ _ => stateAt_ids grows.facts grows.marked
    (fun fact member => Nat.le_of_eq (grows.recorded fact member).symm) grows.observations
    grows.times before

/-- What every call leaves, and so the calls of a transaction together. -/
structure Leaves (context : LedgerContext) (ledger next : FactLedger) : Prop where
  holds : HistoryHolds next
  clock : next.graph.clock = ledger.graph.clock
  past : ∀ time, time < ledger.graph.clock → SamePast context time ledger next

theorem call_leaves {ledger next : FactLedger} (holds : HistoryHolds ledger) {made : FactCall}
    (moved : ledger.call context made = some next) : Leaves context ledger next := by
  have wrote := call_wrote holds.numbered moved
  obtain ⟨change, added, grows⟩ := wrote.grows holds.numbered
  exact ⟨wrote.historyHolds holds, grows.clock, fun _ before => grows.samePast before⟩

theorem calls_leaves {ledger next : FactLedger} {made : List FactCall}
    (holds : HistoryHolds ledger) (moved : calls context made ledger = some next) :
    Leaves context ledger next := by
  induction made generalizing ledger with
  | nil =>
      rw [← Option.some.inj moved]
      exact ⟨holds, rfl, fun _ _ _ _ _ => rfl⟩
  | cons first rest ih =>
      rw [calls] at moved
      split at moved
      next => cases moved
      next middle called =>
        have once := call_leaves holds called
        have later := ih once.holds moved
        constructor
        · exact later.holds
        · exact later.clock.trans once.clock
        · intro time before
          exact (once.past time before).trans (later.past time (once.clock ▸ before))

theorem HistoryHolds.tick {ledger : FactLedger} (holds : HistoryHolds ledger) {now : Nat}
    (before : ledger.graph.clock ≤ now) :
    HistoryHolds { ledger with graph := { ledger.graph with clock := now } } where
  numbered := holds.numbered
  recorded fact member := Nat.le_trans (holds.recorded fact member) before
  followed := holds.followed
  once := holds.once
  succeeded := holds.succeeded
  validFrom := holds.validFrom

theorem step_leaves {ledger next : FactLedger} (holds : HistoryHolds ledger)
    {transaction : FactTransaction} (moved : ledger.step context transaction = some next) :
    HistoryHolds next ∧ ∀ time, time < transaction.now → SamePast context time ledger next := by
  rw [step] at moved
  split at moved
  next later =>
    have leaves := calls_leaves (holds.tick (Nat.le_of_lt later)) moved
    exact ⟨leaves.holds, leaves.past⟩
  next => cases moved

theorem begins_historyHolds {ledger : FactLedger} (begins : ledger.Begins) :
    HistoryHolds ledger := by
  have noFacts : ledger.graph.facts = [] := begins
  constructor
  · intro place fact found
    rw [noFacts] at found
    cases found
  all_goals
    intro fact member
    rw [noFacts] at member
    cases member

theorem run_historyHolds {start final : FactLedger} {transactions : List FactTransaction}
    (holds : HistoryHolds start)
    (ran : (system context).run start transactions = some final) : HistoryHolds final := by
  have preserved : (system context).Preserved HistoryHolds :=
    fun _ _ _ held moved => (step_leaves held moved).1
  exact (system context).run_preserves preserved holds ran

/-- Transactions of later clocks leave an instant as it was. -/
theorem run_samePast {start final : FactLedger} {transactions : List FactTransaction}
    {time : Nat} (holds : HistoryHolds start)
    (later : ∀ transaction ∈ transactions, time < transaction.now)
    (ran : (system context).run start transactions = some final) :
    SamePast context time start final := by
  induction transactions generalizing start with
  | nil =>
      rw [LabelledRun.System.run_nil, Option.some.injEq] at ran
      rw [ran]
      exact fun _ _ _ => rfl
  | cons transaction rest ih =>
      obtain ⟨next, moved, ranOn⟩ := (system context).run_cons_some ran
      obtain ⟨nextHolds, past⟩ := step_leaves holds moved
      apply (past time (later transaction List.mem_cons_self)).trans
      exact ih nextHolds (fun other member => later other (List.mem_cons_of_mem _ member)) ranOn

/-! ### Reading a chain -/

def Supersedes (ledger : FactLedger) (old new : Fact) : Prop :=
  old ∈ ledger.graph.facts ∧ new ∈ ledger.graph.facts ∧ new.supersedesId = some old.id

/-- The second is of the chain of the first: superseded one by another from it on. -/
def Chain (ledger : FactLedger) (first fact : Fact) : Prop :=
  ReflTransGen ledger.Supersedes first fact

theorem HistoryHolds.follows {ledger : FactLedger} (holds : HistoryHolds ledger)
    {old new : Fact} (supersedes : ledger.Supersedes old new) : Follows old new := by
  obtain ⟨oldMember, newMember, named⟩ := supersedes
  obtain ⟨found, foundMember, isOld, follows⟩ := holds.followed new newMember _ named
  rw [holds.numbered.eq oldMember foundMember isOld.symm]
  exact follows

theorem HistoryHolds.lined {ledger : FactLedger} (holds : HistoryHolds ledger) :
    Lineage.Lined ledger.graph.facts Fact.recordedAt Fact.supersededAt ledger.Supersedes
      Fact.id where
  present supersedes := ⟨supersedes.1, supersedes.2.1⟩
  handed supersedes := (holds.follows supersedes).superseded
  onward supersedes := (holds.follows supersedes).recorded
  once := fun first second =>
    holds.once _ first.2.1 _ second.2.1 _ first.2.2 second.2.2
  succeeded := by
    intro old moment member superseded
    obtain ⟨new, newMember, named⟩ := holds.succeeded old member moment superseded
    exact ⟨new, member, newMember, named⟩
  rising supersedes := (holds.follows supersedes).later
  bounded member := holds.numbered.lt member

theorem HistoryHolds.identity_of_chain {ledger : FactLedger} (holds : HistoryHolds ledger)
    {first fact : Fact} (chain : ledger.Chain first fact) : first.identity = fact.identity := by
  induction chain with
  | refl => rfl
  | tail _ supersedes ih => exact ih.trans (holds.follows supersedes).identity

theorem currentAt_iff {time : Nat} {fact : Fact} :
    currentAt time fact = true ↔
      Lineage.InForce Fact.recordedAt Fact.supersededAt time fact ∧
        ∀ moment, fact.invalidatedAt = some moment → time < moment := by
  rw [currentAt, Bool.and_eq_true, Bool.and_eq_true, decide_eq_true_eq, Option.all_eq_true,
    Option.all_eq_true, Lineage.InForce]
  simp only [decide_eq_true_eq]

theorem mem_stateAt {ledger : FactLedger} {principalId : Nat} {viewer : Option GraphReadViewer}
    {objectId time : Nat} {fact : Fact} :
    fact ∈ ledger.stateAt context principalId viewer objectId time ↔
      fact ∈ ledger.graph.facts ∧ touches objectId fact = true ∧ currentAt time fact = true ∧
        ledger.validAt time fact = true ∧
          ledger.shownTo context principalId viewer fact = true := by
  rw [stateAt, List.mem_filter, List.mem_reverse, Bool.and_eq_true, Bool.and_eq_true,
    Bool.and_eq_true, and_assoc, and_assoc]

/-- The writes of the chain gave neither end of a business time. -/
def OpenEnded (ledger : FactLedger) (first : Fact) : Prop :=
  ∀ fact, ledger.Chain first fact →
    (ledger.columns fact.id).given = none ∧ fact.validUntil = none

/-- No Fact of the chain is invalidated up to the instant. -/
def NotInvalidated (ledger : FactLedger) (first : Fact) (time : Nat) : Prop :=
  ∀ fact, ledger.Chain first fact →
    ∀ moment, fact.invalidatedAt = some moment → time < moment

theorem HistoryHolds.stateAt_unique {ledger : FactLedger} (holds : HistoryHolds ledger)
    {principalId : Nat} {viewer : Option GraphReadViewer} {objectId time : Nat}
    {root first second : Fact} (firstChain : ledger.Chain root first)
    (secondChain : ledger.Chain root second)
    (firstRead : first ∈ ledger.stateAt context principalId viewer objectId time)
    (secondRead : second ∈ ledger.stateAt context principalId viewer objectId time) :
    first = second := by
  have firstForce := (currentAt_iff.mp (mem_stateAt.mp firstRead).2.2.1).1
  have secondForce := (currentAt_iff.mp (mem_stateAt.mp secondRead).2.2.1).1
  exact holds.lined.inForce_unique firstChain secondChain firstForce secondForce

/-- Once begun and not yet invalidated, a chain has a Fact that every reader who may see it
reads. -/
theorem HistoryHolds.exists_current {ledger : FactLedger} (holds : HistoryHolds ledger)
    {objectId time : Nat} {root : Fact} (member : root ∈ ledger.graph.facts)
    (touched : touches objectId root = true) (openEnded : ledger.OpenEnded root)
    (begun : root.recordedAt ≤ time) (valid : ledger.NotInvalidated root time) :
    ∃ fact, ledger.Chain root fact ∧ currentAt time fact = true ∧
      ∀ principalId viewer,
        fact ∈ ledger.stateAt context principalId viewer objectId time ↔
          ledger.shownTo context principalId viewer fact = true := by
  obtain ⟨fact, chain, force⟩ := holds.lined.exists_inForce member begun
  have present : fact ∈ ledger.graph.facts := holds.lined.mem_of_line member chain
  have touchesIt : touches objectId fact = true := by
    rw [touches, ← holds.identity_of_chain chain]
    exact touched
  have current : currentAt time fact = true :=
    currentAt_iff.mpr ⟨force, valid fact chain⟩
  have validNow : ledger.validAt time fact = true := by
    obtain ⟨given, until_none⟩ := openEnded fact chain
    rw [validAt, holds.validFrom fact present, given, until_none, Option.getD_none,
      decide_eq_true force.1]
    rfl
  refine ⟨fact, chain, current, fun principalId viewer => ?_⟩
  rw [mem_stateAt]
  constructor
  · intro read
    exact read.2.2.2.2
  · intro shown
    exact ⟨present, touchesIt, current, validNow, shown⟩

/-- In every history of transactions: later ones leave what an instant is read as, no two
Facts of one chain are read together, and of a chain that is open-ended exactly one Fact is
current, which is read by whoever may see it. -/
theorem history_does_not_change {start final : FactLedger}
    {transactions : List FactTransaction} (begins : start.Begins)
    (ran : (system context).run start transactions = some final) (objectId time : Nat) :
    (∀ later last, (∀ transaction ∈ later, time < transaction.now) →
      (system context).run final later = some last →
        ∀ principalId viewer,
          (last.stateAt context principalId viewer objectId time).map Fact.id =
            (final.stateAt context principalId viewer objectId time).map Fact.id) ∧
      (∀ principalId viewer root first second, final.Chain root first →
        final.Chain root second →
        first ∈ final.stateAt context principalId viewer objectId time →
          second ∈ final.stateAt context principalId viewer objectId time → first = second) ∧
      ∀ root ∈ final.graph.facts, touches objectId root = true → final.OpenEnded root →
        root.recordedAt ≤ time → final.NotInvalidated root time →
          ∃ fact, final.Chain root fact ∧
            ∀ principalId viewer,
              (fact ∈ final.stateAt context principalId viewer objectId time ↔
                final.shownTo context principalId viewer fact = true) ∧
                ∀ other, final.Chain root other →
                  other ∈ final.stateAt context principalId viewer objectId time →
                    other = fact := by
  have holds := run_historyHolds (begins_historyHolds begins) ran
  constructor
  · intro later last allLater ranOn principalId viewer
    exact run_samePast holds allLater ranOn principalId viewer objectId
  constructor
  · intro principalId viewer root first second firstChain secondChain firstRead secondRead
    exact holds.stateAt_unique firstChain secondChain firstRead secondRead
  · intro root member touched openEnded begun valid
    obtain ⟨fact, chain, current, read⟩ :=
      holds.exists_current member touched openEnded begun valid
    refine ⟨fact, chain, fun principalId viewer => ⟨read principalId viewer, ?_⟩⟩
    intro other otherChain otherRead
    have otherCurrent := (mem_stateAt.mp otherRead).2.2.1
    exact holds.lined.inForce_unique otherChain chain (currentAt_iff.mp otherCurrent).1
      (currentAt_iff.mp current).1

/-! ### A Fact superseded under a private Source -/

/-- The second Source is one only its owner, the first Principal, sees. -/
def ledgerContext : LedgerContext where
  sources sourceId := ⟨1, decide (sourceId = 1)⟩
  objectType _ := "Host"
  scrub properties := properties
  principalKind _ := .human
  draftHidden _ _ := false

/-- An Activity without Observations, and one that observed the private Source. -/
def ledgerStart : FactLedger where
  graph :=
    { clock := 0
      activities := [⟨0, 1⟩, ⟨0, 1⟩]
      observations := [⟨0, 1, 1⟩]
      facts := []
      answers := [] }
  columns _ := ⟨none, 0, .observed, none⟩

def runsOn (activityId : Nat) (state : String) : AssertFactInput where
  identity := ⟨"runs_on", 7, 8⟩
  properties := .obj [("state", .str state)]
  validUntil := none
  activityId := activityId
  observationId := none

/-- Asserted at 10, superseded on the second Activity at 20. -/
def assertsThenSupersedes : List FactTransaction :=
  [⟨10, [.assertFact 1 (runsOn 0 "up") none]⟩,
    ⟨20, [.supersedeFact 1 0 (runsOn 1 "down") none]⟩]

/-- The second Principal reads the Fact at 10 and none of its chain from 20 on, though
nothing was invalidated; the owner reads the one that superseded it. -/
theorem stateAt_chain_gap :
    ∃ final, (system ledgerContext).run ledgerStart assertsThenSupersedes = some final ∧
      ledgerStart.Begins ∧
      (∀ fact ∈ final.graph.facts, (final.columns fact.id).given = none ∧
        fact.validUntil = none ∧ fact.invalidatedAt = none) ∧
      (∃ root ∈ final.graph.facts, root.supersedesId = none ∧ root.recordedAt = 10) ∧
      (final.stateAt ledgerContext 2 none 7 10).map Fact.id = [0] ∧
      (final.stateAt ledgerContext 1 none 7 20).map Fact.id = [1] ∧
      final.stateAt ledgerContext 2 none 7 20 = [] := by
  have runs : ((system ledgerContext).run ledgerStart assertsThenSupersedes).any (fun final =>
      (final.graph.facts.all fun fact =>
        decide ((final.columns fact.id).given = none ∧ fact.validUntil = none ∧
          fact.invalidatedAt = none)) &&
      (final.graph.facts.any fun root =>
        decide (root.supersedesId = none ∧ root.recordedAt = 10)) &&
      decide ((final.stateAt ledgerContext 2 none 7 10).map Fact.id = [0] ∧
        (final.stateAt ledgerContext 1 none 7 20).map Fact.id = [1] ∧
        final.stateAt ledgerContext 2 none 7 20 = [])) = true := by
    decide +kernel
  obtain ⟨final, ran, holds⟩ := (Option.any_eq_true _ _).mp runs
  rw [Bool.and_eq_true, Bool.and_eq_true, List.all_eq_true, List.any_eq_true] at holds
  simp only [decide_eq_true_eq] at holds
  exact ⟨final, ran, rfl, holds.1.1, holds.1.2, holds.2⟩

/-- What the second Principal reads for 15 before the supersede and after it. -/
theorem history_does_not_change_superseded :
    ∃ final last,
      (system ledgerContext).run ledgerStart (assertsThenSupersedes.take 1) = some final ∧
      (system ledgerContext).run final (assertsThenSupersedes.drop 1) = some last ∧
      (final.stateAt ledgerContext 2 none 7 15).map Fact.id = [0] ∧
      (last.stateAt ledgerContext 2 none 7 15).map Fact.id =
        (final.stateAt ledgerContext 2 none 7 15).map Fact.id := by
  have runs :
      ((system ledgerContext).run ledgerStart (assertsThenSupersedes.take 1)).any (fun final =>
        ((system ledgerContext).run final (assertsThenSupersedes.drop 1)).isSome &&
          decide ((final.stateAt ledgerContext 2 none 7 15).map Fact.id = [0])) = true := by
    decide +kernel
  obtain ⟨final, ran, holds⟩ := (Option.any_eq_true _ _).mp runs
  rw [Bool.and_eq_true, decide_eq_true_eq] at holds
  obtain ⟨last, ranOn⟩ := Option.isSome_iff_exists.mp holds.1
  have begins : ledgerStart.Begins := rfl
  have later : ∀ transaction ∈ assertsThenSupersedes.drop 1, 15 < transaction.now := by
    decide
  have same := (history_does_not_change begins ran 7 15).1 _ last later ranOn 2 none
  exact ⟨final, last, ran, ranOn, holds.2, same⟩

end FactLedger
end NextTime.Graph
