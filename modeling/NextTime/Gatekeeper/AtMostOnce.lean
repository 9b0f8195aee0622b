import NextTime.Gatekeeper.Durability
import NextTime.Library.Chronicle

/-!
At most one transport call for an action request. The argument follows a call
from the moment its transport was started: it still owns the reservation, or
it was refused and released its key, or its key holds a finished entry that the
file will also hold after a restart.
-/

namespace NextTime.Gatekeeper

variable {Params Value : Type} {gate : Gate Params Value} {label : GateLabel Params Value}

/-- A transport call may start when every earlier one for the key was refused
and gave its key back. -/
def startsOnce (key : String) (before : List (Observation Value)) (seen : Observation Value) :
    Prop :=
  ∀ call, seen = .invoked call key →
    ∀ earlier, .invoked earlier key ∈ before → .released earlier key .operationRefused ∈ before

/-- What an observer may see of a key whose call was cut off by a crash. -/
def unknownFor (key : String) (descriptor : IdempotencyDescriptor) : Observation Value → Prop
  | .reserveReturned _ other asked result =>
      other = key → result = if descriptor = asked then .unknown else .conflict
  | .lookupReturned _ other asked result =>
      other = key → result = if descriptor = asked then .unknown else .conflict
  | .invoked _ other => other ≠ key
  | .released _ other _ => other ≠ key

/-- The contract of the apply store for one action request id, over all runs. -/
structure AtMostOnceApply (gate : Gate Params Value) (key : String) : Prop where
  once : ∀ state, (gateSystem gate).Reachable state →
    Chronicle.Admissible (startsOnce key) state.history
  interrupted : ∀ state id call landed restarted labels final,
    (gateSystem gate).Reachable state → state.calls id = some call → call.key = key →
    call.phase = .transport → crash state landed = some restarted →
    (gateSystem gate).run restarted labels = some final →
    Chronicle.Extends (unknownFor key call.descriptor) state.history final.history

/-! ### Started calls are accounted for -/

def finished (entry : StoreEntryState Value) : Prop :=
  (∀ descriptor, entry ≠ .pending descriptor) ∧ ∀ descriptor, entry ≠ .notReceived descriptor

/-- The call has called the transport and still owns its key. -/
def InFlight (key : String) (state : GateState Value) (id : Nat) : Prop :=
  ∃ call, state.calls id = some call ∧ call.key = key ∧ call.phase.invoked = true

structure Accounted (key : String) (state : GateState Value) : Prop where
  coherent : Coherent state
  durable : Durable key state
  started : ∀ id, .invoked id key ∈ state.history →
    .released id key .operationRefused ∈ state.history ∨
      Retained key finished state ∨ InFlight key state id
  once : Chronicle.Admissible (startsOnce key) state.history

theorem Phase.invoked_durable {phase : Phase Value} (invoked : phase.invoked = true) :
    phase.durable = true ∧ phase.claim = .owner := by
  cases phase <;> first | exact ⟨rfl, rfl⟩ | cases invoked

theorem finished_of_orphaned {entry : StoreEntryState Value} {descriptor : IdempotencyDescriptor}
    (orphaned : entry = .orphaned descriptor) : finished entry := by
  subst orphaned
  exact ⟨nofun, nofun⟩

theorem LoadsAs.weaken {weak strong : StoreEntryState Value → Prop}
    {record : Option (StoredRecord Value)} (loads : LoadsAs strong record)
    (implies : ∀ entry, strong entry → weak entry) : LoadsAs weak record := by
  obtain ⟨entry, same, allowed⟩ := loads
  exact ⟨entry, same, implies entry allowed⟩

theorem Retained.weaken {key : String} {weak strong : StoreEntryState Value → Prop}
    {state : GateState Value} (retained : Retained key strong state)
    (implies : ∀ entry, strong entry → weak entry) : Retained key weak state :=
  { file := retained.file.weaken implies
    running := fun id snapshot running => (retained.running id snapshot running).weaken implies
    held := by
      intro map loaded
      obtain ⟨entry, same, allowed⟩ := retained.held map loaded
      exact ⟨entry, same, implies entry allowed⟩ }

/-- Recording the end of a durably reserved call leaves a finished entry in all
three places. -/
theorem Durable.retained_recorded {key : String} {state : GateState Value}
    (durable : Durable key state) {id : Nat} {call : Call Value} {map : StoreMap Value}
    {move : Move Value} {entry : StoreEntryState Value} (found : state.calls id = some call)
    (sameKey : call.key = key) (isDurable : call.phase.durable = true)
    (owner : call.phase.claim = .owner) (recorded : move.entry = some entry)
    (isFinished : finished entry) :
    Retained key finished (state.moved id call map move) := by
  have reported := durable.reported id call found sameKey isDurable
  rw [Call.claimed_owner owner] at reported
  obtain ⟨inFile, inWrite⟩ := reported
  have orphaned : ∀ {record : Option (StoredRecord Value)},
      record = some (.entry (.pending call.descriptor)) → LoadsAs finished record := by
    intro record same
    exact ⟨.orphaned call.descriptor, by rw [same]; rfl, finished_of_orphaned rfl⟩
  refine { file := orphaned inFile,
           running := fun writer snapshot running => orphaned (inWrite writer snapshot running),
           held := ?_ }
  intro newMap newLoaded
  obtain rfl : map.put call.key move.entry = newMap := by
    simpa [GateState.moved] using newLoaded
  exact ⟨entry, by rw [← sameKey, StoreMap.put_same, recorded], isFinished⟩

/-- The fate of a call that has called the transport, after one of its moves. -/
theorem invoked_move {key : String} {state : GateState Value} (coherent : Coherent state)
    (durable : Durable key state) {id : Nat} {call : Call Value} {map : StoreMap Value}
    {move : Move Value} (found : state.calls id = some call) (loaded : state.memory = .loaded map)
    (sameKey : call.key = key) (invoked : call.phase.invoked = true)
    (moves : CallMove gate id call (map call.key) move) :
    .released id key .operationRefused ∈ move.seen ∨
      Retained key finished (state.moved id call map move) ∨ move.phase.invoked = true := by
  obtain ⟨isDurable, owner⟩ := Phase.invoked_durable invoked
  have pending := coherent.owned map loaded id call found owner
  generalize held : map call.key = entry at moves
  cases moves with
  | frees cause stored atPhase =>
      rw [atPhase] at invoked
      cases cause with
      | operationRefused => exact .inl (by simp [sameKey])
      | definitionMismatch | credentialUnresolved => cases invoked
  | freesNothing cause _ atPhase notPending =>
      exact absurd (held ▸ pending) (notPending call.descriptor)
  | recordsFailure error _ atPhase =>
      exact .inr (.inl (durable.retained_recorded found sameKey isDurable owner rfl
        ⟨nofun, nofun⟩))
  | recordsResult result _ atPhase =>
      exact .inr (.inl (durable.retained_recorded found sameKey isDurable owner rfl
        ⟨nofun, nofun⟩))
  | transportEnds _ outcome atPhase =>
      refine .inr (.inr ?_)
      cases outcome with
      | succeeded data =>
          simp only [transportPhase]
          split <;> rfl
      | refused | failed => rfl
  | settles _ _ idle _ =>
      rw [owner] at idle
      cases idle
  | reserves atPhase | reserveRefused _ atPhase | closes atPhase | finds _ atPhase
  | reservationWritten _ atPhase | reservationLost _ atPhase | closeWritten _ atPhase
  | closeLost _ atPhase | invokes _ atPhase | credentialFails _ atPhase =>
      rw [atPhase] at invoked
      cases invoked

private theorem seen_invoked {id : Nat} {call : Call Value}
    {entry : Option (StoreEntryState Value)} {move : Move Value}
    (moves : CallMove gate id call entry move) {other : Nat} {key : String}
    (seen : .invoked other key ∈ move.seen) :
    other = id ∧ call.key = key ∧ call.phase = .credential ∧ move.phase = .transport ∧
      move.seen = [.invoked id call.key] := by
  cases moves with
  | invokes _ atPhase =>
      have same := List.mem_singleton.mp seen
      cases same
      exact ⟨rfl, rfl, atPhase, rfl, rfl⟩
  | reserves | closes | freesNothing | recordsFailure | recordsResult | reservationLost
  | closeLost | settles | credentialFails | transportEnds => cases seen
  | reserveRefused | finds | frees | reservationWritten | closeWritten =>
      have same := List.mem_singleton.mp seen
      cases same

theorem seen_short {id : Nat} {call : Call Value}
    {entry : Option (StoreEntryState Value)} {move : Move Value}
    (moves : CallMove gate id call entry move) :
    move.seen = [] ∨ ∃ observation, move.seen = [observation] := by
  cases moves <;> first | exact .inl rfl | exact .inr ⟨_, rfl⟩

/-- No call for the key owns it and none is in flight next to a finished entry. -/
private theorem finished_unowned {key : String} {state : GateState Value}
    (retained : Retained key finished state) (coherent : Coherent state) {id : Nat}
    {call : Call Value} (found : state.calls id = some call) (sameKey : call.key = key)
    (owner : call.phase.claim = .owner) : False := by
  have past : call.phase.beforeStore = false := by
    cases phase : call.phase <;> rw [phase] at owner <;> first | rfl | cases owner
  obtain ⟨map, loaded⟩ := coherent.loaded_of_call found past
  obtain ⟨entry, holds, isFinished⟩ := retained.held map loaded
  have pending := coherent.owned map loaded id call found owner
  rw [sameKey, holds, Option.some.injEq] at pending
  exact isFinished.1 _ pending

theorem Accounted.moved {key : String} {state : GateState Value} (accounted : Accounted key state)
    (own : ownMember key = true) {id : Nat} {call : Call Value} {map : StoreMap Value}
    {move : Move Value} (found : state.calls id = some call) (loaded : state.memory = .loaded map)
    (moves : CallMove gate id call (map call.key) move)
    (step : StepCase gate state label (state.moved id call map move)) :
    Accounted key (state.moved id call map move) := by
  have coherent := accounted.coherent
  have nextCall : (state.moved id call map move).calls id =
      some { call with phase := move.phase } := by
    simp [GateState.moved]
  refine
    { coherent := step.coherent coherent
      durable := step.durable own coherent accounted.durable
      started := ?_
      once := ?_ }
  · intro other invoked
    rcases List.mem_append.mp invoked with old | new
    · rcases accounted.started other old with released | retained | ⟨held, at_, sameKey, flying⟩
      · exact .inl (List.mem_append_left _ released)
      · have confirmed := retained.closesConfirmed coherent (fun _ allowed => allowed.2)
        exact .inr (.inl (retained.step own (fun _ allowed => allowed.1) coherent confirmed step))
      · by_cases same : other = id
        · subst other
          rw [found, Option.some.injEq] at at_
          subst held
          rcases invoked_move coherent accounted.durable found loaded sameKey flying moves with
            released | retained | stillFlying
          · exact .inl (List.mem_append_right _ released)
          · exact .inr (.inl retained)
          · exact .inr (.inr ⟨_, nextCall, sameKey, stillFlying⟩)
        · refine .inr (.inr ⟨held, ?_, sameKey, flying⟩)
          simpa [GateState.moved, same] using at_
    · obtain ⟨rfl, sameKey, _, atTransport, _⟩ := seen_invoked moves new
      exact .inr (.inr ⟨_, nextCall, sameKey, by rw [atTransport]; rfl⟩)
  · change Chronicle.Admissible (startsOnce key) (state.history ++ move.seen)
    rcases seen_short moves with nothing | ⟨observation, single⟩
    · rw [nothing, List.append_nil]
      exact accounted.once
    · rw [single]
      refine Chronicle.admissible_append_one accounted.once ?_
      intro other isInvoked earlier before
      have member : .invoked other key ∈ move.seen := by rw [single, isInvoked]; simp
      obtain ⟨rfl, sameKey, atCredential, _, _⟩ := seen_invoked moves member
      have owner : call.phase.claim = .owner := by rw [atCredential]; rfl
      rcases accounted.started earlier before with released | retained | ⟨held, at_, same, flying⟩
      · exact released
      · exact (finished_unowned retained coherent found sameKey owner).elim
      · -- Two owners of one key are one call, and this one has not called the transport yet.
        have heldOwner := (Phase.invoked_durable flying).2
        have identical := coherent.claimUnique earlier other held call at_ found
          (by simp [heldOwner]) (by simp [owner]) (same.trans sameKey.symm)
        subst identical
        rw [found, Option.some.injEq] at at_
        rw [← at_, atCredential] at flying
        cases flying

theorem Accounted.crashed (gate : Gate Params Value) {key : String} {state : GateState Value}
    (accounted : Accounted key state) (own : ownMember key = true) (landed : Bool) :
    Accounted key (state.restarted landed) := by
  have step : StepCase gate state (.crash landed) (state.restarted landed) := .crashed landed
  have coherent := accounted.coherent
  refine
    { coherent := step.coherent coherent
      durable := step.durable own coherent accounted.durable
      started := ?_
      once := accounted.once }
  intro other old
  rcases accounted.started other old with released | retained | ⟨held, at_, sameKey, flying⟩
  · exact .inl released
  · have confirmed := retained.closesConfirmed coherent (fun _ allowed => allowed.2)
    exact .inr (.inl (retained.step own (fun _ allowed => allowed.1) coherent confirmed step))
  · refine .inr (.inl ?_)
    obtain ⟨isDurable, owner⟩ := Phase.invoked_durable flying
    have retained := accounted.durable.retained_restarted at_ sameKey isDurable owner landed
    exact retained.weaken fun _ orphaned => finished_of_orphaned orphaned

/-- A step that adds nothing to the history and leaves calls in flight where they are. -/
private theorem Accounted.quiet {key : String} {state next : GateState Value}
    (accounted : Accounted key state) (own : ownMember key = true)
    (step : StepCase gate state label next) (history : next.history = state.history)
    (flying : ∀ id, InFlight key state id → InFlight key next id) : Accounted key next := by
  have coherent := accounted.coherent
  refine
    { coherent := step.coherent coherent
      durable := step.durable own coherent accounted.durable
      started := ?_
      once := history ▸ accounted.once }
  intro id invoked
  rw [history] at invoked ⊢
  rcases accounted.started id invoked with released | retained | inFlight
  · exact .inl released
  · have confirmed := retained.closesConfirmed coherent (fun _ allowed => allowed.2)
    exact .inr (.inl (retained.step own (fun _ allowed => allowed.1) coherent confirmed step))
  · exact .inr (.inr (flying id inFlight))

theorem Phase.invoked_writeOver {phase : Phase Value} (progress : WriteProgress)
    (invoked : phase.invoked = true) : phase.writeOver progress = phase := by
  cases phase <;> first | rfl | cases invoked

theorem StepCase.accounted {key : String} (own : ownMember key = true)
    {state next : GateState Value} (accounted : Accounted key state)
    (step : StepCase gate state label next) : Accounted key next := by
  have coherent := accounted.coherent
  have original := step
  cases step with
  | admitted call arrives =>
      refine accounted.quiet own original rfl ?_
      rintro id ⟨held, at_, flying⟩
      refine ⟨held, ?_, flying⟩
      have different : id ≠ state.nextCall := by
        intro same
        rw [same, coherent.fresh _ (Nat.le_refl _)] at at_
        cases at_
      simpa [GateState.enrol, GateState.setCall, different] using at_
  | loaded map loading read =>
      exact accounted.quiet own original rfl (fun _ held => held)
  | broke loading =>
      exact accounted.quiet own original rfl (fun _ held => held)
  | rejected id call found broken =>
      refine accounted.quiet own original rfl ?_
      rintro other ⟨held, at_, sameKey, flying⟩
      refine ⟨held, ?_, sameKey, flying⟩
      have past : held.phase.beforeStore = false := by
        cases phase : held.phase <;> rw [phase] at flying <;> first | rfl | cases flying
      obtain ⟨map, loaded⟩ := coherent.loaded_of_call at_ past
      rw [loaded] at broken
      cases broken
  | moved id call map move found loaded moves entered =>
      exact accounted.moved own found loaded moves original
  | writeBegan id rest map idle queued loaded =>
      exact accounted.quiet own original rfl (fun _ held => held)
  | writeEnded id snapshot call landed reported running found honest =>
      refine accounted.quiet own original rfl ?_
      rintro other ⟨held, at_, sameKey, flying⟩
      refine ⟨held, ?_, sameKey, flying⟩
      by_cases same : other = id
      · subst other
        rw [found, Option.some.injEq] at at_
        subst held
        simp [GateState.written, GateState.setPhase, GateState.setCall,
          Phase.invoked_writeOver _ flying]
      · simpa [GateState.written, GateState.setPhase, GateState.setCall, same] using at_
  | crashed landed => exact accounted.crashed gate own landed

theorem Started.accounted {state : GateState Value} (started : Started state) (key : String) :
    Accounted key state :=
  { coherent := started.coherent
    durable := started.durable key
    started := by
      intro id invoked
      rw [started.history] at invoked
      cases invoked
    once := started.history ▸ Chronicle.admissible_nil }

theorem accounted_of_reachable {key : String} (own : ownMember key = true)
    {state : GateState Value} (reached : (gateSystem gate).Reachable state) :
    Accounted key state :=
  (gateSystem gate).invariant (fun _ started => Started.accounted started key)
    (fun _ _ _ accounted moved =>
      (step_cases accounted.coherent moved).accounted own accounted) reached

/-! ### A call cut off by a crash -/

structure CutOff (key : String) (descriptor : IdempotencyDescriptor)
    (seen : List (Observation Value)) (state : GateState Value) : Prop where
  coherent : Coherent state
  retained : Retained key (· = .orphaned descriptor) state
  answers : Chronicle.Extends (unknownFor key descriptor) seen state.history

private theorem orphaned_move {key : String} {descriptor : IdempotencyDescriptor}
    {state : GateState Value} (coherent : Coherent state)
    (retained : Retained key (· = .orphaned descriptor) state) {id : Nat} {call : Call Value}
    {map : StoreMap Value} {move : Move Value} (found : state.calls id = some call)
    (loaded : state.memory = .loaded map)
    (moves : CallMove gate id call (map call.key) move) :
    ∀ observation ∈ move.seen, unknownFor key descriptor observation := by
  have unowned : call.key = key → call.phase.claim ≠ .owner := by
    intro sameKey owner
    exact finished_unowned (retained.weaken (fun _ same => finished_of_orphaned same))
      coherent found sameKey owner
  have holds : call.key = key → map call.key = some (.orphaned descriptor) := by
    intro sameKey
    obtain ⟨entry, same, rfl⟩ := retained.held map loaded
    rw [sameKey, same]
  generalize held : map call.key = entry at moves
  intro observation seen
  cases moves with
  | reserves | closes | freesNothing | recordsFailure | recordsResult | reservationLost
  | closeLost | settles | credentialFails | transportEnds => cases seen
  | reserveRefused existing atPhase =>
      obtain rfl := List.mem_singleton.mp seen
      intro sameKey
      obtain rfl : existing = .orphaned descriptor :=
        Option.some.inj (held.symm.trans (holds sameKey))
      rfl
  | finds existing atPhase =>
      obtain rfl := List.mem_singleton.mp seen
      intro sameKey
      obtain rfl : existing = .orphaned descriptor :=
        Option.some.inj (held.symm.trans (holds sameKey))
      rfl
  | frees cause stored atPhase =>
      obtain rfl := List.mem_singleton.mp seen
      intro sameKey
      exact unowned sameKey (by rw [atPhase]; rfl)
  | reservationWritten _ atPhase =>
      obtain rfl := List.mem_singleton.mp seen
      intro sameKey
      exact absurd (by rw [atPhase]; rfl) (unowned sameKey)
  | closeWritten _ atPhase =>
      obtain rfl := List.mem_singleton.mp seen
      intro sameKey
      have closing := coherent.closing map loaded id call found (by rw [atPhase]; rfl)
      rw [holds sameKey] at closing
      cases closing
  | invokes _ atPhase =>
      obtain rfl := List.mem_singleton.mp seen
      intro sameKey
      exact unowned sameKey (by rw [atPhase]; rfl)

theorem StepCase.cutOff {key : String} {descriptor : IdempotencyDescriptor}
    {seen : List (Observation Value)} (own : ownMember key = true)
    {state next : GateState Value} (cutOff : CutOff key descriptor seen state)
    (step : StepCase gate state label next) : CutOff key descriptor seen next := by
  have coherent := cutOff.coherent
  have settled : ∀ entry : StoreEntryState Value, entry = .orphaned descriptor →
      ∀ other, entry ≠ .pending other :=
    fun _ orphaned => (finished_of_orphaned orphaned).1
  have confirmed := cutOff.retained.closesConfirmed coherent
    (fun _ orphaned => (finished_of_orphaned orphaned).2)
  refine
    { coherent := step.coherent coherent
      retained := cutOff.retained.step own settled coherent confirmed step
      answers := ?_ }
  cases step with
  | moved id call map move found loaded moves entered =>
      exact cutOff.answers.append
        (orphaned_move coherent cutOff.retained found loaded moves)
  | admitted | loaded | broke | rejected | writeBegan | writeEnded | crashed =>
      exact cutOff.answers

/-- A call in flight at a crash: from then on its key is answered unknown, or
conflict for another call, and its transport is never called again. -/
theorem answers_after_crash {key : String} (own : ownMember key = true)
    {state restarted final : GateState Value} {id : Nat} {call : Call Value} {landed : Bool}
    {labels : List (GateLabel Params Value)} (reached : (gateSystem gate).Reachable state)
    (found : state.calls id = some call) (sameKey : call.key = key)
    (atTransport : call.phase = .transport) (crashed : crash state landed = some restarted)
    (ran : (gateSystem gate).run restarted labels = some final) :
    Chronicle.Extends (unknownFor key call.descriptor) state.history final.history := by
  have accounted := accounted_of_reachable own reached
  have isDurable : call.phase.durable = true := by rw [atTransport]; rfl
  have owner : call.phase.claim = .owner := by rw [atTransport]; rfl
  obtain rfl : state.restarted landed = restarted := Option.some.inj crashed
  have begun : CutOff key call.descriptor state.history (state.restarted landed) :=
    { coherent := coherent_restarted state landed
      retained := accounted.durable.retained_restarted found sameKey isDurable owner landed
      answers := Chronicle.Extends.refl _ state.history }
  exact ((gateSystem gate).run_preserves
    (fun _ _ _ cutOff moved => (step_cases cutOff.coherent moved).cutOff own cutOff)
    begun ran).answers

/-! ### The key the file cannot carry -/

def oneOperationGate : Gate Params Value :=
  { manifest := [{ name := "restart", mode := .execute, digest := "d" }]
    hashIdempotencyParams := fun _ => "h"
    paramsValid := fun _ _ => true
    toObservedFacts := fun _ data => some data }

def freshProcess : GateState Value :=
  { file := .missing
    memory := .loading
    calls := fun _ => none
    writeChain := []
    writing := none
    nextCall := 0
    history := [] }

theorem freshProcess_started : Started (freshProcess : GateState Value) :=
  { memory := rfl
    calls := fun _ => rfl
    writeChain := rfl
    writing := rfl
    history := rfl }

section Prototype

variable [Inhabited Params]

def prototypeArguments : ApplyArguments Params :=
  { name := "restart"
    params := default
    actionRequestId := "__proto__"
    ctx := { onBehalfOf := none, operationDigest := none } }

/-- An apply whose transport is in flight when the process crashes, the restart,
and the same apply again. -/
def prototypeRun : List (GateLabel Params Value) :=
  [.loadEnds, .apply prototypeArguments, .enterStore 0, .writeBegins, .writeEnds true true,
    .flushReturns 0, .credentialEnds 0 true, .crash false,
    .loadEnds, .apply prototypeArguments, .enterStore 1, .writeBegins, .writeEnds true true,
    .flushReturns 1, .credentialEnds 1 true]

def prototypeHistory : List (Observation Value) :=
  [.reserveReturned 0 "__proto__" ⟨"restart", "h", none⟩ .reserved, .invoked 0 "__proto__",
    .reserveReturned 1 "__proto__" ⟨"restart", "h", none⟩ .reserved, .invoked 1 "__proto__"]

private theorem prototypeRun_history :
    ((gateSystem (oneOperationGate : Gate Params Value)).run freshProcess prototypeRun).map
      (·.history) = some prototypeHistory := rfl

/-- The crashed call is forgotten: the same id calls the transport a second time. -/
theorem prototype_applied_twice :
    ¬ AtMostOnceApply (oneOperationGate : Gate Params Value) "__proto__" := by
  intro contract
  have seen :
      ((gateSystem (oneOperationGate : Gate Params Value)).run freshProcess prototypeRun).map
        (·.history) = some prototypeHistory := prototypeRun_history
  obtain ⟨final, ran, history⟩ := Option.map_eq_some_iff.mp seen
  have reached : (gateSystem (oneOperationGate : Gate Params Value)).Reachable final :=
    ⟨freshProcess, prototypeRun, freshProcess_started, ran⟩
  have admissible := contract.once final reached
  rw [history] at admissible
  have released := admissible
    [.reserveReturned 0 "__proto__" ⟨"restart", "h", none⟩ .reserved, .invoked 0 "__proto__",
      .reserveReturned 1 "__proto__" ⟨"restart", "h", none⟩ .reserved]
    (.invoked 1 "__proto__") [] rfl 1 rfl 0 (by simp)
  simp at released

end Prototype

/-- The apply contract holds of an action request id, on every gate and over
every run, exactly when the id is a name the snapshot object can carry. -/
theorem applyAtMostOnce_iff [Inhabited Params] (key : String) :
    (∀ gate : Gate Params Value, AtMostOnceApply gate key) ↔ key ≠ "__proto__" := by
  constructor
  · rintro contract rfl
    exact prototype_applied_twice (contract oneOperationGate)
  · intro different gate
    have own := (ownMember_iff key).mpr different
    exact
      { once := fun _ reached => (accounted_of_reachable own reached).once
        interrupted := fun _ _ _ _ _ _ _ reached found sameKey atTransport crashed ran =>
          answers_after_crash own reached found sameKey atTransport crashed ran }

theorem applyAtMostOnce_fails_on_prototype :
    ¬ ∀ (gate : Gate Unit Unit) (key : String), AtMostOnceApply gate key :=
  fun contract => prototype_applied_twice (contract oneOperationGate "__proto__")

end NextTime.Gatekeeper
