import NextTime.Gatekeeper.AtMostOnce

/-!
A key that was answered absent is never reserved again, in the runs in which no
lookup answers from a close that is still to be written. A close can be taken
back as long as its write has not succeeded, so an answer given from memory in
that window outlives the close it was read from.
-/

namespace NextTime.Gatekeeper

variable {Params Value : Type} {gate : Gate Params Value} {label : GateLabel Params Value}

/-- After an answer of absent the key is neither reserved nor applied. -/
def closedForGood (key : String) (before : List (Observation Value)) (seen : Observation Value) :
    Prop :=
  (∃ call asked, .lookupReturned call key asked .absent ∈ before) →
    (∀ call asked, seen ≠ .reserveReturned call key asked .reserved) ∧
      ∀ call, seen ≠ .invoked call key

/-- A close of the key for this descriptor whose write has not succeeded. -/
def Call.unconfirmedClose (call : Call Value) (key : String)
    (descriptor : IdempotencyDescriptor) : Bool :=
  call.key == key && call.descriptor == descriptor &&
    match call.phase with
    | .lookupFlush .waiting | .lookupFlush .failed => true
    | _ => false

/-- The label runs the store operation of a lookup of the key while the close it
would answer from is unconfirmed. -/
def answersEarly (key : String) (state : GateState Value) : GateLabel Params Value → Bool
  | .enterStore id =>
      match state.calls id with
      | none => false
      | some call =>
          call.key == key && (call.phase matches .lookup) &&
            (List.range state.nextCall).any fun closer =>
              match state.calls closer with
              | none => false
              | some closing => closing.unconfirmedClose key call.descriptor
  | _ => false

/-! ### Confirmed closes -/

theorem Durable.retained_confirmed {key : String} {state : GateState Value}
    (durable : Durable key state) (coherent : Coherent state) {id : Nat} {call : Call Value}
    (found : state.calls id = some call) (sameKey : call.key = key)
    (confirmed : call.phase = .lookupFlush .succeeded) :
    Retained key (· = .notReceived call.descriptor) state := by
  have closer : call.phase.claim = .closer := by rw [confirmed]; rfl
  have claimed : call.claimed = some (.notReceived call.descriptor) := by
    simp only [Call.claimed, closer]
  have reported := durable.reported id call found sameKey (by rw [confirmed]; rfl)
  rw [claimed] at reported
  have loads : ∀ {record : Option (StoredRecord Value)},
      record = some (.entry (.notReceived call.descriptor)) →
        LoadsAs (· = .notReceived call.descriptor) record := by
    intro record same
    exact ⟨.notReceived call.descriptor, by rw [same]; rfl, rfl⟩
  refine { file := loads reported.1,
           running := fun writer snapshot running => loads (reported.2 writer snapshot running),
           held := ?_ }
  intro map loaded
  exact ⟨_, sameKey ▸ coherent.closing map loaded id call found closer, rfl⟩

/-- A process that has not loaded its map is not writing. -/
theorem Coherent.idle_unloaded {state : GateState Value} (coherent : Coherent state)
    (never : ∀ map, state.memory ≠ .loaded map) : state.writing = none := by
  cases running : state.writing with
  | none => rfl
  | some write =>
      have queued : write.1 ∈ state.writeQueue := by simp [GateState.writeQueue, running]
      obtain ⟨call, found, waits⟩ := coherent.queueWaits write.1 queued
      rw [(Phase.beforeStore_claim (coherent.unloaded never write.1 call found)).2] at waits
      cases waits

/-- An entry read as never received was there before the move, or the move is
the close that puts it there. -/
theorem CallMove.closed_origin {id : Nat} {call : Call Value}
    {entry : Option (StoreEntryState Value)} {move : Move Value}
    {descriptor : IdempotencyDescriptor} (moves : CallMove gate id call entry move)
    (closed : move.entry = some (.notReceived descriptor)) :
    move.phase = .lookupFlush .waiting ∨
      (entry = some (.notReceived descriptor) ∧
        ∀ write, call.phase = .lookupFlush write → write = .succeeded) := by
  cases moves with
  | closes atPhase => exact .inl rfl
  | closeWritten _ atPhase =>
      refine .inr ⟨closed, ?_⟩
      intro write other
      exact (Phase.lookupFlush.inj (atPhase.symm.trans other)).symm
  | settles _ _ idle _ =>
      refine .inr ⟨closed, ?_⟩
      intro write other
      rw [other] at idle
      cases idle
  | reserveRefused _ atPhase | finds _ atPhase | freesNothing _ _ atPhase
  | reservationWritten _ atPhase | invokes _ atPhase | credentialFails _ atPhase
  | transportEnds _ _ atPhase =>
      refine .inr ⟨closed, ?_⟩
      intro write other
      exact nomatch atPhase.symm.trans other
  | reserves | frees | recordsFailure | recordsResult | reservationLost | closeLost =>
      cases closed

/-- A move into an unconfirmed close takes a free key. -/
theorem CallMove.closes_free {id : Nat} {call : Call Value}
    {entry : Option (StoreEntryState Value)} {move : Move Value} {write : WriteProgress}
    (moves : CallMove gate id call entry move) (closing : move.phase = .lookupFlush write) :
    entry = none := by
  cases moves with
  | closes => rfl
  | reservationWritten =>
      simp only [reservedPhase] at closing
      split at closing <;> cases closing
  | transportEnds _ outcome =>
      cases outcome with
      | succeeded data =>
          simp only [transportPhase] at closing
          split at closing <;> cases closing
      | refused | failed => cases closing
  | reserves | reserveRefused | finds | frees | freesNothing | recordsFailure | recordsResult
  | reservationLost | closeWritten | closeLost | settles | invokes | credentialFails =>
      cases closing

/-- Closes stay confirmed while the key holds an entry that survives restarts. -/
theorem ClosesConfirmed.step {key : String} {state next : GateState Value}
    {allowed : StoreEntryState Value → Prop} (confirmed : ClosesConfirmed key state)
    (retained : Retained key allowed state) (coherent : Coherent state)
    (step : StepCase gate state label next) : ClosesConfirmed key next := by
  cases step with
  | admitted call arrives =>
      intro id held write at_ sameKey atPhase
      by_cases same : id = state.nextCall
      · have heldSame : call = held := by
          simpa [GateState.enrol, GateState.setCall, same] using at_
        rw [heldSame, atPhase] at arrives
        cases arrives
      · exact confirmed id held write
          (by simpa [GateState.enrol, GateState.setCall, same] using at_) sameKey atPhase
  | loaded map loading read => exact confirmed
  | broke loading => exact confirmed
  | rejected id call found broken =>
      intro other held write at_ sameKey atPhase
      by_cases same : other = id
      · have heldSame : { call with phase := .answered .storeFailed } = held := by
          simpa [GateState.setPhase, GateState.setCall, same] using at_
        rw [← heldSame] at atPhase
        cases atPhase
      · exact confirmed other held write
          (by simpa [GateState.setPhase, GateState.setCall, same] using at_) sameKey atPhase
  | moved id call map move found loaded moves entered =>
      intro other held write at_ sameKey atPhase
      by_cases same : other = id
      · have heldSame : { call with phase := move.phase } = held := by
          simpa [GateState.moved, same] using at_
        subst heldSame
        obtain ⟨entry, holds, _⟩ := retained.held map loaded
        have free := moves.closes_free atPhase
        rw [sameKey, holds] at free
        cases free
      · exact confirmed other held write (by simpa [GateState.moved, same] using at_)
          sameKey atPhase
  | writeBegan id rest map idle queued loaded => exact confirmed
  | writeEnded id snapshot call landed reported running found honest =>
      intro other held write at_ sameKey atPhase
      rcases written_call at_ with ⟨rfl, rfl⟩ | ⟨_, old⟩
      · -- The write of a confirmed close is over, so this call cannot be the one writing.
        have queued : other ∈ state.writeQueue := by simp [GateState.writeQueue, running]
        obtain ⟨waiting, atWriter, waits⟩ := coherent.queueWaits other queued
        rw [found, Option.some.injEq] at atWriter
        subst atWriter
        have closing : ∃ before, call.phase = .lookupFlush before := by
          cases phase : call.phase <;> rw [phase] at atPhase <;>
            first | exact ⟨_, rfl⟩ | cases atPhase
        obtain ⟨before, atBefore⟩ := closing
        rw [atBefore, confirmed other call before found sameKey atBefore] at waits
        cases waits
      · exact confirmed other held write old sameKey atPhase
  | crashed landed =>
      intro id call write found
      cases found

/-! ### The invariant -/

structure Sealed (key : String) (state : GateState Value) : Prop where
  coherent : Coherent state
  durable : Durable key state
  known : ∀ map descriptor, state.memory = .loaded map →
    map key = some (.notReceived descriptor) → ClosesConfirmed key state →
    Retained key (· = .notReceived descriptor) state
  closed : (∃ call asked, .lookupReturned call key asked .absent ∈ state.history) →
    (∃ descriptor, Retained key (· = .notReceived descriptor) state) ∧ ClosesConfirmed key state
  once : Chronicle.Admissible (closedForGood key) state.history

private theorem notReceived_settled {descriptor : IdempotencyDescriptor}
    (entry : StoreEntryState Value) (same : entry = .notReceived descriptor) :
    ∀ other, entry ≠ .pending other := by
  subst same
  exact nofun

theorem Sealed.known_moved {key : String} {state : GateState Value} (isSealed : Sealed key state)
    (own : ownMember key = true) {id : Nat} {call : Call Value} {map : StoreMap Value}
    {move : Move Value} {descriptor : IdempotencyDescriptor} (found : state.calls id = some call)
    (loaded : state.memory = .loaded map) (moves : CallMove gate id call (map call.key) move)
    (step : StepCase gate state label (state.moved id call map move))
    (holds : map.put call.key move.entry key = some (.notReceived descriptor))
    (confirmed : ClosesConfirmed key (state.moved id call map move)) :
    Retained key (· = .notReceived descriptor) (state.moved id call map move) := by
  have others : ∀ other held write, other ≠ id → state.calls other = some held →
      held.key = key → held.phase = .lookupFlush write → write = .succeeded := by
    intro other held write different at_
    exact confirmed other held write (by simpa [GateState.moved, different] using at_)
  have before : map key = some (.notReceived descriptor) ∧ ClosesConfirmed key state := by
    by_cases same : key = call.key
    · rw [same, StoreMap.put_same] at holds
      rcases moves.closed_origin holds with closing | ⟨old, isConfirmed⟩
      · have impossible := confirmed id { call with phase := move.phase } .waiting
          (by simp [GateState.moved]) same.symm closing
        cases impossible
      · refine ⟨same ▸ old, ?_⟩
        intro other held write at_ sameKey atPhase
        by_cases sameCall : other = id
        · subst other
          rw [found, Option.some.injEq] at at_
          exact isConfirmed write (at_ ▸ atPhase)
        · exact others other held write sameCall at_ sameKey atPhase
    · rw [map.put_other move.entry same] at holds
      refine ⟨holds, ?_⟩
      intro other held write at_ sameKey atPhase
      by_cases sameCall : other = id
      · subst other
        rw [found, Option.some.injEq] at at_
        exact absurd (sameKey.symm.trans (by rw [at_])) same
      · exact others other held write sameCall at_ sameKey atPhase
  exact (isSealed.known map descriptor loaded before.1 before.2).step own notReceived_settled
    isSealed.coherent before.2 step

theorem Sealed.known_written {key : String} {state : GateState Value} (isSealed : Sealed key state)
    (own : ownMember key = true) {id : Nat} {snapshot : FileEntries Value} {call : Call Value}
    {landed reported : Bool} {map : StoreMap Value} {descriptor : IdempotencyDescriptor}
    (found : state.calls id = some call) (loaded : state.memory = .loaded map)
    (step : StepCase gate state label (state.written id snapshot call landed reported))
    (holds : map key = some (.notReceived descriptor))
    (confirmed : ClosesConfirmed key (state.written id snapshot call landed reported)) :
    Retained key (· = .notReceived descriptor)
      (state.written id snapshot call landed reported) := by
  have coherentNext := step.coherent isSealed.coherent
  have durableNext := step.durable own isSealed.coherent isSealed.durable
  by_cases writer : call.key = key ∧ ∃ write, call.phase = .lookupFlush write
  · -- The write that just ended is the close itself, and it succeeded.
    obtain ⟨sameKey, write, atPhase⟩ := writer
    have nextCall : (state.written id snapshot call landed reported).calls id =
        some { call with
          phase := call.phase.writeOver (if reported then .succeeded else .failed) } := by
      simp [GateState.written, GateState.setPhase, GateState.setCall]
    have nextPhase : call.phase.writeOver (if reported then .succeeded else .failed) =
        .lookupFlush (if reported then .succeeded else .failed) := by
      rw [atPhase]
      rfl
    have succeeded := confirmed id _ _ nextCall sameKey nextPhase
    have retained := durableNext.retained_confirmed coherentNext nextCall sameKey
      (nextPhase.trans (by rw [succeeded]))
    obtain ⟨entry, same, rfl⟩ := retained.held map loaded
    rw [holds, Option.some.injEq, StoreEntryState.notReceived.injEq] at same
    rw [same]
    exact retained
  · have before : ClosesConfirmed key state := by
      intro other held write at_ sameKey atPhase
      by_cases sameCall : other = id
      · subst other
        rw [found, Option.some.injEq] at at_
        exact absurd ⟨at_ ▸ sameKey, write, at_ ▸ atPhase⟩ writer
      · refine confirmed other held write ?_ sameKey atPhase
        simpa [GateState.written, GateState.setPhase, GateState.setCall, sameCall] using at_
    exact (isSealed.known map descriptor loaded holds before).step own notReceived_settled
      isSealed.coherent before step

theorem Sealed.known_step {key : String} {state next : GateState Value}
    (isSealed : Sealed key state) (own : ownMember key = true)
    (step : StepCase gate state label next) :
    ∀ map descriptor, next.memory = .loaded map → map key = some (.notReceived descriptor) →
      ClosesConfirmed key next → Retained key (· = .notReceived descriptor) next := by
  have coherent := isSealed.coherent
  have original := step
  intro map descriptor nextLoaded holds confirmed
  cases step with
  | admitted call arrives =>
      have before : ClosesConfirmed key state := by
        intro id held write at_ sameKey atPhase
        have different : id ≠ state.nextCall := by
          intro same
          rw [same, coherent.fresh _ (Nat.le_refl _)] at at_
          cases at_
        exact confirmed id held write
          (by simpa [GateState.enrol, GateState.setCall, different] using at_) sameKey atPhase
      exact (isSealed.known map descriptor nextLoaded holds before).step own notReceived_settled
        coherent before original
  | loaded fresh loading read =>
      have never : ∀ other, state.memory ≠ .loaded other := by
        intro other same
        rw [loading] at same
        cases same
      obtain rfl : fresh = map := by simpa [GateState.setMap] using nextLoaded
      refine { file := ⟨_, (read key).symm.trans holds, rfl⟩, running := ?_, held := ?_ }
      · intro id snapshot running
        have idle : (state.setMap fresh).writing = none := coherent.idle_unloaded never
        rw [idle] at running
        cases running
      · intro other same
        obtain rfl : fresh = other := by simpa [GateState.setMap] using same
        exact ⟨_, holds, rfl⟩
  | broke loading => cases nextLoaded
  | rejected id call found broken =>
      have same : state.memory = .loaded map := nextLoaded
      rw [broken] at same
      cases same
  | moved id call old move found loaded moves entered =>
      obtain rfl : old.put call.key move.entry = map := by
        simpa [GateState.moved] using nextLoaded
      exact isSealed.known_moved own found loaded moves original holds confirmed
  | writeBegan id rest old idle queued loaded =>
      exact (isSealed.known map descriptor nextLoaded holds confirmed).step own
        notReceived_settled coherent confirmed original
  | writeEnded id snapshot call landed reported running found honest =>
      exact isSealed.known_written own found nextLoaded original holds confirmed
  | crashed landed => cases nextLoaded

/-- A lookup that answers absent from memory, and not early, reads a confirmed close. -/
private theorem confirmed_of_not_early {key : String} {state : GateState Value}
    (coherent : Coherent state) {id : Nat} {call : Call Value} {map : StoreMap Value}
    (found : state.calls id = some call) (loaded : state.memory = .loaded map)
    (sameKey : call.key = key) (atLookup : call.phase = .lookup)
    (holds : map key = some (.notReceived call.descriptor))
    (notEarly : answersEarly key state (.enterStore id : GateLabel Params Value) = false) :
    ClosesConfirmed key state := by
  intro closer closing write at_ closerKey atPhase
  by_contra unconfirmed
  have bounded : closer < state.nextCall := by
    by_contra late
    rw [coherent.fresh closer (Nat.le_of_not_lt late)] at at_
    cases at_
  have sameDescriptor : closing.descriptor = call.descriptor := by
    have closed := coherent.closing map loaded closer closing at_ (by rw [atPhase]; rfl)
    rw [closerKey, holds, Option.some.injEq, StoreEntryState.notReceived.injEq] at closed
    exact closed.symm
  have isUnconfirmed : closing.unconfirmedClose key call.descriptor = true := by
    simp only [Call.unconfirmedClose, closerKey, sameDescriptor, beq_self_eq_true, Bool.true_and,
      atPhase]
    cases write with
    | waiting | failed => rfl
    | succeeded => exact absurd rfl unconfirmed
  have early : answersEarly key state (.enterStore id : GateLabel Params Value) = true := by
    simp only [answersEarly, found, sameKey, beq_self_eq_true, Bool.true_and, atLookup,
      List.any_eq_true, List.mem_range]
    exact ⟨closer, bounded, by rw [at_]; exact isUnconfirmed⟩
  rw [early] at notEarly
  cases notEarly

/-- An answer of absent given in this step reads a close that is in the file. -/
private theorem absent_seen {key : String} {state : GateState Value}
    (isSealed : Sealed key state) {id : Nat} {call : Call Value} {map : StoreMap Value}
    {move : Move Value} (found : state.calls id = some call) (loaded : state.memory = .loaded map)
    (moves : CallMove gate id call (map call.key) move)
    (entered : call.phase.entersStore = true → label = .enterStore id)
    (notEarly : answersEarly key state label = false) {other : Nat}
    {asked : IdempotencyDescriptor} (seen : .lookupReturned other key asked .absent ∈ move.seen) :
    (∃ descriptor, Retained key (· = .notReceived descriptor) state) ∧
      ClosesConfirmed key state := by
  have coherent := isSealed.coherent
  generalize held : map call.key = entry at moves
  cases moves with
  | finds existing atPhase =>
      have same := List.mem_singleton.mp seen
      simp only [Observation.lookupReturned.injEq] at same
      obtain ⟨-, sameKey, -, absent⟩ := same
      have closed := foundAnswer_absent absent.symm
      have holds : map key = some (.notReceived call.descriptor) := by rw [sameKey, held, closed]
      rw [entered (by rw [atPhase]; rfl)] at notEarly
      have confirmed := confirmed_of_not_early coherent found loaded sameKey.symm atPhase holds
        notEarly
      exact ⟨⟨_, isSealed.known map _ loaded holds confirmed⟩, confirmed⟩
  | closeWritten _ atPhase =>
      have same := List.mem_singleton.mp seen
      simp only [Observation.lookupReturned.injEq] at same
      have sameKey : call.key = key := same.2.1.symm
      refine ⟨⟨_, isSealed.durable.retained_confirmed coherent found sameKey atPhase⟩, ?_⟩
      intro closer closing write at_ closerKey atClosing
      have identical := coherent.claimUnique closer id closing call at_ found
        (by rw [atClosing]; exact nofun) (by rw [atPhase]; exact nofun)
        (closerKey.trans sameKey.symm)
      subst identical
      rw [found, Option.some.injEq] at at_
      exact (Phase.lookupFlush.inj (atPhase.symm.trans (at_ ▸ atClosing))).symm
  | reserves | closes | freesNothing | recordsFailure | recordsResult | reservationLost
  | closeLost | settles | credentialFails | transportEnds => cases seen
  | reserveRefused | frees | reservationWritten | invokes =>
      have same := List.mem_singleton.mp seen
      cases same

/-- Nobody owns a key whose close is retained, so it is not granted or applied. -/
private theorem closed_not_granted {key : String} {state : GateState Value}
    {descriptor : IdempotencyDescriptor} (coherent : Coherent state)
    (retained : Retained key (· = .notReceived descriptor) state) {id : Nat} {call : Call Value}
    {map : StoreMap Value} {move : Move Value} (found : state.calls id = some call)
    (loaded : state.memory = .loaded map) (moves : CallMove gate id call (map call.key) move) :
    ∀ seen ∈ move.seen, (∀ other asked, seen ≠ .reserveReturned other key asked .reserved) ∧
      ∀ other, seen ≠ .invoked other key := by
  have unowned : call.key = key → call.phase.claim ≠ .owner := by
    intro sameKey owner
    obtain ⟨entry, holds, rfl⟩ := retained.held map loaded
    have pending := coherent.owned map loaded id call found owner
    rw [sameKey, holds] at pending
    cases pending
  generalize map call.key = entry at moves
  intro seen member
  cases moves with
  | reserveRefused existing atPhase =>
      obtain rfl := List.mem_singleton.mp member
      refine ⟨?_, nofun⟩
      intro other asked same
      simp only [Observation.reserveReturned.injEq] at same
      exact occupiedAnswer_ne_reserved _ existing _ same.2.2.2
  | reservationWritten _ atPhase =>
      obtain rfl := List.mem_singleton.mp member
      refine ⟨?_, nofun⟩
      intro other asked same
      simp only [Observation.reserveReturned.injEq] at same
      exact unowned same.2.1 (by rw [atPhase]; rfl)
  | invokes _ atPhase =>
      obtain rfl := List.mem_singleton.mp member
      refine ⟨nofun, ?_⟩
      intro other same
      simp only [Observation.invoked.injEq] at same
      exact unowned same.2 (by rw [atPhase]; rfl)
  | finds | frees | closeWritten =>
      obtain rfl := List.mem_singleton.mp member
      exact ⟨nofun, nofun⟩
  | reserves | closes | freesNothing | recordsFailure | recordsResult | reservationLost
  | closeLost | settles | credentialFails | transportEnds => cases member

theorem Sealed.moved {key : String} {state : GateState Value} (isSealed : Sealed key state)
    (own : ownMember key = true) {id : Nat} {call : Call Value} {map : StoreMap Value}
    {move : Move Value} (found : state.calls id = some call) (loaded : state.memory = .loaded map)
    (moves : CallMove gate id call (map call.key) move)
    (entered : call.phase.entersStore = true → label = .enterStore id)
    (step : StepCase gate state label (state.moved id call map move))
    (notEarly : answersEarly key state label = false) :
    Sealed key (state.moved id call map move) := by
  have coherent := isSealed.coherent
  refine
    { coherent := step.coherent coherent
      durable := step.durable own coherent isSealed.durable
      known := isSealed.known_step own step
      closed := ?_
      once := ?_ }
  · rintro ⟨other, asked, absent⟩
    have closed : (∃ descriptor, Retained key (· = .notReceived descriptor) state) ∧
        ClosesConfirmed key state := by
      rcases List.mem_append.mp absent with old | new
      · exact isSealed.closed ⟨other, asked, old⟩
      · exact absent_seen isSealed found loaded moves entered notEarly new
    obtain ⟨⟨descriptor, retained⟩, confirmed⟩ := closed
    exact ⟨⟨descriptor, retained.step own notReceived_settled coherent confirmed step⟩,
      confirmed.step retained coherent step⟩
  · change Chronicle.Admissible (closedForGood key) (state.history ++ move.seen)
    rcases seen_short moves with nothing | ⟨observation, single⟩
    · rw [nothing, List.append_nil]
      exact isSealed.once
    · rw [single]
      refine Chronicle.admissible_append_one isSealed.once ?_
      intro absent
      obtain ⟨⟨descriptor, retained⟩, _⟩ := isSealed.closed absent
      exact closed_not_granted coherent retained found loaded moves observation
        (by rw [single]; simp)

theorem Sealed.quiet {key : String} {state next : GateState Value} (isSealed : Sealed key state)
    (own : ownMember key = true) (step : StepCase gate state label next)
    (history : next.history = state.history) : Sealed key next := by
  have coherent := isSealed.coherent
  refine
    { coherent := step.coherent coherent
      durable := step.durable own coherent isSealed.durable
      known := isSealed.known_step own step
      closed := ?_
      once := history ▸ isSealed.once }
  intro absent
  rw [history] at absent
  obtain ⟨⟨descriptor, retained⟩, confirmed⟩ := isSealed.closed absent
  exact ⟨⟨descriptor, retained.step own notReceived_settled coherent confirmed step⟩,
    confirmed.step retained coherent step⟩

theorem StepCase.isSealed {key : String} (own : ownMember key = true)
    {state next : GateState Value} (isSealed : Sealed key state)
    (notEarly : answersEarly key state label = false)
    (step : StepCase gate state label next) : Sealed key next := by
  have original := step
  cases step with
  | moved id call map move found loaded moves entered =>
      exact isSealed.moved own found loaded moves entered original notEarly
  | admitted | loaded | broke | rejected | writeBegan | writeEnded | crashed =>
      exact isSealed.quiet own original rfl

theorem Started.isSealed {state : GateState Value} (started : Started state) (key : String) :
    Sealed key state :=
  { coherent := started.coherent
    durable := started.durable key
    known := by
      intro map descriptor loaded
      rw [started.memory] at loaded
      cases loaded
    closed := by
      rintro ⟨call, asked, absent⟩
      rw [started.history] at absent
      cases absent
    once := started.history ▸ Chronicle.admissible_nil }

/-- In every run without an early answer, a key answered absent is never
reserved or applied afterwards, whatever writes fail and whenever it crashes. -/
theorem absent_closesForGood (gate : Gate Params Value) (key : String)
    (carried : key ≠ "__proto__") (start state : GateState Value)
    (labels : List (GateLabel Params Value)) (started : Started start)
    (late : (gateSystem gate).Allowed
      (fun current label => answersEarly key current label = false) start labels)
    (ran : (gateSystem gate).run start labels = some state) :
    Chronicle.Admissible (closedForGood key) state.history :=
  ((gateSystem gate).run_preserves_when
    (fun _ _ _ isSealed notEarly moved =>
      (step_cases isSealed.coherent moved).isSealed ((ownMember_iff key).mpr carried) isSealed
        notEarly)
    (started.isSealed key) late ran).once

/-! ### Answers read from a close that is taken back -/

def sampleArguments (key : String) : ApplyArguments Unit :=
  { name := "restart"
    params := ()
    actionRequestId := key
    ctx := { onBehalfOf := none, operationDigest := none } }

/-- A lookup that closes the key, a repeat of it, and an apply that comes later. -/
def lateApplyRun : List (GateLabel Unit Unit) :=
  [.loadEnds, .lookupApply (sampleArguments "a1"), .enterStore 0, .writeBegins,
    .writeEnds true true, .flushReturns 0, .lookupApply (sampleArguments "a1"), .enterStore 1,
    .apply (sampleArguments "a1"), .enterStore 2]

theorem absent_closesForGood_lateApply :
    ((gateSystem (oneOperationGate : Gate Unit Unit)).run freshProcess lateApplyRun).isSome ∧
      ∀ state, (gateSystem (oneOperationGate : Gate Unit Unit)).run freshProcess lateApplyRun =
        some state → Chronicle.Admissible (closedForGood "a1") state.history := by
  refine ⟨by decide, fun state ran => ?_⟩
  exact absent_closesForGood oneOperationGate "a1" (by decide) freshProcess state lateApplyRun
    freshProcess_started (by decide) ran

/-- Two lookups of one key; the first one's write fails after the second has answered. -/
def takenBackRun : List (GateLabel Unit Unit) :=
  [.loadEnds, .lookupApply (sampleArguments "a1"), .enterStore 0,
    .lookupApply (sampleArguments "a1"), .enterStore 1, .writeBegins, .writeEnds false false,
    .flushReturns 0, .apply (sampleArguments "a1"), .enterStore 2, .writeBegins,
    .writeEnds true true, .flushReturns 2, .credentialEnds 2 true]

def takenBackHistory : List (Observation Unit) :=
  [.lookupReturned 1 "a1" ⟨"restart", "h", none⟩ .absent,
    .reserveReturned 2 "a1" ⟨"restart", "h", none⟩ .reserved, .invoked 2 "a1"]

private theorem takenBackRun_history :
    ((gateSystem (oneOperationGate : Gate Unit Unit)).run freshProcess takenBackRun).map
      (·.history) = some takenBackHistory := rfl

theorem absent_then_applied :
    ¬ ∀ (gate : Gate Unit Unit) (key : String) (state : GateState Unit),
      (gateSystem gate).Reachable state → Chronicle.Admissible (closedForGood key) state.history := by
  intro contract
  obtain ⟨state, ran, history⟩ := Option.map_eq_some_iff.mp takenBackRun_history
  have admissible := contract oneOperationGate "a1" state
    ⟨freshProcess, takenBackRun, freshProcess_started, ran⟩
  rw [history] at admissible
  have notGranted := admissible [.lookupReturned 1 "a1" ⟨"restart", "h", none⟩ .absent]
    (.reserveReturned 2 "a1" ⟨"restart", "h", none⟩ .reserved) [.invoked 2 "a1"] rfl
    ⟨1, ⟨"restart", "h", none⟩, by simp⟩
  exact notGranted.1 2 _ rfl

end NextTime.Gatekeeper
