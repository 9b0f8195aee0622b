import NextTime.Gatekeeper.ApplyMoves

/-!
How the file follows the map. `Durable` says that a reservation whose write has
been reported is in the file and in every snapshot on its way there; `Retained`
says that an entry which no call can change any more stays what it is, across
writes that fail and restarts. Both hold for keys the snapshot object can carry.
-/

namespace NextTime.Gatekeeper

variable {Params Value : Type} {gate : Gate Params Value} {label : GateLabel Params Value}

/-! ### Claims that were reported -/

/-- The entry a claiming call has under its key. -/
def Call.claimed (call : Call Value) : Option (StoreEntryState Value) :=
  match call.phase.claim with
  | .nothing => none
  | .owner => some (.pending call.descriptor)
  | .closer => some (.notReceived call.descriptor)

/-- The call waits for the write that puts its claim into the file. -/
def Phase.writesClaim : Phase Value → Bool
  | .reserveFlush _ | .lookupFlush _ => true
  | _ => false

structure Durable (key : String) (state : GateState Value) : Prop where
  claiming : ∀ id snapshot call, state.writing = some (id, snapshot) →
    state.calls id = some call → call.key = key → call.phase.writesClaim = true →
    snapshot key = call.claimed.map .entry
  reported : ∀ id call, state.calls id = some call → call.key = key →
    call.phase.durable = true →
    state.fileEntry key = call.claimed.map .entry ∧
      ∀ writer snapshot, state.writing = some (writer, snapshot) →
        snapshot key = call.claimed.map .entry

theorem Phase.durable_claim {phase : Phase Value} (durable : phase.durable = true) :
    phase.claim ≠ .nothing := by
  cases phase <;> simp_all [Phase.durable, Phase.claim]

theorem Phase.writesClaim_claim {phase : Phase Value} (writes : phase.writesClaim = true) :
    phase.claim ≠ .nothing := by
  cases phase <;> simp_all [Phase.writesClaim, Phase.claim]

/-- A claim becomes durable by the successful end of its own write only. -/
theorem Phase.durable_writeOver {phase : Phase Value} {progress : WriteProgress}
    (before : phase.durable = false) (durable : (phase.writeOver progress).durable = true) :
    progress = .succeeded ∧ phase.writesClaim = true := by
  cases phase with
  | reserveFlush write | lookupFlush write =>
      refine ⟨?_, rfl⟩
      cases progress <;> first | rfl | cases durable
  | credential | transport | release | fail | complete | stranded => cases before
  | reserve | lookup | releaseFlush | failFlush | completeFlush | answered => cases durable

theorem Call.claimed_of_claim (first second : Call Value)
    (sameClaim : first.phase.claim = second.phase.claim)
    (sameDescriptor : first.descriptor = second.descriptor) :
    first.claimed = second.claimed := by
  simp only [Call.claimed, sameClaim, sameDescriptor]

/-- In a loaded process the key of a claiming call holds what the call claims. -/
theorem Coherent.holds_claim {state : GateState Value} (coherent : Coherent state)
    {map : StoreMap Value} (loaded : state.memory = .loaded map) {id : Nat} {call : Call Value}
    (found : state.calls id = some call) (claims : call.phase.claim ≠ .nothing) :
    map call.key = call.claimed := by
  cases claim : call.phase.claim with
  | nothing => exact absurd claim claims
  | owner =>
      rw [coherent.owned map loaded id call found claim]
      simp only [Call.claimed, claim]
  | closer =>
      rw [coherent.closing map loaded id call found claim]
      simp only [Call.claimed, claim]

theorem Started.durable {state : GateState Value} (started : Started state) (key : String) :
    Durable key state :=
  { claiming := by
      intro id snapshot call running
      rw [started.writing] at running
      cases running
    reported := by
      intro id call found
      rw [started.calls id] at found
      cases found }

/-- The calls that matter to `Durable` are old ones, unchanged, or have moved
on from a claim that was already durable. -/
theorem Durable.moved {key : String} {state : GateState Value} (durable : Durable key state)
    (coherent : Coherent state) {id : Nat} {call : Call Value} {map : StoreMap Value}
    {move : Move Value} (found : state.calls id = some call)
    (moves : CallMove gate id call (map call.key) move) :
    Durable key (state.moved id call map move) := by
  have atCall : ∀ {other held}, (state.moved id call map move).calls other = some held →
      (other = id ∧ held = { call with phase := move.phase }) ∨
        (other ≠ id ∧ state.calls other = some held) := by
    intro other held at_
    by_cases same : other = id
    · exact .inl ⟨same, by simpa [GateState.moved, same] using at_.symm⟩
    · exact .inr ⟨same, by simpa [GateState.moved, same] using at_⟩
  constructor
  · intro writer snapshot held running at_ sameKey writes
    have queued : writer ∈ state.writeQueue := by
      have running' : state.writing = some (writer, snapshot) := running
      simp [GateState.writeQueue, running']
    obtain ⟨waiting, atWriter, waits⟩ := coherent.queueWaits writer queued
    rcases atCall at_ with ⟨rfl, _⟩ | ⟨_, old⟩
    · rw [found, Option.some.injEq] at atWriter
      rw [← atWriter, moves.not_waiting] at waits
      cases waits
    · exact durable.claiming writer snapshot held running old sameKey writes
  · intro other held at_ sameKey isDurable
    rcases atCall at_ with ⟨rfl, rfl⟩ | ⟨_, old⟩
    · obtain ⟨before, sameClaim⟩ := moves.durable_before isDurable
      have reported := durable.reported other call found sameKey before
      rw [← Call.claimed_of_claim { call with phase := move.phase } call sameClaim rfl]
        at reported
      exact reported
    · exact durable.reported other held old sameKey isDurable

theorem Durable.writeBegan {key : String} {state : GateState Value} (own : ownMember key = true)
    (durable : Durable key state) (coherent : Coherent state) {id : Nat} {rest : List Nat}
    {map : StoreMap Value} (loaded : state.memory = .loaded map) :
    Durable key
      { state with writing := some (id, snapshotEntries map), writeChain := rest } := by
  have snapped : ∀ {other held}, state.calls other = some held → held.key = key →
      held.phase.claim ≠ .nothing → snapshotEntries map key = held.claimed.map .entry := by
    intro other held at_ sameKey claims
    rw [snapshotEntries_own own, ← sameKey, coherent.holds_claim loaded at_ claims]
  constructor
  · intro writer snapshot held running at_ sameKey writes
    cases running
    exact snapped at_ sameKey (Phase.writesClaim_claim writes)
  · intro other held at_ sameKey isDurable
    refine ⟨(durable.reported other held at_ sameKey isDurable).1, ?_⟩
    intro writer snapshot running
    cases running
    exact snapped at_ sameKey (Phase.durable_claim isDurable)

theorem Durable.written {key : String} {state : GateState Value} (durable : Durable key state)
    {id : Nat} {snapshot : FileEntries Value} {call : Call Value} {landed reported : Bool}
    (running : state.writing = some (id, snapshot)) (found : state.calls id = some call)
    (honest : reported = true → landed = true) :
    Durable key (state.written id snapshot call landed reported) := by
  have fileAfter : ∀ {record}, snapshot key = record →
      (landed = true ∨ state.fileEntry key = record) →
      (state.written id snapshot call landed reported).fileEntry key = record := by
    intro record snapped survives
    cases landed with
    | true => exact snapped
    | false =>
        rcases survives with impossible | kept
        · cases impossible
        · exact kept
  constructor
  · intro writer snapshot' held nothing
    cases nothing
  · intro other held at_ sameKey isDurable
    refine ⟨?_, fun writer snapshot' nothing => nomatch nothing⟩
    rcases written_call at_ with ⟨rfl, rfl⟩ | ⟨_, old⟩
    · -- The writing call itself: its claim was durable before, or is just reported.
      have sameClaim := call.phase.writeOver_claim (if reported then .succeeded else .failed)
      rw [Call.claimed_of_claim { call with phase := call.phase.writeOver _ } call sameClaim rfl]
      cases before : call.phase.durable with
      | true =>
          have known := durable.reported other call found sameKey before
          exact fileAfter (known.2 other snapshot running) (.inr known.1)
      | false =>
          obtain ⟨isReported, writes⟩ := Phase.durable_writeOver before isDurable
          have landedToo : landed = true := by
            apply honest
            cases reported with
            | true => rfl
            | false => cases isReported
          exact fileAfter (durable.claiming other snapshot call running found sameKey writes)
            (.inl landedToo)
    · have known := durable.reported other held old sameKey isDurable
      exact fileAfter (known.2 id snapshot running) (.inr known.1)

/-- `Durable` is about the calls, the file and the running write only. -/
private theorem Durable.of_calls {key : String} {state next : GateState Value}
    (durable : Durable key state) (file : next.file = state.file)
    (writing : next.writing = state.writing)
    (calls : ∀ id call, next.calls id = some call → call.phase.beforeStore = false →
      state.calls id = some call) : Durable key next := by
  have fileEntry : next.fileEntry key = state.fileEntry key := by
    simp only [GateState.fileEntry, file]
  constructor
  · intro id snapshot call running at_ sameKey writes
    have past : call.phase.beforeStore = false := by
      cases phase : call.phase <;> rw [phase] at writes <;> first | rfl | cases writes
    exact durable.claiming id snapshot call (writing ▸ running) (calls id call at_ past)
      sameKey writes
  · intro id call at_ sameKey isDurable
    have past : call.phase.beforeStore = false := by
      cases phase : call.phase <;> rw [phase] at isDurable <;> first | rfl | cases isDurable
    rw [fileEntry, writing]
    exact durable.reported id call (calls id call at_ past) sameKey isDurable

theorem StepCase.durable {key : String} (own : ownMember key = true)
    {state next : GateState Value} (coherent : Coherent state) (durable : Durable key state)
    (step : StepCase gate state label next) : Durable key next := by
  cases step with
  | admitted call arrives =>
      refine durable.of_calls rfl rfl ?_
      intro id held at_ past
      by_cases same : id = state.nextCall
      · have heldSame : call = held := by
          simpa [GateState.enrol, GateState.setCall, same] using at_
        rw [← heldSame, arrives] at past
        cases past
      · simpa [GateState.enrol, GateState.setCall, same] using at_
  | loaded map loading read => exact durable.of_calls rfl rfl (fun _ _ at_ _ => at_)
  | broke loading => exact durable.of_calls rfl rfl (fun _ _ at_ _ => at_)
  | rejected id call found broken =>
      refine durable.of_calls rfl rfl ?_
      intro other held at_ past
      by_cases same : other = id
      · have heldSame : { call with phase := .answered .storeFailed } = held := by
          simpa [GateState.setPhase, GateState.setCall, same] using at_
        rw [← heldSame] at past
        cases past
      · simpa [GateState.setPhase, GateState.setCall, same] using at_
  | moved id call map move found loaded moves entered => exact durable.moved coherent found moves
  | writeBegan id rest map idle queued loaded => exact durable.writeBegan own coherent loaded
  | writeEnded id snapshot call landed reported running found honest =>
      exact durable.written running found honest
  | crashed landed =>
      exact
        { claiming := fun _ _ _ running => by cases running
          reported := fun _ _ found => by cases found }

/-! ### Entries nobody can change any more -/

/-- The record of a file or a snapshot loads back as an allowed entry. -/
def LoadsAs (allowed : StoreEntryState Value → Prop) (record : Option (StoredRecord Value)) :
    Prop :=
  ∃ entry, record.bind loadedEntry = some entry ∧ allowed entry

structure Retained (key : String) (allowed : StoreEntryState Value → Prop)
    (state : GateState Value) : Prop where
  file : LoadsAs allowed (state.fileEntry key)
  running : ∀ id snapshot, state.writing = some (id, snapshot) → LoadsAs allowed (snapshot key)
  held : ∀ map, state.memory = .loaded map → ∃ entry, map key = some entry ∧ allowed entry

/-- An entry that is not a reservation of this process loads back as itself. -/
theorem loadedEntry_settled {entry : StoreEntryState Value}
    (settled : ∀ descriptor, entry ≠ .pending descriptor) :
    loadedEntry (.entry entry) = some entry := by
  cases entry with
  | pending descriptor => exact absurd rfl (settled descriptor)
  | orphaned | done | failed | notReceived => rfl

/-- No call of the process may still take back a close of the key. -/
def ClosesConfirmed (key : String) (state : GateState Value) : Prop :=
  ∀ id call write, state.calls id = some call → call.key = key →
    call.phase = .lookupFlush write → write = .succeeded

theorem CallMove.confirmed_keeps {id : Nat} {call : Call Value}
    {entry : Option (StoreEntryState Value)} {move : Move Value}
    (moves : CallMove gate id call entry move)
    (atPhase : call.phase = .lookupFlush .succeeded) : move.entry = entry := by
  cases moves with
  | closeWritten | settles => rfl
  | reserves other | reserveRefused _ other | closes other | finds _ other | frees _ _ other
  | freesNothing _ _ other | recordsFailure _ _ other | recordsResult _ _ other
  | reservationWritten _ other | reservationLost _ other | closeLost _ other | invokes _ other
  | credentialFails _ other | transportEnds _ _ other =>
      exact nomatch atPhase.symm.trans other

namespace Retained

variable {key : String} {allowed : StoreEntryState Value → Prop} {state next : GateState Value}

theorem moved (retained : Retained key allowed state)
    (settled : ∀ entry, allowed entry → ∀ descriptor, entry ≠ .pending descriptor)
    (coherent : Coherent state) (confirmed : ClosesConfirmed key state) {id : Nat} {call : Call Value}
    {map : StoreMap Value} {move : Move Value} (found : state.calls id = some call)
    (loaded : state.memory = .loaded map)
    (moves : CallMove gate id call (map call.key) move) :
    Retained key allowed (state.moved id call map move) := by
  refine { file := retained.file, running := retained.running, held := ?_ }
  intro newMap newLoaded
  obtain rfl : map.put call.key move.entry = newMap := by
    simpa [GateState.moved] using newLoaded
  obtain ⟨entry, holds, isAllowed⟩ := retained.held map loaded
  refine ⟨entry, ?_, isAllowed⟩
  by_cases same : key = call.key
  · subst same
    rw [StoreMap.put_same]
    cases claim : call.phase.claim with
    | nothing =>
        rcases moves.unclaimed_keeps claim with kept | free
        · exact kept.trans holds
        · rw [holds] at free
          cases free
    | owner =>
        have pending := coherent.owned map loaded id call found claim
        rw [holds, Option.some.injEq] at pending
        exact absurd pending (settled entry isAllowed _)
    | closer =>
        obtain ⟨write, atPhase⟩ : ∃ write, call.phase = .lookupFlush write := by
          cases phase : call.phase <;> rw [phase] at claim <;>
            first | exact ⟨_, rfl⟩ | cases claim
        rw [confirmed id call write found rfl atPhase] at atPhase
        exact (moves.confirmed_keeps atPhase).trans holds
  · rw [map.put_other move.entry same]
    exact holds

theorem step (retained : Retained key allowed state) (own : ownMember key = true)
    (settled : ∀ entry, allowed entry → ∀ descriptor, entry ≠ .pending descriptor)
    (coherent : Coherent state) (confirmed : ClosesConfirmed key state)
    (step : StepCase gate state label next) : Retained key allowed next := by
  cases step with
  | admitted call arrives =>
      exact { file := retained.file, running := retained.running, held := retained.held }
  | loaded map loading read =>
      refine { file := retained.file, running := retained.running, held := ?_ }
      intro newMap newLoaded
      obtain rfl : map = newMap := by simpa [GateState.setMap] using newLoaded
      rw [read key]
      exact retained.file
  | broke loading =>
      exact { file := retained.file, running := retained.running, held := fun _ same => by cases same }
  | rejected id call found broken =>
      exact { file := retained.file, running := retained.running, held := retained.held }
  | moved id call map move found loaded moves entered =>
      exact retained.moved settled coherent confirmed found loaded moves
  | writeBegan id rest map idle queued loaded =>
      refine { file := retained.file, running := ?_, held := retained.held }
      intro writer snapshot running
      cases running
      obtain ⟨entry, holds, isAllowed⟩ := retained.held map loaded
      refine ⟨entry, ?_, isAllowed⟩
      rw [snapshotEntries_own own, holds]
      exact loadedEntry_settled (settled entry isAllowed)
  | writeEnded id snapshot call landed reported running found honest =>
      refine { file := ?_, running := (fun _ _ same => by cases same), held := retained.held }
      cases landed with
      | true => exact retained.running id snapshot running
      | false => exact retained.file
  | crashed landed =>
      refine { file := ?_, running := (fun _ _ same => by cases same),
               held := (fun _ same => by cases same) }
      simp only [GateState.fileEntry, GateState.restarted, GateState.fileAfterCrash]
      cases running : state.writing with
      | none => exact retained.file
      | some write =>
          cases landed with
          | true => exact retained.running write.1 write.2 running
          | false => exact retained.file

/-- An entry that is not a close leaves no close to take back. -/
theorem closesConfirmed (retained : Retained key allowed state) (coherent : Coherent state)
    (closed : ∀ entry, allowed entry → ∀ descriptor, entry ≠ .notReceived descriptor) :
    ClosesConfirmed key state := by
  intro id call write found sameKey atPhase
  obtain ⟨map, loaded⟩ := coherent.loaded_of_call found (by rw [atPhase]; rfl)
  obtain ⟨entry, holds, isAllowed⟩ := retained.held map loaded
  have closing := coherent.closing map loaded id call found (by rw [atPhase]; rfl)
  rw [sameKey, holds, Option.some.injEq] at closing
  exact absurd closing (closed entry isAllowed _)

end Retained

theorem Call.claimed_owner {call : Call Value} (owner : call.phase.claim = .owner) :
    call.claimed = some (.pending call.descriptor) := by
  simp only [Call.claimed, owner]

/-- The crash of a process leaves a durably reserved key to be loaded as orphaned. -/
theorem Durable.retained_restarted {key : String} {state : GateState Value}
    (durable : Durable key state) {id : Nat} {call : Call Value}
    (found : state.calls id = some call) (sameKey : call.key = key)
    (isDurable : call.phase.durable = true) (owner : call.phase.claim = .owner)
    (landed : Bool) :
    Retained key (· = .orphaned call.descriptor) (state.restarted landed) := by
  have reported := durable.reported id call found sameKey isDurable
  rw [Call.claimed_owner owner] at reported
  obtain ⟨inFile, inWrite⟩ := reported
  refine { file := ?_, running := (fun _ _ same => nomatch same),
           held := (fun _ same => nomatch same) }
  refine ⟨.orphaned call.descriptor, ?_, rfl⟩
  have fileAfter : (state.restarted landed).fileEntry key =
      some (.entry (.pending call.descriptor)) := by
    simp only [GateState.fileEntry, GateState.restarted, GateState.fileAfterCrash]
    cases running : state.writing with
    | none => exact inFile
    | some write =>
        cases landed with
        | true => exact inWrite write.1 write.2 running
        | false => exact inFile
  rw [fileAfter]
  rfl

end NextTime.Gatekeeper
