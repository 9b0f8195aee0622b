import NextTime.Gatekeeper.ApplySystem

/-!
What one step of the apply system can do, said once. Every invariant of the
system is derived from the cases listed here; none of them unfolds the step
function again.
-/

namespace NextTime.Gatekeeper

variable {Params Value : Type} {gate : Gate Params Value} {label : GateLabel Params Value}

/-! ### What a suspended call claims about its key -/

/-- An owner holds the reservation of its key, a closer the unconfirmed close. -/
inductive Claim
  | nothing
  | owner
  | closer
deriving DecidableEq, Repr

def Phase.claim : Phase Value → Claim
  | .reserveFlush _ | .credential | .transport | .release _ | .fail _ | .complete _
  | .stranded => .owner
  | .lookupFlush _ => .closer
  | _ => .nothing

/-- The claimed entry is known to be in the file. -/
def Phase.durable : Phase Value → Bool
  | .lookupFlush .succeeded | .reserveFlush .succeeded | .credential | .transport | .release _
  | .fail _ | .complete _ | .stranded => true
  | _ => false

def Phase.waitsForWrite : Phase Value → Bool
  | .reserveFlush .waiting | .lookupFlush .waiting | .releaseFlush _ .waiting
  | .failFlush _ .waiting | .completeFlush _ .waiting => true
  | _ => false

/-- The phases a call can be in before `load()` has resolved. -/
def Phase.beforeStore : Phase Value → Bool
  | .reserve | .lookup | .answered _ => true
  | _ => false

/-- The transport was called and has not been refused and released. -/
def Phase.invoked : Phase Value → Bool
  | .transport | .release .operationRefused | .fail _ | .complete _ | .stranded => true
  | _ => false

/-! ### The moves of one call -/

structure Move (Value : Type) where
  phase : Phase Value
  entry : Option (StoreEntryState Value)
  flushes : Bool
  seen : List (Observation Value)

def entryDescriptor : Option (StoreEntryState Value) → IdempotencyDescriptor
  | some existing => existing.descriptor
  | none => { operation := "", paramsHash := "", onBehalfOf := none }

/-- The move of a call, from the entry its key holds in the loaded map. -/
inductive CallMove (gate : Gate Params Value) (id : Nat) (call : Call Value) :
    Option (StoreEntryState Value) → Move Value → Prop
  | reserves (at_ : call.phase = .reserve) :
      CallMove gate id call none
        ⟨.reserveFlush .waiting, some (.pending call.descriptor), true, []⟩
  | reserveRefused (existing) (at_ : call.phase = .reserve) :
      CallMove gate id call (some existing)
        ⟨.answered (reservationAnswer (occupiedAnswer call.key existing call.descriptor)),
          some existing, false,
          [.reserveReturned id call.key call.descriptor
            (occupiedAnswer call.key existing call.descriptor)]⟩
  | closes (at_ : call.phase = .lookup) :
      CallMove gate id call none
        ⟨.lookupFlush .waiting, some (.notReceived call.descriptor), true, []⟩
  | finds (existing) (at_ : call.phase = .lookup) :
      CallMove gate id call (some existing)
        ⟨.answered (lookupAnswer (foundAnswer existing call.descriptor)), some existing, false,
          [.lookupReturned id call.key call.descriptor
            (foundAnswer existing call.descriptor)]⟩
  | frees (cause) (stored) (at_ : call.phase = .release cause) :
      CallMove gate id call (some (.pending stored))
        ⟨.releaseFlush cause .waiting, none, true, [.released id call.key cause]⟩
  | freesNothing (cause) (entry) (at_ : call.phase = .release cause)
      (notPending : ∀ stored, entry ≠ some (.pending stored)) :
      CallMove gate id call entry ⟨.answered (releaseAnswer cause), entry, false, []⟩
  | recordsFailure (error) (entry) (at_ : call.phase = .fail error) :
      CallMove gate id call entry
        ⟨.failFlush error .waiting,
          some (.failed (entryDescriptor entry)
            (storedTransportFailure call.descriptor.operation error)), true, []⟩
  | recordsResult (result) (entry) (at_ : call.phase = .complete result) :
      CallMove gate id call entry
        ⟨.completeFlush result .waiting, some (.done (entryDescriptor entry) result), true, []⟩
  | reservationWritten (entry) (at_ : call.phase = .reserveFlush .succeeded) :
      CallMove gate id call entry
        ⟨reservedPhase call, entry, false,
          [.reserveReturned id call.key call.descriptor .reserved]⟩
  | reservationLost (entry) (at_ : call.phase = .reserveFlush .failed) :
      CallMove gate id call entry ⟨.answered .storeFailed, none, false, []⟩
  | closeWritten (entry) (at_ : call.phase = .lookupFlush .succeeded) :
      CallMove gate id call entry
        ⟨.answered .notReceived, entry, false,
          [.lookupReturned id call.key call.descriptor .absent]⟩
  | closeLost (entry) (at_ : call.phase = .lookupFlush .failed) :
      CallMove gate id call entry ⟨.answered .storeFailed, none, false, []⟩
  | settles (entry) (answer) (idle : call.phase.claim = .nothing)
      (ended : call.phase.waitsForWrite = false) :
      CallMove gate id call entry ⟨.answered answer, entry, false, []⟩
  | invokes (entry) (at_ : call.phase = .credential) :
      CallMove gate id call entry ⟨.transport, entry, false, [.invoked id call.key]⟩
  | credentialFails (entry) (at_ : call.phase = .credential) :
      CallMove gate id call entry ⟨.release .credentialUnresolved, entry, false, []⟩
  | transportEnds (entry) (outcome) (at_ : call.phase = .transport) :
      CallMove gate id call entry
        ⟨transportPhase gate call.descriptor.operation outcome, entry, false, []⟩

/-- The state after a move of the call `id` in a process whose map is loaded. -/
def GateState.moved (state : GateState Value) (id : Nat) (call : Call Value)
    (map : StoreMap Value) (move : Move Value) : GateState Value :=
  { state with
    memory := .loaded (map.put call.key move.entry)
    calls := fun other =>
      if other = id then some { call with phase := move.phase } else state.calls other
    writeChain := if move.flushes then state.writeChain ++ [id] else state.writeChain
    history := state.history ++ move.seen }

def GateState.fileEntry (state : GateState Value) (key : String) : Option (StoredRecord Value) :=
  match state.file with
  | .written entries => entries key
  | _ => none

/-! ### Inversion of the store operations -/

private theorem reservedDescriptor_eq (map : StoreMap Value) (key : String) :
    reservedDescriptor map key = entryDescriptor (map key) := by
  unfold reservedDescriptor entryDescriptor
  cases map key <;> rfl

private theorem moved_unchanged (state : GateState Value) (id : Nat) (call : Call Value)
    {map : StoreMap Value} (loaded : state.memory = .loaded map) (phase : Phase Value)
    (seen : List (Observation Value)) :
    state.moved id call map ⟨phase, map call.key, false, seen⟩ =
      { state.setPhase id call phase with history := state.history ++ seen } := by
  simp only [GateState.moved, GateState.setPhase, GateState.setCall, StoreMap.put_self, loaded]
  rfl

private theorem moved_flushed (state : GateState Value) (id : Nat) (call : Call Value)
    (map : StoreMap Value) (phase : Phase Value) (entry : Option (StoreEntryState Value)) :
    state.moved id call map ⟨phase, entry, true, []⟩ =
      (state.setMap (map.put call.key entry)).flush id call phase := by
  simp [GateState.moved, GateState.flush, GateState.setPhase, GateState.setCall, GateState.setMap]

theorem reserve_move {state next : GateState Value} {map : StoreMap Value} {id : Nat}
    {call : Call Value} (loaded : state.memory = .loaded map) (atReserve : call.phase = .reserve)
    (moved : enterLoaded state map id call = some next) :
    ∃ move, CallMove gate id call (map call.key) move ∧ next = state.moved id call map move := by
  simp only [enterLoaded, atReserve] at moved
  cases held : map call.key with
  | none =>
      rw [reserveOrConflict_free call.descriptor held] at moved
      exact ⟨_, .reserves atReserve, by rw [moved_flushed]; exact (Option.some.inj moved).symm⟩
  | some existing =>
      rw [reserveOrConflict_occupied call.descriptor held] at moved
      have refused := occupiedAnswer_ne_reserved call.key existing call.descriptor
      refine ⟨_, .reserveRefused existing atReserve, ?_⟩
      rw [← held, moved_unchanged state id call loaded]
      cases answer : occupiedAnswer call.key existing call.descriptor with
      | reserved => exact absurd answer refused
      | replay | failed | unknown | conflict =>
          simp only [answer, Option.some.injEq] at moved
          exact moved.symm

theorem lookup_move {state next : GateState Value} {map : StoreMap Value} {id : Nat}
    {call : Call Value} (loaded : state.memory = .loaded map) (atLookup : call.phase = .lookup)
    (moved : enterLoaded state map id call = some next) :
    ∃ move, CallMove gate id call (map call.key) move ∧ next = state.moved id call map move := by
  simp only [enterLoaded, atLookup] at moved
  cases held : map call.key with
  | none =>
      rw [lookupOrClose_free call.descriptor held] at moved
      exact ⟨_, .closes atLookup, by rw [moved_flushed]; exact (Option.some.inj moved).symm⟩
  | some existing =>
      rw [lookupOrClose_occupied call.descriptor held] at moved
      refine ⟨_, .finds existing atLookup, ?_⟩
      rw [← held, moved_unchanged state id call loaded]
      exact (Option.some.inj moved).symm

theorem release_move {state next : GateState Value} {map : StoreMap Value} {id : Nat}
    {call : Call Value} {cause : ReleaseCause} (loaded : state.memory = .loaded map)
    (atRelease : call.phase = .release cause)
    (moved : enterLoaded state map id call = some next) :
    ∃ move, CallMove gate id call (map call.key) move ∧ next = state.moved id call map move := by
  simp only [enterLoaded, atRelease, releaseEntry] at moved
  by_cases pending : ∃ stored, map call.key = some (.pending stored)
  · obtain ⟨stored, held⟩ := pending
    simp only [held, StoreMap.delete_eq_put, Option.some.injEq] at moved
    rw [held]
    refine ⟨_, .frees cause stored atRelease, ?_⟩
    rw [← moved]
    simp [GateState.moved, GateState.flush, GateState.setPhase, GateState.setCall,
      GateState.setMap, GateState.observe]
  · have notPending : ∀ stored, map call.key ≠ some (.pending stored) :=
      fun stored held => pending ⟨stored, held⟩
    refine ⟨_, .freesNothing cause _ atRelease notPending, ?_⟩
    rw [moved_unchanged state id call loaded]
    split at moved
    · next same =>
        split at same
        · next stored held => exact absurd held (notPending stored)
        · cases same
    · simp only [Option.some.injEq] at moved
      rw [← moved]
      simp [GateState.setPhase, GateState.setCall]

theorem enterLoaded_move (gate : Gate Params Value) {state next : GateState Value}
    {map : StoreMap Value} {id : Nat} {call : Call Value} (loaded : state.memory = .loaded map)
    (moved : enterLoaded state map id call = some next) :
    ∃ move, CallMove gate id call (map call.key) move ∧ next = state.moved id call map move := by
  cases atPhase : call.phase with
  | reserve => exact reserve_move loaded atPhase moved
  | lookup => exact lookup_move loaded atPhase moved
  | release cause => exact release_move loaded atPhase moved
  | fail error =>
      simp only [enterLoaded, atPhase, failEntry, StoreMap.set_eq_put,
        reservedDescriptor_eq] at moved
      exact ⟨_, .recordsFailure error _ atPhase, by
        rw [moved_flushed]; exact (Option.some.inj moved).symm⟩
  | complete result =>
      simp only [enterLoaded, atPhase, completeEntry, StoreMap.set_eq_put,
        reservedDescriptor_eq] at moved
      exact ⟨_, .recordsResult result _ atPhase, by
        rw [moved_flushed]; exact (Option.some.inj moved).symm⟩
  | reserveFlush | credential | transport | releaseFlush | failFlush | completeFlush
  | lookupFlush | stranded | answered =>
      simp only [enterLoaded, atPhase] at moved
      cases moved

theorem flushReturns_move (gate : Gate Params Value) {state next : GateState Value} {id : Nat}
    (moved : flushReturns state id = some next) :
    ∃ call map move, state.calls id = some call ∧ state.memory = .loaded map ∧
      CallMove gate id call (map call.key) move ∧ call.phase.entersStore = false ∧
      next = state.moved id call map move := by
  unfold flushReturns at moved
  split at moved
  · next call map found loaded =>
      have unchanged := moved_unchanged state id call loaded
      have deleted : ∀ phase, (state.setMap (map.delete call.key)).setPhase id call phase =
          state.moved id call map ⟨phase, none, false, []⟩ := by
        intro phase
        simp [GateState.moved, GateState.setPhase, GateState.setCall, GateState.setMap,
          StoreMap.delete_eq_put]
      have quiet : ∀ phase, state.setPhase id call phase =
          state.moved id call map ⟨phase, map call.key, false, []⟩ := by
        intro phase
        rw [unchanged]
        simp [GateState.setPhase, GateState.setCall]
      refine ⟨call, map, ?_⟩
      split at moved <;> simp only [Option.some.injEq, reduceCtorEq] at moved
      case h_1 atPhase =>
        exact ⟨_, found, loaded, .reservationWritten _ atPhase, by rw [atPhase]; rfl,
          by rw [unchanged, ← moved]; rfl⟩
      case h_2 atPhase =>
        exact ⟨_, found, loaded, .reservationLost _ atPhase, by rw [atPhase]; rfl,
          by rw [← moved, deleted]⟩
      case h_3 atPhase =>
        exact ⟨_, found, loaded, .closeWritten _ atPhase, by rw [atPhase]; rfl,
          by rw [unchanged, ← moved]; rfl⟩
      case h_4 atPhase =>
        exact ⟨_, found, loaded, .closeLost _ atPhase, by rw [atPhase]; rfl,
          by rw [← moved, deleted]⟩
      all_goals
        next atPhase =>
          exact ⟨_, found, loaded, .settles _ _ (by simp [atPhase, Phase.claim])
            (by simp [atPhase, Phase.waitsForWrite]), by rw [atPhase]; rfl,
            by rw [← moved, quiet]⟩
  · cases moved

namespace CallMove

variable {id : Nat} {call : Call Value} {entry : Option (StoreEntryState Value)}
  {move : Move Value}

/-- A move ends the claim, keeps the claim with its entry, or takes a free key. -/
theorem claims (moves : CallMove gate id call entry move) :
    move.phase.claim = .nothing ∨
      (call.phase.claim = move.phase.claim ∧ move.entry = entry) ∨
      (entry = none ∧
        ((move.phase.claim = .owner ∧ move.entry = some (.pending call.descriptor)) ∨
          (move.phase.claim = .closer ∧ move.entry = some (.notReceived call.descriptor)))) := by
  cases moves with
  | reserves atPhase => exact .inr (.inr ⟨rfl, .inl ⟨rfl, rfl⟩⟩)
  | closes atPhase => exact .inr (.inr ⟨rfl, .inr ⟨rfl, rfl⟩⟩)
  | reservationWritten entry atPhase =>
      refine .inr (.inl ⟨?_, rfl⟩)
      rw [atPhase]
      simp only [reservedPhase]
      split <;> rfl
  | invokes entry atPhase | credentialFails entry atPhase =>
      exact .inr (.inl ⟨by rw [atPhase]; rfl, rfl⟩)
  | transportEnds entry outcome atPhase =>
      refine .inr (.inl ⟨?_, rfl⟩)
      rw [atPhase]
      cases outcome with
      | succeeded data =>
          simp only [transportPhase]
          split <;> rfl
      | refused | failed => rfl
  | reserveRefused | finds | frees | freesNothing | recordsFailure | recordsResult
  | reservationLost | closeWritten | closeLost | settles => exact .inl rfl

/-- A call without a claim changes its key only when the key is free. -/
theorem unclaimed_keeps (moves : CallMove gate id call entry move)
    (unclaimed : call.phase.claim = .nothing) : move.entry = entry ∨ entry = none := by
  cases moves with
  | reserves | closes => exact .inr rfl
  | reserveRefused | finds | freesNothing | reservationWritten | closeWritten | settles
  | invokes | credentialFails | transportEnds => exact .inl rfl
  | frees _ _ atPhase | recordsFailure _ _ atPhase | recordsResult _ _ atPhase
  | reservationLost _ atPhase | closeLost _ atPhase =>
      rw [atPhase] at unclaimed
      cases unclaimed

theorem not_waiting (moves : CallMove gate id call entry move) :
    call.phase.waitsForWrite = false := by
  cases moves with
  | settles _ _ _ ended => exact ended
  | reserves atPhase | reserveRefused _ atPhase | closes atPhase | finds _ atPhase
  | frees _ _ atPhase | freesNothing _ _ atPhase | recordsFailure _ _ atPhase
  | recordsResult _ _ atPhase | reservationWritten _ atPhase | reservationLost _ atPhase
  | closeWritten _ atPhase | closeLost _ atPhase | invokes _ atPhase
  | credentialFails _ atPhase | transportEnds _ _ atPhase =>
      rw [atPhase]
      rfl

theorem flushes_waits (moves : CallMove gate id call entry move)
    (flushes : move.flushes = true) : move.phase.waitsForWrite = true := by
  cases moves <;> first | rfl | cases flushes

/-- A durable claim that a move leaves durable is the claim there was before. -/
theorem durable_before (moves : CallMove gate id call entry move)
    (durable : move.phase.durable = true) :
    call.phase.durable = true ∧ move.phase.claim = call.phase.claim := by
  cases moves with
  | reservationWritten _ atPhase =>
      rw [atPhase]
      refine ⟨rfl, ?_⟩
      simp only [reservedPhase]
      split <;> rfl
  | invokes _ atPhase | credentialFails _ atPhase =>
      rw [atPhase]
      exact ⟨rfl, rfl⟩
  | transportEnds _ outcome atPhase =>
      rw [atPhase]
      refine ⟨rfl, ?_⟩
      cases outcome with
      | succeeded data =>
          simp only [transportPhase]
          split <;> rfl
      | refused | failed => rfl
  | reserves | reserveRefused | closes | finds | frees | freesNothing | recordsFailure
  | recordsResult | reservationLost | closeWritten | closeLost | settles => cases durable

end CallMove

/-! ### Coherence of the process -/

def GateState.writeQueue (state : GateState Value) : List Nat :=
  match state.writing with
  | some (id, _) => id :: state.writeChain
  | none => state.writeChain

/-- What ties the calls of a process to its map and to its write chain. -/
structure Coherent (state : GateState Value) : Prop where
  fresh : ∀ id, state.nextCall ≤ id → state.calls id = none
  queueNodup : state.writeQueue.Nodup
  queueWaits : ∀ id ∈ state.writeQueue, ∃ call,
    state.calls id = some call ∧ call.phase.waitsForWrite = true
  unloaded : (∀ map, state.memory ≠ .loaded map) →
    ∀ id call, state.calls id = some call → call.phase.beforeStore = true
  owned : ∀ map, state.memory = .loaded map → ∀ id call, state.calls id = some call →
    call.phase.claim = .owner → map call.key = some (.pending call.descriptor)
  closing : ∀ map, state.memory = .loaded map → ∀ id call, state.calls id = some call →
    call.phase.claim = .closer → map call.key = some (.notReceived call.descriptor)
  claimUnique : ∀ first second firstCall secondCall,
    state.calls first = some firstCall → state.calls second = some secondCall →
    firstCall.phase.claim ≠ .nothing → secondCall.phase.claim ≠ .nothing →
    firstCall.key = secondCall.key → first = second

theorem Started.coherent {state : GateState Value} (started : Started state) :
    Coherent state := by
  have noCalls : ∀ {id call}, state.calls id = some call → False := by
    intro id call found
    rw [started.calls id] at found
    cases found
  have emptyQueue : state.writeQueue = [] := by
    simp only [GateState.writeQueue, started.writing, started.writeChain]
  exact
    { fresh := fun id _late => started.calls id
      queueNodup := emptyQueue ▸ List.nodup_nil
      queueWaits := by
        intro id member
        rw [emptyQueue] at member
        cases member
      unloaded := fun _ _ _ found => (noCalls found).elim
      owned := fun _ _ _ _ found => (noCalls found).elim
      closing := fun _ _ _ _ found => (noCalls found).elim
      claimUnique := fun _ _ _ _ found => (noCalls found).elim }

/-- The state after the running write has ended for the call that waits for it. -/
def GateState.written (state : GateState Value) (id : Nat) (snapshot : FileEntries Value)
    (call : Call Value) (landed reported : Bool) : GateState Value :=
  { state.setPhase id call (call.phase.writeOver (if reported then .succeeded else .failed)) with
    file := if landed then .written snapshot else state.file
    writing := none }

/-- The file a crash leaves: the running write landed or did not. -/
def GateState.fileAfterCrash (state : GateState Value) (landed : Bool) : StoreFile Value :=
  match state.writing with
  | some (_, snapshot) => if landed then .written snapshot else state.file
  | none => state.file

def GateState.restarted (state : GateState Value) (landed : Bool) : GateState Value :=
  { state with
    file := state.fileAfterCrash landed
    memory := .loading
    calls := fun _ => none
    writeChain := []
    writing := none }

/-- Everything a step of a coherent process can do. -/
inductive StepCase (gate : Gate Params Value) (state : GateState Value)
    (label : GateLabel Params Value) : GateState Value → Prop
  | admitted (call : Call Value) (arrives : call.phase.beforeStore = true) :
      StepCase gate state label (state.enrol call)
  | loaded (map : StoreMap Value) (loading : state.memory = .loading)
      (read : ∀ key, map key = (state.fileEntry key).bind loadedEntry) :
      StepCase gate state label (state.setMap map)
  | broke (loading : state.memory = .loading) :
      StepCase gate state label { state with memory := .broken }
  | rejected (id : Nat) (call : Call Value) (found : state.calls id = some call)
      (broken : state.memory = .broken) :
      StepCase gate state label (state.setPhase id call (.answered .storeFailed))
  | moved (id : Nat) (call : Call Value) (map : StoreMap Value) (move : Move Value)
      (found : state.calls id = some call) (loaded : state.memory = .loaded map)
      (moves : CallMove gate id call (map call.key) move)
      (entered : call.phase.entersStore = true → label = .enterStore id) :
      StepCase gate state label (state.moved id call map move)
  | writeBegan (id : Nat) (rest : List Nat) (map : StoreMap Value)
      (idle : state.writing = none) (queued : state.writeChain = id :: rest)
      (loaded : state.memory = .loaded map) :
      StepCase gate state label
        { state with writing := some (id, snapshotEntries map), writeChain := rest }
  | writeEnded (id : Nat) (snapshot : FileEntries Value) (call : Call Value)
      (landed reported : Bool) (running : state.writing = some (id, snapshot))
      (found : state.calls id = some call) (honest : reported = true → landed = true) :
      StepCase gate state label (state.written id snapshot call landed reported)
  | crashed (landed : Bool) : StepCase gate state label (state.restarted landed)

private theorem applyArrives_beforeStore (gate : Gate Params Value)
    (arguments : ApplyArguments Params) :
    (applyArrives gate arguments).phase.beforeStore = true := by
  simp only [applyArrives]
  repeat' split
  all_goals rfl

private theorem lookupArrives_beforeStore (gate : Gate Params Value)
    (arguments : ApplyArguments Params) :
    (lookupArrives gate arguments).phase.beforeStore = true := by
  simp only [lookupArrives]
  split <;> rfl

private theorem load_case {state next : GateState Value}
    (moved : loadEnds state = some next) : StepCase gate state label next := by
  unfold loadEnds at moved
  split at moved
  · next loading =>
      split at moved <;> cases moved
      · next missing =>
          exact .loaded _ loading (fun key => by simp [GateState.fileEntry, missing])
      · exact .broke loading
      · next entries written =>
          exact .loaded _ loading (fun key => by simp [GateState.fileEntry, written, loadedMap])
  · cases moved

private theorem enterStore_case {state next : GateState Value} {id : Nat}
    (moved : enterStore state id = some next) :
    StepCase gate state (.enterStore id) next := by
  unfold enterStore at moved
  split at moved
  · next call map found loaded =>
      obtain ⟨move, moves, same⟩ := enterLoaded_move gate loaded moved
      rw [same]
      exact .moved id call map move found loaded moves (fun _ => rfl)
  · next call found broken =>
      split at moved <;> cases moved
      exact .rejected id call found broken
  · cases moved

private theorem writeEnds_case {state next : GateState Value} {landed reported : Bool}
    (coherent : Coherent state) (moved : writeEnds state landed reported = some next) :
    StepCase gate state label next := by
  unfold writeEnds at moved
  split at moved
  · cases moved
  · next id snapshot running =>
      split at moved
      · cases moved
      · next honest =>
          have queued : id ∈ state.writeQueue := by simp [GateState.writeQueue, running]
          obtain ⟨call, found, _waits⟩ := coherent.queueWaits id queued
          simp only [found, Option.some.injEq] at moved
          rw [← moved]
          refine .writeEnded id snapshot call landed reported running found ?_
          intro isReported
          simpa [isReported] using honest

/-- A call past its first store operation runs in a process whose map is loaded. -/
theorem Coherent.loaded_of_call {state : GateState Value} (coherent : Coherent state) {id : Nat}
    {call : Call Value} (found : state.calls id = some call)
    (past : call.phase.beforeStore = false) : ∃ map, state.memory = .loaded map := by
  by_contra unloaded
  have never : ∀ map, state.memory ≠ .loaded map := fun map same => unloaded ⟨map, same⟩
  rw [coherent.unloaded never id call found] at past
  cases past

theorem credentialEnds_move (gate : Gate Params Value) {state next : GateState Value} {id : Nat}
    {resolved : Bool} (coherent : Coherent state)
    (moved : credentialEnds state id resolved = some next) :
    ∃ call map move, state.calls id = some call ∧ state.memory = .loaded map ∧
      CallMove gate id call (map call.key) move ∧ call.phase.entersStore = false ∧
      next = state.moved id call map move := by
  unfold credentialEnds at moved
  cases found : state.calls id with
  | none => simp only [found, reduceCtorEq] at moved
  | some call =>
      simp only [found] at moved
      split at moved
      · next atPhase =>
          have atCredential : call.phase = .credential := by
            cases phase : call.phase <;> simp_all
          obtain ⟨map, loaded⟩ := coherent.loaded_of_call found (by rw [atCredential]; rfl)
          have past : call.phase.entersStore = false := by rw [atCredential]; rfl
          refine ⟨call, map, ?_⟩
          cases resolved with
          | true =>
              refine ⟨_, rfl, loaded, .invokes _ atCredential, past, ?_⟩
              rw [moved_unchanged state id call loaded]
              exact (Option.some.inj moved).symm
          | false =>
              refine ⟨_, rfl, loaded, .credentialFails _ atCredential, past, ?_⟩
              rw [moved_unchanged state id call loaded, ← Option.some.inj moved]
              simp [GateState.setPhase, GateState.setCall]
      · cases moved

theorem transportEnds_move {state next : GateState Value} {id : Nat}
    {outcome : TransportOutcome Value} (coherent : Coherent state)
    (moved : transportEnds gate state id outcome = some next) :
    ∃ call map move, state.calls id = some call ∧ state.memory = .loaded map ∧
      CallMove gate id call (map call.key) move ∧ call.phase.entersStore = false ∧
      next = state.moved id call map move := by
  unfold transportEnds at moved
  cases found : state.calls id with
  | none => simp only [found, reduceCtorEq] at moved
  | some call =>
      simp only [found] at moved
      split at moved
      · next atPhase =>
          have atTransport : call.phase = .transport := by
            cases phase : call.phase <;> simp_all
          obtain ⟨map, loaded⟩ := coherent.loaded_of_call found (by rw [atTransport]; rfl)
          have past : call.phase.entersStore = false := by rw [atTransport]; rfl
          refine ⟨call, map, _, rfl, loaded, .transportEnds _ outcome atTransport, past, ?_⟩
          rw [moved_unchanged state id call loaded, ← Option.some.inj moved]
          simp [GateState.setPhase, GateState.setCall]
      · cases moved

/-- A move outside the store operations, as a case of a step with any label. -/
private theorem StepCase.of_move {state next : GateState Value} {id : Nat}
    (moved : ∃ call map move, state.calls id = some call ∧ state.memory = .loaded map ∧
      CallMove gate id call (map call.key) move ∧ call.phase.entersStore = false ∧
      next = state.moved id call map move) : StepCase gate state label next := by
  obtain ⟨call, map, move, found, loaded, moves, past, rfl⟩ := moved
  refine .moved id call map move found loaded moves ?_
  intro enters
  rw [past] at enters
  cases enters

theorem step_cases {state next : GateState Value} {label : GateLabel Params Value}
    (coherent : Coherent state) (moved : gateStep gate state label = some next) :
    StepCase gate state label next := by
  cases label with
  | apply arguments =>
      cases moved
      exact .admitted _ (applyArrives_beforeStore gate arguments)
  | lookupApply arguments =>
      cases moved
      exact .admitted _ (lookupArrives_beforeStore gate arguments)
  | loadEnds => exact load_case moved
  | loadFails =>
      simp only [gateStep, loadFails] at moved
      split at moved <;> cases moved
      next loading => exact .broke loading
  | enterStore id => exact enterStore_case moved
  | writeBegins =>
      simp only [gateStep, writeBegins] at moved
      split at moved <;> cases moved
      next id rest map idle queued loaded => exact .writeBegan id rest map idle queued loaded
  | writeEnds landed reported => exact writeEnds_case coherent moved
  | flushReturns id => exact .of_move (flushReturns_move gate moved)
  | credentialEnds id resolved => exact .of_move (credentialEnds_move gate coherent moved)
  | transportEnds id outcome => exact .of_move (transportEnds_move coherent moved)
  | crash landed =>
      cases moved
      exact .crashed landed

/-! ### Coherence is kept -/

theorem Phase.beforeStore_claim {phase : Phase Value} (before : phase.beforeStore = true) :
    phase.claim = .nothing ∧ phase.waitsForWrite = false := by
  cases phase <;> first | exact ⟨rfl, rfl⟩ | cases before

theorem Phase.writeOver_claim (phase : Phase Value) (progress : WriteProgress) :
    (phase.writeOver progress).claim = phase.claim := by
  cases phase <;> rfl

private theorem moved_call {state : GateState Value} {id other : Nat} {call found : Call Value}
    {map : StoreMap Value} {move : Move Value}
    (at_ : (state.moved id call map move).calls other = some found) :
    (other = id ∧ found = { call with phase := move.phase }) ∨
      (other ≠ id ∧ state.calls other = some found) := by
  by_cases same : other = id
  · refine .inl ⟨same, ?_⟩
    simpa [GateState.moved, same] using at_.symm
  · refine .inr ⟨same, ?_⟩
    simpa [GateState.moved, same] using at_

private theorem moved_writeQueue (state : GateState Value) (id : Nat) (call : Call Value)
    (map : StoreMap Value) (move : Move Value) :
    (state.moved id call map move).writeQueue =
      if move.flushes then state.writeQueue ++ [id] else state.writeQueue := by
  simp only [GateState.writeQueue, GateState.moved]
  cases state.writing <;> cases move.flushes <;> simp

theorem Coherent.enrol {state : GateState Value} (coherent : Coherent state) {call : Call Value}
    (arrives : call.phase.beforeStore = true) : Coherent (state.enrol call) := by
  have unclaimed := Phase.beforeStore_claim arrives
  have split : ∀ {id found}, (state.enrol call).calls id = some found →
      (id = state.nextCall ∧ found = call) ∨
        (id ≠ state.nextCall ∧ state.calls id = some found) := by
    intro id found at_
    by_cases same : id = state.nextCall
    · exact .inl ⟨same, by simpa [GateState.enrol, GateState.setCall, same] using at_.symm⟩
    · exact .inr ⟨same, by simpa [GateState.enrol, GateState.setCall, same] using at_⟩
  have claimed : ∀ {id found}, (state.enrol call).calls id = some found →
      found.phase.claim ≠ .nothing → state.calls id = some found := by
    intro id found at_ claims
    rcases split at_ with ⟨_, same⟩ | ⟨_, old⟩
    · exact absurd (same ▸ unclaimed.1) claims
    · exact old
  exact
    { fresh := by
        intro id late
        have old := coherent.fresh id (Nat.le_of_succ_le late)
        have different : id ≠ state.nextCall := by
          intro same
          subst same
          exact Nat.not_succ_le_self _ late
        simpa [GateState.enrol, GateState.setCall, different] using old
      queueNodup := coherent.queueNodup
      queueWaits := by
        intro id queued
        obtain ⟨found, at_, waits⟩ := coherent.queueWaits id queued
        refine ⟨found, ?_, waits⟩
        have different : id ≠ state.nextCall := by
          intro same
          rw [same, coherent.fresh _ (Nat.le_refl _)] at at_
          cases at_
        simpa [GateState.enrol, GateState.setCall, different] using at_
      unloaded := by
        intro never id found at_
        rcases split at_ with ⟨_, same⟩ | ⟨_, old⟩
        · exact same ▸ arrives
        · exact coherent.unloaded never id found old
      owned := by
        intro map loaded id found at_ owner
        exact coherent.owned map loaded id found (claimed at_ (by simp [owner])) owner
      closing := by
        intro map loaded id found at_ closer
        exact coherent.closing map loaded id found (claimed at_ (by simp [closer])) closer
      claimUnique := by
        intro first second firstCall secondCall atFirst atSecond firstClaims secondClaims
        exact coherent.claimUnique first second firstCall secondCall
          (claimed atFirst firstClaims) (claimed atSecond secondClaims) firstClaims secondClaims }

/-- While no map is loaded no call claims a key, so any map or none may follow. -/
theorem Coherent.withMemory {state : GateState Value} (coherent : Coherent state)
    (never : ∀ map, state.memory ≠ .loaded map) (memory : Memory Value) :
    Coherent { state with memory } := by
  have unclaimed : ∀ {id found}, state.calls id = some found → found.phase.claim = .nothing :=
    fun at_ => (Phase.beforeStore_claim (coherent.unloaded never _ _ at_)).1
  exact
    { fresh := coherent.fresh
      queueNodup := coherent.queueNodup
      queueWaits := coherent.queueWaits
      unloaded := fun _ id found at_ => coherent.unloaded never id found at_
      owned := by
        intro map _loaded id found at_ owner
        rw [unclaimed at_] at owner
        cases owner
      closing := by
        intro map _loaded id found at_ closer
        rw [unclaimed at_] at closer
        cases closer
      claimUnique := fun _ _ _ _ atFirst _ claims => absurd (unclaimed atFirst) claims }

theorem coherent_restarted (state : GateState Value) (landed : Bool) :
    Coherent (state.restarted landed) :=
  { fresh := fun _ _ => rfl
    queueNodup := List.nodup_nil
    queueWaits := fun _ member => nomatch member
    unloaded := fun _ _ _ found => nomatch found
    owned := fun _ _ _ _ found => nomatch found
    closing := fun _ _ _ _ found => nomatch found
    claimUnique := fun _ _ _ _ found => nomatch found }

theorem Coherent.moved {state : GateState Value} (coherent : Coherent state) {id : Nat}
    {call : Call Value} {map : StoreMap Value} {move : Move Value}
    (found : state.calls id = some call) (loaded : state.memory = .loaded map)
    (moves : CallMove gate id call (map call.key) move) :
    Coherent (state.moved id call map move) := by
  have notQueued : id ∉ state.writeQueue := by
    intro queued
    obtain ⟨waiting, at_, waits⟩ := coherent.queueWaits id queued
    rw [found, Option.some.injEq] at at_
    rw [← at_, moves.not_waiting] at waits
    cases waits
  -- The moving call either keeps the claim it had or takes a key nobody claims.
  have claimBefore : move.phase.claim ≠ .nothing →
      (call.phase.claim = move.phase.claim ∧ move.entry = map call.key) ∨
        map call.key = none := by
    intro claims
    rcases moves.claims with ended | kept | taken
    · exact absurd ended claims
    · exact .inl kept
    · exact .inr taken.1
  have notFree : ∀ {other held}, state.calls other = some held → held.phase.claim ≠ .nothing →
      map held.key ≠ none := by
    intro other held at_ claims free
    cases kind : held.phase.claim with
    | nothing => exact claims kind
    | owner =>
        rw [coherent.owned map loaded other held at_ kind] at free
        cases free
    | closer =>
        rw [coherent.closing map loaded other held at_ kind] at free
        cases free
  -- Another call's claimed key is not touched by this move.
  have untouched : ∀ {other held}, other ≠ id → state.calls other = some held →
      held.phase.claim ≠ .nothing →
      map.put call.key move.entry held.key = map held.key := by
    intro other held different at_ claims
    by_cases same : held.key = call.key
    · have unclaimed : call.phase.claim = .nothing := by
        by_contra callClaims
        exact different
          (coherent.claimUnique other id held call at_ found claims callClaims same)
      rcases moves.unclaimed_keeps unclaimed with kept | free
      · rw [same, StoreMap.put_same, kept]
      · exact absurd (same ▸ free) (notFree at_ claims)
    · exact map.put_other move.entry same
  have distinct : ∀ {other held}, other ≠ id → state.calls other = some held →
      held.phase.claim ≠ .nothing → move.phase.claim ≠ .nothing → held.key ≠ call.key := by
    intro other held different at_ claims moveClaims same
    rcases claimBefore moveClaims with ⟨kept, _⟩ | free
    · exact different
        (coherent.claimUnique other id held call at_ found claims (kept ▸ moveClaims) same)
    · exact notFree at_ claims (same ▸ free)
  refine
    { fresh := ?_, queueNodup := ?_, queueWaits := ?_, unloaded := ?_, owned := ?_,
      closing := ?_, claimUnique := ?_ }
  · intro other late
    have different : other ≠ id := by
      intro same
      rw [same] at late
      rw [coherent.fresh id late] at found
      cases found
    simpa [GateState.moved, different] using coherent.fresh other late
  · rw [moved_writeQueue]
    split
    · exact List.nodup_append.mpr ⟨coherent.queueNodup, by simp, by
        intro queued member other single same
        exact notQueued (List.mem_singleton.mp single ▸ same ▸ member)⟩
    · exact coherent.queueNodup
  · intro other queued
    rw [moved_writeQueue] at queued
    by_cases same : other = id
    · subst other
      split at queued
      · next flushes =>
          exact ⟨{ call with phase := move.phase }, by simp [GateState.moved],
            moves.flushes_waits flushes⟩
      · exact absurd queued notQueued
    · have inQueue : other ∈ state.writeQueue := by
        split at queued
        · rcases List.mem_append.mp queued with old | single
          · exact old
          · exact absurd (List.mem_singleton.mp single) same
        · exact queued
      obtain ⟨waiting, at_, waits⟩ := coherent.queueWaits other inQueue
      exact ⟨waiting, by simpa [GateState.moved, same] using at_, waits⟩
  · intro never
    exact absurd rfl (never (map.put call.key move.entry))
  · intro newMap newLoaded other held at_ owner
    obtain rfl : map.put call.key move.entry = newMap := by
      simpa [GateState.moved] using newLoaded
    rcases moved_call at_ with ⟨_, rfl⟩ | ⟨different, old⟩
    · rw [StoreMap.put_same]
      rcases moves.claims with ended | ⟨kept, entryKept⟩ | ⟨_, taken | closed⟩
      · rw [ended] at owner
        cases owner
      · rw [entryKept]
        exact coherent.owned map loaded id call found (kept.trans owner)
      · exact taken.2
      · rw [closed.1] at owner
        cases owner
    · rw [untouched different old (by simp [owner])]
      exact coherent.owned map loaded other held old owner
  · intro newMap newLoaded other held at_ closer
    obtain rfl : map.put call.key move.entry = newMap := by
      simpa [GateState.moved] using newLoaded
    rcases moved_call at_ with ⟨_, rfl⟩ | ⟨different, old⟩
    · rw [StoreMap.put_same]
      rcases moves.claims with ended | ⟨kept, entryKept⟩ | ⟨_, taken | closed⟩
      · rw [ended] at closer
        cases closer
      · rw [entryKept]
        exact coherent.closing map loaded id call found (kept.trans closer)
      · rw [taken.1] at closer
        cases closer
      · exact closed.2
    · rw [untouched different old (by simp [closer])]
      exact coherent.closing map loaded other held old closer
  · intro first second firstCall secondCall atFirst atSecond firstClaims secondClaims same
    rcases moved_call atFirst with ⟨rfl, rfl⟩ | ⟨firstOther, firstOld⟩ <;>
      rcases moved_call atSecond with ⟨rfl, rfl⟩ | ⟨secondOther, secondOld⟩
    · rfl
    · exact absurd same.symm (distinct secondOther secondOld secondClaims firstClaims)
    · exact absurd same (distinct firstOther firstOld firstClaims secondClaims)
    · exact coherent.claimUnique first second firstCall secondCall firstOld secondOld
        firstClaims secondClaims same

/-- A change of one call's phase that leaves its claim, its map and its queue alone. -/
theorem Coherent.rejected {state : GateState Value} (coherent : Coherent state) {id : Nat}
    {call : Call Value} (found : state.calls id = some call) (broken : state.memory = .broken) :
    Coherent (state.setPhase id call (.answered .storeFailed)) := by
  have never : ∀ map, state.memory ≠ .loaded map := by
    intro map loaded
    rw [broken] at loaded
    cases loaded
  have before : ∀ {other held},
      (state.setPhase id call (.answered .storeFailed)).calls other = some held →
        held.phase.beforeStore = true := by
    intro other held at_
    by_cases same : other = id
    · have heldSame : { call with phase := .answered .storeFailed } = held := by
        simpa [GateState.setPhase, GateState.setCall, same] using at_
      rw [← heldSame]
      rfl
    · exact coherent.unloaded never other held
        (by simpa [GateState.setPhase, GateState.setCall, same] using at_)
  have unclaimed : ∀ {other held},
      (state.setPhase id call (.answered .storeFailed)).calls other = some held →
        held.phase.claim = .nothing :=
    fun at_ => (Phase.beforeStore_claim (before at_)).1
  exact
    { fresh := by
        intro other late
        have different : other ≠ id := by
          intro same
          rw [← same, coherent.fresh other late] at found
          cases found
        simpa [GateState.setPhase, GateState.setCall, different] using coherent.fresh other late
      queueNodup := coherent.queueNodup
      queueWaits := by
        intro other queued
        obtain ⟨waiting, at_, waits⟩ := coherent.queueWaits other queued
        have idle := (Phase.beforeStore_claim (coherent.unloaded never other waiting at_)).2
        rw [idle] at waits
        cases waits
      unloaded := fun _ other held at_ => before at_
      owned := fun map loaded => absurd loaded (never map)
      closing := fun map loaded => absurd loaded (never map)
      claimUnique := fun _ _ _ _ atFirst _ claims => absurd (unclaimed atFirst) claims }

theorem Coherent.writeBegan {state : GateState Value} (coherent : Coherent state) {id : Nat}
    {rest : List Nat} (snapshot : FileEntries Value) (idle : state.writing = none)
    (queued : state.writeChain = id :: rest) :
    Coherent { state with writing := some (id, snapshot), writeChain := rest } := by
  have sameQueue :
      ({ state with writing := some (id, snapshot), writeChain := rest } :
        GateState Value).writeQueue = state.writeQueue := by
    simp only [GateState.writeQueue, idle, queued]
  exact
    { fresh := coherent.fresh
      queueNodup := sameQueue ▸ coherent.queueNodup
      queueWaits := fun other member => coherent.queueWaits other (sameQueue ▸ member)
      unloaded := coherent.unloaded
      owned := coherent.owned
      closing := coherent.closing
      claimUnique := coherent.claimUnique }

theorem written_call {state : GateState Value} {id other : Nat} {call found : Call Value}
    {snapshot : FileEntries Value} {landed reported : Bool}
    (at_ : (state.written id snapshot call landed reported).calls other = some found) :
    (other = id ∧ found =
        { call with phase := call.phase.writeOver (if reported then .succeeded else .failed) }) ∨
      (other ≠ id ∧ state.calls other = some found) := by
  by_cases same : other = id
  · refine .inl ⟨same, ?_⟩
    simpa [GateState.written, GateState.setPhase, GateState.setCall, same] using at_.symm
  · refine .inr ⟨same, ?_⟩
    simpa [GateState.written, GateState.setPhase, GateState.setCall, same] using at_

theorem Coherent.written {state : GateState Value} (coherent : Coherent state) {id : Nat}
    {snapshot : FileEntries Value} {call : Call Value} (landed reported : Bool)
    (running : state.writing = some (id, snapshot)) (found : state.calls id = some call) :
    Coherent (state.written id snapshot call landed reported) := by
  -- Every call of the new state is a call of the old one with the same key and claim.
  have origin : ∀ {other held},
      (state.written id snapshot call landed reported).calls other = some held →
        ∃ old, state.calls other = some old ∧ old.key = held.key ∧
          old.descriptor = held.descriptor ∧ old.phase.claim = held.phase.claim := by
    intro other held at_
    rcases written_call at_ with ⟨rfl, rfl⟩ | ⟨_, old⟩
    · exact ⟨call, found, rfl, rfl, (call.phase.writeOver_claim _).symm⟩
    · exact ⟨held, old, rfl, rfl, rfl⟩
  have queue : state.writeQueue = id :: state.writeChain := by
    simp only [GateState.writeQueue, running]
  have queueNodup := coherent.queueNodup
  rw [queue, List.nodup_cons] at queueNodup
  refine
    { fresh := ?_, queueNodup := queueNodup.2, queueWaits := ?_, unloaded := ?_, owned := ?_,
      closing := ?_, claimUnique := ?_ }
  · intro other late
    have different : other ≠ id := by
      intro same
      rw [← same, coherent.fresh other late] at found
      cases found
    simpa [GateState.written, GateState.setPhase, GateState.setCall, different] using
      coherent.fresh other late
  · intro other queued
    have inChain : other ∈ state.writeChain := queued
    have different : other ≠ id := fun same => queueNodup.1 (same ▸ inChain)
    obtain ⟨waiting, at_, waits⟩ :=
      coherent.queueWaits other (by rw [queue]; exact List.mem_cons_of_mem _ inChain)
    exact ⟨waiting, by
      simpa [GateState.written, GateState.setPhase, GateState.setCall, different] using at_,
      waits⟩
  · intro never other held at_
    rcases written_call at_ with ⟨rfl, rfl⟩ | ⟨_, old⟩
    · have before := coherent.unloaded never _ call found
      cases phase : call.phase <;> rw [phase] at before <;> first | rfl | cases before
    · exact coherent.unloaded never other held old
  · intro map loaded other held at_ owner
    obtain ⟨old, atOld, sameKey, sameDescriptor, sameClaim⟩ := origin at_
    rw [← sameKey, ← sameDescriptor]
    exact coherent.owned map loaded other old atOld (sameClaim.trans owner)
  · intro map loaded other held at_ closer
    obtain ⟨old, atOld, sameKey, sameDescriptor, sameClaim⟩ := origin at_
    rw [← sameKey, ← sameDescriptor]
    exact coherent.closing map loaded other old atOld (sameClaim.trans closer)
  · intro first second firstCall secondCall atFirst atSecond firstClaims secondClaims same
    obtain ⟨firstOld, atFirstOld, firstKey, _, firstClaim⟩ := origin atFirst
    obtain ⟨secondOld, atSecondOld, secondKey, _, secondClaim⟩ := origin atSecond
    exact coherent.claimUnique first second firstOld secondOld atFirstOld atSecondOld
      (firstClaim ▸ firstClaims) (secondClaim ▸ secondClaims)
      (firstKey.trans (same.trans secondKey.symm))

theorem StepCase.coherent {state next : GateState Value} (coherent : Coherent state)
    (step : StepCase gate state label next) : Coherent next := by
  cases step with
  | admitted call arrives => exact coherent.enrol arrives
  | loaded map loading read =>
      exact coherent.withMemory (fun other same => by rw [loading] at same; cases same) _
  | broke loading =>
      exact coherent.withMemory (fun other same => by rw [loading] at same; cases same) _
  | rejected id call found broken => exact coherent.rejected found broken
  | moved id call map move found loaded moves entered => exact coherent.moved found loaded moves
  | writeBegan id rest map idle queued loaded => exact coherent.writeBegan _ idle queued
  | writeEnded id snapshot call landed reported running found honest =>
      exact coherent.written landed reported running found
  | crashed landed => exact coherent_restarted state landed

end NextTime.Gatekeeper
