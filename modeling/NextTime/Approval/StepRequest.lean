import NextTime.Approval.ActionRequest
import NextTime.Library.LabelledRun
import Mathlib.Data.List.Sort

/-
One goal step and one business-action identity. Every statement of a
`requestAction` transaction is a step of its own: the read of the newest row of
the identity, the check for an action in doubt, the INSERT with its partial
unique index, the read after a conflict, and the commit. Between them the rows
already committed are approved, run, ended, reconciled and decided on. The rows
stand in the order of their INSERTs, which is not the order of `requested_at`.
-/

namespace NextTime.Approval

/-- The columns of `action_requests` the identity of a step reads and writes. -/
structure StepRequest where
  id : Nat
  requestedAt : Int
  status : ActionRequestStatus
  failureKind : Option ActionRequestFailureKind
  reconciliation : Option ActionRequestReconciliation
  reexecuteDecided : Bool
deriving DecidableEq, Repr

/-- A row with what no column says: the transaction whose INSERT is not
committed yet, whether the request ever ran, and the requests that were known to
have had no effect when this one was inserted. -/
structure StepRow extends StepRequest where
  writer : Option Nat
  started : Bool
  withoutEffectBefore : List Nat
deriving DecidableEq, Repr

/-- The test of `findStepReplay` on the newest row. -/
def StepRequest.replayed (request : StepRequest) : Bool :=
  inFlightStatus request.status || request.status == .executed || request.status == .verified ||
    (request.status == .failed && request.failureKind == some .outcomeUnknown &&
      !request.reexecuteDecided)

/-- `assertNoActionInDoubt` on a row of the identity itself. -/
def StepRequest.inDoubt (request : StepRequest) : Bool :=
  request.status == .failed && request.failureKind == some .outcomeUnknown &&
    request.reconciliation == none

/-- `order by requested_at desc, id desc`. -/
def requestedAfter (a b : StepRow) : Bool :=
  b.requestedAt < a.requestedAt || (a.requestedAt == b.requestedAt && b.id ≤ a.id)

/-- `limit 1` over the rows other transactions can see. -/
def newestRow (rows : List StepRow) : Option StepRow :=
  ((rows.filter fun row => row.writer == none).insertionSort
    fun a b => requestedAfter a b = true).head?

/-- No column holds which row refused an INSERT, or whether the row a request was answered with
stood for it: its own, the one that refused its INSERT, or one `findStepReplay` replays. -/
inductive RequestPhase
  | idle
  | begun (now : Int)
  | looked (now : Int) (newest : Option Nat)
  | cleared (now : Int) (newest : Option Nat)
  | conflicted (refusedBy : Nat)
  | inserted (id : Nat)
  | answered (id : Nat) (stood : Bool)
  | refused
deriving DecidableEq, Repr

structure StepRequests where
  rows : List StepRow
  transactions : Nat → RequestPhase

inductive RequestLabel
  | begins (transaction : Nat) (now : Int)
  | looks (transaction : Nat)
  | checksDoubt (transaction : Nat) (otherInDoubt : Bool)
  | inserts (transaction : Nat) (id : Nat) (resolved : ActionRequestStatus)
  | collapses (transaction : Nat)
  | commits (transaction : Nat)
  | aborts (transaction : Nat)
  | transitions (id : Nat) (event : ActionRequestEvent) (kind : ActionRequestFailureKind)
  | reconciles (id : Nat) (verdict : ActionRequestReconciliation)
  | decidesReexecute (id : Nat)
deriving DecidableEq, Repr

namespace StepRequests

variable (state : StepRequests)

def empty : StepRequests :=
  { rows := []
    transactions := fun _ => .idle }

def setTransaction (transaction : Nat) (phase : RequestPhase) : StepRequests :=
  { state with
    transactions := fun other =>
      if other = transaction then phase else state.transactions other }

end StepRequests

def findStepRow (rows : List StepRow) (id : Nat) : Option StepRow :=
  rows.find? fun row => row.id == id

def updateStepRow (rows : List StepRow) (id : Nat) (change : StepRow → StepRow) : List StepRow :=
  rows.map fun row => if row.id = id then change row else row

/-- `findStepReplay`. -/
def looksForReplay (state : StepRequests) (transaction : Nat) : Option StepRequests :=
  match state.transactions transaction with
  | .begun now =>
      match newestRow state.rows with
      | none => some (state.setTransaction transaction (.looked now none))
      | some newest =>
          if newest.replayed then
            some (state.setTransaction transaction (.answered newest.id newest.replayed))
          else some (state.setTransaction transaction (.looked now (some newest.id)))
  | _ => none

/-- `assertNoActionInDoubt`; a request of the Operation with other parameters is
the argument. -/
def checksNoActionInDoubt (state : StepRequests) (transaction : Nat) (otherInDoubt : Bool) :
    Option StepRequests :=
  match state.transactions transaction with
  | .looked now newest =>
      if otherInDoubt || state.rows.any (fun row => row.writer == none && row.inDoubt) then
        some (state.setTransaction transaction .refused)
      else some (state.setTransaction transaction (.cleared now newest))
  | _ => none

/-- Known not to have taken effect, and never to take any later. -/
def StepRequest.withoutEffect (request : StepRequest) : Bool :=
  match request.status with
  | .denied | .withdrawn | .expired | .rejected => true
  | .failed =>
      request.failureKind == some .notDelivered || request.failureKind == some .refused ||
        (request.failureKind == some .outcomeUnknown &&
          request.reconciliation == some .effectAbsent && request.reexecuteDecided)
  | _ => false

/-- What the partial unique index says to an INSERT: it covers in-flight rows
only, waits for one that is not committed and refuses beside one that is. -/
inductive IndexVerdict
  | waits
  | conflicts (refusedBy : Nat)
  | accepts
deriving DecidableEq, Repr

def inFlightIndex (rows : List StepRow) (resolved : ActionRequestStatus) : IndexVerdict :=
  if inFlightStatus resolved then
    if rows.any fun row => row.writer != none && inFlightStatus row.status then .waits
    else
      match rows.find? fun row => inFlightStatus row.status with
      | some row => .conflicts row.id
      | none => .accepts
  else .accepts

/-- The statuses the policy resolves a request to. -/
def resolvedStatus : ActionRequestStatus → Bool
  | .autoApproved | .pendingApproval | .denied => true
  | _ => false

/-- The row of one INSERT; `requested_at` is when its transaction began. -/
def insertedRow (rows : List StepRow) (transaction id : Nat) (now : Int)
    (resolved : ActionRequestStatus) : StepRow :=
  { id := id
    requestedAt := now
    status := resolved
    failureKind := none
    reconciliation := none
    reexecuteDecided := false
    writer := some transaction
    started := false
    withoutEffectBefore := (rows.filter fun row => row.withoutEffect).map (·.id) }

def insertActionRequestRow (state : StepRequests) (transaction id : Nat)
    (resolved : ActionRequestStatus) : Option StepRequests :=
  match state.transactions transaction with
  | .cleared now _ =>
      if resolvedStatus resolved && (findStepRow state.rows id).isNone then
        match inFlightIndex state.rows resolved with
        | .waits => none
        | .conflicts refusedBy =>
            some (state.setTransaction transaction (.conflicted refusedBy))
        | .accepts =>
            some
              { state.setTransaction transaction (.inserted id) with
                rows := state.rows ++ [insertedRow state.rows transaction id now resolved] }
      else none
  | _ => none

/-- `findReplayableActionRequest` after the conflict: the newest row, whatever its status. -/
def collapsesOntoNewest (state : StepRequests) (transaction : Nat) : Option StepRequests :=
  match state.transactions transaction with
  | .conflicted refusedBy =>
      match newestRow state.rows with
      | none => some (state.setTransaction transaction .refused)
      | some newest =>
          some
            (state.setTransaction transaction
              (.answered newest.id (newest.id == refusedBy || newest.replayed)))
  | _ => none

def commitsRequest (state : StepRequests) (transaction : Nat) : Option StepRequests :=
  match state.transactions transaction with
  | .inserted id =>
      some
        { state.setTransaction transaction (.answered id true) with
          rows := updateStepRow state.rows id fun row => { row with writer := none } }
  | _ => none

/-- A rollback at any point takes the transaction's own row with it. -/
def abortsRequest (state : StepRequests) (transaction : Nat) : Option StepRequests :=
  some
    { state.setTransaction transaction .idle with
      rows := state.rows.filter fun row => row.writer != some transaction }

/-- A committed row moved along its table. Nothing in the kernel compensates a request. -/
def transitionStepRow (state : StepRequests) (id : Nat) (event : ActionRequestEvent)
    (kind : ActionRequestFailureKind) : Option StepRequests :=
  match findStepRow state.rows id with
  | none => none
  | some row =>
      if row.writer ≠ none ∨ event = .compensate then none
      else
        (transition row.status event).map fun status =>
          { state with
            rows := updateStepRow state.rows id fun row =>
              { row with
                status := status
                failureKind := if event = .fail then some kind else row.failureKind
                started := row.started || status == .executing } }

/-- `reconcileActionRequest` with a verdict: recorded once, of an unknown outcome. -/
def reconcilesStepRow (state : StepRequests) (id : Nat) (verdict : ActionRequestReconciliation) :
    Option StepRequests :=
  match findStepRow state.rows id with
  | none => none
  | some row =>
      if row.writer = none ∧ row.inDoubt then
        some
          { state with
            rows := updateStepRow state.rows id fun row =>
              { row with reconciliation := some verdict } }
      else none

/-- `reconcileActionRequest` with `reexecute`: only once no effect was found. -/
def decidesReexecuteStepRow (state : StepRequests) (id : Nat) : Option StepRequests :=
  match findStepRow state.rows id with
  | none => none
  | some row =>
      if row.writer = none ∧ row.status = .failed ∧ row.failureKind = some .outcomeUnknown ∧
          row.reconciliation = some .effectAbsent then
        some
          { state with
            rows := updateStepRow state.rows id fun row => { row with reexecuteDecided := true } }
      else none

def requestStep (state : StepRequests) : RequestLabel → Option StepRequests
  | .begins transaction now =>
      if state.transactions transaction = .idle then
        some (state.setTransaction transaction (.begun now))
      else none
  | .looks transaction => looksForReplay state transaction
  | .checksDoubt transaction otherInDoubt => checksNoActionInDoubt state transaction otherInDoubt
  | .inserts transaction id resolved => insertActionRequestRow state transaction id resolved
  | .collapses transaction => collapsesOntoNewest state transaction
  | .commits transaction => commitsRequest state transaction
  | .aborts transaction => abortsRequest state transaction
  | .transitions id event kind => transitionStepRow state id event kind
  | .reconciles id verdict => reconcilesStepRow state id verdict
  | .decidesReexecute id => decidesReexecuteStepRow state id

def stepRequestSystem : LabelledRun.System StepRequests RequestLabel :=
  { initial := fun state => state = .empty
    step := requestStep }

/-- One step action runs at most once: two requests of one identity both ran only
if the earlier was known to have had no effect before the later was inserted; a
second row exists at all only then; and whoever is answered is answered with its own
row, the row that refused its INSERT, or one that could be replayed. -/
structure AtMostOneRun (state : StepRequests) : Prop where
  ran : state.rows.Pairwise fun earlier later =>
    earlier.started → later.started → earlier.id ∈ later.withoutEffectBefore
  alone : state.rows.Pairwise fun earlier later => earlier.id ∈ later.withoutEffectBefore
  answered : ∀ transaction id stood, state.transactions transaction = .answered id stood →
    stood = true ∧ ∃ row ∈ state.rows, row.id = id ∧ row.writer = none

/-! ### When the read still holds at the INSERT -/

/-- The rows inserted after the one a transaction read as the newest; all of them
when it read none. -/
def insertedSince (rows : List StepRow) : Option Nat → List StepRow
  | none => rows
  | some newest => (rows.dropWhile fun row => row.id != newest).drop 1

/-- An INSERT the index accepts finds no row inserted since the transaction's read
that `findStepReplay` would replay. And where the index refused the INSERT, every row
that did not, and that `findStepReplay` passes over, was requested before one that did,
or that can be replayed. -/
def ReadStillHolds (state : StepRequests) : RequestLabel → Prop
  | .inserts transaction _ resolved =>
      match state.transactions transaction with
      | .cleared _ newest =>
          inFlightIndex state.rows resolved = .accepts →
            ∀ row ∈ insertedSince state.rows newest, row.replayed = false
      | _ => True
  | .collapses transaction =>
      match state.transactions transaction with
      | .conflicted refusedBy =>
          ∀ row ∈ state.rows, row.writer = none → row.id ≠ refusedBy → row.replayed = false →
            ∃ other ∈ state.rows, other.writer = none ∧ requestedAfter other row = true ∧
              (other.id = refusedBy ∨ other.replayed = true)
      | _ => True
  | _ => True

instance (state : StepRequests) (label : RequestLabel) : Decidable (ReadStillHolds state label) := by
  unfold ReadStillHolds
  split
  · split <;> infer_instance
  · split <;> infer_instance
  · infer_instance

/-! ### Rows that are found, changed and read -/

theorem findStepRow_some {rows : List StepRow} {id : Nat} {row : StepRow}
    (found : findStepRow rows id = some row) : row ∈ rows ∧ row.id = id :=
  ⟨List.mem_of_find?_eq_some found, by simpa using List.find?_some found⟩

theorem findStepRow_none {rows : List StepRow} {id : Nat} (absent : findStepRow rows id = none) :
    id ∉ rows.map (·.id) := by
  intro member
  obtain ⟨row, inRows, same⟩ := List.mem_map.mp member
  have differs := List.find?_eq_none.mp absent row inRows
  exact differs (by simpa using same)

theorem newestRow_mem {rows : List StepRow} {newest : StepRow}
    (read : newestRow rows = some newest) : newest ∈ rows ∧ newest.writer = none := by
  have sorted := List.mem_of_head? read
  have visible := (List.mem_insertionSort _).mp sorted
  have ⟨inRows, committed⟩ := List.mem_filter.mp visible
  exact ⟨inRows, by simpa using committed⟩

theorem requestedAfter_antisymm {first second : StepRow} (one : requestedAfter first second = true)
    (two : requestedAfter second first = true) : first.id = second.id := by
  simp only [requestedAfter, Bool.or_eq_true, Bool.and_eq_true, decide_eq_true_eq,
    beq_iff_eq] at one two
  omega

/-- No row that others can see was requested after the newest. -/
theorem newestRow_first {rows : List StepRow} {newest : StepRow}
    (read : newestRow rows = some newest) {row : StepRow} (member : row ∈ rows)
    (committed : row.writer = none) : requestedAfter newest row = true := by
  have total (a b : StepRow) : requestedAfter a b = true ∨ requestedAfter b a = true := by
    simp only [requestedAfter, Bool.or_eq_true, Bool.and_eq_true, decide_eq_true_eq, beq_iff_eq]
    omega
  have trans (a b c : StepRow) (first : requestedAfter a b = true)
      (second : requestedAfter b c = true) : requestedAfter a c = true := by
    simp only [requestedAfter, Bool.or_eq_true, Bool.and_eq_true, decide_eq_true_eq,
      beq_iff_eq] at first second ⊢
    omega
  have total' : Std.Total fun a b : StepRow => requestedAfter a b = true := ⟨total⟩
  have trans' : IsTrans StepRow fun a b => requestedAfter a b = true := ⟨trans⟩
  have sorted := List.pairwise_insertionSort (fun a b : StepRow => requestedAfter a b = true)
    (rows.filter fun row => row.writer == none)
  have isIn : row ∈ (rows.filter fun row => row.writer == none).insertionSort
      fun a b => requestedAfter a b = true :=
    (List.mem_insertionSort _).mpr (List.mem_filter.mpr ⟨member, by simpa using committed⟩)
  unfold newestRow at read
  obtain ⟨rest, split⟩ := List.head?_eq_some_iff.mp read
  rw [split] at sorted isIn
  cases List.mem_cons.mp isIn with
  | inl same =>
      rw [same]
      simp [requestedAfter]
  | inr later => exact (List.pairwise_cons.mp sorted).1 row later

theorem same_row_of_id {rows : List StepRow} (distinct : (rows.map (·.id)).Nodup)
    {first second : StepRow} (inFirst : first ∈ rows) (inSecond : second ∈ rows)
    (same : first.id = second.id) : first = second :=
  List.inj_on_of_nodup_map distinct inFirst inSecond same

/-! ### The invariant -/

/-- What the transitions and the reconciliation leave a row in. -/
structure RowSound (row : StepRow) : Prop where
  notCompensated : row.status ≠ .compensated
  failureKind : row.status = .failed → row.failureKind ≠ none
  decided : row.reexecuteDecided = true → row.status = .failed ∧
    row.failureKind = some .outcomeUnknown ∧ row.reconciliation = some .effectAbsent

/-- A row `findStepReplay` passes over has had no effect and will have none. -/
theorem RowSound.withoutEffect {row : StepRow} (sound : RowSound row)
    (passed : row.replayed = false) : row.withoutEffect = true := by
  obtain ⟨notCompensated, failureKind, decided⟩ := sound
  unfold StepRequest.replayed at passed
  unfold StepRequest.withoutEffect
  cases status : row.status with
  | failed =>
      have named := failureKind status
      cases kind : row.failureKind with
      | none => exact absurd kind named
      | some cause =>
          cases cause with
          | notDelivered => simp
          | refused => simp
          | outcomeUnknown =>
              rw [status, kind] at passed
              have again : row.reexecuteDecided = true := by simpa [inFlightStatus] using passed
              simp [again, (decided again).2.2]
  | compensated => exact absurd status notCompensated
  | _ => simp_all [inFlightStatus]

/-- What a transaction holds on to from its reads and its INSERT. -/
def PhaseSound (rows : List StepRow) (transaction : Nat) : RequestPhase → Prop
  | .looked _ (some newest) | .cleared _ (some newest) =>
      ∃ row ∈ rows, row.id = newest ∧ row.writer = none ∧ row.withoutEffect = true
  | .inserted id =>
      ∃ row ∈ rows, row.id = id ∧ (row.writer = some transaction ∨ row.writer = none)
  | .answered id stood => stood = true ∧ ∃ row ∈ rows, row.id = id ∧ row.writer = none
  | _ => True

structure StepSafe (state : StepRequests) : Prop where
  distinct : (state.rows.map (·.id)).Nodup
  sound : ∀ row ∈ state.rows, RowSound row
  settled : state.rows.Pairwise fun earlier later =>
    earlier.withoutEffect = true ∧ earlier.id ∈ later.withoutEffectBefore
  phases : ∀ transaction, PhaseSound state.rows transaction (state.transactions transaction)

theorem StepSafe.setTransaction {state : StepRequests} (safe : StepSafe state) (transaction : Nat)
    (phase : RequestPhase) (sound : PhaseSound state.rows transaction phase) :
    StepSafe (state.setTransaction transaction phase) := by
  refine ⟨safe.distinct, safe.sound, safe.settled, ?_⟩
  intro other
  unfold StepRequests.setTransaction
  by_cases same : other = transaction
  · simpa [same] using sound
  · simpa [same] using safe.phases other

/-! ### One row changes -/

/-- A change of a row that keeps its place, its history and its lack of effect. -/
structure KeepsRow (row changed : StepRow) : Prop where
  id : changed.id = row.id
  before : changed.withoutEffectBefore = row.withoutEffectBefore
  writer : changed.writer = row.writer ∨ changed.writer = none
  sound : RowSound changed
  withoutEffect : row.withoutEffect = true → changed.withoutEffect = true

theorem updateStepRow_ids {rows : List StepRow} {id : Nat} {change : StepRow → StepRow}
    (keeps : ∀ row ∈ rows, row.id = id → KeepsRow row (change row)) :
    (updateStepRow rows id change).map (·.id) = rows.map (·.id) := by
  unfold updateStepRow
  rw [List.map_map]
  apply List.map_congr_left
  intro row member
  simp only [Function.comp]
  by_cases chosen : row.id = id
  · rw [if_pos chosen]
    exact (keeps row member chosen).id
  · rw [if_neg chosen]

/-- Every row of the changed table is one of the old table, kept. -/
theorem updateStepRow_keeps {rows : List StepRow} {id : Nat} {change : StepRow → StepRow}
    (sound : ∀ row ∈ rows, RowSound row)
    (keeps : ∀ row ∈ rows, row.id = id → KeepsRow row (change row)) {row : StepRow}
    (member : row ∈ rows) : KeepsRow row (if row.id = id then change row else row) := by
  by_cases chosen : row.id = id
  · rw [if_pos chosen]
    exact keeps row member chosen
  · rw [if_neg chosen]
    exact ⟨rfl, rfl, .inl rfl, sound row member, fun holds => holds⟩

theorem PhaseSound.update {rows : List StepRow} {id : Nat} {change : StepRow → StepRow}
    (sound : ∀ row ∈ rows, RowSound row)
    (keeps : ∀ row ∈ rows, row.id = id → KeepsRow row (change row)) {transaction : Nat}
    {phase : RequestPhase} (holds : PhaseSound rows transaction phase) :
    PhaseSound (updateStepRow rows id change) transaction phase := by
  have kept : ∀ row ∈ rows, ∃ changed ∈ updateStepRow rows id change, KeepsRow row changed :=
    fun row member => ⟨_, List.mem_map_of_mem member, updateStepRow_keeps sound keeps member⟩
  have committed : ∀ found, (∃ row ∈ rows, row.id = found ∧ row.writer = none) →
      ∃ row ∈ updateStepRow rows id change, row.id = found ∧ row.writer = none := by
    rintro found ⟨row, member, same, writer⟩
    obtain ⟨changed, inTable, keep⟩ := kept row member
    have writers := keep.writer
    rw [writer] at writers
    exact ⟨changed, inTable, keep.id.trans same, writers.elim (fun h => h) fun h => h⟩
  have read : ∀ found, (∃ row ∈ rows, row.id = found ∧ row.writer = none ∧
        row.withoutEffect = true) →
      ∃ row ∈ updateStepRow rows id change, row.id = found ∧ row.writer = none ∧
        row.withoutEffect = true := by
    rintro found ⟨row, member, same, writer, effect⟩
    obtain ⟨changed, inTable, keep⟩ := kept row member
    have writers := keep.writer
    rw [writer] at writers
    exact ⟨changed, inTable, keep.id.trans same, writers.elim (fun h => h) fun h => h,
      keep.withoutEffect effect⟩
  cases phase with
  | looked now newest =>
      cases newest with
      | none => trivial
      | some newest => exact read newest holds
  | cleared now newest =>
      cases newest with
      | none => trivial
      | some newest => exact read newest holds
  | inserted found =>
      obtain ⟨row, member, same, writer⟩ := holds
      obtain ⟨changed, inTable, keep⟩ := kept row member
      refine ⟨changed, inTable, keep.id.trans same, ?_⟩
      rcases keep.writer with unchanged | released
      · rw [unchanged]
        exact writer
      · exact .inr released
  | answered found stood => exact ⟨holds.1, committed found holds.2⟩
  | idle => trivial
  | begun now => trivial
  | conflicted refusedBy => trivial
  | refused => trivial

theorem StepSafe.update {state : StepRequests} (safe : StepSafe state) (id : Nat)
    (change : StepRow → StepRow)
    (keeps : ∀ row ∈ state.rows, row.id = id → KeepsRow row (change row)) :
    StepSafe { state with rows := updateStepRow state.rows id change } := by
  constructor
  · rw [updateStepRow_ids keeps]
    exact safe.distinct
  · intro changed member
    obtain ⟨row, inRows, same⟩ := List.mem_map.mp member
    exact same ▸ (updateStepRow_keeps safe.sound keeps inRows).sound
  · unfold updateStepRow
    rw [List.pairwise_map]
    refine safe.settled.imp_of_mem ?_
    intro earlier later inEarlier inLater ⟨effect, before⟩
    have first := updateStepRow_keeps safe.sound keeps inEarlier
    have second := updateStepRow_keeps safe.sound keeps inLater
    rw [first.id, second.before]
    exact ⟨first.withoutEffect effect, before⟩
  · intro transaction
    exact PhaseSound.update safe.sound keeps (safe.phases transaction)

/-- The change of the one row that was found and locked. -/
theorem StepSafe.updateFound {state : StepRequests} (safe : StepSafe state) {id : Nat}
    {row : StepRow} {change : StepRow → StepRow} (found : findStepRow state.rows id = some row)
    (keep : KeepsRow row (change row)) :
    StepSafe { state with rows := updateStepRow state.rows id change } := by
  obtain ⟨member, named⟩ := findStepRow_some found
  apply safe.update id change
  intro other inRows same
  have one := same_row_of_id safe.distinct inRows member (same.trans named.symm)
  exact one ▸ keep

/-! ### What each statement preserves -/

theorem transition_failed {event : ActionRequestEvent} {next : ActionRequestStatus}
    (moved : transition .failed event = some next) : event = .compensate := by
  cases event <;> first | rfl | cases moved

theorem transition_closed {status : ActionRequestStatus} (event : ActionRequestEvent)
    (closed : status = .denied ∨ status = .withdrawn ∨ status = .expired ∨ status = .rejected) :
    transition status event = none := by
  rcases closed with rfl | rfl | rfl | rfl <;> cases event <;> rfl

theorem transition_into_failed {status : ActionRequestStatus} {event : ActionRequestEvent} :
    transition status event = some .failed → event = .fail := by
  cases status <;> cases event <;> decide

theorem transition_into_compensated {status : ActionRequestStatus} {event : ActionRequestEvent} :
    transition status event = some .compensated → event = .compensate := by
  cases status <;> cases event <;> decide

/-- A request without effect is at the end of its table. -/
theorem withoutEffect_stays {request : StepRequest} (holds : request.withoutEffect = true)
    {event : ActionRequestEvent} (asked : event ≠ .compensate) :
    transition request.status event = none := by
  unfold StepRequest.withoutEffect at holds
  cases status : request.status with
  | failed =>
      cases moved : transition .failed event with
      | none => rfl
      | some next => exact absurd (transition_failed moved) asked
  | denied => exact transition_closed event (.inl rfl)
  | withdrawn => exact transition_closed event (.inr (.inl rfl))
  | expired => exact transition_closed event (.inr (.inr (.inl rfl)))
  | rejected => exact transition_closed event (.inr (.inr (.inr rfl)))
  | _ => simp [status] at holds

theorem StepSafe.transitions {state next : StepRequests} (safe : StepSafe state) {id : Nat}
    {event : ActionRequestEvent} {kind : ActionRequestFailureKind}
    (moved : transitionStepRow state id event kind = some next) : StepSafe next := by
  unfold transitionStepRow at moved
  cases found : findStepRow state.rows id with
  | none => simp [found] at moved
  | some row =>
      simp only [found] at moved
      split at moved
      · cases moved
      next legal =>
        have asked : event ≠ .compensate := fun same => legal (.inr same)
        obtain ⟨status, edge, rfl⟩ := Option.map_eq_some_iff.mp moved
        have sound := safe.sound row (findStepRow_some found).1
        refine safe.updateFound found ⟨rfl, rfl, .inl rfl, ⟨?_, ?_, ?_⟩, ?_⟩
        · rintro rfl
          exact asked (transition_into_compensated edge)
        · rintro rfl
          simp [transition_into_failed edge]
        · intro decided
          have ended := (sound.decided decided).1
          rw [ended] at edge
          exact absurd (transition_failed edge) asked
        · intro effect
          rw [withoutEffect_stays effect asked] at edge
          cases edge

theorem StepSafe.reconciles {state next : StepRequests} (safe : StepSafe state) {id : Nat}
    {verdict : ActionRequestReconciliation}
    (moved : reconcilesStepRow state id verdict = some next) : StepSafe next := by
  unfold reconcilesStepRow at moved
  cases found : findStepRow state.rows id with
  | none => simp [found] at moved
  | some row =>
      simp only [found] at moved
      split at moved
      next doubt =>
        cases moved
        have sound := safe.sound row (findStepRow_some found).1
        have inDoubt := doubt.2
        simp only [StepRequest.inDoubt, Bool.and_eq_true, beq_iff_eq] at inDoubt
        obtain ⟨⟨status, kind⟩, open'⟩ := inDoubt
        refine safe.updateFound found
          ⟨rfl, rfl, .inl rfl, ⟨sound.notCompensated, sound.failureKind, ?_⟩, ?_⟩
        · intro decided
          have recorded := (sound.decided decided).2.2
          rw [open'] at recorded
          cases recorded
        · intro effect
          simp [StepRequest.withoutEffect, status, kind, open'] at effect
      · cases moved

theorem StepSafe.decidesReexecute {state next : StepRequests} (safe : StepSafe state) {id : Nat}
    (moved : decidesReexecuteStepRow state id = some next) : StepSafe next := by
  unfold decidesReexecuteStepRow at moved
  cases found : findStepRow state.rows id with
  | none => simp [found] at moved
  | some row =>
      simp only [found] at moved
      split at moved
      next absent =>
        cases moved
        have sound := safe.sound row (findStepRow_some found).1
        obtain ⟨_committed, status, kind, finding⟩ := absent
        refine safe.updateFound found
          ⟨rfl, rfl, .inl rfl, ⟨sound.notCompensated, sound.failureKind, ?_⟩, ?_⟩
        · intro _decided
          exact ⟨status, kind, finding⟩
        · intro _effect
          simp [StepRequest.withoutEffect, status, kind, finding]
      · cases moved

theorem StepSafe.commits {state next : StepRequests} (safe : StepSafe state) {transaction : Nat}
    (moved : commitsRequest state transaction = some next) : StepSafe next := by
  unfold commitsRequest at moved
  split at moved
  next id phase =>
    cases moved
    have released := safe.update id (fun row => { row with writer := none }) (by
      intro row member _same
      have sound := safe.sound row member
      exact ⟨rfl, rfl, .inr rfl, ⟨sound.notCompensated, sound.failureKind, sound.decided⟩,
        fun holds => holds⟩)
    have held := safe.phases transaction
    rw [phase] at held
    obtain ⟨row, member, same, _writer⟩ := held
    refine released.setTransaction transaction (.answered id true) ?_
    refine ⟨rfl, _, List.mem_map_of_mem member, ?_⟩
    rw [if_pos same]
    exact ⟨same, rfl⟩
  · cases moved

theorem StepSafe.aborts {state next : StepRequests} (safe : StepSafe state) {transaction : Nat}
    (moved : abortsRequest state transaction = some next) : StepSafe next := by
  cases moved
  have keptRow : ∀ row ∈ state.rows, row.writer ≠ some transaction →
      row ∈ state.rows.filter fun row => row.writer != some transaction :=
    fun row member other => List.mem_filter.mpr ⟨member, by simpa using other⟩
  have sublist : (state.rows.filter fun row => row.writer != some transaction).Sublist state.rows :=
    List.filter_sublist
  refine ⟨safe.distinct.sublist (sublist.map _), fun row member => safe.sound row
    (sublist.subset member), safe.settled.sublist sublist, ?_⟩
  intro other
  unfold StepRequests.setTransaction
  by_cases same : other = transaction
  · simp [same, PhaseSound]
  · simp only [if_neg same]
    have holds := safe.phases other
    revert holds
    cases state.transactions other with
    | looked now newest =>
        cases newest with
        | none => exact fun _ => trivial
        | some newest =>
            rintro ⟨row, member, named, writer, effect⟩
            exact ⟨row, keptRow row member (by simp [writer]), named, writer, effect⟩
    | cleared now newest =>
        cases newest with
        | none => exact fun _ => trivial
        | some newest =>
            rintro ⟨row, member, named, writer, effect⟩
            exact ⟨row, keptRow row member (by simp [writer]), named, writer, effect⟩
    | inserted id =>
        rintro ⟨row, member, named, writer⟩
        refine ⟨row, keptRow row member ?_, named, writer⟩
        rcases writer with own | none
        · simpa [own] using same
        · simp [none]
    | answered id stood =>
        rintro ⟨isStood, row, member, named, writer⟩
        exact ⟨isStood, row, keptRow row member (by simp [writer]), named, writer⟩
    | _ => exact fun _ => trivial

theorem StepSafe.looks {state next : StepRequests} (safe : StepSafe state) {transaction : Nat}
    (moved : looksForReplay state transaction = some next) : StepSafe next := by
  unfold looksForReplay at moved
  split at moved
  next now _phase =>
    cases read : newestRow state.rows with
    | none =>
        simp only [read] at moved
        cases moved
        exact safe.setTransaction transaction _ trivial
    | some newest =>
        have ⟨member, committed⟩ := newestRow_mem read
        simp only [read] at moved
        split at moved
        next replays =>
          cases moved
          exact safe.setTransaction transaction _ ⟨replays, newest, member, rfl, committed⟩
        next passed =>
          cases moved
          have effect := (safe.sound newest member).withoutEffect (by simpa using passed)
          exact safe.setTransaction transaction _ ⟨newest, member, rfl, committed, effect⟩
  · cases moved

theorem StepSafe.checksDoubt {state next : StepRequests} (safe : StepSafe state)
    {transaction : Nat} {otherInDoubt : Bool}
    (moved : checksNoActionInDoubt state transaction otherInDoubt = some next) : StepSafe next := by
  unfold checksNoActionInDoubt at moved
  split at moved
  next now newest phase =>
    split at moved
    · cases moved
      exact safe.setTransaction transaction _ trivial
    · cases moved
      have held := safe.phases transaction
      rw [phase] at held
      refine safe.setTransaction transaction _ ?_
      cases newest with
      | none => trivial
      | some newest => exact held
  · cases moved

theorem StepSafe.collapses {state next : StepRequests} (safe : StepSafe state) {transaction : Nat}
    (fresh : ReadStillHolds state (.collapses transaction))
    (moved : collapsesOntoNewest state transaction = some next) : StepSafe next := by
  unfold collapsesOntoNewest at moved
  unfold ReadStillHolds at fresh
  split at moved
  next refusedBy phase =>
    simp only [phase] at fresh
    cases read : newestRow state.rows with
    | none =>
        simp only [read] at moved
        cases moved
        exact safe.setTransaction transaction _ trivial
    | some newest =>
        have ⟨member, committed⟩ := newestRow_mem read
        simp only [read] at moved
        cases moved
        refine safe.setTransaction transaction _ ⟨?_, newest, member, rfl, committed⟩
        by_contra passedOver
        simp only [Bool.or_eq_true, beq_iff_eq, not_or, Bool.not_eq_true] at passedOver
        obtain ⟨other, inRows, visible, after, stands⟩ :=
          fresh newest member committed passedOver.1 passedOver.2
        have same := same_row_of_id safe.distinct inRows member
          (requestedAfter_antisymm after (newestRow_first read inRows visible))
        rw [same] at stands
        cases stands with
        | inl refused => exact passedOver.1 refused
        | inr replays =>
            rw [passedOver.2] at replays
            cases replays
  next => cases moved

/-- The table cut at the row that was read as the newest. -/
theorem insertedSince_split {rows : List StepRow} {id : Nat}
    (present : ∃ row ∈ rows, row.id = id) :
    ∃ earlier found, found.id = id ∧
      rows = earlier ++ found :: insertedSince rows (some id) := by
  induction rows with
  | nil =>
      obtain ⟨row, member, _named⟩ := present
      cases member
  | cons first rest ih =>
      by_cases named : first.id = id
      · refine ⟨[], first, named, ?_⟩
        simp [insertedSince, named]
      · have later : ∃ row ∈ rest, row.id = id := by
          obtain ⟨row, member, same⟩ := present
          rcases List.mem_cons.mp member with rfl | inRest
          · exact absurd same named
          · exact ⟨row, inRest, same⟩
        obtain ⟨earlier, found, same, split⟩ := ih later
        refine ⟨first :: earlier, found, same, ?_⟩
        have since : insertedSince (first :: rest) (some id) = insertedSince rest (some id) := by
          simp [insertedSince, named]
        rw [since, List.cons_append, ← split]

/-- Before the row that was read as the newest nothing can still take effect, and
since it only what the read would have passed over. -/
theorem StepSafe.allWithoutEffect {state : StepRequests} (safe : StepSafe state)
    {newest : Option Nat}
    (read : ∀ id, newest = some id →
      ∃ row ∈ state.rows, row.id = id ∧ row.withoutEffect = true)
    (passed : ∀ row ∈ insertedSince state.rows newest, row.replayed = false) :
    ∀ row ∈ state.rows, row.withoutEffect = true := by
  intro row member
  cases newest with
  | none => exact (safe.sound row member).withoutEffect (passed row member)
  | some id =>
      obtain ⟨last, lastMember, lastId, lastEffect⟩ := read id rfl
      obtain ⟨earlier, found, foundId, split⟩ := insertedSince_split ⟨last, lastMember, lastId⟩
      have place := member
      have settled := safe.settled
      rw [split] at place settled
      rcases List.mem_append.mp place with before | after
      · have pairs := (List.pairwise_append.mp settled).2.2
        exact (pairs row before found List.mem_cons_self).1
      · rcases List.mem_cons.mp after with rfl | later
        · have same := same_row_of_id safe.distinct member lastMember (foundId.trans lastId.symm)
          exact same ▸ lastEffect
        · exact (safe.sound row member).withoutEffect (passed row later)

theorem insertedRow_sound (rows : List StepRow) (transaction id : Nat) (now : Int)
    {resolved : ActionRequestStatus} (allowed : resolvedStatus resolved = true) :
    RowSound (insertedRow rows transaction id now resolved) := by
  constructor
  · rintro same
    rw [show resolved = .compensated from same] at allowed
    cases allowed
  · intro same
    rw [show resolved = .failed from same] at allowed
    cases allowed
  · intro decided
    cases decided

theorem PhaseSound.append {rows : List StepRow} {transaction : Nat} {phase : RequestPhase}
    (holds : PhaseSound rows transaction phase) (added : StepRow) :
    PhaseSound (rows ++ [added]) transaction phase := by
  have widen : ∀ property : StepRow → Prop, (∃ row ∈ rows, property row) →
      ∃ row ∈ rows ++ [added], property row :=
    fun property ⟨row, member, found⟩ => ⟨row, List.mem_append_left _ member, found⟩
  cases phase with
  | looked now newest => cases newest with
    | none => trivial
    | some newest => exact widen _ holds
  | cleared now newest => cases newest with
    | none => trivial
    | some newest => exact widen _ holds
  | inserted id => exact widen _ holds
  | answered id stood => exact ⟨holds.1, widen _ holds.2⟩
  | _ => trivial

theorem StepSafe.append {state : StepRequests} (safe : StepSafe state) {added : StepRow}
    (fresh : findStepRow state.rows added.id = none) (sound : RowSound added)
    (settled : ∀ row ∈ state.rows, row.withoutEffect = true ∧ row.id ∈ added.withoutEffectBefore) :
    StepSafe { state with rows := state.rows ++ [added] } := by
  constructor
  · rw [List.map_append]
    apply List.Nodup.append safe.distinct (List.nodup_singleton _)
    intro id inRows inAdded
    rw [List.mem_singleton.mp inAdded] at inRows
    exact findStepRow_none fresh inRows
  · intro row member
    rcases List.mem_append.mp member with inRows | inAdded
    · exact safe.sound row inRows
    · rw [List.mem_singleton.mp inAdded]
      exact sound
  · rw [List.pairwise_append]
    refine ⟨safe.settled, List.pairwise_singleton _ _, ?_⟩
    intro row member later inAdded
    rw [List.mem_singleton.mp inAdded]
    exact settled row member
  · intro transaction
    exact (safe.phases transaction).append added

theorem StepSafe.inserts {state next : StepRequests} (safe : StepSafe state)
    {transaction id : Nat} {resolved : ActionRequestStatus}
    (fresh : ReadStillHolds state (.inserts transaction id resolved))
    (moved : insertActionRequestRow state transaction id resolved = some next) :
    StepSafe next := by
  unfold insertActionRequestRow at moved
  unfold ReadStillHolds at fresh
  cases phase : state.transactions transaction with
  | cleared now newest =>
      simp only [phase] at moved fresh
      split at moved
      next guard =>
        rw [Bool.and_eq_true, Option.isNone_iff_eq_none] at guard
        cases verdict : inFlightIndex state.rows resolved with
        | waits => simp [verdict] at moved
        | conflicts refusedBy =>
            simp only [verdict] at moved
            cases moved
            exact safe.setTransaction transaction _ trivial
        | accepts =>
            simp only [verdict] at moved
            cases moved
            have held := safe.phases transaction
            rw [phase] at held
            have read : ∀ id, newest = some id →
                ∃ row ∈ state.rows, row.id = id ∧ row.withoutEffect = true := by
              rintro read rfl
              obtain ⟨row, member, named, _writer, effect⟩ := held
              exact ⟨row, member, named, effect⟩
            have effects := safe.allWithoutEffect read (fresh verdict)
            have sound := insertedRow_sound state.rows transaction id now guard.1
            have added := safe.append guard.2 sound (by
              intro row member
              have effect := effects row member
              exact ⟨effect, List.mem_map_of_mem (List.mem_filter.mpr ⟨member, effect⟩)⟩)
            exact added.setTransaction transaction (.inserted id)
              ⟨_, List.mem_append_right _ List.mem_cons_self, rfl, .inl rfl⟩
      · cases moved
  | _ => simp [phase] at moved

theorem stepSafe_preserved : stepRequestSystem.PreservedWhen ReadStillHolds StepSafe := by
  intro state label next safe fresh moved
  cases label with
  | begins transaction now =>
      change (if _ then _ else none) = some next at moved
      split at moved
      · cases moved
        exact safe.setTransaction transaction _ trivial
      · cases moved
  | looks transaction => exact safe.looks moved
  | checksDoubt transaction otherInDoubt => exact safe.checksDoubt moved
  | inserts transaction id resolved => exact safe.inserts fresh moved
  | collapses transaction => exact safe.collapses fresh moved
  | commits transaction => exact safe.commits moved
  | aborts transaction => exact safe.aborts moved
  | transitions id event kind => exact safe.transitions moved
  | reconciles id verdict => exact safe.reconciles moved
  | decidesReexecute id => exact safe.decidesReexecute moved

theorem StepSafe.empty : StepSafe .empty := by
  constructor
  · exact List.nodup_nil
  · intro row member
    cases member
  · exact List.Pairwise.nil
  · intro transaction
    trivial

theorem StepSafe.atMostOneRun {state : StepRequests} (safe : StepSafe state) :
    AtMostOneRun state := by
  constructor
  · exact safe.settled.imp fun settled _ _ => settled.2
  · exact safe.settled.imp And.right
  · intro transaction id stood answered
    have held := safe.phases transaction
    rw [answered] at held
    exact held

/-! ### The contract -/

theorem withoutEffect_of_replayed {request : StepRequest} (replayed : request.replayed = true) :
    request.withoutEffect = false := by
  unfold StepRequest.replayed at replayed
  unfold StepRequest.withoutEffect
  cases status : request.status with
  | failed =>
      simp only [status, inFlightStatus] at replayed
      have unknown : request.failureKind = some .outcomeUnknown ∧
          request.reexecuteDecided = false := by
        simpa using replayed
      simp [unknown.1, unknown.2]
  | _ => simp_all [inFlightStatus]

/-- A request whose INSERT was refused is answered with a row that neither did so nor can be
replayed, where that one was requested last. -/
theorem stale_collapse {state next : StepRequests} {transaction : Nat}
    (stale : ¬ ReadStillHolds state (.collapses transaction))
    (moved : collapsesOntoNewest state transaction = some next) : ¬ AtMostOneRun next := by
  intro once
  unfold collapsesOntoNewest at moved
  unfold ReadStillHolds at stale
  split at moved
  next refusedBy phase =>
    simp only [phase, not_forall] at stale
    obtain ⟨row, member, committed, notRefusing, passed, last⟩ := stale
    cases read : newestRow state.rows with
    | none =>
        unfold newestRow at read
        rw [List.head?_eq_none_iff] at read
        have isIn := (List.mem_insertionSort fun a b => requestedAfter a b = true).mpr
          (List.mem_filter.mpr ⟨member, by simpa using committed⟩ :
            row ∈ state.rows.filter fun row => row.writer == none)
        rw [read] at isIn
        cases isIn
    | some newest =>
        simp only [read] at moved
        cases moved
        have answered := once.answered transaction newest.id _ (if_pos rfl)
        rw [Bool.or_eq_true, beq_iff_eq] at answered
        obtain ⟨inRows, visible⟩ := newestRow_mem read
        exact last ⟨newest, inRows, visible, newestRow_first read member committed, answered.1⟩
  next => cases moved

/-- An INSERT whose read no longer holds puts its row beside one that ran, may
have run or may still run. -/
theorem StepSafe.staleInsert {state next : StepRequests} (safe : StepSafe state)
    {label : RequestLabel} (stale : ¬ ReadStillHolds state label)
    (moved : stepRequestSystem.step state label = some next) : ¬ AtMostOneRun next := by
  intro once
  cases label with
  | inserts transaction id resolved =>
      change insertActionRequestRow state transaction id resolved = some next at moved
      unfold insertActionRequestRow at moved
      unfold ReadStillHolds at stale
      cases phase : state.transactions transaction with
      | cleared now newest =>
          simp only [phase] at moved stale
          obtain ⟨accepted, row, since, replayed⟩ : inFlightIndex state.rows resolved = .accepts ∧
              ∃ row ∈ insertedSince state.rows newest, row.replayed = true := by
            simpa using stale
          rw [accepted] at moved
          split at moved
          · cases moved
            have member : row ∈ state.rows := by
              cases newest with
              | none => exact since
              | some newest =>
                  exact (List.dropWhile_sublist _).subset ((List.drop_sublist 1 _).subset since)
            have pairs := (List.pairwise_append.mp once.alone).2.2
            obtain ⟨same, inBefore, named⟩ :=
              List.mem_map.mp (pairs row member _ List.mem_cons_self)
            obtain ⟨sameMember, effect⟩ := List.mem_filter.mp inBefore
            rw [same_row_of_id safe.distinct sameMember member named,
              withoutEffect_of_replayed replayed] at effect
            cases effect
          · cases moved
      | _ => simp [phase] at moved
  | collapses transaction => exact stale_collapse stale moved once
  | _ => exact stale trivial

/-- A request that ran and was refused by the gate, then the same request again. -/
def secondAfterRefusal : List RequestLabel :=
  [ .begins 0 10, .looks 0, .checksDoubt 0 false, .inserts 0 1 .autoApproved, .commits 0,
    .transitions 1 .startExecution .refused, .transitions 1 .fail .refused,
    .begins 1 20, .looks 1, .checksDoubt 1 false, .inserts 1 2 .autoApproved, .commits 1,
    .transitions 2 .startExecution .refused ]

/-- Transaction 0 reads before the other commits and inserts after the other's
request has run: the index no longer covers it. -/
def insertAfterEnd : List RequestLabel :=
  [ .begins 0 10, .looks 0, .checksDoubt 0 false,
    .begins 1 11, .looks 1, .checksDoubt 1 false, .inserts 1 1 .autoApproved, .commits 1,
    .transitions 1 .startExecution .refused, .transitions 1 .complete .refused,
    .inserts 0 2 .autoApproved, .commits 0, .transitions 2 .startExecution .refused ]

/-- A denied request is the one requested last; one requested before it is in flight and refuses
the third INSERT, and the third request is answered with the denied row. -/
def answeredDenied : List RequestLabel :=
  [ .begins 0 10, .looks 0, .checksDoubt 0 false,
    .begins 1 20, .looks 1, .checksDoubt 1 false, .inserts 1 1 .denied, .commits 1,
    .begins 2 30, .looks 2, .checksDoubt 2 false,
    .inserts 0 2 .autoApproved, .commits 0, .inserts 2 3 .autoApproved, .collapses 2 ]

example : ∃ state, stepRequestSystem.run .empty answeredDenied = some state ∧
    state.rows.map (fun row => (row.id, row.status)) = [(1, .denied), (2, .autoApproved)] ∧
    state.transactions 2 = .answered 1 false :=
  ⟨_, rfl, rfl, rfl⟩

end NextTime.Approval
