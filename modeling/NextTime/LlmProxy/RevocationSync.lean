import NextTime.LlmProxy.HandleRevocations
import NextTime.Library.LabelledRun

/-
The proxy's sync of revoked Handles with the kernel, one sync after another. The
kernel's rows become visible as their transactions commit, which may be out of
the order of their `revoked_at`; a transaction commits at most `overlapMs` after
its `revoked_at`. Every sync asks again for what lies that far behind the clock
it goes by.
-/

namespace NextTime.LlmProxy.Revocation

def MAX_PAGES_PER_SYNC : Nat := 1000

/-- One call of `sync`, between two of its answers. -/
structure Sync where
  since : Int
  firstNow : Option Nat
  lastReceived : Option Nat
  cursor : Option RevocationCursor
  /-- The page it asks for next, from 1 on. -/
  page : Nat
  /-- The kernel's cursor did not advance. -/
  stuck : Bool
  /-- The answer on its way. -/
  answer : Option RevocationPage
  /-- The kernel's clock and rows when it answered the first page; nothing reads them. -/
  asked : Option (Nat × List RevokedHandle)
deriving DecidableEq, Repr

structure State where
  clock : Nat
  rows : List RevokedHandle
  revoked : List Nat
  lastSyncAt : Option Nat
  syncing : Option Sync
  /-- What was committed when the first page of the last whole sync was answered. -/
  due : List RevokedHandle
deriving DecidableEq, Repr

inductive Label
  | passes (clock : Nat)
  | commits (row : RevokedHandle)
  | starts
  | answers (now pageSize : Nat)
  | receives
  | fails
deriving DecidableEq, Repr

/-- `since` of a sync: the epoch, or the overlap before the last clock. -/
def sinceOf (overlapMs : Nat) (lastSyncAt : Option Nat) : Int :=
  match lastSyncAt with
  | none => 0
  | some synced => synced - overlapMs

def Sync.start (overlapMs : Nat) (lastSyncAt : Option Nat) : Sync where
  since := sinceOf overlapMs lastSyncAt
  firstNow := none
  lastReceived := none
  cursor := none
  page := 1
  stuck := false
  answer := none
  asked := none

/-- What the `catch` does: a sync that stops part-way advances to the last row received. -/
def Sync.stopped (sync : Sync) (lastSyncAt : Option Nat) : Option Nat :=
  match sync.lastReceived with
  | none => lastSyncAt
  | some received => if lastSyncAt.all (· < received) then some received else lastSyncAt

/-- The body of the page loop, up to where it breaks off or asks for the next page. -/
def Sync.take (sync : Sync) (page : RevocationPage) : Sync :=
  { sync with
    firstNow := some (sync.firstNow.getD page.now)
    lastReceived := (page.revoked.getLast?.map fun row => millis row.revokedAt).or
      sync.lastReceived
    cursor := page.next.or sync.cursor
    page := sync.page + 1
    stuck := page.next.isSome && decide (page.next = sync.cursor)
    answer := none }

def State.receive (state : State) (sync : Sync) (page : RevocationPage) : State :=
  let state := { state with revoked := state.revoked ++ page.revoked.map RevokedHandle.jti }
  match page.next with
  | some _ => { state with syncing := some (sync.take page) }
  | none =>
      { state with
        lastSyncAt := (sync.take page).firstNow
        syncing := none
        due := (sync.asked.map Prod.snd).getD [] }

/-- The kernel answers the page asked for. -/
def State.answer (state : State) (sync : Sync) (now pageSize : Nat) : Sync :=
  { sync with
    answer := some
      (listRevokedSince state.rows now state.clock sync.since pageSize sync.cursor)
    asked := sync.asked.or (some (state.clock, state.rows)) }

variable (overlapMs : Nat)

def step (state : State) : Label → Option State
  | .passes clock => if state.clock ≤ clock then some { state with clock := clock } else none
  | .commits row =>
      if row.revokedAt ≤ state.clock ∧ state.clock ≤ row.revokedAt + overlapMs * 1000 then
        some { state with rows := row :: state.rows }
      else none
  | .starts =>
      match state.syncing with
      | none => some { state with syncing := some (.start overlapMs state.lastSyncAt) }
      | some _ => none
  | .answers now pageSize =>
      match state.syncing with
      | some sync =>
          if sync.answer = none ∧ sync.page ≤ MAX_PAGES_PER_SYNC ∧ sync.stuck = false ∧
              now ≤ state.clock ∧ 0 < pageSize then
            some { state with syncing := some (state.answer sync now pageSize) }
          else none
      | none => none
  | .receives =>
      match state.syncing with
      | some sync => sync.answer.map (state.receive sync)
      | none => none
  | .fails =>
      match state.syncing with
      | some sync =>
          some { state with lastSyncAt := sync.stopped state.lastSyncAt, syncing := none }
      | none => none

def system : LabelledRun.System State Label where
  initial state :=
    state.rows = [] ∧ state.revoked = [] ∧ state.lastSyncAt = none ∧ state.syncing = none ∧
      state.due = []
  step := step overlapMs

/-- A sync that stops part-way has received no row revoked after its first page's clock. -/
def stopsBehindItsClock (state : State) : Label → Prop
  | .fails =>
      ∀ sync ∈ state.syncing, ∀ received ∈ sync.lastReceived, ∀ first ∈ sync.firstNow,
        received ≤ first
  | _ => True

instance (state : State) (label : Label) : Decidable (stopsBehindItsClock state label) := by
  cases label <;> unfold stopsBehindItsClock <;> infer_instance

/-- In the set, or of no more use to anybody. -/
def State.Settled (state : State) (row : RevokedHandle) : Prop :=
  row.jti ∈ state.revoked ∨ row.expiresAt ≤ state.clock

/-- Whatever had committed when the last whole sync's first page was answered is in the set. -/
def State.NothingMissed (state : State) : Prop :=
  ∀ row ∈ state.due, state.Settled row

/-! ### What every step adds to -/

/-- Rows only come; one that comes was revoked less than the overlap ago. -/
structure State.Extends (state next : State) : Prop where
  clock : state.clock ≤ next.clock
  revoked : ∀ jti ∈ state.revoked, jti ∈ next.revoked
  kept : ∀ row ∈ state.rows, row ∈ next.rows
  recent : ∀ row ∈ next.rows, row ∈ state.rows ∨ state.clock ≤ row.revokedAt + overlapMs * 1000

variable {overlapMs}

theorem State.Settled.extends {state next : State} {row : RevokedHandle}
    (settled : state.Settled row) (more : state.Extends overlapMs next) : next.Settled row := by
  cases settled with
  | inl present => exact Or.inl (more.revoked _ present)
  | inr expired => exact Or.inr (Nat.le_trans expired more.clock)

variable (overlapMs)

/-- Nothing revoked before the bound is missing, nor can become visible any more. -/
structure State.Past (state : State) (bound : Int) : Prop where
  elapsed : bound ≤ 0 ∨ (bound + overlapMs) * 1000 ≤ state.clock
  settled : ∀ row ∈ state.rows, (row.revokedAt : Int) < bound * 1000 → state.Settled row

/-- What a sync under way has asked, received and left behind it. -/
structure State.SyncHolds (state : State) (sync : Sync) : Prop where
  past : state.Past overlapMs sync.since
  unasked : sync.asked = none → sync.answer = none ∧ sync.firstNow = none ∧
    sync.cursor = none ∧ sync.lastReceived = none
  waits : sync.asked.isSome = true → sync.firstNow.isSome = true ∨ sync.answer.isSome = true
  clock : ∀ clock rows, sync.asked = some (clock, rows) → clock ≤ state.clock
  kept : ∀ clock rows, sync.asked = some (clock, rows) → ∀ row ∈ rows, row ∈ state.rows
  recent : ∀ clock rows, sync.asked = some (clock, rows) → ∀ row ∈ state.rows,
    row ∈ rows ∨ clock ≤ row.revokedAt + overlapMs * 1000
  behind : ∀ clock rows, sync.asked = some (clock, rows) → ∀ row ∈ rows,
    state.Settled row ∨ ∀ cursor, sync.cursor = some cursor → cursor.before row = true
  first : ∀ now, sync.firstNow = some now → ∃ clock rows, sync.asked = some (clock, rows) ∧
    now ≤ millis clock
  received : ∀ last, sync.lastReceived = some last → ∃ cursor, sync.cursor = some cursor ∧
    last = millis cursor.revokedAt ∧ sync.firstNow.isSome = true
  shown : ∀ page, sync.answer = some page → ∀ clock rows, sync.asked = some (clock, rows) →
    ∀ row ∈ rows, state.Settled row ∨ row.jti ∈ page.revoked.map RevokedHandle.jti ∨
      ∃ cursor, page.next = some cursor ∧ cursor.before row = true
  onTime : ∀ page, sync.answer = some page → sync.firstNow = none →
    ∃ clock rows, sync.asked = some (clock, rows) ∧ page.now ≤ millis clock
  last : ∀ page, sync.answer = some page → ∀ cursor, page.next = some cursor →
    ∃ row, page.revoked.getLast? = some row ∧ cursor = row.cursor

structure State.Holds (state : State) : Prop where
  synced : ∀ synced, state.lastSyncAt = some synced →
    state.Past overlapMs (sinceOf overlapMs (some synced))
  syncing : ∀ sync, state.syncing = some sync → state.SyncHolds overlapMs sync
  due : state.NothingMissed

variable {overlapMs}

theorem State.Past.extends {state next : State} {bound : Int}
    (past : state.Past overlapMs bound) (more : state.Extends overlapMs next) :
    next.Past overlapMs bound where
  elapsed := by
    have later := more.clock
    have elapsed := past.elapsed
    omega
  settled := fun row member early => by
    cases more.recent row member with
    | inl before => exact (past.settled row before early).extends more
    | inr late =>
        have elapsed := past.elapsed
        omega

theorem State.Past.epoch (state : State) : state.Past overlapMs 0 where
  elapsed := Or.inl (Int.le_refl 0)
  settled := fun row _ early => by omega

/-- A step that is none of the sync's own leaves what is known of it. -/
theorem State.SyncHolds.extends {state next : State} {sync : Sync}
    (holds : state.SyncHolds overlapMs sync) (more : state.Extends overlapMs next) :
    next.SyncHolds overlapMs sync where
  past := holds.past.extends more
  unasked := holds.unasked
  waits := holds.waits
  clock := fun clock rows asked => Nat.le_trans (holds.clock clock rows asked) more.clock
  kept := fun clock rows asked row member =>
    more.kept row (holds.kept clock rows asked row member)
  recent := fun clock rows asked row member => by
    cases more.recent row member with
    | inl before => exact holds.recent clock rows asked row before
    | inr late => exact Or.inr (Nat.le_trans (holds.clock clock rows asked) late)
  behind := fun clock rows asked row member =>
    (holds.behind clock rows asked row member).imp_left fun settled => settled.extends more
  first := holds.first
  received := holds.received
  shown := fun page answer clock rows asked row member =>
    (holds.shown page answer clock rows asked row member).imp_left
      fun settled => settled.extends more
  onTime := holds.onTime
  last := holds.last

/-- Where the sync itself does not move. -/
theorem State.Holds.extends {state next : State} (holds : state.Holds overlapMs)
    (more : state.Extends overlapMs next) (synced : next.lastSyncAt = state.lastSyncAt)
    (syncing : next.syncing = state.syncing) (due : next.due = state.due) :
    next.Holds overlapMs where
  synced := fun at' found => (holds.synced at' (synced ▸ found)).extends more
  syncing := fun sync found => (holds.syncing sync (syncing ▸ found)).extends more
  due := fun row member => (holds.due row (due ▸ member)).extends more

/-! ### The steps of a sync -/

theorem State.Holds.since {state : State} (holds : state.Holds overlapMs) :
    state.Past overlapMs (sinceOf overlapMs state.lastSyncAt) := by
  cases last : state.lastSyncAt with
  | none => exact State.Past.epoch state
  | some synced => exact holds.synced synced last

theorem State.Holds.start {state : State} (holds : state.Holds overlapMs) :
    state.SyncHolds overlapMs (.start overlapMs state.lastSyncAt) where
  past := holds.since
  unasked := fun _ => ⟨rfl, rfl, rfl, rfl⟩
  waits := nofun
  clock := nofun
  kept := nofun
  recent := nofun
  behind := nofun
  first := nofun
  received := nofun
  shown := nofun
  onTime := nofun
  last := nofun

/-- The sync moves and nothing else does. -/
theorem State.Holds.resync {state : State} (holds : state.Holds overlapMs) {sync : Sync}
    (syncing : state.SyncHolds overlapMs sync) :
    { state with syncing := some sync }.Holds overlapMs := by
  have same : state.Extends overlapMs { state with syncing := some sync } :=
    ⟨Nat.le_refl _, fun _ => id, fun _ => id, fun _ => Or.inl⟩
  refine ⟨fun synced found => (holds.synced synced found).extends same, ?_,
    fun row member => (holds.due row member).extends same⟩
  intro other found
  cases found
  exact syncing.extends same

/-- The first answer fixes the clock and the rows the sync owes. -/
theorem answer_asked {state : State} {sync : Sync} (holds : state.SyncHolds overlapMs sync)
    {now pageSize : Nat} {clock : Nat} {rows : List RevokedHandle}
    (asked : (state.answer sync now pageSize).asked = some (clock, rows)) :
    sync.asked = some (clock, rows) ∨
      sync.cursor = none ∧ clock = state.clock ∧ rows = state.rows := by
  change sync.asked.or (some (state.clock, state.rows)) = some (clock, rows) at asked
  cases before : sync.asked with
  | some found =>
      rw [before, Option.some_or] at asked
      exact Or.inl asked
  | none =>
      rw [before, Option.none_or, Option.some.injEq, Prod.mk.injEq] at asked
      exact Or.inr ⟨(holds.unasked before).2.2.1, asked.1.symm, asked.2.symm⟩

/-- What a committed row may be to an answer: settled, behind the cursor, or shown. -/
theorem answered_shown {state : State} {sync : Sync} (holds : state.SyncHolds overlapMs sync)
    {now pageSize : Nat} (room : 0 < pageSize) {row : RevokedHandle} (member : row ∈ state.rows)
    (ahead : ∀ cursor, sync.cursor = some cursor → cursor.before row = true) :
    state.Settled row ∨
      row.jti ∈ (listRevokedSince state.rows now state.clock sync.since pageSize
        sync.cursor).revoked.map RevokedHandle.jti ∨
      ∃ cursor, (listRevokedSince state.rows now state.clock sync.since pageSize
        sync.cursor).next = some cursor ∧ cursor.before row = true := by
  by_cases early : (row.revokedAt : Int) < sync.since * 1000
  · exact Or.inl (holds.past.settled row member early)
  · by_cases expired : row.expiresAt ≤ state.clock
    · exact Or.inl (Or.inr expired)
    · have listed := mem_revokedSince.mpr
        ⟨member, Int.not_lt.mp early, Nat.not_le.mp expired, ahead⟩
      apply Or.inr
      cases @listed_or_next _ now _ _ _ _ room _ listed with
      | inl shown =>
          obtain ⟨other, onPage, same⟩ := shown
          apply Or.inl
          rw [List.mem_map]
          exact ⟨other, onPage, congrArg RevocationCursor.jti same⟩
      | inr next => exact Or.inr next

theorem State.SyncHolds.answer {state : State} {sync : Sync}
    (holds : state.SyncHolds overlapMs sync) {now pageSize : Nat} (free : sync.answer = none)
    (past : now ≤ state.clock) (room : 0 < pageSize) :
    state.SyncHolds overlapMs (state.answer sync now pageSize) where
  past := holds.past
  unasked := fun asked => by
    have never := Option.or_eq_none_iff.mp asked
    cases never.2
  waits := fun _ => Or.inr rfl
  clock := fun clock rows asked => by
    cases answer_asked holds asked with
    | inl before => exact holds.clock clock rows before
    | inr fresh => exact Nat.le_of_eq fresh.2.1
  kept := fun clock rows asked row member => by
    cases answer_asked holds asked with
    | inl before => exact holds.kept clock rows before row member
    | inr fresh => exact fresh.2.2 ▸ member
  recent := fun clock rows asked row member => by
    cases answer_asked holds asked with
    | inl before => exact holds.recent clock rows before row member
    | inr fresh => exact Or.inl (fresh.2.2 ▸ member)
  behind := fun clock rows asked row member => by
    cases answer_asked holds asked with
    | inl before => exact holds.behind clock rows before row member
    | inr fresh =>
        apply Or.inr
        intro cursor found
        change sync.cursor = some cursor at found
        rw [fresh.1] at found
        cases found
  first := fun first found => by
    obtain ⟨clock, rows, asked, onTime⟩ := holds.first first found
    refine ⟨clock, rows, ?_, onTime⟩
    change sync.asked.or _ = _
    rw [asked, Option.some_or]
  received := holds.received
  shown := fun page answer clock rows asked row member => by
    cases answer
    have inRows : row ∈ state.rows := by
      cases answer_asked holds asked with
      | inl before => exact holds.kept clock rows before row member
      | inr fresh => exact fresh.2.2 ▸ member
    cases answer_asked holds asked with
    | inl before =>
        cases holds.behind clock rows before row member with
        | inl settled => exact Or.inl settled
        | inr ahead => exact answered_shown holds room inRows ahead
    | inr fresh =>
        apply answered_shown holds room inRows
        intro cursor found
        rw [fresh.1] at found
        cases found
  onTime := fun page answer first => by
    cases answer
    refine ⟨state.clock, state.rows, ?_, Nat.div_le_div_right past⟩
    cases asked : sync.asked with
    | none =>
        change sync.asked.or _ = _
        rw [asked, Option.none_or]
    | some found =>
        -- an answer had been received, and with it the clock
        have waiting := holds.waits (asked ▸ rfl)
        change sync.firstNow = none at first
        rw [first, free] at waiting
        cases waiting with
        | inl impossible => cases impossible
        | inr impossible => cases impossible
  last := fun page answer cursor next => by
    cases answer
    exact next_last next

theorem State.receive_extends (state : State) (sync : Sync) (page : RevocationPage) :
    state.Extends overlapMs (state.receive sync page) := by
  unfold State.receive
  cases page.next with
  | none => exact ⟨Nat.le_refl _, fun _ => List.mem_append_left _, fun _ => id, fun _ => Or.inl⟩
  | some next =>
      exact ⟨Nat.le_refl _, fun _ => List.mem_append_left _, fun _ => id, fun _ => Or.inl⟩

theorem State.received_settled {state : State} {sync : Sync} {page : RevocationPage}
    {row : RevokedHandle} (shown : row.jti ∈ page.revoked.map RevokedHandle.jti) :
    (state.receive sync page).Settled row := by
  apply Or.inl
  unfold State.receive
  cases page.next with
  | none => exact List.mem_append_right _ shown
  | some next => exact List.mem_append_right _ shown

/-- The clock a sync goes by is the one of its first page. -/
theorem take_first {state : State} {sync : Sync} (holds : state.SyncHolds overlapMs sync)
    {page : RevocationPage} (answer : sync.answer = some page) {now : Nat}
    (first : (sync.take page).firstNow = some now) :
    ∃ clock rows, sync.asked = some (clock, rows) ∧ now ≤ millis clock := by
  change some (sync.firstNow.getD page.now) = some now at first
  rw [Option.some.injEq] at first
  cases before : sync.firstNow with
  | none =>
      rw [before] at first
      exact first ▸ holds.onTime page answer before
  | some earlier =>
      rw [before] at first
      exact first ▸ holds.first earlier before

theorem State.SyncHolds.take {state : State} {sync : Sync}
    (holds : state.SyncHolds overlapMs sync) {page : RevocationPage}
    (answer : sync.answer = some page) {next : RevocationCursor} (more : page.next = some next) :
    (state.receive sync page).SyncHolds overlapMs (sync.take page) := by
  have extends' := @State.receive_extends overlapMs state sync page
  have held := holds.extends extends'
  have moved : (sync.take page).cursor = some next := by
    change page.next.or sync.cursor = some next
    rw [more, Option.some_or]
  exact
    { past := held.past
      unasked := fun asked => by
        have never := (holds.unasked asked).1
        rw [answer] at never
        cases never
      waits := fun _ => Or.inl rfl
      clock := held.clock
      kept := held.kept
      recent := held.recent
      behind := fun clock rows asked row member => by
        cases holds.shown page answer clock rows asked row member with
        | inl settled => exact Or.inl (settled.extends extends')
        | inr later =>
            cases later with
            | inl shown => exact Or.inl (State.received_settled shown)
            | inr ahead =>
                obtain ⟨cursor, found, before⟩ := ahead
                apply Or.inr
                intro other current
                rw [moved, ← more, found, Option.some.injEq] at current
                exact current ▸ before
      first := fun now first => take_first holds answer first
      received := fun last found => by
        obtain ⟨row, shown, placed⟩ := holds.last page answer next more
        refine ⟨next, moved, ?_, rfl⟩
        change (page.revoked.getLast?.map _).or _ = some last at found
        rw [shown, Option.map_some, Option.some_or, Option.some.injEq] at found
        rw [← found, placed]
        rfl
      shown := nofun
      onTime := nofun
      last := nofun }

/-- What lies the overlap behind the first page's clock was committed when it was asked. -/
theorem committed_when_asked {state : State} {sync : Sync}
    (holds : state.SyncHolds overlapMs sync) {clock : Nat} {rows : List RevokedHandle}
    (asked : sync.asked = some (clock, rows)) {bound : Nat} (onTime : bound ≤ millis clock)
    {row : RevokedHandle} (member : row ∈ state.rows)
    (early : (row.revokedAt : Int) < sinceOf overlapMs (some bound) * 1000) : row ∈ rows := by
  cases holds.recent clock rows asked row member with
  | inl present => exact present
  | inr late =>
      unfold millis at onTime
      change (row.revokedAt : Int) < ((bound : Int) - overlapMs) * 1000 at early
      omega

/-- A whole sync: nothing behind its first page's clock is missing. -/
theorem State.SyncHolds.finish {state : State} {sync : Sync}
    (syncing : state.SyncHolds overlapMs sync) {page : RevocationPage}
    (answer : sync.answer = some page) (whole : page.next = none) :
    (state.receive sync page).Holds overlapMs := by
  have extends' := @State.receive_extends overlapMs state sync page
  have everyRow : ∀ clock rows, sync.asked = some (clock, rows) → ∀ row ∈ rows,
      (state.receive sync page).Settled row := by
    intro clock rows asked row member
    cases syncing.shown page answer clock rows asked row member with
    | inl settled => exact settled.extends extends'
    | inr later =>
        cases later with
        | inl shown => exact State.received_settled shown
        | inr ahead =>
            obtain ⟨cursor, found, _⟩ := ahead
            rw [whole] at found
            cases found
  have received : state.receive sync page =
      { state with
        revoked := state.revoked ++ page.revoked.map RevokedHandle.jti
        lastSyncAt := (sync.take page).firstNow
        syncing := none
        due := (sync.asked.map Prod.snd).getD [] } := by
    unfold State.receive
    rw [whole]
  exact
    { synced := fun synced found => by
        rw [received] at found
        obtain ⟨clock, rows, asked, onTime⟩ := take_first syncing answer found
        have reached := syncing.clock clock rows asked
        refine ⟨?_, ?_⟩
        · have elapsed := extends'.clock
          unfold millis at onTime
          change ((synced : Int) - overlapMs) ≤ 0 ∨
            ((synced : Int) - overlapMs + overlapMs) * 1000 ≤ _
          omega
        · intro row member early
          have before : row ∈ state.rows := by
            rw [received] at member
            exact member
          exact everyRow clock rows asked row
            (committed_when_asked syncing asked onTime before early)
      syncing := fun other found => by
        rw [received] at found
        cases found
      due := fun row member => by
        have owed : row ∈ (sync.asked.map Prod.snd).getD [] := by
          rw [received] at member
          exact member
        cases asked : sync.asked with
        | none =>
            rw [asked] at owed
            cases owed
        | some found =>
            rw [asked] at owed
            exact everyRow found.1 found.2 asked row owed }

/-- A sync that stops part-way: what lies the overlap behind the last row received is at or
behind the cursor, and was committed when the first page was answered. -/
theorem State.SyncHolds.stop {state : State} {sync : Sync}
    (holds : state.SyncHolds overlapMs sync) {last : Nat} (found : sync.lastReceived = some last)
    (inTime : ∀ first, sync.firstNow = some first → last ≤ first) :
    state.Past overlapMs (sinceOf overlapMs (some last)) := by
  obtain ⟨cursor, at', placed, known⟩ := holds.received last found
  obtain ⟨now, first⟩ := Option.isSome_iff_exists.mp known
  obtain ⟨clock, rows, asked, onTime⟩ := holds.first now first
  have bounded : last ≤ millis clock := Nat.le_trans (inTime now first) onTime
  constructor
  · have reached := holds.clock clock rows asked
    unfold millis at bounded
    change ((last : Int) - overlapMs) ≤ 0 ∨ ((last : Int) - overlapMs + overlapMs) * 1000 ≤ _
    omega
  · intro row member early
    cases holds.behind clock rows asked row
        (committed_when_asked holds asked bounded member early) with
    | inl settled => exact settled
    | inr ahead =>
        have before := RevocationCursor.before_iff.mp (ahead cursor at')
        unfold millis at placed
        change (row.revokedAt : Int) < ((last : Int) - overlapMs) * 1000 at early
        omega

theorem State.Holds.stop {state : State} (holds : state.Holds overlapMs) {sync : Sync}
    (syncing : state.SyncHolds overlapMs sync)
    (inTime : ∀ last, sync.lastReceived = some last → ∀ first, sync.firstNow = some first →
      last ≤ first) :
    { state with lastSyncAt := sync.stopped state.lastSyncAt, syncing := none }.Holds overlapMs := by
  have same : state.Extends overlapMs
      { state with lastSyncAt := sync.stopped state.lastSyncAt, syncing := none } :=
    ⟨Nat.le_refl _, fun _ => id, fun _ => id, fun _ => Or.inl⟩
  refine ⟨?_, nofun, fun row member => (holds.due row member).extends same⟩
  intro synced found
  change sync.stopped state.lastSyncAt = some synced at found
  unfold Sync.stopped at found
  cases received : sync.lastReceived with
  | none =>
      rw [received] at found
      exact (holds.synced synced found).extends same
  | some last =>
      rw [received] at found
      dsimp only at found
      split at found
      next =>
        rw [Option.some.injEq] at found
        exact found ▸ (syncing.stop received (inTime last received)).extends same
      next => exact (holds.synced synced found).extends same

/-! ### Runs -/

theorem holds_initially {state : State} (started : (system overlapMs).initial state) :
    state.Holds overlapMs := by
  obtain ⟨_, _, unsynced, resting, nothing⟩ := started
  constructor
  · intro synced found
    rw [unsynced] at found
    cases found
  · intro sync found
    rw [resting] at found
    cases found
  · intro row member
    rw [nothing] at member
    cases member

theorem step_holds {state next : State} {label : Label} (holds : state.Holds overlapMs)
    (permitted : stopsBehindItsClock state label)
    (moved : step overlapMs state label = some next) : next.Holds overlapMs := by
  cases label with
  | passes clock =>
      simp only [step] at moved
      split at moved
      next later =>
        cases moved
        exact holds.extends ⟨later, fun _ => id, fun _ => id, fun _ => Or.inl⟩ rfl rfl rfl
      next => cases moved
  | commits row =>
      simp only [step] at moved
      split at moved
      next recent =>
        cases moved
        refine holds.extends ⟨Nat.le_refl _, fun _ => id, fun _ => List.mem_cons_of_mem _, ?_⟩
          rfl rfl rfl
        intro other member
        cases List.mem_cons.mp member with
        | inl same => exact Or.inr (same ▸ recent.2)
        | inr before => exact Or.inl before
      next => cases moved
  | starts =>
      simp only [step] at moved
      split at moved
      next =>
        cases moved
        exact holds.resync holds.start
      next => cases moved
  | answers now pageSize =>
      simp only [step] at moved
      split at moved
      next sync found =>
        split at moved
        next enabled =>
          cases moved
          obtain ⟨free, _, _, past, room⟩ := enabled
          exact holds.resync ((holds.syncing sync found).answer free past room)
        next => cases moved
      next => cases moved
  | receives =>
      simp only [step] at moved
      split at moved
      next sync found =>
        obtain ⟨page, answer, rfl⟩ := Option.map_eq_some_iff.mp moved
        have syncing := holds.syncing sync found
        cases more : page.next with
        | none => exact syncing.finish answer more
        | some cursor =>
            have extends' := @State.receive_extends overlapMs state sync page
            have taken := syncing.take answer more
            have received : state.receive sync page =
                { state with
                  revoked := state.revoked ++ page.revoked.map RevokedHandle.jti
                  syncing := some (sync.take page) } := by
              unfold State.receive
              rw [more]
            rw [received] at extends' taken ⊢
            refine ⟨fun synced before => (holds.synced synced before).extends extends', ?_,
              fun row member => (holds.due row member).extends extends'⟩
            intro other current
            cases current
            exact taken
      next => cases moved
  | fails =>
      simp only [step] at moved
      split at moved
      next sync found =>
        cases moved
        exact holds.stop (holds.syncing sync found) (permitted sync found)
      next => cases moved

theorem no_revocation_missed {start state : State} {labels : List Label}
    (started : (system overlapMs).initial start)
    (permitted : (system overlapMs).Allowed stopsBehindItsClock start labels)
    (ran : (system overlapMs).run start labels = some state) : state.NothingMissed := by
  have preserved : (system overlapMs).PreservedWhen stopsBehindItsClock
      (State.Holds overlapMs) :=
    fun _ _ _ holds allowed moved => step_holds holds allowed moved
  exact ((system overlapMs).run_preserves_when preserved (holds_initially started) permitted
    ran).due

/-! ### A sync that stops after a row newer than its clock -/

def emptyTable : State where
  clock := 0
  rows := []
  revoked := []
  lastSyncAt := none
  syncing := none
  due := []

def revokedAtSecond (jti second : Nat) : RevokedHandle where
  jti := jti
  revokedAt := second * 1000000
  expiresAt := 3600000000

/-- Two rows, of which the first page shows one; the third commits behind its cursor. -/
def pagedLabels : List Label :=
  [.passes 100000000, .commits (revokedAtSecond 1 60), .commits (revokedAtSecond 2 61), .starts,
    .answers 100000000 1, .receives, .passes 105000000, .commits (revokedAtSecond 3 50)]

/-- Before it stops, the sync receives a row revoked long after its first page. -/
def lateRowLabels : List Label :=
  [.passes 200000000, .commits (revokedAtSecond 4 199), .commits (revokedAtSecond 5 200),
    .answers 200000000 2, .receives, .fails]

def wholeSyncLabels : List Label := [.starts, .answers 200000000 10, .receives]

theorem no_revocation_missed_after_stop :
    ∃ state, (system 60000).run emptyTable (pagedLabels ++ [.fails] ++
        [.passes 200000000] ++ wholeSyncLabels) = some state ∧
      3 ∈ state.revoked ∧ state.NothingMissed := by
  have ends : ((system 60000).run emptyTable (pagedLabels ++ [.fails] ++
      [.passes 200000000] ++ wholeSyncLabels)).any (fun state => decide (3 ∈ state.revoked)) =
        true := by
    decide +kernel
  obtain ⟨state, ran, known⟩ := (Option.any_eq_true _ _).mp ends
  exact ⟨state, ran, of_decide_eq_true known,
    no_revocation_missed ⟨rfl, rfl, rfl, rfl, rfl⟩ (by decide +kernel) ran⟩

/-- The next sync starts an overlap behind that row, and so past the third. -/
theorem revocation_missed :
    ∃ state, (system 60000).run emptyTable (pagedLabels ++ lateRowLabels ++ wholeSyncLabels) =
        some state ∧
      revokedAtSecond 3 50 ∈ state.due ∧ ¬ state.NothingMissed := by
  have ends : ((system 60000).run emptyTable
      (pagedLabels ++ lateRowLabels ++ wholeSyncLabels)).any (fun state =>
        decide (revokedAtSecond 3 50 ∈ state.due ∧ 3 ∉ state.revoked ∧
          state.clock < 3600000000)) = true := by
    decide +kernel
  obtain ⟨state, ran, held⟩ := (Option.any_eq_true _ _).mp ends
  obtain ⟨owed, unknown, live⟩ := of_decide_eq_true held
  refine ⟨state, ran, owed, ?_⟩
  intro nothing
  cases nothing _ owed with
  | inl known => exact unknown known
  | inr expired => exact Nat.not_le.mpr live expired

end NextTime.LlmProxy.Revocation
