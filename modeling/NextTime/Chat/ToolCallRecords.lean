import NextTime.Chat.SinkTurns

/-
What the sink keeps whichever way its transactions and those of others interleave: a Turn has no
more records than its bound, and what became of every call is known.
-/

namespace NextTime.Chat

open NumberedLog (Entry Logs ofKey)

structure SinkHolds (chatOf : Nat → Nat) (storable : String → String) (sink : Sink) : Prop where
  turns : ∀ turnId, (sink.turn turnId).Holds chatOf storable turnId
  once : (sink.toolCallsByTurn.map Prod.fst).Nodup
  within : ∀ turnId ∈ sink.toolCallsByTurn.map Prod.fst, turnId ∈ sink.active
  activeOnce : sink.active.Nodup
  owned : ∀ thread, ∀ row ∈ sink.chats.messages.pending thread, ∀ turnId,
    isRecordOf turnId row = true → thread = .turn turnId
  due : ∀ thread insert, sink.chats.inserting thread = some insert → ∀ turnId sequence,
    isRecordOf turnId ⟨insert.chatId, sequence, insert.row⟩ = true → thread = .turn turnId

section
variable {chatOf : Nat → Nat} {storable : String → String} {hashtext : Nat → Int}
  {number : String → Option Rat} {sink next : Sink} {turnId : Nat}

/-! ### The beginning -/

theorem turnHolds_start (start : SinkStart sink) (turnId : Nat) :
    (sink.turn turnId).Holds chatOf storable turnId := by
  obtain ⟨⟨empty, idle, _⟩, untracked, noWork, _, _, ledgers⟩ := start
  have view : sink.turn turnId = ⟨[], [], none, none, .idle, ⟨[], 0, []⟩⟩ := by
    simp only [Sink.turn, empty, idle, untracked, noWork, ledgers]
    rfl
  rw [view]
  constructor
  · exact fun _ isSome => by cases isSome
  · exact fun _ _ => rfl
  · exact fun closes => by cases closes
  · exact Nat.zero_le _
  · exact Nat.le_refl 0
  · exact fun _ isStarted => by cases isStarted
  · exact fun _ isStored => by cases isStored
  · exact fun _ => ⟨rfl, rfl⟩
  · exact fun _ isSome => by cases isSome
  · exact fun _ isIn => by cases isIn

theorem sinkHolds_start (start : SinkStart sink) : SinkHolds chatOf storable sink := by
  have turns : ∀ turnId, (sink.turn turnId).Holds chatOf storable turnId :=
    fun turnId => turnHolds_start start turnId
  obtain ⟨⟨empty, idle, _⟩, untracked, _, inactive, _, _⟩ := start
  constructor
  · exact turns
  · rw [untracked]
    exact List.nodup_nil
  · rw [untracked]
    exact fun _ isIn => nomatch isIn
  · rw [inactive]
    exact List.nodup_nil
  · rw [empty]
    exact fun _ _ isIn => nomatch isIn
  · intro thread insert inserting
    rw [idle] at inserting
    cases inserting

/-! ### Events -/

/-- A Turn without an entry finds room for one. -/
theorem SinkHolds.fits (holds : SinkHolds chatOf storable sink) {event : AgentRuntimeEvent}
    (tracked : Tracked sink (.event turnId event)) :
    (activate sink turnId).toolCallsByTurn.lookup turnId = none →
      (activate sink turnId).toolCallsByTurn.length < MAX_TRACKED_TURNS := by
  intro absent
  have isNew : turnId ∉ sink.toolCallsByTurn.map Prod.fst :=
    fun isIn => lookup_isSome_iff.mpr isIn absent
  have distinct : (turnId :: sink.toolCallsByTurn.map Prod.fst).Nodup :=
    List.nodup_cons.mpr ⟨isNew, holds.once⟩
  have all : turnId :: sink.toolCallsByTurn.map Prod.fst ⊆ (activate sink turnId).active := by
    intro other isIn
    change other ∈ if turnId ∈ sink.active then sink.active else turnId :: sink.active
    split
    next isActive =>
      rcases List.mem_cons.mp isIn with same | isOld
      · rw [same]
        exact isActive
      · exact holds.within other isOld
    next =>
      rcases List.mem_cons.mp isIn with same | isOld
      · exact same ▸ List.mem_cons_self
      · exact List.mem_cons_of_mem _ (holds.within other isOld)
  have count := distinct.length_le_of_subset all
  rw [List.length_cons, List.length_map] at count
  exact Nat.lt_of_lt_of_le count tracked

/-- The chats are left to the transaction, and the map and the active Turns change for the Turn
alone. -/
theorem handle_map (fits : sink.toolCallsByTurn.lookup turnId = none →
      sink.toolCallsByTurn.length < MAX_TRACKED_TURNS) (event : AgentRuntimeEvent) :
    (handle chatOf storable sink turnId event).chats = sink.chats ∧
      (((handle chatOf storable sink turnId event).toolCallsByTurn = sink.toolCallsByTurn ∧
          (handle chatOf storable sink turnId event).active = sink.active) ∨
        (∃ calls, (handle chatOf storable sink turnId event).toolCallsByTurn =
            setTurn (deleteTurn sink.toolCallsByTurn turnId) turnId calls ∧
          (handle chatOf storable sink turnId event).active = sink.active) ∨
        ((handle chatOf storable sink turnId event).toolCallsByTurn =
            deleteTurn sink.toolCallsByTurn turnId ∧
          (handle chatOf storable sink turnId event).active =
            sink.active.filter fun other => other ≠ turnId)) := by
  cases event with
  | textDelta => exact ⟨rfl, .inl ⟨rfl, rfl⟩⟩
  | toolCallStarted toolCallId =>
      refine ⟨rfl, .inr (.inl ⟨startCall (turnEntry sink.toolCallsByTurn turnId).1 toolCallId, ?_,
        rfl⟩)⟩
      change setTurn (turnEntry sink.toolCallsByTurn turnId).2 turnId _ = _
      rw [turnEntry_eq fits]
  | toolCallEnded toolCallId isError =>
      simp only [handle, turnEntry_eq fits]
      split
      · exact ⟨rfl, .inr (.inl ⟨_, rfl, rfl⟩)⟩
      · exact ⟨rfl, .inr (.inl ⟨_, rfl, rfl⟩)⟩
  | message role toolCallId => exact ⟨rfl, .inl ⟨rfl, rfl⟩⟩
  | turnEnded =>
      simp only [handle]
      split
      · exact ⟨rfl, .inr (.inr ⟨rfl, rfl⟩)⟩
      · exact ⟨rfl, .inr (.inr ⟨rfl, rfl⟩)⟩

theorem mem_activate (sink : Sink) (turnId : Nat) :
    turnId ∈ (activate sink turnId).active ∧ ∀ other ∈ sink.active,
      other ∈ (activate sink turnId).active := by
  unfold activate
  split
  next isActive => exact ⟨isActive, fun _ isIn => isIn⟩
  next => exact ⟨List.mem_cons_self, fun _ isIn => List.mem_cons_of_mem _ isIn⟩

theorem activate_once (once : sink.active.Nodup) (turnId : Nat) :
    (activate sink turnId).active.Nodup := by
  unfold activate
  split
  next => exact once
  next isNew => exact List.nodup_cons.mpr ⟨isNew, once⟩

theorem SinkHolds.event (holds : SinkHolds chatOf storable sink) {event : AgentRuntimeEvent}
    (tracked : Tracked sink (.event turnId event)) (idle : sink.work turnId = .idle) :
    SinkHolds chatOf storable (handle chatOf storable (activate sink turnId) turnId event) := by
  have fits := holds.fits tracked
  obtain ⟨chats, map⟩ := @handle_map chatOf storable _ _ fits event
  obtain ⟨isActive, stillActive⟩ := mem_activate sink turnId
  have activeOnce := activate_once holds.activeOnce turnId
  constructor
  · intro other
    by_cases same : other = turnId
    · subst same
      rw [turn_handle fits]
      exact (holds.turns other).handle idle event
    · rw [turn_handle_of_ne fits same]
      exact holds.turns other
  · rcases map with ⟨same, _⟩ | ⟨calls, set, _⟩ | ⟨deleted, _⟩
    · rw [same]
      exact holds.once
    · rw [set]
      exact keys_setTurn holds.once turnId calls
    · rw [deleted]
      exact holds.once.sublist (List.filter_sublist.map _)
  · intro other isIn
    rcases map with ⟨same, active⟩ | ⟨calls, set, active⟩ | ⟨deleted, active⟩
    · rw [same] at isIn
      rw [active]
      exact stillActive other (holds.within other isIn)
    · rw [set] at isIn
      rw [active]
      rcases mem_keys_setTurn isIn with before | isTurn
      · exact stillActive other (holds.within other before)
      · exact isTurn ▸ isActive
    · rw [deleted] at isIn
      rw [active]
      obtain ⟨entry, kept, isKey⟩ := List.mem_map.mp isIn
      obtain ⟨before, different⟩ := List.mem_filter.mp kept
      apply List.mem_filter.mpr
      constructor
      · exact stillActive other (holds.within other (List.mem_map.mpr ⟨entry, before, isKey⟩))
      · exact isKey ▸ different
  · rcases map with ⟨_, active⟩ | ⟨_, _, active⟩ | ⟨_, active⟩
    · rw [active]
      exact activeOnce
    · rw [active]
      exact activeOnce
    · rw [active]
      exact activeOnce.sublist List.filter_sublist
  · rw [chats]
    exact holds.owned
  · rw [chats]
    exact holds.due

/-! ### Transactions -/

theorem transact_some {step : ChatStep Connection} {work : Nat → Work}
    (moved : sink.transact hashtext number step work = some next) :
    ∃ chats, chatStep hashtext number sink.chats step = some chats ∧
      next = { sink with chats := chats, work := work } := by
  obtain ⟨chats, moved, same⟩ := Option.map_eq_some_iff.mp moved
  exact ⟨chats, moved, same.symm⟩

/-- A step of another transaction commits no record of the Turn. -/
theorem SinkHolds.beside (holds : SinkHolds chatOf storable sink) {step : ChatStep Connection}
    {chats : Chats Connection} (moved : chatStep hashtext number sink.chats step = some chats)
    {other : Nat} (different : step.thread ≠ some (.turn other)) {work : Work} {ledger : Ledger}
    (sameWork : work = sink.work other) (sameLedger : ledger = sink.ledger other) :
    (⟨chats.messages.committed, chats.messages.pending (.turn other), chats.inserting (.turn other),
      sink.toolCallsByTurn.lookup other, work, ledger⟩ : TurnView).Holds chatOf storable other := by
  obtain ⟨later, committed, ofThread⟩ := committed_of_step moved
  obtain ⟨pending, inserting⟩ := others_of_step moved different
  have none : later.countP (isRecordOf other) = 0 := by
    rw [List.countP_eq_zero]
    intro row isIn isRecord
    obtain ⟨thread, isThread, isPending⟩ := ofThread row isIn
    rw [holds.owned thread row isPending other isRecord] at isThread
    exact different isThread
  rw [committed, pending, inserting, sameWork, sameLedger]
  exact (holds.turns other).grown none

/-- A step of a transaction whose inserts are its own, once the Turns are seen to. -/
theorem SinkHolds.transacted (holds : SinkHolds chatOf storable sink) {step : ChatStep Connection}
    {chats : Chats Connection} (moved : chatStep hashtext number sink.chats step = some chats)
    (locks : ∀ thread insert, step = .lock thread insert → ∀ turnId sequence,
      isRecordOf turnId ⟨insert.chatId, sequence, insert.row⟩ = true → thread = .turn turnId)
    {work : Nat → Work} {ledger : Nat → Ledger}
    (turns : ∀ turnId,
      ({ sink with chats := chats, work := work, ledger := ledger } : Sink).turn turnId
        |>.Holds chatOf storable turnId) :
    SinkHolds chatOf storable { sink with chats := chats, work := work, ledger := ledger } := by
  constructor
  · exact turns
  · exact holds.once
  · exact holds.within
  · exact holds.activeOnce
  · intro thread row isPending turnId isRecord
    rcases pending_of_step moved isPending with before | ⟨insert, due, body⟩
    · exact holds.owned thread row before turnId isRecord
    · apply holds.due thread insert due turnId row.sequence
      unfold isRecordOf at isRecord ⊢
      rw [body] at isRecord
      exact isRecord
  · intro thread insert due
    rcases inserting_of_step moved due with before | isLock
    · exact holds.due thread insert before
    · exact locks thread insert isLock

theorem SinkHolds.locked (holds : SinkHolds chatOf storable sink) {insert : Insert}
    {inserts : List Insert} {batch : List String} {ends : Bool}
    (storing : sink.work turnId = .storing (insert :: inserts) batch ends)
    (transacts : sink.transact hashtext number (.lock (.turn turnId) insert) sink.work = some next) :
    SinkHolds chatOf storable next := by
  obtain ⟨chats, moved, same⟩ := transact_some transacts
  subst same
  apply holds.transacted moved
  · intro thread given isLock other sequence isRecord
    cases isLock
    have isIn : insert ∈ (sink.turn turnId).work.inserts := by
      change insert ∈ (sink.work turnId).inserts
      rw [storing]
      exact List.mem_cons_self
    rcases (holds.turns turnId).ofTurn insert isIn with ⟨toolCallId, outcome, same⟩ | ⟨input, same⟩
    · rw [same] at isRecord
      have isTurn : some turnId = some other := of_decide_eq_true isRecord
      cases isTurn
      rfl
    · rw [same] at isRecord
      cases isRecord
  · intro other
    by_cases same : other = turnId
    · subst same
      have now := (holds.turns other).locked storing
      simp only [chatStep] at moved
      split at moved
      next => cases moved
      next =>
        obtain ⟨messages, acquires, isNext⟩ := Option.map_eq_some_iff.mp moved
        cases isNext
        obtain ⟨committed, pending, _, _⟩ := Logs.acquire_cases acquires
        simp only [Sink.turn, committed, pending, Function.update_self]
        exact now
    · apply holds.beside moved _ rfl rfl
      intro isTurn
      cases isTurn
      exact same rfl

theorem SinkHolds.inserted (holds : SinkHolds chatOf storable sink) {insert : Insert}
    {inserts : List Insert} {batch : List String} {ends : Bool}
    (storing : sink.work turnId = .storing (insert :: inserts) batch ends)
    (transacts : sink.transact hashtext number (.insert (.turn turnId))
      (Function.update sink.work turnId (.storing inserts batch ends)) = some next) :
    SinkHolds chatOf storable next := by
  obtain ⟨chats, moved, same⟩ := transact_some transacts
  subst same
  apply holds.transacted moved
  · exact fun _ _ isLock => nomatch isLock
  · intro other
    by_cases same : other = turnId
    · subst same
      simp only [chatStep] at moved
      split at moved
      next => cases moved
      next given due =>
        have isFirst := (holds.turns other).inserting given due
        change (sink.work other).inserts.head? = some given at isFirst
        rw [storing] at isFirst
        cases isFirst
        cases moved
        simp only [Sink.turn, Function.update_self]
        rcases runInsert_cases sink.chats.messages (.turn other) insert with
          ⟨same, row, isIn, stands⟩ | ⟨appended, _⟩
        · rw [same]
          exact (holds.turns other).found storing isIn stands
        · rw [appended]
          simp only [Logs.append, Function.update_self]
          exact (holds.turns other).appended storing _
    · apply holds.beside moved _ (Function.update_of_ne same ..) rfl
      intro isTurn
      cases isTurn
      exact same rfl

theorem SinkHolds.committed (holds : SinkHolds chatOf storable sink) {batch : List String}
    {ends : Bool} (storing : sink.work turnId = .storing [] batch ends)
    (transacts : sink.transact hashtext number (.commit (.turn turnId))
      (Function.update sink.work turnId (.after ends)) = some next) :
    SinkHolds chatOf storable next := by
  obtain ⟨chats, moved, same⟩ := transact_some transacts
  subst same
  apply holds.transacted moved
  · exact fun _ _ isLock => nomatch isLock
  · intro other
    by_cases same : other = turnId
    · subst same
      simp only [chatStep] at moved
      split at moved
      next => cases moved
      next =>
        cases moved
        simp only [Sink.turn, Logs.commit, Function.update_self]
        exact (holds.turns other).committed storing
    · apply holds.beside moved _ (Function.update_of_ne same ..) rfl
      intro isTurn
      cases isTurn
      exact same rfl

theorem SinkHolds.failed (holds : SinkHolds chatOf storable sink) {inserts : List Insert}
    {batch : List String} {ends : Bool}
    (storing : sink.work turnId = .storing inserts batch ends) {failed : Sink}
    (transacts : sink.transact hashtext number (.rollback (.turn turnId))
      (Function.update sink.work turnId (.after ends)) = some failed) :
    SinkHolds chatOf storable { failed with
      ledger := Function.update failed.ledger turnId
        { failed.ledger turnId with lost := (failed.ledger turnId).lost ++ batch } } := by
  obtain ⟨chats, moved, same⟩ := transact_some transacts
  subst same
  apply holds.transacted moved
  · exact fun _ _ isLock => nomatch isLock
  · intro other
    by_cases same : other = turnId
    · subst same
      cases moved
      simp only [Sink.turn, Logs.rollback, Function.update_self]
      exact (holds.turns other).failed storing
    · apply holds.beside moved _ (Function.update_of_ne same ..) (Function.update_of_ne same ..)
      intro isTurn
      cases isTurn
      exact same rfl

theorem SinkHolds.others (holds : SinkHolds chatOf storable sink) {step : ChatStep Connection}
    (isOthers : ofOthers step = true)
    (transacts : sink.transact hashtext number step sink.work = some next) :
    SinkHolds chatOf storable next := by
  obtain ⟨chats, moved, same⟩ := transact_some transacts
  subst same
  apply holds.transacted moved
  · intro thread insert isLock turnId sequence isRecord
    subst isLock
    cases thread with
    | turn _ => cases isOthers
    | other _ =>
        cases insert with
        | message _ => cases isRecord
        | toolCall _ => cases isOthers
  · intro turnId
    apply holds.beside moved _ rfl rfl
    intro isTurn
    unfold ofOthers at isOthers
    split at isOthers
    · cases isTurn
    · cases isTurn
    · cases isTurn
    · cases isTurn
    · cases isTurn
    · cases isOthers

/-- The Turn's end leaves the chats and the map. -/
theorem SinkHolds.ended (holds : SinkHolds chatOf storable sink)
    (ending : sink.work turnId = .ending) (turnEnds : List Nat) :
    SinkHolds chatOf storable { sink with
      work := Function.update sink.work turnId .ended
      turnEnds := turnEnds } := by
  constructor
  · intro other
    by_cases same : other = turnId
    · subst same
      simp only [Sink.turn, Function.update_self]
      exact (holds.turns other).ended ending
    · simp only [Sink.turn, Function.update_of_ne same]
      exact holds.turns other
  · exact holds.once
  · exact holds.within
  · exact holds.activeOnce
  · exact holds.owned
  · exact holds.due

/-! ### Runs -/

theorem sinkHolds_step {step : SinkStep} (holds : SinkHolds chatOf storable sink)
    (tracked : Tracked sink step)
    (moved : sinkStep chatOf storable hashtext number sink step = some next) :
    SinkHolds chatOf storable next := by
  cases step with
  | event turnId event =>
      simp only [sinkStep] at moved
      split at moved
      next idle =>
        cases moved
        exact holds.event tracked idle
      next => cases moved
  | lock turnId =>
      simp only [sinkStep] at moved
      split at moved
      next storing => exact holds.locked storing moved
      next => cases moved
  | insert turnId =>
      simp only [sinkStep] at moved
      split at moved
      next storing => exact holds.inserted storing moved
      next => cases moved
  | commit turnId =>
      simp only [sinkStep] at moved
      split at moved
      next storing => exact holds.committed storing moved
      next => cases moved
  | fail turnId =>
      simp only [sinkStep] at moved
      split at moved
      next storing =>
        obtain ⟨failed, transacts, same⟩ := Option.map_eq_some_iff.mp moved
        subst same
        exact holds.failed storing transacts
      next => cases moved
  | endTurn turnId =>
      simp only [sinkStep] at moved
      split at moved
      next ending =>
        cases moved
        exact holds.ended ending _
      next => cases moved
  | endFails turnId =>
      simp only [sinkStep] at moved
      split at moved
      next ending =>
        cases moved
        exact holds.ended ending _
      next => cases moved
  | other step =>
      simp only [sinkStep] at moved
      split at moved
      next isOthers => exact holds.others isOthers moved
      next => cases moved

theorem sinkHolds_run {steps : List SinkStep} (start : SinkStart sink)
    (tracked : (sinkSystem chatOf storable hashtext number).Allowed Tracked sink steps)
    (ran : (sinkSystem chatOf storable hashtext number).run sink steps = some next) :
    SinkHolds chatOf storable next :=
  (sinkSystem chatOf storable hashtext number).run_preserves_when
    (fun _ _ _ holds allowed moved => sinkHolds_step holds allowed moved)
    (sinkHolds_start start) tracked ran

end

end NextTime.Chat
