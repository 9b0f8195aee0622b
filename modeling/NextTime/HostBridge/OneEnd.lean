import NextTime.HostBridge.TurnEnds

/-
Every step of the runtime is a move of each Turn, so what the moves keep holds
in every run: at most one end for a Turn, nothing after it, and no `startTurn`
frame after a stop the runtime still remembers.
-/

namespace NextTime.HostBridge
open TurnHappening

namespace AgentHostRuntime

/-- What would end the Turn finds none of its own ends under way. -/
def Undisturbed (turnId : Nat) (runtime : AgentHostRuntime) : RuntimeLabel → Prop
  | .receives seq frame =>
      runtime.duplicate seq frame = false →
        match frame with
        | .hello instanceId => runtime.restarted instanceId = true → (runtime.turns turnId).Steady
        | .turnUnknown other =>
            other = turnId → (runtime.turns turnId).sent = true → (runtime.turns turnId).Steady
        | .runtimeEvent other event =>
            other = turnId → event.ends = true → (runtime.turns turnId).Steady
        | _ => True
  | _ => True

/-- The stop of another Turn does not push out what is remembered of this one. -/
def KeepsStop (turnId : Nat) (runtime : AgentHostRuntime) : RuntimeLabel → Prop
  | .stopTurn other =>
      turnId ∈ runtime.stoppedBeforeStart →
        turnId ∈ (runtime.stopTurn other).stoppedBeforeStart
  | _ => True

instance (turnId : Nat) (runtime : AgentHostRuntime) :
    ∀ label, Decidable (Undisturbed turnId runtime label)
  | .receives seq frame => by
      unfold Undisturbed
      cases frame <;> infer_instance
  | .connects _ | .disconnects _ | .startTurn _ | .prepares _ | .prepareFails _ | .launches _ _
  | .acceptTimesOut _ | .continues _ | .stopTurn _ | .sinks _ => isTrue trivial

instance (turnId : Nat) (runtime : AgentHostRuntime) :
    ∀ label, Decidable (KeepsStop turnId runtime label)
  | .stopTurn _ => inferInstanceAs (Decidable (_ → _))
  | .receives _ _ | .connects _ | .disconnects _ | .startTurn _ | .prepares _ | .prepareFails _
  | .launches _ _ | .acceptTimesOut _ | .continues _ | .sinks _ => isTrue trivial

/-! ### A step is a move of each Turn -/

/-- Neither `startTurn` nor `stopTurn` is called. -/
def Plain : RuntimeLabel → Prop
  | .startTurn _ => False
  | .stopTurn _ => False
  | _ => True

theorem update_self (runtime : AgentHostRuntime) (turnId : Nat) (turn : Turn) :
    (runtime.update turnId turn).turns turnId = turn := by
  simp only [update, Function.update_self]

theorem update_other (runtime : AgentHostRuntime) {turnId other : Nat} (turn : Turn)
    (apart : turnId ≠ other) : (runtime.update other turn).turns turnId = runtime.turns turnId := by
  simp only [update, Function.update_of_ne apart]

theorem update_changes {runtime : AgentHostRuntime} {turnId other : Nat} {turn : Turn}
    (changes : other = turnId → (runtime.turns turnId).Changes turn) :
    (runtime.turns turnId).Changes ((runtime.update other turn).turns turnId) := by
  by_cases same : other = turnId
  · have changed := changes same
    rw [same, update_self]
    exact changed
  · rw [update_other runtime turn (Ne.symm same)]
    exact Turn.Changes.stays

theorem handle_changes {runtime : AgentHostRuntime} {turnId : Nat} {frame : HostFrame}
    (steady : runtime.Undisturbed turnId (.receives none frame)) :
    (runtime.turns turnId).Changes ((runtime.handle frame).turns turnId) := by
  cases frame with
  | hello instanceId =>
      have calm := steady rfl
      rw [handle, handleHello]
      by_cases restarted : runtime.restarted instanceId = true
      · rw [if_pos restarted]
        exact Turn.Changes.abandoned (calm restarted)
      · rw [if_neg restarted]
        exact Turn.Changes.repeatsStop _
  | turnAccepted other =>
      apply update_changes
      intro same
      rw [same]
      exact Turn.Changes.resolves .accepted (fun same => nomatch same)
  | turnRejected other =>
      apply update_changes
      intro same
      rw [same]
      exact Turn.Changes.resolves .refused (fun same => nomatch same)
  | turnUnknown other =>
      have calm := steady rfl
      apply update_changes
      intro same
      rw [same]
      exact Turn.Changes.turnUnknown (calm same)
  | runtimeEvent other event =>
      have calm := steady rfl
      apply update_changes
      intro same
      rw [same]
      exact Turn.Changes.runtimeEvent event (calm same)

theorem handleFrame_changes {runtime : AgentHostRuntime} {turnId : Nat} {seq : Option Nat}
    {frame : HostFrame} (steady : runtime.Undisturbed turnId (.receives seq frame)) :
    (runtime.turns turnId).Changes ((runtime.handleFrame seq frame).turns turnId) := by
  rw [handleFrame.eq_def]
  by_cases duplicate : runtime.duplicate seq frame = true
  · rw [if_pos duplicate]
    exact Turn.Changes.stays
  · have fresh : runtime.duplicate seq frame = false := Bool.of_not_eq_true duplicate
    rw [if_neg duplicate]
    have calm := steady fresh
    cases seq with
    | none =>
        cases frame with
        | hello _ => exact handle_changes fun _ => calm
        | turnAccepted _ => exact handle_changes fun _ => calm
        | turnRejected _ => exact handle_changes fun _ => calm
        | turnUnknown _ => exact handle_changes fun _ => calm
        | runtimeEvent _ _ => exact handle_changes fun _ => calm
    | some number =>
        have numbered : ∀ frame : HostFrame,
            Undisturbed turnId { runtime with lastSeq := number } (.receives none frame) →
              (runtime.turns turnId).Changes
                (({ runtime with lastSeq := number } : AgentHostRuntime).handle frame |>.turns
                  turnId) :=
          fun frame steady => handle_changes steady
        cases frame with
        | hello _ => exact handle_changes fun _ => calm
        | turnAccepted other => exact numbered _ fun _ => calm
        | turnRejected other => exact numbered _ fun _ => calm
        | turnUnknown other => exact numbered _ fun _ => calm
        | runtimeEvent other event => exact numbered _ fun _ => calm

theorem step_changes {runtime next : AgentHostRuntime} {turnId : Nat} {label : RuntimeLabel}
    (undisturbed : runtime.Undisturbed turnId label) (plain : Plain label)
    (moved : runtime.step label = some next) :
    (runtime.turns turnId).Changes (next.turns turnId) := by
  cases label with
  | connects link =>
      rw [step] at moved
      cases registered : runtime.link with
      | none =>
          rw [registered, Option.some.injEq] at moved
          rw [← moved]
          exact Turn.Changes.stays
      | some _ =>
          rw [registered, Option.some.injEq] at moved
          rw [← moved]
          exact Turn.Changes.stays
  | disconnects link =>
      rw [step, Option.some.injEq] at moved
      rw [← moved]
      split
      next => exact Turn.Changes.stays
      next => exact Turn.Changes.stays
  | startTurn _ => exact plain.elim
  | prepares other =>
      rw [step] at moved
      split at moved
      next =>
        rw [← Option.some.inj moved]
        exact Turn.Changes.stays
      next => cases moved
  | prepareFails other =>
      rw [step] at moved
      split at moved
      next preparing =>
        rw [← Option.some.inj moved]
        apply update_changes
        intro same
        rw [same] at preparing ⊢
        exact Turn.Changes.prepareFails preparing
      next => cases moved
  | launches other sendFails =>
      rw [step] at moved
      split at moved
      next preparing =>
        rw [← Option.some.inj moved]
        apply update_changes
        intro same
        rw [same] at preparing ⊢
        exact Turn.Changes.launches _ _ preparing
      next => cases moved
  | acceptTimesOut other =>
      rw [step] at moved
      split at moved
      next =>
        rw [← Option.some.inj moved]
        apply update_changes
        intro same
        rw [same]
        exact Turn.Changes.resolves .timedOut (fun same => nomatch same)
      next => cases moved
  | continues other =>
      rw [step] at moved
      obtain ⟨outcome, resolved, moved⟩ := Option.map_eq_some_iff.mp moved
      rw [← moved]
      apply update_changes
      intro same
      rw [same] at resolved ⊢
      exact Turn.Changes.continues outcome _ resolved
  | stopTurn _ => exact plain.elim
  | receives seq frame =>
      rw [step] at moved
      rw [← Option.some.inj moved]
      exact handleFrame_changes undisturbed
  | sinks other =>
      rw [step] at moved
      split at moved
      next => cases moved
      next event later chained =>
        rw [← Option.some.inj moved]
        apply update_changes
        intro same
        rw [same] at chained ⊢
        exact Turn.Changes.sinks event later chained

theorem step_startTurn {runtime next : AgentHostRuntime} {other : Nat}
    (moved : runtime.step (.startTurn other) = some next) :
    (runtime.turns other).called = false ∧
      next.turns = (runtime.update other ((runtime.turns other).start
        (runtime.stoppedBeforeStart.contains other) runtime.connected)).turns ∧
      next.stoppedBeforeStart =
        runtime.stoppedBeforeStart.filter fun kept => decide (kept ≠ other) := by
  rw [step] at moved
  split at moved
  next => cases moved
  next uncalled =>
    rw [← Option.some.inj moved]
    exact ⟨Bool.of_not_eq_true uncalled, rfl, rfl⟩

theorem stopTurn_turns (runtime : AgentHostRuntime) (other : Nat) :
    (runtime.stopTurn other).turns =
      (runtime.update other ((runtime.turns other).stop runtime.connected)).turns := by
  rw [stopTurn]
  split
  next => rfl
  next => rfl

theorem step_moves {runtime next : AgentHostRuntime} {turnId : Nat} {label : RuntimeLabel}
    (undisturbed : runtime.Undisturbed turnId label)
    (moved : runtime.step label = some next) :
    (runtime.turns turnId).Moves (next.turns turnId) := by
  by_cases plain : Plain label
  · exact Turn.Moves.changes (step_changes undisturbed plain moved)
  · cases label with
    | startTurn other =>
        obtain ⟨uncalled, turns, _⟩ := step_startTurn moved
        rw [turns]
        by_cases same : other = turnId
        · rw [← same, update_self]
          exact Turn.Moves.starts _ _ uncalled
        · rw [update_other runtime _ (Ne.symm same)]
          exact Turn.Moves.changes .stays
    | stopTurn other =>
        rw [step] at moved
        rw [← Option.some.inj moved, stopTurn_turns]
        by_cases same : other = turnId
        · rw [← same, update_self]
          exact Turn.Moves.stops _
        · rw [update_other runtime _ (Ne.symm same)]
          exact Turn.Moves.changes .stays
    | _ => exact absurd trivial plain

/-! ### What a remembered stop prevents -/

structure StopHolds (turnId : Nat) (runtime : AgentHostRuntime) : Prop where
  bounded : runtime.stoppedBeforeStart.length ≤ STOPPED_BEFORE_START_LIMIT
  remembered : (runtime.turns turnId).called = false →
    .stopAsked ∈ (runtime.turns turnId).log → turnId ∈ runtime.stoppedBeforeStart
  requested : (runtime.turns turnId).preparing = true →
    .stopAsked ∈ (runtime.turns turnId).log → (runtime.turns turnId).stopRequested = true
  order : (runtime.turns turnId).log.Pairwise NoStartAfterStop

theorem handle_remembered (runtime : AgentHostRuntime) (frame : HostFrame) :
    (runtime.handle frame).stoppedBeforeStart = runtime.stoppedBeforeStart := by
  cases frame with
  | hello instanceId =>
      rw [handle, handleHello]
      split
      next => rfl
      next => rfl
  | turnAccepted other => rfl
  | turnRejected other => rfl
  | turnUnknown other => rfl
  | runtimeEvent other event => rfl

theorem handleFrame_remembered (runtime : AgentHostRuntime) (seq : Option Nat)
    (frame : HostFrame) :
    (runtime.handleFrame seq frame).stoppedBeforeStart = runtime.stoppedBeforeStart := by
  rw [handleFrame.eq_def]
  split
  next => rfl
  next =>
    split
    next => exact handle_remembered runtime _
    next => exact handle_remembered _ _
    next => exact handle_remembered runtime _

theorem step_remembered {runtime next : AgentHostRuntime} {label : RuntimeLabel}
    (plain : Plain label) (moved : runtime.step label = some next) :
    next.stoppedBeforeStart = runtime.stoppedBeforeStart := by
  cases label with
  | startTurn _ => exact plain.elim
  | stopTurn _ => exact plain.elim
  | connects link =>
      rw [step] at moved
      split at moved
      next => rw [← Option.some.inj moved]
      next => rw [← Option.some.inj moved]
  | disconnects link =>
      rw [step] at moved
      rw [← Option.some.inj moved]
      split
      next => rfl
      next => rfl
  | continues other =>
      obtain ⟨_, _, moved⟩ := Option.map_eq_some_iff.mp moved
      rw [← moved, update]
  | receives seq frame =>
      rw [step] at moved
      rw [← Option.some.inj moved]
      exact handleFrame_remembered runtime seq frame
  | sinks other =>
      rw [step] at moved
      split at moved
      next => cases moved
      next => rw [← Option.some.inj moved, update]
  | prepares other =>
      rw [step] at moved
      split at moved
      next => rw [← Option.some.inj moved]
      next => cases moved
  | prepareFails other =>
      rw [step] at moved
      split at moved
      next => rw [← Option.some.inj moved, update]
      next => cases moved
  | launches other sendFails =>
      rw [step] at moved
      split at moved
      next => rw [← Option.some.inj moved, update]
      next => cases moved
  | acceptTimesOut other =>
      rw [step] at moved
      split at moved
      next => rw [← Option.some.inj moved, update]
      next => cases moved

theorem remember_bounded {runtime : AgentHostRuntime}
    (bounded : runtime.stoppedBeforeStart.length ≤ STOPPED_BEFORE_START_LIMIT) (other : Nat) :
    (runtime.rememberStoppedBeforeStart other).stoppedBeforeStart.length ≤
      STOPPED_BEFORE_START_LIMIT := by
  simp only [rememberStoppedBeforeStart]
  split
  next known =>
    split
    next =>
      rw [List.length_tail]
      omega
    next => exact bounded
  next =>
    split
    next =>
      rw [List.length_tail, List.length_append, List.length_singleton]
      omega
    next small => exact Nat.le_of_not_lt small

/-- What was just remembered is the last to be forgotten. -/
theorem remember_self {runtime : AgentHostRuntime}
    (bounded : runtime.stoppedBeforeStart.length ≤ STOPPED_BEFORE_START_LIMIT) (turnId : Nat) :
    turnId ∈ (runtime.rememberStoppedBeforeStart turnId).stoppedBeforeStart := by
  simp only [rememberStoppedBeforeStart]
  split
  next known =>
    rw [if_neg (Nat.not_lt.mpr bounded)]
    exact List.contains_iff_mem.mp known
  next =>
    split
    next full =>
      have filled : runtime.stoppedBeforeStart ≠ [] := by
        intro none
        rw [none, List.nil_append, List.length_singleton] at full
        exact absurd full (by decide)
      rw [List.tail_append_of_ne_nil filled]
      exact List.mem_append_right _ (List.mem_singleton.mpr rfl)
    next => exact List.mem_append_right _ (List.mem_singleton.mpr rfl)

theorem stopTurn_bounded {runtime : AgentHostRuntime}
    (bounded : runtime.stoppedBeforeStart.length ≤ STOPPED_BEFORE_START_LIMIT) (other : Nat) :
    (runtime.stopTurn other).stoppedBeforeStart.length ≤ STOPPED_BEFORE_START_LIMIT := by
  rw [stopTurn]
  split
  next => exact bounded
  next => exact remember_bounded bounded other

theorem stopTurn_remembers {runtime : AgentHostRuntime} {turnId : Nat}
    (bounded : runtime.stoppedBeforeStart.length ≤ STOPPED_BEFORE_START_LIMIT)
    (untracked : (runtime.turns turnId).tracked = false) :
    turnId ∈ (runtime.stopTurn turnId).stoppedBeforeStart := by
  rw [stopTurn, if_neg (by rw [untracked]; exact Bool.false_ne_true)]
  exact remember_self bounded turnId

theorem stop_facts (turn : Turn) (connected : Bool) :
    (turn.stop connected).called = turn.called ∧
      ((turn.stop connected).preparing = true → turn.preparing = true) ∧
      (turn.tracked = true → (turn.stop connected).stopRequested = true) := by
  rw [Turn.stop]
  by_cases tracked : turn.tracked = true
  · rw [if_pos tracked]
    by_cases sent : turn.sent = true
    · rw [if_pos sent]
      have carried := Turn.Carries.sendStopFrame
        { turn with log := turn.log ++ [.stopAsked], stopRequested := true } connected
      exact ⟨carried.called, carried.preparing, fun _ => carried.requested⟩
    · rw [if_neg sent]
      exact ⟨rfl, id, fun _ => rfl⟩
  · rw [if_neg tracked]
    exact ⟨rfl, id, fun asked => absurd asked tracked⟩

theorem start_called (turn : Turn) (stoppedBefore connected : Bool) :
    (turn.start stoppedBefore connected).called = true := by
  cases stoppedBefore with
  | true => rfl
  | false =>
      cases connected with
      | true => rfl
      | false => rfl

/-- A start that asks for a preparation has found no stop. -/
theorem start_prepares {turn : Turn} {stoppedBefore connected : Bool}
    (idle : turn.preparing = false)
    (preparing : (turn.start stoppedBefore connected).preparing = true) :
    stoppedBefore = false ∧ (turn.start stoppedBefore connected).log = turn.log := by
  cases stoppedBefore with
  | true =>
      change turn.preparing = true at preparing
      rw [idle] at preparing
      cases preparing
  | false =>
      cases connected with
      | true => exact ⟨rfl, rfl⟩
      | false =>
          change turn.preparing = true at preparing
          rw [idle] at preparing
          cases preparing

theorem untouched_of_uncalled {turn : Turn} (holds : turn.Holds) (uncalled : turn.called = false) :
    turn.Untouched := by
  cases holds.phase with
  | inl untouched => exact untouched
  | inr begun =>
      cases begun with
      | inl live => rw [live.called] at uncalled; cases uncalled
      | inr past => rw [past.called] at uncalled; cases uncalled

theorem StopHolds.order_step {runtime next : AgentHostRuntime} {turnId : Nat}
    (stop : StopHolds turnId runtime)
    (moves : (runtime.turns turnId).Moves (next.turns turnId)) :
    (next.turns turnId).log.Pairwise NoStartAfterStop := by
  cases moves.logs with
  | adds idle => exact idle.pairwise (fun _ _ plain _ => plain.2) stop.order
  | starts preparing unstopped same =>
      rw [same]
      apply pairwise_snoc stop.order
      intro earlier member asked
      rw [asked] at member
      exact absurd (stop.requested preparing member) unstopped
  | hands event later _ same =>
      rw [same]
      apply pairwise_snoc stop.order
      intro _ _ _ started
      cases started

theorem StopHolds.plain_step {runtime next : AgentHostRuntime} {turnId : Nat}
    {label : RuntimeLabel} (stop : StopHolds turnId runtime)
    (undisturbed : runtime.Undisturbed turnId label) (plain : Plain label)
    (moved : runtime.step label = some next) : StopHolds turnId next := by
  have change := step_changes undisturbed plain moved
  have carries := change.carries
  have remembered := step_remembered plain moved
  constructor
  case bounded => rw [remembered]; exact stop.bounded
  case remembered =>
    intro uncalled asked
    rw [remembered]
    exact stop.remembered (carries.called.symm.trans uncalled) (carries.asked asked)
  case requested =>
    intro preparing asked
    rw [carries.requested]
    exact stop.requested (carries.preparing preparing) (carries.asked asked)
  case order => exact stop.order_step (.changes change)

theorem StopHolds.start_step {runtime next : AgentHostRuntime} {turnId other : Nat}
    (holds : (runtime.turns turnId).Holds) (stop : StopHolds turnId runtime)
    (moved : runtime.step (.startTurn other) = some next)
    (moves : (runtime.turns turnId).Moves (next.turns turnId)) : StopHolds turnId next := by
  obtain ⟨uncalled, turns, remembered⟩ := step_startTurn moved
  by_cases same : other = turnId
  · have own : next.turns turnId = (runtime.turns turnId).start
        (runtime.stoppedBeforeStart.contains turnId) runtime.connected := by
      rw [turns, same, update_self]
    rw [same] at uncalled
    constructor
    case bounded =>
      rw [remembered]
      exact Nat.le_trans (List.length_filter_le _ _) stop.bounded
    case remembered =>
      intro later
      rw [own, start_called] at later
      cases later
    case requested =>
      intro preparing asked
      rw [own] at preparing asked
      have idle := (untouched_of_uncalled holds uncalled).unprepared
      obtain ⟨unstopped, log⟩ := start_prepares idle preparing
      rw [log] at asked
      have kept := stop.remembered uncalled asked
      rw [List.contains_iff_mem.mpr kept] at unstopped
      cases unstopped
    case order => exact stop.order_step moves
  · have kept : next.turns turnId = runtime.turns turnId := by
      rw [turns, update_other runtime _ (Ne.symm same)]
    constructor
    case bounded =>
      rw [remembered]
      exact Nat.le_trans (List.length_filter_le _ _) stop.bounded
    case remembered =>
      intro uncalled asked
      rw [kept] at uncalled asked
      rw [remembered]
      exact List.mem_filter.mpr ⟨stop.remembered uncalled asked, decide_eq_true (Ne.symm same)⟩
    case requested => rw [kept]; exact stop.requested
    case order => rw [kept]; exact stop.order

theorem StopHolds.stop_step {runtime : AgentHostRuntime} {turnId other : Nat}
    (holds : (runtime.turns turnId).Holds) (stop : StopHolds turnId runtime)
    (keeps : runtime.KeepsStop turnId (.stopTurn other))
    (moves : (runtime.turns turnId).Moves ((runtime.stopTurn other).turns turnId)) :
    StopHolds turnId (runtime.stopTurn other) := by
  by_cases same : other = turnId
  · have own : (runtime.stopTurn other).turns turnId =
        (runtime.turns turnId).stop runtime.connected := by
      rw [stopTurn_turns, same, update_self]
    obtain ⟨called, preparing, requested⟩ := stop_facts (runtime.turns turnId) runtime.connected
    constructor
    case bounded => exact stopTurn_bounded stop.bounded other
    case remembered =>
      intro uncalled _
      rw [own, called] at uncalled
      rw [same]
      exact stopTurn_remembers stop.bounded (untouched_of_uncalled holds uncalled).untracked
    case requested =>
      intro underway _
      rw [own] at underway ⊢
      exact requested (holds.live_of_preparing (preparing underway)).tracked
    case order => exact stop.order_step moves
  · have kept : (runtime.stopTurn other).turns turnId = runtime.turns turnId := by
      rw [stopTurn_turns, update_other runtime _ (Ne.symm same)]
    constructor
    case bounded => exact stopTurn_bounded stop.bounded other
    case remembered =>
      intro uncalled asked
      rw [kept] at uncalled asked
      exact keeps (stop.remembered uncalled asked)
    case requested => rw [kept]; exact stop.requested
    case order => rw [kept]; exact stop.order

theorem StopHolds.step {runtime next : AgentHostRuntime} {turnId : Nat} {label : RuntimeLabel}
    (holds : (runtime.turns turnId).Holds) (stop : StopHolds turnId runtime)
    (undisturbed : runtime.Undisturbed turnId label) (keeps : runtime.KeepsStop turnId label)
    (moved : runtime.step label = some next) : StopHolds turnId next := by
  have moves := step_moves undisturbed moved
  by_cases plain : Plain label
  · exact stop.plain_step undisturbed plain moved
  · cases label with
    | startTurn other => exact stop.start_step holds moved moves
    | stopTurn other =>
        have same : runtime.stopTurn other = next := Option.some.inj moved
        rw [← same] at moves ⊢
        exact stop.stop_step holds keeps moves
    | _ => exact absurd trivial plain

/-! ### Whole runs -/

theorem initial_holds (turnId : Nat) : (initial.turns turnId).Holds where
  phase := by
    left
    exact ⟨fun called => (nomatch called), rfl, rfl, rfl, rfl, rfl⟩
  order := List.Pairwise.nil

theorem initial_stopHolds (turnId : Nat) : StopHolds turnId initial where
  bounded := Nat.zero_le _
  remembered := fun _ asked => (nomatch asked)
  requested := fun preparing => (nomatch preparing)
  order := List.Pairwise.nil

theorem run_holds {turnId : Nat} {labels : List RuntimeLabel} {final : AgentHostRuntime}
    (ran : system.run initial labels = some final)
    (undisturbed : system.Allowed (Undisturbed turnId) initial labels) :
    (final.turns turnId).Holds := by
  have preserved : system.PreservedWhen (Undisturbed turnId)
      fun runtime => (runtime.turns turnId).Holds :=
    fun _ _ _ holds calm moved => holds.move (step_moves calm moved)
  exact system.run_preserves_when preserved (initial_holds turnId) undisturbed ran

theorem run_stopHolds {turnId : Nat} {labels : List RuntimeLabel} {final : AgentHostRuntime}
    (ran : system.run initial labels = some final)
    (undisturbed : system.Allowed (Undisturbed turnId) initial labels)
    (kept : system.Allowed (KeepsStop turnId) initial labels) :
    StopHolds turnId final := by
  have preserved : system.PreservedWhen
      (fun runtime label => runtime.Undisturbed turnId label ∧ runtime.KeepsStop turnId label)
      fun runtime => (runtime.turns turnId).Holds ∧ StopHolds turnId runtime :=
    fun _ _ _ holds calm moved =>
      ⟨holds.1.move (step_moves calm.1 moved), holds.2.step holds.1 calm.1 calm.2 moved⟩
  exact (system.run_preserves_when preserved ⟨initial_holds turnId, initial_stopHolds turnId⟩
    (undisturbed.both system kept) ran).2

/-- The end of an untracked Turn that was started is on its way or handed over, once. -/
theorem ends_once {turn : Turn} (holds : turn.Holds) (called : turn.called = true)
    (started : turn.skipped = false) (untracked : turn.tracked = false) : turn.ends = 1 := by
  cases holds.phase with
  | inl untouched =>
      rw [untouched.kept called] at started
      cases started
  | inr begun =>
      cases begun with
      | inl live =>
          rw [live.tracked] at untracked
          cases untracked
      | inr past =>
          obtain ⟨event, member, ended⟩ := past.ended
          have some_ : event ∈ turn.stream.filter RuntimeEvent.ends :=
            List.mem_filter.mpr ⟨member, ended⟩
          have most : turn.ends ≤ 1 := past.closed.ends_le_one
          have least : 0 < turn.ends := List.length_pos_of_mem some_
          exact Nat.le_antisymm most least

/-- One end for a Turn nothing else ends while it is being prepared or its failed
accept wait is about to end it; nothing after that end; and no `startTurn` frame
after a stop the runtime has not forgotten. -/
theorem one_end_per_turn {turnId : Nat} {labels : List RuntimeLabel} {final : AgentHostRuntime}
    (ran : system.run initial labels = some final)
    (undisturbed : system.Allowed (Undisturbed turnId) initial labels) :
    (final.turns turnId).ends ≤ 1 ∧
      (final.turns turnId).log.Pairwise EndIsLast ∧
      ((final.turns turnId).called = true → (final.turns turnId).skipped = false →
        (final.turns turnId).tracked = false → (final.turns turnId).ends = 1) ∧
      (system.Allowed (KeepsStop turnId) initial labels →
        (final.turns turnId).log.Pairwise NoStartAfterStop) := by
  have holds := run_holds ran undisturbed
  refine ⟨holds.onlyLastEnds.ends_le_one, holds.order, ends_once holds, ?_⟩
  intro kept
  exact (run_stopHolds ran undisturbed kept).order

/-- A Turn that is stopped, rejected and stopped again. -/
theorem one_end_per_turn_rejected :
    ∃ final, system.run initial
        [.connects 0, .receives none (.hello 1), .startTurn 7, .prepares 7, .launches 7 false,
          .stopTurn 7, .receives (some 1) (.turnRejected 7), .continues 7, .sinks 7,
          .stopTurn 7] = some final ∧
      ((final.turns 7).ends ≤ 1 ∧ (final.turns 7).log.Pairwise EndIsLast ∧
        ((final.turns 7).called = true → (final.turns 7).skipped = false →
          (final.turns 7).tracked = false → (final.turns 7).ends = 1) ∧
        (final.turns 7).log.Pairwise NoStartAfterStop) := by
  refine ⟨_, rfl, ?_⟩
  have undisturbed : system.Allowed (Undisturbed 7) initial
      [.connects 0, .receives none (.hello 1), .startTurn 7, .prepares 7, .launches 7 false,
        .stopTurn 7, .receives (some 1) (.turnRejected 7), .continues 7, .sinks 7,
        .stopTurn 7] := by decide +kernel
  have kept : system.Allowed (KeepsStop 7) initial
      [.connects 0, .receives none (.hello 1), .startTurn 7, .prepares 7, .launches 7 false,
        .stopTurn 7, .receives (some 1) (.turnRejected 7), .continues 7, .sinks 7,
        .stopTurn 7] := by decide +kernel
  obtain ⟨once, last, exact_, stopped⟩ := @one_end_per_turn 7 _ _ rfl undisturbed
  exact ⟨once, last, exact_, stopped kept⟩

/-- Agent-host restarts while the Turn is being prepared: it is reported ended, sent to
the new process, and reported ended again. And 256 other stops make the runtime forget
the stop of a Turn that is still to start. -/
theorem restart_ends_twice :
    (∃ final, system.run initial
        [.connects 0, .receives none (.hello 1), .startTurn 7, .receives none (.hello 2),
          .sinks 7, .launches 7 false, .acceptTimesOut 7, .continues 7, .sinks 7] =
          some final ∧
      (final.turns 7).called = true ∧ (final.turns 7).skipped = false ∧
      (final.turns 7).ends = 2 ∧ ¬ (final.turns 7).log.Pairwise EndIsLast) ∧
    ∃ final, system.run initial
        ([.connects 0] ++ (List.range 257).map .stopTurn ++ [.startTurn 0, .launches 0 false]) =
          some final ∧
      (final.turns 0).log = [.stopAsked, .startSent] := by
  constructor
  · refine ⟨_, rfl, rfl, rfl, by decide +kernel, ?_⟩
    intro ordered
    have first := (List.pairwise_cons.mp ordered).1 .startSent List.mem_cons_self
    exact (first (.turnEnded .interrupted) rfl rfl).2 rfl
  · have ends : (system.run initial
        ([.connects 0] ++ (List.range 257).map .stopTurn ++
          [.startTurn 0, .launches 0 false])).any
          (fun final => decide ((final.turns 0).log = [.stopAsked, .startSent])) = true := by
      decide +kernel
    obtain ⟨final, ran, log⟩ := (Option.any_eq_true _ _).mp ends
    exact ⟨final, ran, of_decide_eq_true log⟩

end AgentHostRuntime
end NextTime.HostBridge
