import NextTime.LlmProxy.CallWindow

/-
The limiter over any run: its bounds, the turns of those that wait, the charges of a
window, and the actor's state kept as long as a call or a charge needs it.
-/

namespace NextTime.LlmProxy

variable {limits : UpstreamCallLimits}

/-! ### The objects of an actor -/

namespace ActorPart

/-- The object in the map, or what a call would find. -/
def state (part : ActorPart) : ActorState := (part.current.map part.object).getD .empty

theorem state_of_current {part : ActorPart} {index : Nat} (current : part.current = some index) :
    part.state = part.object index := by
  rw [state, current]
  rfl

theorem release_nil {part : ActorPart} {index : Nat} (waits : (part.object index).waiting = []) :
    part.release index =
      (part.put index { part.object index with
        running := (part.object index).running - 1 }).forgetIfIdle index := by
  simp only [release, waits]

theorem release_cons {part : ActorPart} {index : Nat} {next : LimitedCall}
    {waiting : List LimitedCall} (waits : (part.object index).waiting = next :: waiting) :
    part.release index =
      { part.put index { part.object index with waiting := waiting } with
        turned := part.turned ++ [next]
        turns := part.turns ++ [next] }.forgetIfIdle index := by
  simp only [release, waits]

/-- The object of a call that the window cannot take, and the refusals with it. -/
def refuse (limits : UpstreamCallLimits) (clock : ℚ) (part : ActorPart) (index : Nat)
    (refused : List (LimitedCall × UpstreamCallLimitError)) : ActorPart :=
  { part.put index { part.object index with
      charges := prune limits clock (part.object index).charges } with
    refused := refused }

theorem enter_charged {clock : ℚ} {call : LimitedCall} {part : ActorPart}
    (charged : (charge limits clock call.cost (part.object call.object)).2 = none) :
    part.enter limits clock call =
      { part.put call.object { part.object call.object with
          charges := prune limits clock (part.object call.object).charges ++
            [⟨clock, call.cost⟩] } with
        active := part.active ++ [call]
        started := part.started ++ [⟨clock, call.cost⟩] } := by
  have fits := charge_isNone_iff.mp charged
  unfold enter charge
  rw [if_neg (by omega)]

theorem enter_refused {clock : ℚ} {call : LimitedCall} {part : ActorPart} {seconds : Nat}
    (charged : (charge limits clock call.cost (part.object call.object)).2 = some seconds) :
    part.enter limits clock call =
      (part.refuse limits clock call.object
        (part.refused ++ [(call, .budget seconds)])).release call.object := by
  have isOver : ¬spentOf (prune limits clock (part.object call.object).charges) + call.cost ≤
      limits.budget := by
    intro fits
    rw [charge_isNone_iff.mpr fits] at charged
    cases charged
  unfold enter
  unfold charge at charged ⊢
  simp only at charged ⊢
  rw [if_pos (by omega)] at charged ⊢
  simp only at charged ⊢
  rw [Option.some.inj charged]
  rfl

end ActorPart

/-! ### What holds of an actor -/

/-- The numbers of an actor. `held` slots are with a call that is neither handed over nor
running: inside a step. -/
structure ActorPart.Counts (limits : UpstreamCallLimits) (clock : ℚ) (held : Nat)
    (part : ActorPart) (state : ActorState) : Prop where
  running : state.running = part.turned.length + part.active.length + held
  bounded : state.running ≤ limits.maxConcurrent
  full : state.waiting ≠ [] → state.running = limits.maxConcurrent
  queue : state.waiting.length ≤ limits.maxQueued
  order : part.queued = part.turns ++ state.waiting
  inOrder : InOrder state.charges
  past : ∀ charge ∈ part.started ++ state.charges, charge.at' ≤ clock
  recent : inWindow limits clock state.charges = inWindow limits clock part.started
  window : ∀ time, startedIn limits time part.started ≤ limits.budget

/-- Every call that waits or holds a slot holds the object in the map. -/
structure ActorPart.Sound (limits : UpstreamCallLimits) (clock : ℚ) (held : Nat)
    (part : ActorPart) : Prop where
  live : ∀ call ∈ part.turned ++ part.active, part.current = some call.object
  inside : held ≠ 0 → part.current ≠ none
  exists' : ∀ index, part.current = some index → index < part.objects.length
  idle : ∀ index, part.current ≠ some index → (part.object index).waiting = []
  waiters : ∀ index, part.current = some index →
    ∀ call ∈ (part.object index).waiting, call.object = index
  counts : part.Counts limits clock held part.state

namespace ActorPart.Sound

variable {clock : ℚ} {held : Nat} {part : ActorPart}

theorem new (clock : ℚ) : ActorPart.new.Sound limits clock 0 where
  live _ isIn := nomatch isIn
  inside never := absurd rfl never
  exists' _ none := nomatch none
  idle _ _ := rfl
  waiters _ none := nomatch none
  counts :=
    { running := rfl
      bounded := Nat.zero_le _
      full := fun never => absurd rfl never
      queue := Nat.zero_le _
      order := rfl
      inOrder := List.Pairwise.nil
      past := fun _ isIn => nomatch isIn
      recent := rfl
      window := fun _ => Nat.zero_le _ }

/-- Time that passes leaves less in the window, and charges nothing. -/
theorem tick {later : ℚ} (sound : part.Sound limits clock held) (after : clock ≤ later) :
    part.Sound limits later held :=
  { sound with
    counts :=
      { sound.counts with
        past := fun charge isIn => le_trans (sound.counts.past charge isIn) after
        recent := by
          rw [← inWindow_inWindow after, sound.counts.recent, inWindow_inWindow after] } }

/-- An object of the actor replaced, and what is recorded of its calls with it. -/
theorem put (sound : part.Sound limits clock held) {index : Nat}
    (current : part.current = some index) {next : ActorPart} {state : ActorState} {more : Nat}
    (sameCurrent : next.current = part.current)
    (objects : next.objects = part.objects.set index state)
    (live : ∀ call ∈ next.turned ++ next.active, call.object = index)
    (waiters : ∀ call ∈ state.waiting, call.object = index)
    (counts : next.Counts limits clock more state) :
    next.Sound limits clock more := by
  have exists' := sound.exists' index current
  have here : next.current = some index := sameCurrent.trans current
  have itself : next.object index = state := by
    rw [ActorPart.object, objects, List.getD_eq_getElem?_getD, List.getElem?_set_self exists']
    rfl
  have others {other : Nat} (different : index ≠ other) :
      next.object other = part.object other := by
    rw [ActorPart.object, objects, List.getD_eq_getElem?_getD, List.getElem?_set_ne different,
      ← List.getD_eq_getElem?_getD]
    rfl
  constructor
  · intro call isIn
    rw [live call isIn]
    exact here
  · intro _ none
    rw [here] at none
    cases none
  · intro other isCurrent
    rw [objects, List.length_set]
    exact sound.exists' other (sameCurrent ▸ isCurrent)
  · intro other notCurrent
    have different : index ≠ other := fun same => notCurrent (same ▸ here)
    rw [others different]
    exact sound.idle other (sameCurrent ▸ notCurrent)
  · intro other isCurrent
    rw [here, Option.some.injEq] at isCurrent
    rw [← isCurrent, itself]
    exact waiters
  · rw [ActorPart.state_of_current here, itself]
    exact counts

/-- An object that holds nothing leaves the map. -/
theorem forgetIfIdle (sound : part.Sound limits clock 0) {index : Nat}
    (current : part.current = some index) :
    (part.forgetIfIdle index).Sound limits clock 0 := by
  unfold ActorPart.forgetIfIdle
  have isState := ActorPart.state_of_current current
  simp only
  split
  next holdsNothing =>
    obtain ⟨running, waiting, charges⟩ := holdsNothing
    have counts := sound.counts
    rw [isState] at counts
    have noCall : part.turned = [] ∧ part.active = [] := by
      have total := counts.running
      rw [running] at total
      constructor
      · exact List.eq_nil_of_length_eq_zero (by omega)
      · exact List.eq_nil_of_length_eq_zero (by omega)
    constructor
    · intro call isIn
      simp only [noCall.1, noCall.2] at isIn
      cases isIn
    · exact fun never => absurd rfl never
    · exact fun _ none => nomatch none
    · intro other _
      by_cases isCurrent : part.current = some other
      · rw [current, Option.some.injEq] at isCurrent
        rw [← isCurrent]
        exact waiting
      · exact sound.idle other isCurrent
    · exact fun _ none => nomatch none
    · constructor
      · simp only [noCall.1, noCall.2]
        rfl
      · exact Nat.zero_le _
      · exact fun never => absurd rfl never
      · exact Nat.zero_le _
      · have order := counts.order
        rw [waiting] at order
        exact order
      · exact List.Pairwise.nil
      · intro charge isIn
        apply counts.past charge
        rw [charges]
        exact isIn
      · have recent := counts.recent
        rw [charges] at recent
        exact recent
      · exact counts.window
  next => exact sound

/-- The slot of a call that is done goes to the first that waits, or is free. -/
theorem release (sound : part.Sound limits clock 1) {index : Nat}
    (current : part.current = some index) :
    (part.release index).Sound limits clock 0 := by
  have counts := sound.counts
  rw [ActorPart.state_of_current current] at counts
  have running := counts.running
  have isLive (call : LimitedCall) (isIn : call ∈ part.turned ++ part.active) :
      call.object = index :=
    Option.some.inj ((sound.live call isIn).symm.trans current)
  have isWaiter := sound.waiters index current
  cases waits : (part.object index).waiting with
  | nil =>
      rw [ActorPart.release_nil waits]
      refine forgetIfIdle ?_ current
      refine sound.put current rfl rfl isLive isWaiter ?_
      exact
        { counts with
          running := by
            simp only [ActorPart.put]
            omega
          bounded := by
            have bounded := counts.bounded
            simp only
            omega
          full := fun waiting => absurd waits waiting }
  | cons next waiting =>
      rw [ActorPart.release_cons waits]
      rw [waits] at isWaiter
      refine forgetIfIdle ?_ current
      refine sound.put current rfl rfl ?_ ?_ ?_
      · intro call isIn
        simp only [List.mem_append, List.mem_singleton] at isIn
        rcases isIn with (turned | isNext) | active
        · exact isLive call (List.mem_append_left _ turned)
        · exact isNext ▸ isWaiter next List.mem_cons_self
        · exact isLive call (List.mem_append_right _ active)
      · exact fun call isIn => isWaiter call (List.mem_cons_of_mem _ isIn)
      · have full := counts.full
        have queue := counts.queue
        have order := counts.order
        rw [waits] at full queue order
        exact
          { counts with
            running := by
              simp only [ActorPart.put, List.length_append, List.length_singleton]
              omega
            full := fun _ => full (List.cons_ne_nil next waiting)
            queue := by
              rw [List.length_cons] at queue
              simp only
              omega
            order := by
              simp only [ActorPart.put]
              rw [order, List.append_assoc, List.singleton_append] }

/-- The charges of the object, once it is charged. -/
theorem prune_state (sound : part.Sound limits clock held) {index : Nat}
    (current : part.current = some index) :
    prune limits clock (part.object index).charges = inWindow limits clock part.started := by
  have counts := sound.counts
  rw [ActorPart.state_of_current current] at counts
  rw [prune_eq_inWindow counts.inOrder, counts.recent]

/-- What is charged is in order, and inside the window. -/
theorem pruned (sound : part.Sound limits clock held) :
    InOrder (inWindow limits clock part.started) ∧
      (∀ charge ∈ inWindow limits clock part.started, charge.at' ≤ clock) ∧
      inWindow limits clock (inWindow limits clock part.started) =
        inWindow limits clock part.started := by
  constructor
  · rw [← sound.counts.recent]
    exact List.Pairwise.filter _ sound.counts.inOrder
  constructor
  · intro charge isIn
    exact sound.counts.past charge (List.mem_append_left _ (List.mem_of_mem_filter isIn))
  · exact inWindow_inWindow (le_refl clock) _

/-- A call that is refused for the budget still holds its slot. -/
theorem refuse (sound : part.Sound limits clock held) {index : Nat}
    (current : part.current = some index)
    (refused : List (LimitedCall × UpstreamCallLimitError)) :
    (part.refuse limits clock index refused).Sound limits clock held := by
  have counts := sound.counts
  rw [ActorPart.state_of_current current] at counts
  have prunedState := sound.prune_state current
  obtain ⟨inOrder, past, recent⟩ := sound.pruned
  refine sound.put current rfl rfl ?_ (sound.waiters index current) ?_
  · intro other isIn
    exact Option.some.inj ((sound.live other isIn).symm.trans current)
  · exact
      { counts with
        inOrder := by
          simp only
          rw [prunedState]
          exact inOrder
        past := by
          intro charge isIn
          simp only at isIn
          rw [prunedState] at isIn
          rcases List.mem_append.mp isIn with started | held
          · exact counts.past charge (List.mem_append_left _ started)
          · exact past charge held
        recent := by
          simp only
          rw [prunedState]
          exact recent }

/-- A call that holds a slot starts its function, or gives the slot up. -/
theorem enter (sound : part.Sound limits clock 1) {call : LimitedCall}
    (current : part.current = some call.object) :
    (part.enter limits clock call).Sound limits clock 0 := by
  cases charged : (charge limits clock call.cost (part.object call.object)).2 with
  | some seconds =>
      rw [ActorPart.enter_refused charged]
      exact (sound.refuse current _).release current
  | none =>
      have counts := sound.counts
      rw [ActorPart.state_of_current current] at counts
      have running := counts.running
      have prunedState := sound.prune_state current
      have fits := charge_isNone_iff.mp charged
      obtain ⟨inOrder, past, recent⟩ := sound.pruned
      rw [prunedState] at fits
      rw [ActorPart.enter_charged charged]
      refine sound.put current rfl rfl ?_ (sound.waiters call.object current) ?_
      · intro other isIn
        rw [← List.append_assoc, List.mem_append, List.mem_singleton] at isIn
        rcases isIn with before | isCall
        · exact Option.some.inj ((sound.live other before).symm.trans current)
        · rw [isCall]
      · rw [prunedState]
        exact
          { counts with
            running := by
              simp only [ActorPart.put, List.length_append, List.length_singleton]
              omega
            inOrder := by
              apply List.pairwise_append.mpr
              refine ⟨inOrder, List.pairwise_singleton _ _, ?_⟩
              intro one isIn other isNew
              rw [List.mem_singleton.mp isNew]
              exact past one isIn
            past := by
              intro charge isIn
              simp only [List.mem_append, List.mem_singleton] at isIn
              rcases isIn with (started | isNew) | (held | isNew)
              · exact counts.past charge (List.mem_append_left _ started)
              · rw [isNew]
              · exact past charge held
              · rw [isNew]
            recent := by
              simp only [inWindow, List.filter_append] at recent ⊢
              rw [recent]
            window := startedIn_concat counts.window fits }

/-- A call that leaves the slots handed over holds one inside the step. -/
theorem turn (sound : part.Sound limits clock 0) {call : LimitedCall}
    (isTurned : call ∈ part.turned) :
    { part with turned := part.turned.erase call }.Sound limits clock 1 :=
  { sound with
    live := by
      intro other isIn
      apply sound.live other
      rcases List.mem_append.mp isIn with turned | active
      · exact List.mem_append_left _ (List.mem_of_mem_erase turned)
      · exact List.mem_append_right _ active
    inside := fun _ none => by
      rw [sound.live call (List.mem_append_left _ isTurned)] at none
      cases none
    counts :=
      { sound.counts with
        running := by
          have running := sound.counts.running
          have shorter := List.length_erase_of_mem isTurned
          have some := List.length_pos_of_mem isTurned
          simp only [shorter]
          change part.state.running = _
          omega } }

/-- A call whose function ended holds its slot inside the step. -/
theorem ended (sound : part.Sound limits clock 0) {call : LimitedCall}
    (isActive : call ∈ part.active) :
    { part with active := part.active.erase call }.Sound limits clock 1 :=
  { sound with
    live := by
      intro other isIn
      apply sound.live other
      rcases List.mem_append.mp isIn with turned | active
      · exact List.mem_append_left _ turned
      · exact List.mem_append_right _ (List.mem_of_mem_erase active)
    inside := fun _ none => by
      rw [sound.live call (List.mem_append_right _ isActive)] at none
      cases none
    counts :=
      { sound.counts with
        running := by
          have running := sound.counts.running
          have shorter := List.length_erase_of_mem isActive
          have some := List.length_pos_of_mem isActive
          simp only [shorter]
          change part.state.running = _
          omega } }

/-- A call that was handed a slot goes on. -/
theorem resume (sound : part.Sound limits clock 0) {call : LimitedCall} {next : ActorPart}
    (moved : part.resume limits clock call = some next) : next.Sound limits clock 0 := by
  unfold ActorPart.resume at moved
  split at moved
  next isTurned =>
    rw [← Option.some.inj moved]
    exact (sound.turn isTurned).enter (sound.live call (List.mem_append_left _ isTurned))
  next => cases moved

/-- A function ends. -/
theorem finish (sound : part.Sound limits clock 0) {call : LimitedCall} {next : ActorPart}
    (moved : part.finish call = some next) : next.Sound limits clock 0 := by
  unfold ActorPart.finish at moved
  split at moved
  next isActive =>
    rw [← Option.some.inj moved]
    exact (sound.ended isActive).release (sound.live call (List.mem_append_right _ isActive))
  next => cases moved

/-- The object a call finds, or makes. -/
theorem stateOf (sound : part.Sound limits clock 0) :
    part.stateOf.1.Sound limits clock 0 ∧ part.stateOf.1.current = some part.stateOf.2 := by
  unfold ActorPart.stateOf
  cases current : part.current with
  | some index => exact ⟨sound, current⟩
  | none =>
      have isEmpty : part.state = .empty := by
        rw [ActorPart.state, current]
        rfl
      have counts := sound.counts
      rw [isEmpty] at counts
      have noCall : part.turned ++ part.active = [] := by
        have running := counts.running
        apply List.eq_nil_of_length_eq_zero
        rw [List.length_append]
        exact running.symm
      -- A new object is empty, and is the last one.
      have objects (index : Nat) :
          (part.objects ++ [ActorState.empty]).getD index .empty = part.object index := by
        rw [ActorPart.object, List.getD_eq_getElem?_getD, List.getD_eq_getElem?_getD]
        by_cases before : index < part.objects.length
        · rw [List.getElem?_append_left before]
        · have behind := not_lt.mp before
          rw [List.getElem?_append_right behind, List.getElem?_eq_none behind]
          cases index - part.objects.length with
          | zero => rfl
          | succ => rfl
      have isNew : part.object part.objects.length = .empty := by
        rw [ActorPart.object, List.getD_eq_getElem?_getD, List.getElem?_eq_none (le_refl _)]
        rfl
      have idle (index : Nat) : (part.object index).waiting = [] :=
        sound.idle index (current ▸ fun none => nomatch none)
      refine ⟨?_, rfl⟩
      constructor
      · intro call isIn
        simp only [noCall] at isIn
        cases isIn
      · exact fun never => absurd rfl never
      · intro index isCurrent
        rw [← Option.some.inj isCurrent, List.length_append]
        exact Nat.lt_succ_self _
      · intro index _
        rw [ActorPart.object, objects]
        exact idle index
      · intro index _
        rw [ActorPart.object, objects, idle index]
        exact fun _ isIn => nomatch isIn
      · have isState : ActorPart.state { part with
            current := some part.objects.length
            objects := part.objects ++ [.empty] } = .empty := by
          rw [ActorPart.state, Option.map_some, Option.getD_some, ActorPart.object, objects, isNew]
        rw [isState]
        exact { counts with }

/-- A call that found a free slot holds it inside the step. -/
theorem takes (sound : part.Sound limits clock 0) {index : Nat}
    (current : part.current = some index)
    (free : ¬limits.maxConcurrent ≤ (part.object index).running) (calls : Nat) :
    ({ part with calls := calls }.put index
      { part.object index with running := (part.object index).running + 1 }).Sound
        limits clock 1 := by
  have counts := sound.counts
  rw [ActorPart.state_of_current current] at counts
  have running := counts.running
  refine sound.put current rfl rfl ?_ (sound.waiters index current) ?_
  · intro call isIn
    exact Option.some.inj ((sound.live call isIn).symm.trans current)
  · exact
      { counts with
        running := by
          simp only [ActorPart.put]
          omega
        bounded := by
          simp only
          omega
        full := fun waits => by
          have full := counts.full waits
          omega }

/-- A call waits behind the others. -/
theorem queues (sound : part.Sound limits clock 0) (call : LimitedCall)
    (current : part.current = some call.object)
    (busy : limits.maxConcurrent ≤ (part.object call.object).running)
    (room : ¬limits.maxQueued ≤ (part.object call.object).waiting.length) (calls : Nat) :
    { { part with calls := calls }.put call.object
        { part.object call.object with waiting := (part.object call.object).waiting ++ [call] } with
      queued := part.queued ++ [call] }.Sound limits clock 0 := by
  have counts := sound.counts
  rw [ActorPart.state_of_current current] at counts
  refine sound.put current rfl rfl ?_ ?_ ?_
  · intro other isIn
    exact Option.some.inj ((sound.live other isIn).symm.trans current)
  · intro other isIn
    rcases List.mem_append.mp isIn with before | isCall
    · exact sound.waiters call.object current other before
    · rw [List.mem_singleton.mp isCall]
  · exact
      { counts with
        full := fun _ => le_antisymm counts.bounded busy
        queue := by
          rw [List.length_append, List.length_singleton]
          omega
        order := by
          simp only [ActorPart.put]
          rw [counts.order, List.append_assoc] }

/-- A call runs, waits or is refused. -/
theorem run (sound : part.Sound limits clock 0) (cost : Nat) :
    (part.run limits clock cost).Sound limits clock 0 := by
  obtain ⟨found, current⟩ := sound.stateOf
  unfold ActorPart.run
  simp only
  split
  next busy =>
    split
    next => exact { found with counts := { found.counts with } }
    next room =>
      exact found.queues ⟨part.stateOf.1.calls, part.stateOf.2, cost⟩ current busy room _
  next free => exact (found.takes current free _).enter current

end ActorPart.Sound

/-! ### Every actor, over any run -/

section
variable {Actor : Type} [DecidableEq Actor]

def Limiter.Sound (limits : UpstreamCallLimits) (limiter : Limiter Actor) : Prop :=
  ∀ actor, (limiter.parts actor).Sound limits limiter.clock 0

theorem Limiter.Sound.set {limiter : Limiter Actor} (sound : limiter.Sound limits) (actor : Actor)
    {part : ActorPart} (next : part.Sound limits limiter.clock 0) :
    (limiter.set actor part).Sound limits := by
  intro other
  simp only [Limiter.set]
  split
  next => exact next
  next => exact sound other

/-- A step moves the part of one actor, or the clock. -/
theorem step_cases {limiter next : Limiter Actor} {label : LimiterLabel Actor}
    (moved : Limiter.step limits limiter label = some next) :
    (∃ actor cost, next =
      limiter.set actor ((limiter.parts actor).run limits limiter.clock cost)) ∨
    (∃ actor call part, (limiter.parts actor).resume limits limiter.clock call = some part ∧
      next = limiter.set actor part) ∨
    (∃ actor call part, (limiter.parts actor).finish call = some part ∧
      next = limiter.set actor part) ∨
    (next.parts = limiter.parts ∧ limiter.clock ≤ next.clock) := by
  cases label with
  | run actor cost => exact .inl ⟨actor, cost, (Option.some.inj moved).symm⟩
  | resume actor call =>
      obtain ⟨part, resumed, isNext⟩ := Option.map_eq_some_iff.mp moved
      exact .inr (.inl ⟨actor, call, part, resumed, isNext.symm⟩)
  | finish actor call =>
      obtain ⟨part, finished, isNext⟩ := Option.map_eq_some_iff.mp moved
      exact .inr (.inr (.inl ⟨actor, call, part, finished, isNext.symm⟩))
  | tick clock =>
      simp only [Limiter.step] at moved
      split at moved
      next after =>
        rw [← Option.some.inj moved]
        exact .inr (.inr (.inr ⟨rfl, after⟩))
      next => cases moved

theorem sound_preserved :
    (upstreamCallLimiter limits).Preserved (Limiter.Sound limits : Limiter Actor → Prop) := by
  intro limiter label next sound moved
  rcases step_cases moved with ⟨actor, cost, isNext⟩ | ⟨actor, call, part, resumed, isNext⟩ |
    ⟨actor, call, part, finished, isNext⟩ | ⟨same, after⟩
  · rw [isNext]
    exact sound.set actor ((sound actor).run cost)
  · rw [isNext]
    exact sound.set actor ((sound actor).resume resumed)
  · rw [isNext]
    exact sound.set actor ((sound actor).finish finished)
  · intro actor
    rw [same]
    exact (sound actor).tick after

/-! ### What the limiter keeps -/

/-- The calls that wait, whatever object they wait on. -/
def ActorPart.waitingCalls (part : ActorPart) : List LimitedCall :=
  part.objects.flatMap ActorState.waiting

theorem flatMap_eq_of_only {Item Value : Type} {values : Item → List Value} {items : List Item}
    {empty : Item} {index : Nat} (held : index < items.length)
    (others : ∀ other, index ≠ other → values (items.getD other empty) = []) :
    items.flatMap values = values (items.getD index empty) := by
  induction items generalizing index with
  | nil => exact absurd held (Nat.not_lt_zero index)
  | cons item items ih =>
      rw [List.flatMap_cons]
      cases index with
      | zero =>
          have rest : items.flatMap values = [] := by
            rw [List.flatMap_eq_nil_iff]
            intro other isIn
            obtain ⟨place, before, isOther⟩ := List.getElem_of_mem isIn
            have atPlace := others (place + 1) (Nat.succ_ne_zero place).symm
            rw [List.getD_cons_succ, List.getD_eq_getElem?_getD, List.getElem?_eq_getElem before,
              isOther] at atPlace
            exact atPlace
          rw [rest, List.append_nil, List.getD_cons_zero]
      | succ index =>
          have first := others 0 (Nat.succ_ne_zero index)
          rw [List.getD_cons_zero] at first
          rw [first, List.nil_append, List.getD_cons_succ]
          apply ih (Nat.lt_of_succ_lt_succ held)
          intro other different
          have atOther := others (other + 1) fun same => different (Nat.succ.inj same)
          rwa [List.getD_cons_succ] at atOther

namespace ActorPart.Sound

variable {clock : ℚ} {held : Nat} {part : ActorPart}

theorem waitingCalls_eq (sound : part.Sound limits clock held) :
    part.waitingCalls = part.state.waiting := by
  unfold ActorPart.waitingCalls
  cases current : part.current with
  | some index =>
      rw [ActorPart.state_of_current current, ActorPart.object]
      apply flatMap_eq_of_only (sound.exists' index current)
      intro other different
      apply sound.idle other
      rw [current]
      exact fun same => different (Option.some.inj same)
  | none =>
      have isEmpty : part.state = .empty := by
        rw [ActorPart.state, current]
        rfl
      rw [isEmpty, List.flatMap_eq_nil_iff.mpr]
      · rfl
      · intro object isIn
        obtain ⟨place, before, isObject⟩ := List.getElem_of_mem isIn
        have idle := sound.idle place (current ▸ fun none => nomatch none)
        rw [ActorPart.object, List.getD_eq_getElem?_getD, List.getElem?_eq_getElem before,
          isObject] at idle
        exact idle

end ActorPart.Sound

/-- The bounds of an actor, the order of its turns and what stays in memory for it. -/
structure ActorPart.Keeps (limits : UpstreamCallLimits) (clock : ℚ) (part : ActorPart) :
    Prop where
  concurrent : part.active.length ≤ limits.maxConcurrent
  queue : part.waitingCalls.length ≤ limits.maxQueued
  turns : part.queued = part.turns ++ part.waitingCalls
  busy : part.waitingCalls ≠ [] → part.turned.length + part.active.length = limits.maxConcurrent
  window : ∀ time, startedIn limits time part.started ≤ limits.budget
  kept : ∀ call ∈ part.turned ++ part.active ++ part.waitingCalls, part.current = some call.object
  charged : ∀ charge ∈ part.started, clock - limits.windowMs < charge.at' →
    ∃ index, part.current = some index ∧ charge ∈ (part.object index).charges

theorem ActorPart.Sound.keeps {clock : ℚ} {part : ActorPart}
    (sound : part.Sound limits clock 0) : part.Keeps limits clock := by
  have waiting := sound.waitingCalls_eq
  have running := sound.counts.running
  have bounded := sound.counts.bounded
  constructor
  · omega
  · rw [waiting]
    exact sound.counts.queue
  · rw [waiting]
    exact sound.counts.order
  · intro waits
    rw [waiting] at waits
    have full := sound.counts.full waits
    omega
  · exact sound.counts.window
  · intro call isIn
    rcases List.mem_append.mp isIn with slot | waits
    · exact sound.live call slot
    · rw [waiting] at waits
      cases current : part.current with
      | some index =>
          rw [ActorPart.state_of_current current] at waits
          rw [sound.waiters index current call waits]
      | none =>
          rw [ActorPart.state, current] at waits
          cases waits
  · intro charge started recent
    have isIn : charge ∈ inWindow limits clock part.started :=
      List.mem_filter.mpr ⟨started, decide_eq_true recent⟩
    rw [← sound.counts.recent] at isIn
    have held := List.mem_of_mem_filter isIn
    cases current : part.current with
    | some index =>
        rw [ActorPart.state_of_current current] at held
        exact ⟨index, rfl, held⟩
    | none =>
        rw [ActorPart.state, current] at held
        cases held

end

end NextTime.LlmProxy
