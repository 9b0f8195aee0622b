import NextTime.LlmProxy.LimiterKeeps

/-
The calls the limiter refuses: they never run, they leave the slots as they were, and one
that was refused for the budget is admitted after the seconds it was told.
-/

namespace NextTime.LlmProxy

variable {limits : UpstreamCallLimits}

/-! ### A slot that is given up -/

namespace ActorPart

/-- What a slot that is given up changes of the calls. -/
structure PassesOn (before after : ActorPart) (waiting : List LimitedCall) : Prop where
  active : after.active = before.active
  started : after.started = before.started
  refused : after.refused = before.refused
  queued : after.queued = before.queued
  calls : after.calls = before.calls
  turned : after.turned = before.turned ++ waiting.take 1
  turns : after.turns = before.turns ++ waiting.take 1

theorem forgetIfIdle_passesOn (part : ActorPart) (index : Nat) :
    PassesOn part (part.forgetIfIdle index) [] := by
  have same : part.turned = part.turned ++ [] ∧ part.turns = part.turns ++ [] :=
    ⟨(List.append_nil _).symm, (List.append_nil _).symm⟩
  unfold forgetIfIdle
  simp only
  split
  next => exact ⟨rfl, rfl, rfl, rfl, rfl, same.1, same.2⟩
  next => exact ⟨rfl, rfl, rfl, rfl, rfl, same.1, same.2⟩

theorem release_passesOn (part : ActorPart) (index : Nat) :
    PassesOn part (part.release index) (part.object index).waiting := by
  cases waits : (part.object index).waiting with
  | nil =>
      rw [release_nil waits]
      have forgot := forgetIfIdle_passesOn
        (part.put index { part.object index with running := (part.object index).running - 1 }) index
      exact { forgot with }
  | cons next waiting =>
      rw [release_cons waits]
      have forgot := forgetIfIdle_passesOn
        { part.put index { part.object index with waiting := waiting } with
          turned := part.turned ++ [next]
          turns := part.turns ++ [next] } index
      exact
        { forgot with
          turned := by rw [forgot.turned, List.take_nil, List.append_nil]; rfl
          turns := by rw [forgot.turns, List.take_nil, List.append_nil]; rfl }

namespace Sound

variable {clock : ℚ} {held : Nat} {part : ActorPart} {index : Nat}

theorem waitingCalls_of_current (sound : part.Sound limits clock held)
    (current : part.current = some index) :
    part.waitingCalls = (part.object index).waiting := by
  rw [sound.waitingCalls_eq, ActorPart.state_of_current current]

/-- The calls that wait are what the turns leave of the queue. -/
theorem waitingCalls_eq_of_same {later : ℚ} {more : Nat} {after : ActorPart}
    (sound : part.Sound limits clock held) (next : after.Sound limits later more)
    (queued : after.queued = part.queued) (turns : after.turns = part.turns) :
    after.waitingCalls = part.waitingCalls := by
  have before := sound.counts.order
  have order := next.counts.order
  rw [← sound.waitingCalls_eq] at before
  rw [← next.waitingCalls_eq, queued, turns, before] at order
  exact (List.append_cancel_left order).symm

/-- The first that waits gets the slot, and the others still wait. -/
theorem release_waits (sound : part.Sound limits clock 1) (current : part.current = some index) :
    PassesOn part (part.release index) part.waitingCalls ∧
      (part.release index).waitingCalls = part.waitingCalls.drop 1 := by
  have passes := release_passesOn part index
  rw [← sound.waitingCalls_of_current current] at passes
  have after := (sound.release current).keeps.turns
  have before := sound.counts.order
  rw [← sound.waitingCalls_eq] at before
  rw [passes.queued, passes.turns, before, List.append_assoc] at after
  have rest := List.append_cancel_left after
  constructor
  · exact passes
  · have whole := List.take_append_drop 1 part.waitingCalls
    exact (List.append_cancel_left (whole.trans rest)).symm

end Sound

end ActorPart

/-! ### What becomes of a call -/

/-- A call that holds a slot runs, or gives the slot up. -/
inductive Enters (limits : UpstreamCallLimits) (clock : ℚ) (before after : ActorPart)
    (call : LimitedCall) : Prop
  | starts
      (turned : after.turned = before.turned)
      (active : after.active = before.active ++ [call])
      (started : after.started = before.started ++ [⟨clock, call.cost⟩])
      (refused : after.refused = before.refused)
      (waiting : after.waitingCalls = before.waitingCalls)
  | givesUp (seconds : Nat)
      (isOver : limits.budget < spentOf (inWindow limits clock before.started) + call.cost)
      (turned : after.turned = before.turned ++ before.waitingCalls.take 1)
      (active : after.active = before.active)
      (started : after.started = before.started)
      (refused : after.refused = before.refused ++ [(call, .budget seconds)])
      (waiting : after.waitingCalls = before.waitingCalls.drop 1)
      (fits : ∀ later, call.cost ≤ limits.budget → clock + seconds * 1000 ≤ later →
        spentOf (inWindow limits later before.started) + call.cost ≤ limits.budget)

theorem Enters.of_same {clock : ℚ} {before same after : ActorPart} {call : LimitedCall}
    (enters : Enters limits clock same after call) (turned : same.turned = before.turned)
    (active : same.active = before.active) (started : same.started = before.started)
    (refused : same.refused = before.refused) (waiting : same.waitingCalls = before.waitingCalls) :
    Enters limits clock before after call := by
  cases enters with
  | starts turned' active' started' refused' waiting' =>
      rw [turned] at turned'
      rw [active] at active'
      rw [started] at started'
      rw [refused] at refused'
      rw [waiting] at waiting'
      exact .starts turned' active' started' refused' waiting'
  | givesUp seconds isOver turned' active' started' refused' waiting' fits =>
      rw [turned, waiting] at turned'
      rw [active] at active'
      rw [started] at started' isOver fits
      rw [refused] at refused'
      rw [waiting] at waiting'
      exact .givesUp seconds isOver turned' active' started' refused' waiting' fits

/-- A new call is refused at once, waits, or takes a free slot. -/
inductive Runs (limits : UpstreamCallLimits) (clock : ℚ) (before after : ActorPart)
    (call : LimitedCall) : Prop
  | refused (busy : limits.maxConcurrent ≤ before.state.running)
      (turned : after.turned = before.turned)
      (active : after.active = before.active)
      (started : after.started = before.started)
      (refused : after.refused = before.refused ++ [(call, .busy 5)])
      (waiting : after.waitingCalls = before.waitingCalls)
  | waits (busy : limits.maxConcurrent ≤ before.state.running)
      (turned : after.turned = before.turned)
      (active : after.active = before.active)
      (started : after.started = before.started)
      (refused : after.refused = before.refused)
      (waiting : after.waitingCalls = before.waitingCalls ++ [call])
  | enters (noneWaits : before.waitingCalls = []) (enters : Enters limits clock before after call)

namespace ActorPart.Sound

variable {clock : ℚ} {held : Nat} {part : ActorPart} {index : Nat}

/-- What the window cannot take now, it can after the seconds the call is told. -/
theorem fits_later (sound : part.Sound limits clock held) {cost seconds : Nat} {later : ℚ}
    (current : part.current = some index)
    (charged : (charge limits clock cost (part.object index)).2 = some seconds)
    (small : cost ≤ limits.budget) (after : clock + seconds * 1000 ≤ later) :
    spentOf (inWindow limits later part.started) + cost ≤ limits.budget := by
  have counts := sound.counts
  rw [ActorPart.state_of_current current] at counts
  have fits := fits_after counts.inOrder small charged after
  have forward : clock ≤ later := by
    have positive : (0 : ℚ) ≤ seconds * 1000 := by positivity
    linarith
  rwa [← inWindow_inWindow forward, counts.recent, inWindow_inWindow forward] at fits

theorem enters (sound : part.Sound limits clock 1) {call : LimitedCall}
    (current : part.current = some call.object) :
    Enters limits clock part (part.enter limits clock call) call := by
  cases charged : (charge limits clock call.cost (part.object call.object)).2 with
  | none =>
      have next := sound.enter current
      rw [ActorPart.enter_charged charged] at next ⊢
      exact .starts rfl rfl rfl rfl (sound.waitingCalls_eq_of_same next rfl rfl)
  | some seconds =>
      have refuses := sound.refuse current (part.refused ++ [(call, .budget seconds)])
      have same := sound.waitingCalls_eq_of_same refuses rfl rfl
      obtain ⟨passes, waits⟩ := refuses.release_waits current
      rw [same] at passes waits
      rw [ActorPart.enter_refused charged]
      apply Enters.givesUp seconds
      · rw [← sound.prune_state current]
        by_contra fits
        rw [charge_isNone_iff.mpr (not_lt.mp fits)] at charged
        cases charged
      · exact passes.turned
      · exact passes.active
      · exact passes.started
      · exact passes.refused
      · exact waits
      · intro later small after
        exact sound.fits_later current charged small after

/-- What `stateOf` finds or makes holds the calls the actor had. -/
theorem stateOf_same (sound : part.Sound limits clock 0) :
    (∃ current objects, part.stateOf.1 = { part with current := current, objects := objects }) ∧
      part.stateOf.1.waitingCalls = part.waitingCalls := by
  have found := sound.stateOf.1
  cases current : part.current with
  | none =>
      simp only [ActorPart.stateOf, current] at found ⊢
      exact ⟨⟨_, _, rfl⟩, sound.waitingCalls_eq_of_same found rfl rfl⟩
  | some index =>
      simp only [ActorPart.stateOf, current]
      exact ⟨⟨part.current, part.objects, rfl⟩, trivial⟩

/-- The state of a call that comes. -/
theorem stateOf_state (part : ActorPart) :
    part.stateOf.1.object part.stateOf.2 = part.state := by
  unfold ActorPart.stateOf ActorPart.state
  cases part.current with
  | none =>
      rw [Option.map_none, Option.getD_none, ActorPart.object, List.getD_eq_getElem?_getD,
        List.getElem?_append_right (le_refl _), Nat.sub_self]
      rfl
  | some index => rfl

theorem runs (sound : part.Sound limits clock 0) (cost : Nat) :
    Runs limits clock part (part.run limits clock cost) ⟨part.calls, part.stateOf.2, cost⟩ := by
  obtain ⟨found, current⟩ := sound.stateOf
  obtain ⟨⟨_, _, same⟩, waiting⟩ := sound.stateOf_same
  have calls : part.stateOf.1.calls = part.calls := by rw [same]
  have turned : part.stateOf.1.turned = part.turned := by rw [same]
  have active : part.stateOf.1.active = part.active := by rw [same]
  have started : part.stateOf.1.started = part.started := by rw [same]
  have refused : part.stateOf.1.refused = part.refused := by rw [same]
  have queued : part.stateOf.1.queued = part.queued := by rw [same]
  have turns : part.stateOf.1.turns = part.turns := by rw [same]
  have isState := stateOf_state part
  unfold ActorPart.run
  simp only [calls]
  split
  next busy =>
    rw [isState] at busy
    split
    next => exact .refused busy turned active started (by simp only [refused]) waiting
    next room =>
      have next := found.queues ⟨part.calls, part.stateOf.2, cost⟩ current
        (isState ▸ busy) room (part.calls + 1)
      apply Runs.waits busy
      · exact turned
      · exact active
      · exact started
      · exact refused
      · have order := next.keeps.turns
        have before := sound.keeps.turns
        simp only [ActorPart.put, queued, turns, before, List.append_assoc] at order
        exact (List.append_cancel_left order).symm
  next free =>
    have takes := found.takes current free (part.calls + 1)
    have enters := @enters _ _ _ takes ⟨part.calls, part.stateOf.2, cost⟩ current
    have noneWaits : part.waitingCalls = [] := by
      have full := found.counts.full
      rw [← waiting, found.waitingCalls_eq]
      rw [ActorPart.state_of_current current] at full ⊢
      have bounded := found.counts.bounded
      by_contra waits
      have held := full waits
      omega
    apply Runs.enters noneWaits
    apply enters.of_same turned active started refused
    rw [found.waitingCalls_eq_of_same takes rfl rfl, waiting]

theorem resumes (sound : part.Sound limits clock 0) {call : LimitedCall} {next : ActorPart}
    (moved : part.resume limits clock call = some next) :
    call ∈ part.turned ∧
      Enters limits clock { part with turned := part.turned.erase call } next call := by
  unfold ActorPart.resume at moved
  split at moved
  next isTurned =>
    rw [← Option.some.inj moved]
    constructor
    · exact isTurned
    · exact (sound.turn isTurned).enters (sound.live call (List.mem_append_left _ isTurned))
  next => cases moved

theorem finishes (sound : part.Sound limits clock 0) {call : LimitedCall} {next : ActorPart}
    (moved : part.finish call = some next) :
    call ∈ part.active ∧
      PassesOn { part with active := part.active.erase call } next part.waitingCalls ∧
      next.waitingCalls = part.waitingCalls.drop 1 := by
  unfold ActorPart.finish at moved
  split at moved
  next isActive =>
    rw [← Option.some.inj moved]
    constructor
    · exact isActive
    · exact (sound.ended isActive).release_waits
        (sound.live call (List.mem_append_right _ isActive))
  next => cases moved

end ActorPart.Sound

/-! ### A refused call never runs -/

/-- How often a call is held: by a slot, a function, the queue or a refusal. -/
def ActorPart.times (part : ActorPart) (id : Nat) : Nat :=
  part.turned.countP (·.id = id) + part.active.countP (·.id = id) +
    part.waitingCalls.countP (·.id = id) + part.refused.countP (·.1.id = id)

/-- Every call has one place, and a number of its own. -/
structure ActorPart.Distinct (part : ActorPart) : Prop where
  once : ∀ id, part.times id ≤ 1
  fresh : ∀ id, part.calls ≤ id → part.times id = 0

theorem countP_take_drop {Item : Type} (test : Item → Bool) (items : List Item) (count : Nat) :
    (items.take count).countP test + (items.drop count).countP test = items.countP test := by
  rw [← List.countP_append, List.take_append_drop]

theorem Enters.times {clock : ℚ} {before after : ActorPart} {call : LimitedCall}
    (enters : Enters limits clock before after call) (id : Nat) :
    after.times id = before.times id + if call.id = id then 1 else 0 := by
  have split := countP_take_drop (fun waits : LimitedCall => decide (waits.id = id))
    before.waitingCalls 1
  unfold ActorPart.times
  cases enters with
  | starts turned active _ refused waiting =>
      rw [turned, active, refused, waiting, List.countP_append, List.countP_singleton]
      simp only [decide_eq_true_eq]
      omega
  | givesUp seconds _ turned active _ refused waiting =>
      rw [turned, active, refused, waiting, List.countP_append, List.countP_append,
        List.countP_singleton]
      simp only [decide_eq_true_eq]
      omega

theorem Runs.times {clock : ℚ} {before after : ActorPart} {call : LimitedCall}
    (runs : Runs limits clock before after call) (id : Nat) :
    after.times id = before.times id + if call.id = id then 1 else 0 := by
  cases runs with
  | refused _ turned active _ refused waiting =>
      unfold ActorPart.times
      rw [turned, active, refused, waiting, List.countP_append, List.countP_singleton]
      simp only [decide_eq_true_eq]
      omega
  | waits _ turned active _ refused waiting =>
      unfold ActorPart.times
      rw [turned, active, refused, waiting, List.countP_append, List.countP_singleton]
      simp only [decide_eq_true_eq]
      omega
  | enters _ enters => exact enters.times id

theorem ActorPart.enter_calls (part : ActorPart) (clock : ℚ) (call : LimitedCall) :
    (part.enter limits clock call).calls = part.calls := by
  cases charged : (charge limits clock call.cost (part.object call.object)).2 with
  | none =>
      rw [enter_charged charged]
      rfl
  | some seconds =>
      rw [enter_refused charged]
      exact (release_passesOn _ call.object).calls

theorem ActorPart.run_calls (part : ActorPart) (clock : ℚ) (cost : Nat) :
    (part.run limits clock cost).calls = part.calls + 1 := by
  have same : part.stateOf.1.calls = part.calls := by
    unfold stateOf
    cases part.current with
    | none => rfl
    | some index => rfl
  unfold run
  simp only
  split
  · split
    · rw [same]
    · simp only [put, same]
  · rw [enter_calls]
    simp only [put, same]

namespace ActorPart.Distinct

variable {clock : ℚ} {part next : ActorPart} {call : LimitedCall}

theorem countP_erase_of_mem {calls : List LimitedCall} (isIn : call ∈ calls) (id : Nat) :
    (calls.erase call).countP (·.id = id) + (if call.id = id then 1 else 0) =
      calls.countP (·.id = id) := by
  rw [(List.perm_cons_erase isIn).countP_eq, List.countP_cons]
  simp only [decide_eq_true_eq]

theorem run (distinct : part.Distinct) (sound : part.Sound limits clock 0) (cost : Nat) :
    (part.run limits clock cost).Distinct := by
  have times := (sound.runs cost).times
  constructor
  · intro id
    have once := distinct.once id
    have fresh := distinct.fresh id
    rw [times]
    simp only
    split
    · omega
    · omega
  · intro id after
    rw [run_calls] at after
    rw [times, distinct.fresh id (by omega), if_neg (by simp only; omega)]

theorem resume (distinct : part.Distinct) (sound : part.Sound limits clock 0)
    (moved : part.resume limits clock call = some next) : next.Distinct := by
  obtain ⟨isTurned, enters⟩ := sound.resumes moved
  have calls : next.calls = part.calls := by
    unfold ActorPart.resume at moved
    rw [if_pos isTurned] at moved
    rw [← Option.some.inj moved, enter_calls]
  have same (id : Nat) : next.times id = part.times id := by
    rw [enters.times]
    have erased := countP_erase_of_mem isTurned id
    simp only [times]
    have waiting : waitingCalls { part with turned := part.turned.erase call } =
        part.waitingCalls := rfl
    rw [waiting]
    omega
  constructor
  · intro id
    rw [same]
    exact distinct.once id
  · intro id after
    rw [same]
    exact distinct.fresh id (calls ▸ after)

theorem finish (distinct : part.Distinct) (sound : part.Sound limits clock 0)
    (moved : part.finish call = some next) : next.Distinct := by
  obtain ⟨isActive, passes, waits⟩ := sound.finishes moved
  have fewer (id : Nat) : next.times id ≤ part.times id := by
    have erased := countP_erase_of_mem isActive id
    have whole := countP_take_drop (fun waits : LimitedCall => decide (waits.id = id))
      part.waitingCalls 1
    simp only [times]
    rw [passes.turned, passes.active, passes.refused, waits, List.countP_append]
    simp only
    omega
  constructor
  · intro id
    exact le_trans (fewer id) (distinct.once id)
  · intro id after
    have none := distinct.fresh id (passes.calls ▸ after)
    have few := fewer id
    omega

/-- A refused call has no other place. -/
theorem not_active (distinct : part.Distinct) {error : UpstreamCallLimitError}
    (refused : (call, error) ∈ part.refused) : call ∉ part.active := by
  intro isActive
  have once := distinct.once call.id
  have active : 0 < part.active.countP (·.id = call.id) :=
    List.countP_pos_iff.mpr ⟨call, isActive, decide_eq_true rfl⟩
  have refusals : 0 < part.refused.countP (·.1.id = call.id) :=
    List.countP_pos_iff.mpr ⟨(call, error), refused, decide_eq_true rfl⟩
  unfold times at once
  omega

end ActorPart.Distinct

end NextTime.LlmProxy
