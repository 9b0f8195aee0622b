import NextTime.LlmProxy.LimiterRefusals

/-
The limiter over any run of any actors: what it keeps of each actor in every state, and
what a call it refused finds afterwards.
-/

namespace NextTime.LlmProxy

variable {limits : UpstreamCallLimits}

/-- A call that starts nothing leaves the slots as they were: it held none, or the one it held
goes to the first that waits, or is free. -/
structure LeavesSlots (before after : ActorPart) (call : LimitedCall) : Prop where
  active : after.active = before.active
  started : after.started = before.started
  slots : (after.turned = before.turned ∧ after.waitingCalls = before.waitingCalls) ∨
    (call ∈ before.turned ∧
      after.turned = before.turned.erase call ++ before.waitingCalls.take 1 ∧
      after.waitingCalls = before.waitingCalls.drop 1)

/-- A call of the cost runs as soon as it has a slot. -/
structure Admits (limits : UpstreamCallLimits) (clock : ℚ) (part : ActorPart) (cost : Nat) :
    Prop where
  atOnce : part.state.running < limits.maxConcurrent →
    (part.run limits clock cost).started = part.started ++ [⟨clock, cost⟩]
  onTurn : ∀ call ∈ part.turned, call.cost = cost → ∀ next,
    part.resume limits clock call = some next → next.started = part.started ++ [⟨clock, cost⟩]

theorem Enters.started_of_fits {clock : ℚ} {before after : ActorPart} {call : LimitedCall}
    (enters : Enters limits clock before after call)
    (fits : spentOf (inWindow limits clock before.started) + call.cost ≤ limits.budget) :
    after.started = before.started ++ [⟨clock, call.cost⟩] := by
  cases enters with
  | starts _ _ started _ _ => exact started
  | givesUp _ isOver _ _ _ _ _ _ => omega

theorem ActorPart.Sound.admits {clock : ℚ} {part : ActorPart} {cost : Nat}
    (sound : part.Sound limits clock 0)
    (fits : spentOf (inWindow limits clock part.started) + cost ≤ limits.budget) :
    Admits limits clock part cost := by
  constructor
  · intro free
    cases sound.runs cost with
    | refused busy _ _ _ _ _ => omega
    | waits busy _ _ _ _ _ => omega
    | enters _ enters => exact enters.started_of_fits fits
  · intro call _ isCost next moved
    obtain ⟨_, enters⟩ := sound.resumes moved
    rw [← isCost] at fits ⊢
    exact enters.started_of_fits fits

/-! ### One refusal -/

theorem ne_concat {Item : Type} (items : List Item) (item : Item) : items ≠ items ++ [item] := by
  intro same
  have lengths := congrArg List.length same
  rw [List.length_append, List.length_singleton] at lengths
  omega

theorem refusal_eq {Item : Type} {items after : List Item} {one other : Item}
    (isAfter : after = items ++ [one]) (refusal : after = items ++ [other]) : one = other := by
  rw [isAfter] at refusal
  exact List.singleton_inj.mp (List.append_cancel_left refusal)

/-- What a refusal says of the window, once its seconds are over. -/
def FitsLater (limits : UpstreamCallLimits) (clock : ℚ) (started : List Charge)
    (call : LimitedCall) (error : UpstreamCallLimitError) : Prop :=
  ∀ seconds, error = .budget seconds → ∀ later, call.cost ≤ limits.budget →
    clock + seconds * 1000 ≤ later →
      spentOf (inWindow limits later started) + call.cost ≤ limits.budget

theorem Enters.refusal {clock : ℚ} {before after : ActorPart} {call other : LimitedCall}
    {error : UpstreamCallLimitError} (enters : Enters limits clock before after call)
    (refusal : after.refused = before.refused ++ [(other, error)]) :
    call = other ∧ after.active = before.active ∧ after.started = before.started ∧
      after.turned = before.turned ++ before.waitingCalls.take 1 ∧
      after.waitingCalls = before.waitingCalls.drop 1 ∧
      FitsLater limits clock before.started other error := by
  cases enters with
  | starts _ _ _ refused _ => exact absurd (refused.symm.trans refusal) (ne_concat _ _)
  | givesUp seconds _ turned active started refused waiting fits =>
      obtain ⟨isCall, isError⟩ := Prod.mk.inj (refusal_eq refused refusal)
      refine ⟨isCall, active, started, turned, waiting, ?_⟩
      intro told isTold later small after
      rw [← isError, UpstreamCallLimitError.budget.injEq] at isTold
      rw [← isTold] at after
      rw [← isCall] at small ⊢
      exact fits later small after

theorem Enters.refused_grows {clock : ℚ} {before after : ActorPart} {call : LimitedCall}
    (enters : Enters limits clock before after call) : before.refused <+: after.refused := by
  cases enters with
  | starts _ _ _ refused _ => exact refused ▸ List.prefix_rfl
  | givesUp _ _ _ _ _ refused _ _ => exact refused ▸ List.prefix_append _ _

namespace ActorPart.Sound

variable {clock : ℚ} {part next : ActorPart} {call : LimitedCall} {error : UpstreamCallLimitError}

theorem run_refusal (sound : part.Sound limits clock 0) {cost : Nat}
    (refusal : (part.run limits clock cost).refused = part.refused ++ [(call, error)]) :
    LeavesSlots part (part.run limits clock cost) call ∧
      FitsLater limits clock part.started call error := by
  cases sound.runs cost with
  | refused _ turned active started refused waiting =>
      obtain ⟨_, isError⟩ := Prod.mk.inj (refusal_eq refused refusal)
      constructor
      · exact ⟨active, started, .inl ⟨turned, waiting⟩⟩
      · intro seconds isBudget
        rw [← isError] at isBudget
        cases isBudget
  | waits _ _ _ _ refused _ => exact absurd (refused.symm.trans refusal) (ne_concat _ _)
  | enters noneWaits enters =>
      obtain ⟨_, active, started, turned, waiting, fits⟩ := enters.refusal refusal
      rw [noneWaits, List.take_nil, List.append_nil] at turned
      rw [noneWaits, List.drop_nil, ← noneWaits] at waiting
      exact ⟨⟨active, started, .inl ⟨turned, waiting⟩⟩, fits⟩

theorem resume_refusal (sound : part.Sound limits clock 0) {resumed : LimitedCall}
    (moved : part.resume limits clock resumed = some next)
    (refusal : next.refused = part.refused ++ [(call, error)]) :
    LeavesSlots part next call ∧ FitsLater limits clock part.started call error := by
  obtain ⟨isTurned, enters⟩ := sound.resumes moved
  obtain ⟨isCall, active, started, turned, waiting, fits⟩ := enters.refusal refusal
  rw [isCall] at isTurned turned
  exact ⟨⟨active, started, .inr ⟨isTurned, turned, waiting⟩⟩, fits⟩

theorem finish_refusal (sound : part.Sound limits clock 0) {ended : LimitedCall}
    (moved : part.finish ended = some next) :
    next.refused ≠ part.refused ++ [(call, error)] := by
  obtain ⟨_, passes, _⟩ := sound.finishes moved
  rw [passes.refused]
  exact ne_concat _ _

end ActorPart.Sound

/-! ### Any run -/

section
variable {Actor : Type} [DecidableEq Actor]

/-- Every actor is as the steps keep it. -/
structure Limiter.Kept (limits : UpstreamCallLimits) (limiter : Limiter Actor) : Prop where
  sound : limiter.Sound limits
  distinct : ∀ actor, (limiter.parts actor).Distinct

theorem Limiter.set_self (limiter : Limiter Actor) (actor : Actor) (part : ActorPart) :
    (limiter.set actor part).parts actor = part := if_pos rfl

theorem Limiter.set_other (limiter : Limiter Actor) {actor other : Actor}
    (different : other ≠ actor) (part : ActorPart) :
    (limiter.set actor part).parts other = limiter.parts other := if_neg different

theorem kept_preserved :
    (upstreamCallLimiter limits).Preserved (Limiter.Kept limits : Limiter Actor → Prop) := by
  intro limiter label next kept moved
  constructor
  · exact sound_preserved limiter label next kept.sound moved
  · intro other
    have set {actor : Actor} {part : ActorPart} (distinct : part.Distinct) :
        ((limiter.set actor part).parts other).Distinct := by
      simp only [Limiter.set]
      split
      next => exact distinct
      next => exact kept.distinct other
    rcases step_cases moved with ⟨actor, cost, isNext⟩ | ⟨actor, call, part, resumed, isNext⟩ |
      ⟨actor, call, part, finished, isNext⟩ | ⟨same, _⟩
    · rw [isNext]
      exact set ((kept.distinct actor).run (kept.sound actor) cost)
    · rw [isNext]
      exact set ((kept.distinct actor).resume (kept.sound actor) resumed)
    · rw [isNext]
      exact set ((kept.distinct actor).finish (kept.sound actor) finished)
    · rw [same]
      exact kept.distinct other

theorem kept_of_reachable {limiter : Limiter Actor}
    (reached : (upstreamCallLimiter limits).Reachable limiter) : limiter.Kept limits := by
  apply (upstreamCallLimiter limits).invariant _ kept_preserved reached
  intro start fresh
  constructor
  · intro actor
    rw [fresh actor]
    exact .new start.clock
  · intro actor
    rw [fresh actor]
    exact ⟨fun _ => Nat.zero_le _, fun _ _ => rfl⟩

/-- Refusals stay. -/
theorem refused_step {limiter next : Limiter Actor} {label : LimiterLabel Actor}
    (kept : limiter.Kept limits) (moved : Limiter.step limits limiter label = some next)
    (actor : Actor) : (limiter.parts actor).refused <+: (next.parts actor).refused := by
  have set {moving : Actor} {part : ActorPart}
      (grown : (limiter.parts moving).refused <+: part.refused) :
      (limiter.parts actor).refused <+: ((limiter.set moving part).parts actor).refused := by
    simp only [Limiter.set]
    split
    next isActor =>
      rw [isActor]
      exact grown
    next => exact List.prefix_rfl
  rcases step_cases moved with ⟨moving, cost, isNext⟩ | ⟨moving, call, part, resumed, isNext⟩ |
    ⟨moving, call, part, finished, isNext⟩ | ⟨same, _⟩
  · rw [isNext]
    apply set
    cases (kept.sound moving).runs cost with
    | refused _ _ _ _ refused _ => exact refused ▸ List.prefix_append _ _
    | waits _ _ _ _ refused _ => exact refused ▸ List.prefix_rfl
    | enters _ enters => exact enters.refused_grows
  · rw [isNext]
    apply set
    exact ((kept.sound moving).resumes resumed).2.refused_grows
  · rw [isNext]
    apply set
    exact ((kept.sound moving).finishes finished).2.1.refused ▸ List.prefix_rfl
  · exact same ▸ List.prefix_rfl

theorem refused_run {limiter later : Limiter Actor} {labels : List (LimiterLabel Actor)}
    (kept : limiter.Kept limits)
    (ran : (upstreamCallLimiter limits).run limiter labels = some later) (actor : Actor) :
    later.Kept limits ∧ (limiter.parts actor).refused <+: (later.parts actor).refused := by
  have preserved : (upstreamCallLimiter limits).Preserved fun next : Limiter Actor =>
      next.Kept limits ∧ (limiter.parts actor).refused <+: (next.parts actor).refused := by
    intro state label next held moved
    constructor
    · exact kept_preserved state label next held.1 moved
    · exact held.2.trans (refused_step held.1 moved actor)
  exact (upstreamCallLimiter limits).run_preserves preserved ⟨kept, List.prefix_rfl⟩ ran

/-- The refusal of one step: the slots, and the window at any later time. -/
theorem refusal_step {limiter next : Limiter Actor} {label : LimiterLabel Actor} {actor : Actor}
    {call : LimitedCall} {error : UpstreamCallLimitError} (kept : limiter.Kept limits)
    (moved : Limiter.step limits limiter label = some next)
    (refusal : (next.parts actor).refused = (limiter.parts actor).refused ++ [(call, error)]) :
    LeavesSlots (limiter.parts actor) (next.parts actor) call ∧
      FitsLater limits next.clock (limiter.parts actor).started call error := by
  have still {moving : Actor} {part : ActorPart} (isNext : next = limiter.set moving part)
      (other : actor ≠ moving) : False := by
    rw [isNext, Limiter.set_other limiter other] at refusal
    exact ne_concat _ _ refusal
  rcases step_cases moved with ⟨moving, cost, isNext⟩ | ⟨moving, resumed, part, resumes, isNext⟩ |
    ⟨moving, ended, part, finished, isNext⟩ | ⟨same, _⟩
  · by_cases isActor : actor = moving
    · rw [isNext, isActor, Limiter.set_self] at refusal ⊢
      exact (kept.sound moving).run_refusal refusal
    · exact (still isNext isActor).elim
  · by_cases isActor : actor = moving
    · rw [isNext, isActor, Limiter.set_self] at refusal ⊢
      exact (kept.sound moving).resume_refusal resumes refusal
    · exact (still isNext isActor).elim
  · by_cases isActor : actor = moving
    · rw [isNext, isActor, Limiter.set_self] at refusal
      exact absurd refusal ((kept.sound moving).finish_refusal finished)
    · exact (still isNext isActor).elim
  · rw [same] at refusal
    exact absurd refusal (ne_concat _ _)

/-- What a refusal leaves, and what the refused call finds from there. -/
structure Refuses (limits : UpstreamCallLimits) (actor : Actor) (limiter next : Limiter Actor)
    (call : LimitedCall) (error : UpstreamCallLimitError) : Prop where
  slots : LeavesSlots (limiter.parts actor) (next.parts actor) call
  neverRuns : ∀ labels later, (upstreamCallLimiter limits).run next labels = some later →
    call ∉ (later.parts actor).active
  admitted : ∀ seconds, error = .budget seconds → call.cost ≤ limits.budget →
    ∀ labels later, (upstreamCallLimiter limits).run next labels = some later →
      (later.parts actor).started = (next.parts actor).started →
      next.clock + seconds * 1000 ≤ later.clock →
        Admits limits later.clock (later.parts actor) call.cost

/-- An actor whose window is full: the one call it takes runs. -/
def fullWindow (calls : Nat) (refused : List (LimitedCall × UpstreamCallLimitError)) : ActorPart :=
  ⟨some 0, [⟨1, [], [⟨0, 1⟩]⟩], [], [⟨0, 0, 1⟩], calls, [], [], [⟨0, 1⟩], refused⟩

end

end NextTime.LlmProxy
