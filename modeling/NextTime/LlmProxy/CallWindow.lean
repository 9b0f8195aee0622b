import NextTime.LlmProxy.UpstreamCallLimiter

/-
The charges of one actor: what is left of them inside the window, when a cost fits, and
when a cost that does not fit will.
-/

namespace NextTime.LlmProxy

/-- The charges later than one window ago. -/
def inWindow (limits : UpstreamCallLimits) (at' : ℚ) (charges : List Charge) : List Charge :=
  charges.filter fun charge => at' - limits.windowMs < charge.at'

/-- In the order of their time. -/
def InOrder (charges : List Charge) : Prop := charges.Pairwise fun one other => one.at' ≤ other.at'

/-- The sum of the functions started in the window that ends at a time. -/
def startedIn (limits : UpstreamCallLimits) (time : ℚ) (started : List Charge) : Nat :=
  spentOf (started.filter fun charge =>
    decide (time - limits.windowMs < charge.at') && decide (charge.at' ≤ time))

variable {limits : UpstreamCallLimits}

/-- In order, the charges outside the window are those in front. -/
theorem prune_eq_inWindow {charges : List Charge} (inOrder : InOrder charges) (at' : ℚ) :
    prune limits at' charges = inWindow limits at' charges := by
  induction charges with
  | nil => rfl
  | cons charge charges ih =>
      obtain ⟨first, rest⟩ := List.pairwise_cons.mp inOrder
      rw [prune, inWindow, List.dropWhile_cons, List.filter_cons]
      by_cases old : charge.at' ≤ at' - limits.windowMs
      · rw [if_pos (decide_eq_true old), if_neg (by simpa using old)]
        exact ih rest
      · rw [if_neg (by simpa using old), if_pos (by simpa using old)]
        have all : ∀ other ∈ charges, at' - limits.windowMs < other.at' := by
          intro other isIn
          exact lt_of_lt_of_le (not_le.mp old) (first other isIn)
        rw [List.filter_eq_self.mpr fun other isIn => decide_eq_true (all other isIn)]

theorem spentOf_append (front back : List Charge) :
    spentOf (front ++ back) = spentOf front + spentOf back := by
  rw [spentOf, List.map_append, List.sum_append]
  rfl

theorem spentOf_filter_le (keeps : Charge → Bool) (charges : List Charge) :
    spentOf (charges.filter keeps) ≤ spentOf charges := by
  induction charges with
  | nil => exact Nat.le_refl _
  | cons charge charges ih =>
      rw [List.filter_cons]
      split
      · simp only [spentOf, List.map_cons, List.sum_cons] at ih ⊢
        omega
      · simp only [spentOf, List.map_cons, List.sum_cons] at ih ⊢
        omega

theorem spentOf_filter_mono {keeps more : Charge → Bool} {charges : List Charge}
    (implies : ∀ charge ∈ charges, keeps charge = true → more charge = true) :
    spentOf (charges.filter keeps) ≤ spentOf (charges.filter more) := by
  have narrowed : charges.filter keeps = (charges.filter more).filter keeps := by
    rw [List.filter_filter]
    apply List.filter_congr
    intro charge isIn
    cases kept : keeps charge with
    | false => rfl
    | true => rw [implies charge isIn kept]; rfl
  rw [narrowed]
  exact spentOf_filter_le keeps _

/-- A later window has less in it. -/
theorem inWindow_inWindow {at' later : ℚ} (after : at' ≤ later) (charges : List Charge) :
    inWindow limits later (inWindow limits at' charges) = inWindow limits later charges := by
  rw [inWindow, inWindow, inWindow, List.filter_filter]
  apply List.filter_congr
  intro charge _
  rw [Bool.and_eq_left_iff_imp]
  intro isLate
  rw [decide_eq_true_eq] at isLate ⊢
  linarith

/-- A start that fits the window it ends keeps every window within the budget. -/
theorem startedIn_concat {clock : ℚ} {cost : Nat} {started : List Charge}
    (before : ∀ time, startedIn limits time started ≤ limits.budget)
    (fits : spentOf (inWindow limits clock started) + cost ≤ limits.budget) (time : ℚ) :
    startedIn limits time (started ++ [⟨clock, cost⟩]) ≤ limits.budget := by
  rw [startedIn, List.filter_append, spentOf_append, List.filter_cons, List.filter_nil]
  split
  next counted =>
    rw [Bool.and_eq_true, decide_eq_true_eq, decide_eq_true_eq] at counted
    have fewer : spentOf (started.filter fun charge =>
          decide (time - limits.windowMs < charge.at') && decide (charge.at' ≤ time)) ≤
        spentOf (inWindow limits clock started) := by
      apply spentOf_filter_mono
      intro charge _ kept
      rw [Bool.and_eq_true, decide_eq_true_eq] at kept
      rw [decide_eq_true_eq]
      linarith
    have one : spentOf [⟨clock, cost⟩] = cost := rfl
    omega
  next => exact before time

/-! ### When a cost fits -/

/-- The retry time is no earlier than the time a charge found on the way rolls off. -/
theorem le_retryAt {at' : ℚ} {cost : Nat} {charges : List Charge} (inOrder : InOrder charges) :
    ∀ {freed : Int}, (cost : Int) ≤ freed + spentOf charges → ∀ {bound : ℚ},
      charges ≠ [] → (∀ charge ∈ charges, bound ≤ charge.at') →
        bound + limits.windowMs ≤ retryAt limits at' cost freed charges := by
  induction charges with
  | nil => exact fun _ _ nonempty => absurd rfl nonempty
  | cons charge charges ih =>
      intro freed fits bound _ above
      rw [retryAt]
      split
      · have first := above charge List.mem_cons_self
        linarith
      next notYet =>
        have total : (spentOf (charge :: charges) : Int) = charge.cost + spentOf charges := by
          simp [spentOf]
        apply ih (List.pairwise_cons.mp inOrder).2 (by omega)
        · intro empty
          have nothing : spentOf charges = 0 := empty ▸ rfl
          omega
        · exact fun other isIn => above other (List.mem_cons_of_mem _ isIn)

/-- At the retry time as much of the window has rolled off as the cost needs. -/
theorem spentOf_inWindow_retryAt {at' later : ℚ} {cost : Nat} {charges : List Charge}
    (inOrder : InOrder charges) :
    ∀ {freed : Int}, (cost : Int) ≤ freed + spentOf charges →
      retryAt limits at' cost freed charges ≤ later → charges ≠ [] →
        (spentOf (inWindow limits later charges) : Int) + cost ≤ freed + spentOf charges := by
  induction charges with
  | nil => exact fun _ _ nonempty => absurd rfl nonempty
  | cons charge charges ih =>
      intro freed fits reached _
      obtain ⟨first, rest⟩ := List.pairwise_cons.mp inOrder
      have total : (spentOf (charge :: charges) : Int) = charge.cost + spentOf charges := by
        simp [spentOf]
      have rolledOff (old : charge.at' + limits.windowMs ≤ later) :
          inWindow limits later (charge :: charges) = inWindow limits later charges := by
        rw [inWindow, List.filter_cons, if_neg]
        · rfl
        · rw [decide_eq_true_eq]
          linarith
      rw [retryAt] at reached
      split at reached
      next enough =>
        rw [rolledOff reached]
        have fewer := spentOf_filter_le (fun charge => later - limits.windowMs < charge.at') charges
        change (spentOf (charges.filter _) : Int) + cost ≤ _
        omega
      next notYet =>
        have more : charges ≠ [] := by
          intro empty
          have nothing : spentOf charges = 0 := empty ▸ rfl
          omega
        have later' : charge.at' + limits.windowMs ≤ later :=
          le_trans (le_retryAt rest (by omega) more first) reached
        rw [rolledOff later']
        have inner := @ih rest (freed + charge.cost) (by omega) reached more
        omega

theorem le_secondsOf (ms : ℚ) : ms ≤ secondsOf ms * 1000 := by
  have seconds : (⌈ms / 1000⌉ : ℚ) ≤ secondsOf ms := by
    have whole : ⌈ms / 1000⌉ ≤ (secondsOf ms : Int) := by
      rw [secondsOf]
      omega
    exact_mod_cast whole
  have up := Int.le_ceil (ms / 1000)
  linarith

theorem charge_isNone_iff {at' : ℚ} {cost : Nat} {state : ActorState} :
    (charge limits at' cost state).2 = none ↔
      spentOf (prune limits at' state.charges) + cost ≤ limits.budget := by
  unfold charge
  simp only
  split
  · simp only [reduceCtorEq, false_iff, not_le]
    assumption
  · simp only [true_iff]
    omega

/-- A cost that was refused fits after the seconds it was told, if it fits at all. -/
theorem fits_after {at' later : ℚ} {cost seconds : Nat} {state : ActorState}
    (inOrder : InOrder state.charges) (fits : cost ≤ limits.budget)
    (refused : (charge limits at' cost state).2 = some seconds)
    (after : at' + seconds * 1000 ≤ later) :
    spentOf (inWindow limits later state.charges) + cost ≤ limits.budget := by
  unfold charge at refused
  simp only at refused
  split at refused
  next isOver =>
    have isSeconds := Option.some.inj refused
    rw [prune_eq_inWindow inOrder] at isOver isSeconds
    have held : InOrder (inWindow limits at' state.charges) := List.Pairwise.filter _ inOrder
    have nonempty : inWindow limits at' state.charges ≠ [] := by
      intro empty
      have nothing : spentOf (inWindow limits at' state.charges) = 0 := empty ▸ rfl
      omega
    have enough := le_secondsOf (retryAt limits at' cost
      ((limits.budget : Int) - spentOf (inWindow limits at' state.charges))
      (inWindow limits at' state.charges) - at')
    rw [isSeconds] at enough
    have forward : at' ≤ later := by
      have positive : (0 : ℚ) ≤ seconds * 1000 := by positivity
      linarith
    have rolledOff := @spentOf_inWindow_retryAt limits at' later cost
      (inWindow limits at' state.charges) held
      ((limits.budget : Int) - spentOf (inWindow limits at' state.charges))
      (by omega) (by linarith) nonempty
    rw [inWindow_inWindow forward] at rolledOff
    omega
  next => cases refused

end NextTime.LlmProxy
