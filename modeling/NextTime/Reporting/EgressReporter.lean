import NextTime.Library.Outbox
import NextTime.Library.LabelledRun

/-
The egress proxy's reporter, from one await to the next: observations are queued
and sent on a timer, a batch at a time, and a batch that failed is queued again
in front. The kernel's URL is configured and the reporter has not been closed.
-/

namespace NextTime.Reporting

/-- What the reporter is constructed with. -/
structure ReporterOptions where
  maxQueueSize : Nat
  flushIntervalMs : Nat
  maxFlushIntervalMs : Nat
deriving DecidableEq, Repr

namespace ReporterOptions

/-- The defaults of the constructors. -/
def default : ReporterOptions where
  maxQueueSize := 1000
  flushIntervalMs := 2000
  maxFlushIntervalMs := 60000

/-- `slice(max(0, length - maxQueueSize))`: the oldest go. -/
def bounded {Item : Type} (options : ReporterOptions) (queue : List Item) : List Item :=
  queue.drop (queue.length - options.maxQueueSize)

theorem bounded_of_fits {Item : Type} {options : ReporterOptions} {queue : List Item}
    (fits : queue.length ≤ options.maxQueueSize) : options.bounded queue = queue := by
  rw [bounded, Nat.sub_eq_zero_of_le fits, List.drop_zero]

/-- The back-off of a failed flush. -/
def backedOff (options : ReporterOptions) (currentMs : Nat) : Nat :=
  min (currentMs * 2) options.maxFlushIntervalMs

end ReporterOptions

/-- An observation is followed as the one that was recorded, whatever it says. -/
structure EgressReporter where
  queue : List Nat
  /-- The batches of the flushes that wait for their response. -/
  inFlight : List (List Nat)
  flushing : Bool
  timer : Bool
  currentFlushIntervalMs : Nat
  /-- How many were recorded, which the kernel has taken, and whether a timer has fired into
  the flush in flight since the last record; nothing reads them. -/
  recorded : Nat
  settled : List Nat
  fired : Bool
deriving DecidableEq, Repr

inductive EgressLabel
  | records
  | timerFires
  | responds (ok : Bool)
deriving DecidableEq, Repr

namespace EgressReporter

variable (options : ReporterOptions)

def scheduleFlush (reporter : EgressReporter) : EgressReporter :=
  { reporter with timer := true }

def record (reporter : EgressReporter) : EgressReporter :=
  let queue :=
    if options.maxQueueSize ≤ reporter.queue.length then reporter.queue.tail else reporter.queue
  { reporter with
    queue := queue ++ [reporter.recorded]
    recorded := reporter.recorded + 1
    fired := false }.scheduleFlush

/-- `flush`, up to its `await`. -/
def flush (reporter : EgressReporter) : EgressReporter :=
  if reporter.flushing || reporter.queue.isEmpty then reporter
  else
    { reporter with
      flushing := true
      inFlight := reporter.inFlight ++ [reporter.queue]
      queue := []
      fired := false }

/-- The rest of `flush`, once the response is there or the request has failed. -/
def responded (reporter : EgressReporter) (ok : Bool) : EgressReporter :=
  match reporter.inFlight with
  | [] => reporter
  | batch :: others =>
      let reporter := { reporter with inFlight := others, flushing := false }
      if ok then
        { reporter with
          settled := reporter.settled ++ batch
          currentFlushIntervalMs := options.flushIntervalMs }
      else
        { reporter with
          queue := options.bounded (batch ++ reporter.queue)
          currentFlushIntervalMs := options.backedOff
            reporter.currentFlushIntervalMs }.scheduleFlush

def step (reporter : EgressReporter) : EgressLabel → Option EgressReporter
  | .records => some (reporter.record options)
  | .timerFires =>
      if reporter.timer then
        some { reporter with timer := false, fired := reporter.flushing }.flush
      else none
  | .responds ok => if reporter.inFlight = [] then none else some (reporter.responded options ok)

def empty : EgressReporter where
  queue := []
  inFlight := []
  flushing := false
  timer := false
  currentFlushIntervalMs := options.flushIntervalMs
  recorded := 0
  settled := []
  fired := false

def system : LabelledRun.System EgressReporter EgressLabel where
  initial reporter := reporter = empty options
  step := step options

/-- The queue never exceeds its bound: nothing is dropped from it. -/
def withinBound (reporter : EgressReporter) : EgressLabel → Prop
  | .records => reporter.queue.length < options.maxQueueSize
  | .responds false => reporter.inFlight.flatten.length + reporter.queue.length ≤
      options.maxQueueSize
  | _ => True

/-- A batch is taken by the kernel only while no timer has fired into its flush since the
last record. -/
def timely (reporter : EgressReporter) : EgressLabel → Prop
  | .responds true => reporter.fired = false
  | _ => True

instance (reporter : EgressReporter) (label : EgressLabel) :
    Decidable (reporter.withinBound options label) := by
  cases label with
  | records => exact inferInstanceAs (Decidable (_ < _))
  | timerFires => exact inferInstanceAs (Decidable True)
  | responds ok =>
      cases ok with
      | true => exact inferInstanceAs (Decidable True)
      | false => exact inferInstanceAs (Decidable (_ ≤ _))

instance (reporter : EgressReporter) (label : EgressLabel) :
    Decidable (reporter.timely label) := by
  cases label with
  | records => exact inferInstanceAs (Decidable True)
  | timerFires => exact inferInstanceAs (Decidable True)
  | responds ok =>
      cases ok with
      | true => exact inferInstanceAs (Decidable (_ = _))
      | false => exact inferInstanceAs (Decidable True)

def ledger (reporter : EgressReporter) : Outbox.Ledger Nat where
  recorded := List.range reporter.recorded
  settled := reporter.settled
  flying := reporter.inFlight.flatten
  queued := reporter.queue

/-- Everything recorded stands in one place, in order, and one flush is in flight at most. -/
structure Reports (reporter : EgressReporter) : Prop where
  ordered : reporter.settled ++ reporter.inFlight.flatten ++ reporter.queue =
    List.range reporter.recorded
  once : reporter.inFlight.length ≤ 1

/-- What is queued is sent again. -/
def Rearmed (reporter : EgressReporter) : Prop :=
  reporter.inFlight = [] → reporter.queue ≠ [] → reporter.timer = true

/-- One flush at a time, its flag and its batch together. -/
structure OneFlush (reporter : EgressReporter) : Prop where
  once : reporter.inFlight.length ≤ 1
  flag : reporter.flushing = !reporter.inFlight.isEmpty

/-- Behind a flush in flight the timer has fired, if it is not armed. -/
structure Armed (reporter : EgressReporter) : Prop where
  resting : reporter.Rearmed
  flying : reporter.inFlight ≠ [] → reporter.queue ≠ [] →
    reporter.timer = true ∨ reporter.fired = true

variable {options : ReporterOptions} {reporter : EgressReporter}

/-! ### One flush at a time -/

theorem OneFlush.grounded (one : reporter.OneFlush) (resting : reporter.flushing = false) :
    reporter.inFlight = [] := by
  have flag := one.flag
  rw [resting] at flag
  cases found : reporter.inFlight with
  | nil => rfl
  | cons batch others =>
      rw [found] at flag
      cases flag

theorem OneFlush.flies (one : reporter.OneFlush) (flushing : reporter.flushing = true) :
    reporter.inFlight ≠ [] := by
  intro landed
  have flag := one.flag
  rw [flushing, landed] at flag
  cases flag

theorem OneFlush.landed (one : reporter.OneFlush) {batch : List Nat} {others : List (List Nat)}
    (found : reporter.inFlight = batch :: others) : others = [] := by
  have once := one.once
  rw [found, List.length_cons] at once
  exact List.eq_nil_of_length_eq_zero (Nat.le_zero.mp (Nat.le_of_succ_le_succ once))

/-- What a flush does: nothing while one is in flight or nothing is queued. -/
theorem OneFlush.flush (one : reporter.OneFlush) :
    reporter.flush = reporter ∧ (reporter.flushing = true ∨ reporter.queue = []) ∨
      reporter.inFlight = [] ∧
        reporter.flush =
          { reporter with
            flushing := true, inFlight := [reporter.queue], queue := [], fired := false } := by
  unfold EgressReporter.flush
  split
  next resting =>
    rw [Bool.or_eq_true, List.isEmpty_iff] at resting
    exact Or.inl ⟨rfl, resting⟩
  next enabled =>
    rw [Bool.or_eq_true, not_or] at enabled
    have grounded := one.grounded (Bool.eq_false_iff.mpr enabled.1)
    refine Or.inr ⟨grounded, ?_⟩
    rw [grounded, List.nil_append]

theorem step_oneFlush {next : EgressReporter} {label : EgressLabel} (one : reporter.OneFlush)
    (moved : step options reporter label = some next) : next.OneFlush := by
  cases label with
  | records =>
      cases moved
      exact ⟨one.once, one.flag⟩
  | timerFires =>
      simp only [step] at moved
      split at moved
      next =>
        cases moved
        have cleared : { reporter with timer := false, fired := reporter.flushing }.OneFlush :=
          ⟨one.once, one.flag⟩
        rcases cleared.flush with ⟨same, _⟩ | ⟨_, taken⟩
        · rw [same]
          exact cleared
        · rw [taken]
          exact ⟨Nat.le_refl 1, rfl⟩
      next => cases moved
  | responds ok =>
      simp only [step] at moved
      split at moved
      next => cases moved
      next =>
        cases moved
        unfold responded
        cases found : reporter.inFlight with
        | nil => exact one
        | cons batch others =>
            have last := one.landed found
            subst last
            cases ok with
            | true => exact ⟨Nat.zero_le 1, rfl⟩
            | false => exact ⟨Nat.zero_le 1, rfl⟩

/-! ### Nothing is lost -/

theorem record_queue (room : reporter.queue.length < options.maxQueueSize) :
    reporter.record options =
      { reporter with
        queue := reporter.queue ++ [reporter.recorded]
        recorded := reporter.recorded + 1
        fired := false
        timer := true } := by
  rw [record, if_neg (Nat.not_le.mpr room)]
  rfl

theorem inOrder_record (inOrder : reporter.ledger.InOrder fun _ => ())
    (room : reporter.queue.length < options.maxQueueSize) :
    (reporter.record options).ledger.InOrder fun _ => () := by
  rw [record_queue room]
  have recorded := inOrder.record reporter.recorded
  unfold ledger at recorded ⊢
  rw [List.range_succ]
  exact recorded

theorem inOrder_flush (one : reporter.OneFlush) (inOrder : reporter.ledger.InOrder fun _ => ()) :
    reporter.flush.ledger.InOrder fun _ => () := by
  rcases one.flush with ⟨same, _⟩ | ⟨grounded, taken⟩
  · rw [same]
    exact inOrder
  · have moved := inOrder.take (by rw [ledger, grounded]; rfl)
    rw [taken]
    unfold ledger at moved ⊢
    simp only [List.flatten_cons, List.flatten_nil, List.append_nil]
    exact moved

theorem inOrder_responded (one : reporter.OneFlush)
    (inOrder : reporter.ledger.InOrder fun _ => ()) {ok : Bool}
    (fits : reporter.withinBound options (.responds ok)) :
    (reporter.responded options ok).ledger.InOrder fun _ => () := by
  unfold EgressReporter.responded
  cases found : reporter.inFlight with
  | nil => exact inOrder
  | cons batch others =>
      have last := one.landed found
      subst last
      have flying : reporter.ledger.flying = batch := by
        rw [ledger, found]
        exact List.append_nil batch
      cases ok with
      | true =>
          have settled := inOrder.settle fun _ => true
          rw [flying] at settled
          simp only [List.filter_true, Bool.not_true, List.filter_false, List.nil_append]
            at settled
          exact settled
      | false =>
          have settled := inOrder.settle fun _ => false
          rw [flying] at settled
          simp only [List.filter_true, Bool.not_false, List.filter_false, List.append_nil]
            at settled
          change reporter.inFlight.flatten.length + reporter.queue.length ≤
            options.maxQueueSize at fits
          rw [found, ← List.length_append] at fits
          change (batch ++ [] ++ reporter.queue).length ≤ options.maxQueueSize at fits
          rw [List.append_nil] at fits
          unfold ledger at settled ⊢
          simp only [scheduleFlush, ReporterOptions.bounded_of_fits fits, Bool.false_eq_true,
            if_false]
          exact settled

theorem step_inOrder {next : EgressReporter} {label : EgressLabel} (one : reporter.OneFlush)
    (inOrder : reporter.ledger.InOrder fun _ => ())
    (within : reporter.withinBound options label)
    (moved : step options reporter label = some next) : next.ledger.InOrder fun _ => () := by
  cases label with
  | records =>
      cases moved
      exact inOrder_record inOrder within
  | timerFires =>
      simp only [step] at moved
      split at moved
      next =>
        cases moved
        apply inOrder_flush
        · exact ⟨one.once, one.flag⟩
        · exact inOrder
      next => cases moved
  | responds ok =>
      simp only [step] at moved
      split at moved
      next => cases moved
      next =>
        cases moved
        exact inOrder_responded one inOrder within

/-! ### What is queued is sent again -/

theorem step_armed {next : EgressReporter} {label : EgressLabel} (one : reporter.OneFlush)
    (armed : reporter.Armed) (timely : reporter.timely label)
    (moved : step options reporter label = some next) : next.Armed := by
  cases label with
  | records =>
      cases moved
      exact ⟨fun _ _ => rfl, fun _ _ => Or.inl rfl⟩
  | timerFires =>
      simp only [step] at moved
      split at moved
      next =>
        cases moved
        have cleared : { reporter with timer := false, fired := reporter.flushing }.OneFlush :=
          ⟨one.once, one.flag⟩
        rcases cleared.flush with ⟨same, flushing | nothing⟩ | ⟨_, taken⟩
        · rw [same]
          exact ⟨fun landed => absurd landed (one.flies flushing), fun _ _ => Or.inr flushing⟩
        · rw [same]
          exact ⟨fun _ queued => absurd nothing queued, fun _ queued => absurd nothing queued⟩
        · rw [taken]
          exact ⟨fun _ queued => absurd rfl queued, fun _ queued => absurd rfl queued⟩
      next => cases moved
  | responds ok =>
      simp only [step] at moved
      split at moved
      next => cases moved
      next flies =>
        cases moved
        unfold responded
        cases found : reporter.inFlight with
        | nil => exact absurd found flies
        | cons batch others =>
            have last := one.landed found
            subst last
            cases ok with
            | true =>
                refine ⟨fun _ queued => ?_, fun flying => absurd rfl flying⟩
                cases armed.flying flies queued with
                | inl still => exact still
                | inr fired =>
                    rw [show reporter.fired = false from timely] at fired
                    cases fired
            | false => exact ⟨fun _ _ => rfl, fun _ _ => Or.inl rfl⟩

/-! ### Every run -/

theorem empty_oneFlush : (empty options).OneFlush := ⟨Nat.zero_le 1, rfl⟩

theorem run_reports {start final : EgressReporter} {labels : List EgressLabel}
    (started : (system options).initial start)
    (within : (system options).Allowed (withinBound options) start labels)
    (ran : (system options).run start labels = some final) : final.Reports := by
  have preserved : (system options).PreservedWhen (withinBound options)
      fun reporter => reporter.OneFlush ∧ reporter.ledger.InOrder fun _ => () :=
    fun _ _ _ holds within moved =>
      ⟨step_oneFlush holds.1 moved, step_inOrder holds.1 holds.2 within moved⟩
  have established : start.OneFlush ∧ start.ledger.InOrder fun _ => () := by
    cases started
    exact ⟨empty_oneFlush, fun _ => rfl⟩
  have holds := (system options).run_preserves_when preserved established within ran
  refine ⟨?_, holds.1.once⟩
  have same := holds.2 ()
  simp only [decide_true, List.filter_true] at same
  exact same

theorem run_rearmed {start final : EgressReporter} {labels : List EgressLabel}
    (started : (system options).initial start)
    (inTime : (system options).Allowed timely start labels)
    (ran : (system options).run start labels = some final) : final.Rearmed := by
  have preserved : (system options).PreservedWhen timely
      fun reporter => reporter.OneFlush ∧ reporter.Armed :=
    fun _ _ _ holds timely moved =>
      ⟨step_oneFlush holds.1 moved, step_armed holds.1 holds.2 timely moved⟩
  have established : start.OneFlush ∧ start.Armed := by
    cases started
    exact ⟨empty_oneFlush, fun _ queued => absurd rfl queued, fun _ queued => absurd rfl queued⟩
  exact ((system options).run_preserves_when preserved established inTime ran).2.resting

end EgressReporter
end NextTime.Reporting
