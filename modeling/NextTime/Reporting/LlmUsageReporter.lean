import NextTime.Reporting.EgressReporter

/-
The LLM proxy's reporter, from one await to the next. The kernel answers a batch
workspace by workspace, a `deliver` waits until its record is settled, and a
deliver that comes while a flush is in flight asks for another right after it.
-/

namespace NextTime.Reporting

/-- `ref` tells two records apart that say the same. -/
structure LlmUsageRecord where
  ref : Nat
  workspaceId : String
deriving DecidableEq, Repr

inductive GroupOutcome
  | recorded
  | rejected
  | retry
deriving DecidableEq, Repr

structure LlmUsageGroupResult where
  workspaceId : String
  outcome : GroupOutcome
deriving DecidableEq, Repr

/-- What comes of the request: it fails, or is answered, with or without group results. -/
inductive FlushResponse
  | fails
  | answers (ok : Bool) (groups : Option (List LlmUsageGroupResult))
deriving DecidableEq, Repr

namespace FlushResponse

/-- What goes back on the queue. -/
def unsettled (response : FlushResponse) (batch : List LlmUsageRecord) : List LlmUsageRecord :=
  match response with
  | .fails => batch
  | .answers true _ => []
  | .answers false none => batch
  | .answers false (some groups) =>
      let settled := (groups.filter fun group => decide (group.outcome ≠ .retry)).map
        LlmUsageGroupResult.workspaceId
      batch.filter fun record => !settled.contains record.workspaceId

/-- No error is thrown: the answer left nothing to send again. -/
def settlesAll (response : FlushResponse) (batch : List LlmUsageRecord) : Bool :=
  match response with
  | .fails => false
  | .answers _ _ => (response.unsettled batch).isEmpty

/-- A workspace whose records the response settles. -/
def settles (response : FlushResponse) (workspaceId : String) : Bool :=
  match response with
  | .fails | .answers false none => false
  | .answers true _ => true
  | .answers false (some groups) =>
      ((groups.filter fun group => decide (group.outcome ≠ .retry)).map
        LlmUsageGroupResult.workspaceId).contains workspaceId

def settledOf (response : FlushResponse) (batch : List LlmUsageRecord) : List LlmUsageRecord :=
  batch.filter fun record => response.settles record.workspaceId

theorem unsettled_eq (response : FlushResponse) (batch : List LlmUsageRecord) :
    response.unsettled batch = batch.filter fun record => !response.settles record.workspaceId := by
  cases response with
  | fails => exact (List.filter_true _).symm
  | answers ok groups =>
      cases ok with
      | true => exact (List.filter_false _).symm
      | false =>
          cases groups with
          | none => exact (List.filter_true _).symm
          | some groups => rfl

end FlushResponse

structure LlmUsageReporter where
  queue : List LlmUsageRecord
  inFlight : List (List LlmUsageRecord)
  flushing : Bool
  flushAgain : Bool
  timer : Bool
  currentFlushIntervalMs : Nat
  /-- The records whose `deliver` still waits. -/
  waiters : List LlmUsageRecord
  /-- What was recorded, what the kernel has settled, what `deliver` resolved to, and whether
  a timer has fired into the flush in flight since the last record; nothing reads them. -/
  recorded : List LlmUsageRecord
  settled : List LlmUsageRecord
  resolved : List (LlmUsageRecord × Bool)
  fired : Bool
deriving DecidableEq, Repr

inductive UsageLabel
  | records (workspaceId : String)
  | delivers (workspaceId : String)
  | deliverTimesOut (record : LlmUsageRecord)
  | timerFires
  | responds (response : FlushResponse)
deriving DecidableEq, Repr

namespace LlmUsageReporter

variable (options : ReporterOptions)

def next (reporter : LlmUsageReporter) (workspaceId : String) : LlmUsageRecord where
  ref := reporter.recorded.length
  workspaceId := workspaceId

def record (reporter : LlmUsageReporter) (record : LlmUsageRecord) : LlmUsageReporter :=
  let queue :=
    if options.maxQueueSize ≤ reporter.queue.length then reporter.queue.tail else reporter.queue
  { reporter with
    queue := queue ++ [record]
    recorded := reporter.recorded ++ [record]
    fired := false
    timer := true }

/-- `flush`, up to its `await`. -/
def flush (reporter : LlmUsageReporter) : LlmUsageReporter :=
  if reporter.flushing || reporter.queue.isEmpty then reporter
  else
    { reporter with
      flushing := true
      inFlight := reporter.inFlight ++ [reporter.queue]
      queue := []
      fired := false }

def flushSoon (reporter : LlmUsageReporter) : LlmUsageReporter :=
  if reporter.flushing then { reporter with flushAgain := true }
  else if options.flushIntervalMs < reporter.currentFlushIntervalMs then reporter
  else { reporter with timer := false }.flush

def deliver (reporter : LlmUsageReporter) (workspaceId : String) : LlmUsageReporter :=
  let record := reporter.next workspaceId
  let reporter := reporter.record options record
  { reporter with waiters := reporter.waiters ++ [record] }.flushSoon options

def settleWaiters (reporter : LlmUsageReporter) (batch unsettled : List LlmUsageRecord) :
    LlmUsageReporter :=
  let told := batch.filter fun record =>
    !unsettled.contains record && reporter.waiters.contains record
  { reporter with
    waiters := reporter.waiters.filter fun record => !told.contains record
    resolved := reporter.resolved ++ told.map fun record => (record, true) }

/-- The `try` of `flush` after its `await`, and its `catch`. -/
def settle (reporter : LlmUsageReporter) (response : FlushResponse)
    (batch : List LlmUsageRecord) : LlmUsageReporter :=
  let unsettled := response.unsettled batch
  let reporter :=
    { reporter with
      settled := reporter.settled ++ response.settledOf batch }.settleWaiters batch unsettled
  if response.settlesAll batch then
    { reporter with currentFlushIntervalMs := options.flushIntervalMs }
  else
    { reporter with
      queue := options.bounded (unsettled ++ reporter.queue)
      currentFlushIntervalMs := options.backedOff reporter.currentFlushIntervalMs
      timer := true }

/-- The `finally` of `flush`. -/
def finish (reporter : LlmUsageReporter) : LlmUsageReporter :=
  let reporter := { reporter with flushing := false }
  if reporter.flushAgain then
    let reporter := { reporter with flushAgain := false }
    if reporter.queue.isEmpty then reporter else reporter.flushSoon options
  else reporter

def responded (reporter : LlmUsageReporter) (response : FlushResponse) : LlmUsageReporter :=
  match reporter.inFlight with
  | [] => reporter
  | batch :: others =>
      ({ reporter with inFlight := others }.settle options response batch).finish options

def step (reporter : LlmUsageReporter) : UsageLabel → Option LlmUsageReporter
  | .records workspaceId => some (reporter.record options (reporter.next workspaceId))
  | .delivers workspaceId => some (reporter.deliver options workspaceId)
  | .deliverTimesOut record =>
      if record ∈ reporter.waiters then
        some
          { reporter with
            waiters := reporter.waiters.filter fun other => decide (other ≠ record)
            resolved := reporter.resolved ++ [(record, false)] }
      else none
  | .timerFires =>
      if reporter.timer then
        some { reporter with timer := false, fired := reporter.flushing }.flush
      else none
  | .responds response =>
      if reporter.inFlight = [] then none else some (reporter.responded options response)

def empty : LlmUsageReporter where
  queue := []
  inFlight := []
  flushing := false
  flushAgain := false
  timer := false
  currentFlushIntervalMs := options.flushIntervalMs
  waiters := []
  recorded := []
  settled := []
  resolved := []
  fired := false

def system : LabelledRun.System LlmUsageReporter UsageLabel where
  initial reporter := reporter = empty options
  step := step options

/-- The queue never exceeds its bound: nothing is dropped from it. -/
def withinBound (reporter : LlmUsageReporter) : UsageLabel → Prop
  | .records _ | .delivers _ => reporter.queue.length < options.maxQueueSize
  | .responds response => ∀ batch ∈ reporter.inFlight, response.settlesAll batch = true ∨
      (response.unsettled batch ++ reporter.queue).length ≤ options.maxQueueSize
  | _ => True

/-- A batch is settled whole only while no timer has fired into its flush since the last
record, or a deliver has asked for another. -/
def timely (reporter : LlmUsageReporter) : UsageLabel → Prop
  | .responds response => ∀ batch ∈ reporter.inFlight, response.settlesAll batch = true →
      reporter.fired = false ∨ reporter.flushAgain = true
  | _ => True

instance (reporter : LlmUsageReporter) (label : UsageLabel) :
    Decidable (reporter.withinBound options label) := by
  cases label <;> unfold withinBound <;> infer_instance

instance (reporter : LlmUsageReporter) (label : UsageLabel) :
    Decidable (reporter.timely label) := by
  cases label <;> unfold timely <;> infer_instance

/-- Every record stands in one place, a workspace's in order; a deliver is only told of a
settled record; one flush is in flight at most. -/
structure Reports (reporter : LlmUsageReporter) : Prop where
  placed : (reporter.settled ++ reporter.inFlight.flatten ++ reporter.queue).Perm
    reporter.recorded
  distinct : (reporter.settled ++ reporter.inFlight.flatten ++ reporter.queue).Nodup
  ordered : ∀ workspaceId,
    (reporter.settled ++ reporter.inFlight.flatten ++ reporter.queue).filter
        (fun record => decide (record.workspaceId = workspaceId)) =
      reporter.recorded.filter fun record => decide (record.workspaceId = workspaceId)
  told : ∀ record, (record, true) ∈ reporter.resolved → record ∈ reporter.settled
  once : reporter.inFlight.length ≤ 1

/-- What is queued is sent again. -/
def Rearmed (reporter : LlmUsageReporter) : Prop :=
  reporter.inFlight = [] → reporter.queue ≠ [] → reporter.timer = true

def ledger (reporter : LlmUsageReporter) : Outbox.Ledger LlmUsageRecord where
  recorded := reporter.recorded
  settled := reporter.settled
  flying := reporter.inFlight.flatten
  queued := reporter.queue

/-- One flush at a time, its flag and its batch together. -/
structure OneFlush (reporter : LlmUsageReporter) : Prop where
  once : reporter.inFlight.length ≤ 1
  flag : reporter.flushing = !reporter.inFlight.isEmpty

structure Keeps (reporter : LlmUsageReporter) : Prop where
  inOrder : reporter.ledger.InOrder LlmUsageRecord.workspaceId
  numbered : reporter.recorded.map LlmUsageRecord.ref = List.range reporter.recorded.length
  told : ∀ record, (record, true) ∈ reporter.resolved → record ∈ reporter.settled

/-- Behind a flush in flight the timer has fired, if it is not armed. -/
structure Armed (reporter : LlmUsageReporter) : Prop where
  resting : reporter.Rearmed
  flying : reporter.inFlight ≠ [] → reporter.queue ≠ [] →
    reporter.timer = true ∨ reporter.fired = true

variable {options : ReporterOptions} {reporter : LlmUsageReporter}

theorem Keeps.reports (keeps : reporter.Keeps) (one : reporter.OneFlush) : reporter.Reports where
  placed := keeps.inOrder.perm
  distinct := by
    apply keeps.inOrder.nodup
    apply List.Nodup.of_map LlmUsageRecord.ref
    change (reporter.recorded.map LlmUsageRecord.ref).Nodup
    rw [keeps.numbered]
    exact List.nodup_range
  ordered := keeps.inOrder
  told := keeps.told
  once := one.once

/-! ### One flush at a time -/

theorem OneFlush.grounded (one : reporter.OneFlush) (resting : reporter.flushing = false) :
    reporter.inFlight = [] := by
  have flag := one.flag
  rw [resting] at flag
  cases found : reporter.inFlight with
  | nil => rfl
  | cons batch others =>
      rw [found] at flag
      cases flag

theorem OneFlush.flies (one : reporter.OneFlush) (flushing : reporter.flushing = true) :
    reporter.inFlight ≠ [] := by
  intro landed
  have flag := one.flag
  rw [flushing, landed] at flag
  cases flag

theorem OneFlush.landed (one : reporter.OneFlush) {batch : List LlmUsageRecord}
    {others : List (List LlmUsageRecord)} (found : reporter.inFlight = batch :: others) :
    others = [] := by
  have once := one.once
  rw [found, List.length_cons] at once
  exact List.eq_nil_of_length_eq_zero (Nat.le_zero.mp (Nat.le_of_succ_le_succ once))

/-- What a flush does: nothing while one is in flight or nothing is queued. -/
theorem OneFlush.flush (one : reporter.OneFlush) :
    reporter.flush = reporter ∧ (reporter.flushing = true ∨ reporter.queue = []) ∨
      reporter.inFlight = [] ∧
        reporter.flush =
          { reporter with
            flushing := true, inFlight := [reporter.queue], queue := [], fired := false } := by
  unfold LlmUsageReporter.flush
  split
  next resting =>
    rw [Bool.or_eq_true, List.isEmpty_iff] at resting
    exact Or.inl ⟨rfl, resting⟩
  next enabled =>
    rw [Bool.or_eq_true, not_or] at enabled
    have grounded := one.grounded (Bool.eq_false_iff.mpr enabled.1)
    refine Or.inr ⟨grounded, ?_⟩
    rw [grounded, List.nil_append]

theorem OneFlush.flush_oneFlush (one : reporter.OneFlush) : reporter.flush.OneFlush := by
  rcases one.flush with ⟨same, _⟩ | ⟨_, taken⟩
  · rw [same]
    exact one
  · rw [taken]
    exact ⟨Nat.le_refl 1, rfl⟩

theorem OneFlush.flushSoon (one : reporter.OneFlush) : (reporter.flushSoon options).OneFlush := by
  unfold LlmUsageReporter.flushSoon
  split
  next => exact ⟨one.once, one.flag⟩
  next =>
    split
    next => exact one
    next =>
      have cleared : { reporter with timer := false }.OneFlush := ⟨one.once, one.flag⟩
      exact cleared.flush_oneFlush

/-- A deliver is told of its record when the batch is settled that carries it. -/
theorem settleWaiters_told {batch unsettled : List LlmUsageRecord} {record : LlmUsageRecord}
    (told : (record, true) ∈ (reporter.settleWaiters batch unsettled).resolved) :
    (record, true) ∈ reporter.resolved ∨ record ∈ batch ∧ record ∉ unsettled := by
  change (record, true) ∈ reporter.resolved ++ _ at told
  cases List.mem_append.mp told with
  | inl before => exact Or.inl before
  | inr now =>
      obtain ⟨other, member, same⟩ := List.mem_map.mp now
      cases same
      rw [List.mem_filter, Bool.and_eq_true, Bool.not_eq_true'] at member
      refine Or.inr ⟨member.1, fun unsettled' => ?_⟩
      rw [List.contains_iff_mem.mpr unsettled'] at member
      cases member.2.1

/-- The lists a batch is told apart into by the response. -/
theorem settled_of_not_unsettled {response : FlushResponse} {batch : List LlmUsageRecord}
    {record : LlmUsageRecord} (member : record ∈ batch)
    (done : record ∉ response.unsettled batch) :
    record ∈ response.settledOf batch := by
  rw [FlushResponse.unsettled_eq] at done
  rw [FlushResponse.settledOf, List.mem_filter]
  cases settled : response.settles record.workspaceId with
  | true => exact ⟨member, rfl⟩
  | false =>
      apply absurd _ done
      rw [List.mem_filter, settled]
      exact ⟨member, rfl⟩

theorem unsettled_of_settlesAll {response : FlushResponse} {batch : List LlmUsageRecord}
    (all : response.settlesAll batch = true) : response.unsettled batch = [] := by
  cases response with
  | fails => cases all
  | answers ok groups => exact List.isEmpty_iff.mp all

/-- What is left of a batch goes in front of the queue, unless nothing is left. -/
theorem settle_queue {response : FlushResponse} {batch : List LlmUsageRecord}
    (fits : response.settlesAll batch = true ∨
      (response.unsettled batch ++ reporter.queue).length ≤ options.maxQueueSize) :
    (reporter.settle options response batch).queue =
      response.unsettled batch ++ reporter.queue := by
  unfold LlmUsageReporter.settle
  cases all : response.settlesAll batch with
  | true =>
      rw [unsettled_of_settlesAll all, List.nil_append]
      rfl
  | false =>
      rw [all] at fits
      cases fits with
      | inl impossible => cases impossible
      | inr within => exact ReporterOptions.bounded_of_fits within

/-- The parts of a reporter a settled batch leaves alone. -/
theorem settle_rest (response : FlushResponse) (batch : List LlmUsageRecord) :
    (reporter.settle options response batch).inFlight = reporter.inFlight ∧
      (reporter.settle options response batch).recorded = reporter.recorded ∧
      (reporter.settle options response batch).settled =
        reporter.settled ++ response.settledOf batch ∧
      (reporter.settle options response batch).flushAgain = reporter.flushAgain ∧
      (reporter.settle options response batch).resolved =
        (reporter.settleWaiters batch (response.unsettled batch)).resolved := by
  unfold LlmUsageReporter.settle
  cases response.settlesAll batch with
  | true => exact ⟨rfl, rfl, rfl, rfl, rfl⟩
  | false => exact ⟨rfl, rfl, rfl, rfl, rfl⟩

/-- Behind a settled batch: the back-off is over, or a timer is armed. -/
theorem settle_timer (response : FlushResponse) (batch : List LlmUsageRecord) :
    (response.settlesAll batch = true ∧
        (reporter.settle options response batch).currentFlushIntervalMs =
          options.flushIntervalMs ∧
        (reporter.settle options response batch).timer = reporter.timer) ∨
      (reporter.settle options response batch).timer = true := by
  unfold LlmUsageReporter.settle
  cases response.settlesAll batch with
  | true => exact Or.inl ⟨rfl, rfl, rfl⟩
  | false => exact Or.inr rfl

/-- Nothing is in flight behind a response, until its `finally` has run. -/
theorem settled_oneFlush (response : FlushResponse) (batch : List LlmUsageRecord) :
    { ({ reporter with inFlight := [] }.settle options response batch) with
      flushing := false }.OneFlush := by
  have rest := @settle_rest options { reporter with inFlight := [] } response batch
  constructor
  · change (LlmUsageReporter.settle _ _ _ _).inFlight.length ≤ 1
    rw [rest.1]
    exact Nat.zero_le 1
  · change false = !(LlmUsageReporter.settle _ _ _ _).inFlight.isEmpty
    rw [rest.1]
    rfl

theorem OneFlush.finish (one : { reporter with flushing := false }.OneFlush) :
    (reporter.finish options).OneFlush := by
  unfold LlmUsageReporter.finish
  dsimp only
  split
  next =>
    have quiet : { reporter with flushing := false, flushAgain := false }.OneFlush :=
      ⟨one.once, one.flag⟩
    split
    next => exact quiet
    next => exact quiet.flushSoon
  next => exact one

theorem step_oneFlush {next : LlmUsageReporter} {label : UsageLabel} (one : reporter.OneFlush)
    (moved : step options reporter label = some next) : next.OneFlush := by
  cases label with
  | records workspaceId =>
      cases moved
      exact ⟨one.once, one.flag⟩
  | delivers workspaceId =>
      cases moved
      apply OneFlush.flushSoon
      exact ⟨one.once, one.flag⟩
  | deliverTimesOut record =>
      simp only [step] at moved
      split at moved
      next =>
        cases moved
        exact ⟨one.once, one.flag⟩
      next => cases moved
  | timerFires =>
      simp only [step] at moved
      split at moved
      next =>
        cases moved
        apply OneFlush.flush_oneFlush
        exact ⟨one.once, one.flag⟩
      next => cases moved
  | responds response =>
      simp only [step] at moved
      split at moved
      next => cases moved
      next =>
        cases moved
        unfold responded
        cases found : reporter.inFlight with
        | nil => exact one
        | cons batch others =>
            have last := one.landed found
            subst last
            exact (settled_oneFlush response batch).finish

/-! ### Nothing is lost -/

theorem Keeps.flush (keeps : reporter.Keeps) (one : reporter.OneFlush) :
    reporter.flush.Keeps := by
  rcases one.flush with ⟨same, _⟩ | ⟨grounded, taken⟩
  · rw [same]
    exact keeps
  · rw [taken]
    refine ⟨?_, keeps.numbered, keeps.told⟩
    have moved := keeps.inOrder.take (by rw [ledger, grounded]; rfl)
    unfold ledger at moved ⊢
    simp only [List.flatten_cons, List.flatten_nil, List.append_nil]
    exact moved

theorem Keeps.flushSoon (keeps : reporter.Keeps) (one : reporter.OneFlush) :
    (reporter.flushSoon options).Keeps := by
  unfold LlmUsageReporter.flushSoon
  split
  next => exact ⟨keeps.inOrder, keeps.numbered, keeps.told⟩
  next =>
    split
    next => exact keeps
    next =>
      have cleared : { reporter with timer := false }.Keeps :=
        ⟨keeps.inOrder, keeps.numbered, keeps.told⟩
      exact cleared.flush ⟨one.once, one.flag⟩

theorem Keeps.record (keeps : reporter.Keeps) (workspaceId : String)
    (room : reporter.queue.length < options.maxQueueSize) :
    (reporter.record options (reporter.next workspaceId)).Keeps := by
  rw [LlmUsageReporter.record, if_neg (Nat.not_le.mpr room)]
  refine ⟨keeps.inOrder.record (reporter.next workspaceId), ?_, keeps.told⟩
  rw [List.map_append, keeps.numbered, List.length_append, List.length_singleton,
    List.range_succ]
  rfl

theorem Keeps.settle (keeps : reporter.Keeps) {response : FlushResponse}
    {batch : List LlmUsageRecord} (found : reporter.inFlight = [batch])
    (fits : response.settlesAll batch = true ∨
      (response.unsettled batch ++ reporter.queue).length ≤ options.maxQueueSize) :
    { ({ reporter with inFlight := [] }.settle options response batch) with
      flushing := false }.Keeps := by
  have rest := @settle_rest options { reporter with inFlight := [] } response batch
  have queue := @settle_queue options { reporter with inFlight := [] } response batch fits
  obtain ⟨inFlight, recorded, settled, _, resolved⟩ := rest
  refine ⟨?_, ?_, ?_⟩
  · have moved := keeps.inOrder.settle response.settles
    have flying : reporter.ledger.flying = batch := by
      rw [ledger, found]
      exact List.append_nil batch
    rw [flying, ← FlushResponse.unsettled_eq] at moved
    unfold ledger at moved ⊢
    rw [queue, inFlight, recorded, settled]
    exact moved
  · change (LlmUsageReporter.settle _ _ _ _).recorded.map _ =
      List.range (LlmUsageReporter.settle _ _ _ _).recorded.length
    rw [recorded]
    exact keeps.numbered
  · intro record told
    change (record, true) ∈ (LlmUsageReporter.settle _ _ _ _).resolved at told
    change record ∈ (LlmUsageReporter.settle _ _ _ _).settled
    rw [resolved] at told
    rw [settled, List.mem_append]
    cases settleWaiters_told told with
    | inl before => exact Or.inl (keeps.told record before)
    | inr now => exact Or.inr (settled_of_not_unsettled now.1 now.2)

/-- The `finally`: a deliver that asked for another flush gets it. -/
theorem Keeps.finish (keeps : { reporter with flushing := false }.Keeps)
    (one : { reporter with flushing := false }.OneFlush) : (reporter.finish options).Keeps := by
  unfold LlmUsageReporter.finish
  dsimp only
  split
  next =>
    have quiet : { reporter with flushing := false, flushAgain := false }.Keeps :=
      ⟨keeps.inOrder, keeps.numbered, keeps.told⟩
    split
    next => exact quiet
    next => exact quiet.flushSoon ⟨one.once, one.flag⟩
  next => exact keeps

theorem step_keeps {next : LlmUsageReporter} {label : UsageLabel} (one : reporter.OneFlush)
    (keeps : reporter.Keeps) (within : reporter.withinBound options label)
    (moved : step options reporter label = some next) : next.Keeps := by
  cases label with
  | records workspaceId =>
      cases moved
      exact keeps.record workspaceId within
  | delivers workspaceId =>
      cases moved
      have recorded := keeps.record workspaceId within
      apply Keeps.flushSoon
      · exact ⟨recorded.inOrder, recorded.numbered, recorded.told⟩
      · exact ⟨one.once, one.flag⟩
  | deliverTimesOut record =>
      simp only [step] at moved
      split at moved
      next =>
        cases moved
        refine ⟨keeps.inOrder, keeps.numbered, ?_⟩
        intro other told
        cases List.mem_append.mp told with
        | inl before => exact keeps.told other before
        | inr now => cases List.mem_singleton.mp now
      next => cases moved
  | timerFires =>
      simp only [step] at moved
      split at moved
      next =>
        cases moved
        apply Keeps.flush
        · exact ⟨keeps.inOrder, keeps.numbered, keeps.told⟩
        · exact ⟨one.once, one.flag⟩
      next => cases moved
  | responds response =>
      simp only [step] at moved
      split at moved
      next => cases moved
      next =>
        cases moved
        unfold responded
        cases found : reporter.inFlight with
        | nil => exact keeps
        | cons batch others =>
            have last := one.landed found
            subst last
            have fits := within batch (found ▸ List.mem_cons_self)
            exact (keeps.settle found fits).finish (settled_oneFlush response batch)

/-! ### What is queued is sent again -/

/-- A flush takes what is queued, or one is in flight already. -/
theorem OneFlush.flush_armed (one : reporter.OneFlush)
    (known : reporter.flushing = true → reporter.timer = true ∨ reporter.fired = true) :
    reporter.flush.Armed := by
  rcases one.flush with ⟨same, flushing | nothing⟩ | ⟨_, taken⟩
  · rw [same]
    exact ⟨fun landed => absurd landed (one.flies flushing), fun _ _ => known flushing⟩
  · rw [same]
    exact ⟨fun _ queued => absurd nothing queued, fun _ queued => absurd nothing queued⟩
  · rw [taken]
    exact ⟨fun _ queued => absurd rfl queued, fun _ queued => absurd rfl queued⟩

/-- `flushSoon` leaves the timer armed where it backs off, and flushes otherwise. -/
theorem OneFlush.flushSoon_armed (one : reporter.OneFlush)
    (flushing : reporter.flushing = true → reporter.timer = true ∨ reporter.fired = true)
    (backingOff : options.flushIntervalMs < reporter.currentFlushIntervalMs →
      reporter.timer = true) :
    (reporter.flushSoon options).Armed := by
  unfold LlmUsageReporter.flushSoon
  split
  next flies =>
    exact ⟨fun landed => absurd landed (one.flies flies), fun _ _ => flushing flies⟩
  next resting =>
    split
    next backs =>
      exact ⟨fun _ _ => backingOff backs, fun _ _ => Or.inl (backingOff backs)⟩
    next =>
      have cleared : { reporter with timer := false }.OneFlush := ⟨one.once, one.flag⟩
      exact cleared.flush_armed fun flies => absurd flies resting

theorem OneFlush.finish_armed (one : { reporter with flushing := false }.OneFlush)
    (armed : reporter.flushAgain = false → reporter.queue ≠ [] → reporter.timer = true)
    (backingOff : options.flushIntervalMs < reporter.currentFlushIntervalMs →
      reporter.timer = true) :
    (reporter.finish options).Armed := by
  unfold LlmUsageReporter.finish
  dsimp only
  split
  next =>
    have quiet : { reporter with flushing := false, flushAgain := false }.OneFlush :=
      ⟨one.once, one.flag⟩
    split
    next nothing =>
      have none := List.isEmpty_iff.mp nothing
      exact ⟨fun _ queued => absurd none queued, fun _ queued => absurd none queued⟩
    next =>
      apply quiet.flushSoon_armed
      · intro impossible
        cases impossible
      · exact backingOff
  next quiet =>
    have never := Bool.eq_false_iff.mpr quiet
    exact ⟨fun _ queued => armed never queued, fun _ queued => Or.inl (armed never queued)⟩

theorem responded_armed (armed : reporter.Armed)
    {response : FlushResponse} (timely : reporter.timely (.responds response))
    {batch : List LlmUsageRecord} (found : reporter.inFlight = [batch]) :
    (({ reporter with inFlight := [] }.settle options response batch).finish options).Armed := by
  have timer := @settle_timer options { reporter with inFlight := [] } response batch
  have rest := @settle_rest options { reporter with inFlight := [] } response batch
  apply (@settled_oneFlush options reporter response batch).finish_armed
  · intro quiet queued
    rw [rest.2.2.2.1] at quiet
    cases timer with
    | inr armed => exact armed
    | inl settled =>
        obtain ⟨all, _, same⟩ := settled
        rw [settle_queue (Or.inl all), unsettled_of_settlesAll all, List.nil_append] at queued
        have flies : reporter.inFlight ≠ [] := by
          rw [found]
          exact List.cons_ne_nil _ _
        rw [same]
        cases armed.flying flies queued with
        | inl still => exact still
        | inr fired =>
            cases timely batch (found ▸ List.mem_cons_self) all with
            | inl unfired =>
                rw [unfired] at fired
                cases fired
            | inr asked =>
                rw [show reporter.flushAgain = false from quiet] at asked
                cases asked
  · intro backingOff
    cases timer with
    | inr armed => exact armed
    | inl settled =>
        rw [settled.2.1] at backingOff
        exact absurd backingOff (Nat.lt_irrefl _)

theorem step_armed {next : LlmUsageReporter} {label : UsageLabel} (one : reporter.OneFlush)
    (armed : reporter.Armed) (timely : reporter.timely label)
    (moved : step options reporter label = some next) : next.Armed := by
  cases label with
  | records workspaceId =>
      cases moved
      exact ⟨fun _ _ => rfl, fun _ _ => Or.inl rfl⟩
  | delivers workspaceId =>
      cases moved
      apply OneFlush.flushSoon_armed
      · exact ⟨one.once, one.flag⟩
      · exact fun _ => Or.inl rfl
      · exact fun _ => rfl
  | deliverTimesOut record =>
      simp only [step] at moved
      split at moved
      next =>
        cases moved
        exact ⟨armed.resting, armed.flying⟩
      next => cases moved
  | timerFires =>
      simp only [step] at moved
      split at moved
      next =>
        cases moved
        apply OneFlush.flush_armed
        · exact ⟨one.once, one.flag⟩
        · exact Or.inr
      next => cases moved
  | responds response =>
      simp only [step] at moved
      split at moved
      next => cases moved
      next flies =>
        cases moved
        unfold responded
        cases found : reporter.inFlight with
        | nil => exact absurd found flies
        | cons batch others =>
            have last := one.landed found
            subst last
            exact responded_armed armed timely found

/-! ### Every run -/

theorem empty_oneFlush : (empty options).OneFlush := ⟨Nat.zero_le 1, rfl⟩

theorem run_reports {start final : LlmUsageReporter} {labels : List UsageLabel}
    (started : (system options).initial start)
    (within : (system options).Allowed (withinBound options) start labels)
    (ran : (system options).run start labels = some final) : final.Reports := by
  have preserved : (system options).PreservedWhen (withinBound options)
      fun reporter => reporter.OneFlush ∧ reporter.Keeps :=
    fun _ _ _ holds within moved =>
      ⟨step_oneFlush holds.1 moved, step_keeps holds.1 holds.2 within moved⟩
  have established : start.OneFlush ∧ start.Keeps := by
    cases started
    refine ⟨empty_oneFlush, fun _ => rfl, rfl, fun record told => ?_⟩
    cases told
  have holds := (system options).run_preserves_when preserved established within ran
  exact holds.2.reports holds.1

theorem run_rearmed {start final : LlmUsageReporter} {labels : List UsageLabel}
    (started : (system options).initial start)
    (inTime : (system options).Allowed timely start labels)
    (ran : (system options).run start labels = some final) : final.Rearmed := by
  have preserved : (system options).PreservedWhen timely
      fun reporter => reporter.OneFlush ∧ reporter.Armed :=
    fun _ _ _ holds timely moved =>
      ⟨step_oneFlush holds.1 moved, step_armed holds.1 holds.2 timely moved⟩
  have established : start.OneFlush ∧ start.Armed := by
    cases started
    exact ⟨empty_oneFlush, fun _ queued => absurd rfl queued, fun _ queued => absurd rfl queued⟩
  exact ((system options).run_preserves_when preserved established inTime ran).2.resting

end LlmUsageReporter

/-! ### Both reporters -/

/-- What the bound on the queue is enough for, and what needs the timers to fire in time. -/
theorem reporting_strands_nothing (options : ReporterOptions) :
    (∀ labels final,
      (LlmUsageReporter.system options).run (LlmUsageReporter.empty options) labels =
        some final →
      ((LlmUsageReporter.system options).Allowed (LlmUsageReporter.withinBound options)
        (LlmUsageReporter.empty options) labels → final.Reports) ∧
      ((LlmUsageReporter.system options).Allowed LlmUsageReporter.timely
        (LlmUsageReporter.empty options) labels → final.Rearmed)) ∧
      ∀ labels final,
        (EgressReporter.system options).run (EgressReporter.empty options) labels =
          some final →
        ((EgressReporter.system options).Allowed (EgressReporter.withinBound options)
          (EgressReporter.empty options) labels → final.Reports) ∧
        ((EgressReporter.system options).Allowed EgressReporter.timely
          (EgressReporter.empty options) labels → final.Rearmed) := by
  constructor
  · intro labels final ran
    constructor
    · intro within
      exact LlmUsageReporter.run_reports rfl within ran
    · intro inTime
      exact LlmUsageReporter.run_rearmed rfl inTime ran
  · intro labels final ran
    constructor
    · intro within
      exact EgressReporter.run_reports rfl within ran
    · intro inTime
      exact EgressReporter.run_rearmed rfl inTime ran

/-- Two workspaces, of which the kernel settles one and then the other. The timer fires into
the first flush, and a deliver has asked for another. -/
def partlySettled : List UsageLabel :=
  [.records "w", .timerFires, .delivers "v", .timerFires, .responds (.answers false (some
      [{ workspaceId := "w", outcome := .retry }])), .records "w", .timerFires,
    .responds (.answers false (some
      [{ workspaceId := "w", outcome := .retry }, { workspaceId := "v", outcome := .recorded }]))]

/-- The timer fires into a flush, and another record arms it again. -/
def recordedAgain : List EgressLabel :=
  [.records, .timerFires, .records, .timerFires, .records, .responds true]

theorem reporting_strands_nothing_partly :
    (∃ final, (LlmUsageReporter.system .default).run (LlmUsageReporter.empty .default)
        partlySettled = some final ∧ final.Reports ∧ final.Rearmed ∧ final.queue.length = 2) ∧
      ∃ final, (EgressReporter.system .default).run (EgressReporter.empty .default)
        recordedAgain = some final ∧ final.Reports ∧ final.Rearmed ∧
        final.queue.length = 2 := by
  constructor
  · have ends : ((LlmUsageReporter.system .default).run (LlmUsageReporter.empty .default)
        partlySettled).any (fun final => decide (final.queue.length = 2)) = true := by
      decide +kernel
    obtain ⟨final, ran, queued⟩ := (Option.any_eq_true _ _).mp ends
    have both := (reporting_strands_nothing .default).1 _ _ ran
    exact ⟨final, ran, both.1 (by decide +kernel), both.2 (by decide +kernel),
      of_decide_eq_true queued⟩
  · have ends : ((EgressReporter.system .default).run (EgressReporter.empty .default)
        recordedAgain).any (fun final => decide (final.queue.length = 2)) = true := by
      decide +kernel
    obtain ⟨final, ran, queued⟩ := (Option.any_eq_true _ _).mp ends
    have both := (reporting_strands_nothing .default).2 _ _ ran
    exact ⟨final, ran, both.1 (by decide +kernel), both.2 (by decide +kernel),
      of_decide_eq_true queued⟩

/-- Recorded while a flush is in flight whose timer fires before the answer. -/
def lateUsage : List UsageLabel :=
  [.records "w", .timerFires, .records "w", .timerFires, .responds (.answers true none)]

def lateEgress : List EgressLabel :=
  [.records, .timerFires, .records, .timerFires, .responds true]

/-- Far from the bound: queued, no flush in flight, and no timer armed. -/
theorem reporting_strands_record :
    ((LlmUsageReporter.system .default).Allowed (LlmUsageReporter.withinBound .default)
        (LlmUsageReporter.empty .default) lateUsage ∧
      ∃ final, (LlmUsageReporter.system .default).run (LlmUsageReporter.empty .default)
          lateUsage = some final ∧
        final.inFlight = [] ∧ final.queue ≠ [] ∧ final.timer = false ∧ ¬ final.Rearmed) ∧
      (EgressReporter.system .default).Allowed (EgressReporter.withinBound .default)
          (EgressReporter.empty .default) lateEgress ∧
        ∃ final, (EgressReporter.system .default).run (EgressReporter.empty .default)
            lateEgress = some final ∧
          final.inFlight = [] ∧ final.queue ≠ [] ∧ final.timer = false ∧ ¬ final.Rearmed := by
  constructor
  · refine ⟨by decide +kernel, ?_⟩
    have ends : ((LlmUsageReporter.system .default).run (LlmUsageReporter.empty .default)
        lateUsage).any (fun final =>
          decide (final.inFlight = [] ∧ final.queue ≠ [] ∧ final.timer = false)) = true := by
      decide +kernel
    obtain ⟨final, ran, stranded⟩ := (Option.any_eq_true _ _).mp ends
    obtain ⟨landed, queued, disarmed⟩ := of_decide_eq_true stranded
    refine ⟨final, ran, landed, queued, disarmed, fun rearmed => ?_⟩
    rw [rearmed landed queued] at disarmed
    cases disarmed
  · refine ⟨by decide +kernel, ?_⟩
    have ends : ((EgressReporter.system .default).run (EgressReporter.empty .default)
        lateEgress).any (fun final =>
          decide (final.inFlight = [] ∧ final.queue ≠ [] ∧ final.timer = false)) = true := by
      decide +kernel
    obtain ⟨final, ran, stranded⟩ := (Option.any_eq_true _ _).mp ends
    obtain ⟨landed, queued, disarmed⟩ := of_decide_eq_true stranded
    refine ⟨final, ran, landed, queued, disarmed, fun rearmed => ?_⟩
    rw [rearmed landed queued] at disarmed
    cases disarmed

end NextTime.Reporting
