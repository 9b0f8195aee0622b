import NextTime.HostBridge.AgentHostRuntime

/-
One end for every Turn, and nothing after it. A Turn is untouched, live or over;
a live Turn ends once, and only its last event ends it. Three things disturb
this: a restarted agent-host, or a frame that ends the Turn, while the Turn is
still being prepared or between a failed accept wait and what follows it. A stop
that was forgotten before the Turn started is the fourth.
-/

namespace NextTime.HostBridge

/-! ### Events and what may follow them -/

/-- Only the last of the events may end the Turn. -/
def OnlyLastEnds (events : List RuntimeEvent) : Prop :=
  events.Pairwise fun earlier _ => earlier.ends = false

theorem OnlyLastEnds.of_quiet {events : List RuntimeEvent}
    (quiet : ∀ event ∈ events, event.ends = false) : OnlyLastEnds events := by
  induction events with
  | nil => exact List.Pairwise.nil
  | cons event events ih =>
      apply List.Pairwise.cons
      · intro later _
        exact quiet event List.mem_cons_self
      · exact ih fun other member => quiet other (List.mem_cons_of_mem _ member)

theorem OnlyLastEnds.of_last {events : List RuntimeEvent} (last : RuntimeEvent)
    (quiet : ∀ event ∈ events, event.ends = false) : OnlyLastEnds (events ++ [last]) := by
  apply List.pairwise_append.mpr
  refine ⟨OnlyLastEnds.of_quiet quiet, List.pairwise_singleton _ _, ?_⟩
  intro earlier member _ _
  exact quiet earlier member

theorem OnlyLastEnds.ends_le_one {events : List RuntimeEvent} (only : OnlyLastEnds events) :
    (events.filter RuntimeEvent.ends).length ≤ 1 := by
  induction events with
  | nil => exact Nat.zero_le 1
  | cons event events ih =>
      obtain ⟨first, later⟩ := List.pairwise_cons.mp only
      by_cases ended : event.ends = true
      · cases events with
        | nil => exact List.length_filter_le _ _
        | cons next _ =>
            rw [first next List.mem_cons_self] at ended
            cases ended
      · rw [List.filter_cons_of_neg ended]
        exact ih later

namespace TurnHappening

def handedEvent : TurnHappening → Option RuntimeEvent
  | .handed event => some event
  | _ => none

/-- After a `turnEnded` was handed over, no event and no `startTurn` frame. -/
def EndIsLast (earlier later : TurnHappening) : Prop :=
  ∀ event, earlier = .handed event → event.ends = true →
    later.handedEvent = none ∧ later ≠ .startSent

/-- After a stop was asked for, no `startTurn` frame. -/
def NoStartAfterStop (earlier later : TurnHappening) : Prop :=
  earlier = .stopAsked → later ≠ .startSent

end TurnHappening

open TurnHappening

theorem pairwise_snoc {relation : TurnHappening → TurnHappening → Prop}
    {log : List TurnHappening} {last : TurnHappening} (before : log.Pairwise relation)
    (fits : ∀ earlier ∈ log, relation earlier last) : (log ++ [last]).Pairwise relation := by
  apply List.pairwise_append.mpr
  refine ⟨before, List.pairwise_singleton _ _, ?_⟩
  intro earlier member later single
  rw [List.mem_singleton.mp single]
  exact fits earlier member

namespace Turn

/-- The Turn's events, those handed to the sink and those on their way to it. -/
def stream (turn : Turn) : List RuntimeEvent :=
  turn.log.filterMap handedEvent ++ turn.sinkChain

def ends (turn : Turn) : Nat :=
  (turn.stream.filter RuntimeEvent.ends).length

/-- Nothing of the Turn is under way that reports its end by itself. -/
def Steady (turn : Turn) : Prop :=
  turn.tracked = true →
    turn.preparing = false ∧ turn.wait ≠ some .refused ∧ turn.wait ≠ some .timedOut

instance (turn : Turn) : Decidable turn.Steady :=
  inferInstanceAs (Decidable (_ → _))

/-- What a step does to one Turn, the calls of `startTurn` and `stopTurn` apart. -/
inductive Changes (turn : Turn) : Turn → Prop
  | stays : Changes turn turn
  | prepareFails (preparing : turn.preparing = true) : Changes turn turn.prepareFails
  | launches (connected sendFails : Bool) (preparing : turn.preparing = true) :
      Changes turn (turn.launch connected sendFails)
  | resolves (outcome : AcceptOutcome) (early : outcome ≠ .alreadyEnded) :
      Changes turn (turn.resolvePendingAccept outcome)
  | continues (outcome : AcceptOutcome) (connected : Bool) (resolved : turn.wait = some outcome) :
      Changes turn (turn.continueAccept outcome connected)
  | turnUnknown (steady : turn.sent = true → turn.Steady) : Changes turn turn.handleTurnUnknown
  | runtimeEvent (event : RuntimeEvent) (steady : event.ends = true → turn.Steady) :
      Changes turn (turn.handleRuntimeEvent event)
  | repeatsStop (connected : Bool) : Changes turn (turn.repeatStop connected)
  | abandoned (steady : turn.Steady) : Changes turn turn.abandon
  | sinks (event : RuntimeEvent) (later : List RuntimeEvent)
      (chained : turn.sinkChain = event :: later) :
      Changes turn
        { turn with sinkChain := later, log := turn.log ++ [TurnHappening.handed event] }

/-- What one step of the runtime does to one Turn. -/
inductive Moves (turn : Turn) : Turn → Prop
  | starts (stoppedBefore connected : Bool) (uncalled : turn.called = false) :
      Moves turn (turn.start stoppedBefore connected)
  | stops (connected : Bool) : Moves turn (turn.stop connected)
  | changes {next : Turn} (change : turn.Changes next) : Moves turn next

/-! ### The phases of a Turn -/

/-- Not called yet, or called after it was stopped. -/
structure Untouched (turn : Turn) : Prop where
  kept : turn.called = true → turn.skipped = true
  untracked : turn.tracked = false
  unprepared : turn.preparing = false
  unasked : turn.pending = false
  unwaited : turn.wait = none
  silent : turn.stream = []

structure Live (turn : Turn) : Prop where
  called : turn.called = true
  tracked : turn.tracked = true
  quiet : ∀ event ∈ turn.stream, event.ends = false
  preparing : turn.preparing = true → turn.sent = false ∧ turn.pending = false ∧ turn.wait = none
  launched : turn.preparing = false → turn.sent = true
  waiting : turn.pending = true → turn.wait = none
  alive : turn.wait ≠ some .alreadyEnded

structure Over (turn : Turn) : Prop where
  called : turn.called = true
  untracked : turn.tracked = false
  unprepared : turn.preparing = false
  unasked : turn.pending = false
  settled : turn.wait ≠ some .refused ∧ turn.wait ≠ some .timedOut
  closed : OnlyLastEnds turn.stream
  ended : ∃ event ∈ turn.stream, event.ends = true

structure Holds (turn : Turn) : Prop where
  phase : turn.Untouched ∨ turn.Live ∨ turn.Over
  order : turn.log.Pairwise EndIsLast

/-! ### What the parts of a step keep -/

theorem stream_sinkInOrder (turn : Turn) (event : RuntimeEvent) :
    (turn.sinkInOrder event).stream = turn.stream ++ [event] := by
  simp only [stream, sinkInOrder, List.append_assoc]

/-- What is neither an event nor a frame of its own leaves the stream alone. -/
theorem stream_log (turn : Turn) (happening : TurnHappening)
    (other : happening.handedEvent = none) :
    ({ turn with log := turn.log ++ [happening] } : Turn).stream = turn.stream := by
  simp only [stream, List.filterMap_append, List.filterMap_cons, other, List.filterMap_nil,
    List.append_nil]

theorem sendStopFrame_cases (turn : Turn) (connected : Bool) :
    turn.sendStopFrame connected = turn ∨
      turn.sendStopFrame connected = { turn with log := turn.log ++ [.stopSent] } := by
  cases connected with
  | true => exact Or.inr rfl
  | false => exact Or.inl rfl

theorem Untouched.logs {turn : Turn} (untouched : turn.Untouched) (happening : TurnHappening)
    (other : happening.handedEvent = none) :
    ({ turn with log := turn.log ++ [happening] } : Turn).Untouched where
  kept := untouched.kept
  untracked := untouched.untracked
  unprepared := untouched.unprepared
  unasked := untouched.unasked
  unwaited := untouched.unwaited
  silent := (stream_log turn happening other).trans untouched.silent

theorem Live.logs {turn : Turn} (live : turn.Live) (happening : TurnHappening)
    (other : happening.handedEvent = none) :
    ({ turn with log := turn.log ++ [happening] } : Turn).Live where
  called := live.called
  tracked := live.tracked
  quiet := by rw [stream_log turn happening other]; exact live.quiet
  preparing := live.preparing
  launched := live.launched
  waiting := live.waiting
  alive := live.alive

theorem Over.logs {turn : Turn} (past : turn.Over) (happening : TurnHappening)
    (other : happening.handedEvent = none) :
    ({ turn with log := turn.log ++ [happening] } : Turn).Over where
  called := past.called
  untracked := past.untracked
  unprepared := past.unprepared
  unasked := past.unasked
  settled := past.settled
  closed := by rw [stream_log turn happening other]; exact past.closed
  ended := by rw [stream_log turn happening other]; exact past.ended

theorem Live.sendStopFrame {turn : Turn} (live : turn.Live) (connected : Bool) :
    (turn.sendStopFrame connected).Live := by
  cases turn.sendStopFrame_cases connected with
  | inl same => rw [same]; exact live
  | inr sent => rw [sent]; exact live.logs .stopSent rfl

theorem stream_sinks {turn : Turn} {event : RuntimeEvent} {later : List RuntimeEvent}
    (chained : turn.sinkChain = event :: later) :
    ({ turn with sinkChain := later, log := turn.log ++ [TurnHappening.handed event] } :
      Turn).stream = turn.stream := by
  simp only [stream, chained, List.filterMap_append, List.filterMap_cons, List.filterMap_nil,
    handedEvent, List.append_assoc, List.singleton_append]

/-- Handing an event over moves it along the stream, no more. -/
theorem Live.sinks {turn : Turn} (live : turn.Live) {event : RuntimeEvent}
    {later : List RuntimeEvent} (chained : turn.sinkChain = event :: later) :
    ({ turn with sinkChain := later, log := turn.log ++ [TurnHappening.handed event] } :
      Turn).Live where
  called := live.called
  tracked := live.tracked
  quiet := by rw [stream_sinks chained]; exact live.quiet
  preparing := live.preparing
  launched := live.launched
  waiting := live.waiting
  alive := live.alive

theorem Over.sinks {turn : Turn} (past : turn.Over) {event : RuntimeEvent}
    {later : List RuntimeEvent} (chained : turn.sinkChain = event :: later) :
    ({ turn with sinkChain := later, log := turn.log ++ [TurnHappening.handed event] } :
      Turn).Over where
  called := past.called
  untracked := past.untracked
  unprepared := past.unprepared
  unasked := past.unasked
  settled := past.settled
  closed := by rw [stream_sinks chained]; exact past.closed
  ended := by rw [stream_sinks chained]; exact past.ended

/-- A live Turn that is untracked with its end reported is over. -/
theorem Live.becomesOver {turn next : Turn} (live : turn.Live) (event : RuntimeEvent)
    (ended : event.ends = true) (reported : next.stream = turn.stream ++ [event])
    (called : next.called = turn.called) (untracked : next.tracked = false)
    (unprepared : next.preparing = false) (unasked : next.pending = false)
    (settled : next.wait ≠ some .refused ∧ next.wait ≠ some .timedOut) : next.Over where
  called := called.trans live.called
  untracked := untracked
  unprepared := unprepared
  unasked := unasked
  settled := settled
  closed := by
    rw [reported]
    exact OnlyLastEnds.of_last event live.quiet
  ended := by
    rw [reported]
    exact ⟨event, List.mem_append_right _ (List.mem_singleton.mpr rfl), ended⟩

/-! ### One step of an untouched Turn -/

theorem Untouched.starts {turn : Turn} (untouched : turn.Untouched) (stoppedBefore connected : Bool) :
    (turn.start stoppedBefore connected).Untouched ∨ (turn.start stoppedBefore connected).Live ∨
      (turn.start stoppedBefore connected).Over := by
  have silent : turn.stream = [] := untouched.silent
  cases stoppedBefore with
  | true =>
      left
      exact ⟨fun _ => rfl, untouched.untracked, untouched.unprepared, untouched.unasked,
        untouched.unwaited, silent⟩
  | false =>
      cases connected with
      | true =>
          right; left
          have quiet : ∀ event ∈ turn.stream, event.ends = false := by
            rw [silent]
            intro event member
            cases member
          exact
            { called := rfl
              tracked := rfl
              quiet := quiet
              preparing := fun _ => ⟨rfl, untouched.unasked, untouched.unwaited⟩
              launched := fun launched => nomatch launched
              waiting := fun _ => untouched.unwaited
              alive := by
                change turn.wait ≠ some .alreadyEnded
                rw [untouched.unwaited]
                exact fun same => nomatch same }
      | false =>
          right; right
          have reported : (turn.start false false).stream = [.turnEnded .failed] := by
            have ended := stream_sinkInOrder { turn with called := true, tracked := false }
              (.turnEnded .failed)
            change _ = turn.stream ++ _ at ended
            rw [silent] at ended
            exact ended
          exact
            { called := rfl
              untracked := rfl
              unprepared := untouched.unprepared
              unasked := untouched.unasked
              settled := by
                change turn.wait ≠ some .refused ∧ turn.wait ≠ some .timedOut
                rw [untouched.unwaited]
                exact ⟨fun same => (nomatch same), fun same => (nomatch same)⟩
              closed := by
                rw [reported]
                exact List.pairwise_singleton _ _
              ended := by
                rw [reported]
                exact ⟨_, List.mem_singleton.mpr rfl, rfl⟩ }

theorem Untouched.changes {turn next : Turn} (untouched : turn.Untouched)
    (change : turn.Changes next) : next.Untouched := by
  cases change with
  | stays => exact untouched
  | prepareFails preparing => rw [untouched.unprepared] at preparing; cases preparing
  | launches _ _ preparing => rw [untouched.unprepared] at preparing; cases preparing
  | resolves outcome _ =>
      rw [resolvePendingAccept, untouched.unasked]
      exact untouched
  | continues outcome _ resolved => rw [untouched.unwaited] at resolved; cases resolved
  | turnUnknown _ =>
      rw [handleTurnUnknown, untouched.untracked]
      exact untouched
  | runtimeEvent event _ =>
      rw [handleRuntimeEvent, untouched.untracked]
      exact untouched
  | repeatsStop connected =>
      rw [repeatStop, untouched.untracked]
      exact untouched
  | abandoned _ =>
      rw [abandon, untouched.unasked, untouched.untracked]
      exact untouched
  | sinks event later chained =>
      have silent : turn.stream = [] := untouched.silent
      rw [stream, List.append_eq_nil_iff, chained] at silent
      cases silent.2

theorem Untouched.move {turn next : Turn} (untouched : turn.Untouched)
    (moves : turn.Moves next) : next.Untouched ∨ next.Live ∨ next.Over := by
  cases moves with
  | starts stoppedBefore connected _ => exact untouched.starts stoppedBefore connected
  | stops connected =>
      left
      rw [stop, if_neg (by rw [untouched.untracked]; exact Bool.false_ne_true)]
      exact untouched.logs .stopAsked rfl
  | changes change => exact Or.inl (untouched.changes change)

/-! ### One step of a Turn that is over -/

theorem Over.changes {turn next : Turn} (past : turn.Over) (change : turn.Changes next) :
    next.Over := by
  cases change with
  | stays => exact past
  | prepareFails preparing => rw [past.unprepared] at preparing; cases preparing
  | launches _ _ preparing => rw [past.unprepared] at preparing; cases preparing
  | resolves outcome _ =>
      rw [resolvePendingAccept, past.unasked]
      exact past
  | continues outcome connected resolved =>
      have resting : ({ turn with wait := none } : Turn).Over :=
        { past with settled := ⟨fun same => (nomatch same), fun same => (nomatch same)⟩ }
      cases outcome with
      | accepted => exact resting
      | alreadyEnded =>
          rw [continueAccept]
          exact { resting with untracked := rfl }
      | refused => exact absurd resolved past.settled.1
      | timedOut => exact absurd resolved past.settled.2
  | turnUnknown _ =>
      rw [handleTurnUnknown, past.untracked]
      exact past
  | runtimeEvent event _ =>
      rw [handleRuntimeEvent, past.untracked]
      exact past
  | repeatsStop connected =>
      rw [repeatStop, past.untracked]
      exact past
  | abandoned _ =>
      rw [abandon, past.unasked, past.untracked]
      exact past
  | sinks event later chained => exact past.sinks chained

theorem Over.move {turn next : Turn} (past : turn.Over) (moves : turn.Moves next) :
    next.Over := by
  cases moves with
  | starts _ _ uncalled => rw [past.called] at uncalled; cases uncalled
  | stops connected =>
      rw [stop, if_neg (by rw [past.untracked]; exact Bool.false_ne_true)]
      exact past.logs .stopAsked rfl
  | changes change => exact past.changes change

/-! ### One step of a live Turn -/

theorem Live.unprepared_of_pending {turn : Turn} (live : turn.Live)
    (pending : turn.pending = true) : turn.preparing = false := by
  cases preparing : turn.preparing with
  | false => rfl
  | true =>
      rw [(live.preparing preparing).2.1] at pending
      cases pending

theorem Live.resolves {turn : Turn} (live : turn.Live) (outcome : AcceptOutcome)
    (early : outcome ≠ .alreadyEnded) : (turn.resolvePendingAccept outcome).Live := by
  by_cases pending : turn.pending = true
  · have unprepared : turn.preparing = false := live.unprepared_of_pending pending
    rw [resolvePendingAccept, if_pos pending]
    exact
      { called := live.called
        tracked := live.tracked
        quiet := live.quiet
        preparing := fun preparing => by rw [unprepared] at preparing; cases preparing
        launched := live.launched
        waiting := fun waiting => nomatch waiting
        alive := fun same => early (Option.some.inj same) }
  · rw [resolvePendingAccept, if_neg pending]
    exact live

/-- A live Turn whose end is reported and whose own report is not under way. -/
theorem Live.closed {turn : Turn} (live : turn.Live) (steady : turn.Steady)
    {event : RuntimeEvent} (ended : event.ends = true) :
    (({ turn with tracked := false }.resolvePendingAccept .alreadyEnded).sinkInOrder event).Over :=
    by
  have settled := steady live.tracked
  by_cases pending : turn.pending = true
  · rw [resolvePendingAccept, if_pos pending]
    exact live.becomesOver event ended (stream_sinkInOrder _ event) rfl rfl settled.1 rfl
      ⟨fun same => (nomatch same), fun same => (nomatch same)⟩
  · rw [resolvePendingAccept, if_neg pending]
    exact live.becomesOver event ended (stream_sinkInOrder _ event) rfl rfl settled.1
      (Bool.of_not_eq_true pending) settled.2

theorem Live.launches {turn : Turn} (live : turn.Live) (connected sendFails : Bool)
    (preparing : turn.preparing = true) :
    (turn.launch connected sendFails).Live ∨ (turn.launch connected sendFails).Over := by
  obtain ⟨_, unasked, unwaited⟩ := live.preparing preparing
  have settled : turn.wait ≠ some .refused ∧ turn.wait ≠ some .timedOut := by
    rw [unwaited]
    exact ⟨fun same => (nomatch same), fun same => (nomatch same)⟩
  rw [launch]
  by_cases stopped : turn.stopRequested = true
  · right
    rw [if_pos stopped]
    exact live.becomesOver (.turnEnded .interrupted) rfl (stream_sinkInOrder _ _) rfl rfl rfl
      unasked settled
  · rw [if_neg stopped]
    by_cases unsent : (!connected || sendFails) = true
    · right
      rw [if_pos unsent]
      exact live.becomesOver (.turnEnded .failed) rfl (stream_sinkInOrder _ _) rfl rfl rfl
        unasked settled
    · left
      rw [if_neg unsent]
      have logged := stream_log { turn with preparing := false, pending := true, sent := true }
        .startSent rfl
      exact
        { called := live.called
          tracked := live.tracked
          quiet := by rw [logged]; exact live.quiet
          preparing := fun again => nomatch again
          launched := fun _ => rfl
          waiting := fun _ => unwaited
          alive := live.alive }

theorem Live.continues {turn : Turn} (live : turn.Live) {outcome : AcceptOutcome}
    (connected : Bool) (resolved : turn.wait = some outcome) :
    (turn.continueAccept outcome connected).Live ∨
      (turn.continueAccept outcome connected).Over := by
  have unasked : turn.pending = false := by
    cases pending : turn.pending with
    | false => rfl
    | true => rw [live.waiting pending] at resolved; cases resolved
  have unprepared : turn.preparing = false := by
    cases preparing : turn.preparing with
    | false => rfl
    | true => rw [(live.preparing preparing).2.2] at resolved; cases resolved
  have rested : (none : Option AcceptOutcome) ≠ some .refused ∧
      (none : Option AcceptOutcome) ≠ some .timedOut :=
    ⟨fun same => (nomatch same), fun same => (nomatch same)⟩
  cases outcome with
  | accepted =>
      left
      exact
        { called := live.called
          tracked := live.tracked
          quiet := live.quiet
          preparing := fun preparing => by
            change turn.preparing = true at preparing
            rw [unprepared] at preparing
            cases preparing
          launched := live.launched
          waiting := fun _ => rfl
          alive := fun same => nomatch same }
  | alreadyEnded => exact absurd resolved live.alive
  | refused =>
      right
      exact live.becomesOver (.turnEnded _) rfl (stream_sinkInOrder _ _) rfl rfl unprepared
        unasked rested
  | timedOut =>
      right
      rw [continueAccept]
      cases connected with
      | false =>
          exact live.becomesOver (.turnEnded _) rfl (stream_sinkInOrder _ _) rfl rfl unprepared
            unasked rested
      | true =>
          exact (live.logs .stopSent rfl).becomesOver (.turnEnded _) rfl (stream_sinkInOrder _ _) rfl rfl
            unprepared unasked rested

theorem Live.runtimeEvent {turn : Turn} (live : turn.Live) (event : RuntimeEvent)
    (steady : event.ends = true → turn.Steady) :
    (turn.handleRuntimeEvent event).Live ∨ (turn.handleRuntimeEvent event).Over := by
  rw [handleRuntimeEvent, if_pos live.tracked]
  by_cases ended : event.ends = true
  · right
    rw [if_pos ended]
    exact live.closed (steady ended) ended
  · left
    rw [if_neg ended]
    have quiet : ∀ other ∈ (turn.sinkInOrder event).stream, other.ends = false := by
      rw [stream_sinkInOrder]
      intro other member
      cases List.mem_append.mp member with
      | inl old => exact live.quiet other old
      | inr last =>
          rw [List.mem_singleton.mp last]
          exact Bool.of_not_eq_true ended
    exact { live with quiet := quiet }

theorem Live.changes {turn next : Turn} (live : turn.Live) (change : turn.Changes next) :
    next.Live ∨ next.Over := by
  cases change with
  | stays => exact Or.inl live
  | prepareFails preparing =>
      obtain ⟨_, unasked, unwaited⟩ := live.preparing preparing
      have settled : turn.wait ≠ some .refused ∧ turn.wait ≠ some .timedOut := by
        rw [unwaited]
        exact ⟨fun same => (nomatch same), fun same => (nomatch same)⟩
      right
      exact live.becomesOver (.turnEnded _) rfl (stream_sinkInOrder _ _) rfl rfl rfl unasked settled
  | launches connected sendFails preparing => exact live.launches connected sendFails preparing
  | resolves outcome early => exact Or.inl (live.resolves outcome early)
  | continues outcome connected resolved => exact live.continues connected resolved
  | turnUnknown steady =>
      rw [handleTurnUnknown, live.tracked, Bool.true_and]
      by_cases sent : turn.sent = true
      · right
        rw [if_pos sent]
        exact live.closed (steady sent) rfl
      · left
        rw [if_neg sent]
        exact live
  | runtimeEvent event steady => exact live.runtimeEvent event steady
  | repeatsStop connected =>
      left
      rw [repeatStop]
      split
      next => exact live.sendStopFrame connected
      next => exact live
  | abandoned steady =>
      rw [abandon]
      by_cases pending : turn.pending = true
      · left
        have failed := live.resolves .refused (fun same => nomatch same)
        rw [resolvePendingAccept, if_pos pending] at failed
        rw [if_pos pending]
        exact failed
      · right
        obtain ⟨unprepared, settled⟩ := steady live.tracked
        rw [if_neg pending, if_pos live.tracked]
        exact live.becomesOver (.turnEnded .interrupted) rfl (stream_sinkInOrder _ _) rfl rfl
          unprepared (Bool.of_not_eq_true pending) settled
  | sinks event later chained => exact Or.inl (live.sinks chained)

theorem Live.move {turn next : Turn} (live : turn.Live) (moves : turn.Moves next) :
    next.Live ∨ next.Over := by
  cases moves with
  | starts _ _ uncalled => rw [live.called] at uncalled; cases uncalled
  | stops connected =>
      left
      have asked := live.logs .stopAsked rfl
      have marked : ({ turn with log := turn.log ++ [.stopAsked], stopRequested := true } :
          Turn).Live := { asked with }
      rw [stop, if_pos live.tracked]
      by_cases sent : turn.sent = true
      · rw [if_pos sent]
        exact marked.sendStopFrame connected
      · rw [if_neg sent]
        exact marked
  | changes change => exact live.changes change

/-! ### The order of what is seen of a Turn -/

/-- Neither an event nor a `startTurn` frame. -/
def Idle (happening : TurnHappening) : Prop :=
  happening.handedEvent = none ∧ happening ≠ .startSent

/-- The log grows by what is neither. -/
def Adds (turn next : Turn) : Prop :=
  ∃ others, next.log = turn.log ++ others ∧ ∀ happening ∈ others, Idle happening

theorem Adds.unchanged {turn next : Turn} (same : next.log = turn.log) : turn.Adds next := by
  refine ⟨[], ?_, ?_⟩
  · rw [same, List.append_nil]
  · intro happening member
    cases member

theorem Adds.one {turn next : Turn} (happening : TurnHappening) (idle : Idle happening)
    (same : next.log = turn.log ++ [happening]) : turn.Adds next := by
  refine ⟨[happening], same, ?_⟩
  intro other member
  rw [List.mem_singleton.mp member]
  exact idle

theorem Adds.trans {turn middle next : Turn} (first : turn.Adds middle)
    (second : middle.Adds next) : turn.Adds next := by
  obtain ⟨early, sameEarly, idleEarly⟩ := first
  obtain ⟨late, sameLate, idleLate⟩ := second
  refine ⟨early ++ late, ?_, ?_⟩
  · rw [sameLate, sameEarly, List.append_assoc]
  · intro happening member
    cases List.mem_append.mp member with
    | inl member => exact idleEarly happening member
    | inr member => exact idleLate happening member

theorem sendStopFrame_adds (turn : Turn) (connected : Bool) :
    turn.Adds (turn.sendStopFrame connected) := by
  cases connected with
  | true => exact Adds.one .stopSent ⟨rfl, fun started => nomatch started⟩ rfl
  | false => exact Adds.unchanged rfl

theorem stop_adds (turn : Turn) (connected : Bool) : turn.Adds (turn.stop connected) := by
  have asked : turn.Adds { turn with log := turn.log ++ [.stopAsked] } :=
    Adds.one .stopAsked ⟨rfl, fun started => nomatch started⟩ rfl
  have marked : turn.Adds
      { turn with log := turn.log ++ [.stopAsked], stopRequested := true } :=
    asked.trans (Adds.unchanged rfl)
  rw [stop]
  by_cases tracked : turn.tracked = true
  · rw [if_pos tracked]
    by_cases sent : turn.sent = true
    · rw [if_pos sent]
      exact marked.trans (sendStopFrame_adds _ connected)
    · rw [if_neg sent]
      exact marked
  · rw [if_neg tracked]
    exact asked

theorem resolvePendingAccept_log (turn : Turn) (outcome : AcceptOutcome) :
    (turn.resolvePendingAccept outcome).log = turn.log := by
  rw [resolvePendingAccept]
  split
  next => rfl
  next => rfl

/-- Events are handed over from the chain, and a `startTurn` frame goes out of a
preparation nobody asked to stop. -/
inductive Logs (turn next : Turn) : Prop
  | adds (idle : turn.Adds next)
  | starts (preparing : turn.preparing = true) (unstopped : turn.stopRequested ≠ true)
      (same : next.log = turn.log ++ [.startSent])
  | hands (event : RuntimeEvent) (later : List RuntimeEvent)
      (chained : turn.sinkChain = event :: later)
      (same : next.log = turn.log ++ [.handed event])

theorem launch_logs (turn : Turn) (connected sendFails : Bool)
    (preparing : turn.preparing = true) : turn.Logs (turn.launch connected sendFails) := by
  rw [launch]
  by_cases stopped : turn.stopRequested = true
  · rw [if_pos stopped]
    exact Logs.adds (Adds.unchanged rfl)
  · rw [if_neg stopped]
    split
    next => exact Logs.adds (Adds.unchanged rfl)
    next => exact Logs.starts preparing stopped rfl

theorem continueAccept_adds (turn : Turn) (outcome : AcceptOutcome) (connected : Bool) :
    turn.Adds (turn.continueAccept outcome connected) := by
  have rested : turn.Adds { turn with wait := none } := Adds.unchanged rfl
  cases outcome with
  | accepted => exact rested
  | refused => exact Adds.unchanged rfl
  | alreadyEnded => exact Adds.unchanged rfl
  | timedOut =>
      exact (rested.trans (sendStopFrame_adds _ connected)).trans (Adds.unchanged rfl)

theorem Changes.logs {turn next : Turn} (change : turn.Changes next) : turn.Logs next := by
  cases change with
  | stays => exact Logs.adds (Adds.unchanged rfl)
  | prepareFails _ => exact Logs.adds (Adds.unchanged rfl)
  | launches connected sendFails preparing => exact launch_logs turn connected sendFails preparing
  | resolves outcome _ =>
      exact Logs.adds (Adds.unchanged (resolvePendingAccept_log turn outcome))
  | continues outcome connected _ => exact Logs.adds (continueAccept_adds turn outcome connected)
  | turnUnknown _ =>
      apply Logs.adds
      apply Adds.unchanged
      rw [handleTurnUnknown]
      split
      next => exact resolvePendingAccept_log _ _
      next => rfl
  | runtimeEvent event _ =>
      apply Logs.adds
      apply Adds.unchanged
      rw [handleRuntimeEvent]
      split
      next =>
        split
        next => exact resolvePendingAccept_log _ _
        next => rfl
      next => rfl
  | repeatsStop connected =>
      apply Logs.adds
      rw [repeatStop]
      split
      next => exact sendStopFrame_adds turn connected
      next => exact Adds.unchanged rfl
  | abandoned _ =>
      apply Logs.adds
      apply Adds.unchanged
      rw [abandon]
      split
      next => rfl
      next =>
        split
        next => rfl
        next => rfl
  | sinks event later chained => exact Logs.hands event later chained rfl

theorem Moves.logs {turn next : Turn} (moves : turn.Moves next) : turn.Logs next := by
  cases moves with
  | starts stoppedBefore connected _ =>
      cases stoppedBefore with
      | true => exact Logs.adds (Adds.unchanged rfl)
      | false =>
          cases connected with
          | true => exact Logs.adds (Adds.unchanged rfl)
          | false => exact Logs.adds (Adds.unchanged rfl)
  | stops connected => exact Logs.adds (stop_adds turn connected)
  | changes change => exact change.logs

theorem Holds.onlyLastEnds {turn : Turn} (holds : turn.Holds) : OnlyLastEnds turn.stream := by
  cases holds.phase with
  | inl untouched =>
      rw [untouched.silent]
      exact List.Pairwise.nil
  | inr begun =>
      cases begun with
      | inl live => exact OnlyLastEnds.of_quiet live.quiet
      | inr past => exact past.closed

theorem Holds.live_of_preparing {turn : Turn} (holds : turn.Holds)
    (preparing : turn.preparing = true) : turn.Live := by
  cases holds.phase with
  | inl untouched => rw [untouched.unprepared] at preparing; cases preparing
  | inr begun =>
      cases begun with
      | inl live => exact live
      | inr past => rw [past.unprepared] at preparing; cases preparing

theorem mem_handed {log : List TurnHappening} {event : RuntimeEvent}
    (member : TurnHappening.handed event ∈ log) : event ∈ log.filterMap handedEvent :=
  List.mem_filterMap.mpr ⟨_, member, rfl⟩

/-- The order is kept when what is added may follow anything. -/
theorem Adds.pairwise {relation : TurnHappening → TurnHappening → Prop} {turn next : Turn}
    (adds : turn.Adds next) (idle : ∀ earlier later, Idle later → relation earlier later)
    (before : turn.log.Pairwise relation) : next.log.Pairwise relation := by
  obtain ⟨others, same, plain⟩ := adds
  rw [same]
  apply List.pairwise_append.mpr
  refine ⟨before, ?_, fun earlier _ later member => idle earlier later (plain later member)⟩
  apply List.pairwise_of_forall_mem_list
  intro earlier _ later member
  exact idle earlier later (plain later member)

theorem Holds.order_move {turn next : Turn} (holds : turn.Holds) (moves : turn.Moves next) :
    next.log.Pairwise EndIsLast := by
  cases moves.logs with
  | adds idle =>
      exact idle.pairwise (fun _ _ plain _ _ _ => plain) holds.order
  | starts preparing _ same =>
      rw [same]
      apply pairwise_snoc holds.order
      intro earlier member event handed ended
      have live : turn.Live := holds.live_of_preparing preparing
      rw [handed] at member
      rw [live.quiet event (List.mem_append_left _ (mem_handed member))] at ended
      cases ended
  | hands event later chained same =>
      rw [same]
      apply pairwise_snoc holds.order
      intro earlier member first handed ended
      rw [handed] at member
      have head : event ∈ turn.sinkChain := by
        rw [chained]
        exact List.mem_cons_self
      have apart := (List.pairwise_append.mp holds.onlyLastEnds).2.2
      rw [apart first (mem_handed member) event head] at ended
      cases ended

theorem Holds.move {turn next : Turn} (holds : turn.Holds) (moves : turn.Moves next) :
    next.Holds where
  phase := by
    cases holds.phase with
    | inl untouched => exact untouched.move moves
    | inr begun =>
        right
        cases begun with
        | inl live => exact live.move moves
        | inr past => exact Or.inr (past.move moves)
  order := holds.order_move moves

/-! ### What only the two calls change -/

/-- Nothing is called, nobody asks for a stop, no preparation begins. -/
structure Carries (turn next : Turn) : Prop where
  called : next.called = turn.called
  requested : next.stopRequested = turn.stopRequested
  preparing : next.preparing = true → turn.preparing = true
  asked : .stopAsked ∈ next.log → .stopAsked ∈ turn.log

theorem Carries.refl (turn : Turn) : turn.Carries turn where
  called := rfl
  requested := rfl
  preparing := id
  asked := id

theorem Carries.trans {turn middle next : Turn} (first : turn.Carries middle)
    (second : middle.Carries next) : turn.Carries next where
  called := second.called.trans first.called
  requested := second.requested.trans first.requested
  preparing := fun preparing => first.preparing (second.preparing preparing)
  asked := fun asked => first.asked (second.asked asked)

theorem Carries.logs (turn : Turn) {happening : TurnHappening} (other : happening ≠ .stopAsked) :
    turn.Carries { turn with log := turn.log ++ [happening] } where
  called := rfl
  requested := rfl
  preparing := id
  asked := by
    intro asked
    cases List.mem_append.mp asked with
    | inl asked => exact asked
    | inr asked => exact absurd (List.mem_singleton.mp asked).symm other

theorem Carries.endWith (turn : Turn) (status : TurnStatus) : turn.Carries (turn.endWith status) where
  called := rfl
  requested := rfl
  preparing := id
  asked := id

theorem Carries.sendStopFrame (turn : Turn) (connected : Bool) :
    turn.Carries (turn.sendStopFrame connected) := by
  cases connected with
  | true => exact Carries.logs turn fun same => nomatch same
  | false => exact Carries.refl turn

theorem Carries.resolvePendingAccept (turn : Turn) (outcome : AcceptOutcome) :
    turn.Carries (turn.resolvePendingAccept outcome) := by
  rw [Turn.resolvePendingAccept]
  split
  next => exact ⟨rfl, rfl, id, id⟩
  next => exact Carries.refl turn

theorem Carries.launch (turn : Turn) (connected sendFails : Bool) :
    turn.Carries (turn.launch connected sendFails) := by
  have rested : turn.Carries { turn with preparing := false } :=
    ⟨rfl, rfl, fun preparing => (nomatch preparing), id⟩
  rw [Turn.launch]
  by_cases stopped : turn.stopRequested = true
  · rw [if_pos stopped]
    exact rested.trans (Carries.endWith _ _)
  · rw [if_neg stopped]
    split
    next => exact rested.trans (Carries.endWith _ _)
    next =>
      apply rested.trans
      have sent : ({ turn with preparing := false } : Turn).Carries
          { turn with preparing := false, pending := true, sent := true } := ⟨rfl, rfl, id, id⟩
      exact sent.trans (Carries.logs _ fun same => nomatch same)

theorem Carries.continueAccept (turn : Turn) (outcome : AcceptOutcome) (connected : Bool) :
    turn.Carries (turn.continueAccept outcome connected) := by
  have rested : turn.Carries { turn with wait := none } := ⟨rfl, rfl, id, id⟩
  cases outcome with
  | accepted => exact rested
  | refused => exact rested.trans (Carries.endWith _ _)
  | alreadyEnded => exact rested.trans ⟨rfl, rfl, id, id⟩
  | timedOut =>
      exact (rested.trans (Carries.sendStopFrame _ connected)).trans (Carries.endWith _ _)

/-- The Turn is untracked and its end reported. -/
theorem Carries.closes (turn : Turn) (event : RuntimeEvent) :
    turn.Carries
      (({ turn with tracked := false }.resolvePendingAccept .alreadyEnded).sinkInOrder event) := by
  have untracked : turn.Carries { turn with tracked := false } := ⟨rfl, rfl, id, id⟩
  exact (untracked.trans (Carries.resolvePendingAccept _ _)).trans ⟨rfl, rfl, id, id⟩

theorem Changes.carries {turn next : Turn} (change : turn.Changes next) : turn.Carries next := by
  cases change with
  | stays => exact Carries.refl turn
  | prepareFails _ => exact ⟨rfl, rfl, fun preparing => (nomatch preparing), id⟩
  | launches connected sendFails _ => exact Carries.launch turn connected sendFails
  | resolves outcome _ => exact Carries.resolvePendingAccept turn outcome
  | continues outcome connected _ => exact Carries.continueAccept turn outcome connected
  | turnUnknown _ =>
      rw [handleTurnUnknown]
      split
      next => exact Carries.closes turn _
      next => exact Carries.refl turn
  | runtimeEvent event _ =>
      rw [handleRuntimeEvent]
      split
      next =>
        split
        next => exact Carries.closes turn event
        next => exact ⟨rfl, rfl, id, id⟩
      next => exact Carries.refl turn
  | repeatsStop connected =>
      rw [repeatStop]
      split
      next => exact Carries.sendStopFrame turn connected
      next => exact Carries.refl turn
  | abandoned _ =>
      rw [abandon]
      split
      next => exact ⟨rfl, rfl, id, id⟩
      next =>
        split
        next => exact Carries.endWith turn _
        next => exact Carries.refl turn
  | sinks event later _ =>
      have passed : turn.Carries { turn with sinkChain := later } := ⟨rfl, rfl, id, id⟩
      exact passed.trans (Carries.logs _ fun same => nomatch same)

end Turn
end NextTime.HostBridge
