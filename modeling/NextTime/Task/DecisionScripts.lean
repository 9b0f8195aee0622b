import NextTime.Task.TaskSystem

/-
A transaction that ends a run knows, when it commits, that the Task is over or
that it has claimed the retry. What a thread knows about the Task comes from
its reads and its writes; an UPDATE that matched no row teaches that the Task is
over only in a run where no status flips under a decision.
-/

namespace NextTime.Task

open NextTime.Goal (TaskFailureReason)
open NextTime.Shared
open Interleaving
open Interleaving.Program (call each)

structure Knowledge where
  /-- The Task, as this thread sees it, has ended. -/
  settled : Bool
  /-- The open transaction has ended a run. -/
  ended : Bool
  /-- The open transaction claims the retry. -/
  claimed : Bool
  purpose : Option Purpose
deriving DecidableEq, Repr

/-- A reaction that ends the run and does not decide the Task, by the status it read. -/
def Purpose.leaves : Purpose → Bool
  | .reaction .exited task | .reaction (.terminated _) task =>
      decide (task.status = .created ∨ task.status = .queued)
  | _ => false

def TaskChange.decides : TaskChange → Bool
  | .fail _ | .cancel => true
  | .start | .awaitApproval | .resume | .complete => false

namespace Knowledge

/-- Between transactions. -/
def outside (settled : Bool) : Knowledge := ⟨settled, false, false, none⟩

def knowOver (mark : Knowledge) : Knowledge := { mark with settled := true }

def endRun (mark : Knowledge) : Knowledge :=
  { mark with ended := true, settled := mark.settled || mark.purpose.any (·.leaves) }

/-- What the COMMIT of a transaction has to be sure of. -/
def decided (mark : Knowledge) : Prop :=
  mark.ended = true → mark.settled = true ∨ mark.claimed = true ∨ mark.purpose = some .spawnFailed

theorem decided.idle {mark : Knowledge} (quiet : mark.ended = false) : mark.decided := by
  intro ended
  rw [quiet] at ended
  cases ended

def permits (mark : Knowledge) : Call → Prop
  | .commits => mark.decided
  | _ => True

def answered (mark : Knowledge) : (op : Call) → op.Answer → Knowledge
  | .begins purpose, _ => { mark with purpose := some purpose }
  | .commits, _ => outside mark.settled
  | .rollsBack, _ => outside false
  | .readTask, row => if row.all (·.status.ended) then mark.knowOver else mark
  | .addTokens _, row => if row.all (·.status.ended) then mark.knowOver else mark
  | .updateTask _ change, matched =>
      if matched then { mark with settled := change.status.ended }
      else if change.decides then mark.knowOver else mark
  | .addRetry _, matched => if matched then { mark with claimed := true } else mark
  | .updateRun _ _ status, matched =>
      if matched ∧ status = .terminated then mark.endRun else mark
  | _, _ => mark

def after (mark : Knowledge) (op : Call) : Except Thrown op.Answer → Knowledge
  | .ok answer => mark.answered op answer
  | .error _ =>
      match op with
      | .commits | .rollsBack => outside false
      | _ => mark

def rests (mark : Knowledge) : Prop :=
  ∃ settled, mark = outside settled

end Knowledge

def decisionDiscipline : Discipline Knowledge Call Call.Answer Thrown where
  permits := Knowledge.permits
  after := Knowledge.after

/-- The mark a script returns with; how it throws does not matter. -/
def Yields {Result : Type} (mark : Result → Knowledge) (last : Knowledge)
    (outcome : Except Thrown Result) : Prop :=
  ∀ result, outcome = .ok result → last = mark result

theorem Yields.returned {Result : Type} {mark : Result → Knowledge} {last : Knowledge}
    {result : Result} (same : last = mark result) : Yields mark last (.ok result) := by
  intro other equal
  cases equal
  exact same

theorem stopContainer_yields (mark : Knowledge) (run : Nat) :
    Keeps decisionDiscipline mark (bestEffort (query (.supervisorTerminate run)))
      fun last _ => last = mark := by
  have once : Keeps decisionDiscipline mark (query (.supervisorTerminate run))
      fun last _ => last = mark :=
    keeps_call trivial fun outcome => by cases outcome <;> rfl
  exact keeps_catch once (fun _ _ same => same) (fun _ _ same => keeps_pure same)

/-- One transaction: its body is decided when it returns, or it is rolled back. -/
theorem keeps_transaction {Result : Type} {settled : Bool} {purpose : Purpose} {body : Script Result}
    {ending : Knowledge → Except Thrown Result → Prop}
    (inside : Keeps decisionDiscipline ⟨settled, false, false, some purpose⟩ body
      fun last outcome => ∀ result, outcome = .ok result →
        last.decided ∧ ending (.outside last.settled) (.ok result))
    (throws : ∀ thrown, ending (.outside false) (.error thrown)) :
    Keeps decisionDiscipline (.outside settled) (withWorkspace purpose body) ending := by
  have attempted : Keeps decisionDiscipline (.outside settled)
      (do
        query (.begins purpose)
        let result ← body
        query .commits
        return result)
      fun last outcome => ∀ result, outcome = .ok result → ending last (.ok result) := by
    refine keeps_call_bind trivial (fun _ => ?_) (fun _ => nofun)
    refine keeps_bind inside (fun last result held => ?_) (fun _ _ _ => nofun)
    obtain ⟨decided, ends⟩ := held result rfl
    refine keeps_call_bind decided (fun _ => ?_) (fun _ => nofun)
    exact keeps_pure fun other same => by cases same; exact ends
  refine keeps_catch attempted (fun _ result ends => ends result rfl) ?_
  intro last thrown _
  exact keeps_call_bind trivial (fun _ => throws thrown) (fun other => throws other)

/-! ### The guarded updates -/

theorem terminateAttempts_yields (mark : Knowledge) (run attempts : Nat) :
    ∀ current, Keeps decisionDiscipline mark (terminateAttempts run attempts current)
      (Yields fun moved => if moved then mark.endRun else mark) := by
  induction attempts with
  | zero => exact fun _ => keeps_throw nofun
  | succ attempts ih =>
      intro current
      rw [terminateAttempts]
      split
      next => exact keeps_throw nofun
      next =>
        refine keeps_call_bind trivial (fun matched => ?_) (fun _ => nofun)
        cases matched with
        | true =>
            refine keeps_call_bind trivial (fun _ => ?_) (fun _ => nofun)
            exact keeps_pure (.returned rfl)
        | false =>
            refine keeps_call_bind trivial (fun row => ?_) (fun _ => nofun)
            cases row with
            | none => exact keeps_pure (.returned rfl)
            | some reread =>
                by_cases ended : reread.status = .terminated
                · simp only [if_pos ended]
                  exact keeps_call_bind trivial (fun _ => keeps_pure (.returned rfl)) (fun _ => nofun)
                · simp only [if_neg ended]
                  exact ih reread.status

theorem terminateWorkerRunRow_yields (mark : Knowledge) (run : Nat) :
    Keeps decisionDiscipline mark (terminateWorkerRunRow run)
      (Yields fun moved => if moved then mark.endRun else mark) := by
  refine keeps_call_bind trivial (fun row => ?_) (fun _ => nofun)
  cases row with
  | none => exact keeps_pure (.returned rfl)
  | some row =>
      by_cases ended : row.status = .terminated
      · simp only [if_pos ended]
        exact keeps_call_bind trivial (fun _ => keeps_pure (.returned rfl)) (fun _ => nofun)
      · simp only [if_neg ended]
        exact terminateAttempts_yields mark run 3 row.status

/-- A write that decides the Task leaves it over, whether or not it matched. -/
theorem decide_yields {change : TaskChange} (decides : change.decides = true)
    (mark : Knowledge) (expected : TaskStatus) :
    Keeps decisionDiscipline mark (query (.updateTask expected change))
      (Yields fun _ => mark.knowOver) := by
  have settled : change.status.ended = true := by
    cases change <;> first | rfl | cases decides
  refine keeps_call trivial fun outcome => ?_
  intro matched same
  cases same
  cases matched with
  | true =>
      change { mark with settled := change.status.ended } = mark.knowOver
      rw [settled]
      rfl
  | false => exact if_pos decides

theorem failTaskRow_yields (mark : Knowledge) (reason : TaskFailureReason) :
    Keeps decisionDiscipline mark (failTaskRow reason) (Yields fun _ => mark.knowOver) := by
  refine keeps_call_bind trivial (fun row => ?_) (fun _ => nofun)
  cases row with
  | none => exact keeps_pure (.returned rfl)
  | some row =>
      by_cases ended : row.status.ended = true
      · simp only [if_pos ended]
        have known : decisionDiscipline.after mark .readTask (.ok (some row)) = mark.knowOver :=
          if_pos ended
        rw [known]
        exact keeps_pure (.returned rfl)
      · simp only [if_neg ended]
        have unknown : decisionDiscipline.after mark .readTask (.ok (some row)) = mark :=
          if_neg ended
        rw [unknown]
        split
        next => exact keeps_throw nofun
        next =>
          refine keeps_bind (decide_yields rfl mark row.status) ?_ (fun _ _ _ => nofun)
          intro reached matched held
          exact keeps_pure fun _ _ => held matched rfl

theorem attemptCompleteTask_yields (mark : Knowledge) (status : TaskStatus) :
    Keeps decisionDiscipline mark (attemptCompleteTask status)
      (Yields fun matched => if matched then mark.knowOver else mark) := by
  rw [attemptCompleteTask]
  split
  next => exact keeps_throw nofun
  next =>
    refine keeps_call trivial fun outcome => ?_
    intro matched same
    cases same
    cases matched <;> rfl

/-- A body that returns only once the Task is over. -/
def OverAtEnd {Result : Type} (last : Knowledge) (outcome : Except Thrown Result) : Prop :=
  ∀ result, outcome = .ok result → last.settled = true

theorem terminate_keepsOver {mark : Knowledge} (settled : mark.settled = true) (run : Nat) :
    Keeps decisionDiscipline mark (do let _ ← terminateWorkerRunRow run) OverAtEnd := by
  refine keeps_bind (terminateWorkerRunRow_yields mark run) ?_ (fun _ _ _ => nofun)
  intro reached moved held
  rw [held moved rfl]
  refine keeps_pure fun _ _ => ?_
  cases moved with
  | true => simp [Knowledge.endRun, settled]
  | false => exact settled

theorem completeTaskWithResult_over (mark : Knowledge) (run : Nat) :
    Keeps decisionDiscipline mark (completeTaskWithResult run) OverAtEnd := by
  refine keeps_call_bind trivial (fun row => ?_) (fun _ => nofun)
  cases row with
  | none => exact keeps_throw nofun
  | some row =>
      refine keeps_bind (attemptCompleteTask_yields _ row.status) ?_ (fun _ _ _ => nofun)
      intro reached matched held
      have known := held matched rfl
      subst known
      cases matched with
      | true => exact terminate_keepsOver rfl run
      | false =>
          refine keeps_call_bind trivial (fun reread => ?_) (fun _ => nofun)
          cases reread with
          | none => exact keeps_throw nofun
          | some reread =>
              by_cases ended : reread.status.ended = true
              · simp only [if_pos ended]
                exact keeps_throw nofun
              · simp only [if_neg ended]
                refine keeps_bind (attemptCompleteTask_yields _ reread.status) ?_
                  (fun _ _ _ => nofun)
                intro last again later
                have known := later again rfl
                subst known
                cases again with
                | true => exact terminate_keepsOver rfl run
                | false => exact keeps_throw nofun

theorem failTaskForModelRefusal_over (mark : Knowledge) (run : Nat) :
    Keeps decisionDiscipline mark (failTaskForModelRefusal run) OverAtEnd := by
  refine keeps_bind (failTaskRow_yields mark _) ?_ (fun _ _ _ => nofun)
  intro reached value held
  have settled : reached.settled = true := by rw [held value rfl]; rfl
  exact terminate_keepsOver settled run

/-- The rest of a script, once it has thrown out of a transaction. -/
theorem rests_outside (settled : Bool) : (Knowledge.outside settled).rests := ⟨settled, rfl⟩

theorem failTaskAndReapWorkerRuns_rests (settled : Bool) (reason : TaskFailureReason) :
    Keeps decisionDiscipline (.outside settled) (failTaskAndReapWorkerRuns reason)
      fun last _ => last.rests := by
  have reaped : Keeps decisionDiscipline (.outside settled)
      (withWorkspace .any do
        let runs ← query (.runIds false)
        each (fun run => do let _ ← terminateWorkerRunRow run) runs
        failTaskRow reason
        return runs) fun last _ => last.rests := by
    refine keeps_transaction ?_ (fun _ => rests_outside false)
    refine keeps_call_bind trivial (fun runs => ?_) (fun _ => nofun)
    have looped : ∀ mark : Knowledge, Keeps decisionDiscipline mark
        (each (fun run => do let _ ← terminateWorkerRunRow run) runs) fun _ _ => True := by
      intro mark
      refine keeps_each (fun run _ before _ => ?_) trivial
      exact keeps_bind (terminateWorkerRunRow_yields before run) (fun _ _ _ => keeps_pure trivial)
        (fun _ _ _ => trivial)
    refine keeps_bind (looped _) ?_ (fun _ _ _ => nofun)
    intro reached _ _
    refine keeps_bind (failTaskRow_yields reached reason) ?_ (fun _ _ _ => nofun)
    intro last value held
    have settled : last.settled = true := by rw [held value rfl]; rfl
    exact keeps_pure fun _ _ => ⟨fun _ => Or.inl settled, rests_outside _⟩
  refine keeps_bind reaped ?_ (fun _ _ rests => rests)
  intro reached runs rests
  refine keeps_each (fun run _ before still => ?_) rests
  exact keeps_mono (stopContainer_yields before run) fun _ _ same => same ▸ still

/-! ### Spawning -/

/-- A body that ends no run. -/
def EndsNothing {Result : Type} (last : Knowledge) (_ : Except Thrown Result) : Prop :=
  last.ended = false

theorem keeps_endingNothing {Result : Type} {settled : Bool} {purpose : Purpose}
    {body : Script Result}
    (inside : Keeps decisionDiscipline ⟨settled, false, false, some purpose⟩ body EndsNothing) :
    Keeps decisionDiscipline (.outside settled) (withWorkspace purpose body)
      fun last _ => last.rests := by
  refine keeps_transaction (keeps_mono inside ?_) (fun _ => rests_outside false)
  intro last outcome quiet result _
  exact ⟨.idle quiet, rests_outside _⟩

/-- Any other call ends no run. -/
theorem call_endsNothing {mark : Knowledge} {op : Call} (quiet : mark.ended = false)
    (permitted : mark.permits op)
    (teaches : ∀ outcome, (mark.after op outcome).ended = mark.ended) :
    Keeps decisionDiscipline mark (query op) EndsNothing :=
  keeps_call permitted fun outcome => (teaches outcome).trans quiet

theorem createRun_endsNothing {mark : Knowledge} (quiet : mark.ended = false) (attempt : Nat) :
    Keeps decisionDiscipline mark (createRun attempt) EndsNothing := by
  refine keeps_call_bind trivial (fun status => ?_) (fun _ => quiet)
  cases status with
  | none => exact keeps_throw quiet
  | some status =>
      by_cases ended : status.ended = true
      · simp only [if_pos ended]
        exact keeps_throw quiet
      · simp only [if_neg ended]
        refine keeps_call_bind trivial (fun _ => ?_) (fun _ => quiet)
        exact call_endsNothing quiet trivial fun outcome => by cases outcome <;> rfl

/-- The transaction of a failed spawn may end the run: the Task is decided in the next. -/
theorem spawnFailed_rests {settled : Bool} (run : Nat) :
    Keeps decisionDiscipline (.outside settled)
      (withWorkspace .spawnFailed do
        let _ ← query (.updateRun run .provisioning .terminated)
        query (.revokeSession run)) fun last _ => last.rests := by
  refine keeps_transaction ?_ (fun _ => rests_outside false)
  refine keeps_call_bind trivial (fun matched => ?_) (fun _ => nofun)
  refine keeps_call trivial fun outcome => ?_
  intro revoked same
  cases same
  refine ⟨fun _ => Or.inr (Or.inr ?_), rests_outside _⟩
  cases matched <;> rfl

theorem spawnWorkerRun_rests (settled : Bool) (attempt : Nat) :
    Keeps decisionDiscipline (.outside settled) (spawnWorkerRun attempt) fun last _ => last.rests := by
  refine keeps_call_bind trivial (fun _ => ?_) (fun _ => rests_outside settled)
  refine keeps_bind (keeps_endingNothing (createRun_endsNothing rfl attempt)) ?_
    (fun _ _ rests => rests)
  rintro reached run ⟨known, rfl⟩
  have spawned : Keeps decisionDiscipline (.outside known)
      (tryCatch (query (.supervisorSpawn run)) fun thrown => do
        withWorkspace .spawnFailed do
          let _ ← query (.updateRun run .provisioning .terminated)
          query (.revokeSession run)
        throw thrown) fun last _ => last.rests := by
    have once : Keeps decisionDiscipline (.outside known) (query (.supervisorSpawn run))
        fun last _ => last = .outside known :=
      keeps_call trivial fun outcome => by cases outcome <;> rfl
    refine keeps_catch once (fun _ _ same => ⟨known, same⟩) ?_
    rintro last thrown rfl
    exact keeps_bind (spawnFailed_rests run) (fun _ _ rests => keeps_throw rests)
      (fun _ _ rests => rests)
  refine keeps_bind spawned ?_ (fun _ _ rests => rests)
  rintro last _ ⟨later, rfl⟩
  refine keeps_endingNothing ?_
  refine keeps_call_bind trivial (fun matched => ?_) (fun _ => rfl)
  cases matched with
  | true => exact keeps_pure rfl
  | false =>
      exact keeps_mono (stopContainer_yields _ run) fun _ _ same => congrArg Knowledge.ended same

/-- A read in a transaction of its own: the mark still rests. -/
theorem readAlone_rests {settled : Bool} {op : Call}
    (permitted : ∀ mark : Knowledge, mark.permits op)
    (teaches : ∀ (mark : Knowledge) outcome, (mark.after op outcome).ended = mark.ended) :
    Keeps decisionDiscipline (.outside settled) (withWorkspace .any (query op))
      fun last _ => last.rests :=
  keeps_endingNothing (call_endsNothing rfl (permitted _) (teaches _))

theorem spawnWorkerRunForRetry_rests (settled : Bool) (failed : WorkerRunRow) :
    Keeps decisionDiscipline (.outside settled) (spawnWorkerRunForRetry failed)
      fun last _ => last.rests := by
  unfold spawnWorkerRunForRetry
  refine keeps_catch (?attempted : Keeps _ _ _ fun last _ => last.rests)
    (fun _ _ rests => rests) ?failed
  case attempted =>
    refine keeps_bind (readAlone_rests (fun _ => trivial) fun _ outcome => by
      cases outcome <;> rfl) ?_ (fun _ _ rests => rests)
    rintro reached handle ⟨known, rfl⟩
    cases handle with
    | none => exact keeps_throw (rests_outside _)
    | some handle =>
        refine keeps_bind (readAlone_rests (fun _ => trivial) fun _ outcome => by
          cases outcome <;> rfl) ?_ (fun _ _ rests => rests)
        rintro again _ ⟨later, rfl⟩
        exact spawnWorkerRun_rests later _
  case failed =>
    rintro last _ ⟨known, rfl⟩
    exact failTaskAndReapWorkerRuns_rests known _

theorem startTask_rests (settled : Bool) :
    Keeps decisionDiscipline (.outside settled) startTask fun last _ => last.rests := by
  have spawned : Keeps decisionDiscipline (.outside settled)
      (tryCatch (spawnWorkerRun 1) fun thrown => do
        failTaskAndReapWorkerRuns .spawnFailed
        throw thrown) fun last _ => last.rests := by
    refine keeps_catch (spawnWorkerRun_rests settled 1) (fun _ _ rests => rests) ?_
    rintro reached thrown ⟨known, rfl⟩
    exact keeps_bind (failTaskAndReapWorkerRuns_rests known _)
      (fun _ _ later => keeps_throw later) (fun _ _ later => later)
  refine keeps_bind spawned ?_ (fun _ _ rests => rests)
  rintro reached _ ⟨known, rfl⟩
  refine keeps_endingNothing ?_
  refine keeps_call_bind trivial (fun matched => ?_) (fun _ => rfl)
  cases matched <;> exact keeps_pure rfl

/-! ### Reactions -/

theorem failIfMoved_decides {mark : Knowledge} (quiet : mark.ended = false) (run : Nat)
    (reason : TaskFailureReason) :
    Keeps decisionDiscipline mark (failIfMoved run reason)
      fun last outcome => ∀ result, outcome = .ok result → last.decided := by
  refine keeps_bind (terminateWorkerRunRow_yields mark run) ?_ (fun _ _ _ => nofun)
  intro reached moved held
  have known := held moved rfl
  subst known
  cases moved with
  | true =>
      refine keeps_mono (failTaskRow_yields _ reason) ?_
      intro last outcome fails result same
      rw [fails result same]
      exact fun _ => Or.inl rfl
  | false =>
      have still : ((fun moved => if moved = true then mark.endRun else mark) false).ended = false :=
        quiet
      exact keeps_pure fun _ _ => .idle still

/-- An exited run decides the Task it read running or waiting; an ended one is over; and
for one it read queued, the end of the run itself says that the Task is over. -/
theorem decideExited_decides {mark : Knowledge} {status : TaskSupervisorState} {task : TaskRow}
    (quiet : mark.ended = false) (purpose : mark.purpose = some (.reaction status task))
    (exited : status = .exited ∨ ∃ timeout, status = .terminated timeout)
    (settled : task.status.ended = true → mark.settled = true) (run : Nat)
    (reason : TaskFailureReason) :
    Keeps decisionDiscipline mark (decideExited run task reason)
      fun last outcome => ∀ result, outcome = .ok result → last.decided := by
  refine keeps_bind (terminateWorkerRunRow_yields mark run) ?_ (fun _ _ _ => nofun)
  intro reached moved held
  have known := held moved rfl
  subst known
  cases moved with
  | true =>
      by_cases decides : task.status = .running ∨ task.status = .waitingApproval
      · simp only [if_pos decides]
        refine keeps_mono (failTaskRow_yields _ reason) ?_
        intro last outcome fails result same
        rw [fails result same]
        exact fun _ => Or.inl rfl
      · simp only [if_neg decides]
        refine keeps_pure fun _ _ _ => Or.inl ?_
        change (mark.settled || mark.purpose.any (·.leaves)) = true
        rw [purpose, Bool.or_eq_true]
        cases found : task.status with
        | created =>
            refine Or.inr ?_
            rcases exited with rfl | ⟨timeout, rfl⟩ <;> simp [Purpose.leaves, found]
        | queued =>
            refine Or.inr ?_
            rcases exited with rfl | ⟨timeout, rfl⟩ <;> simp [Purpose.leaves, found]
        | running => exact absurd (Or.inl found) decides
        | waitingApproval => exact absurd (Or.inr found) decides
        | completed => exact Or.inl (settled (by rw [found]; rfl))
        | failed => exact Or.inl (settled (by rw [found]; rfl))
        | cancelled => exact Or.inl (settled (by rw [found]; rfl))
  | false =>
      have still : ((fun moved => if moved = true then mark.endRun else mark) false).ended = false :=
        quiet
      exact keeps_pure fun _ _ => .idle still

theorem claimRetry_decides {mark : Knowledge} (quiet : mark.ended = false) (run : Nat)
    (task : TaskRow) :
    Keeps decisionDiscipline mark (claimRetry run task)
      fun last outcome => ∀ result, outcome = .ok result → last.decided := by
  refine keeps_bind (terminateWorkerRunRow_yields mark run) ?_ (fun _ _ _ => nofun)
  intro reached moved held
  have known := held moved rfl
  subst known
  cases moved with
  | true =>
      refine keeps_call_bind trivial (fun bumped => ?_) (fun _ => nofun)
      cases bumped with
      | true => exact keeps_pure fun _ _ _ => Or.inr (Or.inl rfl)
      | false =>
          refine keeps_bind (failTaskRow_yields _ _) ?_ (fun _ _ _ => nofun)
          intro last value fails
          refine keeps_pure fun _ _ => ?_
          rw [fails value rfl]
          exact fun _ => Or.inl rfl
  | false =>
      have still : ((fun moved => if moved = true then mark.endRun else mark) false).ended = false :=
        quiet
      exact keeps_pure fun _ _ => .idle still

theorem keeps_decided {Result : Type} {settled : Bool} {purpose : Purpose} {body : Script Result}
    (inside : Keeps decisionDiscipline ⟨settled, false, false, some purpose⟩ body
      fun last outcome => ∀ result, outcome = .ok result → last.decided) :
    Keeps decisionDiscipline (.outside settled) (withWorkspace purpose body)
      fun last _ => last.rests :=
  keeps_transaction
    (keeps_mono inside fun _ _ decided result same => ⟨decided result same, rests_outside _⟩)
    (fun _ => rests_outside false)

theorem reactTo_rests {settled : Bool} (failed : WorkerRunRow) {task : TaskRow}
    (known : task.status.ended = true → settled = true) (status : TaskSupervisorState) :
    Keeps decisionDiscipline (.outside settled) (reactTo failed task status)
      fun last _ => last.rests := by
  cases status with
  | running => exact keeps_pure (rests_outside settled)
  | exited => exact keeps_decided (decideExited_decides rfl rfl (Or.inl rfl) known ..)
  | terminated timeout =>
      exact keeps_decided (decideExited_decides rfl rfl (Or.inr ⟨timeout, rfl⟩) known ..)
  | failed =>
      by_cases retries : task.retries = true
      · simp only [reactTo, if_pos retries]
        refine keeps_bind (keeps_decided (claimRetry_decides rfl ..)) ?_ (fun _ _ rests => rests)
        rintro reached won ⟨later, rfl⟩
        cases won with
        | true => exact spawnWorkerRunForRetry_rests later failed
        | false => exact keeps_pure (rests_outside later)
      · simp only [reactTo, if_neg retries]
        exact keeps_decided (failIfMoved_decides rfl ..)

/-- The separate read of the Task: a Task read as ended is over. -/
theorem readTask_known (settled : Bool) :
    Keeps decisionDiscipline (.outside settled) (withWorkspace .any (query .readTask))
      fun last outcome => ∃ later, last = .outside later ∧
        ∀ task : TaskRow, outcome = .ok (some task) → task.status.ended = true → later = true := by
  refine keeps_transaction ?_ (fun _ => ⟨false, rfl, fun _ impossible => by cases impossible⟩)
  refine keeps_call trivial fun outcome => ?_
  intro row same
  cases same
  refine ⟨?_, _, rfl, ?_⟩
  · have quiet : (decisionDiscipline.after ⟨settled, false, false, some .any⟩ .readTask
        (.ok row)).ended = false := by
      change (if row.all (·.status.ended) then _ else _ : Knowledge).ended = false
      split <;> rfl
    exact .idle quiet
  · rintro task same ended
    cases same
    change (if (some task).all (·.status.ended) = true then _ else _ : Knowledge).settled = true
    rw [Option.all_some, if_pos ended]
    rfl

theorem reactToSupervisorStatus_rests (settled : Bool) (run : Nat) :
    Keeps decisionDiscipline (.outside settled) (reactToSupervisorStatus run)
      fun last _ => last.rests := by
  refine keeps_bind (readAlone_rests (fun _ => trivial) fun _ outcome => by
    cases outcome <;> rfl) ?_ (fun _ _ rests => rests)
  rintro reached row ⟨known, rfl⟩
  cases row with
  | none => exact keeps_pure (rests_outside known)
  | some row =>
      by_cases ended : row.status = .terminated
      · simp only [if_pos ended]
        exact keeps_pure (rests_outside known)
      · simp only [if_neg ended]
        have asked : Keeps decisionDiscipline (.outside known)
            (tryCatch (query (.supervisorStatus run)) fun _ => pure none)
            fun last _ => last = .outside known := by
          have once : Keeps decisionDiscipline (.outside known) (query (.supervisorStatus run))
              fun last _ => last = .outside known :=
            keeps_call trivial fun outcome => by cases outcome <;> rfl
          exact keeps_catch once (fun _ _ same => same) (fun _ _ same => keeps_pure same)
        refine keeps_bind asked ?_ (fun _ _ same => ⟨known, same⟩)
        rintro reached status rfl
        cases status with
        | none => exact keeps_pure (rests_outside known)
        | some status =>
            by_cases running : status = .running
            · simp only [if_pos running]
              exact keeps_pure (rests_outside known)
            · simp only [if_neg running]
              refine keeps_bind (readTask_known known) ?_ (fun _ _ held => held.imp fun _ => And.left)
              rintro reached task ⟨later, rfl, teaches⟩
              cases task with
              | none => exact keeps_pure (rests_outside later)
              | some task => exact reactTo_rests row (teaches task rfl) status

/-! ### Cancel, usage, approval routing, the reaper -/

theorem cancelTaskRow_over (mark : Knowledge) :
    Keeps decisionDiscipline mark cancelTaskRow OverAtEnd := by
  refine keeps_call_bind trivial (fun row => ?_) (fun _ => nofun)
  cases row with
  | none => exact keeps_throw nofun
  | some current =>
      by_cases ended : current.status.ended = true
      · simp only [if_pos ended]
        refine keeps_pure fun _ _ => ?_
        change (if (some current).all (·.status.ended) = true then _ else _ : Knowledge).settled = true
        rw [Option.all_some, if_pos ended]
        rfl
      · simp only [if_neg ended]
        split
        next => exact keeps_throw nofun
        next =>
          refine keeps_bind (decide_yields rfl _ current.status) ?_ (fun _ _ _ => nofun)
          intro reached matched held
          have known := held matched rfl
          subst known
          cases matched with
          | true => exact keeps_pure fun _ _ => rfl
          | false =>
              refine keeps_call_bind trivial (fun reread => ?_) (fun _ => nofun)
              cases reread with
              | none => exact keeps_throw nofun
              | some reread =>
                  refine keeps_pure fun _ _ => ?_
                  change (if (some reread).all (·.status.ended) = true then _ else _ :
                    Knowledge).settled = true
                  split <;> rfl

theorem terminateTaskWith_rests (settled : Bool) :
    Keeps decisionDiscipline (.outside settled) terminateTaskWith fun last _ => last.rests := by
  refine keeps_bind (readTask_known settled) ?_ (fun _ _ held => held.imp fun _ => And.left)
  rintro reached task ⟨known, rfl, _⟩
  cases task with
  | none => exact keeps_throw (rests_outside known)
  | some task =>
      by_cases ended : task.status.ended = true
      · simp only [if_pos ended]
        exact keeps_pure (rests_outside known)
      · simp only [if_neg ended]
        have cancelled : Keeps decisionDiscipline (.outside known)
            (withWorkspace .any cancelTaskRow)
            fun last outcome => last.rests ∧ (outcome.isOk = true → last = .outside true) := by
          refine keeps_transaction (keeps_mono (cancelTaskRow_over _) ?_)
            (fun _ => ⟨rests_outside false, nofun⟩)
          intro last outcome isOver result same
          have known := isOver result same
          exact ⟨fun _ => Or.inl known, rests_outside _, fun _ => by rw [known]⟩
        refine keeps_bind cancelled ?_ (fun _ _ held => held.1)
        intro reached _ held
        have known := held.2 rfl
        subst known
        -- From here on the Task is over, whatever ends a run.
        have listed : Keeps decisionDiscipline (.outside true)
            (withWorkspace .any (query (.runIds true)))
            fun last outcome => last.rests ∧ (outcome.isOk = true → last = .outside true) := by
          refine keeps_transaction ?_ (fun _ => ⟨rests_outside false, nofun⟩)
          refine keeps_call trivial fun outcome => ?_
          intro runs same
          cases same
          exact ⟨nofun, rests_outside _, fun _ => rfl⟩
        refine keeps_bind listed ?_ (fun _ _ later => later.1)
        intro reached runs later
        have known := later.2 rfl
        subst known
        have looped : Keeps decisionDiscipline (.outside true)
            (each
              (fun run => do
                bestEffort (query (.supervisorTerminate run))
                withWorkspace .any do
                  let _ ← terminateWorkerRunRow run)
              runs)
            fun last outcome => last.rests ∧ (outcome.isOk = true → last = .outside true) := by
          refine keeps_each ?_ ⟨rests_outside true, fun _ => rfl⟩
          intro run _ before still
          have known := still.2 rfl
          subst known
          refine keeps_bind (stopContainer_yields _ run) ?_
            (fun _ _ same => ⟨⟨true, same⟩, nofun⟩)
          rintro reached _ rfl
          refine keeps_transaction (keeps_mono (terminate_keepsOver rfl run) ?_)
            (fun _ => ⟨rests_outside false, nofun⟩)
          intro last outcome isOver result same
          have known := isOver result same
          exact ⟨fun _ => Or.inl known, rests_outside _, fun _ => by rw [known]⟩
        exact keeps_mono looped fun _ _ held => held.1

theorem reapLiveRuns_over {mark : Knowledge} (settled : mark.settled = true) :
    Keeps decisionDiscipline mark
      (do
        let runs ← query (.runIds true)
        each
          (fun run => do
            let _ ← terminateWorkerRunRow run
            bestEffort (query (.supervisorTerminate run)))
          runs) OverAtEnd := by
  refine keeps_call_bind trivial (fun runs => ?_) (fun _ => nofun)
  refine keeps_each ?_ (fun _ _ => settled)
  intro run _ before still
  refine keeps_bind (terminateWorkerRunRow_yields before run) ?_ (fun _ _ _ => nofun)
  intro reached moved held
  have known := held moved rfl
  subst known
  refine keeps_mono (stopContainer_yields _ run) ?_
  rintro last outcome rfl result same
  have isOver : before.settled = true := still () rfl
  cases moved with
  | true => simp [Knowledge.endRun, isOver]
  | false => exact isOver

theorem recordWorkerRunUsage_decides {mark : Knowledge} (quiet : mark.ended = false)
    (run tokens : Nat) :
    Keeps decisionDiscipline mark (recordWorkerRunUsage run tokens)
      fun last outcome => ∀ result, outcome = .ok result → last.decided := by
  have isOver : ∀ {last : Knowledge} {outcome : Except Thrown Unit}, OverAtEnd last outcome →
      ∀ result, outcome = .ok result → last.decided :=
    fun settled result same _ => Or.inl (settled result same)
  refine keeps_call_bind trivial (fun row => ?_) (fun _ => nofun)
  cases row with
  | none => exact keeps_pure fun _ _ => .idle quiet
  | some row =>
      refine keeps_call_bind trivial (fun task => ?_) (fun _ => nofun)
      cases task with
      | none => exact keeps_pure fun _ _ => .idle quiet
      | some task =>
          by_cases spent : task.overBudget = true
          · simp only [if_pos spent]
            by_cases ended : task.status.ended = true
            · simp only [if_pos ended]
              refine keeps_mono (reapLiveRuns_over ?_) fun _ _ => isOver
              change (if (some task).all (·.status.ended) = true then _ else _ :
                Knowledge).settled = true
              rw [Option.all_some, if_pos ended]
              rfl
            · simp only [if_neg ended]
              refine keeps_bind (failTaskRow_yields _ _) ?_ (fun _ _ _ => nofun)
              intro reached value fails
              have settled : reached.settled = true := by rw [fails value rfl]; rfl
              exact keeps_mono (reapLiveRuns_over settled) fun _ _ => isOver
          · simp only [if_neg spent]
            refine keeps_pure fun _ _ => .idle ?_
            change (if (some task).all (·.status.ended) = true then _ else _ :
              Knowledge).ended = false
            split <;> exact quiet

theorem routing_endsNothing {mark : Knowledge} (quiet : mark.ended = false)
    (expected : TaskStatus) (change : TaskChange) :
    Keeps decisionDiscipline mark
      (do
        match ← query .readTask with
        | none => return
        | some task =>
            if task.status = expected then
              let _ ← query (.updateTask expected change)
            else return) EndsNothing := by
  refine keeps_call_bind trivial (fun row => ?_) (fun _ => quiet)
  have read : ∀ row : Option TaskRow,
      (decisionDiscipline.after mark .readTask (.ok row)).ended = false := by
    intro row
    change (if row.all (·.status.ended) = true then _ else _ : Knowledge).ended = false
    split <;> exact quiet
  cases row with
  | none => exact keeps_pure (read none)
  | some task =>
      by_cases same : task.status = expected
      · simp only [if_pos same]
        refine keeps_call_bind trivial (fun matched => ?_) (fun _ => read (some task))
        refine keeps_pure ?_
        change (if matched = true then _ else if change.decides = true then _ else _ :
          Knowledge).ended = false
        split
        · exact read (some task)
        · split <;> exact read (some task)
      · simp only [if_neg same]
        exact keeps_pure (read (some task))

theorem reapCandidate_rests (settled : Bool) (run : Nat) :
    Keeps decisionDiscipline (.outside settled) (reapCandidate run) fun last _ => last.rests := by
  refine keeps_call_bind trivial (fun overdue => ?_) (fun _ => rests_outside settled)
  cases overdue with
  | true =>
      refine keeps_bind (stopContainer_yields _ run) ?_ (fun _ _ same => ⟨settled, same⟩)
      rintro reached _ rfl
      exact keeps_decided (failIfMoved_decides rfl ..)
  | false => exact reactToSupervisorStatus_rests settled run

theorem sweep_rests {settled : Bool} {found : Script Bool}
    (asks : Keeps decisionDiscipline (.outside settled) found fun last _ => last = .outside settled)
    (reason : TaskFailureReason) :
    Keeps decisionDiscipline (.outside settled) (sweep found reason) fun last _ => last.rests := by
  refine keeps_bind asks ?_ (fun _ _ same => ⟨settled, same⟩)
  rintro reached due rfl
  cases due with
  | true =>
      exact keeps_catch (failTaskAndReapWorkerRuns_rests settled reason) (fun _ _ rests => rests)
        (fun _ _ rests => keeps_pure rests)
  | false => exact keeps_pure (rests_outside settled)

theorem runTaskReaper_rests (settled : Bool) :
    Keeps decisionDiscipline (.outside settled) runTaskReaper fun last _ => last.rests := by
  refine keeps_call_bind trivial (fun runs => ?_) (fun _ => rests_outside settled)
  have reaped : Keeps decisionDiscipline (.outside settled)
      (each (fun run => bestEffort (reapCandidate run)) runs) fun last _ => last.rests := by
    refine keeps_each ?_ (rests_outside settled)
    rintro run _ before ⟨known, rfl⟩
    exact keeps_catch (reapCandidate_rests known run) (fun _ _ rests => rests)
      (fun _ _ rests => keeps_pure rests)
  refine keeps_bind reaped ?_ (fun _ _ rests => rests)
  rintro reached _ ⟨known, rfl⟩
  refine keeps_bind (sweep_rests (keeps_call trivial fun outcome => ?_) _) ?_
    (fun _ _ rests => rests)
  · cases outcome <;> rfl
  · rintro last _ ⟨later, rfl⟩
    refine sweep_rests (keeps_call trivial fun outcome => ?_) _
    cases outcome <;> rfl

theorem entry_decides (entry : Entry) :
    Keeps decisionDiscipline (.outside false) entry.script fun last _ => last.rests := by
  have settled : ∀ {body : Script Unit},
      (∀ mark, Keeps decisionDiscipline mark body OverAtEnd) →
        Keeps decisionDiscipline (.outside false) (withWorkspace .any body)
          fun last _ => last.rests :=
    fun inside => keeps_decided (keeps_mono (inside _) fun _ _ isOver result same _ =>
      Or.inl (isOver result same))
  cases entry with
  | reaction run => exact reactToSupervisorStatus_rests false run
  | reaper => exact runTaskReaper_rests false
  | terminate => exact terminateTaskWith_rests false
  | report run => exact settled fun mark => completeTaskWithResult_over mark run
  | modelRefusal run => exact settled fun mark => failTaskForModelRefusal_over mark run
  | usage run tokens => exact keeps_decided (recordWorkerRunUsage_decides rfl run tokens)
  | approvalPending => exact keeps_endingNothing (routing_endsNothing rfl ..)
  | approvalResolved => exact keeps_endingNothing (routing_endsNothing rfl ..)
  | ancestorEnds run =>
      exact keeps_endingNothing
        (call_endsNothing rfl trivial fun outcome => by cases outcome <;> rfl)

end NextTime.Task
