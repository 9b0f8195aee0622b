import NextTime.Task.RetryMarks

/-
Every script keeps to the retry discipline: one lemma for each function, in the
order of the source.
-/

namespace NextTime.Task

open NextTime.Goal (TaskFailureReason)
open NextTime.Shared
open Interleaving
open Interleaving.Program (call each)

/-- A transaction under way that may write and owes no revocation. -/
structure Mark.Working (right : Right) (mark : Mark) : Prop where
  right : mark.right = right
  writes : mark.mayWrite
  revoked : mark.unrevoked = []

theorem Mark.working_opening (right : Right) : (Mark.opening right).Working right :=
  ⟨rfl, Or.inl rfl, rfl⟩

theorem Mark.Working.quietly {Result : Type} {right : Right} {mark : Mark}
    {outcome : Except Thrown Result} (working : mark.Working right) :
    Quietly right mark outcome :=
  ⟨working.right, fun _ => ⟨working.writes, working.revoked⟩⟩

theorem Quietly.working {Result : Type} {right : Right} {mark : Mark} {result : Result}
    (quiet : Quietly right mark (.ok result)) : mark.Working right :=
  ⟨quiet.1, (quiet.2 rfl).1, (quiet.2 rfl).2⟩

/-- After an end of a run: it is known which run was ended, and nothing is owed. -/
def Reaped (right : Right) (mark : Mark) (outcome : Except Thrown Bool) : Prop :=
  mark.right = right ∧ ∀ moved, outcome = .ok moved →
    mark.Working right ∧ (moved = true → mark.ended.isSome = true)

theorem revokeWorkerRun_keeps {right : Right} {mark : Mark} (working : mark.Working right)
    (run : Nat) (moved : Bool) (ended : moved = true → mark.ended.isSome = true) :
    Keeps retryDiscipline mark (do revokeWorkerRun run; return moved) (Reaped right) := by
  refine keeps_call_bind working.writes.open (fun _ => ?_) (fun _ => ⟨working.right, nofun⟩)
  have still : (mark.answered (.revokeSession run) ()).Working right :=
    ⟨working.right, working.writes, by simp [Mark.answered, working.revoked]⟩
  exact keeps_pure ⟨working.right, fun _ same => by cases same; exact ⟨still, ended⟩⟩

theorem terminateAttempts_keeps {right : Right} (run attempts : Nat) :
    ∀ {mark : Mark} {current : WorkerRunStatus}, mark.Working right → current ≠ .terminated →
      Keeps retryDiscipline mark (terminateAttempts run attempts current) (Reaped right) := by
  induction attempts with
  | zero =>
      intro mark current working _
      exact keeps_throw ⟨working.right, nofun⟩
  | succ attempts ih =>
      intro mark current working live
      rw [terminateAttempts]
      split
      next => exact keeps_throw ⟨working.right, nofun⟩
      next =>
        refine keeps_call_bind ⟨working.writes, live⟩ (fun matched => ?_)
          (fun _ => ⟨working.right, nofun⟩)
        cases matched with
        | true =>
            -- The run is ended by this UPDATE: its Handle is revoked next.
            refine keeps_call_bind working.writes.open (fun _ => ?_)
              (fun _ => ⟨working.right, nofun⟩)
            refine keeps_pure ⟨working.right, fun moved same => ⟨?_, fun _ => rfl⟩⟩
            refine ⟨working.right, working.writes, ?_⟩
            simp [retryDiscipline, Mark.after, Mark.answered, working.revoked]
        | false =>
            refine keeps_call_bind trivial (fun row => ?_) (fun _ => ⟨working.right, nofun⟩)
            cases row with
            | none =>
                exact keeps_pure ⟨working.right, fun moved same => ⟨working, by cases same; nofun⟩⟩
            | some reread =>
                by_cases ended : reread.status = .terminated
                · simp only [if_pos ended]
                  exact revokeWorkerRun_keeps working run false nofun
                · simp only [if_neg ended]
                  exact ih working ended

theorem terminateWorkerRunRow_keeps {right : Right} {mark : Mark} (working : mark.Working right)
    (run : Nat) :
    Keeps retryDiscipline mark (terminateWorkerRunRow run) (Reaped right) := by
  refine keeps_call_bind trivial (fun row => ?_) (fun _ => ⟨working.right, nofun⟩)
  cases row with
  | none => exact keeps_pure ⟨working.right, fun moved same => ⟨working, by cases same; nofun⟩⟩
  | some row =>
      by_cases ended : row.status = .terminated
      · simp only [if_pos ended]
        exact revokeWorkerRun_keeps working run false nofun
      · simp only [if_neg ended]
        exact terminateAttempts_keeps run 3 working ended

/-- After a write of the Task: nothing else about the transaction has changed. -/
def StillWorking {Result : Type} (right : Right) (ended : Option Nat) (mark : Mark)
    (_ : Except Thrown Result) : Prop :=
  mark.Working right ∧ mark.ended = ended

theorem updateTask_keeps {right : Right} {mark : Mark} (working : mark.Working right)
    {expected : TaskStatus} (going : expected.ended = false) (change : TaskChange) :
    Keeps retryDiscipline mark (query (.updateTask expected change))
      (StillWorking right mark.ended) := by
  refine keeps_call ⟨working.writes, going⟩ fun outcome => ?_
  cases outcome with
  | error thrown => exact ⟨working, rfl⟩
  | ok matched =>
      cases matched with
      | true => exact ⟨⟨working.right, Or.inr rfl, working.revoked⟩, rfl⟩
      | false => exact ⟨working, rfl⟩

theorem failTaskRow_keeps {right : Right} {mark : Mark} (working : mark.Working right)
    (reason : TaskFailureReason) :
    Keeps retryDiscipline mark (failTaskRow reason) (StillWorking right mark.ended) := by
  refine keeps_call_bind trivial (fun row => ?_) (fun _ => ⟨working, rfl⟩)
  cases row with
  | none => exact keeps_pure ⟨working, rfl⟩
  | some row =>
      by_cases ended : row.status.ended = true
      · simp only [if_pos ended]
        exact keeps_pure ⟨working, rfl⟩
      · simp only [if_neg ended]
        have going := Bool.eq_false_iff.mpr ended
        simp only [walk_fail row.status going]
        exact keeps_bind (updateTask_keeps working going _) (fun _ _ held => keeps_pure held)
          (fun _ _ held => held)

theorem attemptCompleteTask_keeps {right : Right} {mark : Mark} (working : mark.Working right)
    (status : TaskStatus) :
    Keeps retryDiscipline mark (attemptCompleteTask status) (StillWorking right mark.ended) := by
  rw [attemptCompleteTask]
  split
  next => exact keeps_throw ⟨working, rfl⟩
  next target walked =>
    by_cases ended : status.ended = true
    · rw [walk_ended ended] at walked
      cases walked
    · exact updateTask_keeps working (Bool.eq_false_iff.mpr ended) _

/-- The run is ended and its outcome is not looked at. -/
theorem terminateQuietly_keeps {right : Right} {mark : Mark} (working : mark.Working right)
    (run : Nat) :
    Keeps retryDiscipline mark (do let _ ← terminateWorkerRunRow run) (Quietly right) :=
  keeps_bind (terminateWorkerRunRow_keeps working run)
    (fun _ moved held => keeps_pure (held.2 moved rfl).1.quietly)
    (fun _ _ held => ⟨held.1, nofun⟩)

theorem completeTaskWithResult_keeps {right : Right} {mark : Mark} (working : mark.Working right)
    (run : Nat) :
    Keeps retryDiscipline mark (completeTaskWithResult run) (Quietly right) := by
  refine keeps_call_bind trivial (fun row => ?_) (fun _ => working.quietly)
  cases row with
  | none => exact keeps_throw working.quietly
  | some row =>
      refine keeps_bind (attemptCompleteTask_keeps working row.status) ?_
        (fun _ _ held => held.1.quietly)
      intro second matched held
      cases matched with
      | true => exact terminateQuietly_keeps held.1 run
      | false =>
          refine keeps_call_bind trivial (fun reread => ?_) (fun _ => held.1.quietly)
          cases reread with
          | none => exact keeps_throw held.1.quietly
          | some reread =>
              by_cases ended : reread.status.ended = true
              · simp only [if_pos ended]
                exact keeps_throw held.1.quietly
              · simp only [if_neg ended]
                refine keeps_bind (attemptCompleteTask_keeps held.1 reread.status) ?_
                  (fun _ _ later => later.1.quietly)
                intro last again later
                cases again with
                | true => exact terminateQuietly_keeps later.1 run
                | false => exact keeps_throw later.1.quietly

theorem failTaskForModelRefusal_keeps {right : Right} {mark : Mark}
    (working : mark.Working right) (run : Nat) :
    Keeps retryDiscipline mark (failTaskForModelRefusal run) (Quietly right) :=
  keeps_bind (failTaskRow_keeps working _)
    (fun _ _ held => terminateQuietly_keeps held.1 run) (fun _ _ held => held.1.quietly)

/-- Outside a transaction only worker-supervisor is called. -/
theorem stopContainers_keeps (mark : Mark) (runs : List Nat) :
    Keeps retryDiscipline mark (each (fun run => bestEffort (query (.supervisorTerminate run))) runs)
      fun last _ => last = mark :=
  keeps_each (fun run _ before same => same ▸ keeps_bestEffort (supervisorTerminate_keeps run before))
    rfl

theorem failTaskAndReapWorkerRuns_keeps {right : Right} (held : right.held = true)
    (reason : TaskFailureReason) :
    Keeps retryDiscipline (.resting right) (failTaskAndReapWorkerRuns reason)
      fun last _ => last = .resting right := by
  refine keeps_bind (keeps_quietly held ?_) ?_ (fun _ _ same => same)
  · refine keeps_call_bind trivial (fun runs => ?_)
      (fun _ => (Mark.working_opening right).quietly)
    have reaped : Keeps retryDiscipline (.opening right)
        (each (fun run => do let _ ← terminateWorkerRunRow run) runs) (Quietly right) :=
      keeps_each (fun run _ before quiet => terminateQuietly_keeps quiet.working run)
        (Mark.working_opening right).quietly
    refine keeps_bind reaped ?_ (fun _ _ quiet => ⟨quiet.1, nofun⟩)
    intro reached _ quiet
    exact keeps_bind (failTaskRow_keeps quiet.working reason)
      (fun _ _ later => keeps_pure later.1.quietly) (fun _ _ later => later.1.quietly)
  · rintro reached runs rfl
    exact stopContainers_keeps _ runs

/-! ### Spawning -/

/-- A right to insert a run of this attempt. -/
def Right.inserts (right : Right) (attempt : Nat) : Prop :=
  right = .first ∧ attempt = 1 ∨ right = .retry

theorem Right.inserts.held {right : Right} {attempt : Nat} (inserts : right.inserts attempt) :
    right.held = true := by
  rcases inserts with ⟨rfl, _⟩ | rfl <;> rfl

/-- After the creating transaction: the right is used up, or untouched. -/
def Used (right : Right) (mark : Mark) : Prop :=
  mark = .resting .none ∨ mark = .resting right

theorem createRun_keeps {right : Right} {attempt : Nat} (inserts : right.inserts attempt) :
    Keeps retryDiscipline (.opening right) (createRun attempt) fun last outcome =>
      (outcome.isOk = true → last.stage ≠ .closed ∧ last.unrevoked = []) ∧
        (last.right.commit = .none ∧ last.right.abandon = .none ∨
          last.right = right ∧ outcome.isOk = false) := by
  refine keeps_call_bind rfl (fun status => ?_) (fun _ => ⟨nofun, Or.inr ⟨rfl, rfl⟩⟩)
  cases status with
  | none => exact keeps_throw ⟨nofun, Or.inr ⟨rfl, rfl⟩⟩
  | some status =>
      by_cases ended : status.ended = true
      · simp only [if_pos ended]
        refine keeps_throw ⟨nofun, Or.inr ⟨?_, rfl⟩⟩
        simp [retryDiscipline, Mark.after, Mark.answered, ended, Mark.opening]
      · simp only [if_neg ended]
        have sharing : retryDiscipline.after (.opening right) .readTaskForShare (.ok (some status)) =
            ⟨right, .sharing, none, []⟩ := by
          simp [retryDiscipline, Mark.after, Mark.answered, ended, Mark.opening]
        rw [sharing]
        refine keeps_call_bind trivial (fun _ => ?_) (fun _ => ⟨nofun, Or.inr ⟨rfl, rfl⟩⟩)
        refine keeps_call ⟨rfl, inserts⟩ fun outcome => ?_
        cases outcome with
        | error thrown => exact ⟨nofun, Or.inr ⟨rfl, rfl⟩⟩
        | ok run =>
            rcases inserts with ⟨rfl, _⟩ | rfl
            · exact ⟨fun _ => ⟨nofun, rfl⟩, Or.inl ⟨rfl, rfl⟩⟩
            · exact ⟨fun _ => ⟨nofun, rfl⟩, Or.inl ⟨rfl, rfl⟩⟩

theorem updateRun_keeps {right : Right} {mark : Mark} (working : mark.Working right) (run : Nat)
    {expected status : WorkerRunStatus} (live : expected ≠ .terminated) :
    Keeps retryDiscipline mark (query (.updateRun run expected status)) fun last outcome =>
      last.right = right ∧ last.mayWrite ∧
        (last.unrevoked = [] ∨ last.unrevoked = [run] ∧ outcome.isOk = true) ∧
        (status ≠ .terminated → last.unrevoked = []) := by
  refine keeps_call ⟨working.writes, live⟩ fun outcome => ?_
  cases outcome with
  | error thrown =>
      exact ⟨working.right, working.writes, Or.inl working.revoked, fun _ => working.revoked⟩
  | ok matched =>
      by_cases ends : matched = true ∧ status = .terminated
      · have marked : retryDiscipline.after mark (.updateRun run expected status) (.ok matched) =
            { mark with ended := some run, unrevoked := run :: mark.unrevoked } := if_pos ends
        rw [marked, working.revoked]
        exact ⟨working.right, working.writes, Or.inr ⟨rfl, rfl⟩, fun live' => absurd ends.2 live'⟩
      · have marked : retryDiscipline.after mark (.updateRun run expected status) (.ok matched) =
            mark := if_neg ends
        rw [marked]
        exact ⟨working.right, working.writes, Or.inl working.revoked, fun _ => working.revoked⟩

/-- The transaction of a spawn that failed ends the run and revokes its Handle. -/
theorem spawnFailed_keeps {right : Right} (run : Nat) :
    Keeps retryDiscipline (.opening right)
      (do
        let _ ← query (.updateRun run .provisioning .terminated)
        query (.revokeSession run)) (Quietly right) := by
  refine keeps_bind (updateRun_keeps (Mark.working_opening right) run nofun) ?_
    (fun _ _ held => ⟨held.1, nofun⟩)
  rintro last matched ⟨same, writes, owed, _⟩
  refine keeps_call writes.open fun outcome => ?_
  cases outcome with
  | error thrown => exact ⟨same, nofun⟩
  | ok revoked =>
      refine ⟨same, fun _ => ⟨writes, ?_⟩⟩
      rcases owed with none' | ⟨one, _⟩
      · simp [retryDiscipline, Mark.after, Mark.answered, none']
      · simp [retryDiscipline, Mark.after, Mark.answered, one]

theorem spawnStarted_keeps {right : Right} (run : Nat) :
    Keeps retryDiscipline (.opening right)
      (do
        if ← query (.updateRun run .provisioning .running) then return
        else bestEffort (query (.supervisorTerminate run))) (Quietly right) := by
  refine keeps_bind (updateRun_keeps (Mark.working_opening right) run nofun) ?_
    (fun _ _ held => ⟨held.1, nofun⟩)
  rintro last matched ⟨same, writes, _, unowed⟩
  have quiet : ∀ outcome : Except Thrown Unit, Quietly right last outcome :=
    fun _ => ⟨same, fun _ => ⟨writes, unowed nofun⟩⟩
  cases matched with
  | true => exact keeps_pure (quiet _)
  | false =>
      exact keeps_mono (keeps_bestEffort (supervisorTerminate_keeps run last))
        fun _ outcome equal => equal ▸ quiet outcome

theorem spawnWorkerRun_keeps {right : Right} {attempt : Nat} (inserts : right.inserts attempt) :
    Keeps retryDiscipline (.resting right) (spawnWorkerRun attempt)
      fun last _ => Used right last := by
  refine keeps_call_bind trivial (fun _ => ?_) (fun _ => Or.inr rfl)
  have created : Keeps retryDiscipline (.resting right) (withWorkspace .any (createRun attempt))
      fun last outcome =>
        last = .resting .none ∨ last = .resting right ∧ outcome.isOk = false := by
    refine keeps_withWorkspace (createRun_keeps inserts) ?_ ?_ ?_
    · rintro last run ⟨opened, used⟩
      obtain ⟨isOpen, revoked⟩ := opened rfl
      refine ⟨isOpen, revoked, Or.inl ?_⟩
      rcases used with ⟨none', _⟩ | ⟨_, impossible⟩
      · rw [none']
      · cases impossible
    · rintro last outcome thrown ⟨_, used⟩
      rcases used with ⟨_, none'⟩ | ⟨same, _⟩
      · rw [none']
        exact Or.inl rfl
      · rw [same, Right.held_abandon inserts.held]
        exact Or.inr ⟨rfl, rfl⟩
    · intro thrown
      rw [Right.held_abandon inserts.held]
      exact Or.inr ⟨rfl, rfl⟩
  refine keeps_bind created ?_ ?_
  · rintro last run (rfl | ⟨_, impossible⟩)
    · have spawned : Keeps retryDiscipline (.resting .none) (query (.supervisorSpawn run))
          fun last _ => last = .resting .none :=
        keeps_call trivial fun outcome => by cases outcome <;> rfl
      have caught : Keeps retryDiscipline (.resting .none)
          (tryCatch (query (.supervisorSpawn run)) fun thrown => do
            withWorkspace .spawnFailed do
              let _ ← query (.updateRun run .provisioning .terminated)
              query (.revokeSession run)
            throw thrown) fun last _ => last = .resting .none := by
        refine keeps_catch spawned (fun _ _ same => same) ?_
        rintro reached thrown rfl
        exact keeps_bind (keeps_quietly rfl (spawnFailed_keeps run))
          (fun _ _ same => keeps_throw same) (fun _ _ same => same)
      refine keeps_bind caught ?_ (fun _ _ same => Or.inl same)
      · rintro reached _ rfl
        exact keeps_mono (keeps_quietly rfl (spawnStarted_keeps run)) fun _ _ same => Or.inl same
    · cases impossible
  · rintro last thrown (same | ⟨same, _⟩)
    · exact Or.inl same
    · exact Or.inr same

/-- Whatever is left of the right, nothing is open. -/
theorem Used.rests {right : Right} {mark : Mark} (used : Used right mark)
    (held : right.held = true) : mark.rests := by
  rcases used with rfl | rfl
  · exact ⟨.none, rfl, rfl⟩
  · exact ⟨right, held, rfl⟩

theorem reap_rests {right : Right} {mark : Mark} (used : Used right mark)
    (held : right.held = true) (reason : TaskFailureReason) :
    Keeps retryDiscipline mark (failTaskAndReapWorkerRuns reason) fun last _ => Used right last := by
  rcases used with rfl | rfl
  · exact keeps_mono (failTaskAndReapWorkerRuns_keeps rfl reason) fun _ _ same => Or.inl same
  · exact keeps_mono (failTaskAndReapWorkerRuns_keeps held reason) fun _ _ same => Or.inr same

/-- A read in a transaction of its own. -/
theorem readAlone_keeps {right : Right} (held : right.held = true) {op : Call}
    (permitted : ∀ mark : Mark, mark.permits op)
    (teaches : ∀ (mark : Mark) outcome, mark.after op outcome = mark) :
    Keeps retryDiscipline (.resting right) (withWorkspace .any (query op))
      fun last _ => last = .resting right :=
  keeps_quietly held <| keeps_call (permitted _) fun outcome => by
    have same : retryDiscipline.after (.opening right) op outcome = .opening right :=
      teaches (.opening right) outcome
    rw [same]
    exact (Mark.working_opening right).quietly

theorem readRun_keeps {right : Right} (held : right.held = true) (run : Nat) :
    Keeps retryDiscipline (.resting right) (withWorkspace .any (query (.readRun run)))
      fun last _ => last = .resting right :=
  readAlone_keeps held (fun _ => trivial) fun _ outcome => by cases outcome <;> rfl

theorem readTask_keeps {right : Right} (held : right.held = true) :
    Keeps retryDiscipline (.resting right) (withWorkspace .any (query .readTask))
      fun last _ => last = .resting right :=
  readAlone_keeps held (fun _ => trivial) fun _ outcome => by cases outcome <;> rfl

theorem spawnWorkerRunForRetry_keeps (failed : WorkerRunRow) :
    Keeps retryDiscipline (.resting .retry) (spawnWorkerRunForRetry failed)
      fun last _ => Used .retry last := by
  unfold spawnWorkerRunForRetry
  refine keeps_catch (?attempted : Keeps _ _ _ fun last _ => Used .retry last)
    (fun _ _ used => used) fun _ _ used => reap_rests used rfl _
  case attempted =>
    refine keeps_bind (readAlone_keeps rfl (fun _ => trivial) fun _ outcome => by
      cases outcome <;> rfl) ?_ (fun _ _ same => Or.inr same)
    rintro reached handle rfl
    cases handle with
    | none => exact keeps_throw (Or.inr rfl)
    | some handle =>
        refine keeps_bind (readAlone_keeps rfl (fun _ => trivial) fun _ outcome => by
          cases outcome <;> rfl) ?_ (fun _ _ same => Or.inr same)
        rintro again _ rfl
        exact spawnWorkerRun_keeps (Or.inr rfl)

theorem startTask_keeps :
    Keeps retryDiscipline (.resting .first) startTask fun last _ => last.rests := by
  have inserts : Right.inserts .first 1 := Or.inl ⟨rfl, rfl⟩
  have spawned : Keeps retryDiscipline (.resting .first)
      (tryCatch (spawnWorkerRun 1) fun thrown => do
        failTaskAndReapWorkerRuns .spawnFailed
        throw thrown) fun last _ => Used .first last := by
    refine keeps_catch (spawnWorkerRun_keeps inserts) (fun _ _ used => used) ?_
    intro reached thrown used
    exact keeps_bind (reap_rests used rfl _) (fun _ _ later => keeps_throw later)
      (fun _ _ later => later)
  refine keeps_bind spawned ?_ (fun _ _ used => used.rests rfl)
  · intro reached _ used
    have starts : ∀ right : Right, Keeps retryDiscipline (.opening right)
        (do let _ ← query (.updateTask .queued .start)) (Quietly right) := fun right =>
      keeps_bind (updateTask_keeps (Mark.working_opening right) rfl _)
        (fun _ _ held => keeps_pure held.1.quietly) (fun _ _ held => held.1.quietly)
    rcases used with rfl | rfl
    · exact keeps_mono (keeps_quietly rfl (starts _)) fun _ _ same => ⟨_, rfl, same⟩
    · exact keeps_mono (keeps_quietly rfl (starts _)) fun _ _ same => ⟨_, rfl, same⟩

/-! ### Reactions -/

theorem failIfMoved_keeps {right : Right} (run : Nat) (reason : TaskFailureReason) :
    Keeps retryDiscipline (.opening right) (failIfMoved run reason) (Quietly right) := by
  refine keeps_bind (terminateWorkerRunRow_keeps (Mark.working_opening right) run) ?_
    (fun _ _ held => ⟨held.1, nofun⟩)
  intro reached moved held
  obtain ⟨working, _⟩ := held.2 moved rfl
  cases moved with
  | true => exact keeps_mono (failTaskRow_keeps working reason) fun _ _ later => later.1.quietly
  | false => exact keeps_pure working.quietly

theorem decideExited_keeps {right : Right} (run : Nat) (task : TaskRow)
    (reason : TaskFailureReason) :
    Keeps retryDiscipline (.opening right) (decideExited run task reason) (Quietly right) := by
  refine keeps_bind (terminateWorkerRunRow_keeps (Mark.working_opening right) run) ?_
    (fun _ _ held => ⟨held.1, nofun⟩)
  intro reached moved held
  obtain ⟨working, _⟩ := held.2 moved rfl
  cases moved with
  | true =>
      by_cases decides : task.status = .running ∨ task.status = .waitingApproval
      · simp only [if_pos decides]
        exact keeps_mono (failTaskRow_keeps working reason) fun _ _ later => later.1.quietly
      · simp only [if_neg decides]
        exact keeps_pure working.quietly
  | false => exact keeps_pure working.quietly

/-- The retry is claimed, or the transaction ends like any other. -/
theorem claimRetry_keeps {right : Right} (held : right.held = true) (run : Nat) {task : TaskRow}
    (retries : task.retries = true) :
    Keeps retryDiscipline (.opening right) (claimRetry run task) fun last outcome =>
      Quietly right last outcome ∧ outcome ≠ .ok true ∨
        last.stage ≠ .closed ∧ last.unrevoked = [] ∧ (∃ ended, last.right = .claims ended) ∧
          outcome = .ok true := by
  have first : task.retryCount = 0 := by
    simp only [TaskRow.retries, Bool.and_eq_true, decide_eq_true_eq] at retries
    omega
  refine keeps_bind (terminateWorkerRunRow_keeps (Mark.working_opening right) run) ?_
    (fun _ _ reaped => Or.inl ⟨⟨reaped.1, nofun⟩, nofun⟩)
  intro reached moved reaped
  obtain ⟨working, ended⟩ := reaped.2 moved rfl
  cases moved with
  | false => exact keeps_pure (Or.inl ⟨working.quietly, nofun⟩)
  | true =>
      have known := ended rfl
      have free : reached.right.held = true := working.right ▸ held
      refine keeps_call_bind ⟨working.writes, first, known, free⟩ (fun bumped => ?_)
        (fun _ => Or.inl ⟨working.quietly, nofun⟩)
      cases bumped with
      | true =>
          obtain ⟨run, found⟩ := Option.isSome_iff_exists.mp known
          have marked : retryDiscipline.after reached (.addRetry task.retryCount) (.ok true) =
              { reached with stage := .wrote, right := .claims run } := by
            simp [retryDiscipline, Mark.after, Mark.answered, found]
          rw [marked]
          exact keeps_pure (Or.inr ⟨nofun, working.revoked, ⟨run, rfl⟩, rfl⟩)
      | false =>
          have marked : retryDiscipline.after reached (.addRetry task.retryCount) (.ok false) =
              reached := by
            simp [retryDiscipline, Mark.after, Mark.answered]
          rw [marked]
          exact keeps_bind (failTaskRow_keeps working _)
            (fun _ _ later => keeps_pure (Or.inl ⟨later.1.quietly, nofun⟩))
            (fun _ _ later => Or.inl ⟨later.1.quietly, nofun⟩)

theorem reactTo_keeps {right : Right} (held : right.held = true) (failed : WorkerRunRow)
    (task : TaskRow) (status : TaskSupervisorState) :
    Keeps retryDiscipline (.resting right) (reactTo failed task status)
      fun last _ => last.rests := by
  have quietly : ∀ {purpose : Purpose} {body : Script Unit},
      Keeps retryDiscipline (.opening right) body (Quietly right) →
      Keeps retryDiscipline (.resting right) (withWorkspace purpose body)
        fun last _ => last.rests :=
    fun inside => keeps_mono (keeps_quietly held inside)
      fun _ _ same => ⟨right, held, same⟩
  cases status with
  | running => exact keeps_pure (Mark.rests_resting held)
  | exited => exact quietly (decideExited_keeps ..)
  | terminated timeout => exact quietly (decideExited_keeps ..)
  | failed =>
      by_cases retries : task.retries = true
      · simp only [reactTo, if_pos retries]
        have claimed : Keeps retryDiscipline (.resting right)
            (withWorkspace (.reaction .failed task) (claimRetry failed.id task))
            fun last outcome =>
              last.rests ∧ outcome ≠ .ok true ∨ last = .resting .retry ∧ outcome = .ok true := by
          refine keeps_withWorkspace (claimRetry_keeps held failed.id retries) ?_ ?_ ?_
          · rintro last result (⟨⟨same, fine⟩, unclaimed⟩ | ⟨opened, revoked, ⟨run, claims⟩, won⟩)
            · obtain ⟨writes, revoked⟩ := fine rfl
              refine ⟨writes.open, revoked, Or.inl ⟨?_, unclaimed⟩⟩
              rw [same, Right.held_commit held]
              exact Mark.rests_resting held
            · refine ⟨opened, revoked, Or.inr ⟨?_, won⟩⟩
              rw [claims]
              rfl
          · intro last outcome thrown _
            exact Or.inl ⟨Mark.rests_resting (Right.abandon_held _), nofun⟩
          · intro thrown
            exact Or.inl ⟨Mark.rests_resting (Right.abandon_held _), nofun⟩
        refine keeps_bind claimed ?_ ?_
        · rintro last won (⟨rests, lost⟩ | ⟨rfl, same⟩)
          · cases won with
            | true => exact absurd rfl lost
            | false => exact keeps_pure rests
          · cases same
            exact keeps_mono (spawnWorkerRunForRetry_keeps failed) fun _ _ used => used.rests rfl
        · rintro last thrown (⟨rests, _⟩ | ⟨_, impossible⟩)
          · exact rests
          · cases impossible
      · simp only [reactTo, if_neg retries]
        exact quietly (failIfMoved_keeps ..)

theorem reactToSupervisorStatus_keeps {right : Right} (held : right.held = true) (run : Nat) :
    Keeps retryDiscipline (.resting right) (reactToSupervisorStatus run)
      fun last _ => last.rests := by
  have resting := Mark.rests_resting held
  refine keeps_bind (readRun_keeps held run) ?_ (fun _ _ same => ⟨right, held, same⟩)
  rintro reached row rfl
  cases row with
  | none => exact keeps_pure resting
  | some row =>
      by_cases ended : row.status = .terminated
      · simp only [if_pos ended]
        exact keeps_pure resting
      · simp only [if_neg ended]
        have asked : Keeps retryDiscipline (.resting right)
            (tryCatch (query (.supervisorStatus run)) fun _ => pure none)
            fun last _ => last = .resting right := by
          have once : Keeps retryDiscipline (.resting right) (query (.supervisorStatus run))
              fun last _ => last = .resting right :=
            keeps_call trivial fun outcome => by cases outcome <;> rfl
          exact keeps_catch once (fun _ _ same => same) (fun _ _ same => keeps_pure same)
        refine keeps_bind asked ?_ (fun _ _ same => ⟨right, held, same⟩)
        rintro reached status rfl
        cases status with
        | none => exact keeps_pure resting
        | some status =>
            by_cases running : status = .running
            · simp only [if_pos running]
              exact keeps_pure resting
            · simp only [if_neg running]
              refine keeps_bind (readTask_keeps held) ?_ (fun _ _ same => ⟨right, held, same⟩)
              rintro reached task rfl
              cases task with
              | none => exact keeps_pure resting
              | some task => exact reactTo_keeps held row task status

/-! ### Cancel, usage, approval routing, the reaper -/

theorem cancelTaskRow_keeps {right : Right} :
    Keeps retryDiscipline (.opening right) cancelTaskRow (Quietly right) := by
  have working := Mark.working_opening right
  refine keeps_call_bind trivial (fun row => ?_) (fun _ => working.quietly)
  cases row with
  | none => exact keeps_throw working.quietly
  | some current =>
      by_cases ended : current.status.ended = true
      · simp only [if_pos ended]
        exact keeps_pure working.quietly
      · simp only [if_neg ended]
        have going := Bool.eq_false_iff.mpr ended
        simp only [walk_cancel current.status going]
        refine keeps_bind (updateTask_keeps working going _) ?_ (fun _ _ held => held.1.quietly)
        intro reached matched held
        cases matched with
        | true => exact keeps_pure held.1.quietly
        | false =>
            refine keeps_call_bind trivial (fun reread => ?_) (fun _ => held.1.quietly)
            cases reread with
            | none => exact keeps_throw held.1.quietly
            | some reread => exact keeps_pure held.1.quietly

theorem terminateTaskWith_keeps {right : Right} (held : right.held = true) :
    Keeps retryDiscipline (.resting right) terminateTaskWith
      fun last _ => last = .resting right := by
  refine keeps_bind (readTask_keeps held) ?_ (fun _ _ same => same)
  rintro reached task rfl
  cases task with
  | none => exact keeps_throw rfl
  | some task =>
      by_cases ended : task.status.ended = true
      · simp only [if_pos ended]
        exact keeps_pure rfl
      · simp only [if_neg ended]
        refine keeps_bind (keeps_quietly held cancelTaskRow_keeps) ?_ (fun _ _ same => same)
        rintro reached _ rfl
        have listed : Keeps retryDiscipline (.resting right)
            (withWorkspace .any (query (.runIds true))) fun last _ => last = .resting right :=
          readAlone_keeps held (fun _ => trivial) fun _ outcome => by cases outcome <;> rfl
        refine keeps_bind listed ?_ (fun _ _ same => same)
        rintro reached runs rfl
        have each' : ∀ run, Keeps retryDiscipline (.resting right)
            (do
              bestEffort (query (.supervisorTerminate run))
              withWorkspace .any do
                let _ ← terminateWorkerRunRow run)
            fun last _ => last = .resting right := fun run => by
          refine keeps_bind (keeps_bestEffort (supervisorTerminate_keeps run _)) ?_
            (fun _ _ same => same)
          rintro reached _ rfl
          exact keeps_quietly held (terminateQuietly_keeps (Mark.working_opening right) run)
        exact keeps_each (fun run _ before same => same ▸ each' run) rfl

/-- The end of `recordWorkerRunUsage`: every live run is ended, its container stopped. -/
theorem reapLiveRuns_keeps {right : Right} {mark : Mark} (working : mark.Working right) :
    Keeps retryDiscipline mark
      (do
        let runs ← query (.runIds true)
        each
          (fun run => do
            let _ ← terminateWorkerRunRow run
            bestEffort (query (.supervisorTerminate run)))
          runs) (Quietly right) := by
  refine keeps_call_bind trivial (fun runs => ?_) (fun _ => working.quietly)
  refine keeps_each ?_ working.quietly
  intro run _ before holds
  refine keeps_bind (terminateWorkerRunRow_keeps holds.working run) ?_
    (fun _ _ reaped => ⟨reaped.1, nofun⟩)
  intro ended moved reaped
  have after := (reaped.2 moved rfl).1
  exact keeps_mono (keeps_bestEffort (supervisorTerminate_keeps run ended))
    fun _ _ same => same ▸ after.quietly

theorem recordWorkerRunUsage_keeps {right : Right} (run tokens : Nat) :
    Keeps retryDiscipline (.opening right) (recordWorkerRunUsage run tokens) (Quietly right) := by
  have working := Mark.working_opening right
  refine keeps_call_bind trivial (fun row => ?_) (fun _ => working.quietly)
  cases row with
  | none => exact keeps_pure working.quietly
  | some row =>
      refine keeps_call_bind (Or.inl rfl) (fun task => ?_) (fun _ => working.quietly)
      have wrote : (Mark.Working right
          (retryDiscipline.after (.opening right) (.addTokens tokens) (.ok task))) :=
        ⟨rfl, Or.inr rfl, rfl⟩
      cases task with
      | none => exact keeps_pure wrote.quietly
      | some task =>
          by_cases spent : task.overBudget = true
          · simp only [if_pos spent]
            by_cases ended : task.status.ended = true
            · simp only [if_pos ended]
              exact reapLiveRuns_keeps wrote
            · simp only [if_neg ended]
              exact keeps_bind (failTaskRow_keeps wrote _)
                (fun _ _ later => reapLiveRuns_keeps later.1) (fun _ _ later => later.1.quietly)
          · simp only [if_neg spent]
            exact keeps_pure wrote.quietly

/-- Both routings: one read, and one guarded update from the status read. -/
theorem routing_keeps {right : Right} {expected : TaskStatus} (going : expected.ended = false)
    (change : TaskChange) :
    Keeps retryDiscipline (.opening right)
      (do
        match ← query .readTask with
        | none => return
        | some task =>
            if task.status = expected then
              let _ ← query (.updateTask expected change)
            else return) (Quietly right) := by
  have working := Mark.working_opening right
  refine keeps_call_bind trivial (fun row => ?_) (fun _ => working.quietly)
  cases row with
  | none => exact keeps_pure working.quietly
  | some task =>
      by_cases same : task.status = expected
      · simp only [if_pos same]
        exact keeps_bind (updateTask_keeps working going change)
          (fun _ _ held => keeps_pure held.1.quietly) (fun _ _ held => held.1.quietly)
      · simp only [if_neg same]
        exact keeps_pure working.quietly

theorem reapCandidate_keeps {right : Right} (held : right.held = true) (run : Nat) :
    Keeps retryDiscipline (.resting right) (reapCandidate run) fun last _ => last.rests := by
  have resting := Mark.rests_resting held
  refine keeps_call_bind trivial (fun overdue => ?_) (fun _ => resting)
  cases overdue with
  | true =>
      refine keeps_bind (keeps_bestEffort (supervisorTerminate_keeps run _)) ?_
        (fun _ _ same => ⟨right, held, same⟩)
      rintro reached _ rfl
      exact keeps_mono (keeps_quietly held (failIfMoved_keeps ..))
        fun _ _ same => ⟨right, held, same⟩
  | false => exact reactToSupervisorStatus_keeps held run

theorem sweep_keeps {mark : Mark} (rests : mark.rests) {found : Script Bool}
    (asks : Keeps retryDiscipline mark found fun last _ => last = mark)
    (reason : TaskFailureReason) :
    Keeps retryDiscipline mark (sweep found reason) fun last _ => last.rests := by
  obtain ⟨right, held, rfl⟩ := rests
  have resting := Mark.rests_resting held
  refine keeps_bind asks ?_ (fun _ _ same => same ▸ resting)
  rintro reached due rfl
  cases due with
  | true =>
      refine keeps_mono (keeps_bestEffort (failTaskAndReapWorkerRuns_keeps held reason)) ?_
      intro _ _ same
      exact ⟨right, held, same⟩
  | false => exact keeps_pure resting

theorem runTaskReaper_keeps {right : Right} (held : right.held = true) :
    Keeps retryDiscipline (.resting right) runTaskReaper fun last _ => last.rests := by
  have resting := Mark.rests_resting held
  refine keeps_call_bind trivial (fun runs => ?_) (fun _ => resting)
  have reaped : Keeps retryDiscipline (.resting right)
      (each (fun run => bestEffort (reapCandidate run)) runs) fun last _ => last.rests := by
    refine keeps_each ?_ resting
    rintro run _ before ⟨other, free, rfl⟩
    exact keeps_bestEffort (reapCandidate_keeps free run)
  refine keeps_bind reaped ?_ (fun _ _ rests => rests)
  intro reached _ rests
  refine keeps_bind (sweep_keeps rests (keeps_call trivial fun outcome => ?_) _) ?_
    (fun _ _ still => still)
  · cases outcome <;> rfl
  · intro last _ still
    refine sweep_keeps still (keeps_call trivial fun outcome => ?_) _
    cases outcome <;> rfl

/-- Every call that may start at any time keeps to the discipline from rest to rest. -/
theorem entry_keeps (entry : Entry) :
    Keeps retryDiscipline (.resting .none) entry.script fun last _ => last.rests := by
  have quietly : ∀ {body : Script Unit}, Keeps retryDiscipline (.opening .none) body
      (Quietly .none) → Keeps retryDiscipline (.resting .none) (withWorkspace .any body)
        fun last _ => last.rests :=
    fun inside => keeps_mono (keeps_quietly rfl inside) fun _ _ same => ⟨.none, rfl, same⟩
  have working := Mark.working_opening .none
  cases entry with
  | reaction run => exact reactToSupervisorStatus_keeps rfl run
  | reaper => exact runTaskReaper_keeps rfl
  | terminate =>
      exact keeps_mono (terminateTaskWith_keeps rfl) fun _ _ same => ⟨.none, rfl, same⟩
  | report run => exact quietly (completeTaskWithResult_keeps working run)
  | modelRefusal run => exact quietly (failTaskForModelRefusal_keeps working run)
  | usage run tokens => exact quietly (recordWorkerRunUsage_keeps run tokens)
  | approvalPending => exact quietly (routing_keeps rfl _)
  | approvalResolved => exact quietly (routing_keeps rfl _)
  | ancestorEnds run =>
      refine quietly (keeps_call working.writes.open fun outcome => ?_)
      cases outcome with
      | ok revoked => exact ⟨rfl, fun _ => ⟨Or.inl rfl, rfl⟩⟩
      | error thrown => exact working.quietly

end NextTime.Task
