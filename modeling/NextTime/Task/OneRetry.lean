import NextTime.Task.RetryScripts
import NextTime.Task.RetrySteps

/-
At most one retry, and nothing new under a Task that has ended: every call keeps
the invariant, so every reachable state of the Task and its runs has it.
-/

namespace NextTime.Task

open Interleaving
open ReadCommitted

namespace TaskStore

variable {store : TaskStore} {marks : Nat → Mark} {thread : Nat}

theorem Consistent.same (fits : store.Consistent marks) :
    store.Consistent (Function.update marks thread (marks thread)) := by
  rw [Function.update_eq_self]
  exact fits

theorem Consistent.begins (fits : store.Consistent marks) (purpose : Purpose)
    (closed : (marks thread).stage = .closed) :
    ({ store with purpose := Function.update store.purpose thread purpose } :
      TaskStore).Consistent
        (Function.update marks thread { marks thread with stage := .opened }) := by
  have here := fits.mark thread
  have remarked : store.Consistent
      (Function.update marks thread { marks thread with stage := .opened }) := ?_
  · exact remarked.congr rfl rfl
  refine fits.remark ?_ id
  refine
    { unwritten := fun _ => here.unwritten (Or.inl closed)
      sharing := fun sharing => by cases sharing
      ended := here.ended
      revokes := here.revokes
      inserted := here.inserted
      retryCount := here.retryCount
      right := ?_ }
  have right := here.right
  rw [RightHolds] at right ⊢
  cases found : (marks thread).right with
  | none => trivial
  | first => rw [found] at right; exact right
  | retry => rw [found] at right; exact right
  | claims run => rw [found] at right; exact right
  | firstInserted run =>
      rw [found, closed] at right
      cases right.1
  | retryInserted run =>
      rw [found, closed] at right
      cases right.1

theorem Consistent.updatesTask (fits : store.Consistent marks) {expected : TaskStatus}
    {change : TaskChange} {moved : Store Nat TaskKey TaskKey.Row × Bool}
    (permitted : (marks thread).permits (.updateTask expected change))
    (updated : store.rows.updateWhere thread .task (fun row => row.status = expected)
      (·.change change) = some moved) :
    (store.withRows moved.1).Consistent (Function.update marks thread
      ((marks thread).answered (.updateTask expected change) moved.2)) := by
  obtain ⟨writes, going⟩ := permitted
  rcases Store.updateWhere_cases updated with ⟨rfl, _⟩ | ⟨row, seen, matched, free, rfl⟩
  · exact fits.same
  · have same : row.status = expected := of_decide_eq_true matched
    exact fits.writeTask seen free writes (Or.inr (same ▸ going))
      (.keeps (row.change_retryCount change))

theorem Consistent.addsRetry (fits : store.Consistent marks) {expected : Nat}
    {moved : Store Nat TaskKey TaskKey.Row × Bool}
    (permitted : (marks thread).permits (.addRetry expected))
    (updated : store.rows.updateWhere thread .task
      (fun row => row.retryCount = expected && row.status = .running)
      (fun row => { row with retryCount := row.retryCount + 1 }) = some moved) :
    (store.withRows moved.1).Consistent (Function.update marks thread
      ((marks thread).answered (.addRetry expected) moved.2)) := by
  obtain ⟨writes, zero, ended, _⟩ := permitted
  obtain ⟨run, found⟩ := Option.isSome_iff_exists.mp ended
  rcases Store.updateWhere_cases updated with ⟨rfl, _⟩ | ⟨row, seen, matched, free, rfl⟩
  · simp only [Mark.answered]
    exact fits.same
  · simp only [Mark.answered, found]
    rw [← found]
    rw [Bool.and_eq_true] at matched
    have count : row.retryCount = 0 := (of_decide_eq_true matched.1).trans zero
    exact fits.writeTask seen free writes (Or.inl rfl)
      (.claims count (congrArg Nat.succ count) found)

theorem Consistent.addsTokens (fits : store.Consistent marks) {tokens : Nat}
    {moved : Store Nat TaskKey TaskKey.Row × Bool}
    (writes : (marks thread).mayWrite)
    (updated : store.rows.updateWhere thread .task (fun _ => true)
      (fun row => { row with tokensUsed := row.tokensUsed + tokens }) = some moved) :
    (store.withRows moved.1).Consistent (Function.update marks thread
      { marks thread with stage := .wrote }) := by
  rcases Store.updateWhere_cases updated with ⟨rfl, absent⟩ | ⟨row, seen, _, free, rfl⟩
  · obtain ⟨base, committed, _⟩ := fits.rows.task
    obtain ⟨row, seen⟩ := Store.view_of_committed thread committed
    exact absurd (absent row seen) nofun
  · exact fits.writeTask seen free writes (Or.inl rfl) (.keeps rfl)

theorem Consistent.updatesRun (fits : store.Consistent marks) {run : Nat}
    {expected status : WorkerRunStatus} {moved : Store Nat TaskKey TaskKey.Row × Bool}
    (permitted : (marks thread).permits (.updateRun run expected status))
    (updated : store.rows.updateWhere thread (.run run) (fun row => row.status = expected)
      (fun row => { row with status := status }) = some moved) :
    (store.withRows moved.1).Consistent (Function.update marks thread
      ((marks thread).answered (.updateRun run expected status) moved.2)) := by
  obtain ⟨writes, live⟩ := permitted
  rcases Store.updateWhere_cases updated with ⟨rfl, _⟩ | ⟨row, seen, matched, free, rfl⟩
  · simp only [Mark.answered, false_and, if_false, Bool.false_eq_true]
    exact fits.same
  · have same : row.status = expected := of_decide_eq_true matched
    have going : row.status ≠ .terminated := same ▸ live
    by_cases ends : status = .terminated
    · simp only [Mark.answered, ends, and_self, if_true]
      subst ends
      exact fits.writeRun seen going free writes rfl rfl (Or.inr ⟨rfl, rfl⟩)
        (fun _ owed => List.mem_cons_of_mem _ owed) fun _ => List.mem_cons_self
    · simp only [Mark.answered, ends, and_false, if_false]
      exact fits.writeRun seen going free writes rfl rfl (Or.inl rfl) (fun _ owed => owed)
        fun ended => absurd ended ends

/-- Once every run a transaction has ended is on record, a revocation that finds nothing
to do has been made before. -/
theorem Consistent.revokes (fits : store.Consistent marks) {run : Nat}
    {moved : Store Nat TaskKey TaskKey.Row × Bool}
    (updated : store.rows.updateWhere thread (.handle run) (fun revoked => !revoked)
      (fun _ => true) = some moved) :
    (store.withRows moved.1).Consistent (Function.update marks thread
      ((marks thread).answered (.revokeSession run) ())) := by
  have here := fits.mark thread
  rcases Store.updateWhere_cases updated with ⟨rfl, unmatched⟩ | ⟨row, seen, _, free, rfl⟩
  · refine fits.remark ?_ id
    refine
      { unwritten := here.unwritten
        sharing := here.sharing
        ended := here.ended
        revokes := fun target row found terminated => ?_
        inserted := here.inserted
        retryCount := here.retryCount
        right := here.right }
    rcases here.revokes target row found terminated with viewed | owed
    · exact Or.inl viewed
    · by_cases same : target = run
      · subst same
        have handle : ∃ revoked : Bool, store.rows.view thread (.handle target) = some revoked := by
          cases source : store.rows.committed (.run target) with
          | none =>
              obtain ⟨_, revoked, own⟩ :=
                fits.insertedRun (here.inserted target row found source)
              exact ⟨revoked, Store.view_own own⟩
          | some base =>
              obtain ⟨revoked, committed⟩ := fits.rows.handled target base source
              exact Store.view_of_committed thread committed
        obtain ⟨revoked, seen⟩ := handle
        have already : revoked = true := by simpa using unmatched revoked seen
        exact Or.inl (already ▸ seen)
      · exact Or.inr (List.mem_filter.mpr ⟨owed, decide_eq_true same⟩)
  · have known : run < store.nextRun := by
      by_contra beyond
      have fresh := fits.rows.freshHandle run (Nat.le_of_not_lt beyond)
      have unseen : store.rows.view thread (.handle run) = none :=
        (Store.view_committed fun own found => by rw [fresh.2] at found; cases found).trans fresh.1
      rw [unseen] at seen
      cases seen
    exact fits.writeHandle known free rfl rfl rfl fun other different owed =>
      List.mem_filter.mpr ⟨owed, decide_eq_true different⟩

/-- A call that proceeds keeps the invariant. -/
theorem Consistent.proceeds (fits : store.Consistent marks) {op : Call}
    {moved : TaskStore × Except Thrown op.Answer} (permitted : (marks thread).permits op)
    (performed : proceed thread store op = some moved) :
    moved.1.Consistent (Function.update marks thread ((marks thread).after op moved.2)) := by
  cases op with
  | begins purpose => cases performed; exact fits.begins purpose permitted
  | commits => cases performed; exact fits.commit permitted.2
  | rollsBack => cases performed; exact fits.rollback (Or.inr rfl)
  | readTask => cases performed; exact fits.same
  | readTaskForShare =>
      obtain ⟨locked, found, rfl⟩ := Option.map_eq_some_iff.mp performed
      refine fits.lockTask found permitted ?_
      by_cases going : (locked.2.map (·.status)).any (!·.ended) = true
      · exact Or.inr ⟨if_pos going, by simpa [Option.any_map, Function.comp_def] using going⟩
      · exact Or.inl (if_neg going)
  | updateTask expected change =>
      obtain ⟨locked, found, rfl⟩ := Option.map_eq_some_iff.mp performed
      exact fits.updatesTask permitted found
  | addRetry expected =>
      obtain ⟨locked, found, rfl⟩ := Option.map_eq_some_iff.mp performed
      exact fits.addsRetry permitted found
  | addTokens tokens =>
      obtain ⟨locked, found, rfl⟩ := Option.map_eq_some_iff.mp performed
      exact fits.addsTokens permitted found
  | readRun run => cases performed; exact fits.same
  | updateRun run expected status =>
      obtain ⟨locked, found, rfl⟩ := Option.map_eq_some_iff.mp performed
      exact fits.updatesRun permitted found
  | insertRun attempt => cases performed; exact fits.insertRun permitted.1 permitted.2
  | runIds liveOnly => cases performed; exact fits.same
  | revokeSession run =>
      obtain ⟨locked, found, rfl⟩ := Option.map_eq_some_iff.mp performed
      exact fits.revokes found
  | readHandle run => cases performed; exact fits.same
  | prepares => cases performed; exact fits.same
  | supervisorSpawn run => cases performed; exact fits.same
  | supervisorTerminate run => cases performed; exact fits.same
  | supervisorStatus run => cases performed
  | overdue run => cases performed
  | lostQueuedTask => cases performed
  | orphanedTask => cases performed

/-- A call that fails leaves the tables, unless it ends the transaction. -/
theorem Consistent.fails (fits : store.Consistent marks) {op : Call}
    {moved : TaskStore × Except Thrown op.Answer}
    (performed : perform thread op .fails store = some moved) :
    moved.1.Consistent (Function.update marks thread ((marks thread).after op moved.2)) := by
  cases op with
  | commits => cases performed; exact fits.rollback (Or.inr rfl)
  | rollsBack => cases performed; exact fits.rollback (Or.inr rfl)
  | _ => cases performed; exact fits.same

/-- A COMMIT whose answer is lost: a claim it made is nobody's right. -/
theorem Consistent.commitUnanswered (fits : store.Consistent marks)
    (revoked : (marks thread).unrevoked = []) :
    (store.commit thread).Consistent
      (Function.update marks thread (.resting (marks thread).right.abandon)) := by
  have committed := fits.commit revoked
  by_cases same : (marks thread).right.abandon = (marks thread).right.commit
  · rw [same]
    exact committed
  · have none' : (marks thread).right.abandon = .none := by
      cases found : (marks thread).right <;> rw [found] at same <;>
        first | rfl | exact absurd rfl same
    rw [none', ← Function.update_idem]
    refine committed.remark ?_ (absurd rfl)
    exact .resting (rollback_unwritten store thread .task)
      (fun run => rollback_unwritten store thread (.run run)) trivial

theorem Consistent.performs (fits : store.Consistent marks) {op : Call} {input : Input}
    {moved : TaskStore × Except Thrown op.Answer} (permitted : (marks thread).permits op)
    (performed : perform thread op input store = some moved) :
    moved.1.Consistent (Function.update marks thread ((marks thread).after op moved.2)) := by
  cases input with
  | proceeds => exact fits.proceeds permitted performed
  | fails => exact fits.fails performed
  | answerLost =>
      cases op with
      | commits =>
          cases performed
          exact fits.commitUnanswered permitted.2
      | _ => cases performed
  | reports status =>
      cases op with
      | supervisorStatus run => cases performed; exact fits.same
      | _ => cases performed
  | elapsed passed =>
      cases op with
      | overdue run => cases performed; exact fits.same
      | lostQueuedTask => cases performed; exact fits.same
      | orphanedTask => cases performed; exact fits.same
      | _ => cases performed

/-- A thread at rest may forget a right it has not used. -/
theorem MarkHolds.forget {mark : Mark} (holds : store.MarkHolds thread mark)
    (rests : mark.rests) : store.MarkHolds thread (.resting .none) := by
  obtain ⟨right, held, rfl⟩ := rests
  refine
    { unwritten := fun _ => holds.unwritten (Or.inl rfl)
      sharing := nofun
      ended := nofun
      revokes := holds.revokes
      inserted := fun run row found absent => ?_
      retryCount := fun row _ found => absurd found (holds.unwritten (Or.inl rfl) row)
      right := trivial }
  rcases holds.inserted run row found absent with same | same
  · have none' : right = .firstInserted run := same
    subst none'
    cases held
  · have none' : right = .retryInserted run := same
    subst none'
    cases held

theorem inserted_pending (row : TaskRow) (key : TaskKey) :
    (insertedStore row).rows.pending key = none := rfl

theorem inserted_noRuns (row : TaskRow) : (insertedStore row).noRuns := fun _ => rfl

theorem inserted_rowsHold {row : TaskRow} (inserted : row.inserted) :
    (insertedStore row).RowsHold where
  exclusive := fun key _ _ found => by rw [inserted_pending] at found; cases found
  task := ⟨row, rfl, by rw [inserted.2]; exact Nat.zero_le 1⟩
  freshRun := fun _ _ => ⟨rfl, rfl⟩
  freshHandle := fun _ _ => ⟨rfl, rfl⟩
  handled := fun run _ found => by rw [inserted_noRuns row run] at found; cases found
  revoked := fun run _ found => by rw [inserted_noRuns row run] at found; cases found
  lineage := Or.inl ⟨0, fun run _ found => by rw [inserted_noRuns row run] at found; cases found⟩
  unshared := fun _ _ => rfl

/-- The Task just inserted, with one thread to start it. -/
theorem consistent_inserted {row : TaskRow} (inserted : row.inserted) :
    (insertedStore row).Consistent
      fun thread => if thread = 0 then .resting .first else .resting .none where
  rows := inserted_rowsHold inserted
  pending :=
    { task := fun _ _ _ found => by rw [inserted_pending] at found; cases found
      run := fun _ _ _ _ found => by rw [inserted_pending] at found; cases found
      handle := fun _ _ _ found => by rw [inserted_pending] at found; cases found }
  mark := fun thread => by
    have unwritten : ∀ (key : TaskKey) (version : key.Row),
        (insertedStore row).rows.pending key ≠ some (thread, version) := by
      intro key version found
      rw [inserted_pending] at found
      cases found
    by_cases starter : thread = 0
    · rw [if_pos starter]
      refine .resting (unwritten .task) (fun run => unwritten (.run run))
        ⟨inserted_noRuns row, fun base found => ?_⟩
      cases found
      exact inserted.2
    · rw [if_neg starter]
      exact .resting (unwritten .task) (fun run => unwritten (.run run)) trivial
  alone := fun one other first second => by
    have starter : ∀ who, (if who = 0 then Mark.resting .first else .resting .none).right ≠ .none →
        who = 0 := by
      intro who some'
      by_contra different
      rw [if_neg different] at some'
      exact some' rfl
    exact (starter one first).trans (starter other second).symm

end TaskStore

/-- Every call, entry and death keeps the retry invariant. -/
theorem taskSound : taskMachine.Sound Entry.script retryDiscipline (.resting .none) Mark.rests
    TaskStore.Consistent (fun _ => True) (fun _ _ _ _ => True) where
  entry := entry_keeps
  forgets := fun _ _ thread fits rests =>
    fits.remark ((fits.mark thread).forget rests) (absurd rfl)
  idleRests := ⟨.none, rfl, rfl⟩
  performs := fun _ _ _ _ _ _ fits _ permitted _ performed => fits.performs permitted performed
  dies := fun _ _ _ fits _ => fits.rollback (Or.inl rfl)

/-- The invariant of every reachable state. -/
theorem reachable_consistent {pool : TaskPool} (reached : taskSystem.Reachable pool) :
    ∃ marks, pool.shared.Consistent marks := by
  have disciplined := taskSound.reachable ?_ reached
  · obtain ⟨marks, fits, _⟩ := disciplined
    exact ⟨marks, fits⟩
  · rintro start ⟨row, inserted, rfl⟩
    refine ⟨_, TaskStore.consistent_inserted inserted, fun thread => ?_⟩
    by_cases starter : thread = 0
    · simp only [insertedPool, if_pos starter]
      exact startTask_keeps
    · simp only [insertedPool, if_neg starter]
      exact ⟨.none, rfl, rfl⟩

/-! ### What stays once the Task has ended -/

/-- The status and the runs of a Task that has ended are final. -/
def Settles (before after : TaskStore) : Prop :=
  ∀ task : TaskRow, before.committedTask = some task → task.status.ended = true →
    (∃ later : TaskRow, after.committedTask = some later ∧ later.status = task.status) ∧
      ∀ run, (after.committedRun run).isSome = (before.committedRun run).isSome

theorem Settles.of_committed {before after : TaskStore}
    (same : after.rows.committed = before.rows.committed) : Settles before after := by
  intro task found _
  refine ⟨⟨task, ?_, rfl⟩, fun run => ?_⟩
  · rw [TaskStore.committedTask, same]
    exact found
  · rw [TaskStore.committedRun, TaskStore.committedRun, same]

theorem Settles.trans {first second third : TaskStore} (earlier : Settles first second)
    (later : Settles second third) : Settles first third := by
  intro task found ended
  obtain ⟨⟨middle, seen, same⟩, runs⟩ := earlier task found ended
  obtain ⟨⟨last, present, equal⟩, kept⟩ := later middle seen (same ▸ ended)
  exact ⟨⟨last, present, equal.trans same⟩, fun run => (kept run).trans (runs run)⟩

theorem TaskStore.Consistent.commit_settles {store : TaskStore} {marks : Nat → Mark}
    (fits : store.Consistent marks) (thread : Nat) : Settles store (store.commit thread) := by
  intro task found ended
  refine ⟨?_, fun run => ?_⟩
  · obtain ⟨row, seen⟩ := Store.view_of_committed thread found
    refine ⟨row, seen, ?_⟩
    rcases fits.pending.viewStatus seen found with same | going
    · exact same
    · rw [ended] at going
      cases going
  · change (store.viewRun thread run).isSome = (store.committedRun run).isSome
    cases seen : store.viewRun thread run with
    | some row =>
        rcases fits.viewRun_cases seen with ⟨base, committed, _⟩ | ⟨_, _, inserted⟩
        · exact (congrArg Option.isSome committed).symm
        · -- A transaction that inserts shares a Task that goes on.
          have sharing := (fits.mark thread).right.sharing inserted
          have going := ((fits.mark thread).sharing sharing).2.2 task found
          rw [ended] at going
          cases going
    | none =>
        cases committed : store.committedRun run with
        | none => rfl
        | some base =>
            obtain ⟨row, present⟩ := Store.view_of_committed thread committed
            cases seen.symm.trans present

theorem step_settles {pool next : TaskPool} {label : TaskLabel}
    (reached : taskSystem.Reachable pool) (moved : taskSystem.step pool label = some next) :
    Settles pool.shared next.shared := by
  obtain ⟨marks, fits⟩ := reachable_consistent reached
  change taskMachine.poolStep Entry.script pool label = some next at moved
  cases label with
  | starts thread entry =>
      simp only [Machine.poolStep] at moved
      split at moved
      next => cases moved; exact .of_committed rfl
      next => cases moved
  | dies thread => cases moved; exact .of_committed rfl
  | steps thread input =>
      simp only [Machine.poolStep] at moved
      split at moved
      next => cases moved
      next op rest _ =>
        obtain ⟨result, performed, rfl⟩ := Option.map_eq_some_iff.mp moved
        rcases perform_committed performed with same | ⟨_, same⟩
        · exact .of_committed same
        · rw [show ({ shared := result.1, rest := _ } : TaskPool).shared = _ from same]
          exact fits.commit_settles thread

theorem run_settles {pool final : TaskPool} {labels : List TaskLabel}
    (reached : taskSystem.Reachable pool) (ran : taskSystem.run pool labels = some final) :
    Settles pool.shared final.shared := by
  induction labels generalizing pool with
  | nil =>
      rw [LabelledRun.System.run_nil, Option.some.injEq] at ran
      subst ran
      exact .of_committed rfl
  | cons label labels ih =>
      obtain ⟨next, moved, rest⟩ := taskSystem.run_cons_some ran
      have once : taskSystem.run pool [label] = some next := taskSystem.run_cons [] moved
      exact (step_settles reached moved).trans (ih (reached.run _ once) rest)

/-! ### The runs there are -/

/-- A run the retry path inserted. -/
def WorkerRunRow.isRetry (run : WorkerRunRow) : Bool :=
  decide (run.attempt ≠ 1)

/-- Any two retry runs are one run, so are any two live runs, and a run that has ended
has its Handle revoked. -/
structure TaskStore.OneRetry (store : TaskStore) : Prop where
  retries : ∀ one other (row later : WorkerRunRow), store.committedRun one = some row →
    store.committedRun other = some later → row.isRetry = true → later.isRetry = true →
    one = other
  live : ∀ one other (row later : WorkerRunRow), store.committedRun one = some row →
    store.committedRun other = some later → row.live = true → later.live = true → one = other
  revoked : ∀ run (row : WorkerRunRow), store.committedRun run = some row → row.live = false →
    store.rows.committed (.handle run) = some true

theorem TaskStore.RowsHold.oneRetry {store : TaskStore} (holds : store.RowsHold) :
    store.OneRetry := by
  have notFirst : ∀ {row : WorkerRunRow}, row.attempt = 1 → row.isRetry ≠ true := by
    intro row first retry
    exact of_decide_eq_true retry first
  have notLive : ∀ {row : WorkerRunRow}, row.status = .terminated → row.live ≠ true := by
    intro row ended live
    exact of_decide_eq_true live ended
  refine
    { retries := fun one other row later found present retry again => ?_
      live := fun one other row later found present live alive => ?_
      revoked := fun run row found ended => ?_ }
  · rcases holds.lineage with ⟨first, runs⟩ | ⟨_, first, second, runs⟩
    · exact absurd retry (notFirst (runs one row found).2)
    · rcases runs one row found with ⟨_, _, attempt⟩ | same
      · exact absurd retry (notFirst attempt)
      · rcases runs other later present with ⟨_, _, attempt⟩ | equal
        · exact absurd again (notFirst attempt)
        · exact same.trans equal.symm
  · rcases holds.lineage with ⟨first, runs⟩ | ⟨_, first, second, runs⟩
    · exact (runs one row found).1.trans (runs other later present).1.symm
    · rcases runs one row found with ⟨_, ended, _⟩ | same
      · exact absurd live (notLive ended)
      · rcases runs other later present with ⟨_, ended, _⟩ | equal
        · exact absurd alive (notLive ended)
        · exact same.trans equal.symm
  · exact holds.revoked run row found (not_not.mp (of_decide_eq_false ended))

theorem one_retry_and_quiet_end {pool : TaskPool} (reached : taskSystem.Reachable pool) :
    pool.shared.OneRetry ∧
      ∀ labels final, taskSystem.run pool labels = some final →
        Settles pool.shared final.shared := by
  obtain ⟨marks, fits⟩ := reachable_consistent reached
  exact ⟨fits.rows.oneRetry, fun _ _ ran => run_settles reached ran⟩

/-- The first run crashes, its retry is inserted, and the Task is cancelled before the
retry's container has started. -/
def cancelledRetry : List TaskLabel :=
  runs 0 13 ++ [.starts 1 (.reaction 0)] ++ runs 1 3 ++ [.steps 1 (.reports (some .failed))] ++
    runs 1 21 ++ [.starts 2 .terminate] ++ runs 2 7

theorem one_retry_and_quiet_end_cancelled :
    ∃ pool, taskSystem.run (insertedPool plainTask) cancelledRetry = some pool ∧
      pool.shared.committedTask.any (·.status.ended) = true ∧
      (pool.shared.committedRun 1).any (fun run => run.live && run.isRetry) = true ∧
      pool.shared.OneRetry ∧
      ∀ labels final, taskSystem.run pool labels = some final →
        Settles pool.shared final.shared := by
  have found : (taskSystem.run (insertedPool plainTask) cancelledRetry).any (fun pool =>
      pool.shared.committedTask.any (·.status.ended) &&
        (pool.shared.committedRun 1).any fun run => run.live && run.isRetry) = true := by
    decide +kernel
  obtain ⟨pool, ran, facts⟩ := Option.any_eq_true .. |>.mp found
  rw [Bool.and_eq_true] at facts
  exact ⟨pool, ran, facts.1, facts.2, one_retry_and_quiet_end (reachable_of_run ran)⟩

end NextTime.Task
