import NextTime.Task.DecisionScripts
import NextTime.Task.OneRetry

/-
The transaction that ends the last live run of a Task leaves the Task ended,
unless it claims the retry, in every run where no status moves under a decision
and no exited run meets a Task that was read queued.
-/

namespace NextTime.Task

open Interleaving
open ReadCommitted

/-- What a thread knows is so. -/
structure TaskStore.Knows (store : TaskStore) (thread : Nat) (mark : Knowledge) : Prop where
  settled : mark.settled = true →
    ∃ row : TaskRow, store.viewTask thread = some row ∧ row.status.ended = true
  ended : ∀ run (row : WorkerRunRow), store.rows.pending (.run run) = some (thread, row) →
    row.status = .terminated → mark.ended = true
  claimed : mark.claimed = true → ∃ row base : TaskRow,
    store.rows.pending .task = some (thread, row) ∧ store.rows.committed .task = some base ∧
      row.retryCount ≠ base.retryCount
  purpose : ∀ purpose, mark.purpose = some purpose → store.purpose thread = purpose

def TaskStore.Informed (store : TaskStore) (marks : Nat → Knowledge) : Prop :=
  ∀ thread, store.Knows thread (marks thread)

/-- No status has moved under a decision: the UPDATE that fails or cancels the Task finds
the status it was read with, or a Task that has ended; and an exited or terminated run of
a Task read queued is ended under a Task that has ended. -/
def unflipped (thread : Nat) (op : Call) (input : Input) (store : TaskStore) : Bool :=
  match op, input with
  | .updateTask expected change, .proceeds =>
      !change.decides ||
        (store.viewTask thread).all fun row => row.status = expected || row.status.ended
  | .updateRun run expected .terminated, .proceeds =>
      !(store.purpose thread).leaves ||
        !(store.viewRun thread run).any (·.status = expected) ||
          (store.viewTask thread).all (·.status.ended)
  | _, _ => true

namespace TaskStore

variable {store : TaskStore} {thread other : Nat} {mark : Knowledge}

/-- Knowledge of the other threads: their versions and what they see stay. -/
theorem Knows.frame {after : TaskStore} (knows : store.Knows other mark)
    (seen : ∀ row : TaskRow, store.viewTask other = some row → row.status.ended = true →
      ∃ later : TaskRow, after.viewTask other = some later ∧ later.status.ended = true)
    (versions : ∀ {key : TaskKey} {row : key.Row},
      after.rows.pending key = some (other, row) ↔ store.rows.pending key = some (other, row))
    (committed : ∀ row : TaskRow, store.rows.pending .task = some (other, row) →
      after.rows.committed .task = store.rows.committed .task)
    (purpose : after.purpose other = store.purpose other) : after.Knows other mark where
  settled := fun settled => by
    obtain ⟨row, found, ended⟩ := knows.settled settled
    exact seen row found ended
  ended := fun run row found => knows.ended run row (versions.mp found)
  claimed := fun claimed => by
    obtain ⟨row, base, found, present, different⟩ := knows.claimed claimed
    exact ⟨row, base, versions.mpr found, (committed row found).trans present, different⟩
  purpose := fun value found => purpose.trans (knows.purpose value found)

theorem Knows.writeOther (knows : store.Knows other mark) {key : TaskKey} (row : key.Row)
    (free : store.rows.blocked thread key = false) (different : other ≠ thread) :
    (store.withRows (store.rows.write thread key row)).Knows other mark := by
  obtain ⟨own, _⟩ := Store.not_blocked free
  refine knows.frame (fun task seen ended => ⟨task, ?_, ended⟩)
    (Store.pending_write_other different own) (fun _ _ => rfl) rfl
  exact (Store.view_write_other different own).trans seen

theorem Knows.afterRollback (knows : store.Knows other mark) (different : other ≠ thread) :
    (store.rollback thread).Knows other mark := by
  have versions : ∀ {key : TaskKey} {row : key.Row},
      (store.rollback thread).rows.pending key = some (other, row) ↔
        store.rows.pending key = some (other, row) :=
    Store.rollback_pending.trans (and_iff_left different)
  refine knows.frame (fun task seen ended => ⟨task, ?_, ended⟩) versions (fun _ _ => rfl) rfl
  rcases store.rows.view_cases other .task with ⟨own, found, viewed⟩ | ⟨unwritten, viewed⟩
  · exact (Store.view_own (versions.mpr found)).trans (viewed.symm.trans seen)
  · refine (Store.view_committed fun row found => ?_).trans (viewed.symm.trans seen)
    exact unwritten row (versions.mp found)

/-- A Task that has ended has ended for everybody. -/
theorem Knows.afterCommit {marks : Nat → Mark} (fits : store.Consistent marks)
    (knows : store.Knows other mark) (different : other ≠ thread) :
    (store.commit thread).Knows other mark := by
  refine knows.frame (fun task seen ended => ?_)
    (Store.rollback_pending.trans (and_iff_left different)) (fun row found => ?_) rfl
  · rcases store.rows.view_commit_other .task different with ⟨own, _, viewed, after⟩ |
      ⟨unwritten, after⟩
    · have same : own = task := Option.some.inj (viewed.symm.trans seen)
      exact ⟨own, after, same ▸ ended⟩
    · have committed : store.rows.committed .task = some task :=
        (Store.view_committed unwritten).symm.trans seen
      obtain ⟨row, viewed⟩ := Store.view_of_committed thread committed
      refine ⟨row, after.trans viewed, ?_⟩
      rcases fits.pending.viewStatus viewed committed with same | going
      · exact same ▸ ended
      · rw [ended] at going
        cases going
  · refine Store.view_committed fun own pending => ?_
    cases found.symm.trans pending
    exact different rfl

/-- A thread that holds nothing knows only what it sees. -/
theorem Knows.outside {settled : Bool} (unwritten : ∀ run (row : WorkerRunRow),
    store.rows.pending (.run run) ≠ some (thread, row))
    (seen : settled = true → ∃ row : TaskRow, store.viewTask thread = some row ∧
      row.status.ended = true) : store.Knows thread (.outside settled) where
  settled := seen
  ended := fun run row found => absurd found (unwritten run row)
  claimed := fun claimed => by cases claimed
  purpose := fun _ found => by cases found

theorem Knows.update {marks : Nat → Knowledge} {after : TaskStore}
    (others : ∀ other, other ≠ thread → after.Knows other (marks other))
    (here : after.Knows thread mark) : after.Informed (Function.update marks thread mark) := by
  intro other
  by_cases same : other = thread
  · subst same
    rw [Function.update_self]
    exact here
  · rw [Function.update_of_ne same]
    exact others other same

/-! ### Calls -/

/-- A write of the Task by the thread itself. -/
theorem Knows.writeTask (knows : store.Knows thread mark) {row new : TaskRow} {settled claimed : Bool}
    (seen : store.viewTask thread = some row)
    (ended : settled = true → new.status.ended = true)
    (counts : claimed = true → (mark.claimed = true ∧ new.retryCount = row.retryCount) ∨
      ∃ base : TaskRow, store.rows.committed .task = some base ∧
        new.retryCount ≠ base.retryCount) :
    (store.withRows (store.rows.write thread .task new)).Knows thread
      { mark with settled := settled, claimed := claimed } where
  settled := fun isOver => ⟨new, Store.view_write_self, ended isOver⟩
  ended := knows.ended
  claimed := fun isClaimed => by
    rcases counts isClaimed with ⟨before, same⟩ | ⟨base, committed, different⟩
    · obtain ⟨own, base, pending, committed, different⟩ := knows.claimed before
      have equal : own = row := Option.some.inj ((Store.view_own pending).symm.trans seen)
      refine ⟨new, base, Store.write_pending_self .., committed, ?_⟩
      rw [same, ← equal]
      exact different
    · exact ⟨new, base, Store.write_pending_self .., committed, different⟩
  purpose := knows.purpose

/-- A write of a run or a Handle: what is known of the Task stays. -/
theorem Knows.writeElsewhere (knows : store.Knows thread mark) {key : TaskKey} {row : key.Row}
    {ended settled : Bool} (elsewhere : key ≠ .task)
    (isOver : settled = true → mark.settled = true ∨
      ∃ row : TaskRow, store.viewTask thread = some row ∧ row.status.ended = true)
    (ends : ∀ run (version : WorkerRunRow),
      (store.rows.write thread key row).pending (.run run) = some (thread, version) →
        version.status = .terminated → ended = true) :
    (store.withRows (store.rows.write thread key row)).Knows thread
      { mark with settled := settled, ended := ended } where
  settled := fun known => by
    have seen : (store.rows.write thread key row).view thread .task =
        store.rows.view thread .task := Store.view_write_of_ne elsewhere.symm
    rcases isOver known with before | ⟨task, found, isEnded⟩
    · obtain ⟨task, found, isEnded⟩ := knows.settled before
      exact ⟨task, seen.trans found, isEnded⟩
    · exact ⟨task, seen.trans found, isEnded⟩
  ended := ends
  claimed := fun claimed => by
    obtain ⟨own, base, pending, committed, different⟩ := knows.claimed claimed
    exact ⟨own, base, (Store.write_pending_of_ne elsewhere.symm).trans pending, committed,
      different⟩
  purpose := knows.purpose

/-- Reading that the Task has ended. -/
theorem Knows.reads (knows : store.Knows thread mark) {row : Option TaskRow}
    (seen : store.viewTask thread = row) (present : row ≠ none) :
    store.Knows thread (if row.all (·.status.ended) = true then mark.knowOver else mark) := by
  split
  next ended =>
    refine { knows with settled := fun _ => ?_ }
    cases found : row with
    | none => exact absurd found present
    | some task =>
        rw [found, Option.all_some] at ended
        exact ⟨task, seen.trans found, ended⟩
  next => exact knows

theorem Informed.same {marks : Nat → Knowledge} (informed : store.Informed marks)
    (here : store.Knows thread mark) : store.Informed (Function.update marks thread mark) :=
  Knows.update (fun other _ => informed other) here

theorem Informed.updatesTask {marks : Nat → Knowledge} (informed : store.Informed marks)
    {expected : TaskStatus} {change : TaskChange} {moved : Store Nat TaskKey TaskKey.Row × Bool}
    (present : store.viewTask thread ≠ none)
    (allowed : unflipped thread (.updateTask expected change) .proceeds store = true)
    (updated : store.rows.updateWhere thread .task (fun row => row.status = expected)
      (·.change change) = some moved) :
    (store.withRows moved.1).Informed (Function.update marks thread
      ((marks thread).answered (.updateTask expected change) moved.2)) := by
  have here := informed thread
  rcases Store.updateWhere_cases updated with ⟨rfl, unmatched⟩ | ⟨row, seen, _, free, rfl⟩
  · refine informed.same ?_
    change store.Knows thread (if change.decides = true then _ else _)
    split
    next decides =>
      -- No row matched: then the status seen is not the one expected, so the Task has ended.
      refine { here with settled := fun _ => ?_ }
      obtain ⟨row, seen⟩ := Option.ne_none_iff_exists'.mp present
      have moved := unmatched row seen
      simp only [unflipped, decides, Bool.not_true, Bool.false_or, seen, Option.all_some,
        moved] at allowed
      exact ⟨row, seen, allowed⟩
    next => exact here
  · refine Knows.update (fun other different => (informed other).writeOther _ free different) ?_
    exact here.writeTask seen (fun settled => by rw [TaskRow.change_status]; exact settled)
      fun claimed => Or.inl ⟨claimed, row.change_retryCount change⟩

theorem Informed.addsRetry {marks : Nat → Knowledge} (informed : store.Informed marks)
    {rights : Nat → Mark} (fits : store.Consistent rights) {expected : Nat}
    {moved : Store Nat TaskKey TaskKey.Row × Bool}
    (updated : store.rows.updateWhere thread .task
      (fun row => row.retryCount = expected && row.status = .running)
      (fun row => { row with retryCount := row.retryCount + 1 }) = some moved) :
    (store.withRows moved.1).Informed (Function.update marks thread
      ((marks thread).answered (.addRetry expected) moved.2)) := by
  have here := informed thread
  rcases Store.updateWhere_cases updated with ⟨rfl, _⟩ | ⟨row, seen, _, free, rfl⟩
  · exact informed.same here
  · refine Knows.update (fun other different => (informed other).writeOther _ free different) ?_
    refine here.writeTask seen (fun settled => ?_) fun _ => Or.inr ?_
    · obtain ⟨task, found, ended⟩ := here.settled settled
      have same : row = task := Option.some.inj (seen.symm.trans found)
      exact same ▸ ended
    · obtain ⟨base, committed, _⟩ := fits.rows.task
      refine ⟨base, committed, ?_⟩
      change row.retryCount + 1 ≠ base.retryCount
      rcases (fits.mark thread).viewCount seen committed with same | ⟨one, run, claims⟩
      · omega
      · have zero : base.retryCount = 0 := by
          have holds := (fits.mark thread).right
          rw [RightHolds, claims] at holds
          exact holds.1 base committed
        omega

theorem Informed.addsTokens {marks : Nat → Knowledge} (informed : store.Informed marks)
    {tokens : Nat} {moved : Store Nat TaskKey TaskKey.Row × Bool}
    (present : store.viewTask thread ≠ none)
    (updated : store.rows.updateWhere thread .task (fun _ => true)
      (fun row => { row with tokensUsed := row.tokensUsed + tokens }) = some moved) :
    (store.withRows moved.1).Informed (Function.update marks thread
      ((marks thread).answered (.addTokens tokens) ((store.withRows moved.1).viewTask thread))) := by
  have here := informed thread
  rcases Store.updateWhere_cases updated with ⟨rfl, absent⟩ | ⟨row, seen, _, free, rfl⟩
  · obtain ⟨row, seen⟩ := Option.ne_none_iff_exists'.mp present
    exact absurd (absent row seen) nofun
  · refine Knows.update (fun other different => (informed other).writeOther _ free different) ?_
    refine Knows.reads ?_ rfl ?_
    · refine here.writeTask seen (fun settled => ?_) fun claimed => Or.inl ⟨claimed, rfl⟩
      obtain ⟨task, found, ended⟩ := here.settled settled
      have same : row = task := Option.some.inj (seen.symm.trans found)
      exact same ▸ ended
    · intro missing
      cases Store.view_write_self.symm.trans missing

theorem Informed.updatesRun {marks : Nat → Knowledge} (informed : store.Informed marks) {run : Nat}
    {expected status : WorkerRunStatus} {moved : Store Nat TaskKey TaskKey.Row × Bool}
    (present : store.viewTask thread ≠ none)
    (allowed : unflipped thread (.updateRun run expected status) .proceeds store = true)
    (updated : store.rows.updateWhere thread (.run run) (fun row => row.status = expected)
      (fun row => { row with status := status }) = some moved) :
    (store.withRows moved.1).Informed (Function.update marks thread
      ((marks thread).answered (.updateRun run expected status) moved.2)) := by
  have here := informed thread
  rcases Store.updateWhere_cases updated with ⟨rfl, _⟩ | ⟨row, seen, matched, free, rfl⟩
  · simp only [Knowledge.answered, Bool.false_eq_true, false_and, if_false]
    exact informed.same here
  · refine Knows.update (fun other different => (informed other).writeOther _ free different) ?_
    by_cases ends : status = .terminated
    · subst ends
      simp only [Knowledge.answered, and_self, if_true, Knowledge.endRun]
      refine here.writeElsewhere (fun same => by cases same) (fun settled => ?_) (fun _ _ _ _ => rfl)
      rcases Bool.or_eq_true _ _ |>.mp settled with before | leaves
      · exact Or.inl before
      · -- The reaction read the Task queued: the condition says that it has ended.
        obtain ⟨purpose, found, leaves⟩ := Option.any_eq_true .. |>.mp leaves
        obtain ⟨task, viewed⟩ := Option.ne_none_iff_exists'.mp present
        have shown : store.viewRun thread run = some row := seen
        simp only [unflipped, here.purpose purpose found, leaves, shown, viewed,
          Option.any_some, matched, Option.all_some, Bool.not_true, Bool.false_or] at allowed
        exact Or.inr ⟨task, viewed, allowed⟩
    · have unmarked : ((marks thread).answered (.updateRun run expected status) true) =
          marks thread := by
        simp only [Knowledge.answered, ends, and_false, if_false]
      rw [unmarked]
      refine here.writeElsewhere (fun same => by cases same) Or.inl ?_
      intro target version found terminated
      by_cases same : target = run
      · subst same
        cases (Store.write_pending_self ..).symm.trans found
        exact absurd terminated ends
      · exact here.ended target version
          ((Store.write_pending_of_ne fun equal => same (TaskKey.run.inj equal)).symm.trans found)
          terminated

theorem Informed.revokes {marks : Nat → Knowledge} (informed : store.Informed marks) {run : Nat}
    {moved : Store Nat TaskKey TaskKey.Row × Bool}
    (updated : store.rows.updateWhere thread (.handle run) (fun revoked => !revoked)
      (fun _ => true) = some moved) :
    (store.withRows moved.1).Informed (Function.update marks thread (marks thread)) := by
  have here := informed thread
  rcases Store.updateWhere_cases updated with ⟨rfl, _⟩ | ⟨row, _, _, free, rfl⟩
  · exact informed.same here
  · refine Knows.update (fun other different => (informed other).writeOther _ free different) ?_
    have elsewhere : ∀ {target : Nat}, TaskKey.run target ≠ .handle run := nofun
    refine here.writeElsewhere nofun Or.inl fun target version found => ?_
    exact here.ended target version ((Store.write_pending_of_ne elsewhere).symm.trans found)

theorem Informed.inserts {marks : Nat → Knowledge} (informed : store.Informed marks)
    {rights : Nat → Mark} (fits : store.Consistent rights) (attempt : Nat) :
    (store.insertRun thread attempt).Informed
      (Function.update marks thread (marks thread)) := by
  have freshRun := fits.rows.freshRun store.nextRun (Nat.le_refl _)
  have freshHandle := fits.rows.freshHandle store.nextRun (Nat.le_refl _)
  let first : TaskStore := store.withRows
    (store.rows.write thread (.run store.nextRun)
      { id := store.nextRun, status := .provisioning, attempt := attempt })
  have freeRun : store.rows.blocked thread (.run store.nextRun) = false :=
    Store.blocked_free freshRun.2 (fits.rows.unshared _ nofun)
  have freeHandle : first.rows.blocked thread (.handle store.nextRun) = false :=
    Store.blocked_free freshHandle.2 (fits.rows.unshared _ nofun)
  -- The counter of run ids is known to nobody.
  have counter : ∀ {after : TaskStore} {who : Nat} {known : Knowledge} (next : Nat),
      after.Knows who known → ({ after with nextRun := next } : TaskStore).Knows who known :=
    fun _ knows => ⟨knows.settled, knows.ended, knows.claimed, knows.purpose⟩
  refine Knows.update (fun other different => ?_) ?_
  · have before : first.Knows other (marks other) :=
      (informed other).writeOther _ freeRun different
    exact counter (store.nextRun + 1) (before.writeOther false freeHandle different)
  · have before : first.Knows thread (marks thread) := by
      refine (informed thread).writeElsewhere nofun Or.inl fun target version found ended => ?_
      by_cases same : target = store.nextRun
      · subst same
        cases (Store.write_pending_self ..).symm.trans found
        cases ended
      · exact (informed thread).ended target version
          ((Store.write_pending_of_ne fun equal => same (TaskKey.run.inj equal)).symm.trans found)
          ended
    have handled : (first.withRows (first.rows.write thread (.handle store.nextRun) false)).Knows
        thread (marks thread) := by
      have elsewhere : ∀ {target : Nat}, TaskKey.run target ≠ .handle store.nextRun := nofun
      refine before.writeElsewhere nofun Or.inl fun target version found => ?_
      exact before.ended target version ((Store.write_pending_of_ne elsewhere).symm.trans found)
    exact counter (store.nextRun + 1) handled

theorem Informed.locks {marks : Nat → Knowledge} (informed : store.Informed marks)
    {moved : Store Nat TaskKey TaskKey.Row × Option TaskRow}
    (locked : store.rows.lockShared thread .task = some moved) :
    (store.withRows moved.1).Informed (Function.update marks thread (marks thread)) := by
  obtain ⟨_, committed, pending, _, _⟩ := Store.lockShared_some locked
  obtain ⟨⟨committed', pending', sharers⟩, read⟩ := moved
  simp only at committed pending
  subst committed pending
  rw [Function.update_eq_self]
  exact fun other => ⟨(informed other).settled, (informed other).ended, (informed other).claimed,
    (informed other).purpose⟩

theorem Informed.commits {marks : Nat → Knowledge} (informed : store.Informed marks)
    {rights : Nat → Mark} (fits : store.Consistent rights) {settled : Bool}
    (known : settled = true → (marks thread).settled = true) :
    (store.commit thread).Informed (Function.update marks thread (.outside settled)) := by
  refine Knows.update (fun other different => (informed other).afterCommit fits different) ?_
  refine .outside (fun run => rollback_unwritten store thread (.run run)) fun isOver => ?_
  obtain ⟨row, seen, ended⟩ := (informed thread).settled (known isOver)
  have unwritten : ∀ version, (store.commit thread).rows.pending .task ≠ some (thread, version) :=
    rollback_unwritten store thread .task
  exact ⟨row, (Store.view_committed unwritten).trans seen, ended⟩

theorem Informed.rollsBack {marks : Nat → Knowledge} (informed : store.Informed marks)
    (thread : Nat) :
    (store.rollback thread).Informed (Function.update marks thread (.outside false)) :=
  Knows.update (fun other different => (informed other).afterRollback different)
    (.outside (fun run => rollback_unwritten store thread (.run run)) nofun)

theorem Informed.begins {marks : Nat → Knowledge} (informed : store.Informed marks)
    (purpose : Purpose) :
    ({ store with purpose := Function.update store.purpose thread purpose } : TaskStore).Informed
      (Function.update marks thread { marks thread with purpose := some purpose }) := by
  refine Knows.update (fun other different => ?_) ?_
  · have knows := informed other
    exact ⟨knows.settled, knows.ended, knows.claimed, fun value found =>
      (Function.update_of_ne different ..).trans (knows.purpose value found)⟩
  · have knows := informed thread
    refine ⟨knows.settled, knows.ended, knows.claimed, fun value found => ?_⟩
    cases found
    exact Function.update_self ..

theorem Informed.proceeds {marks : Nat → Knowledge} (informed : store.Informed marks)
    {rights : Nat → Mark} (fits : store.Consistent rights) {op : Call}
    {moved : TaskStore × Except Thrown op.Answer}
    (allowed : unflipped thread op .proceeds store = true)
    (performed : proceed thread store op = some moved) :
    moved.1.Informed (Function.update marks thread ((marks thread).after op moved.2)) := by
  have here := informed thread
  have present : store.viewTask thread ≠ none := by
    obtain ⟨base, committed, _⟩ := fits.rows.task
    obtain ⟨row, seen⟩ := Store.view_of_committed thread committed
    intro absent
    cases seen.symm.trans absent
  cases op with
  | begins purpose => cases performed; exact informed.begins purpose
  | commits => cases performed; exact informed.commits fits id
  | rollsBack => cases performed; exact informed.rollsBack thread
  | readTask => cases performed; exact informed.same (here.reads rfl present)
  | readTaskForShare =>
      obtain ⟨locked, found, rfl⟩ := Option.map_eq_some_iff.mp performed
      exact informed.locks found
  | updateTask expected change =>
      obtain ⟨locked, found, rfl⟩ := Option.map_eq_some_iff.mp performed
      exact informed.updatesTask present allowed found
  | addRetry expected =>
      obtain ⟨locked, found, rfl⟩ := Option.map_eq_some_iff.mp performed
      exact informed.addsRetry fits found
  | addTokens tokens =>
      obtain ⟨locked, found, rfl⟩ := Option.map_eq_some_iff.mp performed
      exact informed.addsTokens present found
  | updateRun run expected status =>
      obtain ⟨locked, found, rfl⟩ := Option.map_eq_some_iff.mp performed
      exact informed.updatesRun present allowed found
  | insertRun attempt => cases performed; exact informed.inserts fits attempt
  | revokeSession run =>
      obtain ⟨locked, found, rfl⟩ := Option.map_eq_some_iff.mp performed
      exact informed.revokes found
  | readRun run => cases performed; exact informed.same here
  | runIds liveOnly => cases performed; exact informed.same here
  | readHandle run => cases performed; exact informed.same here
  | prepares => cases performed; exact informed.same here
  | supervisorSpawn run => cases performed; exact informed.same here
  | supervisorTerminate run => cases performed; exact informed.same here
  | supervisorStatus run => cases performed
  | overdue run => cases performed
  | lostQueuedTask => cases performed
  | orphanedTask => cases performed

theorem Informed.performs {marks : Nat → Knowledge} (informed : store.Informed marks)
    {rights : Nat → Mark} (fits : store.Consistent rights) {op : Call} {input : Input}
    {moved : TaskStore × Except Thrown op.Answer}
    (allowed : unflipped thread op input store = true)
    (performed : perform thread op input store = some moved) :
    moved.1.Informed (Function.update marks thread ((marks thread).after op moved.2)) := by
  have here := informed thread
  cases input with
  | proceeds => exact informed.proceeds fits allowed performed
  | fails =>
      cases op with
      | commits => cases performed; exact informed.rollsBack thread
      | rollsBack => cases performed; exact informed.rollsBack thread
      | _ => cases performed; exact informed.same here
  | answerLost =>
      cases op with
      | commits => cases performed; exact informed.commits fits nofun
      | _ => cases performed
  | reports status =>
      cases op with
      | supervisorStatus run => cases performed; exact informed.same here
      | _ => cases performed
  | elapsed passed =>
      cases op with
      | overdue run => cases performed; exact informed.same here
      | lostQueuedTask => cases performed; exact informed.same here
      | orphanedTask => cases performed; exact informed.same here
      | _ => cases performed

end TaskStore

theorem decisionSound : taskMachine.Sound Entry.script decisionDiscipline (.outside false)
    Knowledge.rests TaskStore.Informed (fun store => ∃ rights, store.Consistent rights)
    (fun thread op input store => unflipped thread op input store = true) where
  entry := entry_decides
  forgets := fun store marks thread informed rests => by
    obtain ⟨settled, known⟩ := rests
    have here := informed thread
    rw [known] at here
    exact informed.same
      { settled := fun impossible => by cases impossible
        ended := here.ended
        claimed := fun impossible => by cases impossible
        purpose := fun _ impossible => by cases impossible }
  idleRests := ⟨false, rfl⟩
  performs := fun _ _ _ _ _ _ informed fits _ allowed performed => by
    obtain ⟨rights, fits⟩ := fits
    exact informed.performs fits allowed performed
  dies := fun _ _ thread informed _ => informed.rollsBack thread

/-! ### The end of the last run -/

abbrev unflippedLabel : TaskPool → TaskLabel → Prop :=
  Machine.allowedLabel fun thread op input store => unflipped thread op input store = true

def EndsLastRun (before after : TaskStore) : Prop :=
  (∃ run, ∃ row : WorkerRunRow, before.committedRun run = some row ∧ row.live = true) ∧
    ∀ run (row : WorkerRunRow), after.committedRun run = some row → row.live = false

def ClaimsRetry (before after : TaskStore) : Prop :=
  ∃ base row : TaskRow, before.committedTask = some base ∧ after.committedTask = some row ∧
    row.retryCount ≠ base.retryCount

def TaskOver (store : TaskStore) : Prop :=
  ∃ row : TaskRow, store.committedTask = some row ∧ row.status.ended = true

/-- A transaction that is decided and ends the last run without a claim finds the Task over. -/
theorem TaskStore.Knows.commit_over {store : TaskStore} {thread : Nat} {mark : Knowledge}
    (knows : store.Knows thread mark) (decided : mark.decided)
    (reaction : store.purpose thread ≠ .spawnFailed)
    (ends : EndsLastRun store (store.commit thread))
    (unclaimed : ¬ ClaimsRetry store (store.commit thread)) : TaskOver (store.commit thread) := by
  obtain ⟨⟨run, base, committed, live⟩, ended⟩ := ends
  have going : base.status ≠ .terminated := of_decide_eq_true live
  obtain ⟨row, seen⟩ := Store.view_of_committed thread committed
  have terminated : row.status = .terminated :=
    not_not.mp (of_decide_eq_false (ended run row seen))
  -- The run was live and is no longer: this transaction has ended it.
  have isEnd : mark.ended = true := by
    rcases store.rows.view_cases thread (.run run) with ⟨own, found, viewed⟩ | ⟨_, viewed⟩
    · have same : own = row := Option.some.inj (viewed.symm.trans seen)
      exact knows.ended run own found (same ▸ terminated)
    · have same : row = base := Option.some.inj (seen.symm.trans (viewed.trans committed))
      exact absurd (same ▸ terminated) going
  rcases decided isEnd with settled | claimed | purpose
  · exact knows.settled settled
  · obtain ⟨own, before, pending, present, different⟩ := knows.claimed claimed
    exact absurd ⟨before, own, present, Store.view_own pending, different⟩ unclaimed
  · exact absurd (knows.purpose _ purpose) reaction

theorem last_run_decides_task {row : TaskRow} {labels : List TaskLabel} {pool next : TaskPool}
    {thread : Nat} {input : Input} (inserted : row.inserted)
    (ran : taskSystem.run (insertedPool row) labels = some pool)
    (steady : taskSystem.Allowed unflippedLabel (insertedPool row) labels)
    (moved : taskSystem.step pool (.steps thread input) = some next)
    (reaction : pool.shared.purpose thread ≠ .spawnFailed)
    (ends : EndsLastRun pool.shared next.shared)
    (unclaimed : ¬ ClaimsRetry pool.shared next.shared) :
    TaskOver next.shared := by
  have disciplined := decisionSound.run (fun _ reached => reachable_consistent reached)
    ⟨row, inserted, rfl⟩ ?_ steady ran
  · obtain ⟨marks, informed, kept⟩ := disciplined
    have here := kept thread
    change taskMachine.poolStep Entry.script pool (.steps thread input) = some next at moved
    simp only [Machine.poolStep] at moved
    split at moved
    next => cases moved
    next op rest atCall =>
      rw [atCall] at here
      obtain ⟨result, performed, rfl⟩ := Option.map_eq_some_iff.mp moved
      rcases perform_committed performed with same | ⟨rfl, same⟩
      · -- Nothing is committed, so no run has ended.
        obtain ⟨⟨run, base, committed, live⟩, ended⟩ := ends
        have still : result.1.committedRun run = some base := by
          rw [TaskStore.committedRun, same]
          exact committed
        rw [ended run base still] at live
        cases live
      · rw [same] at ends unclaimed ⊢
        exact (informed thread).commit_over here.1 reaction ends unclaimed
  · refine ⟨fun _ => .outside false, fun thread => ?_, fun thread => ?_⟩
    · refine .outside (fun run version found => ?_) (fun impossible => by cases impossible)
      cases (TaskStore.inserted_pending row (.run run)).symm.trans found
    · by_cases starter : thread = 0
      · simp only [insertedPool, if_pos starter]
        exact startTask_rests false
      · simp only [insertedPool, if_neg starter]
        exact rests_outside false

/-! ### Runs that end the last run -/

/-- The three facts about a step, evaluated: it ends the last run, claims no retry, and
whether the Task is over after it. -/
def endOfLastRun (before after : TaskStore) (settled : Bool) : Bool :=
  (List.range before.nextRun).any (fun run => (before.committedRun run).any (·.live)) &&
    (List.range after.nextRun).all (fun run => (after.committedRun run).all (!·.live)) &&
    decide (before.committedTask.map (·.retryCount) = after.committedTask.map (·.retryCount)) &&
    decide (after.committedTask.any (·.status.ended) = settled)

theorem endOfLastRun_facts {before after : TaskStore} {settled : Bool}
    (checked : endOfLastRun before after settled = true)
    (bounded : ∀ run, after.nextRun ≤ run → after.committedRun run = none) :
    EndsLastRun before after ∧ ¬ ClaimsRetry before after ∧ (settled = true ↔ TaskOver after) := by
  simp only [endOfLastRun, Bool.and_eq_true, decide_eq_true_eq] at checked
  obtain ⟨⟨⟨lives, ended⟩, counts⟩, isOver⟩ := checked
  refine ⟨⟨?_, fun run row found => ?_⟩, ?_, ?_⟩
  · obtain ⟨run, _, live⟩ := List.any_eq_true.mp lives
    obtain ⟨row, found, isLive⟩ := Option.any_eq_true .. |>.mp live
    exact ⟨run, row, found, isLive⟩
  · have inRange : run < after.nextRun := by
      by_contra beyond
      rw [bounded run (by omega)] at found
      cases found
    have dead := List.all_eq_true.mp ended run (List.mem_range.mpr inRange)
    rw [found, Option.all_some] at dead
    simpa using dead
  · rintro ⟨base, row, found, present, different⟩
    rw [found, present] at counts
    exact different (Option.some.inj counts).symm
  · rw [← isOver, Option.any_eq_true]
    exact Iff.rfl

/-- Thread 1 commits next, a reaction that ends the last run of the Task. -/
def commitsNext (settled : Bool) (pool : TaskPool) : Bool :=
  decide (pool.shared.purpose 1 ≠ .spawnFailed) &&
    (taskSystem.step pool (.steps 1 .proceeds)).any fun next =>
      endOfLastRun pool.shared next.shared settled

theorem commitsNext_facts {labels : List TaskLabel} {settled : Bool}
    (checked : (taskSystem.run (insertedPool plainTask) labels).any (commitsNext settled) = true) :
    ∃ pool next, taskSystem.run (insertedPool plainTask) labels = some pool ∧
      taskSystem.step pool (.steps 1 .proceeds) = some next ∧
      pool.shared.purpose 1 ≠ .spawnFailed ∧ EndsLastRun pool.shared next.shared ∧
      ¬ ClaimsRetry pool.shared next.shared ∧ (settled = true ↔ TaskOver next.shared) := by
  obtain ⟨pool, ran, commits⟩ := Option.any_eq_true .. |>.mp checked
  simp only [commitsNext, Bool.and_eq_true, decide_eq_true_eq] at commits
  obtain ⟨next, moved, ends⟩ := Option.any_eq_true .. |>.mp commits.2
  have reached : taskSystem.Reachable next :=
    LabelledRun.System.Reachable.run taskSystem (reachable_of_run ran)
      (taskSystem.run_cons [] moved)
  obtain ⟨marks, fits⟩ := reachable_consistent reached
  exact ⟨pool, next, ran, moved, commits.1,
    endOfLastRun_facts ends fun run beyond => (fits.rows.freshRun run beyond).1⟩

/-- Every committed reaction after the run that ends the last WorkerRun finds the Task over. -/
def LastRunDecides (row : TaskRow) (labels : List TaskLabel) : Prop :=
  ∀ pool next thread input, taskSystem.run (insertedPool row) labels = some pool →
    taskSystem.step pool (.steps thread input) = some next →
    pool.shared.purpose thread ≠ .spawnFailed → EndsLastRun pool.shared next.shared →
    ¬ ClaimsRetry pool.shared next.shared → TaskOver next.shared

theorem not_lastRunDecides {labels : List TaskLabel}
    (checked : (taskSystem.run (insertedPool plainTask) labels).any (commitsNext false) = true) :
    ¬ LastRunDecides plainTask labels := by
  intro decides
  obtain ⟨pool, next, ran, moved, reaction, ends, unclaimed, settled⟩ := commitsNext_facts checked
  have finished := decides pool next 1 .proceeds ran moved reaction ends unclaimed
  cases settled.mpr finished

/-- The container exits before the call that spawned it has set the Task to running. -/
def queuedExit : List TaskLabel :=
  runs 0 10 ++ [.starts 1 (.reaction 0)] ++ runs 1 3 ++ [.steps 1 (.reports (some .exited))] ++
    runs 1 7

/-- The reaction reads the Task running, and an approval moves it to `waiting_approval`
before the UPDATE that would fail it. -/
def flippedExit : List TaskLabel :=
  runs 0 13 ++ [.starts 1 (.reaction 0)] ++ runs 1 3 ++ [.steps 1 (.reports (some .exited))] ++
    runs 1 8 ++ [.starts 2 .approvalPending] ++ runs 2 4 ++ runs 1 1

theorem exit_leaves_task :
    ¬ LastRunDecides plainTask queuedExit ∧ ¬ LastRunDecides plainTask flippedExit :=
  ⟨not_lastRunDecides (by decide +kernel), not_lastRunDecides (by decide +kernel)⟩

/-- The Task is running when its container exits, and nothing else moves it. -/
def runningExit : List TaskLabel :=
  runs 0 13 ++ [.starts 1 (.reaction 0)] ++ runs 1 3 ++ [.steps 1 (.reports (some .exited))] ++
    runs 1 9

theorem last_run_decides_task_runningExit :
    ∃ pool next, taskSystem.run (insertedPool plainTask) runningExit = some pool ∧
      taskSystem.step pool (.steps 1 .proceeds) = some next ∧
      EndsLastRun pool.shared next.shared ∧ TaskOver next.shared := by
  have checked : (taskSystem.run (insertedPool plainTask) runningExit).any (commitsNext true) =
      true := by
    decide +kernel
  have steady : taskSystem.Allowed unflippedLabel (insertedPool plainTask) runningExit := by
    decide +kernel
  obtain ⟨pool, next, ran, moved, reaction, ends, unclaimed, _⟩ := commitsNext_facts checked
  exact ⟨pool, next, ran, moved, ends,
    last_run_decides_task ⟨rfl, rfl⟩ ran steady moved reaction ends unclaimed⟩

end NextTime.Task
