import NextTime.Task.RetryInvariant

/-
What each kind of statement does to the invariant: a write of the Task, of a
run, of a Handle, a share lock, the insert of a run, the end of a transaction.
-/

namespace NextTime.Task

open Interleaving
open ReadCommitted

theorem Mark.mayWrite.notSharing {mark : Mark} (writes : mark.mayWrite) :
    mark.stage ≠ .sharing := by
  intro sharing
  rcases writes with opened | wrote
  · rw [opened] at sharing
    cases sharing
  · rw [wrote] at sharing
    cases sharing

namespace TaskStore

variable {store : TaskStore} {marks : Nat → Mark} {thread : Nat}

/-- A thread whose share lock is open has not inserted unless it shares the Task. -/
theorem RightHolds.sharing {mark : Mark} (holds : store.RightHolds thread mark) {run : Nat}
    (inserted : mark.right = .firstInserted run ∨ mark.right = .retryInserted run) :
    mark.stage = .sharing := by
  rw [RightHolds] at holds
  rcases inserted with same | same
  · rw [same] at holds
    exact holds.1
  · rw [same] at holds
    exact holds.1

/-- The version a writer reads counts the retries the committed row counts, or it claims. -/
theorem MarkHolds.viewCount {mark : Mark} (holds : store.MarkHolds thread mark)
    {row base : TaskRow} (seen : store.viewTask thread = some row)
    (committed : store.rows.committed .task = some base) :
    row.retryCount = base.retryCount ∨ row.retryCount = 1 ∧ ∃ run, mark.right = .claims run := by
  rcases store.rows.view_cases thread .task with ⟨own, pending, viewed⟩ | ⟨_, viewed⟩
  · have same : own = row := Option.some.inj (viewed.symm.trans seen)
    exact same ▸ holds.retryCount own base pending committed
  · have same : row = base := Option.some.inj (seen.symm.trans (viewed.trans committed))
    exact Or.inl (same ▸ rfl)

theorem PendingHold.viewStatus (pending : store.PendingHold) {row base : TaskRow}
    (seen : store.viewTask thread = some row)
    (committed : store.rows.committed .task = some base) :
    row.status = base.status ∨ base.status.ended = false := by
  rcases store.rows.view_cases thread .task with ⟨own, found, viewed⟩ | ⟨_, viewed⟩
  · have same : own = row := Option.some.inj (viewed.symm.trans seen)
    exact same ▸ pending.task thread own base found committed
  · have same : row = base := Option.some.inj (seen.symm.trans (viewed.trans committed))
    exact Or.inl (same ▸ rfl)

/-! ### Any write that does not wait -/

theorem RowsHold.write (holds : store.RowsHold) {key : TaskKey} (row : key.Row)
    (free : store.rows.blocked thread key = false)
    (known : ∀ run, store.nextRun ≤ run → TaskKey.run run ≠ key ∧ TaskKey.handle run ≠ key) :
    (store.withRows (store.rows.write thread key row)).RowsHold where
  exclusive := holds.exclusive.write row free
  task := holds.task
  freshRun := fun run beyond =>
    ⟨(holds.freshRun run beyond).1,
      (Store.write_pending_of_ne (known run beyond).1).trans (holds.freshRun run beyond).2⟩
  freshHandle := fun run beyond =>
    ⟨(holds.freshHandle run beyond).1,
      (Store.write_pending_of_ne (known run beyond).2).trans (holds.freshHandle run beyond).2⟩
  handled := holds.handled
  revoked := holds.revoked
  lineage := holds.lineage
  unshared := holds.unshared

/-- The marks of the other threads are about other versions. -/
theorem MarkHolds.writeOther {other : Nat} {mark : Mark} (holds : store.MarkHolds other mark)
    {key : TaskKey} (row : key.Row) (free : store.rows.blocked thread key = false)
    (different : other ≠ thread) :
    (store.withRows (store.rows.write thread key row)).MarkHolds other mark := by
  obtain ⟨own, unshared⟩ := Store.not_blocked free
  have versions : ∀ {key' : TaskKey} {version : key'.Row},
      (store.rows.write thread key row).pending key' = some (other, version) ↔
        store.rows.pending key' = some (other, version) :=
    Store.pending_write_other different own
  have inserted : ∀ {run : Nat}, store.Inserted other run →
      (store.withRows (store.rows.write thread key row)).Inserted other run := by
    rintro run ⟨⟨version, found, live, attempt⟩, revoked, handle⟩
    exact ⟨⟨version, versions.mpr found, live, attempt⟩, revoked, versions.mpr handle⟩
  have ended : ∀ {run : Nat}, store.Ended other run →
      (store.withRows (store.rows.write thread key row)).Ended other run := by
    rintro run ⟨version, base, found, status, committed⟩
    exact ⟨version, base, versions.mpr found, status, committed⟩
  refine
    { unwritten := fun stage version found => holds.unwritten stage version (versions.mp found)
      sharing := fun sharing => ?_
      ended := fun run found => ended (holds.ended run found)
      revokes := fun run version found status => ?_
      inserted := fun run version found => holds.inserted run version (versions.mp found)
      retryCount := fun version base found => holds.retryCount version base (versions.mp found)
      right := ?_ }
  · obtain ⟨shares, unwritten, going⟩ := holds.sharing sharing
    refine ⟨shares, ?_, going⟩
    by_cases same : TaskKey.task = key
    · subst same
      exact absurd (unshared other shares) different
    · exact (Store.write_pending_of_ne same).trans unwritten
  · have seen : (store.rows.write thread key row).view other (.handle run) =
        store.rows.view other (.handle run) := Store.view_write_other different own
    rcases holds.revokes run version (versions.mp found) status with viewed | owed
    · exact Or.inl (seen.trans viewed)
    · exact Or.inr owed
  · have right := holds.right
    rw [RightHolds] at right ⊢
    cases found : mark.right with
    | none => trivial
    | first => rw [found] at right; exact right
    | retry => rw [found] at right; exact right
    | firstInserted run =>
        rw [found] at right
        obtain ⟨sharing, none', zero, pending⟩ := right
        exact ⟨sharing, none', zero, inserted pending⟩
    | retryInserted run =>
        rw [found] at right
        obtain ⟨sharing, only, one, pending⟩ := right
        exact ⟨sharing, only, one, inserted pending⟩
    | claims run =>
        rw [found] at right
        obtain ⟨zero, pending, version, task, one⟩ := right
        exact ⟨zero, ended pending, version, versions.mpr task, one⟩

/-! ### Writing the Task -/

/-- What a write of the Task may do to the retry count: nothing, or claim the retry. -/
inductive Counts (mark : Mark) (row new : TaskRow) : Right → Prop
  | keeps (same : new.retryCount = row.retryCount) : Counts mark row new mark.right
  | claims {run : Nat} (zero : row.retryCount = 0) (one : new.retryCount = 1)
      (ended : mark.ended = some run) : Counts mark row new (.claims run)

/-- While the Task is not locked by others, no other thread is between its insert or
its claim and the end of its transaction. -/
theorem Consistent.otherRights (fits : store.Consistent marks)
    (free : store.rows.blocked thread .task = false) {other : Nat} (different : other ≠ thread) :
    (marks other).right = .none ∨ (marks other).right = .first ∨ (marks other).right = .retry := by
  obtain ⟨unwritten, unshared⟩ := Store.not_blocked free
  have holds := (fits.mark other).right
  have unsharing : (marks other).stage ≠ .sharing := fun sharing =>
    different (unshared other ((fits.mark other).sharing sharing).1)
  cases right : (marks other).right with
  | none => exact Or.inl rfl
  | first => exact Or.inr (Or.inl rfl)
  | retry => exact Or.inr (Or.inr rfl)
  | firstInserted run => exact absurd (holds.sharing (Or.inl right)) unsharing
  | retryInserted run => exact absurd (holds.sharing (Or.inr right)) unsharing
  | claims run =>
      rw [RightHolds, right] at holds
      obtain ⟨_, _, row, found, _⟩ := holds
      exact absurd (unwritten other row found) different

/-- A right that is held is about committed rows only. -/
theorem RightHolds.ofCommitted {before after : TaskStore} {mark other : Mark}
    (holds : before.RightHolds thread mark) (held : mark.right.held = true)
    (same : after.rows.committed = before.rows.committed) (right : other.right = mark.right) :
    after.RightHolds thread other := by
  rw [RightHolds] at holds ⊢
  rw [right]
  cases found : mark.right with
  | none => trivial
  | first =>
      rw [found] at holds
      simpa only [noRuns, retryCountIs, same] using holds
  | retry =>
      rw [found] at holds
      simpa only [onlyFirstEnded, retryCountIs, same] using holds
  | firstInserted run => rw [found] at held; cases held
  | retryInserted run => rw [found] at held; cases held
  | claims run => rw [found] at held; cases held

theorem Consistent.writeTask (fits : store.Consistent marks) {row new : TaskRow} {right : Right}
    (seen : store.viewTask thread = some row) (free : store.rows.blocked thread .task = false)
    (writes : (marks thread).mayWrite)
    (status : new.status = row.status ∨ row.status.ended = false)
    (counts : Counts (marks thread) row new right) :
    (store.withRows (store.rows.write thread .task new)).Consistent
      (Function.update marks thread { marks thread with stage := .wrote, right := right }) := by
  obtain ⟨unwritten, unshared⟩ := Store.not_blocked free
  obtain ⟨base, committed, atMost⟩ := fits.rows.task
  have here := fits.mark thread
  have atTask : (store.rows.write thread .task new).pending .task = some (thread, new) :=
    Store.write_pending_self ..
  have others : ∀ other, other ≠ thread →
      (store.withRows (store.rows.write thread .task new)).MarkHolds other (marks other) :=
    fun other different => (fits.mark other).writeOther _ free different
  have countsZero : row.retryCount = 0 → store.retryCountIs 0 := by
    intro none' other found
    rcases here.viewCount seen found with same | ⟨one, _⟩
    · rw [← same, none']
    · omega
  refine
    { rows := fits.rows.write _ free fun run _ => ⟨nofun, nofun⟩
      pending := ?_
      mark := ?_
      alone := ?_ }
  · refine
      { task := ?_
        run := fits.pending.run
        handle := fits.pending.handle }
    intro writer version other found source
    cases (atTask.symm.trans found)
    rcases fits.pending.viewStatus seen source with same | going
    · rcases status with equal | going
      · exact Or.inl (equal.trans same)
      · exact Or.inr (same ▸ going)
    · exact Or.inr going
  · intro other
    by_cases different : other = thread
    · subst different
      rw [Function.update_self]
      refine
        { unwritten := by rintro (impossible | impossible) <;> cases impossible
          sharing := nofun
          ended := here.ended
          revokes := here.revokes
          inserted := fun run version found none' => ?_
          retryCount := fun version source found equal => ?_
          right := ?_ }
      · have unsharing := writes.notSharing
        exact absurd (here.right.sharing (here.inserted run version found none')) unsharing
      · cases (atTask.symm.trans found)
        cases counts with
        | keeps same => rw [same]; exact here.viewCount seen equal
        | claims none' one _ => exact Or.inr ⟨one, _, rfl⟩
      · cases counts with
        | @claims run none' one ended =>
            exact ⟨countsZero none', here.ended run ended, new, atTask, one⟩
        | keeps same =>
            have right := here.right
            rw [RightHolds] at right ⊢
            cases found : (marks other).right with
            | none => trivial
            | first => rw [found] at right; exact right
            | retry => rw [found] at right; exact right
            | firstInserted run => rw [found] at right; exact absurd right.1 writes.notSharing
            | retryInserted run => rw [found] at right; exact absurd right.1 writes.notSharing
            | claims run =>
                rw [found] at right
                obtain ⟨zero, ended, version, task, one⟩ := right
                have same' : version = row := Option.some.inj ((Store.view_own task).symm.trans seen)
                exact ⟨zero, ended, new, atTask, by rw [same, ← same', one]⟩
    · rw [Function.update_of_ne different]
      exact others other different
  · intro one other first second
    cases counts with
    | keeps same =>
        have rights : ∀ who, (Function.update marks thread
            { marks thread with stage := .wrote } who).right = (marks who).right := by
          intro who
          by_cases acting : who = thread
          · subst acting
            rw [Function.update_self]
          · rw [Function.update_of_ne acting]
        exact fits.alone one other (rights one ▸ first) (rights other ▸ second)
    | @claims run none' isOne ended =>
        -- A claim is a new right: the run it ended and a count of 0 leave nobody another one.
        have only : ∀ who, (Function.update marks thread
            { marks thread with stage := .wrote, right := .claims run } who).right ≠ .none →
              who = thread := by
          intro who some'
          by_contra different
          rw [Function.update_of_ne different] at some'
          have right := (fits.mark who).right
          rw [RightHolds] at right
          rcases fits.otherRights free different with found | found | found
          · exact some' found
          · rw [found] at right
            obtain ⟨_, source, _, _, present⟩ := here.ended run ended
            exact absurd (right.1 run) (by rw [present]; exact nofun)
          · rw [found] at right
            have one := right.2 base committed
            have zero := countsZero none' base committed
            omega
        exact (only one first).trans (only other second).symm

/-- Nobody's right changes. -/
theorem Consistent.sameRights (fits : store.Consistent marks) {mark : Mark}
    (same : mark.right = (marks thread).right) (one other : Nat)
    (first : (Function.update marks thread mark one).right ≠ .none)
    (second : (Function.update marks thread mark other).right ≠ .none) : one = other := by
  have rights : ∀ who, (Function.update marks thread mark who).right = (marks who).right := by
    intro who
    by_cases acting : who = thread
    · subst acting
      rw [Function.update_self]
      exact same
    · rw [Function.update_of_ne acting]
  exact fits.alone one other (rights one ▸ first) (rights other ▸ second)

/-! ### Writing a run -/

theorem Consistent.writeRun (fits : store.Consistent marks) {run : Nat} {row : WorkerRunRow}
    {status : WorkerRunStatus} {mark : Mark} (seen : store.viewRun thread run = some row)
    (live : row.status ≠ .terminated) (free : store.rows.blocked thread (.run run) = false)
    (writes : (marks thread).mayWrite) (right : mark.right = (marks thread).right)
    (stage : mark.stage = (marks thread).stage)
    (ended : mark.ended = (marks thread).ended ∨ mark.ended = some run ∧ status = .terminated)
    (owed : ∀ other, other ∈ (marks thread).unrevoked → other ∈ mark.unrevoked)
    (owes : status = .terminated → run ∈ mark.unrevoked) :
    (store.withRows (store.rows.write thread (.run run) { row with status := status })).Consistent
      (Function.update marks thread mark) := by
  have here := fits.mark thread
  have atRun : (store.rows.write thread (.run run) { row with status := status }).pending
      (.run run) = some (thread, { row with status := status }) := Store.write_pending_self ..
  have elsewhere : ∀ {other : Nat}, other ≠ run →
      (store.rows.write thread (.run run) { row with status := status }).pending (.run other) =
        store.rows.pending (.run other) := fun different =>
    Store.write_pending_of_ne fun same => different (TaskKey.run.inj same)
  -- Only a thread that shares the Task has inserted, and this one does not.
  have known : ∃ base : WorkerRunRow, store.rows.committed (.run run) = some base ∧
      base.status ≠ .terminated ∧ row.attempt = base.attempt := by
    rcases store.rows.view_cases thread (.run run) with ⟨own, found, viewed⟩ | ⟨_, viewed⟩
    · have same : own = row := Option.some.inj (viewed.symm.trans seen)
      cases source : store.rows.committed (.run run) with
      | none =>
          have sharing := here.right.sharing (here.inserted run own found source)
          exact absurd sharing writes.notSharing
      | some base =>
          obtain ⟨going, attempt⟩ := fits.pending.run thread run own base found source
          exact ⟨base, rfl, going, same ▸ attempt⟩
    · exact ⟨row, viewed.symm.trans seen, live, rfl⟩
  obtain ⟨base, committed, going, attempt⟩ := known
  have inRange : run < store.nextRun := by
    by_contra beyond
    have absent := (fits.rows.freshRun run (by omega)).1
    rw [absent] at committed
    cases committed
  have stillEnded : ∀ other, store.Ended thread other →
      (store.withRows (store.rows.write thread (.run run) { row with status := status })).Ended
        thread other := by
    rintro other ⟨version, source, found, terminated, present⟩
    by_cases same : other = run
    · subst same
      have equal : version = row := Option.some.inj ((Store.view_own found).symm.trans seen)
      exact absurd (equal ▸ terminated) live
    · exact ⟨version, source, (elsewhere same).trans found, terminated, present⟩
  refine
    { rows := fits.rows.write _ free fun other beyond =>
        ⟨fun same => ?_, nofun⟩
      pending := ?_
      mark := ?_
      alone := fits.sameRights right }
  · have equal := TaskKey.run.inj same
    omega
  · refine { task := fits.pending.task, run := ?_, handle := fits.pending.handle }
    intro writer other version source found present
    by_cases same : other = run
    · subst same
      cases atRun.symm.trans found
      have equal : source = base := Option.some.inj (present.symm.trans committed)
      exact equal ▸ ⟨going, attempt⟩
    · exact fits.pending.run writer other version source ((elsewhere same).symm.trans found) present
  · intro other
    by_cases different : other = thread
    · subst different
      rw [Function.update_self]
      refine
        { unwritten := fun closed => here.unwritten (stage ▸ closed)
          sharing := fun sharing => absurd (stage ▸ sharing) writes.notSharing
          ended := fun target found => ?_
          revokes := fun target version found terminated => ?_
          inserted := fun target version found absent => ?_
          retryCount := fun version source found equal => ?_
          right := ?_ }
      · rcases ended with same | ⟨same, isEnd⟩
        · exact stillEnded target (here.ended target (same ▸ found))
        · have equal : run = target := Option.some.inj (same.symm.trans found)
          subst equal
          exact ⟨_, base, atRun, isEnd, committed⟩
      · by_cases same : target = run
        · subst same
          cases atRun.symm.trans found
          exact Or.inr (owes terminated)
        · rcases here.revokes target version ((elsewhere same).symm.trans found) terminated with
            viewed | owing
          · exact Or.inl viewed
          · exact Or.inr (owed target owing)
      · rw [right]
        by_cases same : target = run
        · subst same
          have missing : store.rows.committed (.run target) = none := absent
          rw [committed] at missing
          cases missing
        · exact here.inserted target version ((elsewhere same).symm.trans found) absent
      · rw [right]
        exact here.retryCount version source found equal
      · have before := here.right
        rw [RightHolds] at before ⊢
        rw [right, stage]
        cases found : (marks other).right with
        | none => trivial
        | first => rw [found] at before; exact before
        | retry => rw [found] at before; exact before
        | firstInserted target => rw [found] at before; exact absurd before.1 writes.notSharing
        | retryInserted target => rw [found] at before; exact absurd before.1 writes.notSharing
        | claims target =>
            rw [found] at before
            obtain ⟨zero, was, task⟩ := before
            exact ⟨zero, stillEnded target was, task⟩
    · rw [Function.update_of_ne different]
      exact (fits.mark other).writeOther _ free different

/-! ### Revoking a Handle -/

theorem Consistent.writeHandle (fits : store.Consistent marks) {run : Nat} {mark : Mark}
    (known : run < store.nextRun) (free : store.rows.blocked thread (.handle run) = false)
    (right : mark.right = (marks thread).right) (stage : mark.stage = (marks thread).stage)
    (ended : mark.ended = (marks thread).ended)
    (owed : ∀ other, other ≠ run → other ∈ (marks thread).unrevoked → other ∈ mark.unrevoked) :
    (store.withRows (store.rows.write thread (.handle run) true)).Consistent
      (Function.update marks thread mark) := by
  have here := fits.mark thread
  have atHandle : (store.rows.write thread (.handle run) true).pending (.handle run) =
      some (thread, true) := Store.write_pending_self ..
  have elsewhere : ∀ {other : Nat}, other ≠ run →
      (store.rows.write thread (.handle run) true).pending (.handle other) =
        store.rows.pending (.handle other) := fun different =>
    Store.write_pending_of_ne fun same => different (TaskKey.handle.inj same)
  have inserted : ∀ other, store.Inserted thread other →
      (store.withRows (store.rows.write thread (.handle run) true)).Inserted thread other := by
    rintro other ⟨row, revoked, handle⟩
    refine ⟨row, ?_⟩
    by_cases same : other = run
    · subst same
      exact ⟨true, atHandle⟩
    · exact ⟨revoked, (elsewhere same).trans handle⟩
  refine
    { rows := fits.rows.write _ free fun other beyond => ⟨nofun, fun same => ?_⟩
      pending := ?_
      mark := ?_
      alone := fits.sameRights right }
  · have equal := TaskKey.handle.inj same
    omega
  · refine { task := fits.pending.task, run := fits.pending.run, handle := ?_ }
    intro writer other revoked found
    by_cases same : other = run
    · subst same
      cases atHandle.symm.trans found
      exact Or.inl rfl
    · exact fits.pending.handle writer other revoked ((elsewhere same).symm.trans found)
  · intro other
    by_cases different : other = thread
    · subst different
      rw [Function.update_self]
      refine
        { unwritten := fun closed => here.unwritten (stage ▸ closed)
          sharing := fun sharing => here.sharing (stage ▸ sharing)
          ended := fun target found => here.ended target (ended ▸ found)
          revokes := fun target version found terminated => ?_
          inserted := fun target version found absent => ?_
          retryCount := fun version source found equal => ?_
          right := ?_ }
      · by_cases same : target = run
        · subst same
          exact Or.inl Store.view_write_self
        · have seen : (store.rows.write other (.handle run) true).view other (.handle target) =
              store.rows.view other (.handle target) :=
            Store.view_write_of_ne fun equal => same (TaskKey.handle.inj equal)
          rcases here.revokes target version found terminated with viewed | owing
          · exact Or.inl (seen.trans viewed)
          · exact Or.inr (owed target same owing)
      · rw [right]
        exact here.inserted target version found absent
      · rw [right]
        exact here.retryCount version source found equal
      · have before := here.right
        rw [RightHolds] at before ⊢
        rw [right, stage]
        cases found : (marks other).right with
        | none => trivial
        | first => rw [found] at before; exact before
        | retry => rw [found] at before; exact before
        | claims target => rw [found] at before; exact before
        | firstInserted target =>
            rw [found] at before
            obtain ⟨sharing, none', zero, was⟩ := before
            exact ⟨sharing, none', zero, inserted target was⟩
        | retryInserted target =>
            rw [found] at before
            obtain ⟨sharing, only, one, was⟩ := before
            exact ⟨sharing, only, one, inserted target was⟩
    · rw [Function.update_of_ne different]
      exact (fits.mark other).writeOther _ free different

/-! ### A share lock -/

theorem Consistent.lockTask (fits : store.Consistent marks)
    {moved : Store Nat TaskKey TaskKey.Row × Option TaskRow}
    (locked : store.rows.lockShared thread .task = some moved)
    (opened : (marks thread).stage = .opened) {mark : Mark}
    (taught : mark = marks thread ∨ mark = { marks thread with stage := .sharing } ∧
      moved.2.any (!·.status.ended) = true) :
    (store.withRows moved.1).Consistent (Function.update marks thread mark) := by
  obtain ⟨unwritten, committed, pending, sharers, seen⟩ := Store.lockShared_some locked
  obtain ⟨rows, read⟩ := moved
  obtain ⟨committed', pending', sharers'⟩ := rows
  simp only at committed pending sharers seen
  subst committed pending
  have here := fits.mark thread
  have unwritten' : store.rows.pending .task = none := by
    cases found : store.rows.pending .task with
    | none => rfl
    | some version =>
        obtain ⟨writer, row⟩ := version
        have same := unwritten writer row found
        subst same
        exact absurd found (here.unwritten (Or.inr opened) row)
  have shares : ∀ {other : Nat}, other ∈ store.rows.sharers .task → other ∈ sharers' .task :=
    fun member => (sharers .task _).mpr (Or.inl member)
  have frame : ∀ {other : Nat} {before : Mark}, store.MarkHolds other before →
      (store.withRows ⟨store.rows.committed, store.rows.pending, sharers'⟩).MarkHolds other before :=
    fun holds =>
      { unwritten := holds.unwritten
        sharing := fun sharing =>
          ⟨shares (holds.sharing sharing).1, (holds.sharing sharing).2⟩
        ended := holds.ended
        revokes := holds.revokes
        inserted := holds.inserted
        retryCount := holds.retryCount
        right := holds.right }
  have base : (store.withRows ⟨store.rows.committed, store.rows.pending, sharers'⟩).Consistent
      marks := by
    refine
    { rows :=
        { exclusive := fits.rows.exclusive.lockShared locked
          task := fits.rows.task
          freshRun := fits.rows.freshRun
          freshHandle := fits.rows.freshHandle
          handled := fits.rows.handled
          revoked := fits.rows.revoked
          lineage := fits.rows.lineage
          unshared := fun key different => ?_ }
      pending := ⟨fits.pending.task, fits.pending.run, fits.pending.handle⟩
      mark := fun other => frame (fits.mark other)
      alone := fits.alone }
    refine List.eq_nil_iff_forall_not_mem.mpr fun other member => ?_
    rcases (sharers key other).mp member with before | ⟨same, _⟩
    · rw [fits.rows.unshared key different] at before
      cases before
    · exact different same
  rcases taught with same | ⟨same, going⟩
  · subst same
    exact base.remark (frame here) id
  · subst same
    refine base.remark ?_ id
    refine
      { unwritten := by rintro (impossible | impossible) <;> cases impossible
        sharing := fun _ => ⟨(sharers .task thread).mpr (Or.inr ⟨rfl, rfl⟩), unwritten', ?_⟩
        ended := here.ended
        revokes := here.revokes
        inserted := here.inserted
        retryCount := here.retryCount
        right := ?_ }
    · intro row found
      have viewed : read = some row := by
        rw [seen, Store.view_committed fun row' own => by rw [unwritten'] at own; cases own]
        exact found
      subst viewed
      simpa using going
    · have right := here.right
      rw [RightHolds] at right ⊢
      cases found : (marks thread).right with
      | none => trivial
      | first => rw [found] at right; exact right
      | retry => rw [found] at right; exact right
      | claims run => rw [found] at right; exact right
      | firstInserted run =>
          rw [found, opened] at right
          cases right.1
      | retryInserted run =>
          rw [found, opened] at right
          cases right.1

/-! ### Inserting a run -/

/-- A run id nobody has used, taken out of the unused ones. -/
theorem Consistent.advance (fits : store.Consistent marks) :
    ({ store with nextRun := store.nextRun + 1 } : TaskStore).Consistent marks where
  rows :=
    { exclusive := fits.rows.exclusive
      task := fits.rows.task
      freshRun := fun run beyond => fits.rows.freshRun run (Nat.le_of_succ_le beyond)
      freshHandle := fun run beyond => fits.rows.freshHandle run (Nat.le_of_succ_le beyond)
      handled := fits.rows.handled
      revoked := fits.rows.revoked
      lineage := fits.rows.lineage
      unshared := fits.rows.unshared }
  pending := ⟨fits.pending.task, fits.pending.run, fits.pending.handle⟩
  mark := fun thread =>
    { unwritten := (fits.mark thread).unwritten
      sharing := (fits.mark thread).sharing
      ended := (fits.mark thread).ended
      revokes := (fits.mark thread).revokes
      inserted := (fits.mark thread).inserted
      retryCount := (fits.mark thread).retryCount
      right := (fits.mark thread).right }
  alone := fits.alone

theorem Consistent.insertRun (fits : store.Consistent marks) {attempt : Nat}
    (sharing : (marks thread).stage = .sharing)
    (right : (marks thread).right = .first ∧ attempt = 1 ∨ (marks thread).right = .retry) :
    (store.insertRun thread attempt).Consistent
      (Function.update marks thread
        { marks thread with right := (marks thread).right.insert store.nextRun }) := by
  have here := fits.mark thread
  have freshRun := fits.rows.freshRun store.nextRun (Nat.le_refl _)
  have freshHandle := fits.rows.freshHandle store.nextRun (Nat.le_refl _)
  have freeRun : store.rows.blocked thread (.run store.nextRun) = false :=
    Store.blocked_free freshRun.2 (fits.rows.unshared _ nofun)
  let first : TaskStore :=
    ({ store with nextRun := store.nextRun + 1 } : TaskStore).withRows
      (store.rows.write thread (.run store.nextRun)
        { id := store.nextRun, status := .provisioning, attempt := attempt })
  have freeHandle : first.rows.blocked thread (.handle store.nextRun) = false :=
    Store.blocked_free freshHandle.2 (fits.rows.unshared _ nofun)
  have rowsFirst : first.RowsHold := fits.advance.rows.write _ freeRun fun run beyond => by
    refine ⟨fun same => ?_, nofun⟩
    have equal := TaskKey.run.inj same
    have above : store.nextRun + 1 ≤ run := beyond
    omega
  have runHandle : ∀ {run : Nat}, TaskKey.run run ≠ .handle store.nextRun := nofun
  have handleRun : ∀ {run : Nat}, TaskKey.handle run ≠ .run store.nextRun := nofun
  have atRun : (store.insertRun thread attempt).rows.pending (.run store.nextRun) =
      some (thread, { id := store.nextRun, status := .provisioning, attempt := attempt }) :=
    (Store.write_pending_of_ne runHandle).trans (Store.write_pending_self ..)
  have atHandle : (store.insertRun thread attempt).rows.pending (.handle store.nextRun) =
      some (thread, false) := Store.write_pending_self ..
  have otherRun : ∀ {run : Nat}, run ≠ store.nextRun →
      (store.insertRun thread attempt).rows.pending (.run run) = store.rows.pending (.run run) :=
    fun different => (Store.write_pending_of_ne runHandle).trans
      (Store.write_pending_of_ne fun same => different (TaskKey.run.inj same))
  have otherHandle : ∀ {run : Nat}, run ≠ store.nextRun →
      (store.insertRun thread attempt).rows.pending (.handle run) =
        store.rows.pending (.handle run) :=
    fun different => (Store.write_pending_of_ne fun same => different (TaskKey.handle.inj same)).trans
      (Store.write_pending_of_ne handleRun)
  refine
    { rows := rowsFirst.write _ freeHandle fun run beyond => ⟨nofun, fun same => ?_⟩
      pending := ?_
      mark := ?_
      alone := ?_ }
  · have equal := TaskKey.handle.inj same
    have above : store.nextRun + 1 ≤ run := beyond
    omega
  · refine { task := fits.pending.task, run := ?_, handle := ?_ }
    · intro writer run version base found present
      by_cases same : run = store.nextRun
      · subst same
        have missing := freshRun.1.symm.trans present
        cases missing
      · exact fits.pending.run writer run version base ((otherRun same).symm.trans found) present
    · intro writer run revoked found
      by_cases same : run = store.nextRun
      · subst same
        exact Or.inr freshHandle.1
      · exact fits.pending.handle writer run revoked ((otherHandle same).symm.trans found)
  · intro other
    by_cases different : other = thread
    · subst different
      rw [Function.update_self]
      -- The run just inserted is the only one of this transaction.
      have alone : ∀ run (row : WorkerRunRow), store.rows.pending (.run run) = some (other, row) →
          store.rows.committed (.run run) ≠ none := by
        intro run row found absent
        rcases here.inserted run row found absent with same | same
        · rcases right with ⟨isFirst, _⟩ | retry
          · rw [isFirst] at same; cases same
          · rw [retry] at same; cases same
        · rcases right with ⟨isFirst, _⟩ | retry
          · rw [isFirst] at same; cases same
          · rw [retry] at same; cases same
      refine
        { unwritten := fun closed => here.unwritten closed
          sharing := fun _ => here.sharing sharing
          ended := fun run found => ?_
          revokes := fun run row found terminated => ?_
          inserted := fun run row found absent => ?_
          retryCount := fun row base found present => ?_
          right := ?_ }
      · obtain ⟨row, base, was, terminated, present⟩ := here.ended run found
        have different : run ≠ store.nextRun := by
          rintro rfl
          have missing := freshRun.1.symm.trans present
          cases missing
        exact ⟨row, base, (otherRun different).trans was, terminated, present⟩
      · by_cases same : run = store.nextRun
        · subst same
          cases atRun.symm.trans found
          cases terminated
        · have seen : (store.insertRun other attempt).rows.view other (.handle run) =
              store.rows.view other (.handle run) :=
            (Store.view_write_of_ne fun equal => same (TaskKey.handle.inj equal)).trans
              (Store.view_write_of_ne handleRun)
          rcases here.revokes run row ((otherRun same).symm.trans found) terminated with
            viewed | owing
          · exact Or.inl (seen.trans viewed)
          · exact Or.inr owing
      · by_cases same : run = store.nextRun
        · subst same
          rcases right with ⟨isFirst, _⟩ | retry
          · exact Or.inl (by rw [isFirst]; rfl)
          · exact Or.inr (by rw [retry]; rfl)
        · exact absurd absent (alone run row ((otherRun same).symm.trans found))
      · rcases here.retryCount row base found present with same | ⟨_, run, claims⟩
        · exact Or.inl same
        · rcases right with ⟨isFirst, _⟩ | retry
          · rw [isFirst] at claims; cases claims
          · rw [retry] at claims; cases claims
      · have before := here.right
        rw [RightHolds] at before ⊢
        rcases right with ⟨isFirst, rfl⟩ | retry
        · rw [isFirst] at before
          simp only [isFirst, Right.insert]
          exact ⟨sharing, before.1, before.2, ⟨_, atRun, nofun, fun _ => rfl⟩, _, atHandle⟩
        · rw [retry] at before
          simp only [retry, Right.insert]
          refine ⟨sharing, before.1, before.2, ⟨_, atRun, nofun, fun zero => ?_⟩, _, atHandle⟩
          obtain ⟨base, committed, _⟩ := fits.rows.task
          have isZero := zero base committed
          have isOne := before.2 base committed
          omega
    · rw [Function.update_of_ne different]
      have advanced : first.MarkHolds other (marks other) :=
        (fits.advance.mark other).writeOther _ freeRun different
      exact advanced.writeOther _ freeHandle different
  · have entitled : (marks thread).right ≠ .none := by
      rcases right with ⟨isFirst, _⟩ | retry
      · rw [isFirst]; exact nofun
      · rw [retry]; exact nofun
    have before : ∀ who, (Function.update marks thread
        { marks thread with right := (marks thread).right.insert store.nextRun } who).right ≠ .none →
          (marks who).right ≠ .none := by
      intro who some'
      by_cases acting : who = thread
      · subst acting
        exact entitled
      · rw [Function.update_of_ne acting] at some'
        exact some'
    intro one other first second
    exact fits.alone one other (before one first) (before other second)

/-! ### The end of a transaction -/

/-- The other threads keep what they hold when a transaction ends. -/
theorem MarkHolds.afterEnd {other : Nat} {mark : Mark} (holds : store.MarkHolds other mark)
    (different : other ≠ thread) :
    (store.rollback thread).MarkHolds other mark := by
  have versions : ∀ {key : TaskKey} {version : key.Row},
      (store.rows.rollback thread).pending key = some (other, version) ↔
        store.rows.pending key = some (other, version) :=
    Store.rollback_pending.trans (and_iff_left different)
  have seen : ∀ key, (store.rows.rollback thread).view other key = store.rows.view other key := by
    intro key
    rcases store.rows.view_cases other key with ⟨version, found, viewed⟩ | ⟨unwritten, viewed⟩
    · rw [viewed]
      exact Store.view_own (versions.mpr found)
    · rw [viewed]
      exact Store.view_committed fun version found => unwritten version (versions.mp found)
  have inserted : ∀ {run : Nat}, store.Inserted other run →
      (store.rollback thread).Inserted other run := by
    rintro run ⟨⟨version, found, rest⟩, revoked, handle⟩
    exact ⟨⟨version, versions.mpr found, rest⟩, revoked, versions.mpr handle⟩
  have ended : ∀ {run : Nat}, store.Ended other run → (store.rollback thread).Ended other run := by
    rintro run ⟨version, base, found, rest⟩
    exact ⟨version, base, versions.mpr found, rest⟩
  refine
    { unwritten := fun stage version found => holds.unwritten stage version (versions.mp found)
      sharing := fun sharing => ?_
      ended := fun run found => ended (holds.ended run found)
      revokes := fun run version found status => ?_
      inserted := fun run version found => holds.inserted run version (versions.mp found)
      retryCount := fun version base found => holds.retryCount version base (versions.mp found)
      right := ?_ }
  · obtain ⟨shares, unwritten, going⟩ := holds.sharing sharing
    exact ⟨Store.mem_rollback_sharers.mpr ⟨shares, different⟩,
      Store.rollback_pending_none unwritten, going⟩
  · rcases holds.revokes run version (versions.mp found) status with viewed | owed
    · exact Or.inl ((seen _).trans viewed)
    · exact Or.inr owed
  · have right := holds.right
    rw [RightHolds] at right ⊢
    cases found : mark.right with
    | none => trivial
    | first => rw [found] at right; exact right
    | retry => rw [found] at right; exact right
    | firstInserted run =>
        rw [found] at right
        obtain ⟨sharing, none', zero, pending⟩ := right
        exact ⟨sharing, none', zero, inserted pending⟩
    | retryInserted run =>
        rw [found] at right
        obtain ⟨sharing, only, one, pending⟩ := right
        exact ⟨sharing, only, one, inserted pending⟩
    | claims run =>
        rw [found] at right
        obtain ⟨zero, pending, version, task, one⟩ := right
        exact ⟨zero, ended pending, version, versions.mpr task, one⟩

theorem PendingHold.rollback (holds : store.PendingHold) (thread : Nat) :
    (store.rollback thread).PendingHold where
  task := fun writer row base found => holds.task writer row base (Store.rollback_pending.mp found).1
  run := fun writer run row base found =>
    holds.run writer run row base (Store.rollback_pending.mp found).1
  handle := fun writer run revoked found =>
    holds.handle writer run revoked (Store.rollback_pending.mp found).1

theorem rollback_unwritten (store : TaskStore) (thread : Nat) (key : TaskKey) (row : key.Row) :
    (store.rollback thread).rows.pending key ≠ some (thread, row) :=
  fun found => (Store.rollback_pending.mp found).2 rfl

theorem Consistent.rollback (fits : store.Consistent marks) {right : Right}
    (less : right = .none ∨ right = (marks thread).right.abandon) :
    (store.rollback thread).Consistent (Function.update marks thread (.resting right)) := by
  have entitled : right ≠ .none → (marks thread).right = right := by
    intro some'
    rcases less with none' | same
    · exact absurd none' some'
    · subst same
      cases found : (marks thread).right <;> rw [found] at some' <;>
        first | rfl | exact absurd rfl some'
  refine
    { rows :=
        { exclusive := fits.rows.exclusive.rollback thread
          task := fits.rows.task
          freshRun := fun run beyond => ⟨(fits.rows.freshRun run beyond).1,
            Store.rollback_pending_none (fits.rows.freshRun run beyond).2⟩
          freshHandle := fun run beyond => ⟨(fits.rows.freshHandle run beyond).1,
            Store.rollback_pending_none (fits.rows.freshHandle run beyond).2⟩
          handled := fits.rows.handled
          revoked := fits.rows.revoked
          lineage := fits.rows.lineage
          unshared := fun key different => ?_ }
      pending := fits.pending.rollback thread
      mark := fun other => ?_
      alone := ?_ }
  · refine List.eq_nil_iff_forall_not_mem.mpr fun other member => ?_
    have before := (Store.mem_rollback_sharers.mp member).1
    rw [fits.rows.unshared key different] at before
    cases before
  · by_cases different : other = thread
    · subst different
      rw [Function.update_self]
      have held : right.held = true := by
        rcases less with rfl | rfl
        · rfl
        · exact Right.abandon_held _
      refine .resting (rollback_unwritten store other .task)
        (fun run => rollback_unwritten store other (.run run)) ?_
      cases right with
      | none => trivial
      | first =>
          have same := entitled nofun
          exact (fits.mark other).right.ofCommitted (by rw [same]; rfl) rfl same.symm
      | retry =>
          have same := entitled nofun
          exact (fits.mark other).right.ofCommitted (by rw [same]; rfl) rfl same.symm
      | claims run => cases held
      | firstInserted run => cases held
      | retryInserted run => cases held
    · rw [Function.update_of_ne different]
      exact (fits.mark other).afterEnd different
  · have before : ∀ who, (Function.update marks thread (.resting right) who).right ≠ .none →
        (marks who).right ≠ .none := by
      intro who some'
      by_cases acting : who = thread
      · subst acting
        rw [Function.update_self] at some'
        rw [entitled some']
        exact some'
      · rw [Function.update_of_ne acting] at some'
        exact some'
    intro one other first second
    exact fits.alone one other (before one first) (before other second)

/-- Without an insert, a transaction sees only runs that are committed; it keeps their
attempt, and what has ended stays as it is. -/
theorem Consistent.viewRun_old (fits : store.Consistent marks)
    (uninserted : ∀ run, (marks thread).right ≠ .firstInserted run ∧
      (marks thread).right ≠ .retryInserted run)
    {run : Nat} {row : WorkerRunRow} (seen : store.viewRun thread run = some row) :
    ∃ base : WorkerRunRow, store.rows.committed (.run run) = some base ∧
      row.attempt = base.attempt ∧ (base.status = .terminated → row = base) := by
  rcases store.rows.view_cases thread (.run run) with ⟨own, found, viewed⟩ | ⟨_, viewed⟩
  · have same : own = row := Option.some.inj (viewed.symm.trans seen)
    subst same
    cases source : store.rows.committed (.run run) with
    | none =>
        rcases (fits.mark thread).inserted run own found source with same | same
        · exact absurd same (uninserted run).1
        · exact absurd same (uninserted run).2
    | some base =>
        obtain ⟨going, attempt⟩ := fits.pending.run thread run own base found source
        exact ⟨base, rfl, attempt, fun ended => absurd ended going⟩
  · exact ⟨row, viewed.symm.trans seen, rfl, fun _ => rfl⟩

/-- Without a claim, a transaction sees the retry count that is committed. -/
theorem Consistent.viewCount_old (fits : store.Consistent marks)
    (unclaimed : ∀ run, (marks thread).right ≠ .claims run) {count : Nat}
    (counts : store.retryCountIs count) {row : TaskRow}
    (seen : store.viewTask thread = some row) : row.retryCount = count := by
  obtain ⟨base, committed, _⟩ := fits.rows.task
  rcases (fits.mark thread).viewCount seen committed with same | ⟨_, run, claims⟩
  · exact same.trans (counts base committed)
  · exact absurd claims (unclaimed run)

/-- A revocation that is seen stays seen. -/
theorem PendingHold.viewRevoked (holds : store.PendingHold) {run : Nat}
    (revoked : store.rows.committed (.handle run) = some true) :
    store.rows.view thread (.handle run) = some true := by
  rcases store.rows.view_cases thread (.handle run) with ⟨own, found, viewed⟩ | ⟨_, viewed⟩
  · rcases holds.handle thread run own found with same | absent
    · rw [viewed, same]
    · rw [absent] at revoked
      cases revoked
  · rw [viewed, revoked]

/-- A right outlives another thread's commit that neither inserts nor claims. -/
theorem Consistent.rightAfterCommit (fits : store.Consistent marks) {holder : Nat}
    {mark : Mark} (holds : (store.rollback thread).RightHolds holder mark)
    (unended : ∀ run, (store.rollback thread).Ended holder run →
      (store.commit thread).Ended holder run)
    (uninserted : ∀ run, (marks thread).right ≠ .firstInserted run ∧
      (marks thread).right ≠ .retryInserted run)
    (unclaimed : ∀ run, (marks thread).right ≠ .claims run) :
    (store.commit thread).RightHolds holder mark := by
  have counts : ∀ count, store.retryCountIs count → (store.commit thread).retryCountIs count :=
    fun count before row found => fits.viewCount_old unclaimed before found
  have noRuns : store.noRuns → (store.commit thread).noRuns := by
    intro none' run
    change store.viewRun thread run = none
    cases seen : store.viewRun thread run with
    | none => rfl
    | some row =>
        obtain ⟨base, committed, _⟩ := fits.viewRun_old uninserted seen
        rw [none' run] at committed
        cases committed
  have onlyFirst : store.onlyFirstEnded → (store.commit thread).onlyFirstEnded := by
    rintro ⟨only, ended⟩
    refine ⟨only, fun run row seen => ?_⟩
    obtain ⟨base, committed, _, fixed⟩ := fits.viewRun_old uninserted seen
    have before := ended run base committed
    rw [fixed before.2.1]
    exact before
  rw [RightHolds] at holds ⊢
  cases found : mark.right with
  | none => trivial
  | first =>
      rw [found] at holds
      exact ⟨noRuns holds.1, counts 0 holds.2⟩
  | retry =>
      rw [found] at holds
      exact ⟨onlyFirst holds.1, counts 1 holds.2⟩
  | claims run =>
      rw [found] at holds
      obtain ⟨zero, ended, task⟩ := holds
      exact ⟨counts 0 zero, unended run ended, task⟩
  | firstInserted run =>
      rw [found] at holds
      obtain ⟨sharing, none', zero, ⟨row, pending, live, attempt⟩, handle⟩ := holds
      exact ⟨sharing, noRuns none', counts 0 zero, ⟨row, pending, live, fun _ => attempt zero⟩, handle⟩
  | retryInserted run =>
      rw [found] at holds
      obtain ⟨sharing, only, one, ⟨row, pending, live, _⟩, handle⟩ := holds
      refine ⟨sharing, onlyFirst only, counts 1 one, ⟨row, pending, live, fun zero => ?_⟩, handle⟩
      obtain ⟨base, committed, _⟩ := fits.rows.task
      obtain ⟨task, seen⟩ := Store.view_of_committed thread committed
      have isZero := zero task seen
      have isOne := counts 1 one task seen
      omega

theorem Consistent.markAfterCommit (fits : store.Consistent marks) {other : Nat}
    (different : other ≠ thread) : (store.commit thread).MarkHolds other (marks other) := by
  have holds := fits.mark other
  have rolled : (store.rollback thread).MarkHolds other (marks other) := holds.afterEnd different
  -- A row the other thread has written is committed as it was.
  have unchanged : ∀ {key : TaskKey} {version : key.Row},
      (store.rollback thread).rows.pending key = some (other, version) →
        store.rows.view thread key = store.rows.committed key := by
    intro key version found
    refine Store.view_committed fun row own => ?_
    have same := (Store.rollback_pending.mp found).1.symm.trans own
    cases same
    exact different rfl
  have ended : ∀ run, (store.rollback thread).Ended other run →
      (store.commit thread).Ended other run := by
    rintro run ⟨row, base, found, terminated, committed⟩
    exact ⟨row, base, found, terminated, (unchanged found).trans committed⟩
  refine
    { unwritten := rolled.unwritten
      sharing := fun sharing => ?_
      ended := fun run found => ended run (rolled.ended run found)
      revokes := fun run row found terminated => ?_
      inserted := fun run row found absent =>
        rolled.inserted run row found ((unchanged found).symm.trans absent)
      retryCount := fun row base found present =>
        rolled.retryCount row base found ((unchanged found).symm.trans present)
      right := ?_ }
  · obtain ⟨shares, unwritten, going⟩ := holds.sharing sharing
    refine ⟨(rolled.sharing sharing).1, (rolled.sharing sharing).2.1, fun base present => ?_⟩
    refine going base ?_
    rw [← Store.view_committed fun row own => by rw [unwritten] at own; cases own]
    exact present
  · have before := (Store.rollback_pending.mp found).1
    rcases holds.revokes run row before terminated with viewed | owed
    · refine Or.inl ?_
      rcases store.rows.view_commit_other (.handle run) different with
        ⟨own, _, seen, after⟩ | ⟨unwritten, after⟩
      · exact after.trans (seen.symm.trans viewed)
      · refine after.trans (fits.pending.viewRevoked ?_)
        rw [← Store.view_committed unwritten]
        exact viewed
    · exact Or.inr owed
  · by_cases none' : (marks other).right = .none
    · rw [RightHolds, none']
      trivial
    · have bystander : (marks thread).right = .none := by
        by_contra some'
        exact different (fits.alone other thread none' some')
      refine fits.rightAfterCommit rolled.right ended (fun run => ?_) (fun run => ?_)
      · rw [bystander]
        exact ⟨nofun, nofun⟩
      · rw [bystander]
        exact nofun

/-- The run a transaction has inserted, by whichever right. -/
theorem Consistent.insertedRun (fits : store.Consistent marks) {run : Nat}
    (inserted : (marks thread).right = .firstInserted run ∨
      (marks thread).right = .retryInserted run) :
    store.Inserted thread run := by
  have right := (fits.mark thread).right
  rw [RightHolds] at right
  rcases inserted with same | same
  · rw [same] at right
    exact right.2.2.2
  · rw [same] at right
    exact right.2.2.2

/-- What a transaction sees of the runs: those that are committed, and its own new one. -/
theorem Consistent.viewRun_cases (fits : store.Consistent marks) {run : Nat} {row : WorkerRunRow}
    (seen : store.viewRun thread run = some row) :
    (∃ base : WorkerRunRow, store.rows.committed (.run run) = some base ∧
        row.attempt = base.attempt ∧ (base.status = .terminated → row = base)) ∨
      store.rows.committed (.run run) = none ∧
        store.rows.pending (.run run) = some (thread, row) ∧
        ((marks thread).right = .firstInserted run ∨ (marks thread).right = .retryInserted run) := by
  rcases store.rows.view_cases thread (.run run) with ⟨own, found, viewed⟩ | ⟨_, viewed⟩
  · have same : own = row := Option.some.inj (viewed.symm.trans seen)
    subst same
    cases source : store.rows.committed (.run run) with
    | none => exact Or.inr ⟨rfl, found, (fits.mark thread).inserted run own found source⟩
    | some base =>
        obtain ⟨going, attempt⟩ := fits.pending.run thread run own base found source
        exact Or.inl ⟨base, rfl, attempt, fun ended => absurd ended going⟩
  · exact Or.inl ⟨row, viewed.symm.trans seen, rfl, fun _ => rfl⟩

/-- A commit without an insert keeps the runs there are. -/
theorem Consistent.lineageKept (fits : store.Consistent marks)
    (uninserted : ∀ run, (marks thread).right ≠ .firstInserted run ∧
      (marks thread).right ≠ .retryInserted run)
    (counts : store.retryCountIs 1 → (store.commit thread).retryCountIs 1) :
    (store.commit thread).Lineage := by
  rcases fits.rows.lineage with ⟨first, runs⟩ | ⟨one, first, retry, runs⟩
  · refine Or.inl ⟨first, fun run row seen => ?_⟩
    obtain ⟨base, committed, attempt, _⟩ := fits.viewRun_old uninserted seen
    rw [attempt]
    exact runs run base committed
  · refine Or.inr ⟨counts one, first, retry, fun run row seen => ?_⟩
    obtain ⟨base, committed, _, fixed⟩ := fits.viewRun_old uninserted seen
    rcases runs run base committed with ⟨isFirst, ended, attempt⟩ | isRetry
    · rw [fixed ended]
      exact Or.inl ⟨isFirst, ended, attempt⟩
    · exact Or.inr isRetry

theorem Consistent.lineageCommitted (fits : store.Consistent marks) :
    (store.commit thread).Lineage := by
  have holds := (fits.mark thread).right
  rw [RightHolds] at holds
  have quiet : (∀ run, (marks thread).right ≠ .firstInserted run ∧
      (marks thread).right ≠ .retryInserted run) →
      (∀ run, (marks thread).right ≠ .claims run) → (store.commit thread).Lineage :=
    fun uninserted unclaimed =>
      fits.lineageKept uninserted fun one row seen => fits.viewCount_old unclaimed one seen
  cases found : (marks thread).right with
  | none => exact quiet (by simp [found]) (by simp [found])
  | first => exact quiet (by simp [found]) (by simp [found])
  | retry => exact quiet (by simp [found]) (by simp [found])
  | claims run =>
      rw [found] at holds
      obtain ⟨_, _, task, pending, one⟩ := holds
      refine fits.lineageKept (by simp [found]) fun _ row seen => ?_
      have same : task = row := Option.some.inj ((Store.view_own pending).symm.trans seen)
      exact same ▸ one
  | firstInserted run =>
      rw [found] at holds
      obtain ⟨_, none', zero, ⟨row, pending, _, attempt⟩, _⟩ := holds
      refine Or.inl ⟨run, fun other version seen => ?_⟩
      rcases fits.viewRun_cases seen with ⟨base, committed, _⟩ | ⟨_, own, inserted | inserted⟩
      · rw [none' other] at committed
        cases committed
      · obtain rfl := Right.firstInserted.inj (found.symm.trans inserted)
        cases pending.symm.trans own
        exact ⟨rfl, attempt zero⟩
      · cases found.symm.trans inserted
  | retryInserted run =>
      rw [found] at holds
      obtain ⟨_, ⟨only, ended⟩, one, _⟩ := holds
      have counts : (store.commit thread).retryCountIs 1 :=
        fun task seen => fits.viewCount_old (by simp [found]) one seen
      refine Or.inr ⟨counts, only, run, fun other version seen => ?_⟩
      rcases fits.viewRun_cases seen with ⟨base, committed, _, fixed⟩ | ⟨_, _, inserted | inserted⟩
      · have before := ended other base committed
        rw [fixed before.2.1]
        exact Or.inl before
      · cases found.symm.trans inserted
      · exact Or.inr (Right.retryInserted.inj (found.symm.trans inserted)).symm

/-- A claim commits with the run it ended as the only one. -/
theorem Consistent.onlyFirstClaimed (fits : store.Consistent marks) {run : Nat}
    (claims : (marks thread).right = .claims run) :
    (store.commit thread).onlyFirstEnded ∧ (store.commit thread).retryCountIs 1 := by
  have holds := (fits.mark thread).right
  rw [RightHolds, claims] at holds
  obtain ⟨zero, ⟨row, base, own, terminated, committed⟩, task, pending, one⟩ := holds
  refine ⟨⟨run, fun other version seen => ?_⟩, fun version seen => ?_⟩
  · obtain ⟨source, present, attempt, _⟩ := fits.viewRun_old (by simp [claims]) seen
    rcases fits.rows.lineage with ⟨first, runs⟩ | ⟨isOne, _⟩
    · obtain ⟨isFirst, firstAttempt⟩ := runs other source present
      have same : other = run := isFirst.trans (runs run base committed).1.symm
      subst same
      have equal : row = version := Option.some.inj ((Store.view_own own).symm.trans seen)
      exact ⟨rfl, equal ▸ terminated, attempt.trans firstAttempt⟩
    · obtain ⟨current, found, _⟩ := fits.rows.task
      have isZero := zero current found
      have isOne := isOne current found
      omega
  · have same : task = version := Option.some.inj ((Store.view_own pending).symm.trans seen)
    exact same ▸ one

theorem Consistent.rowsCommitted (fits : store.Consistent marks)
    (revoked : (marks thread).unrevoked = []) : (store.commit thread).RowsHold := by
  have here := fits.mark thread
  refine
    { exclusive := fits.rows.exclusive.commit thread
      task := ?_
      freshRun := fun run beyond => ?_
      freshHandle := fun run beyond => ?_
      handled := fun run row seen => ?_
      revoked := fun run row seen ended => ?_
      lineage := fits.lineageCommitted
      unshared := fun key different => ?_ }
  · obtain ⟨base, committed, atMost⟩ := fits.rows.task
    obtain ⟨row, seen⟩ := Store.view_of_committed thread committed
    refine ⟨row, seen, ?_⟩
    rcases here.viewCount seen committed with same | ⟨one, _⟩
    · exact same ▸ atMost
    · exact Nat.le_of_eq one
  · obtain ⟨committed, pending⟩ := fits.rows.freshRun run beyond
    refine ⟨?_, Store.rollback_pending_none pending⟩
    exact (Store.view_committed fun row own => by rw [pending] at own; cases own).trans committed
  · obtain ⟨committed, pending⟩ := fits.rows.freshHandle run beyond
    refine ⟨?_, Store.rollback_pending_none pending⟩
    exact (Store.view_committed fun row own => by rw [pending] at own; cases own).trans committed
  · rcases fits.viewRun_cases seen with ⟨base, committed, _⟩ | ⟨_, _, inserted⟩
    · obtain ⟨handle, found⟩ := fits.rows.handled run base committed
      exact Store.view_of_committed thread found
    · obtain ⟨_, handle, found⟩ := fits.insertedRun inserted
      exact ⟨handle, Store.view_own found⟩
  · rcases store.rows.view_cases thread (.run run) with ⟨own, found, viewed⟩ | ⟨_, viewed⟩
    · have same : own = row := Option.some.inj (viewed.symm.trans seen)
      rcases here.revokes run own found (same ▸ ended) with viewed | owed
      · exact viewed
      · rw [revoked] at owed
        cases owed
    · exact fits.pending.viewRevoked (fits.rows.revoked run row (viewed.symm.trans seen) ended)
  · refine List.eq_nil_iff_forall_not_mem.mpr fun other member => ?_
    have before := (Store.mem_rollback_sharers.mp member).1
    rw [fits.rows.unshared key different] at before
    cases before

theorem Consistent.pendingCommitted (fits : store.Consistent marks) :
    (store.commit thread).PendingHold := by
  have rolled := fits.pending.rollback thread
  -- A row with an uncommitted version left was not the committer's.
  have unchanged : ∀ {writer : Nat} {key : TaskKey} {version : key.Row},
      (store.rollback thread).rows.pending key = some (writer, version) →
        store.rows.view thread key = store.rows.committed key := by
    intro writer key version found
    obtain ⟨before, different⟩ := Store.rollback_pending.mp found
    refine Store.view_committed fun row own => ?_
    cases before.symm.trans own
    exact different rfl
  exact
    { task := fun writer row base found present =>
        rolled.task writer row base found ((unchanged found).symm.trans present)
      run := fun writer run row base found present =>
        rolled.run writer run row base found ((unchanged found).symm.trans present)
      handle := fun writer run revoked found =>
        (rolled.handle writer run revoked found).imp id fun absent =>
          (unchanged found).trans absent }

theorem Consistent.commit (fits : store.Consistent marks)
    (revoked : (marks thread).unrevoked = []) :
    (store.commit thread).Consistent
      (Function.update marks thread (.resting (marks thread).right.commit)) := by
  have entitled : (marks thread).right.commit ≠ .none → (marks thread).right ≠ .none := by
    intro some' none'
    rw [none'] at some'
    exact some' rfl
  refine
    { rows := fits.rowsCommitted revoked
      pending := fits.pendingCommitted
      mark := fun other => ?_
      alone := ?_ }
  · by_cases different : other = thread
    · subst different
      rw [Function.update_self]
      refine .resting (rollback_unwritten store other .task)
        (fun run => rollback_unwritten store other (.run run)) ?_
      have rolled : (marks other).right.held = true →
          (store.rollback other).RightHolds other (marks other) := fun held =>
        (fits.mark other).right.ofCommitted held rfl rfl
      cases found : (marks other).right with
      | none => trivial
      | firstInserted run => trivial
      | retryInserted run => trivial
      | claims run => exact fits.onlyFirstClaimed found
      | first =>
          have kept := fits.rightAfterCommit (rolled (by rw [found]; rfl)) ?_ (by simp [found])
            (by simp [found])
          · rw [RightHolds, found] at kept
            exact kept
          · rintro run ⟨row, base, own, _⟩
            exact absurd own (rollback_unwritten store other (.run run) row)
      | retry =>
          have kept := fits.rightAfterCommit (rolled (by rw [found]; rfl)) ?_ (by simp [found])
            (by simp [found])
          · rw [RightHolds, found] at kept
            exact kept
          · rintro run ⟨row, base, own, _⟩
            exact absurd own (rollback_unwritten store other (.run run) row)
    · rw [Function.update_of_ne different]
      exact fits.markAfterCommit different
  · have before : ∀ who, (Function.update marks thread
        (.resting (marks thread).right.commit) who).right ≠ .none → (marks who).right ≠ .none := by
      intro who some'
      by_cases acting : who = thread
      · subst acting
        rw [Function.update_self] at some'
        exact entitled some'
      · rw [Function.update_of_ne acting] at some'
        exact some'
    intro one other first second
    exact fits.alone one other (before one first) (before other second)

end TaskStore
end NextTime.Task
