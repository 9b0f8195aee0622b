import Mathlib.Logic.Function.Basic

/-
Rows under READ COMMITTED. A transaction sees what is committed and its own
writes. A row somebody has written, or locked for share, is not written by
anybody else before that transaction ends. Nothing here names a particular
table.
-/

namespace ReadCommitted

/-- Committed rows, the one uncommitted version a row may have, and its share locks. -/
structure Store (Thread Key : Type) (Row : Key → Type) where
  committed : ∀ key, Option (Row key)
  pending : ∀ key, Option (Thread × Row key)
  sharers : Key → List Thread

variable {Thread Key : Type} {Row : Key → Type}

namespace Store

variable (store : Store Thread Key Row)

def write [DecidableEq Key] (thread : Thread) (key : Key) (row : Row key) :
    Store Thread Key Row :=
  { store with pending := Function.update store.pending key (some (thread, row)) }

section Statements

variable [DecidableEq Thread]

/-- What a statement of the transaction reads. -/
def view (thread : Thread) (key : Key) : Option (Row key) :=
  match store.pending key with
  | some (writer, row) => if writer = thread then some row else store.committed key
  | none => store.committed key

def writtenByOther (thread : Thread) (key : Key) : Bool :=
  match store.pending key with
  | some (writer, _) => decide (writer ≠ thread)
  | none => false

/-- A write of the row by this transaction would wait. -/
def blocked (thread : Thread) (key : Key) : Bool :=
  store.writtenByOther thread key || (store.sharers key).any fun other => decide (other ≠ thread)

/-- `UPDATE … WHERE key AND guard`: none while it waits, else whether a row matched. -/
def updateWhere [DecidableEq Key] (thread : Thread) (key : Key) (guard : Row key → Bool)
    (change : Row key → Row key) : Option (Store Thread Key Row × Bool) :=
  match store.view thread key with
  | none => some (store, false)
  | some row =>
      if guard row then
        if store.blocked thread key then none
        else some (store.write thread key (change row), true)
      else some (store, false)

/-- The transaction's own uncommitted version. -/
def own (thread : Thread) (key : Key) : Option (Row key) :=
  match store.pending key with
  | some (writer, row) => if writer = thread then some row else none
  | none => none

/-- `INSERT` under a unique key: none while it waits for another transaction that inserts the
key, else whether the key was free. -/
def insertRow [DecidableEq Key] (thread : Thread) (key : Key) (row : Row key) :
    Option (Store Thread Key Row × Bool) :=
  if store.writtenByOther thread key then none
  else
    match store.view thread key with
    | some _ => some (store, false)
    | none => some (store.write thread key row, true)

/-- `SELECT … FOR SHARE`: none while it waits for a writer. -/
def lockShared [DecidableEq Key] (thread : Thread) (key : Key) :
    Option (Store Thread Key Row × Option (Row key)) :=
  if store.writtenByOther thread key then none
  else
    some
      ({ store with sharers := Function.update store.sharers key (thread :: store.sharers key) },
        store.view thread key)

/-- Drops what the transaction holds. -/
def rollback (thread : Thread) : Store Thread Key Row :=
  { store with
    pending := fun key =>
      match store.pending key with
      | some (writer, row) => if writer = thread then none else some (writer, row)
      | none => none
    sharers := fun key => (store.sharers key).filter fun other => decide (other ≠ thread) }

def commit (thread : Thread) : Store Thread Key Row :=
  { store.rollback thread with committed := store.view thread }

end Statements

variable {store}

section Writing

variable [DecidableEq Key]

@[simp]
theorem write_committed (thread : Thread) (key : Key) (row : Row key) :
    (store.write thread key row).committed = store.committed := rfl

@[simp]
theorem write_sharers (thread : Thread) (key : Key) (row : Row key) :
    (store.write thread key row).sharers = store.sharers := rfl

@[simp]
theorem write_pending_self (thread : Thread) (key : Key) (row : Row key) :
    (store.write thread key row).pending key = some (thread, row) :=
  Function.update_self ..

theorem write_pending_of_ne {thread : Thread} {key other : Key} {row : Row key}
    (different : other ≠ key) :
    (store.write thread key row).pending other = store.pending other :=
  Function.update_of_ne different ..

end Writing

/-- A row that is written is shared by nobody but its writer. -/
def Exclusive (store : Store Thread Key Row) : Prop :=
  ∀ key writer row, store.pending key = some (writer, row) →
    ∀ other ∈ store.sharers key, other = writer

section Reading

variable [DecidableEq Thread]

theorem view_own {thread : Thread} {key : Key} {row : Row key}
    (own : store.pending key = some (thread, row)) : store.view thread key = some row := by
  rw [view, own]
  exact if_pos rfl

theorem view_committed {thread : Thread} {key : Key}
    (other : ∀ row, store.pending key ≠ some (thread, row)) :
    store.view thread key = store.committed key := by
  rw [view]
  split
  next writer row found =>
    have different : writer ≠ thread := fun same => other row (same ▸ found)
    rw [if_neg different]
  next => rfl

/-- A row is read as the transaction's own version or as committed. -/
theorem view_cases (store : Store Thread Key Row) (thread : Thread) (key : Key) :
    (∃ row, store.pending key = some (thread, row) ∧ store.view thread key = some row) ∨
      ((∀ row, store.pending key ≠ some (thread, row)) ∧
        store.view thread key = store.committed key) := by
  by_cases own : ∃ row, store.pending key = some (thread, row)
  · obtain ⟨row, found⟩ := own
    exact Or.inl ⟨row, found, view_own found⟩
  · have none' : ∀ row, store.pending key ≠ some (thread, row) :=
      fun row found => own ⟨row, found⟩
    exact Or.inr ⟨none', view_committed none'⟩

@[simp]
theorem rollback_committed (thread : Thread) :
    (store.rollback thread).committed = store.committed := rfl

@[simp]
theorem commit_committed (thread : Thread) :
    (store.commit thread).committed = store.view thread := rfl

@[simp]
theorem commit_pending (thread : Thread) :
    (store.commit thread).pending = (store.rollback thread).pending := rfl

@[simp]
theorem commit_sharers (thread : Thread) :
    (store.commit thread).sharers = (store.rollback thread).sharers := rfl

theorem rollback_pending {thread writer : Thread} {key : Key} {row : Row key} :
    (store.rollback thread).pending key = some (writer, row) ↔
      store.pending key = some (writer, row) ∧ writer ≠ thread := by
  simp only [rollback]
  split
  next holder version found =>
    rw [found]
    by_cases same : holder = thread
    · rw [if_pos same]
      constructor
      · intro impossible
        cases impossible
      · rintro ⟨equal, different⟩
        cases equal
        exact absurd same different
    · rw [if_neg same]
      constructor
      · intro equal
        cases equal
        exact ⟨rfl, same⟩
      · exact And.left
  next found =>
    rw [found]
    constructor
    · intro impossible
      cases impossible
    · rintro ⟨impossible, _⟩
      cases impossible

theorem rollback_pending_none {thread : Thread} {key : Key}
    (free : store.pending key = none) : (store.rollback thread).pending key = none := by
  simp only [rollback, free]

theorem mem_rollback_sharers {thread other : Thread} {key : Key} :
    other ∈ (store.rollback thread).sharers key ↔ other ∈ store.sharers key ∧ other ≠ thread := by
  rw [rollback, List.mem_filter, decide_eq_true_iff]

theorem not_blocked {thread : Thread} {key : Key} (free : store.blocked thread key = false) :
    (∀ writer row, store.pending key = some (writer, row) → writer = thread) ∧
      ∀ other ∈ store.sharers key, other = thread := by
  rw [blocked, Bool.or_eq_false_iff] at free
  obtain ⟨unwritten, unshared⟩ := free
  constructor
  · intro writer row found
    rw [writtenByOther, found] at unwritten
    exact not_not.mp (of_decide_eq_false unwritten)
  · intro other member
    have same := List.any_eq_false.mp unshared other member
    exact not_not.mp fun different => same (decide_eq_true different)

theorem Exclusive.rollback (exclusive : store.Exclusive) (thread : Thread) :
    (store.rollback thread).Exclusive := by
  intro key writer row found sharer member
  exact exclusive key writer row (rollback_pending.mp found).1 sharer
    (mem_rollback_sharers.mp member).1

theorem Exclusive.commit (exclusive : store.Exclusive) (thread : Thread) :
    (store.commit thread).Exclusive :=
  exclusive.rollback thread

variable [DecidableEq Key]

omit [DecidableEq Key] in
theorem blocked_free {thread : Thread} {key : Key} (unwritten : store.pending key = none)
    (unshared : store.sharers key = []) : store.blocked thread key = false := by
  rw [blocked, writtenByOther, unwritten, unshared]
  rfl

/-- The two outcomes of a guarded UPDATE that does not wait. -/
theorem updateWhere_cases {thread : Thread} {key : Key} {guard : Row key → Bool}
    {change : Row key → Row key} {moved : Store Thread Key Row × Bool}
    (updated : store.updateWhere thread key guard change = some moved) :
    (moved = (store, false) ∧ ∀ row, store.view thread key = some row → guard row = false) ∨
      ∃ row, store.view thread key = some row ∧ guard row = true ∧
        store.blocked thread key = false ∧
        moved = (store.write thread key (change row), true) := by
  rw [updateWhere] at updated
  split at updated
  next absent =>
    cases updated
    exact Or.inl ⟨rfl, fun row seen => by rw [absent] at seen; cases seen⟩
  next row present =>
    by_cases matched : guard row = true
    · rw [if_pos matched] at updated
      by_cases waits : store.blocked thread key = true
      · rw [if_pos waits] at updated
        cases updated
      · rw [if_neg waits, Option.some.injEq] at updated
        exact Or.inr ⟨row, present, matched, Bool.eq_false_iff.mpr waits, updated.symm⟩
    · rw [if_neg matched, Option.some.injEq] at updated
      refine Or.inl ⟨updated.symm, fun other seen => ?_⟩
      rw [present, Option.some.injEq] at seen
      exact seen ▸ Bool.eq_false_iff.mpr matched

theorem Exclusive.write (exclusive : store.Exclusive) {thread : Thread} {key : Key}
    (row : Row key) (free : store.blocked thread key = false) :
    (store.write thread key row).Exclusive := by
  intro other writer version found sharer member
  by_cases same : other = key
  · subst same
    rw [write_pending_self] at found
    cases found
    exact (not_blocked free).2 sharer member
  · rw [write_pending_of_ne same] at found
    exact exclusive other writer version found sharer member

theorem view_write_of_ne {thread other : Thread} {key changed : Key} {row : Row changed}
    (different : key ≠ changed) :
    (store.write thread changed row).view other key = store.view other key := by
  rw [view, view, write_pending_of_ne different, write_committed]

theorem view_write_self {thread : Thread} {key : Key} {row : Row key} :
    (store.write thread key row).view thread key = some row :=
  view_own (write_pending_self thread key row)

omit [DecidableEq Thread] in
/-- A write that did not wait touches nobody else's versions. -/
theorem pending_write_other {thread other : Thread} {key changed : Key} {row : Row changed}
    {version : Row key} (different : other ≠ thread)
    (own : ∀ writer version, store.pending changed = some (writer, version) → writer = thread) :
    (store.write thread changed row).pending key = some (other, version) ↔
      store.pending key = some (other, version) := by
  by_cases same : key = changed
  · subst same
    rw [write_pending_self]
    constructor
    · intro equal
      cases equal
      exact absurd rfl different
    · intro found
      exact absurd (own other version found) different
  · rw [write_pending_of_ne same]

/-- A write that did not wait is not seen by anybody else. -/
theorem view_write_other {thread other : Thread} {key changed : Key} {row : Row changed}
    (different : other ≠ thread)
    (own : ∀ writer version, store.pending changed = some (writer, version) → writer = thread) :
    (store.write thread changed row).view other key = store.view other key := by
  rcases store.view_cases other key with ⟨version, found, seen⟩ | ⟨unwritten, seen⟩
  · rw [seen]
    exact view_own ((pending_write_other different own).mpr found)
  · rw [seen]
    exact view_committed fun version found =>
      unwritten version ((pending_write_other different own).mp found)

omit [DecidableEq Key] in
/-- After a commit: the reader's own version, else what the committer saw. -/
theorem view_commit_other (store : Store Thread Key Row) (key : Key) {thread other : Thread}
    (different : other ≠ thread) :
    (∃ row, store.pending key = some (other, row) ∧ store.view other key = some row ∧
        (store.commit thread).view other key = some row) ∨
      ((∀ row, store.pending key ≠ some (other, row)) ∧
        (store.commit thread).view other key = store.view thread key) := by
  rcases store.view_cases other key with ⟨row, own, seen⟩ | ⟨other', _⟩
  · exact Or.inl ⟨row, own, seen, view_own (rollback_pending.mpr ⟨own, different⟩)⟩
  · refine Or.inr ⟨other', ?_⟩
    exact view_committed fun row found => other' row (rollback_pending.mp found).1

omit [DecidableEq Key] in
/-- What is committed is seen, perhaps in a newer version. -/
theorem view_of_committed (thread : Thread) {key : Key} {row : Row key}
    (found : store.committed key = some row) : ∃ version, store.view thread key = some version := by
  rcases store.view_cases thread key with ⟨version, _, seen⟩ | ⟨_, seen⟩
  · exact ⟨version, seen⟩
  · exact ⟨row, seen.trans found⟩

/-- What a share lock that does not wait changes and reads. -/
theorem lockShared_some {thread : Thread} {key : Key}
    {moved : Store Thread Key Row × Option (Row key)}
    (locked : store.lockShared thread key = some moved) :
    (∀ writer row, store.pending key = some (writer, row) → writer = thread) ∧
      moved.1.committed = store.committed ∧ moved.1.pending = store.pending ∧
      (∀ other thread', thread' ∈ moved.1.sharers other ↔
        thread' ∈ store.sharers other ∨ (other = key ∧ thread' = thread)) ∧
      moved.2 = store.view thread key := by
  rw [lockShared] at locked
  split at locked
  next => cases locked
  next unwritten =>
    cases locked
    refine ⟨fun writer row found => ?_, rfl, rfl, fun other thread' => ?_, rfl⟩
    · rw [writtenByOther, found] at unwritten
      exact not_not.mp fun different => unwritten (decide_eq_true different)
    · by_cases same : other = key
      · subst same
        simp only [Function.update_self, List.mem_cons]
        constructor
        · rintro (equal | member)
          · exact Or.inr ⟨trivial, equal⟩
          · exact Or.inl member
        · rintro (member | ⟨_, equal⟩)
          · exact Or.inr member
          · exact Or.inl equal
      · simp only [Function.update_of_ne same]
        constructor
        · exact Or.inl
        · rintro (member | ⟨equal, _⟩)
          · exact member
          · exact absurd equal same

theorem Exclusive.lockShared (exclusive : store.Exclusive) {thread : Thread} {key : Key}
    {moved : Store Thread Key Row × Option (Row key)}
    (locked : store.lockShared thread key = some moved) : moved.1.Exclusive := by
  obtain ⟨unwritten, _, pending, sharers, _⟩ := lockShared_some locked
  intro other writer row found sharer member
  rw [pending] at found
  rcases (sharers other sharer).mp member with before | ⟨same, equal⟩
  · exact exclusive other writer row found sharer before
  · subst same
    rw [equal, unwritten writer row found]

omit [DecidableEq Key] in
theorem own_eq_some {thread : Thread} {key : Key} {row : Row key} :
    store.own thread key = some row ↔ store.pending key = some (thread, row) := by
  rw [own]
  split
  next writer version found =>
    rw [found]
    by_cases same : writer = thread
    · rw [if_pos same, same, Option.some.injEq, Option.some.injEq, Prod.mk.injEq]
      exact ⟨fun equal => ⟨rfl, equal⟩, And.right⟩
    · rw [if_neg same, Option.some.injEq, Prod.mk.injEq]
      exact ⟨fun impossible => (nomatch impossible), fun equal => absurd equal.1 same⟩
  next found =>
    rw [found]
    exact ⟨fun impossible => (nomatch impossible), fun impossible => (nomatch impossible)⟩

omit [DecidableEq Key] in
theorem view_eq (store : Store Thread Key Row) (thread : Thread) (key : Key) :
    store.view thread key = (store.own thread key).or (store.committed key) := by
  rcases store.view_cases thread key with ⟨row, found, seen⟩ | ⟨unwritten, seen⟩
  · rw [seen, own_eq_some.mpr found, Option.some_or]
  · have none' : store.own thread key = none := by
      cases found : store.own thread key with
      | none => rfl
      | some row => exact absurd (own_eq_some.mp found) (unwritten row)
    rw [seen, none', Option.none_or]

theorem own_write (store : Store Thread Key Row) (thread : Thread) (key : Key) (row : Row key) :
    (store.write thread key row).own thread =
      Function.update (store.own thread) key (some row) := by
  funext other
  by_cases same : other = key
  · subst same
    rw [Function.update_self]
    exact own_eq_some.mpr (write_pending_self thread other row)
  · rw [Function.update_of_ne same, own, own, write_pending_of_ne same]

/-- A write that did not wait leaves the versions of others. -/
theorem own_write_other {thread other : Thread} (different : other ≠ thread) {key : Key}
    (row : Row key) (free : store.writtenByOther thread key = false) :
    (store.write thread key row).own other = store.own other := by
  have mine : ∀ writer version, store.pending key = some (writer, version) → writer = thread := by
    intro writer version found
    rw [writtenByOther, found] at free
    exact not_not.mp (of_decide_eq_false free)
  funext place
  apply Option.ext
  intro version
  rw [own_eq_some, own_eq_some]
  exact pending_write_other different mine

omit [DecidableEq Key] in
theorem own_rollback (store : Store Thread Key Row) (thread : Thread) (key : Key) :
    (store.rollback thread).own thread key = none := by
  cases found : (store.rollback thread).own thread key with
  | none => rfl
  | some row => exact absurd rfl (rollback_pending.mp (own_eq_some.mp found)).2

omit [DecidableEq Key] in
theorem own_rollback_other {thread other : Thread} (different : other ≠ thread) :
    (store.rollback thread).own other = store.own other := by
  funext key
  apply Option.ext
  intro row
  rw [own_eq_some, own_eq_some, rollback_pending]
  exact ⟨And.left, fun found => ⟨found, different⟩⟩

omit [DecidableEq Key] in
/-- Nobody else commits a row the transaction has written. -/
theorem committed_of_own {thread other : Thread} (different : other ≠ thread) {key : Key}
    (written : store.own other key ≠ none) :
    (store.commit thread).committed key = store.committed key := by
  obtain ⟨row, found⟩ := Option.ne_none_iff_exists'.mp written
  rw [commit_committed]
  apply view_committed
  intro version mine
  rw [own_eq_some.mp found] at mine
  exact different (Prod.mk.inj (Option.some.inj mine)).1

theorem insertRow_cases {thread : Thread} {key : Key} {row : Row key}
    {moved : Store Thread Key Row × Bool}
    (inserts : store.insertRow thread key row = some moved) :
    (moved = (store, false)) ∨
      (store.view thread key = none ∧ store.writtenByOther thread key = false ∧
        moved = (store.write thread key row, true)) := by
  rw [insertRow] at inserts
  by_cases waits : store.writtenByOther thread key = true
  · rw [if_pos waits] at inserts
    cases inserts
  · rw [if_neg waits] at inserts
    split at inserts
    next => exact Or.inl (Option.some.inj inserts).symm
    next absent =>
      exact Or.inr ⟨absent, Bool.eq_false_iff.mpr waits, (Option.some.inj inserts).symm⟩

end Reading
end Store
end ReadCommitted
