import Mathlib.Logic.Function.Basic
import Mathlib.Data.List.Basic

/-
Logs that transactions append to, each entry numbered above the entries of its log that its
transaction sees. A transaction takes the log's lock before it appends and holds it until it ends;
its statements see what is committed and its own entries. Nothing here names a particular table.
-/

namespace NumberedLog

structure Entry (Key Body : Type) where
  key : Key
  sequence : Nat
  body : Body
deriving DecidableEq

structure Logs (Thread Lock Key Body : Type) where
  committed : List (Entry Key Body)
  pending : Thread → List (Entry Key Body)
  holder : Lock → Option Thread

variable {Thread Lock Key Body : Type}

def ofKey [DecidableEq Key] (key : Key) (entries : List (Entry Key Body)) :
    List (Entry Key Body) :=
  entries.filter fun entry => entry.key = key

def highest (entries : List (Entry Key Body)) : Nat :=
  entries.foldr (fun entry most => max entry.sequence most) 0

namespace Logs

variable (logs : Logs Thread Lock Key Body)

def empty : Logs Thread Lock Key Body := ⟨[], fun _ => [], fun _ => none⟩

/-- What a statement of the transaction sees. -/
def view (thread : Thread) : List (Entry Key Body) := logs.committed ++ logs.pending thread

/-- `coalesce(max(sequence), 0) + 1`. -/
def nextSequence [DecidableEq Key] (thread : Thread) (key : Key) : Nat :=
  highest (ofKey key (logs.view thread)) + 1

section Statements

variable [DecidableEq Thread]

/-- None while another transaction holds the lock. -/
def acquire [DecidableEq Lock] (thread : Thread) (lock : Lock) :
    Option (Logs Thread Lock Key Body) :=
  match logs.holder lock with
  | some other => if other = thread then some logs else none
  | none => some { logs with holder := Function.update logs.holder lock (some thread) }

def append [DecidableEq Key] (thread : Thread) (key : Key) (body : Body) :
    Logs Thread Lock Key Body :=
  { logs with
    pending := Function.update logs.pending thread
      (logs.pending thread ++ [⟨key, logs.nextSequence thread key, body⟩]) }

/-- The locks of a transaction that ends. -/
def released (thread : Thread) (lock : Lock) : Option Thread :=
  if logs.holder lock = some thread then none else logs.holder lock

def rollback (thread : Thread) : Logs Thread Lock Key Body where
  committed := logs.committed
  pending := Function.update logs.pending thread []
  holder := logs.released thread

def commit (thread : Thread) : Logs Thread Lock Key Body where
  committed := logs.committed ++ logs.pending thread
  pending := Function.update logs.pending thread []
  holder := logs.released thread

end Statements

variable {logs}

/-! ### Sequences -/

theorem le_highest {entries : List (Entry Key Body)} {entry : Entry Key Body}
    (isIn : entry ∈ entries) : entry.sequence ≤ highest entries := by
  induction entries with
  | nil => cases isIn
  | cons other rest ih =>
      change entry.sequence ≤ max other.sequence (highest rest)
      rcases List.mem_cons.mp isIn with same | later
      · rw [same]
        exact Nat.le_max_left _ _
      · exact Nat.le_trans (ih later) (Nat.le_max_right _ _)

theorem lt_nextSequence [DecidableEq Key] {thread : Thread} {key : Key} {entry : Entry Key Body}
    (isIn : entry ∈ ofKey key (logs.view thread)) :
    entry.sequence < logs.nextSequence thread key :=
  Nat.lt_succ_of_le (le_highest isIn)

theorem ofKey_append [DecidableEq Key] (key : Key) (left right : List (Entry Key Body)) :
    ofKey key (left ++ right) = ofKey key left ++ ofKey key right :=
  List.filter_append left right

theorem ofKey_eq_nil [DecidableEq Key] {key : Key} {entries : List (Entry Key Body)}
    (none : ∀ entry ∈ entries, entry.key ≠ key) : ofKey key entries = [] :=
  List.filter_eq_nil_iff.mpr fun entry isIn same => none entry isIn (of_decide_eq_true same)

/-! ### Entries and their locks -/

/-- Whoever has an entry pending holds the lock of its log. -/
def Guarded (lockOf : Key → Lock) (logs : Logs Thread Lock Key Body) : Prop :=
  ∀ thread, ∀ entry ∈ logs.pending thread, logs.holder (lockOf entry.key) = some thread

/-- Of any two entries of one log that a transaction sees, the earlier is so related to the
later. -/
def Ordered [DecidableEq Key] (related : Entry Key Body → Entry Key Body → Prop)
    (logs : Logs Thread Lock Key Body) : Prop :=
  ∀ thread key, (ofKey key (logs.view thread)).Pairwise related

/-- Every entry that is committed or pending is so. -/
def Every (holds : Entry Key Body → Prop) (logs : Logs Thread Lock Key Body) : Prop :=
  ∀ thread, ∀ entry ∈ logs.view thread, holds entry

variable {lockOf : Key → Lock} {related : Entry Key Body → Entry Key Body → Prop}
  {holds : Entry Key Body → Prop}

theorem every_empty : Every holds (empty : Logs Thread Lock Key Body) :=
  fun _ _ isIn => nomatch isIn

theorem guarded_empty : Guarded lockOf (empty : Logs Thread Lock Key Body) :=
  fun _ _ isIn => nomatch isIn

theorem ordered_empty [DecidableEq Key] :
    Ordered related (empty : Logs Thread Lock Key Body) :=
  fun _ _ => List.Pairwise.nil

theorem Ordered.committed [DecidableEq Key] (ordered : Ordered related logs) (thread : Thread)
    (key : Key) : (ofKey key logs.committed).Pairwise related :=
  (ordered thread key).sublist (List.Sublist.filter _ (List.sublist_append_left _ _))

section Ending

variable [DecidableEq Thread]

theorem view_update_self {pending : List (Entry Key Body)} (thread : Thread) :
    ({ logs with pending := Function.update logs.pending thread pending }).view thread =
      logs.committed ++ pending := by
  simp only [view, Function.update_self]

theorem view_update_of_ne {pending : List (Entry Key Body)} {thread other : Thread}
    (different : other ≠ thread) :
    ({ logs with pending := Function.update logs.pending thread pending }).view other =
      logs.view other := by
  simp only [view, Function.update_of_ne different]

theorem released_of_ne {thread other : Thread} {lock : Lock} (different : other ≠ thread)
    (holds : logs.holder lock = some other) : logs.released thread lock = some other := by
  rw [released, holds]
  exact if_neg fun same => different (Option.some.inj same)

/-- Others keep what they have pending, and its locks. -/
theorem guarded_ended (guarded : Guarded lockOf logs) (thread : Thread)
    (committed : List (Entry Key Body)) :
    Guarded lockOf
      (⟨committed, Function.update logs.pending thread [], logs.released thread⟩ :
        Logs Thread Lock Key Body) := by
  intro other entry isIn
  by_cases same : other = thread
  · subst same
    simp only [Function.update_self] at isIn
    cases isIn
  · simp only [Function.update_of_ne same] at isIn
    exact released_of_ne same (guarded other entry isIn)

theorem Guarded.commit (guarded : Guarded lockOf logs) (thread : Thread) :
    Guarded lockOf (logs.commit thread) :=
  guarded_ended guarded thread _

theorem Guarded.rollback (guarded : Guarded lockOf logs) (thread : Thread) :
    Guarded lockOf (logs.rollback thread) :=
  guarded_ended guarded thread _

theorem Ordered.rollback [DecidableEq Key] (ordered : Ordered related logs) (thread : Thread) :
    Ordered related (logs.rollback thread) := by
  intro other key
  by_cases same : other = thread
  · subst same
    simp only [view, Logs.rollback, Function.update_self, List.append_nil]
    exact ordered.committed other key
  · simp only [view, Logs.rollback, Function.update_of_ne same]
    exact ordered other key

/-- What somebody sees when a transaction ends, somebody saw before. -/
theorem view_ended {thread other : Thread} {entry : Entry Key Body} {next : Logs Thread Lock Key Body}
    (ends : next = logs.commit thread ∨ next = logs.rollback thread)
    (isIn : entry ∈ next.view other) : ∃ seer, entry ∈ logs.view seer := by
  have pending : next.pending = Function.update logs.pending thread [] := by
    rcases ends with commits | rolls
    · rw [commits]
      rfl
    · rw [rolls]
      rfl
  rcases List.mem_append.mp isIn with isCommitted | isPending
  · rcases ends with commits | rolls
    · rw [commits] at isCommitted
      exact ⟨thread, isCommitted⟩
    · rw [rolls] at isCommitted
      exact ⟨thread, List.mem_append_left _ isCommitted⟩
  · rw [pending] at isPending
    by_cases same : other = thread
    · rw [same, Function.update_self] at isPending
      cases isPending
    · rw [Function.update_of_ne same] at isPending
      exact ⟨other, List.mem_append_right _ isPending⟩

theorem Every.ended (every : Every holds logs) {thread : Thread} {next : Logs Thread Lock Key Body}
    (ends : next = logs.commit thread ∨ next = logs.rollback thread) : Every holds next := by
  intro other entry isIn
  obtain ⟨seer, seen⟩ := view_ended ends isIn
  exact every seer entry seen

/-- Two transactions have nothing pending in one log. -/
theorem Guarded.apart [DecidableEq Key] (guarded : Guarded lockOf logs) {thread other : Thread}
    (different : other ≠ thread) (key : Key) :
    ofKey key (logs.pending thread) = [] ∨ ofKey key (logs.pending other) = [] := by
  by_cases holds : logs.holder (lockOf key) = some thread
  · right
    apply ofKey_eq_nil
    intro entry isIn same
    have held := guarded other entry isIn
    rw [same, holds] at held
    exact different (Option.some.inj held).symm
  · left
    apply ofKey_eq_nil
    intro entry isIn same
    exact holds (same ▸ guarded thread entry isIn)

theorem Ordered.commit [DecidableEq Key] (guarded : Guarded lockOf logs)
    (ordered : Ordered related logs) (thread : Thread) : Ordered related (logs.commit thread) := by
  intro other key
  by_cases same : other = thread
  · subst same
    simp only [view, Logs.commit, Function.update_self, List.append_nil]
    exact ordered other key
  · simp only [view, Logs.commit, Function.update_of_ne same, ofKey_append]
    rcases guarded.apart same key with none | none
    · rw [none, List.append_nil, ← ofKey_append]
      exact ordered other key
    · rw [none, List.append_nil, ← ofKey_append]
      exact ordered thread key

/-! ### Locks and entries -/

theorem acquire_cases [DecidableEq Lock] {thread : Thread} {lock : Lock}
    {next : Logs Thread Lock Key Body} (acquires : logs.acquire thread lock = some next) :
    next.committed = logs.committed ∧ next.pending = logs.pending ∧
      next.holder lock = some thread ∧
      ∀ other holder, logs.holder other = some holder → next.holder other = some holder := by
  unfold acquire at acquires
  split at acquires
  next holder held =>
    split at acquires
    next same =>
      cases acquires
      exact ⟨rfl, rfl, same ▸ held, fun _ _ holds => holds⟩
    next => cases acquires
  next free =>
    cases acquires
    refine ⟨rfl, rfl, Function.update_self .., ?_⟩
    intro other holder holds
    have different : other ≠ lock := by
      intro same
      rw [same, free] at holds
      cases holds
    exact (Function.update_of_ne different ..).trans holds

theorem Guarded.acquire [DecidableEq Lock] (guarded : Guarded lockOf logs) {thread : Thread}
    {lock : Lock} {next : Logs Thread Lock Key Body}
    (acquires : logs.acquire thread lock = some next) : Guarded lockOf next := by
  obtain ⟨_, pending, _, keeps⟩ := acquire_cases acquires
  intro other entry isIn
  rw [pending] at isIn
  exact keeps _ _ (guarded other entry isIn)

theorem Ordered.acquire [DecidableEq Lock] [DecidableEq Key] (ordered : Ordered related logs)
    {thread : Thread} {lock : Lock} {next : Logs Thread Lock Key Body}
    (acquires : logs.acquire thread lock = some next) : Ordered related next := by
  obtain ⟨committed, pending, _, _⟩ := acquire_cases acquires
  intro other key
  rw [view, committed, pending]
  exact ordered other key

theorem Every.acquire [DecidableEq Lock] (every : Every holds logs) {thread : Thread} {lock : Lock}
    {next : Logs Thread Lock Key Body} (acquires : logs.acquire thread lock = some next) :
    Every holds next := by
  obtain ⟨committed, pending, _, _⟩ := acquire_cases acquires
  intro other entry isIn
  rw [view, committed, pending] at isIn
  exact every other entry isIn

theorem view_append [DecidableEq Key] (thread : Thread) (key : Key) (body : Body) :
    (logs.append thread key body).view thread =
      logs.view thread ++ [⟨key, logs.nextSequence thread key, body⟩] := by
  rw [append, view_update_self, view, List.append_assoc]

theorem view_append_of_ne [DecidableEq Key] {thread other : Thread} (different : other ≠ thread)
    (key : Key) (body : Body) : (logs.append thread key body).view other = logs.view other :=
  view_update_of_ne different

theorem Guarded.append [DecidableEq Key] (guarded : Guarded lockOf logs) {thread : Thread}
    {key : Key} (holds : logs.holder (lockOf key) = some thread) (body : Body) :
    Guarded lockOf (logs.append thread key body) := by
  intro other entry isIn
  by_cases same : other = thread
  · subst same
    simp only [Logs.append, Function.update_self] at isIn
    rcases List.mem_append.mp isIn with before | new
    · exact guarded other entry before
    · rw [List.mem_singleton.mp new]
      exact holds
  · simp only [Logs.append, Function.update_of_ne same] at isIn
    exact guarded other entry isIn

theorem Every.append [DecidableEq Key] (every : Every holds logs) {thread : Thread} {key : Key}
    {body : Body} (admits : holds ⟨key, logs.nextSequence thread key, body⟩) :
    Every holds (logs.append thread key body) := by
  intro other entry isIn
  by_cases same : other = thread
  · subst same
    rw [view_append] at isIn
    rcases List.mem_append.mp isIn with before | new
    · exact every other entry before
    · rw [List.mem_singleton.mp new]
      exact admits
  · rw [view_append_of_ne same] at isIn
    exact every other entry isIn

/-- An entry is appended after checking it against all of its log that the transaction sees. -/
theorem Ordered.append [DecidableEq Key] (ordered : Ordered related logs) {thread : Thread}
    {key : Key} {body : Body}
    (admits : ∀ entry ∈ ofKey key (logs.view thread),
      related entry ⟨key, logs.nextSequence thread key, body⟩) :
    Ordered related (logs.append thread key body) := by
  intro other place
  by_cases same : other = thread
  · subst same
    rw [view_append, ofKey_append, List.pairwise_append]
    refine ⟨ordered other place, List.pairwise_singleton _ _ |>.sublist List.filter_sublist, ?_⟩
    intro entry isIn new isNew
    have isAppended := List.mem_filter.mp isNew
    have isKey := of_decide_eq_true isAppended.2
    rw [List.mem_singleton.mp isAppended.1] at isKey ⊢
    change key = place at isKey
    subst isKey
    exact admits entry isIn
  · rw [view_append_of_ne same]
    exact ordered other place

end Ending
end Logs
end NumberedLog
