import Mathlib.Data.List.Basic

/-
A value in memory whose changes go through a mutex: each change joins a queue,
reads the value when its turn comes, and replaces it once it has been persisted.
Readers do not queue. Nothing here names a particular program.
-/

namespace Exclusive

variable {State : Type}

structure Guarded (State : Type) where
  state : State
  /-- The changes that have not settled, in the order they were asked for. -/
  queue : List Nat
  /-- What the change whose turn it is has read. -/
  running : Option State

namespace Guarded

variable (guarded : Guarded State)

/-- A value nothing is changing. -/
def settled (state : State) : Guarded State := ⟨state, [], none⟩

def join (thread : Nat) : Guarded State :=
  { guarded with queue := guarded.queue ++ [thread] }

/-- `await previous`, and the read that follows it. -/
def turn (thread : Nat) : Option (Guarded State) :=
  if guarded.queue.head? = some thread ∧ guarded.running.isNone then
    some { guarded with running := some guarded.state }
  else none

/-- The change settles: with a new value, or without one. -/
def settle (thread : Nat) (next : State → Option State) : Option (Guarded State) :=
  if guarded.queue.head? = some thread then
    guarded.running.map fun read =>
      { state := (next read).getD guarded.state, queue := guarded.queue.tail, running := none }
  else none

/-- A thread that is gone holds no place; `finally` has released the mutex. -/
def leave (thread : Nat) : Guarded State where
  state := guarded.state
  queue := guarded.queue.filter (· ≠ thread)
  running := if guarded.queue.head? = some thread then none else guarded.running

/-- What the change under way has read is still the value. -/
def Fresh : Prop :=
  ∀ read, guarded.running = some read → read = guarded.state

variable {guarded}

theorem fresh_settled (state : State) : (settled state).Fresh := by
  intro read impossible
  cases impossible

theorem Fresh.join (fresh : guarded.Fresh) (thread : Nat) : (guarded.join thread).Fresh :=
  fresh

theorem turn_some {thread : Nat} {moved : Guarded State}
    (taken : guarded.turn thread = some moved) : moved.state = guarded.state ∧ moved.Fresh := by
  rw [turn] at taken
  split at taken
  next =>
    cases taken
    refine ⟨rfl, fun read found => ?_⟩
    exact (Option.some.inj found).symm
  next => cases taken

/-- The value a change settles with is computed from the value it replaces. -/
theorem settle_some {thread : Nat} {next : State → Option State} {moved : Guarded State}
    (fresh : guarded.Fresh) (settles : guarded.settle thread next = some moved) :
    moved.state = (next guarded.state).getD guarded.state ∧ moved.Fresh := by
  rw [settle] at settles
  split at settles
  next =>
    obtain ⟨read, found, rfl⟩ := Option.map_eq_some_iff.mp settles
    rw [fresh read found]
    refine ⟨rfl, fun other impossible => ?_⟩
    cases impossible
  next => cases settles

theorem Fresh.leave (fresh : guarded.Fresh) (thread : Nat) : (guarded.leave thread).Fresh := by
  intro read found
  simp only [Guarded.leave] at found
  split at found
  next => cases found
  next => exact fresh read found

end Guarded
end Exclusive
