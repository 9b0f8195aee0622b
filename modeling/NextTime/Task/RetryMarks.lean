import NextTime.Task.TaskSystem

/-
What a thread may do, and what it knows, on the way to a new WorkerRun. A run is
inserted only by a thread that holds the right to: the one that inserted the
Task, or one that has claimed the retry. A run a transaction ended is committed
only with its Handle revoked.
-/

namespace NextTime.Task

open NextTime.Goal (TaskFailureReason)
open NextTime.Shared
open Interleaving
open Interleaving.Program (call each)

/-- The right to insert a WorkerRun, and how far it has been used. -/
inductive Right
  | none
  | first
  | firstInserted (run : Nat)
  | claims (run : Nat)
  | retry
  | retryInserted (run : Nat)
deriving DecidableEq, Repr

namespace Right

/-- Nothing of it is in an open transaction. -/
def held : Right → Bool
  | .none | .first | .retry => true
  | .firstInserted _ | .claims _ | .retryInserted _ => false

def commit : Right → Right
  | .claims _ => .retry
  | .firstInserted _ | .retryInserted _ => .none
  | right => right

def abandon : Right → Right
  | .claims _ | .firstInserted _ | .retryInserted _ => .none
  | right => right

/-- The right, used up for the new run. -/
def insert (right : Right) (run : Nat) : Right :=
  match right with
  | .first => .firstInserted run
  | _ => .retryInserted run

theorem held_commit {right : Right} (held : right.held = true) : right.commit = right := by
  cases right <;> first | rfl | cases held

theorem held_abandon {right : Right} (held : right.held = true) : right.abandon = right := by
  cases right <;> first | rfl | cases held

theorem abandon_held (right : Right) : right.abandon.held = true := by
  cases right <;> rfl

end Right

/-- The open transaction: has it written the Task, or locked it for share? -/
inductive Stage
  | closed
  | opened
  | wrote
  | sharing
deriving DecidableEq, Repr

structure Mark where
  right : Right
  stage : Stage
  /-- A run this transaction ended. -/
  ended : Option Nat
  /-- The runs it ended whose Handles it has yet to revoke. -/
  unrevoked : List Nat
deriving DecidableEq, Repr

namespace Mark

def resting (right : Right) : Mark := ⟨right, .closed, .none, []⟩

def opening (right : Right) : Mark := ⟨right, .opened, .none, []⟩

def mayWrite (mark : Mark) : Prop :=
  mark.stage = .opened ∨ mark.stage = .wrote

def rests (mark : Mark) : Prop :=
  ∃ right : Right, right.held = true ∧ mark = resting right

def permits (mark : Mark) : Call → Prop
  | .begins _ => mark.stage = .closed
  | .commits => mark.stage ≠ .closed ∧ mark.unrevoked = []
  | .readTaskForShare => mark.stage = .opened
  | .updateTask expected _ => mark.mayWrite ∧ expected.ended = false
  | .addRetry expected =>
      mark.mayWrite ∧ expected = 0 ∧ mark.ended.isSome = true ∧ mark.right.held = true
  | .addTokens _ => mark.mayWrite
  | .updateRun _ expected _ => mark.mayWrite ∧ expected ≠ .terminated
  | .insertRun attempt =>
      mark.stage = .sharing ∧ (mark.right = .first ∧ attempt = 1 ∨ mark.right = .retry)
  | .revokeSession _ => mark.stage ≠ .closed
  | _ => True

/-- The mark after a call that answered. -/
def answered (mark : Mark) : (op : Call) → op.Answer → Mark
  | .begins _, _ => { mark with stage := .opened }
  | .commits, _ => resting mark.right.commit
  | .rollsBack, _ => resting mark.right.abandon
  | .readTaskForShare, status =>
      if status.any (!·.ended) then { mark with stage := .sharing } else mark
  | .updateTask _ _, matched => if matched then { mark with stage := .wrote } else mark
  | .addTokens _, _ => { mark with stage := .wrote }
  | .addRetry _, matched =>
      match matched, mark.ended with
      | true, some run => { mark with stage := .wrote, right := .claims run }
      | _, _ => mark
  | .updateRun run _ status, matched =>
      if matched ∧ status = .terminated then
        { mark with ended := some run, unrevoked := run :: mark.unrevoked }
      else mark
  | .insertRun _, run => { mark with right := mark.right.insert run }
  | .revokeSession run, _ =>
      { mark with unrevoked := mark.unrevoked.filter (decide <| · ≠ run) }
  | _, _ => mark

def after (mark : Mark) (op : Call) : Except Thrown op.Answer → Mark
  | .ok answer => mark.answered op answer
  | .error _ =>
      match op with
      | .commits | .rollsBack => resting mark.right.abandon
      | _ => mark

end Mark

def retryDiscipline : Discipline Mark Call Call.Answer Thrown where
  permits := Mark.permits
  after := Mark.after

/-! ### One transaction -/

/-- How a transaction that inserts no run and claims no retry may end. -/
def Quietly {Result : Type} (right : Right) (last : Mark) (outcome : Except Thrown Result) :
    Prop :=
  last.right = right ∧ (outcome.isOk = true → last.mayWrite ∧ last.unrevoked = [])

theorem Mark.mayWrite.open {mark : Mark} (writes : mark.mayWrite) : mark.stage ≠ .closed := by
  intro closed
  rcases writes with opened | wrote
  · rw [closed] at opened
    cases opened
  · rw [closed] at wrote
    cases wrote

theorem keeps_withWorkspace {Result : Type} {right : Right} {purpose : Purpose}
    {body : Script Result} {middle ending : Mark → Except Thrown Result → Prop}
    (inside : Keeps retryDiscipline (.opening right) body middle)
    (commits : ∀ last result, middle last (.ok result) →
      last.stage ≠ .closed ∧ last.unrevoked = [] ∧
        ending (.resting last.right.commit) (.ok result))
    (rollsBack : ∀ last outcome thrown, middle last outcome →
      ending (.resting last.right.abandon) (.error thrown))
    (refused : ∀ thrown, ending (.resting right.abandon) (.error thrown)) :
    Keeps retryDiscipline (.resting right) (withWorkspace purpose body) ending := by
  have abandonTwice : ∀ held : Right, held.abandon.abandon = held.abandon := by
    intro held
    cases held <;> rfl
  have attempted : Keeps retryDiscipline (.resting right)
      (do
        query (.begins purpose)
        let result ← body
        query .commits
        return result)
      fun last outcome =>
        match outcome with
        | .ok result => ending last (.ok result)
        | .error _ => ∀ thrown, ending (.resting last.right.abandon) (.error thrown) := by
    refine keeps_call_bind rfl (fun _ => ?_) (fun _ thrown => refused thrown)
    refine keeps_bind inside (fun last result held => ?_)
      (fun last _ held thrown => rollsBack last _ thrown held)
    obtain ⟨opened, revoked, ends⟩ := commits last result held
    refine keeps_call_bind ⟨opened, revoked⟩ (fun _ => ends) (fun _ thrown => ?_)
    have ended := rollsBack last (.ok result) thrown held
    change ending (.resting (last.right.abandon).abandon) (.error thrown)
    rw [abandonTwice]
    exact ended
  refine keeps_catch attempted (fun _ _ ends => ends) ?_
  intro last thrown ends
  exact keeps_call_bind trivial (fun _ => ends thrown) (fun other => ends other)

theorem Mark.rests_resting {right : Right} (held : right.held = true) :
    (Mark.resting right).rests :=
  ⟨right, held, rfl⟩

theorem keeps_quietly {Result : Type} {right : Right} {purpose : Purpose} {body : Script Result}
    (held : right.held = true)
    (inside : Keeps retryDiscipline (.opening right) body (Quietly right)) :
    Keeps retryDiscipline (.resting right) (withWorkspace purpose body)
      fun last _ => last = .resting right := by
  refine keeps_withWorkspace inside ?_ ?_ ?_
  · rintro last result ⟨same, fine⟩
    obtain ⟨writes, revoked⟩ := fine rfl
    refine ⟨writes.open, revoked, ?_⟩
    rw [same, Right.held_commit held]
  · rintro last outcome thrown ⟨same, _⟩
    rw [same, Right.held_abandon held]
  · intro thrown
    rw [Right.held_abandon held]

theorem keeps_bestEffort {mark : Mark} {body : Script Unit} {invariant : Mark → Prop}
    (inside : Keeps retryDiscipline mark body fun last _ => invariant last) :
    Keeps retryDiscipline mark (bestEffort body) fun last _ => invariant last :=
  keeps_catch inside (fun _ _ holds => holds) (fun _ _ holds => keeps_pure holds)

theorem supervisorTerminate_keeps (run : Nat) (mark : Mark) :
    Keeps retryDiscipline mark (query (.supervisorTerminate run)) fun last _ => last = mark :=
  keeps_call trivial fun outcome => by cases outcome <;> rfl

end NextTime.Task
