import NextTime.Library.LabelledRun
import Mathlib.Logic.Function.Basic

/-
Sequential programs that run side by side over one shared state. A program is a
tree of calls: each call may answer or throw, and the rest of the program is a
function of that outcome. Verification is by marks: a mark is what a program
knows at a point, a discipline says which calls a mark permits and what the
outcome of a call teaches, and one invariant ties the marks of all programs to
the shared state. Nothing here names a particular program.
-/

namespace Interleaving

inductive Program (Op : Type) (Answer : Op → Type) (Thrown Result : Type) where
  | ends (outcome : Except Thrown Result)
  | calls (op : Op) (rest : Except Thrown (Answer op) → Program Op Answer Thrown Result)

variable {Op : Type} {Answer : Op → Type} {Thrown Result Next : Type}

namespace Program

/-- One call and its outcome. -/
def call (op : Op) : Program Op Answer Thrown (Answer op) :=
  .calls op .ends

def andThen (program : Program Op Answer Thrown Result)
    (next : Result → Program Op Answer Thrown Next) : Program Op Answer Thrown Next :=
  match program with
  | .ends (.ok result) => next result
  | .ends (.error thrown) => .ends (.error thrown)
  | .calls op rest => .calls op fun outcome => (rest outcome).andThen next

/-- `try … catch`. -/
def orElse (program : Program Op Answer Thrown Result)
    (handler : Thrown → Program Op Answer Thrown Result) : Program Op Answer Thrown Result :=
  match program with
  | .ends (.ok result) => .ends (.ok result)
  | .ends (.error thrown) => handler thrown
  | .calls op rest => .calls op fun outcome => (rest outcome).orElse handler

instance : Monad (Program Op Answer Thrown) where
  pure result := .ends (.ok result)
  bind := andThen

instance : MonadExceptOf Thrown (Program Op Answer Thrown) where
  throw thrown := .ends (.error thrown)
  tryCatch := orElse

/-- A `for` loop without an accumulator. -/
def each {Item : Type} (body : Item → Program Op Answer Thrown Unit) :
    List Item → Program Op Answer Thrown Unit
  | [] => pure ()
  | item :: items => do
      body item
      each body items

/-- A `for` loop that pushes what each round returns. -/
def collect {Item : Type} (body : Item → Program Op Answer Thrown Result) :
    List Item → Program Op Answer Thrown (List Result)
  | [] => pure []
  | item :: items => do
      let first ← body item
      let rest ← collect body items
      pure (first :: rest)

end Program

/-- What a mark permits and what the outcome of a call adds to it. -/
structure Discipline (Mark : Type) (Op : Type) (Answer : Op → Type) (Thrown : Type) where
  permits : Mark → Op → Prop
  after : Mark → (op : Op) → Except Thrown (Answer op) → Mark

variable {Mark : Type} (discipline : Discipline Mark Op Answer Thrown)

/-- From the mark, the program makes only permitted calls and ends as asked. -/
def Keeps (mark : Mark) (program : Program Op Answer Thrown Result)
    (ending : Mark → Except Thrown Result → Prop) : Prop :=
  match program with
  | .ends outcome => ending mark outcome
  | .calls op rest =>
      discipline.permits mark op ∧
        ∀ outcome, Keeps (discipline.after mark op outcome) (rest outcome) ending

variable {discipline}

theorem keeps_mono {mark : Mark} {program : Program Op Answer Thrown Result}
    {stronger weaker : Mark → Except Thrown Result → Prop}
    (kept : Keeps discipline mark program stronger)
    (weakens : ∀ last outcome, stronger last outcome → weaker last outcome) :
    Keeps discipline mark program weaker := by
  induction program generalizing mark with
  | ends outcome => exact weakens mark outcome kept
  | calls op rest ih =>
      obtain ⟨permitted, later⟩ := kept
      exact ⟨permitted, fun outcome => ih outcome (later outcome)⟩

theorem keeps_pure {mark : Mark} {result : Result}
    {ending : Mark → Except Thrown Result → Prop} (holds : ending mark (.ok result)) :
    Keeps discipline mark (pure result : Program Op Answer Thrown Result) ending :=
  holds

theorem keeps_throw {mark : Mark} {thrown : Thrown}
    {ending : Mark → Except Thrown Result → Prop} (holds : ending mark (.error thrown)) :
    Keeps discipline mark (throw thrown : Program Op Answer Thrown Result) ending :=
  holds

theorem keeps_call {mark : Mark} {op : Op}
    {ending : Mark → Except Thrown (Answer op) → Prop}
    (permitted : discipline.permits mark op)
    (holds : ∀ outcome, ending (discipline.after mark op outcome) outcome) :
    Keeps discipline mark (Program.call op) ending :=
  ⟨permitted, holds⟩

theorem keeps_bind {mark : Mark} {program : Program Op Answer Thrown Result}
    {next : Result → Program Op Answer Thrown Next}
    {middle : Mark → Except Thrown Result → Prop} {ending : Mark → Except Thrown Next → Prop}
    (first : Keeps discipline mark program middle)
    (returns : ∀ reached result, middle reached (.ok result) →
      Keeps discipline reached (next result) ending)
    (throws : ∀ reached thrown, middle reached (.error thrown) →
      ending reached (.error thrown)) :
    Keeps discipline mark (program >>= next) ending := by
  change Keeps discipline mark (program.andThen next) ending
  induction program generalizing mark with
  | ends outcome =>
      cases outcome with
      | ok result => exact returns mark result first
      | error thrown => exact throws mark thrown first
  | calls op rest ih =>
      obtain ⟨permitted, later⟩ := first
      exact ⟨permitted, fun outcome => ih outcome (later outcome)⟩

/-- A call and what follows it, with the outcome split. -/
theorem keeps_call_bind {mark : Mark} {op : Op}
    {next : Answer op → Program Op Answer Thrown Next}
    {ending : Mark → Except Thrown Next → Prop}
    (permitted : discipline.permits mark op)
    (returns : ∀ answer,
      Keeps discipline (discipline.after mark op (.ok answer)) (next answer) ending)
    (throws : ∀ thrown, ending (discipline.after mark op (.error thrown)) (.error thrown)) :
    Keeps discipline mark (Program.call op >>= next) ending := by
  refine ⟨permitted, fun outcome => ?_⟩
  cases outcome with
  | ok answer => exact returns answer
  | error thrown => exact throws thrown

theorem keeps_catch {mark : Mark} {program : Program Op Answer Thrown Result}
    {handler : Thrown → Program Op Answer Thrown Result}
    {middle ending : Mark → Except Thrown Result → Prop}
    (first : Keeps discipline mark program middle)
    (returns : ∀ reached result, middle reached (.ok result) → ending reached (.ok result))
    (handles : ∀ reached thrown, middle reached (.error thrown) →
      Keeps discipline reached (handler thrown) ending) :
    Keeps discipline mark (tryCatch program handler) ending := by
  change Keeps discipline mark (program.orElse handler) ending
  induction program generalizing mark with
  | ends outcome =>
      cases outcome with
      | ok result => exact returns mark result first
      | error thrown => exact handles mark thrown first
  | calls op rest ih =>
      obtain ⟨permitted, later⟩ := first
      exact ⟨permitted, fun outcome => ih outcome (later outcome)⟩

/-- The loop rule: each round starts where the rounds before it returned. -/
theorem keeps_each {Item : Type} {body : Item → Program Op Answer Thrown Unit}
    {ending : Mark → Except Thrown Unit → Prop} {items : List Item} {mark : Mark}
    (kept : ∀ item ∈ items, ∀ before, ending before (.ok ()) →
      Keeps discipline before (body item) ending)
    (holds : ending mark (.ok ())) :
    Keeps discipline mark (Program.each body items) ending := by
  induction items generalizing mark with
  | nil => exact holds
  | cons item items ih =>
      refine keeps_bind (kept item List.mem_cons_self mark holds) ?_ ?_
      · intro reached _ still
        exact ih (fun other member => kept other (List.mem_cons_of_mem _ member)) still
      · intro reached _ still
        exact still

/-! ### Programs over one shared state -/

/-- How a call moves the shared state, and what is left of a thread that dies. -/
structure Machine (Thread Input Shared : Type) (Op : Type) (Answer : Op → Type)
    (Thrown : Type) where
  performs : Thread → (op : Op) → Input → Shared → Option (Shared × Except Thrown (Answer op))
  abandons : Thread → Shared → Shared

/-- The shared state and what each thread has left to do. -/
structure Pool (Thread Shared : Type) (Op : Type) (Answer : Op → Type) (Thrown : Type) where
  shared : Shared
  rest : Thread → Program Op Answer Thrown Unit

inductive PoolLabel (Thread Entry Input : Type) where
  | starts (thread : Thread) (entry : Entry)
  | steps (thread : Thread) (input : Input)
  | dies (thread : Thread)
deriving DecidableEq

variable {Thread Entry Input Shared : Type} [DecidableEq Thread]

namespace Machine

variable (machine : Machine Thread Input Shared Op Answer Thrown)
  (entries : Entry → Program Op Answer Thrown Unit)

def poolStep (pool : Pool Thread Shared Op Answer Thrown) :
    PoolLabel Thread Entry Input → Option (Pool Thread Shared Op Answer Thrown)
  | .starts thread entry =>
      match pool.rest thread with
      | .ends _ => some { pool with rest := Function.update pool.rest thread (entries entry) }
      | .calls _ _ => none
  | .steps thread input =>
      match pool.rest thread with
      | .ends _ => none
      | .calls op rest =>
          (machine.performs thread op input pool.shared).map fun moved =>
            { shared := moved.1, rest := Function.update pool.rest thread (rest moved.2) }
  | .dies thread =>
      some
        { shared := machine.abandons thread pool.shared
          rest := Function.update pool.rest thread (.ends (.ok ())) }

def system (initial : Pool Thread Shared Op Answer Thrown → Prop) :
    LabelledRun.System (Pool Thread Shared Op Answer Thrown) (PoolLabel Thread Entry Input) where
  initial := initial
  step := machine.poolStep entries

/-- A condition on calls, as one on the labels of a run. -/
def allowedLabel (allowed : Thread → Op → Input → Shared → Prop)
    (pool : Pool Thread Shared Op Answer Thrown) : PoolLabel Thread Entry Input → Prop
  | .starts _ _ => True
  | .dies _ => True
  | .steps thread input =>
      match pool.rest thread with
      | .ends _ => True
      | .calls op _ => allowed thread op input pool.shared

instance decidableAllowedLabel (allowed : Thread → Op → Input → Shared → Prop)
    [∀ thread op input shared, Decidable (allowed thread op input shared)]
    (pool : Pool Thread Shared Op Answer Thrown) (label : PoolLabel Thread Entry Input) :
    Decidable (allowedLabel allowed pool label) :=
  match label with
  | .starts _ _ => isTrue trivial
  | .dies _ => isTrue trivial
  | .steps thread input =>
      match found : pool.rest thread with
      | .ends _ => isTrue (by simp [allowedLabel, found])
      | .calls op _ =>
          decidable_of_iff (allowed thread op input pool.shared) (by simp [allowedLabel, found])

/-- What has to be proved once for each call, each entry and each death. -/
structure Sound (discipline : Discipline Mark Op Answer Thrown) (idle : Mark)
    (rests : Mark → Prop) (consistent : Shared → (Thread → Mark) → Prop)
    (known : Shared → Prop) (allowed : Thread → Op → Input → Shared → Prop) : Prop where
  entry : ∀ entry, Keeps discipline idle (entries entry) fun last _ => rests last
  forgets : ∀ shared marks thread, consistent shared marks → rests (marks thread) →
    consistent shared (Function.update marks thread idle)
  idleRests : rests idle
  performs : ∀ shared marks thread op input moved, consistent shared marks → known shared →
    discipline.permits (marks thread) op → allowed thread op input shared →
    machine.performs thread op input shared = some moved →
    consistent moved.1
      (Function.update marks thread (discipline.after (marks thread) op moved.2))
  dies : ∀ shared marks thread, consistent shared marks → known shared →
    consistent (machine.abandons thread shared) (Function.update marks thread idle)

/-- Every thread keeps to the discipline from a mark that fits the shared state. -/
def Disciplined (discipline : Discipline Mark Op Answer Thrown) (rests : Mark → Prop)
    (consistent : Shared → (Thread → Mark) → Prop)
    (pool : Pool Thread Shared Op Answer Thrown) : Prop :=
  ∃ marks, consistent pool.shared marks ∧
    ∀ thread, Keeps discipline (marks thread) (pool.rest thread) fun last _ => rests last

variable {machine entries}

/-- Marks and programs of the other threads stay as they are. -/
theorem keeps_update {discipline : Discipline Mark Op Answer Thrown} {rests : Mark → Prop}
    {marks : Thread → Mark} {rest : Thread → Program Op Answer Thrown Unit} {thread : Thread}
    {mark : Mark} {program : Program Op Answer Thrown Unit}
    (kept : ∀ other, Keeps discipline (marks other) (rest other) fun last _ => rests last)
    (here : Keeps discipline mark program fun last _ => rests last) (other : Thread) :
    Keeps discipline (Function.update marks thread mark other)
      (Function.update rest thread program other) fun last _ => rests last := by
  by_cases same : other = thread
  · subst same
    rw [Function.update_self, Function.update_self]
    exact here
  · rw [Function.update_of_ne same, Function.update_of_ne same]
    exact kept other

/-- One step of the pool keeps every thread disciplined. -/
theorem Sound.step {discipline : Discipline Mark Op Answer Thrown} {idle : Mark}
    {rests : Mark → Prop} {consistent : Shared → (Thread → Mark) → Prop}
    {known : Shared → Prop} {allowed : Thread → Op → Input → Shared → Prop}
    (sound : machine.Sound entries discipline idle rests consistent known allowed)
    {pool next : Pool Thread Shared Op Answer Thrown} {label : PoolLabel Thread Entry Input}
    (disciplined : Disciplined discipline rests consistent pool) (fact : known pool.shared)
    (permitted : allowedLabel allowed pool label)
    (moved : machine.poolStep entries pool label = some next) :
    Disciplined discipline rests consistent next := by
  obtain ⟨marks, fits, kept⟩ := disciplined
  cases label with
  | starts thread entry =>
      have here := kept thread
      simp only [poolStep] at moved
      split at moved
      next outcome atRest =>
        rw [atRest] at here
        cases moved
        exact ⟨_, sound.forgets _ _ _ fits here, keeps_update kept (sound.entry entry)⟩
      next => cases moved
  | steps thread input =>
      have here := kept thread
      simp only [poolStep] at moved
      simp only [allowedLabel] at permitted
      split at moved
      next => cases moved
      next op rest atCall =>
        rw [atCall] at here permitted
        obtain ⟨result, performed, rfl⟩ := Option.map_eq_some_iff.mp moved
        exact ⟨_, sound.performs _ _ _ _ _ _ fits fact here.1 permitted performed,
          keeps_update kept (here.2 result.2)⟩
  | dies thread =>
      cases moved
      exact ⟨_, sound.dies _ _ _ fits fact, keeps_update kept sound.idleRests⟩

/-- Every allowed run keeps every thread disciplined, given what is known of every state. -/
theorem Sound.preserved {discipline : Discipline Mark Op Answer Thrown} {idle : Mark}
    {rests : Mark → Prop} {consistent : Shared → (Thread → Mark) → Prop}
    {known : Shared → Prop} {allowed : Thread → Op → Input → Shared → Prop}
    {initial : Pool Thread Shared Op Answer Thrown → Prop}
    (sound : machine.Sound entries discipline idle rests consistent known allowed)
    (always : ∀ pool,
      (machine.system entries initial :
        LabelledRun.System _ (PoolLabel Thread Entry Input)).Reachable pool → known pool.shared) :
    (machine.system entries initial).PreservedWhen (allowedLabel allowed) fun pool =>
      (machine.system entries initial).Reachable pool ∧
        Disciplined discipline rests consistent pool := by
  intro pool label next holds permitted moved
  obtain ⟨reached, disciplined⟩ := holds
  have once : (machine.system entries initial).run pool [label] = some next := by
    rw [LabelledRun.System.run_cons _ _ moved]
    rfl
  exact ⟨reached.run _ once, sound.step disciplined (always pool reached) permitted moved⟩

/-- A disciplined start and an allowed run end disciplined. -/
theorem Sound.run {discipline : Discipline Mark Op Answer Thrown} {idle : Mark}
    {rests : Mark → Prop} {consistent : Shared → (Thread → Mark) → Prop}
    {known : Shared → Prop} {allowed : Thread → Op → Input → Shared → Prop}
    {initial : Pool Thread Shared Op Answer Thrown → Prop}
    (sound : machine.Sound entries discipline idle rests consistent known allowed)
    (always : ∀ pool,
      (machine.system entries initial :
        LabelledRun.System _ (PoolLabel Thread Entry Input)).Reachable pool → known pool.shared)
    {start final : Pool Thread Shared Op Answer Thrown} {labels : List (PoolLabel Thread Entry Input)}
    (started : initial start) (disciplined : Disciplined discipline rests consistent start)
    (permitted : (machine.system entries initial).Allowed (allowedLabel allowed) start labels)
    (ran : (machine.system entries initial).run start labels = some final) :
    Disciplined discipline rests consistent final :=
  (LabelledRun.System.run_preserves_when _ (sound.preserved always)
    ⟨LabelledRun.System.Reachable.initial _ started, disciplined⟩ permitted ran).2

/-- Where every call is allowed, every reachable state is disciplined. -/
theorem Sound.reachable {discipline : Discipline Mark Op Answer Thrown} {idle : Mark}
    {rests : Mark → Prop} {consistent : Shared → (Thread → Mark) → Prop}
    {initial : Pool Thread Shared Op Answer Thrown → Prop}
    (sound : machine.Sound entries discipline idle rests consistent (fun _ => True)
      (fun _ _ _ _ => True))
    (disciplined : ∀ start, initial start → Disciplined discipline rests consistent start)
    {pool : Pool Thread Shared Op Answer Thrown}
    (reached : (machine.system entries initial).Reachable pool) :
    Disciplined discipline rests consistent pool := by
  obtain ⟨start, labels, started, ran⟩ := reached
  refine sound.run (fun _ _ => trivial) started (disciplined start started) ?_ ran
  clear ran
  generalize start = state
  induction labels generalizing state with
  | nil => trivial
  | cons label labels ih =>
      refine ⟨?_, ?_⟩
      · cases label with
        | starts thread entry => trivial
        | dies thread => trivial
        | steps thread input =>
            simp only [allowedLabel]
            split
            next => trivial
            next => trivial
      · split
        next => trivial
        next next _ => exact ih next

end Machine
end Interleaving
