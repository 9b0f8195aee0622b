import NextTime.Library.Program

/-
Programs side by side, each verified on its own. What a thread sees of the
shared state is its local state; a call moves it as the thread's own step does,
and other threads move it only as the rely says. A specification is an assertion
before a program and one after each of its outcomes. Nothing here names a
particular program.
-/

namespace Interleaving

variable {Op : Type} {Answer : Op → Type} {Thrown Result Next Local : Type}

/-- How others may move a local state, how a call moves it, and what a call asks of it. -/
structure Conduct (Local : Type) (Op : Type) (Answer : Op → Type) (Thrown : Type) where
  rely : Local → Local → Prop
  does : (op : Op) → Local → Except Thrown (Answer op) → Local → Prop
  allowed : Op → Local → Prop
  rely_refl : ∀ here, rely here here
  rely_trans : ∀ {first second third}, rely first second → rely second third → rely first third

namespace Conduct

variable (conduct : Conduct Local Op Answer Thrown)

/-- Where others may have moved a local state the assertion held of. -/
def Later (assertion : Local → Prop) (here : Local) : Prop :=
  ∃ before, assertion before ∧ conduct.rely before here

/-- Others keep the assertion. -/
def Stable (assertion : Local → Prop) : Prop :=
  ∀ before here, assertion before → conduct.rely before here → assertion here

/-- A mark is the assertion a thread has reached. -/
def discipline : Discipline (Local → Prop) Op Answer Thrown where
  permits assertion op := ∀ here, conduct.Later assertion here → conduct.allowed op here
  after assertion op outcome here :=
    ∃ before, conduct.Later assertion before ∧ conduct.does op before outcome here

/-- From the assertion, the program makes only allowed calls and ends as specified. -/
def Meets (before : Local → Prop) (program : Program Op Answer Thrown Result)
    (after : Except Thrown Result → Local → Prop) : Prop :=
  Keeps conduct.discipline before program fun last outcome =>
    ∀ here, last here → after outcome here

variable {conduct}

theorem later_self {assertion : Local → Prop} {here : Local} (holds : assertion here) :
    conduct.Later assertion here :=
  ⟨here, holds, conduct.rely_refl here⟩

theorem Later.mono {stronger weaker : Local → Prop} {here : Local}
    (later : conduct.Later stronger here) (weakens : ∀ local', stronger local' → weaker local') :
    conduct.Later weaker here := by
  obtain ⟨before, holds, moved⟩ := later
  exact ⟨before, weakens before holds, moved⟩

theorem Later.rely {assertion : Local → Prop} {here next : Local}
    (later : conduct.Later assertion here) (moved : conduct.rely here next) :
    conduct.Later assertion next := by
  obtain ⟨before, holds, first⟩ := later
  exact ⟨before, holds, conduct.rely_trans first moved⟩

theorem Stable.later {assertion : Local → Prop} (stable : conduct.Stable assertion) {here : Local}
    (later : conduct.Later assertion here) : assertion here := by
  obtain ⟨before, holds, moved⟩ := later
  exact stable before here holds moved

/-! ### Rules -/

/-- The rule of consequence, on the left. -/
theorem Meets.weaken {stronger weaker : Local → Prop} {program : Program Op Answer Thrown Result}
    {after : Except Thrown Result → Local → Prop} (meets : conduct.Meets weaker program after)
    (weakens : ∀ here, stronger here → weaker here) : conduct.Meets stronger program after := by
  induction program generalizing stronger weaker with
  | ends outcome => exact fun here holds => meets here (weakens here holds)
  | calls op rest ih =>
      obtain ⟨permitted, later⟩ := meets
      constructor
      · exact fun here reached => permitted here (reached.mono weakens)
      · intro outcome
        apply ih outcome (later outcome)
        intro here reached
        obtain ⟨before, earlier, done⟩ := reached
        exact ⟨before, earlier.mono weakens, done⟩

theorem Meets.mono {before : Local → Prop} {program : Program Op Answer Thrown Result}
    {stronger weaker : Except Thrown Result → Local → Prop}
    (meets : conduct.Meets before program stronger)
    (weakens : ∀ outcome here, stronger outcome here → weaker outcome here) :
    conduct.Meets before program weaker :=
  keeps_mono meets fun _ outcome ended here holds => weakens outcome here (ended here holds)

theorem meets_pure {before : Local → Prop} {result : Result}
    {after : Except Thrown Result → Local → Prop}
    (holds : ∀ here, before here → after (.ok result) here) :
    conduct.Meets before (pure result : Program Op Answer Thrown Result) after :=
  holds

theorem meets_throw {before : Local → Prop} {thrown : Thrown}
    {after : Except Thrown Result → Local → Prop}
    (holds : ∀ here, before here → after (.error thrown) here) :
    conduct.Meets before (throw thrown : Program Op Answer Thrown Result) after :=
  holds

theorem meets_call {before : Local → Prop} {op : Op}
    {after : Except Thrown (Answer op) → Local → Prop} (stable : conduct.Stable before)
    (permitted : ∀ here, before here → conduct.allowed op here)
    (holds : ∀ here outcome next, before here → conduct.does op here outcome next →
      after outcome next) :
    conduct.Meets before (Program.call op) after := by
  constructor
  · exact fun here reached => permitted here (stable.later reached)
  · intro outcome next reached
    obtain ⟨here, earlier, done⟩ := reached
    exact holds here outcome next (stable.later earlier) done

theorem Meets.bind {before : Local → Prop} {program : Program Op Answer Thrown Result}
    {next : Result → Program Op Answer Thrown Next}
    {middle : Except Thrown Result → Local → Prop} {after : Except Thrown Next → Local → Prop}
    (first : conduct.Meets before program middle)
    (returns : ∀ result, conduct.Meets (middle (.ok result)) (next result) after)
    (throws : ∀ thrown here, middle (.error thrown) here → after (.error thrown) here) :
    conduct.Meets before (program >>= next) after := by
  apply keeps_bind first
  · intro reached result ended
    exact (returns result).weaken ended
  · intro reached thrown ended here holds
    exact throws thrown here (ended here holds)

theorem Meets.catch {before : Local → Prop} {program : Program Op Answer Thrown Result}
    {handler : Thrown → Program Op Answer Thrown Result}
    {middle after : Except Thrown Result → Local → Prop}
    (first : conduct.Meets before program middle)
    (returns : ∀ result here, middle (.ok result) here → after (.ok result) here)
    (handles : ∀ thrown, conduct.Meets (middle (.error thrown)) (handler thrown) after) :
    conduct.Meets before (tryCatch program handler) after := by
  apply keeps_catch first
  · intro reached result ended here holds
    exact returns result here (ended here holds)
  · intro reached thrown ended
    exact (handles thrown).weaken ended

/-- One assertion for a program that returns, one for a program that throws. -/
def endsWith (returned : Result → Local → Prop) (threw : Thrown → Local → Prop) :
    Except Thrown Result → Local → Prop
  | .ok result => returned result
  | .error thrown => threw thrown

/-- A program, and what follows where it returns. -/
theorem Meets.seq {before : Local → Prop} {program : Program Op Answer Thrown Result}
    {next : Result → Program Op Answer Thrown Next} {middle : Result → Local → Prop}
    {returned : Next → Local → Prop} {threw : Thrown → Local → Prop}
    (first : conduct.Meets before program (endsWith middle threw))
    (rest : ∀ result, conduct.Meets (middle result) (next result) (endsWith returned threw)) :
    conduct.Meets before (program >>= next) (endsWith returned threw) :=
  Meets.bind first rest fun _ _ holds => holds

/-- A case distinction before the program. -/
theorem meets_exists {Index : Sort*} {before : Index → Local → Prop}
    {program : Program Op Answer Thrown Result} {after : Except Thrown Result → Local → Prop}
    (each : ∀ index, conduct.Meets (before index) program after) :
    conduct.Meets (fun here => ∃ index, before index here) program after := by
  induction program generalizing before with
  | ends outcome =>
      intro here holds
      obtain ⟨index, holds⟩ := holds
      exact each index here holds
  | calls op rest ih =>
      constructor
      · intro here reached
        obtain ⟨earlier, holds, moved⟩ := reached
        obtain ⟨index, holds⟩ := holds
        exact (each index).1 here ⟨earlier, holds, moved⟩
      · intro outcome
        apply (ih outcome fun index => (each index).2 outcome).weaken
        intro here reached
        obtain ⟨middle, later, moves⟩ := reached
        obtain ⟨earlier, holds, moved⟩ := later
        obtain ⟨index, holds⟩ := holds
        exact ⟨index, middle, ⟨earlier, holds, moved⟩, moves⟩

/-- A fact that does not speak of the state may be assumed. -/
theorem meets_assuming {fact : Prop} {before : Local → Prop}
    {program : Program Op Answer Thrown Result} {after : Except Thrown Result → Local → Prop}
    (meets : fact → conduct.Meets before program after) :
    conduct.Meets (fun here => fact ∧ before here) program after :=
  (meets_exists meets).weaken fun _ holds => ⟨holds.1, holds.2⟩

/-- The loop rule: an assertion about the items done so far. -/
theorem meets_each {Item : Type} {body : Item → Program Op Answer Thrown Unit}
    {invariant : List Item → Local → Prop} {threw : Thrown → Local → Prop}
    {items done : List Item}
    (round : ∀ earlier item, item ∈ items →
      conduct.Meets (invariant earlier) (body item)
        (endsWith (fun _ => invariant (earlier ++ [item])) threw)) :
    conduct.Meets (invariant done) (Program.each body items)
      (endsWith (fun _ => invariant (done ++ items)) threw) := by
  induction items generalizing done with
  | nil =>
      apply meets_pure
      intro here holds
      change invariant (done ++ []) here
      rw [List.append_nil]
      exact holds
  | cons item items ih =>
      apply (round done item List.mem_cons_self).seq
      intro _
      have rest := @ih (done ++ [item])
        fun earlier other member => round earlier other (List.mem_cons_of_mem _ member)
      rw [List.append_assoc, List.singleton_append] at rest
      exact rest

/-- The loop rule where each round returns something. -/
theorem meets_collect {Item : Type} {body : Item → Program Op Answer Thrown Result}
    {invariant : List (Item × Result) → Local → Prop} {threw : Thrown → Local → Prop}
    {items : List Item} {done : List (Item × Result)}
    (round : ∀ earlier item, item ∈ items →
      conduct.Meets (invariant earlier) (body item)
        (endsWith (fun result => invariant (earlier ++ [(item, result)])) threw)) :
    conduct.Meets (invariant done) (Program.collect body items)
      (endsWith (fun results here =>
        results.length = items.length ∧ invariant (done ++ items.zip results) here) threw) := by
  induction items generalizing done with
  | nil =>
      apply meets_pure
      intro here holds
      refine ⟨rfl, ?_⟩
      rw [List.zip_nil_left, List.append_nil]
      exact holds
  | cons item items ih =>
      apply (round done item List.mem_cons_self).seq
      intro result
      have rest := @ih (done ++ [(item, result)])
        fun earlier other member => round earlier other (List.mem_cons_of_mem _ member)
      apply rest.seq
      intro results
      apply meets_pure
      intro here holds
      refine ⟨congrArg Nat.succ holds.1, ?_⟩
      have reached := holds.2
      rw [List.append_assoc, List.singleton_append] at reached
      exact reached

/-! ### All threads together -/

variable {Thread Input Shared Entry : Type} [DecidableEq Thread]
  {machine : Machine Thread Input Shared Op Answer Thrown}
  {entries : Entry → Program Op Answer Thrown Unit}

/-- What ties the calls of the machine to the conduct of a thread. -/
structure Realises (machine : Machine Thread Input Shared Op Answer Thrown)
    (conduct : Conduct Local Op Answer Thrown) (sees : Thread → Shared → Local)
    (invariant : Shared → Prop) (idle : Local → Prop) : Prop where
  performs : ∀ thread op input shared moved, invariant shared →
    conduct.allowed op (sees thread shared) →
    machine.performs thread op input shared = some moved →
      invariant moved.1 ∧ conduct.does op (sees thread shared) moved.2 (sees thread moved.1) ∧
        ∀ other, other ≠ thread → conduct.rely (sees other shared) (sees other moved.1)
  abandons : ∀ thread shared, invariant shared →
    invariant (machine.abandons thread shared) ∧ idle (sees thread (machine.abandons thread shared)) ∧
      ∀ other, other ≠ thread →
        conduct.rely (sees other shared) (sees other (machine.abandons thread shared))

/-- The invariant, and an assertion of every thread that others may have moved. -/
def Together (conduct : Conduct Local Op Answer Thrown) (sees : Thread → Shared → Local)
    (invariant : Shared → Prop) (shared : Shared) (marks : Thread → Local → Prop) : Prop :=
  invariant shared ∧ ∀ thread, conduct.Later (marks thread) (sees thread shared)

theorem together_update {sees : Thread → Shared → Local} {invariant : Shared → Prop}
    {shared next : Shared} {marks : Thread → Local → Prop} {thread : Thread} {mark : Local → Prop}
    (held : ∀ other, conduct.Later (marks other) (sees other shared)) (kept : invariant next)
    (here : mark (sees thread next))
    (others : ∀ other, other ≠ thread → conduct.rely (sees other shared) (sees other next)) :
    Together conduct sees invariant next (Function.update marks thread mark) := by
  refine ⟨kept, ?_⟩
  intro other
  by_cases same : other = thread
  · rw [same, Function.update_self]
    exact later_self here
  · rw [Function.update_of_ne same]
    exact (held other).rely (others other same)

theorem Realises.sound {sees : Thread → Shared → Local} {invariant : Shared → Prop}
    {idle : Local → Prop} (realises : Realises machine conduct sees invariant idle)
    (stable : conduct.Stable idle)
    (entry : ∀ entry, conduct.Meets idle (entries entry) fun _ => idle) :
    machine.Sound entries conduct.discipline idle (fun mark => ∀ here, mark here → idle here)
      (Together conduct sees invariant) (fun _ => True) (fun _ _ _ _ => True) where
  entry := entry
  idleRests := fun _ holds => holds
  forgets := by
    intro shared marks thread together rests
    have here : idle (sees thread shared) := by
      obtain ⟨before, holds, moved⟩ := together.2 thread
      exact stable before _ (rests before holds) moved
    exact together_update together.2 together.1 here fun other _ => conduct.rely_refl _
  performs := by
    intro shared marks thread op input moved together _ permitted _ performed
    have here := together.2 thread
    obtain ⟨kept, done, others⟩ :=
      realises.performs thread op input shared moved together.1 (permitted _ here) performed
    exact together_update together.2 kept ⟨_, here, done⟩ others
  dies := by
    intro shared marks thread together _
    obtain ⟨kept, here, others⟩ := realises.abandons thread shared together.1
    exact together_update together.2 kept here others

/-- In every reachable state the invariant holds, and a call about to be made is allowed. -/
theorem Realises.reachable {sees : Thread → Shared → Local} {invariant : Shared → Prop}
    {idle : Local → Prop} {initial : Pool Thread Shared Op Answer Thrown → Prop}
    (realises : Realises machine conduct sees invariant idle) (stable : conduct.Stable idle)
    (entry : ∀ entry, conduct.Meets idle (entries entry) fun _ => idle)
    (starts : ∀ pool, initial pool → invariant pool.shared ∧
      ∀ thread, pool.rest thread = .ends (.ok ()) ∧ idle (sees thread pool.shared))
    {pool : Pool Thread Shared Op Answer Thrown}
    (reached : (machine.system entries initial : LabelledRun.System _
      (PoolLabel Thread Entry Input)).Reachable pool) :
    invariant pool.shared ∧ ∀ thread op rest, pool.rest thread = .calls op rest →
      conduct.allowed op (sees thread pool.shared) := by
  have disciplined := (realises.sound stable entry).reachable (by
    intro start started
    obtain ⟨holds, threads⟩ := starts start started
    refine ⟨fun _ => idle, ⟨holds, fun thread => later_self (threads thread).2⟩, ?_⟩
    intro thread
    rw [(threads thread).1]
    exact fun _ atRest => atRest) reached
  obtain ⟨marks, together, keeps⟩ := disciplined
  refine ⟨together.1, ?_⟩
  intro thread op rest atCall
  have here := keeps thread
  rw [atCall] at here
  exact here.1 _ (together.2 thread)

end Conduct
end Interleaving
