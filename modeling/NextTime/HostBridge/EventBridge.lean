import NextTime.HostBridge.KernelLink
import NextTime.Library.LabelledRun

/-
The event bridge: agent-host's link, the kernel's `handleFrame` and the one
connection between them. It delivers in order until it drops, and what is in
flight is lost with it. The kernel process stays up; agent-host may restart,
with a new instance and nothing kept.
-/

namespace NextTime.HostBridge

inductive WireFrame
  | hello (instanceId : Nat)
  | sequenced (frame : SequencedFrame)
deriving DecidableEq, Repr

/-- An open connection, with what is in flight each way. -/
structure Connection where
  toKernel : List WireFrame
  acks : List Nat
deriving DecidableEq, Repr

structure Bridge where
  instanceId : Nat
  link : KernelLink
  connection : Option Connection
  lastHelloInstanceId : Option Nat
  lastSeq : Nat
  /-- The frames that got past the duplicate test, with the process that numbered them. -/
  handled : List (Nat × Nat)
deriving DecidableEq, Repr

inductive BridgeLabel
  | enqueues (turnId : Nat) (kind : FrameKind)
  | opens
  | drops
  | restarts
  | deliversFrame
  | deliversAck
deriving DecidableEq, Repr

namespace Bridge

variable (bounds : LinkBounds)

def enqueue (bridge : Bridge) (turnId : Nat) (kind : FrameKind) : Bridge :=
  { bridge with
    link := bridge.link.enqueue bounds turnId kind
    connection := bridge.connection.map fun connection =>
      { connection with
        toKernel := connection.toKernel ++ [.sequenced (bridge.link.sequenced turnId kind)] } }

/-- The `open` handler: `hello`, then everything kept, oldest first. -/
def opened (bridge : Bridge) : Connection where
  toKernel := .hello bridge.instanceId :: bridge.link.buffer.map .sequenced
  acks := []

/-- `handleHello`, as far as the numbering goes. -/
def handleHello (bridge : Bridge) (instanceId : Nat) : Bridge :=
  { bridge with
    lastSeq := if bridge.lastHelloInstanceId = some instanceId then bridge.lastSeq else 0
    lastHelloInstanceId := some instanceId }

/-- `handleFrame` of a numbered frame: the highest number goes back, a duplicate no further. -/
def handleSequenced (bridge : Bridge) (connection : Connection) (frame : SequencedFrame) : Bridge :=
  if frame.seq ≤ bridge.lastSeq then
    { bridge with
      connection := some { connection with acks := connection.acks ++ [bridge.lastSeq] } }
  else
    { bridge with
      lastSeq := frame.seq
      connection := some { connection with acks := connection.acks ++ [frame.seq] }
      handled := bridge.handled ++ [(bridge.instanceId, frame.seq)] }

def handleFrame (bridge : Bridge) (connection : Connection) : WireFrame → Bridge
  | .hello instanceId =>
      { bridge.handleHello instanceId with connection := some connection }
  | .sequenced frame => bridge.handleSequenced connection frame

def step (bridge : Bridge) : BridgeLabel → Option Bridge
  | .enqueues turnId kind => some (bridge.enqueue bounds turnId kind)
  | .opens =>
      match bridge.connection with
      | none => some { bridge with connection := some bridge.opened }
      | some _ => none
  | .drops =>
      match bridge.connection with
      | none => none
      | some _ => some { bridge with connection := none }
  | .restarts =>
      some
        { bridge with
          instanceId := bridge.instanceId + 1
          link := .fresh
          connection := none }
  | .deliversFrame =>
      match bridge.connection with
      | some { toKernel := frame :: later, acks } =>
          some (bridge.handleFrame { toKernel := later, acks := acks } frame)
      | _ => none
  | .deliversAck =>
      match bridge.connection with
      | some { toKernel, acks := seq :: later } =>
          some
            { bridge with
              link := bridge.link.acknowledge seq
              connection := some { toKernel := toKernel, acks := later } }
      | _ => none

def initial : Bridge where
  instanceId := 0
  link := .fresh
  connection := none
  lastHelloInstanceId := none
  lastSeq := 0
  handled := []

def system : LabelledRun.System Bridge BridgeLabel where
  initial bridge := bridge = initial
  step := step bounds

def Handled (bridge : Bridge) (seq : Nat) : Prop :=
  (bridge.instanceId, seq) ∈ bridge.handled

/-- By process, and by number within one. -/
def Later (entry later : Nat × Nat) : Prop :=
  entry.1 < later.1 ∨ entry.1 = later.1 ∧ entry.2 < later.2

/-- Numbered by the process that runs now, and not dropped for a bound. -/
def Kept (bridge : Bridge) (seq : Nat) : Prop :=
  0 < seq ∧ seq < bridge.link.nextSeq ∧
    ∀ frame ∈ bridge.link.overTurn ++ bridge.link.overAll, frame.seq ≠ seq

/-- Everything the running process kept has been handled. -/
def AllHandled (bridge : Bridge) : Prop :=
  ∀ seq, bridge.Kept seq → bridge.Handled seq

/-! ### The invariant -/

/-- What the kernel has seen of the process that runs now. -/
structure KernelHolds (bridge : Bridge) : Prop where
  ordered : bridge.handled.Pairwise Later
  noLater : ∀ entry ∈ bridge.handled, entry.1 ≤ bridge.instanceId
  met : ∀ instanceId, bridge.lastHelloInstanceId = some instanceId →
    instanceId ≤ bridge.instanceId
  below : ∀ seq, bridge.Handled seq →
    bridge.lastHelloInstanceId = some bridge.instanceId ∧ seq ≤ bridge.lastSeq
  given : bridge.lastHelloInstanceId = some bridge.instanceId →
    bridge.lastSeq < bridge.link.nextSeq
  gone : ∀ frame ∈ bridge.link.acknowledged, bridge.Handled frame.seq
  passed : bridge.lastHelloInstanceId = some bridge.instanceId →
    ∀ frame ∈ bridge.link.buffer, frame.seq ≤ bridge.lastSeq → bridge.Handled frame.seq

def wireSeq : WireFrame → Option Nat
  | .hello _ => none
  | .sequenced frame => some frame.seq

/-- The numbers under way, in the order sent. -/
def underWay (connection : Connection) : List Nat :=
  connection.toKernel.filterMap wireSeq

/-- What is in flight: at most the `hello` first, then numbers that only grow, and among them
whatever is kept and not handled. -/
structure ConnectionHolds (bridge : Bridge) (connection : Connection) : Prop where
  ordered : (underWay connection).Pairwise (· < ·)
  given : ∀ seq ∈ underWay connection, 0 < seq ∧ seq < bridge.link.nextSeq
  carried : ∀ frame ∈ bridge.link.buffer,
    bridge.Handled frame.seq ∨ frame.seq ∈ underWay connection
  greeting : (∃ frames, connection.toKernel = .hello bridge.instanceId :: frames ∧
      (∀ frame ∈ frames, (wireSeq frame).isSome = true) ∧ connection.acks = []) ∨
    (∀ frame ∈ connection.toKernel, (wireSeq frame).isSome = true) ∧
      bridge.lastHelloInstanceId = some bridge.instanceId
  acks : ∀ seq ∈ connection.acks, seq ≤ bridge.lastSeq

structure Holds (bridge : Bridge) : Prop where
  link : bridge.link.Numbered
  kernel : bridge.KernelHolds
  connection : ∀ connection, bridge.connection = some connection →
    bridge.ConnectionHolds connection

theorem initial_holds : initial.Holds where
  link := KernelLink.fresh_numbered
  kernel :=
    { ordered := List.Pairwise.nil
      noLater := nofun
      met := nofun
      below := nofun
      given := nofun
      gone := nofun
      passed := nofun }
  connection := nofun

/-! ### The steps -/

variable {bounds} {bridge : Bridge}

theorem Holds.drop (holds : bridge.Holds) : { bridge with connection := none }.Holds where
  link := holds.link
  kernel :=
    { ordered := holds.kernel.ordered
      noLater := holds.kernel.noLater
      met := holds.kernel.met
      below := holds.kernel.below
      given := holds.kernel.given
      gone := holds.kernel.gone
      passed := holds.kernel.passed }
  connection := nofun

theorem Holds.restart (holds : bridge.Holds) :
    { bridge with
      instanceId := bridge.instanceId + 1
      link := .fresh
      connection := none }.Holds where
  link := KernelLink.fresh_numbered
  kernel :=
    { ordered := holds.kernel.ordered
      noLater := fun entry member => Nat.le_succ_of_le (holds.kernel.noLater entry member)
      met := fun instanceId met => Nat.le_succ_of_le (holds.kernel.met instanceId met)
      below := fun _ handled =>
        absurd (holds.kernel.noLater _ handled) (Nat.not_succ_le_self _)
      given := fun met => absurd (holds.kernel.met _ met) (Nat.not_succ_le_self _)
      gone := nofun
      passed := nofun }
  connection := nofun

theorem underWay_opened : underWay bridge.opened = bridge.link.buffer.map SequencedFrame.seq := by
  rw [underWay, opened, List.filterMap_cons, List.filterMap_map]
  exact congrFun List.filterMap_eq_map bridge.link.buffer

theorem Holds.open (holds : bridge.Holds) :
    { bridge with connection := some bridge.opened }.Holds where
  link := holds.link
  kernel :=
    { ordered := holds.kernel.ordered
      noLater := holds.kernel.noLater
      met := holds.kernel.met
      below := holds.kernel.below
      given := holds.kernel.given
      gone := holds.kernel.gone
      passed := holds.kernel.passed }
  connection := fun connection found => by
    cases found
    refine ⟨?_, ?_, ?_, Or.inl ⟨_, rfl, ?_, rfl⟩, nofun⟩
    · rw [underWay_opened, List.pairwise_map]
      exact holds.link.ordered
    · intro seq member
      rw [underWay_opened] at member
      obtain ⟨frame, inBuffer, rfl⟩ := List.mem_map.mp member
      exact ⟨holds.link.positive frame inBuffer, holds.link.given frame inBuffer⟩
    · intro frame inBuffer
      apply Or.inr
      rw [underWay_opened]
      exact List.mem_map_of_mem inBuffer
    · intro frame member
      obtain ⟨kept, _, rfl⟩ := List.mem_map.mp member
      rfl

theorem Holds.enqueue (holds : bridge.Holds) (turnId : Nat) (kind : FrameKind) :
    (bridge.enqueue bounds turnId kind).Holds := by
  have pushed := holds.link.pushed turnId kind
  have thins := KernelLink.enforceBounds_thins bounds turnId (bridge.link.pushed turnId kind)
  have next : (bridge.link.enqueue bounds turnId kind).nextSeq = bridge.link.nextSeq + 1 :=
    thins.nextSeq
  -- what is kept was kept before, or is the new frame
  have kept : ∀ frame ∈ (bridge.link.enqueue bounds turnId kind).buffer,
      frame ∈ bridge.link.buffer ∨ frame = bridge.link.sequenced turnId kind := by
    intro frame member
    cases List.mem_append.mp (thins.sublist.subset member) with
    | inl before => exact Or.inl before
    | inr newest => exact Or.inr (List.mem_singleton.mp newest)
  refine ⟨pushed.thins thins, ?_, ?_⟩
  · refine ⟨holds.kernel.ordered, holds.kernel.noLater, holds.kernel.met, holds.kernel.below,
      ?_, ?_, ?_⟩
    · intro met
      exact next ▸ Nat.lt_succ_of_lt (holds.kernel.given met)
    · intro frame member
      exact holds.kernel.gone frame (thins.acknowledged ▸ member)
    · intro met frame member passed
      cases kept frame member with
      | inl before => exact holds.kernel.passed met frame before passed
      | inr newest =>
          have given := holds.kernel.given met
          rw [newest] at passed
          exact absurd (Nat.lt_of_le_of_lt passed given) (Nat.lt_irrefl _)
  · intro connection found
    obtain ⟨before, open', rfl⟩ := Option.map_eq_some_iff.mp found
    have carries := holds.connection before open'
    have sent : underWay { before with toKernel := before.toKernel ++
        [.sequenced (bridge.link.sequenced turnId kind)] } =
          underWay before ++ [bridge.link.nextSeq] := by
      rw [underWay, underWay, List.filterMap_append]
      rfl
    refine ⟨?_, ?_, ?_, ?_, carries.acks⟩
    · rw [sent, List.pairwise_append]
      refine ⟨carries.ordered, List.pairwise_singleton _ _, fun seq member last newest => ?_⟩
      rw [List.mem_singleton.mp newest]
      exact (carries.given seq member).2
    · intro seq member
      rw [sent] at member
      cases List.mem_append.mp member with
      | inl earlier =>
          obtain ⟨above, below⟩ := carries.given seq earlier
          exact ⟨above, next ▸ Nat.lt_succ_of_lt below⟩
      | inr newest =>
          rw [List.mem_singleton.mp newest]
          exact ⟨holds.link.started, next ▸ Nat.lt_succ_self _⟩
    · intro frame member
      rw [sent, List.mem_append]
      cases kept frame member with
      | inl before =>
          cases carries.carried frame before with
          | inl handled => exact Or.inl handled
          | inr under => exact Or.inr (Or.inl under)
      | inr newest =>
          rw [newest]
          exact Or.inr (Or.inr List.mem_cons_self)
    · have numbered : ∀ frames : List WireFrame,
          (∀ frame ∈ frames, (wireSeq frame).isSome = true) →
          ∀ frame ∈ frames ++ [.sequenced (bridge.link.sequenced turnId kind)],
            (wireSeq frame).isSome = true := by
        intro frames all frame member
        cases List.mem_append.mp member with
        | inl earlier => exact all frame earlier
        | inr newest =>
            rw [List.mem_singleton.mp newest]
            rfl
      cases carries.greeting with
      | inl first =>
          obtain ⟨frames, greets, all, quiet⟩ := first
          refine Or.inl ⟨frames ++ [.sequenced (bridge.link.sequenced turnId kind)], ?_,
            numbered frames all, quiet⟩
          change before.toKernel ++ _ = _
          rw [greets]
          rfl
      | inr met => exact Or.inr ⟨numbered _ met.1, met.2⟩

/-- An acknowledgement drops only what is at or below the highest number handled. -/
theorem Holds.acknowledge (holds : bridge.Holds) {toKernel : List WireFrame} {seq : Nat}
    {later : List Nat}
    (found : bridge.connection = some { toKernel := toKernel, acks := seq :: later }) :
    { bridge with
      link := bridge.link.acknowledge seq
      connection := some { toKernel := toKernel, acks := later } }.Holds := by
  have carries := holds.connection _ found
  have met : bridge.lastHelloInstanceId = some bridge.instanceId := by
    cases carries.greeting with
    | inl first => cases first.choose_spec.2.2
    | inr met => exact met.2
  have covered := carries.acks seq List.mem_cons_self
  have stays : ∀ frame ∈ (bridge.link.acknowledge seq).buffer, frame ∈ bridge.link.buffer :=
    fun frame member => (List.dropWhile_sublist _).subset member
  refine ⟨holds.link.acknowledge seq, ?_, ?_⟩
  · refine ⟨holds.kernel.ordered, holds.kernel.noLater, holds.kernel.met, holds.kernel.below,
      holds.kernel.given, ?_, fun _ frame member =>
        holds.kernel.passed met frame (stays frame member)⟩
    intro frame member
    cases List.mem_append.mp member with
    | inl before => exact holds.kernel.gone frame before
    | inr now =>
        have low : decide (frame.seq ≤ seq) = true := List.all_eq_true.mp
          (@List.all_takeWhile _ (fun other : SequencedFrame => decide (other.seq ≤ seq))
            bridge.link.buffer) frame now
        exact holds.kernel.passed met frame ((List.takeWhile_sublist _).subset now)
          (Nat.le_trans (of_decide_eq_true low) covered)
  · intro connection current
    cases current
    exact ⟨carries.ordered, carries.given,
      fun frame member => carries.carried frame (stays frame member),
      carries.greeting.imp_left (fun first => nomatch first.choose_spec.2.2),
      fun other member => carries.acks other (List.mem_cons_of_mem _ member)⟩

theorem Holds.hello (holds : bridge.Holds) {later : List WireFrame} {acks : List Nat}
    {instanceId : Nat}
    (found : bridge.connection =
      some { toKernel := .hello instanceId :: later, acks := acks }) :
    { bridge.handleHello instanceId with
      connection := some { toKernel := later, acks := acks } }.Holds := by
  have carries := holds.connection _ found
  -- the first thing on a connection, and from the process that runs now
  have first : instanceId = bridge.instanceId ∧
      (∀ frame ∈ later, (wireSeq frame).isSome = true) ∧ acks = [] := by
    cases carries.greeting with
    | inl first =>
        obtain ⟨frames, greets, all, quiet⟩ := first
        cases greets
        exact ⟨rfl, all, quiet⟩
    | inr met =>
        have numbered := met.1 _ List.mem_cons_self
        cases numbered
  obtain ⟨rfl, all, rfl⟩ := first
  have known : ∀ seq, bridge.Handled seq →
      seq ≤ (bridge.handleHello bridge.instanceId).lastSeq := by
    intro seq handled
    obtain ⟨met, below⟩ := holds.kernel.below seq handled
    rw [handleHello, if_pos met]
    exact below
  refine ⟨holds.link, ?_, ?_⟩
  · refine ⟨holds.kernel.ordered, holds.kernel.noLater, ?_, ?_, ?_, holds.kernel.gone, ?_⟩
    · intro other met
      cases met
      exact Nat.le_refl _
    · intro seq handled
      exact ⟨rfl, known seq handled⟩
    · intro _
      change (if _ then _ else _) < _
      split
      next met => exact holds.kernel.given met
      next => exact holds.link.started
    · intro _ frame member passed
      change frame.seq ≤ (if _ then _ else _) at passed
      split at passed
      next met => exact holds.kernel.passed met frame member passed
      next =>
        have positive := holds.link.positive frame member
        omega
  · intro connection current
    cases current
    exact ⟨carries.ordered, carries.given, carries.carried, Or.inr ⟨all, rfl⟩, nofun⟩

/-- A frame past the duplicate test is the next the kernel sees, and everything kept below it
has been handled before. -/
theorem Holds.sequenced (holds : bridge.Holds) {frame : SequencedFrame}
    {later : List WireFrame} {acks : List Nat}
    (found : bridge.connection = some { toKernel := .sequenced frame :: later, acks := acks }) :
    (bridge.handleSequenced { toKernel := later, acks := acks } frame).Holds := by
  have carries := holds.connection _ found
  have greeted : (∀ other ∈ later, (wireSeq other).isSome = true) ∧
      bridge.lastHelloInstanceId = some bridge.instanceId := by
    cases carries.greeting with
    | inl first => cases first.choose_spec.1
    | inr met => exact ⟨fun other member => met.1 other (List.mem_cons_of_mem _ member), met.2⟩
  obtain ⟨all, met⟩ := greeted
  have ordered : (frame.seq :: underWay { toKernel := later, acks := acks }).Pairwise (· < ·) :=
    carries.ordered
  have given : ∀ seq ∈ frame.seq :: underWay { toKernel := later, acks := acks },
      0 < seq ∧ seq < bridge.link.nextSeq := carries.given
  have carried : ∀ other ∈ bridge.link.buffer, bridge.Handled other.seq ∨
      other.seq ∈ frame.seq :: underWay { toKernel := later, acks := acks } := carries.carried
  rw [List.pairwise_cons] at ordered
  unfold handleSequenced
  split
  next duplicate =>
    refine ⟨holds.link, ⟨holds.kernel.ordered, holds.kernel.noLater, holds.kernel.met,
      holds.kernel.below, holds.kernel.given, holds.kernel.gone, holds.kernel.passed⟩, ?_⟩
    intro connection current
    cases current
    refine ⟨ordered.2, fun seq member => given seq (List.mem_cons_of_mem _ member), ?_,
      Or.inr ⟨all, met⟩, ?_⟩
    · intro other member
      cases carried other member with
      | inl handled => exact Or.inl handled
      | inr under =>
          cases List.mem_cons.mp under with
          | inl same => exact Or.inl (holds.kernel.passed met other member (same ▸ duplicate))
          | inr still => exact Or.inr still
    · intro seq member
      cases List.mem_append.mp member with
      | inl before => exact carries.acks seq before
      | inr now => exact Nat.le_of_eq (List.mem_singleton.mp now)
  next fresh =>
    have higher : bridge.lastSeq < frame.seq := Nat.not_le.mp fresh
    have handledNow : ∀ seq, bridge.Handled seq ∨ seq = frame.seq ↔
        (bridge.instanceId, seq) ∈ bridge.handled ++ [(bridge.instanceId, frame.seq)] := by
      intro seq
      rw [List.mem_append, List.mem_singleton, Prod.mk.injEq]
      exact or_congr_right ⟨fun same => ⟨rfl, same⟩, And.right⟩
    have below : ∀ other ∈ bridge.link.buffer, other.seq ≤ frame.seq →
        bridge.Handled other.seq ∨ other.seq = frame.seq := by
      intro other member low
      cases carried other member with
      | inl handled => exact Or.inl handled
      | inr under =>
          cases List.mem_cons.mp under with
          | inl same => exact Or.inr same
          | inr behind =>
              exact absurd (ordered.1 other.seq behind) (Nat.not_lt.mpr low)
    refine ⟨holds.link, ⟨?_, ?_, holds.kernel.met, ?_, ?_, ?_, ?_⟩, ?_⟩
    · change (bridge.handled ++ [(bridge.instanceId, frame.seq)]).Pairwise Later
      rw [List.pairwise_append]
      refine ⟨holds.kernel.ordered, List.pairwise_singleton _ _, fun entry member last newest => ?_⟩
      rw [List.mem_singleton.mp newest]
      have noLater := holds.kernel.noLater entry member
      by_cases same : entry.1 = bridge.instanceId
      · apply Or.inr
        refine ⟨same, Nat.lt_of_le_of_lt ?_ higher⟩
        have handled : bridge.Handled entry.2 := by
          rw [Handled, ← same]
          exact member
        exact (holds.kernel.below entry.2 handled).2
      · exact Or.inl (Nat.lt_of_le_of_ne noLater same)
    · intro entry member
      cases List.mem_append.mp member with
      | inl before => exact holds.kernel.noLater entry before
      | inr now =>
          have same := List.mem_singleton.mp now
          exact Nat.le_of_eq (congrArg Prod.fst same)
    · intro seq handled
      refine ⟨met, ?_⟩
      cases (handledNow seq).mpr handled with
      | inl before => exact Nat.le_trans (holds.kernel.below seq before).2 (Nat.le_of_lt higher)
      | inr now => exact Nat.le_of_eq now
    · intro _
      exact (given frame.seq List.mem_cons_self).2
    · intro other member
      exact (handledNow other.seq).mp (Or.inl (holds.kernel.gone other member))
    · intro _ other member low
      exact (handledNow other.seq).mp (below other member low)
    · intro connection current
      cases current
      refine ⟨ordered.2, fun seq member => given seq (List.mem_cons_of_mem _ member), ?_,
        Or.inr ⟨all, met⟩, ?_⟩
      · intro other member
        cases carried other member with
        | inl handled => exact Or.inl ((handledNow other.seq).mp (Or.inl handled))
        | inr under =>
            cases List.mem_cons.mp under with
            | inl same => exact Or.inl ((handledNow other.seq).mp (Or.inr same))
            | inr still => exact Or.inr still
      · intro seq member
        cases List.mem_append.mp member with
        | inl before => exact Nat.le_trans (carries.acks seq before) (Nat.le_of_lt higher)
        | inr now => exact Nat.le_of_eq (List.mem_singleton.mp now)

theorem step_holds {next : Bridge} {label : BridgeLabel} (holds : bridge.Holds)
    (moved : step bounds bridge label = some next) : next.Holds := by
  cases label with
  | enqueues turnId kind =>
      cases moved
      exact holds.enqueue turnId kind
  | opens =>
      simp only [step] at moved
      split at moved
      next =>
        cases moved
        exact holds.open
      next => cases moved
  | drops =>
      simp only [step] at moved
      split at moved
      next => cases moved
      next =>
        cases moved
        exact holds.drop
  | restarts =>
      cases moved
      exact holds.restart
  | deliversFrame =>
      simp only [step] at moved
      split at moved
      next frame later acks found =>
        cases moved
        cases frame with
        | hello instanceId => exact holds.hello found
        | sequenced frame => exact holds.sequenced found
      next => cases moved
  | deliversAck =>
      simp only [step] at moved
      split at moved
      next toKernel seq later found =>
        cases moved
        exact holds.acknowledge found
      next => cases moved

theorem reachable_holds (reached : (system bounds).Reachable bridge) : bridge.Holds :=
  (system bounds).invariant (fun _ started => started ▸ initial_holds)
    (fun _ _ _ holds moved => step_holds holds moved) reached

/-! ### What the bridge delivers -/

/-- With nothing in flight to the kernel, every frame kept has been handled. -/
theorem Holds.quiet (holds : bridge.Holds) {acks : List Nat}
    (found : bridge.connection = some { toKernel := [], acks := acks }) : bridge.AllHandled := by
  have carries := holds.connection _ found
  intro seq kept
  obtain ⟨above, below, stays⟩ := kept
  cases holds.link.accounted seq above below with
  | inl inBuffer =>
      obtain ⟨frame, member, rfl⟩ := inBuffer
      cases carries.carried frame member with
      | inl handled => exact handled
      | inr under => cases under
  | inr gone =>
      cases gone with
      | inl covered =>
          obtain ⟨frame, member, rfl⟩ := covered
          exact holds.kernel.gone frame member
      | inr evicted =>
          obtain ⟨frame, member, same⟩ := evicted
          exact absurd same (stays frame member)

/-- The process and what it has numbered, which deliveries to the kernel leave alone. -/
def SameProcess (bridge next : Bridge) : Prop :=
  next.instanceId = bridge.instanceId ∧ next.link = bridge.link

theorem delivers_one {frame : WireFrame} {later : List WireFrame} {acks : List Nat}
    (found : bridge.connection = some { toKernel := frame :: later, acks := acks }) :
    ∃ next more, step bounds bridge .deliversFrame = some next ∧ SameProcess bridge next ∧
      next.connection = some { toKernel := later, acks := more } := by
  have moved : step bounds bridge .deliversFrame =
      some (bridge.handleFrame { toKernel := later, acks := acks } frame) := by
    rw [step, found]
  cases frame with
  | hello instanceId => exact ⟨_, acks, moved, ⟨rfl, rfl⟩, rfl⟩
  | sequenced frame =>
      by_cases duplicate : frame.seq ≤ bridge.lastSeq
      · refine ⟨_, acks ++ [bridge.lastSeq], moved, ?_⟩
        rw [handleFrame, handleSequenced, if_pos duplicate]
        exact ⟨⟨rfl, rfl⟩, rfl⟩
      · refine ⟨_, acks ++ [frame.seq], moved, ?_⟩
        rw [handleFrame, handleSequenced, if_neg duplicate]
        exact ⟨⟨rfl, rfl⟩, rfl⟩

/-- A connection that stays up delivers what is in flight. -/
theorem delivers_all (toKernel : List WireFrame) {acks : List Nat} {bridge : Bridge}
    (found : bridge.connection = some { toKernel := toKernel, acks := acks }) :
    ∃ next more,
      (system bounds).run bridge (List.replicate toKernel.length .deliversFrame) = some next ∧
      SameProcess bridge next ∧ next.connection = some { toKernel := [], acks := more } := by
  induction toKernel generalizing bridge acks with
  | nil => exact ⟨bridge, acks, rfl, ⟨rfl, rfl⟩, found⟩
  | cons frame later ih =>
      obtain ⟨next, more, moved, same, still⟩ := @delivers_one bounds _ _ _ _ found
      obtain ⟨final, last, ran, sameFinal, empty⟩ := ih still
      refine ⟨final, last, ?_, ⟨sameFinal.1.trans same.1, sameFinal.2.trans same.2⟩, empty⟩
      rw [List.length_cons, List.replicate_succ, LabelledRun.System.run_cons _ _ moved]
      exact ran

/-- What the bridge owes in a state: nothing handled twice or out of order, nothing let go of
unhandled, what decides a Turn spared by the Turn's bound, and on a connection that stays up
everything the running process kept handled. -/
structure Delivers (bounds : LinkBounds) (bridge : Bridge) : Prop where
  ordered : bridge.handled.Pairwise Later
  acknowledged : ∀ frame ∈ bridge.link.acknowledged, bridge.Handled frame.seq
  spared : ∀ frame ∈ bridge.link.overTurn, frame.kind ∉
    [FrameKind.turnAccepted, .turnRejected, .turnUnknown, .turnEnded]
  drains : ∀ connection, bridge.connection = some connection → ∃ final,
    (system bounds).run bridge (List.replicate connection.toKernel.length .deliversFrame) =
        some final ∧
      SameProcess bridge final ∧ final.AllHandled ∧ final.connection.isSome = true

theorem bridge_delivers (reached : (system bounds).Reachable bridge) : bridge.Delivers bounds where
  ordered := (reachable_holds reached).kernel.ordered
  acknowledged := (reachable_holds reached).kernel.gone
  spared := fun frame member deciding => by
    have low := (reachable_holds reached).link.spared frame member
    cases kind : frame.kind <;> rw [kind] at low deciding <;> revert low deciding <;> decide
  drains := fun connection found => by
    obtain ⟨final, acks, ran, same, empty⟩ := delivers_all connection.toKernel found
    have holds := reachable_holds (reached.run _ ran)
    exact ⟨final, ran, same, holds.quiet empty, empty ▸ rfl⟩

/-! ### A restart -/

/-- Every number any process gave out, as far as the frame was not dropped for a bound. -/
def EveryProcess (numbered : List (Nat × Nat)) (bridge : Bridge) : Prop :=
  ∀ entry ∈ numbered, entry ∈ bridge.handled

theorem bridge_delivers_replayed :
    ∃ bridge, (system { maxPerTurn := 1, maxTotal := 4 }).run initial
        [.opens, .enqueues 7 .textDelta, .deliversFrame, .deliversFrame, .drops,
          .enqueues 7 .textDelta, .enqueues 7 .turnEnded, .opens] = some bridge ∧
      bridge.Delivers { maxPerTurn := 1, maxTotal := 4 } := by
  have runs : ((system { maxPerTurn := 1, maxTotal := 4 }).run initial
      [.opens, .enqueues 7 .textDelta, .deliversFrame, .deliversFrame, .drops,
        .enqueues 7 .textDelta, .enqueues 7 .turnEnded, .opens]).isSome = true := by
    decide +kernel
  obtain ⟨bridge, ran⟩ := Option.isSome_iff_exists.mp runs
  exact ⟨bridge, ran, bridge_delivers ⟨initial, _, rfl, ran⟩⟩

/-- A frame enqueued while the link is down, lost when agent-host restarts: no bound dropped
it, the last connection is up and has delivered everything, and it was never handled. -/
theorem restart_loses_frame :
    ∃ before bridge,
      (system { maxPerTurn := 256, maxTotal := 4096 }).run initial
        [.enqueues 7 .turnEnded] = some before ∧
      before.Kept 1 ∧
      (system { maxPerTurn := 256, maxTotal := 4096 }).run before
        [.restarts, .opens, .deliversFrame] = some bridge ∧
      bridge.connection = some { toKernel := [], acks := [] } ∧
      ¬ EveryProcess [(0, 1)] bridge := by
  refine ⟨_, _, rfl, ⟨Nat.one_pos, Nat.one_lt_two, nofun⟩, rfl, rfl, ?_⟩
  intro all
  cases all (0, 1) List.mem_cons_self

end Bridge
end NextTime.HostBridge
