import Mathlib.Data.List.Basic

/-
agent-host's end of the link to the kernel: every frame it sends gets the next
number and is kept until the kernel acknowledges it, within a bound per Turn and
one for all. What a frame says beyond its kind and Turn is left out.
-/

namespace NextTime.HostBridge

inductive FrameKind
  | turnAccepted
  | turnRejected
  | turnUnknown
  | textDelta
  | toolCallStarted
  | toolCallEnded
  | message
  | turnEnded
deriving DecidableEq, Repr

/-- Which of a Turn's kept frames goes first when it is over its bound. -/
def evictionRank : FrameKind → Nat
  | .turnAccepted | .turnRejected | .turnUnknown => 2
  | .textDelta => 0
  | .toolCallStarted | .toolCallEnded | .message => 1
  | .turnEnded => 2

structure SequencedFrame where
  seq : Nat
  turnId : Nat
  kind : FrameKind
deriving DecidableEq, Repr

structure LinkBounds where
  maxPerTurn : Nat
  maxTotal : Nat
deriving DecidableEq, Repr

/-- What one agent-host process keeps. -/
structure KernelLink where
  buffer : List SequencedFrame
  nextSeq : Nat
  /-- The frames dropped for a bound, and those an acknowledgement covered; nothing reads them. -/
  overTurn : List SequencedFrame
  overAll : List SequencedFrame
  acknowledged : List SequencedFrame
deriving DecidableEq, Repr

namespace KernelLink

def fresh : KernelLink where
  buffer := []
  nextSeq := 1
  overTurn := []
  overAll := []
  acknowledged := []

/-- The Turn's oldest frame of the lowest rank that may be dropped. -/
def victim (turnId : Nat) (buffer : List SequencedFrame) : Option SequencedFrame :=
  (buffer.find? fun frame => decide (frame.turnId = turnId) && evictionRank frame.kind == 0).or
    (buffer.find? fun frame => decide (frame.turnId = turnId) && evictionRank frame.kind == 1)

/-- The first loop of `enforceBounds`, at most as often as the Turn is over its bound. -/
def evictTurn (turnId : Nat) : Nat → KernelLink → KernelLink
  | 0, link => link
  | excess + 1, link =>
      match victim turnId link.buffer with
      | none => link
      | some frame =>
          evictTurn turnId excess
            { link with
              buffer := link.buffer.erase frame
              overTurn := link.overTurn ++ [frame] }

def ofTurn (turnId : Nat) (buffer : List SequencedFrame) : Nat :=
  (buffer.filter fun frame => decide (frame.turnId = turnId)).length

/-- The second loop: the oldest go. -/
def evictOldest (bounds : LinkBounds) (link : KernelLink) : KernelLink :=
  let excess := link.buffer.length - bounds.maxTotal
  { link with
    buffer := link.buffer.drop excess
    overAll := link.overAll ++ link.buffer.take excess }

def enforceBounds (bounds : LinkBounds) (turnId : Nat) (link : KernelLink) : KernelLink :=
  (evictTurn turnId (ofTurn turnId link.buffer - bounds.maxPerTurn) link).evictOldest bounds

def sequenced (link : KernelLink) (turnId : Nat) (kind : FrameKind) : SequencedFrame where
  seq := link.nextSeq
  turnId := turnId
  kind := kind

def enqueue (bounds : LinkBounds) (turnId : Nat) (kind : FrameKind) (link : KernelLink) :
    KernelLink :=
  { link with
    nextSeq := link.nextSeq + 1
    buffer := link.buffer ++ [link.sequenced turnId kind] }.enforceBounds bounds turnId

def acknowledge (seq : Nat) (link : KernelLink) : KernelLink :=
  { link with
    buffer := link.buffer.dropWhile fun frame => decide (frame.seq ≤ seq)
    acknowledged := link.acknowledged ++
      link.buffer.takeWhile fun frame => decide (frame.seq ≤ seq) }

/-! ### What a link keeps -/

/-- In order, numbered from 1, and every number given out is accounted for. -/
structure Numbered (link : KernelLink) : Prop where
  ordered : link.buffer.Pairwise fun frame later => frame.seq < later.seq
  positive : ∀ frame ∈ link.buffer, 0 < frame.seq
  given : ∀ frame ∈ link.buffer, frame.seq < link.nextSeq
  accounted : ∀ seq, 0 < seq → seq < link.nextSeq →
    (∃ frame ∈ link.buffer, frame.seq = seq) ∨ (∃ frame ∈ link.acknowledged, frame.seq = seq) ∨
      ∃ frame ∈ link.overTurn ++ link.overAll, frame.seq = seq
  started : 0 < link.nextSeq
  spared : ∀ frame ∈ link.overTurn, evictionRank frame.kind < 2

theorem fresh_numbered : fresh.Numbered where
  ordered := List.Pairwise.nil
  positive := nofun
  given := nofun
  accounted := fun _ above below => absurd below (Nat.not_lt.mpr above)
  started := Nat.one_pos
  spared := nofun

theorem victim_some {turnId : Nat} {buffer : List SequencedFrame} {frame : SequencedFrame}
    (found : victim turnId buffer = some frame) :
    frame ∈ buffer ∧ frame.turnId = turnId ∧ evictionRank frame.kind < 2 := by
  have either : ∀ rank, rank < 2 → (buffer.find? fun frame => decide (frame.turnId = turnId) &&
      evictionRank frame.kind == rank) = some frame →
        frame ∈ buffer ∧ frame.turnId = turnId ∧ evictionRank frame.kind < 2 := by
    intro rank low chosen
    have judged := List.find?_some chosen
    rw [Bool.and_eq_true, decide_eq_true_iff, beq_iff_eq] at judged
    exact ⟨List.mem_of_find?_eq_some chosen, judged.1, judged.2 ▸ low⟩
  rw [victim, Option.or_eq_some_iff] at found
  cases found with
  | inl delta => exact either 0 Nat.two_pos delta
  | inr other => exact either 1 Nat.one_lt_two other.2

/-- What evictions do: the buffer thins out, and what left it is in the record of them. -/
structure Thins (link next : KernelLink) : Prop where
  sublist : next.buffer.Sublist link.buffer
  nextSeq : next.nextSeq = link.nextSeq
  acknowledged : next.acknowledged = link.acknowledged
  recorded : ∀ frame ∈ link.buffer, frame ∈ next.buffer ∨ frame ∈ next.overTurn ++ next.overAll
  kept : ∀ frame ∈ link.overTurn ++ link.overAll, frame ∈ next.overTurn ++ next.overAll
  spared : ∀ frame ∈ next.overTurn, frame ∈ link.overTurn ∨ evictionRank frame.kind < 2

theorem Thins.refl (link : KernelLink) : link.Thins link where
  sublist := List.Sublist.refl _
  nextSeq := rfl
  acknowledged := rfl
  recorded := fun _ => Or.inl
  kept := fun _ => id
  spared := fun _ => Or.inl

theorem Thins.trans {link middle next : KernelLink} (first : link.Thins middle)
    (second : middle.Thins next) : link.Thins next where
  sublist := second.sublist.trans first.sublist
  nextSeq := second.nextSeq.trans first.nextSeq
  acknowledged := second.acknowledged.trans first.acknowledged
  recorded := fun frame member => by
    cases first.recorded frame member with
    | inl inBuffer => exact second.recorded frame inBuffer
    | inr evicted => exact Or.inr (second.kept frame evicted)
  kept := fun frame member => second.kept frame (first.kept frame member)
  spared := fun frame member => by
    cases second.spared frame member with
    | inl before => exact first.spared frame before
    | inr low => exact Or.inr low

theorem evictTurn_thins (turnId excess : Nat) (link : KernelLink) :
    link.Thins (evictTurn turnId excess link) := by
  induction excess generalizing link with
  | zero => exact Thins.refl link
  | succ excess ih =>
      rw [evictTurn]
      split
      next => exact Thins.refl link
      next frame found =>
        obtain ⟨member, _, low⟩ := victim_some found
        refine Thins.trans ?_ (ih _)
        refine ⟨List.erase_sublist, rfl, rfl, fun other inBuffer => ?_, fun other evicted => ?_,
          fun other evicted => ?_⟩
        · by_cases same : other = frame
          · apply Or.inr
            rw [same, List.mem_append, List.mem_append]
            exact Or.inl (Or.inr List.mem_cons_self)
          · exact Or.inl ((List.mem_erase_of_ne same).mpr inBuffer)
        · rw [List.mem_append] at evicted ⊢
          exact evicted.imp_left (List.mem_append_left _)
        · cases List.mem_append.mp evicted with
          | inl before => exact Or.inl before
          | inr now => exact Or.inr (List.mem_singleton.mp now ▸ low)

theorem evictOldest_thins (bounds : LinkBounds) (link : KernelLink) :
    link.Thins (link.evictOldest bounds) where
  sublist := List.drop_sublist _ _
  nextSeq := rfl
  acknowledged := rfl
  recorded := fun frame member => by
    rw [← List.take_append_drop (link.buffer.length - bounds.maxTotal) link.buffer,
      List.mem_append] at member
    cases member with
    | inl gone =>
        apply Or.inr
        change frame ∈ link.overTurn ++ (link.overAll ++ _)
        rw [List.mem_append, List.mem_append]
        exact Or.inr (Or.inr gone)
    | inr stays => exact Or.inl stays
  kept := fun frame member => by
    change frame ∈ link.overTurn ++ (link.overAll ++ _)
    rw [← List.append_assoc]
    exact List.mem_append_left _ member
  spared := fun _ => Or.inl

theorem enforceBounds_thins (bounds : LinkBounds) (turnId : Nat) (link : KernelLink) :
    link.Thins (link.enforceBounds bounds turnId) :=
  (evictTurn_thins turnId _ link).trans (evictOldest_thins bounds _)

theorem Numbered.thins {link next : KernelLink} (numbered : link.Numbered)
    (thins : link.Thins next) : next.Numbered where
  ordered := numbered.ordered.sublist thins.sublist
  positive := fun frame member => numbered.positive frame (thins.sublist.subset member)
  given := fun frame member => by
    rw [thins.nextSeq]
    exact numbered.given frame (thins.sublist.subset member)
  accounted := fun seq above below => by
    rw [thins.nextSeq] at below
    rw [thins.acknowledged]
    cases numbered.accounted seq above below with
    | inl inBuffer =>
        obtain ⟨frame, member, same⟩ := inBuffer
        cases thins.recorded frame member with
        | inl stays => exact Or.inl ⟨frame, stays, same⟩
        | inr evicted => exact Or.inr (Or.inr ⟨frame, evicted, same⟩)
    | inr gone =>
        cases gone with
        | inl covered => exact Or.inr (Or.inl covered)
        | inr evicted =>
            obtain ⟨frame, member, same⟩ := evicted
            exact Or.inr (Or.inr ⟨frame, thins.kept frame member, same⟩)
  started := thins.nextSeq ▸ numbered.started
  spared := fun frame member => by
    cases thins.spared frame member with
    | inl before => exact numbered.spared frame before
    | inr low => exact low

/-- The link as it is before the bounds are enforced. -/
def pushed (link : KernelLink) (turnId : Nat) (kind : FrameKind) : KernelLink :=
  { link with
    nextSeq := link.nextSeq + 1
    buffer := link.buffer ++ [link.sequenced turnId kind] }

theorem Numbered.pushed {link : KernelLink} (numbered : link.Numbered) (turnId : Nat)
    (kind : FrameKind) : (link.pushed turnId kind).Numbered where
  ordered := by
    change (link.buffer ++ [link.sequenced turnId kind]).Pairwise _
    rw [List.pairwise_append]
    refine ⟨numbered.ordered, List.pairwise_singleton _ _, fun frame member other last => ?_⟩
    rw [List.mem_singleton.mp last]
    exact numbered.given frame member
  positive := fun frame member => by
    cases List.mem_append.mp member with
    | inl before => exact numbered.positive frame before
    | inr last =>
        rw [List.mem_singleton.mp last]
        exact numbered.started
  given := fun frame member => by
    cases List.mem_append.mp member with
    | inl before => exact Nat.lt_succ_of_lt (numbered.given frame before)
    | inr last =>
        rw [List.mem_singleton.mp last]
        exact Nat.lt_succ_self _
  accounted := fun seq above below => by
    by_cases newest : seq = link.nextSeq
    · refine Or.inl ⟨link.sequenced turnId kind, ?_, newest.symm⟩
      exact List.mem_append_right _ List.mem_cons_self
    · have earlier : seq < link.nextSeq := by
        change seq < link.nextSeq + 1 at below
        omega
      refine (numbered.accounted seq above earlier).imp_left fun held => ?_
      obtain ⟨frame, member, same⟩ := held
      exact ⟨frame, List.mem_append_left _ member, same⟩
  started := Nat.succ_pos _
  spared := numbered.spared

theorem Numbered.acknowledge {link : KernelLink} (numbered : link.Numbered) (seq : Nat) :
    (link.acknowledge seq).Numbered where
  ordered := numbered.ordered.sublist (List.dropWhile_sublist _)
  positive := fun frame member =>
    numbered.positive frame ((List.dropWhile_sublist _).subset member)
  given := fun frame member => numbered.given frame ((List.dropWhile_sublist _).subset member)
  accounted := fun number above below => by
    cases numbered.accounted number above below with
    | inl inBuffer =>
        obtain ⟨frame, member, same⟩ := inBuffer
        have parts := @List.takeWhile_append_dropWhile _
          (fun frame : SequencedFrame => decide (frame.seq ≤ seq)) link.buffer
        rw [← parts, List.mem_append] at member
        cases member with
        | inl covered => exact Or.inr (Or.inl ⟨frame, List.mem_append_right _ covered, same⟩)
        | inr stays => exact Or.inl ⟨frame, stays, same⟩
    | inr gone =>
        apply Or.inr
        refine gone.imp_left fun covered => ?_
        obtain ⟨frame, member, same⟩ := covered
        exact ⟨frame, List.mem_append_left _ member, same⟩
  started := numbered.started
  spared := numbered.spared

end KernelLink
end NextTime.HostBridge
