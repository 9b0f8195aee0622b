import NextTime.Graph.Traverse

/-
What `traverse` returns, against the walks of the graph: where no walk comes back
to the anchor it is bounded breadth-first search, and else it is not.
-/

namespace NextTime.Graph

open BreadthFirst

section
variable (visible : Fact → Bool) (facts : List Fact) (input : TraverseInput)

/-- The Fact may be followed from the first Object to the second. -/
def FactFollows (fact : Fact) (start finish : Nat) : Prop :=
  fact ∈ facts ∧ traversable visible input fact = true ∧
    match input.along with
    | .out => fact.identity.sourceObjectId = start ∧ fact.identity.targetObjectId = finish
    | .inward => fact.identity.targetObjectId = start ∧ fact.identity.sourceObjectId = finish
    | .both =>
        (fact.identity.sourceObjectId = start ∧ fact.identity.targetObjectId = finish) ∨
          (fact.identity.targetObjectId = start ∧ fact.identity.sourceObjectId = finish)

/-- A walk of this many steps from the anchor. -/
def Reaches (steps objectId : Nat) : Prop :=
  Walk (FactFollows visible facts input) steps input.fromId objectId

/-- A walk of this many steps leaves the anchor and goes on along the Fact. -/
def UsedAfter (fact : Fact) (steps : Nat) : Prop :=
  ∃ start finish, Reaches visible facts input steps start ∧
    FactFollows visible facts input fact start finish

def traversedEdge (fact : Fact) (depth : Nat) : TraverseEdge where
  linkId := fact.id
  linkType := fact.identity.linkType
  sourceObjectId := fact.identity.sourceObjectId
  targetObjectId := fact.identity.targetObjectId
  depth := depth

/-- Every other Object within the depth, once and by distance, and every Fact such a walk uses,
once and with its smallest step number. -/
structure BoundedBreadthFirst (depth : Nat) (result : TraverseResult) : Prop where
  nodes : ∀ objectId, objectId ∈ result.nodes ↔
    objectId ≠ input.fromId ∧ ∃ steps ≤ depth, Reaches visible facts input steps objectId
  nodesOnce : result.nodes.Nodup
  byDistance : result.nodes.Pairwise fun first second =>
    ∀ steps, Reaches visible facts input steps second →
      ∃ fewer ≤ steps, Reaches visible facts input fewer first
  edges : ∀ edge, edge ∈ result.edges ↔ ∃ fact steps, edge = traversedEdge fact (steps + 1) ∧
    steps < depth ∧ UsedAfter visible facts input fact steps ∧
      ∀ fewer < steps, ¬ UsedAfter visible facts input fact fewer
  edgesOnce : (result.edges.map TraverseEdge.linkId).Nodup

/-- No walk within the depth comes back to the anchor. -/
def NoReturn (depth : Nat) : Prop :=
  ∀ steps, 1 ≤ steps → steps ≤ depth → ¬ Reaches visible facts input steps input.fromId

end

section
variable {visible : Fact → Bool} {facts : List Fact} {input : TraverseInput}

/-! ### The rows of the query -/

def rowTo (fact : Fact) (next : Nat) : WalkRow where
  linkId := fact.id
  linkType := fact.identity.linkType
  sourceObjectId := fact.identity.sourceObjectId
  targetObjectId := fact.identity.targetObjectId
  nextObjectId := next

theorem factFollows_iff {fact : Fact} {start finish : Nat} :
    FactFollows visible facts input fact start finish ↔
      fact ∈ facts ∧ traversable visible input fact = true ∧
        followedFrom input.along fact start = true ∧ nextObject fact start = finish := by
  rw [FactFollows]
  apply and_congr Iff.rfl
  apply and_congr Iff.rfl
  rw [nextObject]
  cases input.along with
  | out =>
      change _ ↔ decide (fact.identity.sourceObjectId = start) = true ∧ _
      rw [decide_eq_true_eq]
      constructor
      · intro both
        exact ⟨both.1, (if_pos both.1).trans both.2⟩
      · intro both
        rw [if_pos both.1] at both
        exact both
  | inward =>
      change _ ↔ decide (fact.identity.targetObjectId = start) = true ∧ _
      rw [decide_eq_true_eq]
      by_cases loop : fact.identity.sourceObjectId = start
      · rw [if_pos loop, loop]
        exact and_congr_right fun isTarget => by rw [isTarget]
      · rw [if_neg loop]
  | both =>
      change _ ↔ (decide (fact.identity.sourceObjectId = start) ||
        decide (fact.identity.targetObjectId = start)) = true ∧ _
      rw [Bool.or_eq_true, decide_eq_true_eq, decide_eq_true_eq]
      by_cases isSource : fact.identity.sourceObjectId = start
      · rw [if_pos isSource]
        constructor
        · intro followed
          cases followed with
          | inl forward => exact ⟨Or.inl isSource, forward.2⟩
          | inr backward =>
              exact ⟨Or.inl isSource, backward.1.trans (isSource.symm.trans backward.2)⟩
        · exact fun followed => Or.inl ⟨isSource, followed.2⟩
      · rw [if_neg isSource]
        constructor
        · intro followed
          cases followed with
          | inl forward => exact absurd forward.1 isSource
          | inr backward => exact ⟨Or.inr backward.1, backward.2⟩
        · intro followed
          cases followed.1 with
          | inl forward => exact absurd forward isSource
          | inr backward => exact Or.inr ⟨backward, followed.2⟩

theorem mem_walkFrom {row : WalkRow} {start : Nat} :
    row ∈ walkFrom visible facts input start ↔
      ∃ fact finish, FactFollows visible facts input fact start finish ∧ row = rowTo fact finish := by
  rw [walkFrom, List.mem_map]
  constructor
  · intro found
    obtain ⟨fact, member, same⟩ := found
    rw [List.mem_filter, Bool.and_eq_true] at member
    exact ⟨fact, nextObject fact start,
      factFollows_iff.mpr ⟨member.1, member.2.1, member.2.2, rfl⟩, same.symm⟩
  · intro found
    obtain ⟨fact, finish, follows, same⟩ := found
    obtain ⟨member, traversable, followed, next⟩ := factFollows_iff.mp follows
    refine ⟨fact, List.mem_filter.mpr ⟨member, ?_⟩, ?_⟩
    · rw [traversable, followed]
      rfl
    · rw [same, ← next]
      rfl

/-- The rows at a depth are the last steps of the walks of that length. -/
theorem mem_walkLevel {row : WalkRow} {level : Nat} :
    row ∈ walkLevel visible facts input level ↔
      ∃ fact start finish, Reaches visible facts input level start ∧
        FactFollows visible facts input fact start finish ∧ row = rowTo fact finish := by
  induction level generalizing row with
  | zero =>
      rw [walkLevel, mem_walkFrom]
      constructor
      · intro found
        obtain ⟨fact, finish, follows, same⟩ := found
        exact ⟨fact, input.fromId, finish, .stay _, follows, same⟩
      · intro found
        obtain ⟨fact, start, finish, reaches, follows, same⟩ := found
        exact ⟨fact, finish, Walk.zero_iff.mp reaches ▸ follows, same⟩
  | succ level ih =>
      rw [walkLevel, List.mem_flatMap]
      constructor
      · intro found
        obtain ⟨before, member, here⟩ := found
        obtain ⟨earlier, start, middle, reaches, followed, same⟩ := ih.mp member
        rw [same, mem_walkFrom] at here
        obtain ⟨fact, finish, follows, isRow⟩ := here
        exact ⟨fact, middle, finish, .onward reaches followed, follows, isRow⟩
      · intro found
        obtain ⟨fact, middle, finish, reaches, follows, same⟩ := found
        obtain ⟨start, earlier, walk, followed⟩ := Walk.succ_iff.mp reaches
        exact ⟨rowTo earlier middle, ih.mpr ⟨earlier, start, middle, walk, followed, rfl⟩,
          mem_walkFrom.mpr ⟨fact, finish, follows, same⟩⟩

theorem mem_walkRows {row : WalkRow} {rank depth : Nat} :
    (row, rank) ∈ walkRows visible facts input depth ↔
      ∃ level < depth, rank = level + 1 ∧ ∃ fact start finish,
        Reaches visible facts input level start ∧
          FactFollows visible facts input fact start finish ∧ row = rowTo fact finish := by
  rw [walkRows, List.mem_flatMap]
  constructor
  · intro found
    obtain ⟨level, isLevel, member⟩ := found
    obtain ⟨other, here, same⟩ := List.mem_map.mp member
    cases same
    exact ⟨level, List.mem_range.mp isLevel, rfl, mem_walkLevel.mp here⟩
  · intro found
    obtain ⟨level, isLevel, isRank, used⟩ := found
    exact ⟨level, List.mem_range.mpr isLevel,
      List.mem_map.mpr ⟨row, mem_walkLevel.mpr used, by rw [isRank]⟩⟩

theorem mem_buildTraverseQuery {entry : WalkRow × Nat} {depth : Nat} :
    entry ∈ buildTraverseQuery visible facts input depth ↔
      entry ∈ leastRanks (walkRows visible facts input depth) :=
  (List.perm_insertionSort rowBefore _).mem_iff

end

section
variable {visible : Fact → Bool} {facts : List Fact} {input : TraverseInput} {depth : Nat}

/-! ### Nodes -/

/-- A node of a row is reached in the row's depth, and a row leads to every node reached. -/
theorem reaches_iff_row {objectId steps : Nat} :
    (∃ row, (row, steps) ∈ walkRows visible facts input depth ∧ row.nextObjectId = objectId) ↔
      1 ≤ steps ∧ steps ≤ depth ∧ Reaches visible facts input steps objectId := by
  constructor
  · intro found
    obtain ⟨row, member, isNext⟩ := found
    obtain ⟨level, below, isRank, fact, start, finish, reaches, follows, same⟩ :=
      mem_walkRows.mp member
    rw [same] at isNext
    change finish = objectId at isNext
    rw [isRank]
    exact ⟨Nat.succ_pos level, below, isNext ▸ .onward reaches follows⟩
  · intro reached
    obtain ⟨positive, within, walk⟩ := reached
    obtain ⟨level, same⟩ := Nat.exists_eq_succ_of_ne_zero (Nat.ne_of_gt positive)
    rw [same] at walk within ⊢
    obtain ⟨start, fact, reaches, follows⟩ := Walk.succ_iff.mp walk
    exact ⟨rowTo fact objectId,
      mem_walkRows.mpr ⟨level, within, rfl, fact, start, objectId, reaches, follows, rfl⟩, rfl⟩

/-- The ranks the nodes are noted with. -/
def nodeRanks (visible : Fact → Bool) (facts : List Fact) (input : TraverseInput) (depth : Nat) :
    List (Nat × Nat) :=
  leastRanks ((buildTraverseQuery visible facts input depth).map fun row =>
    (row.1.nextObjectId, row.2))

theorem mem_nodeRanks {objectId rank : Nat}
    (member : (objectId, rank) ∈ nodeRanks visible facts input depth) :
    (1 ≤ rank ∧ rank ≤ depth ∧ Reaches visible facts input rank objectId) ∧
      ∀ steps, 1 ≤ steps → steps ≤ depth → Reaches visible facts input steps objectId →
        rank ≤ steps := by
  have least := leastRanks_least ((buildTraverseQuery visible facts input depth).map fun row =>
    (row.1.nextObjectId, row.2))
  have rows := leastRanks_least (walkRows visible facts input depth)
  constructor
  · obtain ⟨entry, isRow, same⟩ := List.mem_map.mp (least.met _ member)
    have noted := rows.met entry (mem_buildTraverseQuery.mp isRow)
    cases same
    exact reaches_iff_row.mp ⟨entry.1, noted, rfl⟩
  · intro steps positive within reaches
    obtain ⟨row, isRow, isNext⟩ := reaches_iff_row.mpr ⟨positive, within, reaches⟩
    obtain ⟨fewer, noted⟩ := rows.complete (row, steps) isRow
    have lower := rows.least (row, fewer) noted steps isRow
    have met : (objectId, fewer) ∈ (buildTraverseQuery visible facts input depth).map fun row =>
        (row.1.nextObjectId, row.2) := by
      apply List.mem_map.mpr
      exact ⟨(row, fewer), mem_buildTraverseQuery.mpr noted, by rw [isNext]⟩
    exact (least.least (objectId, rank) member fewer met).trans lower

theorem exists_nodeRank {objectId steps : Nat} (positive : 1 ≤ steps) (within : steps ≤ depth)
    (reaches : Reaches visible facts input steps objectId) :
    ∃ rank, (objectId, rank) ∈ nodeRanks visible facts input depth := by
  have least := leastRanks_least ((buildTraverseQuery visible facts input depth).map fun row =>
    (row.1.nextObjectId, row.2))
  obtain ⟨row, isRow, isNext⟩ := reaches_iff_row.mpr ⟨positive, within, reaches⟩
  obtain ⟨fewer, noted⟩ := (leastRanks_least (walkRows visible facts input depth)).complete _ isRow
  have met : (objectId, fewer) ∈ (buildTraverseQuery visible facts input depth).map fun row =>
      (row.1.nextObjectId, row.2) := by
    apply List.mem_map.mpr
    exact ⟨(row, fewer), mem_buildTraverseQuery.mpr noted, by rw [isNext]⟩
  exact least.complete (objectId, fewer) met

/-- The nodes are all the Objects a walk ends at, the anchor among them. -/
theorem mem_traverseNodes {objectId : Nat} :
    objectId ∈ traverseNodes (buildTraverseQuery visible facts input depth) ↔
      ∃ steps, 1 ≤ steps ∧ steps ≤ depth ∧ Reaches visible facts input steps objectId := by
  rw [traverseNodes, List.mem_map]
  constructor
  · intro found
    obtain ⟨entry, member, same⟩ := found
    have noted : entry ∈ nodeRanks visible facts input depth :=
      (List.perm_insertionSort nodeBefore _).mem_iff.mp member
    have reached := (mem_nodeRanks noted).1
    rw [same] at reached
    exact ⟨entry.2, reached⟩
  · intro found
    obtain ⟨steps, positive, within, reaches⟩ := found
    obtain ⟨rank, noted⟩ := exists_nodeRank positive within reaches
    exact ⟨(objectId, rank), (List.perm_insertionSort nodeBefore _).mem_iff.mpr noted, rfl⟩

theorem nodup_traverseNodes :
    (traverseNodes (buildTraverseQuery visible facts input depth)).Nodup := by
  have distinct := (leastRanks_least ((buildTraverseQuery visible facts input depth).map
    fun row => (row.1.nextObjectId, row.2))).distinct
  exact ((List.perm_insertionSort nodeBefore _).map Prod.fst).nodup_iff.mpr distinct

theorem traverseNodes_byDistance (noReturn : NoReturn visible facts input depth) :
    (traverseNodes (buildTraverseQuery visible facts input depth)).Pairwise fun first second =>
      ∀ steps, Reaches visible facts input steps second →
        ∃ fewer ≤ steps, Reaches visible facts input fewer first := by
  have total : Std.Total nodeBefore := by
    constructor
    intro first second
    rw [nodeBefore, nodeBefore]
    omega
  have transitive : IsTrans (Nat × Nat) nodeBefore := by
    constructor
    intro first second third
    rw [nodeBefore, nodeBefore, nodeBefore]
    omega
  have sorted := List.pairwise_insertionSort nodeBefore (nodeRanks visible facts input depth)
  rw [traverseNodes, List.pairwise_map]
  apply sorted.imp_of_mem
  intro first second isFirst isSecond before steps reaches
  have firstNoted : first ∈ nodeRanks visible facts input depth :=
    (List.perm_insertionSort nodeBefore _).mem_iff.mp isFirst
  have secondNoted : second ∈ nodeRanks visible facts input depth :=
    (List.perm_insertionSort nodeBefore _).mem_iff.mp isSecond
  obtain ⟨⟨_, _, firstReaches⟩, _⟩ := mem_nodeRanks firstNoted
  obtain ⟨⟨secondPositive, secondWithin, secondReaches⟩, secondLeast⟩ := mem_nodeRanks secondNoted
  have ranks : first.2 ≤ second.2 := by
    rw [nodeBefore] at before
    omega
  have atLeast : second.2 ≤ steps := by
    by_cases within : steps ≤ depth
    · apply secondLeast steps _ within reaches
      apply Nat.pos_of_ne_zero
      intro none
      rw [none] at reaches
      have isAnchor : input.fromId = second.1 := Walk.zero_iff.mp reaches
      rw [← isAnchor] at secondReaches
      exact noReturn second.2 secondPositive secondWithin secondReaches
    · omega
  exact ⟨first.2, ranks.trans atLeast, firstReaches⟩

end

section
variable {visible : Fact → Bool} {facts : List Fact} {input : TraverseInput} {depth : Nat}

/-! ### Edges -/

/-- With both directions, the first step of any walk can be taken back. -/
theorem no_second_step (noReturn : NoReturn visible facts input depth)
    (both : input.along = .both) {steps objectId : Nat} (below : steps + 1 < depth)
    (reaches : Reaches visible facts input (steps + 1) objectId) : False := by
  obtain ⟨fact, next, follows⟩ := Walk.first_step reaches
  have back : FactFollows visible facts input fact next input.fromId := by
    rw [FactFollows, both] at follows ⊢
    exact ⟨follows.1, follows.2.1, follows.2.2.symm.imp And.symm And.symm⟩
  have away : Reaches visible facts input 1 next := .onward (.stay _) follows
  apply noReturn 2 (by omega) (by omega)
  exact Walk.onward away back

theorem one_way (noReturn : NoReturn visible facts input depth) {fact : Fact}
    {first second start middle finish last : Nat} (firstBelow : first < depth)
    (secondBelow : second < depth) (firstReaches : Reaches visible facts input first start)
    (firstFollows : FactFollows visible facts input fact start finish)
    (secondReaches : Reaches visible facts input second middle)
    (secondFollows : FactFollows visible facts input fact middle last) : finish = last := by
  cases along : input.along with
  | out =>
      rw [FactFollows, along] at firstFollows secondFollows
      exact firstFollows.2.2.2.symm.trans secondFollows.2.2.2
  | inward =>
      rw [FactFollows, along] at firstFollows secondFollows
      exact firstFollows.2.2.2.symm.trans secondFollows.2.2.2
  | both =>
      cases first with
      | succ first => exact absurd firstReaches (no_second_step noReturn along firstBelow)
      | zero =>
          cases second with
          | succ second => exact absurd secondReaches (no_second_step noReturn along secondBelow)
          | zero =>
              have same : start = middle :=
                (Walk.zero_iff.mp firstReaches).symm.trans (Walk.zero_iff.mp secondReaches)
              obtain ⟨_, _, _, firstNext⟩ := factFollows_iff.mp firstFollows
              obtain ⟨_, _, _, secondNext⟩ := factFollows_iff.mp secondFollows
              rw [← firstNext, ← secondNext, same]

theorem fact_eq (distinct : (facts.map Fact.id).Nodup) {first second : Fact}
    (left : first ∈ facts) (right : second ∈ facts) (same : first.id = second.id) :
    first = second :=
  List.inj_on_of_nodup_map distinct left right same

/-- A Fact is in one row only. -/
theorem row_of_fact (distinct : (facts.map Fact.id).Nodup)
    (noReturn : NoReturn visible facts input depth) {first second : WalkRow} {rank other : Nat}
    (left : (first, rank) ∈ walkRows visible facts input depth)
    (right : (second, other) ∈ walkRows visible facts input depth)
    (same : first.linkId = second.linkId) : first = second := by
  obtain ⟨level, below, _, fact, start, finish, reaches, follows, isRow⟩ := mem_walkRows.mp left
  obtain ⟨otherLevel, otherBelow, _, otherFact, middle, last, otherReaches, otherFollows,
    isOther⟩ := mem_walkRows.mp right
  rw [isRow, isOther] at same ⊢
  have sameFact : fact = otherFact := fact_eq distinct follows.1 otherFollows.1 same
  rw [← sameFact] at otherFollows ⊢
  rw [one_way noReturn below otherBelow reaches follows otherReaches otherFollows]

theorem edges_once (distinct : (facts.map Fact.id).Nodup)
    (noReturn : NoReturn visible facts input depth) :
    (((buildTraverseQuery visible facts input depth).map edgeOf).map
      TraverseEdge.linkId).Nodup := by
  have rows := leastRanks_least (walkRows visible facts input depth)
  have listed := List.perm_insertionSort rowBefore (leastRanks (walkRows visible facts input depth))
  have keys : ((buildTraverseQuery visible facts input depth).map Prod.fst).Nodup :=
    (listed.map Prod.fst).nodup_iff.mpr rows.distinct
  rw [List.map_map]
  apply List.Nodup.map_on _ (List.Nodup.of_map Prod.fst keys)
  intro first left second right same
  have leftRow := rows.met first (mem_buildTraverseQuery.mp left)
  have rightRow := rows.met second (mem_buildTraverseQuery.mp right)
  exact List.inj_on_of_nodup_map keys left right
    (row_of_fact distinct noReturn leftRow rightRow same)

theorem mem_edges (distinct : (facts.map Fact.id).Nodup)
    (noReturn : NoReturn visible facts input depth) {edge : TraverseEdge} :
    edge ∈ (buildTraverseQuery visible facts input depth).map edgeOf ↔
      ∃ fact steps, edge = traversedEdge fact (steps + 1) ∧ steps < depth ∧
        UsedAfter visible facts input fact steps ∧
          ∀ fewer < steps, ¬ UsedAfter visible facts input fact fewer := by
  have rows := leastRanks_least (walkRows visible facts input depth)
  rw [List.mem_map]
  constructor
  · intro found
    obtain ⟨⟨row, rank⟩, member, same⟩ := found
    have noted := mem_buildTraverseQuery.mp member
    have met := rows.met _ noted
    obtain ⟨level, below, isRank, fact, start, finish, reaches, follows, isRow⟩ :=
      mem_walkRows.mp met
    refine ⟨fact, level, ?_, below, ⟨start, finish, reaches, follows⟩, ?_⟩
    · rw [← same, isRow, isRank]
      rfl
    · intro fewer lower used
      obtain ⟨middle, last, otherReaches, otherFollows⟩ := used
      have earlier : (rowTo fact last, fewer + 1) ∈ walkRows visible facts input depth :=
        mem_walkRows.mpr ⟨fewer, lower.trans below, rfl, fact, middle, last, otherReaches,
          otherFollows, rfl⟩
      have sameRow : rowTo fact last = row := by
        apply row_of_fact distinct noReturn earlier met
        rw [isRow]
        rfl
      rw [sameRow] at earlier
      have least := rows.least (row, rank) noted (fewer + 1) earlier
      change rank ≤ fewer + 1 at least
      omega
  · intro found
    obtain ⟨fact, steps, isEdge, below, ⟨start, finish, reaches, follows⟩, fewest⟩ := found
    have row : (rowTo fact finish, steps + 1) ∈ walkRows visible facts input depth :=
      mem_walkRows.mpr ⟨steps, below, rfl, fact, start, finish, reaches, follows, rfl⟩
    obtain ⟨rank, noted⟩ := rows.complete _ row
    have lower := rows.least (rowTo fact finish, rank) noted (steps + 1) row
    obtain ⟨level, _, isRank, otherFact, middle, last, otherReaches, otherFollows, isRow⟩ :=
      mem_walkRows.mp (rows.met _ noted)
    have sameFact : fact = otherFact :=
      fact_eq distinct follows.1 otherFollows.1 (congrArg WalkRow.linkId isRow)
    rw [← sameFact] at otherFollows
    have notFewer : ¬ level < steps :=
      fun fewer => fewest level fewer ⟨middle, last, otherReaches, otherFollows⟩
    change rank ≤ steps + 1 at lower
    refine ⟨(rowTo fact finish, rank), mem_buildTraverseQuery.mpr noted, ?_⟩
    rw [isEdge, show rank = steps + 1 by omega]
    rfl

/-! ### The result -/

theorem boundedBreadthFirst (distinct : (facts.map Fact.id).Nodup)
    (noReturn : NoReturn visible facts input depth) :
    BoundedBreadthFirst visible facts input depth
      ⟨traverseNodes (buildTraverseQuery visible facts input depth),
        (buildTraverseQuery visible facts input depth).map edgeOf⟩ where
  nodes objectId := by
    rw [mem_traverseNodes]
    constructor
    · intro found
      obtain ⟨steps, positive, within, reaches⟩ := found
      refine ⟨?_, steps, within, reaches⟩
      intro isAnchor
      exact noReturn steps positive within (isAnchor ▸ reaches)
    · intro found
      obtain ⟨other, steps, within, reaches⟩ := found
      refine ⟨steps, ?_, within, reaches⟩
      apply Nat.pos_of_ne_zero
      intro none
      rw [none] at reaches
      exact other (Walk.zero_iff.mp reaches).symm
  nodesOnce := nodup_traverseNodes
  byDistance := traverseNodes_byDistance noReturn
  edges _ := mem_edges distinct noReturn
  edgesOnce := edges_once distinct noReturn

theorem traverse_eq (valid : normalizeTraverseDepth input.depth = .ok depth) :
    traverse visible facts input =
      .ok ⟨traverseNodes (buildTraverseQuery visible facts input depth),
        (buildTraverseQuery visible facts input depth).map edgeOf⟩ := by
  rw [traverse, valid]
  rfl

/-- `traverse` is bounded breadth-first search exactly where no walk within the depth comes back
to the anchor. -/
theorem traverse_boundedBreadthFirst_iff (distinct : (facts.map Fact.id).Nodup)
    (valid : normalizeTraverseDepth input.depth = .ok depth) :
    ∃ result, traverse visible facts input = .ok result ∧
      (BoundedBreadthFirst visible facts input depth result ↔
        NoReturn visible facts input depth) := by
  refine ⟨_, traverse_eq valid, ?_⟩
  constructor
  · intro correct steps positive within reaches
    have member := mem_traverseNodes.mpr ⟨steps, positive, within, reaches⟩
    exact ((correct.nodes input.fromId).mp member).1 rfl
  · exact boundedBreadthFirst distinct

end

/-- An active Fact between two Objects. -/
def linkFact (id source target : Nat) : Fact where
  id := id
  identity := ⟨"near", source, target⟩
  properties := .obj []
  validUntil := none
  recordedAt := 0
  supersededAt := none
  invalidatedAt := none
  supersedesId := none
  activityId := 0
  assertedBy := 0
  observationId := none
  lastObservationId := none
  lastObservedAt := none

/-- Two Facts in a row, followed forwards. -/
theorem traverse_boundedBreadthFirst_iff_forwards :
    (traverse (fun _ => true) [linkFact 1 1 2, linkFact 2 2 3] ⟨1, some .out, none, some 2⟩).toOption
      = some ⟨[2, 3], [traversedEdge (linkFact 1 1 2) 1, traversedEdge (linkFact 2 2 3) 2]⟩ ∧
    ∃ result, traverse (fun _ => true) [linkFact 1 1 2, linkFact 2 2 3]
        ⟨1, some .out, none, some 2⟩ = .ok result ∧
      (BoundedBreadthFirst (fun _ => true) [linkFact 1 1 2, linkFact 2 2 3]
          ⟨1, some .out, none, some 2⟩ 2 result ↔
        NoReturn (fun _ => true) [linkFact 1 1 2, linkFact 2 2 3]
          ⟨1, some .out, none, some 2⟩ 2) :=
  ⟨by decide +kernel, traverse_boundedBreadthFirst_iff (by decide) rfl⟩

/-- One Fact followed there and back: the anchor is among the nodes and the Fact is listed twice. -/
theorem traverse_returns :
    ∃ result, traverse (fun _ => true) [linkFact 1 1 2] ⟨1, none, none, some 2⟩ = .ok result ∧
      result.nodes = [2, 1] ∧ result.edges.map TraverseEdge.linkId = [1, 1] ∧
        ¬ BoundedBreadthFirst (fun _ => true) [linkFact 1 1 2] ⟨1, none, none, some 2⟩ 2 result := by
  refine ⟨⟨[2, 1], [traversedEdge (linkFact 1 1 2) 1, traversedEdge (linkFact 1 1 2) 2]⟩,
    ?_, rfl, rfl, ?_⟩
  · rfl
  · intro correct
    have listed := (correct.nodes 1).mp (List.mem_cons_of_mem 2 List.mem_cons_self)
    exact listed.1 rfl

end NextTime.Graph
