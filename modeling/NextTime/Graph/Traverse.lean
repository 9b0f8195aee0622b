import Mathlib.Data.List.Sort
import NextTime.Library.BreadthFirst
import NextTime.Graph.FactStore

/-
`traverse`: the recursive query over active visible Facts, grouped with its
smallest depth, and the pass over its rows that collects the nodes.
-/

namespace NextTime.Graph

open BreadthFirst

inductive TraverseDirection
  | out
  | inward
  | both
deriving DecidableEq, Repr

structure TraverseInput where
  fromId : Nat
  direction : Option TraverseDirection
  linkType : Option String
  depth : Option Int
deriving DecidableEq, Repr

structure TraverseDepthError where
  depth : Int
deriving DecidableEq, Repr

structure TraverseEdge where
  linkId : Nat
  linkType : String
  sourceObjectId : Nat
  targetObjectId : Nat
  depth : Nat
deriving DecidableEq, Repr

structure TraverseResult where
  nodes : List Nat
  edges : List TraverseEdge
deriving DecidableEq, Repr

/-- The columns the query groups by. -/
structure WalkRow where
  linkId : Nat
  linkType : String
  sourceObjectId : Nat
  targetObjectId : Nat
  nextObjectId : Nat
deriving DecidableEq, Repr

/-- The default is 1, and 1 to 3 is allowed. -/
def normalizeTraverseDepth (depth : Option Int) : Except TraverseDepthError Nat :=
  let resolved := depth.getD 1
  if resolved < 1 ∨ resolved > 3 then throw ⟨resolved⟩ else pure resolved.toNat

/-- The row's Fact is followed from the Object. -/
def followedFrom (direction : TraverseDirection) (fact : Fact) (objectId : Nat) : Bool :=
  match direction with
  | .out => decide (fact.identity.sourceObjectId = objectId)
  | .inward => decide (fact.identity.targetObjectId = objectId)
  | .both =>
      decide (fact.identity.sourceObjectId = objectId) ||
        decide (fact.identity.targetObjectId = objectId)

/-- `case when source = … then target else source end`. -/
def nextObject (fact : Fact) (objectId : Nat) : Nat :=
  if fact.identity.sourceObjectId = objectId then fact.identity.targetObjectId
  else fact.identity.sourceObjectId

def walkRow (fact : Fact) (objectId : Nat) : WalkRow where
  linkId := fact.id
  linkType := fact.identity.linkType
  sourceObjectId := fact.identity.sourceObjectId
  targetObjectId := fact.identity.targetObjectId
  nextObjectId := nextObject fact objectId

section
variable (visible : Fact → Bool) (facts : List Fact) (input : TraverseInput)

def TraverseInput.along : TraverseDirection :=
  input.direction.getD .both

/-- Active, visible, and of the type asked for. -/
def traversable (fact : Fact) : Bool :=
  fact.active && input.linkType.all (fun type => decide (fact.identity.linkType = type)) &&
    visible fact

def walkFrom (objectId : Nat) : List WalkRow :=
  (facts.filter fun fact =>
    traversable visible input fact && followedFrom input.along fact objectId).map
      fun fact => walkRow fact objectId

/-- The rows of the recursive query at depth `level + 1`. -/
def walkLevel : Nat → List WalkRow
  | 0 => walkFrom visible facts input input.fromId
  | level + 1 =>
      (walkLevel level).flatMap fun row => walkFrom visible facts input row.nextObjectId

def walkRows (depth : Nat) : List (WalkRow × Nat) :=
  (List.range depth).flatMap fun level =>
    (walkLevel visible facts input level).map fun row => (row, level + 1)

/-- `order by depth, link_id`. -/
def rowBefore (first second : WalkRow × Nat) : Prop :=
  first.2 < second.2 ∨ (first.2 = second.2 ∧ first.1.linkId ≤ second.1.linkId)

instance : DecidableRel rowBefore :=
  fun _ _ => inferInstanceAs (Decidable (_ ∨ _))

def buildTraverseQuery (depth : Nat) : List (WalkRow × Nat) :=
  (leastRanks (walkRows visible facts input depth)).insertionSort rowBefore

def edgeOf (row : WalkRow × Nat) : TraverseEdge where
  linkId := row.1.linkId
  linkType := row.1.linkType
  sourceObjectId := row.1.sourceObjectId
  targetObjectId := row.1.targetObjectId
  depth := row.2

/-- By depth, then by id. -/
def nodeBefore (first second : Nat × Nat) : Prop :=
  first.2 < second.2 ∨ (first.2 = second.2 ∧ first.1 ≤ second.1)

instance : DecidableRel nodeBefore :=
  fun _ _ => inferInstanceAs (Decidable (_ ∨ _))

def traverseNodes (rows : List (WalkRow × Nat)) : List Nat :=
  ((leastRanks (rows.map fun row => (row.1.nextObjectId, row.2))).insertionSort nodeBefore).map
    Prod.fst

def traverse : Except TraverseDepthError TraverseResult := do
  let depth ← normalizeTraverseDepth input.depth
  let rows := buildTraverseQuery visible facts input depth
  pure ⟨traverseNodes rows, rows.map edgeOf⟩

end

end NextTime.Graph
