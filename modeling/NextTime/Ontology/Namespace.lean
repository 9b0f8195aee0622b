import NextTime.Library.JsonValue
import Mathlib.Data.List.MinMax
import Mathlib.Data.List.Nodup

/-
Ontology families, their versions, and the names their heads declare. The head
of a family is its highest published version; an ObjectType name and an
ActionType name belong to at most one head.
-/

namespace NextTime.Ontology

structure TypeDefinition where
  name : String
  declaration : JsonValue
deriving DecidableEq

structure OntologyDefinition where
  objectTypes : List TypeDefinition
  linkTypes : List TypeDefinition
  actionTypes : List TypeDefinition
deriving DecidableEq

inductive OntologyNamespaceKind
  | object
  | action
deriving DecidableEq, Repr

/-- `object:name` or `action:name`. -/
structure TypeKey where
  kind : OntologyNamespaceKind
  name : String
deriving DecidableEq, Repr

def OntologyDefinition.typeKeys (definition : OntologyDefinition) : List TypeKey :=
  (definition.objectTypes.map fun type => ⟨.object, type.name⟩) ++
    definition.actionTypes.map fun type => ⟨.action, type.name⟩

inductive OntologyStatus
  | draft
  | published
  | deprecated
deriving DecidableEq, Repr

structure OntologyVersionRow where
  id : Nat
  version : Nat
  status : OntologyStatus
  definition : OntologyDefinition
  proposedBy : Nat
  publishedBy : Option Nat
  baseVersion : Option Nat
deriving DecidableEq

/-! ### Heads -/

/-- `status = 'published'` and no published version of the family is higher. -/
def isHead (rows : List OntologyVersionRow) (row : OntologyVersionRow) : Bool :=
  decide (row.status = .published) &&
    rows.all fun other =>
      !(decide (other.id = row.id) && decide (other.status = .published)) ||
        decide (other.version ≤ row.version)

def loadPublishedOntologyHead (rows : List OntologyVersionRow) (id : Nat) :
    Option OntologyVersionRow :=
  rows.find? fun row => decide (row.id = id) && isHead rows row

def loadPublishedHeadVersion (rows : List OntologyVersionRow) (id : Nat) : Option Nat :=
  (loadPublishedOntologyHead rows id).map OntologyVersionRow.version

def loadOntologyVersion (rows : List OntologyVersionRow) (id version : Nat) :
    Option OntologyVersionRow :=
  rows.find? fun row => decide (row.id = id) && decide (row.version = version)

/-- `max(version)` of the family and 1; a new family starts at 1. -/
def nextOntologyVersion (rows : List OntologyVersionRow) : Option Nat → Nat
  | none => 1
  | some id =>
      ((rows.filter fun row => decide (row.id = id)).map OntologyVersionRow.version).foldr max 0 + 1

/-- The heads of every family but the candidate's. -/
def otherHeads (rows : List OntologyVersionRow) (candidateId : Option Nat) :
    List (Nat × OntologyDefinition) :=
  (rows.filter fun row => isHead rows row && decide (some row.id ≠ candidateId)).map fun row =>
    (row.id, row.definition)

/-! ### Conflicts -/

structure OntologyNamespaceConflict where
  kind : OntologyNamespaceKind
  name : String
  /-- None: the candidate's own family, which does not exist yet. -/
  ontologyId : Option Nat
deriving DecidableEq, Repr

/-- `owners.set` for every name of every other family: the last one stands. -/
def ownersOf (candidateId : Option Nat) (others : List (Nat × OntologyDefinition)) :
    List (TypeKey × Nat) :=
  ((others.filter fun family => decide (some family.1 ≠ candidateId)).flatMap fun family =>
    family.2.typeKeys.map fun key => (key, family.1)).reverse

/-- One name after another, with the names the candidate has declared so far. -/
def checkNames (candidateId : Option Nat) (owners : List (TypeKey × Nat)) :
    List TypeKey → List TypeKey → List OntologyNamespaceConflict
  | _, [] => []
  | own, key :: keys =>
      let conflicts :=
        match owners.lookup key with
        | some owner => [⟨key.kind, key.name, some owner⟩]
        | none => if key ∈ own then [⟨key.kind, key.name, candidateId⟩] else []
      conflicts ++ checkNames candidateId owners (key :: own) keys

def findOntologyNamespaceConflicts (candidateId : Option Nat) (candidate : OntologyDefinition)
    (others : List (Nat × OntologyDefinition)) : List OntologyNamespaceConflict :=
  checkNames candidateId (ownersOf candidateId others) [] candidate.typeKeys

theorem checkNames_nil {candidateId : Option Nat} {owners : List (TypeKey × Nat)}
    {own keys : List TypeKey} :
    checkNames candidateId owners own keys = [] ↔
      (∀ key ∈ keys, owners.lookup key = none ∧ key ∉ own) ∧ keys.Nodup := by
  induction keys generalizing own with
  | nil => simp only [checkNames, List.not_mem_nil, false_implies, implies_true, List.nodup_nil,
      and_self]
  | cons key keys ih =>
      rw [checkNames, List.append_eq_nil_iff, ih, List.nodup_cons]
      have here : (match owners.lookup key with
          | some owner => [(⟨key.kind, key.name, some owner⟩ : OntologyNamespaceConflict)]
          | none => if key ∈ own then [⟨key.kind, key.name, candidateId⟩] else []) = [] ↔
          owners.lookup key = none ∧ key ∉ own := by
        cases owners.lookup key with
        | some owner => simp only [reduceCtorEq, false_and]
        | none => simp only [ite_eq_right_iff, reduceCtorEq, imp_false, true_and]
      rw [here]
      constructor
      · intro checked
        obtain ⟨first, later, distinct⟩ := checked
        refine ⟨?_, ?_, distinct⟩
        · intro other member
          cases List.mem_cons.mp member with
          | inl same => exact same ▸ first
          | inr rest =>
              have apart := later other rest
              exact ⟨apart.1, fun known => apart.2 (List.mem_cons_of_mem _ known)⟩
        · intro again
          exact (later key again).2 List.mem_cons_self
      · intro checked
        obtain ⟨every, apart, distinct⟩ := checked
        refine ⟨every key List.mem_cons_self, ?_, distinct⟩
        intro other member
        have known := every other (List.mem_cons_of_mem _ member)
        refine ⟨known.1, ?_⟩
        intro declared
        cases List.mem_cons.mp declared with
        | inl same => exact apart (same ▸ member)
        | inr rest => exact known.2 rest

theorem lookup_ownersOf_none {candidateId : Option Nat} {others : List (Nat × OntologyDefinition)}
    {key : TypeKey} :
    (ownersOf candidateId others).lookup key = none ↔
      ∀ family ∈ others, some family.1 ≠ candidateId → key ∉ family.2.typeKeys := by
  rw [List.lookup_eq_none_iff, ownersOf]
  constructor
  · intro free family member other declared
    have owned : (key, family.1) ∈
        ((others.filter fun family => decide (some family.1 ≠ candidateId)).flatMap fun family =>
          family.2.typeKeys.map fun key => (key, family.1)).reverse := by
      rw [List.mem_reverse, List.mem_flatMap]
      exact ⟨family, List.mem_filter.mpr ⟨member, decide_eq_true other⟩,
        List.mem_map_of_mem declared⟩
    have different := free _ owned
    exact bne_iff_ne.mp different rfl
  · intro free owned member
    rw [List.mem_reverse, List.mem_flatMap] at member
    obtain ⟨family, member, declared⟩ := member
    obtain ⟨member, other⟩ := List.mem_filter.mp member
    obtain ⟨known, declared, same⟩ := List.mem_map.mp declared
    apply bne_iff_ne.mpr
    intro equal
    rw [← same] at equal
    exact free family member (of_decide_eq_true other) (equal ▸ declared)

/-- A candidate conflicts with nothing when it declares each name once, and none of another
family's. -/
theorem findOntologyNamespaceConflicts_nil {candidateId : Option Nat}
    {candidate : OntologyDefinition} {others : List (Nat × OntologyDefinition)} :
    findOntologyNamespaceConflicts candidateId candidate others = [] ↔
      (∀ family ∈ others, some family.1 ≠ candidateId →
        family.2.typeKeys.Disjoint candidate.typeKeys) ∧ candidate.typeKeys.Nodup := by
  rw [findOntologyNamespaceConflicts, checkNames_nil]
  constructor
  · intro free
    refine ⟨?_, free.2⟩
    intro family member other key declared again
    exact lookup_ownersOf_none.mp (free.1 key again).1 family member other declared
  · intro free
    refine ⟨?_, free.2⟩
    intro key declared
    refine ⟨?_, List.not_mem_nil⟩
    apply lookup_ownersOf_none.mpr
    intro family member other owned
    exact free.1 family member other owned declared

end NextTime.Ontology
