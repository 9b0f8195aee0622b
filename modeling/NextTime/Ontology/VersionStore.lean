import NextTime.Library.ReadCommitted
import NextTime.Library.RelyGuarantee
import NextTime.Ontology.Namespace

/-
`ontology_versions` and the records of ChangePlan segments, under READ
COMMITTED, with the advisory locks of the workspace's ontology. A statement sees
what is committed and its transaction's own writes.
-/

namespace NextTime.Ontology

open Interleaving

structure OntologyVersionRef where
  version : Nat
  definitionDigest : String
deriving DecidableEq, Repr

/-- An applied `ontology_version` item, as `change_items` stores it. -/
structure StoredOntologyItem where
  ontologyId : Nat
  before : Option OntologyVersionRef
  after : OntologyVersionRef
deriving DecidableEq, Repr

inductive ChangeSegmentStatus
  | applied
  | rolledBack
deriving DecidableEq, Repr

structure ChangeSegmentRow where
  status : ChangeSegmentStatus
  /-- By ordinal. -/
  items : List StoredOntologyItem
deriving DecidableEq, Repr

inductive OntologyKey
  | version (id version : Nat)
  | segment (id : Nat)
deriving DecidableEq, Repr

@[reducible]
def OntologyKey.Row : OntologyKey → Type
  | .version _ _ => OntologyVersionRow
  | .segment _ => ChangeSegmentRow

/-- Every row of the database, or none. -/
abbrev OntologyRows := ∀ key : OntologyKey, Option key.Row

structure OntologyStore where
  rows : ReadCommitted.Store Nat OntologyKey OntologyKey.Row
  /-- Every key a version was ever inserted under. -/
  known : List (Nat × Nat)
  /-- `pg_advisory_xact_lock` of the workspace's ontology namespace. -/
  namespaceHolder : Option Nat
  /-- A family whose lock is held, and by whom. -/
  familyHolders : List (Nat × Nat)

/-- The versions among the rows. -/
def versionsOf (known : List (Nat × Nat)) (rows : OntologyRows) : List OntologyVersionRow :=
  known.filterMap fun key => rows (.version key.1 key.2)

inductive OntologyQuery
  | publishedHeadVersion (id : Nat)
  | publishedHead (id : Nat)
  | nextVersion (id : Nat)
  | version (id version : Nat)
  | draft (id version proposedBy : Nat)
  | headsOfOthers (candidateId : Option Nat)
  | segmentStatus (id : Nat)
  | segmentItems (id : Nat)
deriving DecidableEq, Repr

@[reducible]
def OntologyQuery.Answer : OntologyQuery → Type
  | .publishedHeadVersion _ => Option Nat
  | .publishedHead _ | .version _ _ | .draft _ _ _ => Option OntologyVersionRow
  | .nextVersion _ => Nat
  | .headsOfOthers _ => List (Nat × OntologyDefinition)
  | .segmentStatus _ => Option ChangeSegmentStatus
  | .segmentItems _ => List StoredOntologyItem

def OntologyQuery.answer (rows : OntologyRows) (versions : List OntologyVersionRow) :
    (query : OntologyQuery) → query.Answer
  | .publishedHeadVersion id => loadPublishedHeadVersion versions id
  | .publishedHead id => loadPublishedOntologyHead versions id
  | .nextVersion id => nextOntologyVersion versions (some id)
  | .version id number => loadOntologyVersion versions id number
  | .draft id number proposedBy =>
      (loadOntologyVersion versions id number).filter fun row =>
        decide (row.status = .draft) && decide (row.proposedBy = proposedBy)
  | .headsOfOthers candidateId => otherHeads versions candidateId
  | .segmentStatus id => (rows (.segment id)).map ChangeSegmentRow.status
  | .segmentItems id => ((rows (.segment id)).map ChangeSegmentRow.items).getD []

inductive OntologyStatement
  | lockNamespace
  | lockFamily (id : Nat)
  | query (query : OntologyQuery)
  | insertVersion (row : OntologyVersionRow)
  | publishDraft (id version publishedBy : Nat)
  | deprecateVersion (id version : Nat)
  | lockSegment (id : Nat)
  | insertSegment (id : Nat)
  | insertItem (segmentId : Nat) (item : StoredOntologyItem)
  | markRolledBack (segmentId : Nat)
  | commits
  | rollsBack

@[reducible]
def OntologyStatement.Answer : OntologyStatement → Type
  | .query asked => asked.Answer
  | .publishDraft _ _ _ => Option OntologyVersionRow
  | .deprecateVersion _ _ => Bool
  | _ => Unit

inductive OntologyError
  | database
  | constraint
  | draftNotFound
  | baseMoved
  | namespaceConflict (conflicts : List OntologyNamespaceConflict)
  | segmentNotFound
  | segmentRolledBack
  | rollbackConflict
  | notConfirmed
  | planChanged
  | invalidSegment
  | notPublished
  | unexpectedHead
deriving DecidableEq, Repr

/-- What the world decides about a statement: that it fails. -/
inductive OntologyInput
  | proceeds
  | fails
deriving DecidableEq, Repr

/-- `ontology_versions_base_before_version`. -/
def OntologyVersionRow.baseBelow (row : OntologyVersionRow) : Bool :=
  row.baseVersion.all fun base => decide (base < row.version)

def OntologyVersionRow.key (row : OntologyVersionRow) : OntologyKey :=
  .version row.id row.version

/-- `update … where status = 'draft' and proposed_by = …`. -/
def OntologyVersionRow.publishable (publishedBy : Nat) (row : OntologyVersionRow) : Bool :=
  decide (row.status = .draft) && decide (row.proposedBy = publishedBy)

def OntologyVersionRow.publish (publishedBy : Nat) (row : OntologyVersionRow) :
    OntologyVersionRow :=
  { row with status := .published, publishedBy := some publishedBy }

def OntologyVersionRow.deprecate (row : OntologyVersionRow) : OntologyVersionRow :=
  { row with status := .deprecated }

namespace OntologyStore

variable (store : OntologyStore)

def withRows (rows : ReadCommitted.Store Nat OntologyKey OntologyKey.Row) : OntologyStore :=
  { store with rows := rows }

def release (thread : Nat) : OntologyStore :=
  { store with
    namespaceHolder := if store.namespaceHolder = some thread then none else store.namespaceHolder
    familyHolders := store.familyHolders.filter fun held => decide (held.2 ≠ thread) }

def rollback (thread : Nat) : OntologyStore :=
  (store.withRows (store.rows.rollback thread)).release thread

def commit (thread : Nat) : OntologyStore :=
  (store.withRows (store.rows.commit thread)).release thread

/-- A statement that does not fail; none while it waits. -/
def proceed (thread : Nat) :
    (statement : OntologyStatement) →
      Option (OntologyStore × Except OntologyError statement.Answer)
  | .lockNamespace =>
      if store.namespaceHolder.all fun holder => decide (holder = thread) then
        some ({ store with namespaceHolder := some thread }, .ok ())
      else none
  | .lockFamily id =>
      if store.familyHolders.any fun held => decide (held.1 = id) && decide (held.2 ≠ thread) then
        none
      else some ({ store with familyHolders := (id, thread) :: store.familyHolders }, .ok ())
  | .query query =>
      some (store, .ok (query.answer (store.rows.view thread)
        (versionsOf store.known (store.rows.view thread))))
  | .insertVersion row =>
      if row.baseBelow then
        (store.rows.insertRow thread (.version row.id row.version) row).map fun moved =>
          if moved.2 then
            ({ store with
                rows := moved.1
                known := store.known.insert (row.id, row.version) }, .ok ())
          else (store, .error .constraint)
      else some (store, .error .constraint)
  | .publishDraft id version publishedBy =>
      (store.rows.updateWhere thread (.version id version)
        (OntologyVersionRow.publishable publishedBy)
        (OntologyVersionRow.publish publishedBy)).map fun moved =>
          (store.withRows moved.1,
            .ok (if moved.2 then moved.1.view thread (.version id version) else none))
  | .deprecateVersion id version =>
      (store.rows.updateWhere thread (.version id version)
        (fun row => decide (row.status = .published)) OntologyVersionRow.deprecate).map fun moved =>
          (store.withRows moved.1, .ok moved.2)
  | .lockSegment id =>
      (store.rows.updateWhere thread (.segment id) (fun _ => true) (fun row => row)).map
        fun moved => (store.withRows moved.1, .ok ())
  | .insertSegment id =>
      (store.rows.insertRow thread (.segment id) ⟨.applied, []⟩).map fun moved =>
        if moved.2 then (store.withRows moved.1, .ok ()) else (store, .error .constraint)
  | .insertItem segmentId item =>
      (store.rows.updateWhere thread (.segment segmentId) (fun _ => true)
        (fun row => { row with items := row.items ++ [item] })).map fun moved =>
          (store.withRows moved.1, if moved.2 then .ok () else .error .constraint)
  | .markRolledBack segmentId =>
      (store.rows.updateWhere thread (.segment segmentId) (fun _ => true)
        (fun row => { row with status := .rolledBack })).map fun moved =>
          (store.withRows moved.1, .ok ())
  | .commits => some (store.commit thread, .ok ())
  | .rollsBack => some (store.rollback thread, .ok ())

end OntologyStore

/-- A statement and what the world decides about it. A ROLLBACK always takes place. -/
def performOntology (thread : Nat) (statement : OntologyStatement) (input : OntologyInput)
    (store : OntologyStore) : Option (OntologyStore × Except OntologyError statement.Answer) :=
  match input, statement with
  | .proceeds, statement => store.proceed thread statement
  | .fails, .commits => some (store.rollback thread, .error .database)
  | .fails, .rollsBack => some (store.rollback thread, .ok ())
  | .fails, _ => some (store, .error .database)

/-- A kernel that dies leaves its transaction to be rolled back. -/
def ontologyMachine :
    Machine Nat OntologyInput OntologyStore OntologyStatement OntologyStatement.Answer
      OntologyError where
  performs := performOntology
  abandons thread store := store.rollback thread

end NextTime.Ontology
