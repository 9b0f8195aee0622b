import NextTime.Ontology.VersionStore

/-
Who writes `ontology_versions`: a proposal, the publication of a draft, the
loader (bootstrap, domain packs, ChangePlan items), and the rollback of a
ChangePlan segment's ontology items. Each is one transaction.
-/

namespace NextTime.Ontology

open Interleaving

abbrev OntologyProgram :=
  Program OntologyStatement OntologyStatement.Answer OntologyError

def send (statement : OntologyStatement) : OntologyProgram statement.Answer :=
  Program.call statement

def ask (query : OntologyQuery) : OntologyProgram query.Answer :=
  send (.query query)

/-! ### Loader -/

def lockOntologyNamespace : OntologyProgram Unit :=
  send .lockNamespace

/-- The namespace's lock first, as every publisher. -/
def lockOntologyFamily (id : Nat) : OntologyProgram Unit := do
  lockOntologyNamespace
  send (.lockFamily id)

def assertOntologyNamespace (candidateId : Option Nat) (candidate : OntologyDefinition) :
    OntologyProgram Unit := do
  let others ← ask (.headsOfOthers candidateId)
  let conflicts := findOntologyNamespaceConflicts candidateId candidate others
  if conflicts = [] then pure () else throw (.namespaceConflict conflicts)

/-- Version 1 of a new family, else one more than the family's highest. -/
def nextVersion : Option Nat → OntologyProgram Nat
  | none => pure 1
  | some id => ask (.nextVersion id)

structure PublishOntologyVersionInput where
  /-- None: a new family, whose id the database generates. -/
  id : Option Nat
  generatedId : Nat
  definition : OntologyDefinition
  principalId : Nat
deriving DecidableEq

def PublishOntologyVersionInput.family (input : PublishOntologyVersionInput) : Nat :=
  input.id.getD input.generatedId

def PublishOntologyVersionInput.row (input : PublishOntologyVersionInput) (version : Nat) :
    OntologyVersionRow where
  id := input.family
  version := version
  status := .published
  definition := input.definition
  proposedBy := input.principalId
  publishedBy := some input.principalId
  baseVersion := none

def lockPublisher : Option Nat → OntologyProgram Unit
  | some id => lockOntologyFamily id
  | none => lockOntologyNamespace

def publishOntologyVersion (input : PublishOntologyVersionInput) :
    OntologyProgram OntologyVersionRow := do
  lockPublisher input.id
  assertOntologyNamespace input.id input.definition
  let version ← nextVersion input.id
  send (.insertVersion (input.row version))
  pure (input.row version)

/-! ### Registry -/

structure ProposeOntologyChangeInput where
  id : Option Nat
  generatedId : Nat
  /-- The change, checked against the schema. -/
  change : OntologyDefinition
  proposedBy : Nat
deriving DecidableEq

def ProposeOntologyChangeInput.row (input : ProposeOntologyChangeInput)
    (baseVersion : Option Nat) (version : Nat) : OntologyVersionRow where
  id := input.id.getD input.generatedId
  version := version
  status := .draft
  definition := input.change
  proposedBy := input.proposedBy
  publishedBy := none
  baseVersion := baseVersion

/-- The base of a draft: the family's head right now. -/
def readBase : Option Nat → OntologyProgram (Option Nat)
  | none => pure none
  | some id => ask (.publishedHeadVersion id)

/-- Takes no lock. -/
def proposeOntologyChange (input : ProposeOntologyChangeInput) : OntologyProgram Unit := do
  let baseVersion ← readBase input.id
  let version ← nextVersion input.id
  send (.insertVersion (input.row baseVersion version))

structure PublishOntologyDraftInput where
  id : Nat
  version : Nat
  publishedBy : Nat
deriving DecidableEq, Repr

def publishOntologyDraft (input : PublishOntologyDraftInput) : OntologyProgram Unit := do
  lockOntologyFamily input.id
  let draft ← ask (.draft input.id input.version input.publishedBy)
  match draft with
  | none => throw .draftNotFound
  | some draft =>
      let head ← ask (.publishedHeadVersion input.id)
      if head = draft.baseVersion then do
        assertOntologyNamespace (some input.id) draft.definition
        let published : Option OntologyVersionRow ←
          send (.publishDraft input.id input.version input.publishedBy)
        if published.isSome then pure () else throw .draftNotFound
      else throw .baseMoved

/-! ### ChangePlan items -/

section
variable (digest : OntologyDefinition → String)

def refOf (row : OntologyVersionRow) : OntologyVersionRef :=
  ⟨row.version, digest row.definition⟩

/-- `isVersion`. -/
def isVersion (row : OntologyVersionRow) (ref : OntologyVersionRef) : Bool :=
  decide (refOf digest row = ref)

structure OntologyVersionIntent where
  /-- `deriveOntologyPackId(family)`. -/
  ontologyId : Nat
  definition : OntologyDefinition
deriving DecidableEq

structure PlannedOntologyItem where
  ontologyId : Nat
  before : Option OntologyVersionRef
  definitionDigest : String
  unchanged : Bool
  definition : OntologyDefinition
deriving DecidableEq

def planOntologyItem (intent : OntologyVersionIntent) : OntologyProgram PlannedOntologyItem := do
  let head ← ask (.publishedHead intent.ontologyId)
  let before := head.map (refOf digest)
  let definitionDigest := digest intent.definition
  let unchanged := decide (before.map OntologyVersionRef.definitionDigest = some definitionDigest)
  if unchanged then pure () else assertOntologyNamespace (some intent.ontologyId) intent.definition
  pure ⟨intent.ontologyId, before, definitionDigest, unchanged, intent.definition⟩

structure ApplyWorkspaceSegmentInput where
  segmentId : Nat
  items : List OntologyVersionIntent
  appliedBy : Nat
  /-- The plan has the reviewed digest, and its widening items are confirmed. -/
  reviewed : List PlannedOntologyItem → Bool

/-- Publishes a planned item and records it. -/
def applyOntologyItem (input : ApplyWorkspaceSegmentInput) (planned : PlannedOntologyItem) :
    OntologyProgram Unit := do
  if planned.unchanged then pure ()
  else do
    let row ← publishOntologyVersion
      { id := some planned.ontologyId
        generatedId := planned.ontologyId
        definition := planned.definition
        principalId := input.appliedBy }
    send (.insertItem input.segmentId
      ⟨planned.ontologyId, planned.before, ⟨row.version, planned.definitionDigest⟩⟩)

def applyWorkspaceSegment (input : ApplyWorkspaceSegmentInput) : OntologyProgram Unit := do
  if input.items ≠ [] ∧ (input.items.map OntologyVersionIntent.ontologyId).Nodup then do
    Program.each (fun intent => lockOntologyFamily intent.ontologyId) input.items
    let plans ← Program.collect (planOntologyItem digest) input.items
    if input.reviewed plans then
      if plans.all PlannedOntologyItem.unchanged then pure ()
      else do
        send (.insertSegment input.segmentId)
        Program.each (applyOntologyItem input) plans
    else throw .planChanged
  else throw .invalidSegment

/-! ### Rollback -/

inductive OntologyRollbackBlocker
  | notInstalled
  | replaced (headVersion : Nat)
  | restoredVersionMissing
  | namespaceConflict (conflicts : List OntologyNamespaceConflict)
deriving DecidableEq, Repr

structure PlannedOntologyRollback where
  item : StoredOntologyItem
  /-- The restored definition, and the one it replaces. -/
  restored : Option OntologyDefinition
  blocker : Option OntologyRollbackBlocker
deriving DecidableEq

def planRestored (item : StoredOntologyItem) (ref : OntologyVersionRef) :
    OntologyProgram PlannedOntologyRollback := do
  let row ← ask (.version item.ontologyId ref.version)
  match row with
  | none => pure ⟨item, none, some .restoredVersionMissing⟩
  | some row =>
      if isVersion digest row ref ∧ row.status = .published then do
        let others ← ask (.headsOfOthers (some item.ontologyId))
        let conflicts :=
          findOntologyNamespaceConflicts (some item.ontologyId) row.definition others
        if conflicts = [] then pure ⟨item, some row.definition, none⟩
        else pure ⟨item, none, some (.namespaceConflict conflicts)⟩
      else pure ⟨item, none, some .restoredVersionMissing⟩

def planOntologyRollback (item : StoredOntologyItem) : OntologyProgram PlannedOntologyRollback := do
  let head ← ask (.publishedHead item.ontologyId)
  match head with
  | none => pure ⟨item, none, some .notInstalled⟩
  | some head =>
      if isVersion digest head item.after then
        match item.before with
        | none => pure ⟨item, none, none⟩
        | some ref => planRestored digest item ref
      else pure ⟨item, none, some (.replaced head.version)⟩

/-- The head is the version to return to, or the family has none. -/
def headIsExpected (head : Option OntologyVersionRow) (expected : Option OntologyVersionRef) :
    Bool :=
  decide (head.map (refOf digest) = expected)

def applyOntologyRollback (planned : PlannedOntologyRollback) : OntologyProgram Unit := do
  let item := planned.item
  let retired : Bool ← send (.deprecateVersion item.ontologyId item.after.version)
  if retired then do
    let head ← ask (.publishedHead item.ontologyId)
    if headIsExpected digest head item.before then pure () else throw .unexpectedHead
  else throw .notPublished

structure RollBackWorkspaceSegmentInput where
  segmentId : Nat
  /-- The widening items of the plan are confirmed. -/
  confirmed : List PlannedOntologyRollback → Bool

def rollBackItems (input : RollBackWorkspaceSegmentInput) (items : List StoredOntologyItem) :
    OntologyProgram Unit := do
  Program.each (fun item => lockOntologyFamily item.ontologyId) items
  -- Last item first.
  let plans ← Program.collect (planOntologyRollback digest) items.reverse
  if plans.all fun planned => planned.blocker.isNone then
    if input.confirmed plans then do
      Program.each (applyOntologyRollback digest) plans
      send (.markRolledBack input.segmentId)
    else throw .notConfirmed
  else throw .rollbackConflict

def rollBackWorkspaceSegment (input : RollBackWorkspaceSegmentInput) : OntologyProgram Unit := do
  send (.lockSegment input.segmentId)
  let status ← ask (.segmentStatus input.segmentId)
  match status with
  | none => throw .segmentNotFound
  | some .rolledBack => throw .segmentRolledBack
  | some .applied => do
      let items ← ask (.segmentItems input.segmentId)
      rollBackItems digest input items

/-! ### Transactions -/

/-- What a transaction of the loader does: bootstrap and domain packs publish versions, an
installation applies a segment. -/
inductive OntologyWork
  | version (input : PublishOntologyVersionInput)
  | segment (input : ApplyWorkspaceSegmentInput)

def OntologyWork.program : OntologyWork → OntologyProgram Unit
  | .version input => do
      let _ ← publishOntologyVersion input
      pure ()
  | .segment input => applyWorkspaceSegment digest input

inductive OntologyEntry
  | proposes (input : ProposeOntologyChangeInput)
  | publishesDraft (input : PublishOntologyDraftInput)
  | publishes (work : List OntologyWork)
  | rollsBack (input : RollBackWorkspaceSegmentInput)

/-- BEGIN, the work, and COMMIT; or ROLLBACK where it throws. -/
def inTransaction (body : OntologyProgram Unit) : OntologyProgram Unit :=
  tryCatch
    (do
      body
      send .commits)
    (fun thrown => do
      send .rollsBack
      throw thrown)

def OntologyEntry.program : OntologyEntry → OntologyProgram Unit
  | .proposes input => inTransaction (proposeOntologyChange input)
  | .publishesDraft input => inTransaction (publishOntologyDraft input)
  | .publishes work => inTransaction (Program.each (OntologyWork.program digest) work)
  | .rollsBack input => inTransaction (rollBackWorkspaceSegment digest input)

end

/-- Nothing published, and no transaction under way. -/
def ontologyInitial (pool : Pool Nat OntologyStore OntologyStatement OntologyStatement.Answer
    OntologyError) : Prop :=
  (∀ key, pool.shared.rows.committed key = none) ∧ (∀ key, pool.shared.rows.pending key = none) ∧
    pool.shared.known = [] ∧ pool.shared.namespaceHolder = none ∧
    pool.shared.familyHolders = [] ∧ ∀ thread, pool.rest thread = .ends (.ok ())

def ontologySystem (digest : OntologyDefinition → String) :
    LabelledRun.System
      (Pool Nat OntologyStore OntologyStatement OntologyStatement.Answer OntologyError)
      (PoolLabel Nat OntologyEntry OntologyInput) :=
  ontologyMachine.system (OntologyEntry.program digest) ontologyInitial

end NextTime.Ontology
