import NextTime.Library.LabelledRun
import Mathlib.Data.List.Basic

/-
The expiry sweep of drafts among the committed transactions of everybody else. The scan is one
statement; each candidate is deleted in a transaction of its own. Who may propose, publish or
remove is not asked here.
-/

namespace NextTime.DraftLifecycle

/-- The kinds the sweep covers. -/
inductive SweptDraftKind
  | worker_definition
  | skill
  | procedure
deriving DecidableEq

structure Family where
  workspaceId : Nat
  kind : SweptDraftKind
  id : Nat
deriving DecidableEq

structure DraftRef where
  family : Family
  version : Nat
deriving DecidableEq

inductive PublishableStatus
  | draft
  | published
  | deprecated
deriving DecidableEq

/-- A version's row. `proposal` counts which proposal wrote it; no column holds it. -/
structure VersionRow where
  ref : DraftRef
  status : PublishableStatus
  proposedBy : Nat
  name : Option String
  createdAt : Int
  proposal : Nat
deriving DecidableEq

/-- `draft.expired`. -/
structure AuditRecord where
  ref : DraftRef
  name : Option String
  proposedBy : Nat
  thresholdDays : Nat
deriving DecidableEq

structure ExpiredDraftCandidateRow where
  ref : DraftRef
  proposedBy : Nat
  name : Option String
deriving DecidableEq

/-- Where the sweep stands; a deleted row is locked until its transaction ends. -/
inductive Sweep
  | idle
  | next (candidates : List ExpiredDraftCandidateRow) (expired : Nat)
  | deleting (row : VersionRow) (candidate : ExpiredDraftCandidateRow)
      (candidates : List ExpiredDraftCandidateRow) (expired : Nat)
  | done (expired : Nat)
  | thrown

/-- A row the sweep deleted, and whether an evaluation of it ran then. -/
structure Deletion where
  row : VersionRow
  evaluating : Bool

structure Registry where
  rows : List VersionRow
  /-- The Skill drafts with a running evaluation. -/
  evaluating : List DraftRef
  proposals : Nat
  audits : List AuditRecord
  sweep : Sweep
  /-- The cutoff of the scan, and the proposals made before it. -/
  cutoff : Int
  scannedAt : Nat
  deletions : List Deletion

inductive Step
  | propose (family : Family) (proposedBy : Nat) (name : Option String) (createdAt : Int)
  | discard (ref : DraftRef) (caller : Nat)
  | reject (ref : DraftRef)
  | publish (ref : DraftRef)
  | deprecateVersion (ref : DraftRef)
  | startEvaluation (ref : DraftRef)
  | endEvaluation (ref : DraftRef)
  | scan (now : Int)
  | expire
  | commit
  | fail
  | finish

/-! ### The table -/

def ofFamily (family : Family) (rows : List VersionRow) : List VersionRow :=
  rows.filter fun row => row.ref.family = family

/-- `coalesce(max(version), 0)`. -/
def latestVersion (family : Family) (rows : List VersionRow) : Nat :=
  (ofFamily family rows).foldr (fun row latest => max row.ref.version latest) 0

def findRow (ref : DraftRef) (rows : List VersionRow) : Option VersionRow :=
  rows.find? fun row => row.ref = ref

def removeRow (ref : DraftRef) (rows : List VersionRow) : List VersionRow :=
  rows.filter fun row => row.ref ≠ ref

def setStatus (ref : DraftRef) (status : PublishableStatus) (rows : List VersionRow) :
    List VersionRow :=
  rows.map fun row => if row.ref = ref then { row with status := status } else row

/-- A row of this status stands under the reference. -/
def hasStatus (ref : DraftRef) (status : PublishableStatus) (rows : List VersionRow) : Bool :=
  match findRow ref rows with
  | some row => row.status = status
  | none => false

namespace Registry

/-- Another transaction that writes or locks the row waits. -/
def locked (state : Registry) (ref : DraftRef) : Bool :=
  match state.sweep with
  | .deleting row _ _ _ => row.ref = ref
  | _ => false

/-- `assertDraftNotEvaluating`; only Skill drafts are evaluated. -/
def mayLeave (state : Registry) (ref : DraftRef) : Bool :=
  !state.locked ref && hasStatus ref .draft state.rows && !state.evaluating.contains ref

/-! ### Everybody else -/

/-- `readFamilyHead`: the latest version, if there is one. -/
def readFamilyHead (state : Registry) (family : Family) : Option VersionRow :=
  findRow ⟨family, latestVersion family state.rows⟩ state.rows

/-- A Skill or Procedure family with a pending draft takes no other, and a Skill's next version
keeps the name of its head; a WorkerDefinition's family takes any. -/
def mayPropose (state : Registry) (family : Family) (name : Option String) : Bool :=
  family.kind = .worker_definition ||
    match state.readFamilyHead family with
    | none => true
    | some head => head.status ≠ .draft && (family.kind ≠ .skill || head.name = name)

def propose (state : Registry) (family : Family) (proposedBy : Nat) (name : Option String)
    (createdAt : Int) : Option Registry :=
  if state.mayPropose family name then
    let ref : DraftRef := ⟨family, latestVersion family state.rows + 1⟩
    some { state with
      rows := state.rows ++ [⟨ref, .draft, proposedBy, name, createdAt, state.proposals⟩]
      proposals := state.proposals + 1 }
  else none

def remove (state : Registry) (ref : DraftRef) : Registry :=
  { state with rows := removeRow ref state.rows }

def discardDraft (state : Registry) (ref : DraftRef) (caller : Nat) : Option Registry :=
  match findRow ref state.rows with
  | none => none
  | some row =>
      if row.proposedBy = caller && state.mayLeave ref then some (state.remove ref) else none

def rejectDraft (state : Registry) (ref : DraftRef) : Option Registry :=
  if ref.family.kind ≠ .worker_definition && state.mayLeave ref then some (state.remove ref)
  else none

/-- A Skill or Procedure family publishes its latest version. -/
def publish (state : Registry) (ref : DraftRef) : Option Registry :=
  if (ref.family.kind = .worker_definition || ref.version = latestVersion ref.family state.rows) &&
      state.mayLeave ref then
    some { state with rows := setStatus ref .published state.rows }
  else none

def deprecateVersion (state : Registry) (ref : DraftRef) : Option Registry :=
  if !state.locked ref && hasStatus ref .published state.rows then
    some { state with rows := setStatus ref .deprecated state.rows }
  else none

/-- The start holds the draft for share. -/
def startEvaluation (state : Registry) (ref : DraftRef) : Option Registry :=
  if ref.family.kind = .skill && state.mayLeave ref then
    some { state with evaluating := ref :: state.evaluating }
  else none

def endEvaluation (state : Registry) (ref : DraftRef) : Option Registry :=
  some { state with evaluating := state.evaluating.filter fun other => other ≠ ref }

/-! ### The sweep -/

/-- The drafts older than the cutoff that are not evaluated. -/
def candidatesOf (state : Registry) (cutoff : Int) : List ExpiredDraftCandidateRow :=
  (state.rows.filter fun row =>
      row.status = .draft && !state.evaluating.contains row.ref && row.createdAt < cutoff).map
    fun row => ⟨row.ref, row.proposedBy, row.name⟩

def scan (state : Registry) (thresholdDays : Nat) (now : Int) : Option Registry :=
  match state.sweep with
  | .idle =>
      let cutoff := now - thresholdDays * 24 * 60 * 60 * 1000
      some { state with
        sweep := .next (state.candidatesOf cutoff) 0
        cutoff := cutoff
        scannedAt := state.proposals }
  | _ => none

/-- `deleteDraftRow`: the draft that stands under the candidate's reference now. The database
refuses the delete of one that is evaluated, and the candidate is passed over. -/
def expire (state : Registry) : Option Registry :=
  match state.sweep with
  | .next (candidate :: candidates) expired =>
      match findRow candidate.ref state.rows with
      | none => some { state with sweep := .next candidates expired }
      | some row =>
          if row.status = .draft && !state.evaluating.contains row.ref then
            some { state with sweep := .deleting row candidate candidates expired }
          else some { state with sweep := .next candidates expired }
  | _ => none

/-- The delete and its audit record become visible together. -/
def commit (state : Registry) (thresholdDays : Nat) : Option Registry :=
  match state.sweep with
  | .deleting row candidate candidates expired =>
      some { state with
        rows := removeRow row.ref state.rows
        audits := state.audits ++
          [⟨candidate.ref, candidate.name, candidate.proposedBy, thresholdDays⟩]
        sweep := .next candidates (expired + 1)
        deletions := state.deletions ++ [⟨row, state.evaluating.contains row.ref⟩] }
  | _ => none

/-- A statement fails or the process ends; what is not committed is rolled back. -/
def fail (state : Registry) : Option Registry :=
  match state.sweep with
  | .next _ _ | .deleting _ _ _ _ => some { state with sweep := .thrown }
  | _ => none

def finish (state : Registry) : Option Registry :=
  match state.sweep with
  | .next [] expired => some { state with sweep := .done expired }
  | _ => none

end Registry

def registrySystem (thresholdDays : Nat) : LabelledRun.System Registry Step where
  initial state :=
    (state.rows.map VersionRow.ref).Nodup ∧ (∀ row ∈ state.rows, row.proposal < state.proposals) ∧
      (∀ ref ∈ state.evaluating, ref.family.kind = .skill) ∧
      state.audits = [] ∧ state.deletions = [] ∧ state.sweep = .idle
  step state
    | .propose family proposedBy name createdAt => state.propose family proposedBy name createdAt
    | .discard ref caller => state.discardDraft ref caller
    | .reject ref => state.rejectDraft ref
    | .publish ref => state.publish ref
    | .deprecateVersion ref => state.deprecateVersion ref
    | .startEvaluation ref => state.startEvaluation ref
    | .endEvaluation ref => state.endEvaluation ref
    | .scan now => state.scan thresholdDays now
    | .expire => state.expire
    | .commit => state.commit thresholdDays
    | .fail => state.fail
    | .finish => state.finish

end NextTime.DraftLifecycle
