import NextTime.Ontology.Rollbacks

/-
Every entry meets its specification from rest, so in every interleaving each
type name of the heads has one owner and no version is lost.
-/

namespace NextTime.Ontology

open Interleaving Interleaving.Conduct OntologyStore

variable {digest : OntologyDefinition → String}

abbrev OntologyPool :=
  Pool Nat OntologyStore OntologyStatement OntologyStatement.Answer OntologyError

theorem work_ensures (work : OntologyWork) :
    Ensures digest Opened (work.program digest) fun _ => Opened := by
  cases work with
  | version input =>
      have grows : Grows fun _ => True := fun _ _ _ _ => trivial
      apply (publishOntologyVersion_ensures input steady_opened
        (fun _ opened => opened.wellFormed) (fun _ opened => ⟨opened.locks, trivial⟩) grows).seq
      intro _
      exact ensures_pure fun _ holds => Or.inr holds.1
  | segment input => exact applyWorkspaceSegment_ensures input

theorem works_ensure (work : List OntologyWork) :
    Ensures digest Idle (Program.each (OntologyWork.program digest) work) fun _ => Opened := by
  have looping : Ensures digest Opened (Program.each (OntologyWork.program digest) work)
      fun _ => Opened :=
    @meets_each _ _ _ _ _ _ _ (fun (_ : List OntologyWork) => Opened) _ _ []
      fun _ one _ => work_ensures one
  exact looping.weaken fun _ idle => Or.inl idle

theorem entry_meets (entry : OntologyEntry) :
    (ontologyConduct digest).Meets Idle (entry.program digest) fun _ => Idle := by
  cases entry with
  | proposes input =>
      exact inTransaction_meets steady_drafted (fun _ drafted => drafted.wellFormed)
        (fun _ drafted => drafted.commits) (proposeOntologyChange_ensures input)
  | publishesDraft input =>
      exact inTransaction_meets steady_ready (fun _ ready => ready.wellFormed)
        (fun _ ready => ready.commits) (publishOntologyDraft_ensures input)
  | publishes work =>
      exact inTransaction_meets steady_opened (fun _ opened => opened.wellFormed)
        (fun _ opened => opened.commits) (works_ensure work)
  | rollsBack input =>
      exact inTransaction_meets steady_ready (fun _ ready => ready.wellFormed)
        (fun _ ready => ready.commits) (rollBackWorkspaceSegment_ensures input)

theorem good_none : Good fun _ => none := by
  have noHead : ∀ row, ¬ IsHead (fun _ => none) row := by
    intro row head
    have present := head.present
    cases present
  constructor
  · constructor
    · intro _ _ _ impossible
      cases impossible
    · exact ⟨fun row head => absurd head (noHead row),
        fun first _ head => absurd head (noHead first)⟩
  · intro _ _ impossible
    cases impossible

theorem initial_idle {pool : OntologyPool} (initial : ontologyInitial pool) :
    pool.shared.Consistent ∧
      ∀ thread, pool.rest thread = .ends (.ok ()) ∧ Idle (sees thread pool.shared) := by
  obtain ⟨committed, pending, known, free, _, atRest⟩ := initial
  have empty : pool.shared.rows.committed = fun _ => none := funext committed
  have unwritten : ∀ thread, pool.shared.rows.own thread = fun _ => none := by
    intro thread
    funext key
    rw [ReadCommitted.Store.own, pending]
  have consistent : pool.shared.Consistent := by
    constructor
    · rw [empty]
      exact good_none
    · rw [empty]
      exact places_none pool.shared.known
    · intro thread
      rw [unwritten thread]
      exact places_none pool.shared.known
  refine ⟨consistent, ?_⟩
  intro thread
  refine ⟨atRest thread, consistent.wellFormed thread, ?_, ?_⟩
  · change decide (pool.shared.namespaceHolder = some thread) = false
    rw [free]
    exact decide_eq_false fun impossible => (by cases impossible)
  · exact congrFun (unwritten thread)

/-- Only a COMMIT that takes place changes what is committed. -/
theorem committed_of_does {statement : OntologyStatement} {here next : OntologyTables}
    {outcome : Except OntologyError statement.Answer}
    (does : statementDoes statement here outcome next) :
    next.committed = here.committed ∨ (statement = .commits ∧ next.committed = here.view) := by
  by_cases ordinary : statement.ends = false
  · apply Or.inl
    cases outcome with
    | error thrown => rw [statementDoes_error ordinary does]
    | ok answer =>
        cases statement with
        | commits => cases ordinary
        | rollsBack => cases ordinary
        | lockNamespace => rw [show next = _ from does]
        | lockFamily id => rw [show next = _ from does]
        | query asked => rw [does.1]
        | insertVersion row =>
            rw [does.2.2]
            rfl
        | publishDraft id version publishedBy =>
            cases does with
            | inl matched =>
                obtain ⟨row, _, _, isNext, _⟩ := matched
                rw [isNext]
                rfl
            | inr missed => rw [missed.1]
        | deprecateVersion id version =>
            cases does with
            | inl matched =>
                obtain ⟨row, _, _, isNext, _⟩ := matched
                rw [isNext]
                rfl
            | inr missed => rw [missed.1]
        | lockSegment id =>
            cases does with
            | inl matched =>
                obtain ⟨row, _, isNext⟩ := matched
                rw [isNext]
                rfl
            | inr missed => rw [missed.2]
        | insertSegment id =>
            rw [does.2]
            rfl
        | insertItem segmentId item =>
            obtain ⟨row, _, isNext⟩ := does
            rw [isNext]
            rfl
        | markRolledBack segmentId =>
            cases does with
            | inl matched =>
                obtain ⟨row, _, isNext⟩ := matched
                rw [isNext]
                rfl
            | inr missed => rw [missed.2]
  · cases statement with
    | commits =>
        cases outcome with
        | ok _ =>
            apply Or.inr
            rw [show next = _ from does]
            exact ⟨rfl, rfl⟩
        | error _ =>
            apply Or.inl
            rw [show next = _ from does]
            rfl
    | rollsBack =>
        apply Or.inl
        cases outcome with
        | ok _ =>
            rw [show next = _ from does]
            rfl
        | error _ =>
            rw [show next = _ from does]
            rfl
    | _ => exact absurd rfl ordinary

/-- What a step of a reachable pool makes of the committed rows. -/
theorem step_follows {pool next : OntologyPool} {label : PoolLabel Nat OntologyEntry OntologyInput}
    (consistent : pool.shared.Consistent)
    (allowed : ∀ thread op rest, pool.rest thread = .calls op rest →
      (ontologyConduct digest).allowed op (sees thread pool.shared))
    (moved : (ontologySystem digest).step pool label = some next) :
    Follows digest pool.shared.rows.committed next.shared.rows.committed := by
  cases label with
  | starts thread entry =>
      simp only [ontologySystem, Machine.system, Machine.poolStep] at moved
      split at moved
      next =>
        cases moved
        exact Follows.refl digest _
      next => cases moved
  | dies thread =>
      cases moved
      exact Follows.refl digest _
  | steps thread input =>
      simp only [ontologySystem, Machine.system, Machine.poolStep] at moved
      split at moved
      next => cases moved
      next statement rest atCall =>
        obtain ⟨result, performed, same⟩ := Option.map_eq_some_iff.mp moved
        have permitted := allowed thread statement rest atCall
        have does := (perform_does consistent permitted performed).2
        rw [← same]
        change Follows digest _ (sees thread result.1).committed
        cases committed_of_does does with
        | inl kept =>
            rw [kept]
            exact Follows.refl digest _
        | inr commits =>
            obtain ⟨isCommit, isView⟩ := commits
            subst isCommit
            rw [isView]
            exact permitted.follows

theorem reachable_good {pool : OntologyPool} (reached : (ontologySystem digest).Reachable pool) :
    pool.shared.Consistent ∧ ∀ thread op rest, pool.rest thread = .calls op rest →
      (ontologyConduct digest).allowed op (sees thread pool.shared) :=
  (realises digest).reachable (steady_idle.stable digest) entry_meets
    (fun _ initial => initial_idle initial) reached

/-- An empty workspace. -/
def emptyPool : OntologyPool where
  shared :=
    { rows := ⟨fun _ => none, fun _ => none, fun _ => []⟩
      known := []
      namespaceHolder := none
      familyHolders := [] }
  rest _ := .ends (.ok ())

def objectNamed (name : String) : OntologyDefinition :=
  ⟨[⟨name, .null⟩], [], []⟩

/-- A pack is published, a change to it proposed and the draft published over it. -/
def draftedPack : List (PoolLabel Nat OntologyEntry OntologyInput) :=
  [.starts 1 (.publishes [.version ⟨some 7, 7, objectNamed "site", 1⟩]),
    .starts 2 (.proposes ⟨some 7, 7, objectNamed "place", 2⟩)] ++
    List.replicate 6 (.steps 1 .proceeds) ++ List.replicate 4 (.steps 2 .proceeds) ++
    [.starts 1 (.publishesDraft ⟨7, 2, 2⟩)] ++ List.replicate 7 (.steps 1 .proceeds)

end NextTime.Ontology
