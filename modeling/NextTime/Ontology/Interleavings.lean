import NextTime.Ontology.Tables

/-
The machine of statements keeps to what a transaction knows: each statement moves
its own transaction's tables as said, and those of the others only as they expect.
-/

namespace NextTime.Ontology

open Interleaving ReadCommitted

namespace OntologyStore

variable {store : OntologyStore} {thread other : Nat}

def sees (thread : Nat) (store : OntologyStore) : OntologyTables where
  locked := decide (store.namespaceHolder = some thread)
  committed := store.rows.committed
  own := store.rows.own thread
  known := store.known

theorem view_sees (thread : Nat) (store : OntologyStore) :
    (sees thread store).view = store.rows.view thread := by
  funext key
  exact (Store.view_eq store.rows thread key).symm

/-- What every reachable store satisfies. -/
structure Consistent (store : OntologyStore) : Prop where
  good : Good store.rows.committed
  committed : Places store.known store.rows.committed
  own : ∀ thread, Places store.known (store.rows.own thread)

theorem Consistent.wellFormed (consistent : store.Consistent) (thread : Nat) :
    (sees thread store).WellFormed :=
  ⟨consistent.good, consistent.committed, consistent.own thread⟩

theorem Consistent.view (consistent : store.Consistent) (thread : Nat) :
    Places store.known (store.rows.view thread) := by
  rw [← view_sees]
  exact (consistent.wellFormed thread).view

/-- What a step leaves of the tables of others while nothing is committed. -/
theorem meanwhile_of_same {next : OntologyStore} (consistent : next.Consistent)
    (locked : decide (next.namespaceHolder = some other) =
      decide (store.namespaceHolder = some other))
    (committed : next.rows.committed = store.rows.committed)
    (own : next.rows.own other = store.rows.own other)
    (known : ∀ key ∈ store.known, key ∈ next.known) :
    Meanwhile (sees other store) (sees other next) where
  locked := locked
  own := own
  known := known
  kept key _ := congrFun committed key
  segments := by
    change SegmentsStay store.rows.committed next.rows.committed
    rw [committed]
    exact SegmentsStay.refl _
  wellFormed _ := consistent.wellFormed other
  drafts _ := by
    change GainsDrafts store.rows.committed next.rows.committed
    rw [committed]
    exact GainsDrafts.refl _

/-- A step of the thread, for the store and for the others. -/
structure Moves (thread : Nat) (store next : OntologyStore) : Prop where
  consistent : next.Consistent
  others : ∀ other, other ≠ thread → Meanwhile (sees other store) (sees other next)

theorem moves_self (consistent : store.Consistent) : Moves thread store store :=
  ⟨consistent, fun other _ => (ontologyConduct fun _ => "").rely_refl (sees other store)⟩

/-! ### Writes -/

theorem sees_write (key : OntologyKey) (row : key.Row) :
    sees thread (store.withRows (store.rows.write thread key row)) =
      (sees thread store).write key row := by
  rw [sees, withRows, OntologyTables.write]
  congr 1
  exact Store.own_write store.rows thread key row

/-- A written version stands under its key, and the key is known. -/
def Placed (key : OntologyKey) (row : key.Row) (known : List (Nat × Nat)) : Prop :=
  Places known (Function.update (fun _ => none) key (some row))

theorem placed_segment (id : Nat) (row : ChangeSegmentRow) (known : List (Nat × Nat)) :
    Placed (.segment id) row known := by
  intro family version found present
  have other : OntologyKey.version family version ≠ .segment id := fun same => (nomatch same)
  rw [Function.update_of_ne other] at present
  cases present

theorem placed_version {id version : Nat} {row : OntologyVersionRow} {known : List (Nat × Nat)}
    (isId : row.id = id) (isVersion : row.version = version) (member : (id, version) ∈ known) :
    Placed (.version id version) row known := by
  intro family number found present
  by_cases same : (OntologyKey.version family number) = .version id version
  · cases same
    rw [Function.update_self] at present
    cases present
    exact ⟨isId, isVersion, member⟩
  · rw [Function.update_of_ne same] at present
    cases present

theorem places_update {rows : OntologyRows} {known more : List (Nat × Nat)}
    (places : Places known rows) (grows : ∀ key ∈ known, key ∈ more) {key : OntologyKey}
    {row : key.Row} (placed : Placed key row more) :
    Places more (Function.update rows key (some row)) := by
  intro id version found present
  by_cases same : .version id version = key
  · subst same
    rw [Function.update_self] at present
    exact placed id version found (by rw [Function.update_self, present])
  · rw [Function.update_of_ne same] at present
    exact places.mono grows id version found present

theorem moves_write (consistent : store.Consistent) {key : OntologyKey} {row : key.Row}
    {next : OntologyStore} (free : store.rows.writtenByOther thread key = false)
    (rows : next.rows = store.rows.write thread key row)
    (holder : next.namespaceHolder = store.namespaceHolder)
    (grows : ∀ key ∈ store.known, key ∈ next.known) (placed : Placed key row next.known) :
    Moves thread store next := by
  have committed : next.rows.committed = store.rows.committed := by
    rw [rows]
    rfl
  have others : ∀ other, other ≠ thread → next.rows.own other = store.rows.own other := by
    intro other different
    rw [rows]
    exact Store.own_write_other different row free
  have kept : next.Consistent := by
    constructor
    · rw [committed]
      exact consistent.good
    · rw [committed]
      exact consistent.committed.mono grows
    · intro other
      by_cases same : other = thread
      · rw [same, rows, Store.own_write]
        exact places_update (consistent.own thread) grows placed
      · rw [others other same]
        exact (consistent.own other).mono grows
  refine ⟨kept, ?_⟩
  intro other different
  exact meanwhile_of_same kept (by rw [holder]) committed (others other different) grows

/-- A guarded UPDATE, and what it answers. -/
theorem moves_update (consistent : store.Consistent) {key : OntologyKey}
    {guard : key.Row → Bool} {change : key.Row → key.Row}
    {moved : Store Nat OntologyKey OntologyKey.Row × Bool}
    (updated : store.rows.updateWhere thread key guard change = some moved)
    (placed : ∀ row, (sees thread store).view key = some row →
      Placed key (change row) store.known) :
    Moves thread store (store.withRows moved.1) ∧
      ((∃ row, (sees thread store).view key = some row ∧ guard row = true ∧
          sees thread (store.withRows moved.1) = (sees thread store).write key (change row) ∧
          moved.2 = true ∧ moved.1.view thread key = some (change row)) ∨
        (sees thread (store.withRows moved.1) = sees thread store ∧ moved.2 = false ∧
          ∀ row, (sees thread store).view key = some row → guard row = false)) := by
  rw [view_sees] at placed ⊢
  cases Store.updateWhere_cases updated with
  | inl missed =>
      obtain ⟨same, unguarded⟩ := missed
      rw [same]
      exact ⟨moves_self consistent, Or.inr ⟨rfl, rfl, unguarded⟩⟩
  | inr found =>
      obtain ⟨row, present, matched, free, same⟩ := found
      have unwritten : store.rows.writtenByOther thread key = false :=
        (Bool.or_eq_false_iff.mp free).1
      rw [same]
      constructor
      · exact moves_write consistent unwritten rfl rfl (fun _ member => member)
          (placed row present)
      · exact Or.inl ⟨row, present, matched, sees_write key (change row), rfl,
          Store.view_write_self⟩

/-! ### Locks, COMMIT and ROLLBACK -/

/-- A change of the locks that leaves the other transactions' as they were. -/
theorem moves_locks (consistent : store.Consistent) {next : OntologyStore}
    (rows : next.rows = store.rows) (known : next.known = store.known)
    (locked : ∀ other, other ≠ thread → decide (next.namespaceHolder = some other) =
      decide (store.namespaceHolder = some other)) : Moves thread store next := by
  have kept : next.Consistent := by
    constructor
    · rw [rows]
      exact consistent.good
    · rw [rows, known]
      exact consistent.committed
    · rw [rows, known]
      exact consistent.own
  refine ⟨kept, ?_⟩
  intro other different
  apply meanwhile_of_same kept (locked other different)
  · rw [rows]
  · rw [rows]
  · rw [known]
    exact fun _ member => member

theorem holder_release {other : Nat} (different : other ≠ thread) :
    decide ((store.release thread).namespaceHolder = some other) =
      decide (store.namespaceHolder = some other) := by
  change decide ((if store.namespaceHolder = some thread then none else store.namespaceHolder) =
    some other) = _
  by_cases mine : store.namespaceHolder = some thread
  · rw [if_pos mine, mine]
    have apart : ¬ (some thread = some other) := fun same => different (Option.some.inj same).symm
    rw [decide_eq_false apart]
    rfl
  · rw [if_neg mine]

theorem holder_released :
    decide ((store.release thread).namespaceHolder = some thread) = false := by
  change decide ((if store.namespaceHolder = some thread then none else store.namespaceHolder) =
    some thread) = false
  by_cases mine : store.namespaceHolder = some thread
  · rw [if_pos mine]
    rfl
  · rw [if_neg mine]
    exact decide_eq_false mine

theorem sees_rollback :
    sees thread (store.rollback thread) =
      (sees thread store).ended (sees thread store).committed := by
  have free : (store.rows.rollback thread).own thread = fun _ => none :=
    funext fun key => Store.own_rollback store.rows thread key
  have unlocked := @holder_released (store.withRows (store.rows.rollback thread)) thread
  change OntologyTables.mk _ _ _ _ = OntologyTables.mk _ _ _ _
  congr 1

theorem sees_commit :
    sees thread (store.commit thread) = (sees thread store).ended (sees thread store).view := by
  have free : (store.rows.commit thread).own thread = fun _ => none :=
    funext fun key => Store.own_rollback store.rows thread key
  have unlocked := @holder_released (store.withRows (store.rows.commit thread)) thread
  rw [view_sees]
  change OntologyTables.mk _ _ _ _ = OntologyTables.mk _ _ _ _
  congr 1

theorem own_ended (consistent : store.Consistent) (other : Nat) :
    Places store.known ((store.rows.rollback thread).own other) := by
  by_cases same : other = thread
  · have free : (store.rows.rollback thread).own thread = fun _ => none :=
      funext fun key => Store.own_rollback store.rows thread key
    rw [same, free]
    exact places_none store.known
  · rw [Store.own_rollback_other same]
    exact consistent.own other

theorem moves_rollback (consistent : store.Consistent) :
    Moves thread store (store.rollback thread) := by
  have kept : (store.rollback thread).Consistent :=
    ⟨consistent.good, consistent.committed, own_ended consistent⟩
  refine ⟨kept, ?_⟩
  intro other different
  exact meanwhile_of_same kept (holder_release different) rfl
    (Store.own_rollback_other different) fun _ member => member

theorem moves_commit {digest : OntologyDefinition → String} (consistent : store.Consistent)
    (commits : Commits digest (sees thread store)) :
    Moves thread store (store.commit thread) := by
  have good : Good (store.rows.view thread) := view_sees thread store ▸ commits.good
  have kept : (store.commit thread).Consistent :=
    ⟨good, consistent.view thread, own_ended consistent⟩
  refine ⟨kept, ?_⟩
  intro other different
  constructor
  · exact holder_release different
  · exact Store.own_rollback_other different
  · exact fun _ member => member
  · intro key written
    exact Store.committed_of_own different written
  · have stay := commits.follows.segments
    rw [view_sees] at stay
    exact stay
  · exact fun _ => kept.wellFormed other
  · intro locked
    have unlocked : (sees thread store).locked = false := by
      have holder : store.namespaceHolder = some other := of_decide_eq_true locked
      change decide (store.namespaceHolder = some thread) = false
      rw [holder]
      exact decide_eq_false fun same => different (Option.some.inj same)
    have gains := commits.drafts unlocked
    rw [view_sees] at gains
    exact gains

/-! ### Every statement -/

/-- A statement that does not fail. -/
theorem proceed_does {digest : OntologyDefinition → String} (consistent : store.Consistent)
    {statement : OntologyStatement}
    {moved : OntologyStore × Except OntologyError statement.Answer}
    (allowed : (ontologyConduct digest).allowed statement (sees thread store))
    (proceeds : store.proceed thread statement = some moved) :
    Moves thread store moved.1 ∧
      statementDoes statement (sees thread store) moved.2 (sees thread moved.1) := by
  have places := consistent.view thread
  rw [← view_sees] at places
  cases statement with
  | lockNamespace =>
      rw [proceed] at proceeds
      split at proceeds
      next free =>
        rw [← Option.some.inj proceeds]
        constructor
        · refine @moves_locks store thread consistent _ rfl rfl ?_
          intro other different
          have mine : decide (some thread = some other) = false :=
            decide_eq_false fun same => different (Option.some.inj same).symm
          change decide (some thread = some other) = _
          rw [mine]
          cases held : store.namespaceHolder with
          | none => rfl
          | some holder =>
              rw [held] at free
              have isMine : holder = thread := of_decide_eq_true free
              rw [isMine, mine]
        · change OntologyTables.mk _ _ _ _ = OntologyTables.mk _ _ _ _
          congr 1
          exact decide_eq_true rfl
      next => cases proceeds
  | lockFamily id =>
      rw [proceed] at proceeds
      split at proceeds
      next => cases proceeds
      next =>
        rw [← Option.some.inj proceeds]
        exact ⟨moves_locks consistent rfl rfl fun _ _ => rfl, rfl⟩
  | query asked =>
      rw [← Option.some.inj proceeds]
      refine ⟨moves_self consistent, rfl, ?_⟩
      rw [view_sees]
      rfl
  | insertVersion row =>
      rw [proceed] at proceeds
      split at proceeds
      next below =>
        obtain ⟨inserted, inserts, same⟩ := Option.map_eq_some_iff.mp proceeds
        cases Store.insertRow_cases inserts with
        | inl refused =>
            rw [refused] at same
            rw [← same]
            exact ⟨moves_self consistent, rfl⟩
        | inr placed =>
            obtain ⟨absent, free, isInserted⟩ := placed
            rw [isInserted] at same
            rw [← same]
            constructor
            · exact moves_write consistent free rfl rfl
                (fun _ member => List.mem_insert_of_mem member)
                (placed_version rfl rfl List.mem_insert_self)
            · refine ⟨below, (view_sees thread store).symm ▸ absent, ?_⟩
              have written := @sees_write store thread (.version row.id row.version) row
              change OntologyTables.mk _ _ _ _ = OntologyTables.mk _ _ _ _
              congr 1
              exact congrArg OntologyTables.own written
      next =>
        rw [← Option.some.inj proceeds]
        exact ⟨moves_self consistent, rfl⟩
  | publishDraft id version publishedBy =>
      obtain ⟨updated, updates, same⟩ := Option.map_eq_some_iff.mp proceeds
      have moves := moves_update consistent updates (by
        intro row found
        obtain ⟨isId, isVersion, member⟩ := places id version row found
        exact placed_version isId isVersion member)
      rw [← same]
      refine ⟨moves.1, ?_⟩
      cases moves.2 with
      | inl matched =>
          obtain ⟨row, found, publishable, written, did, reads⟩ := matched
          exact Or.inl ⟨row, found, publishable, written, by rw [did, if_pos rfl]; exact reads⟩
      | inr missed =>
          refine Or.inr ⟨missed.1, ?_⟩
          rw [missed.2.1]
          rfl
  | deprecateVersion id version =>
      obtain ⟨updated, updates, same⟩ := Option.map_eq_some_iff.mp proceeds
      have moves := moves_update consistent updates (by
        intro row found
        obtain ⟨isId, isVersion, member⟩ := places id version row found
        exact placed_version isId isVersion member)
      rw [← same]
      refine ⟨moves.1, ?_⟩
      cases moves.2 with
      | inl matched =>
          obtain ⟨row, found, published, written, did, _⟩ := matched
          exact Or.inl ⟨row, found, of_decide_eq_true published, written, did⟩
      | inr missed => exact Or.inr ⟨missed.1, missed.2.1⟩
  | lockSegment id =>
      obtain ⟨updated, updates, same⟩ := Option.map_eq_some_iff.mp proceeds
      have moves := moves_update consistent updates fun row _ => placed_segment id row store.known
      rw [← same]
      refine ⟨moves.1, ?_⟩
      cases moves.2 with
      | inl matched =>
          obtain ⟨row, found, _, written, _⟩ := matched
          exact Or.inl ⟨row, found, written⟩
      | inr missed =>
          refine Or.inr ⟨?_, missed.1⟩
          cases found : (sees thread store).view (.segment id) with
          | none => rfl
          | some row => exact absurd (missed.2.2 row found).symm Bool.false_ne_true
  | insertSegment id =>
      obtain ⟨inserted, inserts, same⟩ := Option.map_eq_some_iff.mp proceeds
      cases Store.insertRow_cases inserts with
      | inl refused =>
          rw [refused] at same
          rw [← same]
          exact ⟨moves_self consistent, rfl⟩
      | inr placed =>
          obtain ⟨absent, free, isInserted⟩ := placed
          rw [isInserted] at same
          rw [← same]
          constructor
          · exact moves_write consistent free rfl rfl (fun _ member => member)
              (placed_segment id _ store.known)
          · exact ⟨(view_sees thread store).symm ▸ absent, sees_write _ _⟩
  | insertItem segmentId item =>
      obtain ⟨updated, updates, same⟩ := Option.map_eq_some_iff.mp proceeds
      have moves := moves_update consistent updates
        fun row _ => placed_segment segmentId _ store.known
      rw [← same]
      refine ⟨moves.1, ?_⟩
      cases moves.2 with
      | inl matched =>
          obtain ⟨row, found, _, written, did, _⟩ := matched
          rw [did]
          exact ⟨row, found, written⟩
      | inr missed =>
          rw [missed.2.1]
          exact missed.1
  | markRolledBack segmentId =>
      obtain ⟨updated, updates, same⟩ := Option.map_eq_some_iff.mp proceeds
      have moves := moves_update consistent updates
        fun row _ => placed_segment segmentId _ store.known
      rw [← same]
      refine ⟨moves.1, ?_⟩
      cases moves.2 with
      | inl matched =>
          obtain ⟨row, found, _, written, _⟩ := matched
          exact Or.inl ⟨row, found, written⟩
      | inr missed =>
          refine Or.inr ⟨?_, missed.1⟩
          cases found : (sees thread store).view (.segment segmentId) with
          | none => rfl
          | some row => exact absurd (missed.2.2 row found).symm Bool.false_ne_true
  | commits =>
      rw [← Option.some.inj proceeds]
      exact ⟨moves_commit consistent allowed, sees_commit⟩
  | rollsBack =>
      rw [← Option.some.inj proceeds]
      exact ⟨moves_rollback consistent, sees_rollback⟩

theorem perform_does {digest : OntologyDefinition → String} (consistent : store.Consistent)
    {statement : OntologyStatement} {input : OntologyInput}
    {moved : OntologyStore × Except OntologyError statement.Answer}
    (allowed : (ontologyConduct digest).allowed statement (sees thread store))
    (performed : performOntology thread statement input store = some moved) :
    Moves thread store moved.1 ∧
      statementDoes statement (sees thread store) moved.2 (sees thread moved.1) := by
  cases input with
  | proceeds => exact proceed_does consistent allowed performed
  | fails =>
      cases statement with
      | commits =>
          rw [← Option.some.inj performed]
          exact ⟨moves_rollback consistent, sees_rollback⟩
      | rollsBack =>
          rw [← Option.some.inj performed]
          exact ⟨moves_rollback consistent, sees_rollback⟩
      | _ =>
          rw [← Option.some.inj performed]
          exact ⟨moves_self consistent, rfl⟩

/-- No transaction under way, and nothing written. -/
structure Idle (here : OntologyTables) : Prop where
  wellFormed : here.WellFormed
  unlocked : here.locked = false
  clean : ∀ key, here.own key = none

theorem realises (digest : OntologyDefinition → String) :
    Conduct.Realises ontologyMachine (ontologyConduct digest) sees Consistent Idle where
  performs thread statement input store moved consistent allowed performed := by
    obtain ⟨moves, does⟩ := perform_does consistent allowed performed
    exact ⟨moves.consistent, does, moves.others⟩
  abandons thread store consistent := by
    have moves : Moves thread store (store.rollback thread) := moves_rollback consistent
    have seen : sees thread (store.rollback thread) = _ := sees_rollback
    refine ⟨moves.consistent, ?_, moves.others⟩
    change Idle (sees thread (store.rollback thread))
    have wellFormed := moves.consistent.wellFormed thread
    rw [seen] at wellFormed ⊢
    exact ⟨wellFormed, rfl, fun _ => rfl⟩

end OntologyStore
end NextTime.Ontology
