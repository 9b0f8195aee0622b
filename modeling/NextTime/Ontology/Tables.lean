import NextTime.Ontology.Publishing

/-
What a transaction knows of the ontology: whether it holds the namespace, what
is committed, what it has written. What every committed state satisfies, what a
commit may change, and what the others may change meanwhile: for whoever holds
the namespace, only new drafts.
-/

namespace NextTime.Ontology

open Interleaving

/-! ### States -/

/-- The row is its family's highest published version. -/
structure IsHead (rows : OntologyRows) (row : OntologyVersionRow) : Prop where
  present : rows (.version row.id row.version) = some row
  published : row.status = .published
  highest : ∀ version other, rows (.version row.id version) = some other →
    other.status = .published → version ≤ row.version

/-- One owner for every ObjectType and ActionType name among the heads. -/
structure OneOwner (rows : OntologyRows) : Prop where
  once : ∀ row, IsHead rows row → row.definition.typeKeys.Nodup
  apart : ∀ first second, IsHead rows first → IsHead rows second → first.id ≠ second.id →
    first.definition.typeKeys.Disjoint second.definition.typeKeys

/-- The rows the references name are there, and no name is in two of them. -/
structure Coexist (rows : OntologyRows) (heads : List (Nat × Option OntologyVersionRef)) :
    Prop where
  present : ∀ id ref, (id, some ref) ∈ heads → ∃ row, rows (.version id ref.version) = some row
  apart : ∀ first second firstRef secondRef firstRow secondRow,
    (first, some firstRef) ∈ heads → (second, some secondRef) ∈ heads → first ≠ second →
      rows (.version first firstRef.version) = some firstRow →
        rows (.version second secondRef.version) = some secondRow →
          firstRow.definition.typeKeys.Disjoint secondRow.definition.typeKeys

def StoredOntologyItem.restores (item : StoredOntologyItem) : Nat × Option OntologyVersionRef :=
  (item.ontologyId, item.before)

/-- What is recorded of a segment: an item at least, each target once, befores that were heads
together; and once it is rolled back, what it published is retired. -/
structure Recorded (rows : OntologyRows) (segment : ChangeSegmentRow) : Prop where
  nonempty : segment.items ≠ []
  distinct : (segment.items.map StoredOntologyItem.ontologyId).Nodup
  coexist : Coexist rows (segment.items.map StoredOntologyItem.restores)
  retired : segment.status = .rolledBack → ∀ item ∈ segment.items,
    ∃ row, rows (.version item.ontologyId item.after.version) = some row ∧ row.status = .deprecated

structure GoodVersions (rows : OntologyRows) : Prop where
  bases : ∀ id version row, rows (.version id version) = some row → row.baseBelow = true
  owners : OneOwner rows

/-- All segments but the one being recorded. -/
def GoodSegments (rows : OntologyRows) (except : Option Nat) : Prop :=
  ∀ id segment, rows (.segment id) = some segment → some id ≠ except → Recorded rows segment

structure Good (rows : OntologyRows) : Prop where
  versions : GoodVersions rows
  segments : GoodSegments rows none

/-! ### Commits -/

/-- The family's head is the version of the reference, or there is none. -/
def HeadIs (digest : OntologyDefinition → String) (rows : OntologyRows) (id : Nat) :
    Option OntologyVersionRef → Prop
  | none => ∀ version row, rows (.version id version) = some row → row.status ≠ .published
  | some ref => ∃ row, IsHead rows row ∧ row.id = id ∧ refOf digest row = ref

/-- The number of the family's head, or none. -/
def HeadNumber (rows : OntologyRows) (id : Nat) : Option Nat → Prop
  | none => ∀ version row, rows (.version id version) = some row → row.status ≠ .published
  | some version => ∃ row, IsHead rows row ∧ row.id = id ∧ row.version = version

/-- A version goes from draft to published to deprecated, and is otherwise as it was. -/
inductive Advances (before : OntologyVersionRow) : OntologyVersionRow → Prop
  | same : Advances before before
  | publish (publishedBy : Nat) (draft : before.status = .draft) :
      Advances before (before.publish publishedBy)
  | retire (published : before.status = .published) : Advances before before.deprecate

/-- No version is lost. -/
def VersionsAdvance (before after : OntologyRows) : Prop :=
  ∀ id version row, before (.version id version) = some row →
    ∃ next, after (.version id version) = some next ∧ Advances row next

/-- No segment is lost, nor what it changed. -/
def SegmentsStay (before after : OntologyRows) : Prop :=
  ∀ id segment, before (.segment id) = some segment →
    ∃ next, after (.segment id) = some next ∧ next.items = segment.items

/-- What a commit makes of the rows before it. -/
structure Follows (digest : OntologyDefinition → String) (before after : OntologyRows) : Prop where
  versions : VersionsAdvance before after
  segments : SegmentsStay before after
  /-- A draft that is published replaces the head it was proposed against. -/
  drafts : ∀ id version row next, before (.version id version) = some row →
    after (.version id version) = some next → row.status = .draft → next.status = .published →
      HeadNumber before id row.baseVersion ∧ HeadNumber after id (some version)
  /-- A rollback brings the recorded versions back, and changes no other family. -/
  rollbacks : ∀ id segment next, before (.segment id) = some segment →
    after (.segment id) = some next → segment.status = .applied → next.status = .rolledBack →
      (∀ item ∈ segment.items, HeadIs digest before item.ontologyId (some item.after) ∧
        HeadIs digest after item.ontologyId item.before) ∧
      ∀ family version, family ∉ segment.items.map StoredOntologyItem.ontologyId →
        after (.version family version) = before (.version family version)
  /-- Only a rollback retires a version. -/
  retired : ∀ family version row next, before (.version family version) = some row →
    after (.version family version) = some next → next.status = .deprecated →
      row.status ≠ .deprecated →
        ∃ id segment rolledBack item, before (.segment id) = some segment ∧
          after (.segment id) = some rolledBack ∧ segment.status = .applied ∧
            rolledBack.status = .rolledBack ∧ item ∈ segment.items ∧
              item.ontologyId = family ∧ item.after.version = version

theorem Follows.refl (digest : OntologyDefinition → String) (rows : OntologyRows) :
    Follows digest rows rows where
  versions _ _ row found := ⟨row, found, .same⟩
  drafts _ _ row next found again draft published := by
    rw [found] at again
    cases again
    rw [draft] at published
    cases published
  segments _ segment found := ⟨segment, found, rfl⟩
  rollbacks _ segment next found again applied rolledBack := by
    rw [found] at again
    cases again
    rw [applied] at rolledBack
    cases rolledBack
  retired _ _ row next found again retired was := by
    rw [found] at again
    cases again
    exact absurd retired was

/-- Versions stand under their key, and every key is known. -/
def Places (known : List (Nat × Nat)) (rows : OntologyRows) : Prop :=
  ∀ id version row, rows (.version id version) = some row →
    row.id = id ∧ row.version = version ∧ (id, version) ∈ known

theorem Places.mono {known more : List (Nat × Nat)} {rows : OntologyRows}
    (places : Places known rows) (grows : ∀ key ∈ known, key ∈ more) : Places more rows := by
  intro id version row found
  obtain ⟨isId, isVersion, member⟩ := places id version row found
  exact ⟨isId, isVersion, grows _ member⟩

theorem places_none (known : List (Nat × Nat)) : Places known fun _ => none :=
  fun _ _ _ found => (nomatch found)

/-! ### A transaction's tables -/

structure OntologyTables where
  /-- The transaction holds the workspace's ontology namespace. -/
  locked : Bool
  committed : OntologyRows
  own : OntologyRows
  known : List (Nat × Nat)

namespace OntologyTables

def view (tables : OntologyTables) : OntologyRows :=
  fun key => (tables.own key).or (tables.committed key)

def write (tables : OntologyTables) (key : OntologyKey) (row : key.Row) : OntologyTables :=
  { tables with own := Function.update tables.own key (some row) }

/-- After COMMIT or ROLLBACK. -/
def ended (tables : OntologyTables) (committed : OntologyRows) : OntologyTables where
  locked := false
  committed := committed
  own := fun _ => none
  known := tables.known

structure WellFormed (tables : OntologyTables) : Prop where
  good : Good tables.committed
  committed : Places tables.known tables.committed
  own : Places tables.known tables.own

theorem WellFormed.view {tables : OntologyTables} (wellFormed : tables.WellFormed) :
    Places tables.known tables.view := by
  intro id version row found
  rw [OntologyTables.view] at found
  cases written : tables.own (.version id version) with
  | none =>
      rw [written, Option.none_or] at found
      exact wellFormed.committed id version row found
  | some mine =>
      rw [written, Option.some_or] at found
      exact wellFormed.own id version row (written.trans found)

@[simp]
theorem own_write_self (tables : OntologyTables) (key : OntologyKey) (row : key.Row) :
    (tables.write key row).own key = some row :=
  Function.update_self ..

theorem own_write_of_ne (tables : OntologyTables) {key other : OntologyKey} (row : key.Row)
    (different : other ≠ key) : (tables.write key row).own other = tables.own other :=
  Function.update_of_ne different ..

@[simp]
theorem view_write_self (tables : OntologyTables) (key : OntologyKey) (row : key.Row) :
    (tables.write key row).view key = some row := by
  rw [view, own_write_self, Option.some_or]

theorem view_write (tables : OntologyTables) (key : OntologyKey) (row : key.Row) :
    (tables.write key row).view = Function.update tables.view key (some row) := by
  funext other
  by_cases same : other = key
  · subst same
    rw [view_write_self, Function.update_self]
  · rw [Function.update_of_ne same, view, own_write_of_ne tables row same]
    rfl

theorem view_write_of_ne (tables : OntologyTables) {key other : OntologyKey} (row : key.Row)
    (different : other ≠ key) : (tables.write key row).view other = tables.view other := by
  rw [view_write, Function.update_of_ne different]

end OntologyTables

/-- The rows gain drafts, and nothing else. -/
def GainsDrafts (before after : OntologyRows) : Prop :=
  ∀ key, after key = before key ∨
    (before key = none ∧ ∃ id version row, key = .version id version ∧
      after (.version id version) = some row ∧ row.status = .draft)

/-- What other transactions may do to a transaction's tables. -/
structure Meanwhile (here next : OntologyTables) : Prop where
  locked : next.locked = here.locked
  own : next.own = here.own
  known : ∀ key ∈ here.known, key ∈ next.known
  /-- A row it has written is not committed by another. -/
  kept : ∀ key, here.own key ≠ none → next.committed key = here.committed key
  segments : SegmentsStay here.committed next.committed
  wellFormed : here.WellFormed → next.WellFormed
  drafts : here.locked = true → GainsDrafts here.committed next.committed

theorem SegmentsStay.refl (rows : OntologyRows) : SegmentsStay rows rows :=
  fun _ segment found => ⟨segment, found, rfl⟩

theorem SegmentsStay.trans {first second third : OntologyRows}
    (earlier : SegmentsStay first second) (later : SegmentsStay second third) :
    SegmentsStay first third := by
  intro id segment found
  obtain ⟨middle, foundMiddle, same⟩ := earlier id segment found
  obtain ⟨next, foundNext, sameNext⟩ := later id middle foundMiddle
  exact ⟨next, foundNext, sameNext.trans same⟩

theorem GainsDrafts.refl (rows : OntologyRows) : GainsDrafts rows rows := fun _ => Or.inl rfl

theorem GainsDrafts.trans {first second third : OntologyRows} (earlier : GainsDrafts first second)
    (later : GainsDrafts second third) : GainsDrafts first third := by
  intro key
  cases later key with
  | inl same =>
      cases earlier key with
      | inl before => exact Or.inl (same.trans before)
      | inr gained =>
          obtain ⟨absent, id, version, row, isKey, found, draft⟩ := gained
          rw [isKey] at same
          exact Or.inr ⟨absent, id, version, row, isKey, same.trans found, draft⟩
  | inr gained =>
      obtain ⟨absent, later⟩ := gained
      cases earlier key with
      | inl before => exact Or.inr ⟨before.symm.trans absent, later⟩
      | inr before =>
          obtain ⟨_, id, version, row, isKey, found, _⟩ := before
          rw [isKey, found] at absent
          cases absent

/-- What a statement does to the tables of its transaction. -/
def statementDoes :
    (statement : OntologyStatement) → OntologyTables →
      Except OntologyError statement.Answer → OntologyTables → Prop
  | .commits, here, .ok _, next => next = here.ended here.view
  | .commits, here, .error _, next => next = here.ended here.committed
  | .rollsBack, here, _, next => next = here.ended here.committed
  | _, here, .error _, next => next = here
  | .lockNamespace, here, .ok _, next => next = { here with locked := true }
  | .lockFamily _, here, .ok _, next => next = here
  | .query asked, here, .ok answer, next =>
      next = here ∧ answer = asked.answer here.view (versionsOf here.known here.view)
  | .insertVersion row, here, .ok _, next =>
      row.baseBelow = true ∧ here.view (.version row.id row.version) = none ∧
        next = { here.write (.version row.id row.version) row with
          known := here.known.insert (row.id, row.version) }
  | .publishDraft id version publishedBy, here, .ok answer, next =>
      (∃ row, here.view (.version id version) = some row ∧ row.publishable publishedBy = true ∧
        next = here.write (.version id version) (row.publish publishedBy) ∧
          answer = some (row.publish publishedBy)) ∨
        (next = here ∧ answer = none)
  | .deprecateVersion id version, here, .ok answer, next =>
      (∃ row, here.view (.version id version) = some row ∧ row.status = .published ∧
        next = here.write (.version id version) row.deprecate ∧ answer = true) ∨
        (next = here ∧ answer = false)
  | .lockSegment id, here, .ok _, next =>
      (∃ row, here.view (.segment id) = some row ∧ next = here.write (.segment id) row) ∨
        (here.view (.segment id) = none ∧ next = here)
  | .insertSegment id, here, .ok _, next =>
      here.view (.segment id) = none ∧ next = here.write (.segment id) ⟨.applied, []⟩
  | .insertItem segmentId item, here, .ok _, next =>
      ∃ row, here.view (.segment segmentId) = some row ∧
        next = here.write (.segment segmentId) { row with items := row.items ++ [item] }
  | .markRolledBack segmentId, here, .ok _, next =>
      (∃ row, here.view (.segment segmentId) = some row ∧
        next = here.write (.segment segmentId) { row with status := .rolledBack }) ∨
        (here.view (.segment segmentId) = none ∧ next = here)

/-- What a transaction has to have reached to commit. -/
structure Commits (digest : OntologyDefinition → String) (here : OntologyTables) : Prop where
  good : Good here.view
  follows : Follows digest here.committed here.view
  drafts : here.locked = false → GainsDrafts here.committed here.view

def ontologyConduct (digest : OntologyDefinition → String) :
    Conduct OntologyTables OntologyStatement OntologyStatement.Answer OntologyError where
  rely := Meanwhile
  does := statementDoes
  allowed statement here :=
    match statement with
    | .commits => Commits digest here
    | _ => True
  rely_refl here :=
    ⟨rfl, rfl, fun _ member => member, fun _ _ => rfl, SegmentsStay.refl _, id,
      fun _ => GainsDrafts.refl _⟩
  rely_trans := by
    intro first second third earlier later
    constructor
    · exact later.locked.trans earlier.locked
    · exact later.own.trans earlier.own
    · exact fun key member => later.known key (earlier.known key member)
    · intro key written
      exact (later.kept key (earlier.own ▸ written)).trans (earlier.kept key written)
    · exact earlier.segments.trans later.segments
    · exact fun wellFormed => later.wellFormed (earlier.wellFormed wellFormed)
    · exact fun locked =>
        (earlier.drafts locked).trans (later.drafts (earlier.locked.trans locked))

end NextTime.Ontology
