import NextTime.Ontology.Specifications

/-
The publishers of versions: the loader, the registry's proposals and drafts, and
the items of a ChangePlan segment. All but the drafts only add rows.
-/

namespace NextTime.Ontology

open Interleaving Interleaving.Conduct OntologyStore

variable {digest : OntologyDefinition → String}

/-! ### Rows that are only added -/

/-- No row is lost or changed. -/
def Extends (rows after : OntologyRows) : Prop :=
  ∀ (key : OntologyKey) (row : key.Row), rows key = some row → after key = some row

theorem Extends.advance {rows after : OntologyRows} (adds : Extends rows after) :
    VersionsAdvance rows after :=
  fun _ _ row found => ⟨row, adds _ row found, .same⟩

theorem GainsDrafts.adds {rows after : OntologyRows} (gains : GainsDrafts rows after) :
    Extends rows after :=
  fun _ _ found => gains.found found

theorem extends_update {rows : OntologyRows} {key : OntologyKey} {row : key.Row}
    (absent : rows key = none) : Extends rows (Function.update rows key (some row)) := by
  intro other old found
  by_cases same : other = key
  · subst same
    rw [absent] at found
    cases found
  · rw [Function.update_of_ne same]
    exact found

theorem Extends.follows {rows after : OntologyRows} (adds : Extends rows after) :
    Follows digest rows after where
  versions := adds.advance
  segments _ segment found := ⟨segment, adds _ segment found, rfl⟩
  drafts _ _ row next found again draft published := by
    rw [adds _ row found] at again
    rw [← Option.some.inj again, draft] at published
    cases published
  rollbacks _ segment next found again applied rolledBack := by
    rw [adds _ segment found] at again
    rw [← Option.some.inj again, applied] at rolledBack
    cases rolledBack
  retired _ _ row next found again retired was := by
    rw [adds _ row found] at again
    exact absurd (Option.some.inj again ▸ retired) was

/-- Facts about the rows that no further row changes. -/
def Grows (fact : OntologyRows → Prop) : Prop :=
  ∀ rows after, Extends rows after → fact rows → fact after

theorem Grows.kept {fact : OntologyRows → Prop} (grows : Grows fact) : Kept fact :=
  fun rows after gains holds => grows rows after gains.adds holds

theorem kept_true : Kept fun _ => True := fun _ _ _ _ => trivial

theorem kept_and {first second : OntologyRows → Prop} (left : Kept first) (right : Kept second) :
    Kept fun rows => first rows ∧ second rows :=
  fun rows after gains holds => ⟨left rows after gains holds.1, right rows after gains holds.2⟩

theorem kept_clear (candidateId : Option Nat) (definition : OntologyDefinition) :
    Kept fun rows => Clear rows candidateId definition :=
  fun _ _ gains clear => gains.clear clear

/-- It holds the namespace and has only added rows; the items of one segment may be missing. -/
structure Publishing (except : Option Nat) (here : OntologyTables) : Prop
    extends Holding here where
  versions : GoodVersions here.view
  segments : GoodSegments here.view except
  inserts : ∀ key, here.own key ≠ none → here.committed key = none
  fresh : ∀ id, except = some id → here.committed (.segment id) = none

theorem Publishing.adds {except : Option Nat} {here : OntologyTables}
    (publishing : Publishing except here) : Extends here.committed here.view := by
  intro key row found
  have unwritten : here.own key = none := by
    by_contra written
    have absent := publishing.inserts key written
    rw [found] at absent
    cases absent
  rw [OntologyTables.view, unwritten, Option.none_or]
  exact found

theorem Publishing.ready {here : OntologyTables} (publishing : Publishing none here) :
    Ready digest here :=
  ⟨publishing.toHolding, ⟨publishing.versions, publishing.segments⟩, publishing.adds.follows⟩

theorem Clean.publishing {here : OntologyTables} (clean : Clean here) : Publishing none here where
  toHolding := clean.toHolding
  versions := clean.view ▸ clean.wellFormed.good.versions
  segments := clean.view ▸ clean.wellFormed.good.segments
  inserts key written := absurd (clean.unwritten key) written
  fresh _ impossible := (nomatch impossible)

theorem steady_publishing {except : Option Nat} {fact : OntologyRows → Prop} (kept : Kept fact) :
    Steady fun here => Publishing except here ∧ fact here.view := by
  intro before here holds meanwhile
  obtain ⟨publishing, known⟩ := holds
  have gains := meanwhile.gains publishing.locked
  constructor
  · constructor
    · exact publishing.toHolding.meanwhile meanwhile
    · exact meanwhile.good publishing.toHolding publishing.versions
    · exact gains.segments publishing.segments
    · intro key written
      rw [meanwhile.own] at written
      rw [meanwhile.kept key written]
      exact publishing.inserts key written
    · intro id same
      rw [(meanwhile.drafts publishing.locked).segment]
      exact publishing.fresh id same
  · exact kept _ _ gains known

/-! ### Writes -/

/-- The tables after an INSERT of a version. -/
def OntologyTables.insertVersion (here : OntologyTables) (row : OntologyVersionRow) :
    OntologyTables :=
  { here.write (.version row.id row.version) row with
    known := here.known.insert (row.id, row.version) }

namespace OntologyTables.WellFormed

theorem insertVersion {here : OntologyTables} (wellFormed : here.WellFormed)
    (row : OntologyVersionRow) : (here.insertVersion row).WellFormed := by
  refine ⟨wellFormed.good,
    wellFormed.committed.mono fun _ member => List.mem_insert_of_mem member, ?_⟩
  intro id version found written
  change Function.update here.own (.version row.id row.version) (some row) (.version id version) =
    some found at written
  by_cases same : OntologyKey.version id version = .version row.id row.version
  · cases same
    rw [Function.update_self] at written
    cases written
    exact ⟨rfl, rfl, List.mem_insert_self⟩
  · rw [Function.update_of_ne same] at written
    obtain ⟨isId, isVersion, member⟩ := wellFormed.own id version found written
    exact ⟨isId, isVersion, List.mem_insert_of_mem member⟩

theorem write_version {here : OntologyTables} (wellFormed : here.WellFormed) {id version : Nat}
    {old row : OntologyVersionRow} (present : here.view (.version id version) = some old)
    (isId : row.id = old.id) (isVersion : row.version = old.version) :
    (here.write (.version id version) row).WellFormed := by
  refine ⟨wellFormed.good, wellFormed.committed, ?_⟩
  intro otherId otherVersion found written
  change Function.update here.own (.version id version) (some row)
    (.version otherId otherVersion) = some found at written
  by_cases same : OntologyKey.version otherId otherVersion = .version id version
  · cases same
    rw [Function.update_self] at written
    cases written
    obtain ⟨oldId, oldVersion, member⟩ := wellFormed.view id version old present
    exact ⟨isId.trans oldId, isVersion.trans oldVersion, member⟩
  · rw [Function.update_of_ne same] at written
    exact wellFormed.own otherId otherVersion found written

theorem write_segment {here : OntologyTables} (wellFormed : here.WellFormed) (id : Nat)
    (segment : ChangeSegmentRow) : (here.write (.segment id) segment).WellFormed := by
  refine ⟨wellFormed.good, wellFormed.committed, ?_⟩
  intro otherId version found written
  have different : OntologyKey.version otherId version ≠ .segment id := fun same => (nomatch same)
  rw [own_write_of_ne here segment different] at written
  exact wellFormed.own otherId version found written

end OntologyTables.WellFormed

theorem inserts_write {here : OntologyTables} {key : OntologyKey} {row : key.Row}
    (inserts : ∀ other, here.own other ≠ none → here.committed other = none)
    (absent : here.committed key = none) :
    ∀ other, (here.write key row).own other ≠ none → here.committed other = none := by
  intro other written
  by_cases same : other = key
  · exact same ▸ absent
  · rw [OntologyTables.own_write_of_ne here row same] at written
    exact inserts other written

theorem committed_none {here : OntologyTables} {key : OntologyKey}
    (absent : here.view key = none) : here.committed key = none := by
  rw [OntologyTables.view, Option.or_eq_none_iff] at absent
  exact absent.2

theorem bases_update {rows : OntologyRows} {key : Nat × Nat} {row : OntologyVersionRow}
    (bases : ∀ id version row, rows (.version id version) = some row → row.baseBelow = true)
    (below : row.baseBelow = true) :
    ∀ id version other, Function.update rows (.version key.1 key.2) (some row)
      (.version id version) = some other → other.baseBelow = true := by
  intro id version other found
  by_cases same : OntologyKey.version id version = .version key.1 key.2
  · cases same
    rw [Function.update_self] at found
    exact Option.some.inj found ▸ below
  · rw [Function.update_of_ne same] at found
    exact bases id version other found

theorem Publishing.insertVersion {except : Option Nat} {here : OntologyTables}
    (publishing : Publishing except here) {row : OntologyVersionRow}
    (below : row.baseBelow = true) (absent : here.view (.version row.id row.version) = none)
    {candidateId : Option Nat} (clear : Clear here.view candidateId row.definition)
    (own : ∀ other, other ≠ row.id → some other ≠ candidateId) :
    Publishing except (here.insertVersion row) := by
  have views : (here.insertVersion row).view =
      Function.update here.view (.version row.id row.version) (some row) :=
    OntologyTables.view_write here (.version row.id row.version) row
  have unpublished : ∀ old, here.view (.version row.id row.version) = some old →
      old.status ≠ .published := by
    intro old found
    rw [absent] at found
    cases found
  constructor
  · exact ⟨publishing.wellFormed.insertVersion row, publishing.locked⟩
  · rw [views]
    exact ⟨@bases_update _ (row.id, row.version) row publishing.versions.bases below,
      oneOwner_update unpublished publishing.versions.owners clear own⟩
  · rw [views]
    intro id segment found other
    have different : OntologyKey.segment id ≠ .version row.id row.version :=
      fun same => (nomatch same)
    rw [Function.update_of_ne different] at found
    exact (publishing.segments id segment found other).carry (extends_update absent).advance
  · exact inserts_write publishing.inserts (committed_none absent)
  · exact publishing.fresh

/-! ### The loader -/

theorem assertOntologyNamespace_ensures {before : OntologyTables → Prop} (steady : Steady before)
    (wellFormed : ∀ here, before here → here.WellFormed) (candidateId : Option Nat)
    (candidate : OntologyDefinition) :
    Ensures digest before (assertOntologyNamespace candidateId candidate)
      fun _ here => before here ∧ Clear here.view candidateId candidate := by
  have asking : Ensures digest before (ask (.headsOfOthers candidateId))
      fun (others : List (Nat × OntologyDefinition)) here => before here ∧
        (findOntologyNamespaceConflicts candidateId candidate others = [] →
          Clear here.view candidateId candidate) := by
    apply ensures_ask steady wellFormed
    intro here holds
    exact ⟨holds, clear_of_noConflicts (wellFormed here holds).view⟩
  apply asking.seq
  intro others
  dsimp only
  split
  next free =>
    apply ensures_pure
    intro here holds
    exact ⟨holds.1, holds.2 free⟩
  next => exact ensures_throw fun here holds => wellFormed here holds.1

theorem nextVersion_ensures {before : OntologyTables → Prop} (steady : Steady before)
    (wellFormed : ∀ here, before here → here.WellFormed) (id : Option Nat) :
    Ensures digest before (nextVersion id) fun _ => before := by
  cases id with
  | none => exact ensures_pure fun _ holds => holds
  | some id =>
      apply ensures_ask steady wellFormed
      exact fun _ holds => holds

theorem lockPublisher_ensures (id : Option Nat) {before after : OntologyTables → Prop}
    (steady : Steady before) (wellFormed : ∀ here, before here → here.WellFormed)
    (steadyAfter : Steady after) (wellFormedAfter : ∀ here, after here → here.WellFormed)
    (locks : ∀ here, before here → after { here with locked := true }) :
    Ensures digest before (lockPublisher id) fun _ => after := by
  cases id with
  | none => exact lockOntologyNamespace_ensures steady wellFormed locks
  | some id =>
      exact lockOntologyFamily_ensures id steady wellFormed steadyAfter wellFormedAfter locks

theorem PublishOntologyVersionInput.own (input : PublishOntologyVersionInput) {other : Nat}
    (different : other ≠ input.family) : some other ≠ input.id := by
  intro same
  apply different
  rw [PublishOntologyVersionInput.family, ← same, Option.getD_some]

/-- A version is published for whoever may come to hold the namespace. -/
theorem publishOntologyVersion_ensures (input : PublishOntologyVersionInput)
    {before : OntologyTables → Prop} {except : Option Nat} {fact : OntologyRows → Prop}
    (steady : Steady before) (wellFormed : ∀ here, before here → here.WellFormed)
    (locks : ∀ here : OntologyTables, before here →
      Publishing except { here with locked := true } ∧ fact here.view)
    (grows : Grows fact) :
    Ensures digest before (publishOntologyVersion input)
      fun _ here => Publishing except here ∧ fact here.view := by
  have wellFormedAfter : ∀ here, Publishing except here ∧ fact here.view → here.WellFormed :=
    fun _ holds => holds.1.wellFormed
  have steadyAfter := @steady_publishing except fact grows.kept
  apply (lockPublisher_ensures input.id steady wellFormed steadyAfter wellFormedAfter locks).seq
  intro _
  apply (assertOntologyNamespace_ensures steadyAfter wellFormedAfter input.id
    input.definition).seq
  intro _
  have steadyClear : Steady fun here => (Publishing except here ∧ fact here.view) ∧
      Clear here.view input.id input.definition := by
    intro earlier here holds meanwhile
    exact ⟨steadyAfter earlier here holds.1 meanwhile,
      (meanwhile.gains holds.1.1.locked).clear holds.2⟩
  apply (nextVersion_ensures steadyClear (fun _ holds => holds.1.1.wellFormed) input.id).seq
  intro version
  have inserting : Ensures digest
      (fun here => (Publishing except here ∧ fact here.view) ∧
        Clear here.view input.id input.definition)
      (send (.insertVersion (input.row version)))
      fun _ here => Publishing except here ∧ fact here.view := by
    apply ensures_send rfl steadyClear fun _ holds => holds.1.1.wellFormed
    intro here _ next holds does
    obtain ⟨below, absent, isNext⟩ := does
    rw [isNext]
    constructor
    · exact holds.1.1.insertVersion below absent holds.2 fun _ => input.own
    · apply grows here.view _ _ holds.1.2
      change Extends here.view
        (here.write (.version (input.row version).id (input.row version).version) _).view
      rw [OntologyTables.view_write]
      exact extends_update absent
  apply inserting.seq
  intro _
  exact ensures_pure fun _ holds => holds

/-! ### The registry -/

/-- It has written drafts, under keys that were free. -/
structure Drafted (here : OntologyTables) : Prop where
  wellFormed : here.WellFormed
  drafts : ∀ key, here.own key ≠ none → here.committed key = none ∧
    ∃ id version row, key = .version id version ∧ here.own (.version id version) = some row ∧
      row.status = .draft ∧ row.baseBelow = true

theorem steady_drafted : Steady Drafted := by
  intro before here drafted meanwhile
  refine ⟨meanwhile.wellFormed drafted.wellFormed, ?_⟩
  intro key written
  rw [meanwhile.own] at written ⊢
  rw [meanwhile.kept key written]
  exact drafted.drafts key written

theorem Drafted.gains {here : OntologyTables} (drafted : Drafted here) :
    GainsDrafts here.committed here.view := by
  intro key
  by_cases written : here.own key = none
  · apply Or.inl
    rw [OntologyTables.view, written, Option.none_or]
  · obtain ⟨absent, id, version, row, same, found, draft, _⟩ := drafted.drafts key written
    refine Or.inr ⟨absent, id, version, row, same, ?_, draft⟩
    rw [OntologyTables.view, found, Option.some_or]

theorem Drafted.commits {here : OntologyTables} (drafted : Drafted here) :
    Commits digest here := by
  have gains := drafted.gains
  have good := drafted.wellFormed.good
  refine ⟨⟨⟨?_, gains.owners good.versions.owners⟩, gains.segments good.segments⟩,
    gains.adds.follows, fun _ => gains⟩
  intro id version row found
  by_cases written : here.own (.version id version) = none
  · rw [OntologyTables.view, written, Option.none_or] at found
    exact good.versions.bases id version row found
  · obtain ⟨_, family, number, draft, same, mine, _, below⟩ := drafted.drafts _ written
    cases same
    rw [OntologyTables.view, mine, Option.some_or] at found
    exact Option.some.inj found ▸ below

theorem proposeOntologyChange_ensures (input : ProposeOntologyChangeInput) :
    Ensures digest Idle (proposeOntologyChange input) fun _ => Drafted := by
  have reading : Ensures digest Idle (readBase input.id) fun _ => Idle := by
    cases input.id with
    | none => exact ensures_pure fun _ idle => idle
    | some id =>
        apply ensures_ask steady_idle fun _ idle => idle.wellFormed
        exact fun _ idle => idle
  apply reading.seq
  intro baseVersion
  apply (nextVersion_ensures steady_idle (fun _ idle => idle.wellFormed) input.id).seq
  intro version
  apply ensures_send rfl steady_idle fun _ idle => idle.wellFormed
  intro here _ next idle does
  obtain ⟨below, absent, isNext⟩ := does
  rw [isNext]
  have free := committed_none absent
  refine ⟨idle.wellFormed.insertVersion (input.row baseVersion version), ?_⟩
  intro key written
  by_cases same : key = .version (input.row baseVersion version).id
      (input.row baseVersion version).version
  · rw [same]
    refine ⟨free, _, _, input.row baseVersion version, rfl, ?_, rfl, below⟩
    exact Function.update_self ..
  · have untouched := OntologyTables.own_write_of_ne here (input.row baseVersion version) same
    exact absurd (untouched.trans (idle.clean key)) written

/-- A draft is published over the head it was proposed against. -/
theorem Clean.publishDraft {here : OntologyTables} (clean : Clean here) {id version : Nat}
    {draft : OntologyVersionRow} (present : here.view (.version id version) = some draft)
    (unpublished : draft.status = .draft) (base : HeadNumber here.view id draft.baseVersion)
    (clear : Clear here.view (some id) draft.definition) (publishedBy : Nat) :
    Ready digest (here.write (.version id version) (draft.publish publishedBy)) := by
  obtain ⟨isId, isVersion, _⟩ := clean.wellFormed.view id version draft present
  have good : Good here.view := ⟨clean.publishing.versions, clean.publishing.segments⟩
  have wasDraft : ∀ old, here.view (.version id version) = some old → old.status ≠ .published := by
    intro old found
    rw [present] at found
    rw [← Option.some.inj found, unpublished]
    exact fun same => (nomatch same)
  have below := good.versions.bases id version draft present
  have advance : VersionsAdvance here.view
      (Function.update here.view (.version id version) (some (draft.publish publishedBy))) := by
    intro family number row found
    by_cases same : OntologyKey.version family number = .version id version
    · cases same
      rw [present] at found
      rw [Function.update_self, ← Option.some.inj found]
      exact ⟨_, rfl, .publish publishedBy unpublished⟩
    · rw [Function.update_of_ne same]
      exact ⟨row, found, .same⟩
  have segments : ∀ segment, Function.update here.view (.version id version)
      (some (draft.publish publishedBy)) (.segment segment) = here.view (.segment segment) := by
    intro segment
    have different : OntologyKey.segment segment ≠ .version id version := fun same => (nomatch same)
    exact Function.update_of_ne different ..
  have head : HeadNumber (Function.update here.view (.version id version)
      (some (draft.publish publishedBy))) id (some version) := by
    refine ⟨draft.publish publishedBy, ⟨?_, rfl, ?_⟩, isId, isVersion⟩
    · change Function.update here.view _ _ (.version draft.id draft.version) = _
      rw [isId, isVersion, Function.update_self]
    · intro number other found published
      change number ≤ draft.version
      change Function.update here.view _ _ (.version draft.id number) = _ at found
      rw [isId] at found
      by_cases same : OntologyKey.version id number = .version id version
      · exact (OntologyKey.version.inj same).2.le.trans isVersion.ge
      · rw [Function.update_of_ne same] at found
        -- Whatever was published is at most the base, and the draft's number is above its base.
        cases isBase : draft.baseVersion with
        | none =>
            rw [isBase] at base
            exact absurd published (base number other found)
        | some number' =>
            rw [isBase] at base
            obtain ⟨top, isTop, topId, topVersion⟩ := base
            have atMost := isTop.highest number other (topId ▸ found) published
            rw [OntologyVersionRow.baseBelow, isBase, Option.all_some,
              decide_eq_true_eq] at below
            omega
  have views := clean.view
  refine ⟨⟨clean.wellFormed.write_version present rfl rfl, clean.locked⟩, ?_, ?_⟩
  · rw [OntologyTables.view_write]
    refine ⟨⟨@bases_update _ (id, version) _ good.versions.bases below, ?_⟩, ?_⟩
    · have clearRow : Clear here.view (some id) (draft.publish publishedBy).definition := clear
      apply oneOwner_update wasDraft good.versions.owners clearRow
      intro other different same
      exact different ((Option.some.inj same).trans isId.symm)
    · intro segment row found other
      rw [segments] at found
      exact (good.segments segment row found other).carry advance
  · change Follows digest here.committed _
    rw [OntologyTables.view_write, ← views]
    constructor
    · exact advance
    · intro segment row found
      exact ⟨row, (segments segment).trans found, rfl⟩
    · intro family number row next found again isDraft published
      by_cases same : OntologyKey.version family number = .version id version
      · cases same
        rw [present] at found
        exact ⟨Option.some.inj found ▸ base, head⟩
      · rw [Function.update_of_ne same, found] at again
        rw [← Option.some.inj again, isDraft] at published
        cases published
    · intro segment row next found again applied rolledBack
      rw [segments, found] at again
      rw [← Option.some.inj again, applied] at rolledBack
      cases rolledBack
    · intro family number row next found again retired was
      by_cases same : OntologyKey.version family number = .version id version
      · cases same
        rw [Function.update_self] at again
        rw [← Option.some.inj again] at retired
        cases retired
      · rw [Function.update_of_ne same, found] at again
        exact absurd (Option.some.inj again ▸ retired) was

theorem publishOntologyDraft_ensures (input : PublishOntologyDraftInput) :
    Ensures digest Idle (publishOntologyDraft input) fun _ => Ready digest := by
  have steadyLocked : Steady fun here => Clean here ∧ True := steady_clean kept_true
  apply (lockOntologyFamily_ensures input.id steady_idle (fun _ idle => idle.wellFormed)
    steadyLocked (fun _ holds => holds.1.wellFormed) fun _ idle => ⟨idle.locks, trivial⟩).seq
  intro _
  have reading : Ensures digest (fun here => Clean here ∧ True)
      (ask (.draft input.id input.version input.publishedBy))
      fun (found : Option OntologyVersionRow) here => Clean here ∧ ∀ draft, found = some draft →
        here.view (.version input.id input.version) = some draft ∧ draft.status = .draft := by
    apply ensures_ask steadyLocked fun _ holds => holds.1.wellFormed
    intro here holds
    refine ⟨holds.1, ?_⟩
    intro draft found
    obtain ⟨loaded, test⟩ := Option.filter_eq_some_iff.mp found
    rw [Bool.and_eq_true, decide_eq_true_eq] at test
    exact ⟨version_some holds.1.wellFormed.view loaded, test.1⟩
  apply reading.seq
  intro found
  cases found with
  | none => exact ensures_throw fun _ holds => holds.1.wellFormed
  | some draft =>
      have keptDraft : Kept fun rows =>
          rows (.version input.id input.version) = some draft ∧ draft.status = .draft :=
        fun _ _ gains holds => ⟨gains.found holds.1, holds.2⟩
      have asking : Ensures digest
          (fun here => Clean here ∧
            here.view (.version input.id input.version) = some draft ∧ draft.status = .draft)
          (ask (.publishedHeadVersion input.id))
          fun (head : Option Nat) here => Clean here ∧
            (here.view (.version input.id input.version) = some draft ∧ draft.status = .draft) ∧
              HeadNumber here.view input.id head := by
        apply ensures_ask (steady_clean keptDraft) fun _ holds => holds.1.wellFormed
        intro here holds
        exact ⟨holds.1, holds.2, headNumber_answer holds.1.wellFormed.view input.id⟩
      apply (asking.weaken fun here holds => ⟨holds.1, holds.2 draft rfl⟩).seq
      intro head
      split
      next atBase =>
        have keptHead : Kept fun rows => HeadNumber rows input.id head :=
          fun _ _ gains holds => gains.headNumber holds
        have keptBoth := kept_and keptDraft keptHead
        apply (assertOntologyNamespace_ensures (steady_clean keptBoth)
          (fun _ holds => holds.1.wellFormed) (some input.id) draft.definition).seq
        intro _
        have steadyClear := steady_clean
          (kept_and keptBoth (kept_clear (some input.id) draft.definition))
        have publishing : Ensures digest
            (fun here => Clean here ∧
              ((here.view (.version input.id input.version) = some draft ∧ draft.status = .draft) ∧
                HeadNumber here.view input.id head) ∧
              Clear here.view (some input.id) draft.definition)
            (send (.publishDraft input.id input.version input.publishedBy))
            fun _ => Ready digest := by
          apply ensures_send rfl steadyClear fun _ holds => holds.1.wellFormed
          intro here answer next holds does
          obtain ⟨clean, ⟨⟨present, isDraft⟩, isHead⟩, clear⟩ := holds
          cases does with
          | inl matched =>
              obtain ⟨row, found, _, isNext, _⟩ := matched
              rw [present] at found
              rw [isNext, ← Option.some.inj found]
              exact clean.publishDraft present isDraft (atBase ▸ isHead) clear input.publishedBy
          | inr missed =>
              rw [missed.1]
              exact clean.publishing.ready
        apply (publishing.weaken fun here holds =>
          ⟨holds.1.1, holds.1.2, holds.2⟩).seq
        intro published
        split
        next => exact ensures_pure fun _ ready => ready
        next => exact ensures_throw fun _ ready => ready.wellFormed
      next => exact ensures_throw fun _ holds => holds.1.wellFormed

end NextTime.Ontology
