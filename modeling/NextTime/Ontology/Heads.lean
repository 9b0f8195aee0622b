import NextTime.Ontology.Interleavings

/-
What the statements read of the heads, and what stays of it while others add
drafts.
-/

namespace NextTime.Ontology

open Interleaving

variable {digest : OntologyDefinition → String} {rows : OntologyRows}
  {known : List (Nat × Nat)}

theorem mem_versionsOf (places : Places known rows) {row : OntologyVersionRow} :
    row ∈ versionsOf known rows ↔ rows (.version row.id row.version) = some row := by
  rw [versionsOf, List.mem_filterMap]
  constructor
  · intro found
    obtain ⟨key, _, present⟩ := found
    obtain ⟨isId, isVersion, _⟩ := places key.1 key.2 row present
    rw [isId, isVersion]
    exact present
  · intro present
    obtain ⟨_, _, member⟩ := places row.id row.version row present
    exact ⟨(row.id, row.version), member, present⟩

theorem isHead_iff (places : Places known rows) {row : OntologyVersionRow}
    (present : rows (.version row.id row.version) = some row) :
    isHead (versionsOf known rows) row = true ↔ IsHead rows row := by
  rw [isHead, Bool.and_eq_true, decide_eq_true_eq, List.all_eq_true]
  constructor
  · intro head
    refine ⟨present, head.1, ?_⟩
    intro version other found published
    obtain ⟨isId, isVersion, _⟩ := places row.id version other found
    have test := head.2 other ((mem_versionsOf places).mpr (by rw [isId, isVersion]; exact found))
    rw [isId, published, decide_eq_true rfl, decide_eq_true rfl] at test
    exact isVersion ▸ of_decide_eq_true test
  · intro head
    refine ⟨head.published, ?_⟩
    intro other member
    have found := (mem_versionsOf places).mp member
    by_cases rival : other.id = row.id ∧ other.status = .published
    · have lower := head.highest other.version other (rival.1 ▸ found) rival.2
      rw [decide_eq_true lower, Bool.or_true]
    · rw [← Bool.decide_and, decide_eq_false rival]
      rfl

theorem head_some (places : Places known rows) {id : Nat} {row : OntologyVersionRow}
    (found : loadPublishedOntologyHead (versionsOf known rows) id = some row) :
    IsHead rows row ∧ row.id = id := by
  have test := List.find?_some found
  have present := (mem_versionsOf places).mp (List.mem_of_find?_eq_some found)
  rw [Bool.and_eq_true, decide_eq_true_eq] at test
  exact ⟨(isHead_iff places present).mp test.2, test.1⟩

/-- Where a family has a published version, it has a head. -/
theorem head_none (places : Places known rows) {id : Nat}
    (none : loadPublishedOntologyHead (versionsOf known rows) id = none) :
    ∀ version row, rows (.version id version) = some row → row.status ≠ .published := by
  intro version row found published
  obtain ⟨isId, isVersion, _⟩ := places id version row found
  have candidate : row ∈ (versionsOf known rows).filter fun other =>
      decide (other.id = id) && decide (other.status = .published) := by
    apply List.mem_filter.mpr
    refine ⟨(mem_versionsOf places).mpr (by rw [isId, isVersion]; exact found), ?_⟩
    rw [isId, published, decide_eq_true rfl, decide_eq_true rfl]
    rfl
  cases highest : ((versionsOf known rows).filter fun other =>
      decide (other.id = id) && decide (other.status = .published)).argmax
        OntologyVersionRow.version with
  | none =>
      rw [List.argmax_eq_none.mp highest] at candidate
      cases candidate
  | some top =>
      obtain ⟨member, test⟩ := List.mem_filter.mp (List.argmax_mem highest)
      rw [Bool.and_eq_true, decide_eq_true_eq, decide_eq_true_eq] at test
      have present := (mem_versionsOf places).mp member
      have head : IsHead rows top := by
        refine ⟨present, test.2, ?_⟩
        intro number other otherFound otherPublished
        obtain ⟨otherId, otherVersion, _⟩ := places top.id number other otherFound
        rw [← otherVersion]
        apply List.le_of_mem_argmax _ highest
        apply List.mem_filter.mpr
        refine ⟨(mem_versionsOf places).mpr (by rw [otherId, otherVersion]; exact otherFound), ?_⟩
        rw [otherId, test.1, otherPublished, decide_eq_true rfl, decide_eq_true rfl]
        rfl
      have refused := List.find?_eq_none.mp none top member
      rw [(isHead_iff places present).mpr head, test.1, decide_eq_true rfl] at refused
      exact refused rfl

theorem headIs_answer (places : Places known rows) (id : Nat) :
    HeadIs digest rows id
      ((loadPublishedOntologyHead (versionsOf known rows) id).map (refOf digest)) := by
  cases found : loadPublishedOntologyHead (versionsOf known rows) id with
  | none => exact head_none places found
  | some row =>
      obtain ⟨head, isId⟩ := head_some places found
      exact ⟨row, head, isId, rfl⟩

theorem headNumber_answer (places : Places known rows) (id : Nat) :
    HeadNumber rows id (loadPublishedHeadVersion (versionsOf known rows) id) := by
  rw [loadPublishedHeadVersion]
  cases found : loadPublishedOntologyHead (versionsOf known rows) id with
  | none => exact head_none places found
  | some row =>
      obtain ⟨head, isId⟩ := head_some places found
      exact ⟨row, head, isId, rfl⟩

theorem version_some (places : Places known rows) {id version : Nat} {row : OntologyVersionRow}
    (found : loadOntologyVersion (versionsOf known rows) id version = some row) :
    rows (.version id version) = some row := by
  have test := List.find?_some found
  have present := (mem_versionsOf places).mp (List.mem_of_find?_eq_some found)
  rw [Bool.and_eq_true, decide_eq_true_eq, decide_eq_true_eq] at test
  rw [← test.1, ← test.2]
  exact present

/-- No head of another family declares a name of the definition, nor it one twice. -/
structure Clear (rows : OntologyRows) (candidateId : Option Nat) (definition : OntologyDefinition) :
    Prop where
  once : definition.typeKeys.Nodup
  apart : ∀ head, IsHead rows head → some head.id ≠ candidateId →
    head.definition.typeKeys.Disjoint definition.typeKeys

theorem clear_of_noConflicts (places : Places known rows) {candidateId : Option Nat}
    {definition : OntologyDefinition}
    (none : findOntologyNamespaceConflicts candidateId definition
      (otherHeads (versionsOf known rows) candidateId) = []) :
    Clear rows candidateId definition := by
  obtain ⟨apart, once⟩ := findOntologyNamespaceConflicts_nil.mp none
  refine ⟨once, ?_⟩
  intro head isHead other
  apply apart (head.id, head.definition) _ other
  apply List.mem_map.mpr
  refine ⟨head, List.mem_filter.mpr ⟨(mem_versionsOf places).mpr isHead.present, ?_⟩, rfl⟩
  rw [(isHead_iff places isHead.present).mpr isHead, decide_eq_true other]
  rfl

theorem Advances.definition {row next : OntologyVersionRow} (advances : Advances row next) :
    next.definition = row.definition := by
  cases advances with
  | same => rfl
  | publish => rfl
  | retire => rfl

theorem Advances.deprecated {row next : OntologyVersionRow} (advances : Advances row next)
    (retired : row.status = .deprecated) : next.status = .deprecated := by
  cases advances with
  | same => exact retired
  | publish _ draft =>
      rw [retired] at draft
      cases draft
  | retire => rfl

/-- Versions still coexist as they advance. -/
theorem Coexist.carry {after : OntologyRows} {heads : List (Nat × Option OntologyVersionRef)}
    (coexist : Coexist rows heads) (advance : VersionsAdvance rows after) :
    Coexist after heads := by
  have carried : ∀ id version row, rows (.version id version) = some row →
      ∃ next, after (.version id version) = some next ∧ next.definition = row.definition := by
    intro id version row found
    obtain ⟨next, stays, advances⟩ := advance id version row found
    exact ⟨next, stays, advances.definition⟩
  constructor
  · intro id ref member
    obtain ⟨row, found⟩ := coexist.present id ref member
    obtain ⟨next, stays, _⟩ := carried id ref.version row found
    exact ⟨next, stays⟩
  · intro first second firstRef secondRef firstRow secondRow left right different firstFound
      secondFound
    obtain ⟨firstOld, firstWas⟩ := coexist.present first firstRef left
    obtain ⟨secondOld, secondWas⟩ := coexist.present second secondRef right
    obtain ⟨firstNext, firstStays, firstSame⟩ := carried _ _ _ firstWas
    obtain ⟨secondNext, secondStays, secondSame⟩ := carried _ _ _ secondWas
    rw [firstStays] at firstFound
    rw [secondStays] at secondFound
    rw [← Option.some.inj firstFound, ← Option.some.inj secondFound, firstSame, secondSame]
    exact coexist.apart first second firstRef secondRef firstOld secondOld left right different
      firstWas secondWas

theorem Recorded.carry {after : OntologyRows} {segment : ChangeSegmentRow}
    (recorded : Recorded rows segment) (advance : VersionsAdvance rows after) :
    Recorded after segment where
  nonempty := recorded.nonempty
  distinct := recorded.distinct
  coexist := recorded.coexist.carry advance
  retired rolledBack item member := by
    obtain ⟨row, found, retired⟩ := recorded.retired rolledBack item member
    obtain ⟨next, stays, advances⟩ := advance _ _ row found
    exact ⟨next, stays, advances.deprecated retired⟩

/-- Heads of one state coexist. -/
theorem coexist_of_heads {heads : List (Nat × Option OntologyVersionRef)} (owners : OneOwner rows)
    (areHeads : ∀ head ∈ heads, HeadIs digest rows head.1 head.2) : Coexist rows heads := by
  have found : ∀ id ref, (id, some ref) ∈ heads →
      ∃ row, IsHead rows row ∧ row.id = id ∧ rows (.version id ref.version) = some row := by
    intro id ref member
    obtain ⟨row, head, isId, same⟩ := areHeads (id, some ref) member
    have isVersion : row.version = ref.version := congrArg OntologyVersionRef.version same
    have present := head.present
    rw [isId, isVersion] at present
    exact ⟨row, head, isId, present⟩
  constructor
  · intro id ref member
    obtain ⟨row, _, _, present⟩ := found id ref member
    exact ⟨row, present⟩
  · intro first second firstRef secondRef firstRow secondRow left right different firstFound
      secondFound
    obtain ⟨firstHead, firstIs, firstId, firstPresent⟩ := found first firstRef left
    obtain ⟨secondHead, secondIs, secondId, secondPresent⟩ := found second secondRef right
    rw [firstPresent] at firstFound
    rw [secondPresent] at secondFound
    rw [← Option.some.inj firstFound, ← Option.some.inj secondFound]
    apply owners.apart firstHead secondHead firstIs secondIs
    rw [firstId, secondId]
    exact different

theorem Coexist.sublist {heads fewer : List (Nat × Option OntologyVersionRef)}
    (coexist : Coexist rows heads) (subset : ∀ head ∈ fewer, head ∈ heads) :
    Coexist rows fewer :=
  ⟨fun id ref member => coexist.present id ref (subset _ member),
    fun first second firstRef secondRef firstRow secondRow left right =>
      coexist.apart first second firstRef secondRef firstRow secondRow (subset _ left)
        (subset _ right)⟩

/-! ### One row more -/

section
variable {id version : Nat} {row : OntologyVersionRow}

/-- Where the row was not published before, a head is the row or was a head. -/
theorem isHead_update {rows : OntologyRows}
    (unpublished : ∀ old, rows (.version id version) = some old → old.status ≠ .published)
    {head : OntologyVersionRow}
    (isHead : IsHead (Function.update rows (.version id version) (some row)) head) :
    head = row ∨ IsHead rows head := by
  by_cases same : (OntologyKey.version head.id head.version) = .version id version
  · apply Or.inl
    have present := isHead.present
    have isId : head.id = id := (OntologyKey.version.inj same).1
    have isVersion : head.version = version := (OntologyKey.version.inj same).2
    rw [isId, isVersion, Function.update_self] at present
    exact (Option.some.inj present).symm
  · apply Or.inr
    have present := isHead.present
    rw [Function.update_of_ne same] at present
    refine ⟨present, isHead.published, ?_⟩
    intro number other found published
    apply isHead.highest number other _ published
    by_cases here : (OntologyKey.version head.id number) = .version id version
    · cases here
      exact absurd published (unpublished other found)
    · rw [Function.update_of_ne here]
      exact found

theorem oneOwner_update {rows : OntologyRows}
    (unpublished : ∀ old, rows (.version id version) = some old → old.status ≠ .published)
    (owners : OneOwner rows) {candidateId : Option Nat}
    (clear : Clear rows candidateId row.definition)
    (own : ∀ other, other ≠ row.id → some other ≠ candidateId) :
    OneOwner (Function.update rows (.version id version) (some row)) := by
  constructor
  · intro head isHead
    cases isHead_update unpublished isHead with
    | inl same => exact same ▸ clear.once
    | inr old => exact owners.once head old
  · intro first second left right different
    cases isHead_update unpublished left with
    | inl firstNew =>
        cases isHead_update unpublished right with
        | inl secondNew => exact absurd (firstNew.trans secondNew.symm ▸ rfl) different
        | inr secondOld =>
            rw [firstNew] at different ⊢
            have apart := clear.apart second secondOld (own second.id different.symm)
            exact fun key declared again => apart again declared
    | inr firstOld =>
        cases isHead_update unpublished right with
        | inl secondNew =>
            rw [secondNew] at different ⊢
            exact clear.apart first firstOld (own first.id different)
        | inr secondOld => exact owners.apart first second firstOld secondOld different

end

/-! ### While others add drafts -/

section
variable {after : OntologyRows} (gains : GainsDrafts rows after)
include gains

theorem GainsDrafts.found {key : OntologyKey} {row : key.Row} (present : rows key = some row) :
    after key = some row := by
  cases gains key with
  | inl same => exact same.trans present
  | inr gained =>
      rw [gained.1] at present
      cases present

theorem GainsDrafts.advance : VersionsAdvance rows after :=
  fun _ _ row present => ⟨row, gains.found present, .same⟩

theorem GainsDrafts.segment (id : Nat) : after (.segment id) = rows (.segment id) := by
  cases gains (.segment id) with
  | inl same => exact same
  | inr gained =>
      obtain ⟨_, family, version, row, same, _⟩ := gained
      cases same

/-- What is not a draft was there. -/
theorem GainsDrafts.before {id version : Nat} {row : OntologyVersionRow}
    (present : after (.version id version) = some row) (settled : row.status ≠ .draft) :
    rows (.version id version) = some row := by
  cases gains (.version id version) with
  | inl same => exact same.symm.trans present
  | inr gained =>
      obtain ⟨_, family, number, draft, same, found, isDraft⟩ := gained
      cases same
      rw [present] at found
      exact absurd (Option.some.inj found ▸ isDraft) settled

theorem GainsDrafts.isHead {row : OntologyVersionRow} : IsHead after row ↔ IsHead rows row := by
  have notDraft : OntologyStatus.published ≠ .draft := fun same => (nomatch same)
  constructor
  · intro head
    have settled : row.status ≠ .draft := by
      rw [head.published]
      exact notDraft
    refine ⟨gains.before head.present settled, head.published, ?_⟩
    intro version other found published
    exact head.highest version other (gains.found found) published
  · intro head
    refine ⟨gains.found head.present, head.published, ?_⟩
    intro version other found published
    have settled : other.status ≠ .draft := by
      rw [published]
      exact notDraft
    exact head.highest version other (gains.before found settled) published

theorem GainsDrafts.unpublished {id : Nat}
    (none : ∀ version row, rows (.version id version) = some row → row.status ≠ .published) :
    ∀ version row, after (.version id version) = some row → row.status ≠ .published := by
  intro version row found published
  have settled : row.status ≠ .draft := by
    rw [published]
    exact fun same => (nomatch same)
  exact none version row (gains.before found settled) published

theorem GainsDrafts.headIs {id : Nat} {ref : Option OntologyVersionRef}
    (head : HeadIs digest rows id ref) : HeadIs digest after id ref := by
  cases ref with
  | none => exact gains.unpublished head
  | some ref =>
      obtain ⟨row, isHead, same⟩ := head
      exact ⟨row, gains.isHead.mpr isHead, same⟩

theorem GainsDrafts.headNumber {id : Nat} {number : Option Nat}
    (head : HeadNumber rows id number) : HeadNumber after id number := by
  cases number with
  | none => exact gains.unpublished head
  | some number =>
      obtain ⟨row, isHead, same⟩ := head
      exact ⟨row, gains.isHead.mpr isHead, same⟩

theorem GainsDrafts.clear {candidateId : Option Nat} {definition : OntologyDefinition}
    (clear : Clear rows candidateId definition) : Clear after candidateId definition :=
  ⟨clear.once, fun head isHead => clear.apart head (gains.isHead.mp isHead)⟩

theorem GainsDrafts.owners (owners : OneOwner rows) : OneOwner after :=
  ⟨fun row head => owners.once row (gains.isHead.mp head), fun first second left right =>
    owners.apart first second (gains.isHead.mp left) (gains.isHead.mp right)⟩

theorem GainsDrafts.segments {except : Option Nat} (segments : GoodSegments rows except) :
    GoodSegments after except := by
  intro id segment found other
  rw [gains.segment id] at found
  exact (segments id segment found other).carry gains.advance

end

/-- The tables of the holder of the namespace gain only drafts. -/
theorem Meanwhile.gains {here next : OntologyTables} (meanwhile : Meanwhile here next)
    (locked : here.locked = true) : GainsDrafts here.view next.view := by
  intro key
  cases written : here.own key with
  | some row =>
      apply Or.inl
      rw [OntologyTables.view, OntologyTables.view, meanwhile.own, written, Option.some_or,
        Option.some_or]
  | none =>
      have seen : next.view key = next.committed key := by
        rw [OntologyTables.view, meanwhile.own, written, Option.none_or]
      have was : here.view key = here.committed key := by
        rw [OntologyTables.view, written, Option.none_or]
      cases meanwhile.drafts locked key with
      | inl same => exact Or.inl (seen.trans (same.trans was.symm))
      | inr gained =>
          obtain ⟨absent, id, version, row, isKey, found, draft⟩ := gained
          subst isKey
          exact Or.inr ⟨was.trans absent, id, version, row, rfl, seen.trans found, draft⟩

theorem Meanwhile.bases {here next : OntologyTables} (meanwhile : Meanwhile here next)
    (wellFormed : here.WellFormed)
    (bases : ∀ id version row, here.view (.version id version) = some row →
      row.baseBelow = true) :
    ∀ id version row, next.view (.version id version) = some row → row.baseBelow = true := by
  intro id version row found
  rw [OntologyTables.view, meanwhile.own] at found
  cases written : here.own (.version id version) with
  | some mine =>
      rw [written, Option.some_or] at found
      apply bases id version row
      rw [OntologyTables.view, written, Option.some_or]
      exact found
  | none =>
      rw [written, Option.none_or] at found
      exact (meanwhile.wellFormed wellFormed).good.versions.bases id version row found

end NextTime.Ontology
