import NextTime.Ontology.Segments

/-
Rolling a segment back: its versions are retired, and the heads that return are
those recorded. Their names were theirs together, and nobody else's since.
-/

namespace NextTime.Ontology

open Interleaving Interleaving.Conduct OntologyStore

variable {digest : OntologyDefinition → String}

/-- What its transaction has of a segment is what is committed. -/
def SegmentsAsCommitted (here : OntologyTables) : Prop :=
  ∀ id, here.own (.segment id) = none ∨ here.own (.segment id) = here.committed (.segment id)

theorem SegmentsAsCommitted.view {here : OntologyTables} (same : SegmentsAsCommitted here)
    (id : Nat) : here.view (.segment id) = here.committed (.segment id) := by
  rw [OntologyTables.view]
  cases same id with
  | inl unwritten => rw [unwritten, Option.none_or]
  | inr written =>
      rw [written]
      exact Option.or_self

theorem SegmentsAsCommitted.meanwhile {here next : OntologyTables}
    (same : SegmentsAsCommitted here) (meanwhile : Meanwhile here next) :
    SegmentsAsCommitted next := by
  intro id
  rw [meanwhile.own]
  by_cases unwritten : here.own (.segment id) = none
  · exact Or.inl unwritten
  · rw [meanwhile.kept _ unwritten]
    exact same id

/-- It has written no version. -/
structure Opening (here : OntologyTables) : Prop where
  wellFormed : here.WellFormed
  versions : ∀ family version, here.own (.version family version) = none
  segments : SegmentsAsCommitted here

theorem Opening.view {here : OntologyTables} (opening : Opening here) :
    here.view = here.committed := by
  funext key
  cases key with
  | version family version => rw [OntologyTables.view, opening.versions, Option.none_or]
  | segment id => exact opening.segments.view id

theorem steady_opening : Steady Opening := by
  intro before here opening meanwhile
  refine ⟨meanwhile.wellFormed opening.wellFormed, ?_, opening.segments.meanwhile meanwhile⟩
  intro family version
  rw [meanwhile.own]
  exact opening.versions family version

/-- The segment is committed with these items. -/
def Stored (id : Nat) (items : List StoredOntologyItem) (rows : OntologyRows) : Prop :=
  ∃ segment, rows (.segment id) = some segment ∧ segment.items = items

theorem Stored.stay {id : Nat} {items : List StoredOntologyItem} {rows after : OntologyRows}
    (stored : Stored id items rows) (stay : SegmentsStay rows after) : Stored id items after := by
  obtain ⟨segment, found, same⟩ := stored
  obtain ⟨next, stays, sameItems⟩ := stay id segment found
  exact ⟨next, stays, sameItems.trans same⟩

theorem Stored.recorded {id : Nat} {items : List StoredOntologyItem} {here : OntologyTables}
    (stored : Stored id items here.committed) (wellFormed : here.WellFormed) :
    items ≠ [] ∧ (items.map StoredOntologyItem.ontologyId).Nodup ∧
      Coexist here.committed (items.map StoredOntologyItem.restores) := by
  obtain ⟨segment, found, same⟩ := stored
  have recorded := wellFormed.good.segments id segment found (Option.some_ne_none id)
  rw [← same]
  exact ⟨recorded.nonempty, recorded.distinct, recorded.coexist⟩

/-! ### The items -/

theorem lockSegment_ensures (id : Nat) :
    Ensures digest Idle (send (.lockSegment id)) fun _ => Opening := by
  apply ensures_send rfl steady_idle fun _ idle => idle.wellFormed
  intro here _ next idle does
  have untouched : Opening here :=
    ⟨idle.wellFormed, fun _ _ => idle.clean _, fun _ => Or.inl (idle.clean _)⟩
  cases does with
  | inl found =>
      obtain ⟨row, present, isNext⟩ := found
      rw [untouched.view] at present
      rw [isNext]
      refine ⟨idle.wellFormed.write_segment id row, ?_, ?_⟩
      · intro family version
        rw [OntologyTables.own_write_of_ne here row version_ne_segment]
        exact idle.clean _
      · intro other
        by_cases same : other = id
        · apply Or.inr
          rw [same, OntologyTables.own_write_self]
          exact present.symm
        · have different : OntologyKey.segment other ≠ .segment id :=
            fun equal => same (OntologyKey.segment.inj equal)
          rw [OntologyTables.own_write_of_ne here row different]
          exact Or.inl (idle.clean _)
  | inr missed =>
      rw [missed.2]
      exact untouched

theorem steady_stored {id : Nat} {items : List StoredOntologyItem} :
    Steady fun here => Opening here ∧ Stored id items here.committed :=
  fun before here holds meanwhile => ⟨steady_opening before here holds.1 meanwhile,
    holds.2.stay meanwhile.segments⟩

/-- It holds the namespace, and has planned of the segment's items what the fact says. -/
structure Planning (id : Nat) (items : List StoredOntologyItem) (here : OntologyTables) : Prop
    extends Opening here where
  locked : here.locked = true
  stored : Stored id items here.committed

theorem steady_planning {id : Nat} {items : List StoredOntologyItem} {fact : OntologyRows → Prop}
    (kept : Kept fact) : Steady fun here => Planning id items here ∧ fact here.committed := by
  intro before here holds meanwhile
  obtain ⟨planning, known⟩ := holds
  refine ⟨⟨steady_opening before here planning.toOpening meanwhile,
    meanwhile.locked.trans planning.locked, planning.stored.stay meanwhile.segments⟩, ?_⟩
  exact kept _ _ (meanwhile.drafts planning.locked) known

theorem lockStored_ensures (id : Nat) (items : List StoredOntologyItem) (some : items ≠ []) :
    Ensures digest (fun here => Opening here ∧ Stored id items here.committed)
      (Program.each (fun item => lockOntologyFamily item.ontologyId) items)
      fun _ => Planning id items := by
  have steadyLocked : Steady (Planning id items) := by
    intro before here planning meanwhile
    exact (steady_planning kept_true before here ⟨planning, trivial⟩ meanwhile).1
  have locking : Ensures digest
      (fun here => (Opening here ∧ Stored id items here.committed) ∧
        (([] : List StoredOntologyItem) ≠ [] → Planning id items here))
      (Program.each (fun item => lockOntologyFamily item.ontologyId) items)
      fun _ here => (Opening here ∧ Stored id items here.committed) ∧
        ([] ++ items ≠ [] → Planning id items here) := by
    apply @meets_each _ _ _ _ _ _ _
      (fun (earlier : List StoredOntologyItem) here =>
        (Opening here ∧ Stored id items here.committed) ∧
          (earlier ≠ [] → Planning id items here))
    intro earlier item _
    have locks : ∀ here, Opening here ∧ Stored id items here.committed →
        Planning id items { here with locked := true } := by
      intro here holds
      obtain ⟨opening, stored⟩ := holds
      exact ⟨⟨⟨opening.wellFormed.good, opening.wellFormed.committed, opening.wellFormed.own⟩,
        opening.versions, opening.segments⟩, rfl, stored⟩
    apply ((lockOntologyFamily_ensures item.ontologyId steady_stored
      (fun _ holds => holds.1.wellFormed) steadyLocked
      (fun _ planning => planning.wellFormed) locks).weaken fun _ holds => holds.1).mono
    exact fun _ _ planning => ⟨⟨planning.toOpening, planning.stored⟩, fun _ => planning⟩
  apply (locking.weaken fun _ holds => ⟨holds, fun impossible => absurd rfl impossible⟩).mono
  intro _ here holds
  exact holds.2 some

/-! ### Plans -/

/-- The head is the version the item published, and the one before it may return. -/
structure Restorable (digest : OntologyDefinition → String) (rows : OntologyRows)
    (item : StoredOntologyItem) : Prop where
  head : HeadIs digest rows item.ontologyId (some item.after)
  returns : ∀ ref, item.before = some ref → ∃ row,
    rows (.version item.ontologyId ref.version) = some row ∧
      Clear rows (some item.ontologyId) row.definition

theorem kept_restorable (item : StoredOntologyItem) :
    Kept fun rows => Restorable digest rows item := by
  intro rows after gains restorable
  refine ⟨gains.headIs restorable.head, ?_⟩
  intro ref same
  obtain ⟨row, found, clear⟩ := restorable.returns ref same
  exact ⟨row, gains.found found, gains.clear clear⟩

/-- What a plan without a blocker says. -/
def PlannedAs (digest : OntologyDefinition → String) (item : StoredOntologyItem)
    (planned : PlannedOntologyRollback) (rows : OntologyRows) : Prop :=
  planned.item = item ∧ (planned.blocker = none → Restorable digest rows item)

theorem kept_plannedAs (item : StoredOntologyItem) (planned : PlannedOntologyRollback) :
    Kept (PlannedAs digest item planned) :=
  fun rows after gains holds =>
    ⟨holds.1, fun free => kept_restorable item rows after gains (holds.2 free)⟩

theorem planRestored_ensures {id : Nat} {items : List StoredOntologyItem}
    (item : StoredOntologyItem) (ref : OntologyVersionRef) (isRef : item.before = some ref)
    {fact : OntologyRows → Prop} (kept : Kept fact) :
    Ensures digest
      (fun here => Planning id items here ∧ fact here.committed ∧
        HeadIs digest here.committed item.ontologyId (some item.after))
      (planRestored digest item ref)
      fun planned here => Planning id items here ∧ fact here.committed ∧
        PlannedAs digest item planned here.committed := by
  have keptHead : Kept fun rows => fact rows ∧
      HeadIs digest rows item.ontologyId (some item.after) :=
    kept_and kept fun _ _ gains head => gains.headIs head
  have blocked : ∀ (restored : Option OntologyDefinition) (blocker : OntologyRollbackBlocker)
      (here : OntologyTables), Planning id items here ∧ fact here.committed →
        Planning id items here ∧ fact here.committed ∧
          PlannedAs digest item ⟨item, restored, some blocker⟩ here.committed :=
    fun _ _ _ holds => ⟨holds.1, holds.2, rfl, fun impossible => (nomatch impossible)⟩
  have loading : Ensures digest
      (fun here => Planning id items here ∧ fact here.committed ∧
        HeadIs digest here.committed item.ontologyId (some item.after))
      (ask (.version item.ontologyId ref.version))
      fun (found : Option OntologyVersionRow) here => Planning id items here ∧
        (fact here.committed ∧ HeadIs digest here.committed item.ontologyId (some item.after)) ∧
          ∀ row, found = some row →
            here.committed (.version item.ontologyId ref.version) = some row := by
    apply ensures_ask (steady_planning keptHead) fun _ holds => holds.1.wellFormed
    intro here holds
    refine ⟨holds.1, holds.2, ?_⟩
    intro row found
    rw [← holds.1.toOpening.view]
    exact version_some holds.1.wellFormed.view found
  apply loading.seq
  intro found
  cases found with
  | none =>
      apply ensures_pure
      exact fun here holds => blocked none _ here ⟨holds.1, holds.2.1.1⟩
  | some row =>
      have keptRow : Kept fun rows => (fact rows ∧
          HeadIs digest rows item.ontologyId (some item.after)) ∧
            rows (.version item.ontologyId ref.version) = some row :=
        kept_and keptHead fun _ _ gains present => gains.found present
      dsimp only
      split
      next =>
        have asking : Ensures digest
            (fun here => Planning id items here ∧ (fact here.committed ∧
              HeadIs digest here.committed item.ontologyId (some item.after)) ∧
                here.committed (.version item.ontologyId ref.version) = some row)
            (ask (.headsOfOthers (some item.ontologyId)))
            fun (others : List (Nat × OntologyDefinition)) here => Planning id items here ∧
              ((fact here.committed ∧
                HeadIs digest here.committed item.ontologyId (some item.after)) ∧
                  here.committed (.version item.ontologyId ref.version) = some row) ∧
                (findOntologyNamespaceConflicts (some item.ontologyId) row.definition others = [] →
                  Clear here.committed (some item.ontologyId) row.definition) := by
          apply ensures_ask (steady_planning keptRow) fun _ holds => holds.1.wellFormed
          intro here holds
          refine ⟨holds.1, holds.2, ?_⟩
          intro free
          have clear := clear_of_noConflicts holds.1.wellFormed.view free
          rw [holds.1.toOpening.view] at clear
          exact clear
        apply (asking.weaken fun here holds => ⟨holds.1, holds.2.1, holds.2.2 row rfl⟩).seq
        intro others
        split
        next free =>
          apply ensures_pure
          intro here holds
          obtain ⟨planning, ⟨⟨known, head⟩, present⟩, clear⟩ := holds
          refine ⟨planning, known, rfl, fun _ => ⟨head, ?_⟩⟩
          intro other same
          rw [isRef] at same
          rw [← Option.some.inj same]
          exact ⟨row, present, clear free⟩
        next =>
          apply ensures_pure
          exact fun here holds => blocked none _ here ⟨holds.1, holds.2.1.1.1⟩
      next =>
        apply ensures_pure
        exact fun here holds => blocked none _ here ⟨holds.1, holds.2.1.1⟩

theorem planOntologyRollback_ensures {id : Nat} {items : List StoredOntologyItem}
    (item : StoredOntologyItem) {fact : OntologyRows → Prop} (kept : Kept fact) :
    Ensures digest (fun here => Planning id items here ∧ fact here.committed)
      (planOntologyRollback digest item)
      fun planned here => Planning id items here ∧ fact here.committed ∧
        PlannedAs digest item planned here.committed := by
  have asking : Ensures digest (fun here => Planning id items here ∧ fact here.committed)
      (ask (.publishedHead item.ontologyId))
      fun (head : Option OntologyVersionRow) here => Planning id items here ∧ fact here.committed ∧
        HeadIs digest here.committed item.ontologyId (head.map (refOf digest)) := by
    apply ensures_ask (steady_planning kept) fun _ holds => holds.1.wellFormed
    intro here holds
    refine ⟨holds.1, holds.2, ?_⟩
    rw [← holds.1.toOpening.view]
    exact headIs_answer holds.1.wellFormed.view item.ontologyId
  apply asking.seq
  intro head
  cases head with
  | none =>
      apply ensures_pure
      exact fun here holds =>
        ⟨holds.1, holds.2.1, rfl, fun impossible => (nomatch impossible)⟩
  | some head =>
      dsimp only
      split
      next isAfter =>
        have same : refOf digest head = item.after := of_decide_eq_true isAfter
        rw [Option.map_some, same]
        cases isBefore : item.before with
        | none =>
            apply ensures_pure
            intro here holds
            refine ⟨holds.1, holds.2.1, rfl, fun _ => ⟨holds.2.2, ?_⟩⟩
            intro ref impossible
            rw [isBefore] at impossible
            cases impossible
        | some ref => exact planRestored_ensures item ref isBefore kept
      next =>
        apply ensures_pure
        exact fun here holds =>
          ⟨holds.1, holds.2.1, rfl, fun impossible => (nomatch impossible)⟩

theorem planRollbacks_ensures (id : Nat) (items : List StoredOntologyItem)
    (order : List StoredOntologyItem) :
    Ensures digest (Planning id items) (Program.collect (planOntologyRollback digest) order)
      fun plans here => Planning id items here ∧
        plans.map PlannedOntologyRollback.item = order ∧
          ∀ planned ∈ plans, planned.blocker = none →
            Restorable digest here.committed planned.item := by
  have collecting : Ensures digest
      (fun here => Planning id items here ∧
        ∀ pair ∈ ([] : List (StoredOntologyItem × PlannedOntologyRollback)),
          PlannedAs digest pair.1 pair.2 here.committed)
      (Program.collect (planOntologyRollback digest) order)
      fun plans here => plans.length = order.length ∧ Planning id items here ∧
        ∀ pair ∈ [] ++ order.zip plans, PlannedAs digest pair.1 pair.2 here.committed := by
    apply @meets_collect _ _ _ _ _ _ _ _
      (fun (pairs : List (StoredOntologyItem × PlannedOntologyRollback)) here =>
        Planning id items here ∧ ∀ pair ∈ pairs, PlannedAs digest pair.1 pair.2 here.committed)
    intro earlier item _
    have keptEarlier : Kept fun rows => ∀ pair ∈ earlier, PlannedAs digest pair.1 pair.2 rows :=
      fun rows after gains holds pair member =>
        kept_plannedAs pair.1 pair.2 rows after gains (holds pair member)
    apply (planOntologyRollback_ensures item keptEarlier).mono
    intro planned here holds
    refine ⟨holds.1, ?_⟩
    intro pair member
    cases List.mem_append.mp member with
    | inl before => exact holds.2.1 pair before
    | inr now =>
        rw [List.mem_singleton.mp now]
        exact holds.2.2
  apply (collecting.weaken fun here holds => ⟨holds, fun _ member => (nomatch member)⟩).mono
  intro plans here holds
  obtain ⟨length, planning, each⟩ := holds
  rw [List.nil_append] at each
  refine ⟨planning, ?_, ?_⟩
  · have firsts := @List.map_fst_zip _ _ order plans length.ge
    have seconds := @List.map_snd_zip _ _ order plans length.le
    calc plans.map PlannedOntologyRollback.item
        = (order.zip plans).map fun pair => pair.2.item := by
          rw [← seconds, List.map_map, seconds]
          rfl
      _ = (order.zip plans).map Prod.fst :=
          List.map_congr_left fun pair member => (each pair member).1
      _ = order := firsts
  · apply @forall_of_zip _ _ order plans (fun planned => planned.blocker = none →
      Restorable digest here.committed planned.item) length
    intro pair member free
    obtain ⟨isItem, restorable⟩ := each pair member
    rw [isItem]
    exact restorable free

/-! ### Retiring -/

/-- The versions of the retired items are retired and nothing else; the heads of the returned
items are back. -/
structure Retiring (digest : OntologyDefinition → String) (id : Nat)
    (items retired returned : List StoredOntologyItem) (here : OntologyTables) : Prop
    extends Holding here where
  segments : SegmentsAsCommitted here
  stored : Stored id items here.committed
  restorable : ∀ item ∈ items, Restorable digest here.committed item
  versions : ∀ family version row, here.own (.version family version) = some row →
    ∃ item ∈ retired, item.ontologyId = family ∧ item.after.version = version ∧
      ∃ old, here.committed (.version family version) = some old ∧ old.status = .published ∧
        row = old.deprecate
  among : ∀ item ∈ retired, item ∈ items
  gone : ∀ item ∈ retired, ∃ row,
    here.view (.version item.ontologyId item.after.version) = some row ∧ row.status = .deprecated
  heads : ∀ item ∈ returned, HeadIs digest here.view item.ontologyId item.before

theorem steady_retiring {id : Nat} {items retired returned : List StoredOntologyItem}
    {fact : OntologyRows → Prop} (kept : Kept fact) :
    Steady fun here => Retiring digest id items retired returned here ∧ fact here.view := by
  intro before here holds meanwhile
  obtain ⟨retiring, known⟩ := holds
  have gains := meanwhile.gains retiring.locked
  have drafts := meanwhile.drafts retiring.locked
  refine ⟨?_, kept _ _ gains known⟩
  constructor
  · exact retiring.toHolding.meanwhile meanwhile
  · exact retiring.segments.meanwhile meanwhile
  · exact retiring.stored.stay meanwhile.segments
  · exact fun item member => kept_restorable item _ _ drafts (retiring.restorable item member)
  · intro family version row written
    rw [meanwhile.own] at written
    obtain ⟨item, member, isFamily, isVersion, old, found, rest⟩ :=
      retiring.versions family version row written
    exact ⟨item, member, isFamily, isVersion, old, drafts.found found, rest⟩
  · exact retiring.among
  · intro item member
    obtain ⟨row, found, isGone⟩ := retiring.gone item member
    exact ⟨row, gains.found found, isGone⟩
  · exact fun item member => gains.headIs (retiring.heads item member)

theorem steady_retired {id : Nat} {items retired returned : List StoredOntologyItem} :
    Steady (Retiring digest id items retired returned) := by
  intro before here retiring meanwhile
  exact (steady_retiring kept_true before here ⟨retiring, trivial⟩ meanwhile).1

/-- Whether a version is its family's head is a matter of the family. -/
theorem headIs_congr {rows after : OntologyRows} {id : Nat}
    (same : ∀ version, after (.version id version) = rows (.version id version))
    {ref : Option OntologyVersionRef} (head : HeadIs digest rows id ref) :
    HeadIs digest after id ref := by
  cases ref with
  | none =>
      intro version row found
      rw [same] at found
      exact head version row found
  | some ref =>
      obtain ⟨row, isHead, isId, isRef⟩ := head
      subst isId
      refine ⟨row, ⟨?_, isHead.published, ?_⟩, rfl, isRef⟩
      · rw [same]
        exact isHead.present
      · intro version other found
        rw [same] at found
        exact isHead.highest version other found

theorem Retiring.deprecate {id : Nat} {items retired : List StoredOntologyItem}
    {here : OntologyTables} (retiring : Retiring digest id items retired retired here)
    (distinct : (items.map StoredOntologyItem.ontologyId).Nodup) {item : StoredOntologyItem}
    (member : item ∈ items) {row : OntologyVersionRow}
    (found : here.view (.version item.ontologyId item.after.version) = some row)
    (published : row.status = .published) :
    Retiring digest id items (retired ++ [item]) retired
      (here.write (.version item.ontologyId item.after.version) row.deprecate) := by
  -- An item of the same family would be the same one, and its version retired.
  have other : ∀ earlier ∈ retired, earlier.ontologyId ≠ item.ontologyId := by
    intro earlier isRetired same
    have equal := List.inj_on_of_nodup_map distinct (retiring.among earlier isRetired) member same
    obtain ⟨gone, isGone, deprecated⟩ := retiring.gone earlier isRetired
    rw [equal, found] at isGone
    rw [← Option.some.inj isGone, published] at deprecated
    cases deprecated
  have committed : here.committed (.version item.ontologyId item.after.version) = some row := by
    rw [OntologyTables.view] at found
    cases written : here.own (.version item.ontologyId item.after.version) with
    | none =>
        rw [written, Option.none_or] at found
        exact found
    | some mine =>
        obtain ⟨earlier, isRetired, same, _⟩ := retiring.versions _ _ mine written
        exact absurd same (other earlier isRetired)
  have apart : ∀ (earlier : StoredOntologyItem) (version : Nat),
      earlier.ontologyId ≠ item.ontologyId →
        OntologyKey.version earlier.ontologyId version ≠
          .version item.ontologyId item.after.version :=
    fun _ _ different same => different (OntologyKey.version.inj same).1
  constructor
  · exact ⟨retiring.wellFormed.write_version found rfl rfl, retiring.locked⟩
  · intro segment
    rw [OntologyTables.own_write_of_ne here _ fun same => version_ne_segment same.symm]
    exact retiring.segments segment
  · exact retiring.stored
  · exact retiring.restorable
  · intro family version mine written
    by_cases same : OntologyKey.version family version =
        .version item.ontologyId item.after.version
    · cases same
      rw [OntologyTables.own_write_self] at written
      exact ⟨item, List.mem_append_right _ (List.mem_singleton_self item), rfl, rfl, row, committed,
        published, (Option.some.inj written).symm⟩
    · rw [OntologyTables.own_write_of_ne here _ same] at written
      obtain ⟨earlier, isRetired, rest⟩ := retiring.versions family version mine written
      exact ⟨earlier, List.mem_append_left _ isRetired, rest⟩
  · intro one isRetired
    cases List.mem_append.mp isRetired with
    | inl before => exact retiring.among one before
    | inr now => exact List.mem_singleton.mp now ▸ member
  · intro one isRetired
    cases List.mem_append.mp isRetired with
    | inl before =>
        obtain ⟨gone, isGone, deprecated⟩ := retiring.gone one before
        refine ⟨gone, ?_, deprecated⟩
        rw [OntologyTables.view_write_of_ne here _ (apart one _ (other one before))]
        exact isGone
    | inr now =>
        rw [List.mem_singleton.mp now]
        exact ⟨row.deprecate, OntologyTables.view_write_self here _ _, rfl⟩
  · intro one isRetired
    apply headIs_congr _ (retiring.heads one isRetired)
    intro version
    exact OntologyTables.view_write_of_ne here _ (apart one version (other one isRetired))

theorem applyOntologyRollback_ensures {id : Nat} {items earlier : List StoredOntologyItem}
    (planned : PlannedOntologyRollback) (member : planned.item ∈ items)
    (distinct : (items.map StoredOntologyItem.ontologyId).Nodup) :
    Ensures digest (Retiring digest id items earlier earlier)
      (applyOntologyRollback digest planned)
      fun _ => Retiring digest id items (earlier ++ [planned.item])
        (earlier ++ [planned.item]) := by
  have retiring : Ensures digest (Retiring digest id items earlier earlier)
      (send (.deprecateVersion planned.item.ontologyId planned.item.after.version))
      fun (retired : Bool) here => here.WellFormed ∧ (retired = true →
        Retiring digest id items (earlier ++ [planned.item]) earlier here) := by
    apply ensures_send rfl steady_retired fun _ holds => holds.wellFormed
    intro here answer next holds does
    cases does with
    | inl matched =>
        obtain ⟨row, found, published, isNext, _⟩ := matched
        rw [isNext]
        have retired := holds.deprecate distinct member found published
        exact ⟨retired.wellFormed, fun _ => retired⟩
    | inr missed =>
        rw [missed.1, missed.2]
        exact ⟨holds.wellFormed, fun impossible => (nomatch impossible)⟩
  apply retiring.seq
  intro retired
  split
  next isRetired =>
    have asking : Ensures digest
        (Retiring digest id items (earlier ++ [planned.item]) earlier)
        (ask (.publishedHead planned.item.ontologyId))
        fun (head : Option OntologyVersionRow) here =>
          Retiring digest id items (earlier ++ [planned.item]) earlier here ∧
            HeadIs digest here.view planned.item.ontologyId (head.map (refOf digest)) := by
      apply ensures_ask steady_retired fun _ holds => holds.wellFormed
      intro here holds
      exact ⟨holds, headIs_answer holds.wellFormed.view planned.item.ontologyId⟩
    apply (asking.weaken fun _ holds => holds.2 isRetired).seq
    intro head
    split
    next expected =>
      apply ensures_pure
      intro here holds
      have same : head.map (refOf digest) = planned.item.before := of_decide_eq_true expected
      have isHead := holds.2
      rw [same] at isHead
      refine { holds.1 with heads := ?_ }
      intro item returned
      cases List.mem_append.mp returned with
      | inl before => exact holds.1.heads item before
      | inr now =>
          rw [List.mem_singleton.mp now]
          exact isHead
    next => exact ensures_throw fun _ holds => holds.1.wellFormed
  next => exact ensures_throw fun _ holds => holds.1

/-! ### The end -/

theorem isHead_unique {rows : OntologyRows} {first second : OntologyVersionRow}
    (left : IsHead rows first) (right : IsHead rows second) (same : first.id = second.id) :
    first = second := by
  have above := left.highest second.version second
    (by rw [same]; exact right.present) right.published
  have below := right.highest first.version first
    (by rw [← same]; exact left.present) left.published
  have version : first.version = second.version := le_antisymm below above
  have present := left.present
  rw [same, version, right.present] at present
  exact (Option.some.inj present).symm

section
variable {id : Nat} {items : List StoredOntologyItem} {here : OntologyTables}
  (retiring : Retiring digest id items items items here)
include retiring

theorem Retiring.row (family version : Nat) :
    here.view (.version family version) = here.committed (.version family version) ∨
      ∃ item ∈ items, item.ontologyId = family ∧ item.after.version = version ∧
        ∃ old, here.committed (.version family version) = some old ∧ old.status = .published ∧
          here.view (.version family version) = some old.deprecate := by
  cases written : here.own (.version family version) with
  | none =>
      apply Or.inl
      rw [OntologyTables.view, written, Option.none_or]
  | some mine =>
      obtain ⟨item, member, isFamily, isVersion, old, found, published, same⟩ :=
        retiring.versions family version mine written
      refine Or.inr ⟨item, member, isFamily, isVersion, old, found, published, ?_⟩
      rw [OntologyTables.view, written, Option.some_or, same]

theorem Retiring.unaffected {family : Nat}
    (apart : family ∉ items.map StoredOntologyItem.ontologyId) (version : Nat) :
    here.view (.version family version) = here.committed (.version family version) := by
  cases retiring.row family version with
  | inl same => exact same
  | inr written =>
      obtain ⟨item, member, isFamily, _⟩ := written
      exact absurd (List.mem_map.mpr ⟨item, member, isFamily⟩) apart

theorem Retiring.published {family version : Nat} {row : OntologyVersionRow}
    (found : here.view (.version family version) = some row) (published : row.status = .published) :
    here.committed (.version family version) = some row := by
  cases retiring.row family version with
  | inl same => exact same.symm.trans found
  | inr written =>
      obtain ⟨_, _, _, _, old, _, _, isNow⟩ := written
      rw [found] at isNow
      rw [Option.some.inj isNow] at published
      cases published

theorem Retiring.advance : VersionsAdvance here.committed here.view := by
  intro family version row found
  cases retiring.row family version with
  | inl same => exact ⟨row, same.trans found, .same⟩
  | inr written =>
      obtain ⟨_, _, _, _, old, present, published, isNow⟩ := written
      rw [found] at present
      rw [← Option.some.inj present] at published isNow
      exact ⟨row.deprecate, isNow, .retire published⟩

/-- A head of another family is the head it was; one of the segment is back with its names. -/
theorem Retiring.head {row : OntologyVersionRow} (head : IsHead here.view row) :
    (row.id ∉ items.map StoredOntologyItem.ontologyId ∧ IsHead here.committed row) ∨
      ∃ ref, (row.id, some ref) ∈ items.map StoredOntologyItem.restores ∧
        here.committed (.version row.id ref.version) = some row ∧
          Clear here.committed (some row.id) row.definition := by
  by_cases affected : row.id ∈ items.map StoredOntologyItem.ontologyId
  · apply Or.inr
    obtain ⟨item, member, isId⟩ := List.mem_map.mp affected
    have back := retiring.heads item member
    cases isBefore : item.before with
    | none =>
        rw [isBefore, isId] at back
        exact absurd head.published (back row.version row head.present)
    | some ref =>
        rw [isBefore] at back
        obtain ⟨other, isHead, otherId, isRef⟩ := back
        have same := isHead_unique isHead head (otherId.trans isId)
        have isVersion : row.version = ref.version := by
          rw [← same]
          exact congrArg OntologyVersionRef.version isRef
        have present := retiring.published head.present head.published
        obtain ⟨returned, found, clear⟩ := (retiring.restorable item member).returns ref isBefore
        rw [isId, ← isVersion, present] at found
        rw [isId, ← Option.some.inj found] at clear
        refine ⟨ref, ?_, isVersion ▸ present, clear⟩
        exact List.mem_map.mpr ⟨item, member, Prod.ext isId isBefore⟩
  · refine Or.inl ⟨affected, ?_, head.published, ?_⟩
    · rw [← retiring.unaffected affected]
      exact head.present
    · intro version other found
      rw [← retiring.unaffected affected] at found
      exact head.highest version other found

theorem Retiring.owners : OneOwner here.view := by
  have owners := retiring.wellFormed.good.versions.owners
  have coexist := (retiring.stored.recorded retiring.wellFormed).2.2
  constructor
  · intro row head
    cases retiring.head head with
    | inl before => exact owners.once row before.2
    | inr back =>
        obtain ⟨_, _, _, clear⟩ := back
        exact clear.once
  · intro first second left right different
    cases retiring.head left with
    | inl firstWas =>
        cases retiring.head right with
        | inl secondWas => exact owners.apart first second firstWas.2 secondWas.2 different
        | inr secondBack =>
            obtain ⟨_, _, _, clear⟩ := secondBack
            exact clear.apart first firstWas.2 fun same => different (Option.some.inj same)
    | inr firstBack =>
        obtain ⟨firstRef, firstMember, firstFound, firstClear⟩ := firstBack
        cases retiring.head right with
        | inl secondWas =>
            have apart := firstClear.apart second secondWas.2
              fun same => different (Option.some.inj same).symm
            exact fun key declared again => apart again declared
        | inr secondBack =>
            obtain ⟨secondRef, secondMember, secondFound, _⟩ := secondBack
            exact coexist.apart first.id second.id firstRef secondRef first second firstMember
              secondMember different firstFound secondFound

theorem Retiring.versionsGood : GoodVersions here.view := by
  refine ⟨?_, retiring.owners⟩
  intro family version row found
  have bases := retiring.wellFormed.good.versions.bases
  cases retiring.row family version with
  | inl same => exact bases family version row (same.symm.trans found)
  | inr written =>
      obtain ⟨_, _, _, _, old, present, _, isNow⟩ := written
      rw [found] at isNow
      rw [Option.some.inj isNow]
      exact bases family version old present

/-- The segment was not rolled back before: its versions were heads. -/
theorem Retiring.applied {segment : ChangeSegmentRow}
    (found : here.committed (.segment id) = some segment) (same : segment.items = items) :
    segment.status = .applied := by
  cases status : segment.status with
  | applied => rfl
  | rolledBack =>
      have recorded := retiring.wellFormed.good.segments id segment found (Option.some_ne_none id)
      obtain ⟨item, rest, isItems⟩ := List.exists_cons_of_ne_nil recorded.nonempty
      have member : item ∈ segment.items := isItems ▸ List.mem_cons_self
      obtain ⟨gone, isGone, deprecated⟩ := recorded.retired status item member
      obtain ⟨head, isHead, isId, isRef⟩ := (retiring.restorable item (same ▸ member)).head
      have present := isHead.present
      have isVersion : head.version = item.after.version :=
        congrArg OntologyVersionRef.version isRef
      rw [isId, isVersion, isGone] at present
      rw [Option.some.inj present, isHead.published] at deprecated
      cases deprecated

theorem Retiring.markRolledBack {segment : ChangeSegmentRow}
    (found : here.committed (.segment id) = some segment) (same : segment.items = items) :
    Ready digest (here.write (.segment id) { segment with status := .rolledBack }) := by
  have versions : ∀ family version,
      Function.update here.view (.segment id) (some { segment with status := .rolledBack })
        (.version family version) = here.view (.version family version) :=
    fun _ _ => Function.update_of_ne version_ne_segment ..
  have others : ∀ other, other ≠ id →
      Function.update here.view (.segment id) (some { segment with status := .rolledBack })
        (.segment other) = here.committed (.segment other) := by
    intro other different
    rw [Function.update_of_ne fun equal => different (OntologyKey.segment.inj equal)]
    exact retiring.segments.view other
  have advance : VersionsAdvance here.committed
      (Function.update here.view (.segment id) (some { segment with status := .rolledBack })) := by
    intro family version row present
    rw [versions]
    exact retiring.advance family version row present
  have heads : ∀ item ∈ items,
      HeadIs digest (Function.update here.view (.segment id)
        (some { segment with status := .rolledBack })) item.ontologyId item.before :=
    fun item member => headIs_congr (versions item.ontologyId) (retiring.heads item member)
  have recorded := retiring.wellFormed.good.segments id segment found (Option.some_ne_none id)
  have applied := retiring.applied found same
  refine ⟨⟨retiring.wellFormed.write_segment id _, retiring.locked⟩, ?_, ?_⟩
  · rw [OntologyTables.view_write]
    refine ⟨retiring.versionsGood.update_segment id _, ?_⟩
    intro other row present _
    by_cases mine : other = id
    · rw [mine, Function.update_self] at present
      rw [← Option.some.inj present]
      refine ⟨recorded.nonempty, recorded.distinct, recorded.coexist.carry advance, ?_⟩
      intro _ item member
      obtain ⟨gone, isGone, deprecated⟩ := retiring.gone item (same ▸ member)
      exact ⟨gone, (versions _ _).trans isGone, deprecated⟩
    · rw [others other mine] at present
      exact (retiring.wellFormed.good.segments other row present
        (Option.some_ne_none other)).carry advance
  · change Follows digest here.committed _
    rw [OntologyTables.view_write]
    constructor
    · exact advance
    · intro other row present
      by_cases mine : other = id
      · subst mine
        rw [found] at present
        cases present
        exact ⟨_, Function.update_self .., rfl⟩
      · exact ⟨row, (others other mine).trans present, rfl⟩
    · intro family version row next present again draft published
      rw [versions] at again
      rw [retiring.published again published] at present
      rw [← Option.some.inj present, published] at draft
      cases draft
    · intro other row next present again isApplied rolledBack
      by_cases mine : other = id
      · subst mine
        rw [found] at present
        cases present
        constructor
        · intro item member
          have isItem : item ∈ items := same ▸ member
          exact ⟨(retiring.restorable item isItem).head, heads item isItem⟩
        · intro family version apart
          rw [same] at apart
          exact (versions family version).trans (retiring.unaffected apart version)
      · rw [others other mine, present] at again
        rw [← Option.some.inj again, isApplied] at rolledBack
        cases rolledBack
    · intro family version row next present again isRetired was
      rw [versions] at again
      cases retiring.row family version with
      | inl unchanged =>
          rw [unchanged, present] at again
          exact absurd (Option.some.inj again ▸ isRetired) was
      | inr written =>
          obtain ⟨item, member, isFamily, isVersion, _⟩ := written
          exact ⟨id, segment, _, item, found, Function.update_self .., applied, rfl,
            same ▸ member, isFamily, isVersion⟩

end

/-! ### The transaction -/

theorem applyRollbacks_ensures {id : Nat} {items : List StoredOntologyItem}
    (plans : List PlannedOntologyRollback)
    (order : plans.map PlannedOntologyRollback.item = items.reverse)
    (distinct : (items.map StoredOntologyItem.ontologyId).Nodup) :
    Ensures digest (Retiring digest id items [] [])
      (Program.each (applyOntologyRollback digest) plans)
      fun _ => Retiring digest id items items.reverse items.reverse := by
  have looping : Ensures digest
      (Retiring digest id items (([] : List PlannedOntologyRollback).map
        PlannedOntologyRollback.item) (([] : List PlannedOntologyRollback).map
          PlannedOntologyRollback.item))
      (Program.each (applyOntologyRollback digest) plans)
      fun _ => Retiring digest id items (([] ++ plans).map PlannedOntologyRollback.item)
        (([] ++ plans).map PlannedOntologyRollback.item) := by
    apply @meets_each _ _ _ _ _ _ _
      (fun (earlier : List PlannedOntologyRollback) =>
        Retiring digest id items (earlier.map PlannedOntologyRollback.item)
          (earlier.map PlannedOntologyRollback.item))
    intro earlier planned isPlanned
    have member : planned.item ∈ items := by
      rw [← List.mem_reverse, ← order]
      exact List.mem_map_of_mem isPlanned
    rw [List.map_append]
    exact applyOntologyRollback_ensures planned member distinct
  rw [List.nil_append, order] at looping
  exact looping

theorem Planning.retiring {id : Nat} {items : List StoredOntologyItem} {here : OntologyTables}
    (planning : Planning id items here)
    (restorable : ∀ item ∈ items, Restorable digest here.committed item) :
    Retiring digest id items [] [] here where
  wellFormed := planning.wellFormed
  locked := planning.locked
  segments := planning.segments
  stored := planning.stored
  restorable := restorable
  versions family version row written := by
    rw [planning.versions] at written
    cases written
  among _ member := (nomatch member)
  gone _ member := (nomatch member)
  heads _ member := (nomatch member)

theorem markRolledBack_ensures {id : Nat} {items : List StoredOntologyItem} :
    Ensures digest (Retiring digest id items items.reverse items.reverse)
      (send (.markRolledBack id)) fun _ => Ready digest := by
  apply ensures_send rfl steady_retired fun _ holds => holds.wellFormed
  intro here _ next holds does
  have retiring : Retiring digest id items items items here :=
    { holds with
      versions := by
        intro family version row written
        obtain ⟨item, member, rest⟩ := holds.versions family version row written
        exact ⟨item, List.mem_reverse.mp member, rest⟩
      among := fun _ member => member
      gone := fun item member => holds.gone item (List.mem_reverse.mpr member)
      heads := fun item member => holds.heads item (List.mem_reverse.mpr member) }
  obtain ⟨segment, found, same⟩ := holds.stored
  have seen := (holds.segments.view id).trans found
  cases does with
  | inl written =>
      obtain ⟨row, present, isNext⟩ := written
      rw [seen] at present
      rw [isNext, ← Option.some.inj present]
      exact retiring.markRolledBack found same
  | inr missed =>
      rw [seen] at missed
      cases missed.1

theorem rollBackItems_ensures (input : RollBackWorkspaceSegmentInput)
    (items : List StoredOntologyItem) :
    Ensures digest (fun here => Opening here ∧ Stored input.segmentId items here.committed)
      (rollBackItems digest input items) fun _ => Ready digest := by
  have rolling : (items ≠ [] ∧ (items.map StoredOntologyItem.ontologyId).Nodup) →
      Ensures digest (fun here => Opening here ∧ Stored input.segmentId items here.committed)
        (rollBackItems digest input items) fun _ => Ready digest := by
    intro recorded
    apply (lockStored_ensures input.segmentId items recorded.1).seq
    intro _
    apply (planRollbacks_ensures input.segmentId items items.reverse).seq
    intro plans
    split
    next free =>
      split
      next =>
        have applying : plans.map PlannedOntologyRollback.item = items.reverse →
            Ensures digest (Retiring digest input.segmentId items [] [])
              (do
                Program.each (applyOntologyRollback digest) plans
                send (.markRolledBack input.segmentId))
              fun _ => Ready digest := by
          intro order
          apply (applyRollbacks_ensures plans order recorded.2).seq
          intro _
          exact markRolledBack_ensures
        apply (meets_assuming applying).weaken
        intro here holds
        obtain ⟨planning, order, each⟩ := holds
        refine ⟨order, planning.retiring ?_⟩
        intro item member
        rw [← List.mem_reverse, ← order] at member
        obtain ⟨planned, isPlanned, same⟩ := List.mem_map.mp member
        have unblocked := Option.isNone_iff_eq_none.mp (List.all_eq_true.mp free planned isPlanned)
        exact same ▸ each planned isPlanned unblocked
      next => exact ensures_throw fun _ holds => holds.1.wellFormed
    next => exact ensures_throw fun _ holds => holds.1.wellFormed
  apply (meets_assuming rolling).weaken
  intro here holds
  have recorded := holds.2.recorded holds.1.wellFormed
  exact ⟨⟨recorded.1, recorded.2.1⟩, holds⟩

theorem rollBackWorkspaceSegment_ensures (input : RollBackWorkspaceSegmentInput) :
    Ensures digest Idle (rollBackWorkspaceSegment digest input) fun _ => Ready digest := by
  apply (lockSegment_ensures input.segmentId).seq
  intro _
  have asking : Ensures digest Opening (ask (.segmentStatus input.segmentId))
      fun (status : Option ChangeSegmentStatus) here => Opening here ∧ (status = some .applied →
        ∃ items, Stored input.segmentId items here.committed) := by
    apply ensures_ask steady_opening fun _ holds => holds.wellFormed
    intro here opening
    refine ⟨opening, ?_⟩
    intro applied
    obtain ⟨segment, found, _⟩ := Option.map_eq_some_iff.mp applied
    rw [opening.view] at found
    exact ⟨segment.items, segment, found, rfl⟩
  apply asking.seq
  intro status
  cases status with
  | none => exact ensures_throw fun _ holds => holds.1.wellFormed
  | some status =>
      cases status with
      | rolledBack => exact ensures_throw fun _ holds => holds.1.wellFormed
      | applied =>
          have reading : Ensures digest
              (fun here => ∃ items, Opening here ∧ Stored input.segmentId items here.committed)
              (ask (.segmentItems input.segmentId))
              fun (items : List StoredOntologyItem) here =>
                Opening here ∧ Stored input.segmentId items here.committed := by
            apply meets_exists
            intro items
            apply ensures_ask steady_stored fun _ holds => holds.1.wellFormed
            intro here holds
            obtain ⟨opening, segment, found, same⟩ := holds
            refine ⟨opening, segment, found, ?_⟩
            change segment.items =
              ((here.view (.segment input.segmentId)).map ChangeSegmentRow.items).getD []
            rw [opening.view, found]
            rfl
          apply (reading.weaken fun here holds => by
            obtain ⟨items, stored⟩ := holds.2 rfl
            exact ⟨items, holds.1, stored⟩).seq
          intro items
          exact rollBackItems_ensures input items

end NextTime.Ontology
