import NextTime.Ontology.Publishers

/-
Applying a segment: every family's lock, every plan, then version after version,
each with its record. What is recorded as before were heads together.
-/

namespace NextTime.Ontology

open Interleaving Interleaving.Conduct OntologyStore

variable {digest : OntologyDefinition → String}

/-- No transaction under way, or one that has only added rows. -/
def Opened (here : OntologyTables) : Prop :=
  Idle here ∨ Publishing none here

theorem Opened.wellFormed {here : OntologyTables} (opened : Opened here) : here.WellFormed := by
  cases opened with
  | inl idle => exact idle.wellFormed
  | inr publishing => exact publishing.wellFormed

theorem steady_published {except : Option Nat} : Steady (Publishing except) := by
  intro before here publishing meanwhile
  exact (steady_publishing kept_true before here ⟨publishing, trivial⟩ meanwhile).1

theorem steady_opened : Steady Opened := by
  intro before here opened meanwhile
  cases opened with
  | inl idle => exact Or.inl (steady_idle before here idle meanwhile)
  | inr publishing => exact Or.inr (steady_published before here publishing meanwhile)

theorem Publishing.locks {except : Option Nat} {here : OntologyTables}
    (publishing : Publishing except here) : Publishing except { here with locked := true } := by
  have same : ({ here with locked := true } : OntologyTables) = here := by
    cases here
    congr 1
    exact publishing.locked.symm
  rw [same]
  exact publishing

theorem Opened.locks {here : OntologyTables} (opened : Opened here) :
    Publishing none { here with locked := true } := by
  cases opened with
  | inl idle => exact idle.locks.publishing
  | inr publishing => exact publishing.locks

theorem Opened.commits {here : OntologyTables} (opened : Opened here) : Commits digest here := by
  cases opened with
  | inl idle =>
      have same : here.view = here.committed := by
        funext key
        rw [OntologyTables.view, idle.clean key, Option.none_or]
      constructor
      · rw [same]
        exact idle.wellFormed.good
      · rw [same]
        exact Follows.refl digest here.committed
      · intro _
        rw [same]
        exact GainsDrafts.refl here.committed
  | inr publishing => exact publishing.ready.commits

/-! ### Plans -/

def PlannedOntologyItem.restores (planned : PlannedOntologyItem) :
    Nat × Option OntologyVersionRef :=
  (planned.ontologyId, planned.before)

theorem planOntologyItem_ensures (intent : OntologyVersionIntent) {fact : OntologyRows → Prop}
    (kept : Kept fact) :
    Ensures digest (fun here => Publishing none here ∧ fact here.view)
      (planOntologyItem digest intent)
      fun planned here => Publishing none here ∧ fact here.view ∧
        planned.ontologyId = intent.ontologyId ∧
          HeadIs digest here.view planned.ontologyId planned.before := by
  have asking : Ensures digest (fun here => Publishing none here ∧ fact here.view)
      (ask (.publishedHead intent.ontologyId))
      fun (head : Option OntologyVersionRow) here => Publishing none here ∧ fact here.view ∧
        HeadIs digest here.view intent.ontologyId (head.map (refOf digest)) := by
    apply ensures_ask (steady_publishing kept) fun _ holds => holds.1.wellFormed
    intro here holds
    exact ⟨holds.1, holds.2, headIs_answer holds.1.wellFormed.view intent.ontologyId⟩
  apply asking.seq
  intro head
  have keptHead : Kept fun rows => fact rows ∧
      HeadIs digest rows intent.ontologyId (head.map (refOf digest)) :=
    kept_and kept fun _ _ gains holds => gains.headIs holds
  have planned : ∀ here, (Publishing none here ∧ fact here.view ∧
      HeadIs digest here.view intent.ontologyId (head.map (refOf digest))) →
        Publishing none here ∧ fact here.view ∧ intent.ontologyId = intent.ontologyId ∧
          HeadIs digest here.view intent.ontologyId (head.map (refOf digest)) :=
    fun _ holds => ⟨holds.1, holds.2.1, rfl, holds.2.2⟩
  dsimp only
  split
  next => exact ensures_pure planned
  next =>
    apply (assertOntologyNamespace_ensures (steady_publishing keptHead)
      (fun _ holds => holds.1.wellFormed) (some intent.ontologyId) intent.definition).seq
    intro _
    exact ensures_pure fun here holds => planned here holds.1

/-- What each round found is of its item. -/
theorem forall_of_zip {Item Found : Type} {items : List Item} {found : List Found}
    {fact : Found → Prop} (length : found.length = items.length)
    (each : ∀ pair ∈ items.zip found, fact pair.2) : ∀ result ∈ found, fact result := by
  intro result member
  have seconds := @List.map_snd_zip _ _ items found length.le
  rw [← seconds] at member
  obtain ⟨pair, paired, same⟩ := List.mem_map.mp member
  exact same ▸ each pair paired

theorem planItems_ensures (items : List OntologyVersionIntent) :
    Ensures digest (Publishing none) (Program.collect (planOntologyItem digest) items)
      fun plans here => Publishing none here ∧
        plans.map PlannedOntologyItem.ontologyId = items.map OntologyVersionIntent.ontologyId ∧
          ∀ planned ∈ plans, HeadIs digest here.view planned.ontologyId planned.before := by
  have collecting : Ensures digest
      (fun here => Publishing none here ∧
        ∀ pair ∈ ([] : List (OntologyVersionIntent × PlannedOntologyItem)),
          pair.2.ontologyId = pair.1.ontologyId ∧
            HeadIs digest here.view pair.2.ontologyId pair.2.before)
      (Program.collect (planOntologyItem digest) items)
      fun plans here => plans.length = items.length ∧ Publishing none here ∧
        ∀ pair ∈ [] ++ items.zip plans, pair.2.ontologyId = pair.1.ontologyId ∧
          HeadIs digest here.view pair.2.ontologyId pair.2.before := by
    apply @meets_collect _ _ _ _ _ _ _ _
      (fun (pairs : List (OntologyVersionIntent × PlannedOntologyItem)) here =>
        Publishing none here ∧ ∀ pair ∈ pairs, pair.2.ontologyId = pair.1.ontologyId ∧
          HeadIs digest here.view pair.2.ontologyId pair.2.before)
    intro earlier intent _
    have keptEarlier : Kept fun rows => ∀ pair ∈ earlier, pair.2.ontologyId = pair.1.ontologyId ∧
        HeadIs digest rows pair.2.ontologyId pair.2.before :=
      fun _ _ gains holds pair member =>
        ⟨(holds pair member).1, gains.headIs (holds pair member).2⟩
    apply (planOntologyItem_ensures intent keptEarlier).mono
    intro planned here holds
    refine ⟨holds.1, ?_⟩
    intro pair member
    cases List.mem_append.mp member with
    | inl before => exact holds.2.1 pair before
    | inr now =>
        rw [List.mem_singleton.mp now]
        exact holds.2.2
  apply (collecting.weaken fun here holds => ⟨holds, fun _ member => (nomatch member)⟩).mono
  intro plans here holds
  obtain ⟨length, publishing, each⟩ := holds
  rw [List.nil_append] at each
  refine ⟨publishing, ?_, forall_of_zip length fun pair member => (each pair member).2⟩
  have firsts := @List.map_fst_zip _ _ items plans length.ge
  have seconds := @List.map_snd_zip _ _ items plans length.le
  calc plans.map PlannedOntologyItem.ontologyId
      = (items.zip plans).map fun pair => pair.2.ontologyId := by
        rw [← seconds, List.map_map, seconds]
        rfl
    _ = (items.zip plans).map fun pair => pair.1.ontologyId :=
        List.map_congr_left fun pair member => (each pair member).1
    _ = items.map OntologyVersionIntent.ontologyId := by
        rw [← firsts, List.map_map, firsts]
        rfl

/-! ### Records -/

/-- What the rows hold of the segment being applied. -/
structure Recording (segmentId : Nat) (heads recorded : List (Nat × Option OntologyVersionRef))
    (rows : OntologyRows) : Prop where
  coexist : Coexist rows heads
  segment : ∃ row, rows (.segment segmentId) = some row ∧ row.status = .applied ∧
    row.items.map StoredOntologyItem.restores = recorded

theorem grows_recording (segmentId : Nat) (heads recorded : List (Nat × Option OntologyVersionRef)) :
    Grows (Recording segmentId heads recorded) := by
  intro rows after adds recording
  refine ⟨recording.coexist.carry adds.advance, ?_⟩
  obtain ⟨row, found, rest⟩ := recording.segment
  exact ⟨row, adds _ row found, rest⟩

theorem version_ne_segment {id version segmentId : Nat} :
    OntologyKey.version id version ≠ .segment segmentId :=
  fun same => (nomatch same)

theorem advance_segment (rows : OntologyRows) (segmentId : Nat) (segment : ChangeSegmentRow) :
    VersionsAdvance rows (Function.update rows (.segment segmentId) (some segment)) := by
  intro id version row found
  rw [Function.update_of_ne version_ne_segment]
  exact ⟨row, found, .same⟩

theorem isHead_segment {rows : OntologyRows} {segmentId : Nat} {segment : ChangeSegmentRow}
    {row : OntologyVersionRow} :
    IsHead (Function.update rows (.segment segmentId) (some segment)) row ↔ IsHead rows row := by
  constructor
  · intro head
    have present := head.present
    rw [Function.update_of_ne version_ne_segment] at present
    refine ⟨present, head.published, ?_⟩
    intro version other found
    apply head.highest version other
    rw [Function.update_of_ne version_ne_segment]
    exact found
  · intro head
    refine ⟨?_, head.published, ?_⟩
    · rw [Function.update_of_ne version_ne_segment]
      exact head.present
    · intro version other found
      rw [Function.update_of_ne version_ne_segment] at found
      exact head.highest version other found

theorem GoodVersions.update_segment {rows : OntologyRows} (good : GoodVersions rows)
    (segmentId : Nat) (segment : ChangeSegmentRow) :
    GoodVersions (Function.update rows (.segment segmentId) (some segment)) := by
  constructor
  · intro id version row found
    rw [Function.update_of_ne version_ne_segment] at found
    exact good.bases id version row found
  · constructor
    · exact fun row head => good.owners.once row (isHead_segment.mp head)
    · exact fun first second left right =>
        good.owners.apart first second (isHead_segment.mp left) (isHead_segment.mp right)

/-- The segment being applied may be written. -/
theorem Publishing.write_segment {except : Option Nat} {here : OntologyTables}
    (publishing : Publishing except here) {segmentId : Nat} {segment : ChangeSegmentRow}
    (excepted : except = none ∨ except = some segmentId)
    (absent : here.committed (.segment segmentId) = none) :
    Publishing (some segmentId) (here.write (.segment segmentId) segment) where
  wellFormed := publishing.wellFormed.write_segment segmentId segment
  locked := publishing.locked
  versions := by
    rw [OntologyTables.view_write]
    exact publishing.versions.update_segment segmentId segment
  segments := by
    rw [OntologyTables.view_write]
    intro id other found apart
    have different : OntologyKey.segment id ≠ .segment segmentId := by
      intro same
      rw [(OntologyKey.segment.inj same)] at apart
      exact apart rfl
    rw [Function.update_of_ne different] at found
    have recorded : Recorded here.view other := by
      apply publishing.segments id other found
      cases excepted with
      | inl free =>
          rw [free]
          exact Option.some_ne_none id
      | inr mine =>
          rw [mine]
          exact apart
    exact recorded.carry (advance_segment here.view segmentId segment)
  inserts := inserts_write publishing.inserts absent
  fresh id same := Option.some.inj same ▸ absent

/-- Once its items are recorded, nothing is missing. -/
theorem Publishing.recorded {segmentId : Nat} {here : OntologyTables}
    (publishing : Publishing (some segmentId) here)
    (recorded : ∀ segment, here.view (.segment segmentId) = some segment →
      Recorded here.view segment) : Publishing none here where
  toHolding := publishing.toHolding
  versions := publishing.versions
  segments := by
    intro id segment found _
    by_cases mine : id = segmentId
    · rw [mine] at found
      exact recorded segment found
    · exact publishing.segments id segment found fun same => mine (Option.some.inj same)
  inserts := publishing.inserts
  fresh _ impossible := (nomatch impossible)

theorem insertSegment_ensures (segmentId : Nat) {heads : List (Nat × Option OntologyVersionRef)} :
    Ensures digest (fun here => Publishing none here ∧ Coexist here.view heads)
      (send (.insertSegment segmentId))
      fun _ here => Publishing (some segmentId) here ∧ Recording segmentId heads [] here.view := by
  have kept : Kept fun rows => Coexist rows heads :=
    fun _ _ gains coexist => coexist.carry gains.advance
  apply ensures_send rfl (steady_publishing kept) fun _ holds => holds.1.wellFormed
  intro here _ next holds does
  rw [does.2]
  refine ⟨holds.1.write_segment (Or.inl rfl) (committed_none does.1), ?_⟩
  rw [OntologyTables.view_write]
  refine ⟨holds.2.carry (advance_segment here.view segmentId _), _, Function.update_self .., rfl,
    rfl⟩

theorem insertItem_ensures (segmentId : Nat) (item : StoredOntologyItem)
    {heads recorded : List (Nat × Option OntologyVersionRef)} :
    Ensures digest
      (fun here => Publishing (some segmentId) here ∧ Recording segmentId heads recorded here.view)
      (send (.insertItem segmentId item))
      fun _ here => Publishing (some segmentId) here ∧
        Recording segmentId heads (recorded ++ [item.restores]) here.view := by
  apply ensures_send rfl (steady_publishing (grows_recording segmentId heads recorded).kept)
    fun _ holds => holds.1.wellFormed
  intro here _ next holds does
  obtain ⟨publishing, recording⟩ := holds
  obtain ⟨row, found, isNext⟩ := does
  obtain ⟨same, present, applied, items⟩ := recording.segment
  rw [found] at present
  rw [isNext]
  refine ⟨publishing.write_segment (Or.inr rfl) (publishing.fresh segmentId rfl), ?_⟩
  rw [OntologyTables.view_write]
  refine ⟨recording.coexist.carry (advance_segment here.view segmentId _), _,
    Function.update_self .., ?_, ?_⟩
  · exact Option.some.inj present ▸ applied
  · rw [List.map_append, Option.some.inj present, items]
    rfl

/-! ### The segment -/

/-- What the items planned so far leave to record. -/
def recordedOf (plans : List PlannedOntologyItem) : List (Nat × Option OntologyVersionRef) :=
  (plans.filter fun planned => !planned.unchanged).map PlannedOntologyItem.restores

theorem applyOntologyItem_ensures (input : ApplyWorkspaceSegmentInput)
    (planned : PlannedOntologyItem) (earlier : List PlannedOntologyItem)
    {heads : List (Nat × Option OntologyVersionRef)} :
    Ensures digest
      (fun here => Publishing (some input.segmentId) here ∧
        Recording input.segmentId heads (recordedOf earlier) here.view)
      (applyOntologyItem input planned)
      fun _ here => Publishing (some input.segmentId) here ∧
        Recording input.segmentId heads (recordedOf (earlier ++ [planned])) here.view := by
  rw [applyOntologyItem]
  split
  next unchanged =>
    have same : recordedOf (earlier ++ [planned]) = recordedOf earlier := by
      rw [recordedOf, List.filter_append, List.filter_singleton, unchanged, Bool.not_true,
        cond_false, List.append_nil, recordedOf]
    rw [same]
    exact ensures_pure fun _ holds => holds
  next changed =>
    have more : recordedOf (earlier ++ [planned]) = recordedOf earlier ++ [planned.restores] := by
      rw [recordedOf, List.filter_append, List.filter_singleton, Bool.eq_false_iff.mpr changed,
        Bool.not_false, cond_true, List.map_append, recordedOf]
      rfl
    rw [more]
    have grows := grows_recording input.segmentId heads (recordedOf earlier)
    apply (publishOntologyVersion_ensures _ (steady_publishing grows.kept)
      (fun _ holds => holds.1.wellFormed) (fun _ holds => ⟨holds.1.locks, holds.2⟩) grows).seq
    intro row
    exact insertItem_ensures input.segmentId
      ⟨planned.ontologyId, planned.before, ⟨row.version, planned.definitionDigest⟩⟩

theorem lockItems_ensures (items : List OntologyVersionIntent) (some : items ≠ []) :
    Ensures digest Opened
      (Program.each (fun intent => lockOntologyFamily intent.ontologyId) items)
      fun _ => Publishing none := by
  have locking : Ensures digest
      (fun here => Opened here ∧ (([] : List OntologyVersionIntent) ≠ [] → Publishing none here))
      (Program.each (fun intent => lockOntologyFamily intent.ontologyId) items)
      fun _ here => Opened here ∧ ([] ++ items ≠ [] → Publishing none here) := by
    apply @meets_each _ _ _ _ _ _ _
      (fun (intents : List OntologyVersionIntent) here =>
        Opened here ∧ (intents ≠ [] → Publishing none here))
    intro earlier intent _
    have opened : Ensures digest Opened (lockOntologyFamily intent.ontologyId)
        fun _ => Publishing none :=
      lockOntologyFamily_ensures intent.ontologyId steady_opened
        (fun _ opened => opened.wellFormed) steady_published
        (fun _ publishing => publishing.wellFormed) fun _ opened => opened.locks
    apply (opened.weaken fun _ holds => holds.1).mono
    exact fun _ _ publishing => ⟨Or.inr publishing, fun _ => publishing⟩
  apply (locking.weaken fun _ opened => ⟨opened, fun impossible => absurd rfl impossible⟩).mono
  intro _ here holds
  exact holds.2 some

theorem fst_restores (items : List StoredOntologyItem) :
    items.map StoredOntologyItem.ontologyId =
      (items.map StoredOntologyItem.restores).map Prod.fst := by
  rw [List.map_map]
  rfl

/-- What has been recorded once every planned item is. -/
theorem Recording.recorded {segmentId : Nat} {plans : List PlannedOntologyItem}
    {rows : OntologyRows}
    (recording : Recording segmentId (plans.map PlannedOntologyItem.restores) (recordedOf plans)
      rows)
    (distinct : (plans.map PlannedOntologyItem.ontologyId).Nodup)
    (changed : ¬ plans.all PlannedOntologyItem.unchanged = true) {segment : ChangeSegmentRow}
    (found : rows (.segment segmentId) = some segment) : Recorded rows segment := by
  obtain ⟨row, present, applied, items⟩ := recording.segment
  rw [found] at present
  rw [← Option.some.inj present] at applied items
  constructor
  · intro none
    rw [none] at items
    apply changed
    rw [List.all_eq_true]
    intro planned member
    by_contra different
    have kept : planned.restores ∈ recordedOf plans := by
      apply List.mem_map_of_mem
      rw [List.mem_filter, Bool.eq_false_iff.mpr different]
      exact ⟨member, rfl⟩
    rw [← items] at kept
    cases kept
  · rw [fst_restores, items, recordedOf, List.map_map]
    exact distinct.sublist (List.filter_sublist.map _)
  · rw [items]
    apply recording.coexist.sublist
    intro head member
    obtain ⟨planned, kept, same⟩ := List.mem_map.mp member
    exact List.mem_map.mpr ⟨planned, (List.mem_filter.mp kept).1, same⟩
  · intro rolledBack
    rw [applied] at rolledBack
    cases rolledBack

theorem applyWorkspaceSegment_ensures (input : ApplyWorkspaceSegmentInput) :
    Ensures digest Opened (applyWorkspaceSegment digest input) fun _ => Opened := by
  rw [applyWorkspaceSegment]
  split
  next valid =>
    apply (lockItems_ensures input.items valid.1).seq
    intro _
    apply (planItems_ensures input.items).seq
    intro plans
    split
    next =>
      split
      next => exact ensures_pure fun _ holds => Or.inr holds.1
      next changed =>
        have recording : (plans.map PlannedOntologyItem.ontologyId).Nodup →
            Ensures digest
              (fun here => Publishing none here ∧
                Coexist here.view (plans.map PlannedOntologyItem.restores))
              (do
                send (.insertSegment input.segmentId)
                Program.each (applyOntologyItem input) plans)
              fun _ => Opened := by
          intro distinct
          apply (insertSegment_ensures input.segmentId).seq
          intro _
          have looping : Ensures digest
              (fun here => Publishing (some input.segmentId) here ∧
                Recording input.segmentId (plans.map PlannedOntologyItem.restores)
                  (recordedOf []) here.view)
              (Program.each (applyOntologyItem input) plans)
              fun _ here => Publishing (some input.segmentId) here ∧
                Recording input.segmentId (plans.map PlannedOntologyItem.restores)
                  (recordedOf ([] ++ plans)) here.view :=
            @meets_each _ _ _ _ _ _ _
              (fun (earlier : List PlannedOntologyItem) here =>
                Publishing (some input.segmentId) here ∧
                  Recording input.segmentId (plans.map PlannedOntologyItem.restores)
                    (recordedOf earlier) here.view) _ _ _
              fun earlier planned _ => applyOntologyItem_ensures input planned earlier
          apply looping.mono
          intro _ here holds
          exact Or.inr (holds.1.recorded fun segment found =>
            holds.2.recorded distinct changed found)
        apply (meets_assuming recording).weaken
        intro here holds
        refine ⟨holds.2.1 ▸ valid.2, holds.1, ?_⟩
        apply @coexist_of_heads digest _ _ holds.1.versions.owners
        intro head member
        obtain ⟨planned, isPlanned, same⟩ := List.mem_map.mp member
        rw [← same]
        exact holds.2.2 planned isPlanned
    next => exact ensures_throw fun _ holds => holds.1.wellFormed
  next => exact ensures_throw fun _ opened => opened.wellFormed

end NextTime.Ontology
