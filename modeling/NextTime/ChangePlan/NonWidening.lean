import NextTime.ChangePlan.Classify

/-
Changes that widen nothing compose, field by field and then entry by entry; what
the governance comparison of two Operations says about them is what the
classifier says, but for targets whose fields are written in another order.
-/

namespace NextTime.ChangePlan
open NextTime.Governance

/-! ### Fields -/

theorem mem_sortedKeys {keys : List String} {key : String} :
    key ∈ sortedKeys keys ↔ key ∈ keys := by
  rw [sortedKeys, List.mem_insertionSort, List.mem_dedup]

theorem lookup_none_iff {fields : JsonFields} {key : String} :
    fields.lookup key = none ↔ key ∉ ownKeys fields := by
  rw [List.lookup_eq_none_iff, ownKeys, List.mem_map]
  constructor
  · intro absent present
    obtain ⟨field, member, same⟩ := present
    exact bne_iff_ne.mp (absent field member) same.symm
  · intro absent field member
    apply bne_iff_ne.mpr
    intro same
    exact absent ⟨field, member, same.symm⟩

/-- The change of one field is none, or permitted by its rule. -/
def FieldPasses (fields : FieldRules) (key : String) (before after : Option JsonValue) : Prop :=
  before = none ∧ after = none ∨
    ∃ rule, fields.lookup key = some rule ∧ Permits rule before after

theorem compareField_nil {path : String} {before after : JsonFields} {fields : FieldRules}
    {key : String} :
    compareField path before after fields key = [] ↔
      FieldPasses fields key (before.lookup key) (after.lookup key) := by
  rw [compareField, FieldPasses]
  by_cases absent : ((before.lookup key).isNone && (after.lookup key).isNone) = true
  · rw [if_pos absent]
    rw [Bool.and_eq_true, Option.isNone_iff_eq_none, Option.isNone_iff_eq_none] at absent
    exact ⟨fun _ => Or.inl absent, fun _ => rfl⟩
  · have present : ¬ (before.lookup key = none ∧ after.lookup key = none) := by
      rw [← Option.isNone_iff_eq_none, ← Option.isNone_iff_eq_none, ← Bool.and_eq_true]
      exact absent
    rw [if_neg absent]
    cases known : fields.lookup key with
    | none => simp only [reduceCtorEq, present, false_and, exists_false, or_self]
    | some rule =>
        simp only [present, false_or, Option.some.injEq, exists_eq_left', Permits]
        cases rule (before.lookup key) (after.lookup key) with
        | none => simp
        | some reason => simp

theorem compareEntry_nil {path : String} {before after : JsonFields} {fields : FieldRules} :
    compareEntry path before after fields = [] ↔
      ∀ key, FieldPasses fields key (before.lookup key) (after.lookup key) := by
  rw [compareEntry, List.flatMap_eq_nil_iff]
  constructor
  · intro passes key
    by_cases own : key ∈ ownKeys before ++ ownKeys after
    · exact compareField_nil.mp (passes key (mem_sortedKeys.mpr own))
    · rw [List.mem_append, not_or] at own
      exact Or.inl ⟨lookup_none_iff.mpr own.1, lookup_none_iff.mpr own.2⟩
  · intro passes key _
    exact compareField_nil.mpr (passes key)

/-- Every rule of the table permits a preorder of changes. -/
def RulesCompose (fields : FieldRules) : Prop :=
  ∀ key rule, fields.lookup key = some rule → Composes rule

/-- The fields of an entry are all known to the table. -/
def Known (fields : FieldRules) (own : JsonFields) : Prop :=
  ∀ key ∈ ownKeys own, (fields.lookup key).isSome = true

theorem compareEntry_refl {fields : FieldRules} {own : JsonFields} (compose : RulesCompose fields)
    (known : Known fields own) (path : String) : compareEntry path own own fields = [] := by
  apply compareEntry_nil.mpr
  intro key
  by_cases present : key ∈ ownKeys own
  · obtain ⟨rule, found⟩ := Option.isSome_iff_exists.mp (known key present)
    exact Or.inr ⟨rule, found, (compose key rule found).refl _⟩
  · have absent := lookup_none_iff.mpr present
    exact Or.inl ⟨absent, absent⟩

theorem FieldPasses.trans {fields : FieldRules} {key : String}
    {first second third : Option JsonValue} (compose : RulesCompose fields)
    (early : FieldPasses fields key first second) (late : FieldPasses fields key second third) :
    FieldPasses fields key first third := by
  cases early with
  | inl absent => rw [absent.1, ← absent.2]; exact late
  | inr permitted =>
      cases late with
      | inl absent => rw [absent.2, ← absent.1]; exact Or.inr permitted
      | inr next =>
          obtain ⟨rule, found, permits⟩ := permitted
          obtain ⟨again, foundAgain, permitsNext⟩ := next
          rw [found, Option.some.injEq] at foundAgain
          rw [← foundAgain] at permitsNext
          exact Or.inr ⟨rule, found, (compose key rule found).trans _ _ _ permits permitsNext⟩

theorem compareEntry_trans {fields : FieldRules} {first second third : JsonFields}
    (compose : RulesCompose fields) {path : String}
    (early : compareEntry path first second fields = [])
    (late : compareEntry path second third fields = []) :
    compareEntry path first third fields = [] := by
  apply compareEntry_nil.mpr
  intro key
  exact (compareEntry_nil.mp early key).trans compose (compareEntry_nil.mp late key)

/-! ### Items of one content -/

/-- A classifier that reports nothing of what stays, and nothing of a chain of changes
none of which it reports, for the contents it is given. -/
structure Composing {Content : Type} (classify : Option Content → Option Content →
    List WideningReason) (within : Content → Prop) : Prop where
  unchanged : ∀ content, (∀ known, content = some known → within known) →
    classify content content = []
  chain : ∀ first second third,
    (∀ known, first = some known → within known) →
    (∀ known, second = some known → within known) →
    (∀ known, third = some known → within known) →
    classify first second = [] → classify second third = [] → classify first third = []

theorem versioned_composing {path : String} {fields : FieldRules}
    (compose : RulesCompose fields) :
    Composing (classifyVersionedContent path fields) (Known fields) where
  unchanged content known := by
    cases content with
    | none => rfl
    | some own => exact compareEntry_refl compose (known own rfl) path
  chain first second third _ _ _ early late := by
    cases third with
    | none => cases first <;> rfl
    | some third =>
        cases second with
        | none => cases late
        | some second =>
            cases first with
            | none => cases early
            | some first => exact compareEntry_trans compose early late

/-! ### Sections -/

variable {Entry : Type}

theorem group_nil_iff {rules : SectionRules Entry} {entries : List Entry} {key : String} :
    rules.group entries key = [] ↔ key ∉ entries.map rules.keyOf := by
  rw [SectionRules.group, List.filter_eq_nil_iff, List.mem_map]
  constructor
  · intro apart present
    obtain ⟨entry, member, same⟩ := present
    exact apart entry member (decide_eq_true same)
  · intro absent entry member same
    exact absent ⟨entry, member, of_decide_eq_true same⟩

theorem compareSection_nil {rules : SectionRules Entry} {before after : List Entry} :
    compareSection rules before after = [] ↔ ∀ key, compareKey rules before after key = [] := by
  rw [compareSection, List.flatMap_eq_nil_iff]
  constructor
  · intro quiet key
    by_cases own : key ∈ before.map rules.keyOf ++ after.map rules.keyOf
    · exact quiet key (mem_sortedKeys.mpr own)
    · rw [List.mem_append, not_or] at own
      rw [compareKey, group_nil_iff.mpr own.1, group_nil_iff.mpr own.2]
  · intro quiet key _
    exact quiet key

/-- No two entries have one key. -/
def UniqueKeys (rules : SectionRules Entry) (entries : List Entry) : Prop :=
  (entries.map rules.keyOf).Nodup

/-- Entries are told apart by their keys, and have only fields the rules know. -/
structure PlainEntries (rules : SectionRules Entry) (entries : List Entry) : Prop where
  unique : UniqueKeys rules entries
  known : ∀ entry ∈ entries, Known rules.fields (rules.own entry)

theorem group_cases {rules : SectionRules Entry} {entries : List Entry}
    (unique : UniqueKeys rules entries) (key : String) :
    rules.group entries key = [] ∨
      ∃ entry ∈ entries, rules.keyOf entry = key ∧ rules.group entries key = [entry] := by
  induction entries with
  | nil => exact Or.inl rfl
  | cons entry entries ih =>
      obtain ⟨fresh, rest⟩ := List.nodup_cons.mp unique
      by_cases same : rules.keyOf entry = key
      · right
        have alone : rules.group entries key = [] := by
          rw [← same]
          exact group_nil_iff.mpr fresh
        refine ⟨entry, List.mem_cons_self, same, ?_⟩
        have kept : rules.group (entry :: entries) key = entry :: rules.group entries key := by
          simp only [SectionRules.group, List.filter_cons, same, decide_true, if_true]
        rw [kept, alone]
      · have passed : rules.group (entry :: entries) key = rules.group entries key := by
          rw [SectionRules.group, List.filter_cons_of_neg (by simpa using same)]
          rfl
        rw [passed]
        cases ih rest with
        | inl none => exact Or.inl none
        | inr found =>
            obtain ⟨other, member, named, alone⟩ := found
            exact Or.inr ⟨other, List.mem_cons_of_mem _ member, named, alone⟩

/-- A section that reports every entry added and every entry dropped. -/
def Guarded (rules : SectionRules Entry) : Prop :=
  rules.added.isSome = true ∧ rules.removed.isSome = true

/-- Under such a section nothing reported means: no entry, or one on both sides. -/
theorem compareKey_guarded {rules : SectionRules Entry} (guarded : Guarded rules)
    {before after : List Entry} {key : String} (quiet : compareKey rules before after key = []) :
    rules.group before key = [] ∧ rules.group after key = [] ∨
      ∃ was entry, rules.group before key = [was] ∧ rules.group after key = [entry] ∧
        compareEntry (rules.path key) (rules.own was) (rules.own entry) rules.fields = [] := by
  obtain ⟨_, isAdded⟩ := Option.isSome_iff_exists.mp guarded.1
  obtain ⟨_, isRemoved⟩ := Option.isSome_iff_exists.mp guarded.2
  rw [compareKey] at quiet
  split at quiet
  next none absent => exact Or.inl ⟨none, absent⟩
  next none found => rw [isAdded] at quiet; cases quiet
  next found none => rw [isRemoved] at quiet; cases quiet
  next was entry found foundAfter => exact Or.inr ⟨was, entry, found, foundAfter, quiet⟩
  next => cases quiet

theorem guarded_refl {rules : SectionRules Entry} (compose : RulesCompose rules.fields)
    {entries : List Entry} (plain : PlainEntries rules entries) :
    compareSection rules entries entries = [] := by
  apply compareSection_nil.mpr
  intro key
  cases group_cases plain.unique key with
  | inl none => rw [compareKey, none]
  | inr found =>
      obtain ⟨entry, member, _, alone⟩ := found
      rw [compareKey, alone]
      exact compareEntry_refl compose (plain.known entry member) _

theorem guarded_trans {rules : SectionRules Entry} (guarded : Guarded rules)
    (compose : RulesCompose rules.fields) {first second third : List Entry}
    (early : compareSection rules first second = [])
    (late : compareSection rules second third = []) : compareSection rules first third = [] := by
  apply compareSection_nil.mpr
  intro key
  have one := compareKey_guarded guarded (compareSection_nil.mp early key)
  have two := compareKey_guarded guarded (compareSection_nil.mp late key)
  cases one with
  | inl absent =>
      cases two with
      | inl none => rw [compareKey, absent.1, none.2]
      | inr found =>
          obtain ⟨was, _, found, _⟩ := found
          rw [absent.2] at found
          cases found
  | inr kept =>
      obtain ⟨was, middle, foundFirst, foundSecond, quiet⟩ := kept
      cases two with
      | inl none =>
          rw [foundSecond] at none
          cases none.1
      | inr next =>
          obtain ⟨again, entry, foundAgain, foundThird, quietNext⟩ := next
          rw [foundSecond, List.cons.injEq] at foundAgain
          rw [← foundAgain.1] at quietNext
          rw [compareKey, foundFirst, foundThird]
          exact compareEntry_trans compose quiet quietNext

/-- A section nothing of which is governed: every rule permits every change. -/
structure Free (rules : SectionRules Entry) : Prop where
  added : rules.added = none
  removed : rules.removed = none
  fields : ∀ key rule, rules.fields.lookup key = some rule → ∀ before after,
    Permits rule before after

theorem compareEntry_free {path : String} {fields : FieldRules} {before after : JsonFields}
    (free : ∀ key rule, fields.lookup key = some rule → ∀ before after,
      Permits rule before after)
    (knownBefore : Known fields before) (knownAfter : Known fields after) :
    compareEntry path before after fields = [] := by
  apply compareEntry_nil.mpr
  intro key
  by_cases own : key ∈ ownKeys before ∨ key ∈ ownKeys after
  · have known : (fields.lookup key).isSome = true := by
      cases own with
      | inl own => exact knownBefore key own
      | inr own => exact knownAfter key own
    obtain ⟨rule, found⟩ := Option.isSome_iff_exists.mp known
    exact Or.inr ⟨rule, found, free key rule found _ _⟩
  · rw [not_or] at own
    exact Or.inl ⟨lookup_none_iff.mpr own.1, lookup_none_iff.mpr own.2⟩

theorem free_quiet {rules : SectionRules Entry} (free : Free rules) {before after : List Entry}
    (plainBefore : PlainEntries rules before) (plainAfter : PlainEntries rules after) :
    compareSection rules before after = [] := by
  apply compareSection_nil.mpr
  intro key
  rw [compareKey]
  cases group_cases plainBefore.unique key with
  | inl none =>
      cases group_cases plainAfter.unique key with
      | inl absent => rw [none, absent]
      | inr found =>
          obtain ⟨entry, member, _, alone⟩ := found
          rw [none, alone, free.added]
          exact compareEntry_free free.fields (fun _ own => nomatch own)
            (plainAfter.known entry member)
  | inr found =>
      obtain ⟨was, wasMember, _, wasAlone⟩ := found
      cases group_cases plainAfter.unique key with
      | inl absent => rw [wasAlone, absent, free.removed]
      | inr found =>
          obtain ⟨entry, member, _, alone⟩ := found
          rw [wasAlone, alone]
          exact compareEntry_free free.fields (plainBefore.known was wasMember)
            (plainAfter.known entry member)

/-! ### The tables -/

theorem rulesCompose_of_mem {fields : FieldRules}
    (all : ∀ entry ∈ fields, Composes entry.2) : RulesCompose fields := by
  intro key rule found
  obtain ⟨before, after, same, _⟩ := List.lookup_eq_some_iff.mp found
  apply all (key, rule)
  rw [same]
  exact List.mem_append_right _ List.mem_cons_self

theorem actionTypeRules_compose : RulesCompose ACTION_TYPE_FIELD_RULES := by
  apply rulesCompose_of_mem
  simp only [ACTION_TYPE_FIELD_RULES, List.forall_mem_cons]
  exact ⟨composes_notWidening, composes_notWidening, composes_strictness _,
    composes_strictness _, composes_strictness _, composes_strictness _, composes_anyChange,
    composes_anyChange, fun _ none => nomatch none⟩

theorem skillRules_compose : RulesCompose SKILL_FIELD_RULES := by
  apply rulesCompose_of_mem
  simp only [SKILL_FIELD_RULES, List.forall_mem_cons]
  exact ⟨composes_anyChange, composes_anyChange, composes_anyChange, composes_notWidening,
    fun _ none => nomatch none⟩

theorem workerRules_compose : RulesCompose WORKER_DEFINITION_FIELD_RULES := by
  apply rulesCompose_of_mem
  simp only [WORKER_DEFINITION_FIELD_RULES, List.forall_mem_cons]
  exact ⟨composes_anyChange, composes_anyChange, composes_notWidening, composes_notWidening,
    composes_listRule _ _, composes_listRule _ _, composes_listRule _ _, composes_listRule _ _,
    composes_notWidening, composes_notWidening, fun _ none => nomatch none⟩

theorem operationRules_chain : RulesCompose OPERATION_FIELD_RULES := by
  apply rulesCompose_of_mem
  intro entry listed
  exact operationRules_compose listed

theorem permits_of_notWidening {fields : FieldRules}
    (all : ∀ entry ∈ fields, entry.2 = NOT_WIDENING) {key : String} {rule : FieldRule}
    (found : fields.lookup key = some rule) (before after : Option JsonValue) :
    Permits rule before after := by
  obtain ⟨early, late, same, _⟩ := List.lookup_eq_some_iff.mp found
  have plain := all (key, rule) (by rw [same]; exact List.mem_append_right _ List.mem_cons_self)
  rw [show rule = NOT_WIDENING from plain]
  exact permits_notWidening before after

theorem objectTypes_free : Free OBJECT_TYPES where
  added := rfl
  removed := rfl
  fields := fun _ _ found =>
    permits_of_notWidening (by simp [OBJECT_TYPES, OBJECT_TYPE_FIELD_RULES]) found

theorem linkTypes_free : Free LINK_TYPES where
  added := rfl
  removed := rfl
  fields := fun _ _ found =>
    permits_of_notWidening (by simp [LINK_TYPES, LINK_TYPE_FIELD_RULES]) found

theorem actionTypes_guarded : Guarded ACTION_TYPES := ⟨rfl, rfl⟩

/-! ### Ontology definitions -/

/-- Keys told apart and fields known in every section, and no other section. -/
structure OntologyDefinition.Plain (definition : OntologyDefinition) : Prop where
  objectTypes : PlainEntries OBJECT_TYPES (definition.objectTypes.getD [])
  linkTypes : PlainEntries LINK_TYPES (definition.linkTypes.getD [])
  actionTypes : PlainEntries ACTION_TYPES (definition.actionTypes.getD [])
  others : definition.others = []

theorem plain_nil (rules : SectionRules Entry) : PlainEntries rules [] where
  unique := List.nodup_nil
  known := fun _ none => nomatch none

/-- What a content within the classifier's domain gives, installed or not. -/
def PlainContent (content : Option OntologyDefinition) : Prop :=
  ∀ known, content = some known → known.Plain

theorem PlainContent.sections {content : Option OntologyDefinition} (plain : PlainContent content) :
    PlainEntries OBJECT_TYPES (objectTypesOf content) ∧
      PlainEntries LINK_TYPES (linkTypesOf content) ∧
      PlainEntries ACTION_TYPES (actionTypesOf content) ∧ otherFields content = [] := by
  cases content with
  | none => exact ⟨plain_nil _, plain_nil _, plain_nil _, rfl⟩
  | some definition =>
      have known := plain definition rfl
      exact ⟨known.objectTypes, known.linkTypes, known.actionTypes, known.others⟩

theorem ontology_nil {before after : Option OntologyDefinition} (plainBefore : PlainContent before)
    (plainAfter : PlainContent after) :
    classifyOntologyDefinitionChange before after = [] ↔
      compareSection ACTION_TYPES (actionTypesOf before) (actionTypesOf after) = [] := by
  obtain ⟨objects, links, _, others⟩ := plainBefore.sections
  obtain ⟨objectsAfter, linksAfter, _, othersAfter⟩ := plainAfter.sections
  have unknown : unknownKeys before after = [] := by
    rw [unknownKeys, others, othersAfter]
    rfl
  rw [classifyOntologyDefinitionChange, unknown, free_quiet objectTypes_free objects objectsAfter,
    free_quiet linkTypes_free links linksAfter]
  rfl

theorem ontology_composing :
    Composing classifyOntologyDefinitionChange OntologyDefinition.Plain where
  unchanged _ plain :=
    (ontology_nil plain plain).mpr
      (guarded_refl actionTypeRules_compose (PlainContent.sections plain).2.2.1)
  chain _ _ _ plainFirst plainSecond plainThird early late :=
    (ontology_nil plainFirst plainThird).mpr
      (guarded_trans actionTypes_guarded actionTypeRules_compose
        ((ontology_nil plainFirst plainSecond).mp early)
        ((ontology_nil plainSecond plainThird).mp late))

/-! ### Fields no rule knows -/

theorem compareEntry_reports {path field : String} {before after : JsonFields}
    {fields : FieldRules} (unknown : fields.lookup field = none)
    (present : field ∈ ownKeys before ∨ field ∈ ownKeys after) :
    ⟨path ++ "." ++ field, .unrecognized⟩ ∈ compareEntry path before after fields := by
  apply List.mem_flatMap.mpr
  refine ⟨field, mem_sortedKeys.mpr (List.mem_append.mpr present), ?_⟩
  have seen : ¬ ((before.lookup field).isNone && (after.lookup field).isNone) = true := by
    rw [Bool.and_eq_true, Option.isNone_iff_eq_none, Option.isNone_iff_eq_none, lookup_none_iff,
      lookup_none_iff]
    intro absent
    cases present with
    | inl own => exact absent.1 own
    | inr own => exact absent.2 own
  rw [compareField, if_neg seen, unknown]
  exact List.mem_singleton.mpr rfl

/-- Every field no rule knows is reported, of an item on both sides; a new item is
reported whole. -/
def VersionedReports (path : String) (fields : FieldRules)
    (classify : Option JsonFields → Option JsonFields → List WideningReason) : Prop :=
  ∀ field, fields.lookup field = none → ∀ before after : JsonFields,
    (field ∈ ownKeys before ∨ field ∈ ownKeys after →
      ⟨path ++ "." ++ field, .unrecognized⟩ ∈ classify (some before) (some after)) ∧
    ⟨path, .added⟩ ∈ classify none (some after)

theorem versioned_reports (path : String) (fields : FieldRules) :
    VersionedReports path fields (classifyVersionedContent path fields) := by
  intro field unknown before after
  constructor
  · intro present
    exact compareEntry_reports unknown present
  · exact List.mem_singleton.mpr rfl

/-- The same of the entries of a section. -/
def SectionReports (rules : SectionRules Entry) (before after : List Entry)
    (out : List WideningReason) : Prop :=
  ∀ field, rules.fields.lookup field = none →
    (∀ entry ∈ after, field ∈ ownKeys (rules.own entry) →
      ⟨rules.path (rules.keyOf entry) ++ "." ++ field, .unrecognized⟩ ∈ out ∨
        rules.keyOf entry ∉ before.map rules.keyOf ∧
          ∃ reason, rules.added = some reason ∧
            ⟨rules.path (rules.keyOf entry), reason⟩ ∈ out) ∧
    ∀ was ∈ before, field ∈ ownKeys (rules.own was) →
      rules.keyOf was ∈ after.map rules.keyOf →
      ⟨rules.path (rules.keyOf was) ++ "." ++ field, .unrecognized⟩ ∈ out

theorem group_of_mem {rules : SectionRules Entry} {entries : List Entry}
    (unique : UniqueKeys rules entries) {entry : Entry} (member : entry ∈ entries) :
    rules.group entries (rules.keyOf entry) = [entry] := by
  have own : entry ∈ rules.group entries (rules.keyOf entry) :=
    List.mem_filter.mpr ⟨member, decide_eq_true rfl⟩
  cases group_cases unique (rules.keyOf entry) with
  | inl none => rw [none] at own; cases own
  | inr found =>
      obtain ⟨other, _, _, alone⟩ := found
      rw [alone] at own ⊢
      rw [List.mem_singleton.mp own]

theorem compareKey_reported {rules : SectionRules Entry} {before after : List Entry}
    {key : String} (present : key ∈ before.map rules.keyOf ∨ key ∈ after.map rules.keyOf)
    {reason : WideningReason} (reported : reason ∈ compareKey rules before after key) :
    reason ∈ compareSection rules before after :=
  List.mem_flatMap.mpr ⟨key, mem_sortedKeys.mpr (List.mem_append.mpr present), reported⟩

theorem section_reports {rules : SectionRules Entry} {before after : List Entry}
    (uniqueBefore : UniqueKeys rules before) (uniqueAfter : UniqueKeys rules after) :
    SectionReports rules before after (compareSection rules before after) := by
  intro field unknown
  constructor
  · intro entry member own
    have listed : rules.keyOf entry ∈ after.map rules.keyOf := List.mem_map_of_mem member
    cases group_cases uniqueBefore (rules.keyOf entry) with
    | inl none =>
        cases added : rules.added with
        | some reason =>
            right
            refine ⟨group_nil_iff.mp none, reason, rfl, ?_⟩
            apply compareKey_reported (Or.inr listed)
            rw [compareKey, none, group_of_mem uniqueAfter member, added]
            exact List.mem_singleton.mpr rfl
        | none =>
            left
            apply compareKey_reported (Or.inr listed)
            rw [compareKey, none, group_of_mem uniqueAfter member, added]
            exact compareEntry_reports unknown (Or.inr own)
    | inr found =>
        obtain ⟨was, _, _, alone⟩ := found
        left
        apply compareKey_reported (Or.inr listed)
        rw [compareKey, alone, group_of_mem uniqueAfter member]
        exact compareEntry_reports unknown (Or.inr own)
  · intro was member own kept
    apply compareKey_reported (Or.inr kept)
    cases group_cases uniqueAfter (rules.keyOf was) with
    | inl none => exact absurd kept (group_nil_iff.mp none)
    | inr found =>
        obtain ⟨entry, _, _, alone⟩ := found
        rw [compareKey, group_of_mem uniqueBefore member, alone]
        exact compareEntry_reports unknown (Or.inl own)

theorem SectionReports.mono {rules : SectionRules Entry} {before after : List Entry}
    {out wider : List WideningReason} (reports : SectionReports rules before after out)
    (within : out ⊆ wider) : SectionReports rules before after wider := by
  intro field unknown
  obtain ⟨added, kept⟩ := reports field unknown
  constructor
  · intro entry member own
    cases added entry member own with
    | inl reported => exact Or.inl (within reported)
    | inr whole =>
        obtain ⟨fresh, reason, isAdded, reported⟩ := whole
        exact Or.inr ⟨fresh, reason, isAdded, within reported⟩
  · intro was member own stays
    exact within (kept was member own stays)

structure UniqueContent (content : Option OntologyDefinition) : Prop where
  objectTypes : UniqueKeys OBJECT_TYPES (objectTypesOf content)
  linkTypes : UniqueKeys LINK_TYPES (linkTypesOf content)
  actionTypes : UniqueKeys ACTION_TYPES (actionTypesOf content)

/-- The same of a definition: of its own fields, and of the entries of its sections. -/
structure OntologyReports (before after : Option OntologyDefinition)
    (out : List WideningReason) : Prop where
  others : ∀ field, ONTOLOGY_SECTION_NAMES.contains field = false →
    field ∈ ownKeys (otherFields before) ∨ field ∈ ownKeys (otherFields after) →
    ⟨field, .unrecognized⟩ ∈ out
  objectTypes : SectionReports OBJECT_TYPES (objectTypesOf before) (objectTypesOf after) out
  linkTypes : SectionReports LINK_TYPES (linkTypesOf before) (linkTypesOf after) out
  actionTypes : SectionReports ACTION_TYPES (actionTypesOf before) (actionTypesOf after) out

theorem ontology_reports {before after : Option OntologyDefinition}
    (uniqueBefore : UniqueContent before) (uniqueAfter : UniqueContent after) :
    OntologyReports before after (classifyOntologyDefinitionChange before after) where
  others field unknown present := by
    apply List.mem_append_left
    apply List.mem_append_left
    apply List.mem_append_left
    apply List.mem_map_of_mem
    apply mem_sortedKeys.mpr
    apply List.mem_filter.mpr
    exact ⟨List.mem_append.mpr present, by rw [unknown]; rfl⟩
  objectTypes :=
    (section_reports uniqueBefore.objectTypes uniqueAfter.objectTypes).mono fun _ member =>
      List.mem_append_left _ (List.mem_append_left _ (List.mem_append_right _ member))
  linkTypes :=
    (section_reports uniqueBefore.linkTypes uniqueAfter.linkTypes).mono fun _ member =>
      List.mem_append_left _ (List.mem_append_right _ member)
  actionTypes :=
    (section_reports uniqueBefore.actionTypes uniqueAfter.actionTypes).mono fun _ member =>
      List.mem_append_right _ member

/-! ### The two judges of an Operation's governance -/

/-- Two declared targets that say the same are written in the same order. -/
def TargetsAlike (before after : Operation) : Prop :=
  ∀ was now, before.target = some was → after.target = some now →
    was.objectType = now.objectType → was.params = now.params → was.paramsFirst = now.paramsFirst

theorem ruleValue_own (operation : Operation) {field : OperationGovernanceFieldName}
    (other : field ≠ .target) :
    ruleValue (operationGovernanceFieldsOf operation) field = operation.own.lookup field.key := by
  cases field with
  | mode => exact operation.ownMode.symm
  | blastRadius => exact operation.ownBlastRadius.symm
  | autoApprovable => exact operation.ownAutoApprovable.symm
  | awaitDecision => exact operation.ownAwaitDecision.symm
  | reads => exact operation.ownReads.symm
  | writes => exact operation.ownWrites.symm
  | readOnlyHint => exact operation.ownReadOnlyHint.symm
  | destructiveHint => exact operation.ownDestructiveHint.symm
  | idempotentHint => exact operation.ownIdempotentHint.symm
  | target => exact absurd rfl other

theorem ofStrings_inj {values others : List String}
    (same : JsonValue.ofStrings values = .ofStrings others) : values = others := by
  have read := congrArg JsonValue.strings? same
  rw [JsonValue.strings?_ofStrings, JsonValue.strings?_ofStrings] at read
  exact Option.some.inj read

theorem governanceTarget_inj {target other : OperationGovernanceTarget}
    (same : target.json = other.json) : target = other := by
  have fields := JsonValue.obj.inj same
  simp only [List.cons.injEq, Prod.mk.injEq, true_and, and_true, JsonValue.str.injEq] at fields
  cases target with
  | mk objectType params =>
      cases other with
      | mk otherType otherParams =>
          obtain ⟨sameType, sameParams⟩ := fields
          have types : objectType = otherType := sameType
          have names : params = otherParams := ofStrings_inj sameParams
          rw [types, names]

theorem operationTarget_same {target other : OperationTarget} (same : target.json = other.json) :
    target.objectType = other.objectType ∧ target.params = other.params := by
  rw [OperationTarget.json, OperationTarget.json] at same
  split at same
  all_goals
    split at same
    all_goals
      have fields := JsonValue.obj.inj same
      simp only [List.cons.injEq, Prod.mk.injEq, String.reduceEq, false_and, true_and, and_true,
        JsonValue.str.injEq] at fields
  · exact ⟨fields.2, ofStrings_inj fields.1⟩
  · exact ⟨fields.1, ofStrings_inj fields.2⟩

/-- The target as written is permitted exactly when the target as read is. -/
theorem permits_target {before after : Operation} (alike : TargetsAlike before after) :
    Permits targetRule (ruleValue (operationGovernanceFieldsOf before) .target)
        (ruleValue (operationGovernanceFieldsOf after) .target) ↔
      Permits targetRule (before.own.lookup "target") (after.own.lookup "target") := by
  rw [permits_targetRule, permits_targetRule, before.ownTarget, after.ownTarget]
  simp only [ruleValue, operationGovernanceFieldsOf]
  cases wasTarget : before.target with
  | none =>
      cases after.target with
      | none => simp
      | some now => simp
  | some was =>
      cases nowTarget : after.target with
      | none => simp
      | some now =>
          simp only [Option.map_some, Option.some.injEq, reduceCtorEq, or_false]
          constructor
          · intro same
            have equal := governanceTarget_inj same
            rw [OperationGovernanceTarget.mk.injEq] at equal
            obtain ⟨sameType, sameParams⟩ := equal
            have order := alike was now wasTarget nowTarget sameType sameParams
            rw [OperationTarget.json, OperationTarget.json, sameType, sameParams, order]
          · intro same
            obtain ⟨sameType, sameParams⟩ := operationTarget_same same
            rw [sameType, sameParams]

/-- No reported path is that of a governance field. -/
def ReportsNoGovernance (out : List WideningReason) : Prop :=
  ∀ reason ∈ out, ∀ field : OperationGovernanceFieldName,
    reason.path ≠ "operation" ++ "." ++ field.key

theorem compareField_path {path key : String} {before after : JsonFields} {fields : FieldRules}
    {reason : WideningReason} (reported : reason ∈ compareField path before after fields key) :
    reason.path = path ++ "." ++ key := by
  rw [compareField] at reported
  split at reported
  next => cases reported
  next =>
    cases known : fields.lookup key with
    | none =>
        simp only [known] at reported
        rw [List.mem_singleton.mp reported]
    | some rule =>
        simp only [known] at reported
        cases judged : rule (before.lookup key) (after.lookup key) with
        | none => simp only [judged, List.not_mem_nil] at reported
        | some code =>
            simp only [judged] at reported
            rw [List.mem_singleton.mp reported]

theorem path_inj {prefix_ key other : String} (same : prefix_ ++ key = prefix_ ++ other) :
    key = other := by
  have texts := congrArg String.toList same
  rw [String.toList_append, String.toList_append, List.append_cancel_left_eq] at texts
  exact String.toList_inj.mp texts

/-- No governance field is reported exactly when every one of them passes. -/
theorem reportsNoGovernance_iff (before after : JsonFields) :
    ReportsNoGovernance (classifyOperationChange (some before) (some after)) ↔
      ∀ field : OperationGovernanceFieldName,
        FieldPasses OPERATION_FIELD_RULES field.key (before.lookup field.key)
          (after.lookup field.key) := by
  constructor
  · intro none field
    apply compareField_nil.mp
    apply List.eq_nil_iff_forall_not_mem.mpr
    intro reason reported
    apply none reason _ field
    · exact compareField_path reported
    · by_cases own : field.key ∈ ownKeys before ++ ownKeys after
      · exact List.mem_flatMap.mpr ⟨field.key, mem_sortedKeys.mpr own, reported⟩
      · rw [List.mem_append, not_or] at own
        rw [compareField, lookup_none_iff.mpr own.1, lookup_none_iff.mpr own.2] at reported
        cases reported
  · intro passes reason reported field same
    obtain ⟨key, _, here⟩ := List.mem_flatMap.mp reported
    have path := compareField_path here
    rw [same] at path
    rw [← path_inj path, compareField_nil.mpr (passes field)] at here
    cases here

theorem governance_agrees {before after : Operation} (alike : TargetsAlike before after) :
    OperationGovernanceChangeDirection.narrows
        (operationGovernanceChangeDirection (operationGovernanceFieldsOf before)
          (operationGovernanceFieldsOf after)) = true ↔
      ReportsNoGovernance (classifyOperationChange (some before.own) (some after.own)) := by
  rw [direction_narrows, reportsNoGovernance_iff]
  apply forall_congr'
  intro field
  have passes : FieldPasses OPERATION_FIELD_RULES field.key (before.own.lookup field.key)
        (after.own.lookup field.key) ↔
      Permits field.rule (before.own.lookup field.key) (after.own.lookup field.key) := by
    rw [FieldPasses, lookup_key]
    constructor
    · intro passes
      cases passes with
      | inl absent =>
          rw [absent.1, absent.2]
          exact (operationRules_compose (field_listed field)).refl _
      | inr permitted =>
          obtain ⟨rule, found, permits⟩ := permitted
          rw [Option.some.inj found]
          exact permits
    · intro permits
      exact Or.inr ⟨field.rule, rfl, permits⟩
  rw [passes]
  by_cases target : field = .target
  · rw [target]
    exact permits_target alike
  · rw [ruleValue_own before target, ruleValue_own after target]

/-- Changes that widen nothing compose for each kind of content; every field no rule
knows is reported, but of what is taken out; and the governance comparison of two
Operations and the classifier agree, for targets written alike. -/
theorem non_widening_changes_compose :
    (Composing classifyOntologyDefinitionChange OntologyDefinition.Plain ∧
      Composing classifySkillChange (Known SKILL_FIELD_RULES) ∧
      Composing classifyWorkerDefinitionChange (Known WORKER_DEFINITION_FIELD_RULES) ∧
      Composing classifyOperationChange (Known OPERATION_FIELD_RULES)) ∧
    ((∀ before after, UniqueContent before → UniqueContent after →
        OntologyReports before after (classifyOntologyDefinitionChange before after)) ∧
      VersionedReports "skill" SKILL_FIELD_RULES classifySkillChange ∧
      VersionedReports "worker" WORKER_DEFINITION_FIELD_RULES classifyWorkerDefinitionChange ∧
      VersionedReports "operation" OPERATION_FIELD_RULES classifyOperationChange) ∧
    ∀ before after : Operation, TargetsAlike before after →
      (OperationGovernanceChangeDirection.narrows
          (operationGovernanceChangeDirection (operationGovernanceFieldsOf before)
            (operationGovernanceFieldsOf after)) = true ↔
        ReportsNoGovernance (classifyOperationChange (some before.own) (some after.own))) := by
  refine ⟨⟨ontology_composing, ?_, ?_, ?_⟩, ⟨?_, ?_, ?_, ?_⟩, ?_⟩
  · exact versioned_composing skillRules_compose
  · exact versioned_composing workerRules_compose
  · exact versioned_composing operationRules_chain
  · exact fun _ _ uniqueBefore uniqueAfter => ontology_reports uniqueBefore uniqueAfter
  · exact versioned_reports _ _
  · exact versioned_reports _ _
  · exact versioned_reports _ _
  · exact fun _ _ alike => governance_agrees alike

/-- An execute call queued by its volume, its target written in either order. -/
def detachVolume (paramsFirst : Bool) : Operation where
  own :=
    [("name", .str "detach_volume"),
      ("description", .str "Detach a volume."),
      ("binding", .obj [("kind", .str "mcp"), ("tool", .str "detach")]),
      ("params_schema", .obj
        [("type", .str "object"),
          ("properties", .obj [("volume", .obj [("type", .str "string")])]),
          ("required", .ofStrings ["volume"])]),
      ("mode", .str "execute"),
      ("blast_radius", .str "medium"),
      ("reversibility", .bool true),
      ("auto_approvable", .bool false),
      ("await_decision", .bool true),
      ("reads", .ofStrings []),
      ("writes", .ofStrings ["Volume"]),
      ("target", OperationTarget.json ⟨"Volume", ["volume"], paramsFirst⟩)]
  mode := .execute
  blastRadius := .medium
  autoApprovable := false
  awaitDecision := true
  reads := []
  writes := ["Volume"]
  readOnlyHint := none
  destructiveHint := none
  idempotentHint := none
  target := some ⟨"Volume", ["volume"], paramsFirst⟩
  ownMode := rfl
  ownBlastRadius := rfl
  ownAutoApprovable := rfl
  ownAwaitDecision := rfl
  ownReads := rfl
  ownWrites := rfl
  ownReadOnlyHint := rfl
  ownDestructiveHint := rfl
  ownIdempotentHint := rfl
  ownTarget := rfl

theorem non_widening_changes_compose_detach :
    OperationGovernanceChangeDirection.narrows
        (operationGovernanceChangeDirection (operationGovernanceFieldsOf (detachVolume true))
          (operationGovernanceFieldsOf (detachVolume true))) = true ↔
      ReportsNoGovernance
        (classifyOperationChange (some (detachVolume true).own)
          (some (detachVolume true).own)) := by
  apply non_widening_changes_compose.2.2
  intro was now wasTarget nowTarget _ _
  rw [wasTarget, Option.some.injEq] at nowTarget
  rw [nowTarget]

/-- A Skill with a field no rule knows, taken out: nothing is reported. And an Operation
whose target is written in another order: its governance is unchanged for the one judge
and reported by the other. -/
theorem reordered_target_disagrees :
    (("owner" ∈ ownKeys [("name", .str "triage"), ("owner", .str "ops")] ∧
        SKILL_FIELD_RULES.lookup "owner" = none ∧
        classifySkillChange (some [("name", .str "triage"), ("owner", .str "ops")]) none = []) ∧
      operationGovernanceChangeDirection (operationGovernanceFieldsOf (detachVolume true))
          (operationGovernanceFieldsOf (detachVolume false)) = some .neutral) ∧
    ¬ ReportsNoGovernance
      (classifyOperationChange (some (detachVolume true).own)
        (some (detachVolume false).own)) := by
  refine ⟨⟨⟨by decide, rfl, rfl⟩, by decide +kernel⟩, ?_⟩
  intro none
  have reported : (⟨"operation.target", .changed⟩ : WideningReason) ∈
      classifyOperationChange (some (detachVolume true).own)
        (some (detachVolume false).own) := by
    decide +kernel
  exact none _ reported .target rfl

end NextTime.ChangePlan
