import NextTime.Governance.FieldRules
import Mathlib

/-
What an Operation's governance is, and which way a change of it moves. The
governance is read into its own shape, the target included, before it is
compared; the rules are those of the Operation's fields.
-/

namespace NextTime.Governance

/-- Moving a target is judged by whether there was one. -/
def targetRule : FieldRule := fun before after =>
  if sameValue before after || after.isNone then none
  else if before.isNone then some .loosened
  else some .changed

def destructiveHintRank : Option JsonValue → Option Nat
  | some (.bool false) => some 0
  | some (.bool true) => some 1
  | none => some 1
  | _ => none

def idempotentHintRank : Option JsonValue → Option Nat
  | some (.bool true) => some 0
  | some (.bool false) => some 1
  | none => some 1
  | _ => none

abbrev FieldRules := List (String × FieldRule)

def OPERATION_FIELD_RULES : FieldRules :=
  [("name", ANY_CHANGE),
    ("description", ANY_CHANGE),
    ("binding", ANY_CHANGE),
    ("params_schema", ANY_CHANGE),
    ("mode", strictness (rankOf [.str "observe", .str "execute"])),
    ("blast_radius", strictness (rankOf [.str "low", .str "medium", .str "high"])),
    ("reversibility", ANY_CHANGE),
    ("auto_approvable", strictness (rankOf [.bool true, .bool false])),
    ("await_decision", strictness (rankOf [.bool false, .bool true])),
    ("reads", listRule .grows true),
    ("writes", listRule .grows true),
    ("result_mapping", ANY_CHANGE),
    ("read_only_hint", ANY_CHANGE),
    ("destructive_hint", strictness destructiveHintRank),
    ("idempotent_hint", strictness idempotentHintRank),
    ("target", targetRule)]

/-! ### Operations -/

inductive OperationMode
  | observe
  | execute
deriving DecidableEq, Repr

def OperationMode.text : OperationMode → String
  | .observe => "observe"
  | .execute => "execute"

inductive BlastRadius
  | low
  | medium
  | high
deriving DecidableEq, Repr

def BlastRadius.text : BlastRadius → String
  | .low => "low"
  | .medium => "medium"
  | .high => "high"

/-- An object of two fields, written in either order. -/
structure OperationTarget where
  objectType : String
  params : List String
  paramsFirst : Bool
deriving DecidableEq, Repr

def OperationTarget.json (target : OperationTarget) : JsonValue :=
  if target.paramsFirst then
    .obj [("params", .ofStrings target.params), ("object_type", .str target.objectType)]
  else .obj [("object_type", .str target.objectType), ("params", .ofStrings target.params)]

/-- An Operation as an object, its fields in any order, and its governance as typed. -/
structure Operation where
  own : JsonFields
  mode : OperationMode
  blastRadius : BlastRadius
  autoApprovable : Bool
  awaitDecision : Bool
  reads : List String
  writes : List String
  readOnlyHint : Option Bool
  destructiveHint : Option Bool
  idempotentHint : Option Bool
  target : Option OperationTarget
  ownMode : own.lookup "mode" = some (.str mode.text)
  ownBlastRadius : own.lookup "blast_radius" = some (.str blastRadius.text)
  ownAutoApprovable : own.lookup "auto_approvable" = some (.bool autoApprovable)
  ownAwaitDecision : own.lookup "await_decision" = some (.bool awaitDecision)
  ownReads : own.lookup "reads" = some (.ofStrings reads)
  ownWrites : own.lookup "writes" = some (.ofStrings writes)
  ownReadOnlyHint : own.lookup "read_only_hint" = readOnlyHint.map .bool
  ownDestructiveHint : own.lookup "destructive_hint" = destructiveHint.map .bool
  ownIdempotentHint : own.lookup "idempotent_hint" = idempotentHint.map .bool
  ownTarget : own.lookup "target" = target.map OperationTarget.json

structure OperationGovernanceTarget where
  objectType : String
  params : List String
deriving DecidableEq, Repr

structure OperationGovernanceFields where
  mode : OperationMode
  blastRadius : BlastRadius
  autoApprovable : Bool
  awaitDecision : Bool
  reads : List String
  writes : List String
  readOnlyHint : Option Bool
  destructiveHint : Option Bool
  idempotentHint : Option Bool
  target : Option OperationGovernanceTarget
deriving DecidableEq, Repr

inductive OperationGovernanceFieldName
  | mode
  | blastRadius
  | autoApprovable
  | awaitDecision
  | reads
  | writes
  | readOnlyHint
  | destructiveHint
  | idempotentHint
  | target
deriving DecidableEq, Repr

/-- `GOVERNANCE_FIELD_KEYS`: each governance field's Operation key. -/
def OperationGovernanceFieldName.key : OperationGovernanceFieldName → String
  | .mode => "mode"
  | .blastRadius => "blast_radius"
  | .autoApprovable => "auto_approvable"
  | .awaitDecision => "await_decision"
  | .reads => "reads"
  | .writes => "writes"
  | .readOnlyHint => "read_only_hint"
  | .destructiveHint => "destructive_hint"
  | .idempotentHint => "idempotent_hint"
  | .target => "target"

/-- The table's rule of the field; every governance field has one. -/
def OperationGovernanceFieldName.rule (field : OperationGovernanceFieldName) : FieldRule :=
  (OPERATION_FIELD_RULES.lookup field.key).getD ANY_CHANGE

def GOVERNANCE_FIELD_NAMES : List OperationGovernanceFieldName :=
  [.mode, .blastRadius, .autoApprovable, .awaitDecision, .reads, .writes, .readOnlyHint,
    .destructiveHint, .idempotentHint, .target]

def operationGovernanceFieldsOf (operation : Operation) : OperationGovernanceFields where
  mode := operation.mode
  blastRadius := operation.blastRadius
  autoApprovable := operation.autoApprovable
  awaitDecision := operation.awaitDecision
  reads := operation.reads
  writes := operation.writes
  readOnlyHint := operation.readOnlyHint
  destructiveHint := operation.destructiveHint
  idempotentHint := operation.idempotentHint
  target := operation.target.map fun target => ⟨target.objectType, target.params⟩

def OperationGovernanceTarget.json (target : OperationGovernanceTarget) : JsonValue :=
  .obj [("objectType", .str target.objectType), ("params", .ofStrings target.params)]

/-- The value the rules read for a governance field. -/
def ruleValue (fields : OperationGovernanceFields) :
    OperationGovernanceFieldName → Option JsonValue
  | .mode => some (.str fields.mode.text)
  | .blastRadius => some (.str fields.blastRadius.text)
  | .autoApprovable => some (.bool fields.autoApprovable)
  | .awaitDecision => some (.bool fields.awaitDecision)
  | .reads => some (.ofStrings fields.reads)
  | .writes => some (.ofStrings fields.writes)
  | .readOnlyHint => fields.readOnlyHint.map .bool
  | .destructiveHint => fields.destructiveHint.map .bool
  | .idempotentHint => fields.idempotentHint.map .bool
  | .target => fields.target.map OperationGovernanceTarget.json

def sameSet (a b : List String) : Bool :=
  let left := a.dedup
  let right := b.dedup
  decide (left.length = right.length) && left.all fun entry => right.contains entry

def fieldDiffers (existing announced : OperationGovernanceFields) :
    OperationGovernanceFieldName → Bool
  | .mode => decide (existing.mode ≠ announced.mode)
  | .blastRadius => decide (existing.blastRadius ≠ announced.blastRadius)
  | .autoApprovable => decide (existing.autoApprovable ≠ announced.autoApprovable)
  | .awaitDecision => decide (existing.awaitDecision ≠ announced.awaitDecision)
  | .reads => !sameSet existing.reads announced.reads
  | .writes => !sameSet existing.writes announced.writes
  | .readOnlyHint => decide (existing.readOnlyHint ≠ announced.readOnlyHint)
  | .destructiveHint => decide (existing.destructiveHint ≠ announced.destructiveHint)
  | .idempotentHint => decide (existing.idempotentHint ≠ announced.idempotentHint)
  | .target =>
      !sameValue (existing.target.map OperationGovernanceTarget.json)
        (announced.target.map OperationGovernanceTarget.json)

structure OperationGovernanceDiff where
  differs : Bool
  changedFields : List OperationGovernanceFieldName
deriving DecidableEq, Repr

def diffOperationGovernanceFields (existing announced : OperationGovernanceFields) :
    OperationGovernanceDiff :=
  let changedFields := GOVERNANCE_FIELD_NAMES.filter (fieldDiffers existing announced)
  { differs := decide (0 < changedFields.length), changedFields := changedFields }

inductive OperationGovernanceChangeDirection
  | loosened
  | tightened
  | mixed
  | neutral
deriving DecidableEq, Repr

def fieldDirection (field : OperationGovernanceFieldName)
    (existing announced : OperationGovernanceFields) : OperationGovernanceChangeDirection :=
  if (field.rule (ruleValue existing field) (ruleValue announced field)).isNone then .tightened
  else .loosened

/-- `none` where the source throws: there is nothing to classify. -/
def classifyOperationGovernanceChange (existing announced : OperationGovernanceFields)
    (changedFields : List OperationGovernanceFieldName) :
    Option OperationGovernanceChangeDirection :=
  match changedFields.map (fun field => fieldDirection field existing announced) with
  | [] => none
  | direction :: directions =>
      if directions.all fun other => decide (other = direction) then some direction
      else some .mixed

def operationGovernanceChangeDirection (before after : OperationGovernanceFields) :
    Option OperationGovernanceChangeDirection :=
  let diff := diffOperationGovernanceFields before after
  if diff.differs then classifyOperationGovernanceChange before after diff.changedFields
  else some .neutral

/-! ### What the rules permit -/

theorem permits_targetRule {before after : Option JsonValue} :
    Permits targetRule before after ↔ before = after ∨ after = none := by
  rw [Permits, targetRule, sameValue]
  cases after with
  | none => simp
  | some value =>
      cases before with
      | none => simp
      | some other => simp

theorem composes_targetRule : Composes targetRule where
  refl value := permits_targetRule.mpr (Or.inl rfl)
  trans first second third early late := by
    apply permits_targetRule.mpr
    cases permits_targetRule.mp late with
    | inr dropped => exact Or.inr dropped
    | inl same =>
        rw [← same]
        exact permits_targetRule.mp early

theorem operationRules_compose {key : String} {rule : FieldRule}
    (listed : (key, rule) ∈ OPERATION_FIELD_RULES) : Composes rule := by
  simp only [OPERATION_FIELD_RULES, List.mem_cons, Prod.mk.injEq, List.not_mem_nil,
    or_false] at listed
  obtain ⟨_, rfl⟩ | ⟨_, rfl⟩ | ⟨_, rfl⟩ | ⟨_, rfl⟩ | ⟨_, rfl⟩ | ⟨_, rfl⟩ | ⟨_, rfl⟩ | ⟨_, rfl⟩ |
    ⟨_, rfl⟩ | ⟨_, rfl⟩ | ⟨_, rfl⟩ | ⟨_, rfl⟩ | ⟨_, rfl⟩ | ⟨_, rfl⟩ | ⟨_, rfl⟩ | ⟨_, rfl⟩ := listed
  all_goals
    first
      | exact composes_anyChange
      | exact composes_strictness _
      | exact composes_listRule _ _
      | exact composes_targetRule

theorem lookup_key (field : OperationGovernanceFieldName) :
    OPERATION_FIELD_RULES.lookup field.key = some field.rule := by
  cases field <;> rfl

theorem field_listed (field : OperationGovernanceFieldName) :
    (field.key, field.rule) ∈ OPERATION_FIELD_RULES := by
  cases field <;> simp [OPERATION_FIELD_RULES, OperationGovernanceFieldName.key,
    OperationGovernanceFieldName.rule, List.lookup]

theorem mem_governanceFieldNames (field : OperationGovernanceFieldName) :
    field ∈ GOVERNANCE_FIELD_NAMES := by
  cases field <;> decide

/-! ### A field that does not differ is permitted -/

theorem subset_of_sameSet {a b : List String} (same : sameSet a b = true) : b ⊆ a := by
  rw [sameSet, Bool.and_eq_true, decide_eq_true_eq] at same
  have within : a.dedup ⊆ b.dedup := (all_contains_iff _ _).mp same.2
  have covers : a.dedup.Perm b.dedup :=
    ((List.nodup_dedup a).subperm within).perm_of_length_le (Nat.le_of_eq same.1.symm)
  intro entry member
  exact List.mem_dedup.mp (covers.mem_iff.mpr (List.mem_dedup.mpr member))

theorem permits_reads {before after : List String} (within : after ⊆ before) :
    Permits (listRule .grows true) (some (.ofStrings before)) (some (.ofStrings after)) := by
  apply permits_listRule.mpr
  right
  refine ⟨before, after, ?_, ?_, within⟩
  · exact JsonValue.strings?_ofStrings before
  · exact JsonValue.strings?_ofStrings after

theorem permits_of_not_differs {before after : OperationGovernanceFields}
    {field : OperationGovernanceFieldName} (same : fieldDiffers before after field = false) :
    Permits field.rule (ruleValue before field) (ruleValue after field) := by
  have kept : ruleValue before field = ruleValue after field →
      Permits field.rule (ruleValue before field) (ruleValue after field) := by
    intro equal
    rw [equal]
    exact (operationRules_compose (field_listed field)).refl _
  cases field with
  | reads =>
      rw [fieldDiffers, Bool.not_eq_false'] at same
      exact permits_reads (subset_of_sameSet same)
  | writes =>
      rw [fieldDiffers, Bool.not_eq_false'] at same
      exact permits_reads (subset_of_sameSet same)
  | target =>
      rw [fieldDiffers, Bool.not_eq_false', sameValue, decide_eq_true_eq] at same
      exact kept same
  | _ =>
      apply kept
      simp only [fieldDiffers, ne_eq, decide_not, Bool.not_eq_false', decide_eq_true_eq] at same
      simp only [ruleValue, same]

/-! ### The direction of a change -/

/-- Nothing in the change may let a call through with less review. -/
def OperationGovernanceChangeDirection.narrows :
    Option OperationGovernanceChangeDirection → Bool
  | some .neutral => true
  | some .tightened => true
  | _ => false

theorem fieldDirection_tightened {before after : OperationGovernanceFields}
    {field : OperationGovernanceFieldName} :
    fieldDirection field before after = .tightened ↔
      Permits field.rule (ruleValue before field) (ruleValue after field) := by
  rw [fieldDirection, Permits]
  cases field.rule (ruleValue before field) (ruleValue after field) with
  | none => simp
  | some _ => simp

theorem fieldDirection_cases (before after : OperationGovernanceFields)
    (field : OperationGovernanceFieldName) :
    fieldDirection field before after = .tightened ∨
      fieldDirection field before after = .loosened := by
  rw [fieldDirection]
  split
  next => exact Or.inl rfl
  next => exact Or.inr rfl

theorem classify_narrows {before after : OperationGovernanceFields}
    {fields : List OperationGovernanceFieldName} (given : fields ≠ []) :
    OperationGovernanceChangeDirection.narrows
        (classifyOperationGovernanceChange before after fields) = true ↔
      ∀ field ∈ fields, fieldDirection field before after = .tightened := by
  cases fields with
  | nil => exact absurd rfl given
  | cons first rest =>
      rw [classifyOperationGovernanceChange, List.map_cons]
      cases fieldDirection_cases before after first with
      | inl tightened =>
          simp only [tightened, List.forall_mem_cons, true_and]
          split
          next all =>
            simp only [List.all_map, List.all_eq_true, Function.comp, decide_eq_true_eq] at all
            exact ⟨fun _ => all, fun _ => rfl⟩
          next mixed =>
            simp only [List.all_map, List.all_eq_true, Function.comp, decide_eq_true_eq] at mixed
            exact ⟨fun narrows => (nomatch narrows), fun all => absurd all mixed⟩
      | inr loosened =>
          have apart : ¬ ∀ field ∈ first :: rest,
              fieldDirection field before after = .tightened := by
            intro all
            have tightened := all first List.mem_cons_self
            rw [loosened] at tightened
            cases tightened
          simp only [loosened]
          split
          next => exact ⟨fun narrows => (nomatch narrows), fun all => absurd all apart⟩
          next => exact ⟨fun narrows => (nomatch narrows), fun all => absurd all apart⟩

/-- A change narrows the governance exactly when the rule of every field permits it. -/
theorem direction_narrows (before after : OperationGovernanceFields) :
    OperationGovernanceChangeDirection.narrows (operationGovernanceChangeDirection before after) =
        true ↔
      ∀ field : OperationGovernanceFieldName,
        Permits field.rule (ruleValue before field) (ruleValue after field) := by
  rw [operationGovernanceChangeDirection, diffOperationGovernanceFields]
  cases changed : GOVERNANCE_FIELD_NAMES.filter (fieldDiffers before after) with
  | nil =>
      have unchanged : ∀ field, fieldDiffers before after field = false := by
        intro field
        have absent := List.filter_eq_nil_iff.mp changed field (mem_governanceFieldNames field)
        exact Bool.of_not_eq_true absent
      exact ⟨fun _ field => permits_of_not_differs (unchanged field), fun _ => rfl⟩
  | cons first rest =>
      simp only [List.length_cons, Nat.zero_lt_succ, decide_true, if_true]
      rw [classify_narrows (List.cons_ne_nil first rest), ← changed]
      constructor
      · intro tightened field
        cases differs : fieldDiffers before after field with
        | false => exact permits_of_not_differs differs
        | true =>
            have member := List.mem_filter.mpr ⟨mem_governanceFieldNames field, differs⟩
            exact fieldDirection_tightened.mp (tightened field member)
      · intro permits field _
        exact fieldDirection_tightened.mpr (permits field)

end NextTime.Governance
