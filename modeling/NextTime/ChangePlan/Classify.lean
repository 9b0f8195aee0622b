import NextTime.Governance.GovernanceFields
import Mathlib.Data.List.Sort

/-
The authority-widening classifier: every field of an item is compared, before
against after, and a change passes only where a rule proves it cannot widen
authority. A field no rule knows is reported whatever its values.
-/

namespace NextTime.ChangePlan
open NextTime.Governance

structure WideningReason where
  path : String
  reason : WideningReasonCode
deriving DecidableEq, Repr

/-! ### Field rules -/

def ACTION_TYPE_FIELD_RULES : FieldRules :=
  [("name", NOT_WIDENING),
    ("description", NOT_WIDENING),
    ("mode", strictness (rankOf [.str "observe", .str "execute"])),
    ("blastRadius", strictness (rankOf [.str "low", .str "medium", .str "high"])),
    ("autoApprovable", strictness fun value =>
      match value with
      | some (.bool true) => some 0
      | some (.bool false) => some 1
      | none => some 1
      | _ => none),
    ("requesterCanApprove", strictness fun value =>
      match value with
      | some (.bool true) => some 0
      | none => some 1
      | some (.bool false) => some 2
      | _ => none),
    ("reversibility", ANY_CHANGE),
    ("awaitDecision", ANY_CHANGE)]

def OBJECT_TYPE_FIELD_RULES : FieldRules :=
  [("name", NOT_WIDENING), ("description", NOT_WIDENING), ("identityKey", NOT_WIDENING)]

def LINK_TYPE_FIELD_RULES : FieldRules :=
  [("name", NOT_WIDENING), ("domain", NOT_WIDENING), ("range", NOT_WIDENING),
    ("description", NOT_WIDENING)]

def SKILL_FIELD_RULES : FieldRules :=
  [("name", ANY_CHANGE), ("description", ANY_CHANGE), ("markdown", ANY_CHANGE),
    ("applicable", NOT_WIDENING)]

def WORKER_DEFINITION_FIELD_RULES : FieldRules :=
  [("systemPrompt", ANY_CHANGE),
    ("model", ANY_CHANGE),
    ("name", NOT_WIDENING),
    ("description", NOT_WIDENING),
    ("skills", listRule .grows true),
    ("capabilities", listRule .grows false),
    ("gates", listRule .grows true),
    ("egressDeny", listRule .shrinks true),
    ("inputSchema", NOT_WIDENING),
    ("outputSchema", NOT_WIDENING)]

/-! ### Entries and sections -/

/-- `[...new Set(keys)].sort()`. -/
def sortedKeys (keys : List String) : List String :=
  keys.dedup.insertionSort fun left right => left ≤ right

def ownKeys (fields : JsonFields) : List String :=
  fields.map Prod.fst

/-- One key of `compareEntry`. -/
def compareField (path : String) (before after : JsonFields) (fields : FieldRules)
    (key : String) : List WideningReason :=
  if (before.lookup key).isNone && (after.lookup key).isNone then []
  else
    let reason :=
      match fields.lookup key with
      | some rule => rule (before.lookup key) (after.lookup key)
      | none => some .unrecognized
    match reason with
    | some reason => [⟨path ++ "." ++ key, reason⟩]
    | none => []

def compareEntry (path : String) (before after : JsonFields) (fields : FieldRules) :
    List WideningReason :=
  (sortedKeys (ownKeys before ++ ownKeys after)).flatMap
    (compareField path before after fields)

structure SectionRules (Entry : Type) where
  name : String
  keyOf : Entry → String
  own : Entry → JsonFields
  fields : FieldRules
  /-- The reason a new or dropped entry widens authority, if it can. -/
  added : Option WideningReasonCode
  removed : Option WideningReasonCode

variable {Entry : Type}

def SectionRules.path (rules : SectionRules Entry) (key : String) : String :=
  rules.name ++ "[" ++ key ++ "]"

def SectionRules.group (rules : SectionRules Entry) (entries : List Entry) (key : String) :
    List Entry :=
  entries.filter fun entry => decide (rules.keyOf entry = key)

/-- One key of `compareSection`. -/
def compareKey (rules : SectionRules Entry) (before after : List Entry) (key : String) :
    List WideningReason :=
  match rules.group before key, rules.group after key with
  | [], [] => []
  | [], [entry] =>
      match rules.added with
      | some reason => [⟨rules.path key, reason⟩]
      | none => compareEntry (rules.path key) [] (rules.own entry) rules.fields
  | [_], [] =>
      match rules.removed with
      | some reason => [⟨rules.path key, reason⟩]
      | none => []
  | [was], [entry] => compareEntry (rules.path key) (rules.own was) (rules.own entry) rules.fields
  -- Two entries under one key leave it unclear which one governs.
  | _, _ => [⟨rules.path key, .changed⟩]

def compareSection (rules : SectionRules Entry) (before after : List Entry) :
    List WideningReason :=
  (sortedKeys (before.map rules.keyOf ++ after.map rules.keyOf)).flatMap
    (compareKey rules before after)

/-! ### Ontology definitions -/

/-- An ObjectType or an ActionType: its name, and its other fields as they are. -/
structure NamedType where
  name : String
  others : JsonFields

def NamedType.own (entry : NamedType) : JsonFields :=
  ("name", .str entry.name) :: entry.others

structure LinkType where
  name : String
  domain : String
  range : String
  others : JsonFields

def LinkType.own (entry : LinkType) : JsonFields :=
  ("name", .str entry.name) :: ("domain", .str entry.domain) :: ("range", .str entry.range) ::
    entry.others

def OBJECT_TYPES : SectionRules NamedType where
  name := "objectTypes"
  keyOf := NamedType.name
  own := NamedType.own
  fields := OBJECT_TYPE_FIELD_RULES
  added := none
  removed := none

def LINK_TYPES : SectionRules LinkType where
  name := "linkTypes"
  keyOf := fun entry => entry.name ++ ":" ++ entry.domain ++ "->" ++ entry.range
  own := LinkType.own
  fields := LINK_TYPE_FIELD_RULES
  added := none
  removed := none

def ACTION_TYPES : SectionRules NamedType where
  name := "actionTypes"
  keyOf := NamedType.name
  own := NamedType.own
  fields := ACTION_TYPE_FIELD_RULES
  added := some .added
  removed := some .removed

structure OntologyDefinition where
  objectTypes : Option (List NamedType)
  linkTypes : Option (List LinkType)
  actionTypes : Option (List NamedType)
  others : JsonFields

def ONTOLOGY_SECTION_NAMES : List String := ["objectTypes", "linkTypes", "actionTypes"]

/-- The fields of a definition that are no section; a family not installed has none. -/
def otherFields (definition : Option OntologyDefinition) : JsonFields :=
  match definition with
  | some definition => definition.others
  | none => []

def objectTypesOf (definition : Option OntologyDefinition) : List NamedType :=
  (definition.bind OntologyDefinition.objectTypes).getD []

def linkTypesOf (definition : Option OntologyDefinition) : List LinkType :=
  (definition.bind OntologyDefinition.linkTypes).getD []

def actionTypesOf (definition : Option OntologyDefinition) : List NamedType :=
  (definition.bind OntologyDefinition.actionTypes).getD []

def unknownKeys (before after : Option OntologyDefinition) : List String :=
  sortedKeys ((ownKeys (otherFields before) ++ ownKeys (otherFields after)).filter fun key =>
    !ONTOLOGY_SECTION_NAMES.contains key)

def classifyOntologyDefinitionChange (before after : Option OntologyDefinition) :
    List WideningReason :=
  (unknownKeys before after).map (fun key => ⟨key, .unrecognized⟩) ++
    compareSection OBJECT_TYPES (objectTypesOf before) (objectTypesOf after) ++
    compareSection LINK_TYPES (linkTypesOf before) (linkTypesOf after) ++
    compareSection ACTION_TYPES (actionTypesOf before) (actionTypesOf after)

/-! ### Skills, WorkerDefinitions and Operations -/

def classifyVersionedContent (path : String) (fields : FieldRules)
    (before after : Option JsonFields) : List WideningReason :=
  match before, after with
  | _, none => []
  | none, some _ => [⟨path, .added⟩]
  | some before, some after => compareEntry path before after fields

def classifySkillChange : Option JsonFields → Option JsonFields → List WideningReason :=
  classifyVersionedContent "skill" SKILL_FIELD_RULES

def classifyWorkerDefinitionChange :
    Option JsonFields → Option JsonFields → List WideningReason :=
  classifyVersionedContent "worker" WORKER_DEFINITION_FIELD_RULES

def classifyOperationChange : Option JsonFields → Option JsonFields → List WideningReason :=
  classifyVersionedContent "operation" OPERATION_FIELD_RULES

end NextTime.ChangePlan
