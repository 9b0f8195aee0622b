import NextTime.Output.Findings

/-
What a validation decides: the violations a walk lists are those of the schema, each
once, and there are none exactly for a value that satisfies it.
-/

namespace NextTime.Output

open JsString (js)

/-! ### What acceptance gives -/

theorem matchesType_iff (value : JsonValue) (type : OutputSchemaType) :
    matchesType value type = true ↔ HasType value type := by
  constructor
  · intro same
    cases value with
    | num number =>
        cases type with
        | number => exact .number number
        | integer =>
            rw [matchesType, decide_eq_true_eq] at same
            exact .integer ⟨number.num, (Rat.coe_int_num_of_den_eq_one same).symm⟩
        | _ => contradiction
    | null =>
        cases type with
        | null => exact .null
        | _ => contradiction
    | bool value =>
        cases type with
        | boolean => exact .boolean value
        | _ => contradiction
    | str text =>
        cases type with
        | string => exact .string text
        | _ => contradiction
    | arr items =>
        cases type with
        | array => exact .array items
        | _ => contradiction
    | obj members =>
        cases type with
        | object => exact .object members
        | _ => contradiction
  · intro has
    cases has with
    | integer whole =>
        obtain ⟨value, rfl⟩ := whole
        simp [matchesType]
    | _ => rfl

theorem Accepted.shape {node : OutputSchema} (accepted : Accepted node) :
    hasShape node = true ∧ nodeProblems node = [] := by
  have accepts := accepted.accepts
  cases node with
  | node keywords properties items =>
      simp only [acceptsNode, Bool.and_eq_true, List.isEmpty_iff] at accepts
      exact accepts.1.1

theorem acceptsProperties_iff {properties : List (JsString × OutputSchema)} :
    acceptsProperties properties = true ↔
      ∀ property ∈ properties, acceptsNode property.2 = true := by
  induction properties with
  | nil => simp [acceptsProperties]
  | cons property rest ih => rw [acceptsProperties, Bool.and_eq_true, ih, List.forall_mem_cons]

theorem isJsonProperties_iff {properties : List (JsString × OutputSchema)} :
    IsJsonProperties properties ↔ ∀ property ∈ properties, IsJson property.2 := by
  induction properties with
  | nil => simp [IsJsonProperties]
  | cons property rest ih => rw [IsJsonProperties, ih, List.forall_mem_cons]

theorem Accepted.items {node schema : OutputSchema} (accepted : Accepted node)
    (declared : node.items = some schema) : Accepted schema := by
  obtain ⟨accepts, json⟩ := accepted
  cases node with
  | node keywords properties items =>
      rw [OutputSchema.items] at declared
      subst declared
      rw [acceptsNode, Bool.and_eq_true, acceptsItems] at accepts
      rw [IsJson, IsJsonItems] at json
      exact ⟨accepts.2, json.2.2.2⟩

theorem Accepted.property {node declared : OutputSchema} {name : JsString}
    (accepted : Accepted node) (isDeclared : (name, declared) ∈ node.properties.getD []) :
    Accepted declared := by
  obtain ⟨accepts, json⟩ := accepted
  cases node with
  | node keywords properties items =>
      cases properties with
      | none => contradiction
      | some properties =>
          rw [acceptsNode, Bool.and_eq_true, Bool.and_eq_true, acceptsDeclared,
            acceptsProperties_iff] at accepts
          rw [IsJson, IsJsonDeclared, isJsonProperties_iff] at json
          exact ⟨accepts.1.2 _ isDeclared, json.2.2.1.2 _ isDeclared⟩

theorem Accepted.nodup_properties {node : OutputSchema} (accepted : Accepted node) :
    (JsValue.keys (node.properties.getD [])).Nodup := by
  have json := accepted.json
  cases node with
  | node keywords properties items =>
      cases properties with
      | none => exact List.nodup_nil
      | some properties =>
          rw [IsJson, IsJsonDeclared] at json
          exact json.2.2.1.1

theorem Accepted.literals {node : OutputSchema} (accepted : Accepted node) :
    (∀ literal, node.keywords.const = some literal → JsValue.Own literal) ∧
      ∀ literals, node.keywords.enum = some literals →
        ∀ literal ∈ literals, JsValue.Own literal := by
  have json := accepted.json
  cases node with
  | node keywords properties items =>
      rw [IsJson] at json
      exact ⟨json.1, json.2.1⟩

/-- Names without a problem are not named twice. -/
theorem nodup_of_requiredProblems {properties : Option (List (JsString × OutputSchema))}
    {seen names : List JsString} (none : requiredProblems properties seen names = []) :
    names.Nodup ∧ ∀ name ∈ names, name ∉ seen := by
  induction names generalizing seen with
  | nil => simp
  | cons name rest ih =>
      rw [requiredProblems] at none
      split at none
      next => contradiction
      next =>
        split at none
        next => contradiction
        next fresh =>
          obtain ⟨nodup, others⟩ := ih none
          constructor
          · rw [List.nodup_cons]
            constructor
            · intro again
              exact others name again (by simp)
            · exact nodup
          · rw [List.forall_mem_cons]
            constructor
            · simpa using fresh
            · intro other member held
              exact others other member (List.mem_append_left _ held)

theorem Accepted.nodup_required {node : OutputSchema} (accepted : Accepted node) :
    (node.keywords.required.getD []).Nodup := by
  have problems := accepted.shape.2
  simp only [nodeProblems, List.append_eq_nil_iff] at problems
  exact (nodup_of_requiredProblems problems.1.1.1.2).1

/-- A declared type is one type at least. -/
theorem typed_iff {node : OutputSchema} (accepted : Accepted node) (value : JsonValue) :
    typeMismatch node.keywords value = true ↔ ¬Typed node.keywords value := by
  have shape := accepted.shape.1
  rw [typeMismatch, Typed]
  cases type : node.keywords.type with
  | none => simp [typesOf, type]
  | some keyword =>
      have some : (typesOf node.keywords).isEmpty = false := by
        cases keyword with
        | one => simp [typesOf, type]
        | several types =>
            simp only [hasShape, type, Bool.and_eq_true, decide_eq_true_eq] at shape
            simp only [typesOf, type, List.isEmpty_eq_false_iff]
            intro empty
            rw [empty] at shape
            simp at shape
      rw [some]
      simp [matchesType_iff]

/-! ### The violations listed are those there are -/

section
variable (numbers : JsNumbers ℚ)

theorem mem_constViolations {keywords : Keywords} {value : JsonValue} {path : JsString}
    (own : JsValue.Own value)
    (ownLiteral : ∀ literal, keywords.const = some literal → JsValue.Own literal)
    (violation : Violation) :
    violation ∈ constViolations numbers keywords value path ↔
      ∃ literal, keywords.const = some literal ∧ ¬JsonEqual value literal ∧
        violation = ⟨[], .const, ⟨path, js "must be " ++ quoted numbers literal⟩⟩ := by
  cases declared : keywords.const with
  | none => simp [constViolations, declared]
  | some literal =>
      have equal := jsonEqual_iff value literal own (ownLiteral literal declared)
      by_cases same : jsonEqual value literal = true
      · simp [constViolations, declared, same, equal.mp same]
      · simp [constViolations, declared, same, mt equal.mpr same]

theorem mem_enumViolations {keywords : Keywords} {value : JsonValue} {path : JsString}
    (own : JsValue.Own value) (ownLiterals : ∀ literals, keywords.enum = some literals →
      ∀ literal ∈ literals, JsValue.Own literal) (violation : Violation) :
    violation ∈ enumViolations numbers keywords value path ↔
      ∃ literals, keywords.enum = some literals ∧ (∀ literal ∈ literals, ¬JsonEqual value literal) ∧
        violation =
          ⟨[], .enum, ⟨path, js "must be one of " ++ quoted numbers (.arr literals)⟩⟩ := by
  cases declared : keywords.enum with
  | none => simp [enumViolations, declared]
  | some literals =>
      have equal : literals.any (jsonEqual value) = true ↔
          ∃ literal ∈ literals, JsonEqual value literal := by
        rw [List.any_eq_true]
        apply exists_congr
        intro literal
        apply and_congr_right
        intro member
        exact jsonEqual_iff value literal own (ownLiterals literals declared literal member)
      by_cases some : literals.any (jsonEqual value) = true
      · obtain ⟨literal, member, same⟩ := equal.mp some
        simp only [enumViolations, declared, some, if_true, List.not_mem_nil, false_iff]
        rintro ⟨_, sameLiterals, others, _⟩
        cases sameLiterals
        exact others literal member same
      · have none := mt equal.mpr some
        simp only [not_exists, not_and] at none
        rw [enumViolations, declared]
        simp only [some]
        constructor
        · intro member
          exact ⟨literals, rfl, none, List.mem_singleton.mp member⟩
        · rintro ⟨_, sameLiterals, _, same⟩
          cases sameLiterals
          exact List.mem_singleton.mpr same

theorem mem_boundViolations (kind : Broken) (bound : Option ℚ) (broken : ℚ → Bool)
    (message : ℚ → JsString) (path : JsString) (violation : Violation) :
    violation ∈ boundViolations kind bound broken message path ↔
      ∃ number, bound = some number ∧ broken number = true ∧
        violation = ⟨[], kind, ⟨path, message number⟩⟩ := by
  cases bound with
  | none => simp [boundViolations]
  | some number =>
      cases isBroken : broken number with
      | true => simp [boundViolations, isBroken]
      | false => simp [boundViolations, isBroken]

theorem mem_requiredViolations (members : List (JsString × JsonValue)) (path : JsString)
    (names : List JsString) (violation : Violation) :
    violation ∈ requiredViolations members path names ↔
      ∃ name ∈ names, name ∉ JsValue.keys members ∧
        violation = ⟨[], .required name, ⟨outputPath path name, js "required, missing"⟩⟩ := by
  rw [requiredViolations, List.mem_filterMap]
  constructor
  · rintro ⟨name, member, same⟩
    split at same
    next missing =>
      cases same
      exact ⟨name, member, JsValue.lookup_isNone_iff.mp missing, rfl⟩
    next => contradiction
  · rintro ⟨name, member, missing, rfl⟩
    exact ⟨name, member, if_pos (JsValue.lookup_isNone_iff.mpr missing)⟩

theorem mem_undeclaredViolations (node : OutputSchema) (path name : JsString)
    (violation : Violation) :
    violation ∈ undeclaredViolations node path name ↔
      node.keywords.additionalProperties = some false ∧
        violation = ⟨[.field name], .undeclared, ⟨outputPath path name, undeclaredMessage⟩⟩ := by
  rw [undeclaredViolations]
  split
  next closed => simpa using fun _ => closed
  next isOpen =>
    constructor
    · intro listed
      contradiction
    · rintro ⟨closed, _⟩
      exact absurd (beq_iff_eq.mpr closed) isOpen

/-- A node's own violations are the ways its keywords are broken by the value itself. -/
theorem mem_ownViolations {node : OutputSchema} (accepted : Accepted node) {value : JsonValue}
    (own : JsValue.Own value) (path : JsString) (violation : Violation) :
    violation ∈ ownViolations numbers node.keywords value path ↔
      BreaksOwn numbers node.keywords path value violation := by
  obtain ⟨ownLiteral, ownLiterals⟩ := accepted.literals
  rw [ownViolations, List.mem_append, List.mem_append, mem_constViolations numbers own ownLiteral,
    mem_enumViolations numbers own ownLiterals]
  constructor
  · rintro ((⟨literal, declared, broken, rfl⟩ | ⟨literals, declared, broken, rfl⟩) | kind)
    · exact .const declared broken
    · exact .enum declared broken
    · cases value with
      | str text =>
          rw [kindViolations, List.mem_append, mem_boundViolations, mem_boundViolations] at kind
          simp only [decide_eq_true_eq] at kind
          rcases kind with ⟨number, declared, broken, rfl⟩ | ⟨number, declared, broken, rfl⟩
          · exact .minLength declared broken
          · exact .maxLength declared broken
      | num number =>
          rw [kindViolations, List.mem_append, mem_boundViolations, mem_boundViolations] at kind
          simp only [decide_eq_true_eq] at kind
          rcases kind with ⟨number, declared, broken, rfl⟩ | ⟨number, declared, broken, rfl⟩
          · exact .minimum declared broken
          · exact .maximum declared broken
      | arr items =>
          rw [kindViolations, List.mem_append, mem_boundViolations, mem_boundViolations] at kind
          simp only [decide_eq_true_eq] at kind
          rcases kind with ⟨number, declared, broken, rfl⟩ | ⟨number, declared, broken, rfl⟩
          · exact .minItems declared broken
          · exact .maxItems declared broken
      | obj members =>
          rw [kindViolations, mem_requiredViolations] at kind
          obtain ⟨name, declared, broken, rfl⟩ := kind
          exact .required declared broken
      | null => contradiction
      | bool => contradiction
  · intro breaks
    cases breaks with
    | @const _ literal declared broken => exact .inl (.inl ⟨literal, declared, broken, rfl⟩)
    | @enum _ literals declared broken => exact .inl (.inr ⟨literals, declared, broken, rfl⟩)
    | @minLength text least declared broken =>
        right
        rw [kindViolations, List.mem_append, mem_boundViolations]
        exact .inl ⟨least, declared, decide_eq_true broken, rfl⟩
    | @maxLength text most declared broken =>
        right
        rw [kindViolations, List.mem_append, mem_boundViolations .maxLength]
        exact .inr ⟨most, declared, decide_eq_true broken, rfl⟩
    | @minimum number least declared broken =>
        right
        rw [kindViolations, List.mem_append, mem_boundViolations]
        exact .inl ⟨least, declared, decide_eq_true broken, rfl⟩
    | @maximum number most declared broken =>
        right
        rw [kindViolations, List.mem_append, mem_boundViolations .maximum]
        exact .inr ⟨most, declared, decide_eq_true broken, rfl⟩
    | @minItems items least declared broken =>
        right
        rw [kindViolations, List.mem_append, mem_boundViolations]
        exact .inl ⟨least, declared, decide_eq_true broken, rfl⟩
    | @maxItems items most declared broken =>
        right
        rw [kindViolations, List.mem_append, mem_boundViolations .maxItems]
        exact .inr ⟨most, declared, decide_eq_true broken, rfl⟩
    | @required members name declared broken =>
        right
        rw [kindViolations, mem_requiredViolations]
        exact ⟨name, declared, broken, rfl⟩

/-- The violations of a value are its own and those of the values inside it. -/
theorem mem_step {value : JsonValue} (own : JsValue.Own value) {node : OutputSchema}
    (accepted : Accepted node) {path : JsString} {nested : List Violation}
    (found : violations numbers value node path =
      if typeMismatch node.keywords value then
        [⟨[], .type, ⟨path, typeMessage node.keywords value⟩⟩]
      else ownViolations numbers node.keywords value path ++ nested)
    (sound : ∀ violation ∈ nested, Typed node.keywords value →
      Violates numbers node value path violation)
    (complete : ∀ violation, Violates numbers node value path violation →
      Typed node.keywords value → BreaksOwn numbers node.keywords path value violation ∨
        violation ∈ nested)
    (violation : Violation) :
    violation ∈ violations numbers value node path ↔
      Violates numbers node value path violation := by
  rw [found]
  by_cases mismatch : typeMismatch node.keywords value = true
  · have other := (typed_iff accepted value).mp mismatch
    rw [if_pos mismatch, List.mem_singleton]
    constructor
    · rintro rfl
      exact .type other
    · intro violates
      cases violates with
      | type => rfl
      | own typed => exact absurd typed other
      | item typed => exact absurd typed other
      | property typed => exact absurd typed other
      | undeclared typed => exact absurd typed other
  · have typed : Typed node.keywords value := by
      by_contra other
      exact mismatch ((typed_iff accepted value).mpr other)
    rw [if_neg mismatch, List.mem_append, mem_ownViolations numbers accepted own]
    constructor
    · rintro (breaks | inNested)
      · exact .own typed breaks
      · exact sound violation inNested typed
    · intro violates
      exact complete violation violates typed

/-- A value with no values inside breaks a schema only by itself. -/
theorem mem_scalar {value : JsonValue} (own : JsValue.Own value) {node : OutputSchema}
    (accepted : Accepted node) {path : JsString}
    (found : violations numbers value node path =
      if typeMismatch node.keywords value then
        [⟨[], .type, ⟨path, typeMessage node.keywords value⟩⟩]
      else ownViolations numbers node.keywords value path ++ [])
    (noItems : ∀ items, value = .arr items → node.items = none)
    (noMembers : ∀ members, value ≠ .obj members) (violation : Violation) :
    violation ∈ violations numbers value node path ↔
      Violates numbers node value path violation := by
  apply mem_step numbers own accepted found
  · intro _ inNothing
    contradiction
  · intro violation violates typed
    left
    cases violates with
    | type other => exact absurd typed other
    | own _ breaks => exact breaks
    | item _ declared =>
        rw [noItems _ rfl] at declared
        contradiction
    | property => exact absurd rfl (noMembers _)
    | undeclared => exact absurd rfl (noMembers _)

mutual

/-- A violation is listed exactly when the schema is violated so. -/
theorem mem_violations : ∀ value : JsonValue, JsValue.Own value → ∀ node : OutputSchema,
    Accepted node → ∀ (path : JsString) (violation : Violation),
      (violation ∈ violations numbers value node path ↔
        Violates numbers node value path violation)
  | .null, own, _, accepted, _, violation =>
      mem_scalar numbers own accepted rfl nofun nofun violation
  | .bool _, own, _, accepted, _, violation =>
      mem_scalar numbers own accepted rfl nofun nofun violation
  | .num _, own, _, accepted, _, violation =>
      mem_scalar numbers own accepted rfl nofun nofun violation
  | .str _, own, _, accepted, _, violation =>
      mem_scalar numbers own accepted rfl nofun nofun violation
  | .arr items, own, node, accepted, path, violation => by
      cases declared : node.items with
      | none =>
          apply mem_scalar numbers own accepted _ (fun _ _ => declared) nofun violation
          rw [violations]
          simp only [declared]
      | some schema =>
          have inside := mem_itemViolations items own schema (accepted.items declared) path 0
          apply @mem_step numbers _ own node accepted path
            (itemViolations numbers items schema path 0)
          · rw [violations]
            simp only [declared]
          · intro violation listed typed
            obtain ⟨index, item, inner, at', violates, rfl⟩ := (inside violation).mp listed
            rw [Nat.zero_add] at violates ⊢
            exact .item typed declared at' violates
          · intro violation violates typed
            cases violates with
            | type other => exact absurd typed other
            | own _ breaks => exact .inl breaks
            | @item _ other _ _ index item inner _ declared' at' violates =>
                rw [declared] at declared'
                cases declared'
                right
                rw [inside]
                exact ⟨index, item, inner, at', by rwa [Nat.zero_add], by rw [Nat.zero_add]⟩
  | .obj members, own, node, accepted, path, violation => by
      have inside := mem_memberViolations members own.2 node accepted path
      apply @mem_step numbers _ own node accepted path (memberViolations numbers members node path)
      · rw [violations]
      · intro violation listed typed
        rcases (inside violation).mp listed with ⟨name, value, declared, inner, held, isDeclared,
          violates, rfl⟩ | ⟨name, held, unknown, closed, rfl⟩
        · exact .property typed held isDeclared violates
        · exact .undeclared typed held unknown closed
      · intro violation violates typed
        cases violates with
        | type other => exact absurd typed other
        | own _ breaks => exact .inl breaks
        | property _ held isDeclared violates =>
            exact .inr ((inside _).mpr (.inl ⟨_, _, _, _, held, isDeclared, violates, rfl⟩))
        | undeclared _ held unknown closed =>
            exact .inr ((inside _).mpr (.inr ⟨_, held, unknown, closed, rfl⟩))

theorem mem_itemViolations : ∀ items : List JsonValue, JsValue.OwnItems items →
    ∀ schema : OutputSchema, Accepted schema →
      ∀ (path : JsString) (start : Nat) (violation : Violation),
        (violation ∈ itemViolations numbers items schema path start ↔
          ∃ (index : Nat) (item : JsonValue) (inner : Violation), items[index]? = some item ∧
            Violates numbers schema item (itemPath path (start + index)) inner ∧
              violation = inner.inside (.item (start + index)))
  | [], _, _, _, _, _, _ => by simp [itemViolations]
  | item :: items, own, schema, accepted, path, start, violation => by
      rw [itemViolations, List.mem_append, List.mem_map,
        mem_itemViolations items own.2 schema accepted path (start + 1) violation]
      constructor
      · rintro (⟨inner, listed, rfl⟩ | ⟨index, found, inner, at', violates, rfl⟩)
        · exact ⟨0, item, inner, rfl,
            (mem_violations item own.1 schema accepted _ inner).mp listed, rfl⟩
        · refine ⟨index + 1, found, inner, at', ?_, ?_⟩
          · rw [← Nat.add_assoc, Nat.add_right_comm]
            exact violates
          · rw [← Nat.add_assoc, Nat.add_right_comm]
      · rintro ⟨index, found, inner, at', violates, rfl⟩
        cases index with
        | zero =>
            cases at'
            exact .inl ⟨inner,
              (mem_violations item own.1 schema accepted _ inner).mpr violates, rfl⟩
        | succ index =>
            right
            rw [← Nat.add_assoc, Nat.add_right_comm] at violates ⊢
            exact ⟨index, found, inner, at', violates, rfl⟩

theorem mem_memberViolations : ∀ members : List (JsString × JsonValue),
    JsValue.OwnMembers members → ∀ node : OutputSchema, Accepted node →
      ∀ (path : JsString) (violation : Violation),
        (violation ∈ memberViolations numbers members node path ↔
          (∃ (name : JsString) (value : JsonValue) (declared : OutputSchema) (inner : Violation),
            (name, value) ∈ members ∧ (name, declared) ∈ node.properties.getD [] ∧
              Violates numbers declared value (outputPath path name) inner ∧
                violation = inner.inside (.field name)) ∨
          ∃ name ∈ JsValue.keys members, name ∉ JsValue.keys (node.properties.getD []) ∧
            node.keywords.additionalProperties = some false ∧
              violation =
                ⟨[.field name], .undeclared, ⟨outputPath path name, undeclaredMessage⟩⟩)
  | [], _, _, _, _, _ => by simp [memberViolations, JsValue.keys]
  | (name, value) :: members, own, node, accepted, path, violation => by
      have rest := mem_memberViolations members own.2 node accepted path violation
      have nodup := accepted.nodup_properties
      rw [memberViolations]
      cases declared : (node.properties.getD []).lookup name with
      | some schema =>
          have isDeclared := JsValue.mem_of_lookup declared
          have listed := mem_violations value own.1 schema (accepted.property isDeclared)
            (outputPath path name)
          simp only
          rw [List.mem_append, List.mem_map, rest]
          constructor
          · rintro (⟨inner, held, rfl⟩ |
              ⟨other, found, node, inner, held, property, violates, rfl⟩ |
              ⟨other, held, unknown, closed, rfl⟩)
            · exact .inl ⟨name, value, schema, inner, by simp, isDeclared,
                (listed inner).mp held, rfl⟩
            · exact .inl ⟨other, found, node, inner, List.mem_cons_of_mem _ held, property,
                violates, rfl⟩
            · exact .inr ⟨other, List.mem_cons_of_mem _ held, unknown, closed, rfl⟩
          · rintro (⟨other, found, node, inner, held, property, violates, rfl⟩ |
              ⟨other, held, unknown, closed, rfl⟩)
            · rcases List.mem_cons.mp held with same | held
              · cases same
                rw [JsValue.lookup_of_mem nodup property] at declared
                cases declared
                exact .inl ⟨inner, (listed inner).mpr violates, rfl⟩
              · exact .inr (.inl ⟨other, found, node, inner, held, property, violates, rfl⟩)
            · rcases List.mem_cons.mp held with same | held
              · rw [same] at unknown
                exact absurd (List.mem_map_of_mem isDeclared) unknown
              · exact .inr (.inr ⟨other, held, unknown, closed, rfl⟩)
      | none =>
          have unknown := JsValue.lookup_isNone_iff.mp (Option.isNone_iff_eq_none.mpr declared)
          simp only
          rw [List.mem_append, mem_undeclaredViolations, rest]
          constructor
          · rintro (⟨closed, rfl⟩ | ⟨other, found, node, inner, held, property, violates, rfl⟩ |
              ⟨other, held, unknown, closed, rfl⟩)
            · exact .inr ⟨name, by simp [JsValue.keys], unknown, closed, rfl⟩
            · exact .inl ⟨other, found, node, inner, List.mem_cons_of_mem _ held, property,
                violates, rfl⟩
            · exact .inr ⟨other, List.mem_cons_of_mem _ held, unknown, closed, rfl⟩
          · rintro (⟨other, found, node, inner, held, property, violates, rfl⟩ |
              ⟨other, held, unknown, closed, rfl⟩)
            · rcases List.mem_cons.mp held with same | held
              · cases same
                exact absurd (List.mem_map_of_mem property) unknown
              · exact .inr (.inl ⟨other, found, node, inner, held, property, violates, rfl⟩)
            · rcases List.mem_cons.mp held with same | held
              · subst same
                exact .inl ⟨closed, rfl⟩
              · exact .inr (.inr ⟨other, held, unknown, closed, rfl⟩)

end

end

end NextTime.Output
