import NextTime.Output.Validate

/-
What the keywords of a schema mean: when a value satisfies a node, and each way it can
break it, at the place inside the value where it does.
-/

namespace NextTime.Output

open JsString (js)

/-! ### Equality -/

/-- The same JSON value, whatever the order of the members of its objects. -/
inductive JsonEqual : JsonValue → JsonValue → Prop
  | null : JsonEqual .null .null
  | bool (value : Bool) : JsonEqual (.bool value) (.bool value)
  | num (number : ℚ) : JsonEqual (.num number) (.num number)
  | str (text : JsString) : JsonEqual (.str text) (.str text)
  | arr {left right : List JsonValue} (size : left.length = right.length)
      (items : ∀ (index : Nat) (first second : JsonValue), left[index]? = some first →
        right[index]? = some second → JsonEqual first second) :
      JsonEqual (.arr left) (.arr right)
  | obj {left right : List (JsString × JsonValue)}
      (keys : ∀ key, key ∈ JsValue.keys left ↔ key ∈ JsValue.keys right)
      (values : ∀ (key : JsString) (first second : JsonValue), (key, first) ∈ left →
        (key, second) ∈ right → JsonEqual first second) :
      JsonEqual (.obj left) (.obj right)

/-! ### What a node asks of a value -/

inductive HasType : JsonValue → OutputSchemaType → Prop
  | object (members : List (JsString × JsonValue)) : HasType (.obj members) .object
  | array (items : List JsonValue) : HasType (.arr items) .array
  | string (text : JsString) : HasType (.str text) .string
  | number (number : ℚ) : HasType (.num number) .number
  | integer {number : ℚ} (whole : ∃ value : ℤ, number = value) : HasType (.num number) .integer
  | boolean (value : Bool) : HasType (.bool value) .boolean
  | null : HasType .null .null

/-- The value is of a type the node declares, if it declares any. -/
def Typed (keywords : Keywords) (value : JsonValue) : Prop :=
  keywords.type = none ∨ ∃ type ∈ typesOf keywords, HasType value type

/-- What a node asks of a value but not of the values inside it. -/
structure SatisfiesOwn (keywords : Keywords) (value : JsonValue) : Prop where
  typed : Typed keywords value
  const : ∀ literal ∈ keywords.const, JsonEqual value literal
  enum : ∀ literals ∈ keywords.enum, ∃ literal ∈ literals, JsonEqual value literal
  minLength : ∀ text, value = .str text → ∀ least ∈ keywords.minLength, least ≤ codePoints text
  maxLength : ∀ text, value = .str text → ∀ most ∈ keywords.maxLength, codePoints text ≤ most
  minimum : ∀ number, value = .num number → ∀ least ∈ keywords.minimum, least ≤ number
  maximum : ∀ number, value = .num number → ∀ most ∈ keywords.maximum, number ≤ most
  minItems : ∀ items, value = .arr items → ∀ least ∈ keywords.minItems, least ≤ items.length
  maxItems : ∀ items, value = .arr items → ∀ most ∈ keywords.maxItems, items.length ≤ most
  required : ∀ members, value = .obj members → ∀ name ∈ keywords.required.getD [],
    name ∈ JsValue.keys members

/-- A value satisfies a node. -/
inductive Satisfies : OutputSchema → JsonValue → Prop
  | node {node : OutputSchema} {value : JsonValue} (own : SatisfiesOwn node.keywords value)
      (items : ∀ items schema item, value = .arr items → node.items = some schema →
        item ∈ items → Satisfies schema item)
      (properties : ∀ members name inner declared, value = .obj members →
        (name, inner) ∈ members → (name, declared) ∈ node.properties.getD [] →
          Satisfies declared inner)
      (additional : ∀ members, value = .obj members →
        node.keywords.additionalProperties = some false →
          ∀ name ∈ JsValue.keys members, name ∈ JsValue.keys (node.properties.getD [])) :
      Satisfies node value

/-! ### The ways to break a node -/

inductive PlaceStep
  | field (name : JsString)
  | item (index : Nat)
  deriving DecidableEq

/-- What is broken at a place. -/
inductive Broken
  | type
  | const
  | enum
  | minLength
  | maxLength
  | minimum
  | maximum
  | minItems
  | maxItems
  | required (name : JsString)
  | undeclared
  deriving DecidableEq

/-- A violation: where in the value, of what, and how it is reported. -/
structure Violation where
  place : List PlaceStep
  broken : Broken
  problem : OutputProblem

def Violation.inside (step : PlaceStep) (violation : Violation) : Violation :=
  { violation with place := step :: violation.place }

section
variable (numbers : JsNumbers ℚ)

/-- A violation of a keyword of the node by the value itself. -/
inductive BreaksOwn (keywords : Keywords) (path : JsString) : JsonValue → Violation → Prop
  | const {value literal : JsonValue} (declared : keywords.const = some literal)
      (broken : ¬JsonEqual value literal) :
      BreaksOwn keywords path value
        ⟨[], .const, ⟨path, js "must be " ++ quoted numbers literal⟩⟩
  | enum {value : JsonValue} {literals : List JsonValue} (declared : keywords.enum = some literals)
      (broken : ∀ literal ∈ literals, ¬JsonEqual value literal) :
      BreaksOwn keywords path value
        ⟨[], .enum, ⟨path, js "must be one of " ++ quoted numbers (.arr literals)⟩⟩
  | minLength {text : JsString} {least : ℚ} (declared : keywords.minLength = some least)
      (broken : codePoints text < least) :
      BreaksOwn keywords path (.str text)
        ⟨[], .minLength, ⟨path, js "shorter than " ++ numbers.string least ++ js " characters"⟩⟩
  | maxLength {text : JsString} {most : ℚ} (declared : keywords.maxLength = some most)
      (broken : most < codePoints text) :
      BreaksOwn keywords path (.str text)
        ⟨[], .maxLength, ⟨path, js "longer than " ++ numbers.string most ++ js " characters"⟩⟩
  | minimum {number least : ℚ} (declared : keywords.minimum = some least)
      (broken : number < least) :
      BreaksOwn keywords path (.num number)
        ⟨[], .minimum, ⟨path, js "less than " ++ numbers.string least⟩⟩
  | maximum {number most : ℚ} (declared : keywords.maximum = some most)
      (broken : most < number) :
      BreaksOwn keywords path (.num number)
        ⟨[], .maximum, ⟨path, js "greater than " ++ numbers.string most⟩⟩
  | minItems {items : List JsonValue} {least : ℚ} (declared : keywords.minItems = some least)
      (broken : items.length < least) :
      BreaksOwn keywords path (.arr items)
        ⟨[], .minItems, ⟨path, js "fewer than " ++ numbers.string least ++ js " items"⟩⟩
  | maxItems {items : List JsonValue} {most : ℚ} (declared : keywords.maxItems = some most)
      (broken : most < items.length) :
      BreaksOwn keywords path (.arr items)
        ⟨[], .maxItems, ⟨path, js "more than " ++ numbers.string most ++ js " items"⟩⟩
  | required {members : List (JsString × JsonValue)} {name : JsString}
      (declared : name ∈ keywords.required.getD []) (broken : name ∉ JsValue.keys members) :
      BreaksOwn keywords path (.obj members)
        ⟨[], .required name, ⟨outputPath path name, js "required, missing"⟩⟩

/-- A violation of a node by a value or by one inside it. A value of another type breaks
nothing else. -/
inductive Violates : OutputSchema → JsonValue → JsString → Violation → Prop
  | type {node : OutputSchema} {value : JsonValue} {path : JsString}
      (other : ¬Typed node.keywords value) :
      Violates node value path ⟨[], .type, ⟨path, typeMessage node.keywords value⟩⟩
  | own {node : OutputSchema} {value : JsonValue} {path : JsString} {violation : Violation}
      (typed : Typed node.keywords value)
      (breaks : BreaksOwn numbers node.keywords path value violation) :
      Violates node value path violation
  | item {node schema : OutputSchema} {items : List JsonValue} {path : JsString} {index : Nat}
      {item : JsonValue} {violation : Violation} (typed : Typed node.keywords (.arr items))
      (declared : node.items = some schema) (at' : items[index]? = some item)
      (inner : Violates schema item (itemPath path index) violation) :
      Violates node (.arr items) path (violation.inside (.item index))
  | property {node declared : OutputSchema} {members : List (JsString × JsonValue)}
      {path name : JsString} {value : JsonValue} {violation : Violation}
      (typed : Typed node.keywords (.obj members)) (held : (name, value) ∈ members)
      (isDeclared : (name, declared) ∈ node.properties.getD [])
      (inner : Violates declared value (outputPath path name) violation) :
      Violates node (.obj members) path (violation.inside (.field name))
  | undeclared {node : OutputSchema} {members : List (JsString × JsonValue)}
      {path name : JsString} (typed : Typed node.keywords (.obj members))
      (held : name ∈ JsValue.keys members)
      (unknown : name ∉ JsValue.keys (node.properties.getD []))
      (closed : node.keywords.additionalProperties = some false) :
      Violates node (.obj members) path
        ⟨[.field name], .undeclared, ⟨outputPath path name, undeclaredMessage⟩⟩

end

/-! ### How much of a value is visited -/

mutual

/-- The values of an output that stand along its schema. -/
def visits : JsonValue → OutputSchema → Nat
  | value, node =>
      if typeMismatch node.keywords value then 1
      else
        match value with
        | .arr items =>
            match node.items with
            | some schema => visitsItems items schema + 1
            | none => 1
        | .obj members => visitsMembers members (node.properties.getD []) + 1
        | _ => 1

def visitsItems : List JsonValue → OutputSchema → Nat
  | [], _ => 0
  | item :: items, schema => visits item schema + visitsItems items schema

def visitsMembers : List (JsString × JsonValue) → List (JsString × OutputSchema) → Nat
  | [], _ => 0
  | (name, inner) :: members, properties =>
      match properties.lookup name with
      | some declared => visits inner declared + visitsMembers members properties
      | none => visitsMembers members properties

end

/-! ### Equality and types are decided -/

/-- Members that are found pairwise in as many others are the same members. -/
theorem equal_members_iff {left right : List (JsString × JsonValue)}
    (nodupLeft : (JsValue.keys left).Nodup) (nodupRight : (JsValue.keys right).Nodup) :
    (left.length = right.length ∧ ∀ (key : JsString) (first : JsonValue), (key, first) ∈ left →
        ∃ second, right.lookup key = some second ∧ JsonEqual first second) ↔
      JsonEqual (.obj left) (.obj right) := by
  constructor
  · rintro ⟨size, found⟩
    have subset : JsValue.keys left ⊆ JsValue.keys right := by
      intro key member
      obtain ⟨⟨name, first⟩, inLeft, rfl⟩ := List.mem_map.mp member
      obtain ⟨second, held, _⟩ := found name first inLeft
      exact List.mem_map.mpr ⟨_, JsValue.mem_of_lookup held, rfl⟩
    have perm : (JsValue.keys left).Perm (JsValue.keys right) := by
      apply (List.subperm_of_subset nodupLeft subset).perm_of_length_le
      simp [JsValue.keys, size]
    apply JsonEqual.obj
    · exact fun key => perm.mem_iff
    · intro key first second inLeft inRight
      obtain ⟨other, held, equal⟩ := found key first inLeft
      rw [JsValue.lookup_of_mem nodupRight inRight] at held
      cases held
      exact equal
  · intro equal
    cases equal with
    | obj keys values =>
        constructor
        · have perm := (List.perm_ext_iff_of_nodup nodupLeft nodupRight).mpr keys
          simpa [JsValue.keys] using perm.length_eq
        · intro key first inLeft
          have inRight := (keys key).mp (List.mem_map_of_mem inLeft)
          obtain ⟨⟨name, second⟩, held, rfl⟩ := List.mem_map.mp inRight
          exact ⟨second, JsValue.lookup_of_mem nodupRight held,
            values _ first second inLeft held⟩

mutual

theorem jsonEqual_iff : ∀ left right : JsonValue, JsValue.Own left → JsValue.Own right →
    (jsonEqual left right = true ↔ JsonEqual left right)
  | .null, right, _, _ => by
      cases right with
      | null => exact iff_of_true rfl .null
      | _ => exact iff_of_false nofun nofun
  | .bool value, right, _, _ => by
      cases right with
      | bool other =>
          rw [jsonEqual, beq_iff_eq]
          constructor
          · rintro rfl
            exact .bool value
          · rintro ⟨⟩
            rfl
      | _ => exact iff_of_false nofun nofun
  | .num value, right, _, _ => by
      cases right with
      | num other =>
          rw [jsonEqual, beq_iff_eq]
          constructor
          · rintro rfl
            exact .num value
          · rintro ⟨⟩
            rfl
      | _ => exact iff_of_false nofun nofun
  | .str value, right, _, _ => by
      cases right with
      | str other =>
          rw [jsonEqual, beq_iff_eq]
          constructor
          · rintro rfl
            exact .str value
          · rintro ⟨⟩
            rfl
      | _ => exact iff_of_false nofun nofun
  | .arr left, right, ownLeft, ownRight => by
      cases right with
      | arr others =>
          rw [jsonEqual, jsonEqualItems_iff left others ownLeft ownRight]
          constructor
          · rintro ⟨size, items⟩
            exact .arr size items
          · intro equal
            cases equal with
            | arr size items => exact ⟨size, items⟩
      | _ => exact iff_of_false nofun nofun
  | .obj left, right, ownLeft, ownRight => by
      cases right with
      | obj others =>
          rw [JsValue.Own] at ownLeft ownRight
          rw [jsonEqual, Bool.and_eq_true, beq_iff_eq,
            jsonEqualMembers_iff left others ownLeft.2 ownRight.2]
          exact equal_members_iff ownLeft.1.nodup ownRight.1.nodup
      | _ => exact iff_of_false nofun nofun

theorem jsonEqualItems_iff : ∀ left right : List JsonValue, JsValue.OwnItems left →
    JsValue.OwnItems right → (jsonEqualItems left right = true ↔ left.length = right.length ∧
      ∀ (index : Nat) (first second : JsonValue), left[index]? = some first →
        right[index]? = some second → JsonEqual first second)
  | [], right, _, _ => by
      cases right with
      | nil => simp [jsonEqualItems]
      | cons => simp [jsonEqualItems]
  | item :: items, right, ownLeft, ownRight => by
      cases right with
      | nil => simp [jsonEqualItems]
      | cons other others =>
          rw [jsonEqualItems, Bool.and_eq_true, jsonEqual_iff item other ownLeft.1 ownRight.1,
            jsonEqualItems_iff items others ownLeft.2 ownRight.2]
          constructor
          · rintro ⟨first, size, rest⟩
            constructor
            · simpa using size
            · intro index left right atLeft atRight
              cases index with
              | zero =>
                  cases atLeft
                  cases atRight
                  exact first
              | succ index => exact rest index left right atLeft atRight
          · rintro ⟨size, each⟩
            refine ⟨each 0 item other rfl rfl, by simpa using size, ?_⟩
            intro index left right atLeft atRight
            exact each (index + 1) left right atLeft atRight

theorem jsonEqualMembers_iff : ∀ left right : List (JsString × JsonValue),
    JsValue.OwnMembers left → JsValue.OwnMembers right →
      (jsonEqualMembers left right = true ↔ ∀ (key : JsString) (first : JsonValue),
        (key, first) ∈ left → ∃ second, right.lookup key = some second ∧ JsonEqual first second)
  | [], right, _, _ => by simp [jsonEqualMembers]
  | (key, value) :: members, right, ownLeft, ownRight => by
      rw [jsonEqualMembers, Bool.and_eq_true, jsonEqualMembers_iff members right ownLeft.2 ownRight]
      have head : (right.lookup key).any (fun second => jsonEqual value second) = true ↔
          ∃ second, right.lookup key = some second ∧ JsonEqual value second := by
        cases held : right.lookup key with
        | none => simp
        | some second =>
            have own := JsValue.ownMembers_iff.mp ownRight _ (JsValue.mem_of_lookup held)
            simp [jsonEqual_iff value second ownLeft.1 own]
      rw [head]
      constructor
      · rintro ⟨first, rest⟩ name left member
        cases List.mem_cons.mp member with
        | inl same =>
            cases same
            exact first
        | inr inRest => exact rest name left inRest
      · intro each
        exact ⟨each key value List.mem_cons_self,
          fun name left member => each name left (List.mem_cons_of_mem _ member)⟩

end

end NextTime.Output
