import NextTime.Output.Exact
import NextTime.Output.PathNodes

/-
What a path selects of an output, against what the output's schema rules out. A field
that a closed object does not declare selects nothing, unless every object inherits a
member of that name.
-/

namespace NextTime.Output

open JsString (js)

/-! ### Selection -/

/-- What a path can come to: a value of the output, or a function every object inherits. -/
inductive PathValue
  | json (value : JsonValue)
  | inherited (name : JsString)

/-- The functions that every object inherits, by their names. -/
def INHERITED_FUNCTIONS : List JsString :=
  [js "constructor", js "hasOwnProperty", js "isPrototypeOf", js "propertyIsEnumerable",
    js "toLocaleString", js "toString", js "valueOf", js "__defineGetter__",
    js "__defineSetter__", js "__lookupGetter__", js "__lookupSetter__"]

/-- `value[name]` on an object, nothing on anything else. -/
def PathValue.field (name : JsString) : PathValue → PathValue
  | .json (.obj members) =>
      match members.lookup name with
      | some value => .json value
      | none => if name ∈ INHERITED_FUNCTIONS then .inherited name else .json .null
  | _ => .json .null

/-- The item at a position, counted from the end where it is negative. -/
def itemAt (items : List JsonValue) (position : ℤ) : Option JsonValue :=
  let at' := if position < 0 then items.length + position else position
  if at' < 0 then none else items[at'.toNat]?

def PathValue.index (position : ℤ) : PathValue → PathValue
  | .json (.arr items) => .json ((itemAt items position).getD .null)
  | _ => .json .null

def PathValue.step (value : PathValue) : ChainStep → PathValue
  | .field name => value.field name
  | .index position => value.index position

mutual

/-- Every chain in a path has its two sides. -/
def HasSides : PathNode → Prop
  | .node type _ value children =>
      (type = .subexpression ∨ type = .indexExpression →
        ∃ left right, children = [.node left, .node right]) ∧ PartHasSides value ∧
          PartsHaveSides children

def PartHasSides : PathPart → Prop
  | .node node => HasSides node
  | _ => True

def PartsHaveSides : List PathPart → Prop
  | [] => True
  | part :: parts => PartHasSides part ∧ PartsHaveSides parts

end

/-- The library that reads paths and evaluates them: how it evaluates fields, positions and
chains, and nothing of the rest. -/
structure Jmespath where
  compile : CompilePath
  visit : PathPart → PathValue → Except JsString PathValue
  compile_sides : ∀ {path : JsString} {node : PathNode}, compile path = .ok (.node node) →
    HasSides node
  visit_current : ∀ (name : Option JsString) (part : PathPart) (children : List PathPart)
    (type : PathNodeType) (value : PathValue), type = .current ∨ type = .identity →
      visit (.node (.node type name part children)) value = .ok value
  visit_field : ∀ (name : JsString) (part : PathPart) (children : List PathPart)
    (value : PathValue), name ≠ js "__proto__" →
      visit (.node (.node .field (some name) part children)) value = .ok (value.field name)
  visit_index : ∀ (name : Option JsString) (position : ℤ) (children : List PathPart)
    (value : PathValue), visit (.node (.node .index name (.number position) children)) value =
      .ok (value.index position)
  visit_chain : ∀ (name : Option JsString) (part : PathPart) (left right : PathNode)
    (type : PathNodeType) (value : PathValue), type = .subexpression ∨ type = .indexExpression →
      visit (.node (.node type name part [.node left, .node right])) value =
        (visit (.node left) value).bind (visit (.node right))

/-- What a path selects, if it selects anything, else the error it failed with. -/
inductive Selected
  | found (value : PathValue)
  | nothing (error : Option JsString)

def Selected.isFound : Selected → Bool
  | .found _ => true
  | .nothing _ => false

def Jmespath.search (jmespath : Jmespath) (data : JsonValue) (path : JsString) :
    Except JsString PathValue :=
  (jmespath.compile path).bind fun ast => jmespath.visit ast (.json data)

def selectPath (jmespath : Jmespath) (data : JsonValue) (path : JsString) : Selected :=
  match jmespath.search data path with
  | .error message => .nothing (some message)
  | .ok (.json .null) => .nothing none
  | .ok value => .found value

/-! ### A chain is its steps -/

def follow (value : PathValue) (steps : List ChainStep) : PathValue :=
  steps.foldl PathValue.step value

@[simp]
theorem follow_nil (value : PathValue) : follow value [] = value := rfl

@[simp]
theorem follow_cons (value : PathValue) (step : ChainStep) (steps : List ChainStep) :
    follow value (step :: steps) = follow (value.step step) steps := rfl

theorem follow_append (value : PathValue) (first second : List ChainStep) :
    follow value (first ++ second) = follow (follow value first) second := List.foldl_append

theorem follow_null (steps : List ChainStep) :
    follow (.json .null) steps = .json .null := by
  induction steps with
  | nil => rfl
  | cons step steps ih =>
      cases step with
      | field name => exact ih
      | index position => exact ih

theorem follow_inherited (name : JsString) {steps : List ChainStep} (more : steps ≠ []) :
    follow (.inherited name) steps = .json .null := by
  cases steps with
  | nil => contradiction
  | cons step steps =>
      cases step with
      | field name => exact follow_null steps
      | index position => exact follow_null steps

/-- A node that is the steps of a plain path. -/
inductive PlainPath : PathNode → List ChainStep → Prop
  | here {type : PathNodeType} {name : Option JsString} {value : PathPart}
      {children : List PathPart} (whole : type = .current ∨ type = .identity) :
      PlainPath (.node type name value children) []
  | field (name : JsString) {value : PathPart} {children : List PathPart} :
      PlainPath (.node .field (some name) value children) [.field name]
  | index {name : Option JsString} (position : ℤ) {children : List PathPart} :
      PlainPath (.node .index name (.number position) children) [.index position]
  | chain {type : PathNodeType} {name : Option JsString} {value : PathPart}
      {left right : PathNode} {first second : List ChainStep}
      (isChain : type = .subexpression ∨ type = .indexExpression)
      (leftPath : PlainPath left first) (rightPath : PlainPath right second) :
      PlainPath (.node type name value [.node left, .node right]) (first ++ second)

/-- A chain of plain sides is plain. -/
theorem plainPath_sides {type : PathNodeType} {name : Option JsString} {value : PathPart}
    {children : List PathPart} {steps : List ChainStep}
    (isChain : type = .subexpression ∨ type = .indexExpression)
    (sides : ∃ left right, children = [.node left, .node right])
    (each : ∀ node, .node node ∈ children → ∀ steps, plainChain node = some steps →
      PlainPath node steps)
    (plain : (match plainChains children with
      | [left, right] => left.bind fun left => right.map fun right => left ++ right
      | _ => none) = some steps) :
    PlainPath (.node type name value children) steps := by
  obtain ⟨left, right, rfl⟩ := sides
  rw [plainChains, plainChains, plainChains] at plain
  obtain ⟨first, isFirst, rest⟩ := Option.bind_eq_some_iff.mp plain
  obtain ⟨second, isSecond, rfl⟩ := Option.map_eq_some_iff.mp rest
  apply PlainPath.chain isChain
  · exact each left (by simp) first isFirst
  · exact each right (by simp) second isSecond

mutual

theorem plainPath_of_plainChain : ∀ node : PathNode, HasSides node →
    ∀ steps : List ChainStep, plainChain node = some steps → PlainPath node steps
  | .node type name value children, sides, steps, plain => by
      rw [HasSides] at sides
      have each := plainPath_of_parts children sides.2.2
      cases type with
      | current =>
          rw [plainChain, Option.some.injEq] at plain
          subst plain
          exact .here (.inl rfl)
      | identity =>
          rw [plainChain, Option.some.injEq] at plain
          subst plain
          exact .here (.inr rfl)
      | field =>
          rw [plainChain] at plain
          obtain ⟨field, rfl, rfl⟩ := Option.map_eq_some_iff.mp plain
          exact .field field
      | index =>
          cases value with
          | number position =>
              rw [plainChain, Option.some.injEq] at plain
              subst plain
              exact .index position
          | _ => simp [plainChain] at plain
      | subexpression =>
          rw [plainChain] at plain
          exact plainPath_sides (.inl rfl) (sides.1 (.inl rfl)) each plain
      | indexExpression =>
          rw [plainChain] at plain
          exact plainPath_sides (.inr rfl) (sides.1 (.inr rfl)) each plain
      | _ => simp [plainChain] at plain

theorem plainPath_of_parts : ∀ parts : List PathPart, PartsHaveSides parts →
    ∀ node, .node node ∈ parts → ∀ steps, plainChain node = some steps → PlainPath node steps
  | [], _, _, member => nomatch member
  | part :: parts, sides, node, member => by
      rcases List.mem_cons.mp member with same | member
      · exact plainPath_of_part part sides.1 node same
      · exact plainPath_of_parts parts sides.2 node member

theorem plainPath_of_part : ∀ part : PathPart, PartHasSides part →
    ∀ node, .node node = part → ∀ steps, plainChain node = some steps → PlainPath node steps
  | .node inner, sides, node, same => by
      cases same
      exact plainPath_of_plainChain inner sides

end

/-- A plain path is evaluated step by step. -/
theorem Jmespath.visit_plain (jmespath : Jmespath) {node : PathNode} {steps : List ChainStep}
    (plain : PlainPath node steps) (proper : js "__proto__" ∉ fieldNames node)
    (value : PathValue) :
    jmespath.visit (.node node) value = .ok (follow value steps) := by
  induction plain generalizing value with
  | here whole => exact jmespath.visit_current _ _ _ _ value whole
  | field name =>
      apply jmespath.visit_field
      rintro rfl
      simp [fieldNames] at proper
  | index position => exact jmespath.visit_index _ position _ value
  | chain isChain _ _ left right =>
      rw [fieldNames, partsNames, partsNames, partNames, partNames] at proper
      simp only [List.mem_append, not_or] at proper
      rw [jmespath.visit_chain _ _ _ _ _ value isChain, left proper.1.2.1, Except.bind,
        right proper.1.2.2.1, follow_append]

/-! ### What the schema rules out -/

/-- Where steps lead inside a value, along its own fields and its items. -/
inductive Reaches : JsonValue → List ChainStep → JsonValue → Prop
  | here (value : JsonValue) : Reaches value [] value
  | field {members : List (JsString × JsonValue)} {name : JsString} {inner result : JsonValue}
      {steps : List ChainStep} (held : (name, inner) ∈ members)
      (rest : Reaches inner steps result) : Reaches (.obj members) (.field name :: steps) result
  | item {items : List JsonValue} {position : ℤ} {item result : JsonValue}
      {steps : List ChainStep} (held : itemAt items position = some item)
      (rest : Reaches item steps result) : Reaches (.arr items) (.index position :: steps) result

/-- The steps end in a name that every object inherits, at an object that has no field of
that name. -/
def EndsInherited (value : JsonValue) (steps : List ChainStep) : Prop :=
  ∃ (before : List ChainStep) (name : JsString) (members : List (JsString × JsonValue)),
    steps = before ++ [.field name] ∧ name ∈ INHERITED_FUNCTIONS ∧
      Reaches value before (.obj members) ∧ name ∉ JsValue.keys members

theorem mem_of_itemAt {items : List JsonValue} {position : ℤ} {item : JsonValue}
    (held : itemAt items position = some item) : item ∈ items :=
  List.mem_of_getElem? (Option.ite_none_left_eq_some.mp held).2

theorem Reaches.follow {value result : JsonValue} {steps : List ChainStep}
    (reaches : Reaches value steps result) (own : JsValue.Own value) :
    follow (.json value) steps = .json result := by
  induction reaches with
  | here => rfl
  | field held _ ih =>
      rw [JsValue.Own] at own
      rw [follow_cons, PathValue.step, PathValue.field, JsValue.lookup_of_mem own.1.nodup held]
      exact ih (JsValue.ownMembers_iff.mp own.2 _ held)
  | @item items position item _ _ held _ ih =>
      rw [JsValue.Own, JsValue.ownItems_iff] at own
      rw [follow_cons, PathValue.step, PathValue.index, held]
      exact ih (own item (mem_of_itemAt held))

theorem EndsInherited.step {value inner : JsonValue} {step : ChainStep} {steps : List ChainStep}
    (ends : EndsInherited inner steps)
    (reaches : ∀ {rest : List ChainStep} {result : JsonValue}, Reaches inner rest result →
      Reaches value (step :: rest) result) : EndsInherited value (step :: steps) := by
  obtain ⟨before, name, members, rfl, inherited, inside, other⟩ := ends
  exact ⟨step :: before, name, members, rfl, inherited, reaches inside, other⟩

theorem not_excludesType {node : OutputSchema} {value : JsonValue}
    (typed : Typed node.keywords value) {type : OutputSchemaType}
    (only : ∀ other, HasType value other → other = type) : excludesType node type = false := by
  rw [excludesType]
  rcases typed with none | ⟨other, listed, has⟩
  · simp [none]
  · rw [only other has] at listed
    simp [listed]

theorem mem_of_declaredField {node schema : OutputSchema} {name : JsString}
    (declared : declaredField node name = some schema) :
    (name, schema) ∈ node.properties.getD [] := by
  obtain ⟨properties, isSome, found⟩ := Option.bind_eq_some_iff.mp declared
  rw [isSome]
  exact JsValue.mem_of_lookup found

theorem declaredField_none {node : OutputSchema} {name : JsString}
    (undeclared : declaredField node name = none) :
    name ∉ JsValue.keys (node.properties.getD []) := by
  rw [declaredField] at undeclared
  cases properties : node.properties with
  | none => exact List.not_mem_nil
  | some properties' =>
      rw [properties] at undeclared
      exact JsValue.lookup_isNone_iff.mp (Option.isNone_iff_eq_none.mpr undeclared)

/-- Steps that a schema rules out lead to nothing, unless they end in an inherited name. -/
theorem follow_of_chainProblems {path : JsString} {subject : Subject} {steps : List ChainStep} :
    ∀ {before : List ChainStep} {node : OutputSchema} {value : JsonValue},
      Satisfies node value → chainProblems path subject before (some node) steps ≠ [] →
        follow (.json value) steps = .json .null ∨ EndsInherited value steps := by
  induction steps with
  | nil => exact fun _ refused => absurd rfl refused
  | cons step rest ih =>
      intro before node value satisfies refused
      rcases satisfies with ⟨own, items, properties, additional⟩
      cases step with
      | field name =>
          cases value with
          | obj members =>
              have isObject : excludesType node .object = false := by
                apply not_excludesType own.typed
                rintro other ⟨⟩
                rfl
              cases held : members.lookup name with
              | some inner =>
                  have inMembers := JsValue.mem_of_lookup held
                  cases declared : declaredField node name with
                  | some schema =>
                      have inProperties := mem_of_declaredField declared
                      simp only [chainProblems, isObject, declared, Option.isNone_some,
                        Bool.false_and, Bool.false_eq_true, if_false] at refused
                      rw [follow_cons, PathValue.step, PathValue.field, held]
                      rcases ih (properties members name inner schema rfl inMembers inProperties)
                        refused with nothing | ends
                      · exact .inl nothing
                      · exact .inr (ends.step (.field inMembers))
                  | none =>
                      -- An undeclared field the object owns: the schema is not closed.
                      have isOpen : node.keywords.additionalProperties ≠ some false := by
                        intro closed
                        have known := additional members rfl closed name
                          (List.mem_map.mpr ⟨_, inMembers, rfl⟩)
                        exact declaredField_none declared known
                      have nothing : chainProblems path subject (before ++ [.field name])
                          none rest = [] := by
                        cases rest with
                        | nil => rfl
                        | cons => rfl
                      simp [chainProblems, isObject, declared, isOpen, nothing] at refused
              | none =>
                  by_cases inherited : name ∈ INHERITED_FUNCTIONS
                  · rw [follow_cons, PathValue.step, PathValue.field, held]
                    simp only [inherited, if_true]
                    by_cases more : rest = []
                    · right
                      subst more
                      exact ⟨[], name, members, rfl, inherited, .here _,
                        JsValue.lookup_isNone_iff.mp (Option.isNone_iff_eq_none.mpr held)⟩
                    · exact .inl (follow_inherited name more)
                  · left
                    rw [follow_cons, PathValue.step, PathValue.field, held]
                    simp only [inherited, if_false]
                    exact follow_null rest
          | _ => exact .inl (follow_null rest)
      | index position =>
          cases value with
          | arr elements =>
              have isList : excludesType node .array = false := by
                apply not_excludesType own.typed
                rintro other ⟨⟩
                rfl
              simp only [chainProblems, isList, Bool.false_eq_true, if_false] at refused
              rw [follow_cons, PathValue.step, PathValue.index]
              cases held : itemAt elements position with
              | none => exact .inl (follow_null rest)
              | some item =>
                  cases declared : node.items with
                  | none =>
                      rw [declared] at refused
                      cases rest with
                      | nil => exact absurd rfl refused
                      | cons => exact absurd rfl refused
                  | some schema =>
                      rw [declared] at refused
                      rcases ih (items elements schema item rfl declared (mem_of_itemAt held))
                        refused with nothing | ends
                      · exact .inl nothing
                      · exact .inr (ends.step (.item held))
          | _ => exact .inl (follow_null rest)

theorem EndsInherited.follow {value : JsonValue} {steps : List ChainStep}
    (ends : EndsInherited value steps) (own : JsValue.Own value) :
    ∃ name, follow (.json value) steps = .inherited name := by
  obtain ⟨before, name, members, rfl, inherited, reaches, other⟩ := ends
  refine ⟨name, ?_⟩
  rw [follow_append, reaches.follow own, follow_cons, PathValue.step, PathValue.field,
    Option.isNone_iff_eq_none.mp (JsValue.lookup_isNone_iff.mpr other)]
  simp [inherited]

/-! ### Bindings that a schema refuses -/

/-- An accepted path goes through no reserved field. -/
theorem accepted_names {compilePath : CompilePath} {path : JsString}
    (fine : bindingPathProblems compilePath path = []) {ast : PathNode}
    (compiled : compilePath path = .ok (.node ast)) :
    ∀ name ∈ RESERVED_FIELDS, name ∉ fieldNames ast := by
  rw [bindingPathProblems, compiled] at fine
  simp only at fine
  split at fine
  next => contradiction
  next none =>
    intro name reserved named
    apply none
    rw [List.length_pos_iff_exists_mem]
    exact ⟨name, List.mem_filter.mpr ⟨List.mem_eraseDups.mpr named, by simpa using reserved⟩⟩

theorem refused_plain {compilePath : CompilePath} {path : JsString} {schema : OutputSchema}
    {subject : Subject} (refused : bindingSchemaProblems compilePath path schema subject ≠ []) :
    ∃ ast steps, compilePath path = .ok (.node ast) ∧ plainChain ast = some steps ∧
      chainProblems path subject [] (some schema) steps ≠ [] := by
  rw [bindingSchemaProblems] at refused
  split at refused
  next ast compiled =>
    split at refused
    next steps plain => exact ⟨ast, steps, compiled, plain, refused⟩
    next => contradiction
  next => contradiction

/-- An accepted plain path selects what its steps lead to. -/
theorem Jmespath.search_plain (jmespath : Jmespath) {path : JsString} {ast : PathNode}
    {steps : List ChainStep} (fine : bindingPathProblems jmespath.compile path = [])
    (compiled : jmespath.compile path = .ok (.node ast)) (plain : plainChain ast = some steps)
    (output : JsonValue) :
    jmespath.search output path = .ok (Output.follow (.json output) steps) := by
  rw [Jmespath.search, compiled]
  have path := plainPath_of_plainChain ast (jmespath.compile_sides compiled) steps plain
  exact jmespath.visit_plain path
    (accepted_names fine compiled (js "__proto__") (by decide +kernel)) (.json output)

/-- The path ends in a name that every object inherits, read on an object of the output
that has no field of that name. -/
def ReadsInherited (compilePath : CompilePath) (output : JsonValue) (path : JsString) : Prop :=
  ∃ ast steps, compilePath path = .ok (.node ast) ∧ plainChain ast = some steps ∧
    EndsInherited output steps

section
variable (numbers : JsNumbers ℚ) (jmespath : Jmespath)

/-- A binding that the schema refuses finds nothing in an output that meets the schema,
except where the path ends in an inherited name. -/
theorem selectPath_refused_iff {schema : OutputSchema} (accepted : Accepted schema)
    {path : JsString} (fine : bindingPathProblems jmespath.compile path = [])
    {subject : Subject}
    (refused : bindingSchemaProblems jmespath.compile path schema subject ≠ [])
    {output : JsonValue} (own : JsValue.Own output) {root : JsString}
    (valid : (validateOutput numbers schema output root).problemCount = 0) :
    (selectPath jmespath output path).isFound = false ↔
      ¬ReadsInherited jmespath.compile output path := by
  obtain ⟨ast, steps, compiled, plain, problems⟩ := refused_plain refused
  have satisfies := satisfies_of_validateOutput numbers accepted own valid
  have searched := jmespath.search_plain fine compiled plain output
  constructor
  · rintro nothing ⟨other, others, compiled', plain', ends⟩
    rw [compiled] at compiled'
    cases compiled'
    rw [plain] at plain'
    cases plain'
    obtain ⟨name, found⟩ := ends.follow own
    rw [selectPath, searched, found] at nothing
    contradiction
  · intro notInherited
    rcases follow_of_chainProblems satisfies problems with nothing | ends
    · rw [selectPath, searched, nothing]
      rfl
    · exact absurd ⟨ast, steps, compiled, plain, ends⟩ notInherited

end

/-- An object with one field that may hold a text, and no other. -/
def stateSchema : OutputSchema :=
  .node ⟨some (.one .object), none, none, some false, none, none, none, none, none, none, none,
      none⟩
    (some [(js "state", .node ⟨some (.one .string), none, none, none, none, none, none, none, none,
      none, none, none⟩ none none)])
    none

theorem stateSchema_accepted : Accepted stateSchema where
  accepts := by decide +kernel
  json := by
    simp [stateSchema, IsJson, IsJsonDeclared, IsJsonProperties, IsJsonItems, JsValue.keys]

def visitNode : PathNode → PathValue → Except JsString PathValue
  | .node .current _ _ _, value => .ok value
  | .node .identity _ _ _, value => .ok value
  | .node .field (some name) _ _, value => .ok (value.field name)
  | .node .index _ (.number position) _, value => .ok (value.index position)
  | .node .subexpression _ _ [.node left, .node right], value =>
      (visitNode left value).bind (visitNode right)
  | .node .indexExpression _ _ [.node left, .node right], value =>
      (visitNode left value).bind (visitNode right)
  | _, _ => .error (js "not a plain path")

/-- The paths that are one field. -/
def fieldPaths : Jmespath where
  compile path :=
    if isPlainField path then .ok (.node (.node .field (some path) .other []))
    else .error (js "not a field")
  visit part value :=
    match part with
    | .node node => visitNode node value
    | _ => .error (js "not a plain path")
  compile_sides := by
    intro path node compiled
    split at compiled
    next =>
      cases compiled
      rw [HasSides]
      exact ⟨nofun, trivial, trivial⟩
    next => contradiction
  visit_current := by
    rintro name part children type value (rfl | rfl)
    · simp only [visitNode]
    · simp only [visitNode]
  visit_field := by
    intro name part children value _
    simp only [visitNode]
  visit_index := by
    intro name position children value
    simp only [visitNode]
  visit_chain := by
    rintro name part left right type value (rfl | rfl)
    · simp only [visitNode]
    · simp only [visitNode]

def noState : JsonValue := .obj []

theorem noState_own : JsValue.Own noState := ⟨⟨List.nodup_nil, List.Pairwise.nil⟩, trivial⟩

theorem selectPath_refused_iff_status :
    (selectPath fieldPaths noState (js "status")).isFound = false ↔
      ¬ReadsInherited fieldPaths.compile noState (js "status") :=
  @selectPath_refused_iff digitNumbers fieldPaths stateSchema stateSchema_accepted (js "status")
    (by decide +kernel) .output (by decide +kernel) noState noState_own (js "output")
    (by decide +kernel)

/-- `toString` is refused by the schema and found on the object all the same. -/
theorem refused_toString_found :
    ¬∀ (schema : OutputSchema) (path : JsString) (output : JsonValue), Accepted schema →
      bindingPathProblems fieldPaths.compile path = [] →
        bindingSchemaProblems fieldPaths.compile path schema .output ≠ [] →
          JsValue.Own output →
            (validateOutput digitNumbers schema output (js "output")).problemCount = 0 →
              (selectPath fieldPaths output path).isFound = false := by
  intro never
  have nothing := never stateSchema (js "toString") noState stateSchema_accepted
    (by decide +kernel) (by decide +kernel) noState_own (by decide +kernel)
  revert nothing
  decide +kernel

end NextTime.Output
