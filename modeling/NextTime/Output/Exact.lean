import NextTime.Output.Decides

/-
Validation decides exactly the schema: what it counts are the violations of the schema,
each once, and it counts none exactly for an output that satisfies it.
-/

namespace NextTime.Output

open JsString (js)

/-! ### Each violation is listed once -/

/-- What tells two violations apart: where, and of what. -/
def Violation.spot (violation : Violation) : List PlaceStep × Broken :=
  (violation.place, violation.broken)

def spots (found : List Violation) : List (List PlaceStep × Broken) := found.map (·.spot)

def insideSpot (step : PlaceStep) (spot : List PlaceStep × Broken) : List PlaceStep × Broken :=
  (step :: spot.1, spot.2)

theorem spots_inside (step : PlaceStep) (found : List Violation) :
    spots (found.map (.inside step)) = (spots found).map (insideSpot step) := by
  rw [spots, spots, List.map_map, List.map_map]
  rfl

theorem spots_append (first second : List Violation) :
    spots (first ++ second) = spots first ++ spots second := List.map_append

theorem nodup_insideSpot {step : PlaceStep} {found : List (List PlaceStep × Broken)}
    (nodup : found.Nodup) : (found.map (insideSpot step)).Nodup := by
  apply nodup.map
  rintro ⟨first, broken⟩ ⟨second, other⟩ same
  simpa [insideSpot] using same

section
variable (numbers : JsNumbers ℚ)

theorem spots_constViolations (keywords : Keywords) (value : JsonValue) (path : JsString) :
    List.Sublist (spots (constViolations numbers keywords value path)) [([], .const)] := by
  cases declared : keywords.const with
  | none => simp [constViolations, declared, spots]
  | some literal =>
      simp only [constViolations, declared]
      cases jsonEqual value literal with
      | true => exact List.nil_sublist _
      | false => exact List.Sublist.refl _

theorem spots_enumViolations (keywords : Keywords) (value : JsonValue) (path : JsString) :
    List.Sublist (spots (enumViolations numbers keywords value path)) [([], .enum)] := by
  cases declared : keywords.enum with
  | none => simp [enumViolations, declared, spots]
  | some literals =>
      simp only [enumViolations, declared]
      cases literals.any (jsonEqual value) with
      | true => exact List.nil_sublist _
      | false => exact List.Sublist.refl _

theorem spots_boundViolations (kind : Broken) (bound : Option ℚ) (broken : ℚ → Bool)
    (message : ℚ → JsString) (path : JsString) :
    List.Sublist (spots (boundViolations kind bound broken message path)) [([], kind)] := by
  cases bound with
  | none => exact List.nil_sublist _
  | some number =>
      rw [boundViolations]
      cases broken number with
      | true => exact List.Sublist.refl _
      | false => exact List.nil_sublist _

theorem spots_requiredViolations (members : List (JsString × JsonValue)) (path : JsString)
    (names : List JsString) :
    List.Sublist (spots (requiredViolations members path names))
      (names.map fun name => ([], .required name)) := by
  induction names with
  | nil => exact List.Sublist.slnil
  | cons name names ih =>
      cases missing : (members.lookup name).isNone with
      | true =>
          rw [requiredViolations, List.filterMap_cons, missing]
          exact ih.cons_cons _
      | false =>
          rw [requiredViolations, List.filterMap_cons, missing]
          exact ih.cons _

def literalSpots : List (List PlaceStep × Broken) := [([], .const), ([], .enum)]

/-- What a value of a kind can break of a node by itself, besides its literals. -/
def ownSpots (keywords : Keywords) : JsonValue → List (List PlaceStep × Broken)
  | .str _ => [([], .minLength), ([], .maxLength)]
  | .num _ => [([], .minimum), ([], .maximum)]
  | .arr _ => [([], .minItems), ([], .maxItems)]
  | .obj _ => (keywords.required.getD []).map fun name => ([], .required name)
  | _ => []

theorem spots_kindViolations (keywords : Keywords) (value : JsonValue) (path : JsString) :
    List.Sublist (spots (kindViolations numbers keywords path value))
      (ownSpots keywords value) := by
  cases value with
  | str text =>
      rw [kindViolations, spots_append]
      exact (spots_boundViolations ..).append (spots_boundViolations ..)
  | num number =>
      rw [kindViolations, spots_append]
      exact (spots_boundViolations ..).append (spots_boundViolations ..)
  | arr items =>
      rw [kindViolations, spots_append]
      exact (spots_boundViolations ..).append (spots_boundViolations ..)
  | obj members => exact spots_requiredViolations ..
  | null => exact List.nil_sublist _
  | bool => exact List.nil_sublist _

theorem spots_ownViolations (keywords : Keywords) (value : JsonValue) (path : JsString) :
    List.Sublist (spots (ownViolations numbers keywords value path))
      (literalSpots ++ ownSpots keywords value) := by
  rw [ownViolations, spots_append, spots_append]
  exact ((spots_constViolations ..).append (spots_enumViolations ..)).append
    (spots_kindViolations ..)

theorem nodup_ownSpots {node : OutputSchema} (accepted : Accepted node) (value : JsonValue) :
    (literalSpots ++ ownSpots node.keywords value).Nodup := by
  cases value with
  | obj members =>
      have names := accepted.nodup_required
      have distinct : ((node.keywords.required.getD []).map fun name =>
          (([] : List PlaceStep), Broken.required name)).Nodup := by
        apply names.map
        intro first second same
        simpa using same
      rw [ownSpots, List.nodup_append]
      constructor
      · decide
      constructor
      · exact distinct
      · intro spot isLiteral other isName same
        obtain ⟨name, _, rfl⟩ := List.mem_map.mp isName
        subst same
        simp [literalSpots] at isLiteral
  | _ => simp [literalSpots, ownSpots]

theorem nodup_own {node : OutputSchema} (accepted : Accepted node) (value : JsonValue)
    (path : JsString) : (spots (ownViolations numbers node.keywords value path)).Nodup :=
  (spots_ownViolations numbers node.keywords value path).nodup (nodup_ownSpots accepted value)

/-- A node's own violations are at the value itself. -/
theorem place_own {keywords : Keywords} {value : JsonValue} {path : JsString}
    {spot : List PlaceStep × Broken}
    (listed : spot ∈ spots (ownViolations numbers keywords value path)) : spot.1 = [] := by
  have member := (spots_ownViolations numbers keywords value path).subset listed
  cases value with
  | obj members =>
      simp only [literalSpots, ownSpots, List.mem_append, List.mem_map] at member
      rcases member with literal | ⟨name, _, rfl⟩
      · simp only [List.mem_cons, List.not_mem_nil, or_false] at literal
        rcases literal with rfl | rfl
        · rfl
        · rfl
      · rfl
  | _ =>
      simp only [literalSpots, ownSpots, List.mem_append, List.mem_cons, List.not_mem_nil,
        or_false] at member
      grind

/-- A value's violations are listed once where those inside it are, and those are inside. -/
theorem nodup_step {value : JsonValue} {node : OutputSchema} (accepted : Accepted node)
    {path : JsString} {nested : List Violation}
    (found : violations numbers value node path =
      if typeMismatch node.keywords value then
        [⟨[], .type, ⟨path, typeMessage node.keywords value⟩⟩]
      else ownViolations numbers node.keywords value path ++ nested)
    (nodup : (spots nested).Nodup) (inner : ∀ violation ∈ nested, violation.place ≠ []) :
    (spots (violations numbers value node path)).Nodup := by
  rw [found]
  split
  next => exact List.nodup_singleton _
  next =>
    rw [spots_append, List.nodup_append]
    constructor
    · exact nodup_own numbers accepted value path
    constructor
    · exact nodup
    · rintro spot isOwn other isNested rfl
      obtain ⟨violation, held, rfl⟩ := List.mem_map.mp isNested
      exact inner violation held (place_own numbers isOwn)

mutual

theorem nodup_violations : ∀ value : JsonValue, JsValue.Own value → ∀ node : OutputSchema,
    Accepted node → ∀ path : JsString, (spots (violations numbers value node path)).Nodup
  | .null, _, _, accepted, _ => nodup_step numbers accepted rfl List.nodup_nil nofun
  | .bool _, _, _, accepted, _ => nodup_step numbers accepted rfl List.nodup_nil nofun
  | .num _, _, _, accepted, _ => nodup_step numbers accepted rfl List.nodup_nil nofun
  | .str _, _, _, accepted, _ => nodup_step numbers accepted rfl List.nodup_nil nofun
  | .arr _, _, .node _ _ none, accepted, _ =>
      nodup_step numbers accepted rfl List.nodup_nil nofun
  | .arr items, own, .node _ _ (some schema), accepted, path => by
      have isSchema : Accepted schema := accepted.items rfl
      apply nodup_step numbers accepted rfl
      · exact nodup_itemViolations items own schema isSchema path 0
      · intro violation listed
        obtain ⟨index, item, inner, _, _, rfl⟩ :=
          (mem_itemViolations numbers items own schema isSchema path 0 violation).mp listed
        exact List.cons_ne_nil _ _
  | .obj members, own, node, accepted, path => by
      apply nodup_step numbers accepted rfl
      · exact nodup_memberViolations members own.2 own.1.nodup node accepted path
      · intro violation listed
        rcases (mem_memberViolations numbers members own.2 node accepted path violation).mp listed
          with ⟨name, value, declared, inner, _, _, _, rfl⟩ | ⟨name, _, _, _, rfl⟩
        · exact List.cons_ne_nil _ _
        · exact List.cons_ne_nil _ _

theorem nodup_itemViolations : ∀ items : List JsonValue, JsValue.OwnItems items →
    ∀ schema : OutputSchema, Accepted schema → ∀ (path : JsString) (start : Nat),
      (spots (itemViolations numbers items schema path start)).Nodup
  | [], _, _, _, _, _ => List.nodup_nil
  | item :: items, own, schema, accepted, path, start => by
      rw [itemViolations, spots_append, spots_inside, List.nodup_append]
      constructor
      · exact nodup_insideSpot
          (nodup_violations item own.1 schema accepted (itemPath path start))
      constructor
      · exact nodup_itemViolations items own.2 schema accepted path (start + 1)
      · rintro spot isHere other isLater rfl
        obtain ⟨inner, _, rfl⟩ := List.mem_map.mp isHere
        obtain ⟨violation, listed, same⟩ := List.mem_map.mp isLater
        obtain ⟨index, found, inside, _, _, rfl⟩ :=
          (mem_itemViolations numbers items own.2 schema accepted path (start + 1) violation).mp
            listed
        simp only [Violation.spot, Violation.inside, insideSpot, Prod.mk.injEq, List.cons.injEq,
          PlaceStep.item.injEq] at same
        omega

theorem nodup_memberViolations : ∀ members : List (JsString × JsonValue),
    JsValue.OwnMembers members → (JsValue.keys members).Nodup → ∀ node : OutputSchema,
      Accepted node → ∀ path : JsString,
        (spots (memberViolations numbers members node path)).Nodup
  | [], _, _, _, _, _ => List.nodup_nil
  | (name, value) :: members, own, nodup, node, accepted, path => by
      have distinct := List.nodup_cons.mp nodup
      have rest := nodup_memberViolations members own.2 distinct.2 node accepted path
      -- Every violation behind this member is inside a member of another name.
      have apart : ∀ violation ∈ memberViolations numbers members node path,
          ∃ other places, violation.place = .field other :: places ∧ other ≠ name := by
        intro violation listed
        rcases (mem_memberViolations numbers members own.2 node accepted path violation).mp listed
          with ⟨other, found, declared, inner, held, _, _, rfl⟩ | ⟨other, held, _, _, rfl⟩
        · refine ⟨other, inner.place, rfl, ?_⟩
          rintro rfl
          exact distinct.1 (List.mem_map.mpr ⟨_, held, rfl⟩)
        · refine ⟨other, [], rfl, ?_⟩
          rintro rfl
          exact distinct.1 held
      have disjoint : ∀ (first : List (List PlaceStep × Broken)), first.Nodup →
          (∀ spot ∈ first, ∃ places, spot.1 = .field name :: places) →
            (first ++ spots (memberViolations numbers members node path)).Nodup := by
        intro first isNodup here
        rw [List.nodup_append]
        constructor
        · exact isNodup
        constructor
        · exact rest
        · rintro spot isHere other isLater rfl
          obtain ⟨violation, listed, rfl⟩ := List.mem_map.mp isLater
          obtain ⟨places, atHere⟩ := here _ isHere
          obtain ⟨other, others, atLater, different⟩ := apart violation listed
          rw [Violation.spot, atLater] at atHere
          cases atHere
          exact different rfl
      rw [memberViolations]
      cases declared : (node.properties.getD []).lookup name with
      | some schema =>
          simp only
          rw [spots_append, spots_inside]
          apply disjoint
          · exact nodup_insideSpot (nodup_violations value own.1 schema
              (accepted.property (JsValue.mem_of_lookup declared)) (outputPath path name))
          · intro spot isHere
            obtain ⟨inner, _, rfl⟩ := List.mem_map.mp isHere
            exact ⟨inner.1, rfl⟩
      | none =>
          simp only
          rw [spots_append]
          apply disjoint
          · rw [undeclaredViolations]
            split
            next => exact List.nodup_singleton _
            next => exact List.nodup_nil
          · intro spot isHere
            obtain ⟨violation, listed, rfl⟩ := List.mem_map.mp isHere
            obtain ⟨_, rfl⟩ := (mem_undeclaredViolations node path name violation).mp listed
            exact ⟨[], rfl⟩

end

/-! ### No violation, and only then -/

/-- A violation of a schema is no satisfied schema. -/
theorem Violates.unsatisfied {node : OutputSchema} {value : JsonValue} {path : JsString}
    {violation : Violation} (violates : Violates numbers node value path violation) :
    ¬Satisfies node value := by
  induction violates with
  | type other =>
      rintro ⟨own, _, _, _⟩
      exact other own.typed
  | own _ breaks =>
      rintro ⟨own, _, _, _⟩
      cases breaks with
      | const declared broken => exact broken (own.const _ declared)
      | enum declared broken =>
          obtain ⟨literal, member, same⟩ := own.enum _ declared
          exact broken literal member same
      | minLength declared broken =>
          exact absurd (own.minLength _ rfl _ declared) (not_le.mpr broken)
      | maxLength declared broken =>
          exact absurd (own.maxLength _ rfl _ declared) (not_le.mpr broken)
      | minimum declared broken =>
          exact absurd (own.minimum _ rfl _ declared) (not_le.mpr broken)
      | maximum declared broken =>
          exact absurd (own.maximum _ rfl _ declared) (not_le.mpr broken)
      | minItems declared broken =>
          exact absurd (own.minItems _ rfl _ declared) (not_le.mpr broken)
      | maxItems declared broken =>
          exact absurd (own.maxItems _ rfl _ declared) (not_le.mpr broken)
      | required declared broken => exact broken (own.required _ rfl _ declared)
  | item _ declared at' _ ih =>
      rintro ⟨_, items, _, _⟩
      exact ih (items _ _ _ rfl declared (List.mem_of_getElem? at'))
  | property _ held isDeclared _ ih =>
      rintro ⟨_, _, properties, _⟩
      exact ih (properties _ _ _ _ rfl held isDeclared)
  | undeclared _ held unknown closed =>
      rintro ⟨_, _, _, additional⟩
      exact unknown (additional _ rfl closed _ held)

theorem satisfiesOwn_of_unbroken {keywords : Keywords} {value : JsonValue} {path : JsString}
    (typed : Typed keywords value)
    (unbroken : ∀ violation, ¬BreaksOwn numbers keywords path value violation) :
    SatisfiesOwn keywords value where
  typed := typed
  const literal declared := by
    by_contra broken
    exact unbroken _ (.const declared broken)
  enum literals declared := by
    by_contra broken
    push Not at broken
    exact unbroken _ (.enum declared broken)
  minLength text same least declared := by
    subst same
    exact not_lt.mp fun broken => unbroken _ (.minLength declared broken)
  maxLength text same most declared := by
    subst same
    exact not_lt.mp fun broken => unbroken _ (.maxLength declared broken)
  minimum number same least declared := by
    subst same
    exact not_lt.mp fun broken => unbroken _ (.minimum declared broken)
  maximum number same most declared := by
    subst same
    exact not_lt.mp fun broken => unbroken _ (.maximum declared broken)
  minItems items same least declared := by
    subst same
    exact not_lt.mp fun broken => unbroken _ (.minItems declared broken)
  maxItems items same most declared := by
    subst same
    exact not_lt.mp fun broken => unbroken _ (.maxItems declared broken)
  required members same name declared := by
    subst same
    by_contra broken
    exact unbroken _ (.required declared broken)

/-- A value that violates nothing satisfies its schema where the values inside do. -/
theorem satisfies_step {node : OutputSchema} {value : JsonValue} {path : JsString}
    (unviolated : ∀ violation, ¬Violates numbers node value path violation)
    (items : ∀ items schema item, Typed node.keywords value → value = .arr items →
      node.items = some schema → item ∈ items → Satisfies schema item)
    (properties : ∀ members name inner declared, Typed node.keywords value →
      value = .obj members → (name, inner) ∈ members →
        (name, declared) ∈ node.properties.getD [] → Satisfies declared inner) :
    Satisfies node value := by
  have typed : Typed node.keywords value := by
    by_contra other
    exact unviolated _ (.type other)
  apply Satisfies.node
  · exact satisfiesOwn_of_unbroken numbers typed fun violation breaks =>
      unviolated violation (.own typed breaks)
  · exact fun members schema item => items members schema item typed
  · exact fun members name inner declared => properties members name inner declared typed
  · rintro members rfl closed name held
    by_contra unknown
    exact unviolated _ (.undeclared typed held unknown closed)

mutual

theorem satisfies_of_unviolated : ∀ (value : JsonValue) (node : OutputSchema) (path : JsString),
    (∀ violation, ¬Violates numbers node value path violation) → Satisfies node value
  | .null, _, _, unviolated => satisfies_step numbers unviolated nofun nofun
  | .bool _, _, _, unviolated => satisfies_step numbers unviolated nofun nofun
  | .num _, _, _, unviolated => satisfies_step numbers unviolated nofun nofun
  | .str _, _, _, unviolated => satisfies_step numbers unviolated nofun nofun
  | .arr items, node, path, unviolated => by
      apply satisfies_step numbers unviolated
      · rintro _ schema item typed ⟨⟩ declared member
        apply satisfiesItems_of_unviolated items schema path 0 _ item member
        intro index item violation at' violates
        rw [Nat.zero_add] at violates
        exact unviolated _ (.item typed declared at' violates)
      · nofun
  | .obj members, node, path, unviolated => by
      apply satisfies_step numbers unviolated
      · nofun
      · rintro _ name inner declared typed ⟨⟩ held isDeclared
        apply satisfiesMembers_of_unviolated members path name inner held declared
        intro violation violates
        exact unviolated _ (.property typed held isDeclared violates)

theorem satisfiesItems_of_unviolated : ∀ (items : List JsonValue) (schema : OutputSchema)
    (path : JsString) (start : Nat),
      (∀ (index : Nat) (item : JsonValue) (violation : Violation), items[index]? = some item →
        ¬Violates numbers schema item (itemPath path (start + index)) violation) →
      ∀ item ∈ items, Satisfies schema item
  | [], _, _, _, _, _, member => nomatch member
  | first :: items, schema, path, start, unviolated, item, member => by
      rcases List.mem_cons.mp member with same | member
      · rw [same]
        exact satisfies_of_unviolated first schema _ fun violation =>
          unviolated 0 first violation rfl
      · apply satisfiesItems_of_unviolated items schema path (start + 1) _ item member
        intro index item violation at'
        rw [Nat.add_right_comm, Nat.add_assoc]
        exact unviolated (index + 1) item violation at'

theorem satisfiesMembers_of_unviolated : ∀ (members : List (JsString × JsonValue))
    (path name : JsString) (inner : JsonValue), (name, inner) ∈ members →
      ∀ declared : OutputSchema,
        (∀ violation, ¬Violates numbers declared inner (outputPath path name) violation) →
          Satisfies declared inner
  | [], _, _, _, member, _, _ => nomatch member
  | (first, value) :: members, path, name, inner, member, declared, unviolated => by
      rcases List.mem_cons.mp member with same | member
      · have sameValue : inner = value := congrArg Prod.snd same
        rw [sameValue] at unviolated ⊢
        exact satisfies_of_unviolated value declared _ unviolated
      · exact satisfiesMembers_of_unviolated members path name inner member declared unviolated

end

theorem violations_eq_nil_iff {value : JsonValue} (own : JsValue.Own value)
    {node : OutputSchema} (accepted : Accepted node) (path : JsString) :
    violations numbers value node path = [] ↔ Satisfies node value := by
  rw [List.eq_nil_iff_forall_not_mem]
  simp only [mem_violations numbers value own node accepted path]
  constructor
  · exact satisfies_of_unviolated numbers value node path
  · exact fun satisfies violation violates => violates.unsatisfied numbers satisfies

/-! ### The validation -/

theorem reportAll_count (found : List Violation) (walk : Walk) :
    (reportAll found walk).problemCount = walk.problemCount + found.length := by
  induction found generalizing walk with
  | nil => rfl
  | cons violation rest ih =>
      rw [reportAll, List.foldl_cons, ← reportAll, ih, List.length_cons]
      simp only [report]
      omega

/-- The walk keeps the first problems, so many at most. -/
theorem reportAll_problems (found : List Violation) (walk : Walk)
    (few : walk.problems.length ≤ MAX_OUTPUT_PROBLEMS) :
    (reportAll found walk).problems =
      (walk.problems ++ found.map (·.problem)).take MAX_OUTPUT_PROBLEMS := by
  induction found generalizing walk with
  | nil => simp [List.take_of_length_le few]
  | cons violation rest ih =>
      rw [reportAll, List.foldl_cons, ← reportAll]
      by_cases room : walk.problems.length < MAX_OUTPUT_PROBLEMS
      · rw [ih]
        · simp [report, room]
        · simp only [report, if_pos room, List.length_append, List.length_singleton]
          omega
      · rw [ih]
        · simp only [report, if_neg room]
          rw [List.take_append_of_le_length (by omega), List.take_append_of_le_length (by omega)]
        · simp only [report, if_neg room]
          exact few

/-- The validation of an output is its violations, counted, with the first of them shown. -/
theorem validateOutput_eq (schema : OutputSchema) (output : JsonValue) (root : JsString) :
    validateOutput numbers schema output root =
      if visits output schema ≤ OUTPUT_VALIDATION_MAX_NODES then
        { problems :=
            ((violations numbers output schema root).take MAX_OUTPUT_PROBLEMS).map (·.problem)
          problemCount := (violations numbers output schema root).length }
      else tooLarge root := by
  rw [validateOutput, visit_eq]
  by_cases small : visits output schema ≤ OUTPUT_VALIDATION_MAX_NODES
  · rw [bounded_some (by simpa using small), if_pos small]
    simp only [OutputValidation.mk.injEq]
    constructor
    · rw [reportAll_problems _ _ (Nat.zero_le _), List.map_take]
      rfl
    · rw [reportAll_count]
      simp [Walk.seen]
  · rw [bounded_none (by simpa using small), if_neg small]

/-- An output without problems satisfies the schema. -/
theorem satisfies_of_validateOutput {schema : OutputSchema} (accepted : Accepted schema)
    {output : JsonValue} (own : JsValue.Own output) {root : JsString}
    (valid : (validateOutput numbers schema output root).problemCount = 0) :
    Satisfies schema output := by
  rw [validateOutput_eq] at valid
  split at valid
  next =>
    rw [← violations_eq_nil_iff numbers own accepted root]
    exact List.eq_nil_of_length_eq_zero valid
  next => contradiction

/-- Validation decides exactly the schema. `violations` lists the violations of the schema, each
once, in the order of the document: the problems are its first, their count its length, and it is
empty exactly for an output that satisfies the schema. An output with more values than the bound
along the schema is one problem, at the root. -/
theorem validateOutput_decides {schema : OutputSchema} (accepted : Accepted schema)
    {output : JsonValue} (own : JsValue.Own output) (root : JsString) :
    (visits output schema ≤ OUTPUT_VALIDATION_MAX_NODES →
      ((validateOutput numbers schema output root).problemCount = 0 ↔ Satisfies schema output) ∧
        (∀ violation, violation ∈ violations numbers output schema root ↔
          Violates numbers schema output root violation) ∧
        ((violations numbers output schema root).map fun violation =>
          (violation.place, violation.broken)).Nodup ∧
        (validateOutput numbers schema output root).problemCount =
          (violations numbers output schema root).length ∧
        (validateOutput numbers schema output root).problems =
          ((violations numbers output schema root).take MAX_OUTPUT_PROBLEMS).map (·.problem)) ∧
      (OUTPUT_VALIDATION_MAX_NODES < visits output schema →
        validateOutput numbers schema output root =
          ⟨[⟨root, js "too large to check: more than 10000 values"⟩], 1⟩) := by
  rw [validateOutput_eq]
  constructor
  · intro small
    rw [if_pos small]
    constructor
    · rw [List.length_eq_zero_iff]
      exact violations_eq_nil_iff numbers own accepted root
    · exact ⟨mem_violations numbers output own schema accepted root,
        nodup_violations numbers output own schema accepted root, rfl, rfl⟩
  · intro large
    rw [if_neg (Nat.not_le_of_lt large)]
    rfl

end

/-- A step that counts at least three things, and one that says it counted two. -/
def countSchema : OutputSchema :=
  .node ⟨some (.one .object), none, some [js "count"], some false, none, none, none, none, none,
      none, none, none⟩
    (some [(js "count", .node ⟨some (.several [.integer, .null]), none, none, none, none, none,
      none, none, some 3, none, none, none⟩ none none)])
    none

def countOutput : JsonValue := .obj [(js "count", .num 2), (js "note", .null)]

def digitText (digit : Fin 10) : JsonText.NumberText :=
  ⟨[JsonText.hexDigit digit], (by decide : ∀ digit : Fin 10,
    JsonText.isNumberText [JsonText.hexDigit digit] = true) digit⟩

/-- Numbers of one digit as they are written. -/
def digitNumbers : JsNumbers ℚ where
  read text := JsValue.digitsValue text.1
  string number := js (toString number.num)
  write number :=
    if small : number.den = 1 ∧ 0 ≤ number.num ∧ number.num.toNat < 10 then
      some (digitText ⟨number.num.toNat, small.2.2⟩)
    else none
  read_write := by
    intro number text written
    split at written
    next small =>
      obtain ⟨whole, positive, below⟩ := small
      cases written
      have value : ∀ digit : Fin 10, JsValue.digitsValue (digitText digit).1 = digit := by decide
      rw [value, ← Int.cast_natCast, Int.toNat_of_nonneg positive]
      exact Rat.coe_int_num_of_den_eq_one whole
    next => contradiction

theorem countSchema_accepted : Accepted countSchema where
  accepts := by decide +kernel
  json := by
    simp [countSchema, IsJson, IsJsonDeclared, IsJsonProperties, IsJsonItems, JsValue.keys]

theorem validateOutput_decides_count :
    (validateOutput digitNumbers countSchema countOutput (js "output")).problemCount = 2 ∧
      ¬Satisfies countSchema countOutput := by
  have own : JsValue.Own countOutput := by
    rw [countOutput, JsValue.Own]
    exact ⟨⟨by decide +kernel, by decide +kernel⟩, trivial, trivial, trivial⟩
  have decides := (validateOutput_decides digitNumbers countSchema_accepted own (js "output")).1
    (by decide +kernel)
  have counted : (validateOutput digitNumbers countSchema countOutput
      (js "output")).problemCount = 2 := by decide +kernel
  constructor
  · exact counted
  · rw [← decides.1, counted]
    decide

end NextTime.Output
