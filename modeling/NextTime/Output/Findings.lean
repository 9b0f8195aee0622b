import NextTime.Output.Meaning

/-
What a walk finds: the violations in the order they are met, all of them, and the walk of
the source as that list under its two bounds.
-/

namespace NextTime.Output

open JsString (js)

/-! ### The violations in order -/

section
variable (numbers : JsNumbers ℚ)

def constViolations (keywords : Keywords) (value : JsonValue) (path : JsString) :
    List Violation :=
  match keywords.const with
  | none => []
  | some literal =>
      if jsonEqual value literal then []
      else [⟨[], .const, ⟨path, js "must be " ++ quoted numbers literal⟩⟩]

def enumViolations (keywords : Keywords) (value : JsonValue) (path : JsString) :
    List Violation :=
  match keywords.enum with
  | none => []
  | some literals =>
      if literals.any (jsonEqual value) then []
      else [⟨[], .enum, ⟨path, js "must be one of " ++ quoted numbers (.arr literals)⟩⟩]

def boundViolations (kind : Broken) (bound : Option ℚ) (broken : ℚ → Bool)
    (message : ℚ → JsString) (path : JsString) : List Violation :=
  match bound with
  | none => []
  | some number => if broken number then [⟨[], kind, ⟨path, message number⟩⟩] else []

def requiredViolations (members : List (JsString × JsonValue)) (path : JsString)
    (names : List JsString) : List Violation :=
  names.filterMap fun name =>
    if (members.lookup name).isNone then
      some ⟨[], .required name, ⟨outputPath path name, js "required, missing"⟩⟩
    else none

def kindViolations (keywords : Keywords) (path : JsString) : JsonValue → List Violation
  | .str text =>
      let length : ℚ := codePoints text
      boundViolations .minLength keywords.minLength (length < ·)
          (fun least => js "shorter than " ++ numbers.string least ++ js " characters") path ++
        boundViolations .maxLength keywords.maxLength (· < length)
          (fun most => js "longer than " ++ numbers.string most ++ js " characters") path
  | .num number =>
      boundViolations .minimum keywords.minimum (number < ·)
          (fun least => js "less than " ++ numbers.string least) path ++
        boundViolations .maximum keywords.maximum (· < number)
          (fun most => js "greater than " ++ numbers.string most) path
  | .arr items =>
      let length : ℚ := items.length
      boundViolations .minItems keywords.minItems (length < ·)
          (fun least => js "fewer than " ++ numbers.string least ++ js " items") path ++
        boundViolations .maxItems keywords.maxItems (· < length)
          (fun most => js "more than " ++ numbers.string most ++ js " items") path
  | .obj members => requiredViolations members path (keywords.required.getD [])
  | _ => []

def ownViolations (keywords : Keywords) (value : JsonValue) (path : JsString) :
    List Violation :=
  constViolations numbers keywords value path ++ enumViolations numbers keywords value path ++
    kindViolations numbers keywords path value

def undeclaredViolations (node : OutputSchema) (path name : JsString) : List Violation :=
  if node.keywords.additionalProperties == some false then
    [⟨[.field name], .undeclared, ⟨outputPath path name, undeclaredMessage⟩⟩]
  else []

mutual

def violations : JsonValue → OutputSchema → JsString → List Violation
  | value, node, path =>
      if typeMismatch node.keywords value then
        [⟨[], .type, ⟨path, typeMessage node.keywords value⟩⟩]
      else
        ownViolations numbers node.keywords value path ++
          match value with
          | .arr items =>
              match node.items with
              | some schema => itemViolations items schema path 0
              | none => []
          | .obj members => memberViolations members node path
          | _ => []

def itemViolations : List JsonValue → OutputSchema → JsString → Nat → List Violation
  | [], _, _, _ => []
  | item :: items, schema, path, index =>
      (violations item schema (itemPath path index)).map (.inside (.item index)) ++
        itemViolations items schema path (index + 1)

def memberViolations : List (JsString × JsonValue) → OutputSchema → JsString → List Violation
  | [], _, _ => []
  | (name, inner) :: members, node, path =>
      match (node.properties.getD []).lookup name with
      | some declared =>
          (violations inner declared (outputPath path name)).map (.inside (.field name)) ++
            memberViolations members node path
      | none => undeclaredViolations node path name ++ memberViolations members node path

end

/-! ### The walk reports them -/

def reportAll (found : List Violation) (walk : Walk) : Walk :=
  found.foldl (fun walk violation => report violation.problem walk) walk

def Walk.seen (walk : Walk) (count : Nat) : Walk := { walk with visited := walk.visited + count }

@[simp]
theorem reportAll_nil (walk : Walk) : reportAll [] walk = walk := rfl

theorem reportAll_append (first second : List Violation) (walk : Walk) :
    reportAll (first ++ second) walk = reportAll second (reportAll first walk) := by
  rw [reportAll, List.foldl_append]
  rfl

theorem reportAll_inside (step : PlaceStep) (found : List Violation) (walk : Walk) :
    reportAll (found.map (.inside step)) walk = reportAll found walk := by
  rw [reportAll, List.foldl_map]
  rfl

@[simp]
theorem reportAll_visited (found : List Violation) (walk : Walk) :
    (reportAll found walk).visited = walk.visited := by
  induction found generalizing walk with
  | nil => rfl
  | cons violation rest ih => exact ih (report violation.problem walk)

theorem reportAll_seen (found : List Violation) (walk : Walk) (count : Nat) :
    (reportAll found walk).seen count = reportAll found (walk.seen count) := by
  induction found generalizing walk with
  | nil => rfl
  | cons violation rest ih => exact ih (report violation.problem walk)

theorem seen_seen (walk : Walk) (first second : Nat) :
    (walk.seen first).seen second = walk.seen (first + second) := by
  simp [Walk.seen, Nat.add_assoc]

theorem seen_zero (walk : Walk) : walk.seen 0 = walk := rfl

theorem reportIf_eq (broken : Bool) (kind : Broken) (place : List PlaceStep)
    (path message : JsString) (walk : Walk) :
    reportIf broken path message walk =
      reportAll (if broken then [⟨place, kind, ⟨path, message⟩⟩] else []) walk := by
  cases broken with
  | true => rfl
  | false => rfl

theorem checkConst_eq (keywords : Keywords) (value : JsonValue) (path : JsString) (walk : Walk) :
    checkConst numbers keywords value path walk =
      reportAll (constViolations numbers keywords value path) walk := by
  cases declared : keywords.const with
  | none => simp [checkConst, constViolations, declared]
  | some literal =>
      simp only [checkConst, constViolations, declared]
      cases jsonEqual value literal with
      | true => rfl
      | false => rfl

theorem checkEnum_eq (keywords : Keywords) (value : JsonValue) (path : JsString) (walk : Walk) :
    checkEnum numbers keywords value path walk =
      reportAll (enumViolations numbers keywords value path) walk := by
  cases declared : keywords.enum with
  | none => simp [checkEnum, enumViolations, declared]
  | some literals =>
      simp only [checkEnum, enumViolations, declared]
      cases literals.any (jsonEqual value) with
      | true => rfl
      | false => rfl

theorem checkBound_eq (kind : Broken) (bound : Option ℚ) (broken : ℚ → Bool)
    (message : ℚ → JsString) (path : JsString) (walk : Walk) :
    checkBound bound broken message path walk =
      reportAll (boundViolations kind bound broken message path) walk := by
  cases bound with
  | none => rfl
  | some number => exact reportIf_eq (broken number) kind [] path (message number) walk

theorem checkRequired_eq (members : List (JsString × JsonValue)) (path : JsString)
    (names : List JsString) (walk : Walk) :
    checkRequired members path names walk =
      reportAll (requiredViolations members path names) walk := by
  induction names generalizing walk with
  | nil => rfl
  | cons name names ih =>
      rw [checkRequired, ih]
      cases missing : (members.lookup name).isNone with
      | true => simp [requiredViolations, missing, reportIf, reportAll]
      | false => simp [requiredViolations, missing, reportIf]

/-- The checks of a node report its own violations. -/
theorem checkOwn_eq (keywords : Keywords) (value : JsonValue) (path : JsString) (walk : Walk) :
    checkOwn numbers keywords value path walk =
      reportAll (ownViolations numbers keywords value path) walk := by
  rw [ownViolations, reportAll_append, reportAll_append, ← checkConst_eq, ← checkEnum_eq]
  cases value with
  | str text =>
      rw [checkOwn, kindViolations, reportAll_append, checkText, checkBound_eq .maxLength,
        checkBound_eq .minLength]
  | num number =>
      rw [checkOwn, kindViolations, reportAll_append, checkNumber, checkBound_eq .maximum,
        checkBound_eq .minimum]
  | arr items =>
      rw [checkOwn, kindViolations, reportAll_append, checkSize, checkBound_eq .maxItems,
        checkBound_eq .minItems]
  | obj members =>
      rw [checkOwn, kindViolations, checkRequired_eq]
  | _ => rfl

/-- A walk of so many values with so much found, or none past the bound. -/
def Walk.bounded (walk : Walk) (found : List Violation) (count : Nat) : Option Walk :=
  if walk.visited + count ≤ OUTPUT_VALIDATION_MAX_NODES then
    some (reportAll found (walk.seen count))
  else none

theorem bounded_after (walk : Walk) (found more : List Violation) (count further : Nat) :
    (reportAll found (walk.seen count)).bounded more further =
      walk.bounded (found ++ more) (count + further) := by
  rw [Walk.bounded, Walk.bounded, reportAll_visited, reportAll_seen, seen_seen, reportAll_append]
  simp only [Walk.seen, Nat.add_assoc]

theorem bounded_none {walk : Walk} {count : Nat}
    (large : ¬walk.visited + count ≤ OUTPUT_VALIDATION_MAX_NODES) (found : List Violation) :
    walk.bounded found count = none := by
  rw [Walk.bounded, if_neg large]

theorem bounded_some {walk : Walk} {count : Nat}
    (small : walk.visited + count ≤ OUTPUT_VALIDATION_MAX_NODES) (found : List Violation) :
    walk.bounded found count = some (reportAll found (walk.seen count)) := by
  rw [Walk.bounded, if_pos small]

theorem bounded_nothing {walk : Walk} (small : walk.visited ≤ OUTPUT_VALIDATION_MAX_NODES) :
    some walk = walk.bounded [] 0 := by
  rw [bounded_some (by simpa using small)]
  rfl

/-- The walk of a value is bounded where the walk of the values inside it is. -/
theorem visit_step {value : JsonValue} {node : OutputSchema} {path : JsString} {walk : Walk}
    {inner : Walk → Option Walk} {nested : List Violation} {count : Nat}
    (walks : visit numbers value node path walk =
      if OUTPUT_VALIDATION_MAX_NODES < walk.visited + 1 then none
      else if typeMismatch node.keywords value then
        some (report ⟨path, typeMessage node.keywords value⟩ (walk.seen 1))
      else inner (checkOwn numbers node.keywords value path (walk.seen 1)))
    (found : violations numbers value node path =
      if typeMismatch node.keywords value then
        [⟨[], .type, ⟨path, typeMessage node.keywords value⟩⟩]
      else ownViolations numbers node.keywords value path ++ nested)
    (counted : visits value node = if typeMismatch node.keywords value then 1 else count + 1)
    (inside : ∀ after : Walk, after.visited ≤ OUTPUT_VALIDATION_MAX_NODES →
      inner after = after.bounded nested count) :
    visit numbers value node path walk =
      walk.bounded (violations numbers value node path) (visits value node) := by
  rw [walks, found, counted]
  by_cases full : OUTPUT_VALIDATION_MAX_NODES < walk.visited + 1
  · rw [if_pos full, bounded_none]
    split <;> omega
  · rw [if_neg full]
    by_cases mismatch : typeMismatch node.keywords value = true
    · rw [if_pos mismatch, if_pos mismatch, if_pos mismatch, bounded_some (by omega)]
      rfl
    · rw [if_neg mismatch, if_neg mismatch, if_neg mismatch, checkOwn_eq, inside, bounded_after,
        Nat.add_comm]
      rw [reportAll_visited]
      exact Nat.le_of_not_lt full

mutual

/-- The walk of a value is its violations under the bound. -/
theorem visit_eq : ∀ (value : JsonValue) (node : OutputSchema) (path : JsString) (walk : Walk),
    visit numbers value node path walk =
      walk.bounded (violations numbers value node path) (visits value node)
  | .null, _, _, _ =>
      visit_step numbers rfl rfl rfl fun _ => bounded_nothing
  | .bool _, _, _, _ =>
      visit_step numbers rfl rfl rfl fun _ => bounded_nothing
  | .num _, _, _, _ =>
      visit_step numbers rfl rfl rfl fun _ => bounded_nothing
  | .str _, _, _, _ =>
      visit_step numbers rfl rfl rfl fun _ => bounded_nothing
  | .arr _, .node _ _ none, _, _ =>
      visit_step numbers rfl rfl rfl fun _ => bounded_nothing
  | .arr items, .node _ _ (some schema), path, _ =>
      visit_step numbers rfl rfl rfl fun after small =>
        visitItems_eq items schema path 0 after small
  | .obj members, node, path, _ =>
      visit_step numbers rfl rfl rfl fun after small =>
        visitMembers_eq members node path after small

theorem visitItems_eq : ∀ (items : List JsonValue) (schema : OutputSchema) (path : JsString)
    (index : Nat) (walk : Walk), walk.visited ≤ OUTPUT_VALIDATION_MAX_NODES →
      visitItems numbers items schema path index walk =
        walk.bounded (itemViolations numbers items schema path index) (visitsItems items schema)
  | [], schema, path, index, walk, small => by
      rw [visitItems, itemViolations, visitsItems, Walk.bounded, Nat.add_zero, if_pos small]
      rfl
  | item :: items, schema, path, index, walk, small => by
      rw [visitItems, itemViolations, visitsItems, visit_eq item schema (itemPath path index) walk]
      by_cases fits : walk.visited + visits item schema ≤ OUTPUT_VALIDATION_MAX_NODES
      · rw [bounded_some fits]
        simp only
        rw [visitItems_eq items schema path (index + 1) _ (by simpa [Walk.seen] using fits),
          ← reportAll_inside (.item index), bounded_after]
      · rw [bounded_none fits, bounded_none (by omega)]

theorem visitMembers_eq : ∀ (members : List (JsString × JsonValue)) (node : OutputSchema)
    (path : JsString) (walk : Walk), walk.visited ≤ OUTPUT_VALIDATION_MAX_NODES →
      visitMembers numbers members node path walk =
        walk.bounded (memberViolations numbers members node path)
          (visitsMembers members (node.properties.getD []))
  | [], node, path, walk, small => by
      rw [visitMembers, memberViolations, visitsMembers, Walk.bounded, Nat.add_zero,
        if_pos small]
      rfl
  | (name, inner) :: members, node, path, walk, small => by
      rw [visitMembers, memberViolations, visitsMembers]
      cases (node.properties.getD []).lookup name with
      | some declared =>
          simp only
          rw [visit_eq inner declared (outputPath path name) walk]
          by_cases fits : walk.visited + visits inner declared ≤ OUTPUT_VALIDATION_MAX_NODES
          · rw [bounded_some fits]
            simp only
            rw [visitMembers_eq members node path _ (by simpa [Walk.seen] using fits),
              ← reportAll_inside (.field name), bounded_after]
          · rw [bounded_none fits, bounded_none (by omega)]
      | none =>
          simp only
          rw [reportIf_eq _ .undeclared [.field name], ← undeclaredViolations,
            visitMembers_eq members node path _ (by simpa using small)]
          have unseen := bounded_after walk (undeclaredViolations node path name)
            (memberViolations numbers members node path) 0
            (visitsMembers members (node.properties.getD []))
          rw [seen_zero, Nat.zero_add] at unseen
          exact unseen

end

end

end NextTime.Output
