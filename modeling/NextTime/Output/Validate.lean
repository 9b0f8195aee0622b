import NextTime.Output.Schema

/-
Validation as the source runs it: one walk of the output along its schema that counts
what it visits and what it finds, and gives up past a bound.
-/

namespace NextTime.Output

open JsString (js)

def OUTPUT_VALIDATION_MAX_NODES : Nat := 10000
def MAX_OUTPUT_PROBLEMS : Nat := 20

/-! ### Types and equality -/

def jsonTypeOf : JsonValue → JsString
  | .null => js "null"
  | .bool _ => js "boolean"
  | .num number => if number.den = 1 then js "integer" else js "number"
  | .str _ => js "string"
  | .arr _ => js "array"
  | .obj _ => js "object"

def matchesType : JsonValue → OutputSchemaType → Bool
  | .obj _, .object => true
  | .arr _, .array => true
  | .str _, .string => true
  | .num _, .number => true
  | .num number, .integer => number.den = 1
  | .bool _, .boolean => true
  | .null, .null => true
  | _, _ => false

mutual

/-- Equality of JSON values, the members of objects in any order. -/
def jsonEqual : JsonValue → JsonValue → Bool
  | .null, .null => true
  | .bool left, .bool right => left == right
  | .num left, .num right => left == right
  | .str left, .str right => left == right
  | .arr left, .arr right => jsonEqualItems left right
  | .obj left, .obj right => left.length == right.length && jsonEqualMembers left right
  | _, _ => false

def jsonEqualItems : List JsonValue → List JsonValue → Bool
  | [], [] => true
  | left :: lefts, right :: rights => jsonEqual left right && jsonEqualItems lefts rights
  | _, _ => false

def jsonEqualMembers : List (JsString × JsonValue) → List (JsString × JsonValue) → Bool
  | [], _ => true
  | (key, left) :: lefts, rights =>
      (rights.lookup key).any (fun right => jsonEqual left right) && jsonEqualMembers lefts rights

end

/-- How many characters a text has, a surrogate pair being one. -/
def codePoints : JsString → Nat
  | first :: second :: rest =>
      if JsonText.isLeadSurrogate first && JsonText.isTrailSurrogate second then
        codePoints rest + 1
      else codePoints (second :: rest) + 1
  | [_] => 1
  | [] => 0

/-! ### The walk -/

structure OutputValidation where
  problems : List OutputProblem
  problemCount : Nat

structure Walk where
  problems : List OutputProblem
  problemCount : Nat
  visited : Nat

def report (problem : OutputProblem) (walk : Walk) : Walk where
  problems :=
    if walk.problems.length < MAX_OUTPUT_PROBLEMS then walk.problems ++ [problem]
    else walk.problems
  problemCount := walk.problemCount + 1
  visited := walk.visited

def reportIf (broken : Bool) (path message : JsString) (walk : Walk) : Walk :=
  if broken then report ⟨path, message⟩ walk else walk

section
variable (numbers : JsNumbers ℚ)

/-- A schema literal in a message, bounded. -/
def quoted (value : JsonValue) : JsString := cutAt 200 (JsValue.stringifyValue numbers value)

def typeMismatch (keywords : Keywords) (value : JsonValue) : Bool :=
  !(typesOf keywords).isEmpty && !(typesOf keywords).any (matchesType value)

def typeMessage (keywords : Keywords) (value : JsonValue) : JsString :=
  js "expected " ++ joined (js " or ") ((typesOf keywords).map (·.text)) ++ js ", got " ++
    jsonTypeOf value

def checkConst (keywords : Keywords) (value : JsonValue) (path : JsString) (walk : Walk) : Walk :=
  match keywords.const with
  | none => walk
  | some literal =>
      reportIf (!jsonEqual value literal) path (js "must be " ++ quoted numbers literal) walk

def checkEnum (keywords : Keywords) (value : JsonValue) (path : JsString) (walk : Walk) : Walk :=
  match keywords.enum with
  | none => walk
  | some literals =>
      reportIf (!literals.any (jsonEqual value)) path
        (js "must be one of " ++ quoted numbers (.arr literals)) walk

/-- One bound of a measure, from below or from above. -/
def checkBound (bound : Option ℚ) (broken : ℚ → Bool) (message : ℚ → JsString)
    (path : JsString) (walk : Walk) : Walk :=
  match bound with
  | none => walk
  | some number => reportIf (broken number) path (message number) walk

def checkText (keywords : Keywords) (text path : JsString) (walk : Walk) : Walk :=
  let length : ℚ := codePoints text
  checkBound keywords.maxLength (· < length)
    (fun most => js "longer than " ++ numbers.string most ++ js " characters") path
    (checkBound keywords.minLength (length < ·)
      (fun least => js "shorter than " ++ numbers.string least ++ js " characters") path walk)

def checkNumber (keywords : Keywords) (number : ℚ) (path : JsString) (walk : Walk) : Walk :=
  checkBound keywords.maximum (· < number)
    (fun most => js "greater than " ++ numbers.string most) path
    (checkBound keywords.minimum (number < ·)
      (fun least => js "less than " ++ numbers.string least) path walk)

def checkSize (keywords : Keywords) (items : List JsonValue) (path : JsString)
    (walk : Walk) : Walk :=
  let length : ℚ := items.length
  checkBound keywords.maxItems (· < length)
    (fun most => js "more than " ++ numbers.string most ++ js " items") path
    (checkBound keywords.minItems (length < ·)
      (fun least => js "fewer than " ++ numbers.string least ++ js " items") path walk)

def checkRequired (members : List (JsString × JsonValue)) (path : JsString) :
    List JsString → Walk → Walk
  | [], walk => walk
  | name :: names, walk =>
      checkRequired members path names
        (reportIf (members.lookup name).isNone (outputPath path name) (js "required, missing")
          walk)

/-- The checks of a node on a value of its type, all but those of the values inside. -/
def checkOwn (keywords : Keywords) (value : JsonValue) (path : JsString) (walk : Walk) : Walk :=
  let literal := checkEnum numbers keywords value path (checkConst numbers keywords value path walk)
  match value with
  | .str text => checkText numbers keywords text path literal
  | .num number => checkNumber numbers keywords number path literal
  | .arr items => checkSize numbers keywords items path literal
  | .obj members => checkRequired members path (keywords.required.getD []) literal
  | _ => literal

def undeclaredMessage : JsString :=
  js "not declared by the schema (additionalProperties is false)"

mutual

/-- `none` once more values than the bound are visited. -/
def visit : JsonValue → OutputSchema → JsString → Walk → Option Walk
  | value, node, path, walk =>
      if OUTPUT_VALIDATION_MAX_NODES < walk.visited + 1 then none
      else
        let entered := { walk with visited := walk.visited + 1 }
        if typeMismatch node.keywords value then
          some (report ⟨path, typeMessage node.keywords value⟩ entered)
        else
          let checked := checkOwn numbers node.keywords value path entered
          match value with
          | .arr items =>
              match node.items with
              | some schema => visitItems items schema path 0 checked
              | none => some checked
          | .obj members => visitMembers members node path checked
          | _ => some checked

def visitItems : List JsonValue → OutputSchema → JsString → Nat → Walk → Option Walk
  | [], _, _, _, walk => some walk
  | item :: items, schema, path, index, walk =>
      match visit item schema (itemPath path index) walk with
      | none => none
      | some after => visitItems items schema path (index + 1) after

def visitMembers : List (JsString × JsonValue) → OutputSchema → JsString → Walk → Option Walk
  | [], _, _, walk => some walk
  | (name, inner) :: members, node, path, walk =>
      match (node.properties.getD []).lookup name with
      | some declared =>
          match visit inner declared (outputPath path name) walk with
          | none => none
          | some after => visitMembers members node path after
      | none =>
          visitMembers members node path
            (reportIf (node.keywords.additionalProperties == some false) (outputPath path name)
              undeclaredMessage walk)

end

def tooLarge (root : JsString) : OutputValidation where
  problems := [⟨root, js "too large to check: more than 10000 values"⟩]
  problemCount := 1

def validateOutput (schema : OutputSchema) (output : JsonValue) (root : JsString) :
    OutputValidation :=
  match visit numbers output schema root ⟨[], 0, 0⟩ with
  | none => tooLarge root
  | some walk => ⟨walk.problems, walk.problemCount⟩

end

end NextTime.Output
