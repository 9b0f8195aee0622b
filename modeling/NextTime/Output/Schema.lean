import NextTime.Library.JsObject
import Mathlib.Data.Rat.Defs
import Mathlib.Algebra.Order.Ring.Rat

/-
The schema a step's output is held to: its nodes, what makes a node acceptable, and how
a place in an output is written. Numbers are the rationals the finite ones stand for.
-/

namespace NextTime.Output

open JsString (js)

abbrev JsonValue := JsValue ℚ

inductive OutputSchemaType
  | object
  | array
  | string
  | number
  | integer
  | boolean
  | null
  deriving DecidableEq

def OutputSchemaType.text : OutputSchemaType → JsString
  | .object => js "object"
  | .array => js "array"
  | .string => js "string"
  | .number => js "number"
  | .integer => js "integer"
  | .boolean => js "boolean"
  | .null => js "null"

/-- `type` names one type, or lists several. -/
inductive TypeKeyword
  | one (type : OutputSchemaType)
  | several (types : List OutputSchemaType)

/-- The keywords of a node that hold no nodes themselves. -/
structure Keywords where
  type : Option TypeKeyword
  description : Option JsString
  required : Option (List JsString)
  additionalProperties : Option Bool
  enum : Option (List JsonValue)
  const : Option JsonValue
  minLength : Option ℚ
  maxLength : Option ℚ
  minimum : Option ℚ
  maximum : Option ℚ
  minItems : Option ℚ
  maxItems : Option ℚ

inductive OutputSchema
  | node (keywords : Keywords) (properties : Option (List (JsString × OutputSchema)))
      (items : Option OutputSchema)

def OutputSchema.keywords : OutputSchema → Keywords
  | .node keywords _ _ => keywords

def OutputSchema.properties : OutputSchema → Option (List (JsString × OutputSchema))
  | .node _ properties _ => properties

def OutputSchema.items : OutputSchema → Option OutputSchema
  | .node _ _ items => items

/-! ### Places and problems -/

/-- A step of a problem's path inside a schema. -/
inductive SchemaStep
  | key (name : JsString)
  | index (position : Nat)
  deriving DecidableEq

structure NodeProblem where
  path : List SchemaStep
  message : JsString

/-- One place where an output does not match its schema. -/
structure OutputProblem where
  path : JsString
  message : JsString
  deriving DecidableEq

def isNameStart (unit : UInt16) : Bool :=
  (0x41 ≤ unit && unit ≤ 0x5A) || (0x61 ≤ unit && unit ≤ 0x7A) || unit == 0x5F

/-- `/^[A-Za-z_][A-Za-z0-9_-]*$/`. -/
def isPlainKey : JsString → Bool
  | [] => false
  | first :: rest =>
      isNameStart first &&
        rest.all fun unit => isNameStart unit || JsonText.isDigit unit || unit == 0x2D

def PATH_KEY_MAX_CHARS : Nat := 64

def ellipsis : JsString := [0x2026]

def cutAt (bound : Nat) (text : JsString) : JsString :=
  if bound < text.length then text.take bound ++ ellipsis else text

/-- The place of a named field. -/
def outputPath (parent key : JsString) : JsString :=
  let shown := cutAt PATH_KEY_MAX_CHARS key
  if isPlainKey shown then parent ++ js "." ++ shown
  else parent ++ js "[" ++ JsonText.quote shown ++ js "]"

/-- The place of an item. -/
def itemPath (parent : JsString) (index : Nat) : JsString :=
  parent ++ js "." ++ js (Nat.repr index)

/-! ### Acceptable nodes -/

def OUTPUT_SCHEMA_MAX_PROPERTIES : Nat := 64
def OUTPUT_SCHEMA_MAX_ENUM : Nat := 64
def OUTPUT_SCHEMA_MAX_DESCRIPTION_CHARS : Nat := 500
def OUTPUT_SCHEMA_MAX_PROPERTY_NAME_CHARS : Nat := 128

/-- The types of a node, none when it declares none. -/
def typesOf (keywords : Keywords) : List OutputSchemaType :=
  match keywords.type with
  | none => []
  | some (.one type) => [type]
  | some (.several types) => types

def joined (separator : JsString) (texts : List JsString) : JsString :=
  separator.intercalate texts

/-- The keywords that act on one kind of value, whether the node has them, and the kind. -/
def keywordTypes (node : OutputSchema) : List (JsString × Bool × List OutputSchemaType) :=
  [(js "properties", node.properties.isSome, [.object]),
    (js "required", node.keywords.required.isSome, [.object]),
    (js "additionalProperties", node.keywords.additionalProperties.isSome, [.object]),
    (js "items", node.items.isSome, [.array]),
    (js "minItems", node.keywords.minItems.isSome, [.array]),
    (js "maxItems", node.keywords.maxItems.isSome, [.array]),
    (js "minLength", node.keywords.minLength.isSome, [.string]),
    (js "maxLength", node.keywords.maxLength.isSome, [.string]),
    (js "minimum", node.keywords.minimum.isSome, [.number, .integer]),
    (js "maximum", node.keywords.maximum.isSome, [.number, .integer])]

def typeProblems (node : OutputSchema) : List NodeProblem :=
  if (typesOf node.keywords).Nodup then []
  else [⟨[.key (js "type")], js "lists a type more than once"⟩]

def keywordProblems (node : OutputSchema) : List NodeProblem :=
  (keywordTypes node).filterMap fun (keyword, present, kinds) =>
    if present && !(typesOf node.keywords).any kinds.contains then
      some ⟨[.key keyword], js "acts only on " ++ joined (js " or ") (kinds.map (·.text)) ++
        js " values \u2014 declare that type on this node"⟩
    else none

/-- The problems of the required names behind those in `seen`. -/
def requiredProblems (properties : Option (List (JsString × OutputSchema))) :
    List JsString → List JsString → List NodeProblem
  | _, [] => []
  | seen, name :: rest =>
      let at' : List SchemaStep := [.key (js "required"), .index seen.length]
      let more := requiredProblems properties (seen ++ [name]) rest
      if !(properties.any fun declared => (declared.lookup name).isSome) then
        ⟨at', js "names \"" ++ name ++ js "\", which properties does not declare"⟩ :: more
      else if seen.contains name then
        ⟨at', js "names \"" ++ name ++ js "\" more than once"⟩ :: more
      else more

def boundProblem (low high : JsString) : Option ℚ → Option ℚ → List NodeProblem
  | some least, some most =>
      if most < least then [⟨[.key low], js "is greater than " ++ high⟩] else []
  | _, _ => []

/-- A node's own problems beyond its shape. -/
def nodeProblems (node : OutputSchema) : List NodeProblem :=
  typeProblems node ++ keywordProblems node ++
    requiredProblems node.properties [] (node.keywords.required.getD []) ++
      boundProblem (js "minLength") (js "maxLength") node.keywords.minLength
          node.keywords.maxLength ++
        boundProblem (js "minimum") (js "maximum") node.keywords.minimum node.keywords.maximum ++
          boundProblem (js "minItems") (js "maxItems") node.keywords.minItems
            node.keywords.maxItems

/-- A whole number from zero up that a double holds exactly. -/
def isBound (number : ℚ) : Bool := number.den = 1 && 0 ≤ number && number ≤ 2 ^ 53 - 1

/-- The shape of a node without its children. -/
def hasShape (node : OutputSchema) : Bool :=
  (match node.keywords.type with
    | some (.several types) => 1 ≤ types.length && types.length ≤ 7
    | _ => true) &&
  node.keywords.description.all (fun text =>
    text.length ≤ OUTPUT_SCHEMA_MAX_DESCRIPTION_CHARS) &&
  node.keywords.required.all (fun names => names.length ≤ OUTPUT_SCHEMA_MAX_PROPERTIES) &&
  node.keywords.enum.all (fun values =>
    1 ≤ values.length && values.length ≤ OUTPUT_SCHEMA_MAX_ENUM) &&
  [node.keywords.minLength, node.keywords.maxLength, node.keywords.minItems,
    node.keywords.maxItems].all (fun bound => bound.all isBound) &&
  node.properties.all (fun declared => declared.length ≤ OUTPUT_SCHEMA_MAX_PROPERTIES &&
    declared.all fun property => 1 ≤ property.1.length &&
      property.1.length ≤ OUTPUT_SCHEMA_MAX_PROPERTY_NAME_CHARS)

mutual

/-- Whether a node and the nodes under it have their shape and no problems. -/
def acceptsNode : OutputSchema → Bool
  | .node keywords properties items =>
      hasShape (.node keywords properties items) &&
        (nodeProblems (.node keywords properties items)).isEmpty &&
          acceptsDeclared properties && acceptsItems items

def acceptsDeclared : Option (List (JsString × OutputSchema)) → Bool
  | none => true
  | some properties => acceptsProperties properties

def acceptsProperties : List (JsString × OutputSchema) → Bool
  | [] => true
  | (_, schema) :: properties => acceptsNode schema && acceptsProperties properties

def acceptsItems : Option OutputSchema → Bool
  | none => true
  | some schema => acceptsNode schema

end

mutual

/-- A schema is an object of JSON: no name is declared twice, and its literals are JSON
too. -/
def IsJson : OutputSchema → Prop
  | .node keywords properties items =>
      (∀ literal ∈ keywords.const, JsValue.Own literal) ∧
        (∀ literals ∈ keywords.enum, ∀ literal ∈ literals, JsValue.Own literal) ∧
          IsJsonDeclared properties ∧ IsJsonItems items

def IsJsonDeclared : Option (List (JsString × OutputSchema)) → Prop
  | none => True
  | some properties => (JsValue.keys properties).Nodup ∧ IsJsonProperties properties

def IsJsonProperties : List (JsString × OutputSchema) → Prop
  | [] => True
  | (_, schema) :: properties => IsJson schema ∧ IsJsonProperties properties

def IsJsonItems : Option OutputSchema → Prop
  | none => True
  | some schema => IsJson schema

end

/-- A schema that `OutputSchemaNodeSchema` accepts. -/
structure Accepted (schema : OutputSchema) : Prop where
  accepts : acceptsNode schema = true
  json : IsJson schema

end NextTime.Output
