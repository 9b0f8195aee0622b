import NextTime.Output.Schema

/-
A binding's path as the parser builds it, and which paths a binding may take: one that
compiles, goes through no reserved field and reads something of the output.
-/

namespace NextTime.Output

open JsString (js)

/-! ### Nodes -/

inductive PathNodeType
  | field
  | literal
  | expressionReference
  | current
  | identity
  | index
  | slice
  | subexpression
  | indexExpression
  | projection
  | valueProjection
  | filterProjection
  | pipe
  | flatten
  | notExpression
  | orExpression
  | andExpression
  | comparator
  | function
  | multiSelectList
  | multiSelectHash
  | keyValuePair
  | other
  deriving DecidableEq

mutual

/-- A node of a path's tree. -/
inductive PathNode
  | node (type : PathNodeType) (name : Option JsString) (value : PathPart)
      (children : List PathPart)

/-- What a node holds: nodes, numbers, and what is neither. -/
inductive PathPart
  | node (node : PathNode)
  | number (value : ℤ)
  | other

end

def PathPart.asNode : PathPart → Option PathNode
  | .node inner => some inner
  | _ => none

def childNodes : PathNode → List PathNode
  | .node _ _ _ children => children.filterMap PathPart.asNode

/-! ### What a path reads -/

/-- How a path reads the output it is evaluated at. -/
inductive RootRead
  | none
  | field
  | root
  | whole
  | branch
  deriving DecidableEq

def combined (reads : List RootRead) : RootRead :=
  if reads.contains .whole || reads.contains .root then .whole
  else if reads.contains .branch then .branch
  else if reads.contains .field then .field
  else .none

/-- A chain reads what its left side reads, unless that is the output itself. -/
def chainRead : List RootRead → RootRead
  | [] => .whole
  | base :: right =>
      if base ≠ .root then base
      else if right.contains .field then .field
      else if right.all fun read => read == .root || read == .none then .root
      else .whole

def operandsRead (logical : Bool) (reads : List RootRead) : RootRead :=
  let read := combined reads
  if logical && read == .field && reads.any (· != .field) then .branch else read

mutual

def rootRead : PathNode → RootRead
  | .node type _ _ children =>
      match type with
      | .field => .field
      | .literal | .expressionReference => .none
      | .current | .identity | .index | .slice => .root
      | .subexpression | .indexExpression | .projection | .valueProjection | .filterProjection
      | .pipe => chainRead (rootReads children)
      | .flatten => (rootReads children).headD .whole
      | .orExpression | .andExpression => operandsRead true (rootReads children)
      | .notExpression | .comparator | .function | .multiSelectList =>
          operandsRead false (rootReads children)
      | .multiSelectHash => combined (pairReads children)
      | .keyValuePair | .other => .whole

def partRead : PathPart → RootRead
  | .node node => rootRead node
  | _ => .none

def rootReads : List PathPart → List RootRead
  | [] => []
  | .node node :: parts => rootRead node :: rootReads parts
  | _ :: parts => rootReads parts

/-- The reads of the values of a hash's pairs. -/
def pairReads : List PathPart → List RootRead
  | [] => []
  | .node (.node _ _ value _) :: parts => partRead value :: pairReads parts
  | _ :: parts => pairReads parts

end

mutual

/-- The names of the fields a path goes through, in order. -/
def fieldNames : PathNode → List JsString
  | .node type name value children =>
      (if type = .field then name.toList else []) ++ partsNames children ++
        if type = .keyValuePair then partNames value else []

def partNames : PathPart → List JsString
  | .node node => fieldNames node
  | _ => []

def partsNames : List PathPart → List JsString
  | [] => []
  | part :: parts => partNames part ++ partsNames parts

end

/-! ### The paths a binding may take -/

def RESERVED_FIELDS : List JsString := [js "__proto__", js "constructor", js "prototype"]

/-- The paths `compile` reads, and the texts of the errors of those it does not. -/
abbrev CompilePath := JsString → Except JsString PathPart

def bindingPathProblems (compilePath : CompilePath) (path : JsString) : List JsString :=
  match compilePath path with
  | .error message =>
      [js "path \"" ++ path ++ js "\" is not a JMESPath expression: " ++ message]
  | .ok (.node ast) =>
      let reserved := (fieldNames ast).eraseDups.filter RESERVED_FIELDS.contains
      if 0 < reserved.length then
        [js "path \"" ++ path ++ js "\" goes through " ++ joined (js ", ") reserved]
      else if rootRead ast = .none then
        [js "path \"" ++ path ++ js "\" reads nothing from the output"]
      else []
  | .ok _ => [js "path \"" ++ path ++ js "\" reads nothing from the output"]

/-! ### Plain paths -/

/-- A step of a plain path: a named field, or a position in a list. -/
inductive ChainStep
  | field (name : JsString)
  | index (position : ℤ)
  deriving DecidableEq

mutual

/-- The steps of a path of fields and positions only. -/
def plainChain : PathNode → Option (List ChainStep)
  | .node type name value children =>
      match type with
      | .current | .identity => some []
      | .field => name.map fun name => [.field name]
      | .index =>
          match value with
          | .number position => some [.index position]
          | _ => none
      | .subexpression | .indexExpression =>
          match plainChains children with
          | [left, right] => left.bind fun left => right.map fun right => left ++ right
          | _ => none
      | _ => none

def plainChains : List PathPart → List (Option (List ChainStep))
  | [] => []
  | .node node :: parts => plainChain node :: plainChains parts
  | _ :: parts => plainChains parts

end

/-- `/^[A-Za-z_][A-Za-z0-9_]*$/`. -/
def isPlainField : JsString → Bool
  | [] => false
  | first :: rest =>
      isNameStart first && rest.all fun unit => isNameStart unit || JsonText.isDigit unit

def stepText (isFirst : Bool) : ChainStep → JsString
  | .index position => js "[" ++ js (toString position) ++ js "]"
  | .field name =>
      (if isFirst then [] else js ".") ++ if isPlainField name then name else JsonText.quote name

/-- A plain path as JMESPath writes it. -/
def chainText : List ChainStep → JsString
  | [] => []
  | first :: rest => stepText true first ++ (rest.map (stepText false)).flatten

/-! ### What a schema rules out -/

/-- What a schema describes: a step's output, or a Procedure's parameters. -/
inductive Subject
  | output
  | parameters

def Subject.text : Subject → JsString
  | .output => js "output"
  | .parameters => js "parameters"

def declaredField (node : OutputSchema) (name : JsString) : Option OutputSchema :=
  node.properties.bind (·.lookup name)

/-- Whether a node that declares types declares none of this one. -/
def excludesType (node : OutputSchema) (type : OutputSchemaType) : Bool :=
  node.keywords.type.isSome && !(typesOf node.keywords).contains type

/-- The problem of the steps behind those in `before`, which lead to `at'`. -/
def chainProblems (path : JsString) (subject : Subject) (before : List ChainStep) :
    Option OutputSchema → List ChainStep → List JsString
  | _, [] => []
  | none, _ => []
  | some node, step :: rest =>
      let opening := js "path \"" ++ path ++ js "\": "
      let where' := if before = [] then js "the " ++ subject.text else chainText before
      match step with
      | .field name =>
          if excludesType node .object then
            [opening ++ where' ++ js " is not an object in the " ++ subject.text ++ js " schema"]
          else if (declaredField node name).isNone &&
              node.keywords.additionalProperties == some false then
            [opening ++ js "the " ++ subject.text ++ js " schema does not declare " ++
              JsonText.quote name ++ js " in " ++ where']
          else chainProblems path subject (before ++ [step]) (declaredField node name) rest
      | .index _ =>
          if excludesType node .array then
            [opening ++ where' ++ js " is not a list in the " ++ subject.text ++ js " schema"]
          else chainProblems path subject (before ++ [step]) node.items rest

def bindingSchemaProblems (compilePath : CompilePath) (path : JsString) (schema : OutputSchema)
    (subject : Subject) : List JsString :=
  match compilePath path with
  | .ok (.node ast) =>
      match plainChain ast with
      | some steps => chainProblems path subject [] (some schema) steps
      | none => []
  | _ => []

end NextTime.Output
