import NextTime.HttpBinding.GateOwned
import NextTime.Storable.StorableText

/-
The manifest draft of an OpenAPI document: one Operation for each path and method, with the
params its parameters and its request body declare.
-/

namespace NextTime.HttpBinding

open JsString (js)
open OwnProperties (assign)
open Storable (PROTO setMember)

inductive ParameterIn
  | path
  | query
  | header
  | cookie
deriving DecidableEq, Repr

def ParameterIn.text : ParameterIn → JsString
  | .path => js "path"
  | .query => js "query"
  | .header => js "header"
  | .cookie => js "cookie"

section
variable (Number : Type)

/-- A parameter; `location` is its `in`. -/
structure OpenApiParameter where
  name : JsString
  location : ParameterIn
  required : Bool
  schema : Option (JsMembers Number)

/-- The JSON schema of a request body, of which no property has a name twice. -/
structure BodySchema where
  properties : JsMembers Number
  required : List JsString
  distinct : (JsValue.keys properties).Nodup

structure OpenApiOperationObject where
  operationId : Option JsString
  summary : Option JsString
  description : Option JsString
  parameters : List (OpenApiParameter Number)
  bodySchema : Option (BodySchema Number)

/-- The paths of a document, each with its operations by method. -/
structure OpenApiDocumentLike where
  paths : List (JsString × List (JsString × OpenApiOperationObject Number))

inductive Mode
  | observe
  | execute
deriving DecidableEq, Repr

inductive BlastRadius
  | low
  | medium
  | high
deriving DecidableEq, Repr

structure Operation where
  name : JsString
  description : JsString
  binding : Binding
  params_schema : JsMembers Number
  mode : Mode
  blast_radius : BlastRadius
  reversibility : Bool
  auto_approvable : Bool
  await_decision : Bool
  reads : List JsString
  writes : List JsString

end

section
variable {Number : Type} (casing : JsCasing)

def HTTP_METHODS : List JsString := ["get", "post", "put", "patch", "delete"].map js

def defaultBlastRadiusForVerb (method : JsString) : BlastRadius :=
  if method = js "get" then .low else if method = js "delete" then .high else .medium

/-- `[a-zA-Z0-9]`. -/
def isWordUnit (unit : UInt16) : Bool := isLowerOrDigit unit || isUpper unit

/-- Each run of other units as one `_`, none at the start; the flag is up behind one. -/
def underscored : Bool → JsString → JsString
  | _, [] => []
  | behind, unit :: rest =>
      if isWordUnit unit then unit :: underscored false rest
      else if behind then underscored true rest
      else 0x5F :: underscored true rest

def sanitizeName (path method : JsString) : JsString :=
  let named := underscored true (path.filter fun unit => !(js "\x7b\x7d").contains unit)
  method ++ 0x5F :: (if named.getLast? = some 0x5F then named.dropLast else named)

/-- What is never offered: a cookie, and what the gate sets itself. -/
def isLeftOut (param : OpenApiParameter Number) : Bool :=
  decide (param.location = .cookie) ||
    (decide (param.location = .header) && isGateOwnedHeader casing param.name []) ||
    (decide (param.location = .query) && isGateOwnedQueryParam casing param.name)

/-- The parameters that are offered. -/
def offered (op : OpenApiOperationObject Number) : List (OpenApiParameter Number) :=
  op.parameters.filter fun param => !isLeftOut casing param

/-- `{ ...(param.schema ?? {}), 'x-in': param.in }`, under the parameter's name. -/
def propertyOf (param : OpenApiParameter Number) : JsString × JsValue Number :=
  (param.name, .obj (assign (js "x-in") (.str param.location.text) (param.schema.getD [])))

def bodyProperties (op : OpenApiOperationObject Number) : JsMembers Number :=
  (op.bodySchema.map BodySchema.properties).getD []

/-- The parameters, and then the body's properties. -/
def mergedProperties (op : OpenApiOperationObject Number) : JsMembers Number :=
  ((offered casing op).map propertyOf ++ bodyProperties op).foldl
    (fun properties member => setMember member.1 member.2 properties) []

def requiredOf (op : OpenApiOperationObject Number) : List JsString :=
  ((offered casing op).filter OpenApiParameter.required).map OpenApiParameter.name ++
    (op.bodySchema.map BodySchema.required).getD []

def paramsSchemaFor (op : OpenApiOperationObject Number) : JsMembers Number :=
  let properties := mergedProperties casing op
  let required := requiredOf casing op
  if properties = [] then []
  else
    [(js "type", .str (js "object")), (js "properties", .obj properties)] ++
      if required = [] then [] else [(js "required", .arr (required.map .str))]

def draft (path method : JsString) (op : OpenApiOperationObject Number) : Operation Number :=
  let mode := if method = js "get" then Mode.observe else .execute
  { name := op.operationId.getD (sanitizeName path method)
    description := (op.summary.or op.description).getD
      (casing.toUpperCase method ++ js " " ++ path)
    binding := .http (casing.toUpperCase method) path
    params_schema := paramsSchemaFor casing op
    mode := mode
    blast_radius := defaultBlastRadiusForVerb method
    reversibility := false
    auto_approvable := decide (mode = .observe)
    await_decision := decide (mode = .execute)
    reads := []
    writes := [] }

def importOpenApi (document : OpenApiDocumentLike Number) : List (Operation Number) :=
  document.paths.flatMap fun entry =>
    HTTP_METHODS.filterMap fun method => (entry.2.lookup method).map (draft casing entry.1 method)

/-- `params_schema.required`. -/
def requiredNames (params_schema : JsMembers Number) : List JsString :=
  match params_schema.lookup (js "required") with
  | some (.arr names) => names.filterMap fun name =>
      match name with
      | .str text => some text
      | _ => none
  | _ => []

end

end NextTime.HttpBinding
