import NextTime.Library.JsonOrder

/-
The definition of an Operation as one text: JSON with sorted keys and without the members
that are undefined, and the digest of it.
-/

namespace NextTime.OperationDigest

open JsonText (quote NumberText)
open JsString (js)
open JsValue (sortKeys)

/-- A value in memory, where a member can be undefined. -/
inductive JsData (Number : Type)
  | undefined
  | null
  | bool (value : Bool)
  | num (number : Number)
  | str (text : JsString)
  | arr (items : List (JsData Number))
  | obj (members : List (JsString × JsData Number))

section
variable {Number : Type}

def JsData.isUndefined : JsData Number → Bool
  | .undefined => true
  | _ => false

namespace JsData

mutual

/-- A value that JSON.parse yields. -/
def ofValue : JsValue Number → JsData Number
  | .null => .null
  | .bool value => .bool value
  | .num number => .num number
  | .str text => .str text
  | .arr items => .arr (ofItems items)
  | .obj members => .obj (ofMembers members)

def ofItems : List (JsValue Number) → List (JsData Number)
  | [] => []
  | item :: items => ofValue item :: ofItems items

def ofMembers : JsMembers Number → List (JsString × JsData Number)
  | [] => []
  | (key, value) :: members => (key, ofValue value) :: ofMembers members

end

mutual

/-- The value without the members that are undefined. -/
def defined : JsData Number → JsValue Number
  | .undefined => .null
  | .null => .null
  | .bool value => .bool value
  | .num number => .num number
  | .str text => .str text
  | .arr items => .arr (definedItems items)
  | .obj members => .obj (definedMembers members)

def definedItems : List (JsData Number) → List (JsValue Number)
  | [] => []
  | item :: items => defined item :: definedItems items

def definedMembers : List (JsString × JsData Number) → JsMembers Number
  | [] => []
  | (key, value) :: members =>
      if value.isUndefined then definedMembers members
      else (key, defined value) :: definedMembers members

end

end JsData

/-! ### The canonical text -/

variable (numbers : JsNumbers Number)

mutual

def canonicalJson : JsData Number → JsString
  | .undefined => js "null"
  | .null => js "null"
  | .bool true => js "true"
  | .bool false => js "false"
  | .num number =>
      match numbers.write number with
      | some text => text.1
      | none => js "null"
  | .str text => quote text
  | .arr items => 0x5B :: (List.intercalate [0x2C] (canonicalItems items) ++ [0x5D])
  | .obj members =>
      0x7B :: (List.intercalate [0x2C]
        ((sortKeys (canonicalMembers members)).map fun member =>
          quote member.1 ++ 0x3A :: member.2) ++ [0x7D])

def canonicalItems : List (JsData Number) → List JsString
  | [] => []
  | item :: items => canonicalJson item :: canonicalItems items

/-- The members that are not undefined, each with its text. -/
def canonicalMembers : List (JsString × JsData Number) → List (JsString × JsString)
  | [] => []
  | (key, value) :: members =>
      if value.isUndefined then canonicalMembers members
      else (key, canonicalJson value) :: canonicalMembers members

end

/-! ### The definition of an Operation -/

/-- The fields as `OperationDefinitionSchema` parses them; one that is left out is undefined. -/
structure OperationFields (Number : Type) where
  name : JsData Number
  binding : JsData Number
  params_schema : JsData Number
  result_mapping : JsData Number
  mode : JsData Number
  reversibility : JsData Number
  blast_radius : JsData Number

def isSsh : JsData Number → Bool
  | .obj members =>
      match members.lookup (js "kind") with
      | some (.str kind) => kind == js "ssh"
      | _ => false
  | _ => false

def operationDefinition (parsed : OperationFields Number) : JsData Number :=
  .obj ([(js "name", parsed.name), (js "binding", parsed.binding),
      (js "params_schema", parsed.params_schema)] ++
    (if parsed.result_mapping.isUndefined then []
      else [(js "result_mapping", parsed.result_mapping)]) ++
    [(js "mode", parsed.mode), (js "reversibility", parsed.reversibility)] ++
    (if isSsh parsed.binding && !parsed.blast_radius.isUndefined then
      [(js "blast_radius", parsed.blast_radius)]
      else []))

/-- The digest of an operation that parses; `parse` is the schema, `sha256` the hash of a text in
hexadecimal digits. -/
def operationDefinitionDigest {Operation : Type} (parse : Operation → Option (OperationFields Number))
    (sha256 : JsString → JsString) (operation : Operation) : Option JsString :=
  (parse operation).map fun parsed =>
    js "sha256:" ++ sha256 (canonicalJson numbers (operationDefinition parsed))

end

end NextTime.OperationDigest
